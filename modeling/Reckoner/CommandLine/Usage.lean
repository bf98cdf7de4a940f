import Reckoner.CommandLine.Flag

/-! The usage and help texts, laid out for eighty columns. -/
namespace Reckoner.CommandLine

def programName : String := "hitung"

def lines (texts : List String) : String := String.join (texts.map (· ++ "\n"))

def usageText : String := lines [
  "usage: hitung [-h] [-e EVAL_EXPR] [--format \x7bjson,human\x7d] [-p PRECISION]",
  "              [--max-depth MAX_DEPTH] [-v]",
  "              [--log-level \x7bDEBUG,INFO,WARNING,ERROR\x7d] [--log-file LOG_FILE]",
  "              [--log-format \x7btext,json\x7d] [--health-check]"]

def helpText : String := usageText ++ lines [
  "",
  "Evaluate arithmetic expressions.",
  "",
  "options:",
  "  -h, --help            show this help message and exit",
  "  -e EVAL_EXPR, --eval EVAL_EXPR",
  "                        Evaluate one expression and exit (non-interactive)",
  "  --format \x7bjson,human\x7d",
  "                        Output format: json (machine-readable) or human",
  "                        (human-readable)",
  "  -p PRECISION, --precision PRECISION",
  "                        Set output precision (significant digits)",
  "  --max-depth MAX_DEPTH",
  "                        Set maximum nesting depth (default: 100)",
  "  -v, --version         Show program version",
  "  --log-level \x7bDEBUG,INFO,WARNING,ERROR\x7d",
  "                        Set logging level",
  "  --log-file LOG_FILE   Write logs to file",
  "  --log-format \x7btext,json\x7d",
  "                        Log line format: text or json (one object per line)",
  "  --health-check        Run health check and verify dependencies"]

def UsageFault.complaint (fault : UsageFault) : String :=
  usageText ++ programName ++ ": error: " ++ fault.message ++ "\n"

end Reckoner.CommandLine
