import Reckoner.Answer
import Reckoner.CommandLine.Run
import Reckoner.Environment
import Reckoner.Log.Journal
import Reckoner.Log.Timestamp
import Reckoner.Main
import Reckoner.Session
import Reckoner.Proofs.Grammar.ViablePrefix
import Reckoner.Proofs.Grammar.Raise
import Reckoner.Proofs.Reading.Spacing
import Reckoner.Proofs.Log.Routing
import Reckoner.Proofs.Log.Framing
import Reckoner.Proofs.Batch.Schedule
import Reckoner.Proofs.Number.Grid
import Reckoner.Proofs.Number.Shortest
import Reckoner.Proofs.Number.Digits
import Reckoner.Proofs.Number.Writing
import Reckoner.Proofs.Number.ReadBack
import Reckoner.Proofs.Number.Exact
import Reckoner.Proofs.Number.NearestDouble
import Reckoner.Proofs.Number.Significant
import Reckoner.Proofs.Number.Formatting
import Reckoner.Proofs.Number.HalfUp
import Reckoner.Proofs.Number.Table
import Reckoner.Proofs.Grammar.DecimalValue
import Reckoner.Proofs.Grammar.PrintedNumber
import Reckoner.Proofs.Json.Reader
import Reckoner.Proofs.Json.RoundTrip
import Reckoner.Proofs.Json.Report
import Reckoner.Proofs.CommandLine.Classification
import Reckoner.Proofs.CommandLine.Preference
import Reckoner.Proofs.CommandLine.Display
import Reckoner.Proofs.CommandLine.OneShot
import Reckoner.Proofs.CommandLine.Dialogue
import Reckoner.Proofs.CommandLine.Refusal
import Reckoner.Proofs.CommandLine.ValueApart
import Reckoner.Proofs.Grammar.Wording
import Reckoner.Proofs.Batch.Conservation
import Reckoner.Proofs.Log.TextFormat
import Reckoner.Proofs.CommandLine.Uses
import Reckoner.Proofs.CommandLine.Override
import Reckoner.Proofs.Session.Settings
import Reckoner.Proofs.Log.Replacement
import Reckoner.Proofs.Grammar.Trace
import Reckoner.Proofs.Grammar.Transparency
import Reckoner.Proofs.Session.Agreement
import Reckoner.Proofs.Reading.Use
import Reckoner.Proofs.Grammar.Exponent
import Reckoner.Proofs.Machine.SinglePass
import Reckoner.Proofs.Log.Stamp
