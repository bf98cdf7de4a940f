import Reckoner.Json
import Reckoner.Proofs.Json.Reader
import Reckoner.Proofs.Number.ReadBack

/-!
An object that was written is read back with every name and every string as it was. No control
character stands in its text, so it takes up one line.
-/
namespace Reckoner.Json

open Decimal (Writing)
open Numeral (signed numberChars)

/-! Strings. -/

theorem hexValue?_hexDigit {n : Nat} (small : n < 16) : hexValue? (hexDigit n) = some n := by
  have all : ∀ k < 16, hexValue? (hexDigit k) = some k := by decide
  exact all n small

theorem escape?_control {c : Char} (control : c.toNat < 0x20) (text : List Char) :
    escape? ('u' :: '0' :: '0' :: hexDigit (c.toNat / 16) :: hexDigit (c.toNat % 16) :: text) =
      some (c, text) := by
  have zero : hexValue? '0' = some 0 := by decide
  have high := hexValue?_hexDigit (show c.toNat / 16 < 16 by omega)
  have low := hexValue?_hexDigit (show c.toNat % 16 < 16 by omega)
  have code : 16 * (c.toNat / 16) + c.toNat % 16 = c.toNat := Nat.div_add_mod c.toNat 16
  rw [escape?, numericEscape?, codeUnit?, zero, high, low]
  simp [code, show c.toNat < 0xD800 by omega]

theorem content?_escape {c letter : Char} {rest text : List Char} (rounds : Nat)
    (escaped : escape? (letter :: rest) = some (c, text)) :
    content? (rounds + 1) ('\\' :: letter :: rest) =
      (content? rounds text).map fun (content, rest) => (c :: content, rest) := by
  rw [content?, escaped]
  rfl

theorem content?_escaped (rounds : Nat) (c : Char) (text : List Char) :
    content? (rounds + 1) (escaped c ++ text) =
      (content? rounds text).map fun (content, rest) => (c :: content, rest) := by
  have letter {letter : Char} (same : letterEscapes.lookup letter = some c) (plain : letter ≠ 'u') :
      content? (rounds + 1) ('\\' :: letter :: text) =
        (content? rounds text).map fun (content, rest) => (c :: content, rest) := by
    apply content?_escape
    rw [escape?, same, Option.map_some]
    exact plain
  unfold escaped
  -- Seven characters have an escape of one letter; then come the other controls and the rest.
  iterate 7
    split
    next same =>
      rw [same] at letter ⊢
      exact letter rfl (by decide)
  split
  next control => exact content?_escape rounds (escape?_control control text)
  next printable =>
    rw [List.singleton_append, content?]
    · rw [if_neg printable]
    · assumption
    · assumption

theorem length_escaped_pos (c : Char) : 0 < (escaped c).length := by
  unfold escaped
  repeat' split
  all_goals exact Nat.zero_lt_succ _

theorem length_le_flatMap_escaped (content : List Char) :
    content.length ≤ (content.flatMap escaped).length := by
  induction content with
  | nil => exact Nat.le_refl 0
  | cons c content ih =>
    have pos := length_escaped_pos c
    rw [List.flatMap_cons, List.length_append, List.length_cons]
    omega

theorem content?_flatMap (content rest : List Char) {rounds : Nat}
    (enough : content.length < rounds) :
    content? rounds (content.flatMap escaped ++ '"' :: rest) = some (content, rest) := by
  induction content generalizing rounds with
  | nil =>
    obtain ⟨rounds, rfl⟩ := Nat.exists_eq_succ_of_ne_zero enough.ne'
    rfl
  | cons c content ih =>
    rw [List.length_cons] at enough
    obtain ⟨rounds, rfl⟩ := Nat.exists_eq_succ_of_ne_zero (Nat.ne_zero_of_lt enough)
    rw [List.flatMap_cons, List.append_assoc, content?_escaped, ih (by omega), Option.map_some]

theorem string?_string (content : String) (rest : List Char) :
    string? (content.toList.flatMap escaped ++ '"' :: rest) = some (content, rest) := by
  have enough := length_le_flatMap_escaped content.toList
  rw [string?, content?_flatMap]
  · simp only [Option.map_some, String.ofList_toList]
  · rw [List.length_append, List.length_cons]
    omega

/-! Numbers. -/

/-- What follows cannot go on a number. -/
def Ends (rest : List Char) : Prop := ∀ c, rest.head? = some c → c ∉ numberChars ∧ c ≠ 'E'

theorem Ends.not_digit {rest : List Char} (ends : Ends rest) (c : Char)
    (head : rest.head? = some c) : c.isDigit = false := by
  by_contra digit
  exact (ends c head).1 (Numeral.mem_numberChars_of_isDigit (by simpa using digit))

theorem digits?_append {digits rest : List Char} (present : digits ≠ [])
    (inside : ∀ c ∈ digits, c.isDigit = true)
    (stops : ∀ c, rest.head? = some c → c.isDigit = false) :
    digits? (digits ++ rest) = some (digits, rest) := by
  have some : digits.isEmpty = false := List.isEmpty_eq_false_iff.mpr present
  rw [digits?, Grammar.span_isDigit digits rest inside stops]
  simp [some]

theorem exponentPart?_exponentPart (writing : Writing) {rest : List Char} (ends : Ends rest) :
    exponentPart? (writing.exponentPart ++ rest) = some (writing.exponentPart, rest) := by
  rw [Writing.exponentPart]
  cases writing.exponent with
  | none =>
    cases rest with
    | nil => rfl
    | cons c rest =>
      have other := ends c rfl
      have letter : ¬(c = 'e' ∨ c = 'E') := by
        rintro (rfl | rfl)
        · exact other.1 (by decide)
        · exact other.2 rfl
      simp [exponentPart?, letter]
  | some exponent =>
    have digits := digits?_append (Numeral.decimal_ne_nil 2 exponent.natAbs)
      (fun c => Numeral.isDigit_of_mem_decimal) ends.not_digit
    rw [Option.map_some, Option.getD_some, Decimal.exponentText]
    split <;> simp [exponentPart?, sign, digits]

theorem fraction?_fraction {places rest : List Char}
    (inside : ∀ c ∈ places, c.isDigit = true)
    (stops : ∀ c, rest.head? = some c → c.isDigit = false ∧ c ≠ '.') :
    fraction? (Decimal.fraction false places ++ rest) =
      some (Decimal.fraction false places, rest) := by
  cases places with
  | nil =>
    cases rest with
    | nil => rfl
    | cons c rest =>
      have point := (stops c rfl).2
      simp [Decimal.fraction, fraction?, point]
  | cons place places =>
    have digits := digits?_append (List.cons_ne_nil place places) inside fun c head =>
      (stops c head).1
    rw [List.cons_append] at digits
    simp [Decimal.fraction, fraction?, digits]

theorem stops_exponentPart (writing : Writing) {rest : List Char} (ends : Ends rest) (c : Char)
    (head : (writing.exponentPart ++ rest).head? = some c) : c.isDigit = false ∧ c ≠ '.' := by
  rw [Writing.exponentPart] at head
  cases part : writing.exponent with
  | none =>
    rw [part] at head
    have point : '.' ∈ numberChars := by decide
    refine ⟨ends.not_digit c head, ?_⟩
    rintro rfl
    exact (ends '.' head).1 point
  | some exponent =>
    rw [part] at head
    obtain rfl : 'e' = c := by simpa using head
    decide

theorem stops_fraction (writing : Writing) {rest : List Char} (ends : Ends rest) (c : Char)
    (head : (Decimal.fraction false writing.places ++ (writing.exponentPart ++ rest)).head? =
      some c) : c.isDigit = false := by
  rw [Decimal.fraction] at head
  split at head
  · exact (stops_exponentPart writing ends c head).1
  · obtain rfl : '.' = c := by simpa using head
    rfl

theorem sign_signed (negative : Bool) (writing : Writing) (rest : List Char) :
    sign ['-'] (signed negative writing.text ++ rest) =
      (signed negative [], writing.text ++ rest) := by
  cases negative with
  | true => rfl
  | false =>
    obtain ⟨first, behind, text, digit⟩ := Numeral.exists_text_eq_cons writing
    have unsigned : first ∉ ['-'] := by
      rw [List.mem_singleton]
      rintro rfl
      cases digit
    rw [signed, text]
    simp only [Bool.false_eq_true, ↓reduceIte, List.cons_append]
    rw [sign, if_neg unsigned]
    rfl

theorem number?_signed (negative : Bool) (writing : Writing) {rest : List Char}
    (ends : Ends rest) : number? (signed negative writing.text ++ rest) =
      some (signed negative writing.text, rest) := by
  have whole : whole? (writing.text ++ rest) = some (writing.whole,
      Decimal.fraction false writing.places ++ (writing.exponentPart ++ rest)) := by
    have split := digits?_append writing.present
      (fun c member => writing.digits c (List.mem_append_left _ member))
      (stops_fraction writing ends)
    rw [whole?, Writing.text, List.append_assoc, List.append_assoc, split]
    have leading := writing.leading
    simpa using leading
  have fraction := fraction?_fraction
    (fun c member => writing.digits c (List.mem_append_right _ member))
    (stops_exponentPart writing ends)
  rw [number?, sign_signed]
  simp only [whole, fraction, exponentPart?_exponentPart writing ends, Option.bind_eq_bind,
    Option.bind_some, Option.pure_def, Option.some.injEq, Prod.mk.injEq, and_true]
  cases negative <;> simp [signed, Writing.text]

/-! Documents. -/

def Scalar.document : Scalar → Document
  | .string content => .string content
  | .number literal => .number literal
  | .bool flag => .bool flag

def Scalar.IsPlain : Scalar → Prop
  | .string _ | .bool _ => True
  | .number literal =>
    ∃ negative, ∃ writing : Writing, literal.toList = signed negative writing.text

theorem document?_quote (depth : Nat) (text : List Char) : document? (depth + 1) ('"' :: text) =
    (string? text).map fun (content, rest) => (.string content, rest) := rfl

theorem document?_brace (depth : Nat) (text : List Char) :
    document? (depth + 1) ('\x7b' :: text) =
      (enclosed? (member? (document? depth)) '\x7d' text).map fun (members, rest) =>
        (.object members, rest) := rfl

theorem document?_number (depth : Nat) {c : Char} (first : c.isDigit = true ∨ c = '-')
    (text : List Char) : document? (depth + 1) (c :: text) =
      (number? (c :: text)).map fun (literal, rest) => (.number (String.ofList literal), rest) := by
  have other : isSpace c = false ∧ c ∉ ['"', '[', '\x7b', 't', 'f', 'n'] := by
    rcases first with digit | rfl
    · exact Numeral.holds_of_isDigit
        (fun c => isSpace c = false ∧ c ∉ ['"', '[', '\x7b', 't', 'f', 'n']) (by decide) digit
    · decide
  simp only [List.mem_cons, List.not_mem_nil, or_false, not_or] at other
  obtain ⟨solid, quote, bracket, brace, t, f, n⟩ := other
  have skipped : skip (c :: text) = c :: text :=
    List.dropWhile_cons_of_neg (by rw [solid]; exact Bool.false_ne_true)
  have word : constant? (c :: text) = none := by
    simp [constant?, constants, Ne.symm t, Ne.symm f, Ne.symm n]
  unfold document?
  rw [skipped]
  split
  next same => exact (quote (List.cons.inj same).1).elim
  next same => exact (bracket (List.cons.inj same).1).elim
  next same => exact (brace (List.cons.inj same).1).elim
  next => rw [word, Option.none_or]

theorem document?_write (depth : Nat) {value : Scalar} (plain : value.IsPlain) {rest : List Char}
    (ends : Ends rest) :
    document? (depth + 1) (value.write ++ rest) = some (value.document, rest) := by
  cases value with
  | string content =>
    have read := string?_string content rest
    rw [Scalar.write, Json.string, List.cons_append, List.cons_append, List.append_assoc,
      document?_quote, List.singleton_append, read]
    rfl
  | bool flag => cases flag <;> rfl
  | number literal =>
    obtain ⟨negative, writing, text⟩ := plain
    have read := number?_signed negative writing ends
    obtain ⟨c, behind, front, first⟩ : ∃ c behind, signed negative writing.text = c :: behind ∧
        (c.isDigit = true ∨ c = '-') := by
      cases negative with
      | true => exact ⟨'-', writing.text, rfl, Or.inr rfl⟩
      | false =>
        obtain ⟨c, behind, text, digit⟩ := Numeral.exists_text_eq_cons writing
        exact ⟨c, behind, text, Or.inl digit⟩
    rw [Scalar.write, text, front, List.cons_append, document?_number depth first,
      ← List.cons_append, ← front, read, ← text]
    simp only [Option.map_some, String.ofList_toList, Scalar.document]

/-! Objects. -/

theorem ends_cons {c : Char} (other : c ∉ numberChars) (capital : c ≠ 'E') (rest : List Char) :
    Ends (c :: rest) := by
  intro first head
  obtain rfl : c = first := by simpa using head
  exact ⟨other, capital⟩

theorem member?_member {depth : Nat} (name : String) {value : Scalar} (plain : value.IsPlain)
    {rest : List Char} (ends : Ends rest) :
    member? (document? (depth + 1)) (member name value ++ rest) =
      some ((name, value.document), rest) := by
  have text : member name value ++ rest = '"' :: (name.toList.flatMap escaped ++
      '"' :: ':' :: ' ' :: (value.write ++ rest)) := by
    simp [member, Json.string]
  have colon (behind : List Char) : skip (':' :: behind) = ':' :: behind := rfl
  have space : document? (depth + 1) (' ' :: (value.write ++ rest)) =
      document? (depth + 1) (value.write ++ rest) := rfl
  rw [text, member?]
  change ((string? _).bind _) = _
  rw [string?_string]
  simp only [Option.bind_some, colon, space, document?_write depth plain ends, Option.map_some]

def separated (members : List (String × Scalar)) : List Char :=
  [',', ' '].intercalate (members.map fun (name, value) => member name value)

theorem separated_cons (name : String) (value : Scalar) {others : List (String × Scalar)}
    (present : others ≠ []) : separated ((name, value) :: others) =
      member name value ++ ',' :: ' ' :: separated others := by
  obtain ⟨other, others, rfl⟩ := List.exists_cons_of_ne_nil present
  simp [separated, List.intercalate_cons_cons]

theorem elements?_space (depth : Nat) (rounds : Nat) (text : List Char) :
    elements? (member? (document? depth)) '\x7d' rounds (' ' :: text) =
      elements? (member? (document? depth)) '\x7d' rounds text := by
  cases rounds <;> rfl

theorem elements?_separated {depth : Nat} {members : List (String × Scalar)}
    (present : members ≠ []) (plain : ∀ entry ∈ members, entry.2.IsPlain) (rest : List Char)
    {rounds : Nat} (enough : members.length ≤ rounds) :
    elements? (member? (document? (depth + 1))) '\x7d' rounds
        (separated members ++ '\x7d' :: rest) =
      some (members.map fun (name, value) => (name, value.document), rest) := by
  induction members generalizing rounds with
  | nil => exact absurd rfl present
  | cons entry others ih =>
    obtain ⟨name, value⟩ := entry
    obtain ⟨rounds, rfl⟩ : ∃ less, rounds = less + 1 :=
      Nat.exists_eq_succ_of_ne_zero (Nat.ne_zero_of_lt enough)
    have scalar : value.IsPlain := plain (name, value) List.mem_cons_self
    -- A brace follows the last member and a comma every other one, and both end a number.
    cases others with
    | nil =>
      have ends := ends_cons (show '\x7d' ∉ numberChars by decide) (by decide) rest
      have alone : separated [(name, value)] = member name value := by simp [separated]
      have brace : skip ('\x7d' :: rest) = '\x7d' :: rest := rfl
      rw [alone, elements?, member?_member name scalar ends]
      simp [brace]
    | cons other others =>
      have later := ih (List.cons_ne_nil other others)
        (fun entry member => plain entry (List.mem_cons_of_mem _ member))
        (Nat.le_of_succ_le_succ enough)
      have ends := ends_cons (show ',' ∉ numberChars by decide) (by decide)
        (' ' :: (separated (other :: others) ++ '\x7d' :: rest))
      have comma (behind : List Char) : skip (',' :: behind) = ',' :: behind := rfl
      rw [separated_cons name value (List.cons_ne_nil other others), List.append_assoc,
        List.cons_append, List.cons_append, elements?, member?_member name scalar ends]
      simp [comma, elements?_space, later]

theorem length_le_separated (members : List (String × Scalar)) :
    members.length ≤ (separated members).length := by
  induction members with
  | nil => exact Nat.zero_le _
  | cons entry others ih =>
    cases others with
    | nil => simp [separated, member, Json.string]
    | cons other others =>
      rw [separated_cons _ _ (List.cons_ne_nil other others)]
      simp only [List.length_cons, List.length_append] at *
      omega

theorem toList_object (members : List (String × Scalar)) :
    (object members).toList = '\x7b' :: (separated members ++ ['\x7d']) := by
  simp [object, separated]

theorem enclosed?_separated {depth : Nat} {members : List (String × Scalar)}
    (plain : ∀ entry ∈ members, entry.2.IsPlain) :
    enclosed? (member? (document? (depth + 1))) '\x7d' (separated members ++ ['\x7d']) =
      some (members.map fun (name, value) => (name, value.document), []) := by
  cases members with
  | nil => rfl
  | cons entry others =>
    have enough := length_le_separated (entry :: others)
    have quote : ∃ behind, separated (entry :: others) ++ ['\x7d'] = '"' :: behind := by
      cases others with
      | nil => simp [separated, member, Json.string]
      | cons other others =>
        rw [separated_cons _ _ (List.cons_ne_nil other others)]
        simp [member, Json.string]
    obtain ⟨behind, front⟩ := quote
    have skipped : (skip ('"' :: behind)).head? ≠ some '\x7d' := by
      rw [show skip ('"' :: behind) = '"' :: behind from rfl, List.head?_cons]
      decide
    rw [enclosed?, front, if_neg skipped, ← front]
    apply elements?_separated (List.cons_ne_nil entry others) plain
    rw [List.length_append]
    omega

theorem read_object {members : List (String × Scalar)}
    (plain : ∀ entry ∈ members, entry.2.IsPlain) :
    read (object members) =
      some (.object (members.map fun (name, value) => (name, value.document))) := by
  obtain ⟨depth, long⟩ : ∃ depth, (object members).length = depth + 1 := by
    refine ⟨(separated members ++ ['\x7d']).length, ?_⟩
    rw [← String.length_toList, toList_object, List.length_cons]
  rw [read, long, toList_object, document?_brace, enclosed?_separated plain]
  rfl

theorem le_of_mem_numberChars {c : Char} (member : c ∈ numberChars) : 0x20 ≤ c.toNat := by
  have all : numberChars.all (fun c => 0x20 ≤ c.toNat) = true := by decide
  exact of_decide_eq_true (List.all_eq_true.mp all c member)

theorem le_of_mem_string {content : List Char} {c : Char} (inside : c ∈ Json.string content) :
    0x20 ≤ c.toNat := by
  have quote : 0x20 ≤ '"'.toNat := by decide
  rcases List.mem_append.mp inside with front | back
  · rcases List.mem_cons.mp front with rfl | escape
    · exact quote
    · obtain ⟨_, _, escape⟩ := List.mem_flatMap.mp escape
      exact le_of_mem_escaped escape
  · rw [List.mem_singleton.mp back]
    exact quote

theorem le_of_mem_write {value : Scalar} (plain : value.IsPlain) {c : Char}
    (inside : c ∈ value.write) : 0x20 ≤ c.toNat := by
  cases value with
  | string content => exact le_of_mem_string inside
  | bool flag =>
    have all : (Scalar.bool flag).write.all (fun c => 0x20 ≤ c.toNat) = true := by
      cases flag <;> decide
    exact of_decide_eq_true (List.all_eq_true.mp all c inside)
  | number literal =>
    obtain ⟨negative, writing, text⟩ := plain
    rw [Scalar.write, text] at inside
    exact le_of_mem_numberChars (Numeral.mem_numberChars_of_mem_signed inside)

theorem le_of_mem_member {name : String} {value : Scalar} (plain : value.IsPlain) {c : Char}
    (inside : c ∈ member name value) : 0x20 ≤ c.toNat := by
  rcases List.mem_append.mp inside with quoted | behind
  · exact le_of_mem_string quoted
  · rcases List.mem_cons.mp behind with rfl | behind
    · decide
    · rcases List.mem_cons.mp behind with rfl | written
      · decide
      · exact le_of_mem_write plain written

theorem le_of_mem_separated {members : List (String × Scalar)}
    (plain : ∀ entry ∈ members, entry.2.IsPlain) {c : Char} (inside : c ∈ separated members) :
    0x20 ≤ c.toNat := by
  induction members with
  | nil => cases inside
  | cons entry others ih =>
    have first : entry.2.IsPlain := plain entry List.mem_cons_self
    cases others with
    | nil =>
      rw [show separated [entry] = member entry.1 entry.2 by simp [separated]] at inside
      exact le_of_mem_member first inside
    | cons other others =>
      rw [separated_cons _ _ (List.cons_ne_nil other others)] at inside
      rcases List.mem_append.mp inside with front | behind
      · exact le_of_mem_member first front
      · rcases List.mem_cons.mp behind with rfl | behind
        · decide
        · rcases List.mem_cons.mp behind with rfl | later
          · decide
          · exact ih (fun entry member => plain entry (List.mem_cons_of_mem _ member)) later

theorem le_of_mem_object {members : List (String × Scalar)}
    (plain : ∀ entry ∈ members, entry.2.IsPlain) {c : Char} (inside : c ∈ (object members).toList) :
    0x20 ≤ c.toNat := by
  rw [toList_object] at inside
  rcases List.mem_cons.mp inside with rfl | inside
  · decide
  · rcases List.mem_append.mp inside with within | brace
    · exact le_of_mem_separated plain within
    · rw [List.mem_singleton.mp brace]
      decide

end Reckoner.Json
