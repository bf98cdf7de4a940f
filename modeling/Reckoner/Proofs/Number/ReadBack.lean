import Mathlib
import Reckoner.NumberText
import Reckoner.Proofs.Grammar.Literal
import Reckoner.Proofs.Number.Shortest
import Reckoner.Proofs.Number.Writing

/-!
Written numbers are read back. The text of a writing is read as its decimal, and the shortest text
of a finite double is read as that double, sign included.
-/
namespace Reckoner.Numeral

open Decimal (Writing)

def numberChars : List Char :=
  ['0', '1', '2', '3', '4', '5', '6', '7', '8', '9', '.', 'e', '+', '-']

theorem holds_of_isDigit (property : Char → Prop)
    (all : ∀ code < 58, 48 ≤ code → property (Char.ofNat code)) {c : Char}
    (digit : c.isDigit = true) : property c := by
  have bounds : 48 ≤ c.toNat ∧ c.toNat < 58 := by
    simp only [Char.isDigit, UInt32.le_iff_toNat_le, Bool.and_eq_true, decide_eq_true_eq,
      ge_iff_le] at digit
    exact ⟨digit.1, Nat.lt_succ_of_le digit.2⟩
  have char := all c.toNat bounds.2 bounds.1
  rwa [Char.ofNat_toNat] at char

theorem mem_numberChars_of_isDigit {c : Char} (digit : c.isDigit = true) : c ∈ numberChars :=
  holds_of_isDigit (· ∈ numberChars) (by decide) digit

theorem dropUnderscores_of_not_mem {text : List Char} (none : '_' ∉ text) (afterDigit : Bool) :
    dropUnderscores afterDigit text = some text := by
  induction text generalizing afterDigit with
  | nil => rfl
  | cons c rest ih =>
    rw [List.mem_cons, not_or] at none
    rw [dropUnderscores.eq_4 _ _ _ (fun _ _ same => (none.1 same.symm).elim)
      (fun same => (none.1 same.symm).elim), ih none.2, Option.map_some]

theorem plain_of_numberChars {text : List Char} (clean : ∀ c ∈ text, c ∈ numberChars) :
    plain text = some text := by
  have all : numberChars.all (fun c => !isMargin c && plainDigit c == c && c != '_') = true := by
    decide
  have chars (c : Char) (member : c ∈ numberChars) :
      ¬isMargin c = true ∧ plainDigit c = c ∧ c ≠ '_' := by
    simpa [and_assoc] using List.all_eq_true.mp all c member
  have noMargin (side : List Char) (within : ∀ c ∈ side, c ∈ text) :
      side.dropWhile isMargin = side := by
    cases side with
    | nil => rfl
    | cons c rest =>
      rw [List.dropWhile_cons_of_neg (chars c (clean c (within c List.mem_cons_self))).1]
  have kept : text.map plainDigit = text :=
    (List.map_congr_left fun c member => (chars c (clean c member)).2.1).trans (List.map_id' text)
  have trimmed : Text.trimBoth isMargin text = text := by
    rw [Text.trimBoth, noMargin text (fun c member => member),
      noMargin text.reverse (fun c member => List.mem_reverse.mp member), List.reverse_reverse]
  rw [plain, trimmed, kept]
  exact dropUnderscores_of_not_mem (fun member => (chars '_' (clean '_' member)).2.2 rfl) false

theorem exponent?_exponentText (exponent : Int) :
    exponent? (Decimal.exponentText exponent) = some exponent := by
  have digits : (Text.decimal 2 exponent.natAbs).all Char.isDigit = true :=
    List.all_eq_true.mpr fun c => isDigit_of_mem_decimal
  have present : (Text.decimal 2 exponent.natAbs).isEmpty = false :=
    List.isEmpty_eq_false_iff.mpr (decimal_ne_nil _ _)
  rw [Decimal.exponentText]
  split
  all_goals
    simp only [exponent?, takeSign, present, digits, ofDigits_decimal, Bool.not_true, Bool.or_self,
      Bool.false_eq_true, ↓reduceIte, Option.some.injEq]
    omega

theorem decimal?_exponent (whole : List Char) (exponent : Int) (present : whole ≠ [])
    (digits : ∀ c ∈ whole, c.isDigit = true) :
    decimal? (whole ++ 'e' :: Decimal.exponentText exponent) =
      some ⟨ofDigits whole, exponent⟩ := by
  have spanned := Grammar.span_isDigit whole ('e' :: Decimal.exponentText exponent) digits (by simp)
  have some : whole.isEmpty = false := List.isEmpty_eq_false_iff.mpr present
  unfold decimal?
  simp only [spanned, some]
  simp [exponent?_exponentText]

theorem decimal?_point_exponent (whole places : List Char) (exponent : Int) (present : whole ≠ [])
    (digits : ∀ c ∈ whole, c.isDigit = true) (digits' : ∀ c ∈ places, c.isDigit = true) :
    decimal? (whole ++ '.' :: (places ++ 'e' :: Decimal.exponentText exponent)) =
      some ⟨ofDigits (whole ++ places), exponent - places.length⟩ := by
  have first := Grammar.span_isDigit whole
    ('.' :: (places ++ 'e' :: Decimal.exponentText exponent)) digits (by simp)
  have second :=
    Grammar.span_isDigit places ('e' :: Decimal.exponentText exponent) digits' (by simp)
  have some : whole.isEmpty = false := List.isEmpty_eq_false_iff.mpr present
  unfold decimal?
  simp only [first, second, some]
  simp [exponent?_exponentText]

theorem decimal?_text (writing : Writing) : decimal? writing.text = some writing.decimal := by
  obtain ⟨whole, places, exponent, digits, present, leading⟩ := writing
  have wholeDigits : ∀ c ∈ whole, c.isDigit = true := fun c member =>
    digits c (List.mem_append_left _ member)
  have placesDigits : ∀ c ∈ places, c.isDigit = true := fun c member =>
    digits c (List.mem_append_right _ member)
  cases places with
  | nil =>
    cases exponent with
    | none =>
      have read := Grammar.decimal?_whole wholeDigits
      rw [if_neg present] at read
      simpa [Writing.text, Writing.exponentPart, Writing.decimal, Decimal.fraction] using read
    | some exponent =>
      have read := decimal?_exponent whole exponent present wholeDigits
      simpa [Writing.text, Writing.exponentPart, Writing.decimal, Decimal.fraction] using read
  | cons place places =>
    cases exponent with
    | none =>
      have read := Grammar.decimal?_point whole (place :: places) [] wholeDigits placesDigits
        (by simp)
      rw [if_neg (by simp)] at read
      simpa [Writing.text, Writing.exponentPart, Writing.decimal, Decimal.fraction] using read
    | some exponent =>
      have read := decimal?_point_exponent whole (place :: places) exponent present wholeDigits
        placesDigits
      simpa [Writing.text, Writing.exponentPart, Writing.decimal, Decimal.fraction] using read

def signed (negative : Bool) (text : List Char) : List Char :=
  if negative then '-' :: text else text

theorem mem_numberChars_of_mem_exponentText {exponent : Int} {c : Char}
    (member : c ∈ Decimal.exponentText exponent) : c ∈ numberChars := by
  rcases List.mem_cons.mp member with rfl | digit
  · split <;> decide
  · exact mem_numberChars_of_isDigit (isDigit_of_mem_decimal digit)

theorem mem_numberChars_of_mem_text {writing : Writing} {c : Char} (member : c ∈ writing.text) :
    c ∈ numberChars := by
  have digits (digit : c ∈ writing.whole ++ writing.places) : c ∈ numberChars :=
    mem_numberChars_of_isDigit (writing.digits c digit)
  rcases List.mem_append.mp member with front | exponent
  · rcases List.mem_append.mp front with whole | fraction
    · exact digits (List.mem_append_left _ whole)
    · rw [Decimal.fraction] at fraction
      split at fraction
      · cases fraction
      · rcases List.mem_cons.mp fraction with rfl | place
        · decide
        · exact digits (List.mem_append_right _ place)
  · rw [Writing.exponentPart] at exponent
    cases part : writing.exponent with
    | none => simp [part] at exponent
    | some place =>
      simp only [part, Option.map_some, Option.getD_some, List.mem_cons] at exponent
      rcases exponent with rfl | digit
      · decide
      · exact mem_numberChars_of_mem_exponentText digit

theorem mem_numberChars_of_mem_signed {negative : Bool} {writing : Writing} {c : Char}
    (member : c ∈ signed negative writing.text) : c ∈ numberChars := by
  cases negative with
  | false => exact mem_numberChars_of_mem_text member
  | true =>
    rcases List.mem_cons.mp member with rfl | inside
    · decide
    · exact mem_numberChars_of_mem_text inside

theorem exists_text_eq_cons (writing : Writing) :
    ∃ first rest, writing.text = first :: rest ∧ first.isDigit = true := by
  obtain ⟨first, rest, whole⟩ := List.exists_cons_of_ne_nil writing.present
  refine ⟨first, rest ++ Decimal.fraction false writing.places ++ writing.exponentPart, ?_, ?_⟩
  · rw [Writing.text, whole]
    rfl
  · apply writing.digits
    rw [whole]
    exact List.mem_cons_self

theorem takeSign_signed (negative : Bool) (writing : Writing) :
    takeSign (signed negative writing.text) = (negative, writing.text) := by
  cases negative with
  | true => rfl
  | false =>
    obtain ⟨first, rest, text, digit⟩ := exists_text_eq_cons writing
    have unsigned : first ≠ '-' ∧ first ≠ '+' := by
      constructor <;> rintro rfl <;> cases digit
    rw [signed, text]
    simp only [Bool.false_eq_true, ↓reduceIte]
    rw [takeSign]
    · exact fun _ same => unsigned.1 (List.cons.inj same).1
    · exact fun _ same => unsigned.2 (List.cons.inj same).1

theorem lowered_text_ne (writing : Writing) {letter : Char} (rest : List Char)
    (word : letter.isDigit = false) : String.ofList (writing.text.map Char.toLower) ≠
      String.ofList (letter :: rest) := by
  obtain ⟨first, behind, text, digit⟩ := exists_text_eq_cons writing
  have small : first.toLower = first :=
    holds_of_isDigit (fun c => c.toLower = c) (by decide) digit
  intro same
  rw [text, List.map_cons, small, String.ofList_inj] at same
  rw [(List.cons.inj same).1, word] at digit
  cases digit

theorem real?_signed (negative : Bool) (writing : Writing) :
    real? (signed negative writing.text) = some (writing.decimal.toFloat negative) := by
  rw [real?, plain_of_numberChars fun c => mem_numberChars_of_mem_signed]
  simp only [Option.bind_eq_bind, Option.bind_some, takeSign_signed]
  split
  next word => exact (lowered_text_ne writing ['n', 'f'] rfl word).elim
  next word => exact (lowered_text_ne writing ['n', 'f', 'i', 'n', 'i', 't', 'y'] rfl word).elim
  next word => exact (lowered_text_ne writing ['a', 'n'] rfl word).elim
  next => rw [decimal?_text, Option.map_some]

end Reckoner.Numeral

namespace Reckoner.Binary64

theorem ofRank_rank (x : Float) : ofRank (isNegative x) (rank x) = x := by
  have word : (if isNegative x then Nat.pow 2 63 + rank x else rank x) = x.toBits.toNat := by
    have bound : x.toBits.toNat < Nat.pow 2 63 + Nat.pow 2 63 := x.toBits.toNat_lt
    rw [isNegative, rank]
    generalize Nat.pow 2 63 = sign at *
    by_cases negative : sign ≤ x.toBits.toNat
    · rw [if_pos (decide_eq_true negative), Nat.mod_eq_sub_mod negative,
        Nat.mod_eq_of_lt (by omega), Nat.add_sub_cancel' negative]
    · rw [if_neg (by simpa using negative), Nat.mod_eq_of_lt (by omega)]
  rw [ofRank, word, UInt64.ofNat_toNat, Float.ofBits_toBits]

theorem eq_infinity {x : Float} (infinite : isFinite x = false) (number : isNaN x = false) :
    x = infinity (isNegative x) := by
  have least : infinityRank ≤ rank x := by simpa [isFinite] using infinite
  have most : rank x ≤ infinityRank := by simpa [isNaN] using number
  rw [infinity, ← Nat.le_antisymm most least, ofRank_rank]

theorem toBits_of_isNaN {x : Float} (nan : isNaN x = true) : x.toBits = 0x7FF8000000000000 := by
  have beyond : 2047 * 2 ^ 52 < x.toBits.toNat % 2 ^ 63 := of_decide_eq_true nan
  have bound := x.toBits.toNat_lt
  rw [← UInt64.toBitVec_inj]
  -- All exponent bits are set and some other bit is, which is kept for the one non-number.
  apply x.toModel.valid.eq_packedNaN
  · apply BitVec.eq_of_toNat_eq
    change x.toBits.toNat >>> 52 % 2 ^ 11 = 2047
    rw [Nat.shiftRight_eq_div_pow]
    omega
  · intro none
    have mantissa : x.toBits.toNat >>> 0 % 2 ^ 52 = 0 := congrArg BitVec.toNat none
    rw [Nat.shiftRight_zero] at mantissa
    omega

theorem eq_notANumber {x : Float} (nan : isNaN x = true) : x = notANumber := by
  rw [← Float.ofBits_toBits x, toBits_of_isNaN nan]
  rfl

end Reckoner.Binary64

namespace Reckoner.NumberText

theorem exponent_shortest {place : Nat} (finite : place < Binary64.infinityRank)
    (zero : (Decimal.shortest place).coefficient = 0) : (Decimal.shortest place).exponent = 0 := by
  have same := Decimal.nearestRank_shortest finite
  rw [Decimal.nearestRank_of_coefficient_eq_zero zero] at same
  rw [← same]
  decide

theorem exists_shortest {x : Float} (finite : Binary64.isFinite x = true) :
    ∃ exponent text, (Decimal.shortest (Binary64.rank x)).WrittenAs exponent text ∧
      (shortest x).toList = Numeral.signed (Binary64.isNegative x) text := by
  obtain ⟨exponent, written⟩ :=
    shortestLayout.exists_writtenAs rfl (exponent_shortest (of_decide_eq_true finite))
  refine ⟨exponent, _, written, ?_⟩
  rw [shortest, orSpecial, if_pos finite, String.toList_ofList]
  rfl

theorem real?_shortest {x : Float} (finite : Binary64.isFinite x = true) :
    Numeral.real? (shortest x).toList = some x := by
  obtain ⟨_, _, ⟨writing, _, rfl, value⟩, text⟩ := exists_shortest finite
  have nearest : writing.decimal.nearestRank = Binary64.rank x :=
    (Decimal.nearestRank_eq_of_value_eq value).trans
      (Decimal.nearestRank_shortest (of_decide_eq_true finite))
  rw [text, Numeral.real?_signed, Decimal.toFloat_eq, nearest, Binary64.ofRank_rank]

end Reckoner.NumberText
