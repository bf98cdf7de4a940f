import Reckoner.Proofs.Log.Clock
import Reckoner.Proofs.Log.Framing
import Reckoner.Proofs.Log.Moment

/-!
Time stamps of log lines. Within the years of four digits the stamp of a record is the text of the
moment that its time is rounded to, it can be read off the line of the record in both formats, and
the stamps of two records are in the order of their times.
-/
namespace Reckoner.Log

open Binary64
open Calendar (daysToYear)

/-! Seconds. -/

/-- Microseconds since the start of 1970 that lie in the years 1 to 9999. -/
def InYears (count : ℤ) : Prop :=
  ((daysToYear 1 : ℤ) - daysToYear 1970) * 86400000000 ≤ count ∧
    count < ((daysToYear 10000 : ℤ) - daysToYear 1970) * 86400000000

theorem inYears_iff {count : ℤ} :
    InYears count ↔ -62135596800000000 ≤ count ∧ count < 253402300800000000 := by
  have first : daysToYear 1 = 366 := rfl
  have epoch := Timestamp.daysToYear_epoch
  have last := Calendar.daysToYear_add 10000
  have leap : Calendar.leapDay 10000 = 1 := rfl
  unfold Calendar.epochDay at epoch
  unfold InYears
  omega

namespace Timestamp

variable {seconds : Float} {count : ℤ} {time : String}

theorem fitsWord_of_inYears (within : InYears count) : fitsWord 64 (count / 1000000) = true := by
  obtain ⟨least, most⟩ := inYears_iff.mp within
  have power : Int.pow 2 (64 - 1) = 9223372036854775808 := rfl
  simp only [fitsWord, power, Bool.and_eq_true, decide_eq_true_eq]
  omega

theorem ofSeconds_eq_ok (stamped : ofSeconds seconds = .ok time) :
    isFinite seconds = true ∧ ofMilliseconds (microseconds seconds / 1000) = .ok time := by
  unfold ofSeconds at stamped
  split at stamped
  next finite =>
    split at stamped
    next => exact ⟨finite, stamped⟩
    next => cases stamped
  next => cases stamped

/-- A time in the years of four digits is stamped with the moment that its microseconds lead to,
what is left of a millisecond being cut off. -/
theorem exists_moment_of_ticks (ticks : Ticks seconds count) (within : InYears count) :
    ∃ moment : Moment, ofSeconds seconds = .ok moment.text ∧
      moment.milliseconds = count / 1000 := by
  have same : microseconds seconds = count := (ticks_microseconds ticks.finite).eq ticks
  have fits := fitsWord_of_inYears within
  obtain ⟨least, most⟩ := within
  obtain ⟨time, stamped⟩ : ∃ time, ofMilliseconds (count / 1000) = .ok time :=
    exists_stamp_iff.mpr (by omega)
  obtain ⟨moment, rfl, reached⟩ := exists_moment stamped
  refine ⟨moment, ?_, reached⟩
  rw [ofSeconds, if_pos ticks.finite, same, if_pos fits, stamped]

theorem ofSeconds_le {seconds' : Float} {time' : String} (stamped : ofSeconds seconds = .ok time)
    (stamped' : ofSeconds seconds' = .ok time') (order : value seconds ≤ value seconds') :
    time ≤ time' := by
  obtain ⟨finite, stamp⟩ := ofSeconds_eq_ok stamped
  obtain ⟨finite', stamp'⟩ := ofSeconds_eq_ok stamped'
  obtain ⟨moment, rfl, reached⟩ := exists_moment stamp
  obtain ⟨moment', rfl, reached'⟩ := exists_moment stamp'
  have ticks := (ticks_microseconds finite).le (ticks_microseconds finite') order
  apply Moment.text_le_text
  rw [reached, reached']
  exact Int.ediv_le_ediv (by decide) ticks

end Timestamp

/-! Lines. -/

theorem mem_spelled {layout : List (Nat × String)} {numbers : List Nat} {c : Char}
    (inside : c ∈ spelled layout numbers) :
    c.isDigit = true ∨ ∃ field ∈ layout, c ∈ field.2.toList := by
  induction layout generalizing numbers with
  | nil => cases inside
  | cons field layout ih =>
    cases numbers with
    | nil => cases inside
    | cons number numbers =>
      rcases List.mem_append.mp inside with digit | rest
      · exact Or.inl (Numeral.isDigit_of_mem_decimal digit)
      · rcases List.mem_append.mp rest with behind | others
        · exact Or.inr ⟨field, List.mem_cons_self, behind⟩
        · refine (ih others).imp_right fun found => ?_
          obtain ⟨field, member, behind⟩ := found
          exact ⟨field, List.mem_cons_of_mem _ member, behind⟩

theorem Moment.space_not_mem_text (moment : Moment) : ' ' ∉ moment.text.toList := by
  intro member
  rw [text, String.toList_ofList] at member
  rcases mem_spelled member with digit | ⟨field, inside, behind⟩
  · exact absurd digit (by decide)
  · have plain : ∀ field ∈ layout, ' ' ∉ field.2.toList := by decide
    exact plain field inside behind

def Format.time? : Format → String → Option String
  | .text, line => some (String.ofList (line.toList.takeWhile (· ≠ ' ')))
  | .json, line =>
    match Json.read line with
    | some (.object members) =>
      match members.lookup "time" with
      | some (.string time) => some time
      | _ => none
    | _ => none

theorem time?_line (format : Format) (record : Record) {time : String}
    (plain : ' ' ∉ time.toList) : format.time? (record.line format time) = some time := by
  cases format with
  | text =>
    obtain ⟨rest, line⟩ : ∃ rest, (record.textLine time).toList = time.toList ++ ' ' :: rest := by
      apply Exists.intro
      simp only [Record.textLine, String.toList_append, List.append_assoc]
      rfl
    have inside : ∀ c ∈ time.toList, decide (c ≠ ' ') = true := by
      intro c member
      refine decide_eq_true ?_
      rintro rfl
      exact plain member
    have taken : (time.toList ++ ' ' :: rest).takeWhile (· ≠ ' ') = time.toList :=
      (takeWhile_append_of_stops inside (by simp)).1
    rw [Format.time?, Record.line, line, taken, String.ofList_toList]
  | json =>
    obtain ⟨members, document, described⟩ := record.read_jsonLine time
    simp only [Format.time?, Record.line, document, described.time]

theorem Timestamp.space_not_mem_of_ofSeconds {seconds : Float} {time : String}
    (stamped : ofSeconds seconds = .ok time) : ' ' ∉ time.toList := by
  obtain ⟨moment, rfl, _⟩ := exists_moment (ofSeconds_eq_ok stamped).2
  exact moment.space_not_mem_text

/-- Log lines tell times that are faithful and in order. Every finite number of seconds has one
number of microseconds: its fraction of a second is scaled in doubles and then rounded to the
nearest whole number. So it is near to the exact time, and from `2^13` seconds on it is the nearest.
In the years of four digits the stamp is the text of exactly one moment, which comes the whole
milliseconds of this number after the start of 1970. An earlier time never has the later stamp, and
the lines of records in both formats tell their stamps. -/
theorem stamps_faithful :
    (∀ seconds, isFinite seconds = true → ∃! count, Ticks seconds count) ∧
      (∀ seconds count, Ticks seconds count →
        |count - value seconds * 1000000| ≤ 1 / 2 + 1 / 2 ^ 34 ∧
          (2 ^ 13 ≤ |value seconds| → NearestWhole (value seconds * 1000000) count) ∧
          (InYears count → ∃ moment : Moment, Timestamp.ofSeconds seconds = .ok moment.text ∧
            moment.milliseconds = count / 1000 ∧
            ∀ other : Moment, other.text = moment.text → other = moment)) ∧
      ∀ first second time time', Timestamp.ofSeconds first = .ok time →
        Timestamp.ofSeconds second = .ok time' → value first ≤ value second → time ≤ time' ∧
          ∀ (format : Format) (record record' : Record),
            format.time? (record.line format time) = some time ∧
              format.time? (record'.line format time') = some time' := by
  refine ⟨fun seconds finite => ?_, fun seconds count ticks => ?_, ?_⟩
  · have ticks := Timestamp.ticks_microseconds finite
    exact ⟨_, ticks, fun _ other => other.eq ticks⟩
  · refine ⟨ticks.near, ticks.nearest, fun within => ?_⟩
    obtain ⟨moment, stamped, reached⟩ := Timestamp.exists_moment_of_ticks ticks within
    exact ⟨moment, stamped, reached, fun _ same => Moment.eq_of_text_eq same⟩
  · intro first second time time' stamped stamped' order
    refine ⟨Timestamp.ofSeconds_le stamped stamped' order, fun format record record' => ?_⟩
    exact ⟨time?_line format record (Timestamp.space_not_mem_of_ofSeconds stamped),
      time?_line format record' (Timestamp.space_not_mem_of_ofSeconds stamped')⟩

/-- A time that is rounded up into the leap day of a century, and a time before 1970 that is cut off
to an earlier millisecond. -/
theorem stamps_faithful_leapDay :
    ∃ moment : Moment, Timestamp.ofSeconds (.ofBits 0x41CC5D85FFFFFFFD) = .ok moment.text ∧
      moment.milliseconds = 951782400000 ∧ "1969-12-31T23:59:59.999+00:00" ≤ moment.text := by
  obtain ⟨_, near, ordered⟩ := stamps_faithful
  have shown : Timestamp.microseconds (.ofBits 0x41CC5D85FFFFFFFD) = 951782400000000 := by
    decide +kernel
  have ticks := shown ▸ Timestamp.ticks_microseconds (by decide +kernel)
  obtain ⟨moment, stamped, reached, _⟩ := (near _ _ ticks).2.2 (inYears_iff.mpr (by decide))
  have before : units (.ofBits 0xBF40624DD2F1A9FC) ≤ units (.ofBits 0x41CC5D85FFFFFFFD) := by
    decide +kernel
  have order := div_le_div_of_nonneg_right (Int.cast_le.mpr before) cast_unitsPerOne_pos.le
  exact ⟨moment, stamped, reached, (ordered _ _ _ _ (by decide +kernel) stamped order).1⟩

/-- The first second that has a stamp, and the one before it. -/
example : [0xC22CEF23EE000000, 0xC22CEF23EE200000].map
    (fun word => (Timestamp.ofSeconds (Float.ofBits word)).toOption) =
      [some "0001-01-01T00:00:00.000+00:00", none] := by
  decide +kernel

/-- A double just below the middle between two microseconds, 0.0009995 seconds after the start of
1970. -/
def belowMiddle : Float := ofRank false 0x3F506034F3FD933E

theorem nearestWhole_belowMiddle : NearestWhole (value belowMiddle * 1000000) 999 := by
  have bits : units belowMiddle = unitsAt 0x3F506034F3FD933E := units_ofRank false (by decide)
  have lower : 1997 * unitsPerOne < unitsAt 0x3F506034F3FD933E * 2000000 := by decide +kernel
  have upper : unitsAt 0x3F506034F3FD933E * 2000000 < 1999 * unitsPerOne := by decide +kernel
  have positive := cast_unitsPerOne_pos
  have lower' : (1997 : ℚ) < value belowMiddle * 2000000 := by
    rw [value, bits, div_mul_eq_mul_div, lt_div_iff₀ positive]
    exact_mod_cast lower
  have upper' : value belowMiddle * 2000000 < (1999 : ℚ) := by
    rw [value, bits, div_mul_eq_mul_div, div_lt_iff₀ positive]
    exact_mod_cast upper
  have near : |((999 : ℤ) : ℚ) - value belowMiddle * 1000000| < 1 / 2 := by
    rw [abs_lt]
    push_cast
    constructor <;> linarith
  exact ⟨near.le, fun half => absurd half near.ne⟩

/-- The scaled fraction may be rounded onto the middle between two microseconds. Then the nearest
microsecond is not the one that is shown, nor is its millisecond. -/
theorem millisecond_not_of_nearest :
    isFinite belowMiddle = true ∧ NearestWhole (value belowMiddle * 1000000) 999 ∧ InYears 999 ∧
      Timestamp.ofSeconds belowMiddle = .ok "1970-01-01T00:00:00.001+00:00" ∧
      ¬∃ moment : Moment, Timestamp.ofSeconds belowMiddle = .ok moment.text ∧
        moment.milliseconds = 999 / 1000 := by
  have finite : isFinite belowMiddle = true := isFinite_ofRank false (by decide)
  have shown : Timestamp.microseconds belowMiddle = 1000 := by decide +kernel
  refine ⟨finite, nearestWhole_belowMiddle, inYears_iff.mpr (by decide), by decide +kernel, ?_⟩
  intro wrong
  obtain ⟨moment, stamped, early⟩ := wrong
  obtain ⟨moment', stamped', late⟩ := Timestamp.exists_moment_of_ticks
    (shown ▸ Timestamp.ticks_microseconds finite) (inYears_iff.mpr (by decide))
  have same : moment = moment' :=
    Moment.eq_of_text_eq (Except.ok.inj (stamped.symm.trans stamped'))
  rw [same, late] at early
  exact absurd early (by decide)

end Reckoner.Log
