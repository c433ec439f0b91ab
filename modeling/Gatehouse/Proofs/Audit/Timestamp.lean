import Gatehouse.Audit.Timestamp
import Gatehouse.Proofs.Json.Tokens
import Mathlib.Data.Nat.Digits.Defs

/-!
# Timestamps are read back

What this file fixes, and what it shows about `Timestamp.text`:

* `Timestamp.Valid`: a moment that there is, on a day of the calendar;
* `digits?_append`, `number?_padded`, `year?_yearText`, `nano?_nanoText`: each part of the text is read
  back, whatever follows it;
* `Timestamp.read?_text`: so the moment is read back from its text.
-/

namespace Gatehouse.Audit

namespace Timestamp

/-! ## 1. Numerals with zeros in front -/

theorem isDigit_of_mem_padded {width n : Nat} {c : Char} (h : c ∈ padded width n) :
    c.isDigit = true := by
  rcases List.mem_append.mp h with h | h
  · rw [List.eq_of_mem_replicate h]
    decide
  · exact Nat.isDigit_of_mem_toDigits (by decide) (Nat.le_refl 10) h

theorem padded_ne_nil (width n : Nat) : padded width n ≠ [] :=
  List.append_ne_nil_of_right_ne_nil _ (Nat.toDigits_ne_nil)

/-- Zeros in front do not count. -/
theorem decimalValue_padded (width n : Nat) : Text.decimalValue (padded width n) = n := by
  have hzeros : ∀ k : Nat, Text.decimalValue (List.replicate k '0') = 0 := by
    intro k
    induction k with
    | zero => rfl
    | succ k ih =>
      rw [Text.decimalValue, List.replicate_succ', List.foldl_append]
      rw [Text.decimalValue] at ih
      rw [ih]
      rfl
  have hvalue := Number.decimalValue_toDigits n
  have hfront := hzeros (width - (Nat.toDigits 10 n).length)
  unfold Text.decimalValue at hvalue hfront ⊢
  rw [padded, List.foldl_append, hfront, hvalue]

/-- A number that is not too large fills its width. -/
theorem length_padded {width n : Nat} (hwidth : 0 < width) (h : n < 10 ^ width) :
    (padded width n).length = width := by
  have hlen := Nat.toDigits_length 10 n width hwidth h
  rw [padded, List.length_append, List.length_replicate]
  omega

/-! ## 2. Runs of digits -/

theorem isBlank_of_isDigit {c : Char} (h : c.isDigit = true) : Text.isBlank c = false := by
  have hrange : 48 ≤ c.toNat ∧ c.toNat ≤ 57 := by
    simp only [Char.isDigit, Bool.and_eq_true, decide_eq_true_eq] at h
    exact ⟨UInt32.le_iff_toNat_le.mp h.1, UInt32.le_iff_toNat_le.mp h.2⟩
  simp only [Text.isBlank, Bool.or_eq_false_iff, Bool.and_eq_false_iff, decide_eq_false_iff_not,
    beq_eq_false_iff_ne]
  omega

theorem skip_cons {c : Char} (h : Text.isBlank c = false) (cs : List Char) :
    skip (c :: cs) = c :: cs := by
  rw [skip, Text.trimStart, List.dropWhile_cons, h]
  rfl

/-- A run of digits is taken up to its end. -/
theorem digits?_append {width : Nat} {ds rest : List Char} (hne : ds ≠ [])
    (hds : ∀ c ∈ ds, c.isDigit = true) (hlen : ds.length ≤ width)
    (hend : ds.length = width ∨ ∀ c ∈ rest.head?, c.isDigit = false) :
    digits? width (ds ++ rest) = some (ds, rest) := by
  have htail : (rest.take (width - ds.length)).takeWhile Char.isDigit = [] := by
    rcases hend with hfull | hhead
    · rw [hfull, Nat.sub_self, List.take_zero, List.takeWhile_nil]
    · cases rest with
      | nil => rw [List.take_nil, List.takeWhile_nil]
      | cons c rest =>
        have hc := hhead c rfl
        cases width - ds.length with
        | zero => rfl
        | succ k => rw [List.take_succ_cons, List.takeWhile_cons, hc]; rfl
  have hrun : ((ds ++ rest).take width).takeWhile Char.isDigit = ds := by
    rw [List.take_append, List.take_of_length_le hlen, List.takeWhile_append_of_pos hds, htail,
      List.append_nil]
  have hfilled : ds.isEmpty = false := by
    cases ds with
    | nil => exact absurd rfl hne
    | cons c ds => rfl
  rw [digits?, hrun]
  simp only [hfilled, List.drop_left]
  rfl

theorem digits?_padded {width w n : Nat} {rest : List Char} (hlen : (padded w n).length ≤ width)
    (hend : (padded w n).length = width ∨ ∀ c ∈ rest.head?, c.isDigit = false) :
    digits? width (padded w n ++ rest) = some (padded w n, rest) :=
  digits?_append (padded_ne_nil w n) (fun _ => isDigit_of_mem_padded) hlen hend

theorem head?_not_isDigit {c : Char} (h : c.isDigit = false) (rest : List Char) :
    ∀ d ∈ (c :: rest).head?, d.isDigit = false := by
  intro d hd
  cases hd
  exact h

theorem head_padded (w n : Nat) : ∃ c ds, padded w n = c :: ds ∧ c.isDigit = true := by
  obtain ⟨c, ds, hds⟩ := List.exists_cons_of_ne_nil (padded_ne_nil w n)
  exact ⟨c, ds, hds, isDigit_of_mem_padded (hds ▸ List.mem_cons_self)⟩

/-- **A number of two digits is read back**, whatever follows. -/
theorem number?_padded {n : Nat} (h : n < 100) (rest : List Char) :
    number? (padded 2 n ++ rest) = some (n, rest) := by
  have hlen : (padded 2 n).length = 2 := length_padded (by decide) h
  have hskip : skip (padded 2 n ++ rest) = padded 2 n ++ rest := by
    obtain ⟨c, ds, hds, hc⟩ := head_padded 2 n
    rw [hds]
    exact skip_cons (isBlank_of_isDigit hc) _
  rw [number?, hskip, digits?_padded (Nat.le_of_eq hlen) (Or.inl hlen), Option.map_some,
    decimalValue_padded]

theorem after?_cons {c : Char} (h : Text.isBlank c = false) (rest : List Char) :
    after? c (c :: rest) = some rest := by
  rw [after?, skip_cons h]
  exact if_pos rfl

/-! ## 3. Years -/

/-- Four digits are a year. -/
theorem year?_plain {n : Nat} (h : n < 10000) (rest : List Char) :
    year? (padded 4 n ++ '-' :: rest) = some ((n : Int), '-' :: rest) := by
  have hlen : (padded 4 n).length = 4 := length_padded (by decide) h
  have hread := digits?_padded (Nat.le_of_eq hlen)
    (Or.inr (head?_not_isDigit (c := '-') (by decide) rest))
  have hvalue := decimalValue_padded 4 n
  obtain ⟨c, ds, hds, hc⟩ := head_padded 4 n
  have hminus : c ≠ '-' := by
    rintro rfl
    exact absurd hc (by decide)
  have hplus : c ≠ '+' := by
    rintro rfl
    exact absurd hc (by decide)
  rw [hds, List.cons_append] at hread
  rw [hds] at hvalue
  rw [hds, year?, List.cons_append, skip_cons (isBlank_of_isDigit hc)]
  simp [hminus, hplus, hread, hvalue]

/-- Behind a sign there may be any number of digits. -/
theorem digits?_signed (w n : Nat) (rest : List Char) :
    digits? (padded w n ++ '-' :: rest).length (padded w n ++ '-' :: rest) =
      some (padded w n, '-' :: rest) := by
  refine digits?_padded ?_ (Or.inr (head?_not_isDigit (by decide) rest))
  rw [List.length_append]
  exact Nat.le_add_right _ _

/-- **A year is read back** where a hyphen follows. -/
theorem year?_yearText (year : Int) (rest : List Char) :
    year? (yearText year ++ '-' :: rest) = some (year, '-' :: rest) := by
  unfold yearText
  by_cases hplain : 0 ≤ year ∧ year ≤ 9999
  · have hvalue : (year.natAbs : Int) = year := by omega
    rw [if_pos hplain, year?_plain (by omega), hvalue]
  · rw [if_neg hplain, List.cons_append]
    by_cases hneg : year < 0
    · have hvalue : -1 * (year.natAbs : Int) = year := by omega
      rw [if_pos hneg, year?, skip_cons (by decide)]
      simp only [digits?_signed, Option.map_some, decimalValue_padded, hvalue]
    · have hvalue : 1 * (year.natAbs : Int) = year := by omega
      rw [if_neg hneg, year?, skip_cons (by decide)]
      simp only [digits?_signed, Option.map_some, decimalValue_padded, hvalue]

/-! ## 4. Nanoseconds -/

/-- Digits after a point are read back as the nanoseconds that they stand for. -/
theorem nano?_padded {width n : Nat} (hwidth : 0 < width ∧ width ≤ 9) (h : n < 10 ^ width) :
    nano? ('.' :: padded width n ++ ['Z']) = some (n * 10 ^ (9 - width), ['Z']) := by
  have hlen : (padded width n).length = width := length_padded hwidth.1 h
  have hread := digits?_padded (hlen ▸ hwidth.2)
    (Or.inr (head?_not_isDigit (c := 'Z') (by decide) []))
  rw [List.cons_append, nano?, hread, Option.map_some, decimalValue_padded, hlen]
  rfl

/-- **Nanoseconds are read back** in front of the offset. -/
theorem nano?_nanoText {nano : Nat} (h : nano < 10 ^ 9) :
    nano? (nanoText nano ++ ['Z']) = some (nano, ['Z']) := by
  unfold nanoText
  by_cases hzero : nano = 0
  · rw [if_pos hzero, hzero]
    rfl
  · rw [if_neg hzero]
    by_cases hmilli : nano % 1000000 = 0
    · rw [if_pos hmilli, nano?_padded (by decide) (by omega)]
      have hvalue : nano / 1000000 * 10 ^ (9 - 3) = nano := by omega
      rw [hvalue]
    · rw [if_neg hmilli]
      by_cases hmicro : nano % 1000 = 0
      · rw [if_pos hmicro, nano?_padded (by decide) (by omega)]
        have hvalue : nano / 1000 * 10 ^ (9 - 6) = nano := by omega
        rw [hvalue]
      · rw [if_neg hmicro, nano?_padded (by decide) h]
        rw [Nat.sub_self, Nat.pow_zero, Nat.mul_one]

/-! ## 5. Moments -/

/-- The day is one of the calendar, and the time one of the day or a leap second. -/
structure Valid (t : Timestamp) : Prop where
  date : Date.ofNumbers? t.date.year t.date.month t.date.day = some t.date
  hour : t.hour < 24
  minute : t.minute < 60
  second : t.second ≤ 60
  nano : t.nano < 10 ^ 9

instance (t : Timestamp) : Decidable t.Valid :=
  decidable_of_iff (Date.ofNumbers? t.date.year t.date.month t.date.day = some t.date ∧
      t.hour < 24 ∧ t.minute < 60 ∧ t.second ≤ 60 ∧ t.nano < 10 ^ 9)
    ⟨fun ⟨hdate, hhour, hminute, hsecond, hnano⟩ => ⟨hdate, hhour, hminute, hsecond, hnano⟩,
      fun h => ⟨h.date, h.hour, h.minute, h.second, h.nano⟩⟩

variable {t : Timestamp}

/-- The numbers of a day are in range. -/
theorem bounds_of_ofNumbers? {year : Int} {month day : Nat} {d : Date}
    (h : Date.ofNumbers? year month day = some d) :
    Date.inRange year = true ∧ month < 100 ∧ day < 100 := by
  unfold Date.ofNumbers? at h
  split at h
  · rename_i hin
    obtain ⟨hyear, -, hmonth, -, hday⟩ := hin
    have hdays : Date.daysIn year month ≤ 31 := by
      unfold Date.daysIn
      split_ifs <;> omega
    exact ⟨hyear, by omega, by omega⟩
  · cases h

/-- Where clocks show UTC, the local time is the moment itself. -/
theorem ofLocal_zero (hhour : t.hour < 24) (hminute : t.minute < 60) : t.ofLocal 0 = t := by
  have hnonneg : ¬ ((t.hour * 60 + t.minute : Nat) : Int) - 0 < 0 := by omega
  have hbound : ((t.hour * 60 + t.minute : Nat) : Int) - 0 < 1440 := by omega
  have hofDay : ((((t.hour * 60 + t.minute : Nat) : Int) - 0) % 1440).toNat =
      t.hour * 60 + t.minute := by omega
  have hhours : (t.hour * 60 + t.minute) / 60 = t.hour := by omega
  have hminutes : (t.hour * 60 + t.minute) % 60 = t.minute := by omega
  unfold ofLocal
  simp only [if_neg hnonneg, if_pos hbound, hofDay, hhours, hminutes]

/-- **A day is read back**, whatever follows. -/
theorem date?_append (h : t.Valid) (rest : List Char) :
    date? (yearText t.date.year ++ '-' :: (padded 2 t.date.month
      ++ '-' :: (padded 2 t.date.day ++ rest))) = some (t.date, rest) := by
  obtain ⟨-, hmonth, hday⟩ := bounds_of_ofNumbers? h.date
  have hyphen : Text.isBlank '-' = false := by decide
  unfold date?
  simp only [Option.bind_eq_bind, year?_yearText, Option.bind_some, after?_cons hyphen,
    number?_padded hmonth, number?_padded hday, h.date]

/-- **A moment is read back from its text.** -/
theorem read?_text (h : t.Valid) : read? t.text = some t := by
  obtain ⟨hyear, -, -⟩ := bounds_of_ofNumbers? h.date
  have hcolon : Text.isBlank ':' = false := by decide
  have hchars : t.text.toList = yearText t.date.year ++ '-' :: (padded 2 t.date.month
      ++ '-' :: (padded 2 t.date.day ++ 'T' :: (padded 2 t.hour ++ ':' :: (padded 2 t.minute
        ++ ':' :: (padded 2 t.second ++ (nanoText t.nano ++ ['Z'])))))) := by
    rw [text, String.toList_ofList]
    simp only [List.append_assoc, List.cons_append]
  have hhour := h.hour
  have hminute := h.minute
  have hsecond := h.second
  have hoffset : offset? (skip ['Z']) = some (0, []) := by decide
  unfold read?
  simp only [Option.bind_eq_bind, hchars, date?_append h, Option.bind_some, separator?, true_or,
    if_true, number?_padded (show t.hour < 100 by omega), after?_cons hcolon,
    number?_padded (show t.minute < 100 by omega), number?_padded (show t.second < 100 by omega),
    nano?_nanoText h.nano, hoffset, ofLocal_zero h.hour h.minute]
  rw [if_pos ⟨hhour, hminute, hsecond, rfl⟩, if_pos hyear]

end Timestamp

end Gatehouse.Audit
