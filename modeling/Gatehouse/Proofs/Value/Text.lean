import Gatehouse.Value.Text
import Mathlib.Tactic.SplitIfs

/-!
# The text of a value stands on one line

What this file shows about `Value.compact`:

* `Printable`: texts without control characters, closed under what the printers do;
* `Number.printable_text`, `Value.printable_quoted`: numerals and quoted strings are such texts,
  whatever the strings hold;
* `Value.printable_compactChars`: so is the text of a value, which has no line break in it.
-/

namespace Gatehouse

/-! ## 1. Texts without control characters -/

/-- No character of the text is a control character below U+0020. -/
def Printable (cs : List Char) : Prop := ∀ c ∈ cs, 0x20 ≤ c.toNat

namespace Printable

@[simp] theorem nil : Printable [] := fun _ h => nomatch h

@[simp] theorem cons_iff {c : Char} {cs : List Char} :
    Printable (c :: cs) ↔ 0x20 ≤ c.toNat ∧ Printable cs := List.forall_mem_cons

@[simp] theorem append_iff {xs ys : List Char} :
    Printable (xs ++ ys) ↔ Printable xs ∧ Printable ys := List.forall_mem_append

/-- A part of a text has no characters of its own. -/
theorem of_subset {xs ys : List Char} (h : Printable ys) (hsub : xs ⊆ ys) : Printable xs :=
  fun c hc => h c (hsub hc)

/-- A text without control characters has no line break. -/
theorem not_mem_newline {cs : List Char} (h : Printable cs) : '\n' ∉ cs :=
  fun hmem => absurd (h '\n' hmem) (by decide)

end Printable

/-! ## 2. Numerals -/

theorem printable_toDigits (n : Nat) : Printable (Nat.toDigits 10 n) := by
  intro c hc
  have hdigit : c.isDigit = true :=
    Nat.isDigit_of_mem_toDigits (by decide : 0 < 10) (Nat.le_refl 10) hc
  have hlow : 48 ≤ c.toNat := by
    simp only [Char.isDigit, Bool.and_eq_true, decide_eq_true_eq] at hdigit
    exact UInt32.le_iff_toNat_le.mp hdigit.1
  omega

namespace Decimal

theorem printable_zeros (n : Nat) : Printable (zeros n) := by
  intro c hc
  rw [List.eq_of_mem_replicate hc]
  decide

theorem printable_plain {d : Decimal} (h : Printable d.digits) : Printable d.plain := by
  have htake (n : Nat) : Printable (d.digits.take n) := h.of_subset (List.take_subset n _)
  have hdrop (n : Nat) : Printable (d.digits.drop n) := h.of_subset (List.drop_subset n _)
  unfold plain
  dsimp only
  split
  · simp [printable_zeros, h]
  · split
    · simp [printable_zeros, h]
    · simp [htake, hdrop]

theorem printable_scientific {d : Decimal} (h : Printable d.digits) :
    Printable d.scientific := by
  unfold scientific
  have hsign : 0x20 ≤ (if d.exponent < 0 then '-' else '+').toNat := by split <;> decide
  match hd : d.digits with
  | [] => simp [printable_toDigits, hsign]
  | [c] =>
      rw [hd] at h
      simp [printable_toDigits, hsign, (Printable.cons_iff.mp h).1]
  | c :: c' :: rest =>
      rw [hd] at h
      have hparts := Printable.cons_iff.mp h
      have hparts' := Printable.cons_iff.mp hparts.2
      simp [printable_toDigits, hsign, hparts.1, hparts'.1, hparts'.2]

theorem printable_text {d : Decimal} (h : Printable d.digits) : Printable d.text := by
  unfold text
  split
  · exact printable_plain h
  · exact printable_scientific h

end Decimal

theorem Double.printable_text (d : Double) : Printable d.text := by
  have hdigits : Printable d.shortest.digits := by
    intro c hc
    have hmem := (List.dropWhile_suffix _).subset (List.mem_reverse.mp hc)
    exact printable_toDigits _ c (List.mem_reverse.mp hmem)
  have hbody : Printable (if d.significand = 0 then ['0', '.', '0'] else d.shortest.text) := by
    split
    · simp
    · exact Decimal.printable_text hdigits
  unfold Double.text
  dsimp only
  split
  · exact Printable.cons_iff.mpr ⟨by decide, hbody⟩
  · exact hbody

theorem Number.printable_text (n : Number) : Printable n.text := by
  cases n with
  | int i =>
      rw [Number.text]
      split
      · exact Printable.cons_iff.mpr ⟨by decide, printable_toDigits _⟩
      · exact printable_toDigits _
  | double d => exact d.printable_text

/-! ## 3. Strings and values -/

namespace Value

theorem printable_hexDigit (d : Fin 16) : 0x20 ≤ (Text.hexDigit d).toNat := by
  revert d
  decide

/-- Control characters are escaped. -/
theorem printable_escaped (c : Char) : Printable (escaped c) := by
  unfold escaped
  split_ifs
  all_goals simp only [Printable.cons_iff, Printable.nil, and_true]
  case neg hprint => exact Nat.le_of_not_lt hprint
  all_goals simp [printable_hexDigit]

theorem printable_quoted (s : String) : Printable (quoted s) := by
  have hbody : Printable (s.toList.flatMap escaped) := by
    intro c hc
    obtain ⟨a, -, hca⟩ := List.mem_flatMap.mp hc
    exact printable_escaped a c hca
  rw [quoted, List.cons_append, Printable.cons_iff, Printable.append_iff]
  exact ⟨by decide, hbody, by simp⟩

mutual

/-- **The text of a value has no control characters.** -/
theorem printable_compactChars : ∀ v : Value, Printable (compactChars v)
  | .null => by simp [compactChars]
  | .bool true => by simp [compactChars]
  | .bool false => by simp [compactChars]
  | .number n => by
      rw [compactChars]
      exact n.printable_text
  | .string s => by
      rw [compactChars]
      exact printable_quoted s
  | .array items => by
      rw [compactChars]
      exact Printable.cons_iff.mpr ⟨by decide, printable_compactItems items⟩
  | .object entries => by
      rw [compactChars]
      exact Printable.cons_iff.mpr ⟨by decide, printable_compactEntries entries⟩

theorem printable_compactItems : ∀ items : List Value, Printable (compactItems items)
  | [] => by simp [compactItems]
  | [v] => by
      rw [compactItems]
      exact Printable.append_iff.mpr ⟨printable_compactChars v, by simp⟩
  | v :: w :: rest => by
      have hrest := printable_compactItems (w :: rest)
      simp [compactItems, printable_compactChars v, hrest]

theorem printable_compactEntries :
    ∀ entries : List (String × Value), Printable (compactEntries entries)
  | [] => by simp [compactEntries]
  | [(k, v)] => by
      simp [compactEntries, printable_quoted k, printable_compactChars v]
  | (k, v) :: e :: rest => by
      have hrest := printable_compactEntries (e :: rest)
      simp [compactEntries, printable_quoted k, printable_compactChars v, hrest]

end

end Value

end Gatehouse
