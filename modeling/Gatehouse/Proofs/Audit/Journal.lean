import Gatehouse.Audit.Journal

/-!
# A journal loses nothing

What this file shows:

* `Journal.pass_append`: what reaches the file and what waits after that are, one behind the other,
  what waited and the line. `Journal.size_pass_le`: what waits never outgrows the journal;
* `Journal.writeAll_flush`: lines that are written one after the other and then flushed reach the
  file as they are.
-/

namespace Gatehouse.Audit

/-! ## 1. What reaches the file and what waits -/

namespace Journal

section Pass

variable {α : Type} {size : List α → Nat}

/-- **Nothing is lost and nothing changes its place**, if only the empty list has no bytes. -/
theorem pass_append (hsize : ∀ xs, size xs = 0 → xs = []) (waiting line : List α) :
    (pass size waiting line).1 ++ (pass size waiting line).2 = waiting ++ line := by
  unfold pass
  by_cases hover : capacity < size waiting + size line
  · by_cases hlong : capacity ≤ size line <;> simp [hover, hlong]
  · by_cases hlong : capacity ≤ size line
    · -- A line that fills the journal fits behind nothing but an empty one.
      have hempty : waiting = [] := hsize waiting (by omega)
      simp [hlong, hempty]
    · simp [hover, hlong]

theorem size_pass_le (hnil : size [] = 0)
    (happend : ∀ xs ys, size (xs ++ ys) = size xs + size ys) {waiting line : List α}
    (hwaiting : size waiting ≤ capacity) : size (pass size waiting line).2 ≤ capacity := by
  unfold pass
  by_cases hover : capacity < size waiting + size line
  · by_cases hlong : capacity ≤ size line
    · simp [hover, hlong, hnil]
    · simp [hover, hlong]
      omega
  · by_cases hlong : capacity ≤ size line
    · simp [hover, hlong, hwaiting]
    · simp [hover, hlong, happend]
      omega

end Pass

theorem eq_nil_of_byteLength : ∀ cs : List Char, Text.byteLength cs = 0 → cs = []
  | [], _ => rfl
  | c :: cs, h => by
      have hwidth : 0 < Text.byteWidth c := by
        unfold Text.byteWidth
        repeat' split
        all_goals decide
      rw [Text.byteLength] at h
      omega

/-! ## 2. Lines -/

theorem write_append (j : Journal) (line : String) :
    (j.write line).1 ++ (j.write line).2.pending = j.pending ++ line := by
  rw [write, ← String.ofList_append, pass_append eq_nil_of_byteLength, String.ofList_append,
    String.ofList_toList, String.ofList_toList]

theorem writeAll_append (lines : List String) (j : Journal) :
    (j.writeAll lines).1 ++ (j.writeAll lines).2.pending = j.pending ++ String.join lines := by
  induction lines generalizing j with
  | nil => rw [writeAll, String.empty_append, String.join_nil, String.append_empty]
  | cons line rest ih =>
    calc (j.writeAll (line :: rest)).1 ++ (j.writeAll (line :: rest)).2.pending
        = (j.write line).1 ++ (((j.write line).2.writeAll rest).1
            ++ ((j.write line).2.writeAll rest).2.pending) := by rw [writeAll, String.append_assoc]
      _ = (j.write line).1 ++ ((j.write line).2.pending ++ String.join rest) := by rw [ih]
      _ = j.pending ++ String.join (line :: rest) := by
          rw [← String.append_assoc, write_append, String.append_assoc, String.join_cons]

/-- **Lines that are written and flushed reach the file as they are.** -/
theorem writeAll_flush (lines : List String) :
    (empty.writeAll lines).1 ++ (empty.writeAll lines).2.flush.1 = String.join lines := by
  rw [flush, writeAll_append, empty, String.empty_append]

end Journal

end Gatehouse.Audit
