import Gatehouse.Context
import Gatehouse.Proofs.Text
import Mathlib.Data.Nat.Find

/-!
# How long values are shown

What this file fixes, and what it shows about `Text.elide` and `Resolved.display`:

* `Text.isBoundary`: the positions in some bytes at which no character has begun and not ended, read
  off one byte; `isBoundary_iff`: in the bytes of a text they are those between its characters;
* `prefix_takeBytes`, `lt_byteLength_takeBytes`: what is taken of a text is the longest beginning
  that fits, and less than a character is missing;
* `Text.lastBoundary`, `lastBoundary_eq`: a search back from the limit for a boundary finds its end;
* `display_exact`: a value is shown whole, or up to that boundary with a mark behind it.
-/

namespace Gatehouse

namespace Text

/-! ## 1. Boundaries -/

/-- The byte goes on with a character that a byte before it has begun. -/
def goesOn (b : UInt8) : Bool := 0x80 ≤ b.toNat && b.toNat < 0xC0

/-- The position is at an end of the bytes, or the byte there begins a character. -/
def isBoundary (bs : List UInt8) (i : Nat) : Bool :=
  i == 0 || i == bs.length || bs[i]?.any fun b => !goesOn b

theorem isBoundary_eq_true_iff {bs : List UInt8} {i : Nat} : isBoundary bs i = true ↔
    i = 0 ∨ i = bs.length ∨ ∃ b, bs[i]? = some b ∧ goesOn b = false := by
  simp [isBoundary, Option.any_eq_true, or_assoc]

theorem goesOn_tail (n : Nat) : goesOn (UInt8.ofNat (n % 0x40 + 0x80)) = true := by
  have hlt : n % 0x40 + 0x80 < 256 := by omega
  rw [goesOn, UInt8.toNat_ofNat_of_lt' hlt, Bool.and_eq_true, decide_eq_true_iff,
    decide_eq_true_iff]
  omega

theorem goesOn_head {m : Nat} (hm : m < 256) (h : m < 0x80 ∨ 0xC0 ≤ m) :
    goesOn (UInt8.ofNat m) = false := by
  rw [goesOn, UInt8.toNat_ofNat_of_lt' hm, Bool.and_eq_false_iff, decide_eq_false_iff_not,
    decide_eq_false_iff_not]
  omega

/-- The first byte of a character begins it and all others go on with it. -/
theorem utf8EncodeChar_eq_cons (c : Char) : ∃ b bs, String.utf8EncodeChar c = b :: bs ∧
    goesOn b = false ∧ ∀ x ∈ bs, goesOn x = true := by
  unfold String.utf8EncodeChar
  generalize c.val.toNat = v
  simp only
  -- one case for each width
  split_ifs <;> refine ⟨_, _, rfl, goesOn_head (by omega) (by omega), ?_⟩ <;>
    simp only [List.forall_mem_cons, List.not_mem_nil, false_implies, implies_true, goesOn_tail,
      and_self]

variable {c : Char} {cs : List Char} {i : Nat}

theorem bytes_cons (c : Char) (cs : List Char) :
    bytes (c :: cs) = String.utf8EncodeChar c ++ bytes cs := List.flatMap_cons

/-- There is no boundary within the bytes of a character. -/
theorem not_isBoundary_within (hpos : 0 < i) (hlt : i < byteWidth c) :
    isBoundary (bytes (c :: cs)) i = false := by
  obtain ⟨b, bs, hbytes, _, htail⟩ := utf8EncodeChar_eq_cons c
  have hlength := length_utf8EncodeChar c
  rw [hbytes, List.length_cons] at hlength
  refine Bool.eq_false_iff.mpr fun h => ?_
  rw [isBoundary_eq_true_iff, bytes_cons, hbytes] at h
  rcases h with hzero | hend | ⟨x, hx, hbegins⟩
  · omega
  · rw [List.length_append, List.length_cons] at hend
    omega
  · obtain ⟨j, rfl⟩ := Nat.exists_eq_succ_of_ne_zero (Nat.ne_of_gt hpos)
    rw [List.cons_append, List.getElem?_cons_succ, List.getElem?_append_left (by omega)] at hx
    rw [htail x (List.mem_of_getElem? hx)] at hbegins
    cases hbegins

/-- Behind a character the boundaries are those of what follows it. -/
theorem isBoundary_add (c : Char) (cs : List Char) (j : Nat) :
    isBoundary (bytes (c :: cs)) (byteWidth c + j) = isBoundary (bytes cs) j := by
  have hwidth := byteWidth_pos c
  have hlength := length_utf8EncodeChar c
  rw [Bool.eq_iff_iff, isBoundary_eq_true_iff, isBoundary_eq_true_iff, bytes_cons,
    List.length_append, hlength, List.getElem?_append_right (by omega), hlength,
    Nat.add_sub_cancel_left]
  constructor
  · rintro (hzero | hend | hbegins)
    · omega
    · exact Or.inr (Or.inl (by omega))
    · exact Or.inr (Or.inr hbegins)
  · rintro (rfl | hend | hbegins)
    · cases cs with
      | nil => exact Or.inr (Or.inl rfl)
      | cons d ds =>
          obtain ⟨b, bs, hbytes, hbegins, _⟩ := utf8EncodeChar_eq_cons d
          rw [bytes_cons, hbytes]
          exact Or.inr (Or.inr ⟨b, rfl, hbegins⟩)
    · exact Or.inr (Or.inl (by omega))
    · exact Or.inr (Or.inr hbegins)

theorem byteLength_append (xs ys : List Char) :
    byteLength (xs ++ ys) = byteLength xs + byteLength ys := by
  induction xs with
  | nil => rw [List.nil_append, byteLength, Nat.zero_add]
  | cons c xs ih => rw [List.cons_append, byteLength, ih, byteLength, Nat.add_assoc]

theorem byteLength_le_of_prefix {xs ys : List Char} (h : xs <+: ys) :
    byteLength xs ≤ byteLength ys := by
  obtain ⟨rest, rfl⟩ := h
  rw [byteLength_append]
  exact Nat.le_add_right _ _

/-- **The boundaries in the bytes of a text lie between its characters**: they are the positions
    where the bytes of some first characters end. -/
theorem isBoundary_iff : isBoundary (bytes cs) i = true ↔
    ∃ before, before <+: cs ∧ byteLength before = i := by
  induction cs generalizing i with
  | nil =>
      constructor
      · intro h
        rcases isBoundary_eq_true_iff.mp h with rfl | rfl | ⟨b, hb, _⟩
        · exact ⟨[], List.prefix_rfl, rfl⟩
        · exact ⟨[], List.prefix_rfl, rfl⟩
        · cases hb
      · rintro ⟨before, hbefore, rfl⟩
        rw [List.prefix_nil.mp hbefore]
        rfl
  | cons c cs ih =>
      by_cases hzero : i = 0
      · subst hzero
        exact iff_of_true rfl ⟨[], List.nil_prefix, rfl⟩
      by_cases hlt : i < byteWidth c
      · rw [not_isBoundary_within (Nat.pos_of_ne_zero hzero) hlt]
        refine iff_of_false Bool.false_ne_true ?_
        rintro ⟨before, hbefore, hlength⟩
        cases before with
        | nil => exact hzero hlength.symm
        | cons d before =>
            obtain ⟨rfl, _⟩ := List.cons_prefix_cons.mp hbefore
            rw [byteLength] at hlength
            omega
      · obtain ⟨j, rfl⟩ := Nat.exists_eq_add_of_le (Nat.le_of_not_lt hlt)
        rw [isBoundary_add, ih]
        constructor
        · rintro ⟨before, hbefore, hlength⟩
          exact ⟨c :: before, List.cons_prefix_cons.mpr ⟨rfl, hbefore⟩, by rw [byteLength, hlength]⟩
        · rintro ⟨before, hbefore, hlength⟩
          cases before with
          | nil => exact absurd hlength.symm hzero
          | cons d before =>
              obtain ⟨rfl, htail⟩ := List.cons_prefix_cons.mp hbefore
              exact ⟨before, htail, Nat.add_left_cancel hlength⟩

/-! ## 2. The cut -/

/-- **What is taken is the longest beginning that fits.** -/
theorem prefix_takeBytes {limit : Nat} {before : List Char} (h : before <+: cs)
    (hfits : byteLength before ≤ limit) : before <+: takeBytes limit cs := by
  induction before generalizing limit cs with
  | nil => exact List.nil_prefix
  | cons c before ih =>
      obtain ⟨rest, rfl⟩ := h
      rw [byteLength] at hfits
      rw [List.cons_append, takeBytes, if_pos (by omega)]
      exact List.cons_prefix_cons.mpr ⟨rfl, ih ⟨rest, rfl⟩ (by omega)⟩

theorem byteWidth_le (c : Char) : byteWidth c ≤ 4 := by
  unfold byteWidth
  split_ifs <;> omega

/-- Less than a character is missing from the limit. -/
theorem lt_byteLength_takeBytes {limit : Nat} (h : limit < byteLength cs) :
    limit < byteLength (takeBytes limit cs) + 4 := by
  induction cs generalizing limit with
  | nil => exact absurd h (Nat.not_lt_zero limit)
  | cons c cs ih =>
      rw [byteLength] at h
      rw [takeBytes]
      split
      · rename_i hfits
        have hrest := ih (by omega : limit - byteWidth c < byteLength cs)
        rw [byteLength]
        omega
      · have hwidth := byteWidth_le c
        rw [byteLength]
        omega

/-- The last boundary up to a limit. The search goes back from the limit. -/
def lastBoundary (limit : Nat) (bs : List UInt8) : Nat :=
  Nat.findGreatest (fun i => isBoundary bs i = true) limit

/-- **The search finds the end of what is taken.** -/
theorem lastBoundary_eq (limit : Nat) (cs : List Char) :
    lastBoundary limit (bytes cs) = byteLength (takeBytes limit cs) := by
  refine Nat.findGreatest_eq_iff.mpr ⟨byteLength_takeBytes_le limit cs, fun _ => ?_, ?_⟩
  · exact isBoundary_iff.mpr ⟨_, takeBytes_append_rest limit cs, rfl⟩
  · intro i hlt hle hboundary
    obtain ⟨before, hbefore, rfl⟩ := isBoundary_iff.mp hboundary
    have hlonger := byteLength_le_of_prefix (prefix_takeBytes hbefore hle)
    omega

/-- Cutting the bytes there cuts the text between two characters. -/
theorem take_lastBoundary (limit : Nat) (cs : List Char) :
    (bytes cs).take (lastBoundary limit (bytes cs)) = bytes (takeBytes limit cs) := by
  obtain ⟨rest, hrest⟩ := takeBytes_append_rest limit cs
  have hlength : (bytes (takeBytes limit cs)).length = lastBoundary limit (bytes cs) := by
    rw [lastBoundary_eq, length_bytes]
  rw [← hlength]
  nth_rewrite 2 [← hrest]
  rw [bytes_append, List.take_left]

theorem utf8ByteSize_ofList (cs : List Char) : (String.ofList cs).utf8ByteSize = byteLength cs := by
  rw [← String.size_toByteArray, String.toByteArray_ofList, List.utf8Encode,
    List.size_toByteArray, ← length_bytes, bytes]

end Text

/-! ## 3. Values -/

theorem Value.compact_toList (v : Value) : v.compact.toList = v.compactChars :=
  String.toList_ofList

theorem Value.utf8ByteSize_compact (v : Value) :
    v.compact.utf8ByteSize = Text.byteLength v.compactChars := Text.utf8ByteSize_ofList _

/-- **Long values are cut between two characters, as late as the limit allows.** A value whose text
    has at most 100 bytes is shown as that text. Of a longer one the longest beginning with at most
    100 bytes is shown, which has at least 97, and three dots behind it; its end is the last
    boundary that the bytes of the text have up to the limit. -/
theorem display_exact (v : Value) :
    (v.compact.utf8ByteSize ≤ 100 → (Resolved.present v).display = v.compact) ∧
    (100 < v.compact.utf8ByteSize → ∃ kept : String,
      (Resolved.present v).display = kept ++ "..." ∧
      kept.toList <+: v.compact.toList ∧
      (∀ other : String, other.toList <+: v.compact.toList → other.utf8ByteSize ≤ 100 →
        other.toList <+: kept.toList) ∧
      97 ≤ kept.utf8ByteSize ∧ kept.utf8ByteSize ≤ 100 ∧
      Text.bytes kept.toList = (Text.bytes v.compact.toList).take
        (Text.lastBoundary 100 (Text.bytes v.compact.toList))) := by
  rw [Value.utf8ByteSize_compact, Value.compact_toList]
  have hdisplay : (Resolved.present v).display =
      String.ofList (Text.elide 100 v.compactChars) := rfl
  rw [hdisplay, Text.elide]
  constructor
  · intro hshort
    rw [if_pos hshort]
    rfl
  · intro hlong
    rw [if_neg (by omega)]
    have hcut := Text.lt_byteLength_takeBytes hlong
    have hlimit := Text.byteLength_takeBytes_le 100 v.compactChars
    refine ⟨String.ofList (Text.takeBytes 100 v.compactChars), String.ofList_append, ?_, ?_, ?_⟩
    · rw [String.toList_ofList]
      exact Text.takeBytes_append_rest 100 v.compactChars
    · intro other hother hfits
      rw [String.toList_ofList]
      refine Text.prefix_takeBytes hother ?_
      rwa [← Text.utf8ByteSize_ofList, String.ofList_toList]
    · rw [Text.utf8ByteSize_ofList, String.toList_ofList, Text.take_lastBoundary]
      exact ⟨by omega, hlimit, rfl⟩

/-- A string whose text has a character of four bytes from the 98th byte to the 101st. -/
def straddling : Value := .string (String.ofList (List.replicate 96 'x' ++ ['😀', '😀']))

/-- All that is shown of it ends before that character, with the fewest bytes that there can be. -/
theorem display_exact_straddling : 100 < straddling.compact.utf8ByteSize ∧
    ∃ kept : String, (Resolved.present straddling).display = kept ++ "..." ∧
      kept.toList <+: straddling.compact.toList ∧ kept.utf8ByteSize = 97 := by
  have hchars : straddling.compactChars =
      '"' :: (List.replicate 96 'x' ++ ['😀', '😀']).flatMap Value.escaped ++ ['"'] := by
    rw [straddling, Value.compactChars, Value.quoted, String.toList_ofList]
  have hlong : 100 < straddling.compact.utf8ByteSize := by
    rw [Value.utf8ByteSize_compact, hchars]
    decide
  obtain ⟨kept, hdisplay, hprefix, _, _, _, hbytes⟩ := (display_exact straddling).2 hlong
  refine ⟨hlong, kept, hdisplay, hprefix, ?_⟩
  rw [Value.compact_toList, hchars] at hbytes
  rw [← String.ofList_toList (s := kept), Text.utf8ByteSize_ofList, ← Text.length_bytes, hbytes]
  decide +kernel

end Gatehouse
