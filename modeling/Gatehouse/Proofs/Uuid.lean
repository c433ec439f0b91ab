import Gatehouse.Uuid
import Gatehouse.Proofs.Lists
import Mathlib.Algebra.GroupWithZero.Nat

/-!
# The spellings of a UUID

What this file fixes, and what it shows about `Uuid.parse?`:

* `Uuid.WrittenBy`: characters that write the digits of a UUID, each letter in either case;
* `Uuid.Spelling`: the texts that spell a UUID: its digits alone, in hyphenated groups, in braces
  or after `urn:uuid:`;
* `Uuid.parse?_eq_some_iff`: these are the texts that are read as the UUID, and there are no others.
  The printed one is among them (`parse?_text`);
* `text_inj`, `length_text`, `mem_text`: the printed spelling tells UUIDs apart, is 36 characters
  long and has none but digits and hyphens.
-/

namespace Gatehouse

/-! ## 1. Fields between separators -/

namespace Text

theorem splitOn_of_not_mem {sep : Char} : ∀ {cs : List Char}, sep ∉ cs → splitOn sep cs = [cs]
  | [], _ => rfl
  | c :: cs, h => by
      have hc : c ≠ sep := fun e => h (e ▸ List.mem_cons_self)
      rw [splitOn, if_neg hc, splitOn_of_not_mem fun hm => h (List.mem_cons_of_mem _ hm)]

theorem splitOn_append {sep : Char} (rest : List Char) : ∀ {cs : List Char}, sep ∉ cs →
    splitOn sep (cs ++ sep :: rest) = cs :: splitOn sep rest
  | [], _ => by rw [List.nil_append, splitOn, if_pos rfl]
  | c :: cs, h => by
      have hc : c ≠ sep := fun e => h (e ▸ List.mem_cons_self)
      rw [List.cons_append, splitOn, if_neg hc,
        splitOn_append rest fun hm => h (List.mem_cons_of_mem _ hm)]

/-- Fields that each end with a separator are found between the separators. -/
theorem splitOn_flatMap {sep : Char} {fields : List (List Char)} (h : ∀ f ∈ fields, sep ∉ f) :
    splitOn sep (fields.flatMap (· ++ [sep])) = fields ++ [[]] := by
  induction fields with
  | nil => rfl
  | cons f fields ih =>
    have hf : sep ∉ f := h f List.mem_cons_self
    have hfields : ∀ g ∈ fields, sep ∉ g := fun g hg => h g (List.mem_cons_of_mem _ hg)
    rw [List.flatMap_cons, List.append_assoc, List.singleton_append, splitOn_append _ hf,
      ih hfields, List.cons_append]

theorem splitOn_ne_nil (sep : Char) : ∀ cs : List Char, splitOn sep cs ≠ []
  | [] => List.cons_ne_nil _ _
  | c :: cs => by
      rw [splitOn]
      split
      · exact List.cons_ne_nil _ _
      · split <;> exact List.cons_ne_nil _ _

theorem not_mem_flatten_splitOn (sep : Char) : ∀ cs : List Char, sep ∉ (splitOn sep cs).flatten
  | [] => by simp [splitOn]
  | c :: cs => by
      have ih := not_mem_flatten_splitOn sep cs
      rw [splitOn]
      split
      · simpa using ih
      · rename_i hc
        split
        · simpa using Ne.symm hc
        · rename_i f fs hf
          rw [hf] at ih
          simpa [Ne.symm hc] using ih

/-- A hexadecimal digit is not the first letter of a name such as `urn`. -/
theorem hexValue?_of_toLower {c : Char} (h : c.toLower = 'u') : hexValue? c = none := by
  have hcode : c.toNat = 117 ∨ c.toNat = 85 := by
    unfold Char.toLower at h
    split at h
    · rename_i hupper
      right
      have hval := congrArg UInt32.toNat (congrArg Char.val h)
      have hle : c.val.toNat ≤ 90 := hupper.2
      have hshift : ('a'.val - 'A'.val).toNat = 32 := rfl
      have hletter : 'u'.val.toNat = 117 := rfl
      show c.val.toNat = 85
      rw [UInt32.toNat_add] at hval
      omega
    · left
      rw [h]
      rfl
  unfold hexValue?
  simp only
  rw [if_neg (by omega), if_neg (by omega), if_neg (by omega)]

end Text

namespace Uuid

/-! ## 2. Hyphenated groups -/

theorem hyphenate_succ (n : Nat) (sizes : List Nat) (c : Char) (cs : List Char) :
    hyphenate ((n + 1) :: sizes) (c :: cs) = c :: hyphenate (n :: sizes) cs := by
  cases sizes <;> rfl

/-- A text is made of its fields, put together with hyphens. -/
theorem hyphenate_splitOn : ∀ cs : List Char,
    hyphenate ((Text.splitOn '-' cs).map List.length) (Text.splitOn '-' cs).flatten = cs
  | [] => rfl
  | c :: cs => by
      have ih := hyphenate_splitOn cs
      rw [Text.splitOn]
      cases hs : Text.splitOn '-' cs with
      | nil => exact absurd hs (Text.splitOn_ne_nil '-' cs)
      | cons f fs =>
          rw [hs] at ih
          split
          · rename_i hc
            subst hc
            simpa [hyphenate] using ih
          · simpa [hyphenate_succ] using ih

/-- Groups of digits are the fields of what they are put together to. -/
theorem splitOn_hyphenate : ∀ (sizes : List Nat) (cs : List Char), sizes ≠ [] →
    cs.length = sizes.sum → '-' ∉ cs →
    (Text.splitOn '-' (hyphenate sizes cs)).map List.length = sizes ∧
      (Text.splitOn '-' (hyphenate sizes cs)).flatten = cs
  | [], _, h, _, _ => absurd rfl h
  | [n], cs, _, hlen, hcs => by
      rw [hyphenate, Text.splitOn_of_not_mem hcs]
      simpa using hlen
  | n :: m :: sizes, cs, _, hlen, hcs => by
      have htake : (cs.take n).length = n := by
        rw [List.length_take]
        simp only [List.sum_cons] at hlen
        omega
      have hdrop : (cs.drop n).length = (m :: sizes).sum := by
        rw [List.length_drop, hlen, List.sum_cons]
        omega
      have ih := splitOn_hyphenate (m :: sizes) (cs.drop n) (List.cons_ne_nil _ _) hdrop
        fun h => hcs (List.mem_of_mem_drop h)
      rw [hyphenate.eq_def]
      simp only
      rw [Text.splitOn_append _ fun h => hcs (List.mem_of_mem_take h), List.map_cons,
        List.flatten_cons, ih.1, ih.2, htake, List.take_append_drop]
      exact ⟨rfl, rfl⟩

theorem hyphenated?_eq_some_iff {cs ds : List Char} :
    hyphenated? cs = some ds ↔ ds.length = 32 ∧ '-' ∉ ds ∧ cs = hyphenate groupSizes ds := by
  unfold hyphenated?
  constructor
  · intro h
    simp only at h
    split at h
    · rename_i hsizes
      obtain rfl := Option.some.inj h
      refine ⟨?_, Text.not_mem_flatten_splitOn '-' cs, ?_⟩
      · rw [List.length_flatten, hsizes]
        rfl
      · rw [← hsizes, hyphenate_splitOn]
    · cases h
  · rintro ⟨hlen, hds, rfl⟩
    obtain ⟨hsizes, hflat⟩ := splitOn_hyphenate groupSizes ds (List.cons_ne_nil _ _) hlen hds
    simp only [if_pos hsizes, hflat]

/-! ## 3. Spellings -/

/-- The characters write the digits of the UUID. -/
def WrittenBy (u : Uuid) (cs : List Char) : Prop := cs.map Text.hexValue? = u.digits.map some

/-- The texts that spell a UUID. -/
inductive Spelling (u : Uuid) : List Char → Prop
  | plain {cs : List Char} : u.WrittenBy cs → Spelling u cs
  | hyphenated {cs : List Char} : u.WrittenBy cs → Spelling u (hyphenate groupSizes cs)
  | braced {cs : List Char} : u.WrittenBy cs →
      Spelling u ('\x7b' :: (hyphenate groupSizes cs ++ ['\x7d']))
  | named {name cs : List Char} : name.map Char.toLower = urn → u.WrittenBy cs →
      Spelling u (name ++ hyphenate groupSizes cs)

namespace WrittenBy

variable {u : Uuid} {cs : List Char}

theorem length_eq (h : u.WrittenBy cs) : cs.length = 32 := by
  have hlen := congrArg List.length h
  rw [List.length_map, List.length_map, u.size] at hlen
  exact hlen

theorem isSome_hexValue? (h : u.WrittenBy cs) {c : Char} (hc : c ∈ cs) :
    (Text.hexValue? c).isSome = true := by
  have hmem : Text.hexValue? c ∈ cs.map Text.hexValue? := List.mem_map_of_mem hc
  rw [h] at hmem
  obtain ⟨d, _, hd⟩ := List.mem_map.mp hmem
  rw [← hd]
  rfl

/-- Digits are no punctuation. -/
theorem not_mem (h : u.WrittenBy cs) {c : Char} (hc : Text.hexValue? c = none) : c ∉ cs := by
  intro hmem
  have hsome := h.isSome_hexValue? hmem
  rw [hc] at hsome
  cases hsome

/-- The first digit begins neither a brace nor a name. -/
theorem cons_of (h : u.WrittenBy cs) : ∃ c rest, cs = c :: rest ∧ c ≠ '\x7b' ∧ c.toLower ≠ 'u' := by
  cases cs with
  | nil => cases h.length_eq
  | cons c rest =>
      have hc := h.isSome_hexValue? List.mem_cons_self
      refine ⟨c, rest, rfl, ?_, ?_⟩
      · rintro rfl
        cases hc
      · intro hu
        rw [Text.hexValue?_of_toLower hu] at hc
        cases hc

/-- The digits can be hyphenated. -/
theorem hyphenated? (h : u.WrittenBy cs) :
    Uuid.hyphenated? (hyphenate groupSizes cs) = some cs :=
  hyphenated?_eq_some_iff.mpr ⟨h.length_eq, h.not_mem rfl, rfl⟩

end WrittenBy

theorem hyphenate_cons (c : Char) (cs : List Char) :
    ∃ rest, hyphenate groupSizes (c :: cs) = c :: rest := by
  rw [groupSizes, hyphenate_succ]
  exact ⟨_, rfl⟩

theorem length_hyphenate {cs : List Char} (h : cs.length = 32) :
    (hyphenate groupSizes cs).length = 36 := by
  simp [hyphenate, groupSizes, h]

/-- The characters of a text that begins like a spelling without frame. -/
theorem digitChars?_of_cons {c : Char} {rest : List Char} (hbrace : c ≠ '\x7b')
    (hname : c.toLower ≠ 'u') : digitChars? (c :: rest) =
      if (c :: rest).length = 32 then some (c :: rest) else Uuid.hyphenated? (c :: rest) := by
  have hurn : ((c :: rest).take urn.length).map Char.toLower ≠ urn := by
    intro h
    exact hname (List.cons.inj h).1
  unfold digitChars?
  split
  · rename_i heq
    exact absurd (List.cons.inj heq).1 hbrace
  · rw [if_neg hurn]

/-- Every spelling has the digits in it. -/
theorem Spelling.digitChars? {u : Uuid} {cs : List Char} (h : u.Spelling cs) :
    ∃ ds, u.WrittenBy ds ∧ Uuid.digitChars? cs = some ds := by
  cases h with
  | plain hw =>
      obtain ⟨c, rest, rfl, hbrace, hname⟩ := hw.cons_of
      exact ⟨_, hw, by rw [digitChars?_of_cons hbrace hname, if_pos hw.length_eq]⟩
  | @hyphenated ds hw =>
      obtain ⟨c, rest, rfl, hbrace, hname⟩ := hw.cons_of
      obtain ⟨tail, htail⟩ := hyphenate_cons c rest
      have hlen := length_hyphenate hw.length_eq
      have hread := hw.hyphenated?
      rw [htail] at hlen hread ⊢
      refine ⟨_, hw, ?_⟩
      rw [digitChars?_of_cons hbrace hname, if_neg (by omega), hread]
  | @braced ds hw =>
      refine ⟨ds, hw, ?_⟩
      unfold Uuid.digitChars?
      simp only [List.getLast?_concat, if_pos, List.dropLast_concat, hw.hyphenated?]
  | @named name ds hname hw =>
      have hlen : name.length = urn.length := by rw [← hname, List.length_map]
      refine ⟨ds, hw, ?_⟩
      unfold Uuid.digitChars?
      split
      · rename_i rest heq
        cases name with
        | nil => cases hname
        | cons c name =>
            rw [(List.cons.inj heq).1] at hname
            cases (List.cons.inj hname).1
      · rw [List.take_left' hlen, List.drop_left' hlen, if_pos hname, hw.hyphenated?]

/-- The digits of a text that is read stand in a spelling. -/
theorem spelling_of_digitChars? {u : Uuid} {cs ds : List Char}
    (h : digitChars? cs = some ds) (hw : u.WrittenBy ds) : u.Spelling cs := by
  unfold digitChars? at h
  split at h
  · rename_i rest
    split at h
    · rename_i hlast
      obtain ⟨_, _, hds⟩ := hyphenated?_eq_some_iff.mp h
      have hrest : rest = hyphenate groupSizes ds ++ ['\x7d'] := by
        rw [← hds]
        exact (List.dropLast_append_getLast? _ hlast).symm
      rw [hrest]
      exact .braced hw
    · cases h
  · split at h
    · rename_i hname
      obtain ⟨_, _, hds⟩ := hyphenated?_eq_some_iff.mp h
      rw [← List.take_append_drop urn.length cs, hds]
      exact .named hname hw
    · split at h
      · obtain rfl := Option.some.inj h
        exact .plain hw
      · obtain ⟨_, _, rfl⟩ := hyphenated?_eq_some_iff.mp h
        exact .hyphenated hw

theorem ofDigits?_eq_some_iff {u : Uuid} {ds : List (Fin 16)} :
    ofDigits? ds = some u ↔ u.digits = ds := by
  unfold ofDigits?
  constructor
  · intro h
    split at h
    · cases h
      rfl
    · cases h
  · rintro rfl
    rw [dif_pos u.size]

/-- The characters are read as the digits that they write. -/
theorem bind_ofDigits?_eq_some_iff {u : Uuid} {ds : List Char} :
    (ds.mapM Text.hexValue?).bind ofDigits? = some u ↔ u.WrittenBy ds := by
  rw [Option.bind_eq_some_iff, WrittenBy]
  constructor
  · rintro ⟨values, hvalues, hu⟩
    rw [ofDigits?_eq_some_iff.mp hu]
    exact mapM_eq_some_iff.mp hvalues
  · intro h
    exact ⟨u.digits, mapM_eq_some_iff.mpr h, ofDigits?_eq_some_iff.mpr rfl⟩

/-- **The texts that are read as a UUID are its spellings.** -/
theorem parse?_eq_some_iff {u : Uuid} {s : String} : parse? s = some u ↔ u.Spelling s.toList := by
  unfold parse?
  rw [Option.bind_eq_some_iff]
  constructor
  · rintro ⟨ds, hds, hu⟩
    exact spelling_of_digitChars? hds (bind_ofDigits?_eq_some_iff.mp hu)
  · intro h
    obtain ⟨ds, hw, hds⟩ := h.digitChars?
    exact ⟨ds, hds, bind_ofDigits?_eq_some_iff.mpr hw⟩

/-- **The printed spelling is read back.** -/
theorem parse?_text (u : Uuid) : parse? u.text = some u := by
  have hw : u.WrittenBy (u.digits.map Text.hexDigit) := by
    rw [WrittenBy, List.map_map]
    exact List.map_congr_left fun d _ => Text.hexValue_hexDigit d
  rw [parse?_eq_some_iff, text, String.toList_ofList]
  exact .hyphenated hw

theorem text_inj {u v : Uuid} : u.text = v.text ↔ u = v := by
  constructor
  · intro h
    have hread := parse?_text u
    rw [h, parse?_text] at hread
    exact (Option.some.inj hread).symm
  · rintro rfl
    rfl

theorem length_text (u : Uuid) : u.text.toList.length = 36 := by
  rw [text, String.toList_ofList]
  refine length_hyphenate ?_
  rw [List.length_map, u.size]

theorem mem_hyphenate {c : Char} : ∀ {sizes : List Nat} {cs : List Char},
    c ∈ hyphenate sizes cs → c = '-' ∨ c ∈ cs
  | [], _, h => Or.inr h
  | [_], _, h => Or.inr h
  | n :: m :: sizes, cs, h => by
      rw [hyphenate] at h
      · rcases List.mem_append.mp h with h | h
        · exact Or.inr (List.mem_of_mem_take h)
        · rcases List.mem_cons.mp h with rfl | h
          · exact Or.inl rfl
          · exact (mem_hyphenate h).imp_right List.mem_of_mem_drop
      · exact List.cons_ne_nil _ _

/-- The printed spelling has no characters but hexadecimal digits and hyphens. -/
theorem mem_text {u : Uuid} {c : Char} (h : c ∈ u.text.toList) :
    c = '-' ∨ ∃ d, c = Text.hexDigit d := by
  rw [text, String.toList_ofList] at h
  refine (mem_hyphenate h).imp_right fun hc => ?_
  obtain ⟨d, _, hd⟩ := List.mem_map.mp hc
  exact ⟨d, hd.symm⟩

theorem sameSpelled_iff {a b : String} :
    sameSpelled a b = true ↔ ∃ u : Uuid, u.Spelling a.toList ∧ u.Spelling b.toList := by
  unfold sameSpelled
  constructor
  · intro h
    split at h
    · rename_i u v hu hv
      obtain rfl := beq_iff_eq.mp h
      exact ⟨u, parse?_eq_some_iff.mp hu, parse?_eq_some_iff.mp hv⟩
    · cases h
  · rintro ⟨u, ha, hb⟩
    rw [parse?_eq_some_iff.mpr ha, parse?_eq_some_iff.mpr hb]
    exact beq_self_eq_true u

end Uuid

end Gatehouse
