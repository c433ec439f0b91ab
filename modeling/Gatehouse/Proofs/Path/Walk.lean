import Gatehouse.Path
import Mathlib.Data.List.TakeWhile

/-!
# The walk over the segments of a path

What this file fixes, and what it shows about `Cursor.next` and `Cursor.items`:

* `IsKey`, `Writes`: the texts that write a segment;
* `next_eq_ok_iff`: a segment is handed out exactly where its text stands and what follows may
  follow a segment; `next_eq_none_iff`, `next_error`: where the walk ends;
* `span_lt_of_next`: every step makes what is left shorter, so that the bound on the number of steps
  is one (`itemsWithin_of_span`);
* `items_of_next`, `items_eq_nil_iff`: the items are those of one step after the other;
  `walk_induction`: so what a step preserves holds all along the walk;
* `exists_segments`: an error is the last item, and all before it are segments.
-/

namespace Gatehouse.Cursor

/-! ## 1. Texts of segments -/

/-- A key is one or more characters other than a dot and an opening bracket. -/
structure IsKey (cs : List Char) : Prop where
  ne_nil : cs ≠ []
  no_dot : '.' ∉ cs
  no_bracket : '[' ∉ cs

instance (cs : List Char) : Decidable (IsKey cs) :=
  decidable_of_iff (cs ≠ [] ∧ '.' ∉ cs ∧ '[' ∉ cs)
    ⟨fun ⟨hne, hdot, hbracket⟩ => ⟨hne, hdot, hbracket⟩,
      fun h => ⟨h.ne_nil, h.no_dot, h.no_bracket⟩⟩

/-- The text writes the segment. -/
inductive Writes : List Char → Segment → Prop
  | key {k : List Char} : IsKey k → Writes k (.key (String.ofList k))
  | wildcard : Writes ['[', '*', ']'] .wildcard

theorem Writes.ne_nil {text : List Char} {s : Segment} (h : Writes text s) : text ≠ [] := by
  cases h with
  | key hk => exact hk.ne_nil
  | wildcard => exact List.cons_ne_nil _ _

/-- What starts with a bracket writes a wildcard. -/
theorem Writes.eq_wildcard {text rest inner : List Char} {s : Segment} (h : Writes text s)
    (hbracket : text ++ rest = '[' :: inner) : s = .wildcard := by
  cases h with
  | wildcard => rfl
  | key hk =>
      match text, hk with
      | c :: k, hk =>
          obtain ⟨rfl, _⟩ := List.cons.inj hbracket
          exact absurd List.mem_cons_self hk.no_bracket

theorem endsKey_iff {c : Char} : endsKey c = true ↔ c = '.' ∨ c = '[' := by
  simp only [endsKey, Bool.or_eq_true, beq_iff_eq]

theorem IsKey.endsKey_of_mem {k : List Char} (h : IsKey k) {c : Char} (hc : c ∈ k) :
    endsKey c = false := by
  cases hends : endsKey c with
  | false => rfl
  | true =>
      rcases endsKey_iff.mp hends with rfl | rfl
      · exact absurd hc h.no_dot
      · exact absurd hc h.no_bracket

/-- What is read as a key is one, unless nothing is read. -/
theorem isKey_keyChars {cs : List Char} (h : keyChars cs ≠ []) : IsKey (keyChars cs) := by
  have hnone : ∀ c ∈ keyChars cs, ¬ endsKey c = true := by
    intro c hc hends
    have hnot := List.mem_takeWhile_imp hc
    rw [hends] at hnot
    cases hnot
  exact ⟨h, fun hdot => hnone _ hdot (by decide), fun hbracket => hnone _ hbracket (by decide)⟩

theorem keyChars_append_afterKey (cs : List Char) : keyChars cs ++ afterKey cs = cs :=
  List.takeWhile_append_dropWhile

/-- A star before the first closing bracket. -/
theorem selector?_star_iff {cs rest : List Char} :
    selector? cs = some (['*'], rest) ↔ cs = '*' :: ']' :: rest := by
  constructor
  · intro h
    match cs with
    | [] => cases h
    | c :: cs =>
        rw [selector?] at h
        split at h
        · cases h
        · obtain ⟨⟨sel, rest'⟩, hsel, heq⟩ := Option.map_eq_some_iff.mp h
          simp only [Prod.mk.injEq, List.cons.injEq] at heq
          obtain ⟨⟨rfl, rfl⟩, rfl⟩ := heq
          match cs with
          | [] => cases hsel
          | d :: cs =>
              rw [selector?] at hsel
              split at hsel
              · rename_i hclose
                cases hsel
                rw [hclose]
              · obtain ⟨_, _, heq⟩ := Option.map_eq_some_iff.mp hsel
                cases heq
  · rintro rfl
    rfl

/-! ## 2. One step -/

/-- After a segment the text is at its end, or goes on with a dot or a bracket. -/
theorem afterSegment_eq_ok_iff {cs : List Char} {c : Cursor} : afterSegment cs = .ok c ↔
    (cs = [] ∧ c = .reading [] false) ∨ (∃ rest, cs = '.' :: rest ∧ c = .reading rest true) ∨
      ∃ rest, cs = '[' :: rest ∧ c = .reading cs false := by
  unfold afterSegment
  split
  · simp [eq_comm]
  · simp [eq_comm]
  · simp [eq_comm]
  · rename_i d rest hdot hbracket
    refine iff_of_false (fun h => by cases h) ?_
    rintro (⟨h, _⟩ | ⟨_, h, _⟩ | ⟨_, h, _⟩)
    · cases h
    · exact hdot (List.cons.inj h).1
    · exact hbracket (List.cons.inj h).1

theorem handOut_eq_ok_iff {s s' : Segment} {rest : List Char} {c : Cursor} :
    handOut s rest = (.ok s', c) ↔ s = s' ∧ afterSegment rest = .ok c := by
  unfold handOut
  cases afterSegment rest with
  | ok d => simp
  | error e => simp

theorem handOut_eq_error {s : Segment} {rest : List Char} {e : PathError} {c : Cursor}
    (h : handOut s rest = (.error e, c)) : c = .finished := by
  unfold handOut at h
  split at h
  · cases h
  · cases h
    rfl

/-- The step at a character that is no bracket reads a key. -/
theorem next_of_ne_bracket {c : Char} {cs : List Char} {due : Bool} (h : c ≠ '[') :
    (reading (c :: cs) due).next =
      if keyChars (c :: cs) = [] then some (.error .emptySegment, .finished)
      else some (handOut (.key (String.ofList (keyChars (c :: cs)))) (afterKey (c :: cs))) := by
  unfold next
  split
  · rename_i heq
    cases heq
  · rename_i heq
    cases heq
  · rename_i heq
    cases heq
  · rename_i heq
    cases heq
  · rename_i heq
    cases heq
    exact absurd rfl h
  · rename_i heq
    cases heq
    cases hkey : keyChars (c :: cs) with
    | nil => rfl
    | cons d key => rfl

/-- The step at a bracket reads a wildcard, or there is a mistake. -/
theorem next_of_bracket {inner : List Char} {due : Bool} :
    (reading ('[' :: inner) due).next =
      match selector? inner with
      | none => some (.error .unclosedBracket, .finished)
      | some (sel, rest) =>
          if sel = ['*'] then some (handOut .wildcard rest)
          else some (.error (.unsupportedSelector (String.ofList sel)), .finished) := by
  cases due <;> rfl

/-- A key is read up to the dot or the bracket after it. -/
theorem keyChars_append {k rest : List Char} (hk : IsKey k)
    (hrest : ∀ c ∈ rest.head?, endsKey c = true) :
    keyChars (k ++ rest) = k ∧ afterKey (k ++ rest) = rest := by
  have hall : ∀ c ∈ k, (!endsKey c) = true := by
    intro c hc
    rw [hk.endsKey_of_mem hc]
    rfl
  unfold keyChars afterKey
  rw [List.takeWhile_append_of_pos hall, List.dropWhile_append_of_pos hall]
  cases rest with
  | nil => simp
  | cons c rest => simp [hrest c rfl]

/-- What may follow a segment ends a key. -/
theorem endsKey_head_of_afterSegment {rest : List Char} {c : Cursor}
    (h : afterSegment rest = .ok c) : ∀ d ∈ rest.head?, endsKey d = true := by
  intro d hd
  rcases afterSegment_eq_ok_iff.mp h with ⟨rfl, _⟩ | ⟨_, rfl, _⟩ | ⟨_, rfl, _⟩
  · cases hd
  · cases hd
    rfl
  · cases hd
    rfl

/-- **A segment is handed out where its text stands**, if what follows may follow a segment. -/
theorem next_eq_ok_iff {c c' : Cursor} {s : Segment} : c.next = some (.ok s, c') ↔
    ∃ text rest due, c = .reading (text ++ rest) due ∧ Writes text s ∧
      afterSegment rest = .ok c' := by
  constructor
  · intro h
    match c with
    | .broken e => cases h
    | .finished => cases h
    | .reading [] true => cases h
    | .reading [] false => cases h
    | .reading (d :: cs) due =>
        by_cases hd : d = '['
        · subst hd
          rw [next_of_bracket] at h
          split at h
          · cases h
          · rename_i sel rest hsel
            split at h
            · rename_i hstar
              subst hstar
              obtain ⟨rfl, hrest⟩ := handOut_eq_ok_iff.mp (Option.some.inj h)
              rw [selector?_star_iff.mp hsel]
              exact ⟨_, rest, due, rfl, .wildcard, hrest⟩
            · cases h
        · rw [next_of_ne_bracket hd] at h
          split at h
          · cases h
          · rename_i hkey
            obtain ⟨rfl, hrest⟩ := handOut_eq_ok_iff.mp (Option.some.inj h)
            exact ⟨_, _, due, by rw [keyChars_append_afterKey], .key (isKey_keyChars hkey), hrest⟩
  · rintro ⟨text, rest, due, rfl, htext, hrest⟩
    cases htext with
    | key hk =>
        obtain ⟨hread, hleft⟩ := keyChars_append hk (endsKey_head_of_afterSegment hrest)
        match text, hk with
        | d :: k, hk =>
            have hd : d ≠ '[' := fun h => hk.no_bracket (h ▸ List.mem_cons_self)
            rw [List.cons_append] at hread hleft ⊢
            rw [next_of_ne_bracket hd, hread, hleft, if_neg hk.ne_nil]
            exact congrArg some (handOut_eq_ok_iff.mpr ⟨rfl, hrest⟩)
    | wildcard =>
        show (reading ('[' :: '*' :: ']' :: rest) due).next = _
        rw [next_of_bracket]
        exact congrArg some (handOut_eq_ok_iff.mpr ⟨rfl, hrest⟩)

/-- An error ends the walk. -/
theorem next_error {c c' : Cursor} {e : PathError} (h : c.next = some (.error e, c')) :
    c' = .finished := by
  match c with
  | .broken e => cases h; rfl
  | .finished => cases h
  | .reading [] true => cases h; rfl
  | .reading [] false => cases h
  | .reading (d :: cs) due =>
      by_cases hd : d = '['
      · subst hd
        rw [next_of_bracket] at h
        split at h
        · cases h; rfl
        · split at h
          · exact handOut_eq_error (Option.some.inj h)
          · cases h; rfl
      · rw [next_of_ne_bracket hd] at h
        split at h
        · cases h; rfl
        · exact handOut_eq_error (Option.some.inj h)

/-- The walk is over at its end, and where the text is read and no segment is due. -/
theorem next_eq_none_iff {c : Cursor} :
    c.next = none ↔ c = .finished ∨ c = .reading [] false := by
  match c with
  | .broken e => simp [next]
  | .finished => simp [next]
  | .reading [] true => simp [next]
  | .reading [] false => simp [next]
  | .reading (d :: cs) due =>
      by_cases hd : d = '['
      · subst hd
        rw [next_of_bracket]
        split
        · simp
        · split <;> simp
      · rw [next_of_ne_bracket hd]
        split <;> simp

/-! ## 3. All steps -/

/-- Every step makes what is left shorter. -/
theorem span_lt_of_next {c c' : Cursor} {i : Item} (h : c.next = some (i, c')) :
    c'.span < c.span := by
  cases i with
  | error e =>
      rw [next_error h]
      match c with
      | .broken e => simp [span]
      | .finished => cases h
      | .reading cs due => simp [span]
  | ok s =>
      obtain ⟨text, rest, due, rfl, htext, hrest⟩ := next_eq_ok_iff.mp h
      have hpos : 0 < text.length := List.length_pos_iff.mpr htext.ne_nil
      have hspan : c'.span ≤ rest.length + 2 := by
        rcases afterSegment_eq_ok_iff.mp hrest with ⟨rfl, rfl⟩ | ⟨_, rfl, rfl⟩ | ⟨_, _, rfl⟩ <;>
          simp [span]
      have hlength : (text ++ rest).length = text.length + rest.length := List.length_append
      show c'.span < (text ++ rest).length + 2
      omega

theorem span_pos (c : Cursor) : 0 < c.span := by
  cases c with
  | broken e => exact Nat.zero_lt_succ 1
  | reading rest due => exact Nat.zero_lt_succ _
  | finished => exact Nat.zero_lt_succ 0

/-- More steps than the bound allows find nothing more. -/
theorem itemsWithin_of_span {n : Nat} : ∀ {c : Cursor}, c.span ≤ n → itemsWithin n c = c.items := by
  induction n using Nat.strong_induction_on with
  | _ n ih =>
    intro c h
    obtain ⟨m, hm⟩ := Nat.exists_eq_succ_of_ne_zero (Nat.ne_of_gt c.span_pos)
    obtain ⟨k, rfl⟩ := Nat.exists_eq_succ_of_ne_zero
      (Nat.ne_of_gt (Nat.lt_of_lt_of_le c.span_pos h))
    rw [items, hm, itemsWithin, itemsWithin]
    cases hnext : c.next with
    | none => rfl
    | some step =>
        obtain ⟨i, c'⟩ := step
        have hlt := span_lt_of_next hnext
        simp only
        rw [ih k (Nat.lt_succ_self k) (by omega), ih m (by omega) (by omega)]

/-- **The items are those of one step after the other.** -/
theorem items_of_next {c c' : Cursor} {i : Item} (h : c.next = some (i, c')) :
    c.items = i :: c'.items := by
  have hlt := span_lt_of_next h
  rw [← itemsWithin_of_span (Nat.le_succ c.span), itemsWithin, h]
  simp only
  rw [itemsWithin_of_span (Nat.le_of_lt hlt)]

theorem items_of_no_next {c : Cursor} (h : c.next = none) : c.items = [] := by
  rw [← itemsWithin_of_span (Nat.le_succ c.span), itemsWithin, h]

theorem items_eq_nil_iff {c : Cursor} : c.items = [] ↔ c.next = none := by
  cases h : c.next with
  | none => simp [items_of_no_next h]
  | some step =>
      obtain ⟨i, c'⟩ := step
      simp [items_of_next h]

theorem items_eq_cons_iff {c : Cursor} {i : Item} {rest : List Item} :
    c.items = i :: rest ↔ ∃ c', c.next = some (i, c') ∧ c'.items = rest := by
  cases h : c.next with
  | none => simp [items_of_no_next h]
  | some step =>
      obtain ⟨j, c'⟩ := step
      simp [items_of_next h, and_assoc]

theorem items_finished : items .finished = [] := rfl

/-- What holds at the ends of walks, and before a step if it holds after it, holds at every place. -/
theorem walk_induction {P : Cursor → Prop} (stop : ∀ c, c.next = none → P c)
    (step : ∀ c i c', c.next = some (i, c') → P c' → P c) (c : Cursor) : P c := by
  induction hn : c.span using Nat.strong_induction_on generalizing c with
  | _ n ih =>
    cases hnext : c.next with
    | none => exact stop c hnext
    | some found =>
        obtain ⟨i, c'⟩ := found
        exact step c i c' hnext (ih c'.span (hn ▸ span_lt_of_next hnext) c' rfl)

/-- **An error is the last item**, and all before it are segments. -/
theorem exists_segments (c : Cursor) : ∃ ss : List Segment,
    c.items = ss.map .ok ∨ ∃ e, c.items = ss.map .ok ++ [.error e] := by
  induction c using walk_induction with
  | stop c h => exact ⟨[], Or.inl (items_of_no_next h)⟩
  | step c i c' h ih =>
      rw [items_of_next h]
      cases i with
      | error e =>
          rw [next_error h, items_finished]
          exact ⟨[], Or.inr ⟨e, rfl⟩⟩
      | ok s =>
          obtain ⟨ss, hss⟩ := ih
          refine ⟨s :: ss, ?_⟩
          rcases hss with hss | ⟨e, hss⟩
          · exact Or.inl (by rw [hss]; rfl)
          · exact Or.inr ⟨e, by rw [hss]; rfl⟩

end Gatehouse.Cursor
