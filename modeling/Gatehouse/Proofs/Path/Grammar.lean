import Gatehouse.Proofs.Lists
import Gatehouse.Proofs.Path
import Gatehouse.Proofs.Path.Walk

/-!
# The grammar of paths

What this file fixes, and what it shows about `Path.check`:

* `Path.Continues`: the texts that may follow a segment, with the segments that they write;
* `Path.Spells`: the well-formed paths, with their namespaces and segments, said without a walk;
* `continues_iff`: the walk hands out exactly the segments that the grammar finds;
* `spells_append_iff`: a path goes on where another one ends;
* `check_exact`: the check accepts the paths of the grammar and no others.
-/

namespace Gatehouse

/-! ## 1. Namespaces and dots -/

theorem Namespace.ofName?_eq_some_iff {s : String} {n : Namespace} :
    ofName? s = some n ↔ n.name = s :=
  find?_name_eq_some_iff fun n => by cases n <;> decide +kernel

theorem Namespace.no_dot_name (n : Namespace) : '.' ∉ n.name.toList := by
  cases n <;> decide +kernel

namespace Path

/-- A text is cut at its first dot. -/
theorem cutAtDot?_eq_some_iff : ∀ {cs head rest : List Char},
    cutAtDot? cs = some (head, rest) ↔ cs = head ++ '.' :: rest ∧ '.' ∉ head
  | [], head, rest => by simp [cutAtDot?]
  | c :: cs, head, rest => by
      rw [cutAtDot?]
      by_cases hc : c = '.'
      · subst hc
        rw [if_pos rfl]
        cases head with
        | nil => simp
        | cons d head =>
            refine iff_of_false (fun h => by cases h) fun ⟨hcs, hdot⟩ => hdot ?_
            rw [(List.cons.inj hcs).1]
            exact List.mem_cons_self
      · rw [if_neg hc, Option.map_eq_some_iff]
        constructor
        · intro ⟨⟨head', rest'⟩, hcut, heq⟩
          cases heq
          obtain ⟨rfl, hdot⟩ := cutAtDot?_eq_some_iff.mp hcut
          exact ⟨rfl, fun hmem => (List.mem_cons.mp hmem).elim (fun h => hc h.symm) hdot⟩
        · intro ⟨hcs, hdot⟩
          cases head with
          | nil => exact absurd (List.cons.inj hcs).1 hc
          | cons d head =>
              obtain ⟨rfl, rfl⟩ := List.cons.inj hcs
              exact ⟨(head, rest), cutAtDot?_eq_some_iff.mpr
                ⟨rfl, fun h => hdot (List.mem_cons_of_mem _ h)⟩, rfl⟩

/-- A path names a namespace if its text starts with the name and a dot. -/
theorem split?_eq_some_iff {p : Path} {n : Namespace} {rest : List Char} :
    p.split? = some (n, rest) ↔ p.text.toList = n.name.toList ++ '.' :: rest := by
  unfold split?
  constructor
  · intro h
    obtain ⟨⟨head, rest'⟩, hcut, hname⟩ := Option.bind_eq_some_iff.mp h
    obtain ⟨m, hm, heq⟩ := Option.map_eq_some_iff.mp hname
    cases heq
    rw [(cutAtDot?_eq_some_iff.mp hcut).1, Namespace.ofName?_eq_some_iff.mp hm,
      String.toList_ofList]
  · intro h
    rw [cutAtDot?_eq_some_iff.mpr ⟨h, n.no_dot_name⟩]
    simp [Namespace.ofName?_eq_some_iff]

/-! ## 2. The grammar -/

open Cursor (IsKey Writes)

/-- What may follow a segment: any number of keys after a dot, and of wildcards with or without a
    dot before them. -/
inductive Continues : List Char → List Segment → Prop
  | done : Continues [] []
  | key {k rest : List Char} {ss : List Segment} : IsKey k → Continues rest ss →
      Continues ('.' :: (k ++ rest)) (.key (String.ofList k) :: ss)
  | wildcard {rest : List Char} {ss : List Segment} : Continues rest ss →
      Continues ('[' :: '*' :: ']' :: rest) (.wildcard :: ss)
  | dottedWildcard {rest : List Char} {ss : List Segment} : Continues rest ss →
      Continues ('.' :: '[' :: '*' :: ']' :: rest) (.wildcard :: ss)

/-- The path is the name of the namespace, a dot, a key, and what may follow it; these are its
    segments. -/
inductive Spells (p : Path) (n : Namespace) : List Segment → Prop
  | intro {k rest : List Char} {ss : List Segment} :
      p.text.toList = n.name.toList ++ '.' :: (k ++ rest) → IsKey k → Continues rest ss →
      Spells p n (.key (String.ofList k) :: ss)

/-! ## 3. The walk and the grammar -/

/-- A segment with what follows it, after a dot or after a segment. -/
theorem continues_cons_iff {cs : List Char} {s : Segment} {ss : List Segment} :
    Continues cs (s :: ss) ↔ ∃ text rest, Writes text s ∧ Continues rest ss ∧
      (cs = '.' :: (text ++ rest) ∨ (s = .wildcard ∧ cs = text ++ rest)) := by
  constructor
  · intro h
    cases h with
    | key hk hrest => exact ⟨_, _, .key hk, hrest, Or.inl rfl⟩
    | wildcard hrest => exact ⟨_, _, .wildcard, hrest, Or.inr ⟨rfl, rfl⟩⟩
    | dottedWildcard hrest => exact ⟨_, _, .wildcard, hrest, Or.inl rfl⟩
  · rintro ⟨text, rest, htext, hrest, rfl | ⟨rfl, rfl⟩⟩
    · cases htext with
      | key hk => exact .key hk hrest
      | wildcard => exact .dottedWildcard hrest
    · cases htext
      exact .wildcard hrest

/-- **The walk after a segment hands out what the grammar finds there**, and no error. -/
theorem continues_iff {cs : List Char} {ss : List Segment} :
    Continues cs ss ↔ ∃ c, Cursor.afterSegment cs = .ok c ∧ c.items = ss.map .ok := by
  induction ss generalizing cs with
  | nil =>
      constructor
      · intro h
        cases h
        exact ⟨_, rfl, rfl⟩
      · intro ⟨c, hc, hitems⟩
        have hend := Cursor.next_eq_none_iff.mp (Cursor.items_eq_nil_iff.mp hitems)
        rcases Cursor.afterSegment_eq_ok_iff.mp hc with ⟨rfl, _⟩ | ⟨_, rfl, rfl⟩ | ⟨_, rfl, rfl⟩
        · exact .done
        · simp at hend
        · simp at hend
  | cons s ss ih =>
      rw [continues_cons_iff]
      constructor
      · intro ⟨text, rest, htext, hrest, hcs⟩
        obtain ⟨c, hc, hitems⟩ := ih.mp hrest
        have hstep : ∀ due, (Cursor.reading (text ++ rest) due).items = (s :: ss).map .ok := by
          intro due
          rw [Cursor.items_of_next (Cursor.next_eq_ok_iff.mpr ⟨text, rest, due, rfl, htext, hc⟩),
            hitems]
          rfl
        rcases hcs with rfl | ⟨rfl, rfl⟩
        · exact ⟨_, rfl, hstep true⟩
        · cases htext
          exact ⟨_, rfl, hstep false⟩
      · intro ⟨c, hc, hitems⟩
        obtain ⟨c', hnext, hitems'⟩ := Cursor.items_eq_cons_iff.mp hitems
        obtain ⟨text, rest, due, rfl, htext, hrest⟩ := Cursor.next_eq_ok_iff.mp hnext
        refine ⟨text, rest, htext, ih.mpr ⟨c', hrest, hitems'⟩, ?_⟩
        rcases Cursor.afterSegment_eq_ok_iff.mp hc with ⟨_, heq⟩ | ⟨_, rfl, heq⟩ | ⟨_, rfl, heq⟩
        · have hnil := (Cursor.reading.inj heq).1
          exact absurd (List.append_eq_nil_iff.mp hnil).1 htext.ne_nil
        · exact Or.inl (by rw [(Cursor.reading.inj heq).1])
        · have hcs := (Cursor.reading.inj heq).1
          exact Or.inr ⟨htext.eq_wildcard hcs, hcs.symm⟩

/-- A walk that is to start with a segment hands out segments only if it starts with the text of
    one and goes on as the grammar has it. -/
theorem items_due_iff {cs : List Char} {ss : List Segment} :
    (Cursor.reading cs true).items = ss.map .ok ↔ ∃ text rest s ss', ss = s :: ss' ∧
      cs = text ++ rest ∧ Writes text s ∧ Continues rest ss' := by
  constructor
  · intro h
    cases ss with
    | nil =>
        have hend := Cursor.next_eq_none_iff.mp (Cursor.items_eq_nil_iff.mp h)
        simp at hend
    | cons s ss =>
        obtain ⟨c, hnext, hitems⟩ := Cursor.items_eq_cons_iff.mp h
        obtain ⟨text, rest, due, heq, htext, hrest⟩ := Cursor.next_eq_ok_iff.mp hnext
        obtain ⟨rfl, rfl⟩ := Cursor.reading.inj heq
        exact ⟨text, rest, s, ss, rfl, rfl, htext, continues_iff.mpr ⟨c, hrest, hitems⟩⟩
  · intro ⟨text, rest, s, ss', hss, hcs, htext, hrest⟩
    subst hss hcs
    obtain ⟨c, hc, hitems⟩ := continues_iff.mp hrest
    rw [Cursor.items_of_next (Cursor.next_eq_ok_iff.mpr ⟨text, rest, true, rfl, htext, hc⟩), hitems]
    rfl

/-! ## 4. The check -/

/-- Where there is an error among the items, a mistake is found. -/
theorem firstMistake_of_error {items : List Item} {e : PathError} (h : .error e ∈ items) :
    ∃ e', firstMistake items = some e' := by
  unfold firstMistake
  split
  · exact ⟨_, rfl⟩
  · refine Option.ne_none_iff_exists'.mp fun hnone => ?_
    have herror := List.findSome?_eq_none_iff.mp hnone _ h
    cases herror

theorem firstMistake_of_key (k : String) (ss : List Segment) :
    firstMistake (.ok (.key k) :: ss.map .ok) = none := by
  refine List.findSome?_eq_none_iff.mpr fun i hi => ?_
  rcases List.mem_cons.mp hi with rfl | hi
  · rfl
  · obtain ⟨s, _, rfl⟩ := List.mem_map.mp hi
    rfl

theorem items_of_split {p : Path} {n : Namespace} {rest : List Char}
    (h : p.split? = some (n, rest)) : p.items = (Cursor.reading rest true).items := by
  unfold items cursor
  rw [h]

/-- **The check accepts a path if it names a namespace and its items are a key and segments.** -/
theorem check_eq_ok_iff {p : Path} {n : Namespace} : p.check = .ok n ↔ ∃ rest k,
    ∃ ss : List Segment, p.split? = some (n, rest) ∧ p.items = .ok (.key k) :: ss.map .ok := by
  unfold check
  constructor
  · intro h
    split at h
    · cases h
    split at h
    · cases h
    rename_i m rest hsplit
    split at h
    · cases h
    rename_i hnone
    cases h
    obtain ⟨ss, hitems | ⟨e, hitems⟩⟩ := (Cursor.reading rest true).exists_segments
    · rw [← items_of_split hsplit] at hitems
      match ss with
      | [] =>
          rw [items_of_split hsplit] at hitems
          have hend := Cursor.next_eq_none_iff.mp (Cursor.items_eq_nil_iff.mp hitems)
          simp at hend
      | .wildcard :: ss =>
          rw [hitems] at hnone
          cases hnone
      | .key k :: ss => exact ⟨rest, k, ss, hsplit, hitems⟩
    · rw [← items_of_split hsplit] at hitems
      have herror : .error e ∈ p.items := by
        rw [hitems]
        exact List.mem_append_right _ List.mem_cons_self
      obtain ⟨e', he'⟩ := firstMistake_of_error herror
      rw [hnone] at he'
      cases he'
  · intro ⟨rest, k, ss, hsplit, hitems⟩
    have hnonempty : p.isEmpty = false := by
      unfold isEmpty
      rw [split?_eq_some_iff.mp hsplit]
      simp
    rw [hsplit, hitems, hnonempty]
    simp only [Bool.false_eq_true, if_false, firstMistake_of_key]

/-- The well-formed paths are those of the grammar, each with the segments that its walk hands
    out. -/
theorem spells_iff {p : Path} {n : Namespace} {ss : List Segment} :
    p.Spells n ss ↔ p.check = .ok n ∧ p.items = ss.map .ok := by
  constructor
  · intro h
    cases h with
    | intro htext hk hrest =>
        have hsplit := split?_eq_some_iff.mpr htext
        have hitems := items_due_iff.mpr ⟨_, _, _, _, rfl, rfl, .key hk, hrest⟩
        rw [← items_of_split hsplit] at hitems
        exact ⟨check_eq_ok_iff.mpr ⟨_, _, _, hsplit, hitems⟩, hitems⟩
  · intro ⟨hcheck, hitems⟩
    obtain ⟨rest, k, ss', hsplit, hitems'⟩ := check_eq_ok_iff.mp hcheck
    rw [items_of_split hsplit] at hitems
    obtain ⟨text, rest', s, ss'', rfl, rfl, htext, hrest⟩ := items_due_iff.mp hitems
    rw [items_of_split hsplit, hitems] at hitems'
    obtain ⟨hs, _⟩ := List.cons.inj hitems'
    cases htext with
    | wildcard => cases hs
    | key hk => exact .intro (split?_eq_some_iff.mp hsplit) hk hrest

/-- What writes some segments and then others is cut between them. -/
theorem continues_append_iff {cs : List Char} {ss ss' : List Segment} :
    Continues cs (ss ++ ss') ↔
      ∃ before rest, cs = before ++ rest ∧ Continues before ss ∧ Continues rest ss' := by
  induction ss generalizing cs with
  | nil =>
      constructor
      · intro h
        exact ⟨[], cs, rfl, .done, h⟩
      · rintro ⟨_, rest, rfl, ⟨⟩, hrest⟩
        exact hrest
  | cons s ss ih =>
      rw [List.cons_append, continues_cons_iff]
      constructor
      · rintro ⟨text, more, htext, hmore, hcs⟩
        obtain ⟨before, rest, rfl, hbefore, hrest⟩ := ih.mp hmore
        rcases hcs with rfl | ⟨hs, rfl⟩
        · refine ⟨'.' :: (text ++ before), rest, by simp, ?_, hrest⟩
          exact continues_cons_iff.mpr ⟨text, before, htext, hbefore, Or.inl rfl⟩
        · refine ⟨text ++ before, rest, by simp, ?_, hrest⟩
          exact continues_cons_iff.mpr ⟨text, before, htext, hbefore, Or.inr ⟨hs, rfl⟩⟩
      · rintro ⟨before, rest, rfl, hbefore, hrest⟩
        obtain ⟨text, more, htext, hmore, hcs⟩ := continues_cons_iff.mp hbefore
        refine ⟨text, more ++ rest, htext, ih.mpr ⟨more, rest, rfl, hmore, hrest⟩, ?_⟩
        rcases hcs with rfl | ⟨hs, rfl⟩
        · exact Or.inl (by simp)
        · exact Or.inr ⟨hs, by simp⟩

/-- A path spells some segments and then others if it starts with a path that spells the first. -/
theorem spells_append_iff {p : Path} {n : Namespace} {k : String} {ss ss' : List Segment} :
    p.Spells n (.key k :: (ss ++ ss')) ↔ ∃ (before : Path) (rest : List Char),
      p.text.toList = before.text.toList ++ rest ∧ before.Spells n (.key k :: ss) ∧
        Continues rest ss' := by
  constructor
  · intro h
    cases h with
    | @intro key _ _ htext hk hmore =>
        obtain ⟨more, rest, rfl, hmore, hrest⟩ := continues_append_iff.mp hmore
        refine ⟨⟨String.ofList (n.name.toList ++ '.' :: (key ++ more))⟩, rest, ?_, ?_, hrest⟩
        · rw [htext, String.toList_ofList]
          simp
        · exact .intro (String.toList_ofList) hk hmore
  · rintro ⟨before, rest, htext, hbefore, hrest⟩
    cases hbefore with
    | @intro key more _ hbefore hk hmore =>
        refine .intro ?_ hk (continues_append_iff.mpr ⟨more, rest, rfl, hmore, hrest⟩)
        rw [htext, hbefore]
        simp

/-- **The check accepts exactly the paths of the grammar**, for the namespace that they start with;
    the walk then hands out the segments of the grammar and no error. For every other path the check
    reports a mistake. -/
theorem check_exact (p : Path) :
    (∀ n, p.check = .ok n ↔ ∃ ss, p.Spells n ss) ∧
    (∀ n ss, p.Spells n ss → p.items = ss.map .ok) ∧
    ((∀ n ss, ¬ p.Spells n ss) → ∃ e, p.check = .error e) := by
  have haccepted : ∀ n, p.check = .ok n ↔ ∃ ss, p.Spells n ss := by
    intro n
    constructor
    · intro h
      obtain ⟨_, k, ss, _, hitems⟩ := check_eq_ok_iff.mp h
      exact ⟨.key k :: ss, spells_iff.mpr ⟨h, hitems⟩⟩
    · intro ⟨ss, hss⟩
      exact (spells_iff.mp hss).1
  refine ⟨haccepted, fun n ss hss => (spells_iff.mp hss).2, fun hnone => ?_⟩
  cases hcheck : p.check with
  | error e => exact ⟨e, rfl⟩
  | ok n =>
      obtain ⟨ss, hss⟩ := (haccepted n).mp hcheck
      exact absurd hss (hnone n ss)

/-- A key may have a closing bracket and a key may be a star, and a dot may stand before a wildcard;
    but no key may follow a wildcard without a dot. -/
theorem check_exact_brackets :
    Spells ⟨"body.a]b.[*][*].*"⟩ .body [.key "a]b", .wildcard, .wildcard, .key "*"] ∧
    check ⟨"body.a]b.[*][*].*"⟩ = .ok .body ∧
    items ⟨"body.a]b.[*][*].*"⟩ =
      [.ok (.key "a]b"), .ok .wildcard, .ok .wildcard, .ok (.key "*")] ∧
    (∀ n ss, ¬ Spells ⟨"body.a[*]b"⟩ n ss) ∧ ∃ e, check ⟨"body.a[*]b"⟩ = .error e := by
  have hfirst : IsKey ['a', ']', 'b'] := ⟨List.cons_ne_nil _ _, by decide, by decide⟩
  have hlast : IsKey ['*'] := ⟨List.cons_ne_nil _ _, by decide, by decide⟩
  have hspells : Spells ⟨"body.a]b.[*][*].*"⟩ .body [.key "a]b", .wildcard, .wildcard, .key "*"] :=
    .intro (by decide +kernel) hfirst (.dottedWildcard (.wildcard (.key hlast .done)))
  obtain ⟨haccepted, hitems, _⟩ := check_exact ⟨"body.a]b.[*][*].*"⟩
  obtain ⟨hrefused, _, herror⟩ := check_exact ⟨"body.a[*]b"⟩
  have hnone : ∀ n ss, ¬ Spells ⟨"body.a[*]b"⟩ n ss := by
    intro n ss hss
    have hcheck := (hrefused n).mpr ⟨ss, hss⟩
    have hmistake : check ⟨"body.a[*]b"⟩ = .error (.unexpectedCharacter 'b') := by decide +kernel
    rw [hmistake] at hcheck
    cases hcheck
  exact ⟨hspells, (haccepted _).mpr ⟨_, hspells⟩, hitems _ _ hspells, hnone, herror hnone⟩

end Path

end Gatehouse
