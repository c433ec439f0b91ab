import Gatehouse.Proofs.Resolution.Meaning
import Mathlib.Data.List.Count

/-!
# What a malformed path leads to

What this file fixes, and what it shows about `Context.resolve`:

* `meaningBroken`: what segments lead to where a mistake comes after them;
* `Value.Hollow`: values that are made of lists only;
* `Path.OpensList`: the first wildcard of the path finds a list in the context;
* `resolve_malformed`: exactly then a malformed path leads to a value, and that is a hollow one. The
  mistake after the wildcard makes every item of the list absent, but not the list.
-/

namespace Gatehouse

/-! ## 1. Segments before a mistake -/

/-- What segments lead to from a value where a mistake comes after them. -/
def meaningBroken (ss : List Segment) : Value → Option Value :=
  ss.foldr Segment.meaning fun _ => none

theorem Value.descend?_eq_meaningBroken (ss : List Segment) (e : PathError) :
    Value.descend? (ss.map .ok ++ [.error e]) = meaningBroken ss := by
  rw [descend?_append]
  rfl

/-- The value is a list, and nothing but lists are in it, one in the other no more than so many
    deep. -/
def Value.Hollow : Nat → Value → Prop
  | n + 1, .array items => ∀ v ∈ items, v.Hollow n
  | _, _ => False

/-- **Nothing of the value that the segments go on from is found**: every wildcard makes a list, and
    nothing else is made. -/
theorem hollow_of_meaningBroken {ss : List Segment} {v w : Value}
    (h : meaningBroken ss v = some w) : w.Hollow (ss.count .wildcard) := by
  induction ss generalizing v w with
  | nil => cases h
  | cons s ss ih =>
      cases s with
      | key k =>
          obtain ⟨u, _, hu⟩ := Option.bind_eq_some_iff.mp h
          rw [List.count_cons_of_ne (fun hkey => by cases hkey)]
          exact ih hu
      | wildcard =>
          rw [List.count_cons_self]
          cases v with
          | array items =>
              cases h
              intro u hu
              obtain ⟨item, _, hitem⟩ := List.mem_filterMap.mp hu
              exact ih hitem
          | null | bool b | number n | string s | object entries => cases h

/-- Something is found exactly where keys lead to a list and a wildcard follows them. -/
theorem exists_meaningBroken_iff {ss : List Segment} {v : Value} :
    (∃ w, meaningBroken ss v = some w) ↔ ∃ (ks : List String) (items : List Value),
      ks.map .key ++ [.wildcard] <+: ss ∧ meaning (ks.map .key) v = some (.array items) := by
  induction ss generalizing v with
  | nil => simp [meaningBroken]
  | cons s ss ih =>
      cases s with
      | key k =>
          constructor
          · intro ⟨w, hw⟩
            obtain ⟨u, hu, hw⟩ := Option.bind_eq_some_iff.mp hw
            obtain ⟨ks, items, hks, hitems⟩ := ih.mp ⟨w, hw⟩
            exact ⟨k :: ks, items, List.cons_prefix_cons.mpr ⟨rfl, hks⟩,
              Option.bind_eq_some_iff.mpr ⟨u, hu, hitems⟩⟩
          · intro ⟨ks, items, hks, hitems⟩
            cases ks with
            | nil => cases (List.cons_prefix_cons.mp hks).1
            | cons k' ks =>
                have hhead := List.cons_prefix_cons.mp hks
                cases hhead.1
                obtain ⟨u, hu, hitems⟩ := Option.bind_eq_some_iff.mp hitems
                obtain ⟨w, hw⟩ := ih.mpr ⟨ks, items, hhead.2, hitems⟩
                exact ⟨w, Option.bind_eq_some_iff.mpr ⟨u, hu, hw⟩⟩
      | wildcard =>
          constructor
          · intro ⟨w, hw⟩
            cases v with
            | array items =>
                exact ⟨[], items, List.cons_prefix_cons.mpr ⟨rfl, List.nil_prefix⟩, rfl⟩
            | null | bool b | number n | string s | object entries => cases hw
          · intro ⟨ks, items, hks, hitems⟩
            cases ks with
            | nil =>
                cases hitems
                exact ⟨_, rfl⟩
            | cons k ks => cases (List.cons_prefix_cons.mp hks).1

/-! ## 2. Malformed paths -/

/-- The keys of the path before its first wildcard lead to a list in the context. -/
def Path.OpensList (p : Path) (ctx : Context) : Prop :=
  ∃ n k, p.root? = some (n, k) ∧ ∃ (ks : List String) (items : List Value),
    (ks.map Segment.key ++ [Segment.wildcard]).map .ok <+: p.items.tail ∧
    (ctx.entry? n k).bind (meaning (ks.map .key)) = some (.array items)

/-- Segments stand at the start of others before a mistake if they do without it. -/
theorem map_ok_prefix_iff {before ss : List Segment} {e : PathError} :
    (before.map .ok : List Item) <+: ss.map .ok ++ [.error e] ↔ before <+: ss := by
  induction before generalizing ss with
  | nil => simp
  | cons s before ih =>
      cases ss with
      | nil => simp
      | cons s' ss =>
          simp only [List.map_cons, List.cons_append, List.cons_prefix_cons, ih, Except.ok.injEq]

/-- After the first key of a malformed path come segments, and then a mistake. -/
theorem Path.exists_mistake {p : Path} {e : PathError} (h : p.check = .error e) {n : Namespace}
    {k : String} (hroot : p.root? = some (n, k)) : ∃ (ss : List Segment) (e' : PathError),
      p.items = .ok (.key k) :: (ss.map .ok ++ [.error e']) := by
  obtain ⟨⟨rest, hsplit⟩, items, hitems⟩ := root?_eq_some_iff.mp hroot
  obtain ⟨c, _, rfl⟩ := Cursor.items_eq_cons_iff.mp hitems
  obtain ⟨ss, hss | ⟨e', hss⟩⟩ := c.exists_segments
  · rw [hss] at hitems
    rw [check_eq_ok_iff.mpr ⟨rest, k, ss, hsplit, hitems⟩] at h
    cases h
  · rw [hss] at hitems
    exact ⟨ss, e', hitems⟩

section Mistake

variable {p : Path} {n : Namespace} {k : String} {ss : List Segment} {e : PathError}

/-- The path leads to what its segments lead to from its entry. -/
theorem resolve_eq_present_iff (hroot : p.root? = some (n, k))
    (hitems : p.items = .ok (.key k) :: (ss.map .ok ++ [.error e])) {ctx : Context} {w : Value} :
    ctx.resolve p = .present w ↔ ∃ v, ctx.entry? n k = some v ∧ meaningBroken ss v = some w := by
  rw [Context.resolve_of_root hroot, hitems, List.tail_cons, Value.descend?_eq_meaningBroken,
    Resolved.ofOption_eq_present, Option.bind_eq_some_iff]

theorem opensList_iff (hroot : p.root? = some (n, k))
    (hitems : p.items = .ok (.key k) :: (ss.map .ok ++ [.error e])) {ctx : Context} :
    p.OpensList ctx ↔ ∃ v, ctx.entry? n k = some v ∧ ∃ w, meaningBroken ss v = some w := by
  unfold Path.OpensList
  simp only [exists_meaningBroken_iff, hitems, List.tail_cons, map_ok_prefix_iff,
    Option.bind_eq_some_iff]
  constructor
  · intro ⟨n', k', hroot', ks, items, hks, v, hv, hitems⟩
    cases hroot.symm.trans hroot'
    exact ⟨v, hv, ks, items, hks, hitems⟩
  · intro ⟨v, hv, ks, items, hks, hitems⟩
    exact ⟨n, k, hroot, ks, items, hks, v, hv, hitems⟩

theorem count_wildcard (hitems : p.items = .ok (.key k) :: (ss.map .ok ++ [.error e])) :
    p.items.count (.ok .wildcard) = ss.count .wildcard := by
  rw [hitems, count_key, List.count_append,
    List.count_map_of_injective ss _ fun _ _ => Except.ok.inj]
  rfl

end Mistake

/-- **A malformed path leads to a value exactly if it opens a list**, and then to a hollow one, with
    no more lists in each other than there are wildcards before the mistake. -/
theorem resolve_malformed {p : Path} {e : PathError} (h : p.check = .error e) (ctx : Context) :
    (ctx.resolve p = .absent ↔ ¬ p.OpensList ctx) ∧
    ∀ w, ctx.resolve p = .present w → w.Hollow (p.items.count (.ok .wildcard)) := by
  cases hroot : p.root? with
  | none =>
      have habsent := Context.resolve_of_no_root hroot ctx
      refine ⟨iff_of_true habsent ?_, fun w hw => ?_⟩
      · intro ⟨n, k, hsome, _⟩
        rw [hroot] at hsome
        cases hsome
      · rw [habsent] at hw
        cases hw
  | some root =>
      obtain ⟨n, k⟩ := root
      obtain ⟨ss, e', hitems⟩ := Path.exists_mistake h hroot
      constructor
      · rw [Resolved.eq_absent_iff, opensList_iff hroot hitems]
        simp only [ne_eq, resolve_eq_present_iff hroot hitems, not_exists, not_and]
        constructor
        · intro hnone v hv w
          exact hnone w v hv
        · intro hnone w v hv
          exact hnone v hv w
      · intro w hw
        obtain ⟨v, _, hv⟩ := (resolve_eq_present_iff hroot hitems).mp hw
        rw [count_wildcard hitems]
        exact hollow_of_meaningBroken hv

/-- A subject with two roles, the first of which has an identifier. -/
def rolesContext : Context where
  subject := [("roles", .array [.object [("id", .string "admin")], .string "guest"])]
  resource := []
  path := []
  body := []
  query := []
  header := []

/-- The dot at the end of the path is a mistake. After a wildcard it leaves an empty list, and
    without one nothing. -/
theorem resolve_malformed_dot :
    Path.check ⟨"subject.roles[*]."⟩ = .error .emptySegment ∧
    Path.OpensList ⟨"subject.roles[*]."⟩ rolesContext ∧
    (∃ w, rolesContext.resolve ⟨"subject.roles[*]."⟩ = .present w ∧ w.Hollow 1) ∧
    Path.check ⟨"subject.roles."⟩ = .error .emptySegment ∧
    rolesContext.resolve ⟨"subject.roles."⟩ = .absent ∧
    ¬ Path.OpensList ⟨"subject.roles."⟩ rolesContext := by
  have hcheck : Path.check ⟨"subject.roles[*]."⟩ = .error .emptySegment := by decide +kernel
  have hresolve : rolesContext.resolve ⟨"subject.roles[*]."⟩ = .present (.array []) := by
    decide +kernel
  have hcheck' : Path.check ⟨"subject.roles."⟩ = .error .emptySegment := by decide +kernel
  have hresolve' : rolesContext.resolve ⟨"subject.roles."⟩ = .absent := by decide +kernel
  obtain ⟨habsent, hhollow⟩ := resolve_malformed hcheck rolesContext
  obtain ⟨habsent', _⟩ := resolve_malformed hcheck' rolesContext
  have hopens : Path.OpensList ⟨"subject.roles[*]."⟩ rolesContext := by
    by_contra hnot
    rw [habsent.mpr hnot] at hresolve
    cases hresolve
  have hcount : (Path.items ⟨"subject.roles[*]."⟩).count (.ok .wildcard) = 1 := by decide +kernel
  exact ⟨hcheck, hopens, ⟨_, hresolve, hcount ▸ hhollow _ hresolve⟩, hcheck', hresolve',
    habsent'.mp hresolve'⟩

/-- Not every malformed path leads nowhere. -/
theorem not_absent_of_malformed :
    ¬ ∀ (p : Path) (e : PathError) (ctx : Context), p.check = .error e →
      ctx.resolve p = .absent := by
  intro h
  have habsent := h ⟨"subject.roles[*]."⟩ .emptySegment rolesContext (by decide +kernel)
  have hresolve : rolesContext.resolve ⟨"subject.roles[*]."⟩ = .present (.array []) := by
    decide +kernel
  rw [habsent] at hresolve
  cases hresolve

end Gatehouse
