import Gatehouse.Loading

/-!
# What an admitted bundle holds

What this file fixes, and what it shows about `Bundle.fault?` and `Bundle.load`:

* `Bundle.WellFormed`: what a bundle must be to be admitted, without regard to any order;
* `fault?_eq_none_iff`: the bundles without fault are the well-formed ones;
* `load_eq_ok_iff`: what is loaded from a text is the bundle that it documents, if that is without
  fault.
-/

namespace Gatehouse

variable {limits : Limits}

/-! ## 1. What may stand side by side -/

/-- The endpoints are told apart by their routes and by their identities. -/
def Endpoint.Distinct (x e : Endpoint) : Prop :=
  ¬ (x.method = e.method ∧ x.path = e.path) ∧ x.id ≠ e.id

theorem Endpoint.Distinct.symm {x e : Endpoint} (h : x.Distinct e) : e.Distinct x :=
  ⟨fun heq => h.1 ⟨heq.1.symm, heq.2.symm⟩, h.2.symm⟩

/-- The rules are told apart by their identities, and by their names on one endpoint. -/
def Rule.Distinct (x r : Rule) : Prop :=
  x.id ≠ r.id ∧ ¬ (x.endpointId = r.endpointId ∧ x.name = r.name)

theorem Rule.Distinct.symm {x r : Rule} (h : x.Distinct r) : r.Distinct x :=
  ⟨h.1.symm, fun heq => h.2 ⟨heq.1.symm, heq.2.symm⟩⟩

namespace Bundle

/-! ## 2. Scans -/

/-- A scan compares each item with those before it and checks it by itself: it finds nothing if all
    items are in relation to each other and each passes. -/
theorem scan_eq_none_iff {α φ : Type} {R : α → α → Prop} {P : α → Prop}
    {step : List α → α → Option φ} {scan : List α → List α → Option φ}
    (hnil : ∀ before, scan before [] = none)
    (hcons : ∀ before x xs, scan before (x :: xs) = (step before x).or (scan (before ++ [x]) xs))
    (hstep : ∀ before x, step before x = none ↔ (∀ y ∈ before, R y x) ∧ P x) :
    ∀ {before xs : List α}, before.Pairwise R →
      (scan before xs = none ↔ (before ++ xs).Pairwise R ∧ ∀ x ∈ xs, P x)
  | before, [], hbefore => by
      rw [List.append_nil]
      exact ⟨fun _ => ⟨hbefore, nofun⟩, fun _ => hnil before⟩
  | before, x :: xs, hbefore => by
      have hnext : (∀ y ∈ before, R y x) ↔ (before ++ [x]).Pairwise R := by
        simp [List.pairwise_append, hbefore]
      rw [hcons, Option.or_eq_none_iff, hstep, hnext, List.append_cons before x xs,
        List.forall_mem_cons]
      constructor
      · rintro ⟨⟨hpair, hx⟩, hrest⟩
        have ih := (scan_eq_none_iff hnil hcons hstep hpair).mp hrest
        exact ⟨ih.1, hx, ih.2⟩
      · rintro ⟨hall, hx, hxs⟩
        have hpair := (List.pairwise_append.mp hall).1
        exact ⟨⟨hpair, hx⟩, (scan_eq_none_iff hnil hcons hstep hpair).mpr ⟨hall, hxs⟩⟩

/-- The first endpoint is looked at before the others. -/
theorem endpointsFault?_cons (before : List Endpoint) (e : Endpoint) (es : List Endpoint) :
    endpointsFault? before (e :: es) =
      (endpointFault? before e).or (endpointsFault? (before ++ [e]) es) := by
  rw [endpointsFault?]
  cases endpointFault? before e <;> rfl

/-- The first rule is looked at before the others. -/
theorem rulesFault?_cons (endpoints : List Endpoint) (before : List Rule) (r : Rule)
    (rs : List Rule) : rulesFault? limits endpoints before (r :: rs) =
      (ruleFault? limits endpoints before r).or
        (rulesFault? limits endpoints (before ++ [r]) rs) := by
  rw [rulesFault?]
  cases ruleFault? limits endpoints before r <;> rfl

/-- An endpoint is without fault if it is distinct from all those before it. -/
theorem endpointFault?_eq_none_iff {before : List Endpoint} {e : Endpoint} :
    endpointFault? before e = none ↔ ∀ x ∈ before, x.Distinct e := by
  unfold endpointFault? Endpoint.Distinct
  simp only [forall_and]
  split
  · rename_i hroute
    obtain ⟨x, hx, heq⟩ := List.any_eq_true.mp hroute
    rw [Bool.and_eq_true, beq_iff_eq, beq_iff_eq] at heq
    exact ⟨nofun, fun h => absurd heq (h.1 x hx)⟩
  · rename_i hroute
    split
    · rename_i hid
      obtain ⟨x, hx, heq⟩ := List.any_eq_true.mp hid
      exact ⟨nofun, fun h => absurd (beq_iff_eq.mp heq) (h.2 x hx)⟩
    · rename_i hid
      simp only [List.any_eq_true, Bool.and_eq_true, beq_iff_eq, not_exists, not_and] at hroute hid
      exact ⟨fun _ => ⟨fun x hx heq => hroute x hx heq.1 heq.2, hid⟩, fun _ => rfl⟩

/-- Endpoints are without fault if all are distinct from each other. -/
theorem endpointsFault?_eq_none_iff {es : List Endpoint} :
    endpointsFault? [] es = none ↔ es.Pairwise Endpoint.Distinct := by
  have hstep : ∀ before e, endpointFault? before e = none ↔
      (∀ x ∈ before, x.Distinct e) ∧ True := by
    intro before e
    rw [endpointFault?_eq_none_iff, and_true]
  rw [scan_eq_none_iff (fun _ => rfl) endpointsFault?_cons hstep .nil, List.nil_append]
  exact and_iff_left fun _ _ => trivial

/-- A rule is without fault if it is distinct from all those before it, attached to one of the
    endpoints and in order by itself. -/
theorem ruleFault?_eq_none_iff {endpoints : List Endpoint} {before : List Rule} {r : Rule} :
    ruleFault? limits endpoints before r = none ↔ (∀ x ∈ before, x.Distinct r) ∧
      (∃ e ∈ endpoints, e.id = r.endpointId) ∧ r.check limits = .ok () := by
  unfold ruleFault? Rule.Distinct
  simp only [forall_and]
  split
  · rename_i hid
    obtain ⟨x, hx, heq⟩ := List.any_eq_true.mp hid
    exact ⟨nofun, fun h => absurd (beq_iff_eq.mp heq) (h.1.1 x hx)⟩
  · rename_i hid
    split
    · rename_i hfind
      refine ⟨nofun, fun h => ?_⟩
      obtain ⟨e, he, heq⟩ := h.2.1
      exact absurd (beq_iff_eq.mpr heq) (List.find?_eq_none.mp hfind e he)
    · rename_i e hfind
      have hid' : (e.id == r.endpointId) = true :=
        List.find?_some (p := fun x : Endpoint => x.id == r.endpointId) hfind
      have hattached : ∃ e ∈ endpoints, e.id = r.endpointId :=
        ⟨e, List.mem_of_find?_eq_some hfind, beq_iff_eq.mp hid'⟩
      split
      · rename_i hname
        obtain ⟨x, hx, heq⟩ := List.any_eq_true.mp hname
        rw [Bool.and_eq_true, beq_iff_eq, beq_iff_eq] at heq
        exact ⟨nofun, fun h => absurd heq (h.1.2 x hx)⟩
      · rename_i hname
        simp only [List.any_eq_true, Bool.and_eq_true, beq_iff_eq, not_exists, not_and]
          at hid hname
        have hdistinct : (∀ x ∈ before, x.id ≠ r.id) ∧
            ∀ x ∈ before, ¬ (x.endpointId = r.endpointId ∧ x.name = r.name) :=
          ⟨hid, fun x hx heq => hname x hx heq.1 heq.2⟩
        cases hcheck : r.check limits with
        | error cause => exact ⟨nofun, fun h => nomatch h.2.2⟩
        | ok u => exact ⟨fun _ => ⟨hdistinct, hattached, rfl⟩, fun _ => rfl⟩

/-- Rules are without fault if all are distinct from each other, attached and in order. -/
theorem rulesFault?_eq_none_iff {endpoints : List Endpoint} {rs : List Rule} :
    rulesFault? limits endpoints [] rs = none ↔ rs.Pairwise Rule.Distinct ∧
      ∀ r ∈ rs, (∃ e ∈ endpoints, e.id = r.endpointId) ∧ r.check limits = .ok () :=
  scan_eq_none_iff (fun _ => rfl) (rulesFault?_cons endpoints)
    (fun _ _ => ruleFault?_eq_none_iff) .nil

/-! ## 3. Bundles without fault -/

/-- What a bundle must be to be admitted. -/
structure WellFormed (limits : Limits) (b : Bundle) : Prop where
  version : b.version = supportedVersion
  endpoints : b.endpoints.Pairwise Endpoint.Distinct
  rules : b.rules.Pairwise Rule.Distinct
  attached : ∀ r ∈ b.rules, ∃ e ∈ b.endpoints, e.id = r.endpointId
  inOrder : ∀ r ∈ b.rules, r.check limits = .ok ()

/-- **The bundles without fault are the well-formed ones.** -/
theorem fault?_eq_none_iff {b : Bundle} : b.fault? limits = none ↔ b.WellFormed limits := by
  unfold fault?
  split
  · rename_i hversion
    exact ⟨nofun, fun h => absurd h.version hversion⟩
  · rename_i hversion
    split
    · rename_i f hf
      refine ⟨nofun, fun h => ?_⟩
      rw [endpointsFault?_eq_none_iff.mpr h.endpoints] at hf
      cases hf
    · rename_i hf
      rw [rulesFault?_eq_none_iff]
      constructor
      · rintro ⟨hdistinct, hall⟩
        exact ⟨Decidable.not_not.mp hversion, endpointsFault?_eq_none_iff.mp hf, hdistinct,
          fun r hr => (hall r hr).1, fun r hr => (hall r hr).2⟩
      · intro h
        exact ⟨h.rules, fun r hr => ⟨h.attached r hr, h.inOrder r hr⟩⟩

/-- Every rule of a bundle without fault is in order. -/
theorem check_of_fault {b : Bundle} (h : b.fault? limits = none) :
    ∀ r ∈ b.rules, r.check limits = .ok () :=
  (fault?_eq_none_iff.mp h).inOrder

theorem accepted_eq_ok_iff {b b' : Bundle} :
    b.accepted limits = .ok b' ↔ b = b' ∧ b'.fault? limits = none := by
  unfold accepted
  cases hf : b.fault? limits with
  | none =>
      constructor
      · intro h
        cases h
        exact ⟨rfl, hf⟩
      · rintro ⟨rfl, _⟩
        rfl
  | some f =>
      constructor
      · intro h
        cases h
      · rintro ⟨rfl, h⟩
        rw [hf] at h
        cases h

/-- **A bundle is loaded if the text is a document of it and it is without fault.** -/
theorem load_eq_ok_iff {f : Format} {text : String} {b : Bundle} :
    Bundle.load f text limits = .ok b ↔
      (f.read? Bundle.scope text).bind Bundle.read? = some b ∧ b.fault? limits = none := by
  unfold Bundle.load
  cases (f.read? Bundle.scope text).bind Bundle.read? with
  | none => exact ⟨nofun, nofun⟩
  | some b' =>
      have hmap : (b'.accepted limits).mapError TextError.rejected = .ok b ↔
          b'.accepted limits = .ok b := by
        cases b'.accepted limits with
        | ok b'' => exact ⟨fun h => by cases h; rfl, fun h => by cases h; rfl⟩
        | error e => exact ⟨nofun, nofun⟩
      rw [hmap, accepted_eq_ok_iff, Option.some.injEq]

end Bundle

end Gatehouse
