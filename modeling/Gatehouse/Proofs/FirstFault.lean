import Gatehouse.Proofs.Admission
import Gatehouse.Proofs.Rule
import Mathlib.Data.List.Infix
import Mathlib.Data.List.Nodup

/-!
# The fault that a bundle is refused for

What this file fixes, and what it shows about `Bundle.fault?` and `Bundle.accepted`:

* `Requirement`: what is asked of a bundle as a whole, of each endpoint and of each rule;
  `Bundle.requirements`: all of it, in the order in which it is looked at;
* `Broken`: when a bundle does not meet a requirement, and which fault that is, said without the
  scans; `broken?` is the decidable test of it;
* `fault?_eq_findSome?`: both scans together go through the requirements in order;
* `Admissible`: what a bundle must be to be admitted, each demand by itself;
* `admission_exact`: the admissible bundles are admitted, and every other bundle is refused for the
  first requirement that it does not meet.
-/

namespace Gatehouse

/-! ## 1. Requirements -/

/-- What is asked of a bundle. An item is held against those before it. -/
inductive Requirement where
  | version
  | route (before : List Endpoint) (e : Endpoint)
  | endpointId (before : List Endpoint) (e : Endpoint)
  | ruleId (before : List Rule) (r : Rule)
  | attachment (r : Rule)
  | ruleName (before : List Rule) (r : Rule)
  | nameLength (r : Rule)
  | tree (r : Rule)
  deriving DecidableEq, Repr

/-- The items of a list, each with those before it. -/
def withEarlier {α : Type} (xs : List α) : List (List α × α) := xs.inits.zip xs

/-- Identities tell distinct endpoints apart. -/
theorem Endpoint.eq_of_id {es : List Endpoint} (h : es.Pairwise Endpoint.Distinct) {x e : Endpoint}
    (hx : x ∈ es) (he : e ∈ es) (hid : x.id = e.id) : x = e :=
  List.inj_on_of_nodup_map (List.pairwise_map.mpr (h.imp fun hd => hd.2)) hx he hid

namespace Bundle

variable {limits : Limits} {b : Bundle}

/-- What is asked of the endpoint that comes after the endpoints `before`. -/
def endpointRequirements (before : List Endpoint) (e : Endpoint) : List Requirement :=
  [.route before e, .endpointId before e]

/-- What is asked of the rule that comes after the rules `before`. -/
def ruleRequirements (before : List Rule) (r : Rule) : List Requirement :=
  [.ruleId before r, .attachment r, .ruleName before r, .nameLength r, .tree r]

/-- What is asked of a bundle, in the order in which it is looked at. -/
def requirements (b : Bundle) : List Requirement :=
  .version :: (withEarlier b.endpoints).flatMap (fun p => endpointRequirements p.1 p.2) ++
    (withEarlier b.rules).flatMap fun p => ruleRequirements p.1 p.2

/-- The bundle does not meet the requirement, and this is its fault. -/
inductive Broken (limits : Limits) (b : Bundle) : Requirement → BundleFault → Prop
  | version : b.version ≠ supportedVersion →
      Broken limits b .version (.unsupportedVersion b.version)
  | route {before : List Endpoint} {x e : Endpoint} : x ∈ before → x.method = e.method →
      x.path = e.path → Broken limits b (.route before e) (.duplicateRoute e)
  | endpointId {before : List Endpoint} {x e : Endpoint} : x ∈ before → x.id = e.id →
      Broken limits b (.endpointId before e) (.duplicateEndpointId e.id)
  | ruleId {before : List Rule} {x r : Rule} : x ∈ before → x.id = r.id →
      Broken limits b (.ruleId before r) (.duplicateRuleId r.id)
  | attachment {r : Rule} : (∀ e ∈ b.endpoints, e.id ≠ r.endpointId) →
      Broken limits b (.attachment r) (.unknownEndpoint r)
  | ruleName {before : List Rule} {x r : Rule} {e : Endpoint} : x ∈ before →
      x.endpointId = r.endpointId → x.name = r.name → e ∈ b.endpoints → e.id = r.endpointId →
      Broken limits b (.ruleName before r) (.duplicateRuleName r e)
  | nameLength {r : Rule} : ¬ (3 ≤ r.name.length ∧ r.name.length ≤ 100) →
      Broken limits b (.nameLength r) (.invalidRule r (.invalidName r.name.length))
  | tree {r : Rule} {v : Violation} : r.conditions.validate limits = .error v →
      Broken limits b (.tree r) (.invalidRule r (.invalid r.name v))

/-- Decidable test of a requirement. -/
def broken? (limits : Limits) (b : Bundle) : Requirement → Option BundleFault
  | .version =>
      if b.version ≠ supportedVersion then some (.unsupportedVersion b.version) else none
  | .route before e =>
      if before.any fun x => x.method == e.method && x.path == e.path then some (.duplicateRoute e)
      else none
  | .endpointId before e =>
      if before.any fun x => x.id == e.id then some (.duplicateEndpointId e.id) else none
  | .ruleId before r =>
      if before.any fun x => x.id == r.id then some (.duplicateRuleId r.id) else none
  | .attachment r =>
      if (b.endpoints.find? fun e => e.id == r.endpointId).isSome then none
      else some (.unknownEndpoint r)
  | .ruleName before r =>
      if before.any fun x => x.endpointId == r.endpointId && x.name == r.name then
        (b.endpoints.find? fun e => e.id == r.endpointId).map (.duplicateRuleName r)
      else none
  | .nameLength r =>
      if NameInOrder r.name then none else some (.invalidRule r (.invalidName r.name.length))
  | .tree r => (r.conditions.violation? limits).map fun v => .invalidRule r (.invalid r.name v)

/-- What the test finds is a fault. -/
theorem broken_of_broken? {q : Requirement} {f : BundleFault} (h : b.broken? limits q = some f) :
    b.Broken limits q f := by
  cases q with
  | version =>
      simp only [broken?, Option.ite_none_right_eq_some, Option.some.injEq] at h
      obtain ⟨hversion, rfl⟩ := h
      exact .version hversion
  | route before e =>
      simp only [broken?, Option.ite_none_right_eq_some, Option.some.injEq, List.any_eq_true,
        Bool.and_eq_true, beq_iff_eq] at h
      obtain ⟨⟨x, hx, hmethod, hpath⟩, rfl⟩ := h
      exact .route hx hmethod hpath
  | endpointId before e =>
      simp only [broken?, Option.ite_none_right_eq_some, Option.some.injEq, List.any_eq_true,
        beq_iff_eq] at h
      obtain ⟨⟨x, hx, hid⟩, rfl⟩ := h
      exact .endpointId hx hid
  | ruleId before r =>
      simp only [broken?, Option.ite_none_right_eq_some, Option.some.injEq, List.any_eq_true,
        beq_iff_eq] at h
      obtain ⟨⟨x, hx, hid⟩, rfl⟩ := h
      exact .ruleId hx hid
  | attachment r =>
      simp only [broken?, Option.ite_none_left_eq_some, Option.some.injEq, List.find?_isSome,
        beq_iff_eq, not_exists, not_and] at h
      obtain ⟨hnone, rfl⟩ := h
      exact .attachment hnone
  | ruleName before r =>
      simp only [broken?, Option.ite_none_right_eq_some, Option.map_eq_some_iff, List.any_eq_true,
        Bool.and_eq_true, beq_iff_eq] at h
      obtain ⟨⟨x, hx, hendpoint, hname⟩, e, he, rfl⟩ := h
      have hid : (e.id == r.endpointId) = true :=
        List.find?_some (p := fun e : Endpoint => e.id == r.endpointId) he
      exact .ruleName hx hendpoint hname (List.mem_of_find?_eq_some he) (beq_iff_eq.mp hid)
  | nameLength r =>
      simp only [broken?, Option.ite_none_left_eq_some, Option.some.injEq] at h
      obtain ⟨hname, rfl⟩ := h
      exact .nameLength hname
  | tree r =>
      simp only [broken?, Option.map_eq_some_iff] at h
      obtain ⟨v, hv, rfl⟩ := h
      exact .tree (by rw [Condition.validate, hv])

/-- The test finds every fault. Of a name that is taken it says for which endpoint; this is the
    one that the rule is attached to, if identities tell endpoints apart. -/
theorem Broken.exists_broken? {q : Requirement} {f : BundleFault} (h : b.Broken limits q f) :
    ∃ g, b.broken? limits q = some g ∧
      ((∀ before r, q = .ruleName before r → b.endpoints.Pairwise Endpoint.Distinct) → g = f) := by
  cases h with
  | version hversion => exact ⟨_, if_pos hversion, fun _ => rfl⟩
  | route hx hmethod hpath =>
      exact ⟨_, if_pos (List.any_eq_true.mpr ⟨_, hx, by simp [hmethod, hpath]⟩), fun _ => rfl⟩
  | endpointId hx hid =>
      exact ⟨_, if_pos (List.any_eq_true.mpr ⟨_, hx, by simp [hid]⟩), fun _ => rfl⟩
  | ruleId hx hid =>
      exact ⟨_, if_pos (List.any_eq_true.mpr ⟨_, hx, by simp [hid]⟩), fun _ => rfl⟩
  | attachment hnone =>
      exact ⟨_, if_neg (by simpa using hnone), fun _ => rfl⟩
  | @ruleName before x r e hx hendpoint hname he hid =>
      have htaken : (before.any fun x => x.endpointId == r.endpointId && x.name == r.name) = true :=
        List.any_eq_true.mpr ⟨x, hx, by simp [hendpoint, hname]⟩
      have hsome : (b.endpoints.find? fun e => e.id == r.endpointId).isSome = true :=
        List.find?_isSome.mpr ⟨e, he, beq_iff_eq.mpr hid⟩
      obtain ⟨e', he'⟩ := Option.isSome_iff_exists.mp hsome
      have hid' : (e'.id == r.endpointId) = true :=
        List.find?_some (p := fun e : Endpoint => e.id == r.endpointId) he'
      refine ⟨.duplicateRuleName r e', by rw [broken?, if_pos htaken, he', Option.map_some], ?_⟩
      intro hdistinct
      have hsame : e'.id = e.id := (beq_iff_eq.mp hid').trans hid.symm
      rw [Endpoint.eq_of_id (hdistinct before r rfl) (List.mem_of_find?_eq_some he') he hsame]
  | nameLength hname => exact ⟨_, if_neg hname, fun _ => rfl⟩
  | @tree r v hv =>
      have hviolation : r.conditions.violation? limits = some v :=
        Condition.validate_eq_error_iff.mp hv
      exact ⟨_, by rw [broken?, hviolation, Option.map_some], fun _ => rfl⟩

/-- A requirement is met if the test finds nothing. -/
theorem broken?_eq_none_iff {q : Requirement} :
    b.broken? limits q = none ↔ ∀ f, ¬ b.Broken limits q f := by
  constructor
  · intro hnone f hf
    obtain ⟨g, hg, _⟩ := hf.exists_broken?
    rw [hnone] at hg
    cases hg
  · intro hmet
    cases h : b.broken? limits q with
    | none => rfl
    | some f => exact absurd (broken_of_broken? h) (hmet f)

/-! ## 2. Scans -/

/-- A scan that holds each item against those before it goes through what is asked of the items. -/
theorem scan_eq_findSome? {α φ : Type} {test : Requirement → Option φ}
    {asked : List α → α → List Requirement} {scan : List α → List α → Option φ}
    (hnil : ∀ before, scan before [] = none)
    (hcons : ∀ before x xs, scan before (x :: xs) =
      ((asked before x).findSome? test).or (scan (before ++ [x]) xs)) :
    ∀ before xs : List α, scan before xs =
      (((xs.inits.map (before ++ ·)).zip xs).flatMap fun p => asked p.1 p.2).findSome? test
  | before, [] => by
      rw [hnil]
      rfl
  | before, x :: xs => by
      have ih := scan_eq_findSome? hnil hcons (before ++ [x]) xs
      have hinits : (x :: xs).inits.map (before ++ ·) =
          before :: xs.inits.map (before ++ [x] ++ ·) := by
        simp
      rw [hcons, ih, hinits, List.zip_cons_cons, List.flatMap_cons, List.findSome?_append]

/-- An endpoint is looked at for its route and then for its identity. -/
theorem endpointFault?_eq_findSome? (before : List Endpoint) (e : Endpoint) :
    endpointFault? before e = (endpointRequirements before e).findSome? (b.broken? limits) := by
  unfold endpointFault? endpointRequirements
  simp only [List.findSome?_cons, List.findSome?_nil, broken?]
  split
  · rfl
  · split <;> rfl

/-- A rule is looked at for its identity, its endpoint, its name, the length of the name and its
    tree, one after the other. -/
theorem ruleFault?_eq_findSome? (before : List Rule) (r : Rule) :
    ruleFault? limits b.endpoints before r =
      (ruleRequirements before r).findSome? (b.broken? limits) := by
  unfold ruleFault? ruleRequirements
  simp only [List.findSome?_cons, List.findSome?_nil, broken?]
  split
  · rfl
  · cases hfind : b.endpoints.find? fun e => e.id == r.endpointId with
    | none => rfl
    | some e =>
        simp only [Option.isSome_some, if_true, Option.map_some]
        split
        · rfl
        · unfold Rule.check
          rw [checkName_eq]
          by_cases hname : NameInOrder r.name
          · rw [if_pos hname, if_pos hname]
            cases r.conditions.violation? limits <;> rfl
          · rw [if_neg hname, if_neg hname]

/-- Endpoints are without fault if they meet what is asked of them. -/
theorem endpointsFault?_eq_findSome? (es : List Endpoint) : endpointsFault? [] es =
    ((withEarlier es).flatMap fun p => endpointRequirements p.1 p.2).findSome?
      (b.broken? limits) := by
  have hcons : ∀ before e es, endpointsFault? before (e :: es) =
      ((endpointRequirements before e).findSome? (b.broken? limits)).or
        (endpointsFault? (before ++ [e]) es) := by
    intro before e es
    rw [endpointsFault?_cons, ← endpointFault?_eq_findSome?]
  have hscan := scan_eq_findSome? (fun _ => rfl) hcons [] es
  simpa [withEarlier] using hscan

/-- Rules are without fault if they meet what is asked of them. -/
theorem rulesFault?_eq_findSome? (rs : List Rule) : rulesFault? limits b.endpoints [] rs =
    ((withEarlier rs).flatMap fun p => ruleRequirements p.1 p.2).findSome? (b.broken? limits) := by
  have hcons : ∀ before r rs, rulesFault? limits b.endpoints before (r :: rs) =
      ((ruleRequirements before r).findSome? (b.broken? limits)).or
        (rulesFault? limits b.endpoints (before ++ [r]) rs) := by
    intro before r rs
    rw [rulesFault?_cons, ← ruleFault?_eq_findSome?]
  have hscan := scan_eq_findSome? (fun _ => rfl) hcons [] rs
  simpa [withEarlier] using hscan

/-- **The requirements are looked at in order.** -/
theorem fault?_eq_findSome? (limits : Limits) (b : Bundle) :
    b.fault? limits = b.requirements.findSome? (b.broken? limits) := by
  unfold fault? requirements
  rw [List.findSome?_append, List.findSome?_cons, ← endpointsFault?_eq_findSome?,
    ← rulesFault?_eq_findSome?]
  by_cases hversion : b.version = supportedVersion
  · rw [if_neg (not_not_intro hversion), broken?, if_neg (not_not_intro hversion)]
    cases endpointsFault? [] b.endpoints <;> rfl
  · rw [if_pos hversion, broken?, if_pos hversion, Option.some_or]

/-! ## 3. Admission -/

/-- What a bundle must be to be admitted, each demand by itself. -/
structure Admissible (limits : Limits) (b : Bundle) : Prop where
  version : b.version = supportedVersion
  routes : (b.endpoints.map fun e => (e.method, e.path)).Nodup
  endpointIds : (b.endpoints.map Endpoint.id).Nodup
  ruleIds : (b.rules.map Rule.id).Nodup
  attached : ∀ r ∈ b.rules, ∃ e ∈ b.endpoints, e.id = r.endpointId
  ruleNames : (b.rules.map fun r => (r.endpointId, r.name)).Nodup
  names : ∀ r ∈ b.rules, 3 ≤ r.name.length ∧ r.name.length ≤ 100
  trees : ∀ r ∈ b.rules, r.conditions.validate limits = .ok ()

/-- Endpoints are distinct if no route and no identity comes twice. -/
theorem pairwise_endpoint_distinct_iff {es : List Endpoint} : es.Pairwise Endpoint.Distinct ↔
    (es.map fun e => (e.method, e.path)).Nodup ∧ (es.map Endpoint.id).Nodup := by
  unfold List.Nodup Endpoint.Distinct
  rw [List.pairwise_map, List.pairwise_map, ← List.pairwise_and_iff]
  simp only [ne_eq, Prod.mk.injEq]

/-- Rules are distinct if no identity comes twice, and no name twice on one endpoint. -/
theorem pairwise_rule_distinct_iff {rs : List Rule} : rs.Pairwise Rule.Distinct ↔
    (rs.map Rule.id).Nodup ∧ (rs.map fun r => (r.endpointId, r.name)).Nodup := by
  unfold List.Nodup Rule.Distinct
  rw [List.pairwise_map, List.pairwise_map, ← List.pairwise_and_iff]
  simp only [ne_eq, Prod.mk.injEq]

theorem wellFormed_iff_admissible : b.WellFormed limits ↔ b.Admissible limits := by
  constructor
  · intro h
    obtain ⟨hroutes, hendpointIds⟩ := pairwise_endpoint_distinct_iff.mp h.endpoints
    obtain ⟨hruleIds, hruleNames⟩ := pairwise_rule_distinct_iff.mp h.rules
    have hcheck : ∀ r ∈ b.rules, NameInOrder r.name ∧ r.conditions.validate limits = .ok () :=
      fun r hr => Rule.check_eq_ok_iff.mp (h.inOrder r hr)
    exact ⟨h.version, hroutes, hendpointIds, hruleIds, h.attached, hruleNames,
      fun r hr => (hcheck r hr).1, fun r hr => (hcheck r hr).2⟩
  · intro h
    exact ⟨h.version, pairwise_endpoint_distinct_iff.mpr ⟨h.routes, h.endpointIds⟩,
      pairwise_rule_distinct_iff.mpr ⟨h.ruleIds, h.ruleNames⟩, h.attached,
      fun r hr => Rule.check_eq_ok_iff.mpr ⟨h.names r hr, h.trees r hr⟩⟩

/-- The fault is that of the first requirement that is not met. -/
def FirstFault (limits : Limits) (b : Bundle) (f : BundleFault) : Prop :=
  ∃ met q later, b.requirements = met ++ q :: later ∧
    (∀ p ∈ met, ∀ g, ¬ b.Broken limits p g) ∧ b.Broken limits q f

theorem firstFault_of_fault? {f : BundleFault} (h : b.fault? limits = some f) :
    b.FirstFault limits f := by
  rw [fault?_eq_findSome?, List.findSome?_eq_some_iff] at h
  obtain ⟨met, q, later, hsplit, hq, hmet⟩ := h
  exact ⟨met, q, later, hsplit, fun p hp => broken?_eq_none_iff.mp (hmet p hp),
    broken_of_broken? hq⟩

/-- Where the name of a rule is looked at, the endpoints have been found distinct. -/
theorem endpoints_distinct_of_met {met later : List Requirement} {before : List Rule} {r : Rule}
    (hsplit : b.requirements = met ++ .ruleName before r :: later)
    (hmet : ∀ p ∈ met, ∀ g, ¬ b.Broken limits p g) : b.endpoints.Pairwise Endpoint.Distinct := by
  have hfirst : Requirement.ruleName before r ∉ Requirement.version ::
      (withEarlier b.endpoints).flatMap fun p => endpointRequirements p.1 p.2 := by
    simp [endpointRequirements]
  have hall : ∀ p ∈ (withEarlier b.endpoints).flatMap (fun p => endpointRequirements p.1 p.2),
      p ∈ met := by
    intro p hp
    rcases List.append_eq_append_iff.mp hsplit with ⟨rest, rfl, _⟩ | ⟨rest, hversion, hrest⟩
    · exact List.mem_append_left _ (List.mem_cons_of_mem _ hp)
    · cases rest with
      | nil => exact List.append_nil met ▸ hversion ▸ List.mem_cons_of_mem _ hp
      | cons q rest =>
          obtain ⟨rfl, _⟩ := List.cons.inj hrest
          exact absurd (hversion ▸ List.mem_append_right _ List.mem_cons_self) hfirst
  have hscan : endpointsFault? [] b.endpoints = ((withEarlier b.endpoints).flatMap fun p =>
      endpointRequirements p.1 p.2).findSome? (b.broken? limits) := endpointsFault?_eq_findSome? _
  rw [← endpointsFault?_eq_none_iff, hscan, List.findSome?_eq_none_iff]
  exact fun p hp => broken?_eq_none_iff.mpr (hmet p (hall p hp))

theorem fault?_of_firstFault {f : BundleFault} (h : b.FirstFault limits f) :
    b.fault? limits = some f := by
  obtain ⟨met, q, later, hsplit, hmet, hq⟩ := h
  obtain ⟨g, hg, hsame⟩ := hq.exists_broken?
  have hgf : g = f := by
    refine hsame fun before r hname => ?_
    subst hname
    exact endpoints_distinct_of_met hsplit hmet
  rw [fault?_eq_findSome?, List.findSome?_eq_some_iff]
  exact ⟨met, q, later, hsplit, hgf ▸ hg, fun p hp => broken?_eq_none_iff.mpr (hmet p hp)⟩

/-- **Admission is exact.** A bundle is admitted, and then as it is, if and only if it is
    admissible; and it is refused for a fault if and only if this is the fault of the first
    requirement that it does not meet. -/
theorem admission_exact (limits : Limits) (b : Bundle) :
    (∀ b', b.accepted limits = .ok b' ↔ b = b' ∧ b'.Admissible limits) ∧
      ∀ f, b.accepted limits = .error f ↔ b.FirstFault limits f := by
  have herror : ∀ f, b.accepted limits = .error f ↔ b.fault? limits = some f := by
    intro f
    unfold accepted
    cases b.fault? limits with
    | none => exact ⟨nofun, nofun⟩
    | some g => rw [Except.error.injEq, Option.some.injEq]
  refine ⟨fun b' => ?_, fun f => ?_⟩
  · rw [accepted_eq_ok_iff, fault?_eq_none_iff, wellFormed_iff_admissible]
  · rw [herror]
    exact ⟨firstFault_of_fault?, fault?_of_firstFault⟩

/-- An endpoint that comes twice is refused for its route, as this is looked at before its
    identity. -/
example : accepted .standard ⟨"1.0", [⟨.zero, .get, "/clients", true, none⟩,
      ⟨.zero, .get, "/clients", true, none⟩], []⟩ =
    .error (.duplicateRoute ⟨.zero, .get, "/clients", true, none⟩) := by
  decide +kernel

end Bundle

end Gatehouse
