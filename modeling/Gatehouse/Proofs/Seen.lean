import Gatehouse.Proofs.Admission
import Mathlib.Tactic.Common

/-!
# Admission with sets of what was seen

`Bundle.fault?` compares each item with all those before it. The same can be done in one pass that
keeps sets of the routes, identities and names it has met, and finds endpoints in a map. What this
file fixes, and what it shows about `Bundle.accepted`:

* `Bundle.scan`: the pass with hash sets and a hash map;
* `Keeps`, `Indexes`: a set has the keys of the items before, and the map finds the endpoints
  before. One item more keeps this up;
* `scan_eq`: the pass refuses the same bundles for the same fault.
-/

namespace Gatehouse

instance : Hashable Uuid := ⟨fun id => hash id.digits⟩

instance : Hashable Method := ⟨fun m => hash m.name⟩

namespace Bundle

/-! ## 1. The pass -/

/-- Goes through endpoints, with the routes of those before and a map from their identities. Ends
    with the map of all. -/
def scanEndpoints (routes : Std.HashSet (Method × String)) (byId : Std.HashMap Uuid Endpoint) :
    List Endpoint → Except BundleFault (Std.HashMap Uuid Endpoint)
  | [] => .ok byId
  | e :: es =>
      if routes.contains (e.method, e.path) then .error (.duplicateRoute e)
      else if byId.contains e.id then .error (.duplicateEndpointId e.id)
      else scanEndpoints (routes.insert (e.method, e.path)) (byId.insert e.id e) es

/-- Goes through rules, with the identities of those before and the names on their endpoints. -/
def scanRules (limits : Limits) (byId : Std.HashMap Uuid Endpoint) (ids : Std.HashSet Uuid)
    (names : Std.HashSet (Uuid × String)) : List Rule → Except BundleFault Unit
  | [] => .ok ()
  | r :: rs =>
      if ids.contains r.id then .error (.duplicateRuleId r.id)
      else match byId[r.endpointId]? with
        | none => .error (.unknownEndpoint r)
        | some e =>
            if names.contains (r.endpointId, r.name) then .error (.duplicateRuleName r e)
            else match r.check limits with
              | .error cause => .error (.invalidRule r cause)
              | .ok () =>
                  scanRules limits byId (ids.insert r.id) (names.insert (r.endpointId, r.name)) rs

/-- Goes through a bundle once. -/
def scan (limits : Limits) (b : Bundle) : Except BundleFault Unit :=
  if b.version ≠ supportedVersion then .error (.unsupportedVersion b.version)
  else match scanEndpoints ∅ ∅ b.endpoints with
    | .error f => .error f
    | .ok byId => scanRules limits byId ∅ ∅ b.rules

/-! ## 2. What the sets hold -/

section Keeps

variable {α κ : Type} [BEq κ] [Hashable κ]

/-- A set has the keys of the items before, no more and no less. -/
def Keeps (key : α → κ) (before : List α) (seen : Std.HashSet κ) : Prop :=
  ∀ k, seen.contains k = before.any fun x => key x == k

theorem keeps_nil (key : α → κ) : Keeps key [] ∅ := fun _ => Std.HashSet.contains_empty

/-- One item more, with its key. -/
theorem Keeps.snoc [EquivBEq κ] [LawfulHashable κ] {key : α → κ} {before : List α}
    {seen : Std.HashSet κ} (h : Keeps key before seen) (x : α) :
    Keeps key (before ++ [x]) (seen.insert (key x)) := by
  intro k
  rw [Std.HashSet.contains_insert, h k, List.any_append, Bool.or_comm, List.any_cons,
    List.any_nil, Bool.or_false]

end Keeps

variable {limits : Limits} {byId : Std.HashMap Uuid Endpoint}

/-- The map finds what a search through the endpoints finds. -/
def Indexes (byId : Std.HashMap Uuid Endpoint) (endpoints : List Endpoint) : Prop :=
  ∀ id, byId[id]? = endpoints.find? fun x => x.id == id

theorem indexes_nil : Indexes ∅ [] := fun _ => Std.HashMap.getElem?_empty

theorem Indexes.contains {endpoints : List Endpoint} (h : Indexes byId endpoints) (id : Uuid) :
    byId.contains id = endpoints.any fun x => x.id == id := by
  rw [Std.HashMap.contains_eq_isSome_getElem?, h id, List.isSome_find?]

/-- One endpoint more, whose identity was not met before: it takes no other's place. -/
theorem Indexes.snoc {before : List Endpoint} (h : Indexes byId before) {e : Endpoint}
    (hnew : (before.any fun x => x.id == e.id) = false) :
    Indexes (byId.insert e.id e) (before ++ [e]) := by
  intro id
  rw [Std.HashMap.getElem?_insert, h id, List.find?_append]
  by_cases hid : e.id = id
  · have hnone : (before.find? fun x => x.id == id) = none := by
      rw [List.find?_eq_none]
      rw [List.any_eq_false, hid] at hnew
      exact hnew
    simp [hnone, hid]
  · simp [hid]

/-! ## 3. Same faults -/

/-- A pass through endpoints stops with their first fault, or ends with a map that indexes all. -/
def EndsAs (all : List Endpoint) (fault : Option BundleFault) :
    Except BundleFault (Std.HashMap Uuid Endpoint) → Prop
  | .error f => fault = some f
  | .ok byId => fault = none ∧ Indexes byId all

/-- **The endpoints are refused for their first fault**, and if they have none the map indexes
    them. -/
theorem scanEndpoints_endsAs : ∀ (es : List Endpoint) {before : List Endpoint}
    {routes : Std.HashSet (Method × String)} {byId : Std.HashMap Uuid Endpoint},
    Keeps (fun e => (e.method, e.path)) before routes → Indexes byId before →
    EndsAs (before ++ es) (endpointsFault? before es) (scanEndpoints routes byId es)
  | [], before, _, _, _, hindex => by
      rw [List.append_nil]
      exact ⟨rfl, hindex⟩
  | e :: es, before, routes, byId, hroutes, hindex => by
      have hroute : routes.contains (e.method, e.path) =
          before.any fun x => x.method == e.method && x.path == e.path := hroutes _
      rw [scanEndpoints, hroute, hindex.contains, endpointsFault?_cons, endpointFault?]
      cases before.any fun x => x.method == e.method && x.path == e.path with
      | true => rfl
      | false =>
        cases hid : before.any fun x => x.id == e.id with
        | true => rfl
        | false =>
          have hrest := scanEndpoints_endsAs es (hroutes.snoc e) (hindex.snoc hid)
          rw [List.append_assoc] at hrest
          exact hrest

/-- **The rules are refused for their first fault.** -/
theorem scanRules_eq {endpoints : List Endpoint} (hindex : Indexes byId endpoints) :
    ∀ {rs before : List Rule} {ids : Std.HashSet Uuid} {names : Std.HashSet (Uuid × String)},
    Keeps Rule.id before ids → Keeps (fun r => (r.endpointId, r.name)) before names →
    scanRules limits byId ids names rs =
      (rulesFault? limits endpoints before rs).elim (.ok ()) .error
  | [], _, _, _, _, _ => rfl
  | r :: rs, before, ids, names, hids, hnames => by
      have hname : names.contains (r.endpointId, r.name) =
          before.any fun x => x.endpointId == r.endpointId && x.name == r.name := hnames _
      rw [scanRules, hids, hindex, hname, rulesFault?_cons, ruleFault?]
      cases before.any fun x => x.id == r.id with
      | true => rfl
      | false =>
        cases endpoints.find? fun e => e.id == r.endpointId with
        | none => rfl
        | some e =>
          cases before.any fun x => x.endpointId == r.endpointId && x.name == r.name with
          | true => rfl
          | false =>
            cases r.check limits with
            | error cause => rfl
            | ok u => exact scanRules_eq hindex (hids.snoc r) (hnames.snoc r)

/-- **One pass with sets refuses the same bundles, for the same fault.** -/
theorem scan_eq (b : Bundle) (limits : Limits) :
    b.scan limits = (b.accepted limits).map fun _ => () := by
  have hendpoints : EndsAs b.endpoints (endpointsFault? [] b.endpoints)
      (scanEndpoints ∅ ∅ b.endpoints) :=
    scanEndpoints_endsAs b.endpoints (keeps_nil _) indexes_nil
  rw [scan, accepted, fault?]
  by_cases hversion : b.version ≠ supportedVersion
  · rw [if_pos hversion, if_pos hversion]
    rfl
  · rw [if_neg hversion, if_neg hversion]
    cases hscan : scanEndpoints ∅ ∅ b.endpoints with
    | error f =>
      rw [hscan] at hendpoints
      have hfault : endpointsFault? [] b.endpoints = some f := hendpoints
      rw [hfault]
      rfl
    | ok byId =>
      rw [hscan] at hendpoints
      obtain ⟨hfault, hindex⟩ := hendpoints
      rw [hfault]
      show scanRules limits byId ∅ ∅ b.rules = _
      rw [scanRules_eq hindex (keeps_nil _) (keeps_nil _)]
      cases rulesFault? limits b.endpoints [] b.rules <;> rfl

end Bundle

end Gatehouse
