import Gatehouse.Proofs.Admission
import Gatehouse.Proofs.Authorization
import Gatehouse.Proofs.Lists

/-!
# The order of storage

What this file fixes, and what it shows about `Bundle.fault?` and `Bundle.decideRequest?`:

* `Bundle.Reordered`: the same endpoints and rules, stored in any order; `KeepsGroups`: rules of the
  same endpoint and effect stay in order among themselves;
* `wellFormed_of_reordered`: a bundle is admitted in any order;
* `WellFormed.registered_once`: a method and a path are those of one endpoint at most;
* `endpoint?_of_reordered`, `triedOrder_of_keepsGroups`: a request finds the same endpoint, and its
  rules are tried in the same order;
* `EditedElsewhere`: rules that differ only where they are attached to other endpoints;
* `storage_order_irrelevant`: so the order of storage does not decide requests, and neither do
  the rules of other endpoints.
-/

namespace Gatehouse

/-! ## 1. Orders -/

/-- Rules of the same endpoint and the same effect come in the same order. -/
def KeepsGroups (rules rules' : List Rule) : Prop :=
  ∀ (id : Uuid) (effect : Effect),
    (rules'.filter fun r => r.endpointId == id && r.effect == effect) =
      rules.filter fun r => r.endpointId == id && r.effect == effect

/-- The rules are the same but for some that are attached to other endpoints. A rule that is
    changed counts as one that is removed and one that is added. -/
inductive EditedElsewhere (id : Uuid) : List Rule → List Rule → Prop
  | nil : EditedElsewhere id [] []
  | kept {r : Rule} {rs rs' : List Rule} : EditedElsewhere id rs rs' →
      EditedElsewhere id (r :: rs) (r :: rs')
  | removed {r : Rule} {rs rs' : List Rule} : r.endpointId ≠ id → EditedElsewhere id rs rs' →
      EditedElsewhere id (r :: rs) rs'
  | added {r : Rule} {rs rs' : List Rule} : r.endpointId ≠ id → EditedElsewhere id rs rs' →
      EditedElsewhere id rs (r :: rs')

/-- The rules of the endpoint itself are the same. -/
theorem EditedElsewhere.filter_eq {id : Uuid} {rs rs' : List Rule} (h : EditedElsewhere id rs rs') :
    (rs'.filter fun r => r.endpointId == id) = rs.filter fun r => r.endpointId == id := by
  induction h with
  | nil => rfl
  | kept _ ih => rw [List.filter_cons, List.filter_cons, ih]
  | removed hr _ ih => rw [List.filter_cons_of_neg (by simpa using hr), ih]
  | added hr _ ih => rw [List.filter_cons_of_neg (by simpa using hr), ih]

namespace Endpoint

/-- A decision depends on the rules in the order in which they are tried. -/
theorem decide_of_triedOrder {rules rules' : List Rule}
    (h : triedOrder rules' = triedOrder rules) (e : Endpoint) (ctx : Context) :
    e.decide rules' ctx = e.decide rules ctx := by
  rw [Endpoint.decide, Endpoint.decide, h]

/-- **The outcome of a request does not depend on the order of the rules.** -/
theorem outcome_decide_of_perm {rules rules' : List Rule} (h : rules'.Perm rules) (e : Endpoint)
    (ctx : Context) : (e.decide rules' ctx).outcome = (e.decide rules ctx).outcome := by
  have hallowed : (e.decide rules' ctx).isAllowed = (e.decide rules ctx).isAllowed := by
    rw [Bool.eq_iff_iff, isAllowed_decide_iff, isAllowed_decide_iff]
    simp only [h.mem_iff]
  unfold Decision.isAllowed at hallowed
  cases hx : (e.decide rules' ctx).outcome <;> cases hy : (e.decide rules ctx).outcome <;>
    simp [hx, hy] at hallowed ⊢

end Endpoint

/-! ## 2. Bundles -/

namespace Bundle

variable {limits : Limits} {b b' : Bundle}

/-- The bundles hold the same endpoints and the same rules. -/
structure Reordered (b b' : Bundle) : Prop where
  version : b'.version = b.version
  endpoints : b'.endpoints.Perm b.endpoints
  rules : b'.rules.Perm b.rules

/-- **A bundle that is stored in another order is admitted as well.** -/
theorem wellFormed_of_reordered (h : b.Reordered b') (hb : b.WellFormed limits) :
    b'.WellFormed limits where
  version := h.version.trans hb.version
  endpoints := h.endpoints.symm.pairwise hb.endpoints Endpoint.Distinct.symm
  rules := h.rules.symm.pairwise hb.rules Rule.Distinct.symm
  attached := fun r hr => by
    obtain ⟨e, he, hid⟩ := hb.attached r (h.rules.mem_iff.mp hr)
    exact ⟨e, h.endpoints.mem_iff.mpr he, hid⟩
  inOrder := fun r hr => hb.inOrder r (h.rules.mem_iff.mp hr)

/-- No two endpoints are registered for one method and one path. -/
theorem WellFormed.registered_once (hb : b.WellFormed limits) (method : Method) (path : String) :
    b.endpoints.Pairwise fun x y => ¬ ((x.method == method && x.path == path) = true ∧
      (y.method == method && y.path == path) = true) := by
  refine hb.endpoints.imp fun {x y} hxy hboth => ?_
  obtain ⟨hx, hy⟩ := hboth
  obtain ⟨hxm, hxp⟩ := registeredB_iff.mp hx
  obtain ⟨hym, hyp⟩ := registeredB_iff.mp hy
  exact hxy.1 ⟨hxm.trans hym.symm, hxp.trans hyp.symm⟩

/-- **A request finds the same endpoint**, for no two endpoints share a route. -/
theorem endpoint?_of_reordered (h : b.Reordered b') (hb : b.WellFormed limits) (method : Method)
    (path : String) : b'.endpoint? method path = b.endpoint? method path :=
  (find?_eq_of_perm h.endpoints.symm (hb.registered_once method path)).symm

/-- The rules of an endpoint are tried group by group. -/
theorem triedOrder_rulesFor (b : Bundle) (id : Uuid) : triedOrder (b.rulesFor id) =
    (b.rules.filter fun r => r.endpointId == id && r.effect == .deny) ++
      b.rules.filter fun r => r.endpointId == id && r.effect == .allow := by
  rw [triedOrder, rulesFor, List.filter_filter, List.filter_filter]
  simp only [Rule.effect_bne_deny, Bool.and_comm]

/-- **The rules of an endpoint are tried in the same order** if each group keeps its order. -/
theorem triedOrder_of_keepsGroups (h : KeepsGroups b.rules b'.rules) (id : Uuid) :
    triedOrder (b'.rulesFor id) = triedOrder (b.rulesFor id) := by
  rw [triedOrder_rulesFor, triedOrder_rulesFor, h id .deny, h id .allow]

/-- **The order of storage does not matter.** An admitted bundle that is stored in another order is
    admitted. If rules of the same endpoint and effect keep their order, it gives the same decision
    on every request, down to the failures noted, and the same answer; and in any order it gives
    the same outcome. Whatever is done to the rules of other endpoints, the decision stays the
    same. -/
theorem storage_order_irrelevant :
    (∀ (limits : Limits) (b b' : Bundle), b.fault? limits = none → b.Reordered b' →
      b'.fault? limits = none ∧
      (∀ subject q, (b'.decideRequest? subject q).map Decision.outcome =
        (b.decideRequest? subject q).map Decision.outcome) ∧
      (KeepsGroups b.rules b'.rules → ∀ subject q,
        b'.decideRequest? subject q = b.decideRequest? subject q ∧
          b'.authorize subject q = b.authorize subject q)) ∧
    ∀ (b b' : Bundle) (subject : Attributes) (q : Request) (e : Endpoint),
      b'.endpoints = b.endpoints → b.endpoint? q.method q.path = some e →
      EditedElsewhere e.id b.rules b'.rules →
      b'.decideRequest? subject q = b.decideRequest? subject q := by
  refine ⟨fun limits b b' hb h => ?_, fun b b' subject q e hendpoints he hedited => ?_⟩
  · have hwell := fault?_eq_none_iff.mp hb
    have hfind := endpoint?_of_reordered h hwell
    refine ⟨fault?_eq_none_iff.mpr (wellFormed_of_reordered h hwell), fun subject q => ?_,
      fun hgroups subject q => ?_⟩
    · unfold decideRequest?
      rw [hfind, Option.map_map, Option.map_map]
      refine Option.map_congr fun e _ => ?_
      exact Endpoint.outcome_decide_of_perm (h.rules.filter _) e _
    · have hdecide : b'.decideRequest? subject q = b.decideRequest? subject q := by
        unfold decideRequest?
        rw [hfind]
        refine Option.map_congr fun e _ => ?_
        exact Endpoint.decide_of_triedOrder (triedOrder_of_keepsGroups hgroups e.id) e _
      exact ⟨hdecide, by rw [authorize, authorize, hdecide]⟩
  · have hfind : b'.endpoint? q.method q.path = some e := by
      rw [← he, endpoint?, endpoint?, hendpoints]
    have hrules : b'.rulesFor e.id = b.rulesFor e.id := hedited.filter_eq
    rw [decideRequest?, decideRequest?, hfind, he, Option.map_some, Option.map_some, hrules]

/-! ## 3. One bundle in several orders -/

/-- The identity with the same digit throughout. -/
def uuidOf (d : Fin 16) : Uuid := ⟨List.replicate 32 d, List.length_replicate⟩

/-- The endpoint of a method, which denies what its rules do not allow. -/
def clientsEndpoint (d : Fin 16) (method : Method) : Endpoint :=
  ⟨uuidOf d, method, "/clients", true, none⟩

/-- A rule that matches subjects who have the attribute that it is named for. -/
def flagRule (d : Fin 16) (name : String) (effect : Effect) (endpoint : Fin 16) : Rule :=
  ⟨uuidOf d, name, none, effect, uuidOf endpoint,
    .leaf ⟨⟨"subject." ++ name⟩, .isNotNull, .absent, none⟩ none⟩

/-- Two endpoints, one of which has two rules that deny. -/
def filedBundle : Bundle :=
  ⟨"1.0", [clientsEndpoint 1 .get, clientsEndpoint 2 .post],
    [flagRule 3 "reader" .allow 1, flagRule 4 "blocked" .deny 1, flagRule 5 "writer" .allow 2,
      flagRule 6 "expired" .deny 1]⟩

/-- The rules that deny stay in order. -/
def regroupedBundle : Bundle :=
  ⟨"1.0", [clientsEndpoint 2 .post, clientsEndpoint 1 .get],
    [flagRule 5 "writer" .allow 2, flagRule 4 "blocked" .deny 1, flagRule 6 "expired" .deny 1,
      flagRule 3 "reader" .allow 1]⟩

/-- The other endpoint has two rules in place of its one. -/
def editedBundle : Bundle :=
  ⟨"1.0", [clientsEndpoint 1 .get, clientsEndpoint 2 .post],
    [flagRule 3 "reader" .allow 1, flagRule 4 "blocked" .deny 1, flagRule 5 "writer" .deny 2,
      flagRule 7 "author" .allow 2, flagRule 6 "expired" .deny 1]⟩

/-- Asks to read the clients. -/
def readClients : Request := ⟨.get, "/clients", none, none, none, none, none⟩

/-- The bundle is admitted and decides all requests in the same way when its endpoints change
    places and its groups of rules are moved; and what is done to the rules of one endpoint has no
    effect on requests to the other. -/
theorem storage_order_irrelevant_clients :
    filedBundle.fault? .standard = none ∧ filedBundle.Reordered regroupedBundle ∧
    KeepsGroups filedBundle.rules regroupedBundle.rules ∧
    regroupedBundle.fault? .standard = none ∧
    (∀ subject q, regroupedBundle.decideRequest? subject q =
      filedBundle.decideRequest? subject q) ∧
    filedBundle.endpoint? readClients.method readClients.path = some (clientsEndpoint 1 .get) ∧
    EditedElsewhere (uuidOf 1) filedBundle.rules editedBundle.rules ∧
    ∀ subject, editedBundle.decideRequest? subject readClients =
      filedBundle.decideRequest? subject readClients := by
  have hfault : filedBundle.fault? .standard = none := by decide +kernel
  have hreordered : filedBundle.Reordered regroupedBundle :=
    ⟨rfl, by decide +kernel, by decide +kernel⟩
  have hgroups : KeepsGroups filedBundle.rules regroupedBundle.rules := by
    intro id effect
    by_cases hfirst : uuidOf 1 = id
    · subst hfirst
      cases effect <;> decide +kernel
    · by_cases hsecond : uuidOf 2 = id
      · subst hsecond
        cases effect <;> decide +kernel
      · simp [filedBundle, regroupedBundle, flagRule, hfirst, hsecond]
  have hfind : filedBundle.endpoint? readClients.method readClients.path =
      some (clientsEndpoint 1 .get) := by
    decide +kernel
  have hedited : EditedElsewhere (uuidOf 1) filedBundle.rules editedBundle.rules :=
    .kept (.kept (.removed (by decide +kernel) (.added (by decide +kernel)
      (.added (by decide +kernel) (.kept .nil)))))
  obtain ⟨hnew, _, hsame⟩ :=
    storage_order_irrelevant.1 .standard filedBundle regroupedBundle hfault hreordered
  exact ⟨hfault, hreordered, hgroups, hnew, fun subject q => (hsame hgroups subject q).1, hfind,
    hedited, fun subject =>
      storage_order_irrelevant.2 filedBundle editedBundle subject readClients _ rfl hfind
        hedited⟩

end Bundle

end Gatehouse
