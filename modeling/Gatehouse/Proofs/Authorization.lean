import Gatehouse.Engine
import Gatehouse.Proofs.Decision

/-!
# Who is let through

What this file shows about `Bundle.authorize`, for any bundle, whether it has been admitted or not:

* `endpoint?_eq_some_iff`: a request is decided for the first endpoint of its method and path;
* `authorize_allowed_iff`: the caller is told that the request is allowed if and only if there is
  such an endpoint, none of its denying rules matches, and one of its allowing rules matches or the
  endpoint allows unmatched requests. Rules of other endpoints and rules that fail play no part.
-/

namespace Gatehouse

namespace Bundle

/-! ## 1. Look-ups -/

/-- The endpoint stands for the method and the path, and no endpoint before it does. -/
def FirstRegistered (b : Bundle) (method : Method) (path : String) (e : Endpoint) : Prop :=
  e.method = method ∧ e.path = path ∧ ∃ before after, b.endpoints = before ++ e :: after ∧
    ∀ x ∈ before, ¬ (x.method = method ∧ x.path = path)

theorem registeredB_iff {e : Endpoint} {method : Method} {path : String} :
    (e.method == method && e.path == path) = true ↔ e.method = method ∧ e.path = path := by
  rw [Bool.and_eq_true, beq_iff_eq, beq_iff_eq]

theorem endpoint?_eq_some_iff {b : Bundle} {method : Method} {path : String} {e : Endpoint} :
    b.endpoint? method path = some e ↔ b.FirstRegistered method path e := by
  unfold endpoint? FirstRegistered
  rw [List.find?_eq_some_iff_append, registeredB_iff, and_assoc]
  refine and_congr_right fun _ => and_congr_right fun _ => ?_
  refine exists_congr fun before => exists_congr fun after => and_congr_right fun _ => ?_
  refine forall_congr' fun x => imp_congr_right fun _ => ?_
  rw [Bool.not_eq_true', ← Bool.not_eq_true, registeredB_iff]

theorem endpoint?_eq_none_iff {b : Bundle} {method : Method} {path : String} :
    b.endpoint? method path = none ↔ ∀ e ∈ b.endpoints, ¬ (e.method = method ∧ e.path = path) := by
  unfold endpoint?
  rw [List.find?_eq_none]
  exact forall_congr' fun e => imp_congr_right fun _ => not_congr registeredB_iff

theorem mem_rulesFor {b : Bundle} {id : Uuid} {r : Rule} :
    r ∈ b.rulesFor id ↔ r ∈ b.rules ∧ r.endpointId = id := by
  unfold rulesFor
  rw [List.mem_filter, beq_iff_eq]

/-! ## 2. Answers -/

section

variable {b : Bundle} {subject : Attributes} {q : Request} {e : Endpoint}

/-- A request for a registered endpoint is decided by its rules. -/
theorem decideRequest?_of_some (h : b.endpoint? q.method q.path = some e) :
    b.decideRequest? subject q = some (e.decide (b.rulesFor e.id) (.ofRequest subject q)) := by
  rw [decideRequest?, h, Option.map_some]

/-- A request for no endpoint is not decided. -/
theorem decideRequest?_of_none (h : b.endpoint? q.method q.path = none) :
    b.decideRequest? subject q = none := by
  rw [decideRequest?, h, Option.map_none]

/-- A request for a registered endpoint is answered by the decision on its rules. -/
theorem authorize_of_some (h : b.endpoint? q.method q.path = some e) :
    b.authorize subject q =
      (e.decide (b.rulesFor e.id) (.ofRequest subject q)).toResponse := by
  rw [authorize, decideRequest?_of_some h]

/-- A request for no endpoint is refused. -/
theorem authorize_of_none (h : b.endpoint? q.method q.path = none) :
    b.authorize subject q = .refusal (unknownEndpointMessage q) := by
  rw [authorize, decideRequest?_of_none h]

end

/-- The rules of an endpoint decide a request to it, those of other endpoints do not. -/
theorem decide_rulesFor_iff {b : Bundle} {e : Endpoint} {ctx : Context} :
    (e.decide (b.rulesFor e.id) ctx).isAllowed = true ↔
      (∀ r ∈ b.rules, r.endpointId = e.id → r.effect = .deny → ¬ r.Matches ctx) ∧
        ((∃ r ∈ b.rules, r.endpointId = e.id ∧ r.effect = .allow ∧ r.Matches ctx) ∨
          e.denyUnauthorized = false) := by
  rw [Endpoint.isAllowed_decide_iff]
  constructor
  · rintro ⟨hdeny, hallow⟩
    refine ⟨fun r hr hid => hdeny r (mem_rulesFor.mpr ⟨hr, hid⟩), hallow.imp_left ?_⟩
    rintro ⟨r, hr, he, hm⟩
    obtain ⟨hr, hid⟩ := mem_rulesFor.mp hr
    exact ⟨r, hr, hid, he, hm⟩
  · rintro ⟨hdeny, hallow⟩
    refine ⟨fun r hr => ?_, hallow.imp_left ?_⟩
    · obtain ⟨hr, hid⟩ := mem_rulesFor.mp hr
      exact hdeny r hr hid
    · rintro ⟨r, hr, hid, he, hm⟩
      exact ⟨r, mem_rulesFor.mpr ⟨hr, hid⟩, he, hm⟩

/-- **Deny overrides, end to end.** -/
theorem authorize_allowed_iff (b : Bundle) (subject : Attributes) (q : Request) :
    ((b.authorize subject q).allowed = true ↔
      ∃ e, b.FirstRegistered q.method q.path e ∧
        (∀ r ∈ b.rules, r.endpointId = e.id → r.effect = .deny →
          ¬ r.Matches (.ofRequest subject q)) ∧
        ((∃ r ∈ b.rules, r.endpointId = e.id ∧ r.effect = .allow ∧
            r.Matches (.ofRequest subject q)) ∨
          e.denyUnauthorized = false)) ∧
    ((∀ e ∈ b.endpoints, ¬ (e.method = q.method ∧ e.path = q.path)) →
      (b.authorize subject q).allowed = false) := by
  refine ⟨?_, fun h => by rw [authorize_of_none (endpoint?_eq_none_iff.mpr h)]; rfl⟩
  cases h : b.endpoint? q.method q.path with
  | none =>
      rw [authorize_of_none h]
      constructor
      · intro ha
        cases ha
      · rintro ⟨e, he, _⟩
        rw [endpoint?_eq_some_iff.mpr he] at h
        cases h
  | some e =>
      have hallowed : (b.authorize subject q).allowed =
          (e.decide (b.rulesFor e.id) (.ofRequest subject q)).isAllowed := by
        rw [authorize_of_some h]
        rfl
      rw [hallowed, decide_rulesFor_iff]
      constructor
      · intro hrules
        exact ⟨e, endpoint?_eq_some_iff.mp h, hrules⟩
      · rintro ⟨e', he', hrules⟩
        rw [endpoint?_eq_some_iff.mpr he'] at h
        obtain rfl := Option.some.inj h
        exact hrules

/-- One endpoint, which allows unmatched requests. -/
def clientsBundle : Bundle := ⟨"1.0", [⟨.zero, .get, "/clients", false, none⟩], []⟩

/-- Asks for the same path by another method. -/
def postClients : Request := ⟨.post, "/clients", none, none, none, none, none⟩

/-- The method is part of what an endpoint is registered under. -/
theorem authorize_allowed_iff_other_method :
    (∀ e ∈ clientsBundle.endpoints,
      ¬ (e.method = postClients.method ∧ e.path = postClients.path)) ∧
    (clientsBundle.authorize [] postClients).allowed = false := by
  have hnone : ∀ e ∈ clientsBundle.endpoints,
      ¬ (e.method = postClients.method ∧ e.path = postClients.path) := by
    intro e he h
    rw [List.mem_singleton.mp he] at h
    cases h.1
  exact ⟨hnone, (authorize_allowed_iff clientsBundle [] postClients).2 hnone⟩

end Bundle

end Gatehouse
