import Gatehouse.Proofs.Condition.Leaves
import Gatehouse.Proofs.Decision
import Gatehouse.Proofs.Resolution

/-!
# What a decision depends on

What this file shows: decisions and reports read a context only where the paths of the rules do.

* `operands_congr_of_agree`: contexts that agree on the paths of a tree give each of its leaves the
  same operands;
* `decide_noninterference`: so they lead to the same decision, down to the failures noted, and to
  the same report on each rule. What a request says in one namespace is without effect on rules
  that read others.
-/

namespace Gatehouse

variable {c₁ c₂ : Context}

/-- Contexts that agree on the paths of a tree look the same to its leaves. -/
theorem Condition.operands_congr_of_agree {c : Condition} (h : ∀ p ∈ c.paths, c₁.AgreeAt c₂ p) :
    ∀ l ∈ c.leaves, l.operands c₁ = l.operands c₂ :=
  fun _ hl => Leaf.operands_congr fun p hp => Context.resolve_congr (h p (mem_paths hl hp))

/-- A report on a rule depends on the explanation of its conditions only. -/
theorem Rule.report_congr {r : Rule} (h : r.conditions.explain c₁ = r.conditions.explain c₂) :
    r.report c₁ = r.report c₂ := by
  rw [report, report, h]

/-- **Noninterference**: contexts that agree on every entry that the paths of the rules read lead
    to equal decisions and equal reports. This holds of contexts that differ only in a namespace
    that no path names, for a path of another namespace leads to the same value in them. -/
theorem decide_noninterference (rules : List Rule) (e : Endpoint) (c₁ c₂ : Context) :
    ((∀ r ∈ rules, ∀ p ∈ r.conditions.paths, c₁.AgreeAt c₂ p) →
      e.decide rules c₁ = e.decide rules c₂ ∧ ∀ r ∈ rules, r.report c₁ = r.report c₂) ∧
    ∀ n, (∀ m, m ≠ n → c₁.attributes m = c₂.attributes m) →
      (∀ p : Path, p.namespace? ≠ some n → c₁.resolve p = c₂.resolve p) ∧
      ((∀ r ∈ rules, ∀ p ∈ r.conditions.paths, p.namespace? ≠ some n) →
        e.decide rules c₁ = e.decide rules c₂ ∧ ∀ r ∈ rules, r.report c₁ = r.report c₂) := by
  have hagree : (∀ r ∈ rules, ∀ p ∈ r.conditions.paths, c₁.AgreeAt c₂ p) →
      e.decide rules c₁ = e.decide rules c₂ ∧ ∀ r ∈ rules, r.report c₁ = r.report c₂ := by
    intro h
    have hops : ∀ r ∈ rules, ∀ l ∈ r.conditions.leaves, l.operands c₁ = l.operands c₂ :=
      fun r hr => Condition.operands_congr_of_agree (h r hr)
    refine ⟨Endpoint.decide_congr (fun r hr => ?_) e, fun r hr => ?_⟩
    · exact Condition.evaluate_congr r.conditions (hops r hr)
    · exact Rule.report_congr (Condition.explain_congr (hops r hr))
  refine ⟨hagree, fun n hn => ⟨fun p hp => ?_, fun hp => hagree fun r hr p hmem => ?_⟩⟩
  · exact Context.resolve_congr (Context.agreeAt_of_attributes hn hp)
  · exact Context.agreeAt_of_attributes hn (hp r hr p hmem)

/-! ## A request that says more than its rule asks -/

/-- Lets a subject work in its own branches. -/
def worksInBranch : Rule where
  id := .zero
  name := "works in branch"
  description := none
  effect := .allow
  endpointId := .zero
  conditions := .leaf ⟨⟨"subject.branches[*]"⟩, .contains, .path ⟨"path.branch_id"⟩, none⟩ none

/-- Denies what its rules do not allow. -/
def branchEndpoint : Endpoint := ⟨.zero, .get, "/branches/\x7bbranch_id\x7d", true, none⟩

/-- A request for branch `b1`, from a subject of that branch that calls itself by a name. -/
def namedRequest (name : String) (body : Attributes) : Context where
  subject := [("branches", .array [.string "b1"]), ("name", .string name)]
  resource := []
  path := [("branch_id", .string "b1")]
  body := body
  query := []
  header := []

/-- The rule reads the branches of the subject and the branch in the path: neither the name nor a
    body that claims another branch changes what is decided. -/
theorem decide_noninterference_branch :
    (∀ r ∈ [worksInBranch], ∀ p ∈ r.conditions.paths, (namedRequest "ann" []).AgreeAt
      (namedRequest "eve" [("branch_id", .string "b2")]) p) ∧
    branchEndpoint.decide [worksInBranch] (namedRequest "ann" []) =
      branchEndpoint.decide [worksInBranch] (namedRequest "eve" [("branch_id", .string "b2")]) ∧
    (∀ m, m ≠ .body → (namedRequest "ann" []).attributes m =
      (namedRequest "ann" [("branch_id", .string "b2")]).attributes m) ∧
    (∀ r ∈ [worksInBranch], ∀ p ∈ r.conditions.paths, p.namespace? ≠ some .body) ∧
    ∀ r ∈ [worksInBranch], r.report (namedRequest "ann" []) =
      r.report (namedRequest "ann" [("branch_id", .string "b2")]) := by
  have hagree : ∀ r ∈ [worksInBranch], ∀ p ∈ r.conditions.paths, (namedRequest "ann" []).AgreeAt
      (namedRequest "eve" [("branch_id", .string "b2")]) p := by
    intro r hr p hp n k hroot
    rw [List.mem_singleton.mp hr] at hp
    have hpaths : worksInBranch.conditions.paths =
        [⟨"subject.branches[*]"⟩, ⟨"path.branch_id"⟩] := rfl
    rw [hpaths] at hp
    rcases List.mem_cons.mp hp with rfl | hp
    · have hr : Path.root? ⟨"subject.branches[*]"⟩ = some (.subject, "branches") := by
        decide +kernel
      rw [hr] at hroot
      cases hroot
      rfl
    · rw [List.mem_singleton.mp hp] at hroot
      have hr : Path.root? ⟨"path.branch_id"⟩ = some (.path, "branch_id") := by decide +kernel
      rw [hr] at hroot
      cases hroot
      rfl
  have hbody : ∀ m, m ≠ .body → (namedRequest "ann" []).attributes m =
      (namedRequest "ann" [("branch_id", .string "b2")]).attributes m := by
    intro m hm
    cases m with
    | body => exact absurd rfl hm
    | subject | resource | path | query | header => rfl
  have hnone : ∀ r ∈ [worksInBranch], ∀ p ∈ r.conditions.paths, p.namespace? ≠ some .body := by
    decide +kernel
  exact ⟨hagree, ((decide_noninterference _ _ _ _).1 hagree).1, hbody, hnone,
    (((decide_noninterference _ branchEndpoint _ _).2 .body hbody).2 hnone).2⟩

end Gatehouse
