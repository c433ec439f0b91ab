import Gatehouse.Engine
import Gatehouse.Proofs.Admission
import Gatehouse.Proofs.Condition.Validity
import Gatehouse.Proofs.Decision
import Gatehouse.Proofs.Resolution
import Gatehouse.Proofs.Rule

/-!
# Errors of valid conditions

What this file shows: a valid tree fails only for what the request lacks or has of the wrong kind.

* `Leaf.Explains`: what must hold of a leaf that an error names;
* `Leaf.explains_of_sidesAgree`, `Leaf.explains_of_listContains`: an equation fails for a missing
  side, a search for a value that is no list or a missing comparand;
* `Leaf.explains_of_error`: so every error of a leaf without flaw is explained by the leaf;
* `evaluation_error_explained`: so is every error of a valid tree, and no decision of a loaded
  bundle notes a missing comparand.
-/

namespace Gatehouse

/-! ## 1. Errors of operators -/

namespace Operands

variable {x : Operands} {o : Operator} {e : EvalError}

/-- An equation fails for an absent left side, else for its comparand. -/
theorem sidesAgree_error (h : x.sidesAgree o = .error e) :
    (x.value = .absent ∧ e = .missingAttribute x.path o) ∨
      ((∃ v, x.value = .present v) ∧ x.comparandValue o = .error e) := by
  unfold sidesAgree at h
  cases hv : x.value with
  | absent =>
      rw [hv] at h
      cases h
      exact Or.inl ⟨rfl, rfl⟩
  | present v =>
      rw [hv] at h
      cases hc : x.comparandValue o with
      | ok w => rw [hc] at h; cases h
      | error e' =>
          rw [hc] at h
          cases h
          exact Or.inr ⟨⟨v, rfl⟩, rfl⟩

/-- A search fails for a value that is no list, else for its comparand. -/
theorem listContains_error (h : x.listContains = .error e) :
    (∃ v, x.value = .present v ∧ (∀ items, v ≠ .array items) ∧
      e = .typeMismatch x.path .contains v.kindName) ∨
    ((∃ items, x.value = .present (.array items)) ∧ x.comparandValue .contains = .error e) := by
  unfold listContains at h
  split at h
  · cases h
  · rename_i items hv
    cases hc : x.comparandValue .contains with
    | ok w => rw [hc] at h; cases h
    | error e' =>
        rw [hc] at h
        cases h
        exact Or.inr ⟨⟨items, hv⟩, rfl⟩
  · rename_i v hne hv
    cases h
    exact Or.inl ⟨v, hv, hne, rfl⟩

end Operands

/-! ## 2. Errors of leaves -/

namespace Leaf

variable {ctx : Context} {l : Leaf}

/-- The leaf explains the error: what the error says of it is so in the context. A missing
    comparand is never explained. -/
def Explains (ctx : Context) (l : Leaf) : EvalError → Prop
  | .missingAttribute p o =>
      l.operator = o ∧ p.WellFormed ∧ ctx.resolve p = .absent ∧
        ((o = .equals ∨ o = .notEquals) ∧ (p = l.path ∨ l.comparand = .path p) ∨
          o = .contains ∧ l.comparand = .path p ∧
            ∃ items, ctx.resolve l.path = .present (.array items))
  | .typeMismatch p o found =>
      l.operator = o ∧ o = .contains ∧ p = l.path ∧ ¬ p.FansOut ∧
        ∃ v, ctx.resolve p = .present v ∧ (∀ items, v ≠ .array items) ∧ found = v.kindName
  | .missingComparand _ _ => False

/-- A comparand that is there fails only if it is a path that leads nowhere. -/
theorem comparandValue_error {o : Operator} {e : EvalError} (hc : l.comparand ≠ .absent)
    (h : (l.operands ctx).comparandValue o = .error e) :
    ∃ p, l.comparand = .path p ∧ ctx.resolve p = .absent ∧ e = .missingAttribute p o := by
  unfold Operands.comparandValue operands at h
  cases hl : l.comparand with
  | absent => exact absurd hl hc
  | literal v => rw [hl] at h; cases h
  | path p =>
      rw [hl, Comparand.resolve] at h
      cases hp : ctx.resolve p with
      | present v => rw [hp] at h; cases h
      | absent =>
          rw [hp] at h
          cases h
          exact ⟨p, rfl, hp, rfl⟩

/-- An error of an equation is explained by the side that is missing. -/
theorem explains_of_sidesAgree {limits : Limits} (hl : l.flaw? limits = none) {o : Operator}
    (ho : o = .equals ∨ o = .notEquals) (hlo : l.operator = o) {e : EvalError}
    (h : (l.operands ctx).sidesAgree o = .error e) : l.Explains ctx e := by
  obtain ⟨_, hneeds, _, hpath, hcomparand⟩ := flaw?_eq_none_iff.mp hl
  have hc : l.comparand ≠ .absent := by
    refine hneeds ?_
    rcases ho with rfl | rfl <;> rw [hlo] <;> rfl
  rcases Operands.sidesAgree_error h with ⟨hv, rfl⟩ | ⟨_, hs⟩
  · exact ⟨hlo, hpath, hv, Or.inl ⟨ho, Or.inl rfl⟩⟩
  · obtain ⟨p, hp, habsent, rfl⟩ := comparandValue_error hc hs
    exact ⟨hlo, hcomparand p hp, habsent, Or.inl ⟨ho, Or.inr hp⟩⟩

/-- An error of a search is explained by a value that is no list, which no wildcard leads to, or by
    the missing comparand. -/
theorem explains_of_listContains {limits : Limits} (hl : l.flaw? limits = none)
    (ho : l.operator = .contains) {e : EvalError} (h : (l.operands ctx).listContains = .error e) :
    l.Explains ctx e := by
  obtain ⟨_, hneeds, _, _, hcomparand⟩ := flaw?_eq_none_iff.mp hl
  have hc : l.comparand ≠ .absent := by
    refine hneeds ?_
    rw [ho]
    rfl
  rcases Operands.listContains_error h with ⟨v, hv, hlist, rfl⟩ | ⟨⟨items, hv⟩, hs⟩
  · refine ⟨ho, rfl, rfl, fun hfan => ?_, v, hv, hlist, rfl⟩
    obtain ⟨items, hi⟩ := Context.resolve_fanOut hfan hv
    exact hlist items hi
  · obtain ⟨p, hp, habsent, rfl⟩ := comparandValue_error hc hs
    exact ⟨ho, hcomparand p hp, habsent, Or.inr ⟨rfl, hp, items, hv⟩⟩

/-- **Every error of a leaf without flaw is explained by the leaf.** -/
theorem explains_of_error {limits : Limits} (hl : l.flaw? limits = none) {e : EvalError}
    (h : l.evaluate ctx = .error e) : l.Explains ctx e := by
  unfold evaluate Operator.apply at h
  split at h
  · rename_i ho
    exact explains_of_sidesAgree hl (Or.inl rfl) ho h
  · rename_i ho
    cases hs : (l.operands ctx).sidesAgree .notEquals with
    | ok b => rw [hs] at h; cases h
    | error e' =>
        rw [hs] at h
        cases h
        exact explains_of_sidesAgree hl (Or.inr rfl) ho hs
  · cases h
  · cases h
  · rename_i ho
    exact explains_of_listContains hl ho h

end Leaf

/-! ## 3. Errors of trees and bundles -/

/-- Every error of a valid tree is explained by one of its leaves. -/
theorem Condition.error_explained {limits : Limits} {c : Condition}
    (hc : c.violation? limits = none) {ctx : Context} {e : EvalError}
    (h : c.evaluate ctx = .error e) : ∃ l ∈ c.leaves, l.Explains ctx e := by
  obtain ⟨l, hl, hx⟩ := evaluate_error_leaf c h
  exact ⟨l, hl, Leaf.explains_of_error (flaw?_of_violation hc l hl) hx⟩

/-- Every failure that a decision of a bundle without fault notes is explained by a leaf of the
    rule that failed. -/
theorem Bundle.failure_explained {limits : Limits} {b : Bundle} (hb : b.fault? limits = none)
    {subject : Attributes} {q : Request} {d : Decision} (hd : b.decideRequest? subject q = some d)
    {f : RuleFailure} (hf : f ∈ d.errors) :
    ∃ r ∈ b.rules, ∃ l ∈ r.conditions.leaves, f.rule = r.ref ∧
      l.Explains (.ofRequest subject q) f.error := by
  obtain ⟨e, _, rfl⟩ := Option.map_eq_some_iff.mp hd
  obtain ⟨r, hr, x, hx, rfl⟩ := Endpoint.mem_errors_decide hf
  have hmem : r ∈ b.rules := (List.mem_filter.mp hr).1
  have hvalid := Rule.violation?_of_check (check_of_fault hb r hmem)
  obtain ⟨l, hl, hex⟩ := Condition.error_explained hvalid hx
  exact ⟨r, hmem, l, hl, rfl, hex⟩

/-- **Errors are honest**: an error of a valid tree is never a missing comparand and is explained
    by one of the leaves; and no decision of a loaded bundle notes a missing comparand. -/
theorem evaluation_error_explained (limits : Limits) :
    (∀ (c : Condition) (ctx : Context) (e : EvalError), c.validate limits = .ok () →
      c.evaluate ctx = .error e →
      (∀ p o, e ≠ .missingComparand p o) ∧ ∃ l ∈ c.leaves, l.Explains ctx e) ∧
    (∀ (f : Format) (text : String) (b : Bundle), Bundle.load f text limits = .ok b →
      ∀ (subject : Attributes) (q : Request) (d : Decision),
        b.decideRequest? subject q = some d →
        ∀ failure ∈ d.errors, ∀ p o, failure.error ≠ .missingComparand p o) := by
  refine ⟨fun c ctx e hc he => ?_, fun f text b hb subject q d hd failure hf p o hmissing => ?_⟩
  · obtain ⟨l, hl, hex⟩ := Condition.error_explained (Condition.validate_eq_ok_iff.mp hc) he
    refine ⟨fun p o hmissing => ?_, l, hl, hex⟩
    rw [hmissing] at hex
    exact hex
  · obtain ⟨_, _, l, _, _, hex⟩ := Bundle.failure_explained (Bundle.load_eq_ok_iff.mp hb).2 hd hf
    rw [hmissing] at hex
    exact hex

/-! ## A search for something that the request lacks -/

/-- Lets the members of a branch pass. -/
def ownBranch : Condition :=
  .leaf ⟨⟨"subject.branches[*]"⟩, .contains, .path ⟨"path.branch"⟩, none⟩ none

/-- One endpoint with one rule. -/
def branchBundle : Bundle :=
  ⟨"1.0", [⟨.zero, .get, "/branches", false, none⟩],
    [⟨.zero, "own branch", none, .allow, .zero, ownBranch⟩]⟩

/-- The bundle as a document. -/
def branchText : String :=
  "\x7b\"version\":\"1.0\",
    \"endpoints\":[\x7b\"id\":\"00000000-0000-0000-0000-000000000000\",
      \"method\":\"GET\",\"path\":\"/branches\"\x7d],
    \"policies\":[\x7b\"id\":\"00000000-0000-0000-0000-000000000000\",
      \"name\":\"own branch\",\"effect\":\"Allow\",
      \"end_point_id\":\"00000000-0000-0000-0000-000000000000\",
      \"conditions\":\x7b\"leaf\":\x7b\"attribute\":\"subject.branches[*]\",
        \"operator\":\"Contains\",\"resource_attribute\":\"path.branch\"\x7d\x7d\x7d]\x7d"

/-- A subject without branches. -/
def branchless : Attributes := [("branches", .array [])]

/-- Asks for all branches, and so names none. -/
def allBranches : Request := ⟨.get, "/branches", none, none, none, none, none⟩

theorem load_branchText : Bundle.load .json branchText .standard = .ok branchBundle := by
  refine Bundle.load_eq_ok_iff.mpr ⟨?_, by decide +kernel⟩
  unfold Format.read? branchText
  rw [Json.read?_ofList]
  decide +kernel

/-- The list is there and what to search for is not: the error names the comparand. -/
theorem evaluation_error_explained_branches :
    ownBranch.validate .standard = .ok () ∧
    ownBranch.evaluate (.ofRequest branchless allBranches) =
      .error (.missingAttribute ⟨"path.branch"⟩ .contains) ∧
    (∃ l ∈ ownBranch.leaves, l.Explains (.ofRequest branchless allBranches)
      (.missingAttribute ⟨"path.branch"⟩ .contains)) ∧
    Bundle.load .json branchText .standard = .ok branchBundle ∧
    ∃ d failure, branchBundle.decideRequest? branchless allBranches = some d ∧
      failure ∈ d.errors ∧ ∀ p o, failure.error ≠ .missingComparand p o := by
  have hvalid : ownBranch.validate .standard = .ok () := rfl
  have herror : ownBranch.evaluate (.ofRequest branchless allBranches) =
      .error (.missingAttribute ⟨"path.branch"⟩ .contains) := rfl
  have hdecision : branchBundle.decideRequest? branchless allBranches =
      some ⟨.allowed, none, "no policy matched; endpoint allows unmatched requests",
        [⟨⟨.zero, "own branch", .allow⟩, .missingAttribute ⟨"path.branch"⟩ .contains⟩]⟩ := by
    decide +kernel
  exact ⟨hvalid, herror, ((evaluation_error_explained .standard).1 _ _ _ hvalid herror).2,
    load_branchText, _, _, hdecision, List.mem_singleton_self _,
    (evaluation_error_explained .standard).2 _ _ _ load_branchText _ _ _ hdecision _
      (List.mem_singleton_self _)⟩

end Gatehouse
