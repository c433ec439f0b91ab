import Gatehouse.Proofs.Condition.Validity

/-!
# The flaw that a tree is refused for

What this file fixes, and what it shows about `Condition.validate`:

* `Condition.Breaks`: when a node breaks a rule, and which flaw that is, said without the check;
* `nodeWellFormed_iff`: well-formed nodes are those that break no rule;
* `length_of_tooDeep`: a tree that is too deep is refused right below the limit;
* `validation_exact`: the trees of well-formed nodes are accepted, and every other tree is refused
  for its first node that breaks a rule.
-/

namespace Gatehouse.Condition

variable {limits : Limits} {depth : Nat}

/-! ## 1. Rules for nodes -/

/-- The root of the tree, if it lies at a depth, breaks a rule, and this is its flaw. -/
inductive Breaks (limits : Limits) (depth : Nat) : Condition → Flaw → Prop
  | tooDeep {c : Condition} : limits.maxDepth < depth →
      Breaks limits depth c (.tooDeep limits.maxDepth)
  | emptyBranch {logic : Logic} {d : Option String} :
      Breaks limits depth (.branch logic [] d) (.emptyBranch logic)
  | missingAttribute {l : Leaf} {d : Option String} : l.path.isEmpty = true →
      Breaks limits depth (.leaf l d) .missingAttribute
  | missingComparand {l : Leaf} {d : Option String} : l.operator.arity = .binary →
      l.comparand = .absent → Breaks limits depth (.leaf l d) (.missingComparand l.path l.operator)
  | unexpectedComparand {l : Leaf} {d : Option String} : l.operator.arity = .unary →
      l.comparand ≠ .absent → limits.rejectUnaryComparand = true →
      Breaks limits depth (.leaf l d) (.unexpectedComparand l.path l.operator)
  | invalidPath {l : Leaf} {d : Option String} {e : PathError} : l.path.check = .error e →
      Breaks limits depth (.leaf l d) (.invalidPath .checked l.path e)
  | invalidComparand {l : Leaf} {d : Option String} {p : Path} {e : PathError} :
      l.comparand = .path p → p.check = .error e →
      Breaks limits depth (.leaf l d) (.invalidPath .comparand p e)

/-- What the test of a leaf finds is a flaw. -/
theorem breaks_of_leafFlaw? {l : Leaf} {d : Option String} {f : Flaw}
    (h : l.flaw? limits = some f) : Breaks limits depth (.leaf l d) f := by
  unfold Leaf.flaw? at h
  split at h
  · rename_i hempty
    cases h
    exact .missingAttribute hempty
  split at h
  · rename_i hmissing
    cases h
    exact .missingComparand hmissing.1 hmissing.2
  split at h
  · rename_i hunexpected
    cases h
    exact .unexpectedComparand hunexpected.1 hunexpected.2.1 hunexpected.2.2
  split at h
  · rename_i e hcheck
    cases h
    exact .invalidPath hcheck
  · split at h
    · rename_i p hcomparand
      split at h
      · rename_i e hp
        cases h
        exact .invalidComparand hcomparand hp
      · cases h
    · cases h

/-- What the test finds is a flaw. -/
theorem breaks_of_nodeFlaw? {c : Condition} {f : Flaw} (h : c.nodeFlaw? limits depth = some f) :
    c.Breaks limits depth f := by
  unfold nodeFlaw? at h
  split at h
  · rename_i hdeep
    cases h
    exact .tooDeep hdeep
  · match c with
    | .leaf l d => exact breaks_of_leafFlaw? h
    | .branch logic [] d =>
        cases h
        exact .emptyBranch
    | .branch logic (c :: cs) d => cases h

/-- **Well-formed nodes are those that break no rule.** -/
theorem nodeWellFormed_iff {c : Condition} :
    c.NodeWellFormed limits depth ↔ ∀ f, ¬ c.Breaks limits depth f := by
  constructor
  · intro hc f hf
    cases hf with
    | tooDeep hdeep =>
        have hle : depth ≤ limits.maxDepth := by
          cases c with
          | leaf l d => exact hc.1
          | branch logic cs d => exact hc.1
        omega
    | emptyBranch => exact hc.2 rfl
    | missingAttribute hempty =>
        rw [hc.2.named] at hempty
        cases hempty
    | missingComparand hbinary habsent => exact hc.2.compared hbinary habsent
    | unexpectedComparand hunary hpresent hreject =>
        exact hpresent (hc.2.uncompared hunary hreject)
    | invalidPath hcheck =>
        obtain ⟨n, hn⟩ := hc.2.path
        rw [hcheck] at hn
        cases hn
    | invalidComparand hcomparand hcheck =>
        obtain ⟨n, hn⟩ := hc.2.comparandPath _ hcomparand
        rw [hcheck] at hn
        cases hn
  · intro hnone
    rw [← nodeFlaw?_eq_none_iff]
    exact Option.eq_none_iff_forall_ne_some.mpr fun f hf => hnone f (breaks_of_nodeFlaw? hf)

/-! ## 2. Trees that are too deep -/

mutual

/-- A tree that is too deep is refused as soon as the limit is passed: where its root lies no deeper
    than one level below the limit, the node it is refused for lies at this level. -/
theorem length_of_tooDeep : ∀ (c : Condition) {depth n : Nat} {trail : Trail} {v : Violation},
    violationAt? limits depth trail c = some v → v.flaw = .tooDeep n →
    depth ≤ limits.maxDepth + 1 → v.trail.length + depth = trail.length + (limits.maxDepth + 1)
  | .leaf l d, depth, n, trail, v, h, hflaw, hdepth => by
      rw [violationAt?] at h
      split at h
      · cases h
        have hend : depth = limits.maxDepth + 1 := by omega
        rw [hend]
      · obtain ⟨f, hf, rfl⟩ := Option.map_eq_some_iff.mp h
        -- a flaw of the leaf itself is none of its depth, so it is one at any depth
        have hbreaks : Breaks limits 0 (.leaf l d) (.tooDeep n) :=
          breaks_of_leafFlaw? (hf.trans (congrArg some hflaw))
        cases hbreaks with
        | tooDeep hdeep => omega
  | .branch logic cs d, depth, n, trail, v, h, hflaw, hdepth => by
      rw [violationAt?] at h
      split at h
      · cases h
        have hend : depth = limits.maxDepth + 1 := by omega
        rw [hend]
      · split at h
        · cases h
          cases hflaw
        · have hcs := length_of_tooDeep_among cs h hflaw (by omega)
          omega

theorem length_of_tooDeep_among : ∀ (cs : List Condition) {depth n : Nat} {trail : Trail}
    {parent : Label} {index : Nat} {v : Violation},
    violationAmong? limits depth trail parent index cs = some v → v.flaw = .tooDeep n →
    depth ≤ limits.maxDepth + 1 → v.trail.length + depth = trail.length + 1 + (limits.maxDepth + 1)
  | [], _, _, _, _, _, _, h, _, _ => by
      rw [violationAmong?] at h
      cases h
  | c :: cs, depth, n, trail, parent, index, v, h, hflaw, hdepth => by
      rw [violationAmong?] at h
      split at h
      · rename_i w hc
        cases h
        have hlength := length_of_tooDeep c hc hflaw hdepth
        rw [List.length_append, List.length_singleton] at hlength
        exact hlength
      · exact length_of_tooDeep_among cs h hflaw hdepth

end

/-! ## 3. The first flaw -/

/-- **Exactly the trees of well-formed nodes are accepted, and every other tree is refused for the
    first of its nodes in pre-order that breaks a rule.** The trail leads to this node, through
    branches with the descriptions that it names, and the flaw is one that the node has. A tree that
    is too deep is refused for a node right below the limit. -/
theorem validation_exact (limits : Limits) (c : Condition) :
    (c.validate limits = .ok () ↔
      ∀ t node, c.HasAt t node → node.NodeWellFormed limits (t.length + 1)) ∧
    ∀ v, c.validate limits = .error v →
      ∃ earlier node later, c.places = earlier ++ ⟨v.trail, node⟩ :: later ∧
        c.HasAt v.trail node ∧ v.node = node.label ∧
        node.Breaks limits (v.trail.length + 1) v.flaw ∧
        (∀ p ∈ earlier, ∀ f, ¬ p.node.Breaks limits (p.trail.length + 1) f) ∧
        ∀ n, v.flaw = .tooDeep n → n = limits.maxDepth ∧ v.trail.length = limits.maxDepth := by
  constructor
  · rw [validate_eq_ok_iff, violation?_eq_none_iff]
  · intro v hv
    have hviolation : c.violation? limits = some v := validate_eq_error_iff.mp hv
    have hfirst := hviolation
    rw [violation?_eq_findSome?, List.findSome?_eq_some_iff] at hfirst
    obtain ⟨earlier, ⟨t, node⟩, later, hplaces, hp, hearlier⟩ := hfirst
    obtain ⟨f, hf, rfl⟩ := Option.map_eq_some_iff.mp hp
    have hmem : (⟨t, node⟩ : Place) ∈ c.places := by
      rw [hplaces]
      exact List.mem_append_right _ List.mem_cons_self
    have hbreaks := breaks_of_nodeFlaw? hf
    refine ⟨earlier, node, later, hplaces, mem_places.mp hmem, rfl, hbreaks, ?_, ?_⟩
    · intro p hp'
      exact nodeWellFormed_iff.mp (Place.violation?_eq_none_iff.mp (hearlier p hp'))
    · intro n hn
      have hlength := length_of_tooDeep c hviolation hn (by omega)
      obtain rfl : f = .tooDeep n := hn
      cases hbreaks
      exact ⟨rfl, by simpa using hlength⟩

/-- Subjects with one of two roles, the second as given. -/
def rolesCondition (second : Comparand) : Condition :=
  .branch .and [
    .leaf ⟨⟨"subject.id"⟩, .isNotNull, .absent, none⟩ none,
    .branch .or [
      .leaf ⟨⟨"subject.roles[*].id"⟩, .contains, .literal (.string "editor"), none⟩ none,
      .leaf ⟨⟨"subject.roles[*].id"⟩, .contains, second, none⟩ none] (some "Roles")] (some "Root")

/-- The step to a child of the root, and the step on to a child of the branch for the roles. -/
def rolesTrail (index : Nat) : Trail := [⟨2, ⟨some "Root"⟩⟩, ⟨index, ⟨some "Roles"⟩⟩]

/-- With two roles the tree is accepted. Without the second it is refused for the second leaf of the
    second child; and where only two levels are allowed, for the leaf before that one, which is the
    first node on the third level. -/
theorem validation_exact_roles :
    (rolesCondition (.literal (.string "owner"))).validate .standard = .ok () ∧
    (∀ t node, (rolesCondition (.literal (.string "owner"))).HasAt t node →
      node.NodeWellFormed .standard (t.length + 1)) ∧
    (rolesCondition .absent).validate .standard =
      .error ⟨rolesTrail 2, ⟨none⟩, .missingComparand ⟨"subject.roles[*].id"⟩ .contains⟩ ∧
    (∃ node, (rolesCondition .absent).HasAt (rolesTrail 2) node ∧
      node.Breaks .standard 3 (.missingComparand ⟨"subject.roles[*].id"⟩ .contains)) ∧
    (rolesCondition .absent).validate ⟨true, 2⟩ = .error ⟨rolesTrail 1, ⟨none⟩, .tooDeep 2⟩ ∧
    (rolesTrail 1).length = 2 := by
  have hvalid : (rolesCondition (.literal (.string "owner"))).validate .standard = .ok () := by
    decide +kernel
  have hmissing : (rolesCondition .absent).validate .standard =
      .error ⟨rolesTrail 2, ⟨none⟩, .missingComparand ⟨"subject.roles[*].id"⟩ .contains⟩ := by
    decide +kernel
  have hdeep : (rolesCondition .absent).validate ⟨true, 2⟩ =
      .error ⟨rolesTrail 1, ⟨none⟩, .tooDeep 2⟩ := by
    decide +kernel
  obtain ⟨_, node, _, _, hnode, _, hbreaks, _⟩ := (validation_exact _ _).2 _ hmissing
  obtain ⟨_, _, _, _, _, _, _, _, hlength⟩ := (validation_exact _ _).2 _ hdeep
  exact ⟨hvalid, (validation_exact _ _).1.mp hvalid, hmissing, ⟨node, hnode, hbreaks⟩, hdeep,
    (hlength 2 rfl).2⟩

end Gatehouse.Condition
