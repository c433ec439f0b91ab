import Gatehouse.Condition.Validity
import Gatehouse.Proofs.Condition.Places
import Gatehouse.Proofs.Path

/-!
# What valid trees are made of

What this file fixes, and what it shows about `Condition.validate`:

* `Leaf.WellFormed`, `Condition.NodeWellFormed`: what a node must be by itself, at its depth;
* `flaw?_eq_none_iff`, `nodeFlaw?_eq_none_iff`: the leaves, and the nodes, that are without flaw;
* `violation?_eq_findSome?`: the check goes through the nodes in pre-order, with a trail that always
  leads to the node at hand. Every other statement about valid trees is read off this one;
* `violation?_eq_none_iff`: valid trees are those whose nodes are well formed, wherever they stand;
* `flaw?_of_violation`: so every leaf of a valid tree is without flaw.
-/

namespace Gatehouse

/-! ## 1. Leaves -/

namespace Leaf

variable {limits : Limits} {l : Leaf}

/-- What is asked of a leaf: to check a well-formed path, to have a comparand where its operator
    needs one, none where the limits forbid it, and a well-formed path as its comparand if that is
    one. -/
structure WellFormed (limits : Limits) (l : Leaf) : Prop where
  named : l.path.isEmpty = false
  compared : l.operator.arity = .binary → l.comparand ≠ .absent
  uncompared : l.operator.arity = .unary → limits.rejectUnaryComparand = true →
    l.comparand = .absent
  path : l.path.WellFormed
  comparandPath : ∀ p, l.comparand = .path p → p.WellFormed

/-- Leaves are without flaw exactly if they are well formed. -/
theorem flaw?_eq_none_iff : l.flaw? limits = none ↔ l.WellFormed limits := by
  unfold flaw?
  cases hempty : l.path.isEmpty with
  | true =>
      rw [if_pos rfl]
      refine iff_of_false (Option.some_ne_none _) fun h => ?_
      rw [h.named] at hempty
      cases hempty
  | false =>
      rw [if_neg Bool.false_ne_true]
      by_cases hbinary : l.operator.arity = .binary ∧ l.comparand = .absent
      · rw [if_pos hbinary]
        exact iff_of_false (Option.some_ne_none _) fun h => h.compared hbinary.1 hbinary.2
      rw [if_neg hbinary]
      by_cases hunary : l.operator.arity = .unary ∧ l.comparand ≠ .absent ∧
          limits.rejectUnaryComparand
      · rw [if_pos hunary]
        exact iff_of_false (Option.some_ne_none _)
          fun h => hunary.2.1 (h.uncompared hunary.1 hunary.2.2)
      rw [if_neg hunary]
      have hneeds : l.operator.arity = .binary → l.comparand ≠ .absent :=
        fun ha hc => hbinary ⟨ha, hc⟩
      have hforbids : l.operator.arity = .unary → limits.rejectUnaryComparand = true →
          l.comparand = .absent :=
        fun ha hr => Decidable.byContradiction fun hc => hunary ⟨ha, hc, hr⟩
      cases hcheck : l.path.check with
      | error e =>
          refine iff_of_false (Option.some_ne_none _) fun h => ?_
          obtain ⟨n, hn⟩ := h.path
          rw [hcheck] at hn
          cases hn
      | ok n =>
          cases hc : l.comparand with
          | absent | literal v =>
              refine iff_of_true rfl ⟨hempty, hneeds, hforbids, ⟨n, hcheck⟩, fun p hp => ?_⟩
              rw [hc] at hp
              cases hp
          | path p =>
              cases hp : p.check with
              | error e =>
                  refine iff_of_false (by simp [hp]) fun h => ?_
                  obtain ⟨m, hm⟩ := h.comparandPath p hc
                  rw [hp] at hm
                  cases hm
              | ok m =>
                  refine iff_of_true (by simp [hp])
                    ⟨hempty, hneeds, hforbids, ⟨n, hcheck⟩, fun q hq => ?_⟩
                  rw [hc] at hq
                  cases hq
                  exact ⟨m, hp⟩

end Leaf

/-! ## 2. Nodes -/

namespace Condition

variable {limits : Limits}

/-- What is asked of the root of a tree, if it lies at a depth: not to lie too deep, and to be a
    well-formed leaf or to have children. -/
def NodeWellFormed (limits : Limits) (depth : Nat) : Condition → Prop
  | .leaf l _ => depth ≤ limits.maxDepth ∧ l.WellFormed limits
  | .branch _ cs _ => depth ≤ limits.maxDepth ∧ cs ≠ []

/-- The flaw of the root, if it has one; a node is not looked at any closer where it lies too
    deep. -/
def nodeFlaw? (limits : Limits) (depth : Nat) (c : Condition) : Option Flaw :=
  if limits.maxDepth < depth then some (.tooDeep limits.maxDepth)
  else match c with
    | .leaf l _ => l.flaw? limits
    | .branch logic cs _ => if cs.isEmpty then some (.emptyBranch logic) else none

/-- The test finds nothing exactly at well-formed nodes. -/
theorem nodeFlaw?_eq_none_iff {c : Condition} {depth : Nat} :
    c.nodeFlaw? limits depth = none ↔ c.NodeWellFormed limits depth := by
  unfold nodeFlaw?
  by_cases hdeep : limits.maxDepth < depth
  · rw [if_pos hdeep]
    have hnot : ¬ depth ≤ limits.maxDepth := Nat.not_le.mpr hdeep
    cases c with
    | leaf l d => simp [NodeWellFormed, hnot]
    | branch logic cs d => simp [NodeWellFormed, hnot]
  · rw [if_neg hdeep]
    have hle : depth ≤ limits.maxDepth := Nat.not_lt.mp hdeep
    cases c with
    | leaf l d => simp only [NodeWellFormed, hle, true_and, Leaf.flaw?_eq_none_iff]
    | branch logic cs d => simp [NodeWellFormed, hle]

/-! ## 3. Trees -/

theorem validate_eq_ok_iff {c : Condition} :
    c.validate limits = .ok () ↔ c.violation? limits = none := by
  unfold validate
  cases c.violation? limits with
  | none => exact ⟨fun _ => rfl, fun _ => rfl⟩
  | some v => exact ⟨nofun, nofun⟩

theorem validate_eq_error_iff {c : Condition} {v : Violation} :
    c.validate limits = .error v ↔ c.violation? limits = some v := by
  unfold validate
  cases c.violation? limits with
  | none => exact ⟨nofun, nofun⟩
  | some w => rw [Except.error.injEq, Option.some.injEq]

/-- The violation of the node at a place, if it has a flaw there. The root of a tree lies at depth 1,
    and every step of the trail leads one level down. -/
def Place.violation? (limits : Limits) (p : Place) : Option Violation :=
  (p.node.nodeFlaw? limits (p.trail.length + 1)).map fun f => ⟨p.trail, p.node.label, f⟩

mutual

/-- The check of a tree at the end of a trail goes through its places in order. -/
theorem violationAt?_eq_findSome? : ∀ (c : Condition) (trail : Trail),
    violationAt? limits (trail.length + 1) trail c =
      (placesAt trail c).findSome? (Place.violation? limits)
  | .leaf l d, trail => by
      rw [violationAt?, placesAt, List.findSome?_singleton, Place.violation?, nodeFlaw?]
      split <;> rfl
  | .branch logic cs d, trail => by
      rw [violationAt?, placesAt, List.findSome?_cons, Place.violation?, nodeFlaw?,
        violationAmong?_eq_findSome? cs trail _ 1]
      split
      · rfl
      · simp only
        split <;> rfl

theorem violationAmong?_eq_findSome? : ∀ (cs : List Condition) (trail : Trail) (parent : Label)
    (index : Nat), violationAmong? limits (trail.length + 1 + 1) trail parent index cs =
      (placesAmong trail parent index cs).findSome? (Place.violation? limits)
  | [], _, _, _ => by
      rw [violationAmong?, placesAmong]
      rfl
  | c :: cs, trail, parent, index => by
      have hc := violationAt?_eq_findSome? c (trail ++ [⟨index, parent⟩])
      rw [List.length_append, List.length_singleton] at hc
      rw [violationAmong?, placesAmong, List.findSome?_append, ← hc,
        ← violationAmong?_eq_findSome? cs trail parent (index + 1)]
      cases violationAt? limits (trail.length + 1 + 1) (trail ++ [⟨index, parent⟩]) c <;> rfl

end

/-- **The nodes are looked at in pre-order.** -/
theorem violation?_eq_findSome? (limits : Limits) (c : Condition) :
    c.violation? limits = c.places.findSome? (Place.violation? limits) :=
  violationAt?_eq_findSome? c []

/-- A place is without violation exactly if its node is well formed. -/
theorem Place.violation?_eq_none_iff {p : Place} :
    p.violation? limits = none ↔ p.node.NodeWellFormed limits (p.trail.length + 1) := by
  rw [Place.violation?, Option.map_eq_none_iff, nodeFlaw?_eq_none_iff]

/-- **The valid trees are those whose nodes are well formed**, each at its depth. -/
theorem violation?_eq_none_iff {c : Condition} : c.violation? limits = none ↔
    ∀ t node, c.HasAt t node → node.NodeWellFormed limits (t.length + 1) := by
  rw [violation?_eq_findSome?, List.findSome?_eq_none_iff]
  constructor
  · intro h t node hnode
    exact Place.violation?_eq_none_iff.mp (h ⟨t, node⟩ (mem_places.mpr hnode))
  · intro h p hp
    exact Place.violation?_eq_none_iff.mpr (h p.trail p.node (mem_places.mp hp))

/-- No node of a valid tree lies too deep. -/
theorem length_lt_of_violation {c : Condition} (h : c.violation? limits = none) {t : Trail}
    {node : Condition} (hnode : c.HasAt t node) : t.length < limits.maxDepth := by
  have hwell := violation?_eq_none_iff.mp h t node hnode
  cases node with
  | leaf l d => exact hwell.1
  | branch logic cs d => exact hwell.1

/-- **Every leaf of a valid tree is without flaw.** -/
theorem flaw?_of_violation {c : Condition} (h : c.violation? limits = none) :
    ∀ l ∈ c.leaves, l.flaw? limits = none := by
  intro l hl
  obtain ⟨t, d, hleaf⟩ := exists_hasAt_leaf c hl
  exact Leaf.flaw?_eq_none_iff.mpr (violation?_eq_none_iff.mp h t _ hleaf).2

end Condition

end Gatehouse
