import Gatehouse.Proofs.Condition.Leaves

/-!
# Places in trees

What this file fixes:

* `Condition.HasAt`: the node of a tree that a trail leads to; `exists_hasAt_leaf`: a trail leads to
  every leaf;
* `Condition.Place`, `Condition.places`: the nodes of a tree in pre-order, each with the trail to it;
* `mem_places`: these are the nodes that trails lead to.
-/

namespace Gatehouse.Condition

/-! ## 1. Trails and nodes -/

/-- The trail leads from the root of the tree to the node. A step names the branch that it starts
    from by its description, and the child that it leads to by its position, counted from 1. -/
inductive HasAt : Condition → Trail → Condition → Prop
  | root (c : Condition) : HasAt c [] c
  | child {logic : Logic} {cs : List Condition} {d : Option String} {i : Nat} {c node : Condition}
      {t : Trail} : cs[i]? = some c → HasAt c t node →
      HasAt (.branch logic cs d) (⟨i + 1, .ofDescription d⟩ :: t) node

theorem hasAt_leaf {l : Leaf} {d : Option String} {t : Trail} {node : Condition} :
    (leaf l d).HasAt t node ↔ t = [] ∧ node = .leaf l d := by
  constructor
  · intro h
    cases h
    exact ⟨rfl, rfl⟩
  · rintro ⟨rfl, rfl⟩
    exact .root _

theorem hasAt_branch {logic : Logic} {cs : List Condition} {d : Option String} {t : Trail}
    {node : Condition} : (branch logic cs d).HasAt t node ↔
      (t = [] ∧ node = .branch logic cs d) ∨
      ∃ i c t', cs[i]? = some c ∧ t = ⟨i + 1, .ofDescription d⟩ :: t' ∧ c.HasAt t' node := by
  constructor
  · intro h
    cases h with
    | root => exact Or.inl ⟨rfl, rfl⟩
    | child hc hnode => exact Or.inr ⟨_, _, _, hc, rfl, hnode⟩
  · rintro (⟨rfl, rfl⟩ | ⟨i, c, t', hc, rfl, hnode⟩)
    · exact .root _
    · exact .child hc hnode

/-- What a child has, its parent has one step further on. -/
theorem exists_hasAt_of_mem {cs : List Condition} {c node : Condition} {t : Trail} (hc : c ∈ cs)
    (h : c.HasAt t node) (logic : Logic) (d : Option String) :
    ∃ f, (branch logic cs d).HasAt (f :: t) node := by
  obtain ⟨i, hi⟩ := List.getElem?_of_mem hc
  exact ⟨_, .child hi h⟩

mutual

/-- Every leaf of a tree stands at the end of a trail. -/
theorem exists_hasAt_leaf {l : Leaf} : ∀ c : Condition, l ∈ c.leaves →
    ∃ t d, c.HasAt t (.leaf l d)
  | .leaf l' d, h => by
      rw [List.mem_singleton.mp h]
      exact ⟨[], d, .root _⟩
  | .branch logic cs d, h => by
      obtain ⟨c, hc, t, d', hleaf⟩ := exists_hasAt_leafAmong cs h
      obtain ⟨f, hf⟩ := exists_hasAt_of_mem hc hleaf logic d
      exact ⟨f :: t, d', hf⟩

theorem exists_hasAt_leafAmong {l : Leaf} : ∀ cs : List Condition, l ∈ leavesAmong cs →
    ∃ c ∈ cs, ∃ t d, c.HasAt t (.leaf l d)
  | [], h => absurd h List.not_mem_nil
  | c :: cs, h => by
      rcases List.mem_append.mp h with h | h
      · exact ⟨c, List.mem_cons_self, exists_hasAt_leaf c h⟩
      · obtain ⟨c', hc', hleaf⟩ := exists_hasAt_leafAmong cs h
        exact ⟨c', List.mem_cons_of_mem _ hc', hleaf⟩

end

/-! ## 2. Pre-order -/

/-- A node of a tree with the trail to it. -/
structure Place where
  trail : Trail
  node : Condition
  deriving DecidableEq, Repr

mutual

/-- The places of a tree that stands at the end of a trail: its root, and then those of one child
    after the other. -/
def placesAt (trail : Trail) : Condition → List Place
  | .leaf l d => [⟨trail, .leaf l d⟩]
  | .branch logic cs d =>
      ⟨trail, .branch logic cs d⟩ :: placesAmong trail (.ofDescription d) 1 cs

/-- The places of the children of a node, counted from `index`. -/
def placesAmong (trail : Trail) (parent : Label) (index : Nat) : List Condition → List Place
  | [] => []
  | c :: cs =>
      placesAt (trail ++ [⟨index, parent⟩]) c ++ placesAmong trail parent (index + 1) cs

end

/-- The nodes of a tree in pre-order. -/
def places (c : Condition) : List Place := placesAt [] c

mutual

theorem mem_placesAt : ∀ (c : Condition) {trail : Trail} {p : Place},
    p ∈ placesAt trail c ↔ ∃ t, p.trail = trail ++ t ∧ c.HasAt t p.node
  | .leaf l d, trail, ⟨u, node⟩ => by
      rw [placesAt, List.mem_singleton, Place.mk.injEq]
      simp only [hasAt_leaf]
      constructor
      · rintro ⟨rfl, rfl⟩
        exact ⟨[], (List.append_nil _).symm, rfl, rfl⟩
      · rintro ⟨t, rfl, rfl, rfl⟩
        exact ⟨List.append_nil _, rfl⟩
  | .branch logic cs d, trail, ⟨u, node⟩ => by
      rw [placesAt, List.mem_cons, Place.mk.injEq, mem_placesAmong cs]
      simp only [hasAt_branch]
      constructor
      · rintro (⟨rfl, rfl⟩ | ⟨i, c, t, hc, rfl, hnode⟩)
        · exact ⟨[], (List.append_nil _).symm, Or.inl ⟨rfl, rfl⟩⟩
        · exact ⟨_, by rw [Nat.add_comm], Or.inr ⟨i, c, t, hc, rfl, hnode⟩⟩
      · rintro ⟨_, rfl, ⟨rfl, rfl⟩ | ⟨i, c, t, hc, rfl, hnode⟩⟩
        · exact Or.inl ⟨List.append_nil _, rfl⟩
        · exact Or.inr ⟨i, c, t, hc, by rw [Nat.add_comm], hnode⟩

theorem mem_placesAmong : ∀ (cs : List Condition) {trail : Trail} {parent : Label} {index : Nat}
    {p : Place}, p ∈ placesAmong trail parent index cs ↔
      ∃ i c t, cs[i]? = some c ∧ p.trail = trail ++ ⟨index + i, parent⟩ :: t ∧ c.HasAt t p.node
  | [], _, _, _, p => by
      rw [placesAmong]
      constructor
      · intro hp
        cases hp
      · rintro ⟨i, c, t, hc, _⟩
        cases hc
  | c :: cs, trail, parent, index, p => by
      rw [placesAmong, List.mem_append, mem_placesAt c, mem_placesAmong cs]
      constructor
      · rintro (⟨t, ht, hnode⟩ | ⟨i, c', t, hc', ht, hnode⟩)
        · exact ⟨0, c, t, rfl, by rw [ht, List.append_assoc]; rfl, hnode⟩
        · exact ⟨i + 1, c', t, hc', by rw [ht, Nat.add_assoc, Nat.add_comm 1], hnode⟩
      · rintro ⟨i, c', t, hc', ht, hnode⟩
        cases i with
        | zero =>
          cases hc'
          exact Or.inl ⟨t, by rw [ht, List.append_assoc]; rfl, hnode⟩
        | succ i => exact Or.inr ⟨i, c', t, hc', by rw [ht, Nat.add_assoc, Nat.add_comm 1], hnode⟩

end

/-- **The places of a tree are the nodes that trails lead to.** -/
theorem mem_places {c : Condition} {p : Place} : p ∈ c.places ↔ c.HasAt p.trail p.node := by
  rw [places, mem_placesAt]
  constructor
  · rintro ⟨t, ht, hnode⟩
    rw [ht]
    exact hnode
  · intro hnode
    exact ⟨p.trail, rfl, hnode⟩

end Gatehouse.Condition
