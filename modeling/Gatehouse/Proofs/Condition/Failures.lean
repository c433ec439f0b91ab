import Gatehouse.Proofs.Condition.Decoding
import Gatehouse.Proofs.Condition.Places
import Gatehouse.Proofs.Explanation

/-!
# What an explanation tells

What this file fixes, and what it shows about `Condition.explain`:

* `Condition.Told`: the nodes that made a tree fail, as the least set with the root, with the first
  child that does not hold of each AND in the set, and with all children of each OR in it;
* `toldAt`: these nodes as a list; `mem_toldAt`: it has these nodes and no others;
  `toldAt_sublist`, `pairwise_places`: it has them in pre-order, each of them once;
* `lines_of_explainAt`: the walk that takes notes leaves the lines about these nodes;
* `Visited`, `Told.visited`: the walk has come to every one of them, and none of them holds;
* `failures_exact`: so the lines of an explanation are about the nodes that made the tree fail, one
  line each and in pre-order, indented by the way from the root.
-/

namespace Gatehouse.Condition

/-! ## 1. Nodes that made a tree fail -/

/-- The child at a position made its branch fail: the first that does not hold under AND, and every
    child under OR. -/
def BlamedIn (ctx : Context) (cs : List Condition) (i : Nat) : Logic → Prop
  | .and => (∃ c, cs[i]? = some c ∧ c.evaluate ctx = .ok false) ∧
      ∀ j c, j < i → cs[j]? = some c → c.evaluate ctx ≠ .ok false
  | .or => True

/-- The node at the end of the trail made the tree fail, in so far as the tree failed: it is the root,
    or a child that made such a node fail. -/
inductive Told (ctx : Context) (tree : Condition) : Trail → Condition → Prop
  | root : Told ctx tree [] tree
  | child {t : Trail} {logic : Logic} {cs : List Condition} {d : Option String} {i : Nat}
      {c : Condition} : Told ctx tree t (.branch logic cs d) → cs[i]? = some c →
      BlamedIn ctx cs i logic → Told ctx tree (t ++ [⟨i + 1, .ofDescription d⟩]) c

/-- The walk through the tree comes to the node at the end of the trail: it is the root, or a child
    of such a node after children that left the verdict open. -/
inductive Visited (ctx : Context) (tree : Condition) : Trail → Condition → Prop
  | root : Visited ctx tree [] tree
  | child {t : Trail} {logic : Logic} {cs : List Condition} {d : Option String} {i : Nat}
      {c : Condition} : Visited ctx tree t (.branch logic cs d) → cs[i]? = some c →
      (∀ j c, j < i → cs[j]? = some c → c.evaluate ctx = .ok !logic.decisive) →
      Visited ctx tree (t ++ [⟨i + 1, .ofDescription d⟩]) c

variable {ctx : Context} {logic : Logic} {cs : List Condition} {d : Option String}

/-- What made a child fail made the tree fail, one step further on. -/
theorem Told.cons {i : Nat} {c node : Condition} {t : Trail} (hc : cs[i]? = some c)
    (hi : BlamedIn ctx cs i logic) (h : c.Told ctx t node) :
    (branch logic cs d).Told ctx (⟨i + 1, .ofDescription d⟩ :: t) node := by
  induction h with
  | root => exact .child .root hc hi
  | child _ hc' hi' ih => exact .child ih hc' hi'

theorem told_branch_iff {t : Trail} {node : Condition} : (branch logic cs d).Told ctx t node ↔
    (t = [] ∧ node = .branch logic cs d) ∨
      ∃ i c t', cs[i]? = some c ∧ BlamedIn ctx cs i logic ∧ t = ⟨i + 1, .ofDescription d⟩ :: t' ∧
        c.Told ctx t' node := by
  constructor
  · intro h
    induction h with
    | root => exact Or.inl ⟨rfl, rfl⟩
    | child _ hc hi ih =>
        rcases ih with ⟨rfl, heq⟩ | ⟨j, c', t', hc', hj, rfl, hnode⟩
        · cases heq
          exact Or.inr ⟨_, _, [], hc, hi, rfl, .root⟩
        · exact Or.inr ⟨j, c', _, hc', hj, List.cons_append, .child hnode hc hi⟩
  · rintro (⟨rfl, rfl⟩ | ⟨i, c, t', hc, hi, rfl, hnode⟩)
    · exact .root
    · exact hnode.cons hc hi

theorem told_leaf_iff {l : Leaf} {t : Trail} {node : Condition} :
    (leaf l d).Told ctx t node ↔ t = [] ∧ node = .leaf l d := by
  constructor
  · intro h
    induction h with
    | root => exact ⟨rfl, rfl⟩
    | child _ _ _ ih => cases ih.2
  · rintro ⟨rfl, rfl⟩
    exact .root

/-! ## 2. The list of these nodes -/

mutual

/-- The places that are told of a tree that stands at the end of a trail. -/
def toldAt (ctx : Context) (trail : Trail) : Condition → List Place
  | .leaf l d => [⟨trail, .leaf l d⟩]
  | .branch .and cs d =>
      ⟨trail, .branch .and cs d⟩ :: toldOfFirst ctx trail (.ofDescription d) 1 cs
  | .branch .or cs d => ⟨trail, .branch .or cs d⟩ :: toldOfEach ctx trail (.ofDescription d) 1 cs

/-- The places that are told of the first child that does not hold. -/
def toldOfFirst (ctx : Context) (trail : Trail) (parent : Label) (index : Nat) :
    List Condition → List Place
  | [] => []
  | c :: cs =>
      if c.evaluate ctx = .ok false then toldAt ctx (trail ++ [⟨index, parent⟩]) c
      else toldOfFirst ctx trail parent (index + 1) cs

/-- The places that are told of every child. -/
def toldOfEach (ctx : Context) (trail : Trail) (parent : Label) (index : Nat) :
    List Condition → List Place
  | [] => []
  | c :: cs =>
      toldAt ctx (trail ++ [⟨index, parent⟩]) c ++ toldOfEach ctx trail parent (index + 1) cs

end

/-- A child that does not hold is the first to do so at the start of a list only. -/
theorem blamedIn_cons_of_false {c : Condition} (h : c.evaluate ctx = .ok false) {i : Nat} :
    BlamedIn ctx (c :: cs) i .and ↔ i = 0 := by
  constructor
  · intro ⟨_, hbefore⟩
    by_contra hi
    exact hbefore 0 c (Nat.pos_of_ne_zero hi) rfl h
  · rintro rfl
    exact ⟨⟨c, rfl, h⟩, fun j _ hj => absurd hj (Nat.not_lt_zero j)⟩

/-- Any other child is passed over. -/
theorem blamedIn_cons_of_ne {c : Condition} (h : c.evaluate ctx ≠ .ok false) {i : Nat} :
    BlamedIn ctx (c :: cs) i .and ↔ ∃ j, i = j + 1 ∧ BlamedIn ctx cs j .and := by
  constructor
  · intro ⟨⟨c', hc', hfalse⟩, hbefore⟩
    cases i with
    | zero =>
        cases hc'
        exact absurd hfalse h
    | succ i =>
        exact ⟨i, rfl, ⟨c', hc', hfalse⟩, fun j k hj hk => hbefore (j + 1) k (by omega) hk⟩
  · rintro ⟨i, rfl, ⟨c', hc', hfalse⟩, hbefore⟩
    refine ⟨⟨c', hc', hfalse⟩, fun j k hj hk => ?_⟩
    cases j with
    | zero =>
        cases hk
        exact h
    | succ j => exact hbefore j k (by omega) hk

/-- The places that are told of a branch are the branch itself and those told of its children. -/
theorem told_place_iff {trail u : Trail} {node : Condition} :
    ((u = trail ∧ node = .branch logic cs d) ∨
      ∃ i c t, cs[i]? = some c ∧ BlamedIn ctx cs i logic ∧
        u = trail ++ ⟨1 + i, .ofDescription d⟩ :: t ∧ c.Told ctx t node) ↔
    ∃ t, u = trail ++ t ∧ (branch logic cs d).Told ctx t node := by
  simp only [told_branch_iff]
  constructor
  · rintro (⟨rfl, rfl⟩ | ⟨i, c, t, hc, hi, rfl, hnode⟩)
    · exact ⟨[], (List.append_nil _).symm, Or.inl ⟨rfl, rfl⟩⟩
    · exact ⟨_, by rw [Nat.add_comm], Or.inr ⟨i, c, t, hc, hi, rfl, hnode⟩⟩
  · rintro ⟨_, rfl, ⟨rfl, rfl⟩ | ⟨i, c, t, hc, hi, rfl, hnode⟩⟩
    · exact Or.inl ⟨List.append_nil _, rfl⟩
    · exact Or.inr ⟨i, c, t, hc, hi, by rw [Nat.add_comm], hnode⟩

mutual

/-- **The list has the nodes that made the tree fail, and no others.** -/
theorem mem_toldAt : ∀ (c : Condition) {trail : Trail} {p : Place},
    p ∈ toldAt ctx trail c ↔ ∃ t, p.trail = trail ++ t ∧ c.Told ctx t p.node
  | .leaf l d, trail, ⟨u, node⟩ => by
      rw [toldAt, List.mem_singleton, Place.mk.injEq]
      simp only [told_leaf_iff]
      constructor
      · rintro ⟨rfl, rfl⟩
        exact ⟨[], (List.append_nil _).symm, rfl, rfl⟩
      · rintro ⟨t, rfl, rfl, rfl⟩
        exact ⟨List.append_nil _, rfl⟩
  | .branch .and cs d, trail, ⟨u, node⟩ => by
      rw [toldAt, List.mem_cons, Place.mk.injEq, mem_toldOfFirst cs]
      exact told_place_iff
  | .branch .or cs d, trail, ⟨u, node⟩ => by
      rw [toldAt, List.mem_cons, Place.mk.injEq, mem_toldOfEach cs]
      exact told_place_iff

theorem mem_toldOfFirst : ∀ (cs : List Condition) {trail : Trail} {parent : Label} {index : Nat}
    {p : Place}, p ∈ toldOfFirst ctx trail parent index cs ↔
      ∃ i c t, cs[i]? = some c ∧ BlamedIn ctx cs i .and ∧
        p.trail = trail ++ ⟨index + i, parent⟩ :: t ∧ c.Told ctx t p.node
  | [], _, _, _, p => by
      rw [toldOfFirst]
      constructor
      · intro hp
        cases hp
      · rintro ⟨i, c, t, hc, _⟩
        cases hc
  | c :: cs, trail, parent, index, p => by
      rw [toldOfFirst]
      by_cases hfalse : c.evaluate ctx = .ok false
      · rw [if_pos hfalse, mem_toldAt c]
        simp only [blamedIn_cons_of_false hfalse]
        constructor
        · rintro ⟨t, ht, hnode⟩
          exact ⟨0, c, t, rfl, rfl, by rw [ht, List.append_assoc]; rfl, hnode⟩
        · rintro ⟨i, c', t, hc', rfl, ht, hnode⟩
          cases hc'
          exact ⟨t, by rw [ht, List.append_assoc]; rfl, hnode⟩
      · rw [if_neg hfalse, mem_toldOfFirst cs]
        simp only [blamedIn_cons_of_ne hfalse]
        constructor
        · rintro ⟨i, c', t, hc', hi, ht, hnode⟩
          exact ⟨i + 1, c', t, hc', ⟨i, rfl, hi⟩, by rw [ht, Nat.add_assoc, Nat.add_comm 1], hnode⟩
        · rintro ⟨_, c', t, hc', ⟨i, rfl, hi⟩, ht, hnode⟩
          exact ⟨i, c', t, hc', hi, by rw [ht, Nat.add_assoc, Nat.add_comm 1], hnode⟩

theorem mem_toldOfEach : ∀ (cs : List Condition) {trail : Trail} {parent : Label} {index : Nat}
    {p : Place}, p ∈ toldOfEach ctx trail parent index cs ↔
      ∃ i c t, cs[i]? = some c ∧ BlamedIn ctx cs i .or ∧
        p.trail = trail ++ ⟨index + i, parent⟩ :: t ∧ c.Told ctx t p.node
  | [], _, _, _, p => by
      rw [toldOfEach]
      constructor
      · intro hp
        cases hp
      · rintro ⟨i, c, t, hc, _⟩
        cases hc
  | c :: cs, trail, parent, index, p => by
      rw [toldOfEach, List.mem_append, mem_toldAt c, mem_toldOfEach cs]
      constructor
      · rintro (⟨t, ht, hnode⟩ | ⟨i, c', t, hc', _, ht, hnode⟩)
        · exact ⟨0, c, t, rfl, trivial, by rw [ht, List.append_assoc]; rfl, hnode⟩
        · exact ⟨i + 1, c', t, hc', trivial, by rw [ht, Nat.add_assoc, Nat.add_comm 1], hnode⟩
      · rintro ⟨i, c', t, hc', _, ht, hnode⟩
        cases i with
        | zero =>
          cases hc'
          exact Or.inl ⟨t, by rw [ht, List.append_assoc]; rfl, hnode⟩
        | succ i =>
          exact Or.inr ⟨i, c', t, hc', trivial, by rw [ht, Nat.add_assoc, Nat.add_comm 1], hnode⟩

end

/-! ## 3. Pre-order -/

/-- Trails that start alike are compared where they go on. -/
theorem before_append_iff {t u : Trail} : ∀ trail : Trail,
    Trail.Before (trail ++ t) (trail ++ u) ↔ t.Before u
  | [] => Iff.rfl
  | f :: trail => by
      rw [List.cons_append, List.cons_append, Trail.before_cons_iff, before_append_iff trail]
      simp

mutual

/-- **The places of a tree stand in pre-order**, so that none of them stands there twice. -/
theorem pairwise_placesAt : ∀ (c : Condition) (trail : Trail),
    (placesAt trail c).Pairwise fun p q => p.trail.Before q.trail
  | .leaf l d, trail => by
      rw [placesAt]
      exact List.pairwise_singleton _ _
  | .branch logic cs d, trail => by
      rw [placesAt]
      refine List.pairwise_cons.mpr ⟨fun q hq => ?_, pairwise_placesAmong cs trail _ 1⟩
      obtain ⟨i, c, t, _, ht, _⟩ := (mem_placesAmong cs).mp hq
      have hbefore : Trail.Before (trail ++ []) (trail ++ ⟨1 + i, .ofDescription d⟩ :: t) :=
        (before_append_iff trail).mpr (List.nil_lt_cons _ _)
      rwa [List.append_nil, ← ht] at hbefore

theorem pairwise_placesAmong : ∀ (cs : List Condition) (trail : Trail) (parent : Label)
    (index : Nat), (placesAmong trail parent index cs).Pairwise fun p q => p.trail.Before q.trail
  | [], _, _, _ => by
      rw [placesAmong]
      exact .nil
  | c :: cs, trail, parent, index => by
      rw [placesAmong]
      refine List.pairwise_append.mpr
        ⟨pairwise_placesAt c _, pairwise_placesAmong cs trail parent (index + 1), ?_⟩
      intro p hp q hq
      obtain ⟨t, ht, _⟩ := (mem_placesAt c).mp hp
      obtain ⟨i, _, u, _, hu, _⟩ := (mem_placesAmong cs).mp hq
      rw [ht, hu, List.append_assoc]
      exact (before_append_iff trail).mpr (Trail.before_cons_iff.mpr (Or.inl (by simp; omega)))

end

mutual

theorem toldAt_sublist : ∀ (c : Condition) (trail : Trail),
    (toldAt ctx trail c).Sublist (placesAt trail c)
  | .leaf l d, trail => by
      rw [toldAt, placesAt]
  | .branch .and cs d, trail => by
      rw [toldAt, placesAt]
      exact (toldOfFirst_sublist cs trail _ 1).cons_cons _
  | .branch .or cs d, trail => by
      rw [toldAt, placesAt]
      exact (toldOfEach_sublist cs trail _ 1).cons_cons _

theorem toldOfFirst_sublist : ∀ (cs : List Condition) (trail : Trail) (parent : Label)
    (index : Nat),
    (toldOfFirst ctx trail parent index cs).Sublist (placesAmong trail parent index cs)
  | [], _, _, _ => by
      rw [toldOfFirst, placesAmong]
  | c :: cs, trail, parent, index => by
      rw [toldOfFirst, placesAmong]
      split
      · exact (toldAt_sublist c _).trans (List.sublist_append_left _ _)
      · exact (toldOfFirst_sublist cs trail parent (index + 1)).trans (List.sublist_append_right _ _)

theorem toldOfEach_sublist : ∀ (cs : List Condition) (trail : Trail) (parent : Label)
    (index : Nat),
    (toldOfEach ctx trail parent index cs).Sublist (placesAmong trail parent index cs)
  | [], _, _, _ => by
      rw [toldOfEach, placesAmong]
  | c :: cs, trail, parent, index => by
      rw [toldOfEach, placesAmong]
      exact (toldAt_sublist c _).append (toldOfEach_sublist cs trail parent (index + 1))

end

/-! ## 4. Lines -/

/-- What the line about a failed node starts with after its blanks: the attribute of a leaf, the
    logic of a branch. -/
def subject : Condition → String
  | .leaf l _ => l.path.text
  | .branch logic _ _ => logic.name

/-- The line about a failed node, which stands as deep as its trail is long. -/
def Place.line (ctx : Context) (p : Place) : String :=
  match p.node with
  | .leaf l d => l.failureLine ctx p.trail.length (.ofDescription d)
  | .branch logic [] d => emptyLine p.trail.length logic (.ofDescription d)
  | .branch logic (_ :: _) d => headLine p.trail.length logic (.ofDescription d)

/-- The line starts with two blanks for each step of the trail, and goes on with the subject. -/
theorem Place.prefix_line (ctx : Context) (p : Place) :
    List.replicate (2 * p.trail.length) ' ' ++ p.node.subject.toList <+: (p.line ctx).toList := by
  obtain ⟨trail, node⟩ := p
  cases node with
  | leaf l d =>
      simp only [line, subject, Leaf.failureLine, indent, String.toList_append,
        String.toList_ofList, List.append_assoc, List.prefix_append_right_inj, List.prefix_append]
  | branch logic cs d =>
      cases cs with
      | nil =>
          simp only [line, subject, emptyLine, indent, String.toList_append,
            String.toList_ofList, List.append_assoc, List.prefix_append_right_inj,
            List.prefix_append]
      | cons c cs =>
          simp only [line, subject, headLine, indent, String.toList_append,
            String.toList_ofList, List.append_assoc, List.prefix_append_right_inj,
            List.prefix_append]

/-- A tree that is explained has the verdict that the explanation tells, at any depth. -/
theorem evaluate_of_explainAt {c : Condition} {depth : Nat} {x : Explanation}
    (h : explainAt ctx depth c = .ok x) : c.evaluate ctx = .ok x.isMatched := by
  rw [← map_isMatched_explainAt c depth, h]
  rfl

/-- What is under a head line has failed with the lines after it. -/
theorem exists_of_map_under {head : String} {x : Except EvalError Explanation} {lines : List String}
    (h : x.map (under head) = .ok (.failed lines)) :
    ∃ more, x = .ok (.failed more) ∧ lines = head :: more := by
  cases x with
  | error e => cases h
  | ok y =>
      cases y with
      | matched => cases h
      | failed more =>
          cases h
          exact ⟨more, rfl, rfl⟩

mutual

/-- **The walk that takes notes leaves the lines about the nodes that made the tree fail.** -/
theorem lines_eq_of_explainAt : ∀ (c : Condition) (trail : Trail) {lines : List String},
    explainAt ctx trail.length c = .ok (.failed lines) →
    lines = (toldAt ctx trail c).map (Place.line ctx)
  | .leaf l d, trail, lines, h => by
      rw [explainAt] at h
      cases hl : l.evaluate ctx with
      | error e =>
          rw [hl] at h
          cases h
      | ok b =>
          rw [hl] at h
          cases b with
          | true => cases h
          | false =>
              cases h
              rfl
  | .branch logic [] d, trail, lines, h => by
      rw [explainAt] at h
      cases h
      cases logic <;> rfl
  | .branch .and (c :: cs) d, trail, lines, h => by
      rw [explainAt] at h
      obtain ⟨more, hmore, rfl⟩ := exists_of_map_under h
      rw [toldAt, List.map_cons, ← lines_eq_of_explainAll (c :: cs) trail _ 1 hmore]
      rfl
  | .branch .or (c :: cs) d, trail, lines, h => by
      rw [explainAt] at h
      obtain ⟨more, hmore, rfl⟩ := exists_of_map_under h
      rw [toldAt, List.map_cons, ← lines_eq_of_explainAny (c :: cs) trail _ 1 hmore]
      rfl

theorem lines_eq_of_explainAll : ∀ (cs : List Condition) (trail : Trail) (parent : Label)
    (index : Nat) {lines : List String},
    explainAll ctx (trail.length + 1) cs = .ok (.failed lines) →
    lines = (toldOfFirst ctx trail parent index cs).map (Place.line ctx)
  | [], _, _, _, _, h => by
      rw [explainAll] at h
      cases h
  | c :: cs, trail, parent, index, lines, h => by
      have hdepth : trail.length + 1 = (trail ++ [(⟨index, parent⟩ : Frame)]).length := by
        rw [List.length_append, List.length_singleton]
      rw [explainAll] at h
      cases hc : explainAt ctx (trail.length + 1) c with
      | error e =>
          rw [hc] at h
          cases h
      | ok x =>
          rw [hc] at h
          cases x with
          | matched =>
              -- a child that holds leaves nothing behind
              have hholds : c.evaluate ctx = .ok true := evaluate_of_explainAt hc
              rw [toldOfFirst, hholds, if_neg (by decide)]
              exact lines_eq_of_explainAll cs trail parent (index + 1) h
          | failed ls =>
              have hfails : c.evaluate ctx = .ok false := evaluate_of_explainAt hc
              cases h
              rw [toldOfFirst, hfails, if_pos rfl]
              exact lines_eq_of_explainAt c _ (hdepth ▸ hc)

theorem lines_eq_of_explainAny : ∀ (cs : List Condition) (trail : Trail) (parent : Label)
    (index : Nat) {lines : List String},
    explainAny ctx (trail.length + 1) cs = .ok (.failed lines) →
    lines = (toldOfEach ctx trail parent index cs).map (Place.line ctx)
  | [], _, _, _, _, h => by
      rw [explainAny] at h
      cases h
      rfl
  | c :: cs, trail, parent, index, lines, h => by
      have hdepth : trail.length + 1 = (trail ++ [(⟨index, parent⟩ : Frame)]).length := by
        rw [List.length_append, List.length_singleton]
      rw [explainAny] at h
      cases hc : explainAt ctx (trail.length + 1) c with
      | error e =>
          rw [hc] at h
          cases h
      | ok x =>
          rw [hc] at h
          cases x with
          | matched => cases h
          | failed ls =>
              simp only at h
              cases hcs : explainAny ctx (trail.length + 1) cs with
              | error e =>
                  rw [hcs] at h
                  cases h
              | ok y =>
                  rw [hcs] at h
                  cases y with
                  | matched => cases h
                  | failed more =>
                      cases h
                      rw [toldOfEach, List.map_append,
                        ← lines_eq_of_explainAt c _ (hdepth ▸ hc),
                        ← lines_eq_of_explainAny cs trail parent (index + 1) hcs]

end

/-! ## 5. Verdicts -/

/-- The branch was visited with children that left it open, up to the one that made it fail. -/
theorem before_of_blamedIn (h : (branch logic cs d).evaluate ctx = .ok false) {i : Nat}
    {c : Condition} (hc : cs[i]? = some c) (hi : BlamedIn ctx cs i logic) :
    c.evaluate ctx = .ok false ∧
      ∀ j k, j < i → cs[j]? = some k → k.evaluate ctx = .ok !logic.decisive := by
  obtain ⟨k, ks, rfl⟩ : ∃ k ks, cs = k :: ks :=
    List.exists_cons_of_ne_nil fun hnil => by rw [hnil] at hc; cases hc
  rw [evaluate_branch] at h
  cases logic with
  | or =>
      have hall := evaluate_of_walk_other h
      exact ⟨hall c (List.mem_of_getElem? hc),
        fun j k' _ hk' => hall k' (List.mem_of_getElem? hk')⟩
  | and =>
      obtain ⟨⟨c', hc', hfalse⟩, hfirst⟩ := hi
      obtain rfl : c' = c := Option.some.inj (hc'.symm.trans hc)
      obtain ⟨m, cm, hm, hdecisive, hbefore⟩ := exists_first_of_walk_decisive h
      -- the walk stopped at a child that does not hold, and there is none before the first
      have hle : i ≤ m := by
        by_contra hlt
        exact hfirst m cm (by omega) hm hdecisive
      exact ⟨hfalse, fun j k' hj hk' => hbefore j k' (by omega) hk'⟩

/-- **Nothing is told of a node that holds or was never reached.** -/
theorem Told.visited {tree node : Condition} {t : Trail} (htree : tree.evaluate ctx = .ok false)
    (h : tree.Told ctx t node) : node.evaluate ctx = .ok false ∧ tree.Visited ctx t node := by
  induction h with
  | root => exact ⟨htree, .root⟩
  | child _ hc hi ih =>
      obtain ⟨hfalse, hbefore⟩ := before_of_blamedIn ih.1 hc hi
      exact ⟨hfalse, .child ih.2 hc hbefore⟩

/-- **An explanation lists exactly the conditions that made the tree fail.** If a tree is explained
    and fails, its lines are about the nodes that are told, one line about each, in pre-order. The
    line about a node starts with two blanks for each step from the root, and then the attribute of a
    leaf or the logic of a branch. Every such node was reached and does not hold. -/
theorem failures_exact {tree : Condition} {lines : List String}
    (h : tree.explain ctx = .ok (.failed lines)) :
    ∃ ps : List Place,
      (∀ p : Place, p ∈ ps ↔ tree.Told ctx p.trail p.node) ∧
      (ps.Pairwise fun p q => p.trail.Before q.trail) ∧
      lines = ps.map (Place.line ctx) ∧
      ∀ p ∈ ps,
        List.replicate (2 * p.trail.length) ' ' ++ p.node.subject.toList <+:
          (p.line ctx).toList ∧
        p.node.evaluate ctx = .ok false ∧ tree.Visited ctx p.trail p.node := by
  have hfails : tree.evaluate ctx = .ok false := evaluate_of_explain h
  have hmem : ∀ p : Place, p ∈ toldAt ctx [] tree ↔ tree.Told ctx p.trail p.node := by
    intro p
    rw [mem_toldAt]
    constructor
    · rintro ⟨t, ht, htold⟩
      rwa [ht]
    · intro htold
      exact ⟨p.trail, rfl, htold⟩
  refine ⟨toldAt ctx [] tree, hmem, ?_, lines_eq_of_explainAt tree [] h, fun p hp => ?_⟩
  · exact (pairwise_placesAt tree []).sublist (toldAt_sublist tree [])
  · exact ⟨p.prefix_line ctx, ((hmem p).mp hp).visited hfails⟩

/-- Holds for subjects who are known, and who either own the draft or may review it in time. -/
def draftReview : Condition :=
  .branch .and
    [.leaf ⟨⟨"subject.id"⟩, .isNotNull, .absent, none⟩ none,
      .branch .or
        [.leaf ⟨⟨"subject.id"⟩, .equals, .path ⟨"resource.by"⟩, none⟩ (some "own"),
          .branch .and
            [.leaf ⟨⟨"subject.roles"⟩, .contains, .literal (.string "editor"), none⟩ none,
              .leaf ⟨⟨"resource.state"⟩, .equals, .literal (.string "draft"), none⟩ none,
              .leaf ⟨⟨"resource.due"⟩, .isNotNull, .absent, none⟩ none]
            (some "review")]
        none,
      .leaf ⟨⟨"subject.blocked"⟩, .isNull, .absent, none⟩ none]
    none

/-- An editor who asks for the published text of another. -/
def publishedText : Context where
  subject := [("blocked", .bool true), ("id", .string "C2"), ("roles", .array [.string "editor"])]
  resource := [("by", .string "C1"), ("state", .string "published")]
  path := []
  body := []
  query := []
  header := []

/-- Of the eight nodes five are told: the first check and the role hold, and the due date and the block
    were never looked at. -/
theorem failures_exact_review :
    draftReview.explain publishedText = .ok (.failed
      ["AND group did not match",
        "  OR group did not match",
        "    subject.id Equals failed ('own'): value \"C2\", expected to equal resource.by (\"C1\")",
        "    AND group ('review') did not match",
        "      resource.state Equals failed: value \"published\", expected to equal \"draft\""]) ∧
    ∃ ps : List Place,
      (∀ p : Place, p ∈ ps ↔ draftReview.Told publishedText p.trail p.node) ∧ ps.length = 5 := by
  have h : draftReview.explain publishedText = .ok (.failed
      ["AND group did not match",
        "  OR group did not match",
        "    subject.id Equals failed ('own'): value \"C2\", expected to equal resource.by (\"C1\")",
        "    AND group ('review') did not match",
        "      resource.state Equals failed: value \"published\", expected to equal \"draft\""]) := by
    decide +kernel
  obtain ⟨ps, hmem, _, hlines, _⟩ := failures_exact h
  have hlength := congrArg List.length hlines
  rw [List.length_map] at hlength
  exact ⟨h, ps, hmem, hlength.symm⟩

end Gatehouse.Condition
