import Gatehouse.Proofs.Condition.Leaves
import Mathlib.Data.List.Perm.Basic

/-!
# The order of conditions

What this file fixes, and what it shows about `Condition.evaluate`:

* `Condition.meaning`: what a tree says of a context where the order of conditions plays no part:
  that it holds, that it does not, or neither, since conditions that matter have errors;
* `meaning_of_evaluate`: a verdict is the meaning of the tree. Where a tree has a meaning, its walk
  may still end with an error, since it looks at one child after the other;
* `Condition.Reordered`: the trees that differ in the order of children only. Their meanings are
  the same (`meaning_of_reordered`), and so are their leaves but for the order;
* `verdict_of_reordered`: reordering never turns a verdict into the opposite one, and changes
  nothing at all where no leaf has an error.
-/

namespace Gatehouse

/-! ## 1. Meanings of branches -/

namespace Logic

/-- What a branch says whose children say this. A child with the decisive verdict decides it,
    whatever the others say; a branch without children does not hold. -/
def joined (logic : Logic) (vs : List (Option Bool)) : Option Bool :=
  if vs = [] then some false
  else if some logic.decisive ∈ vs then some logic.decisive
  else if none ∈ vs then none
  else some !logic.decisive

/-- **The order of the children plays no part.** -/
theorem joined_perm (logic : Logic) {vs ws : List (Option Bool)} (h : vs.Perm ws) :
    logic.joined vs = logic.joined ws := by
  have hnil : vs = [] ↔ ws = [] := by
    constructor
    · rintro rfl
      exact List.nil_perm.mp h
    · rintro rfl
      exact List.perm_nil.mp h
  have hdecisive : some logic.decisive ∈ vs ↔ some logic.decisive ∈ ws := h.mem_iff
  have hnone : none ∈ vs ↔ none ∈ ws := h.mem_iff
  simp only [joined, hnil, hdecisive, hnone]

theorem joined_of_mem {logic : Logic} {vs : List (Option Bool)}
    (h : some logic.decisive ∈ vs) : logic.joined vs = some logic.decisive := by
  have hnil : vs ≠ [] := List.ne_nil_of_mem h
  rw [joined, if_neg hnil, if_pos h]

/-- A branch in which no child has the decisive verdict, and all have one, has the other verdict. -/
theorem joined_of_forall {logic : Logic} {vs : List (Option Bool)} (hnil : vs ≠ [])
    (h : ∀ v ∈ vs, v = some !logic.decisive) : logic.joined vs = some !logic.decisive := by
  have hdecisive : some logic.decisive ∉ vs := by
    intro hmem
    have heq := Option.some.inj (h _ hmem)
    cases logic <;> cases heq
  have hnone : none ∉ vs := by
    intro hmem
    cases h _ hmem
  rw [joined, if_neg hnil, if_neg hdecisive, if_neg hnone]

end Logic

namespace Condition

variable {ctx : Context}

/-! ## 2. Meanings of trees -/

mutual

/-- What a tree says of a context, whatever the order of its conditions. -/
def meaning (ctx : Context) : Condition → Option Bool
  | .leaf l _ => (l.evaluate ctx).toOption
  | .branch logic cs _ => logic.joined (meanings ctx cs)

/-- What trees say of a context, one by one. -/
def meanings (ctx : Context) : List Condition → List (Option Bool)
  | [] => []
  | c :: cs => meaning ctx c :: meanings ctx cs

end

theorem meanings_eq_map : ∀ cs : List Condition, meanings ctx cs = cs.map (meaning ctx)
  | [] => by rw [meanings, List.map_nil]
  | c :: cs => by rw [meanings, meanings_eq_map cs, List.map_cons]

mutual

/-- **A verdict is the meaning of the tree.** -/
theorem meaning_of_evaluate : ∀ (c : Condition) {b : Bool}, c.evaluate ctx = .ok b →
    c.meaning ctx = some b
  | .leaf l _, b, h => by
      rw [evaluate] at h
      rw [meaning, h]
      rfl
  | .branch logic [] _, b, h => by
      rw [evaluate] at h
      cases h
      rw [meaning, meanings, Logic.joined, if_pos rfl]
  | .branch logic (c :: cs) _, b, h => by
      rw [evaluate_branch] at h
      rw [meaning]
      by_cases hb : b = logic.decisive
      · subst hb
        exact Logic.joined_of_mem (decisive_mem_meanings (c :: cs) h)
      · obtain rfl : b = !logic.decisive := Bool.eq_not.mpr hb
        refine Logic.joined_of_forall ?_ (meanings_of_walk (c :: cs) h)
        rw [meanings]
        exact List.cons_ne_nil _ _

/-- A walk with a decisive verdict has found a tree with this verdict. -/
theorem decisive_mem_meanings {logic : Logic} : ∀ cs : List Condition,
    walk ctx logic cs = .ok logic.decisive → some logic.decisive ∈ meanings ctx cs
  | [], h => by
      rw [walk] at h
      exact absurd (Except.ok.inj h) (Bool.not_eq_self _).mp
  | c :: cs, h => by
      rw [meanings]
      rcases walk_cases ctx logic c cs with ⟨e, _, hw⟩ | ⟨hc, _⟩ | ⟨_, hw⟩
      · rw [hw] at h
        cases h
      · exact meaning_of_evaluate c hc ▸ List.mem_cons_self
      · rw [hw] at h
        exact List.mem_cons_of_mem _ (decisive_mem_meanings cs h)

/-- A walk with the other verdict has seen that all trees have this one. -/
theorem meanings_of_walk {logic : Logic} : ∀ cs : List Condition,
    walk ctx logic cs = .ok !logic.decisive → ∀ v ∈ meanings ctx cs, v = some !logic.decisive
  | [], _ => by
      rw [meanings]
      exact fun _ hv => nomatch hv
  | c :: cs, h => by
      rw [meanings]
      rcases walk_cases ctx logic c cs with ⟨e, _, hw⟩ | ⟨_, hw⟩ | ⟨hc, hw⟩
      · rw [hw] at h
        cases h
      · rw [hw] at h
        exact absurd (Except.ok.inj h).symm (Bool.not_eq_self _).mp
      · rw [hw] at h
        exact List.forall_mem_cons.mpr ⟨meaning_of_evaluate c hc, meanings_of_walk cs h⟩

end

/-! ## 3. Trees in another order -/

mutual

/-- The second tree is the first with the children of some branches in another order, at any
    depth. -/
inductive Reordered : Condition → Condition → Prop where
  | leaf (l : Leaf) (d : Option String) : Reordered (.leaf l d) (.leaf l d)
  | branch {cs each cs' : List Condition} (logic : Logic) (d : Option String)
      (heach : ReorderedEach cs each) (hperm : each.Perm cs') :
      Reordered (.branch logic cs d) (.branch logic cs' d)

/-- Each of the trees has been reordered by itself. -/
inductive ReorderedEach : List Condition → List Condition → Prop where
  | nil : ReorderedEach [] []
  | cons {c c' : Condition} {cs cs' : List Condition} (hc : Reordered c c')
      (hcs : ReorderedEach cs cs') : ReorderedEach (c :: cs) (c' :: cs')

end

mutual

/-- Leaving all branches as they are is an order, too. -/
theorem Reordered.refl : ∀ c : Condition, c.Reordered c
  | .leaf l d => .leaf l d
  | .branch logic cs d => .branch logic d (ReorderedEach.refl cs) (.refl cs)

theorem ReorderedEach.refl : ∀ cs : List Condition, ReorderedEach cs cs
  | [] => .nil
  | c :: cs => .cons (Reordered.refl c) (ReorderedEach.refl cs)

end

mutual

/-- **Trees in another order mean the same.** -/
theorem meaning_of_reordered : ∀ {c c' : Condition}, c.Reordered c' →
    c.meaning ctx = c'.meaning ctx
  | _, _, .leaf _ _ => rfl
  | _, _, .branch logic d heach hperm => by
      have hmeanings := meanings_of_reorderedEach heach
      rw [meaning, meaning, hmeanings, meanings_eq_map, meanings_eq_map]
      exact logic.joined_perm (hperm.map _)

theorem meanings_of_reorderedEach : ∀ {cs cs' : List Condition}, ReorderedEach cs cs' →
    meanings ctx cs = meanings ctx cs'
  | _, _, .nil => rfl
  | _, _, .cons hc hcs => by
      rw [meanings, meanings, meaning_of_reordered hc, meanings_of_reorderedEach hcs]

end

mutual

/-- Trees in another order have the same leaves in another order. -/
theorem leaves_of_reordered : ∀ {c c' : Condition}, c.Reordered c' → c.leaves.Perm c'.leaves
  | _, _, .leaf _ _ => .refl _
  | _, _, .branch _ _ heach hperm => by
      have hmoved := hperm.flatMap_right leaves
      rw [← leavesAmong_eq_flatMap, ← leavesAmong_eq_flatMap] at hmoved
      rw [leaves, leaves]
      exact (leaves_of_reorderedEach heach).trans hmoved

theorem leaves_of_reorderedEach : ∀ {cs cs' : List Condition}, ReorderedEach cs cs' →
    (leavesAmong cs).Perm (leavesAmong cs')
  | _, _, .nil => .refl _
  | _, _, .cons hc hcs => by
      rw [leavesAmong, leavesAmong]
      exact (leaves_of_reordered hc).append (leaves_of_reorderedEach hcs)

end

/-! ## 4. Verdicts -/

/-- A tree has a verdict if all its leaves have one. -/
theorem exists_verdict_of_leaves {c : Condition} (h : ∀ l ∈ c.leaves, ∃ b, l.evaluate ctx = .ok b) :
    ∃ b, c.evaluate ctx = .ok b := by
  cases hc : c.evaluate ctx with
  | ok b => exact ⟨b, rfl⟩
  | error e =>
    obtain ⟨l, hl, herror⟩ := evaluate_error_leaf c hc
    obtain ⟨b, hb⟩ := h l hl
    rw [herror] at hb
    cases hb

/-- Two verdicts on a tree and on the tree in another order are the same. -/
theorem verdict_eq_of_reordered {c c' : Condition} (h : c.Reordered c') {b b' : Bool}
    (hc : c.evaluate ctx = .ok b) (hc' : c'.evaluate ctx = .ok b') : b = b' := by
  have hb := meaning_of_evaluate c hc
  have hb' := meaning_of_evaluate c' hc'
  rw [meaning_of_reordered h, hb'] at hb
  exact (Option.some.inj hb).symm

/-- **Reordering conditions never flips a verdict.** Whatever the order of the children of branches
    at any depth, the tree and the reordered tree never have opposite verdicts, so one of them can
    have a verdict and the other an error at most. Where no leaf has an error, the outcome is the
    same in any order. -/
theorem verdict_of_reordered {c c' : Condition} (h : c.Reordered c') (ctx : Context) :
    (∀ b, ¬ (c.evaluate ctx = .ok b ∧ c'.evaluate ctx = .ok !b)) ∧
    ((∀ l ∈ c.leaves, ∃ b, l.evaluate ctx = .ok b) → c.evaluate ctx = c'.evaluate ctx) := by
  constructor
  · rintro b ⟨hc, hc'⟩
    have heq : b = !b := verdict_eq_of_reordered h hc hc'
    cases b <;> cases heq
  · intro hleaves
    have hleaves' : ∀ l ∈ c'.leaves, ∃ b, l.evaluate ctx = .ok b := by
      intro l hl
      exact hleaves l ((leaves_of_reordered h).mem_iff.mpr hl)
    obtain ⟨b, hc⟩ := exists_verdict_of_leaves hleaves
    obtain ⟨b', hc'⟩ := exists_verdict_of_leaves hleaves'
    rw [hc, hc', verdict_eq_of_reordered h hc hc']

/-- Subjects with the given role. -/
def roleLeaf (role : String) : Condition :=
  .leaf ⟨⟨"subject.role"⟩, .equals, .literal (.string role), none⟩ none

/-- Requests from the tenant of the subject. -/
def tenantLeaf : Condition := .leaf ⟨⟨"subject.tenant"⟩, .equals, .path ⟨"resource.tenant"⟩, none⟩ none

/-- Guests, or editors of the tenant, with the conditions on editors in the given order. -/
def guestsOr (editors : List Condition) : Condition :=
  .branch .or [.branch .and editors none, roleLeaf "guest"] none

/-- The same with the guests first. -/
def guestsFirst (editors : List Condition) : Condition :=
  .branch .or [roleLeaf "guest", .branch .and editors none] none

/-- The claims of a guest without tenant. -/
def guestContext : Context := ⟨[("role", .string "guest")], [], [], [], [], []⟩

theorem reordered_guestsOr {editors each editors' : List Condition}
    (heach : ReorderedEach editors each) (hperm : each.Perm editors') :
    (guestsOr editors).Reordered (guestsFirst editors') :=
  .branch .or none
    (.cons (.branch .and none heach hperm) (.cons (.refl (roleLeaf "guest")) .nil))
    (.swap _ _ _)

/-- The tenant of the guest is looked at only where the guests come last and it comes first: the
    verdict becomes an error then, and stays what it is in the other orders. Without the condition
    on the tenant the order changes nothing. -/
theorem verdict_of_reordered_guest :
    (guestsOr [tenantLeaf, roleLeaf "editor"]).Reordered
      (guestsFirst [roleLeaf "editor", tenantLeaf]) ∧
    (guestsOr [tenantLeaf, roleLeaf "editor"]).evaluate guestContext =
      .error (.missingAttribute ⟨"subject.tenant"⟩ .equals) ∧
    (guestsFirst [roleLeaf "editor", tenantLeaf]).evaluate guestContext = .ok true ∧
    (guestsOr [roleLeaf "editor", tenantLeaf]).evaluate guestContext = .ok true ∧
    (∀ b, ¬ ((guestsOr [tenantLeaf, roleLeaf "editor"]).evaluate guestContext = .ok b ∧
      (guestsFirst [roleLeaf "editor", tenantLeaf]).evaluate guestContext = .ok !b)) ∧
    (guestsOr [roleLeaf "editor"]).evaluate guestContext =
      (guestsFirst [roleLeaf "editor"]).evaluate guestContext := by
  have hswapped : (guestsOr [tenantLeaf, roleLeaf "editor"]).Reordered
      (guestsFirst [roleLeaf "editor", tenantLeaf]) :=
    reordered_guestsOr (.refl _) (.swap _ _ _)
  have hsame : (guestsOr [roleLeaf "editor"]).Reordered (guestsFirst [roleLeaf "editor"]) :=
    reordered_guestsOr (.refl _) (.refl _)
  have hleaves : ∀ l ∈ (guestsOr [roleLeaf "editor"]).leaves,
      ∃ b, l.evaluate guestContext = .ok b := by
    intro l hl
    rcases List.mem_cons.mp hl with rfl | hl
    · exact ⟨false, by decide +kernel⟩
    · rw [List.mem_singleton.mp hl]
      exact ⟨true, by decide +kernel⟩
  exact ⟨hswapped, by decide +kernel, by decide +kernel, by decide +kernel,
    (verdict_of_reordered hswapped guestContext).1,
    (verdict_of_reordered hsame guestContext).2 hleaves⟩

end Condition

end Gatehouse
