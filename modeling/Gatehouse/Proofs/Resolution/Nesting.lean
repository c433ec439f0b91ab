import Gatehouse.Proofs.EvaluationErrors
import Gatehouse.Proofs.Resolution.Meaning

/-!
# Wildcards keep nesting

What this file fixes, and what it shows:

* `Value.Holds`: what stands in a value, so many lists deep;
* `Value.Reaches`: where a path leads if each wildcard may go on from any one item of a list;
* `holds_iff_reaches`: below as many lists as there are wildcards stands what the segments reach;
* `wildcards_keep_nesting`: so a path with wildcards leads nowhere or to lists in lists, and a search
  through such a path is never for a list where there is none.
-/

namespace Gatehouse

/-! ## 1. Lists in lists -/

namespace Value

/-- The other value stands in this one, below so many lists. -/
def Holds : Nat → Value → Value → Prop
  | 0, v, u => v = u
  | n + 1, .array items, u => ∃ v ∈ items, v.Holds n u
  | _ + 1, _, _ => False

/-- The items of a path lead from one value to another, where a wildcard goes on from any one item of
    a list. After a mistake they lead nowhere. -/
inductive Reaches : List Item → Value → Value → Prop
  | here (v : Value) : Reaches [] v v
  | key {k : String} {rest : List Item} {v u w : Value} : v.selected? k = some u →
      Reaches rest u w → Reaches (.ok (.key k) :: rest) v w
  | item {rest : List Item} {vs : List Value} {v w : Value} : v ∈ vs → Reaches rest v w →
      Reaches (.ok .wildcard :: rest) (.array vs) w

/-! ## 2. Segments -/

/-- Where something is reached, the walk leads somewhere. -/
theorem Reaches.exists_descend? {items : List Item} {v u : Value} (h : v.Reaches items u) :
    ∃ w, v.descend? items = some w := by
  induction h with
  | here v => exact ⟨v, rfl⟩
  | key hk _ ih =>
      obtain ⟨w, hw⟩ := ih
      exact ⟨w, by rw [descend?, child?_eq_selected?, hk, Option.bind_some, hw]⟩
  | item _ _ _ => exact ⟨_, by rw [descend?]⟩

/-- **What stands below the lists of the wildcards is what is reached.** Nothing is flattened and
    nothing is lost. -/
theorem holds_iff_reaches {items : List Item} {v w : Value} (h : v.descend? items = some w)
    (u : Value) : w.Holds (items.count (.ok .wildcard)) u ↔ v.Reaches items u := by
  induction items generalizing v w with
  | nil =>
      rw [descend?] at h
      cases h
      constructor
      · rintro rfl
        exact .here v
      · rintro ⟨_⟩
        exact rfl
  | cons item rest ih =>
      rcases item with mistake | ⟨k⟩ | _
      · rw [descend?] at h
        cases h
      · rw [descend?, child?_eq_selected?] at h
        obtain ⟨x, hx, hw⟩ := Option.bind_eq_some_iff.mp h
        rw [count_key, ih hw]
        constructor
        · exact .key hx
        · rintro (_ | ⟨hx', hu⟩)
          rw [hx] at hx'
          cases hx'
          exact hu
      · unfold descend? at h
        split at h
        · rename_i vs
          cases h
          rw [List.count_cons_self]
          constructor
          · rintro ⟨x, hx, hu⟩
            obtain ⟨y, hy, hxy⟩ := List.mem_filterMap.mp hx
            exact .item hy ((ih hxy).mp hu)
          · rintro (_ | _ | ⟨hy, hu⟩)
            obtain ⟨x, hx⟩ := hu.exists_descend?
            exact ⟨x, List.mem_filterMap.mpr ⟨_, hy, hx⟩, (ih hx).mpr hu⟩
        · cases h

end Value

/-! ## 3. Paths -/

/-- The path reaches the value from its entry in the context. -/
def Context.Reaches (ctx : Context) (p : Path) (u : Value) : Prop :=
  ∃ n k v, p.root? = some (n, k) ∧ ctx.entry? n k = some v ∧ v.Reaches p.items.tail u

/-- How many of the segments of the path are wildcards. -/
def Path.wildcards (p : Path) : Nat := p.items.count (.ok .wildcard)

theorem Path.wildcards_pos_iff {p : Path} : 0 < p.wildcards ↔ p.FansOut := List.count_pos_iff

/-- A path with an entry starts with a key, so all its wildcards come after that. -/
theorem Path.wildcards_of_root {p : Path} {n : Namespace} {k : String}
    (h : p.root? = some (n, k)) : p.items.tail.count (.ok .wildcard) = p.wildcards := by
  obtain ⟨_, items, hitems⟩ := root?_eq_some_iff.mp h
  rw [wildcards, hitems, count_key, List.tail_cons]

/-- The wildcards of a well-formed path are those among the segments after its first key. -/
theorem Path.wildcards_of_spells {p : Path} {n : Namespace} {k : String} {ss : List Segment}
    (h : p.Spells n (.key k :: ss)) : p.wildcards = ss.count .wildcard := by
  rw [wildcards, (spells_iff.mp h).2, List.map_cons, count_key,
    List.count_map_of_injective ss _ fun _ _ => Except.ok.inj]

/-- A path leads to lists in lists, one level for each wildcard, that hold what it reaches. -/
theorem Context.nested_of_resolve {ctx : Context} {p : Path} {w : Value}
    (h : ctx.resolve p = .present w) :
    w.Nested p.wildcards ∧ ∀ u, w.Holds p.wildcards u ↔ ctx.Reaches p u := by
  cases hroot : p.root? with
  | none =>
      rw [resolve_of_no_root hroot] at h
      cases h
  | some root =>
      obtain ⟨n, k⟩ := root
      rw [resolve_of_root hroot, Resolved.ofOption_eq_present] at h
      obtain ⟨v, hv, hw⟩ := Option.bind_eq_some_iff.mp h
      rw [← Path.wildcards_of_root hroot]
      refine ⟨Value.nested_of_descend? hw, fun u => ?_⟩
      rw [Value.holds_iff_reaches hw]
      constructor
      · intro hu
        exact ⟨n, k, v, hroot, hv, hu⟩
      · intro ⟨n', k', v', hroot', hv', hu⟩
        rw [hroot] at hroot'
        cases hroot'
        rw [hv] at hv'
        cases hv'
        exact hu

/-! ## 4. Searches -/

theorem Operands.comparandValue_ne_typeMismatch (x : Operands) (o o' : Operator) (p : Path)
    (found : String) : x.comparandValue o ≠ .error (.typeMismatch p o' found) := by
  unfold comparandValue
  split <;> simp

/-- **Only a search fails for the wrong kind of value**, and only if its path leads to a value that is
    no list. -/
theorem Leaf.of_typeMismatch {ctx : Context} {l : Leaf} {p : Path} {o : Operator} {found : String}
    (h : l.evaluate ctx = .error (.typeMismatch p o found)) :
    l.operator = .contains ∧ p = l.path ∧
      ∃ v, ctx.resolve l.path = .present v ∧ ∀ items, v ≠ .array items := by
  have hsides : ∀ o', (l.operands ctx).sidesAgree o' ≠ .error (.typeMismatch p o found) := by
    intro o' hs
    rcases Operands.sidesAgree_error hs with ⟨_, he⟩ | ⟨_, hc⟩
    · cases he
    · exact Operands.comparandValue_ne_typeMismatch _ _ _ _ _ hc
  unfold evaluate Operator.apply at h
  split at h
  · exact absurd h (hsides .equals)
  · exact absurd (eq_error_of_map h) (hsides .notEquals)
  · cases h
  · cases h
  · rename_i hop
    rcases Operands.listContains_error h with ⟨v, hv, hlist, he⟩ | ⟨_, hc⟩
    · cases he
      exact ⟨hop, rfl, v, hv, hlist⟩
    · exact absurd hc (Operands.comparandValue_ne_typeMismatch _ _ _ _ _)

/-- A search through a wildcard does not fail for the wrong kind of value. -/
theorem Leaf.not_typeMismatch_of_fanOut {ctx : Context} {l : Leaf} (h : 0 < l.path.wildcards)
    (p : Path) (o : Operator) (found : String) :
    l.evaluate ctx ≠ .error (.typeMismatch p o found) := by
  intro he
  obtain ⟨_, _, v, hv, hlist⟩ := of_typeMismatch he
  obtain ⟨items, hitems⟩ := Context.resolve_fanOut (Path.wildcards_pos_iff.mp h) hv
  exact hlist items hitems

/-- **Wildcards keep nesting**: a path with wildcards leads nowhere or to a list, with as many lists
    in each other as there are wildcards, and below these stands exactly what the path reaches. So a
    search through such a path never fails for the wrong kind of value; and where a tree fails so, it
    is by a search that a path without wildcards is to blame for. -/
theorem wildcards_keep_nesting (ctx : Context) :
    (∀ p : Path, 0 < p.wildcards → ctx.resolve p = .absent ∨
      ∃ items, ctx.resolve p = .present (.array items) ∧
        (Value.array items).Nested p.wildcards ∧
        ∀ u, (Value.array items).Holds p.wildcards u ↔ ctx.Reaches p u) ∧
    (∀ l : Leaf, l.operator = .contains → 0 < l.path.wildcards →
      ∀ p o found, l.evaluate ctx ≠ .error (.typeMismatch p o found)) ∧
    ∀ (c : Condition) p o found, c.evaluate ctx = .error (.typeMismatch p o found) →
      ∃ l ∈ c.leaves, l.operator = .contains ∧ l.path = p ∧ p.wildcards = 0 := by
  refine ⟨fun p hp => ?_, fun l _ hl => l.not_typeMismatch_of_fanOut hl, ?_⟩
  · cases hresolve : ctx.resolve p with
    | absent => exact Or.inl rfl
    | present w =>
        obtain ⟨items, rfl⟩ := Context.resolve_fanOut (Path.wildcards_pos_iff.mp hp) hresolve
        exact Or.inr ⟨items, rfl, Context.nested_of_resolve hresolve⟩
  · intro c p o found h
    obtain ⟨l, hl, he⟩ := Condition.evaluate_error_leaf c h
    obtain ⟨hop, rfl, _⟩ := Leaf.of_typeMismatch he
    refine ⟨l, hl, hop, rfl, Nat.eq_zero_of_not_pos fun hpos => ?_⟩
    exact Leaf.not_typeMismatch_of_fanOut hpos _ _ _ he

/-- The identifiers in the cells of every row. -/
def cellIds : Path := ⟨"subject.rows[*].cells[*].id"⟩

/-- A table whose rows differ: one has a cell without an identifier, one has no cells, and one has a
    number in their place. -/
def table : Context where
  subject := [("rows", .array
    [.object [("cells", .array [.object [("id", .int 7)], .object []])],
      .object [("cells", .array [])],
      .object [("cells", .int 3)]])]
  resource := []
  path := []
  body := []
  query := []
  header := []

/-- The rows stay apart, also the empty one; a search for an identifier among them does not find one,
    and does not fail as it does for a path without wildcards. -/
theorem wildcards_keep_nesting_table :
    cellIds.wildcards = 2 ∧
    table.resolve cellIds = .present (.array [.array [.int 7], .array []]) ∧
    (Value.array [.array [.int 7], .array []]).Nested 2 ∧ table.Reaches cellIds (.int 7) ∧
    (∀ p o found, Leaf.evaluate table ⟨cellIds, .contains, .literal (.int 7), none⟩ ≠
      .error (.typeMismatch p o found)) ∧
    ∃ found, Condition.evaluate table
        (.leaf ⟨⟨"subject.rows.2.cells"⟩, .contains, .literal (.int 7), none⟩ none) =
      .error (.typeMismatch ⟨"subject.rows.2.cells"⟩ .contains found) ∧
      Path.wildcards ⟨"subject.rows.2.cells"⟩ = 0 := by
  obtain ⟨hpaths, hleaves, htrees⟩ := wildcards_keep_nesting table
  have htwo : cellIds.wildcards = 2 := by decide +kernel
  have hresolve : table.resolve cellIds = .present (.array [.array [.int 7], .array []]) := by
    decide +kernel
  have hfails : Condition.evaluate table
        (.leaf ⟨⟨"subject.rows.2.cells"⟩, .contains, .literal (.int 7), none⟩ none) =
      .error (.typeMismatch ⟨"subject.rows.2.cells"⟩ .contains "number") := by
    decide +kernel
  have hpos : 0 < cellIds.wildcards := by
    rw [htwo]
    exact Nat.zero_lt_two
  obtain ⟨_, _, _, _, hzero⟩ := htrees _ _ _ _ hfails
  rcases hpaths cellIds hpos with habsent | ⟨items, hitems, hnested, hholds⟩
  · rw [hresolve] at habsent
    cases habsent
  · rw [hresolve] at hitems
    cases hitems
    rw [htwo] at hnested hholds
    have hseven : (Value.array [.array [.int 7], .array []]).Holds 2 (.int 7) :=
      ⟨_, List.mem_cons_self, _, List.mem_cons_self, rfl⟩
    exact ⟨htwo, hresolve, hnested, (hholds _).mp hseven, hleaves _ rfl hpos, _, hfails, hzero⟩

end Gatehouse
