import Gatehouse.Proofs.Condition.RoundTrip
import Gatehouse.Proofs.Json.RoundTrip

/-!
# Which stored trees can be read again

What this file fixes, and what it shows about `Condition.parse` on the text of `Condition.toValue`:

* `Condition.levels`: how deep lists and objects are nested in the text of a tree. Every branch
  takes two levels and so does a leaf, and a literal takes its own (`nesting_toValue`);
* `parse_compact`: the text of a tree is read as the tree if it has no more levels than a reader
  follows, and `parse_compact_of_deep`: it is malformed otherwise;
* `levels_le_of_violation`: what the limits of valid trees say about the levels of their texts;
* `stored_tree_read_back`: the valid trees that can be stored as a text and read again.
-/

namespace Gatehouse

/-! ## 1. Objects -/

namespace Value

/-- An object is nested one level deeper than its entries. -/
theorem nesting_ofEntries_le {es : List (String × Value)} {n : Nat}
    (h : ∀ e ∈ es, e.2.nesting ≤ n) : (ofEntries es).nesting ≤ n + 1 := by
  rw [ofEntries, nesting]
  exact Nat.succ_le_succ
    (nestingOfEntries_le_iff.mpr fun e he => h e (mem_of_mem_sortEntries he))

theorem nesting_lt_of_lookup {es : List (String × Value)} {k : String} {v : Value}
    (h : es.reverse.lookup k = some v) : v.nesting < (ofEntries es).nesting := by
  have hmem : (k, v) ∈ sortEntries es := mem_of_lookup (by rw [lookup_sortEntries, h])
  rw [ofEntries, nesting]
  exact Nat.lt_succ_of_le (nestingOfEntries_le_iff.mp (Nat.le_refl _) _ hmem)

theorem readsBack_ofEntries {es : List (String × Value)} (h : ∀ e ∈ es, e.2.readsBack = true) :
    (ofEntries es).readsBack = true := by
  rw [ofEntries, readsBack]
  exact entriesReadBack_iff.mpr fun e he => h e (mem_of_mem_sortEntries he)

end Value

/-! ## 2. Levels of trees -/

namespace Comparand

/-- How deep lists and objects are nested in a comparand. -/
def nesting : Comparand → Nat
  | .literal v => v.nesting
  | _ => 0

/-- Every number in a comparand reads back. -/
def readsBack : Comparand → Bool
  | .literal v => v.readsBack
  | _ => true

end Comparand

namespace Leaf

/-- A leaf takes one level more than its comparand. -/
theorem nesting_toValue (l : Leaf) : l.toValue.nesting = l.comparand.nesting + 1 := by
  refine Nat.le_antisymm (Value.nesting_ofEntries_le ?_) ?_
  · refine forall_entries (·.nesting ≤ l.comparand.nesting) (fun s => Nat.zero_le _)
      fun v hv => ?_
    rw [hv]
    exact Nat.le_refl _
  · obtain ⟨path, operator, comparand, description⟩ := l
    cases comparand with
    | absent | path p => exact Nat.succ_le_succ (Nat.zero_le _)
    | literal v =>
      refine Nat.succ_le_of_lt (Value.nesting_lt_of_lookup (k := "value") ?_)
      cases description <;> rfl

theorem readsBack_toValue {l : Leaf} (h : l.comparand.readsBack = true) :
    l.toValue.readsBack = true := by
  refine Value.readsBack_ofEntries
    (forall_entries (·.readsBack = true) (fun s => rfl) fun v hv => ?_)
  rwa [hv] at h

end Leaf

namespace Condition

mutual

/-- How deep lists and objects are nested in the text of a tree. -/
def levels : Condition → Nat
  | .leaf l _ => l.comparand.nesting + 2
  | .branch _ cs _ => levelsAmong cs + 2

/-- How deep lists and objects are nested in the text of the deepest tree. -/
def levelsAmong : List Condition → Nat
  | [] => 0
  | c :: cs => max (levels c) (levelsAmong cs)

end

mutual

/-- **The text of a tree is nested as deep as its levels say.** -/
theorem nesting_toValue : ∀ c : Condition, c.toValue.nesting = c.levels
  | .leaf l d => by
      rw [toValue, levels]
      have hleaf := l.nesting_toValue
      refine Nat.le_antisymm (Value.nesting_ofEntries_le ?_) ?_
      · rw [List.forall_mem_append, List.forall_mem_singleton]
        exact ⟨forall_descriptionEntry (·.nesting ≤ _) (fun s => Nat.zero_le _) d,
          Nat.le_of_eq hleaf⟩
      · rw [← Nat.succ_eq_add_one, ← hleaf]
        refine Nat.succ_le_of_lt (Value.nesting_lt_of_lookup (k := "leaf") ?_)
        cases d <;> rfl
  | .branch logic cs d => by
      have hchildren : (Value.array (toValues cs)).nesting = levelsAmong cs + 1 := by
        rw [Value.nesting, nestingOfItems_toValues cs]
      rw [toValue, levels]
      refine Nat.le_antisymm (Value.nesting_ofEntries_le ?_) ?_
      · rw [List.forall_mem_append, List.forall_mem_cons, List.forall_mem_singleton]
        exact ⟨forall_descriptionEntry (·.nesting ≤ _) (fun s => Nat.zero_le _) d,
          Nat.zero_le _, Nat.le_of_eq hchildren⟩
      · rw [← Nat.succ_eq_add_one, ← hchildren]
        exact Nat.succ_le_of_lt (Value.nesting_lt_of_lookup (lookup_children logic cs d))

theorem nestingOfItems_toValues : ∀ cs : List Condition,
    Value.nestingOfItems (toValues cs) = levelsAmong cs
  | [] => by rw [toValues, Value.nestingOfItems, levelsAmong]
  | c :: cs => by
      rw [toValues, Value.nestingOfItems, levelsAmong, nesting_toValue c,
        nestingOfItems_toValues cs]

end

/-- Every number in the literals of the tree reads back. -/
def readsBack (c : Condition) : Bool := c.leaves.all fun l => l.comparand.readsBack

mutual

theorem readsBack_toValue : ∀ c : Condition,
    (c.leaves.all fun l => l.comparand.readsBack) = true → c.toValue.readsBack = true
  | .leaf l d, h => by
      have hl : l.comparand.readsBack = true := by simpa [leaves] using h
      rw [toValue]
      refine Value.readsBack_ofEntries ?_
      rw [List.forall_mem_append, List.forall_mem_singleton]
      exact ⟨forall_descriptionEntry (·.readsBack = true) (fun s => rfl) d,
        Leaf.readsBack_toValue hl⟩
  | .branch logic cs d, h => by
      rw [toValue]
      refine Value.readsBack_ofEntries ?_
      rw [List.forall_mem_append, List.forall_mem_cons, List.forall_mem_singleton]
      exact ⟨forall_descriptionEntry (·.readsBack = true) (fun s => rfl) d, rfl,
        itemsReadBack_toValues cs h⟩

theorem itemsReadBack_toValues : ∀ cs : List Condition,
    ((leavesAmong cs).all fun l => l.comparand.readsBack) = true →
    Value.itemsReadBack (toValues cs) = true
  | [], _ => by rw [toValues, Value.itemsReadBack]
  | c :: cs, h => by
      rw [leavesAmong, List.all_append, Bool.and_eq_true] at h
      rw [toValues, Value.itemsReadBack, readsBack_toValue c h.1, itemsReadBack_toValues cs h.2]
      rfl

end

/-! ## 3. Trees within the limit -/

/-- **The text of a tree with few enough levels is read as the tree.** -/
theorem parse_compact {c : Condition} (hordered : c.isOrdered = true) (hfaithful : c.Faithful)
    (hback : c.readsBack = true) (hlevels : c.levels ≤ Json.maxLevels) :
    parse c.toValue.compact = .ok c := by
  rw [parse, Json.read?_compact (readsBack_toValue c hback),
    Json.within_ofValue _ (nesting_toValue c ▸ hlevels)]
  exact ofValue_toValue_eq_ok_iff.mpr ⟨hordered, hfaithful⟩

end Condition

/-! ## 4. Trees beyond the limit -/

namespace Doc

/-- The fields of a record that is held to a limit, each held to it. -/
theorem fields?_within (names : List String) (es : List (String × Value)) (limit : Nat) :
    ∃ fs, (Json.within (limit + 1) (ofValue (.ofEntries es))).fields? names = some fs ∧
      ∀ k ∈ names, fs.lookup k =
        (es.reverse.lookup k).map fun v => Json.within limit (ofValue v) := by
  obtain ⟨fs, hfs, hlookup⟩ := fields?_ofValue_ofEntries names es
  rw [Value.ofEntries, ofValue] at hfs
  refine ⟨fs.map fun e => (e.1, Json.within limit e.2), ?_, fun k hk => ?_⟩
  · rw [Value.ofEntries, ofValue, Json.within, Json.entriesWithin_eq_map]
    exact fields?_object_map (Json.within limit) hfs
  · rw [lookup_map_values, hlookup k hk, Option.map_map]
    rfl

/-- A value that was written is read where one is optional as far as the limit goes, unless it is
    null. -/
theorem Fields.optional_of_within {α : Type} {fs : Fields} {k : String} {v : Value} {limit : Nat}
    (h : fs.lookup k = some (Json.within limit (ofValue v))) (hv : v ≠ .null)
    (read : Doc → Option α) :
    fs.optional k read = (read (Json.within limit (ofValue v))).map some := by
  rw [optional, defaulted, h]
  cases v with
  | null => exact absurd rfl hv
  | bool | number | string => rfl
  | array items | object entries => cases limit <;> rfl

end Doc

/-- **A leaf that goes deeper than the limit is not read.** -/
theorem Wire.Leaf.read?_within {l : Gatehouse.Leaf} {limit : Nat}
    (h : limit < l.comparand.nesting + 1) :
    Wire.Leaf.read? (Json.within limit (.ofValue l.toValue)) = none := by
  cases limit with
  | zero =>
    rw [Gatehouse.Leaf.toValue, Value.ofEntries, Doc.ofValue, Json.within]
    rfl
  | succ limit =>
    obtain ⟨path, operator, comparand, description⟩ := l
    cases comparand with
    | absent | path p => exact absurd h (by simp [Comparand.nesting])
    | literal v =>
      obtain ⟨fs, hfs, hlookup⟩ := Doc.fields?_within Wire.leafFields
        ([("attribute", .string path.text), ("operator", .string operator.name)]
          ++ descriptionEntry description ++ (Comparand.literal v).entries) limit
      have hvalue : fs.lookup "value" = some (Json.within limit (.ofValue v)) := by
        rw [hlookup _ (by decide)]
        cases description <;> rfl
      have hread : fs.defaulted "value" none (fun d => d.value?.map some) = none := by
        simp only [Doc.Fields.defaulted, hvalue]
        rw [Json.value?_within v (Nat.lt_of_succ_lt_succ h)]
        rfl
      rw [Wire.Leaf.read?, Gatehouse.Leaf.toValue, hfs]
      simp only [Option.bind_some, Option.bind_eq_bind, hread, Option.bind_none,
        Option.bind_fun_none]

namespace Condition

/-- No record is read where none is accepted. -/
theorem readWithin?_unreadable (levels : Nat) :
    Wire.Node.readWithin? levels .unreadable = none := by
  cases levels <;> rfl

theorem readWithin?_within_leaf {l : Leaf} {limit : Nat} (h : limit < l.comparand.nesting + 1)
    (d : Option String) (levels : Nat) :
    Wire.Node.readWithin? levels (Json.within (limit + 1) (.ofValue (toValue (.leaf l d)))) =
      none := by
  cases levels with
  | zero => rfl
  | succ levels =>
    obtain ⟨fs, hfs, hlookup⟩ := Doc.fields?_within Wire.nodeFields
      (descriptionEntry d ++ [("leaf", l.toValue)]) limit
    have hleaf : fs.lookup "leaf" = some (Json.within limit (.ofValue l.toValue)) := by
      rw [hlookup _ (by decide)]
      cases d <;> rfl
    have hread : fs.optional "leaf" Wire.Leaf.read? = none := by
      rw [Doc.Fields.optional_of_within hleaf nofun, Wire.Leaf.read?_within h]
      rfl
    rw [toValue, Wire.Node.readWithin?, hfs]
    simp only [Option.bind_some, Option.bind_eq_bind, hread, Option.bind_none,
      Option.bind_fun_none]

/-- A branch is not read if its children are not. -/
theorem readWithin?_within_branch {cs : List Condition} {limit levels : Nat}
    (h : (Json.within limit (.ofValue (.array (toValues cs)))).list?
      (Wire.Node.readWithin? levels) = none) (logic : Logic) (d : Option String) :
    Wire.Node.readWithin? (levels + 1)
      (Json.within (limit + 1) (.ofValue (toValue (.branch logic cs d)))) = none := by
  obtain ⟨fs, hfs, hlookup⟩ := Doc.fields?_within Wire.nodeFields
    (descriptionEntry d ++
      [("logic_type", .string logic.name), ("children", .array (toValues cs))]) limit
  have hchildren : fs.lookup "children" =
      some (Json.within limit (.ofValue (.array (toValues cs)))) := by
    rw [hlookup _ (by decide), lookup_children, Option.map_some]
  have hread : fs.optional "children" (Doc.list? (Wire.Node.readWithin? levels)) = none := by
    rw [Doc.Fields.optional_of_within hchildren nofun, h]
    rfl
  rw [toValue, Wire.Node.readWithin?, hfs]
  simp only [Option.bind_some, Option.bind_eq_bind, hread, Option.bind_none,
    Option.bind_fun_none]

mutual

/-- **A tree that goes deeper than the limit is not read**, at however many levels. -/
theorem readWithin?_within : ∀ (c : Condition) {limit : Nat} (levels : Nat), limit < c.levels →
    Wire.Node.readWithin? levels (Json.within limit (.ofValue c.toValue)) = none
  | .leaf l d, 0, levels, _ => by
      rw [toValue, Value.ofEntries, Doc.ofValue, Json.within]
      exact readWithin?_unreadable levels
  | .leaf l d, limit + 1, levels, h => by
      rw [Condition.levels] at h
      exact readWithin?_within_leaf (Nat.lt_of_succ_lt_succ h) d levels
  | .branch logic cs d, 0, levels, _ => by
      rw [toValue, Value.ofEntries, Doc.ofValue, Json.within]
      exact readWithin?_unreadable levels
  | .branch logic cs d, limit + 1, 0, _ => rfl
  | .branch logic cs d, 1, levels + 1, _ => by
      refine readWithin?_within_branch ?_ logic d
      rw [Doc.ofValue, Json.within]
      rfl
  | .branch logic cs d, limit + 2, levels + 1, h => by
      rw [Condition.levels] at h
      refine readWithin?_within_branch ?_ logic d
      rw [Doc.ofValue, Json.within, Doc.list?, Doc.items?, Option.bind_some]
      exact mapM_readWithin?_within cs levels (by omega)

theorem mapM_readWithin?_within : ∀ (cs : List Condition) {limit : Nat} (levels : Nat),
    limit < levelsAmong cs → (Json.itemsWithin limit (Doc.ofValues (toValues cs))).mapM
      (Wire.Node.readWithin? levels) = none
  | [], _, _, h => absurd h (Nat.not_lt_zero _)
  | c :: cs, limit, levels, h => by
      rw [levelsAmong] at h
      have hdeep : limit < c.levels ∨ limit < levelsAmong cs := by omega
      rw [toValues, Doc.ofValues, Json.itemsWithin, List.mapM_cons]
      cases hdeep with
      | inl hfirst =>
        rw [readWithin?_within c levels hfirst]
        rfl
      | inr hrest =>
        simp only [mapM_readWithin?_within cs levels hrest, Option.bind_eq_bind,
          Option.bind_none, Option.bind_fun_none]

end

/-- **The text of a tree with too many levels is malformed.** -/
theorem parse_compact_of_deep {c : Condition} (hback : c.readsBack = true)
    (hlevels : Json.maxLevels < c.levels) : parse c.toValue.compact = .error .malformed := by
  rw [parse, Json.read?_compact (readsBack_toValue c hback)]
  simp only [ofDoc, Wire.Node.read?, readWithin?_within c _ hlevels]

/-! ## 5. Valid trees -/

mutual

/-- A tree has at most two levels for each of its nodes on the way to a leaf, and those of its
    deepest literal. -/
theorem levels_le_of_hasAt {m n : Nat} : ∀ c : Condition,
    (∀ t node, c.HasAt t node → t.length < m) → (∀ l ∈ c.leaves, l.comparand.nesting ≤ n) →
    c.levels ≤ 2 * m + n
  | .leaf l d, hm, hn => by
      have hroot : 0 < m := hm [] _ (.root _)
      have hl : l.comparand.nesting ≤ n := hn l (List.mem_singleton_self l)
      rw [levels]
      omega
  | .branch logic cs d, hm, hn => by
      have hroot : 0 < m := hm [] _ (.root _)
      have hcs : levelsAmong cs ≤ 2 * (m - 1) + n := by
        refine levelsAmong_le_of_hasAt cs (fun c hc t node hnode => ?_) hn
        obtain ⟨f, hf⟩ := exists_hasAt_of_mem hc hnode logic d
        exact Nat.lt_sub_of_add_lt (hm _ _ hf)
      rw [levels]
      omega

theorem levelsAmong_le_of_hasAt {m n : Nat} : ∀ cs : List Condition,
    (∀ c ∈ cs, ∀ t node, c.HasAt t node → t.length < m) →
    (∀ l ∈ leavesAmong cs, l.comparand.nesting ≤ n) → levelsAmong cs ≤ 2 * m + n
  | [], _, _ => Nat.zero_le _
  | c :: cs, hm, hn => by
      rw [leavesAmong, List.forall_mem_append] at hn
      rw [List.forall_mem_cons] at hm
      rw [levelsAmong]
      exact Nat.max_le.mpr
        ⟨levels_le_of_hasAt c hm.1 hn.1, levelsAmong_le_of_hasAt cs hm.2 hn.2⟩

end

/-- **A valid tree has at most two levels for each level that its limits allow**, and those of its
    deepest literal. -/
theorem levels_le_of_violation {limits : Limits} {c : Condition} {n : Nat}
    (h : c.violation? limits = none) (hn : ∀ l ∈ c.leaves, l.comparand.nesting ≤ n) :
    c.levels ≤ 2 * limits.maxDepth + n :=
  levels_le_of_hasAt c (fun _ _ hnode => length_lt_of_violation h hnode) hn

/-- **Which valid trees can be stored.** The text of a tree that is valid under some limits is read
    back as the tree exactly if its lists and objects are nested in no more levels than a reader
    follows, and is malformed otherwise: two levels for each branch above a leaf and for the leaf
    itself, and those of the leaf's literal. The limits of validity speak of other levels; they
    warrant this wherever twice their depth leaves room for the literals. Literals are as a reader
    hands them over, and the texts of their numbers read back. -/
theorem stored_tree_read_back {limits : Limits} {c : Condition}
    (hvalid : c.validate limits = .ok ()) (hordered : c.isOrdered = true)
    (hback : c.readsBack = true) :
    c.toValue.nesting = c.levels ∧
    (parse c.toValue.compact = .ok c ↔ c.levels ≤ Json.maxLevels) ∧
    (Json.maxLevels < c.levels → parse c.toValue.compact = .error .malformed) ∧
    ∀ n, (∀ l ∈ c.leaves, l.comparand.nesting ≤ n) → 2 * limits.maxDepth + n ≤ Json.maxLevels →
      parse c.toValue.compact = .ok c := by
  have hread : c.levels ≤ Json.maxLevels → parse c.toValue.compact = .ok c :=
    parse_compact hordered (faithful_of_validate hvalid) hback
  have hdeep : Json.maxLevels < c.levels → parse c.toValue.compact = .error .malformed :=
    parse_compact_of_deep hback
  refine ⟨nesting_toValue c, ⟨fun h => ?_, hread⟩, hdeep, fun n hn hroom => hread ?_⟩
  · refine Nat.le_of_not_lt fun hlt => ?_
    rw [hdeep hlt] at h
    cases h
  · exact Nat.le_trans (levels_le_of_violation (validate_eq_ok_iff.mp hvalid) hn) hroom

/-- A number or a list of names as literals, below a branch. -/
def clearanceTree : Condition :=
  .branch .and
    [.leaf ⟨⟨"subject.clearance"⟩, .equals, .literal (.int (-3)), none⟩ (some "level"),
      .leaf ⟨⟨"subject.role"⟩, .notEquals,
        .literal (.array [.string "line\nbreak", .string "\""]), none⟩ none]
    none

/-- It takes two levels for the branch, two for the leaves, and one for the list. -/
theorem stored_tree_read_back_clearance :
    clearanceTree.levels = 5 ∧ clearanceTree.validate .standard = .ok () ∧
    parse clearanceTree.toValue.compact = .ok clearanceTree := by
  have hlevels : clearanceTree.levels = 5 := rfl
  have hvalid : clearanceTree.validate .standard = .ok () := by decide +kernel
  have hordered : clearanceTree.isOrdered = true := by decide +kernel
  have hback : clearanceTree.readsBack = true := by decide +kernel
  exact ⟨hlevels, hvalid,
    (stored_tree_read_back hvalid hordered hback).2.1.mpr (hlevels ▸ by decide)⟩

/-- An empty list within lists. -/
def nestedLists : Nat → Value
  | 0 => .array []
  | n + 1 => .array [nestedLists n]

/-- A leaf whose literal has 126 levels. -/
def deepLeaf : Condition :=
  .leaf ⟨⟨"subject.groups"⟩, .equals, .literal (nestedLists 125), none⟩ none

/-- A valid tree that is malformed once it is stored: its text has one level too many. -/
theorem deepLeaf_not_read_back :
    deepLeaf.validate .standard = .ok () ∧ deepLeaf.isOrdered = true ∧ deepLeaf.readsBack = true ∧
    deepLeaf.levels = 128 ∧ parse deepLeaf.toValue.compact = .error .malformed ∧
    ¬ ∀ (limits : Limits) (c : Condition), c.validate limits = .ok () → c.isOrdered = true →
      c.readsBack = true → parse c.toValue.compact = .ok c := by
  have hvalid : deepLeaf.validate .standard = .ok () := by decide +kernel
  have hordered : deepLeaf.isOrdered = true := by decide +kernel
  have hback : deepLeaf.readsBack = true := by decide +kernel
  have hlevels : deepLeaf.levels = 128 := by decide +kernel
  have hmalformed : parse deepLeaf.toValue.compact = .error .malformed :=
    parse_compact_of_deep hback (hlevels ▸ by decide)
  refine ⟨hvalid, hordered, hback, hlevels, hmalformed, fun h => ?_⟩
  have hread := h .standard deepLeaf hvalid hordered hback
  rw [hmalformed] at hread
  cases hread

end Condition

end Gatehouse
