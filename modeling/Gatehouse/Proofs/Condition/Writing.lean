import Gatehouse.Proofs.Condition.Decoding
import Gatehouse.Proofs.Condition.Leaves
import Gatehouse.Proofs.Record

/-!
# Reading back what was written

What this file fixes, and what it shows about `Condition.toValue`:

* `Condition.isOrdered`: the literals of the tree have their entries in order. Then so has its value
  (`isOrdered_toValue`);
* `Condition.toNode`: the record that the value of a tree is read as (`read?_toValue`);
* `Condition.reread`: the tree that this record describes. It differs from the tree itself only
  where an empty path is a comparand, for that counts as missing (`ofValue_toValue`);
* `Condition.Faithful`: no leaf has an empty path as its comparand. These are the trees that are
  read back as they are (`reread_eq_self_iff`).
-/

namespace Gatehouse

/-! ## 1. Literals in order -/

/-- A literal comparand has its entries in order. -/
def Comparand.isOrdered : Comparand → Bool
  | .literal v => v.isOrdered
  | _ => true

/-- The literals of the tree have their entries in order, as those that a reader hands over. -/
def Condition.isOrdered (c : Condition) : Bool := c.leaves.all fun l => l.comparand.isOrdered

/-- The literals of the trees have their entries in order. -/
def Condition.areOrdered (cs : List Condition) : Bool :=
  (leavesAmong cs).all fun l => l.comparand.isOrdered

namespace Condition

theorem areOrdered_cons (c : Condition) (cs : List Condition) :
    areOrdered (c :: cs) = (c.isOrdered && areOrdered cs) := by
  rw [areOrdered, leavesAmong, List.all_append]
  rfl

end Condition

/-! ## 2. What is written -/

section Entries

variable (P : Value → Prop)

/-- What holds of strings holds of a description. -/
theorem forall_descriptionEntry (hstring : ∀ s, P (.string s)) (d : Option String) :
    ∀ e ∈ descriptionEntry d, P e.2 := by
  cases d with
  | none => exact fun _ he => nomatch he
  | some s => exact List.forall_mem_singleton.mpr (hstring s)

/-- What holds of strings and of the literal of a comparand holds of its entries. -/
theorem Comparand.forall_entries (hstring : ∀ s, P (.string s)) {c : Comparand}
    (hliteral : ∀ v, c = .literal v → P v) : ∀ e ∈ c.entries, P e.2 := by
  cases c with
  | absent => exact fun _ he => nomatch he
  | literal v => exact List.forall_mem_singleton.mpr (hliteral v rfl)
  | path p => exact List.forall_mem_singleton.mpr (hstring p.text)

/-- The same for the entries of a leaf. -/
theorem Leaf.forall_entries (hstring : ∀ s, P (.string s)) {l : Leaf}
    (hliteral : ∀ v, l.comparand = .literal v → P v) :
    ∀ e ∈ [("attribute", Value.string l.path.text), ("operator", .string l.operator.name)]
      ++ descriptionEntry l.description ++ l.comparand.entries, P e.2 := by
  rw [List.forall_mem_append, List.forall_mem_append, List.forall_mem_cons,
    List.forall_mem_singleton]
  exact ⟨⟨⟨hstring _, hstring _⟩, forall_descriptionEntry P hstring _⟩,
    Comparand.forall_entries P hstring hliteral⟩

end Entries

/-- The value of a leaf has its entries in order if its literal has. -/
theorem Leaf.isOrdered_toValue {l : Leaf} (h : l.comparand.isOrdered = true) :
    l.toValue.isOrdered = true := by
  refine Value.isOrdered_ofEntries (Value.entriesOrdered_iff.mpr
    (Leaf.forall_entries (·.isOrdered = true) (fun s => rfl) fun v hv => ?_))
  rwa [hv] at h

namespace Condition

mutual

/-- **The value of a tree has its entries in order if its literals have.** -/
theorem isOrdered_toValue : ∀ c : Condition, c.isOrdered = true → c.toValue.isOrdered = true
  | .leaf l d, h => by
      have hl : l.comparand.isOrdered = true := by simpa [isOrdered, leaves] using h
      rw [toValue]
      refine Value.isOrdered_ofEntries (Value.entriesOrdered_iff.mpr ?_)
      rw [List.forall_mem_append, List.forall_mem_singleton]
      exact ⟨forall_descriptionEntry (·.isOrdered = true) (fun s => rfl) d,
        Leaf.isOrdered_toValue hl⟩
  | .branch logic cs d, h => by
      rw [toValue]
      refine Value.isOrdered_ofEntries (Value.entriesOrdered_iff.mpr ?_)
      rw [List.forall_mem_append, List.forall_mem_cons, List.forall_mem_singleton]
      exact ⟨forall_descriptionEntry (·.isOrdered = true) (fun s => rfl) d, rfl,
        areOrdered_toValues cs h⟩

theorem areOrdered_toValues : ∀ cs : List Condition, areOrdered cs = true →
    Value.areOrdered (toValues cs) = true
  | [], _ => rfl
  | c :: cs, h => by
      rw [areOrdered_cons, Bool.and_eq_true] at h
      rw [toValues, Value.areOrdered, isOrdered_toValue c h.1, areOrdered_toValues cs h.2]
      rfl

end

end Condition

/-! ## 3. The record of a leaf -/

/-- A text counts as missing if it has no characters. -/
theorem Wire.filled?_some (s : String) :
    filled? (some s) = if s.isEmpty then none else some s := by
  rw [filled?, Option.filter_some]
  cases s.isEmpty <;> rfl

namespace Comparand

/-- The value of a comparand that is a literal. -/
def literal? : Comparand → Option Value
  | .literal v => some v
  | _ => none

/-- The comparand as it is read back: an empty path counts as missing. -/
def reread : Comparand → Comparand
  | .path p => if p.text.isEmpty then .absent else .path p
  | c => c

theorem reread_eq_self_iff {c : Comparand} : c.reread = c ↔ c ≠ .path ⟨""⟩ := by
  cases c with
  | absent | literal v => exact ⟨fun _ => nofun, fun _ => rfl⟩
  | path p =>
      rw [reread, Ne, Comparand.path.injEq, Path.mk.injEq, ← String.isEmpty_iff]
      cases hp : p.text.isEmpty with
      | true => simp
      | false => simp

end Comparand

namespace Leaf

/-- The record that the value of a leaf is read as. -/
def toRecord (l : Leaf) : Wire.Leaf :=
  ⟨l.path.text, l.operator.name, l.description, l.comparand.literal?,
    l.comparand.path?.map Path.text⟩

/-- The leaf that this record describes. -/
def reread (l : Leaf) : Leaf := { l with comparand := l.comparand.reread }

/-- The value of a leaf is read as its record. -/
theorem read?_toValue {l : Leaf} (h : l.comparand.isOrdered = true) :
    Wire.Leaf.read? (.ofValue l.toValue) = some l.toRecord := by
  obtain ⟨path, operator, comparand, description⟩ := l
  obtain ⟨fs, hfs, hlookup⟩ := Doc.fields?_ofValue_ofEntries Wire.leafFields
    ([("attribute", .string path.text), ("operator", .string operator.name)]
      ++ descriptionEntry description ++ comparand.entries)
  have hpath : fs.lookup "attribute" = some (.ofValue (.string path.text)) := by
    rw [hlookup _ (by decide)]
    cases description <;> cases comparand <;> rfl
  have hoperator : fs.lookup "operator" = some (.ofValue (.string operator.name)) := by
    rw [hlookup _ (by decide)]
    cases description <;> cases comparand <;> rfl
  have hdescription : fs.lookup "description" =
      (description.map Value.string).map Doc.ofValue := by
    rw [hlookup _ (by decide)]
    cases description <;> cases comparand <;> rfl
  have hvalue : fs.lookup "value" = comparand.literal?.map Doc.ofValue := by
    rw [hlookup _ (by decide)]
    cases description <;> cases comparand <;> rfl
  have hcomparand : fs.lookup "resource_attribute" =
      ((comparand.path?.map Path.text).map Value.string).map Doc.ofValue := by
    rw [hlookup _ (by decide)]
    cases description <;> cases comparand <;> rfl
  have hread : fs.defaulted "value" none (fun v => v.value?.map some) =
      some comparand.literal? := by
    rw [Doc.Fields.defaulted, hvalue]
    cases comparand with
    | absent | path p => rfl
    | literal v =>
        have hv : (Doc.ofValue v).value? = some v := Doc.value?_ofValue v h
        simp only [Comparand.literal?, Option.map_some, hv]
  unfold Wire.Leaf.read? toValue
  rw [hfs]
  have hstring := Doc.transcribes_ofValue.string?_string
  simp only [Option.bind_some, Option.bind_eq_bind, hread,
    Doc.Fields.defaulted_of_lookup hpath (hstring path.text),
    Doc.Fields.defaulted_of_lookup hoperator (hstring operator.name),
    Doc.transcribes_ofValue.optional_string hdescription,
    Doc.transcribes_ofValue.optional_string hcomparand]
  rfl

/-- The record of a leaf describes the leaf, but for an empty path as comparand. -/
theorem decode_toRecord (l : Leaf) : l.toRecord.decode = .ok l.reread := by
  obtain ⟨path, operator, comparand, description⟩ := l
  have hname : operator.name.isEmpty = false := by cases operator <;> decide
  have hoperator : Operator.ofName? operator.name = some operator :=
    Operator.ofName?_eq_some_iff.mpr rfl
  have hcomparand : Wire.Leaf.comparand (toRecord ⟨path, operator, comparand, description⟩) =
      .ok comparand.reread := by
    cases comparand with
    | absent | literal v => rfl
    | path p =>
        rw [Wire.Leaf.comparand, Comparand.reread]
        simp only [toRecord, Comparand.literal?, Comparand.path?, Option.map_some,
          Wire.filled?_some]
        cases p.text.isEmpty <;> rfl
  rw [Wire.Leaf.decode, hcomparand]
  simp only [toRecord, hname, hoperator]
  rfl

end Leaf

/-! ## 4. The record of a tree -/

namespace Condition

mutual

/-- The record that the value of a tree is read as. -/
def toNode : Condition → Wire.Node
  | .leaf l d => .node d none none (some l.toRecord)
  | .branch logic cs d => .node d (some logic.name) (some (toNodes cs)) none

/-- The records of trees, one by one. -/
def toNodes : List Condition → List Wire.Node
  | [] => []
  | c :: cs => toNode c :: toNodes cs

end

mutual

/-- The tree as it is read back: an empty path as comparand counts as missing. -/
def reread : Condition → Condition
  | .leaf l d => .leaf l.reread d
  | .branch logic cs d => .branch logic (rereadAll cs) d

/-- The trees as they are read back, one by one. -/
def rereadAll : List Condition → List Condition
  | [] => []
  | c :: cs => reread c :: rereadAll cs

end

/-- A description is read back from wherever it is written first. -/
theorem optional_description {fs : Doc.Fields} {d : Option String} {es : List (String × Value)}
    (h : fs.lookup "description" =
      ((descriptionEntry d ++ es).reverse.lookup "description").map Doc.ofValue)
    (hes : es.reverse.lookup "description" = none) :
    fs.optional "description" Doc.string? = some d := by
  refine Doc.transcribes_ofValue.optional_string ?_
  rw [h, List.reverse_append, List.lookup_append, hes, Option.none_or]
  cases d <;> rfl

/-- The value of a leaf is read, as a node, with the record of the leaf in it. -/
theorem readWithin?_leaf {l : Leaf} {w : Wire.Leaf}
    (hw : Wire.Leaf.read? (.ofValue l.toValue) = some w) (d : Option String) (levels : Nat) :
    Wire.Node.readWithin? (levels + 1) (.ofValue (toValue (.leaf l d))) =
      some (.node d none none (some w)) := by
  obtain ⟨fs, hfs, hlookup⟩ := Doc.fields?_ofValue_ofEntries Wire.nodeFields
    (descriptionEntry d ++ [("leaf", l.toValue)])
  have hdescription : fs.optional "description" Doc.string? = some d :=
    optional_description (hlookup _ (by decide)) rfl
  have hlogic : fs.lookup "logic_type" = none := by
    rw [hlookup _ (by decide)]
    cases d <;> rfl
  have hchildren : fs.lookup "children" = none := by
    rw [hlookup _ (by decide)]
    cases d <;> rfl
  have hleaf : fs.lookup "leaf" = some (.ofValue l.toValue) := by
    rw [hlookup _ (by decide)]
    cases d <;> rfl
  have hfilled : l.toValue ≠ .null := by simp [Leaf.toValue, Value.ofEntries]
  rw [toValue, Wire.Node.readWithin?, hfs]
  simp only [Option.bind_some, Option.bind_eq_bind, hdescription,
    Doc.Fields.optional_of_missing hlogic, Doc.Fields.optional_of_missing hchildren,
    Doc.transcribes_ofValue.optional_of_lookup hleaf hfilled, hw, Option.map_some]

/-- The children of a branch are found in the entries of its value. -/
theorem lookup_children (logic : Logic) (cs : List Condition) (d : Option String) :
    (descriptionEntry d ++ [("logic_type", Value.string logic.name),
      ("children", Value.array (toValues cs))]).reverse.lookup "children" =
        some (.array (toValues cs)) := by
  cases d <;> rfl

/-- The value of a branch is read, as a node, with the records of the children in it. -/
theorem readWithin?_branch {cs : List Condition} {ns : List Wire.Node} {levels : Nat}
    (hns : (Doc.ofValues (toValues cs)).mapM (Wire.Node.readWithin? levels) = some ns)
    (logic : Logic) (d : Option String) :
    Wire.Node.readWithin? (levels + 1) (.ofValue (toValue (.branch logic cs d))) =
      some (.node d (some logic.name) (some ns) none) := by
  obtain ⟨fs, hfs, hlookup⟩ := Doc.fields?_ofValue_ofEntries Wire.nodeFields
    (descriptionEntry d ++
      [("logic_type", .string logic.name), ("children", .array (toValues cs))])
  have hdescription : fs.optional "description" Doc.string? = some d :=
    optional_description (hlookup _ (by decide)) rfl
  have hlogic : fs.lookup "logic_type" =
      ((some logic.name).map Value.string).map Doc.ofValue := by
    rw [hlookup _ (by decide)]
    cases d <;> rfl
  have hchildren : fs.lookup "children" = some (.ofValue (.array (toValues cs))) := by
    rw [hlookup _ (by decide), lookup_children, Option.map_some]
  have hleaf : fs.lookup "leaf" = none := by
    rw [hlookup _ (by decide)]
    cases d <;> rfl
  have hlist : (Doc.ofValue (.array (toValues cs))).list? (Wire.Node.readWithin? levels) =
      some ns := by
    rw [Doc.ofValue, Doc.list?, Doc.items?, Option.bind_some, hns]
  have hfilled : Value.array (toValues cs) ≠ .null := by simp
  rw [toValue, Wire.Node.readWithin?, hfs]
  simp only [Option.bind_some, Option.bind_eq_bind, hdescription,
    Doc.transcribes_ofValue.optional_string hlogic,
    Doc.transcribes_ofValue.optional_of_lookup hchildren hfilled, hlist,
    Doc.Fields.optional_of_missing hleaf, Option.map_some]

/-- The children of a branch have fewer levels than the branch. -/
theorem depth_children_lt (logic : Logic) (cs : List Condition) (d : Option String) :
    Doc.depthOfItems (Doc.ofValues (toValues cs)) + 1 <
      (Doc.ofValue (toValue (.branch logic cs d))).depth := by
  have hdeeper := Doc.depth_lt_of_lookup (lookup_children logic cs d)
  rw [Doc.ofValue, Doc.depth] at hdeeper
  rwa [toValue]

mutual

/-- The value of a tree is read as its record, if enough levels are looked at. -/
theorem readWithin?_toValue : ∀ (c : Condition) {levels : Nat},
    (Doc.ofValue c.toValue).depth ≤ levels → c.isOrdered = true →
    Wire.Node.readWithin? levels (.ofValue c.toValue) = some c.toNode
  | .leaf l d, 0, hlevels, _ =>
      absurd (Doc.depth_pos (.ofValue (toValue (.leaf l d)))) (Nat.not_lt.mpr hlevels)
  | .leaf l d, levels + 1, _, hordered => by
      have hl : l.comparand.isOrdered = true := by
        simpa [isOrdered, leaves] using hordered
      rw [readWithin?_leaf (Leaf.read?_toValue hl), toNode]
  | .branch logic cs d, 0, hlevels, _ =>
      absurd (Doc.depth_pos (.ofValue (toValue (.branch logic cs d)))) (Nat.not_lt.mpr hlevels)
  | .branch logic cs d, levels + 1, hlevels, hordered => by
      -- the children lie deeper, so the levels that are left are enough for them
      have hdeeper := depth_children_lt logic cs d
      have hns := mapM_readWithin?_toValues cs (show _ ≤ levels by omega) hordered
      rw [readWithin?_branch hns, toNode]

theorem mapM_readWithin?_toValues : ∀ (cs : List Condition) {levels : Nat},
    Doc.depthOfItems (Doc.ofValues (toValues cs)) ≤ levels → areOrdered cs = true →
    (Doc.ofValues (toValues cs)).mapM (Wire.Node.readWithin? levels) = some (toNodes cs)
  | [], _, _, _ => by rw [toValues, Doc.ofValues, toNodes]; rfl
  | c :: cs, levels, hlevels, hordered => by
      rw [toValues, Doc.ofValues, Doc.depthOfItems, Nat.max_le] at hlevels
      rw [areOrdered_cons, Bool.and_eq_true] at hordered
      rw [toValues, Doc.ofValues, List.mapM_cons, readWithin?_toValue c hlevels.1 hordered.1,
        mapM_readWithin?_toValues cs hlevels.2 hordered.2, toNodes]
      rfl

end

theorem read?_toValue {c : Condition} (h : c.isOrdered = true) :
    Wire.Node.read? (.ofValue c.toValue) = some c.toNode :=
  readWithin?_toValue c (Nat.le_refl _) h

mutual

/-- The record of a tree describes the tree, but for empty paths as comparands. -/
theorem decodeAt_toNode : ∀ (c : Condition) (trail : Trail),
    c.toNode.decodeAt trail = .ok c.reread
  | .leaf l d, trail => by
      rw [toNode, reread]
      unfold Wire.Node.decodeAt
      simp only [Leaf.decode_toRecord]
      rfl
  | .branch logic cs d, trail => by
      have hname : Wire.filled? (some logic.name) = some logic.name := by
        cases logic <;> decide
      have hlogic : Logic.ofName? logic.name = some logic := Logic.ofName?_eq_some_iff.mpr rfl
      rw [toNode, reread]
      unfold Wire.Node.decodeAt
      simp only [hname, hlogic, decodeAmong_toNodes cs trail]
      rfl

theorem decodeAmong_toNodes : ∀ (cs : List Condition) (trail : Trail) (parent : Label)
    (index : Nat), Wire.decodeAmong trail parent index (toNodes cs) = .ok (rereadAll cs)
  | [], _, _, _ => by rw [toNodes, Wire.decodeAmong, rereadAll]
  | c :: cs, trail, parent, index => by
      rw [toNodes, Wire.decodeAmong, decodeAt_toNode c, rereadAll,
        decodeAmong_toNodes cs trail parent]
      rfl

end

/-- **What is read back from the value of a tree.** -/
theorem ofValue_toValue {c : Condition} (h : c.isOrdered = true) :
    ofValue c.toValue = .ok c.reread := by
  rw [ofValue, ofDoc, read?_toValue h]
  simp only [Wire.Node.decode, decodeAt_toNode]
  rfl

/-! ## 5. Trees that are read back as they are -/

/-- No leaf of the tree has an empty path as its comparand. -/
def Faithful (c : Condition) : Prop := ∀ l ∈ c.leaves, l.comparand ≠ .path ⟨""⟩

mutual

/-- **A tree is read back as it is if no comparand is an empty path**, and only then. -/
theorem reread_eq_self_iff : ∀ c : Condition, c.reread = c ↔ c.Faithful
  | .leaf l d => by
      rw [reread, Condition.leaf.injEq, Faithful, leaves, List.forall_mem_singleton,
        ← Comparand.reread_eq_self_iff, Leaf.reread]
      obtain ⟨path, operator, comparand, note⟩ := l
      simp
  | .branch logic cs d => by
      rw [reread, Condition.branch.injEq, Faithful, leaves, rereadAll_eq_self_iff cs]
      simp

theorem rereadAll_eq_self_iff : ∀ cs : List Condition, rereadAll cs = cs ↔
    ∀ l ∈ leavesAmong cs, l.comparand ≠ .path ⟨""⟩
  | [] => by simp [rereadAll, leavesAmong]
  | c :: cs => by
      rw [rereadAll, List.cons.injEq, reread_eq_self_iff c, rereadAll_eq_self_iff cs, leavesAmong,
        List.forall_mem_append]
      rfl

end

end Condition

end Gatehouse
