import Gatehouse.Proofs.Condition.Validity
import Gatehouse.Proofs.Condition.Writing

/-!
# Writing and reading are inverse

What this file shows about `Condition.ofValue`:

* `leaf_of_decodeAt`: the leaves of a tree that is read come from the records of leaves;
* `faithful_of_ofDoc`: so they have no empty path as comparand, and their literals are in order;
* `ofValue_toValue_iff`: a tree is read back from its value as it is exactly if no comparand is an
  empty path. All trees that were read are, and all that are valid.
-/

namespace Gatehouse

namespace Wire

/-! ## 1. Records that are read -/

mutual

/-- The records of leaves in a record. -/
def Node.leaves : Node → List Leaf
  | .node _ _ none leaf => leaf.toList
  | .node _ _ (some cs) leaf => leaf.toList ++ leavesAmong cs

/-- The records of leaves in several records. -/
def leavesAmong : List Node → List Leaf
  | [] => []
  | n :: ns => Node.leaves n ++ leavesAmong ns

end

theorem mem_leavesAmong {w : Leaf} : ∀ {ns : List Node}, w ∈ leavesAmong ns →
    ∃ n ∈ ns, w ∈ n.leaves
  | n :: ns, h => by
      rw [leavesAmong] at h
      rcases List.mem_append.mp h with h | h
      · exact ⟨n, List.mem_cons_self, h⟩
      · obtain ⟨m, hm, hw⟩ := mem_leavesAmong h
        exact ⟨m, List.mem_cons_of_mem _ hm, hw⟩

/-- The record of a leaf that is read has a value with its entries in order, if any. -/
theorem Leaf.isOrdered_of_read? {d : Doc} {w : Leaf} (h : Leaf.read? d = some w) {v : Value}
    (hv : w.value = some v) : v.isOrdered = true := by
  unfold Leaf.read? at h
  simp only [Option.bind_eq_bind, Option.bind_eq_some_iff] at h
  obtain ⟨fs, _, path, _, operator, _, description, _, value, hvalue, comparand, _, hw⟩ := h
  cases hw
  obtain rfl : value = some v := hv
  unfold Doc.Fields.defaulted at hvalue
  split at hvalue
  · cases hvalue
  · obtain ⟨u, hu, huv⟩ := Option.map_eq_some_iff.mp hvalue
    rw [Option.some.inj huv] at hu
    exact Doc.isOrdered_of_value? _ hu

/-- All values in a record that is read have their entries in order. -/
theorem Node.isOrdered_of_readWithin? : ∀ (levels : Nat) {d : Doc} {n : Node},
    Node.readWithin? levels d = some n → ∀ w ∈ n.leaves, ∀ v, w.value = some v →
    v.isOrdered = true
  | levels + 1, d, n, h, w, hw, v, hv => by
      unfold Node.readWithin? at h
      simp only [Option.bind_eq_bind, Option.bind_eq_some_iff] at h
      obtain ⟨fs, _, description, _, logic, _, children, hchildren, leaf, hleaf, hn⟩ := h
      cases hn
      have hown : w ∈ leaf.toList → v.isOrdered = true := by
        intro hmem
        obtain rfl := Option.mem_toList.mp hmem
        obtain ⟨d', hd'⟩ := Doc.Fields.exists_of_optional hleaf
        exact Leaf.isOrdered_of_read? hd' hv
      cases children with
      | none => exact hown hw
      | some cs =>
          rcases List.mem_append.mp hw with hw | hw
          · exact hown hw
          · obtain ⟨m, hm, hmw⟩ := mem_leavesAmong hw
            obtain ⟨d', hd'⟩ := Doc.Fields.exists_of_optional hchildren
            obtain ⟨e, he⟩ := Doc.exists_of_list? hd' hm
            exact Node.isOrdered_of_readWithin? levels he w hmw v hv

/-! ## 2. Leaves that are decoded -/

/-- The comparand of a record is its value or its path, and no path without characters. -/
theorem Leaf.comparand_eq_ok {w : Leaf} {c : Comparand} (h : w.comparand = .ok c) :
    (∀ v, c = .literal v → w.value = some v) ∧ c ≠ .path ⟨""⟩ := by
  unfold Leaf.comparand at h
  split at h
  · cases h
  · rename_i v hv _
    cases h
    exact ⟨fun u hu => by cases hu; exact hv, nofun⟩
  · rename_i p _ hp
    cases h
    refine ⟨nofun, fun heq => ?_⟩
    obtain rfl : p = "" := congrArg Path.text (Comparand.path.inj heq)
    have hfilled := (Option.filter_eq_some_iff.mp hp).2
    exact absurd hfilled (by decide)
  · cases h
    exact ⟨nofun, nofun⟩

theorem Leaf.comparand_of_decode {w : Leaf} {l : Gatehouse.Leaf} (h : w.decode = .ok l) :
    w.comparand = .ok l.comparand := by
  unfold Leaf.decode at h
  split at h
  · cases h
  · split at h
    · cases h
    · cases hc : w.comparand with
      | error f => rw [hc] at h; cases h
      | ok c => rw [hc] at h; cases h; rfl

mutual

/-- **The leaves of a tree that is decoded are decoded from the records of leaves.** -/
theorem leaf_of_decodeAt : ∀ (n : Node) {trail : Trail} {c : Condition},
    n.decodeAt trail = .ok c → ∀ l ∈ c.leaves, ∃ w ∈ n.leaves, w.decode = .ok l
  | .node d logic children (some w), trail, c, h => by
      unfold Node.decodeAt at h
      simp only at h
      split at h
      · cases h
      · split at h
        · cases h
        · rename_i l hl
          cases h
          intro l' hl'
          rw [List.mem_singleton.mp hl']
          have hw : w ∈ Node.leaves (.node d logic children (some w)) := by
            cases children with
            | none => exact List.mem_cons_self
            | some cs => exact List.mem_append_left _ List.mem_cons_self
          exact ⟨w, hw, hl⟩
  | .node d logic none none, trail, c, h => by
      unfold Node.decodeAt at h
      simp only at h
      split at h
      · cases h
      · split at h
        · cases h
        · cases h
          exact fun l hl => absurd hl List.not_mem_nil
  | .node d logic (some ns) none, trail, c, h => by
      unfold Node.decodeAt at h
      simp only at h
      split at h
      · split at h <;> cases h
      · split at h
        · cases h
        · cases hns : decodeAmong trail (.ofDescription d) 1 ns with
          | error e => rw [hns] at h; cases h
          | ok cs =>
              rw [hns] at h
              cases h
              intro l hl
              exact leaf_of_decodeAmong ns hns l hl

theorem leaf_of_decodeAmong : ∀ (ns : List Node) {trail : Trail} {parent : Label} {index : Nat}
    {cs : List Condition}, decodeAmong trail parent index ns = .ok cs →
    ∀ l ∈ Condition.leavesAmong cs, ∃ w ∈ leavesAmong ns, w.decode = .ok l
  | [], _, _, _, _, h => by
      cases h
      exact fun l hl => absurd hl List.not_mem_nil
  | n :: ns, trail, parent, index, _, h => by
      rw [decodeAmong] at h
      split at h
      · cases h
      · rename_i c hc
        cases hns : decodeAmong trail parent (index + 1) ns with
        | error e => rw [hns] at h; cases h
        | ok cs =>
            rw [hns] at h
            cases h
            intro l hl
            rcases List.mem_append.mp hl with hl | hl
            · obtain ⟨w, hw, hwl⟩ := leaf_of_decodeAt n hc l hl
              exact ⟨w, List.mem_append_left _ hw, hwl⟩
            · obtain ⟨w, hw, hwl⟩ := leaf_of_decodeAmong ns hns l hl
              exact ⟨w, List.mem_append_right _ hw, hwl⟩

end

end Wire

/-! ## 3. Trees that were read -/

namespace Condition

/-- **A tree that was read is faithful, and its literals are in order.** -/
theorem faithful_of_ofDoc {d : Doc} {c : Condition} (h : ofDoc d = .ok c) :
    c.isOrdered = true ∧ c.Faithful := by
  unfold ofDoc at h
  split at h
  · cases h
  · rename_i n hn
    have hdecode : n.decode = .ok c := by
      cases hd : n.decode with
      | error e => rw [hd] at h; cases h
      | ok c' => rw [hd] at h; cases h; rfl
    have hleaves : ∀ l ∈ c.leaves, ∃ w ∈ n.leaves, w.comparand = .ok l.comparand := by
      intro l hl
      obtain ⟨w, hw, hwl⟩ := Wire.leaf_of_decodeAt n hdecode l hl
      exact ⟨w, hw, Wire.Leaf.comparand_of_decode hwl⟩
    constructor
    · refine List.all_eq_true.mpr fun l hl => ?_
      obtain ⟨w, hw, hwl⟩ := hleaves l hl
      cases hc : l.comparand with
      | absent | path p => rfl
      | literal u =>
          have hu := (Wire.Leaf.comparand_eq_ok hwl).1 u hc
          exact Wire.Node.isOrdered_of_readWithin? _ hn w hw u hu
    · intro l hl
      obtain ⟨w, _, hwl⟩ := hleaves l hl
      exact (Wire.Leaf.comparand_eq_ok hwl).2

/-- A tree without violation is faithful. -/
theorem faithful_of_validate {limits : Limits} {c : Condition} (h : c.validate limits = .ok ()) :
    c.Faithful := by
  intro l hl hpath
  obtain ⟨_, _, _, _, hcomparand⟩ :=
    Leaf.flaw?_eq_none_iff.mp (flaw?_of_violation (validate_eq_ok_iff.mp h) l hl)
  obtain ⟨n, hn⟩ := hcomparand _ hpath
  cases hn

/-! ## 4. There and back -/

/-- The trees that are read back as they are, among all that can be written down. -/
theorem ofValue_toValue_eq_ok_iff {c : Condition} :
    ofValue c.toValue = .ok c ↔ c.isOrdered = true ∧ c.Faithful := by
  constructor
  · exact faithful_of_ofDoc
  · rintro ⟨hordered, hfaithful⟩
    rw [ofValue_toValue hordered, (reread_eq_self_iff c).mpr hfaithful]

/-- **Writing and reading are inverse.** A tree whose literals are in order, as those of all values
    that were read, is read back from its value exactly if no leaf has an empty path as comparand.
    So every tree that was read from any value comes back, and every tree that is valid under any
    limits; and a document that was read and written is not changed by doing so again. -/
theorem ofValue_toValue_iff :
    (∀ c : Condition, c.isOrdered = true →
      (ofValue c.toValue = .ok c ↔ ∀ l ∈ c.leaves, l.comparand ≠ .path ⟨""⟩)) ∧
    (∀ (v : Value) (c : Condition), ofValue v = .ok c → ofValue c.toValue = .ok c) ∧
    (∀ (limits : Limits) (c : Condition), c.isOrdered = true → c.validate limits = .ok () →
      ofValue c.toValue = .ok c) ∧
    ∀ v w : Value, (ofValue v).map toValue = .ok w → (ofValue w).map toValue = .ok w := by
  have hread : ∀ (v : Value) (c : Condition), ofValue v = .ok c → ofValue c.toValue = .ok c :=
    fun v c h => ofValue_toValue_eq_ok_iff.mpr (faithful_of_ofDoc h)
  refine ⟨fun c hordered => ?_, hread, fun limits c hordered hvalid => ?_, fun v w h => ?_⟩
  · rw [ofValue_toValue_eq_ok_iff, and_iff_right hordered]
    exact Iff.rfl
  · exact ofValue_toValue_eq_ok_iff.mpr ⟨hordered, faithful_of_validate hvalid⟩
  · cases hv : ofValue v with
    | error e => rw [hv] at h; cases h
    | ok c =>
        rw [hv] at h
        cases h
        rw [hread v c hv]
        rfl

/-- A tree with empty descriptions, an empty branch, an empty attribute, a null and an object as
    literals, and the given path as comparand. -/
def oddTree (p : Path) : Condition :=
  .branch .and
    [.leaf ⟨⟨"subject.left"⟩, .equals, .literal .null, some ""⟩ (some ""),
      .branch .or [] none,
      .leaf ⟨⟨""⟩, .contains, .path p, none⟩ none,
      .leaf ⟨⟨"body.form"⟩, .isNull, .literal (.object [("a", .array [.null]), ("b", .object [])]),
        none⟩ (some "form")]
    (some "")

/-- A leaf that is written with an empty comparand path, which is dropped when it is read. -/
def droppedPath : Value :=
  .object [("leaf", .object [("attribute", .string "subject.level"), ("operator", .string "IsNull"),
    ("resource_attribute", .string "")]), ("logic_type", .string "")]

/-- What is read of it. -/
def keptLeaf : Condition := .leaf ⟨⟨"subject.level"⟩, .isNull, .absent, none⟩ none

/-- A valid leaf, which compares two attributes. -/
def ownerLeaf : Condition := .leaf ⟨⟨"subject.id"⟩, .equals, .path ⟨"resource.owner"⟩, none⟩ none

/-- The odd tree comes back if its comparand has characters, and does not if it has none; a leaf
    that has lost an empty path stays the same from then on; and a valid leaf comes back. -/
theorem ofValue_toValue_iff_odd :
    (oddTree ⟨"resource.owner"⟩).isOrdered = true ∧
    ofValue (oddTree ⟨"resource.owner"⟩).toValue = .ok (oddTree ⟨"resource.owner"⟩) ∧
    (oddTree ⟨""⟩).isOrdered = true ∧
    ofValue (oddTree ⟨""⟩).toValue ≠ .ok (oddTree ⟨""⟩) ∧
    ofValue droppedPath = .ok keptLeaf ∧ ofValue keptLeaf.toValue = .ok keptLeaf ∧
    ownerLeaf.isOrdered = true ∧ ownerLeaf.validate .standard = .ok () ∧
    ofValue ownerLeaf.toValue = .ok ownerLeaf ∧
    (ofValue droppedPath).map toValue = .ok keptLeaf.toValue ∧
    (ofValue keptLeaf.toValue).map toValue = .ok keptLeaf.toValue := by
  obtain ⟨hiff, hread, hvalid, hagain⟩ := ofValue_toValue_iff
  have hfull : (oddTree ⟨"resource.owner"⟩).isOrdered = true := by decide +kernel
  have hempty : (oddTree ⟨""⟩).isOrdered = true := by decide +kernel
  have hdropped : ofValue droppedPath = .ok keptLeaf := by decide +kernel
  have howner : ownerLeaf.isOrdered = true := by decide +kernel
  have hvalidOwner : ownerLeaf.validate .standard = .ok () := by decide +kernel
  have hwritten : (ofValue droppedPath).map toValue = .ok keptLeaf.toValue := by
    rw [hdropped]
    rfl
  have hlost : ¬ ∀ l ∈ (oddTree ⟨""⟩).leaves, l.comparand ≠ .path ⟨""⟩ := by decide +kernel
  exact ⟨hfull, (hiff _ hfull).mpr (by decide +kernel), hempty,
    fun h => hlost ((hiff _ hempty).mp h), hdropped, hread _ _ hdropped, howner,
    hvalidOwner, hvalid _ _ howner hvalidOwner, hwritten, hagain _ _ hwritten⟩

end Condition

end Gatehouse
