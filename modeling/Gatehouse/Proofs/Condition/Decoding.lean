import Gatehouse.Condition.Wire
import Gatehouse.Proofs.Lists

/-!
# The records that describe a tree

What this file fixes, and what it shows about `Wire.Node.decode`:

* `Wire.Node.Sound`: what a record must be by itself, to be a leaf or a branch;
* `Wire.Node.Offends`: when it is neither, and which fault that is. The faults are listed in the
  order in which they are looked for, and exclude each other;
* `Wire.Node.HasAt`, `Trail.Before`: the record that a trail leads to, and pre-order;
* `decodeAt_step`: a record that offends is reported, and any other is made of its children;
* `decoding_exact`: the records of sound nodes are decoded, and every other record is refused for
  the first of its nodes that offends.
-/

namespace Gatehouse

/-! ## 1. Names and texts -/

theorem Operator.ofName?_eq_some_iff {s : String} {o : Operator} :
    ofName? s = some o ↔ o.name = s :=
  find?_name_eq_some_iff fun o => by cases o <;> decide +kernel

theorem Operator.ofName?_eq_none_iff {s : String} :
    ofName? s = none ↔ ∀ o : Operator, o.name ≠ s := by
  simp only [Option.eq_none_iff_forall_ne_some, ne_eq, ofName?_eq_some_iff]

theorem Logic.ofName?_eq_some_iff {s : String} {l : Logic} : ofName? s = some l ↔ l.name = s :=
  find?_name_eq_some_iff fun l => by cases l <;> decide +kernel

theorem Logic.ofName?_eq_none_iff {s : String} :
    ofName? s = none ↔ ∀ l : Logic, l.name ≠ s := by
  simp only [Option.eq_none_iff_forall_ne_some, ne_eq, ofName?_eq_some_iff]

namespace Wire

/-- The text is missing, or has no characters. -/
def Blank (s : Option String) : Prop := ∀ t, s = some t → t = ""

theorem filled?_eq_none_iff {s : Option String} : filled? s = none ↔ Blank s := by
  cases s with
  | none => simp [filled?, Blank]
  | some t => simp [filled?, Blank]

theorem filled?_eq_some_iff {s : Option String} {t : String} :
    filled? s = some t ↔ s = some t ∧ t ≠ "" := by
  simp [filled?, Option.filter_eq_some_iff]

/-! ## 2. Leaves -/

namespace Leaf

/-- What is asked of the record of a leaf: to name an operator, and not to have both a value and a
    path to compare with. -/
structure Sound (l : Leaf) : Prop where
  operator : ∃ o : Operator, o.name = l.operator
  comparand : l.value = none ∨ Blank l.comparandPath

/-- The record of a leaf is at fault, and this is its first fault. -/
inductive Offends (l : Leaf) : ShapeFault → Prop
  | missingOperator : l.operator = "" → Offends l (.missingOperator l.path)
  | unknownOperator : l.operator ≠ "" → (∀ o : Operator, o.name ≠ l.operator) →
      Offends l (.unknownOperator l.operator)
  | conflictingComparands : (∃ o : Operator, o.name = l.operator) → l.value ≠ none →
      ¬ Blank l.comparandPath → Offends l (.conflictingComparands l.path)

/-- No operator is named by a text without characters. -/
theorem ne_empty_of_named {l : Leaf} (h : ∃ o : Operator, o.name = l.operator) :
    l.operator ≠ "" := by
  obtain ⟨o, ho⟩ := h
  rw [← ho]
  cases o <;> decide

theorem decode_of_offends {l : Leaf} {f : ShapeFault} (h : l.Offends f) : l.decode = .error f := by
  unfold decode
  cases h with
  | missingOperator hempty => rw [hempty]; rfl
  | unknownOperator hempty hnone =>
      rw [Operator.ofName?_eq_none_iff.mpr hnone]
      simp [hempty]
  | conflictingComparands hname hvalue hpath =>
      have hempty := ne_empty_of_named hname
      obtain ⟨o, ho⟩ := hname
      obtain ⟨v, hv⟩ := Option.ne_none_iff_exists'.mp hvalue
      obtain ⟨t, ht⟩ := Option.ne_none_iff_exists'.mp (mt filled?_eq_none_iff.mp hpath)
      rw [Operator.ofName?_eq_some_iff.mpr ho]
      simp [hempty, comparand, hv, ht, Except.map]

theorem decode_of_sound {l : Leaf} (h : l.Sound) : ∃ g, l.decode = .ok g := by
  obtain ⟨o, ho⟩ := h.operator
  have hempty := ne_empty_of_named h.operator
  have hcomparand : ∃ c, l.comparand = .ok c := by
    unfold comparand
    rcases h.comparand with hvalue | hpath
    · rw [hvalue]
      cases filled? l.comparandPath with
      | none => exact ⟨_, rfl⟩
      | some t => exact ⟨_, rfl⟩
    · rw [filled?_eq_none_iff.mpr hpath]
      cases l.value with
      | none => exact ⟨_, rfl⟩
      | some v => exact ⟨_, rfl⟩
  obtain ⟨c, hc⟩ := hcomparand
  unfold decode
  rw [Operator.ofName?_eq_some_iff.mpr ho, hc]
  simp [hempty, Except.map]

/-- A record of a leaf is sound or at fault. -/
theorem offends_or_sound (l : Leaf) : (∃ f, l.Offends f) ∨ l.Sound := by
  by_cases hempty : l.operator = ""
  · exact Or.inl ⟨_, .missingOperator hempty⟩
  by_cases hname : ∃ o : Operator, o.name = l.operator
  · by_cases hboth : l.value ≠ none ∧ ¬ Blank l.comparandPath
    · exact Or.inl ⟨_, .conflictingComparands hname hboth.1 hboth.2⟩
    · refine Or.inr ⟨hname, ?_⟩
      by_cases hvalue : l.value = none
      · exact Or.inl hvalue
      · exact Or.inr (Classical.not_not.mp fun hpath => hboth ⟨hvalue, hpath⟩)
  · exact Or.inl ⟨_, .unknownOperator hempty fun o ho => hname ⟨o, ho⟩⟩

end Leaf

/-! ## 3. Nodes -/

namespace Node

/-- The label of a record. -/
def label : Node → Label
  | .node description _ _ _ => .ofDescription description

/-- The children of a record. -/
def children : Node → List Node
  | .node _ _ children _ => children.getD []

/-- What is asked of a record by itself: to be a leaf, with neither a logic nor children, or to be
    no leaf and to name a logic. -/
inductive Sound : Node → Prop
  | leaf {d logic : Option String} {l : Leaf} : Blank logic → l.Sound →
      Sound (.node d logic none (some l))
  | branch {d : Option String} {children : Option (List Node)} (logic : Logic) :
      Sound (.node d (some logic.name) children none)

/-- A record is at fault, and this is its first fault. -/
inductive Offends : Node → ShapeFault → Prop
  | leafAndBranch {d logic : Option String} {children : Option (List Node)} {l : Leaf} :
      ¬ Blank logic ∨ children ≠ none → Offends (.node d logic children (some l)) .leafAndBranch
  | leaf {d logic : Option String} {l : Leaf} {f : ShapeFault} : Blank logic → l.Offends f →
      Offends (.node d logic none (some l)) f
  | emptyNode {d logic : Option String} {children : Option (List Node)} : Blank logic →
      (children = none ∨ children = some []) → Offends (.node d logic children none) .emptyNode
  | missingLogic {d logic : Option String} {c : Node} {cs : List Node} : Blank logic →
      Offends (.node d logic (some (c :: cs)) none) .missingLogic
  | unknownLogic {d : Option String} {name : String} {children : Option (List Node)} : name ≠ "" →
      (∀ l : Logic, l.name ≠ name) → Offends (.node d (some name) children none) (.unknownLogic name)

/-- A record is sound or at fault. -/
theorem offends_or_sound (n : Node) : (∃ f, n.Offends f) ∨ n.Sound := by
  obtain ⟨d, logic, children, leaf⟩ := n
  by_cases hlogic : Blank logic
  · cases leaf with
    | some l =>
        by_cases hchildren : children = none
        · subst hchildren
          rcases l.offends_or_sound with ⟨f, hf⟩ | hl
          · exact Or.inl ⟨f, .leaf hlogic hf⟩
          · exact Or.inr (.leaf hlogic hl)
        · exact Or.inl ⟨_, .leafAndBranch (Or.inr hchildren)⟩
    | none =>
        match children with
        | none => exact Or.inl ⟨_, .emptyNode hlogic (Or.inl rfl)⟩
        | some [] => exact Or.inl ⟨_, .emptyNode hlogic (Or.inr rfl)⟩
        | some (c :: cs) => exact Or.inl ⟨_, .missingLogic hlogic⟩
  · cases leaf with
    | some l => exact Or.inl ⟨_, .leafAndBranch (Or.inl hlogic)⟩
    | none =>
        obtain ⟨name, hname⟩ := Option.ne_none_iff_exists'.mp (mt filled?_eq_none_iff.mp hlogic)
        obtain ⟨rfl, hempty⟩ := filled?_eq_some_iff.mp hname
        by_cases hknown : ∃ l : Logic, l.name = name
        · obtain ⟨l, rfl⟩ := hknown
          exact Or.inr (.branch l)
        · exact Or.inl ⟨_, .unknownLogic hempty fun l hl => hknown ⟨l, hl⟩⟩

theorem decodeAt_of_offends {n : Node} {f : ShapeFault} (h : n.Offends f) (trail : Trail) :
    n.decodeAt trail = .error ⟨trail, n.label, f⟩ := by
  cases h with
  | leafAndBranch hboth =>
      rename_i d logic children l
      have hshape : ((filled? logic).isSome || children.isSome) = true := by
        rw [Bool.or_eq_true, Option.isSome_iff_ne_none, Option.isSome_iff_ne_none]
        exact hboth.imp_left (mt filled?_eq_none_iff.mp)
      unfold decodeAt
      simp only [hshape, if_true, label]
  | leaf hlogic hl =>
      unfold decodeAt
      simp [filled?_eq_none_iff.mpr hlogic, Leaf.decode_of_offends hl, label]
  | emptyNode hlogic hchildren =>
      unfold decodeAt
      rcases hchildren with rfl | rfl
      · simp [filled?_eq_none_iff.mpr hlogic, label]
      · simp [filled?_eq_none_iff.mpr hlogic, label]
  | missingLogic hlogic =>
      unfold decodeAt
      simp [filled?_eq_none_iff.mpr hlogic, label]
  | unknownLogic hempty hnone =>
      unfold decodeAt
      simp [filled?_eq_some_iff.mpr ⟨rfl, hempty⟩, Logic.ofName?_eq_none_iff.mpr hnone, label]

/-- A sound record is made of its children. -/
theorem decodeAt_of_sound {n : Node} (h : n.Sound) (trail : Trail) :
    ∃ finish, n.decodeAt trail = (decodeAmong trail n.label 1 n.children).map finish := by
  cases h with
  | leaf hlogic hl =>
      rename_i d logic l
      obtain ⟨g, hg⟩ := Leaf.decode_of_sound hl
      refine ⟨fun _ => .leaf g d, ?_⟩
      unfold decodeAt
      simp [filled?_eq_none_iff.mpr hlogic, hg, children, decodeAmong, Except.map]
  | branch logic =>
      rename_i d children
      have hempty : logic.name ≠ "" := by cases logic <;> decide
      refine ⟨fun cs => .branch logic cs d, ?_⟩
      unfold decodeAt
      cases children with
      | none =>
          simp [filled?_eq_some_iff.mpr ⟨rfl, hempty⟩, Logic.ofName?_eq_some_iff.mpr rfl,
            Node.children, decodeAmong, Except.map]
      | some cs =>
          simp [filled?_eq_some_iff.mpr ⟨rfl, hempty⟩, Logic.ofName?_eq_some_iff.mpr rfl,
            Node.children, label]

/-! ## 4. Trails -/

/-- The trail leads from a record to a record in it. A step names the record that it starts from by
    its description, and the child that it leads to by its position, counted from 1. -/
inductive HasAt : Node → Trail → Node → Prop
  | root (n : Node) : HasAt n [] n
  | child {n c m : Node} {i : Nat} {t : Trail} : n.children[i]? = some c → HasAt c t m →
      HasAt n (⟨i + 1, n.label⟩ :: t) m

end Node

end Wire

/-- The first trail leads to a node that comes earlier in pre-order: an ancestor of the other node,
    or a node on the side of smaller positions where the ways part. -/
def Trail.Before (t u : Trail) : Prop := t.map Frame.index < u.map Frame.index

theorem Trail.not_before_nil (t : Trail) : ¬ t.Before [] := List.not_lt_nil _

theorem Trail.before_cons_iff {f g : Frame} {t u : Trail} : Trail.Before (f :: t) (g :: u) ↔
    f.index < g.index ∨ f.index = g.index ∧ t.Before u :=
  List.cons_lt_cons_iff

namespace Wire

/-! ## 5. The walk over a record -/

namespace Node

/-- All records in a record are sound, and so is the record itself. -/
def SoundThroughout (n : Node) : Prop := ∀ t m, n.HasAt t m → m.Sound

/-- The error is found at the end of the trail: the record there is the first in pre-order that
    offends. -/
structure Blamed (n : Node) (t : Trail) (e : ShapeError) (m : Node) : Prop where
  hasAt : n.HasAt t m
  label : e.node = m.label
  offends : m.Offends e.fault
  earlier : ∀ u k, n.HasAt u k → u.Before t → k.Sound

/-- **A record that offends is reported at once, and any other is made of its children.** -/
theorem decodeAt_step (n : Node) (trail : Trail) :
    (∃ f, n.Offends f ∧ n.decodeAt trail = .error ⟨trail, n.label, f⟩) ∨
    n.Sound ∧ ∃ finish, n.decodeAt trail = (decodeAmong trail n.label 1 n.children).map finish := by
  rcases n.offends_or_sound with ⟨f, hf⟩ | hn
  · exact Or.inl ⟨f, hf, decodeAt_of_offends hf trail⟩
  · exact Or.inr ⟨hn, decodeAt_of_sound hn trail⟩

theorem soundThroughout_iff {n : Node} :
    n.SoundThroughout ↔ n.Sound ∧ ∀ (i : Nat) (c : Node), n.children[i]? = some c →
      c.SoundThroughout := by
  constructor
  · intro h
    exact ⟨h _ _ (.root n), fun i c hc t m hm => h _ _ (.child hc hm)⟩
  · intro ⟨hn, hchildren⟩ t m hm
    cases hm with
    | root => exact hn
    | child hc hm => exact hchildren _ _ hc _ _ hm

/-- A record whose child is blamed, after sound ones, is blamed there itself. -/
theorem Blamed.of_child {n c m : Node} {i : Nat} {t : Trail} {e : ShapeError} (hn : n.Sound)
    (hc : n.children[i]? = some c) (h : c.Blamed t e m)
    (hbefore : ∀ (j : Nat) (k : Node), j < i → n.children[j]? = some k → k.SoundThroughout) :
    n.Blamed (⟨i + 1, n.label⟩ :: t) e m where
  hasAt := .child hc h.hasAt
  label := h.label
  offends := h.offends
  earlier := by
    intro u k hk hu
    cases hk with
    | root => exact hn
    | child hc' hk' =>
        rename_i c' j u'
        rcases Trail.before_cons_iff.mp hu with hlt | ⟨heq, hu'⟩
        · exact hbefore j c' (Nat.lt_of_succ_lt_succ hlt) hc' _ _ hk'
        · obtain rfl : j = i := Nat.succ.inj heq
          obtain rfl : c' = c := Option.some.inj (hc'.symm.trans hc)
          exact h.earlier _ _ hk' hu'

end Node

mutual

/-- A record that is decoded is sound throughout. -/
theorem soundThroughout_of_decodeAt : ∀ (n : Node) {trail : Trail} {c : Condition},
    n.decodeAt trail = .ok c → n.SoundThroughout
  | .node d logic children leaf, trail, c, h => by
      rcases Node.decodeAt_step (.node d logic children leaf) trail with
        ⟨f, _, hdecode⟩ | ⟨hn, finish, hdecode⟩
      · rw [hdecode] at h
        cases h
      · rw [hdecode] at h
        obtain ⟨decoded, hdecoded⟩ := exists_of_map_ok h
        refine Node.soundThroughout_iff.mpr ⟨hn, ?_⟩
        match children with
        | none =>
            intro i c hc
            cases hc
        | some cs => exact soundThroughout_of_decodeAmong cs hdecoded

theorem soundThroughout_of_decodeAmong : ∀ (ns : List Node) {trail : Trail} {parent : Label}
    {index : Nat} {cs : List Condition}, decodeAmong trail parent index ns = .ok cs →
    ∀ (i : Nat) (n : Node), ns[i]? = some n → n.SoundThroughout
  | [], _, _, _, _, _, i, n, hn => by cases hn
  | n :: ns, trail, parent, index, cs, h, i, m, hm => by
      rw [decodeAmong] at h
      split at h
      · cases h
      · rename_i c hc
        obtain ⟨rest, hrest⟩ := exists_of_map_ok h
        cases i with
        | zero =>
            cases hm
            exact soundThroughout_of_decodeAt n hc
        | succ i => exact soundThroughout_of_decodeAmong ns hrest i m hm

end

mutual

/-- A record that is not decoded is refused for the first of its nodes that offends. -/
theorem blamed_of_decodeAt : ∀ (n : Node) {trail : Trail} {e : ShapeError},
    n.decodeAt trail = .error e → ∃ t m, e.trail = trail ++ t ∧ n.Blamed t e m
  | .node d logic children leaf, trail, e, h => by
      rcases Node.decodeAt_step (.node d logic children leaf) trail with
        ⟨f, hf, hdecode⟩ | ⟨hn, finish, hdecode⟩
      · rw [hdecode] at h
        cases h
        exact ⟨[], _, (List.append_nil _).symm, .root _, rfl, hf,
          fun u k _ hu => absurd hu (Trail.not_before_nil u)⟩
      · rw [hdecode] at h
        have hchildren := eq_error_of_map h
        match children with
        | none => cases hchildren
        | some cs =>
            obtain ⟨i, c, t, m, hc, htrail, hm, hbefore⟩ := blamed_of_decodeAmong cs hchildren
            rw [Nat.add_comm] at htrail
            exact ⟨_, m, htrail, .of_child hn hc hm hbefore⟩

theorem blamed_of_decodeAmong : ∀ (ns : List Node) {trail : Trail} {parent : Label} {index : Nat}
    {e : ShapeError}, decodeAmong trail parent index ns = .error e →
    ∃ i n t m, ns[i]? = some n ∧ e.trail = trail ++ ⟨index + i, parent⟩ :: t ∧ n.Blamed t e m ∧
      ∀ (j : Nat) (k : Node), j < i → ns[j]? = some k → k.SoundThroughout
  | [], _, _, _, _, h => by cases h
  | n :: ns, trail, parent, index, e, h => by
      rw [decodeAmong] at h
      split at h
      · rename_i e' hn
        cases h
        obtain ⟨t, m, htrail, hm⟩ := blamed_of_decodeAt n hn
        refine ⟨0, n, t, m, rfl, ?_, hm, fun j k hj _ => absurd hj (Nat.not_lt_zero j)⟩
        rw [htrail, List.append_assoc]
        rfl
      · rename_i c hn
        have hrest := eq_error_of_map h
        obtain ⟨i, n', t, m, hn', htrail, hm, hbefore⟩ := blamed_of_decodeAmong ns hrest
        refine ⟨i + 1, n', t, m, hn', ?_, hm, ?_⟩
        · rw [htrail, Nat.add_assoc, Nat.add_comm 1]
        · intro j k hj hk
          cases j with
          | zero =>
              cases hk
              exact soundThroughout_of_decodeAt n hn
          | succ j => exact hbefore j k (Nat.lt_of_succ_lt_succ hj) hk

end

/-! ## 6. What is decoded -/

namespace Node

/-- A record has at most one first fault. -/
theorem Offends.unique {n : Node} {f g : ShapeFault} (hf : n.Offends f) (hg : n.Offends g) :
    f = g := by
  have herror := (decodeAt_of_offends hf []).symm.trans (decodeAt_of_offends hg [])
  cases herror
  rfl

/-- A sound record is without fault. -/
theorem Sound.not_offends {n : Node} (hn : n.Sound) (f : ShapeFault) : ¬ n.Offends f := by
  intro hf
  cases hn with
  | leaf hlogic hl =>
      cases hf with
      | leafAndBranch hboth =>
          rcases hboth with hlogic' | hchildren
          · exact hlogic' hlogic
          · exact hchildren rfl
      | leaf _ hfault =>
          obtain ⟨g, hg⟩ := Leaf.decode_of_sound hl
          rw [Leaf.decode_of_offends hfault] at hg
          cases hg
  | branch logic =>
      have hnamed : ¬ Blank (some logic.name) := by
        intro hblank
        have hempty := hblank _ rfl
        cases logic <;> exact absurd hempty (by decide)
      cases hf with
      | emptyNode hblank => exact hnamed hblank
      | missingLogic hblank => exact hnamed hblank
      | unknownLogic _ hnone => exact hnone logic rfl

/-- **Exactly the records whose nodes are all sound are decoded, and every other record is refused
    for the first of its nodes in pre-order that offends.** The trail leads to this node, through
    records with the descriptions that it names, and the fault is the first one that the node has. -/
theorem decoding_exact (n : Node) :
    ((∃ c, n.decode = .ok c) ↔ ∀ t m, n.HasAt t m → m.Sound) ∧
    ∀ e, n.decode = .error e →
      ∃ m, n.HasAt e.trail m ∧ e.node = m.label ∧ m.Offends e.fault ∧
        (∀ f, m.Offends f → f = e.fault) ∧
        ∀ t k, n.HasAt t k → t.Before e.trail → k.Sound := by
  have hblamed : ∀ e, n.decode = .error e → ∃ m, n.Blamed e.trail e m := by
    intro e he
    obtain ⟨t, m, htrail, hm⟩ := blamed_of_decodeAt n he
    rw [List.nil_append] at htrail
    exact ⟨m, htrail ▸ hm⟩
  constructor
  · constructor
    · intro ⟨c, hc⟩
      exact soundThroughout_of_decodeAt n hc
    · intro hsound
      cases hdecode : n.decode with
      | ok c => exact ⟨c, rfl⟩
      | error e =>
          obtain ⟨m, hm⟩ := hblamed e hdecode
          exact absurd hm.offends ((hsound _ m hm.hasAt).not_offends _)
  · intro e he
    obtain ⟨m, hm⟩ := hblamed e he
    exact ⟨m, hm.hasAt, hm.label, hm.offends, fun f hf => hf.unique hm.offends, hm.earlier⟩

/-- The record of a tree with two checks in a group, the second with the given operator and logic. -/
def groupRecord (operator logic : String) : Node :=
  .node (some "Root") (some "OR") (some [
    .node none (some "") none (some ⟨"subject.id", "IsNull", none, none, some ""⟩),
    .node (some "Group") (some "AND") (some [
      .node none none none (some ⟨"subject.level", "Equals", none, some .null, none⟩),
      .node none (some logic) none (some ⟨"", operator, none, none, some "resource.owner"⟩)]) none])
    none

/-- With a known operator the record is decoded. With an unknown one it is refused for the second
    check of the group; and where a logic is named beside the unknown operator, for being both a leaf
    and a branch, which is looked for before. -/
theorem decoding_exact_group :
    (∃ c, (groupRecord "Contains" "").decode = .ok c) ∧
    (∀ t m, (groupRecord "Contains" "").HasAt t m → m.Sound) ∧
    (groupRecord "Has" "").decode =
      .error ⟨[⟨2, ⟨some "Root"⟩⟩, ⟨2, ⟨some "Group"⟩⟩], ⟨none⟩, .unknownOperator "Has"⟩ ∧
    (∃ m, (groupRecord "Has" "").HasAt [⟨2, ⟨some "Root"⟩⟩, ⟨2, ⟨some "Group"⟩⟩] m ∧
      m.Offends (.unknownOperator "Has")) ∧
    (groupRecord "Has" "AND").decode =
      .error ⟨[⟨2, ⟨some "Root"⟩⟩, ⟨2, ⟨some "Group"⟩⟩], ⟨none⟩, .leafAndBranch⟩ ∧
    ∃ m, (groupRecord "Has" "AND").HasAt [⟨2, ⟨some "Root"⟩⟩, ⟨2, ⟨some "Group"⟩⟩] m ∧
      m.Offends .leafAndBranch := by
  have hdecoded : ∃ c, (groupRecord "Contains" "").decode = .ok c := ⟨_, rfl⟩
  have hunknown : (groupRecord "Has" "").decode =
      .error ⟨[⟨2, ⟨some "Root"⟩⟩, ⟨2, ⟨some "Group"⟩⟩], ⟨none⟩, .unknownOperator "Has"⟩ := by
    decide +kernel
  have hboth : (groupRecord "Has" "AND").decode =
      .error ⟨[⟨2, ⟨some "Root"⟩⟩, ⟨2, ⟨some "Group"⟩⟩], ⟨none⟩, .leafAndBranch⟩ := by
    decide +kernel
  obtain ⟨m, hm, _, hoffends, _⟩ := (decoding_exact _).2 _ hunknown
  obtain ⟨m', hm', _, hoffends', _⟩ := (decoding_exact _).2 _ hboth
  exact ⟨hdecoded, (decoding_exact _).1.mp hdecoded, hunknown, ⟨m, hm, hoffends⟩, hboth,
    ⟨m', hm', hoffends'⟩⟩

end Node

end Wire

end Gatehouse
