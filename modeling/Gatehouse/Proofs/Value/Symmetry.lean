import Gatehouse.Proofs.Condition.Alike
import Gatehouse.Proofs.Resolution
import Gatehouse.Proofs.Value.NormalForm
import Gatehouse.Proofs.Value.Respelling

/-!
# Agreement has no sides

What this file fixes, and what it shows about `Value.agrees`:

* `Value.hasDistinctKeys`: no object in a value has two entries of one key, in whatever order the
  entries stand. Values that are in order are such;
* `agrees_self`, `agrees_comm`: every such value agrees with itself, and two of them agree in both
  directions or in none, though of two objects only the entries of the left one are gone through;
* `hasDistinctKeys_of_resolve`: a path leads to such a value wherever it leads;
* `Leaf.Exchanged`: two equations between the same attributes, the one from left to right and the
  other from right to left;
* `agrees_either_way`: equations may be turned around anywhere in a tree, and no verdict changes.
-/

namespace Gatehouse

/-! ## 1. Values without repeated keys -/

namespace Value

mutual

/-- No object in the value has two entries of one key. -/
def hasDistinctKeys : Value → Bool
  | .array items => haveDistinctKeys items
  | .object entries => decide (entries.map Prod.fst).Nodup && entriesHaveDistinctKeys entries
  | _ => true

/-- No object in the items has two entries of one key. -/
def haveDistinctKeys : List Value → Bool
  | [] => true
  | v :: vs => hasDistinctKeys v && haveDistinctKeys vs

/-- No object in the values of the entries has two entries of one key. -/
def entriesHaveDistinctKeys : List (String × Value) → Bool
  | [] => true
  | (_, v) :: es => hasDistinctKeys v && entriesHaveDistinctKeys es

end

theorem array_hasDistinctKeys_iff {items : List Value} :
    (array items).hasDistinctKeys = true ↔ ∀ v ∈ items, v.hasDistinctKeys = true := by
  rw [hasDistinctKeys]
  induction items with
  | nil => simp [haveDistinctKeys]
  | cons v vs ih => rw [haveDistinctKeys, Bool.and_eq_true, ih, List.forall_mem_cons]

theorem object_hasDistinctKeys_iff {entries : List (String × Value)} :
    (object entries).hasDistinctKeys = true ↔
      (entries.map Prod.fst).Nodup ∧ ∀ e ∈ entries, e.2.hasDistinctKeys = true := by
  have hvalues : ∀ es : List (String × Value), entriesHaveDistinctKeys es = true ↔
      ∀ e ∈ es, e.2.hasDistinctKeys = true := by
    intro es
    induction es with
    | nil => simp [entriesHaveDistinctKeys]
    | cons e es ih => rw [entriesHaveDistinctKeys, Bool.and_eq_true, ih, List.forall_mem_cons]
  rw [hasDistinctKeys, Bool.and_eq_true, decide_eq_true_iff, hvalues]

/-- Values in order have distinct keys; these are the values that a reader hands over. -/
theorem hasDistinctKeys_of_isOrdered {v : Value} (h : v.isOrdered = true) :
    v.hasDistinctKeys = true := by
  induction v using Value.inductionOn with
  | null | bool | number | string => rfl
  | array items ih =>
      exact array_hasDistinctKeys_iff.mpr fun v hv => ih v hv (areOrdered_iff.mp h v hv)
  | object entries ih =>
      have hnodup := nodup_of_isOrdered h
      rw [isOrdered, Bool.and_eq_true] at h
      exact object_hasDistinctKeys_iff.mpr
        ⟨hnodup, fun e he => ih e he (entriesOrdered_iff.mp h.2 e he)⟩

/-! ## 2. Agreement in both directions -/

theorem stringsAgree_comm {s t : String} (h : stringsAgree s t = true) :
    stringsAgree t s = true :=
  textRespelled_iff.mp (textRespelled_iff.mpr h).symm

/-- **Every value agrees with itself.** -/
theorem agrees_self {a : Value} (ha : a.hasDistinctKeys = true) : a.agrees a = true := by
  induction a using Value.inductionOn with
  | null => rfl
  | bool b => rw [agrees, beq_self_eq_true]
  | number n =>
      rw [agrees, Number.agrees_iff]
      refine ⟨rfl, ?_⟩
      rintro i j rfl hj
      exact Number.int.inj hj
  | string s => exact textRespelled_iff.mp (.same s)
  | array items ih =>
      rw [agrees, itemsAgree_iff_forall₂, List.forall₂_same]
      exact fun v hv => ih v hv (array_hasDistinctKeys_iff.mp ha v hv)
  | object entries ih =>
      obtain ⟨hnodup, hvalues⟩ := object_hasDistinctKeys_iff.mp ha
      rw [agrees, beq_self_eq_true, Bool.true_and]
      refine entriesAgree_iff.mpr fun k v hv => ?_
      exact ⟨v, lookup_of_mem hnodup hv, ih _ hv (hvalues _ hv)⟩

/-- Where every entry of the one side has a partner on the other and there are equally many, every
    entry of the other has a partner on the one: no key is left over, and none stands twice. -/
theorem entriesAgree_swap {as bs : List (String × Value)} (has : (as.map Prod.fst).Nodup)
    (hbs : (bs.map Prod.fst).Nodup) (hlength : as.length = bs.length)
    (hswap : ∀ e ∈ as, ∀ f ∈ bs, e.2.agrees f.2 = true → f.2.agrees e.2 = true)
    (h : entriesAgree as bs = true) : entriesAgree bs as = true := by
  have hkeys : (as.map Prod.fst).Perm (bs.map Prod.fst) := keys_perm_of_entriesAgree has hlength h
  refine entriesAgree_iff.mpr fun k b hb => ?_
  have hk : k ∈ as.map Prod.fst := hkeys.mem_iff.mpr (List.mem_map_of_mem hb)
  obtain ⟨⟨l, a⟩, ha, hlk⟩ := List.mem_map.mp hk
  obtain rfl : l = k := hlk
  obtain ⟨b', hb', hab⟩ := entriesAgree_iff.mp h l a ha
  -- the partner of this key on the right is the entry that was started from
  rw [lookup_of_mem hbs hb] at hb'
  obtain rfl := Option.some.inj hb'
  exact ⟨a, lookup_of_mem has ha, hswap _ ha _ hb hab⟩

theorem agrees_swap {a b : Value} (ha : a.hasDistinctKeys = true) (hb : b.hasDistinctKeys = true)
    (h : a.agrees b = true) : b.agrees a = true := by
  induction a using Value.inductionOn generalizing b with
  | null => cases b <;> simp_all [agrees]
  | bool x => cases b <;> simp_all [agrees]
  | number m => cases b <;> simp_all [agrees, Number.agrees_comm]
  | string s =>
      cases b with
      | string t => exact stringsAgree_comm h
      | null | bool y | number n | array bs | object bs => cases h
  | array as ih =>
      cases b with
      | array bs =>
          rw [agrees, itemsAgree_iff] at h ⊢
          refine ⟨h.1.symm, fun i b a hib hia => ?_⟩
          have hma : a ∈ as := List.mem_of_getElem? hia
          have hmb : b ∈ bs := List.mem_of_getElem? hib
          exact ih a hma (array_hasDistinctKeys_iff.mp ha a hma)
            (array_hasDistinctKeys_iff.mp hb b hmb) (h.2 i a b hia hib)
      | null | bool y | number n | string t | object bs => cases h
  | object as ih =>
      cases b with
      | object bs =>
          obtain ⟨has, hvalues⟩ := object_hasDistinctKeys_iff.mp ha
          obtain ⟨hbs, hvalues'⟩ := object_hasDistinctKeys_iff.mp hb
          rw [agrees, Bool.and_eq_true, beq_iff_eq] at h ⊢
          refine ⟨h.1.symm, entriesAgree_swap has hbs h.1 (fun e he f hf => ?_) h.2⟩
          exact ih e he (hvalues e he) (hvalues' f hf)
      | null | bool y | number n | string t | array bs => cases h

/-- **Values agree in both directions or in none.** -/
theorem agrees_comm {a b : Value} (ha : a.hasDistinctKeys = true) (hb : b.hasDistinctKeys = true) :
    a.agrees b = b.agrees a := by
  rw [Bool.eq_iff_iff]
  exact ⟨agrees_swap ha hb, agrees_swap hb ha⟩

/-! ## 3. What paths lead to -/

theorem hasDistinctKeys_of_child? {v w : Value} {k : String} (hv : v.hasDistinctKeys = true)
    (h : v.child? k = some w) : w.hasDistinctKeys = true := by
  cases v with
  | object entries => exact (object_hasDistinctKeys_iff.mp hv).2 _ (mem_of_lookup h)
  | array items =>
      obtain ⟨i, _, hi⟩ := Option.bind_eq_some_iff.mp h
      exact array_hasDistinctKeys_iff.mp hv w (List.mem_of_getElem? hi)
  | null | bool b | number n | string s => cases h

/-- Segments take nothing out of a value that is not in it, and put lists around it at most. -/
theorem hasDistinctKeys_of_descend? {items : List Item} {v w : Value}
    (hv : v.hasDistinctKeys = true) (h : v.descend? items = some w) : w.hasDistinctKeys = true := by
  induction items generalizing v w with
  | nil =>
      cases h
      exact hv
  | cons item rest ih =>
      rcases item with mistake | ⟨k⟩ | _
      · rw [descend?] at h
        cases h
      · rw [descend?] at h
        obtain ⟨u, hu, hw⟩ := Option.bind_eq_some_iff.mp h
        exact ih (hasDistinctKeys_of_child? hv hu) hw
      · unfold descend? at h
        split at h
        · cases h
          refine array_hasDistinctKeys_iff.mpr fun x hx => ?_
          obtain ⟨u, hu, hx⟩ := List.mem_filterMap.mp hx
          exact ih (array_hasDistinctKeys_iff.mp hv u hu) hx
        · cases h

end Value

namespace Context

variable {ctx : Context}

/-- No object in an attribute has two entries of one key. -/
def HasDistinctKeys (ctx : Context) : Prop :=
  ∀ n, ∀ e ∈ ctx.attributes n, e.2.hasDistinctKeys = true

/-- What a first key selects is the value of some entry. -/
theorem exists_mem_of_entry? {n : Namespace} {k : String} {v : Value}
    (h : ctx.entry? n k = some v) : ∃ e ∈ ctx.attributes n, e.2 = v := by
  cases n with
  | header =>
      unfold entry? header? at h
      simp only at h
      split at h
      · rename_i u hu
        cases h
        exact ⟨_, mem_of_lookup hu, rfl⟩
      · obtain ⟨e, he, hv⟩ := Option.map_eq_some_iff.mp h
        exact ⟨e, List.mem_of_find?_eq_some he, hv⟩
  | subject | resource | path | body | query => exact ⟨_, mem_of_lookup h, rfl⟩

theorem hasDistinctKeys_of_resolve (hctx : ctx.HasDistinctKeys) {p : Path} {v : Value}
    (h : ctx.resolve p = .present v) : v.hasDistinctKeys = true := by
  cases hroot : p.root? with
  | none =>
      rw [resolve_of_no_root hroot] at h
      cases h
  | some e =>
      obtain ⟨n, k⟩ := e
      rw [resolve_of_root hroot, Resolved.ofOption_eq_present] at h
      obtain ⟨u, hu, hv⟩ := Option.bind_eq_some_iff.mp h
      obtain ⟨e, he, rfl⟩ := exists_mem_of_entry? hu
      exact Value.hasDistinctKeys_of_descend? (hctx n e he) hv

end Context

/-! ## 4. Equations -/

/-- The leaves are the same, or equations between the same two attributes: what is checked in the one
    is the comparand of the other. -/
inductive Leaf.Exchanged : Leaf → Leaf → Prop
  | same (l : Leaf) : Exchanged l l
  | turned (p q : Path) {o : Operator} (note : Option String) : o = .equals ∨ o = .notEquals →
      Exchanged ⟨p, o, .path q, note⟩ ⟨q, o, .path p, note⟩

/-- An equation has a verdict exactly if there are values on both sides. -/
theorem Operands.sidesAgree_eq_ok_iff {x : Operands} {o : Operator} {b : Bool} :
    x.sidesAgree o = .ok b ↔
      ∃ v w, x.value = .present v ∧ x.comparand = some (.present w) ∧ v.agrees w = b := by
  unfold sidesAgree comparandValue
  cases x.value with
  | absent => simp
  | present v =>
      cases x.comparand with
      | none => simp [Except.map]
      | some r => cases r <;> simp [Except.map]

theorem map_not_eq_ok_iff {x : Except EvalError Bool} {b : Bool} :
    x.map (!·) = .ok b ↔ x = .ok !b := by
  cases x with
  | error e => simp [Except.map]
  | ok a => cases a <;> cases b <;> simp [Except.map]

namespace Leaf

variable {ctx : Context}

theorem sidesAgree_turned (hctx : ctx.HasDistinctKeys) {p q : Path} {o o' : Operator}
    {note : Option String} {b : Bool}
    (h : (operands ctx ⟨p, o, .path q, note⟩).sidesAgree o' = .ok b) :
    (operands ctx ⟨q, o, .path p, note⟩).sidesAgree o' = .ok b := by
  obtain ⟨v, w, hv, hw, hb⟩ := Operands.sidesAgree_eq_ok_iff.mp h
  obtain hw : ctx.resolve q = .present w := Option.some.inj hw
  have hcomm : v.agrees w = w.agrees v :=
    Value.agrees_comm (ctx.hasDistinctKeys_of_resolve hctx hv)
      (ctx.hasDistinctKeys_of_resolve hctx hw)
  exact Operands.sidesAgree_eq_ok_iff.mpr ⟨w, v, hw, congrArg some hv, hcomm.symm.trans hb⟩

/-- **An equation that is turned around has the same verdict, or none again.** -/
theorem Exchanged.evaluate_iff (hctx : ctx.HasDistinctKeys) {l l' : Leaf} (h : l.Exchanged l')
    (b : Bool) : l.evaluate ctx = .ok b ↔ l'.evaluate ctx = .ok b := by
  cases h with
  | same => exact Iff.rfl
  | turned p q note ho =>
      have hsides : ∀ o b, (operands ctx ⟨p, o, .path q, note⟩).sidesAgree o = .ok b ↔
          (operands ctx ⟨q, o, .path p, note⟩).sidesAgree o = .ok b :=
        fun o b => ⟨sidesAgree_turned hctx, sidesAgree_turned hctx⟩
      rcases ho with rfl | rfl
      · exact hsides .equals b
      · rw [evaluate, evaluate, Operator.apply, Operator.apply, map_not_eq_ok_iff,
          map_not_eq_ok_iff]
        exact hsides .notEquals _

end Leaf

/-- **Agreement has no sides.** A value without repeated keys agrees with itself, and two of them
    agree in both directions or in none, however deep they are and whatever numbers and strings are
    in them. So equations between attributes may be turned around, one or several of them anywhere in
    a tree: the tree has the same verdict, or none again. -/
theorem agrees_either_way :
    (∀ a : Value, a.hasDistinctKeys = true → a.agrees a = true) ∧
    (∀ a b : Value, a.hasDistinctKeys = true → b.hasDistinctKeys = true →
      a.agrees b = b.agrees a) ∧
    ∀ ctx : Context, ctx.HasDistinctKeys → ∀ c c' : Condition, c.Alike Leaf.Exchanged c' →
      ∀ b, c.evaluate ctx = .ok b ↔ c'.evaluate ctx = .ok b := by
  refine ⟨fun a ha => Value.agrees_self ha, fun a b ha hb => Value.agrees_comm ha hb, ?_⟩
  intro ctx hctx c c' h
  have hleaf : ∀ l l' : Leaf, l.Exchanged l' →
      OutcomeUpTo (fun _ _ => True) (l.evaluate ctx) (l'.evaluate ctx) :=
    fun l l' hl => outcomeUpTo_true_iff.mpr (hl.evaluate_iff hctx)
  exact outcomeUpTo_true_iff.mp (h.evaluate hleaf)

/-- A badge whose entries stand in no order, with a level that no double has. -/
def shownBadge : Value :=
  .object [("level", .int 9007199254740993), ("id", .string "6f1c2a1e8b0d4c3a9f5e2d7b8c9a0e11")]

/-- The same badge with another spelling of its identifier and the double next to its level. -/
def keptBadge : Value :=
  .object [("id", .string "urn:uuid:6f1c2a1e-8b0d-4c3a-9f5e-2d7b8c9a0e11"),
    ("level", .number (.double (.ofInt 9007199254740992)))]

/-- A subject who shows a badge, and a resource that keeps one and has lost another. -/
def badgeContext : Context where
  subject := [("badge", shownBadge)]
  resource := [("badge", keptBadge), ("lost", .object [("id", .null)])]
  path := []
  body := []
  query := []
  header := []

/-- Holds if the one attribute agrees with the other, and these two differ. -/
def badgeCheck (p q p' q' : Path) : Condition :=
  .branch .and
    [.leaf ⟨p, .equals, .path q, none⟩ none, .leaf ⟨p', .notEquals, .path q', none⟩ (some "lost")]
    none

/-- The badges agree in both directions, and the check holds from right to left because it does from
    left to right. -/
theorem agrees_either_way_badge :
    shownBadge.agrees shownBadge = true ∧ shownBadge.agrees keptBadge = keptBadge.agrees shownBadge ∧
    (badgeCheck ⟨"resource.badge"⟩ ⟨"subject.badge"⟩ ⟨"resource.lost"⟩ ⟨"subject.badge"⟩).evaluate
      badgeContext = .ok true := by
  obtain ⟨hself, hcomm, hturn⟩ := agrees_either_way
  have hctx : badgeContext.HasDistinctKeys := by
    intro n
    cases n <;> decide +kernel
  have hleft : (badgeCheck ⟨"subject.badge"⟩ ⟨"resource.badge"⟩ ⟨"subject.badge"⟩
      ⟨"resource.lost"⟩).evaluate badgeContext = .ok true := by decide +kernel
  refine ⟨hself _ (by decide +kernel), hcomm _ _ (by decide +kernel) (by decide +kernel), ?_⟩
  refine (hturn badgeContext hctx _ _ ?_ true).mp hleft
  exact .branch (.cons (.leaf (.turned _ _ _ (.inl rfl)))
    (.cons (.leaf (.turned _ _ _ (.inr rfl))) .nil))

end Gatehouse
