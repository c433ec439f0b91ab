import Gatehouse.Proofs.Value.Agreement
import Gatehouse.Proofs.Value.Order
import Mathlib.Data.List.Perm.Subperm
import Mathlib.Data.List.Sort

/-!
# Normal forms of values

What this file fixes, and what it shows about `Value.agrees`:

* `Number.value`, `TextForm.of`, `Value.normalForm`: a number as the rational that it denotes, a
  string that spells a UUID as that UUID, lists item by item and objects key by key;
* `Number.agrees_iff_value`, `stringsAgree_iff_form`: numbers and strings agree if these are equal,
  numbers where no integer is above `2^53` in magnitude;
* `inductionOn`: induction over values, with what is in a list or an object as the smaller values;
* `keys_perm_of_entriesAgree`: objects of the same size have the same keys if those of one are among
  those of the other; `objects_agree_iff`: so objects agree entry by entry;
* `agrees_iff_normalForm`: values agree exactly if they have the same normal form.
-/

namespace Gatehouse

/-! ## 1. Numbers and strings -/

/-- The rational that a number denotes. -/
def Number.value : Number → Rat
  | .int n => n
  | .double d => d.value

/-- The number keeps its value as a double: it is no integer above `2^53` in magnitude. -/
def Number.IsExact (a : Number) : Prop := ∀ n, a = .int n → n.natAbs ≤ 2 ^ 53

theorem Number.value_toDouble {a : Number} (h : a.IsExact) : a.toDouble.value = a.value := by
  cases a with
  | int n => exact Double.value_ofInt (h n rfl)
  | double d => rfl

/-- **Numbers agree exactly if they denote the same rational**, as far as doubles can tell. -/
theorem Number.agrees_iff_value {a b : Number} (ha : a.IsExact) (hb : b.IsExact) :
    a.agrees b = true ↔ a.value = b.value := by
  rw [Number.agrees_iff, value_toDouble ha, value_toDouble hb]
  constructor
  · intro ⟨hvalue, _⟩
    exact hvalue
  · intro hvalue
    refine ⟨hvalue, ?_⟩
    rintro m n rfl rfl
    exact Int.cast_inj.mp hvalue

/-- A string that spells a UUID, or any other. -/
inductive TextForm where
  | uuid (u : Uuid)
  | other (s : String)
  deriving DecidableEq

/-- The UUID that a string spells, or else the string. -/
def TextForm.of (s : String) : TextForm :=
  match Uuid.parse? s with
  | some u => .uuid u
  | none => .other s

theorem TextForm.of_eq_uuid_iff {s : String} {u : Uuid} :
    TextForm.of s = .uuid u ↔ u.Spelling s.toList := by
  rw [← Uuid.parse?_eq_some_iff, of]
  cases Uuid.parse? s with
  | none => simp
  | some v => simp

/-- **Strings agree exactly if they spell the same UUID, or are the same and spell none.** -/
theorem Value.stringsAgree_iff_form {a b : String} :
    stringsAgree a b = true ↔ TextForm.of a = TextForm.of b := by
  rw [stringsAgree_iff]
  constructor
  · rintro (rfl | ⟨u, ha, hb⟩)
    · rfl
    · rw [TextForm.of_eq_uuid_iff.mpr ha, TextForm.of_eq_uuid_iff.mpr hb]
  · intro h
    cases hb : TextForm.of b with
    | uuid u =>
        rw [hb] at h
        exact Or.inr ⟨u, TextForm.of_eq_uuid_iff.mp h, TextForm.of_eq_uuid_iff.mp hb⟩
    | other s =>
        -- a string that spells no UUID is its own form
        have hself : ∀ {x : String}, TextForm.of x = .other s → x = s := by
          intro x hx
          unfold TextForm.of at hx
          split at hx
          · cases hx
          · exact TextForm.other.inj hx
        rw [hb] at h
        exact Or.inl ((hself h).trans (hself hb).symm)

/-! ## 2. Values -/

/-- What is left of a value when it does not matter how numbers and UUIDs are spelled. -/
inductive NormalForm where
  | null
  | bool (b : Bool)
  | number (q : Rat)
  | text (t : TextForm)
  | array (items : List NormalForm)
  | object (entries : List (String × NormalForm))

namespace Value

mutual

/-- The normal form of a value. -/
def normalForm : Value → NormalForm
  | .null => .null
  | .bool b => .bool b
  | .number n => .number n.value
  | .string s => .text (.of s)
  | .array items => .array (normalItems items)
  | .object entries => .object (normalEntries entries)

/-- The normal forms of the items. -/
def normalItems : List Value → List NormalForm
  | [] => []
  | v :: vs => normalForm v :: normalItems vs

/-- The entries with the same keys and the normal forms of the values. -/
def normalEntries : List (String × Value) → List (String × NormalForm)
  | [] => []
  | (k, v) :: es => (k, normalForm v) :: normalEntries es

end

theorem normalItems_eq_map (vs : List Value) : normalItems vs = vs.map normalForm := by
  induction vs with
  | nil => rfl
  | cons v vs ih => rw [normalItems, ih, List.map_cons]

theorem normalEntries_eq_map (es : List (String × Value)) :
    normalEntries es = es.map fun e => (e.1, e.2.normalForm) := by
  induction es with
  | nil => rfl
  | cons e es ih => rw [normalEntries, ih, List.map_cons]

/-- **Induction over values**: what holds of a list or an object if it holds of all that is in it,
    and of everything else, holds of all values. -/
@[elab_as_elim]
theorem inductionOn {motive : Value → Prop} (a : Value) (null : motive .null)
    (bool : ∀ b, motive (.bool b)) (number : ∀ n, motive (.number n))
    (string : ∀ s, motive (.string s))
    (array : ∀ items, (∀ v ∈ items, motive v) → motive (.array items))
    (object : ∀ entries, (∀ e ∈ entries, motive e.2) → motive (.object entries)) : motive a :=
  @Value.rec motive (fun items => ∀ v ∈ items, motive v) (fun entries => ∀ e ∈ entries, motive e.2)
    (fun e => motive e.2) null bool number string array object (List.forall_mem_nil _)
    (fun _ _ hv hvs => List.forall_mem_cons.mpr ⟨hv, hvs⟩) (List.forall_mem_nil _)
    (fun _ _ he hes => List.forall_mem_cons.mpr ⟨he, hes⟩) (fun _ _ hv => hv) a

/-! ## 3. Objects -/

/-- The keys of entries that agree with others are among the keys of these. -/
theorem keys_subset_of_entriesAgree {as bs : List (String × Value)}
    (h : entriesAgree as bs = true) : as.map Prod.fst ⊆ bs.map Prod.fst := by
  intro k hk
  obtain ⟨⟨k', a⟩, ha, rfl⟩ := List.mem_map.mp hk
  obtain ⟨b, hb, _⟩ := entriesAgree_iff.mp h k' a ha
  exact List.mem_map.mpr ⟨(k', b), mem_of_lookup hb, rfl⟩

/-- **As many keys, all of them among the others, are the same keys.** So it is enough to look for
    the entries of one side on the other. -/
theorem keys_perm_of_entriesAgree {as bs : List (String × Value)}
    (has : (as.map Prod.fst).Nodup) (hlength : as.length = bs.length)
    (h : entriesAgree as bs = true) : (as.map Prod.fst).Perm (bs.map Prod.fst) := by
  have hsub : (as.map Prod.fst).Subperm (bs.map Prod.fst) :=
    List.subperm_of_subset has (keys_subset_of_entriesAgree h)
  exact hsub.perm_of_length_le (by rw [List.length_map, List.length_map, hlength])

/-- The same keys in order are equal lists of keys. -/
theorem keys_eq_of_entriesAgree {as bs : List (String × Value)} (has : KeysIncrease as)
    (hbs : KeysIncrease bs) (hlength : as.length = bs.length) (h : entriesAgree as bs = true) :
    as.map Prod.fst = bs.map Prod.fst := by
  have hperm : (as.map Prod.fst).Perm (bs.map Prod.fst) :=
    keys_perm_of_entriesAgree has.nodup hlength h
  refine hperm.eq_of_pairwise ?_ (List.pairwise_map.mpr has) (List.pairwise_map.mpr hbs)
  intro k l _ _ hkl hlk
  exact absurd hlk (String.lt_asymm hkl)

/-- An entry whose key is not on the left does not matter on the right. -/
theorem entriesAgree_cons_right {k : String} {b : Value} {as bs : List (String × Value)}
    (h : k ∉ as.map Prod.fst) : entriesAgree as ((k, b) :: bs) = entriesAgree as bs := by
  have hlookup : ∀ l a, (l, a) ∈ as → ((k, b) :: bs).lookup l = bs.lookup l := by
    intro l a ha
    have hne : l ≠ k := fun heq => h (List.mem_map.mpr ⟨(l, a), ha, heq⟩)
    rw [List.lookup_cons, beq_eq_false_iff_ne.mpr hne]
  rw [Bool.eq_iff_iff, entriesAgree_iff, entriesAgree_iff]
  constructor
  · intro hall l a ha
    rw [← hlookup l a ha]
    exact hall l a ha
  · intro hall l a ha
    rw [hlookup l a ha]
    exact hall l a ha

/-- The entries have the same keys in the same order, and their values agree one by one. -/
def EntriesMatch (as bs : List (String × Value)) : Prop :=
  List.Forall₂ (fun e f => e.1 = f.1 ∧ e.2.agrees f.2 = true) as bs

theorem EntriesMatch.keys_eq {as bs : List (String × Value)} (h : EntriesMatch as bs) :
    as.map Prod.fst = bs.map Prod.fst := by
  induction h with
  | nil => rfl
  | cons hef _ ih => rw [List.map_cons, List.map_cons, hef.1, ih]

/-- Where the keys are the same, every entry is looked for in its own place. -/
theorem entriesAgree_iff_match : ∀ {as bs : List (String × Value)},
    as.map Prod.fst = bs.map Prod.fst → (as.map Prod.fst).Nodup →
    (entriesAgree as bs = true ↔ EntriesMatch as bs)
  | [], [], _, _ => iff_of_true rfl .nil
  | (k, a) :: as, (l, b) :: bs, hkeys, hnodup => by
      obtain ⟨hkl, hrest⟩ := List.cons.inj hkeys
      obtain rfl : k = l := hkl
      obtain ⟨hk, hnodup⟩ := List.nodup_cons.mp hnodup
      rw [entriesAgree_cons, entriesAgree_cons_right hk, entriesAgree_iff_match hrest hnodup,
        List.lookup_cons_self, EntriesMatch, EntriesMatch, List.forall₂_cons]
      simp

/-- **Objects in order agree entry by entry**, though only one side is gone through. -/
theorem objects_agree_iff {as bs : List (String × Value)} (has : KeysIncrease as)
    (hbs : KeysIncrease bs) : (object as).agrees (object bs) = true ↔ EntriesMatch as bs := by
  rw [agrees, Bool.and_eq_true, beq_iff_eq]
  constructor
  · intro ⟨hlength, h⟩
    exact (entriesAgree_iff_match (keys_eq_of_entriesAgree has hbs hlength h) has.nodup).mp h
  · intro h
    exact ⟨h.length_eq, (entriesAgree_iff_match h.keys_eq has.nodup).mpr h⟩

/-! ## 4. Agreement -/

/-- No integer in the value is above `2^53` in magnitude. -/
def IsExact (v : Value) : Prop := ∀ n ∈ v.integers, n.natAbs ≤ 2 ^ 53

theorem IsExact.number {a : Number} (h : (Value.number a).IsExact) : a.IsExact := by
  rintro n rfl
  exact h n (List.mem_singleton_self n)

theorem IsExact.item {items : List Value} (h : (array items).IsExact) {v : Value}
    (hv : v ∈ items) : v.IsExact :=
  fun n hn => h n (mem_integersOfItems hv hn)

theorem IsExact.entry {entries : List (String × Value)} (h : (object entries).IsExact)
    {e : String × Value} (he : e ∈ entries) : e.2.IsExact :=
  fun n hn => h n (mem_integersOfEntries he hn)

/-- The items of lists that agree do so one by one. -/
theorem itemsAgree_iff_forall₂ {as bs : List Value} :
    itemsAgree as bs = true ↔ List.Forall₂ (fun a b => a.agrees b = true) as bs := by
  induction as generalizing bs with
  | nil => cases bs <;> simp [itemsAgree]
  | cons a as ih =>
      cases bs with
      | nil => simp [itemsAgree]
      | cons b bs => rw [itemsAgree, Bool.and_eq_true, ih, List.forall₂_cons]

/-- Lists agree exactly if they have the same normal form, if so do their items. -/
theorem arrays_agree_iff_normalForm {as bs : List Value}
    (h : ∀ a ∈ as, ∀ b ∈ bs, a.agrees b = true ↔ a.normalForm = b.normalForm) :
    (array as).agrees (array bs) = true ↔ (array as).normalForm = (array bs).normalForm := by
  rw [agrees, itemsAgree_iff_forall₂, normalForm, normalForm, NormalForm.array.injEq,
    normalItems_eq_map, normalItems_eq_map]
  exact forall₂_iff_map_eq h

/-- Objects in order agree exactly if they have the same normal form, if so do their values. -/
theorem objects_agree_iff_normalForm {as bs : List (String × Value)} (has : KeysIncrease as)
    (hbs : KeysIncrease bs)
    (h : ∀ e ∈ as, ∀ f ∈ bs, e.2.agrees f.2 = true ↔ e.2.normalForm = f.2.normalForm) :
    (object as).agrees (object bs) = true ↔ (object as).normalForm = (object bs).normalForm := by
  rw [objects_agree_iff has hbs, EntriesMatch, normalForm, normalForm, NormalForm.object.injEq,
    normalEntries_eq_map, normalEntries_eq_map]
  refine forall₂_iff_map_eq fun e he f hf => ?_
  rw [Prod.mk.injEq, h e he f hf]

/-- **Values agree exactly if they have the same normal form**, where objects are in order and no
    integer is above `2^53` in magnitude: numbers by the rationals that they denote, strings that
    spell UUIDs by these, all other strings, booleans and null by themselves, lists item by item, and
    objects key by key. -/
theorem agrees_iff_normalForm {a b : Value} (ha : a.isOrdered = true) (hb : b.isOrdered = true)
    (hxa : ∀ n ∈ a.integers, n.natAbs ≤ 2 ^ 53) (hxb : ∀ n ∈ b.integers, n.natAbs ≤ 2 ^ 53) :
    a.agrees b = true ↔ a.normalForm = b.normalForm := by
  induction a using Value.inductionOn generalizing b with
  | null => cases b <;> simp [agrees, normalForm]
  | bool x => cases b <;> simp [agrees, normalForm]
  | number x =>
      cases b with
      | number y =>
          have hx : x.IsExact := IsExact.number hxa
          have hy : y.IsExact := IsExact.number hxb
          rw [agrees, Number.agrees_iff_value hx hy, normalForm, normalForm,
            NormalForm.number.injEq]
      | null | bool y | string y | array y | object y => simp [agrees, normalForm]
  | string x =>
      cases b with
      | string y =>
          rw [agrees, stringsAgree_iff_form, normalForm, normalForm, NormalForm.text.injEq]
      | null | bool y | number y | array y | object y => simp [agrees, normalForm]
  | array as ih =>
      cases b with
      | array bs =>
          refine arrays_agree_iff_normalForm fun a hma b hmb => ?_
          exact ih a hma (areOrdered_iff.mp ha a hma) (areOrdered_iff.mp hb b hmb)
            (IsExact.item hxa hma) (IsExact.item hxb hmb)
      | null | bool y | number y | string y | object y => simp [agrees, normalForm]
  | object as ih =>
      cases b with
      | object bs =>
          rw [isOrdered, Bool.and_eq_true, decide_eq_true_iff] at ha hb
          refine objects_agree_iff_normalForm ha.1 hb.1 fun e hme f hmf => ?_
          exact ih e hme (entriesOrdered_iff.mp ha.2 e hme) (entriesOrdered_iff.mp hb.2 f hmf)
            (IsExact.entry hxa hme) (IsExact.entry hxb hmf)
      | null | bool y | number y | string y | array y => simp [agrees, normalForm]

/-- A badge with its identifier in digits only and its level as an integer. -/
def plainBadge (level : Int) : Value :=
  .object [("id", .string "6f1c2a1e8b0d4c3a9f5e2d7b8c9a0e11"), ("levels", .array [int level]),
    ("note", .null)]

/-- A badge with its identifier as a URN and its level as a double. -/
def floatBadge (level : Int) : Value :=
  .object [("id", .string "urn:uuid:6F1C2A1E-8b0d-4c3a-9f5e-2d7b8c9a0e11"),
    ("levels", .array [.number (.double (.ofInt level))]), ("note", .null)]

/-- At `2^53` the two badges agree, so they have one normal form; with the integer before it on one
    side they do not, so they have two. -/
theorem agrees_iff_normalForm_badge :
    (plainBadge 9007199254740992).normalForm = (floatBadge 9007199254740992).normalForm ∧
      (plainBadge 9007199254740991).normalForm ≠ (floatBadge 9007199254740992).normalForm := by
  have hagree : (plainBadge 9007199254740992).agrees (floatBadge 9007199254740992) = true := by
    decide +kernel
  have hdiffer : (plainBadge 9007199254740991).agrees (floatBadge 9007199254740992) = false := by
    decide +kernel
  constructor
  · exact (agrees_iff_normalForm (by decide +kernel) (by decide +kernel) (by decide +kernel)
      (by decide +kernel)).mp hagree
  · intro h
    have hsame : (plainBadge 9007199254740991).agrees (floatBadge 9007199254740992) = true :=
      (agrees_iff_normalForm (by decide +kernel) (by decide +kernel) (by decide +kernel)
        (by decide +kernel)).mpr h
    rw [hdiffer] at hsame
    cases hsame

end Value

end Gatehouse
