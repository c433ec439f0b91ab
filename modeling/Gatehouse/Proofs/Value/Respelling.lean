import Gatehouse.Proofs.Value.Agreement
import Mathlib.Data.List.Forall2

/-!
# Values that are spelled differently

What this file fixes, and what it shows about `Value.agrees`:

* `Number.Respelled`: an integer below `2^53` in magnitude and a double of the same value;
  `TextRespelled`: two spellings of one UUID;
* `Value.Respelled`: two values that differ in such places only, at any depth, but with the same
  keys in the same order;
* `Value.Respelled.agrees_eq`: either side of a comparison may be spelled differently;
* `RespelledEntries.lookup`, `RespelledItems.getElem?`: what is found under a key or at a position
  in one of two such values is found in the other, spelled differently.
-/

namespace Gatehouse

/-! ## 1. Numbers and texts -/

/-- The numbers are the same, or an integer below `2^53` in magnitude and a double of its value. -/
inductive Number.Respelled : Number → Number → Prop
  | same (n : Number) : Respelled n n
  | toDouble {n : Int} {d : Double} : n.natAbs < 2 ^ 53 → d.value = n →
      Respelled (.int n) (.double d)
  | toInt {n : Int} {d : Double} : n.natAbs < 2 ^ 53 → d.value = n →
      Respelled (.double d) (.int n)

/-- The texts are the same or spell the same UUID. -/
inductive TextRespelled : String → String → Prop
  | same (s : String) : TextRespelled s s
  | uuid {u : Uuid} {s t : String} : u.Spelling s.toList → u.Spelling t.toList → TextRespelled s t

namespace Number

theorem agrees_comm (a b : Number) : a.agrees b = b.agrees a := by
  have hswap : ∀ {x y : Number}, x.agrees y = true → y.agrees x = true := by
    intro x y h
    obtain ⟨hvalue, hint⟩ := agrees_iff.mp h
    exact agrees_iff.mpr ⟨hvalue.symm, fun m n hm hn => (hint n m hn hm).symm⟩
  rw [Bool.eq_iff_iff]
  exact ⟨hswap, hswap⟩

/-- A small integer agrees with the same numbers as a double of its value. -/
theorem agrees_int_eq {n : Int} {d : Double} (hn : n.natAbs < 2 ^ 53) (hd : d.value = n)
    (b : Number) : (int n).agrees b = (double d).agrees b := by
  have hvalue : (Double.ofInt n).value = d.value := by rw [hd, Double.value_ofInt hn.le]
  cases b with
  | double e => rw [Bool.eq_iff_iff, agrees_iff, agrees_iff]; simp [toDouble, hvalue]
  | int m =>
      -- two integers are compared exactly, and no other integer is rounded to the value of this one
      rw [Bool.eq_iff_iff, agrees, beq_iff_eq, ← Double.ofInt_agrees_iff hn, Double.agrees_iff,
        agrees_iff, hvalue]
      simp [toDouble]

namespace Respelled

variable {a a' : Number}

theorem agrees_left (h : a.Respelled a') (b : Number) : a.agrees b = a'.agrees b := by
  cases h with
  | same => rfl
  | toDouble hn hd => exact agrees_int_eq hn hd b
  | toInt hn hd => exact (agrees_int_eq hn hd b).symm

theorem agrees_right (h : a.Respelled a') (b : Number) : b.agrees a = b.agrees a' := by
  rw [agrees_comm b a, agrees_comm b a', h.agrees_left]

end Respelled

end Number

/-- The texts that strings can be replaced by are those they agree with. -/
theorem textRespelled_iff {s t : String} : TextRespelled s t ↔ Value.stringsAgree s t = true := by
  rw [Value.stringsAgree_iff]
  constructor
  · rintro (_ | ⟨hs, ht⟩)
    · exact Or.inl rfl
    · exact Or.inr ⟨_, hs, ht⟩
  · rintro (rfl | ⟨u, hs, ht⟩)
    · exact .same s
    · exact .uuid hs ht

namespace TextRespelled

variable {s s' : String}

theorem symm (h : TextRespelled s s') : TextRespelled s' s := by
  cases h with
  | same => exact .same s
  | uuid hs hs' => exact .uuid hs' hs

theorem agrees_left (h : TextRespelled s s') (t : String) :
    Value.stringsAgree s t = Value.stringsAgree s' t := by
  rw [Bool.eq_iff_iff]
  exact ⟨Value.stringsAgree_trans (textRespelled_iff.mp h.symm),
    Value.stringsAgree_trans (textRespelled_iff.mp h)⟩

theorem agrees_right (h : TextRespelled s s') (t : String) :
    Value.stringsAgree t s = Value.stringsAgree t s' := by
  rw [Bool.eq_iff_iff]
  exact ⟨fun ht => Value.stringsAgree_trans ht (textRespelled_iff.mp h),
    fun ht => Value.stringsAgree_trans ht (textRespelled_iff.mp h.symm)⟩

end TextRespelled

/-! ## 2. Values -/

namespace Value

mutual

/-- The values differ only in how small numbers and UUIDs are spelled. -/
inductive Respelled : Value → Value → Prop
  | null : Respelled .null .null
  | bool (b : Bool) : Respelled (.bool b) (.bool b)
  | number {m n : Number} : m.Respelled n → Respelled (.number m) (.number n)
  | string {s t : String} : TextRespelled s t → Respelled (.string s) (.string t)
  | array {as bs : List Value} : RespelledItems as bs → Respelled (.array as) (.array bs)
  | object {as bs : List (String × Value)} : RespelledEntries as bs →
      Respelled (.object as) (.object bs)

/-- The items differ one by one only in spelling. -/
inductive RespelledItems : List Value → List Value → Prop
  | nil : RespelledItems [] []
  | cons {a b : Value} {as bs : List Value} : Respelled a b → RespelledItems as bs →
      RespelledItems (a :: as) (b :: bs)

/-- The entries have the same keys, and their values differ one by one only in spelling. -/
inductive RespelledEntries : List (String × Value) → List (String × Value) → Prop
  | nil : RespelledEntries [] []
  | cons {k : String} {a b : Value} {as bs : List (String × Value)} : Respelled a b →
      RespelledEntries as bs → RespelledEntries ((k, a) :: as) ((k, b) :: bs)

end

/-! ## 3. What is found in them -/

/-- **The same positions are taken**, by items that differ in spelling only. -/
theorem RespelledItems.getElem? {as bs : List Value} (h : RespelledItems as bs) (i : Nat) :
    Option.Rel Respelled as[i]? bs[i]? :=
  match h, i with
  | .nil, _ => .none
  | .cons hab _, 0 => .some hab
  | .cons _ hrest, i + 1 => hrest.getElem? i

theorem respelledItems_iff : ∀ {as bs : List Value},
    RespelledItems as bs ↔ List.Forall₂ Respelled as bs
  | [], bs => by
      rw [List.forall₂_nil_left_iff]
      exact ⟨fun h => by cases h; rfl, fun h => h ▸ .nil⟩
  | a :: as, bs => by
      rw [List.forall₂_cons_left_iff]
      constructor
      · rintro (_ | ⟨hab, h⟩)
        exact ⟨_, _, hab, respelledItems_iff.mp h, rfl⟩
      · rintro ⟨b, bs, hab, h, rfl⟩
        exact .cons hab (respelledItems_iff.mpr h)

/-- What a walk collects from the items of one list, it collects from those of the other. -/
theorem RespelledItems.filterMap {f : Value → Option Value}
    (hf : ∀ {a b : Value}, a.Respelled b → Option.Rel Respelled (f a) (f b)) {as bs : List Value}
    (h : RespelledItems as bs) : RespelledItems (as.filterMap f) (bs.filterMap f) :=
  respelledItems_iff.mpr (List.rel_filterMap @hf (respelledItems_iff.mp h))

/-- **The same keys are found**, with values that differ in spelling only. -/
theorem RespelledEntries.lookup {as bs : List (String × Value)} (h : RespelledEntries as bs)
    (k : String) : Option.Rel Respelled (as.lookup k) (bs.lookup k) :=
  match h with
  | .nil => .none
  | .cons (k := l) hab hrest => by
      rw [List.lookup_cons, List.lookup_cons]
      cases k == l with
      | true => exact .some hab
      | false => exact hrest.lookup k

/-- The first entries whose keys pass a test are found at the same place. -/
theorem RespelledEntries.find? (p : String → Bool) {as bs : List (String × Value)}
    (h : RespelledEntries as bs) :
    Option.Rel Respelled ((as.find? fun e => p e.1).map Prod.snd)
      ((bs.find? fun e => p e.1).map Prod.snd) :=
  match h with
  | .nil => .none
  | .cons (k := l) hab hrest => by
      rw [List.find?_cons, List.find?_cons]
      cases p l with
      | true => exact .some hab
      | false => exact hrest.find? p

theorem RespelledEntries.length_eq {as bs : List (String × Value)} (h : RespelledEntries as bs) :
    as.length = bs.length :=
  match h with
  | .nil => rfl
  | .cons _ hrest => congrArg (· + 1) hrest.length_eq

/-! ## 4. Agreement -/

mutual

/-- The left side of a comparison may be spelled differently. -/
theorem Respelled.agrees_left {a a' : Value} (h : a.Respelled a') (b : Value) :
    a.agrees b = a'.agrees b :=
  match h with
  | .null | .bool _ => rfl
  | .number hn => by cases b <;> simp only [agrees, hn.agrees_left]
  | .string hs => by cases b <;> simp only [agrees, hs.agrees_left]
  | .array hitems => by cases b <;> simp only [agrees, hitems.agree_left]
  | .object hentries => by
      cases b <;> simp only [agrees, hentries.agree_left, hentries.length_eq]

theorem RespelledItems.agree_left {as as' : List Value} (h : RespelledItems as as')
    (bs : List Value) : itemsAgree as bs = itemsAgree as' bs :=
  match h, bs with
  | .nil, _ => rfl
  | .cons _ _, [] => rfl
  | .cons hab hrest, b :: bs => by
      rw [itemsAgree, itemsAgree, hab.agrees_left b, hrest.agree_left bs]

theorem RespelledEntries.agree_left {as as' : List (String × Value)} (h : RespelledEntries as as')
    (bs : List (String × Value)) : entriesAgree as bs = entriesAgree as' bs :=
  match h with
  | .nil => rfl
  | .cons (k := k) hab hrest => by
      rw [entriesAgree, entriesAgree, hrest.agree_left bs]
      cases bs.lookup k with
      | none => rfl
      | some b => simp only [hab.agrees_left b]

end

mutual

/-- The right side of a comparison may be spelled differently. -/
theorem Respelled.agrees_right : ∀ (a : Value) {b b' : Value}, b.Respelled b' →
    a.agrees b = a.agrees b'
  | a, _, _, .null | a, _, _, .bool _ => rfl
  | a, _, _, .number hn => by cases a <;> simp only [agrees, hn.agrees_right]
  | a, _, _, .string hs => by cases a <;> simp only [agrees, hs.agrees_right]
  | .array as, _, _, .array hitems => by
      rw [agrees, agrees, RespelledItems.agree_right as hitems]
  | .object as, _, _, .object hentries => by
      rw [agrees, agrees, RespelledEntries.agree_right as hentries, hentries.length_eq]
  | .null, _, _, .array _ | .bool _, _, _, .array _ | .number _, _, _, .array _
  | .string _, _, _, .array _ | .object _, _, _, .array _ => rfl
  | .null, _, _, .object _ | .bool _, _, _, .object _ | .number _, _, _, .object _
  | .string _, _, _, .object _ | .array _, _, _, .object _ => rfl

theorem RespelledItems.agree_right : ∀ (as : List Value) {bs bs' : List Value},
    RespelledItems bs bs' → itemsAgree as bs = itemsAgree as bs'
  | [], _, _, .nil => rfl
  | [], _, _, .cons _ _ => rfl
  | _ :: _, _, _, .nil => rfl
  | a :: as, _, _, .cons hb hrest => by
      rw [itemsAgree, itemsAgree, Respelled.agrees_right a hb, RespelledItems.agree_right as hrest]

theorem RespelledEntries.agree_right : ∀ (as : List (String × Value))
    {bs bs' : List (String × Value)}, RespelledEntries bs bs' →
    entriesAgree as bs = entriesAgree as bs'
  | [], _, _, _ => by rw [entriesAgree, entriesAgree]
  | (k, a) :: as, bs, bs', h => by
      have hlookup := h.lookup k
      rw [entriesAgree, entriesAgree, RespelledEntries.agree_right as h]
      generalize bs.lookup k = x at hlookup ⊢
      generalize bs'.lookup k = y at hlookup ⊢
      cases hlookup with
      | none => rfl
      | some hb => simp only [Respelled.agrees_right a hb]

end

/-- **Both sides of a comparison may be spelled differently.** -/
theorem Respelled.agrees_eq {a a' b b' : Value} (ha : a.Respelled a') (hb : b.Respelled b') :
    a.agrees b = a'.agrees b' := by
  rw [ha.agrees_left b, Respelled.agrees_right a' hb]

end Value

end Gatehouse
