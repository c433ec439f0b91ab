import Gatehouse.Value
import Gatehouse.Proofs.Lists
import Gatehouse.Proofs.Number
import Gatehouse.Proofs.Uuid

/-!
# Agreement of values

What this file fixes, and what it shows about `Value.agrees`:

* `stringsAgree_iff`, `itemsAgree_iff`, `entriesAgree_iff`: what the agreement of strings, lists
  and objects means;
* `Collides`: somewhere two values hold different integers that are rounded to the same double;
* `agrees_trans_iff`: of three values, each agreeing with the next, the first agrees with the last
  exactly if these two do not collide. Integers below `2^53` in magnitude never do;
* `not_agrees_trans`: there are integers that do, so agreement is not transitive.
-/

namespace Gatehouse

namespace Value

/-! ## 1. Strings, lists and objects -/

theorem stringsAgree_iff {a b : String} : stringsAgree a b = true ↔
    a = b ∨ ∃ u : Uuid, u.Spelling a.toList ∧ u.Spelling b.toList := by
  unfold stringsAgree
  rw [Bool.or_eq_true, beq_iff_eq, Uuid.sameSpelled_iff]

theorem stringsAgree_trans {a b c : String} (hab : stringsAgree a b = true)
    (hbc : stringsAgree b c = true) : stringsAgree a c = true := by
  rcases stringsAgree_iff.mp hab with rfl | ⟨u, ha, hb⟩
  · exact hbc
  rcases stringsAgree_iff.mp hbc with rfl | ⟨v, hb', hc⟩
  · exact hab
  -- a text spells one UUID only, so the middle text joins the outer ones
  have huv : some u = some v := by
    rw [← Uuid.parse?_eq_some_iff.mpr hb, ← Uuid.parse?_eq_some_iff.mpr hb']
  obtain rfl := Option.some.inj huv
  exact stringsAgree_iff.mpr (Or.inr ⟨u, ha, hc⟩)

theorem itemsAgree_iff : ∀ {as bs : List Value}, itemsAgree as bs = true ↔
    as.length = bs.length ∧
      ∀ (i : Nat) (a b : Value), as[i]? = some a → bs[i]? = some b → a.agrees b = true
  | [], [] => by simp [itemsAgree]
  | [], b :: bs => by simp [itemsAgree]
  | a :: as, [] => by simp [itemsAgree]
  | a :: as, b :: bs => by
      rw [itemsAgree, Bool.and_eq_true, @itemsAgree_iff as bs, List.length_cons,
        List.length_cons, Nat.add_right_cancel_iff]
      constructor
      · rintro ⟨hab, hlen, hrest⟩
        refine ⟨hlen, fun i => ?_⟩
        cases i with
        | zero =>
            intro x y hx hy
            obtain rfl := Option.some.inj hx
            obtain rfl := Option.some.inj hy
            exact hab
        | succ i => exact hrest i
      · rintro ⟨hlen, hall⟩
        exact ⟨hall 0 a b rfl rfl, hlen, fun i => hall (i + 1)⟩

theorem entriesAgree_cons {k : String} {a : Value} {as bs : List (String × Value)} :
    entriesAgree ((k, a) :: as) bs = true ↔
      (∃ b, bs.lookup k = some b ∧ a.agrees b = true) ∧ entriesAgree as bs = true := by
  rw [entriesAgree, Bool.and_eq_true]
  cases bs.lookup k <;> simp

theorem entriesAgree_iff : ∀ {as bs : List (String × Value)}, entriesAgree as bs = true ↔
    ∀ k a, (k, a) ∈ as → ∃ b, bs.lookup k = some b ∧ a.agrees b = true
  | [], bs => by simp [entriesAgree]
  | (l, x) :: as, bs => by
      rw [entriesAgree_cons, @entriesAgree_iff as bs]
      constructor
      · rintro ⟨hx, hrest⟩ k a hmem
        rcases List.mem_cons.mp hmem with heq | hmem
        · cases heq
          exact hx
        · exact hrest k a hmem
      · intro hall
        exact ⟨hall l x List.mem_cons_self,
          fun k a hmem => hall k a (List.mem_cons_of_mem _ hmem)⟩

/-! ## 2. Collisions -/

/-- At the same place, the two values hold different integers that are rounded to the same
    double. -/
inductive Collides : Value → Value → Prop
  | number {m n : Number} : m.Collide n → Collides (.number m) (.number n)
  | item {as bs : List Value} {i : Nat} {a b : Value} : as[i]? = some a → bs[i]? = some b →
      Collides a b → Collides (.array as) (.array bs)
  | entry {as bs : List (String × Value)} {k : String} {a b : Value} : (k, a) ∈ as →
      bs.lookup k = some b → Collides a b → Collides (.object as) (.object bs)

/-- Values that collide do not agree. -/
theorem Collides.agrees_eq_false {a b : Value} (h : a.Collides b) : a.agrees b = false := by
  induction h with
  | number hmn =>
      rw [agrees, ← Bool.not_eq_true]
      exact fun h => Number.not_collide_of_agrees h hmn
  | item ha hb _ ih =>
      rw [agrees, ← Bool.not_eq_true]
      intro h
      rw [(itemsAgree_iff.mp h).2 _ _ _ ha hb] at ih
      cases ih
  | entry ha hb _ ih =>
      rw [agrees, ← Bool.not_eq_true]
      intro h
      obtain ⟨b, hb', hab⟩ := entriesAgree_iff.mp (Bool.and_eq_true_iff.mp h).2 _ _ ha
      rw [hb] at hb'
      obtain rfl := Option.some.inj hb'
      rw [hab] at ih
      cases ih

mutual

/-- The integers in a value. -/
def integers : Value → List Int
  | .number (.int n) => [n]
  | .array items => integersOfItems items
  | .object entries => integersOfEntries entries
  | _ => []

/-- The integers in the items of a list. -/
def integersOfItems : List Value → List Int
  | [] => []
  | v :: vs => integers v ++ integersOfItems vs

/-- The integers in the entries of an object. -/
def integersOfEntries : List (String × Value) → List Int
  | [] => []
  | (_, v) :: vs => integers v ++ integersOfEntries vs

end

theorem mem_integersOfItems {items : List Value} {v : Value} {n : Int} (hv : v ∈ items)
    (hn : n ∈ v.integers) : n ∈ integersOfItems items := by
  induction items with
  | nil => cases hv
  | cons w rest ih =>
      rw [integersOfItems, List.mem_append]
      rcases List.mem_cons.mp hv with rfl | hv
      · exact Or.inl hn
      · exact Or.inr (ih hv)

theorem mem_integersOfEntries {entries : List (String × Value)} {k : String} {v : Value} {n : Int}
    (hv : (k, v) ∈ entries) (hn : n ∈ v.integers) : n ∈ integersOfEntries entries := by
  induction entries with
  | nil => cases hv
  | cons e rest ih =>
      obtain ⟨l, w⟩ := e
      rw [integersOfEntries, List.mem_append]
      rcases List.mem_cons.mp hv with heq | hv
      · cases heq
        exact Or.inl hn
      · exact Or.inr (ih hv)

/-- **Only integers of at least `2^53` in magnitude collide**, on either side. -/
theorem Collides.exists_large {a b : Value} (h : a.Collides b) :
    (∃ m ∈ a.integers, 2 ^ 53 ≤ m.natAbs) ∧ ∃ n ∈ b.integers, 2 ^ 53 ≤ n.natAbs := by
  induction h with
  | number hmn =>
      obtain ⟨hne, hround⟩ := hmn
      rename_i m n
      refine ⟨⟨m, List.mem_singleton_self m, ?_⟩, ⟨n, List.mem_singleton_self n, ?_⟩⟩
      · by_contra hsmall
        exact hne ((Double.ofInt_agrees_iff (by omega)).mp hround)
      · by_contra hsmall
        rw [Double.agrees_comm] at hround
        exact hne ((Double.ofInt_agrees_iff (by omega)).mp hround).symm
  | item ha hb _ ih =>
      obtain ⟨⟨m, hm, hlarge⟩, n, hn, hlarge'⟩ := ih
      exact ⟨⟨m, mem_integersOfItems (List.mem_of_getElem? ha) hm, hlarge⟩,
        n, mem_integersOfItems (List.mem_of_getElem? hb) hn, hlarge'⟩
  | entry ha hb _ ih =>
      obtain ⟨⟨m, hm, hlarge⟩, n, hn, hlarge'⟩ := ih
      exact ⟨⟨m, mem_integersOfEntries ha hm, hlarge⟩,
        n, mem_integersOfEntries (mem_of_lookup hb) hn, hlarge'⟩

/-! ## 3. Transitivity -/

mutual

/-- Agreement is passed on between values that do not collide. -/
theorem agrees_trans : ∀ {a b c : Value}, a.agrees b = true → b.agrees c = true →
    ¬ a.Collides c → a.agrees c = true
  | .null, .null, c, _, hbc, _ => hbc
  | .bool x, .bool y, .bool z, hab, hbc, _ => by
      rw [agrees, beq_iff_eq] at *
      exact hab.trans hbc
  | .number x, .number y, .number z, hab, hbc, hac =>
      Number.agrees_trans hab hbc fun h => hac (.number h)
  | .string x, .string y, .string z, hab, hbc, _ => stringsAgree_trans hab hbc
  | .array as, .array bs, .array cs, hab, hbc, hac =>
      itemsAgree_trans as bs cs hab hbc fun _ _ _ ha hc h => hac (.item ha hc h)
  | .object as, .object bs, .object cs, hab, hbc, hac => by
      rw [agrees, Bool.and_eq_true, beq_iff_eq] at hab hbc ⊢
      exact ⟨hab.1.trans hbc.1, entriesAgree_trans as bs cs hab.2 hbc.2
        fun _ _ _ ha hc h => hac (.entry ha hc h)⟩

theorem itemsAgree_trans : ∀ as bs cs : List Value, itemsAgree as bs = true →
    itemsAgree bs cs = true →
    (∀ (i : Nat) (a c : Value), as[i]? = some a → cs[i]? = some c → ¬ a.Collides c) →
    itemsAgree as cs = true
  | [], [], [], _, _, _ => rfl
  | a :: as, b :: bs, c :: cs, hab, hbc, hac => by
      rw [itemsAgree, Bool.and_eq_true] at hab hbc ⊢
      exact ⟨agrees_trans hab.1 hbc.1 (hac 0 a c rfl rfl),
        itemsAgree_trans as bs cs hab.2 hbc.2 fun i => hac (i + 1)⟩

theorem entriesAgree_trans : ∀ as bs cs : List (String × Value), entriesAgree as bs = true →
    entriesAgree bs cs = true →
    (∀ k a c, (k, a) ∈ as → cs.lookup k = some c → ¬ a.Collides c) → entriesAgree as cs = true
  | [], _, _, _, _, _ => rfl
  | (k, a) :: as, bs, cs, hab, hbc, hac => by
      obtain ⟨⟨b, hb, hab⟩, hrest⟩ := entriesAgree_cons.mp hab
      obtain ⟨c, hc, hbc'⟩ := entriesAgree_iff.mp hbc k b (mem_of_lookup hb)
      refine entriesAgree_cons.mpr ⟨⟨c, hc, ?_⟩, ?_⟩
      · exact agrees_trans hab hbc' (hac k a c List.mem_cons_self hc)
      · exact entriesAgree_trans as bs cs hrest hbc fun l x y hx =>
          hac l x y (List.mem_cons_of_mem _ hx)

end

/-- **When agreement is passed on**: of three values, each agreeing with the next, the first agrees
    with the last exactly if these two do not collide; and for that to happen, both must hold an
    integer of at least `2^53` in magnitude. -/
theorem agrees_trans_iff (a b c : Value) (hab : a.agrees b = true) (hbc : b.agrees c = true) :
    (a.agrees c = true ↔ ¬ a.Collides c) ∧
    (a.agrees c = false → (∃ m ∈ a.integers, 2 ^ 53 ≤ m.natAbs) ∧
      ∃ n ∈ c.integers, 2 ^ 53 ≤ n.natAbs) := by
  have hiff : a.agrees c = true ↔ ¬ a.Collides c := by
    constructor
    · intro hac hcollides
      rw [hcollides.agrees_eq_false] at hac
      cases hac
    · exact agrees_trans hab hbc
  refine ⟨hiff, fun hac => ?_⟩
  have hcollides : a.Collides c := by
    by_contra hno
    rw [hiff.mpr hno] at hac
    cases hac
  exact hcollides.exists_large

/-- A record that spells an identifier and a level its own way. -/
def levelOf (id : String) (level : Number) : Value :=
  .object [("id", .string id), ("level", .number level)]

/-- Three spellings of one identifier, and an integer that becomes a double and an integer again:
    the first and the last record agree, for they hold no large integer. -/
theorem agrees_trans_iff_level :
    (levelOf "6f1c2a1e8b0d4c3a9f5e2d7b8c9a0e11" (.int 3)).agrees
        (levelOf "6F1C2A1E-8B0D-4C3A-9F5E-2D7B8C9A0E11" (.double (.ofInt 3))) = true ∧
      (levelOf "6F1C2A1E-8B0D-4C3A-9F5E-2D7B8C9A0E11" (.double (.ofInt 3))).agrees
        (levelOf "urn:uuid:6f1c2a1e-8b0d-4c3a-9f5e-2d7b8c9a0e11" (.int 3)) = true ∧
      (levelOf "6f1c2a1e8b0d4c3a9f5e2d7b8c9a0e11" (.int 3)).agrees
        (levelOf "urn:uuid:6f1c2a1e-8b0d-4c3a-9f5e-2d7b8c9a0e11" (.int 3)) = true := by
  have hab : (levelOf "6f1c2a1e8b0d4c3a9f5e2d7b8c9a0e11" (.int 3)).agrees
      (levelOf "6F1C2A1E-8B0D-4C3A-9F5E-2D7B8C9A0E11" (.double (.ofInt 3))) = true := by
    decide +kernel
  have hbc : (levelOf "6F1C2A1E-8B0D-4C3A-9F5E-2D7B8C9A0E11" (.double (.ofInt 3))).agrees
      (levelOf "urn:uuid:6f1c2a1e-8b0d-4c3a-9f5e-2d7b8c9a0e11" (.int 3)) = true := by
    decide +kernel
  refine ⟨hab, hbc, Bool.eq_true_of_not_eq_false fun hac => ?_⟩
  obtain ⟨⟨m, hm, hlarge⟩, _⟩ := (agrees_trans_iff _ _ _ hab hbc).2 hac
  obtain rfl : m = 3 := by simpa [levelOf, integers, integersOfEntries] using hm
  exact absurd hlarge (by decide)

/-- **Agreement is not transitive**: `2^53 + 1` is rounded to `2^53`, so both agree with that double
    and not with each other. -/
theorem not_agrees_trans :
    ¬ ∀ a b c : Value, a.agrees b = true → b.agrees c = true → a.agrees c = true := by
  intro h
  have hac : (int 9007199254740993).agrees (int 9007199254740992) = true :=
    h (int 9007199254740993) (.number (.double (.ofInt 9007199254740992)))
      (int 9007199254740992) (by decide +kernel) (by decide +kernel)
  exact absurd hac (by decide +kernel)

end Value

end Gatehouse
