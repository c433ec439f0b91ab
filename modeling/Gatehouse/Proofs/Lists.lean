import Mathlib.Data.List.Basic
import Mathlib.Data.List.Forall2
import Mathlib.Data.List.Perm.Basic

/-!
# Facts about lists and options

What this file shows:

* `optionRel_bind`: steps that keep values related keep them so where there may be none;
* `forall₂_iff_map_eq`: lists are related item by item if they are mapped to the same list;
* `mapM_eq_some_iff`: what it means that a partial function has a value on every item of a list;
* `toOption_eq_some_iff`: what is left of an outcome without its error;
* `exists_of_map_ok`, `eq_error_of_map`: the outcome that was mapped;
* `mem_of_lookup`, `lookup_of_mem`, `lookup_filter`, `lookup_map_values`, `lookup_reverse`: what is
  found under a key in a list of entries;
* `find?_eq_some_iff_of_one`, `find?_eq_of_perm`: what only one item passes is found, in any order;
* `flatMap_filter_perm`: items that are sorted by keys are still all there;
* `find?_name_eq_some_iff`: what is found in a table by a name.
-/

namespace Gatehouse

/-- Steps from related values lead to related values, if anywhere. -/
theorem optionRel_bind {α β γ δ : Type} {R : α → β → Prop} {S : γ → δ → Prop} {x : Option α}
    {y : Option β} {f : α → Option γ} {g : β → Option δ} (h : Option.Rel R x y)
    (hfg : ∀ {a b}, R a b → Option.Rel S (f a) (g b)) : Option.Rel S (x.bind f) (y.bind g) := by
  cases h with
  | none => exact .none
  | some hab => exact hfg hab

/-- Items are related one by one if both lists are mapped to the same one, where it is so for every
    item of one list with every item of the other. -/
theorem forall₂_iff_map_eq {α β γ : Type} {R : α → β → Prop} {f : α → γ} {g : β → γ} :
    ∀ {as : List α} {bs : List β}, (∀ a ∈ as, ∀ b ∈ bs, (R a b ↔ f a = g b)) →
      (List.Forall₂ R as bs ↔ as.map f = bs.map g)
  | [], [], _ => iff_of_true .nil rfl
  | [], b :: bs, _ => by simp
  | a :: as, [], _ => by simp
  | a :: as, b :: bs, h => by
      have hrest : List.Forall₂ R as bs ↔ as.map f = bs.map g :=
        forall₂_iff_map_eq fun x hx y hy =>
          h x (List.mem_cons_of_mem _ hx) y (List.mem_cons_of_mem _ hy)
      rw [List.forall₂_cons, h a List.mem_cons_self b List.mem_cons_self, hrest, List.map_cons,
        List.map_cons, List.cons.injEq]

/-- A list is mapped through a partial function if the function has a value on each item. -/
theorem mapM_eq_some_iff {α β : Type} {f : α → Option β} :
    ∀ {xs : List α} {ys : List β}, xs.mapM f = some ys ↔ xs.map f = ys.map some
  | [], [] => by simp
  | [], y :: ys => by simp
  | x :: xs, [] => by simp [Option.bind_eq_some_iff]
  | x :: xs, y :: ys => by
      have ih : xs.mapM f = some ys ↔ xs.map f = ys.map some := mapM_eq_some_iff
      rw [List.mapM_cons, List.map_cons, List.map_cons, List.cons.injEq, ← ih]
      simp [Option.bind_eq_some_iff]

theorem toOption_eq_some_iff {ε α : Type} {x : Except ε α} {a : α} :
    x.toOption = some a ↔ x = .ok a := by
  cases x with
  | error e => simp [Except.toOption]
  | ok b => simp [Except.toOption]

theorem exists_of_map_ok {ε α β : Type} {f : α → β} {x : Except ε α} {b : β}
    (h : x.map f = .ok b) : ∃ a, x = .ok a := by
  cases x with
  | error e => cases h
  | ok a => exact ⟨a, rfl⟩

theorem eq_error_of_map {ε α β : Type} {f : α → β} {x : Except ε α} {e : ε}
    (h : x.map f = .error e) : x = .error e := by
  cases x with
  | error e' =>
      cases h
      rfl
  | ok a => cases h

/-- The value that a key is found with is among the entries. -/
theorem mem_of_lookup {α : Type} {entries : List (String × α)} {k : String} {a : α}
    (h : entries.lookup k = some a) : (k, a) ∈ entries := by
  obtain ⟨before, after, rfl, _⟩ := List.lookup_eq_some_iff.mp h
  exact List.mem_append_right _ List.mem_cons_self

/-- If no key is repeated, every entry is found under its key. -/
theorem lookup_of_mem {α : Type} {k : String} {a : α} {entries : List (String × α)}
    (hnodup : (entries.map Prod.fst).Nodup) (h : (k, a) ∈ entries) :
    entries.lookup k = some a := by
  induction entries with
  | nil => cases h
  | cons e rest ih =>
      obtain ⟨l, b⟩ := e
      obtain ⟨hl, hrest⟩ := List.nodup_cons.mp hnodup
      rcases List.mem_cons.mp h with heq | hmem
      · cases heq
        exact List.lookup_cons_self
      · have hk : k ∈ rest.map Prod.fst := List.mem_map_of_mem hmem
        have hne : (k == l) = false := beq_eq_false_iff_ne.mpr fun heq => hl (heq ▸ hk)
        rw [List.lookup_cons, hne]
        exact ih hrest hmem

/-- What is found under a key is not lost with entries of other keys. -/
theorem lookup_filter {α : Type} {p : String → Bool} {k : String} (hk : p k = true) :
    ∀ entries : List (String × α), (entries.filter fun e => p e.1).lookup k = entries.lookup k
  | [] => rfl
  | (l, a) :: rest => by
      rw [List.filter_cons, List.lookup_cons]
      by_cases hkl : k = l
      · subst hkl
        simp [hk]
      · have hne : (k == l) = false := beq_eq_false_iff_ne.mpr hkl
        rw [hne]
        split
        · rw [List.lookup_cons, hne]
          exact lookup_filter hk rest
        · exact lookup_filter hk rest

/-- What is found under a key among entries whose values were mapped. -/
theorem lookup_map_values {α β : Type} (f : α → β) (k : String) : ∀ es : List (String × α),
    (es.map fun e => (e.1, f e.2)).lookup k = (es.lookup k).map f
  | [] => rfl
  | (l, a) :: es => by
      rw [List.map_cons, List.lookup_cons, List.lookup_cons, lookup_map_values f k es]
      cases k == l <;> rfl

/-- A key that is not there is not found. -/
theorem lookup_eq_none_of_not_mem {α : Type} {k : String} {es : List (String × α)}
    (h : k ∉ es.map Prod.fst) : es.lookup k = none := by
  refine Option.eq_none_iff_forall_ne_some.mpr fun a ha => h ?_
  exact List.mem_map_of_mem (mem_of_lookup ha)

/-- What is found under a key does not depend on the direction, if no key is repeated. -/
theorem lookup_reverse {α : Type} (k : String) {es : List (String × α)}
    (h : (es.map Prod.fst).Nodup) : es.reverse.lookup k = es.lookup k := by
  induction es with
  | nil => rfl
  | cons e es ih =>
    obtain ⟨l, a⟩ := e
    obtain ⟨hl, hes⟩ := List.nodup_cons.mp h
    rw [List.reverse_cons, List.lookup_append, ih hes, List.lookup_cons, List.lookup_cons]
    by_cases hk : k = l
    · subst hk
      rw [lookup_eq_none_of_not_mem hl, beq_self_eq_true]
      rfl
    · have hne : (k == l) = false := beq_eq_false_iff_ne.mpr hk
      rw [hne, List.lookup_nil, Option.or_none]

/-- If no two items pass a test, what is found by it is what passes it. -/
theorem find?_eq_some_iff_of_one {α : Type} {p : α → Bool} {xs : List α}
    (hone : xs.Pairwise fun x y => ¬ (p x = true ∧ p y = true)) {x : α} :
    xs.find? p = some x ↔ x ∈ xs ∧ p x = true := by
  constructor
  · intro h
    exact ⟨List.mem_of_find?_eq_some h, List.find?_some h⟩
  · intro ⟨hx, hpass⟩
    obtain ⟨before, after, rfl⟩ := List.append_of_mem hx
    obtain ⟨_, _, hbefore⟩ := List.pairwise_append.mp hone
    refine List.find?_eq_some_iff_append.mpr ⟨hpass, before, after, rfl, fun y hy => ?_⟩
    have hnot := hbefore y hy x List.mem_cons_self
    rw [Bool.not_eq_true', Bool.eq_false_iff]
    exact fun hy => hnot ⟨hy, hpass⟩

/-- The item that passes a test is found in any order, if no two items pass. -/
theorem find?_eq_of_perm {α : Type} {p : α → Bool} {xs ys : List α} (h : xs.Perm ys)
    (hone : xs.Pairwise fun x y => ¬ (p x = true ∧ p y = true)) : xs.find? p = ys.find? p := by
  have hone' : ys.Pairwise fun x y => ¬ (p x = true ∧ p y = true) :=
    h.pairwise hone fun hxy hyx => hxy ⟨hyx.2, hyx.1⟩
  ext x
  rw [find?_eq_some_iff_of_one hone, find?_eq_some_iff_of_one hone', h.mem_iff]

/-- Items sorted by keys are the same items, if no key is repeated and each item has one of them. -/
theorem flatMap_filter_perm {α κ : Type} [DecidableEq κ] {key : α → κ} {keys : List κ}
    (hkeys : keys.Nodup) {xs : List α} (h : ∀ x ∈ xs, key x ∈ keys) :
    (keys.flatMap fun k => xs.filter fun x => key x == k).Perm xs := by
  induction keys generalizing xs with
  | nil =>
      have hnone : xs = [] :=
        List.eq_nil_iff_forall_not_mem.mpr fun x hx => absurd (h x hx) List.not_mem_nil
      rw [hnone]
      exact .nil
  | cons k keys ih =>
      obtain ⟨hk, hkeys⟩ := List.nodup_cons.mp hkeys
      have hothers : ∀ x ∈ xs.filter (fun x => !(key x == k)), key x ∈ keys := by
        intro x hx
        obtain ⟨hx, hne⟩ := List.mem_filter.mp hx
        rw [Bool.not_eq_true', beq_eq_false_iff_ne] at hne
        exact (List.mem_cons.mp (h x hx)).resolve_left hne
      -- taking out the items of the first key takes nothing from the other keys
      have hsame : (keys.flatMap fun l => xs.filter fun x => key x == l) =
          keys.flatMap fun l => (xs.filter fun x => !(key x == k)).filter fun x => key x == l := by
        refine List.flatMap_congr fun l hl => ?_
        rw [List.filter_filter]
        refine List.filter_congr fun x _ => ?_
        by_cases hx : key x = l
        · have hne : l ≠ k := fun heq => hk (heq ▸ hl)
          simp [hx, hne]
        · simp [hx]
      rw [List.flatMap_cons, hsame]
      exact ((ih hkeys hothers).append_left _).trans (List.filter_append_perm _ xs)

/-- In a table where everything is found by its own name, a name finds what it is the name of. -/
theorem find?_name_eq_some_iff {α : Type} {name : α → String} {table : List α}
    (h : ∀ a, (table.find? fun b => name b == name a) = some a) {s : String} {a : α} :
    (table.find? fun b => name b == s) = some a ↔ name a = s := by
  constructor
  · intro hfound
    have hname := List.find?_some hfound
    exact beq_iff_eq.mp hname
  · intro hname
    rw [← hname]
    exact h a

end Gatehouse
