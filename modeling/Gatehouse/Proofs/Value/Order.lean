import Gatehouse.Value
import Mathlib.Data.List.Induction

/-!
# The order of entries

What this file fixes, and what it shows about `Value.sortEntries`:

* `Value.KeysIncrease`: entries in increasing order of their keys, so that no key is repeated;
* `keysIncrease_sortEntries`, `sortEntries_eq_self`: sorting brings entries into this order and
  leaves them alone if they are in it; `lookup_sortEntries`: of several with one key the last stays;
* `Value.isOrdered`: all objects in a value have their entries in order. These are the values that
  a reader hands over;
* `Value.sorted`: a value with all its entries put in order.
-/

namespace Gatehouse.Value

variable {α : Type}

/-! ## 1. Sorted entries -/

/-- The keys of the entries increase. -/
def KeysIncrease (entries : List (String × α)) : Prop := entries.Pairwise fun e f => e.1 < f.1

instance (entries : List (String × α)) : Decidable (KeysIncrease entries) :=
  inferInstanceAs (Decidable (entries.Pairwise fun e f => e.1 < f.1))

theorem mem_insertEntry {key : String} {value : α} {e : String × α} :
    ∀ {entries : List (String × α)}, e ∈ insertEntry key value entries →
      e = (key, value) ∨ e ∈ entries
  | [], h => Or.inl (List.mem_singleton.mp h)
  | (k, v) :: rest, h => by
      rw [insertEntry] at h
      split at h
      · exact (List.mem_cons.mp h).imp_right (List.mem_cons_of_mem _)
      · split at h
        · exact List.mem_cons.mp h
        · rcases List.mem_cons.mp h with rfl | h
          · exact Or.inr List.mem_cons_self
          · exact (mem_insertEntry h).imp_right (List.mem_cons_of_mem _)

/-- An entry is put where its key belongs. -/
theorem keysIncrease_insertEntry {key : String} {value : α} :
    ∀ {entries : List (String × α)}, KeysIncrease entries →
      KeysIncrease (insertEntry key value entries)
  | [], _ => List.pairwise_singleton _ _
  | (k, v) :: rest, h => by
      obtain ⟨hfirst, hrest⟩ := List.pairwise_cons.mp h
      rw [insertEntry]
      split
      · rename_i heq
        exact List.pairwise_cons.mpr ⟨heq ▸ hfirst, hrest⟩
      · split
        · rename_i hlt
          refine List.pairwise_cons.mpr ⟨fun e he => ?_, h⟩
          rcases List.mem_cons.mp he with rfl | he
          · exact hlt
          · exact String.lt_trans hlt (hfirst e he)
        · rename_i hne hnlt
          have hlt : k < key := by grind
          refine List.pairwise_cons.mpr ⟨fun e he => ?_, keysIncrease_insertEntry hrest⟩
          rcases mem_insertEntry he with rfl | he
          · exact hlt
          · exact hfirst e he

/-- An entry whose key comes after all others is put at the end. -/
theorem insertEntry_of_last {key : String} {value : α} :
    ∀ {entries : List (String × α)}, (∀ e ∈ entries, e.1 < key) →
      insertEntry key value entries = entries ++ [(key, value)]
  | [], _ => rfl
  | (k, v) :: rest, h => by
      have hlt : k < key := h (k, v) List.mem_cons_self
      have hne : key ≠ k := fun heq => String.lt_irrefl k (heq ▸ hlt)
      rw [insertEntry, if_neg hne, if_neg (String.lt_asymm hlt),
        insertEntry_of_last fun e he => h e (List.mem_cons_of_mem _ he), List.cons_append]

theorem lookup_insertEntry {key : String} {value : α} (k : String) :
    ∀ entries : List (String × α), (insertEntry key value entries).lookup k =
      ((key, value) :: entries).lookup k
  | [] => rfl
  | (l, v) :: rest => by
      rw [insertEntry]
      split
      · rename_i heq
        subst heq
        rw [List.lookup_cons, List.lookup_cons, List.lookup_cons]
        cases k == key <;> rfl
      · split
        · rfl
        · rename_i hne _
          rw [List.lookup_cons, lookup_insertEntry k rest, List.lookup_cons, List.lookup_cons,
            List.lookup_cons]
          by_cases hk : k = key
          · have hl : (k == l) = false := beq_eq_false_iff_ne.mpr (hk ▸ hne)
            rw [hl]
          · have hk : (k == key) = false := beq_eq_false_iff_ne.mpr hk
            rw [hk]

theorem sortEntries_append (entries : List (String × α)) (e : String × α) :
    sortEntries (entries ++ [e]) = insertEntry e.1 e.2 (sortEntries entries) := by
  rw [sortEntries, List.foldl_append]
  rfl

theorem mem_of_mem_sortEntries {entries : List (String × α)} {e : String × α}
    (h : e ∈ sortEntries entries) : e ∈ entries := by
  induction entries using List.reverseRecOn with
  | nil => exact h
  | append_singleton entries f ih =>
      rw [sortEntries_append] at h
      rcases mem_insertEntry h with rfl | h
      · exact List.mem_append_right _ List.mem_cons_self
      · exact List.mem_append_left _ (ih h)

/-- **Sorted entries are in order.** -/
theorem keysIncrease_sortEntries (entries : List (String × α)) :
    KeysIncrease (sortEntries entries) := by
  induction entries using List.reverseRecOn with
  | nil => exact List.Pairwise.nil
  | append_singleton entries e ih =>
      rw [sortEntries_append]
      exact keysIncrease_insertEntry ih

/-- **Entries in order are left as they are.** -/
theorem sortEntries_eq_self {entries : List (String × α)} (h : KeysIncrease entries) :
    sortEntries entries = entries := by
  induction entries using List.reverseRecOn with
  | nil => rfl
  | append_singleton entries e ih =>
      obtain ⟨hentries, _, hlast⟩ := List.pairwise_append.mp h
      rw [sortEntries_append, ih hentries]
      exact insertEntry_of_last fun f hf => hlast f hf e List.mem_cons_self

/-- **Of several entries with one key the last stays.** -/
theorem lookup_sortEntries (entries : List (String × α)) (k : String) :
    (sortEntries entries).lookup k = entries.reverse.lookup k := by
  induction entries using List.reverseRecOn with
  | nil => rfl
  | append_singleton entries e ih =>
      rw [sortEntries_append, lookup_insertEntry, List.reverse_append, List.reverse_singleton,
        List.singleton_append, List.lookup_cons, List.lookup_cons, ih]

/-- No key is repeated in entries in order. -/
theorem KeysIncrease.nodup {entries : List (String × α)} (h : KeysIncrease entries) :
    (entries.map Prod.fst).Nodup := by
  rw [List.Nodup, List.pairwise_map]
  refine h.imp ?_
  intro e f hlt heq
  rw [heq] at hlt
  exact String.lt_irrefl _ hlt

/-! ## 2. Values with their entries in order -/

mutual

/-- Every object in the value has its entries in order. -/
def isOrdered : Value → Bool
  | .array items => areOrdered items
  | .object entries => decide (KeysIncrease entries) && entriesOrdered entries
  | _ => true

/-- Every object in the items has its entries in order. -/
def areOrdered : List Value → Bool
  | [] => true
  | v :: vs => isOrdered v && areOrdered vs

/-- Every object in the values of the entries has its entries in order. -/
def entriesOrdered : List (String × Value) → Bool
  | [] => true
  | (_, v) :: vs => isOrdered v && entriesOrdered vs

end

theorem areOrdered_iff : ∀ {items : List Value},
    areOrdered items = true ↔ ∀ v ∈ items, v.isOrdered = true
  | [] => by simp [areOrdered]
  | v :: rest => by
      rw [areOrdered, Bool.and_eq_true, areOrdered_iff, List.forall_mem_cons]

theorem entriesOrdered_iff : ∀ {entries : List (String × Value)},
    entriesOrdered entries = true ↔ ∀ e ∈ entries, e.2.isOrdered = true
  | [] => by simp [entriesOrdered]
  | (k, v) :: rest => by
      rw [entriesOrdered, Bool.and_eq_true, entriesOrdered_iff, List.forall_mem_cons]

/-- The object of some entries is in order if their values are. -/
theorem isOrdered_ofEntries {entries : List (String × Value)}
    (h : entriesOrdered entries = true) : (ofEntries entries).isOrdered = true := by
  rw [ofEntries, isOrdered, Bool.and_eq_true, decide_eq_true_iff, entriesOrdered_iff]
  exact ⟨keysIncrease_sortEntries entries,
    fun e he => entriesOrdered_iff.mp h e (mem_of_mem_sortEntries he)⟩

/-- The keys of an object in order are not repeated. -/
theorem nodup_of_isOrdered {entries : List (String × Value)}
    (h : (Value.object entries).isOrdered = true) : (entries.map Prod.fst).Nodup := by
  rw [isOrdered, Bool.and_eq_true, decide_eq_true_iff] at h
  exact h.1.nodup

/-! ## 3. Putting entries in order -/

mutual

/-- The value with the entries of every object in order. -/
def sorted : Value → Value
  | .array items => .array (sortedItems items)
  | .object entries => .ofEntries (sortedEntries entries)
  | v => v

/-- The items with the entries of every object in order. -/
def sortedItems : List Value → List Value
  | [] => []
  | v :: vs => sorted v :: sortedItems vs

/-- The entries as they stand, with the entries of every object in their values in order. -/
def sortedEntries : List (String × Value) → List (String × Value)
  | [] => []
  | (k, v) :: es => (k, sorted v) :: sortedEntries es

end

theorem sortedItems_eq_map (vs : List Value) : sortedItems vs = vs.map sorted := by
  induction vs with
  | nil => rfl
  | cons v vs ih => rw [sortedItems, ih, List.map_cons]

theorem sortedEntries_eq_map (es : List (String × Value)) :
    sortedEntries es = es.map fun e => (e.1, e.2.sorted) := by
  induction es with
  | nil => rfl
  | cons e es ih => rw [sortedEntries, ih, List.map_cons]

mutual

/-- **A value in order is left as it is.** -/
theorem sorted_eq_self : ∀ {v : Value}, v.isOrdered = true → v.sorted = v
  | .null, _ | .bool _, _ | .number _, _ | .string _, _ => rfl
  | .array items, h => by rw [sorted, sortedItems_eq_self h]
  | .object entries, h => by
      rw [isOrdered, Bool.and_eq_true, decide_eq_true_iff] at h
      rw [sorted, sortedEntries_eq_self h.2, ofEntries, sortEntries_eq_self h.1]

theorem sortedItems_eq_self : ∀ {vs : List Value}, areOrdered vs = true → sortedItems vs = vs
  | [], _ => rfl
  | v :: vs, h => by
      rw [areOrdered, Bool.and_eq_true] at h
      rw [sortedItems, sorted_eq_self h.1, sortedItems_eq_self h.2]

theorem sortedEntries_eq_self : ∀ {es : List (String × Value)}, entriesOrdered es = true →
    sortedEntries es = es
  | [], _ => rfl
  | (k, v) :: es, h => by
      rw [entriesOrdered, Bool.and_eq_true] at h
      rw [sortedEntries, sorted_eq_self h.1, sortedEntries_eq_self h.2]

end

end Gatehouse.Value
