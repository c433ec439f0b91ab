import Gatehouse.Doc
import Gatehouse.Proofs.Lists
import Gatehouse.Proofs.Value.Order

/-!
# Reading back what was written

What this file shows about documents of values:

* `isOrdered_of_value?`, `isOrdered_of_attributes?`: a free value and an attribute map that are read
  from a document have their entries in order;
* `value?_ofValue`: such a value is read back from its own document as it stands, and any other
  with its entries put in order;
* `fields?_object`: the fields of a record are found in an object;
* `optional_eq_none_iff`: a field that may be left out is read as none where it is missing or null;
* `depth_lt_of_lookup`: the value of an entry has fewer levels than the object.
-/

namespace Gatehouse.Doc

/-! ## 1. Free values -/

theorem isOrdered_of_atom {a : Atom} {v : Value} (h : a.value? = some v) : v.isOrdered = true := by
  cases a <;> cases h <;> rfl

mutual

/-- **What is read as a free value has its entries in order.** -/
theorem isOrdered_of_value? : ∀ (d : Doc) {v : Value}, d.value? = some v → v.isOrdered = true
  | .atom a, _, h => isOrdered_of_atom (by rwa [value?] at h)
  | .scalar s, _, h => isOrdered_of_atom (by rwa [value?] at h)
  | .array items, _, h => by
      obtain ⟨vs, hvs, rfl⟩ := Option.map_eq_some_iff.mp (by rwa [value?] at h)
      exact areOrdered_of_values? items hvs
  | .sequence items, _, h => by
      obtain ⟨vs, hvs, rfl⟩ := Option.map_eq_some_iff.mp (by rwa [value?] at h)
      exact areOrdered_of_values? items hvs
  | .object entries, _, h => by
      obtain ⟨es, hes, rfl⟩ := Option.map_eq_some_iff.mp (by rwa [value?] at h)
      exact Value.isOrdered_ofEntries (entriesOrdered_of_entryValues? entries hes)
  | .mapping entries, _, h => by
      obtain ⟨es, hes, rfl⟩ := Option.map_eq_some_iff.mp (by rwa [value?] at h)
      exact Value.isOrdered_ofEntries (entriesOrdered_of_mappedValues? entries hes)
  | .tagged _, _, h => by rw [value?] at h; cases h

theorem areOrdered_of_values? : ∀ (ds : List Doc) {vs : List Value}, values? ds = some vs →
    Value.areOrdered vs = true
  | [], _, h => by cases h; rfl
  | d :: ds, _, h => by
      rw [values?] at h
      split at h
      · rename_i v vs hv hvs
        cases h
        rw [Value.areOrdered, isOrdered_of_value? d hv, areOrdered_of_values? ds hvs]
        rfl
      · cases h

theorem entriesOrdered_of_entryValues? : ∀ (ds : List (String × Doc))
    {es : List (String × Value)}, entryValues? ds = some es → Value.entriesOrdered es = true
  | [], _, h => by cases h; rfl
  | (k, d) :: ds, _, h => by
      rw [entryValues?] at h
      split at h
      · rename_i v vs hv hvs
        cases h
        rw [Value.entriesOrdered, isOrdered_of_value? d hv, entriesOrdered_of_entryValues? ds hvs]
        rfl
      · cases h

theorem entriesOrdered_of_mappedValues? : ∀ (ds : List (Doc × Doc))
    {es : List (String × Value)}, mappedValues? ds = some es → Value.entriesOrdered es = true
  | [], _, h => by cases h; rfl
  | (k, d) :: ds, _, h => by
      rw [mappedValues?] at h
      split at h
      · rename_i s v vs _ hv hvs
        cases h
        rw [Value.entriesOrdered, isOrdered_of_value? d hv, entriesOrdered_of_mappedValues? ds hvs]
        rfl
      · cases h

end

/-- **What is read as an attribute map has its entries in order.** -/
theorem isOrdered_of_attributes? : ∀ (d : Doc) {m : Attributes}, d.attributes? = some m →
    (Value.object m).isOrdered = true
  | .object entries, _, h => by
      obtain ⟨es, hes, rfl⟩ := Option.map_eq_some_iff.mp (by rwa [attributes?] at h)
      exact Value.isOrdered_ofEntries (entriesOrdered_of_entryValues? entries hes)
  | .mapping entries, _, h => by
      obtain ⟨es, hes, rfl⟩ := Option.map_eq_some_iff.mp (by rwa [attributes?] at h)
      exact Value.isOrdered_ofEntries (entriesOrdered_of_mappedValues? entries hes)
  | .scalar s, _, h => by
      rw [attributes?] at h
      split at h
      · cases h
        rfl
      · cases h
  | .tagged d, _, h => isOrdered_of_attributes? d (by rwa [attributes?] at h)
  | .atom _, _, h | .array _, _, h | .sequence _, _, h => by simp [attributes?] at h

mutual

/-- **A value is read back with its entries put in order.** -/
theorem value?_ofValue_eq_sorted : ∀ v : Value, (ofValue v).value? = some v.sorted
  | .null | .bool _ | .number _ | .string _ => rfl
  | .array items => by
      rw [ofValue, value?, values?_ofValues items, Value.sorted]
      rfl
  | .object entries => by
      rw [ofValue, value?, entryValues?_ofEntries entries, Value.sorted]
      rfl

theorem values?_ofValues : ∀ vs : List Value,
    values? (ofValues vs) = some (Value.sortedItems vs)
  | [] => rfl
  | v :: vs => by
      rw [ofValues, values?, value?_ofValue_eq_sorted v, values?_ofValues vs, Value.sortedItems]

theorem entryValues?_ofEntries : ∀ es : List (String × Value),
    entryValues? (ofEntries es) = some (Value.sortedEntries es)
  | [] => rfl
  | (k, v) :: es => by
      rw [ofEntries, entryValues?, value?_ofValue_eq_sorted v, entryValues?_ofEntries es,
        Value.sortedEntries]

end

/-- **A value with its entries in order is read back as it stands.** -/
theorem value?_ofValue (v : Value) (h : v.isOrdered = true) : (ofValue v).value? = some v := by
  rw [value?_ofValue_eq_sorted, Value.sorted_eq_self h]

/-! ## 2. Records -/

theorem ofEntries_eq_map : ∀ es : List (String × Value),
    ofEntries es = es.map fun e => (e.1, ofValue e.2)
  | [] => rfl
  | (k, v) :: es => by rw [ofEntries, ofEntries_eq_map es, List.map_cons]

theorem lookup_ofEntries (k : String) (es : List (String × Value)) :
    (ofEntries es).lookup k = (es.lookup k).map ofValue := by
  rw [ofEntries_eq_map, lookup_map_values]

/-- The keys of an object are those of its document. -/
theorem keys_ofEntries (es : List (String × Value)) :
    (ofEntries es).map Prod.fst = es.map Prod.fst := by
  rw [ofEntries_eq_map, List.map_map]
  rfl

/-- **The fields of a record are found in an object** in which no key is repeated. -/
theorem fields?_object (names : List String) {ds : List (String × Doc)}
    (h : (ds.map Prod.fst).Nodup) : ∃ fs, (object ds).fields? names = some fs ∧
      ∀ k ∈ names, fs.lookup k = ds.lookup k := by
  have hnodup : ((ds.filter fun e => names.contains e.1).map Prod.fst).Nodup :=
    h.sublist (List.filter_sublist.map _)
  refine ⟨_, by rw [fields?, knownFields?]; exact if_pos hnodup, fun k hk => ?_⟩
  exact lookup_filter (List.contains_iff_mem.mpr hk) ds

/-- The fields of a record are found in the document of an object in which no key is repeated. -/
theorem fields?_ofValue_object (names : List String) {es : List (String × Value)}
    (h : (es.map Prod.fst).Nodup) : ∃ fs, (ofValue (.object es)).fields? names = some fs ∧
      ∀ k ∈ names, fs.lookup k = (es.lookup k).map ofValue := by
  obtain ⟨fs, hfs, hlookup⟩ := fields?_object names ((keys_ofEntries es).symm ▸ h)
  refine ⟨fs, by rw [ofValue, hfs], fun k hk => ?_⟩
  rw [hlookup k hk, lookup_ofEntries]

/-- The fields of a record are found in the document of the object of some entries, each with the
    last value that was given for it. -/
theorem fields?_ofValue_ofEntries (names : List String) (es : List (String × Value)) :
    ∃ fs, (ofValue (.ofEntries es)).fields? names = some fs ∧
      ∀ k ∈ names, fs.lookup k = (es.reverse.lookup k).map ofValue := by
  obtain ⟨fs, hfs, hlookup⟩ :=
    fields?_ofValue_object names (Value.keysIncrease_sortEntries es).nodup
  refine ⟨fs, hfs, fun k hk => ?_⟩
  rw [hlookup k hk, Value.lookup_sortEntries]

/-- The fields of a record whose entries were mapped. -/
theorem fields?_object_map (f : Doc → Doc) {names : List String} {es : List (String × Doc)}
    {fs : Fields} (h : (object es).fields? names = some fs) :
    (object (es.map fun e => (e.1, f e.2))).fields? names =
      some (fs.map fun e => (e.1, f e.2)) := by
  rw [fields?, knownFields?] at h
  split at h
  · rename_i hnodup
    obtain rfl := Option.some.inj h
    have hfilter : ((es.map fun e => (e.1, f e.2)).filter fun e => names.contains e.1) =
        (es.filter fun e => names.contains e.1).map fun e => (e.1, f e.2) := List.filter_map
    rw [fields?, knownFields?, hfilter, List.map_map]
    exact if_pos hnodup
  · cases h

/-- The document stands for no value where one is optional. -/
def standsForNone : Doc → Bool
  | .atom .null => true
  | .scalar s => s.presence == .none
  | _ => false

theorem optional?_eq_none_iff {α : Type} {read : Doc → Option α} {d : Doc} :
    d.optional? read = some none ↔ d.standsForNone = true := by
  have hread : (read d).map some ≠ some none := by
    intro h
    obtain ⟨a, _, ha⟩ := Option.map_eq_some_iff.mp h
    cases ha
  match d with
  | .atom .null => exact iff_of_true rfl rfl
  | .scalar s =>
      rw [optional?, standsForNone]
      cases s.presence with
      | none => exact iff_of_true rfl rfl
      | some => exact iff_of_false hread Bool.false_ne_true
      | refused => exact iff_of_false (Option.some_ne_none _).symm Bool.false_ne_true
  | .atom (.bool _) | .atom (.number _) | .atom (.string _) | .atom .nonFinite | .atom .unreadable
  | .array _ | .object _ | .sequence _ | .mapping _ | .tagged _ =>
      exact iff_of_false hread Bool.false_ne_true

namespace Fields

variable {fs : Fields} {k : String}

/-- The field is missing, or stands for no value. -/
def lacks (fs : Fields) (k : String) : Bool := (fs.lookup k).all standsForNone

/-- **An optional field is read as none where it is missing or null**, and only there. -/
theorem optional_eq_none_iff {α : Type} {read : Doc → Option α} :
    fs.optional k read = some none ↔ fs.lacks k = true := by
  unfold optional defaulted lacks
  cases fs.lookup k with
  | none => exact ⟨fun _ => rfl, fun _ => rfl⟩
  | some d => exact optional?_eq_none_iff

theorem optional_of_missing {α : Type} (h : fs.lookup k = none) (read : Doc → Option α) :
    fs.optional k read = some none := by
  rw [optional, defaulted, h]

/-- An optional value that is read is read from some document. -/
theorem exists_of_optional {α : Type} {read : Doc → Option α} {a : α}
    (h : fs.optional k read = some (some a)) : ∃ d, read d = some a := by
  have hmap : ∀ d, (read d).map some = some (some a) → ∃ d, read d = some a := by
    intro d hd
    obtain ⟨b, hb, hba⟩ := Option.map_eq_some_iff.mp hd
    exact ⟨d, by rw [hb, Option.some.inj hba]⟩
  unfold optional defaulted at h
  split at h
  · cases h
  · rename_i d _
    unfold optional? at h
    split at h
    · cases h
    · split at h
      · cases h
      · exact hmap _ h
      · cases h
    · exact hmap _ h

end Fields

/-- The items of a list that is read are read from documents. -/
theorem exists_of_list? {α : Type} {read : Doc → Option α} {d : Doc} {as : List α}
    (h : d.list? read = some as) {a : α} (ha : a ∈ as) : ∃ e, read e = some a := by
  obtain ⟨items, _, hitems⟩ := Option.bind_eq_some_iff.mp h
  have hmem : some a ∈ items.map read := by
    rw [mapM_eq_some_iff.mp hitems]
    exact List.mem_map_of_mem ha
  obtain ⟨e, _, he⟩ := List.mem_map.mp hmem
  exact ⟨e, he⟩

/-! ## 3. Levels -/

theorem depth_pos : ∀ d : Doc, 0 < d.depth
  | .atom _ | .scalar _ => by rw [depth]; exact Nat.one_pos
  | .array _ | .object _ | .sequence _ | .mapping _ => by rw [depth]; exact Nat.succ_pos _
  | .tagged d => by rw [depth]; exact depth_pos d

theorem depth_le_of_mem {k : String} {d : Doc} : ∀ {ds : List (String × Doc)},
    (k, d) ∈ ds → d.depth ≤ depthOfEntries ds
  | (l, e) :: ds, h => by
      rw [depthOfEntries]
      rcases List.mem_cons.mp h with heq | h
      · cases heq
        exact Nat.le_max_left _ _
      · exact Nat.le_trans (depth_le_of_mem h) (Nat.le_max_right _ _)

/-- The value of an entry has fewer levels than the object. -/
theorem depth_lt_of_lookup {es : List (String × Value)} {k : String} {v : Value}
    (h : es.reverse.lookup k = some v) : (ofValue v).depth < (ofValue (.ofEntries es)).depth := by
  have hfound : (ofEntries (Value.sortEntries es)).lookup k = some (ofValue v) := by
    rw [lookup_ofEntries, Value.lookup_sortEntries, h, Option.map_some]
  rw [Value.ofEntries, ofValue, depth]
  exact Nat.lt_succ_of_le (depth_le_of_mem (mem_of_lookup hfound))

end Gatehouse.Doc
