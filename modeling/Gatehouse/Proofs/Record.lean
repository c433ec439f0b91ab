import Gatehouse.Proofs.Doc
import Gatehouse.Proofs.Uuid

/-!
# Reading back records

What this file fixes, and what it shows about `Value.record`:

* `Doc.Transcribes`: a way to turn values into documents that loses nothing. An object may list its
  entries in any order. `transcribes_ofValue` is the document of a value as it stands,
  `transcribes_sorted` that of the value with all its entries in order;
* `Transcribes.fields?_record`: the fields of a record are found in its document, each with its
  value if it has one;
* `required_of_lookup`, `defaulted_of_lookup`, `optional_written`: what is read back by itself is read
  back as a field, and where there is nothing, nothing is.
-/

namespace Gatehouse

/-! ## 1. Records -/

namespace Value

/-- The entries of a record that are there. -/
def present (es : List (String × Option Value)) : List (String × Value) :=
  es.filterMap fun e => e.2.map fun v => (e.1, v)

theorem present_none (k : String) (es : List (String × Option Value)) :
    present ((k, none) :: es) = present es := rfl

theorem present_some (k : String) (v : Value) (es : List (String × Option Value)) :
    present ((k, some v) :: es) = (k, v) :: present es := rfl

/-- No field is there that the record does not have. -/
theorem keys_present_sublist (es : List (String × Option Value)) :
    ((present es).map Prod.fst).Sublist (es.map Prod.fst) := by
  induction es with
  | nil => exact .slnil
  | cons e es ih =>
    obtain ⟨k, o⟩ := e
    cases o with
    | none =>
      rw [present_none]
      exact ih.cons k
    | some v =>
      rw [present_some]
      exact ih.cons_cons k

/-- What is found in a record, if no field is repeated. -/
theorem lookup_present (k : String) {es : List (String × Option Value)}
    (h : (es.map Prod.fst).Nodup) : (present es).lookup k = (es.lookup k).join := by
  induction es with
  | nil => rfl
  | cons e es ih =>
    obtain ⟨l, o⟩ := e
    obtain ⟨hl, hes⟩ := List.nodup_cons.mp h
    have hrest := ih hes
    by_cases hk : k = l
    · subst hk
      cases o with
      | none =>
        rw [present_none, hrest, lookup_eq_none_of_not_mem hl, List.lookup_cons_self]
        rfl
      | some v =>
        rw [present_some, List.lookup_cons_self, List.lookup_cons_self]
        rfl
    · have hne : (k == l) = false := beq_eq_false_iff_ne.mpr hk
      cases o with
      | none => rw [present_none, hrest, List.lookup_cons, hne]
      | some v => rw [present_some, List.lookup_cons, List.lookup_cons, hne, hrest]

end Value

namespace Doc

/-! ## 2. Ways to turn values into documents -/

/-- A way to turn values into documents that loses nothing: a value in order becomes its document,
    a list the list of its items, and an object an object with the same entries. -/
structure Transcribes (g : Value → Doc) : Prop where
  ordered : ∀ {v : Value}, v.isOrdered = true → g v = ofValue v
  array : ∀ vs : List Value, g (.array vs) = .array (vs.map g)
  object : ∀ es : List (String × Value), ∃ ds, g (.object es) = .object ds ∧
    ((es.map Prod.fst).Nodup → (ds.map Prod.fst).Nodup ∧ ∀ k, ds.lookup k = (es.lookup k).map g)

theorem ofValues_eq_map (vs : List Value) : ofValues vs = vs.map ofValue := by
  induction vs with
  | nil => rfl
  | cons v vs ih => rw [ofValues, ih, List.map_cons]

/-- **The document of a value loses nothing.** -/
theorem transcribes_ofValue : Transcribes ofValue where
  ordered := fun _ => rfl
  array := fun vs => by rw [ofValue, ofValues_eq_map]
  object := fun es => ⟨ofEntries es, by rw [ofValue], fun h =>
    ⟨by rwa [keys_ofEntries], fun k => lookup_ofEntries k es⟩⟩

/-- **The document of a value with all its entries in order loses nothing.** -/
theorem transcribes_sorted : Transcribes fun v => ofValue v.sorted where
  ordered := fun h => by rw [Value.sorted_eq_self h]
  array := fun vs => by
    rw [Value.sorted, Value.sortedItems_eq_map, ofValue, ofValues_eq_map, List.map_map]
    rfl
  object := fun es => by
    have hkeys : (Value.sortedEntries es).map Prod.fst = es.map Prod.fst := by
      rw [Value.sortedEntries_eq_map, List.map_map]
      rfl
    refine ⟨ofEntries (Value.sortEntries (Value.sortedEntries es)), ?_, fun h => ⟨?_, fun k => ?_⟩⟩
    · rw [Value.sorted, Value.ofEntries, ofValue]
    · rw [keys_ofEntries]
      exact (Value.keysIncrease_sortEntries _).nodup
    · rw [lookup_ofEntries, Value.lookup_sortEntries, lookup_reverse k (hkeys ▸ h),
        Value.sortedEntries_eq_map, lookup_map_values, Option.map_map]
      rfl

/-! ## 3. Fields -/

namespace Transcribes

variable {g : Value → Doc}

/-- **The fields of a record are found in its document**, each with its value if it has one. -/
theorem fields?_record (hg : Transcribes g) {names : List String}
    {es : List (String × Option Value)} {v : Value} (hv : v = .record es)
    (hnames : es.map Prod.fst = names) (hnodup : names.Nodup) :
    ∃ fs, (g v).fields? names = some fs ∧
      ∀ k ∈ names, fs.lookup k = ((es.lookup k).join).map g := by
  subst hv hnames
  obtain ⟨ds, hds, hentries⟩ := hg.object (Value.present es)
  obtain ⟨hkeys, hlookup⟩ := hentries ((Value.keys_present_sublist es).nodup hnodup)
  obtain ⟨fs, hfs, hfound⟩ := fields?_object (es.map Prod.fst) hkeys
  refine ⟨fs, hds ▸ hfs, fun k hk => ?_⟩
  rw [hfound k hk, hlookup, Value.lookup_present k hnodup]

/-! ### What a field can hold -/

theorem string (hg : Transcribes g) (s : String) : g (.string s) = .atom (.string s) :=
  hg.ordered rfl

theorem string?_string (hg : Transcribes g) (s : String) : (g (.string s)).string? = some s := by
  rw [hg.string]
  rfl

theorem bool?_bool (hg : Transcribes g) (b : Bool) : (g (.bool b)).bool? = some b := by
  rw [hg.ordered rfl]
  rfl

theorem uuid?_text (hg : Transcribes g) (u : Uuid) : (g (.string u.text)).uuid? = some u := by
  rw [uuid?, hg.string?_string, Option.bind_some, Uuid.parse?_text]

/-- A map is read back as it stands. -/
theorem attributes?_object (hg : Transcribes g) {m : Attributes}
    (hm : (Value.object m).isOrdered = true) : (g (.object m)).attributes? = some m := by
  have hvalue := value?_ofValue (.object m) hm
  rw [ofValue, value?] at hvalue
  obtain ⟨es, hes, hsorted⟩ := Option.map_eq_some_iff.mp hvalue
  rw [hg.ordered hm, ofValue, attributes?, hes, Option.map_some, Value.object.inj hsorted]

/-- What is written is read where a value is optional as it is read by itself, unless it is
    null. -/
theorem optional?_written (hg : Transcribes g) {α : Type} (read : Doc → Option α) {v : Value}
    (hv : v ≠ .null) : (g v).optional? read = (read (g v)).map some := by
  cases v with
  | null => exact absurd rfl hv
  | bool b => rw [hg.ordered rfl]; rfl
  | number n => rw [hg.ordered rfl]; rfl
  | string s => rw [hg.ordered rfl]; rfl
  | array vs => rw [hg.array]; rfl
  | object es =>
    obtain ⟨ds, hds, -⟩ := hg.object es
    rw [hds]
    rfl

/-- A list is read back if each of its items is. -/
theorem list?_array (hg : Transcribes g) {α : Type} {read : Doc → Option α} {write : α → Value}
    {as : List α} (h : ∀ a ∈ as, read (g (write a)) = some a) :
    (g (.array (as.map write))).list? read = some as := by
  rw [hg.array, list?, items?, Option.bind_some, mapM_eq_some_iff, List.map_map, List.map_map]
  exact List.map_congr_left h

end Transcribes

namespace Fields

variable {α : Type} {fs : Fields} {k : String} {read : Doc → Option α}

theorem required_of_lookup {d : Doc} {a : α} (h : fs.lookup k = some d) (hd : read d = some a) :
    fs.required k read = some a := by
  rw [required, h, Option.bind_some, hd]

theorem defaulted_of_lookup {d : Doc} {a : α} (h : fs.lookup k = some d) (hd : read d = some a)
    (standard : α) : fs.defaulted k standard read = some a := by
  rw [defaulted, h]
  exact hd

end Fields

/-! ### Fields that may be missing -/

namespace Transcribes

variable {g : Value → Doc} {fs : Fields} {k : String}

/-- What is written is read where a value is optional, unless it is null. -/
theorem optional_of_lookup (hg : Transcribes g) {v : Value} (h : fs.lookup k = some (g v))
    (hv : v ≠ .null) {α : Type} (read : Doc → Option α) :
    fs.optional k read = (read (g v)).map some := by
  rw [Fields.optional, Fields.defaulted, h]
  exact hg.optional?_written read hv

/-- **What may be missing is read back**, if what is written for it is never null. -/
theorem optional_written (hg : Transcribes g) {α : Type} {read : Doc → Option α}
    {write : α → Value} {o : Option α} (h : fs.lookup k = (o.map write).map g)
    (hnull : ∀ a, write a ≠ .null) (hread : ∀ a, o = some a → read (g (write a)) = some a) :
    fs.optional k read = some o := by
  cases o with
  | none => exact Fields.optional_of_missing h read
  | some a => rw [hg.optional_of_lookup h (hnull a), hread a rfl, Option.map_some]

theorem optional_string (hg : Transcribes g) {o : Option String}
    (h : fs.lookup k = (o.map Value.string).map g) : fs.optional k string? = some o :=
  hg.optional_written h (fun _ => nofun) fun s _ => hg.string?_string s

theorem optional_uuid (hg : Transcribes g) {o : Option Uuid}
    (h : fs.lookup k = (o.map fun u => Value.string u.text).map g) :
    fs.optional k uuid? = some o :=
  hg.optional_written h (fun _ => nofun) fun u _ => hg.uuid?_text u

end Transcribes

end Doc

end Gatehouse
