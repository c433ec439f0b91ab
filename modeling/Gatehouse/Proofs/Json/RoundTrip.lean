import Gatehouse.Proofs.Json.Tokens

/-!
# Reading back the text of a value

What this file fixes, and what it shows about `Value.compact` and `Json.read?`:

* `Value.readsBack`: every number in a value reads back from its own text;
* `readValue_compactChars`: the text of such a value is read as its document, whatever follows;
* `Value.nesting`: how deep lists and objects are nested in a value. `within_ofValue`: a document
  is read as it is if that is not more than the limit; `value?_within`: it has no value otherwise;
* `read?_compact`: the document of a value's text.
-/

namespace Gatehouse

/-! ## 1. Values that read back -/

theorem Json.isBlank_of_numeral {c : Char} (h : c = '-' ∨ c.isDigit = true) :
    isBlank c = false := by
  cases hblank : isBlank c with
  | false => rfl
  | true =>
    simp only [isBlank, Bool.or_eq_true, beq_iff_eq] at hblank
    rcases hblank with ((rfl | rfl) | rfl) | rfl
    all_goals
      revert h
      decide

namespace Value

mutual

/-- Every number in the value reads back. -/
def readsBack : Value → Bool
  | .number n => n.readsBack
  | .array items => itemsReadBack items
  | .object entries => entriesReadBack entries
  | _ => true

/-- Every number in the items reads back. -/
def itemsReadBack : List Value → Bool
  | [] => true
  | v :: vs => readsBack v && itemsReadBack vs

/-- Every number in the values of the entries reads back. -/
def entriesReadBack : List (String × Value) → Bool
  | [] => true
  | (_, v) :: vs => readsBack v && entriesReadBack vs

end

theorem itemsReadBack_iff {vs : List Value} :
    itemsReadBack vs = true ↔ ∀ v ∈ vs, v.readsBack = true := by
  induction vs with
  | nil => simp [itemsReadBack]
  | cons v vs ih => rw [itemsReadBack, Bool.and_eq_true, ih, List.forall_mem_cons]

theorem entriesReadBack_iff {es : List (String × Value)} :
    entriesReadBack es = true ↔ ∀ e ∈ es, e.2.readsBack = true := by
  induction es with
  | nil => simp [entriesReadBack]
  | cons e es ih => rw [entriesReadBack, Bool.and_eq_true, ih, List.forall_mem_cons]

/-- The text of a value starts neither with a blank nor with the end of a list. -/
theorem head_compactChars {v : Value} (h : v.readsBack = true) : ∃ c tail,
    compactChars v = c :: tail ∧ Json.isBlank c = false ∧ c ≠ ']' := by
  cases v with
  | null => exact ⟨_, _, rfl, by decide, by decide⟩
  | bool b => cases b <;> exact ⟨_, _, rfl, by decide, by decide⟩
  | string s => exact ⟨_, _, rfl, by decide, by decide⟩
  | array items => exact ⟨_, _, by rw [compactChars], by decide, by decide⟩
  | object entries => exact ⟨_, _, by rw [compactChars], by decide, by decide⟩
  | number n =>
    rw [readsBack] at h
    obtain ⟨c, tail, htext, hc⟩ := Number.head_text h
    refine ⟨c, tail, by rw [compactChars, htext], Json.isBlank_of_numeral hc, ?_⟩
    rintro rfl
    revert hc
    decide

theorem compactItems_cons (v w : Value) (vs : List Value) :
    compactItems (v :: w :: vs) = compactChars v ++ ',' :: compactItems (w :: vs) := by
  rw [compactItems]
  exact nofun

theorem compactEntries_cons (k : String) (v : Value) (e : String × Value)
    (es : List (String × Value)) : compactEntries ((k, v) :: e :: es) =
      quoted k ++ ':' :: compactChars v ++ ',' :: compactEntries (e :: es) := by
  rw [compactEntries]
  exact nofun

/-- The text of entries starts with the quote of the first key. -/
theorem head_compactEntries (k : String) (v : Value) (es : List (String × Value)) :
    ∃ tail, compactEntries ((k, v) :: es) = '"' :: tail := by
  cases es with
  | nil => exact ⟨_, by rw [compactEntries, quoted]; rfl⟩
  | cons e es => exact ⟨_, by rw [compactEntries_cons, quoted]; rfl⟩

/-- Neither does the text of the items of a list that has any. -/
theorem head_compactItems {v : Value} {vs : List Value} (h : itemsReadBack (v :: vs) = true) :
    ∃ c tail, compactItems (v :: vs) = c :: tail ∧ Json.isBlank c = false ∧ c ≠ ']' := by
  rw [itemsReadBack, Bool.and_eq_true] at h
  obtain ⟨c, tail, hchars, hblank, hc⟩ := head_compactChars h.1
  cases vs with
  | nil => exact ⟨c, _, by rw [compactItems, hchars, List.cons_append], hblank, hc⟩
  | cons w vs =>
    exact ⟨c, _, by rw [compactItems_cons, hchars, List.cons_append], hblank, hc⟩

end Value

/-! ## 2. From the text to the document -/

namespace Json

theorem skipBlanks_cons {c : Char} (h : isBlank c = false) (cs : List Char) :
    skipBlanks (c :: cs) = c :: cs := by
  rw [skipBlanks, List.dropWhile_cons, h]
  rfl

theorem skipBlanks_append {bs : List Char} (h : ∀ c ∈ bs, isBlank c = true) (cs : List Char) :
    skipBlanks (bs ++ cs) = skipBlanks cs :=
  List.dropWhile_append_of_pos h

/-- A text that starts like a numeral is read as one. -/
theorem readValue_numeral {c : Char} (h : c = '-' ∨ c.isDigit = true) (fuel : Nat)
    (cs : List Char) : readValue (fuel + 1) (c :: cs) =
      (numeral? (c :: cs)).map fun p => (.atom (numberAtom p.1), p.2) := by
  rw [readValue, skipBlanks_cons (isBlank_of_numeral h)]
  split
  case h_7 => rfl
  all_goals
    rename_i heq
    cases heq
    exact absurd h (by decide)

/-- The object of entries whose keys have values. -/
theorem objectOf_some (es : List (String × Doc)) :
    objectOf (es.map fun e => (some e.1, e.2)) = .object es := by
  have hall : (es.map fun e => (some e.1, e.2)).mapM
      (fun e : Option String × Doc => e.1.map fun k => (k, e.2)) = some es := by
    induction es with
    | nil => rfl
    | cons e es ih =>
      rw [List.map_cons, List.mapM_cons, ih]
      rfl
  rw [objectOf, hall]

/-- A quoted key and the colon after it. -/
theorem key?_quoted (k : String) (rest : List Char) :
    key? (Value.quoted k ++ ':' :: rest) = some (some k, rest) := by
  have hquoted : Value.quoted k ++ ':' :: rest =
      '"' :: (k.toList.flatMap Value.escaped ++ '"' :: ':' :: rest) := by
    rw [Value.quoted, List.append_assoc]
    rfl
  rw [key?, hquoted, skipBlanks_cons (by decide)]
  simp only [string?_escaped, Option.bind_some, skipBlanks_cons (c := ':') (by decide)]

theorem stops_item {c : Char} (h : c = ',' ∨ c = ']' ∨ c = '\x7d') (cs : List Char) :
    Stops (c :: cs) := by
  rw [stops_cons]
  rcases h with rfl | rfl | rfl <;> decide

/-- The last item may have blanks behind it. -/
theorem readItems_last {fuel : Nat} {bs cs more : List Char} {d : Doc}
    (hbs : ∀ c ∈ bs, isBlank c = true) (h : readValue fuel cs = some (d, bs ++ ']' :: more)) :
    readItems (fuel + 1) cs = some ([d], more) := by
  rw [readItems, h]
  simp only [skipBlanks_append hbs, skipBlanks_cons (c := ']') (by decide)]

theorem readItems_more {fuel : Nat} {cs more left : List Char} {d : Doc} {ds : List Doc}
    (h : readValue fuel cs = some (d, ',' :: more))
    (hmore : readItems fuel more = some (ds, left)) :
    readItems (fuel + 1) cs = some (d :: ds, left) := by
  rw [readItems, h]
  simp only [skipBlanks_cons (c := ',') (by decide), hmore, Option.map_some]

/-- The last entry may have blanks behind it. -/
theorem readEntries_last {fuel : Nat} {k : String} {bs cs more : List Char} {d : Doc}
    (hbs : ∀ c ∈ bs, isBlank c = true)
    (h : readValue fuel cs = some (d, bs ++ '\x7d' :: more)) :
    readEntries (fuel + 1) (Value.quoted k ++ ':' :: cs) = some ([(some k, d)], more) := by
  rw [readEntries, key?_quoted]
  simp only [h, skipBlanks_append hbs, skipBlanks_cons (c := '\x7d') (by decide)]

theorem readEntries_more {fuel : Nat} {k : String} {cs more left : List Char} {d : Doc}
    {es : List (Option String × Doc)} (h : readValue fuel cs = some (d, ',' :: more))
    (hmore : readEntries fuel more = some (es, left)) :
    readEntries (fuel + 1) (Value.quoted k ++ ':' :: cs) = some ((some k, d) :: es, left) := by
  rw [readEntries, key?_quoted]
  simp only [h, skipBlanks_cons (c := ',') (by decide), hmore, Option.map_some]

theorem readValue_items {fuel : Nat} {c : Char} {cs left : List Char} {ds : List Doc}
    (hblank : isBlank c = false) (hc : c ≠ ']')
    (h : readItems fuel (c :: cs) = some (ds, left)) :
    readValue (fuel + 1) ('[' :: c :: cs) = some (.array ds, left) := by
  rw [readValue, skipBlanks_cons (by decide)]
  simp only [skipBlanks_cons hblank, h, Option.map_some]
  split
  · rename_i heq
    exact absurd (List.cons.inj heq).1 hc
  · rfl

theorem readValue_entries {fuel : Nat} {cs left : List Char} {es : List (String × Doc)}
    (h : readEntries fuel ('"' :: cs) = some (es.map fun e => (some e.1, e.2), left)) :
    readValue (fuel + 1) ('\x7b' :: '"' :: cs) = some (.object es, left) := by
  rw [readValue, skipBlanks_cons (by decide)]
  simp only [skipBlanks_cons (c := '"') (by decide), h, Option.map_some, objectOf_some]
  rfl

mutual

/-- **The text of a value is read as its document**, whatever follows that no numeral goes on with.
    There are never more steps than characters. -/
theorem readValue_compactChars : ∀ (v : Value) {fuel : Nat} {rest : List Char},
    v.readsBack = true → Stops rest → (Value.compactChars v).length < fuel →
    readValue fuel (Value.compactChars v ++ rest) = some (.ofValue v, rest)
  | _, 0, _, _, _, hfuel => absurd hfuel (Nat.not_lt_zero _)
  | .null, fuel + 1, rest, _, _, _ => by
      rw [Value.compactChars, readValue]
      rfl
  | .bool true, fuel + 1, rest, _, _, _ => by
      rw [Value.compactChars, readValue]
      rfl
  | .bool false, fuel + 1, rest, _, _, _ => by
      rw [Value.compactChars, readValue]
      rfl
  | .number n, fuel + 1, rest, hback, hstops, _ => by
      rw [Value.readsBack] at hback
      obtain ⟨m, hm, hread⟩ := Number.numeral?_text hback
      obtain ⟨c, tail, htext, hc⟩ := Number.head_text hback
      have hnumeral := hread rest hstops
      rw [Value.compactChars]
      rw [htext] at hnumeral ⊢
      rw [List.cons_append] at hnumeral ⊢
      rw [readValue_numeral hc, hnumeral, Option.map_some, numberAtom, hm]
      rfl
  | .string s, fuel + 1, rest, _, _, _ => by
      have hquoted : Value.quoted s ++ rest =
          '"' :: (s.toList.flatMap Value.escaped ++ '"' :: rest) := by
        rw [Value.quoted, List.append_assoc]
        rfl
      rw [Value.compactChars, hquoted, readValue, skipBlanks_cons (by decide)]
      simp only [string?_escaped, Option.map_some]
      rfl
  | .array [], fuel + 1, rest, _, _, _ => by
      rw [Value.compactChars, Value.compactItems, readValue]
      rfl
  | .array (v :: vs), fuel + 1, rest, hback, _, hfuel => by
      rw [Value.readsBack] at hback
      rw [Value.compactChars, List.length_cons] at hfuel
      have hitems : readItems fuel (Value.compactItems (v :: vs) ++ rest) =
          some (Doc.ofValues (v :: vs), rest) :=
        readItems_compactItems v vs hback (Nat.lt_of_succ_lt_succ hfuel)
      obtain ⟨c, tail, htext, hblank, hc⟩ := Value.head_compactItems hback
      rw [htext, List.cons_append] at hitems
      rw [Value.compactChars, htext, List.cons_append, List.cons_append,
        readValue_items hblank hc hitems, Doc.ofValue]
  | .object [], fuel + 1, rest, _, _, _ => by
      rw [Value.compactChars, Value.compactEntries, readValue]
      rfl
  | .object ((k, v) :: es), fuel + 1, rest, hback, _, hfuel => by
      rw [Value.readsBack] at hback
      rw [Value.compactChars, List.length_cons] at hfuel
      have hentries : readEntries fuel (Value.compactEntries ((k, v) :: es) ++ rest) =
          some ((Doc.ofEntries ((k, v) :: es)).map fun e => (some e.1, e.2), rest) :=
        readEntries_compactEntries k v es hback (Nat.lt_of_succ_lt_succ hfuel)
      obtain ⟨tail, htext⟩ := Value.head_compactEntries k v es
      rw [htext, List.cons_append] at hentries
      rw [Value.compactChars, htext, List.cons_append, List.cons_append,
        readValue_entries hentries, Doc.ofValue]

theorem readItems_compactItems : ∀ (v : Value) (vs : List Value) {fuel : Nat} {rest : List Char},
    Value.itemsReadBack (v :: vs) = true → (Value.compactItems (v :: vs)).length < fuel →
    readItems fuel (Value.compactItems (v :: vs) ++ rest) = some (Doc.ofValues (v :: vs), rest)
  | _, _, 0, _, _, hfuel => absurd hfuel (Nat.not_lt_zero _)
  | v, [], fuel + 1, rest, hback, hfuel => by
      rw [Value.itemsReadBack, Bool.and_eq_true] at hback
      rw [Value.compactItems, List.length_append] at hfuel
      rw [Value.compactItems, List.append_assoc]
      have hv : readValue fuel (Value.compactChars v ++ ']' :: rest) =
          some (.ofValue v, ']' :: rest) :=
        readValue_compactChars v hback.1 (stops_item (by decide) rest) (by simp at hfuel; omega)
      exact readItems_last (List.forall_mem_nil _) hv
  | v, w :: vs, fuel + 1, rest, hback, hfuel => by
      rw [Value.itemsReadBack, Bool.and_eq_true] at hback
      rw [Value.compactItems_cons, List.length_append, List.length_cons] at hfuel
      rw [Value.compactItems_cons, List.append_assoc, List.cons_append]
      have hv : readValue fuel
          (Value.compactChars v ++ ',' :: (Value.compactItems (w :: vs) ++ rest)) =
            some (.ofValue v, ',' :: (Value.compactItems (w :: vs) ++ rest)) :=
        readValue_compactChars v hback.1 (stops_item (by decide) _) (by omega)
      exact readItems_more hv (readItems_compactItems w vs hback.2 (by omega))

theorem readEntries_compactEntries : ∀ (k : String) (v : Value) (es : List (String × Value))
    {fuel : Nat} {rest : List Char}, Value.entriesReadBack ((k, v) :: es) = true →
    (Value.compactEntries ((k, v) :: es)).length < fuel →
    readEntries fuel (Value.compactEntries ((k, v) :: es) ++ rest) =
      some ((Doc.ofEntries ((k, v) :: es)).map fun e => (some e.1, e.2), rest)
  | _, _, _, 0, _, _, hfuel => absurd hfuel (Nat.not_lt_zero _)
  | k, v, [], fuel + 1, rest, hback, hfuel => by
      rw [Value.entriesReadBack, Bool.and_eq_true] at hback
      rw [Value.compactEntries] at hfuel ⊢
      simp only [List.length_append, List.length_cons] at hfuel
      have hv : readValue fuel (Value.compactChars v ++ '\x7d' :: rest) =
          some (.ofValue v, '\x7d' :: rest) :=
        readValue_compactChars v hback.1 (stops_item (by decide) rest) (by omega)
      rw [List.append_assoc, List.cons_append, List.append_assoc]
      exact readEntries_last (List.forall_mem_nil _) hv
  | k, v, (l, w) :: es, fuel + 1, rest, hback, hfuel => by
      rw [Value.entriesReadBack, Bool.and_eq_true] at hback
      rw [Value.compactEntries_cons] at hfuel ⊢
      simp only [List.length_append, List.length_cons] at hfuel
      have hv : readValue fuel
          (Value.compactChars v ++ ',' :: (Value.compactEntries ((l, w) :: es) ++ rest)) =
            some (.ofValue v, ',' :: (Value.compactEntries ((l, w) :: es) ++ rest)) :=
        readValue_compactChars v hback.1 (stops_item (by decide) _) (by omega)
      rw [List.append_assoc, List.cons_append, List.append_assoc, List.cons_append]
      exact readEntries_more hv (readEntries_compactEntries l w es hback.2 (by omega))

end

end Json

/-! ## 3. The limit of nesting -/

namespace Value

mutual

/-- How deep lists and objects are nested in the value. -/
def nesting : Value → Nat
  | .array items => nestingOfItems items + 1
  | .object entries => nestingOfEntries entries + 1
  | _ => 0

/-- How deep lists and objects are nested in the deepest item. -/
def nestingOfItems : List Value → Nat
  | [] => 0
  | v :: vs => max (nesting v) (nestingOfItems vs)

/-- How deep lists and objects are nested in the deepest entry. -/
def nestingOfEntries : List (String × Value) → Nat
  | [] => 0
  | (_, v) :: vs => max (nesting v) (nestingOfEntries vs)

end

theorem nestingOfItems_le_iff {n : Nat} {vs : List Value} :
    nestingOfItems vs ≤ n ↔ ∀ v ∈ vs, v.nesting ≤ n := by
  induction vs with
  | nil => simp [nestingOfItems]
  | cons v vs ih => rw [nestingOfItems, Nat.max_le, ih, List.forall_mem_cons]

theorem nestingOfEntries_le_iff {n : Nat} {es : List (String × Value)} :
    nestingOfEntries es ≤ n ↔ ∀ e ∈ es, e.2.nesting ≤ n := by
  induction es with
  | nil => simp [nestingOfEntries]
  | cons e es ih => rw [nestingOfEntries, Nat.max_le, ih, List.forall_mem_cons]

end Value

namespace Json

mutual

/-- **A document is read as it is if it is nested no deeper than the limit.** -/
theorem within_ofValue : ∀ (v : Value) {levels : Nat}, v.nesting ≤ levels →
    within levels (.ofValue v) = .ofValue v
  | .null, _, _ | .bool _, _, _ | .number _, _, _ | .string _, _, _ => by
      rw [Doc.ofValue, within]
  | .array items, 0, h => by
      rw [Value.nesting] at h
      exact absurd h (Nat.not_succ_le_zero _)
  | .array items, levels + 1, h => by
      rw [Value.nesting] at h
      rw [Doc.ofValue, within, itemsWithin_ofValues items (Nat.le_of_succ_le_succ h)]
  | .object entries, 0, h => by
      rw [Value.nesting] at h
      exact absurd h (Nat.not_succ_le_zero _)
  | .object entries, levels + 1, h => by
      rw [Value.nesting] at h
      rw [Doc.ofValue, within, entriesWithin_ofEntries entries (Nat.le_of_succ_le_succ h)]

theorem itemsWithin_ofValues : ∀ (vs : List Value) {levels : Nat},
    Value.nestingOfItems vs ≤ levels → itemsWithin levels (Doc.ofValues vs) = Doc.ofValues vs
  | [], _, _ => by rw [Doc.ofValues, itemsWithin]
  | v :: vs, levels, h => by
      rw [Value.nestingOfItems, Nat.max_le] at h
      rw [Doc.ofValues, itemsWithin, within_ofValue v h.1, itemsWithin_ofValues vs h.2]

theorem entriesWithin_ofEntries : ∀ (es : List (String × Value)) {levels : Nat},
    Value.nestingOfEntries es ≤ levels →
    entriesWithin levels (Doc.ofEntries es) = Doc.ofEntries es
  | [], _, _ => by rw [Doc.ofEntries, entriesWithin]
  | (k, v) :: es, levels, h => by
      rw [Value.nestingOfEntries, Nat.max_le] at h
      rw [Doc.ofEntries, entriesWithin, within_ofValue v h.1, entriesWithin_ofEntries es h.2]

end

mutual

/-- **A document that is nested deeper has no value.** -/
theorem value?_within : ∀ (v : Value) {levels : Nat}, levels < v.nesting →
    (within levels (.ofValue v)).value? = none
  | .null, _, h | .bool _, _, h | .number _, _, h | .string _, _, h => absurd h (Nat.not_lt_zero _)
  | .array items, 0, _ => by
      rw [Doc.ofValue, within]
      rfl
  | .array items, levels + 1, h => by
      rw [Value.nesting] at h
      rw [Doc.ofValue, within, Doc.value?, values?_itemsWithin items (Nat.lt_of_succ_lt_succ h)]
      rfl
  | .object entries, 0, _ => by
      rw [Doc.ofValue, within]
      rfl
  | .object entries, levels + 1, h => by
      rw [Value.nesting] at h
      rw [Doc.ofValue, within, Doc.value?,
        entryValues?_entriesWithin entries (Nat.lt_of_succ_lt_succ h)]
      rfl

theorem values?_itemsWithin : ∀ (vs : List Value) {levels : Nat},
    levels < Value.nestingOfItems vs → Doc.values? (itemsWithin levels (Doc.ofValues vs)) = none
  | [], _, h => absurd h (Nat.not_lt_zero _)
  | v :: vs, levels, h => by
      rw [Value.nestingOfItems] at h
      have hdeep : levels < v.nesting ∨ levels < Value.nestingOfItems vs := by omega
      rw [Doc.ofValues, itemsWithin, Doc.values?]
      cases hdeep with
      | inl hfirst => rw [value?_within v hfirst]
      | inr hrest =>
        rw [values?_itemsWithin vs hrest]
        cases (within levels (.ofValue v)).value? <;> rfl

theorem entryValues?_entriesWithin : ∀ (es : List (String × Value)) {levels : Nat},
    levels < Value.nestingOfEntries es →
    Doc.entryValues? (entriesWithin levels (Doc.ofEntries es)) = none
  | [], _, h => absurd h (Nat.not_lt_zero _)
  | (k, v) :: es, levels, h => by
      rw [Value.nestingOfEntries] at h
      have hdeep : levels < v.nesting ∨ levels < Value.nestingOfEntries es := by omega
      rw [Doc.ofEntries, entriesWithin, Doc.entryValues?]
      cases hdeep with
      | inl hfirst => rw [value?_within v hfirst]
      | inr hrest =>
        rw [entryValues?_entriesWithin es hrest]
        cases (within levels (.ofValue v)).value? <;> rfl

end

/-- The entries of a document that is held to a limit, each held to it. -/
theorem entriesWithin_eq_map (levels : Nat) : ∀ es : List (String × Doc),
    entriesWithin levels es = es.map fun e => (e.1, within levels e.2)
  | [] => rfl
  | (k, d) :: es => by rw [entriesWithin, entriesWithin_eq_map levels es, List.map_cons]

/-! ## 4. Whole texts -/

/-- **The document of a value's text** is that of the value, held to the limit of nesting. -/
theorem read?_compact {v : Value} (h : v.readsBack = true) :
    read? v.compact = some (within maxLevels (.ofValue v)) := by
  have hread := readValue_compactChars v h stops_nil (Nat.lt_succ_self _)
  rw [List.append_nil] at hread
  rw [Value.compact, read?_ofList, hread]
  rfl

end Json

end Gatehouse
