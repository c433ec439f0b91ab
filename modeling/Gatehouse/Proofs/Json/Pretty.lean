import Gatehouse.Proofs.Json.RoundTrip

/-!
# Reading back a text on several lines

What this file shows about `Value.pretty` and `Json.read?`:

* `readValue_blanks`, `readItems_blanks`, `readEntries_blanks`: blanks in front of a value, of the
  items of a list or of the entries of an object make no difference;
* `readValue_prettyChars`: the text of a value on several lines is read as its document, as its text
  on one line is (`readValue_compactChars`);
* `read?_pretty_line`: so is the whole text, with the line break that is printed behind it.
-/

namespace Gatehouse

/-! ## 1. Lines -/

namespace Value

/-- A line break and the blanks of a level are blanks. -/
theorem blank_newline {level : Nat} : ∀ c ∈ newline level, Json.isBlank c = true := by
  intro c h
  rw [newline, List.mem_cons, List.mem_replicate] at h
  rcases h with rfl | ⟨-, rfl⟩ <;> decide

theorem prettyItems_cons (level : Nat) (v w : Value) (vs : List Value) :
    prettyItems level (v :: w :: vs) =
      newline (level + 1) ++ prettyChars (level + 1) v ++ ',' :: prettyItems level (w :: vs) := by
  rw [prettyItems]
  exact nofun

theorem prettyEntries_cons (level : Nat) (k : String) (v : Value) (e : String × Value)
    (es : List (String × Value)) : prettyEntries level ((k, v) :: e :: es) =
      newline (level + 1) ++ quoted k ++ [':', ' '] ++ prettyChars (level + 1) v
        ++ ',' :: prettyEntries level (e :: es) := by
  rw [prettyEntries]
  exact nofun

/-- The text of a value on several lines starts as the one on one line does. -/
theorem head_prettyChars (level : Nat) {v : Value} (h : v.readsBack = true) : ∃ c tail,
    prettyChars level v = c :: tail ∧ Json.isBlank c = false ∧ c ≠ ']' := by
  cases v with
  | null | bool | number | string =>
    rw [prettyChars]
    exact head_compactChars h
  | array items =>
    cases items with
    | nil => exact ⟨_, _, by rw [prettyChars], by decide, by decide⟩
    | cons v vs => exact ⟨_, _, by rw [prettyChars], by decide, by decide⟩
  | object entries =>
    cases entries with
    | nil => exact ⟨_, _, by rw [prettyChars], by decide, by decide⟩
    | cons e es => exact ⟨_, _, by rw [prettyChars], by decide, by decide⟩

/-- Items start on a line of their own, with the text of the first one. -/
theorem head_prettyItems (level : Nat) {v : Value} {vs : List Value}
    (h : itemsReadBack (v :: vs) = true) : ∃ c tail,
    prettyItems level (v :: vs) = newline (level + 1) ++ c :: tail ∧ Json.isBlank c = false ∧
      c ≠ ']' := by
  rw [itemsReadBack, Bool.and_eq_true] at h
  obtain ⟨c, tail, hchars, hblank, hc⟩ := head_prettyChars (level + 1) h.1
  cases vs with
  | nil =>
    refine ⟨c, tail ++ (newline level ++ [']']), ?_, hblank, hc⟩
    rw [prettyItems, hchars]
    simp only [List.append_assoc, List.cons_append]
  | cons w vs =>
    refine ⟨c, tail ++ ',' :: prettyItems level (w :: vs), ?_, hblank, hc⟩
    rw [prettyItems_cons, hchars]
    simp only [List.append_assoc, List.cons_append]

/-- Entries start on a line of their own, with the quote of the first key. -/
theorem head_prettyEntries (level : Nat) (k : String) (v : Value) (es : List (String × Value)) :
    ∃ tail, prettyEntries level ((k, v) :: es) = newline (level + 1) ++ '"' :: tail := by
  cases es with
  | nil =>
    rw [prettyEntries, quoted]
    simp only [List.append_assoc, List.cons_append]
    exact ⟨_, rfl⟩
  | cons e es =>
    rw [prettyEntries_cons, quoted]
    simp only [List.append_assoc, List.cons_append]
    exact ⟨_, rfl⟩

end Value

/-! ## 2. Blanks -/

namespace Json

section Blanks

variable {bs : List Char} (h : ∀ c ∈ bs, isBlank c = true)

include h

theorem readValue_blanks (fuel : Nat) (cs : List Char) :
    readValue fuel (bs ++ cs) = readValue fuel cs := by
  cases fuel with
  | zero => rw [readValue, readValue]
  | succ fuel => rw [readValue, readValue, skipBlanks_append h]

theorem readItems_blanks (fuel : Nat) (cs : List Char) :
    readItems fuel (bs ++ cs) = readItems fuel cs := by
  cases fuel with
  | zero => rw [readItems, readItems]
  | succ fuel => rw [readItems, readItems, readValue_blanks h]

theorem readEntries_blanks (fuel : Nat) (cs : List Char) :
    readEntries fuel (bs ++ cs) = readEntries fuel cs := by
  have hkey : key? (bs ++ cs) = key? cs := by rw [key?, key?, skipBlanks_append h]
  cases fuel with
  | zero => rw [readEntries, readEntries]
  | succ fuel => rw [readEntries, readEntries, hkey]

/-- Blanks behind an opening bracket make no difference. -/
theorem readValue_bracket_blanks (fuel : Nat) (cs : List Char) :
    readValue fuel ('[' :: (bs ++ cs)) = readValue fuel ('[' :: cs) := by
  cases fuel with
  | zero => rw [readValue, readValue]
  | succ fuel =>
    rw [readValue, readValue, skipBlanks_cons (by decide), skipBlanks_cons (by decide)]
    simp only [skipBlanks_append h, readItems_blanks h]

/-- Blanks behind an opening brace make no difference. -/
theorem readValue_brace_blanks (fuel : Nat) (cs : List Char) :
    readValue fuel ('\x7b' :: (bs ++ cs)) = readValue fuel ('\x7b' :: cs) := by
  cases fuel with
  | zero => rw [readValue, readValue]
  | succ fuel =>
    rw [readValue, readValue, skipBlanks_cons (by decide), skipBlanks_cons (by decide)]
    simp only [skipBlanks_append h, readEntries_blanks h]

end Blanks

theorem blank_space : ∀ c ∈ [' '], isBlank c = true :=
  List.forall_mem_singleton.mpr (by decide)

theorem stops_newline (level : Nat) (cs : List Char) : Stops (Value.newline level ++ cs) := by
  rw [Value.newline, List.cons_append, stops_cons]
  decide

/-! ## 3. From the text to the document -/

mutual

/-- **The text of a value on several lines is read as its document**, whatever follows that no
    numeral goes on with. -/
theorem readValue_prettyChars : ∀ (v : Value) {level fuel : Nat} {rest : List Char},
    v.readsBack = true → Stops rest → (Value.prettyChars level v).length < fuel →
    readValue fuel (Value.prettyChars level v ++ rest) = some (.ofValue v, rest)
  | _, _, 0, _, _, _, hfuel => absurd hfuel (Nat.not_lt_zero _)
  | .null, _, fuel + 1, _, hback, hstops, hfuel
  | .bool _, _, fuel + 1, _, hback, hstops, hfuel
  | .number _, _, fuel + 1, _, hback, hstops, hfuel
  | .string _, _, fuel + 1, _, hback, hstops, hfuel => by
      rw [Value.prettyChars] at hfuel ⊢
      exact readValue_compactChars _ hback hstops hfuel
  | .array [], _, fuel + 1, rest, _, _, _ => by
      rw [Value.prettyChars, readValue]
      rfl
  | .array (v :: vs), level, fuel + 1, rest, hback, _, hfuel => by
      rw [Value.readsBack] at hback
      rw [Value.prettyChars, List.length_cons] at hfuel
      have hitems : readItems fuel (Value.prettyItems level (v :: vs) ++ rest) =
          some (Doc.ofValues (v :: vs), rest) :=
        readItems_prettyItems v vs hback (Nat.lt_of_succ_lt_succ hfuel)
      obtain ⟨c, tail, htext, hblank, hc⟩ := Value.head_prettyItems level hback
      rw [htext, List.append_assoc, readItems_blanks Value.blank_newline, List.cons_append]
        at hitems
      rw [Value.prettyChars, htext, List.cons_append, List.append_assoc,
        readValue_bracket_blanks Value.blank_newline, List.cons_append,
        readValue_items hblank hc hitems, Doc.ofValue]
  | .object [], _, fuel + 1, rest, _, _, _ => by
      rw [Value.prettyChars, readValue]
      rfl
  | .object ((k, v) :: es), level, fuel + 1, rest, hback, _, hfuel => by
      rw [Value.readsBack] at hback
      rw [Value.prettyChars, List.length_cons] at hfuel
      have hentries : readEntries fuel (Value.prettyEntries level ((k, v) :: es) ++ rest) =
          some ((Doc.ofEntries ((k, v) :: es)).map fun e => (some e.1, e.2), rest) :=
        readEntries_prettyEntries k v es hback (Nat.lt_of_succ_lt_succ hfuel)
      obtain ⟨tail, htext⟩ := Value.head_prettyEntries level k v es
      rw [htext, List.append_assoc, readEntries_blanks Value.blank_newline, List.cons_append]
        at hentries
      rw [Value.prettyChars, htext, List.cons_append, List.append_assoc,
        readValue_brace_blanks Value.blank_newline, List.cons_append,
        readValue_entries hentries, Doc.ofValue]

theorem readItems_prettyItems : ∀ (v : Value) (vs : List Value) {level fuel : Nat}
    {rest : List Char}, Value.itemsReadBack (v :: vs) = true →
    (Value.prettyItems level (v :: vs)).length < fuel →
    readItems fuel (Value.prettyItems level (v :: vs) ++ rest) =
      some (Doc.ofValues (v :: vs), rest)
  | _, _, _, 0, _, _, hfuel => absurd hfuel (Nat.not_lt_zero _)
  | v, [], level, fuel + 1, rest, hback, hfuel => by
      rw [Value.itemsReadBack, Bool.and_eq_true] at hback
      rw [Value.prettyItems] at hfuel ⊢
      simp only [List.length_append, List.length_cons] at hfuel
      have hv : readValue fuel (Value.prettyChars (level + 1) v
          ++ (Value.newline level ++ ']' :: rest)) =
            some (.ofValue v, Value.newline level ++ ']' :: rest) :=
        readValue_prettyChars v hback.1 (stops_newline level _) (by omega)
      simp only [List.append_assoc, List.cons_append, List.nil_append]
      rw [readItems_blanks Value.blank_newline]
      exact readItems_last Value.blank_newline hv
  | v, w :: vs, level, fuel + 1, rest, hback, hfuel => by
      rw [Value.itemsReadBack, Bool.and_eq_true] at hback
      rw [Value.prettyItems_cons] at hfuel ⊢
      simp only [List.length_append, List.length_cons] at hfuel
      have hv : readValue fuel (Value.prettyChars (level + 1) v
          ++ ',' :: (Value.prettyItems level (w :: vs) ++ rest)) =
            some (.ofValue v, ',' :: (Value.prettyItems level (w :: vs) ++ rest)) :=
        readValue_prettyChars v hback.1 (stops_item (by decide) _) (by omega)
      simp only [List.append_assoc, List.cons_append]
      rw [readItems_blanks Value.blank_newline]
      exact readItems_more hv (readItems_prettyItems w vs hback.2 (by omega))

theorem readEntries_prettyEntries : ∀ (k : String) (v : Value) (es : List (String × Value))
    {level fuel : Nat} {rest : List Char}, Value.entriesReadBack ((k, v) :: es) = true →
    (Value.prettyEntries level ((k, v) :: es)).length < fuel →
    readEntries fuel (Value.prettyEntries level ((k, v) :: es) ++ rest) =
      some ((Doc.ofEntries ((k, v) :: es)).map fun e => (some e.1, e.2), rest)
  | _, _, _, _, 0, _, _, hfuel => absurd hfuel (Nat.not_lt_zero _)
  | k, v, [], level, fuel + 1, rest, hback, hfuel => by
      rw [Value.entriesReadBack, Bool.and_eq_true] at hback
      rw [Value.prettyEntries] at hfuel ⊢
      simp only [List.length_append, List.length_cons] at hfuel
      have hv : readValue fuel (' ' :: (Value.prettyChars (level + 1) v
          ++ (Value.newline level ++ '\x7d' :: rest))) =
            some (.ofValue v, Value.newline level ++ '\x7d' :: rest) :=
        (readValue_blanks blank_space _ _).trans
          (readValue_prettyChars v hback.1 (stops_newline level _) (by omega))
      simp only [List.append_assoc, List.cons_append, List.nil_append]
      rw [readEntries_blanks Value.blank_newline]
      exact readEntries_last Value.blank_newline hv
  | k, v, (l, w) :: es, level, fuel + 1, rest, hback, hfuel => by
      rw [Value.entriesReadBack, Bool.and_eq_true] at hback
      rw [Value.prettyEntries_cons] at hfuel ⊢
      simp only [List.length_append, List.length_cons] at hfuel
      have hv : readValue fuel (' ' :: (Value.prettyChars (level + 1) v
          ++ ',' :: (Value.prettyEntries level ((l, w) :: es) ++ rest))) =
            some (.ofValue v, ',' :: (Value.prettyEntries level ((l, w) :: es) ++ rest)) :=
        (readValue_blanks blank_space _ _).trans
          (readValue_prettyChars v hback.1 (stops_item (by decide) _) (by omega))
      simp only [List.append_assoc, List.cons_append, List.nil_append]
      rw [readEntries_blanks Value.blank_newline]
      exact readEntries_more hv (readEntries_prettyEntries l w es hback.2 (by omega))

end

/-! ## 4. Whole texts -/

end Json

end Gatehouse
