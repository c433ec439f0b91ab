import Gatehouse.Audit.Sink
import Gatehouse.Proofs.Json.RoundTrip
import Gatehouse.Proofs.Record
import Gatehouse.Proofs.Value.Text

/-!
# The line of an entry

What this file shows about `Entry.toValue` and `Entry.line`:

* `count_lineBreak`: the bytes of an entry are one line, whatever its texts hold;
* `Entry.read?_toValue`: an entry is read back from its record, if its time is read back from its
  text. So is each part of it;
* `Entry.read?_compact_iff`: the text of an entry is read as its record if the details are nested
  less deep than the text of an entry may be.
-/

namespace Gatehouse.Audit

/-! ## 1. One line -/

/-- The byte of the line break. -/
def lineBreak : UInt8 := 10

/-- A character has the byte of the line break only if it is the line break. -/
theorem lineBreak_mem_utf8EncodeChar {c : Char} (h : lineBreak ∈ String.utf8EncodeChar c) :
    c = '\n' := by
  have hval : c.val.toNat = 10 := by
    simp only [String.utf8EncodeChar, lineBreak] at h
    split_ifs at h
    all_goals
      simp only [List.mem_cons, List.not_mem_nil, or_false, ← UInt8.toNat_inj,
        UInt8.toNat_ofNat, UInt8.toNat_ofNat', Nat.reducePow, Nat.reduceMod] at h
      omega
  exact Char.ext (UInt32.toNat_inj.mp hval)

theorem lineBreak_not_mem_bytes {cs : List Char} (h : '\n' ∉ cs) :
    lineBreak ∉ Text.bytes cs := by
  intro hmem
  obtain ⟨c, hc, hbyte⟩ := List.mem_flatMap.mp hmem
  exact h (lineBreak_mem_utf8EncodeChar hbyte ▸ hc)

theorem Entry.toList_line (e : Entry) :
    e.line.toList = Value.compactChars e.toValue ++ ['\n'] := by
  rw [line, String.toList_append, Value.compact, String.toList_ofList]
  rfl

/-- **The bytes of an entry are one line**: they end with a line break, and have no other. -/
theorem Entry.count_lineBreak (e : Entry) :
    e.bytes.getLast? = some lineBreak ∧ e.bytes.count lineBreak = 1 := by
  have hbytes : e.bytes = Text.bytes (Value.compactChars e.toValue) ++ [lineBreak] := by
    rw [bytes, toList_line, Text.bytes, List.flatMap_append]
    rfl
  have hnone : lineBreak ∉ Text.bytes (Value.compactChars e.toValue) :=
    lineBreak_not_mem_bytes (Value.printable_compactChars _).not_mem_newline
  rw [hbytes]
  refine ⟨List.getLast?_concat, ?_⟩
  rw [List.count_append, List.count_eq_zero_of_not_mem hnone, List.count_singleton_self]

/-- The bytes of entries have as many line breaks as there are entries. -/
theorem Entry.count_lineBreak_flatMap (es : List Entry) :
    (es.flatMap Entry.bytes).count lineBreak = es.length := by
  induction es with
  | nil => rfl
  | cons e es ih =>
    have hone : e.bytes.count lineBreak = 1 := e.count_lineBreak.2
    rw [List.flatMap_cons, List.count_append, hone, ih, List.length_cons, Nat.add_comm]

/-! ## 2. What is read back -/

variable {g : Value → Doc}

theorem EventType.read?_name (hg : Doc.Transcribes g) (t : EventType) :
    EventType.read? (g (.string t.name)) = some t := by
  rw [hg.string]
  cases t <;> rfl

/-- A source is read back from its record. -/
theorem Source.read?_toValue (hg : Doc.Transcribes g) (s : Source) :
    Source.read? (g s.toValue) = some s := by
  obtain ⟨fs, hfs, hlookup⟩ :=
    hg.fields?_record (rfl : s.toValue = _) (rfl : _ = fieldNames) (by decide)
  have hcomponent : fs.required "component" Doc.string? = some s.component :=
    Doc.Fields.required_of_lookup (hlookup _ (by decide)) (hg.string?_string s.component)
  have hsubject : fs.optional "subject_id" Doc.string? = some s.subjectId :=
    hg.optional_string (hlookup _ (by decide))
  have hmethod : fs.optional "method" Doc.string? = some s.method :=
    hg.optional_string (hlookup _ (by decide))
  have hpath : fs.optional "path" Doc.string? = some s.path :=
    hg.optional_string (hlookup _ (by decide))
  rw [read?, hfs]
  simp only [Option.bind_some, Option.bind_eq_bind, hcomponent, hsubject, hmethod, hpath]

/-- The error of a rule is read back from its record. -/
theorem EvaluationError.read?_toValue (hg : Doc.Transcribes g) (e : EvaluationError) :
    EvaluationError.read? (g e.toValue) = some e := by
  obtain ⟨fs, hfs, hlookup⟩ :=
    hg.fields?_record (rfl : e.toValue = _) (rfl : _ = fieldNames) (by decide)
  have hid : fs.required "policy_id" Doc.uuid? = some e.ruleId :=
    Doc.Fields.required_of_lookup (hlookup _ (by decide)) (hg.uuid?_text e.ruleId)
  have hname : fs.required "policy_name" Doc.string? = some e.ruleName :=
    Doc.Fields.required_of_lookup (hlookup _ (by decide)) (hg.string?_string e.ruleName)
  have herror : fs.required "error" Doc.string? = some e.error :=
    Doc.Fields.required_of_lookup (hlookup _ (by decide)) (hg.string?_string e.error)
  rw [read?, hfs]
  simp only [Option.bind_some, Option.bind_eq_bind, hid, hname, herror]

/-- **A decision is read back from its record**: without errors it has no list of them, and no list
    is read as an empty one. -/
theorem DecisionRecord.read?_toValue (hg : Doc.Transcribes g) (d : DecisionRecord) :
    DecisionRecord.read? (g d.toValue) = some d := by
  obtain ⟨fs, hfs, hlookup⟩ :=
    hg.fields?_record (rfl : d.toValue = _) (rfl : _ = fieldNames) (by decide)
  have hallowed : fs.required "allowed" Doc.bool? = some d.allowed :=
    Doc.Fields.required_of_lookup (hlookup _ (by decide)) (hg.bool?_bool d.allowed)
  have hreason : fs.required "reason" Doc.string? = some d.reason :=
    Doc.Fields.required_of_lookup (hlookup _ (by decide)) (hg.string?_string d.reason)
  have hid : fs.optional "policy_id" Doc.uuid? = some d.ruleId :=
    hg.optional_uuid (hlookup _ (by decide))
  have hname : fs.optional "policy_name" Doc.string? = some d.ruleName :=
    hg.optional_string (hlookup _ (by decide))
  have herrors : fs.defaulted "evaluation_errors" [] (Doc.list? EvaluationError.read?) =
      some d.errors := by
    have hfound := hlookup "evaluation_errors" (by decide)
    cases herr : d.errors with
    | nil =>
      rw [herr] at hfound
      rw [Doc.Fields.defaulted, hfound]
      rfl
    | cons e es =>
      rw [herr] at hfound
      exact Doc.Fields.defaulted_of_lookup hfound
        (hg.list?_array fun e _ => EvaluationError.read?_toValue hg e) _
  rw [read?, hfs]
  simp only [Option.bind_some, Option.bind_eq_bind, hallowed, hreason, hid, hname, herrors]

/-- **An entry is read back from its record**, if its details have their entries in order and its
    time is read back. -/
theorem Entry.read?_toValue (hg : Doc.Transcribes g) {e : Entry}
    (hdetails : e.event.details.isOrdered = true)
    (htime : Timestamp.read? e.timestamp.text = some e.timestamp) :
    Entry.read? (g e.toValue) = some e := by
  obtain ⟨fs, hfs, hlookup⟩ :=
    hg.fields?_record (rfl : e.toValue = _) (rfl : _ = fieldNames) (by decide)
  have hid : fs.required "id" Doc.uuid? = some e.id :=
    Doc.Fields.required_of_lookup (hlookup _ (by decide)) (hg.uuid?_text e.id)
  have htimestamp : fs.required "timestamp" (fun t => t.string?.bind Timestamp.read?) =
      some e.timestamp :=
    Doc.Fields.required_of_lookup (hlookup _ (by decide))
      (by rw [hg.string?_string, Option.bind_some, htime])
  have htype : fs.required "event_type" EventType.read? = some e.event.type :=
    Doc.Fields.required_of_lookup (hlookup _ (by decide)) (EventType.read?_name hg e.event.type)
  have hsource : fs.required "source" Source.read? = some e.event.source :=
    Doc.Fields.required_of_lookup (hlookup _ (by decide)) (Source.read?_toValue hg e.event.source)
  have hvalue : fs.required "details" Doc.value? = some e.event.details :=
    Doc.Fields.required_of_lookup (hlookup _ (by decide))
      (by rw [hg.ordered hdetails, Doc.value?_ofValue _ hdetails])
  have hdecision : fs.optional "decision" DecisionRecord.read? = some e.event.decision :=
    hg.optional_written (hlookup _ (by decide)) (fun _ => nofun) fun d _ =>
      DecisionRecord.read?_toValue hg d
  rw [read?, hfs]
  simp only [Option.bind_some, Option.bind_eq_bind, hid, htimestamp, htype, hsource, hvalue,
    hdecision]

/-! ## 3. Texts that are read back -/

/-- Every number in the value reads back, and lists and objects are nested at most so deep. -/
structure Shallow (n : Nat) (v : Value) : Prop where
  nesting_le : v.nesting ≤ n
  readsBack : v.readsBack = true

namespace Shallow

theorem mono {n m : Nat} {v : Value} (h : Shallow n v) (hle : n ≤ m) : Shallow m v :=
  ⟨Nat.le_trans h.nesting_le hle, h.readsBack⟩

@[simp] theorem string (n : Nat) (s : String) : Shallow n (.string s) := ⟨Nat.zero_le n, rfl⟩

@[simp] theorem bool (n : Nat) (b : Bool) : Shallow n (.bool b) := ⟨Nat.zero_le n, rfl⟩

/-- A list is nested one level deeper than its items. -/
theorem array {n : Nat} {vs : List Value} (h : ∀ v ∈ vs, Shallow n v) :
    Shallow (n + 1) (.array vs) where
  nesting_le := Nat.succ_le_succ (Value.nestingOfItems_le_iff.mpr fun v hv => (h v hv).nesting_le)
  readsBack := Value.itemsReadBack_iff.mpr fun v hv => (h v hv).readsBack

/-- A record is nested one level deeper than its fields. -/
theorem record {n : Nat} {es : List (String × Option Value)}
    (h : ∀ e ∈ es, ∀ v, e.2 = some v → Shallow n v) : Shallow (n + 1) (.record es) := by
  have hpresent : ∀ e ∈ Value.present es, Shallow n e.2 := by
    intro e he
    obtain ⟨x, hx, hxe⟩ := List.mem_filterMap.mp he
    obtain ⟨v, hv, rfl⟩ := Option.map_eq_some_iff.mp hxe
    exact h x hx v hv
  exact ⟨Nat.succ_le_succ
      (Value.nestingOfEntries_le_iff.mpr fun e he => (hpresent e he).nesting_le),
    Value.entriesReadBack_iff.mpr fun e he => (hpresent e he).readsBack⟩

end Shallow

theorem Source.shallow_toValue (s : Source) : Shallow 1 s.toValue := by
  refine Shallow.record ?_
  simp

theorem EvaluationError.shallow_toValue (e : EvaluationError) : Shallow 1 e.toValue := by
  refine Shallow.record ?_
  simp

/-- The errors of a decision are nested two levels below it. -/
theorem DecisionRecord.shallow_toValue (d : DecisionRecord) : Shallow 3 d.toValue := by
  have herrors : Shallow 2 (.array (d.errors.map EvaluationError.toValue)) := by
    refine Shallow.array fun v hv => ?_
    obtain ⟨e, -, rfl⟩ := List.mem_map.mp hv
    exact e.shallow_toValue
  refine Shallow.record ?_
  simp [herrors]

namespace Entry

/-- All but the details of an entry is nested three levels deep at most. -/
theorem shallow_toValue {e : Entry} (h : e.event.details.readsBack = true) :
    Shallow (max e.event.details.nesting 3 + 1) e.toValue := by
  have hdetails : Shallow (max e.event.details.nesting 3) e.event.details :=
    ⟨Nat.le_max_left _ _, h⟩
  have hsource : Shallow (max e.event.details.nesting 3) e.event.source.toValue :=
    e.event.source.shallow_toValue.mono (by omega)
  have hdecision (d : DecisionRecord) : Shallow (max e.event.details.nesting 3) d.toValue :=
    d.shallow_toValue.mono (by omega)
  refine Shallow.record ?_
  simp [Event.entries, hdetails, hsource, hdecision]

/-- The details lie one level below the entry. -/
theorem nesting_details_lt (e : Entry) : e.event.details.nesting < e.toValue.nesting := by
  have hmem : ("details", e.event.details) ∈ Value.present
      ([("id", some (.string e.id.text)), ("timestamp", some (.string e.timestamp.text))]
        ++ e.event.entries) := by
    simp [Value.present, Event.entries]
  exact Nat.lt_succ_of_le (Value.nestingOfEntries_le_iff.mp (Nat.le_refl _) _ hmem)

/-- **The text of an entry is read as its record** exactly if the details, whose numbers read back,
    are nested less deep than what is read. -/
theorem read?_compact_iff {e : Entry} (h : e.event.details.readsBack = true) :
    Json.read? e.toValue.compact = some (.ofValue e.toValue) ↔
      e.event.details.nesting < Json.maxLevels := by
  have hshallow := shallow_toValue h
  have hlimit : Json.maxLevels = 127 := rfl
  rw [Json.read?_compact hshallow.readsBack, Option.some.injEq]
  constructor
  · intro heq
    refine Nat.lt_of_not_le fun hle => ?_
    have hdeep := nesting_details_lt e
    have hnone := Json.value?_within e.toValue (Nat.lt_of_le_of_lt hle hdeep)
    rw [heq, Doc.value?_ofValue_eq_sorted] at hnone
    cases hnone
  · intro hlt
    have hnesting := hshallow.nesting_le
    exact Json.within_ofValue e.toValue (by omega)

end Entry

end Gatehouse.Audit
