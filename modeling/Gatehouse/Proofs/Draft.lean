import Gatehouse.Proofs.Doc
import Gatehouse.Proofs.Rule

/-!
# Drafts and rules of one document

What this file fixes, and what it shows about the two ways for a rule to come in:

* `Heading`: what a rule is apart from its identity and its conditions. Drafts and rules read it
  from the same fields (`Draft.read?_eq`, `Rule.read?_eq`);
* `Documents`: the object gives the heading and the conditions of the rule. A draft keeps the
  conditions as a value and has them read when it becomes a rule, a rule reads them at once;
* `created_iff`, `loaded_iff`: either way the rule that comes in is the one that is documented;
* `created_iff_loaded`: so what one way accepts the other accepts, with the same rule but for its
  identity, and neither accepts conditions that are missing or null.
-/

namespace Gatehouse

variable {limits : Limits}

/-! ## 1. Headings -/

/-- What a rule is apart from its identity and its conditions. -/
structure Heading where
  name : String
  description : Option String
  effect : Effect
  endpointId : Uuid
  deriving DecidableEq, Repr

/-- The heading of a rule. -/
def Rule.heading (r : Rule) : Heading := ⟨r.name, r.description, r.effect, r.endpointId⟩

/-- The heading of a draft. -/
def Draft.heading (d : Draft) : Heading := ⟨d.name, d.description, d.effect, d.endpointId⟩

namespace Heading

/-- The fields of a heading. -/
def fieldNames : List String := ["name", "description", "effect", "end_point_id"]

/-- The heading among the fields of a record. -/
def ofFields? (fs : Doc.Fields) : Option Heading := do
  let name ← fs.required "name" Doc.string?
  let description ← fs.optional "description" Doc.string?
  let effect ← fs.required "effect" Effect.read?
  let endpointId ← fs.required "end_point_id" Doc.uuid?
  some ⟨name, description, effect, endpointId⟩

/-- A heading depends on nothing but its fields. -/
theorem ofFields?_congr {fs fs' : Doc.Fields} (h : ∀ k ∈ fieldNames, fs.lookup k = fs'.lookup k) :
    ofFields? fs = ofFields? fs' := by
  have hname : fs.lookup "name" = fs'.lookup "name" := h _ (by decide)
  have hdescription : fs.lookup "description" = fs'.lookup "description" := h _ (by decide)
  have heffect : fs.lookup "effect" = fs'.lookup "effect" := h _ (by decide)
  have hendpoint : fs.lookup "end_point_id" = fs'.lookup "end_point_id" := h _ (by decide)
  simp only [ofFields?, Doc.Fields.required, Doc.Fields.optional, Doc.Fields.defaulted, hname,
    hdescription, heffect, hendpoint]

/-- The heading among the fields that were found in an object is that of the object. -/
theorem ofFields?_of_lookup {names : List String} {fs : Doc.Fields} {D : List (String × Value)}
    (hknown : ∀ k ∈ fieldNames, k ∈ names)
    (hlookup : ∀ k ∈ names, fs.lookup k = (D.lookup k).map Doc.ofValue) :
    ofFields? fs = ofFields? (Doc.ofEntries D) := by
  refine ofFields?_congr fun k hk => ?_
  rw [hlookup k (hknown k hk), Doc.lookup_ofEntries]

end Heading

/-- A draft is read as its heading and a free value. -/
theorem Draft.read?_eq (d : Doc) : Draft.read? d =
    (d.fields? fieldNames).bind fun fs => (Heading.ofFields? fs).bind fun h =>
      (fs.defaulted "conditions" .null Doc.value?).map fun v =>
        ⟨h.name, h.description, h.effect, h.endpointId, v⟩ := by
  rw [read?]
  congr 1
  funext fs
  simp only [Heading.ofFields?, Option.bind_eq_bind, Option.bind_assoc, Option.bind_some,
    Option.map_eq_bind, Function.comp_def]

/-- A rule is read as its identity, its heading and a tree. -/
theorem Rule.read?_eq (d : Doc) : Rule.read? d =
    (d.fields? fieldNames).bind fun fs => (fs.required "id" Doc.uuid?).bind fun id =>
      (Heading.ofFields? fs).bind fun h =>
        (fs.required "conditions" Condition.read?).map fun c =>
          ⟨id, h.name, h.description, h.effect, h.endpointId, c⟩ := by
  rw [read?]
  congr 1
  funext fs
  simp only [Heading.ofFields?, Option.bind_eq_bind, Option.bind_assoc, Option.bind_some,
    Option.map_eq_bind, Function.comp_def]

/-! ## 2. Objects that document a rule -/

section Documents

variable {D : List (String × Value)}

/-- The object gives the heading and the conditions of the rule. -/
structure Documents (D : List (String × Value)) (r : Rule) : Prop where
  heading : Heading.ofFields? (Doc.ofEntries D) = some r.heading
  conditions : ∃ v, D.lookup "conditions" = some v ∧ Condition.ofValue v = .ok r.conditions

/-- An object documents no more than one rule for each identity. -/
theorem Documents.eq {r r' : Rule} (h : Documents D r) (h' : Documents D r') :
    r' = { r with id := r'.id } := by
  have hheading : r.heading = r'.heading := by
    have heq := h.heading
    rw [h'.heading] at heq
    exact (Option.some.inj heq).symm
  have hconditions : r.conditions = r'.conditions := by
    obtain ⟨v, hv, hc⟩ := h.conditions
    obtain ⟨v', hv', hc'⟩ := h'.conditions
    obtain rfl : v' = v := Option.some.inj (hv'.symm.trans hv)
    exact Except.ok.inj (hc.symm.trans hc')
  obtain ⟨id, name, description, effect, endpointId, conditions⟩ := r
  obtain ⟨id', name', description', effect', endpointId', conditions'⟩ := r'
  simp only [Rule.heading, Heading.mk.injEq] at hheading hconditions
  obtain ⟨rfl, rfl, rfl, rfl⟩ := hheading
  rw [hconditions]

/-- The identity plays no part in what an object documents. -/
theorem documents_withId {r : Rule} (id : Uuid) :
    Documents D { r with id := id } ↔ Documents D r :=
  ⟨fun h => ⟨h.heading, h.conditions⟩, fun h => ⟨h.heading, h.conditions⟩⟩

/-- A value in an object is read back as it stands. -/
theorem value?_of_lookup (h : (Value.object D).isOrdered = true) {k : String} {v : Value}
    (hv : D.lookup k = some v) : (Doc.ofValue v).value? = some v := by
  rw [Value.isOrdered, Bool.and_eq_true, Value.entriesOrdered_iff] at h
  exact Doc.value?_ofValue v (h.2 _ (mem_of_lookup hv))

/-- **What is read as a draft**: the heading of the object, and its conditions as they stand. Where
    there are none they count as null. -/
theorem Draft.read?_object (h : (Value.object D).isOrdered = true) :
    Draft.read? (.ofValue (.object D)) = (Heading.ofFields? (Doc.ofEntries D)).map fun x =>
      ⟨x.name, x.description, x.effect, x.endpointId, (D.lookup "conditions").getD .null⟩ := by
  obtain ⟨fs, hfs, hlookup⟩ := Doc.fields?_ofValue_object fieldNames (Value.nodup_of_isOrdered h)
  have hheading : Heading.ofFields? fs = Heading.ofFields? (Doc.ofEntries D) :=
    Heading.ofFields?_of_lookup (by decide) hlookup
  have hconditions : fs.defaulted "conditions" .null Doc.value? =
      some ((D.lookup "conditions").getD .null) := by
    rw [Doc.Fields.defaulted, hlookup _ (by decide)]
    cases hv : D.lookup "conditions" with
    | none => rfl
    | some v => exact value?_of_lookup h hv
  rw [Draft.read?_eq, hfs, Option.bind_some, hheading, hconditions]
  cases Heading.ofFields? (Doc.ofEntries D) <;> rfl

/-- **What is read as a rule**: the identity and the heading of the object, and the tree of its
    conditions, which must be there. -/
theorem Rule.read?_object (h : (Value.object D).isOrdered = true) :
    Rule.read? (.ofValue (.object D)) =
      ((D.lookup "id").bind fun v => Doc.uuid? (.ofValue v)).bind fun id =>
        (Heading.ofFields? (Doc.ofEntries D)).bind fun x =>
          ((D.lookup "conditions").bind fun v => (Condition.ofValue v).toOption).map fun c =>
            ⟨id, x.name, x.description, x.effect, x.endpointId, c⟩ := by
  obtain ⟨fs, hfs, hlookup⟩ := Doc.fields?_ofValue_object fieldNames (Value.nodup_of_isOrdered h)
  have hheading : Heading.ofFields? fs = Heading.ofFields? (Doc.ofEntries D) :=
    Heading.ofFields?_of_lookup (by decide) hlookup
  have hid : fs.required "id" Doc.uuid? =
      (D.lookup "id").bind fun v => Doc.uuid? (.ofValue v) := by
    rw [Doc.Fields.required, hlookup _ (by decide), Option.bind_map]
    rfl
  have hconditions : fs.required "conditions" Condition.read? =
      (D.lookup "conditions").bind fun v => (Condition.ofValue v).toOption := by
    rw [Doc.Fields.required, hlookup _ (by decide), Option.bind_map]
    rfl
  rw [Rule.read?_eq, hfs, Option.bind_some, hheading, hid, hconditions]

/-! ## 3. Both ways -/

/-- **A rule is created from an object** if the object documents it and it is in order. -/
theorem created_iff (h : (Value.object D).isOrdered = true) {fresh : Uuid} {r : Rule} :
    (∃ d, Draft.read? (.ofValue (.object D)) = some d ∧ d.toRule limits fresh = .ok r) ↔
      Documents D r ∧ r.id = fresh ∧ r.check limits = .ok () := by
  rw [Rule.check_eq_ok_iff]
  constructor
  · rintro ⟨d, hread, hrule⟩
    rw [Draft.read?_object h] at hread
    obtain ⟨x, hx, rfl⟩ := Option.map_eq_some_iff.mp hread
    rw [Draft.toRule_eq_ok_iff] at hrule
    obtain ⟨hname, c, hc, hvalid, rfl⟩ := hrule
    refine ⟨⟨hx, ?_⟩, rfl, hname, hvalid⟩
    cases hv : D.lookup "conditions" with
    | none =>
      rw [hv] at hc
      cases hc
    | some v =>
      rw [hv] at hc
      exact ⟨v, rfl, hc⟩
  · rintro ⟨⟨hheading, v, hv, hc⟩, rfl, hname, hvalid⟩
    refine ⟨⟨r.name, r.description, r.effect, r.endpointId, v⟩, ?_, ?_⟩
    · rw [Draft.read?_object h, hheading, hv]
      rfl
    · exact Draft.toRule_eq_ok_iff.mpr ⟨hname, r.conditions, hc, hvalid, rfl⟩

/-- **A rule is loaded from an object** if the object documents it and gives it its identity. -/
theorem loaded_iff (h : (Value.object D).isOrdered = true) {r : Rule} :
    Rule.read? (.ofValue (.object D)) = some r ↔ Documents D r ∧
      ∃ v, D.lookup "id" = some v ∧ Doc.uuid? (.ofValue v) = some r.id := by
  rw [Rule.read?_object h]
  simp only [Option.bind_eq_some_iff, Option.map_eq_some_iff]
  constructor
  · rintro ⟨id, hid, x, hx, c, ⟨v, hv, hc⟩, rfl⟩
    exact ⟨⟨hx, v, hv, toOption_eq_some_iff.mp hc⟩, hid⟩
  · rintro ⟨⟨hheading, v, hv, hc⟩, hid⟩
    exact ⟨r.id, hid, r.heading, hheading, r.conditions, ⟨v, hv, by rw [hc]; rfl⟩, rfl⟩

/-- An object documents the same rules when an identity is added to it. -/
theorem documents_insert_id (v : Value) {r : Rule} :
    Documents (Value.insertEntry "id" v D) r ↔ Documents D r := by
  have hlookup : ∀ k, k ≠ "id" → (Value.insertEntry "id" v D).lookup k = D.lookup k := by
    intro k hk
    have hne : (k == "id") = false := beq_eq_false_iff_ne.mpr hk
    rw [Value.lookup_insertEntry, List.lookup_cons, hne]
  have hheading : Heading.ofFields? (Doc.ofEntries (Value.insertEntry "id" v D)) =
      Heading.ofFields? (Doc.ofEntries D) := by
    refine Heading.ofFields?_congr fun k hk => ?_
    have hknown : ∀ n ∈ Heading.fieldNames, n ≠ "id" := by decide
    rw [Doc.lookup_ofEntries, Doc.lookup_ofEntries, hlookup k (hknown k hk)]
  have hconditions := hlookup "conditions" (by decide)
  constructor
  · rintro ⟨hx, hc⟩
    exact ⟨hheading ▸ hx, hconditions ▸ hc⟩
  · rintro ⟨hx, hc⟩
    exact ⟨hheading ▸ hx, hconditions ▸ hc⟩

/-- An object stays in order when a text is added to it. -/
theorem isOrdered_insertEntry (h : (Value.object D).isOrdered = true) (k s : String) :
    (Value.object (Value.insertEntry k (.string s) D)).isOrdered = true := by
  rw [Value.isOrdered, Bool.and_eq_true, decide_eq_true_iff, Value.entriesOrdered_iff] at h ⊢
  refine ⟨Value.keysIncrease_insertEntry h.1, fun e he => ?_⟩
  rcases Value.mem_insertEntry he with rfl | he
  · rfl
  · exact h.2 e he

/-- The rule that is loaded from an object once the given text is added as its identity. -/
def Rule.readWithId? (s : String) (D : List (String × Value)) : Option Rule :=
  Rule.read? (.ofValue (.object (Value.insertEntry "id" (.string s) D)))

theorem readWithId?_eq_some_iff (h : (Value.object D).isOrdered = true) {u : Uuid} {s : String}
    (hs : Uuid.parse? s = some u) {r : Rule} :
    Rule.readWithId? s D = some r ↔ Documents D r ∧ r.id = u := by
  have hlookup : (Value.insertEntry "id" (.string s) D).lookup "id" = some (.string s) := by
    rw [Value.lookup_insertEntry, List.lookup_cons, beq_self_eq_true]
  have hread : Doc.uuid? (.ofValue (.string s)) = some u := hs
  rw [Rule.readWithId?, loaded_iff (isOrdered_insertEntry h "id" s), documents_insert_id, hlookup]
  constructor
  · rintro ⟨hdoc, v, hv, hid⟩
    cases hv
    rw [hread] at hid
    exact ⟨hdoc, (Option.some.inj hid).symm⟩
  · rintro ⟨hdoc, rfl⟩
    exact ⟨hdoc, _, rfl, hread⟩

/-- **The two ways for a rule to come in agree.** An object makes a draft that becomes a rule under
    some limits if and only if, with any identity added to it in any spelling, it makes a rule that
    passes its check under these limits. The two rules are the same but for their identities. An
    object whose conditions are missing or null comes in on neither way. Objects are values that
    were read, without repeated keys at any depth. A text that repeats a key within its conditions
    is another matter: a draft keeps the last of the values, and a rule refuses the text if the key
    is a field. -/
theorem created_iff_loaded (h : (Value.object D).isOrdered = true) (limits : Limits)
    (fresh : Uuid) {u : Uuid} {s : String} (hs : Uuid.parse? s = some u) :
    ((∃ d r, Draft.read? (.ofValue (.object D)) = some d ∧ d.toRule limits fresh = .ok r) ↔
      ∃ r, Rule.readWithId? s D = some r ∧ r.check limits = .ok ()) ∧
    (∀ d r r', Draft.read? (.ofValue (.object D)) = some d → d.toRule limits fresh = .ok r →
      Rule.readWithId? s D = some r' → r.id = fresh ∧ r' = { r with id := u }) ∧
    (D.lookup "conditions" = none ∨ D.lookup "conditions" = some .null →
      (∀ d, Draft.read? (.ofValue (.object D)) = some d → d.toRule limits fresh = .error
        (if NameInOrder d.name then .missingConditions d.name else .invalidName d.name.length)) ∧
      Rule.readWithId? s D = none) := by
  refine ⟨⟨?_, ?_⟩, ?_, ?_⟩
  · rintro ⟨d, r, hd, hr⟩
    obtain ⟨hdoc, -, hcheck⟩ := (created_iff h).mp ⟨d, hd, hr⟩
    exact ⟨{ r with id := u },
      (readWithId?_eq_some_iff h hs).mpr ⟨(documents_withId u).mpr hdoc, rfl⟩, hcheck⟩
  · rintro ⟨r, hr, hcheck⟩
    obtain ⟨hdoc, -⟩ := (readWithId?_eq_some_iff h hs).mp hr
    obtain ⟨d, hd, hrule⟩ :=
      (created_iff (r := { r with id := fresh }) h).mpr
        ⟨(documents_withId fresh).mpr hdoc, rfl, hcheck⟩
    exact ⟨d, _, hd, hrule⟩
  · intro d r r' hd hr hr'
    obtain ⟨hdoc, hfresh, -⟩ := (created_iff h).mp ⟨d, hd, hr⟩
    obtain ⟨hdoc', rfl⟩ := (readWithId?_eq_some_iff h hs).mp hr'
    exact ⟨hfresh, hdoc.eq hdoc'⟩
  · intro hmissing
    have hnull : (D.lookup "conditions").getD .null = .null := by
      rcases hmissing with hc | hc
      · rw [hc, Option.getD_none]
      · rw [hc, Option.getD_some]
    constructor
    · intro d hd
      rw [Draft.read?_object h, hnull] at hd
      obtain ⟨x, -, rfl⟩ := Option.map_eq_some_iff.mp hd
      exact Draft.toRule_of_null rfl fresh
    · refine Option.eq_none_iff_forall_ne_some.mpr fun r hr => ?_
      obtain ⟨⟨-, v, hv, hc⟩, -⟩ := (readWithId?_eq_some_iff h hs).mp hr
      rw [hv, Option.getD_some] at hnull
      rw [hnull, Condition.ofValue_null] at hc
      cases hc

end Documents

/-- The UUID of zeros, spelled as a name. -/
def zeroUrn : String := "urn:uuid:00000000-0000-0000-0000-000000000000"

/-- A rule for clients that read their own data. -/
def selfAccess : Rule where
  id := .zero
  name := "client self access"
  description := none
  effect := .allow
  endpointId := .zero
  conditions := .leaf ⟨⟨"subject.id"⟩, .equals, .path ⟨"resource.client_id"⟩, none⟩ none

/-- An object of that rule with the given conditions, if any. -/
def selfAccessObject (conditions : List (String × Value)) : List (String × Value) :=
  conditions ++ [("effect", .string "Allow"), ("end_point_id", .string zeroUrn),
    ("name", .string "client self access")]

/-- The rule comes in both ways, and on neither without its conditions or with null in their
    place. -/
theorem created_iff_loaded_self_access :
    (∃ d r, Draft.read? (.ofValue (.object
        (selfAccessObject [("conditions", selfAccess.conditions.toValue)]))) = some d ∧
      d.toRule .standard .zero = .ok r) ∧
    Rule.readWithId? zeroUrn
      (selfAccessObject [("conditions", selfAccess.conditions.toValue)]) = some selfAccess ∧
    Rule.readWithId? zeroUrn (selfAccessObject []) = none ∧
    Rule.readWithId? zeroUrn (selfAccessObject [("conditions", .null)]) = none := by
  have hs : Uuid.parse? zeroUrn = some .zero := by decide +kernel
  have hread : Rule.readWithId? zeroUrn
      (selfAccessObject [("conditions", selfAccess.conditions.toValue)]) = some selfAccess := by
    decide +kernel
  have hcheck : selfAccess.check .standard = .ok () := by decide +kernel
  have hgiven := created_iff_loaded
    (D := selfAccessObject [("conditions", selfAccess.conditions.toValue)])
    (by decide +kernel) .standard .zero hs
  have hmissing := created_iff_loaded (D := selfAccessObject []) (by decide +kernel)
    .standard .zero hs
  have hnull := created_iff_loaded (D := selfAccessObject [("conditions", .null)])
    (by decide +kernel) .standard .zero hs
  exact ⟨hgiven.1.mpr ⟨selfAccess, hread, hcheck⟩, hread,
    (hmissing.2.2 (.inl (by decide +kernel))).2, (hnull.2.2 (.inr (by decide +kernel))).2⟩

end Gatehouse
