import Gatehouse.Proofs.Admission
import Gatehouse.Proofs.Condition.RoundTrip
import Gatehouse.Proofs.Record

/-!
# Bundles and requests survive being written

What this file shows, for every way to turn values into documents that loses nothing:

* `Endpoint.read?_toValue`: an endpoint is read back from its record;
* `Rule.read?_toValue`, `Bundle.read?_toValue`: so are a rule and a bundle, if every tree is read back
  from its own value. Trees that were read are;
* `Request.read?_toValue_iff`: a request is read back if its maps have their entries in order;
* `bundles_and_requests_survive`: so a loaded bundle comes back as it is and is admitted again, and
  so does every request.
-/

namespace Gatehouse

variable {g : Value → Doc}

/-! ## 1. Names -/

theorem Method.read?_name (hg : Doc.Transcribes g) (m : Method) :
    Method.read? (g (.string m.name)) = some m := by
  rw [hg.string]
  cases m <;> rfl

theorem Effect.read?_name (hg : Doc.Transcribes g) (e : Effect) :
    Effect.read? (g (.string e.name)) = some e := by
  rw [hg.string]
  cases e <;> rfl

/-! ## 2. Endpoints and rules -/

/-- **An endpoint is read back from its record.** -/
theorem Endpoint.read?_toValue (hg : Doc.Transcribes g) (e : Endpoint) :
    Endpoint.read? (g e.toValue) = some e := by
  obtain ⟨fs, hfs, hlookup⟩ :=
    hg.fields?_record (rfl : e.toValue = _) (rfl : _ = fieldNames) (by decide)
  have hid : fs.required "id" Doc.uuid? = some e.id :=
    Doc.Fields.required_of_lookup (hlookup _ (by decide)) (hg.uuid?_text e.id)
  have hmethod : fs.required "method" Method.read? = some e.method :=
    Doc.Fields.required_of_lookup (hlookup _ (by decide)) (Method.read?_name hg e.method)
  have hpath : fs.required "path" Doc.string? = some e.path :=
    Doc.Fields.required_of_lookup (hlookup _ (by decide)) (hg.string?_string e.path)
  have hdeny : fs.defaulted "deny_unauthorized" false Doc.bool? = some e.denyUnauthorized :=
    Doc.Fields.defaulted_of_lookup (hlookup _ (by decide)) (hg.bool?_bool e.denyUnauthorized) _
  have hdescription : fs.optional "description" Doc.string? = some e.description :=
    hg.optional_string (hlookup _ (by decide))
  rw [read?, hfs]
  simp only [Option.bind_some, Option.bind_eq_bind, hid, hmethod, hpath, hdeny, hdescription]

/-- A tree that its own value gives back is read back. -/
theorem Condition.read?_toValue_of_ofValue (hg : Doc.Transcribes g) {c : Condition}
    (h : Condition.ofValue c.toValue = .ok c) : Condition.read? (g c.toValue) = some c := by
  have hordered : c.toValue.isOrdered = true :=
    isOrdered_toValue c (ofValue_toValue_eq_ok_iff.mp h).1
  rw [hg.ordered hordered]
  exact toOption_eq_some_iff.mpr h

/-- **A rule is read back from its record**, if its tree is. -/
theorem Rule.read?_toValue (hg : Doc.Transcribes g) {r : Rule}
    (h : Condition.ofValue r.conditions.toValue = .ok r.conditions) :
    Rule.read? (g r.toValue) = some r := by
  obtain ⟨fs, hfs, hlookup⟩ :=
    hg.fields?_record (rfl : r.toValue = _) (rfl : _ = fieldNames) (by decide)
  have hid : fs.required "id" Doc.uuid? = some r.id :=
    Doc.Fields.required_of_lookup (hlookup _ (by decide)) (hg.uuid?_text r.id)
  have hname : fs.required "name" Doc.string? = some r.name :=
    Doc.Fields.required_of_lookup (hlookup _ (by decide)) (hg.string?_string r.name)
  have hdescription : fs.optional "description" Doc.string? = some r.description :=
    hg.optional_string (hlookup _ (by decide))
  have heffect : fs.required "effect" Effect.read? = some r.effect :=
    Doc.Fields.required_of_lookup (hlookup _ (by decide)) (Effect.read?_name hg r.effect)
  have hendpoint : fs.required "end_point_id" Doc.uuid? = some r.endpointId :=
    Doc.Fields.required_of_lookup (hlookup _ (by decide)) (hg.uuid?_text r.endpointId)
  have hconditions : fs.required "conditions" Condition.read? = some r.conditions :=
    Doc.Fields.required_of_lookup (hlookup _ (by decide))
      (Condition.read?_toValue_of_ofValue hg h)
  rw [read?, hfs]
  simp only [Option.bind_some, Option.bind_eq_bind, hid, hname, hdescription, heffect, hendpoint,
    hconditions]

/-- A rule that was read has a tree that its own value gives back. -/
theorem Rule.ofValue_conditions_of_read? {d : Doc} {r : Rule} (h : Rule.read? d = some r) :
    Condition.ofValue r.conditions.toValue = .ok r.conditions := by
  unfold Rule.read? at h
  simp only [Option.bind_eq_bind, Option.bind_eq_some_iff] at h
  obtain ⟨fs, -, id, -, name, -, description, -, effect, -, endpointId, -, c, hc, hr⟩ := h
  obtain ⟨d', -, hd'⟩ := Option.bind_eq_some_iff.mp hc
  cases hr
  exact Condition.ofValue_toValue_eq_ok_iff.mpr
    (Condition.faithful_of_ofDoc (toOption_eq_some_iff.mp hd'))

/-! ## 3. Bundles -/

/-- **A bundle is read back from its record**, if the tree of each rule is. -/
theorem Bundle.read?_toValue (hg : Doc.Transcribes g) {b : Bundle}
    (h : ∀ r ∈ b.rules, Condition.ofValue r.conditions.toValue = .ok r.conditions) :
    Bundle.read? (g b.toValue) = some b := by
  obtain ⟨fs, hfs, hlookup⟩ :=
    hg.fields?_record (rfl : b.toValue = _) (rfl : _ = fieldNames) (by decide)
  have hversion : fs.required "version" Doc.string? = some b.version :=
    Doc.Fields.required_of_lookup (hlookup _ (by decide)) (hg.string?_string b.version)
  have hendpoints : fs.defaulted "endpoints" [] (Doc.list? Endpoint.read?) = some b.endpoints :=
    Doc.Fields.defaulted_of_lookup (hlookup _ (by decide))
      (hg.list?_array fun e _ => Endpoint.read?_toValue hg e) _
  have hrules : fs.defaulted "policies" [] (Doc.list? Rule.read?) = some b.rules :=
    Doc.Fields.defaulted_of_lookup (hlookup _ (by decide))
      (hg.list?_array fun r hr => Rule.read?_toValue hg (h r hr)) _
  rw [read?, hfs]
  simp only [Option.bind_some, Option.bind_eq_bind, hversion, hendpoints, hrules]

/-- The rules of a bundle that was read were read. -/
theorem Bundle.exists_of_mem_rules {d : Doc} {b : Bundle} (h : Bundle.read? d = some b) {r : Rule}
    (hr : r ∈ b.rules) : ∃ d, Rule.read? d = some r := by
  unfold Bundle.read? at h
  simp only [Option.bind_eq_bind, Option.bind_eq_some_iff] at h
  obtain ⟨fs, -, version, -, endpoints, -, rules, hrules, hb⟩ := h
  cases hb
  unfold Doc.Fields.defaulted at hrules
  split at hrules
  · cases hrules
    cases hr
  · exact Doc.exists_of_list? hrules hr

/-! ## 4. Requests -/

/-- A map that may be missing has its entries in order. -/
def Attributes.areOrdered (o : Option Attributes) : Bool :=
  o.all fun m => (Value.object m).isOrdered

/-- The maps of a request have their entries in order. -/
def Request.isOrdered (q : Request) : Bool :=
  Attributes.areOrdered q.resource && Attributes.areOrdered q.pathParams
    && Attributes.areOrdered q.body && Attributes.areOrdered q.query
    && Attributes.areOrdered q.headers

/-- A map that may be missing is read back: an empty one as empty, and a missing one as missing. -/
theorem Doc.Transcribes.optional_attributes (hg : Doc.Transcribes g) {fs : Doc.Fields} {k : String}
    {o : Option Attributes} (ho : Attributes.areOrdered o = true)
    (h : fs.lookup k = (o.map Value.object).map g) :
    fs.optional k Doc.attributes? = some o := by
  refine hg.optional_written h (fun _ => nofun) fun m hm => ?_
  subst hm
  exact hg.attributes?_object ho

/-- A map that is read where one is optional has its entries in order. -/
theorem Attributes.areOrdered_of_optional {fs : Doc.Fields} {k : String} {o : Option Attributes}
    (h : fs.optional k Doc.attributes? = some o) : areOrdered o = true := by
  cases o with
  | none => rfl
  | some m =>
    obtain ⟨d, hd⟩ := Doc.Fields.exists_of_optional h
    exact Doc.isOrdered_of_attributes? d hd

/-- **The requests that are read back from their records** are those with their maps in order. -/
theorem Request.read?_toValue_iff (hg : Doc.Transcribes g) {q : Request} :
    Request.read? (g q.toValue) = some q ↔ q.isOrdered = true := by
  simp only [isOrdered, Bool.and_eq_true, and_assoc]
  constructor
  · intro h
    obtain ⟨fs, -, hfields⟩ := Option.bind_eq_some_iff.mp h
    unfold ofFields? at hfields
    simp only [Option.bind_eq_bind, Option.bind_eq_some_iff] at hfields
    obtain ⟨method, -, path, -, resource, hresource, pathParams, hpathParams, body, hbody, query,
      hquery, headers, hheaders, hq⟩ := hfields
    cases hq
    exact ⟨Attributes.areOrdered_of_optional hresource,
      Attributes.areOrdered_of_optional hpathParams, Attributes.areOrdered_of_optional hbody,
      Attributes.areOrdered_of_optional hquery, Attributes.areOrdered_of_optional hheaders⟩
  · rintro ⟨hresource, hpathParams, hbody, hquery, hheaders⟩
    obtain ⟨fs, hfs, hlookup⟩ :=
      hg.fields?_record (rfl : q.toValue = _) (rfl : _ = fieldNames) (by decide)
    have hmethod : fs.required "method" Method.read? = some q.method :=
      Doc.Fields.required_of_lookup (hlookup _ (by decide)) (Method.read?_name hg q.method)
    have hpath : fs.required "path" Doc.string? = some q.path :=
      Doc.Fields.required_of_lookup (hlookup _ (by decide)) (hg.string?_string q.path)
    have hresource' : fs.optional "resource" Doc.attributes? = some q.resource :=
      hg.optional_attributes hresource (hlookup _ (by decide))
    have hpathParams' : fs.optional "path_params" Doc.attributes? = some q.pathParams :=
      hg.optional_attributes hpathParams (hlookup _ (by decide))
    have hbody' : fs.optional "body" Doc.attributes? = some q.body :=
      hg.optional_attributes hbody (hlookup _ (by decide))
    have hquery' : fs.optional "query" Doc.attributes? = some q.query :=
      hg.optional_attributes hquery (hlookup _ (by decide))
    have hheaders' : fs.optional "headers" Doc.attributes? = some q.headers :=
      hg.optional_attributes hheaders (hlookup _ (by decide))
    rw [read?, hfs, Option.bind_some, ofFields?]
    simp only [Option.bind_some, Option.bind_eq_bind, hmethod, hpath, hresource', hpathParams',
      hbody', hquery', hheaders']

/-! ## 5. There and back -/

/-- **Bundles and requests survive being written.** A bundle that was loaded from a text under some
    limits is read back as it is from its record, whether the fields stand in the order in which
    they are written or in the order of the value that a reader makes of them; and it is admitted
    again under the same limits. Every request is read back as it is, if its maps list their
    entries in order, as maps do: a missing map is missing again, and an empty one is empty. -/
theorem bundles_and_requests_survive (limits : Limits) :
    (∀ (f : Format) (text : String) (b : Bundle), Bundle.load f text limits = .ok b →
      (Doc.ofValue b.toValue).value? = some b.toValue.sorted ∧
      Bundle.read? (.ofValue b.toValue.sorted) = some b ∧
      Bundle.read? (.ofValue b.toValue) = some b ∧
      b.accepted limits = .ok b) ∧
    ∀ q : Request, (Doc.ofValue q.toValue).value? = some q.toValue.sorted ∧
      (Request.read? (.ofValue q.toValue.sorted) = some q ↔ q.isOrdered = true) := by
  refine ⟨fun f text b hb => ?_, fun q => ?_⟩
  · obtain ⟨hread, hfault⟩ := Bundle.load_eq_ok_iff.mp hb
    obtain ⟨d, -, hd⟩ := Option.bind_eq_some_iff.mp hread
    have htrees : ∀ r ∈ b.rules, Condition.ofValue r.conditions.toValue = .ok r.conditions := by
      intro r hr
      obtain ⟨e, he⟩ := Bundle.exists_of_mem_rules hd hr
      exact Rule.ofValue_conditions_of_read? he
    have haccepted : b.accepted limits = .ok b := Bundle.accepted_eq_ok_iff.mpr ⟨rfl, hfault⟩
    exact ⟨Doc.value?_ofValue_eq_sorted _, Bundle.read?_toValue Doc.transcribes_sorted htrees,
      Bundle.read?_toValue Doc.transcribes_ofValue htrees, haccepted⟩
  · exact ⟨Doc.value?_ofValue_eq_sorted _, Request.read?_toValue_iff Doc.transcribes_sorted⟩

/-- A bundle with a default left out, spelled UUIDs, a description and an empty comparand path. -/
def notesText : String :=
  "\x7b\"version\":\"1.0\",
    \"endpoints\":[\x7b\"path\":\"/notes\",\"method\":\"GET\",
      \"id\":\"urn:uuid:00000000-0000-0000-0000-000000000000\"\x7d],
    \"policies\":[\x7b\"id\":\"00000000000000000000000000000000\",
      \"name\":\"known readers\",\"effect\":\"Allow\",\"description\":\"\",
      \"end_point_id\":\"\x7b00000000-0000-0000-0000-000000000000\x7d\",
      \"conditions\":\x7b\"leaf\":\x7b\"attribute\":\"subject.id\",
        \"operator\":\"IsNotNull\",\"resource_attribute\":\"\"\x7d\x7d\x7d]\x7d"

/-- What is loaded of it. -/
def notesBundle : Bundle :=
  ⟨"1.0", [⟨.zero, .get, "/notes", false, none⟩],
    [⟨.zero, "known readers", some "", .allow, .zero,
      .leaf ⟨⟨"subject.id"⟩, .isNotNull, .absent, none⟩ none⟩]⟩

/-- A request with an empty query and without most other maps. -/
def notesRequest : Request :=
  ⟨.get, "/notes", none, none, some [("a", .null), ("b", .object [])], some [], none⟩

/-- The bundle and the request come back. -/
theorem bundles_and_requests_survive_notes :
    Bundle.load .json notesText .standard = .ok notesBundle ∧
    Bundle.read? (.ofValue notesBundle.toValue.sorted) = some notesBundle ∧
    notesBundle.accepted .standard = .ok notesBundle ∧
    Request.read? (.ofValue notesRequest.toValue.sorted) = some notesRequest := by
  have hload : Bundle.load .json notesText .standard = .ok notesBundle := by
    refine Bundle.load_eq_ok_iff.mpr ⟨?_, by decide +kernel⟩
    unfold Format.read? notesText
    rw [Json.read?_ofList]
    decide +kernel
  obtain ⟨hbundles, hrequests⟩ := bundles_and_requests_survive .standard
  obtain ⟨-, hread, -, haccepted⟩ := hbundles .json notesText notesBundle hload
  exact ⟨hload, hread, haccepted, (hrequests notesRequest).2.mpr (by decide +kernel)⟩

end Gatehouse
