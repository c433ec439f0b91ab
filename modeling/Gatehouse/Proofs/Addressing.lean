import Gatehouse.Proofs.FirstFault
import Gatehouse.Proofs.StorageOrder
import Gatehouse.Proofs.Uuid
import Gatehouse.Session

/-!
# Where rules belong and how they are found

What this file fixes, and what it shows about the endpoints and rules of a loaded bundle:

* `flatMap_rulesFor_perm`, `existsUnique_endpoint`: every rule belongs to one endpoint, and the rules
  of all endpoints are all rules;
* `endpoint?_of_mem`: every endpoint is found by its method and path;
* `Bundle.named`, `findRule_id`, `findRule_name`: a rule is found by its printed identity, and other
  keys are looked up among the names;
* `Session.ruleLine`, `summaryLines_perm`: the summary of a bundle has a line for each endpoint and
  for each rule, and no line twice for rules (`count_ruleLine`);
* `rules_addressable`: all of this for every bundle that is loaded.
-/

namespace Gatehouse

namespace Bundle

variable {limits : Limits} {b : Bundle}

/-! ## 1. Endpoints and their rules -/

/-- **The rules of all endpoints are all rules**, each once. -/
theorem flatMap_rulesFor_perm (hb : b.WellFormed limits) :
    (b.endpoints.flatMap fun e => b.rulesFor e.id).Perm b.rules := by
  have hids : (b.endpoints.map Endpoint.id).Nodup :=
    (pairwise_endpoint_distinct_iff.mp hb.endpoints).2
  have hattached : ∀ r ∈ b.rules, r.endpointId ∈ b.endpoints.map Endpoint.id := by
    intro r hr
    obtain ⟨e, he, hid⟩ := hb.attached r hr
    exact hid ▸ List.mem_map_of_mem he
  have hperm := flatMap_filter_perm hids hattached
  rw [List.flatMap_map] at hperm
  exact hperm

/-- Every rule belongs to one endpoint. -/
theorem existsUnique_endpoint (hb : b.WellFormed limits) {r : Rule} (hr : r ∈ b.rules) :
    ∃! e, e ∈ b.endpoints ∧ r ∈ b.rulesFor e.id := by
  obtain ⟨e, he, hid⟩ := hb.attached r hr
  refine ⟨e, ⟨he, mem_rulesFor.mpr ⟨hr, hid.symm⟩⟩, ?_⟩
  rintro x ⟨hx, hrx⟩
  exact Endpoint.eq_of_id hb.endpoints hx he ((mem_rulesFor.mp hrx).2.symm.trans hid.symm)

/-- **Every endpoint is found by its method and path.** -/
theorem endpoint?_of_mem (hb : b.WellFormed limits) {e : Endpoint} (he : e ∈ b.endpoints) :
    b.endpoint? e.method e.path = some e :=
  (find?_eq_some_iff_of_one (hb.registered_once _ _)).mpr ⟨he, registeredB_iff.mpr ⟨rfl, rfl⟩⟩

/-! ## 2. Search -/

/-- The rules of a name, in order. -/
def named (b : Bundle) (name : String) : List Rule := b.rules.filter fun r => r.name == name

theorem mem_named {name : String} {r : Rule} :
    r ∈ b.named name ↔ r ∈ b.rules ∧ r.name = name := by
  rw [named, List.mem_filter, beq_iff_eq]

/-- Rules that share a name are attached to different endpoints. -/
theorem pairwise_named (hb : b.WellFormed limits) (name : String) :
    (b.named name).Pairwise fun x y => x.endpointId ≠ y.endpointId := by
  refine (hb.rules.filter _).imp_of_mem fun {x y} hx hy hxy heq => ?_
  exact hxy.2 ⟨heq, (mem_named.mp hx).2.trans (mem_named.mp hy).2.symm⟩

/-- There is one rule of a name if all that have the name are the same. -/
theorem named_eq_singleton_iff (hb : b.WellFormed limits) {name : String} {r : Rule} :
    b.named name = [r] ↔ r ∈ b.rules ∧ r.name = name ∧ ∀ x ∈ b.rules, x.name = name → x = r := by
  have hnodup : (b.named name).Nodup :=
    (pairwise_named hb name).imp fun hne heq => hne (congrArg Rule.endpointId heq)
  have hall : b.named name = [r] ↔ r ∈ b.named name ∧ ∀ x ∈ b.named name, x = r := by
    constructor
    · intro h
      rw [h]
      exact ⟨List.mem_singleton_self r, fun x hx => List.mem_singleton.mp hx⟩
    · intro ⟨hr, hx⟩
      refine List.perm_singleton.mp ((List.perm_ext_iff_of_nodup hnodup (List.nodup_singleton r)).mpr
        fun x => ?_)
      rw [List.mem_singleton]
      exact ⟨hx x, fun h => h ▸ hr⟩
  rw [hall]
  simp only [mem_named, and_imp, and_assoc]

/-- **A rule is found by its printed identity.** -/
theorem findRule_id (hb : b.WellFormed limits) {r : Rule} (hr : r ∈ b.rules) :
    b.findRule r.id.text = .ok r := by
  have hone : b.rules.Pairwise fun x y =>
      ¬ ((x.id.text == r.id.text) = true ∧ (y.id.text == r.id.text) = true) := by
    refine hb.rules.imp fun {x y} hxy hboth => hxy.1 ?_
    exact Uuid.text_inj.mp ((beq_iff_eq.mp hboth.1).trans (beq_iff_eq.mp hboth.2).symm)
  have hfind : (b.rules.find? fun x => x.id.text == r.id.text) = some r :=
    (find?_eq_some_iff_of_one hone).mpr ⟨hr, beq_self_eq_true _⟩
  unfold findRule
  rw [hfind]

/-- **A key that is no identity finds the only rule of that name.** It is refused as unknown if no
    rule has the name, and with the identities of all that have it if there are several. -/
theorem findRule_name {key : String} (h : ∀ r ∈ b.rules, r.id.text ≠ key) :
    (∀ r, b.findRule key = .ok r ↔ b.named key = [r]) ∧
    (b.findRule key = .error (.noMatch key) ↔ b.named key = []) ∧
    ∀ ids, b.findRule key = .error (.ambiguous key ids) ↔
      2 ≤ (b.named key).length ∧ ids = (b.named key).map Rule.id := by
  have hfind : (b.rules.find? fun r => r.id.text == key) = none := by
    rw [List.find?_eq_none]
    exact fun r hr heq => h r hr (beq_iff_eq.mp heq)
  unfold findRule named
  rw [hfind]
  generalize (b.rules.filter fun r => r.name == key) = rs
  rcases rs with _ | ⟨r, _ | ⟨r', rest⟩⟩
  · simp
  · simp
  · simp [eq_comm]

end Bundle

/-! ## 3. The summary -/

namespace Session

/-- The line of a rule. -/
def ruleLine (r : Rule) : String :=
  "    [" ++ r.effect.name ++ "] " ++ r.name ++ " (" ++ r.id.text ++ ")"

/-- The line of an endpoint. -/
def endpointLine (b : Bundle) (e : Endpoint) : String :=
  "  " ++ e.route ++ ": " ++ decimal (b.rulesFor e.id).length ++ " rule(s), unmatched requests "
    ++ (if e.denyUnauthorized then "deny" else "allow")

/-- The first line of the summary. -/
def titleLine (path : String) (b : Bundle) : String :=
  path ++ ": valid policy bundle (version " ++ b.version ++ ", " ++ decimal b.endpoints.length
    ++ " endpoint(s), " ++ decimal b.rules.length ++ " policy rule(s))"

variable {limits : Limits} {b : Bundle}

theorem summaryLines_eq (path : String) (b : Bundle) :
    summaryLines path b = titleLine path b ::
      b.endpoints.flatMap fun e => endpointLine b e :: (b.rulesFor e.id).map ruleLine := rfl

/-- **The summary has one line for each endpoint and one for each rule.** -/
theorem summaryLines_perm (hb : b.WellFormed limits) (path : String) : (summaryLines path b).Perm
    (titleLine path b :: (b.endpoints.map (endpointLine b) ++ b.rules.map ruleLine)) := by
  have hrules : (b.endpoints.flatMap fun e => (b.rulesFor e.id).map ruleLine).Perm
      (b.rules.map ruleLine) := by
    rw [← List.map_flatMap]
    exact (Bundle.flatMap_rulesFor_perm hb).map ruleLine
  rw [summaryLines_eq]
  refine List.Perm.cons _ (List.Perm.trans ?_ (hrules.append_left _))
  exact (List.map_append_flatMap_perm _ _ _).symm

theorem toList_ruleLine (r : Rule) : (ruleLine r).toList =
    ("    [" ++ r.effect.name ++ "] " ++ r.name ++ " (").toList ++ r.id.text.toList ++ [')'] := by
  simp only [ruleLine, String.toList_append]
  rfl

/-- A line tells the identity of its rule. -/
theorem id_eq_of_ruleLine {r r' : Rule} (h : ruleLine r = ruleLine r') : r.id = r'.id := by
  have hlist := congrArg String.toList h
  rw [toList_ruleLine, toList_ruleLine] at hlist
  -- identities are equally long, so that the ends of the two lines can be compared
  have htexts := List.append_cancel_right hlist
  have hid := (List.append_inj' htexts (by rw [Uuid.length_text, Uuid.length_text])).2
  exact Uuid.text_inj.mp (String.toList_inj.mp hid)

/-- The title ends with two closing parentheses, and the line of a rule with one. -/
theorem titleLine_ne_ruleLine (path : String) (r : Rule) : titleLine path b ≠ ruleLine r := by
  intro h
  have hlist := congrArg String.toList h
  have htitle : ∃ front, (titleLine path b).toList = front ++ [')'] ++ [')'] := by
    have hend : " policy rule(s))".toList = " policy rule(s".toList ++ [')'] ++ [')'] := by decide
    unfold titleLine
    rw [String.toList_append, hend, ← List.append_assoc, ← List.append_assoc]
    exact ⟨_, rfl⟩
  obtain ⟨front, hfront⟩ := htitle
  rw [hfront, toList_ruleLine] at hlist
  have hlast := congrArg List.getLast? (List.append_cancel_right hlist)
  have hne : r.id.text.toList ≠ [] := by
    intro hnil
    have hlength := r.id.length_text
    rw [hnil] at hlength
    cases hlength
  rw [List.getLast?_concat, List.getLast?_append_of_ne_nil _ hne] at hlast
  rcases Uuid.mem_text (List.mem_of_getLast? hlast.symm) with hdash | ⟨d, hd⟩
  · cases hdash
  · revert d
    decide

/-- The line of an endpoint is less indented than that of a rule. -/
theorem endpointLine_ne_ruleLine (e : Endpoint) (r : Rule) : endpointLine b e ≠ ruleLine r := by
  intro h
  have hlist := congrArg String.toList h
  unfold endpointLine ruleLine Endpoint.route at hlist
  simp only [String.toList_append, List.append_assoc] at hlist
  -- where the one has the first letter of a method, the other has a blank
  cases hm : e.method <;>
    · rw [hm] at hlist
      cases hlist

/-- **Every rule has one line.** -/
theorem count_ruleLine (hb : b.WellFormed limits) (path : String) {r : Rule} (hr : r ∈ b.rules) :
    (summaryLines path b).count (ruleLine r) = 1 := by
  have hnodup : (b.rules.map ruleLine).Nodup :=
    List.pairwise_map.mpr (hb.rules.imp fun hd heq => hd.1 (id_eq_of_ruleLine heq))
  have hendpoints : ruleLine r ∉ b.endpoints.map (endpointLine b) := by
    intro hmem
    obtain ⟨e, _, he⟩ := List.mem_map.mp hmem
    exact endpointLine_ne_ruleLine e r he
  rw [(summaryLines_perm hb path).count_eq, List.count_cons_of_ne (titleLine_ne_ruleLine path r),
    List.count_append, List.count_eq_zero_of_not_mem hendpoints,
    List.count_eq_one_of_mem hnodup (List.mem_map_of_mem hr)]

end Session

/-! ## 4. Loaded bundles -/

/-- **Every rule of a loaded bundle belongs to one endpoint and can be asked for.** The rules of all
    endpoints are all rules, so that the summary lists each once. Every endpoint is found by its
    method and path, and every rule by its printed identity. Any other key finds the only rule of
    that name; if there is none it is refused as unknown, and if there are several, which are then
    attached to different endpoints, with the identities of all of them in order. -/
theorem rules_addressable {f : Format} {text : String} {limits : Limits} {b : Bundle}
    (h : Bundle.load f text limits = .ok b) :
    ((b.endpoints.flatMap fun e => b.rulesFor e.id).Perm b.rules ∧
      (∀ r ∈ b.rules, ∃! e, e ∈ b.endpoints ∧ r ∈ b.rulesFor e.id) ∧
      ∀ path, (Session.summaryLines path b).Perm (Session.titleLine path b ::
          (b.endpoints.map (Session.endpointLine b) ++ b.rules.map Session.ruleLine)) ∧
        ∀ r ∈ b.rules, (Session.summaryLines path b).count (Session.ruleLine r) = 1) ∧
    (∀ e ∈ b.endpoints, b.endpoint? e.method e.path = some e) ∧
    (∀ r ∈ b.rules, b.findRule r.id.text = .ok r) ∧
    ∀ key, (∀ r ∈ b.rules, r.id.text ≠ key) →
      (∀ r, b.findRule key = .ok r ↔
        r ∈ b.rules ∧ r.name = key ∧ ∀ x ∈ b.rules, x.name = key → x = r) ∧
      (b.findRule key = .error (.noMatch key) ↔ ∀ r ∈ b.rules, r.name ≠ key) ∧
      (∀ ids, b.findRule key = .error (.ambiguous key ids) ↔
        2 ≤ (b.named key).length ∧ ids = (b.named key).map Rule.id) ∧
      (b.named key).Pairwise fun x y => x.endpointId ≠ y.endpointId := by
  have hb : b.WellFormed limits := Bundle.fault?_eq_none_iff.mp (Bundle.load_eq_ok_iff.mp h).2
  refine ⟨⟨Bundle.flatMap_rulesFor_perm hb, fun r hr => Bundle.existsUnique_endpoint hb hr,
      fun path => ⟨Session.summaryLines_perm hb path,
        fun r hr => Session.count_ruleLine hb path hr⟩⟩,
    fun e he => Bundle.endpoint?_of_mem hb he, fun r hr => Bundle.findRule_id hb hr, ?_⟩
  intro key hkey
  obtain ⟨hok, hnone, hmany⟩ := Bundle.findRule_name hkey
  refine ⟨fun r => (hok r).trans (Bundle.named_eq_singleton_iff hb), hnone.trans ?_, hmany,
    Bundle.pairwise_named hb key⟩
  rw [Bundle.named, List.filter_eq_nil_iff]
  simp only [beq_iff_eq, ne_eq]

/-! ## A name on two endpoints -/

/-- A UUID with a digit at its end. -/
def numberedId (d : Fin 16) : Uuid := ⟨List.replicate 31 0 ++ [d], rfl⟩

/-- Holds for subjects who have been suspended. -/
def suspended : Condition := .leaf ⟨⟨"subject.suspended"⟩, .isNotNull, .absent, none⟩ none

/-- Two endpoints on one path, with rules of the same name, and a further rule on one of them. -/
def sharedNameBundle : Bundle :=
  ⟨"1.0",
    [⟨numberedId 1, .get, "/clients", true, none⟩, ⟨numberedId 2, .delete, "/clients", true, none⟩],
    [⟨numberedId 3, "suspension", none, .deny, numberedId 2, suspended⟩,
      ⟨numberedId 4, "suspension", none, .deny, numberedId 1, suspended⟩,
      ⟨numberedId 5, "appeal", none, .allow, numberedId 1, suspended⟩]⟩

/-- The bundle as a document. -/
def sharedNameText : String :=
  "\x7b\"version\":\"1.0\",
    \"endpoints\":[
      \x7b\"id\":\"00000000-0000-0000-0000-000000000001\",\"method\":\"GET\",
        \"path\":\"/clients\",\"deny_unauthorized\":true\x7d,
      \x7b\"id\":\"00000000-0000-0000-0000-000000000002\",\"method\":\"DELETE\",
        \"path\":\"/clients\",\"deny_unauthorized\":true\x7d],
    \"policies\":[
      \x7b\"id\":\"00000000-0000-0000-0000-000000000003\",\"name\":\"suspension\",
        \"effect\":\"Deny\",\"end_point_id\":\"00000000-0000-0000-0000-000000000002\",
        \"conditions\":\x7b\"leaf\":\x7b\"attribute\":\"subject.suspended\",
          \"operator\":\"IsNotNull\"\x7d\x7d\x7d,
      \x7b\"id\":\"00000000-0000-0000-0000-000000000004\",\"name\":\"suspension\",
        \"effect\":\"Deny\",\"end_point_id\":\"00000000-0000-0000-0000-000000000001\",
        \"conditions\":\x7b\"leaf\":\x7b\"attribute\":\"subject.suspended\",
          \"operator\":\"IsNotNull\"\x7d\x7d\x7d,
      \x7b\"id\":\"00000000-0000-0000-0000-000000000005\",\"name\":\"appeal\",
        \"effect\":\"Allow\",\"end_point_id\":\"00000000-0000-0000-0000-000000000001\",
        \"conditions\":\x7b\"leaf\":\x7b\"attribute\":\"subject.suspended\",
          \"operator\":\"IsNotNull\"\x7d\x7d\x7d]\x7d"

/-- The rules are sorted by endpoints in the summary. The name of one finds it, and the name of the
    other two is refused with their identities. -/
theorem rules_addressable_suspension :
    Bundle.load .json sharedNameText .standard = .ok sharedNameBundle ∧
    (sharedNameBundle.endpoints.flatMap fun e => sharedNameBundle.rulesFor e.id).Perm
      sharedNameBundle.rules ∧
    sharedNameBundle.findRule (numberedId 5).text =
      .ok ⟨numberedId 5, "appeal", none, .allow, numberedId 1, suspended⟩ ∧
    sharedNameBundle.findRule "appeal" =
      .ok ⟨numberedId 5, "appeal", none, .allow, numberedId 1, suspended⟩ ∧
    sharedNameBundle.findRule "suspension" =
      .error (.ambiguous "suspension" [numberedId 3, numberedId 4]) ∧
    sharedNameBundle.findRule "Suspension" = .error (.noMatch "Suspension") := by
  have hload : Bundle.load .json sharedNameText .standard = .ok sharedNameBundle := by
    refine Bundle.load_eq_ok_iff.mpr ⟨?_, by decide +kernel⟩
    unfold Format.read? sharedNameText
    rw [Json.read?_ofList]
    decide +kernel
  obtain ⟨⟨hperm, _, _⟩, _, hid, hname⟩ := rules_addressable hload
  obtain ⟨happeal, _, _, _⟩ := hname "appeal" (by decide +kernel)
  obtain ⟨_, _, hmany, _⟩ := hname "suspension" (by decide +kernel)
  obtain ⟨_, hnone, _, _⟩ := hname "Suspension" (by decide +kernel)
  exact ⟨hload, hperm, hid ⟨numberedId 5, "appeal", none, .allow, numberedId 1, suspended⟩
      (by decide +kernel),
    (happeal _).mpr (by decide +kernel), (hmany _).mpr (by decide +kernel),
    hnone.mpr (by decide +kernel)⟩

end Gatehouse
