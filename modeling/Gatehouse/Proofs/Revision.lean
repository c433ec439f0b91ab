import Gatehouse.Proofs.Doc
import Gatehouse.Proofs.Rule

/-!
# Rules and their patches

What this file fixes, and what it shows about `Rule.patched`:

* `Revision`: everything that a patch does to a rule; `patched_eq_ok_iff`: it does that, or it is
  refused; `exists_patched_iff`: which patches are refused;
* `patched_in_order_iff`: which rules are in order after a patch. What the patch does not carry is
  kept as it was and not checked again, so a rule that was out of order may stay so;
* `History`: a rule with the patches that it has taken. A patch that is refused leaves both alone;
* `Current`: every field has the value that was given last; `current_step`, `current_run`: this
  holds of a rule in order and goes on holding, whatever patches come.
-/

namespace Gatehouse

variable {limits : Limits}

/-! ## 1. One patch -/

/-- The second rule is the first one after the patch. -/
structure Revision (limits : Limits) (p : Patch) (r r' : Rule) : Prop where
  id : r'.id = r.id
  name : r'.name = p.name.getD r.name
  description : r'.description = p.description.or r.description
  effect : r'.effect = p.effect.getD r.effect
  endpointId : r'.endpointId = p.endpointId.getD r.endpointId
  keptTree : p.conditions = none → r'.conditions = r.conditions
  newName : ∀ n, p.name = some n → NameInOrder n
  newTree : ∀ raw, p.conditions = some raw →
    Condition.ofValue raw = .ok r'.conditions ∧ r'.conditions.validate limits = .ok ()

/-- A patch gives the name that it carries, if that is in order. -/
theorem Patch.newName_eq_ok_iff {p : Patch} {r : Rule} {n : String} :
    p.newName r = .ok n ↔ n = p.name.getD r.name ∧ ∀ m, p.name = some m → NameInOrder m := by
  unfold newName
  cases p.name with
  | none =>
      rw [Except.ok.injEq, Option.getD_none]
      exact ⟨fun h => ⟨h.symm, nofun⟩, fun h => h.1.symm⟩
  | some m =>
      show (checkName m).map (fun _ => m) = .ok n ↔ _
      rw [Option.getD_some, checkName_eq]
      by_cases hm : NameInOrder m
      · rw [if_pos hm]
        constructor
        · intro h
          cases h
          exact ⟨rfl, fun m' hm' => Option.some.inj hm' ▸ hm⟩
        · rintro ⟨rfl, _⟩
          rfl
      · rw [if_neg hm]
        exact ⟨nofun, fun h => absurd (h.2 m rfl) hm⟩

/-- A patch gives the tree that it carries, if that is valid, and else the tree that there is. -/
theorem Patch.newConditions_eq_ok_iff {p : Patch} {r : Rule} {name : String} {c : Condition} :
    p.newConditions limits r name = .ok c ↔
      (p.conditions = none → c = r.conditions) ∧ ∀ raw, p.conditions = some raw →
        Condition.ofValue raw = .ok c ∧ c.validate limits = .ok () := by
  unfold newConditions
  cases p.conditions with
  | none =>
      rw [Except.ok.injEq]
      exact ⟨fun h => ⟨fun _ => h.symm, nofun⟩, fun h => (h.1 rfl).symm⟩
  | some raw =>
      show buildConditions limits name raw = .ok c ↔ _
      rw [buildConditions_eq_ok_iff]
      constructor
      · intro h
        exact ⟨nofun, fun raw' hraw => Option.some.inj hraw ▸ h⟩
      · intro h
        exact h.2 raw rfl

/-- **A patch makes the revision or is refused.** -/
theorem Rule.patched_eq_ok_iff {p : Patch} {r r' : Rule} :
    r.patched limits p = .ok r' ↔ Revision limits p r r' := by
  unfold Rule.patched
  constructor
  · intro h
    split at h
    · cases h
    · rename_i name hname
      obtain ⟨hvalue, hnew⟩ := Patch.newName_eq_ok_iff.mp hname
      cases htree : p.newConditions limits r name with
      | error e =>
          rw [htree] at h
          cases h
      | ok c =>
          obtain ⟨hkept, hbuilt⟩ := Patch.newConditions_eq_ok_iff.mp htree
          rw [htree] at h
          cases h
          exact ⟨rfl, hvalue, Option.orElse_eq_or, rfl, rfl, hkept, hnew, hbuilt⟩
  · intro h
    have hname : p.newName r = .ok r'.name := Patch.newName_eq_ok_iff.mpr ⟨h.name, h.newName⟩
    have htree : p.newConditions limits r r'.name = .ok r'.conditions :=
      Patch.newConditions_eq_ok_iff.mpr ⟨h.keptTree, h.newTree⟩
    have hrest : r' = ⟨r.id, r'.name, p.description.orElse fun _ => r.description,
        p.effect.getD r.effect, p.endpointId.getD r.endpointId, r'.conditions⟩ := by
      rw [Option.orElse_eq_or, ← h.id, ← h.description, ← h.effect, ← h.endpointId]
    rw [hname]
    simp only [htree]
    exact congrArg Except.ok hrest.symm

/-- What a patch carries is in order. -/
structure Patch.InOrder (limits : Limits) (p : Patch) : Prop where
  name : ∀ n, p.name = some n → NameInOrder n
  tree : ∀ raw, p.conditions = some raw →
    ∃ c, Condition.ofValue raw = .ok c ∧ c.validate limits = .ok ()

/-- **Which patches are refused** depends on what they carry only, and on no rule. -/
theorem Rule.exists_patched_iff {p : Patch} {r : Rule} :
    (∃ r', r.patched limits p = .ok r') ↔ p.InOrder limits := by
  constructor
  · rintro ⟨r', h⟩
    have hrev := patched_eq_ok_iff.mp h
    exact ⟨hrev.newName, fun raw hraw => ⟨r'.conditions, hrev.newTree raw hraw⟩⟩
  · intro h
    obtain ⟨c, hkept, hbuilt⟩ : ∃ c, (p.conditions = none → c = r.conditions) ∧
        ∀ raw, p.conditions = some raw →
          Condition.ofValue raw = .ok c ∧ c.validate limits = .ok () := by
      cases htree : p.conditions with
      | none => exact ⟨r.conditions, fun _ => rfl, nofun⟩
      | some raw =>
          obtain ⟨c, hc⟩ := h.tree raw htree
          exact ⟨c, nofun, fun raw' hraw => Option.some.inj hraw ▸ hc⟩
    exact ⟨⟨r.id, p.name.getD r.name, p.description.or r.description, p.effect.getD r.effect,
        p.endpointId.getD r.endpointId, c⟩,
      patched_eq_ok_iff.mpr ⟨rfl, rfl, rfl, rfl, rfl, hkept, h.name, hbuilt⟩⟩

/-! ## 2. What is in order after a patch -/

/-- The name is in order if the patch carries it, and else if it was in order before. -/
theorem Revision.nameInOrder_iff {p : Patch} {r r' : Rule} (h : Revision limits p r r') :
    NameInOrder r'.name ↔ (p.name = none → NameInOrder r.name) := by
  rw [h.name]
  cases hname : p.name with
  | none => exact ⟨fun hr _ => hr, fun hr => hr rfl⟩
  | some n => exact ⟨fun _ => nofun, fun _ => h.newName n hname⟩

/-- The tree is valid if the patch carries it, and else if it was valid before. -/
theorem Revision.validate_iff {p : Patch} {r r' : Rule} (h : Revision limits p r r') :
    r'.conditions.validate limits = .ok () ↔
      (p.conditions = none → r.conditions.validate limits = .ok ()) := by
  cases htree : p.conditions with
  | none =>
      rw [h.keptTree htree]
      exact ⟨fun hr _ => hr, fun hr => hr rfl⟩
  | some raw => exact ⟨fun _ => nofun, fun _ => (h.newTree raw htree).2⟩

/-- **A rule in order stays in order**, whatever the patch. -/
theorem Revision.check {p : Patch} {r r' : Rule} (h : Revision limits p r r')
    (hr : r.check limits = .ok ()) : r'.check limits = .ok () := by
  obtain ⟨hname, htree⟩ := Rule.check_eq_ok_iff.mp hr
  exact Rule.check_eq_ok_iff.mpr
    ⟨h.nameInOrder_iff.mpr fun _ => hname, h.validate_iff.mpr fun _ => htree⟩

/-- **A patch checks what it carries, and nothing else.** It succeeds if what it carries is in
    order, whatever the rule is. The name and the tree that it carries are then in order; the rule
    as a whole is in order if and only if what the patch does not carry was in order before. -/
theorem patched_in_order_iff (limits : Limits) (p : Patch) (r : Rule) :
    ((∃ r', r.patched limits p = .ok r') ↔ p.InOrder limits) ∧
    ∀ r', r.patched limits p = .ok r' →
      (p.name ≠ none → NameInOrder r'.name) ∧
      (p.conditions ≠ none → r'.conditions.validate limits = .ok ()) ∧
      (r'.check limits = .ok () ↔ (p.name = none → NameInOrder r.name) ∧
        (p.conditions = none → r.conditions.validate limits = .ok ())) := by
  refine ⟨Rule.exists_patched_iff, fun r' h => ?_⟩
  have hrev : Revision limits p r r' := Rule.patched_eq_ok_iff.mp h
  refine ⟨fun hcarried => ?_, fun hcarried => ?_, ?_⟩
  · exact hrev.nameInOrder_iff.mpr fun hnone => absurd hnone hcarried
  · exact hrev.validate_iff.mpr fun hnone => absurd hnone hcarried
  · rw [Rule.check_eq_ok_iff, hrev.nameInOrder_iff, hrev.validate_iff]

/-- Limits under which a check for null may carry a comparand. -/
def laxLimits : Limits := ⟨false, 32⟩

/-- Asks whether an attribute is null, and gives a value all the same. -/
def guestDraft : Draft where
  name := "guest access"
  description := none
  effect := .allow
  endpointId := .zero
  conditions := .object [("leaf", .object [("attribute", .string "subject.id"),
    ("operator", .string "IsNull"), ("value", .bool true)])]

/-- The rule of that draft, under any name. -/
def guestRule (name : String) : Rule where
  id := .zero
  name := name
  description := none
  effect := .allow
  endpointId := .zero
  conditions := .leaf ⟨⟨"subject.id"⟩, .isNull, .literal (.bool true), none⟩ none

/-- Gives a rule another name. -/
def renameTo (name : String) : Patch := ⟨some name, none, none, none, none⟩

/-- The limits have become stricter since the rule was made: it can be renamed, and the tree that
    it keeps decides that it is not in order. -/
theorem patched_in_order_iff_guest :
    guestDraft.toRule laxLimits .zero = .ok (guestRule "guest access") ∧
    (guestRule "guest access").patched .standard (renameTo "guests") = .ok (guestRule "guests") ∧
    (guestRule "guest access").conditions.validate .standard ≠ .ok () ∧
    (guestRule "guests").check .standard ≠ .ok () := by
  have hpatched : (guestRule "guest access").patched .standard (renameTo "guests") =
      .ok (guestRule "guests") := by decide +kernel
  have hstale : (guestRule "guest access").conditions.validate .standard ≠ .ok () := by
    decide +kernel
  refine ⟨by decide +kernel, hpatched, hstale, fun hcheck => ?_⟩
  obtain ⟨_, _, hiff⟩ := (patched_in_order_iff .standard (renameTo "guests") _).2 _ hpatched
  exact hstale ((hiff.mp hcheck).2 rfl)

/-- **A patch that succeeds need not leave the rule in order.** -/
theorem not_check_of_patched :
    ¬ ∀ (limits : Limits) (r : Rule) (p : Patch) (r' : Rule),
      r.patched limits p = .ok r' → r'.check limits = .ok () := by
  intro h
  have hcheck : (guestRule "guests").check .standard = .ok () :=
    h .standard (guestRule "guest access") (renameTo "guests") _ (by decide +kernel)
  have hstale : (guestRule "guests").check .standard ≠ .ok () := by decide +kernel
  exact hstale hcheck

/-! ## 3. One patch after another -/

/-- A rule with the patches that it has taken, in order. -/
structure History where
  rule : Rule
  taken : List Patch
  deriving DecidableEq, Repr

namespace History

/-- The history of a rule that has taken no patch yet. -/
def start (r : Rule) : History := ⟨r, []⟩

/-- The history after one more patch. One that is refused is not taken and changes nothing. -/
def step (limits : Limits) (h : History) (p : Patch) : History :=
  match h.rule.patched limits p with
  | .ok r => ⟨r, h.taken ++ [p]⟩
  | .error _ => h

/-- The history after more patches, one after the other. -/
def run (limits : Limits) (h : History) (ps : List Patch) : History := ps.foldl (step limits) h

/-- The value of a field in the last of the patches that carry it. -/
def lastGiven {α : Type} (field : Patch → Option α) (ps : List Patch) : Option α :=
  (ps.filterMap field).getLast?

theorem lastGiven_append {α : Type} (field : Patch → Option α) (ps : List Patch) (p : Patch) :
    lastGiven field (ps ++ [p]) = (field p).or (lastGiven field ps) := by
  unfold lastGiven
  rw [List.filterMap_append, List.getLast?_append]
  cases hp : field p <;> simp [hp]

/-- The rule is in order and keeps its identity, and each of its fields has the value that was given
    last: by the patches taken, or else by the draft. -/
structure Current (limits : Limits) (d : Draft) (id : Uuid) (h : History) : Prop where
  check : h.rule.check limits = .ok ()
  id : h.rule.id = id
  name : h.rule.name = (lastGiven Patch.name h.taken).getD d.name
  description : h.rule.description = (lastGiven Patch.description h.taken).or d.description
  effect : h.rule.effect = (lastGiven Patch.effect h.taken).getD d.effect
  endpointId : h.rule.endpointId = (lastGiven Patch.endpointId h.taken).getD d.endpointId
  conditions : Condition.ofValue ((lastGiven Patch.conditions h.taken).getD d.conditions) =
    .ok h.rule.conditions

/-- A rule that was just made is current. -/
theorem current_start {d : Draft} {id : Uuid} {r : Rule} (h : d.toRule limits id = .ok r) :
    Current limits d id (start r) := by
  obtain ⟨hname, c, hparsed, hvalid, rfl⟩ := Draft.toRule_eq_ok_iff.mp h
  exact ⟨Rule.check_eq_ok_iff.mpr ⟨hname, hvalid⟩, rfl, rfl, rfl, rfl, rfl, hparsed⟩

/-- **What is current stays current**: a patch that is taken gives the fields that it carries, and
    one that is refused gives none. -/
theorem current_step {d : Draft} {id : Uuid} {h : History} (hcur : Current limits d id h)
    (p : Patch) : Current limits d id (h.step limits p) := by
  unfold step
  split
  · rename_i r hr
    have hrev : Revision limits p h.rule r := Rule.patched_eq_ok_iff.mp hr
    refine ⟨hrev.check hcur.check, hrev.id.trans hcur.id, ?_, ?_, ?_, ?_, ?_⟩
    · rw [lastGiven_append, Option.getD_or, ← hcur.name]
      exact hrev.name
    · rw [lastGiven_append, Option.or_assoc, ← hcur.description]
      exact hrev.description
    · rw [lastGiven_append, Option.getD_or, ← hcur.effect]
      exact hrev.effect
    · rw [lastGiven_append, Option.getD_or, ← hcur.endpointId]
      exact hrev.endpointId
    · rw [lastGiven_append, Option.getD_or]
      cases htree : p.conditions with
      | none =>
          rw [Option.getD_none, hrev.keptTree htree]
          exact hcur.conditions
      | some raw => exact (hrev.newTree raw htree).1
  · exact hcur

theorem current_run {d : Draft} {id : Uuid} (ps : List Patch) :
    ∀ {h : History}, Current limits d id h → Current limits d id (h.run limits ps) := by
  induction ps with
  | nil => exact fun hcur => hcur
  | cons p ps ih => exact fun hcur => ih (current_step hcur p)

end History

/-! ## 4. What patches carry -/

/-- The patch carries the fields of a document that are there and not null. -/
structure Patch.Documented (fs : Doc.Fields) (p : Patch) : Prop where
  name : p.name = none ↔ fs.lacks "name" = true
  description : p.description = none ↔ fs.lacks "description" = true
  effect : p.effect = none ↔ fs.lacks "effect" = true
  endpointId : p.endpointId = none ↔ fs.lacks "end_point_id" = true
  conditions : p.conditions = none ↔ fs.lacks "conditions" = true

/-- **A patch that is read carries what its document gives.** -/
theorem Patch.documented_of_read? {d : Doc} {p : Patch} (h : Patch.read? d = some p) :
    ∃ fs, d.fields? Draft.fieldNames = some fs ∧ p.Documented fs := by
  have hnone {α : Type} {fs : Doc.Fields} {k : String} {read : Doc → Option α} {o : Option α}
      (ho : fs.optional k read = some o) : o = none ↔ fs.lacks k = true := by
    have hlacks : fs.optional k read = some none ↔ fs.lacks k = true :=
      Doc.Fields.optional_eq_none_iff
    rw [← hlacks, ho, Option.some.injEq]
  obtain ⟨fs, hfs, h⟩ := Option.bind_eq_some_iff.mp h
  obtain ⟨name, hname, h⟩ := Option.bind_eq_some_iff.mp h
  obtain ⟨description, hdescription, h⟩ := Option.bind_eq_some_iff.mp h
  obtain ⟨effect, heffect, h⟩ := Option.bind_eq_some_iff.mp h
  obtain ⟨endpointId, hendpointId, h⟩ := Option.bind_eq_some_iff.mp h
  obtain ⟨conditions, hconditions, h⟩ := Option.bind_eq_some_iff.mp h
  cases h
  exact ⟨fs, hfs, hnone hname, hnone hdescription, hnone heffect, hnone hendpointId,
    hnone hconditions⟩

/-- **The life of a rule.** A rule that was made from a draft is in order after any patches, has its
    identity and has in each field the value that was given last, by the patches taken or else by
    the draft. A patch is taken if what it carries is in order; one that is refused is as if it had
    not come. What a patch carries are the fields that its document gives and that are not null. -/
theorem rule_lifecycle {d : Draft} {id : Uuid} {r : Rule} (h : d.toRule limits id = .ok r) :
    (∀ ps, ((History.start r).run limits ps).Current limits d id) ∧
    (∀ ps p, (∃ r', ((History.start r).run limits ps).rule.patched limits p = .ok r') ↔
      p.InOrder limits) ∧
    (∀ ps p e, ((History.start r).run limits ps).rule.patched limits p = .error e →
      (History.start r).run limits (ps ++ [p]) = (History.start r).run limits ps) ∧
    ∀ (doc : Doc) (p : Patch), Patch.read? doc = some p →
      ∃ fs, doc.fields? Draft.fieldNames = some fs ∧ p.Documented fs := by
  refine ⟨fun ps => History.current_run ps (History.current_start h),
    fun ps p => Rule.exists_patched_iff, fun ps p e he => ?_,
    fun doc p hread => Patch.documented_of_read? hread⟩
  have happend : (History.start r).run limits (ps ++ [p]) =
      ((History.start r).run limits ps).step limits p := List.foldl_concat ..
  rw [happend, History.step, he]

/-- Would deny, but its tree is a group without conditions. -/
def emptyGroup : Patch where
  name := none
  description := none
  effect := some .deny
  endpointId := none
  conditions := some (.object [("children", .array []), ("logic_type", .string "AND")])

/-- A document of a patch that leaves the name alone. -/
def denyDoc : Doc := .ofValue (.object [("effect", .string "Deny"), ("name", .null)])

/-- The rule is renamed; the patch after that is refused for its tree, so its effect is not taken
    either. -/
theorem rule_lifecycle_guest :
    guestDraft.toRule laxLimits .zero = .ok (guestRule "guest access") ∧
    ((History.start (guestRule "guest access")).run laxLimits
      [renameTo "guests"]).rule.patched laxLimits emptyGroup =
        .error (.invalid "guests" ⟨[], ⟨none⟩, .emptyBranch .and⟩) ∧
    ((History.start (guestRule "guest access")).run laxLimits
      ([renameTo "guests"] ++ [emptyGroup])).rule = guestRule "guests" ∧
    (guestRule "guests").check laxLimits = .ok () ∧
    Patch.read? denyDoc = some ⟨none, none, some .deny, none, none⟩ ∧
    ∃ fs, denyDoc.fields? Draft.fieldNames = some fs ∧ fs.lacks "name" = true := by
  have hmade : guestDraft.toRule laxLimits .zero = .ok (guestRule "guest access") := by
    decide +kernel
  have hrenamed : ((History.start (guestRule "guest access")).run laxLimits
      [renameTo "guests"]).rule = guestRule "guests" := by decide +kernel
  have hrefused : ((History.start (guestRule "guest access")).run laxLimits
      [renameTo "guests"]).rule.patched laxLimits emptyGroup =
        .error (.invalid "guests" ⟨[], ⟨none⟩, .emptyBranch .and⟩) := by decide +kernel
  have hread : Patch.read? denyDoc = some ⟨none, none, some .deny, none, none⟩ := by decide +kernel
  obtain ⟨hcurrent, _, hunchanged, hdocumented⟩ := rule_lifecycle hmade
  have hcheck := (hcurrent [renameTo "guests"]).check
  rw [hrenamed] at hcheck
  obtain ⟨fs, hfs, hp⟩ := hdocumented denyDoc _ hread
  refine ⟨hmade, hrefused, ?_, hcheck, hread, fs, hfs, hp.name.mp rfl⟩
  rw [hunchanged _ _ _ hrefused, hrenamed]

end Gatehouse
