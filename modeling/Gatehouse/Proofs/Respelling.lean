import Gatehouse.Proofs.Condition.Walk
import Gatehouse.Proofs.Decision
import Gatehouse.Proofs.Resolution
import Gatehouse.Proofs.Value.Respelling

/-!
# Spelling does not matter

What this file fixes, and what it shows:

* `Context.Respelled`, `Rule.Respelled`: two contexts, two rules that differ only in how small
  numbers and UUIDs are spelled, in attribute values and in literals;
* `resolve_respelled`: a path leads in both contexts to values that differ in spelling only, also
  where it fans out over a list;
* `apply_respelled`, `evaluate_respelled`: no operator tells such values apart, and so no tree does;
* `decide_respelled`: every rule has the same outcome, and the decision is the same.
-/

namespace Gatehouse

/-! ## 1. Resolution -/

/-- Both lead nowhere, or to values that differ in spelling only. -/
inductive Resolved.Respelled : Resolved → Resolved → Prop
  | absent : Respelled .absent .absent
  | present {a b : Value} : a.Respelled b → Respelled (.present a) (.present b)

theorem Resolved.respelled_ofOption {x y : Option Value} (h : Option.Rel Value.Respelled x y) :
    (Resolved.ofOption x).Respelled (Resolved.ofOption y) := by
  cases h with
  | none => exact .absent
  | some hab => exact .present hab

theorem Resolved.Respelled.isNull_eq {x y : Resolved} (h : x.Respelled y) :
    x.isNull = y.isNull := by
  cases h with
  | absent => rfl
  | present hab => cases hab <;> rfl

namespace Value

theorem Respelled.child? {a b : Value} (h : a.Respelled b) (key : String) :
    Option.Rel Respelled (a.child? key) (b.child? key) := by
  cases h with
  | null | bool | number | string => exact .none
  | object hentries => exact hentries.lookup key
  | array hitems =>
      unfold Value.child?
      cases listIndex? key with
      | none => exact .none
      | some i => exact hitems.getElem? i

/-- The same steps can be taken from both values. -/
theorem Respelled.descend? : ∀ (items : List Item) {a b : Value}, a.Respelled b →
    Option.Rel Respelled (a.descend? items) (b.descend? items)
  | [], _, _, h => .some h
  | .error _ :: _, _, _, _ => .none
  | .ok (.key k) :: rest, a, b, h => by
      rw [Value.descend?, Value.descend?]
      exact optionRel_bind (h.child? k) fun hxy => Respelled.descend? rest hxy
  | .ok .wildcard :: rest, _, _, h => by
      cases h with
      | null | bool | number | string | object => exact .none
      | array hitems => exact .some (.array (hitems.filterMap (Respelled.descend? rest)))

end Value

namespace Context

variable {ctx ctx' : Context}

/-- The contexts have the same keys, and values that differ in spelling only. -/
def Respelled (ctx ctx' : Context) : Prop :=
  ∀ n, Value.RespelledEntries (ctx.attributes n) (ctx'.attributes n)

theorem respelled_header? {hs hs' : Attributes} (h : Value.RespelledEntries hs hs')
    (name : String) : Option.Rel Value.Respelled (header? hs name) (header? hs' name) := by
  have hexact := h.lookup name
  unfold header?
  generalize hs.lookup name = x at hexact ⊢
  generalize hs'.lookup name = y at hexact ⊢
  cases hexact with
  | some hab => exact .some hab
  | none => exact h.find? fun k => Text.sameIgnoringCase k name

theorem Respelled.entry? (h : ctx.Respelled ctx') (n : Namespace) (key : String) :
    Option.Rel Value.Respelled (ctx.entry? n key) (ctx'.entry? n key) := by
  cases n with
  | header => exact respelled_header? (h .header) key
  | subject => exact (h .subject).lookup key
  | resource => exact (h .resource).lookup key
  | path => exact (h .path).lookup key
  | body => exact (h .body).lookup key
  | query => exact (h .query).lookup key

/-- **A path leads to values that differ in spelling only.** -/
theorem resolve_respelled (h : ctx.Respelled ctx') (p : Path) :
    (ctx.resolve p).Respelled (ctx'.resolve p) := by
  cases hroot : p.root? with
  | none =>
      rw [resolve_of_no_root hroot, resolve_of_no_root hroot]
      exact .absent
  | some e =>
      obtain ⟨n, k⟩ := e
      rw [resolve_of_root hroot, resolve_of_root hroot]
      apply Resolved.respelled_ofOption
      exact optionRel_bind (h.entry? n k) fun hab => hab.descend? p.items.tail

end Context

/-! ## 2. Operators -/

/-- The operands are the same but for the spelling of values. -/
structure Operands.Respelled (x y : Operands) : Prop where
  path : x.path = y.path
  value : x.value.Respelled y.value
  comparandPath : x.comparandPath = y.comparandPath
  comparand : Option.Rel Resolved.Respelled x.comparand y.comparand

namespace Operands

variable {x y : Operands}

/-- The comparand cannot be had for the same reason, or its values differ in spelling only. -/
theorem Respelled.comparandValue (h : x.Respelled y) (o : Operator) :
    (∃ e, x.comparandValue o = .error e ∧ y.comparandValue o = .error e) ∨
    ∃ v w, x.comparandValue o = .ok v ∧ y.comparandValue o = .ok w ∧ v.Respelled w := by
  have hcomparand := h.comparand
  unfold Operands.comparandValue
  rw [h.path, h.comparandPath]
  generalize x.comparand = c at hcomparand ⊢
  generalize y.comparand = d at hcomparand ⊢
  cases hcomparand with
  | none => exact Or.inl ⟨_, rfl, rfl⟩
  | some hcd =>
      cases hcd with
      | absent => exact Or.inl ⟨_, rfl, rfl⟩
      | present hvw => exact Or.inr ⟨_, _, rfl, rfl, hvw⟩

/-- A test of the comparand's value that is blind to spelling has the same outcome. -/
theorem Respelled.map_comparandValue (h : x.Respelled y) (o : Operator) {f g : Value → Bool}
    (hfg : ∀ {v w : Value}, v.Respelled w → f v = g w) :
    (x.comparandValue o).map f = (y.comparandValue o).map g := by
  rcases h.comparandValue o with ⟨e, hx, hy⟩ | ⟨v, w, hx, hy, hvw⟩
  · rw [hx, hy]
    rfl
  · rw [hx, hy, Except.map, Except.map, hfg hvw]

theorem Respelled.sidesAgree_eq (h : x.Respelled y) (o : Operator) :
    x.sidesAgree o = y.sidesAgree o := by
  have hvalue := h.value
  unfold sidesAgree
  rw [h.path]
  generalize x.value = u at hvalue ⊢
  generalize y.value = v at hvalue ⊢
  cases hvalue with
  | absent => rfl
  | present hab => exact h.map_comparandValue o fun hvw => hab.agrees_eq hvw

theorem any_agrees_eq {as bs : List Value} (h : Value.RespelledItems as bs) {v w : Value}
    (hvw : v.Respelled w) : (as.any fun a => a.agrees v) = bs.any fun b => b.agrees w :=
  match h with
  | .nil => rfl
  | .cons hab hrest => by
      rw [List.any_cons, List.any_cons, hab.agrees_eq hvw, any_agrees_eq hrest hvw]

theorem Respelled.listContains_eq (h : x.Respelled y) : x.listContains = y.listContains := by
  have hvalue := h.value
  unfold listContains
  rw [h.path]
  generalize x.value = u at hvalue ⊢
  generalize y.value = v at hvalue ⊢
  cases hvalue with
  | absent => rfl
  | present hab =>
      cases hab with
      | null | bool | number | string | object => rfl
      | array hitems => exact h.map_comparandValue .contains fun hvw => any_agrees_eq hitems hvw

/-- **No operator tells spellings apart**, in its outcomes or in its errors. -/
theorem Respelled.apply_eq (h : x.Respelled y) (o : Operator) : o.apply x = o.apply y := by
  cases o with
  | equals => exact h.sidesAgree_eq .equals
  | notEquals => rw [Operator.apply, Operator.apply, h.sidesAgree_eq]
  | isNull => rw [Operator.apply, Operator.apply, h.value.isNull_eq]
  | isNotNull => rw [Operator.apply, Operator.apply, h.value.isNull_eq]
  | contains => exact h.listContains_eq

end Operands

/-! ## 3. Trees -/

/-- The comparands are the same but for the spelling of a literal. -/
inductive Comparand.Respelled : Comparand → Comparand → Prop
  | absent : Respelled .absent .absent
  | literal {v w : Value} : v.Respelled w → Respelled (.literal v) (.literal w)
  | path (p : Path) : Respelled (.path p) (.path p)

namespace Condition

mutual

/-- The trees are the same but for the spelling of literals. -/
inductive Respelled : Condition → Condition → Prop
  | leaf {p : Path} {o : Operator} {c c' : Comparand} {note d : Option String} :
      c.Respelled c' → Respelled (.leaf ⟨p, o, c, note⟩ d) (.leaf ⟨p, o, c', note⟩ d)
  | branch {logic : Logic} {cs cs' : List Condition} {d : Option String} :
      RespelledChildren cs cs' → Respelled (.branch logic cs d) (.branch logic cs' d)

/-- The trees are the same one by one but for the spelling of literals. -/
inductive RespelledChildren : List Condition → List Condition → Prop
  | nil : RespelledChildren [] []
  | cons {c c' : Condition} {cs cs' : List Condition} : Respelled c c' →
      RespelledChildren cs cs' → RespelledChildren (c :: cs) (c' :: cs')

end

variable {ctx ctx' : Context}

theorem operands_respelled (hctx : ctx.Respelled ctx') {c c' : Comparand} (h : c.Respelled c')
    (p : Path) (o : Operator) (note : Option String) :
    (Leaf.operands ctx ⟨p, o, c, note⟩).Respelled (Leaf.operands ctx' ⟨p, o, c', note⟩) where
  path := rfl
  value := Context.resolve_respelled hctx p
  comparandPath := by cases h <;> rfl
  comparand := by
    cases h with
    | absent => exact .none
    | literal hvw => exact .some (.present hvw)
    | path q => exact .some (Context.resolve_respelled hctx q)

mutual

/-- **A tree has the same outcome, or the same error**, when contexts and literals are spelled
    differently. -/
theorem Respelled.evaluate_eq (hctx : ctx.Respelled ctx') {c c' : Condition} (h : c.Respelled c') :
    c.evaluate ctx = c'.evaluate ctx' :=
  match h with
  | .leaf hc => by
      rw [evaluate, evaluate, Leaf.evaluate, Leaf.evaluate,
        (operands_respelled hctx hc _ _ _).apply_eq]
  | .branch .nil => by rw [evaluate, evaluate]
  | @Respelled.branch logic _ _ _ (.cons hc hrest) => by
      rw [evaluate_branch, evaluate_branch, RespelledChildren.walk_eq hctx logic (.cons hc hrest)]

theorem RespelledChildren.walk_eq (hctx : ctx.Respelled ctx') (logic : Logic)
    {cs cs' : List Condition} (h : RespelledChildren cs cs') :
    walk ctx logic cs = walk ctx' logic cs' :=
  match h with
  | .nil => rfl
  | .cons hc hrest => by
      rw [walk, walk, Respelled.evaluate_eq hctx hc, RespelledChildren.walk_eq hctx logic hrest]

end

end Condition

/-! ## 4. Decisions -/

/-- The rules are the same but for the spelling of literals in their conditions. -/
def Rule.Respelled (r r' : Rule) : Prop :=
  r.conditions.Respelled r'.conditions ∧ r' = { r with conditions := r'.conditions }

/-- A rule and its respelling give the same verdict. -/
theorem Rule.Respelled.sameVerdict {ctx ctx' : Context} (hctx : ctx.Respelled ctx') {r r' : Rule}
    (h : r.Respelled r') : SameVerdict ctx ctx' r r' where
  ref := by
    rw [h.2]
    rfl
  evaluate := h.1.evaluate_eq hctx

/-- **Spelling does not matter**: where contexts and literals differ only in how UUIDs and integers
    below `2^53` are spelled, every rule has the same outcome or the same error, and the decision
    is the same down to the failures noted. -/
theorem decide_respelled {rules rules' : List Rule} {ctx ctx' : Context}
    (hrules : List.Forall₂ Rule.Respelled rules rules') (hctx : ctx.Respelled ctx')
    (e : Endpoint) :
    List.Forall₂ (fun r r' => r.conditions.evaluate ctx = r'.conditions.evaluate ctx')
      rules rules' ∧
    e.decide rules ctx = e.decide rules' ctx' := by
  have hverdicts : List.Forall₂ (SameVerdict ctx ctx') rules rules' :=
    hrules.imp fun _ _ hr => hr.sameVerdict hctx
  exact ⟨hverdicts.imp fun _ _ hr => hr.evaluate, Endpoint.decide_of_sameVerdict hverdicts e⟩

/-! ## One badge in several spellings -/

/-- A subject's profile, as it spells its identifier and its level. -/
def profileOf (id : String) (level : Number) : Value :=
  .object [("id", .string id), ("levels", .array [.number level])]

/-- Allows the profile of a badge, and denies to the leads of a team who have it. -/
def badgeRules (badge : String) (level : Number) : List Rule :=
  [⟨.zero, "profile of badge", none, .allow, .zero,
      .leaf ⟨⟨"subject.profile"⟩, .equals, .literal (profileOf badge level), none⟩ none⟩,
    ⟨.zero, "lead with badge", none, .deny, .zero,
      .leaf ⟨⟨"subject.teams[*].lead"⟩, .contains, .literal (.string badge), none⟩ none⟩]

/-- The request of a subject with two teams, one of which has a lead. -/
def badgeRequest (id : String) (level : Number) : Context where
  subject :=
    [("profile", profileOf id level),
      ("teams", .array [.object [], .object [("lead", .string id)]])]
  resource := []
  path := []
  body := []
  query := []
  header := []

/-- Lets everyone pass whom no rule stops. -/
def profileEndpoint : Endpoint := ⟨.zero, .get, "/profile", false, none⟩

/-- A badge in upper case and braces, or after `urn:uuid:`, is the same badge, and the level `3.0`
    is the level `3`: a lead is denied by the same rule in all spellings. -/
theorem decide_respelled_badge :
    List.Forall₂ Rule.Respelled (badgeRules "6f1c2a1e8b0d4c3a9f5e2d7b8c9a0e11" (.int 3))
      (badgeRules "urn:uuid:6f1c2a1e-8b0d-4c3a-9f5e-2d7b8c9a0e11" (.double (.ofInt 3))) ∧
    (badgeRequest "6f1c2a1e8b0d4c3a9f5e2d7b8c9a0e11" (.double (.ofInt 3))).Respelled
      (badgeRequest "\x7b6F1C2A1E-8B0D-4C3A-9F5E-2D7B8C9A0E11\x7d" (.int 3)) ∧
    (profileEndpoint.decide
      (badgeRules "urn:uuid:6f1c2a1e-8b0d-4c3a-9f5e-2d7b8c9a0e11" (.double (.ofInt 3)))
      (badgeRequest "\x7b6F1C2A1E-8B0D-4C3A-9F5E-2D7B8C9A0E11\x7d" (.int 3))).reason =
        "access denied by policy 'lead with badge'" := by
  have hvalue : (Double.ofInt 3).value = (3 : Int) := Double.value_ofInt (by decide)
  have hurn : TextRespelled "6f1c2a1e8b0d4c3a9f5e2d7b8c9a0e11"
      "urn:uuid:6f1c2a1e-8b0d-4c3a-9f5e-2d7b8c9a0e11" :=
    textRespelled_iff.mpr (by decide +kernel)
  have hbraces : TextRespelled "6f1c2a1e8b0d4c3a9f5e2d7b8c9a0e11"
      "\x7b6F1C2A1E-8B0D-4C3A-9F5E-2D7B8C9A0E11\x7d" :=
    textRespelled_iff.mpr (by decide +kernel)
  have hprofile {id id' : String} {m n : Number} (hid : TextRespelled id id')
      (hlevel : m.Respelled n) : (profileOf id m).Respelled (profileOf id' n) :=
    .object (.cons (.string hid) (.cons (.array (.cons (.number hlevel) .nil)) .nil))
  have hrules : List.Forall₂ Rule.Respelled
      (badgeRules "6f1c2a1e8b0d4c3a9f5e2d7b8c9a0e11" (.int 3))
      (badgeRules "urn:uuid:6f1c2a1e-8b0d-4c3a-9f5e-2d7b8c9a0e11" (.double (.ofInt 3))) :=
    .cons ⟨.leaf (.literal (hprofile hurn (.toDouble (by decide) hvalue))), rfl⟩
      (.cons ⟨.leaf (.literal (.string hurn)), rfl⟩ .nil)
  have hctx : (badgeRequest "6f1c2a1e8b0d4c3a9f5e2d7b8c9a0e11" (.double (.ofInt 3))).Respelled
      (badgeRequest "\x7b6F1C2A1E-8B0D-4C3A-9F5E-2D7B8C9A0E11\x7d" (.int 3)) := by
    intro n
    cases n with
    | subject =>
        exact .cons (hprofile hbraces (.toInt (by decide) hvalue)) (.cons (.array (.cons
          (.object .nil) (.cons (.object (.cons (.string hbraces) .nil)) .nil))) .nil)
    | resource | path | body | query | header => exact .nil
  refine ⟨hrules, hctx, ?_⟩
  rw [← (decide_respelled hrules hctx profileEndpoint).2]
  decide +kernel

end Gatehouse
