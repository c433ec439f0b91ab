import Gatehouse.Proofs.Decision

/-!
# The rule that decides, and the rules that do not

What this file fixes, and what it shows about `Endpoint.decide`:

* `denyThenAllow`: the rules that deny, in the order given, and then those that allow; this is the
  order in which they are tried;
* `firstMatch_append`: a scan goes on where the scan of an initial part has found nothing, and keeps
  what that has noted;
* `decide_exact`: the first rule that matches in this order decides, with the failures before it
  noted, and where none matches the endpoint decides, with all failures noted;
* `exists_triedOrder_insert`: a rule added anywhere is tried somewhere between the others;
* `decide_monotone`: a rule more that denies never lets a request in, a rule more that allows never
  keeps one out, and a rule that does not match decides nothing.
-/

namespace Gatehouse

/-! ## 1. The order of trial -/

/-- The rules that deny, and then the rules that allow, both in the order given. -/
def denyThenAllow (rules : List Rule) : List Rule :=
  (rules.filter fun r => r.effect == .deny) ++ rules.filter fun r => r.effect == .allow

theorem triedOrder_eq (rules : List Rule) : triedOrder rules = denyThenAllow rules := by
  simp only [triedOrder, denyThenAllow, Rule.effect_bne_deny]

/-- A rule that is added anywhere is tried somewhere between the others, which keep their order. -/
theorem exists_triedOrder_insert (before after : List Rule) (r : Rule) :
    ∃ earlier later, triedOrder (before ++ after) = earlier ++ later ∧
      triedOrder (before ++ r :: after) = earlier ++ r :: later := by
  simp only [triedOrder_eq, denyThenAllow, List.filter_append]
  cases he : r.effect with
  | deny =>
    refine ⟨before.filter fun r => r.effect == .deny,
      (after.filter fun r => r.effect == .deny) ++
        ((before.filter fun r => r.effect == .allow) ++ after.filter fun r => r.effect == .allow),
      ?_, ?_⟩
    · rw [List.append_assoc]
    · simp [he]
  | allow =>
    refine ⟨(before.filter fun r => r.effect == .deny) ++ (after.filter fun r => r.effect == .deny)
        ++ before.filter fun r => r.effect == .allow,
      after.filter fun r => r.effect == .allow, ?_, ?_⟩
    · rw [List.append_assoc _ (before.filter _)]
    · simp [he]

/-! ## 2. Scans of parts -/

/-- **A scan of two lists** ends in the first if a rule matches there; else it goes on in the second,
    behind the failures noted in the first. -/
theorem firstMatch_append (ctx : Context) (rs rs' : List Rule) : firstMatch ctx (rs ++ rs') =
    match firstMatch ctx rs with
    | (some r, fs) => (some r, fs)
    | (none, fs) => ((firstMatch ctx rs').1, fs ++ (firstMatch ctx rs').2) := by
  induction rs with
  | nil => rfl
  | cons r rs ih =>
    rw [List.cons_append, firstMatch, firstMatch]
    cases r.conditions.evaluate ctx with
    | ok b =>
      cases b with
      | true => rfl
      | false => exact ih
    | error x =>
      simp only [ih]
      cases firstMatch ctx rs with
      | mk m fs => cases m <;> rfl

/-- The scan stops at the first rule that matches. -/
theorem firstMatch_of_first {ctx : Context} {earlier later : List Rule} {r : Rule}
    (hearlier : ∀ q ∈ earlier, ¬ q.Matches ctx) (hr : r.Matches ctx) :
    firstMatch ctx (earlier ++ r :: later) =
      (some r, earlier.filterMap (Rule.failure? ctx)) := by
  have hstop : firstMatch ctx (r :: later) = (some r, []) := by
    rw [firstMatch, hr]
  rw [firstMatch_append, firstMatch_of_no_match hearlier, hstop]
  simp only [List.append_nil]

/-- A rule that does not hold is passed over. -/
theorem firstMatch_insert_of_false {ctx : Context} {r : Rule}
    (hr : r.conditions.evaluate ctx = .ok false) (earlier later : List Rule) :
    firstMatch ctx (earlier ++ r :: later) = firstMatch ctx (earlier ++ later) := by
  have hskip : firstMatch ctx (r :: later) = firstMatch ctx later := by
    rw [firstMatch, hr]
  rw [firstMatch_append, firstMatch_append, hskip]

/-- A rule that fails is passed over as well; its failure is noted if the scan comes to it. -/
theorem firstMatch_insert_of_fails {ctx : Context} {r : Rule} {x : EvalError} (hr : r.Fails ctx x)
    (earlier later : List Rule) :
    (firstMatch ctx (earlier ++ r :: later)).1 = (firstMatch ctx (earlier ++ later)).1 ∧
    ((firstMatch ctx (earlier ++ r :: later)).2 = (firstMatch ctx (earlier ++ later)).2 ∨
      ∃ fs gs, (firstMatch ctx (earlier ++ later)).2 = fs ++ gs ∧
        (firstMatch ctx (earlier ++ r :: later)).2 = fs ++ ⟨r.ref, x⟩ :: gs) := by
  have hnote : firstMatch ctx (r :: later) =
      ((firstMatch ctx later).1, ⟨r.ref, x⟩ :: (firstMatch ctx later).2) := by
    rw [firstMatch, hr]
  rw [firstMatch_append, firstMatch_append, hnote]
  obtain ⟨m, fs⟩ := firstMatch ctx earlier
  cases m with
  | some q => exact ⟨rfl, Or.inl rfl⟩
  | none => exact ⟨rfl, Or.inr ⟨fs, _, rfl, rfl⟩⟩

/-! ## 3. The exact decision -/

/-- The outcome that a rule decides for. -/
def Effect.outcome : Effect → Outcome
  | .allow => .allowed
  | .deny => .denied

namespace Decision

theorem outcome_ofRule (r : Rule) (errors : List RuleFailure) :
    (ofRule r errors).outcome = r.effect.outcome := by
  cases h : r.effect with
  | allow => rw [ofRule_of_allow h, Effect.outcome]
  | deny => rw [ofRule_of_deny h, Effect.outcome]

theorem outcome_ofEndpoint (e : Endpoint) (errors : List RuleFailure) :
    (ofEndpoint e errors).outcome = if e.denyUnauthorized then .denied else .allowed := by
  unfold ofEndpoint
  split <;> rfl

/-- A rule decides the same whatever has been noted. -/
theorem ofRule_says (r : Rule) (fs gs : List RuleFailure) :
    (ofRule r gs).outcome = (ofRule r fs).outcome ∧
    (ofRule r gs).matchedRule = (ofRule r fs).matchedRule ∧
    (ofRule r gs).reason = (ofRule r fs).reason := by
  unfold ofRule
  split <;> exact ⟨rfl, rfl, rfl⟩

/-- So does an endpoint. -/
theorem ofEndpoint_says (e : Endpoint) (fs gs : List RuleFailure) :
    (ofEndpoint e gs).outcome = (ofEndpoint e fs).outcome ∧
    (ofEndpoint e gs).matchedRule = (ofEndpoint e fs).matchedRule ∧
    (ofEndpoint e gs).reason = (ofEndpoint e fs).reason := by
  unfold ofEndpoint
  split <;> exact ⟨rfl, rfl, rfl⟩

end Decision

namespace Endpoint

/-- **The exact decision.** The rules that deny are tried before those that allow. The first that
    matches is named and decides by its effect, and the rules noted are those before it that cannot
    be evaluated, in order and each with its own error. If none matches, none is named, the endpoint
    decides by its flag, and all rules that cannot be evaluated are noted. -/
theorem decide_exact (e : Endpoint) (rules : List Rule) (ctx : Context) :
    (∀ earlier r later, denyThenAllow rules = earlier ++ r :: later →
      (∀ q ∈ earlier, ¬ q.Matches ctx) → r.Matches ctx →
      (e.decide rules ctx).matchedRule = some r.ref ∧
        (e.decide rules ctx).outcome = r.effect.outcome ∧
        (e.decide rules ctx).errors = earlier.filterMap (Rule.failure? ctx)) ∧
    ((∀ r ∈ rules, ¬ r.Matches ctx) →
      (e.decide rules ctx).matchedRule = none ∧
        (e.decide rules ctx).outcome = (if e.denyUnauthorized then .denied else .allowed) ∧
        (e.decide rules ctx).errors = (denyThenAllow rules).filterMap (Rule.failure? ctx)) := by
  constructor
  · intro earlier r later horder hearlier hr
    have hdecide : e.decide rules ctx =
        .ofRule r (earlier.filterMap (Rule.failure? ctx)) := by
      rw [Endpoint.decide, triedOrder_eq, horder, firstMatch_of_first hearlier hr]
    rw [hdecide]
    exact ⟨Decision.matchedRule_ofRule _ _, Decision.outcome_ofRule _ _,
      Decision.errors_ofRule _ _⟩
  · intro hno
    have hdecide : e.decide rules ctx =
        .ofEndpoint e ((denyThenAllow rules).filterMap (Rule.failure? ctx)) := by
      rw [Endpoint.decide, firstMatch_of_no_match fun r hr => hno r (mem_triedOrder.mp hr),
        triedOrder_eq]
    rw [hdecide]
    exact ⟨Decision.matchedRule_ofEndpoint _ _, Decision.outcome_ofEndpoint _ _,
      Decision.errors_ofEndpoint _ _⟩

/-- A rule about subjects with the given value of a claim. -/
def claimRule (claim wanted : String) (effect : Effect) : Rule where
  id := .zero
  name := claim ++ " " ++ wanted
  description := none
  effect := effect
  endpointId := .zero
  conditions := .leaf ⟨⟨"subject." ++ claim⟩, .equals, .literal (.string wanted), none⟩ none

/-- The failure of a rule whose claim is not known. -/
def unknownClaim (claim wanted : String) (effect : Effect) : RuleFailure :=
  ⟨(claimRule claim wanted effect).ref, .missingAttribute ⟨"subject." ++ claim⟩ .equals⟩

/-- An editor of whom nothing else is known. -/
def editorContext : Context := ⟨[("role", .string "editor")], [], [], [], [], []⟩

/-- Denies what its rules do not allow. -/
def draftsEndpoint : Endpoint := ⟨.zero, .get, "/drafts", true, none⟩

/-- The rule for editors decides, though it is given first: the rule about the tenant has failed
    before it, and the one about the group is not looked at. Without it both fail, and the endpoint
    decides. -/
theorem decide_exact_editor :
    denyThenAllow [claimRule "role" "editor" .allow, claimRule "group" "staff" .allow,
        claimRule "tenant" "north" .deny, claimRule "role" "guest" .deny] =
      [claimRule "tenant" "north" .deny, claimRule "role" "guest" .deny] ++
        claimRule "role" "editor" .allow :: [claimRule "group" "staff" .allow] ∧
    (∀ q ∈ [claimRule "tenant" "north" .deny, claimRule "role" "guest" .deny],
      ¬ q.Matches editorContext) ∧
    (claimRule "role" "editor" .allow).Matches editorContext ∧
    (draftsEndpoint.decide [claimRule "role" "editor" .allow, claimRule "group" "staff" .allow,
      claimRule "tenant" "north" .deny, claimRule "role" "guest" .deny] editorContext).errors =
        [unknownClaim "tenant" "north" .deny] ∧
    (∀ q ∈ [claimRule "group" "staff" .allow, claimRule "tenant" "north" .deny],
      ¬ q.Matches editorContext) ∧
    (draftsEndpoint.decide [claimRule "group" "staff" .allow, claimRule "tenant" "north" .deny]
      editorContext).errors =
        [unknownClaim "tenant" "north" .deny, unknownClaim "group" "staff" .allow] := by
  have horder : denyThenAllow [claimRule "role" "editor" .allow, claimRule "group" "staff" .allow,
        claimRule "tenant" "north" .deny, claimRule "role" "guest" .deny] =
      [claimRule "tenant" "north" .deny, claimRule "role" "guest" .deny] ++
        claimRule "role" "editor" .allow :: [claimRule "group" "staff" .allow] := rfl
  have hearlier : ∀ q ∈ [claimRule "tenant" "north" .deny, claimRule "role" "guest" .deny],
      ¬ q.Matches editorContext := by
    decide +kernel
  have hmatches : (claimRule "role" "editor" .allow).Matches editorContext := by decide +kernel
  have hnone : ∀ q ∈ [claimRule "group" "staff" .allow, claimRule "tenant" "north" .deny],
      ¬ q.Matches editorContext := by
    decide +kernel
  obtain ⟨_, _, hnoted⟩ := (draftsEndpoint.decide_exact _ _).1 _ _ _ horder hearlier hmatches
  obtain ⟨_, _, hall⟩ := (draftsEndpoint.decide_exact _ _).2 hnone
  exact ⟨horder, hearlier, hmatches, hnoted.trans (by decide +kernel), hnone,
    hall.trans (by decide +kernel)⟩

/-! ## 4. One rule more -/

/-- What is decided depends on the rule found only; the rules noted play no part. -/
theorem decide_says {rules rules' : List Rule} {ctx : Context} (h :
    (firstMatch ctx (triedOrder rules')).1 = (firstMatch ctx (triedOrder rules)).1) (e : Endpoint) :
    (e.decide rules' ctx).outcome = (e.decide rules ctx).outcome ∧
    (e.decide rules' ctx).matchedRule = (e.decide rules ctx).matchedRule ∧
    (e.decide rules' ctx).reason = (e.decide rules ctx).reason := by
  unfold Endpoint.decide
  generalize firstMatch ctx (triedOrder rules') = x at h ⊢
  generalize firstMatch ctx (triedOrder rules) = y at h ⊢
  obtain ⟨m, gs⟩ := x
  obtain ⟨_, fs⟩ := y
  obtain rfl := h
  cases m with
  | none => exact Decision.ofEndpoint_says e fs gs
  | some r => exact Decision.ofRule_says r fs gs

theorem mem_insert {before after : List Rule} {r q : Rule} :
    q ∈ before ++ r :: after ↔ q = r ∨ q ∈ before ++ after :=
  List.perm_middle.mem_iff.trans List.mem_cons

/-- A request that is let in with a rule more that denies is let in without it. -/
theorem isAllowed_of_insert_deny {e : Endpoint} {before after : List Rule} {r : Rule}
    {ctx : Context} (hr : r.effect = .deny)
    (h : (e.decide (before ++ r :: after) ctx).isAllowed = true) :
    (e.decide (before ++ after) ctx).isAllowed = true := by
  rw [isAllowed_decide_iff] at h ⊢
  obtain ⟨hdeny, hallow⟩ := h
  refine ⟨fun q hq => hdeny q (mem_insert.mpr (Or.inr hq)), ?_⟩
  rcases hallow with ⟨q, hq, heffect, hmatches⟩ | hflag
  · left
    rcases mem_insert.mp hq with rfl | hq
    · rw [hr] at heffect
      cases heffect
    · exact ⟨q, hq, heffect, hmatches⟩
  · exact Or.inr hflag

/-- A request that is let in is let in with a rule more that allows. -/
theorem isAllowed_insert_allow {e : Endpoint} {before after : List Rule} {r : Rule}
    {ctx : Context} (hr : r.effect = .allow)
    (h : (e.decide (before ++ after) ctx).isAllowed = true) :
    (e.decide (before ++ r :: after) ctx).isAllowed = true := by
  rw [isAllowed_decide_iff] at h ⊢
  obtain ⟨hdeny, hallow⟩ := h
  constructor
  · intro q hq heffect
    rcases mem_insert.mp hq with rfl | hq
    · rw [hr] at heffect
      cases heffect
    · exact hdeny q hq heffect
  · rcases hallow with ⟨q, hq, hmatches⟩ | hflag
    · exact Or.inl ⟨q, mem_insert.mpr (Or.inr hq), hmatches⟩
    · exact Or.inr hflag

/-- **A rule more.** Wherever it is added, a rule that denies never lets a request in that was kept
    out, and a rule that allows never keeps one out that was let in. A rule that does not hold
    changes nothing, and a rule that cannot be evaluated nothing but the notes, to which its failure
    may be added. -/
theorem decide_monotone (e : Endpoint) (before after : List Rule) (r : Rule) (ctx : Context) :
    (r.effect = .deny → (e.decide (before ++ after) ctx).outcome = .denied →
      (e.decide (before ++ r :: after) ctx).outcome = .denied) ∧
    (r.effect = .allow → (e.decide (before ++ after) ctx).outcome = .allowed →
      (e.decide (before ++ r :: after) ctx).outcome = .allowed) ∧
    (r.conditions.evaluate ctx = .ok false →
      e.decide (before ++ r :: after) ctx = e.decide (before ++ after) ctx) ∧
    ∀ x, r.Fails ctx x →
      (e.decide (before ++ r :: after) ctx).outcome = (e.decide (before ++ after) ctx).outcome ∧
      (e.decide (before ++ r :: after) ctx).matchedRule =
        (e.decide (before ++ after) ctx).matchedRule ∧
      (e.decide (before ++ r :: after) ctx).reason = (e.decide (before ++ after) ctx).reason ∧
      ((e.decide (before ++ r :: after) ctx).errors = (e.decide (before ++ after) ctx).errors ∨
        ∃ fs gs, (e.decide (before ++ after) ctx).errors = fs ++ gs ∧
          (e.decide (before ++ r :: after) ctx).errors = fs ++ ⟨r.ref, x⟩ :: gs) := by
  obtain ⟨earlier, later, hold, hnew⟩ := exists_triedOrder_insert before after r
  refine ⟨fun hr h => ?_, fun hr h => ?_, fun hr => ?_, fun x hr => ?_⟩
  · rw [Decision.outcome_eq_denied_iff] at h ⊢
    exact fun hallowed => h (isAllowed_of_insert_deny hr hallowed)
  · rw [← Decision.isAllowed_iff] at h ⊢
    exact isAllowed_insert_allow hr h
  · rw [Endpoint.decide, Endpoint.decide, hold, hnew, firstMatch_insert_of_false hr]
  · obtain ⟨hfound, hnoted⟩ := firstMatch_insert_of_fails hr earlier later
    rw [← hold, ← hnew] at hfound hnoted
    rw [← errors_decide e, ← errors_decide e] at hnoted
    obtain ⟨houtcome, hmatched, hreason⟩ := decide_says hfound e
    exact ⟨houtcome, hmatched, hreason, hnoted⟩

/-- Where the rule for editors lets an editor in, a rule that denies guests does not hold and
    changes nothing, a rule about the tenant fails and decides nothing, and one more rule that allows
    keeps no one out. Where nothing lets the editor in, neither does a rule that denies. -/
theorem decide_monotone_editor :
    (claimRule "role" "guest" .deny).conditions.evaluate editorContext = .ok false ∧
    draftsEndpoint.decide
        [claimRule "role" "editor" .allow, claimRule "role" "guest" .deny] editorContext =
      draftsEndpoint.decide [claimRule "role" "editor" .allow] editorContext ∧
    (claimRule "tenant" "north" .deny).Fails editorContext
      (.missingAttribute ⟨"subject.tenant"⟩ .equals) ∧
    (draftsEndpoint.decide [claimRule "role" "editor" .allow, claimRule "tenant" "north" .deny]
      editorContext).reason = "access granted by policy 'role editor'" ∧
    (draftsEndpoint.decide [claimRule "role" "editor" .allow] editorContext).outcome = .allowed ∧
    (draftsEndpoint.decide [claimRule "group" "staff" .allow, claimRule "role" "editor" .allow]
      editorContext).outcome = .allowed ∧
    (draftsEndpoint.decide [claimRule "group" "staff" .allow] editorContext).outcome = .denied ∧
    (draftsEndpoint.decide [claimRule "role" "editor" .deny, claimRule "group" "staff" .allow]
      editorContext).outcome = .denied := by
  have hfalse : (claimRule "role" "guest" .deny).conditions.evaluate editorContext = .ok false := by
    decide +kernel
  have hfails : (claimRule "tenant" "north" .deny).Fails editorContext
      (.missingAttribute ⟨"subject.tenant"⟩ .equals) := by
    unfold Rule.Fails
    decide +kernel
  have hallowed : (draftsEndpoint.decide [claimRule "role" "editor" .allow] editorContext).outcome =
      .allowed := by
    decide +kernel
  have hdenied : (draftsEndpoint.decide [claimRule "group" "staff" .allow] editorContext).outcome =
      .denied := by
    decide +kernel
  have hsame := (draftsEndpoint.decide_monotone [claimRule "role" "editor" .allow] [] _ _).2.2.1
    hfalse
  obtain ⟨_, _, hreason, _⟩ :=
    (draftsEndpoint.decide_monotone [claimRule "role" "editor" .allow] [] _ _).2.2.2 _ hfails
  have hstill := (draftsEndpoint.decide_monotone [] [claimRule "role" "editor" .allow]
    (claimRule "group" "staff" .allow) editorContext).2.1 rfl hallowed
  have hkept := (draftsEndpoint.decide_monotone [] [claimRule "group" "staff" .allow]
    (claimRule "role" "editor" .deny) editorContext).1 rfl hdenied
  exact ⟨hfalse, hsame, hfails, hreason.trans (by decide +kernel), hallowed, hstill, hdenied, hkept⟩

end Endpoint

end Gatehouse
