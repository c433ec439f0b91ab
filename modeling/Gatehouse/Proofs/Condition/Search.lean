import Gatehouse.Proofs.Resolution.Nesting

/-!
# Searches through one wildcard

What this file fixes, and what it shows:

* `Path.FansOutOver`: a path is another one without wildcards, a wildcard, and keys;
  `exists_fansOutOver_iff`: these are the well-formed paths with one wildcard;
* `resolve_of_fansOutOver`: such a path leads to what the keys select from the items of the list that
  the other path leads to;
* `Leaf.Finds`: an item of a list has a value at the keys that agrees with the value looked for;
* `fanOut_search`: what a search along such a path comes to.
-/

namespace Gatehouse

/-! ## 1. Paths with one wildcard -/

namespace Path

/-- The path is another one without wildcards, and goes on with a wildcard and keys. -/
structure FansOutOver (p before : Path) (after : List String) : Prop where
  wellFormed : before.WellFormed
  no_wildcard : before.wildcards = 0
  goesOn : ∃ rest, p.text.toList = before.text.toList ++ rest ∧
    Continues rest (.wildcard :: after.map .key)

/-- Segments without a wildcard are keys. -/
theorem exists_keys {ss : List Segment} (h : .wildcard ∉ ss) : ∃ ks : List String,
    ss = ks.map .key := by
  induction ss with
  | nil => exact ⟨[], rfl⟩
  | cons s ss ih =>
      obtain ⟨hs, hss⟩ := not_or.mp (List.mem_cons.not.mp h)
      obtain ⟨ks, rfl⟩ := ih hss
      cases s with
      | key k => exact ⟨k :: ks, rfl⟩
      | wildcard => exact absurd rfl hs

theorem wildcard_not_mem_keys (ks : List String) : Segment.wildcard ∉ ks.map Segment.key := by
  intro h
  obtain ⟨_, _, hk⟩ := List.mem_map.mp h
  cases hk

/-- The segments of the path and of the one before its wildcard. -/
theorem FansOutOver.spells {p before : Path} {after : List String}
    (h : p.FansOutOver before after) : ∃ n k, ∃ ks : List String,
      before.Spells n (.key k :: ks.map .key) ∧
      p.Spells n (.key k :: (ks.map .key ++ .wildcard :: after.map .key)) := by
  obtain ⟨n, hcheck⟩ := h.wellFormed
  obtain ⟨rest, htext, hrest⟩ := h.goesOn
  obtain ⟨_, k, ss, _, hitems⟩ := check_eq_ok_iff.mp hcheck
  have hbefore : before.Spells n (.key k :: ss) := spells_iff.mpr ⟨hcheck, hitems⟩
  have hnone : .wildcard ∉ ss := by
    rw [← List.count_eq_zero, ← wildcards_of_spells hbefore]
    exact h.no_wildcard
  obtain ⟨ks, rfl⟩ := exists_keys hnone
  exact ⟨n, k, ks, hbefore, spells_append_iff.mpr ⟨before, rest, htext, hbefore, hrest⟩⟩

/-- **A path fans out over another one exactly if it is well formed and has one wildcard.** -/
theorem exists_fansOutOver_iff {p : Path} :
    (∃ before after, p.FansOutOver before after) ↔ p.WellFormed ∧ p.wildcards = 1 := by
  constructor
  · intro ⟨before, after, h⟩
    obtain ⟨n, k, ks, _, hp⟩ := h.spells
    refine ⟨⟨n, (spells_iff.mp hp).1⟩, ?_⟩
    rw [wildcards_of_spells hp, List.count_append, List.count_cons_self,
      List.count_eq_zero.mpr (wildcard_not_mem_keys ks),
      List.count_eq_zero.mpr (wildcard_not_mem_keys after)]
  · intro ⟨⟨n, hcheck⟩, hone⟩
    obtain ⟨_, k, ss, _, hitems⟩ := check_eq_ok_iff.mp hcheck
    have hp : p.Spells n (.key k :: ss) := spells_iff.mpr ⟨hcheck, hitems⟩
    rw [wildcards_of_spells hp] at hone
    have hmem : .wildcard ∈ ss := List.count_pos_iff.mp (by omega)
    obtain ⟨first, last, rfl, hfirst⟩ := List.eq_append_cons_of_mem hmem
    rw [List.count_append, List.count_cons_self, List.count_eq_zero.mpr hfirst] at hone
    obtain ⟨ks, rfl⟩ := exists_keys hfirst
    obtain ⟨after, rfl⟩ := exists_keys (List.count_eq_zero.mp (by omega : last.count .wildcard = 0))
    obtain ⟨before, rest, htext, hbefore, hrest⟩ := spells_append_iff.mp hp
    refine ⟨before, after, ⟨n, (spells_iff.mp hbefore).1⟩, ?_, rest, htext, hrest⟩
    rw [wildcards_of_spells hbefore]
    exact List.count_eq_zero.mpr (wildcard_not_mem_keys ks)

end Path

/-! ## 2. Where they lead -/

/-- Segments after keys go on from where the keys lead to. -/
theorem meaning_keys_append (ks : List String) (ss : List Segment) (v : Value) :
    meaning (ks.map .key ++ ss) v = (meaning (ks.map .key) v).bind (meaning ss) := by
  induction ks generalizing v with
  | nil => rfl
  | cons k ks ih =>
      show (v.selected? k).bind (meaning (ks.map .key ++ ss)) =
        ((v.selected? k).bind (meaning (ks.map .key))).bind (meaning ss)
      rw [Option.bind_assoc]
      exact congrArg _ (funext ih)

section Resolution

variable {p before : Path} {after : List String} {ctx : Context}

/-- **A path fans out over the list that the one before its wildcard leads to**, and leaves out the
    items from which the keys lead nowhere. -/
theorem resolve_of_fansOutOver (h : p.FansOutOver before after) {items : List Value}
    (hlist : ctx.resolve before = .present (.array items)) :
    ctx.resolve p = .present (.array (items.filterMap (meaning (after.map .key)))) := by
  obtain ⟨n, k, ks, hbefore, hp⟩ := h.spells
  rw [ctx.resolve_of_spells hbefore, Resolved.ofOption_eq_present] at hlist
  obtain ⟨v, hv, hitems⟩ := Option.bind_eq_some_iff.mp hlist
  rw [ctx.resolve_of_spells hp, hv, Option.bind_some, meaning_keys_append, hitems]
  rfl

/-- If that leads to no list, the path leads nowhere. -/
theorem resolve_of_no_list (h : p.FansOutOver before after)
    (hnone : ∀ items, ctx.resolve before ≠ .present (.array items)) :
    ctx.resolve p = .absent := by
  obtain ⟨n, k, ks, hbefore, hp⟩ := h.spells
  rw [ctx.resolve_of_spells hbefore] at hnone
  rw [ctx.resolve_of_spells hp]
  cases hv : ctx.entry? n k with
  | none => rfl
  | some v =>
      rw [Option.bind_some, meaning_keys_append]
      cases hw : meaning (ks.map .key) v with
      | none => rfl
      | some w =>
          cases w with
          | array items => exact absurd (by rw [hv, Option.bind_some, hw]; rfl) (hnone items)
          | null | bool b | number x | string s | object entries => rfl

end Resolution

/-! ## 3. Searches -/

namespace Leaf

variable {ctx : Context} {l : Leaf}

/-- One of the items has a value at the keys that agrees with the one looked for. -/
def Finds (items : List Value) (after : List String) (v : Value) : Prop :=
  ∃ item ∈ items, ∃ u, meaning (after.map .key) item = some u ∧ u.agrees v = true

/-- The items without a value at the keys do not matter. -/
theorem any_filterMap_iff {items : List Value} {after : List String} {v : Value} :
    ((items.filterMap (meaning (after.map .key))).any fun u => u.agrees v) = true ↔
      Finds items after v := by
  rw [List.any_eq_true]
  constructor
  · intro ⟨u, hu, hv⟩
    obtain ⟨item, hitem, hmeaning⟩ := List.mem_filterMap.mp hu
    exact ⟨item, hitem, u, hmeaning, hv⟩
  · intro ⟨item, hitem, u, hmeaning, hv⟩
    exact ⟨u, List.mem_filterMap.mpr ⟨item, hitem, hmeaning⟩, hv⟩

/-- A search where there is nothing finds nothing. -/
theorem evaluate_contains_of_absent (hop : l.operator = .contains)
    (h : ctx.resolve l.path = .absent) : l.evaluate ctx = .ok false := by
  rw [evaluate, hop]
  unfold Operator.apply Operands.listContains operands
  simp only [h]

/-- A search in a list takes the value of the comparand. -/
theorem evaluate_contains_of_list (hop : l.operator = .contains) {items : List Value}
    (h : ctx.resolve l.path = .present (.array items)) : l.evaluate ctx =
      ((l.operands ctx).comparandValue .contains).map fun v => items.any fun u => u.agrees v := by
  rw [evaluate, hop]
  unfold Operator.apply Operands.listContains operands
  simp only [h]

theorem comparandValue_of_absent {q : Path} (hq : l.comparand = .path q)
    (habsent : ctx.resolve q = .absent) (o : Operator) :
    (l.operands ctx).comparandValue o = .error (.missingAttribute q o) := by
  unfold Operands.comparandValue operands
  simp only [hq, Comparand.resolve, habsent, Comparand.path?, Option.getD_some]

theorem comparandValue_of_present {v : Value} (hv : l.comparand.resolve ctx = some (.present v))
    (o : Operator) : (l.operands ctx).comparandValue o = .ok v := by
  unfold Operands.comparandValue operands
  simp only [hv]

end Leaf

/-- **A search through one wildcard.** The path is another one, a wildcard and keys. If that path
    leads to no list, nothing is found, whatever is looked for. If it leads to a list, also an empty
    one, and the comparand is a path that leads nowhere, this path is missing. Otherwise the search
    is true exactly if one of the items has a value at the keys that agrees with the comparand's, and
    false if none has. -/
theorem fanOut_search {l : Leaf} (hop : l.operator = .contains) (hpath : l.path.WellFormed)
    (hone : l.path.wildcards = 1) :
    (∃ before after, l.path.FansOutOver before after) ∧
    ∀ before after, l.path.FansOutOver before after → ∀ ctx : Context,
      ((∀ items, ctx.resolve before ≠ .present (.array items)) → l.evaluate ctx = .ok false) ∧
      ∀ items, ctx.resolve before = .present (.array items) →
        (∀ q, l.comparand = .path q → ctx.resolve q = .absent →
          l.evaluate ctx = .error (.missingAttribute q .contains)) ∧
        ∀ v, l.comparand.resolve ctx = some (.present v) →
          (l.evaluate ctx = .ok true ↔ Leaf.Finds items after v) ∧
          (l.evaluate ctx = .ok false ↔ ¬ Leaf.Finds items after v) := by
  refine ⟨Path.exists_fansOutOver_iff.mpr ⟨hpath, hone⟩, fun before after h ctx => ⟨?_, ?_⟩⟩
  · intro hnone
    exact Leaf.evaluate_contains_of_absent hop (resolve_of_no_list h hnone)
  · intro items hlist
    have heval := Leaf.evaluate_contains_of_list hop (resolve_of_fansOutOver h hlist)
    refine ⟨fun q hq habsent => ?_, fun v hv => ?_⟩
    · rw [heval, Leaf.comparandValue_of_absent hq habsent]
      rfl
    · rw [heval, Leaf.comparandValue_of_present hv, Except.map, ← Leaf.any_filterMap_iff,
        Except.ok.injEq, Except.ok.injEq, Bool.not_eq_true]
      exact ⟨Iff.rfl, Iff.rfl⟩

/-- The user leads one of the subject's teams. -/
def leadsTeam : Leaf := ⟨⟨"subject.teams.[*].lead"⟩, .contains, .path ⟨"path.user"⟩, none⟩

/-- A subject with teams, and the parameters of a path. -/
def teamsOf (teams : Value) (params : Attributes) : Context where
  subject := [("teams", teams)]
  resource := []
  path := params
  body := []
  query := []
  header := []

/-- A team without a lead, none at all, and one with a lead whose identifier is spelled in upper
    case. -/
def someTeams : List Value :=
  [.object [("name", .string "c")], .null,
    .object [("lead", .string "6F1C2A1E-8B0D-4C3A-9F5E-2D7B8C9A0E11")]]

/-- Without teams nobody leads one, even if no user is named. Where there are teams, if only in an
    empty list, the user must be named; and is then found in any spelling. -/
theorem fanOut_search_lead :
    Path.FansOutOver ⟨"subject.teams.[*].lead"⟩ ⟨"subject.teams"⟩ ["lead"] ∧
    leadsTeam.evaluate (teamsOf .null []) = .ok false ∧
    leadsTeam.evaluate (teamsOf (.array []) []) =
      .error (.missingAttribute ⟨"path.user"⟩ .contains) ∧
    leadsTeam.evaluate (teamsOf (.array someTeams)
      [("user", .string "6f1c2a1e8b0d4c3a9f5e2d7b8c9a0e11")]) = .ok true ∧
    leadsTeam.evaluate (teamsOf (.array someTeams) [("user", .null)]) = .ok false := by
  have hover : Path.FansOutOver ⟨"subject.teams.[*].lead"⟩ ⟨"subject.teams"⟩ ["lead"] :=
    ⟨⟨.subject, by decide +kernel⟩, by decide +kernel, ".[*].lead".toList, by decide +kernel,
      .dottedWildcard (.key (k := ['l', 'e', 'a', 'd']) (by decide) .done)⟩
  have hpath : leadsTeam.path.WellFormed := ⟨.subject, by decide +kernel⟩
  obtain ⟨_, hsearch⟩ := fanOut_search (l := leadsTeam) rfl hpath (by decide +kernel)
  have hnull : (teamsOf .null []).resolve ⟨"subject.teams"⟩ = .present .null := by
    decide +kernel
  have hempty : (teamsOf (.array []) []).resolve ⟨"subject.teams"⟩ = .present (.array []) := by
    decide +kernel
  have hteams : ∀ params, (teamsOf (.array someTeams) params).resolve ⟨"subject.teams"⟩ =
      .present (.array someTeams) := by
    intro params
    rfl
  refine ⟨hover, (hsearch _ _ hover _).1 fun items hlist => ?_, ?_, ?_, ?_⟩
  · rw [hnull] at hlist
    cases hlist
  · exact ((hsearch _ _ hover _).2 [] hempty).1 _ rfl (by decide +kernel)
  · refine (((hsearch _ _ hover _).2 someTeams (hteams _)).2 _ rfl).1.mpr ?_
    exact ⟨_, List.mem_cons_of_mem _ (List.mem_cons_of_mem _ List.mem_cons_self), _, rfl,
      by decide +kernel⟩
  · refine (((hsearch _ _ hover _).2 someTeams (hteams _)).2 _ rfl).2.mpr ?_
    rw [← Leaf.any_filterMap_iff]
    decide +kernel

end Gatehouse
