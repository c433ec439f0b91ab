import Gatehouse.Proofs.Condition.Validity
import Gatehouse.Rule

/-!
# Rules in order

What this file fixes, and what it shows about the checks of rules:

* `NameInOrder`: the names that rules may have;
* `checkName_eq`, `buildConditions_eq_ok_iff`, `Rule.check_eq_ok_iff`: which names, raw conditions
  and rules pass their check. `Draft.toRule_eq_ok_iff`: which drafts become rules.
-/

namespace Gatehouse

variable {limits : Limits}

/-- Names of rules have from 3 to 100 characters. -/
def NameInOrder (name : String) : Prop := 3 ≤ name.length ∧ name.length ≤ 100

instance (name : String) : Decidable (NameInOrder name) := inferInstanceAs (Decidable (_ ∧ _))

/-- A name out of order is refused with its length. -/
theorem checkName_eq (name : String) : checkName name =
    if NameInOrder name then .ok () else .error (.invalidName name.length) := by
  unfold checkName
  simp only [String.length_toList]
  rfl

theorem checkName_eq_ok_iff {name : String} : checkName name = .ok () ↔ NameInOrder name := by
  rw [checkName_eq]
  split
  · rename_i h
    exact ⟨fun _ => h, fun _ => rfl⟩
  · rename_i h
    exact ⟨nofun, fun hin => absurd hin h⟩

/-- Null is no document of a tree. -/
theorem Condition.ofValue_null : Condition.ofValue .null = .error .malformed := rfl

/-- Raw conditions pass if they document a valid tree; the name of the rule is for messages only. -/
theorem buildConditions_eq_ok_iff {name : String} {raw : Value} {c : Condition} :
    buildConditions limits name raw = .ok c ↔
      Condition.ofValue raw = .ok c ∧ c.validate limits = .ok () := by
  unfold buildConditions
  rw [Condition.validate_eq_ok_iff]
  split
  · rename_i hnull
    rw [hnull, Condition.ofValue_null]
    simp only [reduceCtorEq, false_and]
  · split
    · rename_i e he
      rw [he]
      simp only [reduceCtorEq, false_and]
    · rename_i c' hc'
      rw [hc', Except.ok.injEq]
      split
      · rename_i v hv
        constructor
        · intro h
          cases h
        · rintro ⟨rfl, hnone⟩
          rw [hv] at hnone
          cases hnone
      · rename_i hv
        rw [Except.ok.injEq]
        constructor
        · rintro rfl
          exact ⟨rfl, hv⟩
        · exact And.left

/-- A draft becomes a rule if its name is in order and its conditions document a valid tree. -/
theorem Draft.toRule_eq_ok_iff {d : Draft} {id : Uuid} {r : Rule} : d.toRule limits id = .ok r ↔
    NameInOrder d.name ∧ ∃ c, Condition.ofValue d.conditions = .ok c ∧
      c.validate limits = .ok () ∧ r = ⟨id, d.name, d.description, d.effect, d.endpointId, c⟩ := by
  unfold Draft.toRule
  rw [← checkName_eq_ok_iff]
  cases checkName d.name with
  | error e => exact iff_of_false nofun fun h => nomatch h.1
  | ok u =>
    cases hbuild : buildConditions limits d.name d.conditions with
    | error e =>
      refine iff_of_false nofun ?_
      rintro ⟨-, c, hc, hvalid, -⟩
      rw [buildConditions_eq_ok_iff.mpr ⟨hc, hvalid⟩] at hbuild
      cases hbuild
    | ok c =>
      have hc := buildConditions_eq_ok_iff.mp hbuild
      constructor
      · intro h
        exact ⟨rfl, c, hc.1, hc.2, (Except.ok.inj h).symm⟩
      · rintro ⟨-, c', hc', -, rfl⟩
        obtain rfl : c = c' := Except.ok.inj (hc.1.symm.trans hc')
        rfl

/-- A draft without conditions is refused, for its name if that is out of order. -/
theorem Draft.toRule_of_null {d : Draft} (h : d.conditions = .null) (id : Uuid) :
    d.toRule limits id = .error
      (if NameInOrder d.name then .missingConditions d.name else .invalidName d.name.length) := by
  rw [Draft.toRule, checkName_eq, h]
  by_cases hname : NameInOrder d.name
  · rw [if_pos hname, if_pos hname]
    rfl
  · rw [if_neg hname, if_neg hname]

/-- A rule passes if its name is in order and its tree is valid. -/
theorem Rule.check_eq_ok_iff {r : Rule} : r.check limits = .ok () ↔
    NameInOrder r.name ∧ r.conditions.validate limits = .ok () := by
  unfold Rule.check
  rw [← checkName_eq_ok_iff, Condition.validate_eq_ok_iff]
  cases checkName r.name with
  | error e => exact ⟨nofun, fun h => nomatch h.1⟩
  | ok u =>
      cases r.conditions.violation? limits with
      | some v => exact ⟨nofun, fun h => nomatch h.2⟩
      | none => exact ⟨fun _ => ⟨rfl, rfl⟩, fun _ => rfl⟩

/-- The tree of a rule in order is valid. -/
theorem Rule.violation?_of_check {r : Rule} (h : r.check limits = .ok ()) :
    r.conditions.violation? limits = none :=
  Condition.validate_eq_ok_iff.mp (Rule.check_eq_ok_iff.mp h).2

end Gatehouse
