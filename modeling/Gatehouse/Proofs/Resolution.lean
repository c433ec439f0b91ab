import Gatehouse.Context
import Gatehouse.Proofs.Path
import Mathlib.Data.List.Count

/-!
# What a path reads

What this file shows about `Context.resolve`:

* `resolve_of_root`, `resolve_congr`: the entry that the namespace and the first key of a path
  select is all that the path reads of a context;
* `agreeAt_of_attributes`: so a path depends on the map of its own namespace only;
* `Value.Nested`, `nested_of_descend?`: each wildcard adds a level of lists in lists;
* `resolve_fanOut`: so a path with a wildcard leads to a list or to nothing.
-/

namespace Gatehouse

/-! ## 1. The entry that a path reads -/

@[simp] theorem Resolved.ofOption_eq_present {o : Option Value} {v : Value} :
    Resolved.ofOption o = .present v ↔ o = some v := by
  cases o with
  | none => exact ⟨nofun, nofun⟩
  | some w => exact ⟨fun h => by cases h; rfl, fun h => by cases h; rfl⟩

namespace Context

variable {c₁ c₂ : Context}

/-- **A path reads one entry of a context**; what follows its first key is followed from there. -/
theorem resolve_of_root {p : Path} {n : Namespace} {k : String} (h : p.root? = some (n, k))
    (ctx : Context) :
    ctx.resolve p = .ofOption ((ctx.entry? n k).bind (Value.descend? p.items.tail)) := by
  obtain ⟨⟨rest, hsplit⟩, items, hitems⟩ := Path.root?_eq_some_iff.mp h
  unfold resolve
  rw [hsplit, hitems]
  rfl

/-- A path that reads no entry leads nowhere. -/
theorem resolve_of_no_root {p : Path} (h : p.root? = none) (ctx : Context) :
    ctx.resolve p = .absent := by
  unfold resolve
  split
  · rename_i n rest k items hsplit hitems
    rw [Path.root?_eq_some_iff.mpr ⟨⟨rest, hsplit⟩, items, hitems⟩] at h
    cases h
  · rfl

/-- The two contexts have the same entry where the path reads. -/
def AgreeAt (c₁ c₂ : Context) (p : Path) : Prop :=
  ∀ n k, p.root? = some (n, k) → Context.entry? c₁ n k = Context.entry? c₂ n k

/-- **Locality**: a path leads to the same value in contexts that agree where it reads. -/
theorem resolve_congr {p : Path} (h : c₁.AgreeAt c₂ p) : c₁.resolve p = c₂.resolve p := by
  cases he : p.root? with
  | none => rw [resolve_of_no_root he, resolve_of_no_root he]
  | some e =>
      obtain ⟨n, k⟩ := e
      rw [resolve_of_root he, resolve_of_root he, h n k he]

/-- An entry depends on the map of its own namespace only. -/
theorem entry?_congr {n : Namespace} (h : c₁.attributes n = c₂.attributes n) (k : String) :
    Context.entry? c₁ n k = Context.entry? c₂ n k := by
  cases n with
  | header =>
      have hh : c₁.header = c₂.header := h
      unfold entry?
      simp only [hh]
  | subject | resource | path | body | query =>
      unfold entry?
      simp only [h]

/-- Contexts that differ in one namespace agree on the paths of the others. -/
theorem agreeAt_of_attributes {n : Namespace} {p : Path}
    (h : ∀ m, m ≠ n → c₁.attributes m = c₂.attributes m) (hp : p.namespace? ≠ some n) :
    c₁.AgreeAt c₂ p := by
  intro m k he
  have hm : m ≠ n := by
    intro hmn
    rw [Path.namespace?_of_root he, hmn] at hp
    exact hp rfl
  exact entry?_congr (h m hm) k

end Context

/-! ## 2. Wildcards -/

/-- The value is a list, its items are, and so on to the given depth. -/
def Value.Nested : Nat → Value → Prop
  | 0, _ => True
  | n + 1, .array items => ∀ v ∈ items, v.Nested n
  | _ + 1, _ => False

theorem Value.Nested.exists_array {n : Nat} {v : Value} (h : v.Nested (n + 1)) :
    ∃ items, v = .array items := by
  cases v with
  | array items => exact ⟨items, rfl⟩
  | null | bool b | number x | string s | object entries => cases h

theorem count_key (k : String) (rest : List Item) :
    (Except.ok (.key k) :: rest : List Item).count (.ok .wildcard) = rest.count (.ok .wildcard) :=
  List.count_cons_of_ne fun h => by cases h

/-- **Every wildcard adds one level of lists.** -/
theorem Value.nested_of_descend? {items : List Item} {v w : Value}
    (h : v.descend? items = some w) : w.Nested (items.count (.ok .wildcard)) := by
  induction items generalizing v w with
  | nil => exact trivial
  | cons item rest ih =>
      rcases item with mistake | ⟨k⟩ | _
      · rw [descend?] at h
        cases h
      · rw [descend?] at h
        obtain ⟨u, _, hu⟩ := Option.bind_eq_some_iff.mp h
        rw [count_key]
        exact ih hu
      · unfold descend? at h
        split at h
        · cases h
          rw [List.count_cons_self]
          intro x hx
          obtain ⟨u, _, hu⟩ := List.mem_filterMap.mp hx
          exact ih hu
        · cases h

/-- **A path with a wildcard leads to a list** if it leads to anything. -/
theorem Context.resolve_fanOut {ctx : Context} {p : Path} (hp : p.FansOut) {v : Value}
    (h : ctx.resolve p = .present v) : ∃ items, v = .array items := by
  cases he : p.root? with
  | none => rw [resolve_of_no_root he] at h; cases h
  | some e =>
      obtain ⟨n, k⟩ := e
      obtain ⟨_, items, hitems⟩ := Path.root?_eq_some_iff.mp he
      have hpos : 0 < items.count (.ok .wildcard) := by
        rw [← count_key k, ← hitems]
        exact List.count_pos_iff.mpr hp
      rw [resolve_of_root he, Resolved.ofOption_eq_present, hitems] at h
      obtain ⟨u, _, hu⟩ := Option.bind_eq_some_iff.mp h
      have hnested : v.Nested (items.count (.ok .wildcard)) := Value.nested_of_descend? hu
      rw [← Nat.succ_pred_eq_of_pos hpos] at hnested
      exact hnested.exists_array

end Gatehouse
