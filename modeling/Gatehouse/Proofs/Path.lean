import Gatehouse.Path

/-!
# How a path begins and what it contains

What this file fixes:

* `Path.namespace?`, `Path.root?`: the namespace of a path, and that namespace together with the
  first key, which is what the path reads of a context;
* `Path.WellFormed`: the check accepts the path;
* `Path.FansOut`: a wildcard is among its segments.
-/

namespace Gatehouse.Path

/-- The namespace that a path names. -/
def namespace? (p : Path) : Option Namespace := p.split?.map Prod.fst

/-- The namespace and the key that a path starts with. -/
def root? (p : Path) : Option (Namespace × String) :=
  match p.split?, p.items with
  | some (n, _), .ok (.key k) :: _ => some (n, k)
  | _, _ => none

/-- The path is well formed. -/
def WellFormed (p : Path) : Prop := ∃ n, p.check = .ok n

/-- One of the segments of the path is a wildcard. -/
def FansOut (p : Path) : Prop := .ok .wildcard ∈ p.items

theorem root?_eq_some_iff {p : Path} {n : Namespace} {k : String} :
    p.root? = some (n, k) ↔
      (∃ rest, p.split? = some (n, rest)) ∧ ∃ items, p.items = .ok (.key k) :: items := by
  unfold root?
  constructor
  · intro h
    split at h
    · rename_i n' rest k' items hsplit hitems
      cases h
      exact ⟨⟨rest, hsplit⟩, items, hitems⟩
    · cases h
  · rintro ⟨⟨rest, hsplit⟩, items, hitems⟩
    rw [hsplit, hitems]

theorem namespace?_of_root {p : Path} {n : Namespace} {k : String} (h : p.root? = some (n, k)) :
    p.namespace? = some n := by
  obtain ⟨⟨rest, hsplit⟩, _⟩ := root?_eq_some_iff.mp h
  rw [namespace?, hsplit]
  rfl

end Gatehouse.Path
