import Gatehouse.Proofs.Audit.Entry
import Gatehouse.Proofs.Audit.Journal
import Gatehouse.Proofs.Audit.Timestamp
import Gatehouse.Proofs.Disk

/-!
# The audit file can be taken apart again

What this file fixes, and what it shows about `Entry.appendAll`:

* `Entry.appendSessions`: sessions one after the other on one path;
* `bytesAt_appendSessions`: the file has the bytes it had and then the lines of all entries; no
  other file is touched;
* `splitOn_lines`: the lines are found again between the line breaks;
* `Entry.Restorable`: what is taken for granted of an entry, so that its line gives it back
  (`ofLine?_compactChars`);
* `audit_file_framed`: nothing is lost and nothing is added, over any number of sessions.
-/

namespace Gatehouse.Audit

/-! ## 1. Sessions -/

namespace Entry

/-- The lines of entries, one behind the other. -/
def lines (es : List Entry) : String := String.join (es.map line)

/-- Sessions one after the other on the file at a path, up to the first that cannot open it. -/
def appendSessions (d : Disk) (path : String) :
    List (List Entry) → Except Disk.OpenError Unit × Disk
  | [] => (.ok (), d)
  | session :: rest =>
      match appendAll d path session with
      | (.error e, d) => (.error e, d)
      | (.ok (), d) => appendSessions d path rest

theorem lines_append (xs ys : List Entry) : lines (xs ++ ys) = lines xs ++ lines ys := by
  rw [lines, List.map_append, String.join_append]
  rfl

variable {d left : Disk} {path : String}

/-- **One session**: its lines come behind the bytes that the file had, and no other file is
    touched. -/
theorem bytesAt_appendAll {es : List Entry} (h : appendAll d path es = (.ok (), left))
    (q : Place) : left.bytesAt q =
      if q = Disk.placeOf path then some ((d.bytesAt q).getD [] ++ Text.bytes (lines es).toList)
      else d.bytesAt q := by
  unfold appendAll at h
  match hopen : d.openForAppending path with
  | (.error e, opened) => rw [hopen] at h; cases h
  | (.ok place, opened) =>
    have hplace : place = Disk.placeOf path := Disk.eq_placeOf_of_openForAppending hopen
    have htext := Disk.bytesAt_openForAppending hopen
    rw [hopen] at h
    simp only [Journal.writeAll_flush, Prod.mk.injEq, true_and] at h
    subst hplace h
    by_cases hq : q = Disk.placeOf path
    · rw [Disk.bytesAt_append, if_pos hq, if_pos hq, htext, if_pos rfl, Option.getD_some, hq, lines]
    · rw [Disk.bytesAt_append, if_neg hq, if_neg hq, htext, if_neg hq]

/-- **Any number of sessions**: the lines of all entries come behind the bytes that the file had, in
    the order of the sessions, and no other file is touched. -/
theorem bytesAt_appendSessions {sessions : List (List Entry)}
    (h : appendSessions d path sessions = (.ok (), left)) (q : Place) : left.bytesAt q =
      if q = Disk.placeOf path ∧ sessions ≠ [] then
        some ((d.bytesAt q).getD [] ++ Text.bytes (lines sessions.flatten).toList)
      else d.bytesAt q := by
  induction sessions generalizing d with
  | nil =>
    obtain ⟨-, rfl⟩ := Prod.mk.inj h
    simp
  | cons session rest ih =>
    rw [appendSessions] at h
    match hfirst : appendAll d path session with
    | (.error e, opened) => rw [hfirst] at h; cases h
    | (.ok (), opened) =>
      rw [hfirst] at h
      have hone := bytesAt_appendAll hfirst q
      have hmore := ih h
      by_cases hq : q = Disk.placeOf path
      · -- where no session follows, the bytes of the first one stay
        have hlast : left.bytesAt q =
            some ((d.bytesAt q).getD [] ++ Text.bytes (lines session).toList
              ++ Text.bytes (lines rest.flatten).toList) := by
          rw [if_pos hq] at hone
          by_cases hrest : rest = []
          · rw [if_neg fun hand => hand.2 hrest, hone] at hmore
            rw [hmore, hrest]
            simp [lines, Text.bytes]
          · rw [if_pos ⟨hq, hrest⟩, hone, Option.getD_some] at hmore
            exact hmore
        rw [if_pos ⟨hq, List.cons_ne_nil _ _⟩, hlast, List.flatten_cons, lines_append,
          String.toList_append, Text.bytes_append, List.append_assoc]
      · rw [if_neg hq] at hone
        rw [if_neg fun hand => hq hand.1] at hmore
        rw [if_neg fun hand => hq hand.1, hmore, hone]

/-! ## 2. Lines -/

theorem toList_lines (es : List Entry) : (lines es).toList =
    (es.map fun e => Value.compactChars e.toValue).flatMap (· ++ ['\n']) := by
  rw [lines, String.toList_join, List.flatMap_map, List.flatMap_map]
  exact List.flatMap_congr fun e _ => e.toList_line

/-- **There is one line break for each entry.** -/
theorem count_lineBreak_lines (es : List Entry) :
    (Text.bytes (lines es).toList).count lineBreak = es.length := by
  have hbytes : Text.bytes (lines es).toList = es.flatMap Entry.bytes := by
    rw [lines, String.toList_join, List.flatMap_map, Text.bytes, List.flatMap_assoc]
    rfl
  rw [hbytes, count_lineBreak_flatMap]

/-- **The texts of the entries are what stands between the line breaks.** -/
theorem splitOn_lines (es : List Entry) : Text.splitOn '\n' (lines es).toList =
    es.map (fun e => Value.compactChars e.toValue) ++ [[]] := by
  rw [toList_lines, Text.splitOn_flatMap]
  intro cs hcs
  obtain ⟨e, -, rfl⟩ := List.mem_map.mp hcs
  exact (Value.printable_compactChars e.toValue).not_mem_newline

/-! ## 3. Reading lines -/

/-- The entry on a line, without its line break. -/
def ofLine? (cs : List Char) : Option Entry :=
  (Json.read? (String.ofList cs)).bind Entry.read?

/-- What is taken for granted of an entry: the objects in its details have their entries in order, as
    maps hold them, its time is one that there is, and the reader of JSON texts reads the text of
    its record as it was written. The last holds of all details with numbers that read back, up to
    the deepest nesting that is read (`read?_compact_iff`). -/
structure Restorable (e : Entry) : Prop where
  details : e.event.details.isOrdered = true
  time : e.timestamp.Valid
  text : Json.read? e.toValue.compact = some (.ofValue e.toValue)

/-- **The line of an entry gives the entry back.** -/
theorem ofLine?_compactChars {e : Entry} (h : e.Restorable) :
    ofLine? (Value.compactChars e.toValue) = some e := by
  have hread : Entry.read? (.ofValue e.toValue) = some e :=
    read?_toValue Doc.transcribes_ofValue h.details (Timestamp.read?_text h.time)
  have htext := h.text
  rw [Value.compact] at htext
  rw [ofLine?, htext, Option.bind_some, hread]

/-- So do the lines of entries, one by one. -/
theorem mapM_ofLine? {es : List Entry} (h : ∀ e ∈ es, e.Restorable) :
    (es.map fun e => Value.compactChars e.toValue).mapM ofLine? = some es := by
  rw [mapM_eq_some_iff, List.map_map]
  refine List.map_congr_left fun e he => ?_
  rw [Function.comp_apply, ofLine?_compactChars (h e he)]

end Entry

/-! ## 4. The audit file -/

/-- **The audit file loses nothing and can be taken apart again.** After any number of sessions on a
    path, each of which opened the file, wrote entries and flushed, the file has the bytes that it
    had before, whatever they are, followed by those of a new text, and no other file is touched.
    The new text has one line break for each entry, and it ends with one; the pieces between them,
    read one by one, give back the entries in order. -/
theorem audit_file_framed {d left : Disk} {path : String} {sessions : List (List Entry)}
    (h : Entry.appendSessions d path sessions = (.ok (), left)) :
    ∃ added : String,
      (∀ q, left.bytesAt q =
        if q = Disk.placeOf path ∧ sessions ≠ [] then
          some ((d.bytesAt q).getD [] ++ Text.bytes added.toList)
        else d.bytesAt q) ∧
      (Text.bytes added.toList).count lineBreak = sessions.flatten.length ∧
      ∃ pieces, Text.splitOn '\n' added.toList = pieces ++ [[]] ∧
        ((∀ e ∈ sessions.flatten, e.Restorable) →
          pieces.mapM Entry.ofLine? = some sessions.flatten) := by
  refine ⟨Entry.lines sessions.flatten, Entry.bytesAt_appendSessions h,
    Entry.count_lineBreak_lines _, _, Entry.splitOn_lines _, Entry.mapM_ofLine?⟩

/-- An entry whose texts are full of line breaks and control characters, at a leap second. -/
def brokenLines : Entry where
  id := .zero
  timestamp := ⟨⟨2016, 12, 31⟩, 23, 59, 60, 5000⟩
  event :=
    { type := .accessDenied
      source := ⟨"gate\nkeeper", some "\r\n", none, some "\x00"⟩
      details := .object [("\n", .array [.string "\n\n", .int 1]), ("a", .null)]
      decision := some ⟨false, "\n", none, some "", [⟨.zero, "a\nb", "\t\n"⟩]⟩ }

/-- An entry without anything that may be missing. -/
def bareEntry : Entry :=
  ⟨.zero, ⟨⟨-1, 1, 1⟩, 0, 0, 0, 0⟩, ⟨.processStarted, .ofComponent "", .null, none⟩⟩

/-- Three sessions, of which the second writes nothing. -/
def threeSessions : List (List Entry) := [[brokenLines, bareEntry], [], [brokenLines]]

/-- Where there was no file, there is one that gives back the three entries. -/
theorem audit_file_framed_three_sessions : ∃ (left : Disk) (added : String) (pieces : _),
    Entry.appendSessions .empty "logs/audit.jsonl" threeSessions = (.ok (), left) ∧
    left.bytesAt ["logs", "audit.jsonl"] = some (Text.bytes added.toList) ∧
    (Text.bytes added.toList).count lineBreak = 3 ∧
    Text.splitOn '\n' added.toList = pieces ++ [[]] ∧
    brokenLines.Restorable ∧ bareEntry.Restorable ∧
    pieces.mapM Entry.ofLine? = some [brokenLines, bareEntry, brokenLines] := by
  have hsessions : Entry.appendSessions .empty "logs/audit.jsonl" threeSessions =
      (.ok (), (Entry.appendSessions .empty "logs/audit.jsonl" threeSessions).2) :=
    Prod.ext (by decide +kernel) rfl
  have hbroken : brokenLines.Restorable :=
    ⟨by decide +kernel, by decide +kernel,
      (Entry.read?_compact_iff (by decide +kernel)).mpr (by decide +kernel)⟩
  have hbare : bareEntry.Restorable :=
    ⟨by decide +kernel, by decide +kernel,
      (Entry.read?_compact_iff (by decide +kernel)).mpr (by decide +kernel)⟩
  obtain ⟨added, htext, hcount, pieces, hpieces, hread⟩ := audit_file_framed hsessions
  have hplace := htext ["logs", "audit.jsonl"]
  rw [if_pos (by decide +kernel), show Disk.empty.bytesAt ["logs", "audit.jsonl"] = none from rfl,
    Option.getD_none, List.nil_append] at hplace
  have hentries : ∀ e ∈ threeSessions.flatten, e.Restorable := by
    simp [threeSessions, hbroken, hbare]
  exact ⟨_, added, pieces, hsessions, hplace, hcount, hpieces, hbroken, hbare, hread hentries⟩

end Gatehouse.Audit
