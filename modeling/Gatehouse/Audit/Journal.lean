import Gatehouse.Audit.Entry
import Gatehouse.Disk

/-!
# The audit journal

What this file fixes:

* `Journal`: what has been written to an audit file that is open, but has not reached it yet;
* `Journal.write`, `Journal.flush`: what reaches the file with the next line and with a flush. A
  line that does not fit behind those that wait pushes them out, and one that fills the journal
  by itself does not wait at all;
* `Entry.appendAll`: a whole session, from opening the file to a flush.
-/

namespace Gatehouse.Audit

/-- The text that waits to reach an audit file. -/
structure Journal where
  pending : String
  deriving DecidableEq, Repr

namespace Journal

/-- The number of bytes that may wait. -/
def capacity : Nat := 8192

/-- What becomes of what waits when a line comes, in units of which `size` counts the bytes: what
    reaches the file, and what waits after that. -/
def pass {α : Type} (size : List α → Nat) (waiting line : List α) : List α × List α :=
  let overflows := capacity < size waiting + size line
  let pushed := if overflows then waiting else []
  let kept := if overflows then [] else waiting
  if capacity ≤ size line then (pushed ++ line, kept) else (pushed, kept ++ line)

/-- A journal in which nothing waits. -/
def empty : Journal := ⟨""⟩

/-- Writes a line: the text that reaches the file, and the journal after that. -/
def write (j : Journal) (line : String) : String × Journal :=
  let passed := pass Text.byteLength j.pending.toList line.toList
  (String.ofList passed.1, ⟨String.ofList passed.2⟩)

/-- Flushes: all that waits reaches the file. -/
def flush (j : Journal) : String × Journal := (j.pending, empty)

/-- Writes lines one after the other. -/
def writeAll (j : Journal) : List String → String × Journal
  | [] => ("", j)
  | line :: rest =>
      let first := j.write line
      let later := first.2.writeAll rest
      (first.1 ++ later.1, later.2)

end Journal

/-- Opens the file at a path, writes entries, and flushes if there were any: the disk after that,
    and why the file could not be opened. -/
def Entry.appendAll (d : Disk) (path : String) (entries : List Entry) :
    Except Disk.OpenError Unit × Disk :=
  match d.openForAppending path with
  | (.error e, d) => (.error e, d)
  | (.ok place, d) =>
      let written := Journal.empty.writeAll (entries.map Entry.line)
      (.ok (), d.append place (written.1 ++ written.2.flush.1))

end Gatehouse.Audit
