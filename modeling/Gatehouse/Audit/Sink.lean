import Gatehouse.Audit.Journal

/-!
# The audit sink

What this file fixes:

* `Sink`: handles that hand over entries, a queue of limited length, and a writer that takes them
  from the queue to the file, through bytes that wait as in a journal. An entry in the queue keeps
  the handle it came from;
* `Action`, `Sink.step?`: what can happen next, and the sink after it; none if it cannot happen
  now. A handle waits while the queue is full. Writing an entry and flushing may fail: an entry
  that could not be written is skipped as a whole, and of the bytes that wait only the first may
  have reached the file, so that it may end within a line and even within a character;
* `Sink.run?`: a sequence of such actions. The writer ends only when there is no handle left and
  the queue is empty.
-/

namespace Gatehouse.Audit

/-- The bytes of an entry's line. -/
def Entry.bytes (e : Entry) : List UInt8 := Text.bytes e.line.toList

/-- The number of a handle. -/
abbrev Handle := Nat

/-- Handles, queue, writer and file of an audit trail, and the bytes that wait to reach the file.
    The next handle gets the number `issued`. -/
structure Sink where
  handles : List Handle
  issued : Handle
  queue : List (Handle × Entry)
  waiting : List UInt8
  dirty : Bool
  running : Bool
  file : List UInt8
  deriving DecidableEq, Repr

/-- What can happen to a sink. -/
inductive Action where
  | clone (h : Handle)
  | drop (h : Handle)
  | accept (h : Handle) (e : Entry)
  | write
  | skip (reached : Nat)
  | flush
  | failFlush (reached : Nat)
  | finish
  | failFinish (reached : Nat)
  deriving DecidableEq, Repr

namespace Sink

/-- The number of entries that may wait in the queue. -/
def capacity : Nat := 1024

/-- A sink with one handle, on a file with the given bytes. -/
def start (file : List UInt8) : Sink := ⟨[0], 1, [], [], false, true, file⟩

/-- The sink after the first of the bytes that wait have reached the file. -/
def partlyFlushed (s : Sink) (reached : Nat) : Sink :=
  { s with waiting := s.waiting.drop reached, file := s.file ++ s.waiting.take reached }

/-- The sink after all bytes that wait have reached the file. -/
def flushed (s : Sink) : Sink :=
  { s with waiting := [], dirty := false, file := s.file ++ s.waiting }

/-- The sink after the writer has taken an entry and written its line. -/
def written (s : Sink) (e : Entry) (rest : List (Handle × Entry)) : Sink :=
  let passed := Journal.pass List.length s.waiting e.bytes
  { s with queue := rest, waiting := passed.2, dirty := true, file := s.file ++ passed.1 }

/-- The writer can come to its end. -/
def isDrained (s : Sink) : Bool := s.running && s.handles.isEmpty && s.queue.isEmpty

/-- The sink after an action, if that can happen now. Of an entry that could not be written no byte
    is taken to have reached the file: a line that is long enough goes past the bytes that wait, as
    `Journal.pass` has it, and the system could take some of it before it fails; that is left out
    here, where `skip` moves only bytes of lines that were written before. -/
def step? (s : Sink) : Action → Option Sink
  | .clone h =>
      if h ∈ s.handles then
        some { s with handles := s.handles ++ [s.issued], issued := s.issued + 1 }
      else none
  | .drop h => if h ∈ s.handles then some { s with handles := s.handles.erase h } else none
  | .accept h e =>
      if h ∈ s.handles ∧ s.queue.length < capacity then
        some { s with queue := s.queue ++ [(h, e)] }
      else none
  | .write =>
      match s.running, s.queue with
      | true, (_, e) :: rest => some (s.written e rest)
      | _, _ => none
  | .skip reached =>
      match s.running, s.queue with
      | true, _ :: rest => some { s.partlyFlushed reached with queue := rest }
      | _, _ => none
  | .flush => if s.running ∧ s.dirty then some s.flushed else none
  | .failFlush reached => if s.running ∧ s.dirty then some (s.partlyFlushed reached) else none
  | .finish =>
      if s.isDrained then some { (if s.dirty then s.flushed else s) with running := false }
      else none
  | .failFinish reached =>
      if s.isDrained ∧ s.dirty then some { s.partlyFlushed reached with running := false }
      else none

/-- The sink after a sequence of actions, if they can happen one after the other. -/
def run? (s : Sink) : List Action → Option Sink
  | [] => some s
  | a :: rest => (s.step? a).bind fun t => t.run? rest

end Sink

end Gatehouse.Audit
