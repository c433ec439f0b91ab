import Gatehouse.Audit.Sink
import Gatehouse.Proofs.Audit.Entry
import Gatehouse.Proofs.Audit.Journal

/-!
# The sink loses and duplicates nothing

What this file shows, for a sink that starts on a file and takes any sequence of actions:

* `accepted`, `fates`, `kept`: what a sequence of actions says about the entries: which were
  accepted, what became of those that the writer took, and which were written;
* `Agrees`: what file, waiting bytes, queue and flags have to do with these. `agrees_step`: every
  action keeps it, one case per action; `agrees_run`: so every run does;
* `sink_faithful`: the writer never ends while a handle is there or an entry is queued; the file is
  at all times what it was, followed by a beginning of the lines of the written entries; after an
  end that did not fail it has one line for each of them, in the order of acceptance;
* `can_end`: a writer whose handles are gone can come to its end with nothing skipped.
-/

namespace Gatehouse.Audit

namespace Sink

/-! ## 1. What the actions say about the entries -/

/-- The entries that were accepted into the queue, each with its handle, in this order. -/
def accepted (as : List Action) : List (Handle × Entry) :=
  as.filterMap fun
    | .accept h e => some (h, e)
    | _ => none

/-- For each entry that the writer took from the queue, whether it was written or skipped. -/
def fates (as : List Action) : List Bool :=
  as.filterMap fun
    | .write => some true
    | .skip _ => some false
    | _ => none

/-- The entries of a list whose fate was to be written. -/
def kept : List (Handle × Entry) → List Bool → List (Handle × Entry)
  | x :: xs, true :: fs => x :: kept xs fs
  | _ :: xs, false :: fs => kept xs fs
  | _, _ => []

/-- The entries that were written. -/
def writtenBy (as : List Action) : List (Handle × Entry) := kept (accepted as) (fates as)

/-- The lines of entries, one behind the other. -/
def linesOf (xs : List (Handle × Entry)) : List UInt8 := xs.flatMap fun x => x.2.bytes

theorem accepted_append (as bs : List Action) :
    accepted (as ++ bs) = accepted as ++ accepted bs := List.filterMap_append

theorem fates_append (as bs : List Action) : fates (as ++ bs) = fates as ++ fates bs :=
  List.filterMap_append

theorem linesOf_append (xs ys : List (Handle × Entry)) :
    linesOf (xs ++ ys) = linesOf xs ++ linesOf ys := List.flatMap_append

theorem kept_append : ∀ {xs : List (Handle × Entry)} {fs : List Bool}, xs.length = fs.length →
    ∀ (ys : List (Handle × Entry)) (gs : List Bool),
      kept (xs ++ ys) (fs ++ gs) = kept xs fs ++ kept ys gs
  | [], [], _, ys, gs => by simp [kept]
  | x :: xs, true :: fs, h, ys, gs => by
      simp [kept, kept_append (Nat.succ.inj h) ys gs]
  | x :: xs, false :: fs, h, ys, gs => by
      simp [kept, kept_append (Nat.succ.inj h) ys gs]

/-- Entries without a fate are not written. -/
theorem kept_append_left {xs : List (Handle × Entry)} {fs : List Bool}
    (h : xs.length = fs.length) (ys : List (Handle × Entry)) :
    kept (xs ++ ys) fs = kept xs fs := by
  have hnone : kept ys [] = [] := by cases ys <;> rfl
  have happend := kept_append h ys []
  rwa [List.append_nil, hnone, List.append_nil] at happend

theorem kept_sublist : ∀ (xs : List (Handle × Entry)) (fs : List Bool), (kept xs fs).Sublist xs
  | [], _ => by simp [kept]
  | _ :: _, [] => by simp [kept]
  | x :: xs, true :: fs => (kept_sublist xs fs).cons_cons x
  | x :: xs, false :: fs => (kept_sublist xs fs).cons x

theorem length_kept : ∀ {xs : List (Handle × Entry)} {fs : List Bool}, xs.length = fs.length →
    (kept xs fs).length = fs.count true
  | [], [], _ => rfl
  | _ :: xs, true :: fs, h => by
      rw [kept, List.length_cons, length_kept (Nat.succ.inj h), List.count_cons_self]
  | _ :: xs, false :: fs, h => by
      rw [kept, length_kept (Nat.succ.inj h), List.count_cons_of_ne (by decide)]

/-- Without skips all entries are written. -/
theorem kept_of_all : ∀ {xs : List (Handle × Entry)} {fs : List Bool}, xs.length = fs.length →
    (∀ b ∈ fs, b = true) → kept xs fs = xs
  | [], [], _, _ => rfl
  | x :: xs, true :: fs, hlen, hall => by
      rw [kept, kept_of_all (Nat.succ.inj hlen) fun b hb => hall b (List.mem_cons_of_mem _ hb)]
  | _ :: _, false :: _, _, hall => absurd (hall false List.mem_cons_self) (by decide)

/-- The lines of entries have as many line breaks as there are entries. -/
theorem count_lineBreak_linesOf (xs : List (Handle × Entry)) :
    (linesOf xs).count lineBreak = xs.length := by
  have hcount := Entry.count_lineBreak_flatMap (xs.map Prod.snd)
  rwa [List.flatMap_map, List.length_map] at hcount

/-! ## 2. The invariant -/

variable {file : List UInt8} {as : List Action} {s t : Sink}

/-- What a sink has to do with the actions that led to it from the start on a file. -/
structure Agrees (file : List UInt8) (as : List Action) (s : Sink) : Prop where
  /-- The queue holds what was accepted and not yet taken. -/
  queue_eq : ∃ taken, accepted as = taken ++ s.queue ∧ taken.length = (fates as).length
  /-- File and waiting bytes together are what was written. -/
  bytes_eq : s.file ++ s.waiting = file ++ linesOf (writtenBy as)
  /-- The file has lost nothing. -/
  grown : file <+: s.file
  /-- Where nothing is dirty, nothing waits. -/
  clean : s.dirty = false → s.waiting = []
  /-- The writer has not ended while there was a handle or an entry. -/
  ended : s.running = false → s.handles = [] ∧ s.queue = []
  /-- An end that did not fail has left nothing waiting. -/
  settled : s.running = false → (∀ n, .failFinish n ∉ as) → s.waiting = []
  /-- The queue is bounded. -/
  queue_le : s.queue.length ≤ capacity
  /-- What waits is bounded. -/
  waiting_le : s.waiting.length ≤ Journal.capacity

theorem agrees_start (file : List UInt8) : Agrees file [] (start file) where
  queue_eq := ⟨[], rfl, rfl⟩
  bytes_eq := rfl
  grown := List.prefix_refl file
  clean := fun _ => rfl
  ended := fun h => Bool.noConfusion h
  settled := fun h => Bool.noConfusion h
  queue_le := Nat.zero_le _
  waiting_le := Nat.zero_le _

theorem isDrained_iff : s.isDrained = true ↔ s.running = true ∧ s.handles = [] ∧ s.queue = [] := by
  rw [isDrained, Bool.and_eq_true, Bool.and_eq_true, List.isEmpty_iff, List.isEmpty_iff, and_assoc]

/-- No action is possible after the end. -/
theorem running_of_step {a : Action} (hended : s.running = false → s.handles = [] ∧ s.queue = [])
    (h : s.step? a = some t) : s.running = true := by
  cases hrunning : s.running with
  | true => rfl
  | false =>
    obtain ⟨hhandles, -⟩ := hended hrunning
    cases a <;> simp [step?, hrunning, hhandles, isDrained] at h

/-- Bytes that reach the file early change nothing about file and waiting bytes together. -/
theorem partlyFlushed_bytes (s : Sink) (n : Nat) :
    (s.partlyFlushed n).file ++ (s.partlyFlushed n).waiting = s.file ++ s.waiting := by
  rw [partlyFlushed, List.append_assoc, List.take_append_drop]

theorem flushed_bytes (s : Sink) : s.flushed.file ++ s.flushed.waiting = s.file ++ s.waiting :=
  List.append_nil _

theorem written_bytes (s : Sink) (e : Entry) (rest : List (Handle × Entry)) :
    (s.written e rest).file ++ (s.written e rest).waiting = s.file ++ s.waiting ++ e.bytes := by
  rw [written, List.append_assoc, Journal.pass_append (fun _ => List.length_eq_zero_iff.mp),
    List.append_assoc]

theorem written_waiting_le {e : Entry} {rest : List (Handle × Entry)}
    (h : s.waiting.length ≤ Journal.capacity) :
    (s.written e rest).waiting.length ≤ Journal.capacity := by
  simp only [written]
  exact Journal.size_pass_le List.length_nil (fun _ _ => List.length_append) h

/-- What the writer has done with an entry, it has done with the first of the queue. -/
theorem kept_taken {taken rest : List (Handle × Entry)} {x : Handle × Entry} {fs : List Bool}
    (htaken : taken.length = fs.length) (b : Bool) :
    kept (taken ++ x :: rest) (fs ++ [b]) = kept (taken ++ x :: rest) fs ++ kept [x] [b] := by
  have hone : kept (x :: rest) [b] = kept [x] [b] := by cases b <;> cases rest <;> rfl
  rw [kept_append htaken, kept_append_left htaken, hone]

/-! ## 3. One action -/

/-- An action that neither accepts nor takes an entry keeps the invariant, if it loses no bytes
    and no action can follow an end. -/
theorem Agrees.of_quiet {a : Action} (inv : Agrees file as s) (haccepted : accepted [a] = [])
    (hfates : fates [a] = []) (hqueue : t.queue = s.queue)
    (hbytes : t.file ++ t.waiting = s.file ++ s.waiting) (hgrown : s.file <+: t.file)
    (hlength : t.waiting.length ≤ s.waiting.length) (hclean : t.dirty = false → t.waiting = [])
    (hended : t.running = false → t.handles = [] ∧ t.queue = [])
    (hsettled : t.running = false → (∀ n, a ≠ .failFinish n) → t.waiting = []) :
    Agrees file (as ++ [a]) t where
  queue_eq := by
    rw [accepted_append, fates_append, haccepted, hfates, List.append_nil, List.append_nil, hqueue]
    exact inv.queue_eq
  bytes_eq := by
    rw [hbytes, inv.bytes_eq, writtenBy, writtenBy, accepted_append, fates_append, haccepted,
      hfates, List.append_nil, List.append_nil]
  grown := inv.grown.trans hgrown
  clean := hclean
  ended := hended
  settled := fun hend hfail => hsettled hend fun n hn =>
    hfail n (List.mem_append_right _ (List.mem_singleton.mpr hn.symm))
  queue_le := hqueue ▸ inv.queue_le
  waiting_le := Nat.le_trans hlength inv.waiting_le

/-- The same for an action after which the writer still runs. -/
theorem Agrees.of_quiet_running {a : Action} (inv : Agrees file as s)
    (haccepted : accepted [a] = []) (hfates : fates [a] = []) (hrunning : t.running = true)
    (hqueue : t.queue = s.queue) (hbytes : t.file ++ t.waiting = s.file ++ s.waiting)
    (hgrown : s.file <+: t.file) (hlength : t.waiting.length ≤ s.waiting.length)
    (hclean : t.dirty = false → t.waiting = []) :
    Agrees file (as ++ [a]) t :=
  inv.of_quiet haccepted hfates hqueue hbytes hgrown hlength hclean
    (fun hend => absurd (hrunning.symm.trans hend) (by decide))
    (fun hend => absurd (hrunning.symm.trans hend) (by decide))

/-- A handle hands over an entry: it is the last that was accepted, and the last of the queue. -/
theorem Agrees.accept {h : Handle} {e : Entry} (inv : Agrees file as s)
    (hrunning : s.running = true) (hroom : s.queue.length < capacity) :
    Agrees file (as ++ [.accept h e]) { s with queue := s.queue ++ [(h, e)] } where
  queue_eq := by
    obtain ⟨taken, haccepted, htaken⟩ := inv.queue_eq
    refine ⟨taken, ?_, ?_⟩
    · rw [accepted_append, haccepted, List.append_assoc]
      rfl
    · rw [fates_append, htaken]
      exact congrArg List.length (List.append_nil _).symm
  bytes_eq := by
    obtain ⟨taken, haccepted, htaken⟩ := inv.queue_eq
    have hfates : fates (as ++ [.accept h e]) = fates as :=
      (fates_append as _).trans (List.append_nil _)
    have hsame : writtenBy (as ++ [.accept h e]) = writtenBy as := by
      rw [writtenBy, writtenBy, hfates, accepted_append, haccepted, List.append_assoc,
        kept_append_left htaken, kept_append_left htaken]
    rw [hsame]
    exact inv.bytes_eq
  grown := inv.grown
  clean := inv.clean
  ended := fun hend => absurd (hrunning.symm.trans hend) (by decide)
  settled := fun hend => absurd (hrunning.symm.trans hend) (by decide)
  queue_le := by
    rw [List.length_append, List.length_singleton]
    exact hroom
  waiting_le := inv.waiting_le

/-- The writer takes the first entry of the queue: it has the fate that the action tells. -/
theorem Agrees.take {a : Action} {x : Handle × Entry} {rest : List (Handle × Entry)} {b : Bool}
    (inv : Agrees file as s) (hqueue : s.queue = x :: rest) (haccepted : accepted [a] = [])
    (hfates : fates [a] = [b]) (htqueue : t.queue = rest)
    (hbytes : t.file ++ t.waiting = s.file ++ s.waiting ++ linesOf (kept [x] [b]))
    (hgrown : s.file <+: t.file) (hclean : t.dirty = false → t.waiting = [])
    (hrunning : t.running = true) (hlength : t.waiting.length ≤ Journal.capacity) :
    Agrees file (as ++ [a]) t where
  queue_eq := by
    obtain ⟨taken, hacc, htaken⟩ := inv.queue_eq
    refine ⟨taken ++ [x], ?_, ?_⟩
    · rw [accepted_append, haccepted, hacc, hqueue, htqueue, List.append_nil, List.append_assoc]
      rfl
    · rw [fates_append, hfates, List.length_append, List.length_append, htaken]
      rfl
  bytes_eq := by
    obtain ⟨taken, hacc, htaken⟩ := inv.queue_eq
    have hone : writtenBy (as ++ [a]) = writtenBy as ++ kept [x] [b] := by
      rw [writtenBy, writtenBy, accepted_append, fates_append, haccepted, hfates, hacc, hqueue,
        List.append_nil, kept_taken htaken]
    rw [hbytes, inv.bytes_eq, hone, linesOf_append, List.append_assoc]
  grown := inv.grown.trans hgrown
  clean := hclean
  ended := fun hend => absurd (hrunning.symm.trans hend) (by decide)
  settled := fun hend => absurd (hrunning.symm.trans hend) (by decide)
  queue_le := by
    have hle := inv.queue_le
    rw [hqueue, List.length_cons] at hle
    rw [htqueue]
    exact Nat.le_of_succ_le hle
  waiting_le := hlength

/-- **Every action keeps the invariant.** -/
theorem agrees_step {a : Action} (inv : Agrees file as s) (h : s.step? a = some t) :
    Agrees file (as ++ [a]) t := by
  have hrunning : s.running = true := running_of_step inv.ended h
  cases a with
  | clone k =>
    obtain ⟨-, ⟨⟩⟩ := Option.ite_none_right_eq_some.mp h
    exact inv.of_quiet_running rfl rfl hrunning rfl rfl (List.prefix_refl _) (Nat.le_refl _)
      inv.clean
  | drop k =>
    obtain ⟨-, ⟨⟩⟩ := Option.ite_none_right_eq_some.mp h
    exact inv.of_quiet_running rfl rfl hrunning rfl rfl (List.prefix_refl _) (Nat.le_refl _)
      inv.clean
  | accept k e =>
    obtain ⟨⟨-, hroom⟩, ⟨⟩⟩ := Option.ite_none_right_eq_some.mp h
    exact inv.accept hrunning hroom
  | write =>
    rw [step?, hrunning] at h
    match hqueue : s.queue with
    | [] => rw [hqueue] at h; cases h
    | (k, e) :: rest =>
      rw [hqueue] at h
      obtain rfl := Option.some.inj h
      refine inv.take hqueue rfl rfl rfl ?_ (List.prefix_append _ _)
        (fun hdirty => Bool.noConfusion hdirty) hrunning ?_
      · have hone : linesOf (kept [(k, e)] [true]) = e.bytes := List.append_nil _
        rw [written_bytes, hone]
      · exact written_waiting_le inv.waiting_le
  | skip n =>
    rw [step?, hrunning] at h
    match hqueue : s.queue with
    | [] => rw [hqueue] at h; cases h
    | x :: rest =>
      rw [hqueue] at h
      obtain rfl := Option.some.inj h
      refine inv.take hqueue rfl rfl rfl ?_ (List.prefix_append _ _) ?_ hrunning ?_
      · exact (partlyFlushed_bytes s n).trans (List.append_nil _).symm
      · intro hdirty
        exact congrArg (List.drop n) (inv.clean hdirty) |>.trans List.drop_nil
      · exact Nat.le_trans (List.drop_sublist n _).length_le inv.waiting_le
  | flush =>
    obtain ⟨-, ⟨⟩⟩ := Option.ite_none_right_eq_some.mp h
    exact inv.of_quiet_running rfl rfl hrunning rfl (flushed_bytes s) (List.prefix_append _ _)
      (Nat.zero_le _) (fun _ => rfl)
  | failFlush n =>
    obtain ⟨⟨-, hdirty⟩, ⟨⟩⟩ := Option.ite_none_right_eq_some.mp h
    exact inv.of_quiet_running rfl rfl hrunning rfl (partlyFlushed_bytes s n)
      (List.prefix_append _ _) (List.drop_sublist n _).length_le
      (fun hclean => Bool.noConfusion (hdirty.symm.trans hclean))
  | finish =>
    obtain ⟨hdrained, ⟨⟩⟩ := Option.ite_none_right_eq_some.mp h
    obtain ⟨hhandles, hqueue⟩ := (isDrained_iff.mp hdrained).2
    cases hdirty : s.dirty with
    | true =>
      exact inv.of_quiet rfl rfl rfl (flushed_bytes s) (List.prefix_append _ _) (Nat.zero_le _)
        (fun _ => rfl) (fun _ => ⟨hhandles, hqueue⟩) (fun _ _ => rfl)
    | false =>
      exact inv.of_quiet rfl rfl rfl rfl (List.prefix_refl _) (Nat.le_refl _) inv.clean
        (fun _ => ⟨hhandles, hqueue⟩) (fun _ _ => inv.clean hdirty)
  | failFinish n =>
    obtain ⟨⟨hdrained, hdirty⟩, ⟨⟩⟩ := Option.ite_none_right_eq_some.mp h
    obtain ⟨hhandles, hqueue⟩ := (isDrained_iff.mp hdrained).2
    exact inv.of_quiet rfl rfl rfl (partlyFlushed_bytes s n) (List.prefix_append _ _)
      (List.drop_sublist n _).length_le (fun hclean => Bool.noConfusion (hdirty.symm.trans hclean))
      (fun _ => ⟨hhandles, hqueue⟩) (fun _ hfail => absurd rfl (hfail n))

/-! ## 4. Runs -/

/-- **Every run keeps the invariant**, by induction on the actions to come. -/
theorem agrees_run : ∀ {bs as : List Action} {s : Sink}, Agrees file as s → s.run? bs = some t →
    Agrees file (as ++ bs) t
  | [], as, s, inv, h => by
      obtain rfl := Option.some.inj h
      rwa [List.append_nil]
  | a :: rest, as, s, inv, h => by
      obtain ⟨u, hstep, hrest⟩ := Option.bind_eq_some_iff.mp h
      have hall : Agrees file ((as ++ [a]) ++ rest) t := agrees_run (agrees_step inv hstep) hrest
      rwa [List.append_assoc] at hall

/-- A sink that was started agrees with all that has happened since. -/
theorem agrees_of_start (h : (start file).run? as = some s) : Agrees file as s :=
  agrees_run (agrees_start file) h

namespace Agrees

/-- The file is what it was, followed by a beginning of the lines that were written. -/
theorem file_eq (inv : Agrees file as s) :
    ∃ reached, s.file = file ++ reached ∧ reached ++ s.waiting = linesOf (writtenBy as) := by
  obtain ⟨reached, hreached⟩ := inv.grown
  refine ⟨reached, hreached.symm, ?_⟩
  have hbytes := inv.bytes_eq
  rw [← hreached, List.append_assoc] at hbytes
  exact List.append_cancel_left hbytes

/-- There is one written entry for each writing. -/
theorem length_writtenBy (inv : Agrees file as s) :
    (writtenBy as).length = (fates as).count true := by
  obtain ⟨taken, haccepted, htaken⟩ := inv.queue_eq
  rw [writtenBy, haccepted, kept_append_left htaken]
  exact length_kept htaken

/-- Where the queue is empty, the fate of every entry is known. -/
theorem length_fates (inv : Agrees file as s) (h : s.queue = []) :
    (fates as).length = (accepted as).length := by
  obtain ⟨taken, haccepted, htaken⟩ := inv.queue_eq
  rw [haccepted, h, List.append_nil, htaken]

end Agrees

/-- **The sink loses and duplicates nothing.** Whatever the handles do, whenever the writer writes
    and flushes, and whichever of that fails:
    the writer ends only when no handle and no entry is left, and then nothing happens any more;
    at all times the file is what it was, followed by a beginning of the lines of the entries that
    were written; after an end that did not fail it is followed by all of these lines, one for each
    writing, and no entry is without its fate;
    the lines stand in the order of acceptance, and so do those of each handle. -/
theorem sink_faithful (h : (start file).run? as = some s) :
    (s.running = false → s.handles = [] ∧ s.queue = [] ∧ ∀ a, s.step? a = none)
      ∧ (∃ reached, s.file = file ++ reached ∧ reached <+: linesOf (writtenBy as))
      ∧ (s.running = false → (∀ n, .failFinish n ∉ as) →
          s.file = file ++ linesOf (writtenBy as)
            ∧ s.file.count lineBreak = file.count lineBreak + (writtenBy as).length
            ∧ (fates as).length = (accepted as).length)
      ∧ (writtenBy as).length = (fates as).count true
      ∧ (writtenBy as).Sublist (accepted as)
      ∧ ∀ k, ((writtenBy as).filter (·.1 == k)).Sublist ((accepted as).filter (·.1 == k)) := by
  have inv : Agrees file as s := agrees_of_start h
  obtain ⟨reached, hfile, hreached⟩ := inv.file_eq
  have hsub : (writtenBy as).Sublist (accepted as) := kept_sublist _ _
  refine ⟨fun hend => ?_, ⟨reached, hfile, s.waiting, hreached⟩, fun hend hfail => ?_,
    inv.length_writtenBy, hsub, fun k => hsub.filter _⟩
  · obtain ⟨hhandles, hqueue⟩ := inv.ended hend
    refine ⟨hhandles, hqueue, fun a => Option.eq_none_iff_forall_ne_some.mpr fun t hstep => ?_⟩
    exact absurd ((running_of_step inv.ended hstep).symm.trans hend) (by decide)
  · have hall : s.file = file ++ linesOf (writtenBy as) := by
      rw [inv.settled hend hfail, List.append_nil] at hreached
      rw [hfile, hreached]
    refine ⟨hall, ?_, inv.length_fates (inv.ended hend).2⟩
    rw [hall, List.count_append, count_lineBreak_linesOf]

/-- An entry without details. -/
def briefEntry (type : EventType) : Entry :=
  ⟨.zero, .ofEpoch 0 0, type, .ofComponent "gate", .object [], none⟩

/-- Two handles send an entry each; a flush and the second writing fail. -/
def twoHandles : List Action :=
  [.clone 0, .accept 1 (briefEntry .accessAllowed), .write, .failFlush 7,
    .accept 0 (briefEntry .accessDenied), .drop 0, .skip 3, .drop 1, .finish]

theorem sink_faithful_two_handles :
    ∃ s, (start [lineBreak]).run? twoHandles = some s ∧ s.running = false
      ∧ s.file = [lineBreak] ++ (briefEntry .accessAllowed).bytes := by
  have hended : ((start [lineBreak]).run? twoHandles).map Sink.running = some false := by
    decide +kernel
  obtain ⟨s, hrun, hend⟩ := Option.map_eq_some_iff.mp hended
  have hfail : ∀ n, .failFinish n ∉ twoHandles := by simp [twoHandles]
  have hlines : linesOf (writtenBy twoHandles) = (briefEntry .accessAllowed).bytes :=
    List.append_nil _
  refine ⟨s, hrun, hend, ?_⟩
  rw [((sink_faithful hrun).2.2.1 hend hfail).1, hlines]

/-- Where nothing is skipped, all that was accepted is written by the end. -/
theorem writtenBy_of_no_skip (h : (start file).run? as = some s) (hend : s.running = false)
    (hskip : ∀ n, .skip n ∉ as) : writtenBy as = accepted as := by
  have inv : Agrees file as s := agrees_of_start h
  refine kept_of_all (inv.length_fates (inv.ended hend).2).symm fun b hb => ?_
  obtain ⟨a, ha, hab⟩ := List.mem_filterMap.mp hb
  cases a with
  | write => exact (Option.some.inj hab).symm
  | skip n => exact absurd ha (hskip n)
  | clone _ | drop _ | accept _ _ | flush | failFlush _ | finish | failFinish _ => cases hab

/-- **A writer whose handles are gone can come to its end**: it writes what is queued, and ends. -/
theorem can_end : ∀ (queue : List (Handle × Entry)) (s : Sink), s.queue = queue →
    s.running = true → s.handles = [] →
    ∃ t, s.run? (queue.map (fun _ => .write) ++ [.finish]) = some t ∧ t.running = false
  | [], s, hqueue, hrunning, hhandles => by
      have hdrained : s.isDrained = true := isDrained_iff.mpr ⟨hrunning, hhandles, hqueue⟩
      exact ⟨_, congrArg (Option.bind · some) (if_pos hdrained), rfl⟩
  | x :: rest, s, hqueue, hrunning, hhandles => by
      have hstep : s.step? .write = some (s.written x.2 rest) := by rw [step?, hrunning, hqueue]
      obtain ⟨t, hrun, hend⟩ := can_end rest (s.written x.2 rest) rfl hrunning hhandles
      refine ⟨t, ?_, hend⟩
      rw [List.map_cons, List.cons_append, run?, hstep]
      exact hrun

end Sink

end Gatehouse.Audit
