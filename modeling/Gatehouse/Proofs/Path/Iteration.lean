import Gatehouse.Proofs.Path.Grammar
import Mathlib.Logic.Function.Iterate

/-!
# The walk over a path, call by call

What this file fixes, and what it shows for every path:

* `Segments`, `Segments.call`: the walk as a record of four fields that a call may change, with what
  the call hands out;
* `Segments.place`, `call_eq`: the place of the walk that a record stands for; a call does there what
  `Cursor.next` does, and ends the walk where nothing is left;
* `Segments.left`, `call_refines`: a call hands out the first of the items that are left and leaves
  the others; `call_after`: so calls hand out one item after the other, and nothing behind the last;
* `Cursor.length_items_lt`, `Cursor.isInfix_of_key`: how many items there are at most, and where
  their keys stand in the text;
* `Use`, `uses`: calls of something and of copies that are taken of it in between;
  `getElem?_uses`: none feels what is done with the others; `answer?_of_clone`: a copy hands out
  what the original still hands out;
* `iteration_exact`: all of this from the start of a path.
-/

namespace Gatehouse

/-! ## 1. The record -/

/-- A walk that is called for its items: the characters that are left, whether a segment is due, a
    mistake still to be reported, and whether the walk has ended. -/
structure Segments where
  rest : List Char
  due : Bool
  mistake : Option PathError
  ended : Bool
  deriving DecidableEq, Repr

namespace Segments

/-- A mistake is handed out and ends the walk, whatever is left of the text. -/
def fail (s : Segments) (e : PathError) : Option Item × Segments :=
  (some (.error e), { s with ended := true })

/-- A dot after a segment is passed over and makes another segment due. Otherwise none is due, and
    only the end or a bracket may follow. -/
def passSeparator (s : Segments) : Option PathError × Segments :=
  match s.rest with
  | '.' :: rest => (none, { s with rest := rest, due := true })
  | [] | '[' :: _ => (none, { s with due := false })
  | c :: _ => (some (.unexpectedCharacter c), { s with due := false })

/-- A segment is handed out if what follows may follow it. -/
def handOut (s : Segments) (segment : Segment) : Option Item × Segments :=
  match s.passSeparator with
  | (none, t) => (some (.ok segment), t)
  | (some e, t) => t.fail e

/-- What a call hands out, if anything, and the record after it. -/
def call (s : Segments) : Option Item × Segments :=
  if s.ended then (none, s)
  else match s.mistake with
    | some e => { s with mistake := none }.fail e
    | none =>
        match s.rest with
        | [] => if s.due then s.fail .emptySegment else (none, { s with ended := true })
        | '[' :: inner =>
            match Cursor.selector? inner with
            | none => s.fail .unclosedBracket
            | some (sel, rest) =>
                if sel = ['*'] then { s with rest := rest }.handOut .wildcard
                else s.fail (.unsupportedSelector (String.ofList sel))
        | cs =>
            if Cursor.keyChars cs = [] then s.fail .emptySegment
            else { s with rest := Cursor.afterKey cs }.handOut
              (.key (String.ofList (Cursor.keyChars cs)))

/-- The place of the walk that a record stands for. -/
def place (s : Segments) : Cursor :=
  if s.ended then .finished
  else match s.mistake with
    | some e => .broken e
    | none => .reading s.rest s.due

end Segments

/-- The record at the start of a path. -/
def Path.segments (p : Path) : Segments :=
  match p.split? with
  | some (_, rest) => ⟨rest, true, none, false⟩
  | none => ⟨[], false, some .unknownNamespace, false⟩

namespace Segments

theorem place_segments (p : Path) : p.segments.place = p.cursor := by
  unfold Path.segments Path.cursor
  cases p.split? <;> rfl

/-! ## 2. One call -/

variable {due : Bool}

theorem place_reading (rest : List Char) : place ⟨rest, due, none, false⟩ = .reading rest due := rfl

/-- A segment is handed out by the record as it is at the record's place. -/
theorem handOut_eq (rest : List Char) (segment : Segment) :
    (handOut ⟨rest, due, none, false⟩ segment).1 = some (Cursor.handOut segment rest).1 ∧
      (handOut ⟨rest, due, none, false⟩ segment).2.place = (Cursor.handOut segment rest).2 := by
  cases rest with
  | nil => exact ⟨rfl, rfl⟩
  | cons c rest =>
      by_cases hdot : c = '.'
      · subst hdot
        exact ⟨rfl, rfl⟩
      · by_cases hbracket : c = '['
        · subst hbracket
          exact ⟨rfl, rfl⟩
        · simp [handOut, passSeparator, Cursor.handOut, Cursor.afterSegment, fail, place]

/-- The call at a bracket reads a wildcard, or there is a mistake. -/
theorem call_of_bracket {inner : List Char} :
    call ⟨'[' :: inner, due, none, false⟩ =
      match Cursor.selector? inner with
      | none => fail ⟨'[' :: inner, due, none, false⟩ .unclosedBracket
      | some (sel, rest) =>
          if sel = ['*'] then handOut ⟨rest, due, none, false⟩ .wildcard
          else fail ⟨'[' :: inner, due, none, false⟩
            (.unsupportedSelector (String.ofList sel)) := rfl

/-- The call at a character that is no bracket reads a key. -/
theorem call_of_ne_bracket {c : Char} {cs : List Char} (h : c ≠ '[') :
    call ⟨c :: cs, due, none, false⟩ =
      if Cursor.keyChars (c :: cs) = [] then fail ⟨c :: cs, due, none, false⟩ .emptySegment
      else handOut ⟨Cursor.afterKey (c :: cs), due, none, false⟩
        (.key (String.ofList (Cursor.keyChars (c :: cs)))) := by
  unfold call
  simp only [Bool.false_eq_true, if_false]
  split
  · rename_i heq
    cases heq
  · rename_i heq
    cases heq
    exact absurd rfl h
  · rfl

/-- Where there are characters left, a call does what the walk does next. -/
theorem call_reading (c : Char) (cs : List Char) :
    (call ⟨c :: cs, due, none, false⟩).1 = (Cursor.reading (c :: cs) due).next.map Prod.fst ∧
      (call ⟨c :: cs, due, none, false⟩).2.place =
        ((Cursor.reading (c :: cs) due).next.map Prod.snd).getD .finished := by
  by_cases hc : c = '['
  · subst hc
    rw [call_of_bracket, Cursor.next_of_bracket]
    cases Cursor.selector? cs with
    | none => exact ⟨rfl, rfl⟩
    | some found =>
        obtain ⟨sel, rest⟩ := found
        by_cases hsel : sel = ['*']
        · simp only [if_pos hsel]
          exact handOut_eq rest .wildcard
        · simp only [if_neg hsel]
          exact ⟨rfl, rfl⟩
  · rw [call_of_ne_bracket hc, Cursor.next_of_ne_bracket hc]
    by_cases hkey : Cursor.keyChars (c :: cs) = []
    · simp only [if_pos hkey]
      exact ⟨rfl, rfl⟩
    · simp only [if_neg hkey]
      exact handOut_eq _ _

/-- **A call does what the walk does next at the place of the record.** Where nothing is left it ends
    the walk. -/
theorem call_eq (s : Segments) : s.call.1 = s.place.next.map Prod.fst ∧
    s.call.2.place = (s.place.next.map Prod.snd).getD .finished := by
  obtain ⟨rest, due, mistake, ended⟩ := s
  cases ended with
  | true => exact ⟨rfl, rfl⟩
  | false =>
      cases mistake with
      | some e => exact ⟨rfl, rfl⟩
      | none =>
          cases rest with
          | nil => cases due <;> exact ⟨rfl, rfl⟩
          | cons c cs =>
              rw [place_reading]
              exact call_reading c cs

/-! ## 3. All calls -/

/-- The items that are left. -/
def left (s : Segments) : List Item := s.place.items

theorem left_segments (p : Path) : p.segments.left = p.items := by
  rw [left, place_segments]
  rfl

/-- **A call hands out the first of the items that are left** and leaves the others. -/
theorem call_refines (s : Segments) : s.call.1 = s.left.head? ∧ s.call.2.left = s.left.tail := by
  obtain ⟨hanswer, hplace⟩ := call_eq s
  unfold left
  rw [hanswer, hplace]
  cases hnext : s.place.next with
  | none =>
      rw [Cursor.items_of_no_next hnext]
      exact ⟨rfl, rfl⟩
  | some step =>
      rw [Cursor.items_of_next hnext]
      exact ⟨rfl, rfl⟩

/-- The record after a number of calls. -/
def after (s : Segments) (n : Nat) : Segments := (fun t => t.call.2)^[n] s

theorem after_succ (s : Segments) (n : Nat) : s.after (n + 1) = (s.after n).call.2 :=
  Function.iterate_succ_apply' _ n s

theorem left_after (s : Segments) (n : Nat) : (s.after n).left = s.left.drop n := by
  induction n with
  | zero => rfl
  | succ n ih => rw [after_succ, (call_refines _).2, ih, List.tail_drop]

/-- **Calls hand out one item after the other**, and nothing once all have been handed out. -/
theorem call_after (s : Segments) (n : Nat) : (s.after n).call.1 = s.left[n]? := by
  rw [(call_refines _).1, left_after, List.head?_drop]

end Segments

/-! ## 4. Number and place of the items -/

namespace Cursor

/-- The text that is left to the walk. -/
def text : Cursor → List Char
  | .reading rest _ => rest
  | _ => []

theorem span_le (c : Cursor) : c.span ≤ c.text.length + 2 := by
  cases c <;> simp [span, text]

/-- There are fewer items than the walk may take steps. -/
theorem length_items_lt (c : Cursor) : c.items.length < c.span := by
  induction c using walk_induction with
  | stop c h =>
      rw [items_of_no_next h]
      exact c.span_pos
  | step c i c' h ih =>
      rw [items_of_next h, List.length_cons]
      have hlt := span_lt_of_next h
      omega

/-- What a step leaves of the text is its end. -/
theorem text_suffix_of_next {c c' : Cursor} {i : Item} (h : c.next = some (i, c')) :
    c'.text <:+ c.text := by
  cases i with
  | error e =>
      rw [next_error h]
      exact List.nil_suffix
  | ok s =>
      obtain ⟨written, rest, due, rfl, _, hrest⟩ := next_eq_ok_iff.mp h
      have hsuffix : c'.text <:+ rest := by
        rcases afterSegment_eq_ok_iff.mp hrest with ⟨rfl, rfl⟩ | ⟨_, rfl, rfl⟩ | ⟨_, rfl, rfl⟩
        · exact List.suffix_rfl
        · exact List.suffix_cons _ _
        · exact List.suffix_rfl
      exact hsuffix.trans (List.suffix_append written rest)

/-- **A key that is handed out is one, and stands in the text.** -/
theorem isInfix_of_key {c : Cursor} {k : String} (h : .ok (.key k) ∈ c.items) :
    IsKey k.toList ∧ k.toList <:+: c.text := by
  induction c using walk_induction with
  | stop c hnext =>
      rw [items_of_no_next hnext] at h
      cases h
  | step c i c' hnext ih =>
      rw [items_of_next hnext] at h
      rcases List.mem_cons.mp h with rfl | h
      · obtain ⟨written, rest, due, rfl, hwrites, _⟩ := next_eq_ok_iff.mp hnext
        cases hwrites with
        | key hk =>
            rw [String.toList_ofList]
            exact ⟨hk, (List.prefix_append _ rest).isInfix⟩
      · obtain ⟨hk, hinfix⟩ := ih h
        exact ⟨hk, hinfix.trans (text_suffix_of_next hnext).isInfix⟩

end Cursor

theorem Path.text_cursor_suffix (p : Path) : p.cursor.text <:+ p.text.toList := by
  unfold cursor
  cases hsplit : p.split? with
  | none => exact List.nil_suffix
  | some found =>
      obtain ⟨n, rest⟩ := found
      rw [split?_eq_some_iff.mp hsplit]
      exact (List.suffix_cons '.' rest).trans (List.suffix_append _ _)

/-! ## 5. Copies -/

/-- What can be done with something and with copies of it. They are numbered in the order in which
    they are taken; the original has the number 0. -/
inductive Use where
  | call (h : Nat)
  | clone (h : Nat)
  deriving DecidableEq, Repr

section Copies

variable {α β : Type}

/-- Original and copies after a use, where `f` is what a call makes of one. -/
def use (f : α → α) (xs : List α) : Use → List α
  | .call h => xs.modify h f
  | .clone h => xs ++ xs[h]?.toList

/-- Original and copies after a sequence of uses. -/
def uses (f : α → α) (xs : List α) (us : List Use) : List α := us.foldl (use f) xs

variable {f : α → α} {xs : List α} {h : Nat}

theorem length_le_use (u : Use) : xs.length ≤ (use f xs u).length := by
  cases u with
  | call i => rw [use, List.length_modify]
  | clone i =>
      rw [use, List.length_append]
      exact Nat.le_add_right _ _

/-- A use changes the one that is called and no other. -/
theorem getElem?_use (hlt : h < xs.length) (u : Use) :
    (use f xs u)[h]? = if u = .call h then xs[h]?.map f else xs[h]? := by
  cases u with
  | call i =>
      rw [use, List.getElem?_modify]
      simp only [Use.call.injEq]
      split <;> simp
  | clone i =>
      rw [use, List.getElem?_append_left hlt, if_neg]
      exact fun heq => by cases heq

/-- **Each is what its own calls make of it**, whatever is done with the others. -/
theorem getElem?_uses (hlt : h < xs.length) (us : List Use) :
    (uses f xs us)[h]? = xs[h]?.map f^[us.count (.call h)] := by
  induction us generalizing xs with
  | nil => simp [uses]
  | cons u us ih =>
      show (uses f (use f xs u) us)[h]? = _
      rw [ih (Nat.lt_of_lt_of_le hlt (length_le_use u)), getElem?_use hlt, List.count_cons]
      by_cases hu : u = .call h
      · rw [if_pos hu, if_pos (beq_iff_eq.mpr hu), Option.map_map, Function.iterate_succ]
      · rw [if_neg hu, if_neg (fun heq => hu (beq_iff_eq.mp heq)), Nat.add_zero]

theorem map_use {g : β → β} {m : α → β} (hm : ∀ x, m (f x) = g (m x)) (u : Use) :
    (use f xs u).map m = use g (xs.map m) u := by
  cases u with
  | call i =>
      refine List.ext_getElem? fun j => ?_
      simp only [use, List.getElem?_map, List.getElem?_modify]
      split
      · simp [Function.comp_def, hm]
      · simp
  | clone i => rw [use, use, List.map_append, List.getElem?_map, Option.toList_map]

/-- What one value says of another, it says of all copies after the same uses. -/
theorem map_uses {g : β → β} {m : α → β} (hm : ∀ x, m (f x) = g (m x)) (us : List Use) :
    (uses f xs us).map m = uses g (xs.map m) us := by
  induction us generalizing xs with
  | nil => rfl
  | cons u us ih =>
      show (uses f (use f xs u) us).map m = uses g (use g (xs.map m) u) us
      rw [ih, map_use hm]

end Copies

/-- How many calls lie behind the original and each copy after a sequence of uses. Those of the
    one that a copy has been taken of lie behind the copy as well. -/
def passed (us : List Use) : List Nat := uses (· + 1) [0] us

namespace Segments

/-- A record and its copies after a sequence of uses. -/
def copies (s : Segments) (us : List Use) : List Segments := uses (fun t => t.call.2) [s] us

/-- What the next call of one of them hands out, if there is one of that number. -/
def answer? (ts : List Segments) (h : Nat) : Option (Option Item) :=
  ts[h]?.map fun t => t.call.1

/-- **A record is where the calls behind it have led.** -/
theorem copies_eq (s : Segments) (us : List Use) : s.copies us = (passed us).map s.after := by
  rw [passed, map_uses (g := fun t : Segments => t.call.2) s.after_succ]
  rfl

theorem iterate_after (s : Segments) (k n : Nat) :
    (fun t => t.call.2)^[n] (s.after k) = s.after (k + n) := by
  rw [after, after, Nat.add_comm, Function.iterate_add_apply]

/-- **A copy hands out what the original still hands out**, each at its own calls. -/
theorem answer?_of_clone (s : Segments) {us : List Use} {h k : Nat} (hk : (passed us)[h]? = some k)
    (vs : List Use) :
    answer? (s.copies (us ++ .clone h :: vs)) h =
        some ((s.left.drop k)[vs.count (.call h)]?) ∧
      answer? (s.copies (us ++ .clone h :: vs)) (passed us).length =
        some ((s.left.drop k)[vs.count (.call (passed us).length)]?) := by
  have hcopies : s.copies (us ++ .clone h :: vs) =
      uses (fun t => t.call.2) (s.copies us ++ [s.after k]) vs := by
    have hfound : (s.copies us)[h]? = some (s.after k) := by
      rw [copies_eq, List.getElem?_map, hk]
      rfl
    rw [copies, uses, List.foldl_append, List.foldl_cons]
    show uses _ (s.copies us ++ (s.copies us)[h]?.toList) vs = _
    rw [hfound]
    rfl
  have hlength : (s.copies us).length = (passed us).length := by
    rw [copies_eq, List.length_map]
  have hanswer : ∀ i, (s.copies us ++ [s.after k])[i]? = some (s.after k) →
      answer? (s.copies (us ++ .clone h :: vs)) i =
        some ((s.left.drop k)[vs.count (.call i)]?) := by
    intro i hi
    obtain ⟨hlt, _⟩ := List.getElem?_eq_some_iff.mp hi
    rw [answer?, hcopies, getElem?_uses hlt, hi, Option.map_some, Option.map_some, iterate_after,
      call_after, List.getElem?_drop]
  constructor
  · refine hanswer h ?_
    have hlt : h < (s.copies us).length := hlength ▸ (List.getElem?_eq_some_iff.mp hk).1
    rw [List.getElem?_append_left hlt, copies_eq, List.getElem?_map, hk]
    rfl
  · refine hanswer _ ?_
    rw [← hlength]
    exact List.getElem?_concat_length

end Segments

/-! ## 6. Paths -/

/-- **A path can be walked whatever its text is.** There is at most one item more than the text has
    characters. The calls of the walk hand them out one by one and nothing from then on; only the
    last one may be an error. A key among them is a part of the text with at least one character
    and without a dot or an opening bracket. And a copy that is taken at any point, which may be
    one of a copy, hands out what the original still hands out, in whatever order they are called. -/
theorem iteration_exact (p : Path) :
    p.items.length ≤ p.text.length + 1 ∧
    (∀ n, (p.segments.after n).call.1 = p.items[n]?) ∧
    (∃ ss : List Segment, p.items = ss.map .ok ∨ ∃ e, p.items = ss.map .ok ++ [.error e]) ∧
    (∀ k, .ok (.key k) ∈ p.items →
      k ≠ "" ∧ '.' ∉ k.toList ∧ '[' ∉ k.toList ∧ k.toList <:+: p.text.toList) ∧
    ∀ us h k, (passed us)[h]? = some k → ∀ vs,
      Segments.answer? (p.segments.copies (us ++ .clone h :: vs)) h =
          some ((p.items.drop k)[vs.count (.call h)]?) ∧
        Segments.answer? (p.segments.copies (us ++ .clone h :: vs)) (passed us).length =
          some ((p.items.drop k)[vs.count (.call (passed us).length)]?) := by
  refine ⟨?_, fun n => ?_, p.cursor.exists_segments, fun k hk => ?_, fun us h k hk vs => ?_⟩
  · have hlt := p.cursor.length_items_lt
    have hspan := p.cursor.span_le
    have htext := p.text_cursor_suffix.length_le
    rw [String.length_toList] at htext
    show p.cursor.items.length ≤ _
    omega
  · rw [Segments.call_after, Segments.left_segments]
  · obtain ⟨hkey, hinfix⟩ := Cursor.isInfix_of_key hk
    refine ⟨fun hempty => hkey.ne_nil ?_, hkey.no_dot, hkey.no_bracket,
      hinfix.trans p.text_cursor_suffix.isInfix⟩
    rw [hempty]
    rfl
  · rw [← Segments.left_segments]
    exact Segments.answer?_of_clone _ hk vs

/-- A path with nothing between two of its dots. -/
def gapPath : Path := ⟨"subject.a..b"⟩

/-- A copy that is taken behind the key still reports the gap when the original has done so and
    hands out nothing more. -/
theorem iteration_exact_gap :
    .ok (.key "a") ∈ gapPath.items ∧
    ("a" ≠ "" ∧ '.' ∉ "a".toList ∧ '[' ∉ "a".toList ∧ "a".toList <:+: gapPath.text.toList) ∧
    (passed [.call 0])[0]? = some 1 ∧
    Segments.answer? (gapPath.segments.copies [.call 0, .clone 0, .call 0, .call 0]) 0 =
      some none ∧
    Segments.answer? (gapPath.segments.copies [.call 0, .clone 0, .call 0, .call 0]) 1 =
      some (some (.error .emptySegment)) := by
  obtain ⟨_, _, _, hkeys, hcopies⟩ := iteration_exact gapPath
  have hkey : .ok (.key "a") ∈ gapPath.items := by decide +kernel
  obtain ⟨horiginal, hcopy⟩ := hcopies [.call 0] 0 1 rfl [.call 0, .call 0]
  exact ⟨hkey, hkeys "a" hkey, rfl, horiginal.trans (by decide +kernel),
    hcopy.trans (by decide +kernel)⟩

end Gatehouse
