import Gatehouse.Proofs.Path.Grammar
import Gatehouse.Proofs.Resolution
import Gatehouse.Proofs.Text
import Gatehouse.Proofs.Value.Order
import Mathlib.Data.List.Nodup
import Mathlib.Data.Nat.Digits.Defs

/-!
# The meaning of a path

What this file fixes, and what it shows about `Context.resolve`:

* `Value.selected?`, `Segment.meaning`, `meaning`: what segments lead to from a value, as a fold over
  the list of segments, said without the walk; a key that is a numeral counts the items of a list;
* `Context.Has`: what a namespace holds under a key, with the names of headers in any case;
* `Cursor.follow?`, `Context.walk`: resolution that reads the path while it goes down the data, and
  reads what follows a wildcard anew for every item; `walk_eq_resolve`: this comes to the same;
* `resolve_exact`: a well-formed path leads to what its meaning makes of the entry of its first key.
-/

namespace Gatehouse

/-! ## 1. Keys -/

/-- The key is a numeral: it consists of ASCII digits only. -/
def IsNumeral (key : String) : Prop :=
  key.toList ≠ [] ∧ ∀ c ∈ key.toList, '0'.toNat ≤ c.toNat ∧ c.toNat ≤ '9'.toNat

instance (key : String) : Decidable (IsNumeral key) :=
  inferInstanceAs (Decidable (_ ∧ _))

/-- The number that a numeral writes, its last digit counting once, and every other ten times as much
    as the next. -/
def numeralValue (key : String) : Nat :=
  Nat.ofDigits 10 (key.toList.reverse.map fun c => c.toNat - '0'.toNat)

/-- What a key selects in a value. -/
def Value.selected? (key : String) : Value → Option Value
  | .object entries => entries.lookup key
  | .array items => if IsNumeral key then items[numeralValue key]? else none
  | _ => none

theorem decimalValue_eq_ofDigits (cs : List Char) :
    Text.decimalValue cs = Nat.ofDigits 10 (cs.reverse.map fun c => c.toNat - '0'.toNat) := by
  rw [Text.decimalValue, Nat.ofDigits_eq_foldr, List.foldr_map, List.foldr_reverse]
  congr 1
  funext n c
  rw [Nat.mul_comm, Nat.add_comm]
  rfl

theorem isDigit_iff {c : Char} : c.isDigit = true ↔ '0'.toNat ≤ c.toNat ∧ c.toNat ≤ '9'.toNat := by
  unfold Char.isDigit
  rw [Bool.and_eq_true, decide_eq_true_iff, decide_eq_true_iff]
  exact Iff.rfl

theorem listIndex?_eq (key : String) :
    listIndex? key = if IsNumeral key then some (numeralValue key) else none := by
  have hiff : (!key.toList.isEmpty && key.toList.all Char.isDigit) = true ↔ IsNumeral key := by
    rw [IsNumeral, Bool.and_eq_true, List.all_eq_true]
    simp only [isDigit_iff]
    simp
  unfold listIndex? numeralValue
  simp only [decimalValue_eq_ofDigits, hiff]

theorem Value.child?_eq_selected? (v : Value) (key : String) : v.child? key = v.selected? key := by
  cases v with
  | array items =>
      rw [child?, selected?, listIndex?_eq]
      split <;> rfl
  | null | bool b | number n | string s | object entries => rfl

/-- The number that digits write, read one digit after the other, unless the number read so far
    reaches a limit. -/
def numberWithin? (limit : Nat) (cs : List Char) : Option Nat :=
  cs.foldlM (fun n c =>
    if n * 10 + Text.digitValue c < limit then some (n * 10 + Text.digitValue c) else none) 0

theorem le_foldl_decimal (cs : List Char) (n : Nat) :
    n ≤ cs.foldl (fun n c => n * 10 + Text.digitValue c) n := by
  induction cs generalizing n with
  | nil => exact Nat.le_refl n
  | cons c cs ih =>
      rw [List.foldl_cons]
      have hle := ih (n * 10 + Text.digitValue c)
      omega

/-- A number that is read up to a limit is the number that is written, if that is below the limit. -/
theorem numberWithin?_eq {limit : Nat} (hpos : 0 < limit) (cs : List Char) :
    numberWithin? limit cs =
      if Text.decimalValue cs < limit then some (Text.decimalValue cs) else none := by
  have hfrom : ∀ n, n < limit → cs.foldlM (fun n c =>
        if n * 10 + Text.digitValue c < limit then some (n * 10 + Text.digitValue c) else none) n =
      if cs.foldl (fun n c => n * 10 + Text.digitValue c) n < limit then
        some (cs.foldl (fun n c => n * 10 + Text.digitValue c) n) else none := by
    induction cs with
    | nil =>
        intro n hn
        rw [List.foldl_nil, if_pos hn]
        rfl
    | cons c cs ih =>
        intro n hn
        rw [List.foldlM_cons, List.foldl_cons]
        by_cases hnext : n * 10 + Text.digitValue c < limit
        · rw [if_pos hnext]
          exact ih _ hnext
        · have hle := le_foldl_decimal cs (n * 10 + Text.digitValue c)
          rw [if_neg hnext, if_neg (by omega)]
          rfl
  exact hfrom 0 hpos

/-- **No item is selected through an overflow.** Where a numeral is read up to a limit only, as with
    integers of a fixed width, it selects the same item of every list that is no longer than the
    limit. -/
theorem selected?_eq_within {limit : Nat} (hpos : 0 < limit) {items : List Value}
    (hlength : items.length ≤ limit) {key : String} (hkey : IsNumeral key) :
    Value.selected? key (.array items) =
      (numberWithin? limit key.toList).bind fun i => items[i]? := by
  rw [Value.selected?, if_pos hkey, numberWithin?_eq hpos, numeralValue, ← decimalValue_eq_ofDigits]
  split
  · rfl
  · rw [Option.bind_none, List.getElem?_eq_none (by omega)]

/-! ## 2. Segments -/

/-- What a segment makes of a value, where it is known what those after it make of one. A key goes on
    from what it selects; a wildcard makes a list of what is led to from the items of a list, in
    their order and without the items that lead nowhere. -/
def Segment.meaning (s : Segment) (after : Value → Option Value) (v : Value) : Option Value :=
  match s, v with
  | .key k, v => (v.selected? k).bind after
  | .wildcard, .array items => some (.array (items.filterMap after))
  | .wildcard, _ => none

/-- What segments lead to from a value. -/
def meaning (ss : List Segment) : Value → Option Value := ss.foldr Segment.meaning some

/-- Segments go on from where they lead to along the items after them. -/
theorem Value.descend?_append (ss : List Segment) (items : List Item) :
    Value.descend? (ss.map .ok ++ items) = ss.foldr Segment.meaning (Value.descend? items) := by
  induction ss with
  | nil => rfl
  | cons s ss ih =>
      funext v
      rw [List.map_cons, List.cons_append, List.foldr_cons, ← ih]
      cases s with
      | key k => rw [Value.descend?, child?_eq_selected?, Segment.meaning]
      | wildcard =>
          cases v with
          | array items => rw [Value.descend?, Segment.meaning]
          | null | bool b | number n | string s | object entries => rfl

theorem Value.descend?_eq_meaning (ss : List Segment) :
    Value.descend? (ss.map .ok) = meaning ss := by
  have happend := descend?_append ss []
  rw [List.append_nil] at happend
  exact happend

/-! ## 3. Entries -/

/-- The headers have the value under the name. Either one of them is spelled so; or none is, and the
    value belongs to the first in the order of bytes that differs from the name only in the case of
    ASCII letters. -/
inductive HeaderHas (headers : Attributes) (name : String) (v : Value) : Prop
  | spelled : headers.lookup name = some v → HeaderHas headers name v
  | folded {first : String} : headers.lookup name = none → (first, v) ∈ headers →
      Text.sameIgnoringCase first name = true →
      (∀ e ∈ headers, Text.sameIgnoringCase e.1 name = true → e.1 ≠ first →
        Text.bytes first.toList < Text.bytes e.1.toList) →
      HeaderHas headers name v

/-- The map of the namespace has the value under the key. -/
def Context.Has (ctx : Context) (n : Namespace) (key : String) (v : Value) : Prop :=
  match n with
  | .header => HeaderHas ctx.header key v
  | n => (ctx.attributes n).lookup key = some v

/-- The first that passes a test comes first in the order of bytes, if the keys increase. -/
theorem bytes_lt_of_find? {headers : Attributes} (h : Value.KeysIncrease headers)
    {p : String × Value → Bool} {first e : String × Value} (hfirst : headers.find? p = some first)
    (he : e ∈ headers) (hpass : p e = true) (hne : e.1 ≠ first.1) :
    Text.bytes first.1.toList < Text.bytes e.1.toList := by
  obtain ⟨_, before, after, rfl, hbefore⟩ := List.find?_eq_some_iff_append.mp hfirst
  rcases List.mem_append.mp he with he | he
  · have hfail := hbefore e he
    rw [hpass] at hfail
    cases hfail
  · rcases List.mem_cons.mp he with rfl | he
    · exact absurd rfl hne
    · have hlt := (List.pairwise_cons.mp (List.pairwise_append.mp h).2.1).1 e he
      exact Text.bytes_lt_bytes hlt

theorem header?_eq_some_iff {headers : Attributes} (h : Value.KeysIncrease headers) {name : String}
    {v : Value} : header? headers name = some v ↔ HeaderHas headers name v := by
  unfold header?
  cases hspelled : headers.lookup name with
  | some u =>
      constructor
      · intro hu
        exact .spelled (hspelled.trans hu)
      · intro hv
        cases hv with
        | spelled hv => exact hspelled.symm.trans hv
        | folded hnone => rw [hspelled] at hnone; cases hnone
  | none =>
      simp only [Option.map_eq_some_iff]
      constructor
      · intro ⟨first, hfirst, hv⟩
        subst hv
        have hsame := List.find?_some hfirst
        exact .folded hspelled (List.mem_of_find?_eq_some hfirst) hsame
          fun e he hpass hne => bytes_lt_of_find? h hfirst he hpass hne
      · intro hv
        cases hv with
        | spelled hv => rw [hspelled] at hv; cases hv
        | folded hnone hmem hsame hleast =>
            rename_i first
            have hsome : (headers.find? fun e => Text.sameIgnoringCase e.1 name).isSome = true :=
              List.find?_isSome.mpr ⟨(first, v), hmem, hsame⟩
            obtain ⟨e, he⟩ := Option.isSome_iff_exists.mp hsome
            have hmem' := List.mem_of_find?_eq_some he
            have hpass := List.find?_some he
            by_cases hfirst : e.1 = first
            · have heq : e = (first, v) := List.inj_on_of_nodup_map h.nodup hmem' hmem hfirst
              exact ⟨e, he, by rw [heq]⟩
            · have hlt := bytes_lt_of_find? h he hmem hsame fun heq => hfirst heq.symm
              exact absurd (hleast e hmem' hpass hfirst) (List.lt_asymm hlt)

theorem Context.entry?_eq_some_iff {ctx : Context} (h : Value.KeysIncrease ctx.header)
    {n : Namespace} {key : String} {v : Value} : ctx.entry? n key = some v ↔ ctx.Has n key v := by
  cases n with
  | header => exact header?_eq_some_iff h
  | subject | resource | path | body | query => exact Iff.rfl

/-! ## 4. Reading on the way -/

/-- What the rest of a path leads to from a value, read while it is followed. What comes after a
    wildcard is read anew for every item. -/
def Cursor.follow? (c : Cursor) (v : Value) : Option Value :=
  match _h : c.next with
  | none => some v
  | some (.error _, _) => none
  | some (.ok (.key k), rest) => (v.child? k).bind fun u => rest.follow? u
  | some (.ok .wildcard, rest) =>
      match v with
      | .array items => some (.array (items.filterMap fun u => rest.follow? u))
      | _ => none
termination_by c.span
decreasing_by all_goals exact Cursor.span_lt_of_next _h

/-- Reading on the way leads to the same as reading all segments first. -/
theorem Cursor.follow?_eq_descend? (c : Cursor) : c.follow? = Value.descend? c.items := by
  induction hn : c.span using Nat.strong_induction_on generalizing c with
  | _ n ih =>
    funext v
    rw [follow?]
    split
    · rename_i hnext
      rw [items_of_no_next hnext]
      rfl
    · rename_i e rest hnext
      rw [items_of_next hnext]
      rfl
    · rename_i k rest hnext
      rw [items_of_next hnext, Value.descend?, ih _ (hn ▸ span_lt_of_next hnext) rest rfl]
    · rename_i rest hnext
      have hrest := ih _ (hn ▸ span_lt_of_next hnext) rest rfl
      rw [items_of_next hnext]
      cases v with
      | array items => rw [hrest, Value.descend?]
      | null | bool b | number n | string s | object entries => rfl

/-- What a path leads to in a context, where the path is read while it is followed. -/
def Context.walk (ctx : Context) (p : Path) : Resolved :=
  match p.split? with
  | none => .absent
  | some (n, rest) =>
      match (Cursor.reading rest true).next with
      | some (.ok (.key k), c) => .ofOption ((ctx.entry? n k).bind c.follow?)
      | _ => .absent

/-- **Reading a path while it is followed comes to the same**, whether it is well formed or not. -/
theorem Context.walk_eq_resolve (ctx : Context) (p : Path) : ctx.walk p = ctx.resolve p := by
  unfold walk resolve
  cases hsplit : p.split? with
  | none => rfl
  | some start =>
      obtain ⟨n, rest⟩ := start
      rw [Path.items_of_split hsplit]
      simp only
      cases hnext : (Cursor.reading rest true).next with
      | none => rw [Cursor.items_of_no_next hnext]
      | some step =>
          obtain ⟨i, c⟩ := step
          rw [Cursor.items_of_next hnext]
          match i with
          | .error e => rfl
          | .ok .wildcard => rfl
          | .ok (.key k) =>
              simp only
              rw [Cursor.follow?_eq_descend?]

/-! ## 5. Resolution -/

theorem Resolved.eq_absent_iff {r : Resolved} : r = .absent ↔ ∀ v, r ≠ .present v := by
  cases r with
  | absent => simp
  | present v => simp

/-- A path leads to what its segments make of the entry of the first key. -/
theorem Context.resolve_of_spells {p : Path} {n : Namespace} {k : String} {ss : List Segment}
    (h : p.Spells n (.key k :: ss)) (ctx : Context) :
    ctx.resolve p = .ofOption ((ctx.entry? n k).bind (meaning ss)) := by
  obtain ⟨hcheck, hitems⟩ := Path.spells_iff.mp h
  obtain ⟨rest, _, _, hsplit, _⟩ := Path.check_eq_ok_iff.mp hcheck
  have hroot : p.root? = some (n, k) := Path.root?_eq_some_iff.mpr ⟨⟨rest, hsplit⟩, _, hitems⟩
  rw [resolve_of_root hroot, hitems, List.map_cons, List.tail_cons, Value.descend?_eq_meaning]

/-- **A well-formed path leads to its meaning.** It has a first key and further segments. What the
    namespace holds under the key is followed along the segments, and the path leads nowhere exactly
    if there is no such entry or the segments lead nowhere from it. Reading the path on the way leads
    to the same. -/
theorem resolve_exact {p : Path} {n : Namespace} (h : p.check = .ok n) :
    ∃ k, ∃ ss : List Segment, p.items = .ok (.key k) :: ss.map .ok ∧
      ∀ ctx : Context, Value.KeysIncrease ctx.header →
        (∀ w, ctx.resolve p = .present w ↔ ∃ v, ctx.Has n k v ∧ meaning ss v = some w) ∧
        (ctx.resolve p = .absent ↔ ∀ v, ctx.Has n k v → meaning ss v = none) ∧
        ctx.walk p = ctx.resolve p := by
  obtain ⟨_, k, ss, _, hitems⟩ := Path.check_eq_ok_iff.mp h
  refine ⟨k, ss, hitems, fun ctx hheader => ?_⟩
  have hresolve := ctx.resolve_of_spells (Path.spells_iff.mpr ⟨h, hitems⟩)
  have hpresent : ∀ w, ctx.resolve p = .present w ↔ ∃ v, ctx.Has n k v ∧ meaning ss v = some w := by
    intro w
    rw [hresolve, Resolved.ofOption_eq_present, Option.bind_eq_some_iff]
    simp only [Context.entry?_eq_some_iff hheader]
  refine ⟨hpresent, ?_, ctx.walk_eq_resolve p⟩
  rw [Resolved.eq_absent_iff]
  simp only [ne_eq, hpresent, not_exists, not_and, Option.eq_none_iff_forall_ne_some]
  constructor
  · intro hnone v hv w
    exact hnone w v hv
  · intro hnone w v hv
    exact hnone v hv w

/-- The second team of each group that a header names. -/
def teamsPath : Path := ⟨"header.X-Teams[*].1.id"⟩

/-- A team. -/
def team (id : String) : Value := .object [("id", .string id)]

/-- Groups as lists of teams and as an object, under one of two names for the header. -/
def teamsContext : Context where
  subject := []
  resource := []
  path := []
  body := []
  query := []
  header := [
    ("X-TEAMS", .array [.array [team "a", team "b"], .array [team "c"], .object [("1", team "d")]]),
    ("x-teams", .null)]

/-- The header is found under the first of its names, and the group without a second team is left
    out. -/
theorem resolve_exact_teams :
    teamsPath.check = .ok .header ∧ Value.KeysIncrease teamsContext.header ∧
    teamsContext.resolve teamsPath = .present (.array [.string "b", .string "d"]) ∧
    teamsContext.walk teamsPath = .present (.array [.string "b", .string "d"]) ∧
    ∃ k, ∃ ss : List Segment, teamsPath.items = .ok (.key k) :: ss.map .ok ∧
      ∃ v, teamsContext.Has .header k v ∧
        meaning ss v = some (.array [.string "b", .string "d"]) := by
  have hcheck : teamsPath.check = .ok .header := by decide +kernel
  have hheader : Value.KeysIncrease teamsContext.header := by decide +kernel
  have hresolve : teamsContext.resolve teamsPath =
      .present (.array [.string "b", .string "d"]) := by decide +kernel
  obtain ⟨k, ss, hitems, hall⟩ := resolve_exact hcheck
  obtain ⟨hpresent, _, hwalk⟩ := hall teamsContext hheader
  exact ⟨hcheck, hheader, hresolve, hwalk.trans hresolve, k, ss, hitems,
    (hpresent _).mp hresolve⟩

end Gatehouse
