import Gatehouse.Json
import Gatehouse.Value.Text
import Mathlib.Data.List.TakeWhile
import Mathlib.Tactic.SplitIfs

/-!
# Reading back strings and numbers

What this file shows about the tokens of JSON texts:

* `string?_escaped`: a quoted string is read back as it stands, whatever it holds;
* `numeral?_append`: what is read as a numeral is read the same where more text follows that cannot
  belong to a numeral (`Stops`);
* `Number.readsBack`: the text of a number is the numeral of that number. So it is for all integers
  (`readsBack_int`).
-/

namespace Gatehouse

namespace Json

/-! ## 1. Strings -/

theorem pieces?_escape {e c : Char} (h : escapeOf? e = some c) (cs : List Char) :
    pieces? ('\\' :: e :: cs) = (pieces? cs).map fun p => (.char c :: p.1, p.2) := by
  have hu : e ≠ 'u' := fun heq => by
    rw [heq] at h
    cases h
  rw [pieces?.eq_def]
  split
  · simp_all
  · simp_all
  · simp_all
  · rename_i heq
    obtain ⟨-, rfl, rfl⟩ : '\\' = '\\' ∧ e = _ ∧ cs = _ := by simpa using heq
    rw [h]
    cases pieces? cs with
    | none => rfl
    | some p => rfl
  · rename_i hother heq
    obtain ⟨rfl, rfl⟩ : '\\' = _ ∧ e :: cs = _ := by simpa using heq
    exact absurd rfl (hother e cs rfl)

theorem pieces?_unit {a b c d : Char} {n : Nat} (h : unitOf? a b c d = some n) (cs : List Char) :
    pieces? ('\\' :: 'u' :: a :: b :: c :: d :: cs) =
      (pieces? cs).map fun p => (.unit n :: p.1, p.2) := by
  rw [pieces?, h]
  cases pieces? cs with
  | none => rfl
  | some p => rfl

theorem pieces?_plain {c : Char} (hquote : c ≠ '"') (hback : c ≠ '\\') (hcontrol : 0x20 ≤ c.toNat)
    (cs : List Char) : pieces? (c :: cs) = (pieces? cs).map fun p => (.char c :: p.1, p.2) := by
  rw [pieces?.eq_def]
  split
  · simp_all
  · simp_all
  · simp_all
  · simp_all
  · rename_i heq
    obtain ⟨rfl, rfl⟩ : c = _ ∧ cs = _ := by simpa using heq
    rw [if_neg (by simp [hback, Nat.not_lt.mpr hcontrol])]

theorem unitOf?_hexDigit (x y : Fin 16) :
    unitOf? '0' '0' (Text.hexDigit x) (Text.hexDigit y) = some (x.val * 16 + y.val) := by
  have hzero : Text.hexValue? '0' = some 0 := by decide
  rw [unitOf?, hzero, Text.hexValue_hexDigit, Text.hexValue_hexDigit]
  simp

/-- **One character of a quoted string is read as one piece**, which stands for this character. -/
theorem pieces?_escaped (c : Char) : ∃ piece,
    (∀ cs, pieces? (Value.escaped c ++ cs) =
      (pieces? cs).map fun p => (piece :: p.1, p.2)) ∧
    ∀ ps, joinPieces? (piece :: ps) = (joinPieces? ps).map (c :: ·) := by
  have hchar (ps : List Piece) :
      joinPieces? (.char c :: ps) = (joinPieces? ps).map (c :: ·) := by rw [joinPieces?]
  have hletter {e : Char} (he : escapeOf? e = some c) : ∃ piece,
      (∀ cs, pieces? (['\\', e] ++ cs) = (pieces? cs).map fun p => (piece :: p.1, p.2)) ∧
      ∀ ps, joinPieces? (piece :: ps) = (joinPieces? ps).map (c :: ·) :=
    ⟨.char c, pieces?_escape he, hchar⟩
  have hnumber {n : Nat} (h : c.toNat = n) : c = Char.ofNat n := by
    rw [← h, Char.ofNat_toNat]
  unfold Value.escaped
  split_ifs with h1 h2 h3 h4 h5 h6 h7 h8
  · exact hletter (by rw [h1]; rfl)
  · exact hletter (by rw [h2]; rfl)
  · exact hletter (by rw [hnumber h3]; rfl)
  · exact hletter (by rw [h4]; rfl)
  · exact hletter (by rw [h5]; rfl)
  · exact hletter (by rw [hnumber h6]; rfl)
  · exact hletter (by rw [h7]; rfl)
  · -- the two digits of the escape are those of the code point
    have hunit := unitOf?_hexDigit (Fin.ofNat 16 (c.toNat / 16)) (Fin.ofNat 16 (c.toNat % 16))
    have hvalue : (Fin.ofNat 16 (c.toNat / 16)).val * 16 + (Fin.ofNat 16 (c.toNat % 16)).val =
        c.toNat := by
      simp only [Fin.val_ofNat]
      omega
    rw [hvalue] at hunit
    refine ⟨.unit c.toNat, pieces?_unit hunit, fun ps => ?_⟩
    have hhigh : isHigh c.toNat = false := by
      simp only [isHigh, Bool.and_eq_false_iff, decide_eq_false_iff_not]
      omega
    have hlow : isLow c.toNat = false := by
      simp only [isLow, Bool.and_eq_false_iff, decide_eq_false_iff_not]
      omega
    rw [joinPieces?.eq_def]
    simp [hhigh, hlow, Char.ofNat_toNat]
  · exact ⟨.char c, pieces?_plain h1 h2 (Nat.le_of_not_lt h8), hchar⟩

theorem exists_pieces (s rest : List Char) : ∃ ps,
    pieces? (s.flatMap Value.escaped ++ '"' :: rest) = some (ps, rest) ∧
    joinPieces? ps = some s := by
  induction s with
  | nil => exact ⟨[], by rw [List.flatMap_nil, List.nil_append, pieces?], rfl⟩
  | cons c s ih =>
    obtain ⟨ps, hpieces, hjoin⟩ := ih
    obtain ⟨piece, hread, hchar⟩ := pieces?_escaped c
    refine ⟨piece :: ps, ?_, ?_⟩
    · rw [List.flatMap_cons, List.append_assoc, hread, hpieces, Option.map_some]
    · rw [hchar, hjoin, Option.map_some]

/-- **A quoted string is read back as it stands**, up to its closing quote. -/
theorem string?_escaped (s : String) (rest : List Char) :
    string? (s.toList.flatMap Value.escaped ++ '"' :: rest) = some (some s, rest) := by
  obtain ⟨ps, hpieces, hjoin⟩ := exists_pieces s.toList rest
  rw [string?, hpieces, Option.map_some, hjoin, Option.map_some, String.ofList_toList]

/-! ## 2. Numerals -/

/-- The characters of numerals. -/
def isNumeralChar (c : Char) : Bool :=
  c.isDigit || c == '.' || c == 'e' || c == 'E' || c == '+' || c == '-'

/-- No numeral goes on with the text. -/
def Stops (rest : List Char) : Prop := ∀ c ∈ rest.head?, isNumeralChar c = false

theorem stops_nil : Stops [] := fun _ h => nomatch h

theorem stops_cons {c : Char} {cs : List Char} : Stops (c :: cs) ↔ isNumeralChar c = false := by
  simp [Stops]

theorem Stops.ne {c d : Char} {cs : List Char} (h : Stops (c :: cs))
    (hd : isNumeralChar d = true) : c ≠ d := by
  rintro rfl
  exact absurd (hd.symm.trans (stops_cons.mp h)) (by decide)

theorem numeral?_unsigned {c : Char} (h : c ≠ '-') (cs : List Char) :
    numeral? (c :: cs) = unsignedNumeral? false (c :: cs) := by
  simp [numeral?, h]

section Append

variable {rest : List Char}

theorem digits_append (h : Stops rest) (cs : List Char) :
    digits (cs ++ rest) = ((digits cs).1, (digits cs).2 ++ rest) := by
  induction cs with
  | nil =>
    cases rest with
    | nil => rfl
    | cons c tail =>
      have hdigit : c.isDigit = false := by
        simp only [stops_cons, isNumeralChar, Bool.or_eq_false_iff] at h
        exact h.1.1.1.1.1
      simp [digits, hdigit]
  | cons c cs ih =>
    cases hdigit : c.isDigit with
    | true =>
      have ih' := Prod.mk.inj ih
      simp only [digits] at ih'
      simp [digits, hdigit, ih'.1, ih'.2]
    | false => simp [digits, hdigit]

theorem whole?_append (h : Stops rest) (cs : List Char) :
    whole? (cs ++ rest) = (whole? cs).map fun p => (p.1, p.2 ++ rest) := by
  rw [whole?, whole?, digits_append h]
  match digits cs with
  | ([], _) => rfl
  | ('0' :: _ :: _, _) => rfl
  | (['0'], _) => rfl
  | (c :: ds, left) => split <;> simp_all

theorem fraction?_append (h : Stops rest) : ∀ cs : List Char,
    fraction? (cs ++ rest) = (fraction? cs).map fun p => (p.1, p.2 ++ rest)
  | [] => by
      cases rest with
      | nil => rfl
      | cons c tail =>
        have hpoint : c ≠ '.' := h.ne (by decide)
        simp [fraction?, hpoint]
  | c :: cs => by
      by_cases hpoint : c = '.'
      · subst hpoint
        rw [List.cons_append, fraction?, fraction?, digits_append h]
        match digits cs with
        | ([], _) => rfl
        | (_ :: _, _) => rfl
      · simp [fraction?, hpoint]

theorem exponentSign_append (h : Stops rest) : ∀ cs : List Char,
    exponentSign (cs ++ rest) = ((exponentSign cs).1, (exponentSign cs).2 ++ rest)
  | [] => by
      cases rest with
      | nil => rfl
      | cons c tail =>
        have hminus : c ≠ '-' := h.ne (by decide)
        have hplus : c ≠ '+' := h.ne (by decide)
        simp [exponentSign, hminus, hplus]
  | c :: cs => by
      by_cases hminus : c = '-'
      · subst hminus
        rfl
      · by_cases hplus : c = '+'
        · subst hplus
          rfl
        · simp [exponentSign, hminus, hplus]

theorem exponent?_append (h : Stops rest) : ∀ cs : List Char,
    exponent? (cs ++ rest) = (exponent? cs).map fun p => (p.1, p.2 ++ rest)
  | [] => by
      cases rest with
      | nil => rfl
      | cons c tail =>
        have hmark : ¬ (c = 'e' ∨ c = 'E') := not_or.mpr ⟨h.ne (by decide), h.ne (by decide)⟩
        simp only [List.nil_append, exponent?, if_neg hmark, Option.map_some]
  | c :: cs => by
      rw [List.cons_append, exponent?, exponent?]
      by_cases hmark : c = 'e' ∨ c = 'E'
      · rw [if_pos hmark, if_pos hmark, exponentSign_append h]
        simp only [digits_append h]
        match digits (exponentSign cs).2 with
        | ([], _) => rfl
        | (_ :: _, _) => rfl
      · rw [if_neg hmark, if_neg hmark]
        rfl

theorem unsignedNumeral?_append (h : Stops rest) (negative : Bool) (cs : List Char) :
    unsignedNumeral? negative (cs ++ rest) =
      (unsignedNumeral? negative cs).map fun p => (p.1, p.2 ++ rest) := by
  rw [unsignedNumeral?, unsignedNumeral?, whole?_append h]
  cases whole? cs with
  | none => rfl
  | some w =>
    simp only [Option.map_some, Option.bind_some, fraction?_append h]
    cases fraction? w.2 with
    | none => rfl
    | some f =>
      simp only [Option.map_some, Option.bind_some, exponent?_append h]
      cases exponent? f.2 <;> rfl

/-- **A numeral is read the same, whatever follows that cannot belong to it.** -/
theorem numeral?_append (h : Stops rest) : ∀ cs : List Char,
    numeral? (cs ++ rest) = (numeral? cs).map fun p => (p.1, p.2 ++ rest)
  | [] => by
      cases rest with
      | nil => rfl
      | cons c tail =>
        have hsigned : numeral? (c :: tail) = unsignedNumeral? false ([] ++ c :: tail) :=
          numeral?_unsigned (h.ne (by decide)) tail
        rw [List.nil_append, hsigned, unsignedNumeral?_append h]
        rfl
  | c :: cs => by
      by_cases hminus : c = '-'
      · subst hminus
        exact unsignedNumeral?_append h true cs
      · rw [List.cons_append, numeral?_unsigned hminus, numeral?_unsigned hminus,
          ← List.cons_append, unsignedNumeral?_append h false (c :: cs)]

end Append

/-- What is read as a numeral starts with a sign or a digit. -/
theorem head_of_numeral? : ∀ {cs : List Char} {p : Numeral × List Char}, numeral? cs = some p →
    ∃ c tail, cs = c :: tail ∧ (c = '-' ∨ c.isDigit = true)
  | [], _, h => by cases h
  | c :: tail, p, h => by
      refine ⟨c, tail, rfl, ?_⟩
      by_cases hminus : c = '-'
      · exact Or.inl hminus
      · refine Or.inr ?_
        cases hdigit : c.isDigit with
        | true => rfl
        | false =>
          have hnone : unsignedNumeral? false (c :: tail) = none := by
            simp [unsignedNumeral?, whole?, digits, hdigit]
          rw [numeral?_unsigned hminus, hnone] at h
          cases h

end Json

/-! ## 3. Numbers -/

namespace Number

/-- The text of the number is a numeral that denotes it. -/
def readsBack (n : Number) : Bool :=
  match Json.numeral? n.text with
  | some (m, []) => m.toNumber? == some n
  | _ => false

/-- A number that reads back does so in front of any text that no numeral goes on with. -/
theorem numeral?_text {n : Number} (h : n.readsBack = true) :
    ∃ m : Numeral, m.toNumber? = some n ∧
      ∀ rest, Json.Stops rest → Json.numeral? (n.text ++ rest) = some (m, rest) := by
  unfold readsBack at h
  split at h
  · rename_i m hm
    refine ⟨m, beq_iff_eq.mp h, fun rest hrest => ?_⟩
    rw [Json.numeral?_append hrest, hm, Option.map_some, List.nil_append]
  · cases h

/-- The text of a number that reads back starts with a sign or a digit. -/
theorem head_text {n : Number} (h : n.readsBack = true) :
    ∃ c tail, n.text = c :: tail ∧ (c = '-' ∨ c.isDigit = true) := by
  obtain ⟨m, -, hread⟩ := numeral?_text h
  have hnumeral := hread [] Json.stops_nil
  rw [List.append_nil] at hnumeral
  exact Json.head_of_numeral? hnumeral

/-! ### Integers -/

theorem decimalValue_toDigits (n : Nat) : Text.decimalValue (Nat.toDigits 10 n) = n := by
  have hfold : Text.decimalValue (Nat.toDigits 10 n) =
      Nat.ofDigitChars 10 (Nat.toDigits 10 n) 0 := by
    rw [Nat.ofDigitChars_eq_foldl, Text.decimalValue]
    simp only [Text.digitValue, Nat.mul_comm]
    rfl
  rw [hfold, Nat.ofDigitChars_toDigits (by decide) (Nat.le_refl 10)]

theorem digitChar_ne_zero : ∀ n < 10, 0 < n → Nat.digitChar n ≠ '0' := by decide

/-- Only zero is written with a zero at the start. -/
theorem head?_toDigits {n : Nat} (h : 0 < n) : (Nat.toDigits 10 n).head? ≠ some '0' := by
  induction n using Nat.strongRecOn with
  | ind n ih =>
    by_cases hlt : n < 10
    · rw [Nat.toDigits_of_lt_base hlt]
      exact fun heq => digitChar_ne_zero n hlt h (Option.some.inj heq)
    · have hle : 10 ≤ n := Nat.le_of_not_lt hlt
      have hfirst := ih (n / 10) (Nat.div_lt_self h (by decide)) (Nat.div_pos hle (by decide))
      rw [Nat.toDigits_of_base_le (by decide) hle]
      cases hd : Nat.toDigits 10 (n / 10) with
      | nil => exact absurd hd Nat.toDigits_ne_nil
      | cons c ds => rwa [hd] at hfirst

theorem isDigit_toDigits {n : Nat} {c : Char} (h : c ∈ Nat.toDigits 10 n) : c.isDigit = true :=
  Nat.isDigit_of_mem_toDigits (by decide) (Nat.le_refl 10) h

theorem whole?_toDigits (n : Nat) :
    Json.whole? (Nat.toDigits 10 n) = some (Nat.toDigits 10 n, []) := by
  have hdigits : ∀ c ∈ Nat.toDigits 10 n, c.isDigit = true := fun c => isDigit_toDigits
  have hrun : Json.digits (Nat.toDigits 10 n) = (Nat.toDigits 10 n, []) := by
    rw [Json.digits, List.takeWhile_eq_self_iff.mpr hdigits,
      List.dropWhile_eq_nil_iff.mpr hdigits]
  rw [Json.whole?, hrun]
  cases hn : n with
  | zero => rfl
  | succ k =>
    have hhead := head?_toDigits (Nat.succ_pos k)
    split
    · rename_i heq
      exact absurd (Prod.mk.inj heq).1 Nat.toDigits_ne_nil
    · rename_i heq
      rw [(Prod.mk.inj heq).1] at hhead
      exact absurd rfl hhead
    · rename_i heq
      rw [(Prod.mk.inj heq).1, (Prod.mk.inj heq).2]

theorem unsignedNumeral?_toDigits (negative : Bool) (n : Nat) :
    Json.unsignedNumeral? negative (Nat.toDigits 10 n) =
      some (⟨negative, Nat.toDigits 10 n, [], none⟩, []) := by
  rw [Json.unsignedNumeral?, whole?_toDigits]
  rfl

theorem toNumber?_toDigits {negative : Bool} {n : Nat} {i : Int}
    (hi : (if negative then -(n : Int) else n) = i) (hrange : inRange i = true)
    (hzero : ¬ (negative = true ∧ n = 0)) :
    Numeral.toNumber? ⟨negative, Nat.toDigits 10 n, [], none⟩ = some (int i) := by
  simp only [Numeral.toNumber?, decimalValue_toDigits, hi]
  rw [if_pos ⟨rfl, rfl, hrange, hzero⟩]

/-- **Integers in range read back.** -/
theorem readsBack_int {i : Int} (h : inRange i = true) : (int i).readsBack = true := by
  rw [readsBack, text]
  by_cases hneg : i < 0
  · have hvalue : (if true then -(i.natAbs : Int) else i.natAbs) = i := by
      rw [if_pos rfl]
      omega
    rw [if_pos hneg, Json.numeral?, unsignedNumeral?_toDigits]
    exact beq_iff_eq.mpr (toNumber?_toDigits hvalue h fun hz => by omega)
  · have hvalue : (if false then -(i.natAbs : Int) else i.natAbs) = i := by
      rw [if_neg Bool.false_ne_true]
      omega
    have hsigned : Json.numeral? (Nat.toDigits 10 i.natAbs) =
        Json.unsignedNumeral? false (Nat.toDigits 10 i.natAbs) := by
      obtain ⟨c, ds, hds⟩ := List.exists_cons_of_ne_nil (Nat.toDigits_ne_nil (b := 10))
      rw [hds]
      refine Json.numeral?_unsigned ?_ ds
      rintro rfl
      exact absurd (isDigit_toDigits (hds ▸ List.mem_cons_self)) (by decide)
    rw [if_neg hneg, hsigned, unsignedNumeral?_toDigits]
    exact beq_iff_eq.mpr (toNumber?_toDigits hvalue h fun hz => absurd hz.1 (by decide))

end Number

end Gatehouse
