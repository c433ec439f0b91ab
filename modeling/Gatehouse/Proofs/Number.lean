import Gatehouse.Number
import Mathlib.Algebra.Order.Field.Power
import Mathlib.Algebra.Order.Ring.Rat
import Mathlib.Tactic.Linarith
import Mathlib.Tactic.Positivity
import Mathlib.Tactic.Ring

/-!
# The values of numbers

What this file fixes, and what it shows about `Number.agrees`:

* `Double.value`: the rational that a double denotes. `Double.agrees_iff`: agreement of doubles is
  equality of these;
* `Double.value_ofInt`: integers up to `2^53` in magnitude are rounded to themselves;
  `Double.ofInt_agrees_iff`: below that bound no other integer is rounded to the same double;
* `Number.agrees_iff`: numbers agree if their doubles do, and two integers only if they are equal;
* `Number.Collide`: two integers that differ and are rounded to the same double. Nothing else keeps
  the agreement of numbers from being transitive (`Number.agrees_trans`).
-/

namespace Gatehouse

namespace Double

/-! ## 1. Values of doubles -/

/-- The sign of a number that may be negated. -/
def sign (negative : Bool) : Rat := if negative then -1 else 1

/-- The rational that a double denotes. -/
def value (d : Double) : Rat := sign d.negative * d.significand * 2 ^ d.scale

theorem unitsAt_mul (d : Double) {base : Int} (h : base ≤ d.scale) :
    (d.unitsAt base : Rat) * 2 ^ base = d.value := by
  have hpow : (2 : Rat) ^ (d.scale - base).toNat * 2 ^ base = 2 ^ d.scale := by
    rw [← zpow_natCast, Int.toNat_of_nonneg (by omega), ← zpow_add₀ two_ne_zero, sub_add_cancel]
  have hunits : (d.unitsAt base : Rat) =
      sign d.negative * d.significand * 2 ^ (d.scale - base).toNat := by
    unfold unitsAt sign
    cases d.negative with
    | true => simp
    | false => simp
  rw [hunits, mul_assoc, hpow, value]

/-- **Doubles agree exactly if they denote the same rational.** -/
theorem agrees_iff {a b : Double} : a.agrees b = true ↔ a.value = b.value := by
  have hbase : (2 : Rat) ^ min a.scale b.scale ≠ 0 := by positivity
  unfold agrees
  rw [beq_iff_eq, ← unitsAt_mul a (min_le_left a.scale b.scale),
    ← unitsAt_mul b (min_le_right a.scale b.scale), mul_left_inj' hbase, Int.cast_inj]

/-! ## 2. Rounded integers -/

/-- A natural is rounded at the power of two that leaves it 53 bits. -/
theorem scaleFor_one {num : Nat} (h : num ≠ 0) : scaleFor num 1 = (Nat.log2 num : Int) - 52 := by
  have hlow : 2 ^ num.log2 ≤ num := Nat.log2_self_le h
  have hfits : Nat.pow 2 52 * (1 * Nat.pow 2 ((Nat.log2 num : Int) - 52).toNat) ≤
      num * Nat.pow 2 (-((Nat.log2 num : Int) - 52)).toNat := by
    simp only [Nat.pow_eq, one_mul]
    by_cases hbits : 52 ≤ Nat.log2 num
    · have hup : ((Nat.log2 num : Int) - 52).toNat = Nat.log2 num - 52 := by omega
      have hdown : (-((Nat.log2 num : Int) - 52)).toNat = 0 := by omega
      rw [hup, hdown, ← pow_add, Nat.add_sub_cancel' hbits]
      omega
    · have hup : ((Nat.log2 num : Int) - 52).toNat = 0 := by omega
      have hdown : (-((Nat.log2 num : Int) - 52)).toNat = 52 - Nat.log2 num := by omega
      rw [hup, hdown]
      calc 2 ^ 52 * 2 ^ 0 = 2 ^ Nat.log2 num * 2 ^ (52 - Nat.log2 num) := by
            rw [pow_zero, mul_one, ← pow_add, Nat.add_sub_cancel' (by omega)]
        _ ≤ num * 2 ^ (52 - Nat.log2 num) := Nat.mul_le_mul_right _ hlow
  have hone : Nat.log2 1 = 0 := by decide
  unfold scaleFor minScale
  simp only [hone, Nat.cast_zero, sub_zero, if_pos hfits]
  omega

theorem div_le_roundHalfEven (num den : Nat) : num / den ≤ roundHalfEven num den := by
  unfold roundHalfEven
  simp only
  split_ifs <;> omega

theorem roundHalfEven_one (num : Nat) : roundHalfEven num 1 = num := by
  unfold roundHalfEven
  simp [Nat.mod_one]

/-- The value of a rounded natural, whether its significand is carried or not. -/
theorem value_nearest_one {num : Nat} (h : num ≠ 0) (negative : Bool) :
    (nearest negative num 1).value = sign negative *
      roundHalfEven (num * 2 ^ (52 - Nat.log2 num)) (2 ^ (Nat.log2 num - 52)) *
        2 ^ ((Nat.log2 num : Int) - 52) := by
  have hdown : (-((Nat.log2 num : Int) - 52)).toNat = 52 - Nat.log2 num := by omega
  have hup : ((Nat.log2 num : Int) - 52).toNat = Nat.log2 num - 52 := by omega
  unfold nearest
  simp only [if_neg h, scaleFor_one h, Nat.pow_eq, hdown, hup, one_mul]
  split_ifs with hcarry
  · rw [hcarry, value]
    push_cast
    rw [zpow_add₀ two_ne_zero]
    ring
  · rfl

/-- A natural of at most 53 bits keeps its value. -/
theorem value_nearest_of_le {num : Nat} (h : num ≤ 2 ^ 53) (negative : Bool) :
    (nearest negative num 1).value = sign negative * num := by
  by_cases hzero : num = 0
  · subst hzero
    simp [nearest, value]
  by_cases htop : num = 2 ^ 53
  · subst htop
    have hrounded : nearest negative (2 ^ 53) 1 = ⟨negative, 2 ^ 52, 1⟩ := by
      cases negative <;> decide
    rw [hrounded, value]
    norm_num
    ring
  have hbits : Nat.log2 num ≤ 52 := by
    have := (Nat.log2_lt hzero).mpr (show num < 2 ^ 53 by omega)
    omega
  have hpow : (2 : Rat) ^ (52 - Nat.log2 num) * 2 ^ ((Nat.log2 num : Int) - 52) = 1 := by
    rw [← zpow_natCast, ← zpow_add₀ two_ne_zero, Nat.cast_sub hbits]
    simp
  rw [value_nearest_one hzero, Nat.sub_eq_zero_of_le hbits, pow_zero, roundHalfEven_one]
  push_cast
  rw [mul_assoc, mul_assoc, hpow, mul_one]

/-- A natural of more than 53 bits stays at least `2^53`. -/
theorem le_abs_value_nearest {num : Nat} (h : 2 ^ 53 ≤ num) (negative : Bool) :
    2 ^ 53 ≤ |(nearest negative num 1).value| := by
  have hzero : num ≠ 0 := by omega
  have hbits : 53 ≤ Nat.log2 num := (Nat.le_log2 hzero).mpr h
  have hsign : |sign negative| = 1 := by cases negative <;> simp [sign]
  have hquot : 2 ^ 52 ≤ roundHalfEven num (2 ^ (Nat.log2 num - 52)) := by
    refine le_trans ?_ (div_le_roundHalfEven _ _)
    rw [Nat.le_div_iff_mul_le (by positivity), ← pow_add, Nat.add_sub_cancel' (by omega)]
    exact Nat.log2_self_le hzero
  have hscale : (2 : Rat) ≤ 2 ^ ((Nat.log2 num : Int) - 52) := by
    calc (2 : Rat) = 2 ^ (1 : Int) := (zpow_one 2).symm
      _ ≤ 2 ^ ((Nat.log2 num : Int) - 52) := zpow_le_zpow_right₀ one_le_two (by omega)
  rw [value_nearest_one hzero, Nat.sub_eq_zero_of_le (by omega : 52 ≤ Nat.log2 num), pow_zero,
    mul_one, abs_mul, abs_mul, hsign, one_mul, Nat.abs_cast, abs_of_pos (by positivity)]
  calc (2 : Rat) ^ 53 = 2 ^ 52 * 2 := by norm_num
    _ ≤ (roundHalfEven num (2 ^ (Nat.log2 num - 52)) : Rat) * 2 ^ ((Nat.log2 num : Int) - 52) :=
      mul_le_mul (by exact_mod_cast hquot) hscale (by norm_num) (by positivity)

theorem sign_mul_natAbs (n : Int) : sign (decide (n < 0)) * (n.natAbs : Rat) = n := by
  have habs : ((n.natAbs : Int) : Rat) = (n.natAbs : Rat) := Int.cast_natCast _
  by_cases h : n < 0
  · rw [sign, if_pos (decide_eq_true h), ← habs, Int.ofNat_natAbs_of_nonpos h.le]
    push_cast
    ring
  · rw [sign, if_neg (by simpa using h), ← habs, Int.natAbs_of_nonneg (by omega), one_mul]

/-- **An integer up to `2^53` in magnitude is rounded to itself.** -/
theorem value_ofInt {n : Int} (h : n.natAbs ≤ 2 ^ 53) : (ofInt n).value = n := by
  rw [ofInt, value_nearest_of_le h, sign_mul_natAbs]

/-- **An integer below `2^53` in magnitude shares its double with no other integer.** -/
theorem ofInt_agrees_iff {m n : Int} (h : m.natAbs < 2 ^ 53) :
    (ofInt m).agrees (ofInt n) = true ↔ m = n := by
  rw [agrees_iff, value_ofInt h.le]
  by_cases hn : n.natAbs ≤ 2 ^ 53
  · rw [value_ofInt hn, Int.cast_inj]
  · constructor
    · intro heq
      have hlarge : (2 : Rat) ^ 53 ≤ |(m : Rat)| := by
        rw [heq]
        exact le_abs_value_nearest (by omega) _
      have hsmall : |(m : Rat)| < 2 ^ 53 := by
        rw [← Int.cast_abs, Int.abs_eq_natAbs]
        exact_mod_cast h
      exact absurd hlarge (not_le.mpr hsmall)
    · rintro rfl
      omega

end Double

/-! ## 3. Agreement of numbers -/

namespace Number

/-- **Numbers agree if their doubles do**, and two integers only if they are equal. -/
theorem agrees_iff {a b : Number} : a.agrees b = true ↔
    a.toDouble.value = b.toDouble.value ∧ ∀ m n, a = .int m → b = .int n → m = n := by
  cases a with
  | double d => cases b <;> simp [agrees, toDouble, Double.agrees_iff]
  | int m =>
      cases b with
      | double d => simp [agrees, toDouble, Double.agrees_iff]
      | int n =>
          simp only [agrees, beq_iff_eq, int.injEq, toDouble]
          constructor
          · rintro rfl
            exact ⟨rfl, fun _ _ h₁ h₂ => h₁.symm.trans h₂⟩
          · rintro ⟨_, h⟩
            exact h m n rfl rfl

/-- Two different integers that are rounded to the same double. -/
inductive Collide : Number → Number → Prop
  | ints {m n : Int} : m ≠ n → (Double.ofInt m).agrees (Double.ofInt n) = true →
      Collide (.int m) (.int n)

/-- What agrees does not collide. -/
theorem not_collide_of_agrees {a b : Number} (h : a.agrees b = true) : ¬ Collide a b := by
  rintro ⟨hne, _⟩
  exact hne ((agrees_iff.mp h).2 _ _ rfl rfl)

/-- **The agreement of numbers is transitive but for integers that collide.** -/
theorem agrees_trans {a b c : Number} (hab : a.agrees b = true) (hbc : b.agrees c = true)
    (hac : ¬ Collide a c) : a.agrees c = true := by
  have hvalue : a.toDouble.value = c.toDouble.value :=
    (agrees_iff.mp hab).1.trans (agrees_iff.mp hbc).1
  refine agrees_iff.mpr ⟨hvalue, ?_⟩
  rintro m n rfl rfl
  by_contra hne
  exact hac (.ints hne (Double.agrees_iff.mpr hvalue))

end Number

end Gatehouse
