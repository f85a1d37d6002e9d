import Mathlib.Algebra.Order.Field.Rat
import Mathlib.Order.Monotone.Basic
import Mathlib.Tactic.FieldSimp
import Mathlib.Tactic.Linarith
import Mathlib.Tactic.NormNum
import Mathlib.Tactic.Positivity
import Mathlib.Tactic.Ring
import TypedScript.Number.Binary64

namespace TypedScript.Number

section Quotients

variable {divisor : Nat}

theorem roundDiv_within (dividend : Nat) (positive : 0 < divisor) :
    2 * dividend ≤ 2 * (divisor * roundDiv dividend divisor) + divisor ∧
      2 * (divisor * roundDiv dividend divisor) ≤ 2 * dividend + divisor ∧
      (2 * dividend = 2 * (divisor * roundDiv dividend divisor) + divisor ∨
        2 * (divisor * roundDiv dividend divisor) = 2 * dividend + divisor → roundDiv dividend divisor % 2 = 0) := by
  have whole := Nat.div_add_mod dividend divisor
  have less := Nat.mod_lt dividend positive
  unfold roundDiv
  simp only
  generalize dividend / divisor = quotient at whole ⊢
  generalize dividend % divisor = rest at whole less ⊢
  split
  · omega
  split
  · rw [Nat.mul_add, Nat.mul_one]
    omega
  rcases Nat.mod_two_eq_zero_or_one quotient with even | odd
  · rw [even, Nat.add_zero]
    omega
  · rw [odd, Nat.mul_add, Nat.mul_one]
    omega

theorem roundDiv_near (dividend : Nat) (positive : 0 < divisor) :
    |(dividend / divisor : ℚ) - roundDiv dividend divisor| ≤ 1 / 2 ∧
      (|(dividend / divisor : ℚ) - roundDiv dividend divisor| = 1 / 2 → roundDiv dividend divisor % 2 = 0) := by
  obtain ⟨lost, won, even⟩ := roundDiv_within dividend positive
  generalize roundDiv dividend divisor = rounded at lost won even ⊢
  have above : (0 : ℚ) < divisor := Nat.cast_pos.mpr positive
  have scaled : |(dividend / divisor : ℚ) - rounded| = |(dividend : ℚ) - divisor * rounded| / divisor := by
    rw [← abs_of_pos above, ← abs_div, abs_of_pos above]
    congr 1
    field_simp
  have lost' : (2 * dividend : ℚ) ≤ 2 * (divisor * rounded) + divisor := by exact_mod_cast lost
  have won' : (2 * (divisor * rounded) : ℚ) ≤ 2 * dividend + divisor := by exact_mod_cast won
  rw [scaled, div_le_div_iff₀ above two_pos, div_eq_div_iff above.ne' two_ne_zero]
  refine ⟨?_, fun half => even ?_⟩
  · rw [← le_div_iff₀ two_pos, abs_le]
    constructor <;> linarith
  · rcases abs_choice ((dividend : ℚ) - divisor * rounded) with same | opposite
    · left
      rw [same] at half
      exact_mod_cast (by linarith : (2 * dividend : ℚ) = 2 * (divisor * rounded) + divisor)
    · right
      rw [opposite] at half
      exact_mod_cast (by linarith : (2 * (divisor * rounded) : ℚ) = 2 * dividend + divisor)

end Quotients

namespace Binary64

-- What bits stand for as a number without a sign, in steps of `2 ^ -1074`. The bits of infinity stand for the number
-- that would come next.
def steps (bits : Nat) : Nat :=
  if bits / 2 ^ 52 = 0 then bits else (2 ^ 52 + bits % 2 ^ 52) * 2 ^ (bits / 2 ^ 52 - 1)

def size (bits : Nat) : ℚ := steps bits / 2 ^ 1074

-- The bits that are nearest to a number. Of two that are as near, the even ones.
structure Nearest (number : ℚ) (bits : Nat) : Prop where
  range : bits ≤ 0x7ff0000000000000
  closest : ∀ other ≤ 0x7ff0000000000000, |number - size bits| ≤ |number - size other|
  even : ∀ other ≤ 0x7ff0000000000000, |number - size other| = |number - size bits| → other = bits ∨ bits % 2 = 0

variable {bits other shift unit : Nat} {number place : ℚ}

-- Exponent and fraction side by side: bits that are counted on from an exponent move by its power of two.
theorem steps_shifted (least : shift = 0 ∨ 2 ^ 52 ≤ unit) (most : unit ≤ 2 ^ 53) :
    steps (shift * 2 ^ 52 + unit) = unit * 2 ^ shift := by
  unfold steps
  rcases Nat.lt_or_ge unit (2 ^ 52) with small | normal
  · obtain rfl : shift = 0 := by omega
    rw [if_pos (by omega)]
    simp
  rcases Nat.lt_or_ge unit (2 ^ 53) with less | full
  · rw [if_neg (by omega), show (shift * 2 ^ 52 + unit) / 2 ^ 52 - 1 = shift by omega,
      show 2 ^ 52 + (shift * 2 ^ 52 + unit) % 2 ^ 52 = unit by omega]
  · obtain rfl : unit = 2 ^ 53 := by omega
    rw [if_neg (by omega), show (shift * 2 ^ 52 + 2 ^ 53) / 2 ^ 52 - 1 = shift + 1 by omega,
      show 2 ^ 52 + (shift * 2 ^ 52 + 2 ^ 53) % 2 ^ 52 = 2 ^ 52 by omega, Nat.pow_succ]
    omega

theorem shifted_form (bits : Nat) :
    ∃ shift unit, bits = shift * 2 ^ 52 + unit ∧ (shift = 0 ∨ 2 ^ 52 ≤ unit) ∧ unit < 2 ^ 53 :=
  ⟨bits / 2 ^ 52 - 1, bits - (bits / 2 ^ 52 - 1) * 2 ^ 52, by omega, by omega, by omega⟩

theorem steps_strictMono : StrictMono steps := by
  refine strictMono_nat_of_lt_succ fun bits => ?_
  obtain ⟨shift, unit, rfl, least, less⟩ := shifted_form bits
  rw [Nat.add_assoc, steps_shifted least less.le, steps_shifted (by omega) less]
  exact Nat.mul_lt_mul_of_pos_right (Nat.lt_succ_self unit) (Nat.two_pow_pos shift)

section Distances

variable {low high : ℚ}

theorem distance_square (low high place : ℚ) :
    (place - low) ^ 2 - (place - high) ^ 2 = (high - low) * (2 * place - (low + high)) := by
  ring

theorem nearer_low (less : low < high) : |place - low| < |place - high| ↔ 2 * place < low + high := by
  rw [← sq_lt_sq, ← sub_pos, ← neg_sub, distance_square, ← mul_neg, mul_pos_iff_of_pos_left (sub_pos.mpr less), neg_sub,
    sub_pos]

theorem nearer_high (less : low < high) : |place - high| < |place - low| ↔ low + high < 2 * place := by
  rw [← sq_lt_sq, ← sub_pos, distance_square, mul_pos_iff_of_pos_left (sub_pos.mpr less), sub_pos]

theorem as_near (less : low < high) : |place - low| = |place - high| ↔ 2 * place = low + high := by
  rw [← sq_eq_sq_iff_abs_eq_abs, ← sub_eq_zero, distance_square, mul_eq_zero_iff_left (sub_pos.mpr less).ne',
    sub_eq_zero]

end Distances

-- Bits are the nearest if their neighbours are not nearer: all others are further away than a neighbour is.
theorem nearest_of_neighbours
    (below : ∀ other, other + 1 = bits → steps other + steps bits < 2 * place ∨
      steps other + steps bits = 2 * place ∧ bits % 2 = 0)
    (above : bits < 0x7ff0000000000000 → 2 * place < steps bits + steps (bits + 1) ∨
      2 * place = steps bits + steps (bits + 1) ∧ bits % 2 = 0)
    (limit : other ≤ 0x7ff0000000000000) :
    |place - steps bits| < |place - steps other| ∨
      |place - steps bits| = |place - steps other| ∧ (other = bits ∨ bits % 2 = 0) := by
  rcases Nat.lt_trichotomy other bits with less | rfl | more
  · obtain ⟨previous, rfl⟩ := Nat.exists_eq_add_of_le' (Nat.zero_lt_of_lt less)
    have apart : (steps other : ℚ) < steps (previous + 1) := Nat.cast_lt.mpr (steps_strictMono less)
    have beside : (steps other : ℚ) ≤ steps previous :=
      Nat.cast_le.mpr (steps_strictMono.monotone (Nat.le_of_lt_succ less))
    rw [nearer_high apart, eq_comm, as_near apart]
    rcases below previous rfl with near | ⟨near, even⟩
    · exact .inl (by linarith)
    · rcases beside.lt_or_eq with beyond | same
      · exact .inl (by linarith)
      · exact .inr ⟨by linarith, .inr even⟩
  · exact .inr ⟨rfl, .inl rfl⟩
  · have apart : (steps bits : ℚ) < steps other := Nat.cast_lt.mpr (steps_strictMono more)
    have beside : (steps (bits + 1) : ℚ) ≤ steps other := Nat.cast_le.mpr (steps_strictMono.monotone more)
    rw [nearer_low apart, as_near apart]
    rcases above (by omega) with near | ⟨near, even⟩
    · exact .inl (by linarith)
    · rcases beside.lt_or_eq with beyond | same
      · exact .inl (by linarith)
      · exact .inr ⟨by linarith, .inr even⟩

theorem rounded_most {rounded : Nat} {ratio : ℚ} (most : ratio < 2 ^ 53) (near : |ratio - rounded| ≤ 1 / 2) :
    rounded ≤ 2 ^ 53 := by
  have low := (abs_le.mp near).1
  have bound : (rounded : ℚ) < (2 ^ 53 + 1 : Nat) := by push_cast; linarith
  exact Nat.le_of_lt_succ (Nat.cast_lt.mp bound)

theorem nearest_of_rounded {rounded : Nat} {ratio : ℚ} (positive : 0 ≤ ratio) (least : shift = 0 ∨ 2 ^ 52 ≤ ratio)
    (most : ratio < 2 ^ 53) (near : |ratio - rounded| ≤ 1 / 2) (even : |ratio - rounded| = 1 / 2 → rounded % 2 = 0)
    (limit : other ≤ 0x7ff0000000000000) :
    |ratio * 2 ^ shift - steps (shift * 2 ^ 52 + rounded)| < |ratio * 2 ^ shift - steps other| ∨
      |ratio * 2 ^ shift - steps (shift * 2 ^ 52 + rounded)| = |ratio * 2 ^ shift - steps other| ∧
        (other = shift * 2 ^ 52 + rounded ∨ (shift * 2 ^ 52 + rounded) % 2 = 0) := by
  have power : (0 : ℚ) < 2 ^ shift := pow_pos two_pos _
  obtain ⟨low, high⟩ := abs_le.mp near
  have inside := rounded_most most near
  have normal : shift = 0 ∨ 2 ^ 52 ≤ rounded := by
    refine least.imp_right fun least => ?_
    have bound : ((2 ^ 52 : Nat) : ℚ) < (rounded + 1 : Nat) := by push_cast; linarith
    exact Nat.le_of_lt_succ (Nat.cast_lt.mp bound)
  have whole : (steps (shift * 2 ^ 52 + rounded) : ℚ) = rounded * 2 ^ shift := by
    rw [steps_shifted normal inside]
    push_cast
    rfl
  -- Only the two neighbours are left to compare with. The bits before may have a lesser exponent, but not if the
  -- ratio was rounded up.
  refine nearest_of_neighbours ?_ ?_ limit
  · intro previous same
    rcases le_or_gt (rounded : ℚ) ratio with beyond | short
    · have less : (steps previous : ℚ) < steps (shift * 2 ^ 52 + rounded) :=
        Nat.cast_lt.mpr (steps_strictMono (by omega))
      have reached := mul_le_mul_of_nonneg_right beyond power.le
      exact .inl (by linarith)
    · have one : 1 ≤ rounded := Nat.cast_pos.mp (positive.trans_lt short)
      have large : shift = 0 ∨ 2 ^ 52 ≤ rounded - 1 := by
        refine least.imp_right fun least => Nat.le_sub_one_of_lt ?_
        exact Nat.cast_lt.mp (by push_cast; linarith : ((2 ^ 52 : Nat) : ℚ) < rounded)
      have before : (steps previous : ℚ) = (rounded - 1) * 2 ^ shift := by
        rw [show previous = shift * 2 ^ 52 + (rounded - 1) by omega, steps_shifted large (by omega)]
        push_cast [one]
        rfl
      rw [whole, before, ← add_mul, ← mul_assoc, mul_lt_mul_iff_of_pos_right power, mul_left_inj' power.ne']
      rcases low.lt_or_eq with nearer | half
      · exact .inl (by linarith)
      · have tie : |ratio - rounded| = 1 / 2 := by rw [← half, abs_neg, abs_of_pos (by norm_num)]
        have := even tie
        exact .inr ⟨by linarith, by omega⟩
  · intro _
    rcases le_or_gt ratio rounded with before | beyond
    · have more : (steps (shift * 2 ^ 52 + rounded) : ℚ) < steps (shift * 2 ^ 52 + rounded + 1) :=
        Nat.cast_lt.mpr (steps_strictMono (Nat.lt_succ_self _))
      have reached := mul_le_mul_of_nonneg_right before power.le
      exact .inl (by linarith)
    · have less : rounded < 2 ^ 53 := Nat.cast_lt.mp (by push_cast; linarith : (rounded : ℚ) < (2 ^ 53 : Nat))
      have after : (steps (shift * 2 ^ 52 + rounded + 1) : ℚ) = (rounded + 1) * 2 ^ shift := by
        rw [Nat.add_assoc, steps_shifted (by omega) less]
        push_cast
        rfl
      rw [whole, after, ← add_mul, ← mul_assoc, mul_lt_mul_iff_of_pos_right power, mul_left_inj' power.ne']
      rcases high.lt_or_eq with nearer | half
      · exact .inl (by linarith)
      · have := even (by rw [half, abs_of_pos (by norm_num)])
        exact .inr ⟨by linarith, by omega⟩

theorem Nearest.of_steps (range : bits ≤ 0x7ff0000000000000) (closest : ∀ other ≤ 0x7ff0000000000000,
    |number * 2 ^ 1074 - steps bits| < |number * 2 ^ 1074 - steps other| ∨
      |number * 2 ^ 1074 - steps bits| = |number * 2 ^ 1074 - steps other| ∧ (other = bits ∨ bits % 2 = 0)) :
    Nearest number bits := by
  have scaled (bits : Nat) : |number - size bits| = |number * 2 ^ 1074 - steps bits| / 2 ^ 1074 := by
    have positive : (0 : ℚ) < 2 ^ 1074 := pow_pos two_pos _
    unfold size
    generalize (2 : ℚ) ^ 1074 = scale at positive ⊢
    rw [eq_div_iff positive.ne', ← abs_of_pos positive, ← abs_mul, abs_of_pos positive, sub_mul,
      div_mul_cancel₀ _ positive.ne']
  have positive : (0 : ℚ) < 2 ^ 1074 := pow_pos two_pos _
  refine ⟨range, ?_, ?_⟩
  · intro other limit
    rw [scaled, scaled, div_le_div_iff_of_pos_right positive]
    rcases closest other limit with nearer | ⟨same, -⟩
    · exact nearer.le
    · exact same.le
  · intro other limit same
    rw [scaled, scaled, div_left_inj' positive.ne'] at same
    rcases closest other limit with nearer | ⟨-, even⟩
    · exact absurd same nearer.ne'
    · exact even

theorem nearest_zero (small : 2 * (number * 2 ^ 1074) < 1) : Nearest number 0 := by
  refine .of_steps (by decide) fun other limit => nearest_of_neighbours ?_ ?_ limit
  · intro other same
    omega
  · intro _
    left
    generalize number * 2 ^ 1074 = place at small ⊢
    simpa [steps] using small

theorem nearest_infinity (large : 2 ^ 52 * 2 ^ 2046 ≤ number * 2 ^ 1074) : Nearest number 0x7ff0000000000000 := by
  have last : steps (2046 * 2 ^ 52 + 2 ^ 52) = 2 ^ 52 * 2 ^ 2046 := steps_shifted (.inr (Nat.le_refl _)) (by decide)
  rw [show 2046 * 2 ^ 52 + 2 ^ 52 = 0x7ff0000000000000 by decide] at last
  have reached : (steps 0x7ff0000000000000 : ℚ) ≤ number * 2 ^ 1074 := by
    rw [last, Nat.cast_mul, Nat.cast_pow, Nat.cast_pow]
    exact large
  refine .of_steps (Nat.le_refl _) fun other limit => nearest_of_neighbours ?_ ?_ limit
  · intro other same
    have less : (steps other : ℚ) < steps 0x7ff0000000000000 := Nat.cast_lt.mpr (steps_strictMono (by omega))
    generalize number * 2 ^ 1074 = place at reached ⊢
    exact .inl (by linarith)
  · intro absurd
    omega

section Quotients

variable {scaled divisor shift : Nat}

theorem cast_shiftLeft (number shift : Nat) : ((number <<< shift : Nat) : ℚ) = number * 2 ^ shift := by
  rw [Nat.shiftLeft_eq]
  push_cast
  rfl

-- The exponent is that of the quotient, so that the quotient lies between two powers of two unless it is small.
theorem quotient_least (positive : 0 < divisor) (exponent : Nat.log2 (scaled / divisor) - 52 = shift) :
    shift = 0 ∨ 2 ^ 52 * (divisor * 2 ^ shift) ≤ scaled := by
  rcases Nat.eq_zero_or_pos shift with zero | some
  · exact .inl zero
  have given : scaled / divisor ≠ 0 := by
    intro none
    rw [none, Nat.log2_zero] at exponent
    omega
  have below := Nat.log2_self_le given
  rw [show Nat.log2 (scaled / divisor) = 52 + shift by omega, Nat.pow_add, Nat.le_div_iff_mul_le positive] at below
  exact .inr (by rwa [Nat.mul_comm divisor, ← Nat.mul_assoc])

theorem quotient_most (positive : 0 < divisor) (exponent : Nat.log2 (scaled / divisor) - 52 = shift) :
    scaled < 2 ^ 53 * (divisor * 2 ^ shift) := by
  have beyond := Nat.lt_log2_self (n := scaled / divisor)
  have wider : 2 ^ (Nat.log2 (scaled / divisor) + 1) ≤ 2 ^ (53 + shift) := Nat.pow_le_pow_right (by decide) (by omega)
  have less := (Nat.div_lt_iff_lt_mul positive).mp (beyond.trans_le wider)
  rwa [Nat.pow_add, Nat.mul_assoc, Nat.mul_comm _ divisor] at less

end Quotients

theorem nearestBits_nearest (dividend : Nat) {divisor : Nat} (positive : 0 < divisor) :
    Nearest (dividend / divisor) (nearestBits dividend divisor) := by
  have scaling : (dividend / divisor * 2 ^ 1074 : ℚ) = ((dividend <<< 1074 : Nat) : ℚ) / divisor := by
    rw [cast_shiftLeft, div_mul_eq_mul_div]
  unfold nearestBits
  generalize dividend <<< 1074 = scaled at scaling ⊢
  simp only [Nat.shiftLeft_eq]
  generalize exponent : Nat.log2 (scaled / divisor) - 52 = shift
  have power : 0 < divisor * 2 ^ shift := Nat.mul_pos positive (Nat.two_pow_pos shift)
  have wide : (0 : ℚ) < (divisor * 2 ^ shift : Nat) := Nat.cast_pos.mpr power
  have placed : (dividend / divisor * 2 ^ 1074 : ℚ) = (scaled : ℚ) / (divisor * 2 ^ shift : Nat) * 2 ^ shift := by
    rw [scaling, Nat.cast_mul, Nat.cast_pow, Nat.cast_ofNat, div_mul_eq_mul_div,
      mul_div_mul_right _ _ (pow_ne_zero _ two_ne_zero)]
  have least : shift = 0 ∨ (2 ^ 52 : ℚ) ≤ (scaled : ℚ) / (divisor * 2 ^ shift : Nat) := by
    refine (quotient_least positive exponent).imp_right fun bound => ?_
    rw [le_div_iff₀ wide]
    exact_mod_cast bound
  have most : (scaled : ℚ) / (divisor * 2 ^ shift : Nat) < 2 ^ 53 := by
    rw [div_lt_iff₀ wide]
    exact_mod_cast quotient_most positive exponent
  obtain ⟨near, even⟩ := roundDiv_near scaled power
  have inside := rounded_most most near
  have infinite : infinityBits = 0x7ff0000000000000 := by decide
  rw [infinite]
  generalize roundDiv scaled (divisor * 2 ^ shift) = rounded at near even inside ⊢
  rcases Nat.lt_or_ge 0x7ff0000000000000 (shift * 2 ^ 52 + rounded) with beyond | finite
  · rw [Nat.min_eq_right beyond.le]
    apply nearest_infinity
    have high : 2046 ≤ shift := by omega
    rw [placed]
    refine mul_le_mul (least.resolve_left (by omega)) ?_ (pow_nonneg two_pos.le _) (by positivity)
    exact pow_le_pow_right₀ one_le_two high
  · rw [Nat.min_eq_left finite]
    refine .of_steps finite fun other limit => ?_
    rw [placed]
    exact nearest_of_rounded (by positivity) least most near even limit

section Decimals

variable {digits : Nat} {exponent : Int}

theorem digits_range (given : digits ≠ 0) :
    10 ^ ((Nat.toDigits 10 digits).length - 1) ≤ digits ∧ digits < 10 ^ (Nat.toDigits 10 digits).length := by
  have some : 0 < (Nat.toDigits 10 digits).length := Nat.length_toDigits_pos
  refine ⟨?_, (Nat.length_toDigits_le_iff (by decide) some).mp (Nat.le_refl _)⟩
  rcases Nat.eq_zero_or_pos ((Nat.toDigits 10 digits).length - 1) with one | more
  · rw [one]
    omega
  · by_contra less
    have shorter := (Nat.length_toDigits_le_iff (by decide) more).mpr (Nat.lt_of_not_le less)
    omega

theorem decimal_range (given : digits ≠ 0) :
    (10 : ℚ) ^ ((Nat.toDigits 10 digits).length + exponent - 1) ≤ digits * 10 ^ exponent ∧
      (digits : ℚ) * 10 ^ exponent < 10 ^ ((Nat.toDigits 10 digits).length + exponent) := by
  have some : 0 < (Nat.toDigits 10 digits).length := Nat.length_toDigits_pos
  obtain ⟨least, most⟩ := digits_range given
  generalize (Nat.toDigits 10 digits).length = length at some least most ⊢
  have power : (0 : ℚ) < 10 ^ exponent := zpow_pos (by norm_num) _
  constructor
  · rw [show (length : Int) + exponent - 1 = ((length - 1 : Nat) : Int) + exponent by omega,
      zpow_add₀ (by norm_num), zpow_natCast]
    exact mul_le_mul_of_nonneg_right (by exact_mod_cast least) power.le
  · rw [zpow_add₀ (by norm_num), zpow_natCast]
    exact mul_lt_mul_of_pos_right (by exact_mod_cast most) power

theorem power_le {a b m n : Nat} (less : a ^ m ≤ b ^ n) : (a : ℚ) ^ m ≤ (b : ℚ) ^ n := by
  exact_mod_cast less

theorem decimal_small (small : number < 10 ^ (-331 : Int)) : 2 * (number * 2 ^ 1074) < 1 := by
  have wide : (2 : ℚ) ^ 1075 ≤ 10 ^ 331 := @power_le 2 10 1075 331 (by decide +kernel)
  have power : (0 : ℚ) < 2 ^ 1075 := pow_pos two_pos _
  have tiny : number < 1 / 2 ^ 1075 := by
    refine small.trans_le ?_
    rw [zpow_neg, zpow_ofNat, ← one_div]
    exact one_div_le_one_div_of_le power wide
  rw [lt_div_iff₀ power, pow_succ] at tiny
  rw [mul_comm 2, mul_assoc]
  exact tiny

theorem decimal_large (large : 10 ^ (310 : Int) ≤ number) : 2 ^ 52 * 2 ^ 2046 ≤ number * 2 ^ 1074 := by
  have wide : (2 : ℚ) ^ 1024 ≤ 10 ^ 310 := @power_le 2 10 1024 310 (by decide +kernel)
  rw [zpow_ofNat] at large
  rw [← pow_add, show 52 + 2046 = 1024 + 1074 by decide, pow_add]
  exact mul_le_mul_of_nonneg_right (wide.trans large) (pow_nonneg two_pos.le _)

theorem decimalBits_nearest (digits : Nat) (exponent : Int) :
    Nearest (digits * 10 ^ exponent) (decimalBits digits exponent) := by
  unfold decimalBits
  simp only
  by_cases none : digits = 0
  · rw [if_pos (.inl none), none]
    exact nearest_zero (by simp)
  obtain ⟨least, most⟩ := @decimal_range digits exponent none
  have base : (1 : ℚ) ≤ 10 := by norm_num
  split
  · rename_i small
    have below := small.resolve_left none
    exact nearest_zero (decimal_small (most.trans_le (zpow_le_zpow_right₀ base (by omega))))
  split
  · exact nearest_infinity (decimal_large ((zpow_le_zpow_right₀ base (by omega)).trans least))
  split
  · rename_i whole
    have exact := nearestBits_nearest (digits * 10 ^ exponent.toNat) Nat.one_pos
    have same : (digits : ℚ) * 10 ^ exponent = (digits * 10 ^ exponent.toNat : Nat) / (1 : Nat) := by
      rw [Nat.cast_one, div_one, Nat.cast_mul, Nat.cast_pow, Nat.cast_ofNat, ← zpow_natCast, Int.toNat_of_nonneg whole]
    rw [same]
    exact exact
  · rename_i part
    have exact := nearestBits_nearest digits (Nat.pow_pos (n := (-exponent).toNat) (by decide : 0 < 10))
    have same : (digits : ℚ) * 10 ^ exponent = digits / (10 ^ (-exponent).toNat : Nat) := by
      rw [Nat.cast_pow, Nat.cast_ofNat, ← zpow_natCast, Int.toNat_of_nonneg (by omega), zpow_neg, div_inv_eq_mul]
    rw [same]
    exact exact

end Decimals

theorem size_strictMono : StrictMono size := by
  intro bits other less
  exact div_lt_div_of_pos_right (Nat.cast_lt.mpr (steps_strictMono less)) (pow_pos two_pos _)

namespace Nearest

-- Bits that are as near as others and not beside them would have nearer ones in between, and of two bits side by side
-- one is odd.
theorem not_lt (first : Nearest number bits) (second : Nearest number other) : ¬bits < other := by
  intro less
  have same := le_antisymm (first.closest other second.range) (second.closest bits first.range)
  have middle := (as_near (size_strictMono less)).mp same
  rcases Nat.lt_or_eq_of_le (Nat.succ_le_of_lt less) with between | beside
  · have inside := second.range
    have further := first.closest (bits + 1) (by omega)
    have nearer : |number - size (bits + 1)| < |number - size bits| := by
      rw [nearer_high (size_strictMono (Nat.lt_succ_self bits)), middle]
      exact add_lt_add_right (size_strictMono between) _
    exact absurd further (not_le.mpr nearer)
  · have left := first.even other second.range same.symm
    have right := second.even bits first.range same
    omega

theorem unique (first : Nearest number bits) (second : Nearest number other) : bits = other :=
  Nat.le_antisymm (Nat.le_of_not_lt (second.not_lt first)) (Nat.le_of_not_lt (first.not_lt second))

end Nearest

end Binary64

end TypedScript.Number
