import ShapeContracts.Issue

/-! Rounding of whole numbers keeps their order. Two of them that are rounded to one number are told apart
no longer, and that takes numbers beyond 2^53. -/
namespace ShapeContracts.Binary64

variable {m n p q k bound : Nat}

theorem roundDivAtMost (pos : 0 < q) (le : p ≤ k * q) : roundDiv p q ≤ k := by
  have quotient : p / q ≤ k := Nat.div_le_of_le_mul (Nat.mul_comm k q ▸ le)
  rcases Nat.lt_or_eq_of_le quotient with less | same
  · exact Nat.le_trans (roundDivLe p q) less
  · have whole := Nat.div_add_mod p q
    rw [same, Nat.mul_comm q k] at whole
    have exactly : p % q = 0 := by omega
    unfold roundDiv
    rw [exactly, same]
    exact Nat.le_of_eq (if_pos pos)

theorem atMostRoundDiv (pos : 0 < q) (le : k * q ≤ p) : k ≤ roundDiv p q :=
  Nat.le_trans ((Nat.le_div_iff_mul_le pos).mpr le) (leRoundDiv p q)

theorem roundDivMono (le : m ≤ n) : roundDiv m q ≤ roundDiv n q := by
  have quotients : m / q ≤ n / q := Nat.div_le_div_right le
  rcases Nat.lt_or_eq_of_le quotients with less | same
  · exact Nat.le_trans (roundDivLe m q) (Nat.le_trans less (leRoundDiv n q))
  · have whole := Nat.div_add_mod m q
    have whole' := Nat.div_add_mod n q
    rw [same] at whole
    have remainders : m % q ≤ n % q := by omega
    unfold roundDiv
    rw [same]
    grind

theorem spacingPositive (n : Nat) : 0 < spacing n := Nat.two_pow_pos _

theorem nearestWhole (n : Nat) : nearest n 1 = roundDiv n (spacing n) * spacing n := by
  unfold nearest
  rw [Nat.div_one]
  exact congrArg (fun step => roundDiv n step * spacing n) (Nat.one_mul _)

theorem nearestAtMost (grid : spacing n ∣ bound) (le : n ≤ bound) : nearest n 1 ≤ bound := by
  obtain ⟨k, rfl⟩ := grid
  rw [nearestWhole, Nat.mul_comm (spacing n) k]
  exact Nat.mul_le_mul_right _ (roundDivAtMost (spacingPositive n) (Nat.mul_comm k _ ▸ le))

theorem atMostNearest (grid : spacing n ∣ bound) (le : bound ≤ n) : bound ≤ nearest n 1 := by
  obtain ⟨k, rfl⟩ := grid
  rw [nearestWhole, Nat.mul_comm (spacing n) k]
  exact Nat.mul_le_mul_right _ (atMostRoundDiv (spacingPositive n) (Nat.mul_comm k _ ▸ le))

theorem spacingPower (le : n.log2 ≤ k) : spacing n ∣ Nat.pow 2 k := Nat.pow_dvd_pow 2 (by omega)

theorem logPower (le : n ≤ Nat.pow 2 k) : n.log2 ≤ k := by
  by_cases zero : n = 0
  · rw [zero]
    exact Nat.zero_le k
  · have longer : Nat.pow 2 k < Nat.pow 2 (k + 1) := Nat.pow_lt_pow_right (by decide) (Nat.lt_succ_self k)
    exact Nat.le_of_lt_succ ((Nat.log2_lt zero).mpr (Nat.lt_of_le_of_lt le longer))

theorem nearestMono (le : m ≤ n) : nearest m 1 ≤ nearest n 1 := by
  by_cases same : m.log2 = n.log2
  · have spaced : spacing m = spacing n := congrArg (fun e => Nat.pow 2 (e - 52)) same
    rw [nearestWhole, nearestWhole, spaced]
    exact Nat.mul_le_mul_right _ (roundDivMono le)
  · -- a power of two stands between numbers of different lengths
    have apart : m.log2 < n.log2 := by
      rcases Nat.eq_zero_or_pos m with rfl | pos
      · exact Nat.pos_of_ne_zero (fun zero => same zero.symm)
      · exact Nat.lt_of_le_of_ne ((Nat.le_log2 (by omega)).mpr (Nat.le_trans (Nat.log2_self_le (by omega)) le)) same
    have some : n ≠ 0 := fun zero => by simp [zero] at apart
    have under : m ≤ Nat.pow 2 n.log2 :=
      Nat.le_of_lt (Nat.lt_of_lt_of_le Nat.lt_log2_self (Nat.pow_le_pow_right (by decide) apart))
    have beyond : Nat.pow 2 n.log2 ≤ n := Nat.log2_self_le some
    exact Nat.le_trans (nearestAtMost (spacingPower (Nat.le_of_lt apart)) under)
      (atMostNearest (spacingPower (Nat.le_refl _)) beyond)

def rounded (a : Int) : Int :=
  if a < 0 then -(nearest (a.natAbs * one) 1 : Int) else nearest (a.natAbs * one) 1

variable {a b : Int}

theorem onePositive : 0 < one := by decide +kernel

theorem wholeSmall (small : n ≤ 18446744073709551616) : nearest (n * one) 1 < limit := by
  have power : 18446744073709551616 * one = Nat.pow 2 1138 := by decide +kernel
  have within : Nat.pow 2 1138 < limit := by decide +kernel
  have le : n * one ≤ Nat.pow 2 1138 := power ▸ Nat.mul_le_mul_right one small
  exact Nat.lt_of_le_of_lt (nearestAtMost (spacingPower (logPower le)) le) within

theorem ofIntRounded (small : a.natAbs ≤ 18446744073709551616) :
    ∃ x, ofInt? a = some x ∧ x.signed = rounded a ∧ x.negative = decide (a < 0) := by
  have fits := wholeSmall small
  have read : ofInt? a = some ⟨a < 0, nearest (a.natAbs * one) 1, nearestFits _ _, fits⟩ := by
    rw [ofInt?, ofRatio?, ofUnits?, dif_pos fits]
  have signed : (⟨a < 0, nearest (a.natAbs * one) 1, nearestFits _ _, fits⟩ : Binary64).signed = rounded a := by
    simp only [signed, rounded, decide_eq_true_eq]
  exact ⟨_, read, signed, rfl⟩

theorem nearestExact (small : n ≤ 9007199254740992) : nearest (n * one) 1 = n * one := by
  have power : ∃ k, one = Nat.pow 2 k := ⟨1074, by decide +kernel⟩
  have fits : Fits (n * one) := by
    obtain ⟨k, same⟩ := power
    rw [same]
    exact fitsMulPower small
  exact nearestOfFits fits

theorem roundedExact (small : a.natAbs ≤ 9007199254740992) : rounded a = a * one := by
  unfold rounded
  rw [nearestExact small]
  split
  · rw [Int.natCast_mul, Int.ofNat_natAbs_of_nonpos (by omega), Int.neg_mul, Int.neg_neg]
  · rw [Int.natCast_mul, Int.natAbs_of_nonneg (by omega)]

theorem roundedMono (le : a ≤ b) : rounded a ≤ rounded b := by
  unfold rounded
  split
  · split
    · have shrinks : nearest (b.natAbs * one) 1 ≤ nearest (a.natAbs * one) 1 :=
        nearestMono (Nat.mul_le_mul_right _ (by omega))
      omega
    · omega
  · rw [if_neg (by omega)]
    exact Int.ofNat_le.mpr (nearestMono (Nat.mul_le_mul_right _ (by omega)))

theorem roundedOrder : rounded a ≤ rounded b ↔ a ≤ b ∨ rounded a = rounded b := by
  apply Iff.intro
  · intro le
    by_cases order : a ≤ b
    · exact .inl order
    · exact .inr (Int.le_antisymm le (roundedMono (by omega)))
  · intro either
    rcases either with order | same
    · exact roundedMono order
    · exact Int.le_of_eq same

theorem roundedApart (same : rounded a = rounded b) : a = b ∨ 9007199254740992 ≤ a.natAbs := by
  by_cases safe : a.natAbs < 9007199254740992
  · have exactly := roundedExact (Nat.le_of_lt safe)
    by_cases safe' : b.natAbs ≤ 9007199254740992
    · rw [exactly, roundedExact safe'] at same
      exact .inl (Int.eq_of_mul_eq_mul_right (Int.ofNat_ne_zero.mpr (Nat.ne_of_gt onePositive)) same)
    · -- the other number is beyond all safe ones, and so is what it is rounded to
      have positive : (0 : Int) < one := Int.ofNat_lt.mpr onePositive
      exfalso
      rw [exactly] at same
      rcases Int.le_total 0 b with above | below
      · have beyond : rounded 9007199254740992 ≤ rounded b := roundedMono (by omega)
        rw [← same, roundedExact (by decide)] at beyond
        have := Int.le_of_mul_le_mul_right beyond positive
        omega
      · have beyond : rounded b ≤ rounded (-9007199254740992) := roundedMono (by omega)
        rw [← same, roundedExact (by decide)] at beyond
        have := Int.le_of_mul_le_mul_right beyond positive
        omega
  · exact .inr (by omega)

theorem roundedNegative : rounded a < 0 ↔ a < 0 := by
  have positive : (0 : Int) < one := Int.ofNat_lt.mpr onePositive
  apply Iff.intro
  · intro negative
    by_cases sign : a < 0
    · exact sign
    · rw [rounded, if_neg sign] at negative
      omega
  · intro sign
    have le : rounded a ≤ rounded (-1) := roundedMono (by omega)
    rw [roundedExact (by decide : (-1 : Int).natAbs ≤ 9007199254740992)] at le
    omega

theorem signedSame {x y : Binary64} (signs : x.negative = y.negative) (same : x.signed = y.signed) : x = y := by
  obtain ⟨negative, units, fits, small⟩ := x
  obtain ⟨negative', units', fits', small'⟩ := y
  obtain rfl : negative = negative' := signs
  have counts : units = units' := by
    cases negative with
    | false => exact Int.ofNat.inj same
    | true => exact Int.ofNat.inj (Int.neg_inj.mp same)
  subst counts
  rfl

theorem ofIntSame (small : a.natAbs ≤ 18446744073709551616) (small' : b.natAbs ≤ 18446744073709551616) :
    ofInt? a = ofInt? b ↔ rounded a = rounded b := by
  obtain ⟨x, here, value, sign⟩ := ofIntRounded small
  obtain ⟨y, there, value', sign'⟩ := ofIntRounded small'
  rw [here, there, Option.some.injEq]
  apply Iff.intro
  · intro same
    rw [← value, ← value', same]
  · intro same
    have signs : x.negative = y.negative := by
      rw [sign, sign', decide_eq_decide, ← roundedNegative, ← @roundedNegative b, same]
    exact signedSame signs (value.trans (same.trans value'.symm))

theorem ofIntApart (small : a.natAbs ≤ 18446744073709551616) (small' : b.natAbs ≤ 18446744073709551616)
    (same : ofInt? a = ofInt? b) : a = b ∨ 9007199254740992 ≤ a.natAbs :=
  roundedApart ((ofIntSame small small').mp same)

theorem ofIntLess {x y : Binary64} (small : a.natAbs ≤ 18446744073709551616)
    (small' : b.natAbs ≤ 18446744073709551616) (here : ofInt? a = some x) (there : ofInt? b = some y) :
    (!y.lt x) = true ↔ a ≤ b ∨ ofInt? a = ofInt? b := by
  obtain ⟨x', here', value, -⟩ := ofIntRounded small
  obtain ⟨y', there', value', -⟩ := ofIntRounded small'
  cases here.symm.trans here'
  cases there.symm.trans there'
  rw [ofIntSame small small', ← roundedOrder, lt, Bool.not_eq_true', decide_eq_false_iff_not, value, value',
    Int.not_lt]

end ShapeContracts.Binary64
