/-!
Finite binary64 numbers, held exactly: a sign and a count of units of 2^-1074, the distance
between the two smallest numbers of the format. Rounding is to nearest, half to even, and every
count that rounding yields is one the format can hold.
-/
namespace ShapeContracts

namespace Binary64

def one : Nat := Nat.pow 2 1074

def limit : Nat := Nat.pow 2 2098

/-- The spacing of the format around a count: 53 significant bits are kept. -/
def spacing (n : Nat) : Nat := Nat.pow 2 (n.log2 - 52)

abbrev Fits (n : Nat) : Prop := n % spacing n = 0

/-- The whole number nearest to `p / q`, a half going to the even neighbour. -/
def roundDiv (p q : Nat) : Nat :=
  let n := p / q
  let r := p % q
  if 2 * r < q then n else if q < 2 * r then n + 1 else n + n % 2

theorem roundDivLe (p q : Nat) : roundDiv p q ≤ p / q + 1 := by
  unfold roundDiv
  grind

theorem leRoundDiv (p q : Nat) : p / q ≤ roundDiv p q := by
  unfold roundDiv
  grind

def nearest (p q : Nat) : Nat :=
  let step := spacing (p / q)
  roundDiv p (q * step) * step

theorem fitsMulPower {m k : Nat} (h : m ≤ Nat.pow 2 53) : Fits (m * Nat.pow 2 k) := by
  have small : ∀ {a j : Nat}, a < 2 ^ 53 → Fits (a * 2 ^ j) := by
    intro a j ha
    by_cases h0 : a = 0
    · subst h0; simp [Fits]
    · have hpos : a * 2 ^ j ≠ 0 := Nat.mul_ne_zero h0 (Nat.ne_of_gt (Nat.two_pow_pos j))
      have hlt : a * 2 ^ j < 2 ^ (53 + j) := by
        rw [Nat.pow_add]
        exact Nat.mul_lt_mul_of_pos_right ha (Nat.two_pow_pos j)
      have hlog : (a * 2 ^ j).log2 < 53 + j := (Nat.log2_lt hpos).2 hlt
      apply Nat.mod_eq_zero_of_dvd
      exact Nat.dvd_trans (Nat.pow_dvd_pow 2 (by omega)) (Nat.dvd_mul_left (2 ^ j) a)
  rcases Nat.lt_or_eq_of_le h with h | h
  · exact small h
  · subst h
    have : 2 ^ 53 * 2 ^ k = 2 ^ 52 * 2 ^ (k + 1) := by
      rw [← Nat.pow_add, ← Nat.pow_add]
      congr 1
      omega
    exact (congrArg Fits this).mpr (small (by decide))

theorem nearestFits (p q : Nat) : Fits (nearest p q) := by
  unfold nearest
  apply fitsMulPower
  refine Nat.le_trans (roundDivLe _ _) ?_
  have hq : p / (q * spacing (p / q)) = p / q / spacing (p / q) := (Nat.div_div_eq_div_mul p q _).symm
  rw [hq]
  by_cases h0 : p / q = 0
  · simp [h0]
  · have : p / q < 2 ^ ((p / q).log2 + 1) := Nat.lt_log2_self
    have hs : p / q / spacing (p / q) < 2 ^ 53 := by
      apply (Nat.div_lt_iff_lt_mul (Nat.two_pow_pos _)).2
      refine Nat.lt_of_lt_of_le this ?_
      rw [← Nat.pow_add]
      exact Nat.pow_le_pow_right (by decide) (by omega)
    exact hs

theorem nearestOfFits {n : Nat} (h : Fits n) : nearest n 1 = n := by
  have hdvd : spacing n ∣ n := Nat.dvd_of_mod_eq_zero h
  obtain ⟨m, hm⟩ := hdvd
  have hpos : 0 < spacing n := Nat.two_pow_pos _
  have : roundDiv n (spacing n) = m := by
    unfold roundDiv
    have h1 : n / spacing n = m := by
      conv => lhs; lhs; rw [hm]
      exact Nat.mul_div_cancel_left m hpos
    simp only [h, h1]
    simp [hpos]
  simp only [nearest, Nat.div_one, Nat.one_mul, this]
  rw [Nat.mul_comm]
  exact hm.symm

end Binary64

/-- A finite binary64 number; the two zeros are told apart. -/
structure Binary64 where
  negative : Bool
  units : Nat
  fits : Binary64.Fits units
  small : units < Binary64.limit
  deriving DecidableEq

namespace Binary64

def ofUnits? (negative : Bool) (p q : Nat) : Option Binary64 :=
  if h : nearest p q < limit then some ⟨negative, nearest p q, nearestFits p q, h⟩ else none

def zero (negative : Bool) : Binary64 := ⟨negative, 0, by decide, by decide +kernel⟩

def ofRatio? (negative : Bool) (p q : Nat) : Option Binary64 := ofUnits? negative (p * one) q

def ofInt? (n : Int) : Option Binary64 := ofRatio? (n < 0) n.natAbs 1

def mul? (x y : Binary64) : Option Binary64 :=
  ofUnits? (x.negative != y.negative) (x.units * y.units) one

def div? (x y : Binary64) : Option Binary64 :=
  ofUnits? (x.negative != y.negative) (x.units * one) y.units

def neg (x : Binary64) : Binary64 := { x with negative := !x.negative }

def signed (x : Binary64) : Int := if x.negative then -(x.units : Int) else x.units

def lt (x y : Binary64) : Bool := x.signed < y.signed

def isWhole (x : Binary64) : Bool := x.units % one == 0

def truncate (x : Binary64) : Int := x.signed.tdiv one

def within (x : Binary64) (n : Nat) : Bool := x.units ≤ n * one

end Binary64
end ShapeContracts
