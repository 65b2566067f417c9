import Mathlib.Algebra.BigOperators.Group.Finset.Basic
import Mathlib.Algebra.Order.Ring.Int
import Mathlib.Tactic.Ring

/-!
Parts of a whole, rounded down. At a value `a` of the whole `t`, a part `x` comes to
`x * a / t`. Parts come to no more apart than together, and two of them to at most
one less (`add_le`, `le_add_one`, `sum_le`); going back and forth between parts and
values gains nothing (`back_le`); and taking a part out of the whole at its value
rounded up leaves what the rest comes to, at a rate that has not risen (`rest_eq`,
`rate_le`, `rest_within`).
-/
namespace Helix.Proportion

section Parts
variable {x y a t : Int}

theorem le_of_mul_le {n k : Int} (positive : 0 < t) (below : n * t ≤ k) : n ≤ k / t :=
  (Int.le_ediv_iff_mul_le positive).mpr below

theorem mul_le (n : Int) (positive : 0 < t) : n / t * t ≤ n := Int.ediv_mul_le n positive.ne'

/-- Two parts come to no more apart than together. -/
theorem add_le (nonneg : 0 ≤ t) : x * a / t + y * a / t ≤ (x + y) * a / t := by
  rcases nonneg.eq_or_lt with zero | positive
  · simp [← zero]
  · apply le_of_mul_le positive
    rw [add_mul,add_mul]
    exact add_le_add (mul_le _ positive) (mul_le _ positive)

/-- Together they come to at most one more. -/
theorem le_add_one (nonneg : 0 ≤ t) : (x + y) * a / t ≤ x * a / t + y * a / t + 1 := by
  rcases nonneg.eq_or_lt with zero | positive
  · simp [← zero]
  · have first := Int.lt_ediv_add_one_mul_self (x * a) positive
    have second := Int.lt_ediv_add_one_mul_self (y * a) positive
    have both : (x + y) * a < (x * a / t + y * a / t + 1 + 1) * t := by
      calc (x + y) * a = x * a + y * a := add_mul x y a
        _ < (x * a / t + 1) * t + (y * a / t + 1) * t := add_lt_add first second
        _ = (x * a / t + y * a / t + 1 + 1) * t := by ring
    exact Int.lt_add_one_iff.mp (Int.ediv_lt_of_lt_mul positive both)

/-- Any number of parts come to no more apart than together. -/
theorem sum_le {ι : Type} (s : Finset ι) (x : ι → Int) (nonneg : 0 ≤ t) :
    ∑ i ∈ s, x i * a / t ≤ (∑ i ∈ s, x i) * a / t := by
  classical
  induction s using Finset.induction_on with
  | empty => simp
  | insert i s other ih =>
    rw [Finset.sum_insert other,Finset.sum_insert other]
    exact (add_le_add_right ih _).trans (add_le nonneg)

/-- What a part comes to buys no more than the part. -/
theorem back_le (valued : 0 ≤ a) (whole : 0 ≤ t) (part : 0 ≤ x) : x * a / t * t / a ≤ x := by
  rcases valued.eq_or_lt with zero | positive
  · simpa [← zero] using part
  · rcases whole.eq_or_lt with zero | positive'
    · simpa [← zero] using part
    · exact Int.ediv_le_of_le_mul positive (mul_le _ positive')

/-! ### Taking a part out -/

/-- The value that is left when a part is taken out at its value rounded up: what
    the rest comes to. -/
theorem rest_eq (positive : 0 < t) : a - -(-(x * a) / t) = (t - x) * a / t := by
  have whole : (t - x) * a = -(x * a) + a * t := by ring
  rw [whole,Int.add_mul_ediv_right _ _ positive.ne']
  omega

/-- The rate has not risen then. -/
theorem rate_le (positive : 0 < t) : (t - x) * a / t * t ≤ a * (t - x) := by
  rw [mul_comm a]
  exact mul_le _ positive

/-- A part of the rest comes to no more than it did, and at most one less. -/
theorem rest_within (nonneg : 0 ≤ y) (within : y ≤ t - x) (positive : 0 < t) (rest : 0 < t - x) :
    y * ((t - x) * a / t) / (t - x) ≤ y * a / t ∧ y * a / t - 1 ≤ y * ((t - x) * a / t) / (t - x) := by
  constructor
  · apply le_of_mul_le positive
    have scaled : y * ((t - x) * a / t) / (t - x) * t * (t - x) ≤ y * a * (t - x) := by
      calc y * ((t - x) * a / t) / (t - x) * t * (t - x)
          = y * ((t - x) * a / t) / (t - x) * (t - x) * t := by ring
        _ ≤ y * ((t - x) * a / t) * t := Int.mul_le_mul_of_nonneg_right (mul_le _ rest) positive.le
        _ = y * ((t - x) * a / t * t) := by ring
        _ ≤ y * (a * (t - x)) := Int.mul_le_mul_of_nonneg_left (rate_le positive) nonneg
        _ = y * a * (t - x) := by ring
    exact le_of_mul_le_mul_right scaled rest
  · apply le_of_mul_le rest
    have above := Int.lt_ediv_add_one_mul_self ((t - x) * a) positive
    have scaled : y * a / t * (t - x) * t ≤ y * ((t - x) * a / t + 1) * t := by
      calc y * a / t * (t - x) * t = y * a / t * t * (t - x) := by ring
        _ ≤ y * a * (t - x) := Int.mul_le_mul_of_nonneg_right (mul_le _ positive) rest.le
        _ = y * ((t - x) * a) := by ring
        _ ≤ y * (((t - x) * a / t + 1) * t) := Int.mul_le_mul_of_nonneg_left above.le nonneg
        _ = y * ((t - x) * a / t + 1) * t := by ring
    have bound := le_of_mul_le_mul_right scaled positive
    have split : (y * a / t - 1) * (t - x) = y * a / t * (t - x) - (t - x) := by ring
    have split' : y * ((t - x) * a / t + 1) = y * ((t - x) * a / t) + y := by ring
    omega

end Parts

end Helix.Proportion
