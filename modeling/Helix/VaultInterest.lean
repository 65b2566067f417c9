import Helix.VaultSystem

/-!
Interest over time. The interest on a debt is a floored product of the debt, the rate
and the seconds since the last touch (`Position.interest_eq`), so it never falls with
more debt or more time. But a touch drops what the floor leaves: a debt that is touched
several times compounds, and it can still come to less than the debt that is touched
once. It falls short by less than a unit for every touch but the last
(`accrued_in_turn_within`).
-/
namespace Helix.Vault
open Invoke

/-! ### Interest as a floor -/

namespace Position
variable {p q : Position} {now later rate : Nat}

instance : Decidable (p.Accruable now rate) := inferInstanceAs (Decidable (_ → _))

/-- A year at the full rate, as the interest counts it. -/
theorem year_positive : 0 < SECONDS_PER_YEAR * BPS_DENOMINATOR := by decide

/-- What owes nothing and what is touched again at once bear nothing, as the product says. -/
theorem interest_eq (debt : 0 ≤ p.borrowed_amount) : p.interest now rate =
    p.borrowed_amount * rate * (now - p.last_update : Nat) / (SECONDS_PER_YEAR * BPS_DENOMINATOR) := by
  have product : 0 ≤ p.borrowed_amount * rate * (now - p.last_update : Nat) :=
    Int.mul_nonneg (Int.mul_nonneg debt (Int.natCast_nonneg _)) (Int.natCast_nonneg _)
  by_cases owes : 0 < p.borrowed_amount ∧ 0 < now - p.last_update
  · rw [interest,if_pos owes,Int.tdiv_eq_ediv_of_nonneg product]
  · rw [interest,if_neg owes]
    rcases not_and_or.mp owes with none | still
    · rw [show p.borrowed_amount = 0 by omega,zero_mul,zero_mul,Int.zero_ediv]
    · rw [show now - p.last_update = 0 by omega,Nat.cast_zero,mul_zero,Int.zero_ediv]

/-- More debt bears more interest. -/
theorem interest_of_less {debt : Int} (nonneg : 0 ≤ debt) (less : debt ≤ p.borrowed_amount) :
    debt * rate * (now - p.last_update : Nat) / (SECONDS_PER_YEAR * BPS_DENOMINATOR) ≤ p.interest now rate := by
  rw [interest_eq (nonneg.trans less)]
  apply Int.ediv_le_ediv year_positive
  exact Int.mul_le_mul_of_nonneg_right (Int.mul_le_mul_of_nonneg_right less (Int.natCast_nonneg _))
    (Int.natCast_nonneg _)

/-- More time bears more interest. -/
theorem interest_mono (debt : 0 ≤ p.borrowed_amount) (ordered : now ≤ later) :
    p.interest now rate ≤ p.interest later rate := by
  rw [interest_eq debt,interest_eq debt]
  apply Int.ediv_le_ediv year_positive
  have seconds : ((now - p.last_update : Nat) : Int) ≤ (later - p.last_update : Nat) := by omega
  exact Int.mul_le_mul_of_nonneg_left seconds (Int.mul_nonneg debt (Int.natCast_nonneg _))

end Position

/-! ### Touches in turn -/

section Turns
variable {W : Type}

/-- Accrues a position at one time after the other, as calls that touch it do. -/
def accrue_in_turn (env : Env) : List Nat → Position → Contract W Position
  | [],p => pure p
  | now :: later,p => do
    let accrued ← accrue_position { env with timestamp := now } p
    accrue_in_turn env later accrued

variable {env : Env} {s : World HelixVault W}

theorem accrue_position_ok {p : Position} {r : Position × World HelixVault W} : accrue_position env p s = .ok r ↔
    p.Accruable env.timestamp s.own.pool_config.interest_rate ∧
      r = (p.accrued env.timestamp s.own.pool_config.interest_rate, s) := preview_accrued_position_ok

/-- One touch, then the rest. -/
theorem accrue_in_turn_cons {now : Nat} {later : List Nat} {p : Position} {r : Position × World HelixVault W}
    (done : accrue_in_turn env (now :: later) p s = .ok r) :
    accrue_in_turn env later (p.accrued now s.own.pool_config.interest_rate) s = .ok r := by
  obtain ⟨⟨_,_⟩,accrued,rest⟩ := bind_ok.mp done
  obtain ⟨_,same⟩ := accrue_position_ok.mp accrued
  cases same
  exact rest

/-- The interest that any debt of the past would have borne until the last touch in
    one go, less one unit for every touch but one, is borne. -/
theorem accrue_in_turn_bears {debt : Int} (nonneg : 0 ≤ debt) {last : Nat} : ∀ (times : List Nat) (p : Position)
    (r : Position × World HelixVault W), debt ≤ p.borrowed_amount → (p.last_update :: times).Pairwise (· < ·) →
    times.getLast? = some last → accrue_in_turn env times p s = .ok r →
    p.borrowed_amount + debt * s.own.pool_config.interest_rate * (last - p.last_update : Nat) /
      (SECONDS_PER_YEAR * BPS_DENOMINATOR) ≤ r.1.borrowed_amount + (times.length - 1) := by
  intro times
  induction times with
  | nil =>
    intro p r _ _ final
    cases final
  | cons now later ih =>
    intro p r less increasing final done
    have rest := accrue_in_turn_cons done
    have borne : debt * s.own.pool_config.interest_rate * (now - p.last_update : Nat) /
        (SECONDS_PER_YEAR * BPS_DENOMINATOR) ≤ p.interest now s.own.pool_config.interest_rate :=
      p.interest_of_less nonneg less
    have grown := p.interest_nonneg now s.own.pool_config.interest_rate
    cases later with
    | nil =>
      cases final
      cases rest
      simpa using borne
    | cons next others =>
      have ordered := List.pairwise_cons.mp increasing
      have whole := ih _ r (by simp; omega) ordered.2 (by simpa using final) rest
      -- the floor of the whole interval is at most one above the floors of its parts
      have parts : (last - p.last_update : Nat) = ((now - p.last_update : Nat) : Int) + (last - now : Nat) := by
        have before := ordered.1 now (by simp)
        have after : now < last := (List.pairwise_cons.mp ordered.2).1 last (List.mem_of_getLast? (by simpa using final))
        omega
      rw [parts,mul_add,Int.add_ediv_of_pos Position.year_positive]
      simp only [Position.accrued_debt,Position.accrued_update,List.length_cons,Nat.cast_add,Nat.cast_one] at whole ⊢
      split <;> omega

end Turns

/-- A debt that is touched at each of some times is at the last of them at least what
    it is when only that one touches it, less one unit for every touch but one. -/
theorem accrued_in_turn_within {W : Type} (env : Env) (s s' s'' : World HelixVault W) (p once touched : Position)
    (times : List Nat) (last : Nat) (debt : 0 ≤ p.borrowed_amount)
    (increasing : (p.last_update :: times).Pairwise (· < ·)) (final : times.getLast? = some last)
    (single : accrue_position { env with timestamp := last } p s = .ok (once, s'))
    (turns : accrue_in_turn env times p s = .ok (touched, s'')) :
    once.borrowed_amount ≤ touched.borrowed_amount + (times.length - 1) := by
  obtain ⟨_,same⟩ := accrue_position_ok.mp single
  cases same
  have bears := accrue_in_turn_bears debt times p (touched,s'') le_rfl increasing final turns
  rwa [Position.accrued_debt,Position.interest_eq debt]

/-! ### A debt of a hundred over a year -/

namespace Small

/-- A vault that charges five percent a year. -/
def lender : World HelixVault Purse := ⟨fresh admin oracle borrow_token config,purse⟩

def hundred : Position := ⟨0,100,0⟩

/-- Half a year and a year after the debt was taken. -/
def halves : List Nat := [15768000,31536000]

def genesis : Env := (Origin.signedBy userA).env ⟨0,0⟩ vault

theorem hundred_once : accrue_position { genesis with timestamp := 31536000 } hundred lender =
    .ok (⟨0,105,31536000⟩,lender) :=
  accrue_position_ok.mpr ⟨by decide,rfl⟩

theorem hundred_halves : accrue_in_turn genesis halves hundred lender = .ok (⟨0,104,31536000⟩,lender) := by
  have first : accrue_position { genesis with timestamp := 15768000 } hundred lender = .ok (⟨0,102,15768000⟩,lender) :=
    accrue_position_ok.mpr ⟨by decide,rfl⟩
  have second : accrue_position { genesis with timestamp := 31536000 } ⟨0,102,15768000⟩ lender =
      .ok (⟨0,104,31536000⟩,lender) :=
    accrue_position_ok.mpr ⟨by decide,rfl⟩
  exact bind_ok.mpr ⟨_,first,bind_ok.mpr ⟨_,second,rfl⟩⟩

end Small

/-- Two halves of a year bear at least what the year does, but for one unit. -/
theorem accrued_in_turn_within_halves : (105 : Int) ≤ 104 + ((Small.halves.length : Nat) - 1) :=
  accrued_in_turn_within Small.genesis Small.lender Small.lender Small.lender Small.hundred ⟨0,105,31536000⟩
    ⟨0,104,31536000⟩ Small.halves 31536000 (by decide) (by decide) rfl Small.hundred_once Small.hundred_halves

/-- A debt of 100 at five percent is 105 after a year, but 104 if it is touched after
    half of it: each half bears 2 and drops the rest. -/
theorem touched_bears_less :
    ∃ once touched, (Small.hundred.last_update :: Small.halves).Pairwise (· < ·) ∧
      accrue_position { Small.genesis with timestamp := 31536000 } Small.hundred Small.lender =
        .ok (once,Small.lender) ∧
      accrue_in_turn Small.genesis Small.halves Small.hundred Small.lender = .ok (touched,Small.lender) ∧
      once.borrowed_amount = 105 ∧ touched.borrowed_amount = 104 :=
  ⟨_,_,by decide,Small.hundred_once,Small.hundred_halves,rfl,rfl⟩

end Helix.Vault
