import Mathlib.Algebra.Order.BigOperators.Group.List
import Helix.VaultSystem

/-!
The two totals of a vault. The total deposits are the sum of the deposited
shares in every reachable state (`deposits_accounted`). The total borrows move by
what is borrowed and repaid but not by the interest that calls charge, so they
are the sum of the debts exactly as long as no call has charged any
(`borrows_accounted_iff`, `borrows_lose_interest`).
-/
namespace Helix.Vault

section Totals
variable {W : Type} {clients : Clients W} {vault : Address} {clock : Clock} {w : W}

/-- In every state that calls reach, whatever else happens outside the vault, the
    total deposits are the sum of the deposited shares, and every stored position
    holds something, owes nothing negative and was updated by now. -/
theorem deposits_accounted (calls : List (Origin × Action W)) (v : HelixVault)
    (reached : (run (serve clients vault) (undeployed clock w) calls).state.own = some v) :
    v.total_deposits = v.positions.total (fun p => p.deposited_shares) ∧
      ∀ user p, v.positions.get user = some p → 0 ≤ p.deposited_shares ∧ 0 ≤ p.borrowed_amount ∧
        (0 < p.deposited_shares ∨ 0 < p.borrowed_amount) ∧
        p.last_update ≤ (run (serve clients vault) (undeployed clock w) calls).clock.timestamp := by
  have sound := serve_wellFormed clients vault clock w calls
  rw [book_of_own reached] at sound
  refine ⟨sound.deposits,?_⟩
  intro user p found
  have position := sound.positions user p found
  exact ⟨position.shares_nonneg,position.debt_nonneg,position.nonempty,position.current⟩

/-! ### What the total borrows leave out -/

/-- The debts beyond what the total borrows tell. -/
def gap (c : Chain (State W)) : Int := (book c).debts - (book c).total_borrows

/-- The interest that a transition charges. -/
def charge (r : Served W) : Int :=
  match posting r with
  | some p => interest r p.user
  | none => 0

/-- A call that succeeds charges no interest: the debt it finds on the account it
    touches, times the rate and the seconds since its last update, is below a
    year's full rate. -/
def ChargesNothing (r : Served W) : Prop :=
  ∀ entry user v p, served r = some entry → entry.account = some user → r.before.state.own = some v →
    v.positions.get user = some p → 0 < p.borrowed_amount →
    p.borrowed_amount * v.pool_config.interest_rate * (r.clock.timestamp - p.last_update : Nat) <
      SECONDS_PER_YEAR * BPS_DENOMINATOR

theorem charge_nonneg (r : Served W) : 0 ≤ charge r := by
  unfold charge
  split
  · exact interest_nonneg r _
  · exact le_rfl

/-- A transition widens the gap by the interest it charges. -/
theorem gap_kept {r : Served W} (kept : Kept r) : gap r.after = gap r.before + charge r := by
  unfold gap charge
  cases kept with
  | posted p posted touched moved covers =>
    rw [moved,Book.post_debts,posted]
    simp only [Book.post]
    omega
  | idle quiet untouched same =>
    rw [same,quiet]
    simp

/-- The interest on a position is nothing exactly when there is no position or
    it owes too little for too short. -/
theorem interest_eq_zero {r : Served W} {user : Address} : interest r user = 0 ↔
    ∀ v p, r.before.state.own = some v → v.positions.get user = some p → 0 < p.borrowed_amount →
      p.borrowed_amount * v.pool_config.interest_rate * (r.clock.timestamp - p.last_update : Nat) <
        SECONDS_PER_YEAR * BPS_DENOMINATOR := by
  unfold interest
  cases own : r.before.state.own with
  | none => simp
  | some v =>
    simp only [HelixVault.interestOn,HelixVault.opened]
    cases found : v.positions.get user with
    | none =>
      rw [Option.getD_none,Position.interest_debtless _ _ _ (by simp)]
      refine iff_of_true rfl ?_
      rintro _ p ⟨⟩ same
      rw [found] at same
      cases same
    | some p =>
      rw [Option.getD_some,Position.interest_eq_zero]
      constructor
      · rintro small _ _ ⟨⟩ same
        rw [found] at same
        cases same
        exact small
      · intro small
        exact small v p rfl found

theorem charge_eq_zero {r : Served W} (kept : Kept r) : charge r = 0 ↔ ChargesNothing r := by
  unfold charge ChargesNothing
  cases kept with
  | posted p posted touched moved covers =>
    obtain ⟨entry,entered,account⟩ := Option.bind_eq_some_iff.mp touched
    rw [posted]
    simp only [interest_eq_zero]
    constructor
    · intro small entry' user v q entered' account' own
      rw [entered] at entered'
      cases entered'
      rw [account] at account'
      cases account'
      exact small v q own
    · intro small v q own
      exact small entry p.user v q entered account own
  | idle quiet untouched same =>
    rw [quiet]
    apply iff_of_true rfl
    intro entry user v p entered account
    rw [entered] at untouched
    simp [account] at untouched

/-- After any run the gap is the interest that was charged. -/
theorem gap_run (clients : Clients W) (vault : Address) (clock : Clock) (w : W) (calls : List (Origin × Action W)) :
    gap (run (serve clients vault) (undeployed clock w) calls) =
      ((trace (serve clients vault) (undeployed clock w) calls).map charge).sum := by
  rw [run_telescope (serve clients vault) gap charge calls
    (fun r member => gap_kept (serve_kept clients vault clock w calls r member))]
  show (Book.empty.debts - 0 : Int) + _ = _
  rw [show Book.empty.debts = 0 from rfl,sub_zero,zero_add]

/-- The total borrows of a vault are the sum of the debts. -/
def BorrowsAccounted (v : HelixVault) : Prop := v.total_borrows = v.positions.total (fun p => p.borrowed_amount)

instance (v : HelixVault) : Decidable (BorrowsAccounted v) := inferInstanceAs (Decidable (_ = _))

/-- In a state that calls reach, the total borrows are the sum of the debts
    exactly when no call on the way charged interest. -/
theorem borrows_accounted_iff (calls : List (Origin × Action W)) (v : HelixVault)
    (reached : (run (serve clients vault) (undeployed clock w) calls).state.own = some v) :
    BorrowsAccounted v ↔ ∀ r ∈ trace (serve clients vault) (undeployed clock w) calls, ChargesNothing r := by
  have kept := serve_kept clients vault clock w calls
  have total := gap_run clients vault clock w calls
  have gap_eq : gap (run (serve clients vault) (undeployed clock w) calls) =
      v.positions.total (fun p => p.borrowed_amount) - v.total_borrows := by
    rw [gap,book_of_own reached]
    rfl
  have nonneg : ∀ x ∈ (trace (serve clients vault) (undeployed clock w) calls).map charge, 0 ≤ x := by
    intro x member
    obtain ⟨r,_,rfl⟩ := List.mem_map.mp member
    exact charge_nonneg r
  unfold BorrowsAccounted
  constructor
  · intro accounted r member
    rw [← charge_eq_zero (kept r member)]
    exact List.all_zero_of_le_zero_le_of_sum_eq_zero nonneg (by omega) (List.mem_map_of_mem member)
  · intro idle
    have zero : ((trace (serve clients vault) (undeployed clock w) calls).map charge).sum = 0 := by
      apply List.sum_eq_zero
      intro x member
      obtain ⟨r,inside,rfl⟩ := List.mem_map.mp member
      exact (charge_eq_zero (kept r inside)).mpr (idle r inside)
    omega

end Totals

namespace Small

/-- The vault at the end of a run. -/
def vaultAfter (calls : List (Origin × Action Purse)) : Option HelixVault := (run step start calls).state.own

end Small

theorem deposits_accounted_loan : ∃ v, Small.vaultAfter Small.loan = some v ∧
    v.total_deposits = v.positions.total (fun p => p.deposited_shares) ∧
      ∀ user p, v.positions.get user = some p → 0 ≤ p.deposited_shares ∧ 0 ≤ p.borrowed_amount ∧
        (0 < p.deposited_shares ∨ 0 < p.borrowed_amount) ∧
        p.last_update ≤ (run Small.step Small.start Small.loan).clock.timestamp := by
  have ended : (Small.vaultAfter Small.loan).isSome := by decide +kernel
  obtain ⟨v,reached⟩ := Option.isSome_iff_exists.mp ended
  exact ⟨v,reached,deposits_accounted Small.loan v reached⟩

/-- The loan with its interest is repaid in full, and the total borrows are
    25000 below the sum of the debts, which is nothing. -/
theorem borrows_lose_interest :
    ¬ (∀ calls v, Small.vaultAfter calls = some v → BorrowsAccounted v) ∧
      (Small.vaultAfter Small.loan).map (fun v => (v.total_borrows,v.book.debts)) = some (-25000, 0) := by
  have ended : (Small.vaultAfter Small.loan).map (fun v => (v.total_borrows,v.book.debts)) = some (-25000, 0) := by
    decide +kernel
  refine ⟨?_,ended⟩
  intro always
  obtain ⟨v,reached,totals⟩ := Option.map_eq_some_iff.mp ended
  have accounted : v.total_borrows = v.book.debts := always Small.loan v reached
  rw [Prod.mk.injEq] at totals
  omega

/-- Until the repayment the total borrows are the sum of the debts. -/
theorem borrows_accounted_iff_loan : ∃ v, Small.vaultAfter (Small.loan.take 4) = some v ∧ BorrowsAccounted v ∧
    ∀ r ∈ trace Small.step Small.start (Small.loan.take 4), ChargesNothing r := by
  have ended : (Small.vaultAfter (Small.loan.take 4)).map (fun v => decide (BorrowsAccounted v)) = some true := by
    decide +kernel
  obtain ⟨v,reached,accounted⟩ := Option.map_eq_some_iff.mp ended
  have holds : BorrowsAccounted v := of_decide_eq_true accounted
  exact ⟨v,reached,holds,(borrows_accounted_iff (Small.loan.take 4) v reached).mp holds⟩

end Helix.Vault
