import Mathlib.Algebra.Order.BigOperators.Group.List
import Helix.VaultSystem

/-!
What users put into a vault and what they take out. A position counts shares of
whatever collateral, so a user never withdraws more than it deposited over all
assets together, and no more of an asset than that if it never deposited any
other (`withdrawals_covered`); but with two assets a user can withdraw one that
it never deposited (`asset_taken_from_others`).
-/
namespace Helix.Vault

/-- What a call pays in for a user by a deposit, counting some assets. -/
def Entry.deposited (user : Address) (counts : Address → Bool) : Entry → Int
  | .deposit depositor token amount => if depositor = user ∧ counts token = true then amount else 0
  | _ => 0

/-- What a call pays out to a user by a withdrawal, counting some assets. -/
def Entry.withdrawn (user : Address) (counts : Address → Bool) : Entry → Int
  | .withdraw depositor token amount => if depositor = user ∧ counts token = true then amount else 0
  | _ => 0

/-- The call is a deposit of a user in another asset. -/
def Entry.depositsOther (user token : Address) : Entry → Bool
  | .deposit depositor asset _ => decide (depositor = user ∧ asset ≠ token)
  | _ => false

section Custody
variable {W : Type}

/-- What the deposits that succeeded paid in for a user. -/
def paidIn (user : Address) (counts : Address → Bool) (past : List (Served W)) : Int :=
  ((past.filterMap served).map (Entry.deposited user counts)).sum
/-- What the withdrawals that succeeded paid out to a user. -/
def paidOut (user : Address) (counts : Address → Bool) (past : List (Served W)) : Int :=
  ((past.filterMap served).map (Entry.withdrawn user counts)).sum

/-- No user is paid more of an asset than it put in. -/
def PerAssetCustody (clients : Clients W) (vault : Address) (clock : Clock) (w : W) : Prop :=
  ∀ (calls : List (Origin × Action W)) (user token : Address),
    let past := trace (serve clients vault) (undeployed clock w) calls
    paidOut user (only token) past ≤ paidIn user (only token) past

variable {clients : Clients W} {vault : Address} {env : Env} {s s' : World HelixVault W} {entry : Entry}
  {event : Option VaultEvent}

/-- A posting of shares is a deposit, a withdrawal, or a seizure, which lowers
    them. -/
theorem posted_shares (user : Address) (effect : Effect clients env s entry event s') {p : Posting}
    (posted : event.bind VaultEvent.posting = some p) :
    (if user = p.user then p.shares else 0) ≤ entry.deposited user any - entry.withdrawn user any := by
  cases effect with
  | deposit depositor token amount q w deposits =>
    cases posted
    simp [Entry.deposited,Entry.withdrawn,any,eq_comm]
  | withdraw depositor token amount q w withdraws =>
    cases posted
    by_cases same : user = depositor
    · simp [Entry.deposited,Entry.withdrawn,any,same]
    · simp [Entry.deposited,Entry.withdrawn,same,Ne.symm same]
  | borrow depositor amount factor q w borrows => cases posted; simp [Entry.deposited,Entry.withdrawn]
  | repay depositor amount actual q w repays => cases posted; simp [Entry.deposited,Entry.withdrawn]
  | liquidate liquidator depositor repay_amount actual bonus seized q w liquidates =>
    cases posted
    obtain ⟨_,_,_,_,_,_,_,_,seizes⟩ := liquidates.steps
    have positive := seizes.positive
    simp only [Entry.deposited,Entry.withdrawn]
    split <;> omega
  | configured entry event w configured =>
    obtain ⟨quiet,_⟩ := configured.idle
    rw [quiet] at posted
    cases posted

/-- Only what is paid in raises the shares of a user, and what is paid out lowers
    them. -/
theorem shares_moved {r : Served W} (user : Address) (makes : Makes (serve clients vault) r)
    (sound : (book r.before).WellFormed r.before.clock.timestamp) :
    (book r.after).shares user ≤ (book r.before).shares user + paidIn user any [r] - paidOut user any [r] := by
  unfold paidIn paidOut
  cases turn_of_makes makes with
  | called entry event v v' input out found left effect =>
    have entered : served r = some entry := by simp [served,input,out]
    have published : posting r = event.bind VaultEvent.posting := by simp [posting,published,out]
    simp only [List.filterMap_cons,entered,List.filterMap_nil,List.map_cons,List.map_nil,List.sum_singleton]
    cases kept_of_makes makes sound with
    | posted p posted touched moved covers =>
      have bound := posted_shares user effect (published.symm.trans posted)
      rw [moved,Book.post_shares]
      omega
    | idle quiet untouched same =>
      rw [entered] at untouched
      rw [same]
      cases entry <;> simp [Entry.account,Entry.deposited,Entry.withdrawn] at untouched ⊢
  | initialised admin oracle token config input out missing left rest valid =>
    simp [served,input,out,Entry.deposited,Entry.withdrawn,book,missing,left,HelixVault.book,fresh,Book.empty]
  | moved move input out own rest => simp [served,input,book,own]
  | failed e out same => simp [served,out,book,same]

theorem paidIn_append (user : Address) (counts : Address → Bool) (past later : List (Served W)) :
    paidIn user counts (past ++ later) = paidIn user counts past + paidIn user counts later := by
  simp [paidIn]

theorem paidOut_append (user : Address) (counts : Address → Bool) (past later : List (Served W)) :
    paidOut user counts (past ++ later) = paidOut user counts past + paidOut user counts later := by
  simp [paidOut]

/-- A user's shares never exceed what it paid in and was not paid out. -/
theorem shares_covered (clients : Clients W) (vault : Address) (clock : Clock) (w : W)
    (calls : List (Origin × Action W)) (user : Address) :
    (book (run (serve clients vault) (undeployed clock w) calls)).shares user +
        paidOut user any (trace (serve clients vault) (undeployed clock w) calls) ≤
      paidIn user any (trace (serve clients vault) (undeployed clock w) calls) := by
  apply serve_history clients vault clock w calls
    (fun past c => (book c).shares user + paidOut user any past ≤ paidIn user any past) le_rfl
  intro past r _ makes sound covered
  have moved := shares_moved user makes sound
  rw [paidIn_append,paidOut_append]
  omega

/-- Amounts that a vault pays out are positive. -/
theorem withdrawn_positive {r : Served W} (makes : Makes (serve clients vault) r) {depositor token : Address}
    {amount : Int} (entered : served r = some (.withdraw depositor token amount)) : 0 < amount := by
  cases turn_of_makes makes with
  | called entry event v v' input out found left effect =>
    simp only [served,input,out,Option.some.injEq] at entered
    subst entered
    generalize (⟨v',r.after.state.rest⟩ : World HelixVault W) = after at effect
    cases effect with
    | withdraw _ _ _ q w withdraws => exact withdraws.asked.positive
    | configured _ _ _ configured => cases configured
  | initialised admin oracle token config input out missing left rest valid => simp [served,input,out] at entered
  | moved move input out own rest => simp [served,input] at entered
  | failed e out same => simp [served,out] at entered

/-- In any run, whatever assets are supported when, no user is paid more by its
    withdrawals than it put in by its deposits, all assets together; and a user
    who deposits only one asset is paid no more of it than it put in. -/
theorem withdrawals_covered (clients : Clients W) (vault : Address) (clock : Clock) (w : W)
    (calls : List (Origin × Action W)) (user : Address) :
    let past := trace (serve clients vault) (undeployed clock w) calls
    paidOut user any past ≤ paidIn user any past ∧
      ∀ token, (∀ entry ∈ past.filterMap served, entry.depositsOther user token = false) →
        paidOut user (only token) past ≤ paidIn user (only token) past := by
  have covered := shares_covered clients vault clock w calls user
  have nonneg := (serve_wellFormed clients vault clock w calls).shares_nonneg user
  have total : paidOut user any (trace (serve clients vault) (undeployed clock w) calls) ≤
      paidIn user any (trace (serve clients vault) (undeployed clock w) calls) := by omega
  intro past
  refine ⟨total,?_⟩
  intro token only_token
  have part : paidOut user (only token) past ≤ paidOut user any past := by
    apply List.sum_le_sum
    intro entry member
    obtain ⟨r,inside,entered⟩ := List.mem_filterMap.mp member
    cases entry with
    | withdraw depositor asset amount =>
      have positive := withdrawn_positive (trace_makes inside) entered
      simp only [Entry.withdrawn,any,only]
      by_cases same : depositor = user
      · simp only [same,true_and]
        split
        · exact le_rfl
        · exact positive.le
      · simp [same]
    | _ => exact le_rfl
  have whole : paidIn user any past = paidIn user (only token) past := by
    apply congrArg List.sum
    apply List.map_congr_left
    intro entry member
    have kept := only_token entry member
    cases entry with
    | deposit depositor asset amount =>
      simp only [Entry.depositsOther,decide_eq_false_iff_not,not_and,not_not] at kept
      simp only [Entry.deposited,any,only]
      by_cases same : depositor = user
      · simp [same,kept same]
      · simp [same]
    | _ => rfl
  exact (part.trans total).trans whole.le

end Custody

namespace Small

/-- A user deposits ten of one asset and withdraws ten of another, which a second
    user deposited. -/
def swap : List (Origin × Action Purse) :=
  opening ++ [calls admin (.add_supported_asset tokenB),calls userA (.deposit userA tokenA 10),
    calls userB (.deposit userB tokenB 10),calls userA (.withdraw userA tokenB 10)]

end Small

/-- With two assets a user is paid an asset that it never put in. -/
theorem asset_taken_from_others : ¬ PerAssetCustody Small.clients Small.vault ⟨0,0⟩ Small.purse := by
  intro custody
  have paid := custody Small.swap Small.userA Small.tokenB
  revert paid
  decide +kernel

/-- The user of `Small.swap` is paid what it put in, in another asset; the user
    who deposits and withdraws `tokenA` only is paid no more than it put in. -/
theorem withdrawals_covered_swap :
    let past := trace Small.step Small.start Small.swap
    paidOut Small.userA any past = 10 ∧ paidOut Small.userA any past ≤ paidIn Small.userA any past ∧
      paidOut Small.userA (only Small.tokenA) past ≤ paidIn Small.userA (only Small.tokenA) past :=
  have covered := withdrawals_covered Small.clients Small.vault ⟨0,0⟩ Small.purse Small.swap Small.userA
  ⟨by decide +kernel,covered.1,covered.2 Small.tokenA (by decide +kernel)⟩

end Helix.Vault
