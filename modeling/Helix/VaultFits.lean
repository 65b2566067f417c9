import Helix.VaultSystem

/-!
The numbers of the vault. Whatever the tokens and the oracle answer, every number
that the vault keeps fits the type that it is kept in: its totals and positions
(`Sized.reached`) because a call checks what it stores, its configuration
(`config_reached`) because a call is given it in its type.
-/
namespace Helix.Vault
open Invoke

/-! ### Totals and positions -/

/-- What a vault stores are numbers of 128 bits. -/
structure Sized (v : HelixVault) : Prop where
  deposits : Fits v.total_deposits
  borrows : Fits v.total_borrows
  positions : ∀ user p, v.positions.get user = some p → Fits p.deposited_shares ∧ Fits p.borrowed_amount

namespace Sized
variable {v : HelixVault} {now : Nat} {user : Address} {p : Position} {shares debt : Int}

theorem fresh (admin oracle borrow_token : Address) (config : PoolConfig) : Sized (fresh admin oracle borrow_token config) where
  deposits := fits_zero
  borrows := fits_zero
  positions := by
    intro user p stored
    simp [Vault.fresh] at stored

/-- The position a call charges fits where its interest can be computed. -/
theorem charged (sized : Sized v) (chargeable : v.Chargeable now user) :
    Fits (v.charged now user).deposited_shares ∧ Fits (v.charged now user).borrowed_amount := by
  have opened : Fits (v.opened now user).deposited_shares ∧ Fits (v.opened now user).borrowed_amount := by
    unfold HelixVault.opened
    cases stored : v.positions.get user with
    | none => exact ⟨fits_zero,fits_zero⟩
    | some p => exact sized.positions user p stored
  refine ⟨opened.1,?_⟩
  by_cases owes : 0 < (v.opened now user).borrowed_amount ∧ 0 < now - (v.opened now user).last_update
  · exact (chargeable owes).2.2
  · have none : (v.opened now user).interest now v.pool_config.interest_rate = 0 := if_neg owes
    rw [HelixVault.charged,Position.accrued_debt,none,add_zero]
    exact opened.2

theorem posted (sized : Sized v) (fits : Fits p.deposited_shares ∧ Fits p.borrowed_amount)
    (deposits : Fits (v.total_deposits + shares)) (borrows : Fits (v.total_borrows + debt)) :
    Sized (v.posted user p shares debt) where
  deposits := deposits
  borrows := borrows
  positions := HelixVault.posted_each sized.positions fits

theorem settled (sized : Sized v) (fits : Fits p.deposited_shares ∧ Fits p.borrowed_amount)
    (deposits : Fits (v.total_deposits + shares)) (borrows : Fits (v.total_borrows + debt)) :
    Sized (v.settled user p shares debt) where
  deposits := deposits
  borrows := borrows
  positions := HelixVault.settled_each sized.positions fits

section Steps
variable {W : Type} {clients : Clients W} {env : Env} {s s' : World HelixVault W} {entry : Entry}
  {event : Option VaultEvent}

/-- A successful call has checked every number that it stores. -/
theorem effect (sized : Sized s.own) (effect : Effect clients env s entry event s') : Sized s'.own := by
  have no_debt : Fits (s.own.total_borrows + 0) := by simpa using sized.borrows
  have no_shares : Fits (s.own.total_deposits + 0) := by simpa using sized.deposits
  cases effect with
  | deposit user token amount p w deposits =>
    obtain ⟨_,debt⟩ := sized.charged deposits.chargeable
    have fits := deposits.fits
    rw [deposits.position]
    exact sized.posted ⟨fits,debt⟩ deposits.total no_debt
  | withdraw user token amount p w withdraws =>
    obtain ⟨_,debt⟩ := sized.charged withdraws.chargeable
    have fits := withdraws.fits
    rw [withdraws.position]
    exact sized.settled ⟨fits,debt⟩ withdraws.total no_debt
  | borrow user amount factor p w borrows =>
    obtain ⟨shares,_⟩ := sized.charged borrows.chargeable
    have fits := borrows.fits
    rw [borrows.position]
    exact sized.posted ⟨shares,fits⟩ no_shares borrows.total
  | repay user amount actual p w repays =>
    obtain ⟨shares,_⟩ := sized.charged repays.chargeable
    have fits := repays.fits
    rw [repays.position]
    exact sized.settled ⟨shares,fits⟩ no_shares repays.total
  | liquidate liquidator user repay_amount actual bonus seized p w liquidates =>
    have shares := liquidates.shares_fit
    have debt := liquidates.debt_fits
    rw [liquidates.position]
    exact sized.settled ⟨shares,debt⟩ liquidates.deposits liquidates.borrows
  | configured entry event v configured =>
    obtain ⟨_,_,same,_⟩ := configured.idle
    have positions : v.positions = s.own.positions := congrArg Book.positions same
    refine ⟨?_,?_,?_⟩
    · rw [show v.total_deposits = s.own.total_deposits from congrArg Book.total_deposits same]
      exact sized.deposits
    · rw [show v.total_borrows = s.own.total_borrows from congrArg Book.total_borrows same]
      exact sized.borrows
    · intro user p stored
      have found : v.positions.get user = some p := stored
      rw [positions] at found
      exact sized.positions user p found

/-- So in every state that a run reaches they fit. -/
theorem reached (clients : Clients W) (vault : Address) (clock : Clock) (w : W) (calls : List (Origin × Action W)) :
    ∀ v, (run (serve clients vault) (undeployed clock w) calls).state.own = some v → Sized v := by
  apply run_invariant (serve clients vault) (fun c => ∀ v, c.state.own = some v → Sized v) calls
  · rintro v ⟨⟩
  · intro r _ makes held v own
    cases turn_of_makes makes with
    | called entry event u u' _ _ found left effect =>
      rw [left] at own
      cases own
      exact Sized.effect (s := ⟨u,r.before.state.rest⟩) (held u found) effect
    | initialised admin oracle borrow_token config _ _ _ left _ _ =>
      rw [left] at own
      cases own
      exact Sized.fresh admin oracle borrow_token config
    | moved move _ _ same _ => exact held v (by rw [← same]; exact own)
    | failed e _ same => exact held v (by rw [← same]; exact own)

end Steps
end Sized

/-! ### The configuration -/

structure SizedConfig (config : PoolConfig) : Prop where
  max_ltv : config.max_ltv < 2 ^ 32
  liq_threshold : config.liq_threshold < 2 ^ 32
  liq_bonus : config.liq_bonus < 2 ^ 32
  interest_rate : config.interest_rate < 2 ^ 32
  min_position : Fits config.min_position

/-- The configuration of a call is of the types it has. -/
def Entry.Typed : Entry → Prop
  | .initialise _ _ _ config => SizedConfig config
  | .update_config new_config => SizedConfig new_config
  | _ => True

/-- The numbers of a position fit their types. -/
structure SizedPosition (p : Position) : Prop where
  deposited_shares : Fits p.deposited_shares
  borrowed_amount : Fits p.borrowed_amount
  last_update : p.last_update < 2 ^ 64

section Runs
variable {W : Type} {clients : Clients W} {vault : Address}

theorem SizedConfig.effect {env : Env} {s s' : World HelixVault W} {entry : Entry} {event : Option VaultEvent}
    (sized : SizedConfig s.own.pool_config) (effect : Effect clients env s entry event s') (typed : entry.Typed) :
    SizedConfig s'.own.pool_config := by
  cases effect with
  | configured entry event v configured =>
    cases configured with
    | update_config new_config authorised valid => exact typed
    | _ => exact sized
  | _ => exact sized

/-- A call has the types of its entry point. -/
def Typed (call : Origin × Action W) : Prop :=
  match call.2 with
  | .vault entry => entry.Typed
  | .outside _ => True

/-- In every state that a run of typed calls reaches, the configuration fits. -/
theorem config_reached (clock : Clock) (w : W) (calls : List (Origin × Action W)) (typed : ∀ call ∈ calls, Typed call) :
    ∀ v, (run (serve clients vault) (undeployed clock w) calls).state.own = some v → SizedConfig v.pool_config := by
  apply run_invariant _ (fun c : Chain (State W) => ∀ v, c.state.own = some v → SizedConfig v.pool_config) calls
  · rintro v ⟨⟩
  · intro r member makes sized v own
    have typed := typed _ (trace_input member)
    unfold Typed at typed
    cases turn_of_makes makes with
    | called entry event u u' input out found left effect =>
      rw [input] at typed
      rw [left] at own
      cases own
      exact (sized u found).effect (s := ⟨u,r.before.state.rest⟩) effect typed
    | initialised admin oracle borrow_token config input out missing left =>
      rw [input] at typed
      rw [left] at own
      cases own
      exact typed
    | moved move input out same rest => exact sized v (by rw [← same]; exact own)
    | failed e out same => exact sized v (by rw [← same]; exact own)

/-- A position that a run leaves fits its types, while its clock fits too. -/
theorem position_reached (clock : Clock) (w : W) (calls : List (Origin × Action W))
    (early : (run (serve clients vault) (undeployed clock w) calls).clock.timestamp < 2 ^ 64) {v : HelixVault}
    {user : Address} {p : Position} (own : (run (serve clients vault) (undeployed clock w) calls).state.own = some v)
    (stored : v.positions.get user = some p) : SizedPosition p := by
  obtain ⟨shares,debt⟩ := (Sized.reached clients vault clock w calls v own).positions user p stored
  have sound := serve_wellFormed clients vault clock w calls
  rw [book_of_own own] at sound
  have current := (sound.positions user p stored).current
  exact ⟨shares,debt,Nat.lt_of_le_of_lt current early⟩

end Runs

end Helix.Vault
