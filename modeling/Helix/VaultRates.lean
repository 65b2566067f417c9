import Helix.VaultDebt

/-!
What a change of the interest rate does to the debts of a vault. Interest is booked
when a call touches a position, at the rate of the configuration that is then in
force and for all the time since the last touch: `update_config` leaves every
stored position as it is, and from then on that time is charged at the new rate
(`config_reprices`).
-/
namespace Helix.Vault
open Invoke

section Rates
variable {W : Type} (clients : Clients W) (env : Env) (user : Address)

/-- The debt that a snapshot of a user's position shows. -/
def owed (s : State W) : Option Int :=
  (reply (get_position_snapshot clients.apart env user) s).map (fun x => x.accrued_position.borrowed_amount)

variable {clients env user}

/-- A snapshot charges all the time since the last touch at the rate in force. -/
theorem owed_eq {s : State W} {v : HelixVault} {p : Position} {debt : Int} (own : s.own = some v)
    (stored : v.positions.get user = some p) (shown : owed clients env user s = some debt) :
    debt = p.borrowed_amount + p.interest env.timestamp v.pool_config.interest_rate := by
  obtain ⟨snapshot,answered,rfl⟩ := Option.map_eq_some_iff.mp shown
  obtain ⟨v',t,found,ran⟩ := reply_some.mp answered
  rw [own] at found
  cases found
  obtain ⟨token,p',factor,w,_,found',_,_,_,same⟩ := get_position_snapshot_ok.mp ran
  have same_position : p' = p := Option.some.inj (found'.symm.trans stored)
  rw [Prod.mk.injEq] at same
  rw [same.1,same_position]
  rfl

variable {vault : Address}

/-- A stored position waits for the next call that touches it. -/
theorem position_waits {c : Chain (State W)} (sound : (book c).WellFormed c.clock.timestamp)
    (later : List (Origin × Action W))
    (untouched : ∀ q ∈ trace (serve clients vault) c later, (served q).bind Entry.account ≠ some user) :
    (book (run (serve clients vault) c later)).positions.get user = (book c).positions.get user := by
  have kept := run_invariant (serve clients vault) (s := c)
    (fun t => (book t).WellFormed t.clock.timestamp ∧ (book t).positions.get user = (book c).positions.get user) later
    ⟨sound,rfl⟩
  refine (kept ?_).2
  rintro q member makes ⟨held,waits⟩
  exact ⟨wellFormed_kept makes held,(position_kept (kept_of_makes makes held) (untouched q member)).trans waits⟩

/-- A configuration that is accepted replaces the old one, and nothing else. -/
theorem config_replaced {r : Served W} {new_config : PoolConfig} {event : Option VaultEvent}
    (makes : Makes (serve clients vault) r) (input : r.input.2 = .vault (.update_config new_config))
    (out : r.output = .ok event) :
    ∃ v, r.before.state.own = some v ∧ r.after.state.own = some { v with pool_config := new_config } := by
  obtain ⟨v,s',found,after,effect⟩ := called_of_makes makes input out nofun
  refine ⟨v,found,?_⟩
  rw [after]
  cases effect with
  | configured _ _ _ configured =>
    cases configured with
    | update_config _ authorised valid => rfl

end Rates

/-- In every reached state and for every user with a stored position: a successful
    `update_config` leaves all stored positions as they are. The debt that a snapshot
    shows at that time is the stored one with interest for all the time since the
    last touch, at the old rate before and at the new rate after the call: it stays
    the same exactly if both rates come to the same interest. And until a call
    touches the position, it is charged for all of that time at the rate then in
    force. -/
theorem config_reprices {W : Type} (clients : Clients W) (vault : Address) (clock : Clock) (w : W)
    (calls : List (Origin × Action W)) (origin : Origin) (new_config : PoolConfig) (event : Option VaultEvent)
    (user : Address) (p : Position) :
    let now := run (serve clients vault) (undeployed clock w) calls
    let change : Served W := transition (serve clients vault) now (origin,.vault (.update_config new_config))
    change.output = .ok event → (book now).positions.get user = some p →
      (book change.after).positions = (book now).positions ∧
      (∃ v, now.state.own = some v ∧ ∀ env env' before after, env.timestamp = change.clock.timestamp →
        env'.timestamp = change.clock.timestamp → owed clients env user now.state = some before →
        owed clients env' user change.after.state = some after →
          before = p.borrowed_amount + p.interest change.clock.timestamp v.pool_config.interest_rate ∧
          after = p.borrowed_amount + p.interest change.clock.timestamp new_config.interest_rate ∧
          (after = before ↔ p.interest change.clock.timestamp new_config.interest_rate =
            p.interest change.clock.timestamp v.pool_config.interest_rate)) ∧
      ∀ later, (∀ q ∈ trace (serve clients vault) change.after later, (served q).bind Entry.account ≠ some user) →
        ∀ env v debt, (run (serve clients vault) change.after later).state.own = some v →
          owed clients env user (run (serve clients vault) change.after later).state = some debt →
          debt = p.borrowed_amount + p.interest env.timestamp v.pool_config.interest_rate := by
  intro now change out stored
  have makes : Makes (serve clients vault) change := transition_makes _ _
  obtain ⟨v,found,left⟩ := config_replaced makes rfl out
  have own : now.state.own = some v := found
  have positions : (book change.after).positions = (book now).positions := by
    rw [book_of_own left,book_of_own own]
    rfl
  have held : v.positions.get user = some p := by
    rw [book_of_own own] at stored
    exact stored
  refine ⟨positions,⟨v,own,?_⟩,?_⟩
  · intro env env' before after time time' shown shown'
    have old := owed_eq own held shown
    have new := owed_eq left held shown'
    rw [time] at old
    rw [time'] at new
    refine ⟨old,new,?_⟩
    rw [old,new]
    exact add_right_inj _
  · intro later untouched env v' debt ended shown
    have sound := wellFormed_kept makes (serve_wellFormed clients vault clock w calls)
    have waits := position_waits sound later untouched
    rw [positions,stored,book_of_own ended] at waits
    exact owed_eq ended waits shown

namespace Small

/-- The loan before it is repaid. -/
def unpaid : List (Origin × Action Purse) := loan.take 4

/-- Twice the interest. -/
def doubled : PoolConfig := { config with interest_rate := 1000 }

/-- The admin doubles the rate a year after the loan. -/
def doubling : Served Purse := transition step (run step start unpaid) (callsNextYear admin (.update_config doubled))

end Small

/-- The rate is doubled a year after a loan of 500000: that year costs 50000. -/
theorem config_reprices_loan :
    (book Small.doubling.after).positions = (book (run Small.step Small.start Small.unpaid)).positions ∧
      ∀ debt, owed Small.clients (Small.doubling.env Small.vault) Small.userA Small.doubling.after.state = some debt →
        debt = 500000 + (⟨1000000,500000,20⟩ : Position).interest 31536025 1000 := by
  obtain ⟨positions,⟨v,_,exact_change⟩,_⟩ := config_reprices Small.clients Small.vault ⟨0,0⟩ Small.purse Small.unpaid
    { Origin.signedBy Small.admin with seconds := 31536000 } Small.doubled (some (.config_update Small.doubled))
    Small.userA ⟨1000000,500000,20⟩ (by decide +kernel) (by decide +kernel)
  refine ⟨positions,?_⟩
  intro debt shown
  have before : owed Small.clients (Small.doubling.env Small.vault) Small.userA
      (run Small.step Small.start Small.unpaid).state = some 525000 := by decide +kernel
  exact (exact_change _ _ _ _ rfl rfl before shown).2.1

/-- The year of the loan has cost 25000 when the admin doubles the rate, and 50000
    as soon as that is done. -/
theorem debt_repriced :
    Small.doubling.output = .ok (some (.config_update Small.doubled)) ∧
      owed Small.clients (Small.doubling.env Small.vault) Small.userA Small.doubling.before.state = some 525000 ∧
      owed Small.clients (Small.doubling.env Small.vault) Small.userA Small.doubling.after.state = some 550000 := by
  decide +kernel

end Helix.Vault
