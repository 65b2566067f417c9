import Helix.Vault

/-!
What the calls of a vault do when the contracts it calls answer without coming
back to it: for every entry point the exact conditions of success, what it asks
of the tokens and the oracle, and what it leaves (`Effect`, `effect_of_call`).
-/
namespace Helix.Vault
open Invoke

/-! ### Interest -/

namespace Position
variable (p : Position) (now rate : Nat)

/-- The interest on the debt since the last update. -/
def interest : Int :=
  if 0 < p.borrowed_amount ∧ 0 < now - p.last_update then
    (p.borrowed_amount * rate * (now - p.last_update : Nat)).tdiv (SECONDS_PER_YEAR * BPS_DENOMINATOR)
  else 0

/-- The position with its interest booked. -/
def accrued : Position := ⟨p.deposited_shares,p.borrowed_amount + p.interest now rate,now⟩

/-- The interest can be computed without overflow. -/
def Accruable : Prop :=
  0 < p.borrowed_amount ∧ 0 < now - p.last_update →
    Fits (p.borrowed_amount * rate) ∧ Fits (p.borrowed_amount * rate * (now - p.last_update : Nat)) ∧
      Fits (p.borrowed_amount + p.interest now rate)

@[simp] theorem accrued_shares : (p.accrued now rate).deposited_shares = p.deposited_shares := rfl
@[simp] theorem accrued_debt : (p.accrued now rate).borrowed_amount = p.borrowed_amount + p.interest now rate := rfl
@[simp] theorem accrued_update : (p.accrued now rate).last_update = now := rfl

theorem interest_nonneg : 0 ≤ p.interest now rate := by
  unfold interest
  split
  · rename_i owes
    have scaled : 0 ≤ p.borrowed_amount * rate := Int.mul_nonneg owes.1.le (Int.natCast_nonneg _)
    exact Int.tdiv_nonneg (Int.mul_nonneg scaled (Int.natCast_nonneg _)) (by decide)
  · exact le_rfl

theorem interest_debtless (debtless : ¬ 0 < p.borrowed_amount) : p.interest now rate = 0 :=
  if_neg (fun owes => debtless owes.1)

/-- Nothing is booked exactly when the product stays below a year's full rate. -/
theorem interest_eq_zero : p.interest now rate = 0 ↔
    (0 < p.borrowed_amount → p.borrowed_amount * rate * (now - p.last_update : Nat) <
      SECONDS_PER_YEAR * BPS_DENOMINATOR) := by
  have year : SECONDS_PER_YEAR * BPS_DENOMINATOR = 315360000000 := rfl
  unfold interest
  rw [year]
  by_cases owes : 0 < p.borrowed_amount
  · by_cases elapsed : 0 < now - p.last_update
    · have scaled : 0 ≤ p.borrowed_amount * rate * (now - p.last_update : Nat) :=
        Int.mul_nonneg (Int.mul_nonneg owes.le (Int.natCast_nonneg _)) (Int.natCast_nonneg _)
      rw [if_pos ⟨owes,elapsed⟩,Int.tdiv_eq_ediv_of_nonneg scaled]
      generalize p.borrowed_amount * rate * (now - p.last_update : Nat) = product at scaled
      omega
    · have still : now - p.last_update = 0 := by omega
      rw [if_neg (fun both => elapsed both.2),still]
      simp
  · rw [if_neg (fun both => owes both.1)]
    simp [owes]

end Position

/-! ### What is asked of other contracts -/

section Asks
variable {W : Type} (clients : Clients W) (env : Env)

/-- The oracle quotes a price that is fresh and in the vault's decimals. -/
structure Quotes (oracle asset : Address) (price : Int) (w w' : W) : Prop where
  answers : ∃ mid timestamp, clients.decimals (env.calling oracle) asset w = some (ORACLE_DECIMALS, mid) ∧
    clients.lastprice (env.calling oracle) asset mid = some ((price, timestamp), w') ∧
    env.timestamp - timestamp ≤ ORACLE_STALE_WINDOW
  positive : 0 < price

/-- What shares of a collateral token are worth. -/
inductive Values (oracle token : Address) : Int → Int → W → W → Prop
  | nothing (w : W) : Values oracle token 0 0 w w
  | shares (shares assets price : Int) (w mid w' : W) : shares ≠ 0 →
      clients.assets_for_shares (env.calling token) shares w = some (assets, mid) →
      Quotes clients env oracle token price mid w' → Fits (assets * price) →
      Values oracle token shares ((assets * price).tdiv PRICE_SCALAR) w w'

/-- The health factor of a position. -/
inductive Health (oracle token : Address) (liq_threshold : Nat) (p : Position) : Int → W → W → Prop
  | debtless (w : W) : p.borrowed_amount = 0 → Health oracle token liq_threshold p i128Max w w
  | ratio (value : Int) (w w' : W) : p.borrowed_amount ≠ 0 →
      Values clients env oracle token p.deposited_shares value w w' → 0 < p.borrowed_amount →
      Fits (value * liq_threshold) →
      Health oracle token liq_threshold p ((value * liq_threshold).tdiv p.borrowed_amount) w w'

/-- A position that still owes is worth more than it owes. -/
def Healthy (oracle token : Address) (liq_threshold : Nat) (p : Position) (w w' : W) : Prop :=
  if 0 < p.borrowed_amount then
    ∃ factor, Health clients env oracle token liq_threshold p factor w w' ∧ BPS_DENOMINATOR < factor
  else w' = w

/-- A token is drawn from its owner, and the vault's balance grows by as much. -/
structure Received (token owner : Address) (amount : Int) (w w' : W) : Prop where
  steps : ∃ before after first second,
    clients.balance (env.calling token) env.current_contract_address w = some (before, first) ∧
    clients.transfer_from (env.calling token) env.current_contract_address owner env.current_contract_address amount
      first = some ((), second) ∧
    clients.balance (env.calling token) env.current_contract_address second = some (after, w') ∧
    Fits (after - before) ∧ after - before = amount

/-- A token is sent to a recipient, and the vault's balance falls by as much. -/
structure Sent (token recipient : Address) (amount : Int) (w w' : W) : Prop where
  steps : ∃ before after first second,
    clients.balance (env.calling token) env.current_contract_address w = some (before, first) ∧
    clients.transfer (env.calling token) env.current_contract_address recipient amount first = some ((), second) ∧
    clients.balance (env.calling token) env.current_contract_address second = some (after, w') ∧
    Fits (before - after) ∧ before - after = amount

/-- A token is lent out of a balance that covers it. -/
structure Lent (token recipient : Address) (amount : Int) (w w' : W) : Prop where
  sent : Sent clients env token recipient amount w w'
  covered : ∃ before first, clients.balance (env.calling token) env.current_contract_address w = some (before, first) ∧
    amount ≤ before

/-- The most a position may owe. -/
def Allows (oracle token : Address) (max_ltv : Nat) (p : Position) (allowed : Int) (w w' : W) : Prop :=
  ∃ value, Values clients env oracle token p.deposited_shares value w w' ∧ Fits (value * max_ltv) ∧
    allowed = (value * max_ltv).tdiv BPS_DENOMINATOR

end Asks

/-! ### What is moved by asking -/

/-- What is outside stays the same in some respect. -/
abbrev Same {W β : Type} (look : W → β) (w w' : W) : Prop := look w' = look w

instance {W β : Type} (look : W → β) : Std.Refl (Same look) := ⟨fun _ => rfl⟩
instance {W β : Type} (look : W → β) : IsTrans W (Same look) := ⟨fun _ _ _ first second => second.trans first⟩

/-- Asking the oracle, and a token for the worth of its shares, moves what is outside
    only as `R` allows. -/
structure Clients.Asking {W : Type} (clients : Clients W) (callee : Env) (R : W → W → Prop) : Prop where
  assets_for_shares : ∀ shares w answer w', clients.assets_for_shares callee shares w = some (answer, w') → R w w'
  lastprice : ∀ env asset w answer w', clients.lastprice env asset w = some (answer, w') → R w w'
  decimals : ∀ env asset w answer w', clients.decimals env asset w = some (answer, w') → R w w'

section Moves
variable {W : Type} {clients : Clients W} {env : Env} {w w' : W} {R : W → W → Prop} [IsTrans W R]
  {oracle token party : Address} {amount : Int} {threshold : Nat} {p : Position}

theorem Quotes.within (asking : clients.Asking (env.calling token) R) {price : Int}
    (quotes : Quotes clients env oracle token price w w') : R w w' := by
  obtain ⟨mid,timestamp,decimals,lastprice,_⟩ := quotes.answers
  exact IsTrans.trans _ _ _ (asking.decimals _ _ _ _ _ decimals) (asking.lastprice _ _ _ _ _ lastprice)

theorem Received.within
    (reads : ∀ id w answer w', clients.balance (env.calling token) id w = some (answer, w') → R w w')
    (moves : ∀ spender owner recipient amount w answer w',
      clients.transfer_from (env.calling token) spender owner recipient amount w = some (answer, w') → R w w')
    (received : Received clients env token party amount w w') : R w w' := by
  obtain ⟨before,after,first,second,read,moved,reread,_⟩ := received.steps
  have drawn := IsTrans.trans _ _ _ (reads _ _ _ _ read) (moves _ _ _ _ _ _ _ moved)
  exact IsTrans.trans _ _ _ drawn (reads _ _ _ _ reread)

theorem Sent.within
    (reads : ∀ id w answer w', clients.balance (env.calling token) id w = some (answer, w') → R w w')
    (moves : ∀ owner recipient amount w answer w',
      clients.transfer (env.calling token) owner recipient amount w = some (answer, w') → R w w')
    (sent : Sent clients env token party amount w w') : R w w' := by
  obtain ⟨before,after,first,second,read,moved,reread,_⟩ := sent.steps
  have gone := IsTrans.trans _ _ _ (reads _ _ _ _ read) (moves _ _ _ _ _ _ moved)
  exact IsTrans.trans _ _ _ gone (reads _ _ _ _ reread)

variable [Std.Refl R]

theorem Values.within (asking : clients.Asking (env.calling token) R) {shares value : Int}
    (values : Values clients env oracle token shares value w w') : R w w' := by
  cases values with
  | nothing => exact Std.Refl.refl w
  | shares _ assets price _ mid _ some converted quotes fits =>
    exact IsTrans.trans _ _ _ (asking.assets_for_shares _ _ _ _ converted) (quotes.within asking)

theorem Health.within (asking : clients.Asking (env.calling token) R) {factor : Int}
    (health : Health clients env oracle token threshold p factor w w') : R w w' := by
  cases health with
  | debtless => exact Std.Refl.refl w
  | ratio value _ _ some values positive fits => exact values.within asking

theorem Healthy.within (asking : clients.Asking (env.calling token) R)
    (healthy : Healthy clients env oracle token threshold p w w') : R w w' := by
  unfold Healthy at healthy
  split at healthy
  · obtain ⟨factor,health,_⟩ := healthy
    exact health.within asking
  · rw [healthy]
    exact Std.Refl.refl w

end Moves

/-! ### What a call leaves -/

namespace HelixVault
variable (v : HelixVault) (now : Nat) (user : Address)

/-- The stored position of a user, or an empty one opened now. -/
def opened : Position := (v.positions.get user).getD ⟨0,0,now⟩

/-- The position of a user with its interest. -/
def charged : Position := (v.opened now user).accrued now v.pool_config.interest_rate

/-- The interest a call books on the position of a user. -/
def interestOn : Int := (v.opened now user).interest now v.pool_config.interest_rate

/-- The interest of the position can be computed. -/
def Chargeable : Prop := (v.opened now user).Accruable now v.pool_config.interest_rate

/-- Shares above the least position, or none. -/
def Sizable (shares : Int) : Prop := shares = 0 ∨ v.pool_config.min_position ≤ shares

/-- The vault after a position is written and both totals move. -/
def posted (p : Position) (shares debt : Int) : HelixVault :=
  { v with
    positions := v.positions.set user p
    total_deposits := v.total_deposits + shares
    total_borrows := v.total_borrows + debt
    locked := false }

/-- The same, where an empty position is not stored. -/
def settled (p : Position) (shares debt : Int) : HelixVault :=
  { v with
    positions := if p.deposited_shares = 0 ∧ p.borrowed_amount = 0 then v.positions.remove user
      else v.positions.set user p
    total_deposits := v.total_deposits + shares
    total_borrows := v.total_borrows + debt
    locked := false }

variable {v user} {p q : Position} {shares debt : Int} {other : Address} {P : Address → Position → Prop}

/-- A position that owes something is stored. -/
theorem settled_get (owes : p.borrowed_amount ≠ 0) : (v.settled user p shares debt).positions.get user = some p := by
  have some : ¬ (p.deposited_shares = 0 ∧ p.borrowed_amount = 0) := fun both => owes both.2
  rw [settled]
  simp only [if_neg some]
  exact Store.get_set_same _ _ _

/-- A position that is stored after it was settled is the settled one, or one of
    another user that was there before. -/
theorem settled_stored (stored : (v.settled user p shares debt).positions.get other = some q) :
    other = user ∧ q = p ∨ other ≠ user ∧ v.positions.get other = some q := by
  by_cases own : other = user
  · subst own
    refine .inl ⟨rfl,?_⟩
    simp only [settled] at stored
    split at stored
    · rw [Store.get_remove_same] at stored
      cases stored
    · rw [Store.get_set_same] at stored
      exact (Option.some.inj stored).symm
  · refine .inr ⟨own,?_⟩
    simp only [settled] at stored
    split at stored
    · rwa [Store.get_remove_other _ own] at stored
    · rwa [Store.get_set_other _ _ own] at stored

/-- What holds of every stored position and of the settled one holds of all that are
    left. -/
theorem settled_each (earlier : ∀ user q, v.positions.get user = some q → P user q) (own : P user p) :
    ∀ other q, (v.settled user p shares debt).positions.get other = some q → P other q := by
  intro other q stored
  rcases settled_stored stored with ⟨rfl,rfl⟩ | ⟨_,before⟩
  · exact own
  · exact earlier other q before

theorem posted_each (earlier : ∀ user q, v.positions.get user = some q → P user q) (own : P user p) :
    ∀ other q, (v.posted user p shares debt).positions.get other = some q → P other q := by
  intro other q stored
  have found : (v.positions.set user p).get other = some q := stored
  rw [Store.get_set] at found
  split at found
  · rename_i same
    cases found
    exact same ▸ own
  · exact earlier other q found

end HelixVault

/-- A positive amount that its user asked for, of a vault that is not busy. -/
structure Asked (env : Env) (v : HelixVault) (caller : Address) (amount : Int) : Prop where
  positive : 0 < amount
  authorised : env.Authorised caller
  unlocked : v.locked = false

def ValidConfig (config : PoolConfig) : Prop :=
  0 < config.min_position ∧ 0 < config.max_ltv ∧ config.max_ltv ≤ 10000 ∧ 0 < config.liq_threshold ∧
    config.liq_threshold ≤ 10000 ∧ config.liq_bonus ≤ 10000

/-- What the calls of admin and pausers change. -/
inductive Configured (env : Env) (v : HelixVault) : Entry → Option VaultEvent → HelixVault → Prop
  | pause : env.Authorised v.admin → v.roles v.admin PAUSER_ROLE = true →
      Configured env v .pause (some (.pause v.admin)) { v with paused := true }
  | unpause : env.Authorised v.admin → v.roles v.admin PAUSER_ROLE = true →
      Configured env v .unpause (some (.unpause v.admin)) { v with paused := false }
  | pause_by (caller : Address) : env.Authorised caller → v.roles caller PAUSER_ROLE = true →
      Configured env v (.pause_by caller) (some (.pause caller)) { v with paused := true }
  | unpause_by (caller : Address) : env.Authorised caller → v.roles caller PAUSER_ROLE = true →
      Configured env v (.unpause_by caller) (some (.unpause caller)) { v with paused := false }
  | update_config (new_config : PoolConfig) : env.Authorised v.admin → ValidConfig new_config →
      Configured env v (.update_config new_config) (some (.config_update new_config))
        { v with pool_config := new_config }
  | add_supported_asset (asset : Address) : env.Authorised v.admin →
      Configured env v (.add_supported_asset asset) none
        { v with supported_assets := if asset ∈ v.supported_assets then v.supported_assets
          else v.supported_assets ++ [asset] }
  | remove_supported_asset (asset : Address) : env.Authorised v.admin →
      Configured env v (.remove_supported_asset asset) none
        { v with supported_assets := v.supported_assets.filter (fun supported => supported ≠ asset) }
  | grant_role (addr : Address) (role : Nat) : env.Authorised v.admin →
      Configured env v (.grant_role addr role) none
        { v with roles := fun a r => if a = addr ∧ r = role then true else v.roles a r }
  | revoke_role (addr : Address) (role : Nat) : env.Authorised v.admin →
      Configured env v (.revoke_role addr role) none
        { v with roles := fun a r => if a = addr ∧ r = role then false else v.roles a r }

section Effects
variable {W : Type} (clients : Clients W) (env : Env)

/-- A deposit that succeeds; `p` is the position it leaves and `w` what is then
    outside. -/
structure Deposits (s : World HelixVault W) (user token : Address) (amount : Int) (p : Position) (w : W) : Prop where
  asked : Asked env s.own user amount
  unpaused : s.own.paused = false
  supported : token ∈ s.own.supported_assets
  chargeable : s.own.Chargeable env.timestamp user
  received : Received clients env token user amount s.rest w
  fits : Fits ((s.own.charged env.timestamp user).deposited_shares + amount)
  position : p = { s.own.charged env.timestamp user with
    deposited_shares := (s.own.charged env.timestamp user).deposited_shares + amount }
  sizable : s.own.Sizable p.deposited_shares
  total : Fits (s.own.total_deposits + amount)

/-- A withdrawal that succeeds. -/
structure Withdraws (s : World HelixVault W) (user token : Address) (amount : Int) (p : Position) (w : W) :
    Prop where
  asked : Asked env s.own user amount
  unpaused : s.own.paused = false
  supported : token ∈ s.own.supported_assets
  stored : (s.own.positions.get user).isSome
  chargeable : s.own.Chargeable env.timestamp user
  enough : amount ≤ (s.own.charged env.timestamp user).deposited_shares
  fits : Fits ((s.own.charged env.timestamp user).deposited_shares - amount)
  position : p = { s.own.charged env.timestamp user with
    deposited_shares := (s.own.charged env.timestamp user).deposited_shares - amount }
  sizable : s.own.Sizable p.deposited_shares
  sent : ∃ mid, Healthy clients env s.own.oracle_address token s.own.pool_config.liq_threshold p s.rest mid ∧
    Sent clients env token user amount mid w
  total : Fits (s.own.total_deposits - amount)

/-- A loan that succeeds. -/
structure Borrows (s : World HelixVault W) (user : Address) (amount factor : Int) (p : Position) (w : W) : Prop where
  asked : Asked env s.own user amount
  unpaused : s.own.paused = false
  chargeable : s.own.Chargeable env.timestamp user
  fits : Fits ((s.own.charged env.timestamp user).borrowed_amount + amount)
  position : p = { s.own.charged env.timestamp user with
    borrowed_amount := (s.own.charged env.timestamp user).borrowed_amount + amount }
  covered : ∃ token allowed first second, s.own.supported_assets.head? = some token ∧
    Allows clients env s.own.oracle_address token s.own.pool_config.max_ltv p allowed s.rest first ∧
    p.borrowed_amount ≤ allowed ∧ Lent clients env s.own.borrow_token user amount first second ∧
    Health clients env s.own.oracle_address token s.own.pool_config.liq_threshold p factor second w
  total : Fits (s.own.total_borrows + amount)

/-- A repayment that succeeds; what is paid is capped by the debt. -/
structure Repays (s : World HelixVault W) (user : Address) (amount actual : Int) (p : Position) (w : W) : Prop where
  asked : Asked env s.own user amount
  stored : (s.own.positions.get user).isSome
  chargeable : s.own.Chargeable env.timestamp user
  capped : actual = capped amount (s.own.charged env.timestamp user).borrowed_amount
  received : if 0 < actual then Received clients env s.own.borrow_token user actual s.rest w else w = s.rest
  fits : Fits ((s.own.charged env.timestamp user).borrowed_amount - actual)
  position : p = { s.own.charged env.timestamp user with
    borrowed_amount := (s.own.charged env.timestamp user).borrowed_amount - actual }
  total : Fits (s.own.total_borrows - actual)

/-- The collateral a liquidation takes for a repayment. -/
structure Seizes (v : HelixVault) (token liquidator : Address) (actual bonus seized : Int) (w w' : W) : Prop where
  bonus_fits : Fits (actual * v.pool_config.liq_bonus)
  bonus_eq : bonus = (actual * v.pool_config.liq_bonus).tdiv BPS_DENOMINATOR
  value_fits : Fits (actual + bonus)
  taken : ∃ price first second, Quotes clients env v.oracle_address token price w first ∧
    Fits ((actual + bonus) * PRICE_SCALAR) ∧
    clients.shares_for_assets (env.calling token) (((actual + bonus) * PRICE_SCALAR).tdiv price) first =
      some (seized, second) ∧ Sent clients env token liquidator seized second w'
  positive : 0 < seized

/-- A liquidation that succeeds; half of the debt at most is repaid. -/
structure Liquidates (s : World HelixVault W) (liquidator user : Address) (repay_amount actual bonus seized : Int)
    (p : Position) (w : W) : Prop where
  asked : Asked env s.own liquidator repay_amount
  role : s.own.roles liquidator LIQUIDATOR_ROLE = true
  unpaused : s.own.paused = false
  stored : (s.own.positions.get user).isSome
  chargeable : s.own.Chargeable env.timestamp user
  capped : actual = capped repay_amount ((s.own.charged env.timestamp user).borrowed_amount.tdiv 2)
  positive : 0 < actual
  steps : ∃ token factor first second, s.own.supported_assets.head? = some token ∧
    Health clients env s.own.oracle_address token s.own.pool_config.liq_threshold (s.own.charged env.timestamp user) factor
      s.rest first ∧ factor ≤ BPS_DENOMINATOR ∧
    Received clients env s.own.borrow_token liquidator actual first second ∧
    Seizes clients env s.own token liquidator actual bonus seized second w
  enough : seized ≤ (s.own.charged env.timestamp user).deposited_shares
  shares_fit : Fits ((s.own.charged env.timestamp user).deposited_shares - seized)
  debt_fits : Fits ((s.own.charged env.timestamp user).borrowed_amount - actual)
  position : p = { s.own.charged env.timestamp user with
    deposited_shares := (s.own.charged env.timestamp user).deposited_shares - seized,
    borrowed_amount := (s.own.charged env.timestamp user).borrowed_amount - actual }
  deposits : Fits (s.own.total_deposits - seized)
  borrows : Fits (s.own.total_borrows - actual)

/-- What a successful call does to the vault and to the contracts it calls. -/
inductive Effect (s : World HelixVault W) : Entry → Option VaultEvent → World HelixVault W → Prop
  | deposit (user token : Address) (amount : Int) (p : Position) (w : W) : Deposits clients env s user token amount p w →
      Effect s (.deposit user token amount) (some (.deposit user token amount p)) ⟨s.own.posted user p amount 0,w⟩
  | withdraw (user token : Address) (amount : Int) (p : Position) (w : W) :
      Withdraws clients env s user token amount p w →
      Effect s (.withdraw user token amount) (some (.withdraw user token amount p))
        ⟨s.own.settled user p (-amount) 0,w⟩
  | borrow (user : Address) (amount factor : Int) (p : Position) (w : W) :
      Borrows clients env s user amount factor p w →
      Effect s (.borrow user amount) (some (.borrow user amount factor)) ⟨s.own.posted user p 0 amount,w⟩
  | repay (user : Address) (amount actual : Int) (p : Position) (w : W) : Repays clients env s user amount actual p w →
      Effect s (.repay user amount) (some (.repay user actual p.borrowed_amount))
        ⟨s.own.settled user p 0 (-actual),w⟩
  | liquidate (liquidator user : Address) (repay_amount actual bonus seized : Int) (p : Position) (w : W) :
      Liquidates clients env s liquidator user repay_amount actual bonus seized p w →
      Effect s (.liquidate liquidator user repay_amount) (some (.liquidation liquidator user actual seized bonus))
        ⟨s.own.settled user p (-seized) (-actual),w⟩
  | configured (entry : Entry) (event : Option VaultEvent) (v : HelixVault) : Configured env s.own entry event v →
      Effect s entry event ⟨v,s.rest⟩

end Effects

section Rules
variable {W : Type} {clients : Clients W} {env : Env} {s : World HelixVault W}

/-! ### The rules of the parts -/

theorem checked_mul_div_floor_ok {left right denominator : Int} {r : Int × World HelixVault W} :
    (checked_mul_div_floor left right denominator : Contract W Int) s = .ok r ↔
      0 < denominator ∧ Fits (left * right) ∧ r = ((left * right).tdiv denominator, s) := by
  simp [checked_mul_div_floor,checked_mul,and_assoc]

theorem enforce_min_position_ok {shares : Int} {r : Unit × World HelixVault W} :
    (enforce_min_position shares : Contract W Unit) s = .ok r ↔ s.own.Sizable shares ∧ r = ((), s) := by
  unfold enforce_min_position HelixVault.Sizable
  by_cases none : shares = 0
  · simp [none]
  · simp [none]

theorem with_lock_ok {α : Type} {body : Contract W α} {r : α × World HelixVault W} :
    with_lock body s = .ok r ↔ s.own.locked = false ∧
      ∃ a t, body { s with own := { s.own with locked := true } } = .ok (a, t) ∧
        r = (a, { t with own := { t.own with locked := false } }) := by
  simp [with_lock]

theorem preview_accrued_position_ok {p : Position} {r : Position × World HelixVault W} :
    preview_accrued_position env p s = .ok r ↔ p.Accruable env.timestamp s.own.pool_config.interest_rate ∧
      r = (p.accrued env.timestamp s.own.pool_config.interest_rate, s) := by
  unfold preview_accrued_position Position.Accruable Position.accrued Position.interest
  have year : Fits (SECONDS_PER_YEAR * BPS_DENOMINATOR) ∧ 0 < SECONDS_PER_YEAR * BPS_DENOMINATOR := by decide
  by_cases owes : 0 < p.borrowed_amount ∧ 0 < env.timestamp - p.last_update
  · simp [owes,checked_mul,checked_add,checked_mul_div_floor_ok,year,and_assoc]
  · simp only [owes,if_false,pure_ok,false_imp_iff,true_and,add_zero]

theorem oracle_price_ok {asset : Address} {r : Int × World HelixVault W} :
    oracle_price clients.apart env asset s = .ok r ↔
      ∃ w, Quotes clients env s.own.oracle_address asset r.1 s.rest w ∧ r.2 = { s with rest := w } := by
  obtain ⟨price,t⟩ := r
  simp only [oracle_price,Clients.apart,reach_apart,bind_ok,load_ok,callOut_ok,require_ok,pure_ok,Prod.exists,
    Prod.mk.injEq,and_assoc,exists_and_left,exists_eq_left]
  constructor
  · rintro ⟨_,_,⟨mid,decimals,rfl⟩,rfl,last,timestamp,_,⟨w,quote,rfl⟩,positive,fresh,rfl,rfl⟩
    exact ⟨w,⟨⟨mid,timestamp,decimals,quote,fresh⟩,positive⟩,rfl⟩
  · rintro ⟨w,⟨⟨mid,timestamp,decimals,quote,fresh⟩,positive⟩,rfl⟩
    exact ⟨_,_,⟨mid,decimals,rfl⟩,rfl,price,timestamp,_,⟨w,quote,rfl⟩,positive,fresh,rfl,rfl⟩

theorem collateral_value_ok {token : Address} {shares : Int} {r : Int × World HelixVault W} :
    collateral_value_for_position clients.apart env token shares s = .ok r ↔
      ∃ w, Values clients env s.own.oracle_address token shares r.1 s.rest w ∧ r.2 = { s with rest := w } := by
  obtain ⟨value,t⟩ := r
  unfold collateral_value_for_position
  by_cases none : shares = 0
  · subst none
    simp only [if_pos,pure_ok,Prod.mk.injEq]
    constructor
    · rintro ⟨rfl,rfl⟩
      exact ⟨_,.nothing _,rfl⟩
    · rintro ⟨w,values,rfl⟩
      cases values with
      | nothing => exact ⟨rfl,rfl⟩
      | shares _ _ _ _ _ _ some => exact absurd rfl some
  · simp only [if_neg none,Clients.apart,reach_apart,bind_ok,callOut_ok,Prod.exists]
    constructor
    · rintro ⟨assets,_,⟨mid,converted,rfl⟩,price,_,quoted,ran⟩
      obtain ⟨w,quotes,same⟩ := oracle_price_ok.mp quoted
      obtain ⟨_,fits,last⟩ := checked_mul_div_floor_ok.mp ran
      simp only [Prod.mk.injEq] at same last
      obtain ⟨rfl,rfl⟩ := last
      exact ⟨w,.shares shares assets price _ mid w none converted quotes fits,same⟩
    · rintro ⟨w,values,rfl⟩
      cases values with
      | nothing => exact absurd rfl none
      | shares _ assets price _ mid _ some converted quotes fits =>
        exact ⟨assets,_,⟨mid,converted,rfl⟩,price,_,oracle_price_ok.mpr ⟨w,quotes,rfl⟩,
          checked_mul_div_floor_ok.mpr ⟨by decide,fits,rfl⟩⟩

theorem health_factor_ok {token : Address} {p : Position} {r : Int × World HelixVault W} :
    health_factor_for_position clients.apart env token p s = .ok r ↔
      ∃ w, Health clients env s.own.oracle_address token s.own.pool_config.liq_threshold p r.1 s.rest w ∧
        r.2 = { s with rest := w } := by
  obtain ⟨factor,t⟩ := r
  unfold health_factor_for_position
  by_cases none : p.borrowed_amount = 0
  · simp only [if_pos none,pure_ok,Prod.mk.injEq]
    constructor
    · rintro ⟨rfl,rfl⟩
      exact ⟨_,.debtless _ none,rfl⟩
    · rintro ⟨w,health,rfl⟩
      cases health with
      | debtless => exact ⟨rfl,rfl⟩
      | ratio _ _ _ some => exact absurd none some
  · simp only [if_neg none,bind_ok,load_ok,Prod.exists,exists_eq_left]
    constructor
    · rintro ⟨value,_,valued,ran⟩
      obtain ⟨w,values,same⟩ := collateral_value_ok.mp valued
      obtain ⟨positive,fits,last⟩ := checked_mul_div_floor_ok.mp ran
      simp only [Prod.mk.injEq] at same last
      obtain ⟨rfl,rfl⟩ := last
      exact ⟨w,.ratio value _ w none values positive fits,same⟩
    · rintro ⟨w,health,rfl⟩
      cases health with
      | debtless _ zero => exact absurd zero none
      | ratio value _ _ some values positive fits =>
        exact ⟨value,_,collateral_value_ok.mpr ⟨w,values,rfl⟩,checked_mul_div_floor_ok.mpr ⟨positive,fits,rfl⟩⟩

theorem receive_ok {token owner : Address} {amount : Int} {r : Unit × World HelixVault W} :
    receive clients.apart env token owner amount s = .ok r ↔
      ∃ w, Received clients env token owner amount s.rest w ∧ r.2 = { s with rest := w } := by
  obtain ⟨_,t⟩ := r
  simp only [receive,require_exact_incoming_delta,checked_sub,Clients.apart,reach_apart,bind_ok,callOut_ok,need_ok,
    require_ok,Checked.sub_some,Prod.exists,Prod.mk.injEq,and_assoc,exists_and_left,exists_eq_left]
  constructor
  · rintro ⟨before,_,⟨first,read,rfl⟩,_,_,⟨second,moved,rfl⟩,after,_,⟨w,reread,rfl⟩,fits,delta,_,rfl⟩
    exact ⟨w,⟨before,after,first,second,read,moved,reread,fits,delta⟩,rfl⟩
  · rintro ⟨w,⟨before,after,first,second,read,moved,reread,fits,delta⟩,rfl⟩
    exact ⟨before,_,⟨first,read,rfl⟩,(),_,⟨second,moved,rfl⟩,after,_,⟨w,reread,rfl⟩,fits,delta,trivial,rfl⟩

theorem send_ok {token recipient : Address} {amount : Int} {r : Unit × World HelixVault W} :
    send clients.apart env token recipient amount s = .ok r ↔
      ∃ w, Sent clients env token recipient amount s.rest w ∧ r.2 = { s with rest := w } := by
  obtain ⟨_,t⟩ := r
  simp only [send,require_exact_outgoing_delta,checked_sub,Clients.apart,reach_apart,bind_ok,callOut_ok,need_ok,
    require_ok,Checked.sub_some,Prod.exists,Prod.mk.injEq,and_assoc,exists_and_left,exists_eq_left]
  constructor
  · rintro ⟨before,_,⟨first,read,rfl⟩,_,_,⟨second,moved,rfl⟩,after,_,⟨w,reread,rfl⟩,fits,delta,_,rfl⟩
    exact ⟨w,⟨before,after,first,second,read,moved,reread,fits,delta⟩,rfl⟩
  · rintro ⟨w,⟨before,after,first,second,read,moved,reread,fits,delta⟩,rfl⟩
    exact ⟨before,_,⟨first,read,rfl⟩,(),_,⟨second,moved,rfl⟩,after,_,⟨w,reread,rfl⟩,fits,delta,trivial,rfl⟩

/-- A deposit accrues only on a debt, which is where there is interest at all. -/
theorem deposit_position_ok {p : Position} {r : Position × World HelixVault W} :
    (if 0 < p.borrowed_amount then accrue_position env p else pure { p with last_update := env.timestamp } :
      Contract W Position) s = .ok r ↔ p.Accruable env.timestamp s.own.pool_config.interest_rate ∧
        r = (p.accrued env.timestamp s.own.pool_config.interest_rate, s) := by
  by_cases owes : 0 < p.borrowed_amount
  · rw [if_pos owes]
    exact preview_accrued_position_ok
  · have idle : p.Accruable env.timestamp s.own.pool_config.interest_rate := fun both => absurd both.1 owes
    rw [if_neg owes,pure_ok,Position.accrued,p.interest_debtless _ _ owes,add_zero]
    simp [idle]

theorem store_or_remove_ok {user : Address} {p : Position} {r : Unit × World HelixVault W} :
    (store_or_remove_position user p : Contract W Unit) s = .ok r ↔ r = ((), { s with own := { s.own with
      positions := if p.deposited_shares = 0 ∧ p.borrowed_amount = 0 then s.own.positions.remove user
        else s.own.positions.set user p } }) := by
  unfold store_or_remove_position write_position
  by_cases empty : p.deposited_shares = 0 ∧ p.borrowed_amount = 0 <;> simp [empty]

theorem require_healthy_ok {token : Address} {p : Position} {r : Unit × World HelixVault W} :
    require_healthy clients.apart env token p s = .ok r ↔
      ∃ w, Healthy clients env s.own.oracle_address token s.own.pool_config.liq_threshold p s.rest w ∧
        r.2 = { s with rest := w } := by
  obtain ⟨_,t⟩ := r
  unfold require_healthy Healthy
  by_cases owes : 0 < p.borrowed_amount
  · simp only [if_pos owes,bind_ok,health_factor_ok,require_ok,Prod.exists,Prod.mk.injEq]
    constructor
    · rintro ⟨factor,_,⟨w,health,rfl⟩,enough,_,rfl⟩
      exact ⟨w,⟨factor,health,enough⟩,rfl⟩
    · rintro ⟨w,⟨factor,health,enough⟩,rfl⟩
      exact ⟨factor,_,⟨w,health,rfl⟩,enough,trivial,rfl⟩
  · simp [owes]

theorem receive_some_ok {token owner : Address} {amount : Int} {r : Unit × World HelixVault W} :
    receive_some clients.apart env token owner amount s = .ok r ↔
      ∃ w, (if 0 < amount then Received clients env token owner amount s.rest w else w = s.rest) ∧
        r.2 = { s with rest := w } := by
  obtain ⟨_,t⟩ := r
  unfold receive_some
  by_cases some : 0 < amount
  · simp only [if_pos some,receive_ok]
  · simp [some]

theorem lend_ok {token recipient : Address} {amount : Int} {r : Unit × World HelixVault W} :
    lend clients.apart env token recipient amount s = .ok r ↔
      ∃ w, Lent clients env token recipient amount s.rest w ∧ r.2 = { s with rest := w } := by
  obtain ⟨_,t⟩ := r
  simp only [lend,require_exact_outgoing_delta,checked_sub,Clients.apart,reach_apart,bind_ok,callOut_ok,need_ok,
    require_ok,Checked.sub_some,Prod.exists,Prod.mk.injEq,and_assoc,exists_and_left,exists_eq_left]
  constructor
  · rintro ⟨before,_,⟨first,read,rfl⟩,covered,_,_,⟨second,moved,rfl⟩,after,_,⟨w,reread,rfl⟩,fits,delta,_,rfl⟩
    exact ⟨w,⟨⟨before,after,first,second,read,moved,reread,fits,delta⟩,before,first,read,covered⟩,rfl⟩
  · rintro ⟨w,⟨⟨before,after,first,second,read,moved,reread,fits,delta⟩,known,_,same,covered⟩,rfl⟩
    rw [read] at same
    cases same
    exact ⟨before,_,⟨first,read,rfl⟩,covered,(),_,⟨second,moved,rfl⟩,after,_,⟨w,reread,rfl⟩,fits,delta,trivial,rfl⟩

theorem max_borrow_ok {token : Address} {p : Position} {r : Int × World HelixVault W} :
    max_borrow_for_position clients.apart env token p s = .ok r ↔
      ∃ w, Allows clients env s.own.oracle_address token s.own.pool_config.max_ltv p r.1 s.rest w ∧
        r.2 = { s with rest := w } := by
  obtain ⟨allowed,t⟩ := r
  simp only [max_borrow_for_position,bind_ok,load_ok,collateral_value_ok,checked_mul_div_floor_ok,Prod.exists,
    exists_eq_left,Prod.mk.injEq]
  constructor
  · rintro ⟨value,_,⟨w,values,rfl⟩,_,fits,rfl,rfl⟩
    exact ⟨w,⟨value,values,fits,rfl⟩,rfl⟩
  · rintro ⟨w,⟨value,values,fits,rfl⟩,rfl⟩
    exact ⟨value,_,⟨w,values,rfl⟩,by decide,fits,rfl,rfl⟩

theorem shares_for_assets_ok {callee : Env} {assets : Int} {r : Int × World HelixVault W} :
    (reach (clients.apart.shares_for_assets callee assets) : Contract W Int) s = .ok r ↔
      ∃ w, clients.shares_for_assets callee assets s.rest = some (r.1, w) ∧ r.2 = { s with rest := w } := by
  rw [Clients.apart,reach_apart,callOut_ok]

/-- The stored position with its interest is the position a call charges. -/
theorem charged_of_stored {user : Address} {stored : Position} (found : s.own.positions.get user = some stored)
    (chargeable : stored.Accruable env.timestamp s.own.pool_config.interest_rate) :
    stored.accrued env.timestamp s.own.pool_config.interest_rate = s.own.charged env.timestamp user ∧
      (s.own.positions.get user).isSome ∧ s.own.Chargeable env.timestamp user := by
  refine ⟨?_,?_,?_⟩
  · rw [HelixVault.charged,HelixVault.opened,found,Option.getD_some]
  · rw [found]
    rfl
  · rwa [HelixVault.Chargeable,HelixVault.opened,found,Option.getD_some]

end Rules

/-! ### The steps of the entry points -/

/-- The same vault with the lock taken. -/
def taken {W : Type} (s : World HelixVault W) : World HelixVault W := { s with own := { s.own with locked := true } }

section Steps
variable {W : Type} {clients : Clients (World HelixVault W)} {env : Env} {s : World HelixVault W} {user token : Address}
  {amount : Int} {r : Option VaultEvent × World HelixVault W}

/-- A deposit that succeeds, step by step. -/
theorem deposit_ran (done : deposit clients env user token amount s = .ok r) :
    Asked env s.own user amount ∧ s.own.paused = false ∧ token ∈ s.own.supported_assets ∧
      s.own.Chargeable env.timestamp user ∧ ∃ t p, receive clients env token user amount (taken s) = .ok ((), t) ∧
        Fits ((s.own.charged env.timestamp user).deposited_shares + amount) ∧
        p = { s.own.charged env.timestamp user with
          deposited_shares := (s.own.charged env.timestamp user).deposited_shares + amount } ∧
        t.own.Sizable p.deposited_shares ∧ Fits (t.own.total_deposits + amount) ∧
        r = (some (.deposit user token amount p), ⟨t.own.posted user p amount 0,t.rest⟩) := by
  simp only [deposit,validate_positive_amount,require_not_paused,require_supported_asset,position_or_new,read_position,
    checked_add,write_position,bind_ok,require_ok,auth_ok,load_ok,need_ok,save_ok,pure_ok,with_lock_ok,
    deposit_position_ok,enforce_min_position_ok,Checked.add_some,Prod.exists,Prod.mk.injEq,and_assoc,
    exists_and_left,exists_eq_left] at done
  obtain ⟨positive,authorised,unpaused,supported,unlocked,chargeable,_,_,
    ⟨_,t,received,fits,sizable,total,rfl,rfl⟩,rfl⟩ := done
  refine ⟨⟨positive,authorised,unlocked⟩,unpaused,supported,chargeable,t,_,received,fits,rfl,sizable,total,?_⟩
  simp only [HelixVault.posted,HelixVault.charged,HelixVault.opened,add_zero]

/-- A withdrawal that succeeds, step by step. -/
theorem withdraw_ran (done : withdraw clients env user token amount s = .ok r) :
    Asked env s.own user amount ∧ s.own.paused = false ∧ token ∈ s.own.supported_assets ∧
      (s.own.positions.get user).isSome ∧ s.own.Chargeable env.timestamp user ∧
      amount ≤ (s.own.charged env.timestamp user).deposited_shares ∧
      Fits ((s.own.charged env.timestamp user).deposited_shares - amount) ∧
      ∃ t u p, p = { s.own.charged env.timestamp user with
          deposited_shares := (s.own.charged env.timestamp user).deposited_shares - amount } ∧
        s.own.Sizable p.deposited_shares ∧ require_healthy clients env token p (taken s) = .ok ((), t) ∧
        send clients env token user amount t = .ok ((), u) ∧ Fits (u.own.total_deposits - amount) ∧
        r = (some (.withdraw user token amount p), ⟨u.own.settled user p (-amount) 0,u.rest⟩) := by
  simp only [withdraw,validate_positive_amount,require_not_paused,require_supported_asset,read_position_required,
    read_position,accrue_position,checked_sub,bind_ok,require_ok,auth_ok,load_ok,need_ok,save_ok,pure_ok,with_lock_ok,
    preview_accrued_position_ok,enforce_min_position_ok,store_or_remove_ok,Checked.sub_some,Prod.exists,Prod.mk.injEq,
    and_assoc,exists_and_left,exists_eq_left] at done
  obtain ⟨positive,authorised,unpaused,supported,unlocked,_,_,⟨stored,found,accruable,enough,fits,sizable,_,t,healthy,
    _,u,sent,total,rfl,rfl⟩,rfl⟩ := done
  obtain ⟨charged,some,chargeable⟩ := charged_of_stored found accruable
  simp only [charged] at enough fits sizable healthy ⊢
  refine ⟨⟨positive,authorised,unlocked⟩,unpaused,supported,some,chargeable,enough,fits,t,u,_,rfl,sizable,healthy,sent,
    total,?_⟩
  simp only [HelixVault.settled,add_zero,← sub_eq_add_neg]

/-- A loan that succeeds, step by step; the total is read before the last question to
    the oracle. -/
theorem borrow_ran (done : borrow clients env user amount s = .ok r) :
    Asked env s.own user amount ∧ s.own.paused = false ∧ s.own.Chargeable env.timestamp user ∧
      Fits ((s.own.charged env.timestamp user).borrowed_amount + amount) ∧
      ∃ first allowed factor t u w p, s.own.supported_assets.head? = some first ∧
        p = { s.own.charged env.timestamp user with
          borrowed_amount := (s.own.charged env.timestamp user).borrowed_amount + amount } ∧
        max_borrow_for_position clients env first p (taken s) = .ok (allowed, t) ∧ p.borrowed_amount ≤ allowed ∧
        lend clients env s.own.borrow_token user amount t = .ok ((), u) ∧ Fits (u.own.total_borrows + amount) ∧
        health_factor_for_position clients env first p u = .ok (factor, w) ∧
        r = (some (.borrow user amount factor),
          ⟨{ w.own with
            positions := w.own.positions.set user p
            total_borrows := u.own.total_borrows + amount
            locked := false },w.rest⟩) := by
  simp only [borrow,validate_positive_amount,require_not_paused,primary_supported_asset,position_or_new,read_position,
    accrue_position,checked_add,write_position,bind_ok,require_ok,auth_ok,load_ok,need_ok,save_ok,pure_ok,with_lock_ok,
    preview_accrued_position_ok,Checked.add_some,Prod.exists,Prod.mk.injEq,and_assoc,exists_and_left,
    exists_eq_left] at done
  obtain ⟨positive,authorised,unpaused,unlocked,_,_,⟨first,primary,chargeable,fits,allowed,t,allows,within,_,u,lent,
    total,factor,w,health,rfl,rfl⟩,rfl⟩ := done
  exact ⟨⟨positive,authorised,unlocked⟩,unpaused,chargeable,fits,first,allowed,factor,t,u,w,_,primary,rfl,allows,within,
    lent,total,health,rfl⟩

/-- A repayment that succeeds, step by step. -/
theorem repay_ran (done : repay clients env user amount s = .ok r) :
    Asked env s.own user amount ∧ (s.own.positions.get user).isSome ∧ s.own.Chargeable env.timestamp user ∧
      ∃ actual t p, actual = capped amount (s.own.charged env.timestamp user).borrowed_amount ∧
        receive_some clients env s.own.borrow_token user actual (taken s) = .ok ((), t) ∧
        Fits ((s.own.charged env.timestamp user).borrowed_amount - actual) ∧
        p = { s.own.charged env.timestamp user with
          borrowed_amount := (s.own.charged env.timestamp user).borrowed_amount - actual } ∧
        Fits (t.own.total_borrows - actual) ∧
        r = (some (.repay user actual p.borrowed_amount), ⟨t.own.settled user p 0 (-actual),t.rest⟩) := by
  simp only [repay,validate_positive_amount,read_position_required,read_position,accrue_position,checked_sub,bind_ok,
    require_ok,auth_ok,load_ok,need_ok,save_ok,pure_ok,with_lock_ok,preview_accrued_position_ok,store_or_remove_ok,
    Checked.sub_some,Prod.exists,Prod.mk.injEq,and_assoc,exists_and_left,exists_eq_left] at done
  obtain ⟨positive,authorised,unlocked,_,_,⟨stored,found,accruable,_,t,received,fits,total,rfl,rfl⟩,rfl⟩ := done
  obtain ⟨charged,some,chargeable⟩ := charged_of_stored found accruable
  simp only [charged] at received fits total ⊢
  refine ⟨⟨positive,authorised,unlocked⟩,some,chargeable,_,t,_,rfl,received,fits,rfl,total,?_⟩
  simp only [HelixVault.settled,add_zero,← sub_eq_add_neg]

/-- A liquidation that succeeds, step by step. -/
theorem liquidate_ran {liquidator : Address} (done : liquidate clients env liquidator user amount s = .ok r) :
    Asked env s.own liquidator amount ∧ s.own.roles liquidator LIQUIDATOR_ROLE = true ∧ s.own.paused = false ∧
      (s.own.positions.get user).isSome ∧ s.own.Chargeable env.timestamp user ∧
      ∃ first factor actual bonus price seized a b c d t p, s.own.supported_assets.head? = some first ∧
        health_factor_for_position clients env first (s.own.charged env.timestamp user) (taken s) = .ok (factor, a) ∧
        factor ≤ BPS_DENOMINATOR ∧ actual = capped amount ((s.own.charged env.timestamp user).borrowed_amount.tdiv 2) ∧
        0 < actual ∧ receive clients env s.own.borrow_token liquidator actual a = .ok ((), b) ∧
        Fits (actual * s.own.pool_config.liq_bonus) ∧
        bonus = (actual * s.own.pool_config.liq_bonus).tdiv BPS_DENOMINATOR ∧ Fits (actual + bonus) ∧
        oracle_price clients env first b = .ok (price, c) ∧ Fits ((actual + bonus) * PRICE_SCALAR) ∧
        reach (clients.shares_for_assets (env.calling first) (((actual + bonus) * PRICE_SCALAR).tdiv price)) c =
          (.ok (seized, d) : Except (Failure VaultError) (Int × World HelixVault W)) ∧ 0 < seized ∧
        seized ≤ (s.own.charged env.timestamp user).deposited_shares ∧
        send clients env first liquidator seized d = .ok ((), t) ∧
        Fits ((s.own.charged env.timestamp user).deposited_shares - seized) ∧
        Fits ((s.own.charged env.timestamp user).borrowed_amount - actual) ∧
        p = { s.own.charged env.timestamp user with
          deposited_shares := (s.own.charged env.timestamp user).deposited_shares - seized,
          borrowed_amount := (s.own.charged env.timestamp user).borrowed_amount - actual } ∧
        Fits (t.own.total_deposits - seized) ∧ Fits (t.own.total_borrows - actual) ∧
        r = (some (.liquidation liquidator user actual seized bonus),
          ⟨t.own.settled user p (-seized) (-actual),t.rest⟩) := by
  simp only [liquidate,validate_positive_amount,require_role,require_not_paused,primary_supported_asset,
    read_position_required,read_position,accrue_position,checked_add,checked_sub,bind_ok,require_ok,auth_ok,load_ok,
    need_ok,save_ok,pure_ok,with_lock_ok,preview_accrued_position_ok,checked_mul_div_floor_ok,store_or_remove_ok,
    Checked.add_some,Checked.sub_some,Prod.exists,Prod.mk.injEq,and_assoc,exists_and_left,exists_eq_left] at done
  obtain ⟨asked,authorised,role,unpaused,first,primary,unlocked,_,_,⟨stored,found,accruable,factor,a,health,unhealthy,
    positive,_,b,received,_,bonus,value,price,c,quoted,_,scaled,seized,d,converted,taken,enough,_,t,sent,shares,debt,
    deposits,borrows,rfl,rfl⟩,rfl⟩ := done
  obtain ⟨charged,some,chargeable⟩ := charged_of_stored found accruable
  simp only [charged] at health positive received bonus value scaled converted enough shares debt borrows ⊢
  refine ⟨⟨asked,authorised,unlocked⟩,role,unpaused,some,chargeable,first,factor,_,_,price,seized,a,b,c,d,t,_,primary,
    health,unhealthy,rfl,positive,received,bonus,rfl,value,quoted,scaled,converted,taken,enough,sent,shares,debt,rfl,
    deposits,borrows,?_⟩
  simp only [HelixVault.settled,← sub_eq_add_neg]
end Steps

section Rules
variable {W : Type} {clients : Clients W} {env : Env} {s : World HelixVault W}

/-! ### The rules of the entry points -/

theorem deposit_effect {user token : Address} {amount : Int} {r : Option VaultEvent × World HelixVault W}
    (done : deposit clients.apart env user token amount s = .ok r) :
    Effect clients env s (.deposit user token amount) r.1 r.2 := by
  obtain ⟨asked,unpaused,supported,chargeable,t,p,drawn,fits,position,sizable,total,rfl⟩ := deposit_ran done
  obtain ⟨w,received,rfl⟩ := receive_ok.mp drawn
  exact .deposit user token amount p w ⟨asked,unpaused,supported,chargeable,received,fits,position,sizable,total⟩

/-- Conversely, a deposit that meets its conditions succeeds. -/
theorem deposit_returns {user token : Address} {amount : Int} {p : Position} {w : W}
    (deposits : Deposits clients env s user token amount p w) :
    deposit clients.apart env user token amount s =
      .ok (some (.deposit user token amount p), ⟨s.own.posted user p amount 0,w⟩) := by
  obtain ⟨⟨positive,authorised,unlocked⟩,unpaused,supported,chargeable,received,fits,rfl,sizable,total⟩ := deposits
  simp only [deposit,validate_positive_amount,require_not_paused,require_supported_asset,position_or_new,read_position,
    checked_add,write_position,bind_ok,require_ok,auth_ok,load_ok,need_ok,save_ok,pure_ok,with_lock_ok,
    deposit_position_ok,receive_ok,enforce_min_position_ok,Checked.add_some,Prod.exists,Prod.mk.injEq,and_assoc,
    exists_and_left,exists_eq_left]
  refine ⟨positive,authorised,unpaused,supported,unlocked,chargeable,_,_,
    ⟨(),_,⟨w,received,rfl⟩,fits,sizable,total,rfl,rfl⟩,rfl,?_⟩
  simp only [HelixVault.posted,add_zero]
  rfl

theorem withdraw_effect {user token : Address} {amount : Int} {r : Option VaultEvent × World HelixVault W}
    (done : withdraw clients.apart env user token amount s = .ok r) :
    Effect clients env s (.withdraw user token amount) r.1 r.2 := by
  obtain ⟨asked,unpaused,supported,some,chargeable,enough,fits,t,u,p,position,sizable,checked,paid,total,rfl⟩ :=
    withdraw_ran done
  obtain ⟨mid,healthy,rfl⟩ := require_healthy_ok.mp checked
  obtain ⟨w,sent,rfl⟩ := send_ok.mp paid
  exact .withdraw user token amount p w ⟨asked,unpaused,supported,some,chargeable,enough,fits,position,sizable,
    ⟨mid,healthy,sent⟩,total⟩

/-- Conversely, a withdrawal that meets its conditions succeeds. -/
theorem withdraw_returns {user token : Address} {amount : Int} {p : Position} {w : W}
    (withdraws : Withdraws clients env s user token amount p w) :
    withdraw clients.apart env user token amount s =
      .ok (some (.withdraw user token amount p), ⟨s.own.settled user p (-amount) 0,w⟩) := by
  obtain ⟨⟨positive,authorised,unlocked⟩,unpaused,supported,some,chargeable,enough,fits,rfl,sizable,
    ⟨mid,healthy,sent⟩,total⟩ := withdraws
  obtain ⟨stored,found⟩ := Option.isSome_iff_exists.mp some
  have accruable : stored.Accruable env.timestamp s.own.pool_config.interest_rate := by
    rwa [HelixVault.Chargeable,HelixVault.opened,found,Option.getD_some] at chargeable
  obtain ⟨charged,_,_⟩ := charged_of_stored found accruable
  simp only [← charged] at enough fits sizable healthy ⊢
  simp only [withdraw,validate_positive_amount,require_not_paused,require_supported_asset,read_position_required,
    read_position,accrue_position,checked_sub,bind_ok,require_ok,auth_ok,load_ok,need_ok,save_ok,pure_ok,with_lock_ok,
    preview_accrued_position_ok,require_healthy_ok,send_ok,enforce_min_position_ok,store_or_remove_ok,
    Checked.sub_some,Prod.exists,Prod.mk.injEq,and_assoc,exists_and_left,exists_eq_left]
  refine ⟨positive,authorised,unpaused,supported,unlocked,_,_,⟨stored,found,accruable,enough,fits,sizable,(),_,
    ⟨mid,healthy,rfl⟩,(),_,⟨w,sent,rfl⟩,total,rfl,rfl⟩,rfl,?_⟩
  simp only [HelixVault.settled,add_zero,← sub_eq_add_neg]

theorem borrow_effect {user : Address} {amount : Int} {r : Option VaultEvent × World HelixVault W}
    (done : borrow clients.apart env user amount s = .ok r) :
    Effect clients env s (.borrow user amount) r.1 r.2 := by
  obtain ⟨asked,unpaused,chargeable,fits,token,allowed,factor,t,u,v,p,primary,position,valued,within,paid,total,rated,
    rfl⟩ := borrow_ran done
  obtain ⟨first,allows,rfl⟩ := max_borrow_ok.mp valued
  obtain ⟨second,lent,rfl⟩ := lend_ok.mp paid
  obtain ⟨w,health,rfl⟩ := health_factor_ok.mp rated
  have effect := Effect.borrow user amount factor p w ⟨asked,unpaused,chargeable,fits,position,
    ⟨token,allowed,first,second,primary,allows,within,lent,health⟩,total⟩
  rw [HelixVault.posted,add_zero] at effect
  exact effect

/-- Conversely, a loan that meets its conditions succeeds. -/
theorem borrow_returns {user : Address} {amount factor : Int} {p : Position} {w : W}
    (borrows : Borrows clients env s user amount factor p w) :
    borrow clients.apart env user amount s =
      .ok (some (.borrow user amount factor), ⟨s.own.posted user p 0 amount,w⟩) := by
  obtain ⟨⟨positive,authorised,unlocked⟩,unpaused,chargeable,fits,rfl,
    ⟨token,allowed,first,second,primary,allows,within,lent,health⟩,total⟩ := borrows
  simp only [borrow,validate_positive_amount,require_not_paused,primary_supported_asset,position_or_new,read_position,
    accrue_position,checked_add,write_position,bind_ok,require_ok,auth_ok,load_ok,need_ok,save_ok,pure_ok,with_lock_ok,
    preview_accrued_position_ok,max_borrow_ok,lend_ok,health_factor_ok,Checked.add_some,Prod.exists,Prod.mk.injEq,
    and_assoc,exists_and_left,exists_eq_left]
  refine ⟨positive,authorised,unpaused,unlocked,_,_,⟨token,primary,chargeable,fits,allowed,_,⟨first,allows,rfl⟩,within,
    (),_,⟨second,lent,rfl⟩,total,factor,_,⟨w,health,rfl⟩,rfl,rfl⟩,rfl,?_⟩
  simp only [HelixVault.posted,add_zero]
  rfl

theorem repay_effect {user : Address} {amount : Int} {r : Option VaultEvent × World HelixVault W}
    (done : repay clients.apart env user amount s = .ok r) :
    Effect clients env s (.repay user amount) r.1 r.2 := by
  obtain ⟨asked,some,chargeable,actual,t,p,capped,drawn,fits,position,total,rfl⟩ := repay_ran done
  obtain ⟨w,received,rfl⟩ := receive_some_ok.mp drawn
  exact .repay user amount actual p w ⟨asked,some,chargeable,capped,received,fits,position,total⟩

/-- Conversely, a repayment that meets its conditions succeeds. -/
theorem repay_returns {user : Address} {amount actual : Int} {p : Position} {w : W}
    (repays : Repays clients env s user amount actual p w) :
    repay clients.apart env user amount s =
      .ok (some (.repay user actual p.borrowed_amount), ⟨s.own.settled user p 0 (-actual),w⟩) := by
  obtain ⟨⟨positive,authorised,unlocked⟩,some,chargeable,rfl,received,fits,rfl,total⟩ := repays
  obtain ⟨stored,found⟩ := Option.isSome_iff_exists.mp some
  have accruable : stored.Accruable env.timestamp s.own.pool_config.interest_rate := by
    rwa [HelixVault.Chargeable,HelixVault.opened,found,Option.getD_some] at chargeable
  obtain ⟨charged,_,_⟩ := charged_of_stored found accruable
  simp only [← charged] at received fits total ⊢
  simp only [repay,validate_positive_amount,read_position_required,read_position,accrue_position,checked_sub,bind_ok,
    require_ok,auth_ok,load_ok,need_ok,save_ok,pure_ok,with_lock_ok,preview_accrued_position_ok,receive_some_ok,
    store_or_remove_ok,Checked.sub_some,Prod.exists,Prod.mk.injEq,and_assoc,exists_and_left,exists_eq_left]
  refine ⟨positive,authorised,unlocked,_,_,⟨stored,found,accruable,(),_,⟨w,received,rfl⟩,fits,total,rfl,rfl⟩,rfl,?_⟩
  simp only [HelixVault.settled,add_zero,← sub_eq_add_neg]

theorem liquidate_effect {liquidator user : Address} {repay_amount : Int}
    {r : Option VaultEvent × World HelixVault W}
    (done : liquidate clients.apart env liquidator user repay_amount s = .ok r) :
    Effect clients env s (.liquidate liquidator user repay_amount) r.1 r.2 := by
  obtain ⟨asked,role,unpaused,some,chargeable,token,factor,actual,bonus,price,seized,a,b,c,d,t,p,primary,rated,unhealthy,
    capped,positive,drawn,bonus_fits,bonus_eq,value,quoted,scaled,converts,seizes,enough,paid,shares,debt,position,
    deposits,borrows,rfl⟩ := liquidate_ran done
  obtain ⟨first,health,rfl⟩ := health_factor_ok.mp rated
  obtain ⟨second,received,rfl⟩ := receive_ok.mp drawn
  obtain ⟨third,quotes,rfl⟩ := oracle_price_ok.mp quoted
  obtain ⟨fourth,converted,rfl⟩ := shares_for_assets_ok.mp converts
  obtain ⟨w,sent,rfl⟩ := send_ok.mp paid
  have seizes : Seizes clients env s.own token liquidator actual bonus seized second w :=
    ⟨bonus_fits,bonus_eq,value,⟨price,third,fourth,quotes,scaled,converted,sent⟩,seizes⟩
  exact .liquidate liquidator user repay_amount actual bonus seized p w ⟨asked,role,unpaused,some,chargeable,capped,
    positive,⟨token,factor,first,second,primary,health,unhealthy,received,seizes⟩,enough,shares,debt,position,deposits,
    borrows⟩

/-- Conversely, a liquidation that meets its conditions succeeds. -/
theorem liquidate_returns {liquidator user : Address} {repay_amount actual bonus seized : Int} {p : Position} {w : W}
    (liquidates : Liquidates clients env s liquidator user repay_amount actual bonus seized p w) :
    liquidate clients.apart env liquidator user repay_amount s =
      .ok (some (.liquidation liquidator user actual seized bonus), ⟨s.own.settled user p (-seized) (-actual),w⟩) := by
  obtain ⟨⟨positive,authorised,unlocked⟩,role,unpaused,some,chargeable,rfl,repaid,
    ⟨token,factor,first,second,primary,health,unhealthy,received,
      ⟨bonus,rfl,value,⟨price,third,fourth,quotes,scaled,converted,sent⟩,taken⟩⟩,
    enough,shares,debt,rfl,deposits,borrows⟩ := liquidates
  obtain ⟨stored,found⟩ := Option.isSome_iff_exists.mp some
  have accruable : stored.Accruable env.timestamp s.own.pool_config.interest_rate := by
    rwa [HelixVault.Chargeable,HelixVault.opened,found,Option.getD_some] at chargeable
  obtain ⟨charged,_,_⟩ := charged_of_stored found accruable
  simp only [← charged] at health repaid received bonus value scaled converted enough shares debt borrows ⊢
  simp only [liquidate,validate_positive_amount,require_role,require_not_paused,primary_supported_asset,
    read_position_required,read_position,accrue_position,checked_add,checked_sub,bind_ok,require_ok,auth_ok,load_ok,
    need_ok,save_ok,pure_ok,with_lock_ok,preview_accrued_position_ok,health_factor_ok,receive_ok,
    checked_mul_div_floor_ok,oracle_price_ok,shares_for_assets_ok,send_ok,store_or_remove_ok,Checked.add_some,
    Checked.sub_some,Prod.exists,Prod.mk.injEq,and_assoc,exists_and_left,exists_eq_left]
  refine ⟨positive,authorised,role,unpaused,token,primary,unlocked,_,_,⟨stored,found,accruable,factor,_,
    ⟨first,health,rfl⟩,unhealthy,repaid,(),_,⟨second,received,rfl⟩,by decide,bonus,value,price,_,⟨third,quotes,rfl⟩,
    quotes.positive,scaled,seized,_,⟨fourth,converted,rfl⟩,taken,enough,(),_,⟨w,sent,rfl⟩,shares,debt,deposits,borrows,
    rfl,rfl⟩,rfl,?_⟩
  simp only [HelixVault.settled,← sub_eq_add_neg]

theorem require_admin_auth_ok {r : Unit × World HelixVault W} :
    (require_admin_auth env : Contract W Unit) s = .ok r ↔ env.Authorised s.own.admin ∧ r = ((), s) := by
  simp [require_admin_auth]

theorem require_pauser_auth_ok {caller : Address} {r : Unit × World HelixVault W} :
    (require_pauser_auth env caller : Contract W Unit) s = .ok r ↔
      env.Authorised caller ∧ s.own.roles caller PAUSER_ROLE = true ∧ r = ((), s) := by
  simp only [require_pauser_auth,require_role,bind_ok,auth_ok,load_ok,require_ok,and_assoc,exists_and_left,
    exists_eq_left]

theorem validate_config_ok {σ : Type} {config : PoolConfig} {t : σ} {r : Unit × σ} :
    (validate_config config : Invoke σ VaultError Unit) t = .ok r ↔ ValidConfig config ∧ r = ((), t) := by
  rw [validate_config,require_ok,ValidConfig]
  apply and_congr_left
  intro _
  omega

/-- What an entry point of the admin leaves. -/
theorem admin_saves {change : HelixVault → HelixVault} {event : Option VaultEvent}
    {r : Option VaultEvent × World HelixVault W}
    (done : (do require_admin_auth env; save change; pure event : Contract W (Option VaultEvent)) s = .ok r) :
    env.Authorised s.own.admin ∧ r = (event, { s with own := change s.own }) := by
  simpa only [bind_ok,require_admin_auth_ok,save_ok,pure_ok,and_assoc,exists_and_left,exists_eq_left] using done

/-- What an entry point of a pauser leaves. -/
theorem pauser_saves {caller : Address} {change : HelixVault → HelixVault} {event : Option VaultEvent}
    {r : Option VaultEvent × World HelixVault W}
    (done : (do require_pauser_auth env caller; save change; pure event : Contract W (Option VaultEvent)) s = .ok r) :
    env.Authorised caller ∧ s.own.roles caller PAUSER_ROLE = true ∧ r = (event, { s with own := change s.own }) := by
  simpa only [bind_ok,require_pauser_auth_ok,save_ok,pure_ok,and_assoc,exists_and_left,exists_eq_left] using done

/-- A successful call does what `Effect` says, and nothing else. -/
theorem effect_of_call {entry : Entry} {r : Option VaultEvent × World HelixVault W}
    (done : call clients.apart env entry s = .ok r) : Effect clients env s entry r.1 r.2 := by
  cases entry with
  | initialise admin oracle borrow_token config => simp [call] at done
  | deposit user token amount => exact deposit_effect done
  | withdraw user token amount => exact withdraw_effect done
  | borrow user amount => exact borrow_effect done
  | repay user amount => exact repay_effect done
  | liquidate liquidator user repay_amount => exact liquidate_effect done
  | pause =>
    obtain ⟨authorised,role,rfl⟩ := pauser_saves done
    exact .configured _ _ _ (.pause authorised role)
  | unpause =>
    obtain ⟨authorised,role,rfl⟩ := pauser_saves done
    exact .configured _ _ _ (.unpause authorised role)
  | pause_by caller =>
    obtain ⟨authorised,role,rfl⟩ := pauser_saves done
    exact .configured _ _ _ (.pause_by caller authorised role)
  | unpause_by caller =>
    obtain ⟨authorised,role,rfl⟩ := pauser_saves done
    exact .configured _ _ _ (.unpause_by caller authorised role)
  | update_config new_config =>
    simp only [call,update_config,bind_ok,require_admin_auth_ok,validate_config_ok,save_ok,pure_ok,and_assoc,
      exists_and_left,exists_eq_left] at done
    obtain ⟨authorised,valid,rfl⟩ := done
    exact .configured _ _ _ (.update_config new_config authorised valid)
  | add_supported_asset asset =>
    obtain ⟨authorised,rfl⟩ := admin_saves done
    exact .configured _ _ _ (.add_supported_asset asset authorised)
  | remove_supported_asset asset =>
    obtain ⟨authorised,rfl⟩ := admin_saves done
    exact .configured _ _ _ (.remove_supported_asset asset authorised)
  | grant_role addr role =>
    obtain ⟨authorised,rfl⟩ := admin_saves done
    exact .configured _ _ _ (.grant_role addr role authorised)
  | revoke_role addr role =>
    obtain ⟨authorised,rfl⟩ := admin_saves done
    exact .configured _ _ _ (.revoke_role addr role authorised)

/-! ### What is read -/

/-- A stored position as it is. -/
theorem get_position_ok {user : Address} {r : Position × World HelixVault W} :
    get_position user s = .ok r ↔ s.own.positions.get user = some r.1 ∧ r.2 = s := by
  simp only [get_position,read_position_required,read_position,bind_ok,load_ok,need_ok,exists_eq_left]

theorem get_position_error {user : Address} {e : Failure VaultError} :
    get_position user s = .error e ↔ s.own.positions.get user = none ∧ e = .error .PositionNotFound := by
  simp only [get_position,read_position_required,read_position,bind_error,load_ok,load_error,need_error,false_or]
  constructor
  · rintro ⟨_,rfl,missing,failed⟩
    exact ⟨missing,failed⟩
  · rintro ⟨missing,failed⟩
    exact ⟨_,rfl,missing,failed⟩

/-- The health factor of a stored position, with its interest up to now. -/
theorem get_health_factor_ok {user : Address} {r : Int × World HelixVault W} :
    get_health_factor clients.apart env user s = .ok r ↔ ∃ token stored w, s.own.supported_assets.head? = some token ∧
      s.own.positions.get user = some stored ∧ stored.Accruable env.timestamp s.own.pool_config.interest_rate ∧
      Health clients env s.own.oracle_address token s.own.pool_config.liq_threshold
        (stored.accrued env.timestamp s.own.pool_config.interest_rate) r.1 s.rest w ∧ r.2 = { s with rest := w } := by
  simp only [get_health_factor,primary_supported_asset,read_position_required,read_position,bind_ok,load_ok,need_ok,
    preview_accrued_position_ok,health_factor_ok,Prod.exists,and_assoc,exists_and_left,exists_eq_left]

/-- What a stored position comes to, with its interest up to now. -/
theorem get_position_snapshot_ok {user : Address} {r : PositionSnapshot × World HelixVault W} :
    get_position_snapshot clients.apart env user s = .ok r ↔ ∃ token stored factor w,
      s.own.supported_assets.head? = some token ∧ s.own.positions.get user = some stored ∧
        stored.Accruable env.timestamp s.own.pool_config.interest_rate ∧
        Fits (stored.interest env.timestamp s.own.pool_config.interest_rate) ∧
        Health clients env s.own.oracle_address token s.own.pool_config.liq_threshold
          (stored.accrued env.timestamp s.own.pool_config.interest_rate) factor s.rest w ∧
        r = (⟨stored,stored.accrued env.timestamp s.own.pool_config.interest_rate,
          stored.interest env.timestamp s.own.pool_config.interest_rate,factor,s.own.pool_config,token,
          s.own.borrow_token⟩,{ s with rest := w }) := by
  simp only [get_position_snapshot,primary_supported_asset,read_position_required,read_position,checked_sub,bind_ok,
    load_ok,need_ok,preview_accrued_position_ok,health_factor_ok,Checked.sub_some,pure_ok,Position.accrued_debt,
    add_sub_cancel_left,Prod.exists,and_assoc,exists_and_left,exists_eq_left]
  constructor
  · rintro ⟨token,first,stored,found,sums,fits,factor,_,⟨w,health,rfl⟩,rfl⟩
    exact ⟨token,first,stored,found,sums,fits,factor,w,health,rfl⟩
  · rintro ⟨token,first,stored,found,sums,fits,factor,w,health,rfl⟩
    exact ⟨token,first,stored,found,sums,fits,factor,_,⟨w,health,rfl⟩,rfl⟩

theorem invoke_of_call {clients : Clients (World HelixVault W)} {entry : Entry} {event : Option VaultEvent}
    {s : World (Option HelixVault) W} {v : HelixVault} {t : World HelixVault W} (found : s.own = some v)
    (ran : call clients env entry ⟨v,s.rest⟩ = .ok (event, t)) :
    invoke clients env entry s = .ok (event, ⟨some t.own,t.rest⟩) := by
  unfold invoke
  simp only [found,ran]

/-- A successful call finds a vault and runs on it, or makes one. -/
theorem invoke_ran {clients : Clients (World HelixVault W)} {entry : Entry} {event : Option VaultEvent}
    {s s' : World (Option HelixVault) W} (done : invoke clients env entry s = .ok (event, s')) :
    (∃ v t, s.own = some v ∧ call clients env entry ⟨v,s.rest⟩ = .ok (event, t) ∧ s' = ⟨some t.own,t.rest⟩) ∨
      (s.own = none ∧ s'.rest = s.rest ∧ ∃ admin oracle borrow_token config,
        entry = .initialise admin oracle borrow_token config ∧ event = none ∧ ValidConfig config ∧
          s'.own = some (fresh admin oracle borrow_token config)) := by
  unfold invoke at done
  split at done
  · rename_i admin oracle borrow_token config missing
    simp only [initialise,bind_ok,auth_ok,validate_config_ok,save_ok,pure_ok,and_assoc,exists_and_left,exists_eq_left,
      Prod.mk.injEq] at done
    obtain ⟨_,valid,rfl,rfl⟩ := done
    exact .inr ⟨missing,rfl,admin,oracle,borrow_token,config,rfl,rfl,valid,rfl⟩
  · cases done
  · rename_i v found
    split at done
    · rename_i t ran
      cases done
      exact .inl ⟨v,t,found,ran,rfl⟩
    · cases done

/-- On the vault a successful call does what `Effect` says. -/
theorem invoke_cases {entry : Entry} {event : Option VaultEvent} {s s' : World (Option HelixVault) W}
    (done : invoke clients.apart env entry s = .ok (event, s')) :
    (∃ v v', s.own = some v ∧ s'.own = some v' ∧ Effect clients env ⟨v,s.rest⟩ entry event ⟨v',s'.rest⟩) ∨
      (s.own = none ∧ s'.rest = s.rest ∧ ∃ admin oracle borrow_token config,
        entry = .initialise admin oracle borrow_token config ∧ event = none ∧ ValidConfig config ∧
          s'.own = some (fresh admin oracle borrow_token config)) := by
  rcases invoke_ran done with ⟨v,t,found,ran,rfl⟩ | made
  · exact .inl ⟨v,t.own,found,rfl,effect_of_call ran⟩
  · exact .inr made

end Rules

end Helix.Vault
