import Helix.Store
import Helix.Integers
import Helix.Host

/-!
The lending vault of `contracts/vault`: users deposit shares of collateral tokens,
borrow a token against them, repay, and are liquidated when their collateral is
worth too little. Tokens and oracle are whatever contracts the vault calls; a
call may come back to the vault before it answers.
-/
namespace Helix.Vault
open Invoke

def ADMIN_ROLE : Nat := 0
def LIQUIDATOR_ROLE : Nat := 1
def PAUSER_ROLE : Nat := 2
def BPS_DENOMINATOR : Int := 10000
def PRICE_SCALAR : Int := 10000000
def ORACLE_DECIMALS : Nat := 7
def ORACLE_STALE_WINDOW : Nat := 3600
def SECONDS_PER_YEAR : Int := 365 * 24 * 3600

structure Position where
  deposited_shares : Int
  borrowed_amount : Int
  last_update : Nat
  deriving DecidableEq

structure PoolConfig where
  max_ltv : Nat
  liq_threshold : Nat
  liq_bonus : Nat
  interest_rate : Nat
  min_position : Int
  deriving DecidableEq

/-- What a user's position comes to at the moment. -/
structure PositionSnapshot where
  stored_position : Position
  accrued_position : Position
  accrued_interest : Int
  health_factor : Int
  pool_config : PoolConfig
  collateral_token : Address
  borrow_token : Address

inductive VaultError where
  | NotInitialized
  | AlreadyInitialized
  | InsufficientCollateral
  | InsufficientLiquidity
  | InvalidAmount
  | Unauthorized
  | PositionNotFound
  | OracleStale
  | Paused
  | Reentrancy
  | HealthFactorTooLow
  | ClawbackDetected
  | BelowMinPosition
  deriving DecidableEq

/-- The storage of an initialized vault. -/
structure HelixVault where
  admin : Address
  pool_config : PoolConfig
  supported_assets : List Address
  oracle_address : Address
  borrow_token : Address
  paused : Bool
  locked : Bool
  total_deposits : Int
  total_borrows : Int
  positions : Store Address Position
  roles : Address → Nat → Bool

/-- The contracts the vault calls, each call with the environment the callee
    sees: the tokens and the oracle. -/
structure Clients (S : Type) where
  balance : Env → Address → S → Option (Int × S)
  transfer : Env → Address → Address → Int → S → Option (Unit × S)
  transfer_from : Env → Address → Address → Address → Int → S → Option (Unit × S)
  assets_for_shares : Env → Int → S → Option (Int × S)
  shares_for_assets : Env → Int → S → Option (Int × S)
  lastprice : Env → Address → S → Option ((Int × Nat) × S)
  decimals : Env → Address → S → Option (Nat × S)

/-- Contracts that answer without coming back to the vault. -/
def Clients.apart {S W : Type} (clients : Clients W) : Clients (World S W) where
  balance env id := Helix.apart (clients.balance env id)
  transfer env owner recipient amount := Helix.apart (clients.transfer env owner recipient amount)
  transfer_from env spender owner recipient amount :=
    Helix.apart (clients.transfer_from env spender owner recipient amount)
  assets_for_shares env shares := Helix.apart (clients.assets_for_shares env shares)
  shares_for_assets env assets := Helix.apart (clients.shares_for_assets env assets)
  lastprice env asset := Helix.apart (clients.lastprice env asset)
  decimals env asset := Helix.apart (clients.decimals env asset)

/-- The event an entry point publishes. -/
inductive VaultEvent where
  | deposit (user collateral_token : Address) (amount : Int) (position : Position)
  | withdraw (user collateral_token : Address) (amount : Int) (position : Position)
  | borrow (user : Address) (amount health_factor : Int)
  | repay (user : Address) (actual_repay borrowed_amount : Int)
  | liquidation (liquidator user : Address) (actual_repay shares_to_seize bonus : Int)
  | pause (caller : Address)
  | unpause (caller : Address)
  | config_update (new_config : PoolConfig)
  deriving DecidableEq

abbrev Contract (W α : Type) : Type := Invoke (World HelixVault W) VaultError α

section Code
variable {W : Type} (clients : Clients (World HelixVault W)) (env : Env)

/-! ### Checks and arithmetic -/

def validate_positive_amount (amount : Int) : Contract W Unit := require (0 < amount) (.error .InvalidAmount)
def checked_add (left right : Int) : Contract W Int := need (Checked.add left right) (.error .InvalidAmount)
def checked_sub (left right : Int) : Contract W Int := need (Checked.sub left right) (.error .InvalidAmount)
def checked_mul (left right : Int) : Contract W Int := need (Checked.mul left right) (.error .InvalidAmount)

def checked_mul_div_floor (left right denominator : Int) : Contract W Int := do
  require (0 < denominator) (.error .InvalidAmount)
  let product ← checked_mul left right
  pure (product.tdiv denominator)

def validate_config {σ : Type} (config : PoolConfig) : Invoke σ VaultError Unit :=
  require (¬ (config.min_position ≤ 0 ∨ config.max_ltv = 0 ∨ config.max_ltv > 10000 ∨ config.liq_threshold = 0 ∨
    config.liq_threshold > 10000 ∨ config.liq_bonus > 10000)) (.error .InvalidAmount)

def require_not_paused : Contract W Unit := do
  let paused ← load (fun v => v.paused)
  require (paused = false) (.error .Paused)

def require_supported_asset (asset : Address) : Contract W Unit := do
  let supported_assets ← load (fun v => v.supported_assets)
  require (asset ∈ supported_assets) (.error .InvalidAmount)

def require_role (addr : Address) (role : Nat) : Contract W Unit := do
  let has_role ← load (fun v => v.roles addr role)
  require (has_role = true) (.error .Unauthorized)

def require_admin_auth : Contract W Unit := do
  let admin ← load (fun v => v.admin)
  require_auth env admin

def require_pauser_auth (caller : Address) : Contract W Unit := do
  require_auth env caller
  require_role caller PAUSER_ROLE

def primary_supported_asset : Contract W Address := do
  let assets ← load (fun v => v.supported_assets)
  need assets.head? (.error .InvalidAmount)

def require_exact_incoming_delta (balance_before balance_after expected_delta : Int) : Contract W Unit := do
  let actual_delta ← checked_sub balance_after balance_before
  require (actual_delta = expected_delta) (.error .ClawbackDetected)

def require_exact_outgoing_delta (balance_before balance_after expected_delta : Int) : Contract W Unit := do
  let actual_delta ← checked_sub balance_before balance_after
  require (actual_delta = expected_delta) (.error .ClawbackDetected)

/-! ### Positions -/

def read_position (user : Address) : Contract W (Option Position) := load (fun v => v.positions.get user)

def read_position_required (user : Address) : Contract W Position := do
  let position ← read_position user
  need position (.error .PositionNotFound)

def write_position (user : Address) (position : Position) : Contract W Unit :=
  save (fun v => { v with positions := v.positions.set user position })

def store_or_remove_position (user : Address) (position : Position) : Contract W Unit :=
  if position.deposited_shares = 0 ∧ position.borrowed_amount = 0 then
    save (fun v => { v with positions := v.positions.remove user })
  else write_position user position

def enforce_min_position (deposited_shares : Int) : Contract W Unit :=
  if deposited_shares = 0 then pure ()
  else do
    let config ← load (fun v => v.pool_config)
    require (config.min_position ≤ deposited_shares) (.error .BelowMinPosition)

/-- The body runs while the vault is locked. -/
def with_lock {α : Type} (body : Contract W α) : Contract W α := do
  let locked ← load (fun v => v.locked)
  require (locked = false) (.error .Reentrancy)
  save (fun v => { v with locked := true })
  let result ← body
  save (fun v => { v with locked := false })
  pure result

def preview_accrued_position (position : Position) : Contract W Position := do
  let elapsed_seconds := env.timestamp - position.last_update
  if 0 < position.borrowed_amount ∧ 0 < elapsed_seconds then
    let config ← load (fun v => v.pool_config)
    let scaled ← checked_mul position.borrowed_amount config.interest_rate
    let year ← checked_mul SECONDS_PER_YEAR BPS_DENOMINATOR
    let accrued ← checked_mul_div_floor scaled elapsed_seconds year
    let borrowed_amount ← checked_add position.borrowed_amount accrued
    pure { position with borrowed_amount := borrowed_amount, last_update := env.timestamp }
  else pure { position with last_update := env.timestamp }

def accrue_position (position : Position) : Contract W Position := preview_accrued_position env position

/-! ### What collateral is worth -/

def oracle_price (asset : Address) : Contract W Int := do
  let oracle ← load (fun v => v.oracle_address)
  let decimals ← reach (clients.decimals (env.calling oracle) asset)
  require (decimals = ORACLE_DECIMALS) (.error .InvalidAmount)
  let last ← reach (clients.lastprice (env.calling oracle) asset)
  require (0 < last.1) (.error .InvalidAmount)
  require (env.timestamp - last.2 ≤ ORACLE_STALE_WINDOW) (.error .OracleStale)
  pure last.1

def collateral_value_for_position (collateral_token : Address) (deposited_shares : Int) : Contract W Int :=
  if deposited_shares = 0 then pure 0
  else do
    let assets ← reach (clients.assets_for_shares (env.calling collateral_token) deposited_shares)
    let price ← oracle_price clients env collateral_token
    checked_mul_div_floor assets price PRICE_SCALAR

def max_borrow_for_position (collateral_token : Address) (position : Position) : Contract W Int := do
  let config ← load (fun v => v.pool_config)
  let collateral_value ← collateral_value_for_position clients env collateral_token position.deposited_shares
  checked_mul_div_floor collateral_value config.max_ltv BPS_DENOMINATOR

def health_factor_for_position (collateral_token : Address) (position : Position) : Contract W Int :=
  if position.borrowed_amount = 0 then pure i128Max
  else do
    let config ← load (fun v => v.pool_config)
    let collateral_value ← collateral_value_for_position clients env collateral_token position.deposited_shares
    checked_mul_div_floor collateral_value config.liq_threshold position.borrowed_amount

/-- A position that still owes has to be worth more than it owes. -/
def require_healthy (collateral_token : Address) (position : Position) : Contract W Unit :=
  if 0 < position.borrowed_amount then do
    let health_factor ← health_factor_for_position clients env collateral_token position
    require (BPS_DENOMINATOR < health_factor) (.error .HealthFactorTooLow)
  else pure ()

/-! ### Measured transfers

Every entry point that moves tokens reads its balance before and after and
refuses any other difference than the one it asked for. -/

def receive (token owner : Address) (amount : Int) : Contract W Unit := do
  let vault := env.current_contract_address
  let balance_before ← reach (clients.balance (env.calling token) vault)
  reach (clients.transfer_from (env.calling token) vault owner vault amount)
  let balance_after ← reach (clients.balance (env.calling token) vault)
  require_exact_incoming_delta balance_before balance_after amount

/-- Nothing is drawn for no amount. -/
def receive_some (token owner : Address) (amount : Int) : Contract W Unit :=
  if 0 < amount then receive clients env token owner amount else pure ()

def send (token recipient : Address) (amount : Int) : Contract W Unit := do
  let vault := env.current_contract_address
  let balance_before ← reach (clients.balance (env.calling token) vault)
  reach (clients.transfer (env.calling token) vault recipient amount)
  let balance_after ← reach (clients.balance (env.calling token) vault)
  require_exact_outgoing_delta balance_before balance_after amount

/-- A transfer out of a balance that has to cover it. -/
def lend (token recipient : Address) (amount : Int) : Contract W Unit := do
  let vault := env.current_contract_address
  let balance_before ← reach (clients.balance (env.calling token) vault)
  require (amount ≤ balance_before) (.error .InsufficientLiquidity)
  reach (clients.transfer (env.calling token) vault recipient amount)
  let balance_after ← reach (clients.balance (env.calling token) vault)
  require_exact_outgoing_delta balance_before balance_after amount

/-- What is asked for, or what there is if that is less. -/
def capped (amount cap : Int) : Int := if amount > cap then cap else amount

/-! ### Entry points -/

/-- The stored position of a user, or an empty one opened now. -/
def position_or_new (user : Address) : Contract W Position := do
  let position ← read_position user
  pure (position.getD ⟨0,0,env.timestamp⟩)

def deposit (user collateral_token : Address) (amount : Int) : Contract W (Option VaultEvent) := do
  validate_positive_amount amount
  require_auth env user
  require_not_paused
  require_supported_asset collateral_token
  with_lock do
    let stored ← position_or_new env user
    let position ← (if 0 < stored.borrowed_amount then accrue_position env stored
      else pure { stored with last_update := env.timestamp })
    receive clients env collateral_token user amount
    let deposited_shares ← checked_add position.deposited_shares amount
    enforce_min_position deposited_shares
    let total_deposits ← load (fun v => v.total_deposits)
    let updated_total_deposits ← checked_add total_deposits amount
    let updated := { position with deposited_shares := deposited_shares }
    save (fun v => { v with total_deposits := updated_total_deposits })
    write_position user updated
    pure (some (.deposit user collateral_token amount updated))

def withdraw (user collateral_token : Address) (amount : Int) : Contract W (Option VaultEvent) := do
  validate_positive_amount amount
  require_auth env user
  require_not_paused
  require_supported_asset collateral_token
  with_lock do
    let stored ← read_position_required user
    let position ← accrue_position env stored
    require (amount ≤ position.deposited_shares) (.error .InsufficientCollateral)
    let deposited_shares ← checked_sub position.deposited_shares amount
    enforce_min_position deposited_shares
    let updated := { position with deposited_shares := deposited_shares }
    require_healthy clients env collateral_token updated
    send clients env collateral_token user amount
    let total_deposits ← load (fun v => v.total_deposits)
    let updated_total_deposits ← checked_sub total_deposits amount
    save (fun v => { v with total_deposits := updated_total_deposits })
    store_or_remove_position user updated
    pure (some (.withdraw user collateral_token amount updated))

def borrow (user : Address) (amount : Int) : Contract W (Option VaultEvent) := do
  validate_positive_amount amount
  require_auth env user
  require_not_paused
  let borrow_token ← load (fun v => v.borrow_token)
  with_lock do
    let collateral_token ← primary_supported_asset
    let stored ← position_or_new env user
    let position ← accrue_position env stored
    let borrowed_amount ← checked_add position.borrowed_amount amount
    let updated := { position with borrowed_amount := borrowed_amount }
    let max_borrow_allowed ← max_borrow_for_position clients env collateral_token updated
    require (updated.borrowed_amount ≤ max_borrow_allowed) (.error .InsufficientCollateral)
    lend clients env borrow_token user amount
    let total_borrows ← load (fun v => v.total_borrows)
    let updated_total_borrows ← checked_add total_borrows amount
    let health_factor ← health_factor_for_position clients env collateral_token updated
    save (fun v => { v with total_borrows := updated_total_borrows })
    write_position user updated
    pure (some (.borrow user amount health_factor))

def repay (user : Address) (amount : Int) : Contract W (Option VaultEvent) := do
  validate_positive_amount amount
  require_auth env user
  let borrow_token ← load (fun v => v.borrow_token)
  with_lock do
    let stored ← read_position_required user
    let position ← accrue_position env stored
    let actual_repay := capped amount position.borrowed_amount
    receive_some clients env borrow_token user actual_repay
    let borrowed_amount ← checked_sub position.borrowed_amount actual_repay
    let total_borrows ← load (fun v => v.total_borrows)
    let updated_total_borrows ← checked_sub total_borrows actual_repay
    save (fun v => { v with total_borrows := updated_total_borrows })
    store_or_remove_position user { position with borrowed_amount := borrowed_amount }
    pure (some (.repay user actual_repay borrowed_amount))

def liquidate (liquidator user : Address) (repay_amount : Int) : Contract W (Option VaultEvent) := do
  validate_positive_amount repay_amount
  require_auth env liquidator
  require_role liquidator LIQUIDATOR_ROLE
  require_not_paused
  let collateral_token ← primary_supported_asset
  let borrow_token ← load (fun v => v.borrow_token)
  with_lock do
    let config ← load (fun v => v.pool_config)
    let stored ← read_position_required user
    let position ← accrue_position env stored
    let health_factor ← health_factor_for_position clients env collateral_token position
    require (health_factor ≤ BPS_DENOMINATOR) (.error .HealthFactorTooLow)
    let actual_repay := capped repay_amount (position.borrowed_amount.tdiv 2)
    validate_positive_amount actual_repay
    receive clients env borrow_token liquidator actual_repay
    let bonus ← checked_mul_div_floor actual_repay config.liq_bonus BPS_DENOMINATOR
    let seize_value ← checked_add actual_repay bonus
    let price ← oracle_price clients env collateral_token
    let assets_to_seize ← checked_mul_div_floor seize_value PRICE_SCALAR price
    let shares_to_seize ← reach (clients.shares_for_assets (env.calling collateral_token) assets_to_seize)
    validate_positive_amount shares_to_seize
    require (shares_to_seize ≤ position.deposited_shares) (.error .InsufficientCollateral)
    send clients env collateral_token liquidator shares_to_seize
    let deposited_shares ← checked_sub position.deposited_shares shares_to_seize
    let borrowed_amount ← checked_sub position.borrowed_amount actual_repay
    let total_deposits ← load (fun v => v.total_deposits)
    let total_borrows ← load (fun v => v.total_borrows)
    let updated_total_deposits ← checked_sub total_deposits shares_to_seize
    let updated_total_borrows ← checked_sub total_borrows actual_repay
    save (fun v => { v with total_deposits := updated_total_deposits })
    save (fun v => { v with total_borrows := updated_total_borrows })
    store_or_remove_position user
      { position with deposited_shares := deposited_shares, borrowed_amount := borrowed_amount }
    pure (some (.liquidation liquidator user actual_repay shares_to_seize bonus))

def get_health_factor (user : Address) : Contract W Int := do
  let collateral_token ← primary_supported_asset
  let position ← read_position_required user
  let preview ← preview_accrued_position env position
  health_factor_for_position clients env collateral_token preview

def get_position (user : Address) : Contract W Position := read_position_required user

def get_position_snapshot (user : Address) : Contract W PositionSnapshot := do
  let collateral_token ← primary_supported_asset
  let borrow_token ← load (fun v => v.borrow_token)
  let stored_position ← read_position_required user
  let accrued_position ← preview_accrued_position env stored_position
  let accrued_interest ← checked_sub accrued_position.borrowed_amount stored_position.borrowed_amount
  let health_factor ← health_factor_for_position clients env collateral_token accrued_position
  let pool_config ← load (fun v => v.pool_config)
  pure ⟨stored_position,accrued_position,accrued_interest,health_factor,pool_config,collateral_token,borrow_token⟩

def pause_by (caller : Address) : Contract W (Option VaultEvent) := do
  require_pauser_auth env caller
  save (fun v => { v with paused := true })
  pure (some (.pause caller))

def unpause_by (caller : Address) : Contract W (Option VaultEvent) := do
  require_pauser_auth env caller
  save (fun v => { v with paused := false })
  pure (some (.unpause caller))

def pause : Contract W (Option VaultEvent) := do
  let admin ← load (fun v => v.admin)
  pause_by env admin

def unpause : Contract W (Option VaultEvent) := do
  let admin ← load (fun v => v.admin)
  unpause_by env admin

def update_config (new_config : PoolConfig) : Contract W (Option VaultEvent) := do
  require_admin_auth env
  validate_config new_config
  save (fun v => { v with pool_config := new_config })
  pure (some (.config_update new_config))

def add_supported_asset (asset : Address) : Contract W (Option VaultEvent) := do
  require_admin_auth env
  save (fun v => { v with
    supported_assets := if asset ∈ v.supported_assets then v.supported_assets else v.supported_assets ++ [asset] })
  pure none

def remove_supported_asset (asset : Address) : Contract W (Option VaultEvent) := do
  require_admin_auth env
  save (fun v => { v with supported_assets := v.supported_assets.filter (fun supported => supported ≠ asset) })
  pure none

def write_role (addr : Address) (role : Nat) (enabled : Bool) : Contract W Unit :=
  save (fun v => { v with roles := fun a r => if a = addr ∧ r = role then enabled else v.roles a r })

def grant_role (addr : Address) (role : Nat) : Contract W (Option VaultEvent) := do
  require_admin_auth env
  write_role addr role true
  pure none

def revoke_role (addr : Address) (role : Nat) : Contract W (Option VaultEvent) := do
  require_admin_auth env
  write_role addr role false
  pure none

/-- A freshly initialized vault. -/
def fresh (admin oracle borrow_token : Address) (config : PoolConfig) : HelixVault where
  admin := admin
  pool_config := config
  supported_assets := []
  oracle_address := oracle
  borrow_token := borrow_token
  paused := false
  locked := false
  total_deposits := 0
  total_borrows := 0
  positions := .empty
  roles := fun a r =>
    decide ((a = admin ∧ r = ADMIN_ROLE) ∨ (a = admin ∧ r = PAUSER_ROLE) ∨ (a = oracle ∧ r = PAUSER_ROLE))

/-- The calls that change a vault; `initialise` is its `initialize`, a keyword
    here. `upgrade` replaces the code and ends what can be said about it. -/
inductive Entry where
  | initialise (admin oracle borrow_token : Address) (config : PoolConfig)
  | deposit (user collateral_token : Address) (amount : Int)
  | withdraw (user collateral_token : Address) (amount : Int)
  | borrow (user : Address) (amount : Int)
  | repay (user : Address) (amount : Int)
  | liquidate (liquidator user : Address) (repay_amount : Int)
  | pause
  | unpause
  | pause_by (caller : Address)
  | unpause_by (caller : Address)
  | update_config (new_config : PoolConfig)
  | add_supported_asset (asset : Address)
  | remove_supported_asset (asset : Address)
  | grant_role (addr : Address) (role : Nat)
  | revoke_role (addr : Address) (role : Nat)
  deriving DecidableEq

/-- A call to an initialized vault. -/
def call : Entry → Contract W (Option VaultEvent)
  | .initialise _ _ _ _ => fail .AlreadyInitialized
  | .deposit user collateral_token amount => deposit clients env user collateral_token amount
  | .withdraw user collateral_token amount => withdraw clients env user collateral_token amount
  | .borrow user amount => borrow clients env user amount
  | .repay user amount => repay clients env user amount
  | .liquidate liquidator user repay_amount => liquidate clients env liquidator user repay_amount
  | .pause => pause env
  | .unpause => unpause env
  | .pause_by caller => pause_by env caller
  | .unpause_by caller => unpause_by env caller
  | .update_config new_config => update_config env new_config
  | .add_supported_asset asset => add_supported_asset env asset
  | .remove_supported_asset asset => remove_supported_asset env asset
  | .grant_role addr role => grant_role env addr role
  | .revoke_role addr role => revoke_role env addr role

end Code

/-- The first call of a vault. -/
def initialise {W : Type} (env : Env) (admin oracle borrow_token : Address) (config : PoolConfig) :
    Invoke (World (Option HelixVault) W) VaultError (Option VaultEvent) := do
  require_auth env admin
  validate_config config
  save (fun _ => some (fresh admin oracle borrow_token config))
  pure none

/-- A call to a vault that may not be initialized yet: until then every entry
    point but `initialise` refuses. -/
def invoke {W : Type} (clients : Clients (World HelixVault W)) (env : Env) (entry : Entry) :
    Invoke (World (Option HelixVault) W) VaultError (Option VaultEvent) := fun s =>
  match s.own, entry with
  | none, .initialise admin oracle borrow_token config => initialise env admin oracle borrow_token config s
  | none, _ => .error (.error .NotInitialized)
  | some v, entry =>
    match call clients env entry ⟨v,s.rest⟩ with
    | .ok (event, t) => .ok (event, ⟨some t.own,t.rest⟩)
    | .error e => .error e

end Helix.Vault
