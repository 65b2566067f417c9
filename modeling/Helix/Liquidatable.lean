import Helix.VaultHealth
import Helix.Liquidator
import Helix.Adapter

/-!
Who counts as liquidatable. The vault lets a liquidation through up to a health
factor of one, the bot looks below one only, and so does the adapter, on numbers
with a binary point. All three agree except at a health factor of exactly one
(`liquidatable_agree_iff`).
-/
namespace Helix

/-! ### The adapter -/

namespace Adapter
open Binary64 (Number Representable round_le nat_le_round round_le_nat)

theorem huge : (10000 : ℚ) < 2 ^ 1024 := by
  have small : (10000 : ℚ) < 2 ^ 14 := by norm_num
  exact small.trans_le (pow_le_pow_right₀ one_le_two (by decide))

/-- The largest number below one is not reached from 9999 parts of 10000. -/
theorem round_ratio_lt {q : ℚ} (above : q ≤ 9999 / 10000) : Binary64.round q < 1 := by
  have there : Representable (((2 ^ 53 - 1 : ℤ) : ℚ) * 2 ^ (-53 : ℤ)) := ⟨2 ^ 53 - 1,-53,by decide,by decide,rfl⟩
  have below : q ≤ ((2 ^ 53 - 1 : ℤ) : ℚ) * 2 ^ (-53 : ℤ) := above.trans (by norm_num)
  have less : ((2 ^ 53 - 1 : ℤ) : ℚ) * 2 ^ (-53 : ℤ) < 1 := by norm_num
  exact (round_le there (by norm_num) below).trans_lt less

/-- A ratio of basis points is below one exactly for fewer than ten thousand of them:
    the two roundings do not pass one. -/
theorem bpsToRatio_lt_one (n : Int) : Number.lt (bpsToRatio n) (.finite 1) = true ↔ n < 10000 := by
  have denominator : BPS_DENOMINATOR = 10000 := rfl
  have infinite : ∀ negative, Number.div (.infinite negative) (.finite BPS_DENOMINATOR) = .infinite negative := by
    intro negative
    cases negative <;> simp [Number.div,Number.turned,denominator]
  have finite : ∀ r : ℚ, Number.lt (Number.div (.finite r) (.finite BPS_DENOMINATOR)) (.finite 1) = true ↔
      Binary64.round (r / 10000) < 1 := by
    intro r
    have small : (1 : ℚ) < 2 ^ 1024 := lt_trans (by norm_num) huge
    have divided : Number.div (.finite r) (.finite BPS_DENOMINATOR) = .ofRat (r / 10000) := by
      simp [Number.div,denominator]
    rw [divided]
    exact Number.ofRat_lt (lt_trans (neg_lt_zero.mpr (zero_lt_one.trans small)) zero_lt_one) small
  unfold bpsToRatio
  rcases le_or_gt 10000 n with large | small
  · refine iff_of_false ?_ (not_lt.mpr large)
    have raised : (10000 : ℚ) ≤ Binary64.round n := by
      have given : ((10000 : Nat) : ℚ) ≤ n := by exact_mod_cast large
      exact_mod_cast nat_le_round (by decide) given
    rcases Number.ofRat_cases n with ⟨_,same⟩ | ⟨low,_⟩ | same
    · rw [same,infinite]
      simp [Number.lt]
    · have negative : (-2 ^ 1024 : ℚ) < 10000 := (neg_lt_zero.mpr (pow_pos two_pos _)).trans (by norm_num)
      exact absurd (raised.trans low) (not_le.mpr negative)
    · have given : ((1 : Nat) : ℚ) ≤ Binary64.round n / 10000 := by
        rw [le_div_iff₀ (by norm_num)]
        simpa using raised
      have kept := nat_le_round (by decide) given
      rw [same,finite]
      exact not_lt.mpr (by exact_mod_cast kept)
  · refine iff_of_true ?_ small
    have lowered : Binary64.round n ≤ 9999 := by
      have given : (n : ℚ) ≤ ((9999 : Nat) : ℚ) := by exact_mod_cast (by omega : n ≤ 9999)
      exact_mod_cast round_le_nat (by decide) given
    rcases Number.ofRat_cases n with ⟨high,_⟩ | ⟨_,same⟩ | same
    · have beyond : (9999 : ℚ) < 2 ^ 1024 := lt_trans (by norm_num) huge
      exact absurd (high.trans lowered) (not_le.mpr beyond)
    · rw [same,infinite]
      rfl
    · rw [same,finite]
      exact round_ratio_lt (div_le_div_of_nonneg_right lowered (by norm_num))

/-- Without an explicit status, a position with some debt is liquidatable exactly if
    its health factor is below one. -/
theorem resolveStatus_liquidatable {debtAmount collateralAmount healthFactor : Number} {status : Status}
    (resolved : resolveStatus .undefined debtAmount collateralAmount healthFactor = .ok status)
    (owes : Number.lt (.finite 0) debtAmount = true) :
    status = .liquidatable ↔ Number.lt healthFactor (.finite 1) = true := by
  have some : debtAmount ≠ .finite 0 := by
    rintro rfl
    simp [Number.lt] at owes
  simp only [resolveStatus,some,false_and,if_false,owes,true_and] at resolved
  by_cases low : Number.lt healthFactor (.finite 1) = true
  · rw [if_pos low] at resolved
    cases resolved
    simp [low]
  · rw [if_neg low] at resolved
    cases resolved
    simp [low]

theorem resolveStatus_returns (debtAmount collateralAmount healthFactor : Number) :
    ∃ status, resolveStatus .undefined debtAmount collateralAmount healthFactor = .ok status := by
  by_cases closed : debtAmount = .finite 0 ∧ collateralAmount = .finite 0
  · exact ⟨.closed,by simp [resolveStatus,closed]⟩
  · by_cases low : Number.lt (.finite 0) debtAmount = true ∧ Number.lt healthFactor (.finite 1) = true
    · exact ⟨.liquidatable,by simp only [resolveStatus,if_neg closed,if_pos low]⟩
    · exact ⟨.active,by simp only [resolveStatus,if_neg closed,if_neg low]⟩

theorem bind_read {α β : Type} {x : Read α} {f : α → Read β} {b : β} :
    (x >>= f) = .ok b ↔ ∃ a, x = .ok a ∧ f a = .ok b := by
  cases x <;> simp [bind,Except.bind]

/-- What is read after something that does not matter. -/
theorem read_after {α β : Type} {x : Read α} {f : α → Read β} {b : β} (done : (x >>= f) = .ok b) : ∃ a, f a = .ok b := by
  obtain ⟨a,_,rest⟩ := bind_read.mp done
  exact ⟨a,rest⟩

theorem read_to {α β : Type} {x : Read α} {f : α → Read β} {a : α} {P : β → Prop} (read : x = .ok a)
    (rest : ∃ b, f a = .ok b ∧ P b) : ∃ b, (x >>= f) = .ok b ∧ P b := by
  obtain ⟨b,done,holds⟩ := rest
  exact ⟨b,bind_read.mpr ⟨a,read,done⟩,holds⟩

theorem requireObject_ok {α : Type} {value : Option α} {fieldName : String} {object : α} :
    requireObject value fieldName = .ok object ↔ value = some object := by
  cases value <;> simp [requireObject]

theorem requiredIntegerLike_ok {value : Js} {fieldName : String} {n : Int} :
    requiredIntegerLike value fieldName = .ok n ↔ integerLike value = some n := by
  unfold requiredIntegerLike
  cases integerLike value <;> simp

theorem scaleIntegerToNumber_ok {raw decimals : Int} {fieldName : String} {x : Number} :
    scaleIntegerToNumber raw decimals fieldName = .ok x ↔ 0 ≤ decimals ∧ x = .ofRat (raw / 10 ^ decimals.toNat) := by
  unfold scaleIntegerToNumber
  split
  · rename_i negative
    simp [negative]
  · rename_i nonneg
    simp [not_lt.mp nonneg,eq_comm]

/-- A snapshot shows the debt and the health factor that the vault told, the debt
    with its interest or without. -/
structure Shows (snapshot : Snapshot) (reading : Vault.PositionSnapshot) : Prop where
  factor : integerLike snapshot.healthFactorBps = some reading.health_factor
  debt : ∃ position, snapshot.position = some position ∧
    (integerLike position.borrowed_amount = some reading.accrued_position.borrowed_amount ∨
      integerLike position.borrowed_amount = some reading.stored_position.borrowed_amount)

/-- The status of a snapshot without an explicit one, where some debt is left after
    scaling: the health factor decides. -/
theorem mapped_status {dates : Dates} {snapshot : Snapshot} {reading : Vault.PositionSnapshot} {position : HelixPosition}
    (mapped : mapStellarVaultSnapshotToHelixPosition dates (some snapshot) = .ok position)
    (implicit : snapshot.status = .undefined) (shows_it : Shows snapshot reading)
    (owes : 0 ≤ reading.accrued_position.borrowed_amount) (owed : 0 ≤ reading.stored_position.borrowed_amount)
    (scaled : position.debt_amount ≠ .finite 0) : position.status = .liquidatable ↔ reading.health_factor < 10000 := by
  unfold mapStellarVaultSnapshotToHelixPosition at mapped
  obtain ⟨input,given,mapped⟩ := bind_read.mp mapped
  cases requireObject_ok.mp given
  obtain ⟨held,found,mapped⟩ := bind_read.mp mapped
  obtain ⟨poolConfig,mapped⟩ := read_after mapped
  obtain ⟨collateral,mapped⟩ := read_after mapped
  obtain ⟨debt,mapped⟩ := read_after mapped
  obtain ⟨prices,mapped⟩ := read_after mapped
  obtain ⟨userAddress,mapped⟩ := read_after mapped
  obtain ⟨vaultContractId,mapped⟩ := read_after mapped
  obtain ⟨collateralToken,mapped⟩ := read_after mapped
  obtain ⟨debtToken,mapped⟩ := read_after mapped
  obtain ⟨assets,mapped⟩ := read_after mapped
  obtain ⟨collateralDecimals,mapped⟩ := read_after mapped
  obtain ⟨collateralAmount,mapped⟩ := read_after mapped
  obtain ⟨borrowed,told,mapped⟩ := bind_read.mp mapped
  obtain ⟨decimals,mapped⟩ := read_after mapped
  obtain ⟨debtAmount,amount,mapped⟩ := bind_read.mp mapped
  obtain ⟨interest,mapped⟩ := read_after mapped
  obtain ⟨accruedInterest,mapped⟩ := read_after mapped
  obtain ⟨collateralUsd,mapped⟩ := read_after mapped
  obtain ⟨debtUsd,mapped⟩ := read_after mapped
  obtain ⟨healthFactorBps,factor,mapped⟩ := bind_read.mp mapped
  obtain ⟨status,resolved,mapped⟩ := bind_read.mp mapped
  obtain ⟨max_ltv,mapped⟩ := read_after mapped
  obtain ⟨liq_threshold,mapped⟩ := read_after mapped
  obtain ⟨interest_rate,mapped⟩ := read_after mapped
  obtain ⟨last_updated,mapped⟩ := read_after mapped
  cases mapped
  obtain ⟨_,rfl⟩ := scaleIntegerToNumber_ok.mp amount
  have reads := requiredIntegerLike_ok.mp factor
  rw [shows_it.factor] at reads
  cases reads
  rw [implicit] at resolved
  obtain ⟨held',found',told'⟩ := shows_it.debt
  rw [requireObject_ok.mp found] at found'
  cases found'
  rw [requiredIntegerLike_ok.mp told] at told'
  have nonneg : 0 ≤ borrowed := by
    rcases told' with same | same
    · cases same
      exact owes
    · cases same
      exact owed
  have quotient : (0 : ℚ) ≤ borrowed / 10 ^ decimals.toNat :=
    div_nonneg (by exact_mod_cast nonneg) (pow_nonneg (by norm_num) _)
  rw [resolveStatus_liquidatable resolved (Number.ofRat_positive quotient scaled),bpsToRatio_lt_one]

end Adapter

/-! ### The vault -/

namespace Vault
open Invoke

/-- A call to `liquidate` that gets as far as the health of the user. -/
structure Reaches (env : Env) (v : HelixVault) (liquidator : Address) (repay_amount : Int) : Prop where
  asked : Asked env v liquidator repay_amount
  role : v.roles liquidator LIQUIDATOR_ROLE = true
  unpaused : v.paused = false

section Gate
variable {W : Type} {clients : Clients W} {env : Env} {s : World HelixVault W} {α : Type}

theorem avoids_reach {e : VaultError} (f : World HelixVault W → Option (α × World HelixVault W)) :
    Avoids (.error e) (reach f : Contract W α) := by
  intro s failed
  unfold reach at failed
  cases ran : f s with
  | none => rw [ran] at failed; cases failed
  | some r => rw [ran] at failed; cases failed

theorem avoids_checked_mul_div_floor {left right denominator : Int} :
    Avoids (.error .HealthFactorTooLow) (checked_mul_div_floor left right denominator : Contract W Int) := by
  unfold checked_mul_div_floor checked_mul
  exact .bind (.require (by simp)) (fun _ => .bind (.need (by simp)) (fun _ => .pure))

theorem avoids_oracle_price {clients : Clients (World HelixVault W)} {asset : Address} :
    Avoids (.error .HealthFactorTooLow) (oracle_price clients env asset) := by
  unfold oracle_price
  refine .bind .read (fun _ => .bind (avoids_reach _) (fun _ => .bind (.require (by simp)) (fun _ => ?_)))
  exact .bind (avoids_reach _) (fun _ => .bind (.require (by simp)) (fun _ => .bind (.require (by simp)) (fun _ => .pure)))

theorem avoids_receive {clients : Clients (World HelixVault W)} {token owner : Address} {amount : Int} :
    Avoids (.error .HealthFactorTooLow) (receive clients env token owner amount) := by
  unfold receive require_exact_incoming_delta checked_sub
  refine .bind (avoids_reach _) (fun _ => .bind (avoids_reach _) (fun _ => .bind (avoids_reach _) (fun _ => ?_)))
  exact .bind (.need (by simp)) (fun _ => .require (by simp))

theorem avoids_send {clients : Clients (World HelixVault W)} {token recipient : Address} {amount : Int} :
    Avoids (.error .HealthFactorTooLow) (send clients env token recipient amount) := by
  unfold send require_exact_outgoing_delta checked_sub
  refine .bind (avoids_reach _) (fun _ => .bind (avoids_reach _) (fun _ => .bind (avoids_reach _) (fun _ => ?_)))
  exact .bind (.need (by simp)) (fun _ => .require (by simp))

end Gate

section Passing
variable {W : Type} {clients : Clients W} {env : Env} {s : World HelixVault W}

/-- A body that runs under the lock fails as it does. -/
theorem with_lock_error {α : Type} {body : Contract W α} {e : Failure VaultError} (unlocked : s.own.locked = false) :
    with_lock body s = .error e ↔ body { s with own := { s.own with locked := true } } = .error e := by
  simp [with_lock,bind_error,unlocked]

/-- A liquidation that gets to the health of a user is refused there exactly if the
    health factor is above one, whatever else it does after that. -/
theorem gate_refuses_iff {liquidator user token : Address} {repay_amount factor : Int} {stored : Position} {w : W}
    {rest : Address → Address → PoolConfig → Position → Contract W (Option VaultEvent)}
    (avoids : ∀ token borrow_token config position, Avoids (.error .HealthFactorTooLow) (rest token borrow_token config position))
    (reaches : Reaches env s.own liquidator repay_amount) (primary : s.own.supported_assets.head? = some token)
    (found : s.own.positions.get user = some stored)
    (accruable : stored.Accruable env.timestamp s.own.pool_config.interest_rate)
    (health : Health clients env s.own.oracle_address token s.own.pool_config.liq_threshold
      (stored.accrued env.timestamp s.own.pool_config.interest_rate) factor s.rest w) :
    (do
      validate_positive_amount repay_amount
      require_auth env liquidator
      require_role liquidator LIQUIDATOR_ROLE
      require_not_paused
      let collateral_token ← primary_supported_asset
      let borrow_token ← load (fun v => v.borrow_token)
      with_lock do
        let config ← load (fun v => v.pool_config)
        let stored ← read_position_required user
        let position ← accrue_position env stored
        let health_factor ← health_factor_for_position clients.apart env collateral_token position
        require (health_factor ≤ BPS_DENOMINATOR) (.error .HealthFactorTooLow)
        rest collateral_token borrow_token config position : Contract W (Option VaultEvent)) s =
      .error (.error .HealthFactorTooLow) ↔ BPS_DENOMINATOR < factor := by
  obtain ⟨⟨positive,authorised,unlocked⟩,role,unpaused⟩ := reaches
  have amount : validate_positive_amount repay_amount s = .ok ((), s) := require_ok.mpr ⟨positive,rfl⟩
  have checked : require_role liquidator LIQUIDATOR_ROLE s = .ok ((), s) := by simp [require_role,role]
  have open_now : require_not_paused s = .ok ((), s) := by simp [require_not_paused,unpaused]
  have first : primary_supported_asset s = .ok (token, s) := by simp [primary_supported_asset,primary]
  have own : (load (fun v => v.borrow_token) : Contract W Address) s = .ok (s.own.borrow_token, s) := load_ok.mpr rfl
  rw [bind_of_ok amount,bind_of_ok (auth_ok.mpr ⟨authorised,rfl⟩),bind_of_ok checked,
    bind_of_ok open_now,bind_of_ok first,bind_of_ok own,with_lock_error unlocked]
  have stored_now : read_position_required user { s with own := { s.own with locked := true } } =
      .ok (stored, { s with own := { s.own with locked := true } }) := by
    simp [read_position_required,read_position,found]
  have preview : accrue_position env stored { s with own := { s.own with locked := true } } = .ok
      (stored.accrued env.timestamp s.own.pool_config.interest_rate, { s with own := { s.own with locked := true } }) :=
    preview_accrued_position_ok.mpr ⟨accruable,rfl⟩
  have read : health_factor_for_position clients.apart env token
      (stored.accrued env.timestamp s.own.pool_config.interest_rate)
      { s with own := { s.own with locked := true } } =
        .ok (factor, { own := { s.own with locked := true }, rest := w }) :=
    health_factor_ok.mpr ⟨w,health,rfl⟩
  rw [bind_of_ok (load_ok.mpr rfl),bind_of_ok stored_now,bind_of_ok preview,bind_of_ok read,bind_error,require_error]
  constructor
  · rintro (⟨above,_⟩ | ⟨q,_,failed⟩)
    · exact not_le.mp above
    · exact absurd failed (avoids _ _ _ _ _)
  · intro above
    exact .inl ⟨not_le.mpr above,rfl⟩

theorem liquidate_refuses_iff {liquidator user token : Address} {repay_amount factor : Int} {stored : Position} {w : W}
    (reaches : Reaches env s.own liquidator repay_amount) (primary : s.own.supported_assets.head? = some token)
    (found : s.own.positions.get user = some stored)
    (accruable : stored.Accruable env.timestamp s.own.pool_config.interest_rate)
    (health : Health clients env s.own.oracle_address token s.own.pool_config.liq_threshold
      (stored.accrued env.timestamp s.own.pool_config.interest_rate) factor s.rest w) :
    liquidate clients.apart env liquidator user repay_amount s = .error (.error .HealthFactorTooLow) ↔
      BPS_DENOMINATOR < factor := by
  unfold liquidate
  refine gate_refuses_iff ?_ reaches primary found accruable health
  intro token borrow_token config position
  have positive : ∀ amount, Avoids (.error .HealthFactorTooLow) (validate_positive_amount amount : Contract W Unit) :=
    fun amount => .require (by simp)
  have sub : ∀ left right, Avoids (.error .HealthFactorTooLow) (checked_sub left right : Contract W Int) :=
    fun left right => .need (by simp)
  refine .bind (positive _) (fun _ => .bind avoids_receive (fun _ => .bind avoids_checked_mul_div_floor (fun _ => ?_)))
  refine .bind (.need (by simp)) (fun _ => .bind avoids_oracle_price (fun _ => ?_))
  refine .bind avoids_checked_mul_div_floor (fun _ => .bind (avoids_reach _) (fun _ => .bind (positive _) (fun _ => ?_)))
  refine .bind (.require (by simp)) (fun _ => .bind avoids_send (fun _ => .bind (sub _ _) (fun _ => ?_)))
  refine .bind (sub _ _) (fun _ => .bind .read (fun _ => .bind .read (fun _ => .bind (sub _ _) (fun _ => ?_))))
  refine .bind (sub _ _) (fun _ => .bind .write (fun _ => .bind .write (fun _ => .bind ?_ (fun _ => .pure))))
  exact .ite .write .write

end Passing

/-! ### One snapshot, three readers -/

/-- Two invocations at one time to which the tokens and the oracle answer alike. -/
structure SameView {W : Type} (clients : Clients W) (env reader : Env) : Prop where
  time : reader.timestamp = env.timestamp
  shares : ∀ callee, clients.assets_for_shares (reader.calling callee) = clients.assets_for_shares (env.calling callee)
  price : ∀ callee, clients.lastprice (reader.calling callee) = clients.lastprice (env.calling callee)
  decimals : ∀ callee, clients.decimals (reader.calling callee) = clients.decimals (env.calling callee)

section Views
variable {W : Type} {clients : Clients W} {env reader : Env} {oracle token : Address} {shares value factor : Int}
  {liq_threshold : Nat} {p : Position} {w w' : W}

theorem Values.seen (view : SameView clients env reader) (values : Values clients reader oracle token shares value w w') :
    Values clients env oracle token shares value w w' := by
  cases values with
  | nothing => exact .nothing w
  | shares _ assets price _ mid _ some converted quotes fits =>
    obtain ⟨⟨told,timestamp,decimals,quoted,fresh⟩,positive⟩ := quotes
    rw [view.shares] at converted
    rw [view.decimals] at decimals
    rw [view.price] at quoted
    rw [view.time] at fresh
    exact .shares shares assets price w mid w' some converted ⟨⟨told,timestamp,decimals,quoted,fresh⟩,positive⟩ fits

theorem Health.seen (view : SameView clients env reader)
    (health : Health clients reader oracle token liq_threshold p factor w w') :
    Health clients env oracle token liq_threshold p factor w w' := by
  cases health with
  | debtless _ none => exact .debtless w none
  | ratio value _ _ some values owes fits => exact .ratio value w w' some (values.seen view) owes fits

theorem Values.unique {value' : Int} {w'' : W} (values : Values clients env oracle token shares value w w')
    (again : Values clients env oracle token shares value' w w'') : value' = value := by
  cases values with
  | nothing =>
    cases again with
    | nothing => rfl
    | shares _ _ _ _ _ _ some => exact absurd rfl some
  | shares _ assets price _ mid _ some converted quotes _ =>
    have tells : Tells clients env oracle token shares assets price w := ⟨mid,w',converted,quotes⟩
    exact tells.worth again some

/-- The collateral counts for all of the debt, but not for a ten-thousandth more. -/
def AtOne (liq_threshold : Nat) (value debt : Int) : Prop :=
  debt * 10000 ≤ value * liq_threshold ∧ value * liq_threshold < debt * 10001

instance (liq_threshold : Nat) (value debt : Int) : Decidable (AtOne liq_threshold value debt) :=
  inferInstanceAs (Decidable (_ ∧ _))

theorem factor_eq_one_iff {debt : Int} (owes : 0 < debt) :
    (value * liq_threshold).tdiv debt = 10000 ↔ AtOne liq_threshold value debt := by
  unfold AtOne
  generalize value * (liq_threshold : Int) = scaled
  rcases Int.le_total 0 scaled with nonneg | negative
  · rw [Int.tdiv_eq_ediv_of_nonneg nonneg]
    have low : 10000 ≤ scaled / debt ↔ debt * 10000 ≤ scaled := by
      rw [Int.le_ediv_iff_mul_le owes,mul_comm]
    have high : scaled / debt < 10001 ↔ scaled < debt * 10001 := by
      rw [Int.ediv_lt_iff_lt_mul owes,mul_comm]
    rw [← low,← high]
    omega
  · have nothing := tdiv_nonpos negative owes.le
    constructor
    · intro same
      omega
    · intro both
      omega

end Views

/-- One state of a vault, a user with a debt in it, and who looks: a liquidator whose
    call gets to the health of the user, the bot, which watches the user under some
    name and reads the vault, and the adapter, which is shown what the vault tells. -/
structure Sighting (W : Type) where
  clients : Clients W
  env : Env
  reader : Env
  view : SameView clients env reader
  s : World HelixVault W
  user : Address
  liquidator : Address
  repay_amount : Int
  reaches : Reaches env s.own liquidator repay_amount
  reading : PositionSnapshot
  after : World HelixVault W
  read : get_position_snapshot clients.apart reader user s = .ok (reading, after)
  owes : 0 < reading.accrued_position.borrowed_amount
  config : Bot.Config
  rpc : Bot.Readings
  state : Bot.ScannerState
  name : String
  watched : ∃ tracked ∈ state.positions, tracked.key.user = name
  told : ∀ tracked ∈ state.positions, tracked.key.user = name →
    rpc.get_health_factor tracked.key config.vault_contract_id name =
      (answer (get_health_factor clients.apart reader user) s).map (fun r => r.1)
  results : List Bot.HealthAssessment
  evaluated : Bot.evaluate config rpc state = some results
  dates : Adapter.Dates
  snapshot : Adapter.Snapshot
  shown : Adapter.Shows snapshot reading
  implicit : snapshot.status = .undefined
  position : Adapter.HelixPosition
  mapped : Adapter.mapStellarVaultSnapshotToHelixPosition dates (some snapshot) = .ok position
  scaled : position.debt_amount ≠ .finite 0

namespace Sighting
variable {W : Type} (sighting : Sighting W)

/-- The call to `liquidate` is not refused for the health of the user. -/
def Passes : Prop := liquidate sighting.clients.apart sighting.env sighting.liquidator sighting.user
  sighting.repay_amount sighting.s ≠ .error (.error .HealthFactorTooLow)

/-- The bot keeps the user as a candidate. -/
def Kept : Prop := ∃ assessment ∈ sighting.results, assessment.tracked.key.user = sighting.name

/-- The adapter reports the user as liquidatable. -/
def Reported : Prop := sighting.position.status = .liquidatable

/-- What the collateral of the user is worth. -/
def Worth (value : Int) : Prop := ∃ w, Values sighting.clients sighting.reader sighting.s.own.oracle_address
  sighting.reading.collateral_token sighting.reading.accrued_position.deposited_shares value sighting.s.rest w

/-- All three go by one health factor: the vault up to one, the others below. -/
theorem verdicts : ∃ value factor, sighting.Worth value ∧
      factor = (value * sighting.s.own.pool_config.liq_threshold).tdiv
        sighting.reading.accrued_position.borrowed_amount ∧
      (sighting.Passes ↔ factor ≤ 10000) ∧ (sighting.Kept ↔ factor < 10000) ∧ (sighting.Reported ↔ factor < 10000) := by
  obtain ⟨token,stored,factor,w,primary,found,accruable,_,health,same⟩ := get_position_snapshot_ok.mp sighting.read
  have reading := (Prod.mk.inj same).1
  have owes := sighting.owes
  rw [reading] at owes
  have owed : 0 ≤ stored.borrowed_amount := by
    by_contra negative
    rw [Position.accrued_debt,stored.interest_debtless _ _ (by omega)] at owes
    omega
  obtain ⟨value,values,same⟩ : ∃ value, Values sighting.clients sighting.reader sighting.s.own.oracle_address token
      (stored.accrued sighting.reader.timestamp sighting.s.own.pool_config.interest_rate).deposited_shares value
        sighting.s.rest w ∧ factor = (value * sighting.s.own.pool_config.liq_threshold).tdiv
          (stored.accrued sighting.reader.timestamp sighting.s.own.pool_config.interest_rate).borrowed_amount := by
    cases health with
    | debtless _ none => exact absurd none owes.ne'
    | ratio value _ _ _ values => exact ⟨value,values,rfl⟩
  refine ⟨value,factor,?_,?_,?_,?_,?_⟩
  · rw [Worth,reading]
    exact ⟨w,values⟩
  · rw [reading]
    exact same
  · have accruable_then := accruable
    have health_then := health.seen sighting.view
    rw [sighting.view.time] at accruable_then health_then
    rw [Passes,ne_eq,liquidate_refuses_iff sighting.reaches primary found accruable_then health_then,not_lt]
    rfl
  · refine Bot.evaluate_keeps_iff sighting.evaluated sighting.watched ?_
    intro tracked member named
    have read : get_health_factor sighting.clients.apart sighting.reader sighting.user sighting.s =
        .ok (factor, { sighting.s with rest := w }) :=
      get_health_factor_ok.mpr ⟨token,stored,w,primary,found,accruable,health,rfl⟩
    rw [sighting.told tracked member named,answer_some.mpr read,Option.map_some]
  · have status := Adapter.mapped_status sighting.mapped sighting.implicit sighting.shown sighting.owes.le
      (by rw [reading]; exact owed) sighting.scaled
    rw [reading] at status
    exact status

end Sighting

/-- The bot keeps a user, and the adapter reports the user as liquidatable, exactly
    when the vault lets the user be liquidated, unless the health factor is exactly
    one: that the vault lets through and the others do not. -/
theorem liquidatable_agree_iff {W : Type} (sighting : Sighting W) : ∃ value, sighting.Worth value ∧
    (((sighting.Kept ↔ sighting.Passes) ∧ (sighting.Reported ↔ sighting.Passes)) ↔
      ¬ AtOne sighting.s.own.pool_config.liq_threshold value sighting.reading.accrued_position.borrowed_amount) := by
  obtain ⟨value,factor,worth,same,passes,kept,reported⟩ := sighting.verdicts
  refine ⟨value,worth,?_⟩
  rw [passes,kept,reported,← factor_eq_one_iff sighting.owes,← same]
  constructor
  · rintro ⟨both,_⟩ one
    omega
  · intro other
    constructor <;> omega

/-! ### A debt against ten thousand -/

namespace Small
open Adapter (read_to)

/-- A position that is worth ten thousand, and a liquidator. -/
def pledged (debt : Int) : HelixVault :=
  { fresh admin oracle borrow_token config with
    supported_assets := [tokenA]
    positions := Store.empty.set userA ⟨1,debt,20⟩
    roles := fun addr role => decide (addr = userB ∧ role = LIQUIDATOR_ROLE) }

def liquidating : Env := (Origin.signedBy userB).env ⟨4,20⟩ vault
def reading : Env := (Origin.signedBy admin).env ⟨4,20⟩ vault

/-- What the vault tells of the position. -/
def told (debt : Int) : PositionSnapshot :=
  ⟨⟨1,debt,20⟩,⟨1,debt,20⟩,0,(10000 * config.liq_threshold : Int).tdiv debt,config,tokenA,borrow_token⟩

/-- The bot watches the position under the name of its user. -/
def watching (debt : Int) : Bot.ScannerState :=
  { Bot.ScannerState.default with positions := [⟨⟨"A","hstETH"⟩,⟨1,debt,20⟩,3⟩] }

def botConfig : Bot.Config := ⟨"vault","oracle","token",none,0,5⟩

def readings (debt : Int) : Bot.Readings where
  read_pool_config _ := some (some config)
  get_health_factor _ _ _ := some (told debt).health_factor
  last_price _ _ _ := some (10000000, 20)

/-- The adapter is shown the same, with amounts of no decimals. -/
def shownSnapshot (debt : Int) : Adapter.Snapshot where
  userAddress := .string "A"
  vaultContractId := .string "vault"
  position := some ⟨.bigint debt,.bigint 20⟩
  poolConfig := some ⟨.bigint 7500,.bigint 8000,.bigint 500⟩
  collateral := some ⟨.string "hstETH",.bigint 0,.bigint 10000⟩
  debt := some ⟨.string "USDC",.bigint 0⟩
  prices := some ⟨.number (.finite 1),.number (.finite 1)⟩
  healthFactorBps := .bigint (told debt).health_factor
  accruedInterest := .bigint 0
  asOf := .undefined
  status := .undefined

/-- Dates that are all one. -/
def dates : Adapter.Dates := ⟨fun _ => .ok "1970-01-01T00:00:20.000Z",fun _ => none⟩

variable {debt : Int}

theorem pledged_health (owes : 0 < debt) (env : Env) (w : Till) :
    Health tills env oracle tokenA config.liq_threshold ⟨1,debt,20⟩ (told debt).health_factor w w :=
  .ratio 10000 w w owes.ne' (till_values env Int.one_ne_zero w) owes (part_fits (by decide))

theorem pledged_read (owes : 0 < debt) (w : Till) :
    get_position_snapshot tills.apart reading userA ⟨pledged debt,w⟩ = .ok (told debt, ⟨pledged debt,w⟩) := by
  have current : (⟨1,debt,20⟩ : Position).accrued reading.timestamp (pledged debt).pool_config.interest_rate =
      ⟨1,debt,20⟩ := Position.accrued_now rfl _
  have none : (⟨1,debt,20⟩ : Position).interest reading.timestamp (pledged debt).pool_config.interest_rate = 0 :=
    if_neg (fun both => absurd both.2 (Nat.lt_irrefl 0))
  refine get_position_snapshot_ok.mpr ⟨tokenA,⟨1,debt,20⟩,(told debt).health_factor,w,rfl,Store.get_set_same _ _ _,
    fun both => absurd both.2 (Nat.lt_irrefl 0),?_,?_,?_⟩
  · rw [none]
    exact fits_zero
  · rw [current]
    exact pledged_health owes reading w
  · rw [current,none]
    rfl

theorem pledged_answer (owes : 0 < debt) (w : Till) :
    (answer (get_health_factor tills.apart reading userA) ⟨pledged debt,w⟩).map (fun r => r.1) =
      some (told debt).health_factor := by
  have current : (⟨1,debt,20⟩ : Position).accrued reading.timestamp (pledged debt).pool_config.interest_rate =
      ⟨1,debt,20⟩ := Position.accrued_now rfl _
  have read : get_health_factor tills.apart reading userA ⟨pledged debt,w⟩ =
      .ok ((told debt).health_factor, ⟨pledged debt,w⟩) := by
    refine get_health_factor_ok.mpr ⟨tokenA,⟨1,debt,20⟩,w,rfl,Store.get_set_same _ _ _,
      fun both => absurd both.2 (Nat.lt_irrefl 0),?_,rfl⟩
    rw [current]
    exact pledged_health owes reading w
  rw [answer_some.mpr read,Option.map_some]

theorem watching_evaluated (debt : Int) :
    ∃ results, Bot.evaluate botConfig (readings debt) (watching debt) = some results :=
  Bot.evaluate_returns (show (readings debt).read_pool_config "vault" = some (some config) from rfl)
    (fun _ _ => ⟨_,rfl⟩) (fun tracked _ => by
    by_cases unknown : tracked.key.asset = Bot.PRIMARY_ASSET_PLACEHOLDER <;> simp [Bot.quote,unknown,readings])

theorem shown_mapped (debt : Int) : ∃ position,
    Adapter.mapStellarVaultSnapshotToHelixPosition dates (some (shownSnapshot debt)) = .ok position ∧
      position.debt_amount = .ofRat debt := by
  obtain ⟨status,resolved⟩ := Adapter.resolveStatus_returns (.ofRat debt) (.ofRat 10000)
    (Adapter.bpsToRatio (told debt).health_factor)
  have borrowed : Adapter.scaleIntegerToNumber debt 0 "position.borrowed_amount" = .ok (.ofRat debt) :=
    Adapter.scaleIntegerToNumber_ok.mpr ⟨le_rfl,by simp⟩
  have assets : Adapter.scaleIntegerToNumber 10000 0 "collateral.assets" = .ok (.ofRat 10000) :=
    Adapter.scaleIntegerToNumber_ok.mpr ⟨le_rfl,by simp⟩
  have interest : Adapter.scaleIntegerToNumber 0 0 "accruedInterest" = .ok (.ofRat 0) :=
    Adapter.scaleIntegerToNumber_ok.mpr ⟨le_rfl,by simp⟩
  have dated : Adapter.normalizeTimestamp dates (Adapter.orElse .undefined (.bigint 20)) "asOf" =
      .ok "1970-01-01T00:00:20.000Z" := rfl
  unfold Adapter.mapStellarVaultSnapshotToHelixPosition
  -- the objects, the names, the amounts with their prices, the status, and the configuration
  refine read_to rfl (read_to rfl (read_to rfl (read_to rfl (read_to rfl (read_to rfl ?_)))))
  refine read_to rfl (read_to rfl (read_to rfl (read_to rfl ?_)))
  refine read_to rfl (read_to rfl (read_to assets (read_to rfl (read_to rfl (read_to borrowed ?_)))))
  refine read_to rfl (read_to interest (read_to rfl (read_to rfl ?_)))
  refine read_to rfl (read_to resolved ?_)
  exact read_to rfl (read_to rfl (read_to rfl (read_to dated ⟨_,rfl,rfl⟩)))

/-- The three readers of a debt against ten thousand. -/
theorem sighted (owes : 0 < debt) : ∃ sighting : Sighting Till,
    sighting.s.own.pool_config.liq_threshold = 8000 ∧ sighting.reading.accrued_position.borrowed_amount = debt ∧
      sighting.Worth 10000 := by
  obtain ⟨results,evaluated⟩ := watching_evaluated debt
  obtain ⟨position,mapped,amount⟩ := shown_mapped debt
  have scaled : position.debt_amount ≠ .finite 0 := by
    rw [amount]
    intro zero
    have given : ((1 : Nat) : ℚ) ≤ debt := by exact_mod_cast owes
    have kept := Binary64.Number.le_of_ofRat (Binary64.representable_nat (by decide)) (by norm_num) given zero
    norm_num at kept
  let sighting : Sighting Till := {
    clients := tills
    env := liquidating
    reader := reading
    view := ⟨rfl,fun _ => rfl,fun _ => rfl,fun _ => rfl⟩
    s := ⟨pledged debt,till⟩
    user := userA
    liquidator := userB
    repay_amount := 1
    reaches := ⟨⟨by decide,Origin.signedBy_authorised _ _ _,rfl⟩,by simp [pledged],rfl⟩
    reading := told debt
    after := ⟨pledged debt,till⟩
    read := pledged_read owes till
    owes := owes
    config := botConfig
    rpc := readings debt
    state := watching debt
    name := "A"
    watched := ⟨_,List.mem_singleton_self _,rfl⟩
    told := fun _ _ _ => (pledged_answer owes till).symm
    results := results
    evaluated := evaluated
    dates := dates
    snapshot := shownSnapshot debt
    shown := ⟨rfl,_,rfl,.inl rfl⟩
    implicit := rfl
    position := position
    mapped := mapped
    scaled := scaled }
  refine ⟨sighting,rfl,rfl,till,?_⟩
  exact till_values reading Int.one_ne_zero till

end Small

theorem Sighting.worth_unique {W : Type} {sighting : Sighting W} {value value' : Int} (worth : sighting.Worth value)
    (again : sighting.Worth value') : value' = value := by
  obtain ⟨_,values⟩ := worth
  obtain ⟨_,values'⟩ := again
  exact values.unique values'

/-- A debt of 9000 against ten thousand at a threshold of 8000: all three agree. -/
theorem liquidatable_agree_below : ∃ sighting : Sighting Small.Till,
    (sighting.Kept ↔ sighting.Passes) ∧ (sighting.Reported ↔ sighting.Passes) := by
  obtain ⟨sighting,threshold,debt,worth⟩ := Small.sighted (show (0 : Int) < 9000 by decide)
  obtain ⟨value,told,agree⟩ := liquidatable_agree_iff sighting
  refine ⟨sighting,agree.mpr ?_⟩
  rw [threshold,debt,Sighting.worth_unique worth told]
  decide

/-- A debt of 8000: the vault lets the user be liquidated, the bot passes the user
    over, and the adapter reports the position as active. -/
theorem liquidatable_disagree_at_one : ∃ sighting : Sighting Small.Till, sighting.Worth 10000 ∧
    sighting.Passes ∧ ¬ sighting.Kept ∧ ¬ sighting.Reported := by
  obtain ⟨sighting,threshold,debt,worth⟩ := Small.sighted (show (0 : Int) < 8000 by decide)
  obtain ⟨value,factor,told,same,passes,kept,reported⟩ := sighting.verdicts
  rw [threshold,debt,Sighting.worth_unique worth told] at same
  have one : factor = 10000 := same.trans (by decide)
  refine ⟨sighting,worth,?_,?_,?_⟩
  · exact passes.mpr one.le
  · rw [kept]
    omega
  · rw [reported]
    omega

end Vault
end Helix
