import Helix.VaultSystem

/-!
Whom a vault lets be liquidated. Borrowing and withdrawing are gated by two
formulas of their own: a loan by the part of the collateral that may be borrowed
against, a withdrawal by the health of the position at the token it takes.
Liquidation and `get_health_factor` ask for the health at the first supported
token. A loan leaves its borrower out of reach exactly under configurations that
lend less than they liquidate at (`borrow_safe_iff`), and a withdrawal where the
first token allows no less debt than the one that is taken (`withdraw_safe`).
-/
namespace Helix.Vault
open Invoke

/-! ### The two gates -/

/-- What may be lent for a value is less than the value. -/
theorem lent_of_allowed {value debt : Int} {max_ltv : Nat} (owes : 0 < debt)
    (allowed : debt ≤ (value * max_ltv).tdiv BPS_DENOMINATOR) : debt * 10000 ≤ value * max_ltv ∧ 0 ≤ value := by
  have bps : BPS_DENOMINATOR = 10000 := rfl
  rw [bps] at allowed
  have lent : debt * 10000 ≤ value * max_ltv := by
    have positive : 0 < value * max_ltv := pos_of_tdiv (by decide) (owes.trans_le allowed)
    rw [Int.tdiv_eq_ediv_of_nonneg positive.le] at allowed
    omega
  refine ⟨lent,?_⟩
  by_contra negative
  have lost : value * max_ltv ≤ 0 := Int.mul_nonpos_of_nonpos_of_nonneg (by omega) (Int.natCast_nonneg _)
  omega

theorem worth_of_allowed {value debt : Int} {max_ltv : Nat} (ltv : max_ltv ≤ 10000) (owes : 0 < debt)
    (allowed : debt ≤ (value * max_ltv).tdiv BPS_DENOMINATOR) : debt ≤ value := by
  obtain ⟨lent,nonneg⟩ := lent_of_allowed owes allowed
  have bounded : value * max_ltv ≤ value * 10000 := Int.mul_le_mul_of_nonneg_left (by omega) nonneg
  omega

/-- A loan within the part of a value that may be lent is healthy at any larger
    part. -/
theorem healthy_of_allowed {value debt : Int} {max_ltv liq_threshold : Nat} (ltv : max_ltv ≤ 10000)
    (above : max_ltv < liq_threshold) (owes : 0 < debt)
    (allowed : debt ≤ (value * max_ltv).tdiv BPS_DENOMINATOR) :
    BPS_DENOMINATOR < (value * liq_threshold).tdiv debt := by
  obtain ⟨lent,nonneg⟩ := lent_of_allowed owes allowed
  have worth := worth_of_allowed ltv owes allowed
  have raised : value * (max_ltv + 1) ≤ value * liq_threshold := Int.mul_le_mul_of_nonneg_left (by omega) nonneg
  rw [mul_add,mul_one] at raised
  have gate : 10001 * debt ≤ value * liq_threshold := by omega
  have scaled : 0 ≤ value * liq_threshold := by omega
  rw [Int.tdiv_eq_ediv_of_nonneg scaled]
  have factor : 10001 ≤ value * liq_threshold / debt := (Int.le_ediv_iff_mul_le owes).mpr gate
  exact factor

/-- The largest debt that is healthy for a value of collateral. -/
def mostDebt (liq_threshold : Nat) (value : Int) : Int := value * liq_threshold / (BPS_DENOMINATOR + 1)

theorem healthy_iff_mostDebt {value debt : Int} {liq_threshold : Nat} (owes : 0 < debt) :
    BPS_DENOMINATOR < (value * liq_threshold).tdiv debt ↔ debt ≤ mostDebt liq_threshold value := by
  unfold mostDebt
  generalize value * liq_threshold = scaled
  rcases Int.le_total 0 scaled with nonneg | negative
  · rw [Int.tdiv_eq_ediv_of_nonneg nonneg,Int.le_ediv_iff_mul_le (by decide),← Int.add_one_le_iff,
      Int.le_ediv_iff_mul_le owes,mul_comm]
  · have nothing := tdiv_nonpos negative owes.le
    have none : scaled / (BPS_DENOMINATOR + 1) ≤ 0 := Int.ediv_nonpos_of_nonpos_of_neg negative (by decide)
    have bps : BPS_DENOMINATOR = 10000 := rfl
    omega

/-! ### Out of reach -/

theorem Position.accrued_now {p : Position} {now : Nat} (current : p.last_update = now) (rate : Nat) :
    p.accrued now rate = p := by
  have still : ¬ (0 < p.borrowed_amount ∧ 0 < now - p.last_update) := by omega
  rw [accrued,interest,if_neg still,add_zero,← current]

section Reach
variable {W : Type} (clients : Clients W)

/-- A token and the oracle tell what some shares of the token come to, and its price. -/
def Tells (env : Env) (oracle token : Address) (shares assets price : Int) (w : W) : Prop :=
  ∃ mid w', clients.assets_for_shares (env.calling token) shares w = some (assets, mid) ∧
    Quotes clients env oracle token price mid w'

/-- At a time at which `tells` holds of what is outside, the health factor of a
    user is above one, and whoever liquidates the user fails. -/
structure Secure (v : HelixVault) (user : Address) (now : Nat) (tells : Env → W → Prop) : Prop where
  factor : ∀ env w r, env.timestamp = now → tells env w →
    get_health_factor clients.apart env user ⟨v,w⟩ = .ok r → BPS_DENOMINATOR < r.1
  rejected : ∀ env w liquidator repay_amount r, env.timestamp = now → tells env w →
    liquidate clients.apart env liquidator user repay_amount ⟨v,w⟩ ≠ .ok r

variable {clients} {env : Env} {oracle token : Address} {shares assets price value : Int} {w w' : W}

/-- Shares are worth what the token and the oracle tell. -/
theorem Tells.worth (tells : Tells clients env oracle token shares assets price w)
    (values : Values clients env oracle token shares value w w') (some : shares ≠ 0) :
    value = (assets * price).tdiv PRICE_SCALAR := by
  obtain ⟨mid,_,converted,⟨⟨told,_,decimals,quoted,_⟩,_⟩⟩ := tells
  cases values with
  | nothing => exact absurd rfl some
  | shares _ _ _ _ _ _ _ converted' quotes =>
    rw [converted] at converted'
    cases converted'
    obtain ⟨⟨told',_,decimals',quoted',_⟩,_⟩ := quotes
    rw [decimals] at decimals'
    cases decimals'
    rw [quoted] at quoted'
    cases quoted'
    rfl

/-- A position that is healthy now keeps its user out of reach. -/
theorem secure_of_healthy {v : HelixVault} {user : Address} {now : Nat} {tells : Env → W → Prop} {p : Position}
    (stored : v.positions.get user = some p) (current : p.last_update = now)
    (primary : v.supported_assets.head? = some token)
    (healthy : ∀ env w w' factor, tells env w →
      Health clients env v.oracle_address token v.pool_config.liq_threshold p factor w w' → BPS_DENOMINATOR < factor) :
    Secure clients v user now tells where
  factor := by
    intro env w r time told answered
    obtain ⟨first,position,w',head,found,_,health,_⟩ := get_health_factor_ok.mp answered
    rw [primary] at head
    cases head
    rw [stored] at found
    cases found
    rw [time,Position.accrued_now current] at health
    exact healthy env w w' r.1 told health
  rejected := by
    intro env w liquidator repay_amount r time told done
    have effect := liquidate_effect done
    generalize r.1 = event at effect
    generalize r.2 = s' at effect
    cases effect with
    | liquidate _ _ _ actual bonus seized q left liquidates =>
      obtain ⟨first,factor,w',_,head,health,low,_⟩ := liquidates.steps
      simp only at head health
      rw [primary] at head
      cases head
      rw [HelixVault.charged,HelixVault.opened,stored,Option.getD_some,time,Position.accrued_now current] at health
      exact absurd low (not_le.mpr (healthy env w w' factor told health))
    | configured _ _ _ changed => cases changed

/-- A health factor that is read as one or less is in reach. -/
theorem not_secure {s : State W} {v : HelixVault} {user : Address} {tells : Env → W → Prop} {factor : Int}
    (own : s.own = some v) (answered : reply (get_health_factor clients.apart env user) s = some factor)
    (low : factor ≤ BPS_DENOMINATOR) (told : tells env s.rest) : ¬ Secure clients v user env.timestamp tells := by
  intro secure
  obtain ⟨w,t,found,ran⟩ := reply_some.mp answered
  rw [own] at found
  cases found
  exact absurd (secure.factor env s.rest (factor,t) rfl told ran) (not_lt.mpr low)

/-- The debt of a position is healthy for shares that come to some assets at some
    price. -/
def HealthyAt (liq_threshold : Nat) (p : Position) (assets price : Int) : Prop :=
  0 < p.borrowed_amount → p.deposited_shares ≠ 0 ∧
    p.borrowed_amount ≤ mostDebt liq_threshold ((assets * price).tdiv PRICE_SCALAR)

theorem health_above {liq_threshold : Nat} {p : Position} {factor : Int}
    (tells : Tells clients env oracle token p.deposited_shares assets price w)
    (health : Health clients env oracle token liq_threshold p factor w w')
    (healthy : HealthyAt liq_threshold p assets price) : BPS_DENOMINATOR < factor := by
  cases health with
  | debtless => decide
  | ratio value _ _ _ values owes =>
    obtain ⟨some,gate⟩ := healthy owes
    rw [tells.worth values some]
    exact (healthy_iff_mostDebt owes).mpr gate

/-- Nothing can be owed for no shares. -/
theorem Values.of_positive {least : Int} (values : Values clients env oracle token shares value w w')
    (positive : 0 < least) (part : least ≤ value) : shares ≠ 0 := by
  cases values with
  | nothing => omega
  | shares _ _ _ _ _ _ some => exact some

/-- A loan is healthy where less is lent than is liquidated at. -/
theorem borrow_keeps {s : World HelixVault W} {user : Address} {amount factor : Int} {p : Position}
    (borrows : Borrows clients env s user amount factor p w') (ltv : s.own.pool_config.max_ltv ≤ 10000)
    (above : s.own.pool_config.max_ltv < s.own.pool_config.liq_threshold)
    (primary : s.own.supported_assets.head? = some token)
    (tells : Tells clients env s.own.oracle_address token p.deposited_shares assets price s.rest) :
    HealthyAt s.own.pool_config.liq_threshold p assets price := by
  intro owes
  obtain ⟨first,_,_,_,head,⟨value,values,_,rfl⟩,within,_,_⟩ := borrows.covered
  rw [primary] at head
  cases head
  have healthy := healthy_of_allowed ltv above owes within
  have worth : p.borrowed_amount ≤ value := worth_of_allowed ltv owes within
  have some : p.deposited_shares ≠ 0 := values.of_positive owes worth
  rw [tells.worth values some] at healthy
  exact ⟨some,(healthy_iff_mostDebt owes).mp healthy⟩

/-- A withdrawal is healthy at the first token where that allows as much debt as
    the token that is taken. -/
theorem withdraw_keeps {s : World HelixVault W} {user : Address} {amount : Int} {p : Position} {taken : Address}
    (withdraws : Withdraws clients env s user taken amount p w')
    (allows : ∀ assets' price', Tells clients env s.own.oracle_address taken p.deposited_shares assets' price' s.rest →
      mostDebt s.own.pool_config.liq_threshold ((assets' * price').tdiv PRICE_SCALAR) ≤
        mostDebt s.own.pool_config.liq_threshold ((assets * price).tdiv PRICE_SCALAR)) :
    HealthyAt s.own.pool_config.liq_threshold p assets price := by
  intro owes
  obtain ⟨mid,healthy,_⟩ := withdraws.sent
  rw [Healthy,if_pos owes] at healthy
  obtain ⟨factor,health,high⟩ := healthy
  cases health with
  | debtless none => omega
  | ratio value _ _ _ values _ =>
    have gate := (healthy_iff_mostDebt owes).mp high
    generalize shares : p.deposited_shares = left at values allows ⊢
    cases values with
    | nothing => simp [mostDebt] at gate; omega
    | shares _ assets' price' _ mid _ some converted quotes =>
      exact ⟨some,gate.trans (allows assets' price' ⟨mid,_,converted,quotes⟩)⟩

variable {vault : Address} {r : Served W} {event : Option VaultEvent} {v v' : HelixVault} {user : Address}
  {amount : Int}

/-- What a loan that succeeded found and left. -/
theorem borrowed_of_makes (makes : Makes (serve clients vault) r) (input : r.input.2 = .vault (.borrow user amount))
    (out : r.output = .ok event) (found : r.before.state.own = some v) (left : r.after.state.own = some v') :
    ∃ factor p, Borrows clients (r.env vault) ⟨v,r.before.state.rest⟩ user amount factor p r.after.state.rest ∧
      v' = v.posted user p 0 amount := by
  obtain ⟨u,s',found',after,effect⟩ := called_of_makes makes input out nofun
  rw [found] at found'
  cases found'
  cases effect with
  | borrow _ _ factor p w borrows =>
    rw [after] at left ⊢
    cases left
    exact ⟨factor,p,borrows,rfl⟩
  | configured _ _ _ changed => cases changed

theorem withdrawn_of_makes {taken : Address} (makes : Makes (serve clients vault) r)
    (input : r.input.2 = .vault (.withdraw user taken amount)) (out : r.output = .ok event)
    (found : r.before.state.own = some v) (left : r.after.state.own = some v') :
    ∃ p, Withdraws clients (r.env vault) ⟨v,r.before.state.rest⟩ user taken amount p r.after.state.rest ∧
      v' = v.settled user p (-amount) 0 := by
  obtain ⟨u,s',found',after,effect⟩ := called_of_makes makes input out nofun
  rw [found] at found'
  cases found'
  cases effect with
  | withdraw _ _ _ p w withdraws =>
    rw [after] at left ⊢
    cases left
    exact ⟨p,withdraws,rfl⟩
  | configured _ _ _ changed => cases changed

end Reach

/-! ### Loans -/

/-- Under a configuration, in every run of a vault with any tokens and oracle, a
    loan leaves its borrower out of reach as long as price and rate of the first
    supported token are those at the loan. -/
def BorrowsSafely (config : PoolConfig) : Prop :=
  ∀ (W : Type) (clients : Clients W) (vault : Address) (clock : Clock) (w : W) (calls : List (Origin × Action W))
    (origin : Origin) (user : Address) (amount : Int),
    let r : Served W := transition (serve clients vault) (run (serve clients vault) (undeployed clock w) calls)
      (origin,.vault (.borrow user amount))
    ∀ v v' p token assets price event, r.output = .ok event → r.before.state.own = some v → v.pool_config = config →
      r.after.state.own = some v' → v'.positions.get user = some p → v'.supported_assets.head? = some token →
      Tells clients (r.env vault) v'.oracle_address token p.deposited_shares assets price r.before.state.rest →
      Secure clients v' user r.clock.timestamp
        (fun env w => Tells clients env v'.oracle_address token p.deposited_shares assets price w)

theorem borrowsSafely_of_lt {config : PoolConfig} (ltv : config.max_ltv ≤ 10000)
    (above : config.max_ltv < config.liq_threshold) : BorrowsSafely config := by
  intro W clients vault clock w calls origin user amount r v v' p token assets price event out found same left stored
    primary tells
  obtain ⟨factor,q,borrows,rfl⟩ := borrowed_of_makes (transition_makes _ _) rfl out found left
  subst same
  have written : (v.posted user q 0 amount).positions.get user = some q := Store.get_set_same _ _ _
  rw [written] at stored
  cases stored
  refine secure_of_healthy written ?_ primary ?_
  · rw [borrows.position]
    rfl
  · intro env w w' factor told health
    exact health_above told health (borrow_keeps borrows ltv above primary tells)

namespace Small

/-- What the vault holds of every token. -/
abbrev Till : Type := Address → Int

/-- Tokens that only know what the vault holds, whatever their shares come to ten
    thousand, at a price of one. -/
def tills : Clients Till where
  balance env _ w := some (w env.current_contract_address, w)
  transfer env _ _ amount w :=
    some ((), fun token => if token = env.current_contract_address then w token - amount else w token)
  transfer_from env _ _ _ amount w :=
    some ((), fun token => if token = env.current_contract_address then w token + amount else w token)
  assets_for_shares _ _ w := some (10000, w)
  shares_for_assets _ assets w := some (assets, w)
  lastprice env _ w := some ((10000000, env.timestamp), w)
  decimals _ _ w := some (7, w)

def till : Till := fun token => if token = borrow_token then 10000 else 0

/-- A vault with a deposit of the least size, under any configuration. -/
def margin (config : PoolConfig) : HelixVault :=
  { fresh admin oracle borrow_token config with
    supported_assets := [tokenA]
    positions := Store.empty.set userA ⟨config.min_position,0,15⟩
    total_deposits := config.min_position }

def deposited (config : PoolConfig) : Till := fun token => if token = tokenA then config.min_position else till token

/-- The calls that lead there. -/
def depositing (config : PoolConfig) : List (Origin × Action Till) :=
  [calls admin (.initialise admin oracle borrow_token config),calls admin (.add_supported_asset tokenA),
    calls userA (.deposit userA tokenA config.min_position)]

/-- The vault before the deposit. -/
def listed (config : PoolConfig) : HelixVault :=
  { fresh admin oracle borrow_token config with supported_assets := [tokenA] }

/-- What user A's third call sees. -/
def thirdCall : Env := (Origin.signedBy userA).env ⟨3,15⟩ vault

theorem listed_opened (config : PoolConfig) (now : Nat) : (listed config).opened now userA = ⟨0,0,now⟩ := rfl

theorem deposit_allowed {config : PoolConfig} (valid : ValidConfig config) (fits : Fits config.min_position) :
    Deposits tills thirdCall ⟨listed config,till⟩ userA tokenA config.min_position ⟨config.min_position,0,15⟩
      (deposited config) where
  asked := ⟨valid.1,Origin.signedBy_authorised _ _ _,rfl⟩
  unpaused := rfl
  supported := List.mem_singleton_self _
  chargeable := fun both => absurd both.1 (Int.lt_irrefl 0)
  received := by
    have left : (fun token => if token = tokenA then till token + config.min_position else till token) =
        deposited config := by
      funext token
      by_cases same : token = tokenA
      · simp [deposited,same,till,show tokenA ≠ borrow_token by decide]
      · simp [deposited,same]
    refine ⟨0,config.min_position,till,deposited config,rfl,?_,rfl,by simpa using fits,by simp⟩
    rw [← left]
    rfl
  fits := by simpa [HelixVault.charged,listed_opened] using fits
  position := by simp [HelixVault.charged,Position.accrued,Position.interest,listed_opened,thirdCall,Origin.env]
  sizable := .inr le_rfl
  total := by simpa [listed,fresh] using fits

theorem margin_reached {config : PoolConfig} (valid : ValidConfig config) (fits : Fits config.min_position) :
    run (serve tills vault) (undeployed ⟨0,0⟩ till) (depositing config) =
      ⟨⟨3,15⟩,⟨some (margin config),deposited config⟩⟩ := by
  have first : serve tills vault (undeployed ⟨0,0⟩ till)
      (calls admin (.initialise admin oracle borrow_token config)) =
      (.ok none, ⟨⟨1,5⟩,⟨some (fresh admin oracle borrow_token config),till⟩⟩) := by
    apply deliver_ok
    show initialise _ admin oracle borrow_token config _ = _
    simp only [initialise,bind_ok,auth_ok,validate_config_ok,save_ok,pure_ok,and_assoc,exists_and_left,exists_eq_left]
    exact ⟨Origin.signedBy_authorised _ _ _,valid,rfl⟩
  have second : serve tills vault ⟨⟨1,5⟩,⟨some (fresh admin oracle borrow_token config),till⟩⟩
      (calls admin (.add_supported_asset tokenA)) = (.ok none, ⟨⟨2,10⟩,⟨some (listed config),till⟩⟩) := by
    apply deliver_ok
    show invoke tills.apart ((Origin.signedBy admin).env ⟨2,10⟩ vault) (.add_supported_asset tokenA)
      ⟨some (fresh admin oracle borrow_token config),till⟩ = .ok (none, ⟨some (listed config),till⟩)
    refine invoke_of_call (t := ⟨listed config,till⟩) rfl ?_
    simp only [call,add_supported_asset,bind_ok,require_admin_auth_ok,save_ok,pure_ok,and_assoc,exists_and_left,
      exists_eq_left]
    exact ⟨Origin.signedBy_authorised _ _ _,rfl⟩
  have third : serve tills vault ⟨⟨2,10⟩,⟨some (listed config),till⟩⟩
      (calls userA (.deposit userA tokenA config.min_position)) =
      (.ok (some (.deposit userA tokenA config.min_position ⟨config.min_position,0,15⟩)),
        ⟨⟨3,15⟩,⟨some (margin config),deposited config⟩⟩) := by
    apply deliver_ok
    have same : (listed config).posted userA ⟨config.min_position,0,15⟩ config.min_position 0 = margin config := by
      simp [HelixVault.posted,listed,margin,fresh]
    rw [← same]
    show invoke tills.apart thirdCall (.deposit userA tokenA config.min_position) ⟨some (listed config),till⟩ =
      .ok (_, ⟨some (HelixVault.posted _ _ _ _ _),deposited config⟩)
    exact invoke_of_call (t := ⟨_,deposited config⟩) rfl (deposit_returns (deposit_allowed valid fits))
  rw [depositing,run,first,run,second,run,third,run]

/-- What user A's fourth call sees. -/
def fourthCall : Env := (Origin.signedBy userA).env ⟨4,20⟩ vault

theorem till_quotes (env : Env) (w : Till) : Quotes tills env oracle tokenA 10000000 w w where
  answers := by
    refine ⟨w,env.timestamp,rfl,rfl,?_⟩
    rw [Nat.sub_self]
    exact Nat.zero_le _
  positive := by decide

theorem till_tells (env : Env) (shares : Int) (w : Till) : Tells tills env oracle tokenA shares 10000 10000000 w :=
  ⟨w,w,rfl,till_quotes env w⟩

theorem till_values (env : Env) {shares : Int} (some : shares ≠ 0) (w : Till) :
    Values tills env oracle tokenA shares 10000 w w :=
  .shares shares 10000 10000000 w w w some rfl (till_quotes env w) (by decide)

theorem part_fits {part : Nat} (small : part ≤ 10000) : Fits (10000 * part) :=
  ⟨by unfold i128Min; omega,by unfold i128Max; omega⟩

/-- The health of a debt of all that may be lent for ten thousand. -/
theorem till_health {config : PoolConfig} (valid : ValidConfig config) (env : Env) (now : Nat) (w : Till) :
    Health tills env oracle tokenA config.liq_threshold ⟨config.min_position,config.max_ltv,now⟩
      ((10000 * config.liq_threshold : Int).tdiv config.max_ltv) w w := by
  have size := valid.1
  have lends := valid.2.1
  have some : config.min_position ≠ 0 := by omega
  have positive : (0 : Int) < config.max_ltv := by omega
  exact .ratio 10000 _ _ positive.ne' (till_values env some w) positive (part_fits valid.2.2.2.2.1)

/-- What the vault holds after the loan. -/
def lentOut (config : PoolConfig) : Till := fun token =>
  if token = borrow_token then deposited config token - config.max_ltv else deposited config token

theorem deposited_borrowable (config : PoolConfig) : deposited config borrow_token = 10000 := by
  simp [deposited,till,show borrow_token ≠ tokenA by decide]

theorem loan_lent {config : PoolConfig} (valid : ValidConfig config) :
    Lent tills fourthCall borrow_token userA config.max_ltv (deposited config) (lentOut config) where
  sent := by
    have left : lentOut config borrow_token = 10000 - config.max_ltv := by
      simp [lentOut,deposited_borrowable]
    have whole : (10000 : Int) - (10000 - config.max_ltv) = config.max_ltv := by omega
    have small := valid.2.2.1
    refine ⟨10000,10000 - config.max_ltv,deposited config,lentOut config,?_,rfl,?_,?_,whole⟩
    · rw [← deposited_borrowable config]
      rfl
    · rw [← left]
      rfl
    · rw [whole]
      exact ⟨by unfold i128Min; omega,by unfold i128Max; omega⟩
  covered := by
    refine ⟨10000,deposited config,?_,by exact_mod_cast valid.2.2.1⟩
    rw [← deposited_borrowable config]
    rfl

theorem margin_charged (config : PoolConfig) (now : Nat) :
    (margin config).charged now userA = ⟨config.min_position,0,now⟩ := rfl

/-- The deposit is borrowed against as far as the configuration allows. -/
theorem loan_allowed {config : PoolConfig} (valid : ValidConfig config) :
    Borrows tills fourthCall ⟨margin config,deposited config⟩ userA config.max_ltv
      ((10000 * config.liq_threshold : Int).tdiv config.max_ltv) ⟨config.min_position,config.max_ltv,20⟩
      (lentOut config) := by
  have size := valid.1
  have lends := valid.2.1
  have some : config.min_position ≠ 0 := by omega
  have positive : (0 : Int) < config.max_ltv := by omega
  have whole : (10000 * config.max_ltv : Int).tdiv BPS_DENOMINATOR = config.max_ltv :=
    Int.mul_tdiv_cancel_left _ (by decide)
  have owed : Fits config.max_ltv := by
    have small := valid.2.2.1
    exact ⟨by unfold i128Min; omega,by unfold i128Max; omega⟩
  refine ⟨⟨positive,Origin.signedBy_authorised _ _ _,rfl⟩,rfl,fun both => absurd both.1 (Int.lt_irrefl 0),?_,?_,?_,?_⟩
  · simpa [margin_charged] using owed
  · simp [margin_charged,fourthCall,Origin.env]
  · exact ⟨tokenA,_,deposited config,lentOut config,rfl,⟨10000,till_values _ some _,part_fits valid.2.2.1,rfl⟩,
      whole.ge,loan_lent valid,till_health valid _ _ _⟩
  · simpa [margin,fresh] using owed

/-- The vault after the loan. -/
def indebted (config : PoolConfig) : HelixVault :=
  (margin config).posted userA ⟨config.min_position,config.max_ltv,20⟩ 0 config.max_ltv

theorem loan_made {config : PoolConfig} (valid : ValidConfig config) :
    serve tills vault ⟨⟨3,15⟩,⟨some (margin config),deposited config⟩⟩ (calls userA (.borrow userA config.max_ltv)) =
      (.ok (some (.borrow userA config.max_ltv ((10000 * config.liq_threshold : Int).tdiv config.max_ltv))),
        ⟨⟨4,20⟩,⟨some (indebted config),lentOut config⟩⟩) := by
  apply deliver_ok
  show invoke tills.apart fourthCall (.borrow userA config.max_ltv) ⟨some (margin config),deposited config⟩ =
    .ok (_, ⟨some (HelixVault.posted _ _ _ _ _),lentOut config⟩)
  exact invoke_of_call (t := ⟨_,lentOut config⟩) rfl (borrow_returns (loan_allowed valid))

/-- What the loan leaves its borrower with. -/
theorem indebted_factor {config : PoolConfig} (valid : ValidConfig config) :
    get_health_factor tills.apart fourthCall userA ⟨indebted config,lentOut config⟩ =
      .ok ((10000 * config.liq_threshold : Int).tdiv config.max_ltv, ⟨indebted config,lentOut config⟩) := by
  have stored : (indebted config).positions.get userA = some ⟨config.min_position,config.max_ltv,20⟩ :=
    Store.get_set_same _ _ _
  have current : (⟨config.min_position,config.max_ltv,20⟩ : Position).accrued fourthCall.timestamp
      (indebted config).pool_config.interest_rate = _ := Position.accrued_now rfl _
  refine get_health_factor_ok.mpr ⟨tokenA,_,lentOut config,rfl,stored,fun both => absurd both.2 (Nat.lt_irrefl 0),?_,rfl⟩
  rw [current]
  exact till_health valid _ _ _

end Small

/-- Where no more is liquidated at than is lent, a run leads to a loan whose
    borrower is within reach at once. -/
theorem not_borrowsSafely {config : PoolConfig} (valid : ValidConfig config) (fits : Fits config.min_position)
    (below : config.liq_threshold ≤ config.max_ltv) : ¬ BorrowsSafely config := by
  intro safe
  have lends : (0 : Int) < config.max_ltv := by
    have positive := valid.2.1
    omega
  have reached := Small.margin_reached valid fits
  have secure := safe Small.Till Small.tills Small.vault ⟨0,0⟩ Small.till (Small.depositing config)
    (.signedBy Small.userA) Small.userA config.max_ltv
  rw [reached] at secure
  unfold transition at secure
  rw [show (Origin.signedBy Small.userA, Action.vault (Entry.borrow Small.userA config.max_ltv)) =
    Small.calls Small.userA (.borrow Small.userA config.max_ltv) from rfl,Small.loan_made valid] at secure
  have above := (secure (Small.margin config) (Small.indebted config) ⟨config.min_position,config.max_ltv,20⟩
    Small.tokenA 10000 10000000 _ rfl rfl rfl rfl (Store.get_set_same _ _ _) rfl (Small.till_tells _ _ _)).factor
    Small.fourthCall _ _ rfl (Small.till_tells _ _ _) (Small.indebted_factor valid)
  have most : (10000 * config.liq_threshold : Int).tdiv config.max_ltv ≤ 10000 := by
    rw [Int.tdiv_eq_ediv_of_nonneg (by omega)]
    exact Int.ediv_le_of_le_mul lends (by omega)
  exact absurd above (not_lt.mpr most)

/-- A configuration that `validate_config` accepts keeps every borrower out of reach
    exactly if it lends a smaller part of the collateral than it liquidates at. -/
theorem borrow_safe_iff {config : PoolConfig} (valid : ValidConfig config) (fits : Fits config.min_position) :
    BorrowsSafely config ↔ config.max_ltv < config.liq_threshold := by
  constructor
  · intro safe
    by_contra below
    exact not_borrowsSafely valid fits (by omega) safe
  · exact borrowsSafely_of_lt valid.2.2.1

theorem borrow_safe_small : BorrowsSafely Small.config :=
  (borrow_safe_iff (by unfold ValidConfig; decide) (by decide)).mpr (by decide)

namespace Small

/-- More is lent than is liquidated at. -/
def reversed : PoolConfig := { config with max_ltv := 9000 }

/-- A deposit of a million under that configuration, with user B as a liquidator. -/
def reversing : List (Origin × Action Purse) :=
  [calls admin (.initialise admin oracle borrow_token reversed),calls admin (.add_supported_asset tokenA),
    calls admin (.grant_role userB LIQUIDATOR_ROLE),calls userA (.deposit userA tokenA 1000000)]

def reversedLoan : Served Purse := transition step (run step start reversing) (calls userA (.borrow userA 900000))

theorem small_tells (env : Env) (token : Address) (shares : Int) (w : Purse) :
    Tells clients env oracle token shares shares 10000000 w := by
  refine ⟨w,w,rfl,⟨⟨w,env.timestamp,rfl,rfl,?_⟩,by decide⟩⟩
  rw [Nat.sub_self]
  exact Nat.zero_le _

end Small

/-- A configuration that is accepted lends 900000 on a million that is liquidated at
    800000: the borrower is liquidated in the ledger of the loan. -/
theorem borrower_liquidated :
    (ValidConfig Small.reversed ∧ ¬ BorrowsSafely Small.reversed) ∧
      (transition Small.step Small.reversedLoan.after ({ Origin.signedBy Small.userB with ledgers := 0, seconds := 0 },
        .vault (.liquidate Small.userB Small.userA 100000))).output.toOption.isSome = true := by
  refine ⟨⟨by unfold ValidConfig; decide,?_⟩,by decide +kernel⟩
  intro safe
  have before : Small.reversedLoan.before.state.own.map (fun v => v.pool_config) = some Small.reversed := by
    decide +kernel
  have after : Small.reversedLoan.after.state.own.map (fun v =>
      (v.positions.get Small.userA,v.supported_assets.head?,v.oracle_address)) =
      some (some ⟨1000000,900000,25⟩,some Small.tokenA,Small.oracle) := by decide +kernel
  have factor : reply (get_health_factor Small.clients.apart (Small.reversedLoan.env Small.vault) Small.userA)
      Small.reversedLoan.after.state = some 8888 := by decide +kernel
  obtain ⟨event,out⟩ := ok_of_toOption (show Small.reversedLoan.output.toOption.isSome = true by decide +kernel)
  obtain ⟨v,found,config⟩ := Option.map_eq_some_iff.mp before
  obtain ⟨v',left,facts⟩ := Option.map_eq_some_iff.mp after
  obtain ⟨stored,primary,told⟩ := Prod.ext_iff.mp facts |>.imp id Prod.ext_iff.mp
  have secure := safe Small.Purse Small.clients Small.vault ⟨0,0⟩ Small.purse Small.reversing (.signedBy Small.userA)
    Small.userA 900000 v v' ⟨1000000,900000,25⟩ Small.tokenA 1000000 10000000 event out found config left stored primary
  have told' : v'.oracle_address = Small.oracle := told
  rw [told'] at secure
  exact not_secure left factor (by decide) (Small.small_tells _ _ _ _) (secure (Small.small_tells _ _ _ _))

/-! ### Withdrawals -/

section Withdrawals
variable {W : Type} (clients : Clients W) (vault : Address)

/-- A withdrawal that leaves a debt leaves its user out of reach as long as price
    and rate of the first supported token are those at the withdrawal. -/
def WithdrawsSafely (r : Served W) (user : Address) : Prop :=
  ∀ v' p primary assets price event, r.output = .ok event → r.after.state.own = some v' →
    v'.positions.get user = some p → 0 < p.borrowed_amount → v'.supported_assets.head? = some primary →
    Tells clients (r.env vault) v'.oracle_address primary p.deposited_shares assets price r.before.state.rest →
    Secure clients v' user r.clock.timestamp
      (fun env w => Tells clients env v'.oracle_address primary p.deposited_shares assets price w)

/-- The token that is taken is the first one, or the first one allows no less debt
    for the shares that stay. -/
def AllowsNoLess (r : Served W) (user taken : Address) (amount : Int) : Prop :=
  ∀ v q primary assets price assets' price', r.before.state.own = some v → v.positions.get user = some q →
    v.supported_assets.head? = some primary →
    Tells clients (r.env vault) v.oracle_address primary (q.deposited_shares - amount) assets price
      r.before.state.rest →
    Tells clients (r.env vault) v.oracle_address taken (q.deposited_shares - amount) assets' price'
      r.before.state.rest →
    taken = primary ∨ mostDebt v.pool_config.liq_threshold ((assets' * price').tdiv PRICE_SCALAR) ≤
      mostDebt v.pool_config.liq_threshold ((assets * price).tdiv PRICE_SCALAR)

variable {clients vault}

theorem Tells.unique {env : Env} {oracle token : Address} {shares assets price assets' price' : Int} {w : W}
    (tells : Tells clients env oracle token shares assets price w)
    (again : Tells clients env oracle token shares assets' price' w) : assets' = assets ∧ price' = price := by
  obtain ⟨_,_,converted,⟨⟨_,_,decimals,quoted,_⟩,_⟩⟩ := tells
  obtain ⟨_,_,converted',⟨⟨_,_,decimals',quoted',_⟩,_⟩⟩ := again
  rw [converted] at converted'
  cases converted'
  rw [decimals] at decimals'
  cases decimals'
  rw [quoted] at quoted'
  cases quoted'
  exact ⟨rfl,rfl⟩

theorem withdrawsSafely_of_allows {r : Served W} {user taken : Address} {amount : Int}
    (makes : Makes (serve clients vault) r) (input : r.input.2 = .vault (.withdraw user taken amount))
    (allows : AllowsNoLess clients vault r user taken amount) : WithdrawsSafely clients vault r user := by
  intro v' p primary assets price event out left stored _ head tells
  obtain ⟨v,_,found,_⟩ := called_of_makes makes input out nofun
  obtain ⟨_,withdraws,rfl⟩ := withdrawn_of_makes makes input out found left
  obtain ⟨_,rfl⟩ | ⟨other,_⟩ := HelixVault.settled_stored stored
  case inr => exact absurd rfl other
  refine secure_of_healthy stored ?_ head ?_
  · rw [withdraws.position]
    rfl
  intro env w w' factor told health
  refine health_above told health (withdraw_keeps withdraws ?_)
  intro assets' price' tells'
  obtain ⟨q,(held : v.positions.get user = some q)⟩ := Option.isSome_iff_exists.mp withdraws.stored
  have shares : p.deposited_shares = q.deposited_shares - amount := by
    rw [withdraws.position]
    simp only [HelixVault.charged,HelixVault.opened,held,Option.getD_some,Position.accrued_shares]
  rw [shares] at tells tells'
  rcases allows v q primary assets price assets' price' found held head tells tells' with rfl | less
  · obtain ⟨rfl,rfl⟩ := tells.unique tells'
    exact le_rfl
  · exact less

/-- In every run of a vault with any tokens and oracle, a withdrawal leaves its user
    out of reach if it takes the first supported token, or if that one allows no
    less debt for the shares that stay than the token it takes. -/
theorem withdraw_safe (clients : Clients W) (vault : Address) (clock : Clock) (w : W)
    (calls : List (Origin × Action W)) (origin : Origin) (user taken : Address) (amount : Int) :
    let r : Served W := transition (serve clients vault) (run (serve clients vault) (undeployed clock w) calls)
      (origin,.vault (.withdraw user taken amount))
    AllowsNoLess clients vault r user taken amount → WithdrawsSafely clients vault r user :=
  fun allows => withdrawsSafely_of_allows (transition_makes _ _) rfl allows

end Withdrawals

namespace Small

/-- A loan of half of a deposit, of which a tenth is withdrawn. -/
def eased : Served Purse :=
  transition step (run step start (opening ++ [calls userA (.deposit userA tokenA 1000000),
    calls userA (.borrow userA 500000)])) (calls userA (.withdraw userA tokenA 100000))

end Small

theorem withdraw_safe_eased :
    WithdrawsSafely Small.clients Small.vault Small.eased Small.userA ∧ Small.eased.output.toOption.isSome = true := by
  refine ⟨?_,by decide +kernel⟩
  apply withdraw_safe Small.clients Small.vault ⟨0,0⟩ Small.purse (Small.opening ++
    [Small.calls Small.userA (.deposit Small.userA Small.tokenA 1000000),
      Small.calls Small.userA (.borrow Small.userA 500000)]) (.signedBy Small.userA) Small.userA Small.tokenA 100000
  intro v q primary assets price assets' price' found _ head _ _
  have first : Small.eased.before.state.own.map (fun v => v.supported_assets.head?) = some (some Small.tokenA) := by
    decide +kernel
  rw [show Small.eased.before.state.own = some v from found,Option.map_some,head,Option.some.injEq,
    Option.some.injEq] at first
  exact .inl first.symm

namespace Small

/-- An oracle that quotes ten for token B and one for every other. -/
def unevenClients : Clients Purse :=
  { clients with
    lastprice := fun env asset w => some ((if asset = tokenB then 100000000 else 10000000, env.timestamp), w) }

abbrev unevenStep : Chain (State Purse) → Origin × Action Purse → Except (Failure VaultError) (Option VaultEvent) ×
    Chain (State Purse) := serve unevenClients vault

/-- A debt of 1500000 on a million of each of two tokens, all of which count as token
    A for a loan. -/
def mixed : List (Origin × Action Purse) :=
  opening ++ [calls admin (.add_supported_asset tokenB),calls userA (.deposit userA tokenA 1000000),
    calls userA (.deposit userA tokenB 1000000),calls userA (.borrow userA 1500000)]

/-- Most of token B is withdrawn. -/
def mixedWithdrawal : Served Purse :=
  transition unevenStep (run unevenStep start mixed) (calls userA (.withdraw userA tokenB 900000))

theorem uneven_tells (env : Env) (shares : Int) (w : Purse) :
    Tells unevenClients env oracle tokenA shares shares 10000000 w := by
  refine ⟨w,w,rfl,⟨⟨w,env.timestamp,rfl,rfl,?_⟩,by decide⟩⟩
  rw [Nat.sub_self]
  exact Nat.zero_le _

end Small

/-- At token B the position is worth 11000000 and the withdrawal goes through; at
    token A it is worth 1100000, less than it owes. -/
theorem withdrawal_liquidatable :
    ¬ WithdrawsSafely Small.unevenClients Small.vault Small.mixedWithdrawal Small.userA := by
  intro safe
  have after : Small.mixedWithdrawal.after.state.own.map (fun v =>
      (v.positions.get Small.userA,v.supported_assets.head?,v.oracle_address)) =
      some (some ⟨1100000,1500000,35⟩,some Small.tokenA,Small.oracle) := by decide +kernel
  have factor : reply (get_health_factor Small.unevenClients.apart (Small.mixedWithdrawal.env Small.vault) Small.userA)
      Small.mixedWithdrawal.after.state = some 5866 := by decide +kernel
  obtain ⟨event,out⟩ := ok_of_toOption (show Small.mixedWithdrawal.output.toOption.isSome = true by decide +kernel)
  obtain ⟨v',left,facts⟩ := Option.map_eq_some_iff.mp after
  obtain ⟨stored,primary,told⟩ := Prod.ext_iff.mp facts |>.imp id Prod.ext_iff.mp
  have secure := safe v' ⟨1100000,1500000,35⟩ Small.tokenA 1100000 10000000 event out left stored (by decide) primary
  have told' : v'.oracle_address = Small.oracle := told
  rw [told'] at secure
  exact not_secure left factor (by decide) (Small.uneven_tells _ _ _) (secure (Small.uneven_tells _ _ _))

end Helix.Vault
