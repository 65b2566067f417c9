import Mathlib.Data.Rat.Floor
import Mathlib.Tactic.Linarith
import Helix.TokenConversions
import Helix.VaultExit

/-!
What a liquidation takes from a position in shares. A repayment with its bonus is
turned into assets at the price of the oracle and into shares at the rate of the
token, rounded down each time, so what is taken is worth no more than what is paid
for; and a position that covers its debt with the bonus is covered no less after
the liquidation (`liquidation_bounded`).
-/
namespace Helix

/-! ### Ratios -/

/-- A payment for which no more is taken than its part of the whole keeps the ratio. -/
theorem ratio_le_of_part {F : Type} [Field F] [LinearOrder F] [IsStrictOrderedRing F] {value debt taken paid : F}
    (owes : 0 < debt) (left : paid < debt) (part : taken * debt ≤ value * paid) : value / debt ≤ (value - taken) / (debt - paid) := by
  rw [div_le_div_iff₀ owes (sub_pos.mpr left),mul_sub,sub_mul]
  exact sub_le_sub_left part _

namespace Vault
open Invoke
open Token (HelixToken)

namespace HelixVault
variable (v : HelixVault)

/-- The bonus for a repayment. -/
def bonusFor (repaid : Int) : Int := (repaid * v.pool_config.liq_bonus).tdiv BPS_DENOMINATOR

/-- The assets at a price that a repayment with its bonus comes to. -/
def assetsFor (price repaid : Int) : Int := ((repaid + v.bonusFor repaid) * PRICE_SCALAR).tdiv price

/-- The shares a repayment takes at a price and the rate of a token. -/
def seizure (t : HelixToken) (price repaid : Int) : Int := t.sharesFor (v.assetsFor price repaid)

variable {v} {t : HelixToken} {price repaid : Int}

theorem bonusFor_nonneg (nonneg : 0 ≤ repaid) : 0 ≤ v.bonusFor repaid :=
  Int.tdiv_nonneg (Int.mul_nonneg nonneg (Int.natCast_nonneg _)) (by decide)

theorem assetsFor_nonneg (nonneg : 0 ≤ repaid) (priced : 0 < price) : 0 ≤ v.assetsFor price repaid := by
  have bonus := v.bonusFor_nonneg nonneg
  exact Int.tdiv_nonneg (Int.mul_nonneg (by omega) (by decide)) priced.le

/-- What is taken is worth no more than the repayment with its bonus. -/
theorem seizure_worth (nonneg : 0 ≤ repaid) (priced : 0 < price) (supplied : 0 < t.total_shares)
    (valued : 0 < t.total_assets) : v.seizure t price repaid * t.total_assets * price ≤
      (repaid + v.bonusFor repaid) * (t.total_shares * PRICE_SCALAR) := by
  have bonus := v.bonusFor_nonneg nonneg
  have assets := v.assetsFor_nonneg nonneg priced
  have converted : v.seizure t price repaid * t.total_assets ≤ v.assetsFor price repaid * t.total_shares := by
    unfold seizure HelixToken.sharesFor
    rw [Int.tdiv_eq_ediv_of_nonneg (Int.mul_nonneg assets supplied.le)]
    exact Int.ediv_mul_le _ valued.ne'
  have quoted : v.assetsFor price repaid * price ≤ (repaid + v.bonusFor repaid) * PRICE_SCALAR := by
    unfold assetsFor
    rw [Int.tdiv_eq_ediv_of_nonneg (Int.mul_nonneg (by omega) (by decide))]
    exact Int.ediv_mul_le _ priced.ne'
  calc v.seizure t price repaid * t.total_assets * price
      ≤ v.assetsFor price repaid * t.total_shares * price := Int.mul_le_mul_of_nonneg_right converted priced.le
    _ = v.assetsFor price repaid * price * t.total_shares := by rw [mul_right_comm]
    _ ≤ (repaid + v.bonusFor repaid) * PRICE_SCALAR * t.total_shares :=
        Int.mul_le_mul_of_nonneg_right quoted supplied.le
    _ = (repaid + v.bonusFor repaid) * (t.total_shares * PRICE_SCALAR) := by rw [mul_assoc,mul_comm PRICE_SCALAR]

end HelixVault

/-! ### Contracts that leave the rate -/

variable {O : Type}

/-- The totals of the share token, whose quotient is the rate. -/
def Ground.rate (w : Ground O) : Option (Int × Int) := w.token.map (fun t => (t.total_shares,t.total_assets))

/-- What is drawn from the other tokens and asked of the oracle does not move the
    totals of the share token. -/
structure KeepsRate (foreign : Clients (Ground O)) : Prop where
  balance : ∀ env id w answer w', foreign.balance env id w = some (answer, w') → w'.rate = w.rate
  transfer_from : ∀ env spender owner recipient amount w answer w',
    foreign.transfer_from env spender owner recipient amount w = some (answer, w') → w'.rate = w.rate
  lastprice : ∀ env asset w answer w', foreign.lastprice env asset w = some (answer, w') → w'.rate = w.rate
  decimals : ∀ env asset w answer w', foreign.decimals env asset w = some (answer, w') → w'.rate = w.rate

/-- A transfer does not move the totals. -/
theorem transfer_rate {env : Env} {entry : Token.Entry} {w w' : Ground O}
    (moves : (∃ owner recipient amount, entry = .transfer owner recipient amount) ∨
      ∃ spender owner recipient amount, entry = .transfer_from spender owner recipient amount)
    (called : w.call env entry = some ((), w')) : w'.rate = w.rate := by
  unfold Ground.call at called
  split at called
  · rename_i u t' ran
    cases called
    rcases Token.invoke_cases ran with ⟨t,u,found,left,effect⟩ | ⟨_,admin,vault,bridge,made,_⟩
    · subst left
      rw [Ground.rate,Ground.rate,found]
      rcases moves with ⟨owner,recipient,amount,rfl⟩ | ⟨spender,owner,recipient,amount,rfl⟩
      · cases effect
        rfl
      · cases effect with
        | transfer_from _ _ _ _ u _ _ spent =>
          show some (u.total_shares,u.total_assets) = some (t.total_shares,t.total_assets)
          rw [spent.shares,spent.assets]
    · rcases moves with ⟨_,_,_,rfl⟩ | ⟨_,_,_,_,rfl⟩ <;> cases made
  · cases called

section Rates
variable {hstETH : Address} {foreign : Clients (Ground O)} {env : Env} {w w' : Ground O}

theorem asked_rate {callee : Address} {question : Token.Contract Int} {elsewhere : Ground O → Option (Int × Ground O)}
    (keeps : ∀ w answer w', elsewhere w = some (answer, w') → w'.rate = w.rate) {x : Int}
    (asked : (if callee = hstETH then Ground.ask question else elsewhere) w = some (x, w')) : w'.rate = w.rate := by
  split at asked
  · rw [ask_same asked]
  · exact keeps _ _ _ asked

/-- Asking for the worth of shares does not move the totals. -/
theorem KeepsRate.asking (keeps : KeepsRate foreign) :
    (sharesAt hstETH foreign).Asking (env.calling hstETH) (Same Ground.rate) where
  assets_for_shares shares w answer w' converted := by
    have here : (env.calling hstETH).current_contract_address = hstETH := rfl
    simp only [sharesAt,if_pos here] at converted
    rw [ask_same converted]
  lastprice := keeps.lastprice
  decimals := keeps.decimals

theorem Received.rate (keeps : KeepsRate foreign) {token owner : Address} {amount : Int}
    (received : Received (sharesAt hstETH foreign) env token owner amount w w') : w'.rate = w.rate := by
  refine received.within (R := Same Ground.rate) (fun id w answer w' read => asked_rate (keeps.balance _ _) read) ?_
  intro spender owner recipient amount w answer w' moved
  by_cases here : (env.calling token).current_contract_address = hstETH
  · simp only [sharesAt,if_pos here] at moved
    exact transfer_rate (.inr ⟨_,_,_,_,rfl⟩) moved
  · simp only [sharesAt,if_neg here] at moved
    exact keeps.transfer_from _ _ _ _ _ _ _ _ moved

theorem Sent.rate (keeps : KeepsRate foreign) {recipient : Address} {amount : Int}
    (sent : Sent (sharesAt hstETH foreign) env hstETH recipient amount w w') : w'.rate = w.rate := by
  refine sent.within (R := Same Ground.rate) (fun id w answer w' read => asked_rate (keeps.balance _ _) read) ?_
  intro owner recipient amount w answer w' moved
  have here : (env.calling hstETH).current_contract_address = hstETH := rfl
  simp only [sharesAt,if_pos here] at moved
  exact transfer_rate (.inl ⟨_,_,_,rfl⟩) moved

/-- The share token as it is elsewhere, with the totals that it has here. -/
theorem token_of_rate {t : HelixToken} (found : w.token = some t) (same : w'.rate = w.rate) :
    ∃ u, w'.token = some u ∧ u.total_shares = t.total_shares ∧ u.total_assets = t.total_assets := by
  rw [Ground.rate,Ground.rate,found,Option.map_some] at same
  obtain ⟨u,left,totals⟩ := Option.map_eq_some_iff.mp same
  obtain ⟨shares,assets⟩ := Prod.mk.inj totals
  exact ⟨u,left,shares,assets⟩

/-- What the share token answers for the assets of a repayment. -/
theorem asked_shares {assets shares : Int} {t : HelixToken} (found : w.token = some t) (valued : t.total_assets ≠ 0)
    (asked : w.ask (Token.shares_for_assets assets) = some (shares, w')) : shares = t.sharesFor assets := by
  rw [Ground.ask,found,Option.bind_some,Option.map_eq_some_iff] at asked
  obtain ⟨r,told,same⟩ := asked
  obtain ⟨_,_,rfl⟩ := (Token.shares_for_assets_ok valued).mp (answer_some.mp told)
  exact (Prod.mk.inj same).1.symm

/-- What a liquidation takes is the seizure at the price after the payment and the
    rate from before the call. -/
theorem Seizes.seizure {v : HelixVault} {liquidator : Address} {actual bonus seized : Int} {t : HelixToken}
    (keeps : KeepsRate foreign) (found : w.token = some t) (valued : t.total_assets ≠ 0)
    (seizes : Seizes (sharesAt hstETH foreign) env v hstETH liquidator actual bonus seized w w') :
    bonus = v.bonusFor actual ∧ w'.rate = w.rate ∧
      ∃ price mid, Quotes (sharesAt hstETH foreign) env v.oracle_address hstETH price w mid ∧
        seized = v.seizure t price actual := by
  have bonus_eq : bonus = v.bonusFor actual := seizes.bonus_eq
  obtain ⟨price,mid,later,quotes,_,converted,sent⟩ := seizes.taken
  have here : (env.calling hstETH).current_contract_address = hstETH := rfl
  simp only [sharesAt,if_pos here] at converted
  have quoted : Same Ground.rate w mid := quotes.within (keeps.asking)
  obtain ⟨u,left,shares,assets⟩ := token_of_rate found quoted
  have answered := asked_shares left (by rwa [assets]) converted
  refine ⟨bonus_eq,?_,price,mid,quotes,?_⟩
  · rw [sent.rate keeps,ask_same converted,quoted]
  · rw [answered,bonus_eq,HelixToken.sharesFor,shares,assets]
    rfl

end Rates

/-! ### What a liquidation leaves -/

/-- What shares are worth at the rate of a token and a price, exactly. -/
def exactValue (t : HelixToken) (price shares : Int) : ℚ :=
  (shares * t.total_assets * price : Int) / (t.total_shares * PRICE_SCALAR : Int)

section Bounds
variable {v : HelixVault} {t : HelixToken} {price repaid debt shares : Int}

theorem exactValue_sub (less : Int) :
    exactValue t price (shares - less) = exactValue t price shares - exactValue t price less := by
  unfold exactValue
  rw [← sub_div]
  congr 1
  push_cast
  rw [sub_mul,sub_mul]

theorem seizure_value_le (nonneg : 0 ≤ repaid) (priced : 0 < price) (supplied : 0 < t.total_shares)
    (valued : 0 < t.total_assets) :
    exactValue t price (v.seizure t price repaid) ≤ (repaid + v.bonusFor repaid : Int) := by
  have scaled : (0 : ℚ) < (t.total_shares * PRICE_SCALAR : Int) := by
    exact_mod_cast Int.mul_pos supplied (by decide)
  unfold exactValue
  rw [div_le_iff₀ scaled]
  exact_mod_cast HelixVault.seizure_worth nonneg priced supplied valued

/-- A repayment with its bonus is no larger a part of a debt and its bonus than the
    repayment is of the debt. -/
theorem bonusFor_le (nonneg : 0 ≤ repaid) :
    ((repaid + v.bonusFor repaid : Int) : ℚ) * 10000 ≤ repaid * (10000 + v.pool_config.liq_bonus) := by
  have bps : BPS_DENOMINATOR = 10000 := rfl
  have floored : v.bonusFor repaid * 10000 ≤ repaid * v.pool_config.liq_bonus := by
    unfold HelixVault.bonusFor
    rw [bps,Int.tdiv_eq_ediv_of_nonneg (Int.mul_nonneg nonneg (Int.natCast_nonneg _))]
    exact Int.ediv_mul_le _ (by decide)
  have whole : (repaid + v.bonusFor repaid) * 10000 ≤ repaid * (10000 + v.pool_config.liq_bonus) := by
    rw [add_mul,mul_add]
    omega
  exact_mod_cast whole

/-- A position that covers its debt with the bonus is covered no less after it. -/
theorem ratio_kept {value : ℚ} (nonneg : 0 ≤ repaid) (within : repaid < debt) (priced : 0 < price)
    (supplied : 0 < t.total_shares) (valued : 0 < t.total_assets)
    (covered : (debt : ℚ) * (10000 + v.pool_config.liq_bonus) ≤ value * 10000) :
    value / debt ≤ (value - exactValue t price (v.seizure t price repaid)) / (debt - repaid) := by
  have owes : (0 : ℚ) < debt := by exact_mod_cast lt_of_le_of_lt nonneg within
  have paid : (0 : ℚ) ≤ repaid := by exact_mod_cast nonneg
  refine ratio_le_of_part owes (by exact_mod_cast within) ?_
  have worth := seizure_value_le (v := v) nonneg priced supplied valued
  have part := bonusFor_le (v := v) nonneg
  refine le_of_mul_le_mul_right ?_ (show (0 : ℚ) < 10000 by norm_num)
  calc exactValue t price (v.seizure t price repaid) * debt * 10000
      ≤ (repaid + v.bonusFor repaid : Int) * debt * 10000 := by gcongr
    _ = (repaid + v.bonusFor repaid : Int) * 10000 * debt := mul_right_comm _ _ _
    _ ≤ repaid * (10000 + v.pool_config.liq_bonus) * debt := mul_le_mul_of_nonneg_right part owes.le
    _ = repaid * (debt * (10000 + v.pool_config.liq_bonus)) := by rw [mul_assoc,mul_comm (debt : ℚ)]
    _ ≤ repaid * (value * 10000) := mul_le_mul_of_nonneg_left covered paid
    _ = value * repaid * 10000 := by rw [← mul_assoc,mul_comm (repaid : ℚ)]

end Bounds

/-- Half of the debt at most is repaid, and some of it. -/
theorem Liquidates.half {W : Type} {clients : Clients W} {env : Env} {s : World HelixVault W} {liquidator user : Address}
    {repay_amount actual bonus seized : Int} {p : Position} {w : W}
    (liquidates : Liquidates clients env s liquidator user repay_amount actual bonus seized p w) :
    0 < actual ∧ 2 * actual ≤ (s.own.charged env.timestamp user).borrowed_amount := by
  have positive := liquidates.positive
  have capped := liquidates.capped
  have within : actual ≤ (s.own.charged env.timestamp user).borrowed_amount.tdiv 2 := by
    rw [capped]
    exact capped_le _ _
  refine ⟨positive,?_⟩
  have owes : 0 < (s.own.charged env.timestamp user).borrowed_amount := pos_of_tdiv (by decide) (positive.trans_le within)
  rw [Int.tdiv_eq_ediv_of_nonneg owes.le] at within
  omega

/-- A call to `liquidate` that succeeds with the share token as the first collateral:
    what is taken is worth at most the repayment and its bonus, at most half of the
    debt is repaid, and where the collateral covered the debt with the bonus, it
    covers what is left of it no less. The price is the one after the payment, which
    follows the health check that the call starts with. -/
theorem liquidation_bounded {hstETH : Address} {foreign : Clients (Ground O)} (keeps : KeepsRate foreign) {env : Env}
    {s s' : World HelixVault (Ground O)} {liquidator user : Address} {repay_amount : Int} {event : Option VaultEvent}
    {t : HelixToken} (primary : s.own.supported_assets.head? = some hstETH) (found : s.rest.token = some t)
    (supplied : 0 < t.total_shares) (valued : 0 < t.total_assets)
    (done : liquidate (sharesAt hstETH foreign).apart env liquidator user repay_amount s = .ok (event, s')) :
    ∃ factor repaid seized price asked paid mid q t',
      event = some (.liquidation liquidator user repaid seized (s.own.bonusFor repaid)) ∧
      Health (sharesAt hstETH foreign) env s.own.oracle_address hstETH s.own.pool_config.liq_threshold
        (s.own.charged env.timestamp user) factor s.rest asked ∧ factor ≤ BPS_DENOMINATOR ∧
      Received (sharesAt hstETH foreign) env s.own.borrow_token liquidator repaid asked paid ∧
      Quotes (sharesAt hstETH foreign) env s.own.oracle_address hstETH price paid mid ∧
      s'.own.positions.get user = some q ∧ s'.rest.token = some t' ∧
      exactValue t price seized ≤ (repaid + repaid * s.own.pool_config.liq_bonus / 10000 : Int) ∧
      2 * repaid ≤ (s.own.charged env.timestamp user).borrowed_amount ∧
      let value := exactValue t price (s.own.charged env.timestamp user).deposited_shares
      let debt := (s.own.charged env.timestamp user).borrowed_amount
      ((debt : ℚ) * (10000 + s.own.pool_config.liq_bonus) ≤ value * 10000 →
        value / debt ≤ exactValue t' price q.deposited_shares / q.borrowed_amount) := by
  have effect : Effect (sharesAt hstETH foreign) env s (.liquidate liquidator user repay_amount) event s' :=
    liquidate_effect done
  cases effect with
  | liquidate _ _ _ actual bonus seized p w liquidates =>
    obtain ⟨token,factor,first,second,head,health,low,received,seizes⟩ := liquidates.steps
    rw [primary] at head
    cases head
    have asked : Same Ground.rate s.rest first := health.within keeps.asking
    have same : second.rate = s.rest.rate := (received.rate keeps).trans asked
    obtain ⟨u,found',shares,assets⟩ := token_of_rate found same
    obtain ⟨rfl,after,price,mid,quotes,taken⟩ := seizes.seizure keeps found' (by rw [assets]; exact valued.ne')
    obtain ⟨t',left,shares',assets'⟩ := token_of_rate found (after.trans same)
    have seized_eq : seized = s.own.seizure t price actual := by
      rw [taken,HelixVault.seizure,HelixVault.seizure,HelixToken.sharesFor,HelixToken.sharesFor,shares,assets]
    obtain ⟨positive,half⟩ := liquidates.half
    have nonneg : 0 ≤ actual := positive.le
    have priced := quotes.positive
    have position := liquidates.position
    have worth := seizure_value_le (v := s.own) nonneg priced supplied valued
    refine ⟨factor,actual,seized,price,first,second,mid,p,t',rfl,health,low,received,quotes,?_,left,?_,half,?_⟩
    · apply HelixVault.settled_get
      rw [position]
      show (s.own.charged env.timestamp user).borrowed_amount - actual ≠ 0
      omega
    · have bps : BPS_DENOMINATOR = 10000 := rfl
      rw [HelixVault.bonusFor,bps,Int.tdiv_eq_ediv_of_nonneg (Int.mul_nonneg nonneg (Int.natCast_nonneg _)),← seized_eq]
        at worth
      exact worth
    · intro value debt covered
      have kept := ratio_kept (v := s.own) nonneg (by omega) priced supplied valued covered
      have rated : exactValue t' price p.deposited_shares = exactValue t price p.deposited_shares := by
        rw [exactValue,exactValue,shares',assets']
      have shares_left : p.deposited_shares = (s.own.charged env.timestamp user).deposited_shares - seized := by
        rw [position]
      have debt_left : p.borrowed_amount = (s.own.charged env.timestamp user).borrowed_amount - actual := by
        rw [position]
      rw [rated,shares_left,debt_left,exactValue_sub,seized_eq,Int.cast_sub]
      exact kept
  | configured _ _ _ changed => cases changed

/-! ### A market whose price falls -/

theorem beside_rate {α : Type} {f : O → Option (α × O)} {w w' : Ground O} {x : α}
    (done : Ground.beside f w = some (x, w')) : w'.rate = w.rate := by
  obtain ⟨r,_,same⟩ := Option.map_eq_some_iff.mp done
  cases same
  rfl

theorem beside_keepsRate (clients : Clients O) : KeepsRate (beside clients) where
  balance _ _ _ _ _ done := beside_rate done
  transfer_from _ _ _ _ _ _ _ _ done := beside_rate done
  lastprice _ _ _ _ _ done := beside_rate done
  decimals _ _ _ _ _ done := beside_rate done

namespace Small

/-- Who holds how much of which other token, and the price that the oracle quotes. -/
structure Market where
  purse : Purse
  price : Int

def Market.pay {α : Type} (f : Purse → Option (α × Purse)) (w : Market) : Option (α × Market) :=
  (f w.purse).map (fun r => (r.1,{ w with purse := r.2 }))

def market : Clients Market where
  balance env id := Market.pay (clients.balance env id)
  transfer env owner recipient amount := Market.pay (clients.transfer env owner recipient amount)
  transfer_from env spender owner recipient amount := Market.pay (clients.transfer_from env spender owner recipient amount)
  assets_for_shares env shares := Market.pay (clients.assets_for_shares env shares)
  shares_for_assets env assets := Market.pay (clients.shares_for_assets env assets)
  lastprice env _ w := some ((w.price, env.timestamp), w)
  decimals _ _ w := some (7, w)

abbrev marketStep := serve (sharesAt tokenA (beside market)) vault

def marketStart (price : Int) : Chain (State (Ground Market)) := beginning ⟨0,0⟩ admin vault bridge ⟨purse,price⟩

/-- A call to the share token, which is `tokenA`, that an address signs. -/
def callsShares (signer : Address) (entry : Token.Entry) : Origin × Action (Ground Market) :=
  (.signedBy signer,.outside (Ground.calledBy ((Origin.signedBy signer).env ⟨0,0⟩ tokenA) entry))

/-- The oracle quotes another price. -/
def quotes (price : Int) : Origin × Action (Ground Market) :=
  (.signedBy oracle,.outside (fun w => { w with others := { w.others with price := price } }))

/-- User A gets shares, which come to as many assets, deposits them and borrows. User
    B may liquidate. -/
def leveraged (shares debt : Int) : List (Origin × Action (Ground Market)) :=
  [calls admin (.initialise admin oracle borrow_token config),calls admin (.add_supported_asset tokenA),
    calls admin (.grant_role userB LIQUIDATOR_ROLE),callsShares bridge (.bridge_mint userA shares),
    callsShares bridge (.update_exchange_rate shares),callsShares userA (.approve userA vault shares 100),
    calls userA (.deposit userA tokenA shares),calls userA (.borrow userA debt)]

/-- A debt of 6000 on a thousand shares whose price falls from ten to seven. -/
def fallen : Chain (State (Ground Market)) :=
  run marketStep (marketStart 100000000) (leveraged 1000 6000 ++ [quotes 70000000])

/-- What a liquidator sees in the ledger of the last call. -/
def liquidatorEnv (c : Chain (State (Ground Market))) : Env := (Origin.signedBy userB).env c.clock vault

end Small

/-- User B repays 2000 and takes 300 shares, which are worth 2100. -/
theorem liquidation_bounded_fallen : ∃ v t s', Small.fallen.state.own = some v ∧
    Small.fallen.state.rest.token = some t ∧
    liquidate (sharesAt Small.tokenA (beside Small.market)).apart (Small.liquidatorEnv Small.fallen) Small.userB
      Small.userA 2000 ⟨v,Small.fallen.state.rest⟩ = .ok (some (.liquidation Small.userB Small.userA 2000 300 100), s') ∧
    ∃ price, exactValue t price 300 ≤ 2100 := by
  have repaid : reply (liquidate (sharesAt Small.tokenA (beside Small.market)).apart
      (Small.liquidatorEnv Small.fallen) Small.userB Small.userA 2000) Small.fallen.state =
      some (some (.liquidation Small.userB Small.userA 2000 300 100)) := by decide +kernel
  have facts : Small.fallen.state.own.map (fun v => (v.supported_assets.head?,v.pool_config.liq_bonus)) =
      some (some Small.tokenA, 500) := by decide +kernel
  have totals : Small.fallen.state.rest.token.map (fun t => (t.total_shares,t.total_assets)) = some (1000, 1000) := by
    decide +kernel
  obtain ⟨v,s',found,ran⟩ := reply_some.mp repaid
  obtain ⟨t,token,rate⟩ := Option.map_eq_some_iff.mp totals
  obtain ⟨supply,assets⟩ := Prod.mk.inj rate
  rw [found,Option.map_some,Option.some.injEq,Prod.mk.injEq] at facts
  obtain ⟨primary,bonus⟩ := facts
  obtain ⟨_,amount,seized,price,_,_,_,_,_,event,_,_,_,_,_,_,worth,_⟩ := liquidation_bounded (s := ⟨v,Small.fallen.state.rest⟩)
    (beside_keepsRate Small.market) primary token (by omega) (by omega) ran
  refine ⟨v,t,s',found,token,ran,price,?_⟩
  simp only [Option.some.injEq,VaultEvent.liquidation.injEq,true_and] at event
  obtain ⟨rfl,rfl,_⟩ := event
  rw [bonus] at worth
  exact worth

end Vault
end Helix
