import Helix.VaultFits
import Helix.VaultSeizure
import Helix.Liquidatable

/-!
Which unhealthy positions can be liquidated, and by which amounts. Beyond the health
gate a repayment has to be some of the debt and half of it at most, and it has to
take some shares and no more than there are (`Workable`); that is all, where the
liquidator is funded (`liquidate_succeeds_iff`). So a position can be liquidated
exactly if there is such a repayment (`unhealthy_liquidatable_iff`), and the bot
succeeds exactly if half of the debt it knows is one (`bot_amount_works_iff`).
-/
namespace Helix.Vault
open Invoke
open Token (HelixToken Guarded)

/-! ### Repayments that work -/

/-- The arithmetic of a liquidation with a repayment fits. -/
structure Computable (v : HelixVault) (t : HelixToken) (price repaid : Int) : Prop where
  bonus : Fits (repaid * v.pool_config.liq_bonus)
  value : Fits ((repaid + v.bonusFor repaid) * PRICE_SCALAR)
  shares : Fits (v.assetsFor price repaid * t.total_shares)
  deposits : Fits (v.total_deposits - v.seizure t price repaid)
  borrows : Fits (v.total_borrows - repaid)

/-- A repayment that is some of the debt of a position and half of it at most, and
    takes some of its shares. -/
structure Repayable (v : HelixVault) (t : HelixToken) (p : Position) (price repaid : Int) : Prop where
  positive : 0 < repaid
  half : repaid ≤ p.borrowed_amount.tdiv 2
  takes : 0 < v.seizure t price repaid
  enough : v.seizure t price repaid ≤ p.deposited_shares
  computable : Computable v t price repaid

/-- Such a repayment, where the vault has the shares. -/
structure Workable (v : HelixVault) (t : HelixToken) (vault : Address) (p : Position) (price repaid : Int) : Prop
    extends Repayable v t p price repaid where
  held : v.seizure t price repaid ≤ t.balance vault

section Decisions
variable (v : HelixVault) (t : HelixToken) (vault : Address) (p : Position) (price repaid : Int)

instance : Decidable (Computable v t price repaid) :=
  decidable_of_iff (Fits (repaid * v.pool_config.liq_bonus) ∧ Fits ((repaid + v.bonusFor repaid) * PRICE_SCALAR) ∧
      Fits (v.assetsFor price repaid * t.total_shares) ∧ Fits (v.total_deposits - v.seizure t price repaid) ∧
      Fits (v.total_borrows - repaid))
    ⟨fun ⟨bonus,value,shares,deposits,borrows⟩ => ⟨bonus,value,shares,deposits,borrows⟩,
      fun ⟨bonus,value,shares,deposits,borrows⟩ => ⟨bonus,value,shares,deposits,borrows⟩⟩

instance : Decidable (Repayable v t p price repaid) :=
  decidable_of_iff (0 < repaid ∧ repaid ≤ p.borrowed_amount.tdiv 2 ∧ 0 < v.seizure t price repaid ∧
      v.seizure t price repaid ≤ p.deposited_shares ∧ Computable v t price repaid)
    ⟨fun ⟨positive,half,takes,enough,computable⟩ => ⟨positive,half,takes,enough,computable⟩,
      fun ⟨positive,half,takes,enough,computable⟩ => ⟨positive,half,takes,enough,computable⟩⟩

instance : Decidable (Workable v t vault p price repaid) :=
  decidable_of_iff (Repayable v t p price repaid ∧ v.seizure t price repaid ≤ t.balance vault)
    ⟨fun ⟨repayable,held⟩ => ⟨repayable,held⟩,fun works => ⟨works.toRepayable,works.held⟩⟩

end Decisions

section Determined
variable {W : Type} {clients : Clients W} {env : Env} {oracle token owner : Address} {price amount : Int} {w w' w'' : W}

theorem Quotes.unique {price' : Int} (quotes : Quotes clients env oracle token price w w')
    (again : Quotes clients env oracle token price' w w'') : price' = price ∧ w'' = w' := by
  obtain ⟨⟨_,_,decimals,quoted,_⟩,_⟩ := quotes
  obtain ⟨⟨_,_,decimals',quoted',_⟩,_⟩ := again
  rw [decimals] at decimals'
  cases decimals'
  rw [quoted] at quoted'
  cases quoted'
  exact ⟨rfl,rfl⟩

theorem Received.unique (received : Received clients env token owner amount w w')
    (again : Received clients env token owner amount w w'') : w'' = w' := by
  obtain ⟨_,_,_,_,read,moved,reread,_⟩ := received.steps
  obtain ⟨_,_,_,_,read',moved',reread',_⟩ := again.steps
  rw [read] at read'
  cases read'
  rw [moved] at moved'
  cases moved'
  rw [reread] at reread'
  cases reread'
  rfl

end Determined

section Funded
variable {O : Type} {hstETH : Address} {foreign : Clients (Ground O)} {env : Env} {s : World HelixVault (Ground O)}
  {liquidator user : Address} {t : HelixToken} {price most factor : Int} {stored : Position}

/-- A liquidator with the role and with borrow tokens and an allowance for as much as
    may be repaid, in an unpaused vault whose first collateral is the share token, at
    a fresh price of the oracle. -/
structure Funded (hstETH : Address) (foreign : Clients (Ground O)) (env : Env) (s : World HelixVault (Ground O))
    (liquidator : Address) (t : HelixToken) (price most : Int) : Prop where
  authorised : env.Authorised liquidator
  stranger : ¬ env.Authorised env.current_contract_address
  role : s.own.roles liquidator LIQUIDATOR_ROLE = true
  unpaused : s.own.paused = false
  unlocked : s.own.locked = false
  primary : s.own.supported_assets.head? = some hstETH
  token : s.rest.token = some t
  quoted : Quotes (sharesAt hstETH foreign) env s.own.oracle_address hstETH price s.rest s.rest
  pays : ∀ repaid, 0 < repaid → repaid ≤ most → ∃ w,
    Received (sharesAt hstETH foreign) env s.own.borrow_token liquidator repaid s.rest w ∧ w.token = some t ∧
      Quotes (sharesAt hstETH foreign) env s.own.oracle_address hstETH price w w

/-- Reading the health of a position leaves everything outside as it is. -/
theorem Funded.health_same (funded : Funded hstETH foreign env s liquidator t price most) {p : Position} {w : Ground O}
    (health : Health (sharesAt hstETH foreign) env s.own.oracle_address hstETH s.own.pool_config.liq_threshold p factor
      s.rest w) : w = s.rest := by
  cases health with
  | debtless => rfl
  | ratio value _ _ _ values =>
    generalize p.deposited_shares = shares at values
    cases values with
    | nothing => rfl
    | shares _ assets price' _ mid _ _ converted quotes =>
      have here : (env.calling hstETH).current_contract_address = hstETH := rfl
      simp only [sharesAt,if_pos here] at converted
      rw [ask_same converted] at quotes
      exact (funded.quoted.unique quotes).2

/-- The health of a user with a stored position, as a funded liquidator finds it. -/
structure Unhealthy (hstETH : Address) (foreign : Clients (Ground O)) (env : Env) (s : World HelixVault (Ground O))
    (user : Address) : Prop where
  stored : (s.own.positions.get user).isSome
  chargeable : s.own.Chargeable env.timestamp user
  health : ∃ factor, factor ≤ BPS_DENOMINATOR ∧ Health (sharesAt hstETH foreign) env s.own.oracle_address hstETH
    s.own.pool_config.liq_threshold (s.own.charged env.timestamp user) factor s.rest s.rest

/-- A repayment that works goes through. -/
theorem Funded.liquidates (funded : Funded hstETH foreign env s liquidator t price most)
    (unhealthy : Unhealthy hstETH foreign env s user) (sized : Sized s.own) (sound : Token.Sound t)
    {repay_amount repaid : Int} (positive : 0 < repay_amount)
    (effective : repaid = capped repay_amount ((s.own.charged env.timestamp user).borrowed_amount.tdiv 2))
    (within : repaid ≤ most)
    (works : Workable s.own t env.current_contract_address (s.own.charged env.timestamp user) price repaid) :
    ∃ p w, Liquidates (sharesAt hstETH foreign) env s liquidator user repay_amount repaid (s.own.bonusFor repaid)
      (s.own.seizure t price repaid) p w := by
  obtain ⟨w,received,token,quotes⟩ := funded.pays repaid works.positive within
  obtain ⟨factor,low,health⟩ := unhealthy.health
  obtain ⟨shares_fit,debt_fit⟩ := sized.charged unhealthy.chargeable
  have repaid_positive := works.positive
  have half := works.half
  have takes := works.takes
  have enough := works.enough
  have computable := works.computable
  have different : env.current_contract_address ≠ liquidator := fun same =>
    funded.stranger (by rw [same]; exact funded.authorised)
  have bonus := s.own.bonusFor_nonneg repaid_positive.le
  have owes : 0 < (s.own.charged env.timestamp user).borrowed_amount :=
    pos_of_tdiv (by decide) (repaid_positive.trans_le half)
  have value : Fits (repaid + s.own.bonusFor repaid) := by
    have scalar : PRICE_SCALAR = 10000000 := rfl
    have scaled := computable.value
    rw [scalar] at scaled
    exact fits_zero.between scaled (by omega) (by omega)
  have converted : (sharesAt hstETH foreign).shares_for_assets (env.calling hstETH) (s.own.assetsFor price repaid) w =
      some (s.own.seizure t price repaid, w) := by
    have valued : t.total_assets ≠ 0 := by
      intro none
      rw [HelixVault.seizure,HelixToken.sharesFor,none,Int.tdiv_zero] at takes
      exact absurd takes (lt_irrefl 0)
    have here : (env.calling hstETH).current_contract_address = hstETH := rfl
    have answered := (Token.shares_for_assets_ok (r := (s.own.seizure t price repaid, t)) valued).mpr
      ⟨s.own.assetsFor_nonneg repaid_positive.le quotes.positive,fun _ => computable.shares,rfl⟩
    simp only [sharesAt,if_pos here,Ground.ask,token,Option.bind_some,answer_some.mpr answered,Option.map_some]
  have sent : Sent (sharesAt hstETH foreign) env hstETH liquidator (s.own.seizure t price repaid) w _ :=
    sends_shares token sound different takes.le works.held
  refine ⟨_,_,⟨positive,funded.authorised,funded.unlocked⟩,funded.role,funded.unpaused,unhealthy.stored,
    unhealthy.chargeable,effective,repaid_positive,⟨hstETH,factor,s.rest,w,funded.primary,health,low,received,
      computable.bonus,rfl,value,⟨price,w,w,quotes,computable.value,converted,sent⟩,takes⟩,enough,?_,?_,rfl,
    computable.deposits,computable.borrows⟩
  · exact fits_zero.between shares_fit (by omega) (by omega)
  · rw [Int.tdiv_eq_ediv_of_nonneg owes.le] at half
    exact fits_zero.between debt_fit (by omega) (by omega)

/-- Shares that were sent were there. -/
theorem Sent.held {recipient : Address} {amount : Int} {w w' : Ground O} (found : w.token = some t)
    (sent : Sent (sharesAt hstETH foreign) env hstETH recipient amount w w') :
    amount ≤ t.balance env.current_contract_address := by
  obtain ⟨_,_,_,_,read,moved,_⟩ := sent.steps
  have here : (env.calling hstETH).current_contract_address = hstETH := rfl
  simp only [sharesAt,if_pos here] at read moved
  rw [ask_same read] at moved
  obtain ⟨_,_,effect⟩ := call_effect found moved
  cases effect with
  | transfer _ _ _ _ _ enough => exact enough

/-- A repayment that went through works. -/
theorem Funded.workable (funded : Funded hstETH foreign env s liquidator t price most) {repay_amount repaid bonus seized : Int}
    {p : Position} {w : Ground O} (within : repaid ≤ most)
    (liquidates : Liquidates (sharesAt hstETH foreign) env s liquidator user repay_amount repaid bonus seized p w) :
    Workable s.own t env.current_contract_address (s.own.charged env.timestamp user) price repaid := by
  obtain ⟨token,_,first,second,head,health,_,received,seizes⟩ := liquidates.steps
  rw [funded.primary] at head
  cases head
  rw [funded.health_same health] at received
  obtain ⟨paid,received',found,quotes'⟩ := funded.pays repaid liquidates.positive within
  rw [received'.unique received] at seizes
  have bonus_eq : bonus = s.own.bonusFor repaid := seizes.bonus_eq
  have bonus_fits := seizes.bonus_fits
  have taken := seizes.positive
  obtain ⟨price',_,_,quotes,scaled,converted,sent⟩ := seizes.taken
  obtain ⟨rfl,rfl⟩ := quotes'.unique quotes
  have here : (env.calling hstETH).current_contract_address = hstETH := rfl
  simp only [sharesAt,if_pos here] at converted
  rw [ask_same converted] at sent
  rw [bonus_eq] at scaled converted
  rw [Ground.ask,found,Option.bind_some,Option.map_eq_some_iff] at converted
  obtain ⟨⟨shares,u⟩,told,same⟩ := converted
  cases same
  have told := answer_some.mp told
  have valued : t.total_assets ≠ 0 := by
    intro none
    simp [Token.shares_for_assets,none] at told
    omega
  obtain ⟨_,shares_fit,same⟩ := (Token.shares_for_assets_ok valued).mp told
  have seized_eq : shares = s.own.seizure t price' repaid := (Prod.mk.inj same).1
  have half : repaid ≤ (s.own.charged env.timestamp user).borrowed_amount.tdiv 2 := by
    rw [liquidates.capped]
    exact capped_le _ _
  have fits : Fits (s.own.assetsFor price' repaid * t.total_shares) := by
    by_cases none : s.own.assetsFor price' repaid = 0
    · rw [none,zero_mul]
      exact fits_zero
    · exact shares_fit none
  have enough := liquidates.enough
  have deposits := liquidates.deposits
  have held := sent.held found
  rw [seized_eq] at taken enough deposits held
  exact ⟨⟨liquidates.positive,half,taken,enough,⟨bonus_fits,scaled,fits,deposits,liquidates.borrows⟩⟩,held⟩

/-- A liquidation by a funded liquidator succeeds exactly if what it would repay
    works. -/
theorem liquidate_succeeds_iff
    (funded : Funded hstETH foreign env s liquidator t price ((s.own.charged env.timestamp user).borrowed_amount.tdiv 2))
    (unhealthy : Unhealthy hstETH foreign env s user) (sized : Sized s.own) (sound : Token.Sound t) (repay_amount : Int) :
    (∃ r, liquidate (sharesAt hstETH foreign).apart env liquidator user repay_amount s = .ok r) ↔
      Workable s.own t env.current_contract_address (s.own.charged env.timestamp user) price
        (capped repay_amount ((s.own.charged env.timestamp user).borrowed_amount.tdiv 2)) := by
  constructor
  · rintro ⟨⟨event,s'⟩,done⟩
    have effect : Effect (sharesAt hstETH foreign) env s (.liquidate liquidator user repay_amount) event s' :=
      liquidate_effect done
    cases effect with
    | liquidate _ _ _ actual bonus seized p w liquidates =>
      rw [← liquidates.capped]
      refine funded.workable ?_ liquidates
      rw [liquidates.capped]
      exact capped_le _ _
    | configured _ _ _ changed => cases changed
  · intro works
    have positive : 0 < repay_amount := by
      have repaid := works.positive
      unfold capped at repaid
      split at repaid <;> omega
    obtain ⟨p,w,liquidates⟩ := funded.liquidates unhealthy sized sound positive rfl works.half works
    exact ⟨_,liquidate_returns liquidates⟩

/-- A user whose health factor reads as one or less, at the same time, is unhealthy. -/
theorem Funded.unhealthy (funded : Funded hstETH foreign env s liquidator t price most) {reader : Env}
    (view : SameView (sharesAt hstETH foreign) env reader) {r : Int × World HelixVault (Ground O)}
    (read : get_health_factor (sharesAt hstETH foreign).apart reader user s = .ok r) (low : r.1 ≤ BPS_DENOMINATOR) :
    Unhealthy hstETH foreign env s user := by
  obtain ⟨token,stored,w,primary,found,accruable,health,_⟩ := get_health_factor_ok.mp read
  rw [funded.primary] at primary
  cases primary
  have health_then := health.seen view
  rw [view.time] at accruable health_then
  obtain ⟨charged,some,chargeable⟩ := charged_of_stored found accruable
  rw [charged] at health_then
  have same := funded.health_same health_then
  rw [same] at health_then
  exact ⟨some,chargeable,r.1,low,health_then⟩

end Funded

/-! ### Whether there is an amount -/

/-- A call on the chain succeeds exactly if it does on the vault. -/
theorem delivered_iff {W : Type} {clients : Clients W} {vault : Address} {c : Chain (State W)} {v : HelixVault}
    {origin : Origin} {entry : Entry} (found : c.state.own = some v) :
    (∃ event, (transition (serve clients vault) c (origin,.vault entry)).output = .ok event) ↔
      ∃ r, call clients.apart (origin.env (c.clock.advance origin) vault) entry ⟨v,c.state.rest⟩ = .ok r := by
  constructor
  · rintro ⟨event,out⟩
    have makes : Makes (serve clients vault) (transition (serve clients vault) c (origin,.vault entry)) := rfl
    have ran := Delivery.returned makes out
    have called : invoke clients.apart (origin.env (c.clock.advance origin) vault) entry c.state = .ok (event, _) := ran
    rcases invoke_ran called with ⟨u,t,own,done,_⟩ | ⟨missing,_⟩
    · rw [found] at own
      cases own
      exact ⟨_,done⟩
    · rw [found] at missing
      cases missing
  · rintro ⟨⟨event,s'⟩,ran⟩
    have delivered : serve clients vault c (origin,.vault entry) = _ := deliver_ok (invoke_of_call found ran)
    exact ⟨event,congrArg Prod.fst delivered⟩

/-- In every state that a run with the share token as the only collateral reaches, a
    user whose health factor reads as one or less can be liquidated by somebody with
    role and funds exactly if there is a repayment of at most half of the debt that
    takes some of the shares and no more than there are. -/
theorem unhealthy_liquidatable_iff {O : Type} {hstETH vault : Address} {foreign : Clients (Ground O)}
    (strangers : Strangers vault foreign) (clock : Clock) (admin bridge : Address) (others : O)
    (calls : List (Origin × Action (Ground O)))
    (custodial : Custodial hstETH vault
      (trace (serve (sharesAt hstETH foreign) vault) (beginning clock admin vault bridge others) calls)) (v : HelixVault)
    (reached : (run (serve (sharesAt hstETH foreign) vault) (beginning clock admin vault bridge others) calls).state.own =
      some v) (origin : Origin) (reader : Env) (liquidator user : Address) (t : HelixToken) (price : Int) :
    let final := run (serve (sharesAt hstETH foreign) vault) (beginning clock admin vault bridge others) calls
    let env := origin.env (final.clock.advance origin) vault
    ∀ r, get_health_factor (sharesAt hstETH foreign).apart reader user ⟨v,final.state.rest⟩ = .ok r →
      r.1 ≤ BPS_DENOMINATOR → SameView (sharesAt hstETH foreign) env reader →
      Funded hstETH foreign env ⟨v,final.state.rest⟩ liquidator t price
        ((v.charged env.timestamp user).borrowed_amount.tdiv 2) →
      ((∃ repay_amount event, (transition (serve (sharesAt hstETH foreign) vault) final
          (origin,.vault (.liquidate liquidator user repay_amount))).output = .ok event) ↔
        ∃ repaid, Repayable v t (v.charged env.timestamp user) price repaid) := by
  intro final env r read low view funded
  have held := serve_held strangers clock admin bridge others calls custodial
  have sized : Sized v := Sized.reached _ vault clock _ calls v reached
  obtain ⟨u,token,guarded,custody⟩ := held.token
  have same := token.symm.trans funded.token
  cases same
  have sound := held.sound
  rw [book_of_own reached] at custody sound
  have unhealthy := funded.unhealthy view read low
  constructor
  · rintro ⟨repay_amount,delivered⟩
    have done := (delivered_iff reached).mp delivered
    exact ⟨_,((liquidate_succeeds_iff funded unhealthy sized guarded.sound repay_amount).mp done).toRepayable⟩
  · rintro ⟨repaid,repayable⟩
    have within := sound.shares_le user
    have deposited := v.charged_shares env.timestamp user
    have enough := repayable.enough
    have works : Workable v t vault (v.charged env.timestamp user) price repaid := ⟨repayable,by omega⟩
    have whole : capped repaid ((v.charged env.timestamp user).borrowed_amount.tdiv 2) = repaid :=
      if_neg (not_lt.mpr repayable.half)
    refine ⟨repaid,(delivered_iff reached).mpr
      ((liquidate_succeeds_iff funded unhealthy sized guarded.sound repaid).mpr ?_)⟩
    rw [whole]
    exact works

/-! ### The amount of the bot -/

/-- Half of the debt without its interest is within half of the debt with it. -/
theorem capped_half {v : HelixVault} {now : Nat} {user : Address} {stored : Position}
    (found : v.positions.get user = some stored) :
    capped (stored.borrowed_amount.tdiv 2) ((v.charged now user).borrowed_amount.tdiv 2) =
      stored.borrowed_amount.tdiv 2 := by
  have grown : stored.borrowed_amount ≤ (v.charged now user).borrowed_amount := by
    have interest := stored.interest_nonneg now v.pool_config.interest_rate
    rw [HelixVault.charged,HelixVault.opened,found,Option.getD_some,Position.accrued_debt]
    omega
  have within : stored.borrowed_amount.tdiv 2 ≤ (v.charged now user).borrowed_amount.tdiv 2 :=
    Int.tdiv_le_tdiv (by decide) grown
  exact if_neg (not_lt.mpr within)

/-- For a user below a health factor of one whose stored position the bot knows, the
    amount that the bot submits goes through exactly if it works. -/
theorem bot_amount_works_iff {O : Type} {hstETH : Address} {foreign : Clients (Ground O)} {env reader : Env}
    {s : World HelixVault (Ground O)} {liquidator user : Address} {t : HelixToken} {price : Int}
    {tracked : Bot.TrackedPosition} {r : Int × World HelixVault (Ground O)}
    (funded : Funded hstETH foreign env s liquidator t price ((s.own.charged env.timestamp user).borrowed_amount.tdiv 2))
    (sized : Sized s.own) (sound : Token.Sound t) (indexed : s.own.positions.get user = some tracked.position)
    (view : SameView (sharesAt hstETH foreign) env reader)
    (read : get_health_factor (sharesAt hstETH foreign).apart reader user s = .ok r) (low : r.1 < 10000) :
    (∃ r, liquidate (sharesAt hstETH foreign).apart env liquidator user (Bot.liquidation_repay_amount tracked) s = .ok r) ↔
      Workable s.own t env.current_contract_address (s.own.charged env.timestamp user) price
        (Bot.liquidation_repay_amount tracked) := by
  have unhealthy := funded.unhealthy view read low.le
  rw [liquidate_succeeds_iff funded unhealthy sized sound]
  unfold Bot.liquidation_repay_amount
  rw [capped_half indexed]

namespace Small

/-- User B is funded in a market as far as its borrow tokens go. -/
theorem market_funded {origin : Origin} {clock : Clock} {v : HelixVault} {w : Ground Market} {t : HelixToken} {most : Int}
    (authorised : (origin.env clock vault).Authorised userB) (stranger : ¬ (origin.env clock vault).Authorised vault)
    (role : v.roles userB LIQUIDATOR_ROLE = true) (unpaused : v.paused = false) (unlocked : v.locked = false)
    (primary : v.supported_assets.head? = some tokenA) (borrows : v.borrow_token = borrow_token) (token : w.token = some t)
    (priced : 0 < w.others.price) (owns : most ≤ w.others.purse borrow_token userB) (fits : Fits most) :
    Funded tokenA (beside market) (origin.env clock vault) ⟨v,w⟩ userB t w.others.price most where
  authorised := authorised
  stranger := stranger
  role := role
  unpaused := unpaused
  unlocked := unlocked
  primary := primary
  token := token
  quoted := ⟨⟨w,(origin.env clock vault).timestamp,rfl,rfl,by rw [Nat.sub_self]; exact Nat.zero_le _⟩,priced⟩
  pays := by
    intro repaid positive within
    let paid : Ground Market :=
      { w with others := { w.others with purse := w.others.purse.moved borrow_token userB vault repaid } }
    have elsewhere : ¬ ((origin.env clock vault).calling borrow_token).current_contract_address = tokenA := by
      show ¬ borrow_token = tokenA
      decide
    have drawn : Purse.transfer ((origin.env clock vault).calling borrow_token) vault userB vault repaid w.others.purse =
        some ((), w.others.purse.moved borrow_token userB vault repaid) :=
      if_pos ⟨.inl rfl,positive.le,within.trans owns⟩
    have delta : w.others.purse.moved borrow_token userB vault repaid borrow_token vault -
        w.others.purse borrow_token vault = repaid := by
      simp [Purse.moved,show vault ≠ userB by decide]
    have read : ∀ u : Ground Market, (sharesAt tokenA (beside market)).balance
        ((origin.env clock vault).calling borrow_token) vault u = some (u.others.purse borrow_token vault, u) := by
      intro u
      simp only [sharesAt,if_neg elsewhere]
      rfl
    have moved : (sharesAt tokenA (beside market)).transfer_from ((origin.env clock vault).calling borrow_token) vault
        userB vault repaid w = some ((), paid) := by
      simp only [sharesAt,if_neg elsewhere,beside,Ground.beside,market,Market.pay,clients,drawn,Option.map_some]
      rfl
    refine ⟨paid,?_,token,⟨⟨paid,(origin.env clock vault).timestamp,rfl,rfl,by rw [Nat.sub_self]; exact Nat.zero_le _⟩,
      priced⟩⟩
    show Received (sharesAt tokenA (beside market)) (origin.env clock vault) v.borrow_token userB repaid w paid
    rw [borrows]
    refine ⟨_,_,w,paid,read w,moved,read paid,?_,delta⟩
    rw [delta]
    exact fits_zero.between fits positive.le within

/-- User B, with the role and borrow tokens, can liquidate user A at a price. -/
theorem market_ready (c : Chain (State (Ground Market))) (clock : Clock) (p : Position) (price most : Int)
    (facts : c.state.own.map (fun v => (v.roles userB LIQUIDATOR_ROLE,v.paused,v.locked)) = some (true,false,false))
    (parts : c.state.own.map (fun v => (v.supported_assets.head?,v.borrow_token,v.positions.get userA)) =
      some (some tokenA,borrow_token,some p))
    (token : c.state.rest.token.isSome = true) (quoted : c.state.rest.others.price = price) (priced : 0 < price)
    (owns : most ≤ c.state.rest.others.purse borrow_token userB) (fits : Fits most) :
    ∃ v t, c.state.own = some v ∧ c.state.rest.token = some t ∧ v.positions.get userA = some p ∧
      Funded tokenA (beside market) ((Origin.signedBy userB).env clock vault) ⟨v,c.state.rest⟩ userB t price most := by
  obtain ⟨v,found,same⟩ := Option.map_eq_some_iff.mp facts
  obtain ⟨t,token⟩ := Option.isSome_iff_exists.mp token
  rw [found,Option.map_some,Option.some.injEq] at parts
  simp only [Prod.mk.injEq] at same parts
  obtain ⟨role,unpaused,unlocked⟩ := same
  obtain ⟨primary,borrows,stored⟩ := parts
  have stranger : ¬ ((Origin.signedBy userB).env clock vault).Authorised vault := by
    simp only [Env.Authorised,Origin.env,Origin.signedBy]
    decide
  subst quoted
  exact ⟨v,t,found,token,stored,market_funded (Origin.signedBy_authorised _ _ _) stranger role unpaused unlocked primary
    borrows token priced owns fits⟩

theorem market_view (env reader : Env) (time : reader.timestamp = env.timestamp) :
    SameView (sharesAt tokenA (beside market)) env reader where
  time := time
  shares _ := rfl
  price _ := by
    funext asset w
    simp only [sharesAt,beside,market,Ground.beside,Env.calling,time]
  decimals _ := rfl

/-- The shares fall on to a price of one and do not cover the debt of 6000. -/
def sunk : Chain (State (Ground Market)) :=
  run marketStep (marketStart 100000000) (leveraged 1000 6000 ++ [quotes 10000000])

/-- What the bot knows of user A. -/
def indexed (p : Position) : Bot.TrackedPosition := ⟨⟨"A","hstETH"⟩,p,8⟩

/-- In a market nobody acts for the vault, and its only collateral is the share token. -/
theorem leveraged_custodial (start shares debt price : Int) : Custodial tokenA vault
    (trace marketStep (marketStart start) (leveraged shares debt ++ [quotes price])) := by
  have calls_shares : ∀ signer entry, signer ≠ vault → (∀ owner shares, entry ≠ .bridge_burn owner shares) →
      ∀ move, (callsShares signer entry).2 = .outside move → ∀ w, Token.Bystanders vault w.token (move w).token := by
    rintro signer entry other no_burn move ⟨⟩ w
    exact calledBy_bystanders (by simp [Env.Authorised,Origin.env,Origin.signedBy,Ne.symm other])
      (fun owner shares same => absurd same (no_burn owner shares)) w
  have quoted : ∀ move, (quotes price).2 = .outside move → ∀ w, Token.Bystanders vault w.token (move w).token := by
    rintro move ⟨⟩ w
    exact .refl
  refine .of_calls ?_ ?_ ?_
  · simp only [leveraged,List.cons_append,List.nil_append,List.forall_mem_cons,List.not_mem_nil,false_imp_iff,
      implies_true,and_true,calls,callsShares,quotes]
    decide
  · simp only [leveraged,List.cons_append,List.nil_append,List.forall_mem_cons,List.not_mem_nil,false_imp_iff,
      implies_true,and_true]
    refine ⟨?_,?_,?_,calls_shares _ _ (by decide) (by simp),calls_shares _ _ (by decide) (by simp),
      calls_shares _ _ (by decide) (by simp),?_,?_,quoted⟩
    all_goals
      intro move same
      cases same
  · simp only [leveraged,List.cons_append,List.nil_append,List.forall_mem_cons,List.not_mem_nil,false_imp_iff,
      implies_true,and_true,calls,callsShares,quotes,Action.Plain]
    decide

/-- So the share token is sound in the end, and what the vault stores fits. -/
theorem leveraged_sound {start shares debt price : Int} {v : HelixVault} {t : HelixToken}
    (found : (run marketStep (marketStart start) (leveraged shares debt ++ [quotes price])).state.own = some v)
    (token : (run marketStep (marketStart start) (leveraged shares debt ++ [quotes price])).state.rest.token = some t) :
    Sized v ∧ Token.Sound t := by
  have held := serve_held (beside_strangers vault market) ⟨0,0⟩ admin bridge ⟨purse,start⟩ _
    (leveraged_custodial start shares debt price)
  obtain ⟨u,same,guarded,_⟩ := held.token
  have same := same.symm.trans token
  cases same
  exact ⟨Sized.reached (sharesAt tokenA (beside market)) vault ⟨0,0⟩ _ _ v found,guarded.sound⟩

end Small

/-- At a price of seven the bot repays 3000 of 6000. -/
theorem bot_amount_works_fallen : ∃ v, Small.fallen.state.own = some v ∧
    ∃ r, liquidate (sharesAt Small.tokenA (beside Small.market)).apart (Small.liquidatorEnv Small.fallen) Small.userB
      Small.userA (Bot.liquidation_repay_amount (Small.indexed ⟨1000,6000,40⟩)) ⟨v,Small.fallen.state.rest⟩ = .ok r := by
  obtain ⟨v,t,found,token,stored,funded⟩ := Small.market_ready Small.fallen Small.fallen.clock ⟨1000,6000,40⟩ 70000000 3000
    (by decide +kernel) (by decide +kernel) (by decide +kernel) (by decide +kernel) (by decide) (by decide +kernel)
    (by decide)
  obtain ⟨sized,sound⟩ := Small.leveraged_sound found token
  have read : reply (get_health_factor (sharesAt Small.tokenA (beside Small.market)).apart
      (Small.liquidatorEnv Small.fallen) Small.userA) Small.fallen.state = some 9333 := by decide +kernel
  obtain ⟨u,s',same,read⟩ := reply_some.mp read
  rw [found] at same
  cases same
  have works : (Small.fallen.state.own.bind (fun v => Small.fallen.state.rest.token.map (fun t =>
      decide (Workable v t Small.vault (v.charged 45 Small.userA) 70000000 3000 ∧
        (v.charged 45 Small.userA).borrowed_amount.tdiv 2 = 3000)))) = some true := by decide +kernel
  rw [found,token,Option.bind_some,Option.map_some,Option.some.injEq,decide_eq_true_eq] at works
  obtain ⟨works,half⟩ := works
  have now : (Small.liquidatorEnv Small.fallen).timestamp = 45 := by decide +kernel
  rw [← now] at works half
  rw [← half] at funded
  exact ⟨v,found,(bot_amount_works_iff (s := ⟨v,Small.fallen.state.rest⟩) funded sized sound stored
    (Small.market_view _ _ rfl) read (show (9333 : Int) < 10000 by decide)).mpr works⟩

/-- At a price of one, 3000 of 6000 take more shares than there are, while 900 would
    go through. -/
theorem bot_amount_too_much : ∃ v t, Small.sunk.state.own = some v ∧
    Funded Small.tokenA (beside Small.market) (Small.liquidatorEnv Small.sunk) ⟨v,Small.sunk.state.rest⟩ Small.userB t
      10000000 3000 ∧
    v.positions.get Small.userA = some (Small.indexed ⟨1000,6000,40⟩).position ∧
    reply (get_health_factor (sharesAt Small.tokenA (beside Small.market)).apart (Small.liquidatorEnv Small.sunk)
      Small.userA) Small.sunk.state = some 1333 ∧
    (∃ r, liquidate (sharesAt Small.tokenA (beside Small.market)).apart (Small.liquidatorEnv Small.sunk) Small.userB
      Small.userA 900 ⟨v,Small.sunk.state.rest⟩ = .ok r) ∧
    ¬ ∃ r, liquidate (sharesAt Small.tokenA (beside Small.market)).apart (Small.liquidatorEnv Small.sunk) Small.userB
      Small.userA (Bot.liquidation_repay_amount (Small.indexed ⟨1000,6000,40⟩)) ⟨v,Small.sunk.state.rest⟩ = .ok r := by
  obtain ⟨v,t,found,token,stored,funded⟩ := Small.market_ready Small.sunk Small.sunk.clock ⟨1000,6000,40⟩ 10000000 3000
    (by decide +kernel) (by decide +kernel) (by decide +kernel) (by decide +kernel) (by decide) (by decide +kernel)
    (by decide)
  have less : (reply (liquidate (sharesAt Small.tokenA (beside Small.market)).apart (Small.liquidatorEnv Small.sunk)
      Small.userB Small.userA 900) Small.sunk.state).isSome = true := by decide +kernel
  have half : reply (liquidate (sharesAt Small.tokenA (beside Small.market)).apart (Small.liquidatorEnv Small.sunk)
      Small.userB Small.userA (Bot.liquidation_repay_amount (Small.indexed ⟨1000,6000,40⟩))) Small.sunk.state = none := by
    decide +kernel
  refine ⟨v,t,found,funded,stored,by decide +kernel,?_,?_⟩
  · obtain ⟨event,less⟩ := Option.isSome_iff_exists.mp less
    obtain ⟨u,s',same,ran⟩ := reply_some.mp less
    rw [found] at same
    cases same
    exact ⟨_,ran⟩
  · rintro ⟨⟨event,s'⟩,ran⟩
    have answered := reply_some.mpr ⟨v,s',found,ran⟩
    rw [half] at answered
    cases answered

namespace Small

/-- A debt of one on ten shares whose price falls to a tenth. -/
def dust : Chain (State (Ground Market)) := run marketStep (marketStart 100000000) (leveraged 10 1 ++ [quotes 1000000])

/-- User B asks to liquidate user A. -/
def liquidates (repay_amount : Int) : Origin × Action (Ground Market) :=
  (.signedBy userB,.vault (.liquidate userB userA repay_amount))

/-- What user B then sees. -/
def nextEnv (c : Chain (State (Ground Market))) : Env :=
  (Origin.signedBy userB).env (c.clock.advance (Origin.signedBy userB)) vault

end Small

/-- The shares at a price of seven can be liquidated. -/
theorem unhealthy_liquidatable_fallen : ∃ repay_amount event,
    (transition Small.marketStep Small.fallen (Small.liquidates repay_amount)).output = .ok event := by
  obtain ⟨v,t,found,token,stored,funded⟩ := Small.market_ready Small.fallen
    (Small.fallen.clock.advance (Origin.signedBy Small.userB)) ⟨1000,6000,40⟩ 70000000 3000
    (by decide +kernel) (by decide +kernel) (by decide +kernel) (by decide +kernel) (by decide) (by decide +kernel)
    (by decide)
  have read : reply (get_health_factor (sharesAt Small.tokenA (beside Small.market)).apart
      (Small.nextEnv Small.fallen) Small.userA) Small.fallen.state = some 9333 := by decide +kernel
  obtain ⟨u,s',same,read⟩ := reply_some.mp read
  rw [found] at same
  cases same
  have works : (Small.fallen.state.own.bind (fun v => Small.fallen.state.rest.token.map (fun t =>
      decide (Repayable v t (v.charged 50 Small.userA) 70000000 2000 ∧
        (v.charged 50 Small.userA).borrowed_amount.tdiv 2 = 3000)))) = some true := by decide +kernel
  rw [found,token,Option.bind_some,Option.map_some,Option.some.injEq,decide_eq_true_eq] at works
  obtain ⟨works,half⟩ := works
  have now : (Small.nextEnv Small.fallen).timestamp = 50 := by decide +kernel
  rw [← now] at works half
  rw [← half] at funded
  exact (unhealthy_liquidatable_iff (beside_strangers Small.vault Small.market) ⟨0,0⟩ Small.admin Small.bridge
    ⟨Small.purse,100000000⟩ _ (Small.leveraged_custodial 100000000 1000 6000 70000000) v found
    (Origin.signedBy Small.userB) (Small.nextEnv Small.fallen) Small.userB Small.userA t 70000000 _ read
    (show (9333 : Int) ≤ BPS_DENOMINATOR by decide) (Small.market_view _ _ rfl) funded).mpr ⟨2000,works⟩

/-- A debt of one has no half: the health factor reads as 8000, and no amount goes
    through. -/
theorem dust_not_liquidatable : ∃ v t, Small.dust.state.own = some v ∧
    Custodial Small.tokenA Small.vault
      (trace Small.marketStep (Small.marketStart 100000000) (Small.leveraged 10 1 ++ [Small.quotes 1000000])) ∧
    Funded Small.tokenA (beside Small.market) (Small.nextEnv Small.dust) ⟨v,Small.dust.state.rest⟩ Small.userB t 1000000
      1000000000 ∧
    v.positions.get Small.userA = some ⟨10,1,40⟩ ∧
    reply (get_health_factor (sharesAt Small.tokenA (beside Small.market)).apart (Small.nextEnv Small.dust)
      Small.userA) Small.dust.state = some 8000 ∧
    ¬ ∃ repay_amount event,
      (transition Small.marketStep Small.dust (Small.liquidates repay_amount)).output = .ok event := by
  obtain ⟨v,t,found,token,stored,funded⟩ := Small.market_ready Small.dust
    (Small.dust.clock.advance (Origin.signedBy Small.userB)) ⟨10,1,40⟩ 1000000 1000000000
    (by decide +kernel) (by decide +kernel) (by decide +kernel) (by decide +kernel) (by decide) (by decide +kernel)
    (by decide)
  refine ⟨v,t,found,Small.leveraged_custodial _ _ _ _,funded,stored,by decide +kernel,?_⟩
  rintro ⟨repay_amount,delivered⟩
  obtain ⟨⟨event,s'⟩,done⟩ := (delivered_iff found).mp delivered
  have effect : Effect (sharesAt Small.tokenA (beside Small.market)) (Small.nextEnv Small.dust)
      ⟨v,Small.dust.state.rest⟩ (.liquidate Small.userB Small.userA repay_amount) event s' := effect_of_call done
  have debt : Small.dust.state.own.map (fun v => (v.charged 50 Small.userA).borrowed_amount) = some 1 := by
    decide +kernel
  rw [found,Option.map_some,Option.some.injEq] at debt
  have now : (Small.nextEnv Small.dust).timestamp = 50 := by decide +kernel
  cases effect with
  | liquidate _ _ _ actual bonus seized p w liquidates =>
    obtain ⟨positive,half⟩ := liquidates.half
    rw [now] at half
    simp only at half
    omega
  | configured _ _ _ changed => cases changed

end Helix.Vault
