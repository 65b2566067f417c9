import Helix.VaultInterest
import Helix.VaultRates
import Helix.TokenRates
import Helix.LiquidationReach

/-!
How the health factor of a position moves. A reading is made of four floors: of the
interest, of what the shares come to, of what that is worth, and of the quotient by
the debt. None of them turns with more shares or with less debt (`Factor.mono`), so
while token and oracle answer the same, deposits and repayments do not lower the
reading, loans do not raise it (`reading_of_call`), and neither does time
(`reading_of_time`).
-/
namespace Helix

namespace Token

theorem Sound.supply_nonneg {t : HelixToken} (sound : Sound t) (holder : Address) : 0 ≤ t.total_shares :=
  (sound.balances_nonneg holder).trans (sound.balance_le holder)

/-- What shares come to, in terms of the totals. -/
theorem worth_iff {t : HelixToken} {shares assets : Int} : t.worth shares = some assets ↔ 0 ≤ shares ∧
    if t.total_shares = 0 ∨ shares = 0 then assets = 0
    else Fits (shares * t.total_assets) ∧ assets = (shares * t.total_assets).tdiv t.total_shares := by
  simp only [HelixToken.worth,Option.map_eq_some_iff,Invoke.answer_some,Prod.exists,assets_for_shares,validate_amount,
    Invoke.bind_ok,Invoke.require_ok,Invoke.read_ok,and_assoc,exists_and_left,exists_eq_left]
  by_cases none : t.total_shares = 0 ∨ shares = 0
  · simp [none]
  · simp [none,checked_mul,and_assoc]

/-- No shares, and shares of a token without any, come to nothing. -/
theorem worth_nothing {t : HelixToken} {shares assets : Int} (none : t.total_shares = 0 ∨ shares = 0)
    (told : t.worth shares = some assets) : assets = 0 := by
  have answered := (worth_iff.mp told).2
  rwa [if_pos none] at answered

@[simp] theorem worth_zero (t : HelixToken) : t.worth 0 = some 0 :=
  worth_iff.mpr ⟨le_rfl,by simp⟩

/-- Tokens with the same totals answer the same. -/
theorem worth_of_totals {t u : HelixToken} (shares_same : u.total_shares = t.total_shares)
    (assets_same : u.total_assets = t.total_assets) : u.worth = t.worth := by
  funext shares
  apply Option.ext
  intro assets
  rw [worth_iff,worth_iff,shares_same,assets_same]

/-- More shares come to more. -/
theorem Sound.worth_mono {t : HelixToken} (sound : Sound t) {shares shares' assets assets' : Int}
    (told : t.worth shares = some assets) (told' : t.worth shares' = some assets') (less : shares ≤ shares') :
    0 ≤ assets ∧ assets ≤ assets' := by
  rcases (sound.supply_nonneg t.admin).eq_or_lt with none | supplied
  · rw [worth_nothing (.inl none.symm) told,worth_nothing (.inl none.symm) told']
    exact ⟨le_rfl,le_rfl⟩
  · obtain ⟨nonneg,_,rfl⟩ := (sound.worth_some supplied).mp told
    obtain ⟨_,_,rfl⟩ := (sound.worth_some supplied).mp told'
    have scaled : shares * t.total_assets ≤ shares' * t.total_assets :=
      Int.mul_le_mul_of_nonneg_right less sound.assets_nonneg
    exact ⟨Int.ediv_nonneg (Int.mul_nonneg nonneg sound.assets_nonneg) supplied.le,Int.ediv_le_ediv supplied scaled⟩

end Token

namespace Vault
open Invoke
open Token (HelixToken)

/-! ### Health at given totals and a given price -/

/-- What some shares are worth at the totals of a share token and a price. -/
structure Worth (t : HelixToken) (price shares value : Int) : Prop where
  told : ∃ assets, t.worth shares = some assets ∧ value = (assets * price).tdiv PRICE_SCALAR
  priced : shares ≠ 0 → 0 < price

/-- The health factor of a position at the totals of a share token and a price. -/
inductive Factor (t : HelixToken) (price : Int) (liq_threshold : Nat) (p : Position) : Int → Prop
  | debtless : p.borrowed_amount = 0 → Factor t price liq_threshold p i128Max
  | ratio (value : Int) : 0 < p.borrowed_amount → Worth t price p.deposited_shares value → Fits (value * liq_threshold) →
      Factor t price liq_threshold p ((value * liq_threshold).tdiv p.borrowed_amount)

/-- At least as many shares for at most as much debt. -/
structure Position.Better (p q : Position) : Prop where
  shares : q.deposited_shares ≤ p.deposited_shares
  debt : p.borrowed_amount ≤ q.borrowed_amount

section Factors
variable {t : HelixToken} {price shares shares' value value' factor factor' : Int} {liq_threshold : Nat} {p q : Position}

/-- More shares are worth more. -/
theorem Worth.mono (sound : Token.Sound t) (worth : Worth t price shares value) (worth' : Worth t price shares' value')
    (less : shares ≤ shares') : 0 ≤ value ∧ value ≤ value' := by
  obtain ⟨assets,told,rfl⟩ := worth.told
  obtain ⟨assets',told',rfl⟩ := worth'.told
  obtain ⟨nonneg,within⟩ := sound.worth_mono told told' less
  have scalar : (0 : Int) ≤ PRICE_SCALAR := by decide
  by_cases priced : 0 ≤ price
  · exact ⟨Int.tdiv_nonneg (Int.mul_nonneg nonneg priced) scalar,
      Int.tdiv_le_tdiv (by decide) (Int.mul_le_mul_of_nonneg_right within priced)⟩
  · -- without a price only no shares at all are worth anything, which is nothing
    have nothing : assets = 0 := Token.worth_nothing (.inr (by_contra fun some => priced (worth.priced some).le)) told
    have nothing' : assets' = 0 := Token.worth_nothing (.inr (by_contra fun some => priced (worth'.priced some).le)) told'
    simp [nothing,nothing']

/-- More shares and less debt do not lower the health factor. -/
theorem Factor.mono (sound : Token.Sound t) (less : Factor t price liq_threshold p factor)
    (more : Factor t price liq_threshold q factor') (better : q.Better p) : factor ≤ factor' := by
  obtain ⟨shares,debt⟩ := better
  cases less with
  | debtless none =>
    cases more with
    | debtless none' => exact le_rfl
    | ratio value' owes' worth' fits' => omega
  | ratio value owes worth fits =>
    cases more with
    | debtless none' =>
      obtain ⟨nonneg,_⟩ := worth.mono sound worth le_rfl
      have scaled : 0 ≤ value * liq_threshold := Int.mul_nonneg nonneg (Int.natCast_nonneg _)
      rw [Int.tdiv_eq_ediv_of_nonneg scaled]
      exact (Int.ediv_le_self _ scaled).trans fits.2
    | ratio value' owes' worth' fits' =>
      obtain ⟨nonneg,within⟩ := worth.mono sound worth' shares
      have scaled : 0 ≤ value * liq_threshold := Int.mul_nonneg nonneg (Int.natCast_nonneg _)
      have grows : value * liq_threshold ≤ value' * liq_threshold :=
        Int.mul_le_mul_of_nonneg_right within (Int.natCast_nonneg _)
      rw [Int.tdiv_eq_ediv_of_nonneg scaled,Int.tdiv_eq_ediv_of_nonneg (scaled.trans grows)]
      calc value * liq_threshold / p.borrowed_amount
          ≤ value * liq_threshold / q.borrowed_amount := ediv_antitone scaled owes' debt
        _ ≤ value' * liq_threshold / q.borrowed_amount := Int.ediv_le_ediv owes' grows

end Factors

/-! ### Readings on the chain -/

section Readings
variable {W : Type} (clients : Clients W) (t : HelixToken) (price : Int)

/-- What the vault asks about its first collateral is answered from the totals of a
    share token and with one price. -/
def Answered (env : Env) (s : State W) : Prop :=
  ∀ v token shares assets quoted, s.own = some v → v.supported_assets.head? = some token →
    Tells clients env v.oracle_address token shares assets quoted s.rest → t.worth shares = some assets ∧ quoted = price

variable {clients t price} {env : Env} {user : Address} {s : State W} {v : HelixVault} {factor : Int}

/-- A reading is the health factor of the stored position with its interest. -/
theorem factor_of_reading (answered : Answered clients t price env s) (own : s.own = some v)
    (read : reply (get_health_factor clients.apart env user) s = some factor) :
    ∃ p, v.positions.get user = some p ∧
      Factor t price v.pool_config.liq_threshold (p.accrued env.timestamp v.pool_config.interest_rate) factor := by
  obtain ⟨u,s',found,ran⟩ := reply_some.mp read
  rw [own] at found
  cases found
  obtain ⟨token,p,w,head,stored,_,health,_⟩ := get_health_factor_ok.mp ran
  refine ⟨p,stored,?_⟩
  generalize p.accrued env.timestamp v.pool_config.interest_rate = q at health ⊢
  cases health with
  | debtless _ none => exact .debtless none
  | ratio value _ _ _ values owes fits =>
    refine .ratio value owes ?_ fits
    generalize q.deposited_shares = shares at values ⊢
    cases values with
    | nothing => exact ⟨⟨0,by simp⟩,fun some => absurd rfl some⟩
    | shares _ assets quoted _ mid _ some converted quotes =>
      obtain ⟨told,rfl⟩ := answered v token shares assets quoted own head ⟨mid,_,converted,quotes⟩
      exact ⟨⟨assets,told,rfl⟩,fun _ => quotes.positive⟩

/-- The calls of a user that add shares to its position or pay its debt. -/
inductive Entry.Secures (user : Address) : Entry → Prop
  | deposit (token : Address) (amount : Int) : Secures user (.deposit user token amount)
  | repay (amount : Int) : Secures user (.repay user amount)

section Calls
variable {entry : Entry} {event : Option VaultEvent} {a b : World HelixVault W} {p : Position}

/-- A deposit or a repayment leaves a better position, if it leaves one. -/
theorem better_of_secures (debt : 0 ≤ (a.own.charged env.timestamp user).borrowed_amount)
    (effect : Effect clients env a entry event b) (secures : entry.Secures user) (left : b.own.positions.get user = some p) :
    p.last_update = env.timestamp ∧ p.Better (a.own.charged env.timestamp user) := by
  cases secures with
  | deposit token amount =>
    cases effect with
    | deposit _ _ _ q w deposits =>
      have same : q = p := by simpa [HelixVault.posted] using left
      have positive := deposits.asked.positive
      rw [← same,deposits.position]
      exact ⟨rfl,⟨by simp only; omega,le_rfl⟩⟩
    | configured _ _ _ changed => cases changed
  | repay amount =>
    cases effect with
    | repay _ _ actual q w repays =>
      have same : q = p := by
        by_cases gone : q.deposited_shares = 0 ∧ q.borrowed_amount = 0
        · simp [HelixVault.settled,gone] at left
        · simpa [HelixVault.settled,gone] using left
      have paid : 0 ≤ actual := by
        rw [repays.capped]
        exact capped_nonneg repays.asked.positive.le debt
      rw [← same,repays.position]
      exact ⟨rfl,⟨le_rfl,by simp only; omega⟩⟩
    | configured _ _ _ changed => cases changed

/-- A loan leaves a worse one. -/
theorem worse_of_borrow {amount : Int} (effect : Effect clients env a (.borrow user amount) event b)
    (left : b.own.positions.get user = some p) :
    p.last_update = env.timestamp ∧ (a.own.charged env.timestamp user).Better p := by
  cases effect with
  | borrow _ _ _ q w borrows =>
    have same : q = p := by simpa [HelixVault.posted] using left
    have positive := borrows.asked.positive
    rw [← same,borrows.position]
    exact ⟨rfl,⟨le_rfl,by simp only; omega⟩⟩
  | configured _ _ _ changed => cases changed

end Calls

variable {vault : Address} {reader reader' : Env} {factor' : Int}

/-- Two readings around a call are of the position that the call charges and of the
    one it leaves. -/
theorem readings_around {r : Served W} {entry : Entry} {event : Option VaultEvent} (makes : Makes (serve clients vault) r)
    (input : r.input.2 = .vault entry) (out : r.output = .ok event)
    (initialised : ∀ admin oracle borrow_token config, entry ≠ .initialise admin oracle borrow_token config)
    (unconfigured : ∀ new_config, entry ≠ .update_config new_config) (now : reader.timestamp = r.clock.timestamp)
    (answered : Answered clients t price reader r.before.state) (answered' : Answered clients t price reader' r.after.state)
    (read : reply (get_health_factor clients.apart reader user) r.before.state = some factor)
    (read' : reply (get_health_factor clients.apart reader' user) r.after.state = some factor') :
    ∃ v s' p p', r.before.state.own = some v ∧ v.positions.get user = some p ∧
      Effect clients (r.env vault) ⟨v,r.before.state.rest⟩ entry event s' ∧ s'.own.positions.get user = some p' ∧
      Factor t price v.pool_config.liq_threshold (v.charged r.clock.timestamp user) factor ∧
      Factor t price v.pool_config.liq_threshold (p'.accrued reader'.timestamp v.pool_config.interest_rate) factor' := by
  obtain ⟨v,s',found,after,effect⟩ := called_of_makes makes input out initialised
  have own : r.after.state.own = some s'.own := by rw [after]
  have config : s'.own.pool_config = v.pool_config := config_of_effect effect unconfigured
  obtain ⟨p,stored,before⟩ := factor_of_reading answered found read
  obtain ⟨p',stored',left⟩ := factor_of_reading answered' own read'
  rw [config] at left
  rw [now] at before
  refine ⟨v,s',p,p',found,stored,effect,stored',?_,left⟩
  rw [HelixVault.charged,HelixVault.opened,stored,Option.getD_some]
  exact before

/-- A user's deposits and repayments do not lower its reading, and its loans do not
    raise it. -/
theorem reading_of_call {r : Served W} {entry : Entry} {event : Option VaultEvent} (totals : Token.Sound t)
    (makes : Makes (serve clients vault) r) (sound : (book r.before).WellFormed r.before.clock.timestamp)
    (input : r.input.2 = .vault entry) (out : r.output = .ok event) (now : reader.timestamp = r.clock.timestamp)
    (now' : reader'.timestamp = r.clock.timestamp) (answered : Answered clients t price reader r.before.state)
    (answered' : Answered clients t price reader' r.after.state)
    (read : reply (get_health_factor clients.apart reader user) r.before.state = some factor)
    (read' : reply (get_health_factor clients.apart reader' user) r.after.state = some factor') :
    (entry.Secures user → factor ≤ factor') ∧ (∀ amount, entry = .borrow user amount → factor' ≤ factor) := by
  constructor
  · intro secures
    have later : ∀ admin oracle borrow_token config, entry ≠ .initialise admin oracle borrow_token config := by
      cases secures <;> nofun
    have unconfigured : ∀ new_config, entry ≠ .update_config new_config := by
      cases secures <;> nofun
    obtain ⟨v,s',p,p',found,stored,effect,stored',before,after⟩ :=
      readings_around makes input out later unconfigured now answered answered' read read'
    rw [book_of_own found] at sound
    have debt := HelixVault.charged_debt_nonneg r.clock.timestamp user sound
    obtain ⟨current,better⟩ := better_of_secures debt effect secures stored'
    have settled : p'.accrued r.clock.timestamp v.pool_config.interest_rate = p' := Position.accrued_now current _
    rw [now',settled] at after
    exact before.mono totals after better
  · rintro amount rfl
    obtain ⟨v,s',p,p',found,stored,effect,stored',before,after⟩ :=
      readings_around makes input out nofun nofun now answered answered' read read'
    obtain ⟨current,worse⟩ := worse_of_borrow effect stored'
    have settled : p'.accrued r.clock.timestamp v.pool_config.interest_rate = p' := Position.accrued_now current _
    rw [now',settled] at after
    exact after.mono totals before worse

/-- While nobody touches the position or the configuration, its reading does not rise. -/
theorem reading_of_time {c : Chain (State W)} (totals : Token.Sound t) (sound : (book c).WellFormed c.clock.timestamp)
    (later : List (Origin × Action W))
    (untouched : ∀ q ∈ trace (serve clients vault) c later, (served q).bind Entry.account ≠ some user)
    (unconfigured : ∀ q ∈ trace (serve clients vault) c later, Unconfigured q)
    (ordered : reader.timestamp ≤ reader'.timestamp) (answered : Answered clients t price reader c.state)
    (answered' : Answered clients t price reader' (run (serve clients vault) c later).state)
    (read : reply (get_health_factor clients.apart reader user) c.state = some factor)
    (read' : reply (get_health_factor clients.apart reader' user) (run (serve clients vault) c later).state =
      some factor') : factor' ≤ factor := by
  obtain ⟨v,_,found,_⟩ := reply_some.mp read
  obtain ⟨p,stored,before⟩ := factor_of_reading answered found read
  have kept := run_invariant (serve clients vault) (s := c)
    (fun d => ∃ u, d.state.own = some u ∧ u.pool_config = v.pool_config) later ⟨v,found,rfl⟩ (by
      rintro q member makes ⟨u,own,same⟩
      obtain ⟨u',own',same'⟩ := config_kept makes (unconfigured q member) own
      exact ⟨u',own',same'.trans same⟩)
  obtain ⟨v',found',config⟩ := kept
  obtain ⟨p',stored',after⟩ := factor_of_reading answered' found' read'
  have waits := position_waits sound later untouched
  rw [book_of_own found] at waits sound
  rw [book_of_own found'] at waits
  have same : p' = p := Option.some.inj (stored'.symm.trans (waits.trans stored))
  rw [same,config] at after
  have debt := (sound.positions user p stored).debt_nonneg
  exact after.mono totals before ⟨le_rfl,Int.add_le_add_left (Position.interest_mono debt ordered) _⟩

end Readings

/-- In every reached state of a vault, while what it asks is answered from the same
    totals and with the same price: a successful deposit or repayment leaves the health
    factor of the user's position at least as high as it reads just before, and a loan
    no higher; and between any two readings in which nobody touches the position or the
    configuration, it does not rise. -/
theorem health_moves {W : Type} (clients : Clients W) (vault : Address) (clock : Clock) (w : W)
    (calls : List (Origin × Action W)) (t : HelixToken) (totals : Token.Sound t) (price : Int) (user : Address) :
    let now := run (serve clients vault) (undeployed clock w) calls
    (∀ origin entry event reader reader' factor factor',
      let r : Served W := transition (serve clients vault) now (origin,.vault entry)
      r.output = .ok event → reader.timestamp = r.clock.timestamp → reader'.timestamp = r.clock.timestamp →
      Answered clients t price reader now.state → Answered clients t price reader' r.after.state →
      reply (get_health_factor clients.apart reader user) now.state = some factor →
      reply (get_health_factor clients.apart reader' user) r.after.state = some factor' →
      (entry.Secures user → factor ≤ factor') ∧ (∀ amount, entry = .borrow user amount → factor' ≤ factor)) ∧
    (∀ later reader reader' factor factor',
      (∀ q ∈ trace (serve clients vault) now later, (served q).bind Entry.account ≠ some user ∧ Unconfigured q) →
      reader.timestamp ≤ reader'.timestamp → Answered clients t price reader now.state →
      Answered clients t price reader' (run (serve clients vault) now later).state →
      reply (get_health_factor clients.apart reader user) now.state = some factor →
      reply (get_health_factor clients.apart reader' user) (run (serve clients vault) now later).state = some factor' →
      factor' ≤ factor) := by
  intro now
  have sound := serve_wellFormed clients vault clock w calls
  constructor
  · intro origin entry event reader reader' factor factor' r out same same' answered answered' read read'
    exact reading_of_call totals (transition_makes _ _) sound rfl out same same' answered answered' read read'
  · intro later reader reader' factor factor' quiet ordered answered answered' read read'
    exact reading_of_time totals sound later (fun q member => (quiet q member).1) (fun q member => (quiet q member).2)
      ordered answered answered' read read'

/-- The share token answers from its own totals. -/
theorem answered_of_shares {O : Type} {hstETH : Address} {foreign : Clients (Ground O)} {env : Env}
    {s : State (Ground O)} {t u : HelixToken} {price : Int}
    (primary : ∀ v, s.own = some v → v.supported_assets.head? = some hstETH) (token : s.rest.token = some u)
    (shares : u.total_shares = t.total_shares) (assets : u.total_assets = t.total_assets)
    (quoted : ∀ oracle price' w, Quotes (sharesAt hstETH foreign) env oracle hstETH price' s.rest w → price' = price) :
    Answered (sharesAt hstETH foreign) t price env s := by
  intro v first amount told price' own head tells
  rw [primary v own] at head
  cases head
  obtain ⟨mid,w,converted,quotes⟩ := tells
  have here : (env.calling hstETH).current_contract_address = hstETH := rfl
  simp only [sharesAt,if_pos here] at converted
  rw [ask_same converted] at quotes
  rw [Ground.ask,token,Option.bind_some] at converted
  obtain ⟨r,answered,same⟩ := Option.map_eq_some_iff.mp converted
  refine ⟨?_,quoted _ _ _ quotes⟩
  rw [← Token.worth_of_totals shares assets,HelixToken.worth,answered,Option.map_some,(Prod.mk.inj same).1]

namespace Small

/-- A market answers from the totals of its share token and with its price. -/
theorem market_answered {env : Env} {s : State (Ground Market)} {t u : HelixToken} {price : Int}
    (primary : ∀ v, s.own = some v → v.supported_assets.head? = some tokenA) (token : s.rest.token = some u)
    (shares : u.total_shares = t.total_shares) (assets : u.total_assets = t.total_assets)
    (priced : s.rest.others.price = price) : Answered (sharesAt tokenA (beside market)) t price env s := by
  refine answered_of_shares primary token shares assets ?_
  intro oracle price' w quotes
  obtain ⟨⟨mid,timestamp,decimals,quoted,_⟩,_⟩ := quotes
  cases decimals
  cases quoted
  exact priced

/-- A debt of 6000 on a thousand shares at a price of ten. -/
def lent : Chain (State (Ground Market)) :=
  run marketStep (marketStart 100000000) (leveraged 1000 6000 ++ [quotes 100000000])

/-- The user repays a thousand. -/
def repaying : Served (Ground Market) := transition marketStep lent (calls userA (.repay userA 1000))

/-- A user's view of the vault at a time. -/
def seenAt (timestamp : Nat) : Env := { (Origin.signedBy userA).env ⟨0,0⟩ vault with timestamp := timestamp }

end Small

/-- A repayment of 1000 raises a health factor of 13333 to 16000, and a year lowers it
    to 12698. -/
theorem health_moves_lent : (13333 : Int) ≤ 16000 ∧ (12698 : Int) ≤ 13333 := by
  have primary : ∀ v, Small.lent.state.own = some v → v.supported_assets.head? = some Small.tokenA := by
    have facts : Small.lent.state.own.all (fun v => decide (v.supported_assets.head? = some Small.tokenA)) = true := by
      decide +kernel
    intro v own
    simpa [own] using facts
  have primary' : ∀ v, Small.repaying.after.state.own = some v → v.supported_assets.head? = some Small.tokenA := by
    have facts : Small.repaying.after.state.own.all (fun v => decide (v.supported_assets.head? = some Small.tokenA)) =
        true := by decide +kernel
    intro v own
    simpa [own] using facts
  have rate : Small.lent.state.rest.rate = some (1000,1000) := by decide +kernel
  have rate' : Small.repaying.after.state.rest.rate = Small.lent.state.rest.rate := by decide +kernel
  obtain ⟨t,token,_⟩ := Option.map_eq_some_iff.mp rate
  obtain ⟨u,token',shares,assets⟩ := token_of_rate token rate'
  obtain ⟨v,found⟩ := Option.isSome_iff_exists.mp (show Small.lent.state.own.isSome = true by decide +kernel)
  obtain ⟨_,sound⟩ := Small.leveraged_sound found token
  obtain ⟨called,waited⟩ := health_moves (sharesAt Small.tokenA (beside Small.market)) Small.vault ⟨0,0⟩
    (Small.marketStart 100000000).state.rest (Small.leveraged 1000 6000 ++ [Small.quotes 100000000]) t sound 100000000
    Small.userA
  have answered : ∀ env, Answered (sharesAt Small.tokenA (beside Small.market)) t 100000000 env Small.lent.state :=
    fun env => Small.market_answered primary token rfl rfl (by decide +kernel)
  constructor
  · have moved := called (Origin.signedBy Small.userA) (.repay Small.userA 1000)
      (some (.repay Small.userA 1000 5000)) (Small.seenAt 50) (Small.seenAt 50)
      13333 16000 (by decide +kernel) (by decide +kernel) (by decide +kernel) (answered _)
      (Small.market_answered primary' token' shares assets (by decide +kernel)) (by decide +kernel) (by decide +kernel)
    exact moved.1 (.repay 1000)
  · refine waited [] (Small.seenAt 50) (Small.seenAt 31536050) 13333 12698 ?_ (by decide) (answered _) (answered _)
      (by decide +kernel) (by decide +kernel)
    intro q member
    cases member

end Vault
end Helix
