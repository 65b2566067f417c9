import Helix.LiquidationReach

/-!
The least size of a position. Deposits and withdrawals check what they leave
(`enforce_min_position`), loans and repayments leave the shares, but a liquidation
leaves whatever it does not take. So every stored position keeps the least size
through runs under one configuration exactly as long as no liquidation takes all but
too little (`min_position_kept`).
-/
namespace Helix.Vault
open Invoke

/-- No stored position is below the least size. -/
def AllSizable (v : HelixVault) : Prop := ∀ user p, v.positions.get user = some p → v.Sizable p.deposited_shares

section Steps
variable {W : Type} (clients : Clients W) (env : Env)

/-- What the other contracts answer, from a state on, when a repayment is made and the
    collateral that it comes to is asked for. -/
structure Comes (s : World HelixVault W) (liquidator user : Address) (repay_amount seized : Int) : Prop where
  steps : ∃ token factor price first second mid w, s.own.supported_assets.head? = some token ∧
    Health clients env s.own.oracle_address token s.own.pool_config.liq_threshold (s.own.charged env.timestamp user) factor
      s.rest first ∧
    Received clients env s.own.borrow_token liquidator
      (capped repay_amount ((s.own.charged env.timestamp user).borrowed_amount.tdiv 2)) first second ∧
    Quotes clients env s.own.oracle_address token price second mid ∧
    clients.shares_for_assets (env.calling token)
      (s.own.assetsFor price (capped repay_amount ((s.own.charged env.timestamp user).borrowed_amount.tdiv 2))) mid =
        some (seized, w)

/-- The shares that a repayment comes to are all of the user's, or leave the least size. -/
def Spares (s : World HelixVault W) (liquidator user : Address) (repay_amount : Int) : Prop :=
  ∀ seized, Comes clients env s liquidator user repay_amount seized →
    s.own.Sizable ((s.own.charged env.timestamp user).deposited_shares - seized)

variable {clients env} {s s' : World HelixVault W} {entry : Entry} {event : Option VaultEvent}

theorem Liquidates.comes {liquidator user : Address} {repay_amount actual bonus seized : Int} {p : Position} {w : W}
    (liquidates : Liquidates clients env s liquidator user repay_amount actual bonus seized p w) :
    Comes clients env s liquidator user repay_amount seized := by
  obtain ⟨token,factor,first,second,head,health,_,received,seizes⟩ := liquidates.steps
  have bonus_eq : bonus = s.own.bonusFor actual := seizes.bonus_eq
  obtain ⟨price,mid,later,quotes,_,converted,_⟩ := seizes.taken
  rw [bonus_eq] at converted
  rw [liquidates.capped] at received converted
  exact ⟨token,factor,price,first,second,mid,later,head,health,received,quotes,converted⟩

/-- The least size of a position in the shares of the user as a call finds them. -/
theorem AllSizable.charged (sizable : AllSizable s.own) (user : Address) (now : Nat) :
    s.own.Sizable (s.own.charged now user).deposited_shares := by
  rw [HelixVault.charged,Position.accrued_shares,HelixVault.opened]
  cases stored : s.own.positions.get user with
  | none => exact .inl rfl
  | some p => exact sizable user p stored

theorem AllSizable.posted {v : HelixVault} {user : Address} {p : Position} {shares debt : Int} (sizable : AllSizable v)
    (left : v.Sizable p.deposited_shares) : AllSizable (v.posted user p shares debt) :=
  HelixVault.posted_each sizable left

/-- All positions are sizable after a position is settled exactly if what is left of
    it is; an empty position is. -/
theorem AllSizable.settled_iff {v : HelixVault} {user : Address} {p : Position} {shares debt : Int}
    (sizable : AllSizable v) : AllSizable (v.settled user p shares debt) ↔ v.Sizable p.deposited_shares := by
  refine ⟨?_,HelixVault.settled_each sizable⟩
  intro after
  by_cases gone : p.deposited_shares = 0 ∧ p.borrowed_amount = 0
  · exact .inl gone.1
  · exact after user p (by simp only [HelixVault.settled,if_neg gone,Store.get_set_same])

/-- A successful liquidation keeps the least size exactly if it spares it. -/
theorem liquidates_sizable_iff {liquidator user : Address} {repay_amount actual bonus seized : Int} {p : Position} {w : W}
    (sizable : AllSizable s.own)
    (liquidates : Liquidates clients env s liquidator user repay_amount actual bonus seized p w) :
    AllSizable (s.own.settled user p (-seized) (-actual)) ↔
      s.own.Sizable ((s.own.charged env.timestamp user).deposited_shares - seized) := by
  rw [sizable.settled_iff,liquidates.position]

/-- What a call keeps, where liquidations spare the least size. -/
theorem AllSizable.effect (sizable : AllSizable s.own) (effect : Effect clients env s entry event s')
    (unconfigured : ∀ new_config, entry ≠ .update_config new_config)
    (spares : ∀ liquidator user repay_amount, entry = .liquidate liquidator user repay_amount →
      Spares clients env s liquidator user repay_amount) : AllSizable s'.own := by
  cases effect with
  | deposit user token amount p w deposits => exact sizable.posted deposits.sizable
  | withdraw user token amount p w withdraws => exact sizable.settled_iff.mpr withdraws.sizable
  | borrow user amount factor p w borrows =>
    refine sizable.posted ?_
    rw [borrows.position]
    exact sizable.charged user env.timestamp
  | repay user amount actual p w repays =>
    refine sizable.settled_iff.mpr ?_
    rw [repays.position]
    exact sizable.charged user env.timestamp
  | liquidate liquidator user repay_amount actual bonus seized p w liquidates =>
    refine (liquidates_sizable_iff sizable liquidates).mpr ?_
    exact spares liquidator user repay_amount rfl seized liquidates.comes
  | configured entry event v configured =>
    cases configured with
    | update_config new_config _ _ => exact absurd rfl (unconfigured new_config)
    | _ => exact sizable

end Steps

/-- The call of a transition, if it is a liquidation that goes through, spares the
    least size. -/
def SparesLeast {W : Type} (clients : Clients W) (vault : Address) (r : Served W) : Prop :=
  ∀ v liquidator user repay_amount, r.before.state.own = some v →
    served r = some (.liquidate liquidator user repay_amount) →
    Spares clients (r.env vault) ⟨v,r.before.state.rest⟩ liquidator user repay_amount

/-- In every run under one configuration in which every liquidation takes all shares
    of its user or leaves at least the least size, every stored position has no shares
    or at least that many. -/
theorem min_position_kept {W : Type} (clients : Clients W) (vault : Address) (clock : Clock) (w : W)
    (calls : List (Origin × Action W))
    (unconfigured : ∀ r ∈ trace (serve clients vault) (undeployed clock w) calls, Unconfigured r)
    (spares : ∀ r ∈ trace (serve clients vault) (undeployed clock w) calls, SparesLeast clients vault r) :
    ∀ v, (run (serve clients vault) (undeployed clock w) calls).state.own = some v → ∀ user p,
      v.positions.get user = some p → p.deposited_shares = 0 ∨ v.pool_config.min_position ≤ p.deposited_shares := by
  apply run_invariant (serve clients vault) (fun c => ∀ v, c.state.own = some v → AllSizable v) calls
  · rintro v ⟨⟩
  · intro r member makes held v own
    cases turn_of_makes makes with
    | called entry event u u' input out found left effect =>
      rw [left] at own
      cases own
      refine AllSizable.effect (s := ⟨u,r.before.state.rest⟩) (held u found) effect ?_ ?_
      · rintro new_config rfl
        exact unconfigured r member new_config (by rw [served,input,out])
      · rintro liquidator user repay_amount rfl
        exact spares r member u liquidator user repay_amount found (by rw [served,input,out])
    | initialised admin oracle borrow_token config _ _ _ left _ _ =>
      rw [left] at own
      cases own
      intro user p stored
      simp [fresh] at stored
    | moved move _ _ same _ => exact held v (by rw [← same]; exact own)
    | failed e _ same => exact held v (by rw [← same]; exact own)

theorem unconfigured_of_calls {W : Type} {clients : Clients W} {vault : Address} {c : Chain (State W)}
    {calls : List (Origin × Action W)} (none : ∀ call ∈ calls, ∀ new_config, call.2 ≠ .vault (.update_config new_config)) :
    ∀ r ∈ trace (serve clients vault) c calls, Unconfigured r := by
  intro r member new_config done
  exact none r.input (trace_input member) new_config (served_some.mp done).1

/-- Where the share token is the collateral, the repayment of a funded liquidator comes
    to the seizure at the price and the totals before the call. -/
theorem Funded.comes {O : Type} {hstETH : Address} {foreign : Clients (Ground O)} {env : Env}
    {s : World HelixVault (Ground O)} {liquidator user : Address} {t : Token.HelixToken}
    {price most repay_amount seized : Int} (funded : Funded hstETH foreign env s liquidator t price most)
    (positive : 0 < capped repay_amount ((s.own.charged env.timestamp user).borrowed_amount.tdiv 2))
    (within : capped repay_amount ((s.own.charged env.timestamp user).borrowed_amount.tdiv 2) ≤ most)
    (valued : t.total_assets ≠ 0) (comes : Comes (sharesAt hstETH foreign) env s liquidator user repay_amount seized) :
    seized = s.own.seizure t price
      (capped repay_amount ((s.own.charged env.timestamp user).borrowed_amount.tdiv 2)) := by
  obtain ⟨token,factor,price',first,second,mid,w,head,health,received,quotes,converted⟩ := comes.steps
  rw [funded.primary] at head
  cases head
  rw [funded.health_same health] at received
  obtain ⟨paid,received',found,quotes'⟩ := funded.pays _ positive within
  rw [received'.unique received] at quotes
  obtain ⟨rfl,rfl⟩ := quotes'.unique quotes
  have here : (env.calling hstETH).current_contract_address = hstETH := rfl
  simp only [sharesAt,if_pos here] at converted
  exact asked_shares found valued converted

namespace Small

/-- The shares fall to a price of seven, and user B repays 2000 of user A's debt. -/
def fallenCalls : List (Origin × Action (Ground Market)) :=
  (leveraged 1000 6000 ++ [quotes 70000000]) ++ [liquidates 2000]

instance (v : HelixVault) (shares : Int) : Decidable (v.Sizable shares) := inferInstanceAs (Decidable (_ ∨ _))

/-- What the repayment of 2000 comes to leaves enough. -/
theorem fallen_spares {v : HelixVault} (own : fallen.state.own = some v) :
    Spares (sharesAt tokenA (beside market)) (nextEnv fallen) ⟨v,fallen.state.rest⟩ userB userA 2000 := by
  intro seized comes
  obtain ⟨u,t,found,token,stored,funded⟩ := market_ready fallen (fallen.clock.advance (Origin.signedBy userB))
    ⟨1000,6000,40⟩ 70000000 3000 (by decide +kernel) (by decide +kernel) (by decide +kernel) (by decide +kernel) (by decide)
    (by decide +kernel) (by decide)
  rw [own] at found
  cases found
  have enough : (fallen.state.own.bind (fun v => fallen.state.rest.token.map (fun t =>
      decide (v.Sizable ((v.charged 50 userA).deposited_shares - v.seizure t 70000000 2000) ∧
        capped 2000 ((v.charged 50 userA).borrowed_amount.tdiv 2) = 2000 ∧ t.total_assets ≠ 0)))) = some true := by
    decide +kernel
  rw [own,token,Option.bind_some,Option.map_some,Option.some.injEq,decide_eq_true_eq] at enough
  obtain ⟨enough,whole,valued⟩ := enough
  have now : (nextEnv fallen).timestamp = 50 := by decide +kernel
  rw [← now] at enough whole
  have positive : (0 : Int) < 2000 := by decide
  have taken : seized = v.seizure t 70000000 (capped 2000 ((v.charged (nextEnv fallen).timestamp userA).borrowed_amount.tdiv 2)) :=
    funded.comes (positive.trans_eq whole.symm) (whole.trans_le (by decide)) valued comes
  rw [whole] at taken
  rw [taken]
  exact enough

end Small

/-- The liquidation takes 300 of 1000 shares, which leaves one at least. -/
theorem min_position_kept_fallen :
    (run Small.marketStep (Small.marketStart 100000000) Small.fallenCalls).state.own.map (fun v =>
      ((v.positions.get Small.userA).map (fun p => p.deposited_shares),v.pool_config.min_position)) = some (some 700,1) ∧
    ∀ v, (run Small.marketStep (Small.marketStart 100000000) Small.fallenCalls).state.own = some v → ∀ user p,
      v.positions.get user = some p → p.deposited_shares = 0 ∨ v.pool_config.min_position ≤ p.deposited_shares := by
  refine ⟨by decide +kernel,?_⟩
  refine min_position_kept (sharesAt Small.tokenA (beside Small.market)) Small.vault ⟨0,0⟩
    (Small.marketStart 100000000).state.rest Small.fallenCalls (unconfigured_of_calls ?_) ?_
  · simp [Small.fallenCalls,Small.leveraged,Small.calls,Small.callsShares,Small.quotes,Small.liquidates]
  · intro r member v liquidator user repay_amount own done
    have input := (served_some.mp done).1
    rw [Small.fallenCalls,trace_append,trace_single] at member
    rcases List.mem_append.mp member with earlier | last
    · have others : ∀ call ∈ Small.leveraged 1000 6000 ++ [Small.quotes 70000000], ∀ liquidator user repay_amount,
          call.2 ≠ .vault (.liquidate liquidator user repay_amount) := by
        simp [Small.leveraged,Small.calls,Small.callsShares,Small.quotes]
      exact absurd input (others r.input (trace_input earlier) _ _ _)
    · rw [List.mem_singleton.mp last] at own input ⊢
      cases input
      exact Small.fallen_spares own

namespace Small

/-- A configuration that asks for 800 shares at least. -/
def picky : PoolConfig := { config with min_position := 800 }

/-- The shares fall to a price of seven under that configuration, and user B repays
    2000 of user A's debt of 6000. -/
def pickyCalls : List (Origin × Action (Ground Market)) :=
  calls admin (.initialise admin oracle borrow_token picky) :: (leveraged 1000 6000).tail ++
    [quotes 70000000,liquidates 2000]

end Small

/-- User B repays 2000 where 800 shares are the least: the liquidation leaves 700 of
    1000 shares. -/
theorem small_position_left : ∃ v, (run Small.marketStep (Small.marketStart 100000000) Small.pickyCalls).state.own = some v ∧
    (∀ r ∈ trace Small.marketStep (Small.marketStart 100000000) Small.pickyCalls, Unconfigured r) ∧
    v.pool_config.min_position = 800 ∧ v.positions.get Small.userA = some ⟨700,4000,50⟩ := by
  have facts : (run Small.marketStep (Small.marketStart 100000000) Small.pickyCalls).state.own.map
      (fun v => (v.pool_config.min_position,v.positions.get Small.userA)) = some (800,some ⟨700,4000,50⟩) := by
    decide +kernel
  obtain ⟨v,found,same⟩ := Option.map_eq_some_iff.mp facts
  obtain ⟨least,left⟩ := Prod.mk.inj same
  refine ⟨v,found,unconfigured_of_calls ?_,least,left⟩
  simp [Small.pickyCalls,Small.leveraged,Small.calls,Small.callsShares,Small.quotes,Small.liquidates]

end Helix.Vault
