import Helix.VaultAuthority
import Helix.VaultDebt
import Helix.VaultExit

/-!
How debts end. A liquidation leaves half of a debt at least, so however many there
are a debt lasts until its own user repays (`debt_outlasts_liquidations`). A user
who can pay the whole debt is rid of it, paused vault or not, and then gets back
all its shares once the vault is not paused; no oracle is asked for either
(`debtor_can_leave`).
-/
namespace Helix.Vault
open Invoke
open Token (Bystanders)

/-! ### What a liquidation leaves -/

/-- Whom a call liquidates. -/
def Entry.liquidated : Entry → Option Address
  | .liquidate _ user _ => some user
  | _ => none

/-- Who repays with a call. -/
def Entry.repayer : Entry → Option Address
  | .repay user _ => some user
  | _ => none

theorem Entry.account_of_liquidated {entry : Entry} {user : Address} (liquidated : entry.liquidated = some user) :
    entry.account = some user := by
  cases entry with
  | liquidate liquidator debtor repay_amount => exact liquidated
  | _ => cases liquidated

section Debts
variable {W : Type}

/-- A call that liquidates a user. -/
def liquidates (user : Address) (r : Served W) : Bool := decide ((served r).bind Entry.liquidated = some user)

/-- No call with which a user repays. -/
def Unpaid (user : Address) (r : Served W) : Prop := (served r).bind Entry.repayer ≠ some user

instance (user : Address) (r : Served W) : Decidable (Unpaid user r) := inferInstanceAs (Decidable (_ ≠ _))

variable {clients : Clients W} {vault user : Address} {r : Served W}

section Calls
variable {env : Env} {s s' : World HelixVault W} {entry : Entry} {event : Option VaultEvent}

theorem lent_nonneg (effect : Effect clients env s entry event s') (counts : Address → Bool) : 0 ≤ entry.lent counts := by
  cases effect with
  | borrow debtor amount factor p w borrows =>
    simp only [Entry.lent]
    split
    · exact borrows.asked.positive.le
    · exact le_rfl
  | configured entry event v configured => cases configured <;> exact le_rfl
  | _ => exact le_rfl

/-- What is received for the debt of a user who does not repay is half of it at most,
    and that only in a liquidation. -/
theorem received_halves {now : Nat} (sound : s.own.book.WellFormed now) (effect : Effect clients env s entry event s')
    (unpaid : entry.repayer ≠ some user) : 2 * (event.map (VaultEvent.received (only user))).getD 0 ≤
      if entry.liquidated = some user then (s.own.charged env.timestamp user).borrowed_amount else 0 := by
  cases effect with
  | repay debtor amount actual p w repays =>
    have other : debtor ≠ user := by
      rintro rfl
      exact unpaid rfl
    simp [VaultEvent.received,only,other,Entry.liquidated]
  | liquidate liquidator debtor repay_amount actual bonus seized p w liquidates =>
    by_cases same : debtor = user
    · subst same
      have half := capped_le repay_amount ((s.own.charged env.timestamp debtor).borrowed_amount.tdiv 2)
      rw [← liquidates.capped,Int.tdiv_eq_ediv_of_nonneg (HelixVault.charged_debt_nonneg _ _ sound)] at half
      simp only [Option.map_some,Option.getD_some,VaultEvent.received,only,decide_true,if_true,Entry.liquidated]
      omega
    · simp [VaultEvent.received,only,same,Entry.liquidated]
  | configured entry event v configured =>
    cases configured <;> simp [VaultEvent.received,Entry.liquidated]
  | _ => simp [VaultEvent.received,Entry.liquidated]

end Calls

/-- A call with which the user does not repay leaves half of its debt at least, and
    all of it if it is no liquidation. -/
theorem debt_halved (makes : Makes (serve clients vault) r)
    (sound : (book r.before).WellFormed r.before.clock.timestamp) (unpaid : Unpaid user r) :
    (book r.before).debt user ≤ (if liquidates user r = true then 2 else 1) * (book r.after).debt user := by
  have moved := debt_moved user makes sound
  have bookedMore := booked_nonneg user r
  have owed := sound.debt_nonneg user
  cases turn_of_makes makes with
  | called entry event v v' input out found left effect =>
    have entered : served r = some entry := by simp [served,input,out]
    obtain ⟨lends,receives⟩ := called_lent input out (only user)
    have lent := lent_nonneg effect (only user)
    rw [book_of_own found] at sound
    have half : 2 * (event.map (VaultEvent.received (only user))).getD 0 ≤
        if entry.liquidated = some user then (v.charged (r.env vault).timestamp user).borrowed_amount else 0 :=
      received_halves sound effect (by rwa [Unpaid,entered] at unpaid)
    rw [lends,receives] at moved
    by_cases halves : entry.liquidated = some user
    · have counted : liquidates user r = true := by simp [liquidates,entered,halves]
      have charged : booked user r = v.interestOn (r.env vault).timestamp user := by
        simp only [booked,entered,Option.bind_some,Entry.account_of_liquidated halves,if_true,interest,found]
        rfl
      rw [if_pos counted]
      rw [if_pos halves,HelixVault.charged_debt] at half
      rw [book_of_own found,charged] at moved
      rw [book_of_own found] at owed ⊢
      omega
    · have uncounted : ¬ liquidates user r = true := by simp [liquidates,entered,halves]
      rw [if_neg uncounted]
      rw [if_neg halves] at half
      omega
  | initialised admin oracle token config input out missing left rest valid =>
    obtain ⟨lends,receives⟩ := called_lent input out (only user)
    rw [lends,receives] at moved
    have uncounted : ¬ liquidates user r = true := by simp [liquidates,served,input,out,Entry.liquidated]
    rw [if_neg uncounted]
    simp only [Entry.lent,Option.map_none,Option.getD_none] at moved
    omega
  | moved move input out own rest => simp [liquidates,served,input,book,own]
  | failed e out same => simp [liquidates,served,out,book,same]

/-- Until a user repays, its debt stays, up to a halving for each liquidation. -/
theorem debt_outlasts_liquidations (clients : Clients W) (vault : Address) (clock : Clock) (w : W)
    (earlier later : List (Origin × Action W)) (user : Address) :
    let before := run (serve clients vault) (undeployed clock w) earlier
    (∀ r ∈ trace (serve clients vault) before later, Unpaid user r) →
      (book before).debt user ≤ 2 ^ (trace (serve clients vault) before later).countP (liquidates user) *
        (book (run (serve clients vault) before later)).debt user := by
  intro before
  have started := serve_wellFormed clients vault clock w earlier
  have kept := run_history (serve clients vault) (s := before)
    (fun past c => (book c).WellFormed c.clock.timestamp ∧ ((∀ r ∈ past, Unpaid user r) →
      (book before).debt user ≤ 2 ^ past.countP (liquidates user) * (book c).debt user)) later
    ⟨started,fun _ => by simp⟩ ?_
  · exact kept.2
  · rintro past r _ makes ⟨sound,lasts⟩
    refine ⟨wellFormed_kept makes sound,?_⟩
    intro unpaid
    have here := lasts (fun q member => unpaid q (List.mem_append_left _ member))
    have next := debt_halved makes sound (unpaid r (by simp))
    calc (book before).debt user
        ≤ 2 ^ past.countP (liquidates user) * (book r.before).debt user := here
      _ ≤ 2 ^ past.countP (liquidates user) * ((if liquidates user r = true then 2 else 1) * (book r.after).debt user) :=
          Int.mul_le_mul_of_nonneg_left next (pow_nonneg (by decide) _)
      _ = 2 ^ (past ++ [r]).countP (liquidates user) * (book r.after).debt user := by
          rw [List.countP_append,pow_add,← Int.mul_assoc]
          congr 2
          by_cases halves : liquidates user r = true <;> simp [halves]

end Debts

/-- A liquidation repays some of the debt of thirteen years. -/
theorem debt_outlasts_liquidations_overdue :
    let before := run Small.step Small.start (Small.overdue.take 4)
    (book before).debt Small.userA = 500000 ∧ (book before).debt Small.userA ≤
      2 ^ 1 * (book (run Small.step before (Small.overdue.drop 4))).debt Small.userA :=
  ⟨by decide +kernel,debt_outlasts_liquidations Small.clients Small.vault ⟨0,0⟩ Small.purse (Small.overdue.take 4)
    (Small.overdue.drop 4) Small.userA (by decide +kernel)⟩

/-! ### Leaving with a debt -/

section Payments
variable {W : Type} {clients : Clients W} {vault user : Address} {v : HelixVault} {p : Position}

/-- A user can pay its whole debt with a call: the interest up to now can be computed,
    the amount asked for is enough, and the borrowed token hands over the debt. -/
structure Payable (clients : Clients W) (vault : Address) (v : HelixVault) (user : Address) (amount : Int) (env : Env) (w : W) :
    Prop where
  asked : Asked env v user amount
  chargeable : v.Chargeable env.timestamp user
  enough : (v.charged env.timestamp user).borrowed_amount ≤ amount
  funds : 0 < (v.charged env.timestamp user).borrowed_amount →
    ∃ w', Received clients env v.borrow_token user (v.charged env.timestamp user).borrowed_amount w w'
  total : Fits (v.total_borrows - (v.charged env.timestamp user).borrowed_amount)

/-- What is paid off is a repayment. -/
theorem Payable.repays {amount : Int} {env : Env} {w : W} (payable : Payable clients vault v user amount env w)
    (found : v.positions.get user = some p) :
    ∃ w', Repays clients env ⟨v,w⟩ user amount (v.charged env.timestamp user).borrowed_amount
      ⟨p.deposited_shares,0,env.timestamp⟩ w' := by
  have shares : (v.charged env.timestamp user).deposited_shares = p.deposited_shares := by
    rw [v.charged_shares]
    exact Store.weight_of_get found
  have whole : (v.charged env.timestamp user).borrowed_amount = capped amount (v.charged env.timestamp user).borrowed_amount := by
    have enough := payable.enough
    unfold capped
    split <;> omega
  have nothing : Fits ((v.charged env.timestamp user).borrowed_amount - (v.charged env.timestamp user).borrowed_amount) := by
    rw [sub_self]
    exact fits_zero
  have left : (⟨p.deposited_shares,0,env.timestamp⟩ : Position) = { v.charged env.timestamp user with
      borrowed_amount := (v.charged env.timestamp user).borrowed_amount - (v.charged env.timestamp user).borrowed_amount } := by
    rw [Position.mk.injEq]
    exact ⟨shares.symm,(sub_self _).symm,rfl⟩
  by_cases owes : 0 < (v.charged env.timestamp user).borrowed_amount
  · obtain ⟨w',received⟩ := payable.funds owes
    exact ⟨w',payable.asked,by rw [found]; rfl,payable.chargeable,whole,by rwa [if_pos owes],nothing,left,payable.total⟩
  · exact ⟨w,payable.asked,by rw [found]; rfl,payable.chargeable,whole,if_neg owes ▸ rfl,nothing,left,payable.total⟩

/-- A call of somebody else does not go to a debtless position: it cannot be liquidated. -/
theorem debtless_untouched {env : Env} {s s' : World HelixVault W} {entry : Entry} {event : Option VaultEvent}
    (effect : Effect clients env s entry event s') (found : s.own.positions.get user = some p)
    (debtless : p.borrowed_amount = 0) (absent : ¬ env.Authorised user) : entry.account ≠ some user := by
  intro touched
  cases effect with
  | deposit depositor token amount q w deposits => cases touched; exact absent deposits.asked.authorised
  | withdraw depositor token amount q w withdraws => cases touched; exact absent withdraws.asked.authorised
  | borrow debtor amount factor q w borrows => cases touched; exact absent borrows.asked.authorised
  | repay debtor amount actual q w repays => cases touched; exact absent repays.asked.authorised
  | liquidate liquidator debtor repay_amount actual bonus seized q w liquidates =>
    cases touched
    have owed : (s.own.charged env.timestamp user).borrowed_amount = 0 := by
      have idle : ¬ 0 < p.borrowed_amount := by omega
      rw [HelixVault.charged,HelixVault.opened,found,Option.getD_some,Position.accrued,Position.interest_debtless _ _ _ idle,
        debtless]
      rfl
    have positive := liquidates.positive
    have half := capped_le repay_amount ((s.own.charged env.timestamp user).borrowed_amount.tdiv 2)
    rw [← liquidates.capped,owed,Int.zero_tdiv] at half
    omega
  | configured entry event u configured =>
    obtain ⟨_,untouched,_⟩ := configured.idle
    rw [untouched] at touched
    cases touched

/-- So a debtless position is changed by its own user only. -/
theorem debtless_kept {r : Served W} (makes : Makes (serve clients vault) r)
    (sound : (book r.before).WellFormed r.before.clock.timestamp) (found : (book r.before).positions.get user = some p)
    (debtless : p.borrowed_amount = 0) (absent : ¬ (r.env vault).Authorised user) :
    (book r.after).positions.get user = some p := by
  rw [← found]
  refine position_kept (kept_of_makes makes sound) ?_
  cases turn_of_makes makes with
  | called entry event v v' input out own left effect =>
    have entered : served r = some entry := by simp [served,input,out]
    rw [book_of_own own] at found
    rw [entered,Option.bind_some]
    exact debtless_untouched effect found debtless absent
  | initialised admin oracle token config input out => simp [served,input,out,Entry.account]
  | moved move input out => simp [served,input]
  | failed e out => simp [served,out]

end Payments

section Leaving
variable {O : Type} {hstETH vault : Address} {foreign : Clients (Ground O)}

theorem Custodial.earlier {past later : List (Served (Ground O))} (custodial : Custodial hstETH vault (past ++ later)) :
    Custodial hstETH vault past where
  strangers q member := custodial.strangers q (List.mem_append_left _ member)
  outside q member := custodial.outside q (List.mem_append_left _ member)
  borrow_other q member := custodial.borrow_other q (List.mem_append_left _ member)
  only q member := custodial.only q (List.mem_append_left _ member)
  stays := (List.pairwise_append.mp custodial.stays).1

/-- Where somebody has shares, the share token is listed. -/
theorem Held.lists {past : List (Served (Ground O))} {c : Chain (State (Ground O))} {v : HelixVault} {user : Address}
    {p : Position} (held : Held hstETH vault past c) (reached : c.state.own = some v)
    (found : v.positions.get user = some p) (shares : 0 < p.deposited_shares) : hstETH ∈ v.supported_assets := by
  have within : v.book.shares user ≤ v.total_deposits := by
    have sound := held.sound
    rw [book_of_own reached] at sound
    exact sound.shares_le user
  have own : v.book.shares user = p.deposited_shares := Store.weight_of_get found
  by_contra absent
  have undeposited : ∀ q ∈ past, ¬ Deposited q := by
    intro q member deposited
    obtain ⟨v',same,supported⟩ := held.supported q member deposited
    rw [reached] at same
    cases same
    exact absent supported
  have none := held.undeposited undeposited
  rw [book_of_own reached] at none
  change v.total_deposits = 0 at none
  omega

/-- A user whose whole debt can be paid repays it, and keeps its shares without it. -/
theorem repaid_in_full {W : Type} {clients : Clients W} {vault user : Address} {c : Chain (State W)} {v : HelixVault}
    {p : Position} {amount : Int} {origin : Origin} (reached : c.state.own = some v)
    (found : v.positions.get user = some p) (shares : 0 < p.deposited_shares)
    (payable : Payable clients vault v user amount (origin.env (c.clock.advance origin) vault) c.state.rest) :
    let payment := transition (serve clients vault) c (origin,.vault (.repay user amount))
    (∃ event, payment.output = .ok event) ∧ (book payment.after).positions.get user =
      some ⟨p.deposited_shares,0,(c.clock.advance origin).timestamp⟩ := by
  obtain ⟨w',repays⟩ := payable.repays found
  have ran : act clients (origin.env (c.clock.advance origin) vault) (.vault (.repay user amount)) c.state = _ :=
    invoke_of_call reached (repay_returns repays)
  have delivered : serve clients vault c (origin,.vault (.repay user amount)) = _ := deliver_ok ran
  have stored (q : Position) (kept : q.deposited_shares ≠ 0) : (v.settled user q 0 0).positions.get user = some q := by
    simp [HelixVault.settled,kept,Store.get_set_same]
  unfold transition
  rw [delivered]
  exact ⟨⟨_,rfl⟩,stored ⟨p.deposited_shares,0,(c.clock.advance origin).timestamp⟩ shares.ne'⟩

/-- A user who can pay its whole debt repays it, in any state of a run whose only
    collateral is the share token; and while nobody signs for the user, it owes
    nothing and keeps its shares, paused vault or not, and when the vault is not
    paused a withdrawal of all of them succeeds. Nothing is asked of the oracle. -/
theorem debtor_can_leave (strangers : Strangers vault foreign) (clock : Clock) (admin bridge : Address) (others : O)
    (earlier later : List (Origin × Action (Ground O))) (origin : Origin) (user : Address) (amount : Int)
    (custodial : Custodial hstETH vault (trace (serve (sharesAt hstETH foreign) vault)
      (beginning clock admin vault bridge others) (earlier ++ (origin,.vault (.repay user amount)) :: later)))
    (v : HelixVault) (p : Position)
    (reached : (run (serve (sharesAt hstETH foreign) vault) (beginning clock admin vault bridge others) earlier).state.own =
      some v) (found : v.positions.get user = some p) (shares : 0 < p.deposited_shares) :
    let owing := run (serve (sharesAt hstETH foreign) vault) (beginning clock admin vault bridge others) earlier
    let payment := transition (serve (sharesAt hstETH foreign) vault) owing (origin,.vault (.repay user amount))
    let final := run (serve (sharesAt hstETH foreign) vault) payment.after later
    Payable (sharesAt hstETH foreign) vault v user amount (origin.env (owing.clock.advance origin) vault) owing.state.rest →
      (∃ event, payment.output = .ok event) ∧
        ((∀ r ∈ trace (serve (sharesAt hstETH foreign) vault) payment.after later, ¬ (Delivery.env vault r).Authorised user) →
          ((book final).debt user = 0 ∧ (book final).shares user = p.deposited_shares) ∧
          ((∀ u, final.state.own = some u → u.paused = false) →
            ∀ request : Origin, (request.invoker = some user ∨ request.signed user = true) →
              Leaves (transition (serve (sharesAt hstETH foreign) vault) final
                (request,.vault (.withdraw user hstETH p.deposited_shares))) user p.deposited_shares)) := by
  intro owing payment final payable
  have traced : trace (serve (sharesAt hstETH foreign) vault) (beginning clock admin vault bridge others)
      (earlier ++ (origin,.vault (.repay user amount)) :: later) = _ := trace_append _ earlier _
  have ended : run (serve (sharesAt hstETH foreign) vault) (beginning clock admin vault bridge others)
      (earlier ++ (origin,.vault (.repay user amount)) :: later) = _ := run_append _ earlier _
  have held := serve_held strangers clock admin bridge others _ custodial
  rw [traced] at custodial
  have started := (serve_held strangers clock admin bridge others earlier custodial.earlier).sound
  obtain ⟨succeeds,rid⟩ := repaid_in_full reached found shares payable
  refine ⟨succeeds,?_⟩
  intro absent
  have kept := run_history (serve (sharesAt hstETH foreign) vault) (s := payment.after)
    (fun _ c => (book c).WellFormed c.clock.timestamp ∧
      (book c).positions.get user = some ⟨p.deposited_shares,0,(owing.clock.advance origin).timestamp⟩) later
    ⟨wellFormed_kept (r := payment) rfl started,rid⟩ ?_
  · obtain ⟨sound,remains⟩ := kept
    have rid : (book final).debt user = 0 := Store.weight_of_get remains
    have keeps : (book final).shares user = p.deposited_shares := by rw [Book.shares,Store.weight_of_get remains]
    refine ⟨⟨rid,keeps⟩,?_⟩
    intro unpaused request authorised
    cases own : final.state.own with
    | none =>
      change (book final).positions.get user = _ at remains
      rw [book,own] at remains
      cases remains
    | some u =>
      change (book final).positions.get user = _ at remains
      change (book final).WellFormed final.clock.timestamp at sound
      rw [book_of_own own] at remains sound
      change Held hstETH vault _ _ at held
      rw [ended] at held
      change Held hstETH vault _ final at held
      obtain ⟨t,found_token,guarded,custody⟩ := held.token
      rw [book_of_own own] at custody
      exact exit_leaves (p := ⟨p.deposited_shares,0,_⟩) foreign own (held.sheltered u own) sound found_token guarded custody
        (held.lists own remains shares) (unpaused u own) authorised remains rfl shares
  · rintro _ r member makes ⟨sound,remains⟩
    exact ⟨wellFormed_kept makes sound,debtless_kept makes sound remains rfl (absent r member)⟩

end Leaving

/-- Whoever has enough of another token than the shares can pay with it. -/
theorem Small.purse_pays {env : Env} {token user : Address} {amount : Int} {w : Ground Small.Purse}
    (other : token ≠ Small.tokenA) (different : user ≠ env.current_contract_address) (nonneg : 0 ≤ amount) (fits : Fits amount)
    (enough : amount ≤ w.others token user) :
    ∃ w', Received (sharesAt Small.tokenA (beside Small.clients)) env token user amount w w' := by
  have elsewhere : ¬ (env.calling token).current_contract_address = Small.tokenA := other
  have signs : (env.calling token).Authorised env.current_contract_address := .inl rfl
  have paid : Small.Purse.transfer (env.calling token) env.current_contract_address user env.current_contract_address amount
      w.others = some ((), w.others.moved token user env.current_contract_address amount) :=
    if_pos ⟨signs,nonneg,enough⟩
  have delta : w.others.moved token user env.current_contract_address amount token env.current_contract_address -
      w.others token env.current_contract_address = amount := by
    rw [Small.Purse.moved,if_pos ⟨rfl,rfl⟩,if_neg (fun same => different same.2.symm)]
    omega
  refine ⟨{ w with others := w.others.moved token user env.current_contract_address amount },
    w.others token env.current_contract_address,
    w.others.moved token user env.current_contract_address amount token env.current_contract_address,w,
    { w with others := w.others.moved token user env.current_contract_address amount },?_,?_,?_,?_,delta⟩
  · simp only [sharesAt,if_neg elsewhere]
    rfl
  · simp only [sharesAt,if_neg elsewhere]
    show Ground.beside (Small.Purse.transfer _ _ _ _ _) w = _
    rw [Ground.beside,paid]
    rfl
  · simp only [sharesAt,if_neg elsewhere]
    rfl
  · rw [delta]
    exact fits

namespace Small

/-- The user of `stay` borrows against its shares, which the bridge gives a worth. -/
def staying : List (Origin × Action (Ground Purse)) :=
  stay ++ [callsToken bridge (.update_exchange_rate 1000),calls userA (.borrow userA 500)]

/-- It pays back a year later, and then somebody asks for a liquidation. -/
def nextYear : Origin := { Origin.signedBy userA with seconds := 31536000 }

def afterwards : List (Origin × Action (Ground Purse)) := [calls userB (.liquidate userB userA 1)]

theorem staying_outside : ∀ call ∈ staying ++ (nextYear,.vault (.repay userA 1000)) :: afterwards,
    ∀ move, call.2 = .outside move → ∀ w, Bystanders vault w.token (move w).token := by
  simp only [staying,afterwards,List.append_assoc,List.forall_mem_append,List.forall_mem_cons,List.not_mem_nil,
    false_imp_iff,implies_true,and_true,List.cons_append,List.nil_append]
  have other : vault ≠ bridge := by decide
  refine ⟨stay_outside,?_,?_,?_,?_⟩
  · rintro move ⟨⟩ w
    exact calledBy_bystanders (by simp [Env.Authorised,Origin.env,Origin.signedBy,other]) (by simp) w
  all_goals
    intro move same
    cases same

theorem staying_custodial :
    Custodial tokenA vault (trace sharesStep sharesStart (staying ++ (nextYear,.vault (.repay userA 1000)) :: afterwards)) := by
  refine .of_calls (by decide) staying_outside ?_
  simp only [staying,stay,afterwards,List.cons_append,List.nil_append,List.forall_mem_cons,
    List.not_mem_nil,false_imp_iff,implies_true,and_true,calls,callsToken,Action.Plain]
  decide

end Small

theorem pausing {own : Option HelixVault} {paused : Bool} (told : own.map HelixVault.paused = some paused) :
    ∀ v, own = some v → v.paused = paused := by
  rintro v rfl
  exact Option.some.inj told

/-- A user with 900 shares pays the debt of a year and leaves with its shares. -/
theorem debtor_can_leave_next_year :
    let owing := run Small.sharesStep Small.sharesStart Small.staying
    let payment := transition Small.sharesStep owing (Small.nextYear,.vault (.repay Small.userA 1000))
    let final := run Small.sharesStep payment.after Small.afterwards
    (book owing).debt Small.userA = 500 ∧ (∃ event, payment.output = .ok event) ∧ (book final).debt Small.userA = 0 ∧
      Leaves (transition Small.sharesStep final (.signedBy Small.userA,.vault (.withdraw Small.userA Small.tokenA 900)))
        Small.userA 900 := by
  intro owing payment final
  have ended : owing.state.own.map (fun v => (v.locked,v.borrow_token,v.total_borrows,v.pool_config.interest_rate,
      v.positions.get Small.userA)) = some (false, Small.borrow_token, 500, 500, some ⟨900,500,40⟩) := by decide +kernel
  obtain ⟨v,reached,facts⟩ := Option.map_eq_some_iff.mp ended
  simp only [Prod.mk.injEq] at facts
  obtain ⟨unlocked,borrowed,total,rate,found⟩ := facts
  have now : (owing.clock.advance Small.nextYear).timestamp = 31536040 := by decide +kernel
  have opened : v.opened 31536040 Small.userA = ⟨900,500,40⟩ := by rw [HelixVault.opened,found]; rfl
  have charged : v.charged 31536040 Small.userA = ⟨900,525,31536040⟩ := by
    rw [HelixVault.charged,opened,rate]
    decide
  have funds : 525 ≤ owing.state.rest.others Small.borrow_token Small.userA := by decide +kernel
  have payable : Payable (sharesAt Small.tokenA (beside Small.clients)) Small.vault v Small.userA 1000
      (Small.nextYear.env (owing.clock.advance Small.nextYear) Small.vault) owing.state.rest := by
    refine ⟨⟨by decide,.inr (by decide),unlocked⟩,?_,?_,?_,?_⟩
    · show v.Chargeable (owing.clock.advance Small.nextYear).timestamp Small.userA
      rw [now,HelixVault.Chargeable,opened,rate]
      exact fun _ => ⟨by decide,by decide,by decide⟩
    · show (v.charged (owing.clock.advance Small.nextYear).timestamp Small.userA).borrowed_amount ≤ 1000
      rw [now,charged]
      decide
    · show 0 < (v.charged (owing.clock.advance Small.nextYear).timestamp Small.userA).borrowed_amount →
        ∃ w', Received _ _ v.borrow_token Small.userA
          (v.charged (owing.clock.advance Small.nextYear).timestamp Small.userA).borrowed_amount owing.state.rest w'
      rw [now,charged,borrowed]
      exact fun _ => Small.purse_pays (by decide) (by decide) (by decide) (by decide) funds
    · show Fits (v.total_borrows - (v.charged (owing.clock.advance Small.nextYear).timestamp Small.userA).borrowed_amount)
      rw [now,charged,total]
      decide
  obtain ⟨paid,leaves⟩ := debtor_can_leave (beside_strangers Small.vault Small.clients) ⟨0,0⟩ Small.admin Small.bridge Small.purse
    Small.staying Small.afterwards Small.nextYear Small.userA 1000 Small.staying_custodial v ⟨900,500,40⟩ reached found
    (by decide) payable
  obtain ⟨⟨rid,_⟩,leaves⟩ := leaves (by decide +kernel)
  refine ⟨?_,paid,rid,leaves (pausing (by decide +kernel)) (.signedBy Small.userA) (.inr (by decide))⟩
  rw [book_of_own reached]
  exact Store.weight_of_get found

end Helix.Vault
