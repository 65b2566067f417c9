import Mathlib.Algebra.Order.BigOperators.Group.List
import Helix.VaultSystem

/-!
What users owe a vault. A debt is what its user borrowed and the interest booked
on it, less what the vault received for it; nobody's call changes the position of
another; and where nothing else moves the vault's balance of the token it lends,
that balance is what it was, with what was received and without what was lent
(`debt_ledger`).
-/
namespace Helix.Vault

/-- What a call lends, counting some users. -/
def Entry.lent (counts : Address → Bool) : Entry → Int
  | .borrow user amount => if counts user = true then amount else 0
  | _ => 0

/-- What the vault received for the debts of some users. -/
def VaultEvent.received (counts : Address → Bool) : VaultEvent → Int
  | .repay user actual_repay _ | .liquidation _ user actual_repay _ _ => if counts user = true then actual_repay else 0
  | _ => 0

section Debt
variable {W : Type}

/-- The interest that a call which succeeded booked on the position of a user. -/
def booked (user : Address) (r : Served W) : Int :=
  if (served r).bind Entry.account = some user then interest r user else 0

/-- The sum of the loans to some users. -/
def lentTo (counts : Address → Bool) (past : List (Served W)) : Int :=
  ((past.filterMap served).map (Entry.lent counts)).sum
/-- The sum of the payments for the debts of some users. -/
def receivedFor (counts : Address → Bool) (past : List (Served W)) : Int :=
  ((past.filterMap published).map (VaultEvent.received counts)).sum
/-- The sum of the interest booked on the position of a user. -/
def bookedOn (user : Address) (past : List (Served W)) : Int := (past.map (booked user)).sum

/-- A vault's balance of a token, as far as the vault can tell: the token tells
    it, and calls to other contracts do not change it. -/
structure Measures (clients : Clients W) (vault token : Address) (balance : W → Int) : Prop where
  told : ∀ env w answer w', env.current_contract_address = token → clients.balance env vault w = some (answer, w') →
    answer = balance w ∧ balance w' = balance w
  other_balance : ∀ env id w answer w', env.current_contract_address ≠ token →
    clients.balance env id w = some (answer, w') → balance w' = balance w
  other_transfer : ∀ env owner recipient amount w answer w', env.current_contract_address ≠ token →
    clients.transfer env owner recipient amount w = some (answer, w') → balance w' = balance w
  other_transfer_from : ∀ env spender owner recipient amount w answer w', env.current_contract_address ≠ token →
    clients.transfer_from env spender owner recipient amount w = some (answer, w') → balance w' = balance w
  assets_for_shares : ∀ env shares w answer w', env.current_contract_address ≠ token →
    clients.assets_for_shares env shares w = some (answer, w') → balance w' = balance w
  shares_for_assets : ∀ env assets w answer w', env.current_contract_address ≠ token →
    clients.shares_for_assets env assets w = some (answer, w') → balance w' = balance w
  lastprice : ∀ env asset w answer w', clients.lastprice env asset w = some (answer, w') → balance w' = balance w
  decimals : ∀ env asset w answer w', clients.decimals env asset w = some (answer, w') → balance w' = balance w

/-- Nothing but the vault's own calls moves its balance of a token, which is
    never made collateral. -/
structure Unmoved (clients : Clients W) (vault token : Address) (balance : W → Int) (calls : List (Origin × Action W)) :
    Prop where
  measures : Measures clients vault token balance
  outside : ∀ call ∈ calls, ∀ move, call.2 = .outside move → ∀ w, balance (move w) = balance w
  borrow_only : ∀ call ∈ calls, call.2 ≠ .vault (.add_supported_asset token)

/-! ### What a call does to a debt -/

section Calls
variable {clients : Clients W} {vault token : Address} {env : Env} {s s' : World HelixVault W} {entry : Entry}
  {event : Option VaultEvent}

/-- A posting of debt is a loan or a payment. -/
theorem posted_debt (user : Address) (effect : Effect clients env s entry event s') {p : Posting}
    (posted : event.bind VaultEvent.posting = some p) :
    (if user = p.user then p.debt else 0) =
      entry.lent (only user) - (event.map (VaultEvent.received (only user))).getD 0 := by
  cases effect with
  | deposit depositor token amount q w deposits => cases posted; simp [Entry.lent,VaultEvent.received]
  | withdraw depositor token amount q w withdraws => cases posted; simp [Entry.lent,VaultEvent.received]
  | borrow borrower amount factor q w borrows =>
    cases posted
    simp [Entry.lent,VaultEvent.received,only,eq_comm]
  | repay borrower amount actual q w repays =>
    cases posted
    by_cases same : user = borrower
    · simp [Entry.lent,VaultEvent.received,only,same]
    · simp [Entry.lent,VaultEvent.received,only,same,Ne.symm same]
  | liquidate liquidator borrower repay_amount actual bonus seized q w liquidates =>
    cases posted
    by_cases same : user = borrower
    · simp [Entry.lent,VaultEvent.received,only,same]
    · simp [Entry.lent,VaultEvent.received,only,same,Ne.symm same]
  | configured entry event w configured =>
    obtain ⟨quiet,_⟩ := configured.idle
    rw [quiet] at posted
    cases posted

theorem idle_lends_nothing (effect : Effect clients env s entry event s') (untouched : entry.account = none)
    (counts : Address → Bool) :
    entry.lent counts = 0 ∧ (event.map (VaultEvent.received counts)).getD 0 = 0 := by
  cases effect with
  | configured entry event w configured => cases configured <;> exact ⟨rfl,rfl⟩
  | _ => cases untouched

/-! ### What a call does to the balance -/

variable {balance : W → Int} {w w' : W}

/-- Asking for the worth of another token does not move the balance. -/
theorem Measures.asking (measures : Measures clients vault token balance) {collateral : Address}
    (other : collateral ≠ token) : clients.Asking (env.calling collateral) (Same balance) where
  assets_for_shares _ _ _ _ converted := measures.assets_for_shares _ _ _ _ _ other converted
  lastprice := measures.lastprice
  decimals := measures.decimals

theorem Received.unmoved (measures : Measures clients vault token balance) {collateral owner : Address} {amount : Int}
    (other : collateral ≠ token) (received : Received clients env collateral owner amount w w') :
    balance w' = balance w :=
  received.within (R := Same balance) (fun _ _ _ _ read => measures.other_balance _ _ _ _ _ other read)
    (fun _ _ _ _ _ _ _ moved => measures.other_transfer_from _ _ _ _ _ _ _ _ other moved)

theorem Sent.unmoved (measures : Measures clients vault token balance) {collateral recipient : Address} {amount : Int}
    (other : collateral ≠ token) (sent : Sent clients env collateral recipient amount w w') :
    balance w' = balance w :=
  sent.within (R := Same balance) (fun _ _ _ _ read => measures.other_balance _ _ _ _ _ other read)
    (fun _ _ _ _ _ _ moved => measures.other_transfer _ _ _ _ _ _ _ other moved)

/-- What is drawn of the token is what the balance grows by. -/
theorem Received.moved (measures : Measures clients env.current_contract_address token balance) {owner : Address}
    {amount : Int} (received : Received clients env token owner amount w w') : balance w' = balance w + amount := by
  obtain ⟨before,after,first,second,read,_,reread,_,delta⟩ := received.steps
  obtain ⟨rfl,_⟩ := measures.told _ _ _ _ rfl read
  obtain ⟨rfl,same⟩ := measures.told _ _ _ _ rfl reread
  omega

/-- What is sent of the token is what the balance falls by. -/
theorem Sent.moved (measures : Measures clients env.current_contract_address token balance) {recipient : Address}
    {amount : Int} (sent : Sent clients env token recipient amount w w') : balance w' = balance w - amount := by
  obtain ⟨before,after,first,second,read,_,reread,_,delta⟩ := sent.steps
  obtain ⟨rfl,_⟩ := measures.told _ _ _ _ rfl read
  obtain ⟨rfl,same⟩ := measures.told _ _ _ _ rfl reread
  omega

/-- A call moves the balance of the token that is lent by what the vault receives
    for debts and lends. -/
theorem balance_of_effect {now : Nat} (sound : s.own.book.WellFormed now)
    (measures : Measures clients env.current_contract_address s.own.borrow_token balance)
    (borrow_only : s.own.borrow_token ∉ s.own.supported_assets) (effect : Effect clients env s entry event s') :
    balance s'.rest = balance s.rest + (event.map (VaultEvent.received any)).getD 0 - entry.lent any := by
  have other : ∀ collateral ∈ s.own.supported_assets, collateral ≠ s.own.borrow_token := by
    rintro collateral member rfl
    exact borrow_only member
  have first_other : ∀ collateral, s.own.supported_assets.head? = some collateral →
      collateral ≠ s.own.borrow_token := fun collateral first => other _ (List.mem_of_head? first)
  cases effect with
  | deposit depositor collateral amount q w deposits =>
    have same := deposits.received.unmoved measures (other _ deposits.supported)
    simp [Entry.lent,VaultEvent.received,same]
  | withdraw depositor collateral amount q w withdraws =>
    obtain ⟨mid,healthy,sent⟩ := withdraws.sent
    have same := sent.unmoved measures (other _ withdraws.supported)
    rw [healthy.within (measures.asking (other _ withdraws.supported))] at same
    simp [Entry.lent,VaultEvent.received,same]
  | borrow borrower amount factor q w borrows =>
    obtain ⟨collateral,_,first,second,primary,⟨_,values,_⟩,_,lent,health⟩ := borrows.covered
    have paid := lent.sent.moved measures
    rw [values.within (measures.asking (first_other _ primary))] at paid
    have same := health.within (measures.asking (first_other _ primary))
    simp [Entry.lent,VaultEvent.received,any,same,paid]
  | repay borrower amount actual q w repays =>
    have received := repays.received
    by_cases some : 0 < actual
    · rw [if_pos some] at received
      have paid := received.moved measures
      simp [Entry.lent,VaultEvent.received,any,paid]
    · -- A debt is not negative, so nothing is received only where nothing is owed.
      have paid : 0 ≤ capped amount (s.own.charged env.timestamp borrower).borrowed_amount :=
        capped_nonneg repays.asked.positive.le (HelixVault.charged_debt_nonneg _ _ sound)
      rw [← repays.capped] at paid
      rw [if_neg some] at received
      have nothing : actual = 0 := by omega
      simp [Entry.lent,VaultEvent.received,any,received,nothing]
  | liquidate liquidator borrower repay_amount actual bonus seized q w liquidates =>
    obtain ⟨collateral,_,first,second,primary,health,_,received,seizes⟩ := liquidates.steps
    obtain ⟨_,third,fourth,quotes,_,converted,sent⟩ := seizes.taken
    have collateral_other := first_other _ primary
    have paid := received.moved measures
    rw [health.within (measures.asking collateral_other)] at paid
    have same := sent.unmoved measures collateral_other
    rw [measures.shares_for_assets _ _ _ _ _ collateral_other converted,
      quotes.within (measures.asking collateral_other)] at same
    simp [Entry.lent,VaultEvent.received,any,same,paid]
  | configured entry event v configured =>
    obtain ⟨_,untouched,_⟩ := configured.idle
    obtain ⟨lends,receives⟩ := idle_lends_nothing (.configured entry event v configured :
      Effect clients env s entry event ⟨v,s.rest⟩) untouched any
    rw [lends,receives]
    simp

end Calls

/-! ### What a transition does -/

section Transitions
variable {clients : Clients W} {vault : Address} {r : Served W}

theorem lentTo_append (counts : Address → Bool) (past later : List (Served W)) :
    lentTo counts (past ++ later) = lentTo counts past + lentTo counts later := by
  simp [lentTo]

theorem receivedFor_append (counts : Address → Bool) (past later : List (Served W)) :
    receivedFor counts (past ++ later) = receivedFor counts past + receivedFor counts later := by
  simp [receivedFor]

theorem booked_nonneg (user : Address) (r : Served W) : 0 ≤ booked user r := by
  unfold booked
  split
  · exact interest_nonneg r user
  · exact le_rfl

/-- What a call that returned lent and received. -/
theorem called_lent {entry : Entry} {event : Option VaultEvent} (input : r.input.2 = .vault entry)
    (out : r.output = .ok event) (counts : Address → Bool) : lentTo counts [r] = entry.lent counts ∧
      receivedFor counts [r] = (event.map (VaultEvent.received counts)).getD 0 := by
  have entered : served r = some entry := by simp [served,input,out]
  have told : published r = event := by simp [published,out]
  refine ⟨by simp [lentTo,entered],?_⟩
  cases event <;> simp [receivedFor,told]

theorem debt_moved (user : Address) (makes : Makes (serve clients vault) r)
    (sound : (book r.before).WellFormed r.before.clock.timestamp) : (book r.after).debt user =
      (book r.before).debt user + (lentTo (only user) [r] + booked user r - receivedFor (only user) [r]) := by
  cases turn_of_makes makes with
  | called entry event v v' input out found left effect =>
    have entered : served r = some entry := by simp [served,input,out]
    have told : posting r = event.bind VaultEvent.posting := by simp [posting,published,out]
    obtain ⟨lends,receives⟩ := called_lent input out (only user)
    rw [lends,receives]
    unfold booked
    cases kept_of_makes makes sound with
    | posted p posted touched moved covers =>
      have debt := posted_debt user effect (told.symm.trans posted)
      rw [moved,Book.post_debt,touched]
      by_cases same : user = p.user
      · rw [if_pos same] at debt ⊢
        rw [← same,if_pos rfl]
        omega
      · rw [if_neg same] at debt ⊢
        rw [if_neg (fun equal => same (Option.some.inj equal).symm)]
        omega
    | idle quiet untouched same =>
      rw [entered,Option.bind_some] at untouched
      obtain ⟨lends,receives⟩ := idle_lends_nothing effect untouched (only user)
      rw [same,lends,receives,entered,Option.bind_some,untouched]
      simp
  | initialised admin oracle token config input out missing left rest valid =>
    obtain ⟨lends,receives⟩ := called_lent input out (only user)
    have none : booked user r = 0 := by simp [booked,interest,missing]
    have empty : book r.after = book r.before := by
      rw [book_of_own left,book,missing]
      rfl
    rw [lends,receives,none,empty]
    simp [Entry.lent]
  | moved move input out own rest => simp [lentTo,receivedFor,booked,served,published,input,out,book,own]
  | failed e out same => simp [lentTo,receivedFor,booked,served,published,out,book,same]

/-- A call for another user leaves a position alone. -/
theorem position_kept {user : Address} (kept : Kept r) (other : (served r).bind Entry.account ≠ some user) :
    (book r.after).positions.get user = (book r.before).positions.get user := by
  cases kept with
  | posted p posted touched moved covers =>
    have different : user ≠ p.user := fun same => other (by rw [touched,same])
    rw [moved,Book.post_other different]
  | idle quiet untouched same => rw [same]

/-- Where the vault lends a token that is no collateral, its balance moves by what
    it receives and lends. -/
structure Lends (vault : Option HelixVault) (token : Address) : Prop where
  lent : ∀ v, vault = some v → v.borrow_token = token
  no_collateral : ∀ v, vault = some v → token ∉ v.supported_assets

/-- As long as the vault lends a token, that token is no collateral and the balance
    is what it was with what was received and without what was lent. -/
def Balanced (balance : W → Int) (w : W) (token : Address) (past : List (Served W)) (c : Chain (State W)) : Prop :=
  (∀ v, c.state.own = some v → v.borrow_token = token) →
    (∀ v, c.state.own = some v → token ∉ v.supported_assets) ∧
      balance c.state.rest = balance w + receivedFor any past - lentTo any past

theorem lends_before {token : Address} (makes : Makes (serve clients vault) r)
    (lent : ∀ v, r.after.state.own = some v → v.borrow_token = token) :
    ∀ v, r.before.state.own = some v → v.borrow_token = token := by
  intro v before
  cases turn_of_makes makes with
  | called entry event v₀ v' input out found left effect =>
    rw [found] at before
    cases before
    rw [← lent v' left]
    exact (borrow_token_of_effect effect).symm
  | initialised admin oracle token config input out missing left rest valid =>
    rw [missing] at before
    cases before
  | moved move input out own rest => exact lent v (own.trans before)
  | failed e out same => exact lent v (by rw [same]; exact before)

theorem balance_kept {token : Address} {balance : W → Int} {calls : List (Origin × Action W)}
    (unmoved : Unmoved clients vault token balance calls) (member : r.input ∈ calls)
    (makes : Makes (serve clients vault) r) (sound : (book r.before).WellFormed r.before.clock.timestamp)
    (lends : Lends r.before.state.own token) :
    (∀ v, r.after.state.own = some v → token ∉ v.supported_assets) ∧
      balance r.after.state.rest = balance r.before.state.rest + receivedFor any [r] - lentTo any [r] := by
  cases turn_of_makes makes with
  | called entry event v v' input out found left effect =>
    obtain ⟨lent,received⟩ := called_lent input out any
    have same := lends.lent v found
    have absent := lends.no_collateral v found
    rw [book_of_own found] at sound
    subst same
    constructor
    · intro u after supported
      rw [left] at after
      cases after
      rcases (supported_moved effect _).1 supported with old | added
      · exact absent old
      · exact unmoved.borrow_only _ member (by rw [input,added])
    · rw [lent,received]
      exact balance_of_effect sound unmoved.measures absent effect
  | initialised admin oracle lent config input out missing left rest valid =>
    obtain ⟨lent,received⟩ := called_lent input out any
    constructor
    · intro u after
      rw [left] at after
      cases after
      simp [fresh]
    · rw [lent,received,rest]
      simp [Entry.lent]
  | moved move input out own rest =>
    constructor
    · intro u after
      exact lends.no_collateral u (own.symm.trans after)
    · rw [rest,unmoved.outside _ member move input]
      simp [lentTo,receivedFor,served,published,input,out]
  | failed e out same =>
    rw [same]
    refine ⟨lends.no_collateral,?_⟩
    simp [lentTo,receivedFor,served,published,out]

end Transitions

/-! ### Whole runs -/

section Runs
variable (clients : Clients W) (vault : Address) (clock : Clock) (w : W) (calls : List (Origin × Action W))

theorem debt_run (user : Address) :
    (book (run (serve clients vault) (undeployed clock w) calls)).debt user =
      lentTo (only user) (trace (serve clients vault) (undeployed clock w) calls) +
        bookedOn user (trace (serve clients vault) (undeployed clock w) calls) -
        receivedFor (only user) (trace (serve clients vault) (undeployed clock w) calls) := by
  apply serve_history clients vault clock w calls (fun past c =>
    (book c).debt user = lentTo (only user) past + bookedOn user past - receivedFor (only user) past) rfl
  intro past r _ makes sound so_far
  have moved := debt_moved user makes sound
  have booking : bookedOn user (past ++ [r]) = bookedOn user past + booked user r := by simp [bookedOn]
  rw [lentTo_append,receivedFor_append,booking]
  omega

theorem balance_run (v : HelixVault) (balance : W → Int)
    (ended : (run (serve clients vault) (undeployed clock w) calls).state.own = some v)
    (unmoved : Unmoved clients vault v.borrow_token balance calls) :
    balance (run (serve clients vault) (undeployed clock w) calls).state.rest =
      balance w + receivedFor any (trace (serve clients vault) (undeployed clock w) calls) -
        lentTo any (trace (serve clients vault) (undeployed clock w) calls) := by
  -- The token is known at the end of the run; `lends_before` carries it back.
  have held : Balanced balance w v.borrow_token (trace (serve clients vault) (undeployed clock w) calls)
      (run (serve clients vault) (undeployed clock w) calls) := by
    apply serve_history clients vault clock w calls (Balanced balance w v.borrow_token)
    · intro _
      refine ⟨?_,by simp [undeployed,receivedFor,lentTo]⟩
      rintro u ⟨⟩
    · intro past r member makes sound held lent
      have lent_before := lends_before makes lent
      obtain ⟨absent,so_far⟩ := held lent_before
      obtain ⟨still_absent,moved⟩ := balance_kept unmoved member makes sound ⟨lent_before,absent⟩
      refine ⟨still_absent,?_⟩
      rw [lentTo_append,receivedFor_append]
      omega
  refine (held ?_).2
  intro u same
  rw [ended] at same
  rw [Option.some.inj same]

/-- In any run, a user's debt is what it borrowed and the interest booked on it,
    none of it negative, less what the vault received for it; a call that does not
    touch the user's position leaves it as it is; and as long as nothing else moves
    the vault's balance of the token it lends, that balance changes by what is
    received for debts and what is lent. -/
theorem debt_ledger (user : Address) :
    let past := trace (serve clients vault) (undeployed clock w) calls
    let final := run (serve clients vault) (undeployed clock w) calls
    (book final).debt user = lentTo (only user) past + bookedOn user past - receivedFor (only user) past ∧
      (∀ r ∈ past, 0 ≤ booked user r) ∧
      (∀ r ∈ past, (served r).bind Entry.account ≠ some user →
        (book r.after).positions.get user = (book r.before).positions.get user) ∧
      (∀ v balance, final.state.own = some v → Unmoved clients vault v.borrow_token balance calls →
        balance final.state.rest = balance w + receivedFor any past - lentTo any past) :=
  ⟨debt_run clients vault clock w calls user,fun r _ => booked_nonneg user r,
    fun r member other => position_kept (serve_kept clients vault clock w calls r member) other,
    fun v balance ended unmoved => balance_run clients vault clock w calls v balance ended unmoved⟩

end Runs

end Debt

namespace Small

/-- What the vault of the small chain holds of the token it lends. -/
def lendable (w : Purse) : Int := w borrow_token vault

theorem moved_other {w : Purse} {token : Address} (other : token ≠ borrow_token) (owner recipient : Address)
    (amount : Int) : lendable (w.moved token owner recipient amount) = lendable w := by
  simp [lendable,Purse.moved,Ne.symm other]

theorem transfer_other {env : Env} {authoriser owner recipient : Address} {amount : Int} {w : Purse}
    {r : Unit × Purse} (other : env.current_contract_address ≠ borrow_token)
    (done : Purse.transfer env authoriser owner recipient amount w = some r) : lendable r.2 = lendable w := by
  unfold Purse.transfer at done
  split at done
  · cases done
    exact moved_other other owner recipient amount
  · cases done

theorem lendable_measures : Measures clients vault borrow_token lendable where
  told env w answer w' token done := by
    cases done
    exact ⟨by rw [token]; rfl,rfl⟩
  other_balance env id w answer w' other done := by cases done; rfl
  other_transfer env owner recipient amount w answer w' other done := transfer_other other done
  other_transfer_from env spender owner recipient amount w answer w' other done := transfer_other other done
  assets_for_shares env shares w answer w' other done := by cases done; rfl
  shares_for_assets env assets w answer w' other done := by cases done; rfl
  lastprice env asset w answer w' done := by cases done; rfl
  decimals env asset w answer w' done := by cases done; rfl

theorem lendable_unmoved : Unmoved clients vault borrow_token lendable loan where
  measures := lendable_measures
  outside := by
    intro call member move moves
    have vault_calls : ∀ call ∈ loan, ∃ entry, call.2 = .vault entry := by
      simp only [loan,opening,calls,callsNextYear,List.cons_append,List.nil_append,List.forall_mem_cons,
        List.not_mem_nil,false_imp_iff,implies_true,and_true]
      exact ⟨⟨_,rfl⟩,⟨_,rfl⟩,⟨_,rfl⟩,⟨_,rfl⟩,_,rfl⟩
    obtain ⟨entry,same⟩ := vault_calls call member
    rw [same] at moves
    cases moves
  borrow_only := by
    simp only [loan,opening,calls,callsNextYear,List.cons_append,List.nil_append,List.forall_mem_cons,
      List.not_mem_nil,false_imp_iff,implies_true,and_true,ne_eq,Action.vault.injEq,Entry.add_supported_asset.injEq,
      reduceCtorEq,not_false_eq_true,true_and]
    decide

end Small

/-- The interest of the loan ends up in the vault: the debt is gone, and the vault
    holds 25000 more than before. -/
theorem debt_ledger_loan :
    let past := trace Small.step Small.start Small.loan
    let final := run Small.step Small.start Small.loan
    bookedOn Small.userA past = 25000 ∧
      (book final).debt Small.userA =
        lentTo (only Small.userA) past + bookedOn Small.userA past - receivedFor (only Small.userA) past ∧
      Small.lendable final.state.rest = Small.lendable Small.purse + receivedFor any past - lentTo any past ∧
      receivedFor any past - lentTo any past = 25000 := by
  have lent : ((run Small.step Small.start Small.loan).state.own.map (fun v => v.borrow_token)) =
      some Small.borrow_token := by decide +kernel
  obtain ⟨v,ended,token⟩ := Option.map_eq_some_iff.mp lent
  have ledger := debt_ledger Small.clients Small.vault ⟨0,0⟩ Small.purse Small.loan Small.userA
  refine ⟨by decide +kernel,ledger.1,ledger.2.2.2 v Small.lendable ended ?_,by decide +kernel⟩
  rw [token]
  exact Small.lendable_unmoved

end Helix.Vault
