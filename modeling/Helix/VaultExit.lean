import Helix.VaultSystem
import Helix.TokenCustody

/-!
The vault together with the share token as its only collateral. The vault holds
at least the shares that its positions count, whatever others do to the token
(`Keeps`, `keeps_of_effect`), so a user without debt can always leave: a
withdrawal of all its shares succeeds while the vault is not paused
(`custody_and_exit`).
-/
namespace Helix.Vault
open Invoke
open Token (HelixToken Guarded Bystanders)

/-- Everything outside the vault: the share token and the rest of the chain. -/
structure Ground (O : Type) where
  token : Option HelixToken
  others : O

variable {O : Type}

/-- A call to the share token. -/
def Ground.call (env : Env) (entry : Token.Entry) (w : Ground O) : Option (Unit × Ground O) :=
  match Token.invoke env entry w.token with
  | .ok (_, t) => some ((), { w with token := t })
  | .error _ => none

/-- A question to the share token, which changes nothing. -/
def Ground.ask (question : Token.Contract Int) (w : Ground O) : Option (Int × Ground O) :=
  w.token.bind (fun t => (answer question t).map (fun r => (r.1,w)))

/-- The contracts that the vault calls, one of them the share token. -/
def sharesAt (hstETH : Address) (foreign : Clients (Ground O)) : Clients (Ground O) where
  balance env id :=
    if env.current_contract_address = hstETH then Ground.ask (Token.read_balance id) else foreign.balance env id
  transfer env owner recipient amount :=
    if env.current_contract_address = hstETH then Ground.call env (.transfer owner recipient amount)
    else foreign.transfer env owner recipient amount
  transfer_from env spender owner recipient amount :=
    if env.current_contract_address = hstETH then Ground.call env (.transfer_from spender owner recipient amount)
    else foreign.transfer_from env spender owner recipient amount
  assets_for_shares env shares :=
    if env.current_contract_address = hstETH then Ground.ask (Token.assets_for_shares shares)
    else foreign.assets_for_shares env shares
  shares_for_assets env assets :=
    if env.current_contract_address = hstETH then Ground.ask (Token.shares_for_assets assets)
    else foreign.shares_for_assets env assets
  lastprice := foreign.lastprice
  decimals := foreign.decimals

/-- Whatever the other contracts do when they are called, they do to the share
    token what anybody but the vault can do. -/
structure Strangers (vault : Address) (foreign : Clients (Ground O)) : Prop where
  balance : ∀ env id w answer w', foreign.balance env id w = some (answer, w') → Bystanders vault w.token w'.token
  transfer : ∀ env owner recipient amount w answer w', foreign.transfer env owner recipient amount w = some (answer, w') →
    Bystanders vault w.token w'.token
  transfer_from : ∀ env spender owner recipient amount w answer w',
    foreign.transfer_from env spender owner recipient amount w = some (answer, w') → Bystanders vault w.token w'.token
  assets_for_shares : ∀ env shares w answer w', foreign.assets_for_shares env shares w = some (answer, w') →
    Bystanders vault w.token w'.token
  shares_for_assets : ∀ env assets w answer w', foreign.shares_for_assets env assets w = some (answer, w') →
    Bystanders vault w.token w'.token
  lastprice : ∀ env asset w answer w', foreign.lastprice env asset w = some (answer, w') →
    Bystanders vault w.token w'.token
  decimals : ∀ env asset w answer w', foreign.decimals env asset w = some (answer, w') →
    Bystanders vault w.token w'.token

/-! ### What the vault keeps -/

/-- The vault's shares stay guarded, and it has as many more as an amount says, or
    still more. -/
def Keeps (vault : Address) (amount : Int) (w w' : Ground O) : Prop :=
  ∀ t, w.token = some t → Guarded vault t →
    ∃ u, w'.token = some u ∧ Guarded vault u ∧ t.balance vault + amount ≤ u.balance vault

namespace Keeps
variable {vault : Address} {amount more : Int} {w w' w'' : Ground O}

theorem refl (vault : Address) (w : Ground O) : Keeps vault 0 w w :=
  fun t found guarded => ⟨t,found,guarded,(add_zero _).le⟩

theorem trans (first : Keeps vault amount w w') (second : Keeps vault more w' w'') :
    Keeps vault (amount + more) w w'' := by
  intro t found guarded
  obtain ⟨u,found',guarded',least⟩ := first t found guarded
  obtain ⟨u',found'',guarded'',least'⟩ := second u found' guarded'
  exact ⟨u',found'',guarded'',by omega⟩

/-- What comes before or after without taking anything. -/
theorem before (first : Keeps vault 0 w w') (second : Keeps vault amount w' w'') : Keeps vault amount w w'' := by
  simpa using first.trans second

theorem after (first : Keeps vault amount w w') (second : Keeps vault 0 w' w'') : Keeps vault amount w w'' := by
  simpa using first.trans second

theorem bystanders (calls : Bystanders vault w.token w'.token) : Keeps vault 0 w w' := by
  intro t found guarded
  rw [found] at calls
  obtain ⟨u,found',guarded',more⟩ := guarded.bystanders calls
  exact ⟨u,found',guarded',by omega⟩

instance : Std.Refl (Keeps (O := O) vault 0) := ⟨.refl vault⟩
instance : IsTrans (Ground O) (Keeps vault 0) := ⟨fun _ _ _ first second => first.before second⟩

end Keeps

theorem ask_same {question : Token.Contract Int} {w w' : Ground O} {x : Int} (asked : w.ask question = some (x, w')) :
    w' = w := by
  unfold Ground.ask at asked
  obtain ⟨t,_,told⟩ := Option.bind_eq_some_iff.mp asked
  obtain ⟨r,_,same⟩ := Option.map_eq_some_iff.mp told
  cases same
  rfl

/-- The token's answer to a question about a balance. -/
theorem ask_balance {w : Ground O} {t : HelixToken} (found : w.token = some t) (id : Address) :
    w.ask (Token.read_balance id) = some (t.balance id, w) := by
  rw [Ground.ask,found]
  rfl

theorem call_effect {env : Env} {entry : Token.Entry} {w w' : Ground O} {t : HelixToken} (found : w.token = some t)
    (called : w.call env entry = some ((), w')) : ∃ u, w'.token = some u ∧ Token.Effect env t entry u := by
  unfold Ground.call at called
  split at called
  · rename_i r t' ran
    cases called
    exact Token.effect_of_invoke found ran
  · cases called

section Asks
variable {hstETH vault : Address} {foreign : Clients (Ground O)} {env : Env} {w w' : Ground O}

/-- A question that goes to the share token or to another contract. -/
theorem asked {callee : Address} {question : Token.Contract Int} {elsewhere : Ground O → Option (Int × Ground O)}
    (strangers : ∀ w answer w', elsewhere w = some (answer, w') → Bystanders vault w.token w'.token) {x : Int}
    (asked : (if callee = hstETH then Ground.ask question else elsewhere) w = some (x, w')) : Keeps vault 0 w w' := by
  split at asked
  · rw [ask_same asked]
    exact .refl vault w
  · exact .bystanders (strangers _ _ _ asked)

/-- Asking for the worth of shares leaves the vault its shares. -/
theorem Strangers.asking (strangers : Strangers vault foreign) (callee : Env) :
    (sharesAt hstETH foreign).Asking callee (Keeps vault 0) where
  assets_for_shares _ _ _ _ converted := asked (strangers.assets_for_shares _ _) converted
  lastprice _ _ _ _ _ told := .bystanders (strangers.lastprice _ _ _ _ _ told)
  decimals _ _ _ _ _ told := .bystanders (strangers.decimals _ _ _ _ _ told)

/-- Drawing another token leaves the vault its shares. -/
theorem Received.keeps_other (strangers : Strangers vault foreign) {token owner : Address} {amount : Int}
    (other : token ≠ hstETH) (received : Received (sharesAt hstETH foreign) env token owner amount w w') :
    Keeps vault 0 w w' := by
  have elsewhere : ¬ (env.calling token).current_contract_address = hstETH := other
  refine received.within (fun id w answer w' read => asked (strangers.balance _ _) read) ?_
  intro spender owner recipient amount w answer w' moved
  simp only [sharesAt,if_neg elsewhere] at moved
  exact .bystanders (strangers.transfer_from _ _ _ _ _ _ _ _ moved)

theorem Sent.keeps_other (strangers : Strangers vault foreign) {token recipient : Address} {amount : Int}
    (other : token ≠ hstETH) (sent : Sent (sharesAt hstETH foreign) env token recipient amount w w') :
    Keeps vault 0 w w' := by
  have elsewhere : ¬ (env.calling token).current_contract_address = hstETH := other
  refine sent.within (fun id w answer w' read => asked (strangers.balance _ _) read) ?_
  intro owner recipient amount w answer w' moved
  simp only [sharesAt,if_neg elsewhere] at moved
  exact .bystanders (strangers.transfer _ _ _ _ _ _ _ moved)

/-- What the vault measures around a call to the share token. -/
theorem measured {callee : Env} {entry : Token.Entry} {id : Address} {before after : Int} {t : HelixToken}
    {first second : Ground O} (found : w.token = some t)
    (read : w.ask (Token.read_balance id) = some (before, first)) (moved : first.call callee entry = some ((), second))
    (reread : second.ask (Token.read_balance id) = some (after, w')) :
    ∃ u, w'.token = some u ∧ Token.Effect callee t entry u ∧ before = t.balance id ∧ after = u.balance id := by
  have same := ask_same read
  subst same
  obtain ⟨u,left,effect⟩ := call_effect found moved
  have same := ask_same reread
  subst same
  rw [ask_balance found] at read
  rw [ask_balance left] at reread
  cases read
  cases reread
  exact ⟨u,left,effect,rfl,rfl⟩

/-- Drawing shares gives the vault as many. -/
theorem Received.keeps_shares {owner : Address} {amount : Int}
    (received : Received (sharesAt hstETH foreign) env hstETH owner amount w w') :
    Keeps env.current_contract_address amount w w' := by
  intro t found guarded
  obtain ⟨before,after,first,second,read,moved,reread,_,delta⟩ := received.steps
  have here : (env.calling hstETH).current_contract_address = hstETH := rfl
  simp only [sharesAt,if_pos here] at read moved reread
  obtain ⟨u,left,effect,rfl,rfl⟩ := measured found read moved reread
  exact ⟨u,left,guarded.transfer_from effect,by omega⟩

/-- Sending shares takes as many from the vault. -/
theorem Sent.keeps_shares {recipient : Address} {amount : Int}
    (sent : Sent (sharesAt hstETH foreign) env hstETH recipient amount w w') :
    Keeps env.current_contract_address (-amount) w w' := by
  intro t found guarded
  obtain ⟨before,after,first,second,read,moved,reread,_,delta⟩ := sent.steps
  have here : (env.calling hstETH).current_contract_address = hstETH := rfl
  simp only [sharesAt,if_pos here] at read moved reread
  obtain ⟨u,left,effect,rfl,rfl⟩ := measured found read moved reread
  exact ⟨u,left,guarded.transfer effect,by omega⟩

/-- A call to the vault moves its shares by what it moves the total deposits, or
    leaves it more. -/
theorem keeps_of_effect {s s' : World HelixVault (Ground O)} {entry : Entry} {event : Option VaultEvent}
    (strangers : Strangers env.current_contract_address foreign) (only : ∀ asset ∈ s.own.supported_assets, asset = hstETH)
    (borrow_other : s.own.borrow_token ≠ hstETH) (effect : Effect (sharesAt hstETH foreign) env s entry event s') :
    Keeps env.current_contract_address (s'.own.total_deposits - s.own.total_deposits) s.rest s'.rest := by
  have first_only : ∀ token, s.own.supported_assets.head? = some token → token = hstETH :=
    fun token first => only token (List.mem_of_head? first)
  cases effect with
  | deposit user token amount p w deposits =>
    have received := deposits.received
    rw [only token deposits.supported] at received
    simpa [HelixVault.posted] using received.keeps_shares
  | withdraw user token amount p w withdraws =>
    obtain ⟨mid,healthy,sent⟩ := withdraws.sent
    rw [only token withdraws.supported] at sent
    have kept := (healthy.within (strangers.asking _)).before sent.keeps_shares
    simpa [HelixVault.settled] using kept
  | borrow user amount factor p w borrows =>
    obtain ⟨token,_,first,second,primary,⟨_,values,_⟩,_,lent,health⟩ := borrows.covered
    have kept := (values.within (strangers.asking _)).before ((lent.sent.keeps_other strangers borrow_other).before
      (health.within (strangers.asking _)))
    simpa [HelixVault.posted] using kept
  | repay user amount actual p w repays =>
    have received := repays.received
    split at received
    · simpa [HelixVault.settled] using received.keeps_other strangers borrow_other
    · simpa [HelixVault.settled,received] using Keeps.refl env.current_contract_address s.rest
  | liquidate liquidator user repay_amount actual bonus seized p w liquidates =>
    obtain ⟨token,_,first,second,primary,health,_,received,seizes⟩ := liquidates.steps
    obtain ⟨_,third,fourth,quotes,_,converted,sent⟩ := seizes.taken
    rw [first_only token primary] at sent
    have converts := asked (strangers.shares_for_assets _ _) converted
    have taken := (quotes.within (strangers.asking _)).before (converts.before sent.keeps_shares)
    have kept := (health.within (strangers.asking _)).before ((received.keeps_other strangers borrow_other).before taken)
    simpa [HelixVault.settled] using kept
  | configured entry event v configured =>
    obtain ⟨_,_,same,_⟩ := configured.idle
    have totals : v.total_deposits = s.own.total_deposits := congrArg Book.total_deposits same
    simpa [totals] using Keeps.refl env.current_contract_address s.rest

end Asks

/-! ### Runs with one collateral -/

/-- A deposit that succeeded. -/
def Deposited (r : Served (Ground O)) : Prop := ∃ user token amount, served r = some (.deposit user token amount)

/-- Runs in which the share token is the only collateral there ever is, from the
    first deposit on without interruption, and in which nobody but the vault acts
    for the vault. -/
structure Custodial (hstETH vault : Address) (past : List (Served (Ground O))) : Prop where
  strangers : ∀ r ∈ past, ¬ (r.env vault).Authorised vault
  outside : ∀ r ∈ past, ∀ move, r.input.2 = .outside move →
    Bystanders vault r.before.state.rest.token r.after.state.rest.token
  borrow_other : ∀ r ∈ past, ∀ admin oracle token config, served r = some (.initialise admin oracle token config) →
    token ≠ hstETH
  only : ∀ r ∈ past, ∀ asset, served r = some (.add_supported_asset asset) → asset = hstETH
  stays : past.Pairwise (fun q r => Deposited q → served r ≠ some (.remove_supported_asset hstETH))

theorem Custodial.init {hstETH vault : Address} {past : List (Served (Ground O))} {r : Served (Ground O)}
    (custodial : Custodial hstETH vault (past ++ [r])) : Custodial hstETH vault past where
  strangers q member := custodial.strangers q (List.mem_append_left _ member)
  outside q member := custodial.outside q (List.mem_append_left _ member)
  borrow_other q member := custodial.borrow_other q (List.mem_append_left _ member)
  only q member := custodial.only q (List.mem_append_left _ member)
  stays := (List.pairwise_append.mp custodial.stays).1

/-- A call that does not make the share token a token to borrow, nor another token a
    collateral, nor the share token none. -/
def Action.Plain {W : Type} (hstETH : Address) : Action W → Prop
  | .vault (.initialise _ _ borrow_token _) => borrow_token ≠ hstETH
  | .vault (.add_supported_asset asset) => asset = hstETH
  | .vault (.remove_supported_asset asset) => asset ≠ hstETH
  | _ => True

/-- Such calls by others than the vault make such a run, where what happens beside it
    is what others do. -/
theorem Custodial.of_trace {hstETH vault : Address} {clients : Clients (Ground O)} {c : Chain (State (Ground O))}
    {calls : List (Origin × Action (Ground O))}
    (strangers : ∀ call ∈ calls, call.1.invoker ≠ some vault ∧ call.1.signed vault = false)
    (outside : ∀ r ∈ trace (serve clients vault) c calls, ∀ move, r.input.2 = .outside move →
      Bystanders vault r.before.state.rest.token r.after.state.rest.token)
    (plain : ∀ call ∈ calls, call.2.Plain hstETH) : Custodial hstETH vault (trace (serve clients vault) c calls) := by
  refine ⟨?_,outside,?_,?_,?_⟩
  · intro r member authorised
    obtain ⟨invoker,signed⟩ := strangers r.input (trace_input member)
    rcases authorised with direct | signs
    · exact invoker direct
    · exact absurd signs (by rw [show (r.env vault).signed vault = false from signed]; decide)
  · intro r member admin oracle token config called
    have plain := plain r.input (trace_input member)
    rwa [(served_some.mp called).1] at plain
  · intro r member asset called
    have plain := plain r.input (trace_input member)
    rwa [(served_some.mp called).1] at plain
  · apply List.pairwise_of_forall_mem_list
    intro q _ r member _ removed
    have plain := plain r.input (trace_input member)
    rw [(served_some.mp removed).1] at plain
    exact plain rfl

/-- So it is where they do it to whatever token there is. -/
theorem Custodial.of_calls {hstETH vault : Address} {clients : Clients (Ground O)} {c : Chain (State (Ground O))}
    {calls : List (Origin × Action (Ground O))}
    (strangers : ∀ call ∈ calls, call.1.invoker ≠ some vault ∧ call.1.signed vault = false)
    (lawful : ∀ call ∈ calls, ∀ move, call.2 = .outside move → ∀ w, Bystanders vault w.token (move w).token)
    (plain : ∀ call ∈ calls, call.2.Plain hstETH) : Custodial hstETH vault (trace (serve clients vault) c calls) := by
  refine .of_trace strangers ?_ plain
  intro r member move input
  have lawful := lawful r.input (trace_input member) move input
  cases turn_of_makes (trace_makes member) with
  | called entry event v v' called => rw [input] at called; cases called
  | initialised admin oracle token config called => rw [input] at called; cases called
  | moved move' moved out own rest =>
    rw [input] at moved
    cases moved
    rw [rest]
    exact lawful _
  | failed e out same => rw [same]

/-- What holds of the vault itself in such runs. -/
structure Sheltered (hstETH vault : Address) (v : HelixVault) : Prop where
  borrow_other : v.borrow_token ≠ hstETH
  only : ∀ asset ∈ v.supported_assets, asset = hstETH
  unlocked : v.locked = false
  no_own : v.positions.get vault = none

/-- What holds after a part of such a run. -/
structure Held (hstETH vault : Address) (past : List (Served (Ground O))) (c : Chain (State (Ground O))) : Prop where
  sound : (book c).WellFormed c.clock.timestamp
  token : ∃ t, c.state.rest.token = some t ∧ Guarded vault t ∧ (book c).total_deposits ≤ t.balance vault
  sheltered : ∀ v, c.state.own = some v → Sheltered hstETH vault v
  supported : ∀ q ∈ past, Deposited q → ∃ v, c.state.own = some v ∧ hstETH ∈ v.supported_assets
  undeposited : (∀ q ∈ past, ¬ Deposited q) → (book c).total_deposits = 0

theorem Sheltered.effect {hstETH : Address} {clients : Clients (Ground O)} {env : Env}
    {s s' : World HelixVault (Ground O)} {entry : Entry} {event : Option VaultEvent} {now : Nat}
    (sheltered : Sheltered hstETH env.current_contract_address s.own) (sound : s.own.book.WellFormed now)
    (stranger : ¬ env.Authorised env.current_contract_address)
    (only : ∀ asset, entry = .add_supported_asset asset → asset = hstETH)
    (effect : Effect clients env s entry event s') : Sheltered hstETH env.current_contract_address s'.own where
  borrow_other := by
    rw [borrow_token_of_effect effect]
    exact sheltered.borrow_other
  only := by
    intro asset member
    rcases (supported_moved effect asset).1 member with old | new
    · exact sheltered.only asset old
    · exact only asset new
  unlocked := unlocked_of_effect sheltered.unlocked effect
  no_own := by
    have other := account_other effect stranger sheltered.no_own
    have booked := booked_of_effect sound effect
    show s'.own.book.positions.get env.current_contract_address = none
    cases booked with
    | posted p posted touched moved covers =>
      have different : env.current_contract_address ≠ p.user := fun same => other (by rw [touched,same])
      rw [moved,Book.post_other different]
      exact sheltered.no_own
    | idle quiet untouched same =>
      rw [same]
      exact sheltered.no_own

theorem Book.WellFormed.total_nonneg {b : Book} {now : Nat} (sound : b.WellFormed now) : 0 ≤ b.total_deposits := by
  rw [sound.deposits]
  exact Finset.sum_nonneg (fun user _ => sound.shares_nonneg user)

theorem Book.WellFormed.shares_le {b : Book} {now : Nat} (sound : b.WellFormed now) (user : Address) :
    b.shares user ≤ b.total_deposits := by
  rw [sound.deposits]
  exact Store.weight_le_total sound.shares_nonneg user

section Runs
variable {hstETH vault : Address} {foreign : Clients (Ground O)}

/-- What leaves the vault alone and takes none of its shares keeps what holds. -/
theorem Held.idle {past : List (Served (Ground O))} {r : Served (Ground O)} (held : Held hstETH vault past r.before)
    (sound : (book r.after).WellFormed r.after.clock.timestamp) (silent : ¬ Deposited r)
    (own : r.after.state.own = r.before.state.own)
    (token : ∃ u, r.after.state.rest.token = some u ∧ Guarded vault u ∧ (book r.before).total_deposits ≤ u.balance vault) :
    Held hstETH vault (past ++ [r]) r.after where
  sound := sound
  token := by
    have same : book r.after = book r.before := by rw [book,book,own]
    rw [same]
    exact token
  sheltered := by
    rw [own]
    exact held.sheltered
  supported := by
    rw [own]
    exact List.forall_mem_append.mpr
      ⟨held.supported,List.forall_mem_singleton.mpr (fun deposited => absurd deposited silent)⟩
  undeposited := by
    have same : book r.after = book r.before := by rw [book,book,own]
    intro none
    rw [same]
    exact held.undeposited (fun q member => none q (List.mem_append_left _ member))

section Kept
variable {past : List (Served (Ground O))} {r : Served (Ground O)} {entry : Entry} {event : Option VaultEvent}
  {v v' : HelixVault}

/-- After a call the token is still supported if anything was ever deposited. -/
theorem Held.supported_called (held : Held hstETH vault past r.before) (custodial : Custodial hstETH vault (past ++ [r]))
    (entered : served r = some entry) (found : r.before.state.own = some v)
    (effect : Effect (sharesAt hstETH foreign) (r.env vault) ⟨v,r.before.state.rest⟩ entry event
      ⟨v',r.after.state.rest⟩) :
    ∀ q ∈ past ++ [r], Deposited q → hstETH ∈ v'.supported_assets := by
  intro q member deposited
  rcases List.mem_append.mp member with old | last
  · obtain ⟨v₀,found₀,supported⟩ := held.supported q old deposited
    rw [found] at found₀
    cases found₀
    have stays := (List.pairwise_append.mp custodial.stays).2.2 q old r (List.mem_singleton_self r) deposited
    exact (supported_moved effect hstETH).2 supported (fun removed => stays (by rw [entered,removed]))
  · rw [List.mem_singleton.mp last] at deposited
    obtain ⟨user,token,amount,depositing⟩ := deposited
    rw [entered] at depositing
    cases depositing
    have supported := deposit_supported effect
    rw [(held.sheltered v found).only token supported] at supported
    exact (supported_moved effect hstETH).2 supported (by simp)

/-- A call keeps what holds. -/
theorem Held.called (strangers : Strangers vault foreign) (held : Held hstETH vault past r.before)
    (sound : (book r.after).WellFormed r.after.clock.timestamp) (custodial : Custodial hstETH vault (past ++ [r]))
    (entered : served r = some entry) (found : r.before.state.own = some v) (left : r.after.state.own = some v')
    (effect : Effect (sharesAt hstETH foreign) (r.env vault) ⟨v,r.before.state.rest⟩ entry event
      ⟨v',r.after.state.rest⟩) : Held hstETH vault (past ++ [r]) r.after := by
  have here : r ∈ past ++ [r] := List.mem_append_right _ (List.mem_singleton_self r)
  obtain ⟨t,found_token,guarded,custody⟩ := held.token
  have sheltered := held.sheltered v found
  have sound_before := held.sound
  rw [book_of_own found] at custody sound_before
  obtain ⟨u,left_token,guarded',least⟩ := keeps_of_effect strangers sheltered.only sheltered.borrow_other effect t
    found_token guarded
  simp only at least
  have same_vault : (r.env vault).current_contract_address = vault := rfl
  rw [same_vault] at guarded' least
  refine ⟨sound,⟨u,left_token,guarded',?_⟩,?_,?_,?_⟩
  · rw [book_of_own left]
    show v'.total_deposits ≤ u.balance vault
    have before : v.total_deposits ≤ t.balance vault := custody
    omega
  · intro w same
    rw [left] at same
    cases same
    exact sheltered.effect sound_before (custodial.strangers r here)
      (fun asset added => custodial.only r here asset (by rw [entered,added])) effect
  · intro q member deposited
    exact ⟨v',left,held.supported_called custodial entered found effect q member deposited⟩
  · intro none
    have before := held.undeposited (fun q member => none q (List.mem_append_left _ member))
    rw [book_of_own found] at before
    have fallen := deposits_not_raised effect (fun user token amount same => none r here
      ⟨user,token,amount,by rw [entered,same]⟩)
    have nonneg := sound.total_nonneg
    rw [book_of_own left] at nonneg ⊢
    exact le_antisymm (fallen.trans before.le) nonneg

/-- So does the first call. -/
theorem Held.initialised {admin oracle token : Address} {config : PoolConfig} (held : Held hstETH vault past r.before)
    (sound : (book r.after).WellFormed r.after.clock.timestamp) (custodial : Custodial hstETH vault (past ++ [r]))
    (entered : served r = some (.initialise admin oracle token config)) (missing : r.before.state.own = none)
    (left : r.after.state.own = some (fresh admin oracle token config))
    (rest : r.after.state.rest = r.before.state.rest) : Held hstETH vault (past ++ [r]) r.after := by
  have here : r ∈ past ++ [r] := List.mem_append_right _ (List.mem_singleton_self r)
  obtain ⟨t,found_token,guarded,_⟩ := held.token
  refine ⟨sound,⟨t,by rw [rest]; exact found_token,guarded,?_⟩,?_,?_,?_⟩
  · rw [book_of_own left]
    exact guarded.sound.balances_nonneg vault
  · intro v same
    rw [left] at same
    cases same
    exact ⟨custodial.borrow_other r here admin oracle token config entered,by simp [fresh],rfl,rfl⟩
  · intro q member deposited
    rcases List.mem_append.mp member with old | last
    · obtain ⟨v₀,found₀,_⟩ := held.supported q old deposited
      rw [missing] at found₀
      cases found₀
    · rw [List.mem_singleton.mp last] at deposited
      obtain ⟨user,token,amount,depositing⟩ := deposited
      rw [entered] at depositing
      cases depositing
  · intro _
    rw [book_of_own left]
    rfl

end Kept

/-- A transition of such a run keeps what holds. -/
theorem held_kept (strangers : Strangers vault foreign) {past : List (Served (Ground O))} {r : Served (Ground O)}
    (makes : Makes (serve (sharesAt hstETH foreign) vault) r) (held : Held hstETH vault past r.before)
    (custodial : Custodial hstETH vault (past ++ [r])) : Held hstETH vault (past ++ [r]) r.after := by
  have here : r ∈ past ++ [r] := List.mem_append_right _ (List.mem_singleton_self r)
  have sound := wellFormed_kept makes held.sound
  obtain ⟨t,found_token,guarded,custody⟩ := held.token
  cases turn_of_makes makes with
  | called entry event v v' input out found left effect =>
    exact held.called strangers sound custodial (by simp [served,input,out]) found left effect
  | initialised admin oracle token config input out missing left rest valid =>
    exact held.initialised sound custodial (by simp [served,input,out]) missing left rest
  | moved move input out own rest =>
    have others := custodial.outside r here move input
    rw [found_token] at others
    obtain ⟨u,left_token,guarded',least⟩ := guarded.bystanders others
    exact held.idle sound (by simp [Deposited,served,input]) own ⟨u,left_token,guarded',custody.trans least⟩
  | failed e out same =>
    exact held.idle sound (by simp [Deposited,served,out]) (by rw [same])
      ⟨t,by rw [same]; exact found_token,guarded,custody⟩

/-- A vault that has the shares can send them to anybody else. -/
theorem sends_shares {t : HelixToken} {w : Ground O} {env : Env} {user : Address} {amount : Int}
    (found_token : w.token = some t) (sound : Token.Sound t) (different : env.current_contract_address ≠ user)
    (nonneg : 0 ≤ amount) (enough : amount ≤ t.balance env.current_contract_address) :
    Sent (sharesAt hstETH foreign) env hstETH user amount w
      { w with token := some (t.moved env.current_contract_address user amount) } := by
  have here : (env.calling hstETH).current_contract_address = hstETH := rfl
  have balance_le := sound.balance_le env.current_contract_address
  have supply := sound.supply_fits
  have fits : Fits amount := fits_zero.between ⟨by decide,le_rfl⟩ nonneg (by omega)
  have transferred := Token.transfer_succeeds sound (env.calling hstETH) different nonneg (.inl rfl) enough
  have paid : t.balance env.current_contract_address -
      (t.moved env.current_contract_address user amount).balance env.current_contract_address = amount := by
    rw [Token.balance_moved,if_pos rfl,if_neg different]
    omega
  refine ⟨t.balance env.current_contract_address,_,w,
    { w with token := some (t.moved env.current_contract_address user amount) },?_,?_,?_,?_,paid⟩
  · simp only [sharesAt,if_pos here,ask_balance found_token]
  · simp only [sharesAt,if_pos here,Ground.call,found_token,transferred]
  · simp only [sharesAt,if_pos here]
    exact ask_balance rfl _
  · rw [paid]
    exact fits

/-- A user without debt can be paid all its shares by a vault that has them. -/
theorem exit_withdraws (foreign : Clients (Ground O)) {v : HelixVault} {t : HelixToken} {w : Ground O} (env : Env)
    {now : Nat} {user : Address} {p : Position} (sheltered : Sheltered hstETH env.current_contract_address v)
    (sound : v.book.WellFormed now) (found_token : w.token = some t) (guarded : Guarded env.current_contract_address t)
    (custody : v.total_deposits ≤ t.balance env.current_contract_address) (supported : hstETH ∈ v.supported_assets)
    (unpaused : v.paused = false) (authorised : env.Authorised user) (found : v.positions.get user = some p)
    (debtless : p.borrowed_amount = 0) (positive : 0 < p.deposited_shares) :
    env.current_contract_address ≠ user ∧
      Withdraws (sharesAt hstETH foreign) env ⟨v,w⟩ user hstETH p.deposited_shares ⟨0,0,env.timestamp⟩
        { w with token := some (t.moved env.current_contract_address user p.deposited_shares) } := by
  have different : env.current_contract_address ≠ user := by
    rintro same
    rw [← same,sheltered.no_own] at found
    cases found
  have opened : v.opened env.timestamp user = p := by rw [HelixVault.opened,found,Option.getD_some]
  have idle : ¬ 0 < p.borrowed_amount := by omega
  have charged : v.charged env.timestamp user = ⟨p.deposited_shares,0,env.timestamp⟩ := by
    rw [HelixVault.charged,opened,Position.accrued,Position.interest_debtless _ _ _ idle,debtless]
    rfl
  have shares : v.book.shares user = p.deposited_shares := Store.weight_of_get found
  have within := sound.shares_le user
  rw [shares] at within
  have deposits : p.deposited_shares ≤ v.total_deposits := within
  have balance_le := guarded.sound.balance_le env.current_contract_address
  have supply := guarded.sound.supply_fits
  have sent : Sent (sharesAt hstETH foreign) env hstETH user p.deposited_shares w _ :=
    sends_shares found_token guarded.sound different positive.le (deposits.trans custody)
  refine ⟨different,⟨positive,authorised,sheltered.unlocked⟩,unpaused,supported,by rw [found]; rfl,?_,?_,?_,?_,.inl rfl,
    ⟨w,?_,sent⟩,?_⟩
  · rw [HelixVault.Chargeable,opened]
    exact fun owes => absurd owes.1 idle
  · rw [charged]
  · rw [charged,sub_self]
    exact fits_zero
  · rw [charged,sub_self]
  · rw [Healthy,if_neg (by simp)]
  · have left : 0 ≤ v.total_deposits - p.deposited_shares ∧ v.total_deposits - p.deposited_shares ≤ i128Max := by omega
    exact fits_zero.between ⟨by decide,le_rfl⟩ left.1 left.2

/-- A transition by which a user is paid all its shares and its position goes. -/
structure Leaves (r : Served (Ground O)) (user : Address) (shares : Int) : Prop where
  succeeds : ∃ event, r.output = .ok event
  paid : ∃ t u, r.before.state.rest.token = some t ∧ r.after.state.rest.token = some u ∧
    u.balance user = t.balance user + shares
  gone : ∃ v, r.after.state.own = some v ∧ v.positions.get user = none

/-- So its request to withdraw them succeeds. -/
theorem exit_leaves (foreign : Clients (Ground O)) {c : Chain (State (Ground O))} {v : HelixVault} {t : HelixToken}
    {user : Address} {p : Position} {origin : Origin} (reached : c.state.own = some v)
    (sheltered : Sheltered hstETH vault v) (sound : v.book.WellFormed c.clock.timestamp)
    (found_token : c.state.rest.token = some t) (guarded : Guarded vault t)
    (custody : v.total_deposits ≤ t.balance vault) (supported : hstETH ∈ v.supported_assets) (unpaused : v.paused = false)
    (authorised : origin.invoker = some user ∨ origin.signed user = true) (found : v.positions.get user = some p)
    (debtless : p.borrowed_amount = 0) (positive : 0 < p.deposited_shares) :
    Leaves (transition (serve (sharesAt hstETH foreign) vault) c (origin,.vault (.withdraw user hstETH p.deposited_shares)))
      user p.deposited_shares := by
  obtain ⟨different,withdraws⟩ := exit_withdraws foreign (origin.env (c.clock.advance origin) vault) sheltered sound
    found_token guarded custody supported unpaused authorised found debtless positive
  have ran : act (sharesAt hstETH foreign) (origin.env (c.clock.advance origin) vault)
      (.vault (.withdraw user hstETH p.deposited_shares)) c.state = _ :=
    invoke_of_call reached (withdraw_returns withdraws)
  have delivered : serve (sharesAt hstETH foreign) vault c (origin,.vault (.withdraw user hstETH p.deposited_shares)) = _ :=
    deliver_ok ran
  unfold transition
  rw [delivered]
  refine ⟨⟨_,rfl⟩,⟨t,_,found_token,rfl,?_⟩,_,rfl,?_⟩
  · show (t.moved vault user p.deposited_shares).balance user = _
    have other : user ≠ vault := fun same => different same.symm
    rw [Token.balance_moved,if_neg other,if_pos rfl]
    omega
  · simp [HelixVault.settled]

/-- A vault that counts shares of somebody still takes the share token. -/
theorem Held.supports {past : List (Served (Ground O))} {c : Chain (State (Ground O))} {v : HelixVault} {user : Address}
    {p : Position} (held : Held hstETH vault past c) (reached : c.state.own = some v) (found : v.positions.get user = some p)
    (positive : 0 < p.deposited_shares) : hstETH ∈ v.supported_assets := by
  by_contra absent
  have undeposited : ∀ q ∈ past, ¬ Deposited q := by
    intro q member deposited
    obtain ⟨v₀,same,supported⟩ := held.supported q member deposited
    rw [reached] at same
    cases same
    exact absent supported
  have none := held.undeposited undeposited
  have within := held.sound.shares_le user
  rw [book_of_own reached] at none within
  have shares : v.book.shares user = p.deposited_shares := Store.weight_of_get found
  omega

/-- A chain with a fresh share token and a vault that is not initialized yet. -/
def beginning (clock : Clock) (admin vault bridge : Address) (others : O) : Chain (State (Ground O)) :=
  undeployed clock ⟨some (Token.fresh admin vault bridge),others⟩

/-- What holds at the start of such a run holds at its end. -/
theorem serve_held (strangers : Strangers vault foreign) (clock : Clock) (admin bridge : Address) (others : O)
    (calls : List (Origin × Action (Ground O)))
    (custodial : Custodial hstETH vault
      (trace (serve (sharesAt hstETH foreign) vault) (beginning clock admin vault bridge others) calls)) :
    Held hstETH vault (trace (serve (sharesAt hstETH foreign) vault) (beginning clock admin vault bridge others) calls)
      (run (serve (sharesAt hstETH foreign) vault) (beginning clock admin vault bridge others) calls) := by
  have guarded : Guarded vault (Token.fresh admin vault bridge) := .fresh admin vault bridge
  have started : Held hstETH vault [] (beginning clock admin vault bridge others) :=
    ⟨Book.WellFormed.empty _,⟨_,rfl,guarded,guarded.sound.balances_nonneg vault⟩,by rintro v ⟨⟩,by simp,fun _ => rfl⟩
  revert custodial
  apply run_history (serve (sharesAt hstETH foreign) vault)
    (fun past c => Custodial hstETH vault past → Held hstETH vault past c) calls
  · intro _
    exact started
  · intro past r _ makes held custodial
    exact held_kept strangers makes (held custodial.init) custodial

/-- In every state that such a run reaches, the vault has at least as many shares
    as its total deposits; and while it is not paused, a user with shares and
    without debt who asks for all its shares is paid them and leaves no position. -/
theorem custody_and_exit (strangers : Strangers vault foreign) (clock : Clock) (admin bridge : Address) (others : O)
    (calls : List (Origin × Action (Ground O)))
    (custodial : Custodial hstETH vault
      (trace (serve (sharesAt hstETH foreign) vault) (beginning clock admin vault bridge others) calls)) (v : HelixVault)
    (reached : (run (serve (sharesAt hstETH foreign) vault) (beginning clock admin vault bridge others) calls).state.own =
      some v) :
    let final := run (serve (sharesAt hstETH foreign) vault) (beginning clock admin vault bridge others) calls
    (∃ t, final.state.rest.token = some t ∧ v.total_deposits ≤ t.balance vault) ∧
      ∀ user p origin, v.paused = false → v.positions.get user = some p → p.borrowed_amount = 0 →
        0 < p.deposited_shares → (origin.invoker = some user ∨ origin.signed user = true) →
        Leaves (transition (serve (sharesAt hstETH foreign) vault) final
          (origin,.vault (.withdraw user hstETH p.deposited_shares))) user p.deposited_shares := by
  have held := serve_held strangers clock admin bridge others calls custodial
  obtain ⟨t,found_token,guarded,custody⟩ := held.token
  have sound := held.sound
  have sheltered := held.sheltered v reached
  rw [book_of_own reached] at custody sound
  refine ⟨⟨t,found_token,custody⟩,?_⟩
  intro user p origin unpaused found debtless some authorised
  have supported := held.supports reached found some
  exact exit_leaves foreign reached sheltered sound found_token guarded custody supported unpaused authorised found debtless
    some

end Runs

/-! ### A small chain with shares -/

/-- Contracts that leave the share token alone. -/
def Ground.beside {α : Type} (f : O → Option (α × O)) (w : Ground O) : Option (α × Ground O) :=
  (f w.others).map (fun r => (r.1,{ w with others := r.2 }))

def beside (clients : Clients O) : Clients (Ground O) where
  balance env id := Ground.beside (clients.balance env id)
  transfer env owner recipient amount := Ground.beside (clients.transfer env owner recipient amount)
  transfer_from env spender owner recipient amount :=
    Ground.beside (clients.transfer_from env spender owner recipient amount)
  assets_for_shares env shares := Ground.beside (clients.assets_for_shares env shares)
  shares_for_assets env assets := Ground.beside (clients.shares_for_assets env assets)
  lastprice env asset := Ground.beside (clients.lastprice env asset)
  decimals env asset := Ground.beside (clients.decimals env asset)

/-- Somebody calls the share token; a call that fails changes nothing. -/
def Ground.calledBy (env : Env) (entry : Token.Entry) (w : Ground O) : Ground O :=
  match Token.invoke env entry w.token with
  | .ok (_, t) => { w with token := t }
  | .error _ => w

theorem beside_bystanders {α : Type} {vault : Address} {f : O → Option (α × O)} {w w' : Ground O} {x : α}
    (done : Ground.beside f w = some (x, w')) : Bystanders vault w.token w'.token := by
  obtain ⟨r,_,same⟩ := Option.map_eq_some_iff.mp done
  cases same
  exact .refl

theorem beside_strangers (vault : Address) (clients : Clients O) : Strangers vault (beside clients) where
  balance _ _ _ _ _ done := beside_bystanders done
  transfer _ _ _ _ _ _ _ done := beside_bystanders done
  transfer_from _ _ _ _ _ _ _ _ done := beside_bystanders done
  assets_for_shares _ _ _ _ _ done := beside_bystanders done
  shares_for_assets _ _ _ _ _ done := beside_bystanders done
  lastprice _ _ _ _ _ done := beside_bystanders done
  decimals _ _ _ _ _ done := beside_bystanders done

theorem calledBy_bystanders {vault : Address} {env : Env} {entry : Token.Entry} (stranger : ¬ env.Authorised vault)
    (consent : ∀ owner shares, entry = .bridge_burn owner shares → env.Authorised owner) (w : Ground O) :
    Bystanders vault w.token (w.calledBy env entry).token := by
  unfold Ground.calledBy
  cases ran : Token.invoke env entry w.token with
  | error e => exact .refl
  | ok q => exact .single ⟨env,entry,stranger,consent,ran⟩

namespace Small

def bridge : Address := .contract (BytesN.fill 32 8)

/-- A call to the share token, which is `tokenA`, that an address signs. -/
def callsToken (signer : Address) (entry : Token.Entry) : Origin × Action (Ground Purse) :=
  (.signedBy signer,.outside (Ground.calledBy ((Origin.signedBy signer).env ⟨0,0⟩ tokenA) entry))

abbrev sharesStep := serve (sharesAt tokenA (beside clients)) vault
abbrev sharesStart : Chain (State (Ground Purse)) := beginning ⟨0,0⟩ admin vault bridge purse

/-- A user gets shares, deposits most of them and sends the vault some more. -/
def stay : List (Origin × Action (Ground Purse)) :=
  [calls admin (.initialise admin oracle borrow_token config),calls admin (.add_supported_asset tokenA),
    callsToken bridge (.bridge_mint userA 1000),callsToken userA (.approve userA vault 900 100),
    calls userA (.deposit userA tokenA 900),callsToken userA (.transfer userA vault 50)]

theorem stay_outside : ∀ call ∈ stay, ∀ move, call.2 = .outside move → ∀ w, Bystanders vault w.token (move w).token := by
  have calls_token : ∀ signer entry, signer ≠ vault → (∀ owner shares, entry ≠ .bridge_burn owner shares) →
      ∀ move, (callsToken signer entry).2 = .outside move → ∀ w, Bystanders vault w.token (move w).token := by
    rintro signer entry other no_burn move ⟨⟩ w
    exact calledBy_bystanders (by simp [Env.Authorised,Origin.env,Origin.signedBy,Ne.symm other])
      (fun owner shares same => absurd same (no_burn owner shares)) w
  simp only [stay,List.forall_mem_cons,List.not_mem_nil,false_imp_iff,implies_true,and_true]
  refine ⟨?_,?_,calls_token _ _ (by decide) (by simp),calls_token _ _ (by decide) (by simp),?_,
    calls_token _ _ (by decide) (by simp)⟩
  all_goals
    intro move same
    cases same

theorem stay_custodial : Custodial tokenA vault (trace sharesStep sharesStart stay) := by
  refine .of_calls (by decide) stay_outside ?_
  simp only [stay,List.forall_mem_cons,List.not_mem_nil,false_imp_iff,implies_true,and_true,calls,callsToken,
    Action.Plain]
  decide

end Small

/-- The user who deposited 900 shares can leave with them. -/
theorem custody_and_exit_stay :
    let final := run Small.sharesStep Small.sharesStart Small.stay
    (∃ v t, final.state.own = some v ∧ final.state.rest.token = some t ∧ v.total_deposits = 900 ∧
      t.balance Small.vault = 950 ∧ v.total_deposits ≤ t.balance Small.vault) ∧
      Leaves (transition Small.sharesStep final (.signedBy Small.userA,.vault (.withdraw Small.userA Small.tokenA 900)))
        Small.userA 900 := by
  have ended : (run Small.sharesStep Small.sharesStart Small.stay).state.own.map (fun v =>
      (v.paused,v.total_deposits,v.positions.get Small.userA)) = some (false, 900, some ⟨900,0,25⟩) := by decide +kernel
  have paid : (run Small.sharesStep Small.sharesStart Small.stay).state.rest.token.map (fun t =>
      t.balance Small.vault) = some 950 := by decide +kernel
  obtain ⟨v,reached,facts⟩ := Option.map_eq_some_iff.mp ended
  simp only [Prod.mk.injEq] at facts
  obtain ⟨unpaused,total,found⟩ := facts
  obtain ⟨⟨t,token,custody⟩,exit⟩ := custody_and_exit (beside_strangers Small.vault Small.clients) ⟨0,0⟩ Small.admin
    Small.bridge Small.purse Small.stay Small.stay_custodial v reached
  rw [token,Option.map_some,Option.some.injEq] at paid
  exact ⟨⟨v,t,reached,token,total,paid,custody⟩,
    exit Small.userA ⟨900,0,25⟩ (.signedBy Small.userA) unpaused found rfl (by decide) (.inr (by decide))⟩

end Helix.Vault
