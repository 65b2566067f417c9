import Helix.VaultBook

/-!
The vault on a chain. Besides the calls to the vault anything may happen outside
it at any time, and the tokens and the oracle are any contracts that answer
without coming back to the vault, which the host does not let them. What one
transition does is a `Turn`; what it does to the book of the vault is one
posting or none (`Kept`, `kept_of_makes`), and through every run the book stays
well formed (`serve_wellFormed`).
-/
namespace Helix.Vault
open Invoke

/-- What happens on the chain: a call to the vault, or anything else outside it. -/
inductive Action (W : Type) where
  | vault (entry : Entry)
  | outside (move : W → W)

/-- A vault that may not be initialized yet, and what is outside it. -/
abbrev State (W : Type) : Type := World (Option HelixVault) W

def act {W : Type} (clients : Clients W) (env : Env) : Action W → Invoke (State W) VaultError (Option VaultEvent)
  | .vault entry => invoke clients.apart env entry
  | .outside move => do
    write (fun s => { s with rest := move s.rest })
    pure none

/-- The chain with the vault on it. -/
abbrev serve {W : Type} (clients : Clients W) (vault : Address) :
    Chain (State W) → Origin × Action W → Except (Failure VaultError) (Option VaultEvent) × Chain (State W) :=
  deliver vault (act clients)

/-- A chain on which the vault is not initialized yet. -/
def undeployed {W : Type} (clock : Clock) (w : W) : Chain (State W) := ⟨clock,⟨none,w⟩⟩

/-- Every address counts. -/
def any : Address → Bool := fun _ => true
/-- One address counts. -/
def only (address : Address) : Address → Bool := fun other => decide (other = address)

/-- A transition of the chain. -/
abbrev Served (W : Type) : Type := Delivery (State W) VaultError (Action W) (Option VaultEvent)

section Transitions
variable {W : Type}

/-- The call to the vault that succeeded. -/
def served (r : Served W) : Option Entry :=
  match r.input.2, r.output with
  | .vault entry, .ok _ => some entry
  | _, _ => none

theorem served_some {r : Served W} {entry : Entry} :
    served r = some entry ↔ r.input.2 = .vault entry ∧ ∃ event, r.output = .ok event := by
  unfold served
  split
  · rename_i called event input output
    simp [input,output]
  · rename_i other
    simp only [reduceCtorEq,false_iff,not_and,not_exists]
    intro input event output
    exact other entry event input output

/-- What the vault published. -/
def published (r : Served W) : Option VaultEvent :=
  match r.output with
  | .ok event => event
  | .error _ => none

/-- What was posted to the book. -/
def posting (r : Served W) : Option Posting := (published r).bind VaultEvent.posting

/-- The book of the vault on the chain, empty until there is a vault. -/
def book (c : Chain (State W)) : Book :=
  match c.state.own with
  | none => .empty
  | some v => v.book

/-- The interest that a call at this time books on the position of a user. -/
def interest (r : Served W) (user : Address) : Int :=
  match r.before.state.own with
  | none => 0
  | some v => v.interestOn r.clock.timestamp user

theorem interest_nonneg (r : Served W) (user : Address) : 0 ≤ interest r user := by
  unfold interest
  split
  · exact le_rfl
  · exact HelixVault.interestOn_nonneg _ _ _

theorem book_of_own {c : Chain (State W)} {v : HelixVault} (own : c.state.own = some v) : book c = v.book := by
  simp [book,own]

/-- What a transition does. -/
inductive Turn (clients : Clients W) (vault : Address) (r : Served W) : Prop
  | called (entry : Entry) (event : Option VaultEvent) (v v' : HelixVault) :
      r.input.2 = .vault entry → r.output = .ok event → r.before.state.own = some v → r.after.state.own = some v' →
      Effect clients (r.env vault) ⟨v,r.before.state.rest⟩ entry event ⟨v',r.after.state.rest⟩ → Turn clients vault r
  | initialised (admin oracle borrow_token : Address) (config : PoolConfig) :
      r.input.2 = .vault (.initialise admin oracle borrow_token config) → r.output = .ok none →
      r.before.state.own = none → r.after.state.own = some (fresh admin oracle borrow_token config) →
      r.after.state.rest = r.before.state.rest → ValidConfig config → Turn clients vault r
  | moved (move : W → W) : r.input.2 = .outside move → r.output = .ok none → r.after.state.own = r.before.state.own →
      r.after.state.rest = move r.before.state.rest → Turn clients vault r
  | failed (e : Failure VaultError) : r.output = .error e → r.after.state = r.before.state → Turn clients vault r

variable {clients : Clients W} {vault : Address}

theorem turn_of_makes {r : Served W} (makes : Makes (serve clients vault) r) : Turn clients vault r := by
  rcases Delivery.cases makes with ⟨event,out,ran⟩ | ⟨e,out,same⟩
  · cases input : r.input.2 with
    | vault entry =>
      rw [input] at ran
      rcases invoke_cases ran with ⟨v,v',found,left,effect⟩ | ⟨none,rest,admin,oracle,token,config,rfl,rfl,valid,left⟩
      · exact .called entry event v v' input out found left effect
      · exact .initialised admin oracle token config input out none left rest valid
    | outside move =>
      rw [input] at ran
      simp only [act,bind_ok,write_ok,pure_ok,exists_eq_left,Prod.mk.injEq] at ran
      obtain ⟨rfl,after⟩ := ran
      exact .moved move input out (by rw [after]) (by rw [after])
  · exact .failed e out same

/-- A call of a vault that succeeded did what its effect says. -/
theorem called_of_makes {r : Served W} {entry : Entry} {event : Option VaultEvent}
    (makes : Makes (serve clients vault) r) (input : r.input.2 = .vault entry) (out : r.output = .ok event)
    (later : ∀ admin oracle borrow_token config, entry ≠ .initialise admin oracle borrow_token config) :
    ∃ v s', r.before.state.own = some v ∧ r.after.state = ⟨some s'.own,s'.rest⟩ ∧
      Effect clients (r.env vault) ⟨v,r.before.state.rest⟩ entry event s' := by
  cases turn_of_makes makes with
  | called entry' event' v v' asked out' found left effect =>
    rw [input,Action.vault.injEq] at asked
    rw [out,Except.ok.injEq] at out'
    subst asked out'
    refine ⟨v,⟨v',r.after.state.rest⟩,found,?_,effect⟩
    rw [← left]
  | initialised admin oracle borrow_token config asked =>
    rw [input,Action.vault.injEq] at asked
    exact absurd asked (later _ _ _ _)
  | moved move asked =>
    rw [input] at asked
    cases asked
  | failed e error =>
    rw [out] at error
    cases error

/-- The book keeps a transition: one posting to the account of the call, with
    the interest up to then, or nothing. -/
inductive Kept (r : Served W) : Prop
  | posted (p : Posting) : posting r = some p → (served r).bind Entry.account = some p.user →
      book r.after = (book r.before).post r.clock.timestamp (interest r p.user) p →
      (book r.before).Covers (interest r p.user) p → Kept r
  | idle : posting r = none → (served r).bind Entry.account = none → book r.after = book r.before → Kept r

theorem kept_of_makes {r : Served W} (makes : Makes (serve clients vault) r)
    (sound : (book r.before).WellFormed r.before.clock.timestamp) : Kept r := by
  cases turn_of_makes makes with
  | called entry event v v' input out found left effect =>
    rw [book_of_own found] at sound
    have booked : Booked r.clock.timestamp v entry event v' := booked_of_effect sound effect
    cases booked with
    | posted p posted touched moved covers =>
      refine .posted p ?_ ?_ ?_ ?_
      · simpa [posting,published,out] using posted
      · simpa [served,input,out] using touched
      · simpa [book_of_own found,book_of_own left,interest,found] using moved
      · simpa [book_of_own found,interest,found] using covers
    | idle quiet untouched same =>
      refine .idle ?_ ?_ ?_
      · simpa [posting,published,out] using quiet
      · simpa [served,input,out] using untouched
      · rw [book_of_own found,book_of_own left,same]
  | initialised admin oracle token config input out missing left rest valid =>
    refine .idle (by simp [posting,published,out]) (by simp [served,input,out,Entry.account]) ?_
    rw [book_of_own left,book,missing]
    rfl
  | moved move input out own rest =>
    exact .idle (by simp [posting,published,out]) (by simp [served,input]) (by rw [book,book,own])
  | failed e out same =>
    exact .idle (by simp [posting,published,out]) (by simp [served,out]) (by rw [book,book,same])

/-- The vault is not given another configuration. -/
def Unconfigured (r : Served W) : Prop := ∀ new_config, served r ≠ some (.update_config new_config)

/-- A vault stays, under its configuration, until it is given another one. -/
theorem config_kept {r : Served W} {v : HelixVault} (makes : Makes (serve clients vault) r)
    (unconfigured : Unconfigured r) (found : r.before.state.own = some v) :
    ∃ v', r.after.state.own = some v' ∧ v'.pool_config = v.pool_config := by
  cases turn_of_makes makes with
  | called entry event u u' input out found' left effect =>
    rw [found] at found'
    cases found'
    refine ⟨u',left,config_of_effect effect ?_⟩
    rintro new_config rfl
    exact unconfigured new_config (by rw [served,input,out])
  | initialised admin oracle borrow_token config input out missing =>
    rw [found] at missing
    cases missing
  | moved move input out own rest => exact ⟨v,own.trans found,rfl⟩
  | failed e out same => exact ⟨v,by rw [same,found],rfl⟩

/-- The clock of a chain does not go back. -/
theorem clock_le (r : Served W) : r.before.clock.timestamp ≤ r.clock.timestamp := Nat.le_add_right _ _

theorem wellFormed_kept {r : Served W} (makes : Makes (serve clients vault) r)
    (sound : (book r.before).WellFormed r.before.clock.timestamp) :
    (book r.after).WellFormed r.after.clock.timestamp := by
  rw [Delivery.after_clock makes]
  cases kept_of_makes makes sound with
  | posted p posted touched moved covers =>
    rw [moved]
    exact sound.post (clock_le r) covers
  | idle quiet untouched same =>
    rw [same]
    exact sound.later (clock_le r)

section Runs
variable (clients : Clients W) (vault : Address) (clock : Clock) (w : W) (calls : List (Origin × Action W))

/-- The book is well formed in every state that a run reaches. -/
theorem serve_wellFormed :
    (book (run (serve clients vault) (undeployed clock w) calls)).WellFormed
      (run (serve clients vault) (undeployed clock w) calls).clock.timestamp :=
  run_invariant _ (fun c => (book c).WellFormed c.clock.timestamp) calls (Book.WellFormed.empty _)
    (fun _ _ makes held => wellFormed_kept makes held)

/-- Every transition of a run is kept by the book. -/
theorem serve_kept : ∀ r ∈ trace (serve clients vault) (undeployed clock w) calls, Kept r := by
  intro r member
  refine kept_of_makes (trace_makes member) ?_
  exact trace_invariant (serve clients vault) (s := undeployed clock w)
    (fun c => (book c).WellFormed c.clock.timestamp) calls (Book.WellFormed.empty _)
    (fun _ _ makes held => wellFormed_kept makes held) r member

/-- What history and state keep through every transition from a well-formed book,
    they keep through the whole run. -/
theorem serve_history (keeps : List (Served W) → Chain (State W) → Prop) (start : keeps [] (undeployed clock w))
    (extend : ∀ past r, r.input ∈ calls → Makes (serve clients vault) r →
      (book r.before).WellFormed r.before.clock.timestamp → keeps past r.before → keeps (past ++ [r]) r.after) :
    keeps (trace (serve clients vault) (undeployed clock w) calls)
      (run (serve clients vault) (undeployed clock w) calls) := by
  have held := run_history (serve clients vault) (s := undeployed clock w)
    (fun past c => (book c).WellFormed c.clock.timestamp ∧ keeps past c) calls ⟨Book.WellFormed.empty _,start⟩
    (fun past r member makes held =>
      ⟨wellFormed_kept makes held.1,extend past r (trace_input member) makes held.1 held.2⟩)
  exact held.2

end Runs

end Transitions

/-! ### A small chain

One vault with a token to borrow and two collateral tokens, all of which take the
vault as an approved spender, and an oracle that quotes one price for everything. -/

namespace Small

def admin : Address := .account (BytesN.fill 32 1)
def userA : Address := .account (BytesN.fill 32 2)
def userB : Address := .account (BytesN.fill 32 3)
def oracle : Address := .contract (BytesN.fill 32 4)
def tokenA : Address := .contract (BytesN.fill 32 5)
def tokenB : Address := .contract (BytesN.fill 32 6)
def borrow_token : Address := .contract (BytesN.fill 32 7)
def vault : Address := .contract (BytesN.fill 32 9)

/-- Who holds how much of which token. -/
abbrev Purse : Type := Address → Address → Int

def Purse.moved (w : Purse) (token owner recipient : Address) (amount : Int) : Purse := fun other holder =>
  w other holder + (if other = token ∧ holder = recipient then amount else 0) -
    (if other = token ∧ holder = owner then amount else 0)

/-- A transfer that its authoriser asked for and the owner can pay. -/
def Purse.transfer (env : Env) (authoriser owner recipient : Address) (amount : Int) (w : Purse) :
    Option (Unit × Purse) :=
  if env.Authorised authoriser ∧ 0 ≤ amount ∧ amount ≤ w env.current_contract_address owner then
    some ((), w.moved env.current_contract_address owner recipient amount)
  else none

def clients : Clients Purse where
  balance env id w := some (w env.current_contract_address id, w)
  transfer env owner recipient amount := Purse.transfer env owner owner recipient amount
  transfer_from env spender owner recipient amount := Purse.transfer env spender owner recipient amount
  assets_for_shares _ shares w := some (shares, w)
  shares_for_assets _ assets w := some (assets, w)
  lastprice env _ w := some ((10000000, env.timestamp), w)
  decimals _ _ w := some (7, w)

def config : PoolConfig where
  max_ltv := 7500
  liq_threshold := 8000
  liq_bonus := 500
  interest_rate := 500
  min_position := 1

def purse : Purse := fun token holder => if holder = vault ∧ token ≠ borrow_token then 0 else 1000000000000

def start : Chain (State Purse) := undeployed ⟨0,0⟩ purse

abbrev step : Chain (State Purse) → Origin × Action Purse → Except (Failure VaultError) (Option VaultEvent) ×
    Chain (State Purse) := serve clients vault

/-- A call to the vault that an address signs. -/
def calls {W : Type} (signer : Address) (entry : Entry) : Origin × Action W := (.signedBy signer,.vault entry)

/-- The same, after a year. -/
def callsNextYear (signer : Address) (entry : Entry) : Origin × Action Purse :=
  ({ Origin.signedBy signer with seconds := 31536000 },.vault entry)

/-- The vault is initialized, with one collateral token. -/
def opening : List (Origin × Action Purse) :=
  [calls admin (.initialise admin oracle borrow_token config),calls admin (.add_supported_asset tokenA)]

/-- A user deposits, borrows, and repays everything a year later. -/
def loan : List (Origin × Action Purse) :=
  opening ++ [calls userA (.deposit userA tokenA 1000000),calls userA (.borrow userA 500000),
    callsNextYear userA (.repay userA 1000000)]

end Small

end Helix.Vault
