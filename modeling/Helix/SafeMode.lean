import Helix.VaultPause
import Helix.OracleDeviation

/-!
The vault together with the oracle adaptor that is its oracle and may pause it. An
update that finds both sources fresh and too far apart pauses the vault exactly if
the two prices can be compared in 128 bits, and from then until somebody unpauses
it the vault is frozen (`safe_mode_iff`).

The contracts around the two are any code: tokens answer the vault what they like,
and the sources may on the way call the vault as often as they like. The calls to
the vault that returned are kept as a record, nested ones included.
-/
namespace Helix

/-- The same failure among the errors of a larger program. -/
def Failure.map {ε ε' : Type} (f : ε → ε') : Failure ε → Failure ε'
  | .error e => .error (f e)
  | .trap => .trap

namespace SafeMode
open Invoke
open Vault (HelixVault VaultError VaultEvent Serves Frozen)
open Oracle (HelixOracleAdaptor OracleError OracleEvent Sees Deviating Comparable)

/-- The vault, the adaptor, the calls to the vault that returned so far, and the
    rest of the chain. -/
structure Site (O : Type) where
  vault : Option HelixVault
  adaptor : Option HelixOracleAdaptor
  calls : List Vault.Entry
  others : O

/-- What is outside the vault. -/
structure Beside (O : Type) where
  adaptor : Option HelixOracleAdaptor
  others : O

/-- What is outside the adaptor. -/
structure Yard (O : Type) where
  vault : Option HelixVault
  calls : List Vault.Entry
  others : O

def Site.beside {O : Type} (s : Site O) : Beside O := ⟨s.adaptor,s.others⟩
def Site.yard {O : Type} (s : Site O) : Yard O := ⟨s.vault,s.calls,s.others⟩

/-- The contracts around: those the vault calls, and the sources, when the adaptor
    is asked by the vault and when it is called itself. -/
structure Neighbours (O : Type) where
  clients : Vault.Clients (Beside O)
  quoted : Oracle.Peers O
  sources : Oracle.Peers (Yard O)

section Chain
variable {O : Type}

/-- A question of the vault to the adaptor. -/
def Beside.ask {α : Type} (question : Oracle.Contract O α) (w : Beside O) : Option (α × Beside O) :=
  w.adaptor.bind (fun a => (answer question ⟨a,w.others⟩).map (fun r => (r.1,⟨some r.2.own,r.2.rest⟩)))

/-- What the vault calls, with the adaptor among it. -/
def Neighbours.oracleAt (n : Neighbours O) (adaptor : Address) : Vault.Clients (Beside O) :=
  { n.clients with
    lastprice := fun env asset =>
      if env.current_contract_address = adaptor then Beside.ask (Oracle.lastprice env asset)
      else n.clients.lastprice env asset
    decimals := fun env asset =>
      if env.current_contract_address = adaptor then Beside.ask (Oracle.decimals n.quoted env asset)
      else n.clients.decimals env asset }

/-- Tokens that never answer: pausing asks none. -/
def deaf : Vault.Clients O where
  balance _ _ _ := none
  transfer _ _ _ _ _ := none
  transfer_from _ _ _ _ _ _ := none
  assets_for_shares _ _ _ := none
  shares_for_assets _ _ _ := none
  lastprice _ _ _ := none
  decimals _ _ _ := none

/-- A call of the adaptor to the vault. -/
def Yard.call (env : Env) (entry : Vault.Entry) (w : Yard O) : Option (Unit × Yard O) :=
  match Vault.invoke deaf.apart env entry ⟨w.vault,w.others⟩ with
  | .ok (_, t) => some ((), ⟨t.own,w.calls ++ [entry],t.rest⟩)
  | .error _ => none

/-- What the adaptor calls, with the vault among it. -/
def Neighbours.vaultAt (n : Neighbours O) (vault : Address) : Oracle.Peers (Yard O) :=
  { n.sources with
    pause_by := fun env caller =>
      if env.current_contract_address = vault then Yard.call env (.pause_by caller) else n.sources.pause_by env caller
    unpause_by := fun env caller =>
      if env.current_contract_address = vault then Yard.call env (.unpause_by caller)
      else n.sources.unpause_by env caller }

/-- What happens on the chain: a call to the vault or to the adaptor, or anything
    outside both. -/
inductive Action (O : Type) where
  | vault (entry : Vault.Entry)
  | oracle (entry : Oracle.Entry)
  | outside (move : O → O)

inductive Event where
  | vault (event : Option VaultEvent)
  | oracle (event : Option OracleEvent)
  | outside
  deriving DecidableEq

def callVault (clients : Vault.Clients (Beside O)) (env : Env) (entry : Vault.Entry) :
    Invoke (Site O) (VaultError ⊕ OracleError) Event := fun s =>
  match Vault.invoke clients.apart env entry ⟨s.vault,s.beside⟩ with
  | .ok (event, t) => .ok (.vault event, ⟨t.own,t.rest.adaptor,s.calls ++ [entry],t.rest.others⟩)
  | .error e => .error (e.map .inl)

def callOracle (peers : Oracle.Peers (Yard O)) (env : Env) (entry : Oracle.Entry) :
    Invoke (Site O) (VaultError ⊕ OracleError) Event := fun s =>
  match Oracle.invoke peers env entry ⟨s.adaptor,s.yard⟩ with
  | .ok (event, t) => .ok (.oracle event, ⟨t.rest.vault,t.own,t.rest.calls,t.rest.others⟩)
  | .error e => .error (e.map .inr)

def act (n : Neighbours O) (vault adaptor : Address) (env : Env) :
    Action O → Invoke (Site O) (VaultError ⊕ OracleError) Event
  | .vault entry => callVault (n.oracleAt adaptor) env entry
  | .oracle entry => callOracle (n.vaultAt vault) { env with current_contract_address := adaptor } entry
  | .outside move => do
    write (fun s => { s with others := move s.others })
    pure .outside

/-- The chain with the vault and the adaptor on it. -/
abbrev serve (n : Neighbours O) (vault adaptor : Address) :
    Chain (Site O) → Origin × Action O → Except (Failure (VaultError ⊕ OracleError)) Event × Chain (Site O) :=
  deliver vault (act n vault adaptor)

/-- A chain on which neither is initialized yet. -/
def undeployed (clock : Clock) (o : O) : Chain (Site O) := ⟨clock,none,none,[],o⟩

/-- A transition of the chain. -/
abbrev Turned (O : Type) : Type := Delivery (Site O) (VaultError ⊕ OracleError) (Action O) Event

/-! ### What happens to the vault -/

/-- The vault is reached by calls only, and the record has them. -/
def Visits (w w' : Yard O) : Prop := ∃ later, w'.calls = w.calls ++ later ∧ Serves w.vault later w'.vault

/-- Whatever the sources do when they are called, they do to the vault by calls. -/
structure Visitors (peers : Oracle.Peers (Yard O)) : Prop where
  decimals : ∀ env asset w, Visits w (peers.decimals env asset w).2
  lastprice : ∀ env asset w, Visits w (peers.lastprice env asset w).2
  pause_by : ∀ env caller w w', peers.pause_by env caller w = some ((), w') → Visits w w'
  unpause_by : ∀ env caller w w', peers.unpause_by env caller w = some ((), w') → Visits w w'

namespace Visits
variable {w w' w'' : Yard O}

theorem refl (w : Yard O) : Visits w w := ⟨[],by simp,.nothing _⟩

theorem trans (first : Visits w w') (second : Visits w' w'') : Visits w w'' := by
  obtain ⟨earlier,record,served⟩ := first
  obtain ⟨later,record',served'⟩ := second
  exact ⟨earlier ++ later,by rw [record',record,List.append_assoc],served.trans served'⟩

theorem of_call {env : Env} {entry : Vault.Entry} (called : Yard.call env entry w = some ((), w')) : Visits w w' := by
  unfold Yard.call at called
  split at called
  · rename_i event t ran
    cases called
    exact ⟨[entry],rfl,.call [] entry O deaf env event w.others t.rest _ _ _ (.nothing _) ran⟩
  · cases called

end Visits

section Visiting
variable {peers : Oracle.Peers (Yard O)} {env : Env} {w w' : Yard O}

theorem Visitors.vaultAt {n : Neighbours O} (visitors : Visitors n.sources) (vault : Address) :
    Visitors (n.vaultAt vault) where
  decimals := visitors.decimals
  lastprice := visitors.lastprice
  pause_by env caller w w' called := by
    simp only [Neighbours.vaultAt] at called
    split at called
    · exact .of_call called
    · exact visitors.pause_by env caller w w' called
  unpause_by env caller w w' called := by
    simp only [Neighbours.vaultAt] at called
    split at called
    · exact .of_call called
    · exact visitors.unpause_by env caller w w' called

theorem Visitors.asked (visitors : Visitors peers) {asset : Address} {answer : Option Nat}
    (asked : peers.decimals env asset w = (answer, w')) : Visits w w' := by
  have visits := visitors.decimals env asset w
  rwa [asked] at visits

theorem Visitors.told (visitors : Visitors peers) {asset : Address} {answer : Option (Int × Nat)}
    (told : peers.lastprice env asset w = (answer, w')) : Visits w w' := by
  have visits := visitors.lastprice env asset w
  rwa [told] at visits

theorem Visitors.target (visitors : Visitors peers) {v : HelixOracleAdaptor} {asset : Address} {decimals : Nat}
    (target : Oracle.Target peers env v asset decimals w w') : Visits w w' := by
  cases target with
  | primary _ answered => exact visitors.asked answered
  | secondary _ _ silent answered => exact (visitors.asked silent).trans (visitors.asked answered)

theorem Visitors.observed (visitors : Visitors peers) {staleness target : Nat} {oracle asset : Address}
    {source : Oracle.Source} {observation : Option Oracle.PriceData}
    (observed : Oracle.Observed peers env staleness oracle asset target source observation w w') : Visits w w' := by
  cases observed with
  | silent _ _ silent => exact visitors.asked silent
  | priceless _ _ _ _ asked told => exact (visitors.asked asked).trans (visitors.told told)
  | unusable _ _ _ _ _ asked told _ => exact (visitors.asked asked).trans (visitors.told told)
  | usable _ _ _ _ _ _ asked told _ _ _ => exact (visitors.asked asked).trans (visitors.told told)

theorem Visitors.surveyed (visitors : Visitors peers) {s : World HelixOracleAdaptor (Yard O)} {asset : Address}
    {target : Nat} {primary secondary : Option Oracle.PriceData}
    (surveyed : Oracle.Surveyed peers env s asset target primary secondary w) : Visits s.rest w := by
  obtain ⟨first,second,chosen,observed,observed'⟩ := surveyed.steps
  exact ((visitors.target chosen).trans (visitors.observed observed)).trans (visitors.observed observed')

theorem Visitors.effect (visitors : Visitors peers) {s s' : World HelixOracleAdaptor (Yard O)} {entry : Oracle.Entry}
    {event : Option OracleEvent} (effect : Oracle.Effect peers env s entry event s') : Visits s.rest s'.rest := by
  cases effect with
  | safe_mode _ _ _ _ w w' surveyed _ paused => exact (visitors.surveyed surveyed).trans (visitors.pause_by _ _ w w' paused)
  | update_price _ _ _ _ _ _ _ surveyed _ _ => exact visitors.surveyed surveyed
  | set_safe_mode enabled w _ called =>
    cases enabled with
    | true => exact visitors.pause_by _ _ s.rest w called
    | false => exact visitors.unpause_by _ _ s.rest w called
  | configure => exact .refl _

end Visiting

section Transitions
variable {n : Neighbours O} {vault adaptor : Address} {s s' : Site O} {event : Event}

theorem callVault_ok {clients : Vault.Clients (Beside O)} {env : Env} {entry : Vault.Entry} :
    callVault clients env entry s = .ok (event, s') ↔ s'.calls = s.calls ++ [entry] ∧ ∃ published,
      event = .vault published ∧
        Vault.invoke clients.apart env entry ⟨s.vault,s.beside⟩ = .ok (published, ⟨s'.vault,s'.beside⟩) := by
  unfold callVault
  constructor
  · intro done
    split at done
    · rename_i published t called
      cases done
      exact ⟨rfl,published,rfl,called⟩
    · cases done
  · rintro ⟨record,published,rfl,called⟩
    rw [called]
    show _ = Except.ok (Event.vault published, s')
    rw [← record]
    rfl

theorem callOracle_ok {peers : Oracle.Peers (Yard O)} {env : Env} {entry : Oracle.Entry} :
    callOracle peers env entry s = .ok (event, s') ↔ ∃ published, event = .oracle published ∧
      Oracle.invoke peers env entry ⟨s.adaptor,s.yard⟩ = .ok (published, ⟨s'.adaptor,s'.yard⟩) := by
  unfold callOracle
  constructor
  · intro done
    split at done
    · rename_i published t called
      cases done
      exact ⟨published,rfl,called⟩
    · cases done
  · rintro ⟨published,rfl,called⟩
    rw [called]
    rfl

/-- What a transition does to the vault is done by calls, and the record has them. -/
theorem serves_of_makes (visitors : Visitors n.sources) {r : Turned O} (makes : Makes (serve n vault adaptor) r) :
    Visits r.before.state.yard r.after.state.yard := by
  rcases Delivery.cases makes with ⟨event,out,ran⟩ | ⟨e,out,same⟩
  · cases input : r.input.2 with
    | vault entry =>
      rw [input] at ran
      obtain ⟨record,published,_,called⟩ := callVault_ok.mp ran
      exact ⟨[entry],record,.call [] entry _ _ _ published _ _ _ _ _ (.nothing _) called⟩
    | oracle entry =>
      rw [input] at ran
      obtain ⟨published,_,called⟩ := callOracle_ok.mp ran
      rcases Oracle.invoke_cases called with ⟨a,a',_,_,effect⟩ | ⟨_,_,_,_,_,_,_,same⟩
      · exact (visitors.vaultAt vault).effect effect
      · have yard : r.after.state.yard = r.before.state.yard := congrArg World.rest same
        rw [yard]
        exact .refl _
    | outside move =>
      rw [input] at ran
      simp only [act,bind_ok,write_ok,pure_ok,exists_eq_left,Prod.mk.injEq] at ran
      rw [ran.2]
      exact .refl _
  · rw [same]
    exact .refl _

/-- What a run does to the vault is done by calls, and the record has them. -/
theorem serves_of_run (visitors : Visitors n.sources) (c : Chain (Site O)) (inputs : List (Origin × Action O)) :
    Visits c.state.yard (run (serve n vault adaptor) c inputs).state.yard := by
  apply run_invariant (serve n vault adaptor) (fun c' => Visits c.state.yard c'.state.yard) inputs (.refl _)
  intro r _ makes held
  exact held.trans (serves_of_makes visitors makes)

end Transitions

/-! ### Safe mode -/

/-- A call to update the price of an asset finds both sources fresh and too far
    apart, with the adaptor registered as the oracle of the vault and allowed to
    pause it. -/
structure Alarmed (n : Neighbours O) (vault adaptor : Address) (r : Turned O) (asset : Address) (left right : Int) :
    Prop where
  input : r.input.2 = .oracle (.update_price asset)
  seen : ∃ a v w, r.before.state.adaptor = some a ∧ a.vault_callback = vault ∧
    Sees (n.vaultAt vault) (r.env adaptor) ⟨a,r.before.state.yard⟩ asset left right w ∧
    Deviating a.deviation_threshold left right ∧ w.vault = some v ∧ v.oracle_address = adaptor ∧
    v.roles adaptor Vault.PAUSER_ROLE = true

/-- What is stored for an asset: its price and its average. -/
def entries (asset : Address) (s : Site O) :=
  s.adaptor.map (fun a => (a.cached_price asset,a.twap_state asset))

/-- The call returned, with the vault paused and nothing recorded for the asset. -/
structure Pauses (r : Turned O) (asset : Address) : Prop where
  returned : ∃ event, r.output = .ok event
  paused : ∃ v, r.after.state.vault = some v ∧ v.paused = true
  unchanged : entries asset r.after.state = entries asset r.before.state

/-- The call pauses the vault, and through whatever happens after it, as long as no
    call that ends a pause has returned, the vault is frozen. -/
def SafeModeHolds (n : Neighbours O) (vault adaptor : Address) (r : Turned O) (asset : Address) : Prop :=
  Pauses r asset ∧ ∀ (inputs : List (Origin × Action O)) (passed : List Vault.Entry),
    let c := run (serve n vault adaptor) r.after inputs
    c.state.calls = r.after.state.calls ++ passed → (∀ entry ∈ passed, entry.resumes = false) →
      ∃ v v', r.after.state.vault = some v ∧ c.state.vault = some v' ∧ Frozen v passed v'

section Pausing
variable {n : Neighbours O} {vault adaptor : Address} {r : Turned O} {asset : Address} {left right : Int}

/-- The adaptor can pause a vault that gave it the role. -/
theorem pause_called (n : Neighbours O) (vault : Address) {env : Env} {w : Yard O} {v : HelixVault}
    (own : w.vault = some v) (role : v.roles env.current_contract_address Vault.PAUSER_ROLE = true) :
    (n.vaultAt vault).pause_by (env.calling vault) env.current_contract_address w =
      some ((), ⟨some { v with paused := true },w.calls ++ [.pause_by env.current_contract_address],w.others⟩) := by
  have ran : Vault.call deaf.apart (env.calling vault) (.pause_by env.current_contract_address) ⟨v,w.others⟩ =
      .ok (some (.pause env.current_contract_address),⟨{ v with paused := true },w.others⟩) := by
    simp only [Vault.call,Vault.pause_by,bind_ok,Vault.require_pauser_auth_ok,save_ok,pure_ok]
    exact ⟨_,⟨.inl rfl,role,rfl⟩,_,rfl,rfl⟩
  simp only [Neighbours.vaultAt]
  rw [if_pos (show (env.calling vault).current_contract_address = vault from rfl),Yard.call,Vault.invoke_of_call own ran]

/-- An alarmed update whose prices can be compared pauses the vault. -/
theorem pauses_of_comparable (makes : Makes (serve n vault adaptor) r)
    (alarmed : Alarmed n vault adaptor r asset left right) (comparable : Comparable left right) : Pauses r asset := by
  obtain ⟨input,a,v,w,found,callback,sees,deviating,own,_,role⟩ := alarmed
  have paused : (n.vaultAt vault).pause_by ((r.env adaptor).calling vault) adaptor w = some ((), _) :=
    pause_called n vault own role
  have updated := Oracle.update_price_pauses sees deviating comparable (by rw [callback]; exact paused)
  have called : Oracle.call (n.vaultAt vault) (r.env adaptor) (.update_price asset) ⟨a,r.before.state.yard⟩ = _ :=
    updated
  have ran := Oracle.invoke_of_call (s := ⟨r.before.state.adaptor,r.before.state.yard⟩) found called
  have delivered : act n vault adaptor (r.env vault) r.input.2 r.before.state = .ok (.oracle (some (.safe_mode asset left
      right)),⟨some { v with paused := true },some a,w.calls ++ [.pause_by adaptor],w.others⟩) := by
    rw [input]
    exact callOracle_ok.mpr ⟨_,rfl,ran⟩
  obtain ⟨out,after⟩ := Delivery.returns makes delivered
  refine ⟨⟨_,out⟩,⟨_,congrArg Site.vault after,rfl⟩,?_⟩
  rw [after]
  simp only [entries,found,Option.map_some]

/-- An alarmed update that returns compares the prices. -/
theorem comparable_of_returned (makes : Makes (serve n vault adaptor) r)
    (alarmed : Alarmed n vault adaptor r asset left right) {event : Event} (out : r.output = .ok event) :
    Comparable left right := by
  obtain ⟨input,a,v,w,found,_,sees,deviating,_⟩ := alarmed
  have ran := Delivery.returned makes out
  rw [input] at ran
  obtain ⟨published,_,called⟩ := callOracle_ok.mp ran
  rcases Oracle.invoke_cases called with ⟨a',a'',found',_,effect⟩ | ⟨missing,_⟩
  · have same : a = a' := Option.some.inj (found.symm.trans found')
    subst same
    exact Oracle.update_price_compares sees deviating effect
  · rw [show r.before.state.adaptor = none from missing] at found
    cases found

/-- A vault that is paused after a transition stays frozen until it is unpaused. -/
theorem frozen_after (visitors : Visitors n.sources) {v : HelixVault} (own : r.after.state.vault = some v)
    (paused : v.paused = true) (inputs : List (Origin × Action O)) (passed : List Vault.Entry)
    (record : (run (serve n vault adaptor) r.after inputs).state.calls = r.after.state.calls ++ passed)
    (held : ∀ entry ∈ passed, entry.resumes = false) :
    ∃ v', (run (serve n vault adaptor) r.after inputs).state.vault = some v' ∧ Frozen v passed v' := by
  have visits : Visits r.after.state.yard (run (serve n vault adaptor) r.after inputs).state.yard :=
    serves_of_run visitors r.after inputs
  obtain ⟨later,record',served⟩ := visits
  have same : passed = later := List.append_cancel_left (record.symm.trans record')
  subst same
  exact served.frozen own paused held

end Pausing

/-- In every run of a vault and the oracle adaptor that is its oracle: an update that
    finds both sources fresh and too far apart pauses the vault and records nothing,
    and the vault then stays frozen until it is unpaused, exactly if the comparison
    of the two prices fits. -/
theorem safe_mode_iff (n : Neighbours O) (visitors : Visitors n.sources) (vault adaptor : Address) (clock : Clock) (o : O)
    (calls : List (Origin × Action O)) (origin : Origin) (asset : Address) (left right : Int) :
    let r : Turned O := transition (serve n vault adaptor) (run (serve n vault adaptor) (undeployed clock o) calls)
      (origin,.oracle (.update_price asset))
    Alarmed n vault adaptor r asset left right → (SafeModeHolds n vault adaptor r asset ↔ Comparable left right) := by
  intro r alarmed
  have makes : Makes (serve n vault adaptor) r := transition_makes _ _
  constructor
  · rintro ⟨⟨⟨event,out⟩,_,_⟩,_⟩
    exact comparable_of_returned makes alarmed out
  · intro comparable
    have pauses := pauses_of_comparable makes alarmed comparable
    refine ⟨pauses,?_⟩
    intro inputs passed c record held
    obtain ⟨v,own,paused⟩ := pauses.paused
    obtain ⟨v',left,frozen⟩ := frozen_after visitors own paused inputs passed record held
    exact ⟨v,v',own,left,frozen⟩

end Chain

/-! ### A small chain

One vault, one adaptor, and two sources of which the first quotes one for every
asset. -/

namespace Small
open Vault.Small (admin vault borrow_token config)

def adaptor : Address := Vault.Small.oracle
def primary_oracle : Address := .contract (BytesN.fill 32 10)
def secondary_oracle : Address := .contract (BytesN.fill 32 11)
def asset : Address := Vault.Small.tokenA

/-- Sources that answer the adaptor and do nothing else. -/
def sources {W : Type} (price : Int) : Oracle.Peers W where
  decimals _ _ w := (some 7, w)
  lastprice env _ w :=
    (some (if env.current_contract_address = primary_oracle then 10000000 else price, env.timestamp), w)
  pause_by _ _ _ := none
  unpause_by _ _ _ := none

/-- The neighbours of the two where the second source quotes a price. -/
def neighbours (price : Int) : Neighbours Unit := ⟨deaf,sources price,sources price⟩

theorem visitors (price : Int) : Visitors (neighbours price).sources where
  decimals _ _ w := .refl w
  lastprice _ _ w := .refl w
  pause_by _ _ _ _ called := by cases called
  unpause_by _ _ _ _ called := by cases called

def opening : List (Origin × Action Unit) :=
  [(.signedBy admin,.vault (.initialise admin adaptor borrow_token config)),
    (.signedBy admin,.oracle (.initialise admin primary_oracle secondary_oracle vault))]

/-- The price is updated when the second source quotes a price. -/
def updating (price : Int) : Turned Unit :=
  transition (serve (neighbours price) vault adaptor)
    (run (serve (neighbours price) vault adaptor) (undeployed ⟨0,0⟩ ()) opening)
    (.signedBy admin,.oracle (.update_price asset))

theorem updating_alarmed {price : Int} (positive : 0 < price) (fits : Fits price)
    (deviating : Deviating Oracle.DEFAULT_DEVIATION_THRESHOLD 10000000 price) :
    Alarmed (neighbours price) vault adaptor (updating price) asset 10000000 price := by
  refine ⟨rfl,Oracle.fresh admin primary_oracle secondary_oracle vault,Vault.fresh admin adaptor borrow_token config,
    (updating price).before.state.yard,rfl,rfl,?_,deviating,rfl,rfl,rfl⟩
  let yard := (updating price).before.state.yard
  refine ⟨7,7,7,(10000000, 15),(price, 15),yard,yard,.primary 7 _ _ rfl,?_,?_,?_,?_⟩
  · exact ⟨⟨_,rfl,rfl⟩,by decide,by decide,Nat.le_of_ble_eq_true rfl⟩
  · exact ⟨⟨_,rfl,rfl⟩,positive,fits,Nat.le_of_ble_eq_true rfl⟩
  · simp [Oracle.exactly]
  · simp [Oracle.exactly]

end Small

/-- A second source that quotes two instead of one has the vault paused. -/
theorem safe_mode_entered :
    SafeModeHolds (Small.neighbours 20000000) Vault.Small.vault Small.adaptor (Small.updating 20000000) Small.asset :=
  (safe_mode_iff (Small.neighbours 20000000) (Small.visitors _) Vault.Small.vault Small.adaptor ⟨0,0⟩ () Small.opening
    (.signedBy Vault.Small.admin) Small.asset 10000000 20000000
    (Small.updating_alarmed (by decide) (by decide) (by decide))).mpr (by decide)

/-- One that quotes more than 128 bits allow to compare does not: the update fails
    and the vault goes on with the price it has. -/
theorem safe_mode_missed :
    Alarmed (Small.neighbours (10 ^ 35)) Vault.Small.vault Small.adaptor (Small.updating (10 ^ 35)) Small.asset 10000000
        (10 ^ 35) ∧
      ¬ SafeModeHolds (Small.neighbours (10 ^ 35)) Vault.Small.vault Small.adaptor (Small.updating (10 ^ 35))
        Small.asset := by
  have alarmed : Alarmed (Small.neighbours (10 ^ 35)) Vault.Small.vault Small.adaptor (Small.updating (10 ^ 35))
      Small.asset 10000000 (10 ^ 35) := Small.updating_alarmed (by decide) (by decide) (by decide)
  refine ⟨alarmed,?_⟩
  rintro ⟨⟨⟨event,out⟩,_,_⟩,_⟩
  have comparable := comparable_of_returned (transition_makes _ _) alarmed out
  revert comparable
  decide

end SafeMode
end Helix
