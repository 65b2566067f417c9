import Helix.SafeMode
import Helix.OracleQuotes

/-!
When one source of the adaptor fails. As long as one usable quote can be scaled to
the common decimals, an update goes on with it alone if the other source has none:
it then records a price. A second usable quote blocks the update exactly if the
two cannot be blended in 128 bits (`failover_iff`).
-/
namespace Helix.SafeMode
open Invoke
open Vault (HelixVault VaultError)
open Oracle (HelixOracleAdaptor OracleError OracleEvent PriceData TWAPData Quote Hears Backed Blendable Typed Agreed)

section Failover
variable {O : Type}

/-- An update of the price of an asset returned: it recorded a price, or left the
    vault in safe mode. -/
inductive Updates (adaptor asset : Address) (r : Turned O) : Prop
  | records (a : HelixOracleAdaptor) (price : PriceData) (state : TWAPData) : r.before.state.adaptor = some a →
      r.output = .ok (.oracle
        (some (.price_update asset price.price price.timestamp price.source state.num_samples))) →
      r.after.state.adaptor = some (a.recorded (r.env adaptor) asset price state) → Updates adaptor asset r
  | pauses (left right : Int) (v : HelixVault) : r.output = .ok (.oracle (some (.safe_mode asset left right))) →
      r.after.state.vault = some v → v.paused = true → Updates adaptor asset r

variable {n : Neighbours O} {vault adaptor asset : Address} {r : Turned O} {a : HelixOracleAdaptor}

theorem Updates.returned (updates : Updates adaptor asset r) : ∃ event, r.output = .ok event := by
  cases updates with
  | records _ _ _ _ out _ => exact ⟨_,out⟩
  | pauses _ _ _ out _ _ => exact ⟨_,out⟩

/-- The update of a transition that returned. -/
theorem update_of_returned (makes : Makes (serve n vault adaptor) r) (input : r.input.2 = .oracle (.update_price asset))
    (found : r.before.state.adaptor = some a) {event : Event} (out : r.output = .ok event) :
    ∃ published t, event = .oracle published ∧ r.after.state.adaptor = some t.own ∧ r.after.state.yard = t.rest ∧
      Oracle.update_price (n.vaultAt vault) (r.env adaptor) asset ⟨a,r.before.state.yard⟩ = .ok (published, t) := by
  have ran := Delivery.returned makes out
  rw [input] at ran
  obtain ⟨published,rfl,called⟩ := callOracle_ok.mp ran
  obtain ⟨t,updated,after⟩ := Oracle.call_of_invoke found called
  exact ⟨published,t,rfl,congrArg World.own after,congrArg World.rest after,updated⟩

/-- A transition whose update returns. -/
theorem returned_of_update (makes : Makes (serve n vault adaptor) r) (input : r.input.2 = .oracle (.update_price asset))
    (found : r.before.state.adaptor = some a) {published : Option OracleEvent} {t : World HelixOracleAdaptor (Yard O)}
    (updated : Oracle.update_price (n.vaultAt vault) (r.env adaptor) asset ⟨a,r.before.state.yard⟩ = .ok (published, t)) :
    r.output = .ok (.oracle published) := by
  have called : Oracle.call (n.vaultAt vault) (r.env adaptor) (.update_price asset) ⟨a,r.before.state.yard⟩ = _ := updated
  have ran := Oracle.invoke_of_call (s := ⟨r.before.state.adaptor,r.before.state.yard⟩) found called
  have delivered : act n vault adaptor (r.env vault) r.input.2 r.before.state =
      .ok (.oracle published,⟨t.rest.vault,some t.own,t.rest.calls,t.rest.others⟩) := by
    rw [input]
    exact callOracle_ok.mpr ⟨published,rfl,ran⟩
  exact (Delivery.returns makes delivered).1

/-- An update that returns records a price, or has the vault paused if it is asked. -/
theorem updates_of_returned (makes : Makes (serve n vault adaptor) r)
    (input : r.input.2 = .oracle (.update_price asset)) (found : r.before.state.adaptor = some a)
    (callback : a.vault_callback = vault) {target : Nat} {first second : Option Quote} {w : Yard O} {v : HelixVault}
    (typed : Typed (n.vaultAt vault))
    (hears : Hears (n.vaultAt vault) (r.env adaptor) ⟨a,r.before.state.yard⟩ asset target first second w)
    (own : w.vault = some v) (role : v.roles adaptor Vault.PAUSER_ROLE = true) {event : Event}
    (out : r.output = .ok event) : Updates adaptor asset r := by
  obtain ⟨published,t,rfl,after,yard,updated⟩ := update_of_returned makes input found out
  obtain ⟨_,_,settled⟩ := (Oracle.update_price_hears typed hears).mp updated
  rcases Oracle.settle_price_cases settled with ⟨price,state,_,_,same⟩ | ⟨left,right,w',_,_,_,paused,same⟩
  · cases same
    exact .records a price state found out after
  · cases same
    subst callback
    have called := pause_called n a.vault_callback own
      (show v.roles (r.env adaptor).current_contract_address Vault.PAUSER_ROLE = true from role)
    have left' := called.symm.trans paused
    cases left'
    exact .pauses left.price right.price { v with paused := true } out (congrArg Yard.vault yard) rfl

end Failover

/-- Every update, in any state of the adaptor whose average has room for the price,
    that hears a usable quote it can scale, with the vault granting the adaptor the
    pauser role: it records a price or puts the vault into safe mode, exactly if it
    hears no second usable quote or can blend the two. -/
theorem failover_iff {O : Type} (n : Neighbours O) (typed : Typed n.sources) (vault adaptor : Address)
    (c : Chain (Site O)) (origin : Origin) (asset : Address) (a : HelixOracleAdaptor) (target : Nat)
    (first second : Option Quote) (w : Yard O) (v : HelixVault) :
    let r : Turned O := transition (serve n vault adaptor) c (origin,.oracle (.update_price asset))
    c.state.adaptor = some a → a.vault_callback = vault →
    Hears (n.vaultAt vault) (r.env adaptor) ⟨a,c.state.yard⟩ asset target first second w → Backed target first second →
    (∀ price, Agreed a.deviation_threshold (first.map (fun q => q.taken target .primary))
      (second.map (fun q => q.taken target .secondary)) price → a.Room (r.env adaptor) asset price.price) →
    w.vault = some v → v.roles adaptor Vault.PAUSER_ROLE = true →
    (Updates adaptor asset r ↔ ∀ q q', first = some q → second = some q' →
      Blendable a.deviation_threshold (q.scaled target) (q'.scaled target)) := by
  intro r found callback hears backed room own role
  have makes : Makes (serve n vault adaptor) r := transition_makes _ _
  have paused := pause_called n vault own (show v.roles (r.env adaptor).current_contract_address _ = true from role)
  have typed' : Typed (n.vaultAt vault) := typed
  have returns := Oracle.update_price_returns_iff typed' hears backed room
    (by rw [show (⟨a,c.state.yard⟩ : World HelixOracleAdaptor (Yard O)).own.vault_callback = vault from callback]
        exact paused)
  rw [← returns]
  constructor
  · intro updates
    obtain ⟨event,out⟩ := updates.returned
    obtain ⟨published,t,_,_,_,updated⟩ := update_of_returned makes rfl found out
    exact ⟨_,updated⟩
  · rintro ⟨⟨published,t⟩,updated⟩
    have out := returned_of_update makes rfl found updated
    exact updates_of_returned makes rfl found callback typed' hears own role out

namespace Small
open Vault.Small (admin vault borrow_token config)

/-- Sources of which the first quotes one in 7 decimals, and the second some price in
    some decimals. -/
def quoting {W : Type} (decimals : Nat) (price : Int) : Oracle.Peers W where
  decimals env _ w := (some (if env.current_contract_address = primary_oracle then 7 else decimals), w)
  lastprice env _ w :=
    (some (if env.current_contract_address = primary_oracle then 10000000 else price, env.timestamp), w)
  pause_by _ _ _ := none
  unpause_by _ _ _ := none

def beside (decimals : Nat) (price : Int) : Neighbours Unit := ⟨deaf,quoting decimals price,quoting decimals price⟩

theorem quoting_typed {W : Type} (decimals : Nat) {price : Int} (fits : Fits price) :
    Typed (quoting decimals price : Oracle.Peers W) := by
  intro env asset w raw w' told
  simp only [quoting,Prod.mk.injEq,Option.some.injEq] at told
  rw [← told.1]
  dsimp only
  split
  · decide
  · exact fits

/-- The chain when both contracts are initialized. -/
def opened (decimals : Nat) (price : Int) : Chain (Site Unit) :=
  run (serve (beside decimals price) vault adaptor) (undeployed ⟨0,0⟩ ()) opening

/-- The price is updated next. -/
def quoted (decimals : Nat) (price : Int) : Turned Unit :=
  transition (serve (beside decimals price) vault adaptor) (opened decimals price)
    (.signedBy admin,.oracle (.update_price asset))

theorem quoted_hears (decimals : Nat) {price : Int} (positive : 0 < price) :
    Hears ((beside decimals price).vaultAt vault) ((quoted decimals price).env adaptor)
      ⟨Oracle.fresh admin primary_oracle secondary_oracle vault,(opened decimals price).state.yard⟩ asset 7
      (some ⟨7,10000000,15⟩) (some ⟨decimals,price,15⟩) (opened decimals price).state.yard := by
  refine ⟨(opened decimals price).state.yard,(opened decimals price).state.yard,.primary 7 _ _ rfl,rfl,?_⟩
  have usable : Oracle.Quote.Usable ⟨decimals,price,15⟩ ((quoted decimals price).env adaptor)
      Oracle.DEFAULT_STALENESS_THRESHOLD := ⟨positive,Nat.le_of_ble_eq_true rfl⟩
  exact Prod.ext (if_pos (decide_eq_true usable)) rfl

end Small

/-- Next to a source that quotes one, another that quotes one per cent more. -/
theorem failover_blended : Updates Small.adaptor Small.asset (Small.quoted 7 10100000) := by
  have hears := Small.quoted_hears 7 (show (0 : Int) < 10100000 by decide)
  refine (failover_iff (Small.beside 7 10100000) (Small.quoting_typed 7 (by decide)) Vault.Small.vault Small.adaptor
    (Small.opened 7 10100000) (.signedBy Vault.Small.admin) Small.asset _ 7 _ _ _
    (Vault.fresh Vault.Small.admin Small.adaptor Vault.Small.borrow_token Vault.Small.config) rfl rfl hears
    ⟨⟨7,10000000,15⟩,.inl rfl,by decide⟩ (fun _ _ => .inl rfl) rfl rfl).mpr ?_
  intro q q' same same'
  cases same
  cases same'
  decide

/-- Next to a source that quotes one, another that quotes a price without decimals
    that has more than 128 bits in seven: the update fails, though the average is
    empty and the vault would let the adaptor pause it. -/
theorem failover_blocked :
    let a := Oracle.fresh Vault.Small.admin Small.primary_oracle Small.secondary_oracle Vault.Small.vault
    let yard := (Small.opened 0 (10 ^ 35)).state.yard
    Hears ((Small.beside 0 (10 ^ 35)).vaultAt Vault.Small.vault) ((Small.quoted 0 (10 ^ 35)).env Small.adaptor)
        ⟨a,yard⟩ Small.asset 7 (some ⟨7,10000000,15⟩) (some ⟨0,10 ^ 35,15⟩) yard ∧
      Backed 7 (some ⟨7,10000000,15⟩) (some ⟨0,10 ^ 35,15⟩) ∧
      (∀ price, a.Room ((Small.quoted 0 (10 ^ 35)).env Small.adaptor) Small.asset price) ∧
      yard.vault.map (fun v => v.roles Small.adaptor Vault.PAUSER_ROLE) = some true ∧
      ¬ Updates Small.adaptor Small.asset (Small.quoted 0 (10 ^ 35)) := by
  have typed : Typed ((Small.beside 0 (10 ^ 35)).vaultAt Vault.Small.vault) := Small.quoting_typed 0 (by decide)
  have hears := Small.quoted_hears 0 (show (0 : Int) < 10 ^ 35 by decide)
  refine ⟨hears,⟨⟨7,10000000,15⟩,.inl rfl,by decide⟩,fun _ => .inl rfl,rfl,?_⟩
  intro updates
  obtain ⟨event,out⟩ := updates.returned
  obtain ⟨published,t,_,_,_,updated⟩ := update_of_returned (transition_makes _ _) rfl rfl out
  obtain ⟨_,large,_⟩ := (Oracle.update_price_hears typed hears).mp updated
  exact absurd (large _ rfl) (by decide)

end Helix.SafeMode
