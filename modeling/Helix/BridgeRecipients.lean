import Helix.BridgeSystem

/-!
Whom a deposit reaches. A deposit for a key goes to the address registered last
for it. Registering asks for the registrant's own signature and for nothing
else, so a registration binds a key to its user only until anybody registers the
same key again (`deposit_reaches_registrant`, `registration_displaced`).
-/
namespace Helix.Bridge
open Invoke
open Token (HelixToken)

section Recipients
variable {O : Type} (prim : Primitives) (axelar : Axelar O) (handler : Address)

/-- A user was registered for a key. -/
def Registers (r : Turned O) (user : Address) (key : BytesN 32) : Prop :=
  r.input.2 = .handler (.register_recipient user key) ∧ ∃ event, r.output = .ok event

/-- A deposit for a key was executed. -/
def ExecutesDeposit (r : Turned O) (key : BytesN 32) (shares : Int) : Prop :=
  ∃ source_chain message_id source_address payload event,
    r.input.2 = .handler (.execute source_chain message_id source_address payload) ∧ r.output = .ok event ∧
      Deposit prim payload key shares

/-- The one thing the handler called was the token, which minted to a user. -/
def MintsTo (r : Turned O) (user : Address) (shares : Int) : Prop :=
  ∃ t : HelixToken, r.after.state.rest.outgoing = r.before.state.rest.outgoing ++
    [.token (.bridge_mint user shares) (some t) (some (t.minted user shares))]

/-- From a registration on, as long as nobody that `displaces` the user registers
    the key, every deposit for the key is minted to the user. -/
def BindsRecipient (start : Chain (State O)) (displaces : Address → Address → Prop) : Prop :=
  ∀ (earlier between : List (Origin × Action O)) (first last : Origin × Action O) (user : Address) (key : BytesN 32)
    (shares : Int),
    let registration := transition (serve prim axelar handler) (run (serve prim axelar handler) start earlier) first
    let deposit := transition (serve prim axelar handler) (run (serve prim axelar handler) registration.after between) last
    Registers registration user key →
    (∀ r ∈ trace (serve prim axelar handler) registration.after between, ∀ other, displaces user other →
      ¬ Registers r other key) →
    ExecutesDeposit prim deposit key shares → MintsTo deposit user shares

variable {prim axelar handler}

theorem registers_mapping {r : Turned O} {user : Address} {key : BytesN 32}
    (makes : Makes (serve prim axelar handler) r) (registers : Registers r user key) :
    r.after.state.own.recipient_mapping key = some user := by
  obtain ⟨input,event,out⟩ := registers
  rcases turned_cases makes with ⟨entry,event,asked,_,turn⟩ | ⟨_,asked,_⟩ | ⟨_,failed,_⟩
  · rw [input] at asked
    cases asked
    cases turn with
    | register user evm_address authorised own rest =>
      rw [own]
      simp [BridgeHandler.write_recipient_mapping]
    | configured entry event authorised own rest => exact absurd rfl (own.not_register user key)
  · rw [input] at asked
    cases asked
  · rw [out] at failed
    cases failed

/-- Only a registration of a key changes where the key leads. -/
theorem mapping_kept {r : Turned O} {key : BytesN 32} (makes : Makes (serve prim axelar handler) r)
    (undisturbed : ∀ other, ¬ Registers r other key) :
    r.after.state.own.recipient_mapping key = r.before.state.own.recipient_mapping key := by
  rcases turned_cases makes with ⟨entry,event,input,out,turn⟩ | ⟨_,_,_,own,_⟩ | ⟨_,_,same⟩
  · cases turn with
    | deposit chain id address payload stellarRecipient shares recipient w t accepted asked resolved own =>
      rw [own,BridgeHandler.deposited_recipients]
    | yield_update chain id address payload assets w t accepted asked own =>
      rw [own]
      rfl
    | withdrawal user shares eth_recipient value payload t allowed converted encoded own =>
      rw [own,BridgeHandler.withdrawn_recipients]
    | register user evm_address authorised own rest =>
      have different : key ≠ evm_address := fun same => undisturbed user ⟨by rw [input,same],_,out⟩
      rw [own]
      simp [BridgeHandler.write_recipient_mapping,different]
    | configured entry event authorised own rest => rw [own.recipients]
  · rw [own]
  · rw [same]

/-- A deposit for a key that leads to a user is minted to that user. -/
theorem deposit_mints {r : Turned O} {user : Address} {key : BytesN 32} {shares : Int}
    (makes : Makes (serve prim axelar handler) r)
    (registered : r.before.state.own.recipient_mapping key = some user)
    (executes : ExecutesDeposit prim r key shares) : MintsTo r user shares := by
  obtain ⟨chain,id,address,payload,event,input,out,wanted⟩ := executes
  rcases turned_cases makes with ⟨entry,event,asked,_,turn⟩ | ⟨_,asked,_⟩ | ⟨_,failed,_⟩
  · rw [input] at asked
    cases asked
    cases turn with
    | deposit _ _ _ _ stellarRecipient shares' recipient w t accepted asked resolved own found token outgoing =>
      obtain ⟨message,decoded,names,converted⟩ := wanted.decoded
      obtain ⟨message',decoded',names',converted'⟩ := asked.decoded
      rw [decoded] at decoded'
      cases decoded'
      have key_same : stellarRecipient = key := names'.symm.trans names
      have shares_same : shares' = shares := by
        rw [converted] at converted'
        exact (Option.some.inj converted').symm
      have recipient_same : recipient = user := by
        rw [BridgeHandler.recipientOf,BridgeHandler.read_recipient_mapping,key_same,registered] at resolved
        exact (Option.some.inj resolved).symm
      rw [shares_same,recipient_same] at outgoing
      exact ⟨t,outgoing⟩
    | yield_update _ _ _ _ assets w t accepted asked =>
      exact absurd asked.kind (by rw [wanted.kind]; decide)
    | configured entry event authorised own => exact absurd rfl (own.not_execute chain id address payload)
  · rw [input] at asked
    cases asked
  · rw [out] at failed
    cases failed

/-- Once a user is registered for a key, and as long as nobody registers the key
    again, every deposit for the key that is executed is minted to that user. -/
theorem deposit_reaches_registrant (start : Chain (State O)) :
    BindsRecipient prim axelar handler start (fun _ _ => True) := by
  intro earlier between first last user key shares registration deposit registers undisturbed executes
  have kept : (run (serve prim axelar handler) registration.after between).state.own.recipient_mapping key =
      some user := by
    apply run_invariant (serve prim axelar handler)
      (fun c : Chain (State O) => c.state.own.recipient_mapping key = some user)
    · exact registers_mapping (transition_makes _ first) registers
    · intro r member makes held
      rw [mapping_kept makes (fun other => undisturbed r member other trivial)]
      exact held
  exact deposit_mints (transition_makes _ last) kept executes

end Recipients

/-- The deposit for a key goes to the user who registered it. -/
theorem deposit_reaches_registrant_small :
    let registration := transition Small.step (run Small.step Small.start []) (Small.registers Small.userB)
    MintsTo (transition Small.step (run Small.step registration.after [])
      (Small.executes "m1" (depositPayload Small.key 10 0))) Small.userB 10 :=
  deposit_reaches_registrant Small.start [] [] (Small.registers Small.userB)
    (Small.executes "m1" (depositPayload Small.key 10 0)) Small.userB Small.key 10 ⟨rfl,_,rfl⟩ (by simp [trace])
    ⟨"ethereum","m1","0xHelixVault",depositPayload Small.key 10 0,
      some (.deposit_processed Small.userB 10 "m1" (Small.primitives.keccak256 (depositPayload Small.key 10 0))),rfl,
      by decide +kernel,by decide +kernel,
      ⟨MESSAGE_TYPE_DEPOSIT,Small.key,10,0⟩,by decide +kernel,rfl,by decide +kernel⟩

/-- Whom a call of the handler minted to. -/
def Outgoing.mintedTo : Outgoing → Option Address
  | .token (.bridge_mint recipient _) _ _ => some recipient
  | _ => none

theorem MintsTo.last {O : Type} {r : Turned O} {user : Address} {shares : Int} (mints : MintsTo r user shares) :
    (called r.after).getLast?.bind Outgoing.mintedTo = some user := by
  obtain ⟨t,outgoing⟩ := mints
  rw [called,outgoing,List.getLast?_concat]
  rfl

/-- A user's own registrations are not the only ones that displace it: another
    user registers the same key, and the deposit is minted to that one. -/
theorem registration_displaced :
    ¬ BindsRecipient Small.primitives Small.axelar Small.handler Small.start (fun user other => other = user) := by
  intro binds
  have mints := binds [] [Small.registers Small.userA] (Small.registers Small.userB)
    (Small.executes "m1" (depositPayload Small.key 10 0)) Small.userB Small.key 10 ⟨rfl,_,rfl⟩
    (by
      intro r member other own registers
      rw [trace,trace,List.mem_singleton] at member
      subst member own
      have same := registers.1
      simp only [transition,Small.registers,Action.handler.injEq,Entry.register_recipient.injEq,and_true] at same
      exact absurd same (by decide))
    ⟨"ethereum","m1","0xHelixVault",depositPayload Small.key 10 0,
      some (.deposit_processed Small.userA 10 "m1" (Small.primitives.keccak256 (depositPayload Small.key 10 0))),rfl,
      by decide +kernel,by decide +kernel,
      ⟨MESSAGE_TYPE_DEPOSIT,Small.key,10,0⟩,by decide +kernel,rfl,by decide +kernel⟩
  have minted := mints.last
  revert minted
  decide +kernel

end Helix.Bridge
