import Helix.BridgeFlow
import Helix.Register

/-!
Which calls the handler takes, told from its history alone. Admin, pause, limits and
source are what the calls that returned wrote last (`told`), a payload is new when
none of its hash was executed, and an epoch has minted and burned what the calls
under its index did (`Recorded`). A call returns exactly if that admits it and the
gateway, the gas service and the token do their part (`calls_admitted`).
-/
namespace Helix.Bridge
open Invoke
open Token (HelixToken)

/-! ### What the calls write -/

namespace Entry

def appoints : Entry → Option Address
  | .set_admin new_admin => some new_admin
  | _ => none

def switches : Entry → Option Bool
  | .pause => some true
  | .unpause => some false
  | _ => none

def enables : Entry → Option Bool
  | .set_withdrawals_enabled enabled => some enabled
  | _ => none

/-- Caps and epoch duration are given. -/
def limits : Entry → Option (Int × Int × Nat)
  | .set_rate_limits max_mint max_burn epoch_duration => some (max_mint, max_burn, epoch_duration)
  | _ => none

def redirects : Entry → Option (String × String)
  | .set_source_config source_chain source_address => some (source_chain, source_address)
  | _ => none

/-- A recipient is registered for a key. -/
def registers (key : BytesN 32) : Entry → Option (Option Address)
  | .register_recipient user evm_address => if key = evm_address then some (some user) else none
  | _ => none

end Entry

/-- Some calls write a field of the handler, and all others keep it. -/
structure Register {β : Type} (look : BridgeHandler → β) (writes : Entry → Option β) : Prop where
  moved : ∀ (O : Type) (prim : Primitives) (axelar : Axelar O) (env : Env) (s s' : State O) entry event,
    Turn prim axelar env s s' entry event → look s'.own = (writes entry).getD (look s.own)

/-- What the admin configures is a register, if the other calls neither write nor
    move it. -/
theorem Register.of_configured {β : Type} {look : BridgeHandler → β} {writes : Entry → Option β}
    (configured : ∀ h h' entry event, Configured h entry event h' → look h' = (writes entry).getD (look h))
    (deposited : ∀ h env hash shares, look (h.deposited env hash shares) = look h)
    (withdrawn : ∀ h env shares, look (h.withdrawn env shares) = look h)
    (processed : ∀ h hash, look (h.write_processed_message hash) = look h)
    (registered : ∀ h key user, look (h.write_recipient_mapping key user) = (writes (.register_recipient user key)).getD (look h))
    (silent : ∀ chain id address payload, writes (.execute chain id address payload) = none)
    (silent' : ∀ user shares recipient, writes (.initiate_withdrawal user shares recipient) = none) :
    Register look writes where
  moved O prim axelar env s s' entry event turn := by
    cases turn with
    | deposit chain id address payload key shares recipient w t accepted asked resolved own =>
      rw [own,deposited,silent]
      rfl
    | yield_update chain id address payload assets w t accepted asked own =>
      rw [own,processed,silent]
      rfl
    | withdrawal user shares recipient value payload t allowed converted encoded own =>
      rw [own,withdrawn,silent']
      rfl
    | register user key authorised own => rw [own,registered]
    | configured entry event authorised own => exact configured _ _ _ _ own

theorem admin_register : Register (fun h => h.admin) Entry.appoints :=
  .of_configured (fun _ _ _ _ changed => by cases changed <;> rfl) (fun _ _ _ _ => rfl) (fun _ _ _ => rfl) (fun _ _ => rfl)
    (fun _ _ _ => rfl) (fun _ _ _ _ => rfl) (fun _ _ _ => rfl)

theorem paused_register : Register (fun h => h.paused) Entry.switches :=
  .of_configured (fun _ _ _ _ changed => by cases changed <;> rfl) (fun _ _ _ _ => rfl) (fun _ _ _ => rfl) (fun _ _ => rfl)
    (fun _ _ _ => rfl) (fun _ _ _ _ => rfl) (fun _ _ _ => rfl)

theorem enabled_register : Register (fun h => h.withdrawals_enabled) Entry.enables :=
  .of_configured (fun _ _ _ _ changed => by cases changed <;> rfl) (fun _ _ _ _ => rfl) (fun _ _ _ => rfl) (fun _ _ => rfl)
    (fun _ _ _ => rfl) (fun _ _ _ _ => rfl) (fun _ _ _ => rfl)

theorem limits_register :
    Register (fun h => (h.max_mint_per_epoch, h.max_burn_per_epoch, h.epoch_duration)) Entry.limits :=
  .of_configured (fun _ _ _ _ changed => by cases changed <;> rfl) (fun _ _ _ _ => rfl) (fun _ _ _ => rfl) (fun _ _ => rfl)
    (fun _ _ _ => rfl) (fun _ _ _ _ => rfl) (fun _ _ _ => rfl)

theorem source_register : Register (fun h => (h.source_chain, h.source_address)) Entry.redirects :=
  .of_configured (fun _ _ _ _ changed => by cases changed <;> rfl) (fun _ _ _ _ => rfl) (fun _ _ _ => rfl) (fun _ _ => rfl)
    (fun _ _ _ => rfl) (fun _ _ _ _ => rfl) (fun _ _ _ => rfl)

theorem recipient_register (key : BytesN 32) :
    Register (fun h => h.read_recipient_mapping key) (Entry.registers key) :=
  .of_configured (fun _ _ _ _ changed => by cases changed <;> rfl) (fun _ _ _ _ => rfl) (fun _ _ _ => rfl) (fun _ _ => rfl)
    (fun h other user => by
      by_cases same : key = other <;>
        simp [Entry.registers,BridgeHandler.read_recipient_mapping,BridgeHandler.write_recipient_mapping,same])
    (fun _ _ _ _ => rfl) (fun _ _ _ => rfl)

/-- The founding addresses are never written. -/
theorem founding_register : Register (fun h => (h.gateway, h.gas_service, h.token_contract)) (fun _ => none) :=
  .of_configured (fun _ _ _ _ changed => by cases changed <;> rfl) (fun _ _ _ _ => rfl) (fun _ _ _ => rfl) (fun _ _ => rfl)
    (fun _ _ _ => rfl) (fun _ _ _ _ => rfl) (fun _ _ _ => rfl)

/-! ### What an effect says, the call does -/

section Calls
variable {W : Type} {prim : Primitives} {peers : Peers W} {env : Env} {s s' : World BridgeHandler W} {entry : Entry}
  {event : Option BridgeEvent}

section Executions
variable {source_chain message_id source_address : String} {payload : Bytes} {w w' : W}
  (accepted : Accepts prim peers env s source_chain message_id source_address payload w)
include accepted

/-- An accepted deposit with room, a recipient and a token that mints is executed. -/
theorem deposit_returns {key : BytesN 32} {shares : Int} {recipient : Address} (asked : Deposit prim payload key shares)
    (within : s.own.Within shares (s.own.read_epoch_mints (s.own.epoch env)) s.own.max_mint_per_epoch)
    (resolved : s.own.recipientOf prim key = some recipient)
    (minted : peers.bridge_mint (env.calling s.own.token_contract) recipient shares w = some ((), w')) :
    execute prim peers env source_chain message_id source_address payload s =
      .ok (some (.deposit_processed recipient shares message_id (prim.keccak256 payload)),
        ⟨s.own.deposited env (prim.keccak256 payload) shares,w'⟩) := by
  obtain ⟨kind,message,decoded,rfl,converted⟩ := asked
  have processed : process_deposit prim peers env message_id payload (prim.keccak256 payload) { s with rest := w } =
      .ok (some (.deposit_processed recipient shares message_id (prim.keccak256 payload)),
        ⟨s.own.deposited env (prim.keccak256 payload) shares,w'⟩) := by
    simp only [process_deposit,decode_deposit_message,require_not_paused,require_message_not_processed,checked_add,
      bind_ok,load_ok,require_ok,need_ok,callOut_ok,save_ok,pure_ok,current_epoch_ok,resolve_recipient_ok,
      Checked.add_some,Prod.exists,and_assoc,exists_and_left,exists_eq_left]
    exact ⟨message,decoded,accepted.unpaused,accepted.unprocessed,shares,converted,within.epochs,within.fits,within.capped,
      recipient,resolved,(),_,⟨w',minted,rfl⟩,rfl⟩
  simp only [execute,bind_ok,load_ok,require_ok,callOut_ok,need_ok,Prod.exists,and_assoc,exists_and_left,exists_eq_left]
  exact ⟨accepted.chain,accepted.address,true,_,⟨w,accepted.approved,rfl⟩,rfl,_,kind,processed⟩

/-- An accepted update is executed by a token that takes it. -/
theorem yield_update_returns {new_total_assets : Int} (asked : YieldUpdate prim payload new_total_assets)
    (updated : peers.update_exchange_rate (env.calling s.own.token_contract) new_total_assets w = some ((), w')) :
    execute prim peers env source_chain message_id source_address payload s =
      .ok (some (.yield_updated new_total_assets message_id (prim.keccak256 payload)),
        ⟨s.own.write_processed_message (prim.keccak256 payload),w'⟩) := by
  obtain ⟨kind,message,decoded,converted⟩ := asked
  have processed : process_yield_update prim peers env message_id payload (prim.keccak256 payload) { s with rest := w } =
      .ok (some (.yield_updated new_total_assets message_id (prim.keccak256 payload)),
        ⟨s.own.write_processed_message (prim.keccak256 payload),w'⟩) := by
    simp only [process_yield_update,decode_yield_update_message,require_not_paused,require_message_not_processed,bind_ok,
      load_ok,require_ok,need_ok,callOut_ok,save_ok,pure_ok,Prod.exists,and_assoc,exists_and_left,exists_eq_left]
    exact ⟨message,decoded,accepted.unpaused,accepted.unprocessed,_,converted,(),_,⟨w',updated,rfl⟩,rfl⟩
  simp only [execute,bind_ok,load_ok,require_ok,callOut_ok,need_ok,Prod.exists,and_assoc,exists_and_left,exists_eq_left]
  exact ⟨accepted.chain,accepted.address,true,_,⟨w,accepted.approved,rfl⟩,rfl,_,kind,processed⟩

end Executions

/-- A withdrawal that is let out and sent returns. -/
theorem withdrawal_returns {user : Address} {shares : Int} {eth_recipient : BytesN 32} {value : U256} {payload : Bytes} {w : W}
    (allowed : Withdraws env s user shares) (converted : i128_to_u256 shares = some value)
    (encoded : payload = prim.codec.encode_withdraw (withdrawMessage env s.own eth_recipient value))
    (sent : Sends prim peers env s user shares payload w) :
    initiate_withdrawal prim peers env user shares eth_recipient s =
      .ok (some (.withdrawal_initiated user shares eth_recipient (prim.keccak256 payload)),⟨s.own.withdrawn env shares,w⟩) := by
  obtain ⟨gas_token,burned,paid,found,burn,pay,handed⟩ := sent.steps
  subst encoded
  simp only [initiate_withdrawal,require_not_paused,require_withdrawals_enabled,validate_amount,checked_add,
    encode_withdraw_message,default_gas_token,bind_ok,auth_ok,load_ok,require_ok,need_ok,callOut_ok,save_ok,pure_ok,
    current_epoch_ok,Checked.add_some,Prod.exists,Prod.mk.injEq,and_assoc,exists_and_left,exists_eq_left]
  exact ⟨allowed.authorised,allowed.unpaused,allowed.enabled,allowed.nonneg,allowed.within.epochs,allowed.within.fits,
    allowed.within.capped,(),_,⟨burned,burn,rfl⟩,_,_,⟨value,converted,rfl,rfl⟩,_,_,⟨gas_token,found,rfl,rfl⟩,(),_,
    ⟨paid,pay,rfl⟩,(),_,⟨w,handed,rfl⟩,rfl,rfl⟩

/-- Whatever an effect says, the call does. -/
theorem call_of_effect (effect : Effect prim peers env s entry event s') : call prim peers env entry s = .ok (event, s') := by
  cases effect with
  | deposit chain id address payload key shares recipient w w' accepted asked within resolved minted =>
    exact deposit_returns accepted asked within resolved minted
  | yield_update chain id address payload assets w w' accepted asked updated =>
    exact yield_update_returns accepted asked updated
  | register user evm_address authorised => simp [call,register_recipient,authorised]
  | withdrawal user shares eth_recipient value payload w allowed converted encoded sent =>
    exact withdrawal_returns allowed converted encoded sent
  | configured entry event h authorised own =>
    cases own with
    | set_rate_limits max_mint max_burn epoch_duration mint burn epochs =>
      simp [call,set_rate_limits,require_admin_ok,authorised,mint,burn,epochs]
    | pause => simp [call,pause,set_paused,require_admin_ok,authorised]
    | unpause => simp [call,unpause,set_paused,require_admin_ok,authorised]
    | set_withdrawals_enabled enabled => simp [call,set_withdrawals_enabled,require_admin_ok,authorised]
    | set_source_config chain address => simp [call,set_source_config,require_admin_ok,authorised]
    | set_admin new_admin => simp [call,set_admin,require_admin_ok,authorised]

end Calls

/-! ### What the history says of the handler -/

section Histories
variable {O : Type}

/-- The call to the handler that returned. -/
def served (r : Turned O) : Option Entry :=
  match r.input.2, r.output with
  | .handler entry, .ok _ => some entry
  | _, _ => none

/-- What the history leaves of a field. -/
def told {β : Type} (look : BridgeHandler → β) (writes : Entry → Option β) (founding : BridgeHandler)
    (past : List (Turned O)) : β := (latest (fun r => (served r).bind writes) past).getD (look founding)

/-- A payload of the same hash was executed. -/
def Executed (prim : Primitives) (past : List (Turned O)) (payload_hash : BytesN 32) : Prop :=
  payload_hash ∈ (executedPayloads past).map prim.keccak256

/-- The handler is as its history says. -/
structure Recorded (prim : Primitives) (founding : BridgeHandler) (past : List (Turned O)) (h : BridgeHandler) : Prop where
  registers : ∀ (β : Type) (look : BridgeHandler → β) (writes : Entry → Option β), Register look writes →
    look h = told look writes founding past
  processed : ∀ payload_hash, h.processed_message payload_hash = true ↔ Executed prim past payload_hash
  counted : ∀ flow epoch, Flow.counter flow h epoch = movedWhere flow (fun x => epoch = index x) past

variable {prim : Primitives} {axelar : Axelar O} {handler : Address} {r : Turned O} {entry : Entry}

theorem served_some : served r = some entry ↔ r.input.2 = .handler entry ∧ ∃ event, r.output = .ok event := by
  unfold served
  split
  · rename_i called event input output
    simp [input,output]
  · rename_i other
    simp only [reduceCtorEq,false_iff,not_and,not_exists]
    intro input event output
    exact other entry event input output

/-- A transition leaves in a register what its call writes, or what was there. -/
theorem Register.step {β : Type} {look : BridgeHandler → β} {writes : Entry → Option β} (register : Register look writes)
    (makes : Makes (serve prim axelar handler) r) :
    look r.after.state.own = ((served r).bind writes).getD (look r.before.state.own) := by
  rcases turned_cases makes with ⟨entry,event,input,out,turn⟩ | ⟨change,input,out,own,_⟩ | ⟨e,out,same⟩
  · rw [served_some.mpr ⟨input,event,out⟩,register.moved _ _ _ _ _ _ _ _ turn]
    rfl
  · have quiet : served r = none := by simp [served,input]
    rw [quiet,own]
    rfl
  · have quiet : served r = none := by simp [served,out]
    rw [quiet,same]
    rfl

/-- A transition marks the hash of the payload that it executes. -/
theorem processed_step (makes : Makes (serve prim axelar handler) r) (payload_hash : BytesN 32) :
    r.after.state.own.processed_message payload_hash = true ↔
      payload_hash ∈ (executedPayload r).toList.map prim.keccak256 ∨
        r.before.state.own.processed_message payload_hash = true := by
  rcases turned_cases makes with ⟨entry,event,input,out,turn⟩ | ⟨change,input,out,own,_⟩ | ⟨e,out,same⟩
  · cases turn with
    | deposit chain id address payload key shares recipient w t accepted asked resolved own =>
      have ran : executedPayload r = some payload := by simp [executedPayload,input,out]
      rw [ran,own,BridgeHandler.deposited_processed]
      by_cases same : payload_hash = prim.keccak256 payload <;> simp [same]
    | yield_update chain id address payload assets w t accepted asked own =>
      have ran : executedPayload r = some payload := by simp [executedPayload,input,out]
      rw [ran,own,BridgeHandler.processed_write]
      by_cases same : payload_hash = prim.keccak256 payload <;> simp [same]
    | withdrawal user shares recipient value payload t allowed converted encoded own =>
      have idle : executedPayload r = none := by simp [executedPayload,input]
      rw [idle,own,BridgeHandler.withdrawn_processed]
      simp
    | register user key authorised own =>
      have idle : executedPayload r = none := by simp [executedPayload,input]
      rw [idle,own]
      simp [BridgeHandler.write_recipient_mapping]
    | configured entry event authorised own =>
      have idle : executedPayload r = none := by
        generalize r.after.state.own = h at own
        cases own <;> simp [executedPayload,input]
      rw [idle,own.processed]
      simp
  · have idle : executedPayload r = none := by simp [executedPayload,input]
    rw [idle,own]
    simp
  · have idle : executedPayload r = none := by simp [executedPayload,out]
    rw [idle,same]
    simp

section Runs
variable {clock : Clock} {admin gateway gas_service token vault : Address} {source_chain source_address : String}
  {ground : Ground O} {inputs : List (Origin × Action O)}

/-- What a run leaves in the handler is told by its history. -/
theorem recorded_run : Recorded prim (construct admin gateway gas_service token vault source_chain source_address)
    (trace (serve prim axelar handler)
      (deployed clock admin gateway gas_service token vault source_chain source_address ground) inputs)
    (run (serve prim axelar handler)
      (deployed clock admin gateway gas_service token vault source_chain source_address ground) inputs).state.own where
  registers β look writes register :=
    run_latest_getD (fun c : Chain (State O) => look c.state.own) (fun r => (served r).bind writes) inputs
      (fun r _ makes => register.step makes)
  processed payload_hash := by
    apply run_history (serve prim axelar handler)
      (fun past c => c.state.own.processed_message payload_hash = true ↔ Executed prim past payload_hash) inputs
    · simp [deployed,construct,Executed,executedPayloads]
    · intro past r _ makes held
      rw [processed_step makes,held,Executed,Executed,executedPayloads_append,List.map_append,List.mem_append,or_comm]
  counted flow epoch := counter_eq flow inputs epoch

variable {past rest : List (Turned O)}

/-- A transition of a run is made by the handler that the history before it tells. -/
theorem recorded_before (split : trace (serve prim axelar handler)
      (deployed clock admin gateway gas_service token vault source_chain source_address ground) inputs = past ++ r :: rest) :
    Recorded prim (construct admin gateway gas_service token vault source_chain source_address) past
      r.before.state.own := by
  have recorded : Recorded prim (construct admin gateway gas_service token vault source_chain source_address)
      (trace (serve prim axelar handler)
        (deployed clock admin gateway gas_service token vault source_chain source_address ground)
        (past.map (fun q => q.input))) _ := recorded_run
  rw [trace_past split] at recorded
  have made := congrArg Transition.before (trace_split split)
  rw [made]
  exact recorded

end Runs

/-! ### Admission -/

section Told
variable (founding : BridgeHandler) (past : List (Turned O))

def lastAdmin : Address := told (fun h => h.admin) Entry.appoints founding past
def lastPaused : Bool := told (fun h => h.paused) Entry.switches founding past
def lastEnabled : Bool := told (fun h => h.withdrawals_enabled) Entry.enables founding past
/-- The caps for minting and burning, and the epoch duration. -/
def lastLimits : Int × Int × Nat :=
  told (fun h => (h.max_mint_per_epoch, h.max_burn_per_epoch, h.epoch_duration)) Entry.limits founding past
def lastSource : String × String := told (fun h => (h.source_chain, h.source_address)) Entry.redirects founding past
def lastRecipient (key : BytesN 32) : Option Address :=
  told (fun h => h.read_recipient_mapping key) (Entry.registers key) founding past

/-- The cap of a flow. -/
def lastCap : Flow → Int
  | .mint => (lastLimits founding past).1
  | .burn => (lastLimits founding past).2.1

/-- What a flow has moved under the index of a ledger. -/
def movedSoFar (flow : Flow) (sequence : Nat) : Int :=
  movedWhere flow (fun x => sequence / (lastLimits founding past).2.2 = index x) past

/-- Shares of a flow that still fit under its cap at a ledger. -/
structure Room (flow : Flow) (sequence : Nat) (shares : Int) : Prop where
  epochs : (lastLimits founding past).2.2 ≠ 0
  fits : Fits (movedSoFar founding past flow sequence + shares)
  capped : movedSoFar founding past flow sequence + shares ≤ lastCap founding past flow

end Told

/-- What the admin may ask for. -/
def Entry.Configures : Entry → Prop
  | .set_rate_limits max_mint max_burn epoch_duration => 0 ≤ max_mint ∧ 0 ≤ max_burn ∧ epoch_duration ≠ 0
  | .execute _ _ _ _ => False
  | .register_recipient _ _ => False
  | .initiate_withdrawal _ _ _ => False
  | _ => True

section Admission
variable (prim : Primitives) (axelar : Axelar O) (env : Env) (founding : BridgeHandler) (past : List (Turned O))
  (w : Outside O)

/-- A message of the configured source that the gateway approves, and that is new. -/
structure Approved (source_chain message_id source_address : String) (payload : Bytes) (w' : Outside O) : Prop where
  source : (source_chain, source_address) = lastSource founding past
  approved : axelar.peers.validate_message (env.calling founding.gateway) env.current_contract_address source_chain message_id
    source_address (prim.keccak256 payload) w = some (true, w')
  unpaused : lastPaused founding past = false
  unprocessed : ¬ Executed prim past (prim.keccak256 payload)

/-- The call is due: the history admits it, and whom the handler calls for it answers. -/
inductive Admitted : Entry → Prop
  | deposit (source_chain message_id source_address : String) (payload : Bytes) (key : BytesN 32) (shares : Int)
      (recipient : Address) (w' w'' : Outside O) :
      Approved prim axelar env founding past w source_chain message_id source_address payload w' →
      Deposit prim payload key shares → Room founding past .mint env.sequence shares →
      (lastRecipient founding past key).or (prim.address_from_str (Strkey.contract_id_to_strkey key)) = some recipient →
      axelar.peers.bridge_mint (env.calling founding.token_contract) recipient shares w' = some ((), w'') →
      Admitted (.execute source_chain message_id source_address payload)
  | yield_update (source_chain message_id source_address : String) (payload : Bytes) (new_total_assets : Int)
      (w' w'' : Outside O) :
      Approved prim axelar env founding past w source_chain message_id source_address payload w' →
      YieldUpdate prim payload new_total_assets →
      axelar.peers.update_exchange_rate (env.calling founding.token_contract) new_total_assets w' = some ((), w'') →
      Admitted (.execute source_chain message_id source_address payload)
  | register (user : Address) (evm_address : BytesN 32) : env.Authorised user →
      Admitted (.register_recipient user evm_address)
  | withdrawal (user : Address) (shares : Int) (eth_recipient : BytesN 32) (value : U256) (payload : Bytes)
      (gas_token : Address) (burned paid sent : Outside O) : env.Authorised user → lastPaused founding past = false →
      lastEnabled founding past = true → 0 ≤ shares → Room founding past .burn env.sequence shares →
      i128_to_u256 shares = some value →
      payload = prim.codec.encode_withdraw ⟨MESSAGE_TYPE_WITHDRAW,eth_recipient,value,
        BitVec.ofNat 256 (withdrawal_nonce env (movedSoFar founding past .burn env.sequence))⟩ →
      prim.address_from_str GAS_TOKEN_ADDRESS = some gas_token →
      axelar.peers.bridge_burn (env.calling founding.token_contract) user shares w = some ((), burned) →
      axelar.peers.pay_gas (env.calling founding.gas_service) env.current_contract_address (lastSource founding past).1
        (lastSource founding past).2 payload user ⟨gas_token,DEFAULT_GAS_AMOUNT⟩ [] burned = some ((), paid) →
      axelar.peers.call_contract (env.calling founding.gateway) env.current_contract_address (lastSource founding past).1
        (lastSource founding past).2 payload paid = some ((), sent) →
      Admitted (.initiate_withdrawal user shares eth_recipient)
  | configured (entry : Entry) : env.Authorised (lastAdmin founding past) → entry.Configures → Admitted entry

end Admission

section Handlers
variable {env : Env} {founding : BridgeHandler} {past : List (Turned O)} {s s' : State O} {event : Option BridgeEvent}

namespace Recorded
variable {h : BridgeHandler} (recorded : Recorded prim founding past h)
include recorded

theorem admin : h.admin = lastAdmin founding past := recorded.registers _ _ _ admin_register
theorem paused : h.paused = lastPaused founding past := recorded.registers _ _ _ paused_register
theorem enabled : h.withdrawals_enabled = lastEnabled founding past := recorded.registers _ _ _ enabled_register
theorem limits : (h.max_mint_per_epoch, h.max_burn_per_epoch, h.epoch_duration) = lastLimits founding past :=
  recorded.registers _ _ _ limits_register
theorem source : (h.source_chain, h.source_address) = lastSource founding past :=
  recorded.registers _ _ _ source_register
theorem recipient (key : BytesN 32) : h.read_recipient_mapping key = lastRecipient founding past key :=
  recorded.registers _ _ _ (recipient_register key)

theorem founders : h.gateway = founding.gateway ∧ h.gas_service = founding.gas_service ∧
    h.token_contract = founding.token_contract := by
  have kept := recorded.registers _ _ _ founding_register
  have nothing : ∀ past : List (Turned O), told (fun h => (h.gateway, h.gas_service, h.token_contract)) (fun _ => none)
      founding past = (founding.gateway, founding.gas_service, founding.token_contract) := by
    intro past
    rw [told,latest_none.mpr (by simp)]
    rfl
  rw [nothing,Prod.mk.injEq,Prod.mk.injEq] at kept
  exact kept

theorem counter (flow : Flow) : flow.counter h (h.epoch env) = movedSoFar founding past flow env.sequence := by
  rw [recorded.counted,movedSoFar,← recorded.limits]
  rfl

theorem cap (flow : Flow) : flow.cap h = lastCap founding past flow := by
  cases flow <;> rw [lastCap,← recorded.limits] <;> rfl

/-- The handler's room is what the history leaves. -/
theorem room (flow : Flow) (shares : Int) : Room founding past flow env.sequence shares ↔
    h.Within shares (flow.counter h (h.epoch env)) (flow.cap h) := by
  have duration : h.epoch_duration = (lastLimits founding past).2.2 := by rw [← recorded.limits]
  rw [recorded.counter,recorded.cap]
  constructor
  · intro room
    exact ⟨duration ▸ room.epochs,room.fits,room.capped⟩
  · intro within
    exact ⟨duration ▸ within.epochs,within.fits,within.capped⟩

theorem unprocessed (payload_hash : BytesN 32) : h.processed_message payload_hash = false ↔ ¬ Executed prim past payload_hash := by
  rw [← recorded.processed,Bool.not_eq_true]

end Recorded

/-- The handler accepts a message that the history and the gateway approve. -/
theorem Recorded.accepts (recorded : Recorded prim founding past s.own) {source_chain message_id source_address : String}
    {payload : Bytes} {w : Outside O} :
    Accepts prim axelar.peers env s source_chain message_id source_address payload w ↔
      Approved prim axelar env founding past s.rest source_chain message_id source_address payload w := by
  obtain ⟨gateway,_,_⟩ := recorded.founders
  have source := recorded.source
  constructor
  · intro accepts
    refine ⟨?_,?_,?_,?_⟩
    · rw [accepts.chain,accepts.address,source]
    · rw [← gateway]
      exact accepts.approved
    · rw [← recorded.paused]
      exact accepts.unpaused
    · exact (recorded.unprocessed _).mp accepts.unprocessed
  · intro approved
    obtain ⟨chain,address⟩ := Prod.mk.inj (approved.source.trans source.symm)
    refine ⟨chain,address,?_,?_,?_⟩
    · rw [gateway]
      exact approved.approved
    · rw [recorded.paused]
      exact approved.unpaused
    · exact (recorded.unprocessed _).mpr approved.unprocessed

theorem configures_iff {h : BridgeHandler} : entry.Configures ↔ ∃ event h', Configured h entry event h' := by
  constructor
  · intro asked
    cases entry with
    | set_rate_limits max_mint max_burn epoch_duration =>
      obtain ⟨mint,burn,epochs⟩ := asked
      exact ⟨_,_,.set_rate_limits max_mint max_burn epoch_duration mint burn epochs⟩
    | pause => exact ⟨_,_,.pause⟩
    | unpause => exact ⟨_,_,.unpause⟩
    | set_withdrawals_enabled enabled => exact ⟨_,_,.set_withdrawals_enabled enabled⟩
    | set_source_config source_chain source_address => exact ⟨_,_,.set_source_config source_chain source_address⟩
    | set_admin new_admin => exact ⟨_,_,.set_admin new_admin⟩
    | _ => exact absurd asked id
  · rintro ⟨event,h',configured⟩
    cases configured with
    | set_rate_limits max_mint max_burn epoch_duration mint burn epochs => exact ⟨mint,burn,epochs⟩
    | _ => trivial

/-- What a call does was admitted. -/
theorem admitted_of_effect (recorded : Recorded prim founding past s.own)
    (effect : Effect prim axelar.peers env s entry event s') : Admitted prim axelar env founding past s.rest entry := by
  obtain ⟨gateway,gas_service,token_contract⟩ := recorded.founders
  cases effect with
  | deposit chain id address payload key shares recipient w w' accepted asked within resolved minted =>
    refine .deposit chain id address payload key shares recipient w w' (recorded.accepts.mp accepted) asked
      ((recorded.room .mint shares).mpr within) ?_ ?_
    · rw [← recorded.recipient]
      exact resolved
    · rw [← token_contract]
      exact minted
  | yield_update chain id address payload assets w w' accepted asked updated =>
    refine .yield_update chain id address payload assets w w' (recorded.accepts.mp accepted) asked ?_
    rw [← token_contract]
    exact updated
  | register user evm_address authorised => exact .register user evm_address authorised
  | withdrawal user shares eth_recipient value payload w allowed converted encoded sent =>
    obtain ⟨gas_token,burned,paid,found,burn,pay,handed⟩ := sent.steps
    obtain ⟨chain,address⟩ := Prod.mk.inj recorded.source
    refine .withdrawal user shares eth_recipient value payload gas_token burned paid w allowed.authorised ?_ ?_ allowed.nonneg
      ((recorded.room .burn shares).mpr allowed.within) converted ?_ found ?_ ?_ ?_
    · rw [← recorded.paused]
      exact allowed.unpaused
    · rw [← recorded.enabled]
      exact allowed.enabled
    · rw [← recorded.counter]
      exact encoded
    · rw [← token_contract]
      exact burn
    · rw [← gas_service,← recorded.source]
      exact pay
    · rw [← gateway,← recorded.source]
      exact handed
  | configured entry event h authorised own =>
    refine .configured entry ?_ (configures_iff.mpr ⟨event,h,own⟩)
    rw [← recorded.admin]
    exact authorised

/-- What is admitted can be done. -/
theorem effect_of_admitted (recorded : Recorded prim founding past s.own)
    (admitted : Admitted prim axelar env founding past s.rest entry) :
    ∃ event s', Effect prim axelar.peers env s entry event s' := by
  obtain ⟨gateway,gas_service,token_contract⟩ := recorded.founders
  cases admitted with
  | deposit chain id address payload key shares recipient w w' approved asked room resolved minted =>
    rw [← recorded.recipient] at resolved
    rw [← token_contract] at minted
    exact ⟨_,_,.deposit chain id address payload key shares recipient w w' (recorded.accepts.mpr approved) asked
      ((recorded.room .mint shares).mp room) resolved minted⟩
  | yield_update chain id address payload assets w w' approved asked updated =>
    rw [← token_contract] at updated
    exact ⟨_,_,.yield_update chain id address payload assets w w' (recorded.accepts.mpr approved) asked updated⟩
  | register user evm_address authorised => exact ⟨_,_,.register user evm_address authorised⟩
  | withdrawal user shares eth_recipient value payload gas_token burned paid w authorised unpaused enabled nonneg room
      converted encoded found burn pay handed =>
    rw [← recorded.paused] at unpaused
    rw [← recorded.enabled] at enabled
    rw [← recorded.counter] at encoded
    rw [← token_contract] at burn
    rw [← gas_service,← recorded.source] at pay
    rw [← gateway,← recorded.source] at handed
    exact ⟨_,_,.withdrawal user shares eth_recipient value payload w
      ⟨authorised,unpaused,enabled,nonneg,(recorded.room .burn shares).mp room⟩ converted encoded
      ⟨gas_token,burned,paid,found,burn,pay,handed⟩⟩
  | configured entry authorised asked =>
    obtain ⟨event,h,own⟩ := (configures_iff (h := s.own)).mp asked
    rw [← recorded.admin] at authorised
    exact ⟨event,_,.configured entry event h authorised own⟩

end Handlers

/-! ### Whole runs -/

section Admitting
variable {clock : Clock} {admin gateway gas_service token vault : Address} {source_chain source_address : String}
  {ground : Ground O} {inputs : List (Origin × Action O)} {past rest : List (Turned O)}

/-- In every run a call to the handler returns exactly if it is due: the history
    before it admits it, and whom the handler calls for it answers. -/
theorem calls_admitted (split : trace (serve prim axelar handler)
      (deployed clock admin gateway gas_service token vault source_chain source_address ground) inputs = past ++ r :: rest)
    (input : r.input.2 = .handler entry) :
    (∃ event, r.output = .ok event) ↔ Admitted prim axelar (r.env handler)
      (construct admin gateway gas_service token vault source_chain source_address) past r.before.state.rest entry := by
  have makes : Makes (serve prim axelar handler) r := trace_makes (by rw [split]; simp)
  have recorded : Recorded prim (construct admin gateway gas_service token vault source_chain source_address) past
      r.before.state.own := recorded_before split
  constructor
  · rintro ⟨event,out⟩
    have ran := Delivery.returned makes out
    rw [input] at ran
    exact admitted_of_effect recorded (effect_of_call ran)
  · intro admitted
    obtain ⟨event,s',effect⟩ := effect_of_admitted recorded admitted
    have ran : act prim axelar (r.env handler) r.input.2 r.before.state = .ok (event,s') := by
      rw [input]
      exact call_of_effect effect
    exact ⟨event,(Delivery.returns makes ran).1⟩

end Admitting

end Histories

namespace Small

/-- The call is due after some others on the small chain. -/
def Due (calls : List (Origin × Action Unit)) (signer : Address) (entry : Entry) : Prop :=
  Admitted primitives axelar ((Origin.signedBy signer).env ((run step start calls).clock.advance (.signedBy signer)) handler)
    (construct admin gateway gas_service token token "ethereum" "0xHelixVault") (trace step start calls)
    (run step start calls).state.rest entry

end Small

/-- The withdrawal of a round trip is due, the second execution of its deposit is not. -/
theorem calls_admitted_round_trip :
    Small.Due (Small.roundTrip.take 4) Small.userA (.initiate_withdrawal Small.userA 4 (BytesN.fill 32 8)) ∧
      ¬ Small.Due (Small.roundTrip.take 2) Small.admin
        (.execute "ethereum" "m2" "0xHelixVault" (depositPayload Small.key 10 0)) := by
  have due : ∀ calls signer entry, (∃ event, (transition Small.step (run Small.step Small.start calls)
      (.signedBy signer,.handler entry)).output = .ok event) ↔ Small.Due calls signer entry := by
    intro calls signer entry
    have split : trace Small.step Small.start (calls ++ [(.signedBy signer,.handler entry)]) =
      trace Small.step Small.start calls ++ [transition Small.step (run Small.step Small.start calls)
        (.signedBy signer,.handler entry)] := trace_append _ _ _
    exact calls_admitted split rfl
  constructor
  · exact (due _ _ _).mp (ok_of_toOption (by decide +kernel))
  · intro admitted
    obtain ⟨event,out⟩ := (due _ _ _).mpr admitted
    have failed : (transition Small.step (run Small.step Small.start (Small.roundTrip.take 2))
      (Small.executes "m2" (depositPayload Small.key 10 0))).output.toOption = none := by decide +kernel
    rw [Small.executes,out] at failed
    cases failed

end Helix.Bridge
