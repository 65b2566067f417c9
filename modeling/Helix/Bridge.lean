import Helix.Messages
import Helix.Strkey

/-!
The handler of `contracts/bridge-handler`: it executes messages the gateway
approved, mints and re-rates the share token for them, and burns shares for
messages it sends out itself. For every entry point `Effect` says under which
conditions it succeeds and what it then leaves (`effect_of_call`).
-/
namespace Helix.Bridge
open Invoke

def DEFAULT_EPOCH_DURATION : Nat := 17280
def DEFAULT_GAS_AMOUNT : Int := 10000000000
def GAS_TOKEN_ADDRESS : String := "CDLZFC3SYJYDZT7K67VZ75HPJVIEUVNIXF47ZG2FB2RMQQVU2HHGCYSC"
def MESSAGE_TYPE_DEPOSIT : UInt8 := 0x01
def MESSAGE_TYPE_WITHDRAW : UInt8 := 0x02
def MESSAGE_TYPE_YIELD_UPDATE : UInt8 := 0x03

structure GasToken where
  address : Address
  amount : Int
  deriving DecidableEq

inductive BridgeHandlerError where
  | NotInitialized
  | Unauthorized
  | Paused
  | InvalidSourceChain
  | InvalidSourceAddress
  | MessageAlreadyProcessed
  | RateLimitExceeded
  | InvalidPayload
  | InvalidMessageType
  | InvalidAmount
  | AbiDecodeFailed
  | WithdrawalsDisabled
  deriving DecidableEq

/-- The storage of a handler. The constructor writes every instance entry, so a
    handler is never seen uninitialized. -/
structure BridgeHandler where
  admin : Address
  gateway : Address
  gas_service : Address
  token_contract : Address
  vault_contract : Address
  source_chain : String
  source_address : String
  paused : Bool
  max_mint_per_epoch : Int
  max_burn_per_epoch : Int
  epoch_duration : Nat
  withdrawals_enabled : Bool
  processed_message : BytesN 32 → Bool
  recipient_mapping : BytesN 32 → Option Address
  epoch_mints : Nat → Option Int
  epoch_burns : Nat → Option Int

/-- The handler's `__constructor`. -/
def construct (admin gateway gas_service token vault : Address) (source_chain source_address : String) :
    BridgeHandler where
  admin := admin
  gateway := gateway
  gas_service := gas_service
  token_contract := token
  vault_contract := vault
  source_chain := source_chain
  source_address := source_address
  paused := false
  max_mint_per_epoch := i128Max
  max_burn_per_epoch := i128Max
  epoch_duration := DEFAULT_EPOCH_DURATION
  withdrawals_enabled := false
  processed_message := fun _ => false
  recipient_mapping := fun _ => none
  epoch_mints := fun _ => none
  epoch_burns := fun _ => none

/-- What the handler uses of its host and of generated code. -/
structure Primitives where
  keccak256 : Bytes → BytesN 32
  address_from_str : String → Option Address
  codec : SolCodec

/-- The contracts the handler calls, each call with the environment the callee
    sees: the gateway, the gas service and the token. -/
structure Peers (W : Type) where
  validate_message : Env → Address → String → String → String → BytesN 32 → W → Option (Bool × W)
  call_contract : Env → Address → String → String → Bytes → W → Option (Unit × W)
  pay_gas : Env → Address → String → String → Bytes → Address → GasToken → Bytes → W → Option (Unit × W)
  bridge_mint : Env → Address → Int → W → Option (Unit × W)
  bridge_burn : Env → Address → Int → W → Option (Unit × W)
  update_exchange_rate : Env → Int → W → Option (Unit × W)

/-- The event an entry point publishes. -/
inductive BridgeEvent where
  | deposit_processed (recipient : Address) (shares : Int) (message_id : String) (payload_hash : BytesN 32)
  | yield_updated (new_total_assets : Int) (message_id : String) (payload_hash : BytesN 32)
  | recipient_registered (user : Address) (evm_address : BytesN 32)
  | withdrawal_initiated (user : Address) (shares : Int) (eth_recipient payload_hash : BytesN 32)
  | withdrawals_enabled_set (enabled : Bool)
  | source_config_set (source_chain source_address : String)
  deriving DecidableEq

abbrev Contract (W α : Type) : Type := Invoke (World BridgeHandler W) BridgeHandlerError α

/-! ### Storage -/

namespace BridgeHandler
variable (h : BridgeHandler)

def read_epoch_mints (epoch : Nat) : Int := (h.epoch_mints epoch).getD 0
def write_epoch_mints (epoch : Nat) (amount : Int) : BridgeHandler :=
  { h with epoch_mints := fun e => if e = epoch then some amount else h.epoch_mints e }
def read_epoch_burns (epoch : Nat) : Int := (h.epoch_burns epoch).getD 0
def write_epoch_burns (epoch : Nat) (amount : Int) : BridgeHandler :=
  { h with epoch_burns := fun e => if e = epoch then some amount else h.epoch_burns e }
def write_processed_message (payload_hash : BytesN 32) : BridgeHandler :=
  { h with processed_message := fun k => if k = payload_hash then true else h.processed_message k }
def read_recipient_mapping (evm_address : BytesN 32) : Option Address := h.recipient_mapping evm_address
def write_recipient_mapping (evm_address : BytesN 32) (user : Address) : BridgeHandler :=
  { h with recipient_mapping := fun k => if k = evm_address then some user else h.recipient_mapping k }

end BridgeHandler

section Code
variable {W : Type} (prim : Primitives) (peers : Peers W) (env : Env)

/-! ### Checks and conversions -/

def require_not_paused : Contract W Unit := do
  let paused ← load (fun h => h.paused)
  require (paused = false) (.error .Paused)

def require_withdrawals_enabled : Contract W Unit := do
  let enabled ← load (fun h => h.withdrawals_enabled)
  require (enabled = true) (.error .WithdrawalsDisabled)

def require_message_not_processed (payload_hash : BytesN 32) : Contract W Unit := do
  let processed ← load (fun h => h.processed_message payload_hash)
  require (processed = false) (.error .MessageAlreadyProcessed)

def validate_amount (amount : Int) : Contract W Unit := require (0 ≤ amount) (.error .InvalidAmount)

def checked_add (left right : Int) : Contract W Int := need (Checked.add left right) (.error .InvalidAmount)

def current_epoch : Contract W Nat := do
  let epoch_duration ← load (fun h => h.epoch_duration)
  require (epoch_duration ≠ 0) (.error .InvalidAmount)
  pure (env.sequence / epoch_duration)

/-- The ledger above 64 bits that hold what was burned in the epoch before. -/
def withdrawal_nonce (current_burns : Int) : Nat :=
  (env.sequence <<< 64) ||| min (max current_burns 0).toNat (2 ^ 64 - 1)

def default_gas_token : Contract W GasToken := do
  let address ← need (prim.address_from_str GAS_TOKEN_ADDRESS) .trap
  pure ⟨address,DEFAULT_GAS_AMOUNT⟩

/-- The last byte of the first word. -/
def get_message_type (payload : Bytes) : Option UInt8 :=
  if payload.length < 32 then none else (payload.take 32).getLast?

def bytes32_to_address (contract_id : BytesN 32) : Contract W Address :=
  need (prim.address_from_str (Strkey.contract_id_to_strkey contract_id)) .trap

def decode_deposit_message (payload : Bytes) : Contract W DepositMessage :=
  need (prim.codec.decode_deposit payload) (.error .AbiDecodeFailed)

def decode_yield_update_message (payload : Bytes) : Contract W YieldUpdateMessage :=
  need (prim.codec.decode_yield_update payload) (.error .AbiDecodeFailed)

def encode_withdraw_message (eth_recipient : BytesN 32) (shares : Int) (nonce : Nat) : Contract W Bytes := do
  let value ← need (i128_to_u256 shares) (.error .InvalidAmount)
  pure (prim.codec.encode_withdraw ⟨MESSAGE_TYPE_WITHDRAW,eth_recipient,value,BitVec.ofNat 256 nonce⟩)

/-- The registered address of a recipient, or the contract its bytes name. -/
def resolve_recipient (stellarRecipient : BytesN 32) : Contract W Address := do
  let registered ← load (fun h => h.read_recipient_mapping stellarRecipient)
  match registered with
  | some recipient => pure recipient
  | none => bytes32_to_address prim stellarRecipient

/-! ### Entry points -/

def process_deposit (message_id : String) (payload : Bytes) (payload_hash : BytesN 32) :
    Contract W (Option BridgeEvent) := do
  let decoded ← decode_deposit_message prim payload
  require_not_paused
  require_message_not_processed payload_hash
  let shares ← need (u256_to_i128 decoded.shares) (.error .InvalidAmount)
  let epoch ← current_epoch env
  let current_mints ← load (fun h => h.read_epoch_mints epoch)
  let updated_mints ← checked_add current_mints shares
  let max_mint ← load (fun h => h.max_mint_per_epoch)
  require (updated_mints ≤ max_mint) (.error .RateLimitExceeded)
  let recipient ← resolve_recipient prim decoded.stellarRecipient
  let token_address ← load (fun h => h.token_contract)
  callOut (peers.bridge_mint (env.calling token_address) recipient shares)
  save (fun h => h.write_processed_message payload_hash)
  save (fun h => h.write_epoch_mints epoch updated_mints)
  pure (some (.deposit_processed recipient shares message_id payload_hash))

def process_yield_update (message_id : String) (payload : Bytes) (payload_hash : BytesN 32) :
    Contract W (Option BridgeEvent) := do
  let decoded ← decode_yield_update_message prim payload
  require_not_paused
  require_message_not_processed payload_hash
  let new_total_assets ← need (u256_to_i128 decoded.exchangeRate) (.error .InvalidAmount)
  let token_address ← load (fun h => h.token_contract)
  callOut (peers.update_exchange_rate (env.calling token_address) new_total_assets)
  save (fun h => h.write_processed_message payload_hash)
  pure (some (.yield_updated new_total_assets message_id payload_hash))

def execute (source_chain message_id source_address : String) (payload : Bytes) :
    Contract W (Option BridgeEvent) := do
  let chain ← load (fun h => h.source_chain)
  require (source_chain = chain) (.error .InvalidSourceChain)
  let address ← load (fun h => h.source_address)
  require (source_address = address) (.error .InvalidSourceAddress)
  let payload_hash := prim.keccak256 payload
  let gateway ← load (fun h => h.gateway)
  let is_approved ← callOut (peers.validate_message (env.calling gateway) env.current_contract_address source_chain
    message_id source_address payload_hash)
  require (is_approved = true) (.error .Unauthorized)
  let message_type ← need (get_message_type payload) (.error .InvalidPayload)
  if message_type = MESSAGE_TYPE_DEPOSIT then process_deposit prim peers env message_id payload payload_hash
  else if message_type = MESSAGE_TYPE_YIELD_UPDATE then
    process_yield_update prim peers env message_id payload payload_hash
  else fail .InvalidMessageType

def register_recipient (user : Address) (evm_address : BytesN 32) : Contract W (Option BridgeEvent) := do
  require_auth env user
  save (fun h => h.write_recipient_mapping evm_address user)
  pure (some (.recipient_registered user evm_address))

def initiate_withdrawal (user : Address) (shares : Int) (eth_recipient : BytesN 32) :
    Contract W (Option BridgeEvent) := do
  require_auth env user
  require_not_paused
  require_withdrawals_enabled
  validate_amount shares
  let epoch ← current_epoch env
  let current_burns ← load (fun h => h.read_epoch_burns epoch)
  let updated_burns ← checked_add current_burns shares
  let max_burn ← load (fun h => h.max_burn_per_epoch)
  require (updated_burns ≤ max_burn) (.error .RateLimitExceeded)
  let token_address ← load (fun h => h.token_contract)
  callOut (peers.bridge_burn (env.calling token_address) user shares)
  let nonce := withdrawal_nonce env current_burns
  let payload ← encode_withdraw_message prim eth_recipient shares nonce
  let sender := env.current_contract_address
  let destination_chain ← load (fun h => h.source_chain)
  let destination_address ← load (fun h => h.source_address)
  let gas_token ← default_gas_token prim
  let gas_service ← load (fun h => h.gas_service)
  callOut (peers.pay_gas (env.calling gas_service) sender destination_chain destination_address payload user gas_token [])
  let gateway ← load (fun h => h.gateway)
  callOut (peers.call_contract (env.calling gateway) sender destination_chain destination_address payload)
  save (fun h => h.write_epoch_burns epoch updated_burns)
  pure (some (.withdrawal_initiated user shares eth_recipient (prim.keccak256 payload)))

def require_admin : Contract W Unit := do
  let admin ← load (fun h => h.admin)
  require_auth env admin

def set_rate_limits (max_mint max_burn : Int) (epoch_duration : Nat) : Contract W (Option BridgeEvent) := do
  require_admin env
  require (0 ≤ max_mint ∧ 0 ≤ max_burn ∧ epoch_duration ≠ 0) (.error .InvalidAmount)
  save (fun h => { h with max_mint_per_epoch := max_mint })
  save (fun h => { h with max_burn_per_epoch := max_burn })
  save (fun h => { h with epoch_duration := epoch_duration })
  pure none

def set_paused (paused : Bool) : Contract W (Option BridgeEvent) := do
  require_admin env
  save (fun h => { h with paused := paused })
  pure none

def pause : Contract W (Option BridgeEvent) := set_paused env true
def unpause : Contract W (Option BridgeEvent) := set_paused env false

def set_withdrawals_enabled (enabled : Bool) : Contract W (Option BridgeEvent) := do
  require_admin env
  save (fun h => { h with withdrawals_enabled := enabled })
  pure (some (.withdrawals_enabled_set enabled))

def set_source_config (source_chain source_address : String) : Contract W (Option BridgeEvent) := do
  require_admin env
  save (fun h => { h with source_chain := source_chain })
  save (fun h => { h with source_address := source_address })
  pure (some (.source_config_set source_chain source_address))

def set_admin (new_admin : Address) : Contract W (Option BridgeEvent) := do
  require_admin env
  save (fun h => { h with admin := new_admin })
  pure none

/-- The calls that change a handler. `upgrade` replaces the code and ends what
    can be said about it. -/
inductive Entry where
  | execute (source_chain message_id source_address : String) (payload : Bytes)
  | register_recipient (user : Address) (evm_address : BytesN 32)
  | initiate_withdrawal (user : Address) (shares : Int) (eth_recipient : BytesN 32)
  | set_rate_limits (max_mint max_burn : Int) (epoch_duration : Nat)
  | pause
  | unpause
  | set_withdrawals_enabled (enabled : Bool)
  | set_source_config (source_chain source_address : String)
  | set_admin (new_admin : Address)

def call : Entry → Contract W (Option BridgeEvent)
  | .execute source_chain message_id source_address payload =>
    execute prim peers env source_chain message_id source_address payload
  | .register_recipient user evm_address => register_recipient env user evm_address
  | .initiate_withdrawal user shares eth_recipient => initiate_withdrawal prim peers env user shares eth_recipient
  | .set_rate_limits max_mint max_burn epoch_duration => set_rate_limits env max_mint max_burn epoch_duration
  | .pause => pause env
  | .unpause => unpause env
  | .set_withdrawals_enabled enabled => set_withdrawals_enabled env enabled
  | .set_source_config source_chain source_address => set_source_config env source_chain source_address
  | .set_admin new_admin => set_admin env new_admin

end Code

/-! ### What a call does -/

namespace BridgeHandler
variable (h : BridgeHandler) (prim : Primitives) (env : Env) (payload_hash : BytesN 32) (shares : Int)

/-- The epoch a ledger falls into. -/
def epoch : Nat := env.sequence / h.epoch_duration

/-- The registered address of a recipient, or the contract its bytes name. -/
def recipientOf (stellarRecipient : BytesN 32) : Option Address :=
  (h.read_recipient_mapping stellarRecipient).or
    (prim.address_from_str (Strkey.contract_id_to_strkey stellarRecipient))

/-- The handler after a deposit. -/
def deposited : BridgeHandler :=
  (h.write_processed_message payload_hash).write_epoch_mints (h.epoch env) (h.read_epoch_mints (h.epoch env) + shares)

/-- The handler after a withdrawal. -/
def withdrawn : BridgeHandler := h.write_epoch_burns (h.epoch env) (h.read_epoch_burns (h.epoch env) + shares)

theorem deposited_processed (k : BytesN 32) : (h.deposited env payload_hash shares).processed_message k =
    if k = payload_hash then true else h.processed_message k := rfl
@[simp] theorem deposited_burns (e : Nat) :
    (h.deposited env payload_hash shares).read_epoch_burns e = h.read_epoch_burns e := rfl
@[simp] theorem deposited_recipients :
    (h.deposited env payload_hash shares).recipient_mapping = h.recipient_mapping := rfl
theorem processed_write (k : BytesN 32) : (h.write_processed_message payload_hash).processed_message k =
    if k = payload_hash then true else h.processed_message k := rfl
@[simp] theorem withdrawn_processed : (h.withdrawn env shares).processed_message = h.processed_message := rfl
@[simp] theorem withdrawn_recipients : (h.withdrawn env shares).recipient_mapping = h.recipient_mapping := rfl
theorem withdrawn_burns (e : Nat) : (h.withdrawn env shares).read_epoch_burns e =
    if e = h.epoch env then h.read_epoch_burns e + shares else h.read_epoch_burns e := by
  by_cases same : e = h.epoch env <;> simp [withdrawn,write_epoch_burns,read_epoch_burns,same]

/-- Shares that still fit under the cap of the epoch. -/
structure Within (spent cap : Int) : Prop where
  epochs : h.epoch_duration ≠ 0
  fits : Fits (spent + shares)
  capped : spent + shares ≤ cap

end BridgeHandler

section Effects
variable {W : Type} (prim : Primitives) (peers : Peers W) (env : Env)

/-- A message the gateway approved for the configured source, not processed
    before; `w` is what the gateway leaves. -/
structure Accepts (s : World BridgeHandler W) (source_chain message_id source_address : String) (payload : Bytes)
    (w : W) : Prop where
  chain : source_chain = s.own.source_chain
  address : source_address = s.own.source_address
  approved : peers.validate_message (env.calling s.own.gateway) env.current_contract_address source_chain message_id
    source_address (prim.keccak256 payload) s.rest = some (true, w)
  unpaused : s.own.paused = false
  unprocessed : s.own.processed_message (prim.keccak256 payload) = false

/-- What a deposit payload asks for. -/
structure Deposit (payload : Bytes) (stellarRecipient : BytesN 32) (shares : Int) : Prop where
  kind : get_message_type payload = some MESSAGE_TYPE_DEPOSIT
  decoded : ∃ message, prim.codec.decode_deposit payload = some message ∧
    message.stellarRecipient = stellarRecipient ∧ u256_to_i128 message.shares = some shares

/-- What a yield update payload asks for. -/
structure YieldUpdate (payload : Bytes) (new_total_assets : Int) : Prop where
  kind : get_message_type payload = some MESSAGE_TYPE_YIELD_UPDATE
  decoded : ∃ message, prim.codec.decode_yield_update payload = some message ∧
    u256_to_i128 message.exchangeRate = some new_total_assets

/-- A withdrawal the handler lets a user make. -/
structure Withdraws (s : World BridgeHandler W) (user : Address) (shares : Int) : Prop where
  authorised : env.Authorised user
  unpaused : s.own.paused = false
  enabled : s.own.withdrawals_enabled = true
  nonneg : 0 ≤ shares
  within : s.own.Within shares (s.own.read_epoch_burns (s.own.epoch env)) s.own.max_burn_per_epoch

/-- What the handler calls for a withdrawal, in order: it burns, pays for the
    message and hands it over. -/
structure Sends (s : World BridgeHandler W) (user : Address) (shares : Int) (payload : Bytes) (w : W) : Prop where
  steps : ∃ gas_token burned paid,
    prim.address_from_str GAS_TOKEN_ADDRESS = some gas_token ∧
    peers.bridge_burn (env.calling s.own.token_contract) user shares s.rest = some ((), burned) ∧
    peers.pay_gas (env.calling s.own.gas_service) env.current_contract_address s.own.source_chain s.own.source_address
      payload user ⟨gas_token,DEFAULT_GAS_AMOUNT⟩ [] burned = some ((), paid) ∧
    peers.call_contract (env.calling s.own.gateway) env.current_contract_address s.own.source_chain
      s.own.source_address payload paid = some ((), w)

/-- The message a withdrawal puts on the wire. -/
def withdrawMessage (h : BridgeHandler) (eth_recipient : BytesN 32) (value : U256) : WithdrawMessage :=
  ⟨MESSAGE_TYPE_WITHDRAW,eth_recipient,value,
    BitVec.ofNat 256 (withdrawal_nonce env (h.read_epoch_burns (h.epoch env)))⟩

/-- What the admin's calls change. -/
inductive Configured (h : BridgeHandler) : Entry → Option BridgeEvent → BridgeHandler → Prop
  | set_rate_limits (max_mint max_burn : Int) (epoch_duration : Nat) : 0 ≤ max_mint → 0 ≤ max_burn →
      epoch_duration ≠ 0 → Configured h (.set_rate_limits max_mint max_burn epoch_duration) none
        { h with max_mint_per_epoch := max_mint, max_burn_per_epoch := max_burn, epoch_duration := epoch_duration }
  | pause : Configured h .pause none { h with paused := true }
  | unpause : Configured h .unpause none { h with paused := false }
  | set_withdrawals_enabled (enabled : Bool) : Configured h (.set_withdrawals_enabled enabled)
      (some (.withdrawals_enabled_set enabled)) { h with withdrawals_enabled := enabled }
  | set_source_config (source_chain source_address : String) :
      Configured h (.set_source_config source_chain source_address)
        (some (.source_config_set source_chain source_address))
        { h with source_chain := source_chain, source_address := source_address }
  | set_admin (new_admin : Address) : Configured h (.set_admin new_admin) none { h with admin := new_admin }

namespace Configured
variable {h h' : BridgeHandler} {entry : Entry} {event : Option BridgeEvent}

theorem processed (changed : Configured h entry event h') : h'.processed_message = h.processed_message := by
  cases changed <;> rfl
theorem recipients (changed : Configured h entry event h') : h'.recipient_mapping = h.recipient_mapping := by
  cases changed <;> rfl
theorem burns (changed : Configured h entry event h') (epoch : Nat) :
    h'.read_epoch_burns epoch = h.read_epoch_burns epoch := by
  cases changed <;> rfl

theorem not_execute (changed : Configured h entry event h') (source_chain message_id source_address : String)
    (payload : Bytes) : entry ≠ .execute source_chain message_id source_address payload := by
  cases changed <;> simp
theorem not_register (changed : Configured h entry event h') (user : Address) (evm_address : BytesN 32) :
    entry ≠ .register_recipient user evm_address := by
  cases changed <;> simp

end Configured

/-- What a successful call does to the handler and to the contracts it calls. -/
inductive Effect (s : World BridgeHandler W) : Entry → Option BridgeEvent → World BridgeHandler W → Prop
  | deposit (source_chain message_id source_address : String) (payload : Bytes) (stellarRecipient : BytesN 32)
      (shares : Int) (recipient : Address) (w w' : W) :
      Accepts prim peers env s source_chain message_id source_address payload w →
      Deposit prim payload stellarRecipient shares →
      s.own.Within shares (s.own.read_epoch_mints (s.own.epoch env)) s.own.max_mint_per_epoch →
      s.own.recipientOf prim stellarRecipient = some recipient →
      peers.bridge_mint (env.calling s.own.token_contract) recipient shares w = some ((), w') →
      Effect s (.execute source_chain message_id source_address payload)
        (some (.deposit_processed recipient shares message_id (prim.keccak256 payload)))
        ⟨s.own.deposited env (prim.keccak256 payload) shares,w'⟩
  | yield_update (source_chain message_id source_address : String) (payload : Bytes) (new_total_assets : Int)
      (w w' : W) : Accepts prim peers env s source_chain message_id source_address payload w →
      YieldUpdate prim payload new_total_assets →
      peers.update_exchange_rate (env.calling s.own.token_contract) new_total_assets w = some ((), w') →
      Effect s (.execute source_chain message_id source_address payload)
        (some (.yield_updated new_total_assets message_id (prim.keccak256 payload)))
        ⟨s.own.write_processed_message (prim.keccak256 payload),w'⟩
  | register (user : Address) (evm_address : BytesN 32) : env.Authorised user →
      Effect s (.register_recipient user evm_address) (some (.recipient_registered user evm_address))
        ⟨s.own.write_recipient_mapping evm_address user,s.rest⟩
  | withdrawal (user : Address) (shares : Int) (eth_recipient : BytesN 32) (value : U256) (payload : Bytes) (w : W) :
      Withdraws env s user shares → i128_to_u256 shares = some value →
      payload = prim.codec.encode_withdraw (withdrawMessage env s.own eth_recipient value) →
      Sends prim peers env s user shares payload w →
      Effect s (.initiate_withdrawal user shares eth_recipient)
        (some (.withdrawal_initiated user shares eth_recipient (prim.keccak256 payload)))
        ⟨s.own.withdrawn env shares,w⟩
  | configured (entry : Entry) (event : Option BridgeEvent) (h : BridgeHandler) : env.Authorised s.own.admin →
      Configured s.own entry event h → Effect s entry event ⟨h,s.rest⟩

variable {prim peers env} {s : World BridgeHandler W}

theorem current_epoch_ok {r : Nat × World BridgeHandler W} :
    (current_epoch env : Contract W Nat) s = .ok r ↔ s.own.epoch_duration ≠ 0 ∧ r = (s.own.epoch env, s) := by
  simp [current_epoch,BridgeHandler.epoch,and_left_comm]

theorem resolve_recipient_ok {stellarRecipient : BytesN 32} {r : Address × World BridgeHandler W} :
    resolve_recipient prim stellarRecipient s = .ok r ↔
      s.own.recipientOf prim stellarRecipient = some r.1 ∧ r.2 = s := by
  simp only [resolve_recipient,bind_ok,load_ok,exists_eq_left,BridgeHandler.recipientOf]
  cases s.own.read_recipient_mapping stellarRecipient with
  | none => simp [bytes32_to_address]
  | some recipient =>
    show (pure recipient : Contract W Address) s = .ok r ↔ some recipient = some r.1 ∧ r.2 = s
    rw [pure_ok,Prod.ext_iff,Option.some.injEq]
    simp [eq_comm]

theorem require_admin_ok {r : Unit × World BridgeHandler W} :
    (require_admin env : Contract W Unit) s = .ok r ↔ env.Authorised s.own.admin ∧ r = ((), s) := by
  simp [require_admin]

theorem deposit_effect {source_chain message_id source_address : String} {payload : Bytes} {w : W}
    {r : Option BridgeEvent × World BridgeHandler W}
    (chain : source_chain = s.own.source_chain) (address : source_address = s.own.source_address)
    (approved : peers.validate_message (env.calling s.own.gateway) env.current_contract_address source_chain message_id
      source_address (prim.keccak256 payload) s.rest = some (true, w))
    (kind : get_message_type payload = some MESSAGE_TYPE_DEPOSIT)
    (done : process_deposit prim peers env message_id payload (prim.keccak256 payload) { s with rest := w } = .ok r) :
    Effect prim peers env s (.execute source_chain message_id source_address payload) r.1 r.2 := by
  simp only [process_deposit,decode_deposit_message,require_not_paused,require_message_not_processed,checked_add,
    bind_ok,load_ok,require_ok,need_ok,callOut_ok,save_ok,pure_ok,current_epoch_ok,resolve_recipient_ok,
    Checked.add_some,Prod.exists,and_assoc,exists_and_left,exists_eq_left] at done
  obtain ⟨message,decoded,unpaused,unprocessed,shares,converted,epochs,fits,capped,recipient,found,_,_,
    ⟨w',minted,rfl⟩,rfl⟩ := done
  exact .deposit source_chain message_id source_address payload message.stellarRecipient shares recipient w w'
    ⟨chain,address,approved,unpaused,unprocessed⟩ ⟨kind,message,decoded,rfl,converted⟩ ⟨epochs,fits,capped⟩ found minted

theorem yield_update_effect {source_chain message_id source_address : String} {payload : Bytes} {w : W}
    {r : Option BridgeEvent × World BridgeHandler W}
    (chain : source_chain = s.own.source_chain) (address : source_address = s.own.source_address)
    (approved : peers.validate_message (env.calling s.own.gateway) env.current_contract_address source_chain message_id
      source_address (prim.keccak256 payload) s.rest = some (true, w))
    (kind : get_message_type payload = some MESSAGE_TYPE_YIELD_UPDATE)
    (done : process_yield_update prim peers env message_id payload (prim.keccak256 payload) { s with rest := w } =
      .ok r) : Effect prim peers env s (.execute source_chain message_id source_address payload) r.1 r.2 := by
  simp only [process_yield_update,decode_yield_update_message,require_not_paused,require_message_not_processed,bind_ok,
    load_ok,require_ok,need_ok,callOut_ok,save_ok,pure_ok,Prod.exists,and_assoc,exists_and_left,
    exists_eq_left] at done
  obtain ⟨message,decoded,unpaused,unprocessed,assets,converted,_,_,⟨w',updated,rfl⟩,rfl⟩ := done
  exact .yield_update source_chain message_id source_address payload assets w w'
    ⟨chain,address,approved,unpaused,unprocessed⟩ ⟨kind,message,decoded,converted⟩ updated

theorem execute_effect {source_chain message_id source_address : String} {payload : Bytes}
    {r : Option BridgeEvent × World BridgeHandler W}
    (done : execute prim peers env source_chain message_id source_address payload s = .ok r) :
    Effect prim peers env s (.execute source_chain message_id source_address payload) r.1 r.2 := by
  simp only [execute,bind_ok,load_ok,require_ok,callOut_ok,need_ok,Prod.exists,and_assoc,exists_and_left,
    exists_eq_left] at done
  obtain ⟨chain,address,_,_,⟨w,approved,rfl⟩,rfl,kind,typed,rest⟩ := done
  rcases ite_ok.mp rest with ⟨rfl,ran⟩ | ⟨_,rest⟩
  · exact deposit_effect chain address approved typed ran
  rcases ite_ok.mp rest with ⟨rfl,ran⟩ | ⟨_,ran⟩
  · exact yield_update_effect chain address approved typed ran
  · simp at ran

theorem withdrawal_effect {user : Address} {shares : Int} {eth_recipient : BytesN 32}
    {r : Option BridgeEvent × World BridgeHandler W}
    (done : initiate_withdrawal prim peers env user shares eth_recipient s = .ok r) :
    Effect prim peers env s (.initiate_withdrawal user shares eth_recipient) r.1 r.2 := by
  simp only [initiate_withdrawal,require_not_paused,require_withdrawals_enabled,validate_amount,checked_add,
    encode_withdraw_message,default_gas_token,bind_ok,auth_ok,load_ok,require_ok,need_ok,callOut_ok,save_ok,pure_ok,
    current_epoch_ok,Checked.add_some,Prod.exists,Prod.mk.injEq,and_assoc,exists_and_left,exists_eq_left] at done
  obtain ⟨authorised,unpaused,enabled,nonneg,epochs,fits,capped,_,_,⟨burned,burn,rfl⟩,_,_,⟨value,converted,rfl,rfl⟩,
    _,_,⟨gas_token,found,rfl,rfl⟩,_,_,⟨paid,pay,rfl⟩,_,_,⟨w,sent,rfl⟩,rfl⟩ := done
  exact .withdrawal user shares eth_recipient value _ w ⟨authorised,unpaused,enabled,nonneg,epochs,fits,capped⟩
    converted rfl ⟨gas_token,burned,paid,found,burn,pay,sent⟩

/-- A successful call does what `Effect` says, and nothing else. -/
theorem effect_of_call {entry : Entry} {r : Option BridgeEvent × World BridgeHandler W}
    (done : call prim peers env entry s = .ok r) : Effect prim peers env s entry r.1 r.2 := by
  cases entry with
  | execute source_chain message_id source_address payload => exact execute_effect done
  | register_recipient user evm_address =>
    simp only [call,register_recipient,bind_ok,auth_ok,save_ok,pure_ok] at done
    obtain ⟨_,⟨authorised,rfl⟩,_,rfl,rfl⟩ := done
    exact .register user evm_address authorised
  | initiate_withdrawal user shares eth_recipient => exact withdrawal_effect done
  | set_rate_limits max_mint max_burn epoch_duration =>
    simp only [call,set_rate_limits,bind_ok,require_admin_ok,require_ok,save_ok,pure_ok] at done
    obtain ⟨_,⟨authorised,rfl⟩,_,⟨⟨mint,burn,epochs⟩,rfl⟩,_,rfl,_,rfl,_,rfl,rfl⟩ := done
    exact .configured _ _ _ authorised (.set_rate_limits max_mint max_burn epoch_duration mint burn epochs)
  | pause =>
    simp only [call,pause,set_paused,bind_ok,require_admin_ok,save_ok,pure_ok] at done
    obtain ⟨_,⟨authorised,rfl⟩,_,rfl,rfl⟩ := done
    exact .configured _ _ _ authorised .pause
  | unpause =>
    simp only [call,unpause,set_paused,bind_ok,require_admin_ok,save_ok,pure_ok] at done
    obtain ⟨_,⟨authorised,rfl⟩,_,rfl,rfl⟩ := done
    exact .configured _ _ _ authorised .unpause
  | set_withdrawals_enabled enabled =>
    simp only [call,set_withdrawals_enabled,bind_ok,require_admin_ok,save_ok,pure_ok] at done
    obtain ⟨_,⟨authorised,rfl⟩,_,rfl,rfl⟩ := done
    exact .configured _ _ _ authorised (.set_withdrawals_enabled enabled)
  | set_source_config source_chain source_address =>
    simp only [call,set_source_config,bind_ok,require_admin_ok,save_ok,pure_ok] at done
    obtain ⟨_,⟨authorised,rfl⟩,_,rfl,_,rfl,rfl⟩ := done
    exact .configured _ _ _ authorised (.set_source_config source_chain source_address)
  | set_admin new_admin =>
    simp only [call,set_admin,bind_ok,require_admin_ok,save_ok,pure_ok] at done
    obtain ⟨_,⟨authorised,rfl⟩,_,rfl,rfl⟩ := done
    exact .configured _ _ _ authorised (.set_admin new_admin)

end Effects

end Helix.Bridge
