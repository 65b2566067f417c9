import Helix.Bridge
import Helix.TokenSupply

/-!
The bridge handler together with the share token it is the bridge of. Axelar's
gateway and gas service are any code at all: they answer what they like and may
do anything to the token and to the rest of the chain on the way. What the
handler itself calls is kept as a record, so that its own share in what happens
can be told from that of others (`Turn`, `turn_of_call`).
-/
namespace Helix.Bridge
open Invoke
open Token (HelixToken)

/-- Everything outside the handler: the token and the rest of the chain. -/
structure Ground (O : Type) where
  token : Option HelixToken
  others : O

/-- A call of the handler that returned: to the token, with the token before and
    after it, or a message handed to the gateway. -/
inductive Outgoing where
  | token (entry : Token.Entry) (before after : Option HelixToken)
  | wire (destination_chain destination_address : String) (payload : Bytes)

/-- What is outside the handler, and the record of its calls. -/
structure Outside (O : Type) where
  ground : Ground O
  outgoing : List Outgoing

/-- The gateway and the gas service. -/
structure Axelar (O : Type) where
  validate_message : Env → Address → String → String → String → BytesN 32 → Ground O → Option (Bool × Ground O)
  call_contract : Env → Address → String → String → Bytes → Ground O → Option (Unit × Ground O)
  pay_gas : Env → Address → String → String → Bytes → Address → GasToken → Bytes → Ground O →
    Option (Unit × Ground O)

variable {O : Type}

/-- A call of the handler to the token. -/
def Outside.tokenCall (env : Env) (entry : Token.Entry) (w : Outside O) : Option (Unit × Outside O) :=
  match Token.invoke env entry w.ground.token with
  | .ok (_, t) => some ((), ⟨{ w.ground with token := t },w.outgoing ++ [.token entry w.ground.token t]⟩)
  | .error _ => none

/-- The contracts the handler calls, where the token is the one of `Helix.Token`. -/
def Axelar.peers (axelar : Axelar O) : Peers (Outside O) where
  validate_message env caller source_chain message_id source_address payload_hash w :=
    (axelar.validate_message env caller source_chain message_id source_address payload_hash w.ground).map
      (fun r => (r.1,{ w with ground := r.2 }))
  call_contract env caller destination_chain destination_address payload w :=
    (axelar.call_contract env caller destination_chain destination_address payload w.ground).map
      (fun r => ((),⟨r.2,w.outgoing ++ [.wire destination_chain destination_address payload]⟩))
  pay_gas env sender destination_chain destination_address payload spender token metadata w :=
    (axelar.pay_gas env sender destination_chain destination_address payload spender token metadata w.ground).map
      (fun r => ((),{ w with ground := r.2 }))
  bridge_mint env recipient shares := Outside.tokenCall env (.bridge_mint recipient shares)
  bridge_burn env owner shares := Outside.tokenCall env (.bridge_burn owner shares)
  update_exchange_rate env new_total_assets := Outside.tokenCall env (.update_exchange_rate new_total_assets)

/-- What happens on the chain: a call to the handler, or anything anybody else
    does to the token and the rest. -/
inductive Action (O : Type) where
  | handler (entry : Entry)
  | elsewhere (change : Ground O → Ground O)

abbrev State (O : Type) : Type := World BridgeHandler (Outside O)

def act (prim : Primitives) (axelar : Axelar O) (env : Env) :
    Action O → Invoke (State O) BridgeHandlerError (Option BridgeEvent)
  | .handler entry => call prim axelar.peers env entry
  | .elsewhere change => do
    write (fun s => { s with rest := { s.rest with ground := change s.rest.ground } })
    pure none

/-- The chain with the handler on it. -/
abbrev serve (prim : Primitives) (axelar : Axelar O) (handler : Address) :
    Chain (State O) → Origin × Action O → Except (Failure BridgeHandlerError) (Option BridgeEvent) × Chain (State O) :=
  deliver handler (act prim axelar)

/-- A handler that was just deployed and has called nothing yet. -/
def deployed (clock : Clock) (admin gateway gas_service token vault : Address) (source_chain source_address : String)
    (ground : Ground O) : Chain (State O) :=
  ⟨clock,construct admin gateway gas_service token vault source_chain source_address,ground,[]⟩

/-- The handler's calls so far. -/
def called (c : Chain (State O)) : List Outgoing := c.state.rest.outgoing

/-- A transition of the system. -/
abbrev Turned (O : Type) : Type := Delivery (State O) BridgeHandlerError (Action O) (Option BridgeEvent)

/-- The payload of an execution that succeeded. -/
def executedPayload (r : Turned O) : Option Bytes :=
  match r.input.2, r.output with
  | .handler (.execute _ _ _ payload), .ok _ => some payload
  | _, _ => none

/-- The payloads executed so far, in order. -/
def executedPayloads (past : List (Turned O)) : List Bytes := past.filterMap executedPayload

/-- What a successful call to the handler does: to the handler, to the record of
    its calls and to the token. -/
inductive Turn (prim : Primitives) (axelar : Axelar O) (env : Env) (s s' : State O) :
    Entry → Option BridgeEvent → Prop
  | deposit (source_chain message_id source_address : String) (payload : Bytes) (stellarRecipient : BytesN 32)
      (shares : Int) (recipient : Address) (w : Outside O) (t : HelixToken)
      (accepted : Accepts prim axelar.peers env s source_chain message_id source_address payload w)
      (asked : Deposit prim payload stellarRecipient shares)
      (resolved : s.own.recipientOf prim stellarRecipient = some recipient)
      (own : s'.own = s.own.deposited env (prim.keccak256 payload) shares)
      (found : w.ground.token = some t)
      (token : s'.rest.ground.token = some (t.minted recipient shares))
      (outgoing : s'.rest.outgoing = s.rest.outgoing ++
        [.token (.bridge_mint recipient shares) (some t) (some (t.minted recipient shares))]) :
      Turn prim axelar env s s' (.execute source_chain message_id source_address payload)
        (some (.deposit_processed recipient shares message_id (prim.keccak256 payload)))
  | yield_update (source_chain message_id source_address : String) (payload : Bytes) (new_total_assets : Int)
      (w : Outside O) (t : HelixToken)
      (accepted : Accepts prim axelar.peers env s source_chain message_id source_address payload w)
      (asked : YieldUpdate prim payload new_total_assets)
      (own : s'.own = s.own.write_processed_message (prim.keccak256 payload))
      (found : w.ground.token = some t)
      (token : s'.rest.ground.token = some { t with total_assets := new_total_assets })
      (outgoing : s'.rest.outgoing = s.rest.outgoing ++
        [.token (.update_exchange_rate new_total_assets) (some t) (some { t with total_assets := new_total_assets })]) :
      Turn prim axelar env s s' (.execute source_chain message_id source_address payload)
        (some (.yield_updated new_total_assets message_id (prim.keccak256 payload)))
  | withdrawal (user : Address) (shares : Int) (eth_recipient : BytesN 32) (value : U256) (payload : Bytes)
      (t : HelixToken) (allowed : Withdraws env s user shares) (converted : i128_to_u256 shares = some value)
      (encoded : payload = prim.codec.encode_withdraw (withdrawMessage env s.own eth_recipient value))
      (own : s'.own = s.own.withdrawn env shares)
      (outgoing : s'.rest.outgoing = s.rest.outgoing ++
        [.token (.bridge_burn user shares) (some t) (some (t.burned user shares)),
          .wire s.own.source_chain s.own.source_address payload]) :
      Turn prim axelar env s s' (.initiate_withdrawal user shares eth_recipient)
        (some (.withdrawal_initiated user shares eth_recipient (prim.keccak256 payload)))
  | register (user : Address) (evm_address : BytesN 32) (authorised : env.Authorised user)
      (own : s'.own = s.own.write_recipient_mapping evm_address user) (rest : s'.rest = s.rest) :
      Turn prim axelar env s s' (.register_recipient user evm_address) (some (.recipient_registered user evm_address))
  | configured (entry : Entry) (event : Option BridgeEvent) (authorised : env.Authorised s.own.admin)
      (own : Configured s.own entry event s'.own) (rest : s'.rest = s.rest) : Turn prim axelar env s s' entry event

/-! ### The token's part of a turn -/

/-- A call to the token that does not initialize one finds one, and is recorded. -/
theorem tokenCall_effect {env : Env} {entry : Token.Entry} {w w' : Outside O}
    (called : Outside.tokenCall env entry w = some ((), w'))
    (existing : ∀ admin vault bridge, entry ≠ .initialise admin vault bridge) :
    ∃ t u, w.ground.token = some t ∧ Token.Effect env t entry u ∧
      w' = ⟨{ w.ground with token := some u },w.outgoing ++ [.token entry (some t) (some u)]⟩ := by
  unfold Outside.tokenCall at called
  split at called
  · rename_i r t' ran
    cases called
    rcases Token.invoke_cases ran with ⟨t,u,found,rfl,effect⟩ | ⟨_,admin,vault,bridge,same,_⟩
    · exact ⟨t,u,found,effect,by rw [found]⟩
    · exact absurd same (existing admin vault bridge)
  · cases called

section Turns
variable {prim : Primitives} {axelar : Axelar O} {env : Env} {s : State O}

/-- The gateway's own part of an accepted message. -/
theorem Accepts.gateway {source_chain message_id source_address : String} {payload : Bytes} {w : Outside O}
    (accepted : Accepts prim axelar.peers env s source_chain message_id source_address payload w) :
    w.outgoing = s.rest.outgoing ∧
      axelar.validate_message (env.calling s.own.gateway) env.current_contract_address source_chain message_id
        source_address (prim.keccak256 payload) s.rest.ground = some (true, w.ground) := by
  obtain ⟨r,answered,same⟩ := Option.map_eq_some_iff.mp accepted.approved
  obtain ⟨answer,ground⟩ := r
  cases same
  exact ⟨rfl,answered⟩

/-- The record a sent withdrawal leaves. -/
theorem Sends.outgoing {user : Address} {shares : Int} {payload : Bytes} {w : Outside O}
    (sent : Sends prim axelar.peers env s user shares payload w) :
    ∃ t : HelixToken, w.outgoing = s.rest.outgoing ++
      [.token (.bridge_burn user shares) (some t) (some (t.burned user shares)),
        .wire s.own.source_chain s.own.source_address payload] := by
  obtain ⟨_,burned,paid,_,burn,pay,handed⟩ := sent.steps
  obtain ⟨t,_,_,effect,rfl⟩ := tokenCall_effect burn (by simp)
  cases effect
  obtain ⟨_,_,same⟩ := Option.map_eq_some_iff.mp pay
  cases same
  obtain ⟨_,_,same⟩ := Option.map_eq_some_iff.mp handed
  cases same
  exact ⟨t,List.append_assoc _ _ _⟩

/-- A successful call to the handler is a turn. -/
theorem turn_of_call {entry : Entry} {event : Option BridgeEvent} {s' : State O}
    (done : call prim axelar.peers env entry s = .ok (event, s')) : Turn prim axelar env s s' entry event := by
  cases effect_of_call done with
  | deposit chain id address payload stellarRecipient shares recipient w w' accepted asked within resolved minted =>
    obtain ⟨t,_,found,effect,rfl⟩ := tokenCall_effect minted (by simp)
    cases effect
    exact .deposit chain id address payload stellarRecipient shares recipient w t accepted asked resolved rfl found rfl
      (by rw [accepted.gateway.1])
  | yield_update chain id address payload assets w w' accepted asked updated =>
    obtain ⟨t,_,found,effect,rfl⟩ := tokenCall_effect updated (by simp)
    cases effect
    exact .yield_update chain id address payload assets w t accepted asked rfl found rfl
      (by rw [accepted.gateway.1])
  | register user evm_address authorised => exact .register user evm_address authorised rfl rfl
  | withdrawal user shares eth_recipient value payload w allowed converted encoded sent =>
    obtain ⟨t,outgoing⟩ := sent.outgoing
    exact .withdrawal user shares eth_recipient value payload t allowed converted encoded rfl outgoing
  | configured entry event h authorised own => exact .configured _ _ authorised own rfl

/-- A transition was a turn of the handler, something elsewhere, or nothing. -/
theorem turned_cases {handler : Address} {r : Turned O} (makes : Makes (serve prim axelar handler) r) :
    (∃ entry event, r.input.2 = .handler entry ∧ r.output = .ok event ∧
        Turn prim axelar (r.env handler) r.before.state r.after.state entry event) ∨
      (∃ change, r.input.2 = .elsewhere change ∧ r.output = .ok none ∧ r.after.state.own = r.before.state.own ∧
        r.after.state.rest.outgoing = r.before.state.rest.outgoing) ∨
      (∃ e, r.output = .error e ∧ r.after.state = r.before.state) := by
  rcases Delivery.cases makes with ⟨event,out,ran⟩ | ⟨e,out,same⟩
  · cases input : r.input.2 with
    | handler entry =>
      rw [input] at ran
      exact .inl ⟨entry,event,rfl,out,turn_of_call ran⟩
    | elsewhere change =>
      rw [input] at ran
      simp only [act,bind_ok,write_ok,pure_ok,exists_eq_left,Prod.mk.injEq] at ran
      refine .inr (.inl ⟨change,rfl,by rw [out,ran.1],?_,?_⟩)
      · rw [ran.2]
      · rw [ran.2]
  · exact .inr (.inr ⟨e,out,same⟩)

end Turns

/-! ### A small chain

One handler, its token and a gateway that approves whatever it is asked, with the
hashes of the four payloads that the runs over it exchange. -/

def depositPayload (key : BytesN 32) (shares nonce : U256) : Bytes :=
  Abi.encode [ofByte MESSAGE_TYPE_DEPOSIT,ofBytes32 key,shares,nonce]

def yieldPayload (exchangeRate timestamp nonce : U256) : Bytes :=
  Abi.encode [ofByte MESSAGE_TYPE_YIELD_UPDATE,exchangeRate,timestamp,nonce]

namespace Small

def admin : Address := .account (BytesN.fill 32 1)
def userA : Address := .account (BytesN.fill 32 2)
def userB : Address := .account (BytesN.fill 32 3)
def gateway : Address := .contract (BytesN.fill 32 4)
def gas_service : Address := .contract (BytesN.fill 32 5)
def token : Address := .contract (BytesN.fill 32 6)
def handler : Address := .contract (BytesN.fill 32 9)
def key : BytesN 32 := BytesN.fill 32 7

/-- Keccak-256 on the payloads of the small chain. -/
def hashes : List (Bytes × U256) :=
  [(depositPayload key 10 0,0x3d1dff60d4e249b50dd72a445f8fd5351c6fbea5fd8deddc6e2b3a6cb4f9dc9a),
    (abiCodec.encode_withdraw ⟨MESSAGE_TYPE_WITHDRAW,BytesN.fill 32 8,4,0x50000000000000000⟩,
      0x8f603c26651d5b2f00c8225b85cb9a1cf95dc00782e147c54cad404d142051ee),
    (yieldPayload 200 2 0,0x87147e3193c6568e1d83220db389ed5e5774dcaa80117f8fa02117dd24b12eab),
    (yieldPayload 100 1 1,0x179ecdaf2b74ad6d43ffe73945bebabe2818f015db943a462778704675fa3601)]

def primitives : Primitives where
  keccak256 payload := toBytes32 (((hashes.find? (fun p => p.1 = payload)).map (fun p => p.2)).getD 0)
  address_from_str text :=
    if text = GAS_TOKEN_ADDRESS then
      some (.contract (toBytes32 0xd7928b72c2703ccfeaf7eb9ff4ef4d504a55a8b979fc9b450ea2c842b4d1ce61))
    else none
  codec := abiCodec

def axelar : Axelar Unit where
  validate_message _ _ _ _ _ _ ground := some (true, ground)
  call_contract _ _ _ _ _ ground := some ((), ground)
  pay_gas _ _ _ _ _ _ _ _ ground := some ((), ground)

def start : Chain (State Unit) :=
  deployed ⟨0,0⟩ admin gateway gas_service token token "ethereum" "0xHelixVault"
    ⟨some (Token.fresh admin token handler),()⟩

abbrev step : Chain (State Unit) → Origin × Action Unit → Except (Failure BridgeHandlerError) (Option BridgeEvent) ×
    Chain (State Unit) := serve primitives axelar handler

/-- Anybody hands a payload from the configured source to the handler. -/
def executes (message_id : String) (payload : Bytes) : Origin × Action Unit :=
  (.signedBy admin,.handler (.execute "ethereum" message_id "0xHelixVault" payload))
def registers (user : Address) : Origin × Action Unit := (.signedBy user,.handler (.register_recipient user key))

/-- The supply at the end of a run. -/
def supplyAfter (calls : List (Origin × Action Unit)) : Option Int :=
  (run step start calls).state.rest.ground.token.map (fun t => t.total_shares)

end Small

end Helix.Bridge
