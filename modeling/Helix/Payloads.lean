import Helix.BridgeSystem

/-!
What a payload has to be for the handler to act on it. Of all byte strings the
handler executes the encodings of deposits and of yield updates whose amounts
fit, byte for byte; everything else leaves the chain as it was, and what the
handler writes itself reads back (`payload_exact`).
-/
namespace Helix.Bridge
open Invoke
open Token (HelixToken)

/-! ### The type byte -/

theorem wordBytes_last (kind : UInt8) : (Abi.wordBytes (ofByte kind)).getLast? = some kind := by
  have bound := kind.toNat_lt
  have small : (ofByte kind).toNat = kind.toNat := by
    rw [ofByte,BitVec.toNat_ofNat]
    omega
  rw [Abi.wordBytes,small,Abi.bigEndian,List.getLast?_append,List.getLast?_singleton,UInt8.ofNat_toNat]
  rfl

/-- The handler sniffs the type that the decoder reads. -/
theorem get_message_type_encode (kind : UInt8) (words : List U256) :
    get_message_type (Abi.encode (ofByte kind :: words)) = some kind := by
  have first : Abi.encode (ofByte kind :: words) = Abi.wordBytes (ofByte kind) ++ Abi.encode words := rfl
  have long : ¬ (Abi.wordBytes (ofByte kind) ++ Abi.encode words).length < 32 := by
    rw [List.length_append,Abi.length_wordBytes]
    omega
  rw [first,get_message_type,if_neg long,List.take_append_of_le_length (by rw [Abi.length_wordBytes]),
    List.take_of_length_le (by rw [Abi.length_wordBytes]),wordBytes_last]

/-! ### What a payload asks for -/

section Asked
variable {prim : Primitives} {payload : Bytes}

/-- A deposit is asked for by the encodings of deposits and by nothing else. -/
theorem deposit_iff (canonical : prim.codec.Canonical) {key : BytesN 32} {shares : Int} :
    Deposit prim payload key shares ↔
      ∃ value nonce, payload = depositPayload key value nonce ∧ u256_to_i128 value = some shares := by
  constructor
  · intro asked
    obtain ⟨message,decoded,same,converted⟩ := asked.decoded
    have exact := (canonical.deposit payload message).mp decoded
    have kind := asked.kind
    rw [exact,DepositMessage.words,get_message_type_encode,Option.some.injEq] at kind
    exact ⟨message.shares,message.nonce,by rw [exact,DepositMessage.words,kind,same,depositPayload],converted⟩
  · intro encoded
    obtain ⟨value,nonce,exact,converted⟩ := encoded
    refine ⟨?_,⟨MESSAGE_TYPE_DEPOSIT,key,value,nonce⟩,(canonical.deposit payload _).mpr exact,rfl,converted⟩
    rw [exact,depositPayload,get_message_type_encode]

/-- A yield update is asked for by the encodings of yield updates and by nothing else. -/
theorem yieldUpdate_iff (canonical : prim.codec.Canonical) {new_total_assets : Int} :
    YieldUpdate prim payload new_total_assets ↔
      ∃ exchangeRate timestamp nonce, payload = yieldPayload exchangeRate timestamp nonce ∧
        u256_to_i128 exchangeRate = some new_total_assets := by
  constructor
  · intro asked
    obtain ⟨message,decoded,converted⟩ := asked.decoded
    have exact := (canonical.yield_update payload message).mp decoded
    have kind := asked.kind
    rw [exact,YieldUpdateMessage.words,get_message_type_encode,Option.some.injEq] at kind
    exact ⟨message.exchangeRate,message.timestamp,message.nonce,
      by rw [exact,YieldUpdateMessage.words,kind,yieldPayload],converted⟩
  · intro encoded
    obtain ⟨exchangeRate,timestamp,nonce,exact,converted⟩ := encoded
    refine ⟨?_,⟨MESSAGE_TYPE_YIELD_UPDATE,exchangeRate,timestamp,nonce⟩,
      (canonical.yield_update payload _).mpr exact,converted⟩
    rw [exact,yieldPayload,get_message_type_encode]

end Asked

theorem length_depositPayload (key : BytesN 32) (shares nonce : U256) : (depositPayload key shares nonce).length = 128 :=
  Abi.length_encode _
theorem length_yieldPayload (exchangeRate timestamp nonce : U256) :
    (yieldPayload exchangeRate timestamp nonce).length = 128 := Abi.length_encode _

/-- A word that converts is the amount, and fits. -/
theorem amount_of_word {value : U256} {amount : Int} (converted : u256_to_i128 value = some amount) :
    amount = value.toNat ∧ value.toNat < 2 ^ 127 := by
  obtain ⟨_,bound,same⟩ := u256_to_i128_some.mp converted
  simp only [i128Max] at bound
  exact ⟨same.symm,by omega⟩

/-! ### What an execution comes to -/

section Settled
variable {O : Type} (prim : Primitives) (axelar : Axelar O) (env : Env)
  (source_chain message_id source_address : String) (payload : Bytes) (s s' : State O)

/-- The three ways an execution ends. The handler accepts a payload that is exactly
    a deposit and mints its shares, or one that is exactly a yield update and sets
    the assets, in the token `t` that the gateway leaves; or it leaves everything
    as it was. -/
inductive Settled : Prop
  | minted (key : BytesN 32) (shares nonce : U256) (recipient : Address) (w : Outside O) (t : HelixToken)
      (exact : payload = depositPayload key shares nonce) (length : payload.length = 128)
      (small : shares.toNat < 2 ^ 127) (resolved : s.own.recipientOf prim key = some recipient)
      (accepted : Accepts prim axelar.peers env s source_chain message_id source_address payload w)
      (found : w.ground.token = some t)
      (own : s'.own = s.own.deposited env (prim.keccak256 payload) shares.toNat)
      (token : s'.rest.ground.token = some (t.minted recipient shares.toNat))
      (outgoing : s'.rest.outgoing = s.rest.outgoing ++
        [.token (.bridge_mint recipient shares.toNat) (some t) (some (t.minted recipient shares.toNat))])
  | rerated (exchangeRate timestamp nonce : U256) (w : Outside O) (t : HelixToken)
      (exact : payload = yieldPayload exchangeRate timestamp nonce) (length : payload.length = 128)
      (positive : 0 < exchangeRate.toNat) (small : exchangeRate.toNat < 2 ^ 127)
      (accepted : Accepts prim axelar.peers env s source_chain message_id source_address payload w)
      (found : w.ground.token = some t)
      (own : s'.own = s.own.write_processed_message (prim.keccak256 payload))
      (token : s'.rest.ground.token = some { t with total_assets := exchangeRate.toNat })
      (outgoing : s'.rest.outgoing = s.rest.outgoing ++
        [.token (.update_exchange_rate exchangeRate.toNat) (some t)
          (some { t with total_assets := exchangeRate.toNat })])
  | refused (same : s' = s)

/-- A payload that is neither a deposit nor a yield update of an amount that fits. -/
structure Malformed : Prop where
  deposit : ∀ key shares nonce, shares.toNat < 2 ^ 127 → payload ≠ depositPayload key shares nonce
  yield_update : ∀ exchangeRate timestamp nonce, 0 < exchangeRate.toNat → exchangeRate.toNat < 2 ^ 127 →
    payload ≠ yieldPayload exchangeRate timestamp nonce

variable {prim axelar env source_chain message_id source_address payload s s'}

/-- What is malformed changes nothing. -/
theorem Settled.malformed (settled : Settled prim axelar env source_chain message_id source_address payload s s')
    (malformed : Malformed payload) : s' = s := by
  cases settled with
  | minted key shares nonce recipient w t exact _ small => exact absurd exact (malformed.deposit key shares nonce small)
  | rerated rate timestamp nonce w t exact _ positive small =>
    exact absurd exact (malformed.yield_update rate timestamp nonce positive small)
  | refused same => exact same

/-- An execution that succeeds does what its payload says, to the letter. -/
theorem settled_of_call (canonical : prim.codec.Canonical) {event : Option BridgeEvent}
    (done : call prim axelar.peers env (.execute source_chain message_id source_address payload) s = .ok (event, s')) :
    Settled prim axelar env source_chain message_id source_address payload s s' := by
  cases effect_of_call done with
  | deposit _ _ _ _ key shares recipient w w' accepted asked within resolved minted =>
    obtain ⟨t,_,found,effect,rfl⟩ := tokenCall_effect minted (by simp)
    cases effect
    obtain ⟨value,nonce,exact,converted⟩ := (deposit_iff canonical).mp asked
    obtain ⟨rfl,small⟩ := amount_of_word converted
    exact .minted key value nonce recipient w t exact (exact ▸ length_depositPayload key value nonce) small resolved
      accepted found rfl rfl (by rw [accepted.gateway.1])
  | yield_update _ _ _ _ assets w w' accepted asked updated =>
    obtain ⟨t,_,found,effect,rfl⟩ := tokenCall_effect updated (by simp)
    cases effect with
    | update_exchange_rate _ positive =>
      obtain ⟨rate,timestamp,nonce,exact,converted⟩ := (yieldUpdate_iff canonical).mp asked
      obtain ⟨rfl,small⟩ := amount_of_word converted
      exact .rerated rate timestamp nonce w t exact (exact ▸ length_yieldPayload rate timestamp nonce) (by omega) small
        accepted found rfl rfl (by rw [accepted.gateway.1])
  | configured entry event h authorised own => exact absurd rfl (own.not_execute _ _ _ _)

end Settled

/-! ### What the handler writes -/

/-- A withdrawal is written in its own words and read back in them. -/
theorem encode_withdraw_message_ok {prim : Primitives} (canonical : prim.codec.Canonical) {W : Type}
    (s : World BridgeHandler W) (eth_recipient : BytesN 32) {shares : Int} {nonce : Nat} (nonneg : 0 ≤ shares)
    (fits : shares ≤ i128Max) (small : nonce < 2 ^ 128) :
    ∃ payload message, encode_withdraw_message prim eth_recipient shares nonce s = .ok (payload, s) ∧
      payload = Abi.encode message.words ∧ prim.codec.decode_withdraw payload = some message ∧
      message.messageType = MESSAGE_TYPE_WITHDRAW ∧ message.ethRecipient = eth_recipient ∧
      u256_to_i128 message.shares = some shares ∧ message.nonce.toNat = nonce := by
  have written : i128_to_u256 shares = some (BitVec.ofNat 256 shares.toNat) := if_pos nonneg
  refine ⟨_,⟨MESSAGE_TYPE_WITHDRAW,eth_recipient,BitVec.ofNat 256 shares.toNat,BitVec.ofNat 256 nonce⟩,?_,
    canonical.encodes _,?_,rfl,rfl,u256_of_i128 fits written,?_⟩
  · simp only [encode_withdraw_message,bind_ok,need_ok,pure_ok,written]
    exact ⟨(BitVec.ofNat 256 shares.toNat,s),⟨rfl,rfl⟩,rfl⟩
  · rw [canonical.encodes]
    exact (canonical.withdraw _ _).mpr rfl
  · rw [BitVec.toNat_ofNat]
    omega

/-- The handler's execution of a payload, whatever state it is in. -/
def execution {O : Type} (prim : Primitives) (axelar : Axelar O) (handler : Address) (c : Chain (State O))
    (origin : Origin) (source_chain message_id source_address : String) (payload : Bytes) : Turned O :=
  transition (serve prim axelar handler) c
    (origin,.handler (.execute source_chain message_id source_address payload))

/-- Whatever state the handler is in and whoever hands it a payload: it mints
    exactly what an exact deposit says, sets exactly the assets of an exact yield
    update, and changes nothing for any other payload; and what it writes for a
    withdrawal reads back. -/
theorem payload_exact {prim : Primitives} (canonical : prim.codec.Canonical) :
    (∀ (O : Type) (axelar : Axelar O) (handler : Address) (c : Chain (State O)) (origin : Origin)
      (source_chain message_id source_address : String) (payload : Bytes) (r : Turned O),
      r = execution prim axelar handler c origin source_chain message_id source_address payload →
        Settled prim axelar (r.env handler) source_chain message_id source_address payload c.state r.after.state ∧
          (Malformed payload → r.after.state = c.state)) ∧
      (∀ (W : Type) (s : World BridgeHandler W) (eth_recipient : BytesN 32) (shares : Int) (nonce : Nat),
        0 ≤ shares → shares ≤ i128Max → nonce < 2 ^ 128 →
        ∃ payload message, encode_withdraw_message prim eth_recipient shares nonce s = .ok (payload, s) ∧
          payload = Abi.encode message.words ∧ prim.codec.decode_withdraw payload = some message ∧
          message.messageType = MESSAGE_TYPE_WITHDRAW ∧ message.ethRecipient = eth_recipient ∧
          u256_to_i128 message.shares = some shares ∧ message.nonce.toNat = nonce) := by
  constructor
  · intro O axelar handler c origin source_chain message_id source_address payload r made
    have makes : Makes (serve prim axelar handler) r := made ▸ transition_makes _ _
    have before : r.before = c := by rw [made]; rfl
    have input : r.input.2 = .handler (.execute source_chain message_id source_address payload) := by rw [made]; rfl
    have settled : Settled prim axelar (r.env handler) source_chain message_id source_address payload c.state
        r.after.state := by
      rcases Delivery.cases makes with ⟨event,_,ran⟩ | ⟨_,_,same⟩
      · rw [input,before] at ran
        exact settled_of_call canonical ran
      · rw [before] at same
        exact .refused same
    exact ⟨settled,settled.malformed⟩
  · intro W s eth_recipient shares nonce nonneg fits small
    exact encode_withdraw_message_ok canonical s eth_recipient nonneg fits small

namespace Small

/-- The small chain with a recipient, and the execution of a payload there. -/
def registered : Chain (State Unit) := run step start [registers userA]
def execution (payload : Bytes) : Turned Unit :=
  Bridge.execution primitives axelar handler registered (.signedBy admin) "ethereum" "m1" "0xHelixVault" payload

theorem malformed_empty : Malformed [] where
  deposit := by
    intro key shares nonce _ same
    have length := length_depositPayload key shares nonce
    rw [← same] at length
    cases length
  yield_update := by
    intro exchangeRate timestamp nonce _ _ same
    have length := length_yieldPayload exchangeRate timestamp nonce
    rw [← same] at length
    cases length

end Small

theorem payload_exact_small :
    Small.supplyAfter [Small.registers Small.userA,Small.executes "m1" (depositPayload Small.key 10 0)] = some 10 ∧
      Settled Small.primitives Small.axelar ((Small.execution (depositPayload Small.key 10 0)).env Small.handler) "ethereum"
        "m1" "0xHelixVault" (depositPayload Small.key 10 0) Small.registered.state
        (Small.execution (depositPayload Small.key 10 0)).after.state ∧
      (Small.execution []).after.state = Small.registered.state ∧
      ∃ payload message, encode_withdraw_message Small.primitives Small.key 4 5 Small.start.state =
        .ok (payload, Small.start.state) ∧ payload = Abi.encode message.words ∧
          Small.primitives.codec.decode_withdraw payload = some message ∧
          message.messageType = MESSAGE_TYPE_WITHDRAW ∧ message.ethRecipient = Small.key ∧
          u256_to_i128 message.shares = some 4 ∧ message.nonce.toNat = 5 := by
  have exact := @payload_exact Small.primitives abiCodec_canonical
  exact ⟨by decide +kernel,(exact.1 _ _ _ _ _ _ _ _ _ _ rfl).1,(exact.1 _ _ _ _ _ _ _ _ _ _ rfl).2 Small.malformed_empty,
    exact.2 _ _ _ 4 5 (by decide) (by decide) (by decide)⟩

end Helix.Bridge
