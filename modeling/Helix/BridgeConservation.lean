import Helix.BridgeSystem

/-!
What goes over the bridge is conserved. In every run of the handler with the
token, whoever calls what and whatever the gateway answers, the handler moved
the supply by the shares of the deposits it executed, each payload once, less
the shares of the withdrawals it sent out (`conservation`).
-/
namespace Helix.Bridge
open Invoke
open Token (HelixToken)

/-- The supply of a token; one that does not exist has none. -/
def supplyOf (t : Option HelixToken) : Int := (t.map (fun t => t.total_shares)).getD 0

namespace Outgoing

/-- By how much a call moved the supply. -/
def supplyChange : Outgoing → Int
  | .token _ before after => supplyOf after - supplyOf before
  | .wire _ _ _ => 0

/-- The shares of a call to `bridge_burn`. -/
def burnedShares : Outgoing → Option Int
  | .token (.bridge_burn _ shares) _ _ => some shares
  | _ => none

/-- The payload of a message handed to the gateway. -/
def wirePayload : Outgoing → Option Bytes
  | .wire _ _ payload => some payload
  | _ => none

variable (entry : Token.Entry) (before after : Option HelixToken) (user : Address) (shares : Int)
  (chain address : String) (payload : Bytes)

@[simp] theorem supplyChange_token : supplyChange (.token entry before after) = supplyOf after - supplyOf before := rfl
@[simp] theorem supplyChange_wire : supplyChange (.wire chain address payload) = 0 := rfl
@[simp] theorem burnedShares_burn :
    burnedShares (.token (.bridge_burn user shares) before after) = some shares := rfl
@[simp] theorem burnedShares_wire : burnedShares (.wire chain address payload) = none := rfl
@[simp] theorem wirePayload_token : wirePayload (.token entry before after) = none := rfl
@[simp] theorem wirePayload_wire : wirePayload (.wire chain address payload) = some payload := rfl

end Outgoing

@[simp] theorem supplyOf_some (t : HelixToken) : supplyOf (some t) = t.total_shares := rfl

section Accounts
variable {O : Type} (prim : Primitives)

def IsDeposit (payload : Bytes) : Prop := get_message_type payload = some MESSAGE_TYPE_DEPOSIT

instance (payload : Bytes) : Decidable (IsDeposit payload) := inferInstanceAs (Decidable (_ = _))

/-- The deposit payloads executed so far. -/
def executedDeposits (past : List (Turned O)) : List Bytes := (executedPayloads past).filter (fun p => IsDeposit p)

/-- The shares a deposit payload carries. -/
def depositShares (payload : Bytes) : Int :=
  ((prim.codec.decode_deposit payload).bind (fun message => u256_to_i128 message.shares)).getD 0

/-- The shares that the payload with a hash carries. -/
def sharesOfHash (payloads : List Bytes) (hash : BytesN 32) : Int :=
  ((payloads.find? (fun p => prim.keccak256 p = hash)).map (depositShares prim)).getD 0

/-- The shares of a set of deposits, by the distinct hashes of their payloads. -/
def depositedShares (payloads : List Bytes) : Int :=
  ∑ hash ∈ (payloads.map prim.keccak256).toFinset, sharesOfHash prim payloads hash

/-- The shares a payload on the wire carries. -/
def wireShares (payload : Bytes) : Option Int :=
  (prim.codec.decode_withdraw payload).bind (fun message => u256_to_i128 message.shares)

/-- The gateway approved an execution for exactly what it was called with, and
    that was the configured source. -/
def ApprovedExecution (axelar : Axelar O) (handler : Address) (r : Turned O) : Prop :=
  ∀ source_chain message_id source_address payload event,
    r.input.2 = .handler (.execute source_chain message_id source_address payload) → r.output = .ok event →
    source_chain = r.before.state.own.source_chain ∧ source_address = r.before.state.own.source_address ∧
      ∃ after, axelar.validate_message ((r.env handler).calling r.before.state.own.gateway) handler source_chain message_id
        source_address (prim.keccak256 payload) r.before.state.rest.ground = some (true, after)

/-- The accounts of a run: of what was executed so far and what the handler
    called for it. -/
structure Conserved (axelar : Axelar O) (handler : Address) (past : List (Turned O)) (calls : List Outgoing) : Prop where
  supply : (calls.map Outgoing.supplyChange).sum = depositedShares prim (executedDeposits past) -
    ((calls.filterMap Outgoing.wirePayload).map (fun p => (wireShares prim p).getD 0)).sum
  once : ((executedPayloads past).map prim.keccak256).Nodup
  approved : ∀ r ∈ past, ApprovedExecution prim axelar handler r
  matched : (calls.filterMap Outgoing.burnedShares).map some =
    (calls.filterMap Outgoing.wirePayload).map (wireShares prim)

end Accounts

section Books
variable {O : Type} {prim : Primitives} {axelar : Axelar O} {handler : Address}

/-! ### Shares by hash -/

theorem depositShares_of {payload : Bytes} {stellarRecipient : BytesN 32} {shares : Int}
    (asked : Deposit prim payload stellarRecipient shares) : depositShares prim payload = shares := by
  obtain ⟨message,decoded,_,converted⟩ := asked.decoded
  simp [depositShares,decoded,converted]

theorem sharesOfHash_old {payloads : List Bytes} {payload : Bytes} {hash : BytesN 32}
    (known : hash ∈ payloads.map prim.keccak256) :
    sharesOfHash prim (payloads ++ [payload]) hash = sharesOfHash prim payloads hash := by
  obtain ⟨p,member,same⟩ := List.mem_map.mp known
  have found : (payloads.find? (fun p => prim.keccak256 p = hash)).isSome = true := by
    rw [List.find?_isSome]
    exact ⟨p,member,by simpa using same⟩
  obtain ⟨q,first⟩ := Option.isSome_iff_exists.mp found
  simp [sharesOfHash,List.find?_append,first]

theorem sharesOfHash_new {payloads : List Bytes} {payload : Bytes}
    (fresh : prim.keccak256 payload ∉ payloads.map prim.keccak256) :
    sharesOfHash prim (payloads ++ [payload]) (prim.keccak256 payload) = depositShares prim payload := by
  have none : payloads.find? (fun p => prim.keccak256 p = prim.keccak256 payload) = none := by
    rw [List.find?_eq_none]
    intro p member
    simpa using fun same => fresh (List.mem_map.mpr ⟨p,member,same⟩)
  simp [sharesOfHash,List.find?_append,none]

/-- One more deposit with a new hash adds its shares. -/
theorem depositedShares_append {payloads : List Bytes} {payload : Bytes}
    (fresh : prim.keccak256 payload ∉ payloads.map prim.keccak256) :
    depositedShares prim (payloads ++ [payload]) = depositedShares prim payloads + depositShares prim payload := by
  have hashes : ((payloads ++ [payload]).map prim.keccak256).toFinset =
      insert (prim.keccak256 payload) (payloads.map prim.keccak256).toFinset := by
    ext hash
    simp
  have absent : prim.keccak256 payload ∉ (payloads.map prim.keccak256).toFinset := by simpa using fresh
  have others : ∑ hash ∈ (payloads.map prim.keccak256).toFinset, sharesOfHash prim (payloads ++ [payload]) hash =
      depositedShares prim payloads :=
    Finset.sum_congr rfl (fun hash member => sharesOfHash_old (List.mem_toFinset.mp member))
  rw [depositedShares,hashes,Finset.sum_insert absent,others,sharesOfHash_new fresh,add_comm]

/-! ### The accounts through one transition -/

theorem executedPayloads_append (past : List (Turned O)) (r : Turned O) :
    executedPayloads (past ++ [r]) = executedPayloads past ++ (executedPayload r).toList := by
  cases executed : executedPayload r <;> simp [executedPayloads,executed]

/-- What is executed was an approved execution, or there is nothing to approve. -/
theorem approved_of_idle {r : Turned O} (idle : executedPayload r = none) : ApprovedExecution prim axelar handler r := by
  intro chain id address payload event input out
  simp [executedPayload,input,out] at idle

/-- Nothing is executed and nothing called. -/
theorem Conserved.idle {past : List (Turned O)} {calls : List Outgoing} {r : Turned O}
    (conserved : Conserved prim axelar handler past calls) (idle : executedPayload r = none) :
    Conserved prim axelar handler (past ++ [r]) calls where
  supply := by simpa [executedDeposits,executedPayloads_append,idle] using conserved.supply
  once := by simpa [executedPayloads_append,idle] using conserved.once
  approved := List.forall_mem_append.mpr
    ⟨conserved.approved,List.forall_mem_singleton.mpr (approved_of_idle idle)⟩
  matched := conserved.matched

/-- A payload with a new hash is executed and the token called. -/
theorem Conserved.executed {past : List (Turned O)} {calls : List Outgoing} {r : Turned O} {payload : Bytes}
    {entry : Token.Entry} {t u : HelixToken} (conserved : Conserved prim axelar handler past calls)
    (ran : executedPayload r = some payload)
    (fresh : prim.keccak256 payload ∉ (executedPayloads past).map prim.keccak256)
    (approved : ApprovedExecution prim axelar handler r)
    (moved : u.total_shares - t.total_shares = if IsDeposit payload then depositShares prim payload else 0)
    (burnless : Outgoing.burnedShares (.token entry (some t) (some u)) = none) :
    Conserved prim axelar handler (past ++ [r]) (calls ++ [.token entry (some t) (some u)]) where
  supply := by
    have before := conserved.supply
    have unseen : prim.keccak256 payload ∉ (executedDeposits past).map prim.keccak256 := fun member =>
      fresh (List.map_subset _ (fun _ => List.mem_of_mem_filter) member)
    by_cases deposit : IsDeposit payload
    · rw [if_pos deposit] at moved
      have deposits : executedDeposits (past ++ [r]) = executedDeposits past ++ [payload] := by
        simp [executedDeposits,executedPayloads_append,ran,deposit]
      rw [deposits,depositedShares_append unseen]
      simp only [List.map_append,List.sum_append,List.filterMap_append,before]
      simp [List.filterMap_cons]
      omega
    · rw [if_neg deposit] at moved
      have deposits : executedDeposits (past ++ [r]) = executedDeposits past := by
        simp [executedDeposits,executedPayloads_append,ran,deposit]
      rw [deposits]
      simp only [List.map_append,List.sum_append,List.filterMap_append,before]
      simp [List.filterMap_cons]
      omega
  once := by
    rw [executedPayloads_append,ran]
    simpa [List.nodup_append,conserved.once] using fresh
  approved := List.forall_mem_append.mpr ⟨conserved.approved,List.forall_mem_singleton.mpr approved⟩
  matched := by
    simpa [List.filterMap_append,List.filterMap_cons,burnless] using conserved.matched

/-- A withdrawal burns and sends what it burned. -/
theorem Conserved.withdrawn {past : List (Turned O)} {calls : List Outgoing} {r : Turned O} {user : Address}
    {shares : Int} {t : HelixToken} {chain address : String} {payload : Bytes}
    (conserved : Conserved prim axelar handler past calls) (idle : executedPayload r = none)
    (carries : wireShares prim payload = some shares) :
    Conserved prim axelar handler (past ++ [r]) (calls ++
      [.token (.bridge_burn user shares) (some t) (some (t.burned user shares)),.wire chain address payload]) where
  supply := by
    have before := (conserved.idle idle).supply
    simp only [List.map_append,List.sum_append,List.filterMap_append,before]
    simp [List.filterMap_cons,HelixToken.burned,carries]
    omega
  once := (conserved.idle idle).once
  approved := (conserved.idle idle).approved
  matched := by
    simpa [List.filterMap_append,List.filterMap_cons,carries] using conserved.matched

/-! ### Whole runs -/

/-- The accounts, and what the handler has to know to keep them. -/
structure Books (prim : Primitives) (axelar : Axelar O) (handler : Address) (past : List (Turned O)) (s : State O) :
    Prop where
  conserved : Conserved prim axelar handler past s.rest.outgoing
  processed : ∀ payload ∈ executedPayloads past, s.own.processed_message (prim.keccak256 payload) = true
  burns : ∀ epoch, 0 ≤ s.own.read_epoch_burns epoch

variable {past : List (Turned O)} {r : Turned O} {s s' : State O}

/-- A payload whose hash is not marked was not executed. -/
theorem Books.fresh (books : Books prim axelar handler past s) {payload : Bytes}
    (unprocessed : s.own.processed_message (prim.keccak256 payload) = false) :
    prim.keccak256 payload ∉ (executedPayloads past).map prim.keccak256 := by
  intro member
  obtain ⟨p,executed,same⟩ := List.mem_map.mp member
  have marked := books.processed p executed
  rw [same,unprocessed] at marked
  cases marked

/-- Nothing is executed, nothing called, and the handler keeps what it knows. -/
theorem Books.idle (books : Books prim axelar handler past s) (idle : executedPayload r = none)
    (outgoing : s'.rest.outgoing = s.rest.outgoing) (processed : s'.own.processed_message = s.own.processed_message)
    (burns : ∀ epoch, s'.own.read_epoch_burns epoch = s.own.read_epoch_burns epoch) :
    Books prim axelar handler (past ++ [r]) s' where
  conserved := by
    rw [outgoing]
    exact books.conserved.idle idle
  processed := by
    rw [processed]
    simpa [executedPayloads_append,idle] using books.processed
  burns := by
    intro epoch
    rw [burns]
    exact books.burns epoch

/-- A marked payload joins the executed ones. -/
theorem Books.marked (books : Books prim axelar handler past s) {payload : Bytes}
    (ran : executedPayload r = some payload) (marked : ∀ k, s'.own.processed_message k =
      if k = prim.keccak256 payload then true else s.own.processed_message k) :
    ∀ p ∈ executedPayloads (past ++ [r]), s'.own.processed_message (prim.keccak256 p) = true := by
  intro p member
  rw [executedPayloads_append,ran] at member
  rw [marked]
  split
  · rfl
  · rename_i other
    rcases List.mem_append.mp member with earlier | last
    · exact books.processed p earlier
    · rw [Option.toList_some,List.mem_singleton] at last
      exact absurd (congrArg prim.keccak256 last) other

/-- What the gateway approved was an approved execution. -/
theorem approved_of_accepts {source_chain message_id source_address : String} {payload : Bytes} {w : Outside O}
    (input : r.input.2 = .handler (.execute source_chain message_id source_address payload))
    (accepted : Accepts prim axelar.peers (r.env handler) r.before.state source_chain message_id source_address
      payload w) : ApprovedExecution prim axelar handler r := by
  intro chain id address p event same _
  rw [input] at same
  cases same
  exact ⟨accepted.chain,accepted.address,w.ground,accepted.gateway.2⟩

/-- What a withdrawal puts on the wire carries its shares. -/
theorem wireShares_of {env : Env} {user : Address} {shares : Int} {eth_recipient : BytesN 32} {value : U256}
    (roundTrips : prim.codec.RoundTrips) (burns : ∀ epoch, 0 ≤ s.own.read_epoch_burns epoch)
    (allowed : Withdraws env s user shares) (converted : i128_to_u256 shares = some value) :
    wireShares prim (prim.codec.encode_withdraw (withdrawMessage env s.own eth_recipient value)) = some shares := by
  have earlier := burns (s.own.epoch env)
  have bound := allowed.within.fits.2
  have small : shares ≤ i128Max := by omega
  rw [wireShares,roundTrips,Option.bind_some]
  exact u256_of_i128 small converted

/-- One turn of the handler keeps the books. -/
theorem Books.turn (roundTrips : prim.codec.RoundTrips) {entry : Entry} {event : Option BridgeEvent}
    (books : Books prim axelar handler past r.before.state) (input : r.input.2 = .handler entry)
    (out : r.output = .ok event)
    (turn : Turn prim axelar (r.env handler) r.before.state r.after.state entry event) :
    Books prim axelar handler (past ++ [r]) r.after.state := by
  cases turn with
  | deposit chain id address payload stellarRecipient shares recipient w t accepted asked resolved own found token
      outgoing =>
    have ran : executedPayload r = some payload := by simp [executedPayload,input,out]
    refine ⟨?_,books.marked ran (by rw [own]; exact BridgeHandler.deposited_processed _ _ _ _),?_⟩
    · rw [outgoing]
      refine books.conserved.executed ran (books.fresh accepted.unprocessed) (approved_of_accepts input accepted) ?_ rfl
      rw [if_pos (show IsDeposit payload from asked.kind),depositShares_of asked]
      simp [HelixToken.minted]
    · rw [own]
      simpa using books.burns
  | yield_update chain id address payload assets w t accepted asked own found token outgoing =>
    have ran : executedPayload r = some payload := by simp [executedPayload,input,out]
    have other : ¬ IsDeposit payload := by
      rw [IsDeposit,asked.kind]
      decide
    refine ⟨?_,books.marked ran (by rw [own]; exact BridgeHandler.processed_write _ _),?_⟩
    · rw [outgoing]
      refine books.conserved.executed ran (books.fresh accepted.unprocessed) (approved_of_accepts input accepted) ?_ rfl
      rw [if_neg other]
      simp
    · rw [own]
      exact books.burns
  | withdrawal user shares eth_recipient value payload t allowed converted encoded own outgoing =>
    have idle : executedPayload r = none := by simp [executedPayload,input]
    refine ⟨?_,?_,?_⟩
    · rw [outgoing,encoded]
      exact books.conserved.withdrawn idle (wireShares_of roundTrips books.burns allowed converted)
    · rw [own]
      simpa [executedPayloads_append,idle] using books.processed
    · intro epoch
      rw [own,BridgeHandler.withdrawn_burns]
      have earlier := books.burns epoch
      have nonneg := allowed.nonneg
      split <;> omega
  | register user evm_address authorised own rest =>
    have idle : executedPayload r = none := by simp [executedPayload,input]
    exact books.idle idle (by rw [rest]) (by rw [own]; rfl) (fun epoch => by rw [own]; rfl)
  | configured entry event authorised own rest =>
    have idle : executedPayload r = none := by
      cases entry with
      | execute chain id address payload => exact absurd rfl (own.not_execute chain id address payload)
      | _ => simp [executedPayload,input]
    exact books.idle idle (by rw [rest]) own.processed own.burns

/-- A run keeps the books. -/
theorem serve_books (roundTrips : prim.codec.RoundTrips) (clock : Clock)
    (admin gateway gas_service token vault : Address) (source_chain source_address : String) (ground : Ground O)
    (inputs : List (Origin × Action O)) :
    Books prim axelar handler
      (trace (serve prim axelar handler)
        (deployed clock admin gateway gas_service token vault source_chain source_address ground) inputs)
      (run (serve prim axelar handler)
        (deployed clock admin gateway gas_service token vault source_chain source_address ground) inputs).state := by
  apply run_history (serve prim axelar handler) (fun past s => Books prim axelar handler past s.state) inputs
  · exact ⟨⟨by simp [depositedShares,executedDeposits,executedPayloads,deployed],by simp [executedPayloads],by simp,
      rfl⟩,by simp [executedPayloads],fun _ => le_rfl⟩
  · intro past r _ makes books
    rcases turned_cases makes with ⟨entry,event,input,out,turn⟩ | ⟨change,input,out,own,outgoing⟩ | ⟨e,out,same⟩
    · exact books.turn roundTrips input out turn
    · exact books.idle (by simp [executedPayload,input]) outgoing (by rw [own]) (fun _ => by rw [own])
    · exact books.idle (by simp [executedPayload,out]) (by rw [same]) (by rw [same]) (fun _ => by rw [same])

/-- In every run of a handler with its token, the supply the handler moved is
    the shares of the deposits it executed, each payload hash once, less the
    shares it sent out; it executed what the gateway approved for the source
    configured at that moment; and every burn went out as one payload with the
    same shares. -/
theorem conservation (roundTrips : prim.codec.RoundTrips) (clock : Clock)
    (admin gateway gas_service token vault : Address) (source_chain source_address : String) (ground : Ground O)
    (inputs : List (Origin × Action O)) :
    Conserved prim axelar handler
      (trace (serve prim axelar handler)
        (deployed clock admin gateway gas_service token vault source_chain source_address ground) inputs)
      (called (run (serve prim axelar handler)
        (deployed clock admin gateway gas_service token vault source_chain source_address ground) inputs)) :=
  (serve_books roundTrips clock admin gateway gas_service token vault source_chain source_address ground inputs).conserved

end Books

/-- A deposit that arrives twice under different message ids, and a withdrawal. -/
def Small.roundTrip : List (Origin × Action Unit) :=
  [Small.registers Small.userA,Small.executes "m1" (depositPayload Small.key 10 0),
    Small.executes "m2" (depositPayload Small.key 10 0),
    (.signedBy Small.admin,.handler (.set_withdrawals_enabled true)),
    (.signedBy Small.userA,.handler (.initiate_withdrawal Small.userA 4 (BytesN.fill 32 8)))]

theorem conservation_roundTrip :
    Small.supplyAfter Small.roundTrip = some 6 ∧
      Conserved Small.primitives Small.axelar Small.handler (trace Small.step Small.start Small.roundTrip)
        (called (run Small.step Small.start Small.roundTrip)) :=
  ⟨by decide +kernel,@conservation Unit Small.primitives Small.axelar Small.handler abiCodec_roundTrips ⟨0,0⟩
    Small.admin Small.gateway Small.gas_service Small.token Small.token "ethereum" "0xHelixVault"
    ⟨some (Token.fresh Small.admin Small.token Small.handler),()⟩ Small.roundTrip⟩

end Helix.Bridge
