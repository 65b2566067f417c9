import Helix.BridgeConservation

/-!
The two flows over the bridge and their counters. For every epoch index the
handler counts the shares it minted and the shares it burned; `Flow` is either
of the two. A call moves shares of a flow and counts them under the index of its
ledger, or moves none and leaves the counters alone (`flows_of_makes`), so a
counter holds exactly what was moved under its index (`counter_eq`).
-/
namespace Helix.Bridge
open Invoke
open Token (HelixToken)

/-- A direction in which shares go over the bridge. -/
inductive Flow where
  | mint
  | burn
  deriving DecidableEq

namespace Flow

/-- The counter of an epoch index. -/
def counter : Flow → BridgeHandler → Nat → Int
  | .mint, h, epoch => h.read_epoch_mints epoch
  | .burn, h, epoch => h.read_epoch_burns epoch

/-- The most that may be moved in one epoch. -/
def cap : Flow → BridgeHandler → Int
  | .mint, h => h.max_mint_per_epoch
  | .burn, h => h.max_burn_per_epoch

/-- The shares that a call to the token moves. -/
def shares : Flow → Outgoing → Option Int
  | .mint, .token (.bridge_mint _ shares) _ _ => some shares
  | .burn, .token (.bridge_burn _ shares) _ _ => some shares
  | _, _ => none

@[simp] theorem shares_wire (flow : Flow) (chain address : String) (payload : Bytes) :
    flow.shares (.wire chain address payload) = none := by
  cases flow <;> rfl

end Flow

section Transitions
variable {O : Type} (prim : Primitives)

/-- The calls the handler made in a transition. -/
def made (r : Turned O) : List Outgoing := (called r.after).drop (called r.before).length

/-- The shares the handler moved in a transition. -/
def moved (flow : Flow) (r : Turned O) : Int := ((made r).filterMap flow.shares).sum

/-- The epoch index of a transition: its ledger by the duration at that moment. -/
def index (r : Turned O) : Nat := r.clock.sequence / r.before.state.own.epoch_duration

/-- A transition is a call that asks to move shares: an execution of a deposit, or
    a withdrawal. -/
inductive Asks (r : Turned O) : Flow → Int → Prop
  | deposit (source_chain message_id source_address : String) (payload : Bytes) (stellarRecipient : BytesN 32)
      (shares : Int) : r.input.2 = .handler (.execute source_chain message_id source_address payload) →
      Deposit prim payload stellarRecipient shares → Asks r .mint shares
  | withdrawal (user : Address) (shares : Int) (eth_recipient : BytesN 32) :
      r.input.2 = .handler (.initiate_withdrawal user shares eth_recipient) → Asks r .burn shares

/-- The same payload asks for the same shares. -/
theorem Deposit.unique {payload : Bytes} {key other : BytesN 32} {shares amount : Int}
    (asked : Deposit prim payload key shares) (again : Deposit prim payload other amount) : amount = shares := by
  obtain ⟨message,decoded,_,converted⟩ := asked.decoded
  obtain ⟨message',decoded',_,converted'⟩ := again.decoded
  rw [decoded] at decoded'
  cases decoded'
  rw [converted] at converted'
  exact (Option.some.inj converted').symm

theorem Asks.unique {r : Turned O} {flow : Flow} {shares amount : Int} (asks : Asks prim r flow shares)
    (again : Asks prim r flow amount) : amount = shares := by
  cases asks with
  | deposit chain id address payload key _ input asked =>
    cases again with
    | deposit chain' id' address' payload' key' _ input' asked' =>
      rw [input] at input'
      cases input'
      exact Deposit.unique prim asked asked'
  | withdrawal user _ eth_recipient input =>
    cases again with
    | withdrawal user' _ eth_recipient' input' =>
      rw [input] at input'
      cases input'
      rfl

/-- What a transition does to a flow: shares are moved, counted and within the
    cap, or nothing is moved. -/
inductive Flows (flow : Flow) (r : Turned O) : Prop
  | moves (shares : Int) : Asks prim r flow shares → (∃ event, r.output = .ok event) → 0 ≤ shares →
      r.before.state.own.Within shares (flow.counter r.before.state.own (index r)) (flow.cap r.before.state.own) →
      moved flow r = shares → r.after.state.own.epoch_duration = r.before.state.own.epoch_duration →
      flow.cap r.after.state.own = flow.cap r.before.state.own →
      (∀ e, flow.counter r.after.state.own e =
        flow.counter r.before.state.own e + if e = index r then shares else 0) → Flows flow r
  | rests : (∀ shares event, Asks prim r flow shares → r.output ≠ .ok event) → moved flow r = 0 →
      (∀ e, flow.counter r.after.state.own e = flow.counter r.before.state.own e) → Flows flow r

variable {prim} {axelar : Axelar O} {handler : Address} {r : Turned O}

theorem made_append {more : List Outgoing}
    (outgoing : r.after.state.rest.outgoing = r.before.state.rest.outgoing ++ more) : made r = more := by
  rw [made,called,called,outgoing,List.drop_left]

theorem made_nothing (outgoing : r.after.state.rest.outgoing = r.before.state.rest.outgoing) : made r = [] :=
  made_append (by rw [outgoing,List.append_nil])

/-- A call that is none of a flow's and leaves its counters alone lets it rest. -/
theorem rests_of_made (flow : Flow) (unasked : ∀ shares event, Asks prim r flow shares → r.output ≠ .ok event)
    (none : (made r).filterMap flow.shares = [])
    (counters : ∀ e, flow.counter r.after.state.own e = flow.counter r.before.state.own e) : Flows prim flow r :=
  .rests unasked (by rw [moved,none]; rfl) counters

theorem Configured.counters {h h' : BridgeHandler} {entry : Entry} {event : Option BridgeEvent}
    (changed : Configured h entry event h') (flow : Flow) (e : Nat) : flow.counter h' e = flow.counter h e := by
  cases changed <;> cases flow <;> rfl

/-- The admin's calls move nothing. -/
theorem Configured.unasked {h h' : BridgeHandler} {entry : Entry} {event : Option BridgeEvent} {flow : Flow}
    (changed : Configured h entry event h') (input : r.input.2 = .handler entry) (shares : Int) :
    ¬ Asks prim r flow shares := by
  intro asks
  cases asks with
  | deposit chain id address payload key _ asked _ =>
    rw [input] at asked
    cases asked
    exact changed.not_execute chain id address payload rfl
  | withdrawal user _ eth_recipient asked =>
    rw [input] at asked
    cases asked
    cases changed

theorem deposited_mints (h : BridgeHandler) (env : Env) (hash : BytesN 32) (shares : Int) (e : Nat) :
    (h.deposited env hash shares).read_epoch_mints e =
      h.read_epoch_mints e + if e = h.epoch env then shares else 0 := by
  by_cases same : e = h.epoch env
  · simp [BridgeHandler.deposited,BridgeHandler.write_epoch_mints,BridgeHandler.read_epoch_mints,
      BridgeHandler.write_processed_message,same]
  · simp [BridgeHandler.deposited,BridgeHandler.write_epoch_mints,BridgeHandler.read_epoch_mints,
      BridgeHandler.write_processed_message,same]

theorem withdrawn_burns_added (h : BridgeHandler) (env : Env) (shares : Int) (e : Nat) :
    (h.withdrawn env shares).read_epoch_burns e =
      h.read_epoch_burns e + if e = h.epoch env then shares else 0 := by
  rw [BridgeHandler.withdrawn_burns]
  split
  · rfl
  · rw [add_zero]

/-- A call that returned moves its shares within the cap, or lets the flow rest. -/
theorem flows_of_call (flow : Flow) {entry : Entry} {event : Option BridgeEvent}
    (input : r.input.2 = .handler entry) (out : r.output = .ok event)
    (effect : Effect prim axelar.peers (r.env handler) r.before.state entry event r.after.state) :
    Flows prim flow r := by
  generalize after : r.after.state = s' at effect
  cases effect with
  | deposit chain id address payload key shares recipient w w' accepted asked within resolved minted =>
    obtain ⟨t,u,_,_,rfl⟩ := tokenCall_effect minted (by simp)
    have calls : made r = [.token (.bridge_mint recipient shares) (some t) (some u)] := by
      apply made_append
      rw [after,← accepted.gateway.1]
    obtain ⟨message,_,_,converted⟩ := asked.decoded
    cases flow with
    | mint =>
      refine .moves shares (.deposit chain id address payload key shares input asked) ⟨_,out⟩
        (u256_to_i128_some.mp converted).1 within (by simp [moved,calls,Flow.shares]) (by rw [after]; rfl)
        (by rw [after]; rfl) ?_
      intro e
      rw [after]
      exact deposited_mints _ _ _ _ _
    | burn =>
      refine rests_of_made .burn ?_ (by simp [calls,Flow.shares]) (fun e => by rw [after]; rfl)
      intro amount _ asks _
      cases asks with
      | withdrawal user _ eth_recipient other =>
        rw [input] at other
        cases other
  | yield_update chain id address payload assets w w' accepted asked updated =>
    obtain ⟨t,u,_,_,rfl⟩ := tokenCall_effect updated (by simp)
    have calls : made r = [.token (.update_exchange_rate assets) (some t) (some u)] := by
      apply made_append
      rw [after,← accepted.gateway.1]
    refine rests_of_made flow ?_ (by cases flow <;> simp [calls,Flow.shares])
      (fun e => by rw [after]; cases flow <;> rfl)
    intro amount _ asks _
    cases asks with
    | deposit chain' id' address' payload' key _ input' deposit =>
      rw [input] at input'
      cases input'
      exact absurd asked.kind (by rw [deposit.kind]; decide)
    | withdrawal user _ eth_recipient input' =>
      rw [input] at input'
      cases input'
  | register user evm_address authorised =>
    refine rests_of_made flow ?_ (by rw [made_nothing (by rw [after])]; rfl)
      (fun e => by rw [after]; cases flow <;> rfl)
    intro amount _ asks _
    cases asks <;> simp_all
  | withdrawal user shares eth_recipient value payload w allowed converted encoded sent =>
    obtain ⟨t,outgoing⟩ := sent.outgoing
    have calls : made r = [.token (.bridge_burn user shares) (some t) (some (t.burned user shares)),
        .wire r.before.state.own.source_chain r.before.state.own.source_address payload] := by
      apply made_append
      rw [after,← outgoing]
    cases flow with
    | mint =>
      refine rests_of_made .mint ?_ (by simp [calls,Flow.shares]) (fun e => by rw [after]; rfl)
      intro amount _ asks _
      cases asks with
      | deposit chain id address payload' key _ input' _ =>
        rw [input] at input'
        cases input'
    | burn =>
      refine .moves shares (.withdrawal user shares eth_recipient input) ⟨_,out⟩ allowed.nonneg allowed.within
        (by simp [moved,calls,List.filterMap_cons,Flow.shares]) (by rw [after]; rfl) (by rw [after]; rfl) ?_
      intro e
      rw [after]
      exact withdrawn_burns_added _ _ _ _
  | configured entry event h authorised own =>
    refine rests_of_made flow (fun shares _ asks _ => own.unasked input shares asks) ?_
      (fun e => by rw [after]; exact own.counters flow e)
    rw [made_nothing (by rw [after])]
    rfl

theorem flows_of_makes (flow : Flow) (makes : Makes (serve prim axelar handler) r) : Flows prim flow r := by
  rcases Delivery.cases makes with ⟨event,out,ran⟩ | ⟨e,out,same⟩
  · cases input : r.input.2 with
    | handler entry =>
      rw [input] at ran
      exact flows_of_call flow input out (effect_of_call ran)
    | elsewhere change =>
      rw [input] at ran
      simp only [act,bind_ok,write_ok,pure_ok,exists_eq_left,Prod.mk.injEq] at ran
      refine rests_of_made flow ?_ (by rw [made_nothing (by rw [ran.2])]; rfl) (fun e => by rw [ran.2])
      intro shares _ asks _
      cases asks <;> simp_all
  · refine rests_of_made flow ?_ (by rw [made_nothing (by rw [same])]; rfl) (fun e => by rw [same])
    intro shares event _ returned
    rw [out] at returned
    cases returned

/-! ### What a transition leaves in a counter -/

namespace Flows
variable {flow : Flow}

theorem moved_nonneg (flows : Flows prim flow r) : 0 ≤ moved flow r := by
  cases flows with
  | moves shares _ _ nonneg _ total => rw [total]; exact nonneg
  | rests _ total _ => rw [total]

theorem counter (flows : Flows prim flow r) (e : Nat) : flow.counter r.after.state.own e =
    flow.counter r.before.state.own e + if e = index r then moved flow r else 0 := by
  cases flows with
  | moves shares _ _ _ _ total _ _ counters => rw [total]; exact counters e
  | rests _ total counters =>
    rw [total,counters e]
    split <;> omega

/-- A call that asks to move shares and returns moves them within the cap. -/
theorem within {shares : Int} {event : Option BridgeEvent} (flows : Flows prim flow r)
    (asks : Asks prim r flow shares) (out : r.output = .ok event) : moved flow r = shares ∧
      r.before.state.own.Within shares (flow.counter r.before.state.own (index r)) (flow.cap r.before.state.own) := by
  cases flows with
  | moves amount asked _ _ within total =>
    rw [Asks.unique prim asked asks]
    exact ⟨total,within⟩
  | rests unasked _ _ => exact absurd out (unasked shares event asks)

/-- It leaves the limits alone. -/
theorem limits {shares : Int} {event : Option BridgeEvent} (flows : Flows prim flow r)
    (asks : Asks prim r flow shares) (out : r.output = .ok event) :
    r.after.state.own.epoch_duration = r.before.state.own.epoch_duration ∧
      flow.cap r.after.state.own = flow.cap r.before.state.own := by
  cases flows with
  | moves _ _ _ _ _ _ duration cap => exact ⟨duration,cap⟩
  | rests unasked _ _ => exact absurd out (unasked shares event asks)

end Flows

/-! ### Whole runs -/

/-- The shares that a flow moved in the transitions a test picks. -/
def movedWhere (flow : Flow) (picks : Turned O → Prop) [DecidablePred picks] (past : List (Turned O)) : Int :=
  (past.map (fun x => if picks x then moved flow x else 0)).sum

/-- In every state of a run each counter holds what was moved under its index. -/
theorem counter_eq (flow : Flow) {clock : Clock} {admin gateway gas_service token vault : Address}
    {source_chain source_address : String} {ground : Ground O} (inputs : List (Origin × Action O)) (e : Nat) :
    flow.counter (run (serve prim axelar handler)
        (deployed clock admin gateway gas_service token vault source_chain source_address ground) inputs).state.own e =
      movedWhere flow (fun x => e = index x) (trace (serve prim axelar handler)
        (deployed clock admin gateway gas_service token vault source_chain source_address ground) inputs) := by
  have counted := run_telescope (serve prim axelar handler) (fun c : Chain (State O) => flow.counter c.state.own e)
    (fun r => if e = index r then moved flow r else 0)
    (s := deployed clock admin gateway gas_service token vault source_chain source_address ground) inputs
    (fun r member => (flows_of_makes flow (trace_makes member)).counter e)
  rw [counted,movedWhere]
  have empty : flow.counter
      (deployed clock admin gateway gas_service token vault source_chain source_address ground).state.own e = 0 := by
    cases flow <;> rfl
  rw [empty,zero_add]

end Transitions

namespace Small

/-- Keccak-256 on two more withdrawals. -/
def moreHashes : List (Bytes × U256) :=
  hashes ++ [(abiCodec.encode_withdraw ⟨MESSAGE_TYPE_WITHDRAW,BytesN.fill 32 8,4,0x50000000000000004⟩,
      0x1760a572e73f48642417a89aba77741927ea0155a0e82f93325888b2ee1ee933),
    (abiCodec.encode_withdraw ⟨MESSAGE_TYPE_WITHDRAW,BytesN.fill 32 8,4,0x70000000000000000⟩,
      0xc3782582eace7459991b90dc8ac259037c139f86f22fc423e3ef7751415f8b85)]

def morePrimitives : Primitives where
  keccak256 payload := toBytes32 (((moreHashes.find? (fun p => p.1 = payload)).map (fun p => p.2)).getD 0)
  address_from_str := primitives.address_from_str
  codec := abiCodec

abbrev moreStep : Chain (State Unit) → Origin × Action Unit → Except (Failure BridgeHandlerError) (Option BridgeEvent) ×
    Chain (State Unit) := serve morePrimitives axelar handler

/-- A call so many ledgers after the one before. -/
def callsAfter (ledgers : Nat) (signer : Address) (entry : Entry) : Origin × Action Unit :=
  ({ Origin.signedBy signer with ledgers := ledgers },.handler entry)

def withdraws (ledgers : Nat) (shares : Int) : Origin × Action Unit :=
  callsAfter ledgers userA (.initiate_withdrawal userA shares (BytesN.fill 32 8))

def limits (ledgers : Nat) (max_burn : Int) (epoch_duration : Nat) : Origin × Action Unit :=
  callsAfter ledgers admin (.set_rate_limits i128Max max_burn epoch_duration)

end Small

end Helix.Bridge
