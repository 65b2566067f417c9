import Helix.BridgeFlow

/-!
The rate limit. A counter limits what is moved in the window of ledgers that its
index stands for, and an index stands for another window once the admin changes
the epoch duration. A call is held to the cap of its own window, and refused for
no other reason, as long as everything moved earlier is counted under its index
exactly when it was moved in its window (`rate_limit_holds`); a change of the
duration lets calls past the cap and refuses calls far below it (`rate_limit_escaped`).
-/
namespace Helix.Bridge
open Invoke

section Refusals
variable {W : Type} {prim : Primitives} {peers : Peers W} {env : Env} {s : World BridgeHandler W}

@[simp] theorem current_epoch_error {e : Failure BridgeHandlerError} :
    (current_epoch env : Contract W Nat) s = .error e ↔ s.own.epoch_duration = 0 ∧ e = .error .InvalidAmount := by
  simp [current_epoch,bind_error]

@[simp] theorem resolve_recipient_error {stellarRecipient : BytesN 32} {e : Failure BridgeHandlerError} :
    resolve_recipient prim stellarRecipient s = .error e ↔
      s.own.recipientOf prim stellarRecipient = none ∧ e = .trap := by
  simp only [resolve_recipient,bind_error,load_error,false_or,load_ok,exists_eq_left,BridgeHandler.recipientOf]
  cases s.own.read_recipient_mapping stellarRecipient with
  | none => simp [bytes32_to_address]
  | some recipient =>
    show (pure recipient : Contract W Address) s = .error e ↔ some recipient = none ∧ e = .trap
    simp

/-- A call is refused at the rate limit only when it would go above the cap. -/
theorem execute_refused {source_chain message_id source_address : String} {payload : Bytes}
    (refused : execute prim peers env source_chain message_id source_address payload s =
      .error (.error .RateLimitExceeded)) :
    ∃ key shares, Deposit prim payload key shares ∧ s.own.epoch_duration ≠ 0 ∧
      s.own.max_mint_per_epoch < s.own.read_epoch_mints (s.own.epoch env) + shares := by
  simp only [execute,bind_error,load_error,load_ok,require_error,require_ok,callOut_error,callOut_ok,need_error,need_ok,
    Failure.error.injEq,reduceCtorEq,and_false,false_or,Prod.exists,and_assoc,exists_and_left,exists_eq_left] at refused
  obtain ⟨_,_,_,_,⟨w,_,rfl⟩,_,kind,typed,rest⟩ := refused
  rcases ite_error.mp rest with ⟨rfl,ran⟩ | ⟨_,rest⟩
  · simp only [process_deposit,decode_deposit_message,require_not_paused,require_message_not_processed,checked_add,
      bind_error,bind_ok,load_error,load_ok,require_error,require_ok,need_error,need_ok,callOut_error,save_error,pure_error,
      current_epoch_error,current_epoch_ok,resolve_recipient_error,Failure.error.injEq,reduceCtorEq,and_false,false_or,
      or_false,exists_false,Checked.add_some,Prod.exists,and_assoc,exists_and_left,exists_eq_left] at ran
    obtain ⟨message,decoded,_,_,shares,converted,epochs,_,above,_⟩ := ran
    exact ⟨message.stellarRecipient,shares,⟨typed,message,decoded,rfl,converted⟩,epochs,not_le.mp above⟩
  rcases ite_error.mp rest with ⟨rfl,ran⟩ | ⟨_,ran⟩
  · simp [process_yield_update,decode_yield_update_message,require_not_paused,require_message_not_processed,
      bind_error] at ran
  · simp at ran

theorem withdrawal_refused {user : Address} {shares : Int} {eth_recipient : BytesN 32}
    (refused : initiate_withdrawal prim peers env user shares eth_recipient s = .error (.error .RateLimitExceeded)) :
    s.own.epoch_duration ≠ 0 ∧ s.own.max_burn_per_epoch < s.own.read_epoch_burns (s.own.epoch env) + shares := by
  simp only [initiate_withdrawal,require_not_paused,require_withdrawals_enabled,validate_amount,checked_add,
    encode_withdraw_message,default_gas_token,bind_error,bind_ok,auth_error,auth_ok,load_error,load_ok,require_error,require_ok,
    need_error,need_ok,callOut_error,save_error,pure_error,current_epoch_error,current_epoch_ok,Failure.error.injEq,
    reduceCtorEq,and_false,false_or,or_false,exists_false,Checked.add_some,Prod.exists,and_assoc,exists_and_left,
    exists_eq_left] at refused
  obtain ⟨_,_,_,_,epochs,_,above,_⟩ := refused
  exact ⟨epochs,not_le.mp above⟩

end Refusals

section Limits
variable {O : Type} (prim : Primitives)

/-- A ledger lies in the window of an epoch index. -/
def InWindow (epoch_duration epoch sequence : Nat) : Prop :=
  epoch * epoch_duration ≤ sequence ∧ sequence < (epoch + 1) * epoch_duration

instance (epoch_duration epoch sequence : Nat) : Decidable (InWindow epoch_duration epoch sequence) :=
  inferInstanceAs (Decidable (_ ∧ _))

/-- What a flow moved in the epoch window that a handler sees at a ledger. -/
def windowFlow (flow : Flow) (h : BridgeHandler) (sequence : Nat) (past : List (Turned O)) : Int :=
  movedWhere flow (fun x => InWindow h.epoch_duration (sequence / h.epoch_duration) x.clock.sequence) past

/-- A call is held to the cap of its window: with it the window has moved the cap
    at most, and it is refused at the limit only where it would move more. -/
structure RateLimited (past : List (Turned O)) (r : Turned O) : Prop where
  accepted : ∀ flow shares event, Asks prim r flow shares → r.output = .ok event →
    windowFlow flow r.after.state.own r.clock.sequence (past ++ [r]) ≤ flow.cap r.after.state.own
  refused : r.output = .error (.error .RateLimitExceeded) → ∃ flow shares, Asks prim r flow shares ∧
    flow.cap r.before.state.own < windowFlow flow r.before.state.own r.clock.sequence past + shares

/-- What a flow moved before a call is counted under the index of the call exactly
    when its ledger is in the window of the call. -/
def Aligned (flow : Flow) (past : List (Turned O)) (r : Turned O) : Prop :=
  ∀ x ∈ past, moved flow x ≠ 0 → (index x = index r ↔ x.clock.sequence / r.before.state.own.epoch_duration = index r)

instance (flow : Flow) (past : List (Turned O)) (r : Turned O) : Decidable (Aligned flow past r) :=
  inferInstanceAs (Decidable (∀ x ∈ past, _))

variable {prim} {axelar : Axelar O} {handler : Address} {past : List (Turned O)} {r : Turned O} {flow : Flow}

theorem inWindow_iff {epoch_duration epoch sequence : Nat} (epochs : epoch_duration ≠ 0) :
    InWindow epoch_duration epoch sequence ↔ sequence / epoch_duration = epoch := by
  have positive : 0 < epoch_duration := by omega
  rw [InWindow,Nat.div_eq_iff positive,Nat.succ_mul]
  omega

theorem movedWhere_append (picks : Turned O → Prop) [DecidablePred picks] :
    movedWhere flow picks (past ++ [r]) = movedWhere flow picks past + if picks r then moved flow r else 0 := by
  simp [movedWhere]

/-- Where everything is aligned, the window has moved what is counted. -/
theorem windowFlow_eq (epochs : r.before.state.own.epoch_duration ≠ 0) (aligned : Aligned flow past r) :
    windowFlow flow r.before.state.own r.clock.sequence past = movedWhere flow (fun x => index r = index x) past := by
  unfold windowFlow movedWhere
  congr 1
  apply List.map_congr_left
  intro x member
  rw [if_congr (inWindow_iff epochs) rfl rfl]
  by_cases still : moved flow x = 0
  · simp [still]
  · exact if_congr ((aligned x member still).symm.trans eq_comm) rfl rfl

/-- A call that is refused at the limit would go above the cap with what is
    counted under its index. -/
theorem refused_above (makes : Makes (serve prim axelar handler) r)
    (out : r.output = .error (.error .RateLimitExceeded)) : ∃ flow shares, Asks prim r flow shares ∧
      r.before.state.own.epoch_duration ≠ 0 ∧
      flow.cap r.before.state.own < flow.counter r.before.state.own (index r) + shares := by
  have failed := Delivery.failed makes out
  cases input : r.input.2 with
  | elsewhere change =>
    rw [input] at failed
    simp [act,bind_error] at failed
  | handler entry =>
    rw [input] at failed
    cases entry with
    | execute chain id address payload =>
      obtain ⟨key,shares,asked,epochs,above⟩ := execute_refused failed
      exact ⟨.mint,shares,.deposit chain id address payload key shares input asked,epochs,above⟩
    | initiate_withdrawal user shares eth_recipient =>
      obtain ⟨epochs,above⟩ := withdrawal_refused failed
      exact ⟨.burn,shares,.withdrawal user shares eth_recipient input,epochs,above⟩
    | register_recipient user evm_address => simp [act,call,register_recipient,bind_error] at failed
    | set_rate_limits max_mint max_burn epoch_duration =>
      simp [act,call,set_rate_limits,require_admin,bind_error] at failed
    | pause => simp [act,call,pause,set_paused,require_admin,bind_error] at failed
    | unpause => simp [act,call,unpause,set_paused,require_admin,bind_error] at failed
    | set_withdrawals_enabled enabled =>
      simp [act,call,set_withdrawals_enabled,require_admin,bind_error] at failed
    | set_source_config chain address => simp [act,call,set_source_config,require_admin,bind_error] at failed
    | set_admin new_admin => simp [act,call,set_admin,require_admin,bind_error] at failed

/-- A call whose window is the one its counter counts is held to the cap of it. -/
theorem rateLimited_of_counted (makes : Makes (serve prim axelar handler) r)
    (counted : ∀ flow : Flow, flow.counter r.before.state.own (index r) =
      movedWhere flow (fun x => index r = index x) past)
    (aligned : ∀ flow shares, Asks prim r flow shares → Aligned flow past r) : RateLimited prim past r where
  accepted := by
    intro flow shares event asks out
    have flows : Flows prim flow r := flows_of_makes flow makes
    obtain ⟨total,within⟩ := flows.within asks out
    obtain ⟨duration,cap⟩ := flows.limits asks out
    have mine : InWindow r.before.state.own.epoch_duration
        (r.clock.sequence / r.before.state.own.epoch_duration) r.clock.sequence := (inWindow_iff within.epochs).mpr rfl
    have earlier := windowFlow_eq within.epochs (aligned flow shares asks)
    rw [← counted flow] at earlier
    rw [cap,windowFlow,duration,movedWhere_append,if_pos mine,total]
    rw [windowFlow] at earlier
    rw [earlier]
    exact within.capped
  refused := by
    intro out
    obtain ⟨flow,shares,asks,epochs,above⟩ := refused_above makes out
    refine ⟨flow,shares,asks,?_⟩
    rw [windowFlow_eq epochs (aligned flow shares asks),← counted flow]
    exact above

/-- In every run of the handler, a call is held to the cap of its epoch window and
    refused for no other reason, if everything its flow moved before is counted
    under the index of the call exactly when its ledger is in that window. -/
theorem rate_limit_holds (clock : Clock) (admin gateway gas_service token vault : Address)
    (source_chain source_address : String) (ground : Ground O) (inputs : List (Origin × Action O))
    (next : Origin × Action O) :
    let start := deployed clock admin gateway gas_service token vault source_chain source_address ground
    let past := trace (serve prim axelar handler) start inputs
    let r := transition (serve prim axelar handler) (run (serve prim axelar handler) start inputs) next
    (∀ flow shares, Asks prim r flow shares → Aligned flow past r) → RateLimited prim past r := by
  intro start past r aligned
  apply rateLimited_of_counted (transition_makes _ next) _ aligned
  intro flow
  exact counter_eq flow inputs (index r)

end Limits

/-! ### Calls past the cap and below it -/

namespace Small

/-- After a withdrawal of four at ledger 5, the admin sets a cap of four for epochs
    of five ledgers. -/
def capped : List (Origin × Action Unit) := roundTrip ++ [limits 1 4 5]

/-- Another four are withdrawn at ledger 7, and the epochs become ten ledgers long. -/
def lengthened : List (Origin × Action Unit) := capped ++ [withdraws 1 4,limits 1 4 10]

end Small

/-- The cap holds through a change of the cap alone. -/
theorem rate_limit_holds_capped :
    let r := transition Small.moreStep (run Small.moreStep Small.start (Small.roundTrip ++ [Small.limits 1 8 17280]))
      (Small.withdraws 1 4)
    RateLimited Small.morePrimitives
      (trace Small.moreStep Small.start (Small.roundTrip ++ [Small.limits 1 8 17280])) r ∧
      r.output.toOption.isSome = true := by
  refine ⟨?_,by decide +kernel⟩
  apply @rate_limit_holds Unit Small.morePrimitives Small.axelar Small.handler ⟨0,0⟩ Small.admin Small.gateway
    Small.gas_service Small.token Small.token "ethereum" "0xHelixVault"
    ⟨some (Token.fresh Small.admin Small.token Small.handler),()⟩ (Small.roundTrip ++ [Small.limits 1 8 17280])
    (Small.withdraws 1 4)
  intro flow shares _
  cases flow with
  | mint => decide +kernel
  | burn => decide +kernel

/-- After the change of the duration at ledger 6, four shares are withdrawn at ledger
    7 although four were withdrawn in the same epoch window; and after the next one,
    at ledger 18, one share is refused although nothing was withdrawn in its window. -/
theorem rate_limit_escaped :
    ¬ RateLimited Small.morePrimitives (trace Small.moreStep Small.start Small.capped)
        (transition Small.moreStep (run Small.moreStep Small.start Small.capped) (Small.withdraws 1 4)) ∧
      ¬ RateLimited Small.morePrimitives (trace Small.moreStep Small.start Small.lengthened)
        (transition Small.moreStep (run Small.moreStep Small.start Small.lengthened) (Small.withdraws 10 1)) := by
  constructor
  · intro limited
    obtain ⟨event,out⟩ := ok_of_toOption (show (transition Small.moreStep (run Small.moreStep Small.start Small.capped)
      (Small.withdraws 1 4)).output.toOption.isSome = true by decide +kernel)
    have within := limited.accepted .burn 4 event (.withdrawal Small.userA 4 (BytesN.fill 32 8) rfl) out
    revert within
    decide +kernel
  · intro limited
    obtain ⟨flow,shares,asks,above⟩ := limited.refused (by decide +kernel)
    cases asks with
    | deposit chain id address payload key _ input => cases input
    | withdrawal user _ eth_recipient input =>
      cases input
      revert above
      decide +kernel

end Helix.Bridge
