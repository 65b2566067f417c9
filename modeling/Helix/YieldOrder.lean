import Helix.BridgeSystem

/-!
Which yield update the token's total assets show. The handler checks neither the
timestamp nor the nonce of an update, so what stays is what was executed last
(`assets_follow_last_update`), also where that is the older of two updates
(`older_update_overwrites`).
-/
namespace Helix.Bridge
open Invoke
open Token (HelixToken)

section Updates
variable {O : Type} (prim : Primitives) (axelar : Axelar O) (handler : Address)

/-- The yield update a transition executed. -/
def executedUpdate (r : Turned O) : Option YieldUpdateMessage :=
  (executedPayload r).bind (fun payload =>
    if get_message_type payload = some MESSAGE_TYPE_YIELD_UPDATE then prim.codec.decode_yield_update payload else none)

/-- The yield updates executed so far, in order. -/
def executedUpdates (past : List (Turned O)) : List YieldUpdateMessage := past.filterMap (executedUpdate prim)

/-- The total assets an update carries. -/
def carriedAssets (message : YieldUpdateMessage) : Option Int := u256_to_i128 message.exchangeRate

/-- The total assets of the token. -/
def assets (c : Chain (State O)) : Option Int := c.state.rest.ground.token.map (fun t => t.total_assets)

/-- A run that only hands messages to the handler. -/
def Delivers (calls : List (Origin × Action O)) : Prop :=
  ∀ call ∈ calls, ∃ source_chain message_id source_address payload,
    call.2 = .handler (.execute source_chain message_id source_address payload)

/-- The gateway answers and does nothing to the token. -/
def LeavesToken (axelar : Axelar O) : Prop :=
  ∀ env caller source_chain message_id source_address payload_hash ground answer after,
    axelar.validate_message env caller source_chain message_id source_address payload_hash ground =
      some (answer, after) → after.token = ground.token

/-- Whatever the order of arrival, the total assets are those of the executed
    update with the greatest timestamp. -/
def NewestStays (start : Chain (State O)) : Prop :=
  ∀ calls : List (Origin × Action O), Delivers calls →
    let updates := executedUpdates prim (trace (serve prim axelar handler) start calls)
    (updates.map (fun message => message.timestamp)).Nodup →
    ∀ newest ∈ updates, (∀ message ∈ updates, message.timestamp ≤ newest.timestamp) →
      assets (run (serve prim axelar handler) start calls) = carriedAssets newest

variable {prim axelar handler}

theorem executedUpdate_of {r : Turned O} {source_chain message_id source_address : String} {payload : Bytes}
    {event : Option BridgeEvent}
    (input : r.input.2 = .handler (.execute source_chain message_id source_address payload))
    (out : r.output = .ok event) : executedUpdate prim r =
      if get_message_type payload = some MESSAGE_TYPE_YIELD_UPDATE then prim.codec.decode_yield_update payload
      else none := by
  simp [executedUpdate,executedPayload,input,out]

/-- A delivered message moves the total assets to what it carries, if it is an
    update, and leaves them alone otherwise. -/
theorem assets_turn (apart : LeavesToken axelar) {r : Turned O} (makes : Makes (serve prim axelar handler) r)
    {source_chain message_id source_address : String} {payload : Bytes}
    (input : r.input.2 = .handler (.execute source_chain message_id source_address payload)) :
    (executedUpdate prim r = none ∧ assets r.after = assets r.before) ∨
      ∃ message carried, executedUpdate prim r = some message ∧ carriedAssets message = some carried ∧
        assets r.after = some carried := by
  rcases turned_cases makes with ⟨entry,event,asked,out,turn⟩ | ⟨_,asked,_⟩ | ⟨_,failed,same⟩
  · rw [input] at asked
    cases asked
    rw [executedUpdate_of input out]
    cases turn with
    | deposit _ _ _ _ stellarRecipient shares recipient w t accepted asked resolved own found token =>
      have kept := apart _ _ _ _ _ _ _ _ _ accepted.gateway.2
      rw [found] at kept
      have other : get_message_type payload ≠ some MESSAGE_TYPE_YIELD_UPDATE := by
        rw [asked.kind]
        decide
      refine .inl ⟨if_neg other,?_⟩
      rw [assets,assets,token,← kept]
      rfl
    | yield_update _ _ _ _ new_total_assets w t accepted asked own found token =>
      obtain ⟨message,decoded,converted⟩ := asked.decoded
      refine .inr ⟨message,new_total_assets,by rw [if_pos asked.kind,decoded],converted,?_⟩
      rw [assets,token]
      rfl
    | configured _ _ authorised own => exact absurd rfl (own.not_execute source_chain message_id source_address payload)
  · rw [input] at asked
    cases asked
  · exact .inl ⟨by simp [executedUpdate,executedPayload,failed],by rw [assets,assets,same]⟩

/-- After any deliveries, in any order, the total assets are what the last
    executed update carries, or what they were when none was executed. -/
theorem assets_follow_last_update (apart : LeavesToken axelar) (start : Chain (State O)) (before : Int)
    (known : assets start = some before) (calls : List (Origin × Action O)) (deliveries : Delivers calls) :
    assets (run (serve prim axelar handler) start calls) =
      some (((executedUpdates prim (trace (serve prim axelar handler) start calls)).getLast?.bind
        carriedAssets).getD before) := by
  apply run_history (serve prim axelar handler) (fun past c => assets c =
    some (((executedUpdates prim past).getLast?.bind carriedAssets).getD before)) calls known
  intro past r member makes held
  obtain ⟨chain,id,address,payload,input⟩ := deliveries r.input (trace_input member)
  rw [executedUpdates,List.filterMap_append]
  rcases assets_turn apart makes input with ⟨idle,kept⟩ | ⟨message,carried,executed,converted,moved⟩
  · rw [kept,held]
    simp [idle,executedUpdates]
  · simp [executed,converted,moved]

end Updates

/-- The newer of two updates arrives first. -/
def Small.lateUpdate : List (Origin × Action Unit) :=
  [Small.executes "m1" (yieldPayload 200 2 0),Small.executes "m2" (yieldPayload 100 1 1)]

theorem Small.lateUpdate_delivers : Delivers Small.lateUpdate := by
  intro call member
  simp only [Small.lateUpdate,List.mem_cons,List.not_mem_nil,or_false] at member
  rcases member with rfl | rfl
  · exact ⟨_,_,_,_,rfl⟩
  · exact ⟨_,_,_,_,rfl⟩

theorem assets_follow_last_update_small :
    assets (run Small.step Small.start Small.lateUpdate) =
      some (((executedUpdates Small.primitives (trace Small.step Small.start Small.lateUpdate)).getLast?.bind
        carriedAssets).getD 0) ∧
    assets (run Small.step Small.start Small.lateUpdate) = some 100 :=
  ⟨assets_follow_last_update (by rintro _ _ _ _ _ _ _ _ _ ⟨⟩; rfl) Small.start 0 rfl Small.lateUpdate
    Small.lateUpdate_delivers,by decide +kernel⟩

/-- The handler lets an update that arrives late overwrite a newer one. -/
theorem older_update_overwrites :
    ¬ NewestStays Small.primitives Small.axelar Small.handler Small.start := by
  intro stays
  have newest := stays Small.lateUpdate Small.lateUpdate_delivers (by decide +kernel)
    ⟨MESSAGE_TYPE_YIELD_UPDATE,200,2,0⟩ (by decide +kernel) (by decide +kernel)
  revert newest
  decide +kernel

end Helix.Bridge
