import Helix.BridgeAccess
import Helix.VaultExit

/-!
The handler, the share token and the vault on one chain. Their calls interleave in
any order, with calls to the token by anybody else and with whatever happens beside
them. The contracts that these call in turn reach the token; where they call the
handler or the vault, they do so in calls of their own. What the handler's code does
is seen as a run of the handler (`bridge_viewed`), what the vault's does as a run of
the vault (`pool_viewed`), each with the other two among the rest of the world.
-/
namespace Helix.Protocol
open Invoke
open Bridge (BridgeHandler BridgeHandlerError BridgeEvent Primitives Axelar Outgoing Turned)
open Vault (HelixVault VaultError VaultEvent Clients sharesAt Served)
open Token (HelixToken TokenError)

/-! ### The three contracts -/

/-- The handler with the record of its calls, the vault, the token, and the rest of
    the chain. -/
structure Whole (O : Type) where
  handler : BridgeHandler
  outgoing : List Outgoing
  vault : Option HelixVault
  token : Option HelixToken
  others : O

/-- What the contracts run with: the generated code and the host, the gateway and the
    gas service, the vault's other contracts, and the addresses. -/
structure Site (O : Type) where
  prim : Primitives
  axelar : Axelar O
  foreign : Clients (Vault.Ground O)
  handler : Address
  vault : Address
  hstETH : Address

inductive Refusal where
  | handler (e : BridgeHandlerError)
  | vault (e : VaultError)
  | token (e : TokenError)

inductive Event where
  | handler (event : BridgeEvent)
  | vault (event : VaultEvent)

/-- A call to one of the contracts, or something else beside them. -/
inductive Action (O : Type) where
  | handler (entry : Bridge.Entry)
  | vault (entry : Vault.Entry)
  | token (entry : Token.Entry)
  | others (change : O → O)

/-- The part of the state that the handler's code runs on. -/
def Whole.bridge {O : Type} (s : Whole O) : Bridge.State O := ⟨s.handler,⟨s.token,s.others⟩,s.outgoing⟩
/-- The part of the state that the vault's code runs on. -/
def Whole.pool {O : Type} (s : Whole O) : Vault.State (Vault.Ground O) := ⟨s.vault,s.token,s.others⟩

/-- Code that runs on a part of the state, with its own refusals and results. -/
def part {σ τ ε ε' α β : Type} (look : σ → τ) (leave : σ → τ → σ) (refuse : ε → ε') (result : α → β)
    (code : Invoke τ ε α) : Invoke σ ε' β := fun s =>
  match code (look s) with
  | .ok (a, t) => .ok (result a, leave s t)
  | .error (.error e) => .error (.error (refuse e))
  | .error .trap => .error .trap

@[simp] theorem part_ok {σ τ ε ε' α β : Type} {look : σ → τ} {leave : σ → τ → σ} {refuse : ε → ε'} {result : α → β}
    {code : Invoke τ ε α} {s : σ} {r : β × σ} : part look leave refuse result code s = .ok r ↔
      ∃ a t, code (look s) = .ok (a, t) ∧ r = (result a, leave s t) := by
  unfold part
  cases code (look s) with
  | ok q => simp [eq_comm,Prod.ext_iff]
  | error e => cases e <;> simp

theorem part_error {σ τ ε ε' α β : Type} {look : σ → τ} {leave : σ → τ → σ} {refuse : ε → ε'} {result : α → β}
    {code : Invoke τ ε α} {s : σ} {e : Failure ε'} (failed : part look leave refuse result code s = .error e) :
    ∃ e', code (look s) = .error e' := by
  unfold part at failed
  cases ran : code (look s) with
  | ok q => simp [ran] at failed
  | error e' => exact ⟨e',rfl⟩

section Site
variable {O : Type} (site : Site O)

def act (env : Env) : Action O → Invoke (Whole O) Refusal (Option Event)
  | .handler entry => part Whole.bridge
      (fun s t => ⟨t.own,t.rest.outgoing,s.vault,t.rest.ground.token,t.rest.ground.others⟩) .handler
      (Option.map .handler)
      (Bridge.call site.prim site.axelar.peers { env with current_contract_address := site.handler } entry)
  | .vault entry => part Whole.pool (fun s t => ⟨s.handler,s.outgoing,t.own,t.rest.token,t.rest.others⟩) .vault
      (Option.map .vault)
      (Vault.invoke (sharesAt site.hstETH site.foreign).apart { env with current_contract_address := site.vault } entry)
  | .token entry => part Whole.token (fun s t => { s with token := t }) .token (fun _ => none)
      (Token.invoke { env with current_contract_address := site.hstETH } entry)
  | .others change => do
    write (fun s => { s with others := change s.others })
    pure none

/-- The chain with the three contracts on it. -/
abbrev serve : Chain (Whole O) → Origin × Action O → Except (Failure Refusal) (Option Event) × Chain (Whole O) :=
  deliver site.handler (act site)

/-- A transition of it. -/
abbrev Delivered (O : Type) : Type := Delivery (Whole O) Refusal (Action O) (Option Event)

/-- What a transition does. -/
inductive Does (r : Delivered O) : Prop
  | bridged (entry : Bridge.Entry) (event : Option BridgeEvent) : r.input.2 = .handler entry →
      r.output = .ok (event.map .handler) →
      Bridge.call site.prim site.axelar.peers (r.env site.handler) entry r.before.state.bridge =
        .ok (event, r.after.state.bridge) →
      r.after.state.vault = r.before.state.vault → Does r
  | pooled (entry : Vault.Entry) (event : Option VaultEvent) : r.input.2 = .vault entry →
      r.output = .ok (event.map .vault) →
      Vault.invoke (sharesAt site.hstETH site.foreign).apart (r.env site.vault) entry r.before.state.pool =
        .ok (event, r.after.state.pool) →
      r.after.state.handler = r.before.state.handler → r.after.state.outgoing = r.before.state.outgoing → Does r
  | called (entry : Token.Entry) : r.input.2 = .token entry → r.output = .ok none →
      Token.invoke (r.env site.hstETH) entry r.before.state.token = .ok ((), r.after.state.token) →
      r.after.state = { r.before.state with token := r.after.state.token } → Does r
  | beside (change : O → O) : r.input.2 = .others change → r.output = .ok none →
      r.after.state = { r.before.state with others := change r.before.state.others } → Does r
  | failed (e : Failure Refusal) : r.output = .error e → r.after.state = r.before.state →
      (∀ entry, r.input.2 = .handler entry → ∃ e,
        Bridge.call site.prim site.axelar.peers (r.env site.handler) entry r.before.state.bridge = .error e) →
      (∀ entry, r.input.2 = .vault entry → ∃ e, Vault.invoke (sharesAt site.hstETH site.foreign).apart (r.env site.vault)
        entry r.before.state.pool = .error e) → Does r

variable {site} {r : Delivered O}

theorem does_of_makes (makes : Makes (serve site) r) : Does site r := by
  rcases Delivery.cases makes with ⟨event,out,ran⟩ | ⟨e,out,same⟩
  · cases input : r.input.2 with
    | handler entry =>
      rw [input] at ran
      simp only [act,part_ok,Prod.mk.injEq] at ran
      obtain ⟨event',t,ran,rfl,after⟩ := ran
      exact .bridged entry event' input out (by rw [after]; exact ran) (by rw [after])
    | vault entry =>
      rw [input] at ran
      simp only [act,part_ok,Prod.mk.injEq] at ran
      obtain ⟨event',t,ran,rfl,after⟩ := ran
      exact .pooled entry event' input out (by rw [after]; exact ran) (by rw [after]) (by rw [after])
    | token entry =>
      rw [input] at ran
      simp only [act,part_ok,Prod.mk.injEq] at ran
      obtain ⟨_,t,ran,rfl,after⟩ := ran
      exact .called entry input out (by rw [after]; exact ran) (by rw [after])
    | others change =>
      rw [input] at ran
      simp only [act,bind_ok,write_ok,pure_ok,exists_eq_left,Prod.mk.injEq] at ran
      obtain ⟨rfl,after⟩ := ran
      exact .beside change input out after
  · have failed := Delivery.failed makes out
    refine .failed e out same ?_ ?_
    · intro entry input
      rw [input] at failed
      simp only [act] at failed
      exact part_error failed
    · intro entry input
      rw [input] at failed
      simp only [act] at failed
      exact part_error failed

/-! ### What each contract sees -/

/-- The chain as the handler sees it. -/
def bridgeView (c : Chain (Whole O)) : Chain (Bridge.State O) := ⟨c.clock,c.state.bridge⟩
/-- The chain as the vault sees it. -/
def poolView (c : Chain (Whole O)) : Chain (Vault.State (Vault.Ground O)) := ⟨c.clock,c.state.pool⟩

/-- A transition as the handler sees it: its own call, or a change elsewhere. -/
def bridgeSees (r : Delivered O) : Origin × Bridge.Action O :=
  (r.input.1,match r.input.2 with
    | .handler entry => .handler entry
    | _ => .elsewhere (fun _ => r.after.state.bridge.rest.ground))

/-- A transition as the vault sees it. -/
def poolSees (r : Delivered O) : Origin × Vault.Action (Vault.Ground O) :=
  (r.input.1,match r.input.2 with
    | .vault entry => .vault entry
    | _ => .outside (fun _ => r.after.state.pool.rest))

theorem bridge_sees {entry : Bridge.Entry} (input : r.input.2 = .handler entry) :
    bridgeSees r = (r.input.1,.handler entry) := by
  simp only [bridgeSees,input]

theorem bridge_sees_other (other : ∀ entry, r.input.2 ≠ .handler entry) :
    bridgeSees r = (r.input.1,.elsewhere (fun _ => r.after.state.bridge.rest.ground)) := by
  unfold bridgeSees
  split
  · rename_i entry input
    exact absurd input (other entry)
  · rfl

theorem pool_sees {entry : Vault.Entry} (input : r.input.2 = .vault entry) : poolSees r = (r.input.1,.vault entry) := by
  simp only [poolSees,input]

theorem pool_sees_other (other : ∀ entry, r.input.2 ≠ .vault entry) :
    poolSees r = (r.input.1,.outside (fun _ => r.after.state.pool.rest)) := by
  unfold poolSees
  split
  · rename_i entry input
    exact absurd input (other entry)
  · rfl

/-- What is not a call to the handler is a change elsewhere to it. -/
theorem bridge_elsewhere (makes : Makes (serve site) r) (other : ∀ entry, r.input.2 ≠ .handler entry)
    (own : r.after.state.handler = r.before.state.handler) (outgoing : r.after.state.outgoing = r.before.state.outgoing) :
    (Bridge.serve site.prim site.axelar site.handler (bridgeView r.before) (bridgeSees r)).2 = bridgeView r.after := by
  have ran : Bridge.act site.prim site.axelar (r.env site.handler)
      (.elsewhere (fun _ => r.after.state.bridge.rest.ground)) r.before.state.bridge = .ok (none,r.after.state.bridge) := by
    simp only [Bridge.act,bind_ok,write_ok,pure_ok,exists_eq_left,Prod.mk.injEq,true_and,Whole.bridge,own,outgoing]
  rw [bridge_sees_other other]
  exact Delivery.viewed makes ran

/-- What is not a call to the vault is a change outside it. -/
theorem pool_outside (makes : Makes (serve site) r) (other : ∀ entry, r.input.2 ≠ .vault entry)
    (own : r.after.state.vault = r.before.state.vault) :
    (Vault.serve (sharesAt site.hstETH site.foreign) site.vault (poolView r.before) (poolSees r)).2 = poolView r.after := by
  have ran : Vault.act (sharesAt site.hstETH site.foreign) (r.env site.vault)
      (.outside (fun _ => r.after.state.pool.rest)) r.before.state.pool = .ok (none,r.after.state.pool) := by
    simp only [Vault.act,bind_ok,write_ok,pure_ok,exists_eq_left,Prod.mk.injEq,true_and,Whole.pool,own]
  rw [pool_sees_other other]
  exact Delivery.viewed makes ran

/-- The handler's part of a transition is a transition of the handler. -/
theorem bridge_follows (makes : Makes (serve site) r) :
    (Bridge.serve site.prim site.axelar site.handler (bridgeView r.before) (bridgeSees r)).2 = bridgeView r.after := by
  cases does_of_makes makes with
  | bridged entry event input out ran =>
    rw [bridge_sees input]
    exact Delivery.viewed makes ran
  | pooled entry event input out ran own outgoing =>
    exact bridge_elsewhere makes (by simp [input]) own outgoing
  | called entry input out ran after =>
    exact bridge_elsewhere makes (by simp [input]) (by rw [after]) (by rw [after])
  | beside change input out after =>
    exact bridge_elsewhere makes (by simp [input]) (by rw [after]) (by rw [after])
  | failed e out same bridge pool =>
    by_cases own : ∃ entry, r.input.2 = .handler entry
    · obtain ⟨entry,input⟩ := own
      obtain ⟨e,ran⟩ := bridge entry input
      rw [bridge_sees input]
      exact Delivery.viewed_failed makes same ran
    · exact bridge_elsewhere makes (fun entry input => own ⟨entry,input⟩) (by rw [same]) (by rw [same])

/-- The vault's part of a transition is a transition of the vault. -/
theorem pool_follows (makes : Makes (serve site) r) :
    (Vault.serve (sharesAt site.hstETH site.foreign) site.vault (poolView r.before) (poolSees r)).2 = poolView r.after := by
  cases does_of_makes makes with
  | bridged entry event input out ran own => exact pool_outside makes (by simp [input]) own
  | pooled entry event input out ran own outgoing =>
    rw [pool_sees input]
    exact Delivery.viewed makes ran
  | called entry input out ran after => exact pool_outside makes (by simp [input]) (by rw [after])
  | beside change input out after => exact pool_outside makes (by simp [input]) (by rw [after])
  | failed e out same bridge pool =>
    by_cases own : ∃ entry, r.input.2 = .vault entry
    · obtain ⟨entry,input⟩ := own
      obtain ⟨e,ran⟩ := pool entry input
      rw [pool_sees input]
      exact Delivery.viewed_failed makes same ran
    · exact pool_outside makes (fun entry input => own ⟨entry,input⟩) (by rw [same])

variable (site)

/-- The handler's side of a transition. -/
def bridgeSide (r : Delivered O) : Turned O :=
  transition (Bridge.serve site.prim site.axelar site.handler) (bridgeView r.before) (bridgeSees r)
/-- The vault's side of a transition. -/
def poolSide (r : Delivered O) : Served (Vault.Ground O) :=
  transition (Vault.serve (sharesAt site.hstETH site.foreign) site.vault) (poolView r.before) (poolSees r)

variable {site} (c : Chain (Whole O)) (calls : List (Origin × Action O))

/-- What the handler sees of a run is a run of the handler. -/
theorem bridge_viewed :
    trace (Bridge.serve site.prim site.axelar site.handler) (bridgeView c) ((trace (serve site) c calls).map bridgeSees) =
        (trace (serve site) c calls).map (bridgeSide site) ∧
      run (Bridge.serve site.prim site.axelar site.handler) (bridgeView c) ((trace (serve site) c calls).map bridgeSees) =
        bridgeView (run (serve site) c calls) :=
  ⟨trace_viewed bridgeView bridgeSees calls (fun _ _ makes => bridge_follows makes),
    run_viewed bridgeView bridgeSees calls (fun _ _ makes => bridge_follows makes)⟩

/-- What the vault sees of it is a run of the vault. -/
theorem pool_viewed :
    trace (Vault.serve (sharesAt site.hstETH site.foreign) site.vault) (poolView c)
        ((trace (serve site) c calls).map poolSees) = (trace (serve site) c calls).map (poolSide site) ∧
      run (Vault.serve (sharesAt site.hstETH site.foreign) site.vault) (poolView c)
        ((trace (serve site) c calls).map poolSees) = poolView (run (serve site) c calls) :=
  ⟨trace_viewed poolView poolSees calls (fun _ _ makes => pool_follows makes),
    run_viewed poolView poolSees calls (fun _ _ makes => pool_follows makes)⟩

end Site

end Helix.Protocol
