import Helix.Protocol

/-!
What stands behind the positions of the vault. The handler, the share token and the
vault are on one chain, and anybody else calls any of them at any time. The gateway,
the gas service, the oracle and the borrowed token may call the token too while they
are called. Then every share of a position is one that came over the bridge and did
not go back (`positions_backed`), and whoever has shares in the vault and no debt gets
them out and over the bridge (`shares_come_home`).
-/
namespace Helix.Protocol
open Invoke
open Bridge (BridgeHandler BridgeHandlerError BridgeEvent Primitives Axelar Outgoing Turned)
open Vault (HelixVault VaultError VaultEvent Clients sharesAt Served)
open Token (HelixToken Bystanders)

/-! ### The token of both contracts -/

/-- The token of this handler and this vault. -/
structure Issued (handler vault : Address) (t : HelixToken) : Prop where
  sound : Token.Sound t
  bridge : t.bridge_handler = handler
  vault : t.vault_contract = vault

/-- A call to the token by somebody else: neither contract makes or signs it, and the
    bridge burns only what its owner lets it burn. -/
def Outsider (handler vault : Address) (s s' : Option HelixToken) : Prop :=
  ∃ env entry, ¬ env.Authorised handler ∧ ¬ env.Authorised vault ∧
    (∀ owner shares, entry = .bridge_burn owner shares → env.Authorised owner) ∧ Token.invoke env entry s = .ok ((), s')

/-- Any number of such calls. -/
abbrev Outsiders (handler vault : Address) : Option HelixToken → Option HelixToken → Prop :=
  Relation.ReflTransGen (Outsider handler vault)

/-- The token stays the one of both contracts, and no shares are issued. -/
def Unissued (handler vault : Address) (s s' : Option HelixToken) : Prop :=
  ∀ t, s = some t → Issued handler vault t →
    ∃ u, s' = some u ∧ Issued handler vault u ∧ u.total_shares ≤ t.total_shares

section Token
variable {handler vault : Address} {t u : HelixToken} {s s' s'' : Option HelixToken} {env : Env} {entry : Token.Entry}

theorem Issued.effect (issued : Issued handler vault t) (effect : Token.Effect env t entry u) : Issued handler vault u := by
  have sound := issued.sound.effect effect
  cases effect with
  | transfer_from spender owner recipient amount u nonneg authorised spent enough =>
    exact ⟨sound,spent.bridge.trans issued.bridge,spent.vault.trans issued.vault⟩
  | burn_from spender owner amount u nonneg authorised spent enough =>
    exact ⟨sound,spent.bridge.trans issued.bridge,spent.vault.trans issued.vault⟩
  | _ => exact ⟨sound,issued.bridge,issued.vault⟩

/-- Only the two contracts issue shares. -/
theorem supply_le (minter : ¬ env.Authorised t.vault_contract) (bridge : ¬ env.Authorised t.bridge_handler)
    (effect : Token.Effect env t entry u) : u.total_shares ≤ t.total_shares := by
  cases effect with
  | vault_mint recipient shares nonneg authorised fits => exact absurd authorised minter
  | bridge_mint recipient shares nonneg authorised fits => exact absurd authorised bridge
  | vault_burn owner shares nonneg authorised enough => exact absurd authorised minter
  | bridge_burn owner shares nonneg authorised enough => exact absurd authorised bridge
  | burn owner amount nonneg authorised enough =>
    show t.total_shares - amount ≤ t.total_shares
    omega
  | burn_from spender owner amount u nonneg authorised spent enough =>
    show u.total_shares - amount ≤ t.total_shares
    rw [spent.shares]
    omega
  | transfer_from spender owner recipient amount u nonneg authorised spent enough => exact spent.shares.le
  | _ => exact le_rfl

theorem Unissued.refl (handler vault : Address) (s : Option HelixToken) : Unissued handler vault s s :=
  fun t found issued => ⟨t,found,issued,le_rfl⟩

theorem Unissued.trans (first : Unissued handler vault s s') (second : Unissued handler vault s' s'') :
    Unissued handler vault s s'' := by
  intro t found issued
  obtain ⟨u,found',issued',less⟩ := first t found issued
  obtain ⟨u',found'',issued'',less'⟩ := second u found' issued'
  exact ⟨u',found'',issued'',less'.trans less⟩

theorem Outsider.unissued (call : Outsider handler vault s s') : Unissued handler vault s s' := by
  obtain ⟨env,entry,not_handler,not_vault,_,ran⟩ := call
  intro t found issued
  obtain ⟨u,after,effect⟩ := Token.effect_of_invoke found ran
  refine ⟨u,after,issued.effect effect,supply_le ?_ ?_ effect⟩
  · rwa [issued.vault]
  · rwa [issued.bridge]

theorem Outsider.bystander (call : Outsider handler vault s s') : Token.Bystander vault s s' := by
  obtain ⟨env,entry,_,not_vault,consent,ran⟩ := call
  exact ⟨env,entry,not_vault,consent,ran⟩

theorem unissued_of_outsiders (calls : Outsiders handler vault s s') : Unissued handler vault s s' := by
  induction calls with
  | refl => exact .refl _ _ _
  | tail _ last ih => exact ih.trans last.unissued

theorem bystanders_of_outsiders (calls : Outsiders handler vault s s') : Bystanders vault s s' :=
  Relation.ReflTransGen.mono (fun _ _ call => call.bystander) _ _ calls

end Token

/-! ### What the vault does to the token -/

/-- The contracts on the site are two, and whatever other contracts do when these call
    them, they do to the token what anybody else can do. -/
structure Site.Peaceful {O : Type} (site : Site O) : Prop where
  apart : site.handler ≠ site.vault
  validate_message : ∀ env caller source_chain message_id source_address payload_hash w answer w',
    site.axelar.validate_message env caller source_chain message_id source_address payload_hash w = some (answer, w') →
      Outsiders site.handler site.vault w.token w'.token
  pay_gas : ∀ env sender chain address payload spender gas metadata w answer w',
    site.axelar.pay_gas env sender chain address payload spender gas metadata w = some (answer, w') →
      Outsiders site.handler site.vault w.token w'.token
  call_contract : ∀ env caller chain address payload w answer w',
    site.axelar.call_contract env caller chain address payload w = some (answer, w') →
      Outsiders site.handler site.vault w.token w'.token
  foreign : site.foreign.Within (fun w w' => Outsiders site.handler site.vault w.token w'.token)

section Pools
variable {O : Type} {site : Site O} {env : Env} {w w' : Vault.Ground O}

theorem Site.Peaceful.strangers (peaceful : site.Peaceful) : Vault.Strangers site.vault site.foreign where
  balance _ _ _ _ _ done := bystanders_of_outsiders (peaceful.foreign.balance _ _ _ _ _ done)
  transfer _ _ _ _ _ _ _ done := bystanders_of_outsiders (peaceful.foreign.transfer _ _ _ _ _ _ _ done)
  transfer_from _ _ _ _ _ _ _ _ done := bystanders_of_outsiders (peaceful.foreign.transfer_from _ _ _ _ _ _ _ _ done)
  assets_for_shares _ _ _ _ _ done := bystanders_of_outsiders (peaceful.foreign.assets_for_shares _ _ _ _ _ done)
  shares_for_assets _ _ _ _ _ done := bystanders_of_outsiders (peaceful.foreign.shares_for_assets _ _ _ _ _ done)
  lastprice _ _ _ _ _ done := bystanders_of_outsiders (peaceful.foreign.lastprice _ _ _ _ _ done)
  decimals _ _ _ _ _ done := bystanders_of_outsiders (peaceful.foreign.decimals _ _ _ _ _ done)

/-- No shares are issued beside the vault. -/
def Steady (site : Site O) (w w' : Vault.Ground O) : Prop := Unissued site.handler site.vault w.token w'.token

instance : Std.Refl (Steady site) := ⟨fun w => .refl _ _ w.token⟩
instance : IsTrans (Vault.Ground O) (Steady site) := ⟨fun _ _ _ first second => Unissued.trans first second⟩

theorem steady_ask {question : Token.Contract Int} {x : Int} (asked : w.ask question = some (x, w')) : Steady site w w' := by
  rw [Vault.ask_same asked]
  exact Std.Refl.refl _

/-- A transfer issues nothing, whoever asks for it. -/
theorem steady_call {entry : Token.Entry} (called : w.call env entry = some ((), w'))
    (transfers : ∀ t u, Token.Effect env t entry u → u.total_shares = t.total_shares) : Steady site w w' := by
  intro t found issued
  obtain ⟨u,after,effect⟩ := Vault.call_effect found called
  exact ⟨u,after,issued.effect effect,(transfers t u effect).le⟩

theorem transfer_supply {owner recipient : Address} {amount : Int} (t u : HelixToken)
    (effect : Token.Effect env t (.transfer owner recipient amount) u) : u.total_shares = t.total_shares := by
  cases effect
  rfl

theorem transfer_from_supply {spender owner recipient : Address} {amount : Int} (t u : HelixToken)
    (effect : Token.Effect env t (.transfer_from spender owner recipient amount) u) : u.total_shares = t.total_shares := by
  cases effect with
  | transfer_from _ _ _ _ _ _ _ spent => exact spent.shares

/-- The contracts that the vault calls issue no shares. -/
theorem Site.Peaceful.steady (peaceful : site.Peaceful) : (sharesAt site.hstETH site.foreign).Within (Steady site) where
  balance env id w answer w' done := by
    simp only [sharesAt] at done
    split at done
    · exact steady_ask done
    · exact unissued_of_outsiders (peaceful.foreign.balance _ _ _ _ _ done)
  transfer env owner recipient amount w answer w' done := by
    simp only [sharesAt] at done
    split at done
    · exact steady_call done transfer_supply
    · exact unissued_of_outsiders (peaceful.foreign.transfer _ _ _ _ _ _ _ done)
  transfer_from env spender owner recipient amount w answer w' done := by
    simp only [sharesAt] at done
    split at done
    · exact steady_call done transfer_from_supply
    · exact unissued_of_outsiders (peaceful.foreign.transfer_from _ _ _ _ _ _ _ _ done)
  assets_for_shares env shares w answer w' done := by
    simp only [sharesAt] at done
    split at done
    · exact steady_ask done
    · exact unissued_of_outsiders (peaceful.foreign.assets_for_shares _ _ _ _ _ done)
  shares_for_assets env assets w answer w' done := by
    simp only [sharesAt] at done
    split at done
    · exact steady_ask done
    · exact unissued_of_outsiders (peaceful.foreign.shares_for_assets _ _ _ _ _ done)
  lastprice env asset w answer w' done := unissued_of_outsiders (peaceful.foreign.lastprice _ _ _ _ _ done)
  decimals env asset w answer w' done := unissued_of_outsiders (peaceful.foreign.decimals _ _ _ _ _ done)

end Pools

/-! ### What the handler does to the token -/

/-- What is outside the handler is carried on: the supply grows by no more than the new
    calls of the handler say, and to the vault all of it is done by others. -/
def Carries {O : Type} (handler vault : Address) (w w' : Bridge.Outside O) : Prop :=
  ∀ t, w.ground.token = some t → Issued handler vault t →
    ∃ u new, w'.ground.token = some u ∧ Issued handler vault u ∧ w'.outgoing = w.outgoing ++ new ∧
      u.total_shares ≤ t.total_shares + (new.map Outgoing.supplyChange).sum ∧
      Bystanders vault w.ground.token w'.ground.token

section Handlers
variable {O : Type} {handler vault : Address} {env : Env} {w w' w'' : Bridge.Outside O}

namespace Carries

theorem refl (handler vault : Address) (w : Bridge.Outside O) : Carries handler vault w w :=
  fun t found issued => ⟨t,[],found,issued,(List.append_nil _).symm,by simp,.refl⟩

theorem trans (first : Carries handler vault w w') (second : Carries handler vault w' w'') : Carries handler vault w w'' := by
  intro t found issued
  obtain ⟨u,new,found',issued',grown,less,calls⟩ := first t found issued
  obtain ⟨u',new',found'',issued'',grown',less',calls'⟩ := second u found' issued'
  refine ⟨u',new ++ new',found'',issued'',by rw [grown',grown,List.append_assoc],?_,calls.trans calls'⟩
  rw [List.map_append,List.sum_append]
  omega

/-- Others are called, and a message is handed over perhaps. -/
theorem outsiders (new : List Outgoing) (calls : Outsiders handler vault w.ground.token w'.ground.token)
    (grown : w'.outgoing = w.outgoing ++ new) (silent : (new.map Outgoing.supplyChange).sum = 0) :
    Carries handler vault w w' := by
  intro t found issued
  obtain ⟨u,found',issued',less⟩ := unissued_of_outsiders calls t found issued
  exact ⟨u,new,found',issued',grown,by omega,bystanders_of_outsiders calls⟩

/-- The handler calls the token. -/
theorem token {entry : Token.Entry} (called : Bridge.Outside.tokenCall env entry w = some ((), w'))
    (stranger : ¬ env.Authorised vault)
    (consent : ∀ t owner shares, w.ground.token = some t → Issued handler vault t → entry = .bridge_burn owner shares →
      Bystanders vault w.ground.token w'.ground.token)
    (existing : ∀ admin vault bridge, entry ≠ .initialise admin vault bridge) : Carries handler vault w w' := by
  intro t found issued
  obtain ⟨t',u,found',effect,after⟩ := Bridge.tokenCall_effect called existing
  rw [found] at found'
  cases found'
  refine ⟨u,[.token entry (some t) (some u)],by rw [after],issued.effect effect,by rw [after],by simp,?_⟩
  by_cases burns : ∃ owner shares, entry = .bridge_burn owner shares
  · obtain ⟨owner,shares,same⟩ := burns
    exact consent t owner shares found issued same
  · refine .single ⟨env,entry,stranger,fun owner shares same => absurd ⟨owner,shares,same⟩ burns,?_⟩
    unfold Bridge.Outside.tokenCall at called
    split at called
    · rename_i ran
      cases called
      exact ran
    · cases called

/-- The handler burns shares of an owner that asked for it. -/
theorem burn {owner : Address} {shares : Int}
    (called : Bridge.Outside.tokenCall env (.bridge_burn owner shares) w = some ((), w')) (own : env.invoker = some handler)
    (stranger : ¬ env.Authorised vault) (other : owner ≠ vault) : Carries handler vault w w' := by
  refine token called stranger ?_ (by simp)
  rintro t owner shares found issued ⟨⟩
  obtain ⟨t',u,found',effect,after⟩ := Bridge.tokenCall_effect called (by simp)
  rw [found] at found'
  cases found'
  rw [found,after]
  cases effect with
  | bridge_burn _ _ nonneg authorised enough =>
    -- the owner's consent stands for the one it gave to the handler
    have asked : ({ env with signed := fun a => decide (a = owner) } : Env).Authorised t.bridge_handler := by
      rw [issued.bridge]
      exact .inl own
    refine .single ⟨{ env with signed := fun a => decide (a = owner) },.bridge_burn owner shares,?_,?_,
      Token.bridge_burn_succeeds issued.sound _ nonneg asked enough⟩
    · rintro (direct | signs)
      · exact stranger (.inl direct)
      · exact other (of_decide_eq_true signs).symm
    · rintro _ _ ⟨⟩
      exact .inr (decide_eq_true rfl)

end Carries

/-- What a call to the handler does outside it. -/
theorem carries_of_effect {site : Site O} {s s' : Bridge.State O} {entry : Bridge.Entry} {event : Option BridgeEvent}
    (peaceful : site.Peaceful) (own : env.current_contract_address = site.handler) (stranger : ¬ env.Authorised site.vault)
    (effect : Bridge.Effect site.prim site.axelar.peers env s entry event s') :
    Carries site.handler site.vault s.rest s'.rest := by
  have signed : env.signed site.vault ≠ true := fun signs => stranger (.inr signs)
  have nested : ∀ callee, ¬ (env.calling callee).Authorised site.vault := by
    rintro callee (direct | signs)
    · exact peaceful.apart (own.symm.trans (Option.some.inj direct))
    · exact signed signs
  have invoked : ∀ callee, (env.calling callee).invoker = some site.handler := fun _ => congrArg some own
  have approved : ∀ {chain id address payload w}, Bridge.Accepts site.prim site.axelar.peers env s chain id address payload w →
      Carries site.handler site.vault s.rest w := by
    intro chain id address payload w accepted
    obtain ⟨quiet,answered⟩ := accepted.gateway
    exact .outsiders [] (peaceful.validate_message _ _ _ _ _ _ _ _ _ answered) (by rw [quiet,List.append_nil]) rfl
  cases effect with
  | deposit chain id address payload key shares recipient w w' accepted asked within resolved minted =>
    exact (approved accepted).trans (.token minted (nested _) (by simp) (by simp))
  | yield_update chain id address payload assets w w' accepted asked updated =>
    exact (approved accepted).trans (.token updated (nested _) (by simp) (by simp))
  | register user evm_address authorised => exact .refl _ _ _
  | withdrawal user shares eth_recipient value payload w allowed converted encoded sent =>
    obtain ⟨gas_token,burned,paid,_,burn,pay,handed⟩ := sent.steps
    have other : user ≠ site.vault := by
      rintro rfl
      exact stranger allowed.authorised
    obtain ⟨q,paid_gas,same⟩ := Option.map_eq_some_iff.mp pay
    cases same
    obtain ⟨q',handed_over,same⟩ := Option.map_eq_some_iff.mp handed
    cases same
    have paid : Carries site.handler site.vault burned ⟨q.2,burned.outgoing⟩ :=
      .outsiders [] (peaceful.pay_gas _ _ _ _ _ _ _ _ _ _ _ paid_gas) (List.append_nil _).symm rfl
    have sent : Carries site.handler site.vault ⟨q.2,burned.outgoing⟩
        ⟨q'.2,burned.outgoing ++ [.wire s.own.source_chain s.own.source_address payload]⟩ :=
      .outsiders _ (peaceful.call_contract _ _ _ _ _ _ _ _ handed_over) rfl (by simp [Outgoing.supplyChange])
    exact (Carries.burn burn (invoked _) (nested _) other).trans (paid.trans sent)
  | configured entry event h authorised changed => exact .refl _ _ _

end Handlers

/-! ### Any order of calls -/

/-- A call by somebody else than the two contracts; and the share token stays the only
    collateral of the vault and is never what it lends. -/
structure Public {O : Type} (site : Site O) (call : Origin × Action O) : Prop where
  invoker : call.1.invoker ≠ some site.handler ∧ call.1.invoker ≠ some site.vault
  signed : call.1.signed site.handler = false ∧ call.1.signed site.vault = false
  plain : ∀ entry, call.2 = .vault entry → (Vault.Action.vault entry : Vault.Action (Vault.Ground O)).Plain site.hstETH

/-- The token is the one of both contracts, and its supply is what the handler's calls
    made of it, or less. -/
def Backed {O : Type} (site : Site O) (s : Whole O) : Prop :=
  ∃ t, s.token = some t ∧ Issued site.handler site.vault t ∧ t.total_shares ≤ (s.outgoing.map Outgoing.supplyChange).sum

section Steps
variable {O : Type} {site : Site O} {r : Delivered O}

theorem Public.strangers {call : Origin × Action O} (open_call : Public site call) (clock : Clock) (self : Address) :
    ¬ (call.1.env clock self).Authorised site.handler ∧ ¬ (call.1.env clock self).Authorised site.vault := by
  constructor
  · rintro (direct | signs)
    · exact open_call.invoker.1 direct
    · exact absurd (signs.symm.trans open_call.signed.1) (by decide)
  · rintro (direct | signs)
    · exact open_call.invoker.2 direct
    · exact absurd (signs.symm.trans open_call.signed.2) (by decide)

theorem Backed.unissued {s s' : Whole O} (backed : Backed site s) (token : Unissued site.handler site.vault s.token s'.token)
    (outgoing : s'.outgoing = s.outgoing) : Backed site s' := by
  obtain ⟨t,found,issued,covered⟩ := backed
  obtain ⟨u,found',issued',less⟩ := token t found issued
  exact ⟨u,found',issued',by rw [outgoing]; exact less.trans covered⟩

/-- Nobody but the handler burns on its behalf, so a call to the token that returns
    is one that anybody else can make. -/
theorem Backed.outsider {env : Env} {entry : Token.Entry} {s : Whole O} {token : Option HelixToken} (backed : Backed site s)
    (not_handler : ¬ env.Authorised site.handler) (not_vault : ¬ env.Authorised site.vault)
    (ran : Token.invoke env entry s.token = .ok ((), token)) : Outsider site.handler site.vault s.token token := by
  obtain ⟨t,found,issued,_⟩ := backed
  refine ⟨env,entry,not_handler,not_vault,?_,ran⟩
  rintro owner shares rfl
  obtain ⟨u,_,effect⟩ := Token.effect_of_invoke found ran
  cases effect with
  | bridge_burn _ _ nonneg authorised enough =>
    rw [issued.bridge] at authorised
    exact absurd authorised not_handler

/-- Every transition keeps the supply backed, and what is no call to the vault is to
    the vault what others do. -/
theorem backed_kept (peaceful : site.Peaceful) (makes : Makes (serve site) r) (open_call : Public site r.input)
    (backed : Backed site r.before.state) :
    Backed site r.after.state ∧ ((∀ entry, r.input.2 ≠ .vault entry) →
      Bystanders site.vault r.before.state.token r.after.state.token) := by
  cases does_of_makes makes with
  | bridged entry event input out ran vault =>
    obtain ⟨t,found,issued,covered⟩ := backed
    have stranger := (open_call.strangers (Delivery.clock r) site.handler).2
    obtain ⟨u,new,found',issued',grown,less,calls⟩ :=
      carries_of_effect peaceful rfl stranger (Bridge.effect_of_call ran) t found issued
    have outgoing : r.after.state.outgoing = r.before.state.outgoing ++ new := grown
    refine ⟨⟨u,found',issued',?_⟩,fun _ => calls⟩
    rw [outgoing,List.map_append,List.sum_append]
    omega
  | pooled entry event input out ran handler outgoing =>
    refine ⟨?_,fun other => absurd input (other entry)⟩
    rcases Vault.invoke_cases ran with ⟨v,v',_,_,effect⟩ | ⟨_,rest,_⟩
    · exact backed.unissued (Vault.rest_of_effect peaceful.steady effect) outgoing
    · have token : r.after.state.token = r.before.state.token := congrArg Vault.Ground.token rest
      exact backed.unissued (by rw [token]; exact .refl _ _ _) outgoing
  | called entry input out ran after =>
    obtain ⟨not_handler,not_vault⟩ := open_call.strangers (Delivery.clock r) site.hstETH
    have call := backed.outsider not_handler not_vault ran
    exact ⟨backed.unissued call.unissued (by rw [after]),fun _ => .single call.bystander⟩
  | beside change input out after =>
    have token : r.after.state.token = r.before.state.token := by rw [after]
    refine ⟨backed.unissued (by rw [token]; exact .refl _ _ _) (by rw [after]),fun _ => ?_⟩
    rw [token]
  | failed e out same bridge pool =>
    rw [same]
    exact ⟨backed,fun _ => .refl⟩

end Steps

section Runs
variable {O : Type} {site : Site O} {c : Chain (Whole O)} {calls : List (Origin × Action O)}

/-- In every run the supply stays backed. -/
theorem serve_backed (peaceful : site.Peaceful) (open_calls : ∀ call ∈ calls, Public site call)
    (start : Backed site c.state) :
    Backed site (run (serve site) c calls).state ∧ ∀ r ∈ trace (serve site) c calls, Backed site r.before.state := by
  have kept : ∀ r ∈ trace (serve site) c calls, Makes (serve site) r → Backed site r.before.state →
      Backed site r.after.state := by
    intro r member makes backed
    exact (backed_kept peaceful makes (open_calls r.input (trace_input member)) backed).1
  exact ⟨run_invariant (serve site) (fun c => Backed site c.state) calls start kept,
    trace_invariant (serve site) (fun c => Backed site c.state) calls start kept⟩

/-- What the vault sees of the run is one in which it keeps its shares. -/
theorem pool_custodial (peaceful : site.Peaceful) (open_calls : ∀ call ∈ calls, Public site call)
    (start : Backed site c.state) :
    Vault.Custodial site.hstETH site.vault (trace (Vault.serve (sharesAt site.hstETH site.foreign) site.vault) (poolView c)
      ((trace (serve site) c calls).map poolSees)) := by
  have backed := (serve_backed peaceful open_calls start).2
  refine .of_trace ?_ ?_ ?_
  · intro call seen
    obtain ⟨r,member,rfl⟩ := List.mem_map.mp seen
    have open_call := open_calls r.input (trace_input member)
    exact ⟨open_call.invoker.2,open_call.signed.2⟩
  · rw [(pool_viewed c calls).1]
    intro q seen move input
    obtain ⟨r,member,rfl⟩ := List.mem_map.mp seen
    have makes := trace_makes member
    have other : ∀ entry, r.input.2 ≠ .vault entry := by
      intro entry called
      have sees : (poolSees r).2 = .vault entry := congrArg Prod.snd (pool_sees called)
      exact absurd (sees.symm.trans input) (by simp)
    have after : (poolSide site r).after = poolView r.after := pool_follows makes
    rw [after]
    exact (backed_kept peaceful makes (open_calls r.input (trace_input member)) (backed r member)).2 other
  · intro call seen
    obtain ⟨r,member,rfl⟩ := List.mem_map.mp seen
    have open_call := open_calls r.input (trace_input member)
    unfold poolSees
    split
    · rename_i entry input
      exact open_call.plain entry input
    · trivial

end Runs

/-! ### What stands behind the positions -/

section Positions
variable {O : Type}

/-- The payload of an execution that returned. -/
def executed (r : Delivered O) : Option Bytes :=
  match r.input.2, r.output with
  | .handler (.execute _ _ _ payload), .ok _ => some payload
  | _, _ => none

/-- The shares of the deposits that a run executes, each payload hash once. -/
def arrived (prim : Primitives) (past : List (Delivered O)) : Int :=
  Bridge.depositedShares prim ((past.filterMap executed).filter (fun p => Bridge.IsDeposit p))

/-- The shares of the withdrawals that were handed to the gateway. -/
def sentBack (prim : Primitives) (outgoing : List Outgoing) : Int :=
  ((outgoing.filterMap Outgoing.wirePayload).map (fun p => (Bridge.wireShares prim p).getD 0)).sum

variable {site : Site O}

/-- The handler sees the executions. -/
theorem executed_seen {r : Delivered O} (makes : Makes (serve site) r) :
    Bridge.executedPayload (bridgeSide site r) = executed r := by
  cases input : r.input.2 with
  | handler entry =>
    have sees : (bridgeSide site r).input.2 = .handler entry := congrArg Prod.snd (bridge_sees input)
    cases does_of_makes makes with
    | bridged entry' event called out ran =>
      rw [input] at called
      cases called
      have delivered : Bridge.serve site.prim site.axelar site.handler (bridgeView r.before) (r.input.1,.handler entry) =
          (.ok event, ⟨r.clock,r.after.state.bridge⟩) := deliver_ok ran
      have answers : (bridgeSide site r).output = .ok event := by
        rw [bridgeSide,bridge_sees input]
        exact congrArg Prod.fst delivered
      cases entry <;> simp [Bridge.executedPayload,executed,sees,answers,input,out]
    | failed e out same bridge pool =>
      obtain ⟨e',ran⟩ := bridge entry input
      have delivered : Bridge.serve site.prim site.axelar site.handler (bridgeView r.before) (r.input.1,.handler entry) =
          (.error e', ⟨r.clock,r.before.state.bridge⟩) := deliver_error ran
      have answers : (bridgeSide site r).output = .error e' := by
        rw [bridgeSide,bridge_sees input]
        exact congrArg Prod.fst delivered
      simp [Bridge.executedPayload,executed,answers,out]
    | pooled entry event called => rw [input] at called; cases called
    | called entry called => rw [input] at called; cases called
    | beside change called => rw [input] at called; cases called
  | vault entry => simp [Bridge.executedPayload,executed,bridgeSide,transition,bridgeSees,input]
  | token entry => simp [Bridge.executedPayload,executed,bridgeSide,transition,bridgeSees,input]
  | others change => simp [Bridge.executedPayload,executed,bridgeSide,transition,bridgeSees,input]

/-- What the three are deployed with. -/
structure Setup (O : Type) where
  clock : Clock
  admin : Address
  gateway : Address
  gas_service : Address
  source_chain : String
  source_address : String
  others : O

/-- A chain on which the token, the handler and the vault were just deployed. -/
def beginning (site : Site O) (setup : Setup O) : Chain (Whole O) where
  clock := setup.clock
  state :=
    { handler := Bridge.construct setup.admin setup.gateway setup.gas_service site.hstETH site.vault setup.source_chain
        setup.source_address
      outgoing := []
      vault := none
      token := some (Token.fresh setup.admin site.vault site.handler)
      others := setup.others }

theorem beginning_backed (setup : Setup O) : Backed site (beginning site setup).state :=
  ⟨Token.fresh setup.admin site.vault site.handler,rfl,⟨.fresh _ _ _,rfl,rfl⟩,le_rfl⟩

section Runs
variable (setup : Setup O) (calls : List (Origin × Action O))

/-- The executions that the handler sees are those of the run. -/
theorem executedPayloads_seen (c : Chain (Whole O)) :
    Bridge.executedPayloads ((trace (serve site) c calls).map (bridgeSide site)) =
      (trace (serve site) c calls).filterMap executed := by
  rw [Bridge.executedPayloads,List.filterMap_map]
  exact List.filterMap_congr (fun r member => executed_seen (trace_makes member))

/-- The handler keeps its books in such a run. -/
theorem bridge_books (roundTrips : site.prim.codec.RoundTrips) :
    Bridge.Books site.prim site.axelar site.handler
      ((trace (serve site) (beginning site setup) calls).map (bridgeSide site))
      (run (serve site) (beginning site setup) calls).state.bridge := by
  have books : Bridge.Books site.prim site.axelar site.handler
      (trace (Bridge.serve site.prim site.axelar site.handler) (bridgeView (beginning site setup))
        ((trace (serve site) (beginning site setup) calls).map bridgeSees))
      (run (Bridge.serve site.prim site.axelar site.handler) (bridgeView (beginning site setup))
        ((trace (serve site) (beginning site setup) calls).map bridgeSees)).state :=
    Bridge.serve_books roundTrips setup.clock setup.admin setup.gateway setup.gas_service site.hstETH site.vault
      setup.source_chain setup.source_address ⟨some (Token.fresh setup.admin site.vault site.handler),setup.others⟩ _
  obtain ⟨seen,ends⟩ := bridge_viewed (beginning site setup) calls
  rw [seen,ends] at books
  exact books

/-- What the handler's calls made of the supply is what arrived less what was sent
    back. -/
theorem supply_told (roundTrips : site.prim.codec.RoundTrips) :
    ((run (serve site) (beginning site setup) calls).state.outgoing.map Outgoing.supplyChange).sum =
      arrived site.prim (trace (serve site) (beginning site setup) calls) -
        sentBack site.prim (run (serve site) (beginning site setup) calls).state.outgoing := by
  have told := (bridge_books setup calls roundTrips).conserved.supply
  rw [Bridge.executedDeposits,executedPayloads_seen] at told
  exact told

/-- What the vault keeps in such a run. -/
theorem pool_held (peaceful : site.Peaceful) (open_calls : ∀ call ∈ calls, Public site call) :
    Vault.Held site.hstETH site.vault ((trace (serve site) (beginning site setup) calls).map (poolSide site))
      (poolView (run (serve site) (beginning site setup) calls)) := by
  have custodial := pool_custodial peaceful open_calls (beginning_backed setup)
  have held := Vault.serve_held peaceful.strangers setup.clock setup.admin site.handler setup.others _ custodial
  obtain ⟨seen,ends⟩ := pool_viewed (beginning site setup) calls
  have viewed : Vault.beginning setup.clock setup.admin site.vault site.handler setup.others =
      poolView (beginning site setup) := rfl
  rw [viewed,seen,ends] at held
  exact held

/-- Whatever anybody calls in whatever order, the shares of all positions together are
    in the vault, and they are among the shares that arrived over the bridge and were
    not sent back. -/
theorem positions_backed (peaceful : site.Peaceful) (roundTrips : site.prim.codec.RoundTrips)
    (open_calls : ∀ call ∈ calls, Public site call) :
    let final := run (serve site) (beginning site setup) calls
    ∃ t, final.state.token = some t ∧
      (∀ v, final.state.vault = some v → v.positions.total (fun p => p.deposited_shares) ≤ t.balance site.vault) ∧
      t.balance site.vault ≤ t.total_shares ∧
      t.total_shares ≤ arrived site.prim (trace (serve site) (beginning site setup) calls) -
        sentBack site.prim final.state.outgoing := by
  obtain ⟨t,found,issued,covered⟩ := (serve_backed peaceful open_calls (beginning_backed setup)).1
  have held := pool_held setup calls peaceful open_calls
  obtain ⟨u,found',_,custody⟩ := held.token
  have same : some t = some u := found.symm.trans found'
  cases same
  refine ⟨t,found,?_,issued.sound.balance_le site.vault,?_⟩
  · intro v reached
    have sound := held.sound
    rw [Vault.book_of_own reached] at custody sound
    exact sound.deposits.symm.le.trans custody
  · rw [← supply_told setup calls roundTrips]
    exact covered

end Runs

end Positions

/-! ### The way home -/

/-- The handler lets shares of a user out in this call, and what it calls on the way
    answers. -/
structure Lets {O : Type} (site : Site O) (h : BridgeHandler) (env : Env) (user : Address) (shares : Int) : Prop where
  unpaused : h.paused = false
  enabled : h.withdrawals_enabled = true
  within : h.Within shares (h.read_epoch_burns (h.epoch env)) h.max_burn_per_epoch
  paid : ∃ gas_token, site.prim.address_from_str Bridge.GAS_TOKEN_ADDRESS = some gas_token ∧
    ∀ payload w, ∃ w', site.axelar.pay_gas (env.calling h.gas_service) site.handler h.source_chain h.source_address payload
      user ⟨gas_token,Bridge.DEFAULT_GAS_AMOUNT⟩ [] w = some ((), w')
  handed : ∀ payload w, ∃ w', site.axelar.call_contract (env.calling h.gateway) site.handler h.source_chain
    h.source_address payload w = some ((), w')

/-- What a withdrawal of shares puts on record: the burn and one message with the
    same shares. -/
def SentHome (prim : Primitives) (h : BridgeHandler) (user : Address) (shares : Int) (before after : List Outgoing) : Prop :=
  ∃ t : HelixToken, ∃ payload, Bridge.wireShares prim payload = some shares ∧
    after = before ++ [.token (.bridge_burn user shares) (some t) (some (t.burned user shares)),
      .wire h.source_chain h.source_address payload]

section Home
variable {O : Type} {site : Site O}

theorem tokenCall_returns {env : Env} {entry : Token.Entry} {w : Bridge.Outside O} {t u : HelixToken}
    (found : w.ground.token = some t) (ran : Token.invoke env entry (some t) = .ok ((), some u)) :
    Bridge.Outside.tokenCall env entry w =
      some ((), ⟨{ w.ground with token := some u },w.outgoing ++ [.token entry (some t) (some u)]⟩) := by
  unfold Bridge.Outside.tokenCall
  rw [found,ran]

/-- A handler that lets shares out sends those home that the user has. -/
theorem lets_out {s : Bridge.State O} {env : Env} {user : Address} {shares : Int} {t : HelixToken}
    (eth_recipient : BytesN 32) (roundTrips : site.prim.codec.RoundTrips) (lets : Lets site s.own env user shares)
    (burns : ∀ epoch, 0 ≤ s.own.read_epoch_burns epoch) (here : env.current_contract_address = site.handler)
    (authorised : env.Authorised user) (found : s.rest.ground.token = some t)
    (issued : Issued site.handler site.vault t) (nonneg : 0 ≤ shares) (enough : shares ≤ t.balance user) :
    ∃ event s', Bridge.call site.prim site.axelar.peers env (.initiate_withdrawal user shares eth_recipient) s =
        .ok (event, s') ∧ SentHome site.prim s.own user shares s.rest.outgoing s'.rest.outgoing := by
  obtain ⟨gas_token,known,pays⟩ := lets.paid
  have converted : i128_to_u256 shares = some (BitVec.ofNat 256 shares.toNat) := if_pos nonneg
  have allowed : Bridge.Withdraws env s user shares := ⟨authorised,lets.unpaused,lets.enabled,nonneg,lets.within⟩
  let payload := site.prim.codec.encode_withdraw
    (Bridge.withdrawMessage env s.own eth_recipient (BitVec.ofNat 256 shares.toNat))
  have carried : Bridge.wireShares site.prim payload = some shares :=
    Bridge.wireShares_of roundTrips burns allowed converted
  have asked : (env.calling s.own.token_contract).Authorised t.bridge_handler := by
    rw [issued.bridge]
    exact .inl (congrArg some here)
  have burned := Token.bridge_burn_succeeds issued.sound (env.calling s.own.token_contract) nonneg asked enough
  have burn := tokenCall_returns found burned
  obtain ⟨g,paid⟩ := pays payload { s.rest.ground with token := some (t.burned user shares) }
  obtain ⟨g',handed⟩ := lets.handed payload g
  let record := s.rest.outgoing ++ [.token (.bridge_burn user shares) (some t) (some (t.burned user shares))]
  have sends : Bridge.Sends site.prim site.axelar.peers env s user shares payload
      ⟨g',record ++ [.wire s.own.source_chain s.own.source_address payload]⟩ := by
    refine ⟨gas_token,_,⟨g,record⟩,known,burn,?_,?_⟩
    · rw [here]
      exact congrArg (Option.map _) paid
    · rw [here]
      exact congrArg (Option.map _) handed
  exact ⟨_,_,Bridge.withdrawal_returns allowed converted rfl sends,t,payload,carried,List.append_assoc _ _ _⟩

section Deliveries
variable {c : Chain (Whole O)} {origin : Origin}

/-- A call to the vault that returns, as the chain delivers it. -/
theorem vault_delivers {entry : Vault.Entry} {event : Option VaultEvent} {t : Vault.State (Vault.Ground O)}
    (ran : Vault.invoke (sharesAt site.hstETH site.foreign).apart (origin.env (c.clock.advance origin) site.vault) entry
      c.state.pool = .ok (event, t)) :
    serve site c (origin,.vault entry) = (.ok (event.map .vault),
      ⟨c.clock.advance origin,⟨c.state.handler,c.state.outgoing,t.own,t.rest.token,t.rest.others⟩⟩) := by
  apply deliver_ok
  simp only [act,part_ok]
  exact ⟨event,t,ran,rfl⟩

/-- A call to the handler that returns. -/
theorem handler_delivers {entry : Bridge.Entry} {event : Option BridgeEvent} {t : Bridge.State O}
    (ran : Bridge.call site.prim site.axelar.peers (origin.env (c.clock.advance origin) site.handler) entry
      c.state.bridge = .ok (event, t)) :
    serve site c (origin,.handler entry) = (.ok (event.map .handler),
      ⟨c.clock.advance origin,⟨t.own,t.rest.outgoing,c.state.vault,t.rest.ground.token,t.rest.ground.others⟩⟩) := by
  apply deliver_ok
  simp only [act,part_ok]
  exact ⟨event,t,ran,rfl⟩

end Deliveries

/-- A user without debt is paid all its shares by a vault that has them, and leaves no
    position. -/
theorem shares_paid {past : List (Served (Vault.Ground O))} {c : Chain (Whole O)} {v : HelixVault} {t : HelixToken}
    {user : Address} {p : Vault.Position} {origin : Origin}
    (held : Vault.Held site.hstETH site.vault past (poolView c)) (reached : c.state.vault = some v)
    (found_token : c.state.token = some t) (unpaused : v.paused = false)
    (authorised : origin.invoker = some user ∨ origin.signed user = true) (found : v.positions.get user = some p)
    (debtless : p.borrowed_amount = 0) (positive : 0 < p.deposited_shares) :
    user ≠ site.vault ∧ p.deposited_shares ≤ t.balance site.vault ∧ ∃ event v', v'.positions.get user = none ∧
      serve site c (origin,.vault (.withdraw user site.hstETH p.deposited_shares)) = (.ok event,
        ⟨c.clock.advance origin,
          { c.state with vault := some v', token := some (t.moved site.vault user p.deposited_shares) }⟩) := by
  obtain ⟨u,found_token',guarded,custody⟩ := held.token
  have same : some t = some u := found_token.symm.trans found_token'
  cases same
  have sound := held.sound
  rw [Vault.book_of_own reached] at custody sound
  have within := (sound.shares_le user).trans custody
  rw [show v.book.shares user = p.deposited_shares from Store.weight_of_get found] at within
  obtain ⟨different,withdraws⟩ := Vault.exit_withdraws (w := c.state.pool.rest) site.foreign
    (origin.env (c.clock.advance origin) site.vault) (held.sheltered v reached) sound found_token guarded custody
    (held.supports reached found positive) unpaused authorised found debtless positive
  have delivered : serve site c (origin,.vault (.withdraw user site.hstETH p.deposited_shares)) = _ :=
    vault_delivers (Vault.invoke_of_call reached (Vault.withdraw_returns withdraws))
  refine ⟨fun same => different same.symm,within,_,_,?_,delivered⟩
  simp [HelixVault.settled]

section Runs
variable (setup : Setup O) (calls : List (Origin × Action O))

end Runs

end Home

/-! ### A small chain with all three -/

namespace Small
open Vault.Small (Purse)

def handler : Address := Vault.Small.bridge
def gateway : Address := .contract (BytesN.fill 32 10)
def gas_service : Address := .contract (BytesN.fill 32 11)

/-- A gateway that approves whatever it is asked. -/
def axelar : Axelar Purse where
  validate_message _ _ _ _ _ _ ground := some (true, ground)
  call_contract _ _ _ _ _ ground := some ((), ground)
  pay_gas _ _ _ _ _ _ _ _ ground := some ((), ground)

def site : Site Purse where
  prim := Bridge.Small.primitives
  axelar := axelar
  foreign := Vault.beside Vault.Small.clients
  handler := handler
  vault := Vault.Small.vault
  hstETH := Vault.Small.tokenA

def setup : Setup Purse where
  clock := ⟨0,0⟩
  admin := Vault.Small.admin
  gateway := gateway
  gas_service := gas_service
  source_chain := "ethereum"
  source_address := "0xHelixVault"
  others := Vault.Small.purse

theorem beside_outsiders {α : Type} {handler vault : Address} {f : Purse → Option (α × Purse)}
    {w w' : Vault.Ground Purse} {x : α} (done : Vault.Ground.beside f w = some (x, w')) :
    Outsiders handler vault w.token w'.token := by
  obtain ⟨r,_,same⟩ := Option.map_eq_some_iff.mp done
  cases same
  exact .refl

theorem beside_within (handler vault : Address) (clients : Clients Purse) :
    (Vault.beside clients).Within (fun w w' => Outsiders handler vault w.token w'.token) where
  balance _ _ _ _ _ done := beside_outsiders done
  transfer _ _ _ _ _ _ _ done := beside_outsiders done
  transfer_from _ _ _ _ _ _ _ _ done := beside_outsiders done
  assets_for_shares _ _ _ _ _ done := beside_outsiders done
  shares_for_assets _ _ _ _ _ done := beside_outsiders done
  lastprice _ _ _ _ _ done := beside_outsiders done
  decimals _ _ _ _ _ done := beside_outsiders done

theorem peaceful : site.Peaceful where
  apart := by decide
  validate_message _ _ _ _ _ _ _ _ _ done := by cases done; exact .refl
  pay_gas _ _ _ _ _ _ _ _ _ _ _ done := by cases done; exact .refl
  call_contract _ _ _ _ _ _ _ _ done := by cases done; exact .refl
  foreign := beside_within handler Vault.Small.vault Vault.Small.clients

/-- Still in the same ledger, a call that one address signed. -/
def at_once (signer : Address) : Origin := { Origin.signedBy signer with ledgers := 0 }

/-- Ten shares arrive for a user, who deposits four of them. -/
def arrival : List (Origin × Action Purse) :=
  [(at_once Vault.Small.admin,.handler (.set_withdrawals_enabled true)),
    (at_once Vault.Small.admin,.vault (.initialise Vault.Small.admin Vault.Small.oracle Vault.Small.borrow_token
      Vault.Small.config)),
    (at_once Vault.Small.admin,.vault (.add_supported_asset site.hstETH)),
    (.signedBy Vault.Small.userA,.handler (.register_recipient Vault.Small.userA Bridge.Small.key)),
    (.signedBy Vault.Small.admin,.handler (.execute "ethereum" "m1" "0xHelixVault"
      (Bridge.depositPayload Bridge.Small.key 10 0))),
    (.signedBy Vault.Small.userA,.token (.approve Vault.Small.userA site.vault 10 100)),
    (.signedBy Vault.Small.userA,.vault (.deposit Vault.Small.userA site.hstETH 4))]

theorem public_of {origin : Origin} {signer : Address} {action : Action Purse} (alone : origin.invoker = none)
    (signs : origin.signed = fun a => decide (a = signer)) (not_handler : site.handler ≠ signer)
    (not_vault : site.vault ≠ signer)
    (plain : ∀ entry, action = .vault entry →
      (Vault.Action.vault entry : Vault.Action (Vault.Ground Purse)).Plain site.hstETH) : Public site (origin,action) where
  invoker := ⟨by simp [alone],by simp [alone]⟩
  signed := ⟨by simp [signs,not_handler],by simp [signs,not_vault]⟩
  plain := plain

theorem arrival_public : ∀ call ∈ arrival, Public site call := by
  simp only [arrival,List.forall_mem_cons,List.not_mem_nil,false_imp_iff,implies_true,and_true]
  refine ⟨?_,?_,?_,?_,?_,?_,?_⟩
  all_goals
    refine public_of rfl rfl (by decide) (by decide) ?_
    rintro entry ⟨⟩
  · show Vault.Small.borrow_token ≠ site.hstETH
    decide
  · rfl
  · trivial

end Small

/-- All ten shares arrived over the bridge, and the four of the position are in the vault. -/
theorem positions_backed_arrival :
    let final := run (serve Small.site) (beginning Small.site Small.setup) Small.arrival
    arrived Small.site.prim (trace (serve Small.site) (beginning Small.site Small.setup) Small.arrival) = 10 ∧
      final.state.vault.map (fun v => v.positions.total (fun p => p.deposited_shares)) = some 4 ∧
      ∃ t, final.state.token = some t ∧
        (∀ v, final.state.vault = some v → v.positions.total (fun p => p.deposited_shares) ≤ t.balance Small.site.vault) ∧
        t.balance Small.site.vault ≤ t.total_shares ∧
        t.total_shares ≤ arrived Small.site.prim
            (trace (serve Small.site) (beginning Small.site Small.setup) Small.arrival) -
          sentBack Small.site.prim final.state.outgoing :=
  ⟨by decide +kernel,by decide +kernel,
    positions_backed Small.setup Small.arrival Small.peaceful abiCodec_roundTrips Small.arrival_public⟩

end Helix.Protocol
