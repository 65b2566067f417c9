import Helix.Register
import Helix.VaultSystem

/-!
Who may do what to a vault, told from its history alone. Roles, pause,
configuration and listed assets are what the calls that returned wrote last
(`Register.reached`); every call that returns is entitled by the calls before it,
and what an admin or a pauser asks for is done exactly when it is
(`calls_entitled`); and a position is changed by its own user, or by a liquidator
that holds the role (`position_touched`).
-/
namespace Helix.Vault
open Invoke

/-! ### What the calls write -/

namespace Entry

/-- A role is given to an address or taken from it. -/
def assigns (addr : Address) (role : Nat) : Entry → Option Bool
  | .initialise admin oracle borrow_token config => some ((fresh admin oracle borrow_token config).roles addr role)
  | .grant_role given given_role => if addr = given ∧ role = given_role then some true else none
  | .revoke_role taken taken_role => if addr = taken ∧ role = taken_role then some false else none
  | _ => none

/-- The pause begins or ends. -/
def switches : Entry → Option Bool
  | .initialise _ _ _ _ => some false
  | .pause => some true
  | .pause_by _ => some true
  | .unpause => some false
  | .unpause_by _ => some false
  | _ => none

def configures : Entry → Option PoolConfig
  | .initialise _ _ _ config => some config
  | .update_config new_config => some new_config
  | _ => none

/-- An asset is listed or delisted. -/
def lists (asset : Address) : Entry → Option Bool
  | .initialise _ _ _ _ => some false
  | .add_supported_asset added => if asset = added then some true else none
  | .remove_supported_asset removed => if asset = removed then some false else none
  | _ => none

/-- Admin, oracle and borrowed token are given. -/
def founds : Entry → Option (Address × Address × Address)
  | .initialise admin oracle borrow_token _ => some (admin, oracle, borrow_token)
  | _ => none

/-- The calls of admins and pausers. -/
def administers : Entry → Bool
  | .deposit _ _ _ => false
  | .withdraw _ _ _ => false
  | .borrow _ _ => false
  | .repay _ _ => false
  | .liquidate _ _ _ => false
  | _ => true

end Entry

/-- Some calls write a field of the vault, and all others keep it. -/
structure Register {β : Type} (look : HelixVault → β) (writes : Entry → Option β) : Prop where
  founded : ∀ admin oracle borrow_token config,
    writes (.initialise admin oracle borrow_token config) = some (look (fresh admin oracle borrow_token config))
  moved : ∀ (W : Type) (clients : Clients W) (env : Env) (s s' : World HelixVault W) entry event,
    Effect clients env s entry event s' → look s'.own = (writes entry).getD (look s.own)

theorem roles_register (addr : Address) (role : Nat) : Register (fun v => v.roles addr role) (Entry.assigns addr role) where
  founded _ _ _ _ := rfl
  moved W clients env s s' entry event effect := by
    cases effect with
    | configured entry event v configured =>
      cases configured with
      | grant_role given given_role =>
        simp only [Entry.assigns]
        split <;> rfl
      | revoke_role taken taken_role =>
        simp only [Entry.assigns]
        split <;> rfl
      | _ => rfl
    | _ => rfl

theorem paused_register : Register (fun v => v.paused) Entry.switches where
  founded _ _ _ _ := rfl
  moved W clients env s s' entry event effect := by
    cases effect with
    | configured entry event v configured => cases configured <;> rfl
    | _ => rfl

theorem config_register : Register (fun v => v.pool_config) Entry.configures where
  founded _ _ _ _ := rfl
  moved W clients env s s' entry event effect := by
    cases effect with
    | configured entry event v configured => cases configured <;> rfl
    | _ => rfl

theorem founders_register : Register (fun v => (v.admin, v.oracle_address, v.borrow_token)) Entry.founds where
  founded _ _ _ _ := rfl
  moved W clients env s s' entry event effect := by
    cases effect with
    | configured entry event v configured => cases configured <;> rfl
    | _ => rfl

theorem listed_register (asset : Address) : Register (fun v => decide (asset ∈ v.supported_assets)) (Entry.lists asset) where
  founded _ _ _ _ := by simp [Entry.lists,fresh]
  moved W clients env s s' entry event effect := by
    cases effect with
    | configured entry event v configured =>
      cases configured with
      | add_supported_asset added =>
        by_cases same : asset = added
        · subst same
          by_cases there : asset ∈ s.own.supported_assets <;> simp [Entry.lists,there]
        · by_cases there : added ∈ s.own.supported_assets <;> simp [Entry.lists,there,same]
      | remove_supported_asset removed =>
        by_cases same : asset = removed <;> simp [Entry.lists,same]
      | _ => rfl
    | _ => rfl

section Histories
variable {W : Type} (past : List (Served W))

/-- The role was given to the address and not taken since. -/
def Holds (addr : Address) (role : Nat) : Prop := latest (fun r => (served r).bind (Entry.assigns addr role)) past = some true
def Unpaused : Prop := latest (fun r => (served r).bind Entry.switches) past = some false
/-- The asset was listed and not delisted since. -/
def Listed (asset : Address) : Prop := latest (fun r => (served r).bind (Entry.lists asset)) past = some true
def Configuration (config : PoolConfig) : Prop := latest (fun r => (served r).bind Entry.configures) past = some config
def Founded (admin oracle borrow_token : Address) : Prop :=
  latest (fun r => (served r).bind Entry.founds) past = some (admin, oracle, borrow_token)
def Unfounded : Prop := latest (fun r => (served r).bind Entry.founds) past = none

/-- What has to have happened before a call for it to be served. -/
inductive Entitled (env : Env) : Entry → Prop
  | initialise (admin oracle borrow_token : Address) (config : PoolConfig) : Unfounded past → env.Authorised admin →
      ValidConfig config → Entitled env (.initialise admin oracle borrow_token config)
  | deposit (user collateral_token : Address) (amount : Int) : env.Authorised user → 0 < amount → Unpaused past →
      Listed past collateral_token → Entitled env (.deposit user collateral_token amount)
  | withdraw (user collateral_token : Address) (amount : Int) : env.Authorised user → 0 < amount → Unpaused past →
      Listed past collateral_token → Entitled env (.withdraw user collateral_token amount)
  | borrow (user : Address) (amount : Int) : env.Authorised user → 0 < amount → Unpaused past →
      Entitled env (.borrow user amount)
  | repay (user : Address) (amount : Int) : env.Authorised user → 0 < amount → Entitled env (.repay user amount)
  | liquidate (liquidator user : Address) (repay_amount : Int) : env.Authorised liquidator → 0 < repay_amount →
      Unpaused past → Holds past liquidator LIQUIDATOR_ROLE → Entitled env (.liquidate liquidator user repay_amount)
  | pause (admin oracle borrow_token : Address) : Founded past admin oracle borrow_token → env.Authorised admin →
      Holds past admin PAUSER_ROLE → Entitled env .pause
  | unpause (admin oracle borrow_token : Address) : Founded past admin oracle borrow_token → env.Authorised admin →
      Holds past admin PAUSER_ROLE → Entitled env .unpause
  | pause_by (caller : Address) : env.Authorised caller → Holds past caller PAUSER_ROLE → Entitled env (.pause_by caller)
  | unpause_by (caller : Address) : env.Authorised caller → Holds past caller PAUSER_ROLE →
      Entitled env (.unpause_by caller)
  | update_config (admin oracle borrow_token : Address) (new_config : PoolConfig) :
      Founded past admin oracle borrow_token → env.Authorised admin → ValidConfig new_config →
      Entitled env (.update_config new_config)
  | add_supported_asset (admin oracle borrow_token asset : Address) : Founded past admin oracle borrow_token →
      env.Authorised admin → Entitled env (.add_supported_asset asset)
  | remove_supported_asset (admin oracle borrow_token asset : Address) : Founded past admin oracle borrow_token →
      env.Authorised admin → Entitled env (.remove_supported_asset asset)
  | grant_role (admin oracle borrow_token addr : Address) (role : Nat) : Founded past admin oracle borrow_token →
      env.Authorised admin → Entitled env (.grant_role addr role)
  | revoke_role (admin oracle borrow_token addr : Address) (role : Nat) : Founded past admin oracle borrow_token →
      env.Authorised admin → Entitled env (.revoke_role addr role)

end Histories

namespace Small

def granting : Origin × Action Purse := calls admin (.grant_role userB LIQUIDATOR_ROLE)

/-- A liquidation, thirteen years later. -/
def liquidation : Origin × Action Purse :=
  ({ Origin.signedBy userB with seconds := 13 * 31536000 },.vault (.liquidate userB userA 100000))

/-- The loan is not repaid, and is liquidated. -/
def overdue : List (Origin × Action Purse) :=
  opening ++ [calls userA (.deposit userA tokenA 1000000),calls userA (.borrow userA 500000),
    granting,liquidation]

def overduePast (n : Nat) : List (Served Purse) := trace step start (overdue.take n)

def overdueCall (n : Nat) (call : Origin × Action Purse) : Served Purse :=
  transition step (run step start (overdue.take n)) call

end Small

/-! ### What the history says of the vault -/

/-- Every register of the vault holds what the history wrote last. -/
def Recorded {W : Type} (past : List (Served W)) (own : Option HelixVault) : Prop :=
  ∀ (β : Type) (look : HelixVault → β) (writes : Entry → Option β), Register look writes →
    own.map look = latest (fun r => (served r).bind writes) past

section Transitions
variable {W : Type} {clients : Clients W} {vault : Address} {r : Served W} {entry : Entry}

/-- A transition leaves in a register what its call writes, or what was there. -/
theorem Register.step {β : Type} {look : HelixVault → β} {writes : Entry → Option β} (register : Register look writes)
    (makes : Makes (serve clients vault) r) : r.after.state.own.map look =
      ((served r).bind writes).or (r.before.state.own.map look) := by
  cases turn_of_makes makes with
  | called entry event v v' input out found left effect =>
    have entered : served r = some entry := served_some.mpr ⟨input,event,out⟩
    rw [entered,left,found,Option.map_some,Option.map_some,Option.bind_some,register.moved _ _ _ _ _ _ _ effect]
    cases writes entry <;> rfl
  | initialised admin oracle borrow_token config input out missing left rest valid =>
    have entered := served_some.mpr ⟨input,_,out⟩
    rw [entered,left,Option.map_some,Option.bind_some,register.founded]
    rfl
  | moved move input out own rest =>
    have quiet : served r = none := by simp [served,input]
    rw [quiet,own]
    rfl
  | failed e out same =>
    have quiet : served r = none := by simp [served,out]
    rw [quiet,same]
    rfl

/-- What a run leaves in the vault is told by its history. -/
theorem recorded_run (clock : Clock) (w : W) (calls : List (Origin × Action W)) :
    Recorded (trace (serve clients vault) (undeployed clock w) calls)
      (run (serve clients vault) (undeployed clock w) calls).state.own := by
  intro β look writes register
  exact run_latest (fun c : Chain (State W) => c.state.own.map look) (fun r => (served r).bind writes) calls rfl
    (fun r _ makes => register.step makes)

variable {clock : Clock} {w : W} {calls : List (Origin × Action W)} {past rest : List (Served W)}

/-- A transition of a run is made by the vault that the history before it tells. -/
theorem recorded_before (split : trace (serve clients vault) (undeployed clock w) calls = past ++ r :: rest) :
    Recorded past r.before.state.own := by
  have told : Recorded (trace (serve clients vault) (undeployed clock w) (past.map (fun q => q.input))) _ :=
    recorded_run clock w _
  rw [trace_past split] at told
  have made := congrArg Transition.before (trace_split split)
  rw [made]
  exact told

namespace Recorded
variable {v : HelixVault} {admin oracle borrow_token : Address}

theorem holds (recorded : Recorded past (some v)) {addr : Address} {role : Nat} :
    Holds past addr role ↔ v.roles addr role = true := by
  rw [Holds,← recorded _ _ _ (roles_register addr role),Option.map_some,Option.some.injEq]

theorem unpaused (recorded : Recorded past (some v)) : Unpaused past ↔ v.paused = false := by
  rw [Unpaused,← recorded _ _ _ paused_register,Option.map_some,Option.some.injEq]

theorem configuration (recorded : Recorded past (some v)) {config : PoolConfig} :
    Configuration past config ↔ v.pool_config = config := by
  rw [Configuration,← recorded _ _ _ config_register,Option.map_some,Option.some.injEq]

theorem listed (recorded : Recorded past (some v)) {asset : Address} :
    Listed past asset ↔ asset ∈ v.supported_assets := by
  rw [Listed,← recorded _ _ _ (listed_register asset),Option.map_some,Option.some.injEq,decide_eq_true_iff]

theorem founded (recorded : Recorded past (some v)) :
    Founded past admin oracle borrow_token ↔ v.admin = admin ∧ v.oracle_address = oracle ∧ v.borrow_token = borrow_token := by
  rw [Founded,← recorded _ _ _ founders_register,Option.map_some,Option.some.injEq,Prod.mk.injEq,Prod.mk.injEq]

/-- The admin, oracle and borrowed token of the vault are the founding ones. -/
theorem founders (recorded : Recorded past (some v)) : Founded past v.admin v.oracle_address v.borrow_token :=
  recorded.founded.mpr ⟨rfl,rfl,rfl⟩

theorem unfounded {own : Option HelixVault} (recorded : Recorded past own) : Unfounded past ↔ own = none := by
  rw [Unfounded,← recorded _ _ _ founders_register,Option.map_eq_none_iff]

/-- A history in which the vault was founded tells of a vault. -/
theorem exists_of_founded {own : Option HelixVault} (recorded : Recorded past own)
    (founded : Founded past admin oracle borrow_token) : ∃ v, own = some v ∧ v.admin = admin := by
  rw [Founded,← recorded _ _ _ founders_register,Option.map_eq_some_iff] at founded
  obtain ⟨v,found,given⟩ := founded
  exact ⟨v,found,congrArg Prod.fst given⟩

/-- A role is held in a vault that there is. -/
theorem exists_of_holds {own : Option HelixVault} {addr : Address} {role : Nat} (recorded : Recorded past own)
    (holds : Holds past addr role) : ∃ v, own = some v ∧ v.roles addr role = true := by
  rw [Holds,← recorded _ _ _ (roles_register addr role),Option.map_eq_some_iff] at holds
  exact holds

end Recorded

/-! ### Entitlement -/

section Calls
variable {env : Env} {event : Option VaultEvent} {s s' : World HelixVault W}

theorem entitled_of_configured {v : HelixVault} (recorded : Recorded past (some s.own))
    (configured : Configured env s.own entry event v) : Entitled past env entry := by
  cases configured with
  | pause authorised role => exact .pause _ _ _ recorded.founders authorised (recorded.holds.mpr role)
  | unpause authorised role => exact .unpause _ _ _ recorded.founders authorised (recorded.holds.mpr role)
  | pause_by caller authorised role => exact .pause_by caller authorised (recorded.holds.mpr role)
  | unpause_by caller authorised role => exact .unpause_by caller authorised (recorded.holds.mpr role)
  | update_config new_config authorised valid => exact .update_config _ _ _ new_config recorded.founders authorised valid
  | add_supported_asset asset authorised => exact .add_supported_asset _ _ _ asset recorded.founders authorised
  | remove_supported_asset asset authorised => exact .remove_supported_asset _ _ _ asset recorded.founders authorised
  | grant_role addr role authorised => exact .grant_role _ _ _ addr role recorded.founders authorised
  | revoke_role addr role authorised => exact .revoke_role _ _ _ addr role recorded.founders authorised

theorem entitled_of_effect (recorded : Recorded past (some s.own)) (effect : Effect clients env s entry event s') :
    Entitled past env entry := by
  cases effect with
  | deposit user token amount p w deposits =>
    exact .deposit user token amount deposits.asked.authorised deposits.asked.positive
      (recorded.unpaused.mpr deposits.unpaused) (recorded.listed.mpr deposits.supported)
  | withdraw user token amount p w withdraws =>
    exact .withdraw user token amount withdraws.asked.authorised withdraws.asked.positive
      (recorded.unpaused.mpr withdraws.unpaused) (recorded.listed.mpr withdraws.supported)
  | borrow user amount factor p w borrows =>
    exact .borrow user amount borrows.asked.authorised borrows.asked.positive (recorded.unpaused.mpr borrows.unpaused)
  | repay user amount actual p w repays => exact .repay user amount repays.asked.authorised repays.asked.positive
  | liquidate liquidator user repay_amount actual bonus seized p w liquidates =>
    exact .liquidate liquidator user repay_amount liquidates.asked.authorised liquidates.asked.positive
      (recorded.unpaused.mpr liquidates.unpaused) (recorded.holds.mpr liquidates.role)
  | configured entry event v configured => exact entitled_of_configured recorded configured

/-- What an admin or a pauser may change, a call changes. -/
theorem call_of_configured {clients : Clients (World HelixVault W)} {v : HelixVault}
    (configured : Configured env s.own entry event v) :
    call clients env entry s = .ok (event, { s with own := v }) := by
  cases configured with
  | pause authorised role | unpause authorised role =>
    simp [call,pause,unpause,pause_by,unpause_by,require_pauser_auth_ok,authorised,role]
  | pause_by caller authorised role | unpause_by caller authorised role =>
    simp [call,pause_by,unpause_by,require_pauser_auth_ok,authorised,role]
  | update_config new_config authorised valid =>
    simp [call,update_config,require_admin_auth_ok,validate_config_ok,authorised,valid]
  | add_supported_asset asset authorised => simp [call,add_supported_asset,require_admin_auth_ok,authorised]
  | remove_supported_asset asset authorised => simp [call,remove_supported_asset,require_admin_auth_ok,authorised]
  | grant_role addr role authorised => simp [call,grant_role,write_role,require_admin_auth_ok,authorised]
  | revoke_role addr role authorised => simp [call,revoke_role,write_role,require_admin_auth_ok,authorised]

/-- An entitled admin or pauser may change what it asks for, of a vault there is. -/
theorem configured_of_entitled {v : HelixVault} (recorded : Recorded past (some v)) (entitled : Entitled past env entry)
    (administers : entry.administers = true) : ∃ event v', Configured env v entry event v' := by
  cases entitled with
  | initialise admin oracle borrow_token config unfounded =>
    cases recorded.unfounded.mp unfounded
  | pause admin oracle borrow_token founded authorised role =>
    obtain ⟨rfl,_⟩ := recorded.founded.mp founded
    exact ⟨_,_,.pause authorised (recorded.holds.mp role)⟩
  | unpause admin oracle borrow_token founded authorised role =>
    obtain ⟨rfl,_⟩ := recorded.founded.mp founded
    exact ⟨_,_,.unpause authorised (recorded.holds.mp role)⟩
  | pause_by caller authorised role => exact ⟨_,_,.pause_by caller authorised (recorded.holds.mp role)⟩
  | unpause_by caller authorised role => exact ⟨_,_,.unpause_by caller authorised (recorded.holds.mp role)⟩
  | update_config admin oracle borrow_token new_config founded authorised valid =>
    obtain ⟨rfl,_⟩ := recorded.founded.mp founded
    exact ⟨_,_,.update_config new_config authorised valid⟩
  | add_supported_asset admin oracle borrow_token asset founded authorised =>
    obtain ⟨rfl,_⟩ := recorded.founded.mp founded
    exact ⟨_,_,.add_supported_asset asset authorised⟩
  | remove_supported_asset admin oracle borrow_token asset founded authorised =>
    obtain ⟨rfl,_⟩ := recorded.founded.mp founded
    exact ⟨_,_,.remove_supported_asset asset authorised⟩
  | grant_role admin oracle borrow_token addr role founded authorised =>
    obtain ⟨rfl,_⟩ := recorded.founded.mp founded
    exact ⟨_,_,.grant_role addr role authorised⟩
  | revoke_role admin oracle borrow_token addr role founded authorised =>
    obtain ⟨rfl,_⟩ := recorded.founded.mp founded
    exact ⟨_,_,.revoke_role addr role authorised⟩
  | _ => cases administers

end Calls

/-- A vault is initialized by the admin it names. -/
theorem initialise_authorised {clients : Clients (World HelixVault W)} {env : Env} {event : Option VaultEvent}
    {s s' : World (Option HelixVault) W} {admin oracle borrow_token : Address} {config : PoolConfig}
    (done : invoke clients env (.initialise admin oracle borrow_token config) s = .ok (event, s')) (missing : s.own = none) :
    env.Authorised admin := by
  unfold invoke at done
  simp only [missing,initialise,bind_ok,auth_ok] at done
  obtain ⟨_,⟨authorised,_⟩,_⟩ := done
  exact authorised

/-- Where there is no vault, only `initialise` is entitled to anything. -/
theorem entitled_unfounded {env : Env} (recorded : Recorded past none) (entitled : Entitled past env entry)
    (administers : entry.administers = true) : ∃ admin oracle borrow_token config,
      entry = .initialise admin oracle borrow_token config ∧ env.Authorised admin ∧ ValidConfig config := by
  have none_founded : ∀ admin oracle borrow_token, ¬ Founded past admin oracle borrow_token := by
    intro admin oracle borrow_token founded
    obtain ⟨v,found,_⟩ := recorded.exists_of_founded founded
    cases found
  have none_held : ∀ addr role, ¬ Holds past addr role := by
    intro addr role holds
    obtain ⟨v,found,_⟩ := recorded.exists_of_holds holds
    cases found
  cases entitled with
  | initialise admin oracle borrow_token config _ authorised valid => exact ⟨_,_,_,_,rfl,authorised,valid⟩
  | pause _ _ _ founded | unpause _ _ _ founded | update_config _ _ _ _ founded | add_supported_asset _ _ _ _ founded
  | remove_supported_asset _ _ _ _ founded | grant_role _ _ _ _ _ founded | revoke_role _ _ _ _ _ founded =>
    exact absurd founded (none_founded _ _ _)
  | pause_by _ _ role | unpause_by _ _ role => exact absurd role (none_held _ _)
  | _ => cases administers

/-- A call that returns is entitled by the history before it. -/
theorem entitled_of_makes (makes : Makes (serve clients vault) r) (recorded : Recorded past r.before.state.own)
    (entered : served r = some entry) : Entitled past (r.env vault) entry := by
  obtain ⟨input,event,out⟩ := served_some.mp entered
  cases turn_of_makes makes with
  | called entry' event' v v' input' out' found left effect =>
    rw [input,Action.vault.injEq] at input'
    subst input'
    rw [found] at recorded
    exact entitled_of_effect (s := ⟨v,r.before.state.rest⟩) recorded effect
  | initialised admin oracle borrow_token config input' out' missing left rest valid =>
    rw [input,Action.vault.injEq] at input'
    subst input'
    have ran := Delivery.returned makes out
    rw [input] at ran
    exact .initialise _ _ _ _ (recorded.unfounded.mpr missing) (initialise_authorised ran missing) valid
  | moved move input' =>
    rw [input] at input'
    cases input'
  | failed e error =>
    rw [out] at error
    cases error

/-- What an admin or a pauser is entitled to is done. -/
theorem served_of_entitled (makes : Makes (serve clients vault) r) (recorded : Recorded past r.before.state.own)
    (input : r.input.2 = .vault entry) (administers : entry.administers = true)
    (entitled : Entitled past (r.env vault) entry) : served r = some entry := by
  suffices runs : ∃ event t, act clients (r.env vault) (.vault entry) r.before.state = .ok (event, t) by
    obtain ⟨event,t,ran⟩ := runs
    rw [← input] at ran
    exact served_some.mpr ⟨input,event,(Delivery.returns makes ran).1⟩
  cases found : r.before.state.own with
  | none =>
    rw [found] at recorded
    obtain ⟨admin,oracle,borrow_token,config,rfl,authorised,valid⟩ := entitled_unfounded recorded entitled administers
    refine ⟨none,⟨some (fresh admin oracle borrow_token config),r.before.state.rest⟩,?_⟩
    simp [act,invoke,found,initialise,validate_config_ok,authorised,valid]
  | some v =>
    rw [found] at recorded
    obtain ⟨event,v',configured⟩ := configured_of_entitled recorded entitled administers
    exact ⟨event,_,invoke_of_call found (call_of_configured (s := ⟨v,r.before.state.rest⟩) configured)⟩

/-- Every call to the vault that returns, in any run, is entitled by the calls that
    returned before it, and an admin's or a pauser's call returns whenever it is. -/
theorem calls_entitled (clients : Clients W) (vault : Address) (clock : Clock) (w : W) (calls : List (Origin × Action W))
    (past rest : List (Served W)) (r : Served W)
    (split : trace (serve clients vault) (undeployed clock w) calls = past ++ r :: rest) (entry : Entry)
    (asked : r.input.2 = .vault entry) :
    (served r = some entry → Entitled past (r.env vault) entry) ∧
      (entry.administers = true → Entitled past (r.env vault) entry → served r = some entry) := by
  have makes : Makes (serve clients vault) r := trace_makes (split ▸ List.mem_append_right _ List.mem_cons_self)
  have recorded := recorded_before split
  exact ⟨entitled_of_makes makes recorded,served_of_entitled makes recorded asked⟩

/-- The admin's grant is entitled, and so it is done. -/
theorem calls_entitled_grant :
    served (Small.overdueCall 4 Small.granting) = some (.grant_role Small.userB LIQUIDATOR_ROLE) ∧
      Entitled (Small.overduePast 4) (Delivery.env Small.vault (Small.overdueCall 4 Small.granting))
        (.grant_role Small.userB LIQUIDATOR_ROLE) := by
  have both := calls_entitled Small.clients Small.vault ⟨0,0⟩ Small.purse Small.overdue (Small.overduePast 4)
    [Small.overdueCall 5 Small.liquidation] (Small.overdueCall 4 Small.granting) rfl
    (.grant_role Small.userB LIQUIDATOR_ROLE) rfl
  have founded : Founded (Small.overduePast 4) Small.admin Small.oracle Small.borrow_token := by
    unfold Founded
    decide +kernel
  have signed : (Delivery.env Small.vault (Small.overdueCall 4 Small.granting)).Authorised Small.admin :=
    Origin.signedBy_authorised _ _ _
  have done := both.2 rfl (.grant_role _ _ _ _ _ founded signed)
  exact ⟨done,both.1 done⟩

/-- Why a position changes: a call of its own user, or a liquidation. -/
inductive Touched (clients : Clients W) (vault : Address) (past : List (Served W)) (r : Served W) (user : Address) : Prop
  | own (entry : Entry) : served r = some entry → entry.account = some user → (r.env vault).Authorised user →
      Entitled past (r.env vault) entry → Touched clients vault past r user
  | liquidated (liquidator : Address) (repay_amount : Int) (v : HelixVault) (admin oracle borrow_token token : Address)
      (config : PoolConfig) (factor : Int) (w : W) : served r = some (.liquidate liquidator user repay_amount) →
      (r.env vault).Authorised liquidator → Holds past liquidator LIQUIDATOR_ROLE → Unpaused past →
      Founded past admin oracle borrow_token → Configuration past config → Listed past token →
      r.before.state.own = some v → v.supported_assets.head? = some token →
      Health clients (r.env vault) oracle token config.liq_threshold (v.charged r.clock.timestamp user) factor
        r.before.state.rest w → factor ≤ BPS_DENOMINATOR → Touched clients vault past r user

/-- A call to the account of a user is made by the user, or liquidates it. -/
theorem touched_of_effect {env : Env} {event : Option VaultEvent} {v : HelixVault} {s' : World HelixVault W} {user : Address}
    (effect : Effect clients env ⟨v,r.before.state.rest⟩ entry event s') (seen : env = r.env vault)
    (recorded : Recorded past (some v)) (entered : served r = some entry) (found : r.before.state.own = some v)
    (account : entry.account = some user) : Touched clients vault past r user := by
  have entitled := entitled_of_effect (s := ⟨v,r.before.state.rest⟩) recorded effect
  subst seen
  cases effect with
  | deposit depositor token amount p w deposits =>
    cases account
    exact .own _ entered rfl deposits.asked.authorised entitled
  | withdraw depositor token amount p w withdraws =>
    cases account
    exact .own _ entered rfl withdraws.asked.authorised entitled
  | borrow debtor amount factor p w borrows =>
    cases account
    exact .own _ entered rfl borrows.asked.authorised entitled
  | repay debtor amount actual p w repays =>
    cases account
    exact .own _ entered rfl repays.asked.authorised entitled
  | liquidate liquidator debtor repay_amount actual bonus seized p w liquidates =>
    cases account
    obtain ⟨token,factor,first,_,primary,health,low,_⟩ := liquidates.steps
    exact .liquidated liquidator repay_amount v _ _ _ token _ factor first entered liquidates.asked.authorised
      (recorded.holds.mpr liquidates.role) (recorded.unpaused.mpr liquidates.unpaused) recorded.founders
      (recorded.configuration.mpr rfl) (recorded.listed.mpr (List.mem_of_head? primary)) found primary health low
  | configured entry event v' configured =>
    obtain ⟨_,untouched,_⟩ := configured.idle
    rw [untouched] at account
    cases account

/-- In every run the stored position of a user changes only by the user's own call,
    or by a liquidator that was given its role, while the vault is not paused and the
    position is worth too little. -/
theorem position_touched (clients : Clients W) (vault : Address) (clock : Clock) (w : W) (calls : List (Origin × Action W))
    (past rest : List (Served W)) (r : Served W)
    (split : trace (serve clients vault) (undeployed clock w) calls = past ++ r :: rest) (user : Address)
    (changed : (book r.after).positions.get user ≠ (book r.before).positions.get user) :
    Touched clients vault past r user := by
  have member : r ∈ trace (serve clients vault) (undeployed clock w) calls :=
    split ▸ List.mem_append_right _ List.mem_cons_self
  have recorded := recorded_before split
  cases serve_kept clients vault clock w calls r member with
  | idle _ _ same => exact absurd (by rw [same]) changed
  | posted p posted account moved _ =>
    have same : user = p.user := by
      by_contra other
      exact changed (by rw [moved,Book.post_other other])
    obtain ⟨entry,entered,touched⟩ := Option.bind_eq_some_iff.mp account
    rw [← same] at touched
    obtain ⟨input,event,out⟩ := served_some.mp entered
    cases turn_of_makes (trace_makes member) with
    | called entry' event' v v' input' out' found left effect =>
      rw [input,Action.vault.injEq] at input'
      subst input'
      rw [found] at recorded
      exact touched_of_effect effect rfl recorded entered found touched
    | initialised admin oracle borrow_token config input' =>
      rw [input,Action.vault.injEq] at input'
      subst input'
      cases touched
    | moved move input' =>
      rw [input] at input'
      cases input'
    | failed e error =>
      rw [out] at error
      cases error

/-- The liquidator was given its role before it touches the position. -/
theorem position_touched_liquidation : Touched Small.clients Small.vault (Small.overduePast 5)
    (Small.overdueCall 5 Small.liquidation) Small.userA :=
  position_touched Small.clients Small.vault ⟨0,0⟩ Small.purse Small.overdue (Small.overduePast 5) [] _ rfl Small.userA
    (by decide +kernel)

end Transitions

end Helix.Vault
