import Helix.ContractValues
import Helix.VaultAuthority

/-!
The RPC client of `liquidation-bot`. A request may be answered, refused or lost, and
is made three times at most (`with_retry`); whether it is answered or not it may have
had its effect. What the client reads of an honest server is what the vault holds
(`reads_vault`).
-/
namespace Helix.Rpc
open Process
open Vault (Position PoolConfig HelixVault SizedPosition)

def RPC_RETRIES : Nat := 3
/-- In milliseconds. -/
def FIRST_DELAY : Nat := 250

/-- What comes back of a request in time, if anything does. -/
inductive Answer (α : Type) where
  | value (a : α)
  | failed (error : String)
  | timed_out

/-- The call of a contract, the one operation of a transaction. -/
structure Operation where
  contract : String
  function : String
  args : List ScVal

structure Transaction where
  source : String
  sequence : Nat
  network_passphrase : String
  fee : Nat
  timeout : Nat
  operation : Operation

/-- A transaction with the resources that a server estimated for it, signed. -/
structure Signed where
  transaction : Transaction
  resources : String
  signer : String

structure Simulation where
  min_resource_fee : Option String
  result : Option ScVal

/-- What a server holds under the key of a contract instance. -/
inductive LedgerEntryData where
  | contract_data (val : ScVal)
  | other (shown : String)

/-- The server, and the time that passes while the client sleeps. -/
structure Server (C : Type) where
  sleep : Nat → C → C
  get_account : String → C → Answer Nat × C
  simulate_transaction : Transaction → C → Answer Simulation × C
  prepare_transaction : Transaction → C → Answer String × C
  send_transaction : Signed → C → Answer String × C
  wait_transaction : String → C → Answer String × C
  get_contract_data : String → C → Answer LedgerEntryData × C

/-- What the client library makes of texts and transactions. -/
structure Sdk where
  contract_new : String → Except String Unit
  address_new : String → Except String Address
  address_text : Address → String
  hash : Signed → String
  shown : ScVal → String
  entry_shown : LedgerEntryData → String

structure RpcClient (C : Type) where
  server : Server C
  sdk : Sdk
  network_passphrase : String
  liquidator_public_key : String

variable {C : Type}

/-! ### Retries -/

/-- The loop over the attempts that are left, with the next delay and the last error. -/
def retry_from {α : Type} (server : Server C) (operation : C → Answer α × C) :
    Nat → Nat → Option String → Process C String α
  | 0, _, last_error => fun c => (.error (last_error.getD "RPC call failed without an error"), c)
  | attempts + 1, delay, _ => fun c =>
    let (answer, d) := operation c
    let rested := if attempts = 0 then d else server.sleep delay d
    match answer with
    | .value value => (.ok value, d)
    | .failed error => retry_from server operation attempts (2 * delay) (some error) rested
    | .timed_out => retry_from server operation attempts (2 * delay) (some "RPC call timed out after 15s") rested

def with_retry {α : Type} (server : Server C) (operation : C → Answer α × C) : Process C String α :=
  retry_from server operation RPC_RETRIES FIRST_DELAY none

/-- A result of the library, its error in the words of the client. -/
def given {α : Type} (words : String) (result : Except String α) : Process C String α := fun c =>
  match result with
  | .ok a => (.ok a, c)
  | .error err => (.error (words ++ ": " ++ err), c)

/-- A parsed value, under what it was parsed for, if that is said. -/
def parsed {α : Type} (client : RpcClient C) (context : Option String) (result : Parsed α) : Process C String α :=
  fun c =>
    match result with
    | .ok a => (.ok a, c)
    | .error e => (.error (context.getD (e.text client.sdk.shown)), c)

/-- The result of a program, an error too. -/
def attempt {α : Type} (x : Process C String α) : Process C String (Except String α) := fun c => (.ok (x c).1,(x c).2)

namespace RpcClient
variable (client : RpcClient C)

/-! ### Readings -/

def address_arg (address : String) : Process C String ScVal := do
  let address ← given ("invalid address " ++ address) (client.sdk.address_new address)
  pure (.address address)

def simulate_contract_call (contract_id method : String) (args : List ScVal) : Process C String ScVal := do
  let sequence ← with_retry client.server (client.server.get_account client.liquidator_public_key)
  given "invalid contract id" (client.sdk.contract_new contract_id)
  let tx : Transaction := ⟨client.liquidator_public_key,sequence + 1,client.network_passphrase,1000,30,
    ⟨contract_id,method,args⟩⟩
  let simulation ← with_retry client.server (client.server.simulate_transaction tx)
  expect simulation.result ("simulation returned no result for " ++ method)

def get_health_factor (vault_contract_id user : String) : Process C String Int := do
  let arg ← client.address_arg user
  let result ← client.simulate_contract_call vault_contract_id "get_health_factor" [arg]
  parsed client (some "failed parsing health factor result") (parse_i128 result)

/-- A text has a word in it. -/
def contains (message word : String) : Bool := message.toList.tails.any (fun rest => word.toList.isPrefixOf rest)

/-- An error that says there is no position. -/
def not_found (message : String) : Bool :=
  contains message "PositionNotFound" || contains message "Error(Contract, #7)"

def get_position (vault_contract_id user : String) : Process C String (Option Position) := do
  let arg ← client.address_arg user
  match ← attempt (client.simulate_contract_call vault_contract_id "get_position" [arg]) with
  | .ok result => do
    let position ← parsed client none (parse_position result)
    pure (some position)
  | .error message => if not_found message then pure none else expect none message

def last_price (oracle_contract_id asset : String) : Process C String (Int × Nat) := do
  let arg ← client.address_arg asset
  let result ← client.simulate_contract_call oracle_contract_id "lastprice" [arg]
  parsed client (some "failed parsing oracle lastprice result") (parse_price_tuple result)

def token_balance (token_contract_id user : String) : Process C String Int := do
  let arg ← client.address_arg user
  let result ← client.simulate_contract_call token_contract_id "balance" [arg]
  parsed client (some "failed parsing token balance result") (parse_i128 result)

def read_contract_instance_storage (contract_id : String) : Process C String ScMap := do
  match ← with_retry client.server (client.server.get_contract_data contract_id) with
  | .contract_data (.contract_instance storage) => expect storage "contract instance storage missing"
  | .contract_data other => expect none ("unexpected contract instance value: " ++ client.sdk.shown other)
  | other => expect none ("unexpected ledger entry data for contract instance: " ++ client.sdk.entry_shown other)

def parse_address (value : ScVal) : Process C String String :=
  match value with
  | .address address => pure (client.sdk.address_text address)
  | other => expect none ("failed parsing address from ScVal: " ++ client.sdk.shown other)

def read_supported_asset (vault_contract_id : String) : Process C String (Option String) := do
  let storage ← client.read_contract_instance_storage vault_contract_id
  match storage_lookup storage "SupportedAssets" with
  | none => pure none
  | some value => do
    let values ← parsed client none (parse_vec value)
    match values with
    | [] => pure none
    | first :: _ => do
      let asset ← client.parse_address first
      pure (some asset)

def read_pool_config (vault_contract_id : String) : Process C String (Option PoolConfig) := do
  let storage ← client.read_contract_instance_storage vault_contract_id
  match storage_lookup storage "PoolConfig" with
  | none => pure none
  | some value => do
    let config ← parsed client none (parse_pool_config value)
    pure (some config)

end RpcClient

/-! ### What the requests do -/

/-- Whatever a server does, the world moves on as `R` allows. -/
structure Server.Moves (server : Server C) (R : C → C → Prop) : Prop where
  sleep : ∀ ms c, R c (server.sleep ms c)
  get_account : ∀ key c, R c (server.get_account key c).2
  simulate_transaction : ∀ tx c, R c (server.simulate_transaction tx c).2
  prepare_transaction : ∀ tx c, R c (server.prepare_transaction tx c).2
  send_transaction : ∀ signed c, R c (server.send_transaction signed c).2
  wait_transaction : ∀ hash c, R c (server.wait_transaction hash c).2
  get_contract_data : ∀ contract c, R c (server.get_contract_data contract c).2

section Retries
variable {α β : Type} {server : Server C} {operation : C → Answer α × C} {result : Except String α} {c d : C}
  {R : C → C → Prop} [Std.Refl R] [IsTrans C R]

/-- An attempt is answered, or the next one comes after a rest, if there is one. -/
theorem retry_from_succ (server : Server C) (operation : C → Answer α × C) (c : C) (attempts delay : Nat)
    (last_error : Option String) :
    (∃ a d, operation c = (.value a, d) ∧ retry_from server operation (attempts + 1) delay last_error c = (.ok a, d)) ∨
      ∃ error, retry_from server operation (attempts + 1) delay last_error c =
        retry_from server operation attempts (2 * delay) (some error)
          (if attempts = 0 then (operation c).2 else server.sleep delay (operation c).2) := by
  rcases answered : operation c with ⟨value | error | _,d⟩
  · exact .inl ⟨value,d,rfl,by simp only [retry_from,answered]⟩
  · exact .inr ⟨error,by simp only [retry_from,answered]⟩
  · exact .inr ⟨"RPC call timed out after 15s",by simp only [retry_from,answered]⟩

/-- The attempts move the world as each of them may, and what is given one of them
    answered. -/
theorem retry_from_within {attempts delay : Nat} {last_error : Option String} (sleeps : ∀ ms c, R c (server.sleep ms c))
    (asks : ∀ c, R c (operation c).2)
    (ran : retry_from server operation attempts delay last_error c = (result, d)) :
    R c d ∧ ∀ a, result = .ok a → ∃ b, R c b ∧ R b d ∧ operation b = (.value a, d) := by
  induction attempts generalizing delay last_error c with
  | zero =>
    cases ran
    refine ⟨Std.Refl.refl _,?_⟩
    rintro a ⟨⟩
  | succ attempts ih =>
    have asked := asks c
    rcases retry_from_succ server operation c attempts delay last_error with
      ⟨value,e,answered,done⟩ | ⟨error,again⟩
    · rw [ran] at done
      cases done
      rw [answered] at asked
      refine ⟨asked,?_⟩
      rintro a ⟨⟩
      exact ⟨c,Std.Refl.refl c,asked,answered⟩
    · rw [again] at ran
      obtain ⟨moved,answers⟩ := ih ran
      have rested : R c (if attempts = 0 then (operation c).2 else server.sleep delay (operation c).2) := by
        split
        · exact asked
        · exact IsTrans.trans _ _ _ asked (sleeps _ _)
      refine ⟨IsTrans.trans _ _ _ rested moved,?_⟩
      intro a ended
      obtain ⟨b,before,later⟩ := answers a ended
      exact ⟨b,IsTrans.trans _ _ _ rested before,later⟩

theorem with_retry_within (sleeps : ∀ ms c, R c (server.sleep ms c)) (asks : ∀ c, R c (operation c).2)
    (ran : with_retry server operation c = (result, d)) :
    R c d ∧ ∀ a, result = .ok a → ∃ b, R c b ∧ R b d ∧ operation b = (.value a, d) :=
  retry_from_within sleeps asks ran

end Retries

/-- A first attempt that is answered is the only one. -/
theorem with_retry_answered {α : Type} {server : Server C} {operation : C → Answer α × C} {a : α} {c d : C}
    (answered : operation c = (.value a, d)) : with_retry server operation c = (.ok a, d) := by
  simp only [with_retry,RPC_RETRIES,retry_from,answered]

/-- A program that moves the world as `R` allows. -/
def Within {β : Type} (R : C → C → Prop) (x : Process C String β) : Prop := ∀ c, R c (x c).2

namespace Within
variable {α β : Type} {R : C → C → Prop} {x : Process C String β}

theorem still [Std.Refl R] (same : ∀ c, (x c).2 = c) : Within R x := by
  intro c
  rw [same c]
  exact Std.Refl.refl c

theorem bind [IsTrans C R] {γ : Type} {f : β → Process C String γ} (first : Within R x) (later : ∀ b, Within R (f b)) :
    Within R (x >>= f) := by
  intro c
  have moved := first c
  rcases ran : x c with ⟨result,d⟩
  rw [ran] at moved
  cases result with
  | error e =>
    rw [bind_of_error ran]
    exact moved
  | ok b =>
    rw [bind_of_ok ran]
    exact IsTrans.trans _ _ _ moved (later b d)

theorem retry [Std.Refl R] [IsTrans C R] {server : Server C} {operation : C → Answer α × C}
    (sleeps : ∀ ms c, R c (server.sleep ms c)) (asks : ∀ c, R c (operation c).2) :
    Within R (with_retry server operation) :=
  fun c => (with_retry_within sleeps asks (c := c) rfl).1

theorem given [Std.Refl R] {words : String} {value : Except String α} :
    Within R (Rpc.given words value : Process C String α) := by
  refine .still (fun c => ?_)
  unfold Rpc.given
  cases value <;> rfl

theorem expect [Std.Refl R] {value : Option α} {e : String} : Within R (Process.expect value e : Process C String α) :=
  .still (fun c => by cases value <;> rfl)

theorem parsed [Std.Refl R] {client : RpcClient C} {context : Option String} {value : Parsed α} :
    Within R (Rpc.parsed client context value) := by
  refine .still (fun c => ?_)
  unfold Rpc.parsed
  cases value <;> rfl

end Within

section Rules
variable {α : Type} {client : RpcClient C} {R : C → C → Prop} [Std.Refl R] [IsTrans C R] {c d : C}

@[simp] theorem given_ok {words : String} {result : Except String α} {a : α} :
    (given words result : Process C String α) c = (.ok a, d) ↔ result = .ok a ∧ c = d := by
  unfold given
  cases result <;> simp

@[simp] theorem parsed_ok {context : Option String} {result : Parsed α} {a : α} :
    parsed client context result c = (.ok a, d) ↔ result = .ok a ∧ c = d := by
  unfold parsed
  cases result <;> simp

@[simp] theorem attempt_ok {x : Process C String α} {result : Except String α} :
    attempt x c = (.ok result, d) ↔ x c = (result, d) := by
  simp [attempt,Prod.ext_iff]

theorem address_arg_ok {text : String} {val : ScVal} : client.address_arg text c = (.ok val, d) ↔
    (∃ user, client.sdk.address_new text = .ok user ∧ val = .address user) ∧ c = d := by
  simp only [RpcClient.address_arg,bind_ok,given_ok,pure_ok]
  constructor
  · rintro ⟨user,_,⟨known,rfl⟩,rfl,rfl⟩
    exact ⟨⟨user,known,rfl⟩,rfl⟩
  · rintro ⟨⟨user,known,rfl⟩,rfl⟩
    exact ⟨user,_,⟨known,rfl⟩,rfl,rfl⟩

/-- A call that gives a value was simulated somewhere on the way. -/
theorem simulate_contract_call_ok (moves : client.server.Moves R) {contract method : String} {args : List ScVal}
    {value : ScVal} (ran : client.simulate_contract_call contract method args c = (.ok value, d)) :
    ∃ b tx simulation, R c b ∧ R b d ∧ tx.operation = ⟨contract,method,args⟩ ∧
      client.server.simulate_transaction tx b = (.value simulation, d) ∧ simulation.result = some value := by
  simp only [RpcClient.simulate_contract_call,bind_ok,given_ok,expect_ok] at ran
  obtain ⟨sequence,first,asked,_,_,⟨_,rfl⟩,simulation,second,simulated,result,rfl⟩ := ran
  obtain ⟨moved,_⟩ := with_retry_within moves.sleep (moves.get_account _) asked
  obtain ⟨_,answers⟩ := with_retry_within moves.sleep (moves.simulate_transaction _) simulated
  obtain ⟨b,before,later,answered⟩ := answers simulation rfl
  exact ⟨b,_,simulation,IsTrans.trans _ _ _ moved before,later,rfl,answered,result⟩

/-- The storage that is read was held somewhere on the way. -/
theorem read_contract_instance_storage_ok (moves : client.server.Moves R) {contract : String} {storage : ScMap}
    (ran : client.read_contract_instance_storage contract c = (.ok storage, d)) :
    ∃ b, R c b ∧ R b d ∧ client.server.get_contract_data contract b =
      (.value (.contract_data (.contract_instance (some storage))), d) := by
  simp only [RpcClient.read_contract_instance_storage,bind_ok] at ran
  obtain ⟨data,e,asked,found⟩ := ran
  obtain ⟨_,answers⟩ := with_retry_within moves.sleep (moves.get_contract_data _) asked
  obtain ⟨b,before,later,answered⟩ := answers data rfl
  refine ⟨b,before,?_⟩
  split at found
  · rw [expect_ok] at found
    obtain ⟨rfl,rfl⟩ := found
    exact ⟨later,answered⟩
  · rw [expect_ok] at found
    cases found.1
  · rw [expect_ok] at found
    cases found.1

theorem parse_address_still {value : ScVal} : Within Eq (client.parse_address value) := by
  refine .still (fun c => ?_)
  unfold RpcClient.parse_address
  cases value <;> rfl

/-- What is made of the storage asks for nothing more. -/
theorem read_then (moves : client.server.Moves R) {contract : String} {f : ScMap → Process C String α} {a : α}
    (idle : ∀ storage, Within Eq (f storage))
    (ran : (client.read_contract_instance_storage contract >>= f) c = (.ok a, d)) :
    ∃ b storage, R c b ∧ R b d ∧ client.server.get_contract_data contract b =
      (.value (.contract_data (.contract_instance (some storage))), d) ∧ f storage d = (.ok a, d) := by
  rw [bind_ok] at ran
  obtain ⟨storage,e,asked,ran⟩ := ran
  have same : e = d := by
    have unmoved := idle storage e
    rwa [ran] at unmoved
  subst same
  obtain ⟨b,before,later,answered⟩ := read_contract_instance_storage_ok moves asked
  exact ⟨b,storage,before,later,answered,ran⟩

end Rules

/-! ### An honest server -/

/-- The instance storage of the vault, by the variants of its keys. -/
def instance_fields (v : HelixVault) : List (String × ScVal) :=
  [("Admin",.address v.admin),("BorrowToken",.address v.borrow_token),("Locked",.bool v.locked),
    ("OracleAddress",.address v.oracle_address),("Paused",.bool v.paused),("PoolConfig",pool_config_val v.pool_config),
    ("SupportedAssets",.vec (some (v.supported_assets.map ScVal.address))),("TotalBorrows",sc_i128 v.total_borrows),
    ("TotalDeposits",sc_i128 v.total_deposits)]

def variant_key (variant : String) : ScVal := .vec (some [.symbol variant])

/-- A server that follows a chain with the vault on it: what it answers is what the
    vault holds and computes there at the time. -/
structure Honest {W : Type} (client : RpcClient C) (vault_contract_id : String) (vault : Address)
    (clients : Vault.Clients W) (env : C → Env) (state : C → Vault.State W) : Prop where
  reached : ∀ c, ∃ clock w calls, (∀ call ∈ calls, Vault.Typed call) ∧
    (run (Vault.serve clients vault) (Vault.undeployed clock w) calls).clock.timestamp < 2 ^ 64 ∧
    state c = (run (Vault.serve clients vault) (Vault.undeployed clock w) calls).state
  stores : ∀ c data d v, client.server.get_contract_data vault_contract_id c = (.value data, d) →
    (state c).own = some v → ∃ storage : ScMap, data = .contract_data (.contract_instance (some storage)) ∧
      storage.Perm ((instance_fields v).map (fun field => (variant_key field.1,field.2)))
  position : ∀ c tx simulation d user, client.server.simulate_transaction tx c = (.value simulation, d) →
    tx.operation = ⟨vault_contract_id,"get_position",[.address user]⟩ →
      simulation.result = (reply (Vault.get_position user) (state c)).map position_val
  health : ∀ c tx simulation d user, client.server.simulate_transaction tx c = (.value simulation, d) →
    tx.operation = ⟨vault_contract_id,"get_health_factor",[.address user]⟩ →
      simulation.result = (reply (Vault.get_health_factor clients.apart (env c) user) (state c)).map sc_i128

section Answers
variable {W : Type} {clients : Vault.Clients W} {env : Env} {s : Vault.State W} {user : Address}

theorem reply_get_position {p : Position} :
    reply (Vault.get_position user) s = some p ↔ ∃ v, s.own = some v ∧ v.positions.get user = some p := by
  simp only [reply_some,Vault.get_position_ok]
  constructor
  · rintro ⟨v,_,own,stored,_⟩
    exact ⟨v,own,stored⟩
  · rintro ⟨v,own,stored⟩
    exact ⟨v,_,own,stored,rfl⟩

/-- A health factor fits its type. -/
theorem reply_get_health_factor_fits {factor : Int}
    (told : reply (Vault.get_health_factor clients.apart env user) s = some factor) : Fits factor := by
  obtain ⟨v,t,_,done⟩ := reply_some.mp told
  obtain ⟨token,stored,w,_,_,_,health,_⟩ := Vault.get_health_factor_ok.mp done
  cases health with
  | debtless => decide
  | ratio value _ _ some values positive fits => exact fits.tdiv positive

end Answers

section Reading
variable {W : Type} {client : RpcClient C} {vault_contract_id : String} {vault : Address} {clients : Vault.Clients W}
  {env : C → Env} {state : C → Vault.State W} {c : C} {v : HelixVault}

theorem Honest.config (honest : Honest client vault_contract_id vault clients env state)
    (own : (state c).own = some v) : Vault.SizedConfig v.pool_config := by
  obtain ⟨clock,w,calls,typed,_,same⟩ := honest.reached c
  rw [same] at own
  exact Vault.config_reached clock w calls typed v own

theorem Honest.sized (honest : Honest client vault_contract_id vault clients env state) {user : Address} {p : Position}
    (own : (state c).own = some v) (stored : v.positions.get user = some p) : SizedPosition p := by
  obtain ⟨clock,w,calls,_,early,same⟩ := honest.reached c
  rw [same] at own
  exact Vault.position_reached clock w calls early own stored

/-- What is held under a variant is found in the storage of the vault. -/
theorem storage_lookup_held {storage : ScMap}
    (held : storage.Perm ((instance_fields v).map (fun field => (variant_key field.1,field.2)))) :
    ∀ field ∈ instance_fields v, storage_lookup storage field.1 = some field.2 :=
  lookup_of_fields variant_key (fun _ => rfl) (by simp [instance_fields]) (by rw [List.append_nil]; exact held) (by simp)

end Reading

/-- Whatever the client reads of an honest server, after whatever failed and was
    tried again, the vault held or computed at a moment on the way. -/
theorem reads_vault {W : Type} (client : RpcClient C) (vault_contract_id : String) (vault : Address)
    (clients : Vault.Clients W) (env : C → Env) (state : C → Vault.State W) (R : C → C → Prop) [Std.Refl R] [IsTrans C R]
    (moves : client.server.Moves R) (honest : Honest client vault_contract_id vault clients env state) (c d : C) :
    (∀ text user p, client.sdk.address_new text = .ok user →
      client.get_position vault_contract_id text c = (.ok (some p), d) →
        ∃ b v, R c b ∧ R b d ∧ (state b).own = some v ∧ v.positions.get user = some p) ∧
    (∀ text user factor, client.sdk.address_new text = .ok user →
      client.get_health_factor vault_contract_id text c = (.ok factor, d) →
        ∃ b, R c b ∧ R b d ∧ reply (Vault.get_health_factor clients.apart (env b) user) (state b) = some factor) ∧
    (∀ answer, client.read_pool_config vault_contract_id c = (.ok answer, d) →
      ∃ b, R c b ∧ R b d ∧ ∀ v, (state b).own = some v → answer = some v.pool_config) ∧
    ∀ answer, client.read_supported_asset vault_contract_id c = (.ok answer, d) →
      ∃ b, R c b ∧ R b d ∧ ∀ v, (state b).own = some v → answer = v.supported_assets.head?.map client.sdk.address_text := by
  refine ⟨?_,?_,?_,?_⟩
  · intro text user p known ran
    simp only [RpcClient.get_position,bind_ok,address_arg_ok,attempt_ok] at ran
    obtain ⟨_,_,⟨⟨user',known',rfl⟩,rfl⟩,result,e,simulated,ran⟩ := ran
    rw [known] at known'
    cases known'
    cases result with
    | ok result =>
      simp only [bind_ok,pure_ok,parsed_ok,Option.some.injEq] at ran
      obtain ⟨_,_,⟨read,rfl⟩,rfl,rfl⟩ := ran
      obtain ⟨b,tx,simulation,before,later,asked,answered,told⟩ := simulate_contract_call_ok moves simulated
      rw [honest.position b tx simulation _ user answered asked,Option.map_eq_some_iff] at told
      obtain ⟨held,told,rfl⟩ := told
      obtain ⟨v,own,stored⟩ := reply_get_position.mp told
      rw [parse_position_val (honest.sized own stored)] at read
      cases read
      exact ⟨b,v,before,later,own,stored⟩
    | error message =>
      simp only at ran
      split at ran
      · simp at ran
      · simp at ran
  · intro text user factor known ran
    simp only [RpcClient.get_health_factor,bind_ok,address_arg_ok,parsed_ok] at ran
    obtain ⟨_,_,⟨⟨user',known',rfl⟩,rfl⟩,result,_,simulated,read,rfl⟩ := ran
    rw [known] at known'
    cases known'
    obtain ⟨b,tx,simulation,before,later,asked,answered,told⟩ := simulate_contract_call_ok moves simulated
    rw [honest.health b tx simulation _ user answered asked,Option.map_eq_some_iff] at told
    obtain ⟨computed,told,rfl⟩ := told
    rw [parse_sc_i128 (reply_get_health_factor_fits told)] at read
    cases read
    exact ⟨b,before,later,told⟩
  · intro answer ran
    refine Exists.elim (read_then moves ?_ ran) ?_
    · intro storage
      cases storage_lookup storage "PoolConfig" with
      | none => exact .still (fun _ => rfl)
      | some value => exact .bind .parsed (fun _ => .still (fun _ => rfl))
    · rintro b ⟨storage,before,later,answered,ran⟩
      refine ⟨b,before,later,?_⟩
      intro v own
      obtain ⟨held_storage,same,held⟩ := honest.stores b _ _ v answered own
      cases same
      have found := storage_lookup_held held ("PoolConfig",pool_config_val v.pool_config) (by simp [instance_fields])
      rw [found] at ran
      simp only [bind_ok,pure_ok,parsed_ok,parse_pool_config_val (honest.config own),Except.ok.injEq] at ran
      obtain ⟨_,_,⟨rfl,rfl⟩,rfl,_⟩ := ran
      rfl
  · intro answer ran
    refine Exists.elim (read_then moves ?_ ran) ?_
    · intro storage
      cases storage_lookup storage "SupportedAssets" with
      | none => exact .still (fun _ => rfl)
      | some value =>
        refine .bind .parsed (fun values => ?_)
        cases values with
        | nil => exact .still (fun _ => rfl)
        | cons first rest => exact .bind parse_address_still (fun _ => .still (fun _ => rfl))
    · rintro b ⟨storage,before,later,answered,ran⟩
      refine ⟨b,before,later,?_⟩
      intro v own
      obtain ⟨held_storage,same,held⟩ := honest.stores b _ _ v answered own
      cases same
      have found := storage_lookup_held held ("SupportedAssets",.vec (some (v.supported_assets.map ScVal.address)))
        (by simp [instance_fields])
      rw [found] at ran
      simp only [bind_ok,parsed_ok,parse_vec_ok] at ran
      obtain ⟨values,_,⟨rfl_values,rfl⟩,ran⟩ := ran
      cases rfl_values
      cases assets : v.supported_assets with
      | nil =>
        rw [assets] at ran
        simp only [List.map_nil,pure_ok] at ran
        exact ran.1.symm
      | cons first rest =>
        rw [assets] at ran
        simp only [List.map_cons,bind_ok,RpcClient.parse_address,pure_ok] at ran
        obtain ⟨_,_,⟨rfl,rfl⟩,rfl,_⟩ := ran
        rfl

namespace Small
open Vault.Small

/-- The chain after the loan was taken. -/
def lent : Vault.State Purse := (run step start (overdue.take 4)).state

def lentEnv : Env := (Origin.signedBy admin).env ⟨5,25⟩ vault

/-- What a server with that chain says of it. -/
def simulated (operation : Operation) : Option ScVal :=
  match operation.function, operation.args with
  | "get_position", [.address user] => (reply (Vault.get_position user) lent).map position_val
  | "get_health_factor", [.address user] =>
    (reply (Vault.get_health_factor clients.apart lentEnv user) lent).map sc_i128
  | _, _ => none

def held : LedgerEntryData := .contract_data (.contract_instance (lent.own.map (fun v =>
  (instance_fields v).map (fun field => (variant_key field.1,field.2)))))

/-- A server that counts its requests; the first of them may be lost. -/
def serving (lost : Bool) : Server Nat where
  sleep _ n := n
  get_account _ n := (if lost ∧ n = 0 then .timed_out else .value 6, n + 1)
  simulate_transaction tx n := (.value ⟨some "100",simulated tx.operation⟩, n + 1)
  prepare_transaction _ n := (.value "resources", n + 1)
  send_transaction _ n := (.value "hash", n + 1)
  wait_transaction _ n := (.value "SUCCESS", n + 1)
  get_contract_data _ n := (.value held, n + 1)

def sdk : Sdk where
  contract_new _ := .ok ()
  address_new text := if text = "userA" then .ok userA else if text = "userB" then .ok userB else .error "unknown"
  address_text address := if address = userA then "userA" else if address = tokenA then "tokenA" else "other"
  hash _ := "hash"
  shown _ := ""
  entry_shown _ := ""

def client (lost : Bool) : RpcClient Nat := ⟨serving lost,sdk,"Test SDF Network ; September 2015","userB"⟩

theorem moves (lost : Bool) : (client lost).server.Moves (fun n m => n ≤ m) where
  sleep _ _ := Nat.le_refl _
  get_account _ n := Nat.le_succ n
  simulate_transaction _ n := Nat.le_succ n
  prepare_transaction _ n := Nat.le_succ n
  send_transaction _ n := Nat.le_succ n
  wait_transaction _ n := Nat.le_succ n
  get_contract_data _ n := Nat.le_succ n

theorem honest (lost : Bool) : Honest (client lost) "vault" vault clients (fun _ => lentEnv) (fun _ => lent) where
  reached _ := by
    refine ⟨⟨0,0⟩,purse,overdue.take 4,?_,by decide +kernel,rfl⟩
    intro call member
    simp only [overdue,opening,List.cons_append,List.nil_append,List.take_succ_cons,List.take_zero,List.mem_cons,
      List.not_mem_nil,or_false] at member
    rcases member with rfl | rfl | rfl | rfl
    · exact ⟨by decide,by decide,by decide,by decide,by decide⟩
    · trivial
    · trivial
    · trivial
  stores n data m v asked own := by
    cases asked
    rw [held,own]
    exact ⟨_,rfl,.refl _⟩
  position n tx simulation m user asked named := by
    cases asked
    rw [named]
    rfl
  health n tx simulation m user asked named := by
    cases asked
    rw [named]
    rfl

end Small

/-- The request that was lost is made again, and user A's position is read. -/
theorem reads_vault_lent : (Small.client true).get_position "vault" "userA" 0 = (.ok (some ⟨1000000,500000,20⟩), 3) ∧
    ∃ b v, 0 ≤ b ∧ b ≤ 3 ∧ Small.lent.own = some v ∧ v.positions.get Vault.Small.userA = some ⟨1000000,500000,20⟩ := by
  have ran : (Small.client true).get_position "vault" "userA" 0 = (.ok (some ⟨1000000,500000,20⟩), 3) := by decide +kernel
  have reads := reads_vault (Small.client true) "vault" Vault.Small.vault Vault.Small.clients (fun _ => Small.lentEnv)
    (fun _ => Small.lent) (fun n m => n ≤ m) (Small.moves true) (Small.honest true) 0 3
  exact ⟨ran,reads.1 "userA" Vault.Small.userA ⟨1000000,500000,20⟩ rfl ran⟩

/-- A server that answers the first time it is asked for an account or a simulation. -/
structure Server.Prompt (server : Server C) : Prop where
  get_account : ∀ key c, ∃ sequence d, server.get_account key c = (.value sequence, d)
  simulate_transaction : ∀ tx c, ∃ simulation d, server.simulate_transaction tx c = (.value simulation, d)

/-- Of an honest server that answers at once the client reads the position the vault
    has. Where it has none that is an error, and never read as no position. -/
theorem get_position_prompt {W : Type} (client : RpcClient C) (vault_contract_id : String) (vault : Address)
    (clients : Vault.Clients W) (env : C → Env) (state : C → Vault.State W) (R : C → C → Prop)
    (moves : client.server.Moves R) (prompt : client.server.Prompt)
    (honest : Honest client vault_contract_id vault clients env state)
    (valid : client.sdk.contract_new vault_contract_id = .ok ()) (text : String) (user : Address)
    (known : client.sdk.address_new text = .ok user) (c : C) :
    ∃ b d, R c b ∧ R b d ∧ client.get_position vault_contract_id text c =
      (match (state b).own.bind (fun v => v.positions.get user) with
        | some p => .ok (some p)
        | none => .error "simulation returned no result for get_position", d) := by
  obtain ⟨sequence,b,counted⟩ := prompt.get_account client.liquidator_public_key c
  have between : R c b := by
    have moved := moves.get_account client.liquidator_public_key c
    rwa [counted] at moved
  obtain ⟨simulation,d,answered⟩ := prompt.simulate_transaction ⟨client.liquidator_public_key,sequence + 1,
    client.network_passphrase,1000,30,⟨vault_contract_id,"get_position",[.address user]⟩⟩ b
  have later : R b d := by
    have moved := moves.simulate_transaction ⟨client.liquidator_public_key,sequence + 1,client.network_passphrase,1000,30,
      ⟨vault_contract_id,"get_position",[.address user]⟩⟩ b
    rwa [answered] at moved
  have told := honest.position b _ simulation d user answered rfl
  have arg : client.address_arg text c = (.ok (.address user), c) := address_arg_ok.mpr ⟨⟨user,known,rfl⟩,rfl⟩
  have called : client.simulate_contract_call vault_contract_id "get_position" [.address user] c =
      expect simulation.result ("simulation returned no result for " ++ "get_position") d := by
    rw [RpcClient.simulate_contract_call,bind_of_ok (with_retry_answered counted),
      bind_of_ok (given_ok.mpr ⟨valid,rfl⟩),bind_of_ok (with_retry_answered answered)]
  refine ⟨b,d,between,later,?_⟩
  rw [RpcClient.get_position,bind_of_ok arg]
  cases stored : (state b).own.bind (fun v => v.positions.get user) with
  | some p =>
    obtain ⟨v,own,stored⟩ := Option.bind_eq_some_iff.mp stored
    rw [reply_get_position.mpr ⟨v,own,stored⟩] at told
    have ran : client.simulate_contract_call vault_contract_id "get_position" [.address user] c =
        (.ok (position_val p), d) := by
      rw [called,told]
      rfl
    rw [bind_of_ok (attempt_ok.mpr ran)]
    show (parsed client none (parse_position (position_val p)) >>= fun position => pure (some position)) d = _
    rw [bind_of_ok (parsed_ok.mpr ⟨parse_position_val (honest.sized own stored),rfl⟩)]
    rfl
  | none =>
    have missing : reply (Vault.get_position user) (state b) = none := by
      rw [Option.eq_none_iff_forall_ne_some]
      intro p told
      obtain ⟨v,own,found⟩ := reply_get_position.mp told
      rw [own,Option.bind_some,found] at stored
      cases stored
    rw [missing] at told
    have ran : client.simulate_contract_call vault_contract_id "get_position" [.address user] c =
        (.error "simulation returned no result for get_position", d) := by
      rw [called,told]
      rfl
    have other : RpcClient.not_found "simulation returned no result for get_position" = false := by decide +kernel
    rw [bind_of_ok (attempt_ok.mpr ran)]
    simp only [other]
    rfl

/-- User B has no position, and the client fails on it. -/
theorem get_position_prompt_missing : ∃ d, (Small.client false).get_position "vault" "userB" 0 =
    (.error "simulation returned no result for get_position", d) := by
  have prompt : (Small.client false).server.Prompt :=
    ⟨fun _ n => ⟨6,n + 1,by simp [Small.client,Small.serving]⟩,fun tx n => ⟨_,n + 1,rfl⟩⟩
  obtain ⟨b,d,_,_,ran⟩ := get_position_prompt (Small.client false) "vault" Vault.Small.vault Vault.Small.clients
    (fun _ => Small.lentEnv) (fun _ => Small.lent) (fun n m => n ≤ m) (Small.moves false) prompt (Small.honest false) rfl
    "userB" Vault.Small.userB rfl 0
  have missing : (Small.lent.own.bind fun v => v.positions.get Vault.Small.userB) = none := by decide +kernel
  rw [missing] at ran
  exact ⟨d,ran⟩

end Helix.Rpc
