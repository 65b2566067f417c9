import Helix.RpcClient
import Helix.BotRun

/-!
What `RpcClient::liquidate` asks of the server. Each request may be made three times
and may have had its effect though no answer came, yet one call signs and sends one
transaction only, after it was simulated and prepared (`liquidate_requests`). So on a
ledger that applies what it is sent once at most, a run of the executor applies one
transaction at most for each candidate (`executor_applies_once`).
-/
namespace Helix.Rpc
open Process
open Helix.Bot (Config HealthAssessment Submitting liquidation_repay_amount execute_from execute_from_step
  execute_from_simulates)

structure LiquidationTxResult where
  hash : String
  status : String
  simulated_resource_fee : Nat
  hash_surrogate : String

/-- `str::parse::<u64>`: digits, after a plus sign perhaps. -/
def u64_from_str (text : String) : Option Nat :=
  let digits := match text.toList with
    | '+' :: rest => rest
    | chars => chars
  if digits = [] ∨ ¬ digits.all Char.isDigit then none
  else
    let value := digits.foldl (fun n digit => 10 * n + (digit.toNat - '0'.toNat)) 0
    if value < 2 ^ 64 then some value else none

variable {C : Type}

namespace RpcClient
variable (client : RpcClient C)

/-- The transaction that a liquidation builds. -/
def liquidation (vault_contract_id : String) (gas_budget sequence : Nat) (liquidator user : Address) (repay_amount : Int) :
    Transaction :=
  ⟨client.liquidator_public_key,sequence + 1,client.network_passphrase,gas_budget,30,
    ⟨vault_contract_id,"liquidate",[.address liquidator,.address user,sc_i128 repay_amount]⟩⟩

def liquidate (vault_contract_id : String) (gas_budget : Nat) (user : String) (repay_amount : Int) :
    Process C String LiquidationTxResult := do
  let sequence ← with_retry client.server (client.server.get_account client.liquidator_public_key)
  given "invalid vault contract id" (client.sdk.contract_new vault_contract_id)
  let liquidator_address ← given "invalid liquidator public key" (client.sdk.address_new client.liquidator_public_key)
  let user_address ← given "invalid target user address" (client.sdk.address_new user)
  let tx := client.liquidation vault_contract_id gas_budget sequence liquidator_address user_address repay_amount
  let simulation ← with_retry client.server (client.server.simulate_transaction tx)
  let min_resource_fee ← expect (u64_from_str (simulation.min_resource_fee.getD "0"))
    "failed parsing simulation min_resource_fee"
  let resources ← with_retry client.server (client.server.prepare_transaction tx)
  let prepared : Signed := ⟨tx,resources,client.liquidator_public_key⟩
  let hash ← with_retry client.server (client.server.send_transaction prepared)
  let status ← with_retry client.server (client.server.wait_transaction hash)
  pure ⟨hash,status,min_resource_fee,client.sdk.hash prepared⟩

end RpcClient

/-! ### The requests of a call -/

inductive Request where
  | account (key : String)
  | simulate (tx : Transaction)
  | prepare (tx : Transaction)
  | send (signed : Signed)
  | wait (hash : String)
  | data (contract : String)

/-- The transaction that is sent. -/
def Request.sends : Request → Option Signed
  | .send signed => some signed
  | _ => none

/-- The same server, with what it is asked written down. -/
def recorded (server : Server C) : Server (C × List Request) where
  sleep ms c := (server.sleep ms c.1,c.2)
  get_account key c := ((server.get_account key c.1).1,(server.get_account key c.1).2,c.2 ++ [.account key])
  simulate_transaction tx c :=
    ((server.simulate_transaction tx c.1).1,(server.simulate_transaction tx c.1).2,c.2 ++ [.simulate tx])
  prepare_transaction tx c :=
    ((server.prepare_transaction tx c.1).1,(server.prepare_transaction tx c.1).2,c.2 ++ [.prepare tx])
  send_transaction signed c :=
    ((server.send_transaction signed c.1).1,(server.send_transaction signed c.1).2,c.2 ++ [.send signed])
  wait_transaction hash c :=
    ((server.wait_transaction hash c.1).1,(server.wait_transaction hash c.1).2,c.2 ++ [.wait hash])
  get_contract_data contract c :=
    ((server.get_contract_data contract c.1).1,(server.get_contract_data contract c.1).2,c.2 ++ [.data contract])

/-- The same client, with what it asks written down. -/
def RpcClient.recorded (client : RpcClient C) : RpcClient (C × List Request) :=
  ⟨Rpc.recorded client.server,client.sdk,client.network_passphrase,client.liquidator_public_key⟩

section Requests
variable {α : Type} {server : Server C} {operation : C × List Request → Answer α × (C × List Request)} {q : Request}
  {result : Except String α} {c d : C} {log log' : List Request}

/-- A request is made once, or again after every attempt that failed. -/
theorem retry_from_logs {attempts delay : Nat} {last_error : Option String}
    (logs : ∀ s, (operation s).2.2 = s.2 ++ [q])
    (ran : retry_from (recorded server) operation attempts delay last_error (c,log) = (result, (d,log'))) :
    ∃ k, k ≤ attempts ∧ (0 < attempts → 0 < k) ∧ log' = log ++ List.replicate k q := by
  induction attempts generalizing delay last_error c log with
  | zero =>
    cases ran
    exact ⟨0,Nat.le_refl _,fun none => none,by simp⟩
  | succ attempts ih =>
    have asked := logs (c,log)
    rcases retry_from_succ (recorded server) operation (c,log) attempts delay last_error with
      ⟨value,e,answered,done⟩ | ⟨error,again⟩
    · rw [ran] at done
      cases done
      rw [answered] at asked
      exact ⟨1,by omega,fun _ => by omega,asked⟩
    · rw [again] at ran
      have rested : ∃ e, (if attempts = 0 then (operation (c,log)).2
          else (recorded server).sleep delay (operation (c,log)).2) = (e,log ++ [q]) := by
        split
        · exact ⟨_,Prod.ext rfl asked⟩
        · exact ⟨_,Prod.ext rfl asked⟩
      obtain ⟨e,rested⟩ := rested
      rw [rested] at ran
      obtain ⟨k,most,_,grown⟩ := ih ran
      exact ⟨k + 1,by omega,fun _ => by omega,by rw [grown,List.append_assoc]; rfl⟩

theorem with_retry_logs (logs : ∀ s, (operation s).2.2 = s.2 ++ [q])
    (ran : with_retry (recorded server) operation (c,log) = (result, (d,log'))) :
    ∃ k, 0 < k ∧ k ≤ RPC_RETRIES ∧ log' = log ++ List.replicate k q := by
  obtain ⟨k,most,some,grown⟩ := retry_from_logs logs ran
  exact ⟨k,some (by decide),most,grown⟩

end Requests

/-- So many requests: at least one, and no more than may be tried. -/
def Tried (k : Nat) : Prop := 0 < k ∧ k ≤ RPC_RETRIES

/-- What a call asks, and how it ends: it fails on its account or its arguments, it
    fails before anything is sent, having simulated one transaction and prepared it
    perhaps, or it sends one transaction, which it simulated and prepared before. -/
inductive Submission (client : RpcClient C) (vault_contract_id : String) (gas_budget : Nat) (user : String)
    (repay_amount : Int) : List Request → Except String LiquidationTxResult → Prop
  | unasked (accounts : Nat) (e : String) : Tried accounts →
      Submission client vault_contract_id gas_budget user repay_amount
        (List.replicate accounts (.account client.liquidator_public_key)) (.error e)
  | unsent (accounts simulations preparations sequence : Nat) (liquidator_address user_address : Address)
      (tx : Transaction) (e : String) :
      client.sdk.address_new client.liquidator_public_key = .ok liquidator_address →
      client.sdk.address_new user = .ok user_address →
      tx = client.liquidation vault_contract_id gas_budget sequence liquidator_address user_address repay_amount →
      Tried accounts → Tried simulations → preparations ≤ RPC_RETRIES →
      Submission client vault_contract_id gas_budget user repay_amount
        (List.replicate accounts (.account client.liquidator_public_key) ++ List.replicate simulations (.simulate tx) ++
          List.replicate preparations (.prepare tx)) (.error e)
  | sent (accounts simulations preparations sends waits sequence : Nat) (liquidator_address user_address : Address)
      (tx : Transaction) (resources hash : String) (result : Except String LiquidationTxResult) :
      client.sdk.address_new client.liquidator_public_key = .ok liquidator_address →
      client.sdk.address_new user = .ok user_address →
      tx = client.liquidation vault_contract_id gas_budget sequence liquidator_address user_address repay_amount →
      Tried accounts → Tried simulations → Tried preparations → Tried sends → waits ≤ RPC_RETRIES →
      (∀ r, result = .ok r → 0 < waits ∧ r.hash = hash ∧
        r.hash_surrogate = client.sdk.hash ⟨tx,resources,client.liquidator_public_key⟩) →
      Submission client vault_contract_id gas_budget user repay_amount
        (List.replicate accounts (.account client.liquidator_public_key) ++ List.replicate simulations (.simulate tx) ++
          List.replicate preparations (.prepare tx) ++
          List.replicate sends (.send ⟨tx,resources,client.liquidator_public_key⟩) ++
          List.replicate waits (.wait hash)) result

section Submissions
variable {α : Type} {words e : String} {result : Except String α} {s t : C}

theorem given_error {value : Except String α} (ran : (given words value : Process C String α) s = (.error e, t)) : t = s := by
  unfold given at ran
  split at ran
  · cases ran
  · cases ran
    rfl

end Submissions

theorem liquidate_asks {client : RpcClient C} {vault_contract_id user : String} {gas_budget : Nat} {repay_amount : Int}
    {c d : C} {log log' : List Request} {result : Except String LiquidationTxResult}
    (ran : client.recorded.liquidate vault_contract_id gas_budget user repay_amount (c,log) = (result, (d,log'))) :
    ∃ asked, log' = log ++ asked ∧ Submission client vault_contract_id gas_budget user repay_amount asked result := by
  unfold RpcClient.liquidate at ran
  rcases bind_cases ran with ⟨e,failed,rfl⟩ | ⟨sequence,⟨c₁,log₁⟩,counted,ran⟩
  · obtain ⟨accounts,some_accounts,most_accounts,rfl⟩ := with_retry_logs (fun _ => rfl) failed
    exact ⟨_,rfl,.unasked accounts e ⟨some_accounts,most_accounts⟩⟩
  obtain ⟨accounts,some_accounts,most_accounts,rfl⟩ := with_retry_logs (fun _ => rfl) counted
  have early (e : String) : Submission client vault_contract_id gas_budget user repay_amount
      (List.replicate accounts (.account client.liquidator_public_key)) (.error e) :=
    .unasked accounts e ⟨some_accounts,most_accounts⟩
  rcases bind_cases ran with ⟨e,failed,rfl⟩ | ⟨_,_,valid,ran⟩
  · cases given_error failed
    exact ⟨_,rfl,early e⟩
  obtain ⟨_,rfl⟩ := given_ok.mp valid
  rcases bind_cases ran with ⟨e,failed,rfl⟩ | ⟨liquidator_address,_,first,ran⟩
  · cases given_error failed
    exact ⟨_,rfl,early e⟩
  obtain ⟨own,rfl⟩ := given_ok.mp first
  rcases bind_cases ran with ⟨e,failed,rfl⟩ | ⟨user_address,_,second,ran⟩
  · cases given_error failed
    exact ⟨_,rfl,early e⟩
  obtain ⟨known,rfl⟩ := given_ok.mp second
  let tx := client.liquidation vault_contract_id gas_budget sequence liquidator_address user_address repay_amount
  have late (simulations preparations : Nat) (e : String) (tried : Tried simulations) (most : preparations ≤ RPC_RETRIES) :
      Submission client vault_contract_id gas_budget user repay_amount
        (List.replicate accounts (.account client.liquidator_public_key) ++ List.replicate simulations (.simulate tx) ++
          List.replicate preparations (.prepare tx)) (.error e) :=
    .unsent accounts simulations preparations sequence liquidator_address user_address tx e own known rfl
      ⟨some_accounts,most_accounts⟩ tried most
  rcases bind_cases ran with ⟨e,failed,rfl⟩ | ⟨simulation,⟨c₂,log₂⟩,simulated,ran⟩
  · obtain ⟨simulations,some_simulations,most_simulations,rfl⟩ := with_retry_logs (fun _ => rfl) failed
    refine ⟨_,?_,late simulations 0 e ⟨some_simulations,most_simulations⟩ (Nat.zero_le _)⟩
    simp only [List.append_assoc,List.replicate_zero,List.append_nil]
    rfl
  obtain ⟨simulations,some_simulations,most_simulations,rfl⟩ := with_retry_logs (fun _ => rfl) simulated
  rcases bind_cases ran with ⟨e,failed,rfl⟩ | ⟨min_resource_fee,_,fee,ran⟩
  · obtain ⟨_,rfl,same⟩ := expect_error.mp failed
    cases same
    refine ⟨_,?_,late simulations 0 _ ⟨some_simulations,most_simulations⟩ (Nat.zero_le _)⟩
    simp only [List.append_assoc,List.replicate_zero,List.append_nil]
    rfl
  obtain ⟨_,rfl⟩ := expect_ok.mp fee
  rcases bind_cases ran with ⟨e,failed,rfl⟩ | ⟨resources,⟨c₃,log₃⟩,prepared,ran⟩
  · obtain ⟨preparations,_,most_preparations,rfl⟩ := with_retry_logs (fun _ => rfl) failed
    refine ⟨_,?_,late simulations preparations e ⟨some_simulations,most_simulations⟩ most_preparations⟩
    simp only [List.append_assoc]
    rfl
  obtain ⟨preparations,some_preparations,most_preparations,rfl⟩ := with_retry_logs (fun _ => rfl) prepared
  rcases bind_cases ran with ⟨e,failed,rfl⟩ | ⟨hash,⟨c₄,log₄⟩,sent,ran⟩
  · obtain ⟨sends,some_sends,most_sends,rfl⟩ := with_retry_logs (fun _ => rfl) failed
    refine ⟨_,?_,.sent accounts simulations preparations sends 0 sequence _ _ _ resources "" _ own known rfl
      ⟨some_accounts,most_accounts⟩ ⟨some_simulations,most_simulations⟩ ⟨some_preparations,most_preparations⟩
      ⟨some_sends,most_sends⟩ (Nat.zero_le _) ?_⟩
    · simp only [List.append_assoc,List.replicate_zero,List.append_nil]
      rfl
    · rintro r ⟨⟩
  obtain ⟨sends,some_sends,most_sends,rfl⟩ := with_retry_logs (fun _ => rfl) sent
  rcases bind_cases ran with ⟨e,failed,rfl⟩ | ⟨status,⟨c₅,log₅⟩,waited,ran⟩
  · obtain ⟨waits,_,most_waits,rfl⟩ := with_retry_logs (fun _ => rfl) failed
    refine ⟨_,?_,.sent accounts simulations preparations sends waits sequence _ _ _ resources hash _ own known rfl
      ⟨some_accounts,most_accounts⟩ ⟨some_simulations,most_simulations⟩ ⟨some_preparations,most_preparations⟩
      ⟨some_sends,most_sends⟩ most_waits ?_⟩
    · simp only [List.append_assoc]
      rfl
    · rintro r ⟨⟩
  obtain ⟨waits,some_waits,most_waits,rfl⟩ := with_retry_logs (fun _ => rfl) waited
  cases ran
  refine ⟨_,?_,.sent accounts simulations preparations sends waits sequence _ _ _ resources hash _ own known rfl
    ⟨some_accounts,most_accounts⟩ ⟨some_simulations,most_simulations⟩ ⟨some_preparations,most_preparations⟩
    ⟨some_sends,most_sends⟩ most_waits ?_⟩
  · simp only [List.append_assoc]
    rfl
  · rintro r ⟨⟩
    exact ⟨some_waits,rfl,rfl⟩

/-! ### Writing down changes nothing -/

section Simulation
variable {α : Type} {server : Server C} {client : RpcClient C}

theorem retry_from_simulates {operation : C → Answer α × C} {noted : C × List Request → Answer α × (C × List Request)}
    (same : ∀ s, operation s.1 = ((noted s).1,(noted s).2.1)) (attempts delay : Nat) (last_error : Option String) :
    Simulates Prod.fst (retry_from (recorded server) noted attempts delay last_error)
      (retry_from server operation attempts delay last_error) := by
  induction attempts generalizing delay last_error with
  | zero => exact fun _ => rfl
  | succ attempts ih =>
    intro s
    have first := same s
    have rested : (if attempts = 0 then (operation s.1).2 else server.sleep delay (operation s.1).2) =
        (if attempts = 0 then (noted s).2 else (recorded server).sleep delay (noted s).2).1 := by
      rw [first]
      split <;> rfl
    rcases answered : noted s with ⟨value | error | _,t⟩
    · rw [answered] at first
      simp only [retry_from,first,answered]
    · rw [answered] at first rested
      rw [first] at rested
      simp only [retry_from,first,answered,rested]
      exact ih _ _ _
    · rw [answered] at first rested
      rw [first] at rested
      simp only [retry_from,first,answered,rested]
      exact ih _ _ _

theorem given_simulates {words : String} {value : Except String α} :
    Simulates Prod.fst (given words value : Process (C × List Request) String α) (given words value) := by
  intro s
  unfold given
  cases value <;> rfl

theorem expect_simulates {value : Option α} {e : String} :
    Simulates Prod.fst (expect value e : Process (C × List Request) String α) (expect value e) := by
  intro s
  cases value <;> rfl

theorem parsed_simulates {context : Option String} {value : Parsed α} :
    Simulates Prod.fst (parsed client.recorded context value) (parsed client context value) := by
  intro s
  unfold parsed
  cases value <;> rfl

theorem liquidate_simulates (client : RpcClient C) (vault_contract_id : String) (gas_budget : Nat) (user : String)
    (repay_amount : Int) :
    Simulates Prod.fst (client.recorded.liquidate vault_contract_id gas_budget user repay_amount)
      (client.liquidate vault_contract_id gas_budget user repay_amount) := by
  unfold RpcClient.liquidate
  refine .bind (retry_from_simulates (fun _ => rfl) _ _ _) (fun sequence => ?_)
  refine .bind given_simulates (fun _ => .bind given_simulates (fun liquidator => .bind given_simulates (fun user => ?_)))
  refine .bind (retry_from_simulates (fun _ => rfl) _ _ _) (fun simulation => .bind expect_simulates (fun fee => ?_))
  refine .bind (retry_from_simulates (fun _ => rfl) _ _ _) (fun resources => ?_)
  refine .bind (retry_from_simulates (fun _ => rfl) _ _ _) (fun hash => ?_)
  exact .bind (retry_from_simulates (fun _ => rfl) _ _ _) (fun status => .pure)

theorem token_balance_simulates (client : RpcClient C) (token_contract_id user : String) :
    Simulates Prod.fst (client.recorded.token_balance token_contract_id user)
      (client.token_balance token_contract_id user) := by
  unfold RpcClient.token_balance RpcClient.address_arg RpcClient.simulate_contract_call
  refine .bind (.bind given_simulates (fun _ => .pure)) (fun arg => .bind ?_ (fun result => parsed_simulates))
  refine .bind (retry_from_simulates (fun _ => rfl) _ _ _) (fun sequence => .bind given_simulates (fun _ => ?_))
  exact .bind (retry_from_simulates (fun _ => rfl) _ _ _) (fun simulation => expect_simulates)

end Simulation

/-- A ledger applies only what is in flight, and nothing twice; in flight comes only
    what is sent. -/
structure Applies (pending applied : C → List Signed) (sent : List Signed) (c d : C) : Prop where
  carried : ∀ signed ∈ pending d, signed ∈ pending c ∨ signed ∈ sent
  grown : ∃ new, applied d = applied c ++ new ∧ ∀ signed ∈ new, signed ∈ pending c ∨ signed ∈ sent
  once : (applied c).Nodup → (applied d).Nodup

structure Ledger (server : Server C) (pending applied : C → List Signed) : Prop where
  sleep : ∀ ms c, Applies pending applied [] c (server.sleep ms c)
  get_account : ∀ key c, Applies pending applied [] c (server.get_account key c).2
  simulate_transaction : ∀ tx c, Applies pending applied [] c (server.simulate_transaction tx c).2
  prepare_transaction : ∀ tx c, Applies pending applied [] c (server.prepare_transaction tx c).2
  send_transaction : ∀ signed c, Applies pending applied [signed] c (server.send_transaction signed c).2
  wait_transaction : ∀ hash c, Applies pending applied [] c (server.wait_transaction hash c).2
  get_contract_data : ∀ contract c, Applies pending applied [] c (server.get_contract_data contract c).2

/-- The requests that were written down, and what a ledger makes of them. -/
def Noted (pending applied : C → List Signed) (s t : C × List Request) : Prop :=
  ∃ asked, t.2 = s.2 ++ asked ∧ Applies pending applied (asked.filterMap Request.sends) s.1 t.1

section Ledgers
variable {pending applied : C → List Signed}

theorem Applies.refl (sent : List Signed) (c : C) : Applies pending applied sent c c :=
  ⟨fun _ => .inl,⟨[],by simp,by simp⟩,fun nodup => nodup⟩

theorem Applies.trans {first second : List Signed} {c d e : C} (earlier : Applies pending applied first c d)
    (later : Applies pending applied second d e) : Applies pending applied (first ++ second) c e where
  carried signed member := by
    rcases later.carried signed member with before | own
    · rcases earlier.carried signed before with before | own
      · exact .inl before
      · exact .inr (List.mem_append_left _ own)
    · exact .inr (List.mem_append_right _ own)
  grown := by
    obtain ⟨new,grown,from_first⟩ := earlier.grown
    obtain ⟨more,grown',from_second⟩ := later.grown
    refine ⟨new ++ more,by rw [grown',grown,List.append_assoc],?_⟩
    refine List.forall_mem_append.mpr ⟨?_,?_⟩
    · intro signed member
      exact (from_first signed member).imp_right (List.mem_append_left _)
    · intro signed member
      rcases from_second signed member with before | own
      · exact (earlier.carried signed before).imp_right (List.mem_append_left _)
      · exact .inr (List.mem_append_right _ own)
  once nodup := later.once (earlier.once nodup)

instance : Std.Refl (Noted pending applied) := ⟨fun s => ⟨[],by simp,.refl _ _⟩⟩

instance : IsTrans (C × List Request) (Noted pending applied) := by
  refine ⟨?_⟩
  rintro s t u ⟨first,grown,earlier⟩ ⟨second,grown',later⟩
  refine ⟨first ++ second,by rw [grown',grown,List.append_assoc],?_⟩
  rw [List.filterMap_append]
  exact earlier.trans later

theorem Ledger.recorded {server : Server C} (ledger : Ledger server pending applied) :
    (Rpc.recorded server).Moves (Noted pending applied) where
  sleep ms s := ⟨[],by simp [Rpc.recorded],ledger.sleep ms s.1⟩
  get_account key s := ⟨[.account key],rfl,ledger.get_account key s.1⟩
  simulate_transaction tx s := ⟨[.simulate tx],rfl,ledger.simulate_transaction tx s.1⟩
  prepare_transaction tx s := ⟨[.prepare tx],rfl,ledger.prepare_transaction tx s.1⟩
  send_transaction signed s := ⟨[.send signed],rfl,ledger.send_transaction signed s.1⟩
  wait_transaction hash s := ⟨[.wait hash],rfl,ledger.wait_transaction hash s.1⟩
  get_contract_data contract s := ⟨[.data contract],rfl,ledger.get_contract_data contract s.1⟩

end Ledgers

/-! ### The executor -/

/-- The client as the executor uses it. -/
def RpcClient.submitting (client : RpcClient C) (gas_budget : Nat) : Submitting C where
  liquidator_public_key := client.liquidator_public_key
  token_balance token_contract_id user c :=
    ((client.token_balance token_contract_id user c).1.toOption,(client.token_balance token_contract_id user c).2)
  liquidate config user repay_amount c :=
    ((client.liquidate config.vault_contract_id gas_budget user repay_amount c).1.toBool,
      (client.liquidate config.vault_contract_id gas_budget user repay_amount c).2)

/-- A transaction is the liquidation of half of the debt of a candidate. -/
structure Targets (client : RpcClient C) (vault_contract_id : String) (candidate : HealthAssessment) (signed : Signed) :
    Prop where
  operation : ∃ liquidator_address user_address, client.sdk.address_new client.liquidator_public_key = .ok liquidator_address ∧
    client.sdk.address_new candidate.tracked.key.user = .ok user_address ∧
    signed.transaction.operation = ⟨vault_contract_id,"liquidate",[.address liquidator_address,.address user_address,
      sc_i128 (liquidation_repay_amount candidate.tracked)]⟩
  positive : 0 < liquidation_repay_amount candidate.tracked

/-- Nothing is sent. -/
def Silent (s t : C × List Request) : Prop := ∃ asked, t.2 = s.2 ++ asked ∧ ∀ signed, .send signed ∉ asked

instance : Std.Refl (Silent (C := C)) := ⟨fun s => ⟨[],by simp,by simp⟩⟩

instance : IsTrans (C × List Request) Silent := by
  refine ⟨?_⟩
  rintro s t u ⟨first,grown,quiet⟩ ⟨second,grown',quiet'⟩
  refine ⟨first ++ second,by rw [grown',grown,List.append_assoc],?_⟩
  intro signed member
  rcases List.mem_append.mp member with early | late
  · exact quiet signed early
  · exact quiet' signed late

section Programs
variable {client : RpcClient C} {R : C → C → Prop} [Std.Refl R] [IsTrans C R]

/-- Reading a balance moves the world as the requests of it do. -/
theorem token_balance_within {token_contract_id user : String} (sleeps : ∀ ms c, R c (client.server.sleep ms c))
    (accounts : ∀ key c, R c (client.server.get_account key c).2)
    (simulates : ∀ tx c, R c (client.server.simulate_transaction tx c).2) :
    Within R (client.token_balance token_contract_id user) := by
  unfold RpcClient.token_balance RpcClient.address_arg RpcClient.simulate_contract_call
  refine .bind (.bind .given (fun _ => .still (fun _ => rfl))) (fun arg => .bind ?_ (fun result => .parsed))
  refine .bind (.retry sleeps (accounts _)) (fun sequence => .bind .given (fun _ => ?_))
  exact .bind (.retry sleeps (simulates _)) (fun simulation => .expect)

theorem liquidate_within {vault_contract_id user : String} {gas_budget : Nat} {repay_amount : Int}
    (moves : client.server.Moves R) : Within R (client.liquidate vault_contract_id gas_budget user repay_amount) := by
  unfold RpcClient.liquidate
  refine .bind (.retry moves.sleep (moves.get_account _)) (fun sequence => .bind .given (fun _ => ?_))
  refine .bind .given (fun liquidator => .bind .given (fun user => ?_))
  refine .bind (.retry moves.sleep (moves.simulate_transaction _)) (fun simulation => .bind .expect (fun fee => ?_))
  refine .bind (.retry moves.sleep (moves.prepare_transaction _)) (fun resources => ?_)
  refine .bind (.retry moves.sleep (moves.send_transaction _)) (fun hash => ?_)
  exact .bind (.retry moves.sleep (moves.wait_transaction _)) (fun status => .still (fun _ => rfl))

end Programs

section Executor
variable {client : RpcClient C} {config : Config} {gas_budget submitted : Nat} {candidates : List HealthAssessment}
  {c d : C} {log log' : List Request} {result : Except Unit (List Bot.Attempt)}

/-- Reading a balance sends nothing. -/
theorem token_balance_silent (client : RpcClient C) (token_contract_id user : String) :
    Within Silent (client.recorded.token_balance token_contract_id user) :=
  token_balance_within (fun _ _ => ⟨[],(List.append_nil _).symm,by simp⟩) (fun key _ => ⟨[.account key],rfl,by simp⟩)
    (fun tx _ => ⟨[.simulate tx],rfl,by simp⟩)

theorem submitting_balance {token_contract_id user : String} {told : Option Int}
    (read : (client.submitting gas_budget).token_balance token_contract_id user c = (told, d)) :
    (client.token_balance token_contract_id user c).2 = d :=
  congrArg Prod.snd read

theorem submitting_liquidate {user : String} {repay_amount : Int} {taken : Bool}
    (sent : (client.submitting gas_budget).liquidate config user repay_amount c = (taken, d)) :
    (client.liquidate config.vault_contract_id gas_budget user repay_amount c).2 = d :=
  congrArg Prod.snd sent

/-- What a liquidation sends is one transaction for its candidate, if anything. -/
theorem Submission.targets {candidate : HealthAssessment} {asked : List Request} {outcome : Except String LiquidationTxResult}
    (submission : Submission client config.vault_contract_id gas_budget candidate.tracked.key.user
      (liquidation_repay_amount candidate.tracked) asked outcome)
    (positive : 0 < liquidation_repay_amount candidate.tracked) :
    (∀ signed, .send signed ∉ asked) ∨
      ∃ own, Targets client config.vault_contract_id candidate own ∧ ∀ signed, .send signed ∈ asked → signed = own := by
  cases submission with
  | unasked accounts e => exact .inl (by simp [List.mem_replicate])
  | unsent accounts simulations preparations => exact .inl (by simp [List.mem_replicate])
  | sent accounts simulations preparations sends waits sequence liquidator_address user_address tx resources hash result
      own known built =>
    refine .inr ⟨⟨tx,resources,client.liquidator_public_key⟩,⟨⟨_,_,own,known,by rw [built]; rfl⟩,positive⟩,?_⟩
    intro signed member
    simp only [List.mem_append,List.mem_replicate,reduceCtorEq,and_false,false_or,or_false,Request.send.injEq] at member
    exact member.2

/-- The loop over the candidates sends one transaction at most for each. -/
theorem execute_from_sends
    (ran : execute_from config (client.recorded.submitting gas_budget) submitted candidates (c,log) = (result,(d,log'))) :
    ∃ asked tried chosen, log' = log ++ asked ∧ tried.Sublist candidates ∧
      List.Forall₂ (Targets client config.vault_contract_id) tried chosen ∧
      ∀ signed, .send signed ∈ asked → signed ∈ chosen := by
  have silent : ∀ {user told c d log log₁}, (client.recorded.submitting gas_budget).token_balance
      config.token_contract_id user (c,log) = (told,(d,log₁)) →
      ∃ asked, log₁ = log ++ asked ∧ ∀ signed, .send signed ∉ asked := by
    intro user told c d log log₁ read
    obtain ⟨asked,grown,quiet⟩ := token_balance_silent client config.token_contract_id user (c,log)
    rw [submitting_balance read] at grown
    exact ⟨asked,grown,quiet⟩
  induction candidates generalizing submitted result c log with
  | nil =>
    cases ran
    exact ⟨[],[],[],by simp,.slnil,.nil,by simp⟩
  | cons candidate rest ih =>
    rcases execute_from_step ran with ⟨_,rfl,same⟩ | ⟨_,ran⟩ | ⟨told,rfl⟩ | ⟨_,⟨c₁,log₁⟩,told,_,ran⟩ |
      ⟨_,⟨c₁,log₁⟩,taken,⟨c₂,log₂⟩,later,told,sent,_,positive,_,_,others,rfl⟩
    · cases same
      exact ⟨[],[],[],by simp,List.nil_sublist _,.nil,by simp⟩
    · obtain ⟨asked,tried,chosen,grown,sub,targets,only⟩ := ih ran
      exact ⟨asked,tried,chosen,grown,sub.cons _,targets,only⟩
    · obtain ⟨asked,grown,quiet⟩ := silent told
      exact ⟨asked,[],[],grown,List.nil_sublist _,.nil,fun signed member => absurd member (quiet signed)⟩
    · obtain ⟨read,grown,quiet⟩ := silent told
      obtain ⟨asked,tried,chosen,grown',sub,targets,only⟩ := ih ran
      refine ⟨read ++ asked,tried,chosen,by rw [grown',grown,List.append_assoc],sub.cons _,targets,?_⟩
      intro signed member
      exact only signed ((List.mem_append.mp member).resolve_left (quiet signed))
    · obtain ⟨read,grown,quiet⟩ := silent told
      obtain ⟨asked,tried,chosen,grown',sub,targets,only⟩ := ih others
      have ended : client.recorded.liquidate config.vault_contract_id gas_budget candidate.tracked.key.user
          (liquidation_repay_amount candidate.tracked) (c₁,log₁) = (_,(c₂,log₂)) :=
        Prod.ext rfl (submitting_liquidate sent)
      obtain ⟨tries,noted,submission⟩ := liquidate_asks ended
      have whole : log' = log ++ (read ++ (tries ++ asked)) := by
        rw [grown',noted,grown,List.append_assoc,List.append_assoc]
      rcases submission.targets positive with unsent | ⟨own,target,one⟩
      · refine ⟨_,tried,chosen,whole,sub.cons _,targets,?_⟩
        intro signed member
        have late := (List.mem_append.mp member).resolve_left (quiet signed)
        exact only signed ((List.mem_append.mp late).resolve_left (unsent signed))
      · refine ⟨_,candidate :: tried,own :: chosen,whole,sub.cons_cons _,.cons target targets,?_⟩
        intro signed member
        have late := (List.mem_append.mp member).resolve_left (quiet signed)
        rcases List.mem_append.mp late with first | others
        · exact List.mem_cons.mpr (.inl (one signed first))
        · exact List.mem_cons_of_mem _ (only signed others)

/-- What a run asks of a ledger is applied as it is sent. -/
theorem execute_from_noted {pending applied : C → List Signed} (ledger : Ledger client.server pending applied)
    (ran : execute_from config (client.recorded.submitting gas_budget) submitted candidates (c,log) = (result,(d,log'))) :
    Noted pending applied (c,log) (d,log') := by
  have moves : client.recorded.server.Moves (Noted pending applied) := ledger.recorded
  have balance : ∀ {user told s t}, (client.recorded.submitting gas_budget).token_balance config.token_contract_id user s =
      (told, t) → Noted pending applied s t := by
    intro user told s t read
    rw [← submitting_balance read]
    exact token_balance_within moves.sleep moves.get_account moves.simulate_transaction s
  induction candidates generalizing submitted result c log with
  | nil =>
    cases ran
    exact Std.Refl.refl _
  | cons candidate rest ih =>
    rcases execute_from_step ran with ⟨_,rfl,same⟩ | ⟨_,ran⟩ | ⟨told,rfl⟩ | ⟨_,⟨c₁,log₁⟩,told,_,ran⟩ |
      ⟨_,⟨c₁,log₁⟩,taken,⟨c₂,log₂⟩,later,told,sent,_,_,_,_,others,rfl⟩
    · rw [same]
      exact Std.Refl.refl _
    · exact ih ran
    · exact balance told
    · exact IsTrans.trans _ _ _ (balance told) (ih ran)
    · have liquidated : Noted pending applied (c₁,log₁) (c₂,log₂) := by
        rw [← submitting_liquidate sent]
        exact liquidate_within moves (c₁,log₁)
      exact IsTrans.trans _ _ _ (IsTrans.trans _ _ _ (balance told) liquidated) (ih others)

end Executor

namespace Small

/-- A ledger that takes one transaction of each sequence number, and whose answer to the
    transaction that it takes is lost. -/
def forgetful : Server (List Signed) where
  sleep _ c := c
  get_account _ c := (.value c.length, c)
  simulate_transaction _ c := (.value ⟨some "100",some (sc_i128 1000000)⟩, c)
  prepare_transaction _ c := (.value "resources", c)
  send_transaction signed c :=
    if ∃ other ∈ c, other.transaction.sequence = signed.transaction.sequence then (.value "hash", c)
    else (.timed_out, c ++ [signed])
  wait_transaction _ c := (.value "SUCCESS", c)
  get_contract_data _ c := (.timed_out, c)

def liquidator : RpcClient (List Signed) := ⟨forgetful,sdk,"Test SDF Network ; September 2015","userB"⟩

theorem forgetful_ledger : Ledger forgetful (fun _ => []) (fun c => c) where
  sleep _ _ := .refl _ _
  get_account _ _ := .refl _ _
  simulate_transaction _ _ := .refl _ _
  prepare_transaction _ _ := .refl _ _
  wait_transaction _ _ := .refl _ _
  get_contract_data _ _ := .refl _ _
  send_transaction signed c := by
    by_cases known : ∃ other ∈ c, other.transaction.sequence = signed.transaction.sequence
    · simp only [forgetful,if_pos known]
      exact .refl _ _
    · simp only [forgetful,if_neg known]
      refine ⟨by simp,⟨[signed],rfl,by simp⟩,?_⟩
      intro nodup
      refine List.nodup_append.mpr ⟨nodup,List.nodup_singleton _,?_⟩
      rintro other member _ own rfl
      rw [List.mem_singleton.mp own] at member
      exact known ⟨signed,member,rfl⟩

def candidate : HealthAssessment := ⟨⟨⟨"userA","asset"⟩,⟨1000000,500000,20⟩,5⟩,9000,10000000,0,12500⟩

end Small

/-- Where nothing was in flight, a run of the executor applies one transaction at most
    for each candidate, a liquidation of half of its debt, whatever was lost and made
    again. -/
theorem executor_applies_once (client : RpcClient C) (config : Config) (gas_budget : Nat) (candidates : List HealthAssessment)
    (pending applied : C → List Signed) (ledger : Ledger client.server pending applied) (c : C) (idle : pending c = [])
    (nodup : (applied c).Nodup) :
    ∃ new tried chosen,
      applied (execute_from config (client.submitting gas_budget) 0 candidates c).2 = applied c ++ new ∧ new.Nodup ∧
      tried.Sublist candidates ∧ List.Forall₂ (Targets client config.vault_contract_id) tried chosen ∧
      ∀ signed ∈ new, signed ∈ chosen := by
  have same : Simulates Prod.fst (execute_from config (client.recorded.submitting gas_budget) 0 candidates)
      (execute_from config (client.submitting gas_budget) 0 candidates) := by
    refine execute_from_simulates rfl ?_ ?_
    · intro contract user s
      simp only [RpcClient.submitting,token_balance_simulates client contract user s]
    · intro user repay_amount s
      simp only [RpcClient.submitting,liquidate_simulates client config.vault_contract_id gas_budget user repay_amount s]
  rcases ran : execute_from config (client.recorded.submitting gas_budget) 0 candidates (c,[]) with ⟨result,d,log⟩
  have ended : (execute_from config (client.submitting gas_budget) 0 candidates c).2 = d := by
    have plain := same (c,[])
    rw [ran] at plain
    exact congrArg Prod.snd plain
  obtain ⟨asked,tried,chosen,grown,sub,targets,only⟩ := execute_from_sends ran
  obtain ⟨noted,grown',applies⟩ := execute_from_noted ledger ran
  obtain ⟨new,applied_new,sent⟩ := applies.grown
  have whole := applies.once nodup
  rw [applied_new] at whole
  refine ⟨new,tried,chosen,by rw [ended]; exact applied_new,(List.nodup_append.mp whole).2.1,sub,targets,?_⟩
  intro signed member
  rcases sent signed member with before | now
  · rw [idle] at before
    cases before
  · obtain ⟨request,noted_request,names⟩ := List.mem_filterMap.mp now
    have logged : noted = asked := List.append_cancel_left (grown'.symm.trans grown)
    cases request with
    | send own =>
      cases names
      exact only signed (logged ▸ noted_request)
    | _ => cases names

/-- The answer to the transaction is lost, and it is sent again and applied once. -/
theorem executor_applies_once_lost :
    (execute_from Bot.Small.settings (Small.liquidator.submitting 1000) 0 [Small.candidate] []).2.length = 1 ∧
    ∃ new tried chosen,
      (execute_from Bot.Small.settings (Small.liquidator.submitting 1000) 0 [Small.candidate] []).2 = [] ++ new ∧
      new.Nodup ∧ tried.Sublist [Small.candidate] ∧ List.Forall₂ (Targets Small.liquidator "vault") tried chosen ∧
      ∀ signed ∈ new, signed ∈ chosen :=
  ⟨by decide +kernel,executor_applies_once Small.liquidator Bot.Small.settings 1000 [Small.candidate] (fun _ => [])
    (fun c => c) Small.forgetful_ledger [] rfl .nil⟩

end Helix.Rpc
