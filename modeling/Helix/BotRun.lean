import Helix.Liquidator
import Helix.IndexMirror

/-!
The loop of the bot. An iteration scans, evaluates what the scanner watches and
submits liquidations, and the loop goes on whatever became of it. The client of the
executor writes down what it is asked (`recording`): that is of one shape
(`Trail`), so every liquidation of a run has its reasons (`liquidations_justified`).
-/
namespace Helix.Bot
open Process
open Vault (Position PoolConfig)

/-! ### What the executor asks of the network -/

inductive Asked where
  | balance (told : Option Int)
  | liquidate (user : String) (repay_amount : Int) (accepted : Bool)
  deriving DecidableEq

/-- A liquidation that was submitted. -/
def Asked.taken : Asked → Bool
  | .liquidate _ _ accepted => accepted
  | .balance _ => false

/-- The user that is to be liquidated. -/
def Asked.target : Asked → Option String
  | .liquidate user _ _ => some user
  | .balance _ => none

/-- The liquidations submitted. -/
def accepted (asked : List Asked) : Nat := asked.countP Asked.taken

/-- The same client, which also writes down what it is asked. -/
def recording {C : Type} (rpc : Submitting C) : Submitting (C × List Asked) where
  liquidator_public_key := rpc.liquidator_public_key
  token_balance contract user c :=
    let (told, d) := rpc.token_balance contract user c.1
    (told, (d, c.2 ++ [.balance told]))
  liquidate config user repay_amount c :=
    let (submitted, d) := rpc.liquidate config user repay_amount c.1
    (submitted, (d, c.2 ++ [.liquidate user repay_amount submitted]))

/-- What is asked while the candidates are worked off, after so many liquidations. -/
inductive Trail (config : Config) : Nat → List HealthAssessment → List Asked → Prop
  | nothing (submitted) : Trail config submitted [] []
  | full {submitted candidates} : config.max_liquidations_per_run ≤ submitted → Trail config submitted candidates []
  | passed {submitted candidate rest asked} :
      liquidation_repay_amount candidate.tracked ≤ 0 ∨ candidate.expected_profit < config.min_profit_threshold →
      Trail config submitted rest asked → Trail config submitted (candidate :: rest) asked
  | untold {submitted candidate rest} : Trail config submitted (candidate :: rest) [.balance none]
  | short {submitted candidate rest asked balance} : balance < liquidation_repay_amount candidate.tracked →
      Trail config submitted rest asked →
      Trail config submitted (candidate :: rest) (.balance (some balance) :: asked)
  | tried {submitted candidate rest asked balance} (accepted : Bool) :
      submitted < config.max_liquidations_per_run → 0 < liquidation_repay_amount candidate.tracked →
      config.min_profit_threshold ≤ candidate.expected_profit →
      liquidation_repay_amount candidate.tracked ≤ balance →
      Trail config (if accepted then submitted + 1 else submitted) rest asked →
      Trail config submitted (candidate :: rest) (.balance (some balance) ::
        .liquidate candidate.tracked.key.user (liquidation_repay_amount candidate.tracked) accepted :: asked)

section Trails
variable {C : Type} {config : Config} {rpc : Submitting C} {candidates rest : List HealthAssessment}
  {candidate : HealthAssessment} {submitted : Nat} {result : Except Unit (List Attempt)} {c c' : C} {log log' : List Asked}

/-- What becomes of a candidate: the loop has ended before it, passes it over, stops
    without a balance, has not enough, or tries to liquidate it, and goes on. -/
theorem execute_from_step (ran : execute_from config rpc submitted (candidate :: rest) c = (result, c')) :
    (config.max_liquidations_per_run ≤ submitted ∧ result = .ok [] ∧ c' = c) ∨
    ((liquidation_repay_amount candidate.tracked ≤ 0 ∨ candidate.expected_profit < config.min_profit_threshold) ∧
      execute_from config rpc submitted rest c = (result, c')) ∨
    (rpc.token_balance config.token_contract_id rpc.liquidator_public_key c = (none, c') ∧ result = .error ()) ∨
    (∃ balance d, rpc.token_balance config.token_contract_id rpc.liquidator_public_key c = (some balance, d) ∧
      balance < liquidation_repay_amount candidate.tracked ∧ execute_from config rpc submitted rest d = (result, c')) ∨
    ∃ balance d taken e later, rpc.token_balance config.token_contract_id rpc.liquidator_public_key c = (some balance, d) ∧
      rpc.liquidate config candidate.tracked.key.user (liquidation_repay_amount candidate.tracked) d = (taken, e) ∧
      submitted < config.max_liquidations_per_run ∧ 0 < liquidation_repay_amount candidate.tracked ∧
      config.min_profit_threshold ≤ candidate.expected_profit ∧
      liquidation_repay_amount candidate.tracked ≤ balance ∧
      execute_from config rpc (if taken then submitted + 1 else submitted) rest e = (later, c') ∧
      result = later.map (fun attempts => ⟨candidate,liquidation_repay_amount candidate.tracked,taken⟩ :: attempts) := by
  rw [execute_from] at ran
  by_cases full : config.max_liquidations_per_run ≤ submitted
  · rw [if_pos full] at ran
    cases ran
    exact .inl ⟨full,rfl,rfl⟩
  refine .inr ?_
  by_cases small : candidate.tracked.position.borrowed_amount.tdiv 2 ≤ 0
  · rw [if_neg full,if_pos small] at ran
    exact .inl ⟨.inl small,ran⟩
  by_cases poor : candidate.expected_profit < config.min_profit_threshold
  · rw [if_neg full,if_neg small,if_pos poor] at ran
    exact .inl ⟨.inr poor,ran⟩
  rw [if_neg full,if_neg small,if_neg poor] at ran
  refine .inr ?_
  rcases told : rpc.token_balance config.token_contract_id rpc.liquidator_public_key c with ⟨balance | balance,d⟩
  · have read : liquidator_balance config rpc c = (.error (), d) := by simp only [liquidator_balance,told]
    rw [bind_of_error read] at ran
    cases ran
    exact .inl ⟨rfl,rfl⟩
  refine .inr ?_
  have read : liquidator_balance config rpc c = (.ok balance, d) := by simp only [liquidator_balance,told]
  rw [bind_of_ok read] at ran
  by_cases short : balance < candidate.tracked.position.borrowed_amount.tdiv 2
  · rw [if_pos short] at ran
    exact .inl ⟨balance,d,rfl,short,ran⟩
  rw [if_neg short] at ran
  rcases sent : rpc.liquidate config candidate.tracked.key.user (candidate.tracked.position.borrowed_amount.tdiv 2) d
    with ⟨taken,e⟩
  have tried : submit config rpc candidate (candidate.tracked.position.borrowed_amount.tdiv 2) d =
      (.ok ⟨candidate,liquidation_repay_amount candidate.tracked,taken⟩, e) := by
    simp only [submit,sent,liquidation_repay_amount]
  rw [bind_of_ok tried] at ran
  rcases later : execute_from config rpc (if taken = true then submitted + 1 else submitted) rest e with ⟨outcome,f⟩
  refine .inr ⟨balance,d,taken,e,outcome,rfl,sent,not_le.mp full,not_le.mp small,not_lt.mp poor,not_lt.mp short,?_⟩
  cases outcome with
  | error _ =>
    rw [bind_of_error later] at ran
    cases ran
    exact ⟨later,rfl⟩
  | ok attempts =>
    rw [bind_of_ok later] at ran
    cases ran
    exact ⟨later,rfl⟩

theorem recording_balance {contract user : String} {told : Option Int} {d : C × List Asked}
    (asked : (recording rpc).token_balance contract user (c,log) = (told, d)) :
    rpc.token_balance contract user c = (told, d.1) ∧ d.2 = log ++ [.balance told] := by
  cases asked
  exact ⟨rfl,rfl⟩

theorem recording_liquidate {user : String} {repay_amount : Int} {taken : Bool} {d : C × List Asked}
    (asked : (recording rpc).liquidate config user repay_amount (c,log) = (taken, d)) :
    rpc.liquidate config user repay_amount c = (taken, d.1) ∧ d.2 = log ++ [.liquidate user repay_amount taken] := by
  cases asked
  exact ⟨rfl,rfl⟩

/-- The loop over the candidates leaves such a trail, whether it ends or stops. -/
theorem execute_from_trail
    (ran : execute_from config (recording rpc) submitted candidates (c,log) = (result, (c',log'))) :
    ∃ asked, log' = log ++ asked ∧ Trail config submitted candidates asked ∧
      ∀ attempts, result = .ok attempts → .balance none ∉ asked ∧
        attempts.countP (fun attempt => attempt.submitted) = accepted asked := by
  induction candidates generalizing submitted result c log c' log' with
  | nil =>
    cases ran
    refine ⟨[],by simp,.nothing submitted,?_⟩
    rintro attempts ⟨⟩
    simp [accepted]
  | cons candidate rest ih =>
    rcases execute_from_step ran with ⟨full,rfl,same⟩ | ⟨reason,ran⟩ | ⟨told,rfl⟩ | ⟨balance,d,told,short,ran⟩ |
      ⟨balance,d,taken,e,later,told,sent,room,positive,pays,enough,others,rfl⟩
    · cases same
      refine ⟨[],by simp,.full full,?_⟩
      rintro attempts ⟨⟩
      simp [accepted]
    · obtain ⟨asked,grown,trail,counts⟩ := ih ran
      exact ⟨asked,grown,.passed reason trail,counts⟩
    · obtain ⟨_,rfl⟩ := recording_balance told
      refine ⟨[.balance none],rfl,.untold,?_⟩
      rintro attempts ⟨⟩
    · obtain ⟨_,noted⟩ := recording_balance told
      obtain ⟨asked,grown,trail,counts⟩ := ih ran
      rw [noted] at grown
      refine ⟨.balance (some balance) :: asked,by rw [grown,List.append_assoc]; rfl,.short short trail,?_⟩
      intro attempts ended
      obtain ⟨answered,count⟩ := counts attempts ended
      refine ⟨by simpa using answered,?_⟩
      rw [count,accepted,accepted,List.countP_cons_of_neg (by simp [Asked.taken])]
    · obtain ⟨_,noted⟩ := recording_balance told
      obtain ⟨_,sent_noted⟩ := recording_liquidate sent
      obtain ⟨asked,grown,trail,counts⟩ := ih others
      rw [sent_noted,noted] at grown
      refine ⟨.balance (some balance) :: .liquidate candidate.tracked.key.user
        (liquidation_repay_amount candidate.tracked) taken :: asked,by rw [grown]; simp,
        .tried taken room positive pays enough trail,?_⟩
      intro attempts ended
      cases later with
      | error _ => cases ended
      | ok attempts' =>
        cases ended
        obtain ⟨answered,count⟩ := counts attempts' rfl
        refine ⟨by simpa using answered,?_⟩
        rw [List.countP_cons,count,accepted,accepted,List.countP_cons_of_neg (by simp [Asked.taken]),List.countP_cons]
        rfl

/-- A client does on its states what another does on what is seen of them, and so does
    the loop over the candidates. -/
theorem execute_from_simulates {D : Type} {view : D → C} {other : Submitting D}
    (named : other.liquidator_public_key = rpc.liquidator_public_key)
    (balance : ∀ contract user s, rpc.token_balance contract user (view s) =
      ((other.token_balance contract user s).1,view (other.token_balance contract user s).2))
    (liquidate : ∀ user repay_amount s, rpc.liquidate config user repay_amount (view s) =
      ((other.liquidate config user repay_amount s).1,view (other.liquidate config user repay_amount s).2)) :
    Simulates view (execute_from config other submitted candidates) (execute_from config rpc submitted candidates) := by
  induction candidates generalizing submitted with
  | nil => exact .pure
  | cons candidate rest ih =>
    have told : Simulates view (liquidator_balance config other) (liquidator_balance config rpc) := by
      intro s
      simp only [liquidator_balance,named,balance]
      rcases other.token_balance config.token_contract_id rpc.liquidator_public_key s with ⟨balance | balance,d⟩ <;> rfl
    have sent : ∀ repay_amount, Simulates view (submit config other candidate repay_amount)
        (submit config rpc candidate repay_amount) := by
      intro repay_amount s
      simp only [submit,liquidate]
    rw [execute_from,execute_from]
    split
    · exact .pure
    split
    · exact ih
    split
    · exact ih
    refine .bind told (fun balance => ?_)
    split
    · exact ih
    · exact .bind (sent _) (fun attempt => .bind ih (fun later => .pure))

/-- Writing down what is asked changes nothing. -/
theorem recording_simulates : Simulates Prod.fst (execute_from config (recording rpc) submitted candidates)
    (execute_from config rpc submitted candidates) :=
  execute_from_simulates rfl (fun _ _ _ => rfl) (fun _ _ _ => rfl)

namespace Trail
variable {asked : List Asked}

/-- No more liquidations are submitted than a run may submit. -/
theorem within (trail : Trail config submitted candidates asked) (room : submitted ≤ config.max_liquidations_per_run) :
    submitted + accepted asked ≤ config.max_liquidations_per_run := by
  induction trail with
  | nothing | full | untold => simpa [accepted,Asked.taken] using room
  | passed _ _ ih => exact ih room
  | short _ _ ih =>
    rw [accepted,List.countP_cons_of_neg (by simp [Asked.taken])]
    exact ih room
  | tried taken free _ _ _ _ ih =>
    rw [accepted,List.countP_cons_of_neg (by simp [Asked.taken]),List.countP_cons]
    cases taken with
    | false => simpa [Asked.taken,accepted] using ih room
    | true =>
      have later := ih free
      simp only [if_true,accepted] at later
      simp only [Asked.taken,if_true]
      omega

/-- A liquidation is of half of the debt of a candidate that pays, and the balance that
    was told right before it suffices. -/
theorem reasons (trail : Trail config submitted candidates asked) {earlier later : List Asked} {user : String}
    {repay_amount : Int} {taken : Bool} (split : asked = earlier ++ .liquidate user repay_amount taken :: later) :
    (∃ candidate ∈ candidates, candidate.tracked.key.user = user ∧
      repay_amount = liquidation_repay_amount candidate.tracked ∧ 0 < repay_amount ∧
      config.min_profit_threshold ≤ candidate.expected_profit) ∧
    ∃ before balance, earlier = before ++ [.balance (some balance)] ∧ repay_amount ≤ balance := by
  induction trail generalizing earlier with
  | nothing | full => simp at split
  | passed _ _ ih =>
    obtain ⟨⟨candidate,member,why⟩,funds⟩ := ih split
    exact ⟨⟨candidate,List.mem_cons_of_mem _ member,why⟩,funds⟩
  | untold =>
    cases earlier with
    | nil => simp at split
    | cons first others => simp at split
  | short _ _ ih =>
    cases earlier with
    | nil => simp at split
    | cons first others =>
      rw [List.cons_append,List.cons.injEq] at split
      obtain ⟨rfl,split⟩ := split
      obtain ⟨⟨candidate,member,why⟩,before,balance,rfl,enough⟩ := ih split
      exact ⟨⟨candidate,List.mem_cons_of_mem _ member,why⟩,_ :: before,balance,rfl,enough⟩
  | tried _ _ positive pays enough _ ih =>
    rcases earlier with _ | ⟨first,_ | ⟨second,others⟩⟩
    · simp at split
    · simp only [List.cons_append,List.nil_append,List.cons.injEq,Asked.liquidate.injEq] at split
      obtain ⟨rfl,⟨rfl,rfl,rfl⟩,_⟩ := split
      exact ⟨⟨_,List.mem_cons_self,rfl,rfl,positive,pays⟩,[],_,rfl,enough⟩
    · simp only [List.cons_append,List.cons.injEq] at split
      obtain ⟨rfl,rfl,split⟩ := split
      obtain ⟨⟨candidate,member,why⟩,before,balance,rfl,enough⟩ := ih split
      exact ⟨⟨candidate,List.mem_cons_of_mem _ member,why⟩,_ :: _ :: before,balance,rfl,enough⟩

/-- Each candidate is tried once at most, in their order. -/
theorem targets (trail : Trail config submitted candidates asked) :
    (asked.filterMap Asked.target).Sublist (candidates.map (fun candidate => candidate.tracked.key.user)) := by
  induction trail with
  | nothing | full => exact List.nil_sublist _
  | untold => exact List.nil_sublist _
  | passed _ _ ih => exact ih.cons _
  | short _ _ ih => exact ih.cons _
  | tried _ _ _ _ _ _ ih => exact ih.cons_cons _

/-- Where every balance is told and suffices and there is room in the end, each
    candidate that pays is tried. -/
theorem tries (trail : Trail config submitted candidates asked) (answered : .balance none ∉ asked)
    (room : submitted + accepted asked < config.max_liquidations_per_run) {candidate : HealthAssessment}
    (member : candidate ∈ candidates) (positive : 0 < liquidation_repay_amount candidate.tracked)
    (pays : config.min_profit_threshold ≤ candidate.expected_profit)
    (ample : ∀ balance, .balance (some balance) ∈ asked → liquidation_repay_amount candidate.tracked ≤ balance) :
    ∃ taken, .liquidate candidate.tracked.key.user (liquidation_repay_amount candidate.tracked) taken ∈ asked := by
  induction trail with
  | nothing => cases member
  | full full => omega
  | passed reason _ ih =>
    rcases List.mem_cons.mp member with rfl | later
    · omega
    · exact ih answered room later ample
  | untold => exact absurd List.mem_cons_self answered
  | short short _ ih =>
    rw [accepted,List.countP_cons_of_neg (by simp [Asked.taken])] at room
    rcases List.mem_cons.mp member with rfl | later
    · have enough := ample _ List.mem_cons_self
      omega
    · obtain ⟨taken,tried⟩ := ih (fun none => answered (List.mem_cons_of_mem _ none)) room later
        (fun balance told => ample balance (List.mem_cons_of_mem _ told))
      exact ⟨taken,List.mem_cons_of_mem _ tried⟩
  | tried taken _ _ _ _ _ ih =>
    rcases List.mem_cons.mp member with rfl | later
    · exact ⟨taken,List.mem_cons_of_mem _ List.mem_cons_self⟩
    · rw [accepted,List.countP_cons_of_neg (by simp [Asked.taken]),List.countP_cons] at room
      obtain ⟨again,tried⟩ := ih (fun none => answered (List.mem_cons_of_mem _ (List.mem_cons_of_mem _ none)))
        (by
          rw [accepted]
          cases taken <;> simp [Asked.taken] at room ⊢ <;> omega) later
        (fun balance told => ample balance (List.mem_cons_of_mem _ (List.mem_cons_of_mem _ told)))
      exact ⟨again,List.mem_cons_of_mem _ (List.mem_cons_of_mem _ tried)⟩

end Trail

end Trails

/-! ### Iterations -/

/-- What an iteration stops at. -/
inductive IterationError where
  | scan (e : ScanError)
  | evaluate
  | execute

/-- `run_iteration`: what it does to the scanner and to the world outside. -/
def run_iteration {C : Type} (config : Config) (rpc : Rpc) (readings : Readings) (submitting : Submitting C)
    (scanner_state : ScannerState) (c : C) : Except IterationError Nat × ScannerState × C :=
  match scan config rpc scanner_state with
  | (.error e, state) => (.error (.scan e), state, c)
  | (.ok _, state) =>
    match evaluate config readings state with
    | none => (.error .evaluate, state, c)
    | some candidates =>
      match execute config submitting candidates c with
      | (.error (), d) => (.error .execute, state, d)
      | (.ok (submitted, _), d) => (.ok submitted, state, d)

/-- What the network answers in one iteration, from the world as it is by then. -/
structure Turn (C : Type) where
  rpc : Rpc
  readings : Readings
  submitting : Submitting C
  world : C

/-- What comes of an iteration: its result, and what the executor asked in it. -/
structure Outcome where
  result : Except IterationError Nat
  asked : List Asked

/-- An iteration of the main loop, which goes on whatever the result is. -/
def iterate {C : Type} (config : Config) (scanner_state : ScannerState) (turn : Turn C) : Outcome × ScannerState :=
  let (result, state, d) := run_iteration config turn.rpc turn.readings (recording turn.submitting) scanner_state
    (turn.world, [])
  (⟨result,d.2⟩, state)

section Iterations
variable {C : Type} {config : Config} {s t : ScannerState} {turn : Turn C} {outcome : Outcome}

/-- An iteration leaves the scanner as its scan does. -/
theorem iterate_scans (s : ScannerState) (turn : Turn C) : (iterate config s turn).2 = (scan config turn.rpc s).2 := by
  unfold iterate run_iteration
  rcases scan config turn.rpc s with ⟨error | scanned,state⟩
  · rfl
  cases evaluated : evaluate config turn.readings state with
  | none => simp only [evaluated]
  | some candidates =>
    rcases ended : execute config (recording turn.submitting) candidates (turn.world,[]) with ⟨error | result,d⟩ <;>
      simp only [evaluated,ended]

/-- Without the record an iteration is `run_iteration`. -/
theorem iterate_recorded (ran : iterate config s turn = (outcome, t)) : ∃ d,
    run_iteration config turn.rpc turn.readings turn.submitting s turn.world = (outcome.result, t, d) := by
  unfold iterate at ran
  unfold run_iteration at ran ⊢
  rcases scanned : scan config turn.rpc s with ⟨error | updates,state⟩
  · rw [scanned] at ran
    cases ran
    exact ⟨_,rfl⟩
  rw [scanned] at ran
  cases evaluated : evaluate config turn.readings state with
  | none =>
    simp only [evaluated] at ran ⊢
    cases ran
    exact ⟨_,rfl⟩
  | some candidates =>
    simp only [evaluated] at ran ⊢
    have same : Simulates Prod.fst (execute config (recording turn.submitting) candidates)
        (execute config turn.submitting candidates) := .bind recording_simulates (fun _ => .pure)
    have plain := same (turn.world,[])
    rcases ended : execute config (recording turn.submitting) candidates (turn.world,[]) with ⟨error | result,d⟩
    · rw [ended] at plain ran
      rw [plain]
      cases ran
      exact ⟨_,rfl⟩
    · rw [ended] at plain ran
      rw [plain]
      cases ran
      exact ⟨_,rfl⟩

/-- What an iteration asks is the trail of its candidates, if it has any. -/
theorem iterate_trail (ran : iterate config s turn = (outcome, t)) :
    (outcome.asked = [] ∧ ∃ e, outcome.result = .error e) ∨
    ∃ candidates, evaluate config turn.readings t = some candidates ∧ Trail config 0 candidates outcome.asked ∧
      ∀ submitted, outcome.result = .ok submitted → .balance none ∉ outcome.asked ∧ submitted = accepted outcome.asked := by
  unfold iterate run_iteration at ran
  rcases scanned : scan config turn.rpc s with ⟨error | updates,state⟩
  · rw [scanned] at ran
    cases ran
    exact .inl ⟨rfl,_,rfl⟩
  rw [scanned] at ran
  cases evaluated : evaluate config turn.readings state with
  | none =>
    simp only [evaluated] at ran
    cases ran
    exact .inl ⟨rfl,_,rfl⟩
  | some candidates =>
    simp only [evaluated] at ran
    rcases loop : execute_from config (recording turn.submitting) 0 candidates (turn.world,[]) with ⟨error | attempts,d⟩
    · obtain ⟨asked,grown,trail,_⟩ := execute_from_trail loop
      have ended : execute config (recording turn.submitting) candidates (turn.world,[]) = (.error error, d) :=
        bind_of_error loop
      rw [ended] at ran
      cases ran
      rw [List.nil_append] at grown
      refine .inr ⟨candidates,evaluated,grown ▸ trail,?_⟩
      rintro submitted ⟨⟩
    · obtain ⟨asked,grown,trail,counts⟩ := execute_from_trail loop
      have ended : execute config (recording turn.submitting) candidates (turn.world,[]) =
          (.ok (attempts.countP (fun attempt => attempt.submitted),attempts), d) := bind_of_ok loop
      rw [ended] at ran
      cases ran
      rw [List.nil_append] at grown
      obtain ⟨answered,count⟩ := counts attempts rfl
      refine .inr ⟨candidates,evaluated,grown ▸ trail,?_⟩
      rintro submitted ⟨⟩
      exact ⟨grown ▸ answered,grown ▸ count⟩

/-- The reasons for a liquidation: the scanner fetched the position of the user at an
    event of the run, the user's health factor was read below one, and half of the
    debt that is known pays. -/
structure Reason (config : Config) (visited : List Visit) (index : List TrackedPosition) (readings : Readings)
    (tracked : TrackedPosition) (user : String) (repay_amount : Int) : Prop where
  watched : tracked ∈ index
  named : tracked.key.user = user
  fetched : ∃ r ∈ visited, FetchedAt config r user tracked.key.asset (some tracked.position)
  unhealthy : ∃ factor, readings.get_health_factor tracked.key config.vault_contract_id user = some factor ∧
    factor < HEALTH_FACTOR_ONE
  half : repay_amount = liquidation_repay_amount tracked
  positive : 0 < repay_amount
  pays : ∃ pool_config, readings.read_pool_config config.vault_contract_id = some pool_config ∧
    config.min_profit_threshold ≤ expected_profit repay_amount
      ((pool_config.map (fun cfg => cfg.liq_bonus)).getD DEFAULT_LIQUIDATION_BONUS_BPS)

theorem run_iterate (turns : List (Turn C)) (s : ScannerState) :
    run (iterate config) s turns = run (fun s rpc => scan config rpc s) s (turns.map Turn.rpc) := by
  induction turns generalizing s with
  | nil => rfl
  | cons turn turns ih =>
    rw [run,ih,iterate_scans]
    rfl

/-- Every entry of the index was fetched at an event of the run. -/
theorem index_fetched (config : Config) (polls : List Rpc) :
    ∀ tracked ∈ (run (fun s rpc => scan config rpc s) ScannerState.default polls).positions,
      ∃ r ∈ visits config ScannerState.default polls,
        FetchedAt config r tracked.key.user tracked.key.asset (some tracked.position) := by
  apply visits_history config ScannerState.default polls (fun visited index => ∀ tracked ∈ index, ∃ r ∈ visited,
    FetchedAt config r tracked.key.user tracked.key.asset (some tracked.position)) []
  · simp [ScannerState.default]
  · intro visited r member makes held
    have before : ∀ tracked ∈ r.before.positions, ∃ q ∈ visited ++ [r],
        FetchedAt config q tracked.key.user tracked.key.asset (some tracked.position) := by
      intro tracked stays
      obtain ⟨q,earlier,fetched⟩ := held tracked stays
      exact ⟨q,List.mem_append_left _ earlier,fetched⟩
    rcases visit_effect makes with ⟨user,asset,answer,fetched,index⟩ | ⟨_,same⟩
    · rw [index]
      cases answer with
      | none => exact fun tracked kept => before tracked (List.mem_filter.mp kept).1
      | some position =>
        refine List.forall_mem_append.mpr ⟨fun tracked kept => before tracked (List.mem_filter.mp kept).1,?_⟩
        exact List.forall_mem_singleton.mpr ⟨r,by simp,fetched⟩
    · rw [same]
      exact before

/-- What the evaluation keeps, and by which configuration of the vault it counts the
    profit. -/
theorem evaluate_kept {readings : Readings} {state : ScannerState} {results : List HealthAssessment}
    (evaluated : evaluate config readings state = some results) :
    ∃ pool_config, readings.read_pool_config config.vault_contract_id = some pool_config ∧ ∀ assessment ∈ results,
      ∃ tracked ∈ state.positions, assess config readings
        ((pool_config.map (fun cfg => cfg.liq_bonus)).getD DEFAULT_LIQUIDATION_BONUS_BPS) tracked =
          some (some assessment) := by
  simp only [evaluate,bind,Option.bind_eq_some_iff,Option.some.injEq] at evaluated
  obtain ⟨pool_config,configured,kept,assessed,rfl⟩ := evaluated
  exact ⟨pool_config,configured,fun assessment member =>
    ((assess_positions_some assessed).2 assessment).mp (List.mem_mergeSort.mp member)⟩

/-- Candidates from the least healthy on, as the vault was read. -/
structure Ranked (config : Config) (readings : Readings) (tried : List HealthAssessment) : Prop where
  sorted : tried.Pairwise (fun a b => a.health_factor ≤ b.health_factor)
  read : ∀ assessment ∈ tried, readings.get_health_factor assessment.tracked.key config.vault_contract_id
    assessment.tracked.key.user = some assessment.health_factor

/-- The least healthy come first. -/
theorem evaluate_sorted {readings : Readings} {state : ScannerState} {results : List HealthAssessment}
    (evaluated : evaluate config readings state = some results) :
    results.Pairwise (fun a b => a.health_factor ≤ b.health_factor) := by
  simp only [evaluate,bind,Option.bind_eq_some_iff,Option.some.injEq] at evaluated
  obtain ⟨pool_config,_,kept,_,rfl⟩ := evaluated
  have sorted : (kept.mergeSort (fun a b => decide (a.health_factor ≤ b.health_factor))).Pairwise
      (fun a b => decide (a.health_factor ≤ b.health_factor) = true) :=
    List.pairwise_mergeSort
      (fun a b c first second => decide_eq_true ((of_decide_eq_true first).trans (of_decide_eq_true second)))
      (fun a b => by simpa using le_total a.health_factor b.health_factor) kept
  exact sorted.imp (fun first => of_decide_eq_true first)

/-- Users that are tried in the order of the evaluation. -/
theorem evaluate_ranks {readings : Readings} {state : ScannerState} {results : List HealthAssessment} {users : List String}
    (evaluated : evaluate config readings state = some results)
    (ordered : users.Sublist (results.map (fun assessment => assessment.tracked.key.user))) :
    ∃ tried, Ranked config readings tried ∧ users = tried.map (fun assessment => assessment.tracked.key.user) := by
  obtain ⟨tried,part,named⟩ := List.sublist_map_iff.mp ordered
  refine ⟨tried,⟨(evaluate_sorted evaluated).sublist part,?_⟩,named⟩
  intro assessment member
  obtain ⟨_,_,kept⟩ := evaluate_kept evaluated
  obtain ⟨tracked,_,assessed⟩ := kept assessment (part.subset member)
  obtain ⟨factor,_,read,_,_,rfl⟩ := assess_some.mp assessed
  exact read

end Iterations

/-- In every run of the bot, whatever fails in it: an iteration does what
    `run_iteration` does, it submits no more liquidations than it may, it tries the
    least healthy users first, every liquidation that it tries has its reasons, and
    right before it the bot was told a balance that suffices for it. -/
theorem liquidations_justified {C : Type} (config : Config) (turns : List (Turn C))
    (past rest : List (Transition ScannerState (Turn C) Outcome)) (r : Transition ScannerState (Turn C) Outcome)
    (split : trace (iterate config) ScannerState.default turns = past ++ r :: rest) :
    (∃ d, run_iteration config r.input.rpc r.input.readings r.input.submitting r.before r.input.world =
      (r.output.result, r.after, d)) ∧
      accepted r.output.asked ≤ config.max_liquidations_per_run ∧
      (∃ tried, Ranked config r.input.readings tried ∧
        r.output.asked.filterMap Asked.target = tried.map (fun assessment => assessment.tracked.key.user)) ∧
      ∀ earlier later user repay_amount taken,
        r.output.asked = earlier ++ .liquidate user repay_amount taken :: later →
          (∃ tracked, Reason config (visits config ScannerState.default ((past ++ [r]).map (fun q => q.input.rpc)))
            r.after.positions r.input.readings tracked user repay_amount) ∧
          ∃ before balance, earlier = before ++ [.balance (some balance)] ∧ repay_amount ≤ balance := by
  have made := trace_split split
  have ran : iterate config r.before r.input = (r.output, r.after) := by
    rw [made]
    rfl
  have reached : r.after = run (fun s rpc => scan config rpc s) ScannerState.default
      ((past ++ [r]).map (fun q => q.input.rpc)) := by
    have start : r.before = run (iterate config) ScannerState.default (past.map (fun q => q.input)) :=
      congrArg Transition.before made
    have polls : past.map (fun q => q.input.rpc) = (past.map (fun q => q.input)).map Turn.rpc := by
      rw [List.map_map]
      rfl
    rw [List.map_append,run_append,polls,← run_iterate,← start]
    exact (congrArg Prod.snd ran).symm.trans (iterate_scans _ _)
  refine ⟨iterate_recorded ran,?_⟩
  rcases iterate_trail ran with ⟨nothing,_⟩ | ⟨candidates,evaluated,trail,_⟩
  · rw [nothing]
    refine ⟨Nat.zero_le _,⟨[],⟨.nil,by simp⟩,rfl⟩,?_⟩
    intro earlier later user repay_amount taken split
    simp at split
  refine ⟨by simpa using trail.within (Nat.zero_le _),evaluate_ranks evaluated trail.targets,?_⟩
  intro earlier later user repay_amount taken split
  obtain ⟨⟨candidate,member,named,half,positive,pays⟩,funds⟩ := trail.reasons split
  refine ⟨⟨candidate.tracked,?_⟩,funds⟩
  obtain ⟨pool_config,configured,kept⟩ := evaluate_kept evaluated
  obtain ⟨tracked,watched,assessed⟩ := kept candidate member
  obtain ⟨factor,oracle,read,low,_,rfl⟩ := assess_some.mp assessed
  subst named half
  rw [reached] at watched ⊢
  exact ⟨watched,rfl,index_fetched config _ tracked watched,⟨factor,read,low⟩,rfl,positive,pool_config,configured,pays⟩

namespace Small

/-- Thirteen years after the loan was taken. -/
def aged : Env := (Origin.signedBy Vault.Small.admin).env ⟨4,20 + 13 * 31536000⟩ Vault.Small.vault

/-- A client that reads the vault of the loan then. -/
def agedReadings : Readings where
  read_pool_config _ := some (some Vault.Small.config)
  get_health_factor _ _ user :=
    if user = spelling.text Vault.Small.userA then
      reply (Vault.get_health_factor Vault.Small.clients.apart aged Vault.Small.userA)
        ⟨(loanAt 4).state.own,Vault.Small.purse⟩
    else none
  last_price _ _ _ := some (10000000, 0)

/-- A network that takes every liquidation of a rich liquidator. -/
def paying : Submitting Unit := ⟨"liquidator",fun _ _ c => (some 1000000, c),fun _ _ _ c => (true, c)⟩

def loanTurns : List (Turn Unit) := loanPolls.map (fun poll => ⟨poll.rpc,agedReadings,paying,()⟩)

def lastTurn : Transition ScannerState (Turn Unit) Outcome :=
  transition (iterate config) (run (iterate config) ScannerState.default (loanTurns.take 1))
    ⟨(serving 4 4).rpc,agedReadings,paying,()⟩

theorem lastTurn_ended : lastTurn.output.result = .ok 1 := by
  have submitted : lastTurn.output.result.toOption = some 1 := by decide +kernel
  cases result : lastTurn.output.result with
  | error e =>
    rw [result] at submitted
    cases submitted
  | ok count =>
    rw [result] at submitted
    exact congrArg Except.ok (Option.some.inj submitted)

theorem aged_told (key : PositionKey) (contract : String) :
    agedReadings.get_health_factor key contract (spelling.text Vault.Small.userA) =
      reply (Vault.get_health_factor Vault.Small.clients.apart aged Vault.Small.userA)
        ⟨(loanAt 4).state.own,Vault.Small.purse⟩ := by
  simp only [agedReadings,↓reduceIte]

theorem lastTurn_asked : lastTurn.output.asked =
    [.balance (some 1000000),.liquidate (spelling.text Vault.Small.userA) 250000 true] := by decide +kernel

end Small

/-- The last iteration liquidates half of the debt, for its reasons. -/
theorem liquidations_justified_loan :
    accepted Small.lastTurn.output.asked ≤ 10 ∧
      ∃ tracked, Reason Small.config (visits Small.config ScannerState.default (Small.loanTurns.map Turn.rpc))
        Small.lastTurn.after.positions Small.agedReadings tracked (Small.spelling.text Vault.Small.userA) 250000 := by
  obtain ⟨_,within,_,reasons⟩ := liquidations_justified Small.config Small.loanTurns
    (trace (iterate Small.config) ScannerState.default (Small.loanTurns.take 1)) [] Small.lastTurn rfl
  obtain ⟨reason,_⟩ := reasons [.balance (some 1000000)] [] _ 250000 true Small.lastTurn_asked
  exact ⟨within,reason⟩

/-! ### What a bot that is up to date liquidates -/

section Targets
variable {config : Config} {readings : Readings} {state : ScannerState} {results : List HealthAssessment} {bonus : Nat}

theorem assess_positions_sublist {positions : List TrackedPosition}
    (assessed : assess_positions config readings bonus positions = some results) :
    (results.map (fun assessment => assessment.tracked)).Sublist positions := by
  induction positions generalizing results with
  | nil =>
    cases assessed
    exact List.nil_sublist _
  | cons tracked rest ih =>
    simp only [assess_positions,bind,Option.bind_eq_some_iff,Option.some.injEq] at assessed
    obtain ⟨kept,first,later,others,rfl⟩ := assessed
    cases kept with
    | none => exact (ih others).cons _
    | some assessment =>
      obtain ⟨_,_,_,_,_,rfl⟩ := assess_some.mp first
      exact (ih others).cons_cons _

/-- An index with one entry for a user has one candidate for a user. -/
theorem evaluate_single (evaluated : evaluate config readings state = some results)
    (single : state.positions.Pairwise (fun a b => a.key.user ≠ b.key.user)) :
    (results.map (fun assessment => assessment.tracked.key.user)).Nodup := by
  simp only [evaluate,bind,Option.bind_eq_some_iff,Option.some.injEq] at evaluated
  obtain ⟨pool_config,_,kept,assessed,rfl⟩ := evaluated
  have users : ((kept.map (fun assessment => assessment.tracked)).map (fun tracked => tracked.key.user)).Nodup :=
    List.pairwise_map.mpr (single.sublist (assess_positions_sublist assessed))
  rw [List.map_map] at users
  exact ((List.mergeSort_perm kept _).map _).nodup_iff.mpr users

/-- A watched position that reads as less healthy than one is a candidate. -/
theorem evaluate_finds {pool_config : Option PoolConfig} {tracked : TrackedPosition} {factor : Int}
    (evaluated : evaluate config readings state = some results)
    (configured : readings.read_pool_config config.vault_contract_id = some pool_config)
    (watched : tracked ∈ state.positions)
    (read : readings.get_health_factor tracked.key config.vault_contract_id tracked.key.user = some factor)
    (low : factor < HEALTH_FACTOR_ONE) : ∃ assessment ∈ results, assessment.tracked = tracked ∧
      assessment.expected_profit = expected_profit (liquidation_repay_amount tracked)
        ((pool_config.map (fun cfg => cfg.liq_bonus)).getD DEFAULT_LIQUIDATION_BONUS_BPS) := by
  simp only [evaluate,configured,bind,Option.bind_some,Option.bind_eq_some_iff,Option.some.injEq] at evaluated
  obtain ⟨kept,assessed,rfl⟩ := evaluated
  obtain ⟨through,keeps⟩ := assess_positions_some assessed
  obtain ⟨found,ran⟩ := through tracked watched
  have whole := ran
  simp only [assess,read,bind,Option.bind_some] at ran
  rw [if_neg (by omega),Option.bind_eq_some_iff] at ran
  obtain ⟨oracle,_,same⟩ := ran
  cases same
  exact ⟨_,List.mem_mergeSort.mpr ((keeps _).mpr ⟨tracked,watched,whole⟩),rfl,rfl⟩

end Targets

end Helix.Bot
