import Helix.Scanner

/-!
What the liquidation bot does with the positions it watches: `evaluate` keeps those
whose health factor is below one, the least healthy first, and `execute` submits a
liquidation of half of the debt for each that pays, as long as its run allows and
its funds last.
-/
namespace Helix.Bot
open Process
open Vault (PoolConfig)

def HEALTH_FACTOR_ONE : Int := 10000
def DEFAULT_LIQUIDATION_BONUS_BPS : Nat := 500

structure HealthAssessment where
  tracked : TrackedPosition
  health_factor : Int
  oracle_price : Int
  oracle_timestamp : Nat
  expected_profit : Int

/-- What the RPC client answers while the positions are evaluated, where it answers
    at all. The chain may move on from one position to the next. -/
structure Readings where
  read_pool_config : String → Option (Option PoolConfig)
  get_health_factor : PositionKey → String → String → Option Int
  last_price : PositionKey → String → String → Option (Int × Nat)

def saturating_mul (left right : Int) : Int := max i128Min (min i128Max (left * right))

def liquidation_repay_amount (tracked : TrackedPosition) : Int := tracked.position.borrowed_amount.tdiv 2

def expected_profit (repay_amount : Int) (liq_bonus_bps : Nat) : Int :=
  (saturating_mul repay_amount liq_bonus_bps).tdiv 10000

/-- The price of a watched asset, where the scanner learned which one it is. -/
def quote (config : Config) (rpc : Readings) (key : PositionKey) : Option (Int × Nat) :=
  if key.asset = PRIMARY_ASSET_PLACEHOLDER then some (0, 0)
  else rpc.last_price key config.oracle_contract_id key.asset

/-- The body of the loop over the positions: a healthy one is passed over. -/
def assess (config : Config) (rpc : Readings) (liquidation_bonus_bps : Nat) (tracked : TrackedPosition) :
    Option (Option HealthAssessment) := do
  let health_factor ← rpc.get_health_factor tracked.key config.vault_contract_id tracked.key.user
  if HEALTH_FACTOR_ONE ≤ health_factor then some none
  else do
    let oracle ← quote config rpc tracked.key
    let profit := expected_profit (liquidation_repay_amount tracked) liquidation_bonus_bps
    some (some ⟨tracked,health_factor,oracle.1,oracle.2,profit⟩)

/-- The loop over the positions. -/
def assess_positions (config : Config) (rpc : Readings) (liquidation_bonus_bps : Nat) :
    List TrackedPosition → Option (List HealthAssessment)
  | [] => some []
  | tracked :: rest => do
    let kept ← assess config rpc liquidation_bonus_bps tracked
    let results ← assess_positions config rpc liquidation_bonus_bps rest
    some (kept.toList ++ results)

def evaluate (config : Config) (rpc : Readings) (state : ScannerState) : Option (List HealthAssessment) := do
  let pool_config ← rpc.read_pool_config config.vault_contract_id
  let liquidation_bonus_bps := (pool_config.map (fun cfg => cfg.liq_bonus)).getD DEFAULT_LIQUIDATION_BONUS_BPS
  let results ← assess_positions config rpc liquidation_bonus_bps state.positions
  some (results.mergeSort (fun a b => decide (a.health_factor ≤ b.health_factor)))

section Evaluation
variable {config : Config} {rpc : Readings} {bonus : Nat} {tracked : TrackedPosition} {state : ScannerState}
  {assessment : HealthAssessment} {results : List HealthAssessment}

/-- What is kept of a position: it reads as less healthy than one. -/
theorem assess_some : assess config rpc bonus tracked = some (some assessment) ↔ ∃ factor oracle,
    rpc.get_health_factor tracked.key config.vault_contract_id tracked.key.user = some factor ∧
      factor < HEALTH_FACTOR_ONE ∧ quote config rpc tracked.key = some oracle ∧
      assessment = ⟨tracked,factor,oracle.1,oracle.2,expected_profit (liquidation_repay_amount tracked) bonus⟩ := by
  simp only [assess,bind,Option.bind_eq_some_iff]
  constructor
  · rintro ⟨factor,read,kept⟩
    by_cases healthy : HEALTH_FACTOR_ONE ≤ factor
    · simp [if_pos healthy] at kept
    · simp only [if_neg healthy,Option.bind_eq_some_iff,Option.some.injEq] at kept
      obtain ⟨oracle,quoted,rfl⟩ := kept
      exact ⟨factor,oracle,read,by omega,quoted,rfl⟩
  · rintro ⟨factor,oracle,read,low,quoted,rfl⟩
    refine ⟨factor,read,?_⟩
    rw [if_neg (by omega),Option.bind_eq_some_iff]
    exact ⟨oracle,quoted,rfl⟩

/-- An evaluation that goes through has read every position, and keeps what it keeps
    of each. -/
theorem assess_positions_some {positions : List TrackedPosition}
    (assessed : assess_positions config rpc bonus positions = some results) :
    (∀ tracked ∈ positions, ∃ kept, assess config rpc bonus tracked = some kept) ∧
      ∀ assessment, assessment ∈ results ↔
        ∃ tracked ∈ positions, assess config rpc bonus tracked = some (some assessment) := by
  induction positions generalizing results with
  | nil =>
    cases assessed
    simp
  | cons tracked rest ih =>
    simp only [assess_positions,bind,Option.bind_eq_some_iff,Option.some.injEq] at assessed
    obtain ⟨kept,first,later,others,rfl⟩ := assessed
    obtain ⟨read,keeps⟩ := ih others
    refine ⟨?_,?_⟩
    · rintro other member
      rcases List.mem_cons.mp member with rfl | member
      · exact ⟨kept,first⟩
      · exact read other member
    · intro assessment
      simp [keeps,first]

theorem evaluate_some (evaluated : evaluate config rpc state = some results) :
    ∃ bonus, (∀ tracked ∈ state.positions, ∃ kept, assess config rpc bonus tracked = some kept) ∧
      ∀ assessment, assessment ∈ results ↔
        ∃ tracked ∈ state.positions, assess config rpc bonus tracked = some (some assessment) := by
  simp only [evaluate,bind,Option.bind_eq_some_iff,Option.some.injEq] at evaluated
  obtain ⟨pool_config,_,kept,assessed,rfl⟩ := evaluated
  obtain ⟨read,keeps⟩ := assess_positions_some assessed
  exact ⟨_,read,fun assessment => List.mem_mergeSort.trans (keeps assessment)⟩

/-- The reads for a position succeed: its health factor, and its price if it is not
    passed over. -/
def Answers (config : Config) (rpc : Readings) (tracked : TrackedPosition) : Prop :=
  ∃ factor, rpc.get_health_factor tracked.key config.vault_contract_id tracked.key.user = some factor ∧
    (factor < HEALTH_FACTOR_ONE → (quote config rpc tracked.key).isSome)

/-- The body of the loop goes through exactly if its reads succeed. -/
theorem assess_answers : (∃ kept, assess config rpc bonus tracked = some kept) ↔ Answers config rpc tracked := by
  constructor
  · rintro ⟨kept,assessed⟩
    simp only [assess,bind,Option.bind_eq_some_iff] at assessed
    obtain ⟨factor,read,rest⟩ := assessed
    refine ⟨factor,read,?_⟩
    intro low
    rw [if_neg (by omega),Option.bind_eq_some_iff] at rest
    obtain ⟨oracle,quoted,_⟩ := rest
    rw [quoted]
    rfl
  · rintro ⟨factor,read,quoted⟩
    by_cases healthy : HEALTH_FACTOR_ONE ≤ factor
    · exact ⟨none,by simp [assess,read,healthy]⟩
    · obtain ⟨oracle,told⟩ := Option.isSome_iff_exists.mp (quoted (by omega))
      exact ⟨some _,assess_some.mpr ⟨factor,oracle,read,by omega,told,rfl⟩⟩

/-- The loop goes through where it does for each position. -/
theorem assess_positions_returns {positions : List TrackedPosition}
    (reads : ∀ tracked ∈ positions, Answers config rpc tracked) :
    ∃ results, assess_positions config rpc bonus positions = some results := by
  induction positions with
  | nil => exact ⟨[],rfl⟩
  | cons tracked rest ih =>
    obtain ⟨results,others⟩ := ih (fun other member => reads other (List.mem_cons_of_mem _ member))
    have assessed : ∃ kept, assess config rpc bonus tracked = some kept := assess_answers.mpr (reads tracked List.mem_cons_self)
    obtain ⟨kept,first⟩ := assessed
    exact ⟨kept.toList ++ results,by simp [assess_positions,first,others]⟩

/-- An evaluation gives a result exactly if every read of its loop succeeds. -/
theorem evaluate_answers {pool_config : Option PoolConfig}
    (configured : rpc.read_pool_config config.vault_contract_id = some pool_config) :
    (∃ results, evaluate config rpc state = some results) ↔ ∀ tracked ∈ state.positions, Answers config rpc tracked := by
  constructor
  · rintro ⟨results,evaluated⟩ tracked member
    obtain ⟨bonus,read,_⟩ := evaluate_some evaluated
    exact assess_answers.mp (read tracked member)
  · intro reads
    have through : ∀ bonus, ∃ results, assess_positions config rpc bonus state.positions = some results :=
      fun _ => assess_positions_returns reads
    obtain ⟨results,positions⟩ :=
      through ((pool_config.map (fun cfg => cfg.liq_bonus)).getD DEFAULT_LIQUIDATION_BONUS_BPS)
    refine ⟨results.mergeSort (fun a b => decide (a.health_factor ≤ b.health_factor)),?_⟩
    simp only [evaluate,configured,positions,bind,Option.bind_some]

theorem evaluate_returns {pool_config : Option PoolConfig}
    (configured : rpc.read_pool_config config.vault_contract_id = some pool_config)
    (factors : ∀ tracked ∈ state.positions,
      ∃ factor, rpc.get_health_factor tracked.key config.vault_contract_id tracked.key.user = some factor)
    (quotes : ∀ tracked ∈ state.positions, ∃ oracle, quote config rpc tracked.key = some oracle) :
    ∃ results, evaluate config rpc state = some results := by
  refine (evaluate_answers configured).mpr (fun tracked member => ?_)
  obtain ⟨factor,read⟩ := factors tracked member
  obtain ⟨oracle,quoted⟩ := quotes tracked member
  exact ⟨factor,read,fun _ => by rw [quoted]; rfl⟩

/-- A user whose positions all read as one factor is kept exactly if it is below one. -/
theorem evaluate_keeps_iff {user : String} {factor : Int} (evaluated : evaluate config rpc state = some results)
    (watched : ∃ tracked ∈ state.positions, tracked.key.user = user)
    (read : ∀ tracked ∈ state.positions, tracked.key.user = user →
      rpc.get_health_factor tracked.key config.vault_contract_id user = some factor) :
    (∃ assessment ∈ results, assessment.tracked.key.user = user) ↔ factor < HEALTH_FACTOR_ONE := by
  obtain ⟨bonus,through,keeps⟩ := evaluate_some evaluated
  constructor
  · rintro ⟨assessment,member,rfl⟩
    obtain ⟨tracked,position,assessed⟩ := (keeps assessment).mp member
    obtain ⟨factor',oracle,read',low,_,rfl⟩ := assess_some.mp assessed
    rw [read tracked position rfl] at read'
    cases read'
    exact low
  · intro low
    obtain ⟨tracked,position,rfl⟩ := watched
    obtain ⟨kept,assessed⟩ := through tracked position
    have ran := assessed
    simp only [assess,read tracked position rfl,bind,Option.bind_some] at ran
    rw [if_neg (by omega),Option.bind_eq_some_iff] at ran
    obtain ⟨oracle,_,same⟩ := ran
    cases same
    exact ⟨_,(keeps _).mpr ⟨tracked,position,assessed⟩,rfl⟩

/-! ### A position that cannot be read -/

/-- A watched user all of whose own reads succeed and tell a health factor below one. -/
structure Readable (config : Config) (rpc : Readings) (state : ScannerState) (user : String) : Prop where
  watched : ∃ tracked ∈ state.positions, tracked.key.user = user
  answered : ∀ tracked ∈ state.positions, tracked.key.user = user → ∃ factor oracle,
    rpc.get_health_factor tracked.key config.vault_contract_id user = some factor ∧ factor < HEALTH_FACTOR_ONE ∧
      quote config rpc tracked.key = some oracle

/-- Whatever happens to the others, the evaluation gives each such user's positions. -/
def Isolates (config : Config) (rpc : Readings) (state : ScannerState) : Prop :=
  ∀ user, Readable config rpc state user → ∃ results, evaluate config rpc state = some results ∧
    ∀ tracked ∈ state.positions, tracked.key.user = user → ∃ assessment ∈ results, assessment.tracked = tracked ∧
      rpc.get_health_factor tracked.key config.vault_contract_id user = some assessment.health_factor

/-- One failed read hides every user: the evaluation is isolated only where none
    fails, or where there is nobody to hide. -/
theorem evaluate_isolates_iff {pool_config : Option PoolConfig}
    (configured : rpc.read_pool_config config.vault_contract_id = some pool_config) :
    Isolates config rpc state ↔
      (∀ tracked ∈ state.positions, Answers config rpc tracked) ∨ ∀ user, ¬ Readable config rpc state user := by
  constructor
  · intro isolates
    by_cases nobody : ∀ user, ¬ Readable config rpc state user
    · exact .inr nobody
    · obtain ⟨user,hidden⟩ := not_forall.mp nobody
      obtain ⟨results,evaluated,_⟩ := isolates user (not_not.mp hidden)
      exact .inl ((evaluate_answers configured).mp ⟨results,evaluated⟩)
  · rintro (reads | nobody) user readable
    · obtain ⟨results,evaluated⟩ := (evaluate_answers configured).mpr reads
      obtain ⟨bonus,_,keeps⟩ := evaluate_some evaluated
      refine ⟨results,evaluated,?_⟩
      rintro tracked member rfl
      obtain ⟨factor,oracle,read,low,quoted⟩ := readable.answered tracked member rfl
      have kept : assess config rpc bonus tracked = some (some _) := assess_some.mpr ⟨factor,oracle,read,low,quoted,rfl⟩
      exact ⟨_,(keeps _).mpr ⟨tracked,member,kept⟩,rfl,read⟩
    · exact absurd readable (nobody user)

end Evaluation

namespace Small

def settings : Config := ⟨"vault","oracle","token",none,0,10⟩

/-- Two users with a position each. -/
def watching : ScannerState :=
  { ScannerState.default with
    positions := [⟨⟨"first","asset"⟩,⟨100,50,0⟩,5⟩,⟨⟨"second","asset"⟩,⟨100,80,0⟩,6⟩] }

/-- A client that knows the health factor of the first user, or does not, and the
    second user's, which is below one. -/
def telling (first : Option Int) : Readings where
  read_pool_config _ := some none
  get_health_factor _ _ user := if user = "first" then first else some 9000
  last_price _ _ _ := some (10000000, 0)

end Small

/-- The first user's position was closed, and the second user's is not told. -/
theorem closed_position_hides :
    Readable Small.settings (Small.telling none) Small.watching "second" ∧
      evaluate Small.settings (Small.telling none) Small.watching = none ∧
      ¬ Isolates Small.settings (Small.telling none) Small.watching := by
  have second : Readable Small.settings (Small.telling none) Small.watching "second" := by
    refine ⟨⟨⟨⟨"second","asset"⟩,⟨100,80,0⟩,6⟩,by decide,rfl⟩,?_⟩
    intro tracked member own
    refine ⟨9000,(10000000, 0),by simp [Small.telling],by decide,?_⟩
    simp only [Small.watching,List.mem_cons,List.not_mem_nil,or_false] at member
    rcases member with rfl | rfl
    · rfl
    · rfl
  have hidden : evaluate Small.settings (Small.telling none) Small.watching = none := rfl
  refine ⟨second,hidden,?_⟩
  intro isolates
  obtain ⟨results,evaluated,_⟩ := isolates "second" second
  rw [hidden] at evaluated
  cases evaluated

theorem evaluate_isolates_iff_answering :
    Isolates Small.settings (Small.telling (some 20000)) Small.watching := by
  have configured : (Small.telling (some 20000)).read_pool_config Small.settings.vault_contract_id = some none := rfl
  refine (evaluate_isolates_iff configured).mpr (.inl ?_)
  intro tracked member
  simp only [Small.watching,List.mem_cons,List.not_mem_nil,or_false] at member
  rcases member with rfl | rfl
  · exact ⟨20000,rfl,fun _ => rfl⟩
  · exact ⟨9000,rfl,fun _ => rfl⟩

/-! ### Submitting -/

/-- What the RPC client does while the candidates are worked off, each time with the
    chain as it is by then: the balance of an address, where it is told, and whether
    a liquidation was submitted. -/
structure Submitting (C : Type) where
  liquidator_public_key : String
  token_balance : String → String → C → Option Int × C
  liquidate : Config → String → Int → C → Bool × C

/-- A liquidation that was tried. -/
structure Attempt where
  candidate : HealthAssessment
  repay_amount : Int
  submitted : Bool

/-- The balance of the liquidator, or the run stops. -/
def liquidator_balance {C : Type} (config : Config) (rpc : Submitting C) : Process C Unit Int := fun c =>
  match rpc.token_balance config.token_contract_id rpc.liquidator_public_key c with
  | (some balance, c') => (.ok balance, c')
  | (none, c') => (.error (), c')

def submit {C : Type} (config : Config) (rpc : Submitting C) (candidate : HealthAssessment) (repay_amount : Int) :
    Process C Unit Attempt := fun c =>
  let (submitted, c') := rpc.liquidate config candidate.tracked.key.user repay_amount c
  (.ok ⟨candidate,repay_amount,submitted⟩, c')

/-- The loop over the candidates, with the liquidations submitted so far. -/
def execute_from {C : Type} (config : Config) (rpc : Submitting C) :
    Nat → List HealthAssessment → Process C Unit (List Attempt)
  | _, [] => pure []
  | submitted, candidate :: rest =>
    let repay_amount := candidate.tracked.position.borrowed_amount.tdiv 2
    if config.max_liquidations_per_run ≤ submitted then pure []
    else if repay_amount ≤ 0 then execute_from config rpc submitted rest
    else if candidate.expected_profit < config.min_profit_threshold then execute_from config rpc submitted rest
    else do
      let balance ← liquidator_balance config rpc
      if balance < repay_amount then execute_from config rpc submitted rest
      else do
        let attempt ← submit config rpc candidate repay_amount
        let later ← execute_from config rpc (if attempt.submitted then submitted + 1 else submitted) rest
        pure (attempt :: later)

/-- A run over the candidates. It gives the number submitted, and here also what it
    tried. -/
def execute {C : Type} (config : Config) (rpc : Submitting C) (candidates : List HealthAssessment) :
    Process C Unit (Nat × List Attempt) := do
  let attempts ← execute_from config rpc 0 candidates
  pure (attempts.countP (fun attempt => attempt.submitted),attempts)

end Helix.Bot
