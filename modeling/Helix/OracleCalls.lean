import Helix.Oracle

/-!
What the calls of an oracle adaptor do: which decimals it scales to, what it takes
from each source, when the two agree on a price, and what a price leaves in the
average (`Effect`, `effect_of_call`).
-/
namespace Helix.Oracle
open Invoke

/-! ### What is asked of other contracts -/

section Asks
variable {W : Type} (peers : Peers W) (env : Env)

/-- The decimals of the first source that tells any. -/
inductive Target (v : HelixOracleAdaptor) (asset : Address) : Nat → W → W → Prop
  | primary (decimals : Nat) (w w' : W) :
      peers.decimals (env.calling v.primary_oracle) asset w = (some decimals, w') → Target v asset decimals w w'
  | secondary (decimals : Nat) (w mid w' : W) : peers.decimals (env.calling v.primary_oracle) asset w = (none, mid) →
      peers.decimals (env.calling v.secondary_oracle) asset mid = (some decimals, w') → Target v asset decimals w w'

/-- What is taken from a source: nothing where it does not answer or answers a
    price that is not positive or not fresh, and else its price, scaled. -/
inductive Observed (staleness : Nat) (oracle asset : Address) (target : Nat) (source : Source) :
    Option PriceData → W → W → Prop
  | silent (w w' : W) : peers.decimals (env.calling oracle) asset w = (none, w') →
      Observed staleness oracle asset target source none w w'
  | priceless (decimals : Nat) (w mid w' : W) : peers.decimals (env.calling oracle) asset w = (some decimals, mid) →
      peers.lastprice (env.calling oracle) asset mid = (none, w') → Observed staleness oracle asset target source none w w'
  | unusable (decimals : Nat) (raw : Int × Nat) (w mid w' : W) :
      peers.decimals (env.calling oracle) asset w = (some decimals, mid) →
      peers.lastprice (env.calling oracle) asset mid = (some raw, w') → (raw.1 ≤ 0 ∨ staleness < env.timestamp - raw.2) →
      Observed staleness oracle asset target source none w w'
  | usable (decimals : Nat) (raw : Int × Nat) (price : Int) (w mid w' : W) :
      peers.decimals (env.calling oracle) asset w = (some decimals, mid) →
      peers.lastprice (env.calling oracle) asset mid = (some raw, w') → 0 < raw.1 → env.timestamp - raw.2 ≤ staleness →
      scaled raw.1 decimals target = some price →
      Observed staleness oracle asset target source (some ⟨price,raw.2,source⟩) w w'

end Asks

/-- Whether two prices differ by more than a threshold of the smaller one. -/
inductive Deviates (threshold : Nat) (left right : Int) : Bool → Prop
  | baseless : Fits (max left right - min left right) → min left right ≤ 0 → Deviates threshold left right true
  | ratio : Fits (max left right - min left right) → 0 < min left right →
      Fits ((max left right - min left right) * BPS_DENOMINATOR) →
      Deviates threshold left right
        (decide (((max left right - min left right) * BPS_DENOMINATOR).tdiv (min left right) > threshold))

/-- The price that is made of what the sources say. -/
inductive Agreed (threshold : Nat) : Option PriceData → Option PriceData → PriceData → Prop
  | both (primary secondary : PriceData) : Deviates threshold primary.price secondary.price false →
      Fits (primary.price + secondary.price) → Agreed threshold (some primary) (some secondary)
        ⟨(primary.price + secondary.price).tdiv 2,min primary.timestamp secondary.timestamp,.blended⟩
  | primary (price : PriceData) : Agreed threshold (some price) none price
  | secondary (price : PriceData) : Agreed threshold none (some price) price

/-- The state of an average after another price. -/
inductive Next (now window : Nat) (state : TWAPData) (price : Int) : TWAPData → Prop
  | reset : (state.num_samples = 0 ∨ window ≤ now - state.window_start) → Next now window state price ⟨price,1,now⟩
  | sample : ¬ (state.num_samples = 0 ∨ window ≤ now - state.window_start) → Fits (state.cumulative_price + price) →
      Next now window state price
        ⟨state.cumulative_price + price,if state.num_samples < u32Max then state.num_samples + 1 else u32Max,
          state.window_start⟩

namespace HelixOracleAdaptor
variable (v : HelixOracleAdaptor) (env : Env) (asset : Address)

/-- The average that a call sees, or an empty one. -/
def twap : TWAPData := (Lease.read env.sequence (v.twap_state asset)).getD ⟨0,0,env.timestamp⟩

/-- The adaptor after a price is recorded. -/
def recorded (price : PriceData) (state : TWAPData) : HelixOracleAdaptor :=
  { v with
    cached_price := fun a => if a = asset then some (renewed env (v.cached_price a) price) else v.cached_price a
    twap_state := fun a => if a = asset then some (renewed env (v.twap_state a) state) else v.twap_state a }

def configured (primary secondary : Address) (twap_window staleness deviation : Nat) : HelixOracleAdaptor :=
  { v with
    primary_oracle := primary
    secondary_oracle := secondary
    twap_window := twap_window
    staleness_threshold := staleness
    deviation_threshold := deviation }

end HelixOracleAdaptor

@[simp] theorem renewed_value {α : Type} (env : Env) (entry : Option (Lease α)) (value : α) :
    (renewed env entry value).value = value := by
  simp [renewed]

/-- Two entries that live equally long still do after both are written over. -/
theorem renewed_lives {α β : Type} {env : Env} {left : Option (Lease α)} {right : Option (Lease β)} {a : α} {b : β}
    (lives : left.map Lease.live_until = right.map Lease.live_until) :
    (renewed env left a).live_until = (renewed env right b).live_until :=
  Lease.extend_ttl_lives (Lease.set_lives lives)

section Effects
variable {W : Type} (peers : Peers W) (env : Env)

/-- What the sources say in an update: the common decimals and what is taken from
    each of them. -/
structure Surveyed (s : World HelixOracleAdaptor W) (asset : Address) (target : Nat) (primary secondary : Option PriceData)
    (w : W) : Prop where
  steps : ∃ first second, Target peers env s.own asset target s.rest first ∧
    Observed peers env s.own.staleness_threshold s.own.primary_oracle asset target .primary primary first second ∧
    Observed peers env s.own.staleness_threshold s.own.secondary_oracle asset target .secondary secondary second w

/-- What a successful call does to the adaptor and to the contracts it calls. -/
inductive Effect (s : World HelixOracleAdaptor W) : Entry → Option OracleEvent → World HelixOracleAdaptor W → Prop
  | safe_mode (asset : Address) (target : Nat) (primary secondary : PriceData) (w w' : W) :
      Surveyed peers env s asset target (some primary) (some secondary) w →
      Deviates s.own.deviation_threshold primary.price secondary.price true →
      peers.pause_by (env.calling s.own.vault_callback) env.current_contract_address w = some ((), w') →
      Effect s (.update_price asset) (some (.safe_mode asset primary.price secondary.price)) ⟨s.own,w'⟩
  | update_price (asset : Address) (target : Nat) (primary secondary : Option PriceData) (price : PriceData)
      (state : TWAPData) (w : W) : Surveyed peers env s asset target primary secondary w →
      Agreed s.own.deviation_threshold primary secondary price →
      Next env.timestamp s.own.twap_window (s.own.twap env asset) price.price state →
      Effect s (.update_price asset)
        (some (.price_update asset price.price price.timestamp price.source state.num_samples))
        ⟨s.own.recorded env asset price state,w⟩
  | set_safe_mode (enabled : Bool) (w : W) : env.Authorised s.own.admin →
      (if enabled = true then peers.pause_by (env.calling s.own.vault_callback) env.current_contract_address s.rest
        else peers.unpause_by (env.calling s.own.vault_callback) env.current_contract_address s.rest) = some ((), w) →
      Effect s (.set_safe_mode enabled) none ⟨s.own,w⟩
  | configure (primary secondary : Address) (twap_window staleness deviation : Nat) : env.Authorised s.own.admin →
      Effect s (.configure primary secondary twap_window staleness deviation)
        (some (.configure primary secondary twap_window staleness deviation))
        ⟨s.own.configured primary secondary twap_window staleness deviation,s.rest⟩

end Effects

section Rules
variable {W : Type} {peers : Peers W} {env : Env} {s : World HelixOracleAdaptor W}

theorem canonical_decimals_ok {asset : Address} {r : Nat × World HelixOracleAdaptor W} :
    canonical_decimals peers env s.own.primary_oracle s.own.secondary_oracle asset s = .ok r ↔
      ∃ w, Target peers env s.own asset r.1 s.rest w ∧ r.2 = { s with rest := w } := by
  obtain ⟨target,t⟩ := r
  simp only [canonical_decimals,try_oracle_decimals,bind_ok,tryOut_ok,exists_eq_left]
  cases first : peers.decimals (env.calling s.own.primary_oracle) asset s.rest with
  | mk answer mid =>
    cases answer with
    | some decimals =>
      simp only [pure_ok,Prod.mk.injEq]
      constructor
      · rintro ⟨rfl,rfl⟩
        exact ⟨mid,.primary _ _ _ first,rfl⟩
      · rintro ⟨w,target,rfl⟩
        cases target with
        | primary _ answered =>
          rw [first] at answered
          cases answered
          exact ⟨rfl,rfl⟩
        | secondary _ _ silent _ =>
          rw [first] at silent
          cases silent
    | none =>
      simp only [bind_ok,tryOut_ok,need_ok,exists_eq_left]
      constructor
      · rintro ⟨answered,rfl⟩
        exact ⟨_,.secondary _ _ mid _ first (Prod.ext answered rfl),rfl⟩
      · rintro ⟨w,target,rfl⟩
        cases target with
        | primary _ answered =>
          rw [first] at answered
          cases answered
        | secondary _ _ silent answered =>
          rw [first] at silent
          cases silent
          rw [answered]
          exact ⟨rfl,rfl⟩

theorem observe_ok {raw : Int × Nat} {decimals target : Nat} {source : Source}
    {r : Option PriceData × World HelixOracleAdaptor W} :
    (observe env raw decimals target source : Contract W _) s = .ok r ↔ r.2 = s ∧
      ((r.1 = none ∧ (raw.1 ≤ 0 ∨ s.own.staleness_threshold < env.timestamp - raw.2)) ∨
        ∃ price, r.1 = some ⟨price,raw.2,source⟩ ∧ 0 < raw.1 ∧ env.timestamp - raw.2 ≤ s.own.staleness_threshold ∧
          scaled raw.1 decimals target = some price) := by
  obtain ⟨observation,t⟩ := r
  unfold observe
  by_cases positive : raw.1 ≤ 0
  · simp only [positive,if_true,pure_ok,Prod.mk.injEq,true_or,and_true,not_lt.mpr positive,false_and,and_false,
      exists_false,or_false]
    exact and_comm
  · simp only [positive,if_false,bind_ok,load_ok,exists_eq_left,false_or,not_le.mp positive,true_and]
    by_cases stale : env.timestamp - raw.2 > s.own.staleness_threshold
    · simp only [stale,if_true,pure_ok,Prod.mk.injEq,and_true,not_le.mpr stale,false_and,and_false,exists_false,or_false]
      exact and_comm
    · simp only [stale,if_false,bind_ok,scale_price,need_ok,pure_ok,Prod.exists,Prod.mk.injEq,and_false,false_or,
        not_lt.mp stale,true_and]
      constructor
      · rintro ⟨price,_,⟨fits,rfl⟩,rfl,rfl⟩
        exact ⟨rfl,price,rfl,fits⟩
      · rintro ⟨rfl,price,rfl,fits⟩
        exact ⟨price,_,⟨fits,rfl⟩,rfl,rfl⟩

theorem fetch_observation_ok {oracle asset : Address} {target : Nat} {source : Source}
    {r : Option PriceData × World HelixOracleAdaptor W}
    (done : fetch_observation peers env oracle asset target source s = .ok r) :
    ∃ w, Observed peers env s.own.staleness_threshold oracle asset target source r.1 s.rest w ∧
      r.2 = { s with rest := w } := by
  simp only [fetch_observation,try_oracle_decimals,bind_ok,tryOut_ok,exists_eq_left] at done
  cases asked : peers.decimals (env.calling oracle) asset s.rest with
  | mk answer mid =>
    rw [asked] at done
    cases answer with
    | none =>
      simp only [pure_ok] at done
      subst done
      exact ⟨mid,.silent _ _ asked,rfl⟩
    | some decimals =>
      simp only [try_oracle_lastprice,bind_ok,tryOut_ok,exists_eq_left] at done
      cases told : peers.lastprice (env.calling oracle) asset mid with
      | mk last w =>
        rw [told] at done
        cases last with
        | none =>
          simp only [pure_ok] at done
          subst done
          exact ⟨w,.priceless decimals _ mid _ asked told,rfl⟩
        | some raw =>
          obtain ⟨observation,t⟩ := r
          obtain ⟨rfl,⟨rfl,unusable⟩ | ⟨price,rfl,positive,current,fits⟩⟩ := observe_ok.mp done
          · exact ⟨w,.unusable decimals raw _ mid _ asked told unusable,rfl⟩
          · exact ⟨w,.usable decimals raw price _ mid _ asked told positive current fits,rfl⟩

/-- Conversely, what is taken from a source is fetched. -/
theorem Observed.fetched {v : HelixOracleAdaptor} {oracle asset : Address} {target : Nat} {source : Source}
    {observation : Option PriceData} {w w' : W}
    (observed : Observed peers env v.staleness_threshold oracle asset target source observation w w') :
    fetch_observation peers env oracle asset target source ⟨v,w⟩ = .ok (observation,⟨v,w'⟩) := by
  simp only [fetch_observation,try_oracle_decimals,try_oracle_lastprice,bind_ok,tryOut_ok,exists_eq_left]
  cases observed with
  | silent _ _ silent => simp only [silent,pure_ok]
  | priceless decimals _ mid _ asked priceless =>
    simp only [asked,bind_ok,tryOut_ok,exists_eq_left,priceless,pure_ok]
  | unusable decimals raw _ mid _ asked quote unusable =>
    simp only [asked,bind_ok,tryOut_ok,exists_eq_left,quote]
    exact observe_ok.mpr ⟨rfl,.inl ⟨rfl,unusable⟩⟩
  | usable decimals raw price _ mid _ asked quote positive current scales =>
    simp only [asked,bind_ok,tryOut_ok,exists_eq_left,quote]
    exact observe_ok.mpr ⟨rfl,.inr ⟨_,rfl,positive,current,scales⟩⟩

theorem deviation_exceeded_ok {left right : Int} {r : Bool × World HelixOracleAdaptor W} :
    deviation_exceeded left right s = .ok r ↔ Deviates s.own.deviation_threshold left right r.1 ∧ r.2 = s := by
  obtain ⟨exceeded,t⟩ := r
  have difference : (if left ≥ right then Checked.sub left right else Checked.sub right left) =
      Checked.sub (max left right) (min left right) := by
    split
    · rename_i above
      rw [max_eq_left above,min_eq_right above]
    · rename_i below
      rw [max_eq_right (by omega),min_eq_left (by omega)]
  have baseline : (if left ≤ right then left else right) = min left right := by
    split
    · rename_i below
      rw [min_eq_left below]
    · rename_i above
      rw [min_eq_right (by omega)]
  simp only [deviation_exceeded,difference,baseline,bind_ok,need_ok,Checked.sub_some,Prod.exists]
  by_cases baseless : min left right ≤ 0
  · simp only [baseless,if_true,pure_ok,Prod.mk.injEq]
    constructor
    · rintro ⟨_,_,⟨⟨fits,_⟩,rfl⟩,rfl,rfl⟩
      exact ⟨.baseless fits baseless,rfl⟩
    · rintro ⟨deviates,rfl⟩
      cases deviates with
      | baseless fits => exact ⟨_,_,⟨⟨fits,rfl⟩,rfl⟩,rfl,rfl⟩
      | ratio fits positive => exact absurd baseless (not_le.mpr positive)
  · simp only [baseless,if_false,checked_mul,bind_ok,need_ok,Checked.mul_some,load_ok,pure_ok,Prod.exists,Prod.mk.injEq]
    constructor
    · rintro ⟨_,_,⟨⟨fits,rfl⟩,rfl⟩,_,_,⟨⟨product,rfl⟩,rfl⟩,_,_,⟨rfl,rfl⟩,rfl,rfl⟩
      exact ⟨.ratio fits (not_le.mp baseless) product,rfl⟩
    · rintro ⟨deviates,rfl⟩
      cases deviates with
      | baseless fits below => exact absurd below baseless
      | ratio fits positive product =>
        exact ⟨_,_,⟨⟨fits,rfl⟩,rfl⟩,_,_,⟨⟨product,rfl⟩,rfl⟩,_,_,⟨rfl,rfl⟩,rfl,rfl⟩

theorem next_state_ok {now window : Nat} {state : TWAPData} {price : Int} {r : TWAPData × World HelixOracleAdaptor W} :
    next_state now window state price s = .ok r ↔ Next now window state price r.1 ∧ r.2 = s := by
  obtain ⟨after,t⟩ := r
  unfold next_state
  by_cases ended : state.num_samples = 0 ∨ window ≤ now - state.window_start
  · simp only [if_pos ended,pure_ok,Prod.mk.injEq]
    constructor
    · rintro ⟨rfl,rfl⟩
      exact ⟨.reset ended,rfl⟩
    · rintro ⟨next,rfl⟩
      cases next with
      | reset => exact ⟨rfl,rfl⟩
      | sample running => exact absurd ended running
  · simp only [if_neg ended,checked_add,bind_ok,need_ok,Checked.add_some,pure_ok,Prod.exists,Prod.mk.injEq]
    constructor
    · rintro ⟨_,_,⟨⟨fits,rfl⟩,rfl⟩,rfl,rfl⟩
      exact ⟨.sample ended fits,rfl⟩
    · rintro ⟨next,rfl⟩
      cases next with
      | reset first => exact absurd first ended
      | sample _ fits => exact ⟨_,_,⟨⟨fits,rfl⟩,rfl⟩,rfl,rfl⟩

theorem record_price_ok {asset : Address} {price : PriceData} {r : Option OracleEvent × World HelixOracleAdaptor W} :
    record_price env asset price s = .ok r ↔
      ∃ state, Next env.timestamp s.own.twap_window (s.own.twap env asset) price.price state ∧
        r = (some (.price_update asset price.price price.timestamp price.source state.num_samples),
          { s with own := s.own.recorded env asset price state }) := by
  simp only [record_price,read_twap_state,bind_ok,load_ok,next_state_ok,write_cached_price,write_twap_state,save_ok,
    pure_ok,Prod.exists,exists_eq_left,and_assoc,exists_and_left]
  rfl

/-- The sources agree and the price is recorded, or they deviate and the vault is
    paused. -/
theorem settle_price_cases {asset : Address} {primary secondary : Option PriceData}
    {r : Option OracleEvent × World HelixOracleAdaptor W}
    (done : settle_price peers env asset primary secondary s = .ok r) :
    (∃ price state, Agreed s.own.deviation_threshold primary secondary price ∧
        Next env.timestamp s.own.twap_window (s.own.twap env asset) price.price state ∧
        r = (some (.price_update asset price.price price.timestamp price.source state.num_samples),
          { s with own := s.own.recorded env asset price state })) ∨
      ∃ left right w, primary = some left ∧ secondary = some right ∧
        Deviates s.own.deviation_threshold left.price right.price true ∧
        peers.pause_by (env.calling s.own.vault_callback) env.current_contract_address s.rest = some ((), w) ∧
        r = (some (.safe_mode asset left.price right.price), { s with rest := w }) := by
  cases primary with
  | none =>
    cases secondary with
    | none => simp [settle_price] at done
    | some right =>
      obtain ⟨state,next,rfl⟩ := record_price_ok.mp done
      exact .inl ⟨right,state,.secondary right,next,rfl⟩
  | some left =>
    cases secondary with
    | none =>
      obtain ⟨state,next,rfl⟩ := record_price_ok.mp done
      exact .inl ⟨left,state,.primary left,next,rfl⟩
    | some right =>
      simp only [settle_price,bind_ok,deviation_exceeded_ok,Prod.exists] at done
      obtain ⟨exceeded,_,⟨deviates,rfl⟩,ran⟩ := done
      cases exceeded with
      | true =>
        simp only [if_true,set_safe_mode_internal,bind_ok,load_ok,callOut_ok,pure_ok,Prod.exists,exists_eq_left] at ran
        obtain ⟨_,_,⟨w,paused,rfl⟩,rfl⟩ := ran
        exact .inr ⟨left,right,w,rfl,rfl,deviates,paused,rfl⟩
      | false =>
        simp only [Bool.false_eq_true,if_false,merge_observations,checked_add,bind_ok,need_ok,Checked.add_some,pure_ok,
          Prod.exists,Prod.mk.injEq] at ran
        obtain ⟨_,_,⟨_,_,⟨⟨fits,rfl⟩,rfl⟩,rfl,rfl⟩,recorded⟩ := ran
        obtain ⟨state,next,rfl⟩ := record_price_ok.mp recorded
        exact .inl ⟨_,state,.both left right deviates fits,next,rfl⟩

/-- Sources that agree have their price recorded. -/
theorem Agreed.settled {v : HelixOracleAdaptor} {asset : Address} {primary secondary : Option PriceData}
    {price : PriceData} {state : TWAPData} {w : W} (agreed : Agreed v.deviation_threshold primary secondary price)
    (next : Next env.timestamp v.twap_window (v.twap env asset) price.price state) :
    settle_price peers env asset primary secondary ⟨v,w⟩ =
      .ok (some (.price_update asset price.price price.timestamp price.source state.num_samples),
        ⟨v.recorded env asset price state,w⟩) := by
  have records := (record_price_ok (s := ⟨v,w⟩)).mpr ⟨state,next,rfl⟩
  cases agreed with
  | primary => exact records
  | secondary => exact records
  | both left right deviates fits =>
    simp only [settle_price,bind_ok,deviation_exceeded_ok,Prod.exists]
    refine ⟨false,_,⟨deviates,rfl⟩,?_⟩
    simp only [Bool.false_eq_true,if_false,merge_observations,checked_add,bind_ok,need_ok,Checked.add_some,pure_ok,
      Prod.exists]
    exact ⟨_,_,⟨_,_,⟨⟨fits,rfl⟩,rfl⟩,rfl⟩,records⟩

/-- Sources that deviate have the vault paused. -/
theorem Deviates.settled {v : HelixOracleAdaptor} (asset : Address) {left right : PriceData} {w w' : W}
    (deviates : Deviates v.deviation_threshold left.price right.price true)
    (paused : peers.pause_by (env.calling v.vault_callback) env.current_contract_address w = some ((), w')) :
    settle_price peers env asset (some left) (some right) ⟨v,w⟩ =
      .ok (some (.safe_mode asset left.price right.price),⟨v,w'⟩) := by
  simp only [settle_price,bind_ok,deviation_exceeded_ok,Prod.exists]
  refine ⟨true,_,⟨deviates,rfl⟩,?_⟩
  simp only [if_true,set_safe_mode_internal,bind_ok,load_ok,callOut_ok,pure_ok,Prod.exists,exists_eq_left]
  exact ⟨(),_,⟨w',paused,rfl⟩,rfl⟩

theorem update_price_effect {asset : Address} {r : Option OracleEvent × World HelixOracleAdaptor W}
    (done : update_price peers env asset s = .ok r) : Effect peers env s (.update_price asset) r.1 r.2 := by
  simp only [update_price,bind_ok,load_ok,exists_eq_left,canonical_decimals_ok,Prod.exists] at done
  obtain ⟨target,_,⟨first,chosen,rfl⟩,primary,_,fetched,secondary,_,fetched',settled⟩ := done
  obtain ⟨second,observed,rfl⟩ := fetch_observation_ok fetched
  obtain ⟨w,observed',rfl⟩ := fetch_observation_ok fetched'
  have surveyed : Surveyed peers env s asset target primary secondary w := ⟨first,second,chosen,observed,observed'⟩
  rcases settle_price_cases settled with ⟨price,state,agreed,next,rfl⟩ | ⟨left,right,w',rfl,rfl,deviates,paused,rfl⟩
  · exact .update_price asset target primary secondary price state w surveyed agreed next
  · exact .safe_mode asset target left right w w' surveyed deviates paused

theorem require_admin_auth_ok {r : Unit × World HelixOracleAdaptor W} :
    (require_admin_auth env : Contract W Unit) s = .ok r ↔ env.Authorised s.own.admin ∧ r = ((), s) := by
  simp [require_admin_auth]

/-- A successful call does what `Effect` says, and nothing else. -/
theorem effect_of_call {entry : Entry} {r : Option OracleEvent × World HelixOracleAdaptor W}
    (done : call peers env entry s = .ok r) : Effect peers env s entry r.1 r.2 := by
  cases entry with
  | initialise admin primary_oracle secondary_oracle vault_callback => simp [call] at done
  | update_price asset => exact update_price_effect done
  | set_safe_mode enabled =>
    simp only [call,set_safe_mode,set_safe_mode_internal,bind_ok,require_admin_auth_ok,load_ok,pure_ok,and_assoc,
      exists_and_left,exists_eq_left] at done
    obtain ⟨authorised,q,ran,rfl⟩ := done
    cases enabled with
    | true =>
      simp only [if_true,callOut_ok] at ran
      obtain ⟨w,paused,same⟩ := ran
      simp only [same]
      exact .set_safe_mode true w authorised paused
    | false =>
      simp only [Bool.false_eq_true,if_false,callOut_ok] at ran
      obtain ⟨w,unpaused,same⟩ := ran
      simp only [same]
      exact .set_safe_mode false w authorised unpaused
  | configure primary secondary twap_window staleness deviation =>
    simp only [call,configure,bind_ok,require_admin_auth_ok,save_ok,pure_ok,and_assoc,exists_and_left,
      exists_eq_left] at done
    obtain ⟨authorised,rfl⟩ := done
    exact .configure primary secondary twap_window staleness deviation authorised

theorem invoke_of_call {entry : Entry} {event : Option OracleEvent} {s : World (Option HelixOracleAdaptor) W}
    {v : HelixOracleAdaptor} {t : World HelixOracleAdaptor W} (found : s.own = some v)
    (ran : call peers env entry ⟨v,s.rest⟩ = .ok (event, t)) :
    invoke peers env entry s = .ok (event, ⟨some t.own,t.rest⟩) := by
  unfold invoke
  simp only [found,ran]

theorem call_of_invoke {entry : Entry} {event : Option OracleEvent} {s s' : World (Option HelixOracleAdaptor) W}
    {v : HelixOracleAdaptor} (found : s.own = some v) (done : invoke peers env entry s = .ok (event, s')) :
    ∃ t, call peers env entry ⟨v,s.rest⟩ = .ok (event, t) ∧ s' = ⟨some t.own,t.rest⟩ := by
  unfold invoke at done
  simp only [found] at done
  split at done
  · rename_i t ran
    cases done
    exact ⟨t,ran,rfl⟩
  · cases done

/-- A successful call finds an adaptor and does what `Effect` says, or makes one. -/
theorem invoke_cases {entry : Entry} {event : Option OracleEvent} {s s' : World (Option HelixOracleAdaptor) W}
    (done : invoke peers env entry s = .ok (event, s')) :
    (∃ v v', s.own = some v ∧ s'.own = some v' ∧ Effect peers env ⟨v,s.rest⟩ entry event ⟨v',s'.rest⟩) ∨
      (s.own = none ∧ ∃ admin primary secondary vault, entry = .initialise admin primary secondary vault ∧
        event = none ∧ s' = { s with own := some (fresh admin primary secondary vault) }) := by
  unfold invoke at done
  split at done
  · rename_i admin primary secondary vault missing
    split at done
    · cases done
      exact .inr ⟨missing,admin,primary,secondary,vault,rfl,rfl,rfl⟩
    · cases done
  · cases done
  · rename_i v found
    split at done
    · rename_i t ran
      cases done
      exact .inl ⟨v,t.own,found,rfl,effect_of_call ran⟩
    · cases done

/-! ### What is read -/

theorem decimals_ok {asset : Address} {r : Nat × World HelixOracleAdaptor W} :
    decimals peers env asset s = .ok r ↔
      ∃ w, Target peers env s.own asset r.1 s.rest w ∧ r.2 = { s with rest := w } := by
  simp only [decimals,bind_ok,load_ok,exists_eq_left,canonical_decimals_ok]

theorem lastprice_ok {asset : Address} {r : (Int × Nat) × World HelixOracleAdaptor W} :
    (lastprice env asset : Contract W _) s = .ok r ↔
      ∃ cached, Lease.read env.sequence (s.own.cached_price asset) = some cached ∧
        env.timestamp - cached.timestamp ≤ s.own.staleness_threshold ∧
        r = (average cached (Lease.read env.sequence (s.own.twap_state asset)), s) := by
  simp only [lastprice,current_twap,validated_cached_price,read_cached_price,read_twap_state,bind_ok,load_ok,need_ok,
    require_ok,pure_ok,Prod.exists,exists_eq_left,Prod.mk.injEq]
  constructor
  · rintro ⟨_,_,⟨cached,_,⟨found,rfl⟩,_,_,⟨current,_,rfl⟩,rfl,rfl⟩,rfl⟩
    exact ⟨_,found,current,rfl⟩
  · rintro ⟨cached,found,current,rfl⟩
    exact ⟨_,_,⟨cached,_,⟨found,rfl⟩,(),_,⟨current,trivial,rfl⟩,rfl,rfl⟩,rfl⟩

end Rules

end Helix.Oracle
