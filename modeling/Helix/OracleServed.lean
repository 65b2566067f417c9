import Mathlib.Data.List.Induction
import Mathlib.Algebra.Order.BigOperators.Group.List
import Helix.OracleUnits

/-!
What `lastprice` serves. The prices of the current window are those recorded since
the update that found no running window (`gathered`): the served price lies between
the least and the greatest of them, with the time of the last (`average_within`).
It is served as long as that time is recent enough, which bounds how long ago the
price was recorded exactly if the time is not later than the update that recorded
it (`freshness_iff`).
-/
namespace Helix.Oracle
open Invoke

section Windows
variable {W : Type} (adaptor asset : Address)

/-- The price that a transition records for the asset. -/
def recording (r : Served W) : Option PriceData :=
  match published r with
  | some (.price_update updated price timestamp source _) =>
    if updated = asset then some ⟨price,timestamp,source⟩ else none
  | _ => none

/-- No window of the asset is running when a transition comes in. -/
def begins (r : Served W) : Prop :=
  ∀ v, r.before.state.own = some v → (v.twap (r.env adaptor) asset).num_samples = 0 ∨
    v.twap_window ≤ (r.env adaptor).timestamp - (v.twap (r.env adaptor) asset).window_start

instance (r : Served W) : Decidable (begins adaptor asset r) :=
  match found : r.before.state.own with
  | none => .isTrue (by intro v own; rw [found] at own; cases own)
  | some v => decidable_of_iff ((v.twap (r.env adaptor) asset).num_samples = 0 ∨
      v.twap_window ≤ (r.env adaptor).timestamp - (v.twap (r.env adaptor) asset).window_start)
    ⟨by rintro ends v' own; rw [found] at own; cases own; exact ends,fun ends => ends v found⟩

/-- Take a transition into account: a recorded price joins the others of the
    window, or is the first of a new one. -/
def gather (samples : List (Sample W)) (r : Served W) : List (Sample W) :=
  match recording asset r with
  | some price => if begins adaptor asset r then [⟨r,price⟩] else samples ++ [⟨r,price⟩]
  | none => samples

/-- The updates that recorded a price since the one that last reset the window. -/
def gathered (past : List (Served W)) : List (Sample W) := past.foldl (gather adaptor asset) []

/-- All updates that recorded a price. -/
def recorded (past : List (Served W)) : List (Sample W) := past.filterMap (fun r => (recording asset r).map (Sample.mk r))

variable {adaptor asset} {peers : Peers W}

theorem recorded_append (past later : List (Served W)) :
    recorded asset (past ++ later) = recorded asset past ++ recorded asset later := List.filterMap_append

theorem mem_recorded {past : List (Served W)} {x : Sample W} :
    x ∈ recorded asset past ↔ x.update ∈ past ∧ recording asset x.update = some x.price := by
  simp only [recorded,List.mem_filterMap,Option.map_eq_some_iff]
  constructor
  · rintro ⟨r,member,price,records,rfl⟩
    exact ⟨member,records⟩
  · rintro ⟨member,records⟩
    exact ⟨x.update,member,x.price,records,rfl⟩

theorem gathered_append (past : List (Served W)) (r : Served W) :
    gathered adaptor asset (past ++ [r]) = gather adaptor asset (gathered adaptor asset past) r := by
  simp [gathered]

/-- What the window has was recorded. -/
theorem gathered_recorded {past : List (Served W)} {x : Sample W} (member : x ∈ gathered adaptor asset past) :
    x ∈ recorded asset past := by
  induction past using List.reverseRecOn with
  | nil => simp [gathered] at member
  | append_singleton past r ih =>
    rw [gathered_append,gather] at member
    rw [recorded_append,List.mem_append]
    cases records : recording asset r with
    | none =>
      rw [records] at member
      exact .inl (ih member)
    | some price =>
      have new : ⟨r,price⟩ ∈ recorded asset [r] := mem_recorded.mpr ⟨List.mem_singleton_self r,records⟩
      simp only [records] at member
      split at member
      · rw [List.mem_singleton.mp member]
        exact .inr new
      · rcases List.mem_append.mp member with old | same
        · exact .inl (ih old)
        · rw [List.mem_singleton.mp same]
          exact .inr new

theorem recording_idle {r : Served W} (idle : ∀ samples : List (Sample W), accumulate asset samples r = samples) :
    recording asset r = none := by
  cases records : recording asset r with
  | none => rfl
  | some price =>
    -- A recorded price would be a sample.
    have sampled := idle []
    unfold recording at records
    split at records
    · rename_i updated p timestamp source count said
      split at records
      · rename_i same
        simp only [accumulate,said,if_pos same] at sampled
        split at sampled <;> simp at sampled
      · cases records
    · cases records

/-- The event of an update tells whether a window began. -/
theorem gather_eq {samples : List (Sample W)} {r : Served W} (makes : Makes (serve peers adaptor) r) :
    gather adaptor asset samples r = accumulate asset samples r := by
  cases sampled_of_makes asset makes with
  | idle same entries =>
    rw [same,gather,recording_idle same]
  | recorded v target primary secondary price state w found left surveyed agreed next told =>
    have records : recording asset r = some price := by simp [recording,told]
    have large : (1 : Nat) < u32Max := by decide
    rw [gather,records]
    simp only [accumulate,told,if_true]
    cases next with
    | reset ended =>
      have first : begins adaptor asset r := by
        intro v' own
        rw [found] at own
        cases own
        exact ended
      rw [if_pos first,if_pos rfl]
    | sample running fits =>
      have further : ¬ begins adaptor asset r := fun first => running (first v found)
      have later : ¬ (if (v.twap (r.env adaptor) asset).num_samples < u32Max then
          (v.twap (r.env adaptor) asset).num_samples + 1 else u32Max) = 1 := by
        have some : (v.twap (r.env adaptor) asset).num_samples ≠ 0 := fun zero => running (.inl zero)
        split <;> omega
      rw [if_neg further,if_neg later]

section Runs
variable (peers adaptor) (clock : Clock) (w : W) (calls : List (Origin × Action W)) (asset)

theorem gathered_eq : gathered adaptor asset (trace (serve peers adaptor) (undeployed clock w) calls) =
    accumulated asset (trace (serve peers adaptor) (undeployed clock w) calls) := by
  apply run_history (serve peers adaptor) (fun past _ => gathered adaptor asset past = accumulated asset past) calls rfl
  intro past r _ makes held
  rw [gathered_append,accumulated_append,held,gather_eq makes]

end Runs

/-! ### Averages -/

/-- The average of some numbers lies between two of them. -/
theorem average_between {numbers : List Int} (some : numbers ≠ []) :
    (∃ x ∈ numbers, x ≤ numbers.sum.tdiv numbers.length) ∧ ∃ x ∈ numbers, numbers.sum.tdiv numbers.length ≤ x := by
  have positive : (0 : Int) < numbers.length := Int.natCast_pos.mpr (List.length_pos_iff.mpr some)
  have even : ∀ x : Int, (numbers.length * x).tdiv numbers.length = x := fun x =>
    Int.mul_tdiv_cancel_left x positive.ne'
  constructor
  · by_contra none
    have above : ∀ x ∈ numbers, numbers.sum.tdiv numbers.length + 1 ≤ x := by
      intro x member
      by_contra low
      exact none ⟨x,member,by omega⟩
    have least := numbers.card_nsmul_le_sum _ above
    rw [nsmul_eq_mul] at least
    have larger := Int.tdiv_le_tdiv positive least
    rw [even] at larger
    omega
  · by_contra none
    have below : ∀ x ∈ numbers, x ≤ numbers.sum.tdiv numbers.length - 1 := by
      intro x member
      by_contra high
      exact none ⟨x,member,by omega⟩
    have most := numbers.sum_le_card_nsmul _ below
    rw [nsmul_eq_mul] at most
    have smaller := Int.tdiv_le_tdiv positive most
    rw [even] at smaller
    omega

/-- What the average of the samples is stored as: their sum and their count, or
    nothing before there are any. -/
inductive Stored (samples : List (Sample W)) : Option (Lease TWAPData) → Prop
  | nothing : samples = [] → Stored samples none
  | average (state : Lease TWAPData) : state.value.cumulative_price = sum_prices samples →
      state.value.num_samples = samples.length → Stored samples (some state)

/-- A served price lies between two of the samples and has the time of the last. -/
structure Within (samples : List (Sample W)) (price : Int) (timestamp : Nat) : Prop where
  low : ∃ x ∈ samples, x.price.price ≤ price
  high : ∃ x ∈ samples, price ≤ x.price.price
  latest : ∃ last, samples.getLast? = some last ∧ timestamp = last.price.timestamp

theorem average_time (cached : PriceData) (state : Option TWAPData) : (average cached state).2 = cached.timestamp := by
  unfold average
  split
  · split <;> rfl
  · rfl

/-- The time that `lastprice` shows is that of the cached price, and fresh. -/
theorem lastprice_timestamp {env : Env} {v : HelixOracleAdaptor} {w : W} {price : Int × Nat}
    {s' : World HelixOracleAdaptor W} (shown : lastprice env asset ⟨v,w⟩ = .ok (price, s')) :
    ∃ cached, (v.cached_price asset).map Lease.value = some cached ∧ price.2 = cached.timestamp ∧
      env.timestamp - cached.timestamp ≤ v.staleness_threshold := by
  obtain ⟨cached,live,current,same⟩ := lastprice_ok.mp shown
  obtain ⟨lease,(found : v.cached_price asset = some lease),value,_⟩ := Lease.read_some live
  refine ⟨cached,by rw [found,Option.map_some,value],?_,current⟩
  rw [Prod.mk.injEq] at same
  rw [same.1,average_time]

theorem Averages.within {samples : List (Sample W)} {env : Env} {v : HelixOracleAdaptor} {w : W} {price : Int × Nat}
    {s' : World HelixOracleAdaptor W} (averages : Averages samples (v.twap_state asset,v.cached_price asset))
    (few : samples.length ≤ u32Max) (shown : lastprice env asset ⟨v,w⟩ = .ok (price, s')) :
    Within samples price.1 price.2 := by
  obtain ⟨average,earlier,last,split,cached⟩ := averages.shown shown
  obtain ⟨shown_price,cached',time,_⟩ := lastprice_timestamp shown
  rw [cached] at cached'
  cases cached'
  have some : samples.map (fun x => x.price.price) ≠ [] := by simp [split]
  obtain ⟨⟨x,member,low⟩,y,member',high⟩ := average_between some
  have length : (samples.map (fun x => x.price.price)).length = min samples.length u32Max := by
    rw [List.length_map,min_eq_left few]
  rw [length] at low high
  obtain ⟨first,inside,rfl⟩ := List.mem_map.mp member
  obtain ⟨second,inside',rfl⟩ := List.mem_map.mp member'
  refine ⟨⟨first,inside,low.trans average.ge⟩,⟨second,inside',average.le.trans high⟩,last,?_,time⟩
  rw [split,List.getLast?_append,List.getLast?_singleton]
  rfl

end Windows

/-- In every run with no more samples in the window than can be counted: the stored
    average is the sum and the count of the prices recorded since the update that
    last reset the window, and whatever `lastprice` answers lies between two of
    them and has the time of the last. -/
theorem average_within {W : Type} (peers : Peers W) (adaptor : Address) (clock : Clock) (w : W)
    (calls : List (Origin × Action W)) (asset : Address) :
    let now := run (serve peers adaptor) (undeployed clock w) calls
    let samples := gathered adaptor asset (trace (serve peers adaptor) (undeployed clock w) calls)
    samples.length ≤ u32Max → Stored samples (stored asset now).1 ∧
      ∀ env price timestamp, answer (lastprice env asset) now.state = some (price, timestamp) →
        Within samples price timestamp := by
  intro now samples few
  have averages := serve_averages peers adaptor clock w calls asset
  rw [← gathered_eq] at averages
  refine ⟨?_,?_⟩
  · show Stored samples (stored asset now).1
    cases entries : stored asset now with
    | mk state cached =>
      rw [entries] at averages
      cases averages with
      | nothing empty => exact .nothing empty
      | window last earlier state cached split lives last_price sum count =>
        exact .average state sum (by rw [count]; exact min_eq_left few)
  · intro env price timestamp shown
    obtain ⟨v,_,found,priced⟩ := answer_some shown
    rw [stored,found] at averages
    exact averages.within few priced

/-- Prices of two recorded in two updates of one window. -/
theorem average_within_halved :
    let now := run Small.step Small.start Small.halved
    let samples := gathered Small.adaptor Small.asset (trace Small.step Small.start Small.halved)
    Stored samples (stored Small.asset now).1 ∧ Within samples 200000000000000 20 ∧ samples.length = 2 := by
  have both := average_within Small.peers Small.adaptor ⟨0,0⟩ Small.feeds Small.halved Small.asset (by decide +kernel)
  exact ⟨both.1,both.2 Small.reading 200000000000000 20 (by decide +kernel),by decide +kernel⟩

/-! ### Freshness -/

section Freshness
variable {W : Type} {adaptor asset : Address} {peers : Peers W}

/-- Some update recorded a price for the asset, and no longer ago than that. -/
def RecordedWithin (asset : Address) (past : List (Served W)) (now staleness : Nat) : Prop :=
  ∃ r ∈ past, (recording asset r).isSome = true ∧ now - r.clock.timestamp ≤ staleness

/-- The last sample is what the last update that recorded a price recorded. -/
structure Latest (asset : Address) (past : List (Served W)) (last : Sample W) : Prop where
  member : last.update ∈ past
  records : recording asset last.update = some last.price
  last : ∀ r ∈ past, (recording asset r).isSome = true → r.clock.timestamp ≤ last.update.clock.timestamp

theorem gather_last {samples : List (Sample W)} {r : Served W} {last : Sample W}
    (found : (gather adaptor asset samples r).getLast? = some last) :
    (recording asset r = some last.price ∧ last.update = r) ∨ (recording asset r = none ∧ samples.getLast? = some last) := by
  unfold gather at found
  split at found
  · rename_i price records
    have same : last = ⟨r,price⟩ := by
      split at found <;> simpa [eq_comm] using found
    subst same
    exact .inl ⟨records,rfl⟩
  · rename_i none
    exact .inr ⟨none,found⟩

theorem serve_latest (peers : Peers W) (adaptor : Address) (clock : Clock) (w : W) (calls : List (Origin × Action W))
    (asset : Address) {last : Sample W}
    (found : (gathered adaptor asset (trace (serve peers adaptor) (undeployed clock w) calls)).getLast? = some last) :
    Latest asset (trace (serve peers adaptor) (undeployed clock w) calls) last := by
  have kept : (∀ r : Served W, r ∈ trace (serve peers adaptor) (undeployed clock w) calls →
      r.clock.timestamp ≤ (run (serve peers adaptor) (undeployed clock w) calls).clock.timestamp) ∧
      ∀ last, (gathered adaptor asset (trace (serve peers adaptor) (undeployed clock w) calls)).getLast? = some last →
        Latest asset (trace (serve peers adaptor) (undeployed clock w) calls) last := by
    apply run_history (serve peers adaptor) (fun past c => (∀ r : Served W, r ∈ past → r.clock.timestamp ≤
      c.clock.timestamp) ∧ ∀ last, (gathered adaptor asset past).getLast? = some last → Latest asset past last) calls
    · exact ⟨by simp,by simp [gathered]⟩
    · rintro past r _ makes ⟨clocks,latest⟩
      have later : r.before.clock.timestamp ≤ Clock.timestamp (Delivery.clock r) := Nat.le_add_right _ _
      have earlier : ∀ q : Served W, q ∈ past → q.clock.timestamp ≤ Clock.timestamp (Delivery.clock r) := fun q member =>
        (clocks q member).trans later
      refine ⟨?_,?_⟩
      · rw [Delivery.after_clock makes]
        exact List.forall_mem_append.mpr ⟨earlier,List.forall_mem_singleton.mpr le_rfl⟩
      · intro last found
        rw [gathered_append] at found
        rcases gather_last found with ⟨records,rfl⟩ | ⟨none,before⟩
        · refine ⟨by simp,records,?_⟩
          intro q member _
          rcases List.mem_append.mp member with old | new
          · exact earlier q old
          · rw [List.mem_singleton.mp new]
        · obtain ⟨member,records,newest⟩ := latest last before
          refine ⟨List.mem_append_left _ member,records,?_⟩
          intro q inside recorded
          rcases List.mem_append.mp inside with old | new
          · exact newest q old recorded
          · rw [List.mem_singleton.mp new,none] at recorded
            cases recorded
  exact kept.2 last found

/-- Within the threshold of a recorded price means within that of the last. -/
theorem Latest.recordedWithin {past : List (Served W)} {last : Sample W} (latest : Latest asset past last)
    {now staleness : Nat} : RecordedWithin asset past now staleness ↔ now - last.update.clock.timestamp ≤ staleness := by
  constructor
  · rintro ⟨r,member,recorded,recent⟩
    have newest := latest.last r member recorded
    omega
  · intro recent
    exact ⟨last.update,latest.member,by rw [latest.records]; rfl,recent⟩

/-- What is served stays served in the same ledger as long as its time is fresh. -/
theorem lastprice_later {env later : Env} {v : HelixOracleAdaptor} {w : W} {price : Int × Nat}
    {s' : World HelixOracleAdaptor W} (shown : lastprice env asset ⟨v,w⟩ = .ok (price, s'))
    (sequence : later.sequence = env.sequence) (current : later.timestamp - price.2 ≤ v.staleness_threshold) :
    lastprice later asset ⟨v,w⟩ = .ok (price, s') := by
  obtain ⟨cached,live,_,same⟩ := lastprice_ok.mp shown
  have time : price.2 = cached.timestamp := by
    rw [Prod.mk.injEq] at same
    rw [same.1,average_time]
  rw [time] at current
  exact lastprice_ok.mpr ⟨cached,by rw [sequence]; exact live,current,by rw [sequence]; exact same⟩

end Freshness

/-- In every run: from the time that a price is served on, it is served no longer
    than the threshold after the last update that recorded one, exactly if the time
    it carries is not later than that update. -/
theorem freshness_iff {W : Type} (peers : Peers W) (adaptor : Address) (clock : Clock) (w : W)
    (calls : List (Origin × Action W)) (env : Env) (asset : Address) (price : Int × Nat) :
    let past := trace (serve peers adaptor) (undeployed clock w) calls
    let now := (run (serve peers adaptor) (undeployed clock w) calls).state
    answer (lastprice env asset) now = some price →
      ∃ v last, now.own = some v ∧ (gathered adaptor asset past).getLast? = some last ∧
        ((∀ later : Env, later.sequence = env.sequence → env.timestamp ≤ later.timestamp →
            (answer (lastprice later asset) now).isSome = true →
            RecordedWithin asset past later.timestamp v.staleness_threshold) ↔
          last.price.timestamp ≤ last.update.clock.timestamp) := by
  intro past now shown
  obtain ⟨v,_,found,priced⟩ := answer_some shown
  have averages := serve_averages peers adaptor clock w calls asset
  rw [← gathered_eq,stored,found] at averages
  obtain ⟨_,earlier,last,split,cached⟩ := averages.shown priced
  have newest : (gathered adaptor asset past).getLast? = some last := by
    rw [split,List.getLast?_append,List.getLast?_singleton]
    rfl
  have latest := serve_latest peers adaptor clock w calls asset newest
  -- Whatever is served in this state carries the time of the last sample, and is fresh by it.
  have carries : ∀ (later : Env) shown' s', lastprice later asset ⟨v,now.rest⟩ = .ok (shown', s') →
      shown'.2 = last.price.timestamp ∧ later.timestamp - last.price.timestamp ≤ v.staleness_threshold := by
    intro later shown' s' served
    obtain ⟨cached',held,time,current⟩ := lastprice_timestamp served
    rw [cached] at held
    cases held
    exact ⟨time,current⟩
  refine ⟨v,last,found,newest,?_,?_⟩
  · intro fresh
    by_contra late
    obtain ⟨time,current⟩ := carries env price _ priced
    let later : Env := { env with
      timestamp := max env.timestamp (last.update.clock.timestamp + v.staleness_threshold + 1) }
    have served : lastprice later asset ⟨v,now.rest⟩ = .ok (price, _) :=
      lastprice_later priced rfl (by rw [time]; simp only [later]; omega)
    have answered : (answer (lastprice later asset) now).isSome = true := by
      simp only [answer,found,served,Option.isSome_some]
    have within := latest.recordedWithin.mp (fresh later rfl (le_max_left _ _) answered)
    simp only [later] at within
    omega
  · intro timely later _ _ answered
    obtain ⟨shown',some⟩ := Option.isSome_iff_exists.mp answered
    obtain ⟨v',_,found',served⟩ := answer_some some
    rw [found] at found'
    cases found'
    obtain ⟨_,current⟩ := carries later shown' _ served
    exact latest.recordedWithin.mpr (by omega)

namespace Small

/-- Sources whose prices carry a time hours ahead. -/
def early : Peers Feeds :=
  { peers with lastprice := fun env _ w => ((w env.current_contract_address).map (fun feed => (feed.2, 10000)), w) }

/-- Somebody reads so many seconds after the start, one ledger after the update. -/
def readingAt (seconds : Nat) : Env := (Origin.signedBy keeper).env ⟨3,seconds⟩ adaptor

end Small

/-- Prices that carry the time of their update are not served for long. -/
theorem freshness_iff_halved :
    ∃ v, (run Small.step Small.start Small.halved).state.own = some v ∧
      ∀ later : Env, later.sequence = Small.reading.sequence → Small.reading.timestamp ≤ later.timestamp →
        (answer (lastprice later Small.asset) (run Small.step Small.start Small.halved).state).isSome = true →
        RecordedWithin Small.asset (trace Small.step Small.start Small.halved) later.timestamp v.staleness_threshold := by
  obtain ⟨v,last,found,newest,exact_when⟩ := freshness_iff Small.peers Small.adaptor ⟨0,0⟩ Small.feeds Small.halved
    Small.reading Small.asset (200000000000000, 20) (by decide +kernel)
  have timely : ((gathered Small.adaptor Small.asset (trace Small.step Small.start Small.halved)).getLast?.map (fun x =>
      decide (x.price.timestamp ≤ x.update.clock.timestamp))) = some true := by decide +kernel
  obtain ⟨last',newest',holds⟩ := Option.map_eq_some_iff.mp timely
  have same : last = last' := Option.some.inj (newest.symm.trans newest')
  subst same
  exact ⟨v,found,exact_when.mpr (of_decide_eq_true holds)⟩

/-- A price that carries a time hours ahead is served for hours. -/
theorem stale_price_served :
    let past := trace (serve Small.early Small.adaptor) Small.start Small.opening
    let now := (run (serve Small.early Small.adaptor) Small.start Small.opening).state
    now.own.map (fun v => v.staleness_threshold) = some 600 ∧
      answer (lastprice (Small.readingAt 9000) Small.asset) now = some (200000000000000, 10000) ∧
      ¬ RecordedWithin Small.asset past 9000 600 := by
  refine ⟨by decide +kernel,by decide +kernel,?_⟩
  unfold RecordedWithin
  decide +kernel

end Helix.Oracle
