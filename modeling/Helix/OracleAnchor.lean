import Helix.OraclePositive

/-!
What one true source is worth. Two prices are blended only if they are close, so a
source that tells the truth and is heard holds the blend near its own price,
whatever the other one tells (`Deviates.near`). If that is so at every update of
the window, with one source or the other, the served price is near the truth too
(`one_source_anchors`); and the primary source, which sets the decimals, has it so
whenever it answers (`vouched_of_primary`).
-/
namespace Helix.Oracle
open Invoke

/-! ### Close prices -/

/-- A price is as near to two bounds as a threshold allows: by half of it, in parts of
    ten thousand of the bound, and by the half unit that a division drops. -/
structure Near (threshold : Nat) (low high price : Int) : Prop where
  above : (19999 - threshold) * low ≤ 20000 * price + 10000
  below : 20000 * price ≤ (20001 + threshold) * high

section Blends
variable {threshold : Nat} {low high left right price : Int}

/-- A price between the bounds is near them. -/
theorem Near.of_between (natural : 0 ≤ low) (least : low ≤ price) (most : price ≤ high) : Near threshold low high price where
  above := by
    have wide : 0 ≤ (1 + (threshold : Int)) * low := Int.mul_nonneg (by omega) natural
    have split : (19999 - (threshold : Int)) * low = 20000 * low - (1 + threshold) * low := by ring
    omega
  below := by
    have wide : 0 ≤ (1 + (threshold : Int)) * high := Int.mul_nonneg (by omega) (natural.trans (least.trans most))
    have split : (20001 + (threshold : Int)) * high = 20000 * high + (1 + threshold) * high := by ring
    omega

/-- What is near to tighter bounds is near to wider ones. -/
theorem Near.widen {tight loose : Nat} (near : Near tight low high price) (tighter : tight ≤ loose) (natural : 0 ≤ low)
    (natural' : 0 ≤ high) : Near loose low high price where
  above := by
    have more := Int.mul_le_mul_of_nonneg_right (Int.sub_le_sub_left (Int.ofNat_le.mpr tighter) 19999) natural
    exact more.trans near.above
  below := by
    have more := Int.mul_le_mul_of_nonneg_right (Int.add_le_add_left (Int.ofNat_le.mpr tighter) 20001) natural'
    exact near.below.trans more

/-- Prices between near ones are near. -/
theorem Near.between {least most : Int} (near : Near threshold low high least) (near' : Near threshold low high most)
    (above : least ≤ price) (below : price ≤ most) : Near threshold low high price where
  above := by
    have started := near.above
    omega
  below := by
    have ended := near'.below
    omega

/-- Two prices that do not deviate differ by little of the smaller one. -/
theorem Deviates.close (deviates : Deviates threshold left right false) : 0 < min left right ∧
    (max left right - min left right) * BPS_DENOMINATOR < (threshold + 1) * min left right := by
  generalize near : false = exceeded at deviates
  cases deviates with
  | baseless => cases near
  | ratio _ positive _ =>
    have low : ((max left right - min left right) * BPS_DENOMINATOR).tdiv (min left right) ≤ threshold :=
      not_lt.mp (of_decide_eq_false near.symm)
    have spread : 0 ≤ (max left right - min left right) * BPS_DENOMINATOR := spread_nonneg left right
    rw [Int.tdiv_eq_ediv_of_nonneg spread] at low
    exact ⟨positive,Int.lt_mul_of_ediv_lt positive (Int.lt_add_one_of_le low)⟩

/-- What is near to a price is near to bounds around it. -/
theorem Near.around {told : Int} (near : Near threshold told told price) (natural : 0 ≤ price) (natural' : 0 ≤ low)
    (least : low ≤ told) (most : told ≤ high) : Near threshold low high price where
  above := by
    rcases le_or_gt (threshold : Int) 19999 with narrow | wide
    · exact (Int.mul_le_mul_of_nonneg_left least (Int.sub_nonneg.mpr narrow)).trans near.above
    · have nothing : (19999 - (threshold : Int)) * low ≤ 0 :=
        Int.mul_nonpos_of_nonpos_of_nonneg (Int.sub_nonpos_of_le wide.le) natural'
      omega
  below := near.below.trans (Int.mul_le_mul_of_nonneg_left most (by omega))

/-- The blend of two prices that do not deviate is near to each of them. -/
theorem Deviates.near {told : Int} (deviates : Deviates threshold left right false) (one : told = left ∨ told = right) :
    Near threshold told told ((left + right).tdiv 2) := by
  obtain ⟨positive,spread⟩ := deviates.close
  have sum : left + right = min left right + max left right := (min_add_max left right).symm
  have order : min left right ≤ max left right := min_le_max
  have either : told = min left right ∨ told = max left right := by
    rcases one with rfl | rfl <;> omega
  rw [sum]
  generalize min left right = least at *
  generalize max left right = most at *
  rw [Int.tdiv_eq_ediv_of_nonneg (by omega)]
  have expand : (threshold + 1) * least = threshold * least + least := by ring
  simp only [BPS_DENOMINATOR] at spread
  have natural : 0 ≤ (threshold : Int) * least := Int.mul_nonneg (by omega) positive.le
  rcases either with rfl | rfl
  · refine ⟨?_,?_⟩
    · have lower : (19999 - (threshold : Int)) * told = 19999 * told - threshold * told := by ring
      omega
    · have upper : (20001 + (threshold : Int)) * told = 20001 * told + threshold * told := by ring
      omega
  · have more : (threshold : Int) * least ≤ threshold * told := Int.mul_le_mul_of_nonneg_left order (by omega)
    refine ⟨?_,?_⟩
    · have lower : (19999 - (threshold : Int)) * told = 19999 * told - threshold * told := by ring
      omega
    · have upper : (20001 + (threshold : Int)) * told = 20001 * told + threshold * told := by ring
      omega

end Blends

/-! ### Windows with a true source -/

section Runs
variable {W : Type} (peers : Peers W) (adaptor asset : Address) (threshold : Nat) (low high : Int)

/-- An update would hear a usable quote between two bounds, in the common decimals,
    from one of the sources at least, and takes no wider deviation than a threshold. -/
structure Vouched (env : Env) (s : State W) : Prop where
  heard : ∃ v target first second w q, s.own = some v ∧ v.deviation_threshold ≤ threshold ∧
    Hears peers env ⟨v,s.rest⟩ asset target first second w ∧ (first = some q ∨ second = some q) ∧
    low ≤ q.scaled target ∧ q.scaled target ≤ high

/-- So it does when it is made. -/
def Anchored (r : Served W) : Prop := Vouched peers asset threshold low high (r.env adaptor) r.before.state

variable {peers adaptor asset threshold low high}

/-- What an update hears depends on the update alone. -/
theorem Hears.unique {env : Env} {s : World HelixOracleAdaptor W} {target target' : Nat}
    {first second first' second' : Option Quote} {w w' : W} (hears : Hears peers env s asset target first second w)
    (again : Hears peers env s asset target' first' second' w') :
    target' = target ∧ first' = first ∧ second' = second := by
  obtain ⟨mid,last,chosen,heard,heard'⟩ := hears
  obtain ⟨mid',last',chosen',reheard,reheard'⟩ := again
  obtain ⟨rfl,rfl⟩ := chosen.unique chosen'
  rw [heard] at reheard
  cases reheard
  rw [heard'] at reheard'
  cases reheard'
  exact ⟨rfl,rfl,rfl⟩

/-- The primary source sets the decimals: where it answers, it vouches for its price as
    it tells it, whatever the secondary one does. -/
theorem vouched_of_primary {env : Env} {s : State W} {v : HelixOracleAdaptor} {q : Quote} {mid mid' : W}
    (found : s.own = some v) (narrow : v.deviation_threshold ≤ threshold)
    (decimals : peers.decimals (env.calling v.primary_oracle) asset s.rest = (some q.decimals, mid))
    (told : usable peers env v.staleness_threshold v.primary_oracle asset mid = (some q, mid'))
    (least : low ≤ q.price) (most : q.price ≤ high) : Vouched peers asset threshold low high env s where
  heard := by
    have same : q.scaled q.decimals = q.price := by simp [Quote.scaled,exactly]
    refine ⟨v,q.decimals,some q,_,_,q,found,narrow,⟨mid,mid',.primary _ _ _ decimals,told,rfl⟩,.inl rfl,?_,?_⟩
    · rw [same]
      exact least
    · rw [same]
      exact most

/-- What a vouched update takes for the price is near the bounds. -/
theorem Vouched.near {env : Env} {s : State W} {v : HelixOracleAdaptor} {target : Nat} {first second : Option Quote} {w : W}
    {price : PriceData} (vouched : Vouched peers asset threshold low high env s) (natural : 0 ≤ low) (found : s.own = some v)
    (hears : Hears peers env ⟨v,s.rest⟩ asset target first second w)
    (agreed : Agreed v.deviation_threshold (first.map (fun q => q.taken target .primary))
      (second.map (fun q => q.taken target .secondary)) price) : Near threshold low high price.price := by
  obtain ⟨v',target',first',second',w',q,found',narrow,hears',one,least,most⟩ := vouched.heard
  rw [found] at found'
  cases found'
  obtain ⟨rfl,rfl,rfl⟩ := hears.unique hears'
  have between : Near threshold low high (q.scaled target') := .of_between natural least most
  cases first' with
  | none =>
    rcases one with none | told
    · cases none
    · subst told
      cases agreed
      exact between
  | some left =>
    cases second' with
    | none =>
      rcases one with told | none
      · cases told
        cases agreed
        exact between
      · cases none
    | some right =>
      cases agreed with
      | both _ _ deviates _ =>
        have told : q.scaled target' = left.scaled target' ∨ q.scaled target' = right.scaled target' := by
          rcases one with told | told <;> cases told
          · exact .inl rfl
          · exact .inr rfl
        have blended := (deviates.near told).around (blend_positive deviates).le natural least most
        exact blended.widen narrow natural (natural.trans (least.trans most))

/-- What an anchored update records is near the bounds. -/
theorem Anchored.near {r : Served W} (anchored : Anchored peers adaptor asset threshold low high r)
    (makes : Makes (serve peers adaptor) r) (natural : 0 ≤ low) {price : PriceData} (records : recording asset r = some price) :
    Near threshold low high price.price := by
  obtain ⟨v,target,first,second,w,_,found,hears,agreed⟩ := recording_hears makes records
  exact Vouched.near anchored natural found hears agreed

end Runs

/-- In every run whose window has no more samples than can be counted, and in which
    every update of the window hears a usable quote between two bounds from one of
    the sources at least, the served price is near these bounds, whatever else the
    sources answer. -/
theorem one_source_anchors {W : Type} (peers : Peers W) (adaptor : Address) (clock : Clock) (w : W)
    (calls : List (Origin × Action W)) (asset : Address) (threshold : Nat) (low high : Int) (natural : 0 ≤ low) :
    let now := run (serve peers adaptor) (undeployed clock w) calls
    let samples := gathered adaptor asset (trace (serve peers adaptor) (undeployed clock w) calls)
    samples.length ≤ u32Max → (∀ x ∈ samples, Anchored peers adaptor asset threshold low high x.update) →
      ∀ env price timestamp, answer (lastprice env asset) now.state = some (price, timestamp) →
        Near threshold low high price := by
  intro now samples few anchored env price timestamp shown
  have averages := serve_averages peers adaptor clock w calls asset
  rw [← gathered_eq] at averages
  obtain ⟨v,_,found,priced⟩ := answer_some shown
  rw [stored,found] at averages
  have within : Within samples price timestamp := averages.within few priced
  have near : ∀ x ∈ samples, Near threshold low high x.price.price := by
    intro x member
    obtain ⟨inside,records⟩ := mem_recorded.mp (gathered_recorded member)
    exact (anchored x member).near (trace_makes inside) natural records
  obtain ⟨x,member,below⟩ := within.low
  obtain ⟨y,member',above⟩ := within.high
  exact (near x member).between (near y member') below above

namespace Small

/-- The secondary source goes up by some percent, and another price is stored. -/
def drifting (price : Int) : List (Origin × Action Feeds) :=
  opening ++ [(.signedBy keeper,.outside (fun w other => if other = secondary_oracle then some (7, price) else w other)),
    calls keeper (.update_price asset)]

/-- An update while the primary source tells two. -/
theorem anchored {r : Served Feeds} (found : r.before.state.own.map (fun v => (v.primary_oracle,v.deviation_threshold)) =
      some (primary_oracle, DEFAULT_DEVIATION_THRESHOLD))
    (tells : r.before.state.rest primary_oracle = some (14, 200000000000000)) :
    Anchored peers adaptor asset DEFAULT_DEVIATION_THRESHOLD 200000000000000 200000000000000 r := by
  obtain ⟨v,own,same⟩ := Option.map_eq_some_iff.mp found
  simp only [Prod.mk.injEq] at same
  obtain ⟨primary,narrow⟩ := same
  have answers : r.before.state.rest ((r.env adaptor).calling v.primary_oracle).current_contract_address =
      some (14, 200000000000000) := by
    rw [primary]
    exact tells
  have heard : usable peers (r.env adaptor) v.staleness_threshold v.primary_oracle asset r.before.state.rest =
      (some ⟨14,200000000000000,(r.env adaptor).timestamp⟩, r.before.state.rest) := by
    simp only [usable,quote,peers,answers,Option.map_some,Prod.mk.injEq,and_true]
    refine Option.filter_eq_some_iff.mpr ⟨rfl,decide_eq_true ⟨?_,?_⟩⟩
    · exact (by decide : (0 : Int) < 200000000000000)
    · exact (Nat.sub_self _).le.trans (Nat.zero_le _)
  refine vouched_of_primary own narrow.le ?_ heard le_rfl le_rfl
  simp only [peers,answers]
  rfl

end Small

/-- The secondary source tells 4.5 percent more than the primary one. -/
theorem one_source_anchors_drifting : Near DEFAULT_DEVIATION_THRESHOLD 200000000000000 200000000000000 202250000000000 := by
  have told : ∀ x ∈ gathered Small.adaptor Small.asset (trace Small.step Small.start (Small.drifting 20900000)),
      x.update.before.state.own.map (fun v => (v.primary_oracle,v.deviation_threshold)) =
          some (Small.primary_oracle, DEFAULT_DEVIATION_THRESHOLD) ∧
        x.update.before.state.rest Small.primary_oracle = some (14, 200000000000000) := by decide +kernel
  refine one_source_anchors Small.peers Small.adaptor ⟨0,0⟩ Small.feeds (Small.drifting 20900000) Small.asset
    DEFAULT_DEVIATION_THRESHOLD 200000000000000 200000000000000 (by decide) (by decide +kernel) ?_ Small.reading
    202250000000000 20 (by decide +kernel)
  intro x member
  exact Small.anchored (told x member).1 (told x member).2

end Helix.Oracle
