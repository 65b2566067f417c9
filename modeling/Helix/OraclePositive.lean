import Helix.OracleServed
import Helix.OracleQuotes

/-!
When recorded prices are positive. Two usable quotes that are close enough blend to
a positive price; a single one is recorded as it is scaled, and scaling down may
leave none of its digits. Every price that a run records is positive exactly if
that never happens, and then so is every price that `lastprice` serves
(`recorded_positive_iff`).
-/
namespace Helix.Oracle
open Invoke

section Rules
variable {W : Type} {peers : Peers W} {env : Env} {asset : Address} {target : Nat}

/-- What is taken from a source is taken from its usable quote. -/
theorem Observed.heard {staleness : Nat} {oracle : Address} {source : Source} {observation : Option PriceData} {w w' : W}
    (observed : Observed peers env staleness oracle asset target source observation w w') :
    ∃ heard, Oracle.usable peers env staleness oracle asset w = (heard, w') ∧
      observation = heard.map (fun q => q.taken target source) := by
  cases observed with
  | silent _ _ silent =>
    refine ⟨none,?_,rfl⟩
    simp only [Oracle.usable,quote,silent,Option.filter_none]
  | priceless decimals _ mid _ asked priceless =>
    refine ⟨none,?_,rfl⟩
    simp only [Oracle.usable,quote,asked,priceless,Option.filter_none]
  | unusable decimals raw _ mid _ asked told unusable =>
    refine ⟨none,?_,rfl⟩
    have useless : ¬ Quote.Usable ⟨decimals,raw.1,raw.2⟩ env staleness := by
      rintro ⟨positive,current⟩
      simp only at positive current
      omega
    simp only [Oracle.usable,quote,asked,told,Option.filter_some,decide_eq_false useless,Bool.false_eq_true,if_false]
  | usable decimals raw price _ mid _ asked told positive current scales =>
    refine ⟨some ⟨decimals,raw.1,raw.2⟩,?_,?_⟩
    · have useful : Quote.Usable ⟨decimals,raw.1,raw.2⟩ env staleness := ⟨positive,current⟩
      simp only [Oracle.usable,quote,asked,told,Option.filter_some,decide_eq_true useful,if_true]
    · rw [scaled_eq scales]
      rfl

/-- What the sources say in an update is what it hears. -/
theorem Surveyed.hears {s : World HelixOracleAdaptor W} {primary secondary : Option PriceData} {w : W}
    (surveyed : Surveyed peers env s asset target primary secondary w) :
    ∃ first second, Hears peers env s asset target first second w ∧
      primary = first.map (fun q => q.taken target .primary) ∧
      secondary = second.map (fun q => q.taken target .secondary) := by
  obtain ⟨mid,mid',chosen,observed,observed'⟩ := surveyed.steps
  obtain ⟨first,heard,rfl⟩ := observed.heard
  obtain ⟨second,heard',rfl⟩ := observed'.heard
  exact ⟨first,second,⟨mid,mid',chosen,heard,heard'⟩,rfl,rfl⟩

theorem usable_positive {staleness : Nat} {oracle : Address} {q : Quote} {w w' : W}
    (heard : usable peers env staleness oracle asset w = (some q, w')) : 0 < q.price := by
  have used : (quote peers env oracle asset w).1.filter (fun q => decide (q.Usable env staleness)) = some q :=
    congrArg Prod.fst heard
  have useful := (Option.filter_eq_some_iff.mp used).2
  exact (of_decide_eq_true useful).1

/-- Two positive prices that do not deviate blend to a positive one. -/
theorem blend_positive {threshold : Nat} {left right : Int} (deviates : Deviates threshold left right false) :
    0 < (left + right).tdiv 2 := by
  generalize near : false = exceeded at deviates
  cases deviates with
  | baseless => cases near
  | ratio _ positive _ =>
    have low : 0 < left := lt_of_lt_of_le positive (min_le_left _ _)
    have low' : 0 < right := lt_of_lt_of_le positive (min_le_right _ _)
    rw [Int.tdiv_eq_ediv_of_nonneg (by omega)]
    omega

end Rules

/-- A quote with fewer digits than the common decimals drop vanishes. -/
theorem Quote.scaled_zero {q : Quote} {target : Nat} (positive : 0 < q.price) (short : q.price < 10 ^ (q.decimals - target)) :
    q.scaled target = 0 := by
  have low : 0 ≤ q.scaled target := exactly_nonneg positive _ _
  by_contra other
  have left : 0 < q.scaled target := lt_of_le_of_ne low (Ne.symm other)
  exact absurd ((exactly_pos positive).mp left) (not_le.mpr short)

/-! ### Runs -/

section Runs
variable {W : Type} (peers : Peers W) (adaptor asset : Address)

/-- A call to update the price of an asset that hears one usable quote only, with
    more decimals than the common ones have, by so many that no digit is left. -/
structure Vanishes (r : Served W) : Prop where
  input : r.input.2 = .oracle (.update_price asset)
  heard : ∃ v target first second w q, r.before.state.own = some v ∧
    Hears peers (r.env adaptor) ⟨v,r.before.state.rest⟩ asset target first second w ∧
    ((first = some q ∧ second = none) ∨ (first = none ∧ second = some q)) ∧
    q.price < 10 ^ (q.decimals - target)

variable {peers adaptor asset}

/-- A recorded price is what the quotes that its update heard agree on. -/
theorem recording_hears {r : Served W} (makes : Makes (serve peers adaptor) r) {price : PriceData}
    (records : recording asset r = some price) :
    ∃ v target first second w, r.input.2 = .oracle (.update_price asset) ∧ r.before.state.own = some v ∧
      Hears peers (r.env adaptor) ⟨v,r.before.state.rest⟩ asset target first second w ∧
      Agreed v.deviation_threshold (first.map (fun q => q.taken target .primary))
        (second.map (fun q => q.taken target .secondary)) price := by
  cases turn_of_makes makes with
  | called entry event v v' input out found left effect =>
    have told : published r = event := by simp [published,out]
    unfold recording at records
    rw [told] at records
    generalize (⟨v',r.after.state.rest⟩ : World HelixOracleAdaptor W) = s' at effect
    cases effect with
    | safe_mode => cases records
    | update_price updated target primary secondary settled state w surveyed agreed next =>
      by_cases same : updated = asset
      · subst same
        simp only [if_true,Option.some.injEq] at records
        subst records
        obtain ⟨first,second,hears,rfl,rfl⟩ := surveyed.hears
        exact ⟨v,target,first,second,w,input,found,hears,agreed⟩
      · simp only [if_neg same] at records
        cases records
    | set_safe_mode => cases records
    | configure => cases records
  | initialised admin primary secondary vault input out missing left => simp [recording,published,out] at records
  | moved move input out own => simp [recording,published,out] at records
  | failed e out same => simp [recording,published,out] at records

/-- A price that is recorded when none vanishes is positive. -/
theorem recording_positive {r : Served W} (makes : Makes (serve peers adaptor) r) {price : PriceData}
    (records : recording asset r = some price) (kept : ¬ Vanishes peers adaptor asset r) : 0 < price.price := by
  obtain ⟨v,target,first,second,w,input,found,hears,agreed⟩ := recording_hears makes records
  obtain ⟨mid,mid',_,heard,heard'⟩ := id hears
  cases first with
  | none =>
    cases second with
    | none => cases agreed
    | some q =>
      cases agreed with
      | secondary =>
        have digits : 10 ^ (q.decimals - target) ≤ q.price := by
          by_contra short
          exact kept ⟨input,v,target,none,some q,w,q,found,hears,.inr ⟨rfl,rfl⟩,not_le.mp short⟩
        exact (exactly_pos (usable_positive heard')).mpr digits
  | some q =>
    cases second with
    | none =>
      cases agreed with
      | primary =>
        have digits : 10 ^ (q.decimals - target) ≤ q.price := by
          by_contra short
          exact kept ⟨input,v,target,some q,none,w,q,found,hears,.inl ⟨rfl,rfl⟩,not_le.mp short⟩
        exact (exactly_pos (usable_positive heard)).mpr digits
    | some q' =>
      cases agreed with
      | both _ _ deviates _ => exact blend_positive deviates

/-- A price that is taken from a source has 128 bits. -/
theorem Observed.fits (typed : Typed peers) {env : Env} {staleness target : Nat} {oracle : Address} {source : Source}
    {price : PriceData} {w w' : W}
    (observed : Observed peers env staleness oracle asset target source (some price) w w') : Fits price.price := by
  cases observed with
  | usable decimals raw _ _ _ _ _ told positive _ scales =>
    exact ((scaled_some positive (typed _ _ _ _ _ told)).mp scales).1.elim (fun low high => by
      rw [scaled_eq scales]
      exact ⟨low,high⟩)

/-- So has one that the sources agree on. -/
theorem Agreed.fits (typed : Typed peers) {env : Env} {s : World HelixOracleAdaptor W} {target threshold : Nat}
    {primary secondary : Option PriceData} {price : PriceData} {w : W}
    (surveyed : Surveyed peers env s asset target primary secondary w) (agreed : Agreed threshold primary secondary price) :
    Fits price.price := by
  obtain ⟨mid,mid',_,observed,observed'⟩ := surveyed.steps
  cases agreed with
  | both left right deviates sum =>
    have positive := blend_positive deviates
    have nonneg : 0 ≤ left.price + right.price := (pos_of_tdiv (by decide) positive).le
    refine fits_zero.between sum positive.le ?_
    rw [Int.tdiv_eq_ediv_of_nonneg nonneg]
    exact Int.ediv_le_self _ nonneg
  | primary => exact observed.fits typed
  | secondary => exact observed'.fits typed

/-- The stored sum has 128 bits. -/
def SumFits (asset : Address) (c : Chain (State W)) : Prop :=
  ∀ lease, (stored asset c).1 = some lease → Fits lease.value.cumulative_price

theorem sumFits_kept (typed : Typed peers) {r : Served W} (makes : Makes (serve peers adaptor) r)
    (held : SumFits asset r.before) : SumFits asset r.after := by
  cases sampled_of_makes asset makes with
  | recorded v target primary secondary price state w found left surveyed agreed next told =>
    intro lease entry
    simp only [stored,left,HelixOracleAdaptor.recorded,if_true,Option.some.injEq] at entry
    rw [← entry,renewed_value]
    cases next with
    | reset => exact agreed.fits typed surveyed
    | sample _ fits => exact fits
  | idle _ entries =>
    unfold SumFits
    rw [entries]
    exact held

/-- A call whose only quote vanishes records a price of zero. -/
theorem vanishes_recorded (typed : Typed peers) {r : Served W} (makes : Makes (serve peers adaptor) r)
    (held : SumFits asset r.before) (vanishes : Vanishes peers adaptor asset r) :
    ∃ price, recording asset r = some price ∧ price.price = 0 := by
  obtain ⟨input,v,target,first,second,w,q,found,hears,only,short⟩ := vanishes
  have room : v.Room (r.env adaptor) asset 0 := by
    right; right
    unfold HelixOracleAdaptor.twap
    rw [add_zero]
    cases live : Lease.read (r.env adaptor).sequence (v.twap_state asset) with
    | none => exact fits_zero
    | some state =>
      obtain ⟨lease,entry,rfl,_⟩ := Lease.read_some live
      exact held lease (by simp only [stored,found,entry])
  obtain ⟨state,next⟩ := room_iff.mp room
  obtain ⟨mid,mid',_,heard,heard'⟩ := id hears
  have positive : 0 < q.price := by
    rcases only with ⟨rfl,_⟩ | ⟨_,rfl⟩
    · exact usable_positive heard
    · exact usable_positive heard'
  have zero : q.scaled target = 0 := Quote.scaled_zero positive short
  have fits : ∀ q', some q = some q' → Fits (q'.scaled target) := by
    rintro _ ⟨⟩
    rw [zero]
    exact fits_zero
  rw [← zero] at next
  -- The update takes the quote alone.
  have updated : ∃ source, update_price peers (r.env adaptor) asset ⟨v,r.before.state.rest⟩ =
      .ok (some (.price_update asset (q.scaled target) q.timestamp source state.num_samples),
        ⟨v.recorded (r.env adaptor) asset (q.taken target source) state,w⟩) := by
    rcases only with ⟨rfl,rfl⟩ | ⟨rfl,rfl⟩
    · have agreed : Agreed v.deviation_threshold (some (q.taken target .primary)) none _ := .primary _
      exact ⟨.primary,(update_price_hears typed hears).mpr ⟨fits,by simp,agreed.settled next⟩⟩
    · have agreed : Agreed v.deviation_threshold none (some (q.taken target .secondary)) _ := .secondary _
      exact ⟨.secondary,(update_price_hears typed hears).mpr ⟨by simp,fits,agreed.settled next⟩⟩
  obtain ⟨source,done⟩ := updated
  have called : call peers (r.env adaptor) (.update_price asset) ⟨v,r.before.state.rest⟩ = _ := done
  have ran := invoke_of_call found called
  have delivered := Delivery.returns makes (show act peers (r.env adaptor) r.input.2 r.before.state = _ by
    rw [input]
    exact ran)
  exact ⟨q.taken target source,by simp [recording,published,delivered.1,Quote.taken],zero⟩

end Runs

/-- The sum of positive numbers, by their count or less, is positive. -/
theorem average_positive {numbers : List Int} {count : Nat} (all : ∀ x ∈ numbers, 0 < x) (positive : 0 < count)
    (few : count ≤ numbers.length) : 0 < numbers.sum.tdiv count := by
  have least := numbers.card_nsmul_le_sum 1 all
  rw [nsmul_eq_mul,mul_one] at least
  have enough : (1 : Int) * count ≤ numbers.sum := by omega
  rw [Int.tdiv_eq_ediv_of_nonneg (by omega)]
  exact (Int.le_ediv_iff_mul_le (by omega)).mpr enough

/-- In every run: all prices that are recorded for an asset are positive exactly if
    no update of it hears one usable quote only whose digits all vanish; and if they
    are, every price that `lastprice` answers is positive. -/
theorem recorded_positive_iff {W : Type} (peers : Peers W) (typed : Typed peers) (adaptor : Address) (clock : Clock) (w : W)
    (calls : List (Origin × Action W)) (asset : Address) :
    let past := trace (serve peers adaptor) (undeployed clock w) calls
    let now := (run (serve peers adaptor) (undeployed clock w) calls).state
    ((∀ x ∈ recorded asset past, 0 < x.price.price) ↔ ∀ r ∈ past, ¬ Vanishes peers adaptor asset r) ∧
      ((∀ x ∈ recorded asset past, 0 < x.price.price) →
        ∀ env price timestamp, answer (lastprice env asset) now = some (price, timestamp) → 0 < price) := by
  intro past now
  refine ⟨⟨?_,?_⟩,?_⟩
  · intro positive r member vanishes
    have held := trace_invariant (serve peers adaptor) (SumFits asset) calls (by rintro lease ⟨⟩)
      (fun r _ makes held => sumFits_kept typed makes held) r member
    obtain ⟨price,records,zero⟩ := vanishes_recorded typed (trace_makes member) held vanishes
    have some : 0 < price.price := positive ⟨r,price⟩ (mem_recorded.mpr ⟨member,records⟩)
    omega
  · intro kept x recorded
    obtain ⟨member,records⟩ := mem_recorded.mp recorded
    exact recording_positive (trace_makes member) records (kept x.update member)
  · intro positive env price timestamp shown
    obtain ⟨v,_,found,priced⟩ := answer_some shown
    have averages := serve_averages peers adaptor clock w calls asset
    rw [← gathered_eq,stored,found] at averages
    obtain ⟨average,earlier,last,split,_⟩ := averages.shown priced
    have some : 0 < (gathered adaptor asset past).length := by rw [split,List.length_append,List.length_singleton]; omega
    have all : ∀ x ∈ (gathered adaptor asset past).map (fun x => x.price.price), 0 < x := by
      intro p member
      obtain ⟨x,inside,rfl⟩ := List.mem_map.mp member
      exact positive x (gathered_recorded inside)
    rw [show price = _ from average]
    exact average_positive all (lt_min some (by decide)) (by rw [List.length_map]; exact min_le_left _ _)

namespace Small

/-- Sources of which the first has 7 decimals and no price, and the second some price
    in 14 decimals. -/
def lone (price : Int) : Peers Unit where
  decimals env _ w := (some (if env.current_contract_address = primary_oracle then 7 else 14), w)
  lastprice env _ w :=
    (if env.current_contract_address = primary_oracle then none else some (price, env.timestamp), w)
  pause_by _ _ w := some ((), w)
  unpause_by _ _ w := some ((), w)

theorem lone_typed {price : Int} (fits : Fits price) : Typed (lone price) := by
  intro env asset w raw w' told
  simp only [lone,Prod.mk.injEq,Option.ite_none_left_eq_some,Option.some.injEq] at told
  rw [← told.1.2]
  exact fits

/-- An adaptor that is initialized and asked to update the price. -/
def lonely : List (Origin × Action Unit) :=
  [(.signedBy admin,.oracle (.initialise admin primary_oracle secondary_oracle vault)),
    (.signedBy keeper,.oracle (.update_price asset))]

end Small

/-- Two in 14 decimals is two in the 7 decimals of the first source. -/
theorem recorded_positive_two :
    (recorded Small.asset (trace (serve (Small.lone 200000000000000) Small.adaptor) (undeployed ⟨0,0⟩ ())
        Small.lonely)).map (fun x => x.price) = [⟨20000000,10,.secondary⟩] ∧
      ∀ env price timestamp, answer (lastprice env Small.asset)
        (run (serve (Small.lone 200000000000000) Small.adaptor) (undeployed ⟨0,0⟩ ()) Small.lonely).state =
          some (price, timestamp) → 0 < price := by
  have both := recorded_positive_iff (Small.lone 200000000000000) (Small.lone_typed (by decide)) Small.adaptor ⟨0,0⟩ ()
    Small.lonely Small.asset
  exact ⟨by decide +kernel,both.2 (by decide +kernel)⟩

/-- A millionth of a millionth, in 14 decimals, is nothing in 7: it is recorded as
    zero, and served. -/
theorem zero_recorded :
    (recorded Small.asset (trace (serve (Small.lone 100) Small.adaptor) (undeployed ⟨0,0⟩ ()) Small.lonely)).map
        (fun x => x.price) = [⟨0,10,.secondary⟩] ∧
      answer (lastprice ((Origin.signedBy Small.keeper).env ⟨3,15⟩ Small.adaptor) Small.asset)
        (run (serve (Small.lone 100) Small.adaptor) (undeployed ⟨0,0⟩ ()) Small.lonely).state = some (0, 10) := by
  decide +kernel

end Helix.Oracle
