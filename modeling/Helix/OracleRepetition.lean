import Mathlib.Algebra.Order.BigOperators.Group.List
import Helix.OracleDeviation
import Helix.OracleUnits

/-!
Repeating an update within a ledger. As long as the sources answer the same, every
call offers the same price to the average, and each takes it in once more: the
average counts calls, not time. The served average stays what the first call made
it exactly where the further samples do not differ from it by more than its
rounding (`repetition_iff`).
-/
namespace Helix.Oracle
open Invoke

/-! ### Sources that do not change -/

/-- A call comes in at this ledger. -/
structure InLedger (ledger : Clock) (e : Env) : Prop where
  sequence : e.sequence = ledger.sequence
  timestamp : e.timestamp = ledger.timestamp

/-- Within a ledger the sources answer the same: the decimals and the price that
    each tells of the asset are fixed while what is outside is `quiet`, which it
    stays when they are asked and when the vault is paused. -/
structure Unchanged {W : Type} (peers : Peers W) (asset : Address) (ledger : Clock) (decimals : Address → Option Nat)
    (last : Address → Option (Int × Nat)) (quiet : W → Prop) : Prop where
  asked : ∀ e w, InLedger ledger e → quiet w →
    (peers.decimals e asset w).1 = decimals e.current_contract_address ∧ quiet (peers.decimals e asset w).2
  told : ∀ e w, InLedger ledger e → quiet w →
    (peers.lastprice e asset w).1 = last e.current_contract_address ∧ quiet (peers.lastprice e asset w).2
  paused : ∀ e caller w w', quiet w → peers.pause_by e caller w = some ((), w') → quiet w'

/-- Two adaptors with the same settings. -/
structure Alike (v v' : HelixOracleAdaptor) : Prop where
  primary : v'.primary_oracle = v.primary_oracle
  secondary : v'.secondary_oracle = v.secondary_oracle
  window : v'.twap_window = v.twap_window
  staleness : v'.staleness_threshold = v.staleness_threshold
  deviation : v'.deviation_threshold = v.deviation_threshold

theorem Alike.refl (v : HelixOracleAdaptor) : Alike v v := ⟨rfl,rfl,rfl,rfl,rfl⟩

theorem Alike.trans {v v' v'' : HelixOracleAdaptor} (first : Alike v v') (second : Alike v' v'') : Alike v v'' :=
  ⟨second.primary.trans first.primary,second.secondary.trans first.secondary,second.window.trans first.window,
    second.staleness.trans first.staleness,second.deviation.trans first.deviation⟩

section Sources
variable {W : Type} {peers : Peers W} {asset : Address} {ledger : Clock} {decimals : Address → Option Nat}
  {last : Address → Option (Int × Nat)} {quiet : W → Prop} {e e' : Env} {w w' : W}

namespace Unchanged

/-- What a source answers of its decimals it answers again. -/
theorem asks {oracle : Address} {answer : Option Nat} (unchanged : Unchanged peers asset ledger decimals last quiet)
    (inside : InLedger ledger e) (inside' : InLedger ledger e') (calm : quiet w)
    (asked : peers.decimals (e.calling oracle) asset w = (answer, w')) :
    quiet w' ∧ ∀ u, quiet u → ∃ u', quiet u' ∧ peers.decimals (e'.calling oracle) asset u = (answer, u') := by
  obtain ⟨same,calm'⟩ := unchanged.asked (e.calling oracle) w ⟨inside.sequence,inside.timestamp⟩ calm
  rw [asked] at same calm'
  refine ⟨calm',?_⟩
  intro u calm_u
  obtain ⟨same',calm_u'⟩ := unchanged.asked (e'.calling oracle) u ⟨inside'.sequence,inside'.timestamp⟩ calm_u
  exact ⟨_,calm_u',Prod.ext (same'.trans same.symm) rfl⟩

/-- What a source answers of its decimals and its price it answers again. -/
theorem quotes {oracle : Address} {answer : Option Nat} {quote : Option (Int × Nat)} {mid : W}
    (unchanged : Unchanged peers asset ledger decimals last quiet) (inside : InLedger ledger e)
    (inside' : InLedger ledger e') (calm : quiet w)
    (asked : peers.decimals (e.calling oracle) asset w = (answer, mid))
    (told : peers.lastprice (e.calling oracle) asset mid = (quote, w')) :
    quiet w' ∧ ∀ u, quiet u → ∃ mid' u', peers.decimals (e'.calling oracle) asset u = (answer, mid') ∧
      peers.lastprice (e'.calling oracle) asset mid' = (quote, u') := by
  obtain ⟨calm_mid,again⟩ := unchanged.asks inside inside' calm asked
  obtain ⟨same,calm'⟩ := unchanged.told (e.calling oracle) mid ⟨inside.sequence,inside.timestamp⟩ calm_mid
  rw [told] at same calm'
  refine ⟨calm',?_⟩
  intro u calm_u
  obtain ⟨mid',calm_mid',asked'⟩ := again u calm_u
  obtain ⟨same',_⟩ := unchanged.told (e'.calling oracle) mid' ⟨inside'.sequence,inside'.timestamp⟩ calm_mid'
  exact ⟨mid',(peers.lastprice (e'.calling oracle) asset mid').2,asked',Prod.ext (same'.trans same.symm) rfl⟩

/-- The common decimals are the same in every call. -/
theorem target {v v' : HelixOracleAdaptor} {target : Nat} (unchanged : Unchanged peers asset ledger decimals last quiet)
    (inside : InLedger ledger e) (inside' : InLedger ledger e') (alike : Alike v v') (calm : quiet w)
    (chosen : Target peers e v asset target w w') :
    quiet w' ∧ ∀ u, quiet u → ∃ u', Target peers e' v' asset target u u' := by
  cases chosen with
  | primary _ answered =>
    obtain ⟨calm',again⟩ := unchanged.asks inside inside' calm answered
    refine ⟨calm',?_⟩
    intro u calm_u
    obtain ⟨u',_,answered'⟩ := again u calm_u
    exact ⟨u',.primary target u u' (by rw [alike.primary]; exact answered')⟩
  | secondary mid _ silent answered =>
    obtain ⟨calm_mid,again⟩ := unchanged.asks inside inside' calm silent
    obtain ⟨calm',again'⟩ := unchanged.asks inside inside' calm_mid answered
    refine ⟨calm',?_⟩
    intro u calm_u
    obtain ⟨mid',calm_mid',silent'⟩ := again u calm_u
    obtain ⟨u',_,answered'⟩ := again' mid' calm_mid'
    exact ⟨u',.secondary target u mid' u' (by rw [alike.primary]; exact silent')
      (by rw [alike.secondary]; exact answered')⟩

/-- What is taken from a source is the same in every call. -/
theorem observed {staleness target : Nat} {oracle : Address} {source : Source} {observation : Option PriceData}
    (unchanged : Unchanged peers asset ledger decimals last quiet) (inside : InLedger ledger e)
    (inside' : InLedger ledger e') (calm : quiet w)
    (observed : Observed peers e staleness oracle asset target source observation w w') :
    quiet w' ∧ ∀ u, quiet u → ∃ u', Observed peers e' staleness oracle asset target source observation u u' := by
  have now : e'.timestamp = e.timestamp := inside'.timestamp.trans inside.timestamp.symm
  cases observed with
  | silent _ _ silent =>
    obtain ⟨calm',again⟩ := unchanged.asks inside inside' calm silent
    refine ⟨calm',?_⟩
    intro u calm_u
    obtain ⟨u',_,silent'⟩ := again u calm_u
    exact ⟨u',.silent u u' silent'⟩
  | priceless found _ mid _ asked priceless =>
    obtain ⟨calm',again⟩ := unchanged.quotes inside inside' calm asked priceless
    refine ⟨calm',?_⟩
    intro u calm_u
    obtain ⟨mid',u',asked',priceless'⟩ := again u calm_u
    exact ⟨u',.priceless found u mid' u' asked' priceless'⟩
  | unusable found raw _ mid _ asked quote unusable =>
    obtain ⟨calm',again⟩ := unchanged.quotes inside inside' calm asked quote
    refine ⟨calm',?_⟩
    intro u calm_u
    obtain ⟨mid',u',asked',quote'⟩ := again u calm_u
    exact ⟨u',.unusable found raw u mid' u' asked' quote' (by rw [now]; exact unusable)⟩
  | usable found raw price _ mid _ asked quote positive current scales =>
    obtain ⟨calm',again⟩ := unchanged.quotes inside inside' calm asked quote
    refine ⟨calm',?_⟩
    intro u calm_u
    obtain ⟨mid',u',asked',quote'⟩ := again u calm_u
    exact ⟨u',.usable found raw price u mid' u' asked' quote' positive (by rw [now]; exact current) scales⟩

/-- What the sources say is the same in every call. -/
theorem surveyed {v v' : HelixOracleAdaptor} {target : Nat} {primary secondary : Option PriceData}
    (unchanged : Unchanged peers asset ledger decimals last quiet) (inside : InLedger ledger e)
    (inside' : InLedger ledger e') (alike : Alike v v') (calm : quiet w)
    (surveyed : Surveyed peers e ⟨v,w⟩ asset target primary secondary w') :
    quiet w' ∧ ∀ u, quiet u → ∃ u', Surveyed peers e' ⟨v',u⟩ asset target primary secondary u' := by
  obtain ⟨first,second,chosen,observed,observed'⟩ := surveyed.steps
  obtain ⟨calm_first,chooses⟩ := unchanged.target inside inside' alike calm chosen
  obtain ⟨calm_second,observes⟩ := unchanged.observed inside inside' calm_first observed
  obtain ⟨calm_last,observes'⟩ := unchanged.observed inside inside' calm_second observed'
  refine ⟨calm_last,?_⟩
  intro u calm_u
  obtain ⟨first',chosen'⟩ := chooses u calm_u
  obtain ⟨calm_first',_⟩ := unchanged.target inside' inside' (.refl v') calm_u chosen'
  obtain ⟨second',again⟩ := observes first' calm_first'
  obtain ⟨calm_second',_⟩ := unchanged.observed inside' inside' calm_first' again
  obtain ⟨u',again'⟩ := observes' second' calm_second'
  refine ⟨u',⟨first',second',chosen',?_,?_⟩⟩
  · simp only [alike.staleness,alike.primary]
    exact again
  · simp only [alike.staleness,alike.secondary]
    exact again'

end Unchanged
end Sources

/-! ### The price that the sources offer -/

/-- The sources agree on a price for the asset. -/
def Offers {W : Type} (peers : Peers W) (e : Env) (v : HelixOracleAdaptor) (asset : Address) (w : W)
    (price : PriceData) : Prop :=
  ∃ target primary secondary w', Surveyed peers e ⟨v,w⟩ asset target primary secondary w' ∧
    Agreed v.deviation_threshold primary secondary price

section Offered
variable {W : Type} {peers : Peers W} {e : Env} {v : HelixOracleAdaptor} {asset : Address} {w w' : W}
  {price : PriceData} {target : Nat} {primary secondary : Option PriceData}

theorem scale_up_nonneg {scale : Nat} {p q : Int} (nonneg : 0 ≤ p) (scales : scale_up scale p = some q) : 0 ≤ q := by
  induction scale generalizing p with
  | zero =>
    cases scales
    exact nonneg
  | succ scale ih =>
    obtain ⟨tenfold,product,rest⟩ := Option.bind_eq_some_iff.mp scales
    obtain ⟨_,rfl⟩ := Checked.mul_some.mp product
    exact ih (by omega) rest

theorem scaled_nonneg {p q : Int} {decimals : Nat} (nonneg : 0 ≤ p) (scales : scaled p decimals target = some q) :
    0 ≤ q := by
  unfold scaled at scales
  split at scales
  · cases scales
    exact nonneg
  · split at scales
    · exact scale_up_nonneg nonneg scales
    · cases scales
      exact (scale_down_within _ nonneg).1

/-- What is taken from a source is not negative, and fresh. -/
theorem Observed.sound {staleness : Nat} {oracle : Address} {source : Source}
    (observed : Observed peers e staleness oracle asset target source (some price) w w') :
    0 ≤ price.price ∧ e.timestamp - price.timestamp ≤ staleness := by
  cases observed with
  | usable decimals raw scaled_price _ mid _ asked quote positive current scales =>
    exact ⟨scaled_nonneg positive.le scales,current⟩

/-- So is what the sources offer. -/
theorem Offers.sound (offers : Offers peers e v asset w price) :
    0 ≤ price.price ∧ e.timestamp - price.timestamp ≤ v.staleness_threshold := by
  obtain ⟨target,primary,secondary,w',⟨first,second,_,observed,observed'⟩,agreed⟩ := offers
  cases agreed with
  | primary => exact observed.sound
  | secondary => exact observed'.sound
  | both primary secondary deviates fits =>
    obtain ⟨nonneg,current⟩ := observed.sound
    obtain ⟨nonneg',current'⟩ := observed'.sound
    refine ⟨Int.tdiv_nonneg (by omega) (by decide),?_⟩
    dsimp only at current current' ⊢
    omega

/-- What the sources say in a call is determined. -/
theorem Surveyed.unique {target' : Nat} {primary' secondary' : Option PriceData} {w'' : W}
    (one : Surveyed peers e ⟨v,w⟩ asset target primary secondary w')
    (other : Surveyed peers e ⟨v,w⟩ asset target' primary' secondary' w'') :
    primary = primary' ∧ secondary = secondary' := by
  obtain ⟨first,second,chosen,observed,observed'⟩ := one
  obtain ⟨first',second',chosen',again,again'⟩ := other
  obtain ⟨rfl,rfl⟩ := chosen.unique chosen'
  have same := Except.ok.inj (observed.fetched.symm.trans again.fetched)
  simp only [Prod.mk.injEq,World.mk.injEq,true_and] at same
  obtain ⟨rfl,rfl⟩ := same
  have same' := Except.ok.inj (observed'.fetched.symm.trans again'.fetched)
  simp only [Prod.mk.injEq] at same'
  exact ⟨rfl,same'.1⟩

/-- The sources agree on one price at most. -/
theorem Offers.unique {price' : PriceData} (one : Offers peers e v asset w price)
    (other : Offers peers e v asset w price') : price = price' := by
  obtain ⟨_,_,_,_,surveyed,agreed⟩ := one
  obtain ⟨_,_,_,_,surveyed',agreed'⟩ := other
  obtain ⟨rfl,rfl⟩ := surveyed.unique surveyed'
  cases agreed with
  | both => cases agreed'; rfl
  | primary => cases agreed'; rfl
  | secondary => cases agreed'; rfl

/-- An offered price that the average takes in is recorded. -/
theorem Offers.recorded {state : TWAPData} (offers : Offers peers e v asset w price)
    (next : Next e.timestamp v.twap_window (v.twap e asset) price.price state) :
    ∃ w', update_price peers e asset ⟨v,w⟩ =
      .ok (some (.price_update asset price.price price.timestamp price.source state.num_samples),
        ⟨v.recorded e asset price state,w'⟩) := by
  obtain ⟨target,primary,secondary,w',⟨first,second,chosen,observed,observed'⟩,agreed⟩ := offers
  refine ⟨w',?_⟩
  have decides := (canonical_decimals_ok (s := ⟨v,w⟩) (r := (target,⟨v,first⟩))).mpr ⟨first,chosen,rfl⟩
  simp only [update_price,bind_ok,load_ok,exists_eq_left,Prod.exists]
  exact ⟨target,_,decides,_,_,observed.fetched,_,_,observed'.fetched,agreed.settled next⟩

/-- Within a ledger the sources offer the same price. -/
theorem Offers.again {ledger : Clock} {decimals : Address → Option Nat} {last : Address → Option (Int × Nat)}
    {quiet : W → Prop} {e' : Env} {v' : HelixOracleAdaptor} {u : W}
    (unchanged : Unchanged peers asset ledger decimals last quiet) (inside : InLedger ledger e)
    (inside' : InLedger ledger e') (alike : Alike v v') (calm : quiet w) (calm_u : quiet u)
    (offers : Offers peers e v asset w price) : Offers peers e' v' asset u price := by
  obtain ⟨target,primary,secondary,w',surveyed,agreed⟩ := offers
  obtain ⟨u',surveyed'⟩ := (unchanged.surveyed inside inside' alike calm surveyed).2 u calm_u
  exact ⟨target,primary,secondary,u',surveyed',by rw [alike.deviation]; exact agreed⟩

end Offered

/-! ### Resampling -/

/-- The state of an average after a call that offers a price: a sum that does not
    fit fails the call. -/
def resample (now window : Nat) (price : Int) (state : TWAPData) : TWAPData :=
  if state.num_samples = 0 ∨ window ≤ now - state.window_start then ⟨price,1,now⟩
  else if Fits (state.cumulative_price + price) then
    ⟨state.cumulative_price + price,if state.num_samples < u32Max then state.num_samples + 1 else u32Max,
      state.window_start⟩
  else state

/-- How many of so many further calls add a price to a sum. -/
def taken (price : Int) : Nat → Int → Nat
  | 0, _ => 0
  | k + 1, sum => if Fits (sum + price) then taken price k (sum + price) + 1 else 0

/-- Taking a price in so many times again moves the average by less than its
    rounding. -/
def Balanced (sum : Int) (count : Nat) (price : Int) (k : Nat) : Prop :=
  let again := taken price k sum
  let total := min (count + again) u32Max
  let drift := sum % count + again * price - sum / count * (total - count : Int)
  0 ≤ drift ∧ drift < total

instance (sum : Int) (count : Nat) (price : Int) (k : Nat) : Decidable (Balanced sum count price k) :=
  inferInstanceAs (Decidable (_ ∧ _))

/-- An average whose window is running, and whose sum and count are sound. -/
structure Running (now window : Nat) (state : TWAPData) : Prop where
  current : ¬ (state.num_samples = 0 ∨ window ≤ now - state.window_start)
  few : state.num_samples ≤ u32Max

section Resampling
variable {now window : Nat} {price : Int} {state state' : TWAPData}

theorem Next.resampled (next : Next now window state price state') : resample now window price state = state' := by
  cases next with
  | reset ended => exact if_pos ended
  | sample running fits => rw [resample,if_neg running,if_pos fits]

theorem resample_idle (stuck : ∀ state', ¬ Next now window state price state') :
    resample now window price state = state := by
  have running : ¬ (state.num_samples = 0 ∨ window ≤ now - state.window_start) := fun ended => stuck _ (.reset ended)
  have large : ¬ Fits (state.cumulative_price + price) := fun fits => stuck _ (.sample running fits)
  rw [resample,if_neg running,if_neg large]

/-- Without a window, every call begins the average anew. -/
theorem resample_anew (next : Next now 0 state price state') (k : Nat) :
    (resample now 0 price)^[k] state' = state' := by
  have anew : ∀ state, resample now 0 price state = ⟨price,1,now⟩ := fun state => if_pos (.inr (Nat.zero_le _))
  have first : state' = ⟨price,1,now⟩ := next.resampled.symm.trans (anew state)
  exact Function.iterate_fixed (by rw [first]; exact anew _) k

theorem Running.sampled (running : Running now window state) : Running now window
    ⟨state.cumulative_price + price,if state.num_samples < u32Max then state.num_samples + 1 else u32Max,
      state.window_start⟩ := by
  obtain ⟨current,few⟩ := running
  have large : 0 < u32Max := by decide
  constructor
  · dsimp only
    split <;> omega
  · dsimp only
    split <;> omega

/-- In a running window, the sum and the count grow with each call until the sum
    does not fit any more. -/
theorem Running.resampled (running : Running now window state) (k : Nat) : (resample now window price)^[k] state =
    ⟨state.cumulative_price + taken price k state.cumulative_price * price,
      min (state.num_samples + taken price k state.cumulative_price) u32Max,state.window_start⟩ := by
  have few := running.few
  induction k generalizing state with
  | zero => simp [taken,few]
  | succ k ih =>
    by_cases fits : Fits (state.cumulative_price + price)
    · rw [Function.iterate_succ_apply,(Next.sample running.current fits).resampled,
        ih running.sampled running.sampled.few]
      simp only [taken,if_pos fits,TWAPData.mk.injEq,and_true]
      refine ⟨by push_cast; rw [add_mul,one_mul]; omega,?_⟩
      split <;> omega
    · have stays : resample now window price state = state := by
        rw [resample,if_neg running.current,if_neg fits]
      rw [Function.iterate_fixed stays]
      simp [taken,fits,few]

/-- Two averages are the same exactly if the first one balances the further
    samples. -/
theorem balanced_iff {sum : Int} {count k : Nat} (nonneg : 0 ≤ sum) (nonneg' : 0 ≤ price) (some : 0 < count) :
    (sum + taken price k sum * price).tdiv (min (count + taken price k sum) u32Max : Nat) = sum.tdiv count ↔
      Balanced sum count price k := by
  unfold Balanced
  dsimp only
  generalize taken price k sum = again
  have more : 0 < min (count + again) u32Max := lt_min (by omega) (by decide)
  generalize min (count + again) u32Max = total at more ⊢
  have grown : 0 ≤ sum + again * price := Int.add_nonneg nonneg (Int.mul_nonneg (Int.natCast_nonneg _) nonneg')
  rw [Int.tdiv_eq_ediv_of_nonneg grown,Int.tdiv_eq_ediv_of_nonneg nonneg]
  have split := Int.emod_add_mul_ediv sum count
  generalize sum / (count : Int) = average at split ⊢
  generalize sum % (count : Int) = rest at split ⊢
  have drifts : rest + again * price - average * (total - count : Int) = sum + again * price - total * average := by
    rw [← split,mul_sub,mul_comm average,mul_comm average]
    omega
  rw [Int.ediv_eq_iff_of_pos (by omega)]
  simp only [drifts,mul_comm (total : Int) average]
  omega

end Resampling

/-! ### What a ledger shows -/

/-- The cached price and the average of an asset that a ledger shows. -/
structure Held (ledger : Clock) (asset : Address) (v : HelixOracleAdaptor) (price : PriceData) (state : TWAPData) :
    Prop where
  cached : Lease.read ledger.sequence (v.cached_price asset) = some price
  running : Lease.read ledger.sequence (v.twap_state asset) = some state

section Shown
variable {W : Type} {ledger : Clock} {asset : Address} {v : HelixOracleAdaptor} {price : PriceData} {state : TWAPData}
  {e : Env}

/-- An entry that is written is there for the rest of the ledger. -/
theorem renewed_read {α : Type} (entry : Option (Lease α)) (value : α) :
    Lease.read e.sequence (some (renewed e entry value)) = some value := by
  have lives : e.sequence ≤ (renewed e entry value).live_until := by
    unfold renewed Lease.extend_ttl
    split
    · exact Nat.le_add_right _ _
    · unfold TTL_THRESHOLD at *
      omega
  simp only [Lease.read,if_pos lives,renewed_value]

theorem Held.recorded (inside : InLedger ledger e) :
    Held ledger asset (v.recorded e asset price state) price state := by
  constructor <;> simp only [HelixOracleAdaptor.recorded,if_true,← inside.sequence,renewed_read]

theorem Held.twap (held : Held ledger asset v price state) (inside : InLedger ledger e) : v.twap e asset = state := by
  rw [HelixOracleAdaptor.twap,inside.sequence,held.running,Option.getD_some]

/-- What is served of it. -/
theorem Held.shown (held : Held ledger asset v price state) (inside : InLedger ledger e) {s : State W}
    (found : s.own = some v) (current : e.timestamp - price.timestamp ≤ v.staleness_threshold) :
    answer (lastprice e asset) s = some (average price (some state)) := by
  have serves := (lastprice_ok (s := ⟨v,s.rest⟩) (r := (average price (some state),⟨v,s.rest⟩))).mpr
    ⟨price,by rw [inside.sequence]; exact held.cached,current,by rw [inside.sequence,held.running]⟩
  simp only [answer,found,serves]

end Shown

/-- What is served depends on the adaptor's storage only. -/
theorem lastprice_own {W : Type} (e : Env) (asset : Address) {s s' : State W} (same : s'.own = s.own) :
    answer (lastprice e asset) s' = answer (lastprice e asset) s := by
  have told : ∀ (s s' : State W) (price : Int × Nat), s'.own = s.own → answer (lastprice e asset) s = some price →
      answer (lastprice e asset) s' = some price := by
    intro s s' price same shown
    obtain ⟨v,_,found,priced⟩ := answer_some shown
    obtain ⟨cached,live,current,ran⟩ := lastprice_ok.mp priced
    rw [Prod.mk.injEq] at ran
    have serves := (lastprice_ok (s := ⟨v,s'.rest⟩) (r := (price,⟨v,s'.rest⟩))).mpr
      ⟨cached,live,current,by rw [ran.1]⟩
    simp only [answer,same,found,serves]
  refine Option.ext (fun price => ?_)
  exact ⟨told s' s price same.symm,told s s' price same⟩

/-! ### Further calls in the ledger -/

/-- Somebody asks to update the price of the asset. -/
def updating {W : Type} (asset : Address) (origin : Origin) : Origin × Action W :=
  (origin,.oracle (.update_price asset))

theorem recorded_alike (v : HelixOracleAdaptor) (e : Env) (asset : Address) (price : PriceData) (state : TWAPData) :
    Alike v (v.recorded e asset price state) := ⟨rfl,rfl,rfl,rfl,rfl⟩

section Delivered
variable {W : Type} {peers : Peers W} {adaptor asset : Address} {ledger : Clock} {decimals : Address → Option Nat}
  {last : Address → Option (Int × Nat)} {quiet : W → Prop} {r : Served W} {v : HelixOracleAdaptor} {price : PriceData}
  {state : TWAPData}

/-- A delivered update records a price that the sources offer, or nothing. -/
theorem update_turn (makes : Makes (serve peers adaptor) r) (input : r.input.2 = .oracle (.update_price asset))
    (unchanged : Unchanged peers asset ledger decimals last quiet) (inside : InLedger ledger (r.env adaptor))
    (calm : quiet r.before.state.rest) : quiet r.after.state.rest ∧ (r.after.state.own = r.before.state.own ∨
      ∃ v price state, r.before.state.own = some v ∧
        r.after.state.own = some (v.recorded (r.env adaptor) asset price state) ∧
        Offers peers (r.env adaptor) v asset r.before.state.rest price ∧
        Next (r.env adaptor).timestamp v.twap_window (v.twap (r.env adaptor) asset) price.price state) := by
  cases turn_of_makes makes with
  | called entry event v v' asked out found left effect =>
    rw [input,Action.oracle.injEq] at asked
    subst asked
    generalize after : (⟨v',r.after.state.rest⟩ : World HelixOracleAdaptor W) = s' at effect
    have own : v' = s'.own := by rw [← after]
    have rest : r.after.state.rest = s'.rest := by rw [← after]
    rw [left,rest,own,found]
    cases effect with
    | safe_mode _ target primary secondary w w' surveyed deviates paused =>
      have calm' := (unchanged.surveyed inside inside (.refl v) calm surveyed).1
      exact ⟨unchanged.paused _ _ _ _ calm' paused,.inl rfl⟩
    | update_price _ target primary secondary price state w surveyed agreed next =>
      have calm' := (unchanged.surveyed inside inside (.refl v) calm surveyed).1
      exact ⟨calm',.inr ⟨v,price,state,rfl,rfl,⟨target,primary,secondary,w,surveyed,agreed⟩,next⟩⟩
  | initialised admin primary secondary vault asked out missing left =>
    rw [input] at asked
    cases asked
  | moved move asked out own =>
    rw [input] at asked
    cases asked
  | failed e out same =>
    rw [same]
    exact ⟨calm,.inl rfl⟩

/-- An offered price that the average takes in is recorded. -/
theorem update_records (makes : Makes (serve peers adaptor) r) (input : r.input.2 = .oracle (.update_price asset))
    (found : r.before.state.own = some v) (offers : Offers peers (r.env adaptor) v asset r.before.state.rest price)
    (next : Next (r.env adaptor).timestamp v.twap_window (v.twap (r.env adaptor) asset) price.price state) :
    r.after.state.own = some (v.recorded (r.env adaptor) asset price state) := by
  obtain ⟨w',ran⟩ := offers.recorded next
  have called : call peers (r.env adaptor) (.update_price asset) ⟨v,r.before.state.rest⟩ = _ := ran
  have invoked : ∃ event, act peers (r.env adaptor) r.input.2 r.before.state =
      .ok (event,⟨some (v.recorded (r.env adaptor) asset price state),w'⟩) := by
    rw [input]
    exact ⟨_,invoke_of_call found called⟩
  obtain ⟨_,returned⟩ := invoked
  rw [(Delivery.returns makes returned).2]

/-- Another call that offers the price that a ledger shows resamples the average. -/
theorem update_resamples (makes : Makes (serve peers adaptor) r) (input : r.input.2 = .oracle (.update_price asset))
    (unchanged : Unchanged peers asset ledger decimals last quiet) (inside : InLedger ledger (r.env adaptor))
    (calm : quiet r.before.state.rest) (found : r.before.state.own = some v)
    (offers : Offers peers (r.env adaptor) v asset r.before.state.rest price) (held : Held ledger asset v price state) :
    ∃ v', r.after.state.own = some v' ∧ Alike v v' ∧
      Held ledger asset v' price (resample ledger.timestamp v.twap_window price.price state) := by
  by_cases takes : ∃ state', Next (r.env adaptor).timestamp v.twap_window (v.twap (r.env adaptor) asset) price.price
      state'
  · obtain ⟨state',next⟩ := takes
    refine ⟨_,update_records makes input found offers next,recorded_alike _ _ _ _ _,?_⟩
    rw [held.twap inside,inside.timestamp] at next
    rw [next.resampled]
    exact .recorded inside
  · rcases (update_turn makes input unchanged inside calm).2 with same | ⟨v',price',state',found',_,offers',next⟩
    · refine ⟨v,same.trans found,.refl v,?_⟩
      rw [held.twap inside,inside.timestamp] at takes
      rw [resample_idle (fun state' next => takes ⟨state',next⟩)]
      exact held
    · rw [found] at found'
      cases found'
      cases offers.unique offers'
      exact absurd ⟨state',next⟩ takes

/-- A call that comes in within the ledger. -/
def Still (origin : Origin) : Prop := origin.ledgers = 0 ∧ origin.seconds = 0

theorem Still.clock {origin : Origin} (still : Still origin) (clock : Clock) : clock.advance origin = clock := by
  simp only [Clock.advance,still.1,still.2,Nat.add_zero]

theorem Still.inside (still : Still r.input.1) : InLedger r.before.clock (r.env adaptor) := by
  have clock : r.clock = r.before.clock := still.clock _
  exact ⟨congrArg Clock.sequence clock,congrArg Clock.timestamp clock⟩

/-- After so many calls that offer the price that the ledger shows, the average is
    resampled so many times. -/
theorem updates_resample {e : Env} {v₀ : HelixOracleAdaptor} {w₀ : W} (again : List Origin)
    (still : ∀ o ∈ again, Still o) {c : Chain (State W)} {v : HelixOracleAdaptor} {state : TWAPData}
    (unchanged : Unchanged peers asset c.clock decimals last quiet) (inside : InLedger c.clock e) (calm₀ : quiet w₀)
    (offers : Offers peers e v₀ asset w₀ price) (alike : Alike v₀ v) (calm : quiet c.state.rest)
    (found : c.state.own = some v) (held : Held c.clock asset v price state) :
    ∃ v', (run (serve peers adaptor) c (again.map (updating asset))).state.own = some v' ∧ Alike v₀ v' ∧
      Held c.clock asset v' price ((resample c.clock.timestamp v₀.twap_window price.price)^[again.length] state) := by
  induction again generalizing c v state with
  | nil => exact ⟨v,found,alike,held⟩
  | cons o rest ih =>
    have within : Still o := still o List.mem_cons_self
    let r : Served W := transition (serve peers adaptor) c (updating asset o)
    have makes : Makes (serve peers adaptor) r := transition_makes _ _
    have clock : r.after.clock = c.clock := (Delivery.after_clock makes).trans (within.clock c.clock)
    have inside' : InLedger c.clock (r.env adaptor) := Still.inside (r := r) within
    obtain ⟨calm',_⟩ := update_turn makes rfl unchanged inside' calm
    obtain ⟨v',found',alike',held'⟩ := update_resamples makes rfl unchanged inside' calm found
      (offers.again unchanged inside inside' alike calm₀ calm) held
    rw [alike.window] at held'
    rw [← clock] at unchanged inside held' ⊢
    exact ih (fun o member => still o (List.mem_cons_of_mem _ member)) unchanged inside (alike.trans alike') calm' found'
      held'

/-- Within a ledger an adaptor sees the same average in every call. -/
theorem twap_inside {e e' : Env} (v : HelixOracleAdaptor) (asset : Address) (inside : InLedger ledger e)
    (inside' : InLedger ledger e') : v.twap e' asset = v.twap e asset := by
  simp only [HelixOracleAdaptor.twap,inside.sequence,inside'.sequence,inside.timestamp,inside'.timestamp]

/-- As long as no offered price is taken in, nothing is recorded. -/
theorem updates_idle {e : Env} {w₀ : W} (again : List Origin) (still : ∀ o ∈ again, Still o) {c : Chain (State W)}
    (unchanged : Unchanged peers asset c.clock decimals last quiet) (inside : InLedger c.clock e) (calm₀ : quiet w₀)
    (calm : quiet c.state.rest) (idle : ∀ v price state, c.state.own = some v → Offers peers e v asset w₀ price →
      ¬ Next e.timestamp v.twap_window (v.twap e asset) price.price state) :
    (run (serve peers adaptor) c (again.map (updating asset))).state.own = c.state.own := by
  have kept := run_invariant (serve peers adaptor)
    (fun t => t.clock = c.clock ∧ quiet t.state.rest ∧ t.state.own = c.state.own) (s := c)
    (again.map (updating asset)) ⟨rfl,calm,rfl⟩
  refine (kept ?_).2.2
  rintro (r : Served W) member makes ⟨clock,calm',own⟩
  obtain ⟨o,inside_again,asks⟩ := List.mem_map.mp (trace_input member)
  have within : Still r.input.1 := by
    rw [← asks]
    exact still o inside_again
  have input : r.input.2 = .oracle (.update_price asset) := by
    rw [← asks]
    rfl
  have inside' : InLedger c.clock (r.env adaptor) := by
    rw [← clock]
    exact within.inside
  obtain ⟨calm'',turn⟩ := update_turn makes input unchanged inside' calm'
  refine ⟨(Delivery.after_clock makes).trans ((within.clock _).trans clock),calm'',?_⟩
  rcases turn with same | ⟨v,price,state,found,_,offers,next⟩
  · exact same.trans own
  · have offers' := offers.again unchanged inside' inside (.refl v) calm' calm₀
    rw [inside'.timestamp,← inside.timestamp,twap_inside v asset inside inside'] at next
    exact absurd next (idle v price state (own ▸ found) offers')

end Delivered

/-! ### The served average -/

section Served
variable {W : Type} {peers : Peers W} {adaptor asset : Address}

/-- The sum and the count of an average that is in use. -/
structure Sound (state : TWAPData) : Prop where
  nonneg : 0 ≤ state.cumulative_price
  few : state.num_samples ≤ u32Max

/-- In every reached state the average of an asset is sound. -/
theorem serve_sound (peers : Peers W) (adaptor : Address) (clock : Clock) (w : W) (calls : List (Origin × Action W))
    (asset : Address) (e : Env) {v : HelixOracleAdaptor}
    (found : (run (serve peers adaptor) (undeployed clock w) calls).state.own = some v)
    (used : (v.twap e asset).num_samples ≠ 0) : Sound (v.twap e asset) := by
  have averages := serve_averages peers adaptor clock w calls asset
  rw [stored,found] at averages
  obtain ⟨sum,count⟩ := averages.twap used
  refine ⟨?_,by rw [count]; exact min_le_right _ _⟩
  rw [sum,sum_prices]
  apply List.sum_nonneg
  intro p member
  obtain ⟨x,inside,rfl⟩ := List.mem_map.mp member
  obtain ⟨_,_,_,_,_,_,surveyed,agreed⟩ := serve_scaled peers adaptor clock w calls asset x inside
  exact (Offers.sound ⟨_,_,_,_,surveyed,agreed⟩).1

theorem Next.sound {now window : Nat} {state state' : TWAPData} {price : Int}
    (next : Next now window state price state') (nonneg : 0 ≤ price) (sound : state.num_samples ≠ 0 → Sound state) :
    Sound state' ∧ 0 < state'.num_samples ∧ (0 < window → Running now window state') := by
  have large : 0 < u32Max := by decide
  cases next with
  | reset ended =>
    refine ⟨⟨nonneg,large⟩,Nat.one_pos,fun some => ⟨?_,large⟩⟩
    dsimp only
    omega
  | sample running fits =>
    obtain ⟨before,few⟩ := sound (fun zero => running (.inl zero))
    have sampled : Running now window ⟨state.cumulative_price + price,_,_⟩ := Running.sampled ⟨running,few⟩
    refine ⟨⟨Int.add_nonneg before nonneg,sampled.few⟩,?_,fun _ => sampled⟩
    dsimp only
    split <;> omega

/-- What is served after so many further calls is what the first one made it
    exactly if there is no window or the further samples are balanced. -/
theorem resampled_average {now window : Nat} {state state' : TWAPData} {price : PriceData}
    (next : Next now window state price.price state') (nonneg : 0 ≤ price.price)
    (sound : state.num_samples ≠ 0 → Sound state) (k : Nat) :
    average price (some ((resample now window price.price)^[k] state')) = average price (some state') ↔
      window = 0 ∨ Balanced state'.cumulative_price state'.num_samples price.price k := by
  obtain ⟨⟨sum,few⟩,some,runs⟩ := next.sound nonneg sound
  rcases Nat.eq_zero_or_pos window with rfl | positive
  · simp only [resample_anew next,true_or]
  · have more : 0 < min (state'.num_samples + taken price.price k state'.cumulative_price) u32Max :=
      lt_min (by omega) (by decide)
    rw [(runs positive).resampled,average,average,if_pos some]
    simp only [if_pos more,Prod.mk.injEq,and_true]
    rw [balanced_iff sum nonneg some]
    exact (or_iff_right positive.ne').symm

/-- A first update records no price, or there is no window, or so many further
    calls with the price are balanced. -/
def Unmoved (peers : Peers W) (adaptor asset : Address) (r : Served W) (k : Nat) : Prop :=
  ∀ v price state, r.before.state.own = some v → Offers peers (r.env adaptor) v asset r.before.state.rest price →
    Next (r.env adaptor).timestamp v.twap_window (v.twap (r.env adaptor) asset) price.price state →
    v.twap_window = 0 ∨ Balanced state.cumulative_price state.num_samples price.price k

end Served

/-- In every reached state: after an update and any number of further ones in the
    same ledger, from sources that do not change their answers, `lastprice` serves
    what it serves after the first exactly if the further ones are balanced. -/
theorem repetition_iff {W : Type} (peers : Peers W) (adaptor : Address) (clock : Clock) (w : W)
    (calls : List (Origin × Action W)) (origin : Origin) (again : List Origin) (asset : Address)
    (decimals : Address → Option Nat) (last : Address → Option (Int × Nat)) (quiet : W → Prop) (env : Env) :
    let c := run (serve peers adaptor) (undeployed clock w) calls
    let first : Served W := transition (serve peers adaptor) c (updating asset origin)
    let all := run (serve peers adaptor) first.after (again.map (updating asset))
    (∀ o ∈ again, Still o) → Unchanged peers asset first.clock decimals last quiet → quiet c.state.rest →
      InLedger first.clock env →
        (answer (lastprice env asset) all.state = answer (lastprice env asset) first.after.state ↔
          Unmoved peers adaptor asset first again.length) := by
  intro c first all still unchanged calm inside
  have makes : Makes (serve peers adaptor) first := transition_makes _ _
  have inside' : InLedger first.clock (first.env adaptor) := ⟨rfl,rfl⟩
  have clock' : first.after.clock = first.clock := Delivery.after_clock makes
  obtain ⟨calm',turn⟩ := update_turn makes rfl unchanged inside' calm
  by_cases takes : ∃ v price state, c.state.own = some v ∧ Offers peers (first.env adaptor) v asset c.state.rest price ∧
      Next (first.env adaptor).timestamp v.twap_window (v.twap (first.env adaptor) asset) price.price state
  · obtain ⟨v,price,state,found,offers,next⟩ := takes
    have left := update_records makes rfl found offers next
    have held : Held first.clock asset (v.recorded (first.env adaptor) asset price state) price state :=
      .recorded inside'
    obtain ⟨nonneg,fresh⟩ := offers.sound
    have current : env.timestamp - price.timestamp ≤ v.staleness_threshold := by
      rw [inside.timestamp,← inside'.timestamp]
      exact fresh
    obtain ⟨v',found',alike,held'⟩ := updates_resample again still (by rw [clock']; exact unchanged)
      (by rw [clock']; exact inside') calm offers (recorded_alike _ _ _ _ _) calm' left (by rw [clock']; exact held)
    rw [clock'] at held'
    rw [held'.shown inside found' (by rw [alike.staleness]; exact current),held.shown inside left current,
      Option.some.injEq,← inside'.timestamp,
      resampled_average next nonneg (serve_sound peers adaptor clock w calls asset _ found)]
    constructor
    · intro balanced v₁ price₁ state₁ found₁ offers₁ next₁
      cases found.symm.trans found₁
      cases offers.unique offers₁
      cases next.resampled.symm.trans next₁.resampled
      exact balanced
    · intro unmoved
      exact unmoved v price state found offers next
  · have idle : first.after.state.own = c.state.own := by
      rcases turn with same | ⟨v,price,state,found,_,offers,next⟩
      · exact same
      · exact absurd ⟨v,price,state,found,offers,next⟩ takes
    have same : all.state.own = first.after.state.own := by
      apply updates_idle again still (by rw [clock']; exact unchanged) (by rw [clock']; exact inside') calm calm'
      intro v price state found offers next
      exact takes ⟨v,price,state,idle ▸ found,offers,next⟩
    refine iff_of_true (lastprice_own env asset same) ?_
    intro v price state found offers next
    exact absurd ⟨v,price,state,found,offers,next⟩ takes

namespace Small

/-- The price of four, in the decimals of the two sources. -/
def risen : Feeds := fun source =>
  if source = primary_oracle then some (14, 400000000000000)
  else if source = secondary_oracle then some (7, 40000000)
  else none

/-- Both sources tell a price of four from now on. -/
def rise : Origin × Action Feeds := (.signedBy keeper,.outside (fun _ => risen))

/-- Another call of the keeper in the same ledger. -/
def again : Origin := ⟨0,0,16,none,fun a => decide (a = keeper)⟩

/-- The prices of four arrive after the adaptor is initialized, or after it stored
    a price of two. -/
def started : List (Origin × Action Feeds) := opening.take 1 ++ [rise]
def continued : List (Origin × Action Feeds) := opening ++ [rise]

/-- Feeds that nothing changes tell the same for a whole ledger. -/
theorem unchanged (ledger : Clock) (feeds : Feeds) : Unchanged peers asset ledger
    (fun oracle => (feeds oracle).map (fun feed => feed.1))
    (fun oracle => (feeds oracle).map (fun feed => (feed.2, ledger.timestamp))) (fun w => w = feeds) where
  asked := by
    rintro e w _ rfl
    exact ⟨rfl,rfl⟩
  told := by
    rintro e w inside rfl
    refine ⟨?_,rfl⟩
    simp only [peers,inside.timestamp]
  paused := by
    rintro e caller w w' rfl paused
    simpa [peers,eq_comm] using paused

end Small

/-- The first update of an average and three more in its ledger are balanced: all of
    them take in the same price. -/
theorem repetition_balanced :
    Unmoved Small.peers Small.adaptor Small.asset
      (transition Small.step (run Small.step Small.start Small.started) (updating Small.asset (.signedBy Small.keeper)))
      3 :=
  (repetition_iff Small.peers Small.adaptor ⟨0,0⟩ Small.feeds Small.started (.signedBy Small.keeper)
    (List.replicate 3 Small.again) Small.asset _ _ (fun w => w = Small.risen)
    ((Origin.signedBy Small.keeper).env ⟨3,15⟩ Small.adaptor) (by simp [Still,Small.again]) (Small.unchanged _ _) rfl
    ⟨rfl,rfl⟩).mp (by decide +kernel)

/-- The average of two and four is three. Another call in the same ledger, with the
    same answers of the sources, moves it by a ninth. -/
theorem repetition_moves :
    let c := run Small.step Small.start Small.continued
    let first : Served Small.Feeds := transition Small.step c (updating Small.asset (.signedBy Small.keeper))
    let all := run Small.step first.after [updating Small.asset Small.again]
    Unchanged Small.peers Small.asset first.clock (fun oracle => (Small.risen oracle).map (fun feed => feed.1))
        (fun oracle => (Small.risen oracle).map (fun feed => (feed.2, first.clock.timestamp)))
        (fun w => w = Small.risen) ∧
      c.state.rest = Small.risen ∧ all.clock.timestamp = first.clock.timestamp ∧
      answer (lastprice (first.env Small.adaptor) Small.asset) first.after.state = some (300000000000000, 20) ∧
      answer (lastprice (first.env Small.adaptor) Small.asset) all.state = some (333333333333333, 20) :=
  ⟨Small.unchanged _ _,rfl,rfl,by decide +kernel,by decide +kernel⟩

end Helix.Oracle
