import Mathlib.Data.Rat.Floor
import Helix.OracleCalls

/-!
When the adaptor notices that its sources deviate. Two positive, fresh prices are
compared after both are scaled to common decimals, in 128 bits. If that fits, an
update that finds them too far apart pauses the vault and records nothing; if it
does not, the update fails (`update_price_pauses`, `update_price_compares`).
-/
namespace Helix.Oracle
open Invoke

/-! ### Exact prices -/

/-- A price in other decimals, whatever its size. -/
def exactly (price : Int) (from_decimals to_decimals : Nat) : Int :=
  if from_decimals ≤ to_decimals then price * 10 ^ (to_decimals - from_decimals)
  else scale_down (from_decimals - to_decimals) price

theorem scale_up_some {scale : Nat} {price : Int} (positive : 0 < price) (fits : Fits price) {p : Int} :
    scale_up scale price = some p ↔ Fits (price * 10 ^ scale) ∧ p = price * 10 ^ scale := by
  induction scale generalizing price with
  | zero => simp [scale_up,fits,eq_comm]
  | succ scale ih =>
    have step : price * 10 ^ (scale + 1) = price * 10 * 10 ^ scale := by
      rw [pow_succ,mul_comm (10 ^ scale) 10,mul_assoc]
    rw [step]
    by_cases next : Fits (price * 10)
    · simp only [scale_up,Checked.mul,if_pos next,Option.bind_some]
      exact ih (by omega) next
    · have large : ¬ Fits (price * 10 * 10 ^ scale) := by
        intro within
        have grows : price * 10 * 1 ≤ price * 10 * 10 ^ scale :=
          Int.mul_le_mul_of_nonneg_left (one_le_pow₀ (by decide)) (by omega)
        exact next (fits_zero.between within (by omega) (by omega))
      simp [scale_up,Checked.mul,next,large]

theorem scale_down_within (scale : Nat) {price : Int} (nonneg : 0 ≤ price) :
    0 ≤ scale_down scale price ∧ scale_down scale price ≤ price := by
  induction scale generalizing price with
  | zero => exact ⟨nonneg,le_rfl⟩
  | succ scale ih =>
    have tenth : price.tdiv 10 = price / 10 := Int.tdiv_eq_ediv_of_nonneg nonneg
    obtain ⟨low,high⟩ := ih (show 0 ≤ price.tdiv 10 by omega)
    exact ⟨low,by simp only [scale_down]; omega⟩

/-- So many divisions by ten are one by their product. -/
theorem scale_down_eq (scale : Nat) {price : Int} (nonneg : 0 ≤ price) : scale_down scale price = price / 10 ^ scale := by
  induction scale generalizing price with
  | zero => simp [scale_down]
  | succ scale ih =>
    have tenth : price.tdiv 10 = price / 10 := Int.tdiv_eq_ediv_of_nonneg nonneg
    simp only [scale_down]
    rw [ih (by omega),tenth,Int.ediv_ediv_of_nonneg (by decide),pow_succ,mul_comm]

theorem scale_up_eq {scale : Nat} {price p : Int} (scales : scale_up scale price = some p) : p = price * 10 ^ scale := by
  induction scale generalizing price with
  | zero => simpa [scale_up,eq_comm] using scales
  | succ scale ih =>
    obtain ⟨next,multiplied,rest⟩ := Option.bind_eq_some_iff.mp scales
    obtain ⟨_,rfl⟩ := Checked.mul_some.mp multiplied
    rw [ih rest,pow_succ,mul_comm (10 ^ scale) 10,mul_assoc]

/-- What a price is scaled to is the price in the other decimals. -/
theorem scaled_eq {price p : Int} {from_decimals to_decimals : Nat} (scales : scaled price from_decimals to_decimals = some p) :
    p = exactly price from_decimals to_decimals := by
  unfold scaled at scales
  unfold exactly
  by_cases same : from_decimals = to_decimals
  · subst same
    simpa [eq_comm] using scales
  · rw [if_neg same] at scales
    by_cases below : from_decimals < to_decimals
    · rw [if_pos below] at scales
      rw [if_pos below.le]
      exact scale_up_eq scales
    · rw [if_neg below] at scales
      rw [if_neg (by omega)]
      exact (Option.some.inj scales).symm

/-- A positive price stays positive in other decimals exactly if one of its digits
    is left. -/
theorem exactly_pos {price : Int} {from_decimals to_decimals : Nat} (positive : 0 < price) :
    0 < exactly price from_decimals to_decimals ↔ (10 : Int) ^ (from_decimals - to_decimals) ≤ price := by
  unfold exactly
  by_cases below : from_decimals ≤ to_decimals
  · rw [if_pos below,Nat.sub_eq_zero_of_le below,pow_zero]
    exact iff_of_true (Int.mul_pos positive (pow_pos (by decide) _)) positive
  · rw [if_neg below,scale_down_eq _ positive.le,Int.lt_iff_add_one_le,zero_add,
      Int.le_ediv_iff_mul_le (pow_pos (by decide) _),one_mul]

theorem exactly_nonneg {price : Int} (positive : 0 < price) (from_decimals to_decimals : Nat) :
    0 ≤ exactly price from_decimals to_decimals := by
  unfold exactly
  split
  · exact Int.mul_nonneg positive.le (pow_nonneg (by decide) _)
  · exact (scale_down_within _ positive.le).1

/-- A positive price is scaled exactly, or not at all. -/
theorem scaled_some {price p : Int} {from_decimals to_decimals : Nat} (positive : 0 < price) (fits : Fits price) :
    scaled price from_decimals to_decimals = some p ↔
      Fits (exactly price from_decimals to_decimals) ∧ p = exactly price from_decimals to_decimals := by
  unfold scaled exactly
  by_cases same : from_decimals = to_decimals
  · subst same
    simp [fits,eq_comm]
  · by_cases below : from_decimals < to_decimals
    · rw [if_neg same,if_pos below,if_pos below.le]
      exact scale_up_some positive fits
    · have above : ¬ from_decimals ≤ to_decimals := by omega
      obtain ⟨low,high⟩ := scale_down_within (from_decimals - to_decimals) positive.le
      rw [if_neg same,if_neg below,if_neg above]
      simp [fits_zero.between fits low high,eq_comm]

/-- A price moves to more decimals by one multiplication, which fails exactly if the
    product has no room, and to fewer decimals by one division, rounded down. -/
theorem scale_price_exact {W : Type} (s : World HelixOracleAdaptor W) {price : Int} (positive : 0 < price)
    (fits : Fits price) (from_decimals to_decimals : Nat) :
    (from_decimals ≤ to_decimals →
      (scale_price price from_decimals to_decimals s = .ok (price * 10 ^ (to_decimals - from_decimals), s) ↔
        Fits (price * 10 ^ (to_decimals - from_decimals))) ∧
      (scale_price price from_decimals to_decimals s = .error (.error .FeedUnavailable) ↔
        ¬ Fits (price * 10 ^ (to_decimals - from_decimals)))) ∧
    (to_decimals < from_decimals →
      scale_price price from_decimals to_decimals s = .ok (price.tdiv (10 ^ (from_decimals - to_decimals)), s) ∧
      price.tdiv (10 ^ (from_decimals - to_decimals)) = ⌊(price : ℚ) / 10 ^ (from_decimals - to_decimals)⌋) := by
  have scales : ∀ p, scaled price from_decimals to_decimals = some p ↔
      Fits (exactly price from_decimals to_decimals) ∧ p = exactly price from_decimals to_decimals :=
    fun _ => scaled_some positive fits
  refine ⟨?_,?_⟩
  · intro up
    have exact_price : exactly price from_decimals to_decimals = price * 10 ^ (to_decimals - from_decimals) := if_pos up
    rw [exact_price] at scales
    refine ⟨?_,?_⟩
    · rw [scale_price,need_ok,scales]
      simp
    · rw [scale_price,need_error,Option.eq_none_iff_forall_ne_some]
      simp only [ne_eq,scales,and_true,not_and]
      constructor
      · intro refused within
        exact refused _ within rfl
      · intro outside p within
        exact absurd within outside
  · intro down
    have exact_price : exactly price from_decimals to_decimals = price / 10 ^ (from_decimals - to_decimals) := by
      rw [exactly,if_neg (by omega),scale_down_eq _ positive.le]
    have single : price.tdiv (10 ^ (from_decimals - to_decimals)) = price / 10 ^ (from_decimals - to_decimals) :=
      Int.tdiv_eq_ediv_of_nonneg positive.le
    have smaller : Fits (price / 10 ^ (from_decimals - to_decimals)) := by
      rw [← scale_down_eq _ positive.le]
      obtain ⟨low,high⟩ := scale_down_within (from_decimals - to_decimals) positive.le
      exact fits_zero.between fits low high
    refine ⟨?_,?_⟩
    · rw [scale_price,need_ok,scales,exact_price,single]
      exact ⟨⟨smaller,rfl⟩,rfl⟩
    · have floored := Rat.floor_intCast_div_natCast price (10 ^ (from_decimals - to_decimals))
      push_cast at floored
      rw [single,floored]

/-- An adaptor that has just been set up, alone. -/
def Small.alone : World HelixOracleAdaptor Unit :=
  ⟨fresh (.account (BytesN.fill 32 1)) (.account (BytesN.fill 32 2)) (.account (BytesN.fill 32 3))
    (.account (BytesN.fill 32 4)),()⟩

theorem scale_price_exact_alone :
    (scale_price 123456789 7 14 Small.alone = .ok (1234567890000000, Small.alone) ∧
      scale_price 123456789 7 38 Small.alone = .error (.error .FeedUnavailable)) ∧
    scale_price 123456789 14 7 Small.alone = .ok (12, Small.alone) := by
  have more := (scale_price_exact Small.alone (show (0 : Int) < 123456789 by decide) (by decide) 7 14).1 (by decide)
  have many := (scale_price_exact Small.alone (show (0 : Int) < 123456789 by decide) (by decide) 7 38).1 (by decide)
  have fewer := (scale_price_exact Small.alone (show (0 : Int) < 123456789 by decide) (by decide) 14 7).2 (by decide)
  exact ⟨⟨more.1.mpr (by decide),many.2.mpr (by decide)⟩,fewer.1⟩

/-! ### What an update sees -/

section Sees
variable {W : Type} (peers : Peers W) (env : Env)

/-- A source tells a price that is positive and fresh. -/
structure Answers (staleness : Nat) (oracle asset : Address) (decimals : Nat) (raw : Int × Nat) (w w' : W) : Prop where
  told : ∃ mid, peers.decimals (env.calling oracle) asset w = (some decimals, mid) ∧
    peers.lastprice (env.calling oracle) asset mid = (some raw, w')
  positive : 0 < raw.1
  fits : Fits raw.1
  current : env.timestamp - raw.2 ≤ staleness

/-- Both sources tell prices that are positive and fresh; `left` and `right` are
    these in common decimals. -/
def Sees (s : World HelixOracleAdaptor W) (asset : Address) (left right : Int) (w : W) : Prop :=
  ∃ target decimals decimals' raw raw' first second, Target peers env s.own asset target s.rest first ∧
    Answers peers env s.own.staleness_threshold s.own.primary_oracle asset decimals raw first second ∧
    Answers peers env s.own.staleness_threshold s.own.secondary_oracle asset decimals' raw' second w ∧
    left = exactly raw.1 decimals target ∧ right = exactly raw'.1 decimals' target

end Sees

/-- Two prices differ by more than a threshold of the smaller one. -/
def Deviating (threshold : Nat) (left right : Int) : Prop :=
  min left right ≤ 0 ∨ (threshold : Int) < (max left right - min left right) * BPS_DENOMINATOR / min left right

/-- The prices, and what has to be computed to compare them, have 128 bits. -/
def Comparable (left right : Int) : Prop :=
  Fits left ∧ Fits right ∧ (0 < min left right → Fits ((max left right - min left right) * BPS_DENOMINATOR))

instance (threshold : Nat) (left right : Int) : Decidable (Deviating threshold left right) :=
  inferInstanceAs (Decidable (_ ∨ _))

instance (left right : Int) : Decidable (Comparable left right) := inferInstanceAs (Decidable (_ ∧ _ ∧ (_ → _)))

section Rules
variable {W : Type} {peers : Peers W} {env : Env} {s : World HelixOracleAdaptor W} {asset : Address}
  {left right : Int} {w : W}

/-- What is taken from a source that answers is its price, if that can be scaled. -/
theorem Answers.observed {staleness target decimals : Nat} {oracle : Address} {raw : Int × Nat} {source : Source}
    {mid w' : W} {observation : Option PriceData} (answers : Answers peers env staleness oracle asset decimals raw w mid)
    (observed : Observed peers env staleness oracle asset target source observation w w') :
    Fits (exactly raw.1 decimals target) ∧
      observation = some ⟨exactly raw.1 decimals target,raw.2,source⟩ ∧ w' = mid := by
  obtain ⟨⟨between,asked,told⟩,positive,fits,current⟩ := answers
  cases observed with
  | silent _ _ silent =>
    rw [asked] at silent
    cases silent
  | priceless _ _ _ _ answered priceless =>
    rw [asked] at answered
    cases answered
    rw [told] at priceless
    cases priceless
  | unusable _ _ _ _ _ answered quoted unusable =>
    rw [asked] at answered
    cases answered
    rw [told] at quoted
    cases quoted
    omega
  | usable _ _ price _ _ _ answered quoted _ _ scales =>
    rw [asked] at answered
    cases answered
    rw [told] at quoted
    cases quoted
    obtain ⟨fits',rfl⟩ := (scaled_some positive fits).mp scales
    exact ⟨fits',rfl,rfl⟩

/-- Conversely, an answer that can be scaled is taken. -/
theorem Answers.fetched {target decimals : Nat} {oracle : Address} {raw : Int × Nat} (source : Source) {w' : W}
    (answers : Answers peers env s.own.staleness_threshold oracle asset decimals raw s.rest w')
    (fits : Fits (exactly raw.1 decimals target)) : fetch_observation peers env oracle asset target source s =
      .ok (some ⟨exactly raw.1 decimals target,raw.2,source⟩,{ s with rest := w' }) := by
  obtain ⟨⟨mid,asked,told⟩,positive,fits',current⟩ := answers
  have scales : scaled raw.1 decimals target = some (exactly raw.1 decimals target) :=
    (scaled_some positive fits').mpr ⟨fits,rfl⟩
  have observed : Observed peers env s.own.staleness_threshold oracle asset target source
      (some ⟨exactly raw.1 decimals target,raw.2,source⟩) s.rest w' :=
    .usable decimals raw _ _ mid _ asked told positive current scales
  exact observed.fetched

theorem Target.unique {v : HelixOracleAdaptor} {target target' : Nat} {w' w'' : W}
    (one : Target peers env v asset target w w') (other : Target peers env v asset target' w w'') :
    target = target' ∧ w' = w'' := by
  cases one with
  | primary _ answered =>
    cases other with
    | primary _ answered' =>
      rw [answered] at answered'
      cases answered'
      exact ⟨rfl,rfl⟩
    | secondary _ _ silent _ =>
      rw [answered] at silent
      cases silent
  | secondary _ _ silent answered =>
    cases other with
    | primary _ answered' =>
      rw [silent] at answered'
      cases answered'
    | secondary _ _ silent' answered' =>
      rw [silent] at silent'
      cases silent'
      rw [answered] at answered'
      cases answered'
      exact ⟨rfl,rfl⟩

/-- Where two prices are too far apart and the comparison fits, it says so. -/
theorem Deviating.deviates {threshold : Nat} (deviating : Deviating threshold left right) (comparable : Comparable left right)
    (nonneg : 0 ≤ left) (nonneg' : 0 ≤ right) : Deviates threshold left right true := by
  obtain ⟨fits,fits',product⟩ := comparable
  have difference : Fits (max left right - min left right) := by
    rcases le_total left right with below | above
    · rw [max_eq_right below,min_eq_left below]
      exact fits_zero.between fits' (by omega) (by omega)
    · rw [max_eq_left above,min_eq_right above]
      exact fits_zero.between fits (by omega) (by omega)
  by_cases baseless : min left right ≤ 0
  · exact .baseless difference baseless
  · have spread : 0 ≤ (max left right - min left right) * BPS_DENOMINATOR :=
      Int.mul_nonneg (by have := min_le_max (a := left) (b := right); omega) (by decide)
    have far : ((max left right - min left right) * BPS_DENOMINATOR).tdiv (min left right) > threshold := by
      rw [Int.tdiv_eq_ediv_of_nonneg spread]
      exact deviating.resolve_left baseless
    have ratio : Deviates threshold left right _ :=
      .ratio difference (not_le.mp baseless) (product (not_le.mp baseless))
    rwa [decide_eq_true far] at ratio

/-- Where two prices are too far apart, no comparison says otherwise. -/
theorem Deviating.exceeds {threshold : Nat} {exceeded : Bool} (deviating : Deviating threshold left right)
    (deviates : Deviates threshold left right exceeded) :
    exceeded = true ∧ (0 < min left right → Fits ((max left right - min left right) * BPS_DENOMINATOR)) := by
  cases deviates with
  | baseless _ below => exact ⟨rfl,fun positive => absurd below (not_le.mpr positive)⟩
  | ratio _ positive product =>
    refine ⟨?_,fun _ => product⟩
    have spread : 0 ≤ (max left right - min left right) * BPS_DENOMINATOR :=
      Int.mul_nonneg (by have := min_le_max (a := left) (b := right); omega) (by decide)
    rw [Int.tdiv_eq_ediv_of_nonneg spread,decide_eq_true_iff]
    exact deviating.resolve_left (not_le.mpr positive)

/-- An update whose sources deviate and can be compared pauses the vault and stores
    nothing. -/
theorem update_price_pauses {w' : W} (sees : Sees peers env s asset left right w)
    (deviating : Deviating s.own.deviation_threshold left right) (comparable : Comparable left right)
    (paused : peers.pause_by (env.calling s.own.vault_callback) env.current_contract_address w = some ((), w')) :
    update_price peers env asset s = .ok (some (.safe_mode asset left right),⟨s.own,w'⟩) := by
  obtain ⟨target,decimals,decimals',raw,raw',first,second,chosen,answers,answers',rfl,rfl⟩ := sees
  have fetched := Answers.fetched (s := { s with rest := first }) .primary answers comparable.1
  have fetched' := Answers.fetched (s := { s with rest := second }) .secondary answers' comparable.2.1
  have deviates := deviating.deviates comparable (exactly_nonneg answers.positive _ _)
    (exactly_nonneg answers'.positive _ _)
  simp only [update_price,bind_ok,load_ok,exists_eq_left,canonical_decimals_ok,Prod.exists]
  exact ⟨target,_,⟨first,chosen,rfl⟩,_,_,fetched,_,_,fetched',deviates.settled asset paused⟩

/-- An update whose sources deviate returns only if they can be compared. -/
theorem update_price_compares {event : Option OracleEvent} {s' : World HelixOracleAdaptor W}
    (sees : Sees peers env s asset left right w) (deviating : Deviating s.own.deviation_threshold left right)
    (effect : Effect peers env s (.update_price asset) event s') : Comparable left right := by
  obtain ⟨target,decimals,decimals',raw,raw',first,second,chosen,answers,answers',rfl,rfl⟩ := sees
  have seen : ∀ {target' : Nat} {primary secondary : Option PriceData} {w'' : W},
      Surveyed peers env s asset target' primary secondary w'' →
      Fits (exactly raw.1 decimals target) ∧ Fits (exactly raw'.1 decimals' target) ∧
        primary = some ⟨exactly raw.1 decimals target,raw.2,.primary⟩ ∧
        secondary = some ⟨exactly raw'.1 decimals' target,raw'.2,.secondary⟩ := by
    rintro target' primary secondary w'' ⟨first',second',chosen',observed,observed'⟩
    obtain ⟨rfl,rfl⟩ := chosen.unique chosen'
    obtain ⟨fits,rfl,rfl⟩ := answers.observed observed
    obtain ⟨fits',rfl,rfl⟩ := answers'.observed observed'
    exact ⟨fits,fits',rfl,rfl⟩
  cases effect with
  | safe_mode _ target' primary secondary _ _ surveyed deviates _ =>
    obtain ⟨fits,fits',same,same'⟩ := seen surveyed
    cases same
    cases same'
    exact ⟨fits,fits',(deviating.exceeds deviates).2⟩
  | update_price _ target' primary secondary price state _ surveyed agreed _ =>
    obtain ⟨_,_,rfl,rfl⟩ := seen surveyed
    cases agreed with
    | both _ _ deviates _ => cases (deviating.exceeds deviates).1

end Rules

end Helix.Oracle
