import Helix.OracleDeviation

/-!
What an update hears. Of the two quotes that the sources give, those that are
positive and fresh are scaled to common decimals, and the update is what becomes
of them (`update_price_hears`): it returns exactly if they can be scaled, and be
compared and averaged where there are two (`update_price_returns_iff`).
-/
namespace Helix.Oracle
open Invoke

/-- A source's price, with its decimals and its time. -/
structure Quote where
  decimals : Nat
  price : Int
  timestamp : Nat
  deriving DecidableEq

namespace Quote

/-- A quote that an update uses: positive, and fresh. -/
def Usable (q : Quote) (env : Env) (staleness : Nat) : Prop := 0 < q.price ∧ env.timestamp - q.timestamp ≤ staleness

instance (q : Quote) (env : Env) (staleness : Nat) : Decidable (q.Usable env staleness) :=
  inferInstanceAs (Decidable (_ ∧ _))

/-- The price in the common decimals, whatever its size. -/
def scaled (q : Quote) (target : Nat) : Int := exactly q.price q.decimals target

/-- What an update takes from a quote. -/
def taken (q : Quote) (target : Nat) (source : Source) : PriceData := ⟨q.scaled target,q.timestamp,source⟩

end Quote

section Quotes
variable {W : Type} (peers : Peers W) (env : Env)

/-- What a source answers to the two questions of an update. -/
def quote (oracle asset : Address) (w : W) : Option Quote × W :=
  match peers.decimals (env.calling oracle) asset w with
  | (none, w') => (none, w')
  | (some decimals, mid) =>
    match peers.lastprice (env.calling oracle) asset mid with
    | (none, w') => (none, w')
    | (some raw, w') => (some ⟨decimals,raw.1,raw.2⟩, w')

/-- The quote of a source, if it is usable. -/
def usable (staleness : Nat) (oracle asset : Address) (w : W) : Option Quote × W :=
  ((quote peers env oracle asset w).1.filter (fun q => decide (q.Usable env staleness)),(quote peers env oracle asset w).2)

/-- What an update hears: the common decimals, and the usable quote of either
    source. -/
def Hears (s : World HelixOracleAdaptor W) (asset : Address) (target : Nat) (first second : Option Quote) (w : W) : Prop :=
  ∃ mid mid', Target peers env s.own asset target s.rest mid ∧
    usable peers env s.own.staleness_threshold s.own.primary_oracle asset mid = (first, mid') ∧
    usable peers env s.own.staleness_threshold s.own.secondary_oracle asset mid' = (second, w)

/-- The sources answer prices of 128 bits. -/
def Typed : Prop := ∀ env asset w raw w', peers.lastprice env asset w = (some raw, w') → Fits raw.1

end Quotes

/-- Two prices can be compared, and averaged where they are close enough. -/
def Blendable (threshold : Nat) (left right : Int) : Prop :=
  Comparable left right ∧ (¬ Deviating threshold left right → Fits (left + right))

instance (threshold : Nat) (left right : Int) : Decidable (Blendable threshold left right) :=
  inferInstanceAs (Decidable (_ ∧ (_ → _)))

/-- The stored average takes another price. -/
def HelixOracleAdaptor.Room (v : HelixOracleAdaptor) (env : Env) (asset : Address) (price : Int) : Prop :=
  (v.twap env asset).num_samples = 0 ∨ v.twap_window ≤ env.timestamp - (v.twap env asset).window_start ∨
    Fits ((v.twap env asset).cumulative_price + price)

theorem room_iff {v : HelixOracleAdaptor} {env : Env} {asset : Address} {price : Int} :
    v.Room env asset price ↔ ∃ state, Next env.timestamp v.twap_window (v.twap env asset) price state := by
  constructor
  · intro room
    by_cases ended : (v.twap env asset).num_samples = 0 ∨ v.twap_window ≤ env.timestamp - (v.twap env asset).window_start
    · exact ⟨_,.reset ended⟩
    · refine ⟨_,.sample ended ?_⟩
      rcases room with none | past | fits
      · exact absurd (.inl none) ended
      · exact absurd (.inr past) ended
      · exact fits
  · rintro ⟨state,next⟩
    cases next with
    | reset ended => exact ended.imp_right .inl
    | sample _ fits => exact .inr (.inr fits)

section Rules
variable {W : Type} {peers : Peers W} {env : Env} {s : World HelixOracleAdaptor W} {asset : Address}

/-- A source that has no usable quote counts as silent. -/
theorem fetch_silent {oracle : Address} (target : Nat) (source : Source) {w' : W}
    (silent : usable peers env s.own.staleness_threshold oracle asset s.rest = (none, w')) :
    fetch_observation peers env oracle asset target source s = .ok (none, { s with rest := w' }) := by
  unfold usable quote at silent
  cases asked : peers.decimals (env.calling oracle) asset s.rest with
  | mk answer mid =>
    rw [asked] at silent
    cases answer with
    | none =>
      simp only [Option.filter_none,Prod.mk.injEq,true_and] at silent
      subst silent
      exact Observed.fetched (.silent _ _ asked)
    | some decimals =>
      cases told : peers.lastprice (env.calling oracle) asset mid with
      | mk answer w =>
        simp only [told] at silent
        cases answer with
        | none =>
          simp only [Option.filter_none,Prod.mk.injEq,true_and] at silent
          subst silent
          exact Observed.fetched (.priceless decimals _ mid _ asked told)
        | some raw =>
          simp only [Option.filter_some,Prod.mk.injEq,ite_eq_right_iff,reduceCtorEq,imp_false,decide_eq_true_eq] at silent
          obtain ⟨unusable,rfl⟩ := silent
          refine Observed.fetched (.unusable decimals raw _ mid _ asked told ?_)
          unfold Quote.Usable at unusable
          simp only at unusable
          omega

/-- A source with a usable quote answers. -/
theorem answers_of_usable (typed : Typed peers) {staleness : Nat} {oracle : Address} {q : Quote} {w w' : W}
    (heard : usable peers env staleness oracle asset w = (some q, w')) :
    Answers peers env staleness oracle asset q.decimals (q.price, q.timestamp) w w' := by
  unfold usable quote at heard
  cases asked : peers.decimals (env.calling oracle) asset w with
  | mk answer mid =>
    rw [asked] at heard
    cases answer with
    | none => simp at heard
    | some decimals =>
      cases told : peers.lastprice (env.calling oracle) asset mid with
      | mk answer last =>
        simp only [told] at heard
        cases answer with
        | none => simp at heard
        | some raw =>
          simp only [Option.filter_some,Prod.mk.injEq,Option.ite_none_right_eq_some,decide_eq_true_eq,
            Option.some.injEq] at heard
          obtain ⟨⟨usable,rfl⟩,rfl⟩ := heard
          exact ⟨⟨mid,asked,told⟩,usable.1,typed _ _ _ _ _ told,usable.2⟩

/-- A usable quote is taken if it can be scaled, and else the update fails. -/
theorem fetch_hears (typed : Typed peers) {oracle : Address} (target : Nat) (source : Source) {heard : Option Quote}
    {w' : W} (hears : usable peers env s.own.staleness_threshold oracle asset s.rest = (heard, w'))
    (r : Option PriceData × World HelixOracleAdaptor W) :
    fetch_observation peers env oracle asset target source s = .ok r ↔
      (∀ q, heard = some q → Fits (q.scaled target)) ∧
        r = (heard.map (fun q => q.taken target source), { s with rest := w' }) := by
  cases heard with
  | none =>
    rw [fetch_silent target source hears]
    simp [eq_comm]
  | some q =>
    have answers := answers_of_usable typed hears
    constructor
    · intro done
      obtain ⟨last,observed,rest⟩ := fetch_observation_ok done
      obtain ⟨fits,taken,rfl⟩ := answers.observed observed
      refine ⟨?_,Prod.ext taken rest⟩
      rintro _ ⟨⟩
      exact fits
    · rintro ⟨fits,rfl⟩
      exact answers.fetched source (fits q rfl)

/-- An update is what becomes of the quotes that it hears. -/
theorem update_price_hears (typed : Typed peers) {target : Nat} {first second : Option Quote} {w : W}
    (hears : Hears peers env s asset target first second w) {r : Option OracleEvent × World HelixOracleAdaptor W} :
    update_price peers env asset s = .ok r ↔
      (∀ q, first = some q → Fits (q.scaled target)) ∧ (∀ q, second = some q → Fits (q.scaled target)) ∧
        settle_price peers env asset (first.map (fun q => q.taken target .primary))
          (second.map (fun q => q.taken target .secondary)) { s with rest := w } = .ok r := by
  obtain ⟨mid,mid',chosen,heard,heard'⟩ := hears
  have fetched := fetch_hears (s := { s with rest := mid }) typed target .primary heard
  have fetched' := fetch_hears (s := { s with rest := mid' }) typed target .secondary heard'
  simp only [update_price,bind_ok,load_ok,exists_eq_left,canonical_decimals_ok,Prod.exists]
  constructor
  · rintro ⟨_,_,⟨_,chosen',rfl⟩,_,_,ran,_,_,ran',settled⟩
    obtain ⟨rfl,rfl⟩ := chosen.unique chosen'
    obtain ⟨fits,same⟩ := (fetched _).mp ran
    cases same
    obtain ⟨fits',same'⟩ := (fetched' _).mp ran'
    cases same'
    exact ⟨fits,fits',settled⟩
  · rintro ⟨fits,fits',settled⟩
    exact ⟨_,_,⟨_,chosen,rfl⟩,_,_,(fetched _).mpr ⟨fits,rfl⟩,_,_,(fetched' _).mpr ⟨fits',rfl⟩,settled⟩

/-! ### When an update returns -/

section Pair
variable {threshold : Nat} {left right : Int}

theorem spread_nonneg (left right : Int) : 0 ≤ (max left right - min left right) * BPS_DENOMINATOR :=
  Int.mul_nonneg (by have := min_le_max (a := left) (b := right); omega) (by decide)

/-- A comparison that fits says whether the prices deviate. -/
theorem Comparable.deviates (comparable : Comparable left right) (nonneg : 0 ≤ left) (nonneg' : 0 ≤ right) :
    Deviates threshold left right (decide (Deviating threshold left right)) := by
  by_cases deviating : Deviating threshold left right
  · rw [decide_eq_true deviating]
    exact deviating.deviates comparable nonneg nonneg'
  · have positive : 0 < min left right := not_le.mp (fun baseless => deviating (.inl baseless))
    have difference : Fits (max left right - min left right) := by
      rcases le_total left right with below | above
      · rw [max_eq_right below,min_eq_left below]
        exact fits_zero.between comparable.2.1 (by omega) (by omega)
      · rw [max_eq_left above,min_eq_right above]
        exact fits_zero.between comparable.1 (by omega) (by omega)
    have ratio : Deviates threshold left right _ := .ratio difference positive (comparable.2.2 positive)
    have near : ¬ ((max left right - min left right) * BPS_DENOMINATOR).tdiv (min left right) > threshold := by
      rw [Int.tdiv_eq_ediv_of_nonneg (spread_nonneg left right)]
      exact fun far => deviating (.inr far)
    rw [decide_eq_false near] at ratio
    rwa [decide_eq_false deviating]

/-- A comparison that is made fits, and says that the prices deviate only if they do. -/
theorem Deviates.compared {exceeded : Bool} (deviates : Deviates threshold left right exceeded) :
    (0 < min left right → Fits ((max left right - min left right) * BPS_DENOMINATOR)) ∧
      (exceeded = true → Deviating threshold left right) := by
  cases deviates with
  | baseless _ below => exact ⟨fun positive => absurd below (not_le.mpr positive),fun _ => .inl below⟩
  | ratio _ positive product =>
    refine ⟨fun _ => product,?_⟩
    rw [Int.tdiv_eq_ediv_of_nonneg (spread_nonneg left right),decide_eq_true_iff]
    exact .inr

end Pair

/-- One of the quotes that an update hears can be scaled. -/
def Backed (target : Nat) (first second : Option Quote) : Prop :=
  ∃ q, (first = some q ∨ second = some q) ∧ Fits (q.scaled target)

/-- An update that hears a quote it can scale, has room for the price and may pause
    the vault returns exactly if it hears no other quote or can blend the two. -/
theorem update_price_returns_iff (typed : Typed peers) {target : Nat} {first second : Option Quote} {w w' : W}
    (hears : Hears peers env s asset target first second w) (backed : Backed target first second)
    (room : ∀ price, Agreed s.own.deviation_threshold (first.map (fun q => q.taken target .primary))
      (second.map (fun q => q.taken target .secondary)) price → s.own.Room env asset price.price)
    (pauses : peers.pause_by (env.calling s.own.vault_callback) env.current_contract_address w = some ((), w')) :
    (∃ r, update_price peers env asset s = .ok r) ↔ ∀ q q', first = some q → second = some q' →
      Blendable s.own.deviation_threshold (q.scaled target) (q'.scaled target) := by
  constructor
  · rintro ⟨r,done⟩ q q' rfl rfl
    obtain ⟨fits,fits',settled⟩ := (update_price_hears typed hears).mp done
    rcases settle_price_cases settled with ⟨price,state,agreed,_⟩ | ⟨left,right,_,same,same',deviates,_⟩
    · cases agreed with
      | both _ _ deviates sum => exact ⟨⟨fits q rfl,fits' q' rfl,deviates.compared.1⟩,fun _ => sum⟩
    · cases same
      cases same'
      obtain ⟨product,deviating⟩ := deviates.compared
      exact ⟨⟨fits q rfl,fits' q' rfl,product⟩,fun near => absurd (deviating rfl) near⟩
  · intro blendable
    have recorded : ∀ price, Agreed s.own.deviation_threshold (first.map (fun q => q.taken target .primary))
        (second.map (fun q => q.taken target .secondary)) price → ∃ r, settle_price peers env asset
          (first.map (fun q => q.taken target .primary)) (second.map (fun q => q.taken target .secondary))
          { s with rest := w } = .ok r := by
      intro price agreed
      obtain ⟨state,next⟩ := room_iff.mp (room price agreed)
      exact ⟨_,agreed.settled next⟩
    obtain ⟨mid,mid',_,heard,heard'⟩ := id hears
    obtain ⟨good,among,fits⟩ := backed
    cases first with
    | none =>
      cases second with
      | none => rcases among with same | same <;> cases same
      | some q =>
        have same : q = good := by simpa using among
        subst same
        obtain ⟨r,settled⟩ := recorded _ (.secondary _)
        exact ⟨r,(update_price_hears typed hears).mpr ⟨by simp,by simpa using fits,settled⟩⟩
    | some q =>
      cases second with
      | none =>
        have same : q = good := by simpa using among
        subst same
        obtain ⟨r,settled⟩ := recorded _ (.primary _)
        exact ⟨r,(update_price_hears typed hears).mpr ⟨by simpa using fits,by simp,settled⟩⟩
      | some q' =>
        obtain ⟨comparable,sum⟩ := blendable q q' rfl rfl
        have deviates : Deviates s.own.deviation_threshold (q.scaled target) (q'.scaled target) _ :=
          comparable.deviates (exactly_nonneg (answers_of_usable typed heard).positive _ _)
            (exactly_nonneg (answers_of_usable typed heard').positive _ _)
        by_cases deviating : Deviating s.own.deviation_threshold (q.scaled target) (q'.scaled target)
        · rw [decide_eq_true deviating] at deviates
          have settled : settle_price peers env asset (some (q.taken target .primary)) (some (q'.taken target .secondary))
              { s with rest := w } = _ := Deviates.settled asset deviates pauses
          exact ⟨_,(update_price_hears typed hears).mpr
            ⟨by simpa using comparable.1,by simpa using comparable.2.1,settled⟩⟩
        · rw [decide_eq_false deviating] at deviates
          obtain ⟨r,settled⟩ := recorded _ (.both _ _ deviates (sum deviating))
          exact ⟨r,(update_price_hears typed hears).mpr
            ⟨by simpa using comparable.1,by simpa using comparable.2.1,settled⟩⟩

end Rules

end Helix.Oracle
