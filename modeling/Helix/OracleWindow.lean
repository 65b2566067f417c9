import Helix.OracleServed

/-!
The window of an average. The samples of an asset are the prices recorded from the
update on that found no window running, each within the window of it. `get_twap`
answers their average; they are the prices of the last so many seconds exactly if
the window began within these, and all prices recorded before it did not
(`twap_of_window`).
-/
namespace Helix.Oracle
open Invoke

section Windows
variable {W : Type} (adaptor asset : Address)

/-- A window: an update that recorded a price when no window was running, and later
    ones that did within the window of it. -/
structure Opened (opening : Served W) (after : List (Served W)) : Prop where
  records : (recording asset opening).isSome = true
  first : begins adaptor asset opening
  within : ∀ x ∈ recorded asset after, ∃ v, x.update.before.state.own = some v ∧
    (Delivery.clock x.update).timestamp - (Delivery.clock opening).timestamp < v.twap_window

/-- The last window of a history: none before a price is recorded, and else the one
    that the stored average is of. -/
inductive Windowed (past : List (Served W)) : Option (Lease TWAPData) → Prop
  | nothing : recorded asset past = [] → Windowed past none
  | window (before : List (Served W)) (opening : Served W) (after : List (Served W)) (state : Lease TWAPData) :
      past = before ++ opening :: after → Opened adaptor asset opening after →
      gathered adaptor asset past = recorded asset (opening :: after) →
      state.value.window_start = (Delivery.clock opening).timestamp → Windowed past (some state)

variable {adaptor asset} {peers : Peers W}

/-- A recorded price begins a window or joins the one that is running. -/
theorem Windowed.joined {past : List (Served W)} {r : Served W} {v : HelixOracleAdaptor} {price : PriceData}
    {state : TWAPData} (running : Windowed adaptor asset past (v.twap_state asset)) (found : r.before.state.own = some v)
    (next : Next (r.env adaptor).timestamp v.twap_window (v.twap (r.env adaptor) asset) price.price state)
    (records : recording asset r = some price) :
    Windowed adaptor asset (past ++ [r]) (some (renewed (r.env adaptor) (v.twap_state asset) state)) := by
  have gathers : gathered adaptor asset (past ++ [r]) = gather adaptor asset (gathered adaptor asset past) r :=
    gathered_append past r
  have single : recorded asset [r] = [⟨r,price⟩] := by simp [recorded,records]
  cases next with
  | reset ended =>
    have first : begins adaptor asset r := by
      intro v' own
      rw [found] at own
      cases own
      exact ended
    refine .window past r [] _ rfl ⟨by rw [records]; rfl,first,by simp [recorded]⟩ ?_ (by rw [renewed_value]; rfl)
    rw [gathers,gather,records,single]
    simp only [if_pos first]
  | sample runs fits =>
    have further : ¬ begins adaptor asset r := fun first => runs (first v found)
    have late : (v.twap (r.env adaptor) asset).num_samples ≠ 0 ∧
        (r.env adaptor).timestamp - (v.twap (r.env adaptor) asset).window_start < v.twap_window :=
      ⟨fun zero => runs (.inl zero),not_le.mp (fun ended => runs (.inr ended))⟩
    cases live : Lease.read (r.env adaptor).sequence (v.twap_state asset) with
    | none =>
      have empty : (v.twap (r.env adaptor) asset).num_samples = 0 := by
        unfold HelixOracleAdaptor.twap
        rw [live]
        rfl
      exact absurd empty late.1
    | some current =>
      obtain ⟨lease,entry,rfl,_⟩ := Lease.read_some live
      have seen : v.twap (r.env adaptor) asset = lease.value := by
        unfold HelixOracleAdaptor.twap
        rw [live]
        rfl
      rw [entry] at running ⊢
      rw [seen] at late ⊢
      cases running with
      | window before opening after _ split opened samples start =>
        rw [start] at late
        refine .window before opening (after ++ [r]) _ (by rw [split]; simp) ⟨opened.records,opened.first,?_⟩ ?_
          (by rw [renewed_value]; exact start)
        · rw [recorded_append,single]
          exact List.forall_mem_append.mpr ⟨opened.within,List.forall_mem_singleton.mpr ⟨v,found,late.2⟩⟩
        · rw [gathers,gather,records,samples,← List.cons_append,recorded_append (opening :: after),single]
          simp only [if_neg further]

theorem running_kept {past : List (Served W)} {r : Served W} (makes : Makes (serve peers adaptor) r)
    (running : Windowed adaptor asset past (stored asset r.before).1) :
    Windowed adaptor asset (past ++ [r]) (stored asset r.after).1 := by
  cases sampled_of_makes asset makes with
  | recorded v target primary secondary price state w found left surveyed agreed next told =>
    simp only [stored,found] at running
    simp only [stored,left,HelixOracleAdaptor.recorded,if_true]
    exact running.joined found next (by simp [recording,told])
  | idle same entries =>
    have idle := recording_idle same
    have nothing : recorded asset [r] = [] := by simp [recorded,idle]
    have gathers : gathered adaptor asset (past ++ [r]) = gathered adaptor asset past := by
      rw [gathered_append,gather,idle]
    rw [entries]
    generalize (stored asset r.before).1 = entry at running ⊢
    cases running with
    | nothing none => exact .nothing (by rw [recorded_append,none,nothing]; rfl)
    | window before opening after state split opened samples start =>
      refine .window before opening (after ++ [r]) state (by rw [split]; simp) ⟨opened.records,opened.first,?_⟩ ?_ start
      · rw [recorded_append,nothing,List.append_nil]
        exact opened.within
      · rw [gathers,samples,← List.cons_append,recorded_append (opening :: after),nothing,List.append_nil]

/-- In every run, the stored average is of the last window. -/
theorem serve_running (peers : Peers W) (adaptor : Address) (clock : Clock) (w : W) (calls : List (Origin × Action W))
    (asset : Address) : Windowed adaptor asset (trace (serve peers adaptor) (undeployed clock w) calls)
      (stored asset (run (serve peers adaptor) (undeployed clock w) calls)).1 := by
  apply run_history (serve peers adaptor) (fun past c => Windowed adaptor asset past (stored asset c).1) calls
  · exact .nothing rfl
  · intro past r _ makes running
    exact running_kept makes running

/-! ### The last so many seconds -/

/-- The prices that were recorded from a time to another. -/
def recordedBetween (asset : Address) (past : List (Served W)) (earliest latest : Nat) : List (Sample W) :=
  (recorded asset past).filter (fun x =>
    decide (earliest ≤ (Delivery.clock x.update).timestamp ∧ (Delivery.clock x.update).timestamp ≤ latest))

/-- The end of a list is what a condition selects from it exactly if all of it meets
    the condition and nothing before does. -/
theorem selects_end {α : Type} {p : α → Bool} {earlier later : List α} {x : α} (member : x ∈ later)
    (after : p x = true → ∀ y ∈ later, p y = true) :
    later = (earlier ++ later).filter p ↔ p x = true ∧ ∀ y ∈ earlier, ¬ p y = true := by
  rw [List.filter_append]
  constructor
  · intro same
    have chosen : p x = true := by
      rw [same] at member
      rcases List.mem_append.mp member with old | new
      · exact (List.mem_filter.mp old).2
      · exact (List.mem_filter.mp new).2
    have all : later.filter p = later := List.filter_eq_self.mpr (after chosen)
    rw [all] at same
    have nothing : earlier.filter p = [] := List.self_eq_append_left.mp same
    exact ⟨chosen,List.filter_eq_nil_iff.mp nothing⟩
  · rintro ⟨chosen,nothing⟩
    rw [List.filter_eq_nil_iff.mpr nothing,List.filter_eq_self.mpr (after chosen)]
    rfl

/-- The samples of a window are the prices recorded since some time exactly if the
    window began since then and no price before it was recorded since then. -/
theorem window_between {before : List (Served W)} {opening : Served W} {after : List (Served W)} {earliest latest : Nat}
    (clocks : (before ++ opening :: after).Pairwise (fun r q => (Delivery.clock r).Earlier (Delivery.clock q)))
    (ends : ∀ r ∈ before ++ opening :: after, (Delivery.clock r).timestamp ≤ latest)
    (records : (recording asset opening).isSome = true) :
    recorded asset (opening :: after) = recordedBetween asset (before ++ opening :: after) earliest latest ↔
      earliest ≤ (Delivery.clock opening).timestamp ∧
        ∀ x ∈ recorded asset before, (Delivery.clock x.update).timestamp < earliest := by
  obtain ⟨price,told⟩ := Option.isSome_iff_exists.mp records
  have within := (List.pairwise_append.mp clocks).2.1
  have member : ⟨opening,price⟩ ∈ recorded asset (opening :: after) := mem_recorded.mpr ⟨List.mem_cons_self,told⟩
  have ended : ∀ r ∈ before, (Delivery.clock r).timestamp ≤ latest := fun r inside =>
    ends r (List.mem_append_left _ inside)
  have ended' : ∀ r ∈ opening :: after, (Delivery.clock r).timestamp ≤ latest := fun r inside =>
    ends r (List.mem_append_right _ inside)
  have follows : ∀ r ∈ opening :: after, (Delivery.clock opening).timestamp ≤ (Delivery.clock r).timestamp := by
    intro r inside
    rcases List.mem_cons.mp inside with rfl | later
    · exact le_rfl
    · exact ((List.pairwise_cons.mp within).1 r later).timestamp
  rw [recordedBetween,recorded_append,selects_end member]
  · simp only [decide_eq_true_eq]
    apply and_congr (and_iff_left (ended' opening List.mem_cons_self))
    apply forall₂_congr
    intro x inside
    have bound := ended x.update (mem_recorded.mp inside).1
    omega
  · intro chosen x inside
    simp only [decide_eq_true_eq] at chosen ⊢
    have later := (mem_recorded.mp inside).1
    exact ⟨chosen.1.trans (follows x.update later),ended' x.update later⟩

end Windows

/-- The duration that `get_twap` cuts to the window. -/
def effective (window duration : Nat) : Nat := if duration = 0 then window else min duration window

theorem effective_whole {window duration : Nat} (whole : duration = 0 ∨ window ≤ duration) :
    effective window duration = window := by
  unfold effective
  split
  · rfl
  · rename_i some
    exact min_eq_right (whole.resolve_left some)

/-- In every run, for every duration that leaves the configured window whole: what
    `get_twap` answers is the average of exactly the prices recorded since the
    update that last began a window, each within the window of it. These are the
    prices recorded in the window before the reading exactly if that update was
    within it, and all prices recorded earlier were not. -/
theorem twap_of_window {W : Type} (peers : Peers W) (adaptor : Address) (clock : Clock) (w : W)
    (calls : List (Origin × Action W)) (origin : Origin) (asset : Address) (duration : Nat) (v : HelixOracleAdaptor)
    (price : Int) (timestamp : Nat) :
    let past := trace (serve peers adaptor) (undeployed clock w) calls
    let c := run (serve peers adaptor) (undeployed clock w) calls
    let env := origin.env (c.clock.advance origin) adaptor
    c.state.own = some v → duration = 0 ∨ v.twap_window ≤ duration →
    answer (get_twap env asset duration) c.state = some (price, timestamp) →
    ∃ before opening after, past = before ++ opening :: after ∧ Opened adaptor asset opening after ∧
      (let samples := recorded asset (opening :: after)
      let start := env.timestamp - effective v.twap_window duration
      price = (sum_prices samples).tdiv (min samples.length u32Max : Nat) ∧
        (samples = recordedBetween asset past start env.timestamp ↔
          start ≤ (Delivery.clock opening).timestamp ∧
            ∀ x ∈ recorded asset before, (Delivery.clock x.update).timestamp < start)) := by
  intro past c env found whole shown
  rw [effective_whole whole]
  obtain ⟨v',_,found',priced⟩ := answer_some shown
  have same : v = v' := Option.some.inj (found.symm.trans found')
  subst same
  have averages := serve_averages peers adaptor clock w calls asset
  have running : Windowed adaptor asset past (stored asset c).1 := serve_running peers adaptor clock w calls asset
  have entry : (stored asset c).1 = v.twap_state asset := by simp only [stored,found]
  rw [← gathered_eq,stored,found'] at averages
  rw [entry] at running
  have served : lastprice env asset ⟨v,c.state.rest⟩ = .ok ((price,timestamp), _) := priced
  obtain ⟨average,earlier,last,split,_⟩ := averages.shown served
  obtain ⟨clocks,ends⟩ := @deliver_clocks _ _ _ _ adaptor (act peers) (undeployed clock w) calls
  generalize v.twap_state asset = state at running
  cases running with
  | nothing none =>
    have member : last ∈ gathered adaptor asset past := by rw [split]; simp
    have recorded := gathered_recorded member
    rw [none] at recorded
    cases recorded
  | window before opening after _ parts opened samples start =>
    refine ⟨before,opening,after,parts,opened,?_,?_⟩
    · rw [← samples]
      exact average
    · rw [show past = _ from parts]
      have passed : c.clock.timestamp ≤ env.timestamp := Nat.le_add_right _ _
      refine window_between (by rw [← parts]; exact clocks) ?_ opened.records
      intro r inside
      rw [← parts] at inside
      exact (ends r inside).timestamp.trans passed

/-- Two prices of two are the samples of a window. -/
theorem twap_of_window_halved :
    ∃ before opening after, trace Small.step Small.start Small.halved = before ++ opening :: after ∧
      Opened Small.adaptor Small.asset opening after ∧
      200000000000000 = (sum_prices (recorded Small.asset (opening :: after))).tdiv
        (min (recorded Small.asset (opening :: after)).length u32Max : Nat) := by
  obtain ⟨v,found,_⟩ := Option.map_eq_some_iff.mp (show (run Small.step Small.start Small.halved).state.own.map
    (fun v => v.twap_window) = some 1800 by decide +kernel)
  obtain ⟨before,opening,after,parts,opened,average,_⟩ := twap_of_window Small.peers Small.adaptor ⟨0,0⟩ Small.feeds
    Small.halved (.signedBy Small.keeper) Small.asset 0 v 200000000000000 20 found (.inl rfl) (by decide +kernel)
  exact ⟨before,opening,after,parts,opened,average⟩

namespace Small

/-- A call that comes in so many seconds after the last one. -/
def after (seconds : Nat) : Origin := { Origin.signedBy keeper with seconds := seconds }

/-- Only the first source goes on to answer, with twice the price, which is updated
    after most of the window. -/
def doubled : List (Origin × Action Feeds) :=
  opening ++ [(.signedBy keeper,.outside (fun _ source =>
    if source = primary_oracle then some (14, 400000000000000) else none)),(after 1680,.oracle (.update_price asset))]

end Small

/-- A window of half an hour began with a price of two, and a price of four joined it
    near its end. Five minutes later only the four was recorded in the last half an
    hour, and the average served is three. -/
theorem twap_older_than_window :
    let past := trace Small.step Small.start Small.doubled
    let c := run Small.step Small.start Small.doubled
    let env := (Small.after 300).env (c.clock.advance (Small.after 300)) Small.adaptor
    c.state.own.map (fun v => v.twap_window) = some 1800 ∧
      answer (get_twap env Small.asset 0) c.state = some (300000000000000, 1695) ∧
      (recordedBetween Small.asset past (env.timestamp - 1800) env.timestamp).map (fun x => x.price.price) =
        [400000000000000] := by
  decide +kernel

end Helix.Oracle
