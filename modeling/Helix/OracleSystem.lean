import Mathlib.Algebra.BigOperators.Group.List.Basic
import Helix.OracleCalls

/-!
The oracle adaptor on a chain, where sources and vault may change in any way
between its calls. The updates whose prices the stored average of an asset holds
are those since the one that last began a window (`accumulated`): the average's
sum and count are theirs, and the cached price is the last of theirs
(`Averages`, `serve_averages`).
-/
namespace Helix.Oracle
open Invoke

/-- What happens on the chain: a call to the adaptor, or anything else outside it. -/
inductive Action (W : Type) where
  | oracle (entry : Entry)
  | outside (move : W → W)

/-- An adaptor that may not be initialized yet, and what is outside it. -/
abbrev State (W : Type) : Type := World (Option HelixOracleAdaptor) W

def act {W : Type} (peers : Peers W) (env : Env) : Action W → Invoke (State W) OracleError (Option OracleEvent)
  | .oracle entry => invoke peers env entry
  | .outside move => do
    write (fun s => { s with rest := move s.rest })
    pure none

/-- The chain with the adaptor on it. -/
abbrev serve {W : Type} (peers : Peers W) (adaptor : Address) :
    Chain (State W) → Origin × Action W → Except (Failure OracleError) (Option OracleEvent) × Chain (State W) :=
  deliver adaptor (act peers)

/-- A chain on which the adaptor is not initialized yet. -/
def undeployed {W : Type} (clock : Clock) (w : W) : Chain (State W) := ⟨clock,⟨none,w⟩⟩

/-- A transition of the chain. -/
abbrev Served (W : Type) : Type := Delivery (State W) OracleError (Action W) (Option OracleEvent)

section Transitions
variable {W : Type}

/-- What the adaptor published. -/
def published (r : Served W) : Option OracleEvent :=
  match r.output with
  | .ok event => event
  | .error _ => none

/-- An update that recorded a price. -/
structure Sample (W : Type) where
  update : Served W
  price : PriceData

/-- Take a transition into account: a price for the asset joins the samples, or
    replaces them where it is the first of a window. -/
def accumulate (asset : Address) (samples : List (Sample W)) (r : Served W) : List (Sample W) :=
  match published r with
  | some (.price_update updated price timestamp source num_samples) =>
    if updated = asset then
      if num_samples = 1 then [⟨r,⟨price,timestamp,source⟩⟩] else samples ++ [⟨r,⟨price,timestamp,source⟩⟩]
    else samples
  | _ => samples

/-- The updates whose prices the stored average of an asset holds. -/
def accumulated (asset : Address) (past : List (Served W)) : List (Sample W) := past.foldl (accumulate asset) []

/-- The sum of the prices of some samples. -/
def sum_prices (samples : List (Sample W)) : Int := (samples.map (fun x => x.price.price)).sum

theorem accumulated_append (asset : Address) (past : List (Served W)) (r : Served W) :
    accumulated asset (past ++ [r]) = accumulate asset (accumulated asset past) r := by
  simp [accumulated]

/-- What a transition does. -/
inductive Turn (peers : Peers W) (adaptor : Address) (r : Served W) : Prop
  | called (entry : Entry) (event : Option OracleEvent) (v v' : HelixOracleAdaptor) :
      r.input.2 = .oracle entry → r.output = .ok event → r.before.state.own = some v → r.after.state.own = some v' →
      Effect peers (r.env adaptor) ⟨v,r.before.state.rest⟩ entry event ⟨v',r.after.state.rest⟩ → Turn peers adaptor r
  | initialised (admin primary secondary vault : Address) :
      r.input.2 = .oracle (.initialise admin primary secondary vault) → r.output = .ok none →
      r.before.state.own = none → r.after.state.own = some (fresh admin primary secondary vault) → Turn peers adaptor r
  | moved (move : W → W) : r.input.2 = .outside move → r.output = .ok none →
      r.after.state.own = r.before.state.own → Turn peers adaptor r
  | failed (e : Failure OracleError) : r.output = .error e → r.after.state = r.before.state → Turn peers adaptor r

variable {peers : Peers W} {adaptor : Address}

theorem turn_of_makes {r : Served W} (makes : Makes (serve peers adaptor) r) : Turn peers adaptor r := by
  rcases Delivery.cases makes with ⟨event,out,ran⟩ | ⟨e,out,same⟩
  · cases input : r.input.2 with
    | oracle entry =>
      rw [input] at ran
      rcases invoke_cases ran with ⟨v,v',found,left,effect⟩ | ⟨missing,admin,primary,secondary,vault,rfl,rfl,left⟩
      · exact .called entry event v v' input out found left effect
      · exact .initialised admin primary secondary vault input out missing (by rw [left])
    | outside move =>
      rw [input] at ran
      simp only [act,bind_ok,write_ok,pure_ok,exists_eq_left,Prod.mk.injEq] at ran
      obtain ⟨rfl,after⟩ := ran
      exact .moved move input out (by rw [after])
  · exact .failed e out same

/-! ### What is stored for an asset -/

/-- What is stored for an asset: nothing before there is an adaptor. -/
def stored (asset : Address) (c : Chain (State W)) : Option (Lease TWAPData) × Option (Lease PriceData) :=
  match c.state.own with
  | none => (none,none)
  | some v => (v.twap_state asset,v.cached_price asset)

/-- What a transition does to what is stored for an asset: it records a price that
    the sources agree on, or nothing. -/
inductive Sampled (peers : Peers W) (adaptor asset : Address) (r : Served W) : Prop
  | recorded (v : HelixOracleAdaptor) (target : Nat) (primary secondary : Option PriceData) (price : PriceData)
      (state : TWAPData) (w : W) : r.before.state.own = some v →
      r.after.state.own = some (v.recorded (r.env adaptor) asset price state) →
      Surveyed peers (r.env adaptor) ⟨v,r.before.state.rest⟩ asset target primary secondary w →
      Agreed v.deviation_threshold primary secondary price →
      Next (r.env adaptor).timestamp v.twap_window (v.twap (r.env adaptor) asset) price.price state →
      published r = some (.price_update asset price.price price.timestamp price.source state.num_samples) →
      Sampled peers adaptor asset r
  | idle : (∀ samples, accumulate asset samples r = samples) → stored asset r.after = stored asset r.before →
      Sampled peers adaptor asset r

theorem sampled_of_makes (asset : Address) {r : Served W} (makes : Makes (serve peers adaptor) r) :
    Sampled peers adaptor asset r := by
  cases turn_of_makes makes with
  | called entry event v v' input out found left effect =>
    have told : published r = event := by simp [published,out]
    generalize after : (⟨v',r.after.state.rest⟩ : World HelixOracleAdaptor W) = s' at effect
    have own : v' = s'.own := by rw [← after]
    subst own
    cases effect with
    | safe_mode updated target primary secondary w w' surveyed deviates paused =>
      exact .idle (fun _ => by simp [accumulate,told]) (by simp [stored,found,left])
    | update_price updated target primary secondary price state w surveyed agreed next =>
      by_cases same : updated = asset
      · subst same
        exact .recorded v target primary secondary price state w found left surveyed agreed next told
      · exact .idle (fun _ => by simp [accumulate,told,same])
          (by simp [stored,found,left,HelixOracleAdaptor.recorded,Ne.symm same])
    | set_safe_mode enabled w authorised paused =>
      exact .idle (fun _ => by simp [accumulate,told]) (by simp [stored,found,left])
    | configure primary secondary twap_window staleness deviation authorised =>
      exact .idle (fun _ => by simp [accumulate,told]) (by simp [stored,found,left,HelixOracleAdaptor.configured])
  | initialised admin primary secondary vault input out missing left =>
    exact .idle (fun _ => by simp [accumulate,published,out]) (by simp [stored,missing,left,fresh])
  | moved move input out own => exact .idle (fun _ => by simp [accumulate,published,out]) (by simp [stored,own])
  | failed e out same => exact .idle (fun _ => by simp [accumulate,published,out]) (by simp [stored,same])

/-! ### What the average holds -/

/-- What is stored for an asset is what its samples come to; the average and the
    cached price live equally long. -/
inductive Averages (samples : List (Sample W)) : Option (Lease TWAPData) × Option (Lease PriceData) → Prop
  | nothing : samples = [] → Averages samples (none,none)
  | window (last : Sample W) (earlier : List (Sample W)) (state : Lease TWAPData) (cached : Lease PriceData) :
      samples = earlier ++ [last] → state.live_until = cached.live_until → cached.value = last.price →
      state.value.cumulative_price = sum_prices samples → state.value.num_samples = min samples.length u32Max →
      Averages samples (some state,some cached)

section Averages
variable {asset : Address} {samples : List (Sample W)} {v : HelixOracleAdaptor} {env : Env}

/-- The average and the cached price live equally long. -/
theorem Averages.lives (averages : Averages samples (v.twap_state asset,v.cached_price asset)) :
    (v.twap_state asset).map Lease.live_until = (v.cached_price asset).map Lease.live_until := by
  generalize v.twap_state asset = state at averages ⊢
  generalize v.cached_price asset = cached at averages ⊢
  cases averages with
  | nothing empty => rfl
  | window last earlier state cached split lives last_price sum count => exact congrArg some lives

/-- The average that a call sees is empty or that of the samples. -/
theorem Averages.twap (averages : Averages samples (v.twap_state asset,v.cached_price asset))
    (running : (v.twap env asset).num_samples ≠ 0) : (v.twap env asset).cumulative_price = sum_prices samples ∧
      (v.twap env asset).num_samples = min samples.length u32Max := by
  unfold HelixOracleAdaptor.twap at running ⊢
  cases live : Lease.read env.sequence (v.twap_state asset) with
  | none =>
    rw [live] at running
    exact absurd rfl running
  | some state =>
    obtain ⟨lease,found,value,_⟩ := Lease.read_some live
    rw [found] at averages
    generalize v.cached_price asset = cached at averages
    cases averages with
    | window last earlier state cached split lives last_price sum count =>
      rw [Option.getD_some,← value]
      exact ⟨sum,count⟩

/-- A recorded price joins the samples as it joins the average. -/
theorem Averages.recorded {price : PriceData} {state : TWAPData} {r : Served W}
    (averages : Averages samples (v.twap_state asset,v.cached_price asset))
    (next : Next env.timestamp v.twap_window (v.twap env asset) price.price state)
    (told : published r = some (.price_update asset price.price price.timestamp price.source state.num_samples)) :
    Averages (accumulate asset samples r)
      (some (renewed env (v.twap_state asset) state),some (renewed env (v.cached_price asset) price)) := by
  have large : (1 : Nat) < u32Max := by decide
  cases next with
  | reset ended =>
    have first : accumulate asset samples r = [⟨r,price⟩] := by simp [accumulate,told]
    rw [first]
    exact .window ⟨r,price⟩ [] _ _ rfl (renewed_lives averages.lives) (by simp) (by simp [sum_prices])
      (by simp; omega)
  | sample running fits =>
    have positive : (v.twap env asset).num_samples ≠ 0 := fun zero => running (.inl zero)
    obtain ⟨sum,count⟩ := averages.twap positive
    have later : ¬ (if (v.twap env asset).num_samples < u32Max then (v.twap env asset).num_samples + 1
        else u32Max) = 1 := by
      split <;> omega
    have joined : accumulate asset samples r = samples ++ [⟨r,price⟩] := by
      simp only [accumulate,told,if_true,if_neg later]
    rw [joined]
    refine .window ⟨r,price⟩ samples _ _ rfl (renewed_lives averages.lives) (by simp) ?_ ?_
    · simp [sum_prices,sum]
    · simp only [renewed_value,count,List.length_append,List.length_singleton]
      split <;> omega

theorem averages_kept {r : Served W} (makes : Makes (serve peers adaptor) r)
    (held : Averages samples (stored asset r.before)) :
    Averages (accumulate asset samples r) (stored asset r.after) := by
  cases sampled_of_makes asset makes with
  | recorded v target primary secondary price state w found left surveyed agreed next told =>
    simp only [stored,found] at held
    simpa [stored,left,HelixOracleAdaptor.recorded] using held.recorded next told
  | idle same entries =>
    rw [same,entries]
    exact held

end Averages

/-- In every state that a run reaches, what is stored for an asset is what its
    samples come to. -/
theorem serve_averages (peers : Peers W) (adaptor : Address) (clock : Clock) (w : W) (calls : List (Origin × Action W))
    (asset : Address) :
    Averages (accumulated asset (trace (serve peers adaptor) (undeployed clock w) calls))
      (stored asset (run (serve peers adaptor) (undeployed clock w) calls)) := by
  apply run_history (serve peers adaptor) (fun past c => Averages (accumulated asset past) (stored asset c)) calls
  · exact .nothing rfl
  · intro past r _ makes held
    rw [accumulated_append]
    exact averages_kept makes held

end Transitions

end Helix.Oracle
