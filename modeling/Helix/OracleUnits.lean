import Helix.OracleSystem

/-!
The unit of the price that an adaptor shows. Every price of an average was scaled
to the decimals that the sources told at its update (`serve_scaled`), while
`decimals` tells those that the sources tell now: the shown price is in the shown
decimals exactly when these are the same for all of the average (`unit_agreement_iff`).
-/
namespace Helix.Oracle
open Invoke

section Units
variable {W : Type}

/-- What a reading entry point answers in a state: nothing where it fails, or where
    there is no adaptor yet. -/
def answer {α : Type} (code : Contract W α) (s : State W) : Option α :=
  match s.own with
  | none => none
  | some v =>
    match code ⟨v,s.rest⟩ with
    | .ok r => some r.1
    | .error _ => none

/-- The decimals that the sources tell: those of the primary one, or of the
    secondary one if the primary one tells none. -/
def told (peers : Peers W) (env : Env) (asset : Address) (s : State W) : Option Nat :=
  match s.own with
  | none => none
  | some v =>
    match peers.decimals (env.calling v.primary_oracle) asset s.rest with
    | (some decimals, _) => some decimals
    | (none, w) => (peers.decimals (env.calling v.secondary_oracle) asset w).1

/-- The price of an update is what the sources, scaled to some decimals, agree on. -/
def ScaledTo (peers : Peers W) (adaptor asset : Address) (decimals : Nat) (x : Sample W) : Prop :=
  ∃ v primary secondary w, x.update.before.state.own = some v ∧
    Surveyed peers (x.update.env adaptor) ⟨v,x.update.before.state.rest⟩ asset decimals primary secondary w ∧
    Agreed v.deviation_threshold primary secondary x.price

/-- A shown price is an average of samples, the last of which is the cached price,
    and all of which were scaled to some decimals. -/
structure ServedIn (peers : Peers W) (adaptor asset : Address) (decimals : Nat) (s : State W)
    (samples : List (Sample W)) (price : Int) : Prop where
  average : price = (sum_prices samples).tdiv (min samples.length u32Max : Nat)
  cached : ∃ v earlier last, s.own = some v ∧ samples = earlier ++ [last] ∧
    (v.cached_price asset).map Lease.value = some last.price
  scaled : ∀ x ∈ samples, ScaledTo peers adaptor asset decimals x

theorem answer_some {α : Type} {code : Contract W α} {s : State W} {a : α} (answers : answer code s = some a) :
    ∃ v s', s.own = some v ∧ code ⟨v,s.rest⟩ = .ok (a, s') := by
  unfold answer at answers
  cases found : s.own with
  | none => simp [found] at answers
  | some v =>
    simp only [found] at answers
    cases ran : code ⟨v,s.rest⟩ with
    | error e => simp [ran] at answers
    | ok r =>
      simp only [ran,Option.some.injEq] at answers
      exact ⟨v,r.2,rfl,by rw [ran,← answers]⟩

variable {peers : Peers W} {adaptor : Address}

/-- The common decimals of a call are those that the sources tell. -/
theorem told_of_target {env : Env} {asset : Address} {s : State W} {v : HelixOracleAdaptor} {decimals : Nat} {w : W}
    (found : s.own = some v) (target : Target peers env v asset decimals s.rest w) :
    told peers env asset s = some decimals := by
  unfold told
  rw [found]
  generalize s.rest = rest at target
  cases target with
  | primary _ answered => simp only [answered]
  | secondary _ _ silent answered => simp only [silent,answered]

theorem ScaledTo.told {asset : Address} {decimals : Nat} {x : Sample W} (scaled : ScaledTo peers adaptor asset decimals x) :
    told peers (x.update.env adaptor) asset x.update.before.state = some decimals := by
  obtain ⟨v,primary,secondary,w,found,⟨first,_,target,_⟩,_⟩ := scaled
  exact told_of_target found target

/-- A transition adds samples that were scaled, and no others. -/
theorem scaled_kept {asset : Address} {samples : List (Sample W)} {r : Served W} (makes : Makes (serve peers adaptor) r)
    (held : ∀ x ∈ samples, ∃ decimals, ScaledTo peers adaptor asset decimals x) :
    ∀ x ∈ accumulate asset samples r, ∃ decimals, ScaledTo peers adaptor asset decimals x := by
  cases sampled_of_makes asset makes with
  | recorded v target primary secondary price state w found left surveyed agreed next said =>
    have scaled : ∀ x ∈ [(⟨r,price⟩ : Sample W)], ∃ decimals, ScaledTo peers adaptor asset decimals x :=
      List.forall_mem_singleton.mpr ⟨target,v,primary,secondary,w,found,surveyed,agreed⟩
    simp only [accumulate,said,if_true]
    split
    · exact scaled
    · exact List.forall_mem_append.mpr ⟨held,scaled⟩
  | idle same entries =>
    rw [same]
    exact held

/-- In every run, each price of an average was scaled to some decimals. -/
theorem serve_scaled (peers : Peers W) (adaptor : Address) (clock : Clock) (w : W) (calls : List (Origin × Action W))
    (asset : Address) :
    ∀ x ∈ accumulated asset (trace (serve peers adaptor) (undeployed clock w) calls),
      ∃ decimals, ScaledTo peers adaptor asset decimals x := by
  apply run_history (serve peers adaptor) (fun past _ => ∀ x ∈ accumulated asset past,
    ∃ decimals, ScaledTo peers adaptor asset decimals x) calls
  · simp [accumulated]
  · intro past r _ makes held
    rw [accumulated_append]
    exact scaled_kept makes held

/-- What `lastprice` shows is the average of the samples. -/
theorem Averages.shown {asset : Address} {samples : List (Sample W)} {v : HelixOracleAdaptor} {env : Env} {w : W}
    {price : Int × Nat} {s' : World HelixOracleAdaptor W}
    (averages : Averages samples (v.twap_state asset,v.cached_price asset))
    (shown : lastprice env asset ⟨v,w⟩ = .ok (price, s')) :
    price.1 = (sum_prices samples).tdiv (min samples.length u32Max : Nat) ∧
      ∃ earlier last, samples = earlier ++ [last] ∧ (v.cached_price asset).map Lease.value = some last.price := by
  obtain ⟨cached,live,_,same⟩ := lastprice_ok.mp shown
  obtain ⟨lease,(found : v.cached_price asset = some lease),value,current⟩ := Lease.read_some live
  rw [found] at averages ⊢
  simp only at same
  generalize v.twap_state asset = entry at averages same
  cases averages with
  | window last earlier state _ split lives last_price sum count =>
    have inside : Lease.read env.sequence (some state) = some state.value := if_pos (current.trans lives.ge)
    have positive : 0 < state.value.num_samples := by
      rw [count,split,List.length_append,List.length_singleton]
      exact lt_min (Nat.succ_pos _) (by decide)
    refine ⟨?_,earlier,last,split,by rw [Option.map_some,last_price]⟩
    rw [inside,average,if_pos positive,Prod.mk.injEq] at same
    rw [same.1,sum,count]

end Units

/-- Whenever `lastprice` and `decimals` both answer in a state that a run reaches,
    the price is an average of prices that were scaled to these decimals exactly
    if the sources told the same decimals at each of their updates as they tell
    now. -/
theorem unit_agreement_iff {W : Type} (peers : Peers W) (adaptor : Address) (clock : Clock) (w : W)
    (calls : List (Origin × Action W)) (env : Env) (asset : Address) (price : Int) (timestamp tells : Nat) :
    let now := (run (serve peers adaptor) (undeployed clock w) calls).state
    let samples := accumulated asset (trace (serve peers adaptor) (undeployed clock w) calls)
    answer (lastprice env asset) now = some (price, timestamp) → answer (decimals peers env asset) now = some tells →
    (ServedIn peers adaptor asset tells now samples price ↔
      ∀ x ∈ samples, told peers (x.update.env adaptor) asset x.update.before.state = told peers env asset now) := by
  intro now samples shown asked
  obtain ⟨v,_,found,priced⟩ := answer_some shown
  obtain ⟨v',_,found',ran⟩ := answer_some asked
  have averages := serve_averages peers adaptor clock w calls asset
  rw [stored,found] at averages
  obtain ⟨average,earlier,last,split,cached⟩ := averages.shown priced
  obtain ⟨_,target,_⟩ := decimals_ok.mp ran
  rw [told_of_target found' target]
  constructor
  · intro served x member
    exact (served.scaled x member).told
  · intro agree
    refine ⟨average,⟨v,earlier,last,found,split,cached⟩,?_⟩
    intro x member
    obtain ⟨other,scaled⟩ := serve_scaled peers adaptor clock w calls asset x member
    have same : some other = some tells := scaled.told.symm.trans (agree x member)
    cases same
    exact scaled

namespace Small

def admin : Address := .account (BytesN.fill 32 1)
def keeper : Address := .account (BytesN.fill 32 2)
def primary_oracle : Address := .contract (BytesN.fill 32 3)
def secondary_oracle : Address := .contract (BytesN.fill 32 4)
def vault : Address := .contract (BytesN.fill 32 5)
def adaptor : Address := .contract (BytesN.fill 32 6)
def asset : Address := .contract (BytesN.fill 32 7)

/-- What a source answers, if it does: its decimals and its price, always of now. -/
abbrev Feeds : Type := Address → Option (Nat × Int)

def peers : Peers Feeds where
  decimals env _ w := ((w env.current_contract_address).map (fun feed => feed.1), w)
  lastprice env _ w := ((w env.current_contract_address).map (fun feed => (feed.2, env.timestamp)), w)
  pause_by _ _ w := some ((), w)
  unpause_by _ _ w := some ((), w)

/-- The price is two, in 14 decimals of the primary source and 7 of the secondary. -/
def feeds : Feeds := fun source =>
  if source = primary_oracle then some (14, 200000000000000)
  else if source = secondary_oracle then some (7, 20000000)
  else none

abbrev step := serve peers adaptor
abbrev start : Chain (State Feeds) := undeployed ⟨0,0⟩ feeds

def calls (signer : Address) (entry : Entry) : Origin × Action Feeds := (.signedBy signer,.oracle entry)

/-- A source stops to answer. -/
def outage (source : Address) : Origin × Action Feeds :=
  (.signedBy keeper,.outside (fun w other => if other = source then none else w other))

/-- The adaptor is initialized and stores a price. -/
def opening : List (Origin × Action Feeds) :=
  [calls admin (.initialise admin primary_oracle secondary_oracle vault),calls keeper (.update_price asset)]

/-- The primary source stops to answer after the price is stored. -/
def silenced : List (Origin × Action Feeds) := opening ++ [outage primary_oracle]

/-- The secondary source stops to answer, and another price is stored. -/
def halved : List (Origin × Action Feeds) := opening ++ [outage secondary_oracle,calls keeper (.update_price asset)]

/-- What a call to the adaptor sees after the calls. -/
def reading : Env := (Origin.signedBy keeper).env ⟨5,25⟩ adaptor

end Small

/-- Prices of two were stored in the 14 decimals of the primary source. As long as
    it answers, `decimals` tells these. -/
theorem unit_agreement_halved :
    let now := (run Small.step Small.start Small.halved).state
    let samples := accumulated Small.asset (trace Small.step Small.start Small.halved)
    answer (decimals Small.peers Small.reading Small.asset) now = some 14 ∧
      ServedIn Small.peers Small.adaptor Small.asset 14 now samples 200000000000000 := by
  have shown : answer (lastprice Small.reading Small.asset) (run Small.step Small.start Small.halved).state =
      some (200000000000000, 20) := by decide +kernel
  have asked : answer (decimals Small.peers Small.reading Small.asset) (run Small.step Small.start Small.halved).state =
      some 14 := by decide +kernel
  have agree : ∀ x ∈ accumulated Small.asset (trace Small.step Small.start Small.halved),
      told Small.peers (x.update.env Small.adaptor) Small.asset x.update.before.state =
        told Small.peers Small.reading Small.asset (run Small.step Small.start Small.halved).state := by decide +kernel
  exact ⟨asked,(unit_agreement_iff Small.peers Small.adaptor ⟨0,0⟩ Small.feeds Small.halved Small.reading Small.asset
    200000000000000 20 14 shown asked).mpr agree⟩

/-- Once the primary source is silent, `decimals` tells the 7 of the secondary one:
    in these the price of two is ten million times too high. -/
theorem units_differ_in_outage :
    let now := (run Small.step Small.start Small.silenced).state
    let samples := accumulated Small.asset (trace Small.step Small.start Small.silenced)
    answer (lastprice Small.reading Small.asset) now = some (200000000000000, 10) ∧
      answer (decimals Small.peers Small.reading Small.asset) now = some 7 ∧
      ¬ ServedIn Small.peers Small.adaptor Small.asset 7 now samples 200000000000000 := by
  have stored : (accumulated Small.asset (trace Small.step Small.start Small.silenced)).map (fun x =>
      told Small.peers (x.update.env Small.adaptor) Small.asset x.update.before.state) = [some 14] := by decide +kernel
  refine ⟨by decide +kernel,by decide +kernel,?_⟩
  intro served
  obtain ⟨x,member,fourteen⟩ := List.mem_map.mp (stored ▸ List.mem_singleton_self (some 14))
  have seven := (served.scaled x member).told
  rw [fourteen] at seven
  cases seven

end Helix.Oracle
