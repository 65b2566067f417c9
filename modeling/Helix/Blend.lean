import Helix.OracleWindow

/-!
The adaptor of `contracts/blend-oracle-adaptor`, through which a lending pool reads
prices of the oracle adaptor. It passes the price on as it is and tells decimals
of its own, those it was initialized with: the two are one price exactly if the
oracle it points to has the same decimals for the asset (`blend_decimals_iff`).
-/
namespace Helix.Blend
open Invoke

inductive Asset where
  | stellar (address : Address)
  | other (symbol : String)
  deriving DecidableEq

structure PriceData where
  price : Int
  timestamp : Nat
  deriving DecidableEq

inductive BlendOracleError where
  | NotInitialized
  | AlreadyInitialized
  | InvalidConfig
  deriving DecidableEq

/-- The storage of an initialized adaptor. -/
structure HelixBlendOracleAdaptor where
  admin : Address
  helix_oracle : Address
  base_asset : Asset
  assets : List Asset
  decimals : Nat
  resolution : Nat

/-- The oracle that the adaptor calls, each call with the environment the callee sees. -/
structure Peers (W : Type) where
  lastprice : Env → Address → W → Option ((Int × Nat) × W)
  decimals : Env → Address → W → Option (Nat × W)

abbrev Contract (W α : Type) : Type := Invoke (World HelixBlendOracleAdaptor W) BlendOracleError α

section Code
variable {W : Type} (peers : Peers W) (env : Env)

def contains_asset (target : Address) : List Asset → Bool
  | [] => false
  | .stellar address :: rest => if address = target then true else contains_asset target rest
  | .other _ :: rest => contains_asset target rest

/-! ### The price feed -/

def base : Contract W Asset := load (fun v => v.base_asset)
def assets : Contract W (List Asset) := load (fun v => v.assets)
def decimals : Contract W Nat := load (fun v => v.decimals)
def resolution : Contract W Nat := load (fun v => v.resolution)

def lastprice : Asset → Contract W (Option PriceData)
  | .other _ => pure none
  | .stellar asset_address => do
    let listed ← load (fun v => contains_asset asset_address v.assets)
    if listed = false then pure none
    else do
      let helix_oracle ← load (fun v => v.helix_oracle)
      let latest ← callOut (peers.lastprice (env.calling helix_oracle) asset_address)
      if latest.1 ≤ 0 then pure none else pure (some ⟨latest.1,latest.2⟩)

def price (asset : Asset) (timestamp : Nat) : Contract W (Option PriceData) := do
  let latest ← lastprice peers env asset
  pure (latest.filter (fun latest => decide (latest.timestamp = timestamp)))

def prices (asset : Asset) (records : Nat) : Contract W (Option (List PriceData)) :=
  if records = 0 then pure none
  else do
    let latest ← lastprice peers env asset
    pure (latest.map (fun latest => [latest]))

/-! ### Configuration -/

def require_admin_auth : Contract W Unit := do
  let admin ← load (fun v => v.admin)
  require_auth env admin

def set_helix_oracle (helix_oracle : Address) : Contract W Unit := do
  require_admin_auth env
  save (fun v => { v with helix_oracle := helix_oracle })

def set_assets (assets : List Asset) : Contract W Unit := do
  require_admin_auth env
  require (assets ≠ []) (.error .InvalidConfig)
  save (fun v => { v with assets := assets })

/-- The calls that change an adaptor; `initialise` is its `initialize`, a keyword
    here. -/
inductive Entry where
  | initialise (admin helix_oracle : Address) (base : Asset) (assets : List Asset) (decimals resolution : Nat)
  | set_helix_oracle (helix_oracle : Address)
  | set_assets (assets : List Asset)

/-- A call to an initialized adaptor. -/
def call : Entry → Contract W Unit
  | .initialise _ _ _ _ _ _ => fail .AlreadyInitialized
  | .set_helix_oracle helix_oracle => set_helix_oracle env helix_oracle
  | .set_assets assets => set_assets env assets

/-- A call to an adaptor that may not be initialized yet: until then every entry
    point but `initialise` refuses. -/
def invoke (entry : Entry) : Invoke (World (Option HelixBlendOracleAdaptor) W) BlendOracleError Unit := fun s =>
  match s.own, entry with
  | none, .initialise admin helix_oracle base assets decimals resolution =>
    if env.Authorised admin then
      if assets = [] ∨ resolution = 0 then .error (.error .InvalidConfig)
      else .ok ((), { s with own := some ⟨admin,helix_oracle,base,assets,decimals,resolution⟩ })
    else .error .trap
  | none, _ => .error (.error .NotInitialized)
  | some v, entry =>
    match call env entry ⟨v,s.rest⟩ with
    | .ok (_, t) => .ok ((), ⟨some t.own,t.rest⟩)
    | .error e => .error e

/-- What happens on the chain: a call to the adaptor, or anything else outside it. -/
inductive Action (W : Type) where
  | blend (entry : Entry)
  | outside (move : W → W)

/-- An adaptor that may not be initialized yet, and what is outside it. -/
abbrev State (W : Type) : Type := World (Option HelixBlendOracleAdaptor) W

def act : Action W → Invoke (State W) BlendOracleError Unit
  | .blend entry => invoke env entry
  | .outside move => write (fun s => { s with rest := move s.rest })

end Code

/-- The chain with the adaptor on it. -/
abbrev serve {W : Type} (self : Address) :
    Chain (State W) → Origin × Action W → Except (Failure BlendOracleError) Unit × Chain (State W) :=
  deliver self act

/-- A chain on which the adaptor is not initialized yet. -/
def undeployed {W : Type} (clock : Clock) (w : W) : Chain (State W) := ⟨clock,⟨none,w⟩⟩

/-- A transition of the chain. -/
abbrev Served (W : Type) : Type := Delivery (State W) BlendOracleError (Action W) Unit

/-! ### One price in two decimals -/

/-- Two prices are one, up to the digits that the one with fewer decimals drops. -/
def SameValue (price : Int) (decimals : Nat) (price' : Int) (decimals' : Nat) : Prop :=
  price / 10 ^ (decimals - decimals') = price' / 10 ^ (decimals' - decimals)

instance (price : Int) (decimals : Nat) (price' : Int) (decimals' : Nat) :
    Decidable (SameValue price decimals price' decimals') := inferInstanceAs (Decidable (_ = _))

/-- The same positive number is the same price in the same decimals only. -/
theorem sameValue_iff {price : Int} {decimals decimals' : Nat} (positive : 0 < price) :
    SameValue price decimals price decimals' ↔ decimals = decimals' := by
  unfold SameValue
  have smaller : ∀ k, k ≠ 0 → price / 10 ^ k < price := fun k some =>
    Int.ediv_lt_self_of_pos_of_ne_one positive (ne_of_gt (one_lt_pow₀ (by decide) some))
  constructor
  · intro same
    by_contra differ
    rcases Nat.lt_or_gt_of_ne differ with fewer | more
    · rw [Nat.sub_eq_zero_of_le fewer.le,pow_zero,Int.ediv_one] at same
      exact absurd same (smaller _ (by omega)).ne'
    · rw [Nat.sub_eq_zero_of_le more.le,pow_zero,Int.ediv_one] at same
      exact absurd same (smaller _ (by omega)).ne
  · rintro rfl
    rfl

section Runs
variable {W : Type} {peers : Peers W} {env : Env} {self : Address}

theorem call_decimals {entry : Entry} {s : World HelixBlendOracleAdaptor W} {r : Unit × World HelixBlendOracleAdaptor W}
    (done : call env entry s = .ok r) : r.2.own.decimals = s.own.decimals := by
  cases entry with
  | initialise => simp [call] at done
  | set_helix_oracle helix_oracle =>
    simp only [call,set_helix_oracle,require_admin_auth,bind_ok,load_ok,auth_ok,save_ok,exists_eq_left] at done
    obtain ⟨_,⟨_,rfl⟩,rfl⟩ := done
    rfl
  | set_assets assets =>
    simp only [call,set_assets,require_admin_auth,bind_ok,load_ok,auth_ok,require_ok,save_ok,exists_eq_left] at done
    obtain ⟨_,⟨_,rfl⟩,_,⟨_,rfl⟩,rfl⟩ := done
    rfl

/-- What a successful call leaves: a configuration, the decimals of which are those
    that were there, or those of the call that made it. -/
theorem invoke_decimals {entry : Entry} {s s' : State W} (done : invoke env entry s = .ok ((), s')) :
    ∃ v', s'.own = some v' ∧ ((∃ v, s.own = some v ∧ v'.decimals = v.decimals) ∨
      ∃ admin helix_oracle base assets resolution,
        entry = .initialise admin helix_oracle base assets v'.decimals resolution) := by
  unfold invoke at done
  split at done
  · split at done
    · split at done
      · cases done
      · cases done
        exact ⟨_,rfl,.inr ⟨_,_,_,_,_,rfl⟩⟩
    · cases done
  · cases done
  · rename_i v found
    split at done
    · rename_i t ran
      cases done
      exact ⟨t.own,rfl,.inl ⟨v,found,call_decimals ran⟩⟩
    · cases done

/-- The adaptor was initialized with its decimals. -/
def InitialisedWith (past : List (Served W)) (decimals : Nat) : Prop :=
  ∃ r ∈ past, r.output = .ok () ∧ ∃ admin helix_oracle base assets resolution,
    r.input.2 = .blend (.initialise admin helix_oracle base assets decimals resolution)

theorem serve_initialised (self : Address) (clock : Clock) (w : W) (calls : List (Origin × Action W))
    {v : HelixBlendOracleAdaptor} (found : (run (serve self) (undeployed clock w) calls).state.own = some v) :
    InitialisedWith (trace (serve self) (undeployed clock w) calls) v.decimals := by
  have kept := run_history (serve self) (s := undeployed clock w)
    (fun past c => ∀ v, c.state.own = some v → InitialisedWith past v.decimals) calls (by rintro v ⟨⟩) (by
      intro past r _ makes held v own
      have earlier : ∀ v', r.before.state.own = some v' → v.decimals = v'.decimals →
          InitialisedWith (past ++ [r]) v.decimals := by
        intro v' own' same
        obtain ⟨q,member,rest⟩ := held v' own'
        rw [same]
        exact ⟨q,List.mem_append_left _ member,rest⟩
      rcases Delivery.cases makes with ⟨_,out,ran⟩ | ⟨e,out,same⟩
      · cases input : r.input.2 with
        | blend entry =>
          rw [input] at ran
          obtain ⟨v',left,⟨before,own',same⟩ | ⟨admin,helix_oracle,base,assets,resolution,rfl⟩⟩ := invoke_decimals ran
          · rw [own] at left
            cases left
            exact earlier before own' same
          · rw [own] at left
            cases left
            exact ⟨r,by simp,out,admin,helix_oracle,base,assets,resolution,input⟩
        | outside move =>
          rw [input] at ran
          simp only [act,write_ok,Prod.mk.injEq,true_and] at ran
          have still : r.before.state.own = some v := by
            rw [← own,ran]
          exact earlier v still rfl
      · rw [same] at own
        exact earlier v own rfl)
  exact kept v found

/-- A price that the adaptor passes on is that of the oracle it points to. -/
theorem lastprice_ok {v : HelixBlendOracleAdaptor} {w : W} {asset_address : Address} {told : PriceData}
    {s' : World HelixBlendOracleAdaptor W}
    (read : lastprice peers env (.stellar asset_address) ⟨v,w⟩ = .ok (some told, s')) :
    0 < told.price ∧ ∃ w', peers.lastprice (env.calling v.helix_oracle) asset_address w =
      some ((told.price, told.timestamp), w') := by
  simp only [lastprice,bind_ok,load_ok,exists_eq_left] at read
  split at read
  · cases pure_ok.mp read
  · simp only [bind_ok,load_ok,exists_eq_left,callOut_ok,Prod.exists] at read
    obtain ⟨p,timestamp,_,⟨w',latest,rfl⟩,passed⟩ := read
    split at passed
    · cases pure_ok.mp passed
    · rename_i positive
      cases pure_ok.mp passed
      exact ⟨not_le.mp positive,w',latest⟩

end Runs

/-- In every configuration that a run reaches, for every Stellar asset and whatever
    oracle the adaptor points to: the price that `lastprice` returns, in the
    adaptor's decimals, and that of the oracle, in the oracle's decimals for the
    asset, are one price exactly if the adaptor was initialized with the decimals
    that the oracle tells. -/
theorem blend_decimals_iff {W : Type} (peers : Peers W) (self : Address) (clock : Clock) (w : W)
    (calls : List (Origin × Action W)) (env : Env) (asset : Address) (v : HelixBlendOracleAdaptor) (told : PriceData)
    (declared tells : Nat) (quoted : Int × Nat) (w' w'' : W) :
    let past := trace (serve self) (undeployed clock w) calls
    let s := (run (serve self) (undeployed clock w) calls).state
    s.own = some v → reply (lastprice peers env (.stellar asset)) s = some (some told) →
    reply decimals s = some declared →
    peers.lastprice (env.calling v.helix_oracle) asset s.rest = some (quoted, w') →
    peers.decimals (env.calling v.helix_oracle) asset s.rest = some (tells, w'') →
    InitialisedWith past declared ∧ (SameValue told.price declared quoted.1 tells ↔ declared = tells) := by
  intro past s found shown asked latest _
  obtain ⟨v',t,found',read⟩ := reply_some.mp shown
  obtain ⟨v'',_,found'',held⟩ := reply_some.mp asked
  have same : v = v' := Option.some.inj (found.symm.trans found')
  have same' : v = v'' := Option.some.inj (found.symm.trans found'')
  subst same same'
  simp only [decimals,load_ok,Prod.mk.injEq] at held
  obtain ⟨positive,_,passed⟩ := lastprice_ok read
  rw [latest] at passed
  have price : quoted.1 = told.price := by
    cases passed
    rfl
  rw [price]
  refine ⟨?_,sameValue_iff positive⟩
  rw [held.1]
  exact serve_initialised self clock w calls found

/-! ### A small chain -/

/-- The oracle adaptor, asked in the state that is outside. -/
def consult {O α : Type} (question : Oracle.Contract O α) (w : Oracle.State O) : Option (α × Oracle.State O) :=
  w.own.bind (fun v => (Invoke.answer question ⟨v,w.rest⟩).map (fun r => (r.1,⟨some r.2.own,r.2.rest⟩)))

/-- The oracle adaptor as the oracle that this adaptor points to. -/
def helix {O : Type} (sources : Oracle.Peers O) : Peers (Oracle.State O) where
  lastprice env asset := consult (Oracle.lastprice env asset)
  decimals env asset := consult (Oracle.decimals sources env asset)

namespace Small
open Oracle.Small (admin keeper asset)

def self : Address := .contract (BytesN.fill 32 20)

/-- The adaptor is initialized with some decimals, next to an oracle adaptor that has
    a price of two in 14 decimals. -/
def configured (decimals : Nat) : List (Origin × Action (Oracle.State Oracle.Small.Feeds)) :=
  [(.signedBy admin,.blend (.initialise admin Oracle.Small.adaptor (.other "USD") [.stellar asset] decimals 300))]

def priced : Oracle.State Oracle.Small.Feeds := (run Oracle.Small.step Oracle.Small.start Oracle.Small.halved).state

/-- What a reading sees. -/
def reading : Env := (Origin.signedBy keeper).env ⟨5,25⟩ self

def reached (decimals : Nat) : State (Oracle.State Oracle.Small.Feeds) :=
  (run (serve self) (undeployed ⟨4,20⟩ priced) (configured decimals)).state

end Small

/-- With the 14 decimals of the oracle, the price of two is two. -/
theorem blend_decimals_fourteen :
    reply (lastprice (helix Oracle.Small.peers) Small.reading (.stellar Oracle.Small.asset)) (Small.reached 14) =
        some (some ⟨200000000000000,20⟩) ∧
      SameValue 200000000000000 14 200000000000000 14 := by
  have shown : reply (lastprice (helix Oracle.Small.peers) Small.reading (.stellar Oracle.Small.asset))
      (Small.reached 14) = some (some ⟨200000000000000,20⟩) := by decide +kernel
  have latest : ((helix Oracle.Small.peers).lastprice (Small.reading.calling Oracle.Small.adaptor) Oracle.Small.asset
      (Small.reached 14).rest).map Prod.fst = some (200000000000000, 20) := by decide +kernel
  have tells : ((helix Oracle.Small.peers).decimals (Small.reading.calling Oracle.Small.adaptor) Oracle.Small.asset
      (Small.reached 14).rest).map Prod.fst = some 14 := by decide +kernel
  obtain ⟨⟨_,w'⟩,latest,rfl⟩ := Option.map_eq_some_iff.mp latest
  obtain ⟨⟨_,w''⟩,tells,rfl⟩ := Option.map_eq_some_iff.mp tells
  exact ⟨shown,(blend_decimals_iff (helix Oracle.Small.peers) Small.self ⟨4,20⟩ Small.priced (Small.configured 14)
    Small.reading Oracle.Small.asset _ ⟨200000000000000,20⟩ 14 14 (200000000000000, 20) w' w'' rfl shown rfl latest
    tells).2.mpr rfl⟩

/-- With 7 decimals, the adaptor tells ten million times as much. -/
theorem blend_decimals_seven :
    reply (lastprice (helix Oracle.Small.peers) Small.reading (.stellar Oracle.Small.asset)) (Small.reached 7) =
        some (some ⟨200000000000000,20⟩) ∧
      reply decimals (Small.reached 7) = some 7 ∧
      ((helix Oracle.Small.peers).lastprice (Small.reading.calling Oracle.Small.adaptor) Oracle.Small.asset
        (Small.reached 7).rest).map Prod.fst = some (200000000000000, 20) ∧
      ((helix Oracle.Small.peers).decimals (Small.reading.calling Oracle.Small.adaptor) Oracle.Small.asset
        (Small.reached 7).rest).map Prod.fst = some 14 ∧
      ¬ SameValue 200000000000000 7 200000000000000 14 :=
  ⟨by decide +kernel,by decide +kernel,by decide +kernel,by decide +kernel,by decide +kernel⟩

end Helix.Blend
