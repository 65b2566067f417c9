import Helix.Integers
import Helix.Lease
import Helix.Host

/-!
The oracle adaptor of `contracts/oracle-adaptor`. It asks two sources for the
price of an asset, scales their answers to common decimals, pauses the vault when
they differ too much, and otherwise adds the price to the average of the current
window. Sources that fail or give no answer of the right kind count as silent.
-/
namespace Helix.Oracle
open Invoke

def TTL_THRESHOLD : Nat := 17280
def TTL_BUMP : Nat := 518400
def DEFAULT_TWAP_WINDOW : Nat := 1800
def DEFAULT_STALENESS_THRESHOLD : Nat := 600
def DEFAULT_DEVIATION_THRESHOLD : Nat := 500
def BPS_DENOMINATOR : Int := 10000

/-- The largest number of 32 bits, at which a sample count stays. -/
def u32Max : Nat := 2 ^ 32 - 1

/-- Where a price comes from: the symbols `primary`, `secondary` and `blended`. -/
inductive Source where
  | primary
  | secondary
  | blended
  deriving DecidableEq

structure PriceData where
  price : Int
  timestamp : Nat
  source : Source
  deriving DecidableEq

structure TWAPData where
  cumulative_price : Int
  num_samples : Nat
  window_start : Nat
  deriving DecidableEq

inductive OracleError where
  | NotInitialized
  | StalePrice
  | DeviationExceeded
  | FeedUnavailable
  | Unauthorized
  | AlreadyInitialized
  deriving DecidableEq

/-- The storage of an initialized adaptor. Prices and averages are temporary
    entries. -/
structure HelixOracleAdaptor where
  admin : Address
  primary_oracle : Address
  secondary_oracle : Address
  vault_callback : Address
  twap_window : Nat
  staleness_threshold : Nat
  deviation_threshold : Nat
  cached_price : Address → Option (Lease PriceData)
  twap_state : Address → Option (Lease TWAPData)

/-- The contracts that the adaptor calls, each call with the environment the
    callee sees: the sources, whose answers may be missing, and the vault. -/
structure Peers (W : Type) where
  decimals : Env → Address → W → Option Nat × W
  lastprice : Env → Address → W → Option (Int × Nat) × W
  pause_by : Env → Address → W → Option (Unit × W)
  unpause_by : Env → Address → W → Option (Unit × W)

/-- The event an entry point publishes. -/
inductive OracleEvent where
  | safe_mode (asset : Address) (primary secondary : Int)
  | price_update (asset : Address) (price : Int) (timestamp : Nat) (source : Source) (num_samples : Nat)
  | configure (primary secondary : Address) (twap_window staleness deviation : Nat)
  deriving DecidableEq

abbrev Contract (W α : Type) : Type := Invoke (World HelixOracleAdaptor W) OracleError α

/-! ### Scaling -/

/-- So many multiplications by ten, none of which may overflow. -/
def scale_up : Nat → Int → Option Int
  | 0, price => some price
  | scale + 1, price => (Checked.mul price 10).bind (scale_up scale)

/-- So many divisions by ten. -/
def scale_down : Nat → Int → Int
  | 0, price => price
  | scale + 1, price => scale_down scale (price.tdiv 10)

/-- A price with some decimals, in others. -/
def scaled (price : Int) (from_decimals to_decimals : Nat) : Option Int :=
  if from_decimals = to_decimals then some price
  else if from_decimals < to_decimals then scale_up (to_decimals - from_decimals) price
  else some (scale_down (from_decimals - to_decimals) price)

section Code
variable {W : Type} (peers : Peers W) (env : Env)

def checked_add (left right : Int) : Contract W Int := need (Checked.add left right) (.error .FeedUnavailable)
def checked_mul (left right : Int) : Contract W Int := need (Checked.mul left right) (.error .FeedUnavailable)

def scale_price (price : Int) (from_decimals to_decimals : Nat) : Contract W Int :=
  need (scaled price from_decimals to_decimals) (.error .FeedUnavailable)

/-! ### Sources -/

def try_oracle_decimals (oracle asset : Address) : Contract W (Option Nat) :=
  tryOut (peers.decimals (env.calling oracle) asset)

def try_oracle_lastprice (oracle asset : Address) : Contract W (Option (Int × Nat)) :=
  tryOut (peers.lastprice (env.calling oracle) asset)

def canonical_decimals (primary secondary asset : Address) : Contract W Nat := do
  let first ← try_oracle_decimals peers env primary asset
  match first with
  | some decimals => pure decimals
  | none => do
    let second ← try_oracle_decimals peers env secondary asset
    need second (.error .FeedUnavailable)

/-- The price of a source that answered, if it is positive and fresh. -/
def observe (raw : Int × Nat) (oracle_decimals target_decimals : Nat) (source : Source) :
    Contract W (Option PriceData) :=
  if raw.1 ≤ 0 then pure none
  else do
    let staleness ← load (fun v => v.staleness_threshold)
    if env.timestamp - raw.2 > staleness then pure none
    else do
      let price ← scale_price raw.1 oracle_decimals target_decimals
      pure (some ⟨price,raw.2,source⟩)

def fetch_observation (oracle asset : Address) (target_decimals : Nat) (source : Source) :
    Contract W (Option PriceData) := do
  let decimals ← try_oracle_decimals peers env oracle asset
  match decimals with
  | none => pure none
  | some oracle_decimals => do
    let last ← try_oracle_lastprice peers env oracle asset
    match last with
    | none => pure none
    | some raw => observe env raw oracle_decimals target_decimals source

def merge_observations (left right : PriceData) : Contract W PriceData := do
  let sum ← checked_add left.price right.price
  pure ⟨sum.tdiv 2,min left.timestamp right.timestamp,.blended⟩

def deviation_exceeded (left right : Int) : Contract W Bool := do
  let difference ← need (if left ≥ right then Checked.sub left right else Checked.sub right left) .trap
  let baseline := if left ≤ right then left else right
  if baseline ≤ 0 then pure true
  else do
    let product ← checked_mul difference BPS_DENOMINATOR
    let deviation_threshold ← load (fun v => v.deviation_threshold)
    pure (decide (product.tdiv baseline > deviation_threshold))

/-! ### Stored prices -/

def read_cached_price (asset : Address) : Contract W (Option PriceData) :=
  load (fun v => Lease.read env.sequence (v.cached_price asset))

def read_twap_state (asset : Address) : Contract W (Option TWAPData) :=
  load (fun v => Lease.read env.sequence (v.twap_state asset))

/-- The entry that writing over another leaves. -/
def renewed {α : Type} (env : Env) (entry : Option (Lease α)) (value : α) : Lease α :=
  (Lease.set env.sequence env.min_temp_entry_ttl entry value).extend_ttl env.sequence TTL_THRESHOLD TTL_BUMP

def write_cached_price (asset : Address) (price : PriceData) : Contract W Unit :=
  save (fun v => { v with
    cached_price := fun a => if a = asset then some (renewed env (v.cached_price a) price) else v.cached_price a })

def write_twap_state (asset : Address) (state : TWAPData) : Contract W Unit :=
  save (fun v => { v with
    twap_state := fun a => if a = asset then some (renewed env (v.twap_state a) state) else v.twap_state a })

def validated_cached_price (asset : Address) : Contract W PriceData := do
  let entry ← read_cached_price env asset
  let cached ← need entry (.error .FeedUnavailable)
  let staleness ← load (fun v => v.staleness_threshold)
  require (env.timestamp - cached.timestamp ≤ staleness) (.error .StalePrice)
  pure cached

/-- The price and time that an average shows beside a cached price. -/
def average (cached : PriceData) : Option TWAPData → Int × Nat
  | some state =>
    if 0 < state.num_samples then (state.cumulative_price.tdiv state.num_samples, cached.timestamp)
    else (cached.price, cached.timestamp)
  | none => (cached.price, cached.timestamp)

def current_twap (asset : Address) : Contract W (Int × Nat) := do
  let cached ← validated_cached_price env asset
  let state ← read_twap_state env asset
  pure (average cached state)

/-- The state of the average after another price: a first one, a new window, or
    one more sample of the window. -/
def next_state (now window : Nat) (state : TWAPData) (price : Int) : Contract W TWAPData :=
  if state.num_samples = 0 ∨ window ≤ now - state.window_start then pure ⟨price,1,now⟩
  else do
    let cumulative_price ← checked_add state.cumulative_price price
    pure { state with
      cumulative_price := cumulative_price
      num_samples := if state.num_samples < u32Max then state.num_samples + 1 else u32Max }

/-- The second half of `update_price`, for the price that the sources agree on. -/
def record_price (asset : Address) (price : PriceData) : Contract W (Option OracleEvent) := do
  let stored ← read_twap_state env asset
  let window ← load (fun v => v.twap_window)
  let state ← next_state env.timestamp window (stored.getD ⟨0,0,env.timestamp⟩) price.price
  write_cached_price env asset price
  write_twap_state env asset state
  pure (some (.price_update asset price.price price.timestamp price.source state.num_samples))

def require_admin_auth : Contract W Unit := do
  let admin ← load (fun v => v.admin)
  require_auth env admin

def set_safe_mode_internal (enabled : Bool) : Contract W Unit := do
  let vault ← load (fun v => v.vault_callback)
  if enabled = true then callOut (peers.pause_by (env.calling vault) env.current_contract_address)
  else callOut (peers.unpause_by (env.calling vault) env.current_contract_address)

/-! ### Entry points -/

def lastprice (asset : Address) : Contract W (Int × Nat) := current_twap env asset

/-- The duration is cut to the window, and no longer used. -/
def get_twap (asset : Address) (duration : Nat) : Contract W (Int × Nat) := do
  let window ← load (fun v => v.twap_window)
  let _effective_duration := if duration = 0 then window else min duration window
  current_twap env asset

def decimals (asset : Address) : Contract W Nat := do
  let primary ← load (fun v => v.primary_oracle)
  let secondary ← load (fun v => v.secondary_oracle)
  canonical_decimals peers env primary secondary asset

/-- What becomes of what the sources say. -/
def settle_price (asset : Address) : Option PriceData → Option PriceData → Contract W (Option OracleEvent)
  | some primary, some secondary => do
    let exceeded ← deviation_exceeded primary.price secondary.price
    if exceeded = true then do
      set_safe_mode_internal peers env true
      pure (some (.safe_mode asset primary.price secondary.price))
    else do
      let price ← merge_observations primary secondary
      record_price env asset price
  | some primary, none => record_price env asset primary
  | none, some secondary => record_price env asset secondary
  | none, none => fail .FeedUnavailable

def update_price (asset : Address) : Contract W (Option OracleEvent) := do
  let primary_address ← load (fun v => v.primary_oracle)
  let secondary_address ← load (fun v => v.secondary_oracle)
  let target_decimals ← canonical_decimals peers env primary_address secondary_address asset
  let primary ← fetch_observation peers env primary_address asset target_decimals .primary
  let secondary ← fetch_observation peers env secondary_address asset target_decimals .secondary
  settle_price peers env asset primary secondary

def set_safe_mode (enabled : Bool) : Contract W (Option OracleEvent) := do
  require_admin_auth env
  set_safe_mode_internal peers env enabled
  pure none

def configure (primary secondary : Address) (twap_window staleness deviation : Nat) :
    Contract W (Option OracleEvent) := do
  require_admin_auth env
  save (fun v => { v with
    primary_oracle := primary
    secondary_oracle := secondary
    twap_window := twap_window
    staleness_threshold := staleness
    deviation_threshold := deviation })
  pure (some (.configure primary secondary twap_window staleness deviation))

/-- A freshly initialized adaptor. -/
def fresh (admin primary_oracle secondary_oracle vault_callback : Address) : HelixOracleAdaptor where
  admin := admin
  primary_oracle := primary_oracle
  secondary_oracle := secondary_oracle
  vault_callback := vault_callback
  twap_window := DEFAULT_TWAP_WINDOW
  staleness_threshold := DEFAULT_STALENESS_THRESHOLD
  deviation_threshold := DEFAULT_DEVIATION_THRESHOLD
  cached_price := fun _ => none
  twap_state := fun _ => none

/-- The calls that change an adaptor; `initialise` is its `initialize`, a keyword
    here. `upgrade` replaces the code and ends what can be said about it. -/
inductive Entry where
  | initialise (admin primary_oracle secondary_oracle vault_callback : Address)
  | update_price (asset : Address)
  | set_safe_mode (enabled : Bool)
  | configure (primary secondary : Address) (twap_window staleness deviation : Nat)
  deriving DecidableEq

/-- A call to an initialized adaptor. -/
def call : Entry → Contract W (Option OracleEvent)
  | .initialise _ _ _ _ => fail .AlreadyInitialized
  | .update_price asset => update_price peers env asset
  | .set_safe_mode enabled => set_safe_mode peers env enabled
  | .configure primary secondary twap_window staleness deviation =>
    configure env primary secondary twap_window staleness deviation

/-- A call to an adaptor that may not be initialized yet: until then every entry
    point but `initialise` refuses. -/
def invoke (entry : Entry) : Invoke (World (Option HelixOracleAdaptor) W) OracleError (Option OracleEvent) := fun s =>
  match s.own, entry with
  | none, .initialise admin primary_oracle secondary_oracle vault_callback =>
    if env.Authorised admin then
      .ok (none, { s with own := some (fresh admin primary_oracle secondary_oracle vault_callback) })
    else .error .trap
  | none, _ => .error (.error .NotInitialized)
  | some v, entry =>
    match call peers env entry ⟨v,s.rest⟩ with
    | .ok (event, t) => .ok (event, ⟨some t.own,t.rest⟩)
    | .error e => .error e

end Code

end Helix.Oracle
