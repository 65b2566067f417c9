import Helix.Vault
import Helix.Process

/-!
The scanner of `liquidation-bot`: polls the events of the vault and keeps an
index of positions to watch. Nothing rolls a failed scan back; it stops where it
fails and leaves what it did (`Process`).
-/
namespace Helix.Bot
open Vault (Position VaultEvent)

def INITIAL_LEDGER_LOOKBACK : Nat := 1000
def EVENT_PAGE_LIMIT : Nat := 200
def TRACKED_EVENTS : List String := ["deposit", "borrow", "repay", "withdraw", "liquidation"]
def PRIMARY_ASSET_PLACEHOLDER : String := "__primary_asset__"

/-- Values of contracts as far as the scanner tells them apart; an address is its
    text. -/
inductive ScVal where
  | symbol (name : String)
  | address (text : String)
  | vec (values : List ScVal)
  | other

/-- An event as the RPC server lists it. -/
structure Event where
  id : String
  ledger : Nat
  topic : List ScVal
  value : ScVal

structure Config where
  vault_contract_id : String
  oracle_contract_id : String
  token_contract_id : String
  start_ledger : Option Nat
  min_profit_threshold : Int
  max_liquidations_per_run : Nat

structure PositionKey where
  user : String
  asset : String
  deriving DecidableEq

structure TrackedPosition where
  key : PositionKey
  position : Position
  last_event_ledger : Nat
  deriving DecidableEq

/-- What the scanner knows. The positions are a map by their keys, listed in the
    order it is walked in. -/
structure ScannerState where
  positions : List TrackedPosition
  seen_event_ids : Finset String
  user_assets : Store String String
  last_seen_ledger : Option Nat
  primary_asset : Option String

namespace ScannerState

def default : ScannerState := ⟨[],∅,.empty,none,none⟩

def remove_user (state : ScannerState) (user : String) : ScannerState :=
  { state with
    positions := state.positions.filter (fun tracked => tracked.key.user ≠ user)
    user_assets := state.user_assets.remove user }

/-- The state after a position is inserted under its key. -/
def insert (state : ScannerState) (tracked : TrackedPosition) : ScannerState :=
  { state with positions := state.positions.filter (fun other => other.key ≠ tracked.key) ++ [tracked] }

end ScannerState

/-- What the RPC client answers during one scan, where it answers at all. While a
    page is handled the chain moves on, so a position is the one at the time of
    its event. -/
structure Rpc where
  read_supported_asset : String → Option (Option String)
  latest_ledger : Option Nat
  get_events : Nat → String → List String → Nat → Option (List Event)
  get_position : Event → String → String → Option (Option Position)

/-- What a scan stops at. -/
inductive ScanError where
  | supported_asset
  | latest_ledger
  | start_ledger_range
  | events
  | event_name (id : String)
  | address
  | deposit_body (id : String)
  | deposit_asset
  | position
  deriving DecidableEq

abbrev Scanning (α : Type) : Type := Process ScannerState ScanError α

open Process

/-! ### Values -/

def parse_event_name (e : ScanError) : ScVal → Scanning String
  | .symbol name => pure name
  | _ => expect none e

def parse_address : ScVal → Scanning String
  | .address text => pure text
  | _ => expect none .address

def parse_vec (e : ScanError) : ScVal → Scanning (List ScVal)
  | .vec values => pure values
  | _ => expect none e

section Parsing
variable {s t : ScannerState} {e : ScanError} {value : ScVal}

theorem parse_address_ok {text : String} : parse_address value s = (.ok text, t) ↔ value = .address text ∧ s = t := by
  cases value <;> simp [parse_address]

theorem parse_vec_ok {values : List ScVal} : parse_vec e value s = (.ok values, t) ↔ value = .vec values ∧ s = t := by
  cases value <;> simp [parse_vec]

theorem parse_event_name_ok {name : String} :
    parse_event_name e value s = (.ok name, t) ↔ value = .symbol name ∧ s = t := by
  cases value <;> simp [parse_event_name]

end Parsing

/-- The topic that names the user, by the kind of event. -/
def user_topic (event_name : String) (topic : List ScVal) : Option ScVal :=
  if event_name ∈ ["deposit", "borrow", "repay", "withdraw"] then topic[1]?
  else if event_name = "liquidation" then topic[2]?
  else none

/-! ### A scan -/

/-- What became of an event of a page. -/
inductive Handling where
  | seen
  | untitled
  | nameless
  | updated (tracked : TrackedPosition)
  | removed (user : String)

/-- The asset of an event: a deposit tells it, the others take the last one known. -/
def event_asset (event_name user : String) (event : Event) : Scanning String :=
  if event_name = "deposit" then do
    let values ← parse_vec (.deposit_body event.id) event.value
    let first ← expect values.head? .deposit_asset
    let deposit_asset ← parse_address first
    change (fun state => { state with user_assets := state.user_assets.set user deposit_asset })
    pure deposit_asset
  else look (fun state => ((state.user_assets.get user).or state.primary_asset).getD PRIMARY_ASSET_PLACEHOLDER)

/-- What is done with the user of an event: the index takes the position over, or
    forgets a user without one. -/
def track (config : Config) (rpc : Rpc) (event : Event) (event_name user : String) : Scanning Handling := do
  let asset ← event_asset event_name user event
  let position ← expect (rpc.get_position event config.vault_contract_id user) .position
  match position with
  | some position => do
    let tracked : TrackedPosition := ⟨⟨user,asset⟩,position,event.ledger⟩
    change (fun state => state.insert tracked)
    change (fun state => { state with last_seen_ledger := some event.ledger })
    pure (.updated tracked)
  | none => do
    change (fun state => state.remove_user user)
    change (fun state => { state with last_seen_ledger := some event.ledger })
    pure (.removed user)

/-- The body of the loop over a page. -/
def scan_event (config : Config) (rpc : Rpc) (event : Event) : Scanning Handling := do
  let seen ← look (fun state => decide (event.id ∈ state.seen_event_ids))
  if seen = true then pure .seen
  else do
    change (fun state => { state with seen_event_ids := Insert.insert event.id state.seen_event_ids })
    match event.topic with
    | [] => pure .untitled
    | name :: _ => do
      let event_name ← parse_event_name (.event_name event.id) name
      match user_topic event_name event.topic with
      | none => pure .nameless
      | some topic => do
        let user ← parse_address topic
        track config rpc event event_name user

/-- The body of the loop and the states around it. -/
abbrev Handled : Type := Transition ScannerState Event Handling

/-- The loop over a page. -/
def scan_events (config : Config) (rpc : Rpc) : List Event → Scanning (List Handled)
  | [] => pure []
  | event :: rest => do
    let before ← look id
    let handling ← scan_event config rpc event
    let after ← look id
    let handled ← scan_events config rpc rest
    pure (⟨before,event,handling,after⟩ :: handled)

/-- The ledger a scan starts at. -/
def from_ledger (config : Config) (latest_ledger : Nat) (last_seen_ledger : Option Nat) : Nat :=
  match last_seen_ledger with
  | some ledger => min (ledger + 1) (2 ^ 64 - 1)
  | none => config.start_ledger.getD (latest_ledger - INITIAL_LEDGER_LOOKBACK)

/-- `RpcClient::get_events`: a ledger has 32 bits. -/
def get_events (config : Config) (rpc : Rpc) (start : Nat) : Scanning (List Event) := do
  expect (if start < 2 ^ 32 then some () else none) .start_ledger_range
  expect (rpc.get_events start config.vault_contract_id TRACKED_EVENTS EVENT_PAGE_LIMIT) .events

def read_primary_asset (config : Config) (rpc : Rpc) : Scanning Unit := do
  let primary_asset ← look (fun state => state.primary_asset)
  if primary_asset = none then do
    let asset ← expect (rpc.read_supported_asset config.vault_contract_id) .supported_asset
    change (fun state => { state with primary_asset := asset })
  else pure ()

/-- The number of updates, as the source counts them. -/
def updates (handled : List Handled) : Nat :=
  handled.countP (fun r => match r.output with | .updated _ => true | _ => false)

/-- A scan. It gives the updates it made, and here also what it did with each
    event of the page. -/
def scan (config : Config) (rpc : Rpc) : Scanning (Nat × List Handled) := do
  read_primary_asset config rpc
  let latest_ledger ← expect rpc.latest_ledger .latest_ledger
  let start ← look (fun state => from_ledger config latest_ledger state.last_seen_ledger)
  let events ← get_events config rpc start
  let handled ← scan_events config rpc events
  change (fun state => { state with last_seen_ledger := state.last_seen_ledger.or (some latest_ledger) })
  pure (updates handled,handled)

/-! ### The events of the vault -/

/-- Topics and body of an event that the vault publishes, where `text` spells
    addresses. -/
def published (text : Address → String) : VaultEvent → List ScVal × ScVal
  | .deposit user collateral_token _ _ =>
    ([.symbol "deposit",.address (text user)],.vec [.address (text collateral_token),.other,.other])
  | .withdraw user collateral_token _ _ =>
    ([.symbol "withdraw",.address (text user)],.vec [.address (text collateral_token),.other,.other])
  | .borrow user _ _ => ([.symbol "borrow",.address (text user)],.vec [.other,.other])
  | .repay user _ _ => ([.symbol "repay",.address (text user)],.vec [.other,.other])
  | .liquidation liquidator user _ _ _ =>
    ([.symbol "liquidation",.address (text liquidator),.address (text user)],.vec [.other,.other,.other])
  | .pause caller => ([.symbol "pause",.address (text caller)],.other)
  | .unpause caller => ([.symbol "unpause",.address (text caller)],.other)
  | .config_update _ => ([.symbol "config_update"],.other)

/-- The user whose position an event of the vault changes. -/
def published_user : VaultEvent → Option Address
  | .deposit user _ _ _ | .withdraw user _ _ _ | .borrow user _ _ | .repay user _ _ | .liquidation _ user _ _ _ => some user
  | .pause _ | .unpause _ | .config_update _ => none

/-- A tracked event of the vault, and its user. -/
def Tracks (text : Address → String) (event : Event) (user : String) : Prop :=
  ∃ published_event address, published text published_event = (event.topic,event.value) ∧
    published_user published_event = some address ∧ user = text address

end Helix.Bot
