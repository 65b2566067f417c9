import Helix.Binary64

/-!
The position adapter of `product-adapters/stellar-position`: what it reads of a
snapshot of the vault, the numbers it computes with, and the status it reports.
Dates are those of the language (`Dates`).
-/
namespace Helix.Adapter
open Binary64

def BPS_DENOMINATOR : ℚ := 10000

/-- A value of the language, as far as the adapter tells them apart. -/
inductive Js where
  | undefined
  | null
  | bigint (n : Int)
  | number (x : Number)
  | string (s : String)
  | other

inductive Status where
  | active
  | liquidatable
  | liquidated
  | closed
  deriving DecidableEq

def Status.text : Status → String
  | .active => "active"
  | .liquidatable => "liquidatable"
  | .liquidated => "liquidated"
  | .closed => "closed"

def STATUS_VALUES : List Status := [.active, .liquidatable, .liquidated, .closed]

/-- A result, or the text of a type error. -/
abbrev Read (α : Type) : Type := Except String α

/-! ### Snapshots

A part that is not an object is missing. -/

structure PositionObject where
  borrowed_amount : Js
  last_update : Js

structure PoolConfigObject where
  max_ltv : Js
  liq_threshold : Js
  interest_rate : Js

structure CollateralObject where
  symbol : Js
  decimals : Js
  assets : Js

structure DebtObject where
  symbol : Js
  decimals : Js

structure PricesObject where
  collateralUsd : Js
  debtUsd : Js

structure Snapshot where
  userAddress : Js
  vaultContractId : Js
  position : Option PositionObject
  poolConfig : Option PoolConfigObject
  collateral : Option CollateralObject
  debt : Option DebtObject
  prices : Option PricesObject
  healthFactorBps : Js
  accruedInterest : Js
  asOf : Js
  status : Js

structure HelixPosition where
  chain : String
  user_id : String
  position_id : String
  collateral_token : String
  collateral_amount : Number
  collateral_value_usd : Number
  debt_token : String
  debt_amount : Number
  debt_value_usd : Number
  health_factor : Number
  ltv_current : Number
  ltv_max : Number
  liquidation_threshold : Number
  borrow_rate : Number
  accrued_interest : Number
  last_updated : String
  status : Status

/-! ### Checks -/

def requireObject {α : Type} (value : Option α) (fieldName : String) : Read α :=
  match value with
  | some object => .ok object
  | none => .error s!"{fieldName} must be an object"

def requireString (value : Js) (fieldName : String) : Read String :=
  match value with
  | .string s => if s = "" then .error s!"{fieldName} must be a non-empty string" else .ok s
  | _ => .error s!"{fieldName} must be a non-empty string"

/-- The number that decimal digits spell. -/
def digits (text : List Char) : Option Nat :=
  if text ≠ [] ∧ text.all Char.isDigit = true then
    some (text.foldl (fun n digit => 10 * n + (digit.toNat - 48)) 0)
  else none

/-- The integer that a text of digits spells, with a sign or without. -/
def integerText (text : String) : Option Int :=
  match text.toList with
  | '-' :: rest => (digits rest).map (fun n => -(n : Int))
  | rest => (digits rest).map (fun n => (n : Int))

/-- The integer that a value stands for. -/
def integerLike : Js → Option Int
  | .bigint n => some n
  | .number (.finite q) => if q.den = 1 then some q.num else none
  | .string s => integerText s
  | _ => none

def requiredIntegerLike (value : Js) (fieldName : String) : Read Int :=
  match integerLike value with
  | some n => .ok n
  | none => .error s!"{fieldName} must be an integer, integer string, or bigint"

def requiredNumber (value : Js) (fieldName : String) : Read Number :=
  match value with
  | .number (.finite q) => .ok (.finite q)
  | _ => .error s!"{fieldName} must be a finite number"

/-! ### Numbers -/

def bpsToRatio (value : Int) : Number := (Number.ofRat value).div (.finite BPS_DENOMINATOR)

/-- The number nearest to a scaled integer, which is what its decimal text reads as. -/
def scaleIntegerToNumber (raw decimals : Int) (fieldName : String) : Read Number :=
  if decimals < 0 then .error s!"{fieldName} decimals must be a non-negative integer"
  else .ok (.ofRat (raw / 10 ^ decimals.toNat))

/-- The status that a text names. -/
def statusOf (text : String) : Option Status := STATUS_VALUES.find? (fun status => status.text = text)

def resolveStatus (explicitStatus : Js) (debtAmount collateralAmount healthFactor : Number) : Read Status :=
  match explicitStatus with
  | .undefined =>
    if debtAmount = .finite 0 ∧ collateralAmount = .finite 0 then .ok .closed
    else if Number.lt (.finite 0) debtAmount = true ∧ Number.lt healthFactor (.finite 1) = true then .ok .liquidatable
    else .ok .active
  | explicit => do
    let status ← requireString explicit "status"
    match statusOf status with
    | some status => .ok status
    | none => .error "status must be one of: active, liquidatable, liquidated, closed"

/-- The dates of the language: a time as text, and the time that a text tells. -/
structure Dates where
  toISOString : Number → Read String
  parse : String → Option Number

def normalizeTimestamp (dates : Dates) (value : Js) (fieldName : String) : Read String :=
  let seconds (n : Int) : Read String := dates.toISOString ((Number.ofRat n).mul (.finite 1000))
  match value with
  | .string s =>
    match integerText s with
    | some n => seconds n
    | none =>
      match dates.parse s with
      | some parsed => dates.toISOString parsed
      | none => .error s!"{fieldName} must be an ISO timestamp or Unix seconds"
  | value => do
    let n ← requiredIntegerLike value fieldName
    seconds n

/-- The first value, or the second where there is none. -/
def orElse (value fallback : Js) : Js :=
  match value with
  | .undefined => fallback
  | .null => fallback
  | value => value

def mapStellarVaultSnapshotToHelixPosition (dates : Dates) (snapshot : Option Snapshot) : Read HelixPosition := do
  let input ← requireObject snapshot "snapshot"
  let position ← requireObject input.position "position"
  let poolConfig ← requireObject input.poolConfig "poolConfig"
  let collateral ← requireObject input.collateral "collateral"
  let debt ← requireObject input.debt "debt"
  let prices ← requireObject input.prices "prices"
  let userAddress ← requireString input.userAddress "userAddress"
  let vaultContractId ← requireString input.vaultContractId "vaultContractId"
  let collateralToken ← requireString collateral.symbol "collateral.symbol"
  let debtToken ← requireString debt.symbol "debt.symbol"
  let assets ← requiredIntegerLike collateral.assets "collateral.assets"
  let collateralDecimals ← requiredIntegerLike collateral.decimals "collateral.decimals"
  let collateralAmount ← scaleIntegerToNumber assets collateralDecimals "collateral.assets"
  let borrowed_amount ← requiredIntegerLike position.borrowed_amount "position.borrowed_amount"
  let debtDecimals ← requiredIntegerLike debt.decimals "debt.decimals"
  let debtAmount ← scaleIntegerToNumber borrowed_amount debtDecimals "position.borrowed_amount"
  let interest ← requiredIntegerLike input.accruedInterest "accruedInterest"
  let accruedInterest ← scaleIntegerToNumber interest debtDecimals "accruedInterest"
  let collateralUsd ← requiredNumber prices.collateralUsd "prices.collateralUsd"
  let collateralValueUsd := collateralAmount.mul collateralUsd
  let debtUsd ← requiredNumber prices.debtUsd "prices.debtUsd"
  let debtValueUsd := debtAmount.mul debtUsd
  let ltvCurrent := if collateralValueUsd = .finite 0 then .finite 0 else debtValueUsd.div collateralValueUsd
  let healthFactorBps ← requiredIntegerLike input.healthFactorBps "healthFactorBps"
  let healthFactor := bpsToRatio healthFactorBps
  let status ← resolveStatus input.status debtAmount collateralAmount healthFactor
  let max_ltv ← requiredIntegerLike poolConfig.max_ltv "poolConfig.max_ltv"
  let liq_threshold ← requiredIntegerLike poolConfig.liq_threshold "poolConfig.liq_threshold"
  let interest_rate ← requiredIntegerLike poolConfig.interest_rate "poolConfig.interest_rate"
  let last_updated ← normalizeTimestamp dates (orElse input.asOf position.last_update) "asOf"
  pure {
    chain := "stellar"
    user_id := userAddress
    position_id := s!"stellar:{vaultContractId}:{userAddress}"
    collateral_token := collateralToken
    collateral_amount := collateralAmount
    collateral_value_usd := collateralValueUsd
    debt_token := debtToken
    debt_amount := debtAmount
    debt_value_usd := debtValueUsd
    health_factor := healthFactor
    ltv_current := ltvCurrent
    ltv_max := bpsToRatio max_ltv
    liquidation_threshold := bpsToRatio liq_threshold
    borrow_rate := bpsToRatio interest_rate
    accrued_interest := accruedInterest
    last_updated := last_updated
    status := status }

end Helix.Adapter
