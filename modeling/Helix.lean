import Helix.Store
import Helix.Runs
import Helix.Integers
import Helix.Lease
import Helix.Host
import Helix.Token
import Helix.TokenSupply
import Helix.TokenCustody
import Helix.Bridge
import Helix.BridgeSystem
import Helix.BridgeConservation
import Helix.BridgeRecipients
import Helix.BridgeFlow
import Helix.BridgeNonces
import Helix.BridgeLimits
import Helix.Payloads
import Helix.StrkeyDecode
import Helix.YieldOrder
import Helix.VaultCalls
import Helix.VaultBook
import Helix.VaultSystem
import Helix.VaultTotals
import Helix.VaultDebt
import Helix.VaultCustody
import Helix.VaultExit
import Helix.VaultHealth
import Helix.VaultRates
import Helix.TokenConversions
import Helix.TokenRates
import Helix.OracleCalls
import Helix.OracleSystem
import Helix.OracleUnits
import Helix.VaultPause
import Helix.OracleDeviation
import Helix.SafeMode
import Helix.OracleServed
import Helix.OracleRepetition
import Helix.TokenAuthority
import Helix.Scanner
import Helix.Adapter
import Helix.AdapterAmounts
import Helix.ScannerPages
import Helix.ScanRecovery
import Helix.ScanIndex
import Helix.Liquidator
import Helix.Liquidatable
import Helix.VaultSeizure
import Helix.LiquidationReach
import Helix.VaultInterest
import Helix.VaultReadings
import Helix.VaultSizes
import Helix.VaultReentry
import Helix.OracleQuotes
import Helix.OracleFailover
import Helix.OraclePositive
import Helix.OracleWindow
import Helix.Blend
import Helix.TokenBurns
import Helix.AllowanceLife
import Helix.IndexMirror
import Helix.BotRun
import Helix.VaultAuthority
import Helix.RpcClient
import Helix.RpcLiquidate
import Helix.OracleAnchor
import Helix.VaultPayoff
import Helix.HonestPrices
import Helix.BridgeAccess
import Helix.Backing
