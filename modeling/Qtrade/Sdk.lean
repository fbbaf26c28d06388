import Qtrade.Lib.Double

/-!
# The types at the engine's borders

Error codes, the trader SDK's enumerations and records, and the account-risk bridge's
answers. Fields that no modelled function reads are left out.
-/

namespace Qtrade

/-! ## Error codes -/

inductive ErrorCode
  | success | error | alreadyStarted | notInitialized | internalError | timeout
  | resourceExhausted | notFound | notSupported
  | systemError | invalidArgument | invalidState | permissionDenied | cancelled
  | notSuchFileOrDirectory | dynamicLibraryLoadError | dynamicLibrarySymbolNotFound
  | dynamicLibrarySymbolTypeMismatch | dynamicLibrarySymbolParseError
  | dynamicLibrarySymbolRegisterError
  | networkError | networkConnectError | networkDisconnected | networkSendError
  | networkReceiveError
  | sqlError | connectionError | sqlExecuteError | sqlQueryError | sqlBeginTransactionError
  | sqlCommitTransactionError | sqlRollbackTransactionError | sqlNotFound | sqlConflict
  | commitError
deriving DecidableEq

/-- `qtrade::Result<T>`. -/
structure Result (α : Type) where
  errorCode : ErrorCode := .success
  data : Option α := none
deriving DecidableEq

/-! ## Trader enumerations -/

inductive MarketType
  | init | shA | szA | shHkConnect | szHkConnect | bjA | unknown
deriving DecidableEq

inductive PriceType
  | limit | bestOrCancel | best5OrLimit | best5OrCancel | allOrCancel | forwardBest
  | reverseBestLimit | limitOrCancel | hkLimitBidding | hkLimitEnhanced | unknown
deriving DecidableEq

inductive SideType
  | buy | sell | purchase | redemption | split | merge | cover | marginTrade | shortSell
  | repayMargin | repayStock | unknown
deriving DecidableEq

/-- The value of the C++ enumerator, which `ReserveOrder` receives as text. -/
def SideType.code : SideType → Nat
  | .buy => 1
  | .sell => 2
  | .purchase => 7
  | .redemption => 8
  | .split => 9
  | .merge => 10
  | .cover => 11
  | .marginTrade => 21
  | .shortSell => 22
  | .repayMargin => 23
  | .repayStock => 24
  | .unknown => 50

inductive PositionEffectType
  | init | open | close | forceClose | closeToday | closeYesterday | forceOff
  | localForceClose | unknown
deriving DecidableEq

inductive BusinessType
  | cash | ipo | repo | etf | margin | allotment | option | execute | freeze | fixPrice
  | unknown
deriving DecidableEq

/-- `new` is also `kInit`, `filled` is `kAllTraded`, `partiallyFilled` is
`kPartTradedQueueing` and `notTradedQueueing` is `kNoTradeQueueing`. -/
inductive OrderStatusType
  | new | filled | partiallyFilled | partiallyFilledNotQueueing | notTradedQueueing
  | noTradeNotQueueing | canceled | rejected | unknown
deriving DecidableEq

inductive OrderSubmitStatusType
  | init | insertSubmitted | insertAccepted | insertRejected | cancelSubmitted
  | cancelRejected | cancelAccepted
deriving DecidableEq

inductive PositionDirectionType
  | unknown | long | short | net
deriving DecidableEq

/-! ## Trader records -/

structure OrderRequest where
  clientOrderId : UInt32 := 0
  brokerOrderId : UInt64 := 0
  instrument : String := ""
  market : MarketType := .unknown
  price : Double := 0
  volume : Int := 0
  priceType : PriceType := .limit
  side : SideType := .buy
  positionEffect : PositionEffectType := .init
  businessType : BusinessType := .cash
deriving DecidableEq

structure CancelOrderRequest where
  orderId : String := ""
  brokerOrderId : UInt64 := 0
deriving DecidableEq

structure Order where
  orderId : String := ""
  brokerOrderId : UInt64 := 0
  clientOrderId : UInt32 := 0
  exchangeOrderId : String := ""
  instrument : String := ""
  market : MarketType := .unknown
  price : Double := 0
  volume : Int := 0
  tradedVolume : Int := 0
  leftVolume : Int := 0
  tradeAmount : Double := 0
  priceType : PriceType := .limit
  side : SideType := .buy
  positionEffect : PositionEffectType := .init
  businessType : BusinessType := .cash
  status : OrderStatusType := .new
  submitStatus : OrderSubmitStatusType := .init
  errorMessage : String := ""
deriving DecidableEq

structure Trade where
  tradeId : String := ""
  orderId : String := ""
  brokerOrderId : UInt64 := 0
  clientOrderId : UInt32 := 0
  exchangeOrderId : String := ""
  instrument : String := ""
  market : MarketType := .unknown
  price : Double := 0
  volume : Int := 0
  tradeAmount : Double := 0
  side : SideType := .buy
  positionEffect : PositionEffectType := .init
  reportIndex : UInt64 := 0
deriving DecidableEq

structure Position where
  instrument : String := ""
  totalVolume : Int := 0
  yesterdayVolume : Int := 0
  avgPrice : Double := 0
  direction : PositionDirectionType := .long
deriving DecidableEq

structure AccountAsset where
  buyingPower : Double := 0
deriving DecidableEq

/-! ## The account-risk bridge -/

structure OrderIntent where
  orderId : String
  engineId : String
  instrumentId : String
  side : String
  price : Double
  quantity : UInt64
  estimatedNotional : Double
deriving DecidableEq

inductive ReserveDecision
  | unspecified | approved | rejected | unknown
deriving DecidableEq

structure ReserveOrderResult where
  decision : ReserveDecision := .unspecified
deriving DecidableEq

structure Reservation where
  status : String := ""
deriving DecidableEq

inductive ReleaseReason
  | unspecified | emsEnqueueFailed | rejectedByVenue | canceled | settled | expired
deriving DecidableEq

/-! ## Checks on what the adapters deliver -/

def isValidOrder (order : Order) : Bool :=
  !(order.orderId == "" && order.brokerOrderId == 0 && order.clientOrderId == 0) &&
    0 ≤ order.volume && 0 ≤ order.tradedVolume && 0 ≤ order.leftVolume &&
    !(0 < order.volume && order.volume < order.tradedVolume)

def isValidTrade (trade : Trade) : Bool :=
  !(trade.instrument == "") && 0 < trade.volume && trade.price.isFinite && (0 : Double) ≤ trade.price &&
    !(trade.orderId == "" && trade.brokerOrderId == 0 && trade.clientOrderId == 0)

/-- The key by which a fill is recognised again: the trade id, or else the order's ids and
the report's number. -/
def generateTradeDedupKey (trade : Trade) : String :=
  if trade.tradeId ≠ "" then trade.tradeId
  else trade.orderId ++ ":" ++ toString trade.clientOrderId.toNat ++ ":" ++
    toString trade.brokerOrderId.toNat ++ ":" ++ trade.exchangeOrderId ++ ":" ++
    toString trade.reportIndex.toNat ++ ":" ++ trade.instrument

end Qtrade
