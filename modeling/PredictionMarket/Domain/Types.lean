/- PredictionMarket/Domain/Types
   digest: Enums, errors and records shared by matching, clearing and orders. -/

import Mathlib.Data.Int.Notation
import Mathlib.Tactic.TypeStar

set_option autoImplicit false
set_option relaxedAutoImplicit false

namespace PredictionMarket

/-- Order ids are decimal texts of snowflake integers; the code only compares
them for equality, so the integer stands for its text. -/
abbrev OrderId := Nat

abbrev MarketId := String

abbrev UserId := String

inductive MarketStatus
  | draft | active | suspended | halted | resolved | settled | voided
  deriving DecidableEq

def MarketStatus.name : MarketStatus → String
  | .draft => "DRAFT"
  | .active => "ACTIVE"
  | .suspended => "SUSPENDED"
  | .halted => "HALTED"
  | .resolved => "RESOLVED"
  | .settled => "SETTLED"
  | .voided => "VOIDED"

/-- Where an order comes from in the single YES book. -/
inductive BookType
  | nativeBuy | nativeSell | syntheticBuy | syntheticSell
  deriving DecidableEq

inductive TradeScenario
  | mint | transferYes | transferNo | burn
  deriving DecidableEq

inductive FrozenAssetType
  | funds | yesShares | noShares
  deriving DecidableEq

/-- The two kinds of shares, and the two outcomes a market resolves to. -/
inductive OriginalSide
  | yes | no
  deriving DecidableEq

inductive OrderDirection
  | buy | sell
  deriving DecidableEq

inductive TimeInForce
  | gtc | ioc
  deriving DecidableEq

inductive OrderStatus
  | new | «open» | partiallyFilled | filled | cancelled | rejected
  deriving DecidableEq

inductive CancelScope
  | all | buyOnly | sellOnly
  deriving DecidableEq

/-- A business error with its API code, text and HTTP status. -/
structure AppError where
  code : Int
  message : String
  httpStatus : Int
  deriving DecidableEq

def insufficientBalanceError (required available : Int) : AppError :=
  ⟨2001, s!"Insufficient balance: required {required} cents, available {available} cents", 422⟩

def marketNotFoundError (marketId : MarketId) : AppError :=
  ⟨3001, s!"Market not found: {marketId}", 404⟩

def marketNotActiveError (marketId : MarketId) : AppError :=
  ⟨3002, s!"Market is not active: {marketId}", 422⟩

def priceOutOfRangeError (price : Int) : AppError :=
  ⟨4001, s!"Price out of range: {price}", 422⟩

def orderLimitExceededError (detail : String) : AppError :=
  ⟨4002, s!"Order limit exceeded: {detail}", 422⟩

def duplicateOrderError (clientOrderId : String) : AppError :=
  ⟨4005, s!"Duplicate client_order_id: {clientOrderId}", 409⟩

def insufficientPositionError (detail : String) : AppError :=
  ⟨5001, s!"Insufficient position: {detail}", 422⟩

/-- The three assertions of the market invariant check, with the values they
report. -/
inductive Violation
  | inv1 (yes no : Int)
  | inv2 (reserve yes : Int)
  | inv3 (reserve pnl totalCost : Int)
  deriving DecidableEq

def Violation.message : Violation → String
  | .inv1 yes no => s!"INV-1 violated: yes_shares={yes} != no_shares={no}"
  | .inv2 reserve yes =>
    s!"INV-2 violated: reserve={reserve} != yes_shares * 100 = {yes * 100}"
  | .inv3 reserve pnl totalCost =>
    s!"INV-3 violated: reserve({reserve}) + pnl({pnl}) = {reserve + pnl} != total_cost_sum={totalCost}"

/-- Everything a request can raise. `integrity` is a CHECK or UNIQUE constraint
of the schema, `attribute` the access to a field of a missing row, `database` a
failure of the database itself. -/
inductive Err
  | app (e : AppError)
  | runtime (message : String)
  | assertion (v : Violation)
  | integrity
  | attribute
  | database
  deriving DecidableEq

/-- In-memory orderbook entry. -/
structure BookOrder where
  orderId : OrderId
  userId : UserId
  bookType : BookType
  quantity : Int
  createdAt : Nat
  deriving DecidableEq

/-- Single fill passed from matching to clearing. -/
structure TradeResult where
  buyOrderId : OrderId
  sellOrderId : OrderId
  buyUserId : UserId
  sellUserId : UserId
  marketId : MarketId
  price : Int
  quantity : Int
  buyBookType : BookType
  sellBookType : BookType
  buyOriginalPrice : Int
  makerOrderId : OrderId
  takerOrderId : OrderId
  deriving DecidableEq

/-- An order as the service builds it, before the book fields and the freeze are
known. `insertedAt` is the database clock of its INSERT, `createdAt` the
service's own clock. -/
structure OrderDraft where
  id : OrderId
  clientOrderId : String
  marketId : MarketId
  userId : UserId
  originalSide : OriginalSide
  originalDirection : OrderDirection
  originalPrice : Int
  quantity : Int
  timeInForce : TimeInForce
  createdAt : Nat
  insertedAt : Nat
  deriving DecidableEq

/-- Order domain model. -/
structure Order where
  id : OrderId
  clientOrderId : String
  marketId : MarketId
  userId : UserId
  originalSide : OriginalSide
  originalDirection : OrderDirection
  originalPrice : Int
  bookType : BookType
  bookDirection : OrderDirection
  bookPrice : Int
  quantity : Int
  frozenAmount : Int
  frozenAssetType : FrozenAssetType
  timeInForce : TimeInForce
  status : OrderStatus
  cancelReason : Option String
  filledQuantity : Int
  remainingQuantity : Int
  createdAt : Nat
  deriving DecidableEq

def OrderStatus.isActive : OrderStatus → Bool
  | .open | .partiallyFilled => true
  | _ => false

/-- `is_active` and `is_cancellable` are the same test. -/
def Order.isCancellable (o : Order) : Bool := o.status.isActive

def transformOrder : OriginalSide → OrderDirection → Int → BookType × OrderDirection × Int
  | .yes, .buy, price => (.nativeBuy, .buy, price)
  | .yes, .sell, price => (.nativeSell, .sell, price)
  | .no, .buy, price => (.syntheticSell, .sell, 100 - price)
  | .no, .sell, price => (.syntheticBuy, .buy, 100 - price)

def determineScenario (buyBookType sellBookType : BookType) : TradeScenario :=
  let buyNative := buyBookType = .nativeBuy
  let sellNative := sellBookType = .nativeSell
  if buyNative ∧ ¬sellNative then .mint
  else if buyNative ∧ sellNative then .transferYes
  else if ¬buyNative ∧ ¬sellNative then .transferNo
  else .burn

def BookType.paysCash : BookType → Bool
  | .nativeBuy | .syntheticSell => true
  | .nativeSell | .syntheticBuy => false

def AMM_USER_ID : UserId := "00000000-0000-4000-a000-000000000001"

def PLATFORM_FEE_USER_ID : UserId := "PLATFORM_FEE"

/-- `str.lower` on the ASCII text of an id. -/
def lower (id : UserId) : List Char := id.toList.map Char.toLower

/-- True when the fill is skipped; the AMM account is exempt. -/
def isSelfTrade (incomingUserId restingUserId : UserId) : Bool :=
  let uidIn := lower incomingUserId
  let uidRest := lower restingUserId
  if uidIn = lower AMM_USER_ID ∨ uidRest = lower AMM_USER_ID then false
  else uidIn = uidRest

def MAX_ORDER_QUANTITY : Int := 10000

def checkPriceRange (price : Int) : Except Err Unit :=
  if 1 ≤ price ∧ price ≤ 99 then pure () else throw (.app (priceOutOfRangeError price))

def checkOrderLimit (quantity : Int) : Except Err Unit :=
  if 1 ≤ quantity ∧ quantity ≤ MAX_ORDER_QUANTITY then pure ()
  else throw (.app (orderLimitExceededError
    s!"quantity={quantity} must be in [1, {MAX_ORDER_QUANTITY}]"))

end PredictionMarket
