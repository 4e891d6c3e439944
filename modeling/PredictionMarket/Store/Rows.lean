/- PredictionMarket/Store/Rows
   digest: Table rows with their CHECK constraints, and the statements on accounts and positions. -/

import PredictionMarket.Domain.Types
import PredictionMarket.Library.Table
import Mathlib.Algebra.Group.Int.Defs
import Mathlib.Tactic.Linarith

set_option autoImplicit false
set_option relaxedAutoImplicit false

namespace PredictionMarket

open Library

/-- The balances are BIGINT. A statement that takes a column of the tables here out of its
range fails: it is a failing statement of a run, or an abort. -/
structure AccountRow where
  availableBalance : Int
  frozenBalance : Int
  autoNettingEnabled : Bool
  deriving DecidableEq

def AccountRow.Check (r : AccountRow) : Prop :=
  0 ≤ r.availableBalance ∧ 0 ≤ r.frozenBalance

instance : DecidablePred AccountRow.Check := fun r =>
  inferInstanceAs (Decidable (0 ≤ r.availableBalance ∧ 0 ≤ r.frozenBalance))

theorem AccountRow.check_empty : AccountRow.Check ⟨0, 0, true⟩ := by decide

/-- The three columns that a position has for each kind of share. -/
structure Holding where
  volume : Int
  costSum : Int
  pendingSell : Int
  deriving DecidableEq

def Holding.empty : Holding := ⟨0, 0, 0⟩

def Holding.Check (c : Holding) : Prop :=
  0 ≤ c.volume ∧ 0 ≤ c.costSum ∧ 0 ≤ c.pendingSell ∧ c.pendingSell ≤ c.volume

instance : DecidablePred Holding.Check := fun c =>
  inferInstanceAs
    (Decidable (0 ≤ c.volume ∧ 0 ≤ c.costSum ∧ 0 ≤ c.pendingSell ∧ c.pendingSell ≤ c.volume))

def Holding.bought (c : Holding) (qty cost : Int) : Holding :=
  { c with volume := c.volume + qty, costSum := c.costSum + cost }

def Holding.sold (c : Holding) (qty costReleased : Int) : Holding :=
  ⟨c.volume - qty, c.costSum - costReleased, c.pendingSell - qty⟩

/-- One row per user and market, YES and NO columns together, shares as INT and costs as
BIGINT. -/
structure PositionRow where
  yes : Holding
  no : Holding
  deriving DecidableEq

def PositionRow.empty : PositionRow := ⟨.empty, .empty⟩

def PositionRow.Check (r : PositionRow) : Prop := r.yes.Check ∧ r.no.Check

instance : DecidablePred PositionRow.Check := fun r =>
  inferInstanceAs (Decidable (r.yes.Check ∧ r.no.Check))

def PositionRow.holding (r : PositionRow) : OriginalSide → Holding
  | .yes => r.yes
  | .no => r.no

def PositionRow.modify (r : PositionRow) (side : OriginalSide) (f : Holding → Holding) :
    PositionRow :=
  match side with
  | .yes => { r with yes := f r.yes }
  | .no => { r with no := f r.no }

@[simp] theorem PositionRow.holding_modify_self (r : PositionRow) (side : OriginalSide)
    (f : Holding → Holding) : (r.modify side f).holding side = f (r.holding side) := by
  cases side <;> rfl

def PositionRow.total (r : PositionRow) (column : Holding → Int) : Int :=
  column r.yes + column r.no

theorem PositionRow.total_modify (r : PositionRow) (side : OriginalSide)
    (f : Holding → Holding) (column : Holding → Int) :
    (r.modify side f).total column =
      r.total column - column (r.holding side) + column (f (r.holding side)) := by
  cases side <;> simp only [PositionRow.modify, PositionRow.total, PositionRow.holding] <;> omega

/-- The columns that clearing, matching and settlement use; the sums are BIGINT. -/
structure MarketRow where
  status : MarketStatus
  reserveBalance : Int
  pnlPool : Int
  totalYesShares : Int
  totalNoShares : Int
  takerFeeBps : Int
  resolutionResult : Option OriginalSide
  deriving DecidableEq

def MarketRow.Check (r : MarketRow) : Prop :=
  0 ≤ r.reserveBalance ∧ 0 ≤ r.totalYesShares ∧ 0 ≤ r.totalNoShares ∧
    r.totalYesShares = r.totalNoShares ∧ r.reserveBalance = r.totalYesShares * 100 ∧
    0 ≤ r.takerFeeBps ∧ r.takerFeeBps ≤ 1000

instance : DecidablePred MarketRow.Check := fun r =>
  inferInstanceAs (Decidable (0 ≤ r.reserveBalance ∧ 0 ≤ r.totalYesShares ∧
    0 ≤ r.totalNoShares ∧ r.totalYesShares = r.totalNoShares ∧
    r.reserveBalance = r.totalYesShares * 100 ∧ 0 ≤ r.takerFeeBps ∧ r.takerFeeBps ≤ 1000))

/-- In-memory view of a market row, mutated during clearing and flushed at the
end. -/
structure MarketState where
  id : MarketId
  status : MarketStatus
  reserveBalance : Int
  pnlPool : Int
  totalYesShares : Int
  totalNoShares : Int
  takerFeeBps : Int
  deriving DecidableEq

def MarketState.ofRow (id : MarketId) (r : MarketRow) : MarketState :=
  ⟨id, r.status, r.reserveBalance, r.pnlPool, r.totalYesShares, r.totalNoShares, r.takerFeeBps⟩

/-- The orders table, without the id that is its key. -/
structure OrderRow where
  clientOrderId : String
  marketId : MarketId
  userId : UserId
  originalSide : OriginalSide
  originalDirection : OrderDirection
  originalPrice : Int
  bookType : BookType
  bookDirection : OrderDirection
  bookPrice : Int
  timeInForce : TimeInForce
  quantity : Int
  filledQuantity : Int
  remainingQuantity : Int
  frozenAmount : Int
  frozenAssetType : FrozenAssetType
  status : OrderStatus
  cancelReason : Option String
  createdAt : Nat
  deriving DecidableEq

def BookType.direction : BookType → OrderDirection
  | .nativeBuy | .syntheticBuy => .buy
  | .nativeSell | .syntheticSell => .sell

def OrderRow.Check (r : OrderRow) : Prop :=
  (1 ≤ r.originalPrice ∧ r.originalPrice ≤ 99) ∧ (1 ≤ r.bookPrice ∧ r.bookPrice ≤ 99) ∧
    0 < r.quantity ∧ (0 ≤ r.filledQuantity ∧ r.filledQuantity ≤ r.quantity) ∧
    (0 ≤ r.remainingQuantity ∧ r.remainingQuantity ≤ r.quantity) ∧
    r.filledQuantity + r.remainingQuantity = r.quantity ∧ 0 ≤ r.frozenAmount ∧
    r.bookType.direction = r.bookDirection

instance : DecidablePred OrderRow.Check := fun r =>
  inferInstanceAs (Decidable ((1 ≤ r.originalPrice ∧ r.originalPrice ≤ 99) ∧
    (1 ≤ r.bookPrice ∧ r.bookPrice ≤ 99) ∧ 0 < r.quantity ∧
    (0 ≤ r.filledQuantity ∧ r.filledQuantity ≤ r.quantity) ∧
    (0 ≤ r.remainingQuantity ∧ r.remainingQuantity ≤ r.quantity) ∧
    r.filledQuantity + r.remainingQuantity = r.quantity ∧ 0 ≤ r.frozenAmount ∧
    r.bookType.direction = r.bookDirection))

def OrderRow.isActive (r : OrderRow) : Bool := r.status.isActive

namespace OrderRow.Check

variable {r : OrderRow}

theorem filled_nonneg (ok : r.Check) : 0 ≤ r.filledQuantity := ok.2.2.2.1.1

theorem remaining_nonneg (ok : r.Check) : 0 ≤ r.remainingQuantity := ok.2.2.2.2.1.1

theorem filled_add_remaining (ok : r.Check) :
    r.filledQuantity + r.remainingQuantity = r.quantity := ok.2.2.2.2.2.1

theorem frozen_nonneg (ok : r.Check) : 0 ≤ r.frozenAmount := ok.2.2.2.2.2.2.1

theorem quantity_sub_filled (ok : r.Check) :
    r.quantity - r.filledQuantity = r.remainingQuantity := by
  have sum := ok.filled_add_remaining
  omega

end OrderRow.Check

/-- Convert a stored row to an order; the remaining quantity is recomputed. -/
def rowToOrder (id : OrderId) (r : OrderRow) : Order where
  id := id
  clientOrderId := r.clientOrderId
  marketId := r.marketId
  userId := r.userId
  originalSide := r.originalSide
  originalDirection := r.originalDirection
  originalPrice := r.originalPrice
  bookType := r.bookType
  bookDirection := r.bookDirection
  bookPrice := r.bookPrice
  quantity := r.quantity
  frozenAmount := r.frozenAmount
  frozenAssetType := r.frozenAssetType
  timeInForce := r.timeInForce
  status := r.status
  cancelReason := r.cancelReason
  filledQuantity := r.filledQuantity
  remainingQuantity := r.quantity - r.filledQuantity
  createdAt := r.createdAt

/-- The trades table; its generated id and clock columns are left out. -/
structure TradeRow where
  trade : TradeResult
  scenario : TradeScenario
  makerFee : Int
  takerFee : Int
  buyRealizedPnl : Option Int
  sellRealizedPnl : Option Int
  deriving DecidableEq

def TradeRow.Check (r : TradeRow) : Prop :=
  r.trade.buyBookType.direction = .buy ∧ r.trade.sellBookType.direction = .sell ∧
    (1 ≤ r.trade.price ∧ r.trade.price ≤ 99) ∧ 0 < r.trade.quantity ∧
    (0 ≤ r.makerFee ∧ 0 ≤ r.takerFee) ∧ r.trade.buyUserId ≠ r.trade.sellUserId

instance : DecidablePred TradeRow.Check := fun r =>
  inferInstanceAs (Decidable (r.trade.buyBookType.direction = .buy ∧
    r.trade.sellBookType.direction = .sell ∧ (1 ≤ r.trade.price ∧ r.trade.price ≤ 99) ∧
    0 < r.trade.quantity ∧ (0 ≤ r.makerFee ∧ 0 ≤ r.takerFee) ∧
    r.trade.buyUserId ≠ r.trade.sellUserId))

inductive LedgerEntryType
  | orderFreeze | orderUnfreeze
  deriving DecidableEq

structure LedgerRow where
  userId : UserId
  entryType : LedgerEntryType
  amount : Int
  balanceAfter : Int
  referenceId : OrderId
  deriving DecidableEq

inductive WalEventType
  | orderAccepted | orderMatched | orderPartiallyFilled | orderCancelled | orderExpired
  deriving DecidableEq

structure WalRow where
  marketId : MarketId
  eventType : WalEventType
  orderId : OrderId
  userId : UserId
  deriving DecidableEq

/-- The two tables that clearing moves value in. -/
structure Holdings where
  accounts : Table UserId AccountRow AccountRow.Check
  positions : Table (UserId × MarketId) PositionRow PositionRow.Check

namespace Holdings

def empty : Holdings := ⟨.empty, .empty⟩

def updateAccount (h : Holdings) (userId : UserId) (f : AccountRow → AccountRow) :
    Except Err Holdings :=
  match h.accounts.update? userId f with
  | some accounts => .ok { h with accounts := accounts }
  | none => .error .integrity

def updatePosition (h : Holdings) (userId : UserId) (marketId : MarketId)
    (f : PositionRow → PositionRow) : Except Err Holdings :=
  match h.positions.update? (userId, marketId) f with
  | some positions => .ok { h with positions := positions }
  | none => .error .integrity

/-- `_UNFREEZE_DEBIT_SQL`, `_DEDUCT_FROZEN_SQL` and the unfreeze statements. -/
def unfreezeDebit (h : Holdings) (userId : UserId) (unfreeze refund : Int) :
    Except Err Holdings :=
  h.updateAccount userId (fun a =>
    { a with
      frozenBalance := a.frozenBalance - unfreeze
      availableBalance := a.availableBalance + refund })

/-- `_ADD_BALANCE_SQL`, `_CREDIT_AVAILABLE_SQL` and their kind. -/
def addBalance (h : Holdings) (userId : UserId) (amount : Int) : Except Err Holdings :=
  h.updateAccount userId (fun a => { a with availableBalance := a.availableBalance + amount })

/-- `_ADD_YES_VOLUME_SQL` and `_ADD_NO_VOLUME_SQL`. -/
def addVolume (h : Holdings) (side : OriginalSide) (userId : UserId) (marketId : MarketId)
    (qty cost : Int) : Except Err Holdings :=
  match h.positions.upsert? (userId, marketId)
      (PositionRow.empty.modify side (fun c => c.bought qty cost))
      (fun r => r.modify side (fun c => c.bought qty cost)) with
  | some positions => .ok { h with positions := positions }
  | none => .error .integrity

/-- `_REDUCE_YES_VOLUME_SQL` and `_REDUCE_NO_VOLUME_SQL`. -/
def reduceVolume (h : Holdings) (side : OriginalSide) (userId : UserId) (marketId : MarketId)
    (qty costReleased : Int) : Except Err Holdings :=
  h.updatePosition userId marketId (fun r => r.modify side (fun c => c.sold qty costReleased))

/-- Move `qty` more shares into, or with a negative amount out of, the frozen
column. -/
def addPending (h : Holdings) (side : OriginalSide) (userId : UserId) (marketId : MarketId)
    (qty : Int) : Except Err Holdings :=
  h.updatePosition userId marketId (fun r => r.modify side (fun c =>
    { c with pendingSell := c.pendingSell + qty }))

end Holdings

end PredictionMarket
