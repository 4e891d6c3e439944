/- PredictionMarket/Engine/Database
   digest: The database of one session and the statements that the engine runs on it. -/

import PredictionMarket.Clearing.FeeCollector

set_option autoImplicit false
set_option relaxedAutoImplicit false

namespace PredictionMarket

open Library

/-- What `_UPDATE_ORDER_SQL` writes over a row. -/
def OrderRow.progress (r : OrderRow) (order : Order) : OrderRow :=
  { r with
    status := order.status
    filledQuantity := order.filledQuantity
    remainingQuantity := order.remainingQuantity
    frozenAmount := order.frozenAmount }

/-- The tables that the engine reads and writes. -/
structure Db where
  holdings : Holdings
  markets : Table MarketId MarketRow MarketRow.Check
  orders : Table OrderId OrderRow OrderRow.Check
  trades : List TradeRow
  ledger : List LedgerRow
  wal : List WalRow

namespace Db

def onHoldings (db : Db) (f : Holdings → Except Err Holdings) : Except Err Db := do
  let h ← f db.holdings
  return { db with holdings := h }

def writeLedger (db : Db) (userId : UserId) (entryType : LedgerEntryType) (amount : Int)
    (referenceId : OrderId) : Db :=
  { db with ledger := db.ledger ++ [⟨userId, entryType, amount, 0, referenceId⟩] }

def writeWalEvent (db : Db) (eventType : WalEventType) (orderId : OrderId)
    (marketId : MarketId) (userId : UserId) : Db :=
  { db with wal := db.wal ++ [⟨marketId, eventType, orderId, userId⟩] }

/-- `write_trade`: one row, checked by the constraints of the table. -/
def writeTrade (db : Db) (row : TradeRow) : Except Err Db :=
  if row.Check then .ok { db with trades := db.trades ++ [row] } else .error .integrity

/-- `_GET_ORDER_BY_ID_SQL`. -/
def getById (db : Db) (id : OrderId) : Option Order := (db.orders.get? id).map (rowToOrder id)

/-- `_GET_ORDER_BY_CLIENT_ID_SQL`. -/
def getByClientOrderId (db : Db) (clientOrderId : String) (userId : UserId) : Option Order :=
  (db.orders.rows.find? (fun e =>
    e.2.clientOrderId = clientOrderId ∧ e.2.userId = userId)).map (fun e => rowToOrder e.1 e.2)

/-- `_INSERT_ORDER_SQL`. Nothing is filled yet, and the row takes the clock of the
database. -/
def insertedRow (order : Order) (insertedAt : Nat) : OrderRow where
  clientOrderId := order.clientOrderId
  marketId := order.marketId
  userId := order.userId
  originalSide := order.originalSide
  originalDirection := order.originalDirection
  originalPrice := order.originalPrice
  bookType := order.bookType
  bookDirection := order.bookDirection
  bookPrice := order.bookPrice
  timeInForce := order.timeInForce
  quantity := order.quantity
  filledQuantity := 0
  remainingQuantity := order.quantity
  frozenAmount := order.frozenAmount
  frozenAssetType := order.frozenAssetType
  status := order.status
  cancelReason := none
  createdAt := insertedAt

def save (db : Db) (order : Order) (insertedAt : Nat) : Except Err Db :=
  match db.getByClientOrderId order.clientOrderId order.userId with
  | some _ => .error .integrity
  | none =>
    match db.orders.insert? order.id (insertedRow order insertedAt) with
    | some orders => .ok { db with orders := orders }
    | none => .error .integrity

/-- `_UPDATE_ORDER_SQL`. -/
def updateStatus (db : Db) (order : Order) : Except Err Db :=
  match db.orders.update? order.id (fun r => r.progress order) with
  | some orders => .ok { db with orders := orders }
  | none => .error .integrity

/-- `_UPDATE_MARKET_SQL`. -/
def flushMarket (db : Db) (market : MarketState) : Except Err Db :=
  match db.markets.update? market.id (fun r =>
      { r with
        reserveBalance := market.reserveBalance
        pnlPool := market.pnlPool
        totalYesShares := market.totalYesShares
        totalNoShares := market.totalNoShares }) with
  | some markets => .ok { db with markets := markets }
  | none => .error .integrity

section Inversion

variable {db db' : Db}

theorem onHoldings_ok {f : Holdings → Except Err Holdings} (done : db.onHoldings f = .ok db') :
    ∃ h, f db.holdings = .ok h ∧ db' = { db with holdings := h } := by
  simp only [onHoldings, bind_eq_ok, pure_eq_ok] at done
  obtain ⟨h, ran, rfl⟩ := done
  exact ⟨h, ran, rfl⟩

theorem writeTrade_ok {row : TradeRow} (done : db.writeTrade row = .ok db') :
    row.Check ∧ db' = { db with trades := db.trades ++ [row] } := by
  unfold writeTrade at done
  split at done
  · next ok => exact ⟨ok, (Except.ok.inj done).symm⟩
  · cases done

theorem save_ok {order : Order} {insertedAt : Nat} (done : db.save order insertedAt = .ok db') :
    ∃ orders, db.orders.insert? order.id (insertedRow order insertedAt) = some orders ∧
      db' = { db with orders := orders } := by
  unfold save at done
  split at done
  · cases done
  · split at done
    · next orders inserted => exact ⟨orders, inserted, (Except.ok.inj done).symm⟩
    · cases done

theorem updateStatus_ok {order : Order} (done : db.updateStatus order = .ok db') :
    ∃ orders, db.orders.update? order.id (fun r => r.progress order) = some orders ∧
      db' = { db with orders := orders } := by
  unfold updateStatus at done
  split at done
  · next orders updated => exact ⟨orders, updated, (Except.ok.inj done).symm⟩
  · cases done

theorem flushMarket_ok {market : MarketState} (done : db.flushMarket market = .ok db') :
    ∃ markets, db.markets.update? market.id (fun r =>
      { r with
        reserveBalance := market.reserveBalance
        pnlPool := market.pnlPool
        totalYesShares := market.totalYesShares
        totalNoShares := market.totalNoShares }) = some markets ∧
      db' = { db with markets := markets } := by
  unfold flushMarket at done
  split at done
  · next markets updated => exact ⟨markets, updated, (Except.ok.inj done).symm⟩
  · cases done

end Inversion

end Db

end PredictionMarket
