/- PredictionMarket/Engine/Services
   digest: The transactions around the engine: order service, resolution, and where they can fail. -/

import PredictionMarket.Engine.MatchingEngine

set_option autoImplicit false
set_option relaxedAutoImplicit false

namespace PredictionMarket

open Library

/-- Where the database fails a request, if it does: at a read before the
savepoint, at a statement in it, or at the commit after the engine returned. -/
inductive Fault
  | none | lookup | statement | commit
  deriving DecidableEq

structure PlaceOrderRequest where
  clientOrderId : String
  marketId : MarketId
  side : OriginalSide
  direction : OrderDirection
  priceCents : Int
  quantity : Int
  timeInForce : TimeInForce

/-- The clock of the service and the clock of the database during a request. -/
structure Clock where
  now : Nat
  dbNow : Nat

def PlaceOrderRequest.draft (req : PlaceOrderRequest) (id : OrderId) (userId : UserId)
    (clock : Clock) : OrderDraft where
  id := id
  clientOrderId := req.clientOrderId
  marketId := req.marketId
  userId := userId
  originalSide := req.side
  originalDirection := req.direction
  originalPrice := req.priceCents
  quantity := req.quantity
  timeInForce := req.timeInForce
  createdAt := clock.now
  insertedAt := clock.dbNow

/-- `generate_id`: ids only grow. -/
def World.generateId (w : World) : OrderId × World := (w.nextId, { w with nextId := w.nextId + 1 })

/-- The end of a transaction: commit what the engine did, or restore the tables
and keep what it left in memory. -/
def World.finish {α : Type} (w : World) (fault : Fault) : Except Err α × World → Except Err α × World
  | (.ok a, after) =>
    if fault = .commit then (.error .database, { after with db := w.db }) else (.ok a, after)
  | (.error e, after) => (.error e, { after with db := w.db })

namespace OrderService

/-- Place an order, or report the stored one when the request is a repetition. -/
def placeOrder (req : PlaceOrderRequest) (userId : UserId) (clock : Clock) (fault : Fault)
    (w : World) : Except Err Placed × World :=
  if fault = .lookup then (.error .database, w)
  else
    match w.db.getByClientOrderId req.clientOrderId userId with
    | some existing =>
      if existing.originalSide ≠ req.side ∨ existing.originalDirection ≠ req.direction ∨
          existing.originalPrice ≠ req.priceCents ∨ existing.quantity ≠ req.quantity then
        (.error (.app (duplicateOrderError req.clientOrderId)), w)
      else (.ok ⟨existing, [], 0⟩, w)
    | none =>
      let (id, w) := w.generateId
      let draft := req.draft id userId clock
      if fault = .statement then (.error .database, w.evict req.marketId)
      else w.finish fault (MatchingEngine.placeOrder draft w)

/-- Cancel an order. A refusal comes before the savepoint, so a statement that
fails in the savepoint evicts the book only when there is no refusal. -/
def cancelOrder (orderId : OrderId) (userId : UserId) (fault : Fault) (w : World) :
    Except Err Order × World :=
  if fault = .lookup then (.error .database, w)
  else
    match fault, w.db.getById orderId, MatchingEngine.cancelOrder orderId userId w with
    | .statement, some order, (.ok _, _) => (.error .database, w.evict order.marketId)
    | _, _, outcome => w.finish fault outcome

def replaceOrder (oldOrderId : OrderId) (req : PlaceOrderRequest) (userId : UserId)
    (clock : Clock) (w : World) : Except Err MatchingEngine.Replaced × World :=
  let (id, w) := w.generateId
  w.finish .none (MatchingEngine.replaceOrder oldOrderId (req.draft id userId clock) w)

def batchCancel (marketId : MarketId) (userId : UserId) (scope : CancelScope) (w : World) :
    Except Err MatchingEngine.BatchCancelled × World :=
  w.finish .none (MatchingEngine.batchCancel marketId userId scope w)

end OrderService

namespace AdminService

/-- Cancel one scanned order and give back what it holds. Shares go back by what
remained of the order, funds by what the row says is frozen. -/
def cancelAndUnfreeze (marketId : MarketId) (db : Db) (e : OrderId × OrderRow) :
    Except Err Db := do
  let db ← (match db.orders.update? e.1 (fun r =>
      { r with status := .cancelled, cancelReason := some "MARKET_RESOLVED" }) with
    | some orders => .ok { db with orders := orders }
    | none => .error .integrity : Except Err Db)
  db.onHoldings (fun h =>
    match e.2.frozenAssetType with
    | .funds => h.unfreezeDebit e.2.userId e.2.frozenAmount e.2.frozenAmount
    | .yesShares => h.addPending .yes e.2.userId marketId (-e.2.remainingQuantity)
    | .noShares => h.addPending .no e.2.userId marketId (-e.2.remainingQuantity))

def payAndClear (marketId : MarketId) (outcome : OriginalSide) (h : Holdings)
    (e : UserId × PositionRow) : Except Err Holdings := do
  let winningShares := (e.2.holding outcome).volume
  let h ← (if 0 < winningShares then h.addBalance e.1 (winningShares * 100) else pure h :
    Except Err Holdings)
  h.updatePosition e.1 marketId (fun _ => .empty)

/-- `_GET_POSITIONS_SQL`. -/
def marketPositions (marketId : MarketId) (h : Holdings) : List (UserId × PositionRow) :=
  (h.positions.rows.filter (fun e => e.1.2 = marketId)).map (fun e => (e.1.1, e.2))

/-- What `_SETTLE_MARKET_SQL` writes over a row. -/
def settledRow (outcome : OriginalSide) (r : MarketRow) : MarketRow :=
  { r with
    status := .settled
    reserveBalance := 0
    pnlPool := 0
    totalYesShares := 0
    totalNoShares := 0
    resolutionResult := some outcome }

def settleMarket (marketId : MarketId) (outcome : OriginalSide) (db : Db) : Except Err Db := do
  let h ← (marketPositions marketId db.holdings).foldlM (payAndClear marketId outcome) db.holdings
  match db.markets.update? marketId (settledRow outcome) with
  | some markets => .ok { db with holdings := h, markets := markets }
  | none => .error .integrity

/-- The scan of `_GET_OPEN_ORDERS_SQL`. -/
def openOrders (marketId : MarketId) (db : Db) : List (OrderId × OrderRow) :=
  db.orders.rows.filter (fun e => e.2.marketId = marketId ∧ e.2.isActive)

def resolveInTransaction (marketId : MarketId) (outcome : OriginalSide) (db : Db) :
    Except Err Db := do
  let db ← (openOrders marketId db).foldlM (cancelAndUnfreeze marketId) db
  settleMarket marketId outcome db

/-- Resolve a market. The books in memory are not touched. -/
def resolveMarket (marketId : MarketId) (outcome : OriginalSide) (fault : Fault) (w : World) :
    Except Err Unit × World :=
  if fault = .lookup then (.error .database, w)
  else
    match w.db.markets.get? marketId with
    | none => (.error (.app ⟨3001, "Market not found", 404⟩), w)
    | some row =>
      if row.status ≠ .active ∧ row.status ≠ .suspended then
        (.error (.app ⟨3002, s!"Market cannot be resolved (status={row.status.name})", 422⟩), w)
      else if fault = .statement then (.error .database, w)
      else
        w.finish fault (match resolveInTransaction marketId outcome w.db with
          | .ok db => (.ok (), { w with db := db })
          | .error e => (.error e, w))

end AdminService

end PredictionMarket
