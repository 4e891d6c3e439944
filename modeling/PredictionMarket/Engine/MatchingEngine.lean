/- PredictionMarket/Engine/MatchingEngine
   digest: The engine's entry points over its in-memory books, and the rebuild from the orders table. -/

import PredictionMarket.Engine.PlaceOrder

set_option autoImplicit false
set_option relaxedAutoImplicit false

namespace PredictionMarket

open Library

/-- The process and its database between two requests: the books in memory, the
tables, and the next id of the generator. -/
structure World where
  orderbooks : MarketId → Option OrderBook
  db : Db
  nextId : OrderId

namespace World

/-- `_get_or_create_orderbook`: a market without a book gets an empty one. -/
def getOrCreateOrderbook (w : World) (marketId : MarketId) : OrderBook :=
  (w.orderbooks marketId).getD .empty

def keepBook (w : World) (marketId : MarketId) (ob : OrderBook) : World :=
  { w with orderbooks := Function.update w.orderbooks marketId (some ob) }

/-- `_orderbooks.pop`. -/
def evict (w : World) (marketId : MarketId) : World :=
  { w with orderbooks := Function.update w.orderbooks marketId none }

end World

def Db.activeOrders (db : Db) (marketId : MarketId) : List (OrderId × OrderRow) :=
  (db.orders.rows.filter (fun e => e.2.marketId = marketId ∧ e.2.isActive)).mergeSort
    (fun a b => a.2.createdAt ≤ b.2.createdAt)

/-- `rebuild_orderbook`: the book of the active orders of the table. The source
has no caller of it. -/
def rebuildOrderbook (marketId : MarketId) (db : Db) : OrderBook :=
  (db.activeOrders marketId).foldl (fun ob e =>
    ob.addOrder ⟨e.1, e.2.userId, e.2.bookType, e.2.remainingQuantity, e.2.createdAt⟩
      e.2.bookPrice e.2.bookDirection) .empty

namespace MatchingEngine

/-- Main entry point. Any exception evicts the book; the savepoint restores the
tables. -/
def placeOrder (draft : OrderDraft) (w : World) : Except Err Placed × World :=
  match placeOrderInner draft (w.getOrCreateOrderbook draft.marketId) w.db with
  | (.ok (placed, db), ob) => (.ok placed, { w.keepBook draft.marketId ob with db := db })
  | (.error e, _) => (.error e, w.evict draft.marketId)

/-- The savepoint of a cancel: release, mark, log. -/
def cancelInSavepoint (order : Order) (db : Db) : Except Err (Order × Db) := do
  let db ← unfreezeRemainder order db
  let order := { order with status := .cancelled }
  let db ← db.updateStatus order
  return (order, db.writeWalEvent .orderCancelled order.id order.marketId order.userId)

def cancelOrder (orderId : OrderId) (userId : UserId) (w : World) : Except Err Order × World :=
  match w.db.getById orderId with
  | none => (.error (.app ⟨4004, "Order not found", 404⟩), w)
  | some order =>
    if order.userId ≠ userId then (.error (.app ⟨403, "Forbidden", 403⟩), w)
    else if !order.isCancellable then
      (.error (.app ⟨4006, "Order cannot be cancelled", 422⟩), w)
    else
      let ob := (w.getOrCreateOrderbook order.marketId).cancelOrder orderId
      match cancelInSavepoint order w.db with
      | .ok (cancelled, db) => (.ok cancelled, { w.keepBook order.marketId ob with db := db })
      | .error (.app e) => (.error (.app e), w.keepBook order.marketId ob)
      | .error e => (.error e, w.evict order.marketId)

/-- What a replacement reports of the old order, with the new placement. -/
structure Replaced where
  oldOrder : Order
  placed : Placed

/-- Atomic Replace: cancel old order + place new order in a single savepoint. A
business error keeps the book as it then is, any other one evicts it. -/
def replaceOrder (oldOrderId : OrderId) (new : OrderDraft) (w : World) :
    Except Err Replaced × World :=
  match w.db.getById oldOrderId with
  | none => (.error (.app ⟨6002, "Old order not found", 404⟩), w)
  | some old =>
    if old.userId ≠ new.userId then
      (.error (.app ⟨6004, "Old order not owned by requesting user", 403⟩), w)
    else if old.status = .filled then
      (.error (.app ⟨6003, "Old order already fully filled", 422⟩), w)
    else if 0 < old.filledQuantity then
      (.error (.app ⟨6001,
        "Old order partially filled; replacement rejected. Cancel the old order first.", 422⟩), w)
    else if old.marketId ≠ new.marketId then
      (.error (.app ⟨6005, "New order market_id must match old order market_id", 422⟩), w)
    else
      let ob := (w.getOrCreateOrderbook old.marketId).cancelOrder oldOrderId
      match cancelInSavepoint old w.db with
      | .error (.app e) => (.error (.app e), w.keepBook old.marketId ob)
      | .error e => (.error e, w.evict old.marketId)
      | .ok (cancelled, db) =>
        match placeOrderInner new ob db with
        | (.ok (placed, db), ob) =>
          (.ok ⟨cancelled, placed⟩, { w.keepBook old.marketId ob with db := db })
        | (.error (.app e), ob) => (.error (.app e), w.keepBook old.marketId ob)
        | (.error e, _) => (.error e, w.evict old.marketId)

def inScope : CancelScope → OrderDirection → Bool
  | .all, _ => true
  | .buyOnly, d => d = .buy
  | .sellOnly, d => d = .sell

def batchRows (marketId : MarketId) (userId : UserId) (scope : CancelScope) (db : Db) :
    List (OrderId × OrderRow) :=
  db.orders.rows.filter (fun e => e.2.userId = userId ∧ e.2.marketId = marketId ∧
    e.2.isActive ∧ inScope scope e.2.originalDirection)

/-- `UPDATE orders SET status = 'CANCELLED' WHERE id = ANY(:ids)`. -/
def markCancelled (ids : List OrderId) (db : Db) : Except Err Db :=
  ids.foldlM (fun db id =>
    match db.orders.update? id (fun r => { r with status := .cancelled }) with
    | some orders => Except.ok { db with orders := orders }
    | none => .error .integrity) db

def totalFrozen (asset : FrozenAssetType) (rows : List (OrderId × OrderRow)) : Int :=
  ((rows.filter (fun e => e.2.frozenAssetType = asset)).map (fun e => e.2.frozenAmount)).sum

theorem totalFrozen_eq_sum (amount : OrderRow → Int) {rows : List (OrderId × OrderRow)}
    {asset : FrozenAssetType} (each : ∀ e ∈ rows,
      (if e.2.frozenAssetType = asset then e.2.frozenAmount else 0) = amount e.2) :
    totalFrozen asset rows = (rows.map (fun e => amount e.2)).sum := by
  induction rows with
  | nil => rfl
  | cons e rows ih =>
    have rest := ih (fun a member => each a (List.mem_cons_of_mem _ member))
    rw [List.map_cons, List.sum_cons, ← rest, ← each e List.mem_cons_self]
    unfold totalFrozen
    by_cases kind : e.2.frozenAssetType = asset
    · simp [kind]
    · simp [kind]

structure BatchCancelled where
  cancelledCount : Nat
  unfrozenFunds : Int
  unfrozenYes : Int
  unfrozenNo : Int

/-- Bulk unfreeze; a total of zero runs no statement. -/
def bulkUnfreeze (marketId : MarketId) (userId : UserId) (funds yes no : Int) (h : Holdings) :
    Except Err Holdings := do
  let h ← (if 0 < funds then h.unfreezeDebit userId funds funds else pure h : Except Err Holdings)
  let h ← (if 0 < yes then h.addPending .yes userId marketId (-yes) else pure h :
    Except Err Holdings)
  if 0 < no then h.addPending .no userId marketId (-no) else pure h

/-- Batch cancel. It has no savepoint and never evicts: the book keeps what the
loop took out of it, and only an existing book is touched. -/
def batchCancel (marketId : MarketId) (userId : UserId) (scope : CancelScope) (w : World) :
    Except Err BatchCancelled × World :=
  let rows := batchRows marketId userId scope w.db
  if rows = [] then (.ok ⟨0, 0, 0, 0⟩, w)
  else
    let ids := rows.map Prod.fst
    let funds := totalFrozen .funds rows
    let yes := totalFrozen .yesShares rows
    let no := totalFrozen .noShares rows
    let book := (w.orderbooks marketId).map (fun ob => ids.foldl OrderBook.cancelOrder ob)
    let w := { w with orderbooks := Function.update w.orderbooks marketId book }
    match (do
      let db ← markCancelled ids w.db
      db.onHoldings (bulkUnfreeze marketId userId funds yes no)) with
    | .ok db => (.ok ⟨rows.length, funds, yes, no⟩, { w with db := db })
    | .error e => (.error e, w)

end MatchingEngine

end PredictionMarket
