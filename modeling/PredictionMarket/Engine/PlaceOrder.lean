/- PredictionMarket/Engine/PlaceOrder
   digest: Order placement inside the savepoint: accept, match, clear each fill, finalize, flush. -/

import PredictionMarket.Engine.Database
import PredictionMarket.Matching.MatchOrder

set_option autoImplicit false
set_option relaxedAutoImplicit false

namespace PredictionMarket

open Library

def checkMarketActive (marketId : MarketId) (db : Db) : Except Err Unit :=
  match db.markets.get? marketId with
  | none => throw (.app (marketNotFoundError marketId))
  | some row =>
    if row.status = .active then pure () else throw (.app (marketNotActiveError marketId))

def freezeAmount (value : Int) : Int := value + calcMaxFee value

/-- `_FREEZE_FUNDS_SQL`, with the ledger entry for it. -/
def freezeFunds (order : Order) (amount : Int) (db : Db) : Except Err (Order × Db) := do
  match db.holdings.accounts.get? order.userId with
  | none => throw (.app (insufficientBalanceError amount 0))
  | some a =>
    if a.availableBalance < amount then throw (.app (insufficientBalanceError amount 0))
    let db ← db.onHoldings (fun h => h.unfreezeDebit order.userId (-amount) (-amount))
    let db := db.writeLedger order.userId .orderFreeze (-amount) order.id
    return ({ order with frozenAmount := amount, frozenAssetType := .funds }, db)

/-- `_FREEZE_YES_SQL` and `_FREEZE_NO_SQL`. -/
def freezeShares (order : Order) (side : OriginalSide) (asset : FrozenAssetType)
    (missing : String) (db : Db) : Except Err (Order × Db) := do
  match db.holdings.positions.get? (order.userId, order.marketId) with
  | none => throw (.app (insufficientPositionError missing))
  | some r =>
    if (r.holding side).volume - (r.holding side).pendingSell < order.quantity then
      throw (.app (insufficientPositionError missing))
    let db ← db.onHoldings (fun h => h.addPending side order.userId order.marketId order.quantity)
    return ({ order with frozenAmount := order.quantity, frozenAssetType := asset }, db)

/-- Freeze funds or shares atomically; gives the order its frozen fields. -/
def checkAndFreeze (order : Order) (db : Db) : Except Err (Order × Db) :=
  match order.bookType with
  | .nativeBuy | .syntheticSell =>
    freezeFunds order (freezeAmount (order.originalPrice * order.quantity)) db
  | .nativeSell =>
    freezeShares order .yes .yesShares s!"Insufficient YES shares: need {order.quantity}" db
  | .syntheticBuy =>
    freezeShares order .no .noShares s!"Insufficient NO shares: need {order.quantity}" db

/-- The order that a draft becomes; nothing is frozen for it yet. -/
def OrderDraft.toOrder (draft : OrderDraft) : Order :=
  let (bookType, bookDirection, bookPrice) :=
    transformOrder draft.originalSide draft.originalDirection draft.originalPrice
  { id := draft.id
    clientOrderId := draft.clientOrderId
    marketId := draft.marketId
    userId := draft.userId
    originalSide := draft.originalSide
    originalDirection := draft.originalDirection
    originalPrice := draft.originalPrice
    bookType := bookType
    bookDirection := bookDirection
    bookPrice := bookPrice
    quantity := draft.quantity
    frozenAmount := 0
    frozenAssetType := .funds
    timeInForce := draft.timeInForce
    status := .open
    cancelReason := none
    filledQuantity := 0
    remainingQuantity := draft.quantity
    createdAt := draft.createdAt }

/-- Everything before matching: risk checks, transform, freeze, save, and the
market row loaded for update. -/
def acceptOrder (draft : OrderDraft) (db : Db) : Except Err (Order × MarketState × Db) := do
  checkMarketActive draft.marketId db
  checkPriceRange draft.originalPrice
  checkOrderLimit draft.quantity
  let (order, db) ← checkAndFreeze draft.toOrder db
  let db ← db.save order draft.insertedAt
  let db := db.writeWalEvent .orderAccepted order.id order.marketId order.userId
  match db.markets.get? order.marketId with
  | none => throw .attribute
  | some row => return (order, MarketState.ofRow order.marketId row, db)

def Order.syncFrozenAmount (o : Order) (remainingQty : Int) : Order :=
  { o with
    frozenAmount :=
      if o.frozenAssetType = .funds then
        freezeAmount ((if o.bookType = .nativeBuy then o.bookPrice else o.originalPrice) *
          remainingQty)
      else remainingQty }

/-- A resting order after a fill of `qty`. -/
def Order.filledBy (maker : Order) (qty : Int) : Order :=
  let filled := maker.filledQuantity + qty
  let remaining := maker.remainingQuantity - qty
  let maker := if remaining ≤ 0 then
      { maker with filledQuantity := filled, remainingQuantity := 0, status := .filled }
    else
      { maker with
        filledQuantity := filled
        remainingQuantity := remaining
        status := .partiallyFilled }
  maker.syncFrozenAmount maker.remainingQuantity

/-- Persist the fill of the resting order, if there is a row of it. -/
def updateMakerStatus (trade : TradeResult) (db : Db) : Except Err Db :=
  match db.getById trade.makerOrderId with
  | none => pure db
  | some maker => db.updateStatus (maker.filledBy trade.quantity)

/-- One fill of the loop: settle, persist both orders, collect the fee, write the
trade and net the buyer. -/
def clearFill (order : Order) (trade : TradeResult) (market : MarketState) (db : Db) :
    Except Err (Int × MarketState × Db) := do
  let ((buyPnl, sellPnl), market, h) ← settleTrade trade market db.holdings
  let db := { db with holdings := h }
  let db ← db.updateStatus (order.syncFrozenAmount order.remainingQuantity)
  let db ← updateMakerStatus trade db
  let (fee, h) ← collectFee trade market.takerFeeBps db.holdings
  let db := { db with holdings := h }
  let scenario := determineScenario trade.buyBookType trade.sellBookType
  let db ← db.writeTrade ⟨trade, scenario, 0, fee, buyPnl, sellPnl⟩
  let (nq, market, h) ← executeNettingIfNeeded trade.buyUserId order.marketId market db.holdings
  let db := { db with holdings := h }
  return (nq, market, db.writeWalEvent .orderMatched order.id order.marketId order.userId)

/-- The loop over the fills; the second component adds up what was netted. -/
def clearFills (order : Order) : List TradeResult → Int → MarketState → Db →
    Except Err (Order × Int × MarketState × Db)
  | [], nettingQty, market, db => pure (order, nettingQty, market, db)
  | trade :: trades, nettingQty, market, db => do
    let (nq, market, db) ← clearFill order trade market db
    clearFills (order.syncFrozenAmount order.remainingQuantity) trades (nettingQty + nq) market db

def unfreezeRemainder (order : Order) (db : Db) : Except Err Db :=
  match order.frozenAssetType with
  | .funds => do
    let db ← db.onHoldings (fun h =>
      h.unfreezeDebit order.userId order.frozenAmount order.frozenAmount)
    return db.writeLedger order.userId .orderUnfreeze order.frozenAmount order.id
  | .yesShares => db.onHoldings (fun h =>
      h.addPending .yes order.userId order.marketId (-order.remainingQuantity))
  | .noShares => db.onHoldings (fun h =>
      h.addPending .no order.userId order.marketId (-order.remainingQuantity))

/-- The database side of `_finalize_order`. -/
def finalizeOrder (order : Order) (selfTradeSkipped : Nat) (db : Db) :
    Except Err (Order × Db) :=
  if 0 < order.remainingQuantity then
    match order.timeInForce with
    | .gtc =>
      if 0 < order.filledQuantity then
        pure (order, db.writeWalEvent .orderPartiallyFilled order.id order.marketId order.userId)
      else pure (order, db)
    | .ioc => do
      if order.filledQuantity = 0 ∧ 0 < selfTradeSkipped then
        throw (.app ⟨4003, "Self-trade prevented all fills for IOC order", 400⟩)
      let db ← unfreezeRemainder order db
      let order := { order with status := .cancelled }
      let db ← db.updateStatus order
      return (order, db.writeWalEvent .orderExpired order.id order.marketId order.userId)
  else pure (order, db)

/-- The book side of `_finalize_order`: what is left of a GTC order rests. -/
def restRemainder (order : Order) (ob : OrderBook) : OrderBook :=
  if 0 < order.remainingQuantity ∧ order.timeInForce = .gtc then
    ob.addOrder ⟨order.id, order.userId, order.bookType, order.remainingQuantity, order.createdAt⟩
      order.bookPrice order.bookDirection
  else ob

/-- What a placement returns. -/
structure Placed where
  order : Order
  trades : List TradeResult
  nettingQty : Int

/-- Everything after matching. The skipped self-trades are a constant zero in the
source. -/
def clearAndFlush (matched : Matched) (market : MarketState) (db : Db) :
    Except Err (Placed × Db) := do
  let (order, nettingQty, market, db) ← clearFills matched.incoming matched.trades 0 market db
  let (order, db) ← finalizeOrder order 0 db
  if matched.trades ≠ [] then verifyInvariantsAfterTrade market db.holdings
  let db ← db.flushMarket market
  return (⟨order, matched.trades, nettingQty⟩, db)

/-- `_place_order_inner`: the outcome, and the book as it is left in memory. -/
def placeOrderInner (draft : OrderDraft) (ob : OrderBook) (db : Db) :
    Except Err (Placed × Db) × OrderBook :=
  match acceptOrder draft db with
  | .error e => (.error e, ob)
  | .ok (order, market, db) =>
    let matched := matchOrder order ob
    (clearAndFlush matched market db, restRemainder matched.incoming matched.book)

end PredictionMarket
