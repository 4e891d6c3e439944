/- PredictionMarket/Engine/Inversion
   digest: A successful placement, read back as the statements it ran. -/

import PredictionMarket.Engine.PlaceOrder

set_option autoImplicit false
set_option relaxedAutoImplicit false

namespace PredictionMarket

open Library

def BookType.frozenAsset : BookType → FrozenAssetType
  | .nativeBuy | .syntheticSell => .funds
  | .nativeSell => .yesShares
  | .syntheticBuy => .noShares

@[simp] theorem BookType.frozenAsset_eq_funds {b : BookType} :
    b.frozenAsset = .funds ↔ b.paysCash = true := by
  cases b <;> simp [frozenAsset, paysCash]

/-- What an order has frozen for `qty` shares of it. -/
def BookType.frozenFor (b : BookType) (originalPrice qty : Int) : Int :=
  if b.paysCash then freezeAmount (originalPrice * qty) else qty

def Frozen (order : Order) (h h' : Holdings) : Prop :=
  if order.bookType.paysCash then
    ∃ a, h.accounts.get? order.userId = some a ∧ order.frozenAmount ≤ a.availableBalance ∧
      h.unfreezeDebit order.userId (-order.frozenAmount) (-order.frozenAmount) = .ok h'
  else h'.accounts = h.accounts

private theorem frozen_of_funds {order order' : Order} {amount : Int} {db db' : Db}
    (cash : order.bookType.paysCash = true)
    (done : freezeFunds order amount db = .ok (order', db')) :
    order' = { order with frozenAmount := amount, frozenAssetType := .funds } ∧
      ∃ h ledger, Frozen order' db.holdings h ∧
        db' = { db with holdings := h, ledger := ledger } := by
  unfold freezeFunds at done
  split at done
  · cases done
  · next a got =>
    simp only at done
    split at done
    · cases done
    · next enough =>
      simp only [bind_eq_ok, pure_eq_ok, Prod.mk.injEq] at done
      obtain ⟨db₁, ran, rfl, rfl⟩ := done
      obtain ⟨h, moved, rfl⟩ := Db.onHoldings_ok ran
      refine ⟨rfl, h, _, ?_, rfl⟩
      simp only [Frozen, cash, if_true]
      exact ⟨a, got, not_lt.mp enough, moved⟩

private theorem frozen_of_shares {order order' : Order} {db db' : Db} {side : OriginalSide}
    {asset : FrozenAssetType} {missing : String}
    (shares : order.bookType.paysCash = false)
    (done : freezeShares order side asset missing db = .ok (order', db')) :
    order' = { order with frozenAmount := order.quantity, frozenAssetType := asset } ∧
      ∃ h ledger, Frozen order' db.holdings h ∧
        db' = { db with holdings := h, ledger := ledger } := by
  unfold freezeShares at done
  split at done
  · cases done
  · split at done
    · cases done
    · simp only [bind_eq_ok, pure_eq_ok, Prod.mk.injEq] at done
      obtain ⟨db₁, ran, rfl, rfl⟩ := done
      obtain ⟨h, moved, rfl⟩ := Db.onHoldings_ok ran
      exact ⟨rfl, h, db.ledger, by simpa [Frozen, shares] using (Holdings.updatePosition_ok moved).1,
        rfl⟩

theorem checkAndFreeze_ok {order order' : Order} {db db' : Db}
    (done : checkAndFreeze order db = .ok (order', db')) :
    order' = { order with
      frozenAmount := order.bookType.frozenFor order.originalPrice order.quantity
      frozenAssetType := order.bookType.frozenAsset } ∧
    ∃ h ledger, Frozen order' db.holdings h ∧ db' = { db with holdings := h, ledger := ledger } := by
  unfold checkAndFreeze at done
  split at done
  all_goals
    rename_i type
    have cash := congrArg BookType.paysCash type
    have asset := congrArg BookType.frozenAsset type
    rw [asset, BookType.frozenFor, cash]
  · exact frozen_of_funds cash done
  · exact frozen_of_funds cash done
  · exact frozen_of_shares cash done
  · exact frozen_of_shares cash done

def OrderDraft.accepted (draft : OrderDraft) : Order :=
  { draft.toOrder with
    frozenAmount :=
      draft.toOrder.bookType.frozenFor draft.originalPrice draft.quantity
    frozenAssetType := draft.toOrder.bookType.frozenAsset }

structure Accepted (draft : OrderDraft) (db : Db) (order : Order) (market : MarketState)
    (db' : Db) : Prop where
  order_eq : order = draft.accepted
  active : ∃ row, db.markets.get? draft.marketId = some row ∧ row.status = .active ∧
    market = MarketState.ofRow draft.marketId row
  price : 1 ≤ draft.originalPrice ∧ draft.originalPrice ≤ 99
  quantity : 1 ≤ draft.quantity ∧ draft.quantity ≤ MAX_ORDER_QUANTITY
  frozen : Frozen order db.holdings db'.holdings
  inserted : db.orders.insert? draft.id (Db.insertedRow order draft.insertedAt) = some db'.orders
  markets : db'.markets = db.markets

theorem OrderDraft.toOrder_fields (draft : OrderDraft) :
    draft.toOrder.id = draft.id ∧ draft.toOrder.marketId = draft.marketId ∧
      draft.toOrder.userId = draft.userId ∧ draft.toOrder.originalPrice = draft.originalPrice ∧
      draft.toOrder.quantity = draft.quantity := by
  simp [OrderDraft.toOrder]

theorem acceptOrder_saved {draft : OrderDraft} {db db' : Db} {order : Order}
    {market : MarketState} (done : acceptOrder draft db = .ok (order, market, db')) :
    ∃ db₁ db₂, checkAndFreeze draft.toOrder db = .ok (order, db₁) ∧
      db₁.save order draft.insertedAt = .ok db₂ ∧
      db' = db₂.writeWalEvent .orderAccepted order.id order.marketId order.userId := by
  simp only [acceptOrder, bind_eq_ok] at done
  obtain ⟨_, _, _, _, _, _, ⟨o, db₁⟩, frozen, db₂, saved, done⟩ := done
  split at done
  · cases done
  · simp only [pure_eq_ok, Prod.mk.injEq] at done
    obtain ⟨rfl, _, rfl⟩ := done
    exact ⟨db₁, db₂, frozen, saved, rfl⟩

theorem acceptOrder_ok {draft : OrderDraft} {db db' : Db} {order : Order} {market : MarketState}
    (done : acceptOrder draft db = .ok (order, market, db')) :
    Accepted draft db order market db' := by
  simp only [acceptOrder, bind_eq_ok] at done
  obtain ⟨_, active, _, price, _, quantity, ⟨o, db₁⟩, frozen, db₂, saved, done⟩ := done
  obtain ⟨rfl, h, ledger, froze, rfl⟩ := checkAndFreeze_ok frozen
  obtain ⟨orders, inserted, rfl⟩ := Db.save_ok saved
  have checked : ∃ row, db.markets.get? draft.marketId = some row ∧ row.status = .active := by
    unfold checkMarketActive at active
    split at active
    · cases active
    · next row got =>
      split at active
      · next open_ => exact ⟨row, got, open_⟩
      · cases active
  obtain ⟨row, got, open_⟩ := checked
  obtain ⟨sameId, sameMarket, sameUser, samePrice, sameQuantity⟩ := draft.toOrder_fields
  simp only [Db.writeWalEvent, sameMarket, got, pure_eq_ok, Prod.mk.injEq] at done
  obtain ⟨rfl, rfl, rfl⟩ := done
  have whole : { draft.toOrder with
      frozenAmount := draft.toOrder.bookType.frozenFor draft.toOrder.originalPrice
        draft.toOrder.quantity
      frozenAssetType := draft.toOrder.bookType.frozenAsset } = draft.accepted := by
    simp only [OrderDraft.accepted, samePrice, sameQuantity]
  exact {
    order_eq := whole
    active := ⟨row, got, open_, rfl⟩
    price := by
      unfold checkPriceRange at price
      split at price
      · next range => exact range
      · cases price
    quantity := by
      unfold checkOrderLimit at quantity
      split at quantity
      · next range => exact range
      · cases quantity
    frozen := froze
    inserted := by rw [← sameId]; exact inserted
    markets := rfl }

/-- What `_update_maker_status` writes over the maker's row. -/
def OrderRow.filled (r : OrderRow) (qty : Int) : OrderRow :=
  r.progress ((rowToOrder 0 r).filledBy qty)

private theorem OrderRow.progress_filledBy (r : OrderRow) (id : OrderId) (qty : Int) :
    r.progress ((rowToOrder id r).filledBy qty) = r.filled qty := by
  unfold OrderRow.filled Order.filledBy
  by_cases used : r.quantity - r.filledQuantity - qty ≤ 0
  · simp [rowToOrder, used, Order.syncFrozenAmount, OrderRow.progress]
  · simp [rowToOrder, used, Order.syncFrozenAmount, OrderRow.progress]

private theorem Order.filledBy_id (maker : Order) (qty : Int) :
    (maker.filledBy qty).id = maker.id := by
  simp only [Order.filledBy, Order.syncFrozenAmount]
  split <;> rfl

theorem updateMakerStatus_ok {trade : TradeResult} {db db' : Db}
    (done : updateMakerStatus trade db = .ok db') :
    ∃ orders, db.orders.update? trade.makerOrderId (fun r => r.filled trade.quantity) =
      some orders ∧ db' = { db with orders := orders } := by
  unfold updateMakerStatus Db.getById at done
  cases got : db.orders.get? trade.makerOrderId with
  | none =>
    simp only [got, Option.map_none, pure_eq_ok] at done
    exact ⟨db.orders, by simp [Table.update?, got], done.symm⟩
  | some r =>
    simp only [got, Option.map_some] at done
    obtain ⟨orders, updated, rfl⟩ := Db.updateStatus_ok done
    refine ⟨orders, ?_, rfl⟩
    have key : ((rowToOrder trade.makerOrderId r).filledBy trade.quantity).id =
        trade.makerOrderId := Order.filledBy_id _ _
    rw [key] at updated
    simpa only [Table.update?, got, OrderRow.progress_filledBy] using updated

structure FillRun (order : Order) (trade : TradeResult) (market : MarketState) (db : Db)
    (market' : MarketState) (db' : Db) : Prop where
  settled : ∃ pnl market₁ h₁ fee h₂ nq,
    settleTrade trade market db.holdings = .ok (pnl, market₁, h₁) ∧
    collectFee trade market₁.takerFeeBps h₁ = .ok (fee, h₂) ∧
    executeNettingIfNeeded trade.buyUserId order.marketId market₁ h₂ =
      .ok (nq, market', db'.holdings) ∧
    TradeRow.Check ⟨trade, determineScenario trade.buyBookType trade.sellBookType, 0, fee, pnl.1,
      pnl.2⟩
  orders : ∃ orders₁,
    db.orders.update? order.id
      (fun r => r.progress (order.syncFrozenAmount order.remainingQuantity)) = some orders₁ ∧
    orders₁.update? trade.makerOrderId (fun r => r.filled trade.quantity) = some db'.orders
  markets : db'.markets = db.markets

theorem clearFill_ok {order : Order} {trade : TradeResult} {market market' : MarketState}
    {db db' : Db} {nq : Int} (done : clearFill order trade market db = .ok (nq, market', db')) :
    FillRun order trade market db market' db' := by
  simp only [clearFill, bind_eq_ok, pure_eq_ok, Prod.mk.injEq] at done
  obtain ⟨⟨⟨buyPnl, sellPnl⟩, market₁, h₁⟩, settled, db₁, taker, db₂, maker, ⟨fee, h₂⟩, charged, db₃,
    written, ⟨nq', market₂, h₃⟩, netted, rfl, rfl, rfl⟩ := done
  obtain ⟨orders₁, updated₁, rfl⟩ := Db.updateStatus_ok taker
  obtain ⟨orders₂, updated₂, rfl⟩ := updateMakerStatus_ok maker
  obtain ⟨row, rfl⟩ := Db.writeTrade_ok written
  exact ⟨⟨_, _, _, _, _, _, settled, charged, netted, row⟩, ⟨orders₁, updated₁, updated₂⟩, rfl⟩

theorem clearFills_cons_ok {order order' : Order} {trade : TradeResult} {trades : List TradeResult}
    {n n' : Int} {market market' : MarketState} {db db' : Db}
    (done : clearFills order (trade :: trades) n market db = .ok (order', n', market', db')) :
    ∃ nq market₁ db₁, clearFill order trade market db = .ok (nq, market₁, db₁) ∧
      clearFills (order.syncFrozenAmount order.remainingQuantity) trades (n + nq) market₁ db₁ =
        .ok (order', n', market', db') := by
  simp only [clearFills, bind_eq_ok] at done
  obtain ⟨⟨nq, market₁, db₁⟩, first, rest⟩ := done
  exact ⟨nq, market₁, db₁, first, rest⟩

/-- What every fill does to the tables, in the sense of a transitive relation, the fills of
a placement do together. -/
theorem clearFills_rel {R : Db → Db → Prop} (refl : ∀ db, R db db)
    (trans : ∀ {a b c : Db}, R a b → R b c → R a c)
    (step : ∀ {order : Order} {trade : TradeResult} {market market' : MarketState} {nq : Int}
      {db db' : Db}, clearFill order trade market db = .ok (nq, market', db') → R db db')
    {ts : List TradeResult} {order order' : Order} {n n' : Int} {market market' : MarketState}
    {db db' : Db} (done : clearFills order ts n market db = .ok (order', n', market', db')) :
    R db db' := by
  induction ts generalizing order n market db with
  | nil =>
    simp only [clearFills, pure_eq_ok, Prod.mk.injEq] at done
    rw [done.2.2.2]
    exact refl db'
  | cons t ts ih =>
    obtain ⟨nq, market₁, db₁, first, rest⟩ := clearFills_cons_ok done
    exact trans (step first) (ih rest)

def Released (order : Order) (h h' : Holdings) : Prop :=
  if order.frozenAssetType = .funds then
    h.unfreezeDebit order.userId order.frozenAmount order.frozenAmount = .ok h'
  else h'.accounts = h.accounts

theorem unfreezeRemainder_ok {order : Order} {db db' : Db}
    (done : unfreezeRemainder order db = .ok db') :
    ∃ h ledger, Released order db.holdings h ∧ db' = { db with holdings := h, ledger := ledger } := by
  unfold unfreezeRemainder at done
  split at done
  all_goals rename_i asset
  · simp only [bind_eq_ok, pure_eq_ok] at done
    obtain ⟨db₁, ran, rfl⟩ := done
    obtain ⟨h, moved, rfl⟩ := Db.onHoldings_ok ran
    exact ⟨h, _, by simpa [Released, asset] using moved, rfl⟩
  · obtain ⟨h, moved, rfl⟩ := Db.onHoldings_ok done
    exact ⟨h, db.ledger, by simpa [Released, asset] using (Holdings.updatePosition_ok moved).1, rfl⟩
  · obtain ⟨h, moved, rfl⟩ := Db.onHoldings_ok done
    exact ⟨h, db.ledger, by simpa [Released, asset] using (Holdings.updatePosition_ok moved).1, rfl⟩

inductive FinalizeRun (order : Order) (db : Db) : Order → Db → Prop
  | partly (left : 0 < order.remainingQuantity) (gtc : order.timeInForce = .gtc) :
      FinalizeRun order db order
        (db.writeWalEvent .orderPartiallyFilled order.id order.marketId order.userId)
  | idle (still : ¬ (0 < order.remainingQuantity ∧ order.timeInForce = .ioc)) :
      FinalizeRun order db order db
  | expired {db₁ db₂ : Db} (left : 0 < order.remainingQuantity) (ioc : order.timeInForce = .ioc)
      (released : unfreezeRemainder order db = .ok db₁)
      (updated : db₁.updateStatus { order with status := .cancelled } = .ok db₂) :
      FinalizeRun order db { order with status := .cancelled }
        (db₂.writeWalEvent .orderExpired order.id order.marketId order.userId)

theorem finalizeOrder_run {order order' : Order} {db db' : Db}
    (done : finalizeOrder order 0 db = .ok (order', db')) : FinalizeRun order db order' db' := by
  unfold finalizeOrder at done
  split at done
  · next left =>
    split at done
    · next gtc =>
      split at done
      · obtain ⟨rfl, rfl⟩ := Prod.mk.inj (pure_eq_ok.mp done)
        exact .partly left gtc
      · obtain ⟨rfl, rfl⟩ := Prod.mk.inj (pure_eq_ok.mp done)
        exact .idle (by simp [gtc])
    · next ioc =>
      simp only [lt_irrefl, and_false, if_false, bind_eq_ok, pure_eq_ok, Prod.mk.injEq] at done
      obtain ⟨db₁, released, db₂, updated, rfl, rfl⟩ := done
      exact .expired left ioc released updated
  · next used =>
    obtain ⟨rfl, rfl⟩ := Prod.mk.inj (pure_eq_ok.mp done)
    exact .idle (fun left => used left.1)

def Finalized (order : Order) (db : Db) (order' : Order) (db' : Db) : Prop :=
  db'.markets = db.markets ∧
  if 0 < order.remainingQuantity ∧ order.timeInForce = .ioc then
    order' = { order with status := .cancelled } ∧ Released order db.holdings db'.holdings ∧
      db.orders.update? order.id (fun r => r.progress { order with status := .cancelled }) =
        some db'.orders
  else order' = order ∧ db'.holdings = db.holdings ∧ db'.orders = db.orders

theorem finalizeOrder_ok {order order' : Order} {db db' : Db}
    (done : finalizeOrder order 0 db = .ok (order', db')) : Finalized order db order' db' := by
  unfold Finalized
  cases finalizeOrder_run done with
  | partly left gtc => simp [gtc, Db.writeWalEvent]
  | idle still => simp [still]
  | expired left ioc released updated =>
    obtain ⟨h, ledger, gave, rfl⟩ := unfreezeRemainder_ok released
    obtain ⟨orders, marked, rfl⟩ := Db.updateStatus_ok updated
    simp only [left, ioc, and_self, if_true, Db.writeWalEvent, true_and]
    exact ⟨gave, marked⟩

structure PlaceRun (draft : OrderDraft) (ob : OrderBook) (db : Db) (ob' : OrderBook) (db' : Db) :
    Prop where
  phases : ∃ market db₁ order n market₁ db₂ order' db₃,
    Accepted draft db draft.accepted market db₁ ∧
    clearFills (matchOrder draft.accepted ob).incoming (matchOrder draft.accepted ob).trades 0
      market db₁ = .ok (order, n, market₁, db₂) ∧
    Finalized order db₂ order' db₃ ∧
    db'.holdings = db₃.holdings ∧ db'.orders = db₃.orders ∧
    db₃.flushMarket market₁ = .ok db'
  book : ob' = restRemainder (matchOrder draft.accepted ob).incoming
    (matchOrder draft.accepted ob).book

theorem placeOrderInner_phases {draft : OrderDraft} {ob ob' : OrderBook} {db db' : Db}
    {placed : Placed} (done : placeOrderInner draft ob db = (.ok (placed, db'), ob')) :
    (∃ market db₁ order n market₁ db₂ order' db₃,
      acceptOrder draft db = .ok (draft.accepted, market, db₁) ∧
      clearFills (matchOrder draft.accepted ob).incoming (matchOrder draft.accepted ob).trades 0
        market db₁ = .ok (order, n, market₁, db₂) ∧
      finalizeOrder order 0 db₂ = .ok (order', db₃) ∧
      db₃.flushMarket market₁ = .ok db' ∧
      placed = ⟨order', (matchOrder draft.accepted ob).trades, n⟩) ∧
    ob' = restRemainder (matchOrder draft.accepted ob).incoming
      (matchOrder draft.accepted ob).book := by
  unfold placeOrderInner at done
  split at done
  · cases done
  · next order market db₁ accepted =>
    obtain rfl := (acceptOrder_ok accepted).order_eq
    simp only [Prod.mk.injEq] at done
    obtain ⟨cleared, rfl⟩ := done
    refine ⟨?_, rfl⟩
    simp only [clearAndFlush, bind_eq_ok] at cleared
    obtain ⟨⟨order, n, market₁, db₂⟩, fills, ⟨order', db₃⟩, finalized, cleared⟩ := cleared
    refine ⟨market, db₁, order, n, market₁, db₂, order', db₃, accepted, fills, finalized, ?_⟩
    split at cleared
    all_goals
      simp only [bind_eq_ok, pure_eq_ok, Prod.mk.injEq] at cleared
    · obtain ⟨_, _, _, flushed, same, rfl⟩ := cleared
      exact ⟨flushed, same.symm⟩
    · obtain ⟨_, flushed, same, rfl⟩ := cleared
      exact ⟨flushed, same.symm⟩

theorem placeOrderInner_ok {draft : OrderDraft} {ob ob' : OrderBook} {db db' : Db}
    {placed : Placed} (done : placeOrderInner draft ob db = (.ok (placed, db'), ob')) :
    PlaceRun draft ob db ob' db' := by
  obtain ⟨⟨market, db₁, order, n, market₁, db₂, order', db₃, accepted, fills, finalized, flushed,
    _⟩, book⟩ := placeOrderInner_phases done
  have same := Db.flushMarket_ok flushed
  obtain ⟨markets, _, rfl⟩ := same
  exact ⟨⟨market, db₁, order, n, market₁, db₂, order', db₃, acceptOrder_ok accepted, fills,
    finalizeOrder_ok finalized, rfl, rfl, flushed⟩, book⟩

end PredictionMarket
