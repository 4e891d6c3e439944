/- PredictionMarket/Engine/RestingView
   digest: The orders table seen as resting orders, and what a placement does to that view. -/

import PredictionMarket.Engine.FillRun
import PredictionMarket.Engine.MatchingEngine

set_option autoImplicit false
set_option relaxedAutoImplicit false

namespace PredictionMarket

open Library

def OrderRow.resting (r : OrderRow) : Resting :=
  ⟨r.userId, r.bookType, r.bookDirection, r.bookPrice, r.remainingQuantity⟩

@[simp] theorem OrderRow.resting_quantity (r : OrderRow) :
    r.resting.quantity = r.remainingQuantity := rfl

def OrderRow.restsIn (marketId : MarketId) (r : OrderRow) : Option Resting :=
  if r.marketId = marketId ∧ r.isActive = true then some r.resting else none

/-- The active orders of a market, as the abstract book. -/
def Db.resting (db : Db) (marketId : MarketId) : RestingOrders := fun id =>
  (db.orders.get? id).bind (OrderRow.restsIn marketId)

theorem OrderRow.restsIn_eq_some {r : OrderRow} {m : MarketId} {x : Resting} :
    r.restsIn m = some x ↔ r.marketId = m ∧ r.isActive = true ∧ r.resting = x := by
  unfold restsIn
  split
  · next here => simp [here]
  · next gone => simpa using fun same active => absurd ⟨same, active⟩ gone

theorem OrderRow.restsIn_of_ne {r : OrderRow} {m : MarketId} (other : r.marketId ≠ m) :
    r.restsIn m = none := if_neg (fun here => other here.1)

theorem OrderRow.restsIn_of_inactive {r : OrderRow} {m : MarketId} (ended : r.isActive = false) :
    r.restsIn m = none := if_neg (fun here => by simp [ended] at here)

theorem Db.resting_eq_some {db : Db} {m : MarketId} {id : OrderId} {x : Resting} :
    db.resting m id = some x ↔
      ∃ r, db.orders.get? id = some r ∧ r.marketId = m ∧ r.isActive = true ∧ r.resting = x := by
  simp only [resting, Option.bind_eq_some_iff, OrderRow.restsIn_eq_some]

theorem Db.resting_congr {db db' : Db} {m : MarketId} {id : OrderId}
    (same : db'.orders.get? id = db.orders.get? id) : db'.resting m id = db.resting m id := by
  simp only [resting, same]

private theorem OrderRow.restsIn_filled {r : OrderRow} (ok : r.Check) {m : MarketId} {qty : Int}
    (active : r.isActive = true) (enough : qty ≤ r.remainingQuantity) :
    (r.filled qty).restsIn m = (r.restsIn m).bind (fun x =>
      if x.quantity - qty = 0 then none else some { x with quantity := x.quantity - qty }) := by
  have remaining := ok.quantity_sub_filled
  by_cases here : r.marketId = m
  · have before : r.restsIn m = some r.resting := if_pos ⟨here, active⟩
    rw [before, Option.bind_some, resting_quantity]
    by_cases used : r.remainingQuantity - qty = 0
    · have ended : (r.filled qty).isActive = false := by
        simp [filled, Order.filledBy, rowToOrder, remaining, used, Order.syncFrozenAmount,
          progress, isActive, OrderStatus.isActive]
      rw [restsIn_of_inactive ended, if_pos used]
    · have left : ¬ r.remainingQuantity - qty ≤ 0 := by omega
      have after : (r.filled qty).restsIn m = some (r.filled qty).resting := by
        apply if_pos
        simp [filled, Order.filledBy, rowToOrder, remaining, left, Order.syncFrozenAmount,
          progress, isActive, OrderStatus.isActive, here]
      rw [after, if_neg used]
      simp [filled, Order.filledBy, rowToOrder, remaining, left, Order.syncFrozenAmount, progress,
        resting]
  · rw [restsIn_of_ne here, Option.bind_none]
    exact restsIn_of_ne here

@[simp] theorem tradeOf_makerOrderId (o : Order) (id : OrderId) (r : Resting) (qty : Int) :
    (tradeOf o id r qty).makerOrderId = id := by
  unfold tradeOf
  cases r.direction <;> rfl

section Fill

variable {order : Order} {s s' : FillState} {id : OrderId} {r : Resting}

theorem FillStep.get?_orders (step : FillStep order s id r s') (other : id ≠ order.id)
    (j : OrderId) : s'.db.orders.get? j =
      if j = id then (s.db.orders.get? id).map (fun row => row.filled (s.take r))
      else if j = order.id then
        (s.db.orders.get? order.id).map (fun row => row.progress order.synced)
      else s.db.orders.get? j := by
  obtain ⟨orders, taker, maker⟩ := step.run.orders
  rw [tradeOf_makerOrderId] at maker
  rw [Table.get?_update? maker, Table.get?_update? taker, Table.get?_update? taker, if_neg other]
  have quantity : (tradeOf order id r (s.take r)).quantity = s.take r := by
    unfold tradeOf
    cases r.direction <;> rfl
  rw [quantity]
  rfl

theorem FillState.take_le (s : FillState) (r : Resting) : s.take r ≤ r.quantity :=
  min_le_right _ _

end Fill

/-- During the fills of `order`: the table without its row shows the abstract
book of its market, and every other market is as it was at `start`. -/
structure Mirrors (order : Order) (start : Db) (s : FillState) : Prop where
  absent : s.book order.id = none
  same : ∀ j, j ≠ order.id → s.db.resting order.marketId j = s.book j
  others : ∀ m, m ≠ order.marketId → ∀ j, j ≠ order.id → s.db.resting m j = start.resting m j

theorem Mirrors.step {order : Order} {start : Db} {s s' : FillState} {t : TradeResult}
    (step : fillSteps order s t s') (mirrors : Mirrors order start s) :
    Mirrors order start s' := by
  obtain ⟨id, r, step, _⟩ := step
  have other : id ≠ order.id := by
    rintro rfl
    exact absurd (step.here.symm.trans mirrors.absent) (by simp)
  have rows := step.get?_orders other
  obtain ⟨row, got, market, active, rfl⟩ :=
    Db.resting_eq_some.mp ((mirrors.same id other).trans step.here)
  have filled : ∀ m, s'.db.resting m id = (s.db.resting m id).bind (fun x =>
      if x.quantity - s.take row.resting = 0 then none
      else some { x with quantity := x.quantity - s.take row.resting }) := by
    intro m
    simp only [Db.resting, rows, if_true, got, Option.map_some, Option.bind_some]
    exact OrderRow.restsIn_filled (Table.check got) active (s.take_le _)
  constructor
  · rw [step.book]
    simp [RestingOrders.fill, mirrors.absent, other.symm]
  · intro j taker
    rw [step.book]
    by_cases same : j = id
    · subst same
      rw [filled, mirrors.same j taker]
      simp [RestingOrders.fill]
    · have kept : s'.db.orders.get? j = s.db.orders.get? j := by simp [rows, same, taker]
      rw [Db.resting_congr kept, mirrors.same j taker]
      simp [RestingOrders.fill, same]
  · intro m away j taker
    by_cases same : j = id
    · subst same
      have gone : s.db.resting m j = none := by
        simp only [Db.resting, got, Option.bind_some]
        exact OrderRow.restsIn_of_ne (market ▸ away.symm)
      rw [filled, gone, ← mirrors.others m away j taker, gone, Option.bind_none]
    · have kept : s'.db.orders.get? j = s.db.orders.get? j := by simp [rows, same, taker]
      rw [Db.resting_congr kept, mirrors.others m away j taker]

theorem fills_takerRow {order : Order} {s s' : FillState} {ts : List TradeResult} {row : OrderRow}
    (run : Run (fillSteps order) s ts s') (absent : s.book order.id = none)
    (got : s.db.orders.get? order.id = some row) :
    s'.db.orders.get? order.id = some (if ts = [] then row else row.progress order.synced) := by
  induction run generalizing row with
  | nil s => exact got
  | @cons s t u a as head tail ih =>
    obtain ⟨id, r, step, _⟩ := head
    have other : order.id ≠ id := by
      rintro rfl
      exact absurd (step.here.symm.trans absent) (by simp)
    have next : t.db.orders.get? order.id = some (row.progress order.synced) := by
      simp [step.get?_orders other.symm, other, got]
    have still : t.book order.id = none := by
      rw [step.book]
      simp [RestingOrders.fill, other, absent]
    rw [ih still next, if_neg (List.cons_ne_nil _ _)]
    split <;> rfl

theorem OrderDraft.accepted_fields (draft : OrderDraft) :
    draft.accepted.id = draft.id ∧ draft.accepted.marketId = draft.marketId ∧
      draft.accepted.userId = draft.userId ∧
      draft.accepted.remainingQuantity = draft.quantity ∧ draft.accepted.filledQuantity = 0 ∧
      draft.accepted.quantity = draft.quantity ∧
      draft.accepted.timeInForce = draft.timeInForce ∧ draft.accepted.status = .open := by
  simp [OrderDraft.accepted, OrderDraft.toOrder]

theorem OrderDraft.accepted_bookPrice {draft : OrderDraft}
    (price : 1 ≤ draft.originalPrice ∧ draft.originalPrice ≤ 99) :
    1 ≤ draft.accepted.bookPrice ∧ draft.accepted.bookPrice ≤ 99 := by
  simp only [OrderDraft.accepted, OrderDraft.toOrder]
  cases draft.originalSide <;> cases draft.originalDirection <;> simp only [transformOrder] <;> omega

theorem Fills.sameOrder {o p : Order} {u v : RestingOrders} {ts : List TradeResult}
    (run : Fills o u ts p v) : o.SameOrder p := by
  rw [run.incoming]
  exact ⟨rfl, rfl, rfl, rfl, rfl, rfl, rfl⟩

theorem Accepted.get?_orders {draft : OrderDraft} {db db' : Db} {order : Order}
    {market : MarketState} (accepted : Accepted draft db order market db') :
    db.orders.get? draft.id = none ∧ ∀ j, db'.orders.get? j =
      if j = draft.id then some (Db.insertedRow order draft.insertedAt)
      else db.orders.get? j := by
  obtain ⟨fresh, ok, added⟩ := Table.insert?_eq_some accepted.inserted
  exact ⟨fresh, fun j => by rw [added, Table.get?_add]⟩

theorem Accepted.mirrors {draft : OrderDraft} {db db' : Db} {o order : Order}
    {market : MarketState} (accepted : Accepted draft db order market db') (wanted : Int)
    (id : o.id = draft.id) (home : o.marketId = draft.marketId) :
    Mirrors o db ⟨wanted, db.resting draft.marketId, market, db'⟩ := by
  obtain ⟨fresh, rows⟩ := accepted.get?_orders
  have views : ∀ m j, j ≠ o.id → db'.resting m j = db.resting m j := fun m j other =>
    Db.resting_congr (by rw [rows, if_neg (id ▸ other)])
  exact ⟨by simp [Db.resting, id, fresh], fun j other => by rw [home]; exact views _ j other,
    fun m _ j other => views m j other⟩

private theorem Finalized.get?_orders {order order' : Order} {db db' : Db} {row : OrderRow}
    {m : MarketId}
    {x : Resting} (final : Finalized order db order' db')
    (got : db.orders.get? order.id = some row)
    (view : row.restsIn m = if 0 < order.remainingQuantity then some x else none) :
    (∀ j, j ≠ order.id → db'.orders.get? j = db.orders.get? j) ∧
      ∃ row', db'.orders.get? order.id = some row' ∧ row'.marketId = row.marketId ∧
        row'.restsIn m = if 0 < order.remainingQuantity ∧ order.timeInForce = .gtc then some x
          else none := by
  obtain ⟨_, final⟩ := final
  split at final
  · next ioc =>
    have rows := Table.get?_update? final.2.2
    refine ⟨fun j other => by rw [rows, if_neg other],
      row.progress { order with status := .cancelled }, by rw [rows, if_pos rfl, got]; rfl, rfl, ?_⟩
    rw [if_neg (by simp [ioc.2])]
    apply OrderRow.restsIn_of_inactive
    simp [OrderRow.isActive, OrderRow.progress, OrderStatus.isActive]
  · next rests =>
    refine ⟨fun j _ => by rw [final.2.2], row, by rw [final.2.2]; exact got, rfl, ?_⟩
    rw [view]
    cases force : order.timeInForce with
    | gtc => simp
    | ioc =>
      have used : ¬ 0 < order.remainingQuantity := fun left => rests ⟨left, force⟩
      simp [used]

namespace PlaceRun

variable {draft : OrderDraft} {ob ob' : OrderBook} {db db' : Db} {v : RestingOrders}

def leftOver (order : Order) : Option Resting :=
  if 0 < order.remainingQuantity ∧ order.timeInForce = .gtc then
    some ⟨order.userId, order.bookType, order.bookDirection, order.bookPrice,
      order.remainingQuantity⟩
  else none

theorem restsIn_afterFills {ts : List TradeResult} {v' : RestingOrders} {o : Order}
    (fills : Fills draft.accepted v ts o v') (positive : 1 ≤ draft.quantity) :
    (if ts = [] then Db.insertedRow draft.accepted draft.insertedAt
      else (Db.insertedRow draft.accepted draft.insertedAt).progress o.synced).restsIn
        draft.marketId =
      if 0 < o.remainingQuantity then some ⟨o.userId, o.bookType, o.bookDirection, o.bookPrice,
        o.remainingQuantity⟩ else none := by
  obtain ⟨nonneg, _, idle, marked⟩ := fills.progress
  obtain ⟨_, market, _, wants, _, quantity, _, status⟩ := draft.accepted_fields
  rw [wants] at nonneg
  by_cases none : ts = []
  · obtain ⟨rfl, _⟩ := idle none
    have resting : (Db.insertedRow draft.accepted draft.insertedAt).restsIn draft.marketId =
        some (Db.insertedRow draft.accepted draft.insertedAt).resting :=
      if_pos ⟨market, by rw [OrderRow.isActive, Db.insertedRow, status]; rfl⟩
    rw [if_pos none, resting, if_pos (by omega), wants, ← quantity]
    rfl
  · have same := fills.sameOrder
    have status' := marked none
    rw [if_neg none]
    by_cases left : 0 < o.remainingQuantity
    · have active : ((Db.insertedRow draft.accepted draft.insertedAt).progress o.synced).isActive =
          true := by
        have open_ : o.status = .partiallyFilled := by rw [status', if_neg (by omega)]
        simp [OrderRow.isActive, OrderRow.progress, Order.synced, Order.syncFrozenAmount, open_,
          OrderStatus.isActive]
      rw [if_pos left, OrderRow.restsIn, if_pos ⟨market, active⟩, ← same.userId, ← same.bookType,
        ← same.bookDirection, ← same.bookPrice]
      rfl
    · rw [if_neg left]
      apply OrderRow.restsIn_of_inactive
      have used : o.status = .filled := by rw [status', if_pos (by omega)]
      simp [OrderRow.isActive, OrderRow.progress, Order.synced, Order.syncFrozenAmount, used,
        OrderStatus.isActive]

private theorem resting (run : PlaceRun draft ob db ob' db') {o : Order} {v' : RestingOrders}
    (fills : Fills draft.accepted (db.resting draft.marketId) (matchOrder draft.accepted ob).trades
      (matchOrder draft.accepted ob).incoming v')
    (incoming : (matchOrder draft.accepted ob).incoming = o) :
    v' draft.id = none ∧
      db'.resting draft.marketId = Function.update v' draft.id (leftOver o) ∧
      ∀ m, m ≠ draft.marketId → db'.resting m = db.resting m := by
  obtain ⟨⟨market, db₁, order, n, market₁, db₂, order', db₃, accepted, cleared, final, _, orders,
    _⟩, _⟩ := run
  rw [incoming] at fills cleared
  generalize (matchOrder draft.accepted ob).trades = ts at fills cleared
  have same := fills.sameOrder
  have oid : o.id = draft.id := same.id.symm.trans draft.accepted_fields.1
  have omarket : o.marketId = draft.marketId := same.marketId.symm.trans draft.accepted_fields.2.1
  obtain ⟨fresh, rows⟩ := accepted.get?_orders
  have steps := clearFills_run fills same cleared
  have order_eq := clearFills_order cleared
  have start := accepted.mirrors draft.accepted.remainingQuantity oid omarket
  have mirrors := steps.preserves (fun _ _ _ head => Mirrors.step head) start
  have taker := fills_takerRow steps start.absent (by rw [rows, oid, if_pos rfl])
  have synced : order.id = o.id ∧ order.remainingQuantity = o.remainingQuantity ∧
      order.timeInForce = o.timeInForce := by
    rw [order_eq]
    split <;> exact ⟨rfl, rfl, rfl⟩
  obtain ⟨others, row, got, home, view⟩ := final.get?_orders (by rw [synced.1]; exact taker)
    (m := draft.marketId) (by rw [synced.2.1]; exact restsIn_afterFills fills accepted.quantity.1)
  rw [synced.1, oid] at others got
  rw [synced.2.1, synced.2.2] at view
  rw [← orders] at others got
  refine ⟨oid ▸ mirrors.absent, ?_, fun m away => ?_⟩
  · funext j
    by_cases taken : j = draft.id
    · subst taken
      rw [Function.update_self, Db.resting, got, Option.bind_some, view]
      rfl
    · rw [Function.update_of_ne taken, Db.resting_congr (others j taken), ← omarket]
      exact mirrors.same j (oid ▸ taken)
  · funext j
    by_cases taken : j = draft.id
    · subst taken
      have inMarket : row.marketId = draft.marketId := by
        rw [home]
        split <;> exact draft.accepted_fields.2.1
      rw [Db.resting, got, Option.bind_some, OrderRow.restsIn_of_ne (inMarket ▸ away.symm)]
      simp [Db.resting, fresh]
    · rw [Db.resting_congr (others j taken)]
      exact mirrors.others m (omarket ▸ away) j (oid ▸ taken)

theorem restRemainder_represents {ob : OrderBook} {v : RestingOrders} {o : Order}
    (rep : ob.Represents v) (exact : ∀ d, ob.BestExact d) (absent : v o.id = none)
    (price : 1 ≤ o.bookPrice ∧ o.bookPrice ≤ 99) :
    (restRemainder o ob).Represents (Function.update v o.id (leftOver o)) ∧
      ∀ d, (restRemainder o ob).BestExact d := by
  unfold restRemainder leftOver
  split
  · exact ⟨rep.addOrder ⟨o.id, o.userId, o.bookType, o.remainingQuantity, o.createdAt⟩
      o.bookPrice o.bookDirection absent,
      fun d => OrderBook.bestExact_addOrder (exact d) _ _ price.1 price.2⟩
  · have same : Function.update v o.id none = v := by
      rw [← absent, Function.update_eq_self]
    rw [same]
    exact ⟨rep, exact⟩

/-- A placement keeps its book in line with the orders table. -/
theorem simulates (run : PlaceRun draft ob db ob' db')
    (rep : ob.Represents (db.resting draft.marketId)) (exact : ∀ d, ob.BestExact d) :
    ob'.Represents (db'.resting draft.marketId) ∧ (∀ d, ob'.BestExact d) ∧
      ∀ m, m ≠ draft.marketId → db'.resting m = db.resting m := by
  obtain ⟨v', fills, rep', exact'⟩ := matchOrder_spec draft.accepted ob _ rep exact
  obtain ⟨absent, view, others⟩ := run.resting fills rfl
  obtain ⟨market, db₁, order, n, market₁, db₂, order', db₃, accepted, _⟩ := run.phases
  have same := fills.sameOrder
  have oid : (matchOrder draft.accepted ob).incoming.id = draft.id :=
    same.id.symm.trans draft.accepted_fields.1
  have price := OrderDraft.accepted_bookPrice accepted.price
  rw [same.bookPrice] at price
  obtain ⟨rests, exact''⟩ := restRemainder_represents rep' exact' (oid ▸ absent) price
  rw [run.book, view, ← oid]
  exact ⟨rests, exact'', others⟩

end PlaceRun

end PredictionMarket
