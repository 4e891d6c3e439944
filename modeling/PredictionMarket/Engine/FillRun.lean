/- PredictionMarket/Engine/FillRun
   digest: The fills of one placement as a run over the abstract book and the tables together. -/

import PredictionMarket.Clearing.Frames
import PredictionMarket.Engine.Inversion
import PredictionMarket.Library.Run

set_option autoImplicit false
set_option relaxedAutoImplicit false

namespace PredictionMarket

open Library

theorem FillRun.respected {users charged : UserId → Prop} {R : Holdings → Holdings → Prop}
    {order : Order} {trade : TradeResult} {market market' : MarketState} {db db' : Db}
    (run : FillRun order trade market db market' db') (here : trade.marketId = order.marketId)
    (respected : Respected users charged order.marketId R) (buyer : users trade.buyUserId)
    (seller : users trade.sellUserId) (platform : users PLATFORM_FEE_USER_ID)
    (takerPays : charged trade.takerUserId) (platformPays : charged PLATFORM_FEE_USER_ID) :
    R db.holdings db'.holdings := by
  obtain ⟨pnl, market₁, h₁, fee, h₂, nq, settled, collected, netted, check⟩ := run.settled
  obtain ⟨_, _, price, quantity, _⟩ := check
  have taker : users trade.takerUserId := by
    unfold TradeResult.takerUserId
    split
    · exact buyer
    · exact seller
  have settlement := respected.settleTrade buyer seller here price quantity settled
  have fees := respected.collectFee taker takerPays platform platformPays collected
  exact respected.trans settlement (respected.trans fees (respected.executeNetting buyer netted))

theorem clearFills_markets {ts : List TradeResult} {order order' : Order} {n n' : Int}
    {market market' : MarketState} {db db' : Db}
    (done : clearFills order ts n market db = .ok (order', n', market', db')) :
    db'.markets = db.markets :=
  clearFills_rel (R := fun db db' => db'.markets = db.markets) (fun _ => rfl)
    (fun first rest => rest.trans first) (fun first => (clearFill_ok first).markets) done

/-- Between two fills of one placement: what the incoming order still wants, the
abstract book, the market in memory and the tables. -/
structure FillState where
  wanted : Int
  book : RestingOrders
  market : MarketState
  db : Db

def FillState.take (s : FillState) (r : Resting) : Int := min s.wanted r.quantity

/-- One fill of `order` with the resting order `r` under `id`, matched and
cleared. -/
structure FillStep (order : Order) (s : FillState) (id : OrderId) (r : Resting)
    (s' : FillState) : Prop where
  here : s.book id = some r
  stranger : isSelfTrade order.userId r.userId = false
  facing : r.direction = order.bookDirection.opposite
  crosses : r.direction.Crosses r.price order.bookPrice
  wants : 0 < s.wanted
  wanted : s'.wanted = s.wanted - s.take r
  book : s'.book = s.book.fill id (s.take r)
  run : FillRun order (tradeOf order id r (s.take r)) s.market s.db s'.market s'.db

def fillSteps (order : Order) : Steps FillState TradeResult := fun s t s' =>
  ∃ id r, FillStep order s id r s' ∧ t = tradeOf order id r (s.take r)

structure Order.SameOrder (o p : Order) : Prop where
  id : o.id = p.id
  userId : o.userId = p.userId
  marketId : o.marketId = p.marketId
  bookType : o.bookType = p.bookType
  bookDirection : o.bookDirection = p.bookDirection
  bookPrice : o.bookPrice = p.bookPrice
  originalPrice : o.originalPrice = p.originalPrice

def Order.synced (o : Order) : Order := o.syncFrozenAmount o.remainingQuantity

private theorem Order.synced_sameOrder (o : Order) : o.synced.SameOrder o :=
  ⟨rfl, rfl, rfl, rfl, rfl, rfl, rfl⟩

theorem Order.SameOrder.symm {o p : Order} (same : o.SameOrder p) : p.SameOrder o :=
  ⟨same.id.symm, same.userId.symm, same.marketId.symm, same.bookType.symm,
    same.bookDirection.symm, same.bookPrice.symm, same.originalPrice.symm⟩

theorem Order.SameOrder.trans {o p q : Order} (first : o.SameOrder p) (second : p.SameOrder q) :
    o.SameOrder q :=
  ⟨first.id.trans second.id, first.userId.trans second.userId,
    first.marketId.trans second.marketId, first.bookType.trans second.bookType,
    first.bookDirection.trans second.bookDirection, first.bookPrice.trans second.bookPrice,
    first.originalPrice.trans second.originalPrice⟩

theorem clearFills_order {ts : List TradeResult} {order order' : Order} {n n' : Int}
    {market market' : MarketState} {db db' : Db}
    (done : clearFills order ts n market db = .ok (order', n', market', db')) :
    order' = if ts = [] then order else order.synced := by
  induction ts generalizing order n market db with
  | nil =>
    simp only [clearFills, pure_eq_ok, Prod.mk.injEq] at done
    exact done.1.symm
  | cons t ts ih =>
    obtain ⟨nq, market₁, db₁, _, rest⟩ := clearFills_cons_ok done
    rw [ih rest, if_neg (List.cons_ne_nil _ _)]
    split
    · rfl
    · rfl

theorem clearFills_sameOrder {ts : List TradeResult} {order order' : Order} {n n' : Int}
    {market market' : MarketState} {db db' : Db}
    (done : clearFills order ts n market db = .ok (order', n', market', db')) :
    order'.SameOrder order := by
  rw [clearFills_order done]
  split
  · exact ⟨rfl, rfl, rfl, rfl, rfl, rfl, rfl⟩
  · exact order.synced_sameOrder

private theorem tradeOf_congr {o p : Order} (same : o.SameOrder p) (id : OrderId) (r : Resting)
    (qty : Int) : tradeOf o id r qty = tradeOf p id r qty := by
  obtain ⟨sameId, user, market, type, _, _, price⟩ := same
  unfold tradeOf
  cases r.direction <;>
    simp only [makeTrade, makeTradeBuyIncoming, makeTradeSellIncoming, sameId, user, market, type,
      price]

private theorem FillRun.of_synced {order : Order} {trade : TradeResult}
    {market market' : MarketState}
    {db db' : Db} (run : FillRun order.synced trade market db market' db') :
    FillRun order trade market db market' db' := ⟨run.settled, run.orders, run.markets⟩

theorem clearFills_run {o o' order order' : Order} {v v' : RestingOrders} {ts : List TradeResult}
    {n n' : Int} {market market' : MarketState} {db db' : Db} (fills : Fills o v ts o' v')
    (same : o.SameOrder order)
    (done : clearFills order ts n market db = .ok (order', n', market', db')) :
    Run (fillSteps order) ⟨o.remainingQuantity, v, market, db⟩ ts
        ⟨o'.remainingQuantity, v', market', db'⟩ := by
  induction fills generalizing order n market db with
  | done o v =>
    simp only [clearFills, pure_eq_ok, Prod.mk.injEq] at done
    obtain ⟨rfl, _, rfl, rfl⟩ := done
    exact .nil _
  | @fill o o' v v' id r ts here stranger facing crosses wants rest ih =>
    obtain ⟨nq, market₁, db₁, first, done⟩ := clearFills_cons_ok done
    have same₁ : (applyFill o (min o.remainingQuantity r.quantity)).SameOrder order.synced :=
      ⟨same.id, same.userId, same.marketId, same.bookType, same.bookDirection, same.bookPrice,
        same.originalPrice⟩
    have tail := ih same₁ done
    have run := clearFill_ok first
    rw [tradeOf_congr same] at run ⊢
    have head : FillStep order ⟨o.remainingQuantity, v, market, db⟩ id r
        ⟨o.remainingQuantity - min o.remainingQuantity r.quantity,
          v.fill id (min o.remainingQuantity r.quantity), market₁, db₁⟩ :=
      ⟨here, by rw [← same.userId]; exact stranger, by rw [← same.bookDirection]; exact facing,
        by rw [← same.bookPrice]; exact crosses, wants, rfl, rfl, run⟩
    have convert : ∀ {s t : FillState} {us : List TradeResult},
        Run (fillSteps order.synced) s us t → Run (fillSteps order) s us t := by
      intro s t us steps
      refine steps.mono ?_
      rintro a u b ⟨id, r, step, rfl⟩
      have trade : tradeOf order.synced id r (a.take r) = tradeOf order id r (a.take r) :=
        tradeOf_congr order.synced_sameOrder id r _
      exact ⟨id, r, ⟨step.here, step.stranger, step.facing, step.crosses, step.wants, step.wanted,
        step.book, FillRun.of_synced (trade ▸ step.run)⟩, trade⟩
    exact .cons ⟨id, r, head, rfl⟩ (convert tail)

end PredictionMarket
