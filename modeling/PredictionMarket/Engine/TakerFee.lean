/- PredictionMarket/Engine/TakerFee
   digest: The fee of a fill against the price that its taker trades at. -/

import PredictionMarket.Engine.LeftoverFunds
import PredictionMarket.Matching.Mirror

set_option autoImplicit false
set_option relaxedAutoImplicit false

namespace PredictionMarket

open Library

def BookType.ownPrice (b : BookType) (price : Int) : Int :=
  match b with
  | .nativeBuy | .nativeSell => price
  | .syntheticBuy | .syntheticSell => 100 - price

def Order.ownFee (o : Order) (t : TradeResult) (feeBps : Int) : Int :=
  ⌈(o.bookType.ownPrice t.price * t.quantity * feeBps : ℚ) / 10000⌉

/-- `fee` goes from the taker to the platform: out of the frozen balance of a taker
that pays cash, with a refund of its buffer, and out of the proceeds of any other. -/
structure Order.PaysFee (o : Order) (fee : Int) (h h' : Holdings) : Prop where
  positions : h'.positions = h.positions
  balances : ∃ refund, ∀ user a, h.accounts.get? user = some a →
    ∃ a', h'.accounts.get? user = some a' ∧
      a'.frozenBalance = a.frozenBalance -
        (if user = o.userId ∧ o.bookType.paysCash then fee else 0) ∧
      a'.availableBalance = a.availableBalance +
        (if user = PLATFORM_FEE_USER_ID then fee else 0) +
        if user = o.userId then (if o.bookType.paysCash then refund else -fee) else 0

/-- The fee step of a cleared fill, between its settlement and its netting, moved
`fee`, and so says the row of the trade. -/
structure Order.FeeCharged (o : Order) (t : TradeResult) (market : MarketState) (db : Db)
    (fee : Int) (db' : Db) : Prop where
  moved : ∃ pnl market₁ h₁ h₂ nq market₂,
    settleTrade t market db.holdings = .ok (pnl, market₁, h₁) ∧ o.PaysFee fee h₁ h₂ ∧
    executeNettingIfNeeded t.buyUserId o.marketId market₁ h₂ = .ok (nq, market₂, db'.holdings)
  written : ∃ row, db'.trades = db.trades ++ [row] ∧ row.trade = t ∧ row.takerFee = fee

/-- The taker is charged on the price it trades at: not for nothing, and what a taker of
the mirrored trade is to pay. -/
structure Order.ChargedOnOwnPrice (o : Order) (t : TradeResult) (market : MarketState) (db : Db)
    (db' : Db) : Prop where
  charged : o.FeeCharged t market db (o.ownFee t market.takerFeeBps) db'
  positive : 0 < market.takerFeeBps → 0 < o.ownFee t market.takerFeeBps
  mirrored : o.FeeCharged t market db (o.mirror.ownFee t.mirror market.takerFeeBps) db'

private theorem calcFee_pos {value bps : Int} (rate : 0 < bps) (positive : 0 < value) :
    0 < calcFee value bps := by
  have product := Int.mul_pos positive rate
  unfold calcFee
  rw [Int.fdiv_eq_ediv_of_nonneg _ (by decide)]
  omega

private theorem BookType.ownPrice_pos (b : BookType) {price : Int} (low : 1 ≤ price)
    (high : price ≤ 99) :
    0 < b.ownPrice price := by
  cases b <;> simp only [ownPrice] <;> omega

private theorem Order.ownFee_eq (o : Order) (t : TradeResult) (feeBps : Int) :
    o.ownFee t feeBps = calcFee (o.bookType.ownPrice t.price * t.quantity) feeBps := by
  rw [calcFee_eq_ceil, Order.ownFee]
  push_cast
  rfl

private theorem Order.ownFee_mirror (o : Order) (t : TradeResult) (feeBps : Int) :
    o.mirror.ownFee t.mirror feeBps = o.ownFee t feeBps := by
  rw [Order.ownFee_eq, Order.ownFee_eq]
  cases type : o.bookType <;>
    simp [Order.mirror, TradeResult.mirror, BookType.mirror, BookType.ownPrice, type]

section Fill

variable {o : Order} {ob : OrderBook} {t : TradeResult}

structure TakenBy (t : TradeResult) (o : Order) : Prop where
  user : t.takerUserId = o.userId
  bookType : t.takerBookType = o.bookType
  buyer : o.bookDirection = .buy → t.buyBookType = o.bookType
  seller : o.bookDirection = .sell → t.sellBookType = o.bookType ∧ t.buyOriginalPrice = 0

private theorem matchOrder_takenBy (wf : ob.WellFormed) (fresh : ob.Fresh o.id)
    (fill : t ∈ (matchOrder o ob).trades) : TakenBy t o := by
  rw [(matchOrder_sweeps wf o).trades] at fill
  obtain ⟨x, taken, rfl⟩ := List.mem_map.mp fill
  have queued := (mem_takings (wf.stocked o.bookDirection.opposite) taken).2.1
  have other : x.1.2.orderId ≠ o.id := fresh _ _ _ queued
  cases direction : o.bookDirection with
  | buy =>
    constructor <;> simp [OrderDirection.opposite, makeTrade, makeTradeBuyIncoming,
      TradeResult.takerUserId, TradeResult.takerBookType, TradeResult.takerIsBuyer, direction]
  | sell =>
    constructor <;> simp [OrderDirection.opposite, makeTrade, makeTradeSellIncoming,
      TradeResult.takerUserId, TradeResult.takerBookType, TradeResult.takerIsBuyer, direction,
      other.symm]

private theorem TakenBy.synced (taken : TakenBy t o) {order : Order} (same : order.SameOrder o) :
    TakenBy t order := by
  constructor
  · rw [taken.user, same.userId]
  · rw [taken.bookType, same.bookType]
  · intro direction
    rw [same.bookDirection] at direction
    rw [taken.buyer direction, same.bookType]
  · intro direction
    rw [same.bookDirection] at direction
    rw [same.bookType]
    exact taken.seller direction

/-- The base of the fee is the value on the taker's own side, except that a buyer of
NO shares is charged on an original price of zero. -/
private theorem TakenBy.feeBase (taken : TakenBy t o) (buys : t.buyBookType.direction = .buy) :
    t.feeBase = if o.bookType = .syntheticSell then 0
      else o.bookType.ownPrice t.price * t.quantity := by
  unfold TradeResult.feeBase
  rw [taken.bookType]
  cases type : o.bookType with
  | nativeBuy => simp [getFeeTradeValue, BookType.ownPrice]
  | nativeSell => simp [getFeeTradeValue, BookType.ownPrice]
  | syntheticBuy => simp [getFeeTradeValue, BookType.ownPrice]
  | syntheticSell =>
    cases direction : o.bookDirection with
    | buy =>
      rw [taken.buyer direction, type] at buys
      cases buys
    | sell => simp [getFeeTradeValue, (taken.seller direction).2]

private theorem TakenBy.paysFee (taken : TakenBy t o) {feeBps fee : Int} {h h' : Holdings}
    (done : collectFee t feeBps h = .ok (fee, h')) :
    fee = calcFee t.feeBase feeBps ∧ o.PaysFee fee h h' := by
  obtain ⟨rfl, run⟩ := collectFee_ok done
  refine ⟨rfl, ?_⟩
  cases run with
  | fromFrozen h₁ cash debit credit =>
    rw [taken.bookType] at cash
    rw [taken.user] at debit
    refine ⟨(Holdings.addBalance_positions credit).trans (Holdings.unfreezeDebit_positions debit),
      calcMaxFee t.feeBase - calcFee t.feeBase feeBps, fun user a got => ?_⟩
    refine ⟨_, Holdings.row_updateAccount credit (Holdings.row_updateAccount debit got), ?_⟩
    simp only [cash, and_true]
    split_ifs <;> simp
    omega
  | fromProceeds h₁ shares debit credit =>
    rw [taken.bookType] at shares
    rw [taken.user] at debit
    refine ⟨(Holdings.addBalance_positions credit).trans (Holdings.addBalance_positions debit), 0,
      fun user a got => ?_⟩
    refine ⟨_, Holdings.row_updateAccount credit (Holdings.row_updateAccount debit got), ?_⟩
    simp only [shares, Bool.false_eq_true, and_false, if_false, sub_zero]
    split_ifs <;> simp

private theorem TakenBy.feeCharged {order : Order} (taken : TakenBy t order)
    {market market' : MarketState}
    {db db' : Db} {nq : Int} (cleared : clearFill order t market db = .ok (nq, market', db')) :
    (t.buyBookType.direction = .buy ∧ (1 ≤ t.price ∧ t.price ≤ 99) ∧ 0 < t.quantity) ∧
      order.FeeCharged t market db (calcFee t.feeBase market.takerFeeBps) db' := by
  simp only [clearFill, bind_eq_ok, pure_eq_ok, Prod.mk.injEq] at cleared
  obtain ⟨⟨⟨buyPnl, sellPnl⟩, market₁, h₁⟩, settled, db₁, taker, db₂, maker, ⟨fee, h₂⟩, charged,
    db₃, written, ⟨nq', market₂, h₃⟩, netted, rfl, rfl, rfl⟩ := cleared
  obtain ⟨orders₁, _, rfl⟩ := Db.updateStatus_ok taker
  obtain ⟨orders₂, _, rfl⟩ := updateMakerStatus_ok maker
  obtain ⟨⟨buys, sells, price, quantity, _, _⟩, rfl⟩ := Db.writeTrade_ok written
  obtain ⟨rfl, pays⟩ := taken.paysFee charged
  have rate : market₁.takerFeeBps = market.takerFeeBps := (settleTrade_draws settled buys sells).2
  rw [← rate]
  exact ⟨⟨buys, price, quantity⟩, ⟨_, market₁, h₁, h₂, _, _, settled, pays, netted⟩,
    _, rfl, rfl, rfl⟩

private theorem Order.FeeCharged.unique {market : MarketState} {db db' : Db} {fee fee' : Int}
    (charged : o.FeeCharged t market db fee db') (charged' : o.FeeCharged t market db fee' db') :
    fee = fee' := by
  obtain ⟨row, added, _, rfl⟩ := charged.written
  obtain ⟨row', added', _, rfl⟩ := charged'.written
  rw [added] at added'
  rw [List.singleton_injective (List.append_cancel_left added')]

end Fill

/-- A fill charges its taker on the price that it trades at, except that a buyer of NO
shares pays no fee. The engine clears with the order that matching returns, or with that
order synced after an earlier fill. -/
theorem taker_charged_on_own_price_iff {ob : OrderBook} (wf : ob.WellFormed) {o order : Order}
    (fresh : ob.Fresh o.id) (same : order.SameOrder o) {t : TradeResult}
    (fill : t ∈ (matchOrder o ob).trades) {market market' : MarketState}
    (rate : 0 ≤ market.takerFeeBps) {db db' : Db} {nq : Int}
    (cleared : clearFill order t market db = .ok (nq, market', db')) :
    order.ChargedOnOwnPrice t market db db' ↔
      (o.bookType = .syntheticSell → market.takerFeeBps = 0) := by
  have taken := (matchOrder_takenBy wf fresh fill).synced same
  obtain ⟨⟨buys, ⟨low, high⟩, quantity⟩, charged⟩ := taken.feeCharged cleared
  have value : 0 < order.bookType.ownPrice t.price * t.quantity :=
    Int.mul_pos (order.bookType.ownPrice_pos low high) quantity
  rw [taken.feeBase buys] at charged
  rw [← same.bookType]
  constructor
  · rintro ⟨own, positive, _⟩ type
    by_contra charges
    have zero := charged.unique own
    rw [if_pos type] at zero
    have free : calcFee 0 market.takerFeeBps = 0 := by simp [calcFee]
    have gains := positive (by omega)
    omega
  · intro exempt
    suffices own : order.FeeCharged t market db (order.ownFee t market.takerFeeBps) db' ∧
        (0 < market.takerFeeBps → 0 < order.ownFee t market.takerFeeBps) from
      ⟨own.1, own.2, by rw [Order.ownFee_mirror]; exact own.1⟩
    by_cases type : order.bookType = .syntheticSell
    · have free := exempt type
      have nothing : ∀ v, calcFee v market.takerFeeBps = 0 := by simp [calcFee, free]
      refine ⟨?_, fun positive => by omega⟩
      rw [Order.ownFee_eq, nothing]
      rwa [nothing] at charged
    · rw [if_neg type, ← Order.ownFee_eq] at charged
      refine ⟨charged, fun positive => ?_⟩
      rw [Order.ownFee_eq]
      exact calcFee_pos positive value

theorem matchOrder_sameOrder {ob : OrderBook} (wf : ob.WellFormed) (o : Order) :
    (matchOrder o ob).incoming.SameOrder o := by
  rw [(matchOrder_sweeps wf o).incoming]
  unfold Order.taken
  split <;> exact ⟨rfl, rfl, rfl, rfl, rfl, rfl, rfl⟩

section Example

private def twentyBps : MarketState := ⟨"m", .active, 0, 0, 0, 0, 20⟩

private def buyTenNo : PlaceOrderRequest := ⟨"c2", "m", .no, .buy, 60, 10, .gtc⟩

private def alices (req : PlaceOrderRequest) : Order := (req.draft 2 "alice" ⟨0, 0⟩).accepted

private def acceptedDb (resting incoming : PlaceOrderRequest) : Db :=
  let w := (OrderService.placeOrder resting "bob" ⟨0, 0⟩ .none twoTraders).2
  match acceptOrder (incoming.draft 2 "alice" ⟨0, 0⟩) w.db with
  | .ok (_, _, db) => db
  | .error _ => w.db

private def bobRests (bookType : BookType) : OrderBook :=
  OrderBook.empty.addOrder ⟨1, "bob", bookType, 10, 0⟩ 40 bookType.direction

private theorem bobRests_wellFormed (bookType : BookType) : (bobRests bookType).WellFormed :=
  (OrderBook.consistent_empty.addOrder ⟨1, "bob", bookType, 10, 0⟩ 40 bookType.direction
    (OrderBook.fresh_empty 1) (by decide) (show (0 : Int) < 10 by decide)).wellFormed

private theorem bobRests_fresh (bookType : BookType) : (bobRests bookType).Fresh 2 :=
  (OrderBook.fresh_empty 2).addOrder (show (1 : Nat) ≠ 2 by decide) 40 bookType.direction

end Example

/-- A buyer of ten YES shares at 40 cents pays its cent. -/
theorem yes_buyer_charged_on_own_price :
    ∃ t market' db' nq,
      clearFill (matchOrder (alices buyTenYes) (bobRests .syntheticSell)).incoming t twentyBps
          (acceptedDb buyTenNo buyTenYes) = .ok (nq, market', db') ∧
        (matchOrder (alices buyTenYes) (bobRests .syntheticSell)).incoming.ChargedOnOwnPrice t
          twentyBps (acceptedDb buyTenNo buyTenYes) db' := by
  have clears : (clearFill (matchOrder (alices buyTenYes) (bobRests .syntheticSell)).incoming
      (makeTradeBuyIncoming (alices buyTenYes) ⟨1, "bob", .syntheticSell, 10, 0⟩ 40 10) twentyBps
      (acceptedDb buyTenNo buyTenYes)).isOk = true := by decide +kernel
  obtain ⟨⟨nq, market', db'⟩, cleared⟩ := exists_of_isOk clears
  have wf := bobRests_wellFormed .syntheticSell
  exact ⟨_, market', db', nq, cleared,
    (taker_charged_on_own_price_iff wf (bobRests_fresh _) (matchOrder_sameOrder wf _)
      (by decide +kernel) (by decide) cleared).mpr (fun type => by cases type)⟩

/-- A buyer of ten NO shares at 60 cents pays nothing. -/
theorem no_buyer_pays_no_fee :
    ¬ ∀ ob o order t market market' db db' nq, OrderBook.WellFormed ob →
      ob.Fresh (Order.id o) → Order.SameOrder order o → t ∈ (matchOrder o ob).trades →
      0 ≤ MarketState.takerFeeBps market → market.takerFeeBps ≤ 1000 →
      clearFill order t market db = .ok (nq, market', db') →
      order.ChargedOnOwnPrice t market db db' := by
  intro claim
  have clears : (clearFill (matchOrder (alices buyTenNo) (bobRests .nativeBuy)).incoming
      (makeTradeSellIncoming (alices buyTenNo) ⟨1, "bob", .nativeBuy, 10, 0⟩ 40 10) twentyBps
      (acceptedDb buyTenYes buyTenNo)).isOk = true := by decide +kernel
  obtain ⟨⟨nq, market', db'⟩, cleared⟩ := exists_of_isOk clears
  have wf := bobRests_wellFormed .nativeBuy
  have fill : makeTradeSellIncoming (alices buyTenNo) ⟨1, "bob", .nativeBuy, 10, 0⟩ 40 10 ∈
      (matchOrder (alices buyTenNo) (bobRests .nativeBuy)).trades := by decide +kernel
  have same := matchOrder_sameOrder wf (alices buyTenNo)
  have own := (claim _ _ _ _ _ _ _ _ _ wf (bobRests_fresh _) same fill (by decide) (by decide)
    cleared).charged
  have taken := (matchOrder_takenBy wf (bobRests_fresh _) fill).synced same
  have equal := (taken.feeCharged cleared).2.unique own
  rw [Order.ownFee_eq, same.bookType] at equal
  exact absurd equal (by decide)

end PredictionMarket
