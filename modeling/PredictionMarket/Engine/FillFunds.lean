/- PredictionMarket/Engine/FillFunds
   digest: The frozen funds during the fills of one placement, one by one and over the loop. -/

import PredictionMarket.Engine.LockedFunds

set_option autoImplicit false
set_option relaxedAutoImplicit false

namespace PredictionMarket

open Library

/-- What one fill draws from the frozen balance of a taker: the value at the
trade price, and the fee when it is charged on frozen funds. -/
def Order.cost (o : Order) (feeBps : Int) (t : TradeResult) : Int :=
  o.bookType.pays t.price * t.quantity +
    if o.bookType = .nativeBuy then calcFee (t.price * t.quantity) feeBps else 0

namespace TradeResult

def makerBookType (trade : TradeResult) : BookType :=
  if trade.takerIsBuyer then trade.sellBookType else trade.buyBookType

def makerUserId (trade : TradeResult) : UserId :=
  if trade.takerIsBuyer then trade.sellUserId else trade.buyUserId

def makerCost (trade : TradeResult) : Int := trade.makerBookType.pays trade.price * trade.quantity

end TradeResult

private theorem BookType.direction_eq_buy {b : BookType} :
    b.direction = .buy ↔ b = .nativeBuy ∨ b = .syntheticBuy := by
  cases b <;> simp [direction]

private theorem BookType.direction_eq_sell {b : BookType} :
    b.direction = .sell ↔ b = .nativeSell ∨ b = .syntheticSell := by
  cases b <;> simp [direction]

section Trade

variable {o : Order} {id : OrderId} {r : Resting} {qty : Int}

private theorem takerIsBuyer_tradeOf (other : id ≠ o.id) :
    (tradeOf o id r qty).takerIsBuyer = decide (r.direction = .sell) := by
  unfold tradeOf TradeResult.takerIsBuyer
  cases r.direction with
  | sell => simp [makeTrade, makeTradeBuyIncoming]
  | buy => simp [makeTrade, makeTradeSellIncoming, other.symm]

@[simp] theorem tradeOf_price : (tradeOf o id r qty).price = r.price := by
  unfold tradeOf
  cases r.direction <;> rfl

@[simp] theorem tradeOf_quantity : (tradeOf o id r qty).quantity = qty := by
  unfold tradeOf
  cases r.direction <;> rfl

theorem tradeOf_taker (r : Resting) (qty : Int) (other : id ≠ o.id) :
    (tradeOf o id r qty).takerUserId = o.userId ∧
      (tradeOf o id r qty).takerBookType = o.bookType := by
  unfold TradeResult.takerUserId TradeResult.takerBookType
  rw [takerIsBuyer_tradeOf other]
  unfold tradeOf
  cases r.direction <;> exact ⟨rfl, rfl⟩

theorem tradeOf_maker (r : Resting) (qty : Int) (other : id ≠ o.id) :
    (tradeOf o id r qty).makerUserId = r.userId ∧
      (tradeOf o id r qty).makerBookType = r.bookType := by
  unfold TradeResult.makerUserId TradeResult.makerBookType
  rw [takerIsBuyer_tradeOf other]
  unfold tradeOf
  cases r.direction <;> exact ⟨rfl, rfl⟩

/-- The fee that a trade draws, as a taker of each book type is charged. A seller
is charged on an original price of zero. -/
private theorem tradeOf_feeDrawn (other : id ≠ o.id) {feeBps : Int}
    (buys : (tradeOf o id r qty).buyBookType.direction = .buy)
    (sells : (tradeOf o id r qty).sellBookType.direction = .sell) (user : UserId) :
    (tradeOf o id r qty).feeDrawn feeBps user =
      if user = o.userId ∧ o.bookType = .nativeBuy then calcFee (r.price * qty) feeBps else 0 := by
  obtain ⟨takerUser, takerType⟩ := tradeOf_taker r qty other
  unfold TradeResult.feeDrawn TradeResult.feeBase
  rw [takerUser, takerType, tradeOf_price, tradeOf_quantity]
  have free : calcFee 0 feeBps = 0 := by simp [calcFee]
  unfold tradeOf at buys sells ⊢
  cases direction : r.direction with
  | sell =>
    rw [direction] at buys
    rcases BookType.direction_eq_buy.mp (show o.bookType.direction = .buy from buys) with
      type | type
    · simp [type, BookType.paysCash, getFeeTradeValue]
    · simp [type, BookType.paysCash]
  | buy =>
    rw [direction] at sells
    rcases BookType.direction_eq_sell.mp (show o.bookType.direction = .sell from sells) with
      type | type
    · simp [type, BookType.paysCash]
    · simp [type, getFeeTradeValue, makeTrade, makeTradeSellIncoming, free]

private theorem tradeOf_drawn (other : id ≠ o.id) {feeBps : Int}
    (buys : (tradeOf o id r qty).buyBookType.direction = .buy)
    (sells : (tradeOf o id r qty).sellBookType.direction = .sell) (user : UserId) :
    (tradeOf o id r qty).drawn user + (tradeOf o id r qty).feeDrawn feeBps user =
      (if user = o.userId then o.cost feeBps (tradeOf o id r qty) else 0) +
        if user = r.userId then (tradeOf o id r qty).makerCost else 0 := by
  have value : (tradeOf o id r qty).drawn user =
      (if user = o.userId then o.bookType.pays r.price * qty else 0) +
        if user = r.userId then r.bookType.pays r.price * qty else 0 := by
    unfold tradeOf
    cases r.direction with
    | sell => rfl
    | buy => exact add_comm _ _
  rw [value, tradeOf_feeDrawn other buys sells]
  unfold TradeResult.makerCost Order.cost
  rw [(tradeOf_maker r qty other).2, tradeOf_price, tradeOf_quantity]
  by_cases taker : user = o.userId
  · simp only [taker, true_and, if_true]
    omega
  · simp only [taker, false_and, if_false]
    omega

end Trade

section Fill

variable {order : Order} {s s' : FillState} {id : OrderId} {r : Resting}

theorem FillStep.draws (step : FillStep order s id r s') (other : id ≠ order.id) :
    s.db.holdings.Draws (fun user =>
        (if user = order.userId then
          order.cost s.market.takerFeeBps (tradeOf order id r (s.take r)) else 0) +
        if user = r.userId then (tradeOf order id r (s.take r)).makerCost else 0) s'.db.holdings ∧
      s'.market.takerFeeBps = s.market.takerFeeBps ∧ 0 < s.take r ∧
      0 ≤ (tradeOf order id r (s.take r)).makerCost := by
  obtain ⟨pnl, market₁, h₁, fee, h₂, nq, settled, charged, netted, check⟩ := step.run.settled
  obtain ⟨buys, sells, price, quantity, _, _⟩ := check
  obtain ⟨draws, rate⟩ := settleTrade_draws settled buys sells
  have feeDraws := collectFee_draws charged
  obtain ⟨same, rate'⟩ := executeNetting_sameFrozen netted
  rw [rate] at feeDraws
  refine ⟨((draws.trans feeDraws).thenSame same).congr (tradeOf_drawn other buys sells),
    rate'.trans rate, ?_, ?_⟩
  · rw [tradeOf_quantity] at quantity
    exact quantity
  · exact mul_nonneg (BookType.pays_nonneg _ price.1 price.2) quantity.le

theorem FillStep.sumBesides (step : FillStep order s id r s') (other : id ≠ order.id)
    (g : OrderRow → Int) : s'.db.sumBesides g order.id = s.db.sumBesides g order.id -
      (s.db.orders.get? id).elim 0 (fun row => g row - g (row.filled (s.take r))) := by
  obtain ⟨orders, taker, maker⟩ := step.run.orders
  rw [tradeOf_makerOrderId, tradeOf_quantity] at maker
  have taker' : s.db.orders.update? order.id _ =
    some ({ s.db with orders := orders } : Db).orders := taker
  have first := Db.sumBesides_update taker' g order.id
  have maker' : ({ s.db with orders := orders } : Db).orders.update? id _ =
    some s'.db.orders := maker
  have second := Db.sumBesides_update maker' g order.id
  have kept : orders.get? id = s.db.orders.get? id := by
    rw [Table.get?_update? taker, if_neg other]
  rw [second, first, if_pos rfl, if_neg other]
  simp only [kept]
  cases s.db.orders.get? id with
  | none => simp
  | some row =>
    simp only [Option.elim_some]
    omega

private theorem FillStep.lockedBesides (step : FillStep order s id r s') (other : id ≠ order.id)
    (user : UserId) : s'.db.lockedBesides order.id user = s.db.lockedBesides order.id user -
      (s.db.orders.get? id).elim 0 (fun row =>
        row.locks user - (row.filled (s.take r)).locks user) :=
  step.sumBesides other (fun row => row.locks user)

end Fill

/-- Every entry of a book stands for an active row of its market with at least
its quantity left. Where `lost` holds, the row may have been rolled back. -/
def Db.Backs (db : Db) (lost : Prop) (m : MarketId) (v : RestingOrders) : Prop :=
  ∀ id x, v id = some x → (db.orders.get? id = none ∧ lost) ∨
    ∃ row, db.orders.get? id = some row ∧ row.marketId = m ∧ row.isActive = true ∧
      x.quantity ≤ row.remainingQuantity ∧
      row.resting = { x with quantity := row.remainingQuantity }

/-- Frozen cash beyond what the active orders other than `id` lock. -/
def Db.spareBesides (db : Db) (id : OrderId) (user : UserId) : Int :=
  db.holdings.frozenOf user - db.lockedBesides id user

/-- What a fill leaves over in the frozen balance of its maker, by the maker's
row before it. A maker without a row pays out of other orders' cash. -/
def Db.makerGain (db : Db) (t : TradeResult) (user : UserId) : Int :=
  match db.orders.get? t.makerOrderId with
  | some row =>
    if row.userId = user ∧ row.bookType.paysCash = true then row.bufferUsed t.quantity else 0
  | none => if user = t.makerUserId then -t.makerCost else 0

/-- During the fills of `order`, whose placement began with the tables `start`. -/
structure Funding (order : Order) (start : Db) (lost : Prop) (s : FillState) : Prop where
  absent : s.book order.id = none
  backs : s.db.Backs lost order.marketId s.book
  funded : ∀ j row, j ≠ order.id → s.db.orders.get? j = some row → row.Funded
  untouched : 0 < s.wanted → ∀ j, s.book j ≠ none → s.db.orders.get? j = start.orders.get? j
  elsewhere : ∀ j, j ≠ order.id →
    (∃ row, start.orders.get? j = some row ∧ row.marketId = order.marketId) ∨
      s.db.orders.get? j = start.orders.get? j

section Funding

variable {order : Order} {start : Db} {lost : Prop} {s s' : FillState} {id : OrderId} {r : Resting}

theorem Funding.ne (funding : Funding order start lost s) (here : s.book id = some r) :
    id ≠ order.id := by
  rintro rfl
  exact absurd (here.symm.trans funding.absent) (by simp)

private theorem FillStep.spare (step : FillStep order s id r s')
    (funding : Funding order start lost s)
    {user : UserId} (there : s.db.holdings.HasAccount user) :
    s'.db.spareBesides order.id user = s.db.spareBesides order.id user -
      (if user = order.userId then
        order.cost s.market.takerFeeBps (tradeOf order id r (s.take r)) else 0) +
      start.makerGain (tradeOf order id r (s.take r)) user := by
  have other := funding.ne step.here
  have draws := (step.draws other).1
  have unlocked := step.lockedBesides other user
  have asStart : s.db.orders.get? id = start.orders.get? id :=
    funding.untouched step.wants id (by simp [step.here])
  obtain ⟨makerUser, makerType⟩ := tradeOf_maker r (s.take r) other
  unfold Db.spareBesides Db.makerGain
  rw [draws.frozen user there, unlocked, tradeOf_makerOrderId, ← asStart, tradeOf_quantity,
    makerUser]
  rcases funding.backs id r step.here with ⟨gone, _⟩ | ⟨row, got, _, active, enough, view⟩
  · simp only [gone, Option.elim_none]
    split_ifs <;> omega
  · have rowFunded := funding.funded id row other got
    have takes : s.take r ≤ row.remainingQuantity := le_trans (s.take_le r) enough
    have released := rowFunded.locks_sub_filled (Table.check got) active takes user
    have userEq : row.userId = r.userId := congrArg Resting.userId view
    have typeEq : row.bookType = r.bookType := congrArg Resting.bookType view
    have priceEq : row.bookPrice = r.price := congrArg Resting.price view
    simp only [got, Option.elim_some]
    rw [released, userEq]
    have cost : (tradeOf order id r (s.take r)).makerCost =
        row.bookType.pays row.bookPrice * s.take r := by
      unfold TradeResult.makerCost
      rw [makerType, tradeOf_price, tradeOf_quantity, typeEq, priceEq]
    rw [cost]
    by_cases cash : row.bookType.paysCash = true
    · rw [rowFunded.price cash]
      by_cases maker : user = r.userId
      · simp only [maker, cash, and_self, if_true]
        omega
      · simp only [maker, Ne.symm maker, false_and, if_false]
        omega
    · have shares : row.bookType.paysCash = false := by simpa using cash
      rw [BookType.pays_of_shares shares, zero_mul]
      simp only [shares, Bool.false_eq_true, and_false, if_false, ite_self]
      omega

theorem Funding.step (step : FillStep order s id r s') (funding : Funding order start lost s) :
    Funding order start lost s' := by
  have other := funding.ne step.here
  have rows := step.get?_orders other
  have untaken : ∀ j, j ≠ order.id → j ≠ id → s'.db.orders.get? j = s.db.orders.get? j := by
    intro j taker maker
    rw [rows, if_neg maker, if_neg taker]
  have took : s.take r ≤ r.quantity := s.take_le r
  constructor
  · rw [step.book]
    simp [RestingOrders.fill, funding.absent, other.symm]
  · intro j x resting
    rw [step.book] at resting
    by_cases maker : j = id
    · subst maker
      simp only [RestingOrders.fill, step.here, Option.bind_some, Function.update_self] at resting
      split at resting
      · cases resting
      · next left =>
        obtain rfl := Option.some.inj resting
        rw [rows, if_pos rfl]
        rcases funding.backs j r step.here with ⟨gone, allowed⟩ |
          ⟨row, got, market, active, enough, view⟩
        · exact Or.inl ⟨by rw [gone]; rfl, allowed⟩
        · have ok := Table.check got
          have remaining := OrderRow.remaining_filled ok (le_trans took enough)
          refine Or.inr ⟨row.filled (s.take r), by rw [got]; rfl, market,
            (OrderRow.isActive_filled ok _).mpr (by omega), ?_, ?_⟩
          · rw [remaining]
            exact Int.sub_le_sub_right enough _
          · rw [OrderRow.resting, remaining]
            have user := congrArg Resting.userId view
            have type := congrArg Resting.bookType view
            have direction := congrArg Resting.direction view
            have price := congrArg Resting.price view
            simp only [OrderRow.resting] at user type direction price
            simp [OrderRow.filled, OrderRow.progress, user, type, direction, price]
    · have kept : s.book j = some x := by simpa [RestingOrders.fill, maker] using resting
      rw [untaken j (funding.ne kept) maker]
      exact funding.backs j x kept
  · intro j row taker got
    by_cases maker : j = id
    · subst maker
      rw [rows, if_pos rfl] at got
      obtain ⟨before, was, rfl⟩ := Option.map_eq_some_iff.mp got
      exact (funding.funded j before taker was).filled _
    · rw [untaken j taker maker] at got
      exact funding.funded j row taker got
  · intro wants j resting
    -- the fill either used up the resting order or what the incoming one wanted
    have gone : s'.book id = none := by
      have whole : s.take r = r.quantity := by
        have left := step.wanted
        unfold FillState.take at left ⊢
        omega
      rw [step.book, whole]
      simp [RestingOrders.fill, step.here]
    have maker : j ≠ id := by
      rintro rfl
      exact resting gone
    have kept : s.book j ≠ none := by
      rw [step.book] at resting
      simpa [RestingOrders.fill, maker] using resting
    obtain ⟨x, queued⟩ := Option.ne_none_iff_exists'.mp kept
    rw [untaken j (funding.ne queued) maker]
    exact funding.untouched step.wants j kept
  · intro j taker
    by_cases maker : j = id
    · subst maker
      have asStart := funding.untouched step.wants j (by simp [step.here])
      rcases funding.backs j r step.here with ⟨gone, _⟩ | ⟨row, got, market, _⟩
      · right
        rw [rows, if_pos rfl, ← asStart, gone]
        rfl
      · left
        exact ⟨row, asStart.symm.trans got, market⟩
    · rw [untaken j taker maker]
      exact funding.elsewhere j taker

def Order.totalCost (o : Order) (feeBps : Int) (ts : List TradeResult) : Int :=
  (ts.map (o.cost feeBps)).sum

theorem Order.totalCost_of_shares {o : Order} (shares : o.bookType.paysCash = false)
    {feeBps : Int} {ts : List TradeResult} : o.totalCost feeBps ts = 0 := by
  have native : o.bookType ≠ .nativeBuy := by
    intro type
    rw [type] at shares
    cases shares
  have free : o.cost feeBps = fun _ => 0 := by
    funext t
    rw [Order.cost, BookType.pays_of_shares shares, if_neg native]
    omega
  simp [Order.totalCost, free]

def Db.totalGain (db : Db) (ts : List TradeResult) (user : UserId) : Int :=
  (ts.map (fun t => db.makerGain t user)).sum

/-- A trade whose maker pays with its own cash, or else was rolled back. -/
structure Db.Makes (db : Db) (lost : Prop) (t : TradeResult) : Prop where
  quantity : 0 < t.quantity
  cost : 0 ≤ t.makerCost
  row : db.orders.get? t.makerOrderId = none → lost

private theorem FillStep.makes (step : FillStep order s id r s')
    (funding : Funding order start lost s) :
    start.Makes lost (tradeOf order id r (s.take r)) := by
  obtain ⟨_, _, quantity, cost⟩ := step.draws (funding.ne step.here)
  constructor
  · rw [tradeOf_quantity]
    exact quantity
  · exact cost
  · intro gone
    rw [tradeOf_makerOrderId, ← funding.untouched step.wants id (by simp [step.here])] at gone
    rcases funding.backs id r step.here with ⟨_, allowed⟩ | ⟨row, got, _⟩
    · exact allowed
    · rw [got] at gone
      cases gone

theorem fills_spare {ts : List TradeResult} (run : Run (fillSteps order) s ts s')
    (funding : Funding order start lost s) :
    Funding order start lost s' ∧ (∀ t ∈ ts, start.Makes lost t) ∧
      (∀ user, s'.db.holdings.HasAccount user ↔ s.db.holdings.HasAccount user) ∧
      ∀ user, s.db.holdings.HasAccount user →
        s'.db.spareBesides order.id user = s.db.spareBesides order.id user -
          (if user = order.userId then order.totalCost s.market.takerFeeBps ts else 0) +
          start.totalGain ts user := by
  induction run with
  | nil s =>
    refine ⟨funding, by simp, fun _ => Iff.rfl, fun user _ => ?_⟩
    simp [Order.totalCost, Db.totalGain]
  | @cons s t u a as head tail ih =>
    obtain ⟨id, r, step, rfl⟩ := head
    obtain ⟨funding', makes, accounts, spare⟩ := ih (funding.step step)
    obtain ⟨draws, rate₁, _⟩ := step.draws (funding.ne step.here)
    refine ⟨funding', List.forall_mem_cons.mpr ⟨step.makes funding, makes⟩,
      fun user => (accounts user).trans (draws.accounts user),
      fun user there => ?_⟩
    rw [spare user ((draws.accounts user).mpr there), step.spare funding there, rate₁]
    simp only [Order.totalCost, Db.totalGain, List.map_cons, List.sum_cons]
    split_ifs <;> omega

end Funding

end PredictionMarket
