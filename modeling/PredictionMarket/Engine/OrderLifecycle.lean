/- PredictionMarket/Engine/OrderLifecycle
   digest: The life of a stored order: its status, its fills and its trades over whole sessions. -/

import PredictionMarket.Engine.Sessions

set_option autoImplicit false
set_option relaxedAutoImplicit false

namespace PredictionMarket

open Library

def TradeResult.Names (t : TradeResult) (id : OrderId) : Prop :=
  t.buyOrderId = id ∨ t.sellOrderId = id

instance (t : TradeResult) (id : OrderId) : Decidable (t.Names id) :=
  inferInstanceAs (Decidable (t.buyOrderId = id ∨ t.sellOrderId = id))

def tradedIn (ts : List TradeResult) (id : OrderId) : Int :=
  ((ts.filter (fun t => t.Names id)).map TradeResult.quantity).sum

def Db.traded (db : Db) (id : OrderId) : Int := tradedIn (db.trades.map TradeRow.trade) id

private theorem tradedIn_nil (id : OrderId) : tradedIn [] id = 0 := rfl

theorem tradedIn_cons (t : TradeResult) (ts : List TradeResult) (id : OrderId) :
    tradedIn (t :: ts) id = (if t.Names id then t.quantity else 0) + tradedIn ts id := by
  unfold tradedIn
  by_cases named : t.Names id
  · simp [named]
  · simp [named]

private theorem tradedIn_append (ts us : List TradeResult) (id : OrderId) :
    tradedIn (ts ++ us) id = tradedIn ts id + tradedIn us id := by
  simp [tradedIn]

private theorem tradeOf_names (o : Order) (id : OrderId) (r : Resting) (qty : Int) (j : OrderId) :
    (tradeOf o id r qty).Names j ↔ j = id ∨ j = o.id := by
  unfold tradeOf TradeResult.Names
  cases r.direction with
  | sell =>
    simp only [makeTrade, makeTradeBuyIncoming]
    exact ⟨fun h => h.symm.imp Eq.symm Eq.symm, fun h => h.symm.imp Eq.symm Eq.symm⟩
  | buy =>
    simp only [makeTrade, makeTradeSellIncoming]
    exact ⟨fun h => h.imp Eq.symm Eq.symm, fun h => h.imp Eq.symm Eq.symm⟩

/-- What a stored order may look like when trades of `traded` shares name it. -/
structure OrderRow.Lived (traded : Int) (r : OrderRow) : Prop where
  traded : r.filledQuantity = traded
  status : r.status = .open ∨ r.status = .partiallyFilled ∨ r.status = .filled ∨
    r.status = .cancelled
  untouched : r.status = .open → r.filledQuantity = 0
  partly : r.status = .partiallyFilled → 0 < r.filledQuantity ∧ r.filledQuantity < r.quantity
  used : r.status = .filled ↔ r.remainingQuantity = 0

namespace OrderRow.Lived

variable {r r' : OrderRow} {x : Int}

theorem active_iff (lived : r.Lived x) : r.isActive = true ↔
    r.status = .open ∨ r.status = .partiallyFilled := by
  unfold isActive
  rcases lived.status with status | status | status | status <;>
    simp [status, OrderStatus.isActive]

private theorem not_filled_of_active (active : r.isActive = true) : r.status ≠ .filled := by
  intro status
  simp [isActive, status, OrderStatus.isActive] at active

private theorem ended (lived : r.Lived x) (unused : r.status ≠ .filled)
    (status : r'.status = .cancelled)
    (filled : r'.filledQuantity = r.filledQuantity)
    (remaining : r'.remainingQuantity = r.remainingQuantity) : r'.Lived x := by
  constructor
  · rw [filled]
    exact lived.traded
  · exact Or.inr (Or.inr (Or.inr status))
  · intro fresh
    rw [status] at fresh
    cases fresh
  · intro partly
    rw [status] at partly
    cases partly
  · rw [remaining, ← lived.used, status]
    exact ⟨fun same => (by cases same), fun same => absurd same unused⟩

private theorem filled (lived : r.Lived x) (ok : r.Check) {qty : Int} (positive : 0 < qty) :
    (r.filled qty).Lived (x + qty) := by
  have bounds := ok.2.2.2.1
  have remaining := ok.quantity_sub_filled
  have before := lived.traded
  by_cases used : r.remainingQuantity - qty ≤ 0
  · have after : r.filled qty = { r with
        status := .filled
        filledQuantity := r.filledQuantity + qty
        remainingQuantity := 0
        frozenAmount := (r.filled qty).frozenAmount } := by
      simp [OrderRow.filled, Order.filledBy, rowToOrder, remaining, used, Order.syncFrozenAmount,
        OrderRow.progress]
    rw [after]
    refine ⟨?_, by simp, fun fresh => (by cases fresh), fun part => (by cases part), by simp⟩
    simp only
    omega
  · have after : r.filled qty = { r with
        status := .partiallyFilled
        filledQuantity := r.filledQuantity + qty
        remainingQuantity := r.remainingQuantity - qty
        frozenAmount := (r.filled qty).frozenAmount } := by
      simp [OrderRow.filled, Order.filledBy, rowToOrder, remaining, used, Order.syncFrozenAmount,
        OrderRow.progress]
    rw [after]
    refine ⟨?_, by simp, fun fresh => (by cases fresh), fun _ => ?_, ?_⟩
    · simp only
      omega
    · simp only
      omega
    · simp only [reduceCtorEq, false_iff]
      omega

end OrderRow.Lived

/-- Every stored order is as its trades make it, and trades name stored orders only. -/
structure Db.Lived (db : Db) : Prop where
  rows : ∀ id row, db.orders.get? id = some row → row.Lived (db.traded id)
  absent : ∀ id, db.orders.get? id = none → db.traded id = 0

def Db.KeepsClosed (db db' : Db) : Prop :=
  ∀ id row, db.orders.get? id = some row → row.isActive = false →
    ∃ row', db'.orders.get? id = some row' ∧ row'.status = row.status ∧
      row'.filledQuantity = row.filledQuantity ∧ row'.remainingQuantity = row.remainingQuantity

private theorem Db.KeepsClosed.refl (db : Db) : db.KeepsClosed db :=
  fun _ row got _ => ⟨row, got, rfl, rfl, rfl⟩

private theorem Db.KeepsClosed.trans {db db' db'' : Db} (first : db.KeepsClosed db')
    (second : db'.KeepsClosed db'') : db.KeepsClosed db'' := by
  intro id row got closed
  obtain ⟨row', got', status, filled, remaining⟩ := first id row got closed
  have closed' : row'.isActive = false := by
    unfold OrderRow.isActive at closed ⊢
    rw [status]
    exact closed
  obtain ⟨row'', got'', status', filled', remaining'⟩ := second id row' got' closed'
  exact ⟨row'', got'', status'.trans status, filled'.trans filled, remaining'.trans remaining⟩

section Fills

variable {order : Order} {start : Db} {s s' : FillState} {ts : List TradeResult}

/-- What the fills of `order` do to the stored orders. -/
structure FillsLived (order : Order) (s : FillState) (ts : List TradeResult) (s' : FillState) :
    Prop where
  rows : ∀ j row x, j ≠ order.id → s.db.orders.get? j = some row → row.Lived x →
    ∃ row', s'.db.orders.get? j = some row' ∧ row'.Lived (x + tradedIn ts j)
  closed : ∀ j row, j ≠ order.id → s.db.orders.get? j = some row → row.isActive = false →
    s'.db.orders.get? j = some row
  absent : ∀ j, j ≠ order.id → s.db.orders.get? j = none →
    s'.db.orders.get? j = none ∧ tradedIn ts j = 0
  own : tradedIn ts order.id = s.wanted - s'.wanted
  progress : s'.wanted ≤ s.wanted ∧ (ts ≠ [] → s'.wanted < s.wanted)

private theorem fills_lived (run : Run (fillSteps order) s ts s')
    (funding : Funding order start False s) :
    FillsLived order s ts s' := by
  induction run with
  | nil s =>
    constructor
    · intro j row x _ got lived
      exact ⟨row, got, by rw [tradedIn_nil, add_zero]; exact lived⟩
    · intro j row _ got _
      exact got
    · intro j _ none
      exact ⟨none, rfl⟩
    · rw [tradedIn_nil, sub_self]
    · exact ⟨le_rfl, fun some => absurd rfl some⟩
  | @cons s t u a as head tail ih =>
    obtain ⟨id, r, step, rfl⟩ := head
    have other := funding.ne step.here
    have rest := ih (funding.step step)
    have orders := step.get?_orders other
    have positive := (step.draws other).2.2.1
    have wanted := step.wanted
    rcases funding.backs id r step.here with ⟨_, lost⟩ | ⟨maker, stored, _, active, _⟩
    · exact lost.elim
    have untaken : ∀ j, j ≠ order.id → j ≠ id → t.db.orders.get? j = s.db.orders.get? j := by
      intro j taker away
      rw [orders, if_neg away, if_neg taker]
    have unnamed : ∀ j, j ≠ order.id → j ≠ id →
        tradedIn (tradeOf order id r (s.take r) :: as) j = tradedIn as j := by
      intro j taker away
      rw [tradedIn_cons, if_neg (by rw [tradeOf_names]; exact not_or.mpr ⟨away, taker⟩), zero_add]
    constructor
    · intro j row x taker got lived
      by_cases here : j = id
      · subst here
        obtain rfl := Option.some.inj (stored.symm.trans got)
        have after : t.db.orders.get? j = some (maker.filled (s.take r)) := by
          rw [orders, if_pos rfl, stored]
          rfl
        obtain ⟨row', got', lived'⟩ := rest.rows j _ _ taker after
          (lived.filled (Table.check stored) positive)
        refine ⟨row', got', ?_⟩
        rw [tradedIn_cons, if_pos ((tradeOf_names ..).mpr (Or.inl rfl)), tradeOf_quantity,
          ← add_assoc]
        exact lived'
      · rw [unnamed j taker here]
        exact rest.rows j row x taker ((untaken j taker here).trans got) lived
    · intro j row taker got closed
      have away : j ≠ id := by
        rintro rfl
        obtain rfl := Option.some.inj (stored.symm.trans got)
        rw [active] at closed
        cases closed
      exact rest.closed j row taker ((untaken j taker away).trans got) closed
    · intro j taker none
      have away : j ≠ id := by
        rintro rfl
        rw [stored] at none
        cases none
      rw [unnamed j taker away]
      exact rest.absent j taker ((untaken j taker away).trans none)
    · rw [tradedIn_cons, if_pos ((tradeOf_names ..).mpr (Or.inr rfl)), tradeOf_quantity, rest.own]
      omega
    · have less := rest.progress.1
      exact ⟨by omega, fun _ => by omega⟩

end Fills

section Trades

variable {db db' : Db}

theorem clearFills_trades {ts : List TradeResult} {order order' : Order} {n n' : Int}
    {market market' : MarketState}
    (done : clearFills order ts n market db = .ok (order', n', market', db')) :
    db'.trades.map TradeRow.trade = db.trades.map TradeRow.trade ++ ts := by
  induction ts generalizing order n market db with
  | nil =>
    simp only [clearFills, pure_eq_ok, Prod.mk.injEq] at done
    obtain ⟨_, _, _, rfl⟩ := done
    simp
  | cons t ts ih =>
    obtain ⟨nq, market₁, db₁, first, rest⟩ := clearFills_cons_ok done
    have written : db₁.trades.map TradeRow.trade = db.trades.map TradeRow.trade ++ [t] := by
      simp only [clearFill, bind_eq_ok, pure_eq_ok, Prod.mk.injEq] at first
      obtain ⟨⟨⟨buyPnl, sellPnl⟩, market₁, h₁⟩, _, db₁, taker, db₂, maker, ⟨fee, h₂⟩, _, db₃,
        written, ⟨nq', market₂, h₃⟩, _, _, _, rfl⟩ := first
      obtain ⟨orders₁, _, rfl⟩ := Db.updateStatus_ok taker
      obtain ⟨orders₂, _, rfl⟩ := updateMakerStatus_ok maker
      obtain ⟨_, rfl⟩ := Db.writeTrade_ok written
      simp [Db.writeWalEvent]
    rw [ih rest, written, List.append_assoc, List.singleton_append]

theorem acceptOrder_trades {draft : OrderDraft} {order : Order} {market : MarketState}
    (done : acceptOrder draft db = .ok (order, market, db')) : db'.trades = db.trades := by
  obtain ⟨db₁, db₂, frozen, saved, rfl⟩ := acceptOrder_saved done
  obtain ⟨_, h, ledger, _, rfl⟩ := checkAndFreeze_ok frozen
  obtain ⟨orders, _, rfl⟩ := Db.save_ok saved
  rfl

theorem finalizeOrder_trades {order order' : Order}
    (done : finalizeOrder order 0 db = .ok (order', db')) : db'.trades = db.trades := by
  cases finalizeOrder_run done with
  | partly | idle => rfl
  | expired _ _ released updated =>
    obtain ⟨h, ledger, _, rfl⟩ := unfreezeRemainder_ok released
    obtain ⟨orders, _, rfl⟩ := Db.updateStatus_ok updated
    rfl

theorem cancelInSavepoint_trades {order order' : Order}
    (done : MatchingEngine.cancelInSavepoint order db = .ok (order', db')) :
    db'.trades = db.trades := by
  obtain ⟨db₁, db₂, released, marked, rfl⟩ := cancelInSavepoint_saved done
  obtain ⟨h, ledger, _, rfl⟩ := unfreezeRemainder_ok released
  obtain ⟨orders, _, rfl⟩ := Db.updateStatus_ok marked
  rfl

end Trades

section Placement

variable {draft : OrderDraft} {ob ob' : OrderBook} {db db' db₁ db₂ : Db} {v : RestingOrders}
  {market market₁ : MarketState} {order : Order} {n : Int}

/-- The row of the taker after its fills, next to the order in memory. -/
structure TakerLived (order : Order) (traded : Int) (row : OrderRow) : Prop where
  lived : row.Lived traded
  filled : row.filledQuantity = order.filledQuantity
  remaining : row.remainingQuantity = order.remainingQuantity

private theorem takerLived {o p : Order} {ts : List TradeResult} {u v : RestingOrders}
    {row : OrderRow}
    {t : Int} (fills : Fills o u ts p v) (fresh : o.filledQuantity = 0)
    (positive : 0 < o.remainingQuantity) (traded : t = o.remainingQuantity - p.remainingQuantity)
    (less : ts ≠ [] → p.remainingQuantity < o.remainingQuantity)
    (quantity : row.quantity = o.remainingQuantity)
    (status : row.status = if ts = [] then .open else p.status)
    (filled : row.filledQuantity = p.filledQuantity)
    (remaining : row.remainingQuantity = p.remainingQuantity) : TakerLived p t row := by
  obtain ⟨_, sum, idle, marked⟩ := fills.progress
  refine ⟨?_, filled, remaining⟩
  by_cases none : ts = []
  · rw [if_pos none] at status
    obtain ⟨same, _⟩ := idle none
    rw [same] at filled remaining traded
    refine ⟨by omega, Or.inl status, fun _ => filled.trans fresh, fun part => ?_, ?_⟩
    · rw [status] at part
      cases part
    · rw [status]
      exact ⟨fun same => (by cases same), fun used => by omega⟩
  · have some := less none
    rw [if_neg none, marked none] at status
    by_cases used : p.remainingQuantity = 0
    · rw [if_pos used] at status
      refine ⟨by omega, Or.inr (Or.inr (Or.inl status)), fun same => ?_, fun part => ?_, ?_⟩
      · rw [status] at same
        cases same
      · rw [status] at part
        cases part
      · exact ⟨fun _ => remaining.trans used, fun _ => status⟩
    · rw [if_neg used] at status
      refine ⟨by omega, Or.inr (Or.inl status), fun same => ?_, fun _ => ?_, ?_⟩
      · rw [status] at same
        cases same
      · have nonneg := fills.progress.1 positive.le
        omega
      · rw [status, remaining]
        exact ⟨fun same => (by cases same), fun zero => absurd zero used⟩

/-- The stored orders once the fills of a placement are cleared. -/
structure ClearedLived (draft : OrderDraft) (db : Db) (order : Order) (db' : Db) : Prop where
  id : order.id = draft.id
  fresh : db.orders.get? draft.id = none
  taker : ∃ row, db'.orders.get? draft.id = some row ∧
    TakerLived order (db'.traded draft.id) row
  rows : ∀ j row, j ≠ draft.id → db.orders.get? j = some row →
    ∃ row', db'.orders.get? j = some row' ∧ row'.Lived (db'.traded j)
  closed : ∀ j row, j ≠ draft.id → db.orders.get? j = some row → row.isActive = false →
    db'.orders.get? j = some row
  absent : ∀ j, j ≠ draft.id → db.orders.get? j = none →
    db'.orders.get? j = none ∧ db'.traded j = 0

theorem clearFills_lived (accepted : acceptOrder draft db = .ok (draft.accepted, market, db₁))
    (cleared : clearFills (matchOrder draft.accepted ob).incoming
      (matchOrder draft.accepted ob).trades 0 market db₁ = .ok (order, n, market₁, db₂))
    (shows : ob.Shows v) (absent : v draft.id = none) (backs : db.Backs False draft.marketId v)
    (funded : db.Funded) (lived : db.Lived) : ClearedLived draft db order db₂ := by
  obtain ⟨v', fills, _⟩ := matchOrder_spec draft.accepted ob v shows.represents shows.exact
  generalize matchOrder draft.accepted ob = matched at *
  obtain ⟨o, ts, book⟩ := matched
  simp only at cleared fills
  have same := fills.sameOrder
  obtain ⟨id', market', _, wants, untouched, _⟩ := draft.accepted_fields
  rw [same.id] at id'
  rw [same.marketId] at market'
  have steps := clearFills_run fills same cleared
  have final := clearFills_order cleared
  have ok := acceptOrder_ok accepted
  have start := PlaceRun.funding_start draft.accepted.remainingQuantity ok id' market' absent
    backs funded
  have run := fills_lived steps start
  obtain ⟨fresh, rows⟩ := ok.get?_orders
  have got := fills_takerRow steps start.absent (by rw [rows, id', if_pos rfl])
  have kept : ∀ j, j ≠ draft.id → db₁.orders.get? j = db.orders.get? j := by
    intro j other
    rw [rows, if_neg other]
  have traded : ∀ j, db₂.traded j = db.traded j + tradedIn ts j := by
    intro j
    unfold Db.traded
    rw [clearFills_trades cleared, acceptOrder_trades accepted, tradedIn_append]
  simp only at got
  rw [id'] at got
  refine ⟨?_, fresh, ⟨_, got, ?_⟩, fun j row other stored => ?_, fun j row other stored closed => ?_,
    fun j other none => ?_⟩
  · rw [final]
    split <;> exact id'
  · have own := run.own
    have less := run.progress.2
    simp only [id'] at own less
    have positive := ok.quantity.1
    have taker : TakerLived o (db₂.traded draft.id) (if ts = [] then
        Db.insertedRow draft.accepted draft.insertedAt
        else (Db.insertedRow draft.accepted draft.insertedAt).progress o.synced) := by
      refine takerLived fills untouched (by omega) ?_ less ?_ ?_ ?_ ?_
      · rw [traded, lived.absent draft.id fresh, zero_add, own]
      · split <;> exact wants.symm
      · split <;> rfl
      · split
        · next none => rw [(fills.progress.2.2.1 none).1]; rfl
        · rfl
      · split
        · next none => rw [(fills.progress.2.2.1 none).1]; rfl
        · rfl
    have equal : order.filledQuantity = o.filledQuantity ∧
        order.remainingQuantity = o.remainingQuantity := by
      rw [final]
      split <;> exact ⟨rfl, rfl⟩
    exact ⟨taker.lived, taker.filled.trans equal.1.symm, taker.remaining.trans equal.2.symm⟩
  · have away : j ≠ o.id := id' ▸ other
    obtain ⟨row', got', lived'⟩ := run.rows j row (db.traded j) away ((kept j other).trans stored)
      (lived.rows j row stored)
    exact ⟨row', got', by rw [traded]; exact lived'⟩
  · exact run.closed j row (id' ▸ other) ((kept j other).trans stored) closed
  · obtain ⟨still, zero⟩ := run.absent j (id' ▸ other) ((kept j other).trans none)
    exact ⟨still, by rw [traded, lived.absent j none, zero, add_zero]⟩

theorem placeOrderInner_lived {placed : Placed}
    (done : placeOrderInner draft ob db = (.ok (placed, db'), ob')) (shows : ob.Shows v)
    (absent : v draft.id = none) (backs : db.Backs False draft.marketId v) (funded : db.Funded)
    (lived : db.Lived) : db'.Lived ∧ db.KeepsClosed db' := by
  obtain ⟨⟨market, db₁, order, n, market₁, db₂, order', db₃, accepted, fills, finalized, flushed,
    _⟩, _⟩ := placeOrderInner_phases done
  have cleared := clearFills_lived accepted fills shows absent backs funded lived
  have trades := finalizeOrder_trades finalized
  obtain ⟨_, final⟩ := finalizeOrder_ok finalized
  obtain ⟨markets, _, rfl⟩ := Db.flushMarket_ok flushed
  have same : ∀ j, Db.traded { db₃ with markets := markets } j = db₂.traded j := by
    intro j
    unfold Db.traded
    rw [trades]
  -- finalizing ends the order's own row at most
  obtain ⟨others, row, got, ended⟩ : (∀ j, j ≠ draft.id → db₃.orders.get? j = db₂.orders.get? j) ∧
      ∃ row, db₃.orders.get? draft.id = some row ∧ row.Lived (db₂.traded draft.id) := by
    obtain ⟨row, got, taker⟩ := cleared.taker
    split at final
    · next ioc =>
      rw [cleared.id] at final
      have rows := Table.get?_update? final.2.2
      refine ⟨fun j other => by rw [rows, if_neg other], _, by rw [rows, if_pos rfl, got]; rfl,
        taker.lived.ended ?_ rfl taker.filled.symm taker.remaining.symm⟩
      rw [Ne, taker.lived.used, taker.remaining]
      omega
    · rw [final.2.2]
      exact ⟨fun _ _ => rfl, row, got, taker.lived⟩
  refine ⟨⟨fun j stored found => ?_, fun j gone => ?_⟩, fun j stored found closed => ?_⟩
  · rw [same]
    by_cases own : j = draft.id
    · subst own
      obtain rfl := Option.some.inj (got.symm.trans found)
      exact ended
    · have after := (others j own).symm.trans found
      cases before : db.orders.get? j with
      | none =>
        rw [(cleared.absent j own before).1] at after
        cases after
      | some row₀ =>
        obtain ⟨row', got', lived'⟩ := cleared.rows j row₀ own before
        obtain rfl := Option.some.inj (got'.symm.trans after)
        exact lived'
  · rw [same]
    have own : j ≠ draft.id := by
      rintro rfl
      rw [show db₃.orders.get? draft.id = none from gone] at got
      cases got
    have after := (others j own).symm.trans gone
    cases before : db.orders.get? j with
    | none => exact (cleared.absent j own before).2
    | some row₀ =>
      obtain ⟨row', got', _⟩ := cleared.rows j row₀ own before
      rw [after] at got'
      cases got'
  · have own : j ≠ draft.id := by
      rintro rfl
      rw [cleared.fresh] at found
      cases found
    exact ⟨stored, (others j own).trans (cleared.closed j stored own found closed), rfl, rfl, rfl⟩

end Placement

section Moves

variable {db db' : Db}

private theorem Db.Lived.ends (lived : db.Lived) (trades : db'.trades = db.trades)
    (rows : ∀ j, db'.orders.get? j = db.orders.get? j ∨
      ∃ row row', db.orders.get? j = some row ∧ db'.orders.get? j = some row' ∧
        row.status ≠ .filled ∧ row'.status = .cancelled ∧
        row'.filledQuantity = row.filledQuantity ∧
        row'.remainingQuantity = row.remainingQuantity) :
    db'.Lived ∧ db.KeepsClosed db' := by
  have traded : ∀ j, db'.traded j = db.traded j := by
    intro j
    unfold Db.traded
    rw [trades]
  refine ⟨⟨fun j found got => ?_, fun j gone => ?_⟩, fun j stored got closed => ?_⟩
  · rw [traded]
    rcases rows j with same | ⟨row, row', was, now, unused, status, filled, remaining⟩
    · exact lived.rows j found (same ▸ got)
    · obtain rfl := Option.some.inj (now.symm.trans got)
      exact (lived.rows j row was).ended unused status filled remaining
  · rw [traded]
    rcases rows j with same | ⟨_, _, _, now, _⟩
    · exact lived.absent j (same ▸ gone)
    · rw [gone] at now
      cases now
  · rcases rows j with same | ⟨row, row', was, now, unused, status, filled, remaining⟩
    · exact ⟨stored, same.trans got, rfl, rfl, rfl⟩
    · obtain rfl := Option.some.inj (was.symm.trans got)
      refine ⟨row', now, ?_, filled, remaining⟩
      have known := lived.rows j row was
      rcases known.status with fresh | partly | used | cancelled
      · rw [known.active_iff.mpr (Or.inl fresh)] at closed
        cases closed
      · rw [known.active_iff.mpr (Or.inr partly)] at closed
        cases closed
      · exact absurd used unused
      · exact status.trans cancelled.symm

theorem Db.Ends.lived {id : OrderId} {row : OrderRow} (ends : db.Ends id row db')
    (unused : row.status ≠ .filled) (lived : db.Lived) : db'.Lived ∧ db.KeepsClosed db' := by
  have rows := ends.get?_orders
  obtain ⟨got, order, done⟩ := ends
  refine lived.ends (cancelInSavepoint_trades done) (fun j => ?_)
  rw [rows]
  by_cases own : j = id
  · subst own
    exact Or.inr ⟨row, _, got, if_pos rfl, unused, rfl, rfl, rfl⟩
  · exact Or.inl (if_neg own)

theorem markCancelled_trades {ids : List OrderId}
    (done : MatchingEngine.markCancelled ids db = .ok db') : db'.trades = db.trades := by
  refine foldlM_preserves (P := fun d => d.trades = db.trades) ?_ done rfl
  intro d id d' _ step same
  split at step
  · obtain rfl := Except.ok.inj step
    exact same
  · cases step

private theorem batch_lived {marketId : MarketId} {userId : UserId} {scope : CancelScope}
    (step : moveStep db (.batch marketId userId scope) db') (lived : db.Lived) :
    db'.Lived ∧ db.KeepsClosed db' := by
  obtain ⟨db₁, h, marked, _, rfl⟩ := step
  have trades : db₁.trades = db.trades := markCancelled_trades marked
  refine lived.ends trades (fun j => ?_)
  have rows := (markCancelled_ok _ marked).2.2 j
  by_cases selected : j ∈ (MatchingEngine.batchRows marketId userId scope db).map Prod.fst
  · obtain ⟨e, inside, rfl⟩ := List.mem_map.mp selected
    obtain ⟨got, _, _, active, _⟩ := MatchingEngine.mem_batchRows.mp inside
    rw [if_pos selected, got, Option.map_some] at rows
    exact Or.inr ⟨e.2, _, got, rows, OrderRow.Lived.not_filled_of_active active, rfl, rfl, rfl⟩
  · exact Or.inl (rows.trans (if_neg selected))

namespace AdminService

variable {marketId : MarketId} {outcome : OriginalSide}

theorem cancelAndUnfreeze_trades {e : OrderId × OrderRow}
    (done : cancelAndUnfreeze marketId db e = .ok db') : db'.trades = db.trades := by
  simp only [cancelAndUnfreeze, bind_eq_ok] at done
  obtain ⟨db₁, marked, moved⟩ := done
  obtain ⟨h, _, rfl⟩ := Db.onHoldings_ok moved
  split at marked
  · obtain rfl := Except.ok.inj marked
    rfl
  · cases marked

theorem settleMarket_trades (done : settleMarket marketId outcome db = .ok db') :
    db'.trades = db.trades := by
  simp only [settleMarket, bind_eq_ok] at done
  obtain ⟨h, _, done⟩ := done
  split at done
  · obtain rfl := Except.ok.inj done
    rfl
  · cases done

private theorem resolve_lived (done : resolveInTransaction marketId outcome db = .ok db')
    (lived : db.Lived) : db'.Lived ∧ db.KeepsClosed db' := by
  obtain ⟨db₁, cancelled, settled⟩ := resolveInTransaction_ok done
  have loop := foldlM_preserves (P := fun d => d.trades = db.trades ∧
      ∀ j, d.orders.get? j = db.orders.get? j ∨
        ∃ row row', db.orders.get? j = some row ∧ d.orders.get? j = some row' ∧
          row.status ≠ .filled ∧ row'.status = .cancelled ∧
          row'.filledQuantity = row.filledQuantity ∧
          row'.remainingQuantity = row.remainingQuantity) (by
    intro d e d' member step before
    obtain ⟨trades, rows⟩ := before
    refine ⟨(cancelAndUnfreeze_trades step).trans trades, fun j => ?_⟩
    have updated := Table.get?_update? (cancelAndUnfreeze_ok step).2.1 j
    by_cases here : j = e.1
    · subst here
      rw [if_pos rfl] at updated
      obtain ⟨stored, _, active⟩ := mem_openOrders.mp member
      rcases rows e.1 with same | ⟨row, row', was, now, unused, _, filled, remaining⟩
      · rw [same, stored] at updated
        exact Or.inr ⟨e.2, _, stored, updated, OrderRow.Lived.not_filled_of_active active, rfl,
          rfl, rfl⟩
      · rw [now] at updated
        exact Or.inr ⟨row, _, was, updated, unused, rfl, filled, remaining⟩
    · rw [updated, if_neg here]
      exact rows j) cancelled ⟨rfl, fun j => Or.inl rfl⟩
  refine lived.ends ((settleMarket_trades settled).trans loop.1) (fun j => ?_)
  rw [(settleMarket_ok settled).1]
  exact loop.2 j

end AdminService

private theorem moveStep_lived {m : Move} (step : moveStep db m db') (funded : db.Funded)
    (lived : db.Lived) : db'.Lived ∧ db.KeepsClosed db' := by
  cases m with
  | placed draft =>
    obtain ⟨ob, ob', placed, v, done, shows, absent, backs⟩ := step
    exact placeOrderInner_lived done shows absent backs funded lived
  | cancelled id =>
    obtain ⟨row, active, ends⟩ := step
    exact ends.lived (OrderRow.Lived.not_filled_of_active active) lived
  | retired id =>
    obtain ⟨row, unused, _, ends⟩ := step
    exact ends.lived unused lived
  | batch marketId userId scope => exact batch_lived step lived
  | privileged call =>
    refine lived.ends ?_ (fun j => Or.inl ?_)
    · rcases step with minted | burned
      · rw [minted.rest]
      · rw [burned.rest]
    · rcases step with minted | burned
      · rw [minted.rest]
      · rw [burned.rest]
  | resolved marketId outcome => exact AdminService.resolve_lived step lived

end Moves

theorem sessionStep_lived {s s' : Session} {op : SessionOp} (step : sessionStep s op s')
    (acc : s.world.Accounted False) (lived : s.world.db.Lived) :
    s'.world.db.Lived ∧ s.world.db.KeepsClosed s'.world.db := by
  rcases (sessionStep_moves step acc).2 with same | moves
  · rw [same]
    exact ⟨lived, .refl _⟩
  · have kept := moves.preserves
      (P := fun d => d.Funded ∧ d.Lived ∧ s.world.db.KeepsClosed d)
      (fun d m d' move before => by
        obtain ⟨funded, lived, closed⟩ := before
        obtain ⟨lived', closed'⟩ := moveStep_lived move funded lived
        exact ⟨moveStep_funded move funded, lived', closed.trans closed'⟩)
      ⟨acc.funded, lived, .refl _⟩
    exact kept.2

theorem session_lived {s s' : Session} {ops : List SessionOp} (run : Run sessionStep s ops s')
    (acc : s.world.Accounted False) (lived : s.world.db.Lived) :
    s'.world.Accounted False ∧ s'.world.db.Lived ∧ s.world.db.KeepsClosed s'.world.db := by
  induction run with
  | nil s => exact ⟨acc, lived, .refl _⟩
  | cons head tail ih =>
    obtain ⟨lived', closed⟩ := sessionStep_lived head acc lived
    obtain ⟨acc', lived'', closed'⟩ := ih (sessionStep_moves head acc).1 lived'
    exact ⟨acc', lived'', closed.trans closed'⟩

theorem Session.Opening.lived {s : Session} (opening : s.Opening)
    (untraded : s.world.db.trades = []) : s.world.db.Lived := by
  constructor
  · intro id row got
    have stored := Table.mem_iff.mpr got
    rw [opening.orders] at stored
    cases stored
  · intro id _
    unfold Db.traded
    rw [untraded]
    rfl

/-- Order life cycle and fill accounting: in every state of a session, each stored
order is what the trades that name it make of it, and once it is filled or cancelled
it stays so in every later state. -/
theorem order_life_cycle {s s' : Session} {ops : List SessionOp} (opening : s.Opening)
    (untraded : s.world.db.trades = []) (run : Run sessionStep s ops s') :
    (∀ id row, s'.world.db.orders.get? id = some row →
      row.filledQuantity + row.remainingQuantity = row.quantity ∧
      row.filledQuantity = ((s'.world.db.trades.filter (fun t =>
        t.trade.buyOrderId = id ∨ t.trade.sellOrderId = id)).map (fun t => t.trade.quantity)).sum ∧
      (row.status = .open → row.filledQuantity = 0) ∧
      (row.status = .partiallyFilled →
        0 < row.filledQuantity ∧ row.filledQuantity < row.quantity) ∧
      (row.status = .filled ↔ row.remainingQuantity = 0)) ∧
    ∀ ops' s'', Run sessionStep s' ops' s'' → ∀ id row,
      s'.world.db.orders.get? id = some row → row.status = .filled ∨ row.status = .cancelled →
      ∃ row', s''.world.db.orders.get? id = some row' ∧ row'.status = row.status ∧
        row'.filledQuantity = row.filledQuantity ∧
        row'.remainingQuantity = row.remainingQuantity := by
  obtain ⟨acc, lived, _⟩ := session_lived run opening.accounted (opening.lived untraded)
  constructor
  · intro id row got
    have row_lived := lived.rows id row got
    have sum := (Table.check got).filled_add_remaining
    refine ⟨sum, ?_, row_lived.untouched, row_lived.partly, row_lived.used⟩
    rw [row_lived.traded, Db.traded, tradedIn, List.filter_map, List.map_map]
    rfl
  · intro ops' s'' later id row got closed
    refine (session_lived later acc lived).2.2 id row got ?_
    rcases closed with status | status <;> simp [OrderRow.isActive, status, OrderStatus.isActive]

/-- A sale of four shares after the first of them, and the filled purchase after the
rest is cancelled. -/
theorem partial_sale_life_cycle :
    let s' := (pairMarket.next sellFourYes).next buyOneYes
    (∃ row, s'.world.db.orders.get? 1 = some row ∧ row.status = .partiallyFilled ∧
      0 < row.filledQuantity ∧ row.filledQuantity < row.quantity) ∧
    ∃ row', (s'.next (.cancel 1 "alice")).world.db.orders.get? 2 = some row' ∧
      row'.status = .filled := by
  intro s'
  have run : Run sessionStep pairMarket [sellFourYes, buyOneYes] s' := .cons rfl (.single rfl)
  obtain ⟨rows, closed⟩ := order_life_cycle pairMarket_opening rfl run
  have sale : (s'.world.db.orders.get? 1).map OrderRow.status = some .partiallyFilled := by
    decide +kernel
  have purchase : (s'.world.db.orders.get? 2).map OrderRow.status = some .filled := by
    decide +kernel
  obtain ⟨row, got, status⟩ := Option.map_eq_some_iff.mp sale
  obtain ⟨_, _, _, partly, _⟩ := rows 1 row got
  obtain ⟨bought, got₂, status₂⟩ := Option.map_eq_some_iff.mp purchase
  obtain ⟨row', after, same, _⟩ := closed [.cancel 1 "alice"] _ (.single rfl) 2 bought got₂
    (Or.inl status₂)
  exact ⟨⟨row, got, status, partly status⟩, row', after, same.trans status₂⟩

end PredictionMarket
