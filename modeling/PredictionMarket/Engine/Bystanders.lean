/- PredictionMarket/Engine/Bystanders
   digest: What a placement leaves to everybody but its user and the platform. -/

import PredictionMarket.Engine.LeftoverFunds
import PredictionMarket.Engine.PlaceFrames
import PredictionMarket.Engine.Sessions

set_option autoImplicit false
set_option relaxedAutoImplicit false

namespace PredictionMarket

open Library

structure OrderRow.Priced (r : OrderRow) : Prop where
  asset : r.frozenAssetType = r.bookType.frozenAsset
  price : r.bookType.paysCash = true → r.bookType.pays r.bookPrice = r.originalPrice

/-- The book of a market agrees with the orders table: it shows the active orders, and the
orders are at the prices that their users gave. -/
structure World.Agrees (w : World) (m : MarketId) : Prop where
  shows : w.InSync m
  priced : ∀ id row, w.db.orders.get? id = some row → row.marketId = m → row.Priced

/-- The value of a fill at the limit of its maker's order, if that is an order of `user`
with frozen funds. -/
def Db.limitValue (db : Db) (user : UserId) (t : TradeResult) : Int :=
  (db.orders.get? t.makerOrderId).elim 0 (fun row =>
    if row.userId = user ∧ row.frozenAssetType = .funds then row.originalPrice * t.quantity else 0)

/-- One of the fills has an order of `user` as its maker. -/
def Db.MakerIn (db : Db) (user : UserId) (ts : List TradeResult) : Prop :=
  ∃ t ∈ ts, ∃ row, db.orders.get? t.makerOrderId = some row ∧ row.userId = user

/-- Everything of the markets other than `m` is as it was. -/
structure World.SameBeyond (w : World) (m : MarketId) (w' : World) : Prop where
  books : ∀ i, i ≠ m → w'.orderbooks i = w.orderbooks i
  markets : ∀ i, i ≠ m → w'.db.markets.get? i = w.db.markets.get? i
  positions : ∀ user i, i ≠ m →
    w'.db.holdings.positions.get? (user, i) = w.db.holdings.positions.get? (user, i)
  orders : ∀ id row, row.marketId ≠ m →
    (w'.db.orders.get? id = some row ↔ w.db.orders.get? id = some row)

/-- What fills may do to a user that is neither their taker nor the platform: out of its
frozen cash they pay for its own orders at its own limits, and nothing else is taken. -/
structure World.Protects (w : World) (user : UserId) (ts : List TradeResult) (w' : World) :
    Prop where
  balances : ∀ a, w.db.holdings.accounts.get? user = some a →
    ∃ a', w'.db.holdings.accounts.get? user = some a' ∧
      a.availableBalance ≤ a'.availableBalance ∧
      a'.frozenBalance = a.frozenBalance - (ts.map (w.db.limitValue user)).sum
  bystander : ¬ w.db.MakerIn user ts →
    w'.db.holdings.accounts.get? user = w.db.holdings.accounts.get? user ∧
    (∀ i, w'.db.holdings.positions.get? (user, i) = w.db.holdings.positions.get? (user, i)) ∧
    ∀ id row, row.userId = user →
      (w'.db.orders.get? id = some row ↔ w.db.orders.get? id = some row)

private theorem OrderRow.Funded.priced {r : OrderRow} (funded : r.Funded) : r.Priced :=
  ⟨funded.asset, funded.price⟩

section Cash

variable {h h' h'' : Holdings} {user : UserId}

def Holdings.KeepsCash (user : UserId) (h h' : Holdings) : Prop :=
  ∀ a, h.accounts.get? user = some a →
    ∃ a', h'.accounts.get? user = some a' ∧ a.availableBalance ≤ a'.availableBalance

private theorem Holdings.KeepsCash.of_accounts (same : h'.accounts = h.accounts) :
    KeepsCash user h h' :=
  fun a got => ⟨a, by rw [same, got], le_rfl⟩

private theorem Holdings.KeepsCash.updateAccount {userId : UserId} {f : AccountRow → AccountRow}
    (done : h.updateAccount userId f = .ok h')
    (enough : user = userId → ∀ a, a.availableBalance ≤ (f a).availableBalance) :
    KeepsCash user h h' := by
  intro a got
  refine ⟨_, Holdings.row_updateAccount done got, ?_⟩
  split
  · next same => exact enough same a
  · exact le_rfl

private theorem Holdings.keepsCash_respected (user : UserId) (m : MarketId) :
    Respected (fun _ => True) (fun other => other ≠ user) m (KeepsCash user) where
  refl _ := .of_accounts rfl
  trans first second := by
    intro a got
    obtain ⟨a', got', more⟩ := first a got
    obtain ⟨a'', got'', more'⟩ := second a' got'
    exact ⟨a'', got'', more.trans more'⟩
  debit _ gives done := .updateAccount done (fun same a =>
    le_add_of_nonneg_right (gives.resolve_right (fun other => other same.symm)))
  credit _ gives done := .updateAccount done (fun same a =>
    le_add_of_nonneg_right (gives.resolve_right (fun other => other same.symm)))
  buy _ done := .of_accounts (Holdings.addVolume_ok done).1
  update _ done := .of_accounts (Holdings.updatePosition_ok done).1

end Cash

section Terms

def OrderRow.terms (r : OrderRow) : OrderRow :=
  { r with status := .open, filledQuantity := 0, remainingQuantity := 0, frozenAmount := 0 }

private theorem OrderRow.column_eq {row row' : OrderRow} {α : Type} (same : row.terms = row'.terms)
    (column : OrderRow → α) : column row.terms = column row'.terms := congrArg column same

def Db.SameTerms (db db' : Db) : Prop :=
  ∀ j, (db'.orders.get? j).map OrderRow.terms = (db.orders.get? j).map OrderRow.terms

variable {db db' db'' : Db}

private theorem Db.SameTerms.trans (first : db.SameTerms db') (second : db'.SameTerms db'') :
    db.SameTerms db'' := fun j => (second j).trans (first j)

private theorem Db.SameTerms.row (same : db.SameTerms db') {j : OrderId} {row' : OrderRow}
    (got : db'.orders.get? j = some row') :
    ∃ row, db.orders.get? j = some row ∧ row.terms = row'.terms :=
  Table.row_of_map (same j) got

private theorem Finalized.sameTerms {order order' : Order} (final : Finalized order db order' db') :
    db.SameTerms db' ∧ ∀ j, j ≠ order.id → db'.orders.get? j = db.orders.get? j := by
  refine ⟨final.column (fun _ _ => rfl), fun j other => ?_⟩
  obtain ⟨_, final⟩ := final
  split at final
  · rw [Table.get?_update? final.2.2, if_neg other]
  · rw [final.2.2]

private theorem FillStep.sameTerms {order : Order} {s s' : FillState} {id : OrderId} {r : Resting}
    (step : FillStep order s id r s') : s.db.SameTerms s'.db := by
  obtain ⟨orders, taker, maker⟩ := step.run.orders
  intro j
  rw [Table.map_get?_update? maker (fun _ => rfl), Table.map_get?_update? taker (fun _ => rfl)]

end Terms

section Market

variable {trade : TradeResult} {market market' : MarketState} {h h' : Holdings}

theorem settleTrade_id {pnl : RealizedPnl}
    (done : settleTrade trade market h = .ok (pnl, market', h')) : market'.id = market.id := by
  cases settleTrade_ok done with
  | mint _ ran =>
    obtain ⟨_, _, rfl⟩ := clearMint_ok ran
    rfl
  | transferYes _ ran =>
    obtain ⟨h₁, h₂, h₃, row, _, _, _, _, _, _, rfl⟩ := clearTransfer_ok ran
    rfl
  | transferNo _ ran =>
    obtain ⟨h₁, h₂, h₃, row, _, _, _, _, _, _, rfl⟩ := clearTransfer_ok ran
    rfl
  | burn _ ran =>
    obtain ⟨yesRow, noRow, h₁, h₂, h₃, _, _, _, _, _, _, _, _, _, _, _, rfl⟩ := clearBurn_ok ran
    rfl

theorem executeNetting_id {userId : UserId} {marketId : MarketId} {qty : Int}
    (done : executeNettingIfNeeded userId marketId market h = .ok (qty, market', h')) :
    market'.id = market.id := by
  rcases executeNettingIfNeeded_ok done with ⟨_, _, rfl, _⟩ |
    ⟨row, h₁, _, _, _, _, _, _, _, _, _, _, rfl⟩
  · rfl
  · rfl

end Market

def paidIn (ts : List TradeResult) (user : UserId) : Int :=
  (ts.map (fun t => if user = t.makerUserId then t.makerCost else 0)).sum

/-- The maker of a fill is the user of a stored order of the market, which pays at the price
of its row. -/
structure OrderRow.Makes (row : OrderRow) (m : MarketId) (t : TradeResult) : Prop where
  market : row.marketId = m
  user : row.userId = t.makerUserId
  cost : t.makerCost = row.bookType.pays row.bookPrice * t.quantity

/-- What the fills of a placement leave of the tables, the rows of their users apart. -/
structure FillsKept (order : Order) (ts : List TradeResult) (s s' : FillState) : Prop where
  markets : s'.db.markets = s.db.markets
  id : s'.market.id = s.market.id
  terms : s.db.SameTerms s'.db
  rows : ∀ j, j ≠ order.id → (∀ t ∈ ts, t.makerOrderId ≠ j) →
    s'.db.orders.get? j = s.db.orders.get? j
  makers : ∀ t ∈ ts, t.makerOrderId ≠ order.id ∧
    ∃ row, s.db.orders.get? t.makerOrderId = some row ∧ row.Makes order.marketId t
  drawn : ∃ own, s.db.holdings.Draws
    (fun user => (if user = order.userId then own else 0) + paidIn ts user) s'.db.holdings

section Fills

variable {order : Order} {start : Db} {s s' : FillState} {id : OrderId} {r : Resting}

private theorem OrderRow.Makes.of_terms {row row' : OrderRow} {m : MarketId} {t : TradeResult}
    (makes : row'.Makes m t) (same : row.terms = row'.terms) : row.Makes m t := by
  have market : row.marketId = row'.marketId := OrderRow.column_eq same OrderRow.marketId
  have user : row.userId = row'.userId := OrderRow.column_eq same OrderRow.userId
  have type : row.bookType = row'.bookType := OrderRow.column_eq same OrderRow.bookType
  have price : row.bookPrice = row'.bookPrice := OrderRow.column_eq same OrderRow.bookPrice
  exact ⟨market.trans makes.market, user.trans makes.user, by rw [type, price]; exact makes.cost⟩

private theorem FillStep.maker (step : FillStep order s id r s') (mirrors : Mirrors order start s)
    (other : id ≠ order.id) : ∃ row, s.db.orders.get? id = some row ∧
      row.Makes order.marketId (tradeOf order id r (s.take r)) := by
  obtain ⟨row, got, market, _, rfl⟩ :=
    Db.resting_eq_some.mp ((mirrors.same id other).trans step.here)
  obtain ⟨user, type⟩ := tradeOf_maker row.resting (s.take row.resting) other
  refine ⟨row, got, market, user.symm, ?_⟩
  rw [TradeResult.makerCost, type, tradeOf_price, tradeOf_quantity]
  rfl

private theorem fills_kept {ts : List TradeResult} (run : Run (fillSteps order) s ts s')
    (mirrors : Mirrors order start s) : FillsKept order ts s s' := by
  induction run with
  | nil s =>
    refine ⟨rfl, rfl, fun _ => rfl, fun _ _ _ => rfl, by simp, 0, ?_⟩
    refine (Holdings.Draws.of_same (.refl _)).congr (fun user => ?_)
    simp [paidIn]
  | @cons s t u a as head tail ih =>
    have kept := ih (Mirrors.step head mirrors)
    obtain ⟨id, r, step, rfl⟩ := head
    obtain ⟨other, _⟩ := step.absent mirrors.absent
    obtain ⟨row, got, makes⟩ := step.maker mirrors other
    have terms := step.sameTerms
    obtain ⟨pnl, market₁, h₁, fee, h₂, nq, settled, _, netted, _⟩ := step.run.settled
    refine ⟨kept.markets.trans step.run.markets, ?_, terms.trans kept.terms, ?_, ?_, ?_⟩
    · exact kept.id.trans ((executeNetting_id netted).trans (settleTrade_id settled))
    · intro j taker untaken
      have maker : id ≠ j := by
        have head := untaken _ List.mem_cons_self
        rwa [tradeOf_makerOrderId] at head
      rw [kept.rows j taker (fun t member => untaken t (List.mem_cons_of_mem _ member)),
        step.get?_orders other, if_neg maker.symm, if_neg taker]
    · refine List.forall_mem_cons.mpr ⟨?_, fun t member => ?_⟩
      · rw [tradeOf_makerOrderId]
        exact ⟨other, row, got, makes⟩
      · obtain ⟨away, row', got', makes'⟩ := kept.makers t member
        obtain ⟨before, was, same⟩ := terms.row got'
        exact ⟨away, before, was, makes'.of_terms same⟩
    · obtain ⟨own, drawn⟩ := kept.drawn
      refine ⟨order.cost s.market.takerFeeBps (tradeOf order id r (s.take r)) + own,
        ((step.draws other).1.trans drawn).congr (fun user => ?_)⟩
      simp only [paidIn, List.map_cons, List.sum_cons, (tradeOf_maker r (s.take r) other).1]
      split_ifs <;> omega

end Fills

section Placement

variable {draft : OrderDraft} {ob ob' : OrderBook} {db db' : Db} {placed : Placed}

/-- What a placement by `user` in market `m`, with fills `ts`, leaves of the tables, the
accounts and positions apart. -/
structure PlacementKept (id : OrderId) (user : UserId) (m : MarketId) (ts : List TradeResult)
    (db db' : Db) : Prop where
  markets : ∀ i, i ≠ m → db'.markets.get? i = db.markets.get? i
  fresh : db.orders.get? id = none
  own : ∀ row, db'.orders.get? id = some row → row.userId = user ∧ row.marketId = m
  terms : ∀ j, j ≠ id → ∀ row', db'.orders.get? j = some row' →
    ∃ row, db.orders.get? j = some row ∧ row.terms = row'.terms
  rows : ∀ j, j ≠ id → (∀ t ∈ ts, t.makerOrderId ≠ j) →
    db'.orders.get? j = db.orders.get? j
  makers : ∀ t ∈ ts, ∃ row, db.orders.get? t.makerOrderId = some row ∧ row.Makes m t
  frozen : ∀ v, v ≠ user → db.holdings.HasAccount v →
    db'.holdings.frozenOf v = db.holdings.frozenOf v - paidIn ts v

private theorem frozenOf_of_touches {h h' : Holdings} {user v : UserId} {m : MarketId}
    (touches : Holdings.Touches (fun other => other = user) m h h') (other : v ≠ user) :
    h'.frozenOf v = h.frozenOf v ∧ (h'.HasAccount v ↔ h.HasAccount v) := by
  unfold Holdings.frozenOf Holdings.HasAccount
  rw [touches.accounts v other]
  exact ⟨rfl, Iff.rfl⟩

private theorem placeOrderInner_kept (done : placeOrderInner draft ob db = (.ok (placed, db'), ob'))
    (shows : ob.Shows (db.resting draft.marketId)) :
    PlacementKept draft.id draft.userId draft.marketId placed.trades db db' := by
  obtain ⟨o, order, order', left, market, market₁, v', db₁, db₂, db₃, same, same', accepted, fills,
    finalized, flushed⟩ := placeOrderInner_fills done shows
  obtain ⟨sameId, sameMarket, sameUser, _⟩ := draft.accepted_fields
  have ok := acceptOrder_ok accepted
  obtain ⟨fresh, rows⟩ := ok.get?_orders
  have final := finalizeOrder_ok finalized
  obtain ⟨terms₃, rows₃⟩ := final.sameTerms
  have oid : o.id = draft.id := same.id.trans sameId
  have omarket : o.marketId = draft.marketId := same.marketId.trans sameMarket
  have ouser : o.userId = draft.userId := same.userId.trans sameUser
  have start := ok.mirrors draft.quantity oid omarket
  have kept := fills_kept fills start
  obtain ⟨markets, updated, rfl⟩ := Db.flushMarket_ok flushed
  have home : market₁.id = draft.marketId := by
    obtain ⟨row, _, _, rfl⟩ := ok.active
    exact kept.id
  have terms : db₁.SameTerms db₃ := kept.terms.trans terms₃
  refine ⟨fun i away => ?_, fresh, fun row got => ?_, fun j other row' got => ?_,
    fun j other untaken => ?_, fun t member => ?_, fun v other there => ?_⟩
  · rw [Table.get?_update? updated, if_neg (home ▸ away), final.1, kept.markets, ok.markets]
  · obtain ⟨before, was, column⟩ := terms.row got
    rw [rows, if_pos rfl] at was
    obtain rfl := Option.some.inj was
    exact ⟨(OrderRow.column_eq column OrderRow.userId).symm.trans sameUser,
      (OrderRow.column_eq column OrderRow.marketId).symm.trans sameMarket⟩
  · obtain ⟨row, was, column⟩ := terms.row got
    rw [rows, if_neg other] at was
    exact ⟨row, was, column⟩
  · have taker : j ≠ order.id := by
      rw [same'.id, sameId]
      exact other
    exact (rows₃ j taker).trans ((kept.rows j (oid ▸ other) untaken).trans
      (by rw [rows, if_neg other]))
  · obtain ⟨other, row, got, makes⟩ := kept.makers t member
    rw [rows, if_neg (oid ▸ other)] at got
    exact ⟨row, got, omarket ▸ makes⟩
  · have accepts : db.holdings.Touches (fun user => user = draft.userId) draft.marketId
        db₁.holdings :=
      acceptOrder_respected (Holdings.touches_respected _ _) rfl trivial accepted
    have finalizes : db₂.holdings.Touches (fun user => user = order.userId) order.marketId
        db₃.holdings :=
      finalizeOrder_respected (Holdings.touches_respected _ _) rfl trivial finalized
    have before := frozenOf_of_touches accepts other
    have after := frozenOf_of_touches finalizes (by rw [same'.userId, sameUser]; exact other)
    obtain ⟨own, drawn⟩ := kept.drawn
    have during := drawn.frozen v (before.2.mpr there)
    rw [if_neg (ouser ▸ other), zero_add] at during
    rw [← before.1]
    exact after.1.trans during

end Placement

namespace PlacementKept

variable {id : OrderId} {user v : UserId} {m : MarketId} {ts : List TradeResult} {db db' : Db}

private theorem orders_beyond (kept : PlacementKept id user m ts db db') {j : OrderId}
    {row : OrderRow}
    (away : row.marketId ≠ m) :
    db'.orders.get? j = some row ↔ db.orders.get? j = some row := by
  have untaken : ∀ row₀, db.orders.get? j = some row₀ → row₀.marketId ≠ m →
      ∀ t ∈ ts, t.makerOrderId ≠ j := by
    rintro row₀ got beyond t member rfl
    obtain ⟨row', got', makes⟩ := kept.makers t member
    obtain rfl := Option.some.inj (got.symm.trans got')
    exact beyond makes.market
  constructor
  · intro got
    have other : j ≠ id := by
      rintro rfl
      exact away (kept.own row got).2
    obtain ⟨before, was, same⟩ := kept.terms j other row got
    have beyond : before.marketId ≠ m :=
      fun here => away ((OrderRow.column_eq same OrderRow.marketId).symm.trans here)
    rw [← kept.rows j other (untaken before was beyond)]
    exact got
  · intro got
    have other : j ≠ id := by
      rintro rfl
      exact absurd (kept.fresh.symm.trans got) (by simp)
    rw [kept.rows j other (untaken row got away)]
    exact got

private theorem orders_bystander (kept : PlacementKept id user m ts db db') (other : v ≠ user)
    (idle : ¬ db.MakerIn v ts) {j : OrderId} {row : OrderRow} (mine : row.userId = v) :
    db'.orders.get? j = some row ↔ db.orders.get? j = some row := by
  have untaken : ∀ row₀, db.orders.get? j = some row₀ → row₀.userId = v →
      ∀ t ∈ ts, t.makerOrderId ≠ j := by
    rintro row₀ got owned t member rfl
    exact idle ⟨t, member, row₀, got, owned⟩
  constructor
  · intro got
    have away : j ≠ id := by
      rintro rfl
      exact other (mine.symm.trans (kept.own row got).1)
    obtain ⟨before, was, same⟩ := kept.terms j away row got
    have owned : before.userId = v := (OrderRow.column_eq same OrderRow.userId).trans mine
    rw [← kept.rows j away (untaken before was owned)]
    exact got
  · intro got
    have away : j ≠ id := by
      rintro rfl
      exact absurd (kept.fresh.symm.trans got) (by simp)
    rw [kept.rows j away (untaken row got mine)]
    exact got

private theorem makers_ne (kept : PlacementKept id user m ts db db') (idle : ¬ db.MakerIn v ts) :
    ∀ t ∈ ts, t.makerUserId ≠ v := by
  rintro t member rfl
  obtain ⟨row, got, makes⟩ := kept.makers t member
  exact idle ⟨t, member, row, got, makes.user⟩

private theorem paidIn_eq (kept : PlacementKept id user m ts db db')
    (priced : ∀ j row, db.orders.get? j = some row → row.marketId = m → row.Priced) :
    paidIn ts v = (ts.map (db.limitValue v)).sum := by
  unfold paidIn
  refine congrArg List.sum (List.map_congr_left (fun t member => ?_))
  obtain ⟨row, got, makes⟩ := kept.makers t member
  have terms := priced _ row got makes.market
  rw [Db.limitValue, got, Option.elim_some, makes.user, makes.cost, terms.asset]
  simp only [BookType.frozenAsset_eq_funds]
  by_cases cash : row.bookType.paysCash = true
  · simp only [terms.price cash, cash, and_true, eq_comm]
  · have shares : row.bookType.paysCash = false := by simpa using cash
    simp [BookType.pays_of_shares shares, shares]

end PlacementKept

def BookOp.request : BookOp → SessionOp
  | .place req userId clock => .place req userId clock
  | .cancel orderId userId => .cancel orderId userId
  | .replace oldOrderId req userId clock => .replace oldOrderId req userId clock
  | .batchCancel marketId userId scope => .batchCancel marketId userId scope

private theorem committed_sessionStep {w w' : World} {op : BookOp} (step : committed w op w')
    (inserted : List AmmRow) : sessionStep ⟨w, inserted⟩ op.request ⟨w', inserted⟩ := by
  cases op <;> obtain ⟨_, done⟩ := step <;> simp [sessionStep, BookOp.request, Session.next, done]

private theorem World.agrees_of_run {w w' : World} {ops : List BookOp}
    (opening : Session.Opening ⟨w, []⟩)
    (run : Run committed w ops w') (m : MarketId) : w'.Agrees m := by
  have books : ∀ i, w.orderbooks i = none := opening.books
  have start : (∀ i, w.InSync i) ∧ w.Accounted False :=
    ⟨World.inSync_of_empty (fun i => by simp [World.getOrCreateOrderbook, books])
      opening.orders, opening.accounted⟩
  obtain ⟨sync, acc⟩ := run.preserves (P := fun v => (∀ i, v.InSync i) ∧ v.Accounted False)
    (fun _ _ _ step both => ⟨committed_inSync step both.1,
      (sessionStep_moves (committed_sessionStep step []) both.2).1⟩) start
  exact ⟨sync m, fun id row got _ => (acc.funded id row got).priced⟩

/-- A placement touches no other market, and protects everybody but its user and the
platform. -/
theorem placement_protects_others {w w' : World} {draft : OrderDraft} {placed : Placed}
    (agrees : w.Agrees draft.marketId)
    (done : MatchingEngine.placeOrder draft w = (.ok placed, w')) :
    w.SameBeyond draft.marketId w' ∧
      ∀ v, v ≠ draft.userId → v ≠ PLATFORM_FEE_USER_ID → w.Protects v placed.trades w' := by
  unfold MatchingEngine.placeOrder at done
  split at done
  · next placed' db ob inner =>
    simp only [Prod.mk.injEq, Except.ok.injEq] at done
    obtain ⟨rfl, rfl⟩ := done
    have kept := placeOrderInner_kept inner agrees.shows
    have absent : w.db.resting draft.marketId draft.id = none := by
      simp [Db.resting, kept.fresh]
    have touches : ∀ users : UserId → Prop, users draft.userId → users PLATFORM_FEE_USER_ID →
        (∀ t ∈ placed'.trades, users t.makerUserId) →
        w.db.holdings.Touches users draft.marketId db.holdings := fun users own platform makers =>
      placeOrderInner_respected (Holdings.touches_respected users _) inner agrees.shows absent own
        trivial platform trivial makers
    constructor
    · have all := touches (fun _ => True) trivial trivial (fun _ _ => trivial)
      exact ⟨fun i away => by simp [World.keepBook, away], kept.markets,
        fun user i away => all.positions user i (fun here => away here.2),
        fun j row away => kept.orders_beyond away⟩
    · intro v other fee
      constructor
      · intro a got
        have keeps : Holdings.KeepsCash v w.db.holdings db.holdings :=
          placeOrderInner_respected (Holdings.keepsCash_respected v _) inner agrees.shows absent
            trivial other.symm trivial fee.symm (fun _ _ => trivial)
        obtain ⟨a', got', more⟩ := keeps a got
        have frozen := kept.frozen v other (by simp [Holdings.HasAccount, got])
        simp only [Holdings.frozenOf, got, got', Option.map_some, Option.getD_some] at frozen
        exact ⟨a', got', more, frozen.trans (by rw [kept.paidIn_eq agrees.priced])⟩
      · intro idle
        have others := touches (fun user => user ≠ v) other.symm fee.symm (kept.makers_ne idle)
        exact ⟨others.accounts v (fun here => here rfl),
          fun i => others.positions v i (fun here => here.1 rfl),
          fun j row mine => kept.orders_bystander other idle mine⟩
  · cases done

section Example

private def bobsBid : BookOp := .place ⟨"c2", "m", .no, .buy, 70, 10, .gtc⟩ "bob" ⟨0, 0⟩

theorem maker_pays_own_limit : ∃ w w' placed, Run committed twoTraders [bobsBid] w ∧
    MatchingEngine.placeOrder (buyTenYes.draft 2 "alice" ⟨1, 1⟩) w = (.ok placed, w') ∧
    (placed.trades.map (w.db.limitValue "bob")).sum = 700 ∧
    w.Protects "bob" placed.trades w' := by
  let first := OrderService.placeOrder ⟨"c2", "m", .no, .buy, 70, 10, .gtc⟩ "bob" ⟨0, 0⟩ .none
    twoTraders
  have rests : first.1.isOk = true := by decide +kernel
  obtain ⟨bid, done⟩ := exists_of_isOk rests
  have run : Run committed twoTraders [bobsBid] first.2 := .single ⟨bid, Prod.ext done rfl⟩
  have agrees := World.agrees_of_run ⟨rfl, fun _ => rfl⟩ run "m"
  have fills : (MatchingEngine.placeOrder (buyTenYes.draft 2 "alice" ⟨1, 1⟩) first.2).1.isOk =
      true := by decide +kernel
  have value : (MatchingEngine.placeOrder (buyTenYes.draft 2 "alice" ⟨1, 1⟩)
      first.2).1.toOption.map (fun p => (p.trades.map (first.2.db.limitValue "bob")).sum) =
        some 700 := by decide +kernel
  clear_value first
  cases done' : MatchingEngine.placeOrder (buyTenYes.draft 2 "alice" ⟨1, 1⟩) first.2 with
  | mk outcome w' =>
    rw [done'] at fills value
    obtain ⟨placed, rfl⟩ := exists_of_isOk fills
    obtain ⟨_, protects⟩ := placement_protects_others agrees done'
    exact ⟨first.2, w', placed, run, done', Option.some.inj value,
      protects "bob" (by decide) (by decide)⟩

end Example

end PredictionMarket
