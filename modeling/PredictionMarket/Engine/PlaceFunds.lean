/- PredictionMarket/Engine/PlaceFunds
   digest: What a whole placement leaves over in the frozen balances. -/

import PredictionMarket.Engine.FillFunds
import PredictionMarket.Engine.BookSimulation

set_option autoImplicit false
set_option relaxedAutoImplicit false

namespace PredictionMarket

open Library

def Db.Funded (db : Db) : Prop := ∀ id row, db.orders.get? id = some row → row.Funded

theorem OrderDraft.accepted_funds (draft : OrderDraft) :
    draft.accepted.frozenAssetType = draft.accepted.bookType.frozenAsset ∧
      draft.accepted.frozenAmount =
        draft.accepted.bookType.frozenFor draft.originalPrice draft.quantity ∧
      draft.accepted.originalPrice = draft.originalPrice ∧
      (draft.accepted.bookType.paysCash = true →
        draft.accepted.bookType.pays draft.accepted.bookPrice = draft.originalPrice) := by
  refine ⟨rfl, rfl, rfl, ?_⟩
  unfold OrderDraft.accepted OrderDraft.toOrder
  cases draft.originalSide <;> cases draft.originalDirection <;>
    simp [transformOrder, BookType.paysCash, BookType.pays]

theorem OrderDraft.insertedRow_funded (draft : OrderDraft) :
    (Db.insertedRow draft.accepted draft.insertedAt).Funded := by
  obtain ⟨asset, amount, price, pays⟩ := draft.accepted_funds
  exact ⟨asset, pays, fun _ => amount⟩

structure TakerRow (draft : OrderDraft) (o : Order) (row : OrderRow) : Prop where
  funded : row.Funded
  active : row.isActive = true ↔ 0 < o.remainingQuantity
  marketId : row.marketId = draft.marketId
  userId : row.userId = draft.userId
  bookType : row.bookType = draft.accepted.bookType
  originalPrice : row.originalPrice = draft.originalPrice
  remaining : row.remainingQuantity = o.remainingQuantity
  rests : 0 < o.remainingQuantity → row.resting =
    ⟨o.userId, o.bookType, o.bookDirection, o.bookPrice, o.remainingQuantity⟩

theorem Fills.takerRow {draft : OrderDraft} {v v' : RestingOrders} {ts : List TradeResult}
    {o : Order} (fills : Fills draft.accepted v ts o v') (positive : 1 ≤ draft.quantity) :
    TakerRow draft o (if ts = [] then Db.insertedRow draft.accepted draft.insertedAt
      else (Db.insertedRow draft.accepted draft.insertedAt).progress o.synced) := by
  have view := PlaceRun.restsIn_afterFills fills positive
  have home : (if ts = [] then Db.insertedRow draft.accepted draft.insertedAt
      else (Db.insertedRow draft.accepted draft.insertedAt).progress o.synced).marketId =
        draft.marketId := by
    split <;> exact draft.accepted_fields.2.1
  have active : (if ts = [] then Db.insertedRow draft.accepted draft.insertedAt
      else (Db.insertedRow draft.accepted draft.insertedAt).progress o.synced).isActive = true ↔
        0 < o.remainingQuantity := by
    constructor
    · intro rests
      rw [OrderRow.restsIn, if_pos ⟨home, rests⟩] at view
      by_contra used
      rw [if_neg used] at view
      cases view
    · intro left
      rw [if_pos left] at view
      exact (OrderRow.restsIn_eq_some.mp view).2.1
  have rests : 0 < o.remainingQuantity → (if ts = [] then
      Db.insertedRow draft.accepted draft.insertedAt
      else (Db.insertedRow draft.accepted draft.insertedAt).progress o.synced).resting =
        ⟨o.userId, o.bookType, o.bookDirection, o.bookPrice, o.remainingQuantity⟩ := by
    intro left
    rw [if_pos left] at view
    exact (OrderRow.restsIn_eq_some.mp view).2.2
  have kinds := fills.incoming
  by_cases idle : ts = []
  · simp only [idle, if_true] at active home rests ⊢
    rw [(fills.progress.2.2.1 idle).1] at active rests ⊢
    exact ⟨draft.insertedRow_funded, active, home, rfl, rfl, rfl,
      draft.accepted_fields.2.2.2.2.2.1.trans draft.accepted_fields.2.2.2.1.symm, rests⟩
  · simp only [idle, if_false] at active home rests ⊢
    refine ⟨draft.insertedRow_funded.progress ?_ ?_ ?_ ?_, active, home, rfl, rfl, rfl, rfl,
      rests⟩
    all_goals
      rw [kinds]
      rfl

private theorem Fills.shrinks {o p : Order} {v v' : RestingOrders} {ts : List TradeResult}
    (fills : Fills o v ts p v') : ∀ j x, v' j = some x →
      ∃ y, v j = some y ∧ x.quantity ≤ y.quantity ∧ x = { y with quantity := x.quantity } := by
  induction fills with
  | done o v =>
    intro j x here
    exact ⟨x, here, le_rfl, rfl⟩
  | @fill o o' v v' id r ts here stranger facing crosses wants rest ih =>
    intro j x after
    obtain ⟨y, between, less, same⟩ := ih j x after
    by_cases maker : j = id
    · subst maker
      simp only [RestingOrders.fill, here, Option.bind_some, Function.update_self] at between
      split at between
      · cases between
      · next left =>
        obtain rfl := Option.some.inj between
        simp only at less
        exact ⟨r, here, by omega, same⟩
    · have kept : v j = some y := by simpa [RestingOrders.fill, maker] using between
      exact ⟨y, kept, less, same⟩

private theorem TakerRow.locks {draft : OrderDraft} {o : Order} {row : OrderRow}
    (taker : TakerRow draft o row) (nonneg : 0 ≤ o.remainingQuantity) (user : UserId) :
    row.locks user = if user = draft.userId ∧ draft.accepted.bookType.paysCash = true then
      freezeAmount (draft.originalPrice * o.remainingQuantity) else 0 := by
  by_cases left : 0 < o.remainingQuantity
  · rw [taker.funded.locks_eq (taker.active.mpr left), taker.userId, taker.bookType,
      taker.originalPrice, taker.remaining]
    simp only [eq_comm]
  · have ended : row.isActive = false :=
      Bool.eq_false_iff.mpr (fun active => left (taker.active.mp active))
    have used : o.remainingQuantity = 0 := by omega
    rw [OrderRow.locks_of_inactive ended, used, mul_zero]
    simp [freezeAmount, calcMaxFee]

/-- The frozen cash of an order that its fills and its remaining quantity do not
account for. -/
def OrderDraft.residue (draft : OrderDraft) (feeBps : Int) (matched : Matched) : Int :=
  freezeAmount (draft.originalPrice * draft.quantity) -
    draft.accepted.totalCost feeBps matched.trades -
    freezeAmount (draft.originalPrice * matched.incoming.remainingQuantity)

def Order.improvement (o : Order) (ts : List TradeResult) : Int :=
  (ts.map (fun t => (o.originalPrice - o.bookType.pays t.price) * t.quantity)).sum

def Order.fees (o : Order) (feeBps : Int) (ts : List TradeResult) : Int :=
  (ts.map (fun t =>
    if o.bookType = .nativeBuy then calcFee (t.price * t.quantity) feeBps else 0)).sum

/-- The part of its fee buffer that an order does not freeze again for what it
still wants. -/
def Order.bufferReleased (o : Order) (left : Int) : Int :=
  calcMaxFee (o.originalPrice * o.quantity) - calcMaxFee (o.originalPrice * left)

theorem Fills.taken {o p : Order} {v v' : RestingOrders} {ts : List TradeResult}
    (fills : Fills o v ts p v') :
    (ts.map TradeResult.quantity).sum = o.remainingQuantity - p.remainingQuantity := by
  induction fills with
  | done o v => simp
  | @fill o o' v v' id r ts here stranger facing crosses wants rest ih =>
    rw [List.map_cons, List.sum_cons, ih, tradeOf_quantity]
    simp only [applyFill]
    omega

private theorem Order.totalCost_eq (o : Order) (feeBps : Int) (ts : List TradeResult) :
    o.totalCost feeBps ts = o.originalPrice * (ts.map TradeResult.quantity).sum -
      o.improvement ts + o.fees feeBps ts := by
  unfold Order.totalCost Order.improvement Order.fees
  induction ts with
  | nil => simp
  | cons t ts ih =>
    simp only [List.map_cons, List.sum_cons, ih, Order.cost]
    ring

/-- What stays frozen behind a taker: the price improvement and the released
buffer, less the fees. -/
theorem OrderDraft.residue_eq {draft : OrderDraft} {feeBps : Int} {matched : Matched}
    {v v' : RestingOrders}
    (fills : Fills draft.accepted v matched.trades matched.incoming v') :
    draft.residue feeBps matched = draft.accepted.improvement matched.trades +
      draft.accepted.bufferReleased matched.incoming.remainingQuantity -
      draft.accepted.fees feeBps matched.trades := by
  obtain ⟨_, _, _, wants, _, quantity, _⟩ := draft.accepted_fields
  unfold OrderDraft.residue Order.bufferReleased freezeAmount
  rw [Order.totalCost_eq, fills.taken, wants, quantity, draft.accepted_funds.2.2.1]
  ring

section Accept

variable {draft : OrderDraft} {db db' : Db} {order : Order} {market : MarketState}

private theorem Accepted.spareBesides (accepted : Accepted draft db draft.accepted market db') :
    (∀ user, db'.holdings.HasAccount user ↔ db.holdings.HasAccount user) ∧
      ∀ user, db.holdings.HasAccount user → db'.spareBesides draft.id user = db.spare user +
        if user = draft.userId ∧ draft.accepted.bookType.paysCash = true then
          freezeAmount (draft.originalPrice * draft.quantity) else 0 := by
  have froze : db.holdings.Draws (fun user =>
      if user = draft.userId ∧ draft.accepted.bookType.paysCash = true then
        -freezeAmount (draft.originalPrice * draft.quantity) else 0) db'.holdings := by
    have frozen := accepted.frozen
    unfold Frozen at frozen
    split at frozen
    · next cash =>
      obtain ⟨a, _, _, moved⟩ := frozen
      refine (Holdings.unfreezeDebit_draws moved).congr (fun user => ?_)
      have amount : draft.accepted.frozenAmount =
          freezeAmount (draft.originalPrice * draft.quantity) := by
        rw [draft.accepted_funds.2.1, BookType.frozenFor, if_pos cash]
      simp only [draft.accepted_fields.2.2.1, amount, cash, and_true]
    · next shares =>
      exact (Holdings.Draws.of_same (.of_accounts frozen)).congr (fun user => by simp [shares])
  obtain ⟨fresh, ok, added⟩ := Table.insert?_eq_some accepted.inserted
  refine ⟨froze.accounts, fun user there => ?_⟩
  have locked : db'.lockedBesides draft.id user = db.locked user := by
    unfold Db.lockedBesides Db.locked
    rw [added, Table.sum_add, Table.get?_add, if_pos rfl, Option.elim_some]
    omega
  unfold Db.spareBesides Db.spare
  rw [froze.frozen user there, locked]
  split_ifs <;> omega

end Accept

section Finalize

variable {order order' : Order} {db db' : Db} {row : OrderRow}

private theorem Finalized.spare (final : Finalized order db order' db')
    (got : db.orders.get? order.id = some row) (user' : row.userId = order.userId)
    (asset : row.frozenAssetType = order.frozenAssetType)
    (amount : row.frozenAmount = order.frozenAmount)
    (active : row.isActive = true ↔ 0 < order.remainingQuantity) :
    (∀ user, db'.holdings.HasAccount user ↔ db.holdings.HasAccount user) ∧
      ∀ user, db.holdings.HasAccount user → db'.spare user = db.spare user := by
  obtain ⟨_, final⟩ := final
  split at final
  · next ioc =>
    obtain ⟨_, released, marked⟩ := final
    unfold Released at released
    rw [← user', ← asset, ← amount] at released
    have draws := OrderRow.release_draws (active.mpr ioc.1) released
    exact ⟨draws.accounts, fun user there => Db.spare_of_release draws got marked rfl there⟩
  · obtain ⟨_, holdings, orders⟩ := final
    unfold Db.spare Db.locked
    rw [holdings, orders]
    exact ⟨fun _ => Iff.rfl, fun _ _ => rfl⟩

private theorem Finalized.funded (final : Finalized order db order' db') (funded : db.Funded) :
    db'.Funded := by
  intro j row' got
  obtain ⟨_, final⟩ := final
  split at final
  · rw [Table.get?_update? final.2.2] at got
    split at got
    · obtain ⟨before, was, rfl⟩ := Option.map_eq_some_iff.mp got
      exact (funded _ before was).cancelled order
    · exact funded j row' got
  · rw [final.2.2] at got
    exact funded j row' got

end Finalize

namespace PlaceRun

variable {draft : OrderDraft} {ob ob' : OrderBook} {db db' : Db} {v : RestingOrders} {lost : Prop}

theorem funding_start {order : Order} {market : MarketState} {db₁ : Db} {o : Order} (wanted : Int)
    (accepted : Accepted draft db order market db₁) (oid : o.id = draft.id)
    (omarket : o.marketId = draft.marketId) (absent : v draft.id = none)
    (backs : db.Backs lost draft.marketId v) (funded : db.Funded) :
    Funding o db lost ⟨wanted, v, market, db₁⟩ := by
  obtain ⟨_, rows⟩ := accepted.get?_orders
  have kept : ∀ j, j ≠ draft.id → db₁.orders.get? j = db.orders.get? j := by
    intro j other
    rw [rows, if_neg other]
  have queued : ∀ j x, v j = some x → j ≠ draft.id := by
    rintro j x here rfl
    rw [absent] at here
    cases here
  constructor
  · rw [oid]
    exact absent
  · intro j x here
    rw [kept j (queued j x here), omarket]
    exact backs j x here
  · intro j row other got
    rw [oid] at other
    exact funded j row ((kept j other).symm.trans got)
  · intro _ j here
    obtain ⟨x, some⟩ := Option.ne_none_iff_exists'.mp here
    exact kept j (queued j x some)
  · intro j other
    rw [oid] at other
    exact Or.inr (kept j other)

end PlaceRun

structure Cleared (draft : OrderDraft) (db : Db) (lost : Prop) (feeBps : Int) (matched : Matched)
    (order : Order) (db' : Db) (v' : RestingOrders) (row : OrderRow) : Prop where
  incoming : draft.accepted.SameOrder matched.incoming
  nonneg : 0 ≤ matched.incoming.remainingQuantity
  shows : matched.book.Shows v'
  funding : ∃ market, Funding matched.incoming db lost
    ⟨matched.incoming.remainingQuantity, v', market, db'⟩
  makes : ∀ t ∈ matched.trades, db.Makes lost t
  got : db'.orders.get? draft.id = some row
  taker : TakerRow draft matched.incoming row
  order_eq : order.id = draft.id ∧ order.userId = row.userId ∧
    order.frozenAssetType = row.frozenAssetType ∧ order.frozenAmount = row.frozenAmount ∧
    order.remainingQuantity = matched.incoming.remainingQuantity ∧
    order.timeInForce = matched.incoming.timeInForce
  accounts : ∀ user, db'.holdings.HasAccount user ↔ db.holdings.HasAccount user
  spare : ∀ user, db.holdings.HasAccount user → db'.spare user = db.spare user +
    (if user = draft.userId ∧ draft.accepted.bookType.paysCash = true then
      draft.residue feeBps matched else 0) + db.totalGain matched.trades user

theorem clearFills_cleared {draft : OrderDraft} {ob : OrderBook} {db db₁ db₂ : Db}
    {v : RestingOrders} {lost : Prop} {market market₁ : MarketState} {order : Order} {n : Int}
    (accepted : Accepted draft db draft.accepted market db₁)
    (cleared : clearFills (matchOrder draft.accepted ob).incoming
      (matchOrder draft.accepted ob).trades 0 market db₁ = .ok (order, n, market₁, db₂))
    (shows : ob.Shows v) (absent : v draft.id = none) (backs : db.Backs lost draft.marketId v)
    (funded : db.Funded) :
    ∃ v' row, Fills draft.accepted v (matchOrder draft.accepted ob).trades
        (matchOrder draft.accepted ob).incoming v' ∧
      Cleared draft db lost market.takerFeeBps (matchOrder draft.accepted ob) order db₂ v' row := by
  obtain ⟨v', fills, rep, exact'⟩ :=
    matchOrder_spec draft.accepted ob v shows.represents shows.exact
  have shows' : (matchOrder draft.accepted ob).book.Shows v' := ⟨rep, exact'⟩
  generalize matchOrder draft.accepted ob = matched at *
  obtain ⟨o, ts, book⟩ := matched
  simp only at cleared fills
  have same := fills.sameOrder
  have oid : o.id = draft.id := same.id.symm.trans draft.accepted_fields.1
  obtain ⟨accounts₁, spare₁⟩ := accepted.spareBesides
  have steps := clearFills_run fills same cleared
  have order_eq := clearFills_order cleared
  have start := PlaceRun.funding_start draft.accepted.remainingQuantity accepted oid
    (same.marketId.symm.trans draft.accepted_fields.2.1) absent backs funded
  obtain ⟨funding, makes, accounts₂, spare₂⟩ := fills_spare steps start
  have nonneg : 0 ≤ o.remainingQuantity := fills.progress.1 (by
    rw [draft.accepted_fields.2.2.2.1]
    have positive := accepted.quantity.1
    omega)
  have got : db₂.orders.get? o.id = some (if ts = [] then
      Db.insertedRow draft.accepted draft.insertedAt
      else (Db.insertedRow draft.accepted draft.insertedAt).progress o.synced) :=
    fills_takerRow steps start.absent (by rw [accepted.get?_orders.2, oid, if_pos rfl])
  have taker := fills.takerRow accepted.quantity.1
  generalize rowEq : (if ts = [] then Db.insertedRow draft.accepted draft.insertedAt
      else (Db.insertedRow draft.accepted draft.insertedAt).progress o.synced) = row at *
  refine ⟨v', row, fills, same, nonneg, shows', ⟨market₁, funding⟩, makes, oid ▸ got, taker, ?_,
    fun user => (accounts₂ user).trans (accounts₁ user), fun user there => ?_⟩
  · rw [order_eq, ← rowEq, ← oid]
    by_cases idle : ts = []
    · rw [if_pos idle, if_pos idle, (fills.progress.2.2.1 idle).1]
      exact ⟨rfl, rfl, rfl, rfl, rfl, rfl⟩
    · rw [if_neg idle, if_neg idle]
      refine ⟨rfl, same.userId.symm, ?_, rfl, rfl, rfl⟩
      rw [fills.incoming]
      rfl
  · have besides : db₂.spare user = db₂.spareBesides o.id user - row.locks user := by
      unfold Db.spare Db.spareBesides Db.lockedBesides
      rw [got, Option.elim_some]
      omega
    have costs : o.totalCost market.takerFeeBps ts =
        draft.accepted.totalCost market.takerFeeBps ts := by
      unfold Order.totalCost Order.cost
      rw [same.bookType]
    have who : o.userId = draft.userId := same.userId.symm.trans draft.accepted_fields.2.2.1
    have afterFills := spare₂ user ((accounts₁ user).mpr there)
    simp only [oid, costs, who] at afterFills besides
    rw [besides, afterFills, spare₁ user there, taker.locks nonneg]
    unfold OrderDraft.residue
    by_cases mine : user = draft.userId
    · cases cash : draft.accepted.bookType.paysCash with
      | true =>
        simp only [mine, and_self, if_true]
        omega
      | false => simp [mine, Order.totalCost_of_shares cash]
    · simp only [mine, false_and, if_false]
      omega

namespace Cleared

variable {draft : OrderDraft} {db db₂ : Db} {lost : Prop} {feeBps : Int} {matched : Matched}
  {order : Order} {v' : RestingOrders} {row : OrderRow}

private theorem funded (cleared : Cleared draft db lost feeBps matched order db₂ v' row) :
    db₂.Funded := by
  obtain ⟨market, funding⟩ := cleared.funding
  have oid : matched.incoming.id = draft.id :=
    cleared.incoming.id.symm.trans draft.accepted_fields.1
  intro j stored here
  by_cases own : j = draft.id
  · subst own
    exact (Option.some.inj (cleared.got.symm.trans here)) ▸ cleared.taker.funded
  · exact funding.funded j stored (by rw [oid]; exact own) here

end Cleared

namespace PlaceRun

variable {draft : OrderDraft} {ob ob' : OrderBook} {db db' : Db} {v : RestingOrders} {lost : Prop}

private theorem cleared (run : PlaceRun draft ob db ob' db') (shows : ob.Shows v)
    (absent : v draft.id = none) (backs : db.Backs lost draft.marketId v) (funded : db.Funded) :
    ∃ market order order' db₂ db₃ v' row, db.markets.get? draft.marketId = some market ∧
      Fills draft.accepted v (matchOrder draft.accepted ob).trades
        (matchOrder draft.accepted ob).incoming v' ∧
      Cleared draft db lost market.takerFeeBps (matchOrder draft.accepted ob) order db₂ v' row ∧
      Finalized order db₂ order' db₃ ∧ db'.holdings = db₃.holdings ∧ db'.orders = db₃.orders := by
  obtain ⟨market, db₁, order, n, market₁, db₂, order', db₃, accepted, cleared, final, holdings,
    orders, _⟩ := run.phases
  obtain ⟨stored, got, _, rfl⟩ := accepted.active
  obtain ⟨v', row, fills, after⟩ :=
    clearFills_cleared accepted cleared shows absent backs funded
  exact ⟨stored, order, order', db₂, db₃, v', row, got, fills, after, final, holdings, orders⟩

theorem spare (run : PlaceRun draft ob db ob' db') (shows : ob.Shows v)
    (absent : v draft.id = none) (backs : db.Backs lost draft.marketId v) (funded : db.Funded) :
    db'.Funded ∧ (∀ user, db'.holdings.HasAccount user ↔ db.holdings.HasAccount user) ∧
      (∀ t ∈ (matchOrder draft.accepted ob).trades, db.Makes lost t) ∧
      ∃ market, db.markets.get? draft.marketId = some market ∧
        ∀ user, db.holdings.HasAccount user → db'.spare user = db.spare user +
          (if user = draft.userId ∧ draft.accepted.bookType.paysCash = true then
            draft.residue market.takerFeeBps (matchOrder draft.accepted ob) else 0) +
          db.totalGain (matchOrder draft.accepted ob).trades user := by
  obtain ⟨market, order, order', db₂, db₃, v', row, got, _, cleared, final, holdings, orders⟩ :=
    run.cleared shows absent backs funded
  obtain ⟨id', user', asset, amount, remaining, _⟩ := cleared.order_eq
  obtain ⟨accounts, spare⟩ := final.spare (by rw [id']; exact cleared.got) user'.symm asset.symm
    amount.symm (by rw [remaining]; exact cleared.taker.active)
  have funded₃ := final.funded cleared.funded
  refine ⟨fun j r here => funded₃ j r (orders ▸ here), fun user => ?_, cleared.makes, market, got,
    fun user there => ?_⟩
  · rw [holdings]
    exact (accounts user).trans (cleared.accounts user)
  · have kept : db'.spare user = db₃.spare user := by
      unfold Db.spare Db.locked
      rw [holdings, orders]
    rw [kept, spare user ((cleared.accounts user).mpr there), cleared.spare user there]

/-- What the book and the orders table are to each other after a placement, whether
its tables are kept or rolled back. -/
structure Rested (draft : OrderDraft) (db db' : Db) (lost : Prop) (v v'' : RestingOrders) : Prop
    where
  kept : db'.Backs lost draft.marketId v''
  rolledBack : db.Backs True draft.marketId v''
  known : ∀ id x, v'' id = some x → id = draft.id ∨ v id ≠ none
  elsewhere : ∀ j, j ≠ draft.id →
    (∃ row, db.orders.get? j = some row ∧ row.marketId = draft.marketId) ∨
      db'.orders.get? j = db.orders.get? j

theorem rested (run : PlaceRun draft ob db ob' db') (shows : ob.Shows v)
    (absent : v draft.id = none) (backs : db.Backs lost draft.marketId v) (funded : db.Funded) :
    ∃ v'', ob'.Shows v'' ∧ Rested draft db db' lost v v'' := by
  obtain ⟨market, order, order', db₂, db₃, v', row, _, fills, cleared, final, _, orders⟩ :=
    run.cleared shows absent backs funded
  obtain ⟨market₁, db₁, _, _, _, _, _, _, accepted, _⟩ := run.phases
  obtain ⟨_, funding⟩ := cleared.funding
  have oid : (matchOrder draft.accepted ob).incoming.id = draft.id :=
    cleared.incoming.id.symm.trans draft.accepted_fields.1
  have omarket : (matchOrder draft.accepted ob).incoming.marketId = draft.marketId :=
    cleared.incoming.marketId.symm.trans draft.accepted_fields.2.1
  have price := OrderDraft.accepted_bookPrice accepted.price
  rw [cleared.incoming.bookPrice] at price
  obtain ⟨rests, exact'⟩ := restRemainder_represents cleared.shows.represents cleared.shows.exact
    funding.absent price
  refine ⟨_, ⟨run.book ▸ rests, run.book ▸ exact'⟩, ?_⟩
  rw [oid]
  obtain ⟨id', _, _, _, remaining, force⟩ := cleared.order_eq
  -- finalizing touches no row but the order's own
  have untouched : ∀ j, j ≠ draft.id → db'.orders.get? j = db₂.orders.get? j := by
    intro j other
    rw [orders]
    obtain ⟨_, final⟩ := final
    split at final
    · rw [Table.get?_update? final.2.2, id', if_neg other]
    · rw [final.2.2]
  have entry : ∀ j x, Function.update v' draft.id
      (leftOver (matchOrder draft.accepted ob).incoming) j = some x → j ≠ draft.id →
      v' j = some x := by
    intro j x here other
    rwa [Function.update_of_ne other] at here
  constructor
  · intro j x here
    by_cases own : j = draft.id
    · subst own
      rw [Function.update_self] at here
      unfold leftOver at here
      split at here
      · next left =>
        obtain rfl := Option.some.inj here
        have kept : db'.orders.get? draft.id = some row := by
          rw [orders]
          obtain ⟨_, final⟩ := final
          rw [if_neg (by rw [force, left.2]; simp)] at final
          rw [final.2.2]
          exact cleared.got
        have taker := cleared.taker
        refine Or.inr ⟨row, kept, taker.marketId, taker.active.mpr left.1, taker.remaining.ge, ?_⟩
        rw [taker.rests left.1, taker.remaining]
      · cases here
    · rw [untouched j own, ← omarket]
      exact funding.backs j x (entry j x here own)
  · intro j x here
    by_cases own : j = draft.id
    · exact Or.inl ⟨own ▸ accepted.get?_orders.1, trivial⟩
    · obtain ⟨y, before, less, same⟩ := fills.shrinks j x (entry j x here own)
      rcases backs j y before with ⟨gone, _⟩ | ⟨stored, got, home, active, enough, view⟩
      · exact Or.inl ⟨gone, trivial⟩
      · exact Or.inr ⟨stored, got, home, active, le_trans less enough, by rw [view, same]⟩
  · intro j x here
    by_cases own : j = draft.id
    · exact Or.inl own
    · obtain ⟨y, before, _⟩ := fills.shrinks j x (entry j x here own)
      exact Or.inr (by simp [before])
  · intro j own
    rw [untouched j own, ← omarket]
    exact funding.elsewhere j (by rw [oid]; exact own)

end PlaceRun

end PredictionMarket
