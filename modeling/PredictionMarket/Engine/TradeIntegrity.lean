/- PredictionMarket/Engine/TradeIntegrity
   digest: Every stored trade joins two stored orders of its market within their limits. -/

import PredictionMarket.Engine.OrderLifecycle
import PredictionMarket.Engine.PlaceFrames

set_option autoImplicit false
set_option relaxedAutoImplicit false

namespace PredictionMarket

open Library

/-- What never changes about a stored order and matters to its trades. -/
structure TradeTerms where
  marketId : MarketId
  userId : UserId
  bookType : BookType
  bookPrice : Int
  deriving DecidableEq

def OrderRow.tradeTerms (r : OrderRow) : TradeTerms :=
  ⟨r.marketId, r.userId, r.bookType, r.bookPrice⟩

structure TradeResult.Joins (t : TradeResult) (buy sell : TradeTerms) : Prop where
  home : buy.marketId = t.marketId ∧ sell.marketId = t.marketId
  buyer : buy.userId = t.buyUserId ∧ buy.bookType = t.buyBookType ∧ t.price ≤ buy.bookPrice
  seller : sell.userId = t.sellUserId ∧ sell.bookType = t.sellBookType ∧ sell.bookPrice ≤ t.price

structure Db.Records (db : Db) (t : TradeResult) : Prop where
  distinct : t.buyOrderId ≠ t.sellOrderId
  orders : ∃ buy sell, db.orders.get? t.buyOrderId = some buy ∧
    db.orders.get? t.sellOrderId = some sell ∧ t.Joins buy.tradeTerms sell.tradeTerms

def Db.TradesJoined (db : Db) : Prop := ∀ r ∈ db.trades, db.Records r.trade

def Db.KeepsTradeTerms (db db' : Db) : Prop :=
  ∀ id row, db.orders.get? id = some row →
    ∃ row', db'.orders.get? id = some row' ∧ row'.tradeTerms = row.tradeTerms

section Terms

variable {db db' db'' : Db} {t : TradeResult}

private theorem Db.KeepsTradeTerms.of_orders (same : db'.orders = db.orders) :
    db.KeepsTradeTerms db' :=
  fun _ row got => ⟨row, same ▸ got, rfl⟩

private theorem Db.KeepsTradeTerms.trans (first : db.KeepsTradeTerms db')
    (rest : db'.KeepsTradeTerms db'') :
    db.KeepsTradeTerms db'' := by
  intro id row got
  obtain ⟨row₁, middle, same₁⟩ := first id row got
  obtain ⟨row₂, last, same₂⟩ := rest id row₁ middle
  exact ⟨row₂, last, same₂.trans same₁⟩

private theorem Db.KeepsTradeTerms.of_update {i : OrderId} {f : OrderRow → OrderRow}
    (updated : db.orders.update? i f = some db'.orders) (fixed : ∀ r, (f r).tradeTerms = r.tradeTerms) :
    db.KeepsTradeTerms db' := by
  intro id row got
  rw [Table.get?_update? updated]
  split
  · next same =>
    exact ⟨f row, by rw [← same, got, Option.map_some], fixed row⟩
  · exact ⟨row, got, rfl⟩

private theorem Db.Records.keep (records : db.Records t) (kept : db.KeepsTradeTerms db') :
    db'.Records t := by
  obtain ⟨distinct, buy, sell, gotBuy, gotSell, joins⟩ := records
  obtain ⟨buy', nowBuy, sameBuy⟩ := kept _ buy gotBuy
  obtain ⟨sell', nowSell, sameSell⟩ := kept _ sell gotSell
  refine ⟨distinct, buy', sell', nowBuy, nowSell, ?_⟩
  rw [sameBuy, sameSell]
  exact joins

private theorem Db.TradesJoined.keep (joined : db.TradesJoined) (kept : db.KeepsTradeTerms db')
    (trades : db'.trades = db.trades) : db'.TradesJoined := by
  intro r member
  rw [trades] at member
  exact (joined r member).keep kept

end Terms

section Fills

variable {o p : Order} {u v : RestingOrders} {ts : List TradeResult}

private theorem tradeOf_applyFill (o : Order) (q : Int) (id : OrderId) (r : Resting) (qty : Int) :
    tradeOf (applyFill o q) id r qty = tradeOf o id r qty := by
  unfold tradeOf
  cases r.direction <;> rfl

private theorem tradeOf_resize (o : Order) (id : OrderId) (r : Resting) (q qty : Int) :
    tradeOf o id { r with quantity := q } qty = tradeOf o id r qty := by
  unfold tradeOf
  cases r.direction <;> rfl

private theorem Fills.makers (fills : Fills o u ts p v) : ∀ t ∈ ts, ∃ id r qty, u id = some r ∧
    r.direction = o.bookDirection.opposite ∧ r.direction.Crosses r.price o.bookPrice ∧
    t = tradeOf o id r qty := by
  induction fills with
  | done o v => simp
  | @fill o o' u v id r ts here stranger facing crosses wants rest ih =>
    refine List.forall_mem_cons.mpr ⟨⟨id, r, _, here, facing, crosses, rfl⟩, fun t member => ?_⟩
    obtain ⟨j, x, qty, rests, faces, meets, rfl⟩ := ih t member
    rw [tradeOf_applyFill]
    unfold RestingOrders.fill at rests
    by_cases same : j = id
    · subst same
      rw [Function.update_self, here] at rests
      simp only [Option.bind_some] at rests
      split at rests
      · cases rests
      · obtain rfl := Option.some.inj rests
        exact ⟨j, r, qty, here, facing, crosses, tradeOf_resize _ _ _ _ _⟩
    · rw [Function.update_of_ne same] at rests
      exact ⟨j, x, qty, rests, faces, meets, rfl⟩

end Fills

section Placement

variable {draft : OrderDraft} {ob ob' : OrderBook} {db db' : Db} {placed : Placed}
  {v : RestingOrders}

private theorem placeOrderInner_terms
    (done : placeOrderInner draft ob db = (.ok (placed, db'), ob')) :
    db.KeepsTradeTerms db' ∧ ∃ row, db'.orders.get? draft.id = some row ∧
      row.tradeTerms = (Db.insertedRow draft.accepted draft.insertedAt).tradeTerms := by
  have rows : ∀ j, (db'.orders.get? j).map OrderRow.tradeTerms = _ :=
    placeOrderInner_column (fun _ _ => rfl) done
  obtain ⟨⟨_, _, _, _, _, _, _, _, accepted, _⟩, _⟩ := placeOrderInner_phases done
  obtain ⟨fresh, _⟩ := (acceptOrder_ok accepted).get?_orders
  constructor
  · intro id row got
    have other : id ≠ draft.id := by
      rintro rfl
      rw [fresh] at got
      cases got
    have same := rows id
    rw [if_neg other, got, Option.map_some] at same
    obtain ⟨row', now, terms⟩ := Option.map_eq_some_iff.mp same
    exact ⟨row', now, terms⟩
  · have own := rows draft.id
    rw [if_pos rfl] at own
    exact Option.map_eq_some_iff.mp own

private theorem placeOrderInner_joined
    (done : placeOrderInner draft ob db = (.ok (placed, db'), ob'))
    (shows : ob.Shows v) (absent : v draft.id = none) (backs : db.Backs False draft.marketId v)
    (joined : db.TradesJoined) : db'.TradesJoined := by
  obtain ⟨kept, own, stored, terms⟩ := placeOrderInner_terms done
  obtain ⟨⟨market, db₁, order, n, market₁, db₂, order', db₃, accepted, cleared, finalized,
    flushed, _⟩, _⟩ := placeOrderInner_phases done
  obtain ⟨v', fills, _⟩ := matchOrder_spec draft.accepted ob v shows.represents shows.exact
  have trades : db'.trades.map TradeRow.trade = db.trades.map TradeRow.trade ++
      (matchOrder draft.accepted ob).trades := by
    obtain ⟨markets, _, rfl⟩ := Db.flushMarket_ok flushed
    rw [← acceptOrder_trades accepted, ← clearFills_trades cleared, ← finalizeOrder_trades finalized]
  have makers := fills.makers
  intro r member
  have listed := List.mem_map_of_mem (f := TradeRow.trade) member
  rw [trades, List.mem_append] at listed
  rcases listed with before | new
  · obtain ⟨r₀, there, same⟩ := List.mem_map.mp before
    exact same ▸ (joined r₀ there).keep kept
  · obtain ⟨id, x, qty, rests, facing, crosses, same⟩ := makers _ new
    obtain ⟨sameId, sameMarket, sameUser, _⟩ := draft.accepted_fields
    have other : id ≠ draft.id := by
      rintro rfl
      rw [absent] at rests
      cases rests
    obtain ⟨maker, now, makerTerms⟩ : ∃ row', db'.orders.get? id = some row' ∧
        row'.tradeTerms = ⟨draft.marketId, x.userId, x.bookType, x.price⟩ := by
      rcases backs id x rests with ⟨_, lost⟩ | ⟨row, got, home, _, _, resting⟩
      · exact lost.elim
      · obtain ⟨row', now, same⟩ := kept id row got
        refine ⟨row', now, same.trans ?_⟩
        simp only [OrderRow.resting, Resting.mk.injEq] at resting
        obtain ⟨user, type, _, price, _⟩ := resting
        simp only [OrderRow.tradeTerms, home, user, type, price]
    rw [← sameId] at stored
    rw [same]
    have taker : own.tradeTerms = ⟨draft.accepted.marketId, draft.accepted.userId,
      draft.accepted.bookType, draft.accepted.bookPrice⟩ := terms
    unfold tradeOf
    cases side : x.direction with
    | sell =>
      rw [side] at crosses
      refine ⟨?_, own, maker, stored, now, ?_⟩
      · exact fun eq => other (eq.symm.trans sameId)
      · rw [taker, makerTerms]
        exact ⟨⟨rfl, sameMarket.symm⟩, ⟨rfl, rfl, crosses⟩, ⟨rfl, rfl, le_rfl⟩⟩
    | buy =>
      rw [side] at crosses
      refine ⟨?_, maker, own, now, stored, ?_⟩
      · exact fun eq => other (eq.trans sameId)
      · rw [taker, makerTerms]
        exact ⟨⟨sameMarket.symm, rfl⟩, ⟨rfl, rfl, le_rfl⟩, ⟨rfl, rfl, crosses⟩⟩

end Placement

section Moves

variable {db db' : Db}

private theorem moveStep_joined {move : Move} (step : moveStep db move db')
    (joined : db.TradesJoined) :
    db'.TradesJoined := by
  have ended : ∀ {id row}, db.Ends id row db' → db'.TradesJoined := by
    intro id row ends
    refine joined.keep (fun j r got => ?_) (cancelInSavepoint_trades ends.2.choose_spec)
    rw [ends.get?_orders]
    split
    · next same =>
      obtain rfl := Option.some.inj ((same ▸ ends.1).symm.trans got)
      exact ⟨_, rfl, rfl⟩
    · exact ⟨r, got, rfl⟩
  cases move with
  | placed draft =>
    obtain ⟨ob, ob', placed, v, done, shows, absent, backs⟩ := step
    exact placeOrderInner_joined done shows absent backs joined
  | cancelled id =>
    obtain ⟨row, _, ends⟩ := step
    exact ended ends
  | retired id =>
    obtain ⟨row, _, _, ends⟩ := step
    exact ended ends
  | batch marketId userId scope =>
    obtain ⟨db₁, h, marked, _, rfl⟩ := step
    have trades : db₁.trades = db.trades := markCancelled_trades marked
    refine joined.keep (fun j r got => ?_) trades
    show ∃ row', db₁.orders.get? j = some row' ∧ _
    rw [(markCancelled_ok _ marked).2.2, got]
    split
    · exact ⟨_, rfl, rfl⟩
    · exact ⟨r, rfl, rfl⟩
  | privileged call =>
    rcases step with minted | burned
    · exact joined.keep (.of_orders (by rw [minted.rest])) (by rw [minted.rest])
    · exact joined.keep (.of_orders (by rw [burned.rest])) (by rw [burned.rest])
  | resolved marketId outcome =>
    obtain ⟨db₁, cancelled, settled⟩ := AdminService.resolveInTransaction_ok step
    have loop : db.KeepsTradeTerms db₁ ∧ db₁.trades = db.trades :=
      foldlM_preserves (P := fun d => db.KeepsTradeTerms d ∧ d.trades = db.trades)
        (fun _ _ _ _ step before =>
          ⟨before.1.trans (.of_update (AdminService.cancelAndUnfreeze_ok step).2.1 (fun _ => rfl)),
            (AdminService.cancelAndUnfreeze_trades step).trans before.2⟩)
        cancelled ⟨.of_orders rfl, rfl⟩
    exact joined.keep (loop.1.trans (.of_orders (AdminService.settleMarket_ok settled).1))
      ((AdminService.settleMarket_trades settled).trans loop.2)

end Moves

theorem Session.Opening.tradesJoined {s s' : Session} {ops : List SessionOp}
    (opening : s.Opening) (untraded : s.world.db.trades = []) (run : Run sessionStep s ops s') :
    s'.world.db.TradesJoined := by
  have start : s.world.Accounted False ∧ s.world.db.TradesJoined :=
    ⟨opening.accounted, by simp [Db.TradesJoined, untraded]⟩
  refine (run.preserves (P := fun t => t.world.Accounted False ∧ t.world.db.TradesJoined)
    ?_ start).2
  rintro t op t' step ⟨acc, joined⟩
  obtain ⟨acc', same | moves⟩ := sessionStep_moves step acc
  · exact ⟨acc', same ▸ joined⟩
  · exact ⟨acc', moves.preserves (fun _ _ _ => moveStep_joined) joined⟩

/-- In every state of a session each trade that a fill wrote names two different stored
orders of its market, that of its buyer and that of its seller, of the book types it states
and with limits that its price keeps. The other trades are one for each privileged call
that went through. -/
theorem session_trades_joined {s s' : Session} {ops : List SessionOp} (opening : s.Opening)
    (untraded : s.world.db.trades = []) (run : Run sessionStep s ops s') :
    (∀ r ∈ s'.world.db.trades, r.trade.buyOrderId ≠ r.trade.sellOrderId ∧
      ∃ buy sell, s'.world.db.orders.get? r.trade.buyOrderId = some buy ∧
        s'.world.db.orders.get? r.trade.sellOrderId = some sell ∧
        r.trade.Joins buy.tradeTerms sell.tradeTerms) ∧
    ∃ calls : List AmmCall, (calls.map SessionOp.privileged).Sublist ops ∧
      s'.ammTrades = s.ammTrades ++ calls.map AmmCall.tradeRow := by
  refine ⟨?_, sessionRun_ammTrades run⟩
  intro r member
  obtain ⟨distinct, orders⟩ := opening.tradesJoined untraded run r member
  exact ⟨distinct, orders⟩

/-- The purchase of one of four shares on offer, after a mint. -/
theorem pairMarket_trades_joined :
    ∃ s', Run sessionStep pairMarket [mintTwoPairs, sellFourYes, buyOneYes] s' ∧
      s'.ammTrades = [⟨"m", "bob", "SYSTEM", .mint, 50, 2, 0, 0⟩] ∧
      ∃ r ∈ s'.world.db.trades, ∃ buy sell,
        s'.world.db.orders.get? r.trade.buyOrderId = some buy ∧
        s'.world.db.orders.get? r.trade.sellOrderId = some sell ∧
        r.trade.Joins buy.tradeTerms sell.tradeTerms := by
  obtain ⟨s', same⟩ : ∃ s', s' = ((pairMarket.next mintTwoPairs).next sellFourYes).next buyOneYes :=
    ⟨_, rfl⟩
  have run : Run sessionStep pairMarket [mintTwoPairs, sellFourYes, buyOneYes] s' :=
    .cons rfl (.cons rfl (.single same))
  have joined := (session_trades_joined pairMarket_opening rfl run).1
  have minted : s'.ammTrades = [⟨"m", "bob", "SYSTEM", .mint, 50, 2, 0, 0⟩] := by
    rw [same]
    decide +kernel
  have count : s'.world.db.trades.length = 1 := by
    rw [same]
    decide +kernel
  obtain ⟨r, only⟩ := List.length_eq_one_iff.mp count
  have member : r ∈ s'.world.db.trades := only ▸ List.mem_singleton_self r
  exact ⟨s', run, minted, r, member, (joined r member).2⟩

end PredictionMarket
