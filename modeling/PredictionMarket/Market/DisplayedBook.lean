/- PredictionMarket/Market/DisplayedBook
   digest: The order book that is shown, which is read off the tables, is the one the engine matches on. -/

import PredictionMarket.Engine.Recovery
import PredictionMarket.Market.OrderbookView

set_option autoImplicit false
set_option relaxedAutoImplicit false

namespace PredictionMarket

open Library

/-- `get_orderbook`; the answers to the two queries of the snapshot are `rows` and
`lastPrice`. -/
def MarketApplicationService.getOrderbook (isoformat : Timestamp → String)
    (rows : List AggregateRow) (lastPrice : Option Int) (now : Timestamp) (marketId : MarketId)
    (levels : Nat) (db : Db) : Except Err OrderbookResponse :=
  match db.markets.get? marketId with
  | none => .error (.app (marketNotFoundError marketId))
  | some market =>
    if market.status ≠ .active then .error (.app (marketNotActiveError marketId))
    else .ok (OrderbookResponse.fromSnapshot isoformat
      (MarketRepository.getOrderbookSnapshot rows lastPrice now marketId levels))

def Db.orderRows (db : Db) : List OrderRow := db.orders.rows.map Prod.snd

namespace OrderBook

def scan : OrderDirection → List Int
  | .buy => bidLevels
  | .sell => askLevels

def depth (ob : OrderBook) (d : OrderDirection) : List PriceLevel :=
  ((scan d).filter (fun p => ob.queue d p ≠ [])).map
    (fun p => ⟨p, ((ob.queue d p).map BookOrder.quantity).sum⟩)

private theorem mem_scan {d : OrderDirection} {p : Int} : p ∈ scan d ↔ 1 ≤ p ∧ p ≤ 99 := by
  cases d with
  | buy => exact mem_bidLevels
  | sell => exact mem_askLevels

private theorem scan_sorted (d : OrderDirection) : (scan d).Pairwise d.Better := by
  cases d with
  | buy =>
    show bidLevels.Pairwise (fun p q => q < p)
    decide
  | sell =>
    show askLevels.Pairwise (fun p q => p < q)
    decide

private theorem depth_prices (ob : OrderBook) (d : OrderDirection) :
    (ob.depth d).map PriceLevel.priceCents = (scan d).filter (fun p => ob.queue d p ≠ []) := by
  rw [depth, List.map_map]
  exact List.map_id _

private theorem depth_sorted (ob : OrderBook) (d : OrderDirection) :
    ((ob.depth d).map PriceLevel.priceCents).Pairwise d.Better := by
  rw [depth_prices]
  exact (scan_sorted d).sublist List.filter_sublist

private theorem mem_depth {ob : OrderBook} {d : OrderDirection} {lv : PriceLevel} :
    lv ∈ ob.depth d ↔
    (1 ≤ lv.priceCents ∧ lv.priceCents ≤ 99) ∧ ob.queue d lv.priceCents ≠ [] ∧
      lv.totalQuantity = ((ob.queue d lv.priceCents).map BookOrder.quantity).sum := by
  simp only [depth, List.mem_map, List.mem_filter, mem_scan, decide_eq_true_eq]
  constructor
  · rintro ⟨p, ⟨range, stocked⟩, rfl⟩
    exact ⟨range, stocked, rfl⟩
  · rintro ⟨range, stocked, total⟩
    exact ⟨lv.priceCents, ⟨range, stocked⟩, by rw [← total]⟩

private theorem best_eq_depth {ob : OrderBook} {d : OrderDirection} (exact_ : ob.BestExact d) :
    ob.best d = ((ob.depth d).head?.map PriceLevel.priceCents).getD d.sentinel := by
  have refreshed : ob.best d = (ob.refreshBest d).best d :=
    best_unique exact_ (bestExact_refreshBest ob d) (fun p => by rw [queue_refreshBest])
  rw [refreshed, ← List.head?_map, depth_prices, List.head?_filter]
  cases d <;> rfl

end OrderBook

section Shown

variable {ob : OrderBook} {db : Db} {m : MarketId} {d : OrderDirection} {p : Int}

private theorem Db.mem_activeOrders {r : OrderRow} :
    r ∈ PredictionMarket.activeOrders db.orderRows m ↔
    ∃ id, db.orders.get? id = some r ∧ r.marketId = m ∧ r.isActive = true := by
  simp only [PredictionMarket.activeOrders, Db.orderRows, List.mem_filter, List.mem_map,
    Prod.exists, exists_eq_right, Bool.and_eq_true, decide_eq_true_eq, Table.mem_iff,
    exists_and_right]

private theorem OrderBook.Shows.row (shows : ob.Shows (db.resting m)) {bo : BookOrder}
    (queued : bo ∈ ob.queue d p) : ∃ r, db.orders.get? bo.orderId = some r ∧ r.marketId = m ∧
      r.isActive = true ∧ r.resting = bo.resting d p :=
  Db.resting_eq_some.mp (shows.represents.queued queued)

private theorem OrderBook.Shows.entry (shows : ob.Shows (db.resting m)) {id : OrderId}
    {r : OrderRow}
    (got : db.orders.get? id = some r) (home : r.marketId = m) (active : r.isActive = true) :
    ∃ bo ∈ ob.queue r.bookDirection r.bookPrice, bo.orderId = id ∧
      bo.quantity = r.remainingQuantity := by
  obtain ⟨bo, queued, same, row⟩ :=
    shows.represents.present (Db.resting_eq_some.mpr ⟨r, got, home, active, rfl⟩)
  exact ⟨bo, queued, same, congrArg Resting.quantity row⟩

private theorem OrderBook.Shows.rests_iff (shows : ob.Shows (db.resting m)) :
    RestsAt (activeOrders db.orderRows m) d p ↔ (1 ≤ p ∧ p ≤ 99) ∧ ob.queue d p ≠ [] := by
  constructor
  · rintro ⟨r, member, rfl, rfl⟩
    obtain ⟨id, got, home, active⟩ := Db.mem_activeOrders.mp member
    obtain ⟨bo, queued, _⟩ := shows.entry got home active
    exact ⟨(Table.check got).2.1, List.ne_nil_of_mem queued⟩
  · rintro ⟨_, stocked⟩
    obtain ⟨bo, queued⟩ := List.exists_mem_of_ne_nil _ stocked
    obtain ⟨r, got, home, active, same⟩ := shows.row queued
    exact ⟨r, Db.mem_activeOrders.mpr ⟨_, got, home, active⟩, congrArg Resting.direction same,
      congrArg Resting.price same⟩

private def levelRows (db : Db) (m : MarketId) (d : OrderDirection) (p : Int) :
    List (OrderId × OrderRow) :=
  db.orders.rows.filter (fun e => ((e.2.bookPrice, e.2.bookDirection) = (p, d) : Bool) &&
    (e.2.marketId = m && e.2.isActive))

private theorem restingTotal_levelRows : restingTotal (activeOrders db.orderRows m) d p =
    ((levelRows db m d p).map (fun e => e.2.remainingQuantity)).sum := by
  rw [restingTotal, activeOrders, List.filter_filter, Db.orderRows, List.filter_map, List.map_map]
  rfl

private theorem mem_levelRows {e : OrderId × OrderRow} : e ∈ levelRows db m d p ↔
    db.orders.get? e.1 = some e.2 ∧ (e.2.bookPrice = p ∧ e.2.bookDirection = d) ∧
      e.2.marketId = m ∧ e.2.isActive = true := by
  simp only [levelRows, List.mem_filter, ← Table.mem_iff, Bool.and_eq_true, decide_eq_true_eq,
    Prod.mk.injEq]

private theorem OrderBook.Shows.level_perm (shows : ob.Shows (db.resting m)) :
    ((levelRows db m d p).map (fun e => (e.1, e.2.remainingQuantity))).Perm
      ((ob.queue d p).map (fun bo => (bo.orderId, bo.quantity))) := by
  have rowIds : ((levelRows db m d p).map Prod.fst).Nodup :=
    db.orders.nodup.sublist (List.filter_sublist.map _)
  have entryIds := shows.represents.once d p
  have rowsOnce : ((levelRows db m d p).map (fun e => (e.1, e.2.remainingQuantity))).Nodup :=
    List.Nodup.of_map Prod.fst (by simpa only [List.map_map, Function.comp_def] using rowIds)
  have entriesOnce : ((ob.queue d p).map (fun bo => (bo.orderId, bo.quantity))).Nodup :=
    List.Nodup.of_map Prod.fst (by simpa only [List.map_map, Function.comp_def] using entryIds)
  rw [List.perm_ext_iff_of_nodup rowsOnce entriesOnce]
  rintro ⟨id, quantity⟩
  simp only [List.mem_map, Prod.mk.injEq]
  constructor
  · rintro ⟨⟨_, r⟩, member, rfl, rfl⟩
    obtain ⟨got, ⟨rfl, rfl⟩, home, active⟩ := mem_levelRows.mp member
    exact shows.entry got home active
  · rintro ⟨bo, queued, rfl, rfl⟩
    obtain ⟨r, got, home, active, same⟩ := shows.row queued
    refine ⟨(bo.orderId, r), mem_levelRows.mpr ⟨got, ⟨?_, ?_⟩, home, active⟩, rfl, ?_⟩
    · exact congrArg Resting.price same
    · exact congrArg Resting.direction same
    · exact congrArg Resting.quantity same

private theorem OrderBook.Shows.total (shows : ob.Shows (db.resting m)) :
    restingTotal (activeOrders db.orderRows m) d p =
      ((ob.queue d p).map BookOrder.quantity).sum := by
  have quantities := (shows.level_perm (d := d) (p := p)).map Prod.snd
  simp only [List.map_map, Function.comp_def] at quantities
  rw [restingTotal_levelRows, quantities.sum_eq]

private theorem OrderBook.Shows.mem_side (shows : ob.Shows (db.resting m))
    {rows : List AggregateRow}
    (answer : rows.Perm (orderbookAggregate db.orderRows m)) {lv : PriceLevel} :
    lv ∈ sideLevels d rows ↔ lv ∈ ob.depth d := by
  rw [mem_sideLevels answer, shows.rests_iff, shows.total, OrderBook.mem_depth, and_assoc]

private theorem levels_eq {a b : List PriceLevel}
    (first : (a.map PriceLevel.priceCents).Pairwise d.Better)
    (second : (b.map PriceLevel.priceCents).Pairwise d.Better)
    (same : ∀ lv, lv ∈ a ↔ lv ∈ b) : a = b := by
  have once : ∀ l : List PriceLevel, (l.map PriceLevel.priceCents).Pairwise d.Better →
      l.Nodup := fun l sorted => (List.pairwise_map.mp sorted).imp (fun better equal => by
    subst equal
    cases d <;> exact lt_irrefl _ better)
  have perm := (List.perm_ext_iff_of_nodup (once a first) (once b second)).mpr same
  refine perm.eq_of_pairwise (fun x y _ _ better worse => ?_) (List.pairwise_map.mp first)
    (List.pairwise_map.mp second)
  cases d <;> exact absurd better (lt_asymm worse)

private theorem OrderBook.Shows.bids_eq (shows : ob.Shows (db.resting m)) {rows : List AggregateRow}
    (answer : rows.Perm (orderbookAggregate db.orderRows m)) :
    sortDescending (sideLevels .buy rows) = ob.depth .buy := by
  have sorted : ((sortDescending (sideLevels .buy rows)).map PriceLevel.priceCents).Pairwise
      (OrderDirection.Better .buy) := sortDescending_strict (sideLevels_distinct answer)
  refine levels_eq sorted (ob.depth_sorted .buy) (fun lv => ?_)
  rw [sortDescending_perm.mem_iff, shows.mem_side answer]

private theorem OrderBook.Shows.asks_eq (shows : ob.Shows (db.resting m)) {rows : List AggregateRow}
    (answer : rows.Perm (orderbookAggregate db.orderRows m)) :
    sortAscending (sideLevels .sell rows) = ob.depth .sell := by
  have sorted : ((sortAscending (sideLevels .sell rows)).map PriceLevel.priceCents).Pairwise
      (OrderDirection.Better .sell) := sortAscending_strict (sideLevels_distinct answer)
  refine levels_eq sorted (ob.depth_sorted .sell) (fun lv => ?_)
  rw [sortAscending_perm.mem_iff, shows.mem_side answer]

end Shown

/-- A response shows the best levels of the engine's book, for YES as they are and for
NO by their complements, with its cursors in front. -/
structure OrderbookResponse.Displays (response : OrderbookResponse) (ob : OrderBook)
    (levels : Nat) : Prop where
  yesBids : response.yes.bids = (ob.depth .buy).take levels
  yesAsks : response.yes.asks = (ob.depth .sell).take levels
  noBids : response.no.bids = ((ob.depth .sell).take levels).map PriceLevel.complement
  noAsks : response.no.asks = ((ob.depth .buy).take levels).map PriceLevel.complement
  bestBid : 0 < levels → (response.yes.bids.head?.map PriceLevel.priceCents).getD 0 = ob.bestBid
  bestAsk : 0 < levels → (response.yes.asks.head?.map PriceLevel.priceCents).getD 100 = ob.bestAsk

private theorem OrderBook.Shows.displayed {ob : OrderBook} {db : Db} {m : MarketId}
    (shows : ob.Shows (db.resting m)) {rows : List AggregateRow}
    (answer : rows.Perm (orderbookAggregate db.orderRows m)) {lastPrice : Option Int}
    {now : Timestamp} {levels : Nat} {isoformat : Timestamp → String} :
    (OrderbookResponse.fromSnapshot isoformat
      (MarketRepository.getOrderbookSnapshot rows lastPrice now m levels)).Displays ob levels := by
  have front : ∀ d, 0 < levels → (((ob.depth d).take levels).head?.map
      PriceLevel.priceCents).getD d.sentinel = ob.best d := by
    intro d some_
    rw [OrderBook.best_eq_depth (shows.exact d), List.head?_take, if_neg some_.ne']
  have ordered : ∀ d, (((ob.depth d).take levels).map PriceLevel.priceCents).Pairwise d.Better :=
    fun d => (ob.depth_sorted d).sublist ((List.take_sublist levels _).map _)
  have noBids := sortDescending_complement (ordered .sell)
  have noAsks := sortAscending_complement (ordered .buy)
  constructor <;>
    simp only [OrderbookResponse.fromSnapshot, MarketRepository.getOrderbookSnapshot, toNoView,
      shows.bids_eq answer, shows.asks_eq answer, noBids, noAsks]
  · exact front .buy
  · exact front .sell

private theorem MarketApplicationService.getOrderbook_ok {isoformat : Timestamp → String}
    {rows : List AggregateRow} {lastPrice : Option Int} {now : Timestamp} {m : MarketId}
    {levels : Nat} {db : Db} {response : OrderbookResponse}
    (served : getOrderbook isoformat rows lastPrice now m levels db = .ok response) :
    (∃ row, db.markets.get? m = some row ∧ row.status = .active) ∧
      response = OrderbookResponse.fromSnapshot isoformat
        (MarketRepository.getOrderbookSnapshot rows lastPrice now m levels) := by
  unfold getOrderbook at served
  split at served
  · cases served
  · next row got =>
    split at served
    · cases served
    · next status => exact ⟨⟨row, got, not_not.mp status⟩, (Except.ok.inj served).symm⟩

/-- In every run that loses nothing, whoever asks for the order book of a market is
shown the book that the next order is matched against. -/
theorem displayed_book_exact {w w' : World} {events : List Event}
    (books : ∀ m, w.getOrCreateOrderbook m = .empty) (orders : w.db.orders.rows = [])
    (run : Run (Guarded LosesNothing eventStep) w events w') {m : MarketId}
    {rows : List AggregateRow} (answer : rows.Perm (orderbookAggregate w'.db.orderRows m))
    {isoformat : Timestamp → String} {lastPrice : Option Int} {now : Timestamp} {levels : Nat}
    {response : OrderbookResponse} (served : MarketApplicationService.getOrderbook isoformat rows
      lastPrice now m levels w'.db = .ok response) :
    response.Displays (w'.getOrCreateOrderbook m) levels := by
  obtain ⟨active, rfl⟩ := MarketApplicationService.getOrderbook_ok served
  exact (eventRun_inSync books orders run m active).displayed answer

section Example

/-- The rest of a bid that is filled in part is what is shown, and what a purchase would
meet. -/
theorem filled_bid_displayed : ∃ response, MarketApplicationService.getOrderbook (fun _ => "")
      [⟨40, .sell, 19⟩] none 0 "m" 5 oneOfThemFilled.db = .ok response ∧
    response.yes.asks = [⟨40, 19⟩] ∧
    response.Displays (oneOfThemFilled.getOrCreateOrderbook "m") 5 := by
  have run : Run (Guarded LosesNothing eventStep) twoTraders
      [.place bidTwentyNo "bob" ⟨0, 0⟩ .none, .place buyOneOfThem "alice" ⟨1, 1⟩ .none]
      oneOfThemFilled :=
    .cons ⟨.of_accepted (by decide +kernel), rfl⟩ (.single ⟨.of_accepted (by decide +kernel), rfl⟩)
  have listed : orderbookAggregate oneOfThemFilled.db.orderRows "m" = [⟨40, .sell, 19⟩] := by
    decide +kernel
  have status : (oneOfThemFilled.db.markets.get? "m").map MarketRow.status = some .active := by
    decide +kernel
  obtain ⟨row, got, active⟩ := Option.map_eq_some_iff.mp status
  obtain ⟨response, served⟩ : ∃ response, MarketApplicationService.getOrderbook (fun _ => "")
      [⟨40, .sell, 19⟩] none 0 "m" 5 oneOfThemFilled.db = .ok response := by
    unfold MarketApplicationService.getOrderbook
    rw [got]
    simp only [active, ne_eq, not_true, if_false]
    exact ⟨_, rfl⟩
  have asks : response.yes.asks = [⟨40, 19⟩] := by
    rw [(MarketApplicationService.getOrderbook_ok served).2]
    simp [OrderbookResponse.fromSnapshot, MarketRepository.getOrderbookSnapshot, sortAscending,
      sideLevels]
  exact ⟨response, served, asks,
    displayed_book_exact (fun _ => rfl) rfl run (listed ▸ .refl _) served⟩

end Example

end PredictionMarket
