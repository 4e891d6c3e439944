/- PredictionMarket/Market/OrderbookView
   digest: The displayed order book: aggregated, sorted, cut and turned into the NO book. -/

import PredictionMarket.Matching.MatchOrder
import PredictionMarket.Store.Query
import PredictionMarket.Store.Rows

set_option autoImplicit false
set_option relaxedAutoImplicit false

namespace PredictionMarket

/-- `PriceLevel` and `PriceLevelOut`. -/
structure PriceLevel where
  priceCents : Int
  totalQuantity : Int
  deriving DecidableEq

/-- A row of the answer to `_ORDERBOOK_AGGREGATE_SQL`. -/
structure AggregateRow where
  bookPrice : Int
  bookDirection : OrderDirection
  totalQty : Int
  deriving DecidableEq

structure OrderbookSnapshot where
  marketId : MarketId
  yesBids : List PriceLevel
  yesAsks : List PriceLevel
  lastTradePriceCents : Option Int
  updatedAt : Timestamp

/-- `list.sort` by the price, which is stable in both directions. -/
def sortAscending (levels : List PriceLevel) : List PriceLevel :=
  levels.mergeSort (fun a b => a.priceCents ≤ b.priceCents)

def sortDescending (levels : List PriceLevel) : List PriceLevel :=
  levels.mergeSort (fun a b => b.priceCents ≤ a.priceCents)

def activeOrders (orders : List OrderRow) (marketId : MarketId) : List OrderRow :=
  orders.filter (fun r => r.marketId = marketId && r.isActive)

/-- `_ORDERBOOK_AGGREGATE_SQL`. -/
def orderbookAggregate (orders : List OrderRow) (marketId : MarketId) : List AggregateRow :=
  (groupTotals (fun r => (r.bookPrice, r.bookDirection)) OrderRow.remainingQuantity
    (activeOrders orders marketId)).map (fun g => ⟨g.1.1, g.1.2, g.2⟩)

def sideLevels (d : OrderDirection) (rows : List AggregateRow) : List PriceLevel :=
  (rows.filter (fun row => row.bookDirection = d)).map (fun row => ⟨row.bookPrice, row.totalQty⟩)

def MarketRepository.getOrderbookSnapshot (rows : List AggregateRow) (lastPrice : Option Int)
    (now : Timestamp) (marketId : MarketId) (levels : Nat) : OrderbookSnapshot where
  marketId := marketId
  yesBids := (sortDescending (sideLevels .buy rows)).take levels
  yesAsks := (sortAscending (sideLevels .sell rows)).take levels
  lastTradePriceCents := lastPrice
  updatedAt := now

def PriceLevel.complement (lv : PriceLevel) : PriceLevel :=
  ⟨100 - lv.priceCents, lv.totalQuantity⟩

def toNoView (yesBids yesAsks : List PriceLevel) : List PriceLevel × List PriceLevel :=
  (sortDescending (yesAsks.map PriceLevel.complement),
    sortAscending (yesBids.map PriceLevel.complement))

structure OrderSideOut where
  bids : List PriceLevel
  asks : List PriceLevel

structure OrderbookResponse where
  marketId : MarketId
  yes : OrderSideOut
  no : OrderSideOut
  lastTradePriceCents : Option Int
  updatedAt : String

def OrderbookResponse.fromSnapshot (isoformat : Timestamp → String)
    (snapshot : OrderbookSnapshot) : OrderbookResponse :=
  let (noBids, noAsks) := toNoView snapshot.yesBids snapshot.yesAsks
  { marketId := snapshot.marketId
    yes := ⟨snapshot.yesBids, snapshot.yesAsks⟩
    no := ⟨noBids, noAsks⟩
    lastTradePriceCents := snapshot.lastTradePriceCents
    updatedAt := isoformat snapshot.updatedAt }

/-- The book fields of a row are those that `transformOrder` gives. -/
def OrderRow.Transformed (r : OrderRow) : Prop :=
  (r.bookType, r.bookDirection, r.bookPrice) =
    transformOrder r.originalSide r.originalDirection r.originalPrice

instance OrderRow.instDecidableTransformed (r : OrderRow) : Decidable r.Transformed :=
  inferInstanceAs (Decidable (_ = _))

def OrderRow.Asks (r : OrderRow) (side : OriginalSide) (direction : OrderDirection)
    (price : Int) : Bool :=
  r.originalSide = side && r.originalDirection = direction && r.originalPrice = price

/-- What is bid for NO shares at a price: by buyers of NO, and by sellers of YES,
for whom it is the complement. -/
def noBidQuantity (orders : List OrderRow) (q : Int) : Int :=
  ((orders.filter (fun r => r.Asks .no .buy q || r.Asks .yes .sell (100 - q))).map
    OrderRow.remainingQuantity).sum

def noAskQuantity (orders : List OrderRow) (q : Int) : Int :=
  ((orders.filter (fun r => r.Asks .no .sell q || r.Asks .yes .buy (100 - q))).map
    OrderRow.remainingQuantity).sum

def RestsAt (orders : List OrderRow) (d : OrderDirection) (price : Int) : Prop :=
  ∃ r ∈ orders, r.bookDirection = d ∧ r.bookPrice = price

/-- A list shows the best levels of a side: each price once and in order, with its
total, and every price left out is worse than a full list. -/
structure Shows (levels : Nat) (better : Int → Int → Prop) (rests : Int → Prop)
    (total : Int → Int) (shown : List PriceLevel) : Prop where
  ordered : (shown.map PriceLevel.priceCents).Pairwise better
  resting : ∀ lv ∈ shown, rests lv.priceCents
  totals : ∀ lv ∈ shown, lv.totalQuantity = total lv.priceCents
  size : shown.length ≤ levels
  best : ∀ price, rests price → price ∈ shown.map PriceLevel.priceCents ∨
    (shown.length = levels ∧ ∀ lv ∈ shown, better lv.priceCents price)

section Shows

variable {levels : Nat} {better : Int → Int → Prop} {rests : Int → Prop} {total : Int → Int}
  {shown : List PriceLevel}

private theorem shows_take (sorted : (shown.map PriceLevel.priceCents).Pairwise better)
    (complete : ∀ price, rests price ↔ price ∈ shown.map PriceLevel.priceCents)
    (totals : ∀ lv ∈ shown, lv.totalQuantity = total lv.priceCents) :
    Shows levels better rests total (shown.take levels) := by
  have split : shown.map PriceLevel.priceCents = (shown.take levels).map PriceLevel.priceCents ++
      (shown.drop levels).map PriceLevel.priceCents := by
    rw [← List.map_append, List.take_append_drop]
  constructor
  · exact sorted.sublist ((List.take_sublist levels shown).map _)
  · intro lv member
    exact (complete _).mpr (List.mem_map_of_mem (List.mem_of_mem_take member))
  · exact fun lv member => totals lv (List.mem_of_mem_take member)
  · exact List.length_take_le levels shown
  · intro price rest
    have listed := (complete price).mp rest
    rw [split, List.mem_append] at listed
    refine listed.imp_right (fun behind => ⟨?_, ?_⟩)
    · obtain ⟨lv, left, _⟩ := List.mem_map.mp behind
      have more := List.length_pos_of_mem left
      rw [List.length_drop] at more
      exact List.length_take_of_le (by omega)
    · intro lv member
      rw [split] at sorted
      exact (List.pairwise_append.mp sorted).2.2 _ (List.mem_map_of_mem member) _ behind

private theorem Shows.complement (shows : Shows levels better rests total shown) :
    Shows levels (fun p q => better (100 - p) (100 - q)) (fun q => rests (100 - q))
      (fun q => total (100 - q)) (shown.map PriceLevel.complement) := by
  have back : ∀ lv : PriceLevel, 100 - lv.complement.priceCents = lv.priceCents := fun lv =>
    sub_sub_cancel 100 lv.priceCents
  constructor
  · rw [List.map_map, List.pairwise_map]
    refine (List.pairwise_map.mp shows.ordered).imp (fun {a b} order => ?_)
    simpa only [Function.comp_apply, back] using order
  · simpa only [List.forall_mem_map, back] using shows.resting
  · intro lv member
    obtain ⟨before, here, rfl⟩ := List.mem_map.mp member
    rw [back]
    exact shows.totals before here
  · simpa only [List.length_map] using shows.size
  · intro price rest
    refine (shows.best _ rest).imp ?_ ?_
    · intro listed
      obtain ⟨lv, member, equal⟩ := List.mem_map.mp listed
      refine List.mem_map.mpr ⟨lv.complement, List.mem_map_of_mem member, ?_⟩
      rw [PriceLevel.complement, equal, sub_sub_cancel]
    · simpa only [List.length_map, List.forall_mem_map, back] using id

end Shows

section Sorts

variable {levels : List PriceLevel}

theorem sortAscending_perm : (sortAscending levels).Perm levels := List.mergeSort_perm _ _

theorem sortDescending_perm : (sortDescending levels).Perm levels := List.mergeSort_perm _ _

theorem sortAscending_strict (distinct : (levels.map PriceLevel.priceCents).Nodup) :
    ((sortAscending levels).map PriceLevel.priceCents).Pairwise (· < ·) := by
  have weak : (sortAscending levels).Pairwise
      (fun a b => decide (a.priceCents ≤ b.priceCents) = true) := List.pairwise_mergeSort
    (fun a b c => by simpa only [decide_eq_true_eq] using le_trans)
    (fun a b => by simpa only [Bool.or_eq_true, decide_eq_true_eq] using le_total _ _) levels
  have apart := (sortAscending_perm.map PriceLevel.priceCents).nodup_iff.mpr distinct
  rw [List.pairwise_map]
  refine (weak.and (List.pairwise_map.mp apart)).imp (fun both => ?_)
  exact lt_of_le_of_ne (by simpa only [decide_eq_true_eq] using both.1) both.2

theorem sortDescending_strict (distinct : (levels.map PriceLevel.priceCents).Nodup) :
    ((sortDescending levels).map PriceLevel.priceCents).Pairwise (· > ·) := by
  have weak : (sortDescending levels).Pairwise
      (fun a b => decide (b.priceCents ≤ a.priceCents) = true) := List.pairwise_mergeSort
    (fun a b c => by simpa only [decide_eq_true_eq] using ge_trans)
    (fun a b => by simpa only [Bool.or_eq_true, decide_eq_true_eq] using le_total _ _) levels
  have apart := (sortDescending_perm.map PriceLevel.priceCents).nodup_iff.mpr distinct
  rw [List.pairwise_map]
  refine (weak.and (List.pairwise_map.mp apart)).imp (fun both => ?_)
  exact lt_of_le_of_ne (by simpa only [decide_eq_true_eq] using both.1) both.2.symm

private theorem sortAscending_of_sorted
    (sorted : (levels.map PriceLevel.priceCents).Pairwise (· < ·)) :
    sortAscending levels = levels :=
  List.mergeSort_of_pairwise ((List.pairwise_map.mp sorted).imp (fun below => by
    simpa only [decide_eq_true_eq] using below.le))

private theorem sortDescending_of_sorted
    (sorted : (levels.map PriceLevel.priceCents).Pairwise (· > ·)) :
    sortDescending levels = levels :=
  List.mergeSort_of_pairwise ((List.pairwise_map.mp sorted).imp (fun above => by
    simpa only [decide_eq_true_eq] using above.le))

end Sorts

section Sides

variable {orders : List OrderRow} {marketId : MarketId} {rows : List AggregateRow}
  {d : OrderDirection} {levels : Nat}

def restingTotal (orders : List OrderRow) (d : OrderDirection) (price : Int) : Int :=
  ((orders.filter (fun r => (r.bookPrice, r.bookDirection) = (price, d))).map
    OrderRow.remainingQuantity).sum

theorem mem_sideLevels (answer : rows.Perm (orderbookAggregate orders marketId))
    {lv : PriceLevel} : lv ∈ sideLevels d rows ↔
      RestsAt (activeOrders orders marketId) d lv.priceCents ∧
        lv.totalQuantity = restingTotal (activeOrders orders marketId) d lv.priceCents := by
  have row : lv ∈ sideLevels d rows ↔ ⟨lv.priceCents, d, lv.totalQuantity⟩ ∈ rows := by
    simp only [sideLevels, List.mem_map, List.mem_filter, decide_eq_true_eq]
    constructor
    · rintro ⟨⟨price, _, qty⟩, ⟨member, rfl⟩, rfl⟩
      exact member
    · exact fun member => ⟨_, ⟨member, rfl⟩, rfl⟩
  have group : (⟨lv.priceCents, d, lv.totalQuantity⟩ : AggregateRow) ∈
      orderbookAggregate orders marketId ↔ ((lv.priceCents, d), lv.totalQuantity) ∈
        groupTotals (fun r => (r.bookPrice, r.bookDirection)) OrderRow.remainingQuantity
          (activeOrders orders marketId) := by
    simp only [orderbookAggregate, List.mem_map, AggregateRow.mk.injEq]
    constructor
    · rintro ⟨⟨⟨_, _⟩, _⟩, member, rfl, rfl, rfl⟩
      exact member
    · exact fun member => ⟨_, member, rfl, rfl, rfl⟩
  rw [row, answer.mem_iff, group, mem_groupTotals]
  simp only [RestsAt, restingTotal, Prod.mk.injEq, and_comm]

theorem sideLevels_distinct (answer : rows.Perm (orderbookAggregate orders marketId)) :
    ((sideLevels d rows).map PriceLevel.priceCents).Nodup := by
  have keys : ((orderbookAggregate orders marketId).map
      (fun row => (row.bookPrice, row.bookDirection))).Nodup := by
    rw [orderbookAggregate, List.map_map]
    have groups : (groupTotals (fun r : OrderRow => (r.bookPrice, r.bookDirection))
        OrderRow.remainingQuantity (activeOrders orders marketId)).map Prod.fst =
          ((activeOrders orders marketId).map (fun r => (r.bookPrice, r.bookDirection))).dedup :=
      groupTotals_keys
    exact (congrArg List.Nodup groups).mpr (List.nodup_dedup _)
  have keys' := (answer.map (fun row => (row.bookPrice, row.bookDirection))).nodup_iff.mpr keys
  have apart := List.pairwise_map.mp (keys'.sublist
    ((List.filter_sublist (p := fun row => row.bookDirection = d)).map _))
  rw [sideLevels, List.map_map]
  refine List.pairwise_map.mpr (apart.imp_of_mem (fun {a b} here there other same => ?_))
  have first : a.bookDirection = d := by simpa using (List.mem_filter.mp here).2
  have second : b.bookDirection = d := by simpa using (List.mem_filter.mp there).2
  exact other (Prod.ext same (first.trans second.symm))

private theorem side_complete (answer : rows.Perm (orderbookAggregate orders marketId))
    (price : Int) :
    RestsAt (activeOrders orders marketId) d price ↔
      price ∈ (sideLevels d rows).map PriceLevel.priceCents := by
  rw [List.mem_map]
  constructor
  · intro rests
    exact ⟨⟨price, restingTotal (activeOrders orders marketId) d price⟩,
      (mem_sideLevels answer).mpr ⟨rests, rfl⟩, rfl⟩
  · rintro ⟨lv, member, rfl⟩
    exact ((mem_sideLevels answer).mp member).1

private theorem snapshot_asks (answer : rows.Perm (orderbookAggregate orders marketId)) :
    Shows levels (· < ·) (RestsAt (activeOrders orders marketId) .sell)
      (restingTotal (activeOrders orders marketId) .sell)
      ((sortAscending (sideLevels .sell rows)).take levels) := by
  refine shows_take (sortAscending_strict (sideLevels_distinct answer)) (fun price => ?_) ?_
  · rw [(sortAscending_perm.map PriceLevel.priceCents).mem_iff]
    exact side_complete answer price
  · intro lv member
    exact ((mem_sideLevels answer).mp (sortAscending_perm.mem_iff.mp member)).2

private theorem snapshot_bids (answer : rows.Perm (orderbookAggregate orders marketId)) :
    Shows levels (· > ·) (RestsAt (activeOrders orders marketId) .buy)
      (restingTotal (activeOrders orders marketId) .buy)
      ((sortDescending (sideLevels .buy rows)).take levels) := by
  refine shows_take (sortDescending_strict (sideLevels_distinct answer)) (fun price => ?_) ?_
  · rw [(sortDescending_perm.map PriceLevel.priceCents).mem_iff]
    exact side_complete answer price
  · intro lv member
    exact ((mem_sideLevels answer).mp (sortDescending_perm.mem_iff.mp member)).2

/-- Who rests at a price of the book: whoever trades YES at it, and whoever trades
NO the other way at its complement. -/
private theorem OrderRow.Transformed.rests_iff {r : OrderRow} (transformed : r.Transformed)
    (q : Int) :
    decide ((r.bookPrice, r.bookDirection) = (100 - q, d)) =
      (r.Asks .no d.opposite q || r.Asks .yes d (100 - q)) := by
  unfold OrderRow.Transformed at transformed
  unfold OrderRow.Asks
  rw [Bool.eq_iff_iff]
  cases side : r.originalSide <;> cases direction : r.originalDirection <;> cases d <;>
    simp only [side, direction, transformOrder, Prod.mk.injEq] at transformed <;>
    simp [transformed.2.1, transformed.2.2, OrderDirection.opposite]

private theorem restingTotal_sell {orders : List OrderRow}
    (transformed : ∀ r ∈ orders, r.Transformed)
    (q : Int) : restingTotal orders .sell (100 - q) = noBidQuantity orders q := by
  rw [restingTotal, noBidQuantity]
  exact congrArg (fun rs : List OrderRow => (rs.map OrderRow.remainingQuantity).sum)
    (List.filter_congr (fun r member => (transformed r member).rests_iff q))

private theorem restingTotal_buy {orders : List OrderRow}
    (transformed : ∀ r ∈ orders, r.Transformed)
    (q : Int) : restingTotal orders .buy (100 - q) = noAskQuantity orders q := by
  rw [restingTotal, noAskQuantity]
  exact congrArg (fun rs : List OrderRow => (rs.map OrderRow.remainingQuantity).sum)
    (List.filter_congr (fun r member => (transformed r member).rests_iff q))

end Sides

section Response

variable {orders : List OrderRow} {marketId : MarketId} {rows : List AggregateRow}
  {levels : Nat} {lastPrice : Option Int} {now : Timestamp} {isoformat : Timestamp → String}

private theorem complement_complement (levels : List PriceLevel) :
    (levels.map PriceLevel.complement).map PriceLevel.complement = levels := by
  rw [List.map_map]
  refine List.map_id'' (fun lv => ?_) levels
  simp only [Function.comp_apply, PriceLevel.complement, sub_sub_cancel]

theorem sortDescending_complement {levels : List PriceLevel}
    (sorted : (levels.map PriceLevel.priceCents).Pairwise (· < ·)) :
    sortDescending (levels.map PriceLevel.complement) = levels.map PriceLevel.complement := by
  refine sortDescending_of_sorted ?_
  rw [List.map_map, List.pairwise_map]
  exact (List.pairwise_map.mp sorted).imp (fun below => sub_lt_sub_left below 100)

theorem sortAscending_complement {levels : List PriceLevel}
    (sorted : (levels.map PriceLevel.priceCents).Pairwise (· > ·)) :
    sortAscending (levels.map PriceLevel.complement) = levels.map PriceLevel.complement := by
  refine sortAscending_of_sorted ?_
  rw [List.map_map, List.pairwise_map]
  exact (List.pairwise_map.mp sorted).imp (fun above => sub_lt_sub_left above 100)

/-- The response to a snapshot of any answer of the database shows the best levels
of the NO book, bids and asks, and converting them again gives the YES book. -/
theorem no_book_shown (answer : rows.Perm (orderbookAggregate orders marketId))
    (transformed : ∀ r ∈ activeOrders orders marketId, r.Transformed) :
    let response := OrderbookResponse.fromSnapshot isoformat
      (MarketRepository.getOrderbookSnapshot rows lastPrice now marketId levels)
    Shows levels (· > ·) (fun q => RestsAt (activeOrders orders marketId) .sell (100 - q))
        (noBidQuantity (activeOrders orders marketId)) response.no.bids ∧
      Shows levels (· < ·) (fun q => RestsAt (activeOrders orders marketId) .buy (100 - q))
        (noAskQuantity (activeOrders orders marketId)) response.no.asks ∧
      toNoView response.no.bids response.no.asks = (response.yes.bids, response.yes.asks) := by
  have asks : Shows levels (· < ·) (RestsAt (activeOrders orders marketId) .sell)
      (restingTotal (activeOrders orders marketId) .sell)
      ((sortAscending (sideLevels .sell rows)).take levels) := snapshot_asks answer
  have bids : Shows levels (· > ·) (RestsAt (activeOrders orders marketId) .buy)
      (restingTotal (activeOrders orders marketId) .buy)
      ((sortDescending (sideLevels .buy rows)).take levels) := snapshot_bids answer
  have noBids := sortDescending_complement asks.ordered
  have noAsks := sortAscending_complement bids.ordered
  have bidQuantity : (fun q => restingTotal (activeOrders orders marketId) .sell (100 - q)) =
      noBidQuantity (activeOrders orders marketId) := funext (restingTotal_sell transformed)
  have askQuantity : (fun q => restingTotal (activeOrders orders marketId) .buy (100 - q)) =
      noAskQuantity (activeOrders orders marketId) := funext (restingTotal_buy transformed)
  simp only [OrderbookResponse.fromSnapshot, toNoView, MarketRepository.getOrderbookSnapshot,
    noBids, noAsks, complement_complement, sortDescending_of_sorted bids.ordered,
    sortAscending_of_sorted asks.ordered, and_true]
  constructor
  · have view := asks.complement
    rw [bidQuantity] at view
    simpa only [sub_lt_sub_iff_left] using view
  · have view := bids.complement
    rw [askQuantity] at view
    simpa only [gt_iff_lt, sub_lt_sub_iff_left] using view

end Response

section Example

def restingRow (side : OriginalSide) (direction : OrderDirection) (price qty : Int) : OrderRow where
  clientOrderId := "c"
  marketId := "rain"
  userId := "ann"
  originalSide := side
  originalDirection := direction
  originalPrice := price
  bookType := (transformOrder side direction price).1
  bookDirection := (transformOrder side direction price).2.1
  bookPrice := (transformOrder side direction price).2.2
  timeInForce := .gtc
  quantity := qty
  filledQuantity := 0
  remainingQuantity := qty
  frozenAmount := 0
  frozenAssetType := .funds
  status := .open
  cancelReason := none
  createdAt := 0

def sampleOrders : List OrderRow :=
  [restingRow .yes .sell 67 4, restingRow .no .buy 33 6, restingRow .yes .sell 68 2,
    restingRow .no .sell 40 5]

/-- The best NO bid adds the native and the synthetic order; the second is cut. -/
theorem sample_no_book_shown :
    let response := OrderbookResponse.fromSnapshot (fun _ => "")
      (MarketRepository.getOrderbookSnapshot (orderbookAggregate sampleOrders "rain") none 0
        "rain" 1)
    Shows 1 (· > ·) (fun q => RestsAt (activeOrders sampleOrders "rain") .sell (100 - q))
        (noBidQuantity (activeOrders sampleOrders "rain")) response.no.bids ∧
      Shows 1 (· < ·) (fun q => RestsAt (activeOrders sampleOrders "rain") .buy (100 - q))
        (noAskQuantity (activeOrders sampleOrders "rain")) response.no.asks ∧
      toNoView response.no.bids response.no.asks = (response.yes.bids, response.yes.asks) :=
  no_book_shown (.refl _) (by decide)

example : noBidQuantity (activeOrders sampleOrders "rain") 33 = 10 := by decide

end Example

end PredictionMarket
