/- PredictionMarket/Matching/FillSoundness
   digest: Fills respect the limit, name a maker once and conserve quantity, own orders included. -/

import PredictionMarket.Matching.PriceLevels

set_option autoImplicit false
set_option relaxedAutoImplicit false

namespace PredictionMarket

open Library

/-- The book fields are those that `transformOrder` gives. -/
def Order.Transformed (o : Order) : Prop :=
  (o.bookType, o.bookDirection, o.bookPrice) =
    transformOrder o.originalSide o.originalDirection o.originalPrice

instance (o : Order) : Decidable o.Transformed := inferInstanceAs (Decidable (_ = _))

def Order.ownPrice (o : Order) (price : Int) : Int :=
  match o.originalSide with
  | .yes => price
  | .no => 100 - price

def Order.Accepts (o : Order) (price : Int) : Prop :=
  match o.originalDirection with
  | .buy => o.ownPrice price ≤ o.originalPrice
  | .sell => o.originalPrice ≤ o.ownPrice price

def OrderBook.restingQuantity (ob : OrderBook) (id : OrderId) : Int :=
  ((ob.lookup id).map Resting.quantity).getD 0

def givenBy (id : OrderId) (trades : List TradeResult) : Int :=
  ((trades.filter (fun t => t.makerOrderId = id)).map TradeResult.quantity).sum

/-- A fill of an order against a book. -/
structure SoundFill (o : Order) (ob : OrderBook) (t : TradeResult) : Prop where
  positive : 0 < t.quantity
  rested : ∃ maker ∈ ob.queue o.bookDirection.opposite t.price,
    maker.orderId = t.makerOrderId ∧ isSelfTrade o.userId maker.userId = false ∧
      t.quantity ≤ maker.quantity
  crosses : o.bookDirection.opposite.Crosses t.price o.bookPrice
  accepted : o.Accepts t.price

/-- What matching an order against a book returns, seen from outside. -/
structure SoundMatch (o : Order) (ob : OrderBook) (result : Matched) : Prop where
  fills : ∀ t ∈ result.trades, SoundFill o ob t
  makers : (result.trades.map TradeResult.makerOrderId).Nodup
  prices : result.trades.Pairwise (fun s t => ¬ o.bookDirection.opposite.Better t.price s.price)
  filled : (result.trades.map TradeResult.quantity).sum =
    o.remainingQuantity - result.incoming.remainingQuantity
  conserved : ∀ d p, ∀ bo ∈ ob.queue d p, bo.quantity =
    result.book.restingQuantity bo.orderId + givenBy bo.orderId result.trades
  kept : ∀ d p, ∀ bo ∈ result.book.queue d p, ∃ before ∈ ob.queue d p,
    bo = { before with quantity := bo.quantity }
  ownSide : result.book.queue o.bookDirection = ob.queue o.bookDirection

private theorem OrderDirection.Crosses.accepted {o : Order} (transformed : o.Transformed)
    {price : Int}
    (crosses : o.bookDirection.opposite.Crosses price o.bookPrice) : o.Accepts price := by
  unfold Order.Transformed at transformed
  unfold Order.Accepts Order.ownPrice
  cases side : o.originalSide <;> cases direction : o.originalDirection <;>
    simp only [side, direction, transformOrder, Prod.mk.injEq] at transformed <;>
    rw [transformed.2.1, transformed.2.2] at crosses <;>
    simp only [OrderDirection.opposite, OrderDirection.Crosses] at crosses ⊢ <;> omega

section Takings

variable {o : Order} {ob : OrderBook}

theorem mem_takings {Q : Int → List BookOrder} {ps : List Int} (stocked : ∀ p, Stocked (Q p))
    {x : (Int × BookOrder) × Int} (member : x ∈ takings o Q ps) :
    x.1.1 ∈ ps ∧ x.1.2 ∈ Q x.1.1 ∧ isSelfTrade o.userId x.1.2.userId = false ∧
      0 < x.2 ∧ x.2 ≤ x.1.2.quantity := by
  obtain ⟨listed, bounds⟩ := mem_allot (entries_positive stocked) member
  obtain ⟨reached, queued, stranger⟩ := mem_entries.mp listed
  exact ⟨(reach_sublist _ _).subset reached, queued, stranger, bounds⟩

private theorem takings_makers (wf : ob.WellFormed) (d : OrderDirection) {ps : List Int}
    (distinct : ps.Nodup) :
    ((takings o (ob.queue d) ps).map (fun x => x.1.2.orderId)).Nodup := by
  have nodup : (entries o.userId (ob.queue d)
      (reach (fun p => ownAt o.userId (ob.queue d p)) ps)).Nodup :=
    entries_nodup (distinct.sublist (reach_sublist _ _)) (fun p => (wf.once d p).of_map)
  have ids : ((entries o.userId (ob.queue d)
      (reach (fun p => ownAt o.userId (ob.queue d p)) ps)).map (fun e => e.2.orderId)).Nodup := by
    refine nodup.map_on ?_
    rintro ⟨p, a⟩ first ⟨q, b⟩ second same
    have queued := (mem_entries.mp first).2.1
    have queued' := (mem_entries.mp second).2.1
    obtain ⟨_, rfl⟩ := wf.oneLevel d p d q a queued b queued' same
    exact congrArg (Prod.mk p) (List.inj_on_of_nodup_map (wf.once d p) queued queued' same)
  have front : ((takings o (ob.queue d) ps).map Prod.fst).map (fun e => e.2.orderId) <+:
      (entries o.userId (ob.queue d)
        (reach (fun p => ownAt o.userId (ob.queue d p)) ps)).map (fun e => e.2.orderId) :=
    (allot_front _ _).map _
  rw [List.map_map] at front
  exact ids.sublist front.sublist

private theorem takings_prices {Q : Int → List BookOrder} {d : OrderDirection} {ps : List Int}
    (sorted : ps.Pairwise d.Better) :
    (takings o Q ps).Pairwise (fun x y => ¬ d.Better y.1.1 x.1.1) := by
  have levels : (entries o.userId Q (reach (fun p => ownAt o.userId (Q p)) ps)).Pairwise
      (fun a b => ¬ d.Better b.1 a.1) := by
    refine List.pairwise_flatMap.mpr ⟨?_, ?_⟩
    · intro p _
      refine List.pairwise_map.mpr (List.pairwise_of_forall ?_)
      intro a b
      exact d.better_irrefl p
    · refine (sorted.sublist (reach_sublist _ _)).imp ?_
      intro p q better a first b second
      obtain ⟨_, _, rfl⟩ := List.mem_map.mp first
      obtain ⟨_, _, rfl⟩ := List.mem_map.mp second
      exact OrderDirection.better_asymm better
  have served : (takings o Q ps).map Prod.fst <+:
      entries o.userId Q (reach (fun p => ownAt o.userId (Q p)) ps) := allot_front _ _
  exact List.pairwise_map.mp (levels.sublist served.sublist)

end Takings

section Conservation

private def quantityIn (v : RestingOrders) (id : OrderId) : Int :=
  ((v id).map Resting.quantity).getD 0

private theorem quantityIn_fill {v : RestingOrders} {id : OrderId} {r : Resting}
    (here : v id = some r) (qty : Int) (j : OrderId) :
    quantityIn v j = quantityIn (v.fill id qty) j + if id = j then qty else 0 := by
  by_cases same : j = id
  · subst same
    by_cases emptied : r.quantity - qty = 0
    · simp [quantityIn, RestingOrders.fill, here, emptied]
      omega
    · simp [quantityIn, RestingOrders.fill, here, emptied]
  · simp [quantityIn, RestingOrders.fill, same, Ne.symm same]

private theorem Fills.conserves {o p : Order} {u v : RestingOrders} {ts : List TradeResult}
    (run : Fills o u ts p v) (id : OrderId) :
    quantityIn u id = quantityIn v id + givenBy id ts := by
  induction run with
  | done => simp [givenBy]
  | @fill o o' u v id' r ts here _ _ _ _ _ ih =>
    rw [quantityIn_fill here, ih]
    by_cases same : id' = id
    · subst same
      simp [givenBy, tradeOf]
      omega
    · simp [givenBy, tradeOf, same]

private theorem OrderBook.Represents.lookup {ob : OrderBook} {v : RestingOrders}
    (rep : ob.Represents v) (wf : ob.WellFormed) : v = ob.lookup := by
  funext id
  cases got : v id with
  | some r =>
    obtain ⟨bo, queued, rfl, row⟩ := rep.present got
    rw [wf.lookup_queued queued, row]
  | none =>
    cases found : ob.lookup id with
    | none => rfl
    | some r =>
      obtain ⟨bo, queued, rfl, _⟩ := wf.represents.present found
      rw [rep.queued queued] at got
      cases got

theorem mem_swept {userId : UserId} {r : Int} {q : List BookOrder} {bo : BookOrder}
    (member : bo ∈ swept userId r q) :
    ∃ before ∈ q, bo = { before with quantity := bo.quantity } := by
  have parts : ∀ r, (∀ bo ∈ (sweep userId r q).1, ∃ before ∈ q,
      bo = { before with quantity := bo.quantity }) ∧ (sweep userId r q).2 ⊆ q := by
    clear member
    induction q with
    | nil => exact fun r => ⟨fun bo member => (List.not_mem_nil member).elim, List.Subset.refl _⟩
    | cons a q ih =>
      intro r
      rw [sweep]
      split
      · split
        · obtain ⟨ahead, passed⟩ := ih r
          refine ⟨?_, List.cons_subset_cons a passed⟩
          intro bo member
          obtain ⟨before, inside, same⟩ := ahead bo member
          exact ⟨before, List.mem_cons_of_mem a inside, same⟩
        · split
          · obtain ⟨ahead, passed⟩ := ih (r - a.quantity)
            refine ⟨?_, List.subset_cons_of_subset a passed⟩
            intro bo member
            obtain ⟨before, inside, same⟩ := ahead bo member
            exact ⟨before, List.mem_cons_of_mem a inside, same⟩
          · refine ⟨?_, List.nil_subset _⟩
            intro bo member
            obtain rfl | later := List.mem_cons.mp member
            · exact ⟨a, List.mem_cons_self, rfl⟩
            · exact ⟨bo, List.mem_cons_of_mem a later, rfl⟩
      · exact ⟨fun bo member => ⟨bo, member, rfl⟩, List.nil_subset _⟩
  obtain ⟨ahead, passed⟩ := parts r
  obtain first | last := List.mem_append.mp member
  · exact ahead bo first
  · exact ⟨bo, passed last, rfl⟩

end Conservation

/-- Matching is sound for every order that comes from the transformer. -/
theorem matchOrder_sound {ob : OrderBook} (wf : ob.WellFormed) {o : Order}
    (transformed : o.Transformed) : SoundMatch o ob (matchOrder o ob) := by
  have sweeps := matchOrder_sweeps wf o
  have distinct : (ob.live o.bookDirection.opposite o.bookPrice).Nodup := live_nodup
  constructor
  · intro t member
    rw [sweeps.trades] at member
    obtain ⟨x, taken, rfl⟩ := List.mem_map.mp member
    obtain ⟨listed, queued, stranger, positive, most⟩ :=
      mem_takings (wf.stocked o.bookDirection.opposite) taken
    have crosses := (mem_live.mp listed).2.1
    constructor
    · rw [makeTrade_quantity]
      exact positive
    · rw [makeTrade_price, makeTrade_makerOrderId, makeTrade_quantity]
      exact ⟨x.1.2, queued, rfl, stranger, most⟩
    · rw [makeTrade_price]
      exact crosses
    · rw [makeTrade_price]
      exact crosses.accepted transformed
  · rw [sweeps.trades, List.map_map]
    simpa [Function.comp_def] using takings_makers wf o.bookDirection.opposite distinct
  · rw [sweeps.trades, List.pairwise_map]
    simpa using takings_prices live_sorted
  · rw [sweeps.trades, sweeps.incoming, List.map_map, Order.taken_remaining]
    simp [Function.comp_def]
  · intro d p bo queued
    obtain ⟨v, fills, rep, _⟩ := matchOrder_spec o ob ob.lookup wf.represents wf.bestExact
    have conserved := fills.conserves bo.orderId
    rw [rep.lookup (matchOrder_wellFormed wf o), quantityIn, wf.lookup_queued queued] at conserved
    exact conserved
  · intro d p bo queued
    obtain same | ⟨r, pass⟩ := queue_matchOrder_cases wf o d p
    · rw [same] at queued
      exact ⟨bo, queued, rfl⟩
    · rw [pass] at queued
      exact mem_swept queued
  · exact (sweeps.far o.bookDirection o.bookDirection.ne_opposite).1

section Example

private def bidsAtSixtyTwo : OrderBook :=
  (OrderBook.empty.addOrder ⟨1, "alice", .nativeBuy, 10, 0⟩ 62 .buy).addOrder
    ⟨2, "bob", .nativeBuy, 10, 0⟩ 62 .buy

private theorem bidsAtSixtyTwo_wellFormed : bidsAtSixtyTwo.WellFormed := by
  have first := OrderBook.consistent_empty.addOrder ⟨1, "alice", .nativeBuy, 10, 0⟩ 62 .buy
    (OrderBook.fresh_empty 1) (by decide) (by decide)
  exact (first.addOrder ⟨2, "bob", .nativeBuy, 10, 0⟩ 62 .buy
    ((OrderBook.fresh_empty 2).addOrder (by decide) 62 .buy) (by decide) (by decide)).wellFormed

private def noAtForty : Order :=
  ⟨3, "c3", "m", "alice", .no, .buy, 40, .syntheticSell, .sell, 60, 5, 200, .funds, .gtc, .open,
    none, 0, 5, 0⟩

end Example

/-- She gets them for 38 cents from bob, behind her own bid. -/
theorem no_buyer_fill_sound :
    SoundMatch noAtForty bidsAtSixtyTwo (matchOrder noAtForty bidsAtSixtyTwo) ∧
      (matchOrder noAtForty bidsAtSixtyTwo).trades =
        [makeTradeSellIncoming noAtForty ⟨2, "bob", .nativeBuy, 10, 0⟩ 62 5] :=
  ⟨matchOrder_sound bidsAtSixtyTwo_wellFormed (by decide), by decide +kernel⟩

end PredictionMarket
