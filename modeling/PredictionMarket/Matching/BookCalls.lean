/- PredictionMarket/Matching/BookCalls
   digest: Cursors, index and queues of an orderbook agree after every sequence of its calls. -/

import PredictionMarket.Matching.MatchOrder
import PredictionMarket.Library.Run

set_option autoImplicit false
set_option relaxedAutoImplicit false

namespace PredictionMarket

open Library

namespace OrderBook

def Fresh (ob : OrderBook) (id : OrderId) : Prop :=
  ∀ d p, ∀ bo ∈ ob.queue d p, bo.orderId ≠ id

structure WellFormed (ob : OrderBook) : Prop where
  levels : ∀ d p, ob.queue d p ≠ [] → 1 ≤ p ∧ p ≤ 99
  highestBid : ∀ p, ob.bids p ≠ [] → p ≤ ob.bestBid
  bestBid : ob.bids ob.bestBid ≠ [] ∨ ob.bestBid = 0 ∧ ∀ p, ob.bids p = []
  lowestAsk : ∀ p, ob.asks p ≠ [] → ob.bestAsk ≤ p
  bestAsk : ob.asks ob.bestAsk ≠ [] ∨ ob.bestAsk = 100 ∧ ∀ p, ob.asks p = []
  index : ∀ id d p, ob.orderIndex id = some (d, p) ↔ ∃ bo ∈ ob.queue d p, bo.orderId = id
  once : ∀ d p, ((ob.queue d p).map BookOrder.orderId).Nodup
  oneLevel : ∀ d p e q, ∀ bo ∈ ob.queue d p, ∀ bo' ∈ ob.queue e q,
    bo.orderId = bo'.orderId → d = e ∧ p = q
  positive : ∀ d p, ∀ bo ∈ ob.queue d p, 0 < bo.quantity

end OrderBook

inductive BookCall
  | addOrder (bookOrder : BookOrder) (price : Int) (side : OrderDirection)
  | cancelOrder (orderId : OrderId)
  | matchOrder (incoming : Order)

def bookCall : Steps OrderBook BookCall
  | ob, .addOrder bookOrder price side, ob' =>
    ob.Fresh bookOrder.orderId ∧ (1 ≤ price ∧ price ≤ 99) ∧ 0 < bookOrder.quantity ∧
      ob' = ob.addOrder bookOrder price side
  | ob, .cancelOrder orderId, ob' => ob' = ob.cancelOrder orderId
  | ob, .matchOrder incoming, ob' =>
    0 < incoming.remainingQuantity ∧ ob' = (PredictionMarket.matchOrder incoming ob).book

namespace OrderBook

def Consistent (ob : OrderBook) : Prop :=
  ∃ v : RestingOrders, ob.Represents v ∧ v.Sound ∧ ∀ d, ob.BestExact d

theorem consistent_empty : OrderBook.empty.Consistent := by
  refine ⟨fun _ => none, .empty, ?_, bestExact_empty⟩
  intro id r got
  cases got

private theorem Fresh.absent {ob : OrderBook} {v : RestingOrders} {id : OrderId}
    (fresh : ob.Fresh id)
    (rep : ob.Represents v) : v id = none := by
  cases got : v id with
  | none => rfl
  | some r =>
    obtain ⟨bo, queued, key, _⟩ := rep.present got
    exact absurd key (fresh _ _ bo queued)

theorem Consistent.step {ob ob' : OrderBook} {call : BookCall} (step : bookCall ob call ob')
    (consistent : ob.Consistent) : ob'.Consistent := by
  obtain ⟨v, rep, sound, exact⟩ := consistent
  cases call with
  | addOrder bo price side =>
    obtain ⟨fresh, range, positive, rfl⟩ := step
    exact ⟨_, rep.addOrder bo price side (fresh.absent rep),
      sound.place bo.orderId ⟨range.1, range.2, positive⟩,
      fun d => bestExact_addOrder (exact d) bo side range.1 range.2⟩
  | cancelOrder id =>
    obtain rfl := step
    exact ⟨_, rep.cancelOrder id, sound.erase id,
      fun d => bestExact_cancelOrder rep (exact d) id⟩
  | matchOrder incoming =>
    obtain ⟨_, rfl⟩ := step
    obtain ⟨v', fills, rep', exact'⟩ := matchOrder_spec incoming ob v rep exact
    exact ⟨v', rep', fills.sound sound, exact'⟩

private theorem BestExact.bids {ob : OrderBook} (exact : ob.BestExact .buy)
    (levels : ∀ d p, ob.queue d p ≠ [] → 1 ≤ p ∧ p ≤ 99) :
    (∀ p, ob.bids p ≠ [] → p ≤ ob.bestBid) ∧
      (ob.bids ob.bestBid ≠ [] ∨ ob.bestBid = 0 ∧ ∀ p, ob.bids p = []) := by
  obtain ⟨clear, top⟩ := exact
  have highest : ∀ p, ob.bids p ≠ [] → p ≤ ob.bestBid := by
    intro p crowded
    by_contra above
    have range := levels .buy p crowded
    exact crowded (clear p range.1 range.2 (not_le.mp above))
  refine ⟨highest, ?_⟩
  rcases top with none | found
  · refine Or.inr ⟨none, fun p => ?_⟩
    by_contra crowded
    have range := levels .buy p crowded
    have below := highest p crowded
    have zero : ob.bestBid = 0 := none
    omega
  · exact Or.inl found.2.2

private theorem BestExact.asks {ob : OrderBook} (exact : ob.BestExact .sell)
    (levels : ∀ d p, ob.queue d p ≠ [] → 1 ≤ p ∧ p ≤ 99) :
    (∀ p, ob.asks p ≠ [] → ob.bestAsk ≤ p) ∧
      (ob.asks ob.bestAsk ≠ [] ∨ ob.bestAsk = 100 ∧ ∀ p, ob.asks p = []) := by
  obtain ⟨clear, top⟩ := exact
  have lowest : ∀ p, ob.asks p ≠ [] → ob.bestAsk ≤ p := by
    intro p crowded
    by_contra below
    have range := levels .sell p crowded
    exact crowded (clear p range.1 range.2 (not_le.mp below))
  refine ⟨lowest, ?_⟩
  rcases top with none | found
  · refine Or.inr ⟨none, fun p => ?_⟩
    by_contra crowded
    have range := levels .sell p crowded
    have above := lowest p crowded
    have hundred : ob.bestAsk = 100 := none
    omega
  · exact Or.inl found.2.2

theorem Consistent.wellFormed {ob : OrderBook} (consistent : ob.Consistent) : ob.WellFormed := by
  obtain ⟨v, rep, sound, exact⟩ := consistent
  have entry : ∀ d p, ∀ bo ∈ ob.queue d p, 1 ≤ p ∧ p ≤ 99 ∧ 0 < bo.quantity :=
    fun d p bo queued => sound _ _ (rep.queued queued)
  have levels : ∀ d p, ob.queue d p ≠ [] → 1 ≤ p ∧ p ≤ 99 := by
    intro d p crowded
    obtain ⟨bo, queued⟩ := List.exists_mem_of_ne_nil _ crowded
    have fits := entry d p bo queued
    exact ⟨fits.1, fits.2.1⟩
  obtain ⟨highestBid, bestBid⟩ := (exact .buy).bids levels
  obtain ⟨lowestAsk, bestAsk⟩ := (exact .sell).asks levels
  refine ⟨levels, highestBid, bestBid, lowestAsk, bestAsk, fun id d p => ?_, rep.once, ?_,
    fun d p bo queued => (entry d p bo queued).2.2⟩
  · rw [rep.index, Option.map_eq_some_iff]
    constructor
    · rintro ⟨r, got, level⟩
      obtain ⟨bo, queued, key, _⟩ := rep.present got
      obtain ⟨rfl, rfl⟩ := Prod.mk.inj level
      exact ⟨bo, queued, key⟩
    · rintro ⟨bo, queued, rfl⟩
      exact ⟨_, rep.queued queued, rfl⟩
  · intro d p e q bo queued bo' queued' same
    have unique := rep.level_unique queued queued' same
    exact ⟨unique.1, unique.2.1⟩

end OrderBook

/-- After every sequence of calls that starts from an empty book, the cursors and
the index say exactly what the queues hold. -/
theorem book_calls_wellFormed {calls : List BookCall} {ob : OrderBook}
    (run : Run bookCall .empty calls ob) : ob.WellFormed := by
  have consistent := run.preserves (fun _ _ _ step => OrderBook.Consistent.step step)
    OrderBook.consistent_empty
  exact consistent.wellFormed

section Example

private def restingBid : BookOrder := ⟨1, "alice", .nativeBuy, 10, 0⟩

private def incomingSale : Order :=
  ⟨2, "c2", "m", "bob", .yes, .sell, 40, .nativeSell, .sell, 40, 4, 4, .yesShares, .gtc, .open,
    none, 0, 4, 0⟩

end Example

theorem partly_filled_bid_wellFormed :
    ∃ ob, Run bookCall .empty [.addOrder restingBid 40 .buy, .matchOrder incomingSale,
      .cancelOrder 7] ob ∧ ob.WellFormed ∧ ob.bestBid = 40 := by
  have fresh : OrderBook.empty.Fresh restingBid.orderId := by
    intro d p bo queued
    cases d <;> cases queued
  have run : Run bookCall .empty [.addOrder restingBid 40 .buy, .matchOrder incomingSale,
      .cancelOrder 7] ((matchOrder incomingSale
        (OrderBook.empty.addOrder restingBid 40 .buy)).book.cancelOrder 7) :=
    .cons ⟨fresh, by decide, by decide, rfl⟩ (.cons ⟨by decide, rfl⟩ (.single rfl))
  exact ⟨_, run, book_calls_wellFormed run, rfl⟩

end PredictionMarket
