/- PredictionMarket/Matching/OrderBook
   digest: The single YES orderbook and the abstract set of resting orders it represents. -/

import PredictionMarket.Domain.Types
import Mathlib.Data.List.Nodup
import Mathlib.Data.List.Perm.Basic
import Mathlib.Logic.Function.Basic
import Mathlib.Algebra.Order.Ring.Int

set_option autoImplicit false
set_option relaxedAutoImplicit false

namespace PredictionMarket

/-- Single YES orderbook per prediction market; levels 1 to 99 are price cents.
A best bid of 0 means no bids, a best ask of 100 no asks. -/
structure OrderBook where
  bids : Int → List BookOrder
  asks : Int → List BookOrder
  bestBid : Int
  bestAsk : Int
  orderIndex : OrderId → Option (OrderDirection × Int)

namespace OrderBook

def empty : OrderBook := ⟨fun _ => [], fun _ => [], 0, 100, fun _ => none⟩

/-- The levels that a refresh scans, best bid first and best ask first. -/
def bidLevels : List Int := (List.range 99).map (fun i : Nat => 99 - (i : Int))

def askLevels : List Int := (List.range 99).map (fun i : Nat => (i : Int) + 1)

def refreshBestBid (ob : OrderBook) : OrderBook :=
  { ob with bestBid := (bidLevels.find? (fun p => ob.bids p ≠ [])).getD 0 }

def refreshBestAsk (ob : OrderBook) : OrderBook :=
  { ob with bestAsk := (askLevels.find? (fun p => ob.asks p ≠ [])).getD 100 }

def queue (ob : OrderBook) : OrderDirection → Int → List BookOrder
  | .buy => ob.bids
  | .sell => ob.asks

def best (ob : OrderBook) : OrderDirection → Int
  | .buy => ob.bestBid
  | .sell => ob.bestAsk

def refreshBest (ob : OrderBook) : OrderDirection → OrderBook
  | .buy => ob.refreshBestBid
  | .sell => ob.refreshBestAsk

def setQueue (ob : OrderBook) (d : OrderDirection) (p : Int) (q : List BookOrder) : OrderBook :=
  match d with
  | .buy => { ob with bids := Function.update ob.bids p q }
  | .sell => { ob with asks := Function.update ob.asks p q }

def dropIndex (ob : OrderBook) (id : OrderId) : OrderBook :=
  { ob with orderIndex := Function.update ob.orderIndex id none }

def addOrder (ob : OrderBook) (bookOrder : BookOrder) (price : Int) (side : OrderDirection) :
    OrderBook :=
  let ob := match side with
    | .buy =>
      { ob with
        bids := Function.update ob.bids price (ob.bids price ++ [bookOrder])
        bestBid := if price > ob.bestBid then price else ob.bestBid }
    | .sell =>
      { ob with
        asks := Function.update ob.asks price (ob.asks price ++ [bookOrder])
        bestAsk := if price < ob.bestAsk then price else ob.bestAsk }
  { ob with orderIndex := Function.update ob.orderIndex bookOrder.orderId (some (side, price)) }

def cancelOrder (ob : OrderBook) (orderId : OrderId) : OrderBook :=
  match ob.orderIndex orderId with
  | none => ob
  | some (side, price) =>
    let ob := ob.dropIndex orderId
    let ob := ob.setQueue side price ((ob.queue side price).eraseP (fun bo => bo.orderId = orderId))
    if price = ob.best side then ob.refreshBest side else ob

@[simp] theorem queue_setQueue_self (ob : OrderBook) (d : OrderDirection) (p : Int)
    (q : List BookOrder) : (ob.setQueue d p q).queue d p = q := by
  cases d <;> simp [setQueue, queue]

theorem queue_setQueue (ob : OrderBook) (d e : OrderDirection) (p r : Int)
    (q : List BookOrder) :
    (ob.setQueue d p q).queue e r = if e = d ∧ r = p then q else ob.queue e r := by
  cases d <;> cases e <;> simp [setQueue, queue, Function.update_apply]

@[simp] theorem best_setQueue (ob : OrderBook) (d e : OrderDirection) (p : Int)
    (q : List BookOrder) : (ob.setQueue d p q).best e = ob.best e := by
  cases d <;> cases e <;> rfl

@[simp] theorem orderIndex_setQueue (ob : OrderBook) (d : OrderDirection) (p : Int)
    (q : List BookOrder) : (ob.setQueue d p q).orderIndex = ob.orderIndex := by
  cases d <;> rfl

@[simp] theorem queue_dropIndex (ob : OrderBook) (id : OrderId) :
    (ob.dropIndex id).queue = ob.queue := by
  funext d
  cases d <;> rfl

@[simp] theorem best_dropIndex (ob : OrderBook) (id : OrderId) (d : OrderDirection) :
    (ob.dropIndex id).best d = ob.best d := by
  cases d <;> rfl

theorem orderIndex_dropIndex (ob : OrderBook) (id j : OrderId) :
    (ob.dropIndex id).orderIndex j = if j = id then none else ob.orderIndex j := by
  simp [dropIndex, Function.update_apply]

@[simp] theorem queue_refreshBest (ob : OrderBook) (d : OrderDirection) :
    (ob.refreshBest d).queue = ob.queue := by
  funext e
  cases d <;> cases e <;> rfl

@[simp] theorem orderIndex_refreshBest (ob : OrderBook) (d : OrderDirection) :
    (ob.refreshBest d).orderIndex = ob.orderIndex := by
  cases d <;> rfl

theorem best_refreshBest_ne (ob : OrderBook) {d e : OrderDirection} (other : e ≠ d) :
    (ob.refreshBest d).best e = ob.best e := by
  cases d <;> cases e <;> first | rfl | exact absurd rfl other

theorem queue_addOrder (ob : OrderBook) (bo : BookOrder) (p r : Int) (d e : OrderDirection) :
    (ob.addOrder bo p d).queue e r =
      if e = d ∧ r = p then ob.queue d p ++ [bo] else ob.queue e r := by
  cases d <;> cases e <;> simp [addOrder, queue, Function.update_apply]

theorem orderIndex_addOrder (ob : OrderBook) (bo : BookOrder) (p : Int) (d : OrderDirection)
    (id : OrderId) : (ob.addOrder bo p d).orderIndex id =
      if id = bo.orderId then some (d, p) else ob.orderIndex id := by
  cases d <;> simp [addOrder, Function.update_apply]

end OrderBook

/-- What a price level keeps of an order, whatever its place in the queue. -/
structure Resting where
  userId : UserId
  bookType : BookType
  direction : OrderDirection
  price : Int
  quantity : Int
  deriving DecidableEq

abbrev RestingOrders := OrderId → Option Resting

namespace RestingOrders

def erase (v : RestingOrders) (id : OrderId) : RestingOrders := Function.update v id none

def place (v : RestingOrders) (id : OrderId) (r : Resting) : RestingOrders :=
  Function.update v id (some r)

/-- Take `qty` off a resting order; an emptied order leaves the book. -/
def fill (v : RestingOrders) (id : OrderId) (qty : Int) : RestingOrders :=
  Function.update v id ((v id).bind (fun r =>
    if r.quantity - qty = 0 then none else some { r with quantity := r.quantity - qty }))

def Sound (v : RestingOrders) : Prop :=
  ∀ id r, v id = some r → 1 ≤ r.price ∧ r.price ≤ 99 ∧ 0 < r.quantity

theorem Sound.erase {v : RestingOrders} (sound : v.Sound) (id : OrderId) :
    (v.erase id).Sound := by
  intro j r got
  by_cases same : j = id
  · simp [RestingOrders.erase, same] at got
  · exact sound j r (by simpa [RestingOrders.erase, same] using got)

theorem Sound.place {v : RestingOrders} (sound : v.Sound) (id : OrderId) {r : Resting}
    (fits : 1 ≤ r.price ∧ r.price ≤ 99 ∧ 0 < r.quantity) : (v.place id r).Sound := by
  intro j s got
  by_cases same : j = id
  · simp only [RestingOrders.place, same, Function.update_self, Option.some.injEq] at got
    exact got ▸ fits
  · exact sound j s (by simpa [RestingOrders.place, same] using got)

theorem Sound.fill {v : RestingOrders} (sound : v.Sound) {id : OrderId} {r : Resting}
    (here : v id = some r) {qty : Int} (enough : qty ≤ r.quantity) : (v.fill id qty).Sound := by
  intro j s got
  by_cases same : j = id
  · subst same
    simp only [RestingOrders.fill, Function.update_self, here, Option.bind_some] at got
    split at got
    · cases got
    · obtain rfl := Option.some.inj got
      have fits := sound j r here
      exact ⟨fits.1, fits.2.1, by simp only; omega⟩
  · exact sound j s (by simpa [RestingOrders.fill, same] using got)

end RestingOrders

def BookOrder.resting (bo : BookOrder) (d : OrderDirection) (p : Int) : Resting :=
  ⟨bo.userId, bo.bookType, d, p, bo.quantity⟩

/-- The queues and the index hold exactly the abstract book, each order once. -/
structure OrderBook.Represents (ob : OrderBook) (v : RestingOrders) : Prop where
  queued : ∀ {d p bo}, bo ∈ ob.queue d p → v bo.orderId = some (bo.resting d p)
  present : ∀ {id r}, v id = some r →
    ∃ bo ∈ ob.queue r.direction r.price, bo.orderId = id ∧ bo.resting r.direction r.price = r
  once : ∀ d p, ((ob.queue d p).map BookOrder.orderId).Nodup
  index : ∀ id, ob.orderIndex id = (v id).map (fun r => (r.direction, r.price))

/-- `p` is a better price than `b` for the orders resting on side `d`. -/
def OrderDirection.Better : OrderDirection → Int → Int → Prop
  | .buy, p, b => b < p
  | .sell, p, b => p < b

def OrderDirection.sentinel : OrderDirection → Int
  | .buy => 0
  | .sell => 100

def OrderBook.BestExact (ob : OrderBook) (d : OrderDirection) : Prop :=
  (∀ p, 1 ≤ p → p ≤ 99 → d.Better p (ob.best d) → ob.queue d p = []) ∧
    (ob.best d = d.sentinel ∨
      1 ≤ ob.best d ∧ ob.best d ≤ 99 ∧ ob.queue d (ob.best d) ≠ [])

namespace OrderBook

theorem mem_bidLevels {p : Int} : p ∈ bidLevels ↔ 1 ≤ p ∧ p ≤ 99 := by
  simp only [bidLevels, List.mem_map, List.mem_range]
  constructor
  · rintro ⟨i, bound, rfl⟩
    omega
  · intro bound
    exact ⟨(99 - p).toNat, by omega, by omega⟩

theorem mem_askLevels {p : Int} : p ∈ askLevels ↔ 1 ≤ p ∧ p ≤ 99 := by
  simp only [askLevels, List.mem_map, List.mem_range]
  constructor
  · rintro ⟨i, bound, rfl⟩
    omega
  · intro bound
    exact ⟨(p - 1).toNat, by omega, by omega⟩

private theorem find_levels {levels : List Int} {order : Int → Int → Prop}
    (sorted : levels.Pairwise order) (irrefl : ∀ p, ¬ order p p)
    (asymm : ∀ p q, order p q → ¬ order q p) {test : Int → Bool} {b : Int}
    (found : levels.find? test = some b) : ∀ p ∈ levels, order p b → test p = false := by
  intro p member ahead
  obtain ⟨_, before, after, split, first⟩ := List.find?_eq_some_iff_append.mp found
  rw [split] at member sorted
  rcases List.mem_append.mp member with early | rest
  · simpa using first p early
  · rcases List.mem_cons.mp rest with rfl | late
    · exact absurd ahead (irrefl p)
    · have tail := (List.pairwise_append.mp sorted).2.1
      exact absurd ahead (asymm _ _ ((List.pairwise_cons.mp tail).1 p late))

theorem bestExact_refreshBest (ob : OrderBook) (d : OrderDirection) :
    (ob.refreshBest d).BestExact d := by
  cases d with
  | buy =>
    have sorted : bidLevels.Pairwise (fun p q => q < p) := by decide
    have value : (ob.refreshBest .buy).best .buy =
      (bidLevels.find? (fun p => decide (ob.bids p ≠ []))).getD 0 := rfl
    unfold BestExact
    rw [value, queue_refreshBest]
    cases found : bidLevels.find? (fun p => decide (ob.bids p ≠ [])) with
    | none =>
      refine ⟨fun p low high _ => ?_, Or.inl rfl⟩
      simpa [queue] using List.find?_eq_none.mp found p (mem_bidLevels.mpr ⟨low, high⟩)
    | some b =>
      have range := mem_bidLevels.mp (List.mem_of_find?_eq_some found)
      refine ⟨fun p low high ahead => ?_, Or.inr ⟨range.1, range.2, ?_⟩⟩
      · simpa [queue] using find_levels sorted (fun p => lt_irrefl p) (fun _ _ h => lt_asymm h)
          found p (mem_bidLevels.mpr ⟨low, high⟩) ahead
      · simpa [queue] using List.find?_some found
  | sell =>
    have sorted : askLevels.Pairwise (fun p q => p < q) := by decide
    have value : (ob.refreshBest .sell).best .sell =
      (askLevels.find? (fun p => decide (ob.asks p ≠ []))).getD 100 := rfl
    unfold BestExact
    rw [value, queue_refreshBest]
    cases found : askLevels.find? (fun p => decide (ob.asks p ≠ [])) with
    | none =>
      refine ⟨fun p low high _ => ?_, Or.inl rfl⟩
      simpa [queue] using List.find?_eq_none.mp found p (mem_askLevels.mpr ⟨low, high⟩)
    | some b =>
      have range := mem_askLevels.mp (List.mem_of_find?_eq_some found)
      refine ⟨fun p low high ahead => ?_, Or.inr ⟨range.1, range.2, ?_⟩⟩
      · simpa [queue] using find_levels sorted (fun p => lt_irrefl p) (fun _ _ h => lt_asymm h)
          found p (mem_askLevels.mpr ⟨low, high⟩) ahead
      · simpa [queue] using List.find?_some found

namespace Represents

variable {ob : OrderBook} {v : RestingOrders}

theorem empty : OrderBook.empty.Represents (fun _ => none) where
  queued {d p bo} member := by cases d <;> simp [OrderBook.empty, queue] at member
  present got := by cases got
  once d p := by cases d <;> simp [OrderBook.empty, queue]
  index _ := rfl

theorem level_unique (rep : ob.Represents v) {d e : OrderDirection} {p r : Int}
    {a b : BookOrder} (ha : a ∈ ob.queue d p) (hb : b ∈ ob.queue e r)
    (same : a.orderId = b.orderId) : d = e ∧ p = r ∧ a.resting d p = b.resting e r := by
  have equal : a.resting d p = b.resting e r := by
    have ga := rep.queued ha
    rw [same, rep.queued hb] at ga
    exact (Option.some.inj ga).symm
  exact ⟨congrArg Resting.direction equal, congrArg Resting.price equal, equal⟩

private theorem absent (rep : ob.Represents v) {id : OrderId} (none : v id = none)
    {d : OrderDirection}
    {p : Int} {bo : BookOrder} (member : bo ∈ ob.queue d p) : bo.orderId ≠ id := by
  intro same
  have got := rep.queued member
  rw [same, none] at got
  cases got

theorem addOrder (rep : ob.Represents v) (bo : BookOrder) (p : Int) (d : OrderDirection)
    (fresh : v bo.orderId = none) :
    (ob.addOrder bo p d).Represents (v.place bo.orderId (bo.resting d p)) where
  queued {e r a} member := by
    rw [queue_addOrder] at member
    split at member
    · next level =>
      obtain ⟨rfl, rfl⟩ := level
      rcases List.mem_append.mp member with old | last
      · simpa [RestingOrders.place, rep.absent fresh old] using rep.queued old
      · obtain rfl := List.mem_singleton.mp last
        simp [RestingOrders.place]
    · simpa [RestingOrders.place, rep.absent fresh member] using rep.queued member
  present {id r} got := by
    by_cases same : id = bo.orderId
    · subst same
      have row : bo.resting d p = r := by simpa [RestingOrders.place] using got
      subst row
      exact ⟨bo, by simp [queue_addOrder, BookOrder.resting], rfl, rfl⟩
    · obtain ⟨a, member, key, row⟩ := rep.present
        (show v id = some r by simpa [RestingOrders.place, same] using got)
      refine ⟨a, ?_, key, row⟩
      rw [queue_addOrder]
      split
      · next level => exact List.mem_append_left _ (level.1 ▸ level.2 ▸ member)
      · exact member
  once e r := by
    rw [queue_addOrder]
    split
    · rw [List.map_append, List.map_singleton]
      refine List.nodup_append.mpr ⟨rep.once d p, List.nodup_singleton _, ?_⟩
      intro a ha b hb
      obtain ⟨o, member, rfl⟩ := List.mem_map.mp ha
      obtain rfl := List.mem_singleton.mp hb
      exact rep.absent fresh member
    · exact rep.once e r
  index id := by
    rw [orderIndex_addOrder]
    by_cases same : id = bo.orderId
    · simp [same, RestingOrders.place, BookOrder.resting]
    · simp [same, RestingOrders.place, rep.index]

theorem remove (rep : ob.Represents v) {d : OrderDirection} {p : Int} {bo : BookOrder}
    {q : List BookOrder} (split : ob.queue d p |>.Perm (bo :: q)) :
    ((ob.setQueue d p q).dropIndex bo.orderId).Represents (v.erase bo.orderId) where
  queued {e r a} member := by
    have once := (split.map BookOrder.orderId).nodup_iff.mp (rep.once d p)
    rw [List.map_cons, List.nodup_cons] at once
    rw [queue_dropIndex, queue_setQueue] at member
    split at member
    · next level =>
      obtain ⟨rfl, rfl⟩ := level
      have other : a.orderId ≠ bo.orderId := fun same =>
        once.1 (same ▸ List.mem_map_of_mem (f := BookOrder.orderId) member)
      have old := split.symm.subset (List.mem_cons_of_mem bo member)
      simpa [RestingOrders.erase, other] using rep.queued old
    · next level =>
      have other : a.orderId ≠ bo.orderId := by
        intro same
        have here := split.symm.subset (List.mem_cons_self (a := bo) (l := q))
        have unique := rep.level_unique member here same
        exact level ⟨unique.1, unique.2.1⟩
      simpa [RestingOrders.erase, other] using rep.queued member
  present {id r} got := by
    have other : id ≠ bo.orderId := by
      rintro rfl
      simp [RestingOrders.erase] at got
    obtain ⟨a, member, key, row⟩ := rep.present
      (show v id = some r by simpa [RestingOrders.erase, other] using got)
    refine ⟨a, ?_, key, row⟩
    rw [queue_dropIndex, queue_setQueue]
    split
    · next level =>
      have old := split.subset (level.1 ▸ level.2 ▸ member)
      rcases List.mem_cons.mp old with rfl | kept
      · exact absurd key.symm other
      · exact kept
    · exact member
  once e r := by
    rw [queue_dropIndex, queue_setQueue]
    split
    · have once := (split.map BookOrder.orderId).nodup_iff.mp (rep.once d p)
      rw [List.map_cons, List.nodup_cons] at once
      exact once.2
    · exact rep.once e r
  index id := by
    rw [orderIndex_dropIndex, orderIndex_setQueue]
    by_cases same : id = bo.orderId
    · simp [same, RestingOrders.erase]
    · simp [same, RestingOrders.erase, rep.index]

theorem reorder (rep : ob.Represents v) {d : OrderDirection} {p : Int} {q : List BookOrder}
    (perm : (ob.queue d p).Perm q) : (ob.setQueue d p q).Represents v where
  queued {e r a} member := by
    rw [queue_setQueue] at member
    split at member
    · next level =>
      obtain ⟨rfl, rfl⟩ := level
      exact rep.queued (perm.symm.subset member)
    · exact rep.queued member
  present {id r} got := by
    obtain ⟨a, member, key, row⟩ := rep.present got
    refine ⟨a, ?_, key, row⟩
    rw [queue_setQueue]
    split
    · next level => exact perm.subset (level.1 ▸ level.2 ▸ member)
    · exact member
  once e r := by
    rw [queue_setQueue]
    split
    · exact (perm.map BookOrder.orderId).nodup_iff.mp (rep.once d p)
    · exact rep.once e r
  index id := by rw [orderIndex_setQueue, rep.index]

theorem refreshBest (rep : ob.Represents v) (d : OrderDirection) :
    (ob.refreshBest d).Represents v where
  queued member := rep.queued (by rwa [queue_refreshBest] at member)
  present got := by
    rw [queue_refreshBest]
    exact rep.present got
  once e r := by
    rw [queue_refreshBest]
    exact rep.once e r
  index id := by rw [orderIndex_refreshBest, rep.index]

/-- What cancelling does on an indexed order: it takes that order off its level
and refreshes the cursor of its side when the level was the best one. -/
private theorem cancelOrder_eq (rep : ob.Represents v) {id : OrderId} {r : Resting}
    (here : v id = some r) : ∃ bo q, bo.orderId = id ∧
      (ob.queue r.direction r.price).Perm (bo :: q) ∧
      ob.cancelOrder id =
        (if r.price = ob.best r.direction then
          ((ob.setQueue r.direction r.price q).dropIndex id).refreshBest r.direction
        else (ob.setQueue r.direction r.price q).dropIndex id) := by
  obtain ⟨bo, member, key, _⟩ := rep.present here
  obtain ⟨a, before, after, _, hit, level, cut⟩ :=
    List.exists_of_eraseP (p := fun bo => decide (bo.orderId = id)) member (by simpa using key)
  have keyed : a.orderId = id := by simpa using hit
  refine ⟨a, before ++ after, keyed, ?_, ?_⟩
  · rw [level]
    exact List.perm_middle
  · have indexed : ob.orderIndex id = some (r.direction, r.price) := by simp [rep.index, here]
    have swap : ∀ q, (ob.dropIndex id).setQueue r.direction r.price q =
        (ob.setQueue r.direction r.price q).dropIndex id := by
      intro q
      cases r.direction <;> rfl
    simp only [OrderBook.cancelOrder, indexed, queue_dropIndex, cut, swap, best_dropIndex,
      best_setQueue]

theorem cancelOrder (rep : ob.Represents v) (id : OrderId) :
    (ob.cancelOrder id).Represents (v.erase id) := by
  cases here : v id with
  | none =>
    have same : v.erase id = v := by
      funext j
      by_cases key : j = id
      · simp [RestingOrders.erase, key, here]
      · simp [RestingOrders.erase, key]
    simpa [OrderBook.cancelOrder, rep.index, here, same] using rep
  | some r =>
    obtain ⟨bo, q, rfl, perm, equal⟩ := rep.cancelOrder_eq here
    rw [equal]
    split
    · exact (rep.remove perm).refreshBest _
    · exact rep.remove perm

private theorem eraseP_eq_filter {l : List BookOrder} (once : (l.map BookOrder.orderId).Nodup)
    (id : OrderId) :
    l.eraseP (fun bo => bo.orderId = id) = l.filter (fun bo => bo.orderId ≠ id) := by
  induction l with
  | nil => rfl
  | cons a l ih =>
    rw [List.map_cons, List.nodup_cons] at once
    by_cases hit : a.orderId = id
    · have rest : ∀ bo ∈ l, bo.orderId ≠ id := by
        rintro bo member rfl
        exact once.1 (hit ▸ List.mem_map_of_mem (f := BookOrder.orderId) member)
      have kept : l.filter (fun bo => bo.orderId ≠ id) = l :=
        List.filter_eq_self.mpr (fun bo member => by simpa using rest bo member)
      rw [List.eraseP_cons_of_pos (by simpa using hit),
        List.filter_cons_of_neg (by simpa using hit), kept]
    · simp [hit, ih once.2]

theorem queue_cancelOrder (rep : ob.Represents v) (id : OrderId) (d : OrderDirection) (p : Int) :
    (ob.cancelOrder id).queue d p = (ob.queue d p).filter (fun bo => bo.orderId ≠ id) := by
  have kept : (∀ bo ∈ ob.queue d p, bo.orderId ≠ id) →
      (ob.queue d p).filter (fun bo => bo.orderId ≠ id) = ob.queue d p := fun others =>
    List.filter_eq_self.mpr (fun bo member => by simpa using others bo member)
  cases here : v id with
  | none =>
    rw [kept (fun bo member => rep.absent here member)]
    simp [OrderBook.cancelOrder, rep.index, here]
  | some r =>
    have indexed : ob.orderIndex id = some (r.direction, r.price) := by simp [rep.index, here]
    have left : (ob.cancelOrder id).queue d p = if d = r.direction ∧ p = r.price then
        (ob.queue d p).eraseP (fun bo => bo.orderId = id) else ob.queue d p := by
      simp only [OrderBook.cancelOrder, indexed]
      split
      · rw [queue_refreshBest, queue_setQueue, queue_dropIndex]
        split
        · next level => rw [level.1, level.2]
        · rfl
      · rw [queue_setQueue, queue_dropIndex]
        split
        · next level => rw [level.1, level.2]
        · rfl
    rw [left]
    split
    · exact eraseP_eq_filter (rep.once d p) id
    · next elsewhere =>
      refine (kept ?_).symm
      rintro bo member rfl
      obtain rfl := Option.some.inj (here.symm.trans (rep.queued member))
      exact elsewhere ⟨rfl, rfl⟩

end Represents

theorem bestExact_empty (d : OrderDirection) : OrderBook.empty.BestExact d := by
  cases d <;> exact ⟨fun _ _ _ _ => rfl, Or.inl rfl⟩

theorem bestExact_addOrder {ob : OrderBook} {e : OrderDirection} (exact : ob.BestExact e)
    (bo : BookOrder) {p : Int} (d : OrderDirection) (low : 1 ≤ p) (high : p ≤ 99) :
    (ob.addOrder bo p d).BestExact e := by
  have kept : ∀ q : List BookOrder, q ++ [bo] ≠ [] := fun q => by simp
  obtain ⟨clear, top⟩ := exact
  unfold BestExact
  simp only [queue_addOrder]
  cases d <;> cases e <;>
    simp only [addOrder, best, OrderDirection.Better, OrderDirection.sentinel, reduceCtorEq,
      false_and, if_false, true_and] at clear top ⊢
  · refine ⟨fun r lower upper ahead => ?_, ?_⟩
    · rw [if_neg (by split at ahead <;> omega)]
      exact clear r lower upper (by split at ahead <;> omega)
    · right
      split
      · next better => exact ⟨low, high, by simp⟩
      · next worse =>
        have range := top.resolve_left (by omega)
        refine ⟨range.1, range.2.1, ?_⟩
        split
        · exact kept _
        · exact range.2.2
  · exact ⟨clear, top⟩
  · exact ⟨clear, top⟩
  · refine ⟨fun r lower upper ahead => ?_, ?_⟩
    · rw [if_neg (by split at ahead <;> omega)]
      exact clear r lower upper (by split at ahead <;> omega)
    · right
      split
      · next better => exact ⟨low, high, by simp⟩
      · next worse =>
        have range := top.resolve_left (by omega)
        refine ⟨range.1, range.2.1, ?_⟩
        split
        · exact kept _
        · exact range.2.2

private theorem bestExact_setQueue {ob : OrderBook} {e : OrderDirection} (exact : ob.BestExact e)
    {d : OrderDirection} {p : Int} {q : List BookOrder} (was : ob.queue d p ≠ [])
    (still : e = d → p = ob.best d → q ≠ []) : (ob.setQueue d p q).BestExact e := by
  obtain ⟨clear, top⟩ := exact
  refine ⟨fun r low high ahead => ?_, ?_⟩
  · rw [best_setQueue] at ahead
    rw [queue_setQueue]
    split
    · next level => exact absurd (level.1 ▸ level.2 ▸ clear r low high ahead) was
    · exact clear r low high ahead
  · simp only [best_setQueue, queue_setQueue]
    refine top.imp_right (fun range => ⟨range.1, range.2.1, ?_⟩)
    split
    · next level =>
      obtain ⟨rfl, same⟩ := level
      exact still rfl same.symm
    · exact range.2.2

private theorem bestExact_dropIndex {ob : OrderBook} {e : OrderDirection} (exact : ob.BestExact e)
    (id : OrderId) : (ob.dropIndex id).BestExact e := by
  unfold BestExact
  rw [best_dropIndex, queue_dropIndex]
  exact exact

theorem bestExact_refreshBest_of {ob : OrderBook} {d e : OrderDirection}
    (exact : e ≠ d → ob.BestExact e) : (ob.refreshBest d).BestExact e := by
  by_cases same : e = d
  · exact same ▸ ob.bestExact_refreshBest d
  · unfold BestExact
    rw [best_refreshBest_ne ob same, queue_refreshBest]
    exact exact same

theorem bestExact_cancelOrder {ob : OrderBook} {v : RestingOrders} (rep : ob.Represents v)
    {e : OrderDirection} (exact : ob.BestExact e) (id : OrderId) :
    (ob.cancelOrder id).BestExact e := by
  cases here : v id with
  | none => simpa [cancelOrder, rep.index, here] using exact
  | some r =>
    obtain ⟨bo, q, _, perm, equal⟩ := rep.cancelOrder_eq here
    have was : ob.queue r.direction r.price ≠ [] := by
      intro clear
      rw [clear] at perm
      exact List.cons_ne_nil _ _ perm.symm.eq_nil
    rw [equal]
    split
    · exact bestExact_refreshBest_of (fun other => bestExact_dropIndex
        (bestExact_setQueue exact was (fun same => absurd same other)) id)
    · next worse =>
      exact bestExact_dropIndex (bestExact_setQueue exact was (fun _ same => absurd same worse)) id

/-- Two books with the same queues up to order, the same cursors and the same
index. -/
structure SameContent (a b : OrderBook) : Prop where
  queues : ∀ d p, ((a.queue d p).map (fun bo => (bo.orderId, bo.userId, bo.bookType, bo.quantity))).Perm
    ((b.queue d p).map (fun bo => (bo.orderId, bo.userId, bo.bookType, bo.quantity)))
  bestBid : a.bestBid = b.bestBid
  bestAsk : a.bestAsk = b.bestAsk
  orderIndex : a.orderIndex = b.orderIndex

theorem best_unique {a b : OrderBook} {d : OrderDirection} (ha : a.BestExact d)
    (hb : b.BestExact d) (empties : ∀ p, a.queue d p = [] ↔ b.queue d p = []) :
    a.best d = b.best d := by
  obtain ⟨clearA, topA⟩ := ha
  obtain ⟨clearB, topB⟩ := hb
  by_contra differ
  cases d <;> simp only [OrderDirection.Better, OrderDirection.sentinel] at *
  · rcases lt_or_gt_of_ne differ with below | above
    · have range := topB.resolve_left (by rcases topA with top | top <;> omega)
      exact range.2.2 ((empties _).mp (clearA _ range.1 range.2.1 below))
    · have range := topA.resolve_left (by rcases topB with top | top <;> omega)
      exact range.2.2 ((empties _).mpr (clearB _ range.1 range.2.1 above))
  · rcases lt_or_gt_of_ne differ with below | above
    · have range := topA.resolve_left (by rcases topB with top | top <;> omega)
      exact range.2.2 ((empties _).mpr (clearB _ range.1 range.2.1 below))
    · have range := topB.resolve_left (by rcases topA with top | top <;> omega)
      exact range.2.2 ((empties _).mp (clearA _ range.1 range.2.1 above))

theorem Represents.sameContent {a b : OrderBook} {v : RestingOrders} (ra : a.Represents v)
    (rb : b.Represents v) (ea : ∀ d, a.BestExact d) (eb : ∀ d, b.BestExact d) :
    SameContent a b := by
  have entries : ∀ {x : OrderBook}, x.Represents v → ∀ d p id user type qty,
      (id, user, type, qty) ∈
        (x.queue d p).map (fun bo => (bo.orderId, bo.userId, bo.bookType, bo.quantity)) ↔
      v id = some ⟨user, type, d, p, qty⟩ := by
    intro x rx d p id user type qty
    constructor
    · intro member
      obtain ⟨bo, queued, equal⟩ := List.mem_map.mp member
      cases equal
      exact rx.queued queued
    · intro got
      obtain ⟨bo, queued, rfl, row⟩ := rx.present got
      simp only [BookOrder.resting, Resting.mk.injEq] at row
      exact List.mem_map.mpr ⟨bo, queued, by simp [row]⟩
  have nodup : ∀ {x : OrderBook}, x.Represents v → ∀ d p,
      ((x.queue d p).map
        (fun bo => (bo.orderId, bo.userId, bo.bookType, bo.quantity))).Nodup := by
    intro x rx d p
    apply List.Nodup.of_map Prod.fst
    rw [List.map_map]
    exact rx.once d p
  have queues : ∀ d p,
      ((a.queue d p).map (fun bo => (bo.orderId, bo.userId, bo.bookType, bo.quantity))).Perm
      ((b.queue d p).map (fun bo => (bo.orderId, bo.userId, bo.bookType, bo.quantity))) := by
    intro d p
    refine (List.perm_ext_iff_of_nodup (nodup ra d p) (nodup rb d p)).mpr ?_
    rintro ⟨id, user, type, qty⟩
    rw [entries ra, entries rb]
  have empties : ∀ d p, a.queue d p = [] ↔ b.queue d p = [] := by
    intro d p
    have size := (queues d p).length_eq
    simp only [List.length_map] at size
    rw [← List.length_eq_zero_iff, ← List.length_eq_zero_iff, size]
  exact ⟨queues, best_unique (ea .buy) (eb .buy) (empties .buy),
    best_unique (ea .sell) (eb .sell) (empties .sell), by
      funext id
      rw [ra.index, rb.index]⟩

theorem Represents.unique {a b : OrderBook} {v : RestingOrders} (ra : a.Represents v)
    (rb : b.Represents v) (ea : ∀ d, a.BestExact d) (eb : ∀ d, b.BestExact d)
    (queues : ∀ d p, a.queue d p = b.queue d p) : a = b := by
  have best : ∀ d, a.best d = b.best d := fun d =>
    best_unique (ea d) (eb d) (fun p => by rw [queues])
  have index : a.orderIndex = b.orderIndex := by
    funext id
    rw [ra.index, rb.index]
  have bids : a.bids = b.bids := funext (queues .buy)
  have asks : a.asks = b.asks := funext (queues .sell)
  have bestBid : a.bestBid = b.bestBid := best .buy
  have bestAsk : a.bestAsk = b.bestAsk := best .sell
  cases a
  cases b
  simp only at index bids asks bestBid bestAsk
  rw [index, bids, asks, bestBid, bestAsk]

end OrderBook

end PredictionMarket
