/- PredictionMarket/Engine/UncrossedBooks
   digest: Bids and asks of different users never cross, until an own order shields a level. -/

import PredictionMarket.Engine.Sessions
import PredictionMarket.Matching.FillSoundness
import PredictionMarket.Matching.OwnOrders
import PredictionMarket.Matching.TimePriority

set_option autoImplicit false
set_option relaxedAutoImplicit false

namespace PredictionMarket

open Library

/-- Bids and asks at crossing prices belong to one user, who is not the AMM. -/
def OrderBook.Uncrossed (ob : OrderBook) : Prop :=
  ∀ p q, q ≤ p → ∀ bid ∈ ob.bids p, ∀ ask ∈ ob.asks q, isSelfTrade bid.userId ask.userId = true

private theorem isSelfTrade_comm (a b : UserId) : isSelfTrade a b = isSelfTrade b a := by
  simp only [isSelfTrade, eq_comm, or_comm]

/-- Every entry of `ob'` is at its place in `ob`, perhaps with another quantity. -/
def OrderBook.Thins (ob ob' : OrderBook) : Prop :=
  ∀ d p, ∀ bo ∈ ob'.queue d p, ∃ before ∈ ob.queue d p,
    before.orderId = bo.orderId ∧ before.userId = bo.userId

section Books

variable {ob ob' : OrderBook}

private theorem OrderBook.Uncrossed.empty : OrderBook.empty.Uncrossed := by
  intro p q crosses bid queued
  cases queued

private theorem OrderBook.Uncrossed.thins (uncrossed : ob.Uncrossed) (thins : ob.Thins ob') :
    ob'.Uncrossed := by
  intro p q crosses bid queuedBid ask queuedAsk
  obtain ⟨bid', wasBid, _, sameBid⟩ := thins .buy p bid queuedBid
  obtain ⟨ask', wasAsk, _, sameAsk⟩ := thins .sell q ask queuedAsk
  rw [← sameBid, ← sameAsk]
  exact uncrossed p q crosses bid' wasBid ask' wasAsk

private theorem OrderBook.thins_cancelOrder (ob : OrderBook) (id : OrderId) :
    ob.Thins (ob.cancelOrder id) := by
  intro d p bo queued
  exact ⟨bo, (ob.cancelOrder_sublist id d p).subset queued, rfl, rfl⟩

private theorem OrderBook.Fresh.thins {id : OrderId} (fresh : ob.Fresh id) (thins : ob.Thins ob') :
    ob'.Fresh id := by
  intro d p bo queued
  obtain ⟨before, was, same, _⟩ := thins d p bo queued
  exact same ▸ fresh d p before was

private theorem thins_matchOrder (wf : ob.WellFormed) (o : Order) : ob.Thins
    (matchOrder o ob).book := by
  intro d p bo queued
  obtain same | ⟨r, pass⟩ := queue_matchOrder_cases wf o d p
  · rw [same] at queued
    exact ⟨bo, queued, rfl, rfl⟩
  · rw [pass] at queued
    obtain ⟨before, was, same⟩ := mem_swept queued
    exact ⟨before, was, by rw [same], by rw [same]⟩

private theorem addOrder_uncrossed_iff (uncrossed : ob.Uncrossed) (bo : BookOrder) (price : Int)
    (side : OrderDirection) : (ob.addOrder bo price side).Uncrossed ↔
      ∀ p, side.opposite.Crosses p price → ∀ other ∈ ob.queue side.opposite p,
        isSelfTrade bo.userId other.userId = true := by
  have queues := fun r e => ob.queue_addOrder bo price r side e
  constructor
  · intro added p crosses other queued
    have here : bo ∈ (ob.addOrder bo price side).queue side price := by
      rw [queues, if_pos ⟨rfl, rfl⟩]
      exact List.mem_append_right _ List.mem_cons_self
    have there : other ∈ (ob.addOrder bo price side).queue side.opposite p := by
      rw [queues, if_neg (fun same => OrderDirection.ne_opposite side same.1.symm)]
      exact queued
    cases side with
    | buy => exact added price p crosses bo here other there
    | sell =>
      rw [isSelfTrade_comm]
      exact added p price crosses other there bo here
  · intro faces p q crosses bid queuedBid ask queuedAsk
    have bids := queues p .buy
    have asks := queues q .sell
    cases side with
    | buy =>
      change (ob.addOrder bo price .buy).bids p = _ at bids
      change (ob.addOrder bo price .buy).asks q = _ at asks
      rw [asks, if_neg (fun same => by cases same.1)] at queuedAsk
      rw [bids] at queuedBid
      split at queuedBid
      · next same =>
        obtain before | new := List.mem_append.mp queuedBid
        · exact uncrossed price q (same.2 ▸ crosses) bid before ask queuedAsk
        · rw [List.mem_singleton.mp new]
          exact faces q (same.2 ▸ crosses) ask queuedAsk
      · exact uncrossed p q crosses bid queuedBid ask queuedAsk
    | sell =>
      change (ob.addOrder bo price .sell).bids p = _ at bids
      change (ob.addOrder bo price .sell).asks q = _ at asks
      rw [bids, if_neg (fun same => by cases same.1)] at queuedBid
      rw [asks] at queuedAsk
      split at queuedAsk
      · next same =>
        obtain before | new := List.mem_append.mp queuedAsk
        · exact uncrossed p price (same.2 ▸ crosses) bid queuedBid ask before
        · rw [List.mem_singleton.mp new, isSelfTrade_comm]
          exact faces p (same.2 ▸ crosses) bid queuedBid
      · exact uncrossed p q crosses bid queuedBid ask queuedAsk

private theorem shields_iff_leaves (wf : ob.WellFormed) (o : Order)
    (wanted : 0 ≤ o.remainingQuantity) :
    ob.Shields o ↔ 0 < (matchOrder o ob).incoming.remainingQuantity ∧
      ∃ p, o.bookDirection.opposite.Crosses p o.bookPrice ∧
        ∃ bo ∈ (matchOrder o ob).book.queue o.bookDirection.opposite p,
          isSelfTrade o.userId bo.userId = false := by
  have sweeps := matchOrder_sweeps wf o
  have distinct : (ob.live o.bookDirection.opposite o.bookPrice).Nodup := live_nodup
  have leftover := leftover_iff o wanted distinct (wf.stocked o.bookDirection.opposite)
    (fun a member => (mem_live.mp member).2.2)
  rw [shields_iff, ← leftover, sweeps.incoming, sweeps.near, Order.taken_remaining]
  refine and_congr (by omega) ⟨?_, ?_⟩
  · rintro ⟨p, listed, left⟩
    obtain ⟨bo, others⟩ := List.exists_mem_of_ne_nil _ left
    obtain ⟨queued, stranger⟩ := List.mem_filter.mp others
    exact ⟨p, (mem_live.mp listed).2.1, bo, queued, by simpa using stranger⟩
  · rintro ⟨p, crosses, bo, queued, stranger⟩
    have listed : p ∈ ob.live o.bookDirection.opposite o.bookPrice := by
      by_contra absent
      rw [sweepLevels_of_not_mem absent] at queued
      have crowded := List.ne_nil_of_mem queued
      exact absent (mem_live.mpr ⟨wf.levels _ p crowded, crosses, crowded⟩)
    refine ⟨p, listed, List.ne_nil_of_mem (List.mem_filter.mpr ⟨queued, ?_⟩)⟩
    simp [stranger]

/-- What a placement leaves in its book crosses exactly when a GTC order is shielded. -/
private theorem restRemainder_uncrossed_iff (wf : ob.WellFormed) (uncrossed : ob.Uncrossed)
    {o : Order}
    (wanted : 0 ≤ o.remainingQuantity) :
    (restRemainder (matchOrder o ob).incoming (matchOrder o ob).book).Uncrossed ↔
      ¬ (o.timeInForce = .gtc ∧ ob.Shields o) := by
  have matched := uncrossed.thins (thins_matchOrder wf o)
  obtain ⟨incoming, _⟩ := matchOrder_sweeps wf o
  obtain ⟨side, force⟩ : (matchOrder o ob).incoming.bookDirection = o.bookDirection ∧
      (matchOrder o ob).incoming.timeInForce = o.timeInForce := by
    rw [incoming, Order.taken]
    split <;> exact ⟨rfl, rfl⟩
  have user : (matchOrder o ob).incoming.userId = o.userId := by rw [incoming, Order.taken_userId]
  have price : (matchOrder o ob).incoming.bookPrice = o.bookPrice := by
    rw [incoming, Order.taken_bookPrice]
  rw [shields_iff_leaves wf o wanted, restRemainder, force]
  split
  · next rests =>
    rw [addOrder_uncrossed_iff matched, side, price, user]
    constructor
    · rintro faces ⟨_, _, p, crosses, bo, queued, stranger⟩
      rw [faces p crosses bo queued] at stranger
      cases stranger
    · intro open_ p crosses bo queued
      by_contra stranger
      exact open_ ⟨rests.2, rests.1, p, crosses, bo, queued, by simpa using stranger⟩
  · next gone =>
    exact iff_of_true matched (fun shielded => gone ⟨shielded.2.1, shielded.1⟩)

end Books

/-- A consistent book without crossing orders of different users. -/
structure OrderBook.Tidy (ob : OrderBook) : Prop where
  consistent : ob.Consistent
  uncrossed : ob.Uncrossed

private theorem OrderBook.Tidy.empty : OrderBook.empty.Tidy := ⟨consistent_empty, .empty⟩

private theorem OrderBook.Tidy.cancelOrder {ob : OrderBook} (tidy : ob.Tidy) (id : OrderId) :
    (ob.cancelOrder id).Tidy where
  consistent := tidy.consistent.step (show bookCall ob (.cancelOrder id) _ from rfl)
  uncrossed := tidy.uncrossed.thins (thins_cancelOrder ob id)

private theorem OrderBook.Tidy.cancelAll {ob : OrderBook} (tidy : ob.Tidy) (ids : List OrderId) :
    (ids.foldl OrderBook.cancelOrder ob).Tidy := by
  induction ids generalizing ob with
  | nil => exact tidy
  | cons id ids ih => exact ih (tidy.cancelOrder id)

private theorem PlaceRun.tidy {draft : OrderDraft} {ob ob' : OrderBook} {db db' : Db}
    {v : RestingOrders}
    (run : PlaceRun draft ob db ob' db') (tidy : ob.Tidy) (shows : ob.Shows v)
    (absent : v draft.id = none) : ob'.Consistent ∧
      (ob'.Uncrossed ↔ ¬ (draft.timeInForce = .gtc ∧ ob.Shields draft.accepted)) := by
  obtain ⟨_, _, _, _, _, _, _, _, accepted, _⟩ := run.phases
  obtain ⟨id, _, _, wants, _, _, force, _⟩ := draft.accepted_fields
  have some_ : 0 < draft.accepted.remainingQuantity := by
    have positive := accepted.quantity.1
    omega
  have wf := tidy.consistent.wellFormed
  have matched : (matchOrder draft.accepted ob).book.Consistent :=
    tidy.consistent.step (show bookCall ob (.matchOrder draft.accepted) _ from ⟨some_, rfl⟩)
  obtain ⟨incoming, _⟩ := matchOrder_sweeps wf draft.accepted
  have fresh : (matchOrder draft.accepted ob).book.Fresh draft.id := by
    refine OrderBook.Fresh.thins ?_ (thins_matchOrder wf draft.accepted)
    intro d p bo queued same
    rw [← same, shows.represents.queued queued] at absent
    cases absent
  rw [run.book, ← force]
  refine ⟨?_, restRemainder_uncrossed_iff wf tidy.uncrossed some_.le⟩
  unfold restRemainder
  split
  · next rests =>
    generalize hleft : (matchOrder draft.accepted ob).incoming = left at incoming rests
    have same : left.id = draft.id ∧ left.bookPrice = draft.accepted.bookPrice := by
      rw [incoming, Order.taken_bookPrice, Order.taken]
      split <;> exact ⟨id, rfl⟩
    have price := OrderDraft.accepted_bookPrice accepted.price
    refine matched.step (show bookCall _ (.addOrder _ _ _) _ from ⟨?_, ?_, rests.1, rfl⟩)
    · exact same.1.symm ▸ fresh
    · exact same.2.symm ▸ price
  · exact matched

namespace World

def Tidy (w : World) : Prop := ∀ m, (w.getOrCreateOrderbook m).Tidy

private theorem Tidy.update {w w' : World} (tidy : w.Tidy) (m : MarketId)
    (here : (w'.getOrCreateOrderbook m).Tidy)
    (others : ∀ i, i ≠ m → w'.orderbooks i = w.orderbooks i) : w'.Tidy := by
  intro i
  by_cases same : i = m
  · exact same ▸ here
  · have book : w'.getOrCreateOrderbook i = w.getOrCreateOrderbook i := by
      rw [getOrCreateOrderbook, others i same, getOrCreateOrderbook]
    exact book ▸ tidy i

private theorem Tidy.keepBook {w : World} (tidy : w.Tidy) {m : MarketId} {ob : OrderBook}
    (here : ob.Tidy) (db : Db) (n : OrderId) :
    ({ w.keepBook m ob with db := db, nextId := n } : World).Tidy := by
  refine tidy.update m ?_ (fun _ => keepBook_of_ne w ob)
  rw [getOrCreateOrderbook_keepBook_self]
  exact here

private theorem Tidy.evict {w : World} (tidy : w.Tidy) (m : MarketId) (n : OrderId) :
    ({ w.evict m with nextId := n } : World).Tidy := by
  refine tidy.update m ?_ (fun i other => ?_)
  · simp only [getOrCreateOrderbook, World.evict, Function.update_self, Option.getD_none]
    exact .empty
  · simp [World.evict, other]

private theorem Tidy.dropAll {w : World} (tidy : w.Tidy) (m : MarketId) (ids : List OrderId)
    (db : Db) :
    ({ w.dropAll m ids with db := db } : World).Tidy := by
  refine tidy.update m ?_ (fun i other => dropAll_of_ne ids other)
  have book := getOrCreateOrderbook_dropAll (w := w) m ids
  change ((w.dropAll m ids).getOrCreateOrderbook m).Tidy
  exact book ▸ (tidy m).cancelAll ids

end World

def Session.Shielded (s : Session) : SessionOp → Prop
  | .place req userId clock => req.timeInForce = .gtc ∧
    (s.world.getOrCreateOrderbook req.marketId).Shields
      (req.draft s.world.nextId userId clock).accepted
  | .replace oldOrderId req userId clock => req.timeInForce = .gtc ∧
    ((s.world.getOrCreateOrderbook req.marketId).cancelOrder oldOrderId).Shields
      (req.draft s.world.nextId userId clock).accepted
  | _ => False

private theorem OrderService.replaceOrder_tidy {w : World} (oldOrderId : OrderId)
    (req : PlaceOrderRequest) (userId : UserId) (clock : Clock) (acc : w.Accounted False)
    (tidy : w.Tidy) (open_ : ¬ (req.timeInForce = .gtc ∧
      ((w.getOrCreateOrderbook req.marketId).cancelOrder oldOrderId).Shields
        (req.draft w.nextId userId clock).accepted)) :
    (OrderService.replaceOrder oldOrderId req userId clock w).2.Tidy := by
  have world := MatchingEngine.replaceOrder_world oldOrderId (req.draft w.nextId userId clock)
    { w with nextId := w.nextId + 1 }
  simp only at world
  simp only [OrderService.replaceOrder, World.generateId]
  generalize MatchingEngine.replaceOrder oldOrderId (req.draft w.nextId userId clock)
    { w with nextId := w.nextId + 1 } = outcome at world
  have rolledBack : ∀ w' : World, ({ w' with db := w.db } : World).Tidy ↔ w'.Tidy :=
    fun _ => Iff.rfl
  rcases world with ⟨_, refused⟩ | ⟨row, db₁, cancelled, placed, db, ob, _, _, home, _, ends,
    inner, rfl⟩
  · have kept : outcome.2.Tidy := by
      rcases refused with same | ⟨m, same⟩ | ⟨m, same⟩ <;> rw [same]
      · exact tidy
      · exact tidy.evict m _
      · exact tidy.keepBook ((tidy m).cancelOrder oldOrderId) w.db _
    rcases World.finish_world { w with nextId := w.nextId + 1 } .none outcome with
      undone | ⟨_, same⟩
    · rw [undone]
      exact (rolledBack _).mpr kept
    · exact same ▸ kept
  · obtain ⟨_, v, shows, absent, _⟩ := acc.replaced rfl home ends inner
    have here := (tidy row.marketId).cancelOrder oldOrderId
    obtain ⟨consistent, uncrossed⟩ := (placeOrderInner_ok inner).tidy here shows absent
    have market : row.marketId = req.marketId := home
    rw [← market] at open_
    exact tidy.keepBook ⟨consistent, uncrossed.mpr open_⟩ db (w.nextId + 1)

private theorem sessionStep_tidy {s s' : Session} {op : SessionOp} (step : sessionStep s op s')
    (acc : s.world.Accounted False) (tidy : s.world.Tidy) (open_ : ¬ s.Shielded op) :
    s'.world.Tidy := by
  obtain rfl := step
  obtain ⟨w, entries⟩ := s
  simp only at acc tidy
  cases op with
  | place req userId clock =>
    have world := OrderService.placeOrder_world req userId clock .none w
    simp only at world
    simp only [Session.next]
    generalize (OrderService.placeOrder req userId clock .none w).2 = w' at world
    rcases world with rfl | ⟨_, _, ⟨_, rfl⟩ | ⟨_, placed, db, ob, inner, rfl⟩⟩
    · exact tidy
    · exact tidy.evict _ _
    · obtain ⟨_, _, v, shows, absent, _⟩ :=
        acc.place (show (req.draft w.nextId userId clock).id = w.nextId from rfl) inner
      obtain ⟨consistent, uncrossed⟩ := (placeOrderInner_ok inner).tidy (tidy _) shows absent
      exact tidy.keepBook ⟨consistent, uncrossed.mpr open_⟩ _ _
  | cancel orderId userId =>
    have world := OrderService.cancelOrder_world orderId userId .none w
    simp only at world
    simp only [Session.next]
    generalize (OrderService.cancelOrder orderId userId .none w).2 = w' at world
    rcases world with rfl | ⟨m, rfl⟩ | ⟨m, rfl⟩ | ⟨row, order, db, _, _, _, rfl⟩
    · exact tidy
    · exact tidy.evict m w.nextId
    · exact tidy.keepBook ((tidy m).cancelOrder orderId) w.db w.nextId
    · exact tidy.keepBook ((tidy row.marketId).cancelOrder orderId) db w.nextId
  | replace oldOrderId req userId clock =>
    exact OrderService.replaceOrder_tidy oldOrderId req userId clock acc tidy open_
  | batchCancel marketId userId scope =>
    have world := MatchingEngine.batchCancel_world marketId userId scope w
    simp only at world
    simp only [Session.next]
    rcases world with same | same | ⟨_, same⟩
    · rw [same]
      exact tidy
    · rw [same]
      exact tidy.dropAll marketId _ w.db
    · rw [same]
      exact tidy.dropAll marketId _ _
  | privileged call => exact tidy
  | resolve marketId outcome =>
    have world := AdminService.resolveMarket_world marketId outcome .none w
    simp only at world
    simp only [Session.next]
    generalize (AdminService.resolveMarket marketId outcome .none w).2 = w' at world
    rcases world with rfl | ⟨db, _, rfl⟩
    · exact tidy
    · exact tidy

private theorem Session.Opening.tidy {s s' : Session} {ops : List SessionOp} (opening : s.Opening)
    (run : Run (Guarded (fun s op => ¬ s.Shielded op) sessionStep) s ops s') :
    s'.world.Accounted False ∧ s'.world.Tidy := by
  refine run.preserves (P := fun s => s.world.Accounted False ∧ s.world.Tidy) ?_
    ⟨opening.accounted, fun m => ?_⟩
  · intro s op s' step kept
    exact ⟨(sessionStep_moves step.2 kept.1).1, sessionStep_tidy step.2 kept.1 kept.2 step.1⟩
  · rw [World.getOrCreateOrderbook, opening.books m]
    exact .empty

private theorem OrderService.placeOrder_fresh_keeps {req : PlaceOrderRequest} {userId : UserId}
    {clock : Clock}
    {w w' : World} {placed : Placed}
    (fresh : w.db.getByClientOrderId req.clientOrderId userId = none)
    (done : OrderService.placeOrder req userId clock .none w = (.ok placed, w')) :
    ∃ db ob, placeOrderInner (req.draft w.nextId userId clock)
        (w.getOrCreateOrderbook req.marketId) w.db = (.ok (placed, db), ob) ∧
      w' = { w.keepBook req.marketId ob with db := db, nextId := w.nextId + 1 } := by
  simp only [OrderService.placeOrder, reduceCtorEq, if_false, fresh] at done
  have engine := World.finish_ok done
  unfold MatchingEngine.placeOrder at engine
  split at engine
  · next placed' db ob inner =>
    cases engine
    exact ⟨db, ob, inner, rfl⟩
  · cases engine

/-- No two users' orders cross in a book in memory as long as no request shields an order,
and the first placement that does leaves them crossed. -/
theorem session_books_uncrossed {s s' : Session} {ops : List SessionOp} (opening : s.Opening)
    (run : Run (Guarded (fun s op => ¬ s.Shielded op) sessionStep) s ops s') :
    (∀ m, (s'.world.getOrCreateOrderbook m).Uncrossed) ∧
      ∀ req userId clock placed w',
        s'.world.db.getByClientOrderId req.clientOrderId userId = none →
        OrderService.placeOrder req userId clock .none s'.world = (.ok placed, w') →
        ((∀ m, (w'.getOrCreateOrderbook m).Uncrossed) ↔
          ¬ s'.Shielded (.place req userId clock)) := by
  obtain ⟨acc, tidy⟩ := opening.tidy run
  refine ⟨fun m => (tidy m).uncrossed, ?_⟩
  intro req userId clock placed w' fresh done
  obtain ⟨db, ob, inner, rfl⟩ := OrderService.placeOrder_fresh_keeps fresh done
  obtain ⟨_, _, v, shows, absent, _⟩ :=
    acc.place (show (req.draft s'.world.nextId userId clock).id = s'.world.nextId from rfl) inner
  obtain ⟨consistent, here⟩ := (placeOrderInner_ok inner).tidy (tidy _) shows absent
  constructor
  · intro uncrossed
    have book := uncrossed req.marketId
    rw [World.getOrCreateOrderbook_keepBook_self] at book
    exact here.mp book
  · intro open_ m
    exact (tidy.keepBook ⟨consistent, here.mpr open_⟩ db _ m).uncrossed

section Example

instance (s : Session) : DecidablePred s.Shielded := fun op =>
  match op with
  | .place _ _ _ => inferInstanceAs (Decidable (_ ∧ _))
  | .replace _ _ _ _ => inferInstanceAs (Decidable (_ ∧ _))
  | .cancel .. | .batchCancel .. | .privileged .. | .resolve .. =>
    inferInstanceAs (Decidable False)

private def twoAsks : List SessionOp :=
  [.place ⟨"s1", "m", .yes, .sell, 60, 4, .gtc⟩ "alice" ⟨0, 0⟩,
    .place ⟨"s2", "m", .yes, .sell, 62, 4, .gtc⟩ "bob" ⟨1, 1⟩]

private def bidOverBoth : PlaceOrderRequest := ⟨"b1", "m", .yes, .buy, 63, 8, .gtc⟩

end Example

theorem pairMarket_uncrossed : ∃ s', Run (Guarded (fun s op => ¬ s.Shielded op) sessionStep)
      pairMarket twoAsks s' ∧ (∀ m, (s'.world.getOrCreateOrderbook m).Uncrossed) ∧
    ∃ placed w', OrderService.placeOrder bidOverBoth "alice" ⟨2, 2⟩ .none s'.world =
        (.ok placed, w') ∧ ¬ ∀ m, (w'.getOrCreateOrderbook m).Uncrossed := by
  have run : Run (Guarded (fun s op => ¬ s.Shielded op) sessionStep) pairMarket twoAsks
      (twoAsks.foldl Session.next pairMarket) :=
    .cons ⟨by decide +kernel, rfl⟩ (.single ⟨by decide +kernel, rfl⟩)
  obtain ⟨uncrossed, exact_⟩ := session_books_uncrossed pairMarket_opening run
  have goes : (OrderService.placeOrder bidOverBoth "alice" ⟨2, 2⟩ .none
      (twoAsks.foldl Session.next pairMarket).world).1.isOk = true := by decide +kernel
  obtain ⟨placed, done⟩ := exists_of_isOk goes
  have crossed := (exact_ bidOverBoth "alice" ⟨2, 2⟩ placed _ (by decide +kernel)
    (Prod.ext done rfl)).not_left
  exact ⟨_, run, uncrossed, placed, _, Prod.ext done rfl, crossed.mpr (by decide +kernel)⟩

end PredictionMarket
