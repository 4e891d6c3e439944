/- PredictionMarket/Matching/TimePriority
   digest: Queues keep their order of arrival unless a pass stops behind an own order. -/

import PredictionMarket.Library.Precedence
import PredictionMarket.Matching.OwnOrders

set_option autoImplicit false
set_option relaxedAutoImplicit false

namespace PredictionMarket

open Library

/-- The ids of orders, in the order in which they were last added. -/
def arrived (ids : List OrderId) : BookCall → List OrderId
  | .addOrder bookOrder _ _ => ids.erase bookOrder.orderId ++ [bookOrder.orderId]
  | _ => ids

def arrivals (calls : List BookCall) : List OrderId := calls.foldl arrived []

/-- Every queue lists its orders in the order of `ids`. -/
def OrderBook.InOrder (ob : OrderBook) (ids : List OrderId) : Prop :=
  ∀ d p, ((ob.queue d p).map BookOrder.orderId).Sublist ids

/-- The orders before the first own one give less than is wanted, and all of others give
more; or just as much, with an own order at the end. -/
def Displaces (userId : UserId) (r : Int) (q : List BookOrder) : Prop :=
  ownAt userId q = true ∧
    total BookOrder.quantity (q.takeWhile (fun bo => !isSelfTrade userId bo.userId)) < r ∧
    (r < total BookOrder.quantity (foreignTo userId q) ∨
      r = total BookOrder.quantity (foreignTo userId q) ∧
        ∃ bo ∈ q.getLast?, isSelfTrade userId bo.userId = true)

def OrderBook.Displaces (ob : OrderBook) (o : Order) : Prop :=
  let d := o.bookDirection.opposite
  ∃ p ∈ ob.live d o.bookPrice,
    (∀ a ∈ ob.live d o.bookPrice, d.Better a p → ownAt o.userId (ob.queue d a) = false) ∧
    PredictionMarket.Displaces o.userId
      (o.remainingQuantity - ob.ahead d o.bookPrice o.userId p) (ob.queue d p)

/-- Fills go by order of arrival: of the orders of others on the level of a fill, those that
came before its maker are used up by the fills before it. -/
def Timely (ids : List OrderId) (ob : OrderBook) (o : Order) (trades : List TradeResult) : Prop :=
  ∀ earlier t later, trades = earlier ++ t :: later →
    ∃ maker ∈ ob.queue o.bookDirection.opposite t.price, maker.orderId = t.makerOrderId ∧
      isSelfTrade o.userId maker.userId = false ∧
      ∀ bo ∈ ob.queue o.bookDirection.opposite t.price, isSelfTrade o.userId bo.userId = false →
        Precedes ids bo.orderId maker.orderId →
          ∃ s ∈ earlier, s.makerOrderId = bo.orderId ∧ s.quantity = bo.quantity

def Steady : OrderBook → BookCall → Prop
  | ob, .matchOrder incoming => ¬ ob.Displaces incoming
  | _, _ => True

instance (userId : UserId) (r : Int) (q : List BookOrder) : Decidable (Displaces userId r q) :=
  inferInstanceAs (Decidable (ownAt userId q = true ∧
    total BookOrder.quantity (q.takeWhile (fun bo => !isSelfTrade userId bo.userId)) < r ∧
      (r < total BookOrder.quantity (foreignTo userId q) ∨
        r = total BookOrder.quantity (foreignTo userId q) ∧
          ∃ bo ∈ q.getLast?, isSelfTrade userId bo.userId = true)))

instance (ob : OrderBook) (o : Order) : Decidable (ob.Displaces o) :=
  inferInstanceAs (Decidable (∃ p ∈ ob.live o.bookDirection.opposite o.bookPrice,
    (∀ a ∈ ob.live o.bookDirection.opposite o.bookPrice, o.bookDirection.opposite.Better a p →
      ownAt o.userId (ob.queue o.bookDirection.opposite a) = false) ∧
    Displaces o.userId (o.remainingQuantity -
      ob.ahead o.bookDirection.opposite o.bookPrice o.userId p)
        (ob.queue o.bookDirection.opposite p)))

section Level

variable {userId : UserId} {r : Int} {q : List BookOrder}

private theorem sweep_passed (stocked : Stocked q) : (sweep userId r q).2 ≠
    [] ↔ ownAt userId q = true ∧
    total BookOrder.quantity (q.takeWhile (fun bo => !isSelfTrade userId bo.userId)) < r := by
  induction q generalizing r with
  | nil => simp [sweep, ownAt]
  | cons bo q ih =>
    have here := stocked bo List.mem_cons_self
    have more : 0 ≤ total BookOrder.quantity
        (q.takeWhile (fun bo => !isSelfTrade userId bo.userId)) :=
      total_nonneg (fun a member => stocked.tail a ((List.takeWhile_prefix _).subset member))
    rw [sweep]
    cases own : isSelfTrade userId bo.userId with
    | true =>
      rw [List.takeWhile_cons_of_neg (by simp [own]), total_nil]
      split
      · next some_ => simp [ownAt, own, some_]
      · next none => simp [none]
    | false =>
      have rest : ownAt userId (bo :: q) = ownAt userId q := by simp [ownAt, own]
      rw [List.takeWhile_cons_of_pos (by simp [own]), total_cons, rest]
      split
      · rw [if_neg (by simp)]
        split
        · rw [ih stocked.tail]
          refine and_congr_right (fun _ => ?_)
          omega
        · refine iff_of_false (by simp) ?_
          rintro ⟨_, less⟩
          omega
      · refine iff_of_false (by simp) ?_
        rintro ⟨_, less⟩
        omega

private theorem sweep_ahead (stocked : Stocked q) (wanted : 0 ≤ r) : (sweep userId r q).1 ≠ [] ↔
    r < total BookOrder.quantity (foreignTo userId q) ∨
      r = total BookOrder.quantity (foreignTo userId q) ∧
        ∃ bo ∈ q.getLast?, isSelfTrade userId bo.userId = true := by
  induction q generalizing r with
  | nil => simpa [sweep, foreignTo] using wanted
  | cons bo q ih =>
    have here := stocked bo List.mem_cons_self
    have others : 0 ≤ total BookOrder.quantity (foreignTo userId q) :=
      total_nonneg stocked.tail.foreign
    rw [sweep]
    cases own : isSelfTrade userId bo.userId with
    | true =>
      rw [foreignTo_own own]
      split
      · next some_ =>
        rw [if_pos rfl, ih stocked.tail wanted]
        cases q with
        | nil => simp [foreignTo, some_.ne']
        | cons a q => rw [List.getLast?_cons_cons]
      · next none =>
        refine iff_of_true (by simp) ?_
        obtain rfl : r = 0 := by omega
        obtain some_ | zero := lt_or_eq_of_le others
        · exact Or.inl some_
        · -- nobody else has anything, so the last order is an own one
          have clear := eq_nil_of_total stocked.tail.foreign zero.ge
          rw [← foreignTo_own own] at clear
          refine Or.inr ⟨zero, (bo :: q).getLast (by simp), ?_, ?_⟩
          · rw [List.getLast?_eq_some_getLast (by simp)]
            rfl
          · exact foreignTo_eq_nil.mp clear _ (List.getLast_mem _)
    | false =>
      rw [foreignTo_stranger own, total_cons]
      split
      · rw [if_neg (by simp)]
        split
        · next enough =>
          rw [ih stocked.tail (by omega)]
          cases q with
          | nil => simp [foreignTo, own]
          | cons a q =>
            rw [List.getLast?_cons_cons]
            refine or_congr (by omega) (and_congr_left' (by omega))
        · exact iff_of_true (by simp) (Or.inl (by omega))
      · exact iff_of_true (by simp) (Or.inl (by omega))

private theorem sweep_front (userId : UserId) (r : Int) (q : List BookOrder) :
    ∃ front, q.map BookOrder.orderId = front ++ (sweep userId r q).1.map BookOrder.orderId ∧
      ((sweep userId r q).2.map BookOrder.orderId).Sublist front := by
  induction q generalizing r with
  | nil => exact ⟨[], rfl, .slnil⟩
  | cons bo q ih =>
    rw [sweep]
    split
    · split
      · obtain ⟨front, all, behind⟩ := ih r
        exact ⟨bo.orderId :: front, by simp [all], behind.cons_cons _⟩
      · split
        · obtain ⟨front, all, behind⟩ := ih (r - bo.quantity)
          exact ⟨bo.orderId :: front, by simp [all], behind.cons _⟩
        · exact ⟨[], by simp, .slnil⟩
    · exact ⟨[], by simp, .slnil⟩

/-- A pass keeps a level in order exactly when it does not displace an own order. -/
private theorem swept_inOrder_iff (stocked : Stocked q)
    (distinct : (q.map BookOrder.orderId).Nodup) :
    ((swept userId r q).map BookOrder.orderId).Sublist (q.map BookOrder.orderId) ↔
      ¬ Displaces userId r q := by
  obtain ⟨front, all, behind⟩ := sweep_front userId r q
  obtain wanted | done := le_total 0 r
  · rw [Displaces, ← and_assoc, ← sweep_passed stocked, ← sweep_ahead stocked wanted, swept,
      List.map_append]
    constructor
    · rintro kept ⟨passed, left⟩
      obtain ⟨a, first⟩ := List.exists_mem_of_ne_nil _ passed
      obtain ⟨b, last⟩ := List.exists_mem_of_ne_nil _ left
      have early := List.mem_map_of_mem (f := BookOrder.orderId) first
      have late := List.mem_map_of_mem (f := BookOrder.orderId) last
      have before : Precedes (q.map BookOrder.orderId) a.orderId b.orderId := by
        rw [all]
        exact .append (behind.subset early) late
      exact before.asymm distinct (Precedes.mono (.append late early) kept)
    · intro still
      rw [all]
      by_cases passed : (sweep userId r q).2 = []
      · rw [passed, List.map_nil, List.append_nil]
        exact List.sublist_append_right front _
      · have clear : (sweep userId r q).1 = [] := by
          by_contra left
          exact still ⟨passed, left⟩
        rw [clear, List.map_nil, List.nil_append, List.append_nil]
        exact behind
  · rw [swept_of_nonpos done]
    refine iff_of_true (List.Sublist.refl _) ?_
    rintro ⟨_, less, _⟩
    have more : 0 ≤ total BookOrder.quantity
        (q.takeWhile (fun bo => !isSelfTrade userId bo.userId)) :=
      total_nonneg (fun a member => stocked a ((List.takeWhile_prefix _).subset member))
    omega

end Level

section Match

variable {ob : OrderBook} {o : Order} {d : OrderDirection} {p : Int}

private theorem matchOrder_inOrder_iff (wf : ob.WellFormed) (o : Order) :
    (∀ e p, (((matchOrder o ob).book.queue e p).map BookOrder.orderId).Sublist
      ((ob.queue e p).map BookOrder.orderId)) ↔ ¬ ob.Displaces o := by
  constructor
  · rintro kept ⟨p, listed, open_, displaces⟩
    have still := kept o.bookDirection.opposite p
    rw [queue_matchOrder wf rfl listed, if_pos open_] at still
    exact (swept_inOrder_iff (wf.stocked _ p) (wf.once _ p)).mp still displaces
  · intro steady e p
    by_cases facing : e = o.bookDirection.opposite
    · by_cases listed : p ∈ ob.live e o.bookPrice
      · rw [queue_matchOrder wf facing listed]
        split
        · next open_ =>
          apply (swept_inOrder_iff (wf.stocked _ p) (wf.once _ p)).mpr
          intro displaces
          subst facing
          exact steady ⟨p, listed, open_, displaces⟩
        · exact List.Sublist.refl _
      · have near := (matchOrder_sweeps wf o).near
        rw [← facing] at near
        rw [near, sweepLevels_of_not_mem listed]
    · rw [((matchOrder_sweeps wf o).far e facing).1]

private theorem OrderBook.InOrder.precedes {ids : List OrderId} (ordered : ob.InOrder ids)
    (distinct : ids.Nodup) {a b : BookOrder} (first : a ∈ ob.queue d p)
    (second : b ∈ ob.queue d p) (before : Precedes ids a.orderId b.orderId) :
    Precedes (ob.queue d p) a b := by
  have other : a ≠ b := by
    rintro rfl
    exact before.asymm distinct before
  obtain done | back := Precedes.total first second other
  · exact done
  · exact absurd ((back.map BookOrder.orderId).mono (ordered d p)) (before.asymm distinct)

private theorem takings_timely {Q : Int → List BookOrder} {ps : List Int} (distinct : ps.Nodup)
    (once : ∀ p, (Q p).Nodup) {xs ys : List ((Int × BookOrder) × Int)} {y : (Int × BookOrder) × Int}
    (gives : takings o Q ps = xs ++ y :: ys) :
    (y.1.2 ∈ Q y.1.1 ∧ isSelfTrade o.userId y.1.2.userId = false) ∧
      ∀ bo, isSelfTrade o.userId bo.userId = false → Precedes (Q y.1.1) bo y.1.2 →
        ∃ x ∈ xs, x.1 = (y.1.1, bo) ∧ x.2 = bo.quantity := by
  have reached := reach_sublist (fun p => ownAt o.userId (Q p)) ps
  have served : (takings o Q ps).map Prod.fst <+:
      entries o.userId Q (reach (fun p => ownAt o.userId (Q p)) ps) := allot_front _ _
  obtain ⟨tail, all⟩ := served
  rw [gives, List.map_append, List.map_cons, List.append_assoc, List.cons_append] at all
  have nodup : (entries o.userId Q (reach (fun p => ownAt o.userId (Q p)) ps)).Nodup :=
    entries_nodup (distinct.sublist reached) once
  have here : y.1 ∈ entries o.userId Q (reach (fun p => ownAt o.userId (Q p)) ps) := by
    rw [← all]
    simp
  obtain ⟨listed, queued, stranger⟩ := mem_entries.mp here
  refine ⟨⟨queued, stranger⟩, ?_⟩
  intro bo foreign before
  have kept : Precedes (foreignTo o.userId (Q y.1.1)) bo y.1.2 :=
    before.filter (by simp [foreign]) (by simp [stranger])
  have level : ((foreignTo o.userId (Q y.1.1)).map (Prod.mk y.1.1)).Sublist
      (entries o.userId Q (reach (fun p => ownAt o.userId (Q p)) ps)) := by
    rw [entries, List.flatMap_def]
    exact List.sublist_flatten_of_mem (List.mem_map_of_mem listed)
  have ahead := (kept.map (Prod.mk y.1.1)).mono level
  rw [← all] at ahead nodup
  obtain ⟨x, member, same⟩ := List.mem_map.mp (ahead.mem_front nodup)
  refine ⟨x, member, same, ?_⟩
  rw [allot_before gives x member, same]

private theorem matchOrder_timely {ids : List OrderId} (wf : ob.WellFormed)
    (ordered : ob.InOrder ids)
    (distinct : ids.Nodup) (o : Order) : Timely ids ob o (matchOrder o ob).trades := by
  intro earlier t later split
  rw [(matchOrder_sweeps wf o).trades] at split
  obtain ⟨xs, rest, gives, rfl, ends⟩ := List.map_eq_append_iff.mp split
  obtain ⟨y, ys, rfl, rfl, _⟩ := List.map_eq_cons_iff.mp ends
  obtain ⟨⟨queued, stranger⟩, front⟩ := takings_timely live_nodup
    (fun p => (wf.once _ p).of_map) gives
  rw [makeTrade_price, makeTrade_makerOrderId]
  refine ⟨y.1.2, queued, rfl, stranger, ?_⟩
  intro bo member foreign before
  obtain ⟨x, earlier, level, given⟩ :=
    front bo foreign (ordered.precedes distinct member queued before)
  refine ⟨_, List.mem_map_of_mem earlier, ?_, ?_⟩
  · rw [makeTrade_makerOrderId, level]
  · rw [makeTrade_quantity, given]

end Match

theorem OrderBook.cancelOrder_sublist (ob : OrderBook) (id : OrderId) (d : OrderDirection)
    (p : Int) : ((ob.cancelOrder id).queue d p).Sublist (ob.queue d p) := by
  cases indexed : ob.orderIndex id with
  | none => simp [cancelOrder, indexed]
  | some level =>
    have taken : (ob.cancelOrder id).queue d p = (((ob.dropIndex id).setQueue level.1 level.2
        ((ob.queue level.1 level.2).eraseP (fun bo => bo.orderId = id))).queue d p) := by
      simp only [cancelOrder, indexed]
      split
      · simp
      · simp
    rw [taken, queue_setQueue, queue_dropIndex]
    split
    · next same =>
      obtain ⟨rfl, rfl⟩ := same
      exact List.eraseP_sublist
    · exact List.Sublist.refl _

private theorem OrderBook.InOrder.step {ob ob' : OrderBook} {call : BookCall} {ids : List OrderId}
    (step : Guarded Steady bookCall ob call ob') (consistent : ob.Consistent)
    (ordered : ob.InOrder ids) : ob'.InOrder (arrived ids call) := by
  obtain ⟨steady, step⟩ := step
  cases call with
  | addOrder bo price side =>
    obtain ⟨fresh, _, _, rfl⟩ := step
    have kept : ∀ d p, ((ob.queue d p).map BookOrder.orderId).Sublist (ids.erase bo.orderId) := by
      intro d p
      have absent : bo.orderId ∉ (ob.queue d p).map BookOrder.orderId := by
        intro listed
        obtain ⟨a, queued, same⟩ := List.mem_map.mp listed
        exact fresh d p a queued same
      rw [← List.erase_of_not_mem absent]
      exact (ordered d p).erase bo.orderId
    intro d p
    rw [OrderBook.queue_addOrder]
    split
    · rw [List.map_append]
      exact (kept side price).append (List.Sublist.refl _)
    · exact (kept d p).trans (List.sublist_append_left _ _)
  | cancelOrder id =>
    obtain rfl := step
    intro d p
    exact ((ob.cancelOrder_sublist id d p).map BookOrder.orderId).trans (ordered d p)
  | matchOrder o =>
    obtain ⟨_, rfl⟩ := step
    intro d p
    exact ((matchOrder_inOrder_iff consistent.wellFormed o).mpr steady d p).trans (ordered d p)

private theorem arrived_nodup {ids : List OrderId} (distinct : ids.Nodup) (call : BookCall) :
    (arrived ids call).Nodup := by
  cases call with
  | addOrder bo price side =>
    refine List.nodup_append.mpr ⟨distinct.erase _, List.nodup_singleton _, ?_⟩
    intro a member b last
    obtain rfl := List.mem_singleton.mp last
    rintro rfl
    exact (distinct.mem_erase_iff.mp member).1 rfl
  | cancelOrder id => exact distinct
  | matchOrder o => exact distinct

private theorem run_inOrder {calls : List BookCall} {ob ob' : OrderBook} {ids : List OrderId}
    (run : Run (Guarded Steady bookCall) ob calls ob') (consistent : ob.Consistent)
    (ordered : ob.InOrder ids) (distinct : ids.Nodup) :
    ob'.Consistent ∧ ob'.InOrder (calls.foldl arrived ids) ∧ (calls.foldl arrived ids).Nodup := by
  induction run generalizing ids with
  | nil => exact ⟨consistent, ordered, distinct⟩
  | cons step _ ih =>
    exact ih (consistent.step step.2) (ordered.step step consistent) (arrived_nodup distinct _)

/-- In every sequence of calls that displaces no own order, queues list their orders as they
arrived, and whatever is matched next is filled in that order. -/
theorem time_priority_kept {calls : List BookCall} {ob : OrderBook}
    (run : Run (Guarded Steady bookCall) .empty calls ob) :
    ob.InOrder (arrivals calls) ∧
      ∀ o, Timely (arrivals calls) ob o (matchOrder o ob).trades := by
  have start : OrderBook.empty.InOrder [] := by
    intro d p
    cases d <;> exact .slnil
  obtain ⟨consistent, ordered, distinct⟩ :=
    run_inOrder run OrderBook.consistent_empty start List.nodup_nil
  exact ⟨ordered, fun o => matchOrder_timely consistent.wellFormed ordered distinct o⟩

section Example

private def aliceThenBob : List BookCall :=
  [.addOrder ⟨1, "alice", .nativeSell, 10, 0⟩ 60 .sell,
    .addOrder ⟨2, "bob", .nativeSell, 10, 0⟩ 60 .sell]

private def asksAtSixty : OrderBook :=
  (OrderBook.empty.addOrder ⟨1, "alice", .nativeSell, 10, 0⟩ 60 .sell).addOrder
    ⟨2, "bob", .nativeSell, 10, 0⟩ 60 .sell

private def bidOf (userId : UserId) (qty : Int) : Order :=
  ⟨3, "c3", "m", userId, .yes, .buy, 60, .nativeBuy, .buy, 60, qty, 60 * qty, .funds, .gtc, .open,
    none, 0, qty, 0⟩

private theorem fresh_second :
    (OrderBook.empty.addOrder ⟨1, "alice", .nativeSell, 10, 0⟩ 60 .sell).Fresh 2 :=
  (OrderBook.fresh_empty 2).addOrder (by decide) 60 .sell

end Example

/-- Alice's own bid uses up bob's ask, so her ask is back at the head. -/
theorem bid_behind_own_ask_keeps_order : (matchOrder (bidOf "alice" 10) asksAtSixty).book.InOrder
    (arrivals (aliceThenBob ++ [.matchOrder (bidOf "alice" 10)])) := by
  have steady : ¬ asksAtSixty.Displaces (bidOf "alice" 10) := by decide +kernel
  have run : Run (Guarded Steady bookCall) .empty
      (aliceThenBob ++ [.matchOrder (bidOf "alice" 10)])
      (matchOrder (bidOf "alice" 10) asksAtSixty).book :=
    .cons ⟨trivial, OrderBook.fresh_empty 1, by decide, by decide, rfl⟩
      (.cons ⟨trivial, fresh_second, by decide, by decide, rfl⟩
        (.single ⟨steady, by decide, rfl⟩))
  exact (time_priority_kept run).1

/-- Her smaller bid leaves bob's ask in front of hers, and the next bid is filled by him. -/
theorem bid_behind_own_ask_displaces_it :
    Run bookCall .empty (aliceThenBob ++ [.matchOrder (bidOf "alice" 5)])
        (matchOrder (bidOf "alice" 5) asksAtSixty).book ∧
      ¬ (matchOrder (bidOf "alice" 5) asksAtSixty).book.InOrder
        (arrivals (aliceThenBob ++ [.matchOrder (bidOf "alice" 5)])) ∧
      ¬ Timely (arrivals (aliceThenBob ++ [.matchOrder (bidOf "alice" 5)]))
        (matchOrder (bidOf "alice" 5) asksAtSixty).book (bidOf "carol" 5)
        (matchOrder (bidOf "carol" 5) (matchOrder (bidOf "alice" 5) asksAtSixty).book).trades := by
  refine ⟨?_, ?_, ?_⟩
  · exact .cons ⟨OrderBook.fresh_empty 1, by decide, by decide, rfl⟩
      (.cons ⟨fresh_second, by decide, by decide, rfl⟩ (.single ⟨by decide, rfl⟩))
  · intro ordered
    exact absurd (ordered .sell 60) (by decide +kernel)
  · intro timely
    have trades : (matchOrder (bidOf "carol" 5)
        (matchOrder (bidOf "alice" 5) asksAtSixty).book).trades =
        [] ++ makeTradeBuyIncoming (bidOf "carol" 5) ⟨2, "bob", .nativeSell, 5, 0⟩ 60 5 :: [] := by
      decide +kernel
    obtain ⟨maker, _, key, _, front⟩ := timely _ _ _ trades
    have before : Precedes (arrivals (aliceThenBob ++ [.matchOrder (bidOf "alice" 5)])) 1
        maker.orderId := by
      rw [key]
      exact List.Sublist.refl _
    obtain ⟨s, none, _⟩ := front ⟨1, "alice", .nativeSell, 10, 0⟩ (by decide +kernel)
      (by decide +kernel) before
    cases none

end PredictionMarket
