/- PredictionMarket/Engine/StorableFills
   digest: Which fills of an admitted order the trades table takes. -/

import PredictionMarket.Engine.RestingView
import PredictionMarket.Matching.FillSoundness
import PredictionMarket.Matching.GreedyWalk

set_option autoImplicit false
set_option relaxedAutoImplicit false

namespace PredictionMarket

open Library

/-- The trades table takes a fill, whatever its fee and profits are. -/
def TradeResult.Storable (t : TradeResult) : Prop :=
  ∀ (fee : Int) (buyPnl sellPnl : Option Int), 0 ≤ fee →
    TradeRow.Check ⟨t, determineScenario t.buyBookType t.sellBookType, 0, fee, buyPnl, sellPnl⟩

theorem TradeResult.Storable.written {t : TradeResult} (storable : t.Storable) (db : Db) (fee : Int)
    (buyPnl sellPnl : Option Int) (charged : 0 ≤ fee) : ∃ db', db.writeTrade
      ⟨t, determineScenario t.buyBookType t.sellBookType, 0, fee, buyPnl, sellPnl⟩ = .ok db' :=
  ⟨_, if_pos (storable fee buyPnl sellPnl charged)⟩

def OrderBook.Typed (ob : OrderBook) : Prop :=
  ∀ d p, ∀ bo ∈ ob.queue d p, bo.bookType.direction = d

/-- Whoever is exempt from the self-trade check and meets an own order has what it
wants from the orders ahead of that one. -/
def OrderBook.OwnOutOfReach (ob : OrderBook) (o : Order) : Prop :=
  ∀ front e back, ob.listed o.bookDirection.opposite = front ++ e :: back →
    e.2.userId = o.userId → isSelfTrade o.userId e.2.userId = false →
    o.bookDirection.opposite.Crosses e.1 o.bookPrice →
    o.remainingQuantity ≤ (front.map (fun e => e.2.quantity)).sum

section Typed

variable {ob : OrderBook}

private theorem OrderBook.Typed.addOrder (typed : ob.Typed) {bo : BookOrder} {d : OrderDirection}
    (own : bo.bookType.direction = d) (p : Int) : (ob.addOrder bo p d).Typed := by
  intro e r a queued
  rw [queue_addOrder] at queued
  split at queued
  · next level =>
    obtain ⟨rfl, rfl⟩ := level
    rcases List.mem_append.mp queued with old | last
    · exact typed e r a old
    · exact List.mem_singleton.mp last ▸ own
  · exact typed e r a queued

private theorem OrderBook.Typed.cancelOrder (typed : ob.Typed) {v : RestingOrders}
    (rep : ob.Represents v) (id : OrderId) : (ob.cancelOrder id).Typed := by
  intro d p a queued
  rw [rep.queue_cancelOrder] at queued
  exact typed d p a (List.mem_of_mem_filter queued)

private theorem OrderBook.Typed.matchOrder (typed : ob.Typed) (wf : ob.WellFormed) (o : Order) :
    (matchOrder o ob).book.Typed := by
  intro d p a queued
  rcases queue_matchOrder_cases wf o d p with same | ⟨r, pass⟩
  · exact typed d p a (same ▸ queued)
  · obtain ⟨before, inside, same⟩ := mem_swept (pass ▸ queued)
    rw [same]
    exact typed d p before inside

def BookCall.Sided : BookCall → Prop
  | .addOrder bookOrder _ side => bookOrder.bookType.direction = side
  | .cancelOrder _ => True
  | .matchOrder _ => True

theorem book_calls_typed {calls : List BookCall}
    (run : Run (Guarded (fun _ call => call.Sided) bookCall) .empty calls ob) :
    ob.WellFormed ∧ ob.Typed := by
  have empty : OrderBook.empty.Typed := fun d p bo queued => by cases d <;> cases queued
  have kept := run.preserves (P := fun ob => ob.Consistent ∧ ob.Typed) ?_
    ⟨OrderBook.consistent_empty, empty⟩
  · exact ⟨kept.1.wellFormed, kept.2⟩
  · rintro s call t ⟨sided, step⟩ ⟨consistent, typed⟩
    refine ⟨consistent.step step, ?_⟩
    cases call with
    | addOrder bo price side =>
      obtain ⟨_, _, _, rfl⟩ := step
      exact typed.addOrder sided price
    | cancelOrder id =>
      obtain ⟨v, rep, _⟩ := consistent
      obtain rfl := step
      exact typed.cancelOrder rep id
    | matchOrder incoming =>
      obtain ⟨_, rfl⟩ := step
      exact typed.matchOrder consistent.wellFormed incoming

end Typed

section Exempt

variable {ob : OrderBook} {o : Order}

private theorem isSelfTrade_exempt {userId : UserId} (exempt : isSelfTrade userId userId = false)
    (other : UserId) : isSelfTrade userId other = false := by
  unfold isSelfTrade at exempt ⊢
  simp only [or_self] at exempt
  split at exempt
  · next amm => simp [amm]
  · simp at exempt

private theorem takings_exempt (exempt : isSelfTrade o.userId o.userId = false)
    (Q : Int → List BookOrder) (ps : List Int) : takings o Q ps =
      allot (fun e => e.2.quantity) o.remainingQuantity
        (ps.flatMap (fun p => (Q p).map (Prod.mk p))) := by
  have all : ∀ q, foreignTo o.userId q = q := by
    intro q
    rw [foreignTo, List.filter_eq_self]
    intro bo _
    simpa using isSelfTrade_exempt exempt bo.userId
  have open_ : ∀ ps : List Int, reach (fun p => ownAt o.userId (Q p)) ps = ps := by
    intro ps
    induction ps with
    | nil => rfl
    | cons p ps ih =>
      have none : ownAt o.userId (Q p) = false := ownAt_eq_false.mpr (all (Q p))
      rw [reach, none, ih]
      rfl
  simp only [takings, entries, open_, all]

private theorem mem_takings_exempt (wf : ob.WellFormed)
    (exempt : isSelfTrade o.userId o.userId = false)
    {e : Int × BookOrder} :
    e ∈ (takings o (ob.queue o.bookDirection.opposite)
        (ob.live o.bookDirection.opposite o.bookPrice)).map Prod.fst ↔
      o.bookDirection.opposite.Crosses e.1 o.bookPrice ∧
        ∃ front back, ob.listed o.bookDirection.opposite = front ++ e :: back ∧
          (front.map (fun e => e.2.quantity)).sum < o.remainingQuantity := by
  rw [takings_exempt exempt]
  have listed := listed_split (d := o.bookDirection.opposite) ob o.bookPrice
    (Q := ob.queue o.bookDirection.opposite) (fun p _ clear => clear)
  have crossing : ∀ x ∈ (ob.live o.bookDirection.opposite o.bookPrice).flatMap
      (fun p => (ob.queue o.bookDirection.opposite p).map (Prod.mk p)),
      o.bookDirection.opposite.Crosses x.1 o.bookPrice ∧ 0 < x.2.quantity := by
    intro x member
    obtain ⟨p, live, inside⟩ := List.mem_flatMap.mp member
    obtain ⟨bo, queued, rfl⟩ := List.mem_map.mp inside
    exact ⟨(mem_live.mp live).2.1, wf.stocked _ p bo queued⟩
  have worse : ∀ x ∈ (o.bookDirection.opposite.levels.filter
      (fun p => ¬ o.bookDirection.opposite.Crosses p o.bookPrice)).flatMap
        (fun p => (ob.queue o.bookDirection.opposite p).map (Prod.mk p)),
      ¬ o.bookDirection.opposite.Crosses x.1 o.bookPrice := by
    intro x member
    obtain ⟨p, here, inside⟩ := List.mem_flatMap.mp member
    obtain ⟨bo, _, rfl⟩ := List.mem_map.mp inside
    exact of_decide_eq_true (List.mem_filter.mp here).2
  rw [OrderBook.listed, listed, mem_allot_iff (fun x member => (crossing x member).2)]
  generalize (ob.live o.bookDirection.opposite o.bookPrice).flatMap
    (fun p => (ob.queue o.bookDirection.opposite p).map (Prod.mk p)) = ahead at *
  generalize (o.bookDirection.opposite.levels.filter
    (fun p => ¬ o.bookDirection.opposite.Crosses p o.bookPrice)).flatMap
      (fun p => (ob.queue o.bookDirection.opposite p).map (Prod.mk p)) = beyond at *
  constructor
  · rintro ⟨front, back, rfl, short⟩
    refine ⟨(crossing e (List.mem_append_right front List.mem_cons_self)).1, front,
      back ++ beyond, ?_, short⟩
    rw [List.append_assoc, List.cons_append]
  · rintro ⟨crosses, front, back, split, short⟩
    rcases List.append_eq_append_iff.mp split with ⟨gap, rfl, rfl⟩ | ⟨gap, rfl, behind⟩
    · exact absurd crosses (worse e (List.mem_append_right gap List.mem_cons_self))
    · cases gap with
      | nil =>
        obtain rfl : e :: back = beyond := behind
        exact absurd crosses (worse e List.mem_cons_self)
      | cons x gap =>
        obtain ⟨rfl, _⟩ := List.cons.inj behind
        exact ⟨front, gap, rfl, short⟩

end Exempt

/-- The only constraint that a well-typed fill can break is that its users differ. -/
private theorem makeTrade_storable_iff {o : Order} {bo : BookOrder} {p qty : Int}
    (own : o.bookType.direction = o.bookDirection)
    (facing : bo.bookType.direction = o.bookDirection.opposite) (range : 1 ≤ p ∧ p ≤ 99)
    (positive : 0 < qty) :
    (makeTrade o.bookDirection.opposite o bo p qty).Storable ↔ bo.userId ≠ o.userId := by
  constructor
  · intro storable same
    have users := (storable 0 none none le_rfl).2.2.2.2.2
    cases direction : o.bookDirection <;> rw [direction] at users <;>
      simp [OrderDirection.opposite, makeTrade, makeTradeBuyIncoming, makeTradeSellIncoming,
        same] at users
  · intro other fee buyPnl sellPnl charged
    cases direction : o.bookDirection with
    | buy =>
      rw [direction] at own facing
      exact ⟨own, facing, range, positive, ⟨le_rfl, charged⟩, other.symm⟩
    | sell =>
      rw [direction] at own facing
      exact ⟨facing, own, range, positive, ⟨le_rfl, charged⟩, other⟩

section Admitted

variable {ob : OrderBook} {draft : OrderDraft}

private theorem OrderDraft.accepted_typed (draft : OrderDraft) :
    draft.accepted.bookType.direction = draft.accepted.bookDirection := by
  simp only [OrderDraft.accepted, OrderDraft.toOrder]
  cases draft.originalSide <;> cases draft.originalDirection <;> rfl

/-- Every fill of an order can be stored exactly when no order that it can reach is
its own and exempt from the self-trade check; the limits on its price and quantity do
not matter. -/
theorem fills_storable_iff (wf : ob.WellFormed) (typed : ob.Typed) (draft : OrderDraft) :
    (∀ t ∈ (matchOrder draft.accepted ob).trades, t.Storable) ↔
      ob.OwnOutOfReach draft.accepted := by
  have trades := (matchOrder_sweeps wf draft.accepted).trades
  have storable : ∀ x ∈ takings draft.accepted (ob.queue draft.accepted.bookDirection.opposite)
      (ob.live draft.accepted.bookDirection.opposite draft.accepted.bookPrice),
      (makeTrade draft.accepted.bookDirection.opposite draft.accepted x.1.2 x.1.1 x.2).Storable ↔
        x.1.2.userId ≠ draft.accepted.userId := by
    intro x taken
    obtain ⟨live, queued, _, positive, _⟩ := mem_takings (wf.stocked _) taken
    exact makeTrade_storable_iff draft.accepted_typed (typed _ _ _ queued) (mem_live.mp live).1
      positive
  rw [trades, List.forall_mem_map]
  constructor
  · intro all front e back split own unchecked crosses
    by_contra reached
    rw [own] at unchecked
    obtain ⟨x, taken, rfl⟩ := List.mem_map.mp ((mem_takings_exempt wf unchecked).mpr
      ⟨crosses, front, back, split, not_le.mp reached⟩)
    exact (storable x taken).mp (all x taken) own
  · intro spared x taken
    refine (storable x taken).mpr (fun own => ?_)
    obtain ⟨_, _, unchecked, _⟩ := mem_takings (wf.stocked _) taken
    have exempt := unchecked
    rw [own] at exempt
    obtain ⟨crosses, front, back, split, reached⟩ := (mem_takings_exempt wf exempt).mp
      (List.mem_map_of_mem taken)
    exact absurd (spared front x.1 back split own unchecked crosses) (not_le.mpr reached)

end Admitted

section Example

def ammBehindBob : OrderBook :=
  (OrderBook.empty.addOrder ⟨1, "bob", .nativeSell, 10, 0⟩ 60 .sell).addOrder
    ⟨2, AMM_USER_ID, .syntheticSell, 10, 0⟩ 62 .sell

private theorem ammBehindBob_wellFormed : ammBehindBob.WellFormed := by
  have first := OrderBook.consistent_empty.addOrder ⟨1, "bob", .nativeSell, 10, 0⟩ 60 .sell
    (OrderBook.fresh_empty 1) (by decide) (by decide)
  exact (first.addOrder ⟨2, AMM_USER_ID, .syntheticSell, 10, 0⟩ 62 .sell
    ((OrderBook.fresh_empty 2).addOrder (by decide) 60 .sell) (by decide) (by decide)).wellFormed

private theorem ammBehindBob_typed : ammBehindBob.Typed := by
  have empty : OrderBook.empty.Typed := fun d p bo queued =>
    absurd queued OrderBook.not_mem_empty
  exact (empty.addOrder rfl 60).addOrder rfl 62

def ammBid (quantity : Int) : OrderDraft where
  id := 3
  clientOrderId := "c3"
  marketId := "m"
  userId := AMM_USER_ID
  originalSide := .yes
  originalDirection := .buy
  originalPrice := 63
  quantity := quantity
  timeInForce := .gtc
  createdAt := 0
  insertedAt := 0

/-- Bob's order is enough for ten shares. -/
theorem ten_shares_storable :
    (∀ t ∈ (matchOrder (ammBid 10).accepted ammBehindBob).trades, t.Storable) ∧
      ammBehindBob.OwnOutOfReach (ammBid 10).accepted := by
  have one : (matchOrder (ammBid 10).accepted ammBehindBob).trades =
      [makeTrade .sell (ammBid 10).accepted ⟨1, "bob", .nativeSell, 10, 0⟩ 60 10] := by
    decide +kernel
  have all : ∀ t ∈ (matchOrder (ammBid 10).accepted ammBehindBob).trades, t.Storable := by
    rw [one]
    intro t member
    rw [List.mem_singleton.mp member]
    exact (makeTrade_storable_iff (o := (ammBid 10).accepted) rfl rfl (by decide)
      (by decide)).mpr (by decide)
  exact ⟨all, (fills_storable_iff ammBehindBob_wellFormed ammBehindBob_typed (ammBid 10)).mp all⟩

/-- For fifteen the AMM trades with itself, which the table refuses. -/
theorem fifteen_shares_refused : ∃ (ob : OrderBook) (draft : OrderDraft), ob.WellFormed ∧ ob.Typed ∧
    checkPriceRange draft.originalPrice = .ok () ∧ checkOrderLimit draft.quantity = .ok () ∧
    ∃ t ∈ (matchOrder draft.accepted ob).trades, t.buyUserId = t.sellUserId ∧
      ∀ (db : Db) fee buyPnl sellPnl, db.writeTrade ⟨t,
        determineScenario t.buyBookType t.sellBookType, 0, fee, buyPnl, sellPnl⟩ =
          .error .integrity := by
  refine ⟨ammBehindBob, ammBid 15, ammBehindBob_wellFormed, ammBehindBob_typed, rfl, rfl,
    makeTrade .sell (ammBid 15).accepted ⟨2, AMM_USER_ID, .syntheticSell, 10, 0⟩ 62 5,
    by decide +kernel, rfl, ?_⟩
  intro db fee buyPnl sellPnl
  exact if_neg (fun check => check.2.2.2.2.2 rfl)

end Example

end PredictionMarket
