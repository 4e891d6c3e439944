/- PredictionMarket/Matching/OwnOrders
   digest: An own order that is reached ends the walk over the levels, not only its own turn. -/

import PredictionMarket.Matching.PriceLevels

set_option autoImplicit false
set_option relaxedAutoImplicit false

namespace PredictionMarket

open Library

/-- The order is filled, or only own orders are left at the prices that cross its limit. -/
def Exhausted (o : Order) (result : Matched) : Prop :=
  result.incoming.remainingQuantity = 0 ∨
    ∀ p, o.bookDirection.opposite.Crosses p o.bookPrice →
      ∀ bo ∈ result.book.queue o.bookDirection.opposite p, isSelfTrade o.userId bo.userId = true

/-- An own order rests at a level that the others cannot use up alone, they and the better
levels, while someone else rests at a worse level that still crosses. -/
def OrderBook.Shields (ob : OrderBook) (o : Order) : Prop :=
  let d := o.bookDirection.opposite
  ∃ p ∈ ob.live d o.bookPrice, ownAt o.userId (ob.queue d p) = true ∧
    ob.ahead d o.bookPrice o.userId p +
      total BookOrder.quantity (foreignTo o.userId (ob.queue d p)) < o.remainingQuantity ∧
    ∃ q ∈ ob.live d o.bookPrice, d.Better p q ∧ foreignTo o.userId (ob.queue d q) ≠ []

instance (ob : OrderBook) (o : Order) : Decidable (ob.Shields o) :=
  inferInstanceAs (Decidable (∃ p ∈ ob.live o.bookDirection.opposite o.bookPrice,
    ownAt o.userId (ob.queue o.bookDirection.opposite p) = true ∧
    ob.ahead o.bookDirection.opposite o.bookPrice o.userId p + total BookOrder.quantity
      (foreignTo o.userId (ob.queue o.bookDirection.opposite p)) < o.remainingQuantity ∧
    ∃ q ∈ ob.live o.bookDirection.opposite o.bookPrice, o.bookDirection.opposite.Better p q ∧
      foreignTo o.userId (ob.queue o.bookDirection.opposite q) ≠ []))

section Pass

variable {userId : UserId} {r : Int} {q : List BookOrder}

private theorem foreignTo_append (q k : List BookOrder) :
    foreignTo userId (q ++ k) = foreignTo userId q ++ foreignTo userId k :=
  List.filter_append _ _

theorem foreignTo_eq_nil : foreignTo userId q = [] ↔
    ∀ bo ∈ q, isSelfTrade userId bo.userId = true := by
  simp [foreignTo]

private theorem foreignTo_swept (stocked : Stocked q)
    (enough : total BookOrder.quantity (foreignTo userId q) ≤ r) :
    foreignTo userId (swept userId r q) = [] := by
  induction q generalizing r with
  | nil => rfl
  | cons bo q ih =>
    have here := stocked bo List.mem_cons_self
    have others : 0 ≤ total BookOrder.quantity (foreignTo userId q) :=
      total_nonneg stocked.tail.foreign
    rw [swept, sweep]
    cases own : isSelfTrade userId bo.userId with
    | true =>
      rw [foreignTo_own own] at enough
      split
      · have rest := ih stocked.tail enough
        rw [swept, foreignTo_append] at rest
        rw [if_pos rfl, foreignTo_append, foreignTo_own own]
        exact rest
      · next done =>
        -- nothing is wanted, so the others have nothing
        have none := eq_nil_of_total stocked.tail.foreign (enough.trans (not_lt.mp done))
        rw [List.append_nil, foreignTo_own own, none]
    | false =>
      rw [foreignTo_stranger own, total_cons] at enough
      rw [if_pos (by omega), if_neg (by simp), if_pos (by omega)]
      exact ih stocked.tail (by omega)

private theorem swept_of_own (stocked : Stocked q) (own : ownAt userId q = true) :
    swept userId r q ≠ [] := by
  intro clear
  have crowded : q ≠ [] := by
    rintro rfl
    simp [ownAt] at own
  have open_ := ((swept_eq_nil stocked (Or.inr crowded)).mp clear).1
  rw [ownAt_eq_false.mpr open_] at own
  cases own

end Pass

section Leftover

variable {userId : UserId} {r : Int} {Q : Int → List BookOrder} {b : Int} {ps : List Int}

/-- A walk that wants `r` has some to spare at the first level with an own order, and
someone else rests at a later one. -/
def Blocked (userId : UserId) (Q : Int → List BookOrder) (r : Int) (ps : List Int) : Prop :=
  ∃ before p after, ps = before ++ p :: after ∧ ownAt userId (Q p) = true ∧
    (before.map (fun a => total BookOrder.quantity (foreignTo userId (Q a)))).sum +
      total BookOrder.quantity (foreignTo userId (Q p)) < r ∧
    ∃ q ∈ after, foreignTo userId (Q q) ≠ []

private theorem blocked_cons : Blocked userId Q r (b :: ps) ↔
    (ownAt userId (Q b) = true ∧ total BookOrder.quantity (foreignTo userId (Q b)) < r ∧
      ∃ q ∈ ps, foreignTo userId (Q q) ≠ []) ∨
    Blocked userId Q (r - total BookOrder.quantity (foreignTo userId (Q b))) ps := by
  constructor
  · rintro ⟨before, p, after, split, own, less, worse⟩
    cases before with
    | nil =>
      obtain ⟨rfl, rfl⟩ := List.cons.inj split
      exact Or.inl ⟨own, by simpa using less, worse⟩
    | cons a before =>
      obtain ⟨rfl, rfl⟩ := List.cons.inj split
      rw [List.map_cons, List.sum_cons] at less
      exact Or.inr ⟨before, p, after, rfl, own, by omega, worse⟩
  · rintro (⟨own, less, worse⟩ | ⟨before, p, after, rfl, own, less, worse⟩)
    · exact ⟨[], b, ps, rfl, own, by simpa using less, worse⟩
    · refine ⟨b :: before, p, after, rfl, own, ?_, worse⟩
      rw [List.map_cons, List.sum_cons]
      omega

private theorem Blocked.wants (stocked : ∀ a, Stocked (Q a)) (blocked : Blocked userId Q r ps) :
    0 < r ∧ ∃ q ∈ ps, foreignTo userId (Q q) ≠ [] := by
  obtain ⟨before, p, after, rfl, _, less, q, listed, left⟩ := blocked
  have others : ∀ a, 0 ≤ total BookOrder.quantity (foreignTo userId (Q a)) :=
    fun a => total_nonneg (stocked a).foreign
  have here := others p
  have sums : 0 ≤
      (before.map (fun a => total BookOrder.quantity (foreignTo userId (Q a)))).sum := by
    apply List.sum_nonneg
    intro x listed
    obtain ⟨a, _, rfl⟩ := List.mem_map.mp listed
    exact others a
  exact ⟨by omega, q, List.mem_append_right before (List.mem_cons_of_mem p listed), left⟩

private theorem blocked_own (stocked : ∀ a, Stocked (Q a)) (own : ownAt userId (Q b) = true) :
    Blocked userId Q r (b :: ps) ↔
      total BookOrder.quantity (foreignTo userId (Q b)) < r ∧
        ∃ q ∈ ps, foreignTo userId (Q q) ≠ [] := by
  rw [blocked_cons]
  constructor
  · rintro (⟨_, here⟩ | later)
    · exact here
    · obtain ⟨more, worse⟩ := later.wants stocked
      exact ⟨by omega, worse⟩
  · intro here
    exact Or.inl ⟨own, here⟩

private theorem blocked_open (open_ : ownAt userId (Q b) = false) : Blocked userId Q r (b :: ps) ↔
    Blocked userId Q (r - total BookOrder.quantity (foreignTo userId (Q b))) ps := by
  rw [blocked_cons, open_]
  simp

/-- What is left at the levels when the first of them is rewritten. -/
private theorem exists_left_update (absent : b ∉ ps) (left : List BookOrder) :
    (∃ q ∈ b :: ps, foreignTo userId (Function.update Q b left q) ≠ []) ↔
      foreignTo userId left ≠ [] ∨ ∃ q ∈ ps, foreignTo userId (Q q) ≠ [] := by
  have others : ∀ q ∈ ps, Function.update Q b left q = Q q := by
    intro q listed
    have other : q ≠ b := by
      rintro rfl
      exact absent listed
    exact Function.update_of_ne other _ _
  constructor
  · rintro ⟨q, listed, some_⟩
    obtain rfl | later := List.mem_cons.mp listed
    · rw [Function.update_self] at some_
      exact Or.inl some_
    · rw [others q later] at some_
      exact Or.inr ⟨q, later, some_⟩
  · rintro (here | ⟨q, later, some_⟩)
    · exact ⟨b, List.mem_cons_self, by rwa [Function.update_self]⟩
    · exact ⟨q, List.mem_cons_of_mem b later, by rwa [others q later]⟩

/-- Something is wanted and left exactly when the walk ended at an own order. -/
theorem leftover_iff (o : Order) (wanted : 0 ≤ o.remainingQuantity) (distinct : ps.Nodup)
    (stocked : ∀ a, Stocked (Q a)) (crowded : ∀ a ∈ ps, Q a ≠ []) :
    (((takings o Q ps).map Prod.snd).sum < o.remainingQuantity ∧ ∃ q ∈ ps,
      foreignTo o.userId (sweepLevels o.userId o.remainingQuantity ps Q q) ≠ []) ↔
    Blocked o.userId Q o.remainingQuantity ps := by
  induction ps generalizing o with
  | nil => simp [Blocked]
  | cons b ps ih =>
    obtain ⟨absent, distinct⟩ := List.nodup_cons.mp distinct
    have held := crowded b List.mem_cons_self
    have given : ((levelTakings o (Q b)).map Prod.snd).sum =
        min o.remainingQuantity (total BookOrder.quantity (foreignTo o.userId (Q b))) :=
      sum_allot (stocked b).foreign wanted
    rw [sweepLevels_cons absent, exists_left_update absent]
    cases own : ownAt o.userId (Q b) with
    | true =>
      have level : ((takings o Q (b :: ps)).map Prod.snd).sum =
          min o.remainingQuantity (total BookOrder.quantity (foreignTo o.userId (Q b))) := by
        rw [takings_stop (stocked b) wanted (Or.inl own), List.map_map, ← given]
        rfl
      rw [level, if_neg (swept_of_own (stocked b) own), blocked_own stocked own]
      constructor
      · rintro ⟨short, here | worse⟩
        · exact absurd (foreignTo_swept (stocked b) (by omega)) here
        · exact ⟨by omega, worse⟩
      · rintro ⟨enough, worse⟩
        exact ⟨by omega, Or.inr worse⟩
    | false =>
      have open_ := ownAt_eq_false.mp own
      rw [blocked_open own]
      by_cases enough : total BookOrder.quantity (foreignTo o.userId (Q b)) ≤ o.remainingQuantity
      · -- the level is used up, and the walk goes on with the rest of the quantity
        have clear : swept o.userId o.remainingQuantity (Q b) = [] :=
          (swept_eq_nil (stocked b) (Or.inr held)).mpr ⟨open_, open_ ▸ enough⟩
        have all : total BookOrder.quantity (Q b) =
            total BookOrder.quantity (foreignTo o.userId (Q b)) := by rw [open_]
        have later := ih (o.taken (total BookOrder.quantity (foreignTo o.userId (Q b))))
          (by rw [Order.taken_remaining]; omega) distinct
          (fun a member => crowded a (List.mem_cons_of_mem b member))
        simp only [Order.taken_remaining, Order.taken_userId] at later
        rw [takings_open ps own (stocked b) enough, if_pos clear, all, clear, List.map_append,
          List.sum_append, List.map_map, ← later]
        change ((levelTakings o (Q b)).map Prod.snd).sum + _ < _ ∧ _ ↔ _
        rw [given, min_eq_right enough]
        refine and_congr (by omega) (or_iff_right (fun none => none rfl))
      · -- nothing is wanted any more
        have level : ((takings o Q (b :: ps)).map Prod.snd).sum = o.remainingQuantity := by
          rw [takings_stop (stocked b) wanted (Or.inr (by omega)), List.map_map]
          exact given.trans (min_eq_left (by omega))
        rw [level]
        refine iff_of_false (fun left => lt_irrefl _ left.1) (fun later => ?_)
        have more := (later.wants stocked).1
        omega

end Leftover

theorem shields_iff {ob : OrderBook} {o : Order} : ob.Shields o ↔
    Blocked o.userId (ob.queue o.bookDirection.opposite) o.remainingQuantity
      (ob.live o.bookDirection.opposite o.bookPrice) := by
  constructor
  · rintro ⟨p, listed, own, short, q, worse, better, left⟩
    obtain ⟨before, after, levels⟩ := List.append_of_mem listed
    rw [OrderBook.ahead, live_better levels] at short
    refine ⟨before, p, after, levels, own, short, q, ?_, left⟩
    have same : q ∉ before := by
      intro early
      rw [← live_better levels, List.mem_filter] at early
      exact OrderDirection.better_asymm better (of_decide_eq_true early.2)
    rw [levels, List.mem_append, List.mem_cons] at worse
    obtain early | rfl | late := worse
    · exact absurd early same
    · exact absurd better (OrderDirection.better_irrefl _ _)
    · exact late
  · rintro ⟨before, p, after, levels, own, short, q, late, left⟩
    have listed : ∀ a ∈ p :: after, a ∈ ob.live o.bookDirection.opposite o.bookPrice := by
      intro a member
      rw [levels]
      exact List.mem_append_right before member
    refine ⟨p, listed p List.mem_cons_self, own, ?_, q, listed q (List.mem_cons_of_mem p late), ?_,
      left⟩
    · rw [OrderBook.ahead, live_better levels]
      exact short
    · have sorted : (before ++ p :: after).Pairwise o.bookDirection.opposite.Better :=
        levels ▸ live_sorted
      exact (List.pairwise_cons.mp (List.pairwise_append.mp sorted).2.1).1 q late

/-- Matching goes on past own orders, except those that end its walk too early. -/
theorem matchOrder_exhausted_iff {ob : OrderBook} (wf : ob.WellFormed) (o : Order)
    (wanted : 0 ≤ o.remainingQuantity) :
    Exhausted o (matchOrder o ob) ↔ ¬ ob.Shields o := by
  obtain ⟨incoming, _, near, _, _⟩ := matchOrder_sweeps wf o
  have distinct : (ob.live o.bookDirection.opposite o.bookPrice).Nodup := live_nodup
  have leftover := leftover_iff o wanted distinct (wf.stocked o.bookDirection.opposite)
    (fun a member => (mem_live.mp member).2.2)
  rw [shields_iff, ← leftover, Exhausted, incoming, near, Order.taken_remaining]
  have most := sum_takings (ob.live o.bookDirection.opposite o.bookPrice)
    (wf.stocked o.bookDirection.opposite) wanted
  constructor
  · rintro (filled | only) ⟨short, q, listed, left⟩
    · omega
    · exact left (foreignTo_eq_nil.mpr (only q (mem_live.mp listed).2.1))
  · intro none
    obtain short | filled := lt_or_eq_of_le most
    · right
      intro p crosses bo queued
      by_cases listed : p ∈ ob.live o.bookDirection.opposite o.bookPrice
      · have clear : foreignTo o.userId (sweepLevels o.userId o.remainingQuantity
            (ob.live o.bookDirection.opposite o.bookPrice) (ob.queue o.bookDirection.opposite) p) =
              [] := by
          by_contra left
          exact none ⟨short, p, listed, left⟩
        exact foreignTo_eq_nil.mp clear bo queued
      · rw [sweepLevels_of_not_mem listed] at queued
        have crowded := List.ne_nil_of_mem queued
        exact absurd (mem_live.mpr ⟨wf.levels _ p crowded, crosses, crowded⟩) listed
    · left
      omega

section Example

private def splitAsks : OrderBook :=
  ((OrderBook.empty.addOrder ⟨1, "alice", .nativeSell, 10, 0⟩ 60 .sell).addOrder
    ⟨2, "bob", .nativeSell, 10, 0⟩ 62 .sell).addOrder ⟨3, "alice", .nativeSell, 10, 0⟩ 65 .sell

private def sharedAsks : OrderBook :=
  ((OrderBook.empty.addOrder ⟨1, "alice", .nativeSell, 10, 0⟩ 60 .sell).addOrder
    ⟨2, "bob", .nativeSell, 10, 0⟩ 60 .sell).addOrder ⟨3, "alice", .nativeSell, 10, 0⟩ 65 .sell

private def bidAbove : Order :=
  ⟨4, "c4", "m", "alice", .yes, .buy, 63, .nativeBuy, .buy, 63, 10, 640, .funds, .gtc, .open,
    none, 0, 10, 0⟩

private theorem asks_wellFormed (p : Int) (range : 1 ≤ p ∧ p ≤ 99) :
    (((OrderBook.empty.addOrder ⟨1, "alice", .nativeSell, 10, 0⟩ 60 .sell).addOrder
      ⟨2, "bob", .nativeSell, 10, 0⟩ p .sell).addOrder
        ⟨3, "alice", .nativeSell, 10, 0⟩ 65 .sell).WellFormed := by
  have first := OrderBook.consistent_empty.addOrder ⟨1, "alice", .nativeSell, 10, 0⟩ 60 .sell
    (OrderBook.fresh_empty 1) (by decide) (by decide)
  have second := first.addOrder ⟨2, "bob", .nativeSell, 10, 0⟩ p .sell
    ((OrderBook.fresh_empty 2).addOrder (by decide) 60 .sell) range (by decide)
  exact (second.addOrder ⟨3, "alice", .nativeSell, 10, 0⟩ 65 .sell
    (((OrderBook.fresh_empty 3).addOrder (by decide) 60 .sell).addOrder (by simp) p .sell)
    (by decide) (by decide)).wellFormed

end Example

theorem own_order_at_level_passed : Exhausted bidAbove (matchOrder bidAbove sharedAsks) :=
  (matchOrder_exhausted_iff (asks_wellFormed 60 (by decide)) bidAbove (by decide)).mpr
    (by decide +kernel)

/-- The documented example: bob's ask at 62 is not reached. -/
theorem own_order_shields_next_level : splitAsks.WellFormed ∧ 0 ≤ bidAbove.remainingQuantity ∧
    (matchOrder bidAbove splitAsks).trades = [] ∧
      ¬ Exhausted bidAbove (matchOrder bidAbove splitAsks) := by
  refine ⟨asks_wellFormed 62 (by decide), by decide, by decide +kernel, ?_⟩
  rintro (filled | only)
  · exact absurd filled (by decide +kernel)
  · exact absurd (only 62 (by decide +kernel) ⟨2, "bob", .nativeSell, 10, 0⟩ (by decide +kernel))
      (by decide +kernel)

end PredictionMarket
