/- PredictionMarket/Matching/PriceLevels
   digest: Matching on a well-formed book: what each level gets of an order, and keeps. -/

import PredictionMarket.Matching.BookCalls
import PredictionMarket.Matching.Sweep

set_option autoImplicit false
set_option relaxedAutoImplicit false

namespace PredictionMarket

open Library

namespace OrderBook

def lookup (ob : OrderBook) (id : OrderId) : Option Resting :=
  (ob.orderIndex id).bind (fun level =>
    ((ob.queue level.1 level.2).find? (fun bo => bo.orderId = id)).map
      (fun bo => bo.resting level.1 level.2))

namespace WellFormed

variable {ob : OrderBook} {d : OrderDirection}

theorem bestExact (wf : ob.WellFormed) (d : OrderDirection) : ob.BestExact d := by
  cases d with
  | buy =>
    constructor
    · intro p _ _ better
      by_contra crowded
      have below := wf.highestBid p crowded
      simp only [OrderDirection.Better, OrderBook.best] at better
      omega
    · obtain held | none := wf.bestBid
      · have range := wf.levels .buy ob.bestBid held
        exact Or.inr ⟨range.1, range.2, held⟩
      · exact Or.inl none.1
  | sell =>
    constructor
    · intro p _ _ better
      by_contra crowded
      have above := wf.lowestAsk p crowded
      simp only [OrderDirection.Better, OrderBook.best] at better
      omega
    · obtain held | none := wf.bestAsk
      · have range := wf.levels .sell ob.bestAsk held
        exact Or.inr ⟨range.1, range.2, held⟩
      · exact Or.inl none.1

theorem lookup_queued (wf : ob.WellFormed) {p : Int} {bo : BookOrder}
    (queued : bo ∈ ob.queue d p) : ob.lookup bo.orderId = some (bo.resting d p) := by
  have indexed := (wf.index bo.orderId d p).mpr ⟨bo, queued, rfl⟩
  rw [lookup, indexed, Option.bind_some]
  cases found : (ob.queue d p).find? (fun a => a.orderId = bo.orderId) with
  | none =>
    have missed := List.find?_eq_none.mp found bo queued
    simp at missed
  | some a =>
    have same : a.orderId = bo.orderId := by simpa using List.find?_some found
    have inside := List.mem_of_find?_eq_some found
    rw [List.inj_on_of_nodup_map (wf.once d p) inside queued same]
    rfl

theorem represents (wf : ob.WellFormed) : ob.Represents ob.lookup where
  queued := wf.lookup_queued
  present {id r} got := by
    obtain ⟨level, indexed, found⟩ := Option.bind_eq_some_iff.mp got
    obtain ⟨bo, queued, rfl⟩ := (wf.index id level.1 level.2).mp indexed
    have here := wf.lookup_queued queued
    rw [got] at here
    obtain rfl := Option.some.inj here
    exact ⟨bo, queued, rfl, rfl⟩
  once := wf.once
  index id := by
    cases got : ob.orderIndex id with
    | none => simp [lookup, got]
    | some level =>
      obtain ⟨bo, queued, rfl⟩ := (wf.index id level.1 level.2).mp got
      rw [wf.lookup_queued queued]
      rfl

private theorem consistent (wf : ob.WellFormed) : ob.Consistent := by
  refine ⟨ob.lookup, wf.represents, ?_, wf.bestExact⟩
  intro id r got
  obtain ⟨bo, queued, _, row⟩ := wf.represents.present got
  have range := wf.levels _ _ (List.ne_nil_of_mem queued)
  have quantity : bo.quantity = r.quantity := congrArg Resting.quantity row
  exact ⟨range.1, range.2, quantity ▸ wf.positive _ _ bo queued⟩

theorem stocked (wf : ob.WellFormed) (d : OrderDirection) (p : Int) : Stocked (ob.queue d p) :=
  wf.positive d p

end WellFormed

theorem not_mem_empty {d : OrderDirection} {p : Int} {bo : BookOrder} :
    bo ∉ OrderBook.empty.queue d p := by
  cases d <;> simp [OrderBook.empty, OrderBook.queue]

theorem mem_addOrder {ob : OrderBook} {bo a : BookOrder} {p r : Int} {d e : OrderDirection}
    (queued : a ∈ (ob.addOrder bo p d).queue e r) : a = bo ∨ a ∈ ob.queue e r := by
  rw [queue_addOrder] at queued
  split at queued
  · next level =>
    obtain ⟨rfl, rfl⟩ := level
    obtain old | last := List.mem_append.mp queued
    · exact Or.inr old
    · exact Or.inl (List.mem_singleton.mp last)
  · exact Or.inr queued

theorem fresh_empty (id : OrderId) : OrderBook.empty.Fresh id :=
  fun _ _ _ queued => absurd queued not_mem_empty

theorem Fresh.addOrder {ob : OrderBook} {id : OrderId} (fresh : ob.Fresh id) {bo : BookOrder}
    (other : bo.orderId ≠ id) (p : Int) (d : OrderDirection) : (ob.addOrder bo p d).Fresh id := by
  intro e r a queued
  obtain rfl | old := mem_addOrder queued
  · exact other
  · exact fresh e r a old

theorem Consistent.addOrder {ob : OrderBook} (consistent : ob.Consistent) (bo : BookOrder) (p : Int)
    (d : OrderDirection) (fresh : ob.Fresh bo.orderId) (range : 1 ≤ p ∧ p ≤ 99)
    (positive : 0 < bo.quantity) : (ob.addOrder bo p d).Consistent :=
  have step : bookCall ob (.addOrder bo p d) (ob.addOrder bo p d) :=
    ⟨fresh, range, positive, rfl⟩
  consistent.step step

end OrderBook

theorem matchOrder_sweeps {ob : OrderBook} (wf : ob.WellFormed) (o : Order) :
    Sweeps o.bookDirection.opposite o ob (ob.live o.bookDirection.opposite o.bookPrice)
      (matchOrder o ob) := by
  have few : ∀ d : OrderDirection, (ob.live d o.bookPrice).length < matchPasses := by
    intro d
    have levels : d.levels.length = 99 := by cases d <;> rfl
    have le := List.length_filter_le
      (fun p => decide (d.Crosses p o.bookPrice ∧ ob.queue d p ≠ [])) d.levels
    rw [OrderBook.live, matchPasses]
    omega
  unfold matchOrder
  cases o.bookDirection with
  | buy =>
    exact matchLoop_sweeps matchPasses _ o ob rfl (few .sell) (wf.bestExact .sell)
      (wf.levels .sell) (wf.stocked .sell)
  | sell =>
    exact matchLoop_sweeps matchPasses _ o ob rfl (few .buy) (wf.bestExact .buy)
      (wf.levels .buy) (wf.stocked .buy)

theorem matchOrder_wellFormed {ob : OrderBook} (wf : ob.WellFormed) (o : Order) :
    (matchOrder o ob).book.WellFormed := by
  obtain ⟨v, rep, sound, exact⟩ := wf.consistent
  obtain ⟨v', fills, rep', exact'⟩ := matchOrder_spec o ob v rep exact
  exact OrderBook.Consistent.wellFormed ⟨v', rep', fills.sound sound, exact'⟩

section Passes

variable {userId : UserId} {r : Int} {Q : Int → List BookOrder} {p : Int} {ps : List Int}

private theorem sweepLevels_update (absent : p ∉ ps) (q : List BookOrder) :
    sweepLevels userId r ps (Function.update Q p q) =
      Function.update (sweepLevels userId r ps Q) p q := by
  induction ps generalizing r Q with
  | nil => rfl
  | cons a ps ih =>
    obtain ⟨other, later⟩ := not_or.mp (mt List.mem_cons.mpr absent)
    rw [sweepLevels, sweepLevels, Function.update_of_ne (Ne.symm other)]
    split
    · rw [Function.update_comm other, ih later]
    · rw [Function.update_comm other]

theorem sweepLevels_cons (absent : p ∉ ps) :
    sweepLevels userId r (p :: ps) Q = Function.update
      (if swept userId r (Q p) = [] then
        sweepLevels userId (r - total BookOrder.quantity (Q p)) ps Q
      else Q) p (swept userId r (Q p)) := by
  rw [sweepLevels]
  split
  · next clear => rw [sweepLevels_update absent, clear]
  · rfl

theorem sweepLevels_of_not_mem (absent : p ∉ ps) : sweepLevels userId r ps Q p = Q p := by
  have same : sweepLevels userId r ps (Function.update Q p (Q p)) p = Q p := by
    rw [sweepLevels_update absent, Function.update_self]
  rwa [Function.update_eq_self] at same

/-- The quantity that gets to a level is what the better ones leave; it gets there unless
one of them holds an own order. -/
private theorem sweepLevels_at {before after : List Int} (distinct : (before ++ p :: after).Nodup)
    (stocked : ∀ a, Stocked (Q a)) (crowded : ∀ a ∈ before, Q a ≠ []) :
    sweepLevels userId r (before ++ p :: after) Q p =
      if ∀ a ∈ before, ownAt userId (Q a) = false then
        swept userId (r - (before.map (fun a => total BookOrder.quantity (Q a))).sum) (Q p)
      else Q p := by
  induction before generalizing r with
  | nil => simp [sweepLevels_cons (List.nodup_cons.mp distinct).1]
  | cons b before ih =>
    rw [List.cons_append] at distinct
    obtain ⟨absent, distinct⟩ := List.nodup_cons.mp distinct
    have other : p ≠ b := by
      rintro rfl
      exact absent (by simp)
    have held := crowded b List.mem_cons_self
    have later := ih (r := r - total BookOrder.quantity (Q b)) distinct
      (fun a member => crowded a (List.mem_cons_of_mem b member))
    rw [List.cons_append, sweepLevels_cons absent, Function.update_of_ne other, List.map_cons,
      List.sum_cons, ← sub_sub]
    simp only [List.forall_mem_cons]
    split
    · next clear =>
      have open_ := ((swept_eq_nil (stocked b) (Or.inr held)).mp clear).1
      simp only [ownAt_eq_false.mpr open_, true_and]
      exact later
    · next stops =>
      split
      · next open_ =>
        -- the order is used up before it gets to the level
        have short : ¬ total BookOrder.quantity (Q b) ≤ r := by
          intro enough
          exact stops ((swept_eq_nil (stocked b) (Or.inr held)).mpr
            ⟨ownAt_eq_false.mp open_.1, enough⟩)
        have others : 0 ≤ (before.map (fun a => total BookOrder.quantity (Q a))).sum := by
          apply List.sum_nonneg
          intro x listed
          obtain ⟨a, _, rfl⟩ := List.mem_map.mp listed
          exact total_nonneg (stocked a)
        rw [swept_of_nonpos (by omega)]
      · rfl

end Passes

section Given

variable {userId : UserId} {Q : Int → List BookOrder} {ps : List Int}

theorem mem_entries {e : Int × BookOrder} :
    e ∈ entries userId Q ps ↔
      e.1 ∈ ps ∧ e.2 ∈ Q e.1 ∧ isSelfTrade userId e.2.userId = false := by
  obtain ⟨p, bo⟩ := e
  simp [entries, foreignTo]

theorem reach_sublist (own : Int → Bool) (ps : List Int) : (reach own ps).Sublist ps := by
  induction ps with
  | nil => exact .slnil
  | cons p ps ih =>
    rw [reach]
    split
    · exact (List.nil_sublist ps).cons_cons p
    · exact ih.cons_cons p

theorem entries_nodup (distinct : ps.Nodup) (once : ∀ p, (Q p).Nodup) :
    (entries userId Q ps).Nodup := by
  refine List.nodup_flatMap.mpr ⟨?_, ?_⟩
  · intro p _
    exact ((once p).filter _).map (Prod.mk_right_injective p)
  · refine distinct.imp ?_
    intro p q other e first second
    obtain ⟨_, _, rfl⟩ := List.mem_map.mp first
    obtain ⟨_, _, same⟩ := List.mem_map.mp second
    exact other (congrArg Prod.fst same).symm

theorem entries_positive (stocked : ∀ a, Stocked (Q a)) :
    ∀ e ∈ entries userId Q ps, 0 < e.2.quantity :=
  fun e member => stocked e.1 e.2 (mem_entries.mp member).2.1

theorem sum_takings {o : Order} (ps : List Int) (stocked : ∀ a, Stocked (Q a))
    (wanted : 0 ≤ o.remainingQuantity) :
    ((takings o Q ps).map Prod.snd).sum ≤ o.remainingQuantity := by
  rw [takings, sum_allot (entries_positive stocked) wanted]
  exact min_le_left _ _

end Given

section Reached

variable {ob : OrderBook} {d : OrderDirection} {limit p : Int} {userId : UserId}

instance (d : OrderDirection) (p q : Int) : Decidable (d.Better p q) :=
  match d with
  | .buy => inferInstanceAs (Decidable (q < p))
  | .sell => inferInstanceAs (Decidable (p < q))

/-- What others offer at crossing prices better than `p`. -/
def OrderBook.ahead (ob : OrderBook) (d : OrderDirection) (limit : Int) (userId : UserId)
    (p : Int) : Int :=
  (((ob.live d limit).filter (fun a => d.Better a p)).map
    (fun a => total BookOrder.quantity (foreignTo userId (ob.queue d a)))).sum

theorem live_better {before after : List Int} (levels : ob.live d limit = before ++ p :: after) :
    (ob.live d limit).filter (fun a => d.Better a p) = before := by
  have sorted : (before ++ p :: after).Pairwise d.Better := levels ▸ live_sorted
  obtain ⟨_, rest, between⟩ := List.pairwise_append.mp sorted
  rw [levels, List.filter_append, List.filter_cons_of_neg (by simp [d.better_irrefl])]
  have first : before.filter (fun a => d.Better a p) = before := by
    apply List.filter_eq_self.mpr
    intro a member
    simpa using between a member p List.mem_cons_self
  have last : after.filter (fun a => d.Better a p) = [] := by
    apply List.filter_eq_nil_iff.mpr
    intro a member first
    exact OrderDirection.better_asymm (of_decide_eq_true first)
      ((List.pairwise_cons.mp rest).1 a member)
  rw [first, last, List.append_nil]

theorem queue_matchOrder {o : Order} (wf : ob.WellFormed)
    (facing : d = o.bookDirection.opposite)
    (listed : p ∈ ob.live d o.bookPrice) :
    (matchOrder o ob).book.queue d p =
      if ∀ a ∈ ob.live d o.bookPrice, d.Better a p → ownAt o.userId (ob.queue d a) = false then
        swept o.userId (o.remainingQuantity - ob.ahead d o.bookPrice o.userId p) (ob.queue d p)
      else ob.queue d p := by
  subst facing
  obtain ⟨before, after, levels⟩ := List.append_of_mem listed
  have better := live_better levels
  have open_ : (∀ a ∈ ob.live o.bookDirection.opposite o.bookPrice,
      o.bookDirection.opposite.Better a p →
        ownAt o.userId (ob.queue o.bookDirection.opposite a) = false) ↔
      ∀ a ∈ before, ownAt o.userId (ob.queue o.bookDirection.opposite a) = false := by
    rw [← better]
    simp only [List.mem_filter, decide_eq_true_eq, and_imp]
  have distinct : (before ++ p :: after).Nodup := levels ▸ live_nodup
  have crowded : ∀ a ∈ before, ob.queue o.bookDirection.opposite a ≠ [] := by
    intro a member
    have live : a ∈ ob.live o.bookDirection.opposite o.bookPrice := by
      rw [levels]
      exact List.mem_append_left _ member
    exact (mem_live.mp live).2.2
  rw [(matchOrder_sweeps wf o).near, levels,
    sweepLevels_at distinct (wf.stocked o.bookDirection.opposite) crowded, ← levels]
  simp only [open_]
  split
  · next clear =>
    rw [OrderBook.ahead, better]
    congr 3
    apply List.map_congr_left
    intro a member
    rw [ownAt_eq_false.mp (clear a member)]
  · rfl

theorem queue_matchOrder_cases (wf : ob.WellFormed) (o : Order) (d : OrderDirection) (p : Int) :
    (matchOrder o ob).book.queue d p = ob.queue d p ∨
      ∃ r, (matchOrder o ob).book.queue d p = swept o.userId r (ob.queue d p) := by
  by_cases facing : d = o.bookDirection.opposite
  · by_cases listed : p ∈ ob.live d o.bookPrice
    · rw [queue_matchOrder wf facing listed]
      split
      · exact Or.inr ⟨_, rfl⟩
      · exact Or.inl rfl
    · have near := (matchOrder_sweeps wf o).near
      rw [← facing] at near
      rw [near, sweepLevels_of_not_mem listed]
      exact Or.inl rfl
  · rw [((matchOrder_sweeps wf o).far d facing).1]
    exact Or.inl rfl

end Reached

end PredictionMarket
