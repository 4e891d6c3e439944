/- PredictionMarket/Matching/Sweep
   digest: What matching trades and what it leaves, level by level and in closed form. -/

import PredictionMarket.Library.Allotment
import PredictionMarket.Matching.MatchOrder

set_option autoImplicit false
set_option relaxedAutoImplicit false

namespace PredictionMarket

open Library

def foreignTo (userId : UserId) (q : List BookOrder) : List BookOrder :=
  q.filter (fun bo => !isSelfTrade userId bo.userId)

/-- What a pass over a level leaves of it: what is still ahead, and the own orders that
were passed. -/
def sweep (userId : UserId) : Int → List BookOrder → List BookOrder × List BookOrder
  | _, [] => ([], [])
  | r, bo :: q =>
    if 0 < r then
      if isSelfTrade userId bo.userId then ((sweep userId r q).1, bo :: (sweep userId r q).2)
      else if bo.quantity ≤ r then sweep userId (r - bo.quantity) q
      else ({ bo with quantity := bo.quantity - r } :: q, [])
    else (bo :: q, [])

/-- A level after a pass; own orders that were passed stand at the back. -/
def swept (userId : UserId) (r : Int) (q : List BookOrder) : List BookOrder :=
  (sweep userId r q).1 ++ (sweep userId r q).2

/-- An order after fills that add up to `qty`. -/
def Order.taken (o : Order) (qty : Int) : Order := if qty = 0 then o else applyFill o qty

def Stocked (q : List BookOrder) : Prop := ∀ bo ∈ q, 0 < bo.quantity

def levelTakings (o : Order) (q : List BookOrder) : List (BookOrder × Int) :=
  allot BookOrder.quantity o.remainingQuantity (foreignTo o.userId q)

def usedUp (l : List (BookOrder × Int)) : List OrderId :=
  (l.filter (fun x => x.2 = x.1.quantity)).map (fun x => x.1.orderId)

/-- A level replaced, and the orders under `ids` taken off the index. -/
def OrderBook.settle (ob : OrderBook) (d : OrderDirection) (p : Int) (q : List BookOrder)
    (ids : List OrderId) : OrderBook :=
  { ob.setQueue d p q with
    orderIndex := fun id => if id ∈ ids then none else ob.orderIndex id }

section Orders

variable (o : Order)

@[simp] theorem Order.taken_zero : o.taken 0 = o := if_pos rfl

@[simp] theorem Order.taken_remaining (qty : Int) :
    (o.taken qty).remainingQuantity = o.remainingQuantity - qty := by
  unfold taken
  split
  · next none => omega
  · rfl

@[simp] theorem Order.taken_userId (qty : Int) : (o.taken qty).userId = o.userId := by
  unfold taken
  split <;> rfl

@[simp] theorem Order.taken_bookPrice (qty : Int) : (o.taken qty).bookPrice = o.bookPrice := by
  unfold taken
  split <;> rfl

theorem Order.taken_taken {a b : Int} (first : 0 < a) (second : 0 ≤ b) :
    (o.taken a).taken b = o.taken (a + b) := by
  have some_ : o.taken a = applyFill o a := if_neg (by omega)
  rw [some_]
  by_cases none : b = 0
  · subst none
    rw [taken_zero, add_zero, some_]
  · rw [taken, taken, if_neg none, if_neg (by omega)]
    simp only [applyFill, Order.mk.injEq, true_and, and_true]
    refine ⟨?_, by omega, by omega⟩
    simp only [show o.remainingQuantity - a - b = o.remainingQuantity - (a + b) by omega]

theorem makeTrade_taken (d : OrderDirection) (qty : Int) (bo : BookOrder) (p x : Int) :
    makeTrade d (o.taken qty) bo p x = makeTrade d o bo p x := by
  unfold Order.taken
  split
  · rfl
  · cases d <;> rfl

@[simp] theorem makeTrade_makerOrderId (d : OrderDirection) (bo : BookOrder) (p x : Int) :
    (makeTrade d o bo p x).makerOrderId = bo.orderId := by
  cases d <;> rfl

@[simp] theorem makeTrade_price (d : OrderDirection) (bo : BookOrder) (p x : Int) :
    (makeTrade d o bo p x).price = p := by
  cases d <;> rfl

@[simp] theorem makeTrade_quantity (d : OrderDirection) (bo : BookOrder) (p x : Int) :
    (makeTrade d o bo p x).quantity = x := by
  cases d <;> rfl

end Orders

section Queues

variable {userId : UserId} {q : List BookOrder} {r : Int}

theorem Stocked.tail {bo : BookOrder} (stocked : Stocked (bo :: q)) : Stocked q :=
  fun a member => stocked a (List.mem_cons_of_mem bo member)

theorem Stocked.foreign (stocked : Stocked q) : Stocked (foreignTo userId q) :=
  fun a member => stocked a (List.mem_of_mem_filter member)

theorem foreignTo_own {bo : BookOrder} (own : isSelfTrade userId bo.userId = true) :
    foreignTo userId (bo :: q) = foreignTo userId q := by
  simp [foreignTo, own]

theorem foreignTo_stranger {bo : BookOrder} (stranger : isSelfTrade userId bo.userId = false) :
    foreignTo userId (bo :: q) = bo :: foreignTo userId q := by
  simp [foreignTo, stranger]

private theorem sweep_of_nonpos (done : r ≤ 0) : sweep userId r q = (q, []) := by
  cases q with
  | nil => rfl
  | cons bo q => rw [sweep, if_neg (by omega)]

@[simp] theorem usedUp_nil : usedUp [] = [] := rfl

private theorem usedUp_append (l m : List (BookOrder × Int)) :
    usedUp (l ++ m) = usedUp l ++ usedUp m := by
  simp [usedUp]

theorem swept_of_nonpos (done : r ≤ 0) : swept userId r q = q := by
  rw [swept, sweep_of_nonpos done, List.append_nil]

theorem swept_eq_nil (stocked : Stocked q) (wanted : 0 < r ∨ q ≠ []) :
    swept userId r q = [] ↔ foreignTo userId q = q ∧ total BookOrder.quantity q ≤ r := by
  induction q generalizing r with
  | nil => simpa [swept, sweep, foreignTo] using (le_of_lt (wanted.resolve_right (by simp)))
  | cons bo q ih =>
    have here := stocked bo List.mem_cons_self
    have others : 0 ≤ total BookOrder.quantity q := total_nonneg stocked.tail
    rw [swept, sweep]
    split
    · next some_ =>
      cases own : isSelfTrade userId bo.userId with
      | true =>
        simp only [if_true, List.append_eq_nil_iff, reduceCtorEq, and_false, false_iff, not_and]
        intro same
        have kept : bo ∈ foreignTo userId (bo :: q) := by rw [same]; exact List.mem_cons_self
        simp [foreignTo, own] at kept
      | false =>
        simp only [Bool.false_eq_true, if_false, foreignTo_stranger own, List.cons.injEq, true_and,
          total_cons]
        split
        · next enough =>
          by_cases last : q = []
          · subst last
            simpa [sweep, foreignTo] using enough
          · rw [← swept, ih stocked.tail (Or.inr last)]
            constructor
            · rintro ⟨same, le⟩
              exact ⟨same, by omega⟩
            · rintro ⟨same, le⟩
              exact ⟨same, by omega⟩
        · next short =>
          simp only [List.cons_append, reduceCtorEq, false_iff, not_and]
          intro _
          omega
    · next none =>
      simp only [List.append_nil, reduceCtorEq, false_iff, not_and, total_cons]
      intro _
      omega

end Queues

namespace OrderBook

variable {ob : OrderBook} {d : OrderDirection} {p : Int}

theorem ext_queue {a b : OrderBook} (queue : a.queue = b.queue) (best : a.best = b.best)
    (index : a.orderIndex = b.orderIndex) : a = b := by
  have bids := congrFun queue .buy
  have asks := congrFun queue .sell
  have bid := congrFun best .buy
  have ask := congrFun best .sell
  cases a
  cases b
  simp only [OrderBook.queue, OrderBook.best] at bids asks bid ask index
  subst bids asks bid ask index
  rfl

private theorem settle_self : ob.settle d p (ob.queue d p) [] = ob := by
  cases d <;> simp [settle, setQueue, OrderBook.queue]

private theorem queue_settle (q : List BookOrder) (ids : List OrderId) :
    (ob.settle d p q ids).queue d = Function.update (ob.queue d) p q := by
  cases d <;> rfl

private theorem queue_settle_ne {e : OrderDirection} (other : e ≠ d) {q : List BookOrder}
    {ids : List OrderId} : (ob.settle d p q ids).queue e = ob.queue e := by
  cases d <;> cases e <;> first | rfl | exact absurd rfl other

private theorem best_settle (e : OrderDirection) {q : List BookOrder} {ids : List OrderId} :
    (ob.settle d p q ids).best e = ob.best e := by
  cases d <;> cases e <;> rfl

private theorem settle_setQueue (q q' : List BookOrder) (ids : List OrderId) :
    (ob.setQueue d p q).settle d p q' ids = ob.settle d p q' ids := by
  cases d <;> simp [settle, setQueue]

private theorem settle_dropIndex (q q' : List BookOrder) (id : OrderId) (ids : List OrderId) :
    ((ob.setQueue d p q).dropIndex id).settle d p q' ids = ob.settle d p q' (id :: ids) := by
  have index : (fun j => if j ∈ ids then none else Function.update ob.orderIndex id none j) =
      fun j => if j ∈ id :: ids then none else ob.orderIndex j := by
    funext j
    by_cases same : j = id <;> by_cases listed : j ∈ ids <;> simp [same, listed]
  cases d <;> simp only [settle, setQueue, dropIndex, Function.update_idem, index]

end OrderBook

/-- The inner loop takes what the orders of others give, in queue order. -/
private theorem matchLevel_eq (d : OrderDirection) (p : Int) (q k : List BookOrder) (o : Order)
    (ob : OrderBook) (level : ob.queue d p = q ++ k) (stocked : Stocked q) :
    matchLevel d p q.length o ob =
      ⟨o.taken ((levelTakings o q).map Prod.snd).sum,
        (levelTakings o q).map (fun x => makeTrade d o x.1 p x.2),
        ob.settle d p ((sweep o.userId o.remainingQuantity q).1 ++ k ++
          (sweep o.userId o.remainingQuantity q).2) (usedUp (levelTakings o q))⟩ := by
  induction q generalizing k o ob with
  | nil =>
    rw [List.nil_append] at level
    simp only [List.length_nil, matchLevel, levelTakings, foreignTo, List.filter_nil, allot_nil,
      List.map_nil, List.sum_nil, Order.taken_zero, sweep, List.nil_append, List.append_nil,
      usedUp_nil]
    rw [← level, OrderBook.settle_self]
  | cons bo q ih =>
    have here := stocked bo List.mem_cons_self
    have head : ob.queue d p = bo :: (q ++ k) := level
    simp only [List.length_cons, matchLevel, head]
    by_cases wants : 0 < o.remainingQuantity
    · rw [if_pos wants]
      cases own : isSelfTrade o.userId bo.userId with
      | true =>
        -- an own order goes behind what was passed before
        have rotated : (ob.setQueue d p (q ++ k ++ [bo])).queue d p = q ++ (k ++ [bo]) := by
          rw [OrderBook.queue_setQueue_self, List.append_assoc]
        rw [if_pos rfl, ih (k ++ [bo]) o _ rotated stocked.tail, OrderBook.settle_setQueue]
        simp only [levelTakings, foreignTo_own own, sweep, own, if_pos wants, if_true,
          List.append_assoc, List.singleton_append]
      | false =>
        rw [if_neg (by simp)]
        have takes : levelTakings o (bo :: q) =
            (bo, min o.remainingQuantity bo.quantity) ::
              levelTakings (applyFill o (min o.remainingQuantity bo.quantity)) q := by
          rw [levelTakings, foreignTo_stranger own, allot, if_pos wants]
          rfl
        by_cases emptied : bo.quantity ≤ o.remainingQuantity
        · have all : min o.remainingQuantity bo.quantity = bo.quantity := min_eq_right emptied
          rw [all] at takes
          have filled : applyFill o bo.quantity = o.taken bo.quantity := (if_neg (by omega)).symm
          have dropped : ((ob.setQueue d p (q ++ k)).dropIndex bo.orderId).queue d p = q ++ k := by
            simp
          rw [filled] at takes
          simp only [all, sub_self, if_true, filled]
          rw [ih k (o.taken bo.quantity) _ dropped stocked.tail, OrderBook.settle_dropIndex, takes]
          have rest : 0 ≤ ((levelTakings (o.taken bo.quantity) q).map Prod.snd).sum :=
            sum_allot_nonneg stocked.tail.foreign
          simp only [List.map_cons, List.sum_cons, makeTrade_taken, Order.taken_userId,
            Order.taken_remaining, sweep, own, if_pos wants, if_pos emptied, usedUp,
            List.filter_cons, decide_true, if_true, Order.taken_taken o here rest,
            Bool.false_eq_true, if_false]
        · have part : min o.remainingQuantity bo.quantity = o.remainingQuantity :=
            min_eq_left (by omega)
          have nothing : levelTakings (applyFill o o.remainingQuantity) q = [] := by
            apply allot_of_nonpos
            simp [applyFill]
          rw [part, nothing] at takes
          have left : ¬ bo.quantity - o.remainingQuantity = 0 := by omega
          have some_ : ¬ o.remainingQuantity = bo.quantity := by omega
          have partly : applyFill o o.remainingQuantity = o.taken o.remainingQuantity :=
            (if_neg (by omega)).symm
          simp only [part, if_neg left, takes, partly, List.map_cons, List.map_nil, List.sum_cons,
            List.sum_nil, add_zero, sweep, own, if_pos wants, if_neg emptied, usedUp,
            List.filter_cons, some_, decide_false, List.filter_nil, Bool.false_eq_true, if_false,
            List.cons_append, List.append_nil]
          congr 1
          cases d <;> simp [OrderBook.settle, OrderBook.setQueue]
    · rw [if_neg wants]
      have nothing : levelTakings o (bo :: q) = [] := allot_of_nonpos _ (by omega) _
      rw [nothing, sweep, if_neg wants]
      simp only [List.map_nil, List.sum_nil, Order.taken_zero, List.append_nil, usedUp_nil,
        List.cons_append]
      rw [← head, OrderBook.settle_self]

def OrderDirection.levels : OrderDirection → List Int
  | .buy => OrderBook.bidLevels
  | .sell => OrderBook.askLevels

theorem OrderDirection.mem_levels {d : OrderDirection} {p : Int} :
    p ∈ d.levels ↔ 1 ≤ p ∧ p ≤ 99 := by
  cases d with
  | buy => exact OrderBook.mem_bidLevels
  | sell => exact OrderBook.mem_askLevels

theorem OrderDirection.levels_sorted (d : OrderDirection) : d.levels.Pairwise d.Better := by
  cases d with
  | buy => exact (by decide : OrderBook.bidLevels.Pairwise (fun p q => q < p))
  | sell => exact (by decide : OrderBook.askLevels.Pairwise (fun p q => p < q))

theorem OrderDirection.ne_opposite (d : OrderDirection) : d ≠ d.opposite := by
  cases d <;> decide

theorem OrderDirection.better_irrefl (d : OrderDirection) (p : Int) : ¬ d.Better p p := by
  cases d <;> exact lt_irrefl p

theorem OrderDirection.better_asymm {d : OrderDirection} {p q : Int} (better : d.Better p q) :
    ¬ d.Better q p := by
  cases d <;> simp only [Better] at better ⊢ <;> omega

theorem OrderDirection.Crosses.of_not_better {d : OrderDirection} {p q limit : Int}
    (crosses : d.Crosses q limit) (good : ¬ d.Better q p) : d.Crosses p limit := by
  cases d <;> simp only [Crosses, Better] at crosses good ⊢ <;> omega

def ownAt (userId : UserId) (q : List BookOrder) : Bool :=
  q.any (fun bo => isSelfTrade userId bo.userId)

/-- The levels that matching gets to: it does not go beyond one that holds an own order. -/
def reach (own : Int → Bool) : List Int → List Int
  | [] => []
  | p :: ps => p :: if own p then [] else reach own ps

def entries (userId : UserId) (queue : Int → List BookOrder) (ps : List Int) :
    List (Int × BookOrder) :=
  ps.flatMap (fun p => (foreignTo userId (queue p)).map (Prod.mk p))

def takings (o : Order) (queue : Int → List BookOrder) (ps : List Int) :
    List ((Int × BookOrder) × Int) :=
  allot (fun e => e.2.quantity) o.remainingQuantity
    (entries o.userId queue (reach (fun p => ownAt o.userId (queue p)) ps))

/-- The levels after passes over some of them, best first; a level that is not used up
ends it. -/
def sweepLevels (userId : UserId) : Int → List Int → (Int → List BookOrder) →
    Int → List BookOrder
  | _, [], queue => queue
  | r, p :: ps, queue =>
    if swept userId r (queue p) = [] then
      sweepLevels userId (r - total BookOrder.quantity (queue p)) ps (Function.update queue p [])
    else Function.update queue p (swept userId r (queue p))

theorem sweepLevels_of_nonpos {userId : UserId} {r : Int} (done : r ≤ 0) {ps : List Int}
    {Q : Int → List BookOrder} (crowded : ∀ p ∈ ps, Q p ≠ []) : sweepLevels userId r ps Q = Q := by
  cases ps with
  | nil => rfl
  | cons p ps =>
    rw [sweepLevels, swept_of_nonpos done, if_neg (crowded p List.mem_cons_self),
      Function.update_eq_self]

def OrderBook.live (ob : OrderBook) (d : OrderDirection) (limit : Int) : List Int :=
  d.levels.filter (fun p => d.Crosses p limit ∧ ob.queue d p ≠ [])

/-- What matching against side `d` returns, in closed form. -/
structure Sweeps (d : OrderDirection) (o : Order) (ob : OrderBook) (ps : List Int)
    (result : Matched) : Prop where
  incoming : result.incoming = o.taken ((takings o (ob.queue d) ps).map Prod.snd).sum
  trades : result.trades =
    (takings o (ob.queue d) ps).map (fun x => makeTrade d o x.1.2 x.1.1 x.2)
  near : result.book.queue d = sweepLevels o.userId o.remainingQuantity ps (ob.queue d)
  far : ∀ e, e ≠ d → result.book.queue e = ob.queue e ∧ result.book.best e = ob.best e
  index : ∀ id, result.book.orderIndex id =
    if id ∈ usedUp ((takings o (ob.queue d) ps).map (fun x => (x.1.2, x.2))) then none
    else ob.orderIndex id

section Levels

variable {d : OrderDirection} {ob : OrderBook} {limit : Int}

theorem mem_live {p : Int} :
    p ∈ ob.live d limit ↔ (1 ≤ p ∧ p ≤ 99) ∧ d.Crosses p limit ∧ ob.queue d p ≠ [] := by
  rw [OrderBook.live, List.mem_filter, OrderDirection.mem_levels, decide_eq_true_eq]

theorem live_sorted : (ob.live d limit).Pairwise d.Better :=
  d.levels_sorted.sublist List.filter_sublist

theorem live_nodup : (ob.live d limit).Nodup := by
  refine live_sorted.imp ?_
  rintro p q better rfl
  exact d.better_irrefl p better

private theorem OrderBook.BestExact.not_better (exact : ob.BestExact d) {p : Int}
    (live : p ∈ ob.live d limit) : ¬ d.Better p (ob.best d) := by
  intro better
  obtain ⟨range, _, crowded⟩ := mem_live.mp live
  exact crowded (exact.1 p range.1 range.2 better)

private theorem OrderBook.BestExact.at_level (exact : ob.BestExact d) {p : Int}
    (live : p ∈ ob.live d limit) :
    d.Crosses (ob.best d) limit ∧ ob.best d ∈ ob.live d limit := by
  have behind := exact.not_better live
  obtain ⟨range, crosses, _⟩ := mem_live.mp live
  have crosses' := crosses.of_not_better behind
  refine ⟨crosses', ?_⟩
  obtain none | found := exact.2
  · rw [none] at behind
    cases d <;> simp only [OrderDirection.Better, OrderDirection.sentinel] at behind <;> omega
  · exact mem_live.mpr ⟨⟨found.1, found.2.1⟩, crosses', found.2.2⟩

private theorem OrderBook.BestExact.live_eq (exact : ob.BestExact d) {p : Int}
    (live : p ∈ ob.live d limit) : ∃ ps, ob.live d limit = ob.best d :: ps := by
  have here := (exact.at_level live).2
  have sorted : (ob.live d limit).Pairwise d.Better := live_sorted
  cases levels : ob.live d limit with
  | nil =>
    rw [levels] at here
    cases here
  | cons a ps =>
    rw [levels] at here sorted
    obtain rfl | later := List.mem_cons.mp here
    · exact ⟨ps, rfl⟩
    · have first : a ∈ ob.live d limit := by rw [levels]; exact List.mem_cons_self
      exact absurd ((List.pairwise_cons.mp sorted).1 _ later) (exact.not_better first)

private theorem OrderBook.BestExact.refreshBest (exact : ob.BestExact d) :
    ob.refreshBest d = ob := by
  apply OrderBook.ext_queue
  · exact ob.queue_refreshBest d
  · funext e
    by_cases same : e = d
    · subst same
      exact OrderBook.best_unique (ob.bestExact_refreshBest e) exact (by simp)
    · exact ob.best_refreshBest_ne same
  · exact ob.orderIndex_refreshBest d

private theorem matchLoop_idle (n : Nat) {o : Order} (none : ob.live d o.bookPrice = [])
    (exact : ob.BestExact d) (range : ∀ p, ob.queue d p ≠ [] → 1 ≤ p ∧ p ≤ 99) :
    matchLoop d n o ob = ⟨o, [], ob⟩ := by
  induction n with
  | zero => rfl
  | succ n ih =>
    rw [matchLoop]
    split
    · next enter =>
      have empty : ob.queue d (ob.best d) = [] := by
        by_contra crowded
        have live := mem_live.mpr ⟨range _ crowded, enter.2, crowded⟩
        rw [none] at live
        cases live
      simp only [empty, List.length_nil, matchLevel, if_true, exact.refreshBest, ih,
        List.nil_append]
    · rfl

private theorem live_rest {ps : List Int} {p : Int} {ob' : OrderBook}
    (levels : ob.live d limit = p :: ps)
    (queue : ob'.queue d = Function.update (ob.queue d) p []) : ob'.live d limit = ps := by
  have distinct : (p :: ps).Nodup := levels ▸ live_nodup
  have kept : ob'.live d limit = (ob.live d limit).filter (fun q => q ≠ p) := by
    rw [OrderBook.live, OrderBook.live, List.filter_filter]
    apply List.filter_congr
    intro q _
    rw [queue]
    by_cases same : q = p
    · simp [same]
    · simp [same]
  rw [kept, levels, List.filter_cons_of_neg (by simp)]
  apply List.filter_eq_self.mpr
  intro q member
  have other : q ≠ p := by
    rintro rfl
    exact (List.nodup_cons.mp distinct).1 member
  simpa using other

end Levels

section Takings

variable {o : Order} {Q Q' : Int → List BookOrder} {p : Int} {ps : List Int}

private theorem takings_congr (same : ∀ q ∈ ps, Q q = Q' q) : takings o Q ps = takings o Q' ps := by
  have reached : ∀ {l : List Int}, (∀ q ∈ l, Q q = Q' q) →
      reach (fun q => ownAt o.userId (Q q)) l = reach (fun q => ownAt o.userId (Q' q)) l ∧
        ∀ q ∈ reach (fun q => ownAt o.userId (Q' q)) l, q ∈ l := by
    intro l equal
    induction l with
    | nil => exact ⟨rfl, fun q member => member⟩
    | cons a l ih =>
      obtain ⟨rest, inside⟩ := ih (fun q member => equal q (List.mem_cons_of_mem a member))
      rw [reach, reach, equal a List.mem_cons_self, rest]
      refine ⟨rfl, ?_⟩
      intro q member
      obtain rfl | later := List.mem_cons.mp member
      · exact List.mem_cons_self
      · split at later
        · cases later
        · exact List.mem_cons_of_mem a (inside q later)
  obtain ⟨levels, inside⟩ := reached same
  rw [takings, takings, levels]
  congr 1
  apply List.flatMap_congr
  intro q member
  rw [same q (inside q member)]

private theorem entries_cons (userId : UserId) : entries userId Q (p :: ps) =
    (foreignTo userId (Q p)).map (Prod.mk p) ++ entries userId Q ps := by
  simp [entries]

private theorem allot_level (r : Int) (q : List BookOrder) (p : Int) :
    allot (fun e : Int × BookOrder => e.2.quantity) r (q.map (Prod.mk p)) =
      (allot BookOrder.quantity r q).map (fun x => ((p, x.1), x.2)) :=
  allot_map _ _ _ _

private theorem total_level (q : List BookOrder) (p : Int) :
    total (fun e : Int × BookOrder => e.2.quantity) (q.map (Prod.mk p)) =
      total BookOrder.quantity q := by
  simp [total, Function.comp_def]

private theorem stocked_level {q : List BookOrder} (stocked : Stocked q) :
    ∀ e ∈ q.map (Prod.mk p), 0 < e.2.quantity := by
  intro e member
  obtain ⟨bo, listed, rfl⟩ := List.mem_map.mp member
  exact stocked bo listed

theorem takings_open (ps : List Int) (open_ : ownAt o.userId (Q p) = false)
    (stocked : Stocked (Q p))
    (enough : total BookOrder.quantity (foreignTo o.userId (Q p)) ≤ o.remainingQuantity) :
    takings o Q (p :: ps) = (levelTakings o (Q p)).map (fun x => ((p, x.1), x.2)) ++
      takings (o.taken (total BookOrder.quantity (foreignTo o.userId (Q p)))) Q ps := by
  have given : 0 ≤ total BookOrder.quantity (foreignTo o.userId (Q p)) :=
    total_nonneg stocked.foreign
  have wanted := given.trans enough
  rw [takings, reach, open_, if_neg (by simp), entries_cons,
    allot_append (stocked_level stocked.foreign) wanted, total_level, min_eq_right enough,
    allot_level, takings, Order.taken_remaining, Order.taken_userId]
  rfl

theorem takings_stop (stocked : Stocked (Q p)) (wanted : 0 ≤ o.remainingQuantity)
    (stop : ownAt o.userId (Q p) = true ∨
      o.remainingQuantity ≤ total BookOrder.quantity (foreignTo o.userId (Q p))) :
    takings o Q (p :: ps) = (levelTakings o (Q p)).map (fun x => ((p, x.1), x.2)) := by
  rw [takings, reach]
  cases own : ownAt o.userId (Q p) with
  | true =>
    rw [if_pos rfl, entries_cons]
    simp only [entries, List.flatMap_nil, List.append_nil]
    exact allot_level _ _ _
  | false =>
    have enough := stop.resolve_left (by simp [own])
    rw [if_neg (by simp), entries_cons, allot_append (stocked_level stocked.foreign) wanted,
      total_level, min_eq_left enough, sub_self, allot_of_nonpos _ le_rfl, List.append_nil]
    exact allot_level _ _ _

theorem ownAt_eq_false {userId : UserId} {q : List BookOrder} :
    ownAt userId q = false ↔ foreignTo userId q = q := by
  simp [ownAt, foreignTo, List.any_eq_false]

end Takings

section Loop

variable {d : OrderDirection} {o : Order} {ob : OrderBook} {p : Int} {ps : List Int}

private theorem Sweeps.idle (wanted : o.remainingQuantity ≤ 0 ∨ ps = [])
    (crowded : ∀ q ∈ ps, ob.queue d q ≠ []) : Sweeps d o ob ps ⟨o, [], ob⟩ := by
  have none : takings o (ob.queue d) ps = [] := by
    obtain done | rfl := wanted
    · exact allot_of_nonpos _ done _
    · rfl
  constructor
  · simp [none]
  · simp [none]
  · cases ps with
    | nil => rfl
    | cons p ps =>
      have done := wanted.resolve_right (by simp)
      rw [sweepLevels_of_nonpos done crowded]
  · exact fun _ _ => ⟨rfl, rfl⟩
  · simp [none]

private theorem Sweeps.last {book : OrderBook}
    (takes : takings o (ob.queue d) (p :: ps) =
      (levelTakings o (ob.queue d p)).map (fun x => ((p, x.1), x.2)))
    (held : swept o.userId o.remainingQuantity (ob.queue d p) ≠ [])
    (level : book = ob.settle d p (swept o.userId o.remainingQuantity (ob.queue d p))
      (usedUp (levelTakings o (ob.queue d p)))) :
    Sweeps d o ob (p :: ps) ⟨o.taken ((levelTakings o (ob.queue d p)).map Prod.snd).sum,
      (levelTakings o (ob.queue d p)).map (fun x => makeTrade d o x.1 p x.2), book⟩ := by
  subst level
  constructor
  · simp [takes, Function.comp_def]
  · simp [takes, Function.comp_def]
  · rw [sweepLevels, if_neg held, OrderBook.queue_settle]
  · exact fun e other => ⟨OrderBook.queue_settle_ne other, OrderBook.best_settle e⟩
  · intro id
    simp [takes, Function.comp_def, OrderBook.settle]

private theorem Sweeps.next {book : OrderBook} {rest : Matched}
    (takes : takings o (ob.queue d) (p :: ps) =
      (levelTakings o (ob.queue d p)).map (fun x => ((p, x.1), x.2)) ++
        takings (o.taken (total BookOrder.quantity (ob.queue d p))) (ob.queue d) ps)
    (given : ((levelTakings o (ob.queue d p)).map Prod.snd).sum =
      total BookOrder.quantity (ob.queue d p)) (some_ : 0 < total BookOrder.quantity (ob.queue d p))
    (stocked : ∀ q, Stocked (ob.queue d q))
    (clear : swept o.userId o.remainingQuantity (ob.queue d p) = []) (absent : p ∉ ps)
    (level : book = ob.settle d p [] (usedUp (levelTakings o (ob.queue d p))))
    (further : Sweeps d (o.taken (total BookOrder.quantity (ob.queue d p))) (book.refreshBest d) ps
      rest) :
    Sweeps d o ob (p :: ps) ⟨rest.incoming,
      (levelTakings o (ob.queue d p)).map (fun x => makeTrade d o x.1 p x.2) ++ rest.trades,
      rest.book⟩ := by
  have queue : (book.refreshBest d).queue d = Function.update (ob.queue d) p [] := by
    rw [OrderBook.queue_refreshBest, level, OrderBook.queue_settle]
  have same : takings (o.taken (total BookOrder.quantity (ob.queue d p)))
      ((book.refreshBest d).queue d) ps =
      takings (o.taken (total BookOrder.quantity (ob.queue d p))) (ob.queue d) ps := by
    apply takings_congr
    intro q member
    rw [queue, Function.update_of_ne]
    rintro rfl
    exact absent member
  have later : 0 ≤ ((takings (o.taken (total BookOrder.quantity (ob.queue d p))) (ob.queue d)
      ps).map Prod.snd).sum := by
    apply sum_allot_nonneg
    intro e inside
    obtain ⟨q, _, inside⟩ := List.mem_flatMap.mp inside
    exact stocked_level (stocked q).foreign e inside
  obtain ⟨incoming, trades, near, far, index⟩ := further
  rw [same] at incoming trades index
  constructor
  · rw [takes, List.map_append, List.sum_append, List.map_map]
    show rest.incoming = o.taken (((levelTakings o (ob.queue d p)).map Prod.snd).sum + _)
    rw [given, incoming, Order.taken_taken o some_ later]
  · rw [takes, List.map_append, List.map_map, trades]
    simp only [makeTrade_taken, Function.comp_def]
  · rw [near, sweepLevels, if_pos clear, queue, Order.taken_userId, Order.taken_remaining]
  · intro e other
    obtain ⟨queues, best⟩ := far e other
    rw [OrderBook.queue_refreshBest, level, OrderBook.queue_settle_ne other] at queues
    rw [OrderBook.best_refreshBest_ne book other, level, OrderBook.best_settle] at best
    exact ⟨queues, best⟩
  · have used : usedUp ((takings o (ob.queue d) (p :: ps)).map (fun x => (x.1.2, x.2))) =
        usedUp (levelTakings o (ob.queue d p)) ++
          usedUp ((takings (o.taken (total BookOrder.quantity (ob.queue d p))) (ob.queue d)
            ps).map (fun x => (x.1.2, x.2))) := by
      rw [takes, List.map_append, usedUp_append, List.map_map]
      congr 1
      simp [Function.comp_def]
    intro id
    rw [index, OrderBook.orderIndex_refreshBest, level, used]
    simp only [List.mem_append]
    by_cases first : id ∈ usedUp (levelTakings o (ob.queue d p)) <;>
      simp [OrderBook.settle, first]

/-- The outer loop goes from level to level, best first, as far as the closed form says. -/
theorem matchLoop_sweeps (n : Nat) (ps : List Int) (o : Order) (ob : OrderBook)
    (live : ob.live d o.bookPrice = ps) (enough : ps.length < n) (exact : ob.BestExact d)
    (range : ∀ q, ob.queue d q ≠ [] → 1 ≤ q ∧ q ≤ 99) (stocked : ∀ q, Stocked (ob.queue d q)) :
    Sweeps d o ob ps (matchLoop d n o ob) := by
  induction ps generalizing n o ob with
  | nil =>
    rw [matchLoop_idle n live exact range]
    exact .idle (Or.inr rfl) (by simp)
  | cons p ps ih =>
    obtain ⟨n, rfl⟩ := Nat.exists_eq_succ_of_ne_zero (Nat.ne_zero_of_lt enough)
    have first : p ∈ ob.live d o.bookPrice := by rw [live]; exact List.mem_cons_self
    obtain ⟨ps', levels⟩ := exact.live_eq first
    obtain ⟨rfl, rfl⟩ := List.cons.inj (live.symm.trans levels)
    have crosses := (exact.at_level first).1
    have crowded := (mem_live.mp first).2.2
    rw [matchLoop]
    by_cases wants : 0 < o.remainingQuantity
    · rw [if_pos ⟨wants, crosses⟩]
      simp only [matchLevel_eq d (ob.best d) (ob.queue d (ob.best d)) [] o ob (by simp) (stocked _),
        List.append_nil]
      rw [← swept, OrderBook.queue_settle, Function.update_self]
      have given : ((levelTakings o (ob.queue d (ob.best d))).map Prod.snd).sum =
          min o.remainingQuantity
            (total BookOrder.quantity (foreignTo o.userId (ob.queue d (ob.best d)))) :=
        sum_allot (stocked (ob.best d)).foreign wants.le
      split
      · next clear =>
        obtain ⟨open_, all⟩ := (swept_eq_nil (stocked _) (Or.inl wants)).mp clear
        have some_ : 0 < total BookOrder.quantity (ob.queue d (ob.best d)) := by
          obtain ⟨bo, rest, queue⟩ := List.exists_cons_of_ne_nil crowded
          have positive := stocked (ob.best d) bo (by rw [queue]; exact List.mem_cons_self)
          have others : 0 ≤ total BookOrder.quantity rest :=
            total_nonneg (Stocked.tail (queue ▸ stocked (ob.best d)))
          rw [queue, total_cons]
          omega
        have fits : total BookOrder.quantity (foreignTo o.userId (ob.queue d (ob.best d))) ≤
            o.remainingQuantity := by
          rw [open_]
          exact all
        have takes := takings_open ps (ownAt_eq_false.mpr open_) (stocked _) fits
        rw [open_] at takes given
        rw [min_eq_right all] at given
        have distinct : (ob.best d :: ps).Nodup := live ▸ live_nodup
        refine Sweeps.next takes given some_ stocked clear (List.nodup_cons.mp distinct).1
          (congrArg (fun q => ob.settle d (ob.best d) q _) clear) ?_
        have queue : ((ob.settle d (ob.best d) (swept o.userId o.remainingQuantity
            (ob.queue d (ob.best d))) (usedUp (levelTakings o (ob.queue d (ob.best d))))).refreshBest
              d).queue d = Function.update (ob.queue d) (ob.best d) [] := by
          rw [OrderBook.queue_refreshBest, OrderBook.queue_settle, clear]
        have given' : ((levelTakings o (ob.queue d (ob.best d))).map Prod.snd).sum =
            total BookOrder.quantity (ob.queue d (ob.best d)) := given
        rw [given']
        have inside : ∀ q, (Function.update (ob.queue d) (ob.best d) []) q ≠ [] →
            q ≠ ob.best d ∧ ob.queue d q ≠ [] := by
          intro q held
          by_cases same : q = ob.best d
          · simp [same] at held
          · rw [Function.update_of_ne same] at held
            exact ⟨same, held⟩
        apply ih
        · rw [Order.taken_bookPrice]
          exact live_rest live queue
        · simpa using enough
        · exact OrderBook.bestExact_refreshBest _ d
        · intro q held
          rw [queue] at held
          exact range q (inside q held).2
        · intro q bo member
          rw [queue] at member
          have held := inside q (List.ne_nil_of_mem member)
          rw [Function.update_of_ne held.1] at member
          exact stocked q bo member
      · next held =>
        refine Sweeps.last (takings_stop (stocked _) wants.le ?_) held rfl
        by_contra go
        obtain ⟨open_, more⟩ := not_or.mp go
        have all := ownAt_eq_false.mp (by simpa using open_)
        rw [all] at more
        exact held ((swept_eq_nil (stocked _) (Or.inl wants)).mpr ⟨all, by omega⟩)
    · rw [if_neg (fun enter => wants enter.1)]
      exact .idle (Or.inl (by omega)) (fun q member => (mem_live.mp (live ▸ member)).2.2)

end Loop

end PredictionMarket
