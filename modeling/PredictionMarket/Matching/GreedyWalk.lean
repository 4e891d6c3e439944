/- PredictionMarket/Matching/GreedyWalk
   digest: Without own orders in the way, matching is one walk over a flat list of the side. -/

import PredictionMarket.Matching.PriceLevels

set_option autoImplicit false
set_option relaxedAutoImplicit false

namespace PredictionMarket

open Library

def OrderBook.listed (ob : OrderBook) (d : OrderDirection) : List (Int × BookOrder) :=
  d.levels.flatMap (fun p => (ob.queue d p).map (Prod.mk p))

structure Walk where
  incoming : Order
  trades : List TradeResult
  left : List (Int × BookOrder)

def greedyWalk (d : OrderDirection) : Order → List (Int × BookOrder) → Walk
  | o, [] => ⟨o, [], []⟩
  | o, (p, bo) :: rest =>
    if 0 < o.remainingQuantity ∧ d.Crosses p o.bookPrice then
      let qty := min o.remainingQuantity bo.quantity
      let next := greedyWalk d (applyFill o qty) rest
      ⟨next.incoming, makeTrade d o bo p qty :: next.trades,
        if bo.quantity - qty = 0 then next.left
        else (p, { bo with quantity := bo.quantity - qty }) :: next.left⟩
    else ⟨o, [], (p, bo) :: rest⟩

def OrderBook.setBest (ob : OrderBook) (d : OrderDirection) (p : Int) : OrderBook :=
  match d with
  | .buy => { ob with bestBid := p }
  | .sell => { ob with bestAsk := p }

/-- The book with a side read off a list: levels in list order, the cursor at its head, and
only listed orders in the index. -/
def OrderBook.relist (ob : OrderBook) (d : OrderDirection) (left : List (Int × BookOrder)) :
    OrderBook :=
  let level := fun p => (left.filter (fun e => e.1 = p)).map Prod.snd
  let ob := match d with
    | .buy => { ob with bids := level }
    | .sell => { ob with asks := level }
  { ob.setBest d ((left.head?.map Prod.fst).getD d.sentinel) with
    orderIndex := fun id => (ob.orderIndex id).filter
      (fun level => level.1 ≠ d ∨ ∃ e ∈ left, e.2.orderId = id) }

def greedyMatch (o : Order) (ob : OrderBook) : Matched :=
  let d := o.bookDirection.opposite
  let walk := greedyWalk d o (ob.listed d)
  ⟨walk.incoming, walk.trades, ob.relist d walk.left⟩

section Relist

variable (ob : OrderBook) (d : OrderDirection) (left : List (Int × BookOrder))

private theorem OrderBook.queue_relist (p : Int) :
    (ob.relist d left).queue d p = (left.filter (fun e => e.1 = p)).map Prod.snd := by
  cases d <;> rfl

private theorem OrderBook.best_relist :
    (ob.relist d left).best d = (left.head?.map Prod.fst).getD d.sentinel := by
  cases d <;> rfl

private theorem OrderBook.relist_ne {e : OrderDirection} (other : e ≠ d) :
    (ob.relist d left).queue e = ob.queue e ∧ (ob.relist d left).best e = ob.best e := by
  cases d <;> cases e <;> first | exact ⟨rfl, rfl⟩ | exact absurd rfl other

private theorem OrderBook.orderIndex_relist (id : OrderId) : (ob.relist d left).orderIndex id =
    (ob.orderIndex id).filter (fun level => level.1 ≠ d ∨ ∃ e ∈ left, e.2.orderId = id) := by
  cases d <;> rfl

end Relist

section Walks

variable {d : OrderDirection} {o : Order} {q : List BookOrder} {p : Int}
  {rest : List (Int × BookOrder)}

private theorem greedyWalk_done (done : o.remainingQuantity ≤ 0) :
    greedyWalk d o rest = ⟨o, [], rest⟩ := by
  cases rest with
  | nil => rfl
  | cons e rest => rw [greedyWalk, if_neg (by omega)]

private theorem greedyWalk_worse (worse : ∀ e ∈ rest, ¬ d.Crosses e.1 o.bookPrice) :
    greedyWalk d o rest = ⟨o, [], rest⟩ := by
  cases rest with
  | nil => rfl
  | cons e rest => rw [greedyWalk, if_neg (fun enter => worse e List.mem_cons_self enter.2)]

private theorem greedyWalk_level (crosses : d.Crosses p o.bookPrice) (stocked : Stocked q)
    (open_ : ownAt o.userId q = false) :
    greedyWalk d o (q.map (Prod.mk p) ++ rest) =
      let next := greedyWalk d (o.taken ((levelTakings o q).map Prod.snd).sum) rest
      ⟨next.incoming, (levelTakings o q).map (fun x => makeTrade d o x.1 p x.2) ++ next.trades,
        (swept o.userId o.remainingQuantity q).map (Prod.mk p) ++ next.left⟩ := by
  induction q generalizing o with
  | nil => simp [levelTakings, foreignTo, swept, sweep]
  | cons bo q ih =>
    have here := stocked bo List.mem_cons_self
    obtain ⟨stranger, others⟩ : isSelfTrade o.userId bo.userId = false ∧
        ownAt o.userId q = false := by simpa [ownAt] using open_
    rw [List.map_cons, List.cons_append, greedyWalk]
    by_cases wants : 0 < o.remainingQuantity
    · have takes : levelTakings o (bo :: q) =
          (bo, min o.remainingQuantity bo.quantity) ::
            levelTakings (applyFill o (min o.remainingQuantity bo.quantity)) q := by
        rw [levelTakings, foreignTo_stranger stranger, allot, if_pos wants]
        rfl
      have later := ih (o := applyFill o (min o.remainingQuantity bo.quantity)) crosses
        stocked.tail others
      simp only [if_pos (And.intro wants crosses), later, takes, List.map_cons, List.sum_cons]
      by_cases enough : bo.quantity ≤ o.remainingQuantity
      · have all : min o.remainingQuantity bo.quantity = bo.quantity := min_eq_right enough
        have filled : applyFill o bo.quantity = o.taken bo.quantity := (if_neg (by omega)).symm
        have given : 0 ≤ ((levelTakings (o.taken bo.quantity) q).map Prod.snd).sum :=
          sum_allot_nonneg stocked.tail.foreign
        have step : swept o.userId o.remainingQuantity (bo :: q) =
            swept o.userId (o.remainingQuantity - bo.quantity) q := by
          rw [swept, sweep, if_pos wants, stranger, if_neg (by simp), if_pos enough]
          rfl
        simp only [all, filled, sub_self, if_true, makeTrade_taken, Order.taken_userId,
          Order.taken_remaining, step, Order.taken_taken o here given, List.cons_append]
      · have part : min o.remainingQuantity bo.quantity = o.remainingQuantity :=
          min_eq_left (by omega)
        have filled : applyFill o o.remainingQuantity = o.taken o.remainingQuantity :=
          (if_neg (by omega)).symm
        have nothing : levelTakings (o.taken o.remainingQuantity) q = [] :=
          allot_of_nonpos _ (by simp) _
        have step : swept o.userId o.remainingQuantity (bo :: q) =
            { bo with quantity := bo.quantity - o.remainingQuantity } :: q := by
          rw [swept, sweep, if_pos wants, stranger, if_neg (by simp), if_neg enough,
            List.append_nil]
        have kept : ¬ bo.quantity - o.remainingQuantity = 0 := by omega
        simp only [part, filled, nothing, if_neg kept, Order.taken_userId, Order.taken_remaining,
          sub_self, swept_of_nonpos le_rfl, step, List.map_nil, List.sum_nil, add_zero,
          Order.taken_zero, List.map_cons, List.cons_append, List.nil_append]
    · rw [if_neg (fun enter => wants enter.1)]
      have nothing : levelTakings o (bo :: q) = [] := allot_of_nonpos _ (by omega) _
      rw [nothing, swept_of_nonpos (by omega), List.map_nil, List.sum_nil, Order.taken_zero,
        greedyWalk_done (by omega)]
      rfl

/-- The walk over the levels that cross is matching in closed form. -/
private theorem greedyWalk_levels {Q : Int → List BookOrder} {ps : List Int} (distinct : ps.Nodup)
    (stocked : ∀ p, Stocked (Q p)) (crosses : ∀ p ∈ ps, d.Crosses p o.bookPrice)
    (crowded : ∀ p ∈ ps, Q p ≠ []) (open_ : ∀ p ∈ ps, ownAt o.userId (Q p) = false)
    (worse : ∀ e ∈ rest, ¬ d.Crosses e.1 o.bookPrice) :
    greedyWalk d o (ps.flatMap (fun p => (Q p).map (Prod.mk p)) ++ rest) =
      ⟨o.taken ((takings o Q ps).map Prod.snd).sum,
        (takings o Q ps).map (fun x => makeTrade d o x.1.2 x.1.1 x.2),
        ps.flatMap (fun p => (sweepLevels o.userId o.remainingQuantity ps Q p).map (Prod.mk p)) ++
          rest⟩ := by
  induction ps generalizing o with
  | nil => simp [takings, reach, entries, greedyWalk_worse worse]
  | cons b ps ih =>
    obtain ⟨absent, distinct'⟩ := List.nodup_cons.mp distinct
    have elsewhere : ∀ (X : Int → List BookOrder) (q : List BookOrder),
        ps.flatMap (fun p => (Function.update X b q p).map (Prod.mk p)) =
          ps.flatMap (fun p => (X p).map (Prod.mk p)) := by
      intro X q
      apply List.flatMap_congr
      intro p member
      rw [Function.update_of_ne]
      rintro rfl
      exact absent member
    by_cases wants : 0 < o.remainingQuantity
    · have others := ownAt_eq_false.mp (open_ b List.mem_cons_self)
      have given : ((levelTakings o (Q b)).map Prod.snd).sum =
          min o.remainingQuantity (total BookOrder.quantity (foreignTo o.userId (Q b))) :=
        sum_allot (stocked b).foreign wants.le
      rw [List.flatMap_cons, List.append_assoc,
        greedyWalk_level (crosses b List.mem_cons_self) (stocked b) (open_ b List.mem_cons_self),
        sweepLevels_cons absent, List.flatMap_cons, Function.update_self, elsewhere]
      by_cases enough : total BookOrder.quantity (foreignTo o.userId (Q b)) ≤ o.remainingQuantity
      · have clear : swept o.userId o.remainingQuantity (Q b) = [] :=
          (swept_eq_nil (stocked b) (Or.inl wants)).mpr ⟨others, others ▸ enough⟩
        have takes := takings_open ps (open_ b List.mem_cons_self) (stocked b) enough
        rw [others] at enough given takes
        have later := ih (o := o.taken (total BookOrder.quantity (Q b))) distinct'
          (by simpa using fun p member => crosses p (List.mem_cons_of_mem b member))
          (fun p member => crowded p (List.mem_cons_of_mem b member))
          (by simpa using fun p member => open_ p (List.mem_cons_of_mem b member))
          (by simpa using worse)
        have some_ : 0 < total BookOrder.quantity (Q b) := by
          by_contra none
          exact crowded b List.mem_cons_self (eq_nil_of_total (stocked b) (not_lt.mp none))
        have given' : 0 ≤ ((takings (o.taken (total BookOrder.quantity (Q b))) Q ps).map
            Prod.snd).sum := sum_allot_nonneg (entries_positive stocked)
        rw [given, min_eq_right enough, later, clear, if_pos rfl, takes]
        simp only [Order.taken_userId, Order.taken_remaining, Order.taken_taken o some_ given',
          makeTrade_taken, List.map_append, List.sum_append, List.map_map, List.map_nil,
          List.nil_append, Function.comp_def, given, min_eq_right enough]
      · have held : swept o.userId o.remainingQuantity (Q b) ≠ [] := by
          intro clear
          obtain ⟨same, all⟩ := (swept_eq_nil (stocked b) (Or.inl wants)).mp clear
          rw [same] at enough
          exact enough all
        rw [if_neg held, takings_stop (stocked b) wants.le (Or.inr (by omega)), given,
          min_eq_left (by omega), greedyWalk_done (by simp)]
        simp only [List.append_nil, List.append_assoc, List.map_map, Function.comp_def, given,
          min_eq_left (not_le.mp enough).le]
    · rw [greedyWalk_done (by omega), sweepLevels_of_nonpos (by omega) crowded]
      have none : takings o Q (b :: ps) = [] := allot_of_nonpos _ (by omega) _
      simp [none]

end Walks

section Listed

variable {ob : OrderBook} {d : OrderDirection} {limit : Int}

private theorem levels_split (d : OrderDirection) (limit : Int) :
    d.levels = d.levels.filter (fun p => d.Crosses p limit) ++
      d.levels.filter (fun p => ¬ d.Crosses p limit) := by
  have split : ∀ ps : List Int, ps.Pairwise d.Better →
      ps = ps.filter (fun p => d.Crosses p limit) ++ ps.filter (fun p => ¬ d.Crosses p limit) := by
    intro ps sorted
    induction ps with
    | nil => rfl
    | cons p ps ih =>
      obtain ⟨first, sorted⟩ := List.pairwise_cons.mp sorted
      have rest := ih sorted
      by_cases crosses : d.Crosses p limit
      · rw [List.filter_cons_of_pos (by simpa using crosses),
          List.filter_cons_of_neg (by simpa using crosses), List.cons_append, ← rest]
      · have none : ps.filter (fun p => d.Crosses p limit) = [] := by
          apply List.filter_eq_nil_iff.mpr
          intro q member enter
          have crosses' : d.Crosses q limit := of_decide_eq_true enter
          exact crosses (crosses'.of_not_better (OrderDirection.better_asymm (first q member)))
        rw [none, List.nil_append] at rest
        rw [List.filter_cons_of_neg (by simpa using crosses),
          List.filter_cons_of_pos (by simpa using crosses), none, List.nil_append, ← rest]
  exact split d.levels d.levels_sorted

theorem listed_split (ob : OrderBook) (limit : Int) {Q : Int → List BookOrder}
    (empty : ∀ p, d.Crosses p limit → ob.queue d p = [] → Q p = []) :
    d.levels.flatMap (fun p => (Q p).map (Prod.mk p)) =
      (ob.live d limit).flatMap (fun p => (Q p).map (Prod.mk p)) ++
        (d.levels.filter (fun p => ¬ d.Crosses p limit)).flatMap
          (fun p => (Q p).map (Prod.mk p)) := by
  have live : ob.live d limit = (d.levels.filter (fun p => d.Crosses p limit)).filter
      (fun p => ob.queue d p ≠ []) := by
    rw [OrderBook.live, List.filter_filter]
    apply List.filter_congr
    intro p _
    simp [and_comm]
  have crossing : ∀ p ∈ d.levels.filter (fun p => d.Crosses p limit), d.Crosses p limit := by
    intro p member
    exact of_decide_eq_true (List.mem_filter.mp member).2
  have dropped : ∀ ps : List Int, (∀ p ∈ ps, d.Crosses p limit) →
      (ps.filter (fun p => ob.queue d p ≠ [])).flatMap (fun p => (Q p).map (Prod.mk p)) =
        ps.flatMap (fun p => (Q p).map (Prod.mk p)) := by
    intro ps crosses
    induction ps with
    | nil => rfl
    | cons p ps ih =>
      have rest := ih (fun a member => crosses a (List.mem_cons_of_mem p member))
      by_cases clear : ob.queue d p = []
      · rw [List.filter_cons_of_neg (by simpa using clear), rest, List.flatMap_cons,
          empty p (crosses p List.mem_cons_self) clear, List.map_nil, List.nil_append]
      · rw [List.filter_cons_of_pos (by simpa using clear), List.flatMap_cons, rest,
          List.flatMap_cons]
  rw [live, dropped _ crossing, ← List.flatMap_append, ← levels_split]

private theorem mem_listed {e : Int × BookOrder} :
    e ∈ ob.listed d ↔ (1 ≤ e.1 ∧ e.1 ≤ 99) ∧ e.2 ∈ ob.queue d e.1 := by
  obtain ⟨p, bo⟩ := e
  simp [OrderBook.listed, OrderDirection.mem_levels]

private theorem listed_level (range : ∀ p, ob.queue d p ≠ [] → 1 ≤ p ∧ p ≤ 99) (p : Int) :
    ((ob.listed d).filter (fun e => e.1 = p)).map Prod.snd = ob.queue d p := by
  have level : ∀ ps : List Int, ps.Nodup → ((ps.flatMap (fun a => (ob.queue d a).map
      (Prod.mk a))).filter (fun e => e.1 = p)).map Prod.snd =
        if p ∈ ps then ob.queue d p else [] := by
    intro ps distinct
    induction ps with
    | nil => rfl
    | cons a ps ih =>
      obtain ⟨absent, distinct⟩ := List.nodup_cons.mp distinct
      rw [List.flatMap_cons, List.filter_append, List.map_append, ih distinct, List.filter_map,
        List.map_map]
      by_cases same : a = p
      · subst same
        simp [absent, Function.comp_def]
      · simp [same, Ne.symm same, Function.comp_def]
  have distinct : d.levels.Nodup := by
    refine d.levels_sorted.imp ?_
    rintro a b better rfl
    exact d.better_irrefl a better
  rw [OrderBook.listed, level d.levels distinct]
  by_cases clear : ob.queue d p = []
  · rw [clear, ite_self]
  · rw [if_pos (OrderDirection.mem_levels.mpr (range p clear))]

private theorem listed_best (exact : ob.BestExact d) :
    ((ob.listed d).head?.map Prod.fst).getD d.sentinel = ob.best d := by
  obtain ⟨clear, none | ⟨low, high, crowded⟩⟩ := exact
  · have nothing : ob.listed d = [] := by
      apply List.eq_nil_iff_forall_not_mem.mpr
      intro e member
      obtain ⟨range, queued⟩ := mem_listed.mp member
      have ahead : d.Better e.1 (ob.best d) := by
        rw [none]
        cases d <;> simp only [OrderDirection.Better, OrderDirection.sentinel] <;> omega
      rw [clear e.1 range.1 range.2 ahead] at queued
      cases queued
    rw [nothing, none]
    rfl
  · obtain ⟨before, after, levels⟩ :=
      List.append_of_mem (OrderDirection.mem_levels (d := d).mpr ⟨low, high⟩)
    have sorted := d.levels_sorted
    rw [levels] at sorted
    have front : before.flatMap (fun p => (ob.queue d p).map (Prod.mk p)) = [] := by
      apply List.flatMap_eq_nil_iff.mpr
      intro p member
      have listed : p ∈ d.levels := by
        rw [levels]
        exact List.mem_append_left _ member
      have range := OrderDirection.mem_levels.mp listed
      rw [clear p range.1 range.2
        ((List.pairwise_append.mp sorted).2.2 p member _ List.mem_cons_self)]
      rfl
    obtain ⟨bo, q, queue⟩ := List.exists_cons_of_ne_nil crowded
    rw [OrderBook.listed, levels, List.flatMap_append, front, List.nil_append, List.flatMap_cons,
      queue]
    rfl

private theorem relist_listed {book : OrderBook} (wf : ob.WellFormed) (wf' : book.WellFormed)
    (far : ∀ e, e ≠ d → book.queue e = ob.queue e ∧ book.best e = ob.best e)
    (index : ∀ id, book.orderIndex id = none ∨ book.orderIndex id = ob.orderIndex id) :
    ob.relist d (book.listed d) = book := by
  apply OrderBook.ext_queue
  · funext e
    by_cases facing : e = d
    · subst facing
      funext p
      rw [OrderBook.queue_relist, listed_level (wf'.levels e)]
    · rw [(ob.relist_ne d (book.listed d) facing).1, (far e facing).1]
  · funext e
    by_cases facing : e = d
    · subst facing
      rw [OrderBook.best_relist, listed_best (wf'.bestExact e)]
    · rw [(ob.relist_ne d (book.listed d) facing).2, (far e facing).2]
  · funext id
    rw [OrderBook.orderIndex_relist]
    cases held : ob.orderIndex id with
    | none =>
      have gone : book.orderIndex id = none := by
        obtain none | same := index id
        · exact none
        · rw [same, held]
      rw [gone]
      rfl
    | some level =>
      obtain ⟨e, p⟩ := level
      by_cases facing : e = d
      · subst facing
        rw [Option.filter_some]
        obtain gone | same := index id
        · rw [gone, if_neg]
          simp only [ne_eq, not_true_eq_false, false_or, decide_eq_true_eq]
          rintro ⟨a, listed, rfl⟩
          have here := (wf'.index a.2.orderId e a.1).mpr ⟨a.2, (mem_listed.mp listed).2, rfl⟩
          rw [gone] at here
          cases here
        · rw [held] at same
          obtain ⟨bo, queued, rfl⟩ := (wf'.index id e p).mp same
          rw [same, if_pos]
          simp only [ne_eq, not_true_eq_false, false_or, decide_eq_true_eq]
          exact ⟨(p, bo), mem_listed.mpr ⟨wf'.levels e p (List.ne_nil_of_mem queued), queued⟩, rfl⟩
      · obtain ⟨bo, queued, rfl⟩ := (wf.index id e p).mp held
        rw [← (far e facing).1] at queued
        rw [(wf'.index bo.orderId e p).mpr ⟨bo, queued, rfl⟩, Option.filter_some, if_pos]
        simp [facing]

end Listed

private theorem listed_matchOrder {ob : OrderBook} (wf : ob.WellFormed) (o : Order) :
    (matchOrder o ob).book.listed o.bookDirection.opposite =
      (ob.live o.bookDirection.opposite o.bookPrice).flatMap (fun p =>
        (sweepLevels o.userId o.remainingQuantity (ob.live o.bookDirection.opposite o.bookPrice)
          (ob.queue o.bookDirection.opposite) p).map (Prod.mk p)) ++
        (o.bookDirection.opposite.levels.filter
          (fun p => ¬ o.bookDirection.opposite.Crosses p o.bookPrice)).flatMap
            (fun p => (ob.queue o.bookDirection.opposite p).map (Prod.mk p)) := by
  have idle : ∀ p, p ∉ ob.live o.bookDirection.opposite o.bookPrice →
      sweepLevels o.userId o.remainingQuantity (ob.live o.bookDirection.opposite o.bookPrice)
        (ob.queue o.bookDirection.opposite) p = ob.queue o.bookDirection.opposite p :=
    fun p absent => sweepLevels_of_not_mem absent
  rw [OrderBook.listed, (matchOrder_sweeps wf o).near, listed_split ob o.bookPrice]
  · congr 1
    apply List.flatMap_congr
    intro p member
    rw [idle]
    intro live
    exact of_decide_eq_true (List.mem_filter.mp member).2 (mem_live.mp live).2.1
  · intro p _ clear
    rw [idle, clear]
    intro live
    exact (mem_live.mp live).2.2 clear

/-- Where no own order rests at a crossing price, matching is the greedy walk. -/
theorem matchOrder_eq_greedyMatch {ob : OrderBook} (wf : ob.WellFormed) {o : Order}
    (strangers : ∀ p, o.bookDirection.opposite.Crosses p o.bookPrice →
      ∀ bo ∈ ob.queue o.bookDirection.opposite p, isSelfTrade o.userId bo.userId = false) :
    matchOrder o ob = greedyMatch o ob := by
  have sweeps := matchOrder_sweeps wf o
  have open_ : ∀ p ∈ ob.live o.bookDirection.opposite o.bookPrice,
      ownAt o.userId (ob.queue o.bookDirection.opposite p) = false := by
    intro p listed
    simpa [ownAt] using strangers p (mem_live.mp listed).2.1
  have worse : ∀ e ∈ (o.bookDirection.opposite.levels.filter
      (fun p => ¬ o.bookDirection.opposite.Crosses p o.bookPrice)).flatMap
        (fun p => (ob.queue o.bookDirection.opposite p).map (Prod.mk p)),
      ¬ o.bookDirection.opposite.Crosses e.1 o.bookPrice := by
    intro e member
    obtain ⟨p, listed, inside⟩ := List.mem_flatMap.mp member
    obtain ⟨bo, _, rfl⟩ := List.mem_map.mp inside
    exact of_decide_eq_true (List.mem_filter.mp listed).2
  have walk : greedyWalk o.bookDirection.opposite o (ob.listed o.bookDirection.opposite) =
      ⟨(matchOrder o ob).incoming, (matchOrder o ob).trades,
        (matchOrder o ob).book.listed o.bookDirection.opposite⟩ := by
    rw [sweeps.incoming, sweeps.trades, listed_matchOrder wf, OrderBook.listed,
      listed_split ob o.bookPrice (fun p _ clear => clear),
      greedyWalk_levels live_nodup (wf.stocked o.bookDirection.opposite)
        (fun p listed => (mem_live.mp listed).2.1) (fun p listed => (mem_live.mp listed).2.2)
        open_ worse]
  have book : ob.relist o.bookDirection.opposite
      ((matchOrder o ob).book.listed o.bookDirection.opposite) = (matchOrder o ob).book := by
    apply relist_listed wf (matchOrder_wellFormed wf o) sweeps.far
    intro id
    rw [sweeps.index]
    split
    · exact Or.inl rfl
    · exact Or.inr rfl
  simp only [greedyMatch, walk, book]

section Example

private def bobsAsks : OrderBook :=
  (OrderBook.empty.addOrder ⟨1, "bob", .nativeSell, 10, 0⟩ 60 .sell).addOrder
    ⟨2, "bob", .nativeSell, 10, 0⟩ 62 .sell

private theorem bobsAsks_wellFormed : bobsAsks.WellFormed := by
  have first := OrderBook.consistent_empty.addOrder ⟨1, "bob", .nativeSell, 10, 0⟩ 60 .sell
    (OrderBook.fresh_empty 1) (by decide) (by decide)
  exact (first.addOrder ⟨2, "bob", .nativeSell, 10, 0⟩ 62 .sell
    ((OrderBook.fresh_empty 2).addOrder (by decide) 60 .sell) (by decide) (by decide)).wellFormed

private def bidForFifteen : Order :=
  ⟨3, "c3", "m", "alice", .yes, .buy, 63, .nativeBuy, .buy, 63, 15, 945, .funds, .gtc, .open,
    none, 0, 15, 0⟩

end Example

/-- All of the ask at 60 and half of the one at 62. -/
theorem bid_across_two_levels_greedy :
    matchOrder bidForFifteen bobsAsks = greedyMatch bidForFifteen bobsAsks ∧
      (greedyMatch bidForFifteen bobsAsks).trades =
        [makeTradeBuyIncoming bidForFifteen ⟨1, "bob", .nativeSell, 10, 0⟩ 60 10,
          makeTradeBuyIncoming bidForFifteen ⟨2, "bob", .nativeSell, 10, 0⟩ 62 5] := by
  refine ⟨matchOrder_eq_greedyMatch bobsAsks_wellFormed ?_, by decide +kernel⟩
  intro p _ bo queued
  have bobs : bo.userId = "bob" := by
    obtain rfl | queued := OrderBook.mem_addOrder queued
    · rfl
    · obtain rfl | queued := OrderBook.mem_addOrder queued
      · rfl
      · exact absurd queued OrderBook.not_mem_empty
  rw [bobs]
  decide +kernel

end PredictionMarket
