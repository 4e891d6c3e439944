/- PredictionMarket/Matching/Termination
   digest: The nested loops of matching turn by turn, and that they end on every book. -/

import Mathlib.Computability.StateTransition
import Mathlib.Data.Finset.Card
import PredictionMarket.Library.Run
import PredictionMarket.Matching.MatchOrder

set_option autoImplicit false
set_option relaxedAutoImplicit false

namespace PredictionMarket

open Library StateTransition

/-- Where the nested loops stand: at the test of the outer loop, at the test of the inner
loop, behind the inner loop, or behind both. -/
inductive MatchPoint
  | outer
  | inner (price checked total : Int)
  | behind (price : Int)
  | ended
  deriving DecidableEq

/-- The variables of `_match_buy` and `_match_sell`. -/
structure MatchState where
  point : MatchPoint
  incoming : Order
  trades : List TradeResult
  book : OrderBook

/-- One turn of the loops over side `d`, from one test to the next. -/
def matchTurn (d : OrderDirection) (s : MatchState) : Option MatchState :=
  match s.point with
  | .outer =>
    if 0 < s.incoming.remainingQuantity ∧ d.Crosses (s.book.best d) s.incoming.bookPrice then
      let price := s.book.best d
      some { s with point := .inner price 0 (s.book.queue d price).length }
    else some { s with point := .ended }
  | .inner price checked total =>
    match s.book.queue d price with
    | [] => some { s with point := .behind price }
    | resting :: rest =>
      if 0 < s.incoming.remainingQuantity ∧ checked < total then
        if isSelfTrade s.incoming.userId resting.userId then
          some { s with
            point := .inner price (checked + 1) total
            book := s.book.setQueue d price (rest ++ [resting]) }
        else
          let fillQty := min s.incoming.remainingQuantity resting.quantity
          let trades := s.trades ++ [makeTrade d s.incoming resting price fillQty]
          let incoming := applyFill s.incoming fillQty
          if resting.quantity - fillQty = 0 then
            some ⟨.inner price checked (total - 1), incoming, trades,
              (s.book.setQueue d price rest).dropIndex resting.orderId⟩
          else
            some ⟨.behind price, incoming, trades, s.book.setQueue d price
              ({ resting with quantity := resting.quantity - fillQty } :: rest)⟩
      else some { s with point := .behind price }
  | .behind price =>
    if s.book.queue d price = [] then
      let book := s.book.refreshBest d
      if d.Crosses (book.best d) s.incoming.bookPrice then
        some { s with point := .outer, book := book }
      else some { s with point := .ended, book := book }
    else some { s with point := .ended }
  | .ended => none

namespace MatchState

def start (incoming : Order) (ob : OrderBook) : MatchState := ⟨.outer, incoming, [], ob⟩

def matched (s : MatchState) : Matched := ⟨s.incoming, s.trades, s.book⟩

/-- The entry that the next turn looks at: the head of the level, if the test of the inner
loop lets the turn go there. -/
def looksAt (d : OrderDirection) (s : MatchState) : Option BookOrder :=
  match s.point with
  | .inner price checked total =>
    if 0 < s.incoming.remainingQuantity ∧ checked < total then (s.book.queue d price).head?
    else none
  | _ => none

end MatchState

def visits (d : OrderDirection) : Steps MatchState BookOrder := fun s bo t =>
  s.looksAt d = some bo ∧ matchTurn d s = some t

/-- The inner loop from one of its tests to the point behind it, with the entries that it
looks at on the way. -/
def LevelPass (d : OrderDirection) (s : MatchState) (visited : List BookOrder)
    (t : MatchState) : Prop :=
  ∃ last, Run (visits d) s visited last ∧
    (last = t ∨ last.looksAt d = none ∧ matchTurn d last = some t) ∧ ∃ p, t.point = .behind p

def Pass (d : OrderDirection) (s : MatchState) (visited : List BookOrder) (t : MatchState) :
    Prop :=
  ∃ level behind, s.point = .outer ∧ matchTurn d s = some level ∧
    LevelPass d level visited behind ∧ matchTurn d behind = some t

/-- How a pass leaves the book when it does not stop the loops on its level. -/
structure MovesOn (d : OrderDirection) (before after : OrderBook) : Prop where
  emptied : after.queue d (before.best d) = []
  cursor : after.best d = d.sentinel ∨
    1 ≤ after.best d ∧ after.best d ≤ 99 ∧ after.queue d (after.best d) ≠ []
  moved : after.best d ≠ before.best d
  /-- A better price had orders already, so the cursor was stale. -/
  stale : d.Better (after.best d) (before.best d) → before.queue d (after.best d) ≠ []

def OrderBook.CursorInRange (ob : OrderBook) (d : OrderDirection) : Prop :=
  ob.best d = d.sentinel ∨ 1 ≤ ob.best d ∧ ob.best d ≤ 99

def OrderBook.crowded (ob : OrderBook) (d : OrderDirection) : Finset Int :=
  OrderBook.askLevels.toFinset.filter (fun p => ob.queue d p ≠ [])

def OrderBook.others (ob : OrderBook) (d : OrderDirection) : Finset Int :=
  (ob.crowded d).erase (ob.best d)

section Cursors

variable {ob : OrderBook} {d : OrderDirection}

private theorem OrderBook.cursorInRange (bid : 0 ≤ ob.bestBid ∧ ob.bestBid ≤ 99)
    (ask : 1 ≤ ob.bestAsk ∧ ob.bestAsk ≤ 100) (d : OrderDirection) : ob.CursorInRange d := by
  cases d <;> simp only [CursorInRange, best, OrderDirection.sentinel] <;> omega

private theorem OrderBook.cursorInRange_refreshBest : (ob.refreshBest d).CursorInRange d :=
  (ob.bestExact_refreshBest d).2.imp_right (fun found => ⟨found.1, found.2.1⟩)

private theorem OrderDirection.sentinel_not_crosses {limit : Int} (price : 1 ≤ limit ∧ limit ≤ 99) :
    ¬ d.Crosses d.sentinel limit := by
  cases d <;> simp only [Crosses, sentinel] <;> omega

private theorem OrderBook.CursorInRange.level (range : ob.CursorInRange d) {limit : Int}
    (price : 1 ≤ limit ∧ limit ≤ 99) (crosses : d.Crosses (ob.best d) limit) :
    1 ≤ ob.best d ∧ ob.best d ≤ 99 := by
  refine range.resolve_left (fun none => ?_)
  rw [none] at crosses
  exact OrderDirection.sentinel_not_crosses price crosses

/-- A pass that empties its level and finds another one leaves fewer levels besides
the one at the cursor, whether the cursor was stale or not. -/
private theorem LevelFrame.others_lt {ob' : OrderBook} (frame : LevelFrame d (ob.best d) ob ob')
    (emptied : ob'.queue d (ob.best d) = [])
    (found : (ob'.refreshBest d).best d ≠ d.sentinel) :
    ((ob'.refreshBest d).others d).card < (ob.others d).card := by
  obtain ⟨low, high, some_⟩ := (ob'.bestExact_refreshBest d).2.resolve_left found
  rw [OrderBook.queue_refreshBest] at some_
  have moved : (ob'.refreshBest d).best d ≠ ob.best d := by
    intro same
    exact some_ (same ▸ emptied)
  apply Finset.card_lt_card
  refine (Finset.ssubset_iff_of_subset (fun p member => ?_)).mpr
    ⟨(ob'.refreshBest d).best d, ?_, ?_⟩
  · simp only [OrderBook.others, OrderBook.crowded, Finset.mem_erase, Finset.mem_filter,
      OrderBook.queue_refreshBest] at member ⊢
    have other : p ≠ ob.best d := by
      rintro rfl
      exact member.2.2 emptied
    refine ⟨other, member.2.1, ?_⟩
    rw [← frame.queues d p (fun level => other level.2)]
    exact member.2.2
  · simp only [OrderBook.others, OrderBook.crowded, Finset.mem_erase, Finset.mem_filter,
      List.mem_toFinset, OrderBook.mem_askLevels]
    refine ⟨moved, ⟨low, high⟩, ?_⟩
    rw [← frame.queues d _ (fun level => moved level.2)]
    exact some_
  · simp [OrderBook.others]

end Cursors

section Visits

variable {d : OrderDirection} {s t : MatchState} {bo : BookOrder} {visited : List BookOrder}

private theorem visits_cases (visit : visits d s bo t) : ∃ p checked total rest,
    s.point = .inner p checked total ∧ checked < total ∧ s.book.queue d p = bo :: rest ∧
      LevelFrame d p s.book t.book ∧ t.incoming.bookPrice = s.incoming.bookPrice ∧
      (t.point = .inner p (checked + 1) total ∧ t.book.queue d p = rest ++ [bo] ∨
        t.point = .inner p checked (total - 1) ∧ t.book.queue d p = rest ∨
        t.point = .behind p) := by
  obtain ⟨looks, turn⟩ := visit
  unfold MatchState.looksAt at looks
  cases point : s.point with
  | inner p checked total =>
    simp only [point] at looks
    split at looks
    · next test =>
      cases level : s.book.queue d p with
      | nil => simp [level] at looks
      | cons resting rest =>
        rw [level] at looks
        obtain rfl := Option.some.inj looks
        refine ⟨p, checked, total, rest, rfl, test.2, level, ?_⟩
        simp only [matchTurn, point, level, if_pos test] at turn
        split at turn
        · obtain rfl := Option.some.inj turn
          exact ⟨.setQueue _, rfl, Or.inl ⟨rfl, OrderBook.queue_setQueue_self _ _ _ _⟩⟩
        · split at turn
          · obtain rfl := Option.some.inj turn
            refine ⟨(LevelFrame.setQueue _).trans (.dropIndex _), rfl, Or.inr (Or.inl ⟨rfl, ?_⟩)⟩
            rw [OrderBook.queue_dropIndex, OrderBook.queue_setQueue_self]
          · obtain rfl := Option.some.inj turn
            exact ⟨.setQueue _, rfl, Or.inr (Or.inr rfl)⟩
    · cases looks
  | outer | behind _ | ended =>
    simp only [point] at looks
    cases looks

private theorem visits_behind {p : Int} (behind : s.point = .behind p) : ¬ visits d s bo t := by
  intro visit
  obtain ⟨_, _, _, _, again, _⟩ := visits_cases visit
  simp [behind] at again

private theorem run_behind {p : Int} (behind : s.point = .behind p)
    (run : Run (visits d) s visited t) :
    visited = [] ∧ t = s := by
  cases run with
  | nil => exact ⟨rfl, rfl⟩
  | cons visit _ => exact absurd visit (visits_behind behind)

/-- The turns of an inner pass look at the entries ahead of them in order: what was passed
stands behind these, and the counters differ by their number. -/
private theorem visits_in_order {p checked total : Int} {ahead passed : List BookOrder}
    (run : Run (visits d) s visited t) (point : s.point = .inner p checked total)
    (level : s.book.queue d p = ahead ++ passed) (counter : total - checked = ahead.length) :
    visited <+: ahead := by
  induction run generalizing p checked total ahead passed with
  | nil => exact List.nil_prefix
  | @cons s u t bo visited visit rest ih =>
    obtain ⟨p', checked', total', q, here, test, head, _, _, after⟩ := visits_cases visit
    obtain ⟨rfl, rfl, rfl⟩ := MatchPoint.inner.inj (point.symm.trans here)
    cases ahead with
    | nil =>
      simp only [List.length_nil] at counter
      omega
    | cons a ahead =>
      rw [head, List.cons_append, List.cons.injEq] at level
      obtain ⟨rfl, rfl⟩ := level
      rw [List.length_cons] at counter
      refine (List.prefix_cons_inj bo).mpr ?_
      rcases after with ⟨next, queue⟩ | ⟨next, queue⟩ | left
      · rw [List.append_assoc] at queue
        exact ih next queue (by omega)
      · exact ih next queue (by omega)
      · rw [(run_behind left rest).1]
        exact List.nil_prefix

private theorem matchTurn_behind {p : Int} (behind : s.point = .behind p) :
    ∃ t, matchTurn d s = some t ∧ t.incoming = s.incoming ∧
      (t.point = .outer ∨ t.point = .ended) ∧
      (s.book.queue d p = [] ∧ t.book = s.book.refreshBest d ∨
        s.book.queue d p ≠ [] ∧ t.point = .ended ∧ t.book = s.book) := by
  simp only [matchTurn, behind]
  split
  · next emptied =>
    split
    · exact ⟨_, rfl, rfl, Or.inl rfl, Or.inl ⟨emptied, rfl⟩⟩
    · exact ⟨_, rfl, rfl, Or.inr rfl, Or.inl ⟨emptied, rfl⟩⟩
  · next held => exact ⟨_, rfl, rfl, Or.inr rfl, Or.inr ⟨held, rfl, rfl⟩⟩

private theorem matchTurn_idle {p checked total : Int} (point : s.point = .inner p checked total)
    (idle : s.looksAt d = none) : matchTurn d s = some { s with point := .behind p } := by
  simp only [MatchState.looksAt, point] at idle
  cases level : s.book.queue d p with
  | nil => simp only [matchTurn, point, level]
  | cons resting rest =>
    rw [level] at idle
    simp only [matchTurn, point, level]
    split at idle
    · cases idle
    · next failed => exact if_neg failed

namespace LevelPass

private theorem behind {p : Int} (point : s.point = .behind p) : LevelPass d s [] s :=
  ⟨s, .nil s, Or.inl rfl, p, point⟩

private theorem leave {p checked total : Int} (point : s.point = .inner p checked total)
    (idle : s.looksAt d = none) : LevelPass d s [] { s with point := .behind p } :=
  ⟨s, .nil s, Or.inr ⟨idle, matchTurn_idle point idle⟩, p, rfl⟩

private theorem visit {u : MatchState} (visit : visits d s bo u) (rest : LevelPass d u visited t) :
    LevelPass d s (bo :: visited) t := by
  obtain ⟨last, run, left, behind⟩ := rest
  exact ⟨last, .cons visit run, left, behind⟩

private theorem reaches (pass : LevelPass d s visited t) : Reaches (matchTurn d) s t := by
  obtain ⟨last, run, left, _⟩ := pass
  have onward : Reaches (matchTurn d) last t := by
    rcases left with rfl | ⟨_, turn⟩
    · exact .refl
    · exact .single turn
  induction run with
  | nil => exact onward
  | cons visit _ ih => exact .head visit.2 (ih left onward)

private theorem frame {p checked total : Int} (pass : LevelPass d s visited t)
    (point : s.point = .inner p checked total) :
    t.point = .behind p ∧ LevelFrame d p s.book t.book := by
  obtain ⟨last, run, left, p', behind⟩ := pass
  induction run generalizing checked total with
  | nil s =>
    rcases left with rfl | ⟨idle, turn⟩
    · rw [point] at behind
      cases behind
    · rw [matchTurn_idle point idle] at turn
      obtain rfl := Option.some.inj turn
      exact ⟨rfl, .refl⟩
  | @cons s u last bo visited visit rest ih =>
    obtain ⟨p', checked', total', q, here, _, _, frame, _, after⟩ := visits_cases visit
    obtain ⟨rfl, rfl, rfl⟩ := MatchPoint.inner.inj (point.symm.trans here)
    rcases after with ⟨next, _⟩ | ⟨next, _⟩ | next
    · obtain ⟨ends, later⟩ := ih next left
      exact ⟨ends, frame.trans later⟩
    · obtain ⟨ends, later⟩ := ih next left
      exact ⟨ends, frame.trans later⟩
    · obtain ⟨_, rfl⟩ := run_behind next rest
      rcases left with rfl | ⟨_, turn⟩
      · exact ⟨next, frame⟩
      · -- the turn behind the inner loop does not stay there
        obtain ⟨u, again, _, on, _⟩ := matchTurn_behind (d := d) next
        obtain rfl := Option.some.inj (turn.symm.trans again)
        rcases on with outer | ended
        · exact absurd (behind.symm.trans outer) (fun same => by cases same)
        · exact absurd (behind.symm.trans ended) (fun same => by cases same)

end LevelPass

end Visits

section Runs

variable {d : OrderDirection} {o : Order} {ob : OrderBook} {trades : List TradeResult}

/-- The inner loop ends behind its level, by induction on the difference of its counters:
a rotation raises one and a removal lowers the other. -/
private theorem matchLevel_pass (p : Int) (n : Nat) (o : Order) (ob : OrderBook)
    (trades : List TradeResult) (checked total : Int) (counter : total - checked = n) :
    ∃ visited, LevelPass d ⟨.inner p checked total, o, trades, ob⟩ visited
      ⟨.behind p, (matchLevel d p n o ob).incoming, trades ++ (matchLevel d p n o ob).trades,
        (matchLevel d p n o ob).book⟩ := by
  induction n generalizing o ob trades checked total with
  | zero =>
    simp only [matchLevel, List.append_nil]
    exact ⟨[], .leave rfl (if_neg (fun test => by omega))⟩
  | succ n ih =>
    cases level : ob.queue d p with
    | nil =>
      simp only [matchLevel, level, List.append_nil]
      refine ⟨[], .leave rfl ?_⟩
      simp only [MatchState.looksAt, level, List.head?_nil, ite_self]
    | cons resting rest =>
      simp only [matchLevel, level]
      by_cases wants : 0 < o.remainingQuantity
      · have test : 0 < o.remainingQuantity ∧ checked < total := ⟨wants, by omega⟩
        have looks : MatchState.looksAt d ⟨.inner p checked total, o, trades, ob⟩ =
            some resting := by
          simp only [MatchState.looksAt, if_pos test, level, List.head?_cons]
        rw [if_pos wants]
        by_cases own : isSelfTrade o.userId resting.userId = true
        · have turn : matchTurn d ⟨.inner p checked total, o, trades, ob⟩ =
              some ⟨.inner p (checked + 1) total, o, trades,
                ob.setQueue d p (rest ++ [resting])⟩ := by
            simp only [matchTurn, level, if_pos test, if_pos own]
          rw [if_pos own]
          obtain ⟨visited, later⟩ := ih o (ob.setQueue d p (rest ++ [resting])) trades
            (checked + 1) total (by omega)
          exact ⟨resting :: visited, .visit ⟨looks, turn⟩ later⟩
        · rw [if_neg own]
          by_cases used : resting.quantity - min o.remainingQuantity resting.quantity = 0
          · have turn : matchTurn d ⟨.inner p checked total, o, trades, ob⟩ =
                some ⟨.inner p checked (total - 1),
                  applyFill o (min o.remainingQuantity resting.quantity),
                  trades ++ [makeTrade d o resting p (min o.remainingQuantity resting.quantity)],
                  (ob.setQueue d p rest).dropIndex resting.orderId⟩ := by
              simp only [matchTurn, level, if_pos test, if_neg own, if_pos used]
            obtain ⟨visited, later⟩ := ih (applyFill o (min o.remainingQuantity resting.quantity))
              ((ob.setQueue d p rest).dropIndex resting.orderId)
              (trades ++ [makeTrade d o resting p (min o.remainingQuantity resting.quantity)])
              checked (total - 1) (by omega)
            rw [List.append_assoc, List.singleton_append] at later
            simp only [if_pos used]
            exact ⟨resting :: visited, .visit ⟨looks, turn⟩ later⟩
          · simp only [if_neg used]
            refine ⟨[resting], .visit ⟨looks, ?_⟩ (.behind rfl)⟩
            simp only [matchTurn, level, if_pos test, if_neg own, if_neg used]
      · rw [if_neg wants, List.append_nil]
        exact ⟨[], .leave rfl (if_neg (fun test => wants test.1))⟩

private theorem matchLoop_worse {n : Nat} (worse : ¬ d.Crosses (ob.best d) o.bookPrice) :
    matchLoop d n o ob = ⟨o, [], ob⟩ := by
  cases n with
  | zero => rfl
  | succ n => exact if_neg (fun enter => worse enter.2)

/-- The nested loops end with what `matchLoop` returns, by induction on its fuel, which is
enough as long as it exceeds the number of other levels with orders. -/
private theorem matchLoop_reaches {limit : Int} (price : 1 ≤ limit ∧ limit ≤ 99) (n : Nat)
    (o : Order)
    (ob : OrderBook) (trades : List TradeResult) (same : o.bookPrice = limit)
    (enough : (ob.others d).card < n) :
    Reaches (matchTurn d) ⟨.outer, o, trades, ob⟩
      ⟨.ended, (matchLoop d n o ob).incoming, trades ++ (matchLoop d n o ob).trades,
        (matchLoop d n o ob).book⟩ := by
  induction n generalizing o ob trades with
  | zero => exact absurd enough (Nat.not_lt_zero _)
  | succ n ih =>
    by_cases enter : 0 < o.remainingQuantity ∧ d.Crosses (ob.best d) o.bookPrice
    · have entered : matchTurn d ⟨.outer, o, trades, ob⟩ = some
          ⟨.inner (ob.best d) 0 (ob.queue d (ob.best d)).length, o, trades, ob⟩ := if_pos enter
      obtain ⟨visited, pass⟩ := matchLevel_pass (d := d) (ob.best d)
        (ob.queue d (ob.best d)).length o ob trades 0 (ob.queue d (ob.best d)).length (by omega)
      have inner := pass.reaches
      have frame := matchLevel_frame d (ob.best d) (ob.queue d (ob.best d)).length o ob
      have same₁ := (matchLevel_bookPrice d (ob.best d) (ob.queue d (ob.best d)).length o ob).trans
        same
      simp only [matchLoop, if_pos enter]
      generalize matchLevel d (ob.best d) (ob.queue d (ob.best d)).length o ob = level
        at pass inner frame same₁ ⊢
      refine .head entered (inner.trans ?_)
      by_cases emptied : level.book.queue d (ob.best d) = []
      · rw [if_pos emptied]
        by_cases crosses : d.Crosses ((level.book.refreshBest d).best d) level.incoming.bookPrice
        · -- the cursor found another level, so the measure falls
          have behind : matchTurn d ⟨.behind (ob.best d), level.incoming, trades ++ level.trades,
              level.book⟩ = some ⟨.outer, level.incoming, trades ++ level.trades,
                level.book.refreshBest d⟩ := by
            simp only [matchTurn, if_pos emptied, if_pos crosses]
          have found : (level.book.refreshBest d).best d ≠ d.sentinel := by
            intro none
            rw [none, same₁] at crosses
            exact OrderDirection.sentinel_not_crosses price crosses
          have fewer := frame.others_lt emptied found
          have rest := ih level.incoming (level.book.refreshBest d) (trades ++ level.trades) same₁
            (by omega)
          rw [List.append_assoc] at rest
          exact .head behind rest
        · rw [matchLoop_worse crosses, List.append_nil]
          refine .single ?_
          simp only [Option.mem_def, matchTurn, if_pos emptied, if_neg crosses]
      · rw [if_neg emptied]
        refine .single ?_
        simp only [Option.mem_def, matchTurn, if_neg emptied]
    · simp only [matchLoop, if_neg enter, List.append_nil]
      exact .single (if_neg enter)

private theorem matchLoop_mem_eval (price : 1 ≤ o.bookPrice ∧ o.bookPrice ≤ 99) {n : Nat}
    (enough : (ob.others d).card < n) :
    ⟨.ended, (matchLoop d n o ob).incoming, (matchLoop d n o ob).trades,
      (matchLoop d n o ob).book⟩ ∈ eval (matchTurn d) (.start o ob) :=
  mem_eval.mpr ⟨matchLoop_reaches price n o ob [] rfl enough, rfl⟩

theorem matchLoop_fuel (price : 1 ≤ o.bookPrice ∧ o.bookPrice ≤ 99) {n k : Nat}
    (enough : (ob.others d).card < n) (more : (ob.others d).card < k) :
    matchLoop d n o ob = matchLoop d k o ob := by
  have one := Part.mem_unique (matchLoop_mem_eval price enough) (matchLoop_mem_eval price more)
  simp only [MatchState.mk.injEq, true_and] at one
  cases first : matchLoop d n o ob
  cases second : matchLoop d k o ob
  simpa [first, second] using one

private theorem OrderBook.others_lt_passes : (ob.others d).card < matchPasses := by
  have levels : (ob.crowded d).card ≤ 99 :=
    (Finset.card_filter_le _ _).trans (List.toFinset_card_le _)
  have fewer : (ob.others d).card ≤ (ob.crowded d).card := Finset.card_erase_le
  unfold matchPasses
  omega

end Runs

section Passes

variable {d : OrderDirection} {s t : MatchState} {limit : Int}

structure MatchState.InLoops (d : OrderDirection) (limit : Int) (s : MatchState) : Prop where
  limit : s.incoming.bookPrice = limit
  cursor : s.book.CursorInRange d

private theorem MatchState.InLoops.turn (loops : s.InLoops d limit)
    (turn : matchTurn d s = some t) :
    t.InLoops d limit := by
  obtain ⟨same, cursor⟩ := loops
  have keeps : ∀ {u : MatchState}, u.incoming.bookPrice = s.incoming.bookPrice →
      u.book.best d = s.book.best d → u.InLoops d limit := by
    intro u limit_ best
    refine ⟨limit_.trans same, ?_⟩
    unfold OrderBook.CursorInRange
    rw [best]
    exact cursor
  cases point : s.point with
  | outer =>
    simp only [matchTurn, point] at turn
    split at turn <;> obtain rfl := Option.some.inj turn <;> exact keeps rfl rfl
  | inner p checked total =>
    cases looks : s.looksAt d with
    | none =>
      obtain rfl := Option.some.inj (turn.symm.trans (matchTurn_idle point looks))
      exact keeps rfl rfl
    | some bo =>
      obtain ⟨_, _, _, _, _, _, _, frame, price, _⟩ := visits_cases ⟨looks, turn⟩
      exact keeps price (frame.best d)
  | behind p =>
    obtain ⟨u, again, incoming, _, ⟨_, book⟩ | ⟨_, _, book⟩⟩ := matchTurn_behind (d := d) point
    · obtain rfl := Option.some.inj (turn.symm.trans again)
      refine ⟨incoming ▸ same, ?_⟩
      rw [book]
      exact OrderBook.cursorInRange_refreshBest
    · obtain rfl := Option.some.inj (turn.symm.trans again)
      exact keeps (by rw [incoming]) (by rw [book])
  | ended =>
    simp only [matchTurn, point] at turn
    cases turn

private theorem MatchState.InLoops.reaches (loops : s.InLoops d limit)
    (run : Reaches (matchTurn d) s t) : t.InLoops d limit := by
  induction run with
  | refl => exact loops
  | tail _ turn ih => exact ih.turn turn

private theorem Pass.ends {visited : List BookOrder} (pass : Pass d s visited t)
    (enter : 0 < s.incoming.remainingQuantity ∧
      d.Crosses (s.book.best d) s.incoming.bookPrice)
    (range : 1 ≤ s.book.best d ∧ s.book.best d ≤ 99) :
    visited <+: s.book.queue d (s.book.best d) ∧
      (t.point = .ended ∧ t.book.queue d (s.book.best d) ≠ [] ∨ MovesOn d s.book t.book) := by
  obtain ⟨level, behind, head, entered, inner, turn⟩ := pass
  simp only [matchTurn, head, if_pos enter] at entered
  obtain rfl := Option.some.inj entered
  obtain ⟨point, frame⟩ := inner.frame rfl
  obtain ⟨last, run, _⟩ := inner
  refine ⟨visits_in_order run rfl (List.append_nil _).symm (sub_zero _), ?_⟩
  obtain ⟨u, again, _, _, ⟨emptied, book⟩ | ⟨held, ended, book⟩⟩ := matchTurn_behind (d := d) point
    <;> obtain rfl := Option.some.inj (turn.symm.trans again)
  · have exact := behind.book.bestExact_refreshBest d
    have moved : (behind.book.refreshBest d).best d ≠ s.book.best d := by
      intro same
      rcases exact.2 with none | found
      · rw [none] at same
        cases d <;> simp only [OrderDirection.sentinel] at same <;> omega
      · rw [same, OrderBook.queue_refreshBest] at found
        exact found.2.2 emptied
    rw [book]
    refine Or.inr ⟨?_, exact.2, moved, fun better => ?_⟩
    · rw [OrderBook.queue_refreshBest]
      exact emptied
    · rcases exact.2 with none | found
      · rw [none] at better
        cases d <;> simp only [OrderDirection.Better, OrderDirection.sentinel] at better <;> omega
      · rw [OrderBook.queue_refreshBest, frame.queues d _ (fun level => moved level.2)] at found
        exact found.2.2
  · rw [book]
    exact Or.inl ⟨ended, held⟩

private theorem Pass.exists (head : s.point = .outer) (enter : 0 < s.incoming.remainingQuantity ∧
    d.Crosses (s.book.best d) s.incoming.bookPrice) : ∃ visited t, Pass d s visited t := by
  obtain ⟨visited, inner⟩ := matchLevel_pass (d := d) (s.book.best d)
    (s.book.queue d (s.book.best d)).length s.incoming s.book s.trades 0
    (s.book.queue d (s.book.best d)).length (by omega)
  obtain ⟨t, turn, _⟩ := matchTurn_behind (d := d) (s := ⟨.behind (s.book.best d), _, _, _⟩) rfl
  refine ⟨visited, t, _, _, head, ?_, inner, turn⟩
  simp only [matchTurn, head, if_pos enter]

end Passes

/-- Matching terminates on every book, whatever its queues, its index and its cursors
within their range are. -/
theorem matching_ends {ob : OrderBook} {o : Order} (bid : 0 ≤ ob.bestBid ∧ ob.bestBid ≤ 99)
    (ask : 1 ≤ ob.bestAsk ∧ ob.bestAsk ≤ 100) (price : 1 ≤ o.bookPrice ∧ o.bookPrice ≤ 99)
    (d : OrderDirection) :
    (∃ s ∈ eval (matchTurn d) (.start o ob),
      s.point = .ended ∧ s.matched = matchLoop d matchPasses o ob) ∧
    ∀ s, Reaches (matchTurn d) (.start o ob) s → s.point = .outer →
      0 < s.incoming.remainingQuantity ∧ d.Crosses (s.book.best d) s.incoming.bookPrice →
      (1 ≤ s.book.best d ∧ s.book.best d ≤ 99) ∧ (∃ visited t, Pass d s visited t) ∧
        ∀ visited t, Pass d s visited t → visited <+: s.book.queue d (s.book.best d) ∧
          (t.point = .ended ∧ t.book.queue d (s.book.best d) ≠ [] ∨
            MovesOn d s.book t.book) := by
  constructor
  · exact ⟨_, matchLoop_mem_eval price OrderBook.others_lt_passes, rfl, rfl⟩
  · intro s run head enter
    have opening : (MatchState.start o ob).InLoops d o.bookPrice :=
      ⟨rfl, OrderBook.cursorInRange bid ask d⟩
    have loops := opening.reaches run
    have range := loops.cursor.level price (loops.limit ▸ enter.2)
    exact ⟨range, Pass.exists head enter, fun visited t pass => pass.ends enter range⟩

section Example

/-- Asks at 60, where the cursor stands, and at 50, which it passed over. -/
private def staleAsks : OrderBook :=
  { (OrderBook.empty.setQueue .sell 60
      [⟨1, "carol", .nativeSell, 0, 0⟩, ⟨2, "bob", .nativeSell, 5, 0⟩]).setQueue .sell 50
      [⟨3, "alice", .nativeSell, 5, 0⟩, ⟨4, "bob", .nativeSell, 5, 0⟩] with
    bestAsk := 60 }

private def bidForTwenty : Order :=
  ⟨5, "c5", "m", "alice", .yes, .buy, 63, .nativeBuy, .buy, 63, 20, 1280, .funds, .gtc, .open,
    none, 0, 20, 0⟩

end Example

/-- The empty order of carol goes with bob's first, and the cursor moves back to 50. -/
theorem stale_cursor_moves_back :
    (∃ s ∈ eval (matchTurn .sell) (.start bidForTwenty staleAsks),
      s.point = .ended ∧ s.matched = matchBuy bidForTwenty staleAsks) ∧
    (matchBuy bidForTwenty staleAsks).trades.map TradeResult.price = [60, 60, 50] ∧
      (matchBuy bidForTwenty staleAsks).book.bestAsk = 50 :=
  ⟨(matching_ends (by decide) (by decide) (by decide) .sell).1, by decide +kernel,
    by decide +kernel⟩

end PredictionMarket
