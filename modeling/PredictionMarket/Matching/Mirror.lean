/- PredictionMarket/Matching/Mirror
   digest: Matching a sell is matching a buy in the mirror of the book. -/

import PredictionMarket.Matching.FillSoundness

set_option autoImplicit false
set_option relaxedAutoImplicit false

namespace PredictionMarket

def BookType.mirror : BookType → BookType
  | .nativeBuy => .syntheticSell
  | .syntheticSell => .nativeBuy
  | .nativeSell => .syntheticBuy
  | .syntheticBuy => .nativeSell

def OriginalSide.other : OriginalSide → OriginalSide
  | .yes => .no
  | .no => .yes

def BookOrder.mirror (bo : BookOrder) : BookOrder := { bo with bookType := bo.bookType.mirror }

def Order.mirror (o : Order) : Order :=
  { o with
    originalSide := o.originalSide.other
    bookType := o.bookType.mirror
    bookDirection := o.bookDirection.opposite
    bookPrice := 100 - o.bookPrice }

/-- Asks at `p` become bids at `100 - p`, and bids asks. -/
def OrderBook.mirror (ob : OrderBook) : OrderBook where
  bids p := (ob.asks (100 - p)).map BookOrder.mirror
  asks p := (ob.bids (100 - p)).map BookOrder.mirror
  bestBid := 100 - ob.bestAsk
  bestAsk := 100 - ob.bestBid
  orderIndex id := (ob.orderIndex id).map (fun level => (level.1.opposite, 100 - level.2))

def TradeResult.mirror (t : TradeResult) : TradeResult :=
  { t with
    buyOrderId := t.sellOrderId
    sellOrderId := t.buyOrderId
    buyUserId := t.sellUserId
    sellUserId := t.buyUserId
    price := 100 - t.price
    buyBookType := t.sellBookType.mirror
    sellBookType := t.buyBookType.mirror }

def Matched.mirror (m : Matched) : Matched :=
  ⟨m.incoming.mirror, m.trades.map TradeResult.mirror, m.book.mirror⟩

/-- All of a trade but the price of the buyer's order, which a sale does not carry. -/
def TradeResult.unpriced (t : TradeResult) : TradeResult := { t with buyOriginalPrice := 0 }

def Matched.unpriced (m : Matched) : Matched :=
  { m with trades := m.trades.map TradeResult.unpriced }

theorem Order.Transformed.mirror {o : Order} (transformed : o.Transformed) :
    o.mirror.Transformed := by
  unfold Order.Transformed at transformed ⊢
  cases side : o.originalSide <;> cases direction : o.originalDirection <;>
    simp only [side, direction, transformOrder, Prod.mk.injEq] at transformed <;>
    simp [Order.mirror, side, direction, transformed, OriginalSide.other, transformOrder,
      BookType.mirror, OrderDirection.opposite]

section Book

variable (ob : OrderBook) (d : OrderDirection) (p : Int)

private theorem OrderBook.queue_mirror :
    ob.mirror.queue d.opposite (100 - p) = (ob.queue d p).map BookOrder.mirror := by
  cases d <;> simp [OrderBook.mirror, OrderBook.queue, OrderDirection.opposite]

private theorem OrderBook.best_mirror : ob.mirror.best d.opposite = 100 - ob.best d := by
  cases d <;> rfl

private theorem OrderBook.mirror_setQueue (q : List BookOrder) : (ob.setQueue d p q).mirror =
    ob.mirror.setQueue d.opposite (100 - p) (q.map BookOrder.mirror) := by
  have level : ∀ f : Int → List BookOrder,
      (fun r => (Function.update f p q (100 - r)).map BookOrder.mirror) =
        Function.update (fun r => (f (100 - r)).map BookOrder.mirror) (100 - p)
          (q.map BookOrder.mirror) := by
    intro f
    funext r
    by_cases same : r = 100 - p
    · subst same
      simp
    · rw [Function.update_of_ne same, Function.update_of_ne (by omega)]
  cases d <;> simp [OrderBook.mirror, OrderBook.setQueue, OrderDirection.opposite, level]

private theorem OrderBook.mirror_dropIndex (id : OrderId) :
    (ob.dropIndex id).mirror = ob.mirror.dropIndex id := by
  simp only [OrderBook.mirror, OrderBook.dropIndex, OrderBook.mk.injEq, true_and]
  funext j
  by_cases same : j = id <;> simp [same]

private theorem OrderBook.mirror_refreshBest :
    (ob.refreshBest d).mirror = ob.mirror.refreshBest d.opposite := by
  have levels : bidLevels = askLevels.map (fun p => 100 - p) := by decide
  have back : askLevels = bidLevels.map (fun p => 100 - p) := by decide
  have flip : ∀ (ps : List Int) (f : Int → List BookOrder),
      (ps.map (fun p => 100 - p)).find? (fun p => (f (100 - p)).map BookOrder.mirror ≠ []) =
        (ps.find? (fun p => f p ≠ [])).map (fun p => 100 - p) := by
    intro ps f
    rw [List.find?_map]
    simp only [Function.comp_def, sub_sub_cancel, ne_eq, List.map_eq_nil_iff]
  cases d with
  | buy =>
    have value : 100 - (bidLevels.find? (fun p => ob.bids p ≠ [])).getD 0 =
        (askLevels.find? (fun p => (ob.bids (100 - p)).map BookOrder.mirror ≠ [])).getD 100 := by
      rw [back, flip]
      cases bidLevels.find? (fun p => ob.bids p ≠ []) <;> rfl
    exact congrArg (fun p => { ob.mirror with bestAsk := p }) value
  | sell =>
    have value : 100 - (askLevels.find? (fun p => ob.asks p ≠ [])).getD 100 =
        (bidLevels.find? (fun p => (ob.asks (100 - p)).map BookOrder.mirror ≠ [])).getD 0 := by
      rw [levels, flip]
      cases askLevels.find? (fun p => ob.asks p ≠ []) <;> rfl
    exact congrArg (fun p => { ob.mirror with bestBid := p }) value

private theorem OrderDirection.crosses_mirror {limit : Int} :
    d.opposite.Crosses (100 - p) (100 - limit) ↔ d.Crosses p limit := by
  cases d <;> simp only [OrderDirection.opposite, OrderDirection.Crosses] <;> omega

private theorem makeTrade_mirror (o : Order) (bo : BookOrder) (qty : Int) :
    (makeTrade d.opposite o.mirror bo.mirror (100 - p) qty).unpriced =
      (makeTrade d o bo p qty).mirror.unpriced := by
  cases d <;> simp [makeTrade, OrderDirection.opposite, makeTradeBuyIncoming, makeTradeSellIncoming,
    TradeResult.mirror, TradeResult.unpriced, Order.mirror, BookOrder.mirror]

end Book

private theorem matchLevel_mirror (d : OrderDirection) (p : Int) (n : Nat) (o : Order)
    (ob : OrderBook) :
    (matchLevel d.opposite (100 - p) n o.mirror ob.mirror).unpriced =
      (matchLevel d p n o ob).mirror.unpriced := by
  induction n generalizing o ob with
  | zero => rfl
  | succ n ih =>
    cases level : ob.queue d p with
    | nil => simp only [matchLevel, OrderBook.queue_mirror, level, List.map_nil]; rfl
    | cons bo rest =>
      simp only [matchLevel, OrderBook.queue_mirror, level, List.map_cons]
      by_cases wants : 0 < o.remainingQuantity
      · have wants' : 0 < o.mirror.remainingQuantity := wants
        rw [if_pos wants, if_pos wants']
        by_cases own : isSelfTrade o.userId bo.userId = true
        · have own' : isSelfTrade o.mirror.userId bo.mirror.userId = true := own
          have rotated := ih o (ob.setQueue d p (rest ++ [bo]))
          rw [OrderBook.mirror_setQueue, List.map_append, List.map_singleton] at rotated
          rw [if_pos own, if_pos own', rotated]
        · have own' : ¬ isSelfTrade o.mirror.userId bo.mirror.userId = true := own
          rw [if_neg own, if_neg own']
          have trade := makeTrade_mirror d p o bo (min o.remainingQuantity bo.quantity)
          by_cases emptied : bo.quantity - min o.remainingQuantity bo.quantity = 0
          · have emptied' : bo.mirror.quantity -
                min o.mirror.remainingQuantity bo.mirror.quantity = 0 := emptied
            have next := ih (applyFill o (min o.remainingQuantity bo.quantity))
              ((ob.setQueue d p rest).dropIndex bo.orderId)
            rw [OrderBook.mirror_dropIndex, OrderBook.mirror_setQueue] at next
            rw [if_pos emptied, if_pos emptied']
            exact congrArg₂ (fun (t : TradeResult) (m : Matched) =>
              (⟨m.incoming, t :: m.trades, m.book⟩ : Matched)) trade next
          · have emptied' : ¬ bo.mirror.quantity -
                min o.mirror.remainingQuantity bo.mirror.quantity = 0 := emptied
            rw [if_neg emptied, if_neg emptied']
            have book := OrderBook.mirror_setQueue ob d p
              ({ bo with quantity := bo.quantity - min o.remainingQuantity bo.quantity } :: rest)
            exact congrArg₂ (fun (t : TradeResult) (b : OrderBook) =>
              (⟨(applyFill o (min o.remainingQuantity bo.quantity)).mirror, [t], b⟩ : Matched))
              trade book.symm
      · have wants' : ¬ 0 < o.mirror.remainingQuantity := wants
        rw [if_neg wants, if_neg wants']
        rfl

/-- The outer loop of a sell goes through the mirrored levels in the same order. -/
private theorem matchLoop_mirror (d : OrderDirection) (n : Nat) (o : Order) (ob : OrderBook) :
    (matchLoop d.opposite n o.mirror ob.mirror).unpriced =
      (matchLoop d n o ob).mirror.unpriced := by
  induction n generalizing o ob with
  | zero => rfl
  | succ n ih =>
    have level := matchLevel_mirror d (ob.best d) (ob.queue d (ob.best d)).length o ob
    simp only [matchLoop, OrderBook.best_mirror, OrderBook.queue_mirror, List.length_map]
    have enters : 0 < o.mirror.remainingQuantity ∧
        d.opposite.Crosses (100 - ob.best d) o.mirror.bookPrice ↔
          0 < o.remainingQuantity ∧ d.Crosses (ob.best d) o.bookPrice :=
      and_congr_right' (d.crosses_mirror (ob.best d))
    by_cases enter : 0 < o.remainingQuantity ∧ d.Crosses (ob.best d) o.bookPrice
    · rw [if_pos enter, if_pos (enters.mpr enter)]
      generalize matchLevel d.opposite (100 - ob.best d) (ob.queue d (ob.best d)).length o.mirror
        ob.mirror = a at level
      generalize matchLevel d (ob.best d) (ob.queue d (ob.best d)).length o ob = b at level
      have incoming : a.incoming = b.incoming.mirror := congrArg Matched.incoming level
      have book : a.book = b.book.mirror := congrArg Matched.book level
      rw [book, OrderBook.queue_mirror]
      by_cases clear : b.book.queue d (ob.best d) = []
      · rw [if_pos clear, if_pos (by rw [clear]; rfl), ← OrderBook.mirror_refreshBest, incoming]
        have both := congrArg₂ (fun (ts : List TradeResult) (m : Matched) =>
          (⟨m.incoming, ts ++ m.trades, m.book⟩ : Matched)) (congrArg Matched.trades level)
            (ih b.incoming (b.book.refreshBest d))
        simpa only [Matched.unpriced, Matched.mirror, List.map_append] using both
      · rw [if_neg clear, if_neg (by simpa using clear), level]
    · rw [if_neg enter, if_neg (fun enter' => enter (enters.mp enter'))]
      rfl

/-- Selling into the mirrored book is buying from the book, seen in the mirror. Order prices
lie between 1 and 99, so the sentinels at 0 and 100 are mirrored without being reached. -/
theorem matchSell_mirror (o : Order) (ob : OrderBook) :
    (matchSell o.mirror ob.mirror).unpriced = (matchBuy o ob).mirror.unpriced :=
  matchLoop_mirror .sell matchPasses o ob

end PredictionMarket
