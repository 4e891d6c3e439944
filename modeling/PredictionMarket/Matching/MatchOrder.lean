/- PredictionMarket/Matching/MatchOrder
   digest: Price-time matching on the book, and the fills it makes of the abstract book. -/

import PredictionMarket.Matching.OrderBook

set_option autoImplicit false
set_option relaxedAutoImplicit false

namespace PredictionMarket

def makeTradeBuyIncoming (buyIncoming : Order) (sellResting : BookOrder) (price qty : Int) :
    TradeResult where
  buyOrderId := buyIncoming.id
  sellOrderId := sellResting.orderId
  buyUserId := buyIncoming.userId
  sellUserId := sellResting.userId
  marketId := buyIncoming.marketId
  price := price
  quantity := qty
  buyBookType := buyIncoming.bookType
  sellBookType := sellResting.bookType
  buyOriginalPrice := buyIncoming.originalPrice
  makerOrderId := sellResting.orderId
  takerOrderId := buyIncoming.id

/-- incoming is SELL, resting is BUY; its original price is not tracked. -/
def makeTradeSellIncoming (sellIncoming : Order) (buyResting : BookOrder) (price qty : Int) :
    TradeResult where
  buyOrderId := buyResting.orderId
  sellOrderId := sellIncoming.id
  buyUserId := buyResting.userId
  sellUserId := sellIncoming.userId
  marketId := sellIncoming.marketId
  price := price
  quantity := qty
  buyBookType := buyResting.bookType
  sellBookType := sellIncoming.bookType
  buyOriginalPrice := 0
  makerOrderId := buyResting.orderId
  takerOrderId := sellIncoming.id

def applyFill (incoming : Order) (qty : Int) : Order :=
  let remaining := incoming.remainingQuantity - qty
  { incoming with
    filledQuantity := incoming.filledQuantity + qty
    remainingQuantity := remaining
    status := if remaining = 0 then .filled else .partiallyFilled }

/-- What matching returns: the mutated order, the trades and the mutated book. -/
structure Matched where
  incoming : Order
  trades : List TradeResult
  book : OrderBook

/-- Orders resting on side `d` at price `p` match an order with limit `limit`. -/
def OrderDirection.Crosses : OrderDirection → Int → Int → Prop
  | .sell, p, limit => p ≤ limit
  | .buy, p, limit => limit ≤ p

instance (d : OrderDirection) (p limit : Int) : Decidable (d.Crosses p limit) :=
  match d with
  | .sell => inferInstanceAs (Decidable (p ≤ limit))
  | .buy => inferInstanceAs (Decidable (limit ≤ p))

/-- The trade against an order resting on side `d`. -/
def makeTrade : OrderDirection → Order → BookOrder → Int → Int → TradeResult
  | .sell => makeTradeBuyIncoming
  | .buy => makeTradeSellIncoming

/-- The inner loop on one level. The counter is `total - checked`: a rotation
raises `checked` and a removal lowers `total`, so both take one off it. -/
def matchLevel (d : OrderDirection) (price : Int) : Nat → Order → OrderBook → Matched
  | 0, incoming, ob => ⟨incoming, [], ob⟩
  | n + 1, incoming, ob =>
    match ob.queue d price with
    | [] => ⟨incoming, [], ob⟩
    | resting :: rest =>
      if 0 < incoming.remainingQuantity then
        if isSelfTrade incoming.userId resting.userId then
          matchLevel d price n incoming (ob.setQueue d price (rest ++ [resting]))
        else
          let fillQty := min incoming.remainingQuantity resting.quantity
          let trade := makeTrade d incoming resting price fillQty
          let incoming := applyFill incoming fillQty
          if resting.quantity - fillQty = 0 then
            let next := matchLevel d price n incoming
              ((ob.setQueue d price rest).dropIndex resting.orderId)
            ⟨next.incoming, trade :: next.trades, next.book⟩
          else
            ⟨incoming, [trade], ob.setQueue d price
              ({ resting with quantity := resting.quantity - fillQty } :: rest)⟩
      else ⟨incoming, [], ob⟩

/-- The outer loop over the levels of side `d`; the fuel counts its passes. The
source's check after a refresh is the loop condition again. -/
def matchLoop (d : OrderDirection) : Nat → Order → OrderBook → Matched
  | 0, incoming, ob => ⟨incoming, [], ob⟩
  | n + 1, incoming, ob =>
    if 0 < incoming.remainingQuantity ∧ d.Crosses (ob.best d) incoming.bookPrice then
      let price := ob.best d
      let level := matchLevel d price (ob.queue d price).length incoming ob
      if level.book.queue d price = [] then
        let next := matchLoop d n level.incoming (level.book.refreshBest d)
        ⟨next.incoming, level.trades ++ next.trades, next.book⟩
      else level
    else ⟨incoming, [], ob⟩

/-- A pass beyond the first starts on a non-empty one of the 99 levels and
empties it, so this many passes are never used up. -/
def matchPasses : Nat := 101

def matchBuy (incoming : Order) (ob : OrderBook) : Matched :=
  matchLoop .sell matchPasses incoming ob

def matchSell (incoming : Order) (ob : OrderBook) : Matched :=
  matchLoop .buy matchPasses incoming ob

def matchOrder (incoming : Order) (ob : OrderBook) : Matched :=
  match incoming.bookDirection with
  | .buy => matchBuy incoming ob
  | .sell => matchSell incoming ob

def OrderDirection.opposite : OrderDirection → OrderDirection
  | .buy => .sell
  | .sell => .buy

/-- The trade of an incoming order with the resting order under `id`. -/
def tradeOf (incoming : Order) (id : OrderId) (r : Resting) (qty : Int) : TradeResult :=
  makeTrade r.direction incoming ⟨id, r.userId, r.bookType, r.quantity, 0⟩ r.price qty

/-- A run of fills on the abstract book: each takes as much as both sides allow
from an order on the other side whose price crosses the limit. -/
inductive Fills : Order → RestingOrders → List TradeResult → Order → RestingOrders → Prop
  | done (o : Order) (v : RestingOrders) : Fills o v [] o v
  | fill {o o' : Order} {v v' : RestingOrders} {id : OrderId} {r : Resting}
      {ts : List TradeResult} (here : v id = some r)
      (stranger : isSelfTrade o.userId r.userId = false)
      (facing : r.direction = o.bookDirection.opposite)
      (crosses : r.direction.Crosses r.price o.bookPrice) (wants : 0 < o.remainingQuantity)
      (rest : Fills (applyFill o (min o.remainingQuantity r.quantity))
        (v.fill id (min o.remainingQuantity r.quantity)) ts o' v') :
      Fills o v (tradeOf o id r (min o.remainingQuantity r.quantity) :: ts) o' v'

namespace Fills

private theorem trans {o p q : Order} {u v w : RestingOrders} {ts us : List TradeResult}
    (first : Fills o u ts p v) (second : Fills p v us q w) : Fills o u (ts ++ us) q w := by
  induction first with
  | done => exact second
  | fill here stranger facing crosses wants _ ih =>
    exact .fill here stranger facing crosses wants (ih second)

theorem sound {o p : Order} {u v : RestingOrders} {ts : List TradeResult}
    (run : Fills o u ts p v) (sound : u.Sound) : v.Sound := by
  induction run with
  | done => exact sound
  | fill here _ _ _ _ _ ih => exact ih (sound.fill here (min_le_right _ _))

private theorem fillEntry {o o' : Order} {v v' : RestingOrders} {bo : BookOrder}
    {d : OrderDirection}
    {p : Int} {ts : List TradeResult} (here : v bo.orderId = some (bo.resting d p))
    (stranger : isSelfTrade o.userId bo.userId = false)
    (facing : d = o.bookDirection.opposite) (crosses : d.Crosses p o.bookPrice)
    (wants : 0 < o.remainingQuantity)
    (rest : Fills (applyFill o (min o.remainingQuantity bo.quantity))
      (v.fill bo.orderId (min o.remainingQuantity bo.quantity)) ts o' v') :
    Fills o v (makeTrade d o bo p (min o.remainingQuantity bo.quantity) :: ts) o' v' := by
  have same : makeTrade d o bo p (min o.remainingQuantity bo.quantity) =
      tradeOf o bo.orderId (bo.resting d p) (min o.remainingQuantity bo.quantity) := by
    cases d <;> rfl
  rw [same]
  exact .fill here stranger facing crosses wants rest

theorem incoming {o p : Order} {u v : RestingOrders} {ts : List TradeResult}
    (run : Fills o u ts p v) : p = { o with
      filledQuantity := p.filledQuantity
      remainingQuantity := p.remainingQuantity
      status := p.status } := by
  induction run with
  | done => rfl
  | fill _ _ _ _ _ _ ih => rw [ih]; rfl

theorem progress {o p : Order} {u v : RestingOrders} {ts : List TradeResult}
    (run : Fills o u ts p v) : (0 ≤ o.remainingQuantity → 0 ≤ p.remainingQuantity) ∧
      p.filledQuantity + p.remainingQuantity = o.filledQuantity + o.remainingQuantity ∧
      (ts = [] → p = o ∧ v = u) ∧
      (ts ≠ [] → p.status = if p.remainingQuantity = 0 then .filled else .partiallyFilled) := by
  induction run with
  | done o v => exact ⟨id, rfl, fun _ => ⟨rfl, rfl⟩, fun some => absurd rfl some⟩
  | @fill o o' v v' id r ts here stranger facing crosses wants rest ih =>
    obtain ⟨nonneg, sum, idle, marked⟩ := ih
    simp only [applyFill] at nonneg sum
    refine ⟨fun _ => nonneg (by omega), by omega, fun none => absurd none (List.cons_ne_nil _ _),
      fun _ => ?_⟩
    by_cases last : ts = []
    · rw [(idle last).1]
      rfl
    · exact marked last

end Fills

namespace OrderBook.Represents

variable {ob : OrderBook} {v : RestingOrders}

private theorem fill_removed {id : OrderId} {r : Resting} (here : v id = some r) :
    v.fill id r.quantity = v.erase id := by
  simp [RestingOrders.fill, RestingOrders.erase, here]

private theorem fillHead (rep : ob.Represents v) {d : OrderDirection} {p : Int} {bo : BookOrder}
    {rest : List BookOrder} (level : ob.queue d p = bo :: rest) {qty : Int}
    (left : bo.quantity - qty ≠ 0) :
    (ob.setQueue d p ({ bo with quantity := bo.quantity - qty } :: rest)).Represents
      (v.fill bo.orderId qty) := by
  have head : bo ∈ ob.queue d p := by rw [level]; exact List.mem_cons_self
  have here := rep.queued head
  have filled : v.fill bo.orderId qty = v.place bo.orderId
      (BookOrder.resting { bo with quantity := bo.quantity - qty } d p) := by
    simp [RestingOrders.fill, RestingOrders.place, here, BookOrder.resting, left]
  have removed := (rep.remove (q := rest) (by rw [level])).addOrder
    { bo with quantity := bo.quantity - qty } p d (by simp [RestingOrders.erase])
  have same : (v.erase bo.orderId).place bo.orderId
      (BookOrder.resting { bo with quantity := bo.quantity - qty } d p) =
        v.fill bo.orderId qty := by
    rw [filled]
    simp [RestingOrders.erase, RestingOrders.place]
  rw [same] at removed
  have queues : ∀ e r, (ob.setQueue d p
      ({ bo with quantity := bo.quantity - qty } :: rest)).queue e r |>.Perm
      ((((ob.setQueue d p rest).dropIndex bo.orderId).addOrder
        { bo with quantity := bo.quantity - qty } p d).queue e r) := by
    intro e r
    simp only [queue_addOrder, queue_dropIndex, queue_setQueue]
    split
    · simp only [and_self, if_true]
      exact (List.perm_append_singleton _ _).symm
    · exact List.Perm.refl _
  exact {
    queued := fun member => removed.queued ((queues _ _).subset member)
    present := fun got => by
      obtain ⟨a, member, key, row⟩ := removed.present got
      exact ⟨a, (queues _ _).symm.subset member, key, row⟩
    once := fun e r => ((queues e r).map BookOrder.orderId).nodup_iff.mpr (removed.once e r)
    index := fun id => by
      rw [← removed.index, orderIndex_addOrder, orderIndex_dropIndex]
      simp only [orderIndex_setQueue]
      by_cases key : id = bo.orderId
      · simp [key, rep.index, here, BookOrder.resting]
      · simp [key] }

end OrderBook.Represents

/-- What one level's loop leaves alone: the other levels and both cursors. -/
structure LevelFrame (d : OrderDirection) (price : Int) (ob ob' : OrderBook) : Prop where
  queues : ∀ e p, ¬(e = d ∧ p = price) → ob'.queue e p = ob.queue e p
  best : ∀ e, ob'.best e = ob.best e

namespace LevelFrame

variable {d : OrderDirection} {price : Int} {a b c : OrderBook}

theorem refl : LevelFrame d price a a := ⟨fun _ _ _ => rfl, fun _ => rfl⟩

theorem trans (first : LevelFrame d price a b) (second : LevelFrame d price b c) :
    LevelFrame d price a c :=
  ⟨fun e p other => (second.queues e p other).trans (first.queues e p other),
    fun e => (second.best e).trans (first.best e)⟩

theorem setQueue (q : List BookOrder) : LevelFrame d price a (a.setQueue d price q) :=
  ⟨fun e p other => by rw [OrderBook.queue_setQueue, if_neg other], fun e => by simp⟩

theorem dropIndex (id : OrderId) : LevelFrame d price a (a.dropIndex id) :=
  ⟨fun e p _ => by rw [OrderBook.queue_dropIndex], fun e => by simp⟩

private theorem bestExact (frame : LevelFrame d price a b) {e : OrderDirection}
    (exact : a.BestExact e)
    (at_best : price = a.best d) (still : e = d → b.queue d price ≠ []) : b.BestExact e := by
  obtain ⟨clear, top⟩ := exact
  unfold OrderBook.BestExact
  rw [frame.best]
  refine ⟨fun p low high ahead => ?_, top.imp_right (fun range => ⟨range.1, range.2.1, ?_⟩)⟩
  · rw [frame.queues]
    · exact clear p low high ahead
    · rintro ⟨rfl, rfl⟩
      rw [at_best] at ahead
      cases e <;> exact absurd ahead (lt_irrefl _)
  · by_cases same : e = d
    · subst same
      exact at_best ▸ still rfl
    · rw [frame.queues _ _ (fun level => same level.1)]
      exact range.2.2

end LevelFrame

theorem matchLevel_frame (d : OrderDirection) (price : Int) (n : Nat) (incoming : Order)
    (ob : OrderBook) : LevelFrame d price ob (matchLevel d price n incoming ob).book := by
  induction n generalizing incoming ob with
  | zero => exact .refl
  | succ n ih =>
    cases level : ob.queue d price with
    | nil =>
      simp only [matchLevel, level]
      exact .refl
    | cons resting rest =>
      simp only [matchLevel, level]
      split
      · split
        · exact (LevelFrame.setQueue _).trans (ih _ _)
        · split
          · exact ((LevelFrame.setQueue _).trans (.dropIndex _)).trans (ih _ _)
          · exact .setQueue _
      · exact .refl

theorem matchLevel_bookPrice (d : OrderDirection) (price : Int) (n : Nat) (incoming : Order)
    (ob : OrderBook) :
    (matchLevel d price n incoming ob).incoming.bookPrice = incoming.bookPrice := by
  induction n generalizing incoming ob with
  | zero => rfl
  | succ n ih =>
    cases level : ob.queue d price with
    | nil => simp only [matchLevel, level]
    | cons resting rest =>
      simp only [matchLevel, level]
      split
      · split
        · exact ih _ _
        · split
          · exact ih _ _
          · rfl
      · rfl

private theorem matchLevel_spec (d : OrderDirection) (price : Int) (n : Nat) (incoming : Order)
    (ob : OrderBook) (v : RestingOrders) (rep : ob.Represents v)
    (facing : d = incoming.bookDirection.opposite)
    (crosses : d.Crosses price incoming.bookPrice) :
    ∃ v', Fills incoming v (matchLevel d price n incoming ob).trades
        (matchLevel d price n incoming ob).incoming v' ∧
      (matchLevel d price n incoming ob).book.Represents v' := by
  induction n generalizing incoming ob v with
  | zero => exact ⟨v, .done _ _, rep⟩
  | succ n ih =>
    cases level : ob.queue d price with
    | nil =>
      simp only [matchLevel, level]
      exact ⟨v, .done _ _, rep⟩
    | cons resting rest =>
      have head : resting ∈ ob.queue d price := by rw [level]; exact List.mem_cons_self
      have here := rep.queued head
      simp only [matchLevel, level]
      split
      · next wants =>
        split
        · -- an own order moves to the back of the level
          exact ih incoming _ v (rep.reorder (q := rest ++ [resting])
            (by rw [level]; exact (List.perm_append_singleton _ _).symm)) facing crosses
        · next stranger =>
          have stranger' : isSelfTrade incoming.userId resting.userId = false := by
            simpa using stranger
          split
          · next emptied =>
            -- the resting order is used up and leaves the book
            have quantity : min incoming.remainingQuantity resting.quantity = resting.quantity := by
              omega
            have removed := rep.remove (q := rest) (by rw [level])
            have filled : v.erase resting.orderId =
                v.fill resting.orderId (min incoming.remainingQuantity resting.quantity) := by
              rw [quantity]
              exact (OrderBook.Represents.fill_removed here).symm
            rw [filled] at removed
            obtain ⟨v', run, rep'⟩ := ih
              (applyFill incoming (min incoming.remainingQuantity resting.quantity)) _ _ removed
              facing crosses
            exact ⟨v', .fillEntry here stranger' facing crosses wants run, rep'⟩
          · next left =>
            exact ⟨_, .fillEntry here stranger' facing crosses wants (.done _ _),
              rep.fillHead level left⟩
      · exact ⟨v, .done _ _, rep⟩

private theorem matchLoop_spec (d : OrderDirection) (n : Nat) (incoming : Order) (ob : OrderBook)
    (v : RestingOrders) (rep : ob.Represents v) (exact : ∀ e, ob.BestExact e)
    (facing : d = incoming.bookDirection.opposite) :
    ∃ v', Fills incoming v (matchLoop d n incoming ob).trades
        (matchLoop d n incoming ob).incoming v' ∧
      (matchLoop d n incoming ob).book.Represents v' ∧
      ∀ e, (matchLoop d n incoming ob).book.BestExact e := by
  induction n generalizing incoming ob v with
  | zero => exact ⟨v, .done _ _, rep, exact⟩
  | succ n ih =>
    simp only [matchLoop]
    split
    · next enter =>
      obtain ⟨v₁, run, rep₁⟩ := matchLevel_spec d (ob.best d) (ob.queue d (ob.best d)).length
        incoming ob v rep facing enter.2
      have frame := matchLevel_frame d (ob.best d) (ob.queue d (ob.best d)).length incoming ob
      split
      · next emptied =>
        have exact₁ : ∀ e, ((matchLevel d (ob.best d) (ob.queue d (ob.best d)).length
            incoming ob).book.refreshBest d).BestExact e := fun e =>
          OrderBook.bestExact_refreshBest_of (fun other =>
            frame.bestExact (exact e) rfl (fun same => absurd same other))
        have facing₁ := facing.trans
          (congrArg (fun o => o.bookDirection.opposite) run.incoming).symm
        obtain ⟨v₂, run₂, rep₂, exact₂⟩ := ih _ _ v₁ (rep₁.refreshBest d) exact₁ facing₁
        exact ⟨v₂, run.trans run₂, rep₂, exact₂⟩
      · next held =>
        exact ⟨v₁, run, rep₁, fun e => frame.bestExact (exact e) rfl (fun _ => held)⟩
    · exact ⟨v, .done _ _, rep, exact⟩

/-- Matching makes a run of fills and leaves a book that represents its end. -/
theorem matchOrder_spec (incoming : Order) (ob : OrderBook) (v : RestingOrders)
    (rep : ob.Represents v) (exact : ∀ e, ob.BestExact e) :
    ∃ v', Fills incoming v (matchOrder incoming ob).trades (matchOrder incoming ob).incoming v' ∧
      (matchOrder incoming ob).book.Represents v' ∧
      ∀ e, (matchOrder incoming ob).book.BestExact e := by
  unfold matchOrder
  cases direction : incoming.bookDirection with
  | buy => exact matchLoop_spec .sell matchPasses incoming ob v rep exact (by rw [direction]; rfl)
  | sell => exact matchLoop_spec .buy matchPasses incoming ob v rep exact (by rw [direction]; rfl)

/-- Nobody else rests at the best price that an order could take: that price does
not cross its limit, or only its own user rests there. -/
def OrderBook.Blocks (ob : OrderBook) (order : Order) : Prop :=
  let d := order.bookDirection.opposite
  d.Crosses (ob.best d) order.bookPrice →
    ∀ bo ∈ ob.queue d (ob.best d), isSelfTrade order.userId bo.userId = true

private theorem matchLevel_blocked (d : OrderDirection) (price : Int) (n : Nat) (incoming : Order)
    (ob : OrderBook)
    (own : ∀ bo ∈ ob.queue d price, isSelfTrade incoming.userId bo.userId = true) :
    (matchLevel d price n incoming ob).trades = [] ∧
      ((matchLevel d price n incoming ob).book.queue d price).Perm (ob.queue d price) ∧
      (matchLevel d price n incoming ob).incoming = incoming := by
  induction n generalizing ob with
  | zero => exact ⟨rfl, .refl _, rfl⟩
  | succ n ih =>
    cases level : ob.queue d price with
    | nil => simp [matchLevel, level]
    | cons resting rest =>
      rw [level] at own
      have rotated : (rest ++ [resting]).Perm (resting :: rest) := List.perm_append_singleton _ _
      simp only [matchLevel, level, own resting List.mem_cons_self, if_true]
      split
      · obtain ⟨trades, perm, same⟩ := ih (ob.setQueue d price (rest ++ [resting]))
          (fun bo member => own bo (rotated.subset (by simpa using member)))
        exact ⟨trades, perm.trans (by simp), same⟩
      · exact ⟨rfl, by rw [level], rfl⟩

theorem matchOrder_blocked {incoming : Order} {ob : OrderBook} (blocked : ob.Blocks incoming)
    (exact : ∀ d, ob.BestExact d) (price : 1 ≤ incoming.bookPrice ∧ incoming.bookPrice ≤ 99) :
    (matchOrder incoming ob).trades = [] := by
  have loop : ∀ d n, d = incoming.bookDirection.opposite →
      (matchLoop d (n + 1) incoming ob).trades = [] := by
    intro d n facing
    unfold OrderBook.Blocks at blocked
    simp only [← facing] at blocked
    simp only [matchLoop]
    split
    · next enter =>
      obtain ⟨trades, perm, _⟩ := matchLevel_blocked d (ob.best d) (ob.queue d (ob.best d)).length
        incoming ob (blocked enter.2)
      -- the best level of a crossing side is not the sentinel, so it is not empty
      have crowded : ob.queue d (ob.best d) ≠ [] := by
        rcases (exact d).2 with none | some
        · have crosses := enter.2
          rw [none] at crosses
          cases d <;> simp only [OrderDirection.Crosses, OrderDirection.sentinel] at crosses <;> omega
        · exact some.2.2
      rw [if_neg (fun emptied => crowded (by rw [emptied] at perm; exact perm.symm.eq_nil))]
      exact trades
    · rfl
  unfold matchOrder
  cases direction : incoming.bookDirection with
  | buy => exact loop .sell 100 (by rw [direction]; rfl)
  | sell => exact loop .buy 100 (by rw [direction]; rfl)

end PredictionMarket
