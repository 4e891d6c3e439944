/- PredictionMarket/Engine/ReplaceRejection
   digest: What a replacement that raises a business error leaves of its old order. -/

import PredictionMarket.Engine.Sessions

set_option autoImplicit false
set_option relaxedAutoImplicit false

namespace PredictionMarket

open Library

/-- An order is queued at the price and side of its row, with its remaining quantity,
and in the same place of both books. -/
def OrderRow.StaysQueued (r : OrderRow) (id : OrderId) (ob ob' : OrderBook) : Prop :=
  ∃ (i : Nat) (bo : BookOrder), (ob.queue r.bookDirection r.bookPrice)[i]? = some bo ∧
    (ob'.queue r.bookDirection r.bookPrice)[i]? = some bo ∧ bo.orderId = id ∧
    bo.resting r.bookDirection r.bookPrice = r.resting

/-- The checks that turn a replacement away before it takes the lock of the market,
for an old order that is not filled. -/
def OrderRow.RefusesReplacement (r : OrderRow) (userId : UserId) (marketId : MarketId) : Prop :=
  r.userId ≠ userId ∨ 0 < r.filledQuantity ∨ r.marketId ≠ marketId

section Book

variable {ob : OrderBook} {v : RestingOrders} {id : OrderId} {r : OrderRow}

private theorem OrderBook.Shows.staysQueued (shows : ob.Shows v) (here : v id = some r.resting) :
    r.StaysQueued id ob ob := by
  obtain ⟨bo, queued, same, view⟩ := shows.represents.present here
  obtain ⟨i, bound, found⟩ := List.getElem_of_mem queued
  have got := List.getElem?_eq_some_iff.mpr ⟨bound, found⟩
  exact ⟨i, bo, got, got, same, view⟩

private theorem OrderBook.Shows.not_staysQueued (shows : ob.Shows v) :
    ¬ r.StaysQueued id ob (ob.cancelOrder id) := by
  rintro ⟨i, bo, _, after, same, _⟩
  have queued := (shows.cancelOrder id).represents.queued (List.mem_of_getElem? after)
  rw [same] at queued
  simp [RestingOrders.erase] at queued

end Book

/-- A business error of a replacement: either it was refused before the lock and
nothing changed, or the old order has left the book. -/
private theorem MatchingEngine.replaceOrder_app {oldOrderId : OrderId} {new : OrderDraft}
    {w w' : World}
    {row : OrderRow} {e : AppError}
    (raised : MatchingEngine.replaceOrder oldOrderId new w = (.error (.app e), w'))
    (got : w.db.orders.get? oldOrderId = some row) (unused : row.status ≠ .filled) :
    row.RefusesReplacement new.userId new.marketId ∧ w' = w ∨
      ¬ row.RefusesReplacement new.userId new.marketId ∧
        w' = w.keepBook row.marketId
          ((w.getOrCreateOrderbook row.marketId).cancelOrder oldOrderId) := by
  have stored : w.db.getById oldOrderId = some (rowToOrder oldOrderId row) := by
    simp [Db.getById, got]
  unfold MatchingEngine.replaceOrder at raised
  simp only [stored] at raised
  split at raised
  · next other =>
    cases raised
    exact Or.inl ⟨Or.inl other, rfl⟩
  · next owner =>
    rw [if_neg (show ¬ (rowToOrder oldOrderId row).status = .filled from unused)] at raised
    split at raised
    · next filled =>
      cases raised
      exact Or.inl ⟨Or.inr (Or.inl filled), rfl⟩
    · next untouched =>
      split at raised
      · next away =>
        cases raised
        exact Or.inl ⟨Or.inr (Or.inr away), rfl⟩
      · next home =>
        refine Or.inr ⟨?_, ?_⟩
        · rintro (other | filled | away)
          · exact owner other
          · exact untouched filled
          · exact home away
        · split at raised
          · cases raised
            rfl
          · next noApp _ =>
            obtain ⟨same, _⟩ := Prod.mk.inj raised
            exact absurd (Except.error.inj same) (noApp e)
          · split at raised
            · cases raised
            · next inner =>
              obtain ⟨same, rfl⟩ := Prod.mk.inj raised
              rw [(placeOrderInner_app inner).2]
              rfl
            · next noApp _ =>
              obtain ⟨same, _⟩ := Prod.mk.inj raised
              exact absurd (Except.error.inj same) (noApp e)

/-- A rejected replacement of an open order keeps the tables; it keeps the order in
its place of the book exactly when it was refused before it took the lock. -/
theorem rejected_replace_keeps_order_iff {oldOrderId : OrderId} {req : PlaceOrderRequest}
    {userId : UserId} {clock : Clock} {w : World} {row : OrderRow} {e : AppError}
    (sync : w.InSync row.marketId) (got : w.db.orders.get? oldOrderId = some row)
    (fresh : row.status = .open)
    (raised : (OrderService.replaceOrder oldOrderId req userId clock w).1 = .error (.app e)) :
    let w' := (OrderService.replaceOrder oldOrderId req userId clock w).2
    (w'.db = w.db ∧ row.StaysQueued oldOrderId (w.getOrCreateOrderbook row.marketId)
      (w'.getOrCreateOrderbook row.marketId)) ↔ row.RefusesReplacement userId req.marketId := by
  intro w'
  have unused : row.status ≠ .filled := by
    rw [fresh]
    exact fun same => by cases same
  have here : w.db.resting row.marketId oldOrderId = some row.resting := by
    have active : row.isActive = true := by
      simp [OrderRow.isActive, fresh, OrderStatus.isActive]
    rw [Db.resting, got, Option.bind_some, OrderRow.restsIn, if_pos ⟨rfl, active⟩]
  unfold w'
  unfold OrderService.replaceOrder at raised ⊢
  simp only at raised ⊢
  cases ran : MatchingEngine.replaceOrder oldOrderId (req.draft w.generateId.1 userId clock)
      w.generateId.2 with
  | mk result after =>
    rw [ran] at raised
    cases result with
    | ok replaced => cases raised
    | error d =>
      obtain rfl := Except.error.inj raised
      rcases MatchingEngine.replaceOrder_app ran got unused with ⟨refuses, rfl⟩ | ⟨admits, rfl⟩
      · exact ⟨fun _ => refuses, fun _ => ⟨rfl, OrderBook.Shows.staysQueued sync here⟩⟩
      · refine ⟨fun kept => absurd kept.2 ?_, fun refuses => absurd refuses admits⟩
        have book : ({ w.generateId.2.keepBook row.marketId
            ((w.getOrCreateOrderbook row.marketId).cancelOrder oldOrderId) with
              db := w.db } : World).getOrCreateOrderbook row.marketId =
            (w.getOrCreateOrderbook row.marketId).cancelOrder oldOrderId := by
          simp [World.getOrCreateOrderbook, World.keepBook]
        have left : ¬ row.StaysQueued oldOrderId (w.getOrCreateOrderbook row.marketId)
            ((w.getOrCreateOrderbook row.marketId).cancelOrder oldOrderId) :=
          OrderBook.Shows.not_staysQueued sync
        rw [← book] at left
        exact left

section Example

def oneSale : World := (pairMarket.next sellFourYes).world

private theorem oneSale_inSync : oneSale.InSync "m" := by
  have placed : (OrderService.placeOrder ⟨"s1", "m", .yes, .sell, 50, 4, .gtc⟩ "alice" ⟨0, 0⟩ .none
      pairMarket.world).1.isOk = true := by decide +kernel
  obtain ⟨sale, done⟩ := exists_of_isOk placed
  have step : committed pairMarket.world (.place ⟨"s1", "m", .yes, .sell, 50, 4, .gtc⟩ "alice"
      ⟨0, 0⟩) oneSale := ⟨sale, Prod.ext done rfl⟩
  exact committed_inSync step (World.inSync_of_empty (fun _ => rfl) rfl) "m"

private theorem oneSale_row : ∃ row, oneSale.db.orders.get? 1 = some row ∧ row.marketId = "m" ∧
    row.status = .open ∧ row.userId = "alice" ∧ row.bookDirection = .sell ∧ row.bookPrice = 50 := by
  have fields : (oneSale.db.orders.get? 1).map (fun r =>
      (r.marketId, r.status, r.userId, r.bookDirection, r.bookPrice)) =
        some ("m", .open, "alice", .sell, 50) := by decide +kernel
  obtain ⟨row, got, same⟩ := Option.map_eq_some_iff.mp fields
  simp only [Prod.mk.injEq] at same
  exact ⟨row, got, same⟩

/-- A replacement by somebody else leaves the sale in its place. -/
theorem stranger_leaves_sale_queued :
    ∃ row, oneSale.db.orders.get? 1 = some row ∧ row.StaysQueued 1
      (oneSale.getOrCreateOrderbook "m") ((OrderService.replaceOrder 1
        ⟨"r1", "m", .yes, .sell, 60, 4, .gtc⟩ "bob" ⟨1, 1⟩ oneSale).2.getOrCreateOrderbook "m") := by
  obtain ⟨row, got, home, fresh, owner, _⟩ := oneSale_row
  have sync : oneSale.InSync row.marketId := home ▸ oneSale_inSync
  have raised : (OrderService.replaceOrder 1 ⟨"r1", "m", .yes, .sell, 60, 4, .gtc⟩ "bob" ⟨1, 1⟩
      oneSale).1 = .error (.app ⟨6004, "Old order not owned by requesting user", 403⟩) := by rfl
  have kept := (rejected_replace_keeps_order_iff sync got fresh raised).mpr
    (Or.inl (by rw [owner]; decide))
  exact ⟨row, got, home ▸ kept.2⟩

/-- A new price of 100 cents is turned away, and the sale is no longer in the book. -/
theorem rejected_price_evicts_sale :
    ¬ ∀ (w : World) (oldOrderId : OrderId) (req : PlaceOrderRequest) (userId : UserId)
        (clock : Clock) (row : OrderRow) (e : AppError), w.InSync row.marketId →
      w.db.orders.get? oldOrderId = some row → row.status = .open →
      (OrderService.replaceOrder oldOrderId req userId clock w).1 = .error (.app e) →
      (OrderService.replaceOrder oldOrderId req userId clock w).2.db = w.db ∧
        row.StaysQueued oldOrderId (w.getOrCreateOrderbook row.marketId)
          ((OrderService.replaceOrder oldOrderId req userId clock w).2.getOrCreateOrderbook
            row.marketId) := by
  intro claim
  obtain ⟨row, got, home, fresh, owner, direction, price⟩ := oneSale_row
  have sync : oneSale.InSync row.marketId := home ▸ oneSale_inSync
  have raised : (OrderService.replaceOrder 1 ⟨"r1", "m", .yes, .sell, 100, 4, .gtc⟩ "alice" ⟨1, 1⟩
      oneSale).1 = .error (.app (priceOutOfRangeError 100)) := by rfl
  obtain ⟨_, i, bo, _, after, _⟩ := claim oneSale 1 _ "alice" ⟨1, 1⟩ row _ sync got fresh raised
  have empty : ((OrderService.replaceOrder 1 ⟨"r1", "m", .yes, .sell, 100, 4, .gtc⟩ "alice" ⟨1, 1⟩
      oneSale).2.getOrCreateOrderbook "m").queue .sell 50 = [] := by decide +kernel
  rw [home, direction, price, empty] at after
  cases after

end Example

end PredictionMarket
