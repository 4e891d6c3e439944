/- PredictionMarket/Engine/BookSimulation
   digest: On the success path every book in memory shows the active orders of the table. -/

import PredictionMarket.Engine.RestingView
import PredictionMarket.Engine.Services

set_option autoImplicit false
set_option relaxedAutoImplicit false

namespace PredictionMarket

open Library

/-- The book shows exactly these resting orders, with exact cursors. -/
structure OrderBook.Shows (ob : OrderBook) (v : RestingOrders) : Prop where
  represents : ob.Represents v
  exact : ∀ d, ob.BestExact d

theorem OrderBook.Shows.empty : OrderBook.empty.Shows (fun _ => none) :=
  ⟨.empty, OrderBook.bestExact_empty⟩

theorem OrderBook.Shows.cancelOrder {ob : OrderBook} {v : RestingOrders} (shows : ob.Shows v)
    (id : OrderId) : (ob.cancelOrder id).Shows (v.erase id) :=
  ⟨shows.represents.cancelOrder id,
    fun d => OrderBook.bestExact_cancelOrder shows.represents (shows.exact d) id⟩

private theorem RestingOrders.erase_of_none {v : RestingOrders} {id : OrderId}
    (absent : v id = none) :
    v.erase id = v := by
  unfold erase
  rw [← absent, Function.update_eq_self]

section Rebuild

private theorem addAll_shows (l : List (OrderId × OrderRow)) (ob : OrderBook) (v : RestingOrders)
    (shows : ob.Shows v) (nodup : (l.map Prod.fst).Nodup) (fresh : ∀ e ∈ l, v e.1 = none)
    (priced : ∀ e ∈ l, 1 ≤ e.2.bookPrice ∧ e.2.bookPrice ≤ 99) :
    ∃ w : RestingOrders, (l.foldl (fun ob e => ob.addOrder
        ⟨e.1, e.2.userId, e.2.bookType, e.2.remainingQuantity, e.2.createdAt⟩ e.2.bookPrice
        e.2.bookDirection) ob).Shows w ∧
      (∀ e ∈ l, w e.1 = some e.2.resting) ∧ ∀ id, id ∉ l.map Prod.fst → w id = v id := by
  induction l generalizing ob v with
  | nil => exact ⟨v, shows, by simp, by simp⟩
  | cons e l ih =>
    rw [List.map_cons, List.nodup_cons] at nodup
    have price := priced e List.mem_cons_self
    have added : (ob.addOrder ⟨e.1, e.2.userId, e.2.bookType, e.2.remainingQuantity,
        e.2.createdAt⟩ e.2.bookPrice e.2.bookDirection).Shows (v.place e.1 e.2.resting) :=
      ⟨shows.represents.addOrder _ _ _ (fresh e List.mem_cons_self),
        fun d => OrderBook.bestExact_addOrder (shows.exact d) _ _ price.1 price.2⟩
    have later : ∀ a ∈ l, a.1 ≠ e.1 := fun a member same =>
      nodup.1 (same ▸ List.mem_map_of_mem (f := Prod.fst) member)
    obtain ⟨w, showsW, listed, others⟩ := ih _ _ added nodup.2
      (fun a member => by
        simpa [RestingOrders.place, later a member] using fresh a (List.mem_cons_of_mem _ member))
      (fun a member => priced a (List.mem_cons_of_mem _ member))
    refine ⟨w, showsW, ?_, fun id absent => ?_⟩
    · intro a member
      rcases List.mem_cons.mp member with rfl | tail
      · rw [others _ nodup.1]
        simp [RestingOrders.place]
      · exact listed a tail
    · rw [List.map_cons, List.mem_cons, not_or] at absent
      rw [others id absent.2]
      simp [RestingOrders.place, absent.1]

private theorem rebuildOrderbook_shows (marketId : MarketId) (db : Db) :
    (rebuildOrderbook marketId db).Shows (db.resting marketId) := by
  have perm : (db.activeOrders marketId).Perm (db.orders.rows.filter
      (fun e => e.2.marketId = marketId ∧ e.2.isActive = true)) := List.mergeSort_perm _ _
  have member : ∀ e, e ∈ db.activeOrders marketId ↔
      db.orders.get? e.1 = some e.2 ∧ e.2.marketId = marketId ∧ e.2.isActive = true := by
    intro e
    rw [perm.mem_iff, List.mem_filter, ← Table.mem_iff]
    simp
  have nodup : ((db.activeOrders marketId).map Prod.fst).Nodup :=
    (perm.map Prod.fst).nodup_iff.mpr (db.orders.nodup.sublist (List.filter_sublist.map _))
  obtain ⟨w, shows, listed, others⟩ := addAll_shows (db.activeOrders marketId) .empty _ .empty nodup
    (fun _ _ => rfl) (fun e stored => (Table.check ((member e).mp stored).1).2.1)
  have same : w = db.resting marketId := by
    funext id
    cases got : db.resting marketId id with
    | some x =>
      obtain ⟨r, stored, here, active, rfl⟩ := Db.resting_eq_some.mp got
      exact listed (id, r) ((member (id, r)).mpr ⟨stored, here, active⟩)
    | none =>
      apply others
      intro stored
      obtain ⟨e, inside, rfl⟩ := List.mem_map.mp stored
      obtain ⟨row, here, active⟩ := (member e).mp inside
      rw [Db.resting_eq_some.mpr ⟨e.2, row, here, active, rfl⟩] at got
      cases got
  exact same ▸ shows

end Rebuild

section Cancel

variable {db db' : Db}

theorem cancelInSavepoint_saved {order order' : Order}
    (done : MatchingEngine.cancelInSavepoint order db = .ok (order', db')) :
    ∃ db₁ db₂, unfreezeRemainder order db = .ok db₁ ∧
      db₁.updateStatus { order with status := .cancelled } = .ok db₂ ∧
      db' = db₂.writeWalEvent .orderCancelled order.id order.marketId order.userId := by
  simp only [MatchingEngine.cancelInSavepoint, bind_eq_ok, pure_eq_ok, Prod.mk.injEq] at done
  obtain ⟨db₁, released, db₂, marked, _, rfl⟩ := done
  exact ⟨db₁, db₂, released, marked, rfl⟩

theorem cancelInSavepoint_ok {order order' : Order}
    (done : MatchingEngine.cancelInSavepoint order db = .ok (order', db')) :
    Released order db.holdings db'.holdings ∧ db'.markets = db.markets ∧
      db.orders.update? order.id (fun r => r.progress { order with status := .cancelled }) =
        some db'.orders := by
  obtain ⟨db₁, db₂, released, marked, rfl⟩ := cancelInSavepoint_saved done
  obtain ⟨h, ledger, gave, rfl⟩ := unfreezeRemainder_ok released
  obtain ⟨orders, updated, rfl⟩ := Db.updateStatus_ok marked
  exact ⟨gave, rfl, updated⟩

private theorem resting_of_ended {ids : List OrderId} (ended : ∀ j ∈ ids, ∀ r,
      db'.orders.get? j = some r → r.isActive = false)
    (kept : ∀ j, j ∉ ids → db'.orders.get? j = db.orders.get? j) (m : MarketId) (j : OrderId) :
    db'.resting m j = if j ∈ ids then none else db.resting m j := by
  split
  · next member =>
    cases got : db'.orders.get? j with
    | none => simp [Db.resting, got]
    | some r =>
      simp only [Db.resting, got, Option.bind_some]
      exact OrderRow.restsIn_of_inactive (ended j member r got)
  · next other => exact Db.resting_congr (kept j other)

private theorem resting_cancelInSavepoint {order order' : Order}
    (done : MatchingEngine.cancelInSavepoint order db = .ok (order', db')) (m : MarketId) :
    db'.resting m = (db.resting m).erase order.id := by
  have rows := Table.get?_update? (cancelInSavepoint_ok done).2.2
  have ended : ∀ j ∈ [order.id], ∀ r, db'.orders.get? j = some r → r.isActive = false := by
    intro j member r got
    rw [rows, if_pos (List.mem_singleton.mp member)] at got
    obtain ⟨a, _, rfl⟩ := Option.map_eq_some_iff.mp got
    rfl
  have kept : ∀ j, j ∉ [order.id] → db'.orders.get? j = db.orders.get? j := by
    intro j other
    rw [rows, if_neg (by simpa using other)]
  funext j
  rw [resting_of_ended ended kept]
  simp [RestingOrders.erase, Function.update_apply]

theorem markCancelled_ok (ids : List OrderId) (done : MatchingEngine.markCancelled ids db = .ok db') :
    db'.holdings = db.holdings ∧ db'.markets = db.markets ∧ ∀ j, db'.orders.get? j =
      if j ∈ ids then (db.orders.get? j).map (fun r => { r with status := .cancelled })
      else db.orders.get? j := by
  induction ids generalizing db with
  | nil =>
    simp only [MatchingEngine.markCancelled, List.foldlM_nil, pure_eq_ok] at done
    subst done
    simp
  | cons id ids ih =>
    simp only [MatchingEngine.markCancelled, List.foldlM_cons, bind_eq_ok] at done
    obtain ⟨db₁, first, rest⟩ := done
    split at first
    · next orders updated =>
      obtain rfl := Except.ok.inj first
      obtain ⟨holdings, markets, rows⟩ := ih rest
      refine ⟨holdings, markets, fun j => ?_⟩
      rw [rows, Table.get?_update? updated]
      by_cases here : j = id
      · subst here
        by_cases again : j ∈ ids
        · simp [again, Option.map_map, Function.comp_def]
        · simp [again]
      · simp [here]
    · cases first

end Cancel

def World.InSync (w : World) (m : MarketId) : Prop :=
  (w.getOrCreateOrderbook m).Shows (w.db.resting m)

namespace World

private theorem getOrCreateOrderbook_keepBook (w : World) (m : MarketId) (ob : OrderBook) (db : Db)
    (j : MarketId) : ({ w.keepBook m ob with db := db } : World).getOrCreateOrderbook j =
      if j = m then ob else w.getOrCreateOrderbook j := by
  by_cases same : j = m
  · simp [getOrCreateOrderbook, keepBook, same]
  · simp [getOrCreateOrderbook, keepBook, same]

theorem InSync.keepBook {w : World} {m j : MarketId} {ob : OrderBook} {db : Db}
    (sync : w.InSync j) (shows : j = m → ob.Shows (db.resting j))
    (others : j ≠ m → db.resting j = w.db.resting j) :
    ({ w.keepBook m ob with db := db } : World).InSync j := by
  unfold InSync
  rw [getOrCreateOrderbook_keepBook]
  split
  · next same => exact shows same
  · next away =>
    simp only [others away]
    exact sync

end World

namespace MatchingEngine

variable {w w' : World}

private theorem placeOrderInner_shows {draft : OrderDraft} {ob ob' : OrderBook} {db db' : Db}
    {placed : Placed} (done : placeOrderInner draft ob db = (.ok (placed, db'), ob'))
    (shows : ob.Shows (db.resting draft.marketId)) :
    ob'.Shows (db'.resting draft.marketId) ∧
      ∀ m, m ≠ draft.marketId → db'.resting m = db.resting m := by
  obtain ⟨rep, exact, others⟩ :=
    (placeOrderInner_ok done).simulates shows.represents shows.exact
  exact ⟨⟨rep, exact⟩, others⟩

theorem placeOrder_inSync {draft : OrderDraft} {placed : Placed} {m : MarketId}
    (done : placeOrder draft w = (.ok placed, w')) (home : w.InSync draft.marketId)
    (sync : w.InSync m) : w'.InSync m := by
  unfold placeOrder at done
  split at done
  · next placed' db ob inner =>
    obtain ⟨shows, others⟩ := placeOrderInner_shows inner home
    cases done
    exact sync.keepBook (fun same => same ▸ shows) (others m)
  · cases done

private theorem cancelInSavepoint_others {order order' : Order} {db db' : Db} {m : MarketId}
    (done : cancelInSavepoint order db = .ok (order', db'))
    (home : ∀ r, db.orders.get? order.id = some r → r.marketId = order.marketId)
    (away : m ≠ order.marketId) : db'.resting m = db.resting m := by
  rw [resting_cancelInSavepoint done, RestingOrders.erase_of_none]
  cases got : db.orders.get? order.id with
  | none => simp [Db.resting, got]
  | some r =>
    simp only [Db.resting, got, Option.bind_some]
    exact OrderRow.restsIn_of_ne (home r got ▸ away.symm)

private theorem cancelInSavepoint_shows {order order' : Order} {ob : OrderBook} {db db' : Db}
    {m : MarketId}
    (done : cancelInSavepoint order db = .ok (order', db')) (shows : ob.Shows (db.resting m)) :
    (ob.cancelOrder order.id).Shows (db'.resting m) := by
  rw [resting_cancelInSavepoint done]
  exact shows.cancelOrder order.id

private theorem getById_home {db : Db} {id : OrderId} {order : Order}
    (got : db.getById id = some order) :
    order.id = id ∧ ∀ r, db.orders.get? order.id = some r → r.marketId = order.marketId := by
  obtain ⟨row, stored, rfl⟩ := Option.map_eq_some_iff.mp got
  refine ⟨rfl, fun r here => ?_⟩
  rw [show (rowToOrder id row).id = id from rfl, stored] at here
  exact (Option.some.inj here) ▸ rfl

theorem cancelOrder_inSync {orderId : OrderId} {userId : UserId} {order : Order} {m : MarketId}
    (done : cancelOrder orderId userId w = (.ok order, w')) (sync : w.InSync m) :
    w'.InSync m := by
  unfold cancelOrder at done
  split at done
  · cases done
  · next stored got =>
    obtain ⟨rfl, home⟩ := getById_home got
    split at done
    · cases done
    · split at done
      · cases done
      · simp only at done
        split at done
        · next order' db cancelled =>
          cases done
          exact sync.keepBook (fun same => by subst same; exact cancelInSavepoint_shows cancelled sync)
            (cancelInSavepoint_others cancelled home)
        · cases done
        · cases done

theorem replaceOrder_inSync {oldOrderId : OrderId} {new : OrderDraft} {replaced : Replaced}
    {m : MarketId} (done : replaceOrder oldOrderId new w = (.ok replaced, w'))
    (home : w.InSync new.marketId) (sync : w.InSync m) : w'.InSync m := by
  unfold replaceOrder at done
  split at done
  · cases done
  · next old got =>
    obtain ⟨rfl, stored⟩ := getById_home got
    iterate 3
      split at done
      · cases done
    split at done
    · cases done
    · next same =>
      have here : old.marketId = new.marketId := not_not.mp same
      simp only at done
      split at done
      · cases done
      · cases done
      · next old' db cancelled =>
        rw [← here] at home
        have shows := cancelInSavepoint_shows cancelled home
        split at done
        · next placed db' ob' inner =>
          obtain ⟨shows', others⟩ := placeOrderInner_shows inner (here ▸ shows)
          cases done
          rw [← here] at shows' others
          exact sync.keepBook (fun same => same ▸ shows') (fun away => by
            rw [others m away, cancelInSavepoint_others cancelled stored away])
        · cases done
        · cases done

theorem foldl_cancelOrder_shows {ids : List OrderId} {ob : OrderBook} {v : RestingOrders}
    (shows : ob.Shows v) :
    (ids.foldl OrderBook.cancelOrder ob).Shows (fun j => if j ∈ ids then none else v j) := by
  induction ids generalizing ob v with
  | nil => simpa using shows
  | cons id ids ih =>
    have rest := ih (shows.cancelOrder id)
    have same : (fun j => if j ∈ ids then none else (v.erase id) j) =
        fun j => if j ∈ id :: ids then none else v j := by
      funext j
      by_cases here : j = id
      · simp [here, RestingOrders.erase]
      · simp [here, RestingOrders.erase]
    exact same ▸ rest

private theorem queue_foldl_cancelOrder {ids : List OrderId} {ob : OrderBook} {v : RestingOrders}
    (shows : ob.Shows v) (d : OrderDirection) (p : Int) :
    (ids.foldl OrderBook.cancelOrder ob).queue d p =
      (ob.queue d p).filter (fun bo => bo.orderId ∉ ids) := by
  induction ids generalizing ob v with
  | nil => simp
  | cons id ids ih =>
    rw [List.foldl_cons, ih (shows.cancelOrder id), shows.represents.queue_cancelOrder,
      List.filter_filter]
    congr 1
    funext bo
    simp [Bool.and_comm]

theorem foldl_cancelOrder_perm {ids ids' : List OrderId} {ob : OrderBook} {v : RestingOrders}
    (shows : ob.Shows v) (perm : ids.Perm ids') :
    ids.foldl OrderBook.cancelOrder ob = ids'.foldl OrderBook.cancelOrder ob := by
  have left : ∀ l : List OrderId, l.Perm ids → (l.foldl OrderBook.cancelOrder ob).Shows
      (fun j => if j ∈ ids then none else v j) := by
    intro l same
    simp only [← same.mem_iff]
    exact foldl_cancelOrder_shows shows
  have first := left ids (.refl ids)
  have second := left ids' perm.symm
  refine first.represents.unique second.represents first.exact second.exact (fun d p => ?_)
  rw [queue_foldl_cancelOrder shows, queue_foldl_cancelOrder shows]
  simp only [perm.mem_iff]

theorem mem_batchRows {marketId : MarketId} {userId : UserId} {scope : CancelScope} {db : Db}
    {e : OrderId × OrderRow} : e ∈ batchRows marketId userId scope db ↔
      db.orders.get? e.1 = some e.2 ∧ e.2.userId = userId ∧ e.2.marketId = marketId ∧
        e.2.isActive = true ∧ inScope scope e.2.originalDirection = true := by
  rw [batchRows, List.mem_filter, ← Table.mem_iff]
  simp

theorem batchCancel_inSync {marketId : MarketId} {userId : UserId} {scope : CancelScope}
    {report : BatchCancelled} {m : MarketId}
    (done : batchCancel marketId userId scope w = (.ok report, w')) (sync : w.InSync m) :
    w'.InSync m := by
  unfold batchCancel at done
  simp only at done
  split at done
  · cases done
    exact sync
  · split at done
    · next db ran =>
      cases done
      simp only [bind_eq_ok] at ran
      obtain ⟨db₁, marked, moved⟩ := ran
      obtain ⟨h, _, rfl⟩ := Db.onHoldings_ok moved
      obtain ⟨_, _, rows⟩ := markCancelled_ok _ marked
      generalize hrows : batchRows marketId userId scope w.db = selected at *
      have view : ∀ i j, ({ db₁ with holdings := h } : Db).resting i j =
          if j ∈ selected.map Prod.fst then none else w.db.resting i j := by
        intro i j
        refine resting_of_ended (fun k member r got => ?_) (fun k other => ?_) i j
        · rw [rows, if_pos member] at got
          obtain ⟨a, _, rfl⟩ := Option.map_eq_some_iff.mp got
          rfl
        · rw [rows, if_neg other]
      have home : ∀ i, i ≠ marketId → ∀ j ∈ selected.map Prod.fst, w.db.resting i j = none := by
        intro i away j member
        obtain ⟨e, inside, rfl⟩ := List.mem_map.mp member
        rw [← hrows] at inside
        obtain ⟨got, _, home, _⟩ := mem_batchRows.mp inside
        simp only [Db.resting, got, Option.bind_some]
        exact OrderRow.restsIn_of_ne (home ▸ away.symm)
      have here := sync
      unfold World.InSync World.getOrCreateOrderbook at here ⊢
      by_cases same : m = marketId
      · subst same
        have shown : ({ db₁ with holdings := h } : Db).resting m =
            fun j => if j ∈ selected.map Prod.fst then none else w.db.resting m j :=
          funext (view m)
        simp only [Function.update_self, shown]
        cases book : w.orderbooks m with
        | some ob =>
          rw [book] at here
          exact foldl_cancelOrder_shows here
        | none =>
          rw [book] at here
          have empty : w.db.resting m = fun _ => none := by
            funext j
            cases got : w.db.resting m j with
            | none => rfl
            | some x =>
              obtain ⟨bo, queued, _⟩ := here.represents.present got
              cases direction : x.direction <;>
                simp [direction, OrderBook.empty, OrderBook.queue] at queued
          simpa [empty] using OrderBook.Shows.empty
      · have shown : ({ db₁ with holdings := h } : Db).resting m = w.db.resting m := by
          funext j
          rw [view]
          split
          · next member => exact (home m same j member).symm
          · rfl
        simp only [Function.update_of_ne same, shown]
        exact here
    · cases done

end MatchingEngine

inductive BookOp
  | place (req : PlaceOrderRequest) (userId : UserId) (clock : Clock)
  | cancel (orderId : OrderId) (userId : UserId)
  | replace (oldOrderId : OrderId) (req : PlaceOrderRequest) (userId : UserId) (clock : Clock)
  | batchCancel (marketId : MarketId) (userId : UserId) (scope : CancelScope)

def committed : Steps World BookOp
  | w, .place req userId clock, w' =>
    ∃ placed, OrderService.placeOrder req userId clock .none w = (.ok placed, w')
  | w, .cancel orderId userId, w' =>
    ∃ order, OrderService.cancelOrder orderId userId .none w = (.ok order, w')
  | w, .replace oldOrderId req userId clock, w' =>
    ∃ replaced, OrderService.replaceOrder oldOrderId req userId clock w = (.ok replaced, w')
  | w, .batchCancel marketId userId scope, w' =>
    ∃ report, OrderService.batchCancel marketId userId scope w = (.ok report, w')

theorem World.finish_ok {α : Type} {w w' : World} {fault : Fault}
    {outcome : Except Err α × World} {a : α} (done : w.finish fault outcome = (.ok a, w')) :
    outcome = (.ok a, w') := by
  obtain ⟨result, after⟩ := outcome
  cases result with
  | error e => cases done
  | ok b =>
    unfold World.finish at done
    simp only at done
    split at done
    · cases done
    · exact done

theorem OrderService.placeOrder_ok {req : PlaceOrderRequest} {userId : UserId} {clock : Clock}
    {fault : Fault} {w w' : World} {placed : Placed}
    (done : OrderService.placeOrder req userId clock fault w = (.ok placed, w')) :
    w' = w ∨ MatchingEngine.placeOrder (req.draft w.nextId userId clock) w.generateId.2 =
      (.ok placed, w') := by
  unfold OrderService.placeOrder at done
  split at done
  · cases done
  · split at done
    · split at done
      · cases done
      · cases done
        exact Or.inl rfl
    · simp only at done
      split at done
      · cases done
      · exact Or.inr (World.finish_ok done)

theorem OrderService.cancelOrder_ok {orderId : OrderId} {userId : UserId} {fault : Fault}
    {w w' : World} {order : Order}
    (done : OrderService.cancelOrder orderId userId fault w = (.ok order, w')) :
    MatchingEngine.cancelOrder orderId userId w = (.ok order, w') := by
  unfold OrderService.cancelOrder at done
  split at done
  · cases done
  · split at done
    · cases done
    · exact World.finish_ok done

theorem committed_inSync {w w' : World} {op : BookOp} (step : committed w op w')
    (sync : ∀ m, w.InSync m) (m : MarketId) : w'.InSync m := by
  cases op with
  | place req userId clock =>
    obtain ⟨placed, done⟩ := step
    rcases OrderService.placeOrder_ok done with rfl | engine
    · exact sync m
    · exact MatchingEngine.placeOrder_inSync engine (sync _) (sync m)
  | cancel orderId userId =>
    obtain ⟨order, done⟩ := step
    exact MatchingEngine.cancelOrder_inSync (OrderService.cancelOrder_ok done) (sync m)
  | replace oldOrderId req userId clock =>
    obtain ⟨replaced, done⟩ := step
    exact MatchingEngine.replaceOrder_inSync (World.finish_ok done) (sync _) (sync m)
  | batchCancel marketId userId scope =>
    obtain ⟨report, done⟩ := step
    exact MatchingEngine.batchCancel_inSync (World.finish_ok done) (sync m)

theorem World.inSync_of_empty {w : World} (books : ∀ m, w.getOrCreateOrderbook m = .empty)
    (orders : w.db.orders.rows = []) (m : MarketId) : w.InSync m := by
  have none : w.db.resting m = fun _ => none := by
    funext j
    have absent : w.db.orders.get? j = none := by simp [Table.get?, orders]
    simp [Db.resting, absent]
  unfold World.InSync
  rw [books m, none]
  exact .empty

/-- After any run of operations that succeed, the book in memory has the content
of the book that a rebuild makes of the orders table. -/
theorem book_simulates_table {w w' : World} {ops : List BookOp}
    (books : ∀ m, w.getOrCreateOrderbook m = .empty) (orders : w.db.orders.rows = [])
    (run : Run committed w ops w') (m : MarketId) :
    OrderBook.SameContent (w'.getOrCreateOrderbook m) (rebuildOrderbook m w'.db) := by
  have sync := run.preserves
    (fun _ _ _ step sync => committed_inSync step sync) (World.inSync_of_empty books orders)
  have rebuilt := rebuildOrderbook_shows m w'.db
  exact (sync m).represents.sameContent rebuilt.represents (sync m).exact rebuilt.exact

section Example

def openMarket : World where
  orderbooks := fun _ => none
  db :=
    { holdings := ⟨Table.empty.add "alice" ⟨10000, 0, true⟩ rfl (by decide), .empty⟩
      markets := Table.empty.add "m" ⟨.active, 0, 0, 0, 0, 20, none⟩ (Table.get?_empty _)
        (by decide)
      orders := .empty
      trades := []
      ledger := []
      wal := [] }
  nextId := 1

def buyTenYes : PlaceOrderRequest := ⟨"c1", "m", .yes, .buy, 40, 10, .gtc⟩

def twoTraders : World :=
  { openMarket with
    db :=
      { openMarket.db with
        holdings := ⟨(openMarket.db.holdings.accounts.add "bob" ⟨20000, 0, true⟩ (by decide)
          (by decide)).add PLATFORM_FEE_USER_ID ⟨1, 0, false⟩ (by decide) (by decide), .empty⟩ } }

/-- Twenty NO shares at 60 cents, which rest as a sale of YES at 40. -/
def bidTwentyNo : PlaceOrderRequest := ⟨"c2", "m", .no, .buy, 60, 20, .gtc⟩

def buyOneOfThem : PlaceOrderRequest := ⟨"c3", "m", .yes, .buy, 40, 1, .gtc⟩

def oneBidOfTwenty : World :=
  (OrderService.placeOrder bidTwentyNo "bob" ⟨0, 0⟩ .none twoTraders).2

def oneOfThemFilled : World :=
  (OrderService.placeOrder buyOneOfThem "alice" ⟨1, 1⟩ .none oneBidOfTwenty).2

end Example

/-- A bid that rests and is filled in part. -/
theorem filled_bid_simulated :
    ∃ w', Run committed twoTraders
        [.place bidTwentyNo "bob" ⟨0, 0⟩, .place buyOneOfThem "alice" ⟨1, 1⟩] w' ∧
      w'.db.trades.length = 1 ∧
      OrderBook.SameContent (w'.getOrCreateOrderbook "m") (rebuildOrderbook "m" w'.db) := by
  have rests : (OrderService.placeOrder bidTwentyNo "bob" ⟨0, 0⟩ .none twoTraders).1.isOk =
      true := by decide +kernel
  have fills : (OrderService.placeOrder buyOneOfThem "alice" ⟨1, 1⟩ .none oneBidOfTwenty).1.isOk =
      true := by decide +kernel
  obtain ⟨resting, rested⟩ := exists_of_isOk rests
  obtain ⟨filled, done⟩ := exists_of_isOk fills
  have run : Run committed twoTraders
      [.place bidTwentyNo "bob" ⟨0, 0⟩, .place buyOneOfThem "alice" ⟨1, 1⟩] oneOfThemFilled :=
    .cons ⟨resting, Prod.ext rested rfl⟩ (.single ⟨filled, Prod.ext done rfl⟩)
  have traded : oneOfThemFilled.db.trades.length = 1 := by decide +kernel
  exact ⟨_, run, traded, book_simulates_table (fun _ => rfl) rfl run "m"⟩

end PredictionMarket
