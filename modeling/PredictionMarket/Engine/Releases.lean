/- PredictionMarket/Engine/Releases
   digest: Which orders each request releases, and that a session releases each at most once. -/

import PredictionMarket.Engine.OrderLifecycle

set_option autoImplicit false
set_option relaxedAutoImplicit false

namespace PredictionMarket

open Library

/-- The orders whose remaining frozen assets a request gives back, by its outcome: a
placement when it ends its own IOC order, a cancel its order, a replacement its old
order and what a placement would, a batch the rows it selects, a resolution the
orders it scans. -/
def Session.released (s : Session) : SessionOp → List OrderId
  | .place req userId clock =>
    match s.world.db.getByClientOrderId req.clientOrderId userId,
        (OrderService.placeOrder req userId clock .none s.world).1 with
    | none, .ok placed => if placed.order.status = .cancelled then [placed.order.id] else []
    | _, _ => []
  | .cancel orderId userId =>
    match (OrderService.cancelOrder orderId userId .none s.world).1 with
    | .ok _ => [orderId]
    | .error _ => []
  | .replace oldOrderId req userId clock =>
    match (OrderService.replaceOrder oldOrderId req userId clock s.world).1 with
    | .ok replaced =>
      oldOrderId :: if replaced.placed.order.status = .cancelled then [replaced.placed.order.id]
        else []
    | .error _ => []
  | .batchCancel marketId userId scope =>
    match (OrderService.batchCancel marketId userId scope s.world).1 with
    | .ok _ => (MatchingEngine.batchRows marketId userId scope s.world.db).map Prod.fst
    | .error _ => []
  | .privileged _ => []
  | .resolve marketId outcome =>
    match (AdminService.resolveMarket marketId outcome .none s.world).1 with
    | .ok _ => (AdminService.openOrders marketId s.world.db).map Prod.fst
    | .error _ => []

def Session.releasedIn (s : Session) : List SessionOp → List OrderId
  | [] => []
  | op :: ops => s.released op ++ (s.next op).releasedIn ops

/-- A replacement does not name a cancelled order that was never filled, of its own
user and in the market of the new order: the checks of the engine let that one
through. -/
def SparesCancelled (s : Session) : SessionOp → Prop
  | .replace oldOrderId req userId _ => ∀ row, s.world.db.orders.get? oldOrderId = some row →
    row.userId = userId → row.marketId = req.marketId → row.filledQuantity = 0 →
    row.status ≠ .cancelled
  | _ => True

def Db.Closed (db : Db) (id : OrderId) : Prop :=
  ∃ row, db.orders.get? id = some row ∧ row.isActive = false

def Db.Cancelled (db : Db) (id : OrderId) : Prop :=
  ∃ row, db.orders.get? id = some row ∧ row.status = .cancelled

theorem Db.Cancelled.closed {db : Db} {id : OrderId} (cancelled : db.Cancelled id) :
    db.Closed id := by
  obtain ⟨row, got, status⟩ := cancelled
  exact ⟨row, got, by simp [OrderRow.isActive, status, OrderStatus.isActive]⟩

private theorem Db.KeepsClosed.closed {db db' : Db} {id : OrderId} (keeps : db.KeepsClosed db')
    (closed : db.Closed id) : db'.Closed id := by
  obtain ⟨row, got, ended⟩ := closed
  obtain ⟨row', got', status, _⟩ := keeps id row got ended
  refine ⟨row', got', ?_⟩
  unfold OrderRow.isActive at ended ⊢
  rw [status]
  exact ended

/-- Orders that are released together: none of them twice, all of them open before
and closed after. -/
structure Db.Releases (db : Db) (ids : List OrderId) (db' : Db) : Prop where
  nodup : ids.Nodup
  before : ∀ id ∈ ids, ¬ db.Closed id
  after : ∀ id ∈ ids, db'.Closed id

private theorem Db.Releases.none (db db' : Db) : db.Releases [] db' :=
  ⟨List.nodup_nil, fun _ member => absurd member List.not_mem_nil,
    fun _ member => absurd member List.not_mem_nil⟩

theorem Db.not_closed {db : Db} {id : OrderId} {row : OrderRow}
    (got : db.orders.get? id = some row) (active : row.isActive = true) : ¬ db.Closed id := by
  rintro ⟨row', got', ended⟩
  obtain rfl := Option.some.inj (got.symm.trans got')
  rw [active] at ended
  cases ended

private theorem Db.Releases.ofRows {db db' : Db} {rows : List (OrderId × OrderRow)}
    (nodup : (rows.map Prod.fst).Nodup)
    (stored : ∀ e ∈ rows, db.orders.get? e.1 = some e.2 ∧ e.2.isActive = true)
    (after : ∀ e ∈ rows, db'.Closed e.1) : db.Releases (rows.map Prod.fst) db' := by
  refine ⟨nodup, fun id member => ?_, fun id member => ?_⟩
  · obtain ⟨e, inside, rfl⟩ := List.mem_map.mp member
    exact Db.not_closed (stored e inside).1 (stored e inside).2
  · obtain ⟨e, inside, rfl⟩ := List.mem_map.mp member
    exact after e inside

section Placement

variable {draft : OrderDraft} {ob ob' : OrderBook} {db db' : Db}

private theorem clearFills_status {ts : List TradeResult} {order order' : Order} {n n' : Int}
    {market market' : MarketState}
    (done : clearFills order ts n market db = .ok (order', n', market', db')) :
    order'.status = order.status := by
  rw [clearFills_order done]
  split
  · rfl
  · rfl

theorem clearFills_spared {v : RestingOrders} {order : Order} {n n' : Int}
    {market market' : MarketState} {db db' : Db} (shows : ob.Shows v)
    (fills : clearFills (matchOrder draft.accepted ob).incoming
      (matchOrder draft.accepted ob).trades n market db = .ok (order, n', market', db')) :
    (matchOrder draft.accepted ob).incoming.status ≠ .cancelled ∧ order.status ≠ .cancelled := by
  obtain ⟨v', run, _⟩ := matchOrder_spec draft.accepted ob v shows.represents shows.exact
  rw [clearFills_status fills]
  obtain ⟨_, _, idle, marked⟩ := run.progress
  by_cases none : (matchOrder draft.accepted ob).trades = []
  · rw [(idle none).1, draft.accepted_fields.2.2.2.2.2.2.2]
    simp
  · rw [marked none]
    split <;> simp

private theorem placeOrderInner_placed {placed : Placed} {v : RestingOrders}
    (done : placeOrderInner draft ob db = (.ok (placed, db'), ob')) (shows : ob.Shows v)
    (absent : v draft.id = none) (backs : db.Backs False draft.marketId v) (funded : db.Funded)
    (lived : db.Lived) : placed.order.id = draft.id ∧ db.orders.get? draft.id = none ∧
      (placed.order.status = .cancelled → db'.Closed draft.id) := by
  obtain ⟨⟨market, db₁, order, n, market₁, db₂, order', db₃, accepted, fills, finalized, flushed,
    rfl⟩, _⟩ := placeOrderInner_phases done
  have cleared := clearFills_lived accepted fills shows absent backs funded lived
  have status := (clearFills_spared shows fills).2
  obtain ⟨_, final⟩ := finalizeOrder_ok finalized
  obtain ⟨markets, _, rfl⟩ := Db.flushMarket_ok flushed
  split at final
  · obtain ⟨rfl, _, updated⟩ := final
    refine ⟨cleared.id, cleared.fresh, fun _ => ?_⟩
    obtain ⟨row, got, _⟩ := cleared.taker
    have after := Table.get?_update? updated draft.id
    rw [cleared.id, if_pos rfl, got] at after
    exact ⟨_, after, rfl⟩
  · obtain ⟨rfl, _⟩ := final
    exact ⟨cleared.id, cleared.fresh, fun ended => absurd ended status⟩

end Placement

section Requests

variable {w w' : World}

theorem OrderService.placeOrder_fresh {req : PlaceOrderRequest} {userId : UserId} {clock : Clock}
    {placed : Placed} (fresh : w.db.getByClientOrderId req.clientOrderId userId = none)
    (done : OrderService.placeOrder req userId clock .none w = (.ok placed, w')) :
    ∃ db ob, placeOrderInner (req.draft w.nextId userId clock)
      (w.getOrCreateOrderbook req.marketId) w.db = (.ok (placed, db), ob) ∧ w'.db = db := by
  unfold OrderService.placeOrder at done
  simp only [fresh, reduceCtorEq, if_false] at done
  have engine := World.finish_ok done
  unfold MatchingEngine.placeOrder at engine
  split at engine
  · next placed' db ob inner =>
    cases engine
    exact ⟨db, ob, inner, rfl⟩
  · cases engine

theorem MatchingEngine.cancelOrder_ends {orderId : OrderId} {userId : UserId} {order : Order}
    (done : MatchingEngine.cancelOrder orderId userId w = (.ok order, w')) :
    ∃ row, row.userId = userId ∧ row.isActive = true ∧ w.db.Ends orderId row w'.db ∧
      w' = { w.keepBook row.marketId ((w.getOrCreateOrderbook row.marketId).cancelOrder orderId) with
        db := w'.db } := by
  unfold MatchingEngine.cancelOrder at done
  split at done
  · cases done
  · next stored got =>
    obtain ⟨row, found, rfl⟩ := Option.map_eq_some_iff.mp got
    split at done
    · cases done
    · next owner =>
      split at done
      · cases done
      · next cancellable =>
        have active : (rowToOrder orderId row).isCancellable = true := by simpa using cancellable
        simp only at done
        split at done
        · next cancelled db ended =>
          cases done
          exact ⟨row, not_not.mp owner, active, ⟨found, order, ended⟩, rfl⟩
        · cases done
        · cases done

theorem OrderService.replaceOrder_runs {oldOrderId : OrderId} {req : PlaceOrderRequest}
    {userId : UserId} {clock : Clock} {replaced : MatchingEngine.Replaced}
    (done : OrderService.replaceOrder oldOrderId req userId clock w = (.ok replaced, w')) :
    ∃ row db₁ ob, row.status ≠ .filled ∧ row.filledQuantity ≤ 0 ∧ row.marketId = req.marketId ∧
      row.userId = userId ∧ w.db.Ends oldOrderId row db₁ ∧
      placeOrderInner (req.draft w.nextId userId clock)
        ((w.getOrCreateOrderbook row.marketId).cancelOrder oldOrderId) db₁ =
          (.ok (replaced.placed, w'.db), ob) := by
  have engine := World.finish_ok done
  rcases MatchingEngine.replaceOrder_world oldOrderId (req.draft w.nextId userId clock)
    w.generateId.2 with ⟨⟨e, refused⟩, _⟩ | ⟨row, db₁, cancelled, placed, db, ob, unused,
      untouched, home, owner, ends, inner, equal⟩
  · exact absurd ((congrArg Prod.fst engine).symm.trans refused) (by simp)
  · cases engine.symm.trans equal
    exact ⟨row, db₁, ob, unused, untouched, home, owner, ends, inner⟩

private theorem Db.Ends.closed {db db' : Db} {id : OrderId} {row : OrderRow}
    (ends : db.Ends id row db') :
    db'.Closed id :=
  ⟨_, (ends.get?_orders id).trans (if_pos rfl), rfl⟩

private theorem OrderService.batchCancel_releases {marketId : MarketId} {userId : UserId}
    {scope : CancelScope} {report : MatchingEngine.BatchCancelled}
    (done : OrderService.batchCancel marketId userId scope w = (.ok report, w')) :
    w.db.Releases ((MatchingEngine.batchRows marketId userId scope w.db).map Prod.fst) w'.db := by
  have engine := World.finish_ok done
  unfold MatchingEngine.batchCancel at engine
  simp only at engine
  split at engine
  · next idle =>
    rw [idle]
    exact .none _ _
  · split at engine
    · next db ran =>
      cases engine
      simp only [bind_eq_ok] at ran
      obtain ⟨db₁, marked, moved⟩ := ran
      obtain ⟨h, _, rfl⟩ := Db.onHoldings_ok moved
      refine .ofRows (w.db.orders.nodup.sublist (List.filter_sublist.map _)) (fun e member => ?_)
        (fun e member => ?_)
      · obtain ⟨got, _, _, active, _⟩ := MatchingEngine.mem_batchRows.mp member
        exact ⟨got, active⟩
      · have rows := (markCancelled_ok _ marked).2.2 e.1
        rw [if_pos (List.mem_map_of_mem (f := Prod.fst) member),
          (MatchingEngine.mem_batchRows.mp member).1] at rows
        exact ⟨_, rows, rfl⟩
    · cases engine

private theorem cancelAndUnfreeze_cancels {marketId : MarketId} {db db' : Db}
    {e : OrderId × OrderRow} (done : AdminService.cancelAndUnfreeze marketId db e = .ok db') :
    (∀ j, db.Cancelled j → db'.Cancelled j) ∧
      ∀ row, db.orders.get? e.1 = some row → db'.Cancelled e.1 := by
  have rows := Table.get?_update? (AdminService.cancelAndUnfreeze_ok done).2.1
  constructor
  · rintro j ⟨row, got, ended⟩
    by_cases here : j = e.1
    · subst here
      exact ⟨_, (rows e.1).trans (by rw [if_pos rfl, got, Option.map_some]), rfl⟩
    · exact ⟨row, (rows j).trans ((if_neg here).trans got), ended⟩
  · intro row got
    exact ⟨_, (rows e.1).trans (by rw [if_pos rfl, got, Option.map_some]), rfl⟩

private theorem cancelAll_cancels {marketId : MarketId} {db db' : Db}
    (l : List (OrderId × OrderRow))
    (stored : ∀ e ∈ l, ∃ row, db.orders.get? e.1 = some row)
    (done : l.foldlM (AdminService.cancelAndUnfreeze marketId) db = .ok db') :
    ∀ e ∈ l, db'.Cancelled e.1 := by
  induction l generalizing db with
  | nil =>
    intro e member
    cases member
  | cons a l ih =>
    simp only [List.foldlM_cons, bind_eq_ok] at done
    obtain ⟨db₁, first, rest⟩ := done
    obtain ⟨row, got⟩ := stored a List.mem_cons_self
    have cancelled := (cancelAndUnfreeze_cancels first).2 row got
    intro e member
    rcases List.mem_cons.mp member with rfl | later
    · exact foldlM_preserves (P := fun d => d.Cancelled e.1)
        (fun _ _ _ _ step => (cancelAndUnfreeze_cancels step).1 e.1) rest cancelled
    · refine ih (fun b inside => ?_) rest e later
      obtain ⟨r, found⟩ := stored b (List.mem_cons_of_mem _ inside)
      have rows := Table.get?_update? (AdminService.cancelAndUnfreeze_ok first).2.1 b.1
      by_cases same : b.1 = a.1
      · rw [if_pos same, got] at rows
        exact ⟨_, rows⟩
      · rw [if_neg same, found] at rows
        exact ⟨r, rows⟩

theorem AdminService.resolve_cancels {marketId : MarketId} {outcome : OriginalSide} {db db' : Db}
    (done : AdminService.resolveInTransaction marketId outcome db = .ok db') :
    ∀ e ∈ AdminService.openOrders marketId db, db'.Cancelled e.1 := by
  intro e member
  obtain ⟨db₁, cancelled, settled⟩ := AdminService.resolveInTransaction_ok done
  obtain ⟨row, got, status⟩ := cancelAll_cancels _ (fun e member =>
    ⟨e.2, (AdminService.mem_openOrders.mp member).1⟩) cancelled e member
  exact ⟨row, by rw [(AdminService.settleMarket_ok settled).1]; exact got, status⟩

private theorem AdminService.resolveMarket_releases {marketId : MarketId} {outcome : OriginalSide}
    {u : Unit} (done : AdminService.resolveMarket marketId outcome .none w = (.ok u, w')) :
    w.db.Releases ((AdminService.openOrders marketId w.db).map Prod.fst) w'.db := by
  unfold AdminService.resolveMarket at done
  simp only [reduceCtorEq, if_false] at done
  split at done
  · cases done
  · split at done
    · cases done
    · have engine := World.finish_ok done
      split at engine
      · next db ran =>
        cases engine
        refine .ofRows (w.db.orders.nodup.sublist (List.filter_sublist.map _))
          (fun e member => ?_) (fun e member => (AdminService.resolve_cancels ran e member).closed)
        obtain ⟨got, _, active⟩ := AdminService.mem_openOrders.mp member
        exact ⟨got, active⟩
      · cases engine

end Requests

private theorem placed_releases {draft : OrderDraft} {ob ob' : OrderBook} {db db' : Db}
    {placed : Placed}
    {v : RestingOrders} (inner : placeOrderInner draft ob db = (.ok (placed, db'), ob'))
    (shows : ob.Shows v) (absent : v draft.id = none) (backs : db.Backs False draft.marketId v)
    (funded : db.Funded) (lived : db.Lived) : db.Releases
      (if placed.order.status = .cancelled then [placed.order.id] else []) db' := by
  obtain ⟨id', fresh, closed⟩ := placeOrderInner_placed inner shows absent backs funded lived
  split
  · next ended =>
    rw [id']
    refine ⟨List.nodup_singleton _, fun id member => ?_, fun id member => ?_⟩
    · obtain rfl := List.mem_singleton.mp member
      rintro ⟨row, got, _⟩
      rw [fresh] at got
      cases got
    · obtain rfl := List.mem_singleton.mp member
      exact closed ended
  · exact .none _ _

private theorem replaced_releases {w : World} {oldOrderId : OrderId} {row : OrderRow}
    {draft : OrderDraft}
    {placed : Placed} {db₁ db : Db} {ob : OrderBook} (acc : w.Accounted False)
    (lived : w.db.Lived) (next : draft.id = w.nextId) (home : row.marketId = draft.marketId)
    (unused : row.status ≠ .filled) (active : row.isActive = true)
    (ends : w.db.Ends oldOrderId row db₁)
    (inner : placeOrderInner draft ((w.getOrCreateOrderbook row.marketId).cancelOrder oldOrderId)
      db₁ = (.ok (placed, db), ob)) :
    w.db.Releases (oldOrderId ::
      if placed.order.status = .cancelled then [placed.order.id] else []) db := by
  obtain ⟨lived₁, keeps⟩ := ends.lived unused lived
  obtain ⟨order, ended⟩ := ends.2
  obtain ⟨_, v, shows, absent, backs⟩ := acc.replaced next home ends inner
  have funded₁ := cancelInSavepoint_funded ended acc.funded
  have second := placed_releases inner shows absent backs funded₁ lived₁
  have later := (placeOrderInner_lived inner shows absent backs funded₁ lived₁).2
  refine ⟨List.nodup_cons.mpr ⟨fun again => second.before _ again ends.closed,
    second.nodup⟩, fun id member => ?_, fun id member => ?_⟩
  · rcases List.mem_cons.mp member with rfl | new
    · exact Db.not_closed ends.1 active
    · exact fun before => second.before id new (keeps.closed before)
  · rcases List.mem_cons.mp member with rfl | new
    · exact later.closed ends.closed
    · exact second.after id new

private theorem sessionStep_releases {s : Session} {op : SessionOp} (acc : s.world.Accounted False)
    (lived : s.world.db.Lived) (spares : SparesCancelled s op) :
    s.world.db.Releases (s.released op) (s.next op).world.db := by
  obtain ⟨w, entries⟩ := s
  simp only at acc lived
  cases op with
  | place req userId clock =>
    simp only [Session.released, Session.next]
    cases fresh : w.db.getByClientOrderId req.clientOrderId userId with
    | some order => exact .none _ _
    | none =>
      cases done : OrderService.placeOrder req userId clock .none w with
      | mk outcome w' =>
        cases outcome with
        | error e => exact .none _ _
        | ok placed =>
          obtain ⟨db, ob, inner, rfl⟩ := OrderService.placeOrder_fresh fresh done
          obtain ⟨_, _, v, shows, absent, backs⟩ :=
            acc.place (show (req.draft w.nextId userId clock).id = w.nextId from rfl) inner
          exact placed_releases inner shows absent backs acc.funded lived
  | cancel orderId userId =>
    simp only [Session.released, Session.next]
    cases done : OrderService.cancelOrder orderId userId .none w with
    | mk outcome w' =>
      cases outcome with
      | error e => exact .none _ _
      | ok order =>
        obtain ⟨row, _, active, ends, _⟩ :=
          MatchingEngine.cancelOrder_ends (OrderService.cancelOrder_ok done)
        exact @Db.Releases.ofRows _ _ [(orderId, row)] (List.nodup_singleton _)
          (fun e member => by
            obtain rfl := List.mem_singleton.mp member
            exact ⟨ends.1, active⟩)
          (fun e member => by
            obtain rfl := List.mem_singleton.mp member
            exact ends.closed)
  | replace oldOrderId req userId clock =>
    simp only [Session.released, Session.next]
    cases done : OrderService.replaceOrder oldOrderId req userId clock w with
    | mk outcome w' =>
      cases outcome with
      | error e => exact .none _ _
      | ok replaced =>
        obtain ⟨row, db₁, ob, unused, untouched, home, owner, ends, inner⟩ :=
          OrderService.replaceOrder_runs done
        have known := lived.rows oldOrderId row ends.1
        have spared := spares row ends.1 owner home
          (le_antisymm untouched (Table.check ends.1).filled_nonneg)
        have active : row.isActive = true := by
          rw [known.active_iff]
          rcases known.status with fresh | partly | used | ended
          · exact Or.inl fresh
          · exact Or.inr partly
          · exact absurd used unused
          · exact absurd ended spared
        exact replaced_releases acc lived rfl home unused active ends inner
  | batchCancel marketId userId scope =>
    simp only [Session.released, Session.next]
    cases done : OrderService.batchCancel marketId userId scope w with
    | mk outcome w' =>
      cases outcome with
      | error e => exact .none _ _
      | ok report => exact OrderService.batchCancel_releases done
  | privileged call => exact .none _ _
  | resolve marketId outcome =>
    simp only [Session.released, Session.next]
    cases done : AdminService.resolveMarket marketId outcome .none w with
    | mk result w' =>
      cases result with
      | error e => exact .none _ _
      | ok u => exact AdminService.resolveMarket_releases done

/-- Along a session that spares cancelled orders, no order is released twice, and
none that was closed when it began. -/
private theorem releasedIn_nodup {s s' : Session} {ops : List SessionOp}
    (run : Run (Guarded SparesCancelled sessionStep) s ops s') (acc : s.world.Accounted False)
    (lived : s.world.db.Lived) :
    (s.releasedIn ops).Nodup ∧ ∀ id ∈ s.releasedIn ops, ¬ s.world.db.Closed id := by
  induction run with
  | nil s => exact ⟨List.nodup_nil, fun _ member => absurd member List.not_mem_nil⟩
  | @cons s t u op ops head tail ih =>
    obtain ⟨spares, step⟩ := head
    obtain ⟨lived', keeps⟩ := sessionStep_lived step acc lived
    obtain ⟨nodup, before⟩ := ih (sessionStep_moves step acc).1 lived'
    have released := sessionStep_releases acc lived spares
    rw [← step] at released
    unfold Session.releasedIn
    rw [← step]
    refine ⟨List.nodup_append.mpr ⟨released.nodup, nodup, fun a first b second same => ?_⟩,
      fun id member => ?_⟩
    · exact before b second (same ▸ released.after a first)
    · rcases List.mem_append.mp member with first | second
      · exact released.before id first
      · exact fun closed => before id second (keeps.closed closed)

/-- A replacement of an order that is not open is refused before anything happens,
but for the cancelled one that the checks let through. -/
private theorem replaceOrder_refused {oldOrderId : OrderId} {req : PlaceOrderRequest}
    {userId : UserId}
    {w : World} {row : OrderRow} {traded : Int} (clock : Clock)
    (got : w.db.orders.get? oldOrderId = some row) (lived : row.Lived traded)
    (notOpen : row.status ≠ .open)
    (spared : row.userId = userId → row.marketId = req.marketId → row.filledQuantity = 0 →
      row.status ≠ .cancelled) :
    (∃ e, (OrderService.replaceOrder oldOrderId req userId clock w).1 = .error (.app e)) ∧
      (OrderService.replaceOrder oldOrderId req userId clock w).2 =
        { w with nextId := w.nextId + 1 } := by
  have stored : w.generateId.2.db.getById oldOrderId = some (rowToOrder oldOrderId row) := by
    simp [World.generateId, Db.getById, got]
  have nonneg := (Table.check got).filled_nonneg
  unfold OrderService.replaceOrder MatchingEngine.replaceOrder
  simp only [stored]
  split
  · exact ⟨⟨_, rfl⟩, rfl⟩
  · next owner =>
    split
    · exact ⟨⟨_, rfl⟩, rfl⟩
    · next unused =>
      split
      · exact ⟨⟨_, rfl⟩, rfl⟩
      · next untouched =>
        split
        · exact ⟨⟨_, rfl⟩, rfl⟩
        · next home =>
          have zero : row.filledQuantity = 0 := le_antisymm (not_lt.mp untouched) nonneg
          rcases lived.status with status | status | status | status
          · exact absurd status notOpen
          · have partly := (lived.partly status).1
            omega
          · exact absurd status unused
          · exact absurd status (spared (not_not.mp owner) (not_not.mp home) zero)

/-- A closed order releases nothing: over every session whose replacements spare
cancelled orders, no order is released twice, no request releases an order that is
filled or cancelled, and the replacement of an order that is not open raises a
business error and changes neither the tables nor the books. -/
theorem closed_orders_release_nothing {s s' : Session} {ops : List SessionOp}
    (opening : s.Opening) (untraded : s.world.db.trades = [])
    (run : Run (Guarded SparesCancelled sessionStep) s ops s') :
    (s.releasedIn ops).Nodup ∧
    (∀ op, SparesCancelled s' op → ∀ id ∈ s'.released op, ∀ row,
      s'.world.db.orders.get? id = some row → row.status ≠ .filled ∧ row.status ≠ .cancelled) ∧
    ∀ oldOrderId req userId clock row, SparesCancelled s' (.replace oldOrderId req userId clock) →
      s'.world.db.orders.get? oldOrderId = some row → row.status ≠ .open →
      (∃ e, (OrderService.replaceOrder oldOrderId req userId clock s'.world).1 =
        .error (.app e)) ∧
      (s'.next (.replace oldOrderId req userId clock)).world.db = s'.world.db ∧
      (s'.next (.replace oldOrderId req userId clock)).world.orderbooks = s'.world.orderbooks := by
  have start := opening.lived untraded
  obtain ⟨acc, lived, _⟩ := session_lived run.ofGuarded opening.accounted start
  refine ⟨(releasedIn_nodup run opening.accounted start).1, fun op spares id member row got => ?_,
    fun oldOrderId req userId clock row spares got notOpen => ?_⟩
  · have before := (sessionStep_releases acc lived spares).before id member
    constructor
    · intro status
      exact before ⟨row, got, by simp [OrderRow.isActive, status, OrderStatus.isActive]⟩
    · intro status
      exact before ⟨row, got, by simp [OrderRow.isActive, status, OrderStatus.isActive]⟩
  · obtain ⟨raised, same⟩ :=
      replaceOrder_refused clock got (lived.rows oldOrderId row got) notOpen (spares row got)
    refine ⟨raised, ?_, ?_⟩
    · simp only [Session.next, same]
    · simp only [Session.next, same]

/-- A cancelled sale stays cancelled when somebody else wants to replace it. -/
theorem cancelled_sale_stays_closed :
    let ops := [sellFourYes, .cancel 1 "alice"]
    let s' := (pairMarket.next sellFourYes).next (.cancel 1 "alice")
    let req : PlaceOrderRequest := ⟨"r1", "m", .yes, .buy, 10, 1, .gtc⟩
    pairMarket.releasedIn ops = [1] ∧ (pairMarket.releasedIn ops).Nodup ∧
      ∃ e, (OrderService.replaceOrder 1 req "bob" ⟨2, 2⟩ s'.world).1 = .error (.app e) := by
  intro ops s' req
  have run : Run (Guarded SparesCancelled sessionStep) pairMarket ops s' :=
    .cons ⟨trivial, rfl⟩ (.single ⟨trivial, rfl⟩)
  obtain ⟨nodup, _, refused⟩ := closed_orders_release_nothing pairMarket_opening rfl run
  have sale : (s'.world.db.orders.get? 1).map (fun r => (r.userId, r.status)) =
      some ("alice", .cancelled) := by decide +kernel
  obtain ⟨row, got, fields⟩ := Option.map_eq_some_iff.mp sale
  have owner : row.userId = "alice" := congrArg Prod.fst fields
  have status : row.status = .cancelled := congrArg Prod.snd fields
  have spares : SparesCancelled s' (.replace 1 req "bob" ⟨2, 2⟩) := by
    intro row' got' bob
    obtain rfl := Option.some.inj (got.symm.trans got')
    rw [owner] at bob
    exact absurd bob (by decide)
  refine ⟨by decide +kernel, nodup, (refused 1 req "bob" ⟨2, 2⟩ row spares got ?_).1⟩
  rw [status]
  exact fun same => by cases same

/-- Two sales of four shares: replacing the first one after its cancel gives its
four shares back once more, out of those that the second one has on offer. -/
theorem cancelled_order_released_twice :
    ¬ ∀ (s s' : Session) (ops : List SessionOp), s.Opening → s.world.db.trades = [] →
      Run sessionStep s ops s' → (s.releasedIn ops).Nodup := by
  intro claim
  let again : SessionOp := .place ⟨"s2", "m", .yes, .sell, 60, 4, .gtc⟩ "alice" ⟨1, 1⟩
  let replace : SessionOp := .replace 1 ⟨"r1", "m", .yes, .buy, 10, 1, .gtc⟩ "alice" ⟨2, 2⟩
  have once := claim pairMarket _ [sellFourYes, again, .cancel 1 "alice", replace]
    pairMarket_opening rfl (.cons rfl (.cons rfl (.cons rfl (.single rfl))))
  have twice : pairMarket.releasedIn [sellFourYes, again, .cancel 1 "alice", replace] = [1, 1] := by
    decide +kernel
  rw [twice] at once
  exact absurd once (by decide)

end PredictionMarket
