/- PredictionMarket/Engine/AuditTrail
   digest: What a cancellation writes to the event log and to the ledger, request by request. -/

import PredictionMarket.Engine.Idempotency
import PredictionMarket.Engine.LedgerEntries

set_option autoImplicit false
set_option relaxedAutoImplicit false

namespace PredictionMarket

open Library

def WalEventType.isEnding : WalEventType → Bool
  | .orderCancelled | .orderExpired => true
  | _ => false

def Db.endings (db : Db) (id : OrderId) : List WalRow :=
  db.wal.filter (fun r => r.orderId = id ∧ r.eventType.isEnding)

def Db.unfreezes (db : Db) (id : OrderId) : List LedgerRow :=
  db.ledger.filter (fun r => r.referenceId = id ∧ r.entryType = .orderUnfreeze)

/-- The orders that are newly cancelled are reported once, with the entry of what
they had frozen, and no other order is. -/
structure Db.Audited (db db' : Db) : Prop where
  ended : ∀ id row, db'.orders.get? id = some row → row.status = .cancelled →
    ¬ db.Cancelled id → (∃ event, db'.endings id = db.endings id ++ [event]) ∧
      db'.unfreezes id = db.unfreezes id ++ (rowToOrder id row).unfreezeEntries
  others : ∀ id, (db'.Cancelled id → db.Cancelled id) →
    db'.endings id = db.endings id ∧ db'.unfreezes id = db.unfreezes id

/-- Nothing about the end of an order is written. -/
def Db.Unlogged (db db' : Db) : Prop :=
  ∀ id, db'.endings id = db.endings id ∧ db'.unfreezes id = db.unfreezes id

structure Db.Logs (db : Db) (order : Order) (db' : Db) : Prop where
  event : ∃ event, db'.endings order.id = db.endings order.id ++ [event]
  entry : db'.unfreezes order.id = db.unfreezes order.id ++ order.unfreezeEntries
  others : ∀ id, id ≠ order.id →
    db'.endings id = db.endings id ∧ db'.unfreezes id = db.unfreezes id

def Db.KeepsCancelled (db db' : Db) : Prop :=
  ∀ id row, db.orders.get? id = some row → row.status = .cancelled →
    db'.orders.get? id = some row

section Logs

variable {db db' db'' : Db} {order : Order} {event : WalRow}

private theorem Db.Unlogged.of_eq (wal : db'.wal = db.wal) (ledger : db'.ledger = db.ledger) :
    db.Unlogged db' := by
  intro id
  unfold endings unfreezes
  rw [wal, ledger]
  exact ⟨rfl, rfl⟩

private theorem Db.Unlogged.trans (first : db.Unlogged db') (second : db'.Unlogged db'') :
    db.Unlogged db'' := fun id =>
  ⟨(second id).1.trans (first id).1, (second id).2.trans (first id).2⟩

private theorem Db.Unlogged.of_event (wal : db'.wal = db.wal ++ [event])
    (ledger : db'.ledger = db.ledger)
    (other : event.eventType.isEnding = false) : db.Unlogged db' := by
  intro id
  unfold endings unfreezes
  rw [wal, ledger, List.filter_append]
  simp [other]

private theorem Db.Unlogged.logs (quiet : db.Unlogged db') (logged : db'.Logs order db'') :
    db.Logs order db'' := by
  obtain ⟨event, reported⟩ := logged.event
  refine ⟨⟨event, ?_⟩, ?_, fun id other => ?_⟩
  · rw [reported, (quiet order.id).1]
  · rw [logged.entry, (quiet order.id).2]
  · obtain ⟨events, entries⟩ := logged.others id other
    exact ⟨events.trans (quiet id).1, entries.trans (quiet id).2⟩

private theorem Db.Logs.unlogged (logged : db.Logs order db') (quiet : db'.Unlogged db'') :
    db.Logs order db'' := by
  obtain ⟨event, reported⟩ := logged.event
  refine ⟨⟨event, ?_⟩, ?_, fun id other => ?_⟩
  · rw [(quiet order.id).1, reported]
  · rw [(quiet order.id).2, logged.entry]
  · obtain ⟨events, entries⟩ := logged.others id other
    exact ⟨(quiet id).1.trans events, (quiet id).2.trans entries⟩

private theorem Db.Logs.of_append (wal : db'.wal = db.wal ++ [event])
    (ledger : db'.ledger = db.ledger ++ order.unfreezeEntries) (about : event.orderId = order.id)
    (ending : event.eventType.isEnding = true) : db.Logs order db' := by
  refine ⟨⟨event, ?_⟩, ?_, fun id other => ?_⟩
  · unfold endings
    rw [wal, List.filter_append]
    simp [about, ending]
  · unfold unfreezes Order.unfreezeEntries at *
    rw [ledger, List.filter_append]
    split
    · simp
    · simp
  · unfold endings unfreezes Order.unfreezeEntries at *
    rw [wal, ledger, List.filter_append, List.filter_append]
    have stranger : event.orderId ≠ id := fun same => other (same.symm.trans about)
    refine ⟨by simp [stranger], ?_⟩
    split
    · simp [other.symm]
    · simp

private theorem Db.Audited.of_unlogged (quiet : db.Unlogged db')
    (old : ∀ id, db'.Cancelled id → db.Cancelled id) : db.Audited db' :=
  ⟨fun id row got cancelled new => absurd (old id ⟨row, got, cancelled⟩) new,
    fun id _ => quiet id⟩

private theorem Db.Audited.refl (db : Db) : db.Audited db :=
  .of_unlogged (.of_eq rfl rfl) (fun _ cancelled => cancelled)

private theorem Db.Audited.of_logs {row : OrderRow} (logged : db.Logs order db')
    (got : db'.orders.get? order.id = some row) (cancelled : row.status = .cancelled)
    (due : (rowToOrder order.id row).unfreezeEntries = order.unfreezeEntries)
    (new : ¬ db.Cancelled order.id)
    (old : ∀ j, j ≠ order.id → db'.Cancelled j → db.Cancelled j) : db.Audited db' := by
  constructor
  · intro j row' got' cancelled' new'
    by_cases here : j = order.id
    · subst here
      obtain rfl := Option.some.inj (got.symm.trans got')
      exact ⟨logged.event, due ▸ logged.entry⟩
    · exact absurd (old j here ⟨row', got', cancelled'⟩) new'
  · intro j unchanged
    refine logged.others j ?_
    rintro rfl
    exact new (unchanged ⟨row, got, cancelled⟩)

private theorem Db.Audited.trans (first : db.Audited db') (second : db'.Audited db'')
    (kept : db.KeepsCancelled db') (kept' : db'.KeepsCancelled db'') : db.Audited db'' := by
  have stays : ∀ id, db.Cancelled id → db'.Cancelled id := by
    rintro id ⟨row, got, cancelled⟩
    exact ⟨row, kept id row got cancelled, cancelled⟩
  have stays' : ∀ id, db'.Cancelled id → db''.Cancelled id := by
    rintro id ⟨row, got, cancelled⟩
    exact ⟨row, kept' id row got cancelled, cancelled⟩
  constructor
  · intro id row got cancelled new
    by_cases early : db'.Cancelled id
    · -- cancelled by the first step, and the same row since
      obtain ⟨row', got', cancelled'⟩ := early
      obtain rfl := Option.some.inj ((kept' id row' got' cancelled').symm.trans got)
      obtain ⟨⟨event, reported⟩, entry⟩ := first.ended id row' got' cancelled new
      obtain ⟨events, entries⟩ := second.others id (fun _ => ⟨row', got', cancelled'⟩)
      exact ⟨⟨event, events.trans reported⟩, entries.trans entry⟩
    · obtain ⟨⟨event, reported⟩, entry⟩ := second.ended id row got cancelled early
      obtain ⟨events, entries⟩ := first.others id (fun now => absurd now early)
      rw [events] at reported
      rw [entries] at entry
      exact ⟨⟨event, reported⟩, entry⟩
  · intro id unchanged
    obtain ⟨events, entries⟩ := first.others id (fun now => unchanged (stays' id now))
    obtain ⟨events', entries'⟩ := second.others id (fun now => stays id (unchanged now))
    exact ⟨events'.trans events, entries'.trans entries⟩

private theorem Db.Audited.silent (audited : db.Audited db') (quiet : db.Unlogged db')
    {id : OrderId}
    (cancelled : db'.Cancelled id) : db.Cancelled id := by
  by_contra new
  obtain ⟨row, got, status⟩ := cancelled
  obtain ⟨⟨event, reported⟩, _⟩ := audited.ended id row got status new
  simp [(quiet id).1] at reported

private theorem Db.KeepsCancelled.refl (db : Db) : db.KeepsCancelled db := fun _ _ got _ => got

private theorem Db.KeepsCancelled.trans (first : db.KeepsCancelled db')
    (second : db'.KeepsCancelled db'') :
    db.KeepsCancelled db'' :=
  fun id row got cancelled => second id row (first id row got cancelled) cancelled

end Logs

section Statements

variable {draft : OrderDraft} {ob ob' : OrderBook} {db db' : Db} {order order' : Order}

private theorem checkAndFreeze_unlogged (done : checkAndFreeze order db = .ok (order', db')) :
    db.Unlogged db' := by
  have funds : ∀ amount, freezeFunds order amount db = .ok (order', db') → db.Unlogged db' := by
    intro amount froze id
    obtain ⟨wal, ledger⟩ := freezeFunds_log froze
    unfold Db.endings Db.unfreezes
    rw [wal, ledger, List.filter_append]
    simp
  have shares : ∀ side asset missing, freezeShares order side asset missing db =
      .ok (order', db') → db.Unlogged db' := by
    intro side asset missing froze
    obtain ⟨wal, ledger⟩ := freezeShares_log froze
    exact .of_eq wal ledger
  unfold checkAndFreeze at done
  split at done
  · exact funds _ done
  · exact funds _ done
  · exact shares _ _ _ done
  · exact shares _ _ _ done

private theorem acceptOrder_unlogged {market : MarketState}
    (done : acceptOrder draft db = .ok (order, market, db')) : db.Unlogged db' := by
  obtain ⟨db₁, db₂, frozen, saved, rfl⟩ := acceptOrder_saved done
  obtain ⟨orders, _, rfl⟩ := Db.save_ok saved
  exact (checkAndFreeze_unlogged frozen).trans (.of_event rfl rfl rfl)

private theorem clearFill_unlogged {trade : TradeResult} {market market' : MarketState} {nq : Int}
    (done : clearFill order trade market db = .ok (nq, market', db')) : db.Unlogged db' := by
  simp only [clearFill, bind_eq_ok, pure_eq_ok, Prod.mk.injEq] at done
  obtain ⟨⟨⟨buyPnl, sellPnl⟩, market₁, h₁⟩, _, db₁, taker, db₂, maker, ⟨fee, h₂⟩, _, db₃,
    written, ⟨nq', market₂, h₃⟩, _, _, _, rfl⟩ := done
  obtain ⟨orders₁, _, rfl⟩ := Db.updateStatus_ok taker
  obtain ⟨orders₂, _, rfl⟩ := updateMakerStatus_ok maker
  obtain ⟨_, rfl⟩ := Db.writeTrade_ok written
  exact .of_event rfl rfl rfl

private theorem clearFills_unlogged {ts : List TradeResult} {n n' : Int}
    {market market' : MarketState}
    (done : clearFills order ts n market db = .ok (order', n', market', db')) :
    db.Unlogged db' :=
  clearFills_rel (fun _ => .of_eq rfl rfl) (fun first rest => first.trans rest)
    clearFill_unlogged done

private theorem cancelInSavepoint_logs
    (done : MatchingEngine.cancelInSavepoint order db = .ok (order', db')) :
    db.Logs order db' := by
  obtain ⟨db₁, db₂, released, marked, rfl⟩ := cancelInSavepoint_saved done
  obtain ⟨wal, ledger⟩ := unfreezeRemainder_log released
  obtain ⟨orders, _, rfl⟩ := Db.updateStatus_ok marked
  exact .of_append (by rw [← wal]; rfl) ledger rfl rfl

/-- Only the expiry of an IOC order is an end. -/
private theorem finalizeOrder_logs (done : finalizeOrder order 0 db = .ok (order', db')) :
    if 0 < order.remainingQuantity ∧ order.timeInForce = .ioc then db.Logs order db'
    else db.Unlogged db' := by
  cases finalizeOrder_run done with
  | partly left gtc =>
    rw [if_neg (by simp [gtc])]
    exact .of_event rfl rfl rfl
  | idle still =>
    rw [if_neg still]
    exact .of_eq rfl rfl
  | expired left ioc released updated =>
    rw [if_pos ⟨left, ioc⟩]
    obtain ⟨wal, ledger⟩ := unfreezeRemainder_log released
    obtain ⟨orders, _, rfl⟩ := Db.updateStatus_ok updated
    exact .of_append (by rw [← wal]; rfl) ledger rfl rfl

private theorem Db.Ends.audited {id : OrderId} {row : OrderRow} (ends : db.Ends id row db')
    (spared : row.status ≠ .cancelled) : db.Audited db' := by
  have rows := ends.get?_orders
  obtain ⟨got, order, done⟩ := ends
  refine .of_logs (cancelInSavepoint_logs done) ((rows id).trans (if_pos rfl)) rfl rfl ?_ ?_
  · rintro ⟨row', got', cancelled⟩
    obtain rfl := Option.some.inj (got.symm.trans got')
    exact spared cancelled
  · rintro j other ⟨row', got', cancelled⟩
    exact ⟨row', ((rows j).trans (if_neg other)).symm.trans got', cancelled⟩

private theorem Db.Ends.keepsCancelled {id : OrderId} {row : OrderRow} (ends : db.Ends id row db') :
    db.KeepsCancelled db' := by
  intro j row' got' cancelled
  rw [ends.get?_orders]
  split
  · next here =>
    subst here
    obtain rfl := Option.some.inj (ends.1.symm.trans got')
    rw [← cancelled]
  · exact got'

end Statements

section Placement

variable {draft : OrderDraft} {ob ob' : OrderBook} {db db' : Db} {order order' : Order}

private theorem cancelled_of_update {id : OrderId} {f : OrderRow → OrderRow} {j : OrderId}
    {row : OrderRow} {orders orders' : Table OrderId OrderRow OrderRow.Check}
    (updated : orders.update? id f = some orders') (spares : ∀ r, (f r).status ≠ .cancelled)
    (got : orders'.get? j = some row) (cancelled : row.status = .cancelled) :
    orders.get? j = some row := by
  rw [Table.get?_update? updated] at got
  split at got
  · obtain ⟨r, _, rfl⟩ := Option.map_eq_some_iff.mp got
    exact absurd cancelled (spares r)
  · exact got

private theorem OrderRow.filled_spared (r : OrderRow) (qty : Int) :
    (r.filled qty).status ≠ .cancelled := by
  unfold filled Order.filledBy
  simp only [progress, Order.syncFrozenAmount]
  split <;> simp

private theorem clearFills_cancelled {ts : List TradeResult} {n n' : Int}
    {market market' : MarketState}
    (done : clearFills order ts n market db = .ok (order', n', market', db'))
    (spared : order.status ≠ .cancelled) {j : OrderId} {row : OrderRow}
    (got : db'.orders.get? j = some row) (cancelled : row.status = .cancelled) :
    db.orders.get? j = some row := by
  induction ts generalizing order n market db with
  | nil =>
    simp only [clearFills, pure_eq_ok, Prod.mk.injEq] at done
    rw [done.2.2.2]
    exact got
  | cons t ts ih =>
    obtain ⟨nq, market₁, db₁, first, rest⟩ := clearFills_cons_ok done
    obtain ⟨orders₁, taker, maker⟩ := (clearFill_ok first).orders
    have later := ih rest spared
    have between := cancelled_of_update maker (fun r => r.filled_spared _) later cancelled
    exact cancelled_of_update taker (fun _ => spared) between cancelled

private theorem clearFills_payer {v : RestingOrders} {n n' : Int} {market market' : MarketState}
    {row : OrderRow} (shows : ob.Shows v)
    (stored : db.orders.get? draft.id = some (Db.insertedRow draft.accepted draft.insertedAt))
    (fills : clearFills (matchOrder draft.accepted ob).incoming
      (matchOrder draft.accepted ob).trades n market db = .ok (order, n', market', db'))
    (got : db'.orders.get? draft.id = some row) :
    row.userId = order.userId ∧ row.frozenAssetType = order.frozenAssetType := by
  obtain ⟨v', run, _⟩ := matchOrder_spec draft.accepted ob v shows.represents shows.exact
  have memory : order.userId = draft.accepted.userId ∧
      order.frozenAssetType = draft.accepted.frozenAssetType := by
    rw [clearFills_order fills]
    split
    · rw [run.incoming]
      exact ⟨rfl, rfl⟩
    · rw [run.incoming]
      exact ⟨rfl, rfl⟩
  have columns : (db'.orders.get? draft.id).map (fun r => (r.userId, r.frozenAssetType)) =
      (db.orders.get? draft.id).map (fun r => (r.userId, r.frozenAssetType)) :=
    clearFills_column (fun _ _ => rfl) fills draft.id
  rw [got, stored, Option.map_some, Option.map_some, Option.some.injEq, Prod.mk.injEq] at columns
  exact ⟨columns.1.trans memory.1.symm, columns.2.trans memory.2.symm⟩

private theorem placeOrderInner_audited {placed : Placed} {v : RestingOrders}
    (done : placeOrderInner draft ob db = (.ok (placed, db'), ob')) (shows : ob.Shows v)
    (absent : v draft.id = none) (backs : db.Backs False draft.marketId v) (funded : db.Funded)
    (lived : db.Lived) : db.Audited db' ∧ db.KeepsCancelled db' := by
  obtain ⟨⟨market, db₁, order, n, market₁, db₂, order', db₃, accepted, fills, finalized, flushed,
    _⟩, _⟩ := placeOrderInner_phases done
  have cleared := clearFills_lived accepted fills shows absent backs funded lived
  obtain ⟨incoming, spared⟩ := clearFills_spared shows fills
  have quiet := (acceptOrder_unlogged accepted).trans (clearFills_unlogged fills)
  have logs := finalizeOrder_logs finalized
  obtain ⟨fresh, inserted⟩ := (acceptOrder_ok accepted).get?_orders
  obtain ⟨_, final⟩ := finalizeOrder_ok finalized
  obtain ⟨markets, _, rfl⟩ := Db.flushMarket_ok flushed
  have new : ¬ db.Cancelled draft.id := by
    rintro ⟨row, got, _⟩
    rw [fresh] at got
    cases got
  have old : ∀ j row, db₂.orders.get? j = some row → row.status = .cancelled →
      db.orders.get? j = some row := by
    intro j row got cancelled
    have before := clearFills_cancelled fills incoming got cancelled
    rw [inserted] at before
    split at before
    · obtain rfl := Option.some.inj before
      rw [Db.insertedRow, draft.accepted_fields.2.2.2.2.2.2.2] at cancelled
      cases cancelled
    · exact before
  have closed : db.KeepsCancelled db₂ := by
    intro j row got cancelled
    have other : j ≠ draft.id := by
      rintro rfl
      exact new ⟨row, got, cancelled⟩
    exact cleared.closed j row other got
      (by simp [OrderRow.isActive, cancelled, OrderStatus.isActive])
  split at final
  · next expired =>
    rw [if_pos expired] at logs
    have rows := Table.get?_update? final.2.2
    obtain ⟨row, got, _⟩ := cleared.taker
    have ended := (rows order.id).trans (if_pos rfl)
    rw [cleared.id, got, Option.map_some, ← cleared.id] at ended
    have later : ∀ j, j ≠ order.id → db₃.orders.get? j = db₂.orders.get? j := by
      intro j other
      rw [rows, if_neg other]
    refine ⟨.of_logs ((quiet.logs logs).unlogged (.of_eq rfl rfl)) ended rfl ?_
      (cleared.id ▸ new) ?_, fun j row' got' cancelled => ?_⟩
    · obtain ⟨user, asset⟩ := clearFills_payer shows
        ((inserted draft.id).trans (if_pos rfl)) fills got
      simp only [Order.unfreezeEntries, rowToOrder, OrderRow.progress, user, asset]
    · rintro j other ⟨row', got', cancelled⟩
      exact ⟨row', old j row' ((later j other).symm.trans got') cancelled, cancelled⟩
    · have other : j ≠ order.id := by
        rintro rfl
        exact new ⟨row', cleared.id ▸ got', cancelled⟩
      exact (later j other).trans (closed j row' got' cancelled)
  · next kept =>
    rw [if_neg kept] at logs
    obtain ⟨_, _, same⟩ := final
    refine ⟨.of_unlogged ((quiet.trans logs).trans (.of_eq rfl rfl)) ?_,
      fun j row got cancelled => ?_⟩
    · rintro j ⟨row, got, cancelled⟩
      exact ⟨row, old j row (same ▸ got) cancelled, cancelled⟩
    · exact same ▸ closed j row got cancelled

end Placement

section Sessions

/-- The requests that write about every order they cancel: no bulk cancellation finds
an order, and no replacement ends a cancelled one again. -/
def LeavesTrail (s : Session) : SessionOp → Prop
  | .replace oldOrderId req userId clock =>
    SparesCancelled s (.replace oldOrderId req userId clock)
  | .batchCancel marketId userId scope =>
    MatchingEngine.batchRows marketId userId scope s.world.db = []
  | .resolve marketId _ => AdminService.openOrders marketId s.world.db = [] ∨
    ∀ row, s.world.db.markets.get? marketId = some row →
      row.status ≠ .active ∧ row.status ≠ .suspended
  | _ => True

variable {w w' : World}

theorem World.finish_error {α : Type} {e : Err} {fault : Fault}
    {outcome : Except Err α × World} (done : w.finish fault outcome = (.error e, w')) :
    w'.db = w.db := by
  obtain ⟨result, after⟩ := outcome
  unfold finish at done
  cases result with
  | error e =>
    cases done
    rfl
  | ok a =>
    simp only at done
    split at done
    · cases done
      rfl
    · cases done

theorem settleMarket_log {marketId : MarketId} {outcome : OriginalSide} {db db' : Db}
    (done : AdminService.settleMarket marketId outcome db = .ok db') :
    db'.wal = db.wal ∧ db'.ledger = db.ledger := by
  simp only [AdminService.settleMarket, bind_eq_ok] at done
  obtain ⟨h, _, done⟩ := done
  split at done
  · obtain rfl := Except.ok.inj done
    exact ⟨rfl, rfl⟩
  · cases done

theorem cancelAll_log {marketId : MarketId} {db db' : Db} {l : List (OrderId × OrderRow)}
    (done : l.foldlM (AdminService.cancelAndUnfreeze marketId) db = .ok db') :
    db'.wal = db.wal ∧ db'.ledger = db.ledger := by
  refine foldlM_preserves (P := fun d => d.wal = db.wal ∧ d.ledger = db.ledger) ?_ done
    ⟨rfl, rfl⟩
  intro d e d' _ step same
  simp only [AdminService.cancelAndUnfreeze, bind_eq_ok] at step
  obtain ⟨db₁, marked, moved⟩ := step
  obtain ⟨h, _, rfl⟩ := Db.onHoldings_ok moved
  split at marked
  · obtain rfl := Except.ok.inj marked
    exact same
  · cases marked

private theorem resolveInTransaction_unlogged {marketId : MarketId} {outcome : OriginalSide}
    {db db' : Db}
    (done : AdminService.resolveInTransaction marketId outcome db = .ok db') :
    db.Unlogged db' := by
  obtain ⟨db₁, cancelled, settled⟩ := AdminService.resolveInTransaction_ok done
  obtain ⟨wal, ledger⟩ := cancelAll_log cancelled
  obtain ⟨wal', ledger'⟩ := settleMarket_log settled
  exact .of_eq (wal'.trans wal) (ledger'.trans ledger)

theorem markCancelled_log {ids : List OrderId} {db db' : Db}
    (done : MatchingEngine.markCancelled ids db = .ok db') :
    db'.wal = db.wal ∧ db'.ledger = db.ledger := by
  refine foldlM_preserves (P := fun d => d.wal = db.wal ∧ d.ledger = db.ledger) ?_ done
    ⟨rfl, rfl⟩
  intro d id d' _ step same
  split at step
  · obtain rfl := Except.ok.inj step
    exact same
  · cases step

private theorem batch_unlogged {marketId : MarketId} {userId : UserId} {scope : CancelScope}
    {db db' : Db}
    (step : moveStep db (.batch marketId userId scope) db') : db.Unlogged db' := by
  obtain ⟨db₁, h, marked, _, rfl⟩ := step
  obtain ⟨wal, ledger⟩ := markCancelled_log marked
  exact .of_eq wal ledger

theorem AdminService.resolveMarket_refused {marketId : MarketId} {outcome : OriginalSide}
    (ended : ∀ row, w.db.markets.get? marketId = some row →
      row.status ≠ .active ∧ row.status ≠ .suspended) :
    (AdminService.resolveMarket marketId outcome .none w).2 = w := by
  unfold resolveMarket
  rw [if_neg (by simp)]
  split
  · rfl
  · next row got => rw [if_pos (ended row got)]

private theorem Db.Unlogged.audited {db db' : Db} (quiet : db.Unlogged db')
    (same : db'.orders = db.orders) : db.Audited db' ∧ db.KeepsCancelled db' := by
  refine ⟨.of_unlogged quiet ?_, fun id row got _ => same ▸ got⟩
  rintro id ⟨row, got, cancelled⟩
  exact ⟨row, same ▸ got, cancelled⟩

private theorem replaced_audited {oldOrderId : OrderId} {row : OrderRow} {draft : OrderDraft}
    {placed : Placed} {db₁ db : Db} {ob : OrderBook} (acc : w.Accounted False)
    (lived : w.db.Lived) (next : draft.id = w.nextId) (home : row.marketId = draft.marketId)
    (unused : row.status ≠ .filled) (ends : w.db.Ends oldOrderId row db₁)
    (inner : placeOrderInner draft ((w.getOrCreateOrderbook row.marketId).cancelOrder oldOrderId)
      db₁ = (.ok (placed, db), ob)) : db₁.Audited db ∧ db₁.KeepsCancelled db := by
  obtain ⟨_, v, shows, absent, backs⟩ := acc.replaced next home ends inner
  obtain ⟨order, ended⟩ := ends.2
  exact placeOrderInner_audited inner shows absent backs
    (cancelInSavepoint_funded ended acc.funded) (ends.lived unused lived).1

/-- A request that leaves a trail is audited. -/
private theorem sessionStep_audited {s : Session} {op : SessionOp} (acc : s.world.Accounted False)
    (lived : s.world.db.Lived) (trail : LeavesTrail s op) :
    s.world.db.Audited (s.next op).world.db ∧ s.world.db.KeepsCancelled (s.next op).world.db := by
  have unchanged : ∀ {db : Db}, db = s.world.db →
      s.world.db.Audited db ∧ s.world.db.KeepsCancelled db := by
    rintro db rfl
    exact ⟨.refl _, .refl _⟩
  have moved := (sessionStep_moves (show sessionStep s op (s.next op) from rfl) acc).2
  cases op with
  | place req userId clock =>
    rcases moved with same | moves
    · exact unchanged same
    · obtain ⟨ob, ob', placed, v, inner, shows, absent, backs⟩ := Run.single_iff.mp moves
      exact placeOrderInner_audited inner shows absent backs acc.funded lived
  | cancel orderId userId =>
    rcases moved with same | moves
    · exact unchanged same
    · obtain ⟨row, active, ends⟩ := Run.single_iff.mp moves
      refine ⟨ends.audited ?_, ends.keepsCancelled⟩
      intro cancelled
      simp [OrderRow.isActive, cancelled, OrderStatus.isActive] at active
  | replace oldOrderId req userId clock =>
    simp only [Session.next]
    cases done : OrderService.replaceOrder oldOrderId req userId clock s.world with
    | mk outcome w' =>
      cases outcome with
      | error e => exact unchanged (World.finish_error done)
      | ok replaced =>
        obtain ⟨row, db₁, ob, unused, untouched, home, owner, ends, inner⟩ :=
          OrderService.replaceOrder_runs done
        have spared := trail row ends.1 owner home
          (le_antisymm untouched (Table.check ends.1).filled_nonneg)
        obtain ⟨second, kept⟩ := replaced_audited acc lived rfl home unused ends inner
        exact ⟨(ends.audited spared).trans second ends.keepsCancelled kept,
          ends.keepsCancelled.trans kept⟩
  | batchCancel marketId userId scope =>
    rcases moved with same | moves
    · exact unchanged same
    · have step := Run.single_iff.mp moves
      have quiet := batch_unlogged step
      obtain ⟨db₁, h, marked, _, tables⟩ := step
      rw [show MatchingEngine.batchRows marketId userId scope s.world.db = [] from trail] at marked
      obtain rfl := Except.ok.inj marked
      exact quiet.audited (by rw [tables])
  | privileged call =>
    rcases moved with same | moves
    · exact unchanged same
    · rcases Run.single_iff.mp moves with minted | burned
      · exact Db.Unlogged.audited (.of_eq (by rw [minted.rest]) (by rw [minted.rest]))
          (by rw [minted.rest])
      · exact Db.Unlogged.audited (.of_eq (by rw [burned.rest]) (by rw [burned.rest]))
          (by rw [burned.rest])
  | resolve marketId outcome =>
    rcases trail with none | ended
    · rcases moved with same | moves
      · exact unchanged same
      · have step := Run.single_iff.mp moves
        have quiet := resolveInTransaction_unlogged step
        obtain ⟨db₁, cancelled, settled⟩ := AdminService.resolveInTransaction_ok step
        rw [none] at cancelled
        obtain rfl := Except.ok.inj cancelled
        exact quiet.audited (AdminService.settleMarket_ok settled).1
    · exact unchanged (congrArg World.db (AdminService.resolveMarket_refused ended))

/-- A request that leaves no trail is audited only when it leaves the tables as they
are. -/
private theorem sessionStep_unaudited {s : Session} {op : SessionOp} (acc : s.world.Accounted False)
    (lived : s.world.db.Lived) (audited : s.world.db.Audited (s.next op).world.db) :
    LeavesTrail s op ∨ (s.next op).world.db = s.world.db := by
  have moved := (sessionStep_moves (show sessionStep s op (s.next op) from rfl) acc).2
  cases op with
  | place req userId clock => exact Or.inl trivial
  | cancel orderId userId => exact Or.inl trivial
  | privileged call => exact Or.inl trivial
  | replace oldOrderId req userId clock =>
    simp only [Session.next] at audited ⊢
    cases done : OrderService.replaceOrder oldOrderId req userId clock s.world with
    | mk outcome w' =>
      cases outcome with
      | error e => exact Or.inr (World.finish_error done)
      | ok replaced =>
        rw [done] at audited
        obtain ⟨row, db₁, ob, unused, untouched, home, owner, ends, inner⟩ :=
          OrderService.replaceOrder_runs done
        refine Or.inl (fun row' got _ _ _ cancelled => ?_)
        -- The first end of the order is written again, and the placement adds nothing.
        have now : db₁.Cancelled oldOrderId :=
          ⟨_, (ends.get?_orders oldOrderId).trans (if_pos rfl), rfl⟩
        obtain ⟨order, ended⟩ := ends.2
        obtain ⟨event, again⟩ : ∃ event, db₁.endings oldOrderId =
            s.world.db.endings oldOrderId ++ [event] := (cancelInSavepoint_logs ended).event
        obtain ⟨second, _⟩ := replaced_audited acc lived rfl home unused ends inner
        have once := (audited.others oldOrderId (fun _ => ⟨row', got, cancelled⟩)).1
        have after := (second.others oldOrderId (fun _ => now)).1
        rw [once, again] at after
        simp at after
  | batchCancel marketId userId scope =>
    rcases moved with same | moves
    · exact Or.inr same
    · have step := Run.single_iff.mp moves
      refine Or.inl (List.eq_nil_iff_forall_not_mem.mpr (fun e member => ?_))
      have quiet := batch_unlogged step
      obtain ⟨db₁, h, marked, _, tables⟩ := step
      have rows := (markCancelled_ok _ marked).2.2 e.1
      obtain ⟨got, _, _, active, _⟩ := MatchingEngine.mem_batchRows.mp member
      rw [if_pos (List.mem_map_of_mem (f := Prod.fst) member), got] at rows
      exact Db.not_closed got active
        (audited.silent quiet ⟨_, by rw [tables]; exact rows, rfl⟩).closed
  | resolve marketId outcome =>
    rcases moved with same | moves
    · exact Or.inr same
    · have step := Run.single_iff.mp moves
      refine Or.inl (Or.inl (List.eq_nil_iff_forall_not_mem.mpr (fun e member => ?_)))
      obtain ⟨got, _, active⟩ := AdminService.mem_openOrders.mp member
      exact Db.not_closed got active (audited.silent (resolveInTransaction_unlogged step)
        (AdminService.resolve_cancels step e member)).closed

/-- A request that writes about the orders it cancels. If it is about a single order and
fills nothing, the accounts move by what it writes, and by nothing else. -/
def AuditedStep : Steps Session SessionOp := fun s op s' =>
  sessionStep s op s' ∧ s.world.db.Audited s'.world.db ∧
    (op.IsSingle → s'.world.db.trades = s.world.db.trades →
      s.world.db.MovesEntered s'.world.db)

private theorem run_audited {s s' : Session} {ops : List SessionOp}
    (run : Run (Guarded LeavesTrail sessionStep) s ops s') (acc : s.world.Accounted False)
    (lived : s.world.db.Lived) :
    Run AuditedStep s ops s' ∧
      s.world.db.Audited s'.world.db ∧ s.world.db.KeepsCancelled s'.world.db := by
  induction run with
  | nil s => exact ⟨.nil s, .refl _, .refl _⟩
  | @cons s t u op ops head tail ih =>
    obtain ⟨trail, step⟩ := head
    obtain ⟨audited, kept⟩ := sessionStep_audited acc lived trail
    rw [← step] at audited kept
    obtain ⟨steps, rest, later⟩ := ih (sessionStep_moves step acc).1
      (sessionStep_lived step acc lived).1
    have entered : op.IsSingle → t.world.db.trades = s.world.db.trades →
        s.world.db.MovesEntered t.world.db := by
      rw [step]
      exact sessionStep_entered acc
    exact ⟨.cons ⟨step, audited, entered⟩ steps, audited.trans rest kept later,
      kept.trans later⟩

/-- Which cancellations leave an audit trail. In every session whose bulk cancellations
find no order and whose replacements end no cancelled order again, each request writes
about the orders that it cancels, and about no other: one event and, for cash, one
ledger entry of the frozen amount, which its owner gets back when nothing is filled. So
does the session as a whole. In the state it reaches, any other request does so only if
it changes no table. -/
theorem cancellations_audited {s s' : Session} {ops : List SessionOp} (opening : s.Opening)
    (untraded : s.world.db.trades = []) (run : Run (Guarded LeavesTrail sessionStep) s ops s') :
    Run AuditedStep s ops s' ∧ s.world.db.Audited s'.world.db ∧
      ∀ op, ¬ LeavesTrail s' op → s'.world.db.Audited (s'.next op).world.db →
        (s'.next op).world.db = s'.world.db := by
  have lived := opening.lived untraded
  obtain ⟨steps, whole, _⟩ := run_audited run opening.accounted lived
  obtain ⟨acc', lived', _⟩ := session_lived run.ofGuarded opening.accounted lived
  exact ⟨steps, whole, fun op untrailed audited =>
    (sessionStep_unaudited acc' lived' audited).resolve_left untrailed⟩

def bidThreeYes (timeInForce : TimeInForce) : SessionOp :=
  .place ⟨"b2", "m", .yes, .buy, 40, 3, timeInForce⟩ "bob" ⟨2, 2⟩

/-- A bid that expires next to a sale that is cancelled. -/
theorem expiry_and_cancel_audited :
    let s' := ((pairMarket.next sellFourYes).next (bidThreeYes .ioc)).next (.cancel 1 "alice")
    s'.world.db.unfreezes 2 = [⟨"bob", .orderUnfreeze, 121, 0, 2⟩] ∧
      pairMarket.world.db.Audited s'.world.db := by
  intro s'
  have run : Run (Guarded LeavesTrail sessionStep) pairMarket
      [sellFourYes, bidThreeYes .ioc, .cancel 1 "alice"] s' :=
    .cons ⟨trivial, rfl⟩ (.cons ⟨trivial, rfl⟩ (.single ⟨trivial, rfl⟩))
  exact ⟨by decide +kernel, (cancellations_audited pairMarket_opening rfl run).2.1⟩

/-- A batch cancel gives the cash of a resting bid back and writes nothing. -/
theorem batch_cancel_untraced :
    let s := pairMarket.next (bidThreeYes .gtc)
    let s' := s.next (.batchCancel "m" "bob" .all)
    s'.world.db.Cancelled 1 ∧ s'.world.db.endings 1 = [] ∧ s'.world.db.unfreezes 1 = [] ∧
      ¬ s.world.db.Audited s'.world.db := by
  intro s s'
  have before : (s.world.db.orders.get? 1).map OrderRow.status = some .open := by decide +kernel
  have after : (s'.world.db.orders.get? 1).map OrderRow.status = some .cancelled := by
    decide +kernel
  have quiet : s'.world.db.endings 1 = [] := by decide +kernel
  obtain ⟨row, got, cancelled⟩ := Option.map_eq_some_iff.mp after
  refine ⟨⟨row, got, cancelled⟩, quiet, by decide +kernel, fun audited => ?_⟩
  obtain ⟨event, reported⟩ := (audited.ended 1 row got cancelled (by
    rintro ⟨row', got', cancelled'⟩
    rw [got', Option.map_some, cancelled'] at before
    cases before)).1
  rw [quiet] at reported
  simp at reported

end Sessions

end PredictionMarket
