/- PredictionMarket/Engine/Sessions
   digest: Sessions of all the requests, and the moves that they make on the tables. -/

import PredictionMarket.Engine.BusinessErrors
import PredictionMarket.Engine.FundsRuns
import PredictionMarket.Engine.PrivilegedMint

set_option autoImplicit false
set_option relaxedAutoImplicit false

namespace PredictionMarket

open Library

/-- The requests of a session, one after the other, on a database that does not
fail. A request may be refused. -/
inductive SessionOp
  | place (req : PlaceOrderRequest) (userId : UserId) (clock : Clock)
  | cancel (orderId : OrderId) (userId : UserId)
  | replace (oldOrderId : OrderId) (req : PlaceOrderRequest) (userId : UserId) (clock : Clock)
  | batchCancel (marketId : MarketId) (userId : UserId) (scope : CancelScope)
  | privileged (call : AmmCall)
  | resolve (marketId : MarketId) (outcome : OriginalSide)

/-- The process and its database, with what the privileged services have inserted. -/
structure Session where
  world : World
  inserted : List AmmRow

def Session.next (s : Session) : SessionOp → Session
  | .place req userId clock =>
    { s with world := (OrderService.placeOrder req userId clock .none s.world).2 }
  | .cancel orderId userId =>
    { s with world := (OrderService.cancelOrder orderId userId .none s.world).2 }
  | .replace oldOrderId req userId clock =>
    { s with world := (OrderService.replaceOrder oldOrderId req userId clock s.world).2 }
  | .batchCancel marketId userId scope =>
    { s with world := (OrderService.batchCancel marketId userId scope s.world).2 }
  | .privileged call =>
    let after := (call.run ⟨s.world.db, s.inserted⟩).2
    { world := { s.world with db := after.db }, inserted := after.inserted }
  | .resolve marketId outcome =>
    { s with world := (AdminService.resolveMarket marketId outcome .none s.world).2 }

def sessionStep : Steps Session SessionOp := fun s op s' => s' = s.next op

def Session.ammTrades (s : Session) : List AmmTradeRow := s.inserted.filterMap AmmRow.trade?

theorem Session.ammTrades_next (s : Session) (op : SessionOp) :
    (s.next op).ammTrades = s.ammTrades ∨ ∃ call, op = .privileged call ∧
      (s.next op).ammTrades = s.ammTrades ++ [call.tradeRow] := by
  cases op with
  | privileged call =>
    obtain same | ⟨⟨e, e', grown⟩, _⟩ := call.run_records ⟨s.world.db, s.inserted⟩
    · exact Or.inl (by simp only [next, ammTrades, same])
    · refine Or.inr ⟨call, rfl, ?_⟩
      simp only [next, ammTrades, grown, List.filterMap_append]
      rfl
  | _ => exact Or.inl rfl

theorem sessionRun_ammTrades {s s' : Session} {ops : List SessionOp}
    (run : Run sessionStep s ops s') : ∃ calls : List AmmCall,
      (calls.map SessionOp.privileged).Sublist ops ∧
        s'.ammTrades = s.ammTrades ++ calls.map AmmCall.tradeRow := by
  induction run with
  | nil s => exact ⟨[], List.nil_sublist _, by simp⟩
  | @cons s t u op ops step _ ih =>
    obtain rfl := step
    obtain ⟨calls, listed, later⟩ := ih
    obtain same | ⟨call, rfl, grown⟩ := s.ammTrades_next op
    · exact ⟨calls, listed.cons op, by rw [later, same]⟩
    · refine ⟨call :: calls, listed.cons_cons _, ?_⟩
      rw [later, grown, List.append_assoc]
      rfl

/-- What requests do to the tables. A replacement retires its old order and then
places the new one. -/
inductive Move
  | placed (draft : OrderDraft)
  | cancelled (id : OrderId)
  | retired (id : OrderId)
  | batch (marketId : MarketId) (userId : UserId) (scope : CancelScope)
  | privileged (call : AmmCall)
  | resolved (marketId : MarketId) (outcome : OriginalSide)

/-- The moves of a request that goes through, when `id` is the next id. -/
def SessionOp.moves (id : OrderId) : SessionOp → List Move
  | .place req userId clock => [.placed (req.draft id userId clock)]
  | .cancel orderId _ => [.cancelled orderId]
  | .replace oldOrderId req userId clock =>
    [.retired oldOrderId, .placed (req.draft id userId clock)]
  | .batchCancel marketId userId scope => [.batch marketId userId scope]
  | .privileged call => [.privileged call]
  | .resolve marketId outcome => [.resolved marketId outcome]

def Db.Ends (db : Db) (id : OrderId) (row : OrderRow) (db' : Db) : Prop :=
  db.orders.get? id = some row ∧
    ∃ order, MatchingEngine.cancelInSavepoint (rowToOrder id row) db = .ok (order, db')

def moveStep : Steps Db Move
  | db, .placed draft, db' => ∃ ob ob' placed v,
    placeOrderInner draft ob db = (.ok (placed, db'), ob') ∧
      ob.Shows v ∧ v draft.id = none ∧ db.Backs False draft.marketId v
  | db, .cancelled id, db' => ∃ row, row.isActive = true ∧ db.Ends id row db'
  | db, .retired id, db' => ∃ row, row.status ≠ .filled ∧ row.filledQuantity ≤ 0 ∧
    db.Ends id row db'
  | db, .batch marketId userId scope, db' =>
    let rows := MatchingEngine.batchRows marketId userId scope db
    ∃ db₁ h, MatchingEngine.markCancelled (rows.map Prod.fst) db = .ok db₁ ∧
      MatchingEngine.bulkUnfreeze marketId userId (MatchingEngine.totalFrozen .funds rows)
        (MatchingEngine.totalFrozen .yesShares rows) (MatchingEngine.totalFrozen .noShares rows)
        db.holdings = .ok h ∧
      db' = { db₁ with holdings := h }
  | db, .privileged call, db' =>
    Minted call.userId call.marketId call.quantity db db' ∨
      Burned call.userId call.marketId call.quantity db db'
  | db, .resolved marketId outcome, db' =>
    AdminService.resolveInTransaction marketId outcome db = .ok db'

theorem Db.Ends.get?_orders {db db' : Db} {id : OrderId} {row : OrderRow}
    (ends : db.Ends id row db') (j : OrderId) : db'.orders.get? j =
      if j = id then some { row with status := .cancelled } else db.orders.get? j := by
  obtain ⟨got, order, done⟩ := ends
  have updated : db'.orders.get? j = if j = id then (db.orders.get? id).map (fun r =>
      r.progress { rowToOrder id row with status := .cancelled }) else db.orders.get? j :=
    Table.get?_update? (cancelInSavepoint_ok done).2.2 j
  have left := (Table.check got).quantity_sub_filled
  rw [updated, got, Option.map_some]
  simp only [OrderRow.progress, rowToOrder, left]

namespace MatchingEngine

theorem batchCancel_world (marketId : MarketId) (userId : UserId) (scope : CancelScope)
    (w : World) :
    let ids := (batchRows marketId userId scope w.db).map Prod.fst
    let w' := (OrderService.batchCancel marketId userId scope w).2
    let book := (w.orderbooks marketId).map (fun ob => ids.foldl OrderBook.cancelOrder ob)
    w' = w ∨ w' = { w with orderbooks := Function.update w.orderbooks marketId book } ∨
      moveStep w.db (.batch marketId userId scope) w'.db ∧
        w' = { w with orderbooks := Function.update w.orderbooks marketId book, db := w'.db } := by
  intro ids w' book
  unfold w' OrderService.batchCancel batchCancel
  simp only
  split
  · exact Or.inl rfl
  · refine Or.inr ?_
    split
    · next db ran =>
      simp only [bind_eq_ok] at ran
      obtain ⟨db₁, marked, moved⟩ := ran
      obtain ⟨h, freed, rfl⟩ := Db.onHoldings_ok moved
      rw [(markCancelled_ok _ marked).1] at freed
      exact Or.inr ⟨⟨db₁, h, marked, freed, rfl⟩, rfl⟩
    · exact Or.inl rfl

theorem replaceOrder_world (oldOrderId : OrderId) (new : OrderDraft) (w : World) :
    let outcome := MatchingEngine.replaceOrder oldOrderId new w
    (∃ e, outcome.1 = .error e) ∧ (outcome.2 = w ∨ (∃ m, outcome.2 = w.evict m) ∨
        ∃ m, outcome.2 = w.keepBook m ((w.getOrCreateOrderbook m).cancelOrder oldOrderId)) ∨
      ∃ row db₁ cancelled placed db ob, row.status ≠ .filled ∧ row.filledQuantity ≤ 0 ∧
        row.marketId = new.marketId ∧ row.userId = new.userId ∧ w.db.Ends oldOrderId row db₁ ∧
        placeOrderInner new ((w.getOrCreateOrderbook row.marketId).cancelOrder oldOrderId) db₁ =
          (.ok (placed, db), ob) ∧
        outcome = (.ok ⟨cancelled, placed⟩, { w.keepBook row.marketId ob with db := db }) := by
  intro outcome
  unfold outcome MatchingEngine.replaceOrder
  split
  · exact Or.inl ⟨⟨_, rfl⟩, Or.inl rfl⟩
  · next order got =>
    obtain ⟨row, stored, rfl⟩ := Option.map_eq_some_iff.mp got
    split
    · exact Or.inl ⟨⟨_, rfl⟩, Or.inl rfl⟩
    · next owner =>
      split
      · exact Or.inl ⟨⟨_, rfl⟩, Or.inl rfl⟩
      · next filled =>
        split
        · exact Or.inl ⟨⟨_, rfl⟩, Or.inl rfl⟩
        · next fresh =>
          split
          · exact Or.inl ⟨⟨_, rfl⟩, Or.inl rfl⟩
          · next home =>
            simp only
            split
            · exact Or.inl ⟨⟨_, rfl⟩, Or.inr (Or.inr ⟨_, rfl⟩)⟩
            · exact Or.inl ⟨⟨_, rfl⟩, Or.inr (Or.inl ⟨_, rfl⟩)⟩
            · next cancelled db₁ ended =>
              split
              · next placed db ob inner =>
                exact Or.inr ⟨row, db₁, cancelled, placed, db, ob, filled, not_lt.mp fresh,
                  not_not.mp home, not_not.mp owner, ⟨stored, _, ended⟩, inner, rfl⟩
              · next e ob inner =>
                obtain rfl := (placeOrderInner_app inner).2
                exact Or.inl ⟨⟨_, rfl⟩, Or.inr (Or.inr ⟨_, rfl⟩)⟩
              · exact Or.inl ⟨⟨_, rfl⟩, Or.inr (Or.inl ⟨_, rfl⟩)⟩

end MatchingEngine

section Accounted

variable {w : World}

private theorem markCancelled_funded {ids : List OrderId} {db db' : Db}
    (done : MatchingEngine.markCancelled ids db = .ok db') (funded : db.Funded) : db'.Funded := by
  intro id row got
  rw [(markCancelled_ok _ done).2.2] at got
  split at got
  · obtain ⟨before, was, rfl⟩ := Option.map_eq_some_iff.mp got
    have own := funded id before was
    exact ⟨own.asset, own.price, fun ended => by cases ended⟩
  · exact funded id row got

def World.dropAll (w : World) (marketId : MarketId) (ids : List OrderId) : World :=
  { w with
    orderbooks := Function.update w.orderbooks marketId
      ((w.orderbooks marketId).map (fun ob => ids.foldl OrderBook.cancelOrder ob)) }

theorem World.dropAll_of_ne {marketId i : MarketId} (ids : List OrderId) (other : i ≠ marketId) :
    (w.dropAll marketId ids).orderbooks i = w.orderbooks i := by
  simp [dropAll, other]

theorem World.getOrCreateOrderbook_dropAll (marketId : MarketId) (ids : List OrderId) :
    (w.dropAll marketId ids).getOrCreateOrderbook marketId =
      ids.foldl OrderBook.cancelOrder (w.getOrCreateOrderbook marketId) := by
  cases book : w.orderbooks marketId with
  | some ob => simp [getOrCreateOrderbook, dropAll, book]
  | none =>
    have left : ∀ ids : List OrderId, ids.foldl OrderBook.cancelOrder .empty = .empty := by
      intro ids
      induction ids with
      | nil => rfl
      | cons id ids ih => exact ih
    simp [getOrCreateOrderbook, dropAll, book, left]

private theorem World.BookBacked.dropAll {lost : Prop} {marketId : MarketId} {ids : List OrderId}
    {db : Db}
    (backed : w.BookBacked lost marketId)
    (rows : ∀ j, j ∉ ids → db.orders.get? j = w.db.orders.get? j) :
    ({ w.dropAll marketId ids with db := db } : World).BookBacked lost marketId := by
  obtain ⟨v, shows, backs, known⟩ := backed
  have left : ∀ j x, (if j ∈ ids then none else v j) = some x → j ∉ ids ∧ v j = some x := by
    intro j x here
    split at here
    · cases here
    · next other => exact ⟨other, here⟩
  refine ⟨fun j => if j ∈ ids then none else v j, ?_, backs.keep ?_ ?_, ?_⟩
  · rw [show ({ w.dropAll marketId ids with db := db } : World).getOrCreateOrderbook marketId =
      _ from getOrCreateOrderbook_dropAll marketId ids]
    exact MatchingEngine.foldl_cancelOrder_shows shows
  · intro j x here
    exact (left j x here).2
  · intro j x here
    exact rows j (left j x here).1
  · intro j x here
    exact known j x (left j x here).2

/-- A batch cancel that is rolled back takes entries off a book while the tables stay. -/
theorem World.Accounted.dropAll {lost : Prop} (acc : w.Accounted lost) (marketId : MarketId)
    (ids : List OrderId) : (w.dropAll marketId ids).Accounted lost :=
  acc.step marketId (fun _ => dropAll_of_ne ids) le_rfl acc.funded (fun _ active => active)
    (fun active => (acc.books _ active).dropAll (fun _ _ => rfl)) (fun _ _ _ backs _ => backs)

/-- A batch cancel keeps the books backed: the entries leave together with their
rows, or the rows stay. -/
theorem World.Accounted.batchCancel {lost : Prop} (acc : w.Accounted lost) (marketId : MarketId)
    (userId : UserId) (scope : CancelScope) :
    (OrderService.batchCancel marketId userId scope w).2.Accounted lost := by
  have world := MatchingEngine.batchCancel_world marketId userId scope w
  simp only at world
  generalize (OrderService.batchCancel marketId userId scope w).2 = w' at world
  generalize idsEq : (MatchingEngine.batchRows marketId userId scope w.db).map Prod.fst = ids
    at world
  rcases world with rfl | rfl | ⟨step, equal⟩
  · exact acc
  · exact acc.dropAll marketId ids
  · obtain ⟨db₁, h, marked, _, tables⟩ := step
    rw [idsEq] at marked
    obtain ⟨_, markets, rows⟩ := markCancelled_ok _ marked
    have same : ∀ j, j ∉ ids → w'.db.orders.get? j = w.db.orders.get? j := by
      intro j other
      rw [tables]
      exact (rows j).trans (if_neg other)
    have status : ∀ m, w'.Active m → w.Active m := by
      rintro m ⟨row, got, active⟩
      rw [tables] at got
      exact ⟨row, markets ▸ got, active⟩
    rw [equal] at status ⊢
    refine acc.step marketId (fun _ => dropAll_of_ne ids) le_rfl ?_ status
      (fun active => (acc.books _ (status _ active)).dropAll same) ?_
    · intro id row got
      simp only [tables] at got
      exact markCancelled_funded marked acc.funded id row got
    · intro i v away backs known
      refine backs.keep (fun _ _ here => here) (fun j x here => same j ?_)
      intro selected
      rw [← idsEq] at selected
      obtain ⟨e, inside, rfl⟩ := List.mem_map.mp selected
      obtain ⟨got, _, chosen, _⟩ := MatchingEngine.mem_batchRows.mp inside
      rcases backs e.1 x here with ⟨gone, _⟩ | ⟨row, found, market, _⟩
      · rw [got] at gone
        cases gone
      · obtain rfl := Option.some.inj (got.symm.trans found)
        exact away (market.symm.trans chosen)

theorem World.Accounted.tables {lost : Prop} (acc : w.Accounted lost) {db : Db}
    (orders : db.orders = w.db.orders)
    (active : ∀ m, ({ w with db := db } : World).Active m → w.Active m) :
    ({ w with db := db } : World).Accounted lost := by
  constructor
  · intro id row got
    exact acc.funded id row (orders ▸ got)
  · intro m here
    obtain ⟨v, shows, backs, known⟩ := acc.books m (active m here)
    exact ⟨v, shows, backs.keep (fun _ _ kept => kept) (fun _ _ _ => by rw [orders]), known⟩

private theorem World.active_of_update {db : Db} {i m : MarketId} {f : MarketRow → MarketRow}
    (done : w.db.markets.update? i f = some db.markets) (kept : ∀ r, (f r).status = r.status)
    (active : ({ w with db := db } : World).Active m) : w.Active m := by
  obtain ⟨row, got, status⟩ := active
  rw [Table.get?_update? done] at got
  split at got
  · next here =>
    obtain ⟨before, was, rfl⟩ := Option.map_eq_some_iff.mp got
    exact ⟨before, here ▸ was, (kept before).symm.trans status⟩
  · exact ⟨row, got, status⟩

/-- A replacement that goes through is a cancel of the old order with a placement
on top. -/
theorem World.Accounted.replaced {oldOrderId : OrderId} {row : OrderRow} {draft : OrderDraft}
    {placed : Placed} {db₁ db : Db} {ob : OrderBook} (acc : w.Accounted False)
    (next : draft.id = w.nextId) (home : row.marketId = draft.marketId)
    (ends : w.db.Ends oldOrderId row db₁)
    (inner : placeOrderInner draft ((w.getOrCreateOrderbook row.marketId).cancelOrder oldOrderId)
      db₁ = (.ok (placed, db), ob)) :
    ({ w.keepBook row.marketId ob with db := db, nextId := w.nextId + 1 } : World).Accounted
        False ∧
      ∃ v, ((w.getOrCreateOrderbook row.marketId).cancelOrder oldOrderId).Shows v ∧
        v draft.id = none ∧ db₁.Backs False draft.marketId v := by
  obtain ⟨got, order, done⟩ := ends
  have cancelled := acc.cancel got done
  generalize oldBook : (w.getOrCreateOrderbook row.marketId).cancelOrder oldOrderId = ob₁ at *
  have book : ({ w.keepBook row.marketId ob₁ with db := db₁ } : World).getOrCreateOrderbook
      draft.marketId = ob₁ := by
    simp [World.getOrCreateOrderbook, World.keepBook, home]
  obtain ⟨kept, _, v, shows, absent, backs⟩ := cancelled.place next
    (by rw [book]; exact inner)
  rw [book] at shows
  refine ⟨?_, v, shows, absent, backs⟩
  rw [← home] at kept
  simpa [World.keepBook] using kept

end Accounted

theorem moveStep_funded {db db' : Db} {m : Move} (step : moveStep db m db') (funded : db.Funded) :
    db'.Funded := by
  cases m with
  | placed draft =>
    obtain ⟨ob, ob', placed, v, done, shows, absent, backs⟩ := step
    exact ((placeOrderInner_ok done).spare shows absent backs funded).1
  | cancelled id =>
    obtain ⟨row, _, _, order, done⟩ := step
    exact cancelInSavepoint_funded done funded
  | retired id =>
    obtain ⟨row, _, _, _, order, done⟩ := step
    exact cancelInSavepoint_funded done funded
  | batch marketId userId scope =>
    obtain ⟨db₁, h, marked, _, rfl⟩ := step
    intro id row got
    exact markCancelled_funded marked funded id row got
  | privileged call =>
    rcases step with minted | burned
    · rw [minted.rest]
      exact funded
    · rw [burned.rest]
      exact funded
  | resolved marketId outcome => exact (AdminService.resolve_spare step).2.1 funded

private theorem OrderService.replaceOrder_moves {w : World} (oldOrderId : OrderId)
    (req : PlaceOrderRequest) (userId : UserId) (clock : Clock) (acc : w.Accounted False) :
    (OrderService.replaceOrder oldOrderId req userId clock w).2.Accounted False ∧
      ((OrderService.replaceOrder oldOrderId req userId clock w).2.db = w.db ∨
        Run moveStep w.db ((SessionOp.replace oldOrderId req userId clock).moves w.nextId)
          (OrderService.replaceOrder oldOrderId req userId clock w).2.db) := by
  generalize freshEq : ({ w with nextId := w.nextId + 1 } : World) = fresh
  have accFresh : fresh.Accounted False := by
    rw [← freshEq]
    exact ⟨acc.funded, fun m active => by
      obtain ⟨v, shows, backs, known⟩ := acc.books m active
      exact ⟨v, shows, backs, fun id x here => Nat.lt_succ_of_lt (known id x here)⟩⟩
  have world := MatchingEngine.replaceOrder_world oldOrderId (req.draft w.nextId userId clock)
    fresh
  have db : fresh.db = w.db := by rw [← freshEq]
  simp only at world
  simp only [OrderService.replaceOrder, World.generateId, freshEq]
  generalize MatchingEngine.replaceOrder oldOrderId (req.draft w.nextId userId clock) fresh =
    outcome at world
  rcases world with ⟨_, refused⟩ | ⟨row, db₁, cancelled, placed, db', ob, filled, untouched, home,
    _, ends, inner, equal⟩
  · have same : (fresh.finish .none outcome).2 = outcome.2 ∧ outcome.2.db = w.db := by
      have undone : outcome.2.db = fresh.db := by
        rcases refused with same | ⟨m, same⟩ | ⟨m, same⟩ <;> rw [same] <;> rfl
      refine ⟨?_, undone.trans db⟩
      rcases World.finish_world fresh .none outcome with rolledBack | ⟨_, kept⟩
      · rw [rolledBack, ← undone]
      · exact kept
    rw [same.1]
    refine ⟨?_, Or.inl same.2⟩
    rcases refused with same | ⟨m, same⟩ | ⟨m, same⟩
    · exact same ▸ accFresh
    · exact same ▸ accFresh.evict m le_rfl
    · exact same ▸ accFresh.drop m oldOrderId le_rfl
  · obtain rfl := equal
    have bookSame : fresh.getOrCreateOrderbook row.marketId =
        w.getOrCreateOrderbook row.marketId := by rw [← freshEq]; rfl
    rw [bookSame] at inner
    rw [db] at ends
    obtain ⟨kept, v, shows, absent, backs⟩ := acc.replaced rfl home ends inner
    have placement : moveStep db₁ (.placed (req.draft w.nextId userId clock)) db' :=
      ⟨_, ob, placed, v, inner, shows, absent, backs⟩
    have equal : (fresh.finish .none (.ok (⟨cancelled, placed⟩ : MatchingEngine.Replaced),
        { fresh.keepBook row.marketId ob with db := db' })).2 =
          { w.keepBook row.marketId ob with db := db', nextId := w.nextId + 1 } := by
      rw [← freshEq]
      rfl
    rw [equal]
    exact ⟨kept, Or.inr (.cons ⟨row, filled, untouched, ends⟩ (.single placement))⟩

/-- A request of a session keeps the orders funded and the books backed, and makes
its own moves on the tables or none. -/
theorem sessionStep_moves {s s' : Session} {op : SessionOp} (step : sessionStep s op s')
    (acc : s.world.Accounted False) : s'.world.Accounted False ∧
      (s'.world.db = s.world.db ∨
        Run moveStep s.world.db (op.moves s.world.nextId) s'.world.db) := by
  obtain rfl := step
  obtain ⟨w, entries⟩ := s
  simp only at acc
  cases op with
  | place req userId clock =>
    have world := OrderService.placeOrder_world req userId clock .none w
    simp only at world
    simp only [Session.next]
    generalize (OrderService.placeOrder req userId clock .none w).2 = w' at world
    rcases world with rfl | ⟨_, fresh, ⟨_, rfl⟩ | ⟨_, placed, db, ob, inner, rfl⟩⟩
    · exact ⟨acc, Or.inl rfl⟩
    · exact ⟨acc.evict _ (Nat.le_succ _), Or.inl rfl⟩
    · obtain ⟨kept, _, v, shows, absent, backs⟩ :=
        acc.place (show (req.draft w.nextId userId clock).id = w.nextId from rfl) inner
      exact ⟨kept, Or.inr (.single ⟨_, ob, placed, v, inner, shows, absent, backs⟩)⟩
  | cancel orderId userId =>
    have world := OrderService.cancelOrder_world orderId userId .none w
    have kept := (OrderService.cancelOrder_accounted
      (show fundsStep w (.cancel orderId userId .none) _ from rfl) acc).1
    refine ⟨kept, ?_⟩
    simp only at world
    simp only [Session.next]
    generalize (OrderService.cancelOrder orderId userId .none w).2 = w' at world
    rcases world with rfl | ⟨m, rfl⟩ | ⟨m, rfl⟩ | ⟨row, order, db, got, active, done, rfl⟩
    · exact Or.inl rfl
    · exact Or.inl rfl
    · exact Or.inl rfl
    · exact Or.inr (.single ⟨row, active, got, order, done⟩)
  | replace oldOrderId req userId clock =>
    exact OrderService.replaceOrder_moves oldOrderId req userId clock acc
  | batchCancel marketId userId scope =>
    have world := MatchingEngine.batchCancel_world marketId userId scope w
    refine ⟨acc.batchCancel marketId userId scope, ?_⟩
    simp only at world
    simp only [Session.next]
    rcases world with same | same | ⟨step, _⟩
    · exact Or.inl (by rw [same])
    · exact Or.inl (by rw [same])
    · exact Or.inr (.single step)
  | privileged call =>
    simp only [Session.next]
    rcases call.run_db ⟨w.db, entries⟩ with same | minted | burned
    · rw [same]
      exact ⟨acc, Or.inl rfl⟩
    · refine ⟨acc.tables ?_ (fun m => World.active_of_update minted.market (fun _ => rfl)),
        Or.inr (.single (Or.inl minted))⟩
      rw [minted.rest]
    · refine ⟨acc.tables ?_ (fun m => World.active_of_update burned.market (fun _ => rfl)),
        Or.inr (.single (Or.inr burned))⟩
      rw [burned.rest]
  | resolve marketId outcome =>
    have world := AdminService.resolveMarket_world marketId outcome .none w
    have kept := (AdminService.resolveMarket_accounted
      (show fundsStep w (.resolve marketId outcome .none) _ from rfl) acc).1
    refine ⟨kept, ?_⟩
    simp only at world
    simp only [Session.next]
    generalize (AdminService.resolveMarket marketId outcome .none w).2 = w' at world
    rcases world with rfl | ⟨db, ran, rfl⟩
    · exact Or.inl rfl
    · exact Or.inr (.single ran)

/-- A session begins without any order stored and without any book in memory. -/
structure Session.Opening (s : Session) : Prop where
  orders : s.world.db.orders.rows = []
  books : ∀ m, s.world.orderbooks m = none

theorem Session.Opening.accounted {s : Session} (opening : s.Opening) :
    s.world.Accounted False := by
  refine .of_empty opening.orders ?_
  intro m
  simp [World.getOrCreateOrderbook, opening.books]

def SessionOp.isReplace : SessionOp → Bool
  | .replace .. => true
  | _ => false

section Example

def pairMarket : Session where
  world :=
    { orderbooks := fun _ => none
      db :=
        { holdings :=
            { accounts := .ofRows [("alice", ⟨5000, 0, true⟩), ("bob", ⟨5000, 0, false⟩),
                (PLATFORM_FEE_USER_ID, ⟨0, 0, false⟩)]
              positions := .ofRows [(("alice", "m"), ⟨⟨10, 500, 0⟩, ⟨10, 500, 0⟩⟩),
                (("bob", "m"), ⟨⟨10, 500, 0⟩, ⟨10, 500, 0⟩⟩)] }
          markets := .ofRows [("m", ⟨.active, 2000, 0, 20, 20, 20, none⟩)]
          orders := .empty
          trades := []
          ledger := []
          wal := [] }
      nextId := 1 }
  inserted := []

theorem pairMarket_opening : pairMarket.Opening := ⟨rfl, fun _ => rfl⟩

def sellFourYes : SessionOp := .place ⟨"s1", "m", .yes, .sell, 50, 4, .gtc⟩ "alice" ⟨0, 0⟩

def buyOneYes : SessionOp := .place ⟨"b1", "m", .yes, .buy, 50, 1, .ioc⟩ "bob" ⟨1, 1⟩

def mintTwoPairs : SessionOp := .privileged ⟨.ammMint, "bob", "m", 2, "k"⟩

end Example

end PredictionMarket
