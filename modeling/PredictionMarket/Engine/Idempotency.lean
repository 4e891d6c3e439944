/- PredictionMarket/Engine/Idempotency
   digest: A repeated client order id finds the stored order, and repetitions change nothing. -/

import PredictionMarket.Engine.PlaceFrames
import PredictionMarket.Engine.Releases

set_option autoImplicit false
set_option relaxedAutoImplicit false

namespace PredictionMarket

open Library

/-- The part of a request that its order row keeps for the idempotency check. -/
structure RequestKey where
  clientOrderId : String
  userId : UserId
  originalSide : OriginalSide
  originalDirection : OrderDirection
  originalPrice : Int
  quantity : Int
  deriving DecidableEq

def OrderRow.request (r : OrderRow) : RequestKey :=
  ⟨r.clientOrderId, r.userId, r.originalSide, r.originalDirection, r.originalPrice, r.quantity⟩

def OrderDraft.request (d : OrderDraft) : RequestKey :=
  ⟨d.clientOrderId, d.userId, d.originalSide, d.originalDirection, d.originalPrice, d.quantity⟩

def OrderRow.usedKey (r : OrderRow) : String × UserId := (r.clientOrderId, r.userId)

private theorem OrderRow.usedKey_eq {r r' : OrderRow} (same : r.request = r'.request) :
    r.usedKey = r'.usedKey :=
  Prod.ext (congrArg RequestKey.clientOrderId same) (congrArg RequestKey.userId same)

def OrderRow.Repeats (r : OrderRow) (req : PlaceOrderRequest) : Prop :=
  r.originalSide = req.side ∧ r.originalDirection = req.direction ∧
    r.originalPrice = req.priceCents ∧ r.quantity = req.quantity

instance (r : OrderRow) (req : PlaceOrderRequest) : Decidable (r.Repeats req) :=
  inferInstanceAs (Decidable (_ ∧ _ ∧ _ ∧ _))

def Db.KeepsRequests (db db' : Db) : Prop :=
  ∀ j, (db'.orders.get? j).map OrderRow.request = (db.orders.get? j).map OrderRow.request

def Db.KeyedOnce (db : Db) : Prop :=
  ∀ i j r r', db.orders.get? i = some r → db.orders.get? j = some r' →
    r.usedKey = r'.usedKey → i = j

section Requests

variable {db db' db'' : Db}

private theorem Db.KeepsRequests.of_orders (same : db'.orders = db.orders) :
    db.KeepsRequests db' := by
  intro j
  rw [same]

private theorem Db.KeepsRequests.trans (first : db.KeepsRequests db')
    (second : db'.KeepsRequests db'') :
    db.KeepsRequests db'' := fun j => (second j).trans (first j)

private theorem Db.KeepsRequests.of_update {id : OrderId} {f : OrderRow → OrderRow}
    (done : db.orders.update? id f = some db'.orders) (kept : ∀ r, (f r).request = r.request) :
    db.KeepsRequests db' := Table.map_get?_update? done kept

private theorem Db.KeepsRequests.row (kept : db.KeepsRequests db') {j : OrderId} {row' : OrderRow}
    (got : db'.orders.get? j = some row') :
    ∃ row, db.orders.get? j = some row ∧ row.request = row'.request :=
  Table.row_of_map (kept j) got

private theorem Db.KeyedOnce.keep (keyed : db.KeyedOnce) (kept : db.KeepsRequests db') :
    db'.KeyedOnce := by
  intro i j r r' got got' key
  obtain ⟨s, was, request⟩ := kept.row got
  obtain ⟨s', was', request'⟩ := kept.row got'
  exact keyed i j s s' was was' ((OrderRow.usedKey_eq request).trans
    (key.trans (OrderRow.usedKey_eq request').symm))

private theorem Db.getByClientOrderId_none {clientOrderId : String} {userId : UserId}
    (unused : db.getByClientOrderId clientOrderId userId = none) {j : OrderId} {row : OrderRow}
    (got : db.orders.get? j = some row) : row.usedKey ≠ (clientOrderId, userId) := by
  rw [getByClientOrderId, Option.map_eq_none_iff, List.find?_eq_none] at unused
  simpa [OrderRow.usedKey] using unused (j, row) (Table.mem_iff.mpr got)

private theorem Db.KeyedOnce.getByClientOrderId (keyed : db.KeyedOnce) {id : OrderId}
    {row : OrderRow}
    (got : db.orders.get? id = some row) :
    db.getByClientOrderId row.clientOrderId row.userId = some (rowToOrder id row) := by
  cases found : db.getByClientOrderId row.clientOrderId row.userId with
  | none => exact absurd rfl (Db.getByClientOrderId_none found got)
  | some order =>
    obtain ⟨⟨i, r⟩, first, rfl⟩ := Option.map_eq_some_iff.mp found
    have here : r.usedKey = row.usedKey := by
      simpa [OrderRow.usedKey] using List.find?_some first
    have stored := Table.mem_iff.mp (List.mem_of_find?_eq_some first)
    obtain rfl := keyed i id r row stored got here
    rw [Option.some.inj (stored.symm.trans got)]

end Requests

section Placement

variable {draft : OrderDraft} {ob ob' : OrderBook} {db db' : Db}

private theorem acceptOrder_unused {order : Order} {market : MarketState}
    (done : acceptOrder draft db = .ok (order, market, db')) :
    db.getByClientOrderId draft.clientOrderId draft.userId = none := by
  obtain ⟨db₁, db₂, frozen, saved, _⟩ := acceptOrder_saved done
  obtain ⟨rfl, h, ledger, _, rfl⟩ := checkAndFreeze_ok frozen
  unfold Db.save at saved
  split at saved
  · cases saved
  · next unused => exact unused

private theorem placeOrderInner_requests {placed : Placed}
    (done : placeOrderInner draft ob db = (.ok (placed, db'), ob')) :
    db.getByClientOrderId draft.clientOrderId draft.userId = none ∧
      ∀ j, (db'.orders.get? j).map OrderRow.request =
        if j = draft.id then some draft.request else (db.orders.get? j).map OrderRow.request := by
  refine ⟨?_, placeOrderInner_column (fun _ _ => rfl) done⟩
  obtain ⟨⟨_, _, _, _, _, _, _, _, accepted, _⟩, _⟩ := placeOrderInner_phases done
  exact acceptOrder_unused accepted

private theorem Db.KeyedOnce.placed {placed : Placed} (keyed : db.KeyedOnce)
    (done : placeOrderInner draft ob db = (.ok (placed, db'), ob')) : db'.KeyedOnce := by
  obtain ⟨unused, rows⟩ := placeOrderInner_requests done
  have new : ∀ {r}, db'.orders.get? draft.id = some r → r.request = draft.request := by
    intro r got
    have same := rows draft.id
    rw [got, Option.map_some, if_pos rfl] at same
    exact Option.some.inj same
  -- A row of another id was there before, with another key than the draft's.
  have before : ∀ {j r}, db'.orders.get? j = some r → j ≠ draft.id →
      ∃ row, db.orders.get? j = some row ∧ row.usedKey = r.usedKey ∧
        r.usedKey ≠ (draft.clientOrderId, draft.userId) := by
    intro j r got other
    obtain ⟨row, was, request⟩ := Table.row_of_map ((rows j).trans (if_neg other)) got
    have key := OrderRow.usedKey_eq request
    exact ⟨row, was, key, key ▸ Db.getByClientOrderId_none unused was⟩
  have own : ∀ {r}, db'.orders.get? draft.id = some r →
      r.usedKey = (draft.clientOrderId, draft.userId) := by
    intro r got
    have request := new got
    exact Prod.ext (congrArg RequestKey.clientOrderId request)
      (congrArg RequestKey.userId request)
  intro i j r r' got got' key
  by_cases first : i = draft.id
  · by_cases second : j = draft.id
    · exact first.trans second.symm
    · obtain ⟨_, _, _, other⟩ := before got' second
      exact absurd (key.symm.trans (own (first ▸ got))) other
  · obtain ⟨s, was, same, other⟩ := before got first
    by_cases second : j = draft.id
    · exact absurd (key.trans (own (second ▸ got'))) other
    · obtain ⟨s', was', same', _⟩ := before got' second
      exact keyed i j s s' was was' (same.trans (key.trans same'.symm))

end Placement

section Runs

variable {db db' : Db}

private theorem Db.Ends.requests {id : OrderId} {row : OrderRow} (ends : db.Ends id row db') :
    db.KeepsRequests db' := by
  intro j
  rw [ends.get?_orders]
  split
  · next here =>
    rw [here, ends.1]
    rfl
  · rfl

private theorem AdminService.resolve_requests {marketId : MarketId} {outcome : OriginalSide}
    (done : AdminService.resolveInTransaction marketId outcome db = .ok db') :
    db.KeepsRequests db' := by
  obtain ⟨db₁, cancelled, settled⟩ := AdminService.resolveInTransaction_ok done
  have loop := foldlM_preserves (P := fun d => db.KeepsRequests d)
    (fun _ _ _ _ step kept => kept.trans
      (.of_update (AdminService.cancelAndUnfreeze_ok step).2.1 (fun _ => rfl)))
    cancelled (.of_orders rfl)
  exact loop.trans (.of_orders (AdminService.settleMarket_ok settled).1)

private theorem moveStep_keyed {m : Move} (step : moveStep db m db') (keyed : db.KeyedOnce) :
    db'.KeyedOnce := by
  cases m with
  | placed draft =>
    obtain ⟨ob, ob', placed, v, done, _⟩ := step
    exact keyed.placed done
  | cancelled id =>
    obtain ⟨row, _, ends⟩ := step
    exact keyed.keep ends.requests
  | retired id =>
    obtain ⟨row, _, _, ends⟩ := step
    exact keyed.keep ends.requests
  | batch marketId userId scope =>
    obtain ⟨db₁, h, marked, _, rfl⟩ := step
    refine keyed.keep (fun j => ?_)
    rw [(markCancelled_ok _ marked).2.2]
    split
    · cases db.orders.get? j <;> rfl
    · rfl
  | privileged call =>
    refine keyed.keep (.of_orders ?_)
    rcases step with minted | burned
    · rw [minted.rest]
    · rw [burned.rest]
  | resolved marketId outcome => exact keyed.keep (AdminService.resolve_requests step)

/-- In every state of a session a client order id stands for one order of its user. -/
private theorem session_keyed {s s' : Session} {ops : List SessionOp} (opening : s.Opening)
    (run : Run sessionStep s ops s') : s'.world.db.KeyedOnce := by
  have start : s.world.Accounted False ∧ s.world.db.KeyedOnce := by
    refine ⟨opening.accounted, fun i j r r' got _ _ => ?_⟩
    have stored := Table.mem_iff.mpr got
    rw [opening.orders] at stored
    cases stored
  refine (run.preserves (P := fun s => s.world.Accounted False ∧ s.world.db.KeyedOnce) ?_ start).2
  intro s op s' step before
  obtain ⟨acc, keyed⟩ := before
  obtain ⟨acc', moved⟩ := sessionStep_moves step acc
  refine ⟨acc', ?_⟩
  rcases moved with same | moves
  · rw [same]
    exact keyed
  · exact moves.preserves (fun _ _ _ move keyed => moveStep_keyed move keyed) keyed

end Runs

section Repetition

variable {w : World} {req : PlaceOrderRequest} {userId : UserId}

private theorem OrderService.placeOrder_known {order : Order}
    (known : w.db.getByClientOrderId req.clientOrderId userId = some order) (clock : Clock) :
    OrderService.placeOrder req userId clock .none w =
      (if order.originalSide = req.side ∧ order.originalDirection = req.direction ∧
          order.originalPrice = req.priceCents ∧ order.quantity = req.quantity then
        .ok ⟨order, [], 0⟩
      else .error (.app (duplicateOrderError req.clientOrderId)), w) := by
  simp only [OrderService.placeOrder, known, reduceCtorEq, if_false]
  split
  · next other => rw [if_neg (by tauto)]
  · next same => rw [if_pos (by tauto)]

private theorem OrderService.placeOrder_stores {clock : Clock} {placed : Placed} {w' : World}
    (done : OrderService.placeOrder req userId clock .none w = (.ok placed, w')) :
    ∃ id row, w'.db.orders.get? id = some row ∧
      row.usedKey = (req.clientOrderId, userId) ∧ row.Repeats req := by
  cases known : w.db.getByClientOrderId req.clientOrderId userId with
  | some order =>
    rw [OrderService.placeOrder_known known, Prod.mk.injEq] at done
    obtain ⟨answer, rfl⟩ := done
    obtain ⟨⟨id, row⟩, found, rfl⟩ := Option.map_eq_some_iff.mp known
    refine ⟨id, row, Table.mem_iff.mp (List.mem_of_find?_eq_some found), ?_, ?_⟩
    · simpa [OrderRow.usedKey] using List.find?_some found
    · split at answer
      · next same => exact same
      · cases answer
  | none =>
    obtain ⟨db, ob, inner, same⟩ := OrderService.placeOrder_fresh known done
    have new := (placeOrderInner_requests inner).2 (req.draft w.nextId userId clock).id
    rw [if_pos rfl, Option.map_eq_some_iff] at new
    obtain ⟨row, got, request⟩ := new
    refine ⟨_, row, same ▸ got, ?_, ?_⟩
    · exact Prod.ext (congrArg RequestKey.clientOrderId request)
        (congrArg RequestKey.userId request)
    · exact ⟨congrArg RequestKey.originalSide request,
        congrArg RequestKey.originalDirection request,
        congrArg RequestKey.originalPrice request, congrArg RequestKey.quantity request⟩

def Session.repeated (s : Session) (req : PlaceOrderRequest) (userId : UserId)
    (clocks : List Clock) : Session :=
  clocks.foldl (fun s clock => s.next (.place req userId clock)) s

private theorem Session.repeated_known {s : Session} {order : Order}
    (known : s.world.db.getByClientOrderId req.clientOrderId userId = some order)
    (clocks : List Clock) : s.repeated req userId clocks = s := by
  induction clocks with
  | nil => rfl
  | cons clock clocks ih =>
    have same : s.next (.place req userId clock) = s := by
      rw [Session.next, OrderService.placeOrder_known known]
    rw [Session.repeated, List.foldl_cons, same]
    exact ih

/-- Order placement is idempotent by client order id. In every state of a session a
request with a used key is answered from the stored order, which is returned without
trades when side, direction, price and quantity are the same and refused else, and
nothing changes. A successful request leaves such an order, and its repetitions leave
the state of the single call. -/
theorem placement_idempotent {s s' : Session} {ops : List SessionOp} (opening : s.Opening)
    (run : Run sessionStep s ops s') :
    (∀ id row req clock, s'.world.db.orders.get? id = some row →
      row.clientOrderId = req.clientOrderId →
      OrderService.placeOrder req row.userId clock .none s'.world =
        (if row.Repeats req then .ok ⟨rowToOrder id row, [], 0⟩
        else .error (.app (duplicateOrderError req.clientOrderId)), s'.world)) ∧
    ∀ req userId clock placed,
      (OrderService.placeOrder req userId clock .none s'.world).1 = .ok placed →
      (∃ id row, (s'.next (.place req userId clock)).world.db.orders.get? id = some row ∧
        row.usedKey = (req.clientOrderId, userId) ∧ row.Repeats req) ∧
      ∀ clocks, (s'.next (.place req userId clock)).repeated req userId clocks =
        s'.next (.place req userId clock) := by
  have keyed := session_keyed opening run
  constructor
  · intro id row req clock got client
    have known := keyed.getByClientOrderId got
    rw [client] at known
    exact OrderService.placeOrder_known known clock
  · intro req userId clock placed done
    obtain ⟨id, row, got, key, same⟩ := OrderService.placeOrder_stores
      (show OrderService.placeOrder req userId clock .none s'.world =
        (.ok placed, (s'.next (.place req userId clock)).world) from Prod.ext done rfl)
    refine ⟨⟨id, row, got, key, same⟩, fun clocks => ?_⟩
    have keyed' := session_keyed opening (run.append (.single (show
      sessionStep s' (.place req userId clock) (s'.next (.place req userId clock)) from rfl)))
    have known := keyed'.getByClientOrderId got
    rw [show row.clientOrderId = req.clientOrderId from congrArg Prod.fst key,
      show row.userId = userId from congrArg Prod.snd key] at known
    exact Session.repeated_known known clocks

/-- An order is found again while it rests. -/
theorem resting_sale_repeated :
    let s' := pairMarket.next sellFourYes
    ∃ row, s'.world.db.orders.get? 1 = some row ∧
      OrderService.placeOrder ⟨"s1", "m", .yes, .sell, 50, 4, .gtc⟩ "alice" ⟨9, 9⟩ .none s'.world =
        (.ok ⟨rowToOrder 1 row, [], 0⟩, s'.world) := by
  intro s'
  have run : Run sessionStep pairMarket [sellFourYes] s' := .single rfl
  have stored : (s'.world.db.orders.get? 1).map (fun r => (r.request, decide (r.Repeats
      ⟨"s1", "m", .yes, .sell, 50, 4, .gtc⟩))) =
      some (⟨"s1", "alice", .yes, .sell, 50, 4⟩, true) := by decide +kernel
  obtain ⟨row, got, fields⟩ := Option.map_eq_some_iff.mp stored
  obtain ⟨request, same⟩ := Prod.mk.inj fields
  have answer := (placement_idempotent pairMarket_opening run).1 1 row
    ⟨"s1", "m", .yes, .sell, 50, 4, .gtc⟩ ⟨9, 9⟩ got (congrArg RequestKey.clientOrderId request)
  rw [show row.userId = "alice" from congrArg RequestKey.userId request,
    if_pos (of_decide_eq_true same)] at answer
  exact ⟨row, got, answer⟩

/-- The same request for another market is answered with the order of the first. -/
theorem other_market_answered : ∃ row req,
    Run sessionStep pairMarket [sellFourYes] (pairMarket.next sellFourYes) ∧
    (pairMarket.next sellFourYes).world.db.orders.get? 1 = some row ∧
    row.usedKey = (req.clientOrderId, "alice") ∧ row.marketId ≠ req.marketId ∧
    (OrderService.placeOrder req "alice" ⟨9, 9⟩ .none (pairMarket.next sellFourYes).world).1 =
      .ok ⟨rowToOrder 1 row, [], 0⟩ := by
  have run : Run sessionStep pairMarket [sellFourYes] (pairMarket.next sellFourYes) := .single rfl
  have stored : ((pairMarket.next sellFourYes).world.db.orders.get? 1).map
      (fun r => (r.request, r.marketId)) =
      some (⟨"s1", "alice", .yes, .sell, 50, 4⟩, "m") := by decide +kernel
  obtain ⟨row, got, fields⟩ := Option.map_eq_some_iff.mp stored
  obtain ⟨request, market⟩ := Prod.mk.inj fields
  have client : row.clientOrderId = "s1" := congrArg RequestKey.clientOrderId request
  have user : row.userId = "alice" := congrArg RequestKey.userId request
  have same : row.Repeats ⟨"s1", "n", .yes, .sell, 50, 4, .gtc⟩ :=
    ⟨congrArg RequestKey.originalSide request, congrArg RequestKey.originalDirection request,
      congrArg RequestKey.originalPrice request, congrArg RequestKey.quantity request⟩
  have known := (session_keyed pairMarket_opening run).getByClientOrderId got
  rw [client, user] at known
  refine ⟨row, ⟨"s1", "n", .yes, .sell, 50, 4, .gtc⟩, run, got, Prod.ext client user, ?_, ?_⟩
  · rw [market]
    decide
  · rw [OrderService.placeOrder_known known]
    exact if_pos same

end Repetition

end PredictionMarket
