/- PredictionMarket/Engine/Recovery
   digest: When the next request finds the book of the committed orders, whatever failed before. -/

import PredictionMarket.Engine.Resolution

set_option autoImplicit false
set_option relaxedAutoImplicit false

namespace PredictionMarket

open Library

/-- What can happen to the process and its database. Placements may fail
anywhere; the other requests are the ones that commit. -/
inductive Event
  | place (req : PlaceOrderRequest) (userId : UserId) (clock : Clock) (fault : Fault)
  | restart
  | commit (op : BookOp)
  | resolve (marketId : MarketId) (outcome : OriginalSide)

def eventStep : Steps World Event
  | w, .place req userId clock fault, w' =>
    w' = (OrderService.placeOrder req userId clock fault w).2
  | w, .restart, w' => w' = { w with orderbooks := fun _ => none }
  | w, .commit op, w' => committed w op w'
  | w, .resolve marketId outcome, w' =>
    AdminService.resolveMarket marketId outcome .none w = (.ok (), w')

namespace World

def Active (w : World) (m : MarketId) : Prop :=
  ∃ row, w.db.markets.get? m = some row ∧ row.status = .active

def Quiet (w : World) (m : MarketId) : Prop := w.db.resting m = fun _ => none

def Refuses (w : World) (draft : OrderDraft) : Prop :=
  ∃ e ob, placeOrderInner draft (w.getOrCreateOrderbook draft.marketId) w.db = (.error e, ob)

theorem not_refuses {w : World} {draft : OrderDraft} {placed : Placed} {db : Db} {ob : OrderBook}
    (inner : placeOrderInner draft (w.getOrCreateOrderbook draft.marketId) w.db =
      (.ok (placed, db), ob)) : ¬ w.Refuses draft := by
  rintro ⟨e, ob', refused⟩
  rw [inner] at refused
  cases refused

end World

/-- An active market loses its book only when it has no active order, and the
only placement whose commit fails is an IOC order that matches nothing. -/
def LosesNothing (w : World) : Event → Prop
  | .restart => ∀ m, w.Active m → w.Quiet m
  | .commit _ | .resolve _ _ => True
  | .place req userId clock fault =>
    let draft := req.draft w.nextId userId clock
    fault ≠ .lookup → w.db.getByClientOrderId req.clientOrderId userId = none →
      (fault = .statement ∨ w.Refuses draft → w.Active req.marketId → w.Quiet req.marketId) ∧
      (fault = .commit → ¬ w.Refuses draft → req.timeInForce = .ioc ∧
        (w.getOrCreateOrderbook req.marketId).Blocks draft.accepted)

theorem OrderService.placeOrder_world (req : PlaceOrderRequest) (userId : UserId) (clock : Clock)
    (fault : Fault) (w : World) :
    let draft := req.draft w.nextId userId clock
    let w' := (OrderService.placeOrder req userId clock fault w).2
    w' = w ∨ (fault ≠ .lookup ∧ w.db.getByClientOrderId req.clientOrderId userId = none ∧
      ((fault = .statement ∨ w.Refuses draft) ∧
          w' = { w.evict req.marketId with nextId := w.nextId + 1 } ∨
        fault ≠ .statement ∧ ∃ placed db ob,
          placeOrderInner draft (w.getOrCreateOrderbook req.marketId) w.db =
            (.ok (placed, db), ob) ∧
          w' = { w.keepBook req.marketId ob with
            db := if fault = .commit then w.db else db
            nextId := w.nextId + 1 })) := by
  intro draft w'
  unfold w' OrderService.placeOrder
  split
  · exact Or.inl rfl
  · next reached =>
    split
    · split <;> exact Or.inl rfl
    · next fresh =>
      refine Or.inr ⟨reached, fresh, ?_⟩
      simp only [World.generateId]
      split
      · next fails => exact Or.inl ⟨Or.inl fails, rfl⟩
      · next runs =>
        unfold MatchingEngine.placeOrder
        cases inner : placeOrderInner draft (w.getOrCreateOrderbook req.marketId) w.db with
        | mk outcome ob =>
          have same : placeOrderInner (req.draft w.nextId userId clock)
              (World.getOrCreateOrderbook { w with nextId := w.nextId + 1 }
                (req.draft w.nextId userId clock).marketId) w.db = (outcome, ob) := inner
          rw [same]
          cases outcome with
          | error e => exact Or.inl ⟨Or.inr ⟨e, ob, inner⟩, rfl⟩
          | ok r =>
            refine Or.inr ⟨runs, r.1, r.2, ob, rfl, ?_⟩
            simp only [World.finish]
            split <;> rfl

theorem PlaceRun.status {draft : OrderDraft} {ob ob' : OrderBook} {db db' : Db}
    (run : PlaceRun draft ob db ob' db') {m : MarketId} {row' : MarketRow}
    (got : db'.markets.get? m = some row') :
    ∃ row, db.markets.get? m = some row ∧ row.status = row'.status := by
  obtain ⟨market, db₁, order, n, market₁, db₂, order', db₃, accepted, cleared, final, _, _,
    flushed⟩ := run.phases
  obtain ⟨markets, updated, rfl⟩ := Db.flushMarket_ok flushed
  have kept : db₃.markets = db.markets :=
    final.1.trans ((clearFills_markets cleared).trans accepted.markets)
  rw [Table.get?_update? updated, kept] at got
  split at got
  · next same =>
    obtain ⟨row, was, rfl⟩ := Option.map_eq_some_iff.mp got
    exact ⟨row, same ▸ was, rfl⟩
  · exact ⟨row', got, rfl⟩

theorem PlaceRun.active {draft : OrderDraft} {ob ob' : OrderBook} {db db' : Db}
    (run : PlaceRun draft ob db ob' db') :
    ∃ row, db.markets.get? draft.marketId = some row ∧ row.status = .active := by
  obtain ⟨market, db₁, order, n, market₁, db₂, order', db₃, accepted, _⟩ := run.phases
  obtain ⟨row, got, active, _⟩ := accepted.active
  exact ⟨row, got, active⟩

/-- What an operation that commits does to the markets table and to the books of
active markets. -/
structure KeepsActive (w w' : World) : Prop where
  status : ∀ m, w'.Active m → w.Active m
  sync : (∀ m, w.Active m → w.InSync m) → ∀ m, w'.Active m → w'.InSync m

private theorem KeepsActive.of_generateId {w w' : World} (kept : KeepsActive w.generateId.2 w') :
    KeepsActive w w' := ⟨kept.status, kept.sync⟩

private theorem KeepsActive.refl (w : World) : KeepsActive w w := ⟨fun _ => id, fun sync => sync⟩

namespace MatchingEngine

variable {w w' : World}

private theorem placeOrder_keepsActive {draft : OrderDraft} {placed : Placed}
    (done : placeOrder draft w = (.ok placed, w')) : KeepsActive w w' := by
  have engine := done
  unfold placeOrder at done
  split at done
  · next placed' db ob inner =>
    have run := placeOrderInner_ok inner
    cases done
    have status : ∀ m, World.Active { w.keepBook draft.marketId ob with db := db } m →
        w.Active m := by
      rintro m ⟨row', got, active⟩
      obtain ⟨row, was, same⟩ := run.status got
      exact ⟨row, was, same.trans active⟩
    exact ⟨status, fun sync m active =>
      placeOrder_inSync engine (sync _ run.active) (sync m (status m active))⟩
  · cases done

private theorem cancelOrder_keepsActive {orderId : OrderId} {userId : UserId} {order : Order}
    (done : cancelOrder orderId userId w = (.ok order, w')) : KeepsActive w w' := by
  have markets : w'.db.markets = w.db.markets := by
    unfold cancelOrder at done
    split at done
    · cases done
    · split at done
      · cases done
      · split at done
        · cases done
        · simp only at done
          split at done
          · next order' db cancelled =>
            cases done
            exact (cancelInSavepoint_ok cancelled).2.1
          · cases done
          · cases done
  have status : ∀ m, w'.Active m → w.Active m := fun m active => by
    unfold World.Active at active ⊢
    rwa [markets] at active
  exact ⟨status, fun sync m active => cancelOrder_inSync done (sync m (status m active))⟩

private theorem replaceOrder_keepsActive {oldOrderId : OrderId} {new : OrderDraft}
    {replaced : Replaced}
    (done : replaceOrder oldOrderId new w = (.ok replaced, w')) : KeepsActive w w' := by
  have engine := done
  unfold replaceOrder at done
  split at done
  · cases done
  · next old got =>
    iterate 4
      split at done
      · cases done
    simp only at done
    split at done
    · cases done
    · cases done
    · next old' db cancelled =>
      split at done
      · next placed db' ob' inner =>
        have run := placeOrderInner_ok inner
        have kept := (cancelInSavepoint_ok cancelled).2.1
        cases done
        have status : ∀ m, World.Active { w.keepBook old.marketId ob' with db := db' } m →
            w.Active m := by
          rintro m ⟨row', got, active⟩
          obtain ⟨row, was, same⟩ := run.status got
          exact ⟨row, kept ▸ was, same.trans active⟩
        have home : w.Active new.marketId := by
          obtain ⟨row, got, active⟩ := run.active
          exact ⟨row, kept ▸ got, active⟩
        exact ⟨status, fun sync m active =>
          replaceOrder_inSync engine (sync _ home) (sync m (status m active))⟩
      · cases done
      · cases done

private theorem batchCancel_keepsActive {marketId : MarketId} {userId : UserId}
    {scope : CancelScope}
    {report : BatchCancelled} (done : batchCancel marketId userId scope w = (.ok report, w')) :
    KeepsActive w w' := by
  have markets : w'.db.markets = w.db.markets := by
    unfold batchCancel at done
    simp only at done
    split at done
    · cases done
      rfl
    · split at done
      · next db ran =>
        cases done
        simp only [bind_eq_ok] at ran
        obtain ⟨db₁, marked, moved⟩ := ran
        obtain ⟨h, _, rfl⟩ := Db.onHoldings_ok moved
        exact (markCancelled_ok _ marked).2.1
      · cases done
  have status : ∀ m, w'.Active m → w.Active m := fun m active => by
    unfold World.Active at active ⊢
    rwa [markets] at active
  exact ⟨status, fun sync m active => batchCancel_inSync done (sync m (status m active))⟩

end MatchingEngine

private theorem committed_keepsActive {w w' : World} {op : BookOp} (step : committed w op w') :
    KeepsActive w w' := by
  cases op with
  | place req userId clock =>
    obtain ⟨placed, done⟩ := step
    rcases OrderService.placeOrder_ok done with rfl | engine
    · exact .refl _
    · exact (MatchingEngine.placeOrder_keepsActive engine).of_generateId
  | cancel orderId userId =>
    obtain ⟨order, done⟩ := step
    exact MatchingEngine.cancelOrder_keepsActive (OrderService.cancelOrder_ok done)
  | replace oldOrderId req userId clock =>
    obtain ⟨replaced, done⟩ := step
    have engine := World.finish_ok (w := w.generateId.2) done
    exact (MatchingEngine.replaceOrder_keepsActive engine).of_generateId
  | batchCancel marketId userId scope =>
    obtain ⟨report, done⟩ := step
    exact MatchingEngine.batchCancel_keepsActive (World.finish_ok done)

private theorem AdminService.resolveMarket_ok {marketId : MarketId} {outcome : OriginalSide}
    {fault : Fault}
    {w w' : World} (done : AdminService.resolveMarket marketId outcome fault w = (.ok (), w')) :
    ∃ db, AdminService.resolveInTransaction marketId outcome w.db = .ok db ∧
      w' = { w with db := db } := by
  unfold AdminService.resolveMarket at done
  split at done
  · cases done
  · split at done
    · cases done
    · split at done
      · cases done
      · split at done
        · cases done
        · have ended := World.finish_ok done
          split at ended
          · next db ran =>
            cases ended
            exact ⟨db, ran, rfl⟩
          · cases ended

private theorem AdminService.resolveMarket_keepsActive {marketId : MarketId}
    {outcome : OriginalSide}
    {fault : Fault} {w w' : World}
    (done : AdminService.resolveMarket marketId outcome fault w = (.ok (), w')) :
    KeepsActive w w' := by
  obtain ⟨db, ran, rfl⟩ := AdminService.resolveMarket_ok done
  have status : ∀ m, World.Active { w with db := db } m → m ≠ marketId ∧ w.Active m := by
    rintro m ⟨row, got, active⟩
    obtain ⟨away, was⟩ := AdminService.resolve_markets ran m got active
    exact ⟨away, row, was, active⟩
  refine ⟨fun m active => (status m active).2, fun sync m active => ?_⟩
  obtain ⟨away, was⟩ := status m active
  have here := sync m was
  unfold World.InSync at here ⊢
  rw [show ({ w with db := db } : World).db = db from rfl, AdminService.resolve_resting ran away]
  exact here

private theorem World.inSync_of_quiet {w : World} {m : MarketId} (gone : w.orderbooks m = none)
    (quiet : w.Quiet m) : w.InSync m := by
  unfold World.InSync World.getOrCreateOrderbook
  rw [gone, quiet]
  exact .empty

/-- A placement that matches nothing and rests nothing leaves the content of the
book as it was. -/
private theorem placeOrderInner_blocked {draft : OrderDraft} {ob ob' : OrderBook} {db db' : Db}
    {placed : Placed} (done : placeOrderInner draft ob db = (.ok (placed, db'), ob'))
    (shows : ob.Shows (db.resting draft.marketId)) (ioc : draft.timeInForce = .ioc)
    (blocked : ob.Blocks draft.accepted) : ob'.Shows (db.resting draft.marketId) := by
  have run := placeOrderInner_ok done
  obtain ⟨market, db₁, order, n, market₁, db₂, order', db₃, accepted, _⟩ := run.phases
  obtain ⟨v', fills, rep', exact'⟩ :=
    matchOrder_spec draft.accepted ob _ shows.represents shows.exact
  have idle := matchOrder_blocked blocked shows.exact (OrderDraft.accepted_bookPrice accepted.price)
  obtain ⟨same, rfl⟩ := fills.progress.2.2.1 idle
  have force : (matchOrder draft.accepted ob).incoming.timeInForce = .ioc := by
    rw [same]
    exact draft.accepted_fields.2.2.2.2.2.2.1.trans ioc
  rw [run.book]
  unfold restRemainder
  rw [if_neg (by simp [force])]
  exact ⟨rep', exact'⟩

/-- A step that loses nothing keeps the books of the active markets in sync. -/
theorem eventStep_inSync {w w' : World} {event : Event} (step : eventStep w event w')
    (keeps : LosesNothing w event) (sync : ∀ m, w.Active m → w.InSync m) :
    ∀ m, w'.Active m → w'.InSync m := by
  cases event with
  | restart =>
    subst step
    exact fun m active => World.inSync_of_quiet rfl (keeps m active)
  | commit op => exact (committed_keepsActive step).sync sync
  | resolve marketId outcome => exact (AdminService.resolveMarket_keepsActive step).sync sync
  | place req userId clock fault =>
    intro m active
    have world := OrderService.placeOrder_world req userId clock fault w
    simp only [← (show w' = _ from step)] at world
    rcases world with rfl | ⟨reached, fresh, failed | done⟩
    · exact sync m active
    · obtain ⟨why, rfl⟩ := failed
      have quiet := (keeps reached fresh).1 why
      by_cases here : m = req.marketId
      · subst here
        exact World.inSync_of_quiet (by simp [World.evict]) (quiet active)
      · have before := sync m active
        unfold World.InSync World.getOrCreateOrderbook at before ⊢
        simpa [World.evict, here] using before
    · obtain ⟨_, placed, db, ob, inner, rfl⟩ := done
      have run := placeOrderInner_ok inner
      have home : w.InSync req.marketId := sync req.marketId run.active
      by_cases fails : fault = .commit
      · have accepted : ¬ w.Refuses (req.draft w.nextId userId clock) := by
          rintro ⟨e, ob', refused⟩
          rw [show (req.draft w.nextId userId clock).marketId = req.marketId from rfl, inner]
            at refused
          cases refused
        obtain ⟨ioc, blocked⟩ := (keeps reached fresh).2 fails accepted
        rw [if_pos fails] at active ⊢
        have before := sync m active
        exact World.InSync.keepBook before
          (fun same => by subst same; exact placeOrderInner_blocked inner home ioc blocked)
          (fun _ => rfl)
      · rw [if_neg fails] at active ⊢
        have engine : MatchingEngine.placeOrder (req.draft w.nextId userId clock)
            { w with nextId := w.nextId + 1 } = (.ok placed,
              { w.keepBook req.marketId ob with db := db, nextId := w.nextId + 1 }) := by
          unfold MatchingEngine.placeOrder
          rw [show placeOrderInner (req.draft w.nextId userId clock)
              (World.getOrCreateOrderbook { w with nextId := w.nextId + 1 }
                (req.draft w.nextId userId clock).marketId) w.db = (.ok (placed, db), ob) from inner]
          rfl
        exact (MatchingEngine.placeOrder_keepsActive engine).sync (fun i was => sync i was) m active

theorem eventRun_inSync {w w' : World} {events : List Event}
    (books : ∀ m, w.getOrCreateOrderbook m = .empty) (orders : w.db.orders.rows = [])
    (run : Run (Guarded LosesNothing eventStep) w events w') : ∀ m, w'.Active m → w'.InSync m :=
  run.preserves (P := fun w => ∀ m, w.Active m → w.InSync m)
    (fun _ _ _ step sync => eventStep_inSync step.2 step.1 sync)
    (fun m _ => World.inSync_of_empty books orders m)

/-- In every run that loses nothing, the next request on an active market finds
the book of its active orders. -/
theorem book_recovers {w w' : World} {events : List Event}
    (books : ∀ m, w.getOrCreateOrderbook m = .empty) (orders : w.db.orders.rows = [])
    (run : Run (Guarded LosesNothing eventStep) w events w') (m : MarketId) (active : w'.Active m) :
    (w'.getOrCreateOrderbook m).Shows (w'.db.resting m) :=
  eventRun_inSync books orders run m active

section Example

def lowBall : PlaceOrderRequest := ⟨"c4", "m", .yes, .buy, 30, 5, .ioc⟩

private theorem World.accepts {w : World} {draft : OrderDraft} (accepted : (placeOrderInner draft
    (w.getOrCreateOrderbook draft.marketId) w.db).1.isOk = true) : ¬ w.Refuses draft := by
  rintro ⟨e, ob, refused⟩
  rw [refused] at accepted
  cases accepted

theorem LosesNothing.of_accepted {w : World} {req : PlaceOrderRequest} {userId : UserId}
    {clock : Clock} (accepted : (placeOrderInner (req.draft w.nextId userId clock)
      (w.getOrCreateOrderbook req.marketId) w.db).1.isOk = true) :
    LosesNothing w (.place req userId clock .none) :=
  fun _ _ => ⟨fun why => absurd (why.resolve_left nofun) (World.accepts accepted), nofun⟩

end Example

/-- The commit of an order that matches nothing fails beside a bid that is filled in part. -/
theorem filled_bid_recovered :
    ∃ w', Run (Guarded LosesNothing eventStep) twoTraders
        [.place bidTwentyNo "bob" ⟨0, 0⟩ .none, .place buyOneOfThem "alice" ⟨1, 1⟩ .none,
          .place lowBall "alice" ⟨2, 2⟩ .commit] w' ∧
      w'.db.resting "m" 1 = some ⟨"bob", .syntheticSell, .sell, 40, 19⟩ ∧
      (w'.getOrCreateOrderbook "m").Shows (w'.db.resting "m") := by
  have accepted : (placeOrderInner (lowBall.draft oneOfThemFilled.nextId "alice" ⟨2, 2⟩)
      (oneOfThemFilled.getOrCreateOrderbook "m") oneOfThemFilled.db).1.isOk = true := by
    decide +kernel
  have apart : ¬ OrderDirection.sell.Crosses ((oneOfThemFilled.getOrCreateOrderbook "m").best .sell)
      30 := by decide +kernel
  have keeps : LosesNothing oneOfThemFilled (.place lowBall "alice" ⟨2, 2⟩ .commit) :=
    fun _ _ => ⟨fun why => absurd (why.resolve_left nofun) (World.accepts accepted),
      fun _ _ => ⟨rfl, fun crosses => absurd crosses apart⟩⟩
  have run : Run (Guarded LosesNothing eventStep) twoTraders
      [.place bidTwentyNo "bob" ⟨0, 0⟩ .none, .place buyOneOfThem "alice" ⟨1, 1⟩ .none,
        .place lowBall "alice" ⟨2, 2⟩ .commit]
      (OrderService.placeOrder lowBall "alice" ⟨2, 2⟩ .commit oneOfThemFilled).2 :=
    .cons ⟨.of_accepted (by decide +kernel), rfl⟩
      (.cons ⟨.of_accepted (by decide +kernel), rfl⟩ (.single ⟨keeps, rfl⟩))
  refine ⟨_, run, by decide +kernel, book_recovers (fun _ => rfl) rfl run "m" ⟨_, rfl, ?_⟩⟩
  decide +kernel

/-- The bid of a user without an account is refused, and takes every resting
order of the market off the book: nothing rebuilds it. -/
theorem refused_bid_empties_book :
    ¬ ∀ w w' events, (∀ m, World.getOrCreateOrderbook w m = .empty) → w.db.orders.rows = [] →
      Run eventStep w events w' → ∀ m, w'.Active m →
      (w'.getOrCreateOrderbook m).Represents (w'.db.resting m) := by
  intro claim
  let first := (OrderService.placeOrder buyTenYes "alice" ⟨0, 0⟩ .none openMarket).2
  let second := (OrderService.placeOrder { buyTenYes with clientOrderId := "c2" } "bob" ⟨1, 1⟩ .none
    first).2
  have run : Run eventStep openMarket [.place buyTenYes "alice" ⟨0, 0⟩ .none,
      .place { buyTenYes with clientOrderId := "c2" } "bob" ⟨1, 1⟩ .none] second :=
    .cons rfl (.single rfl)
  have rep := claim openMarket second _ (fun _ => rfl) rfl run "m" ⟨_, rfl, rfl⟩
  have stored : second.db.resting "m" 1 = some ⟨"alice", .nativeBuy, .buy, 40, 10⟩ := rfl
  have gone : second.getOrCreateOrderbook "m" = .empty := rfl
  obtain ⟨bo, queued, _⟩ := rep.present stored
  rw [gone] at queued
  cases queued

end PredictionMarket
