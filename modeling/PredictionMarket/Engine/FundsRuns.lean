/- PredictionMarket/Engine/FundsRuns
   digest: Runs of placements, cancels and resolutions, with books and frozen funds along them. -/

import PredictionMarket.Engine.ReleaseFunds
import PredictionMarket.Engine.Recovery

set_option autoImplicit false
set_option relaxedAutoImplicit false

namespace PredictionMarket

open Library

/-- The requests that move frozen funds; any of them may fail anywhere. -/
inductive FundsOp
  | place (req : PlaceOrderRequest) (userId : UserId) (clock : Clock) (fault : Fault)
  | cancel (orderId : OrderId) (userId : UserId) (fault : Fault)
  | resolve (marketId : MarketId) (outcome : OriginalSide) (fault : Fault)

def fundsStep : Steps World FundsOp
  | w, .place req userId clock fault, w' =>
    w' = (OrderService.placeOrder req userId clock fault w).2
  | w, .cancel orderId userId fault, w' =>
    w' = (OrderService.cancelOrder orderId userId fault w).2
  | w, .resolve marketId outcome fault, w' =>
    w' = (AdminService.resolveMarket marketId outcome fault w).2

theorem World.finish_world {α : Type} (w : World) (fault : Fault)
    (outcome : Except Err α × World) :
    (w.finish fault outcome).2 = { outcome.2 with db := w.db } ∨
      (∃ a, outcome.1 = .ok a) ∧ (w.finish fault outcome).2 = outcome.2 := by
  obtain ⟨result, after⟩ := outcome
  cases result with
  | error e => exact Or.inl rfl
  | ok a =>
    unfold World.finish
    simp only
    split
    · exact Or.inl rfl
    · exact Or.inr ⟨⟨a, rfl⟩, rfl⟩

private theorem MatchingEngine.cancelOrder_world (orderId : OrderId) (userId : UserId) (w : World) :
    let outcome := MatchingEngine.cancelOrder orderId userId w
    (outcome.2 = w ∨ (∃ m, outcome.2 = w.evict m) ∨
        ∃ m, outcome.2 = w.keepBook m ((w.getOrCreateOrderbook m).cancelOrder orderId)) ∨
      ∃ row order db, w.db.orders.get? orderId = some row ∧ row.isActive = true ∧
        MatchingEngine.cancelInSavepoint (rowToOrder orderId row) w.db = .ok (order, db) ∧
        outcome = (.ok order, { w.keepBook row.marketId
          ((w.getOrCreateOrderbook row.marketId).cancelOrder orderId) with db := db }) := by
  intro outcome
  unfold outcome MatchingEngine.cancelOrder
  split
  · exact Or.inl (Or.inl rfl)
  · next order got =>
    obtain ⟨row, stored, rfl⟩ := Option.map_eq_some_iff.mp got
    split
    · exact Or.inl (Or.inl rfl)
    · split
      · exact Or.inl (Or.inl rfl)
      · next cancellable =>
        have active : (rowToOrder orderId row).isCancellable = true := by simpa using cancellable
        simp only
        split
        · next cancelled db done => exact Or.inr ⟨row, cancelled, db, stored, active, done, rfl⟩
        · exact Or.inl (Or.inr (Or.inr ⟨_, rfl⟩))
        · exact Or.inl (Or.inr (Or.inl ⟨_, rfl⟩))

theorem OrderService.cancelOrder_world (orderId : OrderId) (userId : UserId) (fault : Fault)
    (w : World) :
    let w' := (OrderService.cancelOrder orderId userId fault w).2
    w' = w ∨ (∃ m, w' = w.evict m) ∨
      (∃ m, w' = w.keepBook m ((w.getOrCreateOrderbook m).cancelOrder orderId)) ∨
      ∃ row order db, w.db.orders.get? orderId = some row ∧ row.isActive = true ∧
        MatchingEngine.cancelInSavepoint (rowToOrder orderId row) w.db = .ok (order, db) ∧
        w' = { w.keepBook row.marketId
          ((w.getOrCreateOrderbook row.marketId).cancelOrder orderId) with db := db } := by
  intro w'
  have quiet : ∀ x : World, x = w ∨ (∃ m, x = w.evict m) ∨
      (∃ m, x = w.keepBook m ((w.getOrCreateOrderbook m).cancelOrder orderId)) →
      { x with db := w.db } = x := by
    rintro x (rfl | ⟨m, rfl⟩ | ⟨m, rfl⟩) <;> rfl
  have engine := MatchingEngine.cancelOrder_world orderId userId w
  unfold w' OrderService.cancelOrder
  split
  · exact Or.inl rfl
  · split
    · exact Or.inr (Or.inl ⟨_, rfl⟩)
    · rcases World.finish_world w _ (MatchingEngine.cancelOrder orderId userId w) with
        undone | ⟨_, kept⟩
      · rw [undone]
        rcases engine with same | ⟨row, order, db, _, _, _, equal⟩
        · rw [quiet _ same]
          exact same.imp_right (Or.imp_right Or.inl)
        · rw [equal]
          exact Or.inr (Or.inr (Or.inl ⟨row.marketId, rfl⟩))
      · rw [kept]
        rcases engine with same | ⟨row, order, db, got, active, done, equal⟩
        · exact same.imp_right (Or.imp_right Or.inl)
        · rw [equal]
          exact Or.inr (Or.inr (Or.inr ⟨row, order, db, got, active, done, rfl⟩))

theorem AdminService.resolveMarket_world (marketId : MarketId) (outcome : OriginalSide)
    (fault : Fault) (w : World) :
    let w' := (AdminService.resolveMarket marketId outcome fault w).2
    w' = w ∨ ∃ db, AdminService.resolveInTransaction marketId outcome w.db = .ok db ∧
      w' = { w with db := db } := by
  intro w'
  unfold w' AdminService.resolveMarket
  split
  · exact Or.inl rfl
  · split
    · exact Or.inl rfl
    · split
      · exact Or.inl rfl
      · split
        · exact Or.inl rfl
        · split
          · next db ran =>
            rcases World.finish_world w fault (.ok (), { w with db := db }) with undone | ⟨_, kept⟩
            · exact Or.inl undone
            · exact Or.inr ⟨db, ran, kept⟩
          · exact Or.inl rfl

namespace World

def BookBacked (lost : Prop) (w : World) (m : MarketId) : Prop :=
  ∃ v, (w.getOrCreateOrderbook m).Shows v ∧ w.db.Backs lost m v ∧
    ∀ id x, v id = some x → id < w.nextId

/-- Every order is funded, and the books of the active markets are backed. -/
structure Accounted (lost : Prop) (w : World) : Prop where
  funded : w.db.Funded
  books : ∀ m, w.Active m → w.BookBacked lost m

private theorem BookBacked.of_empty {lost : Prop} {w : World} {m : MarketId}
    (empty : w.getOrCreateOrderbook m = .empty) : w.BookBacked lost m := by
  refine ⟨fun _ => none, ?_, ?_, ?_⟩
  · rw [empty]
    exact .empty
  · intro id x here
    cases here
  · intro id x here
    cases here

theorem Accounted.of_empty {lost : Prop} {w : World} (orders : w.db.orders.rows = [])
    (books : ∀ m, w.getOrCreateOrderbook m = .empty) : w.Accounted lost := by
  constructor
  · intro id row got
    simp [Table.get?, orders] at got
  · intro m _
    exact .of_empty (books m)

theorem Accounted.step {lost : Prop} {w w' : World} (acc : w.Accounted lost) (m : MarketId)
    (others : ∀ i, i ≠ m → w'.orderbooks i = w.orderbooks i) (later : w.nextId ≤ w'.nextId)
    (funded : w'.db.Funded) (active : ∀ i, w'.Active i → w.Active i)
    (home : w'.Active m → w'.BookBacked lost m)
    (rows : ∀ i v, i ≠ m → w.db.Backs lost i v → (∀ id x, v id = some x → id < w.nextId) →
      w'.db.Backs lost i v) : w'.Accounted lost := by
  refine ⟨funded, fun i activeI => ?_⟩
  by_cases here : i = m
  · subst here
    exact home activeI
  · obtain ⟨v, shows, backs, known⟩ := acc.books i (active i activeI)
    refine ⟨v, ?_, rows i v here backs known, fun id x got => lt_of_lt_of_le (known id x got) later⟩
    unfold getOrCreateOrderbook at shows ⊢
    rwa [others i here]

theorem getOrCreateOrderbook_evict (w : World) (m : MarketId) (n : OrderId) :
    ({ w.evict m with nextId := n } : World).getOrCreateOrderbook m = .empty := by
  simp [getOrCreateOrderbook, evict]

theorem Accounted.evict {lost : Prop} {w : World} (acc : w.Accounted lost) (m : MarketId)
    {n : OrderId} (later : w.nextId ≤ n) :
    ({ w.evict m with nextId := n } : World).Accounted lost := by
  refine acc.step m (fun i other => ?_) later acc.funded (fun _ => id)
    (fun _ => .of_empty (w.getOrCreateOrderbook_evict m n)) (fun _ _ _ backs _ => backs)
  simp [World.evict, other]

/-- The placement goes through: it is no repetition, nothing fails, and the
engine accepts and clears it. -/
def Places (w : World) (req : PlaceOrderRequest) (userId : UserId) (clock : Clock)
    (fault : Fault) : Prop :=
  fault = .none ∧ w.db.getByClientOrderId req.clientOrderId userId = none ∧
    ¬ w.Refuses (req.draft w.nextId userId clock)

end World

private theorem Rested.backs {draft : OrderDraft} {db db' : Db} {lost : Prop}
    {v v'' u : RestingOrders}
    {i : MarketId} (rested : PlaceRun.Rested draft db db' lost v v'') (away : i ≠ draft.marketId)
    (backs : db.Backs lost i u) (absent : u draft.id = none) : db'.Backs lost i u := by
  intro j x here
  have other : j ≠ draft.id := by
    rintro rfl
    rw [absent] at here
    cases here
  rcases rested.elsewhere j other with ⟨row, got, home⟩ | kept
  · rcases backs j x here with ⟨gone, _⟩ | ⟨row', got', home', _⟩
    · rw [got] at gone
      cases gone
    · obtain rfl := Option.some.inj (got.symm.trans got')
      exact absurd (home'.symm.trans home) away
  · rw [kept]
    exact backs j x here

/-- A placement that went through, at the next id: its book and its tables together
are accounted for, and so is the book with the tables rolled back. -/
theorem World.Accounted.place {lost : Prop} {w : World} {draft : OrderDraft} {placed : Placed}
    {db : Db} {ob : OrderBook} (acc : w.Accounted lost) (next : draft.id = w.nextId)
    (inner : placeOrderInner draft (w.getOrCreateOrderbook draft.marketId) w.db =
      (.ok (placed, db), ob)) :
    ({ w.keepBook draft.marketId ob with db := db, nextId := w.nextId + 1 } : World).Accounted lost ∧
      (lost → ({ w.keepBook draft.marketId ob with nextId := w.nextId + 1 } : World).Accounted
        lost) ∧
      ∃ v, (w.getOrCreateOrderbook draft.marketId).Shows v ∧ v draft.id = none ∧
        w.db.Backs lost draft.marketId v := by
  have run := placeOrderInner_ok inner
  obtain ⟨v, shows, backs, known⟩ := acc.books _ run.active
  have absentIn : ∀ u : RestingOrders, (∀ id x, u id = some x → id < w.nextId) →
      u draft.id = none := by
    intro u given
    rw [next]
    cases got : u w.nextId with
    | none => rfl
    | some x => exact absurd (given _ _ got) (Nat.lt_irrefl _)
  obtain ⟨v'', shows'', rested⟩ := run.rested shows (absentIn v known) backs acc.funded
  have given : ∀ id x, v'' id = some x → id < w.nextId + 1 := by
    intro id x here
    rcases rested.known id x here with own | before
    · rw [own, next]
      exact Nat.lt_succ_self _
    · obtain ⟨y, got⟩ := Option.ne_none_iff_exists'.mp before
      exact Nat.lt_succ_of_lt (known id y got)
  have elsewhere : ∀ i, i ≠ draft.marketId →
      (w.keepBook draft.marketId ob).orderbooks i = w.orderbooks i := by
    intro i other
    simp [World.keepBook, other]
  have book : ∀ (d : Db) (n : OrderId), ({ w.keepBook draft.marketId ob with
      db := d, nextId := n } : World).getOrCreateOrderbook draft.marketId = ob := by
    intro d n
    simp [World.getOrCreateOrderbook, World.keepBook]
  refine ⟨?_, fun allowed => ?_, v, shows, absentIn v known, backs⟩
  · have funded := (run.spare shows (absentIn v known) backs acc.funded).1
    refine acc.step draft.marketId elsewhere (Nat.le_succ _) funded ?_
      (fun _ => ⟨v'', by rw [book]; exact shows'', rested.kept, given⟩)
      (fun i u away backs known => Rested.backs rested away backs (absentIn u known))
    rintro i ⟨row', got, active⟩
    obtain ⟨row, was, same⟩ := run.status got
    exact ⟨row, was, same.trans active⟩
  · refine acc.step draft.marketId elsewhere (Nat.le_succ _) acc.funded (fun _ => id)
      (fun _ => ⟨v'', by rw [book]; exact shows'', ?_, given⟩) (fun _ _ _ backs _ => backs)
    intro id x here
    exact (rested.rolledBack id x here).imp_left (fun gone => ⟨gone.1, allowed⟩)

/-- A placement request keeps the books backed; the tables change only when it
goes through. Rolled-back rows need a commit that fails. -/
theorem OrderService.placeOrder_accounted {lost : Prop} {w w' : World} {req : PlaceOrderRequest}
    {userId : UserId} {clock : Clock} {fault : Fault}
    (step : fundsStep w (.place req userId clock fault) w') (acc : w.Accounted lost)
    (safe : fault = .commit → lost) :
    w'.Accounted lost ∧ (w'.db = w.db ∨ w.Places req userId clock fault ∧
      ∃ ob v, (w.getOrCreateOrderbook req.marketId).Shows v ∧ v w.nextId = none ∧
        w.db.Backs lost req.marketId v ∧
        PlaceRun (req.draft w.nextId userId clock) (w.getOrCreateOrderbook req.marketId) w.db ob
          w'.db) := by
  have world := OrderService.placeOrder_world req userId clock fault w
  simp only [← (show w' = _ from step)] at world
  rcases world with rfl | ⟨reached, fresh, ⟨_, rfl⟩ | ⟨runs, placed, db, ob, inner, rfl⟩⟩
  · exact ⟨acc, Or.inl rfl⟩
  · exact ⟨acc.evict _ (Nat.le_succ _), Or.inl rfl⟩
  · obtain ⟨kept, rolledBack, v, shows, absent, backs⟩ := acc.place rfl inner
    by_cases fails : fault = .commit
    · rw [if_pos fails]
      exact ⟨rolledBack (safe fails), Or.inl rfl⟩
    · rw [if_neg fails]
      refine ⟨kept, Or.inr ?_⟩
      have clean : fault = .none := by
        cases fault with
        | none => rfl
        | lookup => exact absurd rfl reached
        | statement => exact absurd rfl runs
        | commit => exact absurd rfl fails
      exact ⟨⟨clean, fresh, World.not_refuses inner⟩, ob, v, shows, absent, backs,
        placeOrderInner_ok inner⟩

theorem Db.Backs.keep {db db' : Db} {lost : Prop} {m : MarketId} {v v' : RestingOrders}
    (backs : db.Backs lost m v) (fewer : ∀ id x, v' id = some x → v id = some x)
    (same : ∀ id x, v' id = some x → db'.orders.get? id = db.orders.get? id) :
    db'.Backs lost m v' := by
  intro id x here
  rw [same id x here]
  exact backs id x (fewer id x here)

private theorem RestingOrders.erase_eq_some {v : RestingOrders} {id j : OrderId} {x : Resting} :
    v.erase id j = some x ↔ j ≠ id ∧ v j = some x := by
  unfold erase
  by_cases same : j = id
  · simp [same]
  · simp [same]

theorem World.getOrCreateOrderbook_keepBook_self (w : World) (m : MarketId) (ob : OrderBook)
    (db : Db) (n : OrderId) :
    ({ w.keepBook m ob with db := db, nextId := n } : World).getOrCreateOrderbook m = ob := by
  simp [World.getOrCreateOrderbook, World.keepBook]

theorem World.keepBook_of_ne (w : World) {m i : MarketId} (ob : OrderBook) (other : i ≠ m) :
    (w.keepBook m ob).orderbooks i = w.orderbooks i := by
  simp [World.keepBook, other]

theorem World.Accounted.drop {lost : Prop} {w : World} (acc : w.Accounted lost) (m : MarketId)
    (id : OrderId) {n : OrderId} (later : w.nextId ≤ n) :
    ({ w.keepBook m ((w.getOrCreateOrderbook m).cancelOrder id) with nextId := n } :
      World).Accounted lost := by
  refine acc.step m (fun i => w.keepBook_of_ne _) later acc.funded (fun _ => fun active => active)
    (fun activeM => ?_) (fun _ _ _ backs _ => backs)
  obtain ⟨v, shows, backs, known⟩ := acc.books m activeM
  refine ⟨v.erase id, ?_, backs.keep ?_ (fun _ _ _ => rfl), ?_⟩
  · have same := w.getOrCreateOrderbook_keepBook_self m
      ((w.getOrCreateOrderbook m).cancelOrder id) w.db n
    exact (congrArg (fun ob => OrderBook.Shows ob (v.erase id)) same).mpr (shows.cancelOrder id)
  · intro j x here
    exact (RestingOrders.erase_eq_some.mp here).2
  · intro j x here
    exact lt_of_lt_of_le (known j x (RestingOrders.erase_eq_some.mp here).2) later

theorem World.Accounted.cancel {lost : Prop} {w : World} {id : OrderId} {row : OrderRow}
    {order : Order} {db : Db} (acc : w.Accounted lost) (got : w.db.orders.get? id = some row)
    (done : MatchingEngine.cancelInSavepoint (rowToOrder id row) w.db = .ok (order, db)) :
    ({ w.keepBook row.marketId ((w.getOrCreateOrderbook row.marketId).cancelOrder id) with
      db := db } : World).Accounted lost := by
  obtain ⟨_, markets, updated⟩ := cancelInSavepoint_ok done
  have rows : ∀ j, j ≠ id → db.orders.get? j = w.db.orders.get? j := by
    intro j other
    rw [Table.get?_update? updated]
    exact if_neg other
  have status : ∀ m, World.Active { w.keepBook row.marketId
      ((w.getOrCreateOrderbook row.marketId).cancelOrder id) with db := db } m → w.Active m := by
    intro m activeM
    unfold World.Active at activeM ⊢
    rwa [markets] at activeM
  refine acc.step row.marketId (fun i => w.keepBook_of_ne _) le_rfl
    (cancelInSavepoint_funded done acc.funded) status (fun activeM => ?_)
    (fun m v away backs _ => ?_)
  · obtain ⟨v, shows, backs, known⟩ := acc.books _ (status _ activeM)
    refine ⟨v.erase id, ?_, backs.keep ?_ ?_, ?_⟩
    · have same := w.getOrCreateOrderbook_keepBook_self row.marketId
        ((w.getOrCreateOrderbook row.marketId).cancelOrder id) db w.nextId
      exact (congrArg (fun ob => OrderBook.Shows ob (v.erase id)) same).mpr (shows.cancelOrder id)
    · intro j x here
      exact (RestingOrders.erase_eq_some.mp here).2
    · intro j x here
      exact rows j (RestingOrders.erase_eq_some.mp here).1
    · intro j x here
      exact known j x (RestingOrders.erase_eq_some.mp here).2
  · refine backs.keep (fun _ _ here => here) (fun j x here => rows j ?_)
    rintro rfl
    rcases backs j x here with ⟨gone, _⟩ | ⟨row', got', home, _⟩
    · rw [got] at gone
      cases gone
    · obtain rfl := Option.some.inj (got.symm.trans got')
      exact away home.symm

theorem OrderService.cancelOrder_accounted {lost : Prop} {w w' : World} {orderId : OrderId}
    {userId : UserId} {fault : Fault} (step : fundsStep w (.cancel orderId userId fault) w')
    (acc : w.Accounted lost) : w'.Accounted lost ∧ w.db.SameSpare w'.db := by
  have same : w.db.SameSpare w.db := ⟨fun _ => Iff.rfl, fun _ _ => rfl⟩
  have world := OrderService.cancelOrder_world orderId userId fault w
  simp only [← (show w' = _ from step)] at world
  rcases world with rfl | ⟨m, rfl⟩ | ⟨m, rfl⟩ | ⟨row, order, db, got, active, done, rfl⟩
  · exact ⟨acc, same⟩
  · exact ⟨acc.evict m le_rfl, same⟩
  · exact ⟨acc.drop m orderId le_rfl, same⟩
  · exact ⟨acc.cancel got done, cancelInSavepoint_spare done got active⟩

theorem AdminService.resolveMarket_accounted {lost : Prop} {w w' : World} {marketId : MarketId}
    {outcome : OriginalSide} {fault : Fault}
    (step : fundsStep w (.resolve marketId outcome fault) w') (acc : w.Accounted lost) :
    w'.Accounted lost ∧ w.db.SameSpare w'.db := by
  have world := AdminService.resolveMarket_world marketId outcome fault w
  simp only [← (show w' = _ from step)] at world
  rcases world with rfl | ⟨db, ran, rfl⟩
  · exact ⟨acc, fun _ => Iff.rfl, fun _ _ => rfl⟩
  · obtain ⟨same, funded, rows⟩ := AdminService.resolve_spare ran
    have status : ∀ m, World.Active { w with db := db } m → m ≠ marketId ∧ w.Active m := by
      rintro m ⟨row, got, active⟩
      obtain ⟨away, was⟩ := AdminService.resolve_markets ran m got active
      exact ⟨away, row, was, active⟩
    refine ⟨acc.step marketId (fun _ _ => rfl) le_rfl (funded acc.funded)
      (fun m active => (status m active).2) (fun active => absurd rfl (status _ active).1)
      (fun m v away backs known => ?_), same⟩
    refine backs.keep (fun _ _ here => here) (fun id x here => rows id ?_)
    intro row got
    rcases backs id x here with ⟨gone, _⟩ | ⟨row', got', home, _⟩
    · rw [got] at gone
      cases gone
    · obtain rfl := Option.some.inj (got.symm.trans got')
      exact home ▸ away

end PredictionMarket
