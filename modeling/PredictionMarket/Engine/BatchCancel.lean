/- PredictionMarket/Engine/BatchCancel
   digest: A batch cancel against the cancels of the same orders one by one. -/

import PredictionMarket.Clearing.PendingShares
import PredictionMarket.Engine.AccountLedger
import PredictionMarket.Engine.PlaceFrames
import PredictionMarket.Engine.ResolutionPayout

set_option autoImplicit false
set_option relaxedAutoImplicit false

namespace PredictionMarket

open Library

inductive TradingOp
  | place (req : PlaceOrderRequest) (userId : UserId) (clock : Clock) (fault : Fault)
  | cancel (orderId : OrderId) (userId : UserId) (fault : Fault)
  | batchCancel (marketId : MarketId) (userId : UserId) (scope : CancelScope) (fault : Fault)

/-- A batch cancel that fails behind its look-up has taken the orders off the book
already; only the tables are restored. -/
def tradingStep : Steps World TradingOp
  | w, .place req userId clock fault, w' =>
    w' = (OrderService.placeOrder req userId clock fault w).2
  | w, .cancel orderId userId fault, w' =>
    w' = (OrderService.cancelOrder orderId userId fault w).2
  | w, .batchCancel marketId userId scope fault, w' =>
    let after := (OrderService.batchCancel marketId userId scope w).2
    w' = match fault with
      | .none => after
      | .lookup => w
      | .statement | .commit => { after with db := w.db }

def cancelStep (userId : UserId) : Steps World OrderId := fun w orderId w' =>
  ∃ order, OrderService.cancelOrder orderId userId .none w = (.ok order, w')

/-- What the orders under `ids` give back of an asset of a user. -/
def Db.givenBy (db : Db) (ids : List OrderId) (user : UserId) (asset : FrozenAssetType) : Int :=
  (ids.map (fun id => (db.orders.get? id).elim 0 (fun r => r.gives user asset))).sum

/-- The tables after the orders under `ids`, all of one market, are cancelled and have
given back what they hold. -/
structure Db.CancelsAll (m : MarketId) (ids : List OrderId) (db db' : Db) : Prop where
  received : db.holdings.Receives m (db.givenBy ids) db'.holdings
  orders : ∀ j, db'.orders.get? j =
    if j ∈ ids then (db.orders.get? j).map (fun r => { r with status := .cancelled })
    else db.orders.get? j

/-- The same for the process: the orders leave the book of their market, too. -/
structure World.Cancels (m : MarketId) (ids : List OrderId) (w w' : World) : Prop where
  tables : w.db.CancelsAll m ids w'.db
  books : ∀ i, w'.getOrCreateOrderbook i =
    if i = m then ids.foldl OrderBook.cancelOrder (w.getOrCreateOrderbook m)
    else w.getOrCreateOrderbook i

section OneByOne

variable {m : MarketId} {userId : UserId} {ids ids' : List OrderId} {id : OrderId} {row : OrderRow}
  {db db' db'' : Db} {w w' w₁ w₂ : World}

private theorem Db.CancelsAll.nil (m : MarketId) (db : Db) : db.CancelsAll m [] db := by
  constructor
  · exact .zero m db.holdings
  · intro j
    simp

private theorem Db.CancelsAll.cons (fresh : id ∉ ids) (first : db.CancelsAll m [id] db')
    (rest : db'.CancelsAll m ids db'') : db.CancelsAll m (id :: ids) db'' := by
  have others : ∀ j, j ≠ id → db'.orders.get? j = db.orders.get? j := by
    intro j other
    rw [first.orders, if_neg (by simpa using other)]
  constructor
  · have both := first.received.add rest.received
    have later : db'.givenBy ids = db.givenBy ids := by
      funext user asset
      unfold givenBy
      congr 1
      apply List.map_congr_left
      intro j member
      rw [others j (fun same => fresh (same ▸ member))]
    have given : db.givenBy (id :: ids) = fun user asset =>
        db.givenBy [id] user asset + db'.givenBy ids user asset := by
      funext user asset
      rw [later]
      simp [givenBy]
    rwa [given]
  · intro j
    rw [rest.orders]
    by_cases head : j = id
    · subst head
      rw [if_neg fresh, first.orders]
      simp
    · rw [others j head]
      simp [head]

theorem Db.Ends.cancelsAll (ends : db.Ends id row db') : db.CancelsAll row.marketId [id] db' := by
  have rows := ends.get?_orders
  obtain ⟨got, order, done⟩ := ends
  obtain ⟨db₁, db₂, released, marked, rfl⟩ := cancelInSavepoint_saved done
  obtain ⟨orders, _, rfl⟩ := Db.updateStatus_ok marked
  have left : (rowToOrder id row).remainingQuantity = row.remainingQuantity :=
    (Table.check got).quantity_sub_filled
  constructor
  · have gives : db.givenBy [id] = row.gives := by
      funext user asset
      simp [givenBy, got]
    rw [gives]
    apply Holdings.receives_order
    rcases unfreezeRemainder_statement released with ⟨funds, moved⟩ | ⟨side, shares, moved⟩
    · exact Or.inl ⟨funds, moved⟩
    · rw [left] at moved
      refine Or.inr ⟨side, ?_, moved⟩
      cases side
      · exact shares
      · exact shares
  · intro j
    rw [rows]
    by_cases same : j = id
    · simp [same, got]
    · simp [same]

private theorem World.Cancels.nil (m : MarketId) (w : World) : w.Cancels m [] w := by
  refine ⟨.nil m w.db, fun i => ?_⟩
  split
  · next same => rw [same, List.foldl_nil]
  · rfl

private theorem World.Cancels.cons (fresh : id ∉ ids) (first : w.Cancels m [id] w₁)
    (rest : w₁.Cancels m ids w') : w.Cancels m (id :: ids) w' := by
  refine ⟨first.tables.cons fresh rest.tables, fun i => ?_⟩
  rw [rest.books, first.books, first.books]
  by_cases here : i = m
  · simp [here]
  · simp [here]

private theorem cancelStep_cancels (step : cancelStep userId w id w')
    (home : ∀ row, w.db.orders.get? id = some row → row.marketId = m) : w.Cancels m [id] w' := by
  obtain ⟨order, done⟩ := step
  obtain ⟨row, _, _, ends, world⟩ :=
    MatchingEngine.cancelOrder_ends (OrderService.cancelOrder_ok done)
  obtain rfl := home row ends.1
  refine ⟨ends.cancelsAll, fun i => ?_⟩
  rw [world]
  by_cases here : i = row.marketId
  · simp [World.getOrCreateOrderbook, World.keepBook, here]
  · simp [World.getOrCreateOrderbook, World.keepBook, here]

private theorem cancels_of_run (run : Run (cancelStep userId) w ids w') (once : ids.Nodup)
    (home : ∀ id ∈ ids, ∀ row, w.db.orders.get? id = some row → row.marketId = m) :
    w.Cancels m ids w' := by
  induction run with
  | nil w => exact .nil m w
  | @cons w w₁ w' id ids head tail ih =>
    rw [List.nodup_cons] at once
    have first := cancelStep_cancels head (home id List.mem_cons_self)
    refine first.cons once.1 (ih once.2 ?_)
    intro j member row got
    have other : j ≠ id := fun same => once.1 (same ▸ member)
    rw [first.tables.orders, if_neg (by simpa using other)] at got
    exact home j (List.mem_cons_of_mem _ member) row got

private theorem World.Cancels.agree (first : w.Cancels m ids w₁) (second : w.Cancels m ids' w₂)
    (perm : ids.Perm ids') {v : RestingOrders} (shows : (w.getOrCreateOrderbook m).Shows v) :
    (∀ user, w₁.db.holdings.accounts.get? user = w₂.db.holdings.accounts.get? user) ∧
    (∀ key, w₁.db.holdings.positions.get? key = w₂.db.holdings.positions.get? key) ∧
    (∀ id, w₁.db.orders.get? id = w₂.db.orders.get? id) ∧
    ∀ i, w₁.getOrCreateOrderbook i = w₂.getOrCreateOrderbook i := by
  have given : w.db.givenBy ids' = w.db.givenBy ids := by
    funext user asset
    exact (perm.symm.map _).sum_eq
  have received := second.tables.received
  rw [given] at received
  refine ⟨fun user => ?_, fun key => ?_, fun id => ?_, fun i => ?_⟩
  · rw [first.tables.received.accounts, received.accounts]
  · rw [first.tables.received.positions, received.positions]
  · rw [first.tables.orders, second.tables.orders]
    simp only [perm.mem_iff]
  · rw [first.books, second.books, MatchingEngine.foldl_cancelOrder_perm shows perm]

end OneByOne

section Batch

variable {marketId : MarketId} {userId : UserId} {scope : CancelScope}
  {rows : List (OrderId × OrderRow)} {w w' : World}
  {report : MatchingEngine.BatchCancelled}

theorem Db.givenBy_rows {db : Db} (stored : ∀ e ∈ rows, db.orders.get? e.1 = some e.2) :
    db.givenBy (rows.map Prod.fst) = AdminService.given rows := by
  funext user asset
  unfold Db.givenBy AdminService.given
  rw [List.map_map]
  congr 1
  apply List.map_congr_left
  intro e member
  simp [stored e member]

/-- An active order of shares has exactly its remaining quantity frozen, so the frozen
column adds up to what the orders give back one by one. -/
private theorem totalFrozen_eq_given (mine : ∀ e ∈ rows, e.2.userId = userId ∧ e.2.isActive = true)
    (funded : ∀ e ∈ rows, e.2.Funded) (asset : FrozenAssetType) :
    MatchingEngine.totalFrozen asset rows = AdminService.given rows userId asset := by
  refine MatchingEngine.totalFrozen_eq_sum (fun r => r.gives userId asset) (fun e member => ?_)
  obtain ⟨user, active⟩ := mine e member
  have own := funded e member
  unfold OrderRow.gives
  by_cases kind : e.2.frozenAssetType = asset
  · subst kind
    rw [if_pos rfl, if_pos ⟨user, rfl⟩]
    split
    · rfl
    · next shares =>
      have noCash : e.2.bookType.paysCash = false := by
        rw [own.asset] at shares
        exact Bool.eq_false_iff.mpr (fun cash => shares (BookType.frozenAsset_eq_funds.mpr cash))
      rw [own.amount active, BookType.frozenFor, noCash]
      rfl
  · rw [if_neg kind, if_neg (fun both => kind both.2)]

/-- The totals of a batch, each given back by one statement or, when there is nothing
to give, by none. -/
private theorem bulkUnfreeze_receives (total : FrozenAssetType → Int) {h h' : Holdings}
    (done : MatchingEngine.bulkUnfreeze marketId userId (total .funds) (total .yesShares)
      (total .noShares) h = .ok h') (nonneg : ∀ asset, 0 ≤ total asset) :
    h.Receives marketId (fun user asset => if user = userId then total asset else 0) h' := by
  have idle : ∀ {asset : FrozenAssetType} {g g' : Holdings}, ¬ 0 < total asset →
      (pure g : Except Err Holdings) = .ok g' → g.Receives marketId
        (fun user a => if user = userId ∧ a = asset then total asset else 0) g' := by
    intro asset g g' none ran
    have zero : total asset = 0 := le_antisymm (not_lt.mp none) (nonneg asset)
    obtain rfl := pure_eq_ok.mp ran
    simpa [zero] using Holdings.Receives.zero marketId g
  have shares : ∀ (side : OriginalSide) {g g' : Holdings},
      (if 0 < total side.frozenAsset then
        g.addPending side userId marketId (-total side.frozenAsset) else pure g :
          Except Err Holdings) = .ok g' →
      g.Receives marketId (fun user a =>
        if user = userId ∧ a = side.frozenAsset then total side.frozenAsset else 0) g' := by
    intro side g g' ran
    split at ran
    · exact Holdings.receives_shares ran
    · next none => exact idle none ran
  simp only [MatchingEngine.bulkUnfreeze, bind_eq_ok] at done
  obtain ⟨h₁, cash, h₂, yes, no⟩ := done
  have funds : h.Receives marketId (fun user asset =>
      if user = userId ∧ asset = .funds then total .funds else 0) h₁ := by
    split at cash
    · exact Holdings.receives_funds cash marketId
    · next none => exact idle none cash
  have all := (funds.add (shares .yes yes)).add (shares .no no)
  have sum : (fun user asset => if user = userId then total asset else 0) =
      fun user asset => ((if user = userId ∧ asset = .funds then total .funds else 0) +
        if user = userId ∧ asset = OriginalSide.yes.frozenAsset then
          total OriginalSide.yes.frozenAsset else 0) +
        if user = userId ∧ asset = OriginalSide.no.frozenAsset then
          total OriginalSide.no.frozenAsset else 0 := by
    funext user asset
    cases asset <;> simp [OriginalSide.frozenAsset]
  rwa [sum]

def MatchingEngine.BatchCancelled.unfrozen (report : BatchCancelled) : FrozenAssetType → Int
  | .funds => report.unfrozenFunds
  | .yesShares => report.unfrozenYes
  | .noShares => report.unfrozenNo

private theorem Db.givenBy_batch {db : Db} (funded : db.Funded) :
    let rows := MatchingEngine.batchRows marketId userId scope db
    db.givenBy (rows.map Prod.fst) = fun user asset =>
      if user = userId then MatchingEngine.totalFrozen asset rows else 0 := by
  intro rows
  funext user asset
  have stored : ∀ e ∈ rows, db.orders.get? e.1 = some e.2 :=
    fun e member => (MatchingEngine.mem_batchRows.mp member).1
  have mine : ∀ e ∈ rows, e.2.userId = userId ∧ e.2.isActive = true := by
    intro e member
    obtain ⟨_, user, _, active, _⟩ := MatchingEngine.mem_batchRows.mp member
    exact ⟨user, active⟩
  rw [Db.givenBy_rows stored]
  split
  · next same =>
    rw [same, totalFrozen_eq_given mine (fun e member => funded e.1 e.2 (stored e member))]
  · next other =>
    apply List.sum_eq_zero
    intro x listed
    obtain ⟨e, member, rfl⟩ := List.mem_map.mp listed
    exact if_neg (fun both => other (both.1.symm.trans (mine e member).1))

theorem batch_cancelsAll {db db' : Db} (funded : db.Funded)
    (step : moveStep db (.batch marketId userId scope) db') :
    db.CancelsAll marketId
      ((MatchingEngine.batchRows marketId userId scope db).map Prod.fst) db' := by
  obtain ⟨db₁, h, marked, freed, rfl⟩ := step
  obtain ⟨_, _, orders⟩ := markCancelled_ok _ marked
  refine ⟨?_, orders⟩
  rw [Db.givenBy_batch funded]
  refine bulkUnfreeze_receives (fun asset => MatchingEngine.totalFrozen asset _) freed
    (fun asset => ?_)
  apply List.sum_nonneg
  intro x listed
  obtain ⟨e, member, rfl⟩ := List.mem_map.mp listed
  have stored := (MatchingEngine.mem_batchRows.mp (List.mem_of_mem_filter member)).1
  exact (Table.check stored : e.2.Check).frozen_nonneg

private theorem OrderService.batchCancel_cancels (funded : w.db.Funded)
    (done : OrderService.batchCancel marketId userId scope w = (.ok report, w')) :
    let ids := (MatchingEngine.batchRows marketId userId scope w.db).map Prod.fst
    w.Cancels marketId ids w' ∧ ∀ user asset, w.db.givenBy ids user asset =
      if user = userId then report.unfrozen asset else 0 := by
  intro ids
  have ran := World.finish_ok done
  unfold MatchingEngine.batchCancel at ran
  simp only at ran
  split at ran
  · next none =>
    cases ran
    have empty : ids = [] := by
      unfold ids
      rw [none, List.map_nil]
    rw [empty]
    refine ⟨.nil marketId w, fun user asset => ?_⟩
    cases asset <;> simp [Db.givenBy, MatchingEngine.BatchCancelled.unfrozen]
  · split at ran
    · next db moved =>
      cases ran
      simp only [bind_eq_ok] at moved
      obtain ⟨db₁, marked, freed⟩ := moved
      obtain ⟨h, received, rfl⟩ := Db.onHoldings_ok freed
      rw [(markCancelled_ok _ marked).1] at received
      refine ⟨⟨batch_cancelsAll funded ⟨db₁, h, marked, received, rfl⟩, fun i => ?_⟩,
        fun user asset => ?_⟩
      · split
        · next here =>
          rw [here]
          exact World.getOrCreateOrderbook_dropAll (w := w) marketId ids
        · next away => simp [World.getOrCreateOrderbook, away]
      · unfold ids
        rw [Db.givenBy_batch funded]
        cases asset <;> rfl
    · cases ran

end Batch

section Housed

variable {h h' h'' : Holdings} {db db' : Db}

structure Lodging where
  asset : FrozenAssetType
  userId : UserId
  marketId : MarketId

def OrderRow.lodging (r : OrderRow) : Lodging := ⟨r.frozenAssetType, r.userId, r.marketId⟩

def Holdings.Houses (h : Holdings) (l : Lodging) : Prop :=
  if l.asset = .funds then h.HasAccount l.userId
  else (h.positions.get? (l.userId, l.marketId)).isSome = true

def Db.Housed (db : Db) : Prop :=
  ∀ id r, db.orders.get? id = some r → db.holdings.Houses r.lodging

structure Holdings.KeepsRows (h h' : Holdings) : Prop where
  accounts : ∀ user, h.HasAccount user → h'.HasAccount user
  positions : ∀ k, (h.positions.get? k).isSome = true → (h'.positions.get? k).isSome = true

theorem Holdings.KeepsRows.updateAccount {userId : UserId} {f : AccountRow → AccountRow}
    (done : h.updateAccount userId f = .ok h') : h.KeepsRows h' := by
  constructor
  · intro user there
    unfold HasAccount at *
    rw [get?_updateAccount done]
    split
    · next same => simpa [same] using there
    · exact there
  · intro k there
    rwa [(updateAccount_ok done).1]

theorem Holdings.KeepsRows.updatePosition {userId : UserId} {m : MarketId}
    {f : PositionRow → PositionRow} (done : h.updatePosition userId m f = .ok h') :
    h.KeepsRows h' := by
  constructor
  · intro user there
    unfold HasAccount
    rwa [(updatePosition_ok done).1]
  · intro k there
    obtain ⟨r, got⟩ := Option.isSome_iff_exists.mp there
    exact Option.isSome_iff_exists.mpr (position_updatePosition done got)

private theorem Holdings.keepsRows_respected (m : MarketId) :
    Respected (fun _ => True) (fun _ => True) m KeepsRows where
  refl _ := ⟨fun _ there => there, fun _ there => there⟩
  trans first second := ⟨fun user there => second.accounts user (first.accounts user there),
    fun k there => second.positions k (first.positions k there)⟩
  debit _ _ done := .updateAccount done
  credit _ _ done := .updateAccount done
  buy _ done := by
    obtain ⟨accounts, positions⟩ := addVolume_ok done
    constructor
    · intro user there
      unfold HasAccount
      rwa [accounts]
    · intro k there
      rw [Table.get?_upsert? positions]
      split
      · rfl
      · exact there
  update _ done := .updatePosition done

private theorem Holdings.Receives.keepsRows {m : MarketId} {x : UserId → FrozenAssetType → Int}
    (received : h.Receives m x h') : h.KeepsRows h' := by
  constructor
  · intro user there
    unfold HasAccount at *
    simpa [received.accounts] using there
  · rintro ⟨user, i⟩ there
    simpa [received.positions] using there

private theorem Holdings.KeepsRows.houses (kept : h.KeepsRows h') {l : Lodging}
    (houses : h.Houses l) :
    h'.Houses l := by
  unfold Houses at *
  split
  · next cash =>
    rw [if_pos cash] at houses
    exact kept.accounts _ houses
  · next shares =>
    rw [if_neg shares] at houses
    exact kept.positions _ houses

theorem acceptOrder_houses {draft : OrderDraft} {order : Order} {market : MarketState}
    (done : acceptOrder draft db = .ok (order, market, db')) :
    db.holdings.Houses (Db.insertedRow draft.accepted draft.insertedAt).lodging := by
  have accepted := acceptOrder_ok done
  obtain ⟨db₁, frozen, _⟩ := acceptOrder_statement done
  have froze := accepted.frozen
  rw [accepted.order_eq] at froze
  have kind : draft.accepted.frozenAssetType = .funds ↔ draft.accepted.bookType.paysCash = true :=
    BookType.frozenAsset_eq_funds
  unfold Holdings.Houses
  split
  · next cash =>
    unfold Frozen at froze
    rw [if_pos (kind.mp cash)] at froze
    obtain ⟨a, got, _⟩ := froze
    exact Option.isSome_iff_exists.mpr ⟨a, got⟩
  · next shares =>
    rcases checkAndFreeze_statement frozen with ⟨cash, _⟩ | ⟨side, _, ⟨row, got⟩, _⟩
    · exact absurd (kind.mpr cash) shares
    · exact Option.isSome_iff_exists.mpr ⟨row, got⟩

theorem Db.Housed.keep (housed : db.Housed) (kept : db.holdings.KeepsRows db'.holdings)
    (rows : ∀ id r', db'.orders.get? id = some r' →
      ∃ r, db.orders.get? id = some r ∧ r.lodging = r'.lodging) : db'.Housed := by
  intro id r' got
  obtain ⟨r, was, same⟩ := rows id r' got
  exact same ▸ kept.houses (housed id r was)

theorem Db.Housed.placed {draft : OrderDraft} {ob ob' : OrderBook} {placed : Placed}
    {v : RestingOrders} (housed : db.Housed)
    (done : placeOrderInner draft ob db = (.ok (placed, db'), ob')) (shows : ob.Shows v)
    (absent : v draft.id = none) : db'.Housed := by
  have kept : db.holdings.KeepsRows db'.holdings :=
    placeOrderInner_respected (Holdings.keepsRows_respected _) done shows absent trivial trivial
      trivial trivial (fun _ _ => trivial)
  obtain ⟨⟨_, _, _, _, _, _, _, _, accepted, _⟩, _⟩ := placeOrderInner_phases done
  intro id r got
  have column : (db'.orders.get? id).map OrderRow.lodging = if id = draft.id then
      some (Db.insertedRow draft.accepted draft.insertedAt).lodging
      else (db.orders.get? id).map OrderRow.lodging :=
    placeOrderInner_column (fun _ _ => rfl) done id
  rw [got, Option.map_some] at column
  split at column
  · rw [Option.some.inj column]
    exact kept.houses (acceptOrder_houses accepted)
  · obtain ⟨before, was, same⟩ := Option.map_eq_some_iff.mp column.symm
    exact same ▸ kept.houses (housed id before was)

private theorem Db.Housed.givenBy_eq_zero (housed : db.Housed) {m : MarketId} {ids : List OrderId}
    (home : ∀ id ∈ ids, ∀ row, db.orders.get? id = some row → row.marketId = m) {user : UserId}
    {asset : FrozenAssetType} (none : ¬ db.holdings.Houses ⟨asset, user, m⟩) :
    db.givenBy ids user asset = 0 := by
  apply List.sum_eq_zero
  intro x listed
  obtain ⟨id, member, rfl⟩ := List.mem_map.mp listed
  cases got : db.orders.get? id with
  | none => rfl
  | some row =>
    refine if_neg (fun both => none ?_)
    have lodging : row.lodging = ⟨asset, user, m⟩ := by
      rw [OrderRow.lodging, both.1, both.2, home id member row got]
    exact lodging ▸ housed id row got

private theorem Db.CancelsAll.balances {m : MarketId} {ids : List OrderId}
    (cancels : db.CancelsAll m ids db') (housed : db.Housed)
    (home : ∀ id ∈ ids, ∀ row, db.orders.get? id = some row → row.marketId = m) (user : UserId) :
    db'.available user = db.available user + db.givenBy ids user .funds ∧
      db'.holdings.frozenOf user = db.holdings.frozenOf user - db.givenBy ids user .funds := by
  unfold available Holdings.frozenOf
  rw [cancels.received.accounts]
  cases got : db.holdings.accounts.get? user with
  | none =>
    have none : ¬ db.holdings.Houses ⟨.funds, user, m⟩ := by
      simp [Holdings.Houses, Holdings.HasAccount, got]
    simp [housed.givenBy_eq_zero home none]
  | some a => exact ⟨rfl, rfl⟩

private theorem Db.CancelsAll.pending {m : MarketId} {ids : List OrderId}
    (cancels : db.CancelsAll m ids db') (housed : db.Housed)
    (home : ∀ id ∈ ids, ∀ row, db.orders.get? id = some row → row.marketId = m) (k : ShareKey) :
    db'.holdings.pendingOf k = db.holdings.pendingOf k -
      if k.marketId = m then db.givenBy ids k.userId k.side.frozenAsset else 0 := by
  unfold Holdings.pendingOf
  rw [cancels.received.positions]
  cases got : db.holdings.positions.get? (k.userId, k.marketId) with
  | none =>
    have shares : k.side.frozenAsset ≠ .funds := by
      cases k.side <;> simp [OriginalSide.frozenAsset]
    split
    · next here =>
      have none : ¬ db.holdings.Houses ⟨k.side.frozenAsset, k.userId, m⟩ := by
        rw [here] at got
        simp [Holdings.Houses, shares, got]
      simp [housed.givenBy_eq_zero home none]
    · simp
  | some r =>
    simp only [Option.map_some, Option.elim_some]
    split
    · cases k.side <;> rfl
    · simp

end Housed

section Runs

variable {marketId : MarketId} {userId : UserId} {scope : CancelScope} {w w' w₁ w₂ : World}

def World.BooksShow (w : World) : Prop := ∀ m, ∃ v, (w.getOrCreateOrderbook m).Shows v

private theorem World.BooksShow.update (books : w.BooksShow) (m : MarketId)
    (others : ∀ i, i ≠ m → w'.orderbooks i = w.orderbooks i)
    (home : ∃ v, (w'.getOrCreateOrderbook m).Shows v) : w'.BooksShow := by
  intro i
  by_cases here : i = m
  · exact here ▸ home
  · unfold getOrCreateOrderbook
    rw [others i here]
    exact books i

private theorem World.BooksShow.evict (books : w.BooksShow) (m : MarketId) (n : OrderId) :
    ({ w.evict m with nextId := n } : World).BooksShow := by
  refine books.update m (fun i other => by simp [World.evict, other]) ⟨fun _ => none, ?_⟩
  rw [getOrCreateOrderbook_evict]
  exact .empty

private theorem World.BooksShow.keepBook (books : w.BooksShow) {m : MarketId} {ob : OrderBook}
    (shows : ∃ v, ob.Shows v) (db : Db) (n : OrderId) :
    ({ w.keepBook m ob with db := db, nextId := n } : World).BooksShow := by
  refine books.update m (fun i => w.keepBook_of_ne ob) ?_
  rwa [getOrCreateOrderbook_keepBook_self]

private theorem World.BooksShow.cancelOrder (books : w.BooksShow) (m : MarketId) (id : OrderId) :
    ∃ v, ((w.getOrCreateOrderbook m).cancelOrder id).Shows v := by
  obtain ⟨v, shows⟩ := books m
  exact ⟨_, shows.cancelOrder id⟩

private theorem World.BooksShow.dropAll (books : w.BooksShow) (ids : List OrderId) :
    (w.dropAll marketId ids).BooksShow := by
  refine books.update marketId (fun _ => dropAll_of_ne ids) ?_
  obtain ⟨v, shows⟩ := books marketId
  rw [getOrCreateOrderbook_dropAll]
  exact ⟨_, MatchingEngine.foldl_cancelOrder_shows shows⟩

structure World.Trading (w : World) : Prop where
  accounted : w.Accounted True
  housed : w.db.Housed
  books : w.BooksShow

private theorem World.Trading.opening (opening : Session.Opening ⟨w, []⟩) : w.Trading := by
  have empty : ∀ m, w.getOrCreateOrderbook m = .empty := by
    intro m
    simp [getOrCreateOrderbook, show w.orderbooks m = none from opening.books m]
  refine ⟨.of_empty opening.orders empty, fun id r got => ?_, fun m => ⟨fun _ => none, ?_⟩⟩
  · have stored := Table.mem_iff.mpr got
    rw [show w.db.orders.rows = [] from opening.orders] at stored
    cases stored
  · rw [empty]
    exact .empty

theorem Db.CancelsAll.housed {m : MarketId} {ids : List OrderId} {db db' : Db}
    (cancels : db.CancelsAll m ids db') (housed : db.Housed) : db'.Housed := by
  refine housed.keep cancels.received.keepsRows (fun id r' got => ?_)
  rw [cancels.orders] at got
  split at got
  · obtain ⟨r, was, rfl⟩ := Option.map_eq_some_iff.mp got
    exact ⟨r, was, rfl⟩
  · exact ⟨r', got, rfl⟩

private theorem World.Trading.place (trading : w.Trading) {req : PlaceOrderRequest} {clock : Clock}
    {fault : Fault} (step : tradingStep w (.place req userId clock fault) w') : w'.Trading := by
  have accounted := (OrderService.placeOrder_accounted
    (show fundsStep w (.place req userId clock fault) w' from step) trading.accounted
    (fun _ => trivial)).1
  have world := OrderService.placeOrder_world req userId clock fault w
  simp only [← (show w' = _ from step)] at world
  rcases world with rfl | ⟨_, _, ⟨_, rfl⟩ | ⟨_, placed, db, ob, inner, rfl⟩⟩
  · exact trading
  · exact ⟨accounted, trading.housed, trading.books.evict _ _⟩
  · obtain ⟨_, _, v, shows, absent, backs⟩ := trading.accounted.place rfl inner
    obtain ⟨v', shows', _⟩ :=
      (placeOrderInner_ok inner).rested shows absent backs trading.accounted.funded
    refine ⟨accounted, ?_, trading.books.keepBook ⟨v', shows'⟩ _ _⟩
    split
    · exact trading.housed
    · exact trading.housed.placed inner shows absent

private theorem World.Trading.cancel (trading : w.Trading) {orderId : OrderId} {fault : Fault}
    (step : tradingStep w (.cancel orderId userId fault) w') : w'.Trading := by
  have accounted := (OrderService.cancelOrder_accounted
    (show fundsStep w (.cancel orderId userId fault) w' from step) trading.accounted).1
  have world := OrderService.cancelOrder_world orderId userId fault w
  simp only [← (show w' = _ from step)] at world
  rcases world with rfl | ⟨m, rfl⟩ | ⟨m, rfl⟩ | ⟨row, order, db, got, active, done, rfl⟩
  · exact trading
  · exact ⟨accounted, trading.housed, trading.books.evict m _⟩
  · exact ⟨accounted, trading.housed,
      trading.books.keepBook (trading.books.cancelOrder m orderId) _ _⟩
  · have ends : w.db.Ends orderId row db := ⟨got, order, done⟩
    exact ⟨accounted, ends.cancelsAll.housed trading.housed,
      trading.books.keepBook (trading.books.cancelOrder _ orderId) _ _⟩

private theorem World.Trading.batchCancel (trading : w.Trading) {fault : Fault}
    (step : tradingStep w (.batchCancel marketId userId scope fault) w') : w'.Trading := by
  have world := MatchingEngine.batchCancel_world marketId userId scope w
  have kept := trading.accounted.batchCancel marketId userId scope
  simp only [tradingStep] at step
  simp only at world
  generalize (OrderService.batchCancel marketId userId scope w).2 = after at world step kept
  generalize idsEq : (MatchingEngine.batchRows marketId userId scope w.db).map Prod.fst = ids
    at world
  have dropped : (w.dropAll marketId ids).Trading :=
    ⟨trading.accounted.dropAll marketId ids, trading.housed, trading.books.dropAll ids⟩
  have restored : ({ after with db := w.db } : World).Trading := by
    rcases world with rfl | rfl | ⟨_, equal⟩
    · exact trading
    · exact dropped
    · rw [equal]
      exact dropped
  have committed : after.Trading := by
    rcases world with rfl | rfl | ⟨moved, equal⟩
    · exact trading
    · exact dropped
    · refine ⟨kept, (batch_cancelsAll trading.accounted.funded moved).housed trading.housed, ?_⟩
      rw [equal]
      exact dropped.books
  cases fault with
  | none => exact step ▸ committed
  | lookup => exact step ▸ trading
  | statement => exact step ▸ restored
  | commit => exact step ▸ restored

private theorem tradingStep_trading {op : TradingOp} (step : tradingStep w op w')
    (trading : w.Trading) :
    w'.Trading := by
  cases op with
  | place req userId clock fault => exact trading.place step
  | cancel orderId userId fault => exact trading.cancel step
  | batchCancel marketId userId scope fault => exact trading.batchCancel step

private theorem mem_batchIds {db : Db} {id : OrderId} :
    id ∈ (MatchingEngine.batchRows marketId userId scope db).map Prod.fst ↔
      ∃ row, db.orders.get? id = some row ∧ row.userId = userId ∧ row.marketId = marketId ∧
        row.isActive = true ∧ MatchingEngine.inScope scope row.originalDirection = true := by
  constructor
  · intro listed
    obtain ⟨e, member, rfl⟩ := List.mem_map.mp listed
    exact ⟨e.2, MatchingEngine.mem_batchRows.mp member⟩
  · rintro ⟨row, chosen⟩
    exact List.mem_map.mpr ⟨(id, row), MatchingEngine.mem_batchRows.mpr chosen, rfl⟩

/-- A batch cancel is the cancels of its orders one by one, in any order: in every state
that traders reach, both end in the same accounts, positions, orders and books, and the
batch reports what it moved. -/
theorem batch_cancel_one_by_one {w₀ : World} {ops : List TradingOp}
    (opening : Session.Opening ⟨w₀, []⟩) (run : Run tradingStep w₀ ops w)
    {report : MatchingEngine.BatchCancelled}
    (batch : OrderService.batchCancel marketId userId scope w = (.ok report, w₁))
    {ids : List OrderId} (once : ids.Nodup)
    (selected : ∀ id, id ∈ ids ↔ ∃ row, w.db.orders.get? id = some row ∧ row.userId = userId ∧
      row.marketId = marketId ∧ row.isActive = true ∧
        MatchingEngine.inScope scope row.originalDirection = true)
    (singles : Run (cancelStep userId) w ids w₂) :
    ((∀ user, w₁.db.holdings.accounts.get? user = w₂.db.holdings.accounts.get? user) ∧
      (∀ key, w₁.db.holdings.positions.get? key = w₂.db.holdings.positions.get? key) ∧
      (∀ id, w₁.db.orders.get? id = w₂.db.orders.get? id) ∧
      ∀ m, w₁.getOrCreateOrderbook m = w₂.getOrCreateOrderbook m) ∧
    (∀ user, w₁.db.available user =
        w.db.available user + (if user = userId then report.unfrozenFunds else 0) ∧
      w₁.db.holdings.frozenOf user =
        w.db.holdings.frozenOf user - if user = userId then report.unfrozenFunds else 0) ∧
    ∀ user m, w₁.db.holdings.pendingOf ⟨user, m, .yes⟩ = w.db.holdings.pendingOf ⟨user, m, .yes⟩ -
        (if m = marketId ∧ user = userId then report.unfrozenYes else 0) ∧
      w₁.db.holdings.pendingOf ⟨user, m, .no⟩ = w.db.holdings.pendingOf ⟨user, m, .no⟩ -
        if m = marketId ∧ user = userId then report.unfrozenNo else 0 := by
  have trading : w.Trading :=
    run.preserves (fun _ _ _ step => tradingStep_trading step) (.opening opening)
  obtain ⟨cancels, given⟩ := OrderService.batchCancel_cancels trading.accounted.funded batch
  generalize idsEq : (MatchingEngine.batchRows marketId userId scope w.db).map Prod.fst = chosen
    at cancels given
  have nodup : chosen.Nodup := idsEq ▸ w.db.orders.nodup.sublist (List.filter_sublist.map _)
  have member : ∀ id, id ∈ chosen ↔ id ∈ ids := fun id =>
    (idsEq ▸ mem_batchIds).trans (selected id).symm
  have perm : chosen.Perm ids := (List.perm_ext_iff_of_nodup nodup once).mpr member
  have home : ∀ id ∈ ids, ∀ row, w.db.orders.get? id = some row → row.marketId = marketId := by
    intro id inside row got
    obtain ⟨row', got', _, here, _⟩ := (selected id).mp inside
    obtain rfl := Option.some.inj (got.symm.trans got')
    exact here
  have home' : ∀ id ∈ chosen, ∀ row, w.db.orders.get? id = some row → row.marketId = marketId :=
    fun id inside => home id ((member id).mp inside)
  obtain ⟨v, shows⟩ := trading.books marketId
  refine ⟨cancels.agree (cancels_of_run singles once home) perm shows, fun user => ?_,
    fun user m => ⟨?_, ?_⟩⟩
  · have moved := cancels.tables.balances trading.housed home' user
    rwa [given] at moved
  · rw [cancels.tables.pending trading.housed home', given, ite_and]
    rfl
  · rw [cancels.tables.pending trading.housed home', given, ite_and]
    rfl

def aliceTrades : List TradingOp :=
  [.place ⟨"s1", "m", .yes, .sell, 50, 4, .gtc⟩ "alice" ⟨0, 0⟩ .none,
    .place ⟨"b1", "m", .yes, .buy, 50, 1, .ioc⟩ "bob" ⟨1, 1⟩ .none,
    .place ⟨"s2", "m", .yes, .buy, 30, 2, .gtc⟩ "alice" ⟨2, 2⟩ .none]

/-- Three shares and the cash of a bid, released at once or bid first. -/
theorem ask_and_bid_cancelled : ∃ w w₁ w₂ report, Run tradingStep pairMarket.world aliceTrades w ∧
    OrderService.batchCancel "m" "alice" .all w = (.ok report, w₁) ∧
    Run (cancelStep "alice") w [3, 1] w₂ ∧ report.unfrozenYes = 3 ∧ report.unfrozenFunds = 61 ∧
    w₁.getOrCreateOrderbook "m" = w₂.getOrCreateOrderbook "m" ∧
    w₁.db.holdings.accounts.get? "alice" = w₂.db.holdings.accounts.get? "alice" := by
  let ask := (OrderService.placeOrder ⟨"s1", "m", .yes, .sell, 50, 4, .gtc⟩ "alice" ⟨0, 0⟩ .none
    pairMarket.world).2
  let sale := (OrderService.placeOrder ⟨"b1", "m", .yes, .buy, 50, 1, .ioc⟩ "bob" ⟨1, 1⟩ .none
    ask).2
  let w := (OrderService.placeOrder ⟨"s2", "m", .yes, .buy, 30, 2, .gtc⟩ "alice" ⟨2, 2⟩ .none
    sale).2
  have run : Run tradingStep pairMarket.world aliceTrades w := .cons rfl (.cons rfl (.single rfl))
  have chosen : (MatchingEngine.batchRows "m" "alice" .all w.db).map Prod.fst = [1, 3] := by
    decide +kernel
  have batches : (OrderService.batchCancel "m" "alice" .all w).1.toOption.map
      (fun report => (report.unfrozenYes, report.unfrozenFunds)) = some (3, 61) := by
    decide +kernel
  have first : (OrderService.cancelOrder 3 "alice" .none w).1.isOk = true := by decide +kernel
  have second : (OrderService.cancelOrder 1 "alice" .none
      (OrderService.cancelOrder 3 "alice" .none w).2).1.isOk = true := by decide +kernel
  clear_value w
  cases batch : OrderService.batchCancel "m" "alice" .all w with
  | mk outcome w₁ =>
    rw [batch] at batches
    cases outcome with
    | error e => cases batches
    | ok report =>
      obtain ⟨bid, bidDone⟩ := exists_of_isOk first
      obtain ⟨offer, offerDone⟩ := exists_of_isOk second
      have singles : Run (cancelStep "alice") w [3, 1] _ :=
        .cons ⟨bid, Prod.ext bidDone rfl⟩ (.single ⟨offer, Prod.ext offerDone rfl⟩)
      have selected : ∀ id, id ∈ [3, 1] ↔
          id ∈ (MatchingEngine.batchRows "m" "alice" .all w.db).map Prod.fst := by
        intro id
        rw [chosen]
        exact (List.Perm.swap 1 3 []).mem_iff
      obtain ⟨⟨accounts, _, _, books⟩, _⟩ := batch_cancel_one_by_one pairMarket_opening run batch
        (by decide) (fun id => (selected id).trans mem_batchIds) singles
      have totals := Option.some.inj batches
      exact ⟨w, w₁, _, report, run, batch, singles, congrArg Prod.fst totals,
        congrArg Prod.snd totals, books "m", accounts "alice"⟩

end Runs

end PredictionMarket
