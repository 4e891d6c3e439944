/- PredictionMarket/Orders/OrderPages
   digest: The order list of a user, page by page, while orders are placed, filled and cancelled. -/

import PredictionMarket.Engine.TradeIntegrity
import PredictionMarket.Library.LivePages
import PredictionMarket.Store.Query

set_option autoImplicit false
set_option relaxedAutoImplicit false

namespace PredictionMarket

open Library

def OriginalSide.name : OriginalSide → String
  | .yes => "YES"
  | .no => "NO"

def OrderDirection.name : OrderDirection → String
  | .buy => "BUY"
  | .sell => "SELL"

def OrderStatus.name : OrderStatus → String
  | .new => "NEW"
  | .open => "OPEN"
  | .partiallyFilled => "PARTIALLY_FILLED"
  | .filled => "FILLED"
  | .cancelled => "CANCELLED"
  | .rejected => "REJECTED"

structure OrderResponse where
  id : String
  clientOrderId : String
  marketId : MarketId
  originalSide : OriginalSide
  originalDirection : OrderDirection
  originalPriceCents : Int
  bookType : BookType
  priceType : String
  timeInForce : TimeInForce
  quantity : Int
  filledQuantity : Int
  remainingQuantity : Int
  frozenAmount : Int
  frozenAssetType : FrozenAssetType
  status : OrderStatus
  cancelReason : Option String
  createdAt : Nat
  updatedAt : Timestamp

/-- `_order_to_response`; the engine has no use for `updated_at`, which is a column of its
own here. -/
def OrderResponse.ofOrder (order : Order) (updatedAt : Timestamp) : OrderResponse where
  id := toString order.id
  clientOrderId := order.clientOrderId
  marketId := order.marketId
  originalSide := order.originalSide
  originalDirection := order.originalDirection
  originalPriceCents := order.originalPrice
  bookType := order.bookType
  priceType := "LIMIT"
  timeInForce := order.timeInForce
  quantity := order.quantity
  filledQuantity := order.filledQuantity
  remainingQuantity := order.remainingQuantity
  frozenAmount := order.frozenAmount
  frozenAssetType := order.frozenAssetType
  status := order.status
  cancelReason := order.cancelReason
  createdAt := order.createdAt
  updatedAt := updatedAt

structure OrderFilter where
  marketId : Option MarketId
  status : Option String
  side : Option String
  direction : Option String

/-- The conditions on the columns that never change; a NULL parameter filters nothing. -/
def OrderFilter.places (filter : OrderFilter) (userId : UserId) (r : OrderRow) : Bool :=
  r.userId = userId && filter.marketId.all (fun m => r.marketId = m) &&
    filter.side.all (fun s => r.originalSide.name = s) &&
    filter.direction.all (fun d => r.originalDirection.name = d)

/-- `status = ANY(string_to_array(statuses_csv, ','))`. -/
def statusListed (statusesCsv : Option String) (status : OrderStatus) : Bool :=
  statusesCsv.all (fun csv => (csv.splitOn ",").contains status.name)

/-- The text of a list of statuses. An empty list is as good as none. -/
def statusesCsv : Option (List String) → Option String
  | none | some [] => none
  | some statuses => some (",".intercalate statuses)

/-- The service makes a list of the one status that it is given; an empty text is none. -/
def OrderFilter.statuses (filter : OrderFilter) : Option (List String) :=
  match filter.status with
  | none | some "" => none
  | some status => some [status]

def OrderFilter.lists (filter : OrderFilter) (r : OrderRow) : Bool :=
  statusListed (statusesCsv filter.statuses) r.status

def idText (e : OrderId × OrderRow) : String := toString e.1

section Query

variable (collate : Collation)

/-- `ORDER BY id DESC`: as of one instant, so that the ids alone decide. -/
def highestFirst (rows : List (OrderId × OrderRow)) : List (OrderId × OrderRow) :=
  newestFirst collate (fun _ => 0) idText rows

/-- `_LIST_ORDERS_SQL`. -/
def OrderRepository.listByUser (db : Db) (updatedAt : OrderId → Timestamp) (userId : UserId)
    (filter : OrderFilter) (limit : Nat) (cursorId : Option String) : List (Order × Timestamp) :=
  ((highestFirst collate (db.orders.rows.filter (fun e => filter.places userId e.2 &&
    cursorId.all (fun c => collate.lt (idText e) c) && filter.lists e.2))).take limit).map
    (fun e => (rowToOrder e.1 e.2, updatedAt e.1))

/-- The service asks for one order more than it shows. -/
def OrderService.listOrders (db : Db) (updatedAt : OrderId → Timestamp) (userId : UserId)
    (filter : OrderFilter) (limit : Nat) (cursor : Option String) : Page OrderResponse String :=
  Page.ofLookahead limit (fun order : Order × Timestamp => toString order.1.id)
    (fun order => OrderResponse.ofOrder order.1 order.2)
    (OrderRepository.listByUser collate db updatedAt userId filter (limit + 1) cursor)

end Query

private theorem natText_injective {m n : Nat} (same : toString m = toString n) : m = n := by
  have digits : Nat.toDigits 10 m = Nat.toDigits 10 n := by
    rw [← Nat.toList_repr, ← Nat.toList_repr]
    exact congrArg String.toList same
  rw [← Nat.ofDigitChars_ten_toDigits (n := m), digits, Nat.ofDigitChars_ten_toDigits]

def Db.KeepsColumn {β : Type} (col : OrderRow → β) (db db' : Db) : Prop :=
  ∀ id row, db.orders.get? id = some row →
    ∃ row', db'.orders.get? id = some row' ∧ col row' = col row

section Columns

variable {β : Type} {col : OrderRow → β} {db db' db'' : Db}

private theorem Db.KeepsColumn.refl : db.KeepsColumn col db := fun _ row got => ⟨row, got, rfl⟩

private theorem Db.KeepsColumn.of_orders (same : db'.orders = db.orders) : db.KeepsColumn col db' :=
  fun _ row got => ⟨row, same ▸ got, rfl⟩

private theorem Db.KeepsColumn.trans (first : db.KeepsColumn col db')
    (rest : db'.KeepsColumn col db'') :
    db.KeepsColumn col db'' := by
  intro id row got
  obtain ⟨row₁, middle, same₁⟩ := first id row got
  obtain ⟨row₂, last, same₂⟩ := rest id row₁ middle
  exact ⟨row₂, last, same₂.trans same₁⟩

private theorem Db.KeepsColumn.of_update {i : OrderId} {f : OrderRow → OrderRow}
    (updated : db.orders.update? i f = some db'.orders) (fixed : ∀ r, col (f r) = col r) :
    db.KeepsColumn col db' := by
  intro id row got
  rw [Table.get?_update? updated]
  split
  · next same => exact ⟨f row, by rw [← same, got, Option.map_some], fixed row⟩
  · exact ⟨row, got, rfl⟩

structure PlacedColumn (col : OrderRow → β) : Prop where
  progress : ∀ r order, col (r.progress order) = col r
  ended : ∀ r : OrderRow, ∀ status reason,
    col { r with status := status, cancelReason := reason } = col r

private theorem moveStep_column (fixed : PlacedColumn col) {move : Move}
    (step : moveStep db move db') :
    db.KeepsColumn col db' := by
  have ended : ∀ {id row}, db.Ends id row db' → db.KeepsColumn col db' := by
    intro id row ends j r got
    rw [ends.get?_orders]
    split
    · next same =>
      obtain rfl := Option.some.inj ((same ▸ ends.1).symm.trans got)
      exact ⟨_, rfl, fixed.ended row .cancelled row.cancelReason⟩
    · exact ⟨r, got, rfl⟩
  cases move with
  | placed draft =>
    obtain ⟨ob, ob', placed, v, done, shows, absent, backs⟩ := step
    obtain ⟨⟨_, _, _, _, _, _, _, _, accepted, _⟩, _⟩ := placeOrderInner_phases done
    obtain ⟨fresh, _⟩ := (acceptOrder_ok accepted).get?_orders
    intro id row got
    have other : id ≠ draft.id := by
      rintro rfl
      rw [fresh] at got
      cases got
    have same := placeOrderInner_column fixed.progress done id
    rw [if_neg other, got, Option.map_some] at same
    exact Option.map_eq_some_iff.mp same
  | cancelled id =>
    obtain ⟨row, _, ends⟩ := step
    exact ended ends
  | retired id =>
    obtain ⟨row, _, _, ends⟩ := step
    exact ended ends
  | batch marketId userId scope =>
    obtain ⟨db₁, h, marked, _, rfl⟩ := step
    intro j r got
    show ∃ row', db₁.orders.get? j = some row' ∧ _
    rw [(markCancelled_ok _ marked).2.2, got]
    split
    · exact ⟨_, rfl, fixed.ended r .cancelled r.cancelReason⟩
    · exact ⟨r, rfl, rfl⟩
  | privileged call =>
    rcases step with minted | burned
    · exact .of_orders (by rw [minted.rest])
    · exact .of_orders (by rw [burned.rest])
  | resolved marketId outcome =>
    obtain ⟨db₁, cancelled, done⟩ := AdminService.resolveInTransaction_ok step
    have loop := foldlM_preserves (P := fun d => db.KeepsColumn col d)
      (fun _ _ _ _ step before => before.trans
        (.of_update (AdminService.cancelAndUnfreeze_ok step).2.1
          (fun r => fixed.ended r .cancelled (some "MARKET_RESOLVED")))) cancelled .refl
    exact loop.trans (.of_orders (AdminService.settleMarket_ok done).1)

private theorem session_column (fixed : PlacedColumn col) {s s' : Session} {ops : List SessionOp}
    (acc : s.world.Accounted False) (run : Run sessionStep s ops s') :
    s'.world.Accounted False ∧ s.world.db.KeepsColumn col s'.world.db := by
  refine run.preserves (P := fun t => t.world.Accounted False ∧
    s.world.db.KeepsColumn col t.world.db) ?_ ⟨acc, .refl⟩
  rintro t op t' step ⟨acc, before⟩
  obtain ⟨acc', same | moves⟩ := sessionStep_moves step acc
  · exact ⟨acc', same ▸ before⟩
  · refine ⟨acc', before.trans ?_⟩
    exact moves.preserves (P := fun d => t.world.db.KeepsColumn col d)
      (fun _ _ _ move kept => kept.trans (moveStep_column fixed move)) .refl

end Columns

section Pages

variable {collate : Collation} {db : Db} {userId : UserId} {filter : OrderFilter} {limit : Nat}

def Db.listedOrders (db : Db) (collate : Collation) (userId : UserId) (filter : OrderFilter) :
    List (OrderId × OrderRow) :=
  highestFirst collate (db.orders.rows.filter (fun e => filter.places userId e.2 &&
    filter.lists e.2))

private theorem idTexts_nodup {p : OrderId × OrderRow → Bool} :
    ((db.orders.rows.filter p).map idText).Nodup := by
  have ids : ((db.orders.rows.filter p).map Prod.fst).Nodup :=
    db.orders.nodup.sublist (List.filter_sublist.map Prod.fst)
  refine List.pairwise_map.mpr ((List.pairwise_map.mp ids).imp (fun other same => ?_))
  exact other (natText_injective same)

private theorem Db.mem_listedOrders {e : OrderId × OrderRow} :
    e ∈ db.listedOrders collate userId filter ↔ db.orders.get? e.1 = some e.2 ∧
      filter.places userId e.2 = true ∧ filter.lists e.2 = true := by
  rw [listedOrders, highestFirst, (newestFirst_perm _).mem_iff, List.mem_filter, ← Table.mem_iff,
    Bool.and_eq_true]

private theorem listOrders_eq (updatedAt : OrderId → Timestamp) (cursor : Option String) :
    OrderService.listOrders collate db updatedAt userId filter limit cursor =
      Page.ofLookahead limit idText
        (fun e => OrderResponse.ofOrder (rowToOrder e.1 e.2) (updatedAt e.1)) (rowsFrom
          (db.listedOrders collate userId filter) (fun c e => collate.lt (idText e) c) cursor) := by
  have rows : highestFirst collate (db.orders.rows.filter (fun e => filter.places userId e.2 &&
      cursor.all (fun c => collate.lt (idText e) c) && filter.lists e.2)) =
        rowsFrom (db.listedOrders collate userId filter) (fun c e => collate.lt (idText e) c)
          cursor := by
    cases cursor with
    | none => simp [rowsFrom, Db.listedOrders]
    | some c =>
      simp only [rowsFrom, Db.listedOrders, highestFirst]
      rw [← newestFirst_filter idTexts_nodup, List.filter_filter]
      refine congrArg (highestFirst collate) (List.filter_congr (fun e _ => ?_))
      simp only [Option.all_some]
      cases filter.places userId e.2 <;> cases collate.lt (idText e) c <;> rfl
  rw [OrderService.listOrders, OrderRepository.listByUser, rows, Page.ofLookahead_map,
    Page.ofLookahead_take]
  rfl

abbrev Collation.Above (collate : Collation) (a b : String) : Prop := collate.lt b a = true

instance (collate : Collation) : IsTrans String collate.Above :=
  ⟨fun a b c first second => collate.trans c b a second first⟩

private theorem Db.listedOrders_sorted :
    ((db.listedOrders collate userId filter).map idText).Pairwise collate.Above := by
  refine List.pairwise_map.mpr ((newestFirst_sorted idTexts_nodup).imp (fun newer => ?_))
  rcases newer with later | ⟨_, above⟩
  · exact absurd later (lt_irrefl _)
  · exact above

private theorem Db.listedOrders_reverse (increasing : ((db.orders.rows.filter (fun e =>
      filter.places userId e.2 && filter.lists e.2)).map idText).Pairwise
        (fun a b => collate.lt a b = true)) :
    db.listedOrders collate userId filter = (db.orders.rows.filter (fun e =>
      filter.places userId e.2 && filter.lists e.2)).reverse := by
  refine ((newestFirst_perm _).trans (List.reverse_perm _).symm).eq_of_pairwise
    (fun a b _ _ first second => ?_) (List.pairwise_map.mp Db.listedOrders_sorted)
    (List.pairwise_reverse.mpr (List.pairwise_map.mp increasing))
  exact absurd second (by simpa using collate.asymm first)

private theorem listOrders_live (sched : Nat → Session) (updatedAt : Nat → OrderId → Timestamp) :
    ServesLive limit idText
      (fun i e => OrderResponse.ofOrder (rowToOrder e.1 e.2) (updatedAt i e.1))
      (fun i => (sched i).world.db.listedOrders collate userId filter) idText
      (fun c text => collate.lt text c) collate.Above
      (fun i cursor => some (OrderService.listOrders collate (sched i).world.db (updatedAt i)
        userId filter limit cursor)) where
  answer i c _ := by rw [listOrders_eq, rowsAt]
  sorted _ := Db.listedOrders_sorted
  resumes _ _ _ _ := Bool.decide_eq_true.symm

end Pages

def OrderRow.place (r : OrderRow) : UserId × MarketId × OriginalSide × OrderDirection :=
  (r.userId, r.marketId, r.originalSide, r.originalDirection)

private theorem OrderFilter.places_congr {filter : OrderFilter} {userId : UserId} {r r' : OrderRow}
    (same : r'.place = r.place) : filter.places userId r' = filter.places userId r := by
  simp only [OrderRow.place, Prod.mk.injEq] at same
  simp only [places, same.1, same.2.1, same.2.2.1, same.2.2.2]

/-- Whoever reads the list of a user's orders to its end, with any requests made between
the pages, sees no order twice, each as it was when its page was asked for, and every
order that there was at first and that has a listed status at each page. -/
theorem order_pages_live {collate : Collation} {s : Session} {before : List SessionOp}
    {sched : Nat → Session} {ops : Nat → List SessionOp} (opening : s.Opening)
    (start : Run sessionStep s before (sched 0))
    (runs : ∀ i, Run sessionStep (sched i) (ops i) (sched (i + 1)))
    {updatedAt : Nat → OrderId → Timestamp} {userId : UserId} {filter : OrderFilter} {limit : Nat}
    {read : List (List OrderResponse)}
    (follows : FollowsThrough (fun i cursor => some (OrderService.listOrders collate
      (sched i).world.db (updatedAt i) userId filter limit cursor)) 0 none read) :
    (read.flatten.map OrderResponse.id).Pairwise collate.Above ∧
      (∀ page ∈ read.dropLast, page.length = limit) ∧
      (∀ (j : Nat) (page : List OrderResponse), read[j]? = some page → ∀ item ∈ page, ∃ id row,
        (sched j).world.db.orders.get? id = some row ∧ filter.places userId row = true ∧
        filter.lists row = true ∧
        item = OrderResponse.ofOrder (rowToOrder id row) (updatedAt j id)) ∧
      ∀ id row, (sched 0).world.db.orders.get? id = some row → filter.places userId row = true →
        (∀ j < read.length, ∀ row', (sched j).world.db.orders.get? id = some row' →
          filter.lists row' = true) →
        toString id ∈ read.flatten.map OrderResponse.id := by
  have serves : ServesLive limit idText
      (fun i e => OrderResponse.ofOrder (rowToOrder e.1 e.2) (updatedAt i e.1))
      (fun i => (sched i).world.db.listedOrders collate userId filter) idText
      (fun c text => collate.lt text c) collate.Above
      (fun i cursor => some (OrderService.listOrders collate (sched i).world.db (updatedAt i)
        userId filter limit cursor)) := listOrders_live sched updatedAt
  have first : IssuedEver idText (fun i => (sched i).world.db.listedOrders collate userId filter)
      none := fun d equal => by cases equal
  have named : ∀ (i : Nat) (e : OrderId × OrderRow),
      (OrderResponse.ofOrder (rowToOrder e.1 e.2) (updatedAt i e.1)).id = idText e :=
    fun _ _ => rfl
  obtain ⟨_, ordered, complete⟩ := serves.reads named follows first
  refine ⟨ordered, serves.full follows first, ?_, ?_⟩
  · intro j page at_ item member
    have shown := (serves.current follows first at_).2 item member
    rw [Nat.zero_add] at shown
    obtain ⟨e, listed, rfl⟩ := shown
    obtain ⟨got, places, lists⟩ := Db.mem_listedOrders.mp listed
    exact ⟨e.1, e.2, got, places, lists, rfl⟩
  · intro id row got places lists
    have fixed : PlacedColumn OrderRow.place := ⟨fun _ _ => rfl, fun _ _ _ => rfl⟩
    have stays : ∀ j, (sched j).world.Accounted False ∧
        (sched 0).world.db.KeepsColumn OrderRow.place (sched j).world.db := by
      intro j
      induction j with
      | zero => exact ⟨(session_column fixed opening.accounted start).1, .refl⟩
      | succ j ih =>
        obtain ⟨acc, step⟩ := session_column fixed ih.1 (runs j)
        exact ⟨acc, ih.2.trans step⟩
    refine complete (toString id) (fun d equal => by cases equal) (fun j below => ?_)
    obtain ⟨row', now, same⟩ := (stays j).2 id row got
    refine List.mem_map.mpr ⟨(id, row'), ?_, rfl⟩
    rw [Nat.zero_add, Db.mem_listedOrders]
    exact ⟨now, (OrderFilter.places_congr same).trans places, lists j below row' now⟩

section Example

private def filledMeanwhile : Nat → Session
  | 0 => (pairMarket.next sellFourYes).next
    (.place ⟨"s2", "m", .yes, .sell, 60, 2, .gtc⟩ "alice" ⟨0, 0⟩)
  | _ + 1 => ((pairMarket.next sellFourYes).next
    (.place ⟨"s2", "m", .yes, .sell, 60, 2, .gtc⟩ "alice" ⟨0, 0⟩)).next buyOneYes

private def fillOnly : Nat → List SessionOp
  | 0 => [buyOneYes]
  | _ + 1 => []

private def salesOfYes : OrderFilter := ⟨some "m", none, some "YES", some "SELL"⟩

private def salesTouched (i : Nat) (id : OrderId) : Timestamp := if i ≠ 0 ∧ id = 1 then 1 else 0

private def salesPage (i : Nat) (cursor : Option String) : Page OrderResponse String :=
  OrderService.listOrders .codePoints (filledMeanwhile i).world.db (salesTouched i) "alice"
    salesOfYes 1 cursor

theorem sales_read_live : ∃ read : List (List OrderResponse),
    FollowsThrough (fun i cursor => some (salesPage i cursor)) 0 none read ∧
    (read.flatten.map OrderResponse.id).Pairwise Collation.codePoints.Above ∧
      (∀ page ∈ read.dropLast, page.length = 1) ∧
      (∀ (j : Nat) (page : List OrderResponse), read[j]? = some page → ∀ item ∈ page, ∃ id row,
        (filledMeanwhile j).world.db.orders.get? id = some row ∧
        salesOfYes.places "alice" row = true ∧ salesOfYes.lists row = true ∧
        item = OrderResponse.ofOrder (rowToOrder id row) (salesTouched j id)) ∧
      ∀ id row, (filledMeanwhile 0).world.db.orders.get? id = some row →
        salesOfYes.places "alice" row = true →
        (∀ j < read.length, ∀ row', (filledMeanwhile j).world.db.orders.get? id = some row' →
          salesOfYes.lists row' = true) →
        toString id ∈ read.flatten.map OrderResponse.id := by
  have start : Run sessionStep pairMarket
      [sellFourYes, .place ⟨"s2", "m", .yes, .sell, 60, 2, .gtc⟩ "alice" ⟨0, 0⟩]
      (filledMeanwhile 0) := .cons rfl (.single rfl)
  have runs : ∀ i, Run sessionStep (filledMeanwhile i) (fillOnly i) (filledMeanwhile (i + 1)) := by
    intro i
    cases i with
    | zero => exact .single rfl
    | succ i => exact .nil _
  have listed : ∀ i ∈ [0, 1], (filledMeanwhile i).world.db.listedOrders .codePoints "alice"
      salesOfYes = ((filledMeanwhile i).world.db.orders.rows.filter (fun e =>
        salesOfYes.places "alice" e.2 && salesOfYes.lists e.2)).reverse := by
    intro i two
    refine Db.listedOrders_reverse ?_
    revert i
    decide +kernel
  have follows : FollowsThrough (fun i cursor => some (salesPage i cursor)) 0 none
      [(salesPage 0 none).items, (salesPage 1 (some "2")).items] := by
    have more : (salesPage 0 none).hasMore = true := by
      rw [salesPage, listOrders_eq, listed 0 (by decide)]
      decide +kernel
    have next : (salesPage 0 none).nextCursor = some "2" := by
      rw [salesPage, listOrders_eq, listed 0 (by decide)]
      decide +kernel
    have done : (salesPage 1 (some "2")).hasMore = false := by
      rw [salesPage, listOrders_eq, listed 1 (by decide)]
      decide +kernel
    exact .next rfl more next (.last rfl done)
  exact ⟨_, follows, order_pages_live pairMarket_opening start runs follows⟩

end Example

end PredictionMarket
