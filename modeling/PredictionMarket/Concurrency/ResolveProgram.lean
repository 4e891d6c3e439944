/- PredictionMarket/Concurrency/ResolveProgram
   digest: The resolution of a market, statement by statement, and what it does alone. -/

import PredictionMarket.Concurrency.Statements
import PredictionMarket.Engine.ResolutionPayout

set_option autoImplicit false
set_option relaxedAutoImplicit false

namespace PredictionMarket

namespace AdminService

open Library ReadCommitted

abbrev ResolveProgram := Program DbKey DbKey.Row Empty Err Unit

variable {marketId : MarketId} {outcome : OriginalSide}

/-- `_GET_OPEN_ORDERS_SQL` over a table with these ids. -/
def scanOrders (marketId : MarketId) (ids : List OrderId) (rows : Rows DbKey DbKey.Row) :
    List (OrderId × OrderRow) :=
  ids.filterMap (fun id => (rows (.order id)).bind (fun r =>
    if r.marketId = marketId ∧ r.isActive then some (id, r) else none))

structure ScannedPosition where
  userId : UserId
  yesVolume : Int
  noVolume : Int

def ScannedPosition.ofRow (userId : UserId) (r : PositionRow) : ScannedPosition :=
  ⟨userId, r.yes.volume, r.no.volume⟩

/-- `_GET_POSITIONS_SQL` over a table with positions of these users. -/
def scanPositions (marketId : MarketId) (users : List UserId) (rows : Rows DbKey DbKey.Row) :
    List ScannedPosition :=
  users.filterMap (fun user =>
    (rows (.position user marketId)).map (ScannedPosition.ofRow user))

def cancelOrders (marketId : MarketId) (next : ResolveProgram) :
    List (OrderId × OrderRow) → ResolveProgram
  | [] => next
  | e :: l =>
    updateOrder e.1 endedRow <|
    match e.2.frozenAssetType with
    | .funds =>
      updateAccount e.2.userId (fun a =>
        { a with
          frozenBalance := a.frozenBalance - e.2.frozenAmount
          availableBalance := a.availableBalance + e.2.frozenAmount })
        (cancelOrders marketId next l)
    | .yesShares =>
      updatePosition e.2.userId marketId (fun r => r.modify .yes (fun c =>
        { c with pendingSell := c.pendingSell + -e.2.remainingQuantity }))
        (cancelOrders marketId next l)
    | .noShares =>
      updatePosition e.2.userId marketId (fun r => r.modify .no (fun c =>
        { c with pendingSell := c.pendingSell + -e.2.remainingQuantity }))
        (cancelOrders marketId next l)

def ScannedPosition.winningShares (p : ScannedPosition) : OriginalSide → Int
  | .yes => p.yesVolume
  | .no => p.noVolume

def payPositions (marketId : MarketId) (outcome : OriginalSide) (next : ResolveProgram) :
    List ScannedPosition → ResolveProgram
  | [] => next
  | p :: l =>
    let clear := updatePosition p.userId marketId (fun _ => .empty)
      (payPositions marketId outcome next l)
    if 0 < p.winningShares outcome then
      addBalance p.userId (p.winningShares outcome * 100) clear
    else clear

/-- `settle_market` and the commit. -/
def settlement (marketId : MarketId) (outcome : OriginalSide) (users : List UserId) :
    ResolveProgram :=
  .select (fun rows _ =>
    payPositions marketId outcome (updateMarket marketId (settledRow outcome) (.finish ()))
      (scanPositions marketId users rows))

def resolution (marketId : MarketId) (outcome : OriginalSide) (ids : List OrderId)
    (users : List UserId) : ResolveProgram :=
  .select (fun rows _ =>
    cancelOrders marketId (settlement marketId outcome users) (scanOrders marketId ids rows))

def requireOpen (next : ResolveProgram) : Option MarketStatus → ResolveProgram
  | none => .fail (.app ⟨3001, "Market not found", 404⟩)
  | some status =>
    if status ≠ .active ∧ status ≠ .suspended then
      .fail (.app ⟨3002, s!"Market cannot be resolved (status={status.name})", 422⟩)
    else next

/-- `resolve_market`, statement by statement. A resolution adds no row, so the scans
go over the keys that the tables have at the start. -/
def resolveProgram (marketId : MarketId) (outcome : OriginalSide) (ids : List OrderId)
    (users : List UserId) : ResolveProgram :=
  .select (fun rows _ => requireOpen (resolution marketId outcome ids users)
    ((rows (.market marketId)).map MarketRow.status))

def positionUsers (marketId : MarketId) (db : Db) : List UserId :=
  (db.holdings.positions.rows.filter (fun e => e.1.2 = marketId)).map (·.1.1)

section Alone

variable {next : ResolveProgram} {db db' : Db} {log : List Empty}

private theorem onHoldings_bind {α : Type} {f : Holdings → Except Err Holdings}
    {g : Db → Except Err α} :
    db.onHoldings f >>= g = f db.holdings >>= fun h => g { db with holdings := h } := by
  rw [Db.onHoldings]
  cases f db.holdings <;> rfl

private theorem cancelOrders_alone (l : List (OrderId × OrderRow)) :
    (cancelOrders marketId next l).alone db.rows log =
      l.foldlM (cancelAndUnfreeze marketId) db >>= fun db => next.alone db.rows log := by
  induction l generalizing db with
  | nil => rfl
  | cons e l ih =>
    rw [cancelOrders, updateOrder_alone, List.foldlM_cons, bind_assoc, cancelAndUnfreeze,
      bind_assoc]
    apply bind_congr
    intro db₁
    cases asset : e.2.frozenAssetType with
    | funds =>
      simp only
      rw [updateAccount_alone]
      apply bind_congr
      intro db₂
      exact ih
    | yesShares | noShares =>
      simp only
      rw [updatePosition_alone]
      apply bind_congr
      intro db₂
      exact ih

private theorem winningShares_ofRow (user : UserId) (r : PositionRow) :
    (ScannedPosition.ofRow user r).winningShares outcome = (r.holding outcome).volume := by
  cases outcome <;> rfl

private theorem payPositions_alone (l : List (UserId × PositionRow)) :
    (payPositions marketId outcome next
        (l.map (fun e => ScannedPosition.ofRow e.1 e.2))).alone db.rows log =
      l.foldlM (payAndClear marketId outcome) db.holdings >>= fun h =>
        next.alone (Db.rows { db with holdings := h }) log := by
  induction l generalizing db with
  | nil => rfl
  | cons e l ih =>
    rw [List.map_cons, payPositions, List.foldlM_cons, payAndClear, winningShares_ofRow]
    by_cases wins : 0 < (e.2.holding outcome).volume
    · rw [if_pos wins, if_pos wins, addBalance_alone, onHoldings_bind]
      simp only [bind_assoc]
      apply bind_congr
      intro h₁
      rw [updatePosition_alone, onHoldings_bind]
      apply bind_congr
      intro h₂
      exact ih
    · rw [if_neg wins, if_neg wins, updatePosition_alone, onHoldings_bind]
      simp only [bind_assoc, pure_bind]
      apply bind_congr
      intro h₁
      exact ih

theorem scanOrders_eq : scanOrders marketId (db.orders.rows.map Prod.fst) db.rows =
    openOrders marketId db := by
  rw [scanOrders, openOrders, List.filterMap_map, ← List.filterMap_eq_filter]
  apply List.filterMap_congr
  intro e member
  have stored : db.rows (.order e.1) = some e.2 := Table.mem_iff.mp member
  simp only [Function.comp, stored, Option.bind_some, Option.guard]
  by_cases chosen : e.2.marketId = marketId ∧ e.2.isActive = true <;> simp [chosen]

theorem scanPositions_eq : scanPositions marketId (positionUsers marketId db) db.rows =
    (marketPositions marketId db.holdings).map (fun e => ScannedPosition.ofRow e.1 e.2) := by
  rw [scanPositions, positionUsers, marketPositions, List.filterMap_map, List.map_map,
    ← List.filterMap_eq_map]
  apply List.filterMap_congr
  intro e member
  obtain ⟨stored, home⟩ := List.mem_filter.mp member
  have here : e.1.2 = marketId := by simpa using home
  have got : db.rows (.position e.1.1 marketId) = some e.2 := by
    rw [← here]
    exact Table.mem_iff.mp stored
  simp only [Function.comp, got, Option.map_some]

structure SameKeys (db db' : Db) : Prop where
  orders : db'.orders.rows.map Prod.fst = db.orders.rows.map Prod.fst
  accounts : db'.holdings.accounts.rows.map Prod.fst = db.holdings.accounts.rows.map Prod.fst
  positions : db'.holdings.positions.rows.map Prod.fst = db.holdings.positions.rows.map Prod.fst
  markets : db'.markets.rows.map Prod.fst = db.markets.rows.map Prod.fst

theorem SameKeys.refl (db : Db) : SameKeys db db := ⟨rfl, rfl, rfl, rfl⟩

theorem SameKeys.trans {db'' : Db} (first : SameKeys db db') (next : SameKeys db' db'') :
    SameKeys db db'' :=
  ⟨next.orders.trans first.orders, next.accounts.trans first.accounts,
    next.positions.trans first.positions, next.markets.trans first.markets⟩

theorem SameKeys.users (same : SameKeys db db') (m : MarketId) :
    positionUsers m db' = positionUsers m db := by
  have users : ∀ d : Db, positionUsers m d =
      ((d.holdings.positions.rows.map Prod.fst).filter (fun k => k.2 = m)).map Prod.fst := by
    intro d
    rw [List.filter_map, List.map_map]
    rfl
  rw [users, users, same.positions]

theorem SameKeys.present (same : SameKeys db db') (k : DbKey) :
    (db'.rows k).isSome = (db.rows k).isSome := by
  cases k with
  | order id => exact Table.isSome_congr same.orders id
  | account user => exact Table.isSome_congr same.accounts user
  | market m => exact Table.isSome_congr same.markets m
  | position user m => exact Table.isSome_congr same.positions (user, m)

private theorem sameKeys_updateAccount {user : UserId} {f : AccountRow → AccountRow} {h : Holdings}
    (done : db.holdings.updateAccount user f = .ok h) : SameKeys db { db with holdings := h } := by
  obtain ⟨positions, accounts⟩ := Holdings.updateAccount_ok done
  exact ⟨rfl, Table.keys_update? accounts, congrArg (fun t => t.rows.map Prod.fst) positions, rfl⟩

private theorem sameKeys_updatePosition (db : Db) {user : UserId} {m : MarketId}
    {f : PositionRow → PositionRow}
    {h : Holdings} (done : db.holdings.updatePosition user m f = .ok h) :
    SameKeys db { db with holdings := h } := by
  obtain ⟨accounts, positions⟩ := Holdings.updatePosition_ok done
  exact ⟨rfl, congrArg (fun t => t.rows.map Prod.fst) accounts, Table.keys_update? positions, rfl⟩

private theorem cancelAndUnfreeze_sameKeys {e : OrderId × OrderRow}
    (done : cancelAndUnfreeze marketId db e = .ok db') : SameKeys db db' := by
  simp only [cancelAndUnfreeze, bind_eq_ok] at done
  obtain ⟨db₁, marked, moved⟩ := done
  split at marked
  · next orders updated =>
    obtain rfl := Except.ok.inj marked
    obtain ⟨h, freed, rfl⟩ := Db.onHoldings_ok moved
    have ended : SameKeys db { db with orders := orders } :=
      ⟨Table.keys_update? updated, rfl, rfl, rfl⟩
    refine ended.trans ?_
    split at freed
    · exact sameKeys_updateAccount freed
    · exact sameKeys_updatePosition _ freed
    · exact sameKeys_updatePosition _ freed
  · cases marked

private theorem payAndClear_sameKeys (db : Db) {e : UserId × PositionRow} {h : Holdings}
    (done : payAndClear marketId outcome db.holdings e = .ok h) :
    SameKeys db { db with holdings := h } := by
  simp only [payAndClear, bind_eq_ok] at done
  obtain ⟨h₁, paid, cleared⟩ := done
  have credited : SameKeys db { db with holdings := h₁ } := by
    split at paid
    · exact sameKeys_updateAccount paid
    · obtain rfl := Except.ok.inj paid
      exact .refl db
  exact credited.trans (sameKeys_updatePosition { db with holdings := h₁ } cleared)

theorem resolveInTransaction_sameKeys
    (done : resolveInTransaction marketId outcome db = .ok db') : SameKeys db db' := by
  obtain ⟨db₁, cancelled, settled⟩ := resolveInTransaction_ok done
  have first : SameKeys db db₁ :=
    foldlM_preserves (P := SameKeys db)
      (fun _ _ _ _ step same => same.trans (cancelAndUnfreeze_sameKeys step)) cancelled (.refl db)
  obtain ⟨orders, paid, f, _, markets⟩ := settleMarket_ok settled
  have then_ : SameKeys db₁ { db₁ with holdings := db'.holdings } :=
    foldlM_preserves (P := fun h => SameKeys db₁ { db₁ with holdings := h })
      (fun h _ _ _ step same => same.trans
        (payAndClear_sameKeys { db₁ with holdings := h } step)) paid (.refl db₁)
  refine first.trans ⟨?_, then_.accounts, then_.positions, Table.keys_update? markets⟩
  rw [orders]

private theorem settlement_alone :
    (settlement marketId outcome (positionUsers marketId db)).alone db.rows log =
      (settleMarket marketId outcome db).map (fun db' => ((), db'.rows, log)) := by
  rw [settlement, Program.alone, scanPositions_eq, payPositions_alone, settleMarket, map_bind]
  apply bind_congr
  intro h
  rw [updateMarket_alone]
  cases db.markets.update? marketId (settledRow outcome) with
  | none => rfl
  | some markets => rfl

theorem resolution_alone :
    (resolution marketId outcome (db.orders.rows.map Prod.fst)
      (positionUsers marketId db)).alone db.rows log =
      (resolveInTransaction marketId outcome db).map (fun db' => ((), db'.rows, log)) := by
  rw [resolution, Program.alone, scanOrders_eq, cancelOrders_alone, resolveInTransaction,
    map_bind]
  cases ran : (openOrders marketId db).foldlM (cancelAndUnfreeze marketId) db with
  | error e => rfl
  | ok db₁ =>
    have same : SameKeys db db₁ :=
      foldlM_preserves (P := SameKeys db)
        (fun _ _ _ _ step same => same.trans (cancelAndUnfreeze_sameKeys step)) ran (.refl db)
    show (settlement marketId outcome (positionUsers marketId db)).alone db₁.rows log = _
    rw [← same.users, settlement_alone]
    rfl

end Alone

/-- The orders, and the shares in the positions of the market, are those of `c₀`. -/
structure Snapshot (marketId : MarketId) (c₀ c : Rows DbKey DbKey.Row) (_log : List Empty) :
    Prop where
  orders : ∀ id, c (.order id) = c₀ (.order id)
  positions : ∀ user, (c (.position user marketId)).map (ScannedPosition.ofRow user) =
    (c₀ (.position user marketId)).map (ScannedPosition.ofRow user)
  present : ∀ k, (c k).isSome = (c₀ k).isSome

section Settled

variable {ids : List OrderId} {users : List UserId} {c₀ c c' : Rows DbKey DbKey.Row}
  {log log' : List Empty} {next : ResolveProgram}

theorem Snapshot.refl (c : Rows DbKey DbKey.Row) (log : List Empty) :
    Snapshot marketId c c log :=
  ⟨fun _ => rfl, fun _ => rfl, fun _ => rfl⟩

theorem Snapshot.congr (same : Snapshot marketId c₀ c log) :
    Snapshot marketId c = Snapshot marketId c₀ := by
  funext c₁ l
  apply propext
  constructor
  · intro good
    exact ⟨fun id => (good.orders id).trans (same.orders id),
      fun user => (good.positions user).trans (same.positions user),
      fun k => (good.present k).trans (same.present k)⟩
  · intro good
    exact ⟨fun id => (good.orders id).trans (same.orders id).symm,
      fun user => (good.positions user).trans (same.positions user).symm,
      fun k => (good.present k).trans (same.present k).symm⟩

private theorem Snapshot.absent (good : Snapshot marketId c₀ c log)
    (good' : Snapshot marketId c₀ c' log')
    {k : DbKey} (absent : c k = none) : c' k = none := by
  have none_ : (c' k).isSome = (c k).isSome := (good'.present k).trans (good.present k).symm
  rw [absent] at none_
  simpa using none_

theorem scanOrders_congr (same : ∀ id, c (.order id) = c' (.order id)) :
    scanOrders marketId ids c = scanOrders marketId ids c' := by
  apply List.filterMap_congr
  intro id _
  rw [same]

private theorem scanPositions_congr (same : ∀ user,
    (c (.position user marketId)).map (ScannedPosition.ofRow user) =
      (c' (.position user marketId)).map (ScannedPosition.ofRow user)) :
    scanPositions marketId users c = scanPositions marketId users c' := by
  apply List.filterMap_congr
  intro user _
  exact same user

private theorem Snapshot.update {k : DbKey} {f : Option k.Row → Except Err (Option k.Row)}
    (settled : ∀ held, next.Settled (Snapshot marketId c₀) held) (held : Set DbKey) :
    (Program.update k f (fun _ => next)).Settled (Snapshot marketId c₀) held :=
  .update (fun _ _ _ _ _ good good' absent => good.absent good' absent)
    (fun _ held => settled held) held

private theorem cancelOrders_settled (settled : ∀ held, next.Settled (Snapshot marketId c₀) held)
    (l : List (OrderId × OrderRow)) (held : Set DbKey) :
    (cancelOrders marketId next l).Settled (Snapshot marketId c₀) held := by
  induction l generalizing held with
  | nil => exact settled held
  | cons e l ih =>
    rw [cancelOrders]
    apply Snapshot.update
    intro held
    cases e.2.frozenAssetType with
    | funds => exact Snapshot.update ih held
    | yesShares => exact Snapshot.update ih held
    | noShares => exact Snapshot.update ih held

private theorem payPositions_settled (settled : ∀ held, next.Settled (Snapshot marketId c₀) held)
    (l : List ScannedPosition) (held : Set DbKey) :
    (payPositions marketId outcome next l).Settled (Snapshot marketId c₀) held := by
  induction l generalizing held with
  | nil => exact settled held
  | cons p l ih =>
    rw [payPositions]
    split
    · exact Snapshot.update (Snapshot.update ih) held
    · exact Snapshot.update ih held

theorem settlement_settled (held : Set DbKey) :
    (settlement marketId outcome users).Settled (Snapshot marketId c₀) held := by
  intro draft _ pending
  constructor
  · intro c l c' l' good good' _
    have same : scanPositions marketId users (overlay draft c) =
        scanPositions marketId users (overlay draft c') := by
      apply scanPositions_congr
      intro user
      rw [overlay, overlay]
      cases draft (.position user marketId) with
      | some row => rfl
      | none => exact (good.positions user).trans (good'.positions user).symm
    simp only [same]
  · intro c l _
    have closing : ∀ held, Program.Settled (Snapshot marketId c₀)
        (updateMarket marketId (settledRow outcome) (.finish ()) : ResolveProgram) held := by
      apply Snapshot.update
      intro _
      trivial
    exact payPositions_settled closing _ held

/-- The two scans come out the same in all the databases that are as `c₀`. -/
theorem resolution_settled (held : Set DbKey) :
    (resolution marketId outcome ids users).Settled (Snapshot marketId c₀) held := by
  intro draft _ pending
  constructor
  · intro c l c' l' good good' _
    have same : scanOrders marketId ids (overlay draft c) =
        scanOrders marketId ids (overlay draft c') := by
      apply scanOrders_congr
      intro id
      apply overlay_congr
      intro _
      exact (good.orders id).trans (good'.orders id).symm
    simp only [same]
  · intro c l _
    exact cancelOrders_settled settlement_settled _ held

end Settled

end AdminService

end PredictionMarket
