/- PredictionMarket/Engine/ResolutionPayout
   digest: A resolution releases what the orders hold, pays every winning share and closes the market. -/

import PredictionMarket.Engine.PrivilegedMint
import PredictionMarket.Engine.Resolution
import Mathlib.Algebra.BigOperators.Ring.List

set_option autoImplicit false
set_option relaxedAutoImplicit false

namespace PredictionMarket

open Library

/-- What one order holds of an asset of `user`: its frozen amount of cash, or its
remaining quantity of shares. -/
def OrderRow.gives (r : OrderRow) (user : UserId) (asset : FrozenAssetType) : Int :=
  if r.userId = user ∧ r.frozenAssetType = asset then
    if asset = .funds then r.frozenAmount else r.remainingQuantity
  else 0

private theorem OrderRow.gives_nonneg {r : OrderRow} (ok : r.Check) (user : UserId)
    (asset : FrozenAssetType) : 0 ≤ r.gives user asset := by
  unfold gives
  split
  · split
    · exact ok.frozen_nonneg
    · exact ok.remaining_nonneg
  · exact le_rfl

def Db.heldByOrders (db : Db) (m : MarketId) (user : UserId) (asset : FrozenAssetType) : Int :=
  db.orders.sum (fun _ r => if r.marketId = m ∧ r.isActive = true then r.gives user asset else 0)

def Holdings.sharesOf (h : Holdings) (user : UserId) (m : MarketId) (side : OriginalSide) : Int :=
  (h.positions.get? (user, m)).elim 0 (fun r => (r.holding side).volume)

def OriginalSide.frozenAsset : OriginalSide → FrozenAssetType
  | .yes => .yesShares
  | .no => .noShares

/-- What has to hold of the tables for a resolution: the counters of the market
match its positions, the frozen columns cover the active orders. -/
structure Db.Resolvable (db : Db) (m : MarketId) : Prop where
  market : ∃ row, db.markets.get? m = some row ∧
    (row.status = .active ∨ row.status = .suspended) ∧
    row.totalYesShares = db.holdings.volumeSum m .yes ∧
    row.totalNoShares = db.holdings.volumeSum m .no ∧
    row.reserveBalance = 100 * row.totalYesShares ∧ row.reserveBalance = 100 * row.totalNoShares
  pending : ∀ user r side, db.holdings.positions.get? (user, m) = some r →
    (r.holding side).pendingSell = db.heldByOrders m user side.frozenAsset
  funds : ∀ user, db.heldByOrders m user .funds ≤ db.holdings.frozenOf user

def AccountRow.freed (a : AccountRow) (x : Int) : AccountRow :=
  { a with frozenBalance := a.frozenBalance - x, availableBalance := a.availableBalance + x }

def PositionRow.freed (r : PositionRow) (x : OriginalSide → Int) : PositionRow where
  yes := { r.yes with pendingSell := r.yes.pendingSell - x .yes }
  no := { r.no with pendingSell := r.no.pendingSell - x .no }

@[simp] theorem AccountRow.freed_zero (a : AccountRow) : a.freed 0 = a := by simp [freed]

@[simp] theorem AccountRow.freed_freed (a : AccountRow) (x y : Int) :
    (a.freed x).freed y = a.freed (x + y) := by
  simp only [freed, AccountRow.mk.injEq, and_true]
  omega

private theorem PositionRow.volume_freed (r : PositionRow) (x : OriginalSide → Int)
    (side : OriginalSide) :
    ((r.freed x).holding side).volume = (r.holding side).volume := by
  cases side <;> rfl

@[simp] theorem PositionRow.freed_zero (r : PositionRow) : r.freed (fun _ => 0) = r := by
  simp [freed]

@[simp] theorem PositionRow.freed_freed (r : PositionRow) (x y : OriginalSide → Int) :
    (r.freed x).freed y = r.freed (fun side => x side + y side) := by
  simp only [freed, PositionRow.mk.injEq, Holding.mk.injEq, true_and]
  omega

namespace Holdings

variable {h h' : Holdings} {userId : UserId}

/-- The shares of one kind in the positions that `p` selects. -/
def volumeOf (h : Holdings) (p : UserId × MarketId → Bool) (side : OriginalSide) : Int :=
  h.positions.sum (fun k r => if p k then (r.holding side).volume else 0)

theorem volumeSum_eq (h : Holdings) (m : MarketId) (side : OriginalSide) :
    h.volumeSum m side = h.volumeOf (fun k => k.2 = m) side := by
  simp [volumeSum, volumeOf]

private theorem volume_nonneg {k : UserId × MarketId} {r : PositionRow}
    (got : h.positions.get? k = some r) (side : OriginalSide) : 0 ≤ (r.holding side).volume :=
  (PositionRow.Check.holding (Table.check got) side).1

private theorem volumeOf_eq_zero {p : UserId × MarketId → Bool} {side : OriginalSide} :
    h.volumeOf p side = 0 ↔
      ∀ k r, h.positions.get? k = some r → p k = true → (r.holding side).volume = 0 := by
  have nonneg : ∀ x ∈ h.positions.rows.map (fun e =>
      if p e.1 then (e.2.holding side).volume else 0), 0 ≤ x := by
    intro x listed
    obtain ⟨e, stored, rfl⟩ := List.mem_map.mp listed
    show 0 ≤ if p e.1 then (e.2.holding side).volume else 0
    split
    · exact volume_nonneg (Table.mem_iff.mp stored) side
    · exact le_rfl
  constructor
  · intro zero k r got selected
    have counted := List.all_zero_of_le_zero_le_of_sum_eq_zero nonneg zero
      (List.mem_map.mpr ⟨(k, r), Table.mem_iff.mpr got, rfl⟩)
    simpa [selected] using counted
  · intro empty
    apply Table.sum_eq_zero
    intro k r got
    by_cases selected : p k = true
    · simp [selected, empty k r got selected]
    · simp [selected]

theorem volumeOf_split (h : Holdings) (p q : UserId × MarketId → Bool) (side : OriginalSide) :
    h.volumeOf p side = h.volumeOf (fun k => p k && q k) side +
      h.volumeOf (fun k => p k && !q k) side := by
  unfold volumeOf Table.sum
  rw [← List.sum_map_add]
  congr 1
  apply List.map_congr_left
  intro e _
  cases first : p e.1 <;> cases second : q e.1 <;> simp [first, second]

private theorem updateAccount_succeeds {f : AccountRow → AccountRow}
    (keeps : ∀ a, h.accounts.get? userId = some a → (f a).Check) :
    ∃ h', h.updateAccount userId f = .ok h' := by
  obtain ⟨accounts, updated⟩ := Table.exists_update? keeps
  simp only [updateAccount, updated]
  exact ⟨_, rfl⟩

private theorem updatePosition_succeeds {m : MarketId} {f : PositionRow → PositionRow}
    (keeps : ∀ r, h.positions.get? (userId, m) = some r → (f r).Check) :
    ∃ h', h.updatePosition userId m f = .ok h' := by
  obtain ⟨positions, updated⟩ := Table.exists_update? keeps
  simp only [updatePosition, updated]
  exact ⟨_, rfl⟩

/-- The holdings after each user got back `x user asset` of what was frozen for the
market. -/
structure Receives (m : MarketId) (x : UserId → FrozenAssetType → Int) (h h' : Holdings) : Prop
    where
  accounts : ∀ user, h'.accounts.get? user =
    (h.accounts.get? user).map (fun a => a.freed (x user .funds))
  positions : ∀ user i, h'.positions.get? (user, i) = (h.positions.get? (user, i)).map (fun r =>
    if i = m then r.freed (fun side => x user side.frozenAsset) else r)

theorem Receives.zero (m : MarketId) (h : Holdings) : h.Receives m (fun _ _ => 0) h := by
  constructor
  · intro user
    simp
  · intro user i
    simp

theorem Receives.add {m : MarketId} {x y : UserId → FrozenAssetType → Int} {h'' : Holdings}
    (first : h.Receives m x h') (rest : h'.Receives m y h'') :
    h.Receives m (fun user asset => x user asset + y user asset) h'' := by
  constructor
  · intro user
    rw [rest.accounts, first.accounts, Option.map_map]
    simp [Function.comp_def]
  · intro user i
    rw [rest.positions, first.positions, Option.map_map]
    by_cases here : i = m
    · simp [Function.comp_def, here]
    · simp [Function.comp_def, here]

theorem receives_funds {amount : Int} (gave : h.unfreezeDebit userId amount amount = .ok h')
    (m : MarketId) :
    h.Receives m (fun user asset => if user = userId ∧ asset = .funds then amount else 0) h' := by
  constructor
  · intro user
    rw [get?_updateAccount gave]
    by_cases mine : user = userId
    · subst mine
      simp [AccountRow.freed]
    · simp [mine]
  · intro user i
    have none : ∀ side : OriginalSide, side.frozenAsset ≠ .funds := by
      intro side
      cases side <;> simp [OriginalSide.frozenAsset]
    simp [unfreezeDebit_positions gave, none]

theorem receives_shares {m : MarketId} {side : OriginalSide} {qty : Int}
    (gave : h.addPending side userId m (-qty) = .ok h') :
    h.Receives m (fun user asset => if user = userId ∧ asset = side.frozenAsset then qty else 0)
      h' := by
  constructor
  · intro user
    have shares : FrozenAssetType.funds ≠ side.frozenAsset := by
      cases side <;> simp [OriginalSide.frozenAsset]
    simp [(updatePosition_ok gave).1, shares]
  · intro user i
    rw [Table.get?_update? (updatePosition_ok gave).2]
    by_cases mine : user = userId
    · by_cases here : i = m
      · subst mine here
        simp only [if_true, true_and]
        congr 1
        funext r
        cases side <;> simp [OriginalSide.frozenAsset, PositionRow.freed, PositionRow.modify,
          sub_eq_add_neg]
      · simp [here]
    · simp [mine]

theorem receives_order {m : MarketId} {r : OrderRow}
    (gave : (r.frozenAssetType = .funds ∧
        h.unfreezeDebit r.userId r.frozenAmount r.frozenAmount = .ok h') ∨
      ∃ side : OriginalSide, r.frozenAssetType = side.frozenAsset ∧
        h.addPending side r.userId m (-r.remainingQuantity) = .ok h') :
    h.Receives m r.gives h' := by
  rcases gave with ⟨funds, moved⟩ | ⟨side, shares, moved⟩
  · have received := receives_funds moved m
    have gives : r.gives = fun user asset =>
        if user = r.userId ∧ asset = .funds then r.frozenAmount else 0 := by
      funext user asset
      unfold OrderRow.gives
      rw [funds]
      grind
    rwa [gives]
  · have received := receives_shares moved
    have gives : r.gives = fun user asset =>
        if user = r.userId ∧ asset = side.frozenAsset then r.remainingQuantity else 0 := by
      funext user asset
      unfold OrderRow.gives
      rw [shares]
      cases side <;> grind [OriginalSide.frozenAsset]
    rwa [gives]

theorem totalBalance_unfreeze {amount : Int}
    (done : h.unfreezeDebit userId amount amount = .ok h') : h'.totalBalance = h.totalBalance := by
  by_cases there : h.HasAccount userId
  · have earns := unfreezeDebit_earns done there
    rw [earns.total, sub_self, add_zero]
  · have absent : h.accounts.get? userId = Option.none := by simpa [HasAccount] using there
    rw [totalBalance, Table.sum_update? (updateAccount_ok done).2, absent, Option.elim_none,
      add_zero]
    rfl

private theorem volumeOf_updatePosition {m : MarketId} {f : PositionRow → PositionRow}
    (done : h.updatePosition userId m f = .ok h')
    (kept : ∀ r side, ((f r).holding side).volume = (r.holding side).volume)
    (p : UserId × MarketId → Bool) (side : OriginalSide) :
    h'.volumeOf p side = h.volumeOf p side := by
  unfold volumeOf
  rw [Table.sum_update? (updatePosition_ok done).2]
  cases h.positions.get? (userId, m) with
  | none => simp
  | some r => simp [kept]

end Holdings

namespace AdminService

variable {m : MarketId} {outcome : OriginalSide} {db db' db'' : Db}

/-- What a list of orders gives back of an asset of `user`. -/
def given (l : List (OrderId × OrderRow)) (user : UserId) (asset : FrozenAssetType) : Int :=
  (l.map (fun e => e.2.gives user asset)).sum

private theorem given_cons (e : OrderId × OrderRow) (l : List (OrderId × OrderRow)) (user : UserId)
    (asset : FrozenAssetType) :
    given (e :: l) user asset = e.2.gives user asset + given l user asset := by
  simp [given]

private theorem given_nonneg {l : List (OrderId × OrderRow)} (checked : ∀ e ∈ l, e.2.Check)
    (user : UserId)
    (asset : FrozenAssetType) : 0 ≤ given l user asset := by
  apply sum_map_nonneg
  intro e member
  exact OrderRow.gives_nonneg (checked e member) user asset

/-- The tables after the scanned orders `l` are cancelled and have given back what
they hold. -/
structure FreedAll (m : MarketId) (l : List (OrderId × OrderRow)) (db db' : Db) : Prop where
  accounts : ∀ user, db'.holdings.accounts.get? user =
    (db.holdings.accounts.get? user).map (fun a => a.freed (given l user .funds))
  positions : ∀ user i, db'.holdings.positions.get? (user, i) =
    (db.holdings.positions.get? (user, i)).map (fun r =>
      if i = m then r.freed (fun side => given l user side.frozenAsset) else r)
  volumes : ∀ p side, db'.holdings.volumeOf p side = db.holdings.volumeOf p side
  balance : db'.holdings.totalBalance = db.holdings.totalBalance
  orders : ∀ j, db'.orders.get? j =
    if j ∈ l.map Prod.fst then (db.orders.get? j).map endedRow else db.orders.get? j
  markets : db'.markets = db.markets

private theorem FreedAll.receives {l : List (OrderId × OrderRow)} (freed : FreedAll m l db db') :
    db.holdings.Receives m (given l) db'.holdings := ⟨freed.accounts, freed.positions⟩

private theorem given_singleton (e : OrderId × OrderRow) : given [e] = e.2.gives := by
  funext user asset
  simp [given]

private theorem FreedAll.nil (db : Db) : FreedAll m [] db db := by
  have received := Holdings.Receives.zero m db.holdings
  constructor
  · exact received.accounts
  · exact received.positions
  · intro p side
    rfl
  · rfl
  · intro j
    simp
  · rfl

private theorem FreedAll.cons {e : OrderId × OrderRow} {l : List (OrderId × OrderRow)}
    (first : FreedAll m [e] db db') (rest : FreedAll m l db' db'') :
    FreedAll m (e :: l) db db'' := by
  have received : db.holdings.Receives m (given (e :: l)) db''.holdings := by
    have both := first.receives.add rest.receives
    simp only [given_singleton, ← given_cons] at both
    exact both
  constructor
  · exact received.accounts
  · exact received.positions
  · intro p side
    rw [rest.volumes, first.volumes]
  · rw [rest.balance, first.balance]
  · intro j
    rw [rest.orders, first.orders]
    simp only [List.map_cons, List.map_nil, List.mem_cons, List.not_mem_nil, or_false]
    by_cases head : j = e.1
    · simp only [head, true_or, if_true, Option.map_map]
      -- cancelling a row twice is cancelling it once
      split
      · rfl
      · rfl
    · simp only [head, false_or, if_false]
  · rw [rest.markets, first.markets]

/-- What the frozen columns must cover for the release of `l`. -/
structure Covers (m : MarketId) (l : List (OrderId × OrderRow)) (h : Holdings) : Prop where
  checked : ∀ e ∈ l, e.2.Check
  funds : ∀ user, given l user .funds ≤ h.frozenOf user
  pending : ∀ user r side, h.positions.get? (user, m) = some r →
    given l user side.frozenAsset ≤ (r.holding side).pendingSell

private theorem update_endedRow (orders : Table OrderId OrderRow OrderRow.Check) (id : OrderId) :
    ∃ orders', orders.update? id endedRow = some orders' :=
  Table.exists_update? (fun r got => show (endedRow r).Check from (Table.check got : r.Check))

private theorem freed_of_order {e : OrderId × OrderRow} {h' : Holdings}
    {orders : Table OrderId OrderRow OrderRow.Check}
    (marked : db.orders.update? e.1 endedRow = some orders)
    (gave : (e.2.frozenAssetType = .funds ∧
        db.holdings.unfreezeDebit e.2.userId e.2.frozenAmount e.2.frozenAmount = .ok h') ∨
      ∃ side : OriginalSide, e.2.frozenAssetType = side.frozenAsset ∧
        db.holdings.addPending side e.2.userId m (-e.2.remainingQuantity) = .ok h') :
    FreedAll m [e] db { db with orders := orders, holdings := h' } := by
  have received : db.holdings.Receives m (given [e]) h' := by
    rw [given_singleton]
    exact Holdings.receives_order gave
  constructor
  · exact received.accounts
  · exact received.positions
  · intro p side
    rcases gave with ⟨_, moved⟩ | ⟨at_, _, moved⟩
    · unfold Holdings.volumeOf
      rw [Holdings.unfreezeDebit_positions moved]
    · refine Holdings.volumeOf_updatePosition moved (fun r s => ?_) p side
      cases at_ <;> cases s <;> rfl
  · rcases gave with ⟨_, moved⟩ | ⟨at_, _, moved⟩
    · exact Holdings.totalBalance_unfreeze moved
    · rw [Holdings.totalBalance, (Holdings.updatePosition_ok moved).1]
      rfl
  · intro j
    simp only [List.map_cons, List.map_nil, List.mem_singleton]
    by_cases same : j = e.1
    · rw [Table.get?_update? marked, if_pos same, if_pos same, same]
    · rw [Table.get?_update? marked, if_neg same, if_neg same]
  · rfl

private theorem cancelAndUnfreeze_succeeds {e : OrderId × OrderRow}
    (covers : Covers m [e] db.holdings) :
    ∃ db', cancelAndUnfreeze m db e = .ok db' ∧ FreedAll m [e] db db' := by
  obtain ⟨orders, marked⟩ := update_endedRow db.orders e.1
  have marks : db.orders.update? e.1 (fun r =>
      { r with status := .cancelled, cancelReason := some "MARKET_RESOLVED" }) = some orders :=
    marked
  have row := covers.checked e List.mem_cons_self
  have shares : ∀ at_ : OriginalSide, e.2.frozenAssetType = at_.frozenAsset →
      ∃ h', db.holdings.addPending at_ e.2.userId m (-e.2.remainingQuantity) = .ok h' := by
    intro at_ asset
    apply Holdings.updatePosition_succeeds
    intro r got
    have enough := covers.pending e.2.userId r at_ got
    obtain ⟨volume, cost, _, within⟩ := PositionRow.Check.holding (Table.check got) at_
    have positive := row.remaining_nonneg
    have gives : e.2.gives e.2.userId at_.frozenAsset = e.2.remainingQuantity := by
      unfold OrderRow.gives
      cases at_ <;> simp [asset, OriginalSide.frozenAsset]
    rw [given_singleton, gives] at enough
    refine PositionRow.Check.modify (Table.check got) at_ ⟨volume, cost, ?_, ?_⟩
    · show 0 ≤ (r.holding at_).pendingSell + -e.2.remainingQuantity
      omega
    · show (r.holding at_).pendingSell + -e.2.remainingQuantity ≤ (r.holding at_).volume
      omega
  unfold cancelAndUnfreeze
  simp only [marks]
  cases asset : e.2.frozenAssetType with
  | funds =>
    obtain ⟨h', gave⟩ : ∃ h', db.holdings.unfreezeDebit e.2.userId e.2.frozenAmount
        e.2.frozenAmount = .ok h' := by
      apply Holdings.updateAccount_succeeds
      intro a got
      have enough := covers.funds e.2.userId
      have kept := Table.check got
      have positive := row.frozen_nonneg
      simp only [given, OrderRow.gives, asset, List.map_cons, List.map_nil, List.sum_cons,
        List.sum_nil, and_self, if_true, add_zero, Holdings.frozenOf, got, Option.map_some,
        Option.getD_some] at enough
      exact ⟨by have := kept.1; simp only; omega, by simp only; omega⟩
    refine ⟨{ db with orders := orders, holdings := h' }, ?_,
      freed_of_order marked (Or.inl ⟨asset, gave⟩)⟩
    simp [bind, Except.bind, Db.onHoldings, gave, pure, Except.pure]
  | yesShares =>
    obtain ⟨h', gave⟩ := shares .yes asset
    refine ⟨{ db with orders := orders, holdings := h' }, ?_,
      freed_of_order marked (Or.inr ⟨.yes, asset, gave⟩)⟩
    simp [bind, Except.bind, Db.onHoldings, gave, pure, Except.pure]
  | noShares =>
    obtain ⟨h', gave⟩ := shares .no asset
    refine ⟨{ db with orders := orders, holdings := h' }, ?_,
      freed_of_order marked (Or.inr ⟨.no, asset, gave⟩)⟩
    simp [bind, Except.bind, Db.onHoldings, gave, pure, Except.pure]

private theorem Covers.head {e : OrderId × OrderRow} {l : List (OrderId × OrderRow)} {h : Holdings}
    (covers : Covers m (e :: l) h) : Covers m [e] h := by
  have later : ∀ user asset, 0 ≤ given l user asset :=
    given_nonneg (fun a member => covers.checked a (List.mem_cons_of_mem _ member))
  constructor
  · intro a member
    exact covers.checked a (List.mem_cons.mpr (Or.inl (List.mem_singleton.mp member)))
  · intro user
    have all := covers.funds user
    have rest := later user .funds
    rw [given_cons] at all ⊢
    simp only [given, List.map_nil, List.sum_nil] at rest all ⊢
    omega
  · intro user r side got
    have all := covers.pending user r side got
    have rest := later user side.frozenAsset
    rw [given_cons] at all ⊢
    simp only [given, List.map_nil, List.sum_nil] at rest all ⊢
    omega

private theorem Covers.tail {e : OrderId × OrderRow} {l : List (OrderId × OrderRow)}
    (covers : Covers m (e :: l) db.holdings) (freed : FreedAll m [e] db db') :
    Covers m l db'.holdings := by
  have one : ∀ user asset, given [e] user asset = e.2.gives user asset := by
    intro user asset
    simp [given]
  constructor
  · intro a member
    exact covers.checked a (List.mem_cons_of_mem _ member)
  · intro user
    have all := covers.funds user
    rw [given_cons] at all
    unfold Holdings.frozenOf at all ⊢
    rw [freed.accounts user]
    cases got : db.holdings.accounts.get? user with
    | none =>
      have first := OrderRow.gives_nonneg (covers.checked e List.mem_cons_self) user .funds
      simp only [got, Option.map_none, Option.getD_none] at all ⊢
      omega
    | some a =>
      simp only [got, Option.map_some, Option.getD_some, AccountRow.freed, one] at all ⊢
      omega
  · intro user r side got
    rw [freed.positions user m] at got
    obtain ⟨before, was, rfl⟩ := Option.map_eq_some_iff.mp got
    have all := covers.pending user before side was
    rw [given_cons] at all
    simp only [if_true, one]
    cases side <;> simp only [PositionRow.freed, PositionRow.holding] at all ⊢ <;> omega

private theorem cancelAll_succeeds (l : List (OrderId × OrderRow))
    (covers : Covers m l db.holdings) :
    ∃ db', l.foldlM (cancelAndUnfreeze m) db = .ok db' ∧ FreedAll m l db db' := by
  induction l generalizing db with
  | nil => exact ⟨db, rfl, .nil db⟩
  | cons e l ih =>
    obtain ⟨db₁, first, freed⟩ := cancelAndUnfreeze_succeeds covers.head
    obtain ⟨db₂, rest, freedRest⟩ := ih (covers.tail freed)
    refine ⟨db₂, ?_, freed.cons freedRest⟩
    rw [List.foldlM_cons, first]
    exact rest

section Payment

variable {h h' h'' : Holdings}

def won (outcome : OriginalSide) (l : List (UserId × PositionRow)) (user : UserId) : Int :=
  (l.map (fun e => if e.1 = user then (e.2.holding outcome).volume * 100 else 0)).sum

def paidOut (outcome : OriginalSide) (l : List (UserId × PositionRow)) (h : Holdings) : Int :=
  (l.map (fun e =>
    if (h.accounts.get? e.1).isSome then (e.2.holding outcome).volume * 100 else 0)).sum

/-- The tables after the scanned positions `l` are paid and cleared. -/
structure PaidAll (m : MarketId) (outcome : OriginalSide) (l : List (UserId × PositionRow))
    (h h' : Holdings) : Prop where
  accounts : ∀ user, h'.accounts.get? user = (h.accounts.get? user).map (fun a =>
    { a with availableBalance := a.availableBalance + won outcome l user })
  positions : ∀ user i, h'.positions.get? (user, i) = (h.positions.get? (user, i)).map (fun r =>
    if i = m ∧ user ∈ l.map Prod.fst then .empty else r)
  balance : h'.totalBalance = h.totalBalance + paidOut outcome l h

private theorem PaidAll.nil (h : Holdings) : PaidAll m outcome [] h h := by
  constructor
  · intro user
    simp [won]
  · intro user i
    simp
  · simp [paidOut]

private theorem PaidAll.cons {e : UserId × PositionRow} {l : List (UserId × PositionRow)}
    (first : PaidAll m outcome [e] h h') (rest : PaidAll m outcome l h' h'') :
    PaidAll m outcome (e :: l) h h'' := by
  constructor
  · intro user
    rw [rest.accounts, first.accounts, Option.map_map]
    congr 1
    funext a
    simp [won, add_assoc]
  · intro user i
    rw [rest.positions, first.positions, Option.map_map]
    congr 1
    funext r
    simp only [Function.comp_def, List.map_cons, List.map_nil, List.mem_cons, List.not_mem_nil,
      or_false]
    by_cases here : i = m
    · by_cases head : user = e.1
      · simp [here, head]
      · simp only [here, head, false_or, and_false, if_false]
    · simp [here]
  · have same : paidOut outcome l h' = paidOut outcome l h := by
      unfold paidOut
      congr 1
      apply List.map_congr_left
      intro a _
      rw [first.accounts, Option.isSome_map]
    rw [rest.balance, first.balance, same]
    simp [paidOut, add_assoc]

private theorem payAndClear_succeeds {e : UserId × PositionRow} (ok : e.2.Check) :
    ∃ h', payAndClear m outcome h e = .ok h' ∧ PaidAll m outcome [e] h h' := by
  have nonneg := (PositionRow.Check.holding ok outcome).1
  obtain ⟨h₁, credited, accounts, positions, balance⟩ : ∃ h₁,
      (if 0 < (e.2.holding outcome).volume then
        h.addBalance e.1 ((e.2.holding outcome).volume * 100) else pure h : Except Err Holdings) =
        .ok h₁ ∧
      (∀ user, h₁.accounts.get? user = (h.accounts.get? user).map (fun a =>
        { a with availableBalance := a.availableBalance + won outcome [e] user })) ∧
      h₁.positions = h.positions ∧
      h₁.totalBalance = h.totalBalance + paidOut outcome [e] h := by
    by_cases wins : 0 < (e.2.holding outcome).volume
    · obtain ⟨h₁, credit⟩ : ∃ h₁, h.addBalance e.1 ((e.2.holding outcome).volume * 100) =
          .ok h₁ := by
        apply Holdings.updateAccount_succeeds
        intro a got
        have kept := Table.check got
        refine ⟨?_, kept.2⟩
        have before := kept.1
        show 0 ≤ a.availableBalance + (e.2.holding outcome).volume * 100
        omega
      refine ⟨h₁, by rw [if_pos wins, credit], ?_, Holdings.addBalance_positions credit, ?_⟩
      · intro user
        rw [Holdings.get?_updateAccount credit]
        by_cases mine : user = e.1
        · simp [won, mine]
        · simp [won, mine, Ne.symm mine]
      · by_cases there : h.HasAccount e.1
        · rw [(Holdings.addBalance_earns credit there).total]
          have some_ : (h.accounts.get? e.1).isSome = true := there
          simp [paidOut, some_]
        · rw [Holdings.addBalance_lost credit there]
          have none : ¬ (h.accounts.get? e.1).isSome = true := there
          simp [paidOut, none]
    · have zero : (e.2.holding outcome).volume = 0 := by omega
      refine ⟨h, by rw [if_neg wins]; rfl, ?_, rfl, ?_⟩
      · intro user
        simp [won, zero]
      · simp [paidOut, zero]
  obtain ⟨h₂, cleared⟩ : ∃ h₂, h₁.updatePosition e.1 m (fun _ => .empty) = .ok h₂ :=
    Holdings.updatePosition_succeeds (fun _ _ => by decide)
  have accounts₂ := (Holdings.updatePosition_ok cleared).1
  have positions₂ := Table.get?_update? (Holdings.updatePosition_ok cleared).2
  refine ⟨h₂, ?_, ?_⟩
  · unfold payAndClear
    simp only [credited, bind, Except.bind, cleared]
  · constructor
    · intro user
      rw [accounts₂, accounts]
    · intro user i
      rw [positions₂, positions]
      by_cases mine : user = e.1 <;> by_cases here : i = m <;> simp [mine, here]
    · rw [← balance, Holdings.totalBalance, accounts₂]
      rfl

theorem payAll_succeeds (l : List (UserId × PositionRow)) (checked : ∀ e ∈ l, e.2.Check) :
    ∃ h', l.foldlM (payAndClear m outcome) h = .ok h' ∧ PaidAll m outcome l h h' := by
  induction l generalizing h with
  | nil => exact ⟨h, rfl, .nil h⟩
  | cons e l ih =>
    obtain ⟨h₁, first, paid⟩ := payAndClear_succeeds (h := h) (checked e List.mem_cons_self)
    obtain ⟨h₂, rest, paidRest⟩ := ih (h := h₁)
      (fun a member => checked a (List.mem_cons_of_mem _ member))
    refine ⟨h₂, ?_, paid.cons paidRest⟩
    rw [List.foldlM_cons, first]
    exact rest

end Payment

private theorem given_openOrders (db : Db) (user : UserId) (asset : FrozenAssetType) :
    given (openOrders m db) user asset = db.heldByOrders m user asset := by
  rw [given, openOrders, Table.sum_filter]
  simp [Db.heldByOrders]

private theorem won_marketPositions (h : Holdings) (user : UserId) :
    won outcome (marketPositions m h) user = h.sharesOf user m outcome * 100 := by
  have single := h.positions.sum_single (user, m) (fun r => (r.holding outcome).volume * 100)
  have shares : h.sharesOf user m outcome * 100 =
      (h.positions.get? (user, m)).elim 0 (fun r => (r.holding outcome).volume * 100) := by
    unfold Holdings.sharesOf
    cases h.positions.get? (user, m) <;> simp
  rw [shares, ← single, won, marketPositions, List.map_map]
  refine (Table.sum_filter h.positions _ _).trans ?_
  unfold Table.sum
  congr 1
  apply List.map_congr_left
  intro e _
  by_cases here : e.1.2 = m <;> by_cases mine : e.1.1 = user <;>
    simp [Prod.ext_iff, here, mine]

theorem paidOut_marketPositions (h : Holdings) :
    paidOut outcome (marketPositions m h) h =
      h.volumeOf (fun k => k.2 = m && (h.accounts.get? k.1).isSome) outcome * 100 := by
  rw [paidOut, marketPositions, List.map_map]
  refine (Table.sum_filter h.positions _ _).trans ?_
  unfold Holdings.volumeOf Table.sum
  rw [← List.sum_map_mul_right]
  congr 1
  apply List.map_congr_left
  intro e _
  by_cases here : e.1.2 = m <;> by_cases there : (h.accounts.get? e.1.1).isSome <;>
    simp [here, there]

theorem mem_marketPositions {h : Holdings} {user : UserId} {r : PositionRow}
    (got : h.positions.get? (user, m) = some r) :
    user ∈ (marketPositions m h).map Prod.fst := by
  refine List.mem_map.mpr ⟨(user, r), List.mem_map.mpr ⟨((user, m), r), ?_, rfl⟩, rfl⟩
  exact List.mem_filter.mpr ⟨Table.mem_iff.mpr got, by simp⟩

structure Resolved (m : MarketId) (outcome : OriginalSide) (db db' : Db) : Prop where
  available : ∀ user a, db.holdings.accounts.get? user = some a →
    ∃ a', db'.holdings.accounts.get? user = some a' ∧
      a'.availableBalance = a.availableBalance + db.heldByOrders m user .funds +
        100 * db.holdings.sharesOf user m outcome
  cash : db'.cashWith m = db.cashWith m ↔
    ∀ user, db.holdings.sharesOf user m outcome ≠ 0 → db.holdings.HasAccount user
  orders : ∀ id row, db'.orders.get? id = some row → row.marketId = m → row.isActive = false
  positions : ∀ user r, db'.holdings.positions.get? (user, m) = some r → r = .empty
  market : ∃ row, db'.markets.get? m = some row ∧ row.status = .settled ∧
    row.reserveBalance = 0 ∧ row.pnlPool = 0 ∧ row.totalYesShares = 0 ∧ row.totalNoShares = 0 ∧
    row.resolutionResult = some outcome

private theorem covers_openOrders (ready : db.Resolvable m) :
    Covers m (openOrders m db) db.holdings := by
  constructor
  · intro e member
    exact Table.check (mem_openOrders.mp member).1
  · intro user
    rw [given_openOrders]
    exact ready.funds user
  · intro user r side got
    rw [given_openOrders]
    exact (ready.pending user r side got).ge

theorem unpaid_eq_zero : db.holdings.volumeOf
      (fun k => k.2 = m && !(db.holdings.accounts.get? k.1).isSome) outcome = 0 ↔
    ∀ user, db.holdings.sharesOf user m outcome ≠ 0 → db.holdings.HasAccount user := by
  rw [Holdings.volumeOf_eq_zero]
  constructor
  · intro empty user wins
    unfold Holdings.sharesOf at wins
    cases got : db.holdings.positions.get? (user, m) with
    | none => simp [got] at wins
    | some r =>
      by_contra none
      have zero := empty (user, m) r got (by simpa [Holdings.HasAccount] using none)
      simp [got, zero] at wins
  · rintro paid ⟨user, i⟩ r got selected
    simp only [Bool.and_eq_true, decide_eq_true_eq, Bool.not_eq_true'] at selected
    obtain ⟨rfl, none⟩ := selected
    by_contra wins
    have there := paid user (by simpa [Holdings.sharesOf, got] using wins)
    simp [Holdings.HasAccount, none] at there

theorem resolveInTransaction_succeeds (ready : db.Resolvable m) :
    ∃ db', resolveInTransaction m outcome db = .ok db' ∧ Resolved m outcome db db' := by
  obtain ⟨db₁, cancelled, freed⟩ := cancelAll_succeeds _ (covers_openOrders ready)
  have checked : ∀ e ∈ marketPositions m db₁.holdings, e.2.Check := by
    intro e member
    obtain ⟨k, listed, rfl⟩ := List.mem_map.mp member
    exact Table.check (Table.mem_iff.mp (List.mem_filter.mp listed).1)
  obtain ⟨h, paid, pays⟩ : ∃ h, (marketPositions m db₁.holdings).foldlM (payAndClear m outcome)
      db₁.holdings = .ok h ∧
      PaidAll m outcome (marketPositions m db₁.holdings) db₁.holdings h :=
    payAll_succeeds _ checked
  obtain ⟨row, got, _, yes, no, reserveYes, reserveNo⟩ := ready.market
  obtain ⟨markets, settled⟩ : ∃ markets,
      db₁.markets.update? m (settledRow outcome) = some markets := by
    apply Table.exists_update?
    intro r stored
    have rate := (Table.check stored).2.2.2.2.2
    exact ⟨le_rfl, le_rfl, le_rfl, rfl, rfl, rate⟩
  refine ⟨{ db₁ with holdings := h, markets := markets }, ?_, ?_⟩
  · unfold resolveInTransaction settleMarket
    simp only [cancelled, paid, bind, Except.bind, settled]
  · have shares : ∀ user, db₁.holdings.sharesOf user m outcome =
        db.holdings.sharesOf user m outcome := by
      intro user
      unfold Holdings.sharesOf
      rw [freed.positions]
      cases db.holdings.positions.get? (user, m) with
      | none => rfl
      | some r =>
        simp only [Option.map_some, Option.elim_some, if_true]
        exact PositionRow.volume_freed r _ outcome
    have closed := Table.get?_update? settled m
    rw [if_pos rfl, freed.markets, got, Option.map_some] at closed
    constructor
    · intro user a stored
      have paidRow := pays.accounts user
      rw [freed.accounts, stored, Option.map_some, Option.map_some] at paidRow
      refine ⟨_, paidRow, ?_⟩
      simp only [won_marketPositions, shares, AccountRow.freed, given_openOrders]
      omega
    · have balance : h.totalBalance = db.holdings.totalBalance +
          db.holdings.volumeOf (fun k => k.2 = m && (db.holdings.accounts.get? k.1).isSome)
            outcome * 100 := by
        rw [pays.balance, freed.balance, paidOut_marketPositions, freed.volumes]
        simp only [freed.accounts, Option.isSome_map]
      have reserve : row.reserveBalance =
          100 * db.holdings.volumeOf (fun k => k.2 = m) outcome := by
        rw [← Holdings.volumeSum_eq]
        cases outcome with
        | yes => rw [reserveYes, yes]
        | no => rw [reserveNo, no]
      rw [← unpaid_eq_zero]
      have split := db.holdings.volumeOf_split (fun k => k.2 = m)
        (fun k => (db.holdings.accounts.get? k.1).isSome) outcome
      simp only [Db.cashWith, balance, closed, got, Option.map_some, Option.getD_some, reserve,
        settledRow]
      omega
    · intro id r stored home
      simp only [freed.orders] at stored
      split at stored
      · obtain ⟨before, _, rfl⟩ := Option.map_eq_some_iff.mp stored
        rfl
      · next absent =>
        apply Bool.eq_false_iff.mpr
        intro active
        exact absent (List.mem_map.mpr ⟨(id, r), mem_openOrders.mpr ⟨stored, home, active⟩, rfl⟩)
    · intro user r stored
      rw [pays.positions] at stored
      obtain ⟨before, was, rfl⟩ := Option.map_eq_some_iff.mp stored
      exact if_pos ⟨rfl, mem_marketPositions was⟩
    · exact ⟨_, closed, rfl, rfl, rfl, rfl, rfl, rfl⟩

private theorem Resolved.sharesOf (resolved : Resolved m outcome db db') (user : UserId) :
    db'.holdings.sharesOf user m outcome = 0 := by
  unfold Holdings.sharesOf
  cases got : db'.holdings.positions.get? (user, m) with
  | none => rfl
  | some r =>
    rw [resolved.positions user r got]
    cases outcome <;> rfl

theorem Resolved.openOrders (resolved : Resolved m outcome db db') : openOrders m db' = [] := by
  apply List.eq_nil_iff_forall_not_mem.mpr
  intro e member
  obtain ⟨got, home, active⟩ := mem_openOrders.mp member
  rw [resolved.orders e.1 e.2 got home] at active
  cases active

private theorem Resolved.payments {h : Holdings} (resolved : Resolved m outcome db db')
    (paid : (marketPositions m db'.holdings).foldlM (payAndClear m outcome) db'.holdings =
      .ok h) :
    (∀ user, h.accounts.get? user = db'.holdings.accounts.get? user) ∧
      (∀ user r, h.positions.get? (user, m) = some r → r = .empty) ∧
      h.totalBalance = db'.holdings.totalBalance := by
  have checked : ∀ e ∈ marketPositions m db'.holdings, e.2.Check := by
    intro e member
    obtain ⟨k, listed, rfl⟩ := List.mem_map.mp member
    exact Table.check (Table.mem_iff.mp (List.mem_filter.mp listed).1)
  obtain ⟨h', paid', pays⟩ : ∃ h', (marketPositions m db'.holdings).foldlM
      (payAndClear m outcome) db'.holdings = .ok h' ∧
      PaidAll m outcome (marketPositions m db'.holdings) db'.holdings h' :=
    payAll_succeeds _ checked
  obtain rfl : h' = h := Except.ok.inj (paid'.symm.trans paid)
  refine ⟨?_, ?_, ?_⟩
  · intro user
    rw [pays.accounts, won_marketPositions, resolved.sharesOf]
    simp
  · intro user r stored
    rw [pays.positions] at stored
    obtain ⟨before, was, rfl⟩ := Option.map_eq_some_iff.mp stored
    exact if_pos ⟨rfl, mem_marketPositions was⟩
  · have none_ : db'.holdings.volumeOf
        (fun k => k.2 = m && (db'.holdings.accounts.get? k.1).isSome) outcome = 0 := by
      rw [Holdings.volumeOf_eq_zero]
      rintro ⟨user, i⟩ r got selected
      simp only [Bool.and_eq_true, decide_eq_true_eq] at selected
      obtain ⟨rfl, _⟩ := selected
      have empty := resolved.sharesOf user
      rwa [Holdings.sharesOf, got] at empty
    rw [pays.balance, paidOut_marketPositions, none_]
    simp

/-- A second resolution with the same outcome has nothing left to pay. -/
theorem Resolved.again (resolved : Resolved m outcome db db')
    (done : resolveInTransaction m outcome db' = .ok db'') : Resolved m outcome db db'' := by
  obtain ⟨db₁, cancelled, settled⟩ := resolveInTransaction_ok done
  rw [resolved.openOrders] at cancelled
  obtain rfl : db' = db₁ := Except.ok.inj cancelled
  simp only [settleMarket, bind_eq_ok] at settled
  obtain ⟨h, paid, settled⟩ := settled
  obtain ⟨accounts, positions, balance⟩ := resolved.payments paid
  obtain ⟨row, got, _, reserve, _⟩ := resolved.market
  split at settled
  · next markets updated =>
    obtain rfl := Except.ok.inj settled
    have closed := Table.get?_update? updated m
    rw [if_pos rfl, got, Option.map_some] at closed
    constructor
    · intro user a stored
      simp only [accounts]
      exact resolved.available user a stored
    · rw [← resolved.cash]
      simp only [Db.cashWith, balance, closed, got, Option.map_some, Option.getD_some, reserve,
        settledRow]
    · exact resolved.orders
    · exact positions
    · exact ⟨_, closed, rfl, rfl, rfl, rfl, rfl, rfl⟩
  · cases settled

private theorem resolveMarket_error {w : World} {fault : Fault} {e : Err}
    (raised : (resolveMarket m outcome fault w).1 = .error e) :
    (resolveMarket m outcome fault w).2.db = w.db := by
  unfold resolveMarket at raised ⊢
  split
  · rfl
  · next open_ =>
    rw [if_neg open_] at raised
    split
    · rfl
    · next row got =>
      simp only [got] at raised
      split
      · rfl
      · next status =>
        rw [if_neg status] at raised
        split
        · rfl
        · next runs =>
          rw [if_neg runs] at raised
          split
          · next db ran =>
            simp only [ran, World.finish] at raised ⊢
            split
            · rfl
            · next clean =>
              rw [if_neg clean] at raised
              cases raised
          · rfl

/-- Resolution pays out exactly and closes everything. On covered tables it
raises nothing, every account gets its active orders' cash and a hundred cents for
each winning share, and the cash is all there afterwards exactly when whoever holds
winning shares has an account. A resolution that raises has changed nothing. -/
theorem resolution_pays_out (m : MarketId) (outcome : OriginalSide) (w : World) :
    (w.db.Resolvable m → (resolveMarket m outcome .none w).1 = .ok () ∧
      Resolved m outcome w.db (resolveMarket m outcome .none w).2.db) ∧
    ∀ fault e, (resolveMarket m outcome fault w).1 = .error e →
      (resolveMarket m outcome fault w).2.db = w.db := by
  refine ⟨fun ready => ?_, fun fault e raised => resolveMarket_error raised⟩
  obtain ⟨db', ran, resolved⟩ : ∃ db', resolveInTransaction m outcome w.db = .ok db' ∧
      Resolved m outcome w.db db' := resolveInTransaction_succeeds ready
  obtain ⟨row, got, status, _⟩ := ready.market
  have outcomeEq : resolveMarket m outcome .none w = (.ok (), { w with db := db' }) := by
    have admitted : ¬ (row.status ≠ .active ∧ row.status ≠ .suspended) := by
      rcases status with active | suspended
      · exact fun refused => refused.1 active
      · exact fun refused => refused.2 suspended
    simp [resolveMarket, got, admitted, ran, World.finish]
  rw [outcomeEq]
  exact ⟨rfl, resolved⟩

section Example

private theorem tenNo_check : PositionRow.Check ⟨.empty, ⟨10, 500, 0⟩⟩ := by decide

private theorem tenBacked_check : MarketRow.Check ⟨.active, 1000, 0, 10, 10, 20, none⟩ := by decide

/-- A seller with four of ten YES shares on offer, a holder of the ten NO shares,
and a bid. -/
private def twoOrders : World where
  orderbooks := fun _ => none
  db :=
    { holdings :=
        { accounts := ((Table.empty.add "buyer" ⟨100, 201, true⟩ (Table.get?_empty _)
            (by decide)).add "seller" ⟨0, 0, true⟩ (by decide) AccountRow.check_empty).add "other"
            ⟨0, 0, true⟩ (by decide) AccountRow.check_empty
          positions := (Table.empty.add ("seller", "m") ⟨⟨10, 500, 4⟩, .empty⟩ (Table.get?_empty _)
            (by decide)).add ("other", "m") ⟨.empty, ⟨10, 500, 0⟩⟩ (by decide) tenNo_check }
      markets := Table.empty.add "m" ⟨.active, 1000, 0, 10, 10, 20, none⟩ (Table.get?_empty _)
        tenBacked_check
      orders := (Table.empty.add 1 ⟨"a", "m", "seller", .yes, .sell, 60, .nativeSell, .sell, 60,
          .gtc, 4, 0, 4, 4, .yesShares, .open, none, 1⟩ rfl (by decide)).add
        2 ⟨"b", "m", "buyer", .yes, .buy, 40, .nativeBuy, .buy, 40, .gtc,
          5, 0, 5, 201, .funds, .open, none, 2⟩ (by decide) (by decide)
      trades := []
      ledger := []
      wal := [] }
  nextId := 3

private theorem twoOrders_resolvable : twoOrders.db.Resolvable "m" := by
  constructor
  · exact ⟨_, rfl, Or.inl rfl, by decide, by decide, rfl, rfl⟩
  · intro user r side got
    have stored := Table.mem_iff.mpr got
    simp [twoOrders, Table.add, Table.empty] at stored
    rcases stored with ⟨rfl, rfl⟩ | ⟨rfl, rfl⟩
    · cases side <;> decide
    · cases side <;> decide
  · intro user
    by_cases mine : user = "buyer"
    · subst mine
      decide
    · have none : twoOrders.db.heldByOrders "m" user .funds = 0 := by
        simp [Db.heldByOrders, Table.sum, twoOrders, Table.add, Table.empty, OrderRow.gives,
          Ne.symm mine]
      rw [none]
      exact Holdings.frozenOf_nonneg _ _

theorem two_orders_resolve :
    (resolveMarket "m" .yes .none twoOrders).1 = .ok () ∧
      Resolved "m" .yes twoOrders.db (resolveMarket "m" .yes .none twoOrders).2.db :=
  (resolution_pays_out "m" .yes twoOrders).1 twoOrders_resolvable

private def orphanMarket : World where
  orderbooks := fun _ => none
  db :=
    { holdings := orphanPairs
      markets := Table.empty.add "m" ⟨.suspended, 1000, 0, 10, 10, 20, none⟩ (Table.get?_empty _)
        (by decide)
      orders := .empty
      trades := []
      ledger := []
      wal := [] }
  nextId := 0

/-- What is paid to a user without an account is lost. -/
theorem winner_without_account_loses_cash :
    ¬ ∀ m outcome (w : World), w.db.Resolvable m →
      (resolveMarket m outcome .none w).2.db.cashWith m = w.db.cashWith m := by
  intro claim
  have ready : orphanMarket.db.Resolvable "m" := by
    constructor
    · exact ⟨_, rfl, Or.inr rfl, by decide, by decide, rfl, rfl⟩
    · intro user r side got
      have stored := Table.mem_iff.mpr got
      simp [orphanMarket, orphanPairs, Table.add, Table.empty] at stored
      obtain ⟨rfl, rfl⟩ := stored
      cases side <;> decide
    · intro user
      exact Holdings.frozenOf_nonneg _ _
  have kept := claim "m" .yes orphanMarket ready
  have lost : (resolveMarket "m" .yes .none orphanMarket).2.db.cashWith "m" = 0 := by
    decide +kernel
  rw [lost] at kept
  cases kept

end Example

end AdminService

end PredictionMarket
