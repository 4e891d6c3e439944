/- PredictionMarket/Engine/LockedFunds
   digest: The cash that stored orders lock out of the frozen balances of their users. -/

import PredictionMarket.Clearing.FrozenFunds
import PredictionMarket.Engine.RestingView

set_option autoImplicit false
set_option relaxedAutoImplicit false

namespace PredictionMarket

open Library

/-- What an active order keeps out of the frozen balance of `user`. -/
def OrderRow.locks (r : OrderRow) (user : UserId) : Int :=
  if r.userId = user ∧ r.isActive = true ∧ r.frozenAssetType = .funds then r.frozenAmount else 0

theorem OrderRow.locks_nonneg {r : OrderRow} (ok : r.Check) (user : UserId) : 0 ≤ r.locks user := by
  unfold locks
  split
  · exact ok.frozen_nonneg
  · exact le_rfl

theorem OrderRow.locks_of_inactive {r : OrderRow} (ended : r.isActive = false) (user : UserId) :
    r.locks user = 0 := if_neg (fun here => by simp [ended] at here)

theorem OrderRow.isActive_filled {r : OrderRow} (ok : r.Check) (qty : Int) :
    (r.filled qty).isActive = true ↔ 0 < r.remainingQuantity - qty := by
  have remaining := ok.quantity_sub_filled
  unfold OrderRow.filled Order.filledBy
  simp only [rowToOrder, remaining]
  split
  · next used => simpa [OrderRow.isActive, OrderRow.progress, Order.syncFrozenAmount,
      OrderStatus.isActive] using used
  · next left => simpa [OrderRow.isActive, OrderRow.progress, Order.syncFrozenAmount,
      OrderStatus.isActive] using left

theorem OrderRow.remaining_filled {r : OrderRow} (ok : r.Check) {qty : Int}
    (enough : qty ≤ r.remainingQuantity) :
    (r.filled qty).remainingQuantity = r.remainingQuantity - qty := by
  have remaining := ok.quantity_sub_filled
  unfold OrderRow.filled Order.filledBy
  simp only [rowToOrder, remaining]
  split
  · simp only [OrderRow.progress, Order.syncFrozenAmount]
    omega
  · simp only [OrderRow.progress, Order.syncFrozenAmount]

/-- A row whose frozen fields are what its book type and its remaining quantity
ask for. -/
structure OrderRow.Funded (r : OrderRow) : Prop where
  asset : r.frozenAssetType = r.bookType.frozenAsset
  price : r.bookType.paysCash = true → r.bookType.pays r.bookPrice = r.originalPrice
  amount : r.isActive = true →
    r.frozenAmount = r.bookType.frozenFor r.originalPrice r.remainingQuantity

namespace OrderRow.Funded

variable {r : OrderRow}

theorem locks_eq (funded : r.Funded) (active : r.isActive = true) (user : UserId) :
    r.locks user = if r.userId = user ∧ r.bookType.paysCash = true then
      freezeAmount (r.originalPrice * r.remainingQuantity) else 0 := by
  simp only [locks, funded.asset, BookType.frozenAsset_eq_funds, active, true_and]
  by_cases cash : r.bookType.paysCash = true
  · simp [cash, funded.amount active, BookType.frozenFor]
  · simp [cash]

theorem syncPrice (funded : r.Funded) (cash : r.bookType.paysCash = true) :
    (if r.bookType = .nativeBuy then r.bookPrice else r.originalPrice) = r.originalPrice := by
  split
  · next native =>
    have price := funded.price cash
    rwa [native] at price
  · rfl

theorem progress (funded : r.Funded) {o : Order} (type : o.bookType = r.bookType)
    (asset : o.frozenAssetType = r.frozenAssetType) (price : o.bookPrice = r.bookPrice)
    (original : o.originalPrice = r.originalPrice) : (r.progress o.synced).Funded := by
  refine ⟨funded.asset, funded.price, fun _ => ?_⟩
  simp only [OrderRow.progress, Order.synced, Order.syncFrozenAmount, BookType.frozenFor, type,
    asset, price, original, funded.asset, BookType.frozenAsset_eq_funds]
  by_cases cash : r.bookType.paysCash = true
  · simp only [cash, if_true, funded.syncPrice cash]
  · simp only [cash, Bool.false_eq_true, if_false]

theorem filled (funded : r.Funded) (qty : Int) : (r.filled qty).Funded := by
  have kept : ∀ o : Order, o.bookType = r.bookType → o.frozenAssetType = r.frozenAssetType →
      o.bookPrice = r.bookPrice → o.originalPrice = r.originalPrice →
      (r.progress o.synced).Funded := fun o => funded.progress
  unfold OrderRow.filled Order.filledBy
  simp only
  split
  · exact kept _ rfl rfl rfl rfl
  · exact kept _ rfl rfl rfl rfl

theorem cancelled (funded : r.Funded) (o : Order) :
    (r.progress { o with status := .cancelled }).Funded :=
  ⟨funded.asset, funded.price, fun active => by cases active⟩

private theorem locks_filled (funded : r.Funded) (ok : r.Check) {qty : Int}
    (enough : qty ≤ r.remainingQuantity) (user : UserId) :
    (r.filled qty).locks user = if r.userId = user ∧ r.bookType.paysCash = true then
      freezeAmount (r.originalPrice * (r.remainingQuantity - qty)) else 0 := by
  by_cases left : 0 < r.remainingQuantity - qty
  · have locked := (funded.filled qty).locks_eq ((isActive_filled ok qty).mpr left) user
    rw [remaining_filled ok enough] at locked
    exact locked
  · have ended : (r.filled qty).isActive = false :=
      Bool.eq_false_iff.mpr (fun active => left ((isActive_filled ok qty).mp active))
    have used : r.remainingQuantity - qty = 0 := by omega
    rw [locks_of_inactive ended, used, mul_zero]
    simp [freezeAmount, calcMaxFee]

end OrderRow.Funded

/-- The share of its frozen fee buffer that a resting order gives up in a fill
of `qty`. -/
def OrderRow.bufferUsed (r : OrderRow) (qty : Int) : Int :=
  calcMaxFee (r.originalPrice * r.remainingQuantity) -
    calcMaxFee (r.originalPrice * (r.remainingQuantity - qty))

theorem OrderRow.Funded.locks_sub_filled {r : OrderRow} (funded : r.Funded) (ok : r.Check)
    (active : r.isActive = true) {qty : Int} (enough : qty ≤ r.remainingQuantity) (user : UserId) :
    r.locks user - (r.filled qty).locks user =
      if r.userId = user ∧ r.bookType.paysCash = true then
        r.originalPrice * qty + r.bufferUsed qty
      else 0 := by
  rw [funded.locks_eq active, funded.locks_filled ok enough]
  split
  · unfold freezeAmount bufferUsed
    ring
  · rfl

namespace Db

variable {db db' : Db} {id : OrderId} {user : UserId}

def locked (db : Db) (user : UserId) : Int := db.orders.sum (fun _ r => r.locks user)

theorem locked_nonneg (db : Db) (user : UserId) : 0 ≤ db.locked user := by
  apply sum_map_nonneg
  intro e member
  exact OrderRow.locks_nonneg (Table.check (Table.mem_iff.mp member)) user

theorem locked_eq_zero (ended : ∀ id row, db.orders.get? id = some row → row.userId = user →
    row.isActive = false) : db.locked user = 0 := by
  apply Table.sum_eq_zero
  intro id row got
  by_cases mine : row.userId = user
  · exact OrderRow.locks_of_inactive (ended id row got mine) user
  · exact if_neg (fun here => mine here.1)

/-- The cash that the active orders other than `id` lock. -/
def lockedBesides (db : Db) (id : OrderId) (user : UserId) : Int :=
  db.locked user - (db.orders.get? id).elim 0 (fun r => r.locks user)

theorem locked_update {j : OrderId} {f : OrderRow → OrderRow}
    (done : db.orders.update? j f = some db'.orders) (user : UserId) :
    db'.locked user = db.locked user +
      (db.orders.get? j).elim 0 (fun r => (f r).locks user - r.locks user) :=
  Table.sum_update? done _

/-- A column summed over the rows other than `id`. -/
def sumBesides (db : Db) (g : OrderRow → Int) (id : OrderId) : Int :=
  db.orders.sum (fun _ r => g r) - (db.orders.get? id).elim 0 g

theorem sumBesides_update {j : OrderId} {f : OrderRow → OrderRow}
    (done : db.orders.update? j f = some db'.orders) (g : OrderRow → Int) (id : OrderId) :
    db'.sumBesides g id = db.sumBesides g id + if j = id then 0 else
      (db.orders.get? j).elim 0 (fun r => g (f r) - g r) := by
  unfold sumBesides
  rw [Table.sum_update? done, Table.get?_update? done]
  by_cases same : j = id
  · subst same
    cases got : db.orders.get? j with
    | none => simp
    | some r =>
      simp only [Option.elim_some, Option.map_some, if_true]
      omega
  · rw [if_neg same, if_neg (Ne.symm same)]
    omega

def spare (db : Db) (user : UserId) : Int := db.holdings.frozenOf user - db.locked user

theorem spare_of_release {row : OrderRow} {f : OrderRow → OrderRow}
    (draws : db.holdings.Draws row.locks db'.holdings) (got : db.orders.get? id = some row)
    (updated : db.orders.update? id f = some db'.orders) (ended : (f row).isActive = false)
    (there : db.holdings.HasAccount user) : db'.spare user = db.spare user := by
  unfold spare
  rw [draws.frozen user there, locked_update updated, got, Option.elim_some,
    OrderRow.locks_of_inactive ended]
  omega

end Db

theorem OrderRow.release_draws {row : OrderRow} {h h' : Holdings} (active : row.isActive = true)
    (released : if row.frozenAssetType = .funds then
        h.unfreezeDebit row.userId row.frozenAmount row.frozenAmount = .ok h'
      else h'.accounts = h.accounts) : h.Draws row.locks h' := by
  split at released
  · next funds =>
    refine (Holdings.unfreezeDebit_draws released).congr (fun user => ?_)
    simp only [locks, active, funds, and_true, eq_comm]
  · next shares =>
    refine (Holdings.Draws.of_same (.of_accounts released)).congr (fun user => ?_)
    simp [locks, shares]

end PredictionMarket
