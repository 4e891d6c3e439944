/- PredictionMarket/Engine/LedgerEntries
   digest: The ledger entries of freezes and releases, and what they move in the accounts. -/

import PredictionMarket.Engine.Releases

set_option autoImplicit false
set_option relaxedAutoImplicit false

namespace PredictionMarket

open Library

def Order.freezeEntries (order : Order) : List LedgerRow :=
  if order.bookType.paysCash then
    [⟨order.userId, .orderFreeze, -order.frozenAmount, 0, order.id⟩]
  else []

/-- The ledger entries that are due at the end of an order: one over its frozen
amount when that is cash. -/
def Order.unfreezeEntries (order : Order) : List LedgerRow :=
  if order.frozenAssetType = .funds then
    [⟨order.userId, .orderUnfreeze, order.frozenAmount, 0, order.id⟩]
  else []

def enteredFor (user : UserId) (entries : List LedgerRow) : Int :=
  ((entries.filter (fun r => r.userId = user)).map LedgerRow.amount).sum

def AccountRow.unfrozen (a : AccountRow) (amount : Int) : AccountRow :=
  { a with
    availableBalance := a.availableBalance + amount
    frozenBalance := a.frozenBalance - amount }

/-- In every account the new entries of its user have moved what they add up to, and
nothing else has. -/
def Db.MovesEntered (db db' : Db) : Prop :=
  ∃ new, db'.ledger = db.ledger ++ new ∧ ∀ user a, db.holdings.accounts.get? user = some a →
    db'.holdings.accounts.get? user = some (a.unfrozen (enteredFor user new))

section Entries

variable {db db' db'' : Db}

private theorem AccountRow.unfrozen_unfrozen (a : AccountRow) (x y : Int) :
    (a.unfrozen x).unfrozen y = a.unfrozen (x + y) := by
  unfold unfrozen
  congr 1
  · simp only [add_assoc]
  · simp only [sub_sub]

private theorem enteredFor_append (user : UserId) (first rest : List LedgerRow) :
    enteredFor user (first ++ rest) = enteredFor user first + enteredFor user rest := by
  unfold enteredFor
  rw [List.filter_append, List.map_append, List.sum_append]

private theorem Db.MovesEntered.of_eq (ledger : db'.ledger = db.ledger)
    (accounts : db'.holdings.accounts = db.holdings.accounts) : db.MovesEntered db' := by
  refine ⟨[], by rw [ledger, List.append_nil], fun user a got => ?_⟩
  rw [accounts, got]
  simp [enteredFor, AccountRow.unfrozen]

private theorem Db.MovesEntered.trans (first : db.MovesEntered db')
    (second : db'.MovesEntered db'') :
    db.MovesEntered db'' := by
  obtain ⟨new, ledger, moved⟩ := first
  obtain ⟨later, ledger', moved'⟩ := second
  refine ⟨new ++ later, by rw [ledger', ledger, List.append_assoc], fun user a got => ?_⟩
  rw [moved' user _ (moved user a got), AccountRow.unfrozen_unfrozen, enteredFor_append]

private theorem Db.MovesEntered.of_unfreezeDebit {userId : UserId} {amount : Int} {row : LedgerRow}
    (moved : db.holdings.unfreezeDebit userId amount amount = .ok db'.holdings)
    (ledger : db'.ledger = db.ledger ++ [row]) (owner : row.userId = userId)
    (size : row.amount = amount) : db.MovesEntered db' := by
  refine ⟨[row], ledger, fun user a got => ?_⟩
  rw [Holdings.row_updateAccount moved got]
  by_cases own : user = userId
  · rw [if_pos own]
    simp [enteredFor, AccountRow.unfrozen, own, owner, size]
  · rw [if_neg own]
    have stranger : row.userId ≠ user := fun same => own (same.symm.trans owner)
    simp [enteredFor, AccountRow.unfrozen, stranger]

end Entries

section Freezes

variable {draft : OrderDraft} {db db' : Db} {order order' : Order}

theorem freezeShares_log {side : OriginalSide} {asset : FrozenAssetType} {missing : String}
    (done : freezeShares order side asset missing db = .ok (order', db')) :
    db'.wal = db.wal ∧ db'.ledger = db.ledger := by
  unfold freezeShares at done
  split at done
  · cases done
  · split at done
    · cases done
    · simp only [bind_eq_ok, pure_eq_ok, Prod.mk.injEq] at done
      obtain ⟨db₁, ran, _, rfl⟩ := done
      obtain ⟨h, _, rfl⟩ := Db.onHoldings_ok ran
      exact ⟨rfl, rfl⟩

theorem freezeFunds_log {amount : Int} (done : freezeFunds order amount db = .ok (order', db')) :
    db'.wal = db.wal ∧
      db'.ledger = db.ledger ++ [⟨order.userId, .orderFreeze, -amount, 0, order.id⟩] := by
  unfold freezeFunds at done
  split at done
  · cases done
  · simp only at done
    split at done
    · cases done
    · simp only [bind_eq_ok, pure_eq_ok, Prod.mk.injEq] at done
      obtain ⟨db₁, ran, _, rfl⟩ := done
      obtain ⟨h, _, rfl⟩ := Db.onHoldings_ok ran
      exact ⟨rfl, rfl⟩

private theorem checkAndFreeze_ledger (done : checkAndFreeze order db = .ok (order', db')) :
    db'.ledger = db.ledger ++ order'.freezeEntries := by
  have equal := (checkAndFreeze_ok done).1
  unfold checkAndFreeze at done
  split at done
  all_goals
    rename_i type
    simp only [equal, Order.freezeEntries, type, BookType.paysCash, BookType.frozenFor, if_true,
      Bool.false_eq_true, if_false, List.append_nil]
  · exact (freezeFunds_log done).2
  · exact (freezeFunds_log done).2
  · exact (freezeShares_log done).2
  · exact (freezeShares_log done).2

theorem acceptOrder_ledger {market : MarketState}
    (done : acceptOrder draft db = .ok (order, market, db')) :
    db'.ledger = db.ledger ++ order.freezeEntries := by
  obtain ⟨db₁, db₂, frozen, saved, rfl⟩ := acceptOrder_saved done
  obtain ⟨orders, _, rfl⟩ := Db.save_ok saved
  have froze := checkAndFreeze_ledger frozen
  exact froze

private theorem acceptOrder_entered {market : MarketState}
    (done : acceptOrder draft db = .ok (order, market, db')) : db.MovesEntered db' := by
  have ledger := acceptOrder_ledger done
  have frozen := (acceptOrder_ok done).frozen
  unfold Frozen at frozen
  unfold Order.freezeEntries at ledger
  split at frozen
  · next cash =>
    rw [if_pos cash] at ledger
    obtain ⟨_, _, _, moved⟩ := frozen
    exact .of_unfreezeDebit moved ledger rfl rfl
  · next shares =>
    rw [if_neg shares, List.append_nil] at ledger
    exact .of_eq ledger frozen

end Freezes

section Releases

variable {draft : OrderDraft} {ob ob' : OrderBook} {db db' : Db} {order order' : Order}

theorem unfreezeRemainder_log (done : unfreezeRemainder order db = .ok db') :
    db'.wal = db.wal ∧ db'.ledger = db.ledger ++ order.unfreezeEntries := by
  unfold unfreezeRemainder at done
  unfold Order.unfreezeEntries
  split at done
  · next funds =>
    simp only [bind_eq_ok, pure_eq_ok] at done
    obtain ⟨db₁, ran, rfl⟩ := done
    obtain ⟨h, _, rfl⟩ := Db.onHoldings_ok ran
    simp [Db.writeLedger, funds]
  · next yes =>
    obtain ⟨h, _, rfl⟩ := Db.onHoldings_ok done
    simp [yes]
  · next no =>
    obtain ⟨h, _, rfl⟩ := Db.onHoldings_ok done
    simp [no]

private theorem unfreezeRemainder_entered (done : unfreezeRemainder order db = .ok db') :
    db.MovesEntered db' := by
  have ledger := (unfreezeRemainder_log done).2
  obtain ⟨h, entries, released, rfl⟩ := unfreezeRemainder_ok done
  unfold Released at released
  unfold Order.unfreezeEntries at ledger
  split at released
  · next cash =>
    rw [if_pos cash] at ledger
    exact .of_unfreezeDebit released ledger rfl rfl
  · next shares =>
    rw [if_neg shares, List.append_nil] at ledger
    exact .of_eq ledger released

private theorem cancelInSavepoint_entered
    (done : MatchingEngine.cancelInSavepoint order db = .ok (order', db')) :
    db.MovesEntered db' := by
  obtain ⟨db₁, db₂, released, marked, rfl⟩ := cancelInSavepoint_saved done
  obtain ⟨orders, _, rfl⟩ := Db.updateStatus_ok marked
  exact (unfreezeRemainder_entered released).trans (.of_eq rfl rfl)

/-- The end of an IOC order, whatever has been filled of it. -/
private theorem finalizeOrder_entered (done : finalizeOrder order 0 db = .ok (order', db')) :
    db.MovesEntered db' := by
  cases finalizeOrder_run done with
  | partly | idle => exact .of_eq rfl rfl
  | expired _ _ released updated =>
    obtain ⟨orders, _, rfl⟩ := Db.updateStatus_ok updated
    exact (unfreezeRemainder_entered released).trans (.of_eq rfl rfl)

private theorem placeOrderInner_entered {placed : Placed}
    (done : placeOrderInner draft ob db = (.ok (placed, db'), ob'))
    (unfilled : db'.trades = db.trades) : db.MovesEntered db' := by
  obtain ⟨⟨market, db₁, order, n, market₁, db₂, order', db₃, accepted, fills, finalized, flushed,
    _⟩, _⟩ := placeOrderInner_phases done
  obtain ⟨markets, _, rfl⟩ := Db.flushMarket_ok flushed
  have none : (matchOrder draft.accepted ob).trades = [] := by
    have traded := clearFills_trades fills
    rw [acceptOrder_trades accepted, ← finalizeOrder_trades finalized, unfilled] at traded
    exact List.self_eq_append_right.mp traded
  rw [none] at fills
  simp only [clearFills, pure_eq_ok, Prod.mk.injEq] at fills
  obtain ⟨rfl, _, rfl, rfl⟩ := fills
  exact ((acceptOrder_entered accepted).trans (finalizeOrder_entered finalized)).trans
    (.of_eq rfl rfl)

private theorem Db.Ends.entered {id : OrderId} {row : OrderRow} (ends : db.Ends id row db') :
    db.MovesEntered db' := by
  obtain ⟨_, order, done⟩ := ends
  exact cancelInSavepoint_entered done

def SessionOp.IsSingle : SessionOp → Prop
  | .place .. | .cancel .. | .replace .. => True
  | .batchCancel .. | .privileged _ | .resolve .. => False

/-- A request about a single order that fills nothing moves what its entries say. -/
theorem sessionStep_entered {s : Session} {op : SessionOp} (acc : s.world.Accounted False)
    (single : op.IsSingle) (unfilled : (s.next op).world.db.trades = s.world.db.trades) :
    s.world.db.MovesEntered (s.next op).world.db := by
  rcases (sessionStep_moves (show sessionStep s op (s.next op) from rfl) acc).2 with same | moves
  · exact .of_eq (by rw [same]) (by rw [same])
  cases op with
  | place req userId clock =>
    obtain ⟨ob, ob', placed, v, inner, _⟩ := Run.single_iff.mp moves
    exact placeOrderInner_entered inner unfilled
  | cancel orderId userId =>
    obtain ⟨row, _, ends⟩ := Run.single_iff.mp moves
    exact ends.entered
  | replace oldOrderId req userId clock =>
    obtain _ | @⟨_, db₁, _, _, _, retired, placement⟩ := moves
    obtain ⟨row, _, _, ends⟩ := retired
    obtain ⟨ob, ob', placed, v, inner, _⟩ := Run.single_iff.mp placement
    obtain ⟨order, ended⟩ := ends.2
    exact ends.entered.trans
      (placeOrderInner_entered inner (unfilled.trans (cancelInSavepoint_trades ended).symm))
  | batchCancel | privileged | resolve => exact single.elim

end Releases

end PredictionMarket
