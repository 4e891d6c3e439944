/- PredictionMarket/Clearing/Statements
   digest: What one statement does to lookups and to column sums. -/

import PredictionMarket.Clearing.Scenarios
import Mathlib.Tactic.Ring

set_option autoImplicit false
set_option relaxedAutoImplicit false

namespace PredictionMarket

open Library

namespace Holdings

variable {h h' : Holdings} {userId : UserId} {marketId : MarketId}

def columnSum (h : Holdings) (m : MarketId) (column : Holding → Int) : Int :=
  h.positions.sum (fun k r => if k.2 = m then r.total column else 0)

theorem totalCost_eq (h : Holdings) (m : MarketId) :
    h.totalCost m = h.columnSum m Holding.costSum := rfl

theorem updateAccount_ok {f : AccountRow → AccountRow}
    (done : h.updateAccount userId f = .ok h') :
    h'.positions = h.positions ∧ h.accounts.update? userId f = some h'.accounts := by
  unfold updateAccount at done
  split at done
  · next accounts updated =>
    obtain rfl := Except.ok.inj done
    exact ⟨rfl, updated⟩
  · cases done

theorem get?_updateAccount {f : AccountRow → AccountRow}
    (done : h.updateAccount userId f = .ok h') (user : UserId) :
    h'.accounts.get? user =
      if user = userId then (h.accounts.get? userId).map f else h.accounts.get? user :=
  Table.get?_update? (updateAccount_ok done).2 user

theorem row_updateAccount {f : AccountRow → AccountRow} {user : UserId} {a : AccountRow}
    (done : h.updateAccount userId f = .ok h') (got : h.accounts.get? user = some a) :
    h'.accounts.get? user = some (if user = userId then f a else a) := by
  rw [get?_updateAccount done]
  by_cases same : user = userId
  · subst same
    simp [got]
  · simp [same, got]

theorem updatePosition_ok {f : PositionRow → PositionRow}
    (done : h.updatePosition userId marketId f = .ok h') :
    h'.accounts = h.accounts ∧ h.positions.update? (userId, marketId) f = some h'.positions := by
  unfold updatePosition at done
  split at done
  · next positions updated =>
    obtain rfl := Except.ok.inj done
    exact ⟨rfl, updated⟩
  · cases done

theorem position_updatePosition {f : PositionRow → PositionRow} {k : UserId × MarketId}
    {r : PositionRow} (done : h.updatePosition userId marketId f = .ok h')
    (got : h.positions.get? k = some r) : ∃ r', h'.positions.get? k = some r' := by
  rw [Table.get?_update? (updatePosition_ok done).2]
  split
  · next same => exact ⟨f r, by rw [← same, got, Option.map_some]⟩
  · exact ⟨r, got⟩

theorem addVolume_ok {side : OriginalSide} {qty cost : Int}
    (done : h.addVolume side userId marketId qty cost = .ok h') :
    h'.accounts = h.accounts ∧ h.positions.upsert? (userId, marketId)
      (PositionRow.empty.modify side (fun c => c.bought qty cost))
      (fun r => r.modify side (fun c => c.bought qty cost)) = some h'.positions := by
  unfold addVolume at done
  split at done
  · next positions updated =>
    obtain rfl := Except.ok.inj done
    exact ⟨rfl, updated⟩
  · cases done

theorem addBalanceTo_ok {amount : Int} {missing : String}
    (done : h.addBalanceTo userId amount missing = .ok h') :
    (h.accounts.get? userId).isSome ∧ h.addBalance userId amount = .ok h' := by
  unfold addBalanceTo at done
  split at done
  · cases done
  · next a got => exact ⟨by simp [got], done⟩

theorem unfreezeDebit_positions {unfreeze refund : Int}
    (done : h.unfreezeDebit userId unfreeze refund = .ok h') : h'.positions = h.positions :=
  (updateAccount_ok done).1

theorem addBalance_positions {amount : Int}
    (done : h.addBalance userId amount = .ok h') : h'.positions = h.positions :=
  (updateAccount_ok done).1

theorem columnSum_congr (same : h'.positions = h.positions) (m : MarketId)
    (column : Holding → Int) : h'.columnSum m column = h.columnSum m column := by
  simp only [columnSum, same]

theorem columnSum_addVolume {side : OriginalSide} {qty cost x : Int} {column : Holding → Int}
    (zero : column .empty = 0)
    (shift : ∀ c : Holding, column (c.bought qty cost) = column c + x)
    (done : h.addVolume side userId marketId qty cost = .ok h') (m : MarketId) :
    h'.columnSum m column = h.columnSum m column + if marketId = m then x else 0 := by
  unfold columnSum
  rw [Table.sum_upsert? (addVolume_ok done).2]
  congr 1
  by_cases here : marketId = m
  · have fresh : PositionRow.empty.total column = 0 := by
      simp [PositionRow.total, PositionRow.empty, zero]
    cases h.positions.get? (userId, marketId) with
    | none =>
      simp only [Option.elim_none, here, if_true, PositionRow.total_modify, fresh, shift]
      omega
    | some r =>
      simp only [Option.elim_some, here, if_true, PositionRow.total_modify, shift]
      omega
  · cases h.positions.get? (userId, marketId) <;> simp [here]

theorem columnSum_updatePosition {f : PositionRow → PositionRow} {r : PositionRow} {x : Int}
    {column : Holding → Int} (got : h.positions.get? (userId, marketId) = some r)
    (shift : (f r).total column = r.total column + x)
    (done : h.updatePosition userId marketId f = .ok h') (m : MarketId) :
    h'.columnSum m column = h.columnSum m column + if marketId = m then x else 0 := by
  unfold columnSum
  rw [Table.sum_update? (updatePosition_ok done).2, got]
  by_cases here : marketId = m
  · simp only [Option.elim_some, here, if_true, shift]
    omega
  · simp [here]

theorem columnSum_reduceVolume {side : OriginalSide} {qty released x : Int} {r : PositionRow}
    {column : Holding → Int} (got : h.positions.get? (userId, marketId) = some r)
    (shift : ∀ c : Holding, column (c.sold qty released) = column c + x)
    (done : h.reduceVolume side userId marketId qty released = .ok h') (m : MarketId) :
    h'.columnSum m column = h.columnSum m column + if marketId = m then x else 0 :=
  columnSum_updatePosition got (by rw [PositionRow.total_modify, shift]; omega) done m

end Holdings

end PredictionMarket
