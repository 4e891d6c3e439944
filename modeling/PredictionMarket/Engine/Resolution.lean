/- PredictionMarket/Engine/Resolution
   digest: A successful resolution, read back, and the views of the markets after it. -/

import PredictionMarket.Engine.BookSimulation

set_option autoImplicit false
set_option relaxedAutoImplicit false

namespace PredictionMarket

open Library

namespace AdminService

variable {marketId : MarketId} {outcome : OriginalSide} {db db' : Db}

def endedRow (r : OrderRow) : OrderRow :=
  { r with status := .cancelled, cancelReason := some "MARKET_RESOLVED" }

theorem cancelAndUnfreeze_ok {e : OrderId × OrderRow}
    (done : cancelAndUnfreeze marketId db e = .ok db') :
    db'.markets = db.markets ∧ db.orders.update? e.1 endedRow = some db'.orders ∧
      if e.2.frozenAssetType = .funds then
        db.holdings.unfreezeDebit e.2.userId e.2.frozenAmount e.2.frozenAmount = .ok db'.holdings
      else db'.holdings.accounts = db.holdings.accounts := by
  simp only [cancelAndUnfreeze, bind_eq_ok] at done
  obtain ⟨db₁, marked, moved⟩ := done
  split at marked
  · next orders updated =>
    obtain rfl := Except.ok.inj marked
    obtain ⟨h, freed, rfl⟩ := Db.onHoldings_ok moved
    refine ⟨rfl, updated, ?_⟩
    split at freed
    · next funds => simpa [funds] using freed
    · next shares => simpa [shares] using (Holdings.updatePosition_ok freed).1
    · next shares => simpa [shares] using (Holdings.updatePosition_ok freed).1
  · cases marked

theorem settleMarket_ok (done : settleMarket marketId outcome db = .ok db') :
    db'.orders = db.orders ∧
      (marketPositions marketId db.holdings).foldlM (payAndClear marketId outcome) db.holdings =
        .ok db'.holdings ∧
      ∃ f : MarketRow → MarketRow, (∀ r, (f r).status = .settled) ∧
        db.markets.update? marketId f = some db'.markets := by
  simp only [settleMarket, bind_eq_ok] at done
  obtain ⟨h, paid, done⟩ := done
  split at done
  · next markets updated =>
    obtain rfl := Except.ok.inj done
    exact ⟨rfl, paid, _, fun _ => rfl, updated⟩
  · cases done

theorem resolveInTransaction_ok (done : resolveInTransaction marketId outcome db = .ok db') :
    ∃ db₁, (openOrders marketId db).foldlM (cancelAndUnfreeze marketId) db = .ok db₁ ∧
      settleMarket marketId outcome db₁ = .ok db' := by
  simp only [resolveInTransaction, bind_eq_ok] at done
  exact done

theorem mem_openOrders {e : OrderId × OrderRow} : e ∈ openOrders marketId db ↔
    db.orders.get? e.1 = some e.2 ∧ e.2.marketId = marketId ∧ e.2.isActive = true := by
  rw [openOrders, List.mem_filter, ← Table.mem_iff]
  simp

theorem resolve_resting (done : resolveInTransaction marketId outcome db = .ok db')
    {m : MarketId} (away : m ≠ marketId) : db'.resting m = db.resting m := by
  obtain ⟨db₁, cancelled, settled⟩ := resolveInTransaction_ok done
  have rows : ∀ j, (db₁.orders.get? j).bind (OrderRow.restsIn m) = db.resting m j ∧
      ∀ r, db₁.orders.get? j = some r → ∃ r₀, db.orders.get? j = some r₀ ∧
        r.marketId = r₀.marketId := by
    refine foldlM_preserves (P := fun d => ∀ j,
        (d.orders.get? j).bind (OrderRow.restsIn m) = db.resting m j ∧
        ∀ r, d.orders.get? j = some r → ∃ r₀, db.orders.get? j = some r₀ ∧
          r.marketId = r₀.marketId) ?_ cancelled (fun j => ⟨rfl, fun r got => ⟨r, got, rfl⟩⟩)
    intro d e d' member step same j
    obtain ⟨_, updated, _⟩ := cancelAndUnfreeze_ok step
    rw [Table.get?_update? updated]
    by_cases here : j = e.1
    · subst here
      obtain ⟨stored, home, _⟩ := mem_openOrders.mp member
      rw [if_pos rfl]
      cases got : d.orders.get? e.1 with
      | none => simpa [got] using same e.1
      | some r =>
        obtain ⟨r₀, was, kept⟩ := (same e.1).2 r got
        have inMarket : r.marketId = marketId := by
          rw [kept, ← home]
          rw [stored] at was
          exact congrArg OrderRow.marketId (Option.some.inj was).symm
        refine ⟨?_, fun r' equal => ?_⟩
        · rw [← (same e.1).1, got, Option.map_some, Option.bind_some, Option.bind_some,
            OrderRow.restsIn_of_ne (inMarket ▸ away.symm),
            OrderRow.restsIn_of_ne (inMarket ▸ away.symm)]
        · obtain rfl := Option.some.inj equal
          exact ⟨r₀, was, kept⟩
    · rw [if_neg here]
      exact same j
  funext j
  rw [Db.resting, (settleMarket_ok settled).1]
  exact (rows j).1

theorem resolve_markets (done : resolveInTransaction marketId outcome db = .ok db')
    (m : MarketId) {row : MarketRow} (got : db'.markets.get? m = some row)
    (active : row.status = .active) : m ≠ marketId ∧ db.markets.get? m = some row := by
  obtain ⟨db₁, cancelled, settled⟩ := resolveInTransaction_ok done
  have kept : db₁.markets = db.markets := foldlM_preserves (P := fun d => d.markets = db.markets)
    (fun _ _ _ _ step same => (cancelAndUnfreeze_ok step).1.trans same) cancelled rfl
  obtain ⟨f, settles, updated⟩ := (settleMarket_ok settled).2.2
  rw [Table.get?_update? updated, kept] at got
  split at got
  · obtain ⟨r, _, rfl⟩ := Option.map_eq_some_iff.mp got
    rw [settles] at active
    cases active
  · next away => exact ⟨away, got⟩

end AdminService

end PredictionMarket
