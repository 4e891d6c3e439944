/- PredictionMarket/Engine/ReleaseFunds
   digest: Cancelling and resolving give back exactly what the ended orders lock. -/

import PredictionMarket.Engine.PlaceFunds
import PredictionMarket.Engine.Resolution

set_option autoImplicit false
set_option relaxedAutoImplicit false

namespace PredictionMarket

open Library

structure Db.SameSpare (db db' : Db) : Prop where
  accounts : ∀ user, db'.holdings.HasAccount user ↔ db.holdings.HasAccount user
  spare : ∀ user, db.holdings.HasAccount user → db'.spare user = db.spare user

private theorem Db.SameSpare.trans {db db' db'' : Db} (first : db.SameSpare db')
    (second : db'.SameSpare db'') : db.SameSpare db'' := by
  constructor
  · intro user
    exact (second.accounts user).trans (first.accounts user)
  · intro user there
    rw [second.spare user ((first.accounts user).mpr there), first.spare user there]

theorem Db.SameSpare.of_sameFrozen {db db' : Db} (same : db.holdings.SameFrozen db'.holdings)
    (orders : db'.orders = db.orders) : db.SameSpare db' := by
  constructor
  · exact same.accounts
  · intro user _
    unfold Db.spare Db.locked
    rw [same.frozen, orders]

theorem cancelInSavepoint_spare {db db' : Db} {id : OrderId} {row : OrderRow} {order : Order}
    (done : MatchingEngine.cancelInSavepoint (rowToOrder id row) db = .ok (order, db'))
    (got : db.orders.get? id = some row) (active : row.isActive = true) : db.SameSpare db' := by
  obtain ⟨released, _, updated⟩ := cancelInSavepoint_ok done
  have draws := OrderRow.release_draws active released
  constructor
  · exact draws.accounts
  · intro user there
    exact Db.spare_of_release draws got updated rfl there

theorem cancelInSavepoint_funded {db db' : Db} {order order' : Order}
    (done : MatchingEngine.cancelInSavepoint order db = .ok (order', db')) (funded : db.Funded) :
    db'.Funded := by
  obtain ⟨_, _, updated⟩ := cancelInSavepoint_ok done
  intro j row got
  rw [Table.get?_update? updated] at got
  split at got
  · obtain ⟨before, was, rfl⟩ := Option.map_eq_some_iff.mp got
    exact (funded _ before was).cancelled order
  · exact funded j row got

namespace AdminService

variable {marketId : MarketId} {outcome : OriginalSide} {db db' : Db}

/-- The loop over the scanned orders: what it changes and what it keeps. -/
structure CancelledAll (db db' : Db) (ids : List OrderId) : Prop where
  same : db.SameSpare db'
  funded : db.Funded → db'.Funded
  others : ∀ j, j ∉ ids → db'.orders.get? j = db.orders.get? j

private theorem cancelAll_ok (l : List (OrderId × OrderRow)) (nodup : (l.map Prod.fst).Nodup)
    (stored : ∀ e ∈ l, db.orders.get? e.1 = some e.2 ∧ e.2.isActive = true)
    (done : l.foldlM (cancelAndUnfreeze marketId) db = .ok db') :
    CancelledAll db db' (l.map Prod.fst) := by
  induction l generalizing db with
  | nil =>
    simp only [List.foldlM_nil, pure_eq_ok] at done
    subst done
    exact ⟨⟨fun _ => Iff.rfl, fun _ _ => rfl⟩, id, fun _ _ => rfl⟩
  | cons e l ih =>
    simp only [List.foldlM_cons, bind_eq_ok] at done
    obtain ⟨db₁, first, rest⟩ := done
    rw [List.map_cons, List.nodup_cons] at nodup
    obtain ⟨_, updated, released⟩ := cancelAndUnfreeze_ok first
    obtain ⟨got, active⟩ := stored e List.mem_cons_self
    have draws := OrderRow.release_draws active released
    have rows := Table.get?_update? updated
    have later : ∀ a ∈ l, a.1 ≠ e.1 := fun a member same =>
      nodup.1 (same ▸ List.mem_map_of_mem (f := Prod.fst) member)
    obtain ⟨same, funded, others⟩ := ih nodup.2 (fun a member => by
      rw [rows, if_neg (later a member)]
      exact stored a (List.mem_cons_of_mem _ member)) rest
    have here : db.SameSpare db₁ :=
      ⟨draws.accounts, fun user there => Db.spare_of_release draws got updated rfl there⟩
    refine ⟨here.trans same, fun before => funded ?_, fun j absent => ?_⟩
    · intro j row stored'
      rw [rows] at stored'
      split at stored'
      · obtain ⟨r, was, rfl⟩ := Option.map_eq_some_iff.mp stored'
        exact ⟨(before _ r was).asset, (before _ r was).price, fun ended => by cases ended⟩
      · exact before j row stored'
    · rw [List.map_cons, List.mem_cons, not_or] at absent
      rw [others j absent.2, rows, if_neg absent.1]

private theorem settleMarket_sameSpare (done : settleMarket marketId outcome db = .ok db') :
    db.SameSpare db' := by
  obtain ⟨orders, paid, _⟩ := settleMarket_ok done
  refine .of_sameFrozen ?_ orders
  refine foldlM_preserves (P := fun h => db.holdings.SameFrozen h) ?_ paid (.refl _)
  intro h e h' _ step same
  simp only [payAndClear, bind_eq_ok] at step
  obtain ⟨h₁, credited, cleared⟩ := step
  have zeroed := Holdings.SameFrozen.of_accounts (Holdings.updatePosition_ok cleared).1
  split at credited
  · exact same.trans ((Holdings.addBalance_sameFrozen credited).trans zeroed)
  · obtain rfl := pure_eq_ok.mp credited
    exact same.trans zeroed

theorem resolve_spare (done : resolveInTransaction marketId outcome db = .ok db') :
    db.SameSpare db' ∧ (db.Funded → db'.Funded) ∧
      ∀ j, (∀ row, db.orders.get? j = some row → row.marketId ≠ marketId) →
        db'.orders.get? j = db.orders.get? j := by
  obtain ⟨db₁, cancelled, settled⟩ := resolveInTransaction_ok done
  have nodup : ((openOrders marketId db).map Prod.fst).Nodup :=
    db.orders.nodup.sublist (List.filter_sublist.map _)
  obtain ⟨same, funded, others⟩ := cancelAll_ok _ nodup
    (fun e member => ⟨(mem_openOrders.mp member).1, (mem_openOrders.mp member).2.2⟩) cancelled
  have orders := (settleMarket_ok settled).1
  refine ⟨same.trans (settleMarket_sameSpare settled), fun before j row got =>
    funded before j row (orders ▸ got), fun j away => ?_⟩
  rw [orders]
  apply others
  intro member
  obtain ⟨e, scanned, rfl⟩ := List.mem_map.mp member
  obtain ⟨got, home, _⟩ := mem_openOrders.mp scanned
  exact away e.2 got home

end AdminService

end PredictionMarket
