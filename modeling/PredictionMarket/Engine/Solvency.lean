/- PredictionMarket/Engine/Solvency
   digest: After any session of covered placements, every open market can be resolved either way. -/

import PredictionMarket.Engine.BatchCancel
import PredictionMarket.Engine.FeeBuffer
import PredictionMarket.Engine.MarketHealth
import PredictionMarket.Engine.PendingOrders

set_option autoImplicit false
set_option relaxedAutoImplicit false

namespace PredictionMarket

open Library

section Housed

variable {db db' : Db}

private theorem Holdings.KeepsRows.refl (h : Holdings) : h.KeepsRows h :=
  ⟨fun _ there => there, fun _ there => there⟩

private theorem Holdings.KeepsRows.trans {h h' h'' : Holdings} (first : h.KeepsRows h')
    (rest : h'.KeepsRows h'') : h.KeepsRows h'' :=
  ⟨fun user there => rest.accounts user (first.accounts user there),
    fun k there => rest.positions k (first.positions k there)⟩

private theorem Minted.housed {userId : UserId} {marketId : MarketId} {quantity : Int}
    (minted : Minted userId marketId quantity db db') (housed : db.Housed) : db'.Housed := by
  obtain ⟨h, _, debit, pairs⟩ := minted.paid
  obtain ⟨accounts, positions⟩ := Holdings.addPairs_ok pairs
  have added : h.KeepsRows db'.holdings := by
    constructor
    · intro user there
      unfold Holdings.HasAccount
      rwa [accounts]
    · intro k there
      rw [Table.get?_upsert? positions]
      split
      · rfl
      · exact there
  refine housed.keep ((Holdings.KeepsRows.updateAccount debit).trans added) (fun id r' got => ?_)
  rw [minted.rest] at got
  exact ⟨r', got, rfl⟩

private theorem Burned.housed {userId : UserId} {marketId : MarketId} {quantity : Int}
    (burned : Burned userId marketId quantity db db') (housed : db.Housed) : db'.Housed := by
  obtain ⟨row, h, _, _, net, credit⟩ := burned.paid
  have kept := (Holdings.KeepsRows.updatePosition net).trans
    (Holdings.KeepsRows.updateAccount credit)
  refine housed.keep kept (fun id r' got => ?_)
  rw [burned.rest] at got
  exact ⟨r', got, rfl⟩

namespace AdminService

variable {m : MarketId} {outcome : OriginalSide}

private theorem cancelAndUnfreeze_keepsRows {e : OrderId × OrderRow}
    (done : cancelAndUnfreeze m db e = .ok db') : db.holdings.KeepsRows db'.holdings := by
  simp only [cancelAndUnfreeze, bind_eq_ok] at done
  obtain ⟨db₁, marked, moved⟩ := done
  split at marked
  · obtain rfl := Except.ok.inj marked
    obtain ⟨h, freed, rfl⟩ := Db.onHoldings_ok moved
    split at freed
    · exact .updateAccount freed
    · exact .updatePosition freed
    · exact .updatePosition freed
  · cases marked

private theorem payAndClear_keepsRows {e : UserId × PositionRow} {h h' : Holdings}
    (done : payAndClear m outcome h e = .ok h') : h.KeepsRows h' := by
  simp only [payAndClear, bind_eq_ok] at done
  obtain ⟨h₁, credited, cleared⟩ := done
  have paid : h.KeepsRows h₁ := by
    split at credited
    · exact .updateAccount credited
    · rw [pure_eq_ok.mp credited]
      exact .refl _
  exact paid.trans (.updatePosition cleared)

private theorem resolve_housed (done : resolveInTransaction m outcome db = .ok db')
    (housed : db.Housed) : db'.Housed := by
  obtain ⟨db₁, cancelled, settled⟩ := resolveInTransaction_ok done
  have freed : db₁.Housed := by
    refine foldlM_preserves (P := Db.Housed) ?_ cancelled housed
    intro d e d' _ step kept
    refine kept.keep (cancelAndUnfreeze_keepsRows step) (fun id r' got => ?_)
    rw [Table.get?_update? (cancelAndUnfreeze_ok step).2.1] at got
    split at got
    · next same =>
      obtain ⟨r, was, rfl⟩ := Option.map_eq_some_iff.mp got
      exact ⟨r, same ▸ was, rfl⟩
    · exact ⟨r', got, rfl⟩
  obtain ⟨orders, paid, _⟩ := settleMarket_ok settled
  have kept : db₁.holdings.KeepsRows db'.holdings := foldlM_preserves
    (P := fun h => db₁.holdings.KeepsRows h)
    (fun _ _ _ _ step before => before.trans (payAndClear_keepsRows step)) paid (.refl _)
  exact freed.keep kept (fun id r' got => ⟨r', orders ▸ got, rfl⟩)

end AdminService

private theorem moveStep_housed {move : Move} (step : moveStep db move db') (funded : db.Funded)
    (housed : db.Housed) : db'.Housed := by
  cases move with
  | placed draft =>
    obtain ⟨ob, ob', placed, v, done, shows, absent, _⟩ := step
    exact housed.placed done shows absent
  | cancelled id =>
    obtain ⟨row, _, ends⟩ := step
    exact ends.cancelsAll.housed housed
  | retired id =>
    obtain ⟨row, _, _, ends⟩ := step
    exact ends.cancelsAll.housed housed
  | batch marketId userId scope => exact (batch_cancelsAll funded step).housed housed
  | privileged call =>
    rcases step with minted | burned
    · exact minted.housed housed
    · exact burned.housed housed
  | resolved marketId outcome => exact AdminService.resolve_housed step housed

end Housed

section Spare

variable {db db' : Db} {marketId : MarketId} {userId : UserId} {scope : CancelScope}

private theorem markCancelled_locked (rows : List (OrderId × OrderRow))
    (nodup : (rows.map Prod.fst).Nodup) (stored : ∀ e ∈ rows, db.orders.get? e.1 = some e.2)
    (done : MatchingEngine.markCancelled (rows.map Prod.fst) db = .ok db') (user : UserId) :
    db'.locked user = db.locked user - (rows.map (fun e => e.2.locks user)).sum := by
  induction rows generalizing db with
  | nil =>
    simp only [MatchingEngine.markCancelled, List.map_nil, List.foldlM_nil, pure_eq_ok] at done
    simp [done]
  | cons e rows ih =>
    simp only [MatchingEngine.markCancelled, List.map_cons, List.foldlM_cons, bind_eq_ok] at done
    obtain ⟨db₁, first, rest⟩ := done
    rw [List.map_cons, List.nodup_cons] at nodup
    split at first
    · next orders updated =>
      obtain rfl := Except.ok.inj first
      have later := ih nodup.2 (fun a member => by
        have other : a.1 ≠ e.1 := fun same =>
          nodup.1 (same ▸ List.mem_map_of_mem (f := Prod.fst) member)
        rw [Table.get?_update? updated, if_neg other]
        exact stored a (List.mem_cons_of_mem _ member)) rest
      rw [later, Db.locked_update updated, stored e List.mem_cons_self, Option.elim_some,
        OrderRow.locks_of_inactive (r := { e.2 with status := .cancelled }) rfl, List.map_cons,
        List.sum_cons]
      omega
    · cases first

private theorem batch_spare (step : moveStep db (.batch marketId userId scope) db')
    (funded : db.Funded) : db.SameSpare db' := by
  have cancels := batch_cancelsAll funded step
  obtain ⟨db₁, h, marked, _, rfl⟩ := step
  generalize rowsEq : MatchingEngine.batchRows marketId userId scope db = rows at marked cancels
  have stored : ∀ e ∈ rows, db.orders.get? e.1 = some e.2 ∧ e.2.isActive = true := by
    intro e member
    rw [← rowsEq] at member
    obtain ⟨got, _, _, active, _⟩ := MatchingEngine.mem_batchRows.mp member
    exact ⟨got, active⟩
  have nodup : (rows.map Prod.fst).Nodup := by
    rw [← rowsEq]
    exact db.orders.nodup.sublist (List.filter_sublist.map _)
  have accounts := cancels.received.accounts
  constructor
  · intro user
    unfold Holdings.HasAccount
    rw [accounts]
    simp
  · intro user there
    have locked : Db.locked { db₁ with holdings := h } user = _ :=
      markCancelled_locked rows nodup (fun e member => (stored e member).1) marked user
    have given : db.givenBy (rows.map Prod.fst) user .funds =
        (rows.map (fun e => e.2.locks user)).sum := by
      rw [Db.givenBy_rows (fun e member => (stored e member).1)]
      unfold AdminService.given
      congr 1
      apply List.map_congr_left
      intro e member
      simp [OrderRow.gives, OrderRow.locks, (stored e member).2]
    obtain ⟨a, got⟩ := Option.isSome_iff_exists.mp there
    unfold Db.spare Holdings.frozenOf
    rw [locked, accounts, got, given]
    simp only [Option.map_some, Option.getD_some, AccountRow.freed]
    omega

private theorem Minted.spare {quantity : Int} (minted : Minted userId marketId quantity db db') :
    db.SameSpare db' := by
  obtain ⟨h, _, debit, pairs⟩ := minted.paid
  refine .of_sameFrozen ((Holdings.addBalance_sameFrozen debit).trans
    (.of_accounts (Holdings.addPairs_ok pairs).1)) ?_
  rw [minted.rest]

private theorem Burned.spare {quantity : Int} (burned : Burned userId marketId quantity db db') :
    db.SameSpare db' := by
  obtain ⟨row, h, _, _, net, credit⟩ := burned.paid
  refine .of_sameFrozen ((Holdings.SameFrozen.of_accounts (Holdings.updatePosition_ok net).1).trans
    (Holdings.addBalance_sameFrozen credit)) ?_
  rw [burned.rest]

private theorem Db.SameSpare.releasable (same : db.SameSpare db') (enough : db.Releasable) :
    db'.Releasable := by
  intro user there
  have before := (same.accounts user).mp there
  have spare := same.spare user before
  have locked := enough user before
  unfold Db.spare at spare
  omega

end Spare

/-- No replacement, and placements whose fees stay within what was frozen for them. -/
def CoversFees : Session → SessionOp → Prop
  | s, .place req userId clock => FeesCovered s.world (.place req userId clock .none)
  | _, .replace .. => False
  | _, _ => True

/-- What holds between two requests of a session without replacements. -/
structure World.InOrder (w : World) : Prop where
  accounted : w.Accounted False
  housed : w.db.Housed
  releasable : w.db.Releasable
  pending : w.db.PendingMatches

private theorem sessionStep_releasable {s s' : Session} {op : SessionOp}
    (step : sessionStep s op s')
    (covered : CoversFees s op) (acc : s.world.Accounted False) (enough : s.world.db.Releasable) :
    s'.world.db.Releasable := by
  have only : ∀ m : Move, op.moves s.world.nextId = [m] →
      (∀ db', moveStep s.world.db m db' → s.world.db.SameSpare db') →
      s'.world.db.Releasable := by
    intro m same spare
    rcases (sessionStep_moves step acc).2 with kept | moved
    · rw [kept]
      exact enough
    · rw [same, Run.single_iff] at moved
      exact (spare _ moved).releasable enough
  cases op with
  | place req userId clock =>
    have ran : fundsStep s.world (.place req userId clock .none) s'.world := by
      rw [step]
      rfl
    exact (fundsStep_releasable ran covered acc enough).2
  | cancel orderId userId =>
    have ran : fundsStep s.world (.cancel orderId userId .none) s'.world := by
      rw [step]
      rfl
    exact (fundsStep_releasable ran trivial acc enough).2
  | resolve marketId outcome =>
    have ran : fundsStep s.world (.resolve marketId outcome .none) s'.world := by
      rw [step]
      rfl
    exact (fundsStep_releasable ran trivial acc enough).2
  | replace => exact covered.elim
  | batchCancel marketId userId scope =>
    exact only _ rfl (fun db' moved => batch_spare moved acc.funded)
  | privileged call =>
    refine only _ rfl (fun db' moved => ?_)
    rcases moved with minted | burned
    · exact minted.spare
    · exact burned.spare

private theorem sessionStep_inOrder {s s' : Session} {op : SessionOp} (step : sessionStep s op s')
    (covered : CoversFees s op) (order : s.world.InOrder) : s'.world.InOrder := by
  obtain ⟨acc, housed, enough, pending⟩ := order
  have plain : op.isReplace = false := by
    cases op with
    | replace => exact covered.elim
    | _ => rfl
  obtain ⟨acc', moved⟩ := sessionStep_moves step acc
  refine ⟨acc', ?_, sessionStep_releasable step covered acc enough,
    sessionStep_pending step plain acc pending⟩
  rcases moved with same | moves
  · exact same ▸ housed
  · have kept : s'.world.db.Funded ∧ s'.world.db.Housed := moves.preserves
      (P := fun db => db.Funded ∧ db.Housed)
      (fun _ _ _ step before =>
        ⟨moveStep_funded step before.1, moveStep_housed step before.1 before.2⟩)
      ⟨acc.funded, housed⟩
    exact kept.2

section Resolvable

variable {db : Db} {m : MarketId}

private theorem Db.heldByOrders_le_locked (db : Db) (m : MarketId) (user : UserId) :
    db.heldByOrders m user .funds ≤ db.locked user := by
  apply List.sum_le_sum
  intro e member
  show (if e.2.marketId = m ∧ e.2.isActive = true then e.2.gives user .funds else 0) ≤
    e.2.locks user
  have nonneg := OrderRow.locks_nonneg (Table.check (Table.mem_iff.mp member)) user
  split
  · next here => simp [OrderRow.gives, OrderRow.locks, here.2]
  · exact nonneg

private theorem Db.heldByOrders_eq_offered (funded : db.Funded) (user : UserId)
    (side : OriginalSide) :
    db.heldByOrders m user side.frozenAsset = db.offered ⟨user, m, side⟩ := by
  unfold heldByOrders offered Table.sum
  congr 1
  apply List.map_congr_left
  intro e member
  have asset := (funded e.1 e.2 (Table.mem_iff.mp member)).asset
  have kinds : e.2.frozenAssetType = side.frozenAsset ↔ e.2.bookType = side.sellType := by
    rw [asset]
    cases e.2.bookType <;> cases side <;>
      simp [BookType.frozenAsset, OriginalSide.sellType, OriginalSide.frozenAsset]
  have shares : side.frozenAsset ≠ .funds := by
    cases side <;> simp [OriginalSide.frozenAsset]
  unfold OrderRow.offers BookType.sold OrderRow.gives
  simp only [kinds, shares, if_false]
  grind

/-- An open market of tables in order is ready for its resolution. -/
private theorem World.InOrder.resolvable {w : World} (order : w.InOrder)
    (sound : w.db.MarketSound m)
    (opened : ∀ row, w.db.markets.get? m = some row →
      row.status = .active ∨ row.status = .suspended) : w.db.Resolvable m := by
  obtain ⟨row, got, ⟨yes, no, pairs, reserve⟩, _⟩ := sound
  simp only [MarketState.ofRow] at yes no pairs reserve
  constructor
  · exact ⟨row, got, opened row got, yes, no, reserve, by omega⟩
  · intro user r side stored
    have matched := order.pending ⟨user, m, side⟩
    rw [Db.heldByOrders_eq_offered order.accounted.funded, ← matched]
    simp [Holdings.pendingOf, stored]
  · intro user
    by_cases there : w.db.holdings.HasAccount user
    · exact (w.db.heldByOrders_le_locked m user).trans (order.releasable user there)
    · -- nobody without an account has an order with frozen cash
      have none : w.db.heldByOrders m user .funds = 0 := by
        apply Table.sum_eq_zero
        intro id r stored
        split
        · refine if_neg (fun mine => there ?_)
          have houses := order.housed id r stored
          simpa [Holdings.Houses, OrderRow.lodging, mine.2, mine.1] using houses
        · rfl
      rw [none]
      exact w.db.holdings.frozenOf_nonneg user

end Resolvable

private theorem Session.Opening.inOrder {s : Session} (opening : s.Opening)
    (idle : ∀ k, s.world.db.holdings.pendingOf k = 0) : s.world.InOrder := by
  refine ⟨opening.accounted, fun id r got => ?_, fun user _ => ?_, fun k => ?_⟩
  · have stored := Table.mem_iff.mpr got
    rw [opening.orders] at stored
    cases stored
  · have none : s.world.db.locked user = 0 := by
      simp [Db.locked, Table.sum, opening.orders]
    rw [none]
    exact s.world.db.holdings.frozenOf_nonneg user
  · rw [idle]
    simp [Db.offered, Table.sum, opening.orders]

/-- However a session of covered placements, cancels, batch cancels, privileged calls
and resolutions went: in every open market the reserve is a hundred cents for every
winning share, whichever side wins, and a resolution for that side goes through. -/
theorem session_markets_resolvable {s s' : Session} {ops : List SessionOp} (opening : s.Opening)
    (idle : ∀ k, s.world.db.holdings.pendingOf k = 0) (sound : s.world.db.MarketsSound)
    (run : Run (Guarded CoversFees sessionStep) s ops s') {m : MarketId} {row : MarketRow}
    (got : s'.world.db.markets.get? m = some row)
    (opened : row.status = .active ∨ row.status = .suspended) (outcome : OriginalSide) :
    row.reserveBalance = 100 * s'.world.db.holdings.volumeSum m outcome ∧
    ∃ db', AdminService.resolveMarket m outcome .none s'.world =
        (.ok (), { s'.world with db := db' }) ∧
      AdminService.Resolved m outcome s'.world.db db' := by
  have order : s'.world.InOrder := run.preserves (P := fun t => t.world.InOrder)
    (fun _ _ _ step before => sessionStep_inOrder step.2 step.1 before) (opening.inOrder idle)
  have market := (opening.soundSince sound run.ofGuarded).sound m row got
  have ready : s'.world.db.Resolvable m := order.resolvable market (fun row' got' => by
    obtain rfl := Option.some.inj (got.symm.trans got')
    exact opened)
  constructor
  · obtain ⟨row', got', ⟨yes, no, pairs, reserve⟩, _⟩ := market
    obtain rfl := Option.some.inj (got.symm.trans got')
    simp only [MarketState.ofRow] at yes no pairs reserve
    cases outcome
    · rw [reserve, yes]
    · rw [reserve, pairs, no]
  · obtain ⟨db', done, resolved⟩ : ∃ db',
        AdminService.resolveInTransaction m outcome s'.world.db = .ok db' ∧
          AdminService.Resolved m outcome s'.world.db db' :=
      AdminService.resolveInTransaction_succeeds ready
    refine ⟨db', ?_, resolved⟩
    have listed : ¬ (row.status ≠ .active ∧ row.status ≠ .suspended) := by
      rintro ⟨notActive, notSuspended⟩
      exact opened.elim notActive notSuspended
    unfold AdminService.resolveMarket
    simp only [reduceCtorEq, if_false, got, if_neg listed, done]
    rfl

/-- One of four shares on offer is sold, then the market is resolved for YES. -/
theorem pairMarket_resolvable : ∃ s' row, Run (Guarded CoversFees sessionStep) pairMarket
      [sellFourYes, buyOneYes] s' ∧ s'.world.db.markets.get? "m" = some row ∧
    row.reserveBalance = 100 * s'.world.db.holdings.volumeSum "m" .yes ∧
    ∃ db', AdminService.resolveMarket "m" .yes .none s'.world =
      (.ok (), { s'.world with db := db' }) := by
  have sells : CoversFees pairMarket sellFourYes :=
    ⟨by decide, fun _ market _ type => by cases type⟩
  have buys : CoversFees (pairMarket.next sellFourYes) buyOneYes := by
    refine ⟨by decide, fun _ market got _ => ?_⟩
    have stored : (pairMarket.next sellFourYes).world.db.markets.get? "m" =
        some ⟨.active, 2000, 0, 20, 20, 20, none⟩ := by decide +kernel
    obtain rfl := Option.some.inj (stored.symm.trans got)
    decide +kernel
  have run : Run (Guarded CoversFees sessionStep) pairMarket [sellFourYes, buyOneYes]
      ((pairMarket.next sellFourYes).next buyOneYes) := .cons ⟨sells, rfl⟩ (.single ⟨buys, rfl⟩)
  have idle : ∀ k, pairMarket.world.db.holdings.pendingOf k = 0 := by
    intro k
    have zero : ∀ e ∈ pairMarket.world.db.holdings.positions.rows,
        e.2.yes.pendingSell = 0 ∧ e.2.no.pendingSell = 0 := by decide
    unfold Holdings.pendingOf
    cases got : pairMarket.world.db.holdings.positions.get? (k.userId, k.marketId) with
    | none => rfl
    | some r =>
      obtain ⟨yes, no⟩ := zero _ (Table.mem_iff.mpr got)
      cases side : k.side
      · exact yes
      · exact no
  have active : (((pairMarket.next sellFourYes).next buyOneYes).world.db.markets.get? "m").map
      MarketRow.status = some .active := by decide +kernel
  obtain ⟨row, got, status⟩ := Option.map_eq_some_iff.mp active
  obtain ⟨reserve, db', resolved, _⟩ := session_markets_resolvable pairMarket_opening idle
    pairMarket_sound run got (Or.inl status) .yes
  exact ⟨_, row, run, got, reserve, db', resolved⟩

end PredictionMarket
