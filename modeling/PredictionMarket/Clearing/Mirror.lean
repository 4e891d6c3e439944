/- PredictionMarket/Clearing/Mirror
   digest: Clearing treats YES and NO alike: a mirrored trade settles to the mirrored state. -/

import PredictionMarket.Clearing.Inversion
import PredictionMarket.Library.RowActions
import PredictionMarket.Matching.Mirror

set_option autoImplicit false
set_option relaxedAutoImplicit false

namespace PredictionMarket

open Library

def PositionRow.mirror (r : PositionRow) : PositionRow := ⟨r.no, r.yes⟩

/-- All balances, and every position with its YES and NO columns exchanged. -/
def Holdings.mirror (h : Holdings) : Holdings where
  accounts := h.accounts
  positions :=
    { rows := h.positions.rows.map (fun e => (e.1, e.2.mirror))
      nodup := by
        rw [List.map_map]
        exact h.positions.nodup
      valid := by
        intro e member
        obtain ⟨a, stored, rfl⟩ := List.mem_map.mp member
        exact And.symm (h.positions.valid a stored) }

structure Stored where
  accounts : UserId → Option AccountRow
  positions : UserId × MarketId → Option PositionRow

def Holdings.stored (h : Holdings) : Stored := ⟨h.accounts.get?, h.positions.get?⟩

def Stored.mirror (v : Stored) : Stored :=
  { v with positions := fun key => (v.positions key).map PositionRow.mirror }

structure Settled (α : Type) where
  pnl : α
  market : MarketState
  stored : Stored

def settled {α : Type} (result : Except Err (α × MarketState × Holdings)) : Option (Settled α) :=
  result.toOption.map (fun x => ⟨x.1, x.2.1, x.2.2.stored⟩)

def Settled.mirror (s : Settled RealizedPnl) : Settled RealizedPnl :=
  { s with pnl := s.pnl.swap, stored := s.stored.mirror }

namespace Stored

def account (userId : UserId) (act : Option AccountRow → Option (Option AccountRow))
    (v : Stored) : Option Stored :=
  (actAt userId act v.accounts).map (fun rows => { v with accounts := rows })

def position (key : UserId × MarketId) (act : Option PositionRow → Option (Option PositionRow))
    (v : Stored) : Option Stored :=
  (actAt key act v.positions).map (fun rows => { v with positions := rows })

end Stored

def debited (cost : Int) : Option AccountRow → Option (Option AccountRow) :=
  Table.rowUpdate? AccountRow.Check (fun a =>
    { a with
      frozenBalance := a.frozenBalance - cost
      availableBalance := a.availableBalance + 0 })

def credited (amount : Int) : Option AccountRow → Option (Option AccountRow) :=
  Table.rowUpdate? AccountRow.Check (fun a =>
    { a with availableBalance := a.availableBalance + amount })

def paid (amount : Int) (row : Option AccountRow) : Option (Option AccountRow) :=
  row.bind (fun r => credited amount (some r))

def bought (side : OriginalSide) (qty cost : Int) :
    Option PositionRow → Option (Option PositionRow) :=
  Table.rowUpsert? PositionRow.Check (PositionRow.empty.modify side (fun c => c.bought qty cost))
    (fun r => r.modify side (fun c => c.bought qty cost))

def sold (side : OriginalSide) (qty released : Int) :
    Option PositionRow → Option (Option PositionRow) :=
  Table.rowUpdate? PositionRow.Check (fun r => r.modify side (fun c => c.sold qty released))

def seen (result : Except Err Holdings) : Option Stored := result.toOption.map Holdings.stored

section Statements

variable {h : Holdings} {userId : UserId} {marketId : MarketId}

private theorem settled_bind {α : Type} {x : Except Err Holdings} {v : Option Stored}
    {f : Holdings → Except Err (α × MarketState × Holdings)} {g : Stored → Option (Settled α)}
    (first : seen x = v) (same : ∀ h', settled (f h') = g h'.stored) :
    settled (x >>= f) = v.bind g := by
  subst first
  cases x with
  | error e => rfl
  | ok h' => exact same h'

private theorem seen_updateAccount (f : AccountRow → AccountRow) : seen (h.updateAccount userId f) =
    h.stored.account userId (Table.rowUpdate? AccountRow.Check f) := by
  have row := Table.update?_row h.accounts userId f
  change _ = Option.map _ (actAt userId (Table.rowUpdate? AccountRow.Check f) h.accounts.get?)
  rw [actAt, ← row, Holdings.updateAccount]
  cases h.accounts.update? userId f <;> rfl

private theorem seen_updatePosition (f : PositionRow → PositionRow) :
    seen (h.updatePosition userId marketId f) =
      h.stored.position (userId, marketId) (Table.rowUpdate? PositionRow.Check f) := by
  have row := Table.update?_row h.positions (userId, marketId) f
  change _ = Option.map _
    (actAt (userId, marketId) (Table.rowUpdate? PositionRow.Check f) h.positions.get?)
  rw [actAt, ← row, Holdings.updatePosition]
  cases h.positions.update? (userId, marketId) f <;> rfl

private theorem seen_unfreezeDebit (cost : Int) :
    seen (h.unfreezeDebit userId cost 0) = h.stored.account userId (debited cost) :=
  seen_updateAccount _

private theorem seen_addBalance (amount : Int) :
    seen (h.addBalance userId amount) = h.stored.account userId (credited amount) :=
  seen_updateAccount _

private theorem seen_reduceVolume (side : OriginalSide) (qty released : Int) :
    seen (h.reduceVolume side userId marketId qty released) =
      h.stored.position (userId, marketId) (sold side qty released) :=
  seen_updatePosition _

private theorem seen_addVolume (side : OriginalSide) (qty cost : Int) :
    seen (h.addVolume side userId marketId qty cost) =
      h.stored.position (userId, marketId) (bought side qty cost) := by
  have row := Table.upsert?_row h.positions (userId, marketId)
    (PositionRow.empty.modify side (fun c => c.bought qty cost))
    (fun r => r.modify side (fun c => c.bought qty cost))
  change _ = Option.map _ (actAt (userId, marketId) (bought side qty cost) h.positions.get?)
  rw [actAt, bought, ← row, Holdings.addVolume]
  cases h.positions.upsert? (userId, marketId)
    (PositionRow.empty.modify side (fun c => c.bought qty cost))
    (fun r => r.modify side (fun c => c.bought qty cost)) <;> rfl

private theorem seen_addBalanceTo (amount : Int) (missing : String) :
    seen (h.addBalanceTo userId amount missing) =
      h.stored.account userId (paid amount) := by
  rw [Holdings.addBalanceTo]
  cases got : h.accounts.get? userId with
  | none =>
    change none = Option.map _ (Option.map _ (Option.bind (h.accounts.get? userId) _))
    rw [got]
    rfl
  | some r =>
    change seen (h.addBalance userId amount) =
      Option.map _ (Option.map _ (Option.bind (h.accounts.get? userId) _))
    rw [seen_addBalance, got]
    change Option.map _ (Option.map _ (credited amount (h.accounts.get? userId))) = _
    rw [got]
    rfl

end Statements

section Mirrored

variable {v : Stored} {userId : UserId} {key : UserId × MarketId}

private theorem stored_mirror (h : Holdings) : h.mirror.stored = h.stored.mirror := by
  have rows : h.mirror.positions.get? = fun key =>
      (h.positions.get? key).map PositionRow.mirror := by
    funext key
    simp only [Table.get?, Holdings.mirror, List.find?_map, Function.comp_def, Option.map_map]
  rw [Holdings.stored, rows]
  rfl

private theorem PositionRow.mirror_modify (r : PositionRow) (side : OriginalSide)
    (f : Holding → Holding) :
    r.mirror.modify side.other f = (r.modify side f).mirror := by
  cases side <;> rfl

private theorem PositionRow.holding_mirror (r : PositionRow) (side : OriginalSide) :
    r.mirror.holding side.other = r.holding side := by
  cases side <;> rfl

private theorem PositionRow.check_mirror (r : PositionRow) : r.mirror.Check ↔ r.Check := and_comm

private theorem bought_mirror (side : OriginalSide) (qty cost : Int) (row : Option PositionRow) :
    bought side.other qty cost (row.map PositionRow.mirror) =
      (bought side qty cost row).map (Option.map PositionRow.mirror) := by
  have empty : PositionRow.empty.modify side.other (fun c => c.bought qty cost) =
      (PositionRow.empty.modify side (fun c => c.bought qty cost)).mirror :=
    PositionRow.mirror_modify .empty side _
  rw [bought, empty]
  exact rowUpsert?_map (fun r => r.mirror_modify side _) PositionRow.check_mirror _ row

private theorem sold_mirror (side : OriginalSide) (qty released : Int) (row : Option PositionRow) :
    sold side.other qty released (row.map PositionRow.mirror) =
      (sold side qty released row).map (Option.map PositionRow.mirror) :=
  rowUpdate?_map (fun r => r.mirror_modify side _) PositionRow.check_mirror row

private theorem Stored.account_mirror (act : Option AccountRow → Option (Option AccountRow)) :
    v.mirror.account userId act = (v.account userId act).map Stored.mirror := by
  unfold Stored.account
  rw [Option.map_map]
  rfl

private theorem Stored.position_mirror {act act' : Option PositionRow → Option (Option PositionRow)}
    (carry : ∀ row, act' (row.map PositionRow.mirror) =
      (act row).map (Option.map PositionRow.mirror)) :
    v.mirror.position key act' = (v.position key act).map Stored.mirror := by
  unfold Stored.position
  have rows : actAt key act' (fun x => (v.positions x).map PositionRow.mirror) =
      (actAt key act v.positions).map (fun rows x => (rows x).map PositionRow.mirror) :=
    actAt_map carry
  change Option.map _ (actAt key act' (fun x => (v.positions x).map PositionRow.mirror)) = _
  rw [rows, Option.map_map, Option.map_map]
  rfl

end Mirrored

section Transfer

variable (side : OriginalSide) (payer holder : UserId) (unitPrice : Int) (trade : TradeResult)
  (market : MarketState)

def transferred (v : Stored) : Option (Settled Int) :=
  (v.account payer (debited (unitPrice * trade.quantity))).bind fun v =>
  (v.position (payer, trade.marketId)
    (bought side trade.quantity (unitPrice * trade.quantity))).bind fun v =>
  (v.positions (holder, trade.marketId)).bind fun row =>
  let costReleased :=
    calcReleasedCost (row.holding side).costSum (row.holding side).volume trade.quantity
  (v.position (holder, trade.marketId) (sold side trade.quantity costReleased)).bind fun v =>
  (v.account holder (credited (unitPrice * trade.quantity))).map fun v =>
    ⟨unitPrice * trade.quantity - costReleased,
      { market with pnlPool := market.pnlPool - (unitPrice * trade.quantity - costReleased) }, v⟩

private theorem settled_clearTransfer (missing : String) (h : Holdings) :
    settled (clearTransfer side payer holder unitPrice missing trade market h) =
      transferred side payer holder unitPrice trade market h.stored := by
  unfold clearTransfer transferred
  refine settled_bind (seen_unfreezeDebit _) (fun h => ?_)
  refine settled_bind (seen_addVolume _ _ _) (fun h => ?_)
  cases got : h.positions.get? (holder, trade.marketId) with
  | none =>
    rw [show h.stored.positions (holder, trade.marketId) = none from got]
    rfl
  | some row =>
    rw [show h.stored.positions (holder, trade.marketId) = some row from got, Option.bind_some]
    refine settled_bind (seen_reduceVolume _ _ _) (fun h => ?_)
    rw [Option.map_eq_bind]
    exact settled_bind (seen_addBalance _) (fun h => rfl)

/-- The two transfers are one transfer, of one kind of shares or the other. -/
private theorem transferred_mirror (mirrored : TradeResult)
    (market_ : mirrored.marketId = trade.marketId)
    (quantity : mirrored.quantity = trade.quantity) (v : Stored) :
    transferred side.other payer holder unitPrice mirrored market v.mirror =
      (transferred side payer holder unitPrice trade market v).map
        (fun s => { s with stored := s.stored.mirror }) := by
  unfold transferred
  rw [market_, quantity, Stored.account_mirror]
  cases v.account payer (debited (unitPrice * trade.quantity)) with
  | none => rfl
  | some v =>
    rw [Option.map_some, Option.bind_some, Option.bind_some,
      Stored.position_mirror (bought_mirror side trade.quantity (unitPrice * trade.quantity))]
    cases v.position (payer, trade.marketId)
      (bought side trade.quantity (unitPrice * trade.quantity)) with
    | none => rfl
    | some v =>
      rw [Option.map_some, Option.bind_some, Option.bind_some,
        show v.mirror.positions (holder, trade.marketId) =
          (v.positions (holder, trade.marketId)).map PositionRow.mirror from rfl]
      cases v.positions (holder, trade.marketId) with
      | none => rfl
      | some row =>
        rw [Option.map_some, Option.bind_some, Option.bind_some, PositionRow.holding_mirror]
        simp only
        rw [Stored.position_mirror (sold_mirror side trade.quantity _)]
        cases v.position (holder, trade.marketId) (sold side trade.quantity (calcReleasedCost
          (row.holding side).costSum (row.holding side).volume trade.quantity)) with
        | none => rfl
        | some v =>
          rw [Option.map_some, Option.bind_some, Option.bind_some, Stored.account_mirror]
          cases v.account holder (credited (unitPrice * trade.quantity)) <;> rfl

end Transfer

namespace Stored

def leg (userId : UserId) (act : Option AccountRow → Option (Option AccountRow))
    (key : UserId × MarketId) (change : Option PositionRow → Option (Option PositionRow))
    (v : Stored) : Option Stored :=
  (v.account userId act).bind (fun v => v.position key change)

variable {v : Stored} {a b : UserId} {act act' : Option AccountRow → Option (Option AccountRow)}
  {k j : UserId × MarketId} {change change' : Option PositionRow → Option (Option PositionRow)}

private theorem leg_rows : v.leg a act k change = (actAt a act v.accounts).bind (fun rows =>
    (actAt k change v.positions).map (fun rows' => ⟨rows, rows'⟩)) := by
  unfold leg account position
  rw [Option.bind_map]
  rfl

private theorem leg_eq : v.leg a act k change = (v.position k change).bind
    (fun v => v.account a act) := by
  rw [leg_rows]
  unfold account position
  rw [Option.bind_map]
  simp only [Function.comp_def]
  cases actAt a act v.accounts <;> cases actAt k change v.positions <;> rfl

private theorem leg_comm
    (accounts : (actAt a act v.accounts).bind (actAt b act') =
      (actAt b act' v.accounts).bind (actAt a act))
    (positions : (actAt k change v.positions).bind (actAt j change') =
      (actAt j change' v.positions).bind (actAt k change)) :
    (v.leg a act k change).bind (fun v => v.leg b act' j change') =
      (v.leg b act' j change').bind (fun v => v.leg a act k change) := by
  have apart : ∀ {a b : UserId} {act act' : Option AccountRow → Option (Option AccountRow)}
      {k j : UserId × MarketId}
      {change change' : Option PositionRow → Option (Option PositionRow)},
      (v.leg a act k change).bind (fun v => v.leg b act' j change') =
        ((actAt a act v.accounts).bind (actAt b act')).bind (fun rows =>
          ((actAt k change v.positions).bind (actAt j change')).map (fun rows' =>
            ⟨rows, rows'⟩)) := by
    intro a b act act' k j change change'
    simp only [leg_rows]
    cases actAt a act v.accounts with
    | none => rfl
    | some rows =>
      cases actAt k change v.positions with
      | none =>
        simp only [Option.bind_some, Option.map_none, Option.bind_none]
        cases actAt b act' rows <;> rfl
      | some rows' => rfl
  rw [apart, apart, accounts, positions]

private theorem leg_mirror (carry : ∀ row, change' (row.map PositionRow.mirror) =
    (change row).map (Option.map PositionRow.mirror)) :
    v.mirror.leg a act k change' = (v.leg a act k change).map mirror := by
  unfold leg
  rw [account_mirror]
  cases v.account a act with
  | none => rfl
  | some v =>
    rw [Option.map_some, Option.bind_some, Option.bind_some]
    exact position_mirror carry

end Stored

def SameSign (x y : Int) : Prop := 0 ≤ x ∧ 0 ≤ y ∨ x ≤ 0 ∧ y ≤ 0

private theorem sameSign_of_price {trade : TradeResult}
    (range : 1 ≤ trade.price ∧ trade.price ≤ 99) :
    SameSign (trade.price * trade.quantity) ((100 - trade.price) * trade.quantity) := by
  obtain nonneg | neg := le_total 0 trade.quantity
  · exact Or.inl ⟨mul_nonneg (by omega) nonneg, mul_nonneg (by omega) nonneg⟩
  · exact Or.inr ⟨mul_nonpos_of_nonneg_of_nonpos (by omega) neg,
      mul_nonpos_of_nonneg_of_nonpos (by omega) neg⟩

section Exchange

variable {h : Holdings} {a b : UserId} {k j : UserId × MarketId} {x y : Int}

private theorem debited_comm (sign : SameSign x y) :
    (actAt a (debited x) h.stored.accounts).bind (actAt b (debited y)) =
      (actAt b (debited y) h.stored.accounts).bind (actAt a (debited x)) := by
  unfold debited
  refine actAt_comm (fun _ => rowUpdate?_comm ?_ ?_)
  · intro r
    simp only [AccountRow.mk.injEq, true_and, and_true]
    omega
  · intro r got
    have valid : r.Check := Table.check got
    simp only [SameSign, AccountRow.Check] at sign valid ⊢
    omega

private theorem paid_comm (sign : SameSign x y) :
    (actAt a (paid x) h.stored.accounts).bind (actAt b (paid y)) =
      (actAt b (paid y) h.stored.accounts).bind (actAt a (paid x)) := by
  refine actAt_comm (fun _ => ?_)
  cases got : h.stored.accounts a with
  | none => rfl
  | some r =>
    have swap : (credited x (some r)).bind (credited y) =
        (credited y (some r)).bind (credited x) := by
      unfold credited
      refine rowUpdate?_comm ?_ ?_
      · intro r
        simp only [AccountRow.mk.injEq, and_true]
        omega
      · intro r' here
        obtain rfl := Option.some.inj here
        have valid : r.Check := Table.check got
        simp only [SameSign, AccountRow.Check] at sign valid ⊢
        omega
    have some_ : ∀ x y : Int, (paid x (some r)).bind (paid y) =
        (credited x (some r)).bind (credited y) := by
      intro x y
      simp only [paid, Option.bind_some, credited, Table.rowUpdate?]
      split <;> rfl
    rw [some_, some_, swap]

private theorem bought_comm (qty : Int) :
    (actAt k (bought .yes qty x) h.stored.positions).bind (actAt j (bought .no qty y)) =
      (actAt j (bought .no qty y) h.stored.positions).bind (actAt k (bought .yes qty x)) := by
  refine actAt_comm (fun _ => rowUpsert?_comm
    (f := fun r : PositionRow => r.modify .yes (fun c => c.bought qty x))
    (g := fun r => r.modify .no (fun c => c.bought qty y)) (e := .empty) (fun r => rfl) ?_)
  intro r got
  have valid : r.Check := Table.check got
  simp only [PositionRow.Check, PositionRow.modify] at valid ⊢
  tauto

private theorem sold_comm (qty : Int) :
    (actAt k (sold .yes qty x) h.stored.positions).bind (actAt j (sold .no qty y)) =
      (actAt j (sold .no qty y) h.stored.positions).bind (actAt k (sold .yes qty x)) := by
  unfold sold
  refine actAt_comm (fun _ => rowUpdate?_comm (fun r => rfl) ?_)
  intro r got
  have valid : r.Check := Table.check got
  simp only [PositionRow.Check, PositionRow.modify] at valid ⊢
  tauto

end Exchange

section Scenarios

variable (trade : TradeResult) (market : MarketState) (h : Holdings)

private theorem settled_clearMint : settled (clearMint trade market h) =
    ((h.stored.leg trade.buyUserId (debited (trade.price * trade.quantity))
      (trade.buyUserId, trade.marketId)
      (bought .yes trade.quantity (trade.price * trade.quantity))).bind (fun v =>
        v.leg trade.sellUserId (debited ((100 - trade.price) * trade.quantity))
          (trade.sellUserId, trade.marketId)
          (bought .no trade.quantity ((100 - trade.price) * trade.quantity)))).map (fun v =>
      ⟨(none, none),
        { market with
          reserveBalance := market.reserveBalance + trade.quantity * 100
          totalYesShares := market.totalYesShares + trade.quantity
          totalNoShares := market.totalNoShares + trade.quantity }, v⟩) := by
  unfold clearMint Stored.leg
  rw [Option.map_bind, Option.bind_assoc]
  refine settled_bind (seen_unfreezeDebit _) (fun h => ?_)
  refine settled_bind (seen_addVolume _ _ _) (fun h => ?_)
  simp only [Function.comp_def]
  rw [Option.map_bind]
  refine settled_bind (seen_unfreezeDebit _) (fun h => ?_)
  simp only [Function.comp_def]
  rw [Option.map_eq_bind]
  exact settled_bind (seen_addVolume _ _ _) (fun h => rfl)

private theorem settled_clearBurn : settled (clearBurn trade market h) =
    (h.stored.positions (trade.sellUserId, trade.marketId)).bind fun yesRow =>
    (h.stored.positions (trade.buyUserId, trade.marketId)).bind fun noRow =>
      let yesCostRel := calcReleasedCost yesRow.yes.costSum yesRow.yes.volume trade.quantity
      let noCostRel := calcReleasedCost noRow.no.costSum noRow.no.volume trade.quantity
      let yesProceeds := trade.price * trade.quantity
      let noProceeds := (100 - trade.price) * trade.quantity
      ((h.stored.leg trade.sellUserId (paid yesProceeds) (trade.sellUserId, trade.marketId)
        (sold .yes trade.quantity yesCostRel)).bind (fun v =>
          v.leg trade.buyUserId (paid noProceeds) (trade.buyUserId, trade.marketId)
            (sold .no trade.quantity noCostRel))).map (fun v =>
        ⟨(some (noProceeds - noCostRel), some (yesProceeds - yesCostRel)),
          { market with
            reserveBalance := market.reserveBalance - 100 * trade.quantity
            totalYesShares := market.totalYesShares - trade.quantity
            totalNoShares := market.totalNoShares - trade.quantity
            pnlPool := market.pnlPool - (yesProceeds - yesCostRel) -
              (noProceeds - noCostRel) }, v⟩) := by
  unfold clearBurn
  cases first : h.positions.get? (trade.sellUserId, trade.marketId) with
  | none =>
    rw [show h.stored.positions (trade.sellUserId, trade.marketId) = none from first]
    rfl
  | some yesRow =>
    rw [show h.stored.positions (trade.sellUserId, trade.marketId) = some yesRow from first,
      Option.bind_some]
    cases second : h.positions.get? (trade.buyUserId, trade.marketId) with
    | none =>
      rw [show h.stored.positions (trade.buyUserId, trade.marketId) = none from second]
      rfl
    | some noRow =>
      rw [show h.stored.positions (trade.buyUserId, trade.marketId) = some noRow from second,
        Option.bind_some]
      simp only [Stored.leg_eq]
      rw [Option.map_bind, Option.bind_assoc]
      refine settled_bind (seen_reduceVolume _ _ _) (fun h => ?_)
      refine settled_bind (seen_addBalanceTo _ _) (fun h => ?_)
      simp only [Function.comp_def]
      rw [Option.map_bind]
      refine settled_bind (seen_reduceVolume _ _ _) (fun h => ?_)
      simp only [Function.comp_def]
      rw [Option.map_eq_bind]
      exact settled_bind (seen_addBalanceTo _ _) (fun h => rfl)

private theorem legs_mirror {v : Stored} {a b : UserId}
    {act act' : Option AccountRow → Option (Option AccountRow)} {k j : UserId × MarketId}
    {f f' g g' : Option PositionRow → Option (Option PositionRow)}
    (first : ∀ row, f' (row.map PositionRow.mirror) = (f row).map (Option.map PositionRow.mirror))
    (second : ∀ row, g' (row.map PositionRow.mirror) =
      (g row).map (Option.map PositionRow.mirror)) :
    (v.mirror.leg a act k f').bind (fun v => v.leg b act' j g') =
      ((v.leg a act k f).bind (fun v => v.leg b act' j g)).map Stored.mirror := by
  rw [Stored.leg_mirror first]
  cases v.leg a act k f with
  | none => rfl
  | some v => exact Stored.leg_mirror second

private theorem clearMint_mirror (range : 1 ≤ trade.price ∧ trade.price ≤ 99) :
    settled (clearMint trade.mirror market h.mirror) =
      (settled (clearMint trade market h)).map Settled.mirror := by
  have back : 100 - (100 - trade.price) = trade.price := by omega
  have yes : ∀ x row, bought .yes trade.quantity x (row.map PositionRow.mirror) =
      (bought .no trade.quantity x row).map (Option.map PositionRow.mirror) :=
    bought_mirror .no trade.quantity
  have no : ∀ x row, bought .no trade.quantity x (row.map PositionRow.mirror) =
      (bought .yes trade.quantity x row).map (Option.map PositionRow.mirror) :=
    bought_mirror .yes trade.quantity
  rw [settled_clearMint, settled_clearMint, stored_mirror]
  simp only [TradeResult.mirror, back]
  rw [legs_mirror (yes _) (no _),
    ← Stored.leg_comm (debited_comm (sameSign_of_price range)) (bought_comm _), Option.map_map,
    Option.map_map]
  rfl

private theorem clearBurn_mirror (range : 1 ≤ trade.price ∧ trade.price ≤ 99) :
    settled (clearBurn trade.mirror market h.mirror) =
      (settled (clearBurn trade market h)).map Settled.mirror := by
  have back : 100 - (100 - trade.price) = trade.price := by omega
  have yes : ∀ x row, sold .yes trade.quantity x (row.map PositionRow.mirror) =
      (sold .no trade.quantity x row).map (Option.map PositionRow.mirror) :=
    sold_mirror .no trade.quantity
  have no : ∀ x row, sold .no trade.quantity x (row.map PositionRow.mirror) =
      (sold .yes trade.quantity x row).map (Option.map PositionRow.mirror) :=
    sold_mirror .yes trade.quantity
  rw [settled_clearBurn, settled_clearBurn, stored_mirror]
  simp only [TradeResult.mirror, back]
  have rows : ∀ key, h.stored.mirror.positions key =
      (h.stored.positions key).map PositionRow.mirror := fun _ => rfl
  simp only [rows]
  cases h.stored.positions (trade.sellUserId, trade.marketId) with
  | none => cases h.stored.positions (trade.buyUserId, trade.marketId) <;> rfl
  | some yesRow =>
    cases h.stored.positions (trade.buyUserId, trade.marketId) with
    | none => rfl
    | some noRow =>
      simp only [Option.map_some, Option.bind_some, PositionRow.mirror]
      rw [legs_mirror (yes _) (no _),
        ← Stored.leg_comm (paid_comm (sameSign_of_price range)) (sold_comm _), Option.map_map,
        Option.map_map]
      -- the pool loses the two profits in the other order
      have pool : ∀ x y : Int, market.pnlPool - x - y = market.pnlPool - y - x :=
        fun x y => sub_right_comm _ x y
      simp only [Function.comp_def, Settled.mirror, Prod.swap_prod_mk]
      rw [pool]

private theorem settled_clearTransferYes : settled (clearTransferYes trade market h) =
    (transferred .yes trade.buyUserId trade.sellUserId trade.price trade market h.stored).map
      (fun s => ⟨(none, some s.pnl), s.market, s.stored⟩) := by
  rw [← settled_clearTransfer .yes trade.buyUserId trade.sellUserId trade.price trade market
    s!"Seller position not found: {trade.sellUserId}" h]
  unfold clearTransferYes
  cases clearTransfer .yes trade.buyUserId trade.sellUserId trade.price
    s!"Seller position not found: {trade.sellUserId}" trade market h <;> rfl

private theorem settled_clearTransferNo : settled (clearTransferNo trade market h) =
    (transferred .no trade.sellUserId trade.buyUserId (100 - trade.price) trade market
      h.stored).map (fun s => ⟨(some s.pnl, none), s.market, s.stored⟩) := by
  rw [← settled_clearTransfer .no trade.sellUserId trade.buyUserId (100 - trade.price) trade market
    s!"Buyer NO position not found: {trade.buyUserId}" h]
  unfold clearTransferNo
  cases clearTransfer .no trade.sellUserId trade.buyUserId (100 - trade.price)
    s!"Buyer NO position not found: {trade.buyUserId}" trade market h <;> rfl

private theorem clearTransferYes_mirror : settled (clearTransferNo trade.mirror market h.mirror) =
    (settled (clearTransferYes trade market h)).map Settled.mirror := by
  have back : 100 - (100 - trade.price) = trade.price := by omega
  have mirrored := transferred_mirror .yes trade.buyUserId trade.sellUserId trade.price trade market
    trade.mirror rfl rfl h.stored
  rw [settled_clearTransferNo, settled_clearTransferYes, stored_mirror]
  change Option.map _ (transferred OriginalSide.yes.other trade.buyUserId trade.sellUserId
    (100 - (100 - trade.price)) trade.mirror market h.stored.mirror) = _
  rw [back, mirrored, Option.map_map, Option.map_map]
  rfl

private theorem clearTransferNo_mirror : settled (clearTransferYes trade.mirror market h.mirror) =
    (settled (clearTransferNo trade market h)).map Settled.mirror := by
  have mirrored := transferred_mirror .no trade.sellUserId trade.buyUserId (100 - trade.price) trade
    market trade.mirror rfl rfl h.stored
  rw [settled_clearTransferYes, settled_clearTransferNo, stored_mirror]
  change Option.map _ (transferred OriginalSide.no.other trade.sellUserId trade.buyUserId
    (100 - trade.price) trade.mirror market h.stored.mirror) = _
  rw [mirrored, Option.map_map, Option.map_map]
  rfl

end Scenarios

/-- Settling a mirrored trade is settling the trade, seen in the mirror. -/
theorem settleTrade_mirror {trade : TradeResult} (market : MarketState) (h : Holdings)
    (range : 1 ≤ trade.price ∧ trade.price ≤ 99)
    (types : trade.buyBookType.direction = .buy ∧ trade.sellBookType.direction = .sell) :
    settled (settleTrade trade.mirror market h.mirror) =
      (settled (settleTrade trade market h)).map Settled.mirror := by
  cases buyer : trade.buyBookType with
  | nativeSell => simp [buyer, BookType.direction] at types
  | syntheticSell => simp [buyer, BookType.direction] at types
  | nativeBuy =>
    cases seller : trade.sellBookType with
    | nativeBuy => simp [seller, BookType.direction] at types
    | syntheticBuy => simp [seller, BookType.direction] at types
    | syntheticSell =>
      simpa [settleTrade, TradeResult.mirror, buyer, seller, BookType.mirror, determineScenario]
        using clearMint_mirror trade market h range
    | nativeSell =>
      simpa [settleTrade, TradeResult.mirror, buyer, seller, BookType.mirror, determineScenario]
        using clearTransferYes_mirror trade market h
  | syntheticBuy =>
    cases seller : trade.sellBookType with
    | nativeBuy => simp [seller, BookType.direction] at types
    | syntheticBuy => simp [seller, BookType.direction] at types
    | nativeSell =>
      simpa [settleTrade, TradeResult.mirror, buyer, seller, BookType.mirror, determineScenario]
        using clearBurn_mirror trade market h range
    | syntheticSell =>
      simpa [settleTrade, TradeResult.mirror, buyer, seller, BookType.mirror, determineScenario]
        using clearTransferNo_mirror trade market h

section Example

private def frozenYesShares : Holdings where
  accounts := .ofRows [("alice", ⟨0, 600, true⟩), ("bob", ⟨0, 0, true⟩)]
  positions := .ofRows [(("bob", "m"), ⟨⟨10, 500, 10⟩, .empty⟩)]

private def yesSale : TradeResult :=
  ⟨1, 2, "alice", "bob", "m", 60, 10, .nativeBuy, .nativeSell, 60, 2, 1⟩

private def tenPairMarket : MarketState := ⟨"m", .active, 1000, 0, 10, 10, 20⟩

end Example

/-- In the mirror, alice buys ten NO shares for 60 cents each. -/
theorem yes_sale_settles_in_mirror :
    settled (settleTrade yesSale.mirror tenPairMarket frozenYesShares.mirror) =
        (settled (settleTrade yesSale tenPairMarket frozenYesShares)).map Settled.mirror ∧
      (settled (settleTrade yesSale tenPairMarket frozenYesShares)).isSome = true :=
  ⟨settleTrade_mirror tenPairMarket frozenYesShares (by decide) (by decide), rfl⟩

end PredictionMarket
