/- PredictionMarket/Engine/AverageCost
   digest: The average cost of a position is a possible price; no cost column fails its CHECK. -/

import PredictionMarket.Clearing.Columns
import PredictionMarket.Engine.PrivilegedMint
import PredictionMarket.Engine.Resolution
import PredictionMarket.Library.AverageCost

set_option autoImplicit false
set_option relaxedAutoImplicit false

namespace PredictionMarket

open Library

inductive PositionEffect
  | bought (side : OriginalSide) (price qty : Int)
  | sold (side : OriginalSide) (qty : Int)
  | offered (side : OriginalSide) (qty : Int)
  | netted
  | minted (qty : Int)
  | burned (qty : Int)
  | settled
  deriving DecidableEq

namespace PositionEffect

def apply (r : PositionRow) : PositionEffect → PositionRow
  | .bought side price qty => r.modify side (fun c => c.bought qty (price * qty))
  | .sold side qty => r.modify side (fun c => c.sold qty (calcReleasedCost c.costSum c.volume qty))
  | .offered side qty => r.modify side (fun c => { c with pendingSell := c.pendingSell + qty })
  | .netted =>
    if r.nettable ≤ 0 then r
    else r.netted r.nettable (calcReleasedCost r.yes.costSum r.yes.volume r.nettable)
      (calcReleasedCost r.no.costSum r.no.volume r.nettable)
  | .minted qty =>
    ⟨r.yes.bought qty (qty * INITIAL_FAIR_COST_PER_SHARE),
      r.no.bought qty (qty * INITIAL_FAIR_COST_PER_SHARE)⟩
  | .burned qty => r.netted qty (costRelease r.yes qty) (costRelease r.no qty)
  | .settled => .empty

/-- Prices are those of the book, quantities are positive, and nobody gives up more shares
than it holds. -/
def Admitted (r : PositionRow) : PositionEffect → Prop
  | .bought _ price qty => (1 ≤ price ∧ price ≤ 99) ∧ 0 < qty
  | .sold side qty => 0 < qty ∧ qty ≤ (r.holding side).volume
  | .minted qty => 0 < qty
  | .burned qty => 0 < qty ∧ qty ≤ r.nettable
  | .offered _ _ | .netted | .settled => True

instance : ∀ (r : PositionRow) (e : PositionEffect), Decidable (e.Admitted r)
  | _, .bought _ price qty =>
    inferInstanceAs (Decidable ((1 ≤ price ∧ price ≤ 99) ∧ 0 < qty))
  | r, .sold side qty => inferInstanceAs (Decidable (0 < qty ∧ qty ≤ (r.holding side).volume))
  | _, .minted qty => inferInstanceAs (Decidable (0 < qty))
  | r, .burned qty => inferInstanceAs (Decidable (0 < qty ∧ qty ≤ r.nettable))
  | _, .offered _ _ | _, .netted | _, .settled => inferInstanceAs (Decidable True)

end PositionEffect

/-- The constraints on a holding, those on its cost apart. -/
def Holding.SharesCheck (c : Holding) : Prop :=
  0 ≤ c.volume ∧ 0 ≤ c.pendingSell ∧ c.pendingSell ≤ c.volume

instance : DecidablePred Holding.SharesCheck := fun c =>
  inferInstanceAs (Decidable (0 ≤ c.volume ∧ 0 ≤ c.pendingSell ∧ c.pendingSell ≤ c.volume))

def PositionRow.SharesCheck (r : PositionRow) : Prop := r.yes.SharesCheck ∧ r.no.SharesCheck

instance : DecidablePred PositionRow.SharesCheck := fun r =>
  inferInstanceAs (Decidable (r.yes.SharesCheck ∧ r.no.SharesCheck))

def effectStep : Steps PositionRow PositionEffect := fun r e r' =>
  e.Admitted r ∧ r' = e.apply r ∧ r'.SharesCheck

/-- The cost of the shares of a holding is between a cent and 99 cents for each of them. -/
structure Holding.PossibleCost (c : Holding) : Prop where
  least : c.volume ≤ c.costSum
  most : c.costSum ≤ 99 * c.volume
  nonneg : 0 ≤ c.costSum
  dustless : c.costSum = 0 ↔ c.volume = 0

private theorem PositionRow.Check.shares {r : PositionRow} (ok : r.Check) : r.SharesCheck :=
  ⟨⟨ok.1.1, ok.1.2.2⟩, ok.2.1, ok.2.2.2⟩

private theorem PositionRow.SharesCheck.holding {r : PositionRow} (ok : r.SharesCheck)
    (side : OriginalSide) : (r.holding side).SharesCheck := by
  cases side with
  | yes => exact ok.1
  | no => exact ok.2

structure Holding.Sound (c : Holding) : Prop where
  shares : c.SharesCheck
  average : Averaged 1 99 c.volume c.costSum

namespace Holding.Sound

variable {c : Holding}

private theorem possibleCost (sound : c.Sound) : c.PossibleCost where
  least := by simpa using sound.average.least
  most := sound.average.most
  nonneg := sound.average.nonneg (by decide) sound.shares.1
  dustless := sound.average.eq_zero_iff (by decide) sound.shares.1

private theorem check (sound : c.Sound) : c.Check :=
  ⟨sound.shares.1, sound.possibleCost.nonneg, sound.shares.2⟩

private theorem empty : Holding.empty.Sound := ⟨by simp [SharesCheck, Holding.empty], .zero 1 99⟩

private theorem released (sound : c.Sound) {qty : Int} (some_ : 0 < qty)
    (covered : qty ≤ c.volume) :
    Averaged 1 99 (c.volume - qty) (c.costSum - calcReleasedCost c.costSum c.volume qty) := by
  have positive := lt_of_lt_of_le some_ covered
  unfold calcReleasedCost
  split
  · next all =>
    rw [le_antisymm all covered, sub_self, sub_self]
    exact .zero 1 99
  · rw [Int.fdiv_eq_ediv_of_nonneg _ positive.le]
    exact sound.average.release positive covered

private theorem burned (sound : c.Sound) {qty : Int} (some_ : 0 < qty) (covered : qty ≤ c.volume) :
    Averaged 1 99 (c.volume - qty) (c.costSum - costRelease c qty) := by
  have positive := lt_of_lt_of_le some_ covered
  rw [costRelease, if_pos positive, Int.fdiv_eq_ediv_of_nonneg _ positive.le]
  exact sound.average.release positive covered

end Holding.Sound

def PositionRow.Sound (r : PositionRow) : Prop := r.yes.Sound ∧ r.no.Sound

namespace PositionRow.Sound

variable {r r' : PositionRow}

private theorem holding (sound : r.Sound) (side : OriginalSide) : (r.holding side).Sound := by
  cases side with
  | yes => exact sound.1
  | no => exact sound.2

private theorem check (sound : r.Sound) : r.Check := ⟨sound.1.check, sound.2.check⟩

private theorem modify (sound : r.Sound) {side : OriginalSide} {f : Holding → Holding}
    (shares : (r.modify side f).SharesCheck)
    (average : Averaged 1 99 (f (r.holding side)).volume (f (r.holding side)).costSum) :
    (r.modify side f).Sound := by
  cases side with
  | yes => exact ⟨⟨shares.1, average⟩, sound.2⟩
  | no => exact ⟨sound.1, ⟨shares.2, average⟩⟩

private theorem nettable_le (sound : r.Sound) :
    r.nettable ≤ r.yes.volume ∧ r.nettable ≤ r.no.volume := by
  obtain ⟨_, yes, _⟩ := sound.1.shares
  obtain ⟨_, no, _⟩ := sound.2.shares
  unfold nettable
  omega

private theorem step {e : PositionEffect} (step : effectStep r e r') (sound : r.Sound) :
    r'.Sound := by
  obtain ⟨admitted, rfl, shares⟩ := step
  obtain ⟨yesHeld, noHeld⟩ := sound.nettable_le
  cases e with
  | bought side price qty =>
    obtain ⟨⟨low, high⟩, some_⟩ := admitted
    exact sound.modify shares ((sound.holding side).average.add (.atPrice low high some_.le))
  | sold side qty =>
    obtain ⟨some_, covered⟩ := admitted
    exact sound.modify shares ((sound.holding side).released some_ covered)
  | offered side qty => exact sound.modify shares (sound.holding side).average
  | netted =>
    simp only [PositionEffect.apply] at shares ⊢
    split at shares
    · next idle =>
      rw [if_pos idle]
      exact sound
    · next busy =>
      have some_ := not_le.mp busy
      rw [if_neg busy]
      exact ⟨⟨shares.1, sound.1.released some_ yesHeld⟩, shares.2, sound.2.released some_ noHeld⟩
  | minted qty =>
    have pairs : Averaged 1 99 qty (qty * INITIAL_FAIR_COST_PER_SHARE) := by
      rw [mul_comm]
      exact .atPrice (by decide) (by decide) (le_of_lt admitted)
    exact ⟨⟨shares.1, sound.1.average.add pairs⟩, shares.2, sound.2.average.add pairs⟩
  | burned qty =>
    obtain ⟨some_, covered⟩ := admitted
    exact ⟨⟨shares.1, sound.1.burned some_ (covered.trans yesHeld)⟩, shares.2,
      sound.2.burned some_ (covered.trans noHeld)⟩
  | settled => exact ⟨.empty, .empty⟩

private theorem empty : PositionRow.empty.Sound := ⟨.empty, .empty⟩

private theorem run {es : List PositionEffect} (run : Run effectStep r es r') (sound : r.Sound) :
    r'.Sound := run.preserves (fun _ _ _ one => PositionRow.Sound.step one) sound

end PositionRow.Sound

namespace Holdings

variable {h h' h'' : Holdings} {userId : UserId} {marketId : MarketId}

def rowAt (h : Holdings) (key : UserId × MarketId) : PositionRow :=
  (h.positions.get? key).getD .empty

def Evolves (h h' : Holdings) : Prop :=
  ∀ key, ∃ es, Run effectStep (h.rowAt key) es (h'.rowAt key)

namespace Evolves

private theorem of_positions (same : h'.positions = h.positions) : Evolves h h' := by
  intro key
  unfold rowAt
  rw [same]
  exact ⟨[], .nil _⟩

private theorem trans (first : Evolves h h') (second : Evolves h' h'') : Evolves h h'' := by
  intro key
  obtain ⟨es, run⟩ := first key
  obtain ⟨es', run'⟩ := second key
  exact ⟨es ++ es', run.append run'⟩

end Evolves

private theorem updatePosition_evolves {f : PositionRow → PositionRow} (e : PositionEffect)
    (done : h.updatePosition userId marketId f = .ok h')
    (effect : ∀ r, h.positions.get? (userId, marketId) = some r → (f r).Check →
      f r = e.apply r ∧ e.Admitted r) : Evolves h h' := by
  have rows := Table.get?_update? (updatePosition_ok done).2
  intro key
  unfold rowAt
  by_cases here : key = (userId, marketId)
  · subst here
    have row := rows (userId, marketId)
    rw [if_pos rfl] at row
    cases got : h.positions.get? (userId, marketId) with
    | none =>
      rw [got] at row
      rw [row]
      exact ⟨[], .nil _⟩
    | some r =>
      rw [got, Option.map_some] at row
      have check := Table.check row
      obtain ⟨same, admitted⟩ := effect r got check
      rw [row]
      exact ⟨[e], .single ⟨admitted, same, check.shares⟩⟩
  · rw [rows, if_neg here]
    exact ⟨[], .nil _⟩

private theorem upsert_evolves {f : PositionRow → PositionRow} (e : PositionEffect)
    (upserted : h.positions.upsert? (userId, marketId) (f .empty) f = some h'.positions)
    (effect : ∀ r, f r = e.apply r ∧ e.Admitted r) : Evolves h h' := by
  have rows := Table.get?_upsert? upserted
  intro key
  by_cases here : key = (userId, marketId)
  · subst here
    have row := rows (userId, marketId)
    rw [if_pos rfl] at row
    have written : h'.rowAt (userId, marketId) = f (h.rowAt (userId, marketId)) := by
      unfold rowAt
      rw [row]
      cases h.positions.get? (userId, marketId) <;> rfl
    have shares : (f (h.rowAt (userId, marketId))).SharesCheck := by
      rw [← written]
      unfold rowAt
      rw [row]
      exact (Table.check row).shares
    rw [written]
    exact ⟨[e], .single ⟨(effect _).2, (effect _).1, shares⟩⟩
  · unfold rowAt
    rw [rows, if_neg here]
    exact ⟨[], .nil _⟩

private theorem addVolume_evolves {side : OriginalSide} {price qty : Int} (low : 1 ≤ price)
    (high : price ≤ 99) (some_ : 0 < qty)
    (done : h.addVolume side userId marketId qty (price * qty) = .ok h') : Evolves h h' :=
  upsert_evolves (.bought side price qty) (addVolume_ok done).2
    (fun _ => ⟨rfl, ⟨low, high⟩, some_⟩)

private theorem modify_apply_sold (r : PositionRow) (side : OriginalSide) (qty : Int) :
    r.modify side (fun c => c.sold qty
      (calcReleasedCost (r.holding side).costSum (r.holding side).volume qty)) =
        (PositionEffect.sold side qty).apply r := by
  cases side <;> rfl

private theorem reduceVolume_evolves {side : OriginalSide} {qty : Int} {c : Holding}
    (some_ : 0 < qty)
    (same : ∀ r, h.positions.get? (userId, marketId) = some r → r.holding side = c)
    (done : h.reduceVolume side userId marketId qty
      (calcReleasedCost c.costSum c.volume qty) = .ok h') : Evolves h h' := by
  refine updatePosition_evolves (.sold side qty) done (fun r got check => ?_)
  rw [← same r got]
  refine ⟨modify_apply_sold r side qty, some_, ?_⟩
  have held := (check.shares.holding side).1
  rw [PositionRow.holding_modify_self] at held
  exact sub_nonneg.mp held

private theorem updatePosition_other {side other : OriginalSide} {user : UserId} {market : MarketId}
    {f : Holding → Holding} {r r₀ : PositionRow} (distinct : other ≠ side)
    (done : h.updatePosition userId marketId (fun row => row.modify side f) = .ok h')
    (was : h.positions.get? (user, market) = some r₀)
    (got : h'.positions.get? (user, market) = some r) : r.holding other = r₀.holding other := by
  rw [Table.get?_update? (updatePosition_ok done).2] at got
  split at got
  · next here =>
    rw [← here, was, Option.map_some] at got
    obtain rfl := Option.some.inj got
    cases side <;> cases other <;> first | rfl | exact absurd rfl distinct
  · rw [was] at got
    rw [Option.some.inj got]

private theorem addPending_evolves {side : OriginalSide} {qty : Int}
    (done : h.addPending side userId marketId qty = .ok h') : Evolves h h' :=
  updatePosition_evolves (.offered side qty) done (fun _ _ _ => ⟨rfl, trivial⟩)

private theorem addPairs_evolves {qty : Int} (some_ : 0 < qty)
    (done : h.addPairs userId marketId qty (qty * 50) = .ok h') : Evolves h h' := by
  have fresh : (⟨⟨qty, qty * 50, 0⟩, ⟨qty, qty * 50, 0⟩⟩ : PositionRow) =
      (PositionEffect.minted qty).apply .empty := by
    simp [PositionEffect.apply, PositionRow.empty, Holding.empty, Holding.bought,
      INITIAL_FAIR_COST_PER_SHARE]
  have upserted := (addPairs_ok done).2
  rw [fresh] at upserted
  exact upsert_evolves (.minted qty) upserted (fun _ => ⟨rfl, some_⟩)

end Holdings

section Clearing

variable {trade : TradeResult} {market market' : MarketState} {h h' : Holdings}

private theorem clearTransfer_evolves {side : OriginalSide} {payer holder : UserId}
    {unitPrice pnl : Int} {missing : String} (low : 1 ≤ unitPrice) (high : unitPrice ≤ 99)
    (some_ : 0 < trade.quantity)
    (done : clearTransfer side payer holder unitPrice missing trade market h =
      .ok (pnl, market', h')) : Holdings.Evolves h h' := by
  obtain ⟨h₁, h₂, h₃, row, debit, buy, got, sell, credit, _, _⟩ := clearTransfer_ok done
  have held : ∀ r, h₂.positions.get? (holder, trade.marketId) = some r →
      r.holding side = row.holding side := by
    intro r stored
    rw [got] at stored
    rw [Option.some.inj stored]
  have paid : Holdings.Evolves h h₁ := .of_positions (Holdings.unfreezeDebit_positions debit)
  have bought := Holdings.addVolume_evolves low high some_ buy
  have sold := Holdings.reduceVolume_evolves some_ held sell
  exact ((paid.trans bought).trans sold).trans
    (.of_positions (Holdings.addBalance_positions credit))

private theorem clearBurn_evolves {pnl : RealizedPnl} (some_ : 0 < trade.quantity)
    (done : clearBurn trade market h = .ok (pnl, market', h')) : Holdings.Evolves h h' := by
  obtain ⟨yesRow, noRow, h₁, h₂, h₃, _, _, gotYes, gotNo, rfl, rfl, sellYes, creditYes, sellNo,
    creditNo, _, _⟩ := clearBurn_ok done
  have yesHeld : ∀ r, h.positions.get? (trade.sellUserId, trade.marketId) = some r →
      r.holding .yes = yesRow.yes := by
    intro r stored
    rw [gotYes] at stored
    rw [← Option.some.inj stored]
    rfl
  -- The NO row was read before the YES update, which left its NO side alone.
  have noHeld : ∀ r, h₂.positions.get? (trade.buyUserId, trade.marketId) = some r →
      r.holding .no = noRow.no := by
    intro r stored
    rw [Holdings.addBalance_positions creditYes] at stored
    exact Holdings.updatePosition_other (by decide) sellYes gotNo stored
  have yes := Holdings.reduceVolume_evolves some_ yesHeld sellYes
  have no := Holdings.reduceVolume_evolves some_ noHeld sellNo
  exact ((yes.trans (.of_positions (Holdings.addBalance_positions creditYes))).trans no).trans
    (.of_positions (Holdings.addBalance_positions creditNo))

/-- Every scenario is made of purchases at a book price and of sales. -/
private theorem settleTrade_evolves {pnl : RealizedPnl} (low : 1 ≤ trade.price)
    (high : trade.price ≤ 99)
    (some_ : 0 < trade.quantity) (done : settleTrade trade market h = .ok (pnl, market', h')) :
    Holdings.Evolves h h' := by
  have lowNo : 1 ≤ 100 - trade.price := by omega
  have highNo : 100 - trade.price ≤ 99 := by omega
  cases settleTrade_ok done with
  | mint _ ran =>
    obtain ⟨⟨h₁, h₂, h₃, debit₁, buy₁, debit₂, buy₂⟩, _, _⟩ := clearMint_ok ran
    have buyer : Holdings.Evolves h h₁ := .of_positions (Holdings.unfreezeDebit_positions debit₁)
    have seller : Holdings.Evolves h₂ h₃ :=
      .of_positions (Holdings.unfreezeDebit_positions debit₂)
    exact ((buyer.trans (Holdings.addVolume_evolves low high some_ buy₁)).trans seller).trans
      (Holdings.addVolume_evolves lowNo highNo some_ buy₂)
  | transferYes _ ran => exact clearTransfer_evolves low high some_ ran
  | transferNo _ ran => exact clearTransfer_evolves lowNo highNo some_ ran
  | burn _ ran => exact clearBurn_evolves some_ ran

private theorem executeNetting_evolves {userId : UserId} {marketId : MarketId} {qty : Int}
    (done : executeNettingIfNeeded userId marketId market h = .ok (qty, market', h')) :
    Holdings.Evolves h h' := by
  rcases executeNettingIfNeeded_ok done with ⟨_, _, _, rfl⟩ |
    ⟨row, h₁, _, _, _, got, rfl, some_, rfl, rfl, net, credit, _⟩
  · exact .of_positions rfl
  · have netted : Holdings.Evolves h h₁ := by
      refine Holdings.updatePosition_evolves .netted net (fun r stored _ => ?_)
      rw [got] at stored
      obtain rfl := Option.some.inj stored
      exact ⟨(if_neg (not_le.mpr some_)).symm, trivial⟩
    exact netted.trans (.of_positions (Holdings.addBalance_positions credit))

end Clearing

section Services

variable {userId : UserId} {marketId : MarketId} {quantity : Int} {db db' : Db}

private theorem Minted.evolves (some_ : 0 < quantity)
    (minted : Minted userId marketId quantity db db') :
    Holdings.Evolves db.holdings db'.holdings := by
  obtain ⟨h, _, debit, pairs⟩ := minted.paid
  have paid : Holdings.Evolves db.holdings h :=
    .of_positions (Holdings.addBalance_positions debit)
  exact paid.trans (Holdings.addPairs_evolves some_ pairs)

private theorem Burned.evolves (some_ : 0 < quantity)
    (burned : Burned userId marketId quantity db db') :
    Holdings.Evolves db.holdings db'.holdings := by
  obtain ⟨row, h, got, enough, net, credit⟩ := burned.paid
  have gave : Holdings.Evolves db.holdings h := by
    refine Holdings.updatePosition_evolves (.burned quantity) net (fun r stored _ => ?_)
    rw [got] at stored
    obtain rfl := Option.some.inj stored
    exact ⟨rfl, some_, enough⟩
  exact gave.trans (.of_positions (Holdings.addBalance_positions credit))

namespace AdminService

private theorem payAndClear_evolves {outcome : OriginalSide} {h h' : Holdings}
    {e : UserId × PositionRow} (done : payAndClear marketId outcome h e = .ok h') :
    Holdings.Evolves h h' := by
  simp only [payAndClear, bind_eq_ok] at done
  obtain ⟨h₁, paid, cleared⟩ := done
  have payment : Holdings.Evolves h h₁ := by
    split at paid
    · exact .of_positions (Holdings.addBalance_positions paid)
    · obtain rfl := Except.ok.inj paid
      exact .of_positions rfl
  exact payment.trans
    (Holdings.updatePosition_evolves .settled cleared (fun _ _ _ => ⟨rfl, trivial⟩))

private theorem settleMarket_evolves {outcome : OriginalSide}
    (done : settleMarket marketId outcome db = .ok db') :
    Holdings.Evolves db.holdings db'.holdings := by
  obtain ⟨_, paid, _⟩ := settleMarket_ok done
  refine foldlM_preserves (P := Holdings.Evolves db.holdings) ?_ paid (.of_positions rfl)
  intro h e h' _ step before
  exact before.trans (payAndClear_evolves step)

end AdminService

end Services

/-- What moves shares or their cost: the clearing of a fill, netting, the pending shares of an
order, a privileged call and the settlement of a market. -/
inductive CostOp
  | settleTrade (trade : TradeResult) (market : MarketState)
  | net (userId : UserId) (marketId : MarketId) (market : MarketState)
  | offer (side : OriginalSide) (userId : UserId) (marketId : MarketId) (qty : Int)
  | privileged (call : AmmCall)
  | settle (marketId : MarketId) (outcome : OriginalSide)

namespace CostOp

def run (s : AmmDb) : CostOp → Except Err AmmDb
  | .settleTrade trade market => do
    let (_, _, h) ← PredictionMarket.settleTrade trade market s.db.holdings
    return { s with db := { s.db with holdings := h } }
  | .net userId marketId market => do
    let (_, _, h) ← executeNettingIfNeeded userId marketId market s.db.holdings
    return { s with db := { s.db with holdings := h } }
  | .offer side userId marketId qty => do
    let h ← s.db.holdings.addPending side userId marketId qty
    return { s with db := { s.db with holdings := h } }
  | .privileged call => .ok (call.run s).2
  | .settle marketId outcome => do
    let db ← AdminService.settleMarket marketId outcome s.db
    return { s with db := db }

/-- Fills have a price of the book and a positive quantity, which privileged requests have
too. -/
def Admitted : CostOp → Prop
  | .settleTrade trade _ => (1 ≤ trade.price ∧ trade.price ≤ 99) ∧ 0 < trade.quantity
  | .privileged call => 0 < call.quantity
  | .net .. | .offer .. | .settle .. => True

end CostOp

def costStep : Steps AmmDb CostOp := fun s op s' => op.Admitted ∧ op.run s = .ok s'

private theorem costStep_evolves {s s' : AmmDb} {op : CostOp} (step : costStep s op s') :
    Holdings.Evolves s.db.holdings s'.db.holdings := by
  obtain ⟨admitted, done⟩ := step
  cases op with
  | settleTrade trade market =>
    simp only [CostOp.run, bind_eq_ok, pure_eq_ok] at done
    obtain ⟨⟨pnl, market', h⟩, cleared, rfl⟩ := done
    exact settleTrade_evolves admitted.1.1 admitted.1.2 admitted.2 cleared
  | net userId marketId market =>
    simp only [CostOp.run, bind_eq_ok, pure_eq_ok] at done
    obtain ⟨⟨qty, market', h⟩, netted, rfl⟩ := done
    exact executeNetting_evolves netted
  | offer side userId marketId qty =>
    simp only [CostOp.run, bind_eq_ok, pure_eq_ok] at done
    obtain ⟨h, offered, rfl⟩ := done
    exact Holdings.addPending_evolves offered
  | privileged call =>
    obtain rfl := Except.ok.inj done
    rcases call.run_db s with same | minted | burned
    · rw [same]
      exact .of_positions rfl
    · exact minted.evolves admitted
    · exact burned.evolves admitted
  | settle marketId outcome =>
    simp only [CostOp.run, bind_eq_ok, pure_eq_ok] at done
    obtain ⟨db, settled, rfl⟩ := done
    exact AdminService.settleMarket_evolves settled

private theorem costRun_evolves {s s' : AmmDb} {ops : List CostOp} (run : Run costStep s ops s') :
    Holdings.Evolves s.db.holdings s'.db.holdings := by
  induction run with
  | nil s => exact .of_positions rfl
  | cons step _ later => exact (costStep_evolves step).trans later

/-- Both holdings have possible costs, and no further effect can fail on a cost: what passes
the constraints on the shares passes all. -/
structure PositionRow.CostsPossible (r : PositionRow) : Prop where
  possible : ∀ side, (r.holding side).PossibleCost
  passes : ∀ e : PositionEffect, e.Admitted r → (e.apply r).SharesCheck → (e.apply r).Check

private theorem PositionRow.Sound.costsPossible {r : PositionRow} (sound : r.Sound) :
    r.CostsPossible where
  possible side := (sound.holding side).possibleCost
  passes _ admitted shares := (PositionRow.Sound.step ⟨admitted, rfl, shares⟩ sound).check

/-- The average cost of a position stays a possible price under any effects from zero, and
the operations of the exchange have no other effects. -/
theorem average_cost_possible :
    (∀ {es : List PositionEffect} {r : PositionRow}, Run effectStep .empty es r →
      r.CostsPossible) ∧
    ∀ {ops : List CostOp} {s s' : AmmDb}, (∀ key, s.db.holdings.rowAt key = .empty) →
      Run costStep s ops s' → ∀ key, (s'.db.holdings.rowAt key).CostsPossible ∧
        ∃ es, Run effectStep .empty es (s'.db.holdings.rowAt key) := by
  refine ⟨fun run => (PositionRow.Sound.empty.run run).costsPossible, ?_⟩
  intro ops s s' zero run key
  obtain ⟨es, effects⟩ := costRun_evolves run key
  rw [zero] at effects
  exact ⟨(PositionRow.Sound.empty.run effects).costsPossible, es, effects⟩

section Example

/-- Two traders with frozen cash and the AMM, none of them with a position. -/
private def noPositions : AmmDb where
  db :=
    { holdings :=
        { accounts := .ofRows [(AMM_USER_ID, ⟨1000, 0, false⟩), ("alice", ⟨0, 1000, true⟩),
            ("bob", ⟨0, 1000, true⟩)]
          positions := .empty }
      markets := .ofRows [("m", ⟨.active, 0, 0, 0, 0, 20, none⟩)]
      orders := .empty
      trades := []
      ledger := []
      wal := [] }
  inserted := []

private def threePairs : TradeResult :=
  ⟨1, 2, "alice", "bob", "m", 33, 3, .nativeBuy, .syntheticSell, 33, 1, 2⟩

private def traded : List CostOp :=
  [.privileged ⟨.ammMint, AMM_USER_ID, "m", 5, "k"⟩,
    .settleTrade threePairs (.ofRow "m" ⟨.active, 0, 0, 0, 0, 20, none⟩), .settle "m" .yes]

theorem rounded_closes_leave_possible_cost :
    PositionRow.CostsPossible ⟨⟨2, 95, 0⟩, ⟨0, 0, 0⟩⟩ ∧
      ∃ s, Run costStep noPositions traded s ∧
        (s.db.holdings.rowAt ("bob", "m")).CostsPossible := by
  have closes : Run effectStep .empty [.bought .yes 33 1, .bought .yes 50 2, .offered .yes 1,
      .sold .yes 1, .minted 2, .burned 1, .netted] ⟨⟨2, 95, 0⟩, ⟨0, 0, 0⟩⟩ :=
    .cons ⟨by decide, rfl, by decide⟩ <| .cons ⟨by decide, rfl, by decide⟩ <|
    .cons ⟨by decide, rfl, by decide⟩ <| .cons ⟨by decide, rfl, by decide⟩ <|
    .cons ⟨by decide, rfl, by decide⟩ <| .cons ⟨by decide, rfl, by decide⟩ <|
    .single ⟨by decide, rfl, by decide⟩
  have ran : (traded.foldlM CostOp.run noPositions).isOk = true := by decide +kernel
  obtain ⟨s, done⟩ := exists_of_isOk ran
  simp only [traded, List.foldlM_cons, List.foldlM_nil, bind_eq_ok, pure_eq_ok] at done
  obtain ⟨s₁, minted, s₂, cleared, s₃, settled, rfl⟩ := done
  have run : Run costStep noPositions traded s₃ :=
    .cons ⟨show (0 : Int) < 5 by decide, minted⟩
      (.cons ⟨⟨by decide, by decide⟩, cleared⟩ (.single ⟨trivial, settled⟩))
  have both := average_cost_possible
  exact ⟨both.1 closes, s₃, run, (both.2 (fun _ => rfl) run ("bob", "m")).1⟩

end Example

end PredictionMarket
