/- PredictionMarket/Engine/PrivilegedMint
   digest: Privileged mint and burn of share pairs, and what they keep of a market. -/

import PredictionMarket.Clearing.CashConservation
import PredictionMarket.Clearing.ShareConservation

set_option autoImplicit false
set_option relaxedAutoImplicit false

namespace PredictionMarket

open Library

inductive AmmReference
  | ammMint | ammBurn
  deriving DecidableEq

inductive AmmEntryType
  | mintCost | mintReserveIn | burnRevenue | burnReserveOut
  deriving DecidableEq

/-- A ledger entry of the two services; its reference is the idempotency key. -/
structure AmmLedgerRow where
  userId : UserId
  entryType : AmmEntryType
  amount : Int
  referenceType : AmmReference
  referenceId : String
  deriving DecidableEq

/-- A row that the two services add to the trades. Its id, which is random, stands for
its two orders as well. The CHECKs of the table hold of what the endpoints pass on, a
positive quantity and the AMM as the user. -/
structure AmmTradeRow where
  marketId : MarketId
  buyUserId : UserId
  sellUserId : UserId
  scenario : TradeScenario
  priceCents : Int
  quantity : Int
  makerFee : Int
  takerFee : Int
  deriving DecidableEq

inductive AmmRow
  | entry (row : AmmLedgerRow)
  | trade (row : AmmTradeRow)
  deriving DecidableEq

def AmmRow.trade? : AmmRow → Option AmmTradeRow
  | .entry _ => none
  | .trade row => some row

/-- The tables that the two services work on, with all that they have inserted. -/
structure AmmDb where
  db : Db
  inserted : List AmmRow

def AmmRow.isUnder (reference : AmmReference) (key : String) : AmmRow → Bool
  | .entry e => e.referenceType = reference ∧ e.referenceId = key
  | .trade _ => false

def keyIn (reference : AmmReference) (key : String) (inserted : List AmmRow) : Bool :=
  inserted.any (AmmRow.isUnder reference key)

def AmmDb.keyUsed (s : AmmDb) (reference : AmmReference) (key : String) : Bool :=
  keyIn reference key s.inserted

structure InventoryReport where
  marketId : MarketId
  quantity : Int
  cents : Int
  newYesInventory : Int
  newNoInventory : Int
  remainingBalanceCents : Int
  deriving DecidableEq

inductive AmmResult
  | idempotentHit (key : String)
  | done (report : InventoryReport)
  deriving DecidableEq

def COST_PER_SHARE_CENTS : Int := 100

def INITIAL_FAIR_COST_PER_SHARE : Int := 50

def RECOVERY_PER_SHARE_CENTS : Int := 100

def requireActive (marketId : MarketId) (db : Db) : Except Err Unit :=
  match db.markets.get? marketId with
  | none => throw (.app ⟨3001, "Market not found", 404⟩)
  | some row =>
    if row.status = .active then pure () else throw (.app ⟨3002, "Market is not active", 422⟩)

def Db.updateMarket (db : Db) (marketId : MarketId) (f : MarketRow → MarketRow) :
    Except Err Db :=
  match db.markets.update? marketId f with
  | some markets => .ok { db with markets := markets }
  | none => .error .integrity

def Holdings.addPairs (h : Holdings) (userId : UserId) (marketId : MarketId)
    (qty costHalf : Int) : Except Err Holdings :=
  match h.positions.upsert? (userId, marketId) ⟨⟨qty, costHalf, 0⟩, ⟨qty, costHalf, 0⟩⟩
      (fun r => ⟨r.yes.bought qty costHalf, r.no.bought qty costHalf⟩) with
  | some positions => .ok { h with positions := positions }
  | none => .error .integrity

/-- The closing reads of both services; `missing` stands for an absent position. -/
def inventoryReport (userId : UserId) (marketId : MarketId) (quantity cents missing : Int)
    (h : Holdings) : InventoryReport where
  marketId := marketId
  quantity := quantity
  cents := cents
  newYesInventory := ((h.positions.get? (userId, marketId)).map (·.yes.volume)).getD missing
  newNoInventory := ((h.positions.get? (userId, marketId)).map (·.no.volume)).getD missing
  remainingBalanceCents := ((h.accounts.get? userId).map AccountRow.availableBalance).getD 0

/-- Privileged Mint: create YES and NO share pairs for the AMM. Its rows have the columns
`amount_cents` and `price_cents`, which the migrations lack: on their schema it raises. -/
def executePrivilegedMint (userId : UserId) (marketId : MarketId) (quantity : Int)
    (idempotencyKey : String) (s : AmmDb) : Except Err (AmmResult × AmmDb) := do
  if s.keyUsed .ammMint idempotencyKey then return (.idempotentHit idempotencyKey, s)
  requireActive marketId s.db
  let costCents := quantity * COST_PER_SHARE_CENTS
  let available := ((s.db.holdings.accounts.get? userId).map AccountRow.availableBalance).getD 0
  if (s.db.holdings.accounts.get? userId).isNone ∨ available < costCents then
    throw (.app ⟨2001, s!"Insufficient balance: need {costCents}, have {available}", 422⟩)
  let db ← s.db.onHoldings (fun h => h.addBalance userId (-costCents))
  let db ← db.updateMarket marketId (fun r =>
    { r with
      reserveBalance := r.reserveBalance + costCents
      totalYesShares := r.totalYesShares + quantity
      totalNoShares := r.totalNoShares + quantity })
  let costHalf := quantity * INITIAL_FAIR_COST_PER_SHARE
  let db ← db.onHoldings (fun h => h.addPairs userId marketId quantity costHalf)
  let inserted := s.inserted ++
    [.entry ⟨userId, .mintCost, -costCents, .ammMint, idempotencyKey⟩,
     .entry ⟨"SYSTEM", .mintReserveIn, costCents, .ammMint, idempotencyKey⟩,
     .trade ⟨marketId, userId, "SYSTEM", .mint, 50, quantity, 0, 0⟩]
  return (.done (inventoryReport userId marketId quantity costCents quantity db.holdings),
    ⟨db, inserted⟩)

/-- The part of a cost that leaves with `quantity` shares, by weighted average. -/
def costRelease (c : Holding) (quantity : Int) : Int :=
  if 0 < c.volume then (c.costSum * quantity).fdiv c.volume else 0

/-- Privileged Burn: destroy YES and NO share pairs and recover cash, on the same schema. The
market update leaves the share totals as they are. -/
def executePrivilegedBurn (userId : UserId) (marketId : MarketId) (quantity : Int)
    (idempotencyKey : String) (s : AmmDb) : Except Err (AmmResult × AmmDb) := do
  if s.keyUsed .ammBurn idempotencyKey then return (.idempotentHit idempotencyKey, s)
  requireActive marketId s.db
  match s.db.holdings.positions.get? (userId, marketId) with
  | none => throw (.app ⟨5001, "No positions found", 422⟩)
  | some row =>
    let maxBurnable := row.nettable
    if quantity > maxBurnable then
      throw (.app ⟨5001,
        s!"Insufficient available shares: can burn max {maxBurnable}, requested {quantity}", 422⟩)
    let yesCostRelease := costRelease row.yes quantity
    let noCostRelease := costRelease row.no quantity
    let db ← s.db.onHoldings (fun h => h.updatePosition userId marketId (fun r =>
      r.netted quantity yesCostRelease noCostRelease))
    let recoveryCents := quantity * RECOVERY_PER_SHARE_CENTS
    let db ← db.updateMarket marketId (fun r =>
      { r with reserveBalance := r.reserveBalance - recoveryCents })
    let db ← db.onHoldings (fun h => h.addBalance userId recoveryCents)
    let inserted := s.inserted ++
      [.entry ⟨userId, .burnRevenue, recoveryCents, .ammBurn, idempotencyKey⟩,
       .entry ⟨"SYSTEM", .burnReserveOut, -recoveryCents, .ammBurn, idempotencyKey⟩,
       .trade ⟨marketId, "SYSTEM", userId, .burn, 50, quantity, 0, 0⟩]
    return (.done (inventoryReport userId marketId quantity recoveryCents 0 db.holdings),
      ⟨db, inserted⟩)

/-- A call of one of the two services, which is a transaction of its own. -/
structure AmmCall where
  reference : AmmReference
  userId : UserId
  marketId : MarketId
  quantity : Int
  idempotencyKey : String

def AmmCall.tradeRow (call : AmmCall) : AmmTradeRow :=
  match call.reference with
  | .ammMint => ⟨call.marketId, call.userId, "SYSTEM", .mint, 50, call.quantity, 0, 0⟩
  | .ammBurn => ⟨call.marketId, "SYSTEM", call.userId, .burn, 50, call.quantity, 0, 0⟩

def AmmCall.execute (call : AmmCall) : AmmDb → Except Err (AmmResult × AmmDb) :=
  match call.reference with
  | .ammMint =>
    executePrivilegedMint call.userId call.marketId call.quantity call.idempotencyKey
  | .ammBurn =>
    executePrivilegedBurn call.userId call.marketId call.quantity call.idempotencyKey

/-- The transaction around a call: commit, or restore the tables. -/
def AmmCall.run (call : AmmCall) (s : AmmDb) : Except Err AmmResult × AmmDb :=
  match call.execute s with
  | .ok (result, s') => (.ok result, s')
  | .error e => (.error e, s)

private theorem Db.updateMarket_ok {db db' : Db} {marketId : MarketId} {f : MarketRow → MarketRow}
    (done : db.updateMarket marketId f = .ok db') :
    ∃ markets, db.markets.update? marketId f = some markets ∧
      db' = { db with markets := markets } := by
  unfold updateMarket at done
  split at done
  · next markets updated => exact ⟨markets, updated, (Except.ok.inj done).symm⟩
  · cases done

theorem Holdings.addPairs_ok {h h' : Holdings} {userId : UserId} {marketId : MarketId}
    {qty costHalf : Int} (done : h.addPairs userId marketId qty costHalf = .ok h') :
    h'.accounts = h.accounts ∧ h.positions.upsert? (userId, marketId)
      ⟨⟨qty, costHalf, 0⟩, ⟨qty, costHalf, 0⟩⟩
      (fun r => ⟨r.yes.bought qty costHalf, r.no.bought qty costHalf⟩) = some h'.positions := by
  unfold addPairs at done
  split at done
  · next positions updated =>
    obtain rfl := Except.ok.inj done
    exact ⟨rfl, updated⟩
  · cases done

private theorem requireActive_ok {marketId : MarketId} {db : Db} {u : Unit}
    (done : requireActive marketId db = .ok u) :
    ∃ row, db.markets.get? marketId = some row ∧ row.status = .active := by
  unfold requireActive at done
  split at done
  · cases done
  · next row got =>
    split at done
    · next active => exact ⟨row, got, active⟩
    · cases done

structure Spends (reference : AmmReference) (key : String) (s : AmmDb) (result : AmmResult)
    (s' : AmmDb) : Prop where
  fresh : s.keyUsed reference key = false
  done : ∃ report, result = .done report
  recorded : s'.keyUsed reference key = true

def AmmDb.Records (s s' : AmmDb) (row : AmmTradeRow) : Prop :=
  ∃ e e', s'.inserted = s.inserted ++ [.entry e, .entry e', .trade row]

structure Minted (userId : UserId) (marketId : MarketId) (quantity : Int) (db db' : Db) :
    Prop where
  active : ∃ row, db.markets.get? marketId = some row ∧ row.status = .active
  paid : ∃ h, db.holdings.HasAccount userId ∧
    db.holdings.addBalance userId (-(quantity * 100)) = .ok h ∧
    h.addPairs userId marketId quantity (quantity * 50) = .ok db'.holdings
  market : db.markets.update? marketId (fun r =>
    { r with
      reserveBalance := r.reserveBalance + quantity * 100
      totalYesShares := r.totalYesShares + quantity
      totalNoShares := r.totalNoShares + quantity }) = some db'.markets
  rest : db' = { db with holdings := db'.holdings, markets := db'.markets }

private theorem Spends.of_entry {reference : AmmReference} {key : String} {s : AmmDb} {db : Db}
    {report : InventoryReport} {e : AmmLedgerRow} {rows : List AmmRow}
    (fresh : ¬ s.keyUsed reference key = true) (type : e.referenceType = reference)
    (keyed : e.referenceId = key) :
    Spends reference key s (.done report) ⟨db, s.inserted ++ .entry e :: rows⟩ where
  fresh := eq_false_of_ne_true fresh
  done := ⟨report, rfl⟩
  recorded := by simp [AmmDb.keyUsed, keyIn, AmmRow.isUnder, type, keyed]

theorem executePrivilegedMint_ok {userId : UserId} {marketId : MarketId} {quantity : Int}
    {key : String} {s s' : AmmDb} {result : AmmResult}
    (done : executePrivilegedMint userId marketId quantity key s = .ok (result, s')) :
    (s.keyUsed .ammMint key = true ∧ result = .idempotentHit key ∧ s' = s) ∨
      Spends .ammMint key s result s' ∧ Minted userId marketId quantity s.db s'.db ∧
        s.Records s' ⟨marketId, userId, "SYSTEM", .mint, 50, quantity, 0, 0⟩ := by
  unfold executePrivilegedMint at done
  split at done
  · next used =>
    simp only [pure_eq_ok, Prod.mk.injEq] at done
    exact Or.inl ⟨used, done.1.symm, done.2.symm⟩
  · next fresh =>
    simp only [bind_eq_ok] at done
    obtain ⟨_, active, done⟩ := done
    split at done
    · cases done
    · next enough =>
      simp only [bind_eq_ok, pure_eq_ok, Prod.mk.injEq] at done
      obtain ⟨db₁, paid, db₂, moved, db₃, bought, rfl, rfl⟩ := done
      obtain ⟨h₁, debit, rfl⟩ := Db.onHoldings_ok paid
      obtain ⟨markets, updated, rfl⟩ := Db.updateMarket_ok moved
      obtain ⟨h₂, pairs, rfl⟩ := Db.onHoldings_ok bought
      have there : s.db.holdings.HasAccount userId := by
        simpa [Holdings.HasAccount, Option.isSome_iff_ne_none] using (not_or.mp enough).1
      exact Or.inr ⟨.of_entry fresh rfl rfl,
        ⟨requireActive_ok active, ⟨h₁, there, debit, pairs⟩, updated, rfl⟩, _, _, rfl⟩

structure Burned (userId : UserId) (marketId : MarketId) (quantity : Int) (db db' : Db) :
    Prop where
  active : ∃ row, db.markets.get? marketId = some row ∧ row.status = .active
  paid : ∃ row h, db.holdings.positions.get? (userId, marketId) = some row ∧
    quantity ≤ row.nettable ∧
    db.holdings.updatePosition userId marketId (fun r => r.netted quantity
      (costRelease row.yes quantity) (costRelease row.no quantity)) = .ok h ∧
    h.addBalance userId (quantity * 100) = .ok db'.holdings
  market : db.markets.update? marketId (fun r =>
    { r with reserveBalance := r.reserveBalance - quantity * 100 }) = some db'.markets
  rest : db' = { db with holdings := db'.holdings, markets := db'.markets }

theorem executePrivilegedBurn_ok {userId : UserId} {marketId : MarketId} {quantity : Int}
    {key : String} {s s' : AmmDb} {result : AmmResult}
    (done : executePrivilegedBurn userId marketId quantity key s = .ok (result, s')) :
    (s.keyUsed .ammBurn key = true ∧ result = .idempotentHit key ∧ s' = s) ∨
      Spends .ammBurn key s result s' ∧ Burned userId marketId quantity s.db s'.db ∧
        s.Records s' ⟨marketId, "SYSTEM", userId, .burn, 50, quantity, 0, 0⟩ := by
  unfold executePrivilegedBurn at done
  split at done
  · next used =>
    simp only [pure_eq_ok, Prod.mk.injEq] at done
    exact Or.inl ⟨used, done.1.symm, done.2.symm⟩
  · next fresh =>
    simp only [bind_eq_ok] at done
    obtain ⟨_, active, done⟩ := done
    split at done
    · cases done
    · next row got =>
      split at done
      · cases done
      · next enough =>
        simp only [bind_eq_ok, pure_eq_ok, Prod.mk.injEq] at done
        obtain ⟨db₁, gave, db₂, moved, db₃, paid, rfl, rfl⟩ := done
        obtain ⟨h₁, net, rfl⟩ := Db.onHoldings_ok gave
        obtain ⟨markets, updated, rfl⟩ := Db.updateMarket_ok moved
        obtain ⟨h₂, credit, rfl⟩ := Db.onHoldings_ok paid
        exact Or.inr ⟨.of_entry fresh rfl rfl,
          ⟨requireActive_ok active, ⟨row, h₁, got, not_lt.mp enough, net, credit⟩, updated, rfl⟩,
          _, _, rfl⟩

/-- The CHECK on the reserve lets no burn through that takes a share: the totals
stay while the reserve falls. -/
theorem Burned.quantity_eq_zero {userId : UserId} {marketId : MarketId} {quantity : Int}
    {db db' : Db} (burned : Burned userId marketId quantity db db') : quantity = 0 := by
  obtain ⟨row, got, _⟩ := burned.active
  have before := (Table.check got).2.2.2.2.1
  have after : db'.markets.get? marketId =
      some { row with reserveBalance := row.reserveBalance - quantity * 100 } := by
    rw [Table.get?_update? burned.market, if_pos rfl, got, Option.map_some]
  have consistent := (Table.check after).2.2.2.2.1
  simp only at consistent
  omega

/-- The market and position tables agree on a market: INV-1, INV-2 and INV-3. -/
def Db.MarketSound (db : Db) (m : MarketId) : Prop :=
  ∃ row, db.markets.get? m = some row ∧
    SharesBacked (MarketState.ofRow m row, db.holdings) ∧
    Inv3 (MarketState.ofRow m row, db.holdings)

def Db.cashWith (db : Db) (m : MarketId) : Int :=
  db.holdings.totalBalance + ((db.markets.get? m).map MarketRow.reserveBalance).getD 0

section Mint

variable {h h' : Holdings} {userId : UserId} {marketId : MarketId} {qty costHalf : Int}

private theorem Holdings.volumeSum_addPairs
    (done : h.addPairs userId marketId qty costHalf = .ok h')
    (m : MarketId) (side : OriginalSide) :
    h'.volumeSum m side = h.volumeSum m side + if marketId = m then qty else 0 := by
  unfold volumeSum
  rw [Table.sum_upsert? (addPairs_ok done).2]
  by_cases here : marketId = m
  · cases h.positions.get? (userId, marketId) with
    | none => cases side <;> simp [here, PositionRow.holding]
    | some r => cases side <;> simp [here, PositionRow.holding, Holding.bought]
  · cases h.positions.get? (userId, marketId) <;> simp [here]

private theorem Holdings.totalCost_addPairs
    (done : h.addPairs userId marketId qty costHalf = .ok h')
    (m : MarketId) : h'.totalCost m = h.totalCost m + if marketId = m then 2 * costHalf else 0 := by
  unfold totalCost
  rw [Table.sum_upsert? (addPairs_ok done).2]
  by_cases here : marketId = m
  · cases h.positions.get? (userId, marketId) with
    | none =>
      simp only [Option.elim_none, here, if_true, PositionRow.total]
      omega
    | some r =>
      simp only [Option.elim_some, here, if_true, PositionRow.total, Holding.bought]
      omega
  · cases h.positions.get? (userId, marketId) <;> simp [here]

end Mint

section Services

variable {userId : UserId} {marketId : MarketId} {quantity : Int} {db db' : Db}

theorem Minted.sound (minted : Minted userId marketId quantity db db') {m : MarketId}
    (sound : db.MarketSound m) : db'.MarketSound m := by
  obtain ⟨row, got, backed, balanced⟩ := sound
  obtain ⟨h, _, debit, pairs⟩ := minted.paid
  have volumes := Holdings.volumeSum_addPairs pairs m
  have costs := Holdings.totalCost_addPairs pairs m
  have positions := Holdings.addBalance_positions debit
  rw [Holdings.totalCost_eq h, Holdings.columnSum_congr positions, ← Holdings.totalCost_eq] at costs
  simp only [Holdings.volumeSum_congr positions] at volumes
  have market := Table.get?_update? minted.market m
  obtain ⟨yes, no, both, reserve⟩ := backed
  simp only [Inv3, MarketState.ofRow] at yes no both reserve balanced
  by_cases here : m = marketId
  · subst here
    rw [if_pos rfl, got, Option.map_some] at market
    simp only [if_true] at volumes costs
    refine ⟨_, market, ⟨?_, ?_, ?_, ?_⟩, ?_⟩ <;>
      simp only [Inv3, MarketState.ofRow, volumes, costs] <;> omega
  · rw [if_neg here, got] at market
    simp only [if_neg (Ne.symm here), add_zero] at volumes costs
    refine ⟨row, market, ⟨?_, ?_, ?_, ?_⟩, ?_⟩ <;>
      simp only [Inv3, MarketState.ofRow, volumes, costs] <;> assumption

theorem Minted.cash (minted : Minted userId marketId quantity db db') :
    db'.cashWith marketId = db.cashWith marketId := by
  obtain ⟨row, got, _⟩ := minted.active
  obtain ⟨h, there, debit, pairs⟩ := minted.paid
  have paid := (Holdings.addBalance_earns debit there).trans
    (.of_accounts (Holdings.addPairs_ok pairs).1)
  have market := Table.get?_update? minted.market marketId
  rw [if_pos rfl, got, Option.map_some] at market
  simp only [Db.cashWith, paid.total, market, got, Option.map_some, Option.getD_some]
  omega

theorem Burned.same (burned : Burned userId marketId quantity db db') :
    db'.holdings.totalBalance = db.holdings.totalBalance ∧
      (∀ m, db'.markets.get? m = db.markets.get? m) ∧
      (∀ m side, db'.holdings.volumeSum m side = db.holdings.volumeSum m side) ∧
      ∀ m, db'.holdings.totalCost m = db.holdings.totalCost m := by
  obtain rfl := burned.quantity_eq_zero
  obtain ⟨row, h, got, _, net, credit⟩ := burned.paid
  have released : ∀ c : Holding, costRelease c 0 = 0 := by
    intro c
    simp [costRelease]
  have kept : row.netted 0 (costRelease row.yes 0) (costRelease row.no 0) = row := by
    simp [PositionRow.netted, released]
  have positions := Holdings.addBalance_positions credit
  refine ⟨?_, ?_, ?_, ?_⟩
  · have netted : db.holdings.Earns 0 h := .of_accounts (Holdings.updatePosition_ok net).1
    by_cases there : h.HasAccount userId
    · have both := netted.trans (Holdings.addBalance_earns credit there)
      rw [both.total, zero_mul, add_zero, add_zero]
    · rw [Holdings.addBalance_lost credit there, netted.total, add_zero]
  · intro m
    rw [Table.get?_update? burned.market]
    split
    · next here =>
      subst here
      simp
    · rfl
  · intro m side
    have volume := Holdings.volumeSum_updatePosition (x := fun _ => 0) got
      (fun side => by rw [kept, add_zero]) net m side
    rw [Holdings.volumeSum_congr positions, volume, ite_self, add_zero]
  · intro m
    have cost : h.columnSum m Holding.costSum =
        db.holdings.columnSum m Holding.costSum + if marketId = m then 0 else 0 :=
      Holdings.columnSum_updatePosition got (by rw [kept, add_zero]) net m
    rw [Holdings.totalCost_eq, Holdings.columnSum_congr positions, cost, ite_self, add_zero,
      ← Holdings.totalCost_eq]

theorem Burned.sound (burned : Burned userId marketId quantity db db') {m : MarketId}
    (sound : db.MarketSound m) : db'.MarketSound m := by
  obtain ⟨row, got, ⟨yes, no, both, reserve⟩, balanced⟩ := sound
  obtain ⟨_, markets, volumes, costs⟩ := burned.same
  refine ⟨row, (markets m).trans got, ⟨?_, ?_, both, reserve⟩, ?_⟩
  · rw [yes]
    exact (volumes m .yes).symm
  · rw [no]
    exact (volumes m .no).symm
  · exact balanced.trans (costs m).symm

private theorem Burned.cash (burned : Burned userId marketId quantity db db') (m : MarketId) :
    db'.cashWith m = db.cashWith m := by
  obtain ⟨total, markets, _⟩ := burned.same
  rw [Db.cashWith, total, markets]
  rfl

end Services

theorem AmmCall.run_records (call : AmmCall) (s : AmmDb) :
    (call.run s).2 = s ∨ s.Records (call.run s).2 call.tradeRow ∧
      (Minted call.userId call.marketId call.quantity s.db (call.run s).2.db ∨
        Burned call.userId call.marketId call.quantity s.db (call.run s).2.db) := by
  unfold run
  cases done : call.execute s with
  | error e => exact Or.inl rfl
  | ok r =>
    obtain ⟨result, s'⟩ := r
    unfold execute at done
    unfold tradeRow
    cases kind : call.reference with
    | ammMint =>
      rw [kind] at done
      rcases executePrivilegedMint_ok done with ⟨_, _, same⟩ | ⟨_, minted, recorded⟩
      · exact Or.inl same
      · exact Or.inr ⟨recorded, Or.inl minted⟩
    | ammBurn =>
      rw [kind] at done
      rcases executePrivilegedBurn_ok done with ⟨_, _, same⟩ | ⟨_, burned, recorded⟩
      · exact Or.inl same
      · exact Or.inr ⟨recorded, Or.inr burned⟩

theorem AmmCall.run_db (call : AmmCall) (s : AmmDb) :
    (call.run s).2 = s ∨
      Minted call.userId call.marketId call.quantity s.db (call.run s).2.db ∨
      Burned call.userId call.marketId call.quantity s.db (call.run s).2.db :=
  (call.run_records s).imp_right And.right

/-- A burn of any share is refused. -/
private theorem AmmCall.burn_refused {call : AmmCall} (burn : call.reference = .ammBurn)
    (some_ : call.quantity ≠ 0) (s : AmmDb) : (call.run s).2 = s := by
  unfold run
  cases done : call.execute s with
  | error e => rfl
  | ok r =>
    obtain ⟨result, s'⟩ := r
    unfold execute at done
    rw [burn] at done
    rcases executePrivilegedBurn_ok done with ⟨_, _, same⟩ | ⟨_, burned, _⟩
    · exact same
    · exact absurd burned.quantity_eq_zero some_

/-- Privileged mints and burns, whatever becomes of them, keep INV-1, INV-2 and
INV-3 of every market, and the cash of the accounts and the reserve; the CHECK on
the reserve turns every burn of a share away. -/
theorem privileged_keeps_invariants {call : AmmCall} {s : AmmDb} {m : MarketId}
    (sound : s.db.MarketSound m) :
    (call.run s).2.db.MarketSound m ∧
      (call.run s).2.db.cashWith call.marketId = s.db.cashWith call.marketId ∧
      (call.reference = .ammBurn → call.quantity ≠ 0 → (call.run s).2 = s) := by
  refine ⟨?_, ?_, fun burn some_ => AmmCall.burn_refused burn some_ s⟩
  · rcases call.run_db s with same | minted | burned
    · rwa [same]
    · exact minted.sound sound
    · exact burned.sound sound
  · rcases call.run_db s with same | minted | burned
    · rw [same]
    · exact minted.cash
    · exact burned.cash _

section Example

private def ammTables : AmmDb where
  db :=
    { holdings :=
        { accounts := Table.empty.add AMM_USER_ID ⟨1000, 0, false⟩ rfl (by decide)
          positions := Table.empty.add (AMM_USER_ID, "m") ⟨⟨10, 500, 4⟩, ⟨10, 500, 0⟩⟩ rfl
            (by decide) }
      markets := Table.empty.add "m" ⟨.active, 1000, 0, 10, 10, 20, none⟩ rfl (by decide)
      orders := .empty
      trades := []
      ledger := []
      wal := [] }
  inserted := []

private def mintOfFive : AmmCall := ⟨.ammMint, AMM_USER_ID, "m", 5, "k"⟩

theorem mint_of_five_keeps_invariants :
    (mintOfFive.run ammTables).1 = .ok (.done ⟨"m", 5, 500, 15, 15, 500⟩) ∧
      (mintOfFive.run ammTables).2.db.MarketSound "m" ∧
      (mintOfFive.run ammTables).2.db.cashWith "m" = 2000 := by
  have sound : ammTables.db.MarketSound "m" := ⟨_, rfl, ⟨by decide, by decide, rfl, rfl⟩, rfl⟩
  obtain ⟨after, cash, _⟩ := @privileged_keeps_invariants mintOfFive _ _ sound
  exact ⟨by decide, after, cash⟩

end Example

end PredictionMarket
