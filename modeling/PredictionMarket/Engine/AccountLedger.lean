/- PredictionMarket/Engine/AccountLedger
   digest: Deposits, withdrawals and orders on one ledger, and when its entries explain the balances. -/

import PredictionMarket.Engine.AuditTrail

set_option autoImplicit false
set_option relaxedAutoImplicit false

namespace PredictionMarket

open Library

inductive EntryType
  | deposit | withdraw
  | order (entryType : LedgerEntryType)
  deriving DecidableEq

/-- A row of `ledger_entries`; `balanceAfter` is documented as the available balance
after the operation. -/
structure LedgerEntry where
  userId : UserId
  entryType : EntryType
  amount : Int
  balanceAfter : Int
  referenceId : Option OrderId
  deriving DecidableEq

def LedgerRow.toEntry (r : LedgerRow) : LedgerEntry :=
  ⟨r.userId, .order r.entryType, r.amount, r.balanceAfter, some r.referenceId⟩

/-- The process and its database, with the whole ledger in the order of its ids. -/
structure Bank where
  world : World
  entries : List LedgerEntry

def internalError (detail : String) : AppError := ⟨9002, detail, 500⟩

namespace AccountRepository

/-- `_DEPOSIT_SQL`, with the ledger entry for it. -/
def deposit (userId : UserId) (amount : Int) (b : Bank) :
    Except Err ((AccountRow × LedgerEntry) × Bank) := do
  let db ← b.world.db.onHoldings (fun h => h.addBalance userId amount)
  match db.holdings.accounts.get? userId with
  | none => throw (.app (internalError s!"Account not found for user {userId}"))
  | some account =>
    let entry : LedgerEntry := ⟨userId, .deposit, amount, account.availableBalance, none⟩
    return ((account, entry), ⟨{ b.world with db := db }, b.entries ++ [entry]⟩)

/-- `_WITHDRAW_SQL`, with the ledger entry for it. -/
def withdraw (userId : UserId) (amount : Int) (b : Bank) :
    Except Err ((AccountRow × LedgerEntry) × Bank) := do
  match b.world.db.holdings.accounts.get? userId with
  | none => throw (.app (insufficientBalanceError amount 0))
  | some before =>
    if before.availableBalance < amount then
      throw (.app (insufficientBalanceError amount before.availableBalance))
    let db ← b.world.db.onHoldings (fun h => h.addBalance userId (-amount))
    match db.holdings.accounts.get? userId with
    | none => throw (.app (insufficientBalanceError amount 0))
    | some account =>
      let entry : LedgerEntry := ⟨userId, .withdraw, -amount, account.availableBalance, none⟩
      return ((account, entry), ⟨{ b.world with db := db }, b.entries ++ [entry]⟩)

end AccountRepository

def SessionOp.isPrivileged : SessionOp → Bool
  | .privileged _ => true
  | _ => false

inductive BankOp
  | deposit (userId : UserId) (amount : Int)
  | withdraw (userId : UserId) (amount : Int)
  | request (op : SessionOp) (ordinary : op.isPrivileged = false)

namespace Bank

/-- The bank after an engine request: what the engine wrote goes to the end of the
ledger. -/
def after (b : Bank) (w : World) : Bank where
  world := w
  entries := b.entries ++ (w.db.ledger.drop b.world.db.ledger.length).map LedgerRow.toEntry

/-- The bank after a request. One that fails is rolled back. -/
def next (b : Bank) : BankOp → Bank
  | .deposit userId amount =>
    match AccountRepository.deposit userId amount b with
    | .ok (_, b') => b'
    | .error _ => b
  | .withdraw userId amount =>
    match AccountRepository.withdraw userId amount b with
    | .ok (_, b') => b'
    | .error _ => b
  | .request op _ => b.after (Session.next ⟨b.world, []⟩ op).world

def entriesOf (b : Bank) (user : UserId) : List LedgerEntry :=
  b.entries.filter (fun e => e.userId = user)

end Bank

def bankStep : Steps Bank BankOp := fun b op b' => b' = b.next op

def Db.available (db : Db) (user : UserId) : Int :=
  (db.holdings.accounts.get? user).elim 0 AccountRow.availableBalance

/-- An entry leads from a balance to the next when it says so: its amount is the
difference, and its snapshot the new balance. -/
def entryStep : Steps Int LedgerEntry := fun before e after =>
  after = before + e.amount ∧ e.balanceAfter = after

def Bank.Explained (b : Bank) (user : UserId) : Prop :=
  Run entryStep 0 (b.entriesOf user) (b.world.db.available user)

/-- New entries that lead from the old balance of every user to the new one. -/
structure Bank.Extends (b b' : Bank) (new : List LedgerEntry) : Prop where
  entries : b'.entries = b.entries ++ new
  steps : ∀ user, Run entryStep (b.world.db.available user)
    (new.filter (fun e => e.userId = user)) (b'.world.db.available user)

theorem Bank.Explained.extend {b b' : Bank} {new : List LedgerEntry} (ext : b.Extends b' new)
    {user : UserId} (explained : b.Explained user) : b'.Explained user := by
  unfold Explained entriesOf at *
  rw [ext.entries, List.filter_append]
  exact explained.append (ext.steps user)

section Balances

variable {db db' : Db} {userId : UserId}

private theorem Db.available_of_accounts (same : db'.holdings.accounts = db.holdings.accounts)
    (user : UserId) : db'.available user = db.available user := by
  unfold available
  rw [same]

private theorem Db.available_updateAccount {f : AccountRow → AccountRow} {a : AccountRow}
    (got : db.holdings.accounts.get? userId = some a)
    (done : db.holdings.updateAccount userId f = .ok db'.holdings) (user : UserId) :
    db'.available user =
      if user = userId then (f a).availableBalance else db.available user := by
  unfold available
  rw [Holdings.get?_updateAccount done]
  split
  · rw [got]
    rfl
  · rfl

end Balances

section Transfers

variable {b b' : Bank} {userId : UserId} {amount : Int}

def Bank.OnlyHoldings (b b' : Bank) : Prop :=
  ∃ h, b'.world = { b.world with db := { b.world.db with holdings := h } }

private theorem Bank.OnlyHoldings.accounted (only : b.OnlyHoldings b')
    (acc : b.world.Accounted False) :
    b'.world.Accounted False := by
  obtain ⟨h, same⟩ := only
  rw [same]
  exact acc.tables rfl (fun _ active => active)

private theorem Bank.extends_of_credit (entry : LedgerEntry) {db : Db} {a : AccountRow}
    (credited : b.world.db.onHoldings (fun h => h.addBalance userId amount) = .ok db)
    (got : db.holdings.accounts.get? userId = some a)
    (shown : entry.userId = userId ∧ entry.amount = amount ∧
      entry.balanceAfter = a.availableBalance) :
    (∃ new, b.Extends ⟨{ b.world with db := db }, b.entries ++ [entry]⟩ new) ∧
      b.OnlyHoldings ⟨{ b.world with db := db }, b.entries ++ [entry]⟩ := by
  obtain ⟨h, moved, rfl⟩ := Db.onHoldings_ok credited
  obtain ⟨owner, size, snapshot⟩ := shown
  refine ⟨⟨[entry], rfl, fun user => ?_⟩, h, rfl⟩
  have row := Holdings.get?_updateAccount moved userId
  rw [if_pos rfl, got, eq_comm, Option.map_eq_some_iff] at row
  obtain ⟨before, was, rfl⟩ := row
  have balance := @Db.available_updateAccount b.world.db { b.world.db with holdings := h } userId _
    before was moved user
  by_cases own : user = userId
  · subst own
    rw [if_pos rfl] at balance
    simp only [owner, decide_true, List.filter_cons_of_pos, List.filter_nil]
    refine Run.single_iff.mpr ⟨?_, snapshot.trans balance.symm⟩
    rw [balance, size, Db.available, was, Option.elim_some]
  · rw [if_neg own] at balance
    rw [List.filter_cons_of_neg (by simpa [owner] using Ne.symm own), List.filter_nil, balance]
    exact .nil _

theorem AccountRepository.deposit_extends {result : AccountRow × LedgerEntry}
    (done : AccountRepository.deposit userId amount b = .ok (result, b')) :
    (∃ new, b.Extends b' new) ∧ b.OnlyHoldings b' := by
  simp only [deposit, bind_eq_ok] at done
  obtain ⟨db, credited, done⟩ := done
  split at done
  · cases done
  · next account got =>
    obtain ⟨_, rfl⟩ := Prod.mk.inj (pure_eq_ok.mp done)
    exact Bank.extends_of_credit _ credited got ⟨rfl, rfl, rfl⟩

theorem AccountRepository.withdraw_extends {result : AccountRow × LedgerEntry}
    (done : AccountRepository.withdraw userId amount b = .ok (result, b')) :
    (∃ new, b.Extends b' new) ∧ b.OnlyHoldings b' := by
  unfold withdraw at done
  split at done
  · cases done
  · simp only at done
    split at done
    · cases done
    · simp only [bind_eq_ok] at done
      obtain ⟨db, debited, done⟩ := done
      split at done
      · cases done
      · next account got =>
        obtain ⟨_, rfl⟩ := Prod.mk.inj (pure_eq_ok.mp done)
        exact Bank.extends_of_credit _ debited got ⟨rfl, rfl, rfl⟩

end Transfers

section Placement

variable {draft : OrderDraft} {ob ob' : OrderBook} {db db' : Db} {order order' : Order}

def Db.KeepsCash (db db' : Db) : Prop :=
  db'.ledger = db.ledger ∧ ∀ user, db'.available user = db.available user

def Db.FreezesAll (db : Db) (order : Order) (db' : Db) : Prop :=
  db'.ledger = db.ledger ++ [⟨order.userId, .orderFreeze, -order.frozenAmount, 0, order.id⟩] ∧
    db.available order.userId = order.frozenAmount ∧
    ∀ user, db'.available user = if user = order.userId then 0 else db.available user

private theorem Db.KeepsCash.trans {db'' : Db} (first : db.KeepsCash db')
    (second : db'.KeepsCash db'') :
    db.KeepsCash db'' :=
  ⟨second.1.trans first.1, fun user => (second.2 user).trans (first.2 user)⟩

private theorem Db.KeepsCash.freezesAll {db'' : Db} (first : db.KeepsCash db')
    (second : db'.FreezesAll order db'') : db.FreezesAll order db'' := by
  obtain ⟨ledger, before, balances⟩ := second
  refine ⟨by rw [ledger, first.1], (first.2 _).symm.trans before, fun user => ?_⟩
  rw [balances, first.2]

private theorem Db.KeepsCash.of_eq (ledger : db'.ledger = db.ledger)
    (accounts : db'.holdings.accounts = db.holdings.accounts) : db.KeepsCash db' :=
  ⟨ledger, Db.available_of_accounts accounts⟩

private theorem finalizeOrder_keepsCash (done : finalizeOrder order 0 db = .ok (order', db'))
    (rests : order.frozenAssetType = .funds → order.timeInForce = .gtc) : db.KeepsCash db' := by
  have final := (finalizeOrder_ok done).2
  cases finalizeOrder_run done with
  | partly | idle => exact .of_eq rfl rfl
  | expired left ioc released updated =>
    have shares : order.frozenAssetType ≠ .funds := fun cash => by simp [rests cash] at ioc
    rw [if_pos ⟨left, ioc⟩, Released, if_neg shares] at final
    have ledger := (unfreezeRemainder_log released).2
    rw [Order.unfreezeEntries, if_neg shares, List.append_nil] at ledger
    obtain ⟨orders, _, rfl⟩ := Db.updateStatus_ok updated
    exact .of_eq ledger final.2.1

private theorem placeOrderInner_idle {placed : Placed} {v : RestingOrders}
    (done : placeOrderInner draft ob db = (.ok (placed, db'), ob')) (shows : ob.Shows v)
    (blocked : ob.Blocks draft.accepted)
    (rests : draft.accepted.bookType.paysCash = true → draft.timeInForce = .gtc) :
    ∃ market db₁, acceptOrder draft db = .ok (draft.accepted, market, db₁) ∧
      db₁.KeepsCash db' := by
  obtain ⟨⟨market, db₁, order, n, market₁, db₂, order', db₃, accepted, fills, finalized, flushed,
    _⟩, _⟩ := placeOrderInner_phases done
  obtain ⟨v', run, _⟩ := matchOrder_spec draft.accepted ob v shows.represents shows.exact
  have idle := matchOrder_blocked blocked shows.exact
    (OrderDraft.accepted_bookPrice (acceptOrder_ok accepted).price)
  rw [idle, (run.progress.2.2.1 idle).1] at fills
  simp only [clearFills, pure_eq_ok, Prod.mk.injEq] at fills
  obtain ⟨rfl, _, rfl, rfl⟩ := fills
  obtain ⟨markets, _, rfl⟩ := Db.flushMarket_ok flushed
  refine ⟨_, _, accepted, (finalizeOrder_keepsCash finalized ?_).trans (.of_eq rfl rfl)⟩
  intro cash
  rw [draft.accepted_fields.2.2.2.2.2.2.1]
  exact rests (BookType.frozenAsset_eq_funds.mp cash)

private theorem placeOrderInner_cash {placed : Placed} {v : RestingOrders}
    (done : placeOrderInner draft ob db = (.ok (placed, db'), ob')) (shows : ob.Shows v)
    (blocked : ob.Blocks draft.accepted)
    (all : draft.accepted.bookType.paysCash = true →
      draft.timeInForce = .gtc ∧ db.available draft.userId = draft.accepted.frozenAmount) :
    db.KeepsCash db' ∨ db.FreezesAll draft.accepted db' := by
  obtain ⟨market, db₁, accepted, rest⟩ :=
    placeOrderInner_idle done shows blocked (fun cash => (all cash).1)
  have ledger := acceptOrder_ledger accepted
  have frozen := (acceptOrder_ok accepted).frozen
  unfold Frozen at frozen
  unfold Order.freezeEntries at ledger
  split at frozen
  · next cash =>
    rw [if_pos cash] at ledger
    obtain ⟨a, got, _, moved⟩ := frozen
    obtain ⟨_, exactly⟩ := all cash
    have user := draft.accepted_fields.2.2.1
    refine Or.inr ⟨rest.1.trans ledger, user ▸ exactly, fun other => ?_⟩
    rw [rest.2, Db.available_updateAccount got moved]
    split
    · rw [← user, Db.available, got, Option.elim_some] at exactly
      simp only
      omega
    · rfl
  · next shares =>
    rw [if_neg shares, List.append_nil] at ledger
    exact Or.inl ((Db.KeepsCash.of_eq ledger frozen).trans rest)

end Placement

section Cancellations

variable {db db' : Db} {marketId : MarketId}

private theorem Db.Ends.keepsCash {id : OrderId} {row : OrderRow} (ends : db.Ends id row db')
    (shares : row.frozenAssetType ≠ .funds) : db.KeepsCash db' := by
  obtain ⟨_, order, done⟩ := ends
  have held : (rowToOrder id row).frozenAssetType ≠ .funds := shares
  have released := (cancelInSavepoint_ok done).1
  rw [Released, if_neg held] at released
  obtain ⟨db₁, db₂, freed, marked, rfl⟩ := cancelInSavepoint_saved done
  have ledger := (unfreezeRemainder_log freed).2
  rw [Order.unfreezeEntries, if_neg held, List.append_nil] at ledger
  obtain ⟨orders, _, rfl⟩ := Db.updateStatus_ok marked
  exact .of_eq ledger released

private theorem bulkUnfreeze_accounts {userId : UserId} {yes no : Int} {h h' : Holdings}
    (done : MatchingEngine.bulkUnfreeze marketId userId 0 yes no h = .ok h') :
    h'.accounts = h.accounts := by
  have pending : ∀ {side : OriginalSide} {qty : Int} {h h' : Holdings},
      (if 0 < qty then h.addPending side userId marketId (-qty) else pure h) = .ok h' →
      h'.accounts = h.accounts := by
    intro side qty h h' ran
    split at ran
    · exact (Holdings.updatePosition_ok ran).1
    · rw [pure_eq_ok.mp ran]
  simp only [MatchingEngine.bulkUnfreeze, lt_irrefl, if_false, bind_eq_ok] at done
  obtain ⟨h₁, same, h₂, first, second⟩ := done
  rw [pending second, pending first, pure_eq_ok.mp same]

private theorem batch_keepsCash {userId : UserId} {scope : CancelScope}
    (step : moveStep db (.batch marketId userId scope) db')
    (shares : ∀ e ∈ MatchingEngine.batchRows marketId userId scope db,
      e.2.frozenAssetType ≠ .funds) : db.KeepsCash db' := by
  obtain ⟨db₁, h, marked, moved, rfl⟩ := step
  have none : MatchingEngine.totalFrozen .funds
      (MatchingEngine.batchRows marketId userId scope db) = 0 := by
    rw [MatchingEngine.totalFrozen, List.filter_eq_nil_iff.mpr (by simpa using shares)]
    rfl
  rw [none] at moved
  exact .of_eq (markCancelled_log marked).2 (bulkUnfreeze_accounts moved)

private theorem cancelAndUnfreeze_positions {e : OrderId × OrderRow}
    (done : AdminService.cancelAndUnfreeze marketId db e = .ok db')
    (shares : e.2.frozenAssetType ≠ .funds) (outcome : OriginalSide) (k : UserId × MarketId) :
    (db'.holdings.positions.get? k).map (fun r => (r.holding outcome).volume) =
      (db.holdings.positions.get? k).map (fun r => (r.holding outcome).volume) := by
  have volume : ∀ {side : OriginalSide} {qty : Int} {h : Holdings},
      db.holdings.addPending side e.2.userId marketId qty = .ok h →
      (h.positions.get? k).map (fun r => (r.holding outcome).volume) =
        (db.holdings.positions.get? k).map (fun r => (r.holding outcome).volume) := by
    intro side qty h moved
    refine Table.map_get?_update? (Holdings.updatePosition_ok moved).2 (fun r => ?_) k
    cases side <;> cases outcome <;> rfl
  simp only [AdminService.cancelAndUnfreeze, bind_eq_ok] at done
  obtain ⟨db₁, marked, moved⟩ := done
  obtain ⟨h, freed, rfl⟩ := Db.onHoldings_ok moved
  split at marked
  · obtain rfl := Except.ok.inj marked
    split at freed
    · next funds => exact absurd funds shares
    · exact volume freed
    · exact volume freed
  · cases marked

private theorem payAndClear_accounts {outcome : OriginalSide} {h h' : Holdings}
    {e : UserId × PositionRow}
    (done : AdminService.payAndClear marketId outcome h e = .ok h')
    (unpaid : 0 < (e.2.holding outcome).volume → h.accounts.get? e.1 = none) :
    h'.accounts = h.accounts := by
  simp only [AdminService.payAndClear, bind_eq_ok] at done
  obtain ⟨h₁, paid, cleared⟩ := done
  rw [(Holdings.updatePosition_ok cleared).1]
  split at paid
  · next wins =>
    obtain ⟨none, same⟩ | ⟨r, _, got, _⟩ :=
      Table.update?_eq_some (Holdings.updateAccount_ok paid).2
    · exact same
    · rw [unpaid wins] at got
      cases got
  · rw [pure_eq_ok.mp paid]

private theorem resolveInTransaction_keepsCash {outcome : OriginalSide}
    (done : AdminService.resolveInTransaction marketId outcome db = .ok db')
    (shares : ∀ e ∈ AdminService.openOrders marketId db, e.2.frozenAssetType ≠ .funds)
    (unpaid : ∀ e ∈ AdminService.marketPositions marketId db.holdings,
      0 < (e.2.holding outcome).volume → db.holdings.accounts.get? e.1 = none) :
    db.KeepsCash db' := by
  obtain ⟨db₁, cancelled, settled⟩ := AdminService.resolveInTransaction_ok done
  have loop := foldlM_preserves (P := fun d => d.holdings.accounts = db.holdings.accounts ∧
      ∀ k, (d.holdings.positions.get? k).map (fun r => (r.holding outcome).volume) =
        (db.holdings.positions.get? k).map (fun r => (r.holding outcome).volume))
    (fun d e d' member step before => by
      obtain ⟨_, _, accounts⟩ := AdminService.cancelAndUnfreeze_ok step
      rw [if_neg (shares e member)] at accounts
      exact ⟨accounts.trans before.1, fun k =>
        (cancelAndUnfreeze_positions step (shares e member) outcome k).trans (before.2 k)⟩)
    cancelled ⟨rfl, fun _ => rfl⟩
  have paid := foldlM_preserves (P := fun h => h.accounts = db.holdings.accounts)
    (fun h e h' member step same => by
      refine (payAndClear_accounts step (fun wins => ?_)).trans same
      obtain ⟨⟨⟨user, m⟩, r⟩, listed, rfl⟩ := List.mem_map.mp member
      obtain ⟨stored, home⟩ := List.mem_filter.mp listed
      obtain rfl : marketId = m := (of_decide_eq_true home).symm
      obtain ⟨before, was, equal⟩ :=
        Table.row_of_map (loop.2 (user, marketId)) (Table.mem_iff.mp stored)
      rw [same]
      exact unpaid (user, before) (List.mem_map.mpr ⟨((user, marketId), before),
        List.mem_filter.mpr ⟨Table.mem_iff.mpr was, by simp⟩, rfl⟩) (by rw [equal]; exact wins))
    (AdminService.settleMarket_ok settled).2.1 loop.1
  exact .of_eq ((settleMarket_log settled).2.trans (cancelAll_log cancelled).2) paid

end Cancellations

/-- An order that is refused, or that matches nobody and takes from the available cash
of its user nothing, or all of it to rest with. -/
def TakesAllOrNothing (draft : OrderDraft) (ob : OrderBook) (db : Db) : Prop :=
  (∀ accepted, acceptOrder draft db ≠ .ok accepted) ∨
    ob.Blocks draft.accepted ∧ (draft.accepted.bookType.paysCash = true →
      draft.timeInForce = .gtc ∧ db.available draft.userId = draft.accepted.frozenAmount)

/-- The requests after which the ledger still explains every balance: those that move
no available cash without a deposit or a withdrawal, or freeze all that a user has. -/
def KeepsLedger (b : Bank) : BankOp → Prop
  | .deposit _ _ | .withdraw _ _ => True
  | .request op _ => match op with
    | .place req userId clock =>
      b.world.db.getByClientOrderId req.clientOrderId userId = none →
        TakesAllOrNothing (req.draft b.world.nextId userId clock)
          (b.world.getOrCreateOrderbook req.marketId) b.world.db
    | .cancel orderId userId => ∀ row, b.world.db.orders.get? orderId = some row →
      row.userId = userId → row.isActive = true → row.frozenAssetType ≠ .funds
    | .replace oldOrderId req userId clock =>
      ∀ row cancelled db, b.world.db.orders.get? oldOrderId = some row → row.userId = userId →
        row.status ≠ .filled → row.filledQuantity ≤ 0 → row.marketId = req.marketId →
        MatchingEngine.cancelInSavepoint (rowToOrder oldOrderId row) b.world.db =
          .ok (cancelled, db) →
        (∀ accepted, acceptOrder (req.draft b.world.nextId userId clock) db ≠ .ok accepted) ∨
          row.frozenAssetType ≠ .funds ∧
            TakesAllOrNothing (req.draft b.world.nextId userId clock)
              ((b.world.getOrCreateOrderbook row.marketId).cancelOrder oldOrderId) db
    | .batchCancel marketId userId scope =>
      ∀ e ∈ MatchingEngine.batchRows marketId userId scope b.world.db,
        e.2.frozenAssetType ≠ .funds
    | .privileged _ => True
    | .resolve marketId outcome =>
      (∀ row, b.world.db.markets.get? marketId = some row →
        row.status ≠ .active ∧ row.status ≠ .suspended) ∨
      (∀ e ∈ AdminService.openOrders marketId b.world.db, e.2.frozenAssetType ≠ .funds) ∧
        ∀ e ∈ AdminService.marketPositions marketId b.world.db.holdings,
          0 < (e.2.holding outcome).volume → b.world.db.holdings.accounts.get? e.1 = none

section Runs

variable {b b' : Bank} {w : World}

private theorem Bank.extends_of_keepsCash (kept : b.world.db.KeepsCash w.db) :
    b.Extends (b.after w) [] := by
  refine ⟨?_, fun user => ?_⟩
  · simp [after, kept.1]
  · rw [List.filter_nil, show (b.after w).world = w from rfl, kept.2]
    exact .nil _

private theorem Bank.extends_of_freezesAll {order : Order}
    (froze : b.world.db.FreezesAll order w.db) :
    ∃ new, b.Extends (b.after w) new := by
  obtain ⟨ledger, before, balances⟩ := froze
  refine ⟨[⟨order.userId, .order .orderFreeze, -order.frozenAmount, 0, some order.id⟩], ?_,
    fun user => ?_⟩
  · simp [after, ledger, LedgerRow.toEntry]
  · rw [show (b.after w).world = w from rfl, balances]
    by_cases own : user = order.userId
    · subst own
      rw [before, if_pos rfl, List.filter_cons_of_pos (by simp)]
      exact Run.single_iff.mpr ⟨by simp, rfl⟩
    · rw [if_neg own, List.filter_cons_of_neg (by simpa using Ne.symm own)]
      exact .nil _

private theorem placeOrderInner_allOrNothing {draft : OrderDraft} {ob ob' : OrderBook} {db db' : Db}
    {placed : Placed} {v : RestingOrders}
    (done : placeOrderInner draft ob db = (.ok (placed, db'), ob')) (shows : ob.Shows v)
    (takes : TakesAllOrNothing draft ob db) :
    db.KeepsCash db' ∨ db.FreezesAll draft.accepted db' := by
  rcases takes with refused | ⟨blocked, all⟩
  · obtain ⟨⟨market, db₁, _, _, _, _, _, _, accepted, _⟩, _⟩ := placeOrderInner_phases done
    exact absurd accepted (refused _)
  · exact placeOrderInner_cash done shows blocked all

private theorem Bank.extends_of_unchanged (same : w.db = b.world.db) :
    ∃ new, b.Extends (b.after w) new :=
  ⟨[], extends_of_keepsCash (same ▸ .of_eq rfl rfl)⟩

private theorem Bank.extends_of_either {order : Order}
    (moved : b.world.db.KeepsCash w.db ∨ b.world.db.FreezesAll order w.db) :
    ∃ new, b.Extends (b.after w) new := by
  rcases moved with kept | froze
  · exact ⟨[], extends_of_keepsCash kept⟩
  · exact extends_of_freezesAll froze

private theorem OrderService.cancelOrder_error {orderId : OrderId} {userId : UserId} {w w' : World}
    {e : Err} (done : OrderService.cancelOrder orderId userId .none w = (.error e, w')) :
    w'.db = w.db := by
  unfold cancelOrder at done
  rw [if_neg (by simp)] at done
  exact World.finish_error done

private theorem Bank.request_extends {op : SessionOp} (ordinary : op.isPrivileged = false)
    (acc : b.world.Accounted False) (keeps : KeepsLedger b (.request op ordinary)) :
    ∃ new, b.Extends (b.next (.request op ordinary)) new := by
  obtain ⟨w, entries⟩ := b
  have moved := (sessionStep_moves (show sessionStep ⟨w, []⟩ op _ from rfl) acc).2
  simp only at acc moved
  cases op with
  | place req userId clock =>
    have world := OrderService.placeOrder_world req userId clock .none w
    simp only at world
    simp only [next, Session.next]
    generalize (OrderService.placeOrder req userId clock .none w).2 = w' at world
    rcases world with rfl | ⟨_, fresh, ⟨_, rfl⟩ | ⟨_, placed, db, ob, inner, rfl⟩⟩
    · exact extends_of_unchanged rfl
    · exact extends_of_unchanged rfl
    · obtain ⟨_, _, v, shows, _⟩ :=
        acc.place (show (req.draft w.nextId userId clock).id = w.nextId from rfl) inner
      exact extends_of_either (placeOrderInner_allOrNothing inner shows (keeps fresh))
  | cancel orderId userId =>
    simp only [next, Session.next]
    cases done : OrderService.cancelOrder orderId userId .none w with
    | mk outcome w' =>
      cases outcome with
      | error e => exact extends_of_unchanged (OrderService.cancelOrder_error done)
      | ok order =>
        obtain ⟨row, owner, active, ends, _⟩ :=
          MatchingEngine.cancelOrder_ends (OrderService.cancelOrder_ok done)
        exact ⟨[], extends_of_keepsCash (ends.keepsCash (keeps row ends.1 owner active))⟩
  | replace oldOrderId req userId clock =>
    simp only [next, Session.next]
    cases done : OrderService.replaceOrder oldOrderId req userId clock w with
    | mk outcome w' =>
      cases outcome with
      | error e => exact extends_of_unchanged (World.finish_error done)
      | ok replaced =>
        obtain ⟨row, db₁, ob, unused, untouched, home, owner, ends, inner⟩ :=
          OrderService.replaceOrder_runs done
        obtain ⟨cancelled, ended⟩ := ends.2
        obtain ⟨_, v, shows, _⟩ :=
          acc.replaced (show (req.draft w.nextId userId clock).id = w.nextId from rfl) home ends
            inner
        rcases keeps row cancelled db₁ ends.1 owner unused untouched home ended with
          refused | ⟨shares, takes⟩
        · obtain ⟨⟨market, db₁, _, _, _, _, _, _, accepted, _⟩, _⟩ := placeOrderInner_phases inner
          exact absurd accepted (refused _)
        · have first := ends.keepsCash shares
          exact extends_of_either ((placeOrderInner_allOrNothing inner shows takes).imp
            first.trans first.freezesAll)
  | batchCancel marketId userId scope =>
    rcases moved with same | moves
    · exact extends_of_unchanged same
    · exact ⟨[], extends_of_keepsCash (batch_keepsCash (Run.single_iff.mp moves) keeps)⟩
  | privileged call => cases ordinary
  | resolve marketId outcome =>
    rcases keeps with ended | ⟨shares, unpaid⟩
    · exact extends_of_unchanged (congrArg World.db (AdminService.resolveMarket_refused ended))
    · rcases moved with same | moves
      · exact extends_of_unchanged same
      · exact ⟨[], extends_of_keepsCash
          (resolveInTransaction_keepsCash (Run.single_iff.mp moves) shares unpaid)⟩

theorem bankStep_extends {op : BankOp} (step : bankStep b op b') (acc : b.world.Accounted False)
    (keeps : KeepsLedger b op) : (∃ new, b.Extends b' new) ∧ b'.world.Accounted False := by
  have unchanged : (∃ new, b.Extends b new) ∧ b.world.Accounted False :=
    ⟨⟨[], by simp, fun _ => .nil _⟩, acc⟩
  obtain rfl := step
  cases op with
  | deposit userId amount =>
    simp only [Bank.next]
    split
    · next done =>
      obtain ⟨extended, only⟩ := AccountRepository.deposit_extends done
      exact ⟨extended, only.accounted acc⟩
    · exact unchanged
  | withdraw userId amount =>
    simp only [Bank.next]
    split
    · next done =>
      obtain ⟨extended, only⟩ := AccountRepository.withdraw_extends done
      exact ⟨extended, only.accounted acc⟩
    · exact unchanged
  | request op ordinary =>
    exact ⟨Bank.request_extends ordinary acc keeps,
      (sessionStep_moves (show sessionStep ⟨b.world, []⟩ op _ from rfl) acc).1⟩

/-- When the ledger explains the balances. In every run whose requests move no
available cash without a deposit or a withdrawal, but for orders that freeze all that
their user has, the entries of every user lead, one balance after the other, from
nothing to the available balance. -/
theorem ledger_explains_balance {ops : List BankOp} (orders : b.world.db.orders.rows = [])
    (books : ∀ m, b.world.orderbooks m = none) (explained : ∀ user, b.Explained user)
    (run : Run (Guarded KeepsLedger bankStep) b ops b') (user : UserId) : b'.Explained user := by
  have start : b.world.Accounted False :=
    (show Session.Opening ⟨b.world, []⟩ from ⟨orders, books⟩).accounted
  refine (run.preserves (P := fun b => b.world.Accounted False ∧ ∀ user, b.Explained user) ?_
    ⟨start, explained⟩).2 user
  intro c op c' head before
  obtain ⟨keeps, step⟩ := head
  obtain ⟨⟨new, extended⟩, acc⟩ := bankStep_extends step before.1 keeps
  exact ⟨acc, fun user => (before.2 user).extend extended⟩

def newBank : Bank where
  world :=
    { orderbooks := fun _ => none
      db :=
        { holdings :=
            { accounts := .ofRows [("alice", ⟨0, 0, true⟩), ("bob", ⟨0, 0, true⟩),
                (PLATFORM_FEE_USER_ID, ⟨0, 0, false⟩)]
              positions := .empty }
          markets := .ofRows [("m", ⟨.active, 0, 0, 0, 0, 20, none⟩)]
          orders := .empty
          trades := []
          ledger := []
          wal := [] }
      nextId := 1 }
  entries := []

theorem newBank_explained (user : UserId) : newBank.Explained user := by
  have none : newBank.world.db.available user = 0 := by
    have rows : ∀ e ∈ newBank.world.db.holdings.accounts.rows, e.2.availableBalance = 0 := by
      decide +kernel
    unfold Db.available
    cases got : newBank.world.db.holdings.accounts.get? user with
    | none => rfl
    | some a => exact rows (user, a) (Table.mem_iff.mpr got)
  unfold Bank.Explained
  rw [none]
  exact .nil 0

def bidOfAlice : BankOp :=
  .request (.place ⟨"b1", "m", .yes, .buy, 40, 3, .gtc⟩ "alice" ⟨0, 0⟩) rfl

/-- A deposit that one bid freezes as a whole. -/
theorem whole_deposit_explained :
    ((newBank.next (.deposit "alice" 121)).next bidOfAlice).Explained "alice" := by
  have keeps : KeepsLedger (newBank.next (.deposit "alice" 121)) bidOfAlice := by
    refine fun _ => Or.inr ⟨fun _ bo member => ?_, fun _ => ⟨rfl, by decide +kernel⟩⟩
    cases member
  have run : Run (Guarded KeepsLedger bankStep) newBank [.deposit "alice" 121, bidOfAlice]
      ((newBank.next (.deposit "alice" 121)).next bidOfAlice) :=
    .cons ⟨trivial, rfl⟩ (.single ⟨keeps, rfl⟩)
  exact ledger_explains_balance rfl (fun _ => rfl) newBank_explained run "alice"

/-- A bid for a part of the deposit shows a balance of nothing. -/
theorem bid_unexplained :
    let b' := (newBank.next (.deposit "alice" 1000)).next bidOfAlice
    (∀ user, newBank.Explained user) ∧
      Run bankStep newBank [.deposit "alice" 1000, bidOfAlice] b' ∧
      (b'.entriesOf "alice").map (fun e => (e.amount, e.balanceAfter)) =
        [(1000, 1000), (-121, 0)] ∧
      b'.world.db.available "alice" = 879 ∧ ¬ b'.Explained "alice" := by
  intro b'
  have entries : b'.entriesOf "alice" = [⟨"alice", .deposit, 1000, 1000, none⟩,
      ⟨"alice", .order .orderFreeze, -121, 0, some 1⟩] := by decide +kernel
  have available : b'.world.db.available "alice" = 879 := by decide +kernel
  refine ⟨newBank_explained, .cons rfl (.single rfl), by rw [entries]; rfl, available, ?_⟩
  intro explained
  unfold Bank.Explained at explained
  rw [entries, available] at explained
  obtain _ | ⟨_, rest⟩ := explained
  have last := (Run.single_iff.mp rest).2
  cases last

end Runs

end PredictionMarket
