/- PredictionMarket/Concurrency/Wallets
   digest: Concurrent transactions of the account repository: serial, explained and never in breach. -/

import PredictionMarket.Account.Repository

set_option autoImplicit false
set_option relaxedAutoImplicit false

namespace PredictionMarket

open Library ReadCommitted

abbrev WalletSystem (τ : Type) := System τ DbKey DbKey.Row LedgerEntry Err WalletResult

def startWallets {τ : Type} (calls : τ → WalletCall) (b : Bank) : WalletSystem τ :=
  .start b.world.db.rows b.entries (fun t => (calls t).update.program)

def walletStep {τ : Type} (calls : τ → WalletCall) : Steps Bank (τ × WalletResult) :=
  fun b x b' => (calls x.1).execute b = .ok (x.2, b')

def LedgerEntry.frozenPart (e : LedgerEntry) : Int :=
  match e.entryType with
  | .order _ => -e.amount
  | .deposit | .withdraw => 0

def Bank.FrozenExplained (b : Bank) (user : UserId) : Prop :=
  (b.world.db.holdings.accounts.get? user).elim 0 AccountRow.frozenBalance =
    ((b.entriesOf user).map LedgerEntry.frozenPart).sum

def PositionRow.owned (r : PositionRow) : (Int × Int) × (Int × Int) :=
  ((r.yes.volume, r.yes.costSum), (r.no.volume, r.no.costSum))

/-- The entries account for both balances of every user, and every position holds
the shares that it held at the start. -/
structure Settles (start : Rows DbKey DbKey.Row) (rows : Rows DbKey DbKey.Row)
    (log : List LedgerEntry) : Prop where
  available : ∀ user, Run entryStep 0 (log.filter (fun e => e.userId = user))
    ((rows (.account user)).elim 0 AccountRow.availableBalance)
  frozen : ∀ user, (rows (.account user)).elim 0 AccountRow.frozenBalance =
    ((log.filter (fun e => e.userId = user)).map LedgerEntry.frozenPart).sum
  shares : ∀ user m, (rows (.position user m)).map PositionRow.owned =
    (start (.position user m)).map PositionRow.owned

section Sequential

variable {start c c' : Rows DbKey DbKey.Row} {l l' : List LedgerEntry} {r : WalletResult}
  {userId : UserId}

private theorem onAccount_ok {admits : AccountRow → Prop} [DecidablePred admits]
    {f : AccountRow → AccountRow} {entry : AccountRow → LedgerEntry}
    {refuse : Option AccountRow → AppError}
    (done : (WalletCall.onAccount userId admits f entry refuse).program.alone c l =
      .ok (r, c', l')) :
    ∃ a : AccountRow, c (.account userId) = some a ∧
      c' = Function.update c (.account userId) (some (f a)) ∧ l' = l ++ [entry (f a)] := by
  obtain ⟨a, a', found, _, written, _, rfl, rfl⟩ := GuardedUpdate.alone_ok done
  refine ⟨a, found, ?_⟩
  simp only [WalletCall.onAccount] at written
  split at written
  · obtain rfl := Except.ok.inj written
    exact ⟨rfl, rfl⟩
  · cases written

private theorem onPosition_ok {side : OriginalSide} {marketId : MarketId} {admits : Holding → Prop}
    [DecidablePred admits] {quantity : Int} {detail : String}
    (done : (WalletCall.onPosition side userId marketId admits quantity detail).program.alone c l =
      .ok (r, c', l')) :
    ∃ p : PositionRow, c (.position userId marketId) = some p ∧
      c' = Function.update c (.position userId marketId) (some (p.modify side
        (fun h => { h with pendingSell := h.pendingSell + quantity }))) ∧ l' = l := by
  obtain ⟨p, p', found, _, written, _, rfl, rfl⟩ := GuardedUpdate.alone_ok done
  refine ⟨p, found, ?_⟩
  simp only [WalletCall.onPosition] at written
  split at written
  · obtain rfl := Except.ok.inj written
    exact ⟨rfl, List.append_nil l⟩
  · cases written

private theorem Settles.onAccount {admits : AccountRow → Prop} [DecidablePred admits]
    {f : AccountRow → AccountRow} {entry : AccountRow → LedgerEntry}
    {refuse : Option AccountRow → AppError}
    (shown : ∀ a, (entry (f a)).userId = userId ∧
      (f a).availableBalance = a.availableBalance + (entry (f a)).amount ∧
      (entry (f a)).balanceAfter = (f a).availableBalance ∧
      (f a).frozenBalance = a.frozenBalance + (entry (f a)).frozenPart)
    (settles : Settles start c l)
    (done : (WalletCall.onAccount userId admits f entry refuse).program.alone c l =
      .ok (r, c', l')) : Settles start c' l' := by
  obtain ⟨a, before, rfl, rfl⟩ := onAccount_ok done
  obtain ⟨owner, credit, snapshot, froze⟩ := shown a
  refine ⟨fun user => ?_, fun user => ?_, fun user m => settles.shares user m⟩
  · have seen := settles.available user
    rw [List.filter_append]
    by_cases own : user = userId
    · subst own
      rw [before, Option.elim_some] at seen
      rw [Function.update_self, Option.elim_some,
        List.filter_cons_of_pos (by simpa using owner), List.filter_nil]
      exact seen.append (.single ⟨credit, snapshot⟩)
    · rw [Function.update_of_ne (by simpa using own),
        List.filter_cons_of_neg (by simpa [owner] using Ne.symm own), List.filter_nil,
        List.append_nil]
      exact seen
  · have seen := settles.frozen user
    rw [List.filter_append]
    by_cases own : user = userId
    · subst own
      rw [before, Option.elim_some] at seen
      rw [Function.update_self, Option.elim_some,
        List.filter_cons_of_pos (by simpa using owner), List.filter_nil, List.map_append,
        List.sum_append, ← seen, List.map_singleton, List.sum_singleton]
      exact froze
    · rw [Function.update_of_ne (by simpa using own),
        List.filter_cons_of_neg (by simpa [owner] using Ne.symm own), List.filter_nil,
        List.append_nil]
      exact seen

private theorem Settles.onPosition {side : OriginalSide} {marketId : MarketId}
    {admits : Holding → Prop}
    [DecidablePred admits] {quantity : Int} {detail : String} (settles : Settles start c l)
    (done : (WalletCall.onPosition side userId marketId admits quantity detail).program.alone c l =
      .ok (r, c', l')) : Settles start c' l' := by
  obtain ⟨p, before, rfl, rfl⟩ := onPosition_ok done
  refine ⟨settles.available, settles.frozen, fun user m => ?_⟩
  rw [← settles.shares user m]
  by_cases here : user = userId ∧ m = marketId
  · obtain ⟨rfl, rfl⟩ := here
    rw [Function.update_self, before]
    cases side <;> rfl
  · rw [Function.update_of_ne (by simpa using here)]

private theorem WalletCall.settles (call : WalletCall) (settles : Settles start c l)
    (done : call.update.program.alone c l = .ok (r, c', l')) : Settles start c' l' := by
  cases call with
  | deposit userId amount | withdraw userId amount =>
    refine Settles.onAccount ?_ settles done
    intro a
    exact ⟨rfl, rfl, rfl, (add_zero _).symm⟩
  | freezeFunds userId amount refId =>
    refine Settles.onAccount ?_ settles done
    intro a
    exact ⟨rfl, Int.sub_eq_add_neg, rfl, congrArg (a.frozenBalance + ·) (neg_neg amount).symm⟩
  | unfreezeFunds userId amount refId =>
    refine Settles.onAccount ?_ settles done
    intro a
    exact ⟨rfl, rfl, rfl, Int.sub_eq_add_neg⟩
  | freezeYesPosition userId marketId quantity | unfreezeYesPosition userId marketId quantity
  | freezeNoPosition userId marketId quantity | unfreezeNoPosition userId marketId quantity =>
    exact settles.onPosition done

end Sequential

section Runs

variable {τ : Type} {calls : τ → WalletCall} {b : Bank}

private theorem walletRun_of_alone {order : List (τ × WalletResult)}
    {d : Rows DbKey DbKey.Row × List LedgerEntry}
    (run : Run (aloneSteps (fun t => (calls t).update.program)) (b.world.db.rows, b.entries)
      order d) :
    ∃ b', Run (walletStep calls) b order b' ∧ d = (b'.world.db.rows, b'.entries) := by
  generalize from_ : (b.world.db.rows, b.entries) = d₀ at run
  induction run generalizing b with
  | nil => exact ⟨b, .nil b, from_.symm⟩
  | @cons _ d₁ _ x _ head _ ih =>
    subst from_
    have alone : (calls x.1).update.program.alone b.world.db.rows b.entries = .ok (x.2, d₁) := head
    rw [WalletCall.update_alone] at alone
    cases done : (calls x.1).execute b with
    | error e =>
      rw [done] at alone
      cases alone
    | ok r =>
      rw [done] at alone
      obtain ⟨result, rfl⟩ := Prod.mk.inj (Except.ok.inj alone)
      obtain ⟨b', run, last⟩ := ih rfl
      refine ⟨b', .cons ?_ run, last⟩
      rw [walletStep, done, ← result]

variable [DecidableEq τ] {steps : List (τ × Op Err)} {s : WalletSystem τ}

/-- Transactions of the account repository, however their statements interleave and
whichever of them are given up, leave what the committed ones leave one after the other, each
once. The ledger still leads every user to the available balance, its freezes and unfreezes add
up to the frozen balance, and nobody's shares have changed. -/
theorem wallets_serial (explained : ∀ user, b.Explained user)
    (frozen : ∀ user, b.FrozenExplained user)
    (run : Run (stepsOf System.exec) (startWallets calls b) steps s) :
    ∃ order b', (order.map Prod.fst).Nodup ∧
      (∀ t result, (t, result) ∈ order ↔ s.process t = .ended (.ok result)) ∧
      Run (walletStep calls) b order b' ∧ s.committed = b'.world.db.rows ∧ s.log = b'.entries ∧
      (∀ user, b'.Explained user ∧ b'.FrozenExplained user) ∧
      ∀ user m, (b'.world.db.holdings.positions.get? (user, m)).map PositionRow.owned =
        (b.world.db.holdings.positions.get? (user, m)).map PositionRow.owned := by
  obtain ⟨order, serial⟩ := guarded_serial run
  obtain ⟨b', calls_, same⟩ := walletRun_of_alone serial.run
  obtain ⟨rows, log⟩ := Prod.mk.inj same
  have start : Settles b.world.db.rows b.world.db.rows b.entries :=
    ⟨explained, frozen, fun _ _ => rfl⟩
  have settles : Settles b.world.db.rows s.committed s.log :=
    serial.run.preserves (P := fun d => Settles b.world.db.rows d.1 d.2)
      (fun _ x _ head before => (calls x.1).settles before head) start
  rw [rows, log] at settles
  exact ⟨order, b', serial.distinct, serial.exactly, calls_, rows, log,
    fun user => ⟨settles.available user, settles.frozen user⟩, settles.shares⟩

end Runs

section Checks

def DbKey.Checks : ∀ k : DbKey, k.Row → Prop
  | .order _ => OrderRow.Check
  | .account _ => AccountRow.Check
  | .market _ => MarketRow.Check
  | .position _ _ => PositionRow.Check

private theorem Db.rows_check (db : Db) (k : DbKey) : GoodRow DbKey.Checks (db.rows k) := by
  cases k with
  | order id => exact fun r stored => Table.check stored
  | account userId => exact fun r stored => Table.check stored
  | market m => exact fun r stored => Table.check stored
  | position userId m => exact fun r stored => Table.check stored

/-- The amount of cents, or the quantity of shares. -/
def WalletCall.amount : WalletCall → Int
  | .deposit _ amount | .withdraw _ amount | .freezeFunds _ amount _
  | .unfreezeFunds _ amount _ => amount
  | .freezeYesPosition _ _ quantity | .unfreezeYesPosition _ _ quantity
  | .freezeNoPosition _ _ quantity | .unfreezeNoPosition _ _ quantity => quantity

private theorem onAccount_keeps {userId : UserId} {admits : AccountRow → Prop}
    [DecidablePred admits]
    {f : AccountRow → AccountRow} {entry : AccountRow → LedgerEntry}
    {refuse : Option AccountRow → AppError}
    (keeps : ∀ a : AccountRow, a.Check → admits a → (f a).Check) (a : AccountRow) (ok : a.Check)
    (admitted : (WalletCall.onAccount userId admits f entry refuse).admits a = true) :
    ∃ a', (WalletCall.onAccount userId admits f entry refuse).write a = .ok a' ∧
      AccountRow.Check a' :=
  have kept := keeps a ok (of_decide_eq_true admitted)
  ⟨f a, if_pos kept, kept⟩

private theorem onPosition_keeps {side : OriginalSide} {userId : UserId} {marketId : MarketId}
    {admits : Holding → Prop} [DecidablePred admits] {quantity : Int} {detail : String}
    (keeps : ∀ c : Holding, c.Check → admits c →
      Holding.Check { c with pendingSell := c.pendingSell + quantity })
    (p : PositionRow) (ok : p.Check)
    (admitted : (WalletCall.onPosition side userId marketId admits quantity detail).admits p =
      true) :
    ∃ p', (WalletCall.onPosition side userId marketId admits quantity detail).write p = .ok p' ∧
      PositionRow.Check p' := by
  have fits := of_decide_eq_true admitted
  have kept : (p.modify side
      (fun c => { c with pendingSell := c.pendingSell + quantity })).Check := by
    cases side with
    | yes => exact ⟨keeps _ ok.1 fits, ok.2⟩
    | no => exact ⟨ok.1, keeps _ ok.2 fits⟩
  exact ⟨_, if_pos kept, kept⟩

/-- The WHERE clauses are enough for the CHECK constraints. -/
private theorem WalletCall.keeps_checks (call : WalletCall) (positive : 0 ≤ call.amount)
    (row : call.update.key.Row) (ok : call.update.key.Checks row)
    (admitted : call.update.admits row = true) :
    ∃ row', call.update.write row = .ok row' ∧ call.update.key.Checks row' := by
  cases call with
  | deposit userId amount =>
    refine onAccount_keeps (fun a ok _ => ?_) row ok admitted
    exact ⟨Int.add_nonneg ok.1 positive, ok.2⟩
  | withdraw userId amount =>
    refine onAccount_keeps (fun a ok covered => ?_) row ok admitted
    exact ⟨by simp only; omega, ok.2⟩
  | freezeFunds userId amount refId =>
    refine onAccount_keeps (fun a ok covered => ?_) row ok admitted
    exact ⟨Int.sub_nonneg.mpr covered, Int.add_nonneg ok.2 positive⟩
  | unfreezeFunds userId amount refId =>
    refine onAccount_keeps (fun a ok covered => ?_) row ok admitted
    exact ⟨Int.add_nonneg ok.1 positive, Int.sub_nonneg.mpr covered⟩
  | freezeYesPosition userId marketId quantity | freezeNoPosition userId marketId quantity =>
    refine onPosition_keeps (fun c ok covered => ?_) row ok admitted
    obtain ⟨volume, cost, pending, within⟩ := ok
    exact ⟨volume, cost, Int.add_nonneg pending positive, by simp only; omega⟩
  | unfreezeYesPosition userId marketId quantity | unfreezeNoPosition userId marketId quantity =>
    refine onPosition_keeps (fun c ok covered => ?_) row ok admitted
    obtain ⟨volume, cost, pending, within⟩ := ok
    have positive : 0 ≤ quantity := positive
    exact ⟨volume, cost, by simp only; omega, by simp only; omega⟩

variable {τ : Type} [DecidableEq τ] {calls : τ → WalletCall} {b : Bank}
  {steps : List (τ × Op Err)} {s : WalletSystem τ}

/-- If a transaction is given up, it is because the database fails. -/
def GivenUpByDatabase : τ × Op Err → Prop
  | (_, .run) => True
  | (_, .abort error) => error = .database

instance (a : τ × Op Err) : Decidable (GivenUpByDatabase a) :=
  match a with
  | (_, .run) => .isTrue trivial
  | (_, .abort error) => inferInstanceAs (Decidable (error = .database))

/-- Whatever the interleaving, no transaction with a proper amount ever fails on a CHECK
constraint: its error is its own refusal or that of the database. And none is stuck: it can go
on, or it waits for one that can. -/
theorem wallets_keep_checks (positive : ∀ t, 0 ≤ (calls t).amount)
    (run : Run (Guarded (fun _ a => GivenUpByDatabase a) (stepsOf System.exec))
      (startWallets calls b) steps s) :
    (∀ k row, s.committed k = some row → k.Checks row) ∧
      (∀ t error, s.process t = .ended (.error error) →
        error = .database ∨ ∃ row, error = (calls t).update.refuse row) ∧
      ∀ t, (s.process t).outcome = none → (s.exec (t, .run)).isSome = true ∨
        ∃ u row, s.draft (calls t).update.key = some (u, row) ∧
          (s.exec (u, .run)).isSome = true := by
  have sound : Sound DbKey.Checks (fun t => (calls t).update) (fun _ error => error = .database)
      s := by
    refine guarded_sound (fun t => (calls t).keeps_checks (positive t)) b.world.db.rows_check
      (run.mono ?_)
    rintro s ⟨t, op⟩ s' ⟨byDatabase, done⟩
    refine ⟨fun error same => ?_, done⟩
    obtain rfl : op = .abort error := same
    exact byDatabase
  refine ⟨sound.committed, sound.errors, fun t open_ => ?_⟩
  cases here : s.process t with
  | running n rest => exact guarded_progress run.ofGuarded here
  | ended outcome =>
    rw [here] at open_
    cases open_

end Checks

section Example

private def rivals : Fin 3 → WalletCall
  | 0 => .deposit "alice" 100
  | 1 => .withdraw "alice" 80
  | 2 => .freezeFunds "alice" 80 7

private def bothFind : List (Fin 3 × Op Err) :=
  List.replicate 4 (0, .run) ++ [(1, .run), (2, .run)] ++ List.replicate 3 (1, .run) ++ [(2, .run)]

private theorem newBank_frozen (user : UserId) : newBank.FrozenExplained user := by
  have rows : ∀ e ∈ newBank.world.db.holdings.accounts.rows, e.2.frozenBalance = 0 := by
    decide +kernel
  have none_ : (newBank.world.db.holdings.accounts.get? user).elim 0 AccountRow.frozenBalance = 0 := by
    cases got : newBank.world.db.holdings.accounts.get? user with
    | none => rfl
    | some a => exact rows (user, a) (Table.mem_iff.mpr got)
  rw [Bank.FrozenExplained, none_]
  rfl

end Example

/-- The WHERE clause is checked again on the row that the withdrawal left. -/
theorem freeze_refused_behind_withdrawal : ∃ s : WalletSystem (Fin 3),
    s.process 2 = .ended (.error (.app (insufficientBalanceError 80 20))) ∧
    ∃ order b', Run (walletStep rivals) newBank order b' ∧ s.committed = b'.world.db.rows ∧
      (∀ user, b'.Explained user ∧ b'.FrozenExplained user) ∧ ∀ result, (2, result) ∉ order := by
  have seen : (bothFind.foldlM System.exec (startWallets rivals newBank)).map
      (fun s => (s.process 2).outcome) =
      some (some (.error (.app (insufficientBalanceError 80 20)))) := by
    decide +kernel
  obtain ⟨s, ran, refused⟩ := Option.map_eq_some_iff.mp seen
  have ended := Process.ended_of_outcome refused
  obtain ⟨order, b', _, exactly, calls, rows, _, settled, _⟩ :=
    wallets_serial newBank_explained newBank_frozen (Run.ofExec ran)
  refine ⟨s, ended, order, b', calls, rows, settled, ?_⟩
  intro result member
  rw [exactly, ended] at member
  cases member

theorem rivals_keep_checks : ∃ s : WalletSystem (Fin 3),
    s.process 2 = .ended (.error (.app (insufficientBalanceError 80 20))) ∧
    ∀ k row, s.committed k = some row → k.Checks row := by
  have seen : (bothFind.foldlM
      (fun s a => if GivenUpByDatabase a then System.exec s a else none)
      (startWallets rivals newBank)).map (fun s => (s.process 2).outcome) =
      some (some (.error (.app (insufficientBalanceError 80 20)))) := by
    decide +kernel
  obtain ⟨s, ran, refused⟩ := Option.map_eq_some_iff.mp seen
  have positive : ∀ t, 0 ≤ (rivals t).amount := by decide
  exact ⟨s, Process.ended_of_outcome refused,
    (wallets_keep_checks positive (Run.ofGuardedExec ran)).1⟩

end PredictionMarket
