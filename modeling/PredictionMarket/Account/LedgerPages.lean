/- PredictionMarket/Account/LedgerPages
   digest: The ledger list of a user, page by page, while the ledger goes on growing. -/

import PredictionMarket.Engine.AccountLedger
import PredictionMarket.Library.LivePages
import PredictionMarket.Market.Listing
import Mathlib.Data.List.Chain

set_option autoImplicit false
set_option relaxedAutoImplicit false

namespace PredictionMarket

open Library

/-- A row of `ledger_entries` with the columns that the database fills. -/
structure StoredEntry where
  id : Int
  createdAt : Timestamp
  entry : LedgerEntry
  deriving DecidableEq

/-- The bank with the ids and the times of its ledger. The ids come from a sequence of
BIGINTs, in which a request that is rolled back leaves a gap. -/
structure NumberedBank where
  bank : Bank
  stamps : List (Int × Timestamp)
  size : stamps.length = bank.entries.length
  increasing : stamps.Pairwise (fun a b => a.1 < b.1)
  bigint : ∀ stamp ∈ stamps, 1 ≤ stamp.1 ∧ stamp.1 < 2 ^ 63

def numberedStep : Steps NumberedBank BankOp :=
  fun b op b' => bankStep b.bank op b'.bank ∧ b.stamps <+: b'.stamps

def NumberedBank.rows (b : NumberedBank) : List StoredEntry :=
  List.zipWith (fun stamp => StoredEntry.mk stamp.1 stamp.2) b.stamps b.bank.entries

def EntryType.name : EntryType → String
  | .deposit => "DEPOSIT"
  | .withdraw => "WITHDRAW"
  | .order .orderFreeze => "ORDER_FREEZE"
  | .order .orderUnfreeze => "ORDER_UNFREEZE"

/-- What the writers of an entry put into `reference_type`. -/
def EntryType.referenceType : EntryType → String
  | .deposit => "DEPOSIT"
  | .withdraw => "WITHDRAW"
  | .order _ => "ORDER"

/-- What they put into `description`. -/
def EntryType.description : EntryType → Option String
  | .deposit => some "Simulated deposit"
  | .withdraw => some "Simulated withdrawal"
  | .order _ => none

/-- The functions of the Python library that the ledger list goes through. `loads` is
`json.loads(base64.b64decode(s.encode()).decode())`, `dumps` the way back and `int` the
conversion; `none` is an exception. -/
structure IdCodec where
  loads : String → Option Json
  dumps : Json → String
  int : Json → Option Int
  isoformat : Timestamp → String

section Cursor

variable (py : IdCodec)

def idPayload (lastId : Int) : Json := .obj [("id", .number (toString lastId))]

def ledgerCursorEncode (lastId : Int) : String := py.dumps (idPayload lastId)

/-- Decode a cursor back to the last seen id. Any error gives `None`. -/
def ledgerCursorDecode : Option String → Option Int
  | none => none
  | some cursor => (py.loads cursor).bind (fun payload =>
    match payload.subscript "id" with
    | .ok value => py.int value
    | .error _ => none)

structure IdCodec.ReadsBack (id : Int) : Prop where
  json : py.loads (py.dumps (idPayload id)) = some (idPayload id)
  number : py.int (.number (toString id)) = some id

variable {py}

private theorem ledgerCursorDecode_encode {id : Int} (back : py.ReadsBack id) :
    ledgerCursorDecode py (some (ledgerCursorEncode py id)) = some id := by
  rw [ledgerCursorDecode, ledgerCursorEncode, back.json]
  exact back.number

end Cursor

/-- A BIGINT parameter, for which the driver takes a number of 64 bits or NULL. -/
def bindBigint : Option Int → Except PyErr (Option Int)
  | none => .ok none
  | some n => if -2 ^ 63 ≤ n ∧ n < 2 ^ 63 then .ok (some n) else .error .dataError

/-- The filters of the query; a NULL parameter filters nothing. -/
def StoredEntry.passes (userId : UserId) (entryType : Option String) (e : StoredEntry) : Bool :=
  e.entry.userId = userId && entryType.all (fun t => e.entry.entryType.name = t)

/-- `_LIST_LEDGER_SQL`. -/
def AccountRepository.listLedgerEntries (rows : List StoredEntry) (userId : UserId)
    (cursorId : Option Int) (limit : Nat) (entryType : Option String) : List StoredEntry :=
  ((rows.filter (fun e => cursorId.all (fun c => e.id < c) && e.passes userId entryType)).mergeSort
    (fun a b => b.id ≤ a.id)).take limit

structure LedgerEntryItem where
  id : Int
  entryType : String
  amountCents : Int
  amountDisplay : String
  balanceAfterCents : Int
  balanceAfterDisplay : String
  referenceType : String
  referenceId : Option String
  description : Option String
  createdAt : String

def LedgerEntryItem.ofEntry (py : IdCodec) (e : StoredEntry) : LedgerEntryItem where
  id := e.id
  entryType := e.entry.entryType.name
  amountCents := e.entry.amount
  amountDisplay := centsToDisplay e.entry.amount
  balanceAfterCents := e.entry.balanceAfter
  balanceAfterDisplay := centsToDisplay e.entry.balanceAfter
  referenceType := e.entry.entryType.referenceType
  referenceId := e.entry.referenceId.map toString
  description := e.entry.entryType.description
  createdAt := py.isoformat e.createdAt

/-- The service asks for one entry more than it shows. -/
def AccountApplicationService.listLedger (py : IdCodec) (rows : List StoredEntry) (userId : UserId)
    (cursor : Option String) (limit : Nat) (entryType : Option String) :
    Except PyErr (Page LedgerEntryItem String) := do
  let cursorId ← bindBigint (ledgerCursorDecode py cursor)
  return Page.ofLookahead limit (fun e => ledgerCursorEncode py e.id) (LedgerEntryItem.ofEntry py)
    (AccountRepository.listLedgerEntries rows userId cursorId (limit + 1) entryType)

private theorem bankStep_entries {b b' : Bank} {op : BankOp} (step : bankStep b op b') :
    b.entries <+: b'.entries := by
  obtain rfl := step
  cases op with
  | deposit userId amount =>
    simp only [Bank.next]
    split
    · next done =>
      obtain ⟨new, extended⟩ := (AccountRepository.deposit_extends done).1
      exact ⟨new, extended.entries.symm⟩
    · exact List.prefix_rfl
  | withdraw userId amount =>
    simp only [Bank.next]
    split
    · next done =>
      obtain ⟨new, extended⟩ := (AccountRepository.withdraw_extends done).1
      exact ⟨new, extended.entries.symm⟩
    · exact List.prefix_rfl
  | request op ordinary => exact ⟨_, rfl⟩

namespace NumberedBank

variable {b b' : NumberedBank}

private theorem rows_stamps (b : NumberedBank) : b.rows.map
    (fun e => (e.id, e.createdAt)) = b.stamps := by
  rw [rows, List.map_zipWith]
  exact (List.map_uncurry_zip_eq_zipWith ..).symm.trans (List.map_fst_zip b.size.le)

private theorem rows_entries (b : NumberedBank) :
    b.rows.map StoredEntry.entry = b.bank.entries := by
  rw [rows, List.map_zipWith]
  exact (List.map_uncurry_zip_eq_zipWith ..).symm.trans (List.map_snd_zip b.size.ge)

private theorem rows_increasing (b : NumberedBank) : b.rows.Pairwise (fun x y => x.id < y.id) := by
  have stamps := b.increasing
  rw [← rows_stamps, List.pairwise_map] at stamps
  exact stamps

private theorem rows_bigint {e : StoredEntry} (stored : e ∈ b.rows) : 1 ≤ e.id ∧ e.id < 2 ^ 63 :=
  b.bigint (e.id, e.createdAt) (b.rows_stamps ▸ List.mem_map_of_mem stored)

private theorem rows_prefix {ops : List BankOp} (run : Run numberedStep b ops b') :
    b.rows <+: b'.rows := by
  refine run.preserves (P := fun c => b.rows <+: c.rows) ?_ List.prefix_rfl
  rintro c op c' ⟨step, more, stamps⟩ before
  obtain ⟨new, entries⟩ := bankStep_entries step
  refine before.trans
    ⟨List.zipWith (fun stamp => StoredEntry.mk stamp.1 stamp.2) more new, ?_⟩
  rw [rows, rows, ← stamps, ← entries, List.zipWith_append c.size]

end NumberedBank

section Pages

variable {py : IdCodec} {rows rows' : List StoredEntry} {userId : UserId}
  {entryType : Option String} {limit : Nat}

def ledgerListed (rows : List StoredEntry) (userId : UserId) (entryType : Option String) :
    List StoredEntry :=
  (rows.filter (fun e => e.passes userId entryType)).reverse

private theorem mergeSort_increasing (increasing : rows.Pairwise (fun x y => x.id < y.id)) :
    rows.mergeSort (fun a b => b.id ≤ a.id) = rows.reverse := by
  have perm : (rows.mergeSort (fun a b => b.id ≤ a.id)).Perm rows := List.mergeSort_perm _ _
  have weak : (rows.mergeSort (fun a b => b.id ≤ a.id)).Pairwise
      (fun a b => decide (b.id ≤ a.id) = true) := List.pairwise_mergeSort
    (fun a b c first second => by
      simp only [decide_eq_true_eq] at first second ⊢
      exact second.trans first)
    (fun a b => by
      simp only [Bool.or_eq_true, decide_eq_true_eq]
      exact le_total _ _) rows
  have once : (rows.map StoredEntry.id).Nodup :=
    (List.pairwise_map.mpr increasing).imp (fun below => below.ne)
  have apart := List.pairwise_map.mp ((perm.map StoredEntry.id).nodup_iff.mpr once)
  have strict : (rows.mergeSort (fun a b => b.id ≤ a.id)).Pairwise (fun a b => b.id < a.id) :=
    (weak.and apart).imp (fun both =>
      lt_of_le_of_ne (by simpa only [decide_eq_true_eq] using both.1) both.2.symm)
  exact (perm.trans (List.reverse_perm rows).symm).eq_of_pairwise
    (fun a b _ _ newer older => absurd newer (lt_asymm older)) strict
    (List.pairwise_reverse.mpr increasing)

private theorem listLedgerEntries_eq (increasing : rows.Pairwise (fun x y => x.id < y.id))
    (cursorId : Option Int) :
    AccountRepository.listLedgerEntries rows userId cursorId limit entryType =
      ((ledgerListed rows userId entryType).filter (fun e => cursorId.all (fun c => e.id < c))).take
        limit := by
  rw [AccountRepository.listLedgerEntries, mergeSort_increasing (increasing.filter _), ledgerListed,
    ← List.filter_filter, List.filter_reverse]

private theorem listLedger_ok (increasing : rows.Pairwise (fun x y => x.id < y.id))
    {cursor : Option String} {cursorId : Option Int}
    (bound : bindBigint (ledgerCursorDecode py cursor) = .ok cursorId) :
    AccountApplicationService.listLedger py rows userId cursor limit entryType =
      .ok (Page.ofLookahead limit (fun e => ledgerCursorEncode py e.id) (LedgerEntryItem.ofEntry py)
        ((ledgerListed rows userId entryType).filter
          (fun e => cursorId.all (fun c => e.id < c)))) := by
  simp only [AccountApplicationService.listLedger, bound, bind, Except.bind, pure, Except.pure,
    listLedgerEntries_eq increasing, Page.ofLookahead_take]

def ledgerSelects (py : IdCodec) (cursor : String) (e : StoredEntry) : Bool :=
  (ledgerCursorDecode py (some cursor)).all (fun c => e.id < c)

private theorem ledgerSelects_encode {a : StoredEntry} (back : py.ReadsBack a.id) :
    ledgerSelects py (ledgerCursorEncode py a.id) = fun e => decide (e.id < a.id) := by
  funext e
  rw [ledgerSelects, ledgerCursorDecode_encode back, Option.all_some]

private theorem listLedger_resumed (increasing : rows.Pairwise (fun x y => x.id < y.id))
    {a : StoredEntry} (back : py.ReadsBack a.id) (range : 1 ≤ a.id ∧ a.id < 2 ^ 63) :
    AccountApplicationService.listLedger py rows userId (some (ledgerCursorEncode py a.id)) limit
        entryType =
      .ok (Page.ofLookahead limit (fun e => ledgerCursorEncode py e.id) (LedgerEntryItem.ofEntry py)
        ((ledgerListed rows userId entryType).filter (fun e => e.id < a.id))) := by
  have bound : bindBigint (ledgerCursorDecode py (some (ledgerCursorEncode py a.id))) =
      .ok (some a.id) := by
    rw [ledgerCursorDecode_encode back, bindBigint, if_pos ⟨by omega, range.2⟩]
  exact listLedger_ok increasing bound

private theorem ledgerListed_older {b b' : NumberedBank} (grown : b.rows <+: b'.rows)
    {a : StoredEntry}
    (stored : a ∈ b.rows) :
    (ledgerListed b'.rows userId entryType).filter (fun e => e.id < a.id) =
      (ledgerListed b.rows userId entryType).filter (fun e => e.id < a.id) := by
  obtain ⟨new, split⟩ := grown
  have order := b'.rows_increasing
  rw [← split] at order
  have later : ∀ e ∈ new, a.id < e.id := fun e => (List.pairwise_append.mp order).2.2 a stored e
  have none_ : ((new.filter (fun e => e.passes userId entryType)).reverse).filter
      (fun e => e.id < a.id) = [] := by
    rw [List.filter_eq_nil_iff]
    intro e member
    have behind := later e (List.mem_filter.mp (List.mem_reverse.mp member)).1
    simpa using behind.le
  rw [ledgerListed, ledgerListed, ← split, List.filter_append, List.reverse_append,
    List.filter_append, none_, List.nil_append]

private theorem listLedger_serves {b : NumberedBank} (back : ∀ e ∈ b.rows, py.ReadsBack e.id) :
    Serves limit (fun e : StoredEntry => ledgerCursorEncode py e.id) (LedgerEntryItem.ofEntry py)
      (ledgerListed b.rows userId entryType) (ledgerSelects py)
      (fun cursor => (AccountApplicationService.listLedger py b.rows userId cursor limit
        entryType).toOption) := by
  constructor
  · have start : bindBigint (ledgerCursorDecode py none) = .ok none := rfl
    have whole : (ledgerListed b.rows userId entryType).filter
        (fun e => Option.all (fun c => decide (e.id < c)) none) =
          ledgerListed b.rows userId entryType := List.filter_true _
    rw [listLedger_ok b.rows_increasing start, whole]
    rfl
  · intro a listed
    have stored : a ∈ b.rows := (List.mem_filter.mp (List.mem_reverse.mp listed)).1
    rw [listLedger_resumed b.rows_increasing (back a stored) (NumberedBank.rows_bigint stored),
      ledgerSelects_encode (back a stored)]
    rfl

private theorem mem_ledgerListed {a : StoredEntry}
    (listed : a ∈ ledgerListed rows userId entryType) :
    a ∈ rows := (List.mem_filter.mp (List.mem_reverse.mp listed)).1

private theorem ledger_pages {b : NumberedBank} (back : ∀ e ∈ b.rows, py.ReadsBack e.id)
    (some_ : 0 < limit) : ∃ pages : List (List LedgerEntryItem),
      Follows (fun cursor => (AccountApplicationService.listLedger py b.rows userId cursor limit
        entryType).toOption) none pages ∧
      pages.flatten = (ledgerListed b.rows userId entryType).map (LedgerEntryItem.ofEntry py) ∧
      ∀ page ∈ pages.dropLast, page.length = limit := by
  have sorted : (ledgerListed b.rows userId entryType).Pairwise (fun a b => b.id < a.id) :=
    List.pairwise_reverse.mpr (b.rows_increasing.filter _)
  have resumes : Resumes limit (fun e : StoredEntry => ledgerCursorEncode py e.id)
      (rowsFrom (ledgerListed b.rows userId entryType) (ledgerSelects py))
      (ledgerListed b.rows userId entryType) :=
    resumes_of_sorted (fun _ _ newer => lt_asymm newer) sorted
      (fun a listed b => by rw [ledgerSelects_encode (back a (mem_ledgerListed listed))])
  have start : Issued (fun e : StoredEntry => ledgerCursorEncode py e.id)
      (ledgerListed b.rows userId entryType) none := fun d equal => by cases equal
  exact follows_of_resumes some_ (listLedger_serves back)
    (ledgerListed b.rows userId entryType).length start le_rfl resumes

private theorem ledger_read_settled {sched : Nat → NumberedBank} {ops : Nat → List BankOp}
    (runs : ∀ i, Run numberedStep (sched i) (ops i) (sched (i + 1)))
    (back : ∀ e ∈ (sched 0).rows, py.ReadsBack e.id) {read : List (List LedgerEntryItem)} :
    FollowsThrough (fun i cursor => (AccountApplicationService.listLedger py (sched i).rows userId
        cursor limit entryType).toOption) 0 none read ↔
      Follows (fun cursor => (AccountApplicationService.listLedger py (sched 0).rows userId cursor
        limit entryType).toOption) none read := by
  have grown : ∀ i, (sched 0).rows <+: (sched i).rows := by
    intro i
    induction i with
    | zero => exact List.prefix_rfl
    | succ i ih => exact ih.trans (NumberedBank.rows_prefix (runs i))
  refine followsThrough_iff (listLedger_serves back) (fun i a listed => ?_)
  have stored := mem_ledgerListed listed
  have range := NumberedBank.rows_bigint stored
  rw [listLedger_resumed (sched i).rows_increasing (back a stored) range,
    listLedger_resumed (sched 0).rows_increasing (back a stored) range,
    ledgerListed_older (grown i) stored]

/-- Whoever reads the ledger page by page, with any requests made between the pages,
sees the entries that there were at first, newest first and each once. -/
theorem ledger_read_exact {sched : Nat → NumberedBank} {ops : Nat → List BankOp}
    (runs : ∀ i, Run numberedStep (sched i) (ops i) (sched (i + 1)))
    (back : ∀ e ∈ (sched 0).rows, py.ReadsBack e.id) (some_ : 0 < limit) :
    ∃ pages : List (List LedgerEntryItem),
      (∀ read, FollowsThrough (fun i cursor => (AccountApplicationService.listLedger py
        (sched i).rows userId cursor limit entryType).toOption) 0 none read ↔ read = pages) ∧
      pages.flatten = (ledgerListed (sched 0).rows userId entryType).map (LedgerEntryItem.ofEntry py) ∧
      ∀ page ∈ pages.dropLast, page.length = limit := by
  obtain ⟨pages, follows, whole, full⟩ := ledger_pages back some_
  refine ⟨pages, fun read => ?_, whole, full⟩
  rw [ledger_read_settled runs back]
  exact ⟨fun reads => reads.unique follows, fun same => same ▸ follows⟩

end Pages

section Statement

/-- A list of items, newest first, accounts for a balance: the amounts add up to it, the
first item shows it, and each one shows what the one below it shows and its own amount. -/
structure AccountsFor (items : List LedgerEntryItem) (balance : Int) : Prop where
  sum : (items.map LedgerEntryItem.amountCents).sum = balance
  newest : items.head?.elim 0 LedgerEntryItem.balanceAfterCents = balance
  chain : items.IsChain (fun newer older =>
    newer.balanceAfterCents = older.balanceAfterCents + newer.amountCents)

private theorem entries_lead {start balance : Int} {entries : List LedgerEntry}
    (run : Run entryStep start entries balance) :
    balance = start + (entries.map LedgerEntry.amount).sum ∧
      entries.getLast?.elim start LedgerEntry.balanceAfter = balance ∧
      (∀ e ∈ entries.head?, e.balanceAfter = start + e.amount) ∧
      entries.IsChain (fun older newer =>
        newer.balanceAfter = older.balanceAfter + newer.amount) := by
  induction run with
  | nil s => simp
  | @cons s t u e es head tail ih =>
    obtain ⟨moved, shown⟩ := head
    obtain ⟨sum, last, first, chain⟩ := ih
    refine ⟨?_, ?_, by simp [shown, moved], ?_⟩
    · rw [List.map_cons, List.sum_cons]
      omega
    · cases es with
      | nil => simpa [shown] using last
      | cons e' es =>
        rw [List.getLast?_cons_cons]
        cases final : (e' :: es).getLast? with
        | none => simp at final
        | some e => simpa [final] using last
    · refine List.isChain_cons.mpr ⟨fun e' next => ?_, chain⟩
      rw [first e' next, shown]

variable {b : Bank} {c : NumberedBank} {userId : UserId}

private theorem Bank.Explained.accountsFor (py : IdCodec) (explained : c.bank.Explained userId) :
    AccountsFor ((ledgerListed c.rows userId none).map (LedgerEntryItem.ofEntry py))
      (c.bank.world.db.available userId) := by
  obtain ⟨sum, last, _, chain⟩ := entries_lead explained
  have entries : (ledgerListed c.rows userId none).map StoredEntry.entry =
      (c.bank.entriesOf userId).reverse := by
    have passes : (fun e : StoredEntry => e.passes userId none) =
        (fun e : LedgerEntry => decide (e.userId = userId)) ∘ StoredEntry.entry := by
      funext e
      simp [StoredEntry.passes]
    rw [ledgerListed, Bank.entriesOf, ← c.rows_entries, List.filter_map, ← passes,
      List.map_reverse]
  constructor
  · have amounts := congrArg (fun es => (es.map LedgerEntry.amount).sum) entries
    simp only [List.map_reverse, List.sum_reverse, List.map_map] at amounts
    rw [List.map_map, sum, zero_add, ← amounts]
    rfl
  · rw [List.head?_map, ← last, ← List.head?_reverse, ← entries, List.head?_map, Option.elim_map,
      Option.elim_map]
    rfl
  · have turned := List.isChain_reverse.mpr chain
    rw [← entries, List.isChain_map] at turned
    exact (List.isChain_map _).mpr turned

/-- As long as the ledger explains the balances, whoever reads it to the end sees an
account of the balance at the first page, whatever is done in the meantime. -/
theorem ledger_read_accounts {py : IdCodec} {limit : Nat} {before : List BankOp}
    {sched : Nat → NumberedBank} {ops : Nat → List BankOp}
    (orders : b.world.db.orders.rows = []) (books : ∀ m, b.world.orderbooks m = none)
    (explained : ∀ user, b.Explained user)
    (start : Run (Guarded KeepsLedger bankStep) b before (sched 0).bank)
    (runs : ∀ i, Run numberedStep (sched i) (ops i) (sched (i + 1)))
    (back : ∀ e ∈ (sched 0).rows, py.ReadsBack e.id) (some_ : 0 < limit)
    {read : List (List LedgerEntryItem)}
    (follows : FollowsThrough (fun i cursor => (AccountApplicationService.listLedger py
      (sched i).rows userId cursor limit none).toOption) 0 none read) :
    AccountsFor read.flatten ((sched 0).bank.world.db.available userId) := by
  have opening : b.world.Accounted False :=
    (show Session.Opening ⟨b.world, []⟩ from ⟨orders, books⟩).accounted
  have now : ∀ user, (sched 0).bank.Explained user := by
    refine (start.preserves (P := fun b => b.world.Accounted False ∧ ∀ user, b.Explained user)
      ?_ ⟨opening, explained⟩).2
    rintro c op c' ⟨keeps, step⟩ ⟨acc, before⟩
    obtain ⟨⟨new, extended⟩, acc⟩ := bankStep_extends step acc keeps
    exact ⟨acc, fun user => (before user).extend extended⟩
  obtain ⟨pages, once, whole, _⟩ := ledger_pages back some_
  have same := ((ledger_read_settled runs back).mp follows).unique once
  rw [same, whole]
  exact (now userId).accountsFor py

end Statement

section Example

private def sampleIds : IdCodec where
  loads
    | "eyJpZCI6IDF9" => some (.obj [("id", .number "1")])
    | "eyJpZCI6IDN9" => some (.obj [("id", .number "3")])
    | _ => none
  dumps
    | .obj [("id", .number "1")] => "eyJpZCI6IDF9"
    | _ => "eyJpZCI6IDN9"
  int
    | .number "1" => some 1
    | .number "3" => some 3
    | _ => none
  isoformat time := if time = 0 then "1970-01-01T00:00:00+00:00" else "1970-01-01T00:00:01+00:00"

private def twoDeposits : NumberedBank where
  bank := (newBank.next (.deposit "alice" 1000)).next (.deposit "alice" 500)
  stamps := [(1, 0), (3, 1000000)]
  size := by decide +kernel
  increasing := by decide
  bigint := by decide

private def depositsAndWithdrawal : Nat → NumberedBank
  | 0 => twoDeposits
  | _ + 1 =>
    { bank := twoDeposits.bank.next (.withdraw "alice" 200)
      stamps := [(1, 0), (3, 1000000), (4, 1000000)]
      size := by decide +kernel
      increasing := by decide
      bigint := by decide }

private def withdrawalOnly : Nat → List BankOp
  | 0 => [.withdraw "alice" 200]
  | _ + 1 => []

private theorem withdrawal_runs (i : Nat) :
    Run numberedStep (depositsAndWithdrawal i) (withdrawalOnly i) (depositsAndWithdrawal (i + 1)) := by
  cases i with
  | zero => exact .single ⟨rfl, [(4, 1000000)], rfl⟩
  | succ i => exact .nil _

private theorem sampleIds_back : ∀ e ∈
    (depositsAndWithdrawal 0).rows, sampleIds.ReadsBack e.id := by
  intro e member
  have listed : (e.id, e.createdAt) ∈ (depositsAndWithdrawal 0).stamps :=
    (depositsAndWithdrawal 0).rows_stamps ▸ List.mem_map_of_mem member
  simp only [depositsAndWithdrawal, twoDeposits, List.mem_cons, List.not_mem_nil, or_false,
    Prod.mk.injEq] at listed
  rcases listed with ⟨one, _⟩ | ⟨three, _⟩
  · rw [one]
    exact ⟨rfl, rfl⟩
  · rw [three]
    exact ⟨rfl, rfl⟩

theorem deposits_read_exact : ∃ pages : List (List LedgerEntryItem),
    (∀ read, FollowsThrough (fun i cursor => (AccountApplicationService.listLedger sampleIds
      (depositsAndWithdrawal i).rows "alice" cursor 1 none).toOption) 0 none read ↔ read = pages) ∧
    pages.flatten = (ledgerListed (depositsAndWithdrawal 0).rows "alice" none).map
      (LedgerEntryItem.ofEntry sampleIds) ∧
    ∀ page ∈ pages.dropLast, page.length = 1 :=
  ledger_read_exact withdrawal_runs sampleIds_back Nat.one_pos

theorem deposits_account_for_balance : ∃ read : List (List LedgerEntryItem),
    FollowsThrough (fun i cursor => (AccountApplicationService.listLedger sampleIds
      (depositsAndWithdrawal i).rows "alice" cursor 1 none).toOption) 0 none read ∧
    AccountsFor read.flatten ((depositsAndWithdrawal 0).bank.world.db.available "alice") ∧
    (depositsAndWithdrawal 0).bank.world.db.available "alice" = 1500 := by
  obtain ⟨pages, follows, _⟩ := ledger_pages sampleIds_back Nat.one_pos
  have read := (ledger_read_settled withdrawal_runs sampleIds_back).mpr follows
  have start : Run (Guarded KeepsLedger bankStep) newBank
      [.deposit "alice" 1000, .deposit "alice" 500] (depositsAndWithdrawal 0).bank :=
    .cons ⟨trivial, rfl⟩ (.single ⟨trivial, rfl⟩)
  exact ⟨pages, read, ledger_read_accounts rfl (fun _ => rfl) newBank_explained start withdrawal_runs
    sampleIds_back Nat.one_pos read, by decide +kernel⟩

end Example

end PredictionMarket
