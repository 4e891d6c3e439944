/- PredictionMarket/Concurrency/Resolvers
   digest: Interleaved resolutions of one market, and when every winning share is paid once. -/

import PredictionMarket.Concurrency.ResolveProgram

set_option autoImplicit false
set_option relaxedAutoImplicit false

namespace PredictionMarket

namespace AdminService

open Library ReadCommitted

abbrev ResolverSystem (ι : Type) := System ι DbKey DbKey.Row Empty Err Unit

section Programs

variable {ι : Type} (m : MarketId) (outcome : ι → OriginalSide) (db₀ : Db) (i : ι)

def orderIds (db : Db) : List OrderId := db.orders.rows.map Prod.fst

def wholeOf : ResolveProgram :=
  resolveProgram m (outcome i) (orderIds db₀) (positionUsers m db₀)

def resolutionOf : ResolveProgram :=
  resolution m (outcome i) (orderIds db₀) (positionUsers m db₀)

def settlementOf : ResolveProgram := settlement m (outcome i) (positionUsers m db₀)

def startResolvers : ResolverSystem ι := .start db₀.rows [] (wholeOf m outcome db₀)

end Programs

/-- The statements that an unfinished resolver has run; 0 for one that is about to raise. -/
def stage {ι : Type} (s : ResolverSystem ι) (i : ι) : Nat :=
  match s.process i with
  | .running _ (.fail _) => 0
  | .running n _ => n
  | .ended _ => 0

def committing {ι : Type} (s : ResolverSystem ι) (i : ι) : Bool :=
  match s.process i with
  | .running _ (.finish _) => true
  | _ => false

def NoShares (l : List ScannedPosition) : Prop := ∀ p ∈ l, p.yesVolume = 0 ∧ p.noVolume = 0

/-- When a resolver commits, every other one that has passed the status check has the
same outcome, and what it has scanned so far held nothing. -/
def ScansHold {ι : Type} (m : MarketId) (outcome : ι → OriginalSide) (db₀ : Db)
    (s : ResolverSystem ι) : ι × Op Err → Prop
  | (i, .run) => committing s i = true → ∀ j, j ≠ i → 0 < stage s j → outcome j = outcome i ∧
    (1 < stage s j → scanOrders m (orderIds db₀) s.committed = []) ∧
    (2 < stage s j → NoShares (scanPositions m (positionUsers m db₀) s.committed))
  | (_, .abort _) => True

section Runs

variable {ι : Type} [DecidableEq ι] {m : MarketId} {outcome : ι → OriginalSide} {db₀ : Db}
  {s s' : ResolverSystem ι} {i j : ι} {op : Op Err} {n n' : Nat} {rest rest' : ResolveProgram}

/-- Whoever has committed has the outcome of `i`. -/
def Agrees (outcome : ι → OriginalSide) (s : ResolverSystem ι) (i : ι) : Prop :=
  ∀ j, s.process j = .ended (.ok ()) → outcome j = outcome i

inductive Flight (m : MarketId) (outcome : ι → OriginalSide) (db₀ : Db) (s : ResolverSystem ι)
    (i : ι) (n : Nat) (rest : ResolveProgram) : Prop
  | unread (zero : n = 0) (whole : rest = wholeOf m outcome db₀ i) (blank : s.Blank i)
  | refused (e : Err) (fails : rest = .fail e)
  | checked (one : n = 1) (from_ : rest = resolutionOf m outcome db₀ i) (blank : s.Blank i)
      (agrees : Agrees outcome s i)
  | scanned (started : 1 < n) (agrees : Agrees outcome s i)
      (follows : Follows (Snapshot m s.committed) (resolutionOf m outcome db₀ i) rest s i)
      (untouched : n = 2 → scanOrders m (orderIds db₀) s.committed = [] →
        rest = settlementOf m outcome db₀ i ∧ s.Blank i)

/-- The committed rows are `tables`: those of the start, or those after one resolution. -/
structure Holds (m : MarketId) (outcome : ι → OriginalSide) (db₀ : Db) (s : ResolverSystem ι)
    (tables : Db) : Prop where
  rows : s.committed = tables.rows
  keys : SameKeys db₀ tables
  paid : (tables = db₀ ∧ ∀ i, s.process i ≠ .ended (.ok ())) ∨
    ∃ i, s.process i = .ended (.ok ()) ∧ Resolved m (outcome i) db₀ tables

structure Stands (m : MarketId) (outcome : ι → OriginalSide) (db₀ : Db) (s : ResolverSystem ι) :
    Prop where
  tables : ∃ tables, Holds m outcome db₀ s tables
  flights : ∀ i n rest, s.process i = .running n rest → Flight m outcome db₀ s i n rest

private theorem Stands.start : Stands m outcome db₀ (startResolvers m outcome db₀) := by
  constructor
  · exact ⟨db₀, rfl, .refl db₀, Or.inl ⟨rfl, by simp [startResolvers, System.start]⟩⟩
  · intro i n rest here
    obtain ⟨rfl, rfl⟩ := Process.running.inj here
    exact .unread rfl rfl ⟨rfl, rfl⟩

omit [DecidableEq ι] in
private theorem Holds.scanOrders_eq {tables : Db} (holds : Holds m outcome db₀ s tables) :
    scanOrders m (orderIds db₀) s.committed = openOrders m tables := by
  rw [holds.rows, orderIds, ← holds.keys.orders]
  exact AdminService.scanOrders_eq

private theorem Stands.commits (stands : Stands m outcome db₀ s) (ready : db₀.Resolvable m)
    (here : s.process i = .running n (.finish ())) :
    ∃ tables tables', Holds m outcome db₀ s tables ∧ Holds m outcome db₀ (s.commit i ()) tables' ∧
      resolveInTransaction m (outcome i) tables = .ok tables' ∧
      Resolved m (outcome i) db₀ tables' := by
  obtain ⟨tables, holds⟩ := stands.tables
  cases stands.flights i n _ here with
  | unread _ whole _ => cases whole
  | refused e fails => cases fails
  | checked _ from_ _ _ => cases from_
  | scanned _ agrees follows _ =>
    have alone := follows.commits (.refl s.committed s.log)
    rw [holds.rows, resolutionOf, orderIds, ← holds.keys.orders, ← holds.keys.users,
      resolution_alone] at alone
    cases ran : resolveInTransaction m (outcome i) tables with
    | error e =>
      rw [ran] at alone
      cases alone
    | ok tables' =>
      rw [ran] at alone
      have rows : tables'.rows = s.view i := congrArg (·.2.1) (Except.ok.inj alone)
      have resolved : Resolved m (outcome i) db₀ tables' := by
        obtain ⟨rfl, _⟩ | ⟨j, ended, resolved⟩ := holds.paid
        · obtain ⟨db', ran', resolved⟩ : ∃ db',
              resolveInTransaction m (outcome i) tables = .ok db' ∧
              Resolved m (outcome i) tables db' := resolveInTransaction_succeeds ready
          obtain rfl : tables' = db' := Except.ok.inj (ran.symm.trans ran')
          exact resolved
        · rw [agrees j ended] at resolved
          exact resolved.again ran
      have ended : (s.commit i ()).process i = .ended (.ok ()) := Function.update_self ..
      exact ⟨tables, tables', holds, ⟨rows.symm,
        holds.keys.trans (resolveInTransaction_sameKeys ran), Or.inr ⟨i, ended, resolved⟩⟩,
        ran, resolved⟩

/-- After an order scan that found none, the settlement is all that is left. -/
private theorem follows_settlement (blank : s.Blank i)
    (noOrders : scanOrders m (orderIds db₀) s.committed = []) :
    Follows (Snapshot m s.committed) (resolutionOf m outcome db₀ i) (settlementOf m outcome db₀ i)
      s i := by
  refine ⟨⟨∅, by simp, settlement_settled ∅⟩, ?_⟩
  intro c l good _ out done
  rw [blank.1, blank.2, List.append_nil] at done
  have scanned : scanOrders m (orderIds db₀) c = [] := (scanOrders_congr good.orders).trans noOrders
  rw [resolutionOf, resolution, Program.alone, scanned]
  exact done

omit [DecidableEq ι] in
/-- A resolution with no order to cancel and no share to pay changes nothing that the
scans see. -/
private theorem snapshot_kept {tables tables' : Db} (holds : Holds m outcome db₀ s tables)
    (holds' : Holds m outcome db₀ s' tables')
    (ran : resolveInTransaction m (outcome i) tables = .ok tables')
    (resolved : Resolved m (outcome i) db₀ tables')
    (noOrders : scanOrders m (orderIds db₀) s.committed = [])
    (shares : NoShares (scanPositions m (positionUsers m db₀) s.committed)) :
    Snapshot m s'.committed = Snapshot m s.committed := by
  have present : ∀ k, (s'.committed k).isSome = (s.committed k).isSome := by
    intro k
    rw [holds.rows, holds'.rows, holds.keys.present, holds'.keys.present]
  refine (⟨?_, ?_, present⟩ : Snapshot m s.committed s'.committed []).congr
  · intro id
    obtain ⟨db₁, cancelled, settled⟩ := resolveInTransaction_ok ran
    rw [← holds.scanOrders_eq, noOrders] at cancelled
    obtain rfl : tables = db₁ := Except.ok.inj cancelled
    rw [holds.rows, holds'.rows]
    exact congrArg (·.get? id) (settleMarket_ok settled).1
  · intro user
    have there := present (.position user m)
    rw [holds.rows, holds'.rows] at there ⊢
    simp only [Db.rows] at there ⊢
    cases got : tables.holdings.positions.get? (user, m) with
    | none =>
      rw [got] at there
      have absent : tables'.holdings.positions.get? (user, m) = none := by simpa using there
      rw [absent]
    | some r =>
      rw [got] at there
      obtain ⟨r', got'⟩ := Option.isSome_iff_exists.mp there
      rw [got', resolved.positions user r' got']
      rw [holds.rows, ← holds.keys.users, scanPositions_eq] at shares
      have listed : (user, r) ∈ marketPositions m tables.holdings :=
        List.mem_map.mpr ⟨((user, m), r),
          List.mem_filter.mpr ⟨Table.mem_iff.mpr got, by simp⟩, rfl⟩
      obtain ⟨yes, no⟩ := shares _ (List.mem_map.mpr ⟨(user, r), listed, rfl⟩)
      simp only [ScannedPosition.ofRow] at yes no
      simp [ScannedPosition.ofRow, yes, no, PositionRow.empty, Holding.empty]

omit [DecidableEq ι] in
private theorem stage_eq (here : s.process i = .running n rest) :
    stage s i = n ∨ ∃ e, rest = .fail e := by
  unfold stage
  rw [here]
  cases rest with
  | fail e => exact Or.inr ⟨e, rfl⟩
  | finish | select | update | insert => exact Or.inl rfl

private theorem Agrees.step (agrees : Agrees outcome s j) (moves : Moves s i op s')
    (open_ : s'.process i ≠ .ended (.ok ())) : Agrees outcome s' j := by
  intro k ended
  have other : k ≠ i := by
    rintro rfl
    exact open_ ended
  rw [(moves.leaves other).process] at ended
  exact agrees k ended

private theorem Flight.other (flight : Flight m outcome db₀ s j n rest) (leaves : s.Leaves s' j)
    (committed : s'.committed = s.committed)
    (agreeing : Agrees outcome s j → Agrees outcome s' j) : Flight m outcome db₀ s' j n rest := by
  cases flight with
  | unread zero whole blank => exact .unread zero whole (blank.other leaves)
  | refused e fails => exact .refused e fails
  | checked one from_ blank agrees =>
    exact .checked one from_ (blank.other leaves) (agreeing agrees)
  | scanned started agrees follows untouched =>
    refine .scanned started (agreeing agrees) ?_ ?_
    · rw [committed]
      exact follows.other leaves
    · rw [committed]
      intro two noOrders
      obtain ⟨same, blank⟩ := untouched two noOrders
      exact ⟨same, blank.other leaves⟩

private theorem Stands.flight_commit (stands : Stands m outcome db₀ s) (ready : db₀.Resolvable m)
    (scansHold : ScansHold m outcome db₀ s (i, .run))
    (here : s.process i = .running n (.finish ())) (leaves : s.Leaves (s.commit i ()) j)
    (other : j ≠ i) (there : s.process j = .running n' rest') :
    Flight m outcome db₀ (s.commit i ()) j n' rest' := by
  obtain ⟨tables, tables', holds, holds', ran, resolved⟩ := stands.commits ready here
  have scans := scansHold (by simp [committing, here]) j other
  obtain reached | ⟨e, fails⟩ := stage_eq there
  · rw [reached] at scans
    have agreeing : 0 < n' → Agrees outcome s j → Agrees outcome (s.commit i ()) j := by
      intro passed agrees k ended
      by_cases own : k = i
      · rw [own, (scans passed).1]
      · apply agrees k
        rw [← ended]
        exact (Function.update_of_ne own _ _).symm
    cases stands.flights j n' rest' there with
    | unread zero whole blank => exact .unread zero whole (blank.other leaves)
    | refused e fails => exact .refused e fails
    | checked one from_ blank agrees =>
      exact .checked one from_ (blank.other leaves) (agreeing (by omega) agrees)
    | scanned started agrees follows untouched =>
      have passed : 0 < n' := by omega
      have noOrders := (scans passed).2.1 started
      by_cases two : n' = 2
      · obtain ⟨rfl, blank⟩ := untouched two noOrders
        have after : scanOrders m (orderIds db₀) (s.commit i ()).committed = [] :=
          holds'.scanOrders_eq.trans resolved.openOrders
        exact .scanned started (agreeing passed agrees)
          (follows_settlement (blank.other leaves) after)
          (fun _ _ => ⟨rfl, blank.other leaves⟩)
      · have shares := (scans passed).2.2 (by omega)
        have same := snapshot_kept holds holds' ran resolved noOrders shares
        refine .scanned started (agreeing passed agrees) ?_ (fun again => absurd again two)
        rw [same]
        exact follows.other leaves
  · exact .refused e fails

private theorem Stands.flight_own (stands : Stands m outcome db₀ s) (moves : Moves s i op s')
    (there : s'.process i = .running n' rest') : Flight m outcome db₀ s' i n' rest' := by
  obtain ⟨n, rest, here⟩ := moves.running
  have open_ : s'.process i ≠ .ended (.ok ()) := by simp [there]
  cases stands.flights i n rest here with
  | unread zero whole blank =>
    subst zero whole
    obtain ⟨next, one, after⟩ := moves.select_next here there
    rw [blank.view] at next
    cases row : s.committed (.market m) with
    | none =>
      rw [row] at next
      exact .refused _ next
    | some r =>
      rw [row, Option.map_some, requireOpen] at next
      by_cases closed : r.status ≠ .active ∧ r.status ≠ .suspended
      · rw [if_pos closed] at next
        exact .refused _ next
      · rw [if_neg closed] at next
        subst after
        refine .checked one next blank (Agrees.step ?_ moves open_)
        -- a market that is open has not been resolved
        obtain ⟨tables, holds⟩ := stands.tables
        intro k ended
        obtain ⟨_, nobody⟩ | ⟨_, _, resolved⟩ := holds.paid
        · exact absurd ended (nobody k)
        · obtain ⟨r', got, settled, _⟩ := resolved.market
          rw [holds.rows] at row
          obtain rfl : r' = r := Option.some.inj (got.symm.trans row)
          simp [settled] at closed
  | refused e fails =>
    subst fails
    exact absurd there (moves.fail_ends here)
  | checked one from_ blank agrees =>
    subst one from_
    obtain ⟨next, two, after⟩ := moves.select_next here there
    have follows := ((Follows.start (resolution_settled ∅) blank).step (.refl _ _) here moves
      there).2
    rw [blank.view] at next
    have agreed := agrees.step moves open_
    subst after
    refine .scanned (by omega) agreed follows ?_
    intro _ noOrders
    refine ⟨?_, blank⟩
    rw [next]
    exact congrArg (cancelOrders m _) noOrders
  | scanned started agrees follows _ =>
    obtain ⟨rfl, follows⟩ := follows.step (.refl _ _) here moves there
    refine .scanned (by omega) (agrees.step moves open_) ?_ (by omega)
    obtain ⟨_, _, _, _, rfl⟩ | ⟨committed, _⟩ := moves.commits_or_keeps
    · simp [System.commit, System.close] at there
    · rw [committed]
      exact follows

private theorem Stands.step (stands : Stands m outcome db₀ s) (ready : db₀.Resolvable m)
    (scansHold : ScansHold m outcome db₀ s (i, op)) (moves : Moves s i op s') :
    Stands m outcome db₀ s' := by
  by_cases ends : s'.process i = .ended (.ok ())
  · obtain ⟨n, here, rfl, rfl⟩ := moves.of_ended_ok ends
    obtain ⟨_, tables', _, holds', _⟩ := stands.commits ready here
    refine ⟨⟨tables', holds'⟩, ?_⟩
    intro j n' rest' there
    by_cases own : j = i
    · subst own
      rw [ends] at there
      cases there
    · have leaves := moves.leaves own
      rw [leaves.process] at there
      exact stands.flight_commit ready scansHold here leaves own there
  · have committed : s'.committed = s.committed := by
      obtain ⟨n, result, here, _, rfl⟩ | ⟨committed, _⟩ := moves.commits_or_keeps
      · exact absurd (Function.update_self ..) ends
      · exact committed
    have ended : ∀ j, s'.process j = .ended (.ok ()) ↔ s.process j = .ended (.ok ()) := by
      intro j
      by_cases own : j = i
      · subst own
        obtain ⟨n, rest, here⟩ := moves.running
        simp [ends, here]
      · rw [(moves.leaves own).process]
    constructor
    · obtain ⟨tables, holds⟩ := stands.tables
      refine ⟨tables, committed.trans holds.rows, holds.keys, ?_⟩
      simp only [ne_eq, ended]
      exact holds.paid
    · intro j n' rest' there
      by_cases own : j = i
      · subst own
        exact stands.flight_own moves there
      · have leaves := moves.leaves own
        rw [leaves.process] at there
        exact (stands.flights j n' rest' there).other leaves committed
          (fun agrees => agrees.step moves ends)

private theorem Stands.run {acts : List (ι × Op Err)} (stands : Stands m outcome db₀ s)
    (ready : db₀.Resolvable m)
    (run : Run (Guarded (ScansHold m outcome db₀) (stepsOf System.exec)) s acts s') :
    Stands m outcome db₀ s' := by
  refine run.preserves ?_ stands
  rintro s ⟨i, op⟩ s' ⟨scansHold, done⟩ stands
  exact stands.step ready scansHold (moves_of_exec done)

end Runs

/-- In every interleaving that meets the condition, on covered tables, the market is
resolved at most once: until a resolver has committed the tables are those of the start,
and from then on they are those after one resolution, which pays every winning share
and returns what every active order holds. -/
theorem resolved_once {ι : Type} [DecidableEq ι] {m : MarketId} {outcome : ι → OriginalSide}
    {db₀ : Db} {acts : List (ι × Op Err)} {s : ResolverSystem ι} (ready : db₀.Resolvable m)
    (run : Run (Guarded (ScansHold m outcome db₀) (stepsOf System.exec))
      (startResolvers m outcome db₀) acts s) :
    ∃ tables : Db, s.committed = tables.rows ∧
      ((tables = db₀ ∧ ∀ i, s.process i ≠ .ended (.ok ())) ∨
        ∃ i, s.process i = .ended (.ok ()) ∧ Resolved m (outcome i) db₀ tables) := by
  obtain ⟨tables, holds⟩ := (Stands.start.run ready run).tables
  exact ⟨tables, holds.rows, holds.paid⟩


section Example

/-- Ten pairs in an open market, the YES shares with one user and the NO shares with
another. -/
private def tenPairs : Db where
  holdings :=
    { accounts := .ofRows [("winner", ⟨0, 0, false⟩), ("loser", ⟨0, 0, false⟩)]
      positions := .ofRows [(("winner", "m"), ⟨⟨10, 500, 0⟩, .empty⟩),
        (("loser", "m"), ⟨.empty, ⟨10, 500, 0⟩⟩)] }
  markets := .ofRows [("m", ⟨.active, 1000, 0, 10, 10, 20, none⟩)]
  orders := .empty
  trades := []
  ledger := []
  wal := []

private theorem tenPairs_resolvable : tenPairs.Resolvable "m" := by
  have noOrders : ∀ user asset, tenPairs.heldByOrders "m" user asset = 0 := fun _ _ => rfl
  constructor
  · exact ⟨⟨.active, 1000, 0, 10, 10, 20, none⟩, by decide +kernel⟩
  · intro user r side got
    have rows : tenPairs.holdings.positions.rows = [(("winner", "m"), ⟨⟨10, 500, 0⟩, .empty⟩),
        (("loser", "m"), ⟨.empty, ⟨10, 500, 0⟩⟩)] := by
      decide +kernel
    have stored := Table.mem_iff.mpr got
    rw [rows] at stored
    rw [noOrders]
    simp only [List.mem_cons, Prod.mk.injEq, List.not_mem_nil, or_false] at stored
    rcases stored with ⟨_, rfl⟩ | ⟨_, rfl⟩
    · cases side <;> rfl
    · cases side <;> rfl
  · intro user
    rw [noOrders]
    exact Holdings.frozenOf_nonneg _ _

private def bothYes : Bool → OriginalSide := fun _ => .yes

private def oneByOne : List (Bool × Op Err) :=
  List.replicate 8 (false, .run) ++ List.replicate 2 (true, .run)

private def scansFirst : List (Bool × Op Err) :=
  List.replicate 3 (false, .run) ++ List.replicate 3 (true, .run) ++
    List.replicate 5 (false, .run) ++ List.replicate 5 (true, .run)

private instance (s : ResolverSystem Bool) (a : Bool × Op Err) :
    Decidable (ScansHold "m" bothYes tenPairs s a) :=
  match a with
  | (i, .run) =>
    have : ∀ l : List ScannedPosition, Decidable (NoShares l) :=
      fun l => inferInstanceAs (Decidable (∀ p ∈ l, p.yesVolume = 0 ∧ p.noVolume = 0))
    inferInstanceAs (Decidable (committing s i = true → ∀ j, j ≠ i → 0 < stage s j →
      bothYes j = bothYes i ∧
      (1 < stage s j → scanOrders "m" (orderIds tenPairs) s.committed = []) ∧
      (2 < stage s j →
        NoShares (scanPositions "m" (positionUsers "m" tenPairs) s.committed))))
  | (_, .abort _) => .isTrue trivial

theorem second_resolver_refused : ∃ s : ResolverSystem Bool,
    s.process false = .ended (.ok ()) ∧
    s.process true =
      .ended (.error (.app ⟨3002, "Market cannot be resolved (status=SETTLED)", 422⟩)) ∧
    ∃ tables : Db, s.committed = tables.rows ∧ Resolved "m" .yes tenPairs tables := by
  have seen : (oneByOne.foldlM
      (fun s a => if ScansHold "m" bothYes tenPairs s a then System.exec s a else none)
      (startResolvers "m" bothYes tenPairs)).map
        (fun s => ((s.process false).outcome, (s.process true).outcome)) =
      some (some (.ok ()),
        some (.error (.app ⟨3002, "Market cannot be resolved (status=SETTLED)", 422⟩))) := by
    decide +kernel
  obtain ⟨s, ran, outcomes⟩ := Option.map_eq_some_iff.mp seen
  obtain ⟨first, second⟩ := Prod.mk.inj outcomes
  have resolves := Process.ended_of_outcome first
  obtain ⟨tables, rows, paid⟩ := resolved_once tenPairs_resolvable (Run.ofGuardedExec ran)
  refine ⟨s, resolves, Process.ended_of_outcome second, tables, rows, ?_⟩
  obtain ⟨_, nobody⟩ | ⟨i, _, resolved⟩ := paid
  · exact absurd resolves (nobody false)
  · exact resolved

/-- Two resolvers that scan before either has committed pay ten winning shares twice. -/
theorem winner_paid_twice : ∃ (acts : List (Bool × Op Err)) (s : ResolverSystem Bool),
    Run (stepsOf System.exec) (startResolvers "m" bothYes tenPairs) acts s ∧
    tenPairs.Resolvable "m" ∧ tenPairs.holdings.sharesOf "winner" "m" .yes = 10 ∧
    s.process false = .ended (.ok ()) ∧ s.process true = .ended (.ok ()) ∧
    tenPairs.rows (.account "winner") = some ⟨0, 0, false⟩ ∧
    s.committed (.account "winner") = some ⟨2000, 0, false⟩ := by
  have seen : (scansFirst.foldlM System.exec (startResolvers "m" bothYes tenPairs)).map
      (fun s => ((s.process false).outcome, (s.process true).outcome,
        s.committed (.account "winner"))) =
      some (some (.ok ()), some (.ok ()), some ⟨2000, 0, false⟩) := by
    decide +kernel
  obtain ⟨s, ran, results⟩ := Option.map_eq_some_iff.mp seen
  obtain ⟨first, later⟩ := Prod.mk.inj results
  obtain ⟨second, account⟩ := Prod.mk.inj later
  exact ⟨scansFirst, s, Run.ofExec ran, tenPairs_resolvable, by decide +kernel,
    Process.ended_of_outcome first, Process.ended_of_outcome second, by decide +kernel, account⟩

end Example

end AdminService

end PredictionMarket
