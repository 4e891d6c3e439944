/- PredictionMarket/Concurrency/KeySpending
   digest: Interleaved privileged calls, and when an idempotency key is spent at most once. -/

import PredictionMarket.Concurrency.PrivilegedCalls

set_option autoImplicit false
set_option relaxedAutoImplicit false

namespace PredictionMarket

open Library ReadCommitted

abbrev AmmSystem (ι : Type) := System ι DbKey DbKey.Row AmmRow Err AmmResult

def startCalls {ι : Type} (calls : ι → AmmCall) (s₀ : AmmDb) : AmmSystem ι :=
  .start s₀.db.rows s₀.inserted (fun i => (calls i).program)

def AmmCall.slot (call : AmmCall) : AmmReference × String := (call.reference, call.idempotencyKey)

def pastCheck {ι : Type} (s : AmmSystem ι) (i : ι) : Bool :=
  match s.process i with
  | .running _ (.finish (.idempotentHit _)) => false
  | .running n _ => 0 < n
  | .ended _ => false

def committing {ι : Type} (s : AmmSystem ι) (i : ι) : Bool :=
  match s.process i with
  | .running _ (.finish (.done _)) => true
  | _ => false

/-- When a call commits what it moved, no other unfinished call with its key is past
the check. -/
def KeyUnclaimed {ι : Type} (calls : ι → AmmCall) (s : AmmSystem ι) : ι × Op Err → Prop
  | (i, .run) => committing s i = true → ∀ j, j ≠ i → (calls j).slot = (calls i).slot →
    pastCheck s j = false
  | (_, .abort _) => True

section Serial

variable {ι : Type} {calls : ι → AmmCall} {a : AmmDb}
  {d : Rows DbKey DbKey.Row × List AmmRow} {order : List (ι × AmmResult)}

private theorem AmmCall.execute_ok {call : AmmCall} {s s' : AmmDb} {result : AmmResult}
    (done : call.execute s = .ok (result, s')) :
    (s.keyUsed call.reference call.idempotencyKey = true ∧
        result = .idempotentHit call.idempotencyKey ∧ s' = s) ∨
      Spends call.reference call.idempotencyKey s result s' := by
  unfold execute at done
  cases kind : call.reference with
  | ammMint =>
    rw [kind] at done
    exact (executePrivilegedMint_ok done).imp_right And.left
  | ammBurn =>
    rw [kind] at done
    exact (executePrivilegedBurn_ok done).imp_right And.left

private theorem AmmCall.alone_ok {call : AmmCall} {s : AmmDb} {result : AmmResult}
    (done : call.program.alone s.db.rows s.inserted = .ok (result, d)) :
    ∃ s', call.execute s = .ok (result, s') ∧ d = (s'.db.rows, s'.inserted) := by
  rw [call.program_alone] at done
  cases executed : call.execute s with
  | error e =>
    rw [executed] at done
    cases done
  | ok r =>
    rw [executed] at done
    obtain ⟨result', s'⟩ := r
    obtain ⟨rfl, rfl⟩ := Prod.mk.inj (Except.ok.inj done)
    exact ⟨s', rfl, rfl⟩

private theorem calls_of_programs
    (run : Run (aloneSteps (fun i => (calls i).program)) (a.db.rows, a.inserted) order d) :
    ∃ b, d = (b.db.rows, b.inserted) ∧
      Run (fun a x b => (calls x.1).execute a = .ok (x.2, b)) a order b := by
  generalize start : (a.db.rows, a.inserted) = d₀ at run
  induction run generalizing a with
  | nil d => exact ⟨a, start.symm, .nil a⟩
  | cons head _ ih =>
    subst start
    obtain ⟨a', executed, after⟩ := AmmCall.alone_ok head
    obtain ⟨b, last, rest⟩ := ih after.symm
    exact ⟨b, last, .cons executed rest⟩

private theorem AmmCall.execute_grows {call : AmmCall} {s s' : AmmDb} {result : AmmResult}
    (done : call.execute s = .ok (result, s')) : ∃ added, s'.inserted = s.inserted ++ added := by
  have alone := call.program_alone s
  rw [done] at alone
  obtain ⟨_, added, grown, _⟩ :=
    call.program_writes.alone DbKey.Keeps.refl DbKey.Keeps.trans alone
  exact ⟨added, grown⟩

/-- Of calls one after another, those that hit their key change nothing, and the others
spend different keys. -/
private theorem spends_of_calls {b : AmmDb}
    (run : Run (fun a x b => (calls x.1).execute a = .ok (x.2, b)) a order b) :
    ∃ spent : List (ι × InventoryReport),
      Run (fun a x b => (calls x.1).run a = (.ok (.done x.2), b)) a spent b ∧
      (∀ i report, (i, report) ∈ spent ↔ (i, .done report) ∈ order) ∧
      (∀ i result, (i, result) ∈ order →
        (∃ report, result = .done report) ∨ result = .idempotentHit (calls i).idempotencyKey) ∧
      (spent.map (fun x => (calls x.1).slot)).Nodup ∧
      ∀ x ∈ spent, a.keyUsed (calls x.1).reference (calls x.1).idempotencyKey = false := by
  induction run with
  | nil a => exact ⟨[], .nil a, by simp, by simp, by simp, by simp⟩
  | @cons a a' b x order head _ ih =>
    obtain ⟨i, result⟩ := x
    obtain ⟨spent, run, same, results, distinct, fresh⟩ := ih
    simp only at head
    obtain ⟨_, rfl, rfl⟩ | spends := AmmCall.execute_ok head
    · refine ⟨spent, run, by simpa using same, ?_, distinct, fresh⟩
      intro j r member
      obtain equal | later := List.mem_cons.mp member
      · obtain ⟨rfl, rfl⟩ := Prod.mk.inj equal
        exact Or.inr rfl
      · exact results j r later
    · obtain ⟨report, rfl⟩ := spends.done
      have ran : (calls i).run a = (.ok (.done report), a') := by
        rw [AmmCall.run, head]
      refine ⟨(i, report) :: spent, .cons ran run, ?_, ?_, ?_, ?_⟩
      · intro j r
        simp [same]
      · intro j r member
        obtain equal | later := List.mem_cons.mp member
        · obtain ⟨rfl, rfl⟩ := Prod.mk.inj equal
          exact Or.inl ⟨report, rfl⟩
        · exact results j r later
      · refine List.nodup_cons.mpr ⟨?_, distinct⟩
        rintro again
        obtain ⟨x, member, slot⟩ := List.mem_map.mp again
        obtain ⟨reference, key⟩ := Prod.mk.inj slot
        have unspent := fresh x member
        rw [reference, key, spends.recorded] at unspent
        cases unspent
      · rintro x (_ | ⟨_, member⟩)
        · exact spends.fresh
        · have unspent := fresh x member
          obtain ⟨added, grown⟩ := AmmCall.execute_grows head
          rw [AmmDb.keyUsed, keyIn, grown, List.any_append, Bool.or_eq_false_iff] at unspent
          exact unspent.1

end Serial

section Runs

variable {ι : Type} [DecidableEq ι] {calls : ι → AmmCall} {s₀ : AmmDb} {s s' : AmmSystem ι}
  {i j : ι} {op : Op Err}

def AmmCall.spentIn (call : AmmCall) (inserted : List AmmRow) : Bool :=
  keyIn call.reference call.idempotencyKey inserted

def AmmCall.Relies (call : AmmCall) (s₀ : AmmDb) (inserted : List AmmRow) :
    Rows DbKey DbKey.Row → List AmmRow → Prop :=
  KeyFacts s₀.db.rows call.reference call.idempotencyKey (call.spentIn inserted)

structure Stands (calls : ι → AmmCall) (s₀ : AmmDb) (s : AmmSystem ι) : Prop where
  serial : ∃ order, Serial (fun i => (calls i).program) (s₀.db.rows, s₀.inserted) s order
  keeps : ∀ k, DbKey.Keeps k (s₀.db.rows k) (s.committed k)
  flights : ∀ i n rest, s.process i = .running n rest →
    Follows ((calls i).Relies s₀ s.log) (calls i).program rest s i ∧
      (n = 0 → rest = (calls i).program ∧ s.Blank i)

private theorem Stands.start : Stands calls s₀ (startCalls calls s₀) where
  serial := ⟨[], .start _ _⟩
  keeps := fun k => DbKey.Keeps.refl k _
  flights := by
    intro i n rest here
    obtain ⟨rfl, rfl⟩ := Process.running.inj here
    have blank : (startCalls calls s₀).Blank i := ⟨rfl, rfl⟩
    exact ⟨.start (calls i).program_settled blank, fun _ => ⟨rfl, blank⟩⟩

private theorem Stands.relies (stands : Stands calls s₀ s) (i : ι) :
    (calls i).Relies s₀ s.log s.committed s.log :=
  ⟨fun m => stands.keeps (.market m), fun u => stands.keeps (.account u), rfl⟩

private theorem Stands.commits {n : Nat} {result : AmmResult} (stands : Stands calls s₀ s)
    (here : s.process i = .running n (.finish result)) :
    (calls i).program.alone s.committed s.log =
      .ok (result, s.view i, s.log ++ s.pending i) ∧
    ∃ db db', s.log = db.inserted ∧ (calls i).execute db = .ok (result, db') ∧
      s.log ++ s.pending i = db'.inserted := by
  have alone := (stands.flights i n _ here).1.commits (stands.relies i)
  refine ⟨alone, ?_⟩
  obtain ⟨order, serial⟩ := stands.serial
  obtain ⟨db, tables, _⟩ := calls_of_programs serial.run
  obtain ⟨rows, entries⟩ := Prod.mk.inj tables
  rw [rows, entries] at alone
  obtain ⟨db', executed, after⟩ := AmmCall.alone_ok alone
  exact ⟨db, db', entries, executed, entries ▸ (Prod.mk.inj after).2⟩

private theorem Stands.hit_spent {n : Nat} {key : String} (stands : Stands calls s₀ s)
    (here : s.process i = .running n (.finish (.idempotentHit key))) :
    (calls i).spentIn s.log = true := by
  obtain ⟨_, db, db', entries, executed, _⟩ := stands.commits here
  obtain ⟨used, _⟩ | spends := AmmCall.execute_ok executed
  · rw [entries]
    exact used
  · obtain ⟨report, done⟩ := spends.done
    cases done

/-- A commit leaves the key of every other call as that call has seen it, unless the
call has yet to look. -/
private theorem Stands.commit_spentIn {n m : Nat} {result : AmmResult} {rest : AmmProgram}
    (stands : Stands calls s₀ s) (here : s.process i = .running n (.finish result))
    (unclaimed : KeyUnclaimed calls s (i, .run)) (other : j ≠ i)
    (there : s.process j = .running m rest) :
    m = 0 ∨ (calls j).spentIn (s.log ++ s.pending i) = (calls j).spentIn s.log := by
  obtain ⟨alone, db, db', entries, executed, after⟩ := stands.commits here
  obtain ⟨_, _, unchanged⟩ | spends := AmmCall.execute_ok executed
  · right
    rw [after, unchanged, ← entries]
  · by_cases same : (calls j).slot = (calls i).slot
    · obtain ⟨report, rfl⟩ := spends.done
      have passed := unclaimed (by simp [committing, here]) j other same
      unfold pastCheck at passed
      rw [there] at passed
      split at passed
      · next hit =>
        obtain ⟨rfl, rfl⟩ := Process.running.inj hit
        have spent := stands.hit_spent there
        obtain ⟨reference, key⟩ := Prod.mk.inj same
        have unspent := spends.fresh
        rw [AmmCall.spentIn, reference, key, entries] at spent
        rw [AmmDb.keyUsed, spent] at unspent
        cases unspent
      · next number _ _ running =>
        obtain ⟨rfl, _⟩ := Process.running.inj running
        left
        simpa using passed
      · next ended => cases ended
    · right
      obtain ⟨_, added, grown, all⟩ := (calls i).program_writes.alone DbKey.Keeps.refl
        DbKey.Keeps.trans alone
      rw [grown, AmmCall.spentIn, AmmCall.spentIn, keyIn, keyIn, List.any_append]
      have foreign : added.any (AmmRow.isUnder (calls j).reference (calls j).idempotencyKey) =
          false := by
        rw [List.any_eq_false]
        intro row member mine
        have fits := all row member
        cases row with
        | trade _ => cases mine
        | entry e =>
          obtain ⟨reference, key⟩ := fits
          simp only [AmmRow.isUnder, decide_eq_true_eq] at mine
          exact same (Prod.ext (mine.1.symm.trans reference) (mine.2.symm.trans key))
      rw [foreign, Bool.or_false]

private theorem Stands.step (stands : Stands calls s₀ s) (unclaimed : KeyUnclaimed calls s (i, op))
    (moves : Moves s i op s') : Stands calls s₀ s' := by
  have relies := stands.relies
  refine ⟨?_, ?_, ?_⟩
  · obtain ⟨order, serial⟩ := stands.serial
    exact serial.step moves (fun n result here => (stands.commits here).1)
  · intro k
    obtain ⟨n, result, here, _, rfl⟩ | ⟨committed, _⟩ := moves.commits_or_keeps
    · obtain ⟨keeps, _⟩ := (calls i).program_writes.alone DbKey.Keeps.refl DbKey.Keeps.trans
        (stands.commits here).1
      exact DbKey.Keeps.trans k _ _ _ (stands.keeps k) (keeps k)
    · rw [committed]
      exact stands.keeps k
  · intro j m rest there
    by_cases own : j = i
    · subst own
      obtain ⟨n, before, here⟩ := moves.running
      obtain ⟨rfl, follows⟩ := (stands.flights j n before here).1.step (relies j) here moves there
      obtain ⟨_, result, _, _, rfl⟩ | ⟨_, log⟩ := moves.commits_or_keeps
      · simp [System.commit, System.close] at there
      · rw [log]
        exact ⟨follows, by simp⟩
    · have leaves := moves.leaves own
      rw [leaves.process] at there
      obtain ⟨follows, first⟩ := stands.flights j m rest there
      have kept := follows.other leaves
      refine ⟨?_, fun zero => ⟨(first zero).1, (first zero).2.other leaves⟩⟩
      obtain ⟨n, result, here, rfl, rfl⟩ | ⟨_, log⟩ := moves.commits_or_keeps
      · obtain zero | same := stands.commit_spentIn here unclaimed own there
        · obtain ⟨rfl, blank⟩ := first zero
          exact .start (calls j).program_settled (blank.other leaves)
        · have relied : (calls j).Relies s₀ (s.commit i result).log =
              (calls j).Relies s₀ s.log := by
            rw [AmmCall.Relies, AmmCall.Relies]
            exact congrArg _ same
          rwa [relied]
      · rwa [log]

private theorem Stands.run {acts : List (ι × Op Err)} (stands : Stands calls s₀ s)
    (run : Run (Guarded (KeyUnclaimed calls) (stepsOf System.exec)) s acts s') :
    Stands calls s₀ s' := by
  refine run.preserves ?_ stands
  rintro s ⟨i, op⟩ s' ⟨unclaimed, done⟩ stands
  exact stands.step unclaimed (moves_of_exec done)

end Runs

/-- In every interleaving that meets the condition, at most one of the calls with a key
moves cash and shares: what is committed comes from such calls alone, one after
another and each with a key of its own. The other calls that return report the hit. -/
theorem key_spent_once {ι : Type} [DecidableEq ι] {calls : ι → AmmCall} {s₀ : AmmDb}
    {acts : List (ι × Op Err)} {s : AmmSystem ι}
    (run : Run (Guarded (KeyUnclaimed calls) (stepsOf System.exec)) (startCalls calls s₀) acts s) :
    ∃ (spent : List (ι × InventoryReport)) (tables : AmmDb),
      Run (fun a x b => (calls x.1).run a = (.ok (.done x.2), b)) s₀ spent tables ∧
      s.committed = tables.db.rows ∧ s.log = tables.inserted ∧
      (spent.map (fun x => (calls x.1).slot)).Nodup ∧
      (∀ i report, (i, report) ∈ spent ↔ s.process i = .ended (.ok (.done report))) ∧
      ∀ i result, s.process i = .ended (.ok result) →
        (∃ report, result = .done report) ∨ result = .idempotentHit (calls i).idempotencyKey := by
  obtain ⟨order, serial⟩ := (Stands.start.run run).serial
  obtain ⟨tables, last, ran⟩ := calls_of_programs serial.run
  obtain ⟨spent, spends, same, results, distinct, _⟩ := spends_of_calls ran
  obtain ⟨rows, entries⟩ := Prod.mk.inj last
  refine ⟨spent, tables, spends, rows, entries, distinct, ?_, ?_⟩
  · intro i report
    rw [same, serial.exactly]
  · intro i result ended
    exact results i result ((serial.exactly i result).mpr ended)

section Example

private def emptyMarket : AmmDb where
  db :=
    { holdings :=
        { accounts := .ofRows [(AMM_USER_ID, ⟨1000, 0, false⟩)]
          positions := .empty }
      markets := .ofRows [("m", ⟨.active, 0, 0, 0, 0, 20, none⟩)]
      orders := .empty
      trades := []
      ledger := []
      wal := [] }
  inserted := []

private def mintAndRetry : Bool → AmmCall := fun _ => ⟨.ammMint, AMM_USER_ID, "m", 5, "k"⟩

private def retryAfterwards : List (Bool × Op Err) :=
  List.replicate 12 (false, .run) ++ List.replicate 2 (true, .run)

private def retryMeanwhile : List (Bool × Op Err) :=
  [(false, .run), (true, .run)] ++ List.replicate 11 (false, .run) ++
    List.replicate 11 (true, .run)

private instance (s : AmmSystem Bool) (a : Bool × Op Err) :
    Decidable (KeyUnclaimed mintAndRetry s a) :=
  match a with
  | (i, .run) =>
    inferInstanceAs (Decidable (committing s i = true → ∀ j, j ≠ i →
      (mintAndRetry j).slot = (mintAndRetry i).slot → pastCheck s j = false))
  | (_, .abort _) => .isTrue trivial

theorem retry_hits_spent_key : ∃ s : AmmSystem Bool,
    s.process false = .ended (.ok (.done ⟨"m", 5, 500, 5, 5, 500⟩)) ∧
    s.process true = .ended (.ok (.idempotentHit "k")) ∧
    ∃ (spent : List (Bool × InventoryReport)) (tables : AmmDb),
      Run (fun a x b => (mintAndRetry x.1).run a = (.ok (.done x.2), b)) emptyMarket spent tables ∧
      s.committed = tables.db.rows ∧ s.log = tables.inserted ∧
      (false, ⟨"m", 5, 500, 5, 5, 500⟩) ∈ spent ∧ ∀ report, (true, report) ∉ spent := by
  have seen : (retryAfterwards.foldlM
      (fun s a => if KeyUnclaimed mintAndRetry s a then System.exec s a else none)
      (startCalls mintAndRetry emptyMarket)).map
        (fun s => ((s.process false).outcome, (s.process true).outcome)) =
      some (some (.ok (.done ⟨"m", 5, 500, 5, 5, 500⟩)), some (.ok (.idempotentHit "k"))) := by
    decide +kernel
  obtain ⟨s, ran, results⟩ := Option.map_eq_some_iff.mp seen
  obtain ⟨first, second⟩ := Prod.mk.inj results
  have minted := Process.ended_of_outcome first
  have hit := Process.ended_of_outcome second
  obtain ⟨spent, tables, serial, rows, entries, _, exactly, _⟩ :=
    key_spent_once (Run.ofGuardedExec ran)
  refine ⟨s, minted, hit, spent, tables, serial, rows, entries, (exactly _ _).mpr minted, ?_⟩
  intro report member
  rw [exactly, hit] at member
  cases member

/-- A retry that checks the key before the mint has committed waits for the account row
and then mints a second time. -/
theorem key_spent_twice : ∃ (acts : List (Bool × Op Err)) (s : AmmSystem Bool),
    Run (stepsOf System.exec) (startCalls mintAndRetry emptyMarket) acts s ∧
    (mintAndRetry false).slot = (mintAndRetry true).slot ∧
    s.process false = .ended (.ok (.done ⟨"m", 5, 500, 5, 5, 500⟩)) ∧
    s.process true = .ended (.ok (.done ⟨"m", 5, 500, 10, 10, 0⟩)) ∧
    s.committed (.account AMM_USER_ID) = some ⟨0, 0, false⟩ := by
  have seen : (retryMeanwhile.foldlM System.exec (startCalls mintAndRetry emptyMarket)).map
      (fun s => ((s.process false).outcome, (s.process true).outcome,
        s.committed (.account AMM_USER_ID))) =
      some (some (.ok (.done ⟨"m", 5, 500, 5, 5, 500⟩)),
        some (.ok (.done ⟨"m", 5, 500, 10, 10, 0⟩)), some ⟨0, 0, false⟩) := by
    decide +kernel
  obtain ⟨s, ran, results⟩ := Option.map_eq_some_iff.mp seen
  obtain ⟨first, later⟩ := Prod.mk.inj results
  obtain ⟨second, account⟩ := Prod.mk.inj later
  exact ⟨retryMeanwhile, s, Run.ofExec ran, rfl, Process.ended_of_outcome first,
    Process.ended_of_outcome second, account⟩

end Example

end PredictionMarket
