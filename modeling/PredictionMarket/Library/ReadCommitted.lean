/- PredictionMarket/Library/ReadCommitted
   digest: Transactions under READ COMMITTED with row locks, and when a run of them is serial. -/

import PredictionMarket.Library.Run
import Mathlib.Data.Set.Insert
import Mathlib.Logic.Function.Basic

set_option autoImplicit false
set_option relaxedAutoImplicit false

namespace PredictionMarket.Library.ReadCommitted

universe u

variable {τ κ : Type u} {ν : κ → Type u} {β ε ρ : Type u}

/-- A row under every key; `none` is an absent row. -/
abbrev Rows (κ : Type u) (ν : κ → Type u) := ∀ k, Option (ν k)

abbrev Draft (κ : Type u) (ν : κ → Type u) := ∀ k, Option (Option (ν k))

def overlay (draft : Draft κ ν) (rows : Rows κ ν) : Rows κ ν := fun k => (draft k).getD (rows k)

theorem overlay_congr {draft : Draft κ ν} {c c' : Rows κ ν} {k : κ}
    (same : draft k = none → c k = c' k) : overlay draft c k = overlay draft c' k := by
  unfold overlay
  cases written : draft k with
  | none => exact same written
  | some row => rfl

/-- A transaction, statement by statement. -/
inductive Program (κ : Type u) (ν : κ → Type u) (β ε ρ : Type u)
  /-- Commit and return. -/
  | finish (result : ρ)
  /-- Raise and roll back. -/
  | fail (error : ε)
  /-- A plain SELECT. -/
  | select (next : Rows κ ν → List β → Program κ ν β ε ρ)
  /-- A statement that locks a row and writes it. A SELECT ... FOR UPDATE writes the
  row as it is, an UPDATE leaves an absent row absent. -/
  | update (k : κ) (f : Option (ν k) → Except ε (Option (ν k)))
      (next : Option (ν k) → Program κ ν β ε ρ)
  /-- An INSERT that adds an entry to the log. -/
  | insert (entry : β) (next : Program κ ν β ε ρ)

/-- What a transaction returns and leaves behind with no other one around. -/
def Program.alone [DecidableEq κ] :
    Program κ ν β ε ρ → Rows κ ν → List β → Except ε (ρ × Rows κ ν × List β)
  | finish result, rows, log => .ok (result, rows, log)
  | fail error, _, _ => .error error
  | select next, rows, log => (next rows log).alone rows log
  | update k f next, rows, log =>
    match f (rows k) with
    | .error error => .error error
    | .ok row => (next row).alone (Function.update rows k row) log
  | insert entry next, rows, log => next.alone rows (log ++ [entry])

/-- Where a transaction is; the number counts the statements that it has run. -/
inductive Process (κ : Type u) (ν : κ → Type u) (β ε ρ : Type u)
  | running (statements : Nat) (rest : Program κ ν β ε ρ)
  | ended (outcome : Except ε ρ)

def Process.outcome : Process κ ν β ε ρ → Option (Except ε ρ)
  | running _ _ => none
  | ended outcome => some outcome

theorem Process.ended_of_outcome {p : Process κ ν β ε ρ} {outcome : Except ε ρ}
    (seen : p.outcome = some outcome) : p = .ended outcome := by
  cases p with
  | running n rest => cases seen
  | ended o => exact congrArg Process.ended (Option.some.inj seen)

/-- The committed rows and log, and what the open transactions have written. A
row has one draft at most, which is the lock on it. -/
structure System (τ κ : Type u) (ν : κ → Type u) (β ε ρ : Type u) where
  committed : Rows κ ν
  log : List β
  draft : ∀ k, Option (τ × Option (ν k))
  pending : τ → List β
  process : τ → Process κ ν β ε ρ

inductive Op (ε : Type u)
  /-- The next statement. -/
  | run
  /-- The database or the caller gives the transaction up. -/
  | abort (error : ε)

namespace System

def start (rows : Rows κ ν) (log : List β) (program : τ → Program κ ν β ε ρ) :
    System τ κ ν β ε ρ where
  committed := rows
  log := log
  draft := fun _ => none
  pending := fun _ => []
  process := fun t => .running 0 (program t)

variable [DecidableEq τ]

def own (s : System τ κ ν β ε ρ) (t : τ) : Draft κ ν :=
  fun k => (s.draft k).bind (fun e => if e.1 = t then some e.2 else none)

def heldByOther (s : System τ κ ν β ε ρ) (t : τ) (k : κ) : Bool :=
  (s.draft k).any (fun e => e.1 ≠ t)

def view (s : System τ κ ν β ε ρ) (t : τ) : Rows κ ν := overlay (s.own t) s.committed

/-- Whether a statement finds no row, and so neither waits nor locks. -/
def findsNone (s : System τ κ ν β ε ρ) (t : τ) (k : κ)
    (f : Option (ν k) → Except ε (Option (ν k))) : Bool :=
  (s.own t k).isNone && (s.committed k).isNone &&
    match f none with
    | .ok none => true
    | _ => false

def goOn (s : System τ κ ν β ε ρ) (t : τ) (n : Nat) (rest : Program κ ν β ε ρ) :
    System τ κ ν β ε ρ :=
  { s with process := Function.update s.process t (.running (n + 1) rest) }

def add (s : System τ κ ν β ε ρ) (t : τ) (entry : β) : System τ κ ν β ε ρ :=
  { s with pending := Function.update s.pending t (s.pending t ++ [entry]) }

def close (s : System τ κ ν β ε ρ) (t : τ) (outcome : Except ε ρ) : System τ κ ν β ε ρ :=
  { s with
    draft := fun k => (s.draft k).filter (fun e => e.1 ≠ t)
    pending := Function.update s.pending t []
    process := Function.update s.process t (.ended outcome) }

def commit (s : System τ κ ν β ε ρ) (t : τ) (result : ρ) : System τ κ ν β ε ρ :=
  { s with
    committed := s.view t
    log := s.log ++ s.pending t }.close t (.ok result)

variable [DecidableEq κ]

def write (s : System τ κ ν β ε ρ) (t : τ) (k : κ) (row : Option (ν k)) : System τ κ ν β ε ρ :=
  { s with draft := Function.update s.draft k (some (t, row)) }

/-- The next statement of `t`, of which `n` are done; `none` is a wait. -/
def statement (s : System τ κ ν β ε ρ) (t : τ) (n : Nat) :
    Program κ ν β ε ρ → Option (System τ κ ν β ε ρ)
  | .finish result => some (s.commit t result)
  | .fail error => some (s.close t (.error error))
  | .select next => some (s.goOn t n (next (s.view t) (s.log ++ s.pending t)))
  | .update k f next =>
    if s.findsNone t k f then some (s.goOn t n (next none))
    else if s.heldByOther t k then none
    else
      match f (s.view t k) with
      | .error error => some (s.close t (.error error))
      | .ok row => some ((s.write t k row).goOn t n (next row))
  | .insert entry next => some ((s.add t entry).goOn t n next)

def exec (s : System τ κ ν β ε ρ) (a : τ × Op ε) : Option (System τ κ ν β ε ρ) :=
  match s.process a.1, a.2 with
  | .running n rest, .run => s.statement a.1 n rest
  | .running _ _, .abort error => some (s.close a.1 (.error error))
  | .ended _, _ => none

end System

section Statements

variable [DecidableEq τ] {s s' : System τ κ ν β ε ρ} {t u : τ} {k : κ}

namespace System

theorem own_eq_some {r : Option (ν k)} : s.own t k = some r ↔ s.draft k = some (t, r) := by
  unfold own
  cases s.draft k with
  | none => simp
  | some e =>
    obtain ⟨v, w⟩ := e
    by_cases mine : v = t <;> simp [mine]

theorem own_other (held : (s.own t k).isSome) (other : u ≠ t) : s.own u k = none := by
  obtain ⟨r, mine⟩ := Option.isSome_iff_exists.mp held
  cases theirs : s.own u k with
  | none => rfl
  | some w =>
    rw [own_eq_some] at mine theirs
    rw [mine] at theirs
    exact absurd (congrArg Prod.fst (Option.some.inj theirs)).symm other

theorem goOn_process {n n' : Nat} {rest rest' : Program κ ν β ε ρ}
    (there : (s.goOn t n rest).process t = .running n' rest') : n' = n + 1 ∧ rest' = rest := by
  have reached : (s.goOn t n rest).process t = .running (n + 1) rest := Function.update_self ..
  obtain ⟨count, same⟩ := Process.running.inj (there.symm.trans reached)
  exact ⟨count, same⟩

private theorem own_close_other (other : u ≠ t) (outcome : Except ε ρ) :
    (s.close t outcome).own u = s.own u := by
  ext k r
  simp [own_eq_some, close, other]

variable [DecidableEq κ]

theorem own_write_self (row : Option (ν k)) :
    (s.write t k row).own t = Function.update (s.own t) k (some row) := by
  funext j
  by_cases here : j = k
  · subst here
    simp [own, write]
  · simp [own, write, here]

private theorem own_write_other (free : s.heldByOther t k = false) (other : u ≠ t)
    (row : Option (ν k)) : (s.write t k row).own u = s.own u := by
  funext j
  by_cases here : j = k
  · subst here
    have mine : s.own u j = none := by
      unfold heldByOther at free
      unfold own
      cases held : s.draft j with
      | none => rfl
      | some e =>
        have holder : e.1 = t := by simpa [held] using free
        simp [holder, other.symm]
    rw [mine]
    simp [own, write, other.symm]
  · simp [own, write, here]

end System

variable [DecidableEq κ]

/-- Everything that one step of `t` can be. -/
inductive Moves (s : System τ κ ν β ε ρ) (t : τ) (op : Op ε) (s' : System τ κ ν β ε ρ) : Prop
  | commits {n : Nat} {result : ρ} (here : s.process t = .running n (.finish result))
      (isRun : op = .run) (after : s' = s.commit t result)
  | closes {n : Nat} {rest : Program κ ν β ε ρ} {error : ε} (here : s.process t = .running n rest)
      (after : s' = s.close t (.error error))
  | selects {n : Nat} {next : Rows κ ν → List β → Program κ ν β ε ρ}
      (here : s.process t = .running n (.select next))
      (after : s' = s.goOn t n (next (s.view t) (s.log ++ s.pending t)))
  | skips {n : Nat} {k : κ} {f : Option (ν k) → Except ε (Option (ν k))}
      {next : Option (ν k) → Program κ ν β ε ρ} (here : s.process t = .running n (.update k f next))
      (absent : s.committed k = none) (free : s.own t k = none) (keeps : f none = .ok none)
      (after : s' = s.goOn t n (next none))
  | writes {n : Nat} {k : κ} {f : Option (ν k) → Except ε (Option (ν k))}
      {next : Option (ν k) → Program κ ν β ε ρ} {row : Option (ν k)}
      (here : s.process t = .running n (.update k f next)) (free : s.heldByOther t k = false)
      (written : f (s.view t k) = .ok row) (after : s' = (s.write t k row).goOn t n (next row))
  | inserts {n : Nat} {entry : β} {next : Program κ ν β ε ρ}
      (here : s.process t = .running n (.insert entry next))
      (after : s' = (s.add t entry).goOn t n next)

theorem moves_of_exec {op : Op ε} (done : s.exec (t, op) = some s') : Moves s t op s' := by
  unfold System.exec at done
  split at done
  · next n rest here isRun =>
    simp only at here isRun done
    cases rest with
    | finish result => exact .commits here isRun (Option.some.inj done).symm
    | fail error => exact .closes here (Option.some.inj done).symm
    | select next => exact .selects here (Option.some.inj done).symm
    | insert entry next => exact .inserts here (Option.some.inj done).symm
    | update k f next =>
      simp only [System.statement] at done
      split at done
      · next absent =>
        simp only [System.findsNone, Bool.and_eq_true, Option.isNone_iff_eq_none] at absent
        obtain ⟨⟨free, absent⟩, keeps⟩ := absent
        refine .skips here absent free ?_ (Option.some.inj done).symm
        split at keeps
        · assumption
        · cases keeps
      · split at done
        · cases done
        · next free =>
          split at done
          · exact .closes here (Option.some.inj done).symm
          · next row written =>
            exact .writes here (by simpa using free) written (Option.some.inj done).symm
  · next n rest error here _ => exact .closes here (Option.some.inj done).symm
  · cases done

theorem error_of_exec {s s' : System τ κ ν β ε ρ} {t : τ} {op : Op ε} {error : ε}
    (done : s.exec (t, op) = some s') (ended : s'.process t = .ended (.error error)) :
    op = .abort error ∨ (∃ n, s.process t = .running n (.fail error)) ∨
      ∃ n k f next, s.process t = .running n (.update k f next) ∧
        f (s.view t k) = .error error := by
  have closed : ∀ {e : ε}, (s.close t (.error e)).process t = .ended (.error error) → e = error := by
    intro e same
    simpa [System.close] using same
  unfold System.exec at done
  split at done
  · next n rest here _ =>
    simp only at here done
    cases rest with
    | finish result | select next | insert entry next =>
      obtain rfl := Option.some.inj done
      simp [System.commit, System.close, System.goOn] at ended
    | fail e =>
      obtain rfl := Option.some.inj done
      exact Or.inr (Or.inl ⟨n, closed ended ▸ here⟩)
    | update k f next =>
      simp only [System.statement] at done
      split at done
      · obtain rfl := Option.some.inj done
        simp [System.goOn] at ended
      · split at done
        · cases done
        · split at done
          · next e fails =>
            obtain rfl := Option.some.inj done
            exact Or.inr (Or.inr ⟨n, k, f, next, here, closed ended ▸ fails⟩)
          · obtain rfl := Option.some.inj done
            simp [System.goOn] at ended
  · next n rest e here isAbort =>
    obtain rfl := Option.some.inj done
    exact Or.inl (closed ended ▸ isAbort)
  · cases done

end Statements

/-- The plain reads of a program come out the same in all the databases that
`facts` admits, given the rows `held` that it has locked before. -/
def Program.Settled (facts : Rows κ ν → List β → Prop) : Program κ ν β ε ρ → Set κ → Prop
  | finish _, _ | fail _, _ => True
  | select next, held => ∀ draft : Draft κ ν, (∀ k ∈ held, (draft k).isSome) → ∀ pending,
    (∀ c l c' l', facts c l → facts c' l' → (∀ k, (draft k).isSome → c k = c' k) →
      next (overlay draft c) (l ++ pending) = next (overlay draft c') (l' ++ pending)) ∧
    ∀ c l, facts c l → (next (overlay draft c) (l ++ pending)).Settled facts held
  | update k f next, held => (∀ row, (next row).Settled facts (held ∪ {k})) ∧
    (k ∉ held → ∀ c l, facts c l → c k = none → f none = .ok none →
      (∃ error, next none = .fail error) ∨
        (∀ c' l', facts c' l' → c' k = none) ∧ (next none).Settled facts held)
  | insert _ next, held => next.Settled facts held

theorem Program.Settled.update {facts : Rows κ ν → List β → Prop}
    (present : ∀ k c l c' l', facts c l → facts c' l' → c k = none → c' k = none) {k : κ}
    {f : Option (ν k) → Except ε (Option (ν k))} {next : Option (ν k) → Program κ ν β ε ρ}
    (settled : ∀ row held, (next row).Settled facts held) (held : Set κ) :
    (Program.update k f next).Settled facts held := by
  refine ⟨fun row => settled row _, ?_⟩
  intro _ c l good absent _
  exact Or.inr ⟨fun c' l' good' => present k c l c' l' good good' absent, settled none held⟩

section Serial

variable [DecidableEq τ] [DecidableEq κ] {s s' : System τ κ ν β ε ρ} {t u : τ}
  {facts : Rows κ ν → List β → Prop} {program rest : Program κ ν β ε ρ}

/-- `t` has come from `program` to `rest`, and it would have come there from any
database that has the same facts and agrees on the rows that it has locked. -/
structure Follows (facts : Rows κ ν → List β → Prop) (program rest : Program κ ν β ε ρ)
    (s : System τ κ ν β ε ρ) (t : τ) : Prop where
  settled : ∃ held : Set κ, (∀ k ∈ held, (s.own t k).isSome) ∧ rest.Settled facts held
  replays : ∀ c l, facts c l → (∀ k, (s.own t k).isSome → c k = s.committed k) → ∀ out,
    rest.alone (overlay (s.own t) c) (l ++ s.pending t) = .ok out → program.alone c l = .ok out

def System.Blank (s : System τ κ ν β ε ρ) (t : τ) : Prop :=
  (s.own t = fun _ => none) ∧ s.pending t = []

omit [DecidableEq κ] in
theorem System.Blank.view (blank : s.Blank t) : s.view t = s.committed := by
  funext k
  rw [System.view, blank.1]
  rfl

theorem Follows.start (settled : program.Settled facts ∅) (blank : s.Blank t) :
    Follows facts program program s t := by
  refine ⟨⟨∅, by simp, settled⟩, ?_⟩
  intro c l _ _ out done
  rw [blank.1, blank.2, List.append_nil] at done
  exact done

theorem Follows.frame (follows : Follows facts program rest s t) (own : s'.own t = s.own t)
    (pending : s'.pending t = s.pending t)
    (committed : ∀ k, (s.own t k).isSome → s'.committed k = s.committed k) :
    Follows facts program rest s' t := by
  refine ⟨by rw [own]; exact follows.settled, ?_⟩
  intro c l valid agree out done
  rw [own] at agree done
  rw [pending] at done
  refine follows.replays c l valid ?_ out done
  intro k held
  rw [agree k held, committed k held]

/-- What a step of `t` leaves to another transaction. -/
structure System.Leaves (s s' : System τ κ ν β ε ρ) (u : τ) : Prop where
  own : s'.own u = s.own u
  pending : s'.pending u = s.pending u
  process : s'.process u = s.process u
  committed : ∀ k, (s.own u k).isSome → s'.committed k = s.committed k

theorem Moves.leaves {op : Op ε} (moves : Moves s t op s') (other : u ≠ t) : s.Leaves s' u := by
  cases moves with
  | commits here _ after =>
    subst after
    refine ⟨System.own_close_other other _, Function.update_of_ne other _ _,
      Function.update_of_ne other _ _, ?_⟩
    intro k held
    have free := System.own_other held other.symm
    simp [System.commit, System.close, System.view, overlay, free]
  | closes here after =>
    subst after
    exact ⟨System.own_close_other other _, Function.update_of_ne other _ _,
      Function.update_of_ne other _ _, fun _ _ => rfl⟩
  | selects here after | skips here absent free keeps after =>
    subst after
    exact ⟨rfl, rfl, Function.update_of_ne other _ _, fun _ _ => rfl⟩
  | writes here free written after =>
    subst after
    exact ⟨System.own_write_other free other _, rfl, Function.update_of_ne other _ _,
      fun _ _ => rfl⟩
  | inserts here after =>
    subst after
    exact ⟨rfl, Function.update_of_ne other _ _, Function.update_of_ne other _ _,
      fun _ _ => rfl⟩

theorem Follows.other (follows : Follows facts program rest s u) (leaves : s.Leaves s' u) :
    Follows facts program rest s' u :=
  follows.frame leaves.own leaves.pending leaves.committed

omit [DecidableEq κ] in
theorem System.Blank.other (blank : s.Blank u) (leaves : s.Leaves s' u) : s'.Blank u :=
  ⟨leaves.own.trans blank.1, leaves.pending.trans blank.2⟩

theorem Moves.running {op : Op ε} (moves : Moves s t op s') :
    ∃ n rest, s.process t = .running n rest := by
  cases moves <;> exact ⟨_, _, by assumption⟩

theorem Moves.select_next {op : Op ε} {n n' : Nat} {next : Rows κ ν → List β → Program κ ν β ε ρ}
    {rest' : Program κ ν β ε ρ} (moves : Moves s t op s')
    (here : s.process t = .running n (.select next)) (there : s'.process t = .running n' rest') :
    rest' = next (s.view t) (s.log ++ s.pending t) ∧ n' = n + 1 ∧ s' = s.goOn t n rest' := by
  cases moves with
  | commits from_ _ _ | skips from_ _ _ _ _ | writes from_ _ _ _ | inserts from_ _ =>
    rw [from_] at here
    cases here
  | closes _ after =>
    subst after
    simp [System.close] at there
  | selects from_ after =>
    obtain ⟨rfl, same⟩ := Process.running.inj (from_.symm.trans here)
    cases same
    subst after
    obtain ⟨rfl, rfl⟩ := System.goOn_process there
    exact ⟨rfl, rfl, rfl⟩

theorem Moves.fail_ends {op : Op ε} {n n' : Nat} {error : ε} {rest' : Program κ ν β ε ρ}
    (moves : Moves s t op s') (here : s.process t = .running n (.fail error)) :
    s'.process t ≠ .running n' rest' := by
  cases moves with
  | commits from_ _ _ | selects from_ _ | skips from_ _ _ _ _ | writes from_ _ _ _
  | inserts from_ _ =>
    rw [from_] at here
    cases here
  | closes _ after =>
    subst after
    simp [System.close]

theorem Moves.of_ended_ok {op : Op ε} {result : ρ} (moves : Moves s t op s')
    (ended : s'.process t = .ended (.ok result)) :
    ∃ n, s.process t = .running n (.finish result) ∧ op = .run ∧ s' = s.commit t result := by
  cases moves with
  | commits here isRun after =>
    subst after
    simp only [System.commit, System.close, Function.update_self, Process.ended.injEq,
      Except.ok.injEq] at ended
    subst ended
    exact ⟨_, here, isRun, rfl⟩
  | closes _ after | selects _ after | skips _ _ _ _ after | writes _ _ _ after
  | inserts _ after =>
    subst after
    simp [System.close, System.goOn] at ended

theorem Moves.commits_or_keeps {op : Op ε} (moves : Moves s t op s') :
    (∃ n result, s.process t = .running n (.finish result) ∧ op = .run ∧
      s' = s.commit t result) ∨ s'.committed = s.committed ∧ s'.log = s.log := by
  cases moves with
  | commits here isRun after => exact Or.inl ⟨_, _, here, isRun, after⟩
  | closes _ after | selects _ after | skips _ _ _ _ after | writes _ _ _ after
  | inserts _ after =>
    subst after
    exact Or.inr ⟨rfl, rfl⟩

private theorem Follows.select {n : Nat} {next : Rows κ ν → List β → Program κ ν β ε ρ}
    (follows : Follows facts program (.select next) s t) (valid : facts s.committed s.log) :
    Follows facts program (next (s.view t) (s.log ++ s.pending t))
      (s.goOn t n (next (s.view t) (s.log ++ s.pending t))) t := by
  obtain ⟨⟨held, locked, settled⟩, replays⟩ := follows
  obtain ⟨same, settled⟩ := settled _ locked (s.pending t)
  refine ⟨⟨held, locked, settled _ _ valid⟩, ?_⟩
  intro c l good agree out done
  apply replays c l good agree
  rw [Program.alone, same c l _ _ good valid agree]
  exact done

private theorem Follows.skip {n : Nat} {k : κ} {f : Option (ν k) → Except ε (Option (ν k))}
    {next : Option (ν k) → Program κ ν β ε ρ}
    (follows : Follows facts program (.update k f next) s t) (valid : facts s.committed s.log)
    (absent : s.committed k = none) (free : s.own t k = none) (keeps : f none = .ok none) :
    Follows facts program (next none) (s.goOn t n (next none)) t := by
  obtain ⟨⟨held, locked, settled⟩, replays⟩ := follows
  have unlocked : k ∉ held := by
    intro member
    simpa [free] using locked k member
  obtain ⟨error, fails⟩ | ⟨always, settled⟩ := settled.2 unlocked _ _ valid absent keeps
  · rw [fails]
    refine ⟨⟨held, locked, trivial⟩, ?_⟩
    intro c l _ _ out done
    cases done
  · refine ⟨⟨held, locked, settled⟩, ?_⟩
    intro c l good agree out done
    apply replays c l good agree
    have missing : overlay (s.own t) c k = none := by
      rw [overlay, free]
      exact always c l good
    have unchanged : Function.update (overlay (s.own t) c) k none = overlay (s.own t) c := by
      rw [← missing, Function.update_eq_self]
    rw [Program.alone, missing, keeps]
    simp only [unchanged]
    exact done

private theorem Follows.write {n : Nat} {k : κ} {f : Option (ν k) → Except ε (Option (ν k))}
    {next : Option (ν k) → Program κ ν β ε ρ} {row : Option (ν k)}
    (follows : Follows facts program (.update k f next) s t) (written : f (s.view t k) = .ok row) :
    Follows facts program (next row) ((s.write t k row).goOn t n (next row)) t := by
  obtain ⟨⟨held, locked, settled⟩, replays⟩ := follows
  have own : ((s.write t k row).goOn t n (next row)).own t =
      Function.update (s.own t) k (some row) := System.own_write_self row
  have keeps : ∀ j, (s.own t j).isSome →
      (((s.write t k row).goOn t n (next row)).own t j).isSome := by
    intro j mine
    rw [own]
    by_cases here : j = k
    · subst here
      simp
    · simpa [here] using mine
  refine ⟨⟨held ∪ {k}, ?_, settled.1 row⟩, ?_⟩
  · rintro j (before | here)
    · exact keeps j (locked j before)
    · rw [own, Set.mem_singleton_iff.mp here]
      simp
  · intro c l good agree out done
    apply replays c l good (fun j mine => agree j (keeps j mine))
    -- the row is locked from here on, so the other database has it as it was found
    have found : overlay (s.own t) c k = s.view t k := by
      have now : c k = s.committed k := agree k (by rw [own]; simp)
      rw [System.view, overlay, overlay, now]
    have after : Function.update (overlay (s.own t) c) k row =
        overlay (((s.write t k row).goOn t n (next row)).own t) c := by
      funext j
      rw [own]
      by_cases here : j = k
      · subst here
        simp [overlay]
      · simp [overlay, here]
    rw [Program.alone, found, written]
    simp only [after]
    exact done

private theorem Follows.insert {n : Nat} {entry : β} {next : Program κ ν β ε ρ}
    (follows : Follows facts program (.insert entry next) s t) :
    Follows facts program next ((s.add t entry).goOn t n next) t := by
  obtain ⟨settled, replays⟩ := follows
  refine ⟨settled, ?_⟩
  intro c l good agree out done
  apply replays c l good agree
  have grown : ((s.add t entry).goOn t n next).pending t = s.pending t ++ [entry] :=
    Function.update_self ..
  rw [grown, ← List.append_assoc] at done
  exact done

theorem Follows.step {op : Op ε} {n n' : Nat} {rest' : Program κ ν β ε ρ}
    (follows : Follows facts program rest s t) (valid : facts s.committed s.log)
    (here : s.process t = .running n rest) (moves : Moves s t op s')
    (there : s'.process t = .running n' rest') :
    n' = n + 1 ∧ Follows facts program rest' s' t := by
  cases moves with
  | commits _ _ after | closes _ after =>
    subst after
    simp [System.commit, System.close] at there
  | selects from_ after =>
    subst after
    obtain ⟨rfl, rfl⟩ := Process.running.inj (from_.symm.trans here)
    obtain ⟨rfl, rfl⟩ := System.goOn_process there
    exact ⟨rfl, follows.select valid⟩
  | skips from_ absent free keeps after =>
    subst after
    obtain ⟨rfl, rfl⟩ := Process.running.inj (from_.symm.trans here)
    obtain ⟨rfl, rfl⟩ := System.goOn_process there
    exact ⟨rfl, follows.skip valid absent free keeps⟩
  | writes from_ free written after =>
    subst after
    obtain ⟨rfl, rfl⟩ := Process.running.inj (from_.symm.trans here)
    obtain ⟨rfl, rfl⟩ := System.goOn_process there
    exact ⟨rfl, follows.write written⟩
  | inserts from_ after =>
    subst after
    obtain ⟨rfl, rfl⟩ := Process.running.inj (from_.symm.trans here)
    obtain ⟨rfl, rfl⟩ := System.goOn_process there
    exact ⟨rfl, follows.insert⟩

/-- A transaction that commits does what its program does alone on what is there. -/
theorem Follows.commits {result : ρ} (follows : Follows facts program (.finish result) s t)
    (valid : facts s.committed s.log) :
    program.alone s.committed s.log = .ok (result, s.view t, s.log ++ s.pending t) :=
  follows.replays _ _ valid (fun _ _ => rfl) _ rfl

/-- Every row that a program writes stands in the relation to the row it found, and
every entry it adds is of the kind. -/
def Program.Writes (relates : ∀ k, Option (ν k) → Option (ν k) → Prop) (kind : β → Prop) :
    Program κ ν β ε ρ → Prop
  | finish _ | fail _ => True
  | select next => ∀ rows log, (next rows log).Writes relates kind
  | update k f next => (∀ row row', f row = .ok row' → relates k row row') ∧
    ∀ row, (next row).Writes relates kind
  | insert entry next => kind entry ∧ next.Writes relates kind

omit [DecidableEq τ] in
theorem Program.Writes.alone {relates : ∀ k, Option (ν k) → Option (ν k) → Prop}
    {kind : β → Prop} (refl : ∀ k row, relates k row row)
    (trans : ∀ k a b c, relates k a b → relates k b c → relates k a c)
    (writes : program.Writes relates kind) {c c' : Rows κ ν} {l l' : List β} {result : ρ}
    (done : program.alone c l = .ok (result, c', l')) :
    (∀ k, relates k (c k) (c' k)) ∧ ∃ added, l' = l ++ added ∧ ∀ entry ∈ added, kind entry := by
  induction program generalizing c l with
  | finish r =>
    cases done
    exact ⟨fun k => refl k _, [], by simp, by simp⟩
  | fail error => cases done
  | select next ih => exact ih _ _ (writes _ _) done
  | update k f next ih =>
    rw [Program.alone] at done
    cases written : f (c k) with
    | error error =>
      rw [written] at done
      cases done
    | ok row =>
      rw [written] at done
      obtain ⟨rows, added⟩ := ih _ (writes.2 row) done
      refine ⟨?_, added⟩
      intro j
      by_cases here : j = k
      · subst here
        have after := rows j
        rw [Function.update_self] at after
        exact trans j _ _ _ (writes.1 _ _ written) after
      · have after := rows j
        rwa [Function.update_of_ne here] at after
  | insert entry next ih =>
    obtain ⟨rows, added, rfl, all⟩ := ih writes.2 done
    refine ⟨rows, entry :: added, by simp, ?_⟩
    rintro e (_ | ⟨_, member⟩)
    · exact writes.1
    · exact all e member

def aloneSteps (programs : τ → Program κ ν β ε ρ) : Steps (Rows κ ν × List β) (τ × ρ) :=
  fun d x d' => (programs x.1).alone d.1 d.2 = .ok (x.2, d')

/-- What is committed comes from the committed transactions one after another. -/
structure Serial (programs : τ → Program κ ν β ε ρ) (d : Rows κ ν × List β)
    (s : System τ κ ν β ε ρ) (order : List (τ × ρ)) : Prop where
  run : Run (aloneSteps programs) d order (s.committed, s.log)
  distinct : (order.map Prod.fst).Nodup
  exactly : ∀ u result, (u, result) ∈ order ↔ s.process u = .ended (.ok result)

variable {programs : τ → Program κ ν β ε ρ} {d : Rows κ ν × List β} {order : List (τ × ρ)}

omit [DecidableEq τ] in
theorem Serial.start (rows : Rows κ ν) (log : List β) :
    Serial programs (rows, log) (.start rows log programs) [] :=
  ⟨.nil _, by simp, by simp [System.start]⟩

private theorem Serial.commit {n : Nat} {result : ρ} (serial : Serial programs d s order)
    (here : s.process t = .running n (.finish result))
    (alone : (programs t).alone s.committed s.log =
      .ok (result, s.view t, s.log ++ s.pending t)) :
    Serial programs d (s.commit t result) (order ++ [(t, result)]) := by
  have fresh : ∀ r, (t, r) ∉ order := by
    intro r member
    rw [serial.exactly, here] at member
    cases member
  refine ⟨serial.run.append (.single alone), ?_, ?_⟩
  · rw [List.map_append]
    refine List.nodup_append.mpr ⟨serial.distinct, by simp, ?_⟩
    rintro u member v last rfl
    obtain ⟨⟨w, r⟩, listed, rfl⟩ := List.mem_map.mp member
    obtain rfl : w = t := by simpa using last
    exact fresh r listed
  · intro u r
    by_cases same : u = t
    · subst same
      simp [fresh, System.commit, System.close, eq_comm]
    · simp [same, serial.exactly, System.commit, System.close]

theorem Serial.step {op : Op ε} (serial : Serial programs d s order) (moves : Moves s t op s')
    (alone : ∀ n result, s.process t = .running n (.finish result) →
      (programs t).alone s.committed s.log = .ok (result, s.view t, s.log ++ s.pending t)) :
    ∃ order', Serial programs d s' order' := by
  have kept : ∀ {n rest p}, s.process t = .running n rest → (∀ r, p ≠ .ended (.ok r)) →
      ∀ u r, (u, r) ∈ order ↔ Function.update s.process t p u = .ended (.ok r) := by
    intro n rest p here open_ u r
    rw [serial.exactly]
    by_cases same : u = t
    · subst same
      simp [here, open_]
    · rw [Function.update_of_ne same]
  cases moves with
  | commits here _ after =>
    subst after
    exact ⟨_, serial.commit here (alone _ _ here)⟩
  | closes here after | selects here after | skips here _ _ _ after | writes here _ _ after
  | inserts here after =>
    subst after
    exact ⟨order, serial.run, serial.distinct, kept here (by simp)⟩

end Serial

end PredictionMarket.Library.ReadCommitted
