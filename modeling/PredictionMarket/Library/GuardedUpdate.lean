/- PredictionMarket/Library/GuardedUpdate
   digest: Transactions around one UPDATE with a WHERE clause, and why any mix of them is serial. -/

import PredictionMarket.Library.ReadCommitted

set_option autoImplicit false
set_option relaxedAutoImplicit false

namespace PredictionMarket.Library.ReadCommitted

universe u

variable {τ κ : Type u} {ν : κ → Type u} {β ε ρ : Type u}

/-- The transaction writes the row under `key` when it is there and passes `admits`, adds
entries made of the new row, and returns it. Without a row it reads once more and raises. -/
structure GuardedUpdate (κ : Type u) (ν : κ → Type u) (β ε ρ : Type u) where
  key : κ
  admits : ν key → Bool
  write : ν key → Except ε (ν key)
  refuse : Option (ν key) → ε
  entries : ν key → List β
  result : ν key → ρ

def insertAll (result : ρ) : List β → Program κ ν β ε ρ
  | [] => .finish result
  | entry :: entries => .insert entry (insertAll result entries)

namespace GuardedUpdate

variable (g : GuardedUpdate κ ν β ε ρ)

/-- The row as the statement leaves it once the row is locked. The WHERE clause is
checked again on the locked row, which may be newer than the one that was found. -/
def relock : Option (ν g.key) → Except ε (Option (ν g.key))
  | some row => if g.admits row then (g.write row).map some else .error (g.refuse (some row))
  | none => .error (g.refuse none)

def returned : Option (ν g.key) → Program κ ν β ε ρ
  | some row => insertAll (g.result row) (g.entries row)
  | none => .fail (g.refuse none)

def locked : Program κ ν β ε ρ := .update g.key g.relock g.returned

def refused : Program κ ν β ε ρ := .select (fun rows _ => .fail (g.refuse (rows g.key)))

def program : Program κ ν β ε ρ :=
  .select (fun rows _ => if (rows g.key).any g.admits then g.locked else g.refused)

private theorem relock_ne_none (row : Option (ν g.key)) : g.relock row ≠ .ok none := by
  cases row with
  | none => simp [relock]
  | some row =>
    cases admitted : g.admits row with
    | false => simp [relock, admitted]
    | true => cases written : g.write row <;> simp [relock, admitted, written, Except.map]

section Alone

variable [DecidableEq κ] {g} {c : Rows κ ν} {l : List β}

private theorem insertAll_alone (result : ρ) (entries : List β) :
    (insertAll result entries : Program κ ν β ε ρ).alone c l =
      .ok (result, c, l ++ entries) := by
  induction entries generalizing l with
  | nil => simp [insertAll, Program.alone]
  | cons entry entries ih => simp [insertAll, Program.alone, ih]

theorem locked_alone : g.locked.alone c l =
    match c g.key with
    | none => .error (g.refuse none)
    | some row =>
      if g.admits row then (g.write row).map (fun row =>
        (g.result row, Function.update c g.key (some row), l ++ g.entries row))
      else .error (g.refuse (some row)) := by
  rw [locked, Program.alone]
  cases c g.key with
  | none => rfl
  | some row =>
    cases admitted : g.admits row with
    | false => simp [relock, admitted]
    | true =>
      simp only [relock, admitted, if_true]
      cases g.write row with
      | error error => rfl
      | ok row => exact insertAll_alone _ _

theorem program_alone : g.program.alone c l = g.locked.alone c l := by
  rw [program, Program.alone]
  split
  · rfl
  · next refuses =>
    rw [locked_alone]
    cases found : c g.key with
    | none => simp only [refused, Program.alone, found]
    | some row =>
      rw [found, Option.any_some, Bool.not_eq_true] at refuses
      simp only [refused, Program.alone, found, refuses, Bool.false_eq_true, if_false]

theorem alone_ok {c' : Rows κ ν} {l' : List β} {r : ρ}
    (done : g.program.alone c l = .ok (r, c', l')) :
    ∃ row row', c g.key = some row ∧ g.admits row = true ∧ g.write row = .ok row' ∧
      r = g.result row' ∧ c' = Function.update c g.key (some row') ∧ l' = l ++ g.entries row' := by
  rw [program_alone, locked_alone] at done
  split at done
  · cases done
  · next row found =>
    split at done
    · next admitted =>
      cases written : g.write row with
      | error error =>
        rw [written] at done
        cases done
      | ok row' =>
        rw [written] at done
        cases done
        exact ⟨row, row', found, admitted, written, rfl, rfl, rfl⟩
    · cases done

end Alone

section Settled

variable {g} {facts : Rows κ ν → List β → Prop}

private theorem insertAll_settled (result : ρ) (entries : List β) (held : Set κ) :
    (insertAll result entries : Program κ ν β ε ρ).Settled facts held := by
  induction entries with
  | nil => trivial
  | cons entry entries ih => exact ih

private theorem locked_settled : g.locked.Settled facts ∅ := by
  refine ⟨fun row => ?_, fun _ c l _ _ keeps => by cases keeps⟩
  cases row with
  | none => trivial
  | some row => exact insertAll_settled _ _ _

end Settled

end GuardedUpdate

variable [DecidableEq τ] [DecidableEq κ]

/-- Where a guarded update is: it has not come to its row yet, it gives up, or it follows
its locking statement. -/
inductive Stage (g : GuardedUpdate κ ν β ε ρ) (s : System τ κ ν β ε ρ) (t : τ) : Prop
  | begins {n : Nat} (here : s.process t = .running n g.program) (blank : s.Blank t)
  | refuses {n : Nat} (here : s.process t = .running n g.refused)
  | fails {n : Nat} {row : Option (ν g.key)} (here : s.process t = .running n (.fail (g.refuse row)))
  | follows {n : Nat} {rest : Program κ ν β ε ρ} (here : s.process t = .running n rest)
      (follows : Follows (fun _ _ => True) g.locked rest s t)
  | ended {outcome : Except ε ρ} (here : s.process t = .ended outcome)

namespace Stage

variable {g : GuardedUpdate κ ν β ε ρ} {s s' : System τ κ ν β ε ρ} {t u : τ}

private theorem other (stage : Stage g s u) (leaves : s.Leaves s' u) : Stage g s' u := by
  cases stage with
  | begins here blank => exact .begins (leaves.process.trans here) (blank.other leaves)
  | refuses here => exact .refuses (leaves.process.trans here)
  | fails here => exact .fails (leaves.process.trans here)
  | follows here follows => exact .follows (leaves.process.trans here) (follows.other leaves)
  | ended here => exact .ended (leaves.process.trans here)

private theorem step {op : Op ε} (stage : Stage g s t) (moves : Moves s t op s') :
    Stage g s' t := by
  cases now : s'.process t with
  | ended outcome => exact .ended now
  | running n' rest' =>
    cases stage with
    | begins here blank =>
      obtain ⟨rfl, _, after⟩ := moves.select_next here now
      split at now
      · have start : s'.Blank t := by
          rw [after]
          exact blank
        exact .follows now (Follows.start GuardedUpdate.locked_settled start)
      · exact .refuses now
    | refuses here =>
      obtain ⟨rfl, _, _⟩ := moves.select_next here now
      exact .fails now
    | fails here => exact absurd now (moves.fail_ends here)
    | follows here follows => exact .follows now (follows.step trivial here moves now).2
    | ended here =>
      obtain ⟨n, rest, running⟩ := moves.running
      rw [here] at running
      cases running

private theorem commits {n : Nat} {result : ρ} (stage : Stage g s t)
    (here : s.process t = .running n (.finish result)) :
    g.program.alone s.committed s.log = .ok (result, s.view t, s.log ++ s.pending t) := by
  rw [GuardedUpdate.program_alone]
  cases stage with
  | begins at_ _ | refuses at_ =>
    rw [at_] at here
    cases here
  | fails at_ =>
    rw [at_] at here
    cases here
  | follows at_ follows =>
    obtain ⟨_, rfl⟩ := Process.running.inj (at_.symm.trans here)
    exact follows.commits trivial
  | ended at_ =>
    rw [at_] at here
    cases here

end Stage

section Runs

variable {g : τ → GuardedUpdate κ ν β ε ρ} {rows : Rows κ ν} {log : List β}
  {steps : List (τ × Op ε)} {s : System τ κ ν β ε ρ}

/-- Guarded updates leave, in whatever order their statements ran and whichever of them were
given up, what the committed ones leave one after another. -/
theorem guarded_serial
    (run : Run (stepsOf System.exec) (.start rows log (fun t => (g t).program)) steps s) :
    ∃ order, Serial (fun t => (g t).program) (rows, log) s order := by
  refine (run.preserves (P := fun s => (∃ order, Serial (fun t => (g t).program) (rows, log) s
    order) ∧ ∀ t, Stage (g t) s t) ?_ ⟨⟨[], .start rows log⟩, fun t => ?_⟩).1
  · rintro s ⟨t, op⟩ s' done ⟨⟨order, serial⟩, stages⟩
    have moves := moves_of_exec done
    refine ⟨serial.step moves (fun n result here => (stages t).commits here), fun u => ?_⟩
    by_cases same : u = t
    · subst same
      exact (stages u).step moves
    · exact (stages u).other (moves.leaves same)
  · exact .begins rfl ⟨rfl, rfl⟩

end Runs

section Errors

variable (good : ∀ k, ν k → Prop) (g : τ → GuardedUpdate κ ν β ε ρ) (aborts : τ → ε → Prop)

def GuardedUpdate.At (g : GuardedUpdate κ ν β ε ρ) (rest : Program κ ν β ε ρ) : Prop :=
  rest = g.program ∨ rest = g.locked ∨ rest = g.refused ∨ (∃ row, rest = .fail (g.refuse row)) ∨
    ∃ result entries, rest = insertAll result entries

section At

variable {g : GuardedUpdate κ ν β ε ρ}

omit [DecidableEq κ]

private theorem GuardedUpdate.At.of_fail {error : ε} (there : g.At (.fail error)) :
    ∃ row, error = g.refuse row := by
  rcases there with is | is | is | ⟨row, is⟩ | ⟨result, entries, is⟩
  · unfold program at is
    cases is
  · unfold locked at is
    cases is
  · unfold refused at is
    cases is
  · exact ⟨row, Program.fail.inj is⟩
  · cases entries <;> cases is

private theorem GuardedUpdate.At.of_select {next : Rows κ ν → List β → Program κ ν β ε ρ}
    (there : g.At (.select next)) (rows : Rows κ ν) (log : List β) : g.At (next rows log) := by
  rcases there with is | is | is | ⟨row, is⟩ | ⟨result, entries, is⟩
  · obtain rfl := Program.select.inj is
    simp only
    split
    · exact Or.inr (Or.inl rfl)
    · exact Or.inr (Or.inr (Or.inl rfl))
  · unfold locked at is
    cases is
  · obtain rfl := Program.select.inj is
    exact Or.inr (Or.inr (Or.inr (Or.inl ⟨_, rfl⟩)))
  · cases is
  · cases entries <;> cases is

private theorem GuardedUpdate.At.of_update {k : κ} {f : Option (ν k) → Except ε (Option (ν k))}
    {next : Option (ν k) → Program κ ν β ε ρ} (there : g.At (.update k f next)) :
    .update k f next = g.locked := by
  rcases there with is | is | is | ⟨row, is⟩ | ⟨result, entries, is⟩
  · unfold program at is
    cases is
  · exact is
  · unfold refused at is
    cases is
  · cases is
  · cases entries <;> cases is

private theorem GuardedUpdate.At.of_insert {entry : β} {next : Program κ ν β ε ρ}
    (there : g.At (.insert entry next)) : g.At next := by
  rcases there with is | is | is | ⟨row, is⟩ | ⟨result, entries, is⟩
  · unfold program at is
    cases is
  · unfold locked at is
    cases is
  · unfold refused at is
    cases is
  · cases is
  · cases entries with
    | nil => cases is
    | cons a entries =>
      obtain ⟨_, rfl⟩ := Program.insert.inj is
      exact Or.inr (Or.inr (Or.inr (Or.inr ⟨result, entries, rfl⟩)))

private theorem GuardedUpdate.At.returned (row : Option (ν g.key)) : g.At (g.returned row) := by
  cases row with
  | none => exact Or.inr (Or.inr (Or.inr (Or.inl ⟨none, rfl⟩)))
  | some row => exact Or.inr (Or.inr (Or.inr (Or.inr ⟨_, _, rfl⟩)))

end At

def GoodRow {k : κ} (row : Option (ν k)) : Prop := ∀ r, row = some r → good k r

/-- Every row is good, committed or not, and every error is a refusal or an abort. -/
structure Sound (s : System τ κ ν β ε ρ) : Prop where
  committed : ∀ k, GoodRow good (s.committed k)
  drafts : ∀ k t row, s.draft k = some (t, row) → GoodRow good row
  running : ∀ t n rest, s.process t = .running n rest → (g t).At rest
  errors : ∀ t error, s.process t = .ended (.error error) →
    aborts t error ∨ ∃ row, error = (g t).refuse row

variable {good g aborts} {s s' : System τ κ ν β ε ρ} {t : τ}

omit [DecidableEq κ]

private theorem Sound.view (sound : Sound good g aborts s) (t : τ) (k : κ) :
    GoodRow good (s.view t k) := by
  unfold System.view overlay
  cases mine : s.own t k with
  | none => exact sound.committed k
  | some row => exact sound.drafts k t row (System.own_eq_some.mp mine)

private theorem Sound.move (sound : Sound good g aborts s)
    (others : ∀ u, u ≠ t → s'.process u = s.process u)
    (committed : ∀ k, GoodRow good (s'.committed k))
    (drafts : ∀ k u row, s'.draft k = some (u, row) → GoodRow good row)
    (running : ∀ n rest, s'.process t = .running n rest → (g t).At rest)
    (errors : ∀ error, s'.process t = .ended (.error error) →
      aborts t error ∨ ∃ row, error = (g t).refuse row) :
    Sound good g aborts s' := by
  refine ⟨committed, drafts, fun u => ?_, fun u => ?_⟩
  · by_cases same : u = t
    · exact same ▸ running
    · rw [others u same]
      exact sound.running u
  · by_cases same : u = t
    · exact same ▸ errors
    · rw [others u same]
      exact sound.errors u

private theorem Sound.goOn (sound : Sound good g aborts s) (drafts : s'.draft = s.draft)
    (committed : s'.committed = s.committed) {n : Nat} {rest : Program κ ν β ε ρ}
    (process : s'.process = Function.update s.process t (.running n rest))
    (there : (g t).At rest) : Sound good g aborts s' := by
  refine sound.move (fun u other => by rw [process, Function.update_of_ne other])
    (by rw [committed]; exact sound.committed) (by rw [drafts]; exact sound.drafts) ?_ ?_
  · intro n' rest' now
    rw [process, Function.update_self] at now
    exact (Process.running.inj now).2 ▸ there
  · intro error now
    rw [process, Function.update_self] at now
    cases now

private theorem Sound.close (sound : Sound good g aborts s) {outcome : Except ε ρ}
    (errors : ∀ error, outcome = .error error → aborts t error ∨ ∃ row, error = (g t).refuse row) :
    Sound good g aborts (s.close t outcome) := by
  refine sound.move (t := t) (fun u other => Function.update_of_ne other _ _) sound.committed ?_
    (by simp [System.close]) ?_
  · intro k u row kept
    exact sound.drafts k u row (Option.filter_eq_some_iff.mp kept).1
  · intro error ended
    apply errors
    simpa [System.close] using ended

private theorem GuardedUpdate.relock_good {g : GuardedUpdate κ ν β ε ρ}
    (keeps : ∀ row, good g.key row → g.admits row = true →
      ∃ row', g.write row = .ok row' ∧ good g.key row') {row : Option (ν g.key)}
    (is : GoodRow good row) :
    (∃ row', g.relock row = .ok row' ∧ GoodRow good row') ∨
      g.relock row = .error (g.refuse row) := by
  cases row with
  | none => exact Or.inr rfl
  | some row =>
    cases admitted : g.admits row with
    | false => simp [relock, admitted]
    | true =>
      obtain ⟨row', written, fine⟩ := keeps row (is row rfl) admitted
      refine Or.inl ⟨some row', by simp [relock, admitted, written, Except.map], ?_⟩
      intro r same
      exact Option.some.inj same ▸ fine

variable [DecidableEq κ]

private theorem Sound.step {op : Op ε} (sound : Sound good g aborts s)
    (keeps : ∀ t row, good (g t).key row → (g t).admits row = true →
      ∃ row', (g t).write row = .ok row' ∧ good (g t).key row')
    (outside : ∀ error, op = .abort error → aborts t error)
    (done : s.exec (t, op) = some s') : Sound good g aborts s' := by
  cases moves_of_exec done with
  | @commits n result here isRun after =>
    subst after
    have committed : Sound good g aborts
        { s with committed := s.view t, log := s.log ++ s.pending t } :=
      ⟨sound.view t, sound.drafts, sound.running, sound.errors⟩
    exact committed.close (fun error same => by cases same)
  | @closes n rest error here after =>
    have ended : s'.process t = .ended (.error error) := by
      rw [after]
      exact Function.update_self ..
    subst after
    refine sound.close (fun e same => ?_)
    obtain rfl := Except.error.inj same
    obtain isAbort | ⟨n, failing⟩ | ⟨n, k, f, next, updating, fails⟩ := error_of_exec done ended
    · exact Or.inl (outside _ isAbort)
    · exact Or.inr (sound.running t n _ failing).of_fail
    · have there := (sound.running t n _ updating).of_update
      unfold GuardedUpdate.locked at there
      cases there
      obtain ⟨row', written, _⟩ | refused :=
        GuardedUpdate.relock_good (keeps t) (sound.view t (g t).key)
      · rw [written] at fails
        cases fails
      · rw [refused] at fails
        exact Or.inr ⟨_, (Except.error.inj fails).symm⟩
  | selects here after =>
    subst after
    exact sound.goOn rfl rfl rfl ((sound.running t _ _ here).of_select _ _)
  | skips here absent free kept after =>
    have there := (sound.running t _ _ here).of_update
    unfold GuardedUpdate.locked at there
    cases there
    cases kept
  | @writes n k f next row here free written after =>
    have there := (sound.running t _ _ here).of_update
    unfold GuardedUpdate.locked at there
    cases there
    obtain ⟨row', same, fine⟩ | refused :=
      GuardedUpdate.relock_good (keeps t) (sound.view t (g t).key)
    · obtain rfl := Except.ok.inj (written.symm.trans same)
      have drafted : Sound good g aborts (s.write t (g t).key row) := by
        refine ⟨sound.committed, ?_, sound.running, sound.errors⟩
        intro k u r draft
        simp only [System.write] at draft
        by_cases here : k = (g t).key
        · subst here
          rw [Function.update_self] at draft
          cases draft
          exact fine
        · rw [Function.update_of_ne here] at draft
          exact sound.drafts k u r draft
      subst after
      exact drafted.goOn rfl rfl rfl (.returned row)
    · rw [written] at refused
      cases refused
  | inserts here after =>
    subst after
    exact sound.goOn rfl rfl rfl (sound.running t _ _ here).of_insert

/-- Where the WHERE clauses keep good rows good, an error is a refusal of the transaction's
own or came from outside. -/
theorem guarded_sound {rows : Rows κ ν} {log : List β} {steps : List (τ × Op ε)}
    (keeps : ∀ t row, good (g t).key row → (g t).admits row = true →
      ∃ row', (g t).write row = .ok row' ∧ good (g t).key row')
    (start : ∀ k, GoodRow good (rows k))
    (run : Run (Guarded (fun _ a => ∀ error, a.2 = .abort error → aborts a.1 error)
      (stepsOf System.exec)) (.start rows log (fun t => (g t).program)) steps s) :
    Sound good g aborts s := by
  refine run.preserves (P := Sound good g aborts) ?_ ?_
  · rintro s ⟨t, op⟩ s' ⟨outside, done⟩ sound
    exact sound.step keeps outside done
  · refine ⟨start, ?_, ?_, ?_⟩
    · intro k t row drafted
      cases drafted
    · intro t n rest here
      exact Or.inl (Process.running.inj here).2.symm
    · intro t error ended
      cases ended

end Errors

section Progress

variable {g : τ → GuardedUpdate κ ν β ε ρ} {rows : Rows κ ν} {log : List β}
  {steps : List (τ × Op ε)} {s s' : System τ κ ν β ε ρ} {t : τ}

/-- Every transaction is somewhere in its program, and one that has locked its row has nothing
left but entries and the commit. -/
structure Unhindered (g : τ → GuardedUpdate κ ν β ε ρ) (s : System τ κ ν β ε ρ) : Prop where
  running : ∀ t n rest, s.process t = .running n rest → (g t).At rest
  holders : ∀ k t row, s.draft k = some (t, row) →
    ∃ n result entries, s.process t = .running n (insertAll result entries)

private theorem Unhindered.step {op : Op ε} (unhindered : Unhindered g s)
    (done : s.exec (t, op) = some s') : Unhindered g s' := by
  obtain ⟨running, holders⟩ := unhindered
  have ended : ∀ {outcome}, s'.process = Function.update s.process t (.ended outcome) →
      s'.draft = (fun k => (s.draft k).filter (fun e => e.1 ≠ t)) → Unhindered g s' := by
    intro outcome process draft
    refine ⟨fun u n rest now => ?_, fun k u row kept => ?_⟩
    · rw [process] at now
      by_cases same : u = t
      · subst same
        simp at now
      · rw [Function.update_of_ne same] at now
        exact running u n rest now
    · rw [draft] at kept
      obtain ⟨before, other⟩ := Option.filter_eq_some_iff.mp kept
      rw [process, Function.update_of_ne (of_decide_eq_true other)]
      exact holders k u row before
  have goesOn : ∀ {n rest}, s'.process = Function.update s.process t (.running n rest) →
      (g t).At rest → (∀ k u row, s'.draft k = some (u, row) → u ≠ t → s.draft k = some (u, row)) →
      ((∃ k row, s'.draft k = some (t, row)) → ∃ result entries, rest = insertAll result entries) →
      Unhindered g s' := by
    intro n rest process there others mine
    refine ⟨fun u n' rest' now => ?_, fun k u row drafted => ?_⟩
    · rw [process] at now
      by_cases same : u = t
      · subst same
        rw [Function.update_self] at now
        exact (Process.running.inj now).2 ▸ there
      · rw [Function.update_of_ne same] at now
        exact running u n' rest' now
    · rw [process]
      by_cases same : u = t
      · subst same
        obtain ⟨result, entries, rfl⟩ := mine ⟨k, row, drafted⟩
        exact ⟨n, result, entries, Function.update_self ..⟩
      · rw [Function.update_of_ne same]
        exact holders k u row (others k u row drafted same)
  -- a holder of a lock is past its SELECT and its UPDATE
  have holds : ∀ {n rest}, s.process t = .running n rest → (∃ k row, s.draft k = some (t, row)) →
      ∃ result entries, rest = insertAll result entries := by
    rintro n rest here ⟨k, row, drafted⟩
    obtain ⟨n', result, entries, there⟩ := holders k t row drafted
    rw [here] at there
    exact ⟨result, entries, (Process.running.inj there).2⟩
  cases moves_of_exec done with
  | commits here _ after | closes here after =>
    subst after
    exact ended rfl rfl
  | selects here after =>
    subst after
    refine goesOn rfl ((running t _ _ here).of_select _ _) (fun _ _ _ kept _ => kept) ?_
    intro mine
    obtain ⟨result, entries, same⟩ := holds here mine
    cases entries <;> cases same
  | skips here absent free kept after =>
    have there := (running t _ _ here).of_update
    unfold GuardedUpdate.locked at there
    cases there
    cases kept
  | @writes n k f next row here free written after =>
    have there := (running t _ _ here).of_update
    unfold GuardedUpdate.locked at there
    cases there
    subst after
    refine goesOn rfl (.returned row) (fun j u r drafted other => ?_) (fun _ => ?_)
    · simp only [System.goOn, System.write] at drafted
      by_cases at_ : j = (g t).key
      · subst at_
        rw [Function.update_self] at drafted
        cases drafted
        exact absurd rfl other
      · rwa [Function.update_of_ne at_] at drafted
    · cases row with
      | none => exact absurd written ((g t).relock_ne_none _)
      | some r => exact ⟨_, _, rfl⟩
  | @inserts n entry next here after =>
    subst after
    refine goesOn rfl (running t _ _ here).of_insert (fun _ _ _ kept _ => kept) ?_
    intro mine
    obtain ⟨result, entries, same⟩ := holds here mine
    cases entries with
    | nil => cases same
    | cons a entries =>
      obtain ⟨_, rfl⟩ := Program.insert.inj same
      exact ⟨result, entries, rfl⟩

private theorem insertAll_runs {n : Nat} {result : ρ} {entries : List β}
    (here : s.process t = .running n (insertAll result entries)) :
    (s.exec (t, .run)).isSome = true := by
  unfold System.exec
  rw [here]
  cases entries <;> rfl

/-- A transaction that has not ended can go on, or it waits for one that can. -/
theorem guarded_progress
    (run : Run (stepsOf System.exec) (.start rows log (fun t => (g t).program)) steps s)
    {n : Nat} {rest : Program κ ν β ε ρ} (here : s.process t = .running n rest) :
    (s.exec (t, .run)).isSome = true ∨
      ∃ u row, s.draft (g t).key = some (u, row) ∧ (s.exec (u, .run)).isSome = true := by
  obtain ⟨running, holders⟩ : Unhindered g s := by
    refine run.preserves (P := Unhindered g) ?_ ⟨fun t n rest here => ?_, fun k t row drafted => ?_⟩
    · rintro s ⟨t, op⟩ s' done unhindered
      exact unhindered.step done
    · exact Or.inl (Process.running.inj here).2.symm
    · cases drafted
  have there := running t n rest here
  cases rest with
  | finish result | fail error | select next | insert entry next =>
    left
    unfold System.exec
    rw [here]
    rfl
  | update k f next =>
    have same := there.of_update
    unfold GuardedUpdate.locked at same
    cases same
    by_cases held : s.heldByOther t (g t).key = true
    · right
      obtain ⟨⟨u, row⟩, drafted, _⟩ := (Option.any_eq_true _ _).mp held
      obtain ⟨n', result, entries, process⟩ := holders _ u row drafted
      exact ⟨u, row, drafted, insertAll_runs process⟩
    · left
      unfold System.exec
      rw [here]
      simp only [System.statement, if_neg held]
      split
      · rfl
      · split <;> rfl

end Progress

end PredictionMarket.Library.ReadCommitted
