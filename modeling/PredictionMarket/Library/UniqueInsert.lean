/- PredictionMarket/Library/UniqueInsert
   digest: Transactions that check keys and insert under them, and which of several comes through. -/

import PredictionMarket.Library.ReadCommitted
import Mathlib.Data.List.Pairwise

set_option autoImplicit false
set_option relaxedAutoImplicit false

namespace PredictionMarket.Library.ReadCommitted

universe u

variable {τ κ : Type u} {ν : κ → Type u} {β ε ρ : Type u}

/-- The transaction looks whether some keys are free, with an error for each, makes its rows,
inserts them under their keys and returns. It inserts under every key that it looked at. -/
structure UniqueInsert (κ : Type u) (ν : κ → Type u) (ε ρ : Type u) where
  checks : List (κ × ε)
  made : Except ε (List (Sigma ν) × ρ)
  taken : ε
  distinct : ∀ rows result, made = .ok (rows, result) → (rows.map Sigma.fst).Nodup
  covers : ∀ rows result, made = .ok (rows, result) → ∀ c ∈ checks, c.1 ∈ rows.map Sigma.fst

/-- An INSERT under a key, which raises when the key is in use. It waits for an open
transaction that has inserted under the key before it. -/
def put (taken : ε) {k : κ} (v : ν k) : Option (ν k) → Except ε (Option (ν k))
  | none => .ok (some v)
  | some _ => .error taken

def putAll (taken : ε) (result : ρ) : List (Sigma ν) → Program κ ν β ε ρ
  | [] => .finish result
  | e :: rows => .update e.1 (put taken e.2) (fun _ => putAll taken result rows)

def checkAll (next : Program κ ν β ε ρ) : List (κ × ε) → Program κ ν β ε ρ
  | [] => next
  | c :: checks =>
    .select (fun rows _ => if (rows c.1).isSome then .fail c.2 else checkAll next checks)

namespace UniqueInsert

variable (g : UniqueInsert κ ν ε ρ)

def prepared : Program κ ν β ε ρ :=
  match g.made with
  | .error error => .fail error
  | .ok (rows, result) => putAll g.taken result rows

def program : Program κ ν β ε ρ := checkAll g.prepared g.checks

def Uses (k : κ) : Prop := ∃ rows result, g.made = .ok (rows, result) ∧ k ∈ rows.map Sigma.fst

def Refuses (c : Rows κ ν) (error : ε) : Prop :=
  g.made = .error error ∨ (∃ x ∈ g.checks, x.2 = error ∧ (c x.1).isSome) ∨
    error = g.taken ∧ ∃ k, g.Uses k ∧ (c k).isSome

variable {g}

private theorem Refuses.mono {c c' : Rows κ ν} {error : ε} (refuses : g.Refuses c error)
    (grows : ∀ k, (c k).isSome → (c' k).isSome) : g.Refuses c' error := by
  obtain unmade | ⟨x, checked, same, used⟩ | ⟨same, k, uses, used⟩ := refuses
  · exact Or.inl unmade
  · exact Or.inr (Or.inl ⟨x, checked, same, grows _ used⟩)
  · exact Or.inr (Or.inr ⟨same, k, uses, grows k used⟩)

end UniqueInsert

section Alone

variable [DecidableEq κ] {c : Rows κ ν} {l : List β} {taken : ε} {result : ρ}

def inserted (c : Rows κ ν) (rows : List (Sigma ν)) : Rows κ ν :=
  rows.foldl (fun c e => Function.update c e.1 (some e.2)) c

private theorem inserted_of_not_mem {rows : List (Sigma ν)} {k : κ}
    (other : k ∉ rows.map Sigma.fst) :
    inserted c rows k = c k := by
  induction rows generalizing c with
  | nil => rfl
  | cons e rows ih =>
    rw [List.map_cons, List.mem_cons, not_or] at other
    exact (ih other.2).trans (Function.update_of_ne other.1 _ _)

private theorem inserted_of_mem {rows : List (Sigma ν)} (distinct : (rows.map Sigma.fst).Nodup)
    {e : Sigma ν} (member : e ∈ rows) : inserted c rows e.1 = some e.2 := by
  induction rows generalizing c with
  | nil => cases member
  | cons first rows ih =>
    rw [List.map_cons, List.nodup_cons] at distinct
    obtain rfl | later := List.mem_cons.mp member
    · exact (inserted_of_not_mem distinct.1).trans (Function.update_self _ _ _)
    · exact ih distinct.2 later

theorem putAll_alone {rows : List (Sigma ν)} (distinct : (rows.map Sigma.fst).Nodup)
    (free : ∀ e ∈ rows, c e.1 = none) :
    (putAll taken result rows).alone c l = .ok (result, inserted c rows, l) := by
  induction rows generalizing c with
  | nil => rfl
  | cons e rows ih =>
    rw [List.map_cons, List.nodup_cons] at distinct
    rw [putAll, Program.alone, free e List.mem_cons_self]
    apply ih distinct.2
    intro e' member
    have other : e'.1 ≠ e.1 := fun same => distinct.1 (same ▸ List.mem_map_of_mem member)
    rw [Function.update_of_ne other]
    exact free e' (List.mem_cons_of_mem _ member)

theorem putAll_alone_taken {rows : List (Sigma ν)} (used : ∃ e ∈ rows, (c e.1).isSome = true) :
    (putAll taken result rows).alone c l = .error taken := by
  induction rows generalizing c with
  | nil => simp at used
  | cons e rows ih =>
    rw [putAll, Program.alone]
    cases here : c e.1 with
    | some v => rfl
    | none =>
      apply ih
      obtain ⟨e', member, there⟩ := used
      obtain rfl | later := List.mem_cons.mp member
      · rw [here] at there
        cases there
      · refine ⟨e', later, ?_⟩
        by_cases same : e'.1 = e.1
        · rw [same, Function.update_self]
          rfl
        · rwa [Function.update_of_ne same]

private theorem putAll_alone_ok {rows : List (Sigma ν)} {out : ρ × Rows κ ν × List β}
    (distinct : (rows.map Sigma.fst).Nodup)
    (done : (putAll taken result rows).alone c l = .ok out) :
    (∀ e ∈ rows, c e.1 = none) ∧ out = (result, inserted c rows, l) := by
  have free : ∀ e ∈ rows, c e.1 = none := by
    induction rows generalizing c with
    | nil => simp
    | cons e rows ih =>
      rw [List.map_cons, List.nodup_cons] at distinct
      rw [putAll, Program.alone] at done
      cases here : c e.1 with
      | some v =>
        rw [here] at done
        cases done
      | none =>
        rw [here] at done
        intro e' member
        obtain rfl | later := List.mem_cons.mp member
        · exact here
        · have other : e'.1 ≠ e.1 := fun same => distinct.1 (same ▸ List.mem_map_of_mem later)
          have before := ih distinct.2 done e' later
          rwa [Function.update_of_ne other] at before
  refine ⟨free, ?_⟩
  rw [putAll_alone distinct free] at done
  exact (Except.ok.inj done).symm

theorem checkAll_alone_cons {next : Program κ ν β ε ρ} {x : κ × ε} {checks : List (κ × ε)} :
    (checkAll next (x :: checks)).alone c l =
      if (c x.1).isSome then .error x.2 else (checkAll next checks).alone c l := by
  rw [checkAll, Program.alone]
  split <;> rfl

private theorem checkAll_alone {next : Program κ ν β ε ρ} {checks : List (κ × ε)}
    (free : ∀ x ∈ checks, c x.1 = none) : (checkAll next checks).alone c l = next.alone c l := by
  induction checks with
  | nil => rfl
  | cons x checks ih =>
    rw [checkAll, Program.alone, free x List.mem_cons_self]
    exact ih (fun y member => free y (List.mem_cons_of_mem _ member))

private theorem checkAll_alone_ok {next : Program κ ν β ε ρ} {checks : List (κ × ε)}
    {out : ρ × Rows κ ν × List β} (done : (checkAll next checks).alone c l = .ok out) :
    next.alone c l = .ok out := by
  induction checks with
  | nil => exact done
  | cons x checks ih =>
    rw [checkAll, Program.alone] at done
    split at done
    · cases done
    · exact ih done

variable {g : UniqueInsert κ ν ε ρ}

theorem UniqueInsert.alone_ok {out : ρ × Rows κ ν × List β} (done : g.program.alone c l = .ok out) :
    ∃ rows, g.made = .ok (rows, out.1) ∧ (∀ e ∈ rows, c e.1 = none) ∧
      out.2 = (inserted c rows, l) := by
  have put := checkAll_alone_ok done
  unfold prepared at put
  cases made : g.made with
  | error error =>
    rw [made] at put
    cases put
  | ok r =>
    obtain ⟨rows, result⟩ := r
    rw [made] at put
    obtain ⟨free, rfl⟩ := putAll_alone_ok (g.distinct rows result made) put
    exact ⟨rows, rfl, free, rfl⟩

theorem UniqueInsert.program_alone {rows : List (Sigma ν)} (made : g.made = .ok (rows, result))
    (free : ∀ e ∈ rows, c e.1 = none) :
    g.program.alone c l = .ok (result, inserted c rows, l) := by
  have checked : ∀ x ∈ g.checks, c x.1 = none := by
    intro x member
    obtain ⟨e, listed, same⟩ := List.mem_map.mp (g.covers rows result made x member)
    exact same ▸ free e listed
  rw [program, checkAll_alone checked, prepared, made]
  exact putAll_alone (g.distinct rows result made) free

end Alone

/-- Where an insertion is: it has keys to look at, it is about to raise, it has inserted
some of its rows and not the others, or it has ended. -/
inductive UniqueInsert.Stage [DecidableEq τ] (g : UniqueInsert κ ν ε ρ)
    (s : System τ κ ν β ε ρ) (t : τ) : Prop
  | checks {n : Nat} {x : κ × ε} {checks : List (κ × ε)}
      (here : s.process t = .running n (checkAll g.prepared (x :: checks)))
      (part : ∀ y ∈ x :: checks, y ∈ g.checks) (blank : s.Blank t)
  | fails {n : Nat} {error : ε} (here : s.process t = .running n (.fail error))
      (refuses : g.Refuses s.committed error) (blank : s.Blank t)
  | puts {n : Nat} {front rest : List (Sigma ν)} {result : ρ}
      (here : s.process t = .running n (putAll g.taken result rest))
      (made : g.made = .ok (front ++ rest, result))
      (filled : ∀ e ∈ front, s.own t e.1 = some (some e.2))
      (others : ∀ k, k ∉ front.map Sigma.fst → s.own t k = none) (pending : s.pending t = [])
  | ended {outcome : Except ε ρ} (here : s.process t = .ended outcome)
      (idle : ∀ k, s.own t k = none)

namespace UniqueInsert.Stage

variable [DecidableEq τ] {g : UniqueInsert κ ν ε ρ} {s s' : System τ κ ν β ε ρ} {t u : τ}

private theorem of_checks {n : Nat} {checks : List (κ × ε)}
    (here : s.process t = .running n (checkAll g.prepared checks))
    (part : ∀ y ∈ checks, y ∈ g.checks) (blank : s.Blank t) : g.Stage s t := by
  cases checks with
  | cons x checks => exact .checks here part blank
  | nil =>
    rw [checkAll, prepared] at here
    cases made : g.made with
    | error error =>
      rw [made] at here
      exact .fails here (Or.inl made) blank
    | ok r =>
      obtain ⟨rows, result⟩ := r
      rw [made] at here
      have whole : g.made = .ok ([] ++ rows, result) := made
      exact .puts here whole (by simp) (fun k _ => congrFun blank.1 k) blank.2

private theorem other (stage : g.Stage s u) (leaves : s.Leaves s' u)
    (grows : ∀ k, (s.committed k).isSome → (s'.committed k).isSome) : g.Stage s' u := by
  cases stage with
  | checks here part blank => exact .checks (leaves.process.trans here) part (blank.other leaves)
  | fails here refuses blank =>
    exact .fails (leaves.process.trans here) (refuses.mono grows) (blank.other leaves)
  | puts here made filled others pending =>
    refine .puts (leaves.process.trans here) made ?_ ?_ (leaves.pending.trans pending)
    · rw [leaves.own]
      exact filled
    · rw [leaves.own]
      exact others
  | ended here idle =>
    refine .ended (leaves.process.trans here) ?_
    rw [leaves.own]
    exact idle

private theorem select {n n' : Nat} {x : κ × ε} {checks : List (κ × ε)} {rest : Program κ ν β ε ρ}
    [DecidableEq κ] {op : Op ε} (moves : Moves s t op s')
    (here : s.process t = .running n (checkAll g.prepared (x :: checks)))
    (part : ∀ y ∈ x :: checks, y ∈ g.checks) (blank : s.Blank t)
    (there : s'.process t = .running n' rest) : g.Stage s' t := by
  obtain ⟨next, rfl, after⟩ := moves.select_next here there
  have still : s'.Blank t := by
    rw [after]
    exact blank
  have committed : s'.committed = s.committed := by
    rw [after]
    rfl
  rw [blank.view] at next
  split at next
  · next used =>
    subst next
    refine .fails there (Or.inr (Or.inl ⟨x, part x List.mem_cons_self, rfl, ?_⟩)) still
    rw [committed]
    exact used
  · subst next
    exact of_checks there (fun y member => part y (List.mem_cons_of_mem _ member)) still

end UniqueInsert.Stage

section Runs

variable [DecidableEq τ] [DecidableEq κ] (g : τ → UniqueInsert κ ν ε ρ) (aborts : τ → ε → Prop)
  {rows₀ : Rows κ ν} {log₀ : List β}

/-- Every insertion is at one of its stages, no key with a draft is in use, and whoever was
refused has a reason. -/
structure Inserting (s : System τ κ ν β ε ρ) : Prop where
  stages : ∀ t, (g t).Stage s t
  fresh : ∀ k t row, s.draft k = some (t, row) → s.committed k = none
  refused : ∀ t error, s.process t = .ended (.error error) →
    aborts t error ∨ (g t).Refuses s.committed error

variable {g aborts} {s s' : System τ κ ν β ε ρ} {t : τ}

omit [DecidableEq κ] in
private theorem Inserting.view_of_committed (inserting : Inserting g aborts s) {k : κ}
    (used : (s.committed k).isSome) : s.view t k = s.committed k := by
  unfold System.view overlay
  cases mine : s.own t k with
  | none => rfl
  | some row =>
    rw [inserting.fresh k t row (System.own_eq_some.mp mine)] at used
    cases used

private theorem Inserting.grows {op : Op ε} (inserting : Inserting g aborts s)
    (moves : Moves s t op s') (k : κ) (used : (s.committed k).isSome) :
    (s'.committed k).isSome := by
  obtain ⟨n, result, _, _, rfl⟩ | ⟨same, _⟩ := moves.commits_or_keeps
  · have kept : (s.commit t result).committed k = s.view t k := rfl
    rw [kept, inserting.view_of_committed used]
    exact used
  · rw [same]
    exact used

omit [DecidableEq κ] in
private theorem UniqueInsert.Stage.of_update {g : UniqueInsert κ ν ε ρ} {n : Nat} {k : κ}
    {f : Option (ν k) → Except ε (Option (ν k))} {next : Option (ν k) → Program κ ν β ε ρ}
    (stage : g.Stage s t) (here : s.process t = .running n (.update k f next)) :
    ∃ front v rest result, g.made = .ok (front ++ ⟨k, v⟩ :: rest, result) ∧
      f = put g.taken v ∧ next = (fun _ => putAll g.taken result rest) ∧
      (∀ e ∈ front, s.own t e.1 = some (some e.2)) ∧
      (∀ j, j ∉ front.map Sigma.fst → s.own t j = none) ∧ s.pending t = [] := by
  cases stage with
  | checks at_ _ _ | fails at_ _ _ | ended at_ _ =>
    rw [at_] at here
    cases here
  | @puts _ front rest result at_ made filled others pending =>
    obtain ⟨_, same⟩ := Process.running.inj (at_.symm.trans here)
    cases rest with
    | nil => cases same
    | cons e rest =>
      obtain ⟨j, v⟩ := e
      rw [putAll] at same
      cases same
      exact ⟨front, v, rest, result, made, rfl, rfl, filled, others, pending⟩

omit [DecidableEq τ] [DecidableEq κ] in
private theorem UniqueInsert.next_free {g : UniqueInsert κ ν ε ρ} {front rest : List (Sigma ν)}
    {k : κ}
    {v : ν k} {result : ρ} (made : g.made = .ok (front ++ ⟨k, v⟩ :: rest, result)) :
    k ∉ front.map Sigma.fst := by
  have distinct := g.distinct _ _ made
  rw [List.map_append, List.nodup_append] at distinct
  intro member
  exact distinct.2.2 k member k (by simp) rfl

omit [DecidableEq κ] in
private theorem view_of_free {k : κ} (free : s.own t k = none) : s.view t k = s.committed k := by
  rw [System.view, overlay, free]
  rfl

omit [DecidableEq κ] in
private theorem put_ok {taken : ε} {k : κ} {v : ν k} {row row' : Option (ν k)}
    (done : put taken v row = .ok row') : row = none ∧ row' = some v := by
  cases row with
  | none => exact ⟨rfl, (Except.ok.inj done).symm⟩
  | some _ => cases done

omit [DecidableEq κ] in
private theorem put_error {taken error : ε} {k : κ} {v : ν k} {row : Option (ν k)}
    (fails : put taken v row = .error error) : row.isSome ∧ error = taken := by
  cases row with
  | none => cases fails
  | some _ => exact ⟨rfl, (Except.error.inj fails).symm⟩

private theorem Moves.idle {op : Op ε} {outcome : Except ε ρ} (moves : Moves s t op s')
    (ended : s'.process t = .ended outcome) (k : κ) : s'.own t k = none := by
  have given : ∀ {c : System τ κ ν β ε ρ} {o}, (c.close t o).own t k = none := by
    intro c o
    cases mine : (c.close t o).own t k with
    | none => rfl
    | some row =>
      have kept := (Option.filter_eq_some_iff.mp (System.own_eq_some.mp mine)).2
      simp at kept
  cases moves with
  | commits _ _ after | closes _ after =>
    subst after
    exact given
  | selects _ after | skips _ _ _ _ after | writes _ _ _ after | inserts _ after =>
    subst after
    simp [System.goOn] at ended

private theorem UniqueInsert.Stage.step {g : UniqueInsert κ ν ε ρ} {op : Op ε} (stage : g.Stage s t)
    (moves : Moves s t op s') : g.Stage s' t := by
  cases now : s'.process t with
  | ended outcome => exact .ended now (moves.idle now)
  | running n' rest' =>
    cases moves with
    | commits here _ after | closes here after =>
      subst after
      simp [System.commit, System.close] at now
    | selects here after =>
      have moves : Moves s t op s' := .selects here after
      cases stage with
      | checks at_ part blank => exact .select moves at_ part blank now
      | fails at_ _ _ =>
        rw [at_] at here
        cases here
      | @puts _ front rest _ at_ _ _ _ _ =>
        rw [at_] at here
        cases rest <;> cases here
      | ended at_ _ =>
        rw [at_] at here
        cases here
    | inserts here after =>
      cases stage with
      | checks at_ _ _ | fails at_ _ _ | ended at_ _ =>
        rw [at_] at here
        cases here
      | @puts _ front rest _ at_ _ _ _ _ =>
        rw [at_] at here
        cases rest <;> cases here
    | skips here absent free keeps after =>
      obtain ⟨front, v, rest, result, made, rfl, _⟩ := stage.of_update here
      cases keeps
    | @writes n k f next row here free written after =>
      obtain ⟨front, v, rest, result, made, rfl, rfl, filled, others, pending⟩ :=
        stage.of_update here
      obtain ⟨_, rfl⟩ := put_ok written
      subst after
      obtain ⟨_, rfl⟩ := System.goOn_process now
      have own : ((s.write t k (some v)).goOn t n (putAll g.taken result rest)).own t =
          Function.update (s.own t) k (some (some v)) := System.own_write_self (some v)
      have later : g.made = .ok ((front ++ [⟨k, v⟩]) ++ rest, result) := by
        rw [made, List.append_assoc, List.singleton_append]
      have unput := UniqueInsert.next_free made
      refine .puts now later ?_ ?_ pending
      · intro e member
        rw [own]
        obtain before | last := List.mem_append.mp member
        · have other : e.1 ≠ k := fun same => unput (same ▸ List.mem_map_of_mem before)
          rw [Function.update_of_ne other]
          exact filled e before
        · obtain rfl := List.mem_singleton.mp last
          exact Function.update_self _ _ _
      · intro j outside
        rw [List.map_append, List.mem_append, not_or] at outside
        rw [own, Function.update_of_ne (by simpa using outside.2)]
        exact others j outside.1

private theorem Inserting.fresh_step {op : Op ε} (inserting : Inserting g aborts s)
    (moves : Moves s t op s') {k : κ} {u : τ} {row : Option (ν k)}
    (drafted : s'.draft k = some (u, row)) : s'.committed k = none := by
  cases moves with
  | @commits n result here _ after =>
    subst after
    obtain ⟨before, other⟩ := Option.filter_eq_some_iff.mp drafted
    have mine : s.own u k = some row := System.own_eq_some.mpr before
    have held : (s.own u k).isSome := by
      rw [mine]
      rfl
    have kept : (s.commit t result).committed k = s.view t k := rfl
    rw [kept, view_of_free (System.own_other held (Ne.symm (by simpa using other)))]
    exact inserting.fresh k u row before
  | closes here after =>
    subst after
    exact inserting.fresh k u row (Option.filter_eq_some_iff.mp drafted).1
  | selects here after | skips here _ _ _ after | inserts here after =>
    subst after
    exact inserting.fresh k u row drafted
  | @writes n j f next row' here free written after =>
    obtain ⟨front, v, rest, result, made, rfl, rfl, _, others, _⟩ :=
      (inserting.stages t).of_update here
    subst after
    simp only [System.goOn, System.write] at drafted ⊢
    by_cases at_ : k = j
    · subst at_
      rw [← view_of_free (others k (UniqueInsert.next_free made))]
      exact (put_ok written).1
    · rw [Function.update_of_ne at_] at drafted
      exact inserting.fresh k u row drafted

private theorem Inserting.refused_step {op : Op ε} {error : ε} (inserting : Inserting g aborts s)
    (outside : ∀ error, op = .abort error → aborts t error) (done : s.exec (t, op) = some s')
    (ended : s'.process t = .ended (.error error)) :
    aborts t error ∨ (g t).Refuses s.committed error := by
  obtain abort | ⟨n, failing⟩ | ⟨n, k, f, next, updating, fails⟩ := error_of_exec done ended
  · exact Or.inl (outside error abort)
  · right
    cases inserting.stages t with
    | fails at_ refuses _ =>
      obtain ⟨_, same⟩ := Process.running.inj (at_.symm.trans failing)
      exact Program.fail.inj same ▸ refuses
    | checks at_ _ _ | ended at_ _ =>
      rw [at_] at failing
      cases failing
    | @puts _ front rest _ at_ _ _ _ _ =>
      rw [at_] at failing
      cases rest <;> cases failing
  · obtain ⟨front, v, rest, result, made, rfl, rfl, _, others, _⟩ :=
      (inserting.stages t).of_update updating
    obtain ⟨used, same⟩ := put_error fails
    rw [view_of_free (others k (UniqueInsert.next_free made))] at used
    exact Or.inr (Or.inr (Or.inr ⟨same, k, ⟨_, _, made, by simp⟩, used⟩))

private theorem Inserting.step {op : Op ε} (inserting : Inserting g aborts s)
    (outside : ∀ error, op = .abort error → aborts t error)
    (done : s.exec (t, op) = some s') : Inserting g aborts s' := by
  have moves := moves_of_exec done
  have grows := inserting.grows moves
  refine ⟨fun u => ?_, fun k u row drafted => inserting.fresh_step moves drafted, ?_⟩
  · by_cases same : u = t
    · subst same
      exact (inserting.stages u).step moves
    · exact (inserting.stages u).other (moves.leaves same) grows
  · intro u error ended
    by_cases same : u = t
    · subst same
      exact (inserting.refused_step outside done ended).imp_right (fun r => r.mono grows)
    · rw [(moves.leaves same).process] at ended
      exact (inserting.refused u error ended).imp_right (fun r => r.mono grows)

omit [DecidableEq κ] in
private theorem Inserting.start :
    Inserting g aborts (.start rows₀ log₀ (fun t => (g t).program)) where
  stages _ := .of_checks rfl (fun _ member => member) ⟨rfl, rfl⟩
  fresh _ _ _ drafted := by cases drafted
  refused _ _ ended := by cases ended

private theorem Inserting.commits {n : Nat} {result : ρ} (inserting : Inserting g aborts s)
    (here : s.process t = .running n (.finish result)) :
    (g t).program.alone s.committed s.log = .ok (result, s.view t, s.log ++ s.pending t) := by
  cases inserting.stages t with
  | checks at_ _ _ | fails at_ _ _ | ended at_ _ =>
    rw [at_] at here
    cases here
  | @puts _ front rest result' at_ made filled others pending =>
    obtain ⟨_, same⟩ := Process.running.inj (at_.symm.trans here)
    cases rest with
    | cons e rest => cases same
    | nil =>
      cases same
      rw [List.append_nil] at made
      have free : ∀ e ∈ front, s.committed e.1 = none := fun e member =>
        inserting.fresh e.1 t _ (System.own_eq_some.mp (filled e member))
      have written : s.view t = inserted s.committed front := by
        funext k
        by_cases member : k ∈ front.map Sigma.fst
        · obtain ⟨e, listed, rfl⟩ := List.mem_map.mp member
          rw [inserted_of_mem ((g t).distinct _ _ made) listed, System.view, overlay,
            filled e listed]
          rfl
        · rw [inserted_of_not_mem member, view_of_free (others k member)]
      rw [written, pending, List.append_nil]
      exact UniqueInsert.program_alone made free

/-- Of insertions one after another, each finds its keys free and fills them for good, so no
two of them share a key. -/
structure Filled (g : τ → UniqueInsert κ ν ε ρ) (c c' : Rows κ ν) (order : List (τ × ρ)) :
    Prop where
  made : ∀ x ∈ order, ∃ rows, (g x.1).made = .ok (rows, x.2) ∧
    ∀ e ∈ rows, c e.1 = none ∧ c' e.1 = some e.2
  apart : order.Pairwise (fun x y => ∀ k, (g x.1).Uses k → ¬ (g y.1).Uses k)
  kept : ∀ k, (c k).isSome → c' k = c k
  origin : ∀ k, (c' k).isSome → (c k).isSome ∨ ∃ x ∈ order, (g x.1).Uses k

omit [DecidableEq τ] in
private theorem Filled.of_run {d d' : Rows κ ν × List β} {order : List (τ × ρ)}
    (run : Run (aloneSteps (fun t => (g t).program)) d order d') : Filled g d.1 d'.1 order := by
  induction run with
  | nil d => exact ⟨by simp, .nil, fun _ _ => rfl, fun _ used => Or.inl used⟩
  | @cons d d₁ d' x order step rest ih =>
    obtain ⟨rows, made, free, after⟩ := UniqueInsert.alone_ok step
    have distinct := (g x.1).distinct rows x.2 made
    have first : d₁.1 = inserted d.1 rows := congrArg Prod.fst after
    rw [first] at ih
    have grown : ∀ k, (d.1 k).isSome → inserted d.1 rows k = d.1 k := by
      intro k used
      apply inserted_of_not_mem
      intro member
      obtain ⟨e, listed, rfl⟩ := List.mem_map.mp member
      rw [free e listed] at used
      cases used
    have full : ∀ e ∈ rows, d'.1 e.1 = some e.2 := by
      intro e member
      have here := inserted_of_mem (c := d.1) distinct member
      rw [ih.kept e.1 (by rw [here]; rfl), here]
    refine ⟨?_, ?_, ?_, ?_⟩
    · intro y member
      obtain rfl | later := List.mem_cons.mp member
      · exact ⟨rows, made, fun e listed => ⟨free e listed, full e listed⟩⟩
      · obtain ⟨rows', made', all⟩ := ih.made y later
        refine ⟨rows', made', fun e listed => ⟨?_, (all e listed).2⟩⟩
        cases before : d.1 e.1 with
        | none => rfl
        | some v =>
          have used := grown e.1 (by rw [before]; rfl)
          rw [(all e listed).1, before] at used
          cases used
    · refine List.pairwise_cons.mpr ⟨?_, ih.apart⟩
      rintro y later k ⟨rows₁, r₁, made₁, mine⟩ ⟨rows₂, r₂, made₂, theirs⟩
      obtain ⟨rows', made', all⟩ := ih.made y later
      rw [made] at made₁
      rw [made'] at made₂
      cases made₁
      cases made₂
      obtain ⟨e, listed, rfl⟩ := List.mem_map.mp mine
      obtain ⟨e', listed', same⟩ := List.mem_map.mp theirs
      have taken := (all e' listed').1
      rw [same, inserted_of_mem distinct listed] at taken
      cases taken
    · intro k used
      rw [ih.kept k (by rw [grown k used]; exact used), grown k used]
    · intro k used
      obtain before | ⟨y, later, uses⟩ := ih.origin k used
      · by_cases member : k ∈ rows.map Sigma.fst
        · exact Or.inr ⟨x, List.mem_cons_self, rows, x.2, made, member⟩
        · rw [inserted_of_not_mem member] at before
          exact Or.inl before
      · exact Or.inr ⟨y, List.mem_cons_of_mem _ later, uses⟩

omit [DecidableEq τ] [DecidableEq κ] in
theorem Filled.disjoint {c c' : Rows κ ν} {order : List (τ × ρ)} (filled : Filled g c c' order)
    {x y : τ × ρ} (first : x ∈ order) (second : y ∈ order) (other : x ≠ y) {k : κ}
    (uses : (g x.1).Uses k) : ¬ (g y.1).Uses k := by
  have symm : Std.Symm (fun x y : τ × ρ => ∀ k, (g x.1).Uses k → ¬ (g y.1).Uses k) :=
    ⟨fun x y disjoint k mine theirs => disjoint k theirs mine⟩
  exact filled.apart.forall first second other k uses

variable {steps : List (τ × Op ε)}

theorem inserting_of_run
    (run : Run (Guarded (fun _ a => ∀ error, a.2 = .abort error → aborts a.1 error)
      (stepsOf System.exec)) (.start rows₀ log₀ (fun t => (g t).program)) steps s) :
    Inserting g aborts s := by
  refine run.preserves (P := Inserting g aborts) ?_ .start
  rintro s ⟨t, op⟩ s' ⟨outside, done⟩ inserting
  exact inserting.step outside done

/-- Insertions leave, in whatever order their statements ran and whichever of them were given
up, what the committed ones leave one after another, no two of them under one key. -/
theorem insertion_serial
    (run : Run (stepsOf System.exec) (.start rows₀ log₀ (fun t => (g t).program)) steps s) :
    ∃ order, Serial (fun t => (g t).program) (rows₀, log₀) s order ∧
      Filled g rows₀ s.committed order := by
  obtain ⟨order, serial⟩ := (run.preserves (P := fun s => Inserting g (fun _ _ => True) s ∧
    ∃ order, Serial (fun t => (g t).program) (rows₀, log₀) s order) (fun s a s' done both => by
      obtain ⟨inserting, order, serial⟩ := both
      exact ⟨inserting.step (fun _ _ => trivial) done,
        serial.step (moves_of_exec done) (fun n result here => inserting.commits here)⟩)
    ⟨.start, [], .start rows₀ log₀⟩).2
  exact ⟨order, serial, .of_run serial.run⟩

/-- Who is refused for a key has found it in use from the start, or lost it to an insertion
that came through. -/
theorem refused_by_winner
    (run : Run (Guarded (fun _ a => ∀ error, a.2 = .abort error → aborts a.1 error)
      (stepsOf System.exec)) (.start rows₀ log₀ (fun t => (g t).program)) steps s) {error : ε}
    (ended : s.process t = .ended (.error error)) :
    aborts t error ∨ (g t).made = .error error ∨
      ∃ k, ((k, error) ∈ (g t).checks ∨ error = (g t).taken ∧ (g t).Uses k) ∧
        ((rows₀ k).isSome ∨ ∃ u result, s.process u = .ended (.ok result) ∧ (g u).Uses k) := by
  obtain ⟨order, serial, filled⟩ := insertion_serial run.ofGuarded
  have winner : ∀ k, (s.committed k).isSome → (rows₀ k).isSome ∨
      ∃ u result, s.process u = .ended (.ok result) ∧ (g u).Uses k := by
    intro k used
    refine (filled.origin k used).imp_right ?_
    rintro ⟨⟨u, result⟩, listed, uses⟩
    exact ⟨u, result, (serial.exactly u result).mp listed, uses⟩
  obtain abort | unmade | ⟨⟨k, e⟩, checked, rfl, used⟩ | ⟨same, k, uses, used⟩ :=
    (inserting_of_run run).refused t error ended
  · exact Or.inl abort
  · exact Or.inr (Or.inl unmade)
  · exact Or.inr (Or.inr ⟨k, Or.inl checked, winner k used⟩)
  · exact Or.inr (Or.inr ⟨k, Or.inr ⟨same, uses⟩, winner k used⟩)

private theorem runs_or_waits {n : Nat} {rest : Program κ ν β ε ρ}
    (here : s.process t = .running n rest) : (s.exec (t, .run)).isSome = true ∨
      ∃ k f next u row, rest = .update k f next ∧ s.draft k = some (u, row) := by
  unfold System.exec
  rw [here]
  cases rest with
  | finish result | fail error | select next | insert entry next => exact Or.inl rfl
  | update k f next =>
    by_cases held : s.heldByOther t k = true
    · obtain ⟨⟨u, row⟩, drafted, _⟩ := (Option.any_eq_true _ _).mp held
      exact Or.inr ⟨k, f, next, u, row, rfl, drafted⟩
    · left
      simp only [System.statement, if_neg held]
      split
      · rfl
      · split <;> rfl

omit [DecidableEq κ] in
private theorem Inserting.holder (inserting : Inserting g aborts s) {k : κ} {row : Option (ν k)}
    (drafted : s.draft k = some (t, row)) : ∃ n front rest result,
      s.process t = .running n (putAll (g t).taken result rest) ∧
        (g t).made = .ok (front ++ rest, result) ∧ k ∈ front.map Sigma.fst := by
  have mine : s.own t k = some row := System.own_eq_some.mpr drafted
  cases inserting.stages t with
  | checks _ _ blank | fails _ _ blank =>
    rw [blank.1] at mine
    cases mine
  | ended _ idle =>
    rw [idle k] at mine
    cases mine
  | @puts n front rest result here made _ others _ =>
    refine ⟨n, front, rest, result, here, made, ?_⟩
    by_contra outside
    rw [others k outside] at mine
    cases mine

/-- Insertions that insert in the order of a rank do not wait for each other in a circle: the
one that holds the key of the highest rank can go on. -/
theorem insertion_progress {rank : κ → Nat} {bound : Nat} (low : ∀ k, rank k < bound)
    (climbs : ∀ t rows result, (g t).made = .ok (rows, result) →
      (rows.map Sigma.fst).Pairwise (fun j k => rank j < rank k))
    (inserting : Inserting g aborts s) {n : Nat} {rest : Program κ ν β ε ρ}
    (here : s.process t = .running n rest) : ∃ u, (s.exec (u, .run)).isSome = true := by
  -- the holder of a key either goes on or waits at a key of a higher rank
  have held : ∀ m k u row, bound - rank k = m → s.draft k = some (u, row) →
      ∃ v, (s.exec (v, .run)).isSome = true := by
    intro m
    induction m using Nat.strong_induction_on with
    | _ m ih =>
      intro k u row depth drafted
      obtain ⟨n', front, rest', result, there, made, before⟩ := inserting.holder drafted
      obtain goes | ⟨j, f, next, v, row', same, drafted'⟩ := runs_or_waits there
      · exact ⟨u, goes⟩
      · cases rest' with
        | nil => cases same
        | cons e rest' =>
          rw [putAll] at same
          cases same
          have ordered := climbs u _ _ made
          rw [List.map_append, List.pairwise_append] at ordered
          have above : rank k < rank e.1 := ordered.2.2 k before e.1 (by simp)
          have top := low e.1
          exact ih (bound - rank e.1) (by omega) e.1 v row' rfl drafted'
  obtain goes | ⟨k, f, next, u, row, _, drafted⟩ := runs_or_waits here
  · exact ⟨t, goes⟩
  · exact held _ k u row rfl drafted

end Runs

end PredictionMarket.Library.ReadCommitted
