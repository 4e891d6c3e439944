/- PredictionMarket/Library/Run
   digest: Finite runs of labelled transition systems, and runs under a guard. -/

import Mathlib.Tactic.TypeStar

set_option autoImplicit false
set_option relaxedAutoImplicit false

namespace PredictionMarket.Library

universe u v

variable {σ : Type u} {α : Type v}

/-- A labelled transition system, as the steps it can take. -/
abbrev Steps (σ : Type u) (α : Type v) := σ → α → σ → Prop

def Guarded (guard : σ → α → Prop) (step : Steps σ α) : Steps σ α :=
  fun s a t => guard s a ∧ step s a t

/-- Finite runs, with the labels of their steps in order. -/
inductive Run (step : Steps σ α) : σ → List α → σ → Prop
  | nil (s : σ) : Run step s [] s
  | cons {s t u : σ} {a : α} {as : List α} : step s a t → Run step t as u → Run step s (a :: as) u

def stepsOf (exec : σ → α → Option σ) : Steps σ α := fun s a t => exec s a = some t

namespace Run

variable {step : Steps σ α} {s t u : σ} {as bs : List α}

theorem append (first : Run step s as t) (second : Run step t bs u) :
    Run step s (as ++ bs) u := by
  induction first with
  | nil => exact second
  | cons head _ ih => exact .cons head (ih second)

theorem single {a : α} (head : step s a t) : Run step s [a] t := .cons head (.nil t)

@[simp] theorem single_iff {a : α} : Run step s [a] t ↔ step s a t := by
  refine ⟨fun run => ?_, .single⟩
  obtain _ | ⟨head, tail⟩ := run
  cases tail
  exact head

theorem split (run : Run step s (as ++ bs) u) : ∃ t, Run step s as t ∧ Run step t bs u := by
  induction as generalizing s with
  | nil => exact ⟨s, .nil s, run⟩
  | cons a as ih =>
    cases run with
    | cons head rest =>
      obtain ⟨t, first, second⟩ := ih rest
      exact ⟨t, .cons head first, second⟩

theorem preserves {P : σ → Prop} (keep : ∀ s a t, step s a t → P s → P t)
    (run : Run step s as t) (start : P s) : P t := by
  induction run with
  | nil => exact start
  | cons head _ ih => exact ih (keep _ _ _ head start)

theorem mono {step' : Steps σ α} (into : ∀ s a t, step s a t → step' s a t)
    (run : Run step s as t) : Run step' s as t := by
  induction run with
  | nil => exact .nil _
  | cons head _ ih => exact .cons (into _ _ _ head) ih

theorem ofGuarded {guard : σ → α → Prop} (run : Run (Guarded guard step) s as t) :
    Run step s as t := run.mono (fun _ _ _ guarded => guarded.2)

theorem ofExec {exec : σ → α → Option σ} (done : as.foldlM exec s = some t) :
    Run (stepsOf exec) s as t := by
  induction as generalizing s with
  | nil =>
    obtain rfl := Option.some.inj done
    exact .nil s
  | cons a as ih =>
    rw [List.foldlM_cons, Option.bind_eq_bind, Option.bind_eq_some_iff] at done
    obtain ⟨u, head, rest⟩ := done
    exact .cons head (ih rest)

theorem ofGuardedExec {guard : σ → α → Prop} [∀ s a, Decidable (guard s a)]
    {exec : σ → α → Option σ}
    (done : as.foldlM (fun s a => if guard s a then exec s a else none) s = some t) :
    Run (Guarded guard (stepsOf exec)) s as t := by
  refine (ofExec done).mono ?_
  intro s a t moved
  simp only [stepsOf] at moved
  split at moved
  · next admitted => exact ⟨admitted, moved⟩
  · cases moved

end Run

end PredictionMarket.Library
