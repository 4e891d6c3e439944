/- PredictionMarket/Library/Result
   digest: Reading a successful run of fallible steps backwards. -/

import Mathlib.Tactic.TypeStar

set_option autoImplicit false
set_option relaxedAutoImplicit false

namespace PredictionMarket.Library

universe u v

variable {ε : Type u} {α β : Type v}

theorem bind_eq_ok {x : Except ε α} {f : α → Except ε β} {b : β} :
    x >>= f = .ok b ↔ ∃ a, x = .ok a ∧ f a = .ok b := by
  cases x with
  | error e => simp [bind, Except.bind]
  | ok a => simp [bind, Except.bind]

theorem pure_eq_ok {a b : α} : (pure a : Except ε α) = .ok b ↔ a = b := by
  simp [pure, Except.pure]

theorem throw_ne_ok {e : ε} {b : α} : (throw e : Except ε α) ≠ .ok b := by
  simp [throw, throwThe, MonadExceptOf.throw]

@[simp] theorem throw_eq_error {e : ε} : (throw e : Except ε α) = .error e := rfl

@[simp] theorem error_bind {e : ε} {f : α → Except ε β} : (.error e : Except ε α) >>= f = .error e :=
  rfl

theorem ok_bind {a : α} {f : α → Except ε β} : (.ok a : Except ε α) >>= f = f a := rfl

theorem map_bind {γ : Type v} {x : Except ε α} {f : α → Except ε β} {g : β → γ} :
    (x >>= f).map g = x >>= fun a => (f a).map g := by
  cases x <;> rfl

theorem map_eq_ok {x : Except ε α} {f : α → β} {b : β} :
    x.map f = .ok b ↔ ∃ a, x = .ok a ∧ f a = b := by
  cases x with
  | error e => simp [Except.map]
  | ok a => simp [Except.map]

theorem exists_of_isOk {x : Except ε α} (ok : x.isOk = true) : ∃ a, x = .ok a := by
  cases x with
  | error e => cases ok
  | ok a => exact ⟨a, rfl⟩

theorem foldlM_preserves {P : β → Prop} {f : β → α → Except ε β} {l : List α} {b b' : β}
    (keep : ∀ c a c', a ∈ l → f c a = .ok c' → P c → P c') (done : l.foldlM f b = .ok b')
    (start : P b) : P b' := by
  induction l generalizing b with
  | nil =>
    simp only [List.foldlM_nil, pure_eq_ok] at done
    exact done ▸ start
  | cons a l ih =>
    simp only [List.foldlM_cons, bind_eq_ok] at done
    obtain ⟨c, first, rest⟩ := done
    exact ih (fun c a c' member => keep c a c' (List.mem_cons_of_mem _ member)) rest
      (keep b a c List.mem_cons_self first start)

end PredictionMarket.Library
