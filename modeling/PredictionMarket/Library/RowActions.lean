/- PredictionMarket/Library/RowActions
   digest: Statements that act on one row, and when two of them can change places. -/

import PredictionMarket.Library.Table

set_option autoImplicit false
set_option relaxedAutoImplicit false

namespace PredictionMarket.Library

universe u v w

variable {κ : Type u} {ρ : Type v}

/-- Make of the row under a key what `act` says; fail where `act` does. -/
def actAt [DecidableEq κ] (k : κ) (act : Option ρ → Option (Option ρ)) (rows : κ → Option ρ) :
    Option (κ → Option ρ) :=
  (act (rows k)).map (Function.update rows k)

section Actions

variable [DecidableEq κ] {k j : κ} {act act' : Option ρ → Option (Option ρ)} {rows : κ → Option ρ}

theorem actAt_comm (same : k = j → (act (rows k)).bind act' = (act' (rows k)).bind act) :
    (actAt k act rows).bind (actAt j act') = (actAt j act' rows).bind (actAt k act) := by
  by_cases here : k = j
  · subst here
    have collapse : ∀ f g : Option ρ → Option (Option ρ),
        (actAt k f rows).bind (actAt k g) = ((f (rows k)).bind g).map (Function.update rows k) := by
      intro f g
      unfold actAt
      cases f (rows k) with
      | none => rfl
      | some row =>
        simp only [Option.map_some, Option.bind_some, Function.update_self]
        cases g row with
        | none => rfl
        | some row' => simp only [Option.map_some, Function.update_idem]
    rw [collapse, collapse, same rfl]
  · unfold actAt
    cases first : act (rows k) with
    | none =>
      cases second : act' (rows j) with
      | none => rfl
      | some row' => simp [Function.update_of_ne here, first]
    | some row =>
      cases second : act' (rows j) with
      | none => simp [Function.update_of_ne (Ne.symm here), second]
      | some row' =>
        simp only [Option.map_some, Option.bind_some, Function.update_of_ne (Ne.symm here),
          Function.update_of_ne here, first, second]
        rw [Function.update_comm here]

theorem actAt_map {τ : Type w} {φ : ρ → τ} {act'' : Option τ → Option (Option τ)}
    (carry : ∀ row, act'' (row.map φ) = (act row).map (Option.map φ)) :
    actAt k act'' (fun x => (rows x).map φ) =
      (actAt k act rows).map (fun rows' x => (rows' x).map φ) := by
  unfold actAt
  rw [carry]
  cases act (rows k) with
  | none => rfl
  | some row =>
    refine congrArg some ?_
    funext x
    by_cases here : x = k
    · subst here
      simp
    · simp [here]

end Actions

section Rows

variable {ok : ρ → Prop} [DecidablePred ok] {f g : ρ → ρ} {row : Option ρ}

theorem rowUpdate?_comm (commute : ∀ r, g (f r) = f (g r))
    (checks : ∀ r, row = some r → (ok (f r) ∧ ok (g (f r)) ↔ ok (g r) ∧ ok (g (f r)))) :
    (Table.rowUpdate? ok f row).bind (Table.rowUpdate? ok g) =
      (Table.rowUpdate? ok g row).bind (Table.rowUpdate? ok f) := by
  cases row with
  | none => rfl
  | some r =>
    have both : ∀ a b : ρ → ρ, (Table.rowUpdate? ok a (some r)).bind (Table.rowUpdate? ok b) =
        if ok (a r) ∧ ok (b (a r)) then some (some (b (a r))) else none := by
      intro a b
      simp only [Table.rowUpdate?]
      by_cases fits : ok (a r) <;> simp [fits, Table.rowUpdate?]
    rw [both, both, ← commute r]
    exact if_congr (checks r rfl) rfl rfl

theorem rowUpsert?_some (new a : ρ) : Table.rowUpsert? ok new f (some a) =
    if ok new then Table.rowUpdate? ok f (some a) else none := rfl

theorem rowUpsert?_comm {e : ρ} (commute : ∀ r, g (f r) = f (g r))
    (checks : ∀ r, row = some r → (ok (f r) ∧ ok (g (f r)) ↔ ok (g r) ∧ ok (g (f r)))) :
    (Table.rowUpsert? ok (f e) f row).bind (Table.rowUpsert? ok (g e) g) =
      (Table.rowUpsert? ok (g e) g row).bind (Table.rowUpsert? ok (f e) f) := by
  cases row with
  | none =>
    have new : ∀ a b : ρ → ρ,
        (Table.rowUpsert? ok (a e) a none).bind (Table.rowUpsert? ok (b e) b) =
          if (ok (a e) ∧ ok (b e)) ∧ ok (b (a e)) then some (some (b (a e)))
          else none := by
      intro a b
      by_cases first : ok (a e) <;> by_cases second : ok (b e) <;>
        simp [first, second, Table.rowUpsert?, Table.rowUpdate?]
    rw [new, new, commute]
    exact if_congr (and_congr_left' and_comm) rfl rfl
  | some r =>
    have both : ∀ a b : ρ → ρ,
        (Table.rowUpsert? ok (a e) a (some r)).bind (Table.rowUpsert? ok (b e) b) =
          if ok (a e) ∧ ok (b e) then
            (Table.rowUpdate? ok a (some r)).bind (Table.rowUpdate? ok b) else none := by
      intro a b
      by_cases first : ok (a e) <;> by_cases second : ok (b e) <;>
        by_cases fits : ok (a r) <;>
          simp [first, second, fits, rowUpsert?_some, Table.rowUpdate?]
    rw [both, both, rowUpdate?_comm commute checks]
    exact if_congr and_comm rfl rfl

theorem rowUpdate?_map {τ : Type w} {ok' : τ → Prop} [DecidablePred ok'] {φ : ρ → τ}
    {f' : τ → τ} (carry : ∀ r, f' (φ r) = φ (f r)) (check : ∀ r, ok' (φ r) ↔ ok r)
    (row : Option ρ) :
    Table.rowUpdate? ok' f' (row.map φ) = (Table.rowUpdate? ok f row).map (Option.map φ) := by
  cases row with
  | none => rfl
  | some r =>
    simp only [Option.map_some, Table.rowUpdate?, carry, check]
    split <;> rfl

theorem rowUpsert?_map {τ : Type w} {ok' : τ → Prop} [DecidablePred ok'] {φ : ρ → τ}
    {f' : τ → τ} (carry : ∀ r, f' (φ r) = φ (f r)) (check : ∀ r, ok' (φ r) ↔ ok r) (new : ρ)
    (row : Option ρ) : Table.rowUpsert? ok' (φ new) f' (row.map φ) =
      (Table.rowUpsert? ok new f row).map (Option.map φ) := by
  simp only [Table.rowUpsert?, check]
  split
  · cases row with
    | none => rfl
    | some r => exact rowUpdate?_map carry check (some r)
  · rfl

end Rows

end PredictionMarket.Library
