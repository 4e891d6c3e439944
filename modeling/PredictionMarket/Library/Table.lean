/- PredictionMarket/Library/Table
   digest: Keyed tables whose stored rows always pass the table's check. -/

import Mathlib.Algebra.BigOperators.Group.List.Basic
import Mathlib.Algebra.Order.BigOperators.Group.List
import Mathlib.Data.List.Nodup
import Mathlib.Tactic.Abel

set_option autoImplicit false
set_option relaxedAutoImplicit false

namespace PredictionMarket.Library

universe u v w

theorem sum_map_nonneg {α : Type u} {M : Type w} [AddMonoid M] [Preorder M] [AddLeftMono M]
    {l : List α} {f : α → M} (nonneg : ∀ a ∈ l, 0 ≤ f a) : 0 ≤ (l.map f).sum := by
  apply List.sum_nonneg
  intro x listed
  obtain ⟨a, member, rfl⟩ := List.mem_map.mp listed
  exact nonneg a member

/-- Rows under a primary key, in insertion order. A key occurs once and every
stored row passes the check, so a table that breaks either cannot be built. -/
structure Table (κ : Type u) (ρ : Type v) (ok : ρ → Prop) where
  rows : List (κ × ρ)
  nodup : (rows.map Prod.fst).Nodup
  valid : ∀ e ∈ rows, ok e.2

namespace Table

variable {κ : Type u} {ρ : Type v} {ok : ρ → Prop}

def empty : Table κ ρ ok := ⟨[], by simp, by simp⟩

@[ext] theorem ext {t s : Table κ ρ ok} (same : t.rows = s.rows) : t = s := by
  cases t
  cases s
  cases same
  rfl

def sum {M : Type w} [AddCommGroup M] (t : Table κ ρ ok) (g : κ → ρ → M) : M :=
  (t.rows.map (fun e => g e.1 e.2)).sum

@[simp] theorem sum_empty {M : Type w} [AddCommGroup M] (g : κ → ρ → M) :
    (empty : Table κ ρ ok).sum g = 0 := rfl

variable [DecidableEq κ]

def get? (t : Table κ ρ ok) (k : κ) : Option ρ :=
  (t.rows.find? (fun e => e.1 = k)).map Prod.snd

theorem mem_iff {t : Table κ ρ ok} {k : κ} {r : ρ} : (k, r) ∈ t.rows ↔ t.get? k = some r := by
  have unique : ∀ {a b : ρ}, (k, a) ∈ t.rows → (k, b) ∈ t.rows → a = b := by
    intro a b ha hb
    have same := List.inj_on_of_nodup_map t.nodup ha hb rfl
    exact congrArg Prod.snd same
  constructor
  · intro member
    cases found : t.rows.find? (fun e => e.1 = k) with
    | none =>
      have absent := List.find?_eq_none.mp found (k, r) member
      simp at absent
    | some e =>
      have key : e.1 = k := by simpa using List.find?_some found
      have stored : (k, e.2) ∈ t.rows := by
        rw [← key]
        exact List.mem_of_find?_eq_some found
      simp [get?, found, unique stored member]
  · intro got
    obtain ⟨e, found, rfl⟩ := Option.map_eq_some_iff.mp got
    have key : e.1 = k := by simpa using List.find?_some found
    rw [← key]
    exact List.mem_of_find?_eq_some found

theorem get?_eq_none {t : Table κ ρ ok} {k : κ} :
    t.get? k = none ↔ k ∉ t.rows.map Prod.fst := by
  constructor
  · intro none member
    obtain ⟨e, stored, rfl⟩ := List.mem_map.mp member
    simp [mem_iff.mp stored] at none
  · intro absent
    cases got : t.get? k with
    | none => rfl
    | some r => exact absurd (List.mem_map.mpr ⟨(k, r), mem_iff.mpr got, rfl⟩) absent

theorem isSome_congr {t s : Table κ ρ ok} (keys : t.rows.map Prod.fst = s.rows.map Prod.fst)
    (k : κ) : (t.get? k).isSome = (s.get? k).isSome := by
  rw [Bool.eq_iff_iff, Option.isSome_iff_ne_none, Option.isSome_iff_ne_none, ne_eq, ne_eq,
    get?_eq_none, get?_eq_none, keys]

theorem row_of_map {β : Type*} {g : ρ → β} {t s : Table κ ρ ok} {k : κ} {r' : ρ}
    (same : (s.get? k).map g = (t.get? k).map g) (got : s.get? k = some r') :
    ∃ r, t.get? k = some r ∧ g r = g r' := by
  rw [got, Option.map_some, eq_comm, Option.map_eq_some_iff] at same
  exact same

@[simp] theorem get?_empty (k : κ) : (empty : Table κ ρ ok).get? k = none := rfl

theorem check {t : Table κ ρ ok} {k : κ} {r : ρ} (got : t.get? k = some r) : ok r :=
  t.valid _ (mem_iff.mpr got)

/-- Overwrite the row under a key; nothing happens when there is none. -/
def set (t : Table κ ρ ok) (k : κ) (r : ρ) (h : ok r) : Table κ ρ ok where
  rows := t.rows.map (fun e => if e.1 = k then (k, r) else e)
  nodup := by
    have keys : (t.rows.map (fun e => if e.1 = k then (k, r) else e)).map Prod.fst =
        t.rows.map Prod.fst := by
      rw [List.map_map]
      apply List.map_congr_left
      intro e _
      by_cases key : e.1 = k <;> simp [key]
    rw [keys]
    exact t.nodup
  valid := by
    intro e member
    obtain ⟨a, stored, rfl⟩ := List.mem_map.mp member
    by_cases key : a.1 = k
    · simpa [key] using h
    · simpa [key] using t.valid a stored

theorem keys_set (t : Table κ ρ ok) (k : κ) (r : ρ) (h : ok r) :
    (t.set k r h).rows.map Prod.fst = t.rows.map Prod.fst := by
  simp only [set, List.map_map]
  apply List.map_congr_left
  intro e _
  by_cases key : e.1 = k <;> simp [key]

theorem get?_set (t : Table κ ρ ok) (k j : κ) (r : ρ) (h : ok r) :
    (t.set k r h).get? j = if j = k then (t.get? k).map (fun _ => r) else t.get? j := by
  ext s
  rw [← mem_iff]
  by_cases same : j = k
  · subst same
    simp only [set, List.mem_map, if_true, Option.map_eq_some_iff]
    constructor
    · rintro ⟨e, stored, equal⟩
      by_cases key : e.1 = j
      · have row : r = s := by simpa [key] using equal
        exact ⟨e.2, mem_iff.mp (key ▸ stored), row⟩
      · exact absurd (congrArg Prod.fst (by simpa [key] using equal)) key
    · rintro ⟨a, got, rfl⟩
      exact ⟨(j, a), mem_iff.mpr got, by simp⟩
  · simp only [set, List.mem_map, same, if_false]
    rw [← mem_iff]
    constructor
    · rintro ⟨e, stored, equal⟩
      by_cases key : e.1 = k
      · have other : k = j ∧ r = s := by simpa [key] using equal
        exact absurd other.1.symm same
      · have kept : e = (j, s) := by simpa [key] using equal
        exact kept ▸ stored
    · intro stored
      exact ⟨(j, s), stored, by simp [same]⟩

/-- Add a row under a key that is not in use. -/
def add (t : Table κ ρ ok) (k : κ) (r : ρ) (fresh : t.get? k = none) (h : ok r) :
    Table κ ρ ok where
  rows := t.rows ++ [(k, r)]
  nodup := by
    have absent := get?_eq_none.mp fresh
    simp only [List.map_append, List.map_singleton]
    exact List.nodup_append.mpr ⟨t.nodup, by simp, by
      intro a ha b hb
      obtain rfl := List.mem_singleton.mp hb
      exact fun same => absent (same ▸ ha)⟩
  valid := by
    intro e member
    rcases List.mem_append.mp member with stored | last
    · exact t.valid e stored
    · obtain rfl := List.mem_singleton.mp last
      exact h

theorem get?_add (t : Table κ ρ ok) (k j : κ) (r : ρ) (fresh : t.get? k = none) (h : ok r) :
    (t.add k r fresh h).get? j = if j = k then some r else t.get? j := by
  ext s
  rw [← mem_iff]
  simp only [add, List.mem_append, List.mem_singleton, Prod.mk.injEq, mem_iff]
  by_cases same : j = k
  · subst same
    simp [fresh, eq_comm]
  · simp [same]

section Sum

variable {M : Type w} [AddCommGroup M]

private theorem sum_map_set (l : List (κ × ρ)) (k : κ) (r s : ρ) (g : κ → ρ → M)
    (nodup : (l.map Prod.fst).Nodup) (stored : (k, s) ∈ l) :
    ((l.map (fun e => if e.1 = k then (k, r) else e)).map (fun e => g e.1 e.2)).sum =
      (l.map (fun e => g e.1 e.2)).sum - g k s + g k r := by
  induction l with
  | nil => simp at stored
  | cons e l ih =>
    simp only [List.map_cons, List.nodup_cons] at nodup
    rcases List.mem_cons.mp stored with here | there
    · subst here
      have tail : l.map (fun e => if e.1 = k then (k, r) else e) = l := by
        conv_rhs => rw [← List.map_id l]
        apply List.map_congr_left
        intro a ha
        have other : a.1 ≠ k := fun same => nodup.1 (List.mem_map.mpr ⟨a, ha, same⟩)
        simp [other]
      simp only [List.map_cons, List.sum_cons, tail, if_true]
      abel
    · have other : e.1 ≠ k := by
        intro same
        exact nodup.1 (same ▸ List.mem_map_of_mem (f := Prod.fst) there)
      simp only [List.map_cons, List.sum_cons, ih nodup.2 there, other, if_false]
      abel

theorem sum_set {t : Table κ ρ ok} {k : κ} {s : ρ} (got : t.get? k = some s) (r : ρ) (h : ok r)
    (g : κ → ρ → M) : (t.set k r h).sum g = t.sum g - g k s + g k r :=
  sum_map_set t.rows k r s g t.nodup (mem_iff.mpr got)

theorem sum_add (t : Table κ ρ ok) (k : κ) (r : ρ) (fresh : t.get? k = none) (h : ok r)
    (g : κ → ρ → M) : (t.add k r fresh h).sum g = t.sum g + g k r := by
  simp [sum, add]

omit [DecidableEq κ] in
theorem sum_filter (t : Table κ ρ ok) (p : κ × ρ → Bool) (f : κ × ρ → M) :
    ((t.rows.filter p).map f).sum = t.sum (fun k r => if p (k, r) then f (k, r) else 0) := by
  simp [sum, List.sum_map_ite]

private theorem sum_map_key (l : List (κ × ρ)) (k : κ) (r : ρ) (g : ρ → M)
    (nodup : (l.map Prod.fst).Nodup) (stored : (k, r) ∈ l) :
    (l.map (fun e => if e.1 = k then g e.2 else 0)).sum = g r := by
  induction l with
  | nil => simp at stored
  | cons e l ih =>
    simp only [List.map_cons, List.nodup_cons] at nodup
    rcases List.mem_cons.mp stored with here | there
    · subst here
      have tail : (l.map (fun e => if e.1 = k then g e.2 else 0)).sum = 0 := by
        apply List.sum_eq_zero
        intro x member
        obtain ⟨a, listed, rfl⟩ := List.mem_map.mp member
        exact if_neg (fun same => nodup.1 (List.mem_map.mpr ⟨a, listed, same⟩))
      rw [List.map_cons, List.sum_cons, if_pos rfl, tail, add_zero]
    · have other : e.1 ≠ k := fun same =>
        nodup.1 (same ▸ List.mem_map_of_mem (f := Prod.fst) there)
      rw [List.map_cons, List.sum_cons, if_neg other, ih nodup.2 there, zero_add]

theorem sum_single (t : Table κ ρ ok) (k : κ) (g : ρ → M) :
    t.sum (fun j r => if j = k then g r else 0) = (t.get? k).elim 0 g := by
  cases got : t.get? k with
  | none =>
    apply List.sum_eq_zero
    intro x member
    obtain ⟨e, stored, rfl⟩ := List.mem_map.mp member
    exact if_neg (fun same => get?_eq_none.mp got (List.mem_map.mpr ⟨e, stored, same⟩))
  | some r => exact sum_map_key t.rows k r g t.nodup (mem_iff.mpr got)

theorem sum_groups {α : Type*} (t : Table κ ρ ok) (l : List α) (key : α → κ) (f : α → ρ → M) :
    t.sum (fun k r => ((l.filter (fun a => key a = k)).map (fun a => f a r)).sum) =
      (l.map (fun a => (t.get? (key a)).elim 0 (f a))).sum := by
  induction l with
  | nil => simp [sum]
  | cons a l ih =>
    rw [List.map_cons, List.sum_cons, ← ih, ← sum_single t (key a) (f a)]
    unfold sum
    rw [← List.sum_map_add]
    congr 1
    apply List.map_congr_left
    intro e _
    by_cases same : key a = e.1
    · simp [same]
    · simp [same, Ne.symm same]

theorem sum_eq_zero {t : Table κ ρ ok} {g : κ → ρ → M}
    (zero : ∀ k r, t.get? k = some r → g k r = 0) : t.sum g = 0 := by
  apply List.sum_eq_zero
  intro x member
  obtain ⟨e, stored, rfl⟩ := List.mem_map.mp member
  exact zero e.1 e.2 (mem_iff.mp stored)

end Sum

variable [DecidablePred ok]

/-- An update of the row under a key. `none` means that the new row fails the
check; an absent key is no failure and changes nothing. -/
def update? (t : Table κ ρ ok) (k : κ) (f : ρ → ρ) : Option (Table κ ρ ok) :=
  match t.get? k with
  | none => some t
  | some r => if h : ok (f r) then some (t.set k (f r) h) else none

def insert? (t : Table κ ρ ok) (k : κ) (r : ρ) : Option (Table κ ρ ok) :=
  if h : ok r then
    if fresh : t.get? k = none then some (t.add k r fresh h) else none
  else none

/-- Insert a row, or update the one that holds the key. The proposed row is
checked first, as PostgreSQL does before it looks for the conflict. -/
def upsert? (t : Table κ ρ ok) (k : κ) (r : ρ) (f : ρ → ρ) : Option (Table κ ρ ok) :=
  if h : ok r then
    if fresh : t.get? k = none then some (t.add k r fresh h) else t.update? k f
  else none

theorem update?_eq_some {t s : Table κ ρ ok} {k : κ} {f : ρ → ρ}
    (done : t.update? k f = some s) :
    (t.get? k = none ∧ s = t) ∨
      ∃ r, ∃ h : ok (f r), t.get? k = some r ∧ s = t.set k (f r) h := by
  unfold update? at done
  split at done
  · next none => exact Or.inl ⟨none, (Option.some.inj done).symm⟩
  · next r got =>
    split at done
    · next h => exact Or.inr ⟨r, h, got, (Option.some.inj done).symm⟩
    · cases done

/-- The table of some rows, without those that do not fit. -/
def ofRows (rows : List (κ × ρ)) : Table κ ρ ok :=
  rows.foldl (fun t e => (t.insert? e.1 e.2).getD t) empty

theorem exists_update? {t : Table κ ρ ok} {k : κ} {f : ρ → ρ}
    (keeps : ∀ r, t.get? k = some r → ok (f r)) : ∃ s, t.update? k f = some s := by
  unfold update?
  cases got : t.get? k with
  | none => exact ⟨t, rfl⟩
  | some r =>
    simp only [dif_pos (keeps r got)]
    exact ⟨_, rfl⟩

theorem insert?_eq_some {t s : Table κ ρ ok} {k : κ} {r : ρ} (done : t.insert? k r = some s) :
    ∃ (fresh : t.get? k = none) (h : ok r), s = t.add k r fresh h := by
  unfold insert? at done
  split at done
  · next h =>
    split at done
    · next fresh => exact ⟨fresh, h, (Option.some.inj done).symm⟩
    · cases done
  · cases done

theorem get?_update? {t s : Table κ ρ ok} {k : κ} {f : ρ → ρ} (done : t.update? k f = some s)
    (j : κ) : s.get? j = if j = k then (t.get? k).map f else t.get? j := by
  rcases update?_eq_some done with ⟨none, rfl⟩ | ⟨r, h, got, rfl⟩
  · by_cases same : j = k
    · subst same
      simp [none]
    · simp [same]
  · simp [get?_set, got]

theorem map_get?_update? {β : Type*} {g : ρ → β} {t s : Table κ ρ ok} {k : κ} {f : ρ → ρ}
    (done : t.update? k f = some s) (kept : ∀ r, g (f r) = g r) (j : κ) :
    (s.get? j).map g = (t.get? j).map g := by
  rw [get?_update? done]
  split
  · next here =>
    rw [here]
    cases t.get? k with
    | none => rfl
    | some r => exact congrArg some (kept r)
  · rfl

theorem keys_update? {t s : Table κ ρ ok} {k : κ} {f : ρ → ρ} (done : t.update? k f = some s) :
    s.rows.map Prod.fst = t.rows.map Prod.fst := by
  rcases update?_eq_some done with ⟨_, rfl⟩ | ⟨r, h, _, rfl⟩
  · rfl
  · exact keys_set t k (f r) h

theorem get?_upsert? {t s : Table κ ρ ok} {k : κ} {r : ρ} {f : ρ → ρ}
    (done : t.upsert? k r f = some s) (j : κ) :
    s.get? j = if j = k then some ((t.get? k).elim r f) else t.get? j := by
  unfold upsert? at done
  split at done
  · split at done
    · next fresh =>
      obtain rfl := Option.some.inj done
      simp [get?_add, fresh]
    · next used =>
      rw [get?_update? done]
      cases got : t.get? k with
      | none => exact absurd got used
      | some a => simp
  · cases done

def rowUpdate? (ok : ρ → Prop) [DecidablePred ok] (f : ρ → ρ) : Option ρ → Option (Option ρ)
  | none => some none
  | some r => if ok (f r) then some (some (f r)) else none

theorem rowUpdate?_eq_some {f : ρ → ρ} {row row' : Option ρ}
    (done : rowUpdate? ok f row = some row') : row' = row.map f := by
  cases row with
  | none => exact (Option.some.inj done).symm
  | some r =>
    rw [rowUpdate?] at done
    split at done
    · exact (Option.some.inj done).symm
    · cases done

def rowUpsert? (ok : ρ → Prop) [DecidablePred ok] (r : ρ) (f : ρ → ρ) (row : Option ρ) :
    Option (Option ρ) :=
  if ok r then
    match row with
    | none => some (some r)
    | some a => rowUpdate? ok f (some a)
  else none

theorem update?_row (t : Table κ ρ ok) (k : κ) (f : ρ → ρ) :
    (t.update? k f).map get? =
      (rowUpdate? ok f (t.get? k)).map (Function.update t.get? k) := by
  cases done : t.update? k f with
  | none =>
    unfold update? at done
    split at done
    · cases done
    · next r got =>
      split at done
      · cases done
      · next fails => simp [rowUpdate?, got, fails]
  | some s =>
    have after : s.get? = Function.update t.get? k ((t.get? k).map f) := by
      funext j
      by_cases here : j = k
      · subst here
        simp [get?_update? done]
      · simp [get?_update? done, here]
    rcases update?_eq_some done with ⟨absent, rfl⟩ | ⟨r, h, got, rfl⟩
    · have unchanged : Function.update s.get? k none = s.get? := by
        rw [← absent, Function.update_eq_self]
      simp only [rowUpdate?, absent, Option.map_some, unchanged]
    · simp only [Option.map_some, after, got]
      simp [rowUpdate?, h]

theorem upsert?_row (t : Table κ ρ ok) (k : κ) (r : ρ) (f : ρ → ρ) :
    (t.upsert? k r f).map get? =
      (rowUpsert? ok r f (t.get? k)).map (Function.update t.get? k) := by
  unfold upsert? rowUpsert?
  by_cases h : ok r
  · by_cases fresh : t.get? k = none
    · have after : (t.add k r fresh h).get? = Function.update t.get? k (some r) := by
        funext j
        by_cases here : j = k
        · subst here
          simp [get?_add]
        · simp [get?_add, here]
      simp [h, fresh, after]
    · obtain ⟨a, got⟩ := Option.ne_none_iff_exists'.mp fresh
      simp [h, got, update?_row]
  · simp [h]

section Sum

variable {M : Type w} [AddCommGroup M]

theorem sum_update? {t s : Table κ ρ ok} {k : κ} {f : ρ → ρ} (done : t.update? k f = some s)
    (g : κ → ρ → M) : s.sum g = t.sum g + (t.get? k).elim 0 (fun r => g k (f r) - g k r) := by
  rcases update?_eq_some done with ⟨none, rfl⟩ | ⟨r, h, got, rfl⟩
  · simp [none]
  · rw [sum_set got, got]
    simp only [Option.elim_some]
    abel

theorem sum_upsert? {t s : Table κ ρ ok} {k : κ} {r : ρ} {f : ρ → ρ}
    (done : t.upsert? k r f = some s) (g : κ → ρ → M) :
    s.sum g = t.sum g + (t.get? k).elim (g k r) (fun a => g k (f a) - g k a) := by
  unfold upsert? at done
  split at done
  · split at done
    · next fresh =>
      obtain rfl := Option.some.inj done
      simp [sum_add, fresh]
    · next used =>
      rw [sum_update? done]
      cases got : t.get? k with
      | none => exact absurd got used
      | some a => simp
  · cases done

end Sum

end Table

end PredictionMarket.Library
