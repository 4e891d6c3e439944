/- PredictionMarket/Library/Precedence
   digest: Who comes before whom in a list, and what keeps it so. -/

import Mathlib.Data.List.Nodup
import Mathlib.Data.List.Sublists

set_option autoImplicit false
set_option relaxedAutoImplicit false

namespace PredictionMarket.Library

universe u v

variable {α : Type u} {β : Type v}

/-- `a` stands somewhere before `b`. -/
def Precedes (l : List α) (a b : α) : Prop := [a, b].Sublist l

namespace Precedes

variable {l m : List α} {a b : α}

theorem mono (before : Precedes l a b) (sub : l.Sublist m) : Precedes m a b :=
  List.Sublist.trans before sub

theorem map (before : Precedes l a b) (f : α → β) : Precedes (l.map f) (f a) (f b) :=
  List.Sublist.map f before

theorem filter {keep : α → Bool} (before : Precedes l a b) (first : keep a = true)
    (second : keep b = true) : Precedes (l.filter keep) a b := by
  have kept := List.Sublist.filter keep before
  rwa [List.filter_cons_of_pos first, List.filter_cons_of_pos second] at kept

theorem left_mem (before : Precedes l a b) : a ∈ l := before.subset (by simp)

theorem right_mem (before : Precedes l a b) : b ∈ l := before.subset (by simp)

theorem append (first : a ∈ l) (second : b ∈ m) : Precedes (l ++ m) a b :=
  (List.singleton_sublist.mpr first).append (List.singleton_sublist.mpr second)

theorem cons_iff {c : α} : Precedes (c :: l) a b ↔ c = a ∧ b ∈ l ∨ Precedes l a b := by
  constructor
  · intro before
    cases before with
    | cons _ later => exact Or.inr later
    | cons_cons _ rest => exact Or.inl ⟨rfl, List.singleton_sublist.mp rest⟩
  · rintro (⟨rfl, member⟩ | later)
    · exact (List.singleton_sublist.mpr member).cons_cons c
    · exact later.cons c

theorem asymm (before : Precedes l a b) (distinct : l.Nodup) : ¬ Precedes l b a := by
  induction l with
  | nil => cases before
  | cons c l ih =>
    obtain ⟨absent, distinct⟩ := List.nodup_cons.mp distinct
    rw [cons_iff] at before ⊢
    rintro (⟨rfl, member⟩ | back)
    · obtain ⟨rfl, _⟩ | later := before
      · exact absent member
      · exact absent later.right_mem
    · obtain ⟨rfl, _⟩ | later := before
      · exact absent back.right_mem
      · exact ih later distinct back

theorem total (first : a ∈ l) (second : b ∈ l) (other : a ≠ b) :
    Precedes l a b ∨ Precedes l b a := by
  induction l with
  | nil => cases first
  | cons c l ih =>
    rw [cons_iff, cons_iff]
    obtain rfl | early := List.mem_cons.mp first
    · exact Or.inl (Or.inl ⟨rfl, (List.mem_cons.mp second).resolve_left (Ne.symm other)⟩)
    · obtain rfl | late := List.mem_cons.mp second
      · exact Or.inr (Or.inl ⟨rfl, early⟩)
      · obtain before | after := ih early late
        · exact Or.inl (Or.inr before)
        · exact Or.inr (Or.inr after)

theorem mem_front {xs ys : List α} (before : Precedes (xs ++ b :: ys) a b)
    (distinct : (xs ++ b :: ys).Nodup) : a ∈ xs := by
  obtain early | late := List.mem_append.mp before.left_mem
  · exact early
  · obtain rfl | behind := List.mem_cons.mp late
    · exact absurd before (before.asymm distinct)
    · have after : Precedes (b :: ys) b a := cons_iff.mpr (Or.inl ⟨rfl, behind⟩)
      exact absurd (after.mono (List.sublist_append_right xs (b :: ys))) (before.asymm distinct)

end Precedes

end PredictionMarket.Library
