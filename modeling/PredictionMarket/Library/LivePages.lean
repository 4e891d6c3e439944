/- PredictionMarket/Library/LivePages
   digest: What a reader sees who follows cursors from page to page while the rows change. -/

import PredictionMarket.Library.Keyset

set_option autoImplicit false
set_option relaxedAutoImplicit false

namespace PredictionMarket.Library

universe u v w x

/-- Read page after page, each from the cursor of the one before it, as the service
answers the first, the second and every later request. -/
inductive FollowsThrough {β : Type v} {γ : Type w} (serve : Nat → Option γ → Option (Page β γ)) :
    Nat → Option γ → List (List β) → Prop
  | last {i : Nat} {c : Option γ} {page : Page β γ} : serve i c = some page →
      page.hasMore = false → FollowsThrough serve i c [page.items]
  | next {i : Nat} {c : Option γ} {d : γ} {page : Page β γ} {pages : List (List β)} :
      serve i c = some page → page.hasMore = true → page.nextCursor = some d →
      FollowsThrough serve (i + 1) (some d) pages →
      FollowsThrough serve i c (page.items :: pages)

variable {α : Type u} {β : Type v} {γ : Type w} {κ : Type x} {limit : Nat} {cursor : α → γ}
  {view : α → β} {serve : Nat → Option γ → Option (Page β γ)}

private theorem Page.ofLookahead_next {rows : List α} {d : γ}
    (more : (Page.ofLookahead limit cursor view rows).hasMore = true)
    (next : (Page.ofLookahead limit cursor view rows).nextCursor = some d) :
    ∃ front a, rows.take limit = front ++ [a] ∧ rows = front ++ a :: rows.drop limit ∧
      cursor a = d := by
  simp only [Page.ofLookahead, decide_eq_true_eq] at more next
  rw [if_pos more] at next
  obtain ⟨a, last, rfl⟩ := Option.map_eq_some_iff.mp next
  obtain ⟨front, split⟩ := List.getLast?_eq_some_iff.mp last
  refine ⟨front, a, split, ?_, rfl⟩
  conv_lhs => rw [← List.take_append_drop limit rows, split]
  rw [List.append_assoc, List.singleton_append]

theorem Page.ofLookahead_map {α' : Type*} {cursor' : α' → γ} {view' : α' → β} (f : α → α')
    (rows : List α) : Page.ofLookahead limit cursor' view' (rows.map f) =
      Page.ofLookahead limit (fun a => cursor' (f a)) (fun a => view' (f a)) rows := by
  simp only [Page.ofLookahead, List.length_map, ← List.map_take, List.map_map, List.getLast?_map,
    Option.map_map, Function.comp_def]

section Settled

variable {rows : List α} {selects : γ → α → Bool}

/-- Where no cursor ever finds other rows than at first, the reader does not notice
the time between the pages. -/
theorem followsThrough_iff (serves : Serves limit cursor view rows selects (serve 0))
    (same : ∀ i, ∀ a ∈ rows, serve i (some (cursor a)) = serve 0 (some (cursor a)))
    {read : List (List β)} :
    FollowsThrough serve 0 none read ↔ Follows (serve 0) none read := by
  have issues : ∀ {c : Option γ} {page : Page β γ} {d : γ}, Issued cursor rows c →
      serve 0 c = some page → page.hasMore = true → page.nextCursor = some d →
      ∃ a ∈ rows, cursor a = d := by
    intro c page d issued answer more next
    obtain rfl := Option.some.inj ((serves.answer issued).symm.trans answer)
    obtain ⟨front, a, _, split, named⟩ := Page.ofLookahead_next more next
    have listed : a ∈ rowsFrom rows selects c :=
      split ▸ List.mem_append_right _ List.mem_cons_self
    exact ⟨a, mem_rowsFrom listed, named⟩
  have start : Issued cursor rows none := fun d equal => by cases equal
  constructor
  · have forward : ∀ {i : Nat} {c : Option γ}, FollowsThrough serve i c read →
        Issued cursor rows c → serve i c = serve 0 c → Follows (serve 0) c read := by
      intro i c follows
      induction follows with
      | last answer done => exact fun _ now => .last (now ▸ answer) done
      | next answer more next _ ih =>
        intro issued now
        rw [now] at answer
        obtain ⟨a, stored, rfl⟩ := issues issued answer more next
        exact .next answer more next (ih (issued_cursor cursor stored) (same _ a stored))
    exact fun follows => forward follows start rfl
  · have backward : ∀ {c : Option γ}, Follows (serve 0) c read → Issued cursor rows c →
        ∀ i, serve i c = serve 0 c → FollowsThrough serve i c read := by
      intro c follows
      induction follows with
      | last answer done => exact fun _ i now => .last (now.trans answer) done
      | next answer more next _ ih =>
        intro issued i now
        obtain ⟨a, stored, rfl⟩ := issues issued answer more next
        exact .next (now.trans answer) more next
          (ih (issued_cursor cursor stored) (i + 1) (same _ a stored))
    exact fun follows => backward follows start 0 rfl

end Settled

section Changing

variable {rows : Nat → List α} {view : Nat → α → β} {key : α → κ} {selects : γ → κ → Bool}
  {name : β → κ} {before : κ → κ → Prop} [DecidableRel before]

def rowsAt (rows : Nat → List α) (key : α → κ) (selects : γ → κ → Bool) (i : Nat)
    (c : Option γ) : List α :=
  rowsFrom (rows i) (fun d a => selects d (key a)) c

def IssuedEver (cursor : α → γ) (rows : Nat → List α) (c : Option γ) : Prop :=
  ∀ d, c = some d → ∃ j, ∃ a ∈ rows j, cursor a = d

/-- A service whose pages show the rows there are at the request as they are then, listed
by a key from which the cursors go on. -/
structure ServesLive (limit : Nat) (cursor : α → γ) (view : Nat → α → β) (rows : Nat → List α)
    (key : α → κ) (selects : γ → κ → Bool) (before : κ → κ → Prop) [DecidableRel before]
    (serve : Nat → Option γ → Option (Page β γ)) : Prop where
  answer : ∀ i c, IssuedEver cursor rows c →
    serve i c = some (Page.ofLookahead limit cursor (view i) (rowsAt rows key selects i c))
  sorted : ∀ i, ((rows i).map key).Pairwise before
  resumes : ∀ i, ∀ a ∈ rows i, ∀ k, selects (cursor a) k = decide (before (key a) k)

def Allows (selects : γ → κ → Bool) (c : Option γ) (k : κ) : Prop :=
  ∀ d, c = some d → selects d k = true

private theorem mem_rowsAt {i : Nat} {c : Option γ} {a : α} :
    a ∈ rowsAt rows key selects i c ↔ a ∈ rows i ∧ Allows selects c (key a) := by
  cases c with
  | none => simp [rowsAt, rowsFrom, Allows]
  | some d => simp [rowsAt, rowsFrom, Allows]

private theorem ServesLive.sorted_from
    (serves : ServesLive limit cursor view rows key selects before serve) (i : Nat)
    (c : Option γ) : ((rowsAt rows key selects i c).map key).Pairwise before := by
  cases c with
  | none => exact serves.sorted i
  | some d => exact (serves.sorted i).sublist (List.filter_sublist.map key)

omit [DecidableRel before] in
private theorem page_end {list front : List α} {a : α} {limit : Nat}
    (sorted : (list.map key).Pairwise before) (page : list.take limit = front ++ [a])
    (split : list = front ++ a :: list.drop limit) :
    (∀ b ∈ list.take limit, b = a ∨ before (key b) (key a)) ∧
      ∀ b ∈ list.drop limit, before (key a) (key b) := by
  have order := List.pairwise_map.mp sorted
  rw [split] at order
  obtain ⟨_, tail, across⟩ := List.pairwise_append.mp order
  constructor
  · intro b member
    rw [page, List.mem_append, List.mem_singleton] at member
    rcases member with early | last
    · exact Or.inr (across b early a List.mem_cons_self)
    · exact Or.inl last
  · exact (List.pairwise_cons.mp tail).1

/-- Whatever becomes of the rows between two pages: nothing is read twice, as the keys
come in order, and a key that is listed at every request is read. -/
theorem ServesLive.reads [IsTrans κ before]
    (serves : ServesLive limit cursor view rows key selects before serve)
    (named : ∀ i a, name (view i a) = key a) {i : Nat} {c : Option γ} {pages : List (List β)}
    (follows : FollowsThrough serve i c pages) (issued : IssuedEver cursor rows c) :
    (∀ y ∈ pages.flatten, Allows selects c (name y)) ∧
      (pages.flatten.map name).Pairwise before ∧
      ∀ k, Allows selects c k → (∀ j < pages.length, k ∈ (rows (i + j)).map key) →
        k ∈ pages.flatten.map name := by
  have shown : ∀ i (l : List α), (l.map (view i)).map name = l.map key := by
    intro i l
    rw [List.map_map]
    exact List.map_congr_left (fun a _ => named i a)
  induction follows with
  | @last i c page answer done =>
    obtain rfl := Option.some.inj ((serves.answer i c issued).symm.trans answer)
    simp only [Page.ofLookahead, decide_eq_false_iff_not, not_lt] at done
    simp only [Page.ofLookahead, List.take_of_length_le done, List.flatten_singleton, shown]
    refine ⟨?_, serves.sorted_from i c, fun k allowed listed => ?_⟩
    · simp only [List.forall_mem_map, named]
      exact fun a member => (mem_rowsAt.mp member).2
    · obtain ⟨a, stored, rfl⟩ := List.mem_map.mp (listed 0 (by simp))
      exact List.mem_map_of_mem (mem_rowsAt.mpr ⟨stored, allowed⟩)
  | @next i c d page pages answer more next _ ih =>
    obtain rfl := Option.some.inj ((serves.answer i c issued).symm.trans answer)
    obtain ⟨front, a, end_, split, rfl⟩ := Page.ofLookahead_next more next
    have sorted := serves.sorted_from i c
    have inside : ∀ b ∈ rowsAt rows key selects i c, b ∈ rows i ∧ Allows selects c (key b) :=
      fun b => mem_rowsAt.mp
    have kept : ∀ b, b ∈ rows i → Allows selects c (key b) → b ∈ rowsAt rows key selects i c :=
      fun b stored allowed => mem_rowsAt.mpr ⟨stored, allowed⟩
    generalize rowsAt rows key selects i c = list at *
    obtain ⟨early, late⟩ := page_end sorted end_ split
    have last : a ∈ list := split ▸ List.mem_append_right _ List.mem_cons_self
    have resumes := serves.resumes i a (inside a last).1
    obtain ⟨later, ordered, complete⟩ := ih (fun _ equal =>
      ⟨i, a, (inside a last).1, Option.some.inj equal⟩)
    have behind : ∀ y ∈ pages.flatten, before (key a) (name y) := by
      intro y member
      have selected := later y member (cursor a) rfl
      rwa [resumes, decide_eq_true_iff] at selected
    simp only [Page.ofLookahead, List.flatten_cons, List.map_append, shown]
    refine ⟨fun y member => ?_, ?_, fun k allowed listed => ?_⟩
    · rcases List.mem_append.mp member with here | after
      · obtain ⟨b, taken, rfl⟩ := List.mem_map.mp here
        rw [named]
        exact (inside b (List.mem_of_mem_take taken)).2
      · intro e equal
        obtain ⟨j, origin, stored, rfl⟩ := issued e equal
        have first := (inside a last).2 (cursor origin) equal
        rw [serves.resumes j origin stored, decide_eq_true_iff] at first ⊢
        exact trans_of before first (behind y after)
    · refine List.pairwise_append.mpr ⟨sorted.sublist ((List.take_sublist limit list).map key),
        ordered, ?_⟩
      intro p here q after
      obtain ⟨b, taken, rfl⟩ := List.mem_map.mp here
      obtain ⟨y, member, rfl⟩ := List.mem_map.mp after
      rcases early b taken with rfl | ahead
      · exact behind y member
      · exact trans_of before ahead (behind y member)
    · obtain ⟨b, stored, rfl⟩ := List.mem_map.mp (listed 0 (Nat.succ_pos _))
      have whole := kept b stored allowed
      rw [← List.take_append_drop limit list, List.mem_append] at whole
      rcases whole with taken | dropped
      · exact List.mem_append_left _ (List.mem_map_of_mem taken)
      · refine List.mem_append_right _ (complete (key b) ?_ ?_)
        · intro e equal
          rw [← Option.some.inj equal, resumes, decide_eq_true_iff]
          exact late b dropped
        · intro j below
          have row := listed (j + 1) (Nat.succ_lt_succ below)
          rwa [show i + (j + 1) = i + 1 + j by omega] at row

theorem ServesLive.current (serves : ServesLive limit cursor view rows key selects before serve)
    {i : Nat} {c : Option γ} {pages : List (List β)} (follows : FollowsThrough serve i c pages)
    (issued : IssuedEver cursor rows c) {j : Nat} {page : List β} (at_ : pages[j]? = some page) :
    page.length ≤ limit ∧ ∀ y ∈ page, ∃ a ∈ rows (i + j), view (i + j) a = y := by
  have fits : ∀ i c, (Page.ofLookahead limit cursor (view i)
      (rowsAt rows key selects i c)).items.length ≤ limit ∧
        ∀ y ∈ (Page.ofLookahead limit cursor (view i) (rowsAt rows key selects i c)).items,
          ∃ a ∈ rows i, view i a = y := by
    intro i c
    simp only [Page.ofLookahead, List.length_map, List.forall_mem_map]
    exact ⟨List.length_take_le _ _,
      fun a taken => ⟨a, (mem_rowsAt.mp (List.mem_of_mem_take taken)).1, rfl⟩⟩
  induction follows generalizing j with
  | @last i c first answer _ =>
    obtain rfl := Option.some.inj ((serves.answer i c issued).symm.trans answer)
    cases j with
    | zero =>
      obtain rfl := Option.some.inj at_
      exact fits i c
    | succ j => cases at_
  | @next i c d first pages answer more next _ ih =>
    obtain rfl := Option.some.inj ((serves.answer i c issued).symm.trans answer)
    obtain ⟨front, a, _, split, rfl⟩ := Page.ofLookahead_next more next
    have stored : a ∈ rows i := by
      have listed : a ∈ rowsAt rows key selects i c :=
        split ▸ List.mem_append_right _ List.mem_cons_self
      exact (mem_rowsAt.mp listed).1
    cases j with
    | zero =>
      obtain rfl := Option.some.inj at_
      exact fits i c
    | succ j =>
      rw [show i + (j + 1) = i + 1 + j by omega]
      exact ih (fun _ equal => ⟨i, a, stored, Option.some.inj equal⟩) at_

theorem ServesLive.full (serves : ServesLive limit cursor view rows key selects before serve)
    {i : Nat} {c : Option γ} {pages : List (List β)} (follows : FollowsThrough serve i c pages)
    (issued : IssuedEver cursor rows c) : ∀ page ∈ pages.dropLast, page.length = limit := by
  induction follows with
  | last => simp
  | @next i c d first pages answer more next later ih =>
    obtain rfl := Option.some.inj ((serves.answer i c issued).symm.trans answer)
    obtain ⟨front, a, _, split, rfl⟩ := Page.ofLookahead_next more next
    have listed : a ∈ rowsAt rows key selects i c :=
      split ▸ List.mem_append_right _ List.mem_cons_self
    have rest := ih (fun _ equal => ⟨i, a, (mem_rowsAt.mp listed).1, Option.some.inj equal⟩)
    cases pages with
    | nil => cases later
    | cons second pages =>
      intro page member
      rw [List.dropLast_cons_cons, List.mem_cons] at member
      rcases member with rfl | behind
      · simp only [Page.ofLookahead, decide_eq_true_eq] at more
        simp only [Page.ofLookahead, List.length_map, List.length_take]
        omega
      · exact rest page behind

end Changing

end PredictionMarket.Library
