/-
# The pieces of a list between separators

`pieces sep l` is what a loop reads that takes all up to the next separator until nothing
is left: every piece but the last has a separator behind it, and the last one may have
one. Behind a last separator there is no empty piece.
-/
import Mathlib.Data.List.Basic

namespace DeepStream

variable {α : Type*} [DecidableEq α]

def pieces (sep : α) : List α → List (List α)
  | [] => []
  | c :: l =>
    if c = sep then [] :: pieces sep l
    else
      match pieces sep l with
      | [] => [[c]]
      | p :: ps => (c :: p) :: ps

/-- Every piece with a separator behind it. -/
def terminated (sep : α) (ps : List (List α)) : List α := ps.flatMap (· ++ [sep])

/-- `l` are the pieces `ps`. Where there is no separator behind the last one, it is not empty. -/
def IsPieces (sep : α) (l : List α) (ps : List (List α)) : Prop :=
  (∀ p ∈ ps, sep ∉ p) ∧
    (l = terminated sep ps ∨ ∃ front last, last ≠ [] ∧ ps = front ++ [last] ∧ l = terminated sep front ++ last)

variable {sep : α}

theorem pieces_eq_nil_iff {l : List α} : pieces sep l = [] ↔ l = [] := by
  cases l with
  | nil => exact iff_of_true rfl rfl
  | cons c l =>
    refine iff_of_false ?_ (List.cons_ne_nil c l)
    rw [pieces]
    split
    · exact List.cons_ne_nil _ _
    · split <;> exact List.cons_ne_nil _ _

theorem pieces_append {p : List α} (hp : sep ∉ p) (l : List α) : pieces sep (p ++ sep :: l) = p :: pieces sep l := by
  induction p with
  | nil => exact if_pos rfl
  | cons c p ih =>
    rw [List.mem_cons, not_or] at hp
    rw [List.cons_append, pieces, if_neg (Ne.symm hp.1), ih hp.2]

theorem pieces_of_notMem {p : List α} (hp : sep ∉ p) (hne : p ≠ []) : pieces sep p = [p] := by
  induction p with
  | nil => exact absurd rfl hne
  | cons c p ih =>
    rw [List.mem_cons, not_or] at hp
    rw [pieces, if_neg (Ne.symm hp.1)]
    cases p with
    | nil => rfl
    | cons c' p => rw [ih hp.2 (List.cons_ne_nil _ _)]

theorem pieces_terminated_append {ps : List (List α)} (h : ∀ p ∈ ps, sep ∉ p) (l : List α) :
    pieces sep (terminated sep ps ++ l) = ps ++ pieces sep l := by
  induction ps with
  | nil => rfl
  | cons p ps ih =>
    obtain ⟨hp, hps⟩ := List.forall_mem_cons.mp h
    rw [terminated, List.flatMap_cons, List.append_assoc, List.append_assoc, List.singleton_append,
      pieces_append hp]
    exact congrArg (p :: ·) (ih hps)

theorem pieces_terminated {ps : List (List α)} (h : ∀ p ∈ ps, sep ∉ p) : pieces sep (terminated sep ps) = ps := by
  have hps := pieces_terminated_append h []
  rwa [List.append_nil, pieces, List.append_nil] at hps

/-- The front of a list up to the first separator. -/
theorem cases_sep (sep : α) (l : List α) : sep ∉ l ∨ ∃ p rest, sep ∉ p ∧ l = p ++ sep :: rest := by
  by_cases h : sep ∈ l
  · obtain ⟨p, rest, hl, hp⟩ := List.eq_append_cons_of_mem h
    exact .inr ⟨p, rest, hp, hl⟩
  · exact .inl h

theorem isPieces_pieces (sep : α) (l : List α) : IsPieces sep l (pieces sep l) := by
  induction hn : l.length using Nat.strongRecOn generalizing l with
  | ind n ih =>
    subst hn
    rcases cases_sep sep l with hl | ⟨p, rest, hp, rfl⟩
    · by_cases hnil : l = []
      · subst hnil
        exact ⟨fun p hp => absurd hp List.not_mem_nil, .inl rfl⟩
      · rw [pieces_of_notMem hl hnil]
        exact ⟨by simpa using hl, .inr ⟨[], l, hnil, rfl, rfl⟩⟩
    · rw [pieces_append hp]
      obtain ⟨hps, hrest⟩ := ih rest.length (by simp only [List.length_append, List.length_cons]; omega) rest rfl
      refine ⟨List.forall_mem_cons.mpr ⟨hp, hps⟩, ?_⟩
      rcases hrest with hrest | ⟨front, last, hlast, hfront, hrest⟩
      · refine .inl ?_
        rw [terminated, List.flatMap_cons, List.append_assoc, List.singleton_append]
        exact congrArg (p ++ sep :: ·) hrest
      · refine .inr ⟨p :: front, last, hlast, by rw [hfront, List.cons_append], ?_⟩
        rw [terminated, List.flatMap_cons, List.append_assoc, List.append_assoc, List.singleton_append]
        exact congrArg (p ++ sep :: ·) hrest

theorem IsPieces.eq {l : List α} {ps : List (List α)} (h : IsPieces sep l ps) : pieces sep l = ps := by
  obtain ⟨hps, rfl | ⟨front, last, hlast, rfl, rfl⟩⟩ := h
  · exact pieces_terminated hps
  · have hfront := List.forall_mem_append.mp hps
    rw [pieces_terminated_append hfront.1, pieces_of_notMem (hfront.2 last (List.mem_singleton_self last)) hlast]

/-- The pieces of a list are one list of lists. -/
theorem pieces_eq_iff {l : List α} {ps : List (List α)} : pieces sep l = ps ↔ IsPieces sep l ps := by
  constructor
  · rintro rfl
    exact isPieces_pieces sep l
  · exact IsPieces.eq

end DeepStream
