/-
# Texts with a separator before each part

`prefixed sep ts` writes the separator and then the part, for each of the parts `ts`. Parts
without the separator are found again when their number is known. As soon as one of two or
more parts has the separator in it, other parts give the same text.
-/
import Mathlib.Data.List.Basic

namespace DeepStream

variable {α : Type*} {sep : α}

def prefixed (sep : α) (ts : List (List α)) : List α := ts.flatMap fun t => sep :: t

@[simp] theorem prefixed_nil : prefixed sep [] = [] := rfl

@[simp] theorem prefixed_cons (t : List α) (ts : List (List α)) : prefixed sep (t :: ts) = sep :: t ++ prefixed sep ts := rfl

theorem prefixed_append (ts us : List (List α)) : prefixed sep (ts ++ us) = prefixed sep ts ++ prefixed sep us :=
  List.flatMap_append

/-- Two separators in a list: at the same place, or one of them before the other. -/
theorem append_sep_cases {front back front' back' : List α} (h : front ++ sep :: back = front' ++ sep :: back') :
    (front = front' ∧ back = back') ∨ (∃ u, front = front' ++ sep :: u ∧ back' = u ++ sep :: back) ∨
      ∃ u, front' = front ++ sep :: u ∧ back = u ++ sep :: back' := by
  rcases List.append_eq_append_iff.mp h with ⟨rest, hfront, hback⟩ | ⟨rest, hfront, hback⟩
  · cases rest with
    | nil =>
      cases hback
      exact .inl ⟨by rw [hfront, List.append_nil], rfl⟩
    | cons b rest =>
      cases hback
      exact .inr (.inr ⟨rest, hfront, rfl⟩)
  · cases rest with
    | nil =>
      cases hback
      exact .inl ⟨by rw [hfront, List.append_nil], rfl⟩
    | cons b rest =>
      cases hback
      exact .inr (.inl ⟨rest, hfront, rfl⟩)

/-- A first part without the separator is found again. -/
theorem append_sep_inj {front back front' back' : List α} (hfront : sep ∉ front) (hfront' : sep ∉ front')
    (h : front ++ sep :: back = front' ++ sep :: back') : front = front' ∧ back = back' := by
  rcases append_sep_cases h with h | ⟨u, rfl, -⟩ | ⟨u, rfl, -⟩
  · exact h
  · exact absurd (List.mem_append_right _ List.mem_cons_self) hfront
  · exact absurd (List.mem_append_right _ List.mem_cons_self) hfront'

variable [DecidableEq α]

theorem count_append_sep (a b : List α) : (a ++ sep :: b).count sep = a.count sep + b.count sep + 1 := by
  rw [List.count_append, List.count_cons_self, Nat.add_assoc]

theorem length_le_count_prefixed (ts : List (List α)) : ts.length ≤ (prefixed sep ts).count sep := by
  induction ts with
  | nil => exact Nat.le_refl 0
  | cons t ts ih =>
    rw [prefixed_cons, List.count_append, List.count_cons_self, List.length_cons]
    omega

theorem count_prefixed_eq_length_iff {ts : List (List α)} :
    (prefixed sep ts).count sep = ts.length ↔ ∀ t ∈ ts, sep ∉ t := by
  induction ts with
  | nil => exact iff_of_true rfl fun t ht => absurd ht List.not_mem_nil
  | cons t ts ih =>
    have hle : ts.length ≤ (prefixed sep ts).count sep := length_le_count_prefixed ts
    rw [List.forall_mem_cons, ← ih, ← List.count_eq_zero, prefixed_cons, List.count_append, List.count_cons_self,
      List.length_cons]
    omega

/-- As many parts, where those of one side do not have the separator. -/
theorem prefixed_inj {ts us : List (List α)} (hlen : ts.length = us.length) (hts : ∀ t ∈ ts, sep ∉ t)
    (h : prefixed sep ts = prefixed sep us) : ts = us := by
  have hus : ∀ u ∈ us, sep ∉ u := by
    rw [← count_prefixed_eq_length_iff, ← h, ← hlen]
    exact count_prefixed_eq_length_iff.mpr hts
  induction ts generalizing us with
  | nil => exact (List.length_eq_zero_iff.mp hlen.symm).symm
  | cons t ts ih =>
    cases us with
    | nil => cases hlen
    | cons u us =>
      obtain ⟨ht, hts⟩ := List.forall_mem_cons.mp hts
      obtain ⟨hu, husRest⟩ := List.forall_mem_cons.mp hus
      have hrests : ts.length = us.length := Nat.succ.inj hlen
      have h : t ++ prefixed sep ts = u ++ prefixed sep us := List.tail_eq_of_cons_eq h
      cases ts with
      | nil =>
        cases List.length_eq_zero_iff.mp hrests.symm
        rw [prefixed_nil, List.append_nil, List.append_nil] at h
        rw [h]
      | cons t' ts =>
        cases us with
        | nil => cases hrests
        | cons u' us =>
          obtain ⟨rfl, hrest⟩ := append_sep_inj ht hu h
          rw [ih hrests hts (congrArg (sep :: ·) hrest) husRest]

theorem prefixed_inj_of_notMem {ts us : List (List α)} (hts : ∀ t ∈ ts, sep ∉ t) (hus : ∀ u ∈ us, sep ∉ u)
    (h : prefixed sep ts = prefixed sep us) : ts = us := by
  refine prefixed_inj ?_ hts h
  rw [← count_prefixed_eq_length_iff.mpr hts, ← count_prefixed_eq_length_iff.mpr hus, h]

/-- Where a part has the separator in it, the next one or the one before can take a piece of it. -/
theorem exists_prefixed_ne {ts : List (List α)} (hlen : 2 ≤ ts.length) (h : ∃ t ∈ ts, sep ∈ t) :
    ∃ us : List (List α), us.length = ts.length ∧ us ≠ ts ∧ prefixed sep us = prefixed sep ts := by
  induction ts with
  | nil => cases hlen
  | cons t ts ih =>
    obtain _ | ⟨u, ts⟩ := ts
    · exact absurd hlen (by simp)
    by_cases ht : sep ∈ t
    · obtain ⟨a, b, rfl, -⟩ := List.eq_append_cons_of_mem ht
      refine ⟨a :: (b ++ sep :: u) :: ts, rfl, ?_, by simp⟩
      intro heq
      exact absurd (congrArg List.length (List.cons.inj heq).1) (by simp)
    by_cases hu : sep ∈ u
    · obtain ⟨a, b, rfl, -⟩ := List.eq_append_cons_of_mem hu
      refine ⟨(t ++ sep :: a) :: b :: ts, rfl, ?_, by simp⟩
      intro heq
      exact absurd (congrArg List.length (List.cons.inj heq).1) (by simp)
    · obtain _ | ⟨v, ts⟩ := ts
      · obtain ⟨w, hw, hsep⟩ := h
        simp only [List.mem_cons, List.not_mem_nil, or_false] at hw
        rcases hw with rfl | rfl
        · exact absurd hsep ht
        · exact absurd hsep hu
      have hrest : ∃ w ∈ u :: v :: ts, sep ∈ w := by
        obtain ⟨w, hw, hsep⟩ := h
        rcases List.mem_cons.mp hw with rfl | hw
        · exact absurd hsep ht
        · exact ⟨w, hw, hsep⟩
      obtain ⟨us, hus, hne, heq⟩ := ih (by simp) hrest
      refine ⟨t :: us, by rw [List.length_cons, hus]; rfl, fun h => hne (List.cons.inj h).2, ?_⟩
      rw [prefixed_cons, heq, prefixed_cons t]

/-- A text is so many parts exactly when it has enough separators. -/
theorem exists_prefixed_iff {n : ℕ} {l : List α} :
    (∃ ts : List (List α), ts.length = n + 1 ∧ sep :: l = prefixed sep ts) ↔ n ≤ l.count sep := by
  constructor
  · rintro ⟨ts, hlen, hl⟩
    have hcount := congrArg (List.count sep) hl
    have hle : ts.length ≤ (prefixed sep ts).count sep := length_le_count_prefixed ts
    rw [List.count_cons_self] at hcount
    omega
  · intro h
    induction n generalizing l with
    | zero => exact ⟨[l], rfl, by simp⟩
    | succ n ih =>
      obtain ⟨a, b, rfl, ha⟩ := List.eq_append_cons_of_mem (List.count_pos_iff.mp (Nat.lt_of_lt_of_le n.succ_pos h))
      rw [count_append_sep, List.count_eq_zero_of_not_mem ha] at h
      obtain ⟨ts, hlen, hts⟩ := ih (l := b) (by omega)
      exact ⟨a :: ts, by rw [List.length_cons, hlen], by rw [prefixed_cons, ← hts]; rfl⟩

end DeepStream
