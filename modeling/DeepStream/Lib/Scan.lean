/-
# Visiting a list cyclically until something holds

A loop that visits items from some position on, wrapping at the end, and that
stops once its state is ready: `cyclic l i n` are the `n` items from position
`i` on, and `scan f stop s l` visits the items of `l` in turn and stops after
the first one that leaves the state in `stop`. It returns the state and how
many items it visited.

A longer walk along the cycle is `turns l i n`, with no bound on `n`; in every
walk two items have had their turn equally often, or one of them once more.
-/
import Mathlib.Data.List.Rotate

namespace DeepStream

variable {α σ : Type*}

/-! ### Positions on a cycle -/

/-- The `n` items of `l` from position `i` on, cyclically. -/
def cyclic (l : List α) (i n : ℕ) : List α := (l.rotate i).take n

@[simp] theorem cyclic_zero (l : List α) (i : ℕ) : cyclic l i 0 = [] := rfl

theorem length_cyclic {l : List α} {i n : ℕ} (h : n ≤ l.length) : (cyclic l i n).length = n := by
  simp [cyclic, h]

/-- The next position, 0 after the last. -/
def next (len i : ℕ) : ℕ := if i + 1 = len then 0 else i + 1

theorem next_lt {len i : ℕ} (h : i < len) : next len i < len := by
  unfold next
  split <;> omega

theorem next_eq_mod {len i : ℕ} (h : i < len) : next len i = (i + 1) % len := by
  unfold next
  split
  · rename_i he
    rw [he, Nat.mod_self]
  · rw [Nat.mod_eq_of_lt (by omega)]

theorem cyclic_succ {l : List α} {i n : ℕ} (hi : i < l.length) (hn : n < l.length) :
    cyclic l i (n + 1) = l[i] :: cyclic l (next l.length i) n := by
  have hcons : l.rotate i = l[i] :: (l.drop (i + 1) ++ l.take i) := by
    rw [List.rotate_eq_drop_append_take hi.le, List.drop_eq_getElem_cons hi, List.cons_append]
  have hnext : l.rotate (next l.length i) = l.drop (i + 1) ++ l.take i ++ [l[i]] := by
    rw [next_eq_mod hi, List.rotate_mod, ← List.rotate_rotate, hcons, List.rotate_cons_succ,
      List.rotate_zero]
  have hlen : n ≤ (l.drop (i + 1) ++ l.take i).length := by simp; omega
  rw [cyclic, cyclic, hcons, hnext, List.take_succ_cons, List.take_append_of_le_length hlen]

theorem cyclic_perm (l : List α) (i : ℕ) : (cyclic l i l.length).Perm l := by
  rw [cyclic, List.take_of_length_le (by simp)]
  exact l.rotate_perm i

/-! ### Walking along the cycle -/

/-- `n` turns along the cycle of the items of `l`, from position `i` on. -/
def turns (l : List α) : ℕ → ℕ → List α
  | _, 0 => []
  | i, n + 1 => l[i]?.toList ++ turns l (next l.length i) n

theorem turns_succ {l : List α} {i : ℕ} (hi : i < l.length) (n : ℕ) :
    turns l i (n + 1) = l[i] :: turns l (next l.length i) n := by
  rw [turns, List.getElem?_eq_getElem hi]
  rfl

theorem length_turns {l : List α} : ∀ (n : ℕ) {i : ℕ}, i < l.length → (turns l i n).length = n
  | 0, _, _ => rfl
  | n + 1, i, hi => by rw [turns_succ hi, List.length_cons, length_turns n (next_lt hi)]

theorem turns_eq_cyclic {l : List α} : ∀ {n i : ℕ}, i < l.length → n ≤ l.length → turns l i n = cyclic l i n
  | 0, _, _, _ => rfl
  | n + 1, i, hi, hn => by
    rw [turns_succ hi, cyclic_succ hi (by omega), turns_eq_cyclic (next_lt hi) (by omega)]

/-- A walk goes on where it was interrupted. -/
theorem turns_add {l : List α} : ∀ (m : ℕ) {i : ℕ} (n : ℕ), i < l.length →
    turns l i (m + n) = turns l i m ++ turns l ((i + m) % l.length) n
  | 0, i, n, hi => by rw [Nat.zero_add, Nat.add_zero, Nat.mod_eq_of_lt hi, turns, List.nil_append]
  | m + 1, i, n, hi => by
    have hmod : (next l.length i + m) % l.length = (i + (m + 1)) % l.length := by
      rw [next_eq_mod hi, Nat.mod_add_mod, Nat.add_assoc, Nat.add_comm 1 m]
    rw [Nat.add_right_comm, turns_succ hi, turns_succ hi, List.cons_append, turns_add m n (next_lt hi), hmod]

/-- An item has its turn once in each round, and at most once in what is left. -/
theorem count_turns [DecidableEq α] {l : List α} (hnd : l.Nodup) {x : α} (hx : x ∈ l) : ∀ (n : ℕ) {i : ℕ},
    i < l.length → n / l.length ≤ (turns l i n).count x ∧ (turns l i n).count x ≤ n / l.length + 1 := by
  intro n
  induction n using Nat.strong_induction_on with
  | h n ih =>
    intro i hi
    have hpos : 0 < l.length := List.length_pos_of_mem hx
    by_cases hn : n < l.length
    · have hcyc : (turns l i n).Nodup := by
        rw [turns_eq_cyclic hi hn.le, cyclic]
        exact (List.nodup_rotate.mpr hnd).sublist (List.take_sublist _ _)
      rw [Nat.div_eq_of_lt hn]
      exact ⟨Nat.zero_le _, List.nodup_iff_count_le_one.mp hcyc x⟩
    · -- a whole round, in which every item has its turn once, and the rest
      obtain ⟨k, rfl⟩ := Nat.exists_eq_add_of_le (Nat.not_lt.mp hn)
      have hround : (turns l i l.length).count x = 1 := by
        rw [turns_eq_cyclic hi le_rfl, (cyclic_perm l i).count_eq, List.count_eq_one_of_mem hnd hx]
      have hrest := ih k (by omega) (Nat.mod_lt (i + l.length) hpos)
      rw [turns_add _ _ hi, List.count_append, hround, Nat.add_div_left _ hpos]
      omega

/-- Two items have had their turn equally often, or one of them once more. -/
theorem count_turns_le [DecidableEq α] {l : List α} (hnd : l.Nodup) {x y : α} (hx : x ∈ l) (hy : y ∈ l) (n : ℕ)
    {i : ℕ} (hi : i < l.length) : (turns l i n).count x ≤ (turns l i n).count y + 1 := by
  have hupper := (count_turns hnd hx n hi).2
  have hlower := (count_turns hnd hy n hi).1
  omega

/-! ### Visiting until the state is ready -/

/-- Visit the items of a list until the state satisfies `stop`: the state and
the number of items visited. -/
def scan (f : σ → α → σ) (stop : σ → Bool) : σ → List α → σ × ℕ
  | s, [] => (s, 0)
  | s, x :: l =>
    if stop (f s x) then (f s x, 1)
    else ((scan f stop (f s x) l).1, (scan f stop (f s x) l).2 + 1)

variable (f : σ → α → σ) (stop : σ → Bool)

theorem scan_cons_of_stop {s : σ} {x : α} (l : List α) (h : stop (f s x)) :
    scan f stop s (x :: l) = (f s x, 1) := if_pos h

theorem scan_cons_of_not_stop {s : σ} {x : α} (l : List α) (h : ¬ stop (f s x)) :
    scan f stop s (x :: l) = ((scan f stop (f s x) l).1, (scan f stop (f s x) l).2 + 1) := if_neg h

/-- The state is that of the items visited. -/
theorem scan_fst : ∀ (s : σ) (l : List α),
    (scan f stop s l).1 = (l.take (scan f stop s l).2).foldl f s
  | _, [] => rfl
  | s, x :: l => by
    unfold scan
    split
    · simp
    · rw [List.take_succ_cons, List.foldl_cons, ← scan_fst (f s x) l]

/-- A scan that does not end in `stop` has visited everything. -/
theorem scan_snd_of_not_stop : ∀ (s : σ) (l : List α), ¬ stop (scan f stop s l).1 →
    (scan f stop s l).2 = l.length
  | _, [], _ => rfl
  | s, x :: l, h => by
    unfold scan at h ⊢
    split at h
    · contradiction
    · rename_i hx
      rw [if_neg hx, List.length_cons, scan_snd_of_not_stop (f s x) l h]

theorem scan_append : ∀ (s : σ) {l : List α} (l' : List α), l ≠ [] →
    scan f stop s (l ++ l') =
      if stop (scan f stop s l).1 then scan f stop s l
      else ((scan f stop (scan f stop s l).1 l').1,
        (scan f stop s l).2 + (scan f stop (scan f stop s l).1 l').2)
  | s, [x], l', _ => by
    by_cases hx : stop (f s x) <;> simp [scan, hx, Nat.add_comm]
  | s, x :: y :: l, l', _ => by
    have ih := scan_append (f s x) l' (List.cons_ne_nil y l)
    rw [List.cons_append]
    by_cases hx : stop (f s x)
    · rw [scan_cons_of_stop f stop _ hx, scan_cons_of_stop f stop _ hx, if_pos hx]
    · rw [scan_cons_of_not_stop f stop _ hx, scan_cons_of_not_stop f stop _ hx, ih]
      by_cases hy : stop (scan f stop (f s x) (y :: l)).1
      · rw [if_pos hy, if_pos hy]
      · rw [if_neg hy, if_neg hy, Nat.add_right_comm]

/-- A scan whose state is ready exactly after `m` items visits `m` of them, or all
there are. `I v s` says of a state what the visits `v` have made of it. -/
theorem scan_spec {I : List α → σ → Prop} {m : ℕ} (hstop : ∀ v s, I v s → (stop s ↔ v.length = m)) :
    ∀ (l v : List α) (s : σ), I v s → v.length < m →
      (∀ v' s x, I v' s → v'.length < m → v' ++ [x] <+: v ++ l → I (v' ++ [x]) (f s x)) →
      (scan f stop s l).2 = min l.length (m - v.length) ∧
        I (v ++ l.take (scan f stop s l).2) (scan f stop s l).1
  | [], v, s, h, _, _ => ⟨(Nat.zero_min _).symm, by rwa [List.take_nil, List.append_nil]⟩
  | x :: l, v, s, h, hlt, hstep => by
    have hx : I (v ++ [x]) (f s x) := hstep v s x h hlt ⟨l, by simp⟩
    have hlen : (v ++ [x]).length = v.length + 1 := by simp
    by_cases hr : stop (f s x)
    · have hm := (hstop _ _ hx).mp hr
      rw [scan_cons_of_stop f stop l hr, List.length_cons]
      exact ⟨by omega, hx⟩
    · have hm : v.length + 1 ≠ m := fun he => hr ((hstop _ _ hx).mpr (hlen.trans he))
      obtain ⟨hcount, hI⟩ := scan_spec hstop l (v ++ [x]) (f s x) hx (by omega)
        (fun v' s y h' hlt' hpre => hstep v' s y h' hlt' (by simpa using hpre))
      rw [scan_cons_of_not_stop f stop l hr, List.length_cons]
      refine ⟨by dsimp only; omega, ?_⟩
      rwa [List.append_assoc, List.singleton_append] at hI

end DeepStream
