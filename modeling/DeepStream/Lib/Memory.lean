/-
# Memory that is written in blocks

A memory gives a value for every address of every buffer. A kernel writes each of
its threads' values at the thread's address (`scatter`), in any order if no two
threads have one address; a copy moves a block of addresses (`memcpy`).
-/
import Mathlib.Data.List.Basic

namespace DeepStream

/-- An address in a buffer. -/
structure Ptr where
  buf : ℕ
  off : ℕ
  deriving DecidableEq, Repr

/-- The address `n` further on. -/
def Ptr.add (p : Ptr) (n : ℕ) : Ptr := ⟨p.buf, p.off + n⟩

@[simp] theorem Ptr.add_buf (p : Ptr) (n : ℕ) : (p.add n).buf = p.buf := rfl

@[simp] theorem Ptr.add_off (p : Ptr) (n : ℕ) : (p.add n).off = p.off + n := rfl

theorem Ptr.add_add (p : Ptr) (m n : ℕ) : (p.add m).add n = p.add (m + n) := by
  simp [Ptr.add, Nat.add_assoc]

/-- The blocks of `n` addresses from `p` and from `q` on do not overlap. -/
def Ptr.Apart (p q : Ptr) (n : ℕ) : Prop := p.buf = q.buf → p.off + n ≤ q.off ∨ q.off + n ≤ p.off

theorem Ptr.Apart.symm {p q : Ptr} {n : ℕ} (h : p.Apart q n) : q.Apart p n := fun hbuf => (h hbuf.symm).symm

theorem Ptr.Apart.ne {p q : Ptr} {n i j : ℕ} (h : p.Apart q n) (hi : i < n) (hj : j < n) : p.add i ≠ q.add j := by
  intro heq
  have hoff : p.off + i = q.off + j := by simpa using congrArg Ptr.off heq
  have hbuf : p.buf = q.buf := by simpa using congrArg Ptr.buf heq
  have hrange := h hbuf
  omega

abbrev Memory (α : Type*) := Ptr → α

namespace Memory

variable {α ι : Type*}

/-- The threads of the list write their values, one after the other. -/
def scatter (addr : ι → Ptr) (val : ι → α) : List ι → Memory α → Memory α
  | [], m => m
  | i :: l, m => scatter addr val l (Function.update m (addr i) (val i))

/-- `n` addresses from `src` on are copied to those from `dst` on. -/
def memcpy (dst src : Ptr) (n : ℕ) (m : Memory α) : Memory α := fun p =>
  if p.buf = dst.buf ∧ dst.off ≤ p.off ∧ p.off < dst.off + n then m (src.add (p.off - dst.off)) else m p

variable {addr : ι → Ptr} {val : ι → α} {m : Memory α} {p dst src : Ptr}

theorem scatter_of_ne : ∀ {l : List ι} {m : Memory α}, (∀ i ∈ l, addr i ≠ p) → scatter addr val l m p = m p
  | [], _, _ => rfl
  | i :: l, m, h => by
    rw [scatter, scatter_of_ne fun j hj => h j (List.mem_cons_of_mem _ hj),
      Function.update_of_ne (h i List.mem_cons_self).symm]

/-- A thread's value is at its address where no two threads have the same. -/
theorem scatter_apply : ∀ {l : List ι} {m : Memory α}, (∀ i ∈ l, ∀ j ∈ l, addr i = addr j → i = j) →
    ∀ {i : ι}, i ∈ l → scatter addr val l m (addr i) = val i
  | [], _, _, _, hi => absurd hi List.not_mem_nil
  | j :: l, m, hinj, i, hi => by
    have htail : ∀ i ∈ l, ∀ j ∈ l, addr i = addr j → i = j := fun i hi j hj =>
      hinj i (List.mem_cons_of_mem _ hi) j (List.mem_cons_of_mem _ hj)
    rw [scatter]
    by_cases hl : i ∈ l
    · exact scatter_apply htail hl
    · obtain rfl : i = j := (List.mem_cons.mp hi).resolve_right hl
      rw [scatter_of_ne, Function.update_self]
      intro k hk heq
      exact hl (hinj k (List.mem_cons_of_mem _ hk) i List.mem_cons_self heq ▸ hk)

/-- What is at an address is a thread's value, or was there before. -/
theorem scatter_cases : ∀ (l : List ι) (m : Memory α), scatter addr val l m p = m p ∨
    ∃ i ∈ l, addr i = p ∧ scatter addr val l m p = val i
  | [], _ => .inl rfl
  | i :: l, m => by
    rw [scatter]
    rcases scatter_cases l (Function.update m (addr i) (val i)) with hold | ⟨j, hj, hp, hval⟩
    · rw [hold]
      by_cases hp : p = addr i
      · subst hp
        exact .inr ⟨i, List.mem_cons_self, rfl, Function.update_self ..⟩
      · exact .inl (Function.update_of_ne hp _ _)
    · exact .inr ⟨j, List.mem_cons_of_mem _ hj, hp, hval⟩

theorem memcpy_apply {n b : ℕ} (hb : b < n) : memcpy dst src n m (dst.add b) = m (src.add b) := by
  have hin : (dst.add b).buf = dst.buf ∧ dst.off ≤ (dst.add b).off ∧ (dst.add b).off < dst.off + n :=
    ⟨rfl, Nat.le_add_right _ _, Nat.add_lt_add_left hb _⟩
  rw [memcpy, if_pos hin, Ptr.add_off, Nat.add_sub_cancel_left]

theorem memcpy_of_buf_ne {n : ℕ} (h : p.buf ≠ dst.buf) : memcpy dst src n m p = m p :=
  if_neg fun hin => h hin.1

theorem memcpy_of_off {n : ℕ} (h : p.off < dst.off ∨ dst.off + n ≤ p.off) : memcpy dst src n m p = m p :=
  if_neg fun hin => by omega

end Memory
end DeepStream
