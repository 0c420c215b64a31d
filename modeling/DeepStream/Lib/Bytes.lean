/-
# Bytes in memory

A word of 32 bits is four bytes, the lowest first. A block of memory is the list of its bytes, and
one that is copied into a buffer has to fit behind its offset.
-/
import Mathlib.Data.List.Basic
import Mathlib.Tactic.NormNum

namespace DeepStream
namespace Bytes

/-! ### Words -/

/-- The bytes of a word. -/
def le32 (n : ℕ) : List UInt8 :=
  [UInt8.ofNat n, UInt8.ofNat (n / 2 ^ 8), UInt8.ofNat (n / 2 ^ 16), UInt8.ofNat (n / 2 ^ 24)]

/-- The word of four bytes. -/
def word (b₀ b₁ b₂ b₃ : UInt8) : ℕ := b₃.toNat <<< 24 ||| b₂.toNat <<< 16 ||| b₁.toNat <<< 8 ||| b₀.toNat

@[simp] theorem length_le32 (n : ℕ) : (le32 n).length = 4 := rfl

theorem word_eq (b₀ b₁ b₂ b₃ : UInt8) :
    word b₀ b₁ b₂ b₃ = b₀.toNat + 2 ^ 8 * (b₁.toNat + 2 ^ 8 * (b₂.toNat + 2 ^ 8 * b₃.toNat)) := by
  have h₀ := b₀.toNat_lt
  have h₁ := b₁.toNat_lt
  have h₂ := b₂.toNat_lt
  have hword : word b₀ b₁ b₂ b₃ = ((b₃.toNat <<< 8 ||| b₂.toNat) <<< 8 ||| b₁.toNat) <<< 8 ||| b₀.toNat := by
    simp only [word, Nat.shiftLeft_or_distrib, ← Nat.shiftLeft_add]
  rw [hword, ← Nat.shiftLeft_add_eq_or_of_lt h₀, ← Nat.shiftLeft_add_eq_or_of_lt h₁,
    ← Nat.shiftLeft_add_eq_or_of_lt h₂]
  simp only [Nat.shiftLeft_eq]
  omega

theorem word_lt (b₀ b₁ b₂ b₃ : UInt8) : word b₀ b₁ b₂ b₃ < 2 ^ 32 := by
  have h₀ := b₀.toNat_lt
  have h₁ := b₁.toNat_lt
  have h₂ := b₂.toNat_lt
  have h₃ := b₃.toNat_lt
  rw [word_eq]
  omega

theorem word_le32 {n : ℕ} (h : n < 2 ^ 32) :
    word (UInt8.ofNat n) (UInt8.ofNat (n / 2 ^ 8)) (UInt8.ofNat (n / 2 ^ 16)) (UInt8.ofNat (n / 2 ^ 24)) = n := by
  rw [word_eq]
  simp only [UInt8.toNat_ofNat']
  omega

theorem le32_word (b₀ b₁ b₂ b₃ : UInt8) : le32 (word b₀ b₁ b₂ b₃) = [b₀, b₁, b₂, b₃] := by
  have h₀ := b₀.toNat_lt
  have h₁ := b₁.toNat_lt
  have h₂ := b₂.toNat_lt
  have h₃ := b₃.toNat_lt
  rw [le32, word_eq]
  congr 1
  · exact UInt8.toNat_inj.mp (by rw [UInt8.toNat_ofNat']; omega)
  congr 1
  · exact UInt8.toNat_inj.mp (by rw [UInt8.toNat_ofNat']; omega)
  congr 1
  · exact UInt8.toNat_inj.mp (by rw [UInt8.toNat_ofNat']; omega)
  congr 1
  exact UInt8.toNat_inj.mp (by rw [UInt8.toNat_ofNat']; omega)

/-! ### Blocks -/

/-- The `n` bytes from `off` on. -/
def block (mem : ℕ → UInt8) : ℕ → ℕ → List UInt8
  | _, 0 => []
  | off, n + 1 => mem off :: block mem (off + 1) n

variable {mem : ℕ → UInt8}

@[simp] theorem length_block (mem : ℕ → UInt8) : ∀ off n, (block mem off n).length = n
  | _, 0 => rfl
  | off, n + 1 => by rw [block, List.length_cons, length_block mem (off + 1) n]

theorem block_add (mem : ℕ → UInt8) (off : ℕ) : ∀ m n,
    block mem off (m + n) = block mem off m ++ block mem (off + m) n
  | 0, n => by rw [Nat.zero_add, block, List.nil_append, Nat.add_zero]
  | m + 1, n => by
    rw [Nat.succ_add, block, block, block_add mem (off + 1) m n, List.cons_append, Nat.add_right_comm, Nat.add_assoc off]

/-- What a buffer holds. -/
theorem block_getD (buf : List UInt8) (beyond : ℕ → UInt8) (pre : List UInt8) :
    block (fun i => (pre ++ buf).getD i (beyond i)) pre.length buf.length = buf := by
  induction buf generalizing pre with
  | nil => rfl
  | cons b buf ih =>
    have hmem : (fun i => (pre ++ b :: buf).getD i (beyond i)) = fun i => (pre ++ [b] ++ buf).getD i (beyond i) := by
      rw [List.append_assoc, List.singleton_append]
    have hhead : (pre ++ b :: buf).getD pre.length (beyond pre.length) = b := by simp
    rw [List.length_cons, block, hhead, hmem]
    have := ih (pre ++ [b])
    rw [List.length_append, List.length_singleton] at this
    rw [this]

/-! ### Copies -/

/-- The buffer with the bytes from `off` on. -/
def memcpyAt (buf : List UInt8) (off : ℕ) (bytes : List UInt8) : Option (List UInt8) :=
  if off + bytes.length ≤ buf.length then some (buf.take off ++ bytes ++ buf.drop (off + bytes.length)) else none

theorem memcpyAt_eq_some {buf buf' bytes : List UInt8} {off : ℕ} (h : memcpyAt buf off bytes = some buf') :
    off + bytes.length ≤ buf.length ∧ buf'.length = buf.length := by
  unfold memcpyAt at h
  split at h
  · rename_i hle
    obtain rfl := Option.some.inj h
    refine ⟨hle, ?_⟩
    simp only [List.length_append, List.length_take, List.length_drop]
    omega
  · simp at h

theorem memcpyAt_eq_none {buf bytes : List UInt8} {off : ℕ} (h : ¬ off + bytes.length ≤ buf.length) :
    memcpyAt buf off bytes = none := if_neg h

/-- One copy after the other. -/
theorem memcpyAt_append (buf a b : List UInt8) (off : ℕ) :
    ((memcpyAt buf off a).bind fun buf => memcpyAt buf (off + a.length) b) = memcpyAt buf off (a ++ b) := by
  have hlenab : (a ++ b).length = a.length + b.length := List.length_append
  by_cases ha : off + a.length ≤ buf.length
  · have hpre : (buf.take off ++ a).length = off + a.length := by
      rw [List.length_append, List.length_take]
      omega
    have hlen : (buf.take off ++ a ++ buf.drop (off + a.length)).length = buf.length := by
      rw [List.length_append, hpre, List.length_drop]
      omega
    have hfst : memcpyAt buf off a = some (buf.take off ++ a ++ buf.drop (off + a.length)) := if_pos ha
    rw [hfst, Option.bind_some]
    by_cases hb : off + a.length + b.length ≤ buf.length
    · have htake : (buf.take off ++ a ++ buf.drop (off + a.length)).take (off + a.length) = buf.take off ++ a :=
        List.take_left' hpre
      have hdrop : (buf.take off ++ a ++ buf.drop (off + a.length)).drop (off + a.length + b.length) =
          buf.drop (off + (a ++ b).length) := by
        rw [List.drop_append, List.drop_of_length_le (by omega), hpre, List.drop_drop, List.nil_append]
        congr 1
        omega
      unfold memcpyAt
      rw [if_pos (by omega), if_pos (by omega), htake, hdrop, List.append_assoc (buf.take off)]
    · rw [memcpyAt_eq_none (by omega), memcpyAt_eq_none (by omega)]
  · rw [memcpyAt_eq_none ha, Option.bind_none]
    exact (memcpyAt_eq_none (by omega)).symm

end Bytes
end DeepStream
