/-
# Fills of a surface

The rows of a surface are `pitch` bytes apart, and a pixel has `size` bytes. A fill clears
some bytes in each of some rows. Told the right bytes and rows, it clears the pixels of a
rectangle and no byte of another pixel.
-/
import DeepStream.Lib.RowMajor

namespace DeepStream

/-- A rectangle of pixels. -/
structure PixelRect where
  top : ℕ
  left : ℕ
  width : ℕ
  height : ℕ
  deriving DecidableEq, Repr

def PixelRect.Contains (r : PixelRect) (x y : ℕ) : Prop :=
  r.left ≤ x ∧ x < r.left + r.width ∧ r.top ≤ y ∧ y < r.top + r.height

/-- A surface whose rows fit into the pitch. -/
structure Surface where
  size : ℕ
  pitch : ℕ
  width : ℕ
  wide : size * width ≤ pitch

/-- The place of a byte of a pixel. -/
def Surface.byte (s : Surface) (x y b : ℕ) : ℕ := s.pitch * y + s.size * x + b

/-- A fill with zeroes; `offset` is counted from the first byte of the surface. -/
structure Memset2D where
  offset : ℕ
  pitch : ℕ
  width : ℕ
  height : ℕ
  deriving DecidableEq, Repr

namespace Memset2D

def Zeroes (m : Memset2D) (a : ℕ) : Prop := ∃ row < m.height, ∃ col < m.width, a = m.offset + m.pitch * row + col

/-- The fill is told to clear the rectangle. -/
structure Clears (s : Surface) (m : Memset2D) (r : PixelRect) : Prop where
  offset : m.offset = s.size * r.left + s.pitch * r.top
  pitch : m.pitch = s.pitch
  width : m.width = s.size * r.width
  height : m.height = r.height
  inside : r.left + r.width ≤ s.width

variable {s : Surface} {m : Memset2D} {r : PixelRect} {x y b : ℕ}

theorem Clears.zeroes_iff (h : m.Clears s r) (hx : x < s.width) (hb : b < s.size) :
    m.Zeroes (s.byte x y b) ↔ r.Contains x y := by
  have hpixel : s.size * x + b < s.pitch := by
    calc s.size * x + b < s.size * x + s.size := Nat.add_lt_add_left hb _
      _ = s.size * (x + 1) := by ring
      _ ≤ s.size * s.width := Nat.mul_le_mul_left _ hx
      _ ≤ s.pitch := s.wide
  unfold Zeroes PixelRect.Contains Surface.byte
  rw [h.offset, h.pitch, h.width, h.height]
  constructor
  · rintro ⟨row, hrow, col, hcol, heq⟩
    have hbyte : s.size * r.left + col < s.pitch := by
      calc s.size * r.left + col < s.size * r.left + s.size * r.width := Nat.add_lt_add_left hcol _
        _ = s.size * (r.left + r.width) := by ring
        _ ≤ s.size * s.width := Nat.mul_le_mul_left _ h.inside
        _ ≤ s.pitch := s.wide
    have hrows : y * s.pitch + (s.size * x + b) = (r.top + row) * s.pitch + (s.size * r.left + col) := by
      calc y * s.pitch + (s.size * x + b) = s.pitch * y + s.size * x + b := by ring
        _ = s.size * r.left + s.pitch * r.top + s.pitch * row + col := heq
        _ = (r.top + row) * s.pitch + (s.size * r.left + col) := by ring
    obtain ⟨hy, hbytes⟩ := RowMajor.inj hpixel hbyte hrows
    refine ⟨?_, ?_, by omega, by omega⟩
    · by_contra hlt
      have hle : s.size * (x + 1) ≤ s.size * r.left := Nat.mul_le_mul_left _ (Nat.lt_of_not_le hlt)
      rw [Nat.mul_succ] at hle
      omega
    · by_contra hge
      have hle : s.size * (r.left + r.width) ≤ s.size * x := Nat.mul_le_mul_left _ (Nat.le_of_not_lt hge)
      rw [Nat.mul_add] at hle
      omega
  · rintro ⟨hxlo, hxhi, hylo, hyhi⟩
    obtain ⟨dx, rfl⟩ := Nat.exists_eq_add_of_le hxlo
    obtain ⟨dy, rfl⟩ := Nat.exists_eq_add_of_le hylo
    refine ⟨dy, by omega, s.size * dx + b, ?_, by ring⟩
    calc s.size * dx + b < s.size * dx + s.size := Nat.add_lt_add_left hb _
      _ = s.size * (dx + 1) := by ring
      _ ≤ s.size * r.width := Nat.mul_le_mul_left _ (by omega)

/-- Some fill clears a byte when its pixel is in one of the rectangles. -/
theorem exists_zeroes_iff {memsets : List Memset2D} {rects : List PixelRect}
    (h : List.Forall₂ (Clears s) memsets rects) (hx : x < s.width) (hb : b < s.size) :
    (∃ m ∈ memsets, m.Zeroes (s.byte x y b)) ↔ ∃ r ∈ rects, r.Contains x y := by
  induction h with
  | nil => simp
  | cons hm _ ih => rw [List.exists_mem_cons_iff, List.exists_mem_cons_iff, hm.zeroes_iff hx hb, ih]

end Memset2D
end DeepStream
