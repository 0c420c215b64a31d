/-
# The conversion kernels of the preprocess library

Every kernel reads the bytes of a packed picture, subtracts the mean image where there is one,
scales, and writes floats or halves, plane by plane or pixel by pixel. The functions of the
library differ in these choices only. Here is which byte a kernel reads for which element; what it
makes of the byte is left out.
-/
import DeepStream.Lib.RowMajor

namespace DeepStream
namespace Preprocess

inductive OutType where
  | float | half
  deriving DecidableEq, Repr

/-- How many channels there are, how many bytes a pixel of the input has, whether the output has
planes, and whether the first three bytes are read from the last on. -/
structure ConvertFcn where
  channels : ℕ
  inputPixelSize : ℕ
  planar : Bool
  reversed : Bool
  outType : OutType
  deriving DecidableEq, Repr

def convertC3ToP3Float : ConvertFcn := ⟨3, 3, true, false, .float⟩

def convertC3ToL3Float : ConvertFcn := ⟨3, 3, false, false, .float⟩

def convertC4ToP3Float : ConvertFcn := ⟨3, 4, true, false, .float⟩

def convertC4ToP3Half : ConvertFcn := ⟨3, 4, true, false, .half⟩

def convertC4ToL3Float : ConvertFcn := ⟨3, 4, false, false, .float⟩

def convertC3ToP3RFloat : ConvertFcn := ⟨3, 3, true, true, .float⟩

def convertC3ToL3RFloat : ConvertFcn := ⟨3, 3, false, true, .float⟩

def convertC4ToP3RHalf : ConvertFcn := ⟨3, 4, true, true, .half⟩

def convertC4ToP3RFloat : ConvertFcn := ⟨3, 4, true, true, .float⟩

def convertC4ToL3RFloat : ConvertFcn := ⟨3, 4, false, true, .float⟩

def convertC1ToP1Float : ConvertFcn := ⟨1, 1, true, false, .float⟩

/-! ### A kernel -/

/-- An element of the output: its channel, row and column. -/
structure Place where
  k : ℕ
  row : ℕ
  col : ℕ
  deriving DecidableEq, Repr

namespace ConvertFcn

variable (f : ConvertFcn)

/-- The channel of the input that goes into channel `k`. -/
def inChannel (k : ℕ) : ℕ := if f.reversed then 2 - k else k

def inIndex (pitch : ℕ) (p : Place) : ℕ := (p.row * pitch + p.col * f.inputPixelSize + f.inChannel p.k) % 2 ^ 32

def outIndex (width height : ℕ) (p : Place) : ℕ :=
  if f.planar then (width * height * p.k + p.row * width + p.col) % 2 ^ 32
  else (p.row * width * f.channels + p.col * f.channels + p.k) % 2 ^ 32

/-! ### Where an element goes -/

/-- The place is one of an output of this size. -/
structure Inside (width height : ℕ) (p : Place) : Prop where
  k : p.k < f.channels
  row : p.row < height
  col : p.col < width

variable {f} {width height : ℕ} {p : Place}

/-- The index before it is reduced. -/
def rawIndex (f : ConvertFcn) (width height : ℕ) (p : Place) : ℕ :=
  if f.planar then p.k * (height * width) + (p.row * width + p.col)
  else (p.row * width + p.col) * f.channels + p.k

theorem outIndex_eq (f : ConvertFcn) (width height : ℕ) (p : Place) :
    f.outIndex width height p = f.rawIndex width height p % 2 ^ 32 := by
  unfold outIndex rawIndex
  split
  · congr 1
    ring
  · congr 1
    ring

theorem Inside.rawIndex_lt (h : f.Inside width height p) :
    f.rawIndex width height p < f.channels * height * width := by
  unfold rawIndex
  have hpixel : p.row * width + p.col < height * width := RowMajor.lt_mul h.row h.col
  split
  · calc p.k * (height * width) + (p.row * width + p.col) < f.channels * (height * width) := RowMajor.lt_mul h.k hpixel
      _ = f.channels * height * width := by ring
  · calc (p.row * width + p.col) * f.channels + p.k < height * width * f.channels := RowMajor.lt_mul hpixel h.k
      _ = f.channels * height * width := by ring

theorem Inside.outIndex_eq_rawIndex (h : f.Inside width height p) (hsize : f.channels * height * width ≤ 2 ^ 32) :
    f.outIndex width height p = f.rawIndex width height p := by
  rw [outIndex_eq, Nat.mod_eq_of_lt (h.rawIndex_lt.trans_le hsize)]

end ConvertFcn
end Preprocess
end DeepStream
