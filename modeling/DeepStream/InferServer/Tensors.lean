/-
# Tensors of nvinferserver

A tensor is described by its type, its dimensions and how much memory an element takes.
`RefBatchBuffer` is a batch of such tensors in memory that something else owns: the tensor
of frame `i` is found `i` tensors behind the base. A batch size of 0 means that the first
dimension, if any, is the batch.

Sizes are computed as in the source: the product of the dimensions in an `int`, the offset
of a frame in `unsigned` arithmetic.
-/
import DeepStream.Lib.Word

namespace DeepStream
namespace InferServer
namespace Tensors

inductive InferMemType where
  | none | gpuCuda | cpu | cpuCuda | nvSurface | nvSurfaceArray
  deriving DecidableEq, Repr

inductive InferDataType where
  | fp32 | fp16 | int8 | int32 | int16 | uint8 | uint16 | uint32 | fp64 | int64 | uint64 | string | bool | none
  deriving DecidableEq, Repr

def getElementSize : InferDataType → ℕ
  | .int32 | .uint32 | .fp32 => 4
  | .fp16 | .int16 | .uint16 => 2
  | .int8 | .uint8 | .bool => 1
  | .string => 0
  | .fp64 | .int64 | .uint64 => 8
  | .none => 0

/-- The dimensions, and the number of elements that goes with them. -/
structure InferDims where
  d : List ℤ
  numElements : ℕ
  deriving DecidableEq, Repr

def hasWildcard (dims : InferDims) : Bool := dims.d.any (· ≤ -1)

def dimsSize (dims : InferDims) : ℕ :=
  if hasWildcard dims ∨ dims.d = [] then 0
  else (dims.d.foldl (fun s i => gint (s * i)) 1 % 2 ^ 64).toNat

def normalizeDims (dims : InferDims) : InferDims := { dims with numElements := dimsSize dims % 2 ^ 32 }

structure InferBufferDescription where
  memType : InferMemType
  devId : ℤ
  dataType : InferDataType
  dims : InferDims
  elementSize : ℕ
  name : String
  isInput : Bool
  deriving DecidableEq, Repr

/-- A batch of tensors in memory of somebody else. -/
structure RefBatchBuffer where
  bufBase : ℕ
  bufOffset : ℕ
  bufBytes : ℕ
  desc : InferBufferDescription
  batchSize : ℕ
  deriving DecidableEq, Repr

/-- The constructor. -/
def RefBatchBuffer.new (bufBase offset bufBytes : ℕ) (desc : InferBufferDescription) (batchSize : ℕ) : RefBatchBuffer where
  bufBase := bufBase
  bufOffset := offset
  bufBytes := bufBytes
  desc := { desc with dims := normalizeDims desc.dims }
  batchSize := batchSize

namespace RefBatchBuffer

variable (b : RefBatchBuffer)

/-- How many tensors there are. -/
def slices : ℕ := max b.batchSize 1

/-- The assertions of `getBufPtr` and `getBufOffset`. -/
def InBatch (batchIdx : ℕ) : Prop :=
  (batchIdx = 0 ∨ batchIdx < b.batchSize) ∧ (batchIdx ≤ 0 ∨ b.desc.dataType ≠ .string)

instance (batchIdx : ℕ) : Decidable (b.InBatch batchIdx) := by
  unfold InBatch
  infer_instance

/-- The offset of a tensor, a product of `unsigned` numbers. -/
def sliceOffset (batchIdx : ℕ) : ℕ := b.desc.elementSize * b.desc.dims.numElements * batchIdx % 2 ^ 32

/-- `none`: an assertion fails. -/
def getBufPtr (batchIdx : ℕ) : Option ℕ :=
  if b.InBatch batchIdx then some (b.bufBase + b.sliceOffset batchIdx) else none

/-- Where the tensor of a frame is. -/
def slicePtr (batchIdx : ℕ) : ℕ := b.bufBase + b.desc.elementSize * b.desc.dims.numElements * batchIdx

def getBufOffset (batchIdx : ℕ) : Option ℕ :=
  if b.InBatch batchIdx then some (b.bufOffset + b.sliceOffset batchIdx) else none

variable {b} {i : ℕ}

theorem inBatch_iff : b.InBatch i ↔ i < b.slices ∧ (i = 0 ∨ b.desc.dataType ≠ .string) := by
  unfold InBatch slices
  rw [Nat.le_zero]
  refine and_congr_left fun _ => ?_
  omega

theorem getBufPtr_eq_some {p : ℕ} : b.getBufPtr i = some p ↔ b.InBatch i ∧ b.bufBase + b.sliceOffset i = p := by
  unfold getBufPtr
  split
  · rename_i h
    rw [Option.some.injEq, and_iff_right h]
  · rename_i h
    exact iff_of_false nofun fun h' => h h'.1

theorem getBufPtr_zero : b.getBufPtr 0 = some b.bufBase :=
  getBufPtr_eq_some.mpr ⟨⟨.inl rfl, .inl le_rfl⟩, by rw [sliceOffset, Nat.mul_zero, Nat.zero_mod, Nat.add_zero]⟩

end RefBatchBuffer

end Tensors
end InferServer
end DeepStream
