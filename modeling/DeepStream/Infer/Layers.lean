/-
# Layers and status codes of the inference context

The dimensions of a layer are the list of the first `numDims` entries of `d`;
`numElements` is a field of its own, a 32-bit product that nothing keeps in step
with the dimensions. A buffer is the address of its first byte.
-/
import Mathlib.Tactic.NormNum

namespace DeepStream
namespace Infer

inductive NvDsInferStatus where
  | success | configFailed | customLibFailed | invalidParams | outputParsingFailed | cudaError | tensorrtError
  | resourceError | tritonError | memError | unknownError
  deriving DecidableEq, Repr

inductive NvDsInferDataType where
  | float | half | int8 | int32
  deriving DecidableEq, Repr

/-- The size of an element in bytes. -/
def getElementSize : NvDsInferDataType → ℕ
  | .float => 4
  | .half => 2
  | .int8 => 1
  | .int32 => 4

structure NvDsInferDims where
  d : List ℕ
  numElements : ℕ
  deriving DecidableEq, Repr

/-- The product of the dimensions as an `unsigned int`. -/
def productOf (d : List ℕ) : ℕ := d.foldl (fun n x => n * x % 2 ^ 32) 1

structure NvDsInferLayerInfo where
  dataType : NvDsInferDataType
  inferDims : NvDsInferDims
  bindingIndex : ℤ
  layerName : String
  buffer : ℕ
  isInput : Bool
  deriving DecidableEq, Repr

end Infer
end DeepStream
