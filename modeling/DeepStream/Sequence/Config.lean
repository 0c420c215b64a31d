/-
# What the sequence preprocessing library is configured to

The library gets the shape of the network's input and decodes the sequence
length, the channels and the size of a picture out of it: a shape of five
dimensions is batch, sequence, channels, height and width; one of four is that of
a 2D network, and its second dimension holds the pictures of a sequence one after
the other. The buffer manager takes the sizes of its regions from the product of
the dimensions, in 32-bit bytes.
-/
import Mathlib.Algebra.BigOperators.Group.List.Basic
import Mathlib.Tactic.Ring

namespace DeepStream
namespace Sequence

inductive NvDsPreProcessFormat where
  | rgb
  | bgr
  | gray
  | rgba
  | bgrx
  | tensor
  | unknown
  deriving DecidableEq, Repr

inductive NvDsDataType where
  | fp32
  | uint8
  | int8
  | uint32
  | int32
  | fp16
  deriving DecidableEq, Repr

/-- The bytes of an element, as the plugin counts them for its tensor buffers. -/
def NvDsDataType.size : NvDsDataType → ℕ
  | .fp32 => 4
  | .uint8 => 1
  | .int8 => 1
  | .uint32 => 4
  | .int32 => 4
  | .fp16 => 2

/-- `skipFrame` is `NVDSPREPROCESS_SKIP_FRAME` of the library. -/
inductive NvDsPreProcessStatus where
  | success
  | configFailed
  | customLibFailed
  | customTransformationFailed
  | customTensorFailed
  | invalidParams
  | outputParsingFailed
  | cudaError
  | tensorrtError
  | resourceError
  | tensorNotReady
  | skipFrame
  deriving DecidableEq, Repr

structure NvDsPreProcessTensorParams where
  networkInputShape : List ℤ
  networkColorFormat : NvDsPreProcessFormat
  dataType : NvDsDataType
  deriving DecidableEq, Repr

/-- Gray is said to be unsupported, and has a channel all the same. -/
def getChannels : NvDsPreProcessFormat → ℕ
  | .rgb => 3
  | .bgr => 3
  | .rgba => 4
  | .bgrx => 4
  | .gray => 1
  | .tensor => 0
  | .unknown => 0

/-- An `int` as a `uint32_t`. -/
def toUint32 (z : ℤ) : ℕ := (z % 2 ^ 32).toNat

/-- How `init` ends without a library: with a status, or in a failed assertion. -/
inductive InitFailure where
  | status (s : NvDsPreProcessStatus)
  | assertion
  deriving DecidableEq, Repr

/-- What `init` decodes; `maxBatch`, `perBatchSize` and the rest of the names are
those of the buffer manager. -/
structure SequenceConfig where
  params : NvDsPreProcessTensorParams
  maxBatch : ℕ
  seqSize : ℕ
  channels : ℕ
  height : ℕ
  width : ℕ
  perBatchSize : ℕ
  seqStride : ℕ
  subsample : ℕ
  deriving DecidableEq, Repr

/-- The sequence length of a shape. -/
def seqSizeOf (shape : List ℤ) (channels : ℕ) : Except InitFailure ℕ :=
  if shape.length = 5 then
    if channels ≠ toUint32 (shape.getD 2 0) then .error (.status .configFailed)
    else if shape.getD 1 0 > 0 then .ok (toUint32 (shape.getD 1 0))
    else .error .assertion
  else
    if toUint32 (shape.getD 2 0) % channels ≠ 0 then .error (.status .configFailed)
    else .ok (toUint32 (shape.getD 2 0) / channels)

/-- The user's stride and subsample have been parsed; the product of the
dimensions wraps around. -/
def init (params : NvDsPreProcessTensorParams) (seqStride subsample : ℕ) : Except InitFailure SequenceConfig := do
  let shape := params.networkInputShape
  let bank := shape.length
  if bank ≠ 5 ∧ bank ≠ 4 then throw (.status .configFailed)
  let channels := getChannels params.networkColorFormat
  if channels = 0 ∨ 4 < channels then throw (.status .configFailed)
  let maxBatch := toUint32 (shape.getD 0 0)
  let height := toUint32 (shape.getD (bank - 2) 0)
  let width := toUint32 (shape.getD (bank - 1) 0)
  let seqSize ← seqSizeOf shape channels
  if channels = 0 ∨ height = 0 ∨ width = 0 ∨ seqSize = 0 ∨ maxBatch = 0 then throw .assertion
  let perBatchSize := toUint32 shape.tail.prod
  if perBatchSize = 0 then throw .assertion
  return ⟨params, maxBatch, seqSize, channels, height, width, perBatchSize, seqStride, subsample⟩

namespace SequenceConfig

variable (cfg : SequenceConfig)

def perBatchBytes : ℕ := cfg.perBatchSize * 4 % 2 ^ 32

def hwBytes : ℕ := cfg.perBatchBytes / cfg.seqSize / cfg.channels

def shwBytes : ℕ := cfg.perBatchBytes / cfg.channels

/-- The frames between two that are used, for the whole sequence but one. -/
def seqSpan : ℕ := (cfg.seqSize - 1) * (cfg.subsample + 1) % 2 ^ 32

/-- What `init` makes sure of. -/
structure Valid : Prop where
  maxBatch_pos : 0 < cfg.maxBatch
  seqSize_pos : 0 < cfg.seqSize
  channels_pos : 0 < cfg.channels
  channels_le : cfg.channels ≤ 4
  height_pos : 0 < cfg.height
  width_pos : 0 < cfg.width

/-- The dimensions multiply to the size of a sequence, the bytes of which are
counted without wrapping around, and an element of the tensor has four. -/
structure Regular : Prop where
  size_eq : cfg.perBatchSize = cfg.seqSize * cfg.channels * cfg.height * cfg.width
  bytes_lt : cfg.perBatchSize * 4 < 2 ^ 32
  elem : cfg.params.dataType.size = 4

variable {cfg}

namespace Regular

theorem perBatchBytes_eq (h : cfg.Regular) :
    cfg.perBatchBytes = cfg.channels * (cfg.seqSize * (4 * (cfg.height * cfg.width))) := by
  rw [perBatchBytes, Nat.mod_eq_of_lt h.bytes_lt, h.size_eq]
  ring

theorem shwBytes_eq (h : cfg.Regular) (hv : cfg.Valid) :
    cfg.shwBytes = cfg.seqSize * (4 * (cfg.height * cfg.width)) := by
  rw [shwBytes, h.perBatchBytes_eq, Nat.mul_div_cancel_left _ hv.channels_pos]

theorem hwBytes_eq (h : cfg.Regular) (hv : cfg.Valid) : cfg.hwBytes = 4 * (cfg.height * cfg.width) := by
  rw [hwBytes, h.perBatchBytes_eq, Nat.div_div_eq_div_mul, Nat.mul_comm cfg.seqSize cfg.channels,
    ← Nat.mul_assoc, Nat.mul_div_cancel_left _ (Nat.mul_pos hv.channels_pos hv.seqSize_pos)]

/-- The regions of a sequence, one for each channel, each with one for each frame. -/
theorem perBatchBytes_eq_mul (h : cfg.Regular) (hv : cfg.Valid) :
    cfg.perBatchBytes = cfg.channels * cfg.shwBytes ∧ cfg.shwBytes = cfg.seqSize * cfg.hwBytes := by
  rw [h.hwBytes_eq hv, h.shwBytes_eq hv]
  exact ⟨h.perBatchBytes_eq, rfl⟩

end Regular

/-- What `init` decodes from the shape and makes sure of. -/
theorem of_init {params : NvDsPreProcessTensorParams} {seqStride subsample : ℕ}
    (h : init params seqStride subsample = .ok cfg) :
    cfg.Valid ∧ cfg.params = params ∧ cfg.seqStride = seqStride ∧ cfg.subsample = subsample ∧
      cfg.channels = getChannels params.networkColorFormat ∧
      cfg.maxBatch = toUint32 (params.networkInputShape.getD 0 0) ∧
      cfg.height = toUint32 (params.networkInputShape.getD (params.networkInputShape.length - 2) 0) ∧
      cfg.width = toUint32 (params.networkInputShape.getD (params.networkInputShape.length - 1) 0) ∧
      seqSizeOf params.networkInputShape cfg.channels = .ok cfg.seqSize ∧
      cfg.perBatchSize = toUint32 params.networkInputShape.tail.prod ∧
      (params.networkInputShape.length = 5 ∨ params.networkInputShape.length = 4) := by
  unfold init at h
  simp only [bind, Except.bind, pure, Except.pure, throw, throwThe, MonadExceptOf.throw] at h
  split at h
  · cases h
  · rename_i hbank
    split at h
    · cases h
    · rename_i hchannels
      cases hseq : seqSizeOf params.networkInputShape (getChannels params.networkColorFormat) with
      | error e => simp [hseq] at h
      | ok seqSize =>
        simp only [hseq] at h
        split at h
        · cases h
        · rename_i hpos
          split at h
          · cases h
          · obtain rfl := Except.ok.inj h
            simp only [not_or, ← Nat.pos_iff_ne_zero, Nat.not_lt] at hpos hchannels
            obtain ⟨hc, hh, hw, hs, hn⟩ := hpos
            exact ⟨⟨hn, hs, hc, hchannels.2, hh, hw⟩, rfl, rfl, rfl, rfl, rfl, rfl, rfl, hseq, rfl, by omega⟩

end SequenceConfig

end Sequence
end DeepStream
