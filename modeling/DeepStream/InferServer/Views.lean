/-
# Views of tensors, and copies of them

A view of a buffer is a new description over the same memory: `ReshapeBuf` gives it other
dimensions, `reshapeToFullDimsBuf` makes the batch the first of them, and `debatchingOutput`
undoes that where the first dimension is the batch size of the input. `tensorBufferCopy`
copies the bytes of a buffer into another one, with CUDA or, between two buffers of the host,
with `memcpy`, to which it gives the buffers the wrong way round.

Host and devices share one address space. What the calls of CUDA answer is a parameter; a copy
that is accepted has been done when the memory is looked at.
-/
import DeepStream.InferServer.Reorder
import DeepStream.InferServer.Tensors
import DeepStream.Lib.Memory

namespace DeepStream
namespace InferServer
namespace Views

open Tensors (InferMemType InferDims InferBufferDescription RefBatchBuffer getElementSize normalizeDims dimsSize)

/-- `NVDSINFER_MAX_DIMS`. -/
def maxDims : ℕ := 8

/-! ### Dimensions -/

/-- `none`: the assertion on the number of dimensions fails. -/
def fullDims (batch : ℤ) (dims : InferDims) : Option InferDims :=
  if batch = 0 then some dims
  else if dims.d.length + 1 ≤ maxDims then some (normalizeDims ⟨batch :: dims.d, 0⟩)
  else none

/-- `none`: there is no dimension to take the batch from. -/
def debatchFullDims (full : InferDims) : Option (InferDims × ℕ) :=
  match full.d with
  | [] => none
  | batch :: d => some (normalizeDims ⟨d, 0⟩, (batch % 2 ^ 32).toNat)

/-! ### Views -/

/-- `none`: an assertion fails; `some none`: a null pointer after an error. -/
def reshapeBuf (buf : RefBatchBuffer) (batch : ℕ) (reshape : InferDims) (reCalcBytes : Bool) :
    Option (Option RefBatchBuffer) :=
  if Tensors.hasWildcard reshape then none
  else if !reCalcBytes ∧ buf.desc.dims.d = reshape.d ∧ buf.batchSize = batch then some (some buf)
  else
    match fullDims (toInt32 batch) reshape, fullDims (toInt32 buf.batchSize) buf.desc.dims,
      buf.getBufPtr 0, buf.getBufOffset 0 with
    | some outFullDims, some inFullDims, some ptr, some offset =>
      if dimsSize outFullDims ≤ dimsSize inFullDims then
        let desc := { buf.desc with dims := reshape }
        if reCalcBytes then
          if desc.dataType = .string then some none
          else
            let bytes := getElementSize desc.dataType * dimsSize outFullDims % 2 ^ 64
            if 0 < bytes then some (some (.new ptr offset bytes desc batch)) else none
        else some (some (.new ptr offset buf.bufBytes desc batch))
      else none
    | _, _, _, _ => none

def reshapeToFullDimsBuf (buf : RefBatchBuffer) (reCalcBytes : Bool) : Option (Option RefBatchBuffer) :=
  if buf.batchSize = 0 then some (some buf)
  else
    match fullDims (toInt32 buf.batchSize) buf.desc.dims with
    | none => none
    | some newDims => reshapeBuf buf 0 newDims reCalcBytes

/-- The body of the loop; `none`: the function returns false. -/
def debatchBuf (inBatch : ℕ) (buf : RefBatchBuffer) : Option RefBatchBuffer :=
  if isPrivateTensor buf.desc.name ∨ buf.batchSize ≠ 0 then some buf
  else
    match debatchFullDims buf.desc.dims with
    | none => none
    | some (debatchDims, outBatch) =>
      if outBatch ≠ inBatch then some buf
      else
        match buf.getBufPtr 0, buf.getBufOffset 0 with
        | some ptr, some offset => some (.new ptr offset buf.bufBytes { buf.desc with dims := debatchDims } inBatch)
        | _, _ => none

def debatchingOutput (inBatch : ℕ) (outputs : List RefBatchBuffer) : Option (List RefBatchBuffer) :=
  if inBatch = 0 then some outputs else outputs.mapM (debatchBuf inBatch)

/-! ### Copies -/

inductive CudaMemcpyKind where
  | hostToHost | hostToDevice | deviceToHost | deviceToDevice
  deriving DecidableEq, Repr

/-- What CUDA answers. -/
structure Cuda where
  setDevice : ℤ → Bool
  memcpyAsync : CudaMemcpyKind → Bool

def gpuSrc2dst : InferMemType → Option CudaMemcpyKind
  | .gpuCuda => some .deviceToDevice
  | .cpu | .cpuCuda => some .deviceToHost
  | .none | .nvSurface | .nvSurfaceArray => none

def cpuSrc2dst : InferMemType → Option CudaMemcpyKind
  | .gpuCuda => some .hostToDevice
  | .cpu | .cpuCuda => some .hostToHost
  | .none | .nvSurface | .nvSurfaceArray => none

/-- The kind of a copy and the device for it; `none`: not supported. -/
def copyKind (inDesc outDesc : InferBufferDescription) : Option (CudaMemcpyKind × ℤ) :=
  match inDesc.memType with
  | .gpuCuda => (gpuSrc2dst outDesc.memType).map (·, inDesc.devId)
  | .cpu | .cpuCuda => (cpuSrc2dst outDesc.memType).map (·, outDesc.devId)
  | .none | .nvSurface | .nvSurfaceArray => none

def toPtr (address : ℕ) : Ptr := ⟨0, address⟩

/-- `none`: an assertion fails. -/
def tensorBufferCopy (cuda : Cuda) (inBuf outBuf : RefBatchBuffer) (m : Memory UInt8) :
    Option (Except NvDsInferStatus (Memory UInt8)) :=
  if inBuf.bufBytes = outBuf.bufBytes then
    match copyKind inBuf.desc outBuf.desc, inBuf.getBufPtr 0, outBuf.getBufPtr 0 with
    | none, _, _ => some (.error .cudaError)
    | some (kind, gpuId), some inPtr, some outPtr =>
      if kind ≠ .hostToHost then
        if cuda.setDevice gpuId && cuda.memcpyAsync kind then
          some (.ok (m.memcpy (toPtr outPtr) (toPtr inPtr) inBuf.bufBytes))
        else some (.error .cudaError)
      else some (.ok (m.memcpy (toPtr inPtr) (toPtr outPtr) inBuf.bufBytes))
    | some _, _, _ => none
  else none

/-! ### What they should do -/

def elementPtr (b : RefBatchBuffer) (i k : ℕ) : Option ℕ := (b.getBufPtr i).map (· + k * b.desc.elementSize)

/-- A view of the same memory, in which every element of a slice both have is where it was. -/
structure SameElements (a b : RefBatchBuffer) : Prop where
  base : b.bufBase = a.bufBase
  offset : b.bufOffset = a.bufOffset
  element : ∀ i < a.slices, i < b.slices → ∀ k, elementPtr b i k = elementPtr a i k

/-- A batch with its first dimension still apart. The bounds are those of the assertions. -/
structure Batch where
  buf : RefBatchBuffer
  one_le : 1 ≤ buf.batchSize
  batch_lt : buf.batchSize < 2 ^ 31
  dims_length : buf.desc.dims.d.length < maxDims
  noWildcard : Tensors.hasWildcard buf.desc.dims = false
  normalized : normalizeDims buf.desc.dims = buf.desc.dims
  isOutput : isPrivateTensor buf.desc.name = false

/-- The number of bytes that is asserted to be positive where it is computed anew. -/
def HasBytes (buf : RefBatchBuffer) (full : InferDims) (reCalcBytes : Bool) : Prop :=
  reCalcBytes = true → 0 < getElementSize buf.desc.dataType * dimsSize full % 2 ^ 64

/-- The assertions of `ReshapeBuf`. -/
def CanReshape (buf : RefBatchBuffer) (batch : ℕ) (reshape : InferDims) (reCalcBytes : Bool) : Prop :=
  Tensors.hasWildcard reshape = false ∧ ∃ outFullDims inFullDims,
    fullDims (toInt32 batch) reshape = some outFullDims ∧
      fullDims (toInt32 buf.batchSize) buf.desc.dims = some inFullDims ∧
      dimsSize outFullDims ≤ dimsSize inFullDims ∧ HasBytes buf outFullDims reCalcBytes

/-- Two buffers of one size that do not overlap. -/
structure CopyPair where
  inBuf : RefBatchBuffer
  outBuf : RefBatchBuffer
  bytes_eq : inBuf.bufBytes = outBuf.bufBytes
  apart : (toPtr inBuf.bufBase).Apart (toPtr outBuf.bufBase) inBuf.bufBytes

def byteAt (m : Memory UInt8) (b : RefBatchBuffer) (j : ℕ) : UInt8 := m ((toPtr b.bufBase).add j)

/-- CUDA does what it is asked for. -/
def Cuda.Accepts (cuda : Cuda) (kind : CudaMemcpyKind) (gpuId : ℤ) : Prop :=
  kind ≠ .hostToHost → cuda.setDevice gpuId = true ∧ cuda.memcpyAsync kind = true

def Copies (cuda : Cuda) (pair : CopyPair) (m : Memory UInt8) : Prop :=
  ∀ kind gpuId, copyKind pair.inBuf.desc pair.outBuf.desc = some (kind, gpuId) → cuda.Accepts kind gpuId →
    ∃ m', tensorBufferCopy cuda pair.inBuf pair.outBuf m = some (.ok m') ∧
      ∀ j < pair.inBuf.bufBytes,
        byteAt m' pair.outBuf j = byteAt m pair.inBuf j ∧ byteAt m' pair.inBuf j = byteAt m pair.inBuf j

structure Meets (cuda : Cuda) (pair : CopyPair) (m : Memory UInt8) : Prop where
  dims : ∀ (b : ℕ) (d : InferDims), 1 ≤ b → b < 2 ^ 31 → Tensors.hasWildcard d = false → d.d.length < maxDims →
    ∃ full, fullDims b d = some full ∧ debatchFullDims full = some (normalizeDims d, b)
  debatched : ∀ (batch : Batch) (reCalcBytes : Bool) (full : InferDims),
    fullDims (toInt32 batch.buf.batchSize) batch.buf.desc.dims = some full → HasBytes batch.buf full reCalcBytes →
      ∃ view b, reshapeToFullDimsBuf batch.buf reCalcBytes = some (some view) ∧
        debatchingOutput batch.buf.batchSize [view] = some [b] ∧ b.batchSize = batch.buf.batchSize ∧
        b.desc = batch.buf.desc ∧ SameElements batch.buf b
  reshaped : ∀ (buf : RefBatchBuffer) (batch : ℕ) (reshape : InferDims) (reCalcBytes : Bool),
    normalizeDims buf.desc.dims = buf.desc.dims → CanReshape buf batch reshape reCalcBytes →
      dimsSize reshape = dimsSize buf.desc.dims →
      ∃ view, reshapeBuf buf batch reshape reCalcBytes = some (some view) ∧ SameElements buf view
  copied : Copies cuda pair m

/-- The copy is left to CUDA, or there is nothing to copy. -/
def MeetsWhen (pair : CopyPair) (m : Memory UInt8) : Prop :=
  ∀ gpuId, copyKind pair.inBuf.desc pair.outBuf.desc = some (.hostToHost, gpuId) →
    ∀ j < pair.inBuf.bufBytes, byteAt m pair.outBuf j = byteAt m pair.inBuf j

/-! ### Dimensions, back and forth -/

variable {b : ℕ} {d : InferDims} {buf : RefBatchBuffer} {reCalcBytes : Bool}

theorem fullDims_eq (hb : 1 ≤ b) (hlen : d.d.length < maxDims) :
    fullDims b d = some (normalizeDims ⟨b :: d.d, 0⟩) := by
  have hne : (b : ℤ) ≠ 0 := by omega
  have hle : d.d.length + 1 ≤ maxDims := hlen
  rw [fullDims, if_neg hne, if_pos hle]

theorem debatch_fullDims (hlt : b < 2 ^ 31) (d : InferDims) :
    debatchFullDims (normalizeDims ⟨b :: d.d, 0⟩) = some (normalizeDims d, b) := by
  have hmod : ((b : ℤ) % 2 ^ 32).toNat = b := by omega
  show some (normalizeDims ⟨d.d, 0⟩, ((b : ℤ) % 2 ^ 32).toNat) = some (normalizeDims d, b)
  rw [hmod]
  rfl

theorem hasWildcard_full (h : Tensors.hasWildcard d = false) :
    Tensors.hasWildcard (normalizeDims ⟨b :: d.d, 0⟩) = false := by
  have hhead : ¬(b : ℤ) ≤ -1 := by omega
  show (decide ((b : ℤ) ≤ -1) || Tensors.hasWildcard d) = false
  rw [h, decide_eq_false hhead, Bool.or_false]

/-! ### Views of one memory -/

theorem getBufOffset_zero (b : RefBatchBuffer) : b.getBufOffset 0 = some b.bufOffset := by
  rw [RefBatchBuffer.getBufOffset, if_pos ⟨.inl rfl, .inl le_rfl⟩, RefBatchBuffer.sliceOffset, Nat.mul_zero,
    Nat.zero_mod, Nat.add_zero]

theorem SameElements.refl (a : RefBatchBuffer) : SameElements a a := ⟨rfl, rfl, fun _ _ _ _ => rfl⟩

/-- What a view must share with the buffer. -/
theorem SameElements.of_desc {a b : RefBatchBuffer} (hbase : b.bufBase = a.bufBase) (hoffset : b.bufOffset = a.bufOffset)
    (htype : b.desc.dataType = a.desc.dataType) (hsize : b.desc.elementSize = a.desc.elementSize)
    (hcount : b.desc.dims.numElements = a.desc.dims.numElements) : SameElements a b where
  base := hbase
  offset := hoffset
  element := by
    intro i hia hib k
    have hin : b.InBatch i ↔ a.InBatch i := by
      rw [RefBatchBuffer.inBatch_iff, RefBatchBuffer.inBatch_iff, htype, iff_true_intro hia, iff_true_intro hib]
    have hptr : b.getBufPtr i = a.getBufPtr i := by
      unfold RefBatchBuffer.getBufPtr RefBatchBuffer.sliceOffset
      simp only [hin, hbase, hsize, hcount]
    rw [elementPtr, elementPtr, hptr, hsize]

/-- The same memory under other dimensions. -/
def viewAs (buf : RefBatchBuffer) (bytes : ℕ) (dims : InferDims) (batch : ℕ) : RefBatchBuffer :=
  .new buf.bufBase buf.bufOffset bytes { buf.desc with dims := dims } batch

theorem SameElements.viewAs {bytes batch : ℕ} (h : (normalizeDims d).numElements = buf.desc.dims.numElements) :
    SameElements buf (viewAs buf bytes d batch) :=
  .of_desc rfl rfl rfl rfl h

/-- A buffer is given as it is, or under other dimensions. -/
theorem reshapeBuf_eq {batch : ℕ} (h : CanReshape buf batch d reCalcBytes) :
    (buf.batchSize = batch ∧ reshapeBuf buf batch d reCalcBytes = some (some buf)) ∨
      ∃ bytes, reshapeBuf buf batch d reCalcBytes = some (some (viewAs buf bytes d batch)) := by
  obtain ⟨hwild, out, inp, hout, hinp, hle, hbytes⟩ := h
  unfold reshapeBuf
  rw [hwild, if_neg Bool.false_ne_true]
  split
  · rename_i hsame
    exact .inl ⟨hsame.2.2, rfl⟩
  · right
    simp only [hout, hinp, RefBatchBuffer.getBufPtr_zero, getBufOffset_zero, if_pos hle]
    cases hre : reCalcBytes with
    | false => exact ⟨buf.bufBytes, rfl⟩
    | true =>
      have hpos := hbytes hre
      have htype : buf.desc.dataType ≠ .string := by
        intro htype
        rw [htype] at hpos
        simp [getElementSize] at hpos
      rw [if_pos rfl, if_neg htype, if_pos hpos]
      exact ⟨_, rfl⟩

theorem SameElements.reshapeBuf {batch : ℕ} (hnorm : normalizeDims buf.desc.dims = buf.desc.dims)
    (h : CanReshape buf batch d reCalcBytes) (hsize : dimsSize d = dimsSize buf.desc.dims) :
    ∃ view, Views.reshapeBuf buf batch d reCalcBytes = some (some view) ∧ SameElements buf view := by
  rcases reshapeBuf_eq h with ⟨-, hsame⟩ | ⟨bytes, hnew⟩
  · exact ⟨buf, hsame, .refl buf⟩
  · refine ⟨_, hnew, .viewAs ?_⟩
    calc dimsSize d % 2 ^ 32 = dimsSize buf.desc.dims % 2 ^ 32 := by rw [hsize]
      _ = buf.desc.dims.numElements := congrArg InferDims.numElements hnorm

/-! ### To full dimensions and back -/

theorem reshapeToFullDimsBuf_eq (hne : buf.batchSize ≠ 0) {full : InferDims}
    (hfull : fullDims (toInt32 buf.batchSize) buf.desc.dims = some full) (hwild : Tensors.hasWildcard full = false)
    (hbytes : HasBytes buf full reCalcBytes) :
    ∃ bytes, reshapeToFullDimsBuf buf reCalcBytes = some (some (viewAs buf bytes full 0)) := by
  have hcan : CanReshape buf 0 full reCalcBytes := ⟨hwild, full, full, rfl, hfull, le_rfl, hbytes⟩
  rw [reshapeToFullDimsBuf, if_neg hne, hfull]
  exact (reshapeBuf_eq hcan).resolve_left fun hsame => hne hsame.1

theorem debatchBuf_viewAs {bytes : ℕ} {full : InferDims} (hname : isPrivateTensor buf.desc.name = false)
    (hdims : debatchFullDims full = some (d, b)) :
    debatchBuf b (viewAs buf bytes full 0) = some (viewAs buf bytes d b) := by
  have hname' : isPrivateTensor (viewAs buf bytes full 0).desc.name = false := hname
  have hdims' : debatchFullDims (viewAs buf bytes full 0).desc.dims = some (d, b) := hdims
  unfold debatchBuf
  rw [hname', hdims', RefBatchBuffer.getBufPtr_zero, getBufOffset_zero]
  simp [viewAs, RefBatchBuffer.new]

/-- The batch and the dimensions come back, and the elements stay where they are. -/
theorem roundTrip (batch : Batch) {full : InferDims}
    (hfull : fullDims (toInt32 batch.buf.batchSize) batch.buf.desc.dims = some full)
    (hbytes : HasBytes batch.buf full reCalcBytes) :
    ∃ view b, reshapeToFullDimsBuf batch.buf reCalcBytes = some (some view) ∧
      debatchingOutput batch.buf.batchSize [view] = some [b] ∧ b.batchSize = batch.buf.batchSize ∧
      b.desc = batch.buf.desc ∧ SameElements batch.buf b := by
  obtain ⟨buf, hone, hlt, hlen, hwild, hnorm, hname⟩ := batch
  dsimp only at hfull hbytes ⊢
  have hne : buf.batchSize ≠ 0 := Nat.one_le_iff_ne_zero.mp hone
  have heq : full = normalizeDims ⟨buf.batchSize :: buf.desc.dims.d, 0⟩ := by
    rw [toInt32_of_lt hlt, fullDims_eq hone hlen] at hfull
    exact (Option.some.inj hfull).symm
  obtain ⟨bytes, hview⟩ := reshapeToFullDimsBuf_eq hne hfull (heq ▸ hasWildcard_full hwild) hbytes
  have hdims : debatchFullDims full = some (buf.desc.dims, buf.batchSize) := by
    rw [heq, debatch_fullDims hlt, hnorm]
  have hdesc : (viewAs buf bytes buf.desc.dims buf.batchSize).desc = buf.desc := by
    show { buf.desc with dims := normalizeDims buf.desc.dims } = buf.desc
    rw [hnorm]
  refine ⟨_, viewAs buf bytes buf.desc.dims buf.batchSize, hview, ?_, rfl, hdesc, .viewAs (by rw [hnorm])⟩
  rw [debatchingOutput, if_neg hne, List.mapM_cons, debatchBuf_viewAs hname hdims]
  rfl

/-! ### The copy -/

/-- A copy between blocks that are apart. -/
theorem memcpy_bytes {a b : RefBatchBuffer} {n j : ℕ} (m : Memory UInt8)
    (hapart : (toPtr b.bufBase).Apart (toPtr a.bufBase) n) (hj : j < n) :
    byteAt (m.memcpy (toPtr a.bufBase) (toPtr b.bufBase) n) a j = byteAt m b j ∧
      byteAt (m.memcpy (toPtr a.bufBase) (toPtr b.bufBase) n) b j = byteAt m b j := by
  have hoff : b.bufBase + n ≤ a.bufBase ∨ a.bufBase + n ≤ b.bufBase := hapart rfl
  refine ⟨Memory.memcpy_apply hj, Memory.memcpy_of_off ?_⟩
  show b.bufBase + j < a.bufBase ∨ a.bufBase + n ≤ b.bufBase + j
  omega

theorem copies_iff (cuda : Cuda) (pair : CopyPair) (m : Memory UInt8) : Copies cuda pair m ↔ MeetsWhen pair m := by
  have hback := fun j (hj : j < pair.inBuf.bufBytes) => memcpy_bytes m pair.apart.symm hj
  constructor
  · intro hcopies gpuId hkind j hj
    obtain ⟨m', hcopy, hbytes⟩ := hcopies .hostToHost gpuId hkind fun hne => absurd rfl hne
    rw [tensorBufferCopy, if_pos pair.bytes_eq, hkind, RefBatchBuffer.getBufPtr_zero,
      RefBatchBuffer.getBufPtr_zero] at hcopy
    obtain rfl := Except.ok.inj (Option.some.inj hcopy)
    calc byteAt m pair.outBuf j = _ := (hback j hj).1.symm
      _ = byteAt m pair.inBuf j := (hbytes j hj).2
  · intro hequal kind gpuId hkind haccepts
    rw [tensorBufferCopy, if_pos pair.bytes_eq, hkind, RefBatchBuffer.getBufPtr_zero, RefBatchBuffer.getBufPtr_zero]
    by_cases hhost : kind = .hostToHost
    · subst hhost
      refine ⟨_, rfl, fun j hj => ?_⟩
      exact ⟨(hback j hj).2.trans (hequal gpuId hkind j hj), (hback j hj).1.trans (hequal gpuId hkind j hj)⟩
    · obtain ⟨hset, hasync⟩ := haccepts hhost
      refine ⟨m.memcpy (toPtr pair.outBuf.bufBase) (toPtr pair.inBuf.bufBase) pair.inBuf.bufBytes, ?_, fun j hj => ?_⟩
      · simp [hhost, hset, hasync]
      · exact memcpy_bytes m pair.apart hj

/-- Views keep the elements where they are; a copy within the host keeps none. -/
theorem views_meet_iff (cuda : Cuda) (pair : CopyPair) (m : Memory UInt8) : Meets cuda pair m ↔ MeetsWhen pair m := by
  rw [← copies_iff cuda]
  constructor
  · exact Meets.copied
  · intro hcopies
    refine ⟨?_, ?_, ?_, hcopies⟩
    · intro b d hb hlt _ hlen
      exact ⟨_, fullDims_eq hb hlen, debatch_fullDims hlt d⟩
    · intro batch reCalcBytes full hfull hbytes
      exact roundTrip batch hfull hbytes
    · intro buf batch reshape reCalcBytes hnorm hcan hsize
      exact SameElements.reshapeBuf hnorm hcan hsize

/-- Two buffers of the host with one byte each. -/
def hostBuf (base : ℕ) : RefBatchBuffer := .new base 0 1 ⟨.cpu, 0, .uint8, ⟨[1], 1⟩, 1, "", true⟩ 0

def hostPair : CopyPair where
  inBuf := hostBuf 0
  outBuf := hostBuf 1
  bytes_eq := rfl
  apart := fun _ => .inl le_rfl

/-- The byte 7 is not copied: it is lost. -/
theorem not_meets_hostPair :
    ¬Meets ⟨fun _ => true, fun _ => true⟩ hostPair (fun p => if p = toPtr 0 then 7 else 0) := by
  intro h
  have hequal := (copies_iff _ _ _).mp h.copied 0 rfl 0 Nat.one_pos
  exact absurd hequal (by decide)

end Views
end InferServer
end DeepStream
