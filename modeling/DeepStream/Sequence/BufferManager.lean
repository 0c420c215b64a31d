/-
# The buffer manager of the sequence preprocessing library

Every region of interest has a ring of frames in a block that it shares with
others. A frame that is not skipped is written into the next slot of its ring;
when a ring is full and its next ready frame has come, its frames are copied into
a batch, and the ring slides on by the stride. A full batch is queued, and so is
what is left at the end; a call returns one batch and gives back the others.
-/
import DeepStream.Lib.Run
import DeepStream.Sequence.Kernel

namespace DeepStream
namespace Sequence

/-- The stream and the two corners of a region. -/
abbrev SourceKey := ℕ × ℤ × ℤ

structure NvDsPreProcessBatch (F : Type*) where
  units : List (NvDsPreProcessUnit F)
  scalingPoolFormat : NvDsPreProcessFormat

/-- A unit with the format of its batch. -/
structure Frame (F : Type*) where
  unit : NvDsPreProcessUnit F
  inFormat : NvDsPreProcessFormat

def NvDsPreProcessBatch.frames {F : Type*} (batch : NvDsPreProcessBatch F) : List (Frame F) :=
  batch.units.map fun u => ⟨u, batch.scalingPoolFormat⟩

/-- The address of a block stands for the pointers to it. -/
structure FullBatchBlock where
  addr : ℕ
  buf : ℕ
  inUseBatchSize : ℕ
  deriving DecidableEq, Repr

/-- `seqNo` numbers the sequence that is in the ring when it is ready. -/
structure RoiProcessedBuf (F : Type*) where
  block : ℕ
  blockOffset : ℕ
  startSeqIdx : ℕ
  processedSeq : ℕ
  roiInfo : NvDsRoiMeta F
  latestFrameNo : ℕ
  nextReadyFrameNo : ℕ
  seqNo : ℕ
  deriving DecidableEq, Repr

/-- `batchSize` is the first dimension of the tensor, `seqs` are the numbers of the
sequences in it. -/
structure ReadyResult (F : Type*) where
  readyBuf : ℕ
  rois : List (NvDsRoiMeta F)
  batchSize : ℕ
  seqs : List ℕ

/-- A batch that is being filled, as far as it is. -/
structure Filling (F : Type*) where
  buf : ℕ
  rois : List (NvDsRoiMeta F)
  seqs : List ℕ

/-- The library, and what it runs on: how a coordinate is turned into an integer
and which buffer the pool gives when some are out. -/
structure SequenceImagePreprocess (F α : Type*) where
  cfg : SequenceConfig
  norm : Normalization α
  int64 : F → ℤ
  acquire : List ℕ → ℕ

/-- The last block comes first. `out` are the buffers acquired and not released;
`arrived` and `accepted` are the frames so far that a destination was asked for
and that got one, and `numReady` counts the sequences that became ready. -/
structure BufferManager (F α : Type*) where
  memory : Memory α
  out : List ℕ
  nextBlock : ℕ
  accumulateBlocks : List FullBatchBlock
  src2dstMap : List (SourceKey × RoiProcessedBuf F)
  readyPendings : List (ReadyResult F)
  arrived : List (Frame F)
  accepted : List (Frame F)
  numReady : ℕ

/-- What CUDA answers in a call: to the choice of the device, to the launch for
the frame that arrives as the `n`-th, to the copies of a ready sequence and to
the wait for all of it. -/
structure Cuda where
  setDevice : Bool
  launch : ℕ → Bool
  copy : SourceKey → Bool
  synchronize : Bool

def kMaxX : ℤ := 10000

def kMaxY : ℤ := kMaxX * kMaxX

section Key
variable {F : Type*} [Add F] [Mul F]

/-- The second corner is not that of the region. -/
def getKey (int64 : F → ℤ) (roi : NvDsRoiMeta F) : SourceKey :=
  (roi.sourceId, int64 roi.left * kMaxX + int64 roi.top * kMaxY,
    int64 (roi.left + roi.width) * kMaxX + int64 (roi.top * roi.height) * kMaxY)

end Key

def SourceKey.Lt (k k' : SourceKey) : Prop :=
  k.1 < k'.1 ∨ k.1 = k'.1 ∧ (k.2.1 < k'.2.1 ∨ k.2.1 = k'.2.1 ∧ k.2.2 < k'.2.2)

instance (k k' : SourceKey) : Decidable (SourceKey.Lt k k') := inferInstanceAs (Decidable (_ ∨ _ ∧ (_ ∨ _ ∧ _)))

/-- The map is in the order of its keys. -/
def emplace {υ : Type*} (k : SourceKey) (v : υ) : List (SourceKey × υ) → List (SourceKey × υ)
  | [] => [(k, v)]
  | p :: l => if SourceKey.Lt k p.1 then (k, v) :: p :: l else p :: emplace k v l

/-! ### The pictures -/

/-- Which formats the library turns into that of the network. -/
def Supported (inFormat network : NvDsPreProcessFormat) : Prop :=
  inFormat = network ∨ network = .rgb ∨ network = .rgba ∨ network = .bgr ∨ network = .bgrx

instance (inFormat network : NvDsPreProcessFormat) : Decidable (Supported inFormat network) :=
  inferInstanceAs (Decidable (_ ∨ _ ∨ _ ∨ _ ∨ _))

def swapRB (inFormat network : NvDsPreProcessFormat) : Bool :=
  if inFormat = network then false
  else if network = .rgb ∨ network = .rgba then inFormat = .bgr ∨ inFormat = .bgrx
  else if network = .bgr ∨ network = .bgrx then inFormat = .rgb ∨ inFormat = .rgba
  else false

namespace SequenceImagePreprocess

variable {F α : Type*} (lib : SequenceImagePreprocess F α)

/-- The pool gives no buffer that is out. -/
def Fresh : Prop := ∀ l, lib.acquire l ∉ l

/-- The values that a frame's picture is turned into. -/
def value [Zero α] [Add α] [Mul α] [Neg α] (f : Frame F) : ℕ → ℕ → ℕ → α :=
  pixel lib.norm (swapRB f.inFormat lib.cfg.params.networkColorFormat) (getChannels f.inFormat) f.unit.bufPitch
    f.unit.frame

/-- The key of a frame's region. -/
def key [Add F] [Mul F] (f : Frame F) : SourceKey := getKey lib.int64 f.unit.roiMeta

end SequenceImagePreprocess

/-! ### The ring of a region -/

namespace RoiProcessedBuf

variable {F : Type*} (cfg : SequenceConfig) (b : RoiProcessedBuf F)

/-- `FRAME_NO_NOT_SET` -/
def frameNoNotSet : ℕ := 2 ^ 64 - 1

/-- A frame too early after the latest one, or too far before the next sequence. -/
def Skips (frameNum : ℕ) : Prop :=
  b.latestFrameNo ≠ frameNoNotSet ∧
    (frameNum ≤ (b.latestFrameNo + cfg.subsample) % 2 ^ 64 ∨ (frameNum + cfg.seqSpan) % 2 ^ 64 < b.nextReadyFrameNo)

instance (frameNum : ℕ) : Decidable (b.Skips cfg frameNum) := inferInstanceAs (Decidable (_ ∧ (_ ∨ _)))

/-- The slot of the next frame. -/
def curIdx : ℕ := (b.startSeqIdx + b.processedSeq) % cfg.seqSize

/-- `n` rounds of the loop that rejects the oldest frame. -/
def reject : ℕ → RoiProcessedBuf F → RoiProcessedBuf F
  | 0, b => b
  | n + 1, b => reject n { b with
      startSeqIdx := (b.startSeqIdx + 1) % cfg.seqSize
      processedSeq := b.processedSeq - 1 }

/-- One frame more, and none more than a sequence has. -/
def accept (u : NvDsPreProcessUnit F) : RoiProcessedBuf F :=
  reject cfg (b.processedSeq + 1 - cfg.seqSize) { b with
    processedSeq := b.processedSeq + 1
    latestFrameNo := u.frameNum
    roiInfo := u.roiMeta }

/-- A sequence is there, and its frame has come. -/
def Ready : Prop := cfg.seqSize ≤ b.processedSeq ∧ b.nextReadyFrameNo ≤ b.latestFrameNo

instance : Decidable (b.Ready cfg) := inferInstanceAs (Decidable (_ ∧ _))

/-- The ring goes on by the stride. -/
def slide : RoiProcessedBuf F :=
  let moveBufs := min cfg.seqStride b.processedSeq
  { b with
    nextReadyFrameNo := (b.latestFrameNo + cfg.seqStride * (cfg.subsample + 1) % 2 ^ 32) % 2 ^ 64
    startSeqIdx := (b.startSeqIdx + moveBufs) % cfg.seqSize
    processedSeq := b.processedSeq - moveBufs }

end RoiProcessedBuf

namespace BufferManager

variable {F α : Type*} (lib : SequenceImagePreprocess F α) (s : BufferManager F α)

/-- A library that has not been called yet. -/
def init (memory : Memory α) : BufferManager F α := ⟨memory, [], 0, [], [], [], [], [], 0⟩

def acquire : ℕ × BufferManager F α := (lib.acquire s.out, { s with out := lib.acquire s.out :: s.out })

def release (buf : ℕ) : BufferManager F α := { s with out := s.out.erase buf }

def findRoi (key : SourceKey) : Option (RoiProcessedBuf F) := (s.src2dstMap.find? (·.1 = key)).map Prod.snd

def findBlock (addr : ℕ) : Option FullBatchBlock := s.accumulateBlocks.find? (·.addr = addr)

/-! ### Regions -/

/-- The region's ring is the next one of `block`, which comes before `blocks`. -/
def placeRoi (block : FullBatchBlock) (blocks : List FullBatchBlock) (key : SourceKey) (u : NvDsPreProcessUnit F) :
    BufferManager F α :=
  { s with
    accumulateBlocks := { block with inUseBatchSize := block.inUseBatchSize + 1 } :: blocks
    src2dstMap := emplace key
      { block := block.addr
        blockOffset := lib.cfg.perBatchBytes * block.inUseBatchSize % 2 ^ 32
        startSeqIdx := 0
        processedSeq := 0
        roiInfo := u.roiMeta
        latestFrameNo := RoiProcessedBuf.frameNoNotSet
        nextReadyFrameNo := (u.frameNum + lib.cfg.seqSpan) % 2 ^ 64
        seqNo := 0 } s.src2dstMap }

/-- In a new block. -/
def placeRoiInNew (key : SourceKey) (u : NvDsPreProcessUnit F) : BufferManager F α :=
  let r := s.acquire lib
  { r.2 with nextBlock := s.nextBlock + 1 }.placeRoi lib ⟨s.nextBlock, r.1, 0⟩ s.accumulateBlocks key u

def addRoi (key : SourceKey) (u : NvDsPreProcessUnit F) : BufferManager F α :=
  match s.accumulateBlocks with
  | [] => s.placeRoiInNew lib key u
  | block :: blocks =>
    if lib.cfg.maxBatch ≤ block.inUseBatchSize then s.placeRoiInNew lib key u else s.placeRoi lib block blocks key u

section
variable [Add F] [Mul F]

/-- The regions that are new get their rings. -/
def buildRoiBlocks : List (NvDsPreProcessUnit F) → BufferManager F α → BufferManager F α
  | [], s => s
  | u :: us, s =>
    let key := getKey lib.int64 u.roiMeta
    buildRoiBlocks us (if (s.findRoi key).isSome then s else s.addRoi lib key u)

/-! ### Frames -/

def setRoi (key : SourceKey) (b : RoiProcessedBuf F) : BufferManager F α :=
  { s with src2dstMap := s.src2dstMap.map fun p => if p.1 = key then (key, b) else p }

/-- The status of a frame that has no destination, or the destination. There is
no result when the block has been destroyed. A frame with which the ring is ready
makes one more sequence. -/
def locateRoiDst (f : Frame F) : Option (Except NvDsPreProcessStatus Ptr × BufferManager F α) :=
  let s := { s with arrived := s.arrived ++ [f] }
  match s.findRoi (lib.key f) with
  | none => some (.error .invalidParams, s)
  | some b =>
    if b.Skips lib.cfg f.unit.frameNum then some (.error .skipFrame, s)
    else (s.findBlock b.block).map fun block =>
      let b' := { b.accept lib.cfg f.unit with seqNo := s.numReady }
      (.ok ⟨block.buf, b.blockOffset + b.curIdx lib.cfg * lib.cfg.hwBytes⟩,
        { s.setRoi (lib.key f) b' with
          accepted := s.accepted ++ [f]
          numReady := s.numReady + if b'.Ready lib.cfg then 1 else 0 })

variable [Zero α] [Add α] [Mul α] [Neg α]

def preprocessData (f : Frame F) (launch : Bool) (outPtr : Ptr) : NvDsPreProcessStatus × BufferManager F α :=
  if ¬ Supported f.inFormat lib.cfg.params.networkColorFormat then (.customLibFailed, s)
  else if getChannels f.inFormat = 0 ∨ 4 < getChannels f.inFormat then (.customLibFailed, s)
  else if ¬ launch then (.cudaError, s)
  else (.success, { s with
    memory := preprocessNCDHW (lib.value f) lib.cfg.channels lib.cfg.height lib.cfg.width lib.cfg.seqSize outPtr s.memory })

/-- `CHECK_PROCESS_ERROR`: the status that the call returns, if it does. -/
def checkProcessError (st : NvDsPreProcessStatus) : Option NvDsPreProcessStatus :=
  if st ≠ .success then some st else none

/-- A round of the loop over the units; the assertions on the converted buffer
come first. -/
def prepareUnit (f : Frame F) (launch : Bool) : Option (Option NvDsPreProcessStatus × BufferManager F α) :=
  if f.unit.bufWidth < lib.cfg.width ∨ f.unit.bufHeight ≠ lib.cfg.height then none
  else (s.locateRoiDst lib f).map fun r =>
    match r with
    | (.error st, s) => (if st = .skipFrame then none else checkProcessError st, s)
    | (.ok outPtr, s) =>
      let q := s.preprocessData lib f launch outPtr
      (checkProcessError q.1, q.2)

def prepareUnits (launch : ℕ → Bool) :
    List (Frame F) → BufferManager F α → Option (Option NvDsPreProcessStatus × BufferManager F α)
  | [], s => some (none, s)
  | f :: fs, s => (s.prepareUnit lib f (launch s.arrived.length)).bind fun r =>
    match r with
    | (none, s) => prepareUnits launch fs s
    | (some st, s) => some (some st, s)

end

/-! ### Batches -/

/-- The batch that a ready sequence goes into. -/
def startFilling (filling : Option (Filling F)) : Filling F × BufferManager F α :=
  match filling with
  | some filling => (filling, s)
  | none => (⟨(s.acquire lib).1, [], []⟩, (s.acquire lib).2)

def push (filling : Filling F) (batchSize : ℕ) : BufferManager F α :=
  { s with readyPendings := s.readyPendings ++ [⟨filling.buf, filling.rois, batchSize, filling.seqs⟩] }

/-- A round of the loop over the regions, and whether its copies were made. The
last assertion is that there is a stride. -/
def collectRoi (copy : Bool) (b : RoiProcessedBuf F) (filling : Option (Filling F)) :
    Option (Bool × RoiProcessedBuf F × Option (Filling F) × BufferManager F α) :=
  if ¬ b.Ready lib.cfg then some (true, b, filling, s)
  else
    let r := s.startFilling lib filling
    let filling := r.1
    let s := r.2
    (s.findBlock b.block).bind fun block =>
      if ¬ copy then some (false, b, some filling, s)
      else if lib.cfg.seqStride = 0 then none
      else
        let dst : Ptr := ⟨filling.buf, filling.rois.length * lib.cfg.perBatchBytes % 2 ^ 32⟩
        let s := { s with memory := copySequence lib.cfg dst ⟨block.buf, b.blockOffset⟩ b.startSeqIdx s.memory }
        let filling := { filling with rois := filling.rois ++ [b.roiInfo], seqs := filling.seqs ++ [b.seqNo] }
        if lib.cfg.maxBatch ≤ filling.rois.length then
          some (true, b.slide lib.cfg, none, s.push filling lib.cfg.maxBatch)
        else some (true, b.slide lib.cfg, some filling, s)

/-- The regions from some point on. -/
def collectRois (copy : SourceKey → Bool) : List (SourceKey × RoiProcessedBuf F) → Option (Filling F) →
    BufferManager F α → Option (Bool × List (SourceKey × RoiProcessedBuf F) × Option (Filling F) × BufferManager F α)
  | [], filling, s => some (true, [], filling, s)
  | p :: l, filling, s => (s.collectRoi lib (copy p.1) p.2 filling).bind fun r =>
    if r.1 then (collectRois copy l r.2.2.1 r.2.2.2).map fun q => (q.1, (p.1, r.2.1) :: q.2.1, q.2.2)
    else some (false, (p.1, r.2.1) :: l, r.2.2)

/-- A batch that is being filled goes back to the pool when a copy fails. -/
def collectReady (copy : SourceKey → Bool) : Option (Bool × BufferManager F α) :=
  (collectRois lib copy s.src2dstMap none s).map fun r =>
    let s := { r.2.2.2 with src2dstMap := r.2.1 }
    match r.2.2.1 with
    | none => (r.1, s)
    | some filling => if r.1 then (true, s.push filling filling.rois.length) else (false, s.release filling.buf)

/-- All but the last are given back. -/
def popReady : Option (ReadyResult F) × BufferManager F α :=
  match s.readyPendings.getLast? with
  | none => (none, s)
  | some res => (some res, { s with
      readyPendings := []
      out := s.readyPendings.dropLast.foldl (fun out old => out.erase old.readyBuf) s.out })

/-- The map of the regions is left as it is. -/
def clearAll : BufferManager F α :=
  { s with
    readyPendings := []
    accumulateBlocks := []
    out := (s.readyPendings.map (·.readyBuf) ++ s.accumulateBlocks.map (·.buf)).foldl List.erase s.out }

variable [Add F] [Mul F] [Zero α] [Add α] [Mul α] [Neg α]

def prepareTensorData (batch : NvDsPreProcessBatch F) (cuda : Cuda) :
    Option (NvDsPreProcessStatus × Option (ReadyResult F) × BufferManager F α) :=
  if batch.scalingPoolFormat ∉ [.rgb, .bgr, .rgba, .bgrx] then some (.configFailed, none, s)
  else
    let s := buildRoiBlocks lib batch.units s
    if ¬ cuda.setDevice then some (.cudaError, none, s)
    else (prepareUnits lib cuda.launch batch.frames s).bind fun r =>
      match r with
      | (some st, s) => some (st, none, s)
      | (none, s) => (s.collectReady lib cuda.copy).map fun r =>
        if ¬ r.1 then (.cudaError, none, r.2)
        else if ¬ cuda.synchronize then (.cudaError, none, r.2)
        else
          match r.2.popReady with
          | (some res, s) => (.success, some res, s)
          | (none, s) => (.tensorNotReady, none, s)

end BufferManager

/-! ### Runs -/

/-- The library and its caller: the buffers that the caller has, the sequences
that were returned to it, and what the last call returned. -/
structure State (F α : Type*) where
  manager : BufferManager F α
  handed : List ℕ
  returned : List ℕ
  last : Option (ReadyResult F)

inductive Action (F : Type*) where
  | prepare (batch : NvDsPreProcessBatch F) (cuda : Cuda)
  | giveBack (buf : ℕ)
  | clearAll

namespace State

variable {F α : Type*} [Add F] [Mul F] [Zero α] [Add α] [Mul α] [Neg α] (lib : SequenceImagePreprocess F α)
  (s : State F α)

def init (memory : Memory α) : State F α := ⟨.init memory, [], [], none⟩

/-- A library that has not been called. -/
def Started : Prop := ∃ memory, s = init memory

/-- What happens after a call that ends in an assertion or uses a destroyed block
is not defined. -/
def step : Action F → Option (State F α)
  | .prepare batch cuda => (s.manager.prepareTensorData lib batch cuda).map fun r =>
    { manager := r.2.2
      handed := r.2.1.toList.map (·.readyBuf) ++ s.handed
      returned := s.returned ++ r.2.1.toList.flatMap (·.seqs)
      last := r.2.1 }
  | .giveBack buf =>
    if buf ∈ s.handed then
      some { s with manager := s.manager.release buf, handed := s.handed.erase buf, last := none }
    else none
  | .clearAll => some { s with manager := s.manager.clearAll, last := none }

end State

/-! ### A library over the integers -/

namespace Sample

def params (shape : List ℤ) : NvDsPreProcessTensorParams := ⟨shape, .rgb, .fp32⟩

/-- Pixels are not scaled, and the pool counts its buffers. -/
def library (cfg : SequenceConfig) : SequenceImagePreprocess ℤ ℤ where
  cfg := cfg
  norm := ⟨fun n => n, fun _ => 1, fun _ => 0⟩
  int64 := id
  acquire := fun out => out.foldr max 0 + 1

theorem fresh (cfg : SequenceConfig) : (library cfg).Fresh := by
  have hle : ∀ (l : List ℕ), ∀ a ∈ l, a ≤ l.foldr max 0 := by
    intro l
    induction l with
    | nil => exact fun a ha => absurd ha List.not_mem_nil
    | cons b l ih =>
      intro a ha
      rcases List.mem_cons.mp ha with rfl | hl
      · exact Nat.le_max_left _ _
      · exact Nat.le_trans (ih a hl) (Nat.le_max_right _ _)
  exact fun l hmem => Nat.not_succ_le_self _ (hle l _ hmem)

/-- A picture of one pixel, from the left upper corner of a source. -/
def picture (sourceId frameNum : ℕ) (roiHeight : ℤ) (value : ℕ) : NvDsPreProcessUnit ℤ :=
  ⟨frameNum, ⟨sourceId, 0, 0, 1, roiHeight⟩, 1, 1, 3, fun _ => value⟩

/-- A call in which CUDA does not fail. -/
def call (units : List (NvDsPreProcessUnit ℤ)) : Action ℤ :=
  .prepare ⟨units, .rgb⟩ ⟨true, fun _ => true, fun _ => true, true⟩

end Sample

end Sequence
end DeepStream
