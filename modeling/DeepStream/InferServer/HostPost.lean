/-
# Host postprocessing of nvinferserver

`postHostImpl` goes through the buffers of a batch: private ones are handed on, the outputs
are collected for the parser, and the batch size is the greatest one seen. `batchParse` then
parses frame after frame, with the buffer of every output layer set to the tensor of the frame.

The buffers are shared: they are numbered, and `heap` has their present state. What the parser
makes of the layers of one frame is a parameter. The CUDA calls that come first are left out.
-/
import DeepStream.InferServer.Reorder
import DeepStream.InferServer.Tensors

namespace DeepStream
namespace InferServer
namespace HostPost

open Tensors (InferMemType InferDims InferBufferDescription RefBatchBuffer)

/-- A buffer with the buffers attached to it. -/
structure BatchBuf extends RefBatchBuffer where
  attaches : List ℕ := []

structure NvDsInferLayerInfo where
  dataType : Tensors.InferDataType
  inferDims : InferDims
  layerName : String
  buffer : ℕ
  isInput : Bool
  deriving DecidableEq, Repr

def toCapiLayerInfo (desc : InferBufferDescription) (buf : ℕ) : NvDsInferLayerInfo where
  dataType := desc.dataType
  inferDims := desc.dims
  layerName := desc.name
  buffer := buf
  isInput := desc.isInput

def isCpuMem (memType : InferMemType) : Bool := memType = .cpu ∨ memType = .cpuCuda

/-- What the postprocessors make of the outputs of a batch. -/
structure BatchOutput (ρ : Type) where
  frames : List ρ
  attaches : List ℕ

inductive Kind where
  | detect | classify | segment
  deriving DecidableEq, Repr

/-- A postprocessor: `fill` is `fillDetectionOutput` and its siblings, and `finalize` what
`ClassificationOutput::finalize` does to one output. -/
structure Postprocessor (ρ : Type) where
  kind : Kind
  needInputCopy : Bool
  fill : List NvDsInferLayerInfo → Except NvDsInferStatus ρ
  finalize : ρ → ρ

variable {ρ : Type}

/-! ### Parsing -/

/-- The buffers of the layers are set to the tensors of frame `i`. -/
def setBuffers (heap : ℕ → BatchBuf) (i : ℕ) : List NvDsInferLayerInfo → List ℕ → Option (List NvDsInferLayerInfo)
  | layer :: layers, id :: tensors => do
    let buffer ← (heap id).getBufPtr i
    let rest ← setBuffers heap i layers tensors
    return { layer with buffer := buffer } :: rest
  | _, _ => some []

/-- The loop over the frames, with as many left as given; `none`: an assertion fails. -/
def fillFrames (fill : List NvDsInferLayerInfo → Except NvDsInferStatus ρ) (heap : ℕ → BatchBuf) (tensors : List ℕ) :
    ℕ → ℕ → List NvDsInferLayerInfo → List ρ → Option (Except NvDsInferStatus (List ρ))
  | 0, _, _, output => some (.ok output)
  | left + 1, i, layers, output =>
    match setBuffers heap i layers tensors with
    | none => none
    | some layers =>
      match fill layers with
      | .error e => some (.error e)
      | .ok ret => fillFrames fill heap tensors left (i + 1) layers (output ++ [ret])

namespace Postprocessor

variable (p : Postprocessor ρ) (heap : ℕ → BatchBuf) (outBufs : List ℕ)

def detectBatchParse (output : List ρ) : BatchOutput ρ := ⟨output, []⟩

def classifyBatchParse (output : List ρ) : BatchOutput ρ := ⟨output.map p.finalize, []⟩

def segmentBatchParse (output : List ρ) : BatchOutput ρ :=
  ⟨output, outBufs.filter fun id => !(heap id).desc.isInput && isCpuMem (heap id).desc.memType⟩

def batchParse (layers : List NvDsInferLayerInfo) (tensors : List ℕ) (batchSize : ℕ) :
    Option (Except NvDsInferStatus (BatchOutput ρ)) :=
  (fillFrames p.fill heap tensors batchSize 0 layers []).map fun output =>
    output.map fun output =>
      match p.kind with
      | .detect => detectBatchParse output
      | .classify => p.classifyBatchParse output
      | .segment => segmentBatchParse heap outBufs output

end Postprocessor

/-! ### Collecting -/

structure Collected where
  heap : ℕ → BatchBuf
  outBufs : List ℕ := []
  cOutputLayers : List NvDsInferLayerInfo := []
  cOutputTensors : List ℕ := []
  batchSize : ℕ := 1

def Collected.modify (c : Collected) (id : ℕ) (f : BatchBuf → BatchBuf) : Collected :=
  { c with heap := Function.update c.heap id (f (c.heap id)) }

def Collected.addOutput (c : Collected) (id : ℕ) : Option Collected := do
  let buffer ← (c.heap id).getBufPtr 0
  return { c with
    cOutputLayers := c.cOutputLayers ++ [toCapiLayerInfo (c.heap id).desc buffer]
    cOutputTensors := c.cOutputTensors ++ [id] }

/-- A buffer without a batch becomes a batch of one. -/
def Collected.takeBatchSize (c : Collected) (id : ℕ) : Collected :=
  if (c.heap id).batchSize = 0 then c.modify id fun buf => { buf with batchSize := 1 }
  else { c with batchSize := max (c.heap id).batchSize c.batchSize }

def Collected.addBuf (c : Collected) (id : ℕ) : Collected := { c with outBufs := c.outBufs ++ [id] }

/-- The body of the loop over the buffers. -/
def collect (needInputCopy : Bool) (c : Collected) (id : ℕ) : Option Collected :=
  if isPrivateTensor (c.heap id).desc.name then some (c.addBuf id)
  else
    let c := c.modify id fun buf => { buf with attaches := [] }
    if (c.heap id).desc.isInput then
      if needInputCopy then some ((c.takeBatchSize id).addBuf id) else some c
    else (c.addOutput id).map fun c => (c.takeBatchSize id).addBuf id

structure PostHost (ρ : Type) where
  heap : ℕ → BatchBuf
  outBufs : List ℕ
  parsed : Option (BatchOutput ρ)

def postHostImpl (p : Postprocessor ρ) (heap : ℕ → BatchBuf) (inBufList : List ℕ) :
    Option (Except NvDsInferStatus (PostHost ρ)) :=
  match inBufList.foldlM (collect p.needInputCopy) { heap := heap } with
  | none => none
  | some c =>
    if c.cOutputLayers = [] then some (.ok ⟨c.heap, c.outBufs, none⟩)
    else
      (p.batchParse c.heap c.outBufs c.cOutputLayers c.cOutputTensors c.batchSize).map fun output =>
        output.map fun output => ⟨c.heap, c.outBufs, some output⟩

/-! ### What the frames should get -/

/-- The outputs that are parsed. -/
def outputs (heap : ℕ → BatchBuf) (inBufList : List ℕ) : List ℕ :=
  inBufList.filter fun id => !isPrivateTensor (heap id).desc.name && !(heap id).desc.isInput

/-- The buffers that are handed on, and not private. -/
def handedOn (needInputCopy : Bool) (heap : ℕ → BatchBuf) (inBufList : List ℕ) : List ℕ :=
  inBufList.filter fun id =>
    !isPrivateTensor (heap id).desc.name && (!(heap id).desc.isInput || needInputCopy)

def maxBatch (heap : ℕ → BatchBuf) (batchSize : ℕ) (ids : List ℕ) : ℕ :=
  ids.foldl (fun batchSize id => max (heap id).slices batchSize) batchSize

/-- The greatest number of tensors in a buffer that is handed on, and not private. -/
def greatestBatch (needInputCopy : Bool) (heap : ℕ → BatchBuf) (inBufList : List ℕ) : ℕ :=
  maxBatch heap 1 (handedOn needInputCopy heap inBufList)

/-- The layers with the buffers that `ptr` gives. -/
def layersOf (heap : ℕ → BatchBuf) (tensors : List ℕ) (ptr : ℕ → ℕ) : List NvDsInferLayerInfo :=
  tensors.map fun id => toCapiLayerInfo (heap id).desc (ptr id)

/-- The layers of frame `i`. -/
def frameLayers (heap : ℕ → BatchBuf) (tensors : List ℕ) (i : ℕ) : List NvDsInferLayerInfo :=
  layersOf heap tensors fun id => (heap id).slicePtr i

/-- What becomes of the output of one frame. -/
def Postprocessor.result (p : Postprocessor ρ) (ret : ρ) : ρ := if p.kind = .classify then p.finalize ret else ret

/-- Every output tensor has `n` frames, and the result of each is what the parser makes of its slices; or the parser
has failed on one of them. -/
def FramesRight (p : Postprocessor ρ) (heap : ℕ → BatchBuf) (tensors : List ℕ) (n : ℕ) :
    Except NvDsInferStatus (PostHost ρ) → Prop
  | .error e => ∃ i < n, p.fill (frameLayers heap tensors i) = .error e
  | .ok out => ∃ parsed, out.parsed = some parsed ∧ parsed.frames.length = n ∧
      ∀ (i : ℕ) (h : i < parsed.frames.length), ∃ ret,
        p.fill (frameLayers heap tensors i) = .ok ret ∧ parsed.frames[i] = p.result ret

/-- No tensor is looked for outside its batch, and there is one result for each frame from the slices of the frame. -/
def Meets (needInputCopy : Bool) (heap : ℕ → BatchBuf) (inBufList : List ℕ) : Prop :=
  outputs heap inBufList ≠ [] → ∀ {ρ : Type} (p : Postprocessor ρ), p.needInputCopy = needInputCopy →
    ∃ out, postHostImpl p heap inBufList = some out ∧ ∃ n, (∀ id ∈ outputs heap inBufList, (heap id).slices = n) ∧
      FramesRight p heap (outputs heap inBufList) n out

/-- All output tensors have as many frames as the buffer with most, none with more than one is of strings, and their
sizes up to the last frame are less than 4 GiB. -/
def MeetsWhen (needInputCopy : Bool) (heap : ℕ → BatchBuf) (inBufList : List ℕ) : Prop :=
  ∀ id ∈ outputs heap inBufList, (heap id).slices = greatestBatch needInputCopy heap inBufList ∧
    (1 < (heap id).slices → (heap id).desc.dataType ≠ .string) ∧
    (heap id).desc.elementSize * (heap id).desc.dims.numElements * ((heap id).slices - 1) < 2 ^ 32

/-! ### The loop over the buffers -/

/-- The same tensors, whatever a batch of one is written as. -/
structure SameTensors (a b : BatchBuf) : Prop where
  desc : a.desc = b.desc
  bufBase : a.bufBase = b.bufBase
  slices : a.slices = b.slices

theorem SameTensors.refl (a : BatchBuf) : SameTensors a a := ⟨rfl, rfl, rfl⟩

theorem SameTensors.trans {a b c : BatchBuf} (hab : SameTensors a b) (hbc : SameTensors b c) : SameTensors a c :=
  ⟨hab.desc.trans hbc.desc, hab.bufBase.trans hbc.bufBase, hab.slices.trans hbc.slices⟩

variable {heap heap' : ℕ → BatchBuf} {needInputCopy : Bool}

theorem SameTensors.getBufPtr {a b : BatchBuf} (h : SameTensors a b) (i : ℕ) : a.getBufPtr i = b.getBufPtr i := by
  have hin : a.InBatch i ↔ b.InBatch i := by
    rw [RefBatchBuffer.inBatch_iff, RefBatchBuffer.inBatch_iff, h.desc, h.slices]
  unfold RefBatchBuffer.getBufPtr RefBatchBuffer.sliceOffset
  rw [h.desc, h.bufBase]
  by_cases hb : b.InBatch i
  · rw [if_pos hb, if_pos (hin.mpr hb)]
  · rw [if_neg hb, if_neg fun ha => hb (hin.mp ha)]

theorem outputs_congr (h : ∀ id, SameTensors (heap id) (heap' id)) (l : List ℕ) : outputs heap l = outputs heap' l :=
  List.filter_congr fun id _ => by rw [(h id).desc]

theorem handedOn_congr (h : ∀ id, SameTensors (heap id) (heap' id)) (l : List ℕ) :
    handedOn needInputCopy heap l = handedOn needInputCopy heap' l :=
  List.filter_congr fun id _ => by rw [(h id).desc]

theorem maxBatch_congr (h : ∀ id, SameTensors (heap id) (heap' id)) (batchSize : ℕ) (ids : List ℕ) :
    maxBatch heap batchSize ids = maxBatch heap' batchSize ids := by
  unfold maxBatch
  simp only [(h _).slices]

theorem layersOf_congr (h : ∀ id, SameTensors (heap id) (heap' id)) (tensors : List ℕ) (ptr : ℕ → ℕ) :
    layersOf heap tensors ptr = layersOf heap' tensors ptr :=
  List.map_congr_left fun id _ => by rw [(h id).desc]

/-- What the loop over some buffers makes of what is collected. -/
structure Collects (needInputCopy : Bool) (l : List ℕ) (c c' : Collected) : Prop where
  heap : ∀ id, SameTensors (c.heap id) (c'.heap id)
  tensors : c'.cOutputTensors = c.cOutputTensors ++ outputs c.heap l
  layers : c'.cOutputLayers = c.cOutputLayers ++ layersOf c.heap (outputs c.heap l) fun id => (c.heap id).bufBase
  batchSize : c'.batchSize = maxBatch c.heap c.batchSize (handedOn needInputCopy c.heap l)

variable {c c' c'' : Collected} {id : ℕ} {l : List ℕ}

theorem sameTensors_modify {f : BatchBuf → BatchBuf} (h : SameTensors (c.heap id) (f (c.heap id))) (j : ℕ) :
    SameTensors (c.heap j) ((c.modify id f).heap j) := by
  show SameTensors (c.heap j) (Function.update c.heap id (f (c.heap id)) j)
  by_cases hj : j = id
  · subst hj
    rwa [Function.update_self]
  · rw [Function.update_of_ne hj]
    exact .refl _

theorem takeBatchSize_spec (hpos : 1 ≤ c.batchSize) (id : ℕ) :
    (∀ j, SameTensors (c.heap j) ((c.takeBatchSize id).heap j)) ∧
      (c.takeBatchSize id).cOutputTensors = c.cOutputTensors ∧ (c.takeBatchSize id).cOutputLayers = c.cOutputLayers ∧
      (c.takeBatchSize id).batchSize = max (c.heap id).slices c.batchSize := by
  unfold Collected.takeBatchSize RefBatchBuffer.slices
  split
  · rename_i hzero
    refine ⟨fun j => sameTensors_modify ⟨rfl, rfl, ?_⟩ j, rfl, rfl, ?_⟩
    · show max (c.heap id).batchSize 1 = max 1 1
      omega
    · show c.batchSize = max (max (c.heap id).batchSize 1) c.batchSize
      omega
  · refine ⟨fun j => .refl _, rfl, rfl, ?_⟩
    show max (c.heap id).batchSize c.batchSize = max (max (c.heap id).batchSize 1) c.batchSize
    omega

theorem collect_spec (hpos : 1 ≤ c.batchSize) (id : ℕ) :
    ∃ c', collect needInputCopy c id = some c' ∧ Collects needInputCopy [id] c c' := by
  unfold collect
  by_cases hprivate : isPrivateTensor (c.heap id).desc.name = true
  · refine ⟨_, if_pos hprivate, fun _ => .refl _, ?_, ?_, ?_⟩
    · simp [outputs, hprivate, Collected.addBuf]
    · simp [outputs, hprivate, Collected.addBuf, layersOf]
    · simp [handedOn, hprivate, Collected.addBuf, maxBatch]
  · rw [if_neg hprivate]
    obtain ⟨d, hd⟩ : ∃ d, d = c.modify id fun buf => { buf with attaches := [] } := ⟨_, rfl⟩
    have hsame : ∀ j, SameTensors (c.heap j) (d.heap j) := hd ▸ fun j => sameTensors_modify ⟨rfl, rfl, rfl⟩ j
    have htensors : d.cOutputTensors = c.cOutputTensors := hd ▸ rfl
    have hlayers : d.cOutputLayers = c.cOutputLayers := hd ▸ rfl
    have hbatch : d.batchSize = c.batchSize := hd ▸ rfl
    rw [← hd]
    by_cases hinput : (c.heap id).desc.isInput = true
    · have hout : outputs c.heap [id] = [] := by simp [outputs, hinput]
      have hinput' : (d.heap id).desc.isInput = true := by rw [← (hsame id).desc, hinput]
      simp only [hinput', if_true]
      cases needInputCopy with
      | false =>
        refine ⟨_, rfl, hsame, ?_, ?_, ?_⟩
        · rw [hout, List.append_nil, htensors]
        · rw [hout, layersOf, List.map_nil, List.append_nil, hlayers]
        · simp [handedOn, hinput, maxBatch, hbatch]
      | true =>
        obtain ⟨hsame', htensors', hlayers', hbatch'⟩ := takeBatchSize_spec (hbatch ▸ hpos) id
        refine ⟨_, rfl, fun j => (hsame j).trans (hsame' j), ?_, ?_, ?_⟩
        · rw [hout, List.append_nil, ← htensors, ← htensors']
          rfl
        · rw [hout, layersOf, List.map_nil, List.append_nil, ← hlayers, ← hlayers']
          rfl
        · simp [handedOn, hprivate, maxBatch, Collected.addBuf, hbatch', hbatch, (hsame id).slices]
    · have hout : outputs c.heap [id] = [id] := by simp [outputs, hinput, hprivate]
      have hinput' : ¬(d.heap id).desc.isInput = true := by rwa [← (hsame id).desc]
      have hadd : d.addOutput id = some { d with
          cOutputLayers := d.cOutputLayers ++ [toCapiLayerInfo (d.heap id).desc (d.heap id).bufBase]
          cOutputTensors := d.cOutputTensors ++ [id] } := by
        rw [Collected.addOutput, RefBatchBuffer.getBufPtr_zero]
        rfl
      rw [if_neg hinput', hadd]
      obtain ⟨e, he⟩ : ∃ e, e = { d with
        cOutputLayers := d.cOutputLayers ++ [toCapiLayerInfo (d.heap id).desc (d.heap id).bufBase]
        cOutputTensors := d.cOutputTensors ++ [id] } := ⟨_, rfl⟩
      rw [← he]
      have heap_e : e.heap = d.heap := he ▸ rfl
      obtain ⟨hsame', htensors', hlayers', hbatch'⟩ := takeBatchSize_spec (c := e) (by rw [he]; exact hbatch ▸ hpos) id
      refine ⟨_, rfl, fun j => (hsame j).trans (heap_e ▸ hsame' j), ?_, ?_, ?_⟩
      · rw [hout, ← htensors]
        exact htensors'.trans (he ▸ rfl)
      · rw [hout, ← hlayers]
        refine hlayers'.trans ?_
        rw [he, layersOf, List.map_singleton, (hsame id).desc, (hsame id).bufBase]
      · have hbatch_e : e.batchSize = c.batchSize := by rw [he]; exact hbatch
        simp [handedOn, hinput, hprivate, maxBatch, Collected.addBuf, hbatch', hbatch_e, heap_e, (hsame id).slices]

theorem outputs_cons (heap : ℕ → BatchBuf) (id : ℕ) (l : List ℕ) :
    outputs heap (id :: l) = outputs heap [id] ++ outputs heap l :=
  List.filter_append [id] l

theorem handedOn_cons (heap : ℕ → BatchBuf) (id : ℕ) (l : List ℕ) :
    handedOn needInputCopy heap (id :: l) = handedOn needInputCopy heap [id] ++ handedOn needInputCopy heap l :=
  List.filter_append [id] l

theorem Collects.cons (h : Collects needInputCopy [id] c c') (h' : Collects needInputCopy l c' c'') :
    Collects needInputCopy (id :: l) c c'' where
  heap := fun j => (h.heap j).trans (h'.heap j)
  tensors := by
    rw [h'.tensors, h.tensors, outputs_cons c.heap id l, ← outputs_congr h.heap, List.append_assoc]
  layers := by
    have hptr : (fun id => (c'.heap id).bufBase) = fun id => (c.heap id).bufBase :=
      funext fun j => (h.heap j).bufBase.symm
    rw [h'.layers, h.layers, outputs_cons c.heap id l, ← outputs_congr h.heap, hptr, ← layersOf_congr h.heap, List.append_assoc,
      layersOf, layersOf, layersOf, List.map_append]
  batchSize := by
    rw [h'.batchSize, h.batchSize, handedOn_cons c.heap id l, ← handedOn_congr h.heap, ← maxBatch_congr h.heap]
    exact (List.foldl_append ..).symm

theorem le_maxBatch (heap : ℕ → BatchBuf) (batchSize : ℕ) (ids : List ℕ) : batchSize ≤ maxBatch heap batchSize ids := by
  induction ids generalizing batchSize with
  | nil => exact le_rfl
  | cons id ids ih => exact (Nat.le_max_right _ _).trans (ih _)

theorem collects_run (hpos : 1 ≤ c.batchSize) (l : List ℕ) :
    ∃ c', l.foldlM (collect needInputCopy) c = some c' ∧ Collects needInputCopy l c c' := by
  induction l generalizing c with
  | nil => exact ⟨c, rfl, fun _ => .refl _, (List.append_nil _).symm, (List.append_nil _).symm, rfl⟩
  | cons id l ih =>
    obtain ⟨c', hc', hstep⟩ : ∃ c', collect needInputCopy c id = some c' ∧ Collects needInputCopy [id] c c' :=
      collect_spec hpos id
    obtain ⟨c'', hc'', hrun⟩ := ih (hstep.batchSize ▸ hpos.trans (le_maxBatch _ _ _))
    exact ⟨c'', by rw [List.foldlM_cons, hc']; exact hc'', hstep.cons hrun⟩

/-! ### The loop over the frames -/

theorem setBuffers_eq_some {tensors : List ℕ} {i : ℕ} {ptr : ℕ → ℕ} (h : ∀ id ∈ tensors, (heap id).getBufPtr i = some (ptr id))
    (before : ℕ → ℕ) : setBuffers heap i (layersOf heap tensors before) tensors = some (layersOf heap tensors ptr) := by
  induction tensors with
  | nil => rfl
  | cons id tensors ih =>
    obtain ⟨hid, htensors⟩ := List.forall_mem_cons.mp h
    have ih := ih htensors
    unfold layersOf at ih ⊢
    rw [List.map_cons, setBuffers, hid, ih]
    rfl

theorem isSome_of_setBuffers {tensors : List ℕ} {i : ℕ} {before : ℕ → ℕ}
    (h : (setBuffers heap i (layersOf heap tensors before) tensors).isSome) :
    ∀ id ∈ tensors, ((heap id).getBufPtr i).isSome := by
  induction tensors with
  | nil => exact fun _ hid => absurd hid List.not_mem_nil
  | cons id tensors ih =>
    unfold layersOf at h ih
    rw [List.map_cons, setBuffers] at h
    cases hid : (heap id).getBufPtr i with
    | none =>
      rw [hid] at h
      cases h
    | some buffer =>
      rw [hid] at h
      refine List.forall_mem_cons.mpr ⟨by rw [hid]; rfl, ih ?_⟩
      cases hrest : setBuffers heap i (tensors.map fun id => toCapiLayerInfo (heap id).desc (before id)) tensors with
      | none =>
        rw [hrest] at h
        cases h
      | some rest => rfl

/-- The loop parses the layers of the frames one after the other. -/
theorem fillFrames_eq {fill : List NvDsInferLayerInfo → Except NvDsInferStatus ρ} {tensors : List ℕ} {ptr : ℕ → ℕ → ℕ}
    {left i : ℕ} (h : ∀ j < left, ∀ id ∈ tensors, (heap id).getBufPtr (i + j) = some (ptr (i + j) id)) (before : ℕ → ℕ)
    (output : List ρ) :
    (∃ j < left, ∃ e, fill (layersOf heap tensors (ptr (i + j))) = .error e ∧
      fillFrames fill heap tensors left i (layersOf heap tensors before) output = some (.error e)) ∨
    ∃ rets, rets.length = left ∧
      (∀ (j : ℕ) (hj : j < rets.length), fill (layersOf heap tensors (ptr (i + j))) = .ok rets[j]) ∧
      fillFrames fill heap tensors left i (layersOf heap tensors before) output = some (.ok (output ++ rets)) := by
  induction left generalizing i before output with
  | zero => exact .inr ⟨[], rfl, fun _ hj => absurd hj (Nat.not_lt_zero _), by rw [List.append_nil]; rfl⟩
  | succ left ih =>
    have hfirst : ∀ id ∈ tensors, (heap id).getBufPtr i = some (ptr i id) := h 0 (Nat.succ_pos _)
    have hrest : ∀ j < left, ∀ id ∈ tensors, (heap id).getBufPtr (i + 1 + j) = some (ptr (i + 1 + j) id) := fun j hj => by
      rw [Nat.add_right_comm]
      exact h (j + 1) (Nat.succ_lt_succ hj)
    rw [fillFrames, setBuffers_eq_some hfirst]
    dsimp only
    cases hfill : fill (layersOf heap tensors (ptr i)) with
    | error e => exact .inl ⟨0, Nat.succ_pos _, e, hfill, rfl⟩
    | ok ret =>
      rcases ih hrest (ptr i) (output ++ [ret]) with ⟨j, hj, e, herror, hrun⟩ | ⟨rets, hlen, hrets, hrun⟩
      · refine .inl ⟨j + 1, Nat.succ_lt_succ hj, e, ?_, hrun⟩
        rwa [Nat.add_right_comm] at herror
      · refine .inr ⟨ret :: rets, by rw [List.length_cons, hlen], fun j hj => ?_, ?_⟩
        · cases j with
          | zero => exact hfill
          | succ j =>
            have hj := hrets j (Nat.lt_of_succ_lt_succ hj)
            rwa [Nat.add_right_comm] at hj
        · refine hrun.trans ?_
          rw [List.append_assoc, List.singleton_append]

/-- A parser that takes everything sees all tensors that are looked for. -/
theorem isSome_of_fillFrames {tensors : List ℕ} {left i : ℕ} {before : ℕ → ℕ} {output : List (List NvDsInferLayerInfo)}
    (h : (fillFrames .ok heap tensors left i (layersOf heap tensors before) output).isSome) :
    ∀ j < left, ∀ id ∈ tensors, ((heap id).getBufPtr (i + j)).isSome := by
  induction left generalizing i before output with
  | zero => exact fun j hj => absurd hj (Nat.not_lt_zero j)
  | succ left ih =>
    rw [fillFrames] at h
    have hset : (setBuffers heap i (layersOf heap tensors before) tensors).isSome := by
      cases hset : setBuffers heap i (layersOf heap tensors before) tensors with
      | none =>
        rw [hset] at h
        cases h
      | some layers => rfl
    have hfirst := isSome_of_setBuffers hset
    have hptr : ∀ id ∈ tensors, (heap id).getBufPtr i = some (((heap id).getBufPtr i).getD 0) := fun id hid => by
      obtain ⟨p, hp⟩ := Option.isSome_iff_exists.mp (hfirst id hid)
      rw [hp]
      rfl
    rw [setBuffers_eq_some hptr] at h
    intro j hj
    cases j with
    | zero => exact hfirst
    | succ j =>
      have hrest := ih h j (Nat.lt_of_succ_lt_succ hj)
      rwa [Nat.add_right_comm] at hrest

/-! ### The whole function -/

/-- With all tensors found, every frame gets its result. -/
theorem batchParse_spec (p : Postprocessor ρ) (outBufs : List ℕ) {tensors : List ℕ} {n : ℕ} {ptr : ℕ → ℕ → ℕ}
    (h : ∀ i < n, ∀ id ∈ tensors, (heap id).getBufPtr i = some (ptr i id)) (before : ℕ → ℕ) :
    (∃ i < n, ∃ e, p.fill (layersOf heap tensors (ptr i)) = .error e ∧
      p.batchParse heap outBufs (layersOf heap tensors before) tensors n = some (.error e)) ∨
    ∃ parsed, parsed.frames.length = n ∧
      (∀ (i : ℕ) (hi : i < parsed.frames.length), ∃ ret,
        p.fill (layersOf heap tensors (ptr i)) = .ok ret ∧ parsed.frames[i] = p.result ret) ∧
      p.batchParse heap outBufs (layersOf heap tensors before) tensors n = some (.ok parsed) := by
  have hfound : ∀ j < n, ∀ id ∈ tensors, (heap id).getBufPtr (0 + j) = some (ptr (0 + j) id) := by simpa using h
  have hloop := @fillFrames_eq ρ heap p.fill tensors ptr n 0 hfound before []
  simp only [Nat.zero_add, List.nil_append] at hloop
  unfold Postprocessor.batchParse
  rcases hloop with ⟨i, hi, e, herror, hrun⟩ | ⟨rets, hlen, hrets, hrun⟩
  · exact .inl ⟨i, hi, e, herror, by rw [hrun]; rfl⟩
  · right
    rw [hrun]
    cases hkind : p.kind with
    | detect =>
      refine ⟨⟨rets, []⟩, hlen, fun i hi => ⟨rets[i], hrets i hi, ?_⟩, rfl⟩
      exact (if_neg (by rw [hkind]; decide)).symm
    | classify =>
      refine ⟨⟨rets.map p.finalize, []⟩, by rw [List.length_map, hlen], fun i hi => ?_, rfl⟩
      rw [List.length_map] at hi
      refine ⟨rets[i], hrets i hi, ?_⟩
      rw [List.getElem_map]
      exact (if_pos hkind).symm
    | segment =>
      refine ⟨_, hlen, fun i hi => ⟨rets[i], hrets i hi, ?_⟩, rfl⟩
      exact (if_neg (by rw [hkind]; decide)).symm

/-- The loop over the frames, entered with what was collected. -/
theorem postHostImpl_eq (p : Postprocessor ρ) {inBufList : List ℕ} (hne : outputs heap inBufList ≠ []) :
    ∃ heap' outBufs before, (∀ id, SameTensors (heap id) (heap' id)) ∧
      postHostImpl p heap inBufList = (p.batchParse heap' outBufs (layersOf heap' (outputs heap inBufList) before)
        (outputs heap inBufList) (greatestBatch p.needInputCopy heap inBufList)).map fun output =>
          output.map fun output => ⟨heap', outBufs, some output⟩ := by
  obtain ⟨c, hrun, hc⟩ : ∃ c, inBufList.foldlM (collect p.needInputCopy) { heap := heap } = some c ∧
      Collects p.needInputCopy inBufList { heap := heap } c := collects_run le_rfl inBufList
  refine ⟨c.heap, c.outBufs, fun id => (heap id).bufBase, hc.heap, ?_⟩
  have hlayers : c.cOutputLayers = layersOf c.heap (outputs heap inBufList) fun id => (heap id).bufBase := by
    rw [hc.layers, layersOf_congr hc.heap]
    exact List.nil_append _
  have hnonempty : c.cOutputLayers ≠ [] := by
    rw [hlayers, layersOf, ne_eq, List.map_eq_nil_iff]
    exact hne
  have htensors : c.cOutputTensors = outputs heap inBufList := by
    rw [hc.tensors]
    exact List.nil_append _
  rw [postHostImpl, hrun]
  dsimp only
  rw [if_neg hnonempty, hlayers, htensors, hc.batchSize]
  rfl

theorem MeetsWhen.meets {inBufList : List ℕ} (h : MeetsWhen needInputCopy heap inBufList) :
    Meets needInputCopy heap inBufList := by
  intro hne ρ p hp
  subst hp
  obtain ⟨heap', outBufs, before, hsame, hpost⟩ := postHostImpl_eq p hne
  have hptr : ∀ i < greatestBatch p.needInputCopy heap inBufList, ∀ id ∈ outputs heap inBufList,
      (heap' id).getBufPtr i = some ((heap id).slicePtr i) := by
    intro i hi id hid
    obtain ⟨hslices, hstring, hfit⟩ := h id hid
    rw [← hslices] at hi
    rw [← (hsame id).getBufPtr]
    refine RefBatchBuffer.getBufPtr_eq_some.mpr ⟨RefBatchBuffer.inBatch_iff.mpr ⟨hi, ?_⟩, ?_⟩
    · rcases Nat.eq_zero_or_pos i with hzero | hpos
      · exact .inl hzero
      · exact .inr (hstring (Nat.lt_of_le_of_lt hpos hi))
    · have hle : (heap id).desc.elementSize * (heap id).desc.dims.numElements * i ≤
          (heap id).desc.elementSize * (heap id).desc.dims.numElements * ((heap id).slices - 1) :=
        Nat.mul_le_mul_left _ (Nat.le_sub_one_of_lt hi)
      rw [RefBatchBuffer.sliceOffset, Nat.mod_eq_of_lt (Nat.lt_of_le_of_lt hle hfit)]
      rfl
  have hspec := batchParse_spec p outBufs hptr before
  simp only [← layersOf_congr hsame] at hspec hpost
  rcases hspec with ⟨i, hi, e, herror, hparse⟩ | ⟨parsed, hlen, hframes, hparse⟩
  · exact ⟨.error e, by rw [hpost, hparse]; rfl, _, fun id hid => (h id hid).1, i, hi, herror⟩
  · exact ⟨.ok ⟨heap', outBufs, some parsed⟩, by rw [hpost, hparse]; rfl, _, fun id hid => (h id hid).1, parsed, rfl,
      hlen, hframes⟩

/-- Takes every frame and keeps what it was given. -/
def echo (needInputCopy : Bool) : Postprocessor (List NvDsInferLayerInfo) where
  kind := .detect
  needInputCopy := needInputCopy
  fill := .ok
  finalize := fun ret => ret

/-- Every tensor is found where the frame has it. -/
theorem Meets.getBufPtr {inBufList : List ℕ} (h : Meets needInputCopy heap inBufList) (hne : outputs heap inBufList ≠ []) :
    ∀ id ∈ outputs heap inBufList, (heap id).slices = greatestBatch needInputCopy heap inBufList ∧
      ∀ i < (heap id).slices, (heap id).getBufPtr i = some ((heap id).slicePtr i) := by
  obtain ⟨out, hout, n, hslices, hright⟩ := h hne (echo needInputCopy) rfl
  obtain ⟨heap', outBufs, before, hsame, hpost⟩ := postHostImpl_eq (echo needInputCopy) hne
  obtain ⟨parsed?, hparse⟩ : ∃ parsed?, (echo needInputCopy).batchParse heap' outBufs
      (layersOf heap' (outputs heap inBufList) before) (outputs heap inBufList)
      (greatestBatch needInputCopy heap inBufList) = some parsed? := by
    cases hparse : (echo needInputCopy).batchParse heap' outBufs (layersOf heap' (outputs heap inBufList) before)
        (outputs heap inBufList) (greatestBatch needInputCopy heap inBufList) with
    | none =>
      rw [hpost, show greatestBatch (echo needInputCopy).needInputCopy heap inBufList =
        greatestBatch needInputCopy heap inBufList from rfl, hparse] at hout
      cases hout
    | some parsed => exact ⟨parsed, rfl⟩
  have hfound : ∀ i < greatestBatch needInputCopy heap inBufList, ∀ id ∈ outputs heap inBufList,
      (heap' id).getBufPtr i = some (((heap' id).getBufPtr i).getD 0) := by
    intro i hi id hid
    have hloop : (fillFrames .ok heap' (outputs heap inBufList) (greatestBatch needInputCopy heap inBufList) 0
        (layersOf heap' (outputs heap inBufList) before) []).isSome := by
      unfold Postprocessor.batchParse at hparse
      obtain ⟨_, hrun, -⟩ := Option.map_eq_some_iff.mp hparse
      exact Option.isSome_iff_exists.mpr ⟨_, hrun⟩
    have hrun := isSome_of_fillFrames hloop i hi id hid
    rw [Nat.zero_add] at hrun
    obtain ⟨ptr, hptr⟩ := Option.isSome_iff_exists.mp hrun
    rw [hptr]
    rfl
  rcases batchParse_spec (echo needInputCopy) outBufs hfound before with ⟨i, -, e, herror, -⟩ | ⟨parsed, hlen, hframes, hrun⟩
  · cases herror
  · rw [hpost, show greatestBatch (echo needInputCopy).needInputCopy heap inBufList =
      greatestBatch needInputCopy heap inBufList from rfl, hrun] at hout
    obtain rfl := Option.some.inj hout
    obtain ⟨parsed', hparsed', hlen', hright⟩ := hright
    obtain rfl := Option.some.inj hparsed'
    rw [hlen] at hlen'
    subst hlen'
    intro id hid
    refine ⟨hslices id hid, fun i hi => ?_⟩
    rw [hslices id hid] at hi
    obtain ⟨ret, hret, hframe⟩ := hframes i (by rw [hlen]; exact hi)
    obtain ⟨ret', hret', hframe'⟩ := hright i (by rw [hlen]; exact hi)
    -- the parser has seen the layers of the frame
    have hlayers : layersOf heap' (outputs heap inBufList) (fun id => ((heap' id).getBufPtr i).getD 0) =
        frameLayers heap (outputs heap inBufList) i := by
      rw [Except.ok.inj hret, Except.ok.inj hret']
      exact hframe.symm.trans hframe'
    have hbuffer := congrArg NvDsInferLayerInfo.buffer (List.map_inj_left.mp
      ((layersOf_congr hsame _ _).trans hlayers) id hid)
    rw [(hsame id).getBufPtr, hfound i hi id hid]
    exact congrArg some hbuffer

theorem Meets.meetsWhen {inBufList : List ℕ} (h : Meets needInputCopy heap inBufList) :
    MeetsWhen needInputCopy heap inBufList := by
  intro id hid
  obtain ⟨hslices, hptr⟩ := h.getBufPtr (List.ne_nil_of_mem hid) id hid
  have hpos : 0 < (heap id).slices := Nat.lt_of_lt_of_le Nat.zero_lt_one (Nat.le_max_right _ _)
  refine ⟨hslices, fun hmany => ?_, ?_⟩
  · have hin := (RefBatchBuffer.getBufPtr_eq_some.mp (hptr 1 hmany)).1
    exact (RefBatchBuffer.inBatch_iff.mp hin).2.resolve_left Nat.one_ne_zero
  · have hlast := (RefBatchBuffer.getBufPtr_eq_some.mp (hptr ((heap id).slices - 1) (Nat.sub_lt hpos Nat.zero_lt_one))).2
    have hoffset := Nat.add_left_cancel hlast
    rw [RefBatchBuffer.sliceOffset] at hoffset
    rw [← hoffset]
    exact Nat.mod_lt _ (Nat.two_pow_pos 32)

/-- Every frame is parsed from its slices exactly when the output tensors agree on the number of frames, and the
slices of all frames can be found. -/
theorem hostPost_meets_iff (needInputCopy : Bool) (heap : ℕ → BatchBuf) (inBufList : List ℕ) :
    Meets needInputCopy heap inBufList ↔ MeetsWhen needInputCopy heap inBufList :=
  ⟨Meets.meetsWhen, MeetsWhen.meets⟩

/-- A tensor of two frames, and one that has not been de-batched. -/
def mixedBatches (id : ℕ) : BatchBuf where
  bufBase := 1000 * id
  bufOffset := 0
  bufBytes := 16
  desc := ⟨.cpu, 0, .fp32, ⟨[2], 2⟩, 4, "output", false⟩
  batchSize := if id = 0 then 2 else 0

/-- Frame 1 is looked for in the tensor that has one frame. -/
theorem not_meets_mixedBatches : ¬Meets false mixedBatches [0, 1] := by
  intro h
  have houtputs : outputs mixedBatches [0, 1] = [0, 1] := by decide
  have hslices := fun id hid => (h.getBufPtr (by rw [houtputs]; decide) id hid).1
  rw [houtputs] at hslices
  have hfirst : (mixedBatches 0).slices = _ := hslices 0 (by decide)
  have hsecond : (mixedBatches 1).slices = _ := hslices 1 (by decide)
  exact absurd (hfirst.trans hsecond.symm) (by decide)

end HostPost
end InferServer
end DeepStream
