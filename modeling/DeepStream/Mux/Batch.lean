/-
# The batch policy of the stream muxer

`BatchPolicy` decides which sources a batch takes its buffers from: sources are
grouped by priority, and `formBatch` goes through the groups and through the
sources of a group, from where the last batch was filled when the method is
round robin, and offers each source to `updateWithSource` until the batch is
ready.

The list of priorities and the multimap of the sources are lists, an iterator
into them is a position; reading at the end of one has no result. The wall
clock and the synchronization interface are read through `OfferEnv`, one for
each offer.
-/
import DeepStream.Lib.Table
import DeepStream.Mux.Pads

namespace DeepStream
namespace Mux

open Std

/-- The properties of a source that batching reads. -/
structure NvStreammuxSourceProps where
  priority : ℕ
  maxNumFramesPerBatch : ℕ
  priority_lt : priority < 2 ^ 32 := by decide

inductive NvStreammuxBatchMethod where
  | none | roundRobin | priority
  deriving DecidableEq, Repr

/-- `sourceProps` is in the order in which the map is traversed. -/
structure BatchPolicyConfig where
  type : NvStreammuxBatchMethod
  adaptiveBatching : Bool
  batchSize : ℕ
  maxSameSourceFrames : ℕ
  enableSourceRateControl : Bool
  enableMaxFpsControl : Bool
  sourceProps : List (ℕ × NvStreammuxSourceProps)
  nodup : (sourceProps.map Prod.fst).Nodup := by decide

/-- `find` in the properties. -/
def BatchPolicyConfig.find (config : BatchPolicyConfig) (sourceId : ℕ) :
    Option NvStreammuxSourceProps :=
  config.sourceProps.lookup sourceId

theorem not_mem_of_lookup_eq_none {α β : Type*} [DecidableEq α] {l : List (α × β)} {a : α}
    (h : l.lookup a = none) : a ∉ l.map Prod.fst := by
  rw [List.lookup_eq_none_iff] at h
  simp only [List.mem_map, not_exists, not_and]
  exact fun x hx hxa => by simpa [hxa] using h x hx

structure LastBatchState where
  priorityListPosition : ℕ
  sourceMapPosition : ℕ
  deriving DecidableEq, Repr

/-- `numSources`: how many buffers to copy from each source. -/
structure Batch where
  numSources : TreeMap ℕ ℤ
  accBatch : ℕ
  batchSize : ℕ

namespace Batch

/-- The constructor. -/
def new (size : ℕ) : Batch := ⟨∅, 0, size⟩

def setSize (b : Batch) (size : ℕ) : Batch := { b with batchSize := size }

def resetBatch (b : Batch) : Batch := { b with numSources := ∅, accBatch := 0 }

end Batch

/-- `SortedList::sorted_insert`. -/
def sortedInsert (store : List ℕ) (newVal : ℕ) : List ℕ :=
  match store with
  | [] => [newVal]
  | x :: xs => if x > newVal then newVal :: x :: xs else go (x :: xs)
where
  /-- The walk to the first element that is not smaller. -/
  go : List ℕ → List ℕ
    | [] => [newVal]
    | x :: xs => if x < newVal then x :: go xs else if x ≠ newVal then newVal :: x :: xs else x :: xs

/-- Insertion into a multimap: after the elements with the same key. -/
def multimapInsert (l : List (ℤ × ℕ)) (key : ℤ) (v : ℕ) : List (ℤ × ℕ) :=
  match l with
  | [] => [(key, v)]
  | e :: l => if key < e.1 then (key, v) :: e :: l else e :: multimapInsert l key v

/-- `equal_range(key).first`. -/
def lowerBound (l : List (ℤ × ℕ)) (key : ℤ) : ℕ := (l.takeWhile fun e => decide (e.1 < key)).length

/-- `equal_range(key).second`. -/
def upperBound (l : List (ℤ × ℕ)) (key : ℤ) : ℕ := (l.takeWhile fun e => decide (e.1 ≤ key)).length

def defaultSourceGroupPriority : ℕ := 0

def defaultSourceGroupMaxFramesPerBatch : ℕ := 1

/-- The properties of a source that has none in the configuration. -/
def defaultSourceProps : NvStreammuxSourceProps where
  priority := defaultSourceGroupPriority
  maxNumFramesPerBatch := defaultSourceGroupMaxFramesPerBatch

/-- The state that batching reads. `srcPushTimes` holds the sources with a
recorded push; the times themselves are read through `OfferEnv.clockAllowed`. -/
structure BatchPolicy where
  config : BatchPolicyConfig
  priorityList : List ℕ
  sources : List (ℤ × ℕ)
  lastBatchState : LastBatchState
  srcPushTimes : TreeMap ℕ Unit
  numSourcesIdle : ℕ
  numSourcesEos : ℕ
  numSurfacesPerFrame : ℕ
  totalBufAvailable : ℕ
  synchBuffer : Bool

inductive BufferTsStatus where
  | early | ontime | late
  deriving DecidableEq, Repr

/-- What one offer reads from outside: the frames that the time since the last
push allows at the rate of the source, and the answers of the synchronization
interface. -/
structure OfferEnv where
  clockAllowed : ℕ
  synchInfo : BufferWrapper → BufferTsStatus

/-- The map from pad ids to pads; a pad may be null. -/
abbrev Inputs := TreeMap ℕ (Option SinkPad)

/-- The loop of `synchronizeBuffersInPad`: the queue that is left, the number
of buffers on time and the number of late buffers erased. -/
def synchronizeQueue (synchInfo : BufferWrapper → BufferTsStatus) :
    ℕ → List QueueEntry → List QueueEntry × ℕ × ℕ
  | _, [] => ([], 0, 0)
  | 0, entry :: q => (entry :: q, 0, 0)
  | n + 1, .event e :: q =>
    let r := synchronizeQueue synchInfo (n + 1) q
    (.event e :: r.1, r.2)
  | n + 1, .buffer b :: q =>
    match synchInfo b with
    | .early => (.buffer b :: q, 0, 0)
    -- a late buffer is discarded and one more may be checked
    | .late =>
      let r := synchronizeQueue synchInfo (n + 1) q
      (r.1, r.2.1, r.2.2 + 1)
    | .ontime =>
      let r := synchronizeQueue synchInfo n q
      (.buffer b :: r.1, r.2.1 + 1, r.2.2)

/-- `synchronize_buffers_in_pad`: the pad without its late buffers and the
number of buffers on time. -/
def synchronizeBuffersInPad (pad : SinkPad) (allowedBuffers : ℕ)
    (synchInfo : BufferWrapper → BufferTsStatus) : SinkPad × ℕ :=
  let r := synchronizeQueue synchInfo allowedBuffers pad.queue
  (SinkPad.popBufferDone^[r.2.2] { pad with queue := r.1 }, r.2.1)

def isReady (b : Batch) : Bool := b.accBatch = b.batchSize ∧ b.batchSize ≠ 0

namespace BatchPolicy

/-- The constructor. `ids` are the keys of the inputs in the order in which
they are traversed. -/
def new (config : BatchPolicyConfig) (ids : List ℕ) : BatchPolicy :=
  let configured := config.sourceProps.foldl
    (fun (acc : List ℕ × List (ℤ × ℕ)) e =>
      (sortedInsert acc.1 e.2.priority, multimapInsert acc.2 (toInt32 e.2.priority) e.1)) ([], [])
  let all := ids.foldl
    (fun (acc : List ℕ × List (ℤ × ℕ)) id =>
      if acc.2.any fun e => e.2 = id then acc
      else (sortedInsert acc.1 defaultSourceGroupPriority,
        multimapInsert acc.2 (toInt32 defaultSourceGroupPriority) id)) configured
  { config := config
    priorityList := all.1
    sources := all.2
    lastBatchState := ⟨0, 0⟩
    srcPushTimes := ∅
    numSourcesIdle := 0
    numSourcesEos := 0
    numSurfacesPerFrame := 1
    totalBufAvailable := 0
    synchBuffer := false }

def checkAndUpdateDefaults (p : BatchPolicy) (sourceId : ℕ) : BatchPolicy :=
  if p.sources.any fun e => e.2 = sourceId then p
  else
    { p with
      sources := multimapInsert p.sources (toInt32 defaultSourceGroupPriority) sourceId
      priorityList := sortedInsert p.priorityList defaultSourceGroupPriority
      config :=
        match h : p.config.find sourceId with
        | some _ => p.config
        | none =>
          { p.config with
            sourceProps := p.config.sourceProps ++ [(sourceId, defaultSourceProps)]
            nodup := by
              rw [List.map_append, List.nodup_append_comm]
              exact List.nodup_cons.mpr ⟨not_mem_of_lookup_eq_none h, p.config.nodup⟩ } }

@[simp] theorem checkAndUpdateDefaults_numSourcesEos (p : BatchPolicy) (sourceId : ℕ) :
    (p.checkAndUpdateDefaults sourceId).numSourcesEos = p.numSourcesEos := by
  unfold checkAndUpdateDefaults
  split <;> rfl

@[simp] theorem checkAndUpdateDefaults_synchBuffer (p : BatchPolicy) (sourceId : ℕ) :
    (p.checkAndUpdateDefaults sourceId).synchBuffer = p.synchBuffer := by
  unfold checkAndUpdateDefaults
  split <;> rfl

def updateIdleSources (p : BatchPolicy) (idleCount : ℕ) : BatchPolicy :=
  { p with numSourcesIdle := idleCount }

def updateEosSources (p : BatchPolicy) (eosCount : ℕ) : BatchPolicy :=
  { p with numSourcesEos := eosCount }

def setNumSurfaces (p : BatchPolicy) (num : ℕ) : BatchPolicy := { p with numSurfacesPerFrame := num }

def setBatchSize (p : BatchPolicy) (size : ℕ) : BatchPolicy :=
  { p with config := { p.config with batchSize := size } }

def updatePushStats (p : BatchPolicy) (sourceId : ℕ) : BatchPolicy :=
  if p.config.enableSourceRateControl then
    { p with srcPushTimes := p.srcPushTimes.insert sourceId () }
  else p

@[simp] theorem updatePushStats_numSourcesEos (p : BatchPolicy) (sourceId : ℕ) :
    (p.updatePushStats sourceId).numSourcesEos = p.numSourcesEos := by
  unfold updatePushStats
  split <;> rfl

@[simp] theorem updatePushStats_synchBuffer (p : BatchPolicy) (sourceId : ℕ) :
    (p.updatePushStats sourceId).synchBuffer = p.synchBuffer := by
  unfold updatePushStats
  split <;> rfl

def getAllowed (p : BatchPolicy) (sourceId clockAllowed available : ℕ) : ℕ :=
  if p.config.enableSourceRateControl then
    if sourceId ∈ p.srcPushTimes then
      if clockAllowed > available then available else clockAllowed
    else available
  else available

/-- `size` is `inputs->size()`. -/
def getBatchSize (p : BatchPolicy) (size : ℕ) : ℕ :=
  if p.config.adaptiveBatching then
    (wrapSub 64 size p.numSourcesEos * p.numSurfacesPerFrame) % 2 ^ 64 % 2 ^ 32
  else p.config.batchSize

def checkRepeatsPerBatch (p : BatchPolicy) : ℕ := p.config.maxSameSourceFrames

def checkRepeatsPerBatchOf (p : BatchPolicy) (size sourceId : ℕ) : ℕ :=
  let batchSizeVal := p.getBatchSize size
  match p.config.find sourceId with
  | none =>
    if batchSizeVal > defaultSourceGroupMaxFramesPerBatch then batchSizeVal
    else defaultSourceGroupMaxFramesPerBatch
  | some props =>
    if batchSizeVal > props.maxNumFramesPerBatch then batchSizeVal else props.maxNumFramesPerBatch

/-- `allowed_repeats` of `updateWithSource`. -/
def allowedRepeats (p : BatchPolicy) (size sourceId : ℕ) : ℕ :=
  if p.checkRepeatsPerBatch ≤ p.checkRepeatsPerBatchOf size sourceId then p.checkRepeatsPerBatch
  else p.checkRepeatsPerBatchOf size sourceId

/-- `num_to_insert` before synchronization. -/
def numToInsert (p : BatchPolicy) (size sourceId : ℕ) (pad : SinkPad) (batch : Batch)
    (clockAllowed : ℕ) : ℕ :=
  let numAvail := p.getAllowed sourceId clockAllowed pad.getAvailable
  let numAvail := if numAvail ≤ p.allowedRepeats size sourceId then numAvail
    else p.allowedRepeats size sourceId
  let remaining := wrapSub 32 batch.batchSize batch.accBatch
  if numAvail ≥ remaining then remaining else numAvail

def updateWithSource (p : BatchPolicy) (inputs : Inputs) (batch : Batch) (sourceId : ℕ)
    (env : OfferEnv) : Inputs × Batch :=
  match inputs[sourceId]? with
  | some (some pad) =>
    let numSources := Table.touch batch.numSources sourceId 0
    if numSources.getD sourceId 0 = toInt32 (p.allowedRepeats inputs.size sourceId) then
      (inputs, { batch with numSources := numSources })
    else
      let n := p.numToInsert inputs.size sourceId pad batch env.clockAllowed
      let synced := synchronizeBuffersInPad pad n env.synchInfo
      let n := if p.synchBuffer then synced.2 else n
      (if p.synchBuffer then inputs.insert sourceId (some synced.1) else inputs,
        { batch with
          numSources := numSources.insert sourceId (toInt32 n)
          accBatch := wrapAdd 32 batch.accBatch n })
  | _ => (inputs, batch)

/-- What the loops of `formBatch` change; `offered` records the sources offered
so far, in order. -/
structure FormState where
  inputs : Inputs
  batch : Batch
  offered : List ℕ

/-- One offer. -/
def offer (p : BatchPolicy) (env : ℕ → OfferEnv) (st : FormState) (sourceId : ℕ) : FormState :=
  let r := p.updateWithSource st.inputs st.batch sourceId (env st.offered.length)
  ⟨r.1, r.2, st.offered ++ [sourceId]⟩

/-- The loop over the sources of one priority, between the positions `first`
and `last` of the multimap; `n` is `sources_to_process`. The result has the
`source_index` that the loop ends with. -/
def sourceLoop (p : BatchPolicy) (env : ℕ → OfferEnv) (first last : ℕ) :
    ℕ → ℕ → ℕ → FormState → Option (FormState × ℕ)
  | n, index, sourceIndex, st =>
    match p.sources[index]? with
    | none => none
    | some (_, sourceId) =>
      let st := p.offer env st sourceId
      let index' := if index + 1 = last then first else index + 1
      let sourceIndex' := if index + 1 = last then 0 else sourceIndex + 1
      match n with
      | 0 => some (st, sourceIndex')
      | m + 1 =>
        if 0 < m ∧ ¬ isReady st.batch then sourceLoop p env first last m index' sourceIndex' st
        else some (st, sourceIndex')

/-- The loop over the priorities; `n` is `priorities_to_process`, and
`jumpSource` says that the first group is entered at the saved position. -/
def priorityLoop (p : BatchPolicy) (env : ℕ → OfferEnv) :
    ℕ → ℕ → ℕ → Bool → FormState → Option (FormState × LastBatchState)
  | 0, _, _, _, _ => none
  | n + 1, priorIt, priorityIndex, jumpSource, st =>
    match p.priorityList[priorIt]? with
    | none => none
    | some priority =>
      let first := lowerBound p.sources (toInt32 priority)
      let last := upperBound p.sources (toInt32 priority)
      let jump := jumpSource ∧ p.config.type = .roundRobin
      let toAdvance := if jump then p.lastBatchState.sourceMapPosition else 0
      match p.sourceLoop env first last (last - first) (first + toAdvance) toAdvance st with
      | none => none
      | some (st, sourceIndex) =>
        if isReady st.batch then some (st, ⟨priorityIndex, sourceIndex⟩)
        else
          let wrap := priorIt + 1 = p.priorityList.length
          let priorIt' := if wrap then 0 else priorIt + 1
          let priorityIndex' := if wrap then 0 else priorityIndex + 1
          if n = 0 then some (st, ⟨priorityIndex', sourceIndex⟩)
          else priorityLoop p env n priorIt' priorityIndex' (jumpSource ∧ ¬ jump) st

/-- `form_batch`: the policy with the position for the next batch, the inputs
and the batch, and the sources that were offered. No result when an iterator
is read at the end of its container. -/
def formBatch (p : BatchPolicy) (inputs : Inputs) (batch : Option Batch) (thisBatchSize : ℕ)
    (env : ℕ → OfferEnv) : Option (BatchPolicy × FormState) :=
  let retBatch := match batch with
    | none => (Batch.new thisBatchSize).resetBatch
    | some b => (b.setSize thisBatchSize).resetBatch
  let toAdvance := if p.config.type = .roundRobin then p.lastBatchState.priorityListPosition else 0
  let priorIt := if toAdvance = p.priorityList.length then 0 else toAdvance
  (p.priorityLoop env p.priorityList.length priorIt toAdvance true ⟨inputs, retBatch, []⟩).map
    fun r => ({ p with lastBatchState := r.2 }, r.1)

end BatchPolicy
end Mux
end DeepStream
