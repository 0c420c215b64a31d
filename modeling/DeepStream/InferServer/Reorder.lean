/-
# Results of the Triton backend in the order of the requests

`TrtISBackend::enqueue` sends a request to the Triton server and then queues its
reorder item; the server completes requests in any order, on threads of its own,
and each completion sets the promise of its item. The reorder thread waits for the
items one after the other and runs their `inferenceDone`.

The Triton server is not in the repository: which of its calls fail, when it
completes a request and with which response is chosen with the step. It completes
each request it has taken once, and the outputs of a response are those that were
requested (`Backend.Answers`). A call of `enqueue` is named by its number;
`returned`, `responses` and `done` record what happened.
-/
import DeepStream.InferServer.QueueThread
import DeepStream.Lib.Inevitable
import Mathlib.Data.Int.Notation
import Mathlib.Data.List.Dedup

namespace DeepStream
namespace InferServer

/-! ### Buffers and layers -/

inductive NvDsInferStatus where
  | success | invalidParams | tritonError | cudaError
  deriving DecidableEq, Repr

inductive InferDataType where
  | fp32 | fp16 | int8 | int32 | int16 | uint8 | uint16 | uint32 | int64 | uint64 | string | bool
  deriving DecidableEq, Repr

/-- `IBatchBuffer` with its description; `data` stands for the memory it refers to. -/
structure BatchBuf where
  name : String
  dataType : InferDataType
  dims : List ℤ
  batchSize : ℕ
  data : ℕ
  deriving DecidableEq, Repr

structure BatchArray where
  bufs : List BatchBuf
  bufId : ℕ := 0
  options : Option ℕ := none
  deriving DecidableEq, Repr

structure LayerDescription where
  name : String
  dataType : InferDataType
  inferDims : List ℤ
  isInput : Bool
  deriving DecidableEq, Repr

/-- `INFER_SERVER_PRIVATE_BUF`. -/
def privateBuf : String := "@@NvInferServer"

def isPrivateTensor (name : String) : Bool := name.startsWith privateBuf

def hasWildcard (dims : List ℤ) : Bool := dims.any (· ≤ -1)

def fullDims (batch : ℕ) (dims : List ℤ) : List ℤ := if batch = 0 then dims else (batch : ℤ) :: dims

def squeezeMatch (a b : List ℤ) : Bool := a.filter (· ≠ 1) == b.filter (· ≠ 1)

def reshapeBuf (buf : BatchBuf) (batch : ℕ) (reshape : List ℤ) : BatchBuf :=
  { buf with dims := reshape, batchSize := batch }

/-- `debatchingOutput` from buffer to buffer: a full shape without dimensions ends the loop. -/
def debatchBufs (inBatch : ℕ) : List BatchBuf → List BatchBuf
  | [] => []
  | buf :: bufs =>
    if isPrivateTensor buf.name ∨ buf.batchSize ≠ 0 then buf :: debatchBufs inBatch bufs
    else
      match buf.dims with
      | [] => buf :: bufs
      | d :: ds =>
        if (d % 4294967296).toNat ≠ inBatch then buf :: debatchBufs inBatch bufs
        else { buf with dims := ds, batchSize := inBatch } :: debatchBufs inBatch bufs

/-- What the server answers: no response, one that is an error or cannot be read, or
the outputs that `TrtServerResponse::parse` finds in it. -/
inductive Response where
  | null
  | failed
  | outputs (options : Option ℕ) (bufs : List BatchBuf)
  deriving DecidableEq, Repr

/-- The settings of a backend. A model has an output layer. -/
structure Backend where
  keepInputs : Bool
  maxBatchSize : ℕ
  layers : List LayerDescription
  output : ∃ l ∈ layers, l.isInput = false

namespace Backend

variable (b : Backend)

def isNonBatching : Bool := b.maxBatchSize = 0

def getLayerInfo (name : String) : Option LayerDescription := b.layers.find? (·.name = name)

/-- `requestTritonOutputNames`, a set of names. -/
def outputNames : List String := ((b.layers.filter (·.isInput = false)).map (·.name)).dedup

/-- `ensureInputs`: every buffer is an input of the model, in a shape it can take. -/
def ensureInputs (inputs : List BatchBuf) : Option (List BatchBuf) :=
  inputs.mapM fun buf =>
    match b.getLayerInfo buf.name with
    | none => none
    | some layer =>
      if layer.isInput then
        let bufDim := fullDims buf.batchSize buf.dims
        let modelDim := fullDims b.maxBatchSize layer.inferDims
        if bufDim.length = modelDim.length then some buf
        else if squeezeMatch bufDim modelDim then some (reshapeBuf buf b.maxBatchSize layer.inferDims)
        else some buf
      else none

/-- An output as the model describes it; a tensor that is none of the model's is skipped. -/
def knownOutput (buf : BatchBuf) : Option BatchBuf :=
  if isPrivateTensor buf.name then some buf
  else (b.getLayerInfo buf.name).map fun layer =>
    { buf with dataType := layer.dataType, dims := if hasWildcard buf.dims then layer.inferDims else buf.dims }

/-- What `serverInferCompleted` hands to `asyncDone`. -/
def serverInferCompleted (bufId : ℕ) : Response → NvDsInferStatus × Option BatchArray
  | .null => (.tritonError, none)
  | .failed => (.tritonError, none)
  | .outputs options bufs =>
    let outputs := bufs.filterMap b.knownOutput
    (.success, if outputs = [] then none else some { bufs := outputs, bufId := bufId, options := options })

/-- `debatchingOutput`; `none` if it follows a null pointer. -/
def debatchingOutput (inputs : BatchArray) (outputs : Option BatchArray) : Option (Option BatchArray) :=
  match inputs.bufs with
  | [] => none
  | buf :: _ =>
    if buf.batchSize = 0 then some outputs
    else outputs.map fun out => some { out with bufs := debatchBufs buf.batchSize out.bufs }

/-- What `inferenceDoneReorderLoop` hands to `inferenceDone`; `none` if it follows a
null pointer. -/
def inferenceDoneReorderLoop (inputs : BatchArray) (status : NvDsInferStatus) (outputs : Option BatchArray) :
    Option (NvDsInferStatus × Option BatchArray) := do
  let outputs ←
    if b.keepInputs ∧ status = .success then outputs.map fun out => some { out with bufs := inputs.bufs ++ out.bufs }
    else some outputs
  let outputs ← if b.isNonBatching ∧ status = .success then debatchingOutput inputs outputs else some outputs
  return (status, outputs)

/-- The outputs of a response are those that were requested. -/
def Answers : Response → Prop
  | .outputs _ bufs => bufs.length = b.outputNames.length ∧
      ∀ buf ∈ bufs, isPrivateTensor buf.name ∨ buf.name ∈ b.outputNames
  | _ => True

instance : DecidablePred b.Answers
  | .outputs _ _ => inferInstanceAs (Decidable (_ ∧ _))
  | .null => inferInstanceAs (Decidable True)
  | .failed => inferInstanceAs (Decidable True)

end Backend

/-! ### The backend and its threads -/

/-- `result` is empty until the promise is set. -/
structure ReorderItem where
  inputs : BatchArray
  result : Option (NvDsInferStatus × Option BatchArray) := none
  deriving DecidableEq, Repr

structure Done where
  call : ℕ
  status : NvDsInferStatus
  outputs : Option BatchArray
  deriving DecidableEq, Repr

structure TrtISBackend where
  items : List ReorderItem := []
  queueing : Option ℕ := none
  inFlight : List ℕ := []
  reorderThread : QueueThread ℕ := {}
  returned : List (ℕ × NvDsInferStatus) := []
  responses : List (ℕ × Response) := []
  done : List Done := []
  deriving DecidableEq, Repr

namespace TrtISBackend

inductive Action where
  | enqueue (inputs : BatchArray) (synced created sent : Bool)
  | queueItem
  | complete (call : ℕ) (r : Response)
  | pop
  | ran
  deriving DecidableEq, Repr

variable (b : Backend) (s : TrtISBackend)

/-- A call of `enqueue` that fails after it got the number `n`. -/
def fails (inputs : BatchArray) (status : NvDsInferStatus) : TrtISBackend :=
  { s with items := s.items ++ [{ inputs := inputs }], returned := s.returned ++ [(s.items.length, status)] }

/-- `enqueue` up to the return of `Run`. -/
def enqueue (inputs : BatchArray) (synced created sent : Bool) : TrtISBackend :=
  if synced = false then s.fails inputs .cudaError
  else
    match b.ensureInputs inputs.bufs with
    | none => s.fails inputs .invalidParams
    | some bufs =>
      if created = false ∨ sent = false then s.fails { inputs with bufs := bufs } .tritonError
      else { s with items := s.items ++ [{ inputs := { inputs with bufs := bufs } }],
                    queueing := some s.items.length, inFlight := s.inFlight ++ [s.items.length] }

def step (s : TrtISBackend) : Action → Option TrtISBackend
  | .enqueue inputs synced created sent =>
    if s.queueing = none ∧ inputs.bufs ≠ [] then some (s.enqueue b inputs synced created sent) else none
  | .queueItem =>
    s.queueing.map fun n =>
      { s with queueing := none, reorderThread := s.reorderThread.queueItem n,
               returned := s.returned ++ [(n, .success)] }
  | .complete n r =>
    if n ∈ s.inFlight then
      s.items[n]?.map fun item =>
        { s with inFlight := s.inFlight.erase n, responses := s.responses ++ [(n, r)],
                 items := s.items.set n { item with result := some (b.serverInferCompleted item.inputs.bufId r) } }
    else none
  | .pop => s.reorderThread.pop.map fun q => { s with reorderThread := q }
  | .ran =>
    s.reorderThread.items.running.bind fun n => s.items[n]?.bind fun item => item.result.bind fun (status, outputs) =>
      (b.inferenceDoneReorderLoop item.inputs status outputs).bind fun (status, outputs) =>
        (s.reorderThread.ran true).map fun q =>
          { s with reorderThread := q, done := s.done ++ [⟨n, status, outputs⟩] }

def Started (s : TrtISBackend) : Prop := s = {}

/-- The server answers with what it was asked for. -/
def Served (_ : TrtISBackend) : Action → Prop
  | .complete _ r => b.Answers r
  | _ => True

instance (a : Action) : Decidable (s.Served b a) :=
  match a with
  | .complete _ r => inferInstanceAs (Decidable (b.Answers r))
  | .enqueue _ _ _ _ | .queueItem | .pop | .ran => inferInstanceAs (Decidable True)

/-- The calls that returned success, in their order. -/
def accepted : List ℕ := (s.returned.filter (·.2 = .success)).map (·.1)

/-- The callback had the outputs of its own request. -/
def Own (d : Done) : Prop :=
  ∃ item r, s.items[d.call]? = some item ∧ (d.call, r) ∈ s.responses ∧
    b.inferenceDoneReorderLoop item.inputs (b.serverInferCompleted item.inputs.bufId r).1
      (b.serverInferCompleted item.inputs.bufId r).2 = some (d.status, d.outputs)

/-- What the property says of a state. -/
structure Delivers (b : Backend) (s : TrtISBackend) : Prop where
  once : s.accepted.Nodup
  ordered : s.done.map (·.call) <+: s.accepted
  own : ∀ d ∈ s.done, s.Own b d
  answered : (s.responses.map (·.1)).Nodup
  failed : ∀ p ∈ s.returned, p.2 ≠ .success → p.1 ∉ s.done.map (·.call)
  goesOn : s.reorderThread.items.line ≠ [] → (s.reorderThread.items.running = none → (s.step b .pop).isSome) ∧
    ∀ n ∈ s.reorderThread.items.running, n ∈ s.inFlight ∨ (s.step b .ran).isSome
  complete : s.reorderThread.items.line = [] → s.done.map (·.call) = s.accepted

end TrtISBackend

/-! ### What a completion makes of a response -/

namespace Backend

variable {b : Backend}

theorem ensureInputs_ne_nil {inputs bufs : List BatchBuf} (h : b.ensureInputs inputs = some bufs)
    (hne : inputs ≠ []) : bufs ≠ [] := by
  rcases inputs with _ | ⟨buf, rest⟩
  · exact absurd rfl hne
  · unfold ensureInputs at h
    rw [List.mapM_cons] at h
    obtain ⟨buf', -, h⟩ := Option.bind_eq_some_iff.mp h
    obtain ⟨rest', -, h⟩ := Option.bind_eq_some_iff.mp h
    obtain rfl := Option.some.inj h
    exact List.cons_ne_nil _ _

theorem outputNames_ne_nil : b.outputNames ≠ [] := by
  obtain ⟨l, hl, hout⟩ := b.output
  refine List.ne_nil_of_mem (a := l.name) (List.mem_dedup.mpr (List.mem_map_of_mem ?_))
  exact List.mem_filter.mpr ⟨hl, by simpa using hout⟩

theorem isSome_getLayerInfo {name : String} (h : name ∈ b.outputNames) : (b.getLayerInfo name).isSome := by
  obtain ⟨l, hl, rfl⟩ := List.mem_map.mp (List.mem_dedup.mp h)
  exact List.find?_isSome.mpr ⟨l, (List.mem_filter.mp hl).1, by simp⟩

theorem isSome_knownOutput {buf : BatchBuf} (h : isPrivateTensor buf.name ∨ buf.name ∈ b.outputNames) :
    (b.knownOutput buf).isSome := by
  unfold knownOutput
  split
  · rfl
  · rename_i hpub
    rw [Option.isSome_map]
    exact isSome_getLayerInfo (h.resolve_left hpub)

/-- A response that can be read leaves outputs. -/
theorem exists_outputs {options : Option ℕ} {bufs : List BatchBuf} (h : b.Answers (.outputs options bufs)) (bufId : ℕ) :
    ∃ out, b.serverInferCompleted bufId (.outputs options bufs) = (.success, some out) := by
  obtain ⟨hlen, hnames⟩ := h
  have hne : bufs ≠ [] := by
    intro hnil
    rw [hnil] at hlen
    exact outputNames_ne_nil (List.length_eq_zero_iff.mp hlen.symm)
  obtain ⟨buf, hbuf⟩ := List.exists_mem_of_ne_nil _ hne
  obtain ⟨out, hout⟩ := Option.isSome_iff_exists.mp (isSome_knownOutput (hnames buf hbuf))
  have hsome : bufs.filterMap b.knownOutput ≠ [] := List.ne_nil_of_mem (List.mem_filterMap.mpr ⟨buf, hbuf, hout⟩)
  exact ⟨_, Prod.ext rfl (if_neg hsome)⟩

/-- The reorder thread follows no null pointer. -/
theorem isSome_reorderLoop {inputs : BatchArray} (hin : inputs.bufs ≠ []) {r : Response} (hr : b.Answers r) :
    (b.inferenceDoneReorderLoop inputs (b.serverInferCompleted inputs.bufId r).1
      (b.serverInferCompleted inputs.bufId r).2).isSome := by
  have herror : (b.inferenceDoneReorderLoop inputs .tritonError none).isSome := by
    simp [inferenceDoneReorderLoop]
  rcases r with _ | _ | ⟨options, bufs⟩
  · exact herror
  · exact herror
  · obtain ⟨out, hout⟩ := exists_outputs hr inputs.bufId
    obtain ⟨buf, rest, hbufs⟩ := List.exists_cons_of_ne_nil hin
    rw [hout]
    unfold inferenceDoneReorderLoop debatchingOutput
    rw [hbufs]
    by_cases hkeep : b.keepInputs <;> by_cases hbatch : b.isNonBatching <;> by_cases h0 : buf.batchSize = 0 <;>
      simp [hkeep, hbatch, h0]

end Backend

/-! ### The invariant -/

namespace TrtISBackend

variable {b : Backend} {s s' : TrtISBackend}

/-- The server took the request of the call. -/
def Taken (s : TrtISBackend) (n : ℕ) : Prop := n ∈ s.accepted ∨ s.queueing = some n

/-- The promise of the item `n` is set with the response, or the server still has the request. -/
def Promised (b : Backend) (s : TrtISBackend) (n : ℕ) (item : ReorderItem) : Prop :=
  (n ∈ s.inFlight ∧ item.result = none) ∨
    ∃ r, (n, r) ∈ s.responses ∧ b.Answers r ∧ item.result = some (b.serverInferCompleted item.inputs.bufId r)

structure Inv (b : Backend) (s : TrtISBackend) : Prop where
  returned : ∀ p ∈ s.returned, p.1 < s.items.length ∧ s.queueing ≠ some p.1
  once : (s.returned.map (·.1)).Nodup
  history : s.reorderThread.items.history = s.accepted
  finished : s.done.map (·.call) = s.reorderThread.items.finished
  items : ∀ n, s.Taken n → ∃ item, s.items[n]? = some item ∧ item.inputs.bufs ≠ [] ∧ s.Promised b n item
  inFlight : s.inFlight.Nodup ∧ ∀ n ∈ s.inFlight, s.Taken n ∧ n ∉ s.responses.map (·.1)
  answered : (s.responses.map (·.1)).Nodup ∧ ∀ p ∈ s.responses, p.1 < s.items.length
  running : s.reorderThread.exited = false ∧ s.reorderThread.wakeup = false
  own : ∀ d ∈ s.done, s.Own b d

theorem mem_accepted {n : ℕ} : n ∈ s.accepted ↔ (n, .success) ∈ s.returned := by
  unfold accepted
  constructor
  · intro h
    obtain ⟨⟨m, status⟩, hp, rfl⟩ := List.mem_map.mp h
    obtain ⟨hmem, hstatus⟩ := List.mem_filter.mp hp
    obtain rfl : status = .success := by simpa using hstatus
    exact hmem
  · intro h
    exact List.mem_map.mpr ⟨_, List.mem_filter.mpr ⟨h, by simp⟩, rfl⟩

namespace Inv

theorem accepted_nodup (h : s.Inv b) : s.accepted.Nodup :=
  h.once.sublist (List.filter_sublist.map _)

/-- The item that the reorder thread waits for is set once the server has answered. -/
theorem ran_isSome (h : s.Inv b) {n : ℕ} (hrun : s.reorderThread.items.running = some n) (hn : n ∉ s.inFlight) :
    (s.step b .ran).isSome := by
  have hacc : n ∈ s.accepted := h.history ▸ Fifo.mem_history_of_running hrun
  obtain ⟨item, hitem, hne, hpromised⟩ := h.items n (.inl hacc)
  obtain ⟨r, -, hr, hresult⟩ := hpromised.resolve_left fun hin => hn hin.1
  obtain ⟨out, hout⟩ := Option.isSome_iff_exists.mp (Backend.isSome_reorderLoop hne hr)
  simp [step, hrun, hitem, hresult, hout, QueueThread.ran, Fifo.finish]

theorem pop_isSome (h : s.Inv b) (hnone : s.reorderThread.items.running = none)
    (hline : s.reorderThread.items.line ≠ []) : (s.step b .pop).isSome := by
  have hwait : s.reorderThread.items.waiting ≠ [] := by simpa [Fifo.line, hnone] using hline
  obtain ⟨n, rest, hn⟩ := List.exists_cons_of_ne_nil hwait
  simp [step, QueueThread.pop, h.running, hnone, Fifo.take, hn]

theorem delivers (h : s.Inv b) : s.Delivers b := by
  have hfirst : s.done.map (·.call) <+: s.accepted := by
    rw [h.finished, ← h.history]
    exact Fifo.finished_prefix
  refine ⟨h.accepted_nodup, hfirst, h.own, h.answered.1, fun p hp hfail hdone => ?_,
    fun hline => ⟨fun hnone => h.pop_isSome hnone hline, fun n hn => ?_⟩, fun hline => ?_⟩
  · have hsucc : (p.1, .success) ∈ s.returned := mem_accepted.mp (hfirst.subset hdone)
    have heq := List.inj_on_of_nodup_map h.once hp hsucc rfl
    exact hfail (congrArg Prod.snd heq)
  · by_cases hin : n ∈ s.inFlight
    · exact .inl hin
    · exact .inr (h.ran_isSome hn hin)
  · rw [h.finished, ← h.history, Fifo.history, hline, List.append_nil]

/-! ### The steps -/

theorem own_mono {d : Done} (h : s.Own b d) (hresp : s.responses ⊆ s'.responses)
    (hitems : ∀ (n : ℕ) (item : ReorderItem), s.items[n]? = some item →
      ∃ item' : ReorderItem, s'.items[n]? = some item' ∧ item'.inputs = item.inputs) :
    s'.Own b d := by
  obtain ⟨item, r, hitem, hr, hout⟩ := h
  obtain ⟨item', hitem', hinputs⟩ := hitems _ _ hitem
  exact ⟨item', r, hitem', hresp hr, hinputs ▸ hout⟩

/-- A call gets the next number. -/
theorem getElem?_items {n : ℕ} {item : ReorderItem} (h : s.items[n]? = some item) (new : ReorderItem) :
    (s.items ++ [new])[n]? = some item := by
  rw [List.getElem?_append_left (List.getElem?_eq_some_iff.mp h).1]
  exact h

theorem fails (h : s.Inv b) (inputs : BatchArray) {status : NvDsInferStatus} (hfail : status ≠ .success)
    (hidle : s.queueing = none) : (s.fails inputs status).Inv b := by
  have hacc : (s.fails inputs status).accepted = s.accepted := by
    simp [accepted, TrtISBackend.fails, hfail]
  have hlen : (s.fails inputs status).items.length = s.items.length + 1 := by simp [TrtISBackend.fails]
  have htaken : ∀ n, (s.fails inputs status).Taken n ↔ s.Taken n := by
    intro n
    unfold Taken
    rw [hacc]
    rfl
  constructor
  · intro p hp
    refine ⟨?_, by simp [TrtISBackend.fails, hidle]⟩
    rw [hlen]
    rcases List.mem_append.mp hp with hp | hp
    · have := (h.returned p hp).1
      omega
    · rw [List.mem_singleton.mp hp]
      exact Nat.lt_succ_self _
  · show ((s.returned ++ [(s.items.length, status)]).map (·.1)).Nodup
    rw [List.map_append]
    refine h.once.append (List.nodup_singleton _) ?_
    rw [List.map_singleton, List.disjoint_singleton]
    intro hin
    obtain ⟨p, hp, heq⟩ := List.mem_map.mp hin
    exact absurd (h.returned p hp).1 (by omega)
  · rw [hacc]
    exact h.history
  · exact h.finished
  · intro n hn
    obtain ⟨item, hitem, hrest⟩ := h.items n ((htaken n).mp hn)
    exact ⟨item, getElem?_items hitem _, hrest⟩
  · exact ⟨h.inFlight.1, fun n hn => ⟨(htaken n).mpr (h.inFlight.2 n hn).1, (h.inFlight.2 n hn).2⟩⟩
  · refine ⟨h.answered.1, fun p hp => ?_⟩
    rw [hlen]
    have := h.answered.2 p hp
    omega
  · exact h.running
  · exact fun d hd => own_mono (h.own d hd) (List.Subset.refl _) fun n item hn => ⟨item, getElem?_items hn _, rfl⟩

/-- The server takes the request of a call. -/
theorem sent (h : s.Inv b) {inputs : BatchArray} (hne : inputs.bufs ≠ []) (hidle : s.queueing = none) :
    Inv b { s with items := s.items ++ [{ inputs := inputs }],
                   queueing := some s.items.length, inFlight := s.inFlight ++ [s.items.length] } := by
  have hnew : ∀ n, s.Taken n → n < s.items.length := by
    intro n hn
    obtain ⟨item, hitem, -⟩ := h.items n hn
    exact (List.getElem?_eq_some_iff.mp hitem).1
  have hnot : ∀ n, ¬ s.queueing = some n := by simp [hidle]
  constructor
  · intro p hp
    have hlt := (h.returned p hp).1
    refine ⟨by simp; omega, fun heq => ?_⟩
    have : s.items.length = p.1 := Option.some.inj heq
    omega
  · exact h.once
  · exact h.history
  · exact h.finished
  · intro n hn
    rcases hn with hn | hn
    · obtain ⟨item, hitem, hbufs, hpromised⟩ := h.items n (.inl hn)
      refine ⟨item, getElem?_items hitem _, hbufs, ?_⟩
      rcases hpromised with ⟨hin, hnone⟩ | hset
      · exact .inl ⟨List.mem_append_left _ hin, hnone⟩
      · exact .inr hset
    · obtain rfl : s.items.length = n := Option.some.inj hn
      exact ⟨_, List.getElem?_concat_length .., hne, .inl ⟨by simp, rfl⟩⟩
  · constructor
    · refine h.inFlight.1.append (List.nodup_singleton _) (List.disjoint_singleton.mpr fun hin => ?_)
      exact absurd (hnew _ (h.inFlight.2 _ hin).1) (Nat.lt_irrefl _)
    · intro n hn
      rcases List.mem_append.mp hn with hn | hn
      · obtain ⟨htaken, hanswered⟩ := h.inFlight.2 n hn
        exact ⟨.inl (htaken.resolve_right (hnot n)), hanswered⟩
      · rw [List.mem_singleton.mp hn]
        refine ⟨.inr rfl, fun hin => ?_⟩
        obtain ⟨p, hp, heq⟩ := List.mem_map.mp hin
        exact absurd (h.answered.2 p hp) (by omega)
  · refine ⟨h.answered.1, fun p hp => ?_⟩
    have := h.answered.2 p hp
    simp only [List.length_append, List.length_singleton]
    omega
  · exact h.running
  · exact fun d hd => own_mono (h.own d hd) (List.Subset.refl _) fun n item hn => ⟨item, getElem?_items hn _, rfl⟩

theorem enqueue (h : s.Inv b) {inputs : BatchArray} (hne : inputs.bufs ≠ []) (hidle : s.queueing = none)
    (synced created sent : Bool) : (s.enqueue b inputs synced created sent).Inv b := by
  unfold TrtISBackend.enqueue
  split
  · exact h.fails _ (by decide) hidle
  · split
    · exact h.fails _ (by decide) hidle
    · rename_i bufs hbufs
      split
      · exact h.fails _ (by decide) hidle
      · exact h.sent (Backend.ensureInputs_ne_nil hbufs hne) hidle

/-- The call queues its item and returns. -/
theorem queued (h : s.Inv b) {n : ℕ} (hn : s.queueing = some n) :
    Inv b { s with queueing := none, reorderThread := s.reorderThread.queueItem n,
                   returned := s.returned ++ [(n, .success)] } := by
  have hacc : ∀ t : TrtISBackend, t.returned = s.returned ++ [(n, .success)] → t.accepted = s.accepted ++ [n] := by
    intro t ht
    simp [accepted, ht]
  have htaken : ∀ t : TrtISBackend, t.returned = s.returned ++ [(n, .success)] → t.queueing = none →
      ∀ m, t.Taken m ↔ s.Taken m := by
    intro t ht hq m
    unfold Taken
    rw [hacc t ht, hq, hn, List.mem_append, List.mem_singleton]
    simp [eq_comm]
  obtain ⟨item, hitem, -⟩ := h.items n (.inr hn)
  constructor
  · intro p hp
    refine ⟨?_, by simp⟩
    rcases List.mem_append.mp hp with hp | hp
    · exact (h.returned p hp).1
    · rw [List.mem_singleton.mp hp]
      exact (List.getElem?_eq_some_iff.mp hitem).1
  · show ((s.returned ++ [(n, NvDsInferStatus.success)]).map (·.1)).Nodup
    rw [List.map_append]
    refine h.once.append (List.nodup_singleton _) (List.disjoint_singleton.mpr fun hin => ?_)
    obtain ⟨p, hp, rfl⟩ := List.mem_map.mp hin
    exact (h.returned p hp).2 hn
  · rw [hacc _ rfl, QueueThread.history_queueItem, h.history]
  · exact h.finished
  · intro m hm
    exact h.items m ((htaken _ rfl rfl m).mp hm)
  · exact ⟨h.inFlight.1, fun m hm => ⟨(htaken _ rfl rfl m).mpr (h.inFlight.2 m hm).1, (h.inFlight.2 m hm).2⟩⟩
  · exact h.answered
  · exact h.running
  · exact h.own

/-- The server answers to a request; its promise was not set before. -/
theorem completed (h : s.Inv b) {n : ℕ} {r : Response} (hr : b.Answers r) (hin : n ∈ s.inFlight) {item : ReorderItem}
    (hitem : s.items[n]? = some item) :
    Inv b { s with inFlight := s.inFlight.erase n, responses := s.responses ++ [(n, r)],
                   items := s.items.set n { item with result := some (b.serverInferCompleted item.inputs.bufId r) } } := by
  have hlt : n < s.items.length := (List.getElem?_eq_some_iff.mp hitem).1
  have hset : ∀ (m : ℕ) (it new : ReorderItem), s.items[m]? = some it → m ≠ n → (s.items.set n new)[m]? = some it := by
    intro m it new hm hne
    rw [List.getElem?_set_ne (Ne.symm hne)]
    exact hm
  constructor
  · intro p hp
    rw [List.length_set]
    exact h.returned p hp
  · exact h.once
  · exact h.history
  · exact h.finished
  · intro m hm
    obtain ⟨it, hit, hne, hpromised⟩ := h.items m hm
    by_cases hmn : m = n
    · subst hmn
      obtain rfl := Option.some.inj (hitem.symm.trans hit)
      refine ⟨_, List.getElem?_set_self hlt, hne, .inr ⟨r, ?_, hr, rfl⟩⟩
      exact List.mem_append_right _ (List.mem_singleton.mpr rfl)
    · refine ⟨it, hset m it _ hit hmn, hne, ?_⟩
      rcases hpromised with ⟨hmem, hnone⟩ | ⟨r', hr', hans, hres⟩
      · exact .inl ⟨(List.mem_erase_of_ne hmn).mpr hmem, hnone⟩
      · exact .inr ⟨r', List.mem_append_left _ hr', hans, hres⟩
  · refine ⟨h.inFlight.1.erase n, fun m hm => ?_⟩
    obtain ⟨htaken, hanswered⟩ := h.inFlight.2 m (List.mem_of_mem_erase hm)
    refine ⟨htaken, ?_⟩
    rw [List.map_append, List.mem_append, not_or]
    refine ⟨hanswered, fun heq => ?_⟩
    obtain rfl : m = n := List.mem_singleton.mp heq
    exact h.inFlight.1.not_mem_erase hm
  · constructor
    · rw [List.map_append]
      exact h.answered.1.append (List.nodup_singleton _) (List.disjoint_singleton.mpr (h.inFlight.2 n hin).2)
    · intro p hp
      rw [List.length_set]
      rcases List.mem_append.mp hp with hp | hp
      · exact h.answered.2 p hp
      · rw [List.mem_singleton.mp hp]
        exact hlt
  · exact h.running
  · refine fun d hd => own_mono (h.own d hd) (List.subset_append_left _ _) fun m it hm => ?_
    by_cases hmn : m = n
    · subst hmn
      obtain rfl := Option.some.inj (hitem.symm.trans hm)
      exact ⟨_, List.getElem?_set_self hlt, rfl⟩
    · exact ⟨it, hset m it _ hm hmn, rfl⟩

/-- The reorder thread takes an item. -/
theorem popped (h : s.Inv b) {q : QueueThread ℕ} (hq : s.reorderThread.pop = some q) :
    Inv b { s with reorderThread := q } := by
  obtain ⟨hhist, hfin, hrunning⟩ := QueueThread.pop_cases hq
  obtain ⟨hexited, hwakeup⟩ := hrunning h.running.2
  exact { h with
    history := hhist.trans h.history
    finished := h.finished.trans hfin.symm
    running := ⟨hexited.trans h.running.1, hwakeup.trans h.running.2⟩ }

/-- The reorder thread has run the callback of an item. -/
theorem ran (h : s.Inv b) {n : ℕ} {item : ReorderItem} {result out : NvDsInferStatus × Option BatchArray}
    (hrun : s.reorderThread.items.running = some n) (hitem : s.items[n]? = some item)
    (hresult : item.result = some result)
    (hout : b.inferenceDoneReorderLoop item.inputs result.1 result.2 = some out)
    {q : QueueThread ℕ} (hq : s.reorderThread.ran true = some q) :
    Inv b { s with reorderThread := q, done := s.done ++ [⟨n, out.1, out.2⟩] } := by
  obtain ⟨m, hm, hexited, hwakeup, hhist, hfin⟩ := QueueThread.ran_cases hq
  obtain rfl : n = m := Option.some.inj (hrun.symm.trans hm)
  have hacc : n ∈ s.accepted := h.history ▸ Fifo.mem_history_of_running hrun
  refine { h with
    history := hhist.trans h.history
    finished := ?_
    running := ⟨hexited, hwakeup.trans h.running.2⟩
    own := fun d hd => ?_ }
  · show (s.done ++ [Done.mk n out.1 out.2]).map (·.call) = q.items.finished
    rw [List.map_append, h.finished, hfin]
    rfl
  · rcases List.mem_append.mp hd with hd | hd
    · exact h.own d hd
    · rw [List.mem_singleton.mp hd]
      obtain ⟨it, hit, -, hpromised⟩ := h.items n (.inl hacc)
      obtain rfl := Option.some.inj (hitem.symm.trans hit)
      rcases hpromised with ⟨-, hnone⟩ | ⟨r, hr, -, hset⟩
      · exact absurd (hnone.symm.trans hresult) (by simp)
      · obtain rfl := Option.some.inj (hset.symm.trans hresult)
        exact ⟨item, r, hitem, hr, hout⟩

theorem step (h : s.Inv b) {a : Action} (hok : s.Served b a) (hs : s.step b a = some s') : s'.Inv b := by
  rcases a with ⟨inputs, synced, created, sent⟩ | _ | ⟨n, r⟩ | _ | _
  · simp only [TrtISBackend.step] at hs
    split at hs
    · rename_i hcond
      obtain rfl := Option.some.inj hs
      exact h.enqueue hcond.2 hcond.1 synced created sent
    · cases hs
  · obtain ⟨n, hn, rfl⟩ := Option.map_eq_some_iff.mp hs
    exact h.queued hn
  · simp only [TrtISBackend.step] at hs
    split at hs
    · rename_i hin
      obtain ⟨item, hitem, rfl⟩ := Option.map_eq_some_iff.mp hs
      exact h.completed hok hin hitem
    · cases hs
  · obtain ⟨q, hq, rfl⟩ := Option.map_eq_some_iff.mp hs
    exact h.popped hq
  · obtain ⟨n, hn, hs⟩ := Option.bind_eq_some_iff.mp hs
    obtain ⟨item, hitem, hs⟩ := Option.bind_eq_some_iff.mp hs
    obtain ⟨result, hresult, hs⟩ := Option.bind_eq_some_iff.mp hs
    obtain ⟨out, hout, hs⟩ := Option.bind_eq_some_iff.mp hs
    obtain ⟨q, hq, rfl⟩ := Option.map_eq_some_iff.mp hs
    exact h.ran hn hitem hresult hout hq

theorem init : Inv b {} := by
  constructor <;> simp [TrtISBackend.accepted, Taken, Fifo.history, Fifo.line]

end Inv

/-- A model with one input and one output, which takes one frame at a time. -/
def oneByOne : Backend where
  keepInputs := true
  maxBatchSize := 0
  layers := [⟨"image", .fp32, [3, 2, 2], true⟩, ⟨"scores", .fp32, [4], false⟩]
  output := ⟨_, List.mem_cons_of_mem _ (List.mem_singleton.mpr rfl), rfl⟩

def frames (data : ℕ) : BatchArray := { bufs := [⟨"image", .fp32, [3, 2, 2], 2, data⟩], bufId := data }

/-- Three calls, the second fails; the server ends the third before the first. -/
def outOfOrder : List Action :=
  [.enqueue (frames 0) true true true, .queueItem, .pop, .enqueue (frames 1) true true false,
   .enqueue (frames 2) true true true, .queueItem, .complete 2 .failed,
   .complete 0 (.outputs none [⟨"scores", .fp32, [2, 4], 0, 7⟩]), .ran, .pop, .ran]

/-- No further call of `enqueue` comes. -/
def Finishing (b : Backend) (s : TrtISBackend) : Action → Prop
  | .enqueue _ _ _ _ => False
  | a => s.Served b a

def todo (s : TrtISBackend) : ℕ :=
  3 * s.queueing.toList.length + s.inFlight.length + s.reorderThread.items.todo

/-- The calls that have returned success or are going to. -/
def taken (s : TrtISBackend) : List ℕ := s.accepted ++ s.queueing.toList

theorem Inv.finishing (h : s.Inv b) {a : Action} (hok : Finishing b s a) (hs : s.step b a = some s') :
    s'.taken = s.taken ∧ s'.todo < s.todo := by
  rcases a with ⟨inputs, synced, created, sent⟩ | _ | ⟨n, r⟩ | _ | _
  · cases hok
  · obtain ⟨n, hn, rfl⟩ := Option.map_eq_some_iff.mp hs
    constructor
    · simp [taken, accepted, hn]
    · simp [todo, hn, QueueThread.queueItem]
      omega
  · simp only [TrtISBackend.step] at hs
    split at hs
    · rename_i hin
      obtain ⟨item, -, rfl⟩ := Option.map_eq_some_iff.mp hs
      have hpos := List.length_pos_of_mem hin
      refine ⟨rfl, ?_⟩
      simp only [todo, List.length_erase_of_mem hin]
      omega
    · cases hs
  · obtain ⟨q, hq, rfl⟩ := Option.map_eq_some_iff.mp hs
    have htodo := QueueThread.todo_pop hq h.running.2
    refine ⟨rfl, ?_⟩
    simp only [todo]
    omega
  · obtain ⟨n, -, hs⟩ := Option.bind_eq_some_iff.mp hs
    obtain ⟨item, -, hs⟩ := Option.bind_eq_some_iff.mp hs
    obtain ⟨result, -, hs⟩ := Option.bind_eq_some_iff.mp hs
    obtain ⟨out, -, hs⟩ := Option.bind_eq_some_iff.mp hs
    obtain ⟨q, hq, rfl⟩ := Option.map_eq_some_iff.mp hs
    have htodo := QueueThread.todo_ran hq
    refine ⟨rfl, ?_⟩
    simp only [todo]
    omega

/-- As long as a call has no callback, one of the threads or the server can go on. -/
theorem Inv.goes_on (h : s.Inv b) (hnot : ¬ (s.inFlight = [] ∧ s.done.map (·.call) = s.taken)) :
    ∃ a, Finishing b s a ∧ (s.step b a).isSome := by
  rcases hin : s.inFlight with _ | ⟨n, rest⟩
  · rcases hq : s.queueing with _ | n
    · have hline : s.reorderThread.items.line ≠ [] := fun hline => hnot ⟨hin, by
        rw [h.delivers.complete hline, taken, hq]
        exact (List.append_nil _).symm⟩
      obtain ⟨hpop, hran⟩ := h.delivers.goesOn hline
      rcases hrun : s.reorderThread.items.running with _ | n
      · exact ⟨.pop, trivial, hpop hrun⟩
      · exact ⟨.ran, trivial, (hran n hrun).resolve_left (by simp [hin])⟩
    · exact ⟨.queueItem, trivial, by simp [TrtISBackend.step, hq]⟩
  · obtain ⟨item, hitem, -⟩ := h.items n (h.inFlight.2 n (by simp [hin])).1
    exact ⟨.complete n .null, trivial, by simp [TrtISBackend.step, hin, hitem]⟩

end TrtISBackend
end InferServer
end DeepStream
