/-
# The loop state of the LSTM controller

`LstmController` keeps the input tensors that an inference reads and that its outputs are
copied into. `waitAndGetInputs` gives them to one inference, `feedbackInputs` queues the
copies on a stream of its own, records an event behind them and frees the tensors; the
copies complete later.

A call that finds the tensors free takes them at once. One that has to wait gives up the
lock to synchronize with the event, and takes the tensors when it has the lock again,
without a second look at who has them. So the copies may still run when a call returns,
and two calls that wake up together both take the tensors.

A section under the lock is one step, and so is each call of CUDA. An inference is named
by who waited for it. A copy whose output the loop state has released by then may find
anything in its buffer. `keepOutputParsing` and the kinds of memory are left out, and
`destroy` is not called.
-/
import DeepStream.InferServer.Reorder
import Mathlib.Data.Fintype.Basic

namespace DeepStream
namespace InferServer
namespace Lstm

open Function (update)

/-! ### Tensors -/

/-- What a tensor that is fed back has to agree in. -/
structure TensorDesc where
  dataType : InferDataType
  dims : List ℤ
  batchSize : ℕ
  deriving DecidableEq, Repr

/-- An output of an inference; `id` is its buffer. -/
structure OutputBuf (α : Type*) where
  name : String
  desc : TensorDesc
  id : ℕ
  data : α
  deriving DecidableEq, Repr

/-- What a `LoopState` has from the configuration: the input tensor and the output that it
is fed with. -/
structure Loop where
  inputName : String
  outputName : String
  inputTensor : TensorDesc
  deriving DecidableEq, Repr

/-- An operation of `m_LstmStream`. -/
inductive Op (α : Type*) where
  | copy (loop : ℕ) (buf : OutputBuf α)
  | record
  deriving DecidableEq, Repr

/-! ### The controller -/

/-- Where an inference is. The event is synchronized with when the stream has completed
`target` operations, and `Updater` sets `m_InProgress` to `ret`. -/
inductive Pc (α : Type*) where
  | idle
  | waiting
  | woken
  | synchronizing (target : ℕ)
  | locking
  | holding
  | feeding (done left : List (OutputBuf α))
  | updating (ret : ℤ) (outputs : List (OutputBuf α))
  deriving DecidableEq, Repr

/-- From the return of `waitAndGetInputs` to that of `feedbackInputs`. -/
def Pc.Holds {α : Type*} : Pc α → Prop
  | .holding | .feeding _ _ | .updating _ _ => True
  | .idle | .waiting | .woken | .synchronizing _ | .locking => False

instance {α : Type*} : ∀ pc : Pc α, Decidable pc.Holds
  | .holding | .feeding _ _ | .updating _ _ => .isTrue trivial
  | .idle | .waiting | .woken | .synchronizing _ | .locking => .isFalse id

/-- `inputs` are the contents of `m_LstmInputs`, `outputs` the `outputTensor` of the loop
states. `completed` counts operations of the stream, and `recorded` is what it will be when
the last record of `m_InputReadyEvent` has completed. `produced` is the state that the
previous inference produced. -/
structure State (T α : Type*) where
  inProgress : ℤ
  inputs : List α
  outputs : List (Option (OutputBuf α))
  stream : List (Op α)
  completed : ℕ
  recorded : ℕ
  pcs : T → Pc α
  produced : List α

inductive Action (T α : Type*) where
  | waitAndGetInputs (t : T)
  /-- The wait ends, and the lock is given up. -/
  | wake (t : T)
  /-- `cudaEventSynchronize` is called. -/
  | synchronize (t : T)
  /-- It returns. -/
  | synchronized (t : T) (ok : Bool)
  /-- The lock is taken again. -/
  | lock (t : T)
  | feedbackInputs (t : T) (outputs : List (OutputBuf α)) (ok : Bool)
  /-- The next output. -/
  | feed (t : T) (ok : Bool)
  | record (t : T) (ok : Bool)
  /-- `Updater` is destroyed. -/
  | update (t : T)
  | notifyError
  /-- The next operation of the stream completes; `reused` is what may be in a buffer. -/
  | complete (reused : α)

/-- `m_LoopStateMap.find`: the first loop with this output, and its number. -/
def loopOf (loops : List Loop) (name : String) : Option (Loop × ℕ) :=
  loops.zipIdx.find? fun p => p.1.outputName == name

/-- What an inference leaves for the input of a loop: the last output of that name. -/
def fedInput {α : Type*} (outputs : List (OutputBuf α)) (l : Loop) (old : α) : α :=
  ((outputs.filter fun b => b.name == l.outputName).getLast?.map OutputBuf.data).getD old

/-- The state that an inference produces. -/
def fed {α : Type*} (loops : List Loop) (old : List α) (outputs : List (OutputBuf α)) : List α :=
  List.zipWith (fedInput outputs) loops old

namespace State

variable {T α : Type*} [DecidableEq T] (loops : List Loop) (s : State T α)

def setPc (t : T) (pc : Pc α) : State T α := { s with pcs := update s.pcs t pc }

theorem setPc_pcs (t : T) (pc : Pc α) : (s.setPc t pc).pcs = update s.pcs t pc := rfl

def appendInputs (t : T) : State T α := { s with inProgress := 1 }.setPc t .holding

/-- `waitAndGetInputs` up to its wait. -/
def waitAndGetInputs (t : T) : State T α :=
  if s.inProgress = 0 then s.appendInputs t else if s.inProgress < 0 then s else s.setPc t .waiting

/-- `waitAndGetInputs` from where it takes the lock again. -/
def lock (t : T) : State T α :=
  let s := { s with outputs := s.outputs.map fun _ => none }
  if s.inProgress < 0 then s.setPc t .idle else s.appendInputs t

/-- The loop body of `feedbackInputs`. -/
def feed (t : T) (ok : Bool) (done left : List (OutputBuf α)) (buf : OutputBuf α) : State T α :=
  match loopOf loops buf.name with
  | none => s.setPc t (.feeding (done ++ [buf]) left)
  | some (l, i) =>
    if l.inputTensor ≠ buf.desc ∨ ok = false then s.setPc t (.updating (-1) done)
    else { s with
        stream := s.stream ++ [Op.copy i buf]
        outputs := s.outputs.set i (some buf) }.setPc t (.feeding (done ++ [buf]) left)

def record (t : T) (ok : Bool) (done : List (OutputBuf α)) : State T α :=
  if ok then { s with
      stream := s.stream ++ [Op.record]
      recorded := s.completed + s.stream.length + 1 }.setPc t (.updating 0 done)
  else s.setPc t (.updating (-1) done)

def update (t : T) (ret : ℤ) (outputs : List (OutputBuf α)) : State T α :=
  { s with
    inProgress := ret
    produced := if ret = 0 then fed loops s.produced outputs else s.produced }.setPc t .idle

def complete (reused : α) : Option (State T α) :=
  match s.stream with
  | [] => none
  | .record :: rest => some { s with stream := rest, completed := s.completed + 1 }
  | .copy i buf :: rest =>
    let kept := (s.outputs[i]?.join.map OutputBuf.id) = some buf.id
    some { s with
      stream := rest
      completed := s.completed + 1
      inputs := s.inputs.set i (if kept then buf.data else reused) }

end State

variable {T α : Type*}

def step [DecidableEq T] (loops : List Loop) (s : State T α) : Action T α → Option (State T α)
  | .waitAndGetInputs t =>
    match s.pcs t with
    | .idle => some (s.waitAndGetInputs t)
    | _ => none
  | .wake t =>
    match s.pcs t with
    | .waiting => if s.inProgress ≤ 0 then some (s.setPc t .woken) else none
    | _ => none
  | .synchronize t =>
    match s.pcs t with
    | .woken => some (s.setPc t (.synchronizing s.recorded))
    | _ => none
  | .synchronized t ok =>
    match s.pcs t with
    | .synchronizing target =>
      if ok = false then some (s.setPc t .idle)
      else if target ≤ s.completed then some (s.setPc t .locking)
      else none
    | _ => none
  | .lock t =>
    match s.pcs t with
    | .locking => some (s.lock t)
    | _ => none
  | .feedbackInputs t outputs ok =>
    match s.pcs t with
    | .holding => some (s.setPc t (if ok then .feeding [] outputs else .updating (-1) []))
    | _ => none
  | .feed t ok =>
    match s.pcs t with
    | .feeding done (buf :: left) => some (s.feed loops t ok done left buf)
    | _ => none
  | .record t ok =>
    match s.pcs t with
    | .feeding done [] => some (s.record t ok done)
    | _ => none
  | .update t =>
    match s.pcs t with
    | .updating ret outputs => some (s.update loops t ret outputs)
    | _ => none
  | .notifyError => some { s with inProgress := -1 }
  | .complete reused => s.complete reused

/-- After `initInputState`: the tensors hold the constants, and the stream is synchronized. -/
def Started (loops : List Loop) (s : State T α) : Prop :=
  ∃ init : List α, init.length = loops.length ∧
    s = ⟨0, init, loops.map fun _ => none, [], 0, 0, fun _ => .idle, init⟩

/-! ### What is wanted, and when it holds -/

def Op.isCopy : Op α → Bool
  | .copy _ _ => true
  | .record => false

/-- At most one inference has the tensors, and one that was given them finds the state that the
previous one produced, with no copy on its way. -/
structure State.Good (s : State T α) : Prop where
  exclusive : ∀ t t', (s.pcs t).Holds → (s.pcs t').Holds → t = t'
  copied : ∀ t, s.pcs t = .holding → ∀ op ∈ s.stream, op.isCopy = false
  inputs : ∀ t, s.pcs t = .holding → s.inputs = s.produced

/-- Who takes the tensors finds the last record of the event completed, and after a wait
nobody has taken them meanwhile. Who finds an error after a wait, and releases the outputs,
does so while no copy is on its way or nobody has the tensors. -/
def StepOk (s : State T α) : Action T α → Prop
  | .waitAndGetInputs _ => s.inProgress = 0 → s.recorded ≤ s.completed
  | .lock _ =>
    (0 ≤ s.inProgress → s.inProgress ≠ 1 ∧ s.recorded ≤ s.completed) ∧
      (s.inProgress < 0 → s.stream = [] ∨ ∀ t, ¬ (s.pcs t).Holds)
  | .wake _ | .synchronize _ | .synchronized _ _ | .feedbackInputs _ _ _ | .feed _ _ | .record _ _ | .update _ | .notifyError
  | .complete _ => True

/-! ### Copies on their way -/

/-- The output that an operation copies into this input. -/
def Op.copyTo (i : ℕ) : Op α → Option (OutputBuf α)
  | .copy j buf => if j = i then some buf else none
  | .record => none

/-- The last copy into this input. -/
def lastCopy (stream : List (Op α)) (i : ℕ) : Option (OutputBuf α) := (stream.filterMap (Op.copyTo i)).getLast?

section Copies

variable {stream : List (Op α)} {buf : OutputBuf α} {inputs next : List α} {outputs : List (Option (OutputBuf α))}

theorem lastCopy_nil (i : ℕ) : lastCopy ([] : List (Op α)) i = none := rfl

theorem lastCopy_append_record (i : ℕ) : lastCopy (stream ++ [.record]) i = lastCopy stream i := by
  simp [lastCopy, Op.copyTo]

theorem lastCopy_append_copy (j i : ℕ) :
    lastCopy (stream ++ [.copy j buf]) i = if j = i then some buf else lastCopy stream i := by
  by_cases h : j = i
  · simp [lastCopy, Op.copyTo, h]
  · simp [lastCopy, Op.copyTo, h]

theorem lastCopy_cons (op : Op α) (i : ℕ) : lastCopy (op :: stream) i = (lastCopy stream i).or (op.copyTo i) := by
  unfold lastCopy
  cases hop : op.copyTo i with
  | none => rw [List.filterMap_cons_none hop, Option.or_none]
  | some b =>
    rw [List.filterMap_cons_some hop, List.getLast?_cons]
    cases (stream.filterMap (Op.copyTo i)).getLast? with
    | none => rfl
    | some _ => rfl

/-- When the stream has completed, the inputs are `next`: the loop states hold the output of the
last copy into each. -/
structure Settles (inputs : List α) (outputs : List (Option (OutputBuf α))) (stream : List (Op α)) (next : List α) :
    Prop where
  length : inputs.length = next.length
  pending : ∀ i b, lastCopy stream i = some b → outputs[i]? = some (some b) ∧ next[i]? = some b.data
  settled : ∀ i, lastCopy stream i = none → inputs[i]? = next[i]?

namespace Settles

theorem of_nil : Settles inputs outputs [] inputs where
  length := rfl
  pending i b hb := by
    rw [lastCopy_nil] at hb
    cases hb
  settled _ _ := rfl

theorem eq_of_nil (h : Settles inputs outputs [] next) : inputs = next :=
  List.ext_getElem? fun i => h.settled i (lastCopy_nil i)

theorem record (h : Settles inputs outputs stream next) : Settles inputs outputs (stream ++ [.record]) next := by
  refine ⟨h.length, fun i b hb => ?_, fun i hi => ?_⟩
  · rw [lastCopy_append_record] at hb
    exact h.pending i b hb
  · rw [lastCopy_append_record] at hi
    exact h.settled i hi

/-- An output is copied into the input `j`, and held by its loop state. -/
theorem copy (h : Settles inputs outputs stream next) {j : ℕ} (hj : j < outputs.length) (hj' : j < next.length) :
    Settles inputs (outputs.set j (some buf)) (stream ++ [.copy j buf]) (next.set j buf.data) := by
  refine ⟨by rw [List.length_set, h.length], fun i b hb => ?_, fun i hi => ?_⟩
  · rw [lastCopy_append_copy] at hb
    split at hb
    · rename_i hij
      subst hij
      cases hb
      exact ⟨List.getElem?_set_self hj, List.getElem?_set_self hj'⟩
    · rename_i hij
      rw [List.getElem?_set_ne hij, List.getElem?_set_ne hij]
      exact h.pending i b hb
  · rw [lastCopy_append_copy] at hi
    split at hi
    · cases hi
    · rename_i hij
      rw [List.getElem?_set_ne hij]
      exact h.settled i hi

/-- The outputs that are released are not needed when nothing is on its way. -/
theorem release {outputs' : List (Option (OutputBuf α))} (h : Settles inputs outputs [] next) :
    Settles inputs outputs' [] next :=
  h.eq_of_nil ▸ of_nil

theorem complete_record (h : Settles inputs outputs (.record :: stream) next) : Settles inputs outputs stream next := by
  have hlast : ∀ i, lastCopy (.record :: stream) i = lastCopy stream i := fun i => by
    rw [lastCopy_cons]
    exact Option.or_none
  refine ⟨h.length, fun i b hb => ?_, fun i hi => ?_⟩
  · exact h.pending i b ((hlast i).trans hb)
  · exact h.settled i ((hlast i).trans hi)

/-- The first copy completes: where it is the last into its input, its output is still held. -/
theorem complete_copy {j : ℕ} (h : Settles inputs outputs (.copy j buf :: stream) next) (reused : α) :
    Settles (inputs.set j (if (outputs[j]?.join.map OutputBuf.id) = some buf.id then buf.data else reused)) outputs
      stream next := by
  refine ⟨by rw [List.length_set, h.length], fun i b hb => ?_, fun i hi => ?_⟩
  · exact h.pending i b (by rw [lastCopy_cons, hb, Option.some_or])
  · by_cases hij : j = i
    · subst hij
      obtain ⟨hheld, hnext⟩ := h.pending j buf (by rw [lastCopy_cons, hi, Option.none_or]; exact if_pos rfl)
      have hlt : j < inputs.length := by
        rw [h.length]
        exact (List.getElem?_eq_some_iff.mp hnext).1
      rw [List.getElem?_set_self hlt, hnext, hheld, Option.join_some, Option.map_some, if_pos rfl]
    · rw [List.getElem?_set_ne hij]
      refine h.settled i ?_
      rw [lastCopy_cons, hi, Option.none_or]
      exact if_neg hij

end Settles

end Copies

/-! ### What is fed back -/

section Fed

variable {loops : List Loop} {old : List α} {outputs : List (OutputBuf α)} {buf : OutputBuf α}

theorem length_fed (h : old.length = loops.length) (outputs : List (OutputBuf α)) :
    (fed loops old outputs).length = old.length := by
  rw [fed, List.length_zipWith, h, Nat.min_self]

theorem fed_nil (h : old.length = loops.length) : fed loops old [] = old := by
  refine List.ext_getElem (length_fed h []) fun i _ _ => ?_
  simp only [fed, List.getElem_zipWith]
  rfl

theorem fedInput_append (outputs : List (OutputBuf α)) (l : Loop) (x : α) :
    fedInput (outputs ++ [buf]) l x = if buf.name = l.outputName then buf.data else fedInput outputs l x := by
  by_cases h : buf.name = l.outputName
  · simp [fedInput, h]
  · simp [fedInput, h]

/-- An output that no loop has is not fed back. -/
theorem fed_append_of_none (h : loopOf loops buf.name = none) : fed loops old (outputs ++ [buf]) = fed loops old outputs := by
  have hne : ∀ i (hi : i < loops.length), buf.name ≠ loops[i].outputName := fun i hi heq => by
    have hno := List.find?_eq_none.mp h (loops[i], i) (List.mk_mem_zipIdx_iff_getElem?.mpr (List.getElem?_eq_getElem hi))
    exact hno (beq_iff_eq.mpr heq.symm)
  refine List.ext_getElem (by simp [fed]) fun i hi _ => ?_
  have hlt : i < loops.length := by
    simp only [fed, List.length_zipWith] at hi
    omega
  simp only [fed, List.getElem_zipWith]
  rw [fedInput_append, if_neg (hne i hlt)]

theorem loopOf_eq_some {name : String} {l : Loop} {i : ℕ} (h : loopOf loops name = some (l, i)) :
    loops[i]? = some l ∧ l.outputName = name :=
  ⟨List.mk_mem_zipIdx_iff_getElem?.mp (List.mem_of_find?_eq_some h),
    beq_iff_eq.mp (List.find?_some (p := fun p : Loop × ℕ => p.1.outputName == name) h)⟩

/-- The loops have outputs of their own, and one output changes the input of its loop only. -/
theorem fed_append_of_some (hdistinct : (loops.map Loop.outputName).Nodup) {l : Loop} {i : ℕ}
    (h : loopOf loops buf.name = some (l, i)) :
    fed loops old (outputs ++ [buf]) = (fed loops old outputs).set i buf.data := by
  obtain ⟨hget, hname⟩ := loopOf_eq_some h
  obtain ⟨hi, hl⟩ := List.getElem?_eq_some_iff.mp hget
  refine List.ext_getElem (by simp [fed]) fun j hj _ => ?_
  have hlt : j < loops.length := by
    simp only [fed, List.length_zipWith] at hj
    omega
  rw [List.getElem_set]
  simp only [fed, List.getElem_zipWith]
  rw [fedInput_append]
  by_cases hij : i = j
  · subst hij
    rw [if_pos rfl, if_pos (by rw [hl, hname])]
  · rw [if_neg hij, if_neg fun heq => hij ?_]
    have hi' : i < (loops.map Loop.outputName).length := by rwa [List.length_map]
    have hj' : j < (loops.map Loop.outputName).length := by rwa [List.length_map]
    have hsame : (loops.map Loop.outputName)[i] = (loops.map Loop.outputName)[j] := by
      rw [List.getElem_map, List.getElem_map, hl, hname, heq]
    exact (List.Nodup.getElem_inj_iff hdistinct).mp hsame

end Fed

/-! ### The invariant -/

variable {loops : List Loop} {s s' : State T α}

/-- The copies that were queued are behind no later record. -/
def State.AllRecorded (s : State T α) : Prop := s.completed + s.stream.length = s.recorded

theorem State.AllRecorded.stream_eq_nil (h : s.AllRecorded) (hle : s.recorded ≤ s.completed) : s.stream = [] := by
  unfold AllRecorded at h
  exact List.eq_nil_of_length_eq_zero (by omega)

theorem State.AllRecorded.complete {op : Op α} {rest : List (Op α)} (h : s.AllRecorded) (hstream : s.stream = op :: rest) :
    s.completed + 1 + rest.length = s.recorded := by
  unfold AllRecorded at h
  rw [hstream, List.length_cons] at h
  omega

/-- The inputs come to be this state, and no copy is queued behind the last record. -/
structure State.Ready (s : State T α) (next : List α) : Prop where
  settles : Settles s.inputs s.outputs s.stream next
  recorded : s.AllRecorded

/-- What holds of the tensors while an inference is there. -/
def Pc.Ok (loops : List Loop) (s : State T α) : Pc α → Prop
  | .holding => s.stream = [] ∧ s.Ready s.produced
  | .feeding done _ => Settles s.inputs s.outputs s.stream (fed loops s.produced done)
  | .updating ret outputs => (ret = 0 ∨ ret = -1) ∧ (ret = 0 → s.Ready (fed loops s.produced outputs))
  | .idle | .waiting | .woken | .synchronizing _ | .locking => True

structure Inv (loops : List Loop) (s : State T α) : Prop where
  range : s.inProgress ≤ 1
  exclusive : ∀ t t', (s.pcs t).Holds → (s.pcs t').Holds → t = t'
  busy : ∀ t, (s.pcs t).Holds → s.inProgress ≠ 0
  free : s.inProgress = 0 → s.Ready s.produced
  ok : ∀ t, (s.pcs t).Ok loops s
  produced : s.produced.length = loops.length
  outputs : s.outputs.length = loops.length

/-- What was to come of the tensors is still to come. -/
structure State.Keeps (s s' : State T α) : Prop where
  settles : ∀ next, Settles s.inputs s.outputs s.stream next → Settles s'.inputs s'.outputs s'.stream next
  recorded : s.AllRecorded → s'.AllRecorded
  stream : s.stream = [] → s'.stream = []
  produced : s'.produced = s.produced

theorem State.Ready.keep {next : List α} (h : s.Ready next) (hs : s.Keeps s') : s'.Ready next :=
  ⟨hs.settles next h.settles, hs.recorded h.recorded⟩

theorem Pc.Ok.keep {pc : Pc α} (h : pc.Ok loops s) (hs : s.Keeps s') : pc.Ok loops s' := by
  cases pc with
  | holding =>
    refine ⟨hs.stream h.1, ?_⟩
    rw [hs.produced]
    exact h.2.keep hs
  | feeding done left =>
    unfold Pc.Ok
    rw [hs.produced]
    exact hs.settles _ h
  | updating ret outputs =>
    refine ⟨h.1, fun hret => ?_⟩
    rw [hs.produced]
    exact (h.2 hret).keep hs
  | idle | waiting | woken | synchronizing | locking => trivial

theorem Pc.ok_of_not_holds {pc : Pc α} (h : ¬ pc.Holds) : pc.Ok loops s := by
  cases pc with
  | holding | feeding | updating => exact absurd trivial h
  | idle | waiting | woken | synchronizing | locking => trivial

namespace Inv

theorem started (h : Started loops s) : Inv loops s := by
  obtain ⟨init, hlen, rfl⟩ := h
  exact ⟨zero_le_one, fun _ _ h => h.elim, fun _ h => h.elim, fun _ => ⟨.of_nil, rfl⟩, fun _ => trivial, hlen,
    List.length_map _⟩

theorem none_of_free (h : Inv loops s) (hzero : s.inProgress = 0) (t : T) : ¬ (s.pcs t).Holds := fun hholds =>
  h.busy t hholds hzero

/-- The tensors go on as they were to, and all inferences are where they were. -/
theorem keep (h : Inv loops s) (hs : s.Keeps s') (hpcs : s'.pcs = s.pcs) (hin : s'.inProgress = s.inProgress)
    (houtputs : s'.outputs.length = s.outputs.length) : Inv loops s' := by
  refine ⟨hin ▸ h.range, hpcs ▸ h.exclusive, hpcs ▸ hin ▸ h.busy, fun hzero => ?_, fun t => ?_,
    hs.produced ▸ h.produced, houtputs.trans h.outputs⟩
  · rw [hs.produced]
    exact (h.free (hin ▸ hzero)).keep hs
  · rw [hpcs]
    exact (h.ok t).keep hs

/-- The outputs are released while nothing is on its way. -/
theorem release (h : Inv loops s) (hnil : s.stream = []) : Inv loops { s with outputs := s.outputs.map fun _ => none } := by
  refine h.keep ⟨fun next hs => ?_, id, id, rfl⟩ rfl rfl (List.length_map _)
  rw [hnil] at hs ⊢
  exact hs.release

/-- They are released after an error, while nobody has the tensors. -/
theorem releaseError (h : Inv loops s) (hneg : s.inProgress < 0) (hnone : ∀ t, ¬ (s.pcs t).Holds) :
    Inv loops { s with outputs := s.outputs.map fun _ => none } :=
  ⟨h.range, h.exclusive, h.busy, fun hzero => absurd hzero hneg.ne, fun t => Pc.ok_of_not_holds (hnone t), h.produced,
    (List.length_map _).trans h.outputs⟩

theorem notifyError (h : Inv loops s) : Inv loops { s with inProgress := -1 } :=
  have hkeeps : s.Keeps { s with inProgress := -1 } := ⟨fun _ => id, id, id, rfl⟩
  have hne : (-1 : ℤ) ≠ 0 := by decide
  ⟨show (-1 : ℤ) ≤ 1 by decide, h.exclusive, fun _ _ => hne, fun hzero => absurd hzero hne, fun t => (h.ok t).keep hkeeps,
    h.produced, h.outputs⟩

theorem complete (h : Inv loops s) {reused : α} (hs : s.complete reused = some s') : Inv loops s' := by
  unfold State.complete at hs
  split at hs
  · cases hs
  · rename_i rest hstream
    cases hs
    refine h.keep ⟨fun next hsettles => ?_, fun hrec => ?_, fun hnil => ?_, rfl⟩ rfl rfl rfl
    · rw [hstream] at hsettles
      exact hsettles.complete_record
    · exact hrec.complete hstream
    · rw [hstream] at hnil
      cases hnil
  · rename_i i buf rest hstream
    cases hs
    refine h.keep ⟨fun next hsettles => ?_, fun hrec => ?_, fun hnil => ?_, rfl⟩ rfl rfl rfl
    · rw [hstream] at hsettles
      exact hsettles.complete_copy reused
    · exact hrec.complete hstream
    · rw [hstream] at hnil
      cases hnil

theorem good (h : Inv loops s) : s.Good := by
  refine ⟨h.exclusive, fun t hholding op hop => ?_, fun t hholding => ?_⟩
  · have hpc := h.ok t
    rw [hholding] at hpc
    rw [hpc.1] at hop
    cases hop
  · have hpc := h.ok t
    rw [hholding] at hpc
    have hsettles := hpc.2.settles
    rw [hpc.1] at hsettles
    exact hsettles.eq_of_nil

variable [DecidableEq T]

/-- One inference goes on, and no other has the tensors. -/
theorem of_only {t : T} {pc : Pc α} (h : Inv loops s) (hpcs : s'.pcs = update s.pcs t pc)
    (hother : ∀ t' ≠ t, ¬ (s.pcs t').Holds) (hrange : s'.inProgress ≤ 1) (hbusy : pc.Holds → s'.inProgress ≠ 0)
    (hfree : s'.inProgress = 0 → s'.Ready s'.produced) (hok : pc.Ok loops s')
    (hproduced : s'.produced.length = s.produced.length) (houtputs : s'.outputs.length = s.outputs.length) :
    Inv loops s' := by
  have hself : s'.pcs t = pc := by rw [hpcs, Function.update_self]
  have hne : ∀ t', (s'.pcs t').Holds → t' = t := fun t' hholds => by
    by_contra hne
    rw [hpcs, Function.update_of_ne hne] at hholds
    exact hother t' hne hholds
  refine ⟨hrange, fun t₁ t₂ h₁ h₂ => (hne t₁ h₁).trans (hne t₂ h₂).symm, fun t' hholds => ?_, hfree, fun t' => ?_,
    hproduced.trans h.produced, houtputs.trans h.outputs⟩
  · obtain rfl := hne t' hholds
    exact hbusy (hself ▸ hholds)
  · by_cases hholds : (s'.pcs t').Holds
    · obtain rfl := hne t' hholds
      rw [hself]
      exact hok
    · exact Pc.ok_of_not_holds hholds

/-- An inference that does not have the tensors goes on without them. -/
theorem setPc (h : Inv loops s) {t : T} {pc : Pc α} (hold : ¬ (s.pcs t).Holds) (hnew : ¬ pc.Holds) :
    Inv loops (s.setPc t pc) := by
  have hpc : ∀ t', ((s.setPc t pc).pcs t').Holds → (s.pcs t').Holds ∧ (s.setPc t pc).pcs t' = s.pcs t' := fun t' hholds => by
    by_cases ht : t' = t
    · subst ht
      rw [State.setPc_pcs, Function.update_self] at hholds
      exact absurd hholds hnew
    · rw [State.setPc_pcs, Function.update_of_ne ht] at hholds ⊢
      exact ⟨hholds, rfl⟩
  have hkeeps : s.Keeps (s.setPc t pc) := ⟨fun _ => id, id, id, rfl⟩
  refine ⟨h.range, fun t₁ t₂ h₁ h₂ => h.exclusive t₁ t₂ (hpc t₁ h₁).1 (hpc t₂ h₂).1, fun t' ht' => h.busy t' (hpc t' ht').1,
    fun hzero => (h.free hzero).keep hkeeps, fun t' => ?_, h.produced, h.outputs⟩
  by_cases hholds : ((s.setPc t pc).pcs t').Holds
  · rw [(hpc t' hholds).2]
    exact (h.ok t').keep hkeeps
  · exact Pc.ok_of_not_holds hholds

/-- The tensors are taken, which are free and ready. -/
theorem appendInputs (h : Inv loops s) {t : T} (hnone : ∀ t', ¬ (s.pcs t').Holds) (hready : s.Ready s.produced)
    (hle : s.recorded ≤ s.completed) : Inv loops (s.appendInputs t) := by
  have hkeeps : s.Keeps (s.appendInputs t) := ⟨fun _ => id, id, id, rfl⟩
  refine h.of_only rfl (fun t' _ => hnone t') le_rfl (fun _ => one_ne_zero) (fun hzero => absurd hzero one_ne_zero)
    ⟨hready.recorded.stream_eq_nil hle, hready.keep hkeeps⟩ rfl rfl

theorem waitAndGetInputs (h : Inv loops s) {t : T} (hidle : s.pcs t = .idle)
    (hok : s.inProgress = 0 → s.recorded ≤ s.completed) : Inv loops (s.waitAndGetInputs t) := by
  unfold State.waitAndGetInputs
  split
  · rename_i hzero
    exact h.appendInputs (h.none_of_free hzero) (h.free hzero) (hok hzero)
  · split
    · exact h
    · exact h.setPc (by rw [hidle]; exact id) id

/-- `waitAndGetInputs` goes on after its wait. -/
theorem lock (h : Inv loops s) {t : T} (hlocking : s.pcs t = .locking) (hok : StepOk s (.lock t)) :
    Inv loops (s.lock t) := by
  have hpc : ¬ (s.pcs t).Holds := by
    rw [hlocking]
    exact id
  unfold State.lock
  dsimp only
  split
  · rename_i hneg
    rcases hok.2 hneg with hnil | hnone
    · exact (h.release hnil).setPc hpc id
    · exact (h.releaseError hneg hnone).setPc hpc id
  · rename_i hneg
    obtain ⟨hne, hle⟩ := hok.1 (not_lt.mp hneg)
    have hzero : s.inProgress = 0 := by
      have hrange := h.range
      omega
    have hnil := (h.free hzero).recorded.stream_eq_nil hle
    have hreleased := h.release hnil
    exact hreleased.appendInputs (h.none_of_free hzero) (hreleased.free hzero) hle

/-- The inference that has the tensors goes on with them. -/
theorem of_holder (h : Inv loops s) {t : T} {pc : Pc α} (hholds : (s.pcs t).Holds) (hpcs : s'.pcs = update s.pcs t pc)
    (hin : s'.inProgress = s.inProgress) (hok : pc.Ok loops s') (hproduced : s'.produced.length = s.produced.length)
    (houtputs : s'.outputs.length = s.outputs.length) : Inv loops s' := by
  have hne : s'.inProgress ≠ 0 := hin ▸ h.busy t hholds
  exact h.of_only hpcs (fun t' ht' hholds' => ht' (h.exclusive t' t hholds' hholds)) (hin ▸ h.range) (fun _ => hne)
    (fun hzero => absurd hzero hne) hok hproduced houtputs

theorem feedbackInputs (h : Inv loops s) {t : T} (hholding : s.pcs t = .holding) (outputs : List (OutputBuf α)) (ok : Bool) :
    Inv loops (s.setPc t (if ok then .feeding [] outputs else .updating (-1) [])) := by
  have hpc := h.ok t
  rw [hholding] at hpc
  refine h.of_holder (by rw [hholding]; trivial) rfl rfl ?_ rfl rfl
  cases ok with
  | true =>
    show Settles s.inputs s.outputs s.stream (fed loops s.produced [])
    rw [fed_nil h.produced]
    exact hpc.2.settles
  | false => exact ⟨.inr rfl, fun hzero => absurd hzero (by decide)⟩

theorem feed (h : Inv loops s) (hdistinct : (loops.map Loop.outputName).Nodup) {t : T} {done left : List (OutputBuf α)}
    {buf : OutputBuf α} (hfeeding : s.pcs t = .feeding done (buf :: left)) (ok : Bool) :
    Inv loops (s.feed loops t ok done left buf) := by
  have hpc := h.ok t
  rw [hfeeding] at hpc
  have hholds : (s.pcs t).Holds := by
    rw [hfeeding]
    trivial
  unfold State.feed
  cases hloop : loopOf loops buf.name with
  | none =>
    refine h.of_holder hholds rfl rfl ?_ rfl rfl
    show Settles s.inputs s.outputs s.stream (fed loops s.produced (done ++ [buf]))
    rw [fed_append_of_none hloop]
    exact hpc
  | some found =>
    obtain ⟨l, i⟩ := found
    dsimp only
    split
    · exact h.of_holder hholds rfl rfl ⟨.inr rfl, fun hzero => absurd hzero (by decide)⟩ rfl rfl
    · obtain ⟨hi, -⟩ := List.getElem?_eq_some_iff.mp (loopOf_eq_some hloop).1
      refine h.of_holder hholds rfl rfl ?_ rfl (List.length_set ..)
      show Settles s.inputs (s.outputs.set i (some buf)) (s.stream ++ [Op.copy i buf]) (fed loops s.produced (done ++ [buf]))
      rw [fed_append_of_some hdistinct hloop]
      refine Settles.copy hpc (h.outputs ▸ hi) ?_
      rw [length_fed h.produced, h.produced]
      exact hi

theorem record (h : Inv loops s) {t : T} {done : List (OutputBuf α)} (hfeeding : s.pcs t = .feeding done []) (ok : Bool) :
    Inv loops (s.record t ok done) := by
  have hpc := h.ok t
  rw [hfeeding] at hpc
  have hholds : (s.pcs t).Holds := by
    rw [hfeeding]
    trivial
  unfold State.record
  split
  · refine h.of_holder hholds rfl rfl ⟨.inl rfl, fun _ => ⟨Settles.record hpc, ?_⟩⟩ rfl rfl
    show s.completed + (s.stream ++ [Op.record]).length = s.completed + s.stream.length + 1
    rw [List.length_append, List.length_singleton, Nat.add_assoc]
  · exact h.of_holder hholds rfl rfl ⟨.inr rfl, fun hzero => absurd hzero (by decide)⟩ rfl rfl

theorem update (h : Inv loops s) {t : T} {ret : ℤ} {outputs : List (OutputBuf α)}
    (hupdating : s.pcs t = .updating ret outputs) : Inv loops (s.update loops t ret outputs) := by
  have hpc := h.ok t
  rw [hupdating] at hpc
  have hholds : (s.pcs t).Holds := by
    rw [hupdating]
    trivial
  refine h.of_only rfl (fun t' ht' hholds' => ht' (h.exclusive t' t hholds' hholds)) ?_ (fun hidle => hidle.elim)
    (fun hzero => ?_) trivial ?_ rfl
  · show ret ≤ 1
    rcases hpc.1 with rfl | rfl
    · decide
    · decide
  · have hret : ret = 0 := hzero
    obtain ⟨hsettles, hrecorded⟩ := hpc.2 hret
    refine ⟨?_, hrecorded⟩
    show Settles s.inputs s.outputs s.stream (if ret = 0 then fed loops s.produced outputs else s.produced)
    rw [if_pos hret]
    exact hsettles
  · show (if ret = 0 then fed loops s.produced outputs else s.produced).length = s.produced.length
    split
    · exact length_fed h.produced outputs
    · rfl

/-- Each step keeps the invariant. -/
theorem step {a : Action T α} (h : Inv loops s) (hdistinct : (loops.map Loop.outputName).Nodup) (hok : StepOk s a)
    (hs : step loops s a = some s') : Inv loops s' := by
  cases a with
  | waitAndGetInputs t =>
    simp only [Lstm.step] at hs
    split at hs
    · rename_i hidle
      cases hs
      exact h.waitAndGetInputs hidle hok
    · cases hs
  | wake t =>
    simp only [Lstm.step] at hs
    split at hs
    · rename_i hwaiting
      obtain ⟨-, hs⟩ := Option.ite_none_right_eq_some.mp hs
      cases hs
      exact h.setPc (by rw [hwaiting]; exact id) id
    · cases hs
  | synchronize t =>
    simp only [Lstm.step] at hs
    split at hs
    · rename_i hwoken
      cases hs
      exact h.setPc (by rw [hwoken]; exact id) id
    · cases hs
  | synchronized t ok =>
    simp only [Lstm.step] at hs
    split at hs
    · rename_i target hsync
      have hpc : ¬ (s.pcs t).Holds := by
        rw [hsync]
        exact id
      split at hs
      · cases hs
        exact h.setPc hpc id
      · obtain ⟨-, hs⟩ := Option.ite_none_right_eq_some.mp hs
        cases hs
        exact h.setPc hpc id
    · cases hs
  | lock t =>
    simp only [Lstm.step] at hs
    split at hs
    · rename_i hlocking
      cases hs
      exact h.lock hlocking hok
    · cases hs
  | feedbackInputs t outputs ok =>
    simp only [Lstm.step] at hs
    split at hs
    · rename_i hholding
      cases hs
      exact h.feedbackInputs hholding outputs ok
    · cases hs
  | feed t ok =>
    simp only [Lstm.step] at hs
    split at hs
    · rename_i done buf left hfeeding
      cases hs
      exact h.feed hdistinct hfeeding ok
    · cases hs
  | record t ok =>
    simp only [Lstm.step] at hs
    split at hs
    · rename_i done hfeeding
      cases hs
      exact h.record hfeeding ok
    · cases hs
  | update t =>
    simp only [Lstm.step] at hs
    split at hs
    · rename_i ret outputs hupdating
      cases hs
      exact h.update hupdating
    · cases hs
  | notifyError =>
    cases hs
    exact h.notifyError
  | complete reused => exact h.complete hs

end Inv

/-- One inference at a time has the tensors, with the state that the previous one produced,
in every run whose steps meet `StepOk`. -/
theorem lstm_run [DecidableEq T] (loops : List Loop) (hdistinct : (loops.map Loop.outputName).Nodup) {s : State T α}
    (h : Reach (step loops) StepOk (Started loops) s) : s.Good :=
  (h.invariant (fun _ => Inv.started) fun _ _ _ hinv hok hs => hinv.step hdistinct hok hs).good

/-! ### Three runs -/

instance [Fintype T] [DecidableEq α] (s : State T α) : ∀ a : Action T α, Decidable (StepOk s a)
  | .waitAndGetInputs _ => inferInstanceAs (Decidable (_ → _))
  | .lock _ => inferInstanceAs (Decidable ((_ → _) ∧ (_ → _ ∨ _)))
  | .wake _ | .synchronize _ | .synchronized _ _ | .feedbackInputs _ _ _ | .feed _ _ | .record _ _ | .update _ | .notifyError
  | .complete _ => .isTrue trivial

def oneLoop : List Loop := [⟨"state_in", "state_out", ⟨.fp32, [1], 1⟩⟩]

/-- The state starts as 0. -/
def fromZero (n : ℕ) : State (Fin n) ℕ := ⟨0, [0], [none], [], 0, 0, fun _ => .idle, [0]⟩

theorem started_fromZero (n : ℕ) : Started oneLoop (fromZero n) := ⟨[0], rfl, rfl⟩

/-- The outputs of an inference that leaves 7. -/
def leavesSeven : List (OutputBuf ℕ) := [⟨"state_out", ⟨.fp32, [1], 1⟩, 1, 7⟩]

/-- An inference that has the tensors leaves 7. -/
def feedsSeven {n : ℕ} (t : Fin n) : List (Action (Fin n) ℕ) :=
  [.feedbackInputs t leavesSeven true, .feed t true, .record t true, .update t]

/-- An inference that waits for its turn finds the state of the one before. -/
theorem lstm_run_waits : ∃ s : State (Fin 2) ℕ, s.pcs 1 = .holding ∧ s.inputs = [7] ∧ s.Good := by
  have hrun : (exec (step oneLoop) StepOk (fromZero 2)
      ([.waitAndGetInputs 0, .waitAndGetInputs 1] ++ feedsSeven 0 ++
        [.wake 1, .synchronize 1, .complete 0, .complete 0, .synchronized 1 true, .lock 1])).isSome := by decide
  exact ⟨_, rfl, rfl, lstm_run oneLoop (by decide) (Reach.get_exec (started_fromZero 2) hrun)⟩

/-- A call that finds the tensors free returns while the copy is on its way and reads the old
state, and two that wake up together both have the tensors. -/
theorem lstm_fails :
    (∃ s : State (Fin 1) ℕ, Reach (step oneLoop) anyStep (Started oneLoop) s ∧
      s.pcs 0 = .holding ∧ s.inputs = [0] ∧ s.produced = [7] ∧ ¬ s.Good) ∧
    ∃ s : State (Fin 3) ℕ, Reach (step oneLoop) anyStep (Started oneLoop) s ∧
      s.pcs 1 = .holding ∧ s.pcs 2 = .holding ∧ ¬ s.Good := by
  have hstale : (exec (step oneLoop) anyStep (fromZero 1)
      ([.waitAndGetInputs 0] ++ feedsSeven 0 ++ [.waitAndGetInputs 0])).isSome := by decide
  have htwice : (exec (step oneLoop) anyStep (fromZero 3)
      ([.waitAndGetInputs 0, .waitAndGetInputs 1, .waitAndGetInputs 2] ++ feedsSeven 0 ++
        [.wake 1, .wake 2, .synchronize 1, .synchronize 2, .complete 0, .complete 0, .synchronized 1 true,
          .synchronized 2 true, .lock 1, .lock 2])).isSome := by decide
  refine ⟨⟨_, Reach.get_exec (started_fromZero 1) hstale, rfl, rfl, rfl, fun hgood => ?_⟩,
    ⟨_, Reach.get_exec (started_fromZero 3) htwice, rfl, rfl, fun hgood => ?_⟩⟩
  · have hstate : [0] = [7] := hgood.inputs 0 rfl
    exact absurd hstate (by decide)
  · exact absurd (hgood.exclusive 1 2 trivial trivial) (by decide)

end Lstm
end InferServer
end DeepStream
