/-
# The pool of the misc data buffers

A worker of the tracker takes a buffer from its `TrackerMiscDataManager` for each batch
that it processes, or none where the pool is exhausted. What it found goes downstream as
user metas, which share the buffer through an object with a reference count; the last
one returns it. Where the low-level library fails, the worker returns the buffer itself:
`updateUserMeta` does so only for a buffer that it has, `processSubBatch` in any case.

There is one worker to a pool, that of the batch or that of a sub-batch. Other threads
set `m_TrackerLibError`, and copy and release the metas. A pointer to a buffer is its
number, or `none` if it is null; what is read through a null pointer has no result. The
contents of the buffers are left out.
-/
import DeepStream.Lib.Keyed
import DeepStream.Lib.Run
import Mathlib.Data.Fintype.EquivFin

namespace DeepStream
namespace Tracker
namespace MiscData

/-! ### The configuration -/

/-- Whose pool it is: that of `processBatch` or that of `processSubBatch`. -/
inductive Mode where
  | batch | subBatch
  deriving DecidableEq, Repr

inductive MetaKind where
  | pastFrame | batchReid | terminatedTrack | shadowTrack
  deriving DecidableEq, Repr

structure TrackerConfig where
  mode : Mode
  pastFrame : Bool
  outputReidTensor : Bool
  outputTerminatedTracks : Bool
  outputShadowTracks : Bool
  reidFeatureSize : ℕ
  maxMiscDataPoolSize : ℕ
  deriving DecidableEq, Repr

namespace TrackerConfig

variable (cfg : TrackerConfig)

/-- The metas that are attached. -/
def outputs : MetaKind → Bool
  | .pastFrame => cfg.pastFrame
  | .batchReid => cfg.outputReidTensor
  | .terminatedTrack => cfg.outputTerminatedTracks
  | .shadowTrack => cfg.outputShadowTracks

/-- `m_IntentionallyEmpty`. -/
def intentionallyEmpty : Bool := !cfg.pastFrame && !cfg.outputReidTensor && !cfg.outputTerminatedTracks

/-- `init` stops before it makes the buffers. -/
def initFails : Bool := !cfg.intentionallyEmpty && (cfg.outputReidTensor && cfg.reidFeatureSize == 0)

/-- `resetPastFrame`, `resetTerminatedTracks` or `resetShadowTracks` reads the buffer. -/
def resetReads : Bool := cfg.pastFrame || cfg.outputTerminatedTracks || cfg.outputShadowTracks

end TrackerConfig

/-! ### The state -/

/-- `GstNvTrackerMiscDataObject`, at the address `id`. -/
structure MiscDataObject where
  id : ℕ
  refcount : ℕ
  miscDataBuffer : ℕ
  deriving DecidableEq, Repr

/-- A user meta points into a buffer, whose `priv_data` for this kind points to the object. -/
structure UserMeta where
  kind : MetaKind
  buffer : ℕ
  deriving DecidableEq, Repr

/-- Where the worker is in its loop. -/
inductive Worker where
  | idle
  | ended
  | popping
  | popped (pMiscDataBuf : Option ℕ)
  | processed (pMiscDataBuf : Option ℕ)
  deriving DecidableEq, Repr

structure State where
  trackerLibError : Bool
  bufferSet : List ℕ
  freeQueue : List (Option ℕ)
  worker : Worker
  objects : List MiscDataObject
  privData : ℕ → MetaKind → ℕ
  metas : List UserMeta

/-- `TrackerMiscDataManager::init`. -/
def init (cfg : TrackerConfig) : State :=
  let bufferSet := if cfg.intentionallyEmpty || cfg.initFails then [] else List.range cfg.maxMiscDataPoolSize
  { trackerLibError := cfg.initFails
    bufferSet := bufferSet
    freeQueue := bufferSet.map some
    worker := .idle
    objects := []
    privData := fun _ _ => 0
    metas := [] }

def isQueueFull (s : State) : Prop := s.bufferSet.length = s.freeQueue.length

instance (s : State) : Decidable (isQueueFull s) := inferInstanceAs (Decidable (_ = _))

/-! ### The operations -/

section Operations

variable (cfg : TrackerConfig)

def returnBuffer (data : Option ℕ) (s : State) : Option State :=
  if cfg.intentionallyEmpty then some s
  else if data = none ∧ cfg.resetReads = true then none
  else some { s with freeQueue := s.freeQueue ++ [data] }

/-- `pop`: null after the time is out, which it is only with nothing in the queue. -/
def pop (s : State) : Option ℕ × State :=
  if cfg.intentionallyEmpty then (none, s)
  else (s.freeQueue.head?.join, { s with freeQueue := s.freeQueue.tail })

/-- `deInit`, from where its wait is over; it frees what is in the queue. -/
def deInit (s : State) : Option State :=
  if cfg.intentionallyEmpty then some s
  else if isQueueFull s ∧ none ∉ s.freeQueue then some { s with freeQueue := [], bufferSet := [] }
  else none

/-- The object with another count. -/
def setRefcount (s : State) (o : MiscDataObject) (n : ℕ) : State :=
  { s with objects := { o with refcount := n } :: s.objects.filter (·.id ≠ o.id) }

/-- `gst_mini_object_ref`. -/
def ref (id : ℕ) (s : State) : Option State :=
  (s.objects.find? (·.id = id)).map fun o => setRefcount s o (o.refcount + 1)

/-- `gst_mini_object_unref`; the last reference calls `return_nvtracker_buffer_meta`. -/
def unref (id : ℕ) (s : State) : Option State :=
  (s.objects.find? (·.id = id)).bind fun o =>
    if o.refcount = 1 then
      returnBuffer cfg (some o.miscDataBuffer) { s with objects := s.objects.filter (·.id ≠ o.id) }
    else some (setRefcount s o (o.refcount - 1))

/-- What the four functions that attach a meta have in common. -/
def updateMeta (kind : MetaKind) (pGstObj buffer : ℕ) (s : State) : Option State :=
  if cfg.outputs kind then
    (ref pGstObj s).map fun s =>
      { s with
        privData := fun b k => if b = buffer ∧ k = kind then pGstObj else s.privData b k
        metas := s.metas ++ [⟨kind, buffer⟩] }
  else some s

def updatePastFrameMeta := updateMeta cfg .pastFrame

def updateBatchReidMeta := updateMeta cfg .batchReid

def updateTerminatedTrackMeta := updateMeta cfg .terminatedTrack

def updateShadowTrackMeta := updateMeta cfg .shadowTrack

/-- The new object is at an address where there is none. -/
def updateUserMeta (pGstObj : ℕ) (pMiscDataBuf : Option ℕ) (s : State) : Option State :=
  match pMiscDataBuf with
  | none => some s
  | some buffer =>
    if s.trackerLibError then returnBuffer cfg (some buffer) s
    else if pGstObj ∈ s.objects.map MiscDataObject.id then none
    else do
      let s := { s with objects := ⟨pGstObj, 1, buffer⟩ :: s.objects }
      let s ← updatePastFrameMeta cfg pGstObj buffer s
      let s ← updateBatchReidMeta cfg pGstObj buffer s
      let s ← updateTerminatedTrackMeta cfg pGstObj buffer s
      let s ← updateShadowTrackMeta cfg pGstObj buffer s
      unref cfg pGstObj s

/-- `copy_func` of a meta. -/
def copyMeta (m : UserMeta) (s : State) : Option State :=
  if m ∈ s.metas then (ref (s.privData m.buffer m.kind) s).map fun s => { s with metas := s.metas ++ [m] } else none

/-- `release_func` of a meta. -/
def releaseMeta (m : UserMeta) (s : State) : Option State :=
  if m ∈ s.metas then unref cfg (s.privData m.buffer m.kind) { s with metas := s.metas.erase m } else none

end Operations

/-! ### The steps -/

/-- `ok`: the status that the library returns. -/
inductive Label where
  | setError
  | start
  | pop
  | process (ok : Bool)
  | retrieve (ok : Bool)
  | updateUserMeta (pGstObj : ℕ)
  | copyMeta (m : UserMeta)
  | releaseMeta (m : UserMeta)
  | deInit
  deriving DecidableEq, Repr

/-- `m_TrackerLibProcess`. In a batch the library is called for one list of frames after
the other, and an error goes on; in a sub-batch it goes to `req_complete`. -/
def process (cfg : TrackerConfig) (ok : Bool) (s : State) : Option State :=
  match s.worker, cfg.mode with
  | .popped _, .batch => some { s with trackerLibError := s.trackerLibError || !ok }
  | .popped buf, .subBatch =>
    if ok then some { s with worker := .processed buf }
    else returnBuffer cfg buf { s with worker := .idle }
  | _, _ => none

/-- The buffer with which `updateUserMeta` is called. -/
def toUpdate (cfg : TrackerConfig) (s : State) : Option (Option ℕ) :=
  match s.worker, cfg.mode with
  | .popped buf, .batch => some buf
  | .processed buf, _ => some buf
  | _, _ => none

def step (cfg : TrackerConfig) (s : State) : Label → Option State
  | .setError => some { s with trackerLibError := true }
  | .start =>
    if s.worker = .idle ∧ s.trackerLibError = false then some { s with worker := .popping } else none
  | .pop =>
    if s.worker = .popping then
      let r := pop cfg s
      some { r.2 with worker := .popped r.1 }
    else none
  | .process ok => process cfg ok s
  | .retrieve ok => (toUpdate cfg s).map fun _ => { s with trackerLibError := s.trackerLibError || !ok }
  | .updateUserMeta pGstObj =>
    (toUpdate cfg s).bind fun buf => updateUserMeta cfg pGstObj buf { s with worker := .idle }
  | .copyMeta m => copyMeta m s
  | .releaseMeta m => releaseMeta cfg m s
  | .deInit => if s.worker = .idle then deInit cfg { s with worker := .ended } else none

/-- The library does not fail for a sub-batch without a buffer, but where the pool is
empty on purpose. -/
def NullKept (cfg : TrackerConfig) (s : State) (l : Label) : Prop :=
  cfg.mode = .subBatch → l = .process false → s.worker = .popped none → cfg.intentionallyEmpty = true

instance (cfg : TrackerConfig) (s : State) (l : Label) : Decidable (NullKept cfg s l) :=
  inferInstanceAs (Decidable (_ → _ → _ → _))

/-! ### What the pool is for -/

def Worker.buffer : Worker → Option ℕ
  | .popped buf => buf
  | .processed buf => buf
  | _ => none

/-- The buffers that are with a batch: that of the worker, and those of the objects. -/
def held (s : State) : List ℕ := s.worker.buffer.toList ++ s.objects.map MiscDataObject.miscDataBuffer

/-- The queue has only buffers of the set and none twice; each buffer is there or with one
batch; the queue is full when no batch has a buffer, and a run can always go on to where
`deInit` goes through. -/
structure Sound (cfg : TrackerConfig) (s : State) : Prop where
  nonNull : none ∉ s.freeQueue
  subset : ∀ b, some b ∈ s.freeQueue → b ∈ s.bufferSet
  nodup : s.freeQueue.Nodup
  once : ∀ b ∈ s.bufferSet, s.freeQueue.count (some b) + (held s).count b = 1
  full_iff : isQueueFull s ↔ held s = []
  drains : ∃ s', Reach (step cfg) (NullKept cfg) (· = s) s' ∧ (deInit cfg s').isSome

/-! ### The invariant

`Accounts` says where the buffers are, with some that are in nobody's hands while an operation
runs; `Refs` that an object has a reference for each of its metas. -/

structure Accounts (cfg : TrackerConfig) (s : State) (loose : List ℕ) : Prop where
  perm : (s.freeQueue ++ (loose ++ held s).map some).Perm (s.bufferSet.map some)
  nodup : s.bufferSet.Nodup
  empty : cfg.intentionallyEmpty = true → s.bufferSet = []

structure Refs (s : State) : Prop where
  ids : (s.objects.map MiscDataObject.id).Nodup
  refcount : ∀ o ∈ s.objects, o.refcount = s.metas.countP (·.buffer = o.miscDataBuffer) ∧ 0 < o.refcount
  live : ∀ m ∈ s.metas, ∃ o ∈ s.objects, o.id = s.privData m.buffer m.kind ∧ o.miscDataBuffer = m.buffer

structure Inv (cfg : TrackerConfig) (s : State) : Prop where
  accounts : Accounts cfg s []
  refs : Refs s

theorem init_inv (cfg : TrackerConfig) : Inv cfg (init cfg) := by
  refine ⟨⟨?_, ?_, fun h => ?_⟩, ⟨List.nodup_nil, by simp [init], by simp [init]⟩⟩
  · simp [init, held, Worker.buffer]
  · dsimp only [init]
    split
    · exact List.nodup_nil
    · exact List.nodup_range
  · simp [init, h]

section Parts

variable {cfg : TrackerConfig} {s s' : State} {loose : List ℕ} {b : ℕ} {o : MiscDataObject}

theorem Accounts.loose_nodup (h : Accounts cfg s loose) : (loose ++ held s).Nodup := by
  have hall := (h.perm.nodup_iff).mpr (h.nodup.map (Option.some_injective ℕ))
  exact (List.nodup_append.mp hall).2.1.of_map _

theorem Accounts.buffers_nodup (h : Accounts cfg s loose) : (s.objects.map MiscDataObject.miscDataBuffer).Nodup :=
  (List.nodup_append.mp (List.nodup_append.mp h.loose_nodup).2.1).2.1

/-- The buffers change hands. -/
theorem Accounts.of_perm {loose' : List ℕ} (h : Accounts cfg s loose) (hset : s'.bufferSet = s.bufferSet)
    (hqueue : s'.freeQueue = s.freeQueue) (hp : (loose ++ held s).Perm (loose' ++ held s')) : Accounts cfg s' loose' := by
  obtain ⟨perm, nodup, empty⟩ := h
  refine ⟨?_, hset ▸ nodup, hset ▸ empty⟩
  rw [hset, hqueue]
  exact ((hp.map some).append_left s.freeQueue).symm.trans perm

theorem Accounts.not_empty (h : Accounts cfg s loose) (hb : b ∈ loose ++ held s) : cfg.intentionallyEmpty = false := by
  by_contra hempty
  have hset := h.empty (by simpa using hempty)
  have hmem : some b ∈ s.bufferSet.map some :=
    h.perm.mem_iff.mp (List.mem_append_right _ (List.mem_map.mpr ⟨b, hb, rfl⟩))
  rw [hset] at hmem
  cases hmem

/-- A buffer that is returned is in the queue. -/
theorem returnBuffer_spec (h : Accounts cfg s (b :: loose)) :
    returnBuffer cfg (some b) s = some { s with freeQueue := s.freeQueue ++ [some b] } ∧
      Accounts cfg { s with freeQueue := s.freeQueue ++ [some b] } loose := by
  have hempty : cfg.intentionallyEmpty = false := h.not_empty List.mem_cons_self
  refine ⟨?_, ?_, h.nodup, h.empty⟩
  · rw [returnBuffer, hempty, if_neg Bool.false_ne_true, if_neg (by simp)]
  · have hperm := h.perm
    show (s.freeQueue ++ [some b] ++ (loose ++ held s).map some).Perm (s.bufferSet.map some)
    rwa [List.append_assoc, List.singleton_append, ← List.map_cons]

theorem objects_perm (h : Refs s) (ho : o ∈ s.objects) : (o :: s.objects.filter (·.id ≠ o.id)).Perm s.objects :=
  Keyed.perm_key h.ids ho

theorem find_object (h : Refs s) (ho : o ∈ s.objects) : s.objects.find? (·.id = o.id) = some o := by
  have hfilter := Keyed.filter_key h.ids ho
  rw [← List.head?_filter, hfilter]
  rfl

theorem held_setRefcount (h : Refs s) (ho : o ∈ s.objects) (n : ℕ) (ms : List UserMeta) :
    (held s).Perm (held { setRefcount s o n with metas := ms }) := by
  have hperm := ((objects_perm h ho).map MiscDataObject.miscDataBuffer).symm
  exact hperm.append_left s.worker.buffer.toList

theorem held_remove (h : Refs s) (ho : o ∈ s.objects) (ms : List UserMeta) :
    (held s).Perm (o.miscDataBuffer :: held { s with objects := s.objects.filter (·.id ≠ o.id), metas := ms }) := by
  have hperm := ((objects_perm h ho).map MiscDataObject.miscDataBuffer).symm
  exact (hperm.append_left s.worker.buffer.toList).trans List.perm_middle

/-- Other objects have other buffers. -/
theorem buffer_ne (hb : (s.objects.map MiscDataObject.miscDataBuffer).Nodup) {o' : MiscDataObject} (ho : o ∈ s.objects)
    (ho' : o' ∈ s.objects.filter (·.id ≠ o.id)) : o' ∈ s.objects ∧ o'.miscDataBuffer ≠ o.miscDataBuffer := by
  obtain ⟨hmem, hid⟩ := List.mem_filter.mp ho'
  refine ⟨hmem, fun heq => of_decide_eq_true hid ?_⟩
  rw [List.inj_on_of_nodup_map hb hmem ho heq]

/-- The object of a live meta. -/
theorem Refs.object_of_mem (h : Refs s) {m : UserMeta} (hm : m ∈ s.metas) :
    ∃ o ∈ s.objects, s.objects.find? (·.id = s.privData m.buffer m.kind) = some o ∧ o.miscDataBuffer = m.buffer := by
  obtain ⟨o, ho, hid, hbuf⟩ := h.live m hm
  exact ⟨o, ho, hid ▸ find_object h ho, hbuf⟩

section Change

variable {ms : List UserMeta} (h : Refs s) (hb : (s.objects.map MiscDataObject.miscDataBuffer).Nodup)
  (ho : o ∈ s.objects) (hsub : ms ⊆ s.metas)
  (hother : ∀ b ≠ o.miscDataBuffer, ms.countP (·.buffer = b) = s.metas.countP (·.buffer = b))

include h hb ho hsub hother

/-- An object counts the metas that it has now. -/
theorem Refs.set {n : ℕ} (hn : n = ms.countP (·.buffer = o.miscDataBuffer)) (hpos : 0 < n) :
    Refs { setRefcount s o n with metas := ms } := by
  refine ⟨?_, ?_, ?_⟩
  · exact (((objects_perm h ho).map MiscDataObject.id).nodup_iff).mpr h.ids
  · intro o' ho'
    rcases List.mem_cons.mp ho' with rfl | hrest
    · exact ⟨hn, hpos⟩
    · obtain ⟨hmem, hne⟩ := buffer_ne hb ho hrest
      obtain ⟨hcount, hpos'⟩ := h.refcount o' hmem
      exact ⟨hcount.trans (hother _ hne).symm, hpos'⟩
  · intro m hm
    obtain ⟨o', ho', hid, hbuf⟩ := h.live m (hsub hm)
    by_cases heq : o'.id = o.id
    · have hobj : o' = o := List.inj_on_of_nodup_map h.ids ho' ho heq
      subst hobj
      exact ⟨{ o' with refcount := n }, List.mem_cons_self, hid, hbuf⟩
    · exact ⟨o', List.mem_cons_of_mem _ (List.mem_filter.mpr ⟨ho', decide_eq_true heq⟩), hid, hbuf⟩

/-- An object that has no metas left goes. -/
theorem Refs.remove (hnone : ∀ m ∈ ms, m.buffer ≠ o.miscDataBuffer) :
    Refs { s with objects := s.objects.filter (·.id ≠ o.id), metas := ms } := by
  refine ⟨?_, ?_, ?_⟩
  · exact h.ids.sublist (List.filter_sublist.map _)
  · intro o' ho'
    obtain ⟨hmem, hne⟩ := buffer_ne hb ho ho'
    obtain ⟨hcount, hpos⟩ := h.refcount o' hmem
    exact ⟨hcount.trans (hother _ hne).symm, hpos⟩
  · intro m hm
    obtain ⟨o', ho', hid, hbuf⟩ := h.live m (hsub hm)
    refine ⟨o', List.mem_filter.mpr ⟨ho', decide_eq_true fun heq => hnone m hm ?_⟩, hid, hbuf⟩
    rw [← hbuf, List.inj_on_of_nodup_map h.ids ho' ho heq]

end Change

/-- A copy has a reference of its own. -/
theorem copyMeta_spec (h : Inv cfg s) {m : UserMeta} (hm : m ∈ s.metas) :
    ∃ s', copyMeta m s = some s' ∧ Inv cfg s' ∧ s'.worker = s.worker := by
  obtain ⟨o, ho, hfind, hbuf⟩ := h.refs.object_of_mem hm
  have hcount := (h.refs.refcount o ho).1
  refine ⟨{ setRefcount s o (o.refcount + 1) with metas := s.metas ++ [m] }, ?_, ⟨?_, ?_⟩, rfl⟩
  · rw [copyMeta, if_pos hm, ref, hfind]
    rfl
  · exact h.accounts.of_perm rfl rfl (held_setRefcount h.refs ho _ _)
  · refine h.refs.set h.accounts.buffers_nodup ho (by simpa using hm) (fun b hne => ?_) ?_ (Nat.succ_pos _)
    · have hm' : m.buffer ≠ b := fun heq => hne (heq.symm.trans hbuf.symm)
      simp [List.countP_append, hm']
    · simp [List.countP_append, hbuf, hcount]

/-- The last meta of an object that is released returns its buffer. -/
theorem releaseMeta_spec (h : Inv cfg s) {m : UserMeta} (hm : m ∈ s.metas) :
    ∃ s', releaseMeta cfg m s = some s' ∧ Inv cfg s' ∧ s'.worker = s.worker ∧ s'.metas = s.metas.erase m := by
  obtain ⟨o, ho, hfind, hbuf⟩ := h.refs.object_of_mem hm
  obtain ⟨hcount, hpos⟩ := h.refs.refcount o ho
  have hnodup := h.accounts.buffers_nodup
  have hsub : s.metas.erase m ⊆ s.metas := List.erase_subset
  have hother : ∀ b ≠ o.miscDataBuffer,
      (s.metas.erase m).countP (·.buffer = b) = s.metas.countP (·.buffer = b) := fun b hne => by
    have hm' : m.buffer ≠ b := fun heq => hne (heq.symm.trans hbuf.symm)
    rw [List.countP_erase]
    simp [hm']
  have hmine : (s.metas.erase m).countP (·.buffer = o.miscDataBuffer) = o.refcount - 1 := by
    rw [List.countP_erase, hcount]
    simp [hm, hbuf]
  rw [releaseMeta, if_pos hm, unref]
  simp only [hfind, Option.bind_some]
  by_cases hone : o.refcount = 1
  · have hnone : ∀ m' ∈ s.metas.erase m, m'.buffer ≠ o.miscDataBuffer := by
      rw [hone, Nat.sub_self, List.countP_eq_zero] at hmine
      exact fun m' hm' => by simpa using hmine m' hm'
    have hacc : Accounts cfg { s with objects := s.objects.filter (·.id ≠ o.id), metas := s.metas.erase m }
        [o.miscDataBuffer] := h.accounts.of_perm rfl rfl (held_remove h.refs ho _)
    obtain ⟨hret, hacc'⟩ := returnBuffer_spec hacc
    have hrefs := h.refs.remove hnodup ho hsub hother hnone
    rw [if_pos hone]
    exact ⟨_, hret, ⟨hacc', hrefs.ids, hrefs.refcount, hrefs.live⟩, rfl, rfl⟩
  · rw [if_neg hone]
    refine ⟨_, rfl, ⟨?_, ?_⟩, rfl, rfl⟩
    · exact h.accounts.of_perm rfl rfl (held_setRefcount h.refs ho _ _)
    · exact h.refs.set hnodup ho hsub hother hmine.symm (by omega)

/-- The functions that attach the metas, one after the other. -/
theorem updateMetas_eq (cfg : TrackerConfig) {rest : List MiscDataObject} {pGstObj : ℕ} (hfresh : pGstObj ∉ rest.map MiscDataObject.id) (b : ℕ) :
    ∀ (kinds : List MetaKind) (s : State) (n : ℕ), s.objects = ⟨pGstObj, n, b⟩ :: rest →
      kinds.foldlM (fun s kind => updateMeta cfg kind pGstObj b s) s = some { s with
        objects := ⟨pGstObj, n + (kinds.filter cfg.outputs).length, b⟩ :: rest
        privData := fun b' k => if b' = b ∧ k ∈ kinds.filter cfg.outputs then pGstObj else s.privData b' k
        metas := s.metas ++ (kinds.filter cfg.outputs).map fun kind => ⟨kind, b⟩ }
  | [], s, n, hobj => by
    obtain ⟨_, _, _, _, objects, _, _⟩ := s
    dsimp only at hobj
    simp [hobj]
  | kind :: kinds, s, n, hobj => by
    rw [List.foldlM_cons, updateMeta]
    by_cases hkind : cfg.outputs kind = true
    · have hfilter : rest.filter (·.id ≠ pGstObj) = rest :=
        List.filter_eq_self.mpr fun o ho => decide_eq_true fun heq => hfresh (List.mem_map.mpr ⟨o, ho, heq⟩)
      have hobj' : (⟨pGstObj, n, b⟩ :: rest : List MiscDataObject).filter (·.id ≠ pGstObj) = rest := by
        rw [List.filter_cons_of_neg (by simp), hfilter]
      have hfind : s.objects.find? (·.id = pGstObj) = some ⟨pGstObj, n, b⟩ := by
        rw [hobj, List.find?_cons_of_pos (by simp)]
      rw [if_pos hkind, ref, hfind, List.filter_cons_of_pos hkind]
      refine (updateMetas_eq cfg hfresh b kinds _ (n + 1) ?_).trans ?_
      · exact congrArg _ ((congrArg _ hobj).trans hobj')
      · have hcount : n + 1 + (kinds.filter cfg.outputs).length = n + (kind :: kinds.filter cfg.outputs).length := by
          rw [List.length_cons]
          omega
        have hpriv : (fun b' k => if b' = b ∧ k ∈ kinds.filter cfg.outputs then pGstObj
            else if b' = b ∧ k = kind then pGstObj else s.privData b' k) =
            fun b' k => if b' = b ∧ k ∈ kind :: kinds.filter cfg.outputs then pGstObj else s.privData b' k := by
          funext b' k
          by_cases hb : b' = b <;> by_cases hk : k = kind <;> simp [hb, hk]
        simp only [setRefcount, hcount, hpriv, List.append_assoc, List.map_cons, List.singleton_append]
    · rw [if_neg hkind, List.filter_cons_of_neg hkind]
      exact updateMetas_eq cfg hfresh b kinds s n hobj

def kinds : List MetaKind := [.pastFrame, .batchReid, .terminatedTrack, .shadowTrack]

theorem updateUserMeta_eq {pGstObj : ℕ} (herr : s.trackerLibError = false)
    (hfresh : pGstObj ∉ s.objects.map MiscDataObject.id) :
    updateUserMeta cfg pGstObj (some b) s =
      unref cfg pGstObj { s with
        objects := ⟨pGstObj, 1 + (kinds.filter cfg.outputs).length, b⟩ :: s.objects
        privData := fun b' k => if b' = b ∧ k ∈ kinds.filter cfg.outputs then pGstObj else s.privData b' k
        metas := s.metas ++ (kinds.filter cfg.outputs).map fun kind => ⟨kind, b⟩ } := by
  have hmetas := updateMetas_eq cfg hfresh b kinds { s with objects := ⟨pGstObj, 1, b⟩ :: s.objects } 1 rfl
  have hchain : updateUserMeta cfg pGstObj (some b) s =
      (kinds.foldlM (fun s kind => updateMeta cfg kind pGstObj b s)
        { s with objects := ⟨pGstObj, 1, b⟩ :: s.objects }).bind (unref cfg pGstObj) := by
    simp only [updateUserMeta, herr, if_neg Bool.false_ne_true, if_neg hfresh, kinds, List.foldlM_cons, List.foldlM_nil,
      Option.bind_eq_bind, Option.bind_assoc]
    rfl
  rw [hchain, hmetas, Option.bind_some]

/-- A buffer is there only where a meta is attached. -/
theorem outputs_pos (h : cfg.intentionallyEmpty = false) : 0 < (kinds.filter cfg.outputs).length := by
  have hout : cfg.pastFrame = true ∨ cfg.outputReidTensor = true ∨ cfg.outputTerminatedTracks = true := by
    by_contra hnone
    rw [not_or, not_or] at hnone
    simp [TrackerConfig.intentionallyEmpty, hnone] at h
  have hmem : ∀ kind ∈ kinds, cfg.outputs kind = true → 0 < (kinds.filter cfg.outputs).length := fun kind hkind hout =>
    List.length_pos_of_mem (List.mem_filter.mpr ⟨hkind, hout⟩)
  rcases hout with hout | hout | hout
  · exact hmem .pastFrame (by decide) hout
  · exact hmem .batchReid (by decide) hout
  · exact hmem .terminatedTrack (by decide) hout

/-- The buffer goes to a new object, with a reference for each meta, or back. -/
theorem updateUserMeta_spec {pMiscDataBuf : Option ℕ} (hacc : Accounts cfg s pMiscDataBuf.toList) (hrefs : Refs s)
    {pGstObj : ℕ}
    (hfresh : pMiscDataBuf ≠ none → s.trackerLibError = false → pGstObj ∉ s.objects.map MiscDataObject.id) :
    ∃ s', updateUserMeta cfg pGstObj pMiscDataBuf s = some s' ∧ Inv cfg s' ∧ s'.worker = s.worker := by
  cases pMiscDataBuf with
  | none => exact ⟨s, rfl, ⟨hacc, hrefs⟩, rfl⟩
  | some b =>
    replace hacc : Accounts cfg s [b] := hacc
    by_cases herr : s.trackerLibError = true
    · obtain ⟨hret, hacc'⟩ := returnBuffer_spec hacc
      refine ⟨_, ?_, ⟨hacc', hrefs.ids, hrefs.refcount, hrefs.live⟩, rfl⟩
      rw [updateUserMeta, if_pos herr, hret]
    · rw [Bool.not_eq_true] at herr
      replace hfresh := hfresh (Option.some_ne_none b) herr
      have hpos := outputs_pos (hacc.not_empty List.mem_cons_self)
      have hb : ∀ o ∈ s.objects, o.miscDataBuffer ≠ b := fun o ho heq => by
        have hnotin := (List.nodup_cons.mp hacc.loose_nodup).1
        exact hnotin (List.mem_append_right _ (List.mem_append_right _ (List.mem_map.mpr ⟨o, ho, heq⟩)))
      have hold : ∀ m ∈ s.metas, m.buffer ≠ b := fun m hm heq => by
        obtain ⟨o, ho, -, hbuf⟩ := hrefs.live m hm
        exact hb o ho (hbuf.trans heq)
      have hfilter : s.objects.filter (·.id ≠ pGstObj) = s.objects :=
        List.filter_eq_self.mpr fun o ho => decide_eq_true fun heq => hfresh (List.mem_map.mpr ⟨o, ho, heq⟩)
      rw [updateUserMeta_eq herr hfresh]
      generalize hnew : kinds.filter cfg.outputs = new at hpos
      have hmany : 1 + new.length ≠ 1 := by omega
      rw [unref, List.find?_cons_of_pos (by simp), Option.bind_some, if_neg hmany]
      simp only [setRefcount, Nat.add_sub_cancel_left, List.filter_cons_of_neg, ne_eq, not_true_eq_false, decide_false,
        Bool.false_eq_true, not_false_eq_true, hfilter]
      refine ⟨_, rfl, ⟨?_, ⟨?_, ?_, ?_⟩⟩, rfl⟩
      · have hperm : (b :: (s.worker.buffer.toList ++ s.objects.map MiscDataObject.miscDataBuffer)).Perm
            (s.worker.buffer.toList ++ b :: s.objects.map MiscDataObject.miscDataBuffer) := List.perm_middle.symm
        exact hacc.of_perm rfl rfl hperm
      · exact List.nodup_cons.mpr ⟨hfresh, hrefs.ids⟩
      · refine List.forall_mem_cons.mpr ⟨⟨?_, hpos⟩, fun o ho => ?_⟩
        · have hzero : s.metas.countP (·.buffer = b) = 0 :=
            List.countP_eq_zero.mpr fun m hm => by simpa using hold m hm
          have hall : (new.map fun kind => (⟨kind, b⟩ : UserMeta)).countP (·.buffer = b) = new.length := by
            rw [List.countP_eq_length.mpr fun m hm => ?_, List.length_map]
            obtain ⟨kind, -, rfl⟩ := List.mem_map.mp hm
            exact decide_eq_true rfl
          rw [List.countP_append, hzero, hall, Nat.zero_add]
        · obtain ⟨hcount, hpos⟩ := hrefs.refcount o ho
          refine ⟨?_, hpos⟩
          rw [List.countP_append, ← hcount, List.countP_eq_zero.mpr, Nat.add_zero]
          rintro m hm heq
          obtain ⟨kind, -, rfl⟩ := List.mem_map.mp hm
          exact hb o ho (of_decide_eq_true heq).symm
      · intro m hm
        rcases List.mem_append.mp hm with hm | hm
        · obtain ⟨o, ho, hid, hbuf⟩ := hrefs.live m hm
          refine ⟨o, List.mem_cons_of_mem _ ho, hid.trans ?_, hbuf⟩
          exact (if_neg fun h => hold m hm h.1).symm
        · obtain ⟨kind, hkind, rfl⟩ := List.mem_map.mp hm
          exact ⟨_, List.mem_cons_self, (if_pos ⟨rfl, hkind⟩).symm, rfl⟩

/-! ### One step -/

/-- Only the worker moves, and the error is set. -/
theorem Inv.of_same (h : Inv cfg s) (err : Bool) (w : Worker) (hw : w.buffer = s.worker.buffer) :
    Inv cfg { s with trackerLibError := err, worker := w } := by
  refine ⟨h.accounts.of_perm rfl rfl ?_, h.refs.ids, h.refs.refcount, h.refs.live⟩
  rw [held, held, hw]

/-- The worker lets go of its buffer. -/
theorem accounts_idle (h : Inv cfg s) {buf : Option ℕ} (hw : s.worker.buffer = buf) :
    Accounts cfg { s with worker := .idle } buf.toList := by
  refine h.accounts.of_perm rfl rfl ?_
  rw [held, hw]
  exact List.Perm.refl _

theorem toUpdate_buffer {buf : Option ℕ} (h : toUpdate cfg s = some buf) : s.worker.buffer = buf := by
  unfold toUpdate at h
  split at h
  · rename_i hw _
    cases h
    rw [hw, Worker.buffer]
  · rename_i hw
    cases h
    rw [hw, Worker.buffer]
  · cases h

theorem pop_inv (h : Inv cfg s) (hw : s.worker.buffer = none) :
    Inv cfg { (pop cfg s).2 with worker := .popped (pop cfg s).1 } := by
  unfold pop
  split
  · exact h.of_same _ _ hw.symm
  · cases hqueue : s.freeQueue with
    | nil =>
      refine ⟨h.accounts.of_perm rfl hqueue.symm ?_, h.refs.ids, h.refs.refcount, h.refs.live⟩
      rw [held, hw]
      exact List.Perm.refl _
    | cons x rest =>
      have hperm := h.accounts.perm
      rw [hqueue] at hperm
      obtain ⟨b, -, rfl⟩ := List.mem_map.mp (hperm.mem_iff.mp List.mem_cons_self)
      refine ⟨⟨?_, h.accounts.nodup, h.accounts.empty⟩, h.refs.ids, h.refs.refcount, h.refs.live⟩
      have hheld : held s = s.objects.map MiscDataObject.miscDataBuffer := by
        rw [held, hw]
        rfl
      rw [hheld] at hperm
      refine List.Perm.trans ?_ hperm
      exact List.perm_middle

theorem process_inv (h : Inv cfg s) {ok : Bool} (hok : NullKept cfg s (.process ok)) (hs : process cfg ok s = some s') :
    Inv cfg s' := by
  unfold process at hs
  split at hs
  · cases hs
    exact h.of_same _ _ rfl
  · rename_i buf hw hmode
    have hbuf : s.worker.buffer = buf := by rw [hw, Worker.buffer]
    split at hs
    · cases hs
      exact h.of_same _ _ hbuf.symm
    · rename_i hfail
      rw [Bool.not_eq_true] at hfail
      subst hfail
      have hacc := accounts_idle h hbuf
      cases buf with
      | none =>
        -- here the pool is empty on purpose, and nothing is returned
        rw [returnBuffer, if_pos (hok hmode rfl hw)] at hs
        cases hs
        exact ⟨hacc, h.refs.ids, h.refs.refcount, h.refs.live⟩
      | some b =>
        obtain ⟨hret, hacc'⟩ := returnBuffer_spec hacc
        rw [hret] at hs
        cases hs
        exact ⟨hacc', h.refs.ids, h.refs.refcount, h.refs.live⟩
  · cases hs

theorem updateUserMeta_inv (h : Inv cfg s) {buf : Option ℕ} (hw : s.worker.buffer = buf) {pGstObj : ℕ}
    (hs : updateUserMeta cfg pGstObj buf { s with worker := .idle } = some s') : Inv cfg s' := by
  have hrefs : Refs { s with worker := .idle } := ⟨h.refs.ids, h.refs.refcount, h.refs.live⟩
  have hfresh : buf ≠ none → s.trackerLibError = false → pGstObj ∉ s.objects.map MiscDataObject.id :=
    fun hsome herr hmem => by
      obtain ⟨b, rfl⟩ := Option.ne_none_iff_exists'.mp hsome
      rw [updateUserMeta, if_neg (by simpa using herr), if_pos hmem] at hs
      cases hs
  obtain ⟨s₁, hs₁, hinv, -⟩ := updateUserMeta_spec (accounts_idle h hw) hrefs hfresh
  rw [hs] at hs₁
  cases hs₁
  exact hinv

/-- When nothing is in the hands of a batch the queue is full. -/
theorem isQueueFull_iff (h : Inv cfg s) : isQueueFull s ↔ held s = [] := by
  have hlen := h.accounts.perm.length_eq
  rw [List.length_append, List.length_map, List.length_map, List.nil_append] at hlen
  rw [isQueueFull, ← List.length_eq_zero_iff]
  omega

theorem deInit_inv (h : Inv cfg s) (hs : deInit cfg s = some s') : Inv cfg s' := by
  unfold deInit at hs
  split at hs
  · cases hs
    exact h
  · split at hs
    · rename_i hfull
      cases hs
      have hheld : held s = [] := (isQueueFull_iff h).mp hfull.1
      refine ⟨⟨?_, List.nodup_nil, fun _ => rfl⟩, h.refs.ids, h.refs.refcount, h.refs.live⟩
      have hheld' : held { s with freeQueue := [], bufferSet := [] } = [] := hheld
      rw [hheld']
      exact List.Perm.refl _
    · cases hs

theorem step_inv {l : Label} (h : Inv cfg s) (hok : NullKept cfg s l) (hs : step cfg s l = some s') : Inv cfg s' := by
  cases l with
  | setError =>
    cases hs
    exact h.of_same _ _ rfl
  | start =>
    obtain ⟨⟨hw, -⟩, hs⟩ := Option.ite_none_right_eq_some.mp hs
    cases hs
    exact h.of_same _ _ (by rw [hw]; rfl)
  | pop =>
    obtain ⟨hw, hs⟩ := Option.ite_none_right_eq_some.mp hs
    cases hs
    exact pop_inv h (by rw [hw]; rfl)
  | process ok => exact process_inv h hok hs
  | retrieve ok =>
    obtain ⟨_, -, rfl⟩ := Option.map_eq_some_iff.mp hs
    exact h.of_same _ _ rfl
  | updateUserMeta pGstObj =>
    obtain ⟨buf, hbuf, hs⟩ := Option.bind_eq_some_iff.mp hs
    exact updateUserMeta_inv h (toUpdate_buffer hbuf) hs
  | copyMeta m =>
    have hm : m ∈ s.metas := (Option.ite_none_right_eq_some.mp hs).1
    obtain ⟨s₁, hs₁, hinv, -⟩ := copyMeta_spec h hm
    cases hs.symm.trans hs₁
    exact hinv
  | releaseMeta m =>
    have hm : m ∈ s.metas := (Option.ite_none_right_eq_some.mp hs).1
    obtain ⟨s₁, hs₁, hinv, -⟩ := releaseMeta_spec h hm
    cases hs.symm.trans hs₁
    exact hinv
  | deInit =>
    obtain ⟨hw, hs⟩ := Option.ite_none_right_eq_some.mp hs
    exact deInit_inv (h.of_same _ _ (by rw [hw]; rfl)) hs

/-! ### Whole runs -/

theorem Inv.reach (h : Inv cfg s) (hr : Reach (step cfg) (NullKept cfg) (· = s) s') : Inv cfg s' :=
  hr.invariant (fun _ heq => heq ▸ h) fun _ _ _ hi hok hs => step_inv hi hok hs

/-- The worker can come to where it has no buffer. -/
theorem exists_idle (h : Inv cfg s) :
    ∃ s', Reach (step cfg) (NullKept cfg) (· = s) s' ∧ s'.worker.buffer = none := by
  have hupdate : ∀ {s : State}, Inv cfg s → ∀ buf, toUpdate cfg s = some buf →
      ∃ s', Reach (step cfg) (NullKept cfg) (· = s) s' ∧ s'.worker.buffer = none := fun {s} h buf hbuf => by
    obtain ⟨pGstObj, hfresh⟩ := Infinite.exists_notMem_finset (s.objects.map MiscDataObject.id).toFinset
    rw [List.mem_toFinset] at hfresh
    have hrefs : Refs { s with worker := .idle } := ⟨h.refs.ids, h.refs.refcount, h.refs.live⟩
    obtain ⟨s', hs', -, hw⟩ := updateUserMeta_spec (accounts_idle h (toUpdate_buffer hbuf)) hrefs fun _ _ => hfresh
    have hstep : step cfg s (.updateUserMeta pGstObj) = some s' := Option.bind_eq_some_iff.mpr ⟨buf, hbuf, hs'⟩
    exact ⟨s', .single (fun _ hl => by cases hl) hstep, by rw [hw]; rfl⟩
  have hpopped : ∀ {s : State}, Inv cfg s → ∀ buf, s.worker = .popped buf →
      ∃ s', Reach (step cfg) (NullKept cfg) (· = s) s' ∧ s'.worker.buffer = none := fun {s} h buf hw => by
    cases hmode : cfg.mode with
    | batch =>
      refine hupdate h buf ?_
      rw [toUpdate, hw, hmode]
    | subBatch =>
      have hok : NullKept cfg s (.process true) := fun _ hl => by cases hl
      have hstep : step cfg s (.process true) = some { s with worker := .processed buf } := by
        rw [step, process, hw, hmode]
        rfl
      have hto : toUpdate cfg { s with worker := .processed buf } = some buf := by
        rw [toUpdate]
      obtain ⟨s', hr, hidle⟩ := hupdate (step_inv h hok hstep) buf hto
      exact ⟨s', (Reach.single hok hstep).trans hr, hidle⟩
  cases hw : s.worker with
  | idle => exact ⟨s, .init rfl, by rw [hw]; rfl⟩
  | ended => exact ⟨s, .init rfl, by rw [hw]; rfl⟩
  | popping =>
    have hok : NullKept cfg s .pop := fun _ hl => by cases hl
    have hstep : step cfg s .pop = some { (pop cfg s).2 with worker := .popped (pop cfg s).1 } := if_pos hw
    obtain ⟨s', hr, hidle⟩ := hpopped (step_inv h hok hstep) _ rfl
    exact ⟨s', (Reach.single hok hstep).trans hr, hidle⟩
  | popped buf => exact hpopped h buf hw
  | processed buf =>
    refine hupdate h buf ?_
    rw [toUpdate, hw]

theorem metas_drain (h : Inv cfg s) (hw : s.worker.buffer = none) :
    ∃ s', Reach (step cfg) (NullKept cfg) (· = s) s' ∧ s'.worker.buffer = none ∧ s'.metas = [] := by
  induction hn : s.metas.length generalizing s with
  | zero => exact ⟨s, .init rfl, hw, List.length_eq_zero_iff.mp hn⟩
  | succ n ih =>
    obtain ⟨m, ms, hms⟩ := List.exists_cons_of_length_eq_add_one hn
    have hm : m ∈ s.metas := by simp [hms]
    obtain ⟨s₁, hs₁, hinv, hw₁, hmetas⟩ := releaseMeta_spec h hm
    have hlen : s₁.metas.length = n := by rw [hmetas, List.length_erase_of_mem hm, hn, Nat.add_sub_cancel]
    obtain ⟨s', hr, hidle, hnil⟩ := ih hinv (hw₁ ▸ hw) hlen
    have hok : NullKept cfg s (.releaseMeta m) := fun _ hl => by cases hl
    exact ⟨s', (Reach.single hok hs₁).trans hr, hidle, hnil⟩

/-- From each state the pool can become full. -/
theorem exists_full (h : Inv cfg s) : ∃ s', Reach (step cfg) (NullKept cfg) (· = s) s' ∧ isQueueFull s' := by
  obtain ⟨s₁, hr₁, hw₁⟩ := exists_idle h
  obtain ⟨s₂, hr₂, hw₂, hnil⟩ := metas_drain (h.reach hr₁) hw₁
  have hinv := h.reach (hr₁.trans hr₂)
  refine ⟨s₂, hr₁.trans hr₂, (isQueueFull_iff hinv).mpr ?_⟩
  -- an object without metas would have no reference
  have hobjects : s₂.objects = [] := List.eq_nil_iff_forall_not_mem.mpr fun o ho => by
    obtain ⟨hcount, hpos⟩ := hinv.refs.refcount o ho
    rw [hnil, List.countP_nil] at hcount
    omega
  rw [held, hw₂, hobjects]
  rfl

theorem Inv.nonNull (h : Inv cfg s) : none ∉ s.freeQueue := fun hnone => by
  obtain ⟨b, -, hb⟩ := List.mem_map.mp (h.accounts.perm.mem_iff.mp (List.mem_append_left _ hnone))
  cases hb

theorem Inv.sound (h : Inv cfg s) : Sound cfg s := by
  have hperm := h.accounts.perm
  rw [List.nil_append] at hperm
  have hmem : ∀ x ∈ s.freeQueue, x ∈ s.bufferSet.map some := fun x hx =>
    hperm.mem_iff.mp (List.mem_append_left _ hx)
  have hnodup := (hperm.nodup_iff).mpr (h.accounts.nodup.map (Option.some_injective ℕ))
  refine ⟨h.nonNull, fun b hb => ?_, (List.nodup_append.mp hnodup).1, fun b hb => ?_, isQueueFull_iff h, ?_⟩
  · obtain ⟨b', hb', heq⟩ := List.mem_map.mp (hmem _ hb)
    cases heq
    exact hb'
  · have hcount := hperm.count_eq (some b)
    rw [List.count_append, List.count_map_of_injective _ _ (Option.some_injective ℕ),
      List.count_map_of_injective _ _ (Option.some_injective ℕ),
      List.count_eq_one_of_mem h.accounts.nodup hb] at hcount
    exact hcount
  · obtain ⟨s', hr, hfull⟩ := exists_full h
    refine ⟨s', hr, ?_⟩
    unfold deInit
    rw [if_pos (⟨hfull, (h.reach hr).nonNull⟩ : isQueueFull s' ∧ none ∉ s'.freeQueue)]
    split <;> rfl

end Parts

/-- The pool stays sound in every run in which the library never fails for a sub-batch
without a buffer. -/
theorem pool_sound (cfg : TrackerConfig) {s : State} (h : Reach (step cfg) (NullKept cfg) (· = init cfg) s) :
    Sound cfg s :=
  ((init_inv cfg).reach h).sound

/-- One buffer, and only the tensors for re-identification. -/
def reidOnly : TrackerConfig where
  mode := .subBatch
  pastFrame := false
  outputReidTensor := true
  outputTerminatedTracks := false
  outputShadowTracks := false
  reidFeatureSize := 1
  maxMiscDataPoolSize := 1

/-- A batch is sent on with the buffer; its meta is released while the next has none. -/
def released : List Label :=
  [.start, .pop, .process true, .updateUserMeta 0, .start, .pop, .process true, .releaseMeta ⟨.batchReid, 0⟩]

theorem pool_sound_released : Sound reidOnly
    ((exec (step reidOnly) (NullKept reidOnly) (init reidOnly) released).get (by decide +kernel)) :=
  pool_sound reidOnly (Reach.of_exec released (.init rfl) (Option.some_get _).symm)

/-- The library fails for a batch that has no buffer. -/
def failed : List Label :=
  [.start, .pop, .process true, .updateUserMeta 0, .start, .pop, .process false]

/-- A null pointer gets into the queue, which is full then though the buffer is out. -/
theorem pool_null : ∃ s, Reach (step reidOnly) anyStep (· = init reidOnly) s ∧
    s.freeQueue = [none] ∧ s.bufferSet = [0] ∧ held s = [0] ∧ ¬ Sound reidOnly s := by
  have hsome : (exec (step reidOnly) anyStep (init reidOnly) failed).isSome := by decide +kernel
  have hreach : Reach (step reidOnly) anyStep (· = init reidOnly) (Option.get _ hsome) :=
    Reach.of_exec failed (.init rfl) (Option.some_get hsome).symm
  exact ⟨_, hreach, rfl, rfl, rfl, fun h => h.nonNull List.mem_cons_self⟩

end MiscData
end Tracker
end DeepStream
