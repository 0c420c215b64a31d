/-
# The pool of output batches of an inference context

A context owns a pool of batches. `queueInputBatch` takes a free batch, fills it
and puts it in the queue of those in process, `dequeueOutputBatch` hands the next
of these to the client, and `releaseBatchOutput` takes it back; what fails gives
its batch back by itself. With `auto-inc-mem` a caller that finds no free batch
enlarges the pool first. A batch is its position in the pool, and an entry of
the pool may be null. The operations run on any threads; a section is what one
does between two waits.

`held` says of an output that its client has it and has not released it.
-/
import DeepStream.Infer.Layers
import DeepStream.Lib.Run
import DeepStream.Lib.Stacks

namespace DeepStream
namespace Infer

/-- `allocated`: all its buffers and its event are there. -/
structure NvDsInferBatch where
  allocated : Bool
  batchSize : ℕ
  buffersWithContext : Bool
  deriving DecidableEq, Repr

structure NvDsInferContextImpl where
  maxBatchSize : ℕ
  autoIncMem : Bool
  batches : List (Option NvDsInferBatch)
  freeBatchQueue : List ℕ
  processBatchQueue : List ℕ
  deriving DecidableEq, Repr

/-- How many batches the queue functions add to an exhausted pool. -/
def growBy : ℕ := 6

/-- `NvDsInferContextBatchOutput`: `priv` is the batch, when the output was
filled. -/
structure BatchOutput where
  priv : Option ℕ
  held : Bool
  deriving DecidableEq, Repr

/-- The context and the operations in progress: the callers that found no free
batch, the one in the loop of `resizeOutputBufferpool` with the positions it has
still to fill (it owns `m_BatchesMutex`), those that wait for a free batch, and
those that have taken one, to queue it or to dequeue it. A caller is the size of
what it queues. -/
structure Sys where
  ctx : NvDsInferContextImpl
  growing : List ℕ
  resizing : Option (ℕ × List ℕ)
  popping : List ℕ
  queuing : List ℕ
  dequeuing : List ℕ
  outputs : List BatchOutput
  deriving DecidableEq, Repr

/-- A section; a status stands for what the device, the preprocessor, the
backend or the postprocessor return in it. -/
inductive Action where
  | queueInputBatch (numInputFrames : ℕ) (transform : NvDsInferStatus)
  | queueInputBatchPreprocessed (batchSize : ℕ) (setDevice : NvDsInferStatus)
  | resize (k : ℕ) (memLow : Bool)
  | initBatch (allocated : Bool)
  | popFree (k : ℕ)
  | enqueued (k : ℕ) (status : NvDsInferStatus)
  | dequeueOutputBatch
  | postProcessed (k : ℕ) (status : NvDsInferStatus)
  | releaseBatchOutput (o : ℕ)

namespace Sys

/-- A new context with a pool of `n` batches. -/
def new (maxBatchSize : ℕ) (autoIncMem : Bool) (n : ℕ) : Sys where
  ctx :=
    { maxBatchSize := maxBatchSize
      autoIncMem := autoIncMem
      batches := List.replicate n (some ⟨true, 0, true⟩)
      freeBatchQueue := List.range n
      processBatchQueue := [] }
  growing := []
  resizing := none
  popping := []
  queuing := []
  dequeuing := []
  outputs := []

def Started (s : Sys) : Prop := ∃ maxBatchSize autoIncMem n, s = new maxBatchSize autoIncMem n

/-- The part of the two queue functions that looks for a free batch. -/
def reserve (s : Sys) (batchSize : ℕ) : Sys :=
  if s.ctx.freeBatchQueue.isEmpty ∧ s.ctx.autoIncMem then { s with growing := s.growing ++ [batchSize] }
  else { s with popping := s.popping ++ [batchSize] }

def setBatch (s : Sys) (i : ℕ) (b : NvDsInferBatch) : Sys :=
  { s with ctx := { s.ctx with batches := s.ctx.batches.set i (some b) } }

def pushFree (s : Sys) (i : ℕ) : Sys :=
  { s with ctx := { s.ctx with freeBatchQueue := s.ctx.freeBatchQueue ++ [i] } }

/-- The start of `resizeOutputBufferpool`, when the mutex is free: the check of
the memory in use and the new null entries. -/
def resizeOutputBufferpool (s : Sys) (k : ℕ) (memLow : Bool) : Option Sys :=
  match s.resizing, s.growing[k]? with
  | none, some n =>
    let size := s.ctx.batches.length
    let s := { s with growing := s.growing.eraseIdx k }
    if size ≠ 0 ∧ memLow then some s
    else some { s with
      ctx.batches := s.ctx.batches ++ List.replicate growBy none
      resizing := some (n, List.range' size growBy) }
  | _, _ => none

/-- The loop of `resizeOutputBufferpool` at one position. After the last one the
caller goes on to the free queue; a failed allocation ends the loop, and the
caller drops what it queued. -/
def initBatch (s : Sys) (allocated : Bool) : Option Sys :=
  match s.resizing with
  | some (n, iB :: rest) =>
    let s := s.setBatch iB ⟨allocated, 0, true⟩
    if allocated then
      let s := s.pushFree iB
      if rest.isEmpty then some { s with resizing := none, popping := s.popping ++ [n] }
      else some { s with resizing := some (n, rest) }
    else some { s with resizing := none }
  | _ => none

/-- `releaseBatchOutput`, when the mutex is free. A null pointer is found when
the pool has a null entry, and then it is read. -/
def releaseBatchOutput (s : Sys) (o : ℕ) : Option Sys :=
  if s.resizing.isSome then none else
  match s.outputs[o]? with
  | none => none
  | some ⟨none, _⟩ => if none ∈ s.ctx.batches then none else some s
  | some ⟨some i, _⟩ =>
    match s.ctx.batches[i]? with
    | some (some b) =>
      if b.buffersWithContext then some s
      else some { (s.setBatch i { b with buffersWithContext := true }).pushFree i with
        outputs := s.outputs.set o ⟨some i, false⟩ }
    | _ => some s

def step (s : Sys) : Action → Option Sys
  | .queueInputBatch n transform =>
    if n > s.ctx.maxBatchSize ∨ transform ≠ .success then some s else some (s.reserve n)
  | .queueInputBatchPreprocessed n setDevice =>
    if setDevice ≠ .success then some s else some (s.reserve n)
  | .resize k memLow => s.resizeOutputBufferpool k memLow
  | .initBatch allocated => s.initBatch allocated
  | .popFree k =>
    match s.popping[k]?, s.ctx.freeBatchQueue with
    | some n, i :: free =>
      match s.ctx.batches[i]? with
      | some (some b) =>
        some { (s.setBatch i { b with batchSize := n }) with
          ctx.freeBatchQueue := free
          popping := s.popping.eraseIdx k
          queuing := s.queuing ++ [i] }
      | _ => none
    | _, _ => none
  | .enqueued k status =>
    match s.queuing[k]? with
    | none => none
    | some i =>
      let s := { s with queuing := s.queuing.eraseIdx k }
      if status ≠ .success then some (s.pushFree i)
      else some { s with ctx.processBatchQueue := s.ctx.processBatchQueue ++ [i] }
  | .dequeueOutputBatch =>
    match s.ctx.processBatchQueue with
    | [] => none
    | i :: process => some { s with ctx.processBatchQueue := process, dequeuing := s.dequeuing ++ [i] }
  | .postProcessed k status =>
    match s.dequeuing[k]? with
    | none => none
    | some i =>
      let s := { s with dequeuing := s.dequeuing.eraseIdx k }
      if status ≠ .success then some { s.pushFree i with outputs := s.outputs ++ [⟨none, false⟩] }
      else
        match s.ctx.batches[i]? with
        | some (some b) =>
          some { s.setBatch i { b with buffersWithContext := false } with
            outputs := s.outputs ++ [⟨some i, true⟩] }
        | _ => none
  | .releaseBatchOutput o => s.releaseBatchOutput o

/-! ### The invariant -/

/-- The batches that clients hold. -/
def hands (s : Sys) : List ℕ := s.outputs.filterMap fun o => if o.held then o.priv else none

/-- The positions that the pool being enlarged has still to fill. -/
def unfilled (s : Sys) : List ℕ := (s.resizing.map (·.2)).getD []

/-- The places where a batch can be. -/
def places (s : Sys) : List ℕ :=
  s.ctx.freeBatchQueue ++ s.ctx.processBatchQueue ++ s.queuing ++ s.dequeuing ++ s.hands

/-- Every entry of the pool but those still to be filled is a batch, each batch
is in exactly one place, and the flag says of each whether a client has it. -/
structure PoolOk (s : Sys) : Prop where
  valid : ∀ i b, s.ctx.batches[i]? = some b → i ∉ s.unfilled → b.any (·.allocated) = true
  places : (s.places ++ s.unfilled).Perm (List.range s.ctx.batches.length)
  flags : ∀ i b, s.ctx.batches[i]? = some (some b) → (b.buffersWithContext = false ↔ i ∈ s.hands)

/-- What a section must not do: fail to allocate a batch of the enlarged pool,
or release an output that its client does not hold while another client holds
the batch. -/
def PoolStepOk (s : Sys) : Action → Prop
  | .initBatch allocated => allocated = true
  | .releaseBatchOutput o => ∀ out ∈ s.outputs[o]?, out.held = true ∨ ∀ i ∈ out.priv, i ∉ s.hands
  | _ => True

instance (s : Sys) (a : Action) : Decidable (PoolStepOk s a) :=
  match a with
  | .initBatch allocated => inferInstanceAs (Decidable (allocated = true))
  | .releaseBatchOutput o =>
    inferInstanceAs (Decidable (∀ out ∈ s.outputs[o]?, out.held = true ∨ ∀ i ∈ out.priv, i ∉ s.hands))
  | .queueInputBatch .. => inferInstanceAs (Decidable True)
  | .queueInputBatchPreprocessed .. => inferInstanceAs (Decidable True)
  | .resize .. => inferInstanceAs (Decidable True)
  | .popFree .. => inferInstanceAs (Decidable True)
  | .enqueued .. => inferInstanceAs (Decidable True)
  | .dequeueOutputBatch => inferInstanceAs (Decidable True)
  | .postProcessed .. => inferInstanceAs (Decidable True)

/-- The batch that a failing section has taken. -/
def failedBatch (s : Sys) : Action → Option ℕ
  | .enqueued k status => if status = .success then none else s.queuing[k]?
  | .postProcessed k status => if status = .success then none else s.dequeuing[k]?
  | _ => none

/-! ### Moving batches -/

variable {s s' : Sys}

theorem perm_eraseIdx {α : Type*} {x : α} {l : List α} {i : ℕ} (h : l[i]? = some x) :
    (x :: l.eraseIdx i).Perm l := by
  obtain ⟨hi, rfl⟩ := List.getElem?_eq_some_iff.mp h
  exact List.getElem_cons_eraseIdx_perm hi

/-- What the client of an output has of the pool. -/
theorem hands_append (s : Sys) (out : BatchOutput) :
    ({ s with outputs := s.outputs ++ [out] } : Sys).hands =
      s.hands ++ (if out.held then out.priv else none).toList := by
  unfold hands
  rw [List.filterMap_append]
  cases h : (if out.held then out.priv else none) <;> simp [h]

theorem hands_release {o i : ℕ} (ho : s.outputs[o]? = some ⟨some i, true⟩) :
    (i :: ({ s with outputs := s.outputs.set o ⟨some i, false⟩ } : Sys).hands).Perm s.hands := by
  have h := (perm_set (y := (⟨some i, false⟩ : BatchOutput)) ho).filterMap
    fun o : BatchOutput => if o.held then o.priv else none
  simpa [hands] using h

namespace PoolOk

theorem nodup (h : PoolOk s) : (s.places ++ s.unfilled).Nodup :=
  h.places.nodup_iff.mpr List.nodup_range

theorem lt_length (h : PoolOk s) {i : ℕ} (hi : i ∈ s.places ++ s.unfilled) :
    i < s.ctx.batches.length :=
  List.mem_range.mp (h.places.mem_iff.mp hi)

/-- The same pool with its batches in other places. -/
theorem of_perm (h : PoolOk s) (hb : s'.ctx.batches = s.ctx.batches) (hh : s'.hands = s.hands)
    (hu : s'.unfilled = s.unfilled) (hp : s'.places.Perm s.places) : PoolOk s' where
  valid := by
    rw [hb, hu]
    exact h.valid
  places := by
    rw [hb, hu]
    exact (hp.append_right _).trans h.places
  flags := by
    rw [hb, hh]
    exact h.flags

/-- Writing a batch that is where its new flag says. -/
theorem setBatch (h : PoolOk s) {i : ℕ} {b : NvDsInferBatch}
    (hb : s'.ctx.batches = s.ctx.batches.set i (some b)) (hbu : b.allocated = true)
    (hsub : ∀ j ∈ s.unfilled, j ∉ s'.unfilled → j = i)
    (hp : (s'.places ++ s'.unfilled).Perm (s.places ++ s.unfilled))
    (hother : ∀ j, j ≠ i → (j ∈ s'.hands ↔ j ∈ s.hands))
    (hflag : b.buffersWithContext = false ↔ i ∈ s'.hands) : PoolOk s' where
  valid j c hc hj := by
    rw [hb, List.getElem?_set] at hc
    by_cases hij : i = j
    · by_cases hl : j < s.ctx.batches.length
      · simp only [hij, ↓reduceIte, hl, Option.some.injEq] at hc
        simp [← hc, hbu]
      · simp [hij, hl] at hc
    · rw [if_neg hij] at hc
      exact h.valid j c hc fun hju => hij (hsub j hju hj).symm
  places := by
    rw [hb, List.length_set]
    exact hp.trans h.places
  flags j c hc := by
    rw [hb, List.getElem?_set] at hc
    by_cases hij : i = j
    · by_cases hl : j < s.ctx.batches.length
      · simp only [hij, ↓reduceIte, hl, Option.some.injEq] at hc
        rw [← hc, ← hij]
        exact hflag
      · simp [hij, hl] at hc
    · rw [if_neg hij] at hc
      rw [hother j (Ne.symm hij)]
      exact h.flags j c hc

/-- A batch in one of the places is there and complete. -/
theorem get (h : PoolOk s) {i : ℕ} (hi : i ∈ s.places) :
    ∃ b, s.ctx.batches[i]? = some (some b) ∧ b.allocated = true := by
  have hlt := h.lt_length (List.mem_append_left _ hi)
  have hu : i ∉ s.unfilled := fun hu => (List.nodup_append.mp h.nodup).2.2 i hi i hu rfl
  have hv := h.valid i _ (List.getElem?_eq_getElem hlt) hu
  cases hb : s.ctx.batches[i] with
  | none => simp [hb] at hv
  | some b => exact ⟨b, by rw [List.getElem?_eq_getElem hlt, hb], by simpa [hb] using hv⟩

theorem started (h : Started s) : PoolOk s := by
  obtain ⟨maxBatchSize, autoIncMem, n, rfl⟩ := h
  refine ⟨fun i b hb _ => ?_, ?_, fun i b hb => ?_⟩
  · have hb' := List.eq_of_mem_replicate (List.mem_of_getElem? hb)
    rw [hb', Option.any_some]
  · simp [new, Sys.places, unfilled, hands]
  · have hb' := List.eq_of_mem_replicate (List.mem_of_getElem? hb)
    rw [Option.some.injEq] at hb'
    simp [hb', new, hands]

/-- An exhausted pool is enlarged by positions to be filled. -/
theorem resize (h : PoolOk s) {k : ℕ} {memLow : Bool}
    (hs : s.resizeOutputBufferpool k memLow = some s') : PoolOk s' := by
  unfold resizeOutputBufferpool at hs
  split at hs
  · rename_i n hr _
    have hu : s.unfilled = [] := by simp [unfilled, hr]
    dsimp only at hs
    split at hs
    · obtain rfl := Option.some.inj hs
      exact h.of_perm rfl rfl rfl (List.Perm.refl _)
    · obtain rfl := Option.some.inj hs
      have hnew : ∀ i b, (s.ctx.batches ++ List.replicate growBy none)[i]? = some b →
          s.ctx.batches[i]? = some b ∨
            (b = none ∧ i ∈ List.range' s.ctx.batches.length growBy) := by
        intro i b hb
        by_cases hi : i < s.ctx.batches.length
        · rw [List.getElem?_append_left hi] at hb
          exact Or.inl hb
        · have hmem := hb
          rw [List.getElem?_append_right (Nat.le_of_not_lt hi)] at hmem
          obtain ⟨hlt, hnone⟩ := List.getElem?_eq_some_iff.mp hmem
          rw [List.length_replicate] at hlt
          rw [List.getElem_replicate] at hnone
          exact Or.inr ⟨hnone.symm, List.mem_range'_1.mpr ⟨Nat.le_of_not_lt hi, by omega⟩⟩
      refine ⟨fun i b hb hi => ?_, ?_, fun i b hb => ?_⟩
      · obtain hb | ⟨-, hmem⟩ := hnew i b hb
        · exact h.valid i b hb (by simp [hu])
        · exact absurd hmem hi
      · have hp := h.places
        rw [hu, List.append_nil] at hp
        show (s.places ++ List.range' s.ctx.batches.length growBy).Perm
          (List.range (s.ctx.batches ++ List.replicate growBy none).length)
        rw [List.length_append, List.length_replicate, List.range_add, ← List.range'_eq_map_range]
        exact hp.append_right _
      · obtain hb | ⟨hb, -⟩ := hnew i _ hb
        · exact h.flags i b hb
        · simp at hb
  · simp at hs

/-- A position is filled, unless the allocation fails. -/
theorem initBatch (h : PoolOk s) {allocated : Bool} (hs : s.initBatch allocated = some s') :
    PoolOk s' ↔ allocated = true := by
  unfold Sys.initBatch at hs
  split at hs
  · rename_i n iB rest hr
    have hu : s.unfilled = iB :: rest := by simp [unfilled, hr]
    have hnodup := h.nodup
    rw [hu] at hnodup
    have hnot : iB ∉ s.hands := fun hmem =>
      (List.nodup_append.mp hnodup).2.2 iB (by simp [Sys.places, hmem]) iB (by simp) rfl
    by_cases ha : allocated = true
    · have hperm : ∀ p r, p.Perm (s.places ++ [iB]) → r = rest →
          (p ++ r).Perm (s.places ++ s.unfilled) := by
        rintro p r hp rfl
        rw [hu]
        calc (p ++ r).Perm (s.places ++ [iB] ++ r) := hp.append_right _
          _ |>.Perm (s.places ++ iB :: r) := by simp
      have hplaces : (s.ctx.freeBatchQueue ++ [iB] ++ s.ctx.processBatchQueue ++ s.queuing ++
          s.dequeuing ++ s.hands).Perm (s.places ++ [iB]) := by
        rw [List.perm_iff_count]
        intro a
        simp only [Sys.places, List.count_append]
        omega
      simp only [ha, ↓reduceIte] at hs
      refine iff_of_true ?_ ha
      split at hs
      · rename_i hrest
        obtain rfl := Option.some.inj hs
        exact h.setBatch (i := iB) (b := ⟨true, 0, true⟩) rfl rfl
          (by simp [hu, List.isEmpty_iff.mp hrest])
          (hperm _ _ hplaces (List.isEmpty_iff.mp hrest).symm) (fun _ _ => Iff.rfl) (iff_of_false Bool.noConfusion hnot)
      · obtain rfl := Option.some.inj hs
        refine h.setBatch (i := iB) (b := ⟨true, 0, true⟩) rfl rfl ?_
          (hperm _ _ hplaces rfl) (fun _ _ => Iff.rfl) (iff_of_false Bool.noConfusion hnot)
        intro j hj hj'
        rw [hu, List.mem_cons] at hj
        exact hj.resolve_right hj'
    · rw [if_neg ha] at hs
      obtain rfl := Option.some.inj hs
      refine iff_of_false (fun hok => ?_) ha
      have hlt : iB < s.ctx.batches.length := h.lt_length (by simp [hu])
      have hv := hok.valid iB (some ⟨allocated, 0, true⟩) (by simp [Sys.setBatch, hlt]) (by simp [unfilled])
      simp [ha] at hv
  · simp at hs

/-- The head of the free queue goes to the caller. -/
theorem popFree (h : PoolOk s) {i n k : ℕ} {free : List ℕ} {b : NvDsInferBatch}
    (hf : s.ctx.freeBatchQueue = i :: free) (hb : s.ctx.batches[i]? = some (some b)) :
    PoolOk { (s.setBatch i { b with batchSize := n }) with
      ctx.freeBatchQueue := free
      popping := s.popping.eraseIdx k
      queuing := s.queuing ++ [i] } := by
  have hi : i ∈ s.places := by simp [Sys.places, hf]
  obtain ⟨c, hc, ha⟩ := h.get hi
  rw [hb, Option.some.injEq, Option.some.injEq] at hc
  refine h.setBatch (i := i) (b := { b with batchSize := n }) rfl (hc ▸ ha)
    (fun j hj hj' => absurd hj hj') ?_ (fun _ _ => Iff.rfl) (h.flags i b hb)
  refine List.Perm.append_right _ ?_
  rw [List.perm_iff_count]
  intro a
  simp only [Sys.places, hf, List.count_append, List.count_cons, List.count_nil]
  simp only [Sys.setBatch, Sys.hands]
  omega

/-- A batch taken from the callers or from the clients' threads goes to one of
the queues. -/
theorem enqueued (h : PoolOk s) {k i : ℕ} (hk : s.queuing[k]? = some i) (status : NvDsInferStatus) :
    PoolOk (if status ≠ .success then Sys.pushFree { s with queuing := s.queuing.eraseIdx k } i
      else { s with
        queuing := s.queuing.eraseIdx k
        ctx.processBatchQueue := s.ctx.processBatchQueue ++ [i] }) := by
  have hp : ∀ a, (i :: s.queuing.eraseIdx k).count a = s.queuing.count a :=
    List.perm_iff_count.mp (perm_eraseIdx hk)
  split <;>
  · refine h.of_perm rfl rfl rfl ?_
    rw [List.perm_iff_count]
    intro a
    have := hp a
    simp only [Sys.places, Sys.pushFree, Sys.hands, List.count_append, List.count_cons,
      List.count_nil] at this ⊢
    omega

theorem dequeue (h : PoolOk s) {i : ℕ} {process : List ℕ}
    (hq : s.ctx.processBatchQueue = i :: process) :
    PoolOk { s with ctx.processBatchQueue := process, dequeuing := s.dequeuing ++ [i] } := by
  refine h.of_perm rfl rfl rfl ?_
  rw [List.perm_iff_count]
  intro a
  simp only [Sys.places, hq, Sys.hands, List.count_append, List.count_cons, List.count_nil]
  omega

/-- What could not be postprocessed is free again. -/
theorem postProcessed_failed (h : PoolOk s) {k i : ℕ} (hk : s.dequeuing[k]? = some i) :
    PoolOk { Sys.pushFree { s with dequeuing := s.dequeuing.eraseIdx k } i with
      outputs := s.outputs ++ [⟨none, false⟩] } := by
  have hh : ({ Sys.pushFree { s with dequeuing := s.dequeuing.eraseIdx k } i with
      outputs := s.outputs ++ [⟨none, false⟩] } : Sys).hands = s.hands := by
    simp [Sys.hands]
  refine h.of_perm rfl hh rfl ?_
  have hp : ∀ a, (i :: s.dequeuing.eraseIdx k).count a = s.dequeuing.count a :=
    List.perm_iff_count.mp (perm_eraseIdx hk)
  rw [List.perm_iff_count]
  intro a
  have := hp a
  simp only [Sys.places, hh, List.count_append, List.count_cons] at this ⊢
  simp only [Sys.pushFree, List.count_append, List.count_cons, List.count_nil]
  omega

/-- A client gets the batch. -/
theorem postProcessed (h : PoolOk s) {k i : ℕ} {b : NvDsInferBatch} (hk : s.dequeuing[k]? = some i)
    (hb : s.ctx.batches[i]? = some (some b)) :
    PoolOk { Sys.setBatch { s with dequeuing := s.dequeuing.eraseIdx k } i
        { b with buffersWithContext := false } with
      outputs := s.outputs ++ [⟨some i, true⟩] } := by
  have hh : ({ Sys.setBatch { s with dequeuing := s.dequeuing.eraseIdx k } i
      { b with buffersWithContext := false } with
      outputs := s.outputs ++ [⟨some i, true⟩] } : Sys).hands = s.hands ++ [i] :=
    hands_append s ⟨some i, true⟩
  have hi : i ∈ s.places := by simp [Sys.places, List.mem_of_getElem? hk]
  obtain ⟨c, hc, ha⟩ := h.get hi
  rw [hb, Option.some.injEq, Option.some.injEq] at hc
  refine h.setBatch (i := i) (b := { b with buffersWithContext := false }) rfl (hc ▸ ha)
    (fun j hj hj' => absurd hj hj') ?_ (fun j hj => ?_) ?_
  · refine List.Perm.append_right _ ?_
    have hp : ∀ a, (i :: s.dequeuing.eraseIdx k).count a = s.dequeuing.count a :=
      List.perm_iff_count.mp (perm_eraseIdx hk)
    rw [List.perm_iff_count]
    intro a
    have := hp a
    simp only [Sys.places, hh, List.count_append, List.count_cons, List.count_nil] at this ⊢
    simp only [Sys.setBatch]
    omega
  · rw [hh]
    simp [hj]
  · rw [hh]
    simp

/-- A client gives its batch back. -/
theorem release (h : PoolOk s) {o i : ℕ} {b : NvDsInferBatch}
    (ho : s.outputs[o]? = some ⟨some i, true⟩) (hb : s.ctx.batches[i]? = some (some b)) :
    PoolOk { (s.setBatch i { b with buffersWithContext := true }).pushFree i with
      outputs := s.outputs.set o ⟨some i, false⟩ } := by
  have hh : ∀ a, (i :: ({ (s.setBatch i { b with buffersWithContext := true }).pushFree i with
      outputs := s.outputs.set o ⟨some i, false⟩ } : Sys).hands).count a = s.hands.count a :=
    List.perm_iff_count.mp (hands_release ho)
  have hi : i ∈ s.hands := List.mem_filterMap.mpr ⟨_, List.mem_of_getElem? ho, rfl⟩
  obtain ⟨c, hc, ha⟩ := h.get (i := i) (by simp [Sys.places, hi])
  rw [hb, Option.some.injEq, Option.some.injEq] at hc
  have hone : s.hands.count i ≤ 1 := by
    have hnodup := (List.nodup_append.mp h.nodup).1
    have := List.nodup_iff_count.mp hnodup i
    simp only [Sys.places, List.count_append] at this
    omega
  refine h.setBatch (i := i) (b := { b with buffersWithContext := true }) rfl (hc ▸ ha)
    (fun j hj hj' => absurd hj hj') ?_ (fun j hj => ?_) ?_
  · refine List.Perm.append_right _ ?_
    rw [List.perm_iff_count]
    intro a
    have := hh a
    simp only [Sys.places, List.count_append, List.count_cons] at this ⊢
    simp only [Sys.setBatch, Sys.pushFree, List.count_append, List.count_cons, List.count_nil] at this ⊢
    omega
  · have := hh j
    rw [List.count_cons_of_ne (Ne.symm hj)] at this
    rw [← List.count_pos_iff, ← List.count_pos_iff, this]
  · have := hh i
    rw [List.count_cons_self] at this
    refine iff_of_false Bool.noConfusion fun hmem => ?_
    have := List.count_pos_iff.mpr hmem
    omega

/-- Two clients have it then, or one has what is free. -/
theorem not_release {o i : ℕ} {b : NvDsInferBatch}
    (ho : s.outputs[o]? = some ⟨some i, false⟩) (hb : s.ctx.batches[i]? = some (some b))
    (hi : i ∈ s.hands) :
    ¬ PoolOk { (s.setBatch i { b with buffersWithContext := true }).pushFree i with
      outputs := s.outputs.set o ⟨some i, false⟩ } := by
  intro hok
  obtain ⟨hlt, hget⟩ := List.getElem?_eq_some_iff.mp ho
  have hset : s.outputs.set o ⟨some i, false⟩ = s.outputs := by
    rw [← hget, List.set_getElem_self]
  have hli : i < s.ctx.batches.length := (List.getElem?_eq_some_iff.mp hb).1
  have hflag := hok.flags i { b with buffersWithContext := true } (by simp [Sys.setBatch, Sys.pushFree, hli])
  rw [hset] at hflag
  exact Bool.noConfusion (hflag.mpr hi)

end PoolOk

/-! ### Runs -/

theorem releaseBatchOutput_iff (h : PoolOk s) {o : ℕ} (hs : s.releaseBatchOutput o = some s') :
    PoolOk s' ↔ PoolStepOk s (.releaseBatchOutput o) := by
  unfold releaseBatchOutput at hs
  split at hs
  · simp at hs
  split at hs
  · simp at hs
  · rename_i ho
    split at hs
    · simp at hs
    · obtain rfl := Option.some.inj hs
      exact iff_of_true h (by simp [PoolStepOk, ho])
  · rename_i i held ho
    split at hs
    · rename_i b hb
      split at hs
      · rename_i hflag
        obtain rfl := Option.some.inj hs
        have hi : i ∉ s.hands := by simp [← h.flags i b hb, hflag]
        exact iff_of_true h (by simp [PoolStepOk, ho, hi])
      · rename_i hflag
        obtain rfl := Option.some.inj hs
        have hi : i ∈ s.hands := (h.flags i b hb).mp (by simpa using hflag)
        cases held with
        | true => exact iff_of_true (h.release ho hb) (by simp [PoolStepOk, ho])
        | false => exact iff_of_false (PoolOk.not_release ho hb hi) (by simp [PoolStepOk, ho, hi])
    · rename_i hb
      obtain rfl := Option.some.inj hs
      have hi : i ∉ s.hands := fun hi => by
        obtain ⟨b, hb', -⟩ := h.get (i := i) (by simp [Sys.places, hi])
        exact hb b hb'
      exact iff_of_true h (by simp [PoolStepOk, ho, hi])

/-- A section keeps the pool exactly when it does neither of the two things. -/
theorem poolOk_step (h : PoolOk s) {a : Action} (hs : step s a = some s') :
    PoolOk s' ↔ PoolStepOk s a := by
  have hreserve : ∀ n, PoolOk (s.reserve n) := by
    intro n
    unfold reserve
    split <;> exact h.of_perm rfl rfl rfl (List.Perm.refl _)
  cases a with
  | queueInputBatch n transform =>
    simp only [step] at hs
    refine iff_of_true ?_ trivial
    split at hs <;> obtain rfl := Option.some.inj hs
    · exact h
    · exact hreserve n
  | queueInputBatchPreprocessed n setDevice =>
    simp only [step] at hs
    refine iff_of_true ?_ trivial
    split at hs <;> obtain rfl := Option.some.inj hs
    · exact h
    · exact hreserve n
  | resize k memLow => exact iff_of_true (h.resize hs) trivial
  | initBatch allocated => exact h.initBatch hs
  | popFree k =>
    simp only [step] at hs
    refine iff_of_true ?_ trivial
    split at hs
    · rename_i hf
      split at hs
      · rename_i hb
        obtain rfl := Option.some.inj hs
        exact h.popFree hf hb
      · simp at hs
    · simp at hs
  | enqueued k status =>
    simp only [step] at hs
    refine iff_of_true ?_ trivial
    split at hs
    · simp at hs
    · rename_i hk
      have := h.enqueued hk status
      split at hs <;> obtain rfl := Option.some.inj hs
      · simpa [*] using this
      · simpa [*] using this
  | dequeueOutputBatch =>
    simp only [step] at hs
    refine iff_of_true ?_ trivial
    split at hs
    · simp at hs
    · rename_i hq
      obtain rfl := Option.some.inj hs
      exact h.dequeue hq
  | postProcessed k status =>
    simp only [step] at hs
    refine iff_of_true ?_ trivial
    split at hs
    · simp at hs
    · rename_i hk
      split at hs
      · obtain rfl := Option.some.inj hs
        exact h.postProcessed_failed hk
      · split at hs
        · rename_i hb
          obtain rfl := Option.some.inj hs
          exact h.postProcessed hk hb
        · simp at hs
  | releaseBatchOutput o => exact releaseBatchOutput_iff h hs

theorem mem_freeBatchQueue_of_failed {a : Action} (hs : step s a = some s') {i : ℕ}
    (hi : i ∈ s.failedBatch a) : i ∈ s'.ctx.freeBatchQueue := by
  cases a with
  | enqueued k status =>
    by_cases hst : status = .success
    · simp [failedBatch, hst] at hi
    · have hk : s.queuing[k]? = some i := by simpa [failedBatch, hst] using hi
      simp only [step, hk, ne_eq, hst, not_false_eq_true, ↓reduceIte, Option.some.injEq] at hs
      simp [← hs, pushFree]
  | postProcessed k status =>
    by_cases hst : status = .success
    · simp [failedBatch, hst] at hi
    · have hk : s.dequeuing[k]? = some i := by simpa [failedBatch, hst] using hi
      simp only [step, hk, ne_eq, hst, not_false_eq_true, ↓reduceIte, Option.some.injEq] at hs
      simp [← hs, pushFree]
  | _ => simp [failedBatch] at hi

/-- A pool of one batch is taken, then enlarged up to the batch in position
`last`. -/
def grown (last : ℕ) : List Action :=
  [.queueInputBatch 2 .success, .popFree 0, .queueInputBatch 1 .success, .resize 0 false] ++
    List.replicate last (.initBatch true)

/-- The first batch is refused by the backend and queued again as the last;
another is queued, dequeued and released twice. -/
def releasedTwice : List Action :=
  grown growBy ++ [.enqueued 0 .cudaError, .popFree 0, .enqueued 0 .success, .dequeueOutputBatch,
    .postProcessed 0 .success, .releaseBatchOutput 0, .releaseBatchOutput 0]

end Sys
end Infer
end DeepStream
