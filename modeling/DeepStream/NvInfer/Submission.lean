/-
# Everything is submitted once and pushed in order

The streaming thread decides each item (a frame, or an object of a frame) once,
and queues what it has decided to infer or to leave to the output thread, then
the push batch of the buffer. Nothing is lost or overtaken on the way to the
output thread, so what it has gone through is a prefix of what was queued: each
output comes once, and a buffer is pushed after all that belongs to it. In
asynchronous mode the buffers do not wait for their outputs.
-/
import DeepStream.NvInfer.Histories
import Mathlib.Data.List.Nodup

namespace DeepStream
namespace NvInfer

open Infer (CFloat)

/-! ### The stream of batches -/

namespace GstNvInferBatch

def frameItems (b : GstNvInferBatch) : List Item := b.frames.map GstNvInferFrame.item

def pendingItems (b : GstNvInferBatch) : List Item := b.objsPendingMetaAttach.map (·.2)

/-- The buffer that the batch pushes. -/
def pushOf (b : GstNvInferBatch) : Option ℕ := if b.pushBuffer then b.inbuf else none

/-- A marker or a push batch has nothing else in it. -/
structure Plain (b : GstNvInferBatch) : Prop where
  frames : b.eventMarker = true ∨ b.pushBuffer = true → b.frames = []
  pending : b.eventMarker = true ∨ b.pushBuffer = true → b.objsPendingMetaAttach = []
  marker : b.eventMarker = true → b.pushBuffer = false

theorem Filling.plain' {b : GstNvInferBatch} (h : b.Filling) : b.Plain where
  frames := by simp [h.1, h.2]
  pending := by simp [h.1, h.2]
  marker := by simp [h.1]

end GstNvInferBatch

/-- A stream of batches: the items to infer, the items left to the output thread,
the sizes, and the buffers that are pushed, each before the items of later ones. -/
structure Stream (size : ℕ) (l : List GstNvInferBatch) (inferred deferred : List Item) (pushes : List ℕ) : Prop where
  plain : ∀ b ∈ l, b.Plain
  inferred : l.flatMap GstNvInferBatch.frameItems = inferred
  deferred : l.flatMap GstNvInferBatch.pendingItems = deferred
  size : ∀ b ∈ l, b.frames.length ≤ size
  pushes : l.filterMap GstNvInferBatch.pushOf = pushes
  order : l.Pairwise fun b b' => ∀ k ∈ b.pushOf, ∀ item ∈ b'.frameItems ++ b'.pendingItems, k < item.buffer

namespace Stream

variable {size : ℕ} {l : List GstNvInferBatch} {inferred deferred : List Item} {pushes : List ℕ}

/-- One more batch, whose items belong to buffers that are not pushed yet. -/
theorem snoc (h : Stream size l inferred deferred pushes) {b : GstNvInferBatch} (hp : b.Plain)
    (hlen : b.frames.length ≤ size)
    (ho : ∀ k ∈ pushes, ∀ item ∈ b.frameItems ++ b.pendingItems, k < item.buffer) :
    Stream size (l ++ [b]) (inferred ++ b.frameItems) (deferred ++ b.pendingItems) (pushes ++ b.pushOf.toList) where
  plain x hx := by
    obtain hx | hx := List.mem_append.mp hx
    · exact h.plain x hx
    · exact List.mem_singleton.mp hx ▸ hp
  inferred := by simp [h.inferred]
  deferred := by simp [h.deferred]
  size x hx := by
    obtain hx | hx := List.mem_append.mp hx
    · exact h.size x hx
    · exact List.mem_singleton.mp hx ▸ hlen
  pushes := by
    rw [List.filterMap_append, h.pushes, List.filterMap_cons, List.filterMap_nil]
    cases b.pushOf <;> rfl
  order := by
    refine List.pairwise_append.mpr ⟨h.order, List.pairwise_singleton _ b, fun x hx y hy k hk => ?_⟩
    obtain rfl := List.mem_singleton.mp hy
    exact ho k (h.pushes ▸ List.mem_filterMap.mpr ⟨x, hx, hk⟩)

theorem marker (h : Stream size l inferred deferred pushes) : Stream size (l ++ [.marker]) inferred deferred pushes := by
  have hsnoc := h.snoc (b := .marker) ⟨fun _ => rfl, fun _ => rfl, fun _ => rfl⟩ (Nat.zero_le _) (by
    simp [GstNvInferBatch.frameItems, GstNvInferBatch.pendingItems, GstNvInferBatch.marker])
  simpa [GstNvInferBatch.frameItems, GstNvInferBatch.pendingItems, GstNvInferBatch.pushOf, GstNvInferBatch.marker]
    using hsnoc

theorem push (h : Stream size l inferred deferred pushes) (buffer : ℕ) :
    Stream size (l ++ [.push buffer]) inferred deferred (pushes ++ [buffer]) := by
  have hsnoc := h.snoc (b := .push buffer) ⟨fun _ => rfl, fun _ => rfl, fun h => by cases h⟩ (Nat.zero_le _) (by
    simp [GstNvInferBatch.frameItems, GstNvInferBatch.pendingItems, GstNvInferBatch.push])
  simpa [GstNvInferBatch.frameItems, GstNvInferBatch.pendingItems, GstNvInferBatch.pushOf, GstNvInferBatch.push]
    using hsnoc

/-- The stream without its last batch. -/
theorem init {b : GstNvInferBatch} (h : Stream size (l ++ [b]) inferred deferred pushes) (hb : b.Filling) :
    ∃ inferred' deferred', Stream size l inferred' deferred' pushes ∧ inferred = inferred' ++ b.frameItems ∧
      deferred = deferred' ++ b.pendingItems := by
  have hpush : b.pushOf = none := by simp [GstNvInferBatch.pushOf, hb.2]
  refine ⟨_, _, ⟨fun x hx => h.plain x (List.mem_append_left _ hx), rfl, rfl,
    fun x hx => h.size x (List.mem_append_left _ hx), ?_, (List.pairwise_append.mp h.order).1⟩, ?_, ?_⟩
  · have hp := h.pushes
    rw [List.filterMap_append] at hp
    simpa [hpush] using hp
  · simpa using h.inferred.symm
  · simpa using h.deferred.symm

/-- A batch is there for the next item. -/
theorem getD {batch : Option GstNvInferBatch} {b : GstNvInferBatch}
    (h : Stream size (l ++ batch.toList) inferred deferred pushes) (hb : b.Filling) (hf : b.frames = [])
    (hp : b.objsPendingMetaAttach = []) : Stream size (l ++ [batch.getD b]) inferred deferred pushes := by
  cases batch with
  | some b' => exact h
  | none =>
    rw [Option.toList_none, List.append_nil] at h
    have hsnoc := h.snoc (b := b) hb.plain' (by simp [hf]) (by
      simp [GstNvInferBatch.frameItems, GstNvInferBatch.pendingItems, hf, hp])
    simpa [GstNvInferBatch.frameItems, GstNvInferBatch.pendingItems, GstNvInferBatch.pushOf, hf, hp, hb.2] using hsnoc

/-- The batch that is being filled gets an item of a buffer that is not pushed yet. -/
theorem fill {b b' : GstNvInferBatch} (h : Stream size (l ++ [b]) inferred deferred pushes) (hb : b.Filling)
    (hb' : b'.Filling) {fs ps : List Item} (hf : b'.frameItems = b.frameItems ++ fs)
    (hp : b'.pendingItems = b.pendingItems ++ ps) (hlen : b'.frames.length ≤ size)
    (ho : ∀ k ∈ pushes, ∀ item ∈ fs ++ ps, k < item.buffer) :
    Stream size (l ++ [b']) (inferred ++ fs) (deferred ++ ps) pushes := by
  obtain ⟨_, _, hinit, rfl, rfl⟩ := h.init hb
  have hlast := (List.pairwise_append.mp h.order).2.2
  have hsnoc := hinit.snoc hb'.plain' hlen fun k hk item hi => by
    obtain ⟨x, hx, hkx⟩ := List.mem_filterMap.mp (hinit.pushes ▸ hk)
    rw [hf, hp] at hi
    simp only [List.mem_append] at hi
    have hold : item ∈ b.frameItems ++ b.pendingItems → k < item.buffer := hlast x hx b (by simp) k hkx item
    have hnew : item ∈ fs ++ ps → k < item.buffer := ho k hk item
    simp only [List.mem_append] at hold hnew
    tauto
  have hpush : b'.pushOf = none := by simp [GstNvInferBatch.pushOf, hb'.2]
  simpa [hf, hp, hpush] using hsnoc

end Stream

/-! ### Items -/

section Items

variable {R : Type*}

def Work.item : Work R → Option Item
  | .frame _ => none
  | .object item _ _ => some item

/-- The items of a buffer: its frames, or the objects of its frames. -/
def bufferItems (cfg : Settings) (buffer : ℕ) (buf : GstBuffer R) : List Item :=
  if cfg.processFullFrame then buf.zipIdx.map fun e => ⟨buffer, e.2, none⟩
  else (workOf buffer buf).filterMap Work.item

def itemsOf (cfg : Settings) (buffers : List (GstBuffer R)) : List Item :=
  buffers.zipIdx.flatMap fun e => bufferItems cfg e.2 e.1

theorem itemsOf_snoc (cfg : Settings) (buffers : List (GstBuffer R)) (buf : GstBuffer R) :
    itemsOf cfg (buffers ++ [buf]) = itemsOf cfg buffers ++ bufferItems cfg buffers.length buf := by
  simp [itemsOf, List.zipIdx_append]

theorem workOf_items (buffer : ℕ) (buf : GstBuffer R) : (workOf buffer buf).filterMap Work.item =
    buf.zipIdx.flatMap fun e => e.1.objMetaList.zipIdx.map fun o => ⟨buffer, e.2, some o.2⟩ := by
  rw [workOf, List.filterMap_flatMap]
  congr 1
  funext e
  rw [List.filterMap_cons, List.filterMap_map]
  exact congrFun List.filterMap_eq_map _

theorem buffer_of_mem {cfg : Settings} {buffer : ℕ} {buf : GstBuffer R} {item : Item}
    (h : item ∈ bufferItems cfg buffer buf) : item.buffer = buffer := by
  unfold bufferItems at h
  split at h
  · obtain ⟨e, -, rfl⟩ := List.mem_map.mp h
    rfl
  · rw [workOf_items] at h
    obtain ⟨e, -, h⟩ := List.mem_flatMap.mp h
    obtain ⟨o, -, rfl⟩ := List.mem_map.mp h
    rfl

theorem pairwise_zipIdx {α : Type*} (l : List α) : l.zipIdx.Pairwise fun a b => a.2 ≠ b.2 := by
  have hsnd : (l.zipIdx.map Prod.snd).Pairwise (· < ·) := by
    rw [List.zipIdx_map_snd]
    exact List.pairwise_lt_range'
  exact (List.pairwise_map.mp hsnd).imp fun h => Nat.ne_of_lt h

/-- No item comes twice. -/
theorem nodup_itemsOf (cfg : Settings) (buffers : List (GstBuffer R)) : (itemsOf cfg buffers).Nodup := by
  have hbuffer (buffer : ℕ) (buf : GstBuffer R) : (bufferItems cfg buffer buf).Nodup := by
    unfold bufferItems
    split
    · exact List.pairwise_map.mpr ((pairwise_zipIdx buf).imp fun h heq => h (by simpa using heq))
    · rw [workOf_items]
      refine List.nodup_flatMap.mpr ⟨fun e _ => ?_, (pairwise_zipIdx buf).imp fun h => ?_⟩
      · exact List.pairwise_map.mpr ((pairwise_zipIdx _).imp fun h heq => h (by simpa using heq))
      · intro item h1 h2
        obtain ⟨o, -, rfl⟩ := List.mem_map.mp h1
        obtain ⟨o', -, heq⟩ := List.mem_map.mp h2
        exact h (Item.mk.inj heq).2.1.symm
  refine List.nodup_flatMap.mpr ⟨fun e _ => hbuffer e.2 e.1, (pairwise_zipIdx buffers).imp fun h item h1 h2 => ?_⟩
  exact h ((buffer_of_mem h1).symm.trans (buffer_of_mem h2))

/-- The items with the decision, in the order in which it was made. -/
def itemsWith (d : Decision) (decisions : List (Item × Decision)) : List Item :=
  (decisions.filter (·.2 = d)).map Prod.fst

@[simp] theorem itemsWith_append (d : Decision) (l l' : List (Item × Decision)) :
    itemsWith d (l ++ l') = itemsWith d l ++ itemsWith d l' := by
  simp [itemsWith]

@[simp] theorem itemsWith_singleton (d d' : Decision) (item : Item) :
    itemsWith d [(item, d')] = if d' = d then [item] else [] := by
  unfold itemsWith
  by_cases h : d' = d
  · simp [h]
  · simp [h]

end Items

/-! ### What the streaming thread places -/

namespace Submit

variable {R : Type*}

/-- The items that are not decided yet. -/
def remaining : Submit R → List Item
  | .fullFrame buffer rest _ => rest.map fun e => ⟨buffer, e.2, none⟩
  | .objects _ rest _ => rest.filterMap Work.item
  | _ => []

/-- The buffer at work. -/
def current : Submit R → List ℕ
  | .fullFrame buffer _ _ => [buffer]
  | .objects buffer _ _ => [buffer]
  | .tensors buffer => [buffer]
  | .pushing buffer => [buffer]
  | _ => []

theorem current_fullFrame (buffer : ℕ) (rest : List (NvDsFrameMeta R × ℕ)) (batch : Option GstNvInferBatch) :
    ∀ item ∈ (fullFrame buffer rest batch).remaining, (fullFrame buffer rest batch).current = [item.buffer] := by
  intro item hi
  obtain ⟨e, -, rfl⟩ := List.mem_map.mp hi
  rfl

end Submit

namespace GstNvInfer

variable {R : Type*} {s s' : GstNvInfer R}

/-- Every batch that was queued, and the one that is being filled. -/
def placed (s : GstNvInfer R) : List GstNvInferBatch := s.queues.queued ++ s.submit.batch

/-- The push batches are those of the buffers that were completed; in asynchronous
mode there are none. -/
structure Placed (s : GstNvInfer R) : Prop where
  decided : s.log.decisions.map Prod.fst ++ s.submit.remaining = itemsOf s.cfg s.log.buffers
  served : s.log.completed ++ s.submit.current = List.range s.log.buffers.length
  ours : ∀ item ∈ s.submit.remaining, s.submit.current = [item.buffer]
  stream : Stream s.cfg.maxBatchSize s.placed (itemsWith .infer s.log.decisions) (itemsWith .defer s.log.decisions)
    (if s.cfg.classifierAsyncMode then [] else s.log.completed)
  room : ∀ buffer rest batch, s.submit = .fullFrame buffer rest batch →
    ∀ b ∈ batch, b.frames.length < s.cfg.maxBatchSize

/-- What the worker threads do leaves the placing alone. -/
theorem Placed.keeps (h : s.Placed) (hcfg : s'.cfg = s.cfg) (hsubmit : s'.submit = s.submit)
    (hqueued : s'.queues.queued = s.queues.queued) (hdecisions : s'.log.decisions = s.log.decisions)
    (hbuffers : s'.log.buffers = s.log.buffers) (hcompleted : s'.log.completed = s.log.completed) : s'.Placed where
  decided := by rw [hcfg, hsubmit, hdecisions, hbuffers, h.decided]
  served := by rw [hsubmit, hcompleted, hbuffers, h.served]
  ours := by
    rw [hsubmit]
    exact h.ours
  stream := by
    rw [placed, hcfg, hsubmit, hqueued, hdecisions, hcompleted]
    exact h.stream
  room := by
    rw [hcfg, hsubmit]
    exact h.room

/-- The buffers that are pushed come before the one at work. -/
theorem Placed.pushes_lt (h : s.Placed) {buffer : ℕ} (hc : s.submit.current = [buffer]) :
    ∀ k ∈ (if s.cfg.classifierAsyncMode then [] else s.log.completed), k < buffer := by
  intro k hk
  have hmem : k ∈ s.log.completed := by
    split at hk
    · cases hk
    · exact hk
  have hserved := h.served
  rw [hc] at hserved
  have hpos : s.log.buffers.length ≠ 0 := by
    intro hz
    simp [hz] at hserved
  obtain ⟨n, hn⟩ := Nat.exists_eq_succ_of_ne_zero hpos
  rw [hn, List.range_succ] at hserved
  obtain ⟨hrange, hlast⟩ := List.append_inj' hserved rfl
  obtain rfl : buffer = n := by simpa using hlast
  rw [hrange] at hmem
  exact List.mem_range.mp hmem

/-- Between two buffers. -/
theorem Placed.begin (h : s.Placed) {buf : GstBuffer R} (ht : s.cfg.inputTensorFromMeta = false)
    (hr : s.submit.remaining = []) (hc : s.submit.current = []) (hb : s.submit.batch = [])
    (hs : s.beginBuffer buf = some s') : s'.Placed := by
  have hdecided := h.decided
  rw [hr, List.append_nil] at hdecided
  have hserved := h.served
  rw [hc, List.append_nil] at hserved
  have hstream := h.stream
  rw [placed, hb, List.append_nil] at hstream
  have hrange : s.log.completed ++ [s.log.buffers.length] = List.range (s.log.buffers ++ [buf]).length := by
    rw [List.length_append, List.length_singleton, List.range_succ, hserved]
  have hskip (d : Decision) (hd : d ≠ .skip) (l : List (NvDsFrameMeta R × ℕ)) (buffer : ℕ) :
      itemsWith d (l.map fun e => ((⟨buffer, e.2, none⟩ : Item), Decision.skip)) = [] := by
    simp only [itemsWith, List.map_eq_nil_iff, List.filter_eq_nil_iff, List.mem_map]
    rintro _ ⟨e, -, rfl⟩
    simp [hd.symm]
  unfold beginBuffer at hs
  simp only [ht, Bool.false_eq_true, ↓reduceIte] at hs
  split at hs
  · rename_i hfull
    have hitems := itemsOf_snoc s.cfg s.log.buffers buf
    rw [bufferItems, if_pos hfull, ← hdecided] at hitems
    split at hs
    · cases hs
    · split at hs
      · obtain rfl := Option.some.inj hs
        refine ⟨?_, hrange, by simp [Submit.remaining], ?_, by simp⟩
        · rw [hitems]
          simp [Submit.remaining, Function.comp_def]
        · simpa [placed, Submit.batch, hskip] using hstream
      · obtain rfl := Option.some.inj hs
        refine ⟨hitems.symm, hrange, Submit.current_fullFrame _ _ _, ?_, ?_⟩
        · simpa [placed, Submit.batch] using hstream
        · rintro _ _ _ heq b hmem
          cases heq
          cases hmem
  · rename_i hfull
    have hitems := itemsOf_snoc s.cfg s.log.buffers buf
    rw [bufferItems, if_neg hfull, ← hdecided] at hitems
    obtain rfl := Option.some.inj hs
    refine ⟨hitems.symm, hrange, fun item hi => ?_, ?_, by simp⟩
    · have hmem : item ∈ bufferItems s.cfg s.log.buffers.length buf := by rwa [bufferItems, if_neg hfull]
      rw [buffer_of_mem hmem]
      rfl
    · simpa [placed, Submit.batch] using hstream

/-- The batch that is being filled gets an item of the buffer at work. -/
theorem Placed.fill (h : s.Placed) {buffer : ℕ} (hc : s.submit.current = [buffer]) {batch : Option GstNvInferBatch}
    (hb : s.submit.batch = batch.toList) (hfill : ∀ b ∈ batch, b.Filling) (b b' : GstNvInferBatch) (fs ps : List Item) (hb₀ : b.Filling)
    (hf₀ : b.frames = []) (hp₀ : b.objsPendingMetaAttach = []) (hm : b'.eventMarker = (batch.getD b).eventMarker)
    (hpb : b'.pushBuffer = (batch.getD b).pushBuffer)
    (hf : b'.frameItems = (batch.getD b).frameItems ++ fs) (hp : b'.pendingItems = (batch.getD b).pendingItems ++ ps)
    (hlen : b'.frames.length ≤ s.cfg.maxBatchSize) (hitems : ∀ item ∈ fs ++ ps, item.buffer = buffer) :
    Stream s.cfg.maxBatchSize (s.queues.queued ++ [b']) (itemsWith .infer s.log.decisions ++ fs)
      (itemsWith .defer s.log.decisions ++ ps) (if s.cfg.classifierAsyncMode then [] else s.log.completed) := by
  have hstream := h.stream
  rw [placed, hb] at hstream
  have hget := GstNvInferBatch.filling_getD hfill hb₀
  refine (hstream.getD hb₀ hf₀ hp₀).fill hget ⟨hm.trans hget.1, hpb.trans hget.2⟩ hf hp hlen fun k hk item hi => ?_
  rw [hitems item hi]
  exact h.pushes_lt hc k hk

theorem Placed.frame (h : s.Placed) {buffer i : ℕ} {f : NvDsFrameMeta R} {rest : List (NvDsFrameMeta R × ℕ)}
    {batch : Option GstNvInferBatch} (hp : s.submit = .fullFrame buffer ((f, i) :: rest) batch)
    (hfill : ∀ b ∈ batch, b.Filling) : (s.processFrame true buffer f i rest batch).Placed := by
  let item : Item := ⟨buffer, i, none⟩
  let b : GstNvInferBatch := (batch.getD { inbuf := some buffer }).addFrame ⟨item, f.frameNum, none⟩
  have hroom : (batch.getD { inbuf := some buffer }).frames.length < s.cfg.maxBatchSize := by
    cases batch with
    | none => exact s.cfg.maxBatchSize_pos
    | some b' => exact h.room buffer _ _ hp b' rfl
  have hlen : b.frames.length ≤ s.cfg.maxBatchSize := by
    simp only [b, GstNvInferBatch.addFrame, List.length_append, List.length_singleton]
    omega
  have hfilled := h.fill (by rw [hp]; rfl) (by rw [hp]; rfl) hfill { inbuf := some buffer } b [item] [] ⟨rfl, rfl⟩ rfl rfl rfl rfl
    (by simp [b, GstNvInferBatch.frameItems, GstNvInferBatch.addFrame])
    (by simp [b, GstNvInferBatch.pendingItems, GstNvInferBatch.addFrame]) hlen (by simp [item])
  have hdecided := h.decided
  have hserved := h.served
  rw [hp] at hdecided hserved
  have hdecided' : (s.log.decisions ++ [(item, Decision.infer)]).map Prod.fst ++
      rest.map (fun e => (⟨buffer, e.2, none⟩ : Item)) = itemsOf s.cfg s.log.buffers := by
    rw [← hdecided]
    simp [Submit.remaining, item]
  unfold processFrame
  simp only [↓reduceIte]
  split
  · refine ⟨hdecided', hserved, Submit.current_fullFrame _ _ _, ?_, ?_⟩
    · simpa [placed, Submit.batch, Queues.pushInput, logDecision] using hfilled
    · rintro _ _ _ heq b hmem
      cases heq
      cases hmem
  · rename_i hcond
    refine ⟨hdecided', hserved, Submit.current_fullFrame _ _ _, ?_, ?_⟩
    · simpa [placed, Submit.batch, logDecision] using hfilled
    · rintro _ _ _ heq b' hmem
      cases heq
      obtain rfl := Option.some.inj hmem
      have hne : b.frames.length ≠ s.cfg.maxBatchSize := fun heq => hcond (.inl heq)
      exact Nat.lt_of_le_of_ne hlen hne

/-- An object is decided. -/
theorem Placed.object (h : s.Placed) {buffer : ℕ} {item : Item} {f : NvDsFrameMeta R} {obj : NvDsObjectMeta R}
    {rest : List (Work R)} {batch : Option GstNvInferBatch} {d : Decision}
    (hp : s.submit = .objects buffer (.object item f obj :: rest) batch) (hcfg : s'.cfg = s.cfg)
    (hlog : s'.log = s.logDecision item d) (hqueues : s'.queues = s.queues) {batch' : Option GstNvInferBatch}
    (hsubmit : s'.submit = .objects buffer rest batch')
    (hstream : Stream s.cfg.maxBatchSize (s.queues.queued ++ batch'.toList)
      (itemsWith .infer (s.log.decisions ++ [(item, d)])) (itemsWith .defer (s.log.decisions ++ [(item, d)]))
      (if s.cfg.classifierAsyncMode then [] else s.log.completed)) : s'.Placed where
  decided := by
    have hdecided := h.decided
    rw [hp] at hdecided
    rw [hcfg, hlog, hsubmit, logDecision, ← hdecided]
    simp [Submit.remaining, Work.item]
  served := by
    have hserved := h.served
    rw [hp] at hserved
    rw [hlog, hsubmit]
    exact hserved
  ours := by
    rw [hsubmit]
    intro item' hi
    have hour := h.ours item' (by
      rw [hp]
      exact List.mem_filterMap.mpr ((List.mem_filterMap.mp hi).imp fun _ hw => ⟨List.mem_cons_of_mem _ hw.1, hw.2⟩))
    rwa [hp] at hour
  stream := by
    rw [placed, hcfg, hlog, hqueues, hsubmit]
    exact hstream
  room := by simp [hsubmit]

theorem Placed.work [CFloat R] (h : s.Placed) {buffer : ℕ} {w : Work R} {rest : List (Work R)}
    {batch : Option GstNvInferBatch} (hp : s.submit = .objects buffer (w :: rest) batch)
    (hany : batch.any (·.frames.length = s.cfg.maxBatchSize) = false) (hfill : ∀ b ∈ batch, b.Filling) :
    (s.processWork true buffer w rest batch).Placed := by
  have hbatch : s.submit.batch = batch.toList := by rw [hp]; rfl
  have hcurrent : s.submit.current = [buffer] := by rw [hp]; rfl
  have hstream := h.stream
  rw [placed, hbatch] at hstream
  have hitem (item : Item) (f : NvDsFrameMeta R) (obj : NvDsObjectMeta R) (hw : w = .object item f obj) :
      item.buffer = buffer := by
    have hour := h.ours item (by rw [hp, hw]; exact List.mem_filterMap.mpr ⟨_, List.mem_cons_self, rfl⟩)
    rw [hcurrent] at hour
    exact (List.singleton_inj.mp hour).symm
  have hroom (b : GstNvInferBatch) (hb : b.frames = []) : (batch.getD b).frames.length < s.cfg.maxBatchSize := by
    cases hopt : batch with
    | none => simpa [hb] using s.cfg.maxBatchSize_pos
    | some b' =>
      have hle := hstream.size b' (by simp [hopt])
      have hne : b'.frames.length ≠ s.cfg.maxBatchSize := by simpa [hopt] using hany
      exact Nat.lt_of_le_of_ne hle hne
  have hcase := s.processWork_cases buffer rest batch true w
  generalize s.processWork true buffer w rest batch = s' at hcase ⊢
  cases hcase with
  | seen f =>
    have hdecided := h.decided
    have hserved := h.served
    rw [hp] at hdecided hserved
    refine ⟨hdecided, hserved, fun item hi => ?_, ?_, by simp⟩
    · have hour := h.ours item (by rw [hp]; exact hi)
      rwa [hp] at hour
    · simpa [placed, Submit.batch] using hstream
  | skip item f obj hq hd => exact h.object hp rfl rfl rfl rfl (by simpa using hstream)
  | access item f obj x hq hd => exact h.object hp rfl rfl rfl rfl (by simpa using hstream)
  | @defer item f obj x hq hh hd =>
    have hb : item.buffer = buffer := hitem item f obj rfl
    unfold deferObject
    rw [if_pos (.inl rfl)]
    refine h.object hp rfl rfl rfl rfl ?_
    have hlen := Nat.le_of_lt (hroom { inbuf := some buffer } rfl)
    have hfilled := h.fill hcurrent hbatch hfill { inbuf := some buffer }
      ((batch.getD { inbuf := some buffer }).addPending x item) [] [item] ⟨rfl, rfl⟩ rfl rfl rfl rfl
      (by simp [GstNvInferBatch.frameItems, GstNvInferBatch.addPending])
      (by simp [GstNvInferBatch.pendingItems, GstNvInferBatch.addPending]) hlen (by simp [hb])
    simpa using hfilled
  | infer item f obj hq =>
    have hb : item.buffer = buffer := hitem item f obj rfl
    let b : GstNvInferBatch := { inbuf := if s.cfg.classifierAsyncMode then none else some buffer }
    have hadd (x : Option ℕ) := h.fill hcurrent hbatch hfill b
      ((batch.getD b).addFrame ⟨item, f.frameNum, x⟩) [item] [] ⟨rfl, rfl⟩ rfl rfl rfl rfl
      (by simp [GstNvInferBatch.frameItems, GstNvInferBatch.addFrame])
      (by simp [GstNvInferBatch.pendingItems, GstNvInferBatch.addFrame])
      (by
        have hlt := hroom b rfl
        simp only [GstNvInferBatch.addFrame, List.length_append, List.length_singleton]
        omega) (by simp [hb])
    unfold inferObject
    simp only [↓reduceIte]
    exact h.object hp rfl rfl rfl rfl (by simpa using hadd _)

/-- The streaming thread goes to another phase, with the same work left. -/
theorem Placed.phase (h : s.Placed) (hcfg : s'.cfg = s.cfg) (hr : s'.submit.remaining = s.submit.remaining)
    (hc : s'.submit.current = s.submit.current) (hplaced : s'.placed = s.placed) (hlog : s'.log = s.log)
    (hf : ∀ buffer rest batch, s'.submit ≠ .fullFrame buffer rest batch) : s'.Placed where
  decided := by rw [hcfg, hr, hlog, h.decided]
  served := by rw [hc, hlog, h.served]
  ours := by
    rw [hr, hc]
    exact h.ours
  stream := by
    rw [hcfg, hplaced, hlog]
    exact h.stream
  room _ _ _ heq := absurd heq (hf _ _ _)

/-- A marker is queued between two buffers. -/
theorem Placed.marker (h : s.Placed) (hr : s.submit.remaining = []) (hc : s.submit.current = [])
    (hb : s.submit.batch = []) (hcfg : s'.cfg = s.cfg) (hq : s'.queues.queued = s.queues.queued ++ [.marker])
    (hlog : s'.log = s.log) {processOnly : Bool} (hw : s'.submit.waits = some processOnly) : s'.Placed := by
  have hstream := h.stream
  rw [placed, hb, List.append_nil] at hstream
  have hsubmit : s'.submit.remaining = [] ∧ s'.submit.current = [] ∧ s'.submit.batch = [] ∧
      ∀ buffer rest batch, s'.submit ≠ .fullFrame buffer rest batch := by
    cases hs : s'.submit with
    | flushing buf ctx processOnly => exact ⟨rfl, rfl, rfl, by simp⟩
    | inEvent e processOnly => exact ⟨rfl, rfl, rfl, by simp⟩
    | _ => simp [hs, Submit.waits] at hw
  obtain ⟨hr', hc', hb', hf⟩ := hsubmit
  refine ⟨?_, ?_, by simp [hr'], ?_, fun _ _ _ heq => absurd heq (hf _ _ _)⟩
  · rw [hcfg, hr', hlog, ← hr, h.decided]
  · rw [hc', hlog, ← hc, h.served]
  · rw [placed, hq, hb', List.append_nil, hcfg, hlog]
    exact hstream.marker

/-- The streaming thread is through with a buffer. -/
theorem Placed.push (h : s.Placed) (ht : s.cfg.inputTensorFromMeta = false) {buffer : ℕ}
    (hp : s.submit = .pushing buffer) : (s.pushBuffer buffer).Placed := by
  have hdecided := h.decided
  have hserved := h.served
  have hstream := h.stream
  rw [hp] at hdecided hserved
  rw [placed, hp] at hstream
  have hserved' : s.log.completed ++ [buffer] ++ [] = List.range s.log.buffers.length := by
    rw [List.append_nil]
    exact hserved
  unfold pushBuffer
  split
  · rename_i hasync
    refine ⟨hdecided, hserved', by simp [Submit.remaining], ?_, by simp⟩
    simpa [placed, Submit.batch, hasync] using hstream
  · rename_i hsync
    refine ⟨hdecided, hserved', by simp [Submit.remaining], ?_, by simp⟩
    have hpush := hstream.push buffer
    simpa [placed, Submit.batch, enqueue, ht, Queues.pushInput, hsync] using hpush

/-- Nothing fails: neither the pool, nor the conversion, nor the context. -/
def CleanStep (_ : GstNvInfer R) : Action R → Prop
  | .processFrame ok => ok = true
  | .processWork ok => ok = true
  | .pushBatch ok => ok = true
  | .inputQueued status => status = .success
  | .outputDequeued status _ => status = .success
  | _ => True

theorem placed_step [CFloat R] {a : Action R} (hw : s.Wired) (ht : s.cfg.inputTensorFromMeta = false) (h : s.Placed)
    (hok : s.CleanStep a) (hs : s.step a = some s') : s'.Placed := by
  cases step_cases hs with
  | begins hidle hn hb =>
    exact h.begin ht (by rw [hidle]; rfl) (by rw [hidle]; rfl) (by rw [hidle]; rfl) hb
  | flush hidle hn =>
    exact h.marker (by rw [hidle]; rfl) (by rw [hidle]; rfl) (by rw [hidle]; rfl) rfl rfl rfl (by rfl)
  | flushGoesOn hf he =>
    refine h.phase rfl (by rw [hf]; rfl) (by rw [hf]; rfl) ?_ rfl (by simp)
    simp [placed, hf, Submit.batch]
  | flushEnds hf he hb =>
    rename_i buf ctx processOnly
    have hsame : Placed { s with
        tracked := s.tracked.clearAll
        impl := { s.impl with inferCtx := ctx, initParams := ctx } } :=
      ⟨h.decided, h.served, h.ours, h.stream, h.room⟩
    exact hsame.begin ht (by rw [hf]; rfl) (by rw [hf]; rfl) (by rw [hf]; rfl) hb
  | frame hp =>
    obtain rfl : _ = true := hok
    exact h.frame hp (hw.fits_of hp).2
  | framesEnd hp =>
    refine h.phase rfl (by rw [hp]; rfl) (by rw [hp]; rfl) ?_ rfl (by simp)
    simp [placed, hp, Submit.batch]
  | work hp hany =>
    obtain rfl : _ = true := hok
    exact h.work hp hany (hw.fits_of hp).2
  | pushBatch hp =>
    obtain rfl : _ = true := hok
    unfold GstNvInfer.pushBatch
    rw [if_pos rfl]
    refine h.phase rfl (by rw [hp]; rfl) (by rw [hp]; rfl) ?_ rfl (by simp)
    simp [placed, hp, Submit.batch, Queues.pushInput]
  | objectsEnd hp =>
    have hlog : s.cleanupHistoryMap.log = s.log := by
      unfold cleanupHistoryMap
      split <;> rfl
    refine h.phase s.cleanupHistoryMap_untouched.cfg (by rw [hp]; rfl) (by rw [hp]; rfl) ?_ hlog (by simp)
    simp [placed, hp, Submit.batch, s.cleanupHistoryMap_untouched.queues]
  | tensorBatch hp hne hle =>
    have htensor : s.cfg.inputTensorFromMeta = true := hw.fits_of hp
    simp [ht] at htensor
  | tensorsEnd hp =>
    have htensor : s.cfg.inputTensorFromMeta = true := hw.fits_of hp
    simp [ht] at htensor
  | pushBuffer hp => exact h.push ht hp
  | event hidle =>
    rename_i e
    unfold GstNvInfer.sinkEvent
    split
    · exact h.marker (by rw [hidle]; rfl) (by rw [hidle]; rfl) (by rw [hidle]; rfl) rfl (by simp [enqueue, ht, Queues.pushInput])
        rfl (by rfl)
    · refine h.phase (s.handleEvent_untouched e).cfg (by rw [hidle, handleEvent_submit]) (by rw [hidle, handleEvent_submit])
        ?_ (handleEvent_log s e) (by simp)
      simp [placed, hidle, (s.handleEvent_untouched e).queues]
  | eventGoesOn hf he =>
    refine h.phase rfl (by rw [hf]; rfl) (by rw [hf]; rfl) ?_ rfl (by simp)
    simp [placed, hf, Submit.batch]
  | eventEnds hf he =>
    rename_i e processOnly
    refine h.phase (s.handleEvent_untouched e).cfg (by rw [hf, handleEvent_submit]; rfl) (by rw [hf, handleEvent_submit]; rfl)
      ?_ (handleEvent_log s e) (by simp)
    simp [placed, hf, (s.handleEvent_untouched e).queues, Submit.batch]
  | inputPop htf hq =>
    refine h.keeps rfl rfl ?_ rfl rfl rfl
    obtain ⟨b, rest, -, -, ⟨-, rfl⟩ | ⟨-, rfl⟩⟩ := Queues.inputPop_eq_some hq <;> rfl
  | inputQueued hq =>
    refine h.keeps rfl rfl ?_ rfl rfl rfl
    obtain ⟨b, c, -, ⟨-, rfl⟩ | ⟨-, rfl⟩⟩ := Queues.inputQueued_eq_some hq <;> rfl
  | outputPending hl hq hm hf hp ha =>
    obtain ⟨-, rfl⟩ := s.attachPending_eq_some ha
    exact h.keeps rfl rfl rfl rfl rfl rfl
  | outputAttach hl ha =>
    have hat := s.outputAttach_frame ha
    exact h.keeps hat.cfg hat.submit (by rw [hat.queues]; rfl) (by rw [hat.log]) (by rw [hat.log]) (by rw [hat.log])
  | outputMarker | outputTakesPush | outputTakes | outputPush | outputContext | outputFails =>
    exact h.keeps rfl rfl rfl rfl rfl rfl
  | loadModel | loadFailed | triggerContextReplace => exact h.keeps rfl rfl rfl rfl rfl rfl

/-! ### What the output thread goes through -/

/-- The batches come out as they were queued, and the logs are those of the
batches that came out. -/
structure Outputs (s : GstNvInfer R) : Prop where
  fifo : s.queues.queued = s.queues.finished ++ s.queues.line
  dequeuing : ∀ b c x, s.queues.outputLoop = .dequeuing b c x → b.pushBuffer = false
  outputs : s.log.outputs = s.queues.finished.flatMap GstNvInferBatch.frameItems
  attached : s.log.attached.map Prod.fst = s.queues.finished.flatMap GstNvInferBatch.pendingItems
  pushed : s.log.pushed =
    if s.cfg.classifierAsyncMode then s.log.completed else s.queues.finished.filterMap GstNvInferBatch.pushOf

/-- Nothing comes out. -/
theorem Outputs.keeps (h : s.Outputs) (hcfg : s'.cfg = s.cfg)
    (hfifo : ∃ l, s'.queues.queued = s.queues.queued ++ l ∧ s'.queues.line = s.queues.line ++ l)
    (hloop : ∀ b c x, s'.queues.outputLoop = .dequeuing b c x → b.pushBuffer = false)
    (hfinished : s'.queues.finished = s.queues.finished) (houtputs : s'.log.outputs = s.log.outputs)
    (hattached : s'.log.attached = s.log.attached) (hpushed : s'.log.pushed = s.log.pushed)
    (hcompleted : s'.log.completed = s.log.completed) : s'.Outputs where
  fifo := by
    obtain ⟨l, hq, hl⟩ := hfifo
    rw [hq, hl, hfinished, h.fifo, List.append_assoc]
  dequeuing := hloop
  outputs := by rw [houtputs, hfinished, h.outputs]
  attached := by rw [hattached, hfinished, h.attached]
  pushed := by rw [hpushed, hfinished, hcfg, hcompleted, h.pushed]

/-- The queues are as they were. -/
theorem Outputs.sameQueues (h : s.Outputs) (hcfg : s'.cfg = s.cfg) (hqueues : s'.queues = s.queues)
    (houtputs : s'.log.outputs = s.log.outputs) (hattached : s'.log.attached = s.log.attached)
    (hpushed : s'.log.pushed = s.log.pushed) (hcompleted : s'.log.completed = s.log.completed) : s'.Outputs := by
  refine h.keeps hcfg ⟨[], ?_, ?_⟩ ?_ ?_ houtputs hattached hpushed hcompleted
  · rw [hqueues, List.append_nil]
  · rw [hqueues, List.append_nil]
  · rw [hqueues]
    exact h.dequeuing
  · rw [hqueues]

/-- The first batch of the line comes out. -/
theorem Outputs.finish (h : s.Outputs) {b : GstNvInferBatch} (hcfg : s'.cfg = s.cfg)
    (hline : s.queues.line = b :: s'.queues.line) (hqueued : s'.queues.queued = s.queues.queued)
    (hfinished : s'.queues.finished = s.queues.finished ++ [b]) (hloop : s'.queues.outputLoop = .waiting)
    (houtputs : s'.log.outputs = s.log.outputs ++ b.frameItems)
    (hattached : s'.log.attached.map Prod.fst = s.log.attached.map Prod.fst ++ b.pendingItems)
    (hpushed : s'.log.pushed = s.log.pushed ++ if s.cfg.classifierAsyncMode then [] else b.pushOf.toList)
    (hcompleted : s'.log.completed = s.log.completed) : s'.Outputs where
  fifo := by rw [hqueued, h.fifo, hline, hfinished, List.append_assoc, List.singleton_append]
  dequeuing b c x hl := by simp [hloop] at hl
  outputs := by rw [houtputs, hfinished, h.outputs, List.flatMap_append, List.flatMap_singleton]
  attached := by rw [hattached, hfinished, h.attached, List.flatMap_append, List.flatMap_singleton]
  pushed := by
    rw [hpushed, hfinished, hcfg, hcompleted, h.pushed, List.filterMap_append]
    split
    · exact List.append_nil _
    · cases hb : b.pushOf <;> simp [hb]

/-- The batches in the line are of the stream. -/
theorem plain_of_line (h : s.Placed) (ho : s.Outputs) {b : GstNvInferBatch} (hb : b ∈ s.queues.line) : b.Plain := by
  refine h.stream.plain b ?_
  rw [placed, ho.fifo]
  simp [hb]

/-- In asynchronous mode no batch pushes a buffer. -/
theorem pushOf_of_async (h : s.Placed) (ho : s.Outputs) {b : GstNvInferBatch} (hb : b ∈ s.queues.line)
    (ha : s.cfg.classifierAsyncMode = true) : b.pushOf = none := by
  have hpushes := h.stream.pushes
  rw [if_pos ha, List.filterMap_eq_nil_iff] at hpushes
  refine hpushes b ?_
  rw [placed, ho.fifo]
  simp [hb]

theorem outputs_step [CFloat R] {a : Action R} (hw : s.Wired) (ht : s.cfg.inputTensorFromMeta = false) (h : s.Placed)
    (ho : s.Outputs) (hok : s.CleanStep a) (hs : s.step a = some s') : s'.Outputs := by
  have hsame : ∃ l, s.queues.queued = s.queues.queued ++ l ∧ s.queues.line = s.queues.line ++ l := ⟨[], by simp, by simp⟩
  have hpush (b : GstNvInferBatch) : ∃ l, (s.queues.pushInput b).queued = s.queues.queued ++ l ∧
      (s.queues.pushInput b).line = s.queues.line ++ l := ⟨[b], rfl, Queues.line_pushInput _ _⟩
  have henqueue (b : GstNvInferBatch) : s.enqueue b = s.queues.pushInput b := by simp [enqueue, ht]
  cases step_cases hs with
  | begins hidle hn hb =>
    have hbegins := s.beginBuffer_frame hb
    obtain ⟨_, hlog⟩ := hbegins.log
    exact ho.sameQueues hbegins.cfg hbegins.queues (by rw [hlog]) (by rw [hlog]) (by rw [hlog]) (by rw [hlog])
  | flush hidle hn => exact ho.keeps rfl (hpush _) ho.dequeuing rfl rfl rfl rfl rfl
  | flushEnds hf he hb =>
    have hbegins := GstNvInfer.beginBuffer_frame _ hb
    obtain ⟨_, hlog⟩ := hbegins.log
    exact ho.sameQueues hbegins.cfg hbegins.queues (by rw [hlog]) (by rw [hlog]) (by rw [hlog]) (by rw [hlog])
  | frame hp =>
    unfold processFrame
    dsimp only
    split
    · split
      · exact ho.keeps rfl (hpush _) ho.dequeuing rfl rfl rfl rfl rfl
      · exact ho.keeps rfl hsame ho.dequeuing rfl rfl rfl rfl rfl
    · exact ho.keeps rfl hsame ho.dequeuing rfl rfl rfl rfl rfl
  | work hp hany =>
    rename_i ok buffer w rest batch
    have hwork := s.processWork_untouched buffer rest batch ok w
    obtain ⟨_, hlog⟩ := hwork.log
    exact ho.sameQueues hwork.cfg hwork.queues (by rw [hlog]) (by rw [hlog]) (by rw [hlog]) (by rw [hlog])
  | pushBatch hp =>
    unfold GstNvInfer.pushBatch
    split
    · exact ho.keeps rfl (hpush _) ho.dequeuing rfl rfl rfl rfl rfl
    · exact ho.keeps rfl hsame ho.dequeuing rfl rfl rfl rfl rfl
  | objectsEnd hp =>
    unfold cleanupHistoryMap
    split
    · exact ho.keeps rfl hsame ho.dequeuing rfl rfl rfl rfl rfl
    · exact ho.keeps rfl hsame ho.dequeuing rfl rfl rfl rfl rfl
  | tensorBatch hp hne hle =>
    have htensor : s.cfg.inputTensorFromMeta = true := hw.fits_of hp
    simp [ht] at htensor
  | pushBuffer hp =>
    unfold GstNvInfer.pushBuffer
    split
    · rename_i hasync
      have hpushed := ho.pushed
      rw [if_pos hasync] at hpushed
      refine ⟨ho.fifo, ho.dequeuing, ho.outputs, ho.attached, ?_⟩
      rw [if_pos hasync]
      show s.log.pushed ++ _ = s.log.completed ++ _
      rw [hpushed]
    · rename_i hsync
      have hpushed := ho.pushed
      rw [if_neg hsync] at hpushed
      rw [henqueue]
      refine ⟨?_, ho.dequeuing, ho.outputs, ho.attached, ?_⟩
      · rw [Queues.line_pushInput]
        show s.queues.queued ++ _ = s.queues.finished ++ _
        rw [ho.fifo, List.append_assoc]
      · rw [if_neg hsync]
        exact hpushed
  | event hidle =>
    rename_i e
    unfold GstNvInfer.sinkEvent
    split
    · rw [henqueue]
      exact ho.keeps rfl (hpush _) ho.dequeuing rfl rfl rfl rfl rfl
    · have hev := s.handleEvent_untouched e
      exact ho.sameQueues hev.cfg hev.queues (by rw [handleEvent_log]) (by rw [handleEvent_log]) (by rw [handleEvent_log])
        (by rw [handleEvent_log])
  | eventEnds hf he =>
    rename_i e processOnly
    have hev := s.handleEvent_untouched e
    exact ho.sameQueues hev.cfg hev.queues (by rw [handleEvent_log]) (by rw [handleEvent_log]) (by rw [handleEvent_log])
      (by rw [handleEvent_log])
  | inputPop htf hq =>
    have hline := Queues.line_inputPop hq
    obtain ⟨b, rest, -, -, ⟨-, rfl⟩ | ⟨-, rfl⟩⟩ := Queues.inputPop_eq_some hq
    · exact ho.keeps rfl ⟨[], by simp, by simpa using hline⟩ ho.dequeuing rfl rfl rfl rfl rfl
    · exact ho.keeps rfl ⟨[], by simp, by simpa using hline⟩ ho.dequeuing rfl rfl rfl rfl rfl
  | inputQueued hq =>
    obtain rfl : _ = NvDsInferStatus.success := hok
    obtain ⟨-, hline⟩ := (Queues.line_inputQueued hq).resolve_right fun hr => hr.1 rfl
    obtain ⟨b, c, -, ⟨-, rfl⟩ | ⟨hst, -⟩⟩ := Queues.inputQueued_eq_some hq
    · exact ho.keeps rfl ⟨[], by simp, by simpa using hline⟩ ho.dequeuing rfl rfl rfl rfl rfl
    · exact absurd rfl hst
  | outputMarker hl hq hm =>
    rename_i b c entries
    have hline := Queues.line_pop hl hq
    have hplain := plain_of_line h ho (b := b) (by simp [hline])
    refine ho.finish rfl hline rfl rfl rfl ?_ ?_ ?_ rfl
    · simp [GstNvInferBatch.frameItems, hplain.frames (.inl hm)]
    · simp [GstNvInferBatch.pendingItems, hplain.pending (.inl hm)]
    · simp [GstNvInferBatch.pushOf, hplain.marker hm]
  | outputPending hl hq hm hf hp ha =>
    obtain ⟨-, rfl⟩ := s.attachPending_eq_some ha
    refine ho.finish rfl (Queues.line_pop hl hq) rfl rfl rfl ?_ ?_ ?_ rfl
    · simp [GstNvInferBatch.frameItems, hf]
    · simp [GstNvInferBatch.pendingItems, Function.comp_def]
    · simp [GstNvInferBatch.pushOf, hp]
  | outputTakesPush hl hq hm hp =>
    exact ho.keeps rfl ⟨[], by simp, by rw [Queues.line_take hl hq rfl]; simp⟩ (by simp) rfl rfl rfl rfl rfl
  | outputTakes hl hq hm hf hp =>
    refine ho.keeps rfl ⟨[], by simp, by rw [Queues.line_take hl hq rfl]; simp⟩ (fun b' c' x hb' => ?_) rfl rfl rfl rfl rfl
    obtain ⟨rfl, -, -⟩ := OutputLoop.dequeuing.inj hb'
    exact hp
  | outputPush hl =>
    rename_i b
    have hline := Queues.line_finish (b := b) (by rw [hl]; rfl)
    have hpb := hw.pushing b hl
    have hplain := plain_of_line h ho (b := b) (by simp [hline])
    refine ho.finish rfl hline rfl rfl rfl ?_ ?_ ?_ rfl
    · simp [GstNvInferBatch.frameItems, hplain.frames (.inr hpb)]
    · simp [GstNvInferBatch.pendingItems, hplain.pending (.inr hpb)]
    · have hpush : b.pushOf = b.inbuf := by simp [GstNvInferBatch.pushOf, hpb]
      split
      · rename_i hasync
        have hnone := pushOf_of_async h ho (b := b) (by simp [hline]) hasync
        rw [hpush] at hnone
        simp [hnone]
      · rw [hpush]
  | outputContext hl =>
    refine ho.keeps rfl ⟨[], by simp, by rw [Queues.line_held (by rw [hl]; rfl)]; simp⟩ (fun b' c' x hb' => ?_)
      rfl rfl rfl rfl rfl
    obtain ⟨rfl, -, -⟩ := OutputLoop.dequeuing.inj hb'
    exact ho.dequeuing _ _ _ hl
  | outputAttach hl ha =>
    rename_i b c ctx outputs
    have hat := s.outputAttach_frame ha
    have hline : s.queues.line = b :: s'.queues.line := by
      rw [hat.queues]
      exact Queues.line_finish (by rw [hl]; rfl)
    refine ho.finish hat.cfg hline (by rw [hat.queues]; rfl) (by rw [hat.queues]; rfl) (by rw [hat.queues]; rfl)
      (by rw [hat.log]; rfl) ?_ ?_ (by rw [hat.log])
    · rw [hat.log]
      simp [GstNvInferBatch.pendingItems, Function.comp_def]
    · rw [hat.log]
      simp [GstNvInferBatch.pushOf, ho.dequeuing b c _ hl]
  | outputFails hl hst => exact absurd hok hst
  | flushGoesOn | framesEnd | tensorsEnd | eventGoesOn =>
    exact ho.keeps rfl hsame ho.dequeuing rfl rfl rfl rfl rfl
  | loadModel | loadFailed | triggerContextReplace => exact ho.keeps rfl hsame ho.dequeuing rfl rfl rfl rfl rfl

/-! ### Runs -/

variable [CFloat R]

theorem flow_run (h : Reach step CleanStep Started s) (ht : s.cfg.inputTensorFromMeta = false) :
    s.Wired ∧ s.Placed ∧ s.Outputs := by
  refine h.invariant (I := fun s : GstNvInfer R => s.cfg.inputTensorFromMeta = false → s.Wired ∧ s.Placed ∧ s.Outputs)
    ?_ (fun s a s' hI hok hs ht => ?_) ht
  · rintro _ ⟨cfg, interval, rfl⟩ -
    have hnone : (if cfg.classifierAsyncMode then ([] : List ℕ) else []) = [] := by split <;> rfl
    refine ⟨wired_start cfg interval, ⟨rfl, rfl, by simp [start, Submit.remaining], ?_, by simp [start]⟩,
      ⟨rfl, by simp [start], rfl, rfl, hnone.symm⟩⟩
    exact ⟨by simp [placed, start, Submit.batch], rfl, rfl, by simp [placed, start, Submit.batch], hnone.symm,
      List.Pairwise.nil⟩
  · rw [cfg_step hs] at ht
    obtain ⟨hw, hp, ho⟩ := hI ht
    exact ⟨wired_step hw hs, placed_step hw ht hp hok hs, outputs_step hw ht hp ho hok hs⟩

/-- What is to be done with an object. -/
def decision (s : GstNvInfer R) (f : NvDsFrameMeta R) (obj : NvDsObjectMeta R) : Decision :=
  if s.Qualifies f obj then .infer
  else if (s.historyOf f obj).isSome ∧ Defers s.cfg then .defer
  else .skip

/-- The sections of the worker threads, when nothing fails. -/
def workerSteps : List (Action R) :=
  [.inputPop, .inputQueued .success, .outputPop, .outputPush, .outputContext, .outputDequeued .success []]

/-- Each item of the buffers is decided once, frames by the interval and objects
by whether they qualify; it is placed in one batch accordingly, and comes out
once. The buffers are pushed in the order of their arrival, without asynchronous
mode each after all of its outputs; and with nothing on its way all is done. -/
structure Served (s : GstNvInfer R) : Prop where
  decided : s.log.decisions.map Prod.fst ++ s.submit.remaining = itemsOf s.cfg s.log.buffers
  nodup : (itemsOf s.cfg s.log.buffers).Nodup
  frames : ∀ buf s', s.cfg.processFullFrame = true → s.beginBuffer buf = some s' →
    if s.intervalCounter % wrapAdd 32 s.interval 1 = 0 then
      s'.submit = .fullFrame s.log.buffers.length buf.zipIdx none ∧ s'.log.decisions = s.log.decisions
    else s'.log.decisions = s.log.decisions ++ (bufferItems s.cfg s.log.buffers.length buf).map fun item => (item, .skip)
  frame : ∀ buffer f i rest batch s', s.submit = .fullFrame buffer ((f, i) :: rest) batch →
    s.step (.processFrame true) = some s' → s'.log.decisions = s.log.decisions ++ [(⟨buffer, i, none⟩, .infer)]
  object : ∀ buffer item f obj rest batch s', s.submit = .objects buffer (.object item f obj :: rest) batch →
    s.step (.processWork true) = some s' → s'.log.decisions = s.log.decisions ++ [(item, s.decision f obj)]
  placed : s.placed.flatMap GstNvInferBatch.frameItems = itemsWith .infer s.log.decisions
  size : ∀ b ∈ s.placed, b.frames.length ≤ s.cfg.maxBatchSize
  outputs : s.log.outputs ++ s.inFlight.flatMap GstNvInferBatch.frameItems = itemsWith .infer s.log.decisions
  attached : s.log.attached.map Prod.fst ++ s.inFlight.flatMap GstNvInferBatch.pendingItems =
    itemsWith .defer s.log.decisions
  arrival : s.log.pushed ++ s.inFlight.filterMap GstNvInferBatch.pushOf ++ s.submit.current =
    List.range s.log.buffers.length
  after : s.cfg.classifierAsyncMode = false → ∀ item ∈ itemsOf s.cfg s.log.buffers, item.buffer ∈ s.log.pushed →
    item ∈ s.log.decisions.map Prod.fst ∧ (item ∈ itemsWith .infer s.log.decisions → item ∈ s.log.outputs) ∧
      (item ∈ itemsWith .defer s.log.decisions → item ∈ s.log.attached.map Prod.fst)
  complete : s.submit.current = [] → s.inFlight = [] →
    s.log.decisions.map Prod.fst = itemsOf s.cfg s.log.buffers ∧ s.log.outputs = itemsWith .infer s.log.decisions ∧
      s.log.attached.map Prod.fst = itemsWith .defer s.log.decisions ∧
        s.log.pushed = List.range s.log.buffers.length
  goesOn : s.queues.line ≠ [] → (∃ a ∈ workerSteps, (s.step a).isSome = true) ∨
    ∃ b ∈ s.queues.line.head?, ∃ p ∈ b.objsPendingMetaAttach, ¬ s.tracked.alive p.1

omit [CFloat R] in
theorem Outputs.placed_eq (h : s.Outputs) : s.placed = s.queues.finished ++ s.inFlight := by
  rw [placed, h.fifo, inFlight, List.append_assoc]

omit [CFloat R] in
/-- What belongs to a buffer that was pushed is not on its way any more. -/
theorem gone_of_pushed (hp : s.Placed) (ho : s.Outputs) (ha : s.cfg.classifierAsyncMode = false) {b : GstNvInferBatch}
    (hb : b ∈ s.inFlight) {item : Item} (hi : item ∈ b.frameItems ++ b.pendingItems) : item.buffer ∉ s.log.pushed := by
  intro hpushed
  rw [ho.pushed, if_neg (by simp [ha])] at hpushed
  obtain ⟨x, hx, hk⟩ := List.mem_filterMap.mp hpushed
  have horder := hp.stream.order
  rw [ho.placed_eq] at horder
  exact Nat.lt_irrefl _ ((List.pairwise_append.mp horder).2.2 x hx b hb _ hk item hi)

/-- The worker threads have something to do as long as a batch is on its way. -/
theorem goesOn (ht : s.cfg.inputTensorFromMeta = false) (hline : s.queues.line ≠ []) :
    (∃ a ∈ workerSteps, (s.step a).isSome = true) ∨
      ∃ b ∈ s.queues.line.head?, ∃ p ∈ b.objsPendingMetaAttach, ¬ s.tracked.alive p.1 := by
  have hpend (t : GstNvInfer R) (b : GstNvInferBatch) (halive : ∀ x, t.tracked.alive x ↔ s.tracked.alive x)
      (hb : b ∈ s.queues.line.head?) : (t.attachPending b.objsPendingMetaAttach).isSome = true ∨
        ∃ b ∈ s.queues.line.head?, ∃ p ∈ b.objsPendingMetaAttach, ¬ s.tracked.alive p.1 := by
    by_cases hall : ∀ p ∈ b.objsPendingMetaAttach, t.tracked.alive p.1
    · exact .inl (by simp [attachPending, if_pos hall])
    · simp only [not_forall] at hall
      obtain ⟨p, hp, hdead⟩ := hall
      exact .inr ⟨b, hb, p, hp, fun ha => hdead ((halive p.1).mpr ha)⟩
  cases hl : s.queues.outputLoop with
  | pushing b => exact .inl ⟨.outputPush, by simp [workerSteps], by simp [step, outputPush, hl]⟩
  | dequeuing b c ctx =>
    cases ctx with
    | none => exact .inl ⟨.outputContext, by simp [workerSteps], by simp [step, outputContext, hl]⟩
    | some ctx =>
      have hhead : b ∈ s.queues.line.head? := by simp [Queues.line, hl, OutputLoop.held]
      obtain hsome | hdead := hpend { s with
          tracked := s.outputFrames b []
          log := { s.log with
            outputs := s.log.outputs ++ b.frames.map GstNvInferFrame.item
            uses := s.log.uses ++ [s.contextUse c ctx] } } b (fun x => ObjectHistories.alive_outputs _ x _ _) hhead
      · refine .inl ⟨.outputDequeued .success [], by simp [workerSteps], ?_⟩
        simp only [step, outputDequeued, hl, ↓reduceIte, outputAttach, Option.isSome_map]
        exact hsome
      · exact .inr hdead
  | waiting =>
    cases hq : s.queues.processQueue with
    | cons e entries =>
      obtain ⟨b, c⟩ := e
      have hhead : b ∈ s.queues.line.head? := by simp [Queues.line, hl, hq, OutputLoop.held]
      by_cases hm : b.eventMarker = true
      · exact .inl ⟨.outputPop, by simp [workerSteps], by simp [step, outputPop, hl, hq, hm]⟩
      · by_cases hf : b.frames = [] ∧ b.pushBuffer = false
        · obtain hsome | hdead := hpend s b (fun _ => Iff.rfl) hhead
          · exact .inl ⟨.outputPop, by simp [workerSteps], by simpa [step, outputPop, hl, hq, hm, hf] using hsome⟩
          · exact .inr hdead
        · refine .inl ⟨.outputPop, by simp [workerSteps], ?_⟩
          simp only [step, outputPop, hl, hq]
          rw [if_neg hm, if_neg hf]
          split <;> rfl
    | nil =>
      cases hi : s.queues.inputLoop with
      | queueing b ctx =>
        exact .inl ⟨.inputQueued .success, by simp [workerSteps], by simp [step, Queues.inputQueued, hi]⟩
      | waiting =>
        cases hiq : s.queues.inputQueue with
        | nil => exact absurd (by simp [Queues.line, hl, hq, hi, hiq, OutputLoop.held, InputLoop.held]) hline
        | cons b rest =>
          refine .inl ⟨.inputPop, by simp [workerSteps], ?_⟩
          simp only [step, ht, Bool.false_eq_true, ↓reduceIte, Queues.inputPop, hi, hiq, Option.isSome_map]
          split <;> rfl

theorem object_decision {buffer : ℕ} {item : Item} {f : NvDsFrameMeta R} {obj : NvDsObjectMeta R} {rest : List (Work R)}
    {batch : Option GstNvInferBatch} (hp : s.submit = .objects buffer (.object item f obj :: rest) batch)
    (hs : s.step (.processWork true) = some s') :
    s'.log.decisions = s.log.decisions ++ [(item, s.decision f obj)] := by
  cases step_cases hs with
  | work hsub _ =>
    rw [hp] at hsub
    obtain ⟨rfl, hrest, rfl⟩ := Submit.objects.inj hsub
    obtain ⟨rfl, rfl⟩ := List.cons.inj hrest
    have hcase := s.processWork_cases buffer rest batch true (.object item f obj)
    generalize s.processWork true buffer (.object item f obj) rest batch = s' at hcase ⊢
    cases hcase with
    | skip _ _ _ hq hd =>
      have hdec : s.decision f obj = .skip := by
        rw [decision, if_neg hq, if_neg]
        exact fun ⟨hsome, hdef⟩ => hd (Option.isSome_iff_ne_none.mp hsome) hdef
      rw [hdec]
      rfl
    | access _ _ _ x hq hd =>
      have hdec : s.decision f obj = .skip := by
        rw [decision, if_neg hq, if_neg]
        exact fun ⟨_, hdef⟩ => hd hdef
      rw [hdec]
      rfl
    | defer _ _ _ hq hh hd =>
      have hdec : s.decision f obj = .defer := by
        rw [decision, if_neg hq, if_pos ⟨by simp [hh], hd⟩]
      rw [hdec, deferObject, if_pos (.inl rfl)]
      rfl
    | infer _ _ _ hq =>
      have hdec : s.decision f obj = .infer := by rw [decision, if_pos hq]
      rw [hdec]
      unfold inferObject
      simp only [↓reduceIte]
      rfl

omit [CFloat R] in
instance instDecidableCleanStep (s : GstNvInfer R) (a : Action R) : Decidable (s.CleanStep a) :=
  match a with
  | .processFrame ok => inferInstanceAs (Decidable (ok = true))
  | .processWork ok => inferInstanceAs (Decidable (ok = true))
  | .pushBatch ok => inferInstanceAs (Decidable (ok = true))
  | .inputQueued status => inferInstanceAs (Decidable (status = .success))
  | .outputDequeued status _ => inferInstanceAs (Decidable (status = .success))
  | .submitInputBuffer _ | .flushed | .endObjects | .tensorBatch _ _ | .endTensors _ | .pushBuffer | .sinkEvent _
  | .eventFlushed | .inputPop | .outputPop | .outputPush | .outputContext | .loadModel | .loadFailed
  | .triggerContextReplace => inferInstanceAs (Decidable True)

/-- The same classifier in asynchronous mode. -/
def asyncSettings : Settings :=
  { objectSettings with classifierAsyncMode := true, async_classifier := by decide }

end GstNvInfer
end NvInfer
end DeepStream
