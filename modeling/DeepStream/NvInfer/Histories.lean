/-
# Object histories under inference

A history is marked when its object is put into a batch, and the mark is taken
away when the output of that inference comes: then no batch on its way has the
object with the frame number of its last inference any more. Marked histories
are not cleaned up, so the weak references of the frames on their way can be
locked. This needs that the batch with the last inference of an object is not
lost on the way, that an object is not inferred under a frame number that a
queued batch has of it, and that in asynchronous mode no source goes away while
batches have objects of it.
-/
import DeepStream.Lib.Latest
import DeepStream.NvInfer.ModelUpdate

namespace DeepStream
namespace NvInfer

open Infer (CFloat)

namespace ObjectHistories

open GstNvInfer (outputFrame)

variable {R : Type*} {t t' : ObjectHistories R}

/-! ### Outputs -/

/-- The frames of tracked objects, as the history with the frame number. -/
def refsOf (frames : List GstNvInferFrame) : List (ℕ × ℕ) :=
  frames.filterMap fun f => f.history.map fun h => (h, f.frameNum)

theorem alive_outputFrame (c : Bool) (t : ObjectHistories R) (e : GstNvInferFrame × GstNvInferObjectInfo) (h : ℕ) :
    (outputFrame c t e).alive h ↔ t.alive h := by
  unfold outputFrame
  split
  · rfl
  · split
    · rfl
    · rfl

theorem length_outputFrame (c : Bool) (t : ObjectHistories R) (e : GstNvInferFrame × GstNvInferObjectInfo) :
    (outputFrame c t e).histories.length = t.histories.length := by
  unfold outputFrame
  split
  · rfl
  · split
    · simp [modify]
    · rfl

/-- The mark goes with the output of the last inference. -/
theorem flag?_outputFrame (c : Bool) {t : ObjectHistories R} {e : GstNvInferFrame × GstNvInferObjectInfo}
    (ha : ∀ r ∈ refsOf [e.1], t.alive r.1) (h : ℕ) :
    (outputFrame c t e).flag? h = (t.flag? h).map fun x => (x.1 && !decide ((h, x.2) ∈ refsOf [e.1]), x.2) := by
  unfold outputFrame
  split
  · rename_i hnone
    simp [refsOf, hnone]
  · rename_i h' hsome
    rw [if_pos (ha (h', e.1.frameNum) (by simp [refsOf, hsome])), flag?_modify, flag?, Option.map_map]
    congr 1
    funext hist
    simp only [refsOf, hsome, List.filterMap_cons, List.filterMap_nil, Option.map_some, Function.comp,
      List.mem_singleton, Prod.mk.injEq]
    by_cases hh : h' = h
    · by_cases hn : hist.lastInferredFrameNum = e.1.frameNum
      · simp [hh, hn]
      · simp [hh, hn]
    · have hh' : h ≠ h' := fun heq => hh heq.symm
      simp [hh, hh']

/-- After the outputs of a batch the marks of their inferences are gone. -/
theorem flag?_outputs (c : Bool) : ∀ (es : List (GstNvInferFrame × GstNvInferObjectInfo)) {t : ObjectHistories R},
    (∀ r ∈ refsOf (es.map (·.1)), t.alive r.1) → ∀ h, (es.foldl (outputFrame c) t).flag? h =
      (t.flag? h).map fun x => (x.1 && !decide ((h, x.2) ∈ refsOf (es.map (·.1))), x.2)
  | [], t, _, h => by simp [refsOf]
  | e :: es, t, ha, h => by
    have hcons : refsOf ((e :: es).map (·.1)) = refsOf [e.1] ++ refsOf (es.map (·.1)) := by
      simp [refsOf, List.filterMap_cons]
      cases e.1.history <;> rfl
    rw [hcons] at ha ⊢
    have ha' : ∀ r ∈ refsOf (es.map (·.1)), (outputFrame c t e).alive r.1 := fun r hr =>
      (alive_outputFrame c t e r.1).mpr (ha r (List.mem_append_right _ hr))
    rw [List.foldl_cons, flag?_outputs c es ha' h, flag?_outputFrame c (fun r hr => ha r (List.mem_append_left _ hr)),
      Option.map_map]
    congr 1
    funext x
    simp [Bool.and_assoc]

theorem alive_outputs (c : Bool) (h : ℕ) : ∀ (es : List (GstNvInferFrame × GstNvInferObjectInfo))
    (t : ObjectHistories R), (es.foldl (outputFrame c) t).alive h ↔ t.alive h
  | [], _ => Iff.rfl
  | e :: es, t => (alive_outputs c h es (outputFrame c t e)).trans (alive_outputFrame c t e h)

theorem length_outputs (c : Bool) : ∀ (es : List (GstNvInferFrame × GstNvInferObjectInfo)) (t : ObjectHistories R),
    (es.foldl (outputFrame c) t).histories.length = t.histories.length
  | [], _ => rfl
  | e :: es, t => (length_outputs c es (outputFrame c t e)).trans (length_outputFrame c t e)

end ObjectHistories

/-! ### The batches on their way -/

def GstNvInferBatch.refs (b : GstNvInferBatch) : List (ℕ × ℕ) := ObjectHistories.refsOf b.frames

/-- The batch has an object with this history in a frame with this number. -/
theorem GstNvInferBatch.mem_refs {b : GstNvInferBatch} {h n : ℕ} :
    (h, n) ∈ b.refs ↔ ∃ f ∈ b.frames, f.history = some h ∧ f.frameNum = n := by
  simp [refs, ObjectHistories.refsOf]

@[simp] theorem GstNvInferBatch.refs_addPending (b : GstNvInferBatch) (h : ℕ) (item : Item) : (b.addPending h item).refs = b.refs := rfl

@[simp] theorem GstNvInferBatch.refs_addFrame_none (b : GstNvInferBatch) (item : Item) (n : ℕ) :
    (b.addFrame ⟨item, n, none⟩).refs = b.refs := by
  simp [GstNvInferBatch.refs, ObjectHistories.refsOf, GstNvInferBatch.addFrame, List.filterMap_append]

@[simp] theorem GstNvInferBatch.refs_addFrame_some (b : GstNvInferBatch) (item : Item) (n h : ℕ) :
    (b.addFrame ⟨item, n, some h⟩).refs = b.refs ++ [(h, n)] := by
  simp [GstNvInferBatch.refs, ObjectHistories.refsOf, GstNvInferBatch.addFrame, List.filterMap_append]

theorem GstNvInferBatch.Filling.plain {b b' : GstNvInferBatch} (hb : b.Filling) (hm : b'.eventMarker = b.eventMarker)
    (hp : b'.pushBuffer = b.pushBuffer) : b'.eventMarker = true ∨ b'.pushBuffer = true → b'.frames = [] := by
  rintro (h | h)
  · simp [hm, hb.1] at h
  · simp [hp, hb.2] at h

section Exact

variable {R : Type*} {t t' : ObjectHistories R} {l l' : List GstNvInferBatch} {b b' : GstNvInferBatch}

/-- Of each history the newest batch that has it, and only that one, has its last
inference, and the history is marked as long as there is such a batch. -/
structure Exact (t : ObjectHistories R) (l : List GstNvInferBatch) : Prop where
  plain : ∀ b ∈ l, b.eventMarker = true ∨ b.pushBuffer = true → b.frames = []
  known : ∀ h, t.alive h → h < t.histories.length
  alive : ∀ b ∈ l, ∀ r ∈ b.refs, t.alive r.1
  latest : ∀ h u n, t.flag? h = some (u, n) → Latest (l.map GstNvInferBatch.refs) h n
  flag : ∀ h u n, t.flag? h = some (u, n) → t.alive h → (u = true ↔ ∃ b ∈ l, (h, n) ∈ b.refs)

/-- No history was last inferred in the batch. -/
def Lossless (t : ObjectHistories R) (b : GstNvInferBatch) : Prop :=
  ∀ r ∈ b.refs, ∀ x ∈ t.flag? r.1, x.2 ≠ r.2

instance instDecidableLossless (t : ObjectHistories R) (b : GstNvInferBatch) : Decidable (Lossless t b) :=
  inferInstanceAs (Decidable (∀ r ∈ b.refs, ∀ x ∈ t.flag? r.1, x.2 ≠ r.2))

namespace Exact

/-- Histories may be accessed, and those that are not on their way may go. -/
theorem update (h : Exact t l) (hlen : t'.histories.length = t.histories.length)
    (hflag : ∀ h, t'.flag? h = t.flag? h) (hof : ∀ h, t'.alive h → t.alive h)
    (hkeep : ∀ b ∈ l, ∀ r ∈ b.refs, t.alive r.1 → t'.alive r.1) : Exact t' l where
  plain := h.plain
  known x hx := hlen ▸ h.known x (hof x hx)
  alive b hb r hr := hkeep b hb r hr (h.alive b hb r hr)
  latest x u n hx := h.latest x u n (hflag x ▸ hx)
  flag x u n hx ha := h.flag x u n (hflag x ▸ hx) (hof x ha)

/-- A history on its way is marked. -/
theorem marked (h : Exact t l) (hb : b ∈ l) {r : ℕ × ℕ} (hr : r ∈ b.refs) : ∃ n, t.flag? r.1 = some (true, n) := by
  have ha := h.alive b hb r hr
  have hsome : t.histories[r.1]? ≠ none := by simpa using h.known r.1 ha
  obtain ⟨hist, hhist⟩ := Option.ne_none_iff_exists'.mp hsome
  have hf : t.flag? r.1 = some (hist.underInference, hist.lastInferredFrameNum) := by simp [ObjectHistories.flag?, hhist]
  obtain ⟨_, hl, hmem⟩ := (h.latest _ _ _ hf).exists_mem b.refs (List.mem_map_of_mem hb) (mem_keys_of_mem hr)
  obtain ⟨b', hb', rfl⟩ := List.mem_map.mp hl
  have hu := (h.flag _ _ _ hf ha).mpr ⟨b', hb', hmem⟩
  exact ⟨_, hu ▸ hf⟩

theorem cleanup (h : Exact t l) : Exact t.cleanup l := by
  refine h.update rfl (fun _ => rfl) (fun _ => ObjectHistories.alive_of_cleanup) fun b hb r hr ha => ?_
  obtain ⟨n, hn⟩ := h.marked hb hr
  exact ObjectHistories.alive_cleanup ha hn

/-- A marker, a push batch, or a batch without tracked objects. -/
theorem append (h : Exact t l) (hr : b.refs = []) (hp : b.eventMarker = true ∨ b.pushBuffer = true → b.frames = []) :
    Exact t (l ++ [b]) where
  plain x hx := by
    obtain hx | hx := List.mem_append.mp hx
    · exact h.plain x hx
    · exact List.mem_singleton.mp hx ▸ hp
  known := h.known
  alive x hx r hmem := by
    obtain hx | hx := List.mem_append.mp hx
    · exact h.alive x hx r hmem
    · rw [List.mem_singleton.mp hx, hr] at hmem
      cases hmem
  latest x u n hx := by
    rw [List.map_append, List.map_singleton, hr]
    exact (h.latest x u n hx).append (by simp)
  flag x u n hx ha := by
    rw [h.flag x u n hx ha]
    simp [hr, or_and_right, exists_or]

/-- What a batch says of tracked objects stays. -/
theorem replace (h : Exact t (l ++ [b])) (hr : b'.refs = b.refs)
    (hp : b'.eventMarker = true ∨ b'.pushBuffer = true → b'.frames = []) : Exact t (l ++ [b']) where
  plain x hx := by
    obtain hx | hx := List.mem_append.mp hx
    · exact h.plain x (List.mem_append_left _ hx)
    · exact List.mem_singleton.mp hx ▸ hp
  known := h.known
  alive x hx r hmem := by
    obtain hx | hx := List.mem_append.mp hx
    · exact h.alive x (List.mem_append_left _ hx) r hmem
    · rw [List.mem_singleton.mp hx, hr] at hmem
      exact h.alive b (by simp) r hmem
  latest x u n hx := by
    have hl := h.latest x u n hx
    rw [List.map_append, List.map_singleton] at hl ⊢
    rwa [hr]
  flag x u n hx ha := by
    rw [h.flag x u n hx ha]
    simp [hr, or_and_right, exists_or]

theorem drop (h : Exact t (l ++ b :: l')) (hb : Lossless t b) : Exact t (l ++ l') := by
  have hmem (x : GstNvInferBatch) (hx : x ∈ l ++ l') : x ∈ l ++ b :: l' := by
    simp only [List.mem_append, List.mem_cons] at hx ⊢
    exact hx.imp_right .inr
  have hnot (x : ℕ) (u : Bool) (n : ℕ) (hx : t.flag? x = some (u, n)) : (x, n) ∉ b.refs := fun hr =>
    hb (x, n) hr (u, n) hx rfl
  refine ⟨fun x hx => h.plain x (hmem x hx), h.known, fun x hx => h.alive x (hmem x hx), fun x u n hx => ?_,
    fun x u n hx ha => ?_⟩
  · have hl := h.latest x u n hx
    rw [List.map_append, List.map_cons] at hl
    rw [List.map_append]
    exact hl.drop (hnot x u n hx)
  · rw [h.flag x u n hx ha]
    have hb' := hnot x u n hx
    simp [hb', or_and_right, exists_or]

/-- The oldest batch goes, and has no tracked objects. -/
theorem dropPlain (h : Exact t (b :: l)) (hf : b.frames = []) : Exact t l := by
  have hrefs : b.refs = [] := by
    rw [GstNvInferBatch.refs, hf]
    rfl
  exact Exact.drop (l := []) h (by simp [Lossless, hrefs])

/-- The output of the oldest batch has come. -/
theorem output (h : Exact t (b :: l)) (c : Bool) {es : List (GstNvInferFrame × GstNvInferObjectInfo)}
    (hes : es.map (·.1) = b.frames) : Exact (es.foldl (GstNvInfer.outputFrame c) t) l := by
  have hrefs : ObjectHistories.refsOf (es.map (·.1)) = b.refs := by rw [hes]; rfl
  have hflag (x : ℕ) : (es.foldl (GstNvInfer.outputFrame c) t).flag? x =
      (t.flag? x).map fun y => (y.1 && !decide ((x, y.2) ∈ b.refs), y.2) := by
    rw [ObjectHistories.flag?_outputs c es (hrefs ▸ h.alive b (by simp)), hrefs]
  refine ⟨fun x hx => h.plain x (List.mem_cons_of_mem b hx), fun x hx => ?_, fun x hx r hr => ?_, fun x u n hx => ?_,
    fun x u n hx ha => ?_⟩
  · rw [ObjectHistories.length_outputs]
    exact h.known x ((ObjectHistories.alive_outputs c x es t).mp hx)
  · exact (ObjectHistories.alive_outputs c r.1 es t).mpr (h.alive x (List.mem_cons_of_mem b hx) r hr)
  · rw [hflag] at hx
    obtain ⟨⟨u', n'⟩, hold, hnew⟩ := Option.map_eq_some_iff.mp hx
    obtain ⟨-, rfl⟩ := Prod.mk.inj hnew
    exact (h.latest x u' n' hold).tail
  · rw [hflag] at hx
    obtain ⟨⟨u', n'⟩, hold, hnew⟩ := Option.map_eq_some_iff.mp hx
    obtain ⟨rfl, rfl⟩ := Prod.mk.inj hnew
    have htail := (h.latest x u' n' hold).mem_tail_iff
    rw [← List.map_cons] at htail
    simp only [List.mem_map, exists_exists_and_eq_and] at htail
    have hiff := h.flag x u' n' hold ((ObjectHistories.alive_outputs c x es t).mp ha)
    rw [Bool.and_eq_true, hiff, htail]
    simp

/-- A batch is there for the next object. -/
theorem getD {batch : Option GstNvInferBatch} (h : Exact t (l ++ batch.toList)) (hr : b.refs = [])
    (hp : b.eventMarker = true ∨ b.pushBuffer = true → b.frames = []) : Exact t (l ++ [batch.getD b]) := by
  cases batch with
  | none =>
    rw [Option.toList_none, List.append_nil] at h
    exact h.append hr hp
  | some b' => exact h

/-- The batch that is being filled is lost. -/
theorem lose {batch : Option GstNvInferBatch} (h : Exact t (l ++ batch.toList))
    (hb : ∀ b ∈ batch, Lossless t b) : Exact t l := by
  cases batch with
  | none => simpa using h
  | some b => simpa using h.drop (hb b rfl)

/-- A new history, that no batch has. -/
theorem create [CFloat R] (h : Exact t l) {pad : ℕ} (hs : (t.source? pad).isSome = true) (objectId : ℕ) :
    Exact (t.create pad objectId).2 l := by
  have hflag (x : ℕ) : (t.create pad objectId).2.flag? x = t.flag? x ∨
      x = t.histories.length ∧ (t.create pad objectId).2.flag? x = some (false, 0) := by
    simp only [ObjectHistories.flag?, ObjectHistories.create]
    by_cases hx : x < t.histories.length
    · exact .inl (by rw [List.getElem?_append_left hx])
    · obtain rfl | hgt := Nat.eq_or_lt_of_le (Nat.le_of_not_lt hx)
      · exact .inr ⟨rfl, by simp⟩
      · refine .inl ?_
        rw [List.getElem?_eq_none (by simp; omega), List.getElem?_eq_none (by omega)]
  have hfresh (b : GstNvInferBatch) (hb : b ∈ l) : t.histories.length ∉ b.refs.map Prod.fst := by
    intro hmem
    obtain ⟨r, hr, hlen⟩ := List.mem_map.mp hmem
    have hlt := h.known r.1 (h.alive b hb r hr)
    omega
  refine ⟨h.plain, fun x hx => ?_, fun b hb r hr => ?_, fun x u n hx => ?_, fun x u n hx ha => ?_⟩
  · have hlen : (t.create pad objectId).2.histories.length = t.histories.length + 1 := by
      simp [ObjectHistories.create]
    obtain hx | rfl := (ObjectHistories.alive_create hs objectId x).mp hx
    · have hlt := h.known x hx
      omega
    · omega
  · exact (ObjectHistories.alive_create hs objectId r.1).mpr (.inl (h.alive b hb r hr))
  · obtain hold | ⟨rfl, -⟩ := hflag x
    · exact h.latest x u n (hold ▸ hx)
    · refine Latest.of_not_mem fun r hr => ?_
      obtain ⟨b, hb, rfl⟩ := List.mem_map.mp hr
      exact hfresh b hb
  · obtain ha | rfl := (ObjectHistories.alive_create hs objectId x).mp ha
    · obtain hold | ⟨rfl, -⟩ := hflag x
      · exact h.flag x u n (hold ▸ hx) ha
      · exact absurd (h.known _ ha) (Nat.lt_irrefl _)
    · have hnone (b : GstNvInferBatch) (hb : b ∈ l) : (t.histories.length, n) ∉ b.refs := fun hr =>
        hfresh b hb (mem_keys_of_mem hr)
      obtain hold | ⟨-, hnew⟩ := hflag t.histories.length
      · rw [hold] at hx
        simp [ObjectHistories.flag?] at hx
      · rw [hnew] at hx
        obtain ⟨rfl, -⟩ := Prod.mk.inj (Option.some.inj hx)
        simpa using hnone

/-- The history is marked and its object put into the newest batch, with a frame
number that no other batch has of it. -/
theorem infer (h : Exact t (l ++ [b])) {x n : ℕ} (ha : t.alive x) (hfresh : ∀ b ∈ l, (x, n) ∉ b.refs)
    (hr : b'.refs = b.refs ++ [(x, n)]) (hp : b'.eventMarker = true ∨ b'.pushBuffer = true → b'.frames = [])
    {f : GstNvInferObjectHistory R → GstNvInferObjectHistory R}
    (hf : ∀ hist, (f hist).underInference = true ∧ (f hist).lastInferredFrameNum = n) :
    Exact (t.modify x f) (l ++ [b']) := by
  have hflag (y : ℕ) (u : Bool) (m : ℕ) (hy : (t.modify x f).flag? y = some (u, m)) :
      y = x ∧ u = true ∧ m = n ∨ x ≠ y ∧ t.flag? y = some (u, m) := by
    rw [ObjectHistories.flag?_modify] at hy
    obtain ⟨hist, hhist, hy⟩ := Option.map_eq_some_iff.mp hy
    dsimp only at hy
    by_cases hxy : x = y
    · rw [if_pos hxy, (hf hist).1, (hf hist).2] at hy
      obtain ⟨rfl, rfl⟩ := Prod.mk.inj hy
      exact .inl ⟨hxy.symm, rfl, rfl⟩
    · rw [if_neg hxy] at hy
      exact .inr ⟨hxy, by rw [ObjectHistories.flag?, hhist, Option.map_some, hy]⟩
  refine ⟨fun y hy => ?_, fun y hy => ?_, fun y hy r hmem => ?_, fun y u m hy => ?_, fun y u m hy hay => ?_⟩
  · obtain hy | hy := List.mem_append.mp hy
    · exact h.plain y (List.mem_append_left _ hy)
    · exact List.mem_singleton.mp hy ▸ hp
  · have hlt := h.known y hy
    simpa [ObjectHistories.modify] using hlt
  · obtain hy | hy := List.mem_append.mp hy
    · exact h.alive y (List.mem_append_left _ hy) r hmem
    · rw [List.mem_singleton.mp hy, hr] at hmem
      obtain hmem | hmem := List.mem_append.mp hmem
      · exact h.alive b (by simp) r hmem
      · obtain rfl := List.mem_singleton.mp hmem
        exact ha
  · rw [List.map_append, List.map_singleton, hr]
    obtain ⟨rfl, rfl, rfl⟩ | ⟨hxy, hold⟩ := hflag y u m hy
    · refine Latest.enter fun z hz => ?_
      obtain ⟨b'', hb'', rfl⟩ := List.mem_map.mp hz
      exact hfresh b'' hb''
    · have hl := h.latest y u m hold
      rw [List.map_append, List.map_singleton] at hl
      exact hl.enter_other hxy
  · obtain ⟨rfl, rfl, rfl⟩ | ⟨hxy, hold⟩ := hflag y u m hy
    · exact iff_of_true rfl ⟨b', by simp, by simp [hr]⟩
    · rw [h.flag y u m hold hay]
      simp [hr, hxy.symm, or_and_right, exists_or]

end Exact
end Exact

/-! ### The element -/

namespace GstNvInfer

variable {R : Type*} {s s' : GstNvInfer R}

/-- The batches that are queued or in a thread's hands, the oldest first. -/
def inFlight (s : GstNvInfer R) : List GstNvInferBatch := s.queues.line ++ s.submit.batch

theorem inFlight_eq_line (h : s.submit.batch = []) : s.inFlight = s.queues.line := by
  rw [inFlight, h, List.append_nil]

/-- An object with the history may be inferred: no queued batch has it with this
frame number, and if the conversion fails the object has no history and the batch
is not the last inference of any. -/
def InferOk [CFloat R] (s : GstNvInfer R) (ok : Bool) (f : NvDsFrameMeta R) (obj : NvDsObjectMeta R)
    (batch : Option GstNvInferBatch) : Prop :=
  (∀ h ∈ s.historyOf f obj, ∀ b ∈ s.queues.line, (h, f.frameNum) ∉ b.refs) ∧
    (ok = false → obj.objectId = untrackedObjectId ∧ ∀ b ∈ batch, Lossless s.tracked b)

/-- No batch on its way has an object of the source. -/
def ClearOk (s : GstNvInfer R) (source : ℕ) : Prop :=
  ∀ b ∈ s.inFlight, ∀ r ∈ b.refs, ¬ s.tracked.ofSource source r.1

/-- The object that is next in a phase may be inferred. -/
def WorkOk [CFloat R] (s : GstNvInfer R) (ok : Bool) : Submit R → Prop
  | .objects _ (.object _ f obj :: _) batch => s.Qualifies f obj → s.InferOk ok f obj batch
  | _ => True

def HistoryStepOk [CFloat R] (s : GstNvInfer R) (a : Action R) : Prop :=
  match a with
  | .processFrame ok => ok = false → ∀ b ∈ s.submit.batch, Lossless s.tracked b
  | .processWork ok => s.WorkOk ok s.submit
  | .pushBatch ok => ok = false → ∀ b ∈ s.submit.batch, Lossless s.tracked b
  | .inputQueued status => status ≠ .success → ∀ b ∈ s.queues.inputLoop.held, Lossless s.tracked b
  | .outputDequeued status _ => status ≠ .success → ∀ b ∈ s.queues.outputLoop.held, Lossless s.tracked b
  | .sinkEvent e => s.cfg.classifierAsyncMode = true → match e with
    | .padDeleted source => s.ClearOk source
    | .streamEos source => s.ClearOk source
    | _ => True
  | _ => True

variable {buffer : ℕ} {rest : List (Work R)} {batch : Option GstNvInferBatch} {b : GstNvInferBatch}

variable [CFloat R] {a : Action R}

/-- An object is inferred. -/
theorem exact_infer {ok : Bool} {item : Item} {f : NvDsFrameMeta R} {obj : NvDsObjectMeta R}
    (h : Exact s.tracked (s.queues.line ++ batch.toList)) (hfill : ∀ b ∈ batch, b.Filling) (hq : s.Qualifies f obj)
    (hok : s.InferOk ok f obj batch) :
    Exact (s.inferObject ok buffer item f obj (s.historyOf f obj) rest batch).tracked
      (s.inferObject ok buffer item f obj (s.historyOf f obj) rest batch).inFlight := by
  let b₀ : GstNvInferBatch := { inbuf := if s.cfg.classifierAsyncMode then none else some buffer }
  have hb₀ : (batch.getD b₀).Filling := GstNvInferBatch.filling_getD hfill ⟨rfl, rfl⟩
  have hget : Exact s.tracked (s.queues.line ++ [batch.getD b₀]) := h.getD rfl (by simp [b₀])
  by_cases hun : obj.objectId = untrackedObjectId
  · unfold inferObject
    rw [if_pos hun]
    cases ok with
    | true => exact hget.replace (GstNvInferBatch.refs_addFrame_none _ _ _) (hb₀.plain rfl rfl)
    | false => simpa [inFlight, Submit.batch] using h.lose (hok.2 rfl).2
  · obtain rfl : ok = true := by
      cases ok with
      | true => rfl
      | false => exact absurd (hok.2 rfl).1 hun
    unfold inferObject
    rw [if_neg hun]
    cases hh : s.historyOf f obj with
    | some x =>
      exact hget.infer (ObjectHistories.alive_of_search hh) (hok.1 x hh) (GstNvInferBatch.refs_addFrame_some _ _ _ _)
        (hb₀.plain rfl rfl) fun _ => ⟨rfl, rfl⟩
    | none =>
      -- the new history is in no batch yet
      have hnew := hget.create hq.1 obj.objectId
      have ha := (ObjectHistories.alive_create hq.1 obj.objectId s.tracked.histories.length).mpr (.inr rfl)
      refine hnew.infer ha (fun b hb hr => ?_) (GstNvInferBatch.refs_addFrame_some _ _ _ _) (hb₀.plain rfl rfl) fun _ => ⟨rfl, rfl⟩
      have hlt := hget.known _ (hget.alive b (List.mem_append_left _ hb) _ hr)
      exact Nat.lt_irrefl _ hlt

theorem exact_work {ok : Bool} {w : Work R} (h : Exact s.tracked (s.queues.line ++ batch.toList))
    (hfill : ∀ b ∈ batch, b.Filling)
    (hok : ∀ item f obj, w = .object item f obj → s.Qualifies f obj → s.InferOk ok f obj batch) :
    Exact (s.processWork ok buffer w rest batch).tracked (s.processWork ok buffer w rest batch).inFlight := by
  have hcase := s.processWork_cases buffer rest batch ok w
  generalize s.processWork ok buffer w rest batch = s' at hcase ⊢
  have haccess (x n : ℕ) {l : List GstNvInferBatch} (h : Exact s.tracked l) :
      Exact (s.tracked.modify x fun hist => { hist with lastAccessedFrameNum := n }) l :=
    h.update (by simp [ObjectHistories.modify]) (fun y => ObjectHistories.flag?_access _ _ _ _) (fun _ hy => hy)
      fun _ _ _ _ hy => hy
  cases hcase with
  | seen f =>
    have halive (x : ℕ) := ObjectHistories.alive_updateSource (f := fun si => { si with lastSeenFrameNum := f.frameNum })
      (fun _ => rfl) s.tracked f.padIndex x
    exact h.update rfl (fun _ => rfl) (fun x => (halive x).mp) fun _ _ r _ => (halive r.1).mpr
  | skip item f obj hq hd => exact h
  | access item f obj x hq hd => exact haccess x f.frameNum h
  | @defer item f obj x hq hh hd =>
    unfold deferObject
    split
    · have hb := GstNvInferBatch.filling_getD (b := { inbuf := some buffer }) hfill ⟨rfl, rfl⟩
      have hget : Exact s.tracked (s.queues.line ++ [batch.getD { inbuf := some buffer }]) := h.getD rfl (by simp)
      exact haccess x f.frameNum (hget.replace (GstNvInferBatch.refs_addPending _ _ _) (hb.plain rfl rfl))
    · rename_i hno
      obtain rfl : batch = none := by
        cases batch with
        | none => rfl
        | some b => exact absurd (.inr rfl) hno
      simpa [inFlight, Submit.batch] using h
  | infer item f obj hq => exact exact_infer h hfill hq (hok item f obj rfl hq)

omit [CFloat R] in
/-- Sources whose histories are not on their way may go. -/
theorem exact_handleEvent {e : SinkEvent} {l : List GstNvInferBatch} (h : Exact s.tracked l)
    (hok : ∀ source, e = .padDeleted source ∨ e = .streamEos source →
      ∀ b ∈ l, ∀ r ∈ b.refs, ¬ s.tracked.ofSource source r.1) : Exact (s.handleEvent e).tracked l := by
  cases e with
  | padAdded source =>
    have halive (x : ℕ) := ObjectHistories.alive_addSource s.tracked source x
    refine h.update ?_ (fun x => ?_) (fun x => (halive x).mp) fun _ _ r _ => (halive r.1).mpr
    · simp only [handleEvent, ObjectHistories.addSource]
      split <;> rfl
    · simp only [handleEvent, ObjectHistories.addSource, ObjectHistories.flag?]
      split <;> rfl
  | padDeleted source =>
    exact h.update rfl (fun _ => rfl) (fun _ => ObjectHistories.alive_of_removeSource) fun b hb r hr ha =>
      ObjectHistories.alive_removeSource ha (hok source (.inl rfl) b hb r hr)
  | streamEos source =>
    exact h.update rfl (fun _ => rfl) (fun _ => ObjectHistories.alive_of_clearSource) fun b hb r hr ha =>
      ObjectHistories.alive_clearSource ha (hok source (.inr rfl) b hb r hr)
  | _ => exact h

theorem exact_step (hw : s.Wired) (h : Exact s.tracked s.inFlight) (hok : s.HistoryStepOk a)
    (hs : s.step a = some s') : Exact s'.tracked s'.inFlight := by
  have hsame {s' : GstNvInfer R} (ht : s'.tracked = s.tracked) (hl : s'.inFlight = s.inFlight) :
      Exact s'.tracked s'.inFlight := by rwa [ht, hl]
  -- nothing is on its way when a wait has ended
  have hempty {processOnly : Bool} (hwaits : s.submit.waits = some processOnly)
      (he : s.queues.emptied processOnly = some true) : s.queues.line = [] := hw.line_eq_nil hwaits he
  have hmarker : Exact s.tracked (s.queues.line ++ [.marker]) ∨ s.submit.batch ≠ [] := by
    by_cases hb : s.submit.batch = []
    · rw [inFlight_eq_line hb] at h
      exact .inl (h.append rfl (fun _ => rfl))
    · exact .inr hb
  cases step_cases hs with
  | begins hidle hn hb =>
    have hbegins := s.beginBuffer_frame hb
    refine hsame hbegins.tracked ?_
    rw [inFlight_eq_line hbegins.batch, inFlight_eq_line (by rw [hidle]; rfl), hbegins.queues]
  | flush hidle hn =>
    rw [inFlight_eq_line (by rfl), Queues.line_pushInput]
    exact hmarker.resolve_right (by simp [hidle, Submit.batch])
  | flushGoesOn hf he => exact hsame rfl (by simp [inFlight, hf, Submit.batch])
  | flushEnds hf he hb =>
    have hbegins := GstNvInfer.beginBuffer_frame _ hb
    have hline := hempty (by rw [hf]; rfl) he
    rw [inFlight_eq_line (by rw [hf]; rfl), hline] at h
    rw [hbegins.tracked, inFlight_eq_line hbegins.batch, hbegins.queues]
    show Exact s.tracked.clearAll s.queues.line
    rw [hline]
    exact h.update rfl (fun _ => rfl) (fun _ => ObjectHistories.alive_of_clearAll) (by simp)
  | frame hp =>
    rename_i ok buffer f i rest batch
    obtain ⟨-, hfill⟩ := hw.fits_of hp
    have hbatch : s.submit.batch = batch.toList := by rw [hp]; rfl
    rw [inFlight, hbatch] at h
    unfold processFrame
    dsimp only
    cases ok with
    | true =>
      have hb := GstNvInferBatch.filling_getD (b := { inbuf := some buffer }) hfill ⟨rfl, rfl⟩
      have hget : Exact s.tracked (s.queues.line ++ [batch.getD { inbuf := some buffer }]) := h.getD rfl (by simp)
      have hadd := hget.replace (GstNvInferBatch.refs_addFrame_none _ ⟨buffer, i, none⟩ f.frameNum) (hb.plain rfl rfl)
      rw [if_pos rfl]
      split
      · rw [inFlight_eq_line (by rfl), Queues.line_pushInput]
        exact hadd
      · exact hadd
    | false =>
      rw [if_neg (by simp), inFlight_eq_line (by rfl)]
      exact h.lose fun b hb => hok rfl b (by simpa [hbatch] using hb)
  | framesEnd hp => exact hsame rfl (by simp [inFlight, hp, Submit.batch])
  | work hp hany =>
    rename_i ok buffer w rest batch
    obtain ⟨-, hfill⟩ := hw.fits_of hp
    have hbatch : s.submit.batch = batch.toList := by rw [hp]; rfl
    rw [inFlight, hbatch] at h
    refine exact_work h hfill fun item f obj hw hq => ?_
    subst hw
    have hwork : s.WorkOk ok s.submit := hok
    rw [hp] at hwork
    exact hwork hq
  | pushBatch hp =>
    rename_i ok buffer rest batch
    have hbatch : s.submit.batch = [batch] := by rw [hp]; rfl
    rw [inFlight, hbatch] at h
    unfold GstNvInfer.pushBatch
    cases ok with
    | true =>
      rw [if_pos rfl, inFlight_eq_line (by rfl), Queues.line_pushInput]
      exact h
    | false =>
      rw [if_neg (by simp), inFlight_eq_line (by rfl)]
      have hdropped := h.drop (hok rfl batch (by simp [hbatch]))
      rwa [List.append_nil] at hdropped
  | objectsEnd hp =>
    have hbatch : s.submit.batch = [] := by rw [hp]; rfl
    rw [inFlight_eq_line hbatch] at h
    rw [inFlight_eq_line (by rfl)]
    unfold cleanupHistoryMap
    split
    · exact h.cleanup
    · exact h
  | tensorBatch hp hne hle =>
    rename_i buffer frames status
    have hbatch : s.submit.batch = [] := by rw [hp]; rfl
    have ht := hw.fits_of hp
    unfold GstNvInfer.tensorBatch
    cases status with
    | success =>
      rw [inFlight_eq_line hbatch] at h
      let b : GstNvInferBatch := { inbuf := some buffer, frames := frames.map fun f => ⟨f.1, f.2, none⟩ }
      show Exact s.tracked ((s.queues.pushProcess b (some s.impl.inferCtx)).line ++ s.submit.batch)
      rw [hbatch, List.append_nil,
        Queues.line_pushProcess _ _ (hw.tensor ht).1 (hw.inputQueue_eq_nil ht (by simp [hp]))]
      refine h.append ?_ (by simp [b])
      simp [b, GstNvInferBatch.refs, ObjectHistories.refsOf, List.filterMap_map]
    | memError => exact h
    | failed => exact hsame rfl (by rw [inFlight_eq_line hbatch]; exact List.append_nil _)
  | tensorsEnd hp =>
    rename_i buffer ok
    cases ok with
    | true => exact hsame rfl (by simp [inFlight, hp, Submit.batch])
    | false => exact hsame rfl (by simp [inFlight, hp, Submit.batch])
  | pushBuffer hp =>
    rename_i buffer
    have hbatch : s.submit.batch = [] := by rw [hp]; rfl
    unfold GstNvInfer.pushBuffer
    split
    · exact hsame rfl (by simp [inFlight, hp, Submit.batch])
    · rw [inFlight_eq_line hbatch] at h
      rw [inFlight_eq_line (by rfl), hw.line_enqueue (by simp [hp])]
      exact h.append rfl (fun _ => rfl)
  | event hidle =>
    rename_i e
    have hbatch : s.submit.batch = [] := by rw [hidle]; rfl
    rw [inFlight_eq_line hbatch] at h
    unfold GstNvInfer.sinkEvent
    split
    · rw [inFlight_eq_line (by rfl), hw.line_enqueue (by simp [hidle])]
      exact h.append rfl (fun _ => rfl)
    · rename_i hser
      have hsub : (s.handleEvent e).submit.batch = [] := by rw [handleEvent_submit]; rfl
      rw [inFlight_eq_line hsub, (s.handleEvent_untouched e).queues]
      refine exact_handleEvent h fun source he b hb => ?_
      have hmem : b ∈ s.inFlight := by rwa [inFlight_eq_line hbatch]
      have hasync : s.cfg.classifierAsyncMode = true := by
        obtain rfl | rfl := he
        · simpa [SinkEvent.isSerialized] using hser
        · simpa [SinkEvent.isSerialized] using hser
      obtain rfl | rfl := he
      · exact hok hasync b hmem
      · exact hok hasync b hmem
  | eventGoesOn hf he => exact hsame rfl (by simp [inFlight, hf, Submit.batch])
  | eventEnds hf he =>
    rename_i e processOnly
    have hline := hempty (by rw [hf]; rfl) he
    have hsub : (s.handleEvent e).submit.batch = [] := by rw [handleEvent_submit]; rfl
    rw [inFlight_eq_line (by rw [hf]; rfl), hline] at h
    rw [inFlight_eq_line hsub, (s.handleEvent_untouched e).queues, hline]
    exact exact_handleEvent h (by simp)
  | inputPop ht hq => exact hsame rfl (by simp only [inFlight, Queues.line_inputPop hq])
  | inputQueued hq =>
    obtain ⟨-, hline⟩ | ⟨hst, b, before, hheld, hold, hnew⟩ := Queues.line_inputQueued hq
    · exact hsame rfl (by simp only [inFlight, hline])
    · rw [inFlight, hold, List.append_assoc, List.cons_append] at h
      show Exact s.tracked (_ ++ _)
      rw [hnew, List.append_assoc]
      exact h.drop (hok hst b (by simp [hheld]))
  | outputMarker hl hq hm =>
    rename_i b c entries
    rw [inFlight, Queues.line_pop hl hq, List.cons_append] at h
    exact h.dropPlain (h.plain b (by simp) (.inl hm))
  | outputPending hl hq hm hf hp ha =>
    rename_i b c entries log
    rw [inFlight, Queues.line_pop hl hq, List.cons_append] at h
    exact h.dropPlain hf
  | outputTakesPush hl hq hm hp => exact hsame rfl (by simp only [inFlight]; rw [Queues.line_take hl hq rfl])
  | outputTakes hl hq hm hf hp => exact hsame rfl (by simp only [inFlight]; rw [Queues.line_take hl hq rfl])
  | outputPush hl =>
    rename_i b
    rw [inFlight, Queues.line_finish (b := b) (by rw [hl]; rfl), List.cons_append] at h
    exact h.dropPlain (h.plain b (by simp) (.inr (hw.pushing b hl)))
  | outputContext hl => exact hsame rfl (by simp only [inFlight]; rw [Queues.line_held (by rw [hl]; rfl)])
  | outputAttach hl ha =>
    rename_i b c ctx outputs
    have hat := s.outputAttach_frame ha
    rw [inFlight, Queues.line_finish (b := b) (by rw [hl]; rfl), List.cons_append] at h
    rw [hat.tracked, inFlight, hat.queues, hat.submit]
    exact h.output _ (by simp [Function.comp_def])
  | outputFails hl hst =>
    rename_i b c ctx status outputs
    rw [inFlight, Queues.line_finish (b := b) (by rw [hl]; rfl), List.cons_append] at h
    exact Exact.drop (l := []) h (hok hst b (by simp [hl, OutputLoop.held]))
  | loadModel hl | loadFailed hl | triggerContextReplace hl => exact hsame rfl rfl

instance instDecidableInferOk (s : GstNvInfer R) (ok : Bool) (f : NvDsFrameMeta R) (obj : NvDsObjectMeta R)
    (batch : Option GstNvInferBatch) : Decidable (s.InferOk ok f obj batch) :=
  inferInstanceAs (Decidable (_ ∧ _))

instance instDecidableClearOk (s : GstNvInfer R) (source : ℕ) : Decidable (s.ClearOk source) :=
  inferInstanceAs (Decidable (∀ b ∈ s.inFlight, ∀ r ∈ b.refs, ¬ s.tracked.ofSource source r.1))

instance instDecidableWorkOk (s : GstNvInfer R) (ok : Bool) : ∀ p : Submit R, Decidable (s.WorkOk ok p)
  | .objects _ (.object _ f obj :: _) batch => inferInstanceAs (Decidable (s.Qualifies f obj → s.InferOk ok f obj batch))
  | .objects _ (.frame _ :: _) _ | .objects _ [] _ | .idle | .flushing _ _ _ | .fullFrame _ _ _ | .tensors _
  | .pushing _ | .inEvent _ _ => inferInstanceAs (Decidable True)

instance instDecidableHistoryStepOk (s : GstNvInfer R) (a : Action R) : Decidable (s.HistoryStepOk a) :=
  match a with
  | .processFrame ok =>
    inferInstanceAs (Decidable (ok = false → ∀ b ∈ s.submit.batch, Lossless s.tracked b))
  | .processWork ok => inferInstanceAs (Decidable (s.WorkOk ok s.submit))
  | .pushBatch ok => inferInstanceAs (Decidable (ok = false → ∀ b ∈ s.submit.batch, Lossless s.tracked b))
  | .inputQueued status =>
    inferInstanceAs (Decidable (status ≠ .success → ∀ b ∈ s.queues.inputLoop.held, Lossless s.tracked b))
  | .outputDequeued status _ =>
    inferInstanceAs (Decidable (status ≠ .success → ∀ b ∈ s.queues.outputLoop.held, Lossless s.tracked b))
  | .sinkEvent e => match e with
    | .padDeleted source => inferInstanceAs (Decidable (s.cfg.classifierAsyncMode = true → s.ClearOk source))
    | .streamEos source => inferInstanceAs (Decidable (s.cfg.classifierAsyncMode = true → s.ClearOk source))
    | .padAdded _ | .inferIntervalUpdate _ | .eos | .tag | .other _ =>
      inferInstanceAs (Decidable (s.cfg.classifierAsyncMode = true → True))
  | .submitInputBuffer _ | .flushed | .endObjects | .tensorBatch _ _ | .endTensors _ | .pushBuffer | .eventFlushed
  | .inputPop | .outputPop | .outputPush | .outputContext | .loadModel | .loadFailed | .triggerContextReplace =>
    inferInstanceAs (Decidable True)

/-- The batch has an object with the history, in the frame with this number. -/
def contains (b : GstNvInferBatch) (h n : ℕ) : Prop := ∃ f ∈ b.frames, f.history = some h ∧ f.frameNum = n

/-- In the runs that meet the condition a history is marked if and only if the
batch of its last inference is on its way; so without one the cleanup goes by the
last access only, and a history that is on its way can be locked. -/
theorem histories_run (h : Reach step HistoryStepOk Started s) :
    (∀ x hist, s.tracked.histories[x]? = some hist → s.tracked.alive x →
      (hist.underInference = true ↔ ∃ b ∈ s.inFlight, contains b x hist.lastInferredFrameNum)) ∧
    (∀ e ∈ s.tracked.sourceInfo, ∀ entry ∈ e.2.objectHistoryMap, ∀ hist, s.tracked.histories[entry.2]? = some hist →
      (∀ b ∈ s.inFlight, ¬ contains b entry.2 hist.lastInferredFrameNum) →
        (s.tracked.stale e.2 entry.2 = true ↔
          wrapSub 64 e.2.lastSeenFrameNum hist.lastAccessedFrameNum > ObjectHistories.cleanupAccessCriteria)) ∧
    ∀ b ∈ s.inFlight, ∀ f ∈ b.frames, ∀ x, f.history = some x → s.tracked.alive x := by
  have hinv : s.Wired ∧ Exact s.tracked s.inFlight := by
    refine h.invariant (I := fun s : GstNvInfer R => s.Wired ∧ Exact s.tracked s.inFlight) ?_
      fun _ _ _ hI hok hs => ⟨wired_step hI.1 hs, exact_step hI.1 hI.2 hok hs⟩
    rintro _ ⟨cfg, interval, rfl⟩
    refine ⟨wired_start cfg interval, ⟨by simp [inFlight, start, Queues.line, InputLoop.held, OutputLoop.held, Submit.batch],
      fun x hx => ?_, by simp [inFlight, start, Queues.line, InputLoop.held, OutputLoop.held, Submit.batch],
      by simp [start, ObjectHistories.flag?], by simp [start, ObjectHistories.flag?]⟩⟩
    simp [start, ObjectHistories.alive, GstNvInferSourceInfo.new] at hx
  have hexact := hinv.2
  have hflag (x : ℕ) (hist : GstNvInferObjectHistory R) (hx : s.tracked.histories[x]? = some hist)
      (ha : s.tracked.alive x) :
      hist.underInference = true ↔ ∃ b ∈ s.inFlight, contains b x hist.lastInferredFrameNum := by
    have hf : s.tracked.flag? x = some (hist.underInference, hist.lastInferredFrameNum) := by
      simp [ObjectHistories.flag?, hx]
    simpa only [contains, GstNvInferBatch.mem_refs] using hexact.flag x _ _ hf ha
  refine ⟨hflag, fun e he entry hentry hist hhist hgone => ?_, fun b hb f hf x hx => ?_⟩
  · have hunder : hist.underInference = false := by
      by_contra hmark
      obtain ⟨b, hb, hc⟩ := (hflag _ _ hhist ⟨e, he, entry, hentry, rfl⟩).mp (by simpa using hmark)
      exact hgone b hb hc
    simp [ObjectHistories.stale, hhist, hunder]
  · exact hexact.alive b hb (x, f.frameNum) (GstNvInferBatch.mem_refs.mpr ⟨f, hf, hx, rfl⟩)

/-- A classifier on tracked objects. -/
def objectSettings : Settings :=
  { classifierSettings with processFullFrame := false, async_classifier := by decide }

def trackedObject : NvDsObjectMeta ℚ := ⟨7, 1, 0, 100, 100⟩

/-- A tracked object is put into a batch, and the batch is queued. -/
def objectRun : List (Action ℚ) :=
  [.submitInputBuffer [⟨0, 1, [trackedObject]⟩], .processWork true, .processWork true, .pushBatch true, .endObjects,
    .pushBuffer, .inputPop]

theorem histories_run_inFlight :
    let s := (exec step HistoryStepOk (start ℚ objectSettings 0) objectRun).get (by decide +kernel)
    (∃ b ∈ s.inFlight, ∃ f ∈ b.frames, f.history = some 0) ∧
      (∀ x hist, s.tracked.histories[x]? = some hist → s.tracked.alive x →
        (hist.underInference = true ↔ ∃ b ∈ s.inFlight, contains b x hist.lastInferredFrameNum)) ∧
      (∀ e ∈ s.tracked.sourceInfo, ∀ entry ∈ e.2.objectHistoryMap, ∀ hist,
        s.tracked.histories[entry.2]? = some hist →
          (∀ b ∈ s.inFlight, ¬ contains b entry.2 hist.lastInferredFrameNum) →
            (s.tracked.stale e.2 entry.2 = true ↔
              wrapSub 64 e.2.lastSeenFrameNum hist.lastAccessedFrameNum > ObjectHistories.cleanupAccessCriteria)) ∧
      ∀ b ∈ s.inFlight, ∀ f ∈ b.frames, ∀ x, f.history = some x → s.tracked.alive x :=
  ⟨by decide +kernel, histories_run (Reach.get_exec ⟨objectSettings, 0, rfl⟩ _)⟩

/-- The context refuses the batch: the history stays marked, and nothing is on
its way. -/
theorem mark_left : ∃ s : GstNvInfer ℚ, Reach step anyStep Started s ∧ s.tracked.alive 0 ∧
    (s.tracked.histories[0]?).map (·.underInference) = some true ∧ s.inFlight = [] := by
  refine ⟨_, Reach.get_exec (s := start ℚ objectSettings 0)
    (l := objectRun ++ [.inputQueued .memError, .inputPop, .outputPop, .outputPush]) ⟨objectSettings, 0, rfl⟩
    (by decide +kernel), by decide +kernel, by decide +kernel, by decide +kernel⟩

end GstNvInfer
end NvInfer
end DeepStream
