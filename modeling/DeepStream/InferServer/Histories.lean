/-
# Object histories of gst-nvinferserver

In object mode `processObjects` marks the history of a tracked object when it puts
the object into a request, and `attachBatchClassification` takes the mark away when
it comes to the object of the last inference. `clearUpHistory` keeps marked
histories. The streaming thread and the output thread hold `m_ProcessMutex` for one
frame or object at a time: a step is one such section.

The maps are those of gst-nvinfer, from which the element took them. Which requests
the context refuses, and how the others end, is chosen with the step. The classes
cached in a history are left out.
-/
import DeepStream.Lib.Run
import DeepStream.NvInfer.Objects
import Mathlib.Data.List.Count

namespace DeepStream
namespace InferServer

open Infer (CFloat)
open NvInfer (NvDsObjectMeta NvDsFrameMeta GstNvInferObjectHistory GstNvInferSourceInfo ObjectHistories untrackedObjectId)

/-! ### Settings -/

/-- `process_type` of the post-processing. -/
inductive ProcessType where
  | detection | classification | segmentation | other | trtisClassification | tritonClassification
  deriving DecidableEq, Repr

structure BBoxFilter where
  minWidth : ℕ
  minHeight : ℕ
  maxWidth : ℕ
  maxHeight : ℕ
  deriving DecidableEq, Repr

structure Settings where
  postprocess : Option ProcessType
  asyncMode : Bool := false
  maxBatchSize : ℕ
  operateOnGieId : ℤ := -1
  objectControl : Option BBoxFilter := none
  operateOnClassIds : List ℤ := []
  secondaryReinferInterval : Option ℕ := none
  deriving DecidableEq, Repr

def maxSecondaryReinferInterval : ℕ := 90

namespace Settings

variable (cfg : Settings)

def isClassify : Bool := cfg.postprocess = some .classification ∨ cfg.postprocess = some .tritonClassification

def isDetection : Bool := cfg.postprocess = some .detection

section Decision

variable {R : Type*} [CFloat R] (obj : NvDsObjectMeta R) (frameNum : ℕ)

/-- The box of the object is in the limits of `object_control`. -/
def inLimits : Bool :=
  cfg.objectControl.all fun f =>
    !(obj.width < (f.minWidth : R)) && !(obj.height < (f.minHeight : R)) &&
      !(0 < f.maxWidth && (f.maxWidth : R) < obj.width) && !(0 < f.maxHeight && (f.maxHeight : R) < obj.height)

/-- The last inference of the object is long ago. -/
def intervalPassed (history : GstNvInferObjectHistory R) : Bool :=
  wrapSub 64 frameNum history.lastInferredFrameNum > cfg.secondaryReinferInterval.getD maxSecondaryReinferInterval

def shouldInferObject (history : Option (GstNvInferObjectHistory R)) : Bool :=
  if -1 < cfg.operateOnGieId ∧ obj.uniqueComponentId ≠ cfg.operateOnGieId then false
  else if cfg.inLimits obj = false then false
  else if cfg.operateOnClassIds ≠ [] ∧ (obj.classId : ℤ) ∉ cfg.operateOnClassIds then false
  else
    match history with
    | none => true
    | some history =>
      if cfg.isClassify then
        !history.underInference &&
          (history.lastInferredCoords.1 * history.lastInferredCoords.2 * ((1 : ℕ) + (0.2 : R)) < obj.width * obj.height ||
            cfg.intervalPassed frameNum history)
      else if cfg.isDetection then cfg.intervalPassed frameNum history
      else true

end Decision
end Settings

/-! ### The histories -/

structure ObjTrackingData (R : Type*) where
  sourceInfo : ObjectHistories R
  lastMapCleanupSeqId : ℕ

namespace ObjTrackingData

variable {R : Type*} (t : ObjTrackingData R)

def findObjHistory (sourceId objId : ℕ) : Option ℕ :=
  (t.sourceInfo.source? sourceId).bind fun si => ObjectHistories.search si objId

def clearUpHistory (seqId : ℕ) : ObjTrackingData R :=
  if wrapSub 64 seqId t.lastMapCleanupSeqId < ObjectHistories.mapCleanupInterval then t
  else { sourceInfo := t.sourceInfo.cleanup, lastMapCleanupSeqId := seqId }

end ObjTrackingData

/-! ### Object mode -/

/-- An object in a request, with a weak reference to its history. -/
structure InferFrame where
  history : Option ℕ
  frameNum : ℕ
  deriving DecidableEq, Repr

/-- `processObjects` on its way: the frames to come, the frame with the objects to
come, and the request that is being built. -/
structure Processing (R : Type*) where
  seqId : ℕ
  frames : List (NvDsFrameMeta R)
  current : Option (NvDsFrameMeta R) := none
  building : List InferFrame := []

structure ObjectMode (R : Type*) where
  cfg : Settings
  tracking : ObjTrackingData R
  processing : Option (Processing R) := none
  requests : List (List InferFrame) := []
  attaching : List InferFrame := []

namespace Processing

variable {R : Type*} (p : Processing R)

/-- The objects of the frame are done. -/
def frameDone : Bool := p.current.all fun f => f.objMetaList.isEmpty

/-- The request has to be submitted before anything else. -/
def full (maxBatchSize : ℕ) : Bool := p.building ≠ [] ∧ p.building.length = maxBatchSize

/-- All objects are done. -/
def allDone : Bool := p.frameDone ∧ p.frames.isEmpty

end Processing

namespace ObjectMode

inductive Action (R : Type*) where
  | addTrackingSource (sourceId : ℕ)
  | eraseTrackingSource (sourceId : ℕ)
  | updateInterval
  | stop
  | processObjects (seqId : ℕ) (frames : List (NvDsFrameMeta R))
  | nextFrame
  | nextObject
  | submit (ok : Bool)
  | clearUpHistory
  | inferenceDone (ok found : Bool)
  | attach

variable {R : Type*} (s : ObjectMode R)

/-- The frames of the requests in flight. -/
def inFlight : List InferFrame :=
  (s.processing.map (·.building)).getD [] ++ (s.requests.flatten ++ s.attaching)

def modifySources (f : ObjectHistories R → ObjectHistories R) : ObjectMode R :=
  { s with tracking := { s.tracking with sourceInfo := f s.tracking.sourceInfo } }

section Object

variable [CFloat R]

/-- The history of an object that goes into a request. -/
def markHistory (o : NvDsObjectMeta R) (frameNum : ℕ) (history : GstNvInferObjectHistory R) : GstNvInferObjectHistory R :=
  { history with
    underInference := true
    lastInferredFrameNum := frameNum
    lastAccessedFrameNum := frameNum
    lastInferredCoords := (o.width, o.height) }

/-- The object goes into the request. -/
def addFrame (p : Processing R) (o : NvDsObjectMeta R) (frameNum : ℕ) (history : Option ℕ) (t : ObjectHistories R) :
    ObjectMode R :=
  { s with
    tracking := { s.tracking with sourceInfo := history.elim t fun h => t.modify h (markHistory o frameNum) }
    processing := some { p with building := p.building ++ [⟨history, frameNum⟩] } }

/-- An object in `processObjects`; its source is known. -/
def processObject (p : Processing R) (f : NvDsFrameMeta R) (o : NvDsObjectMeta R) : ObjectMode R :=
  if s.cfg.asyncMode ∧ o.objectId = untrackedObjectId then { s with processing := some p }
  else
    let t := s.tracking.sourceInfo
    match s.tracking.findObjHistory f.padIndex o.objectId with
    | some h =>
      let should := s.cfg.shouldInferObject o f.frameNum t.histories[h]?
      let t := if s.cfg.isClassify ∧ (should = false ∨ s.cfg.asyncMode) then
          t.modify h fun history => { history with lastAccessedFrameNum := f.frameNum }
        else t
      if should then s.addFrame p o f.frameNum (some h) t
      else { s.modifySources fun _ => t with processing := some p }
    | none =>
      if s.cfg.shouldInferObject o f.frameNum none then
        if o.objectId = untrackedObjectId then s.addFrame p o f.frameNum none t
        else
          let (h, t) := t.create f.padIndex o.objectId
          s.addFrame p o f.frameNum (some h) t
      else { s with processing := some p }

end Object

/-- `processObjects` goes on to the next frame; a frame of an unknown source is skipped. -/
def nextFrame (p : Processing R) : Option (ObjectMode R) :=
  if p.frameDone ∧ p.full s.cfg.maxBatchSize = false then
    match p.frames with
    | [] => none
    | f :: frames =>
      match s.tracking.sourceInfo.source? f.padIndex with
      | none => some { s with processing := some { p with frames := frames, current := none } }
      | some _ =>
        some { s.modifySources (·.updateSource f.padIndex fun si => { si with lastSeenFrameNum := f.frameNum }) with
               processing := some { p with frames := frames, current := some f } }
  else none

def nextObject [CFloat R] (p : Processing R) : Option (ObjectMode R) :=
  if p.full s.cfg.maxBatchSize then none
  else
    match p.current with
    | none => none
    | some f =>
      match f.objMetaList, s.tracking.sourceInfo.source? f.padIndex with
      | o :: os, some _ => some (s.processObject { p with current := some { f with objMetaList := os } } f o)
      | _, _ => none

/-- `batchInference`: when it fails, `processObjects` returns. -/
def submit (p : Processing R) (ok : Bool) : Option (ObjectMode R) :=
  if p.full s.cfg.maxBatchSize ∨ (p.allDone ∧ p.building ≠ []) then
    if ok then some { s with requests := s.requests ++ [p.building], processing := some { p with building := [] } }
    else some { s with processing := none }
  else none

/-- `InferenceDone`: without an error and with an output of the classifier, the
output thread goes over the frames. -/
def inferenceDone (ok found : Bool) : Option (ObjectMode R) :=
  match s.attaching, s.requests with
  | [], frames :: requests =>
    if ok ∧ s.cfg.isClassify ∧ found then some { s with requests := requests, attaching := frames }
    else some { s with requests := requests }
  | _, _ => none

/-- `attachBatchClassification` at a frame. -/
def attach : Option (ObjectMode R) :=
  match s.attaching with
  | [] => none
  | f :: frames => some <|
    match f.history with
    | none => { s with attaching := frames }
    | some h =>
      if s.tracking.sourceInfo.alive h then
        { s.modifySources (·.modify h fun history => { history with
            underInference := if history.lastInferredFrameNum = f.frameNum then false else history.underInference }) with
          attaching := frames }
      else { s with attaching := frames }

def step [CFloat R] (s : ObjectMode R) : Action R → Option (ObjectMode R)
  | .addTrackingSource sourceId => if s.processing.isNone then some (s.modifySources (·.addSource sourceId)) else none
  | .eraseTrackingSource sourceId => if s.processing.isNone then some (s.modifySources (·.removeSource sourceId)) else none
  | .updateInterval =>
    if s.processing.isNone then some { s with cfg := { s.cfg with secondaryReinferInterval := none } } else none
  | .stop =>
    if s.processing.isNone then
      some { s.modifySources (fun t => { t with sourceInfo := [] }) with requests := [], attaching := [] }
    else none
  | .processObjects seqId frames =>
    if s.processing.isNone then some { s with processing := some { seqId := seqId, frames := frames } } else none
  | .nextFrame => s.processing.bind s.nextFrame
  | .nextObject => s.processing.bind s.nextObject
  | .submit ok => s.processing.bind (s.submit · ok)
  | .clearUpHistory =>
    s.processing.bind fun p =>
      if p.allDone ∧ p.building = [] then
        some { s with tracking := s.tracking.clearUpHistory p.seqId, processing := none }
      else none
  | .inferenceDone ok found => s.inferenceDone ok found
  | .attach => s.attach

/-- The element is made; it has no histories. -/
def Started (s : ObjectMode R) : Prop := ∃ cfg, s = { cfg := cfg, tracking := ⟨⟨[], []⟩, 0⟩ }

/-- The frame has the last inference of a history that is still in a map. -/
def IsLast (s : ObjectMode R) (f : InferFrame) : Prop :=
  ∃ h ∈ f.history, s.tracking.sourceInfo.alive h ∧ ∃ x ∈ s.tracking.sourceInfo.flag? h, x.2 = f.frameNum

/-- A request with the last inference of an object ends in `attachBatchClassification`. -/
def Attached (s : ObjectMode R) : Action R → Prop
  | .submit ok => ok ∨ ∀ p ∈ s.processing, ∀ f ∈ p.building, ¬ s.IsLast f
  | .inferenceDone ok found => (ok ∧ s.cfg.isClassify ∧ found) ∨ ∀ frames ∈ s.requests.head?, ∀ f ∈ frames, ¬ s.IsLast f
  | _ => True

/-- A request in flight has the last inference of the history. -/
def UnderInference (s : ObjectMode R) (h : ℕ) (history : GstNvInferObjectHistory R) : Prop :=
  ∃ f ∈ s.inFlight, f.history = some h ∧ f.frameNum = history.lastInferredFrameNum

/-- What the property says of a state: the marks are exact, so histories that were
not accessed for long go with a clean-up, and an object is inferred again as if it
had never been marked. -/
structure HistoriesExact [CFloat R] (s : ObjectMode R) : Prop where
  marked : ∀ h history, s.tracking.sourceInfo.alive h → s.tracking.sourceInfo.histories[h]? = some history →
    (history.underInference = true ↔ s.UnderInference h history)
  cleared : ∀ seqId sourceId si si', ObjectHistories.mapCleanupInterval ≤ wrapSub 64 seqId s.tracking.lastMapCleanupSeqId →
    s.tracking.sourceInfo.source? sourceId = some si →
    ObjectHistories.mapCleanupInterval ≤ wrapSub 64 si.lastSeenFrameNum si.lastCleanupFrameNum →
    (s.tracking.clearUpHistory seqId).sourceInfo.source? sourceId = some si' →
    ∀ entry ∈ si'.objectHistoryMap, ∀ history, s.tracking.sourceInfo.histories[entry.2]? = some history →
      ObjectHistories.cleanupAccessCriteria < wrapSub 64 si.lastSeenFrameNum history.lastAccessedFrameNum →
      s.UnderInference entry.2 history
  reinfers : ∀ h history, s.tracking.sourceInfo.alive h → s.tracking.sourceInfo.histories[h]? = some history →
    ¬ s.UnderInference h history → ∀ (o : NvDsObjectMeta R) frameNum,
      s.cfg.shouldInferObject o frameNum (some history) =
        s.cfg.shouldInferObject o frameNum (some { history with underInference := false })

end ObjectMode

/-! ### The invariant -/

/-- The frames of tracked objects, as the history with the frame number. -/
def refsOf (frames : List InferFrame) : List (ℕ × ℕ) := frames.filterMap fun f => f.history.map fun h => (h, f.frameNum)

theorem mem_refsOf {frames : List InferFrame} {h n : ℕ} :
    (h, n) ∈ refsOf frames ↔ ∃ f ∈ frames, f.history = some h ∧ f.frameNum = n := by
  simp [refsOf]

/-- A history is marked as long as its last inference is in flight; a classifier
infers no object that is under inference. -/
structure Exact {R : Type*} (classify : Bool) (t : ObjectHistories R) (l : List (ℕ × ℕ)) : Prop where
  known : ∀ h, t.alive h → h < t.histories.length
  fresh : ∀ r ∈ l, r.1 < t.histories.length
  flag : ∀ h u n, t.flag? h = some (u, n) → t.alive h → (u = true ↔ (h, n) ∈ l)
  single : classify → ∀ h u n, t.flag? h = some (u, n) → t.alive h →
    (l.map Prod.fst).count h ≤ 1 ∧ ∀ m, (h, m) ∈ l → m = n

namespace Exact

variable {R : Type*} {c : Bool} {t t' : ObjectHistories R} {l l' d : List (ℕ × ℕ)} {h n : ℕ}

theorem perm (he : Exact c t l) (hp : l.Perm l') : Exact c t l' where
  known := he.known
  fresh r hr := he.fresh r (hp.mem_iff.mpr hr)
  flag h u n hf ha := (he.flag h u n hf ha).trans hp.mem_iff
  single hc h u n hf ha := by
    obtain ⟨hcount, hlast⟩ := he.single hc h u n hf ha
    rw [← (hp.map Prod.fst).count_eq]
    exact ⟨hcount, fun m hm => hlast m (hp.mem_iff.mpr hm)⟩

/-- There are no histories, and nothing is in flight. -/
theorem empty (hnot : ∀ h, ¬ t.alive h) : Exact c t [] where
  known h ha := absurd ha (hnot h)
  fresh r hr := by cases hr
  flag h _ _ _ ha := absurd ha (hnot h)
  single _ h _ _ _ ha := absurd ha (hnot h)

/-- Histories are accessed, and some go. -/
theorem update (he : Exact c t l) (hlen : t'.histories.length = t.histories.length)
    (hflag : ∀ h, t'.flag? h = t.flag? h) (hof : ∀ h, t'.alive h → t.alive h) : Exact c t' l where
  known h ha := hlen ▸ he.known h (hof h ha)
  fresh r hr := hlen ▸ he.fresh r hr
  flag h u n hf ha := he.flag h u n (hflag h ▸ hf) (hof h ha)
  single hc h u n hf ha := he.single hc h u n (hflag h ▸ hf) (hof h ha)

/-- Frames go that have no last inference of a history. -/
theorem drop (he : Exact c t l) (hp : l.Perm (d ++ l'))
    (hd : ∀ h n u, (h, n) ∈ d → t.alive h → t.flag? h ≠ some (u, n)) : Exact c t l' where
  known := he.known
  fresh r hr := he.fresh r (hp.mem_iff.mpr (List.mem_append_right _ hr))
  flag h u n hf ha := by
    rw [he.flag h u n hf ha, hp.mem_iff, List.mem_append]
    exact or_iff_right fun hmem => hd h n u hmem ha hf
  single hc h u n hf ha := by
    obtain ⟨hcount, hlast⟩ := he.single hc h u n hf ha
    rw [(hp.map Prod.fst).count_eq, List.map_append, List.count_append] at hcount
    exact ⟨by omega, fun m hm => hlast m (hp.mem_iff.mpr (List.mem_append_right _ hm))⟩

/-- A new history, that no frame has. -/
theorem create [CFloat R] (he : Exact c t l) {pad : ℕ} (hs : (t.source? pad).isSome = true) (objectId : ℕ) :
    Exact c (t.create pad objectId).2 l := by
  have hlen : (t.create pad objectId).2.histories.length = t.histories.length + 1 := by simp [ObjectHistories.create]
  have hfresh : ∀ n, (t.histories.length, n) ∉ l := fun n hmem => absurd (he.fresh _ hmem) (Nat.lt_irrefl _)
  have hold : ∀ h, h < t.histories.length → (t.create pad objectId).2.flag? h = t.flag? h := by
    intro h hlt
    simp only [ObjectHistories.flag?, ObjectHistories.create]
    rw [List.getElem?_append_left hlt]
  have hnew : (t.create pad objectId).2.flag? t.histories.length = some (false, 0) := by
    simp [ObjectHistories.flag?, ObjectHistories.create]
  constructor
  · intro h ha
    rw [hlen]
    rcases (ObjectHistories.alive_create hs objectId h).mp ha with ha | rfl
    · exact Nat.lt_succ_of_lt (he.known h ha)
    · exact Nat.lt_succ_self _
  · intro r hr
    rw [hlen]
    exact Nat.lt_succ_of_lt (he.fresh r hr)
  · intro h u n hf ha
    rcases (ObjectHistories.alive_create hs objectId h).mp ha with ha | rfl
    · exact he.flag h u n (hold h (he.known h ha) ▸ hf) ha
    · obtain ⟨rfl, rfl⟩ := Prod.mk.inj (Option.some.inj (hnew.symm.trans hf))
      simpa using hfresh 0
  · intro hc h u n hf ha
    rcases (ObjectHistories.alive_create hs objectId h).mp ha with ha | rfl
    · exact he.single hc h u n (hold h (he.known h ha) ▸ hf) ha
    · refine ⟨?_, fun m hm => absurd hm (hfresh m)⟩
      rw [List.count_eq_zero_of_not_mem]
      · exact Nat.zero_le 1
      · intro hmem
        obtain ⟨r, hr, heq⟩ := List.mem_map.mp hmem
        exact hfresh r.2 (heq ▸ hr)

/-- What is said of a history after it was changed. -/
theorem flag?_modify_cases {f : GstNvInferObjectHistory R → GstNvInferObjectHistory R} {x h n : ℕ} {u : Bool}
    (hf : (t.modify x f).flag? h = some (u, n)) :
    (h ≠ x ∧ t.flag? h = some (u, n)) ∨
      h = x ∧ ∃ hist, t.histories[x]? = some hist ∧ u = (f hist).underInference ∧ n = (f hist).lastInferredFrameNum := by
  rw [ObjectHistories.flag?_modify] at hf
  obtain ⟨hist, hhist, hf⟩ := Option.map_eq_some_iff.mp hf
  dsimp only at hf
  by_cases hx : x = h
  · subst hx
    rw [if_pos rfl] at hf
    obtain ⟨rfl, rfl⟩ := Prod.mk.inj hf
    exact .inr ⟨rfl, hist, hhist, rfl, rfl⟩
  · rw [if_neg hx] at hf
    exact .inl ⟨fun heq => hx heq.symm, by rw [ObjectHistories.flag?, hhist, Option.map_some, hf]⟩

/-- The history is marked and its object put into a request. -/
theorem infer (he : Exact c t l) {x m : ℕ} (hx : t.alive x) (hunmarked : c → ∀ k, t.flag? x ≠ some (true, k))
    {f : GstNvInferObjectHistory R → GstNvInferObjectHistory R}
    (hf : ∀ hist, (f hist).underInference = true ∧ (f hist).lastInferredFrameNum = m) :
    Exact c (t.modify x f) ((x, m) :: l) := by
  have hlen : (t.modify x f).histories.length = t.histories.length := by simp [ObjectHistories.modify]
  constructor
  · intro h ha
    exact hlen ▸ he.known h ha
  · intro r hr
    rw [hlen]
    rcases List.mem_cons.mp hr with rfl | hr
    · exact he.known x hx
    · exact he.fresh r hr
  · intro h u n hfl ha
    rcases flag?_modify_cases hfl with ⟨hne, hfl⟩ | ⟨rfl, hist, -, rfl, rfl⟩
    · rw [he.flag h u n hfl ha]
      simp [hne]
    · simp [hf]
  · intro hc h u n hfl ha
    rcases flag?_modify_cases hfl with ⟨hne, hfl⟩ | ⟨rfl, hist, hhist, rfl, rfl⟩
    · obtain ⟨hcount, hlast⟩ := he.single hc h u n hfl ha
      rw [List.map_cons, List.count_cons_of_ne (Ne.symm hne)]
      refine ⟨hcount, fun k hk => hlast k ?_⟩
      rcases List.mem_cons.mp hk with heq | hk
      · exact absurd (Prod.mk.inj heq).1 hne
      · exact hk
    · -- the history was not marked, so no request has it
      have hflag : t.flag? h = some (hist.underInference, hist.lastInferredFrameNum) := by
        rw [ObjectHistories.flag?, hhist, Option.map_some]
      have hnone : ∀ k, (h, k) ∉ l := by
        intro k hk
        have hlast := (he.single hc h _ _ hflag ha).2 k hk
        have hmarked := (he.flag h _ _ hflag ha).mpr (hlast ▸ hk)
        exact hunmarked hc _ (hmarked ▸ hflag)
      have hkeys : h ∉ l.map Prod.fst := by
        intro hmem
        obtain ⟨r, hr, heq⟩ := List.mem_map.mp hmem
        exact hnone r.2 (heq ▸ hr)
      rw [List.map_cons, List.count_cons_self, List.count_eq_zero_of_not_mem hkeys, (hf hist).2]
      refine ⟨Nat.le_refl 1, fun k hk => ?_⟩
      rcases List.mem_cons.mp hk with heq | hk
      · exact (Prod.mk.inj heq).2
      · exact absurd hk (hnone k)

/-- The output of a frame has come. -/
theorem attach (he : Exact true t ((h, n) :: l)) (hh : t.alive h) :
    Exact true (t.modify h fun hist => { hist with
      underInference := if hist.lastInferredFrameNum = n then false else hist.underInference }) l := by
  have hlen : ∀ f, (t.modify h f).histories.length = t.histories.length := fun f => by simp [ObjectHistories.modify]
  constructor
  · intro x ha
    rw [hlen]
    exact he.known x ha
  · intro r hr
    rw [hlen]
    exact he.fresh r (List.mem_cons_of_mem _ hr)
  · intro x u m hfl ha
    rcases flag?_modify_cases hfl with ⟨hne, hfl⟩ | ⟨rfl, hist, hhist, rfl, rfl⟩
    · rw [he.flag x u m hfl ha]
      simp [hne]
    · have hflag : t.flag? x = some (hist.underInference, hist.lastInferredFrameNum) := by
        rw [ObjectHistories.flag?, hhist, Option.map_some]
      obtain ⟨hcount, hlast⟩ := he.single rfl x _ _ hflag ha
      obtain rfl := hlast n List.mem_cons_self
      rw [List.map_cons, List.count_cons_self] at hcount
      have hnot : x ∉ l.map Prod.fst := List.count_eq_zero.mp (by omega)
      simpa using fun hmem => hnot (List.mem_map_of_mem (f := Prod.fst) hmem)
  · intro hc x u m hfl ha
    rcases flag?_modify_cases hfl with ⟨hne, hfl⟩ | ⟨rfl, hist, hhist, rfl, rfl⟩
    · obtain ⟨hcount, hlast⟩ := he.single hc x u m hfl ha
      rw [List.map_cons, List.count_cons_of_ne (Ne.symm hne)] at hcount
      exact ⟨hcount, fun k hk => hlast k (List.mem_cons_of_mem _ hk)⟩
    · have hflag : t.flag? x = some (hist.underInference, hist.lastInferredFrameNum) := by
        rw [ObjectHistories.flag?, hhist, Option.map_some]
      obtain ⟨hcount, hlast⟩ := he.single hc x _ _ hflag ha
      rw [List.map_cons, List.count_cons_self] at hcount
      exact ⟨by omega, fun k hk => hlast k (List.mem_cons_of_mem _ hk)⟩

end Exact

/-! ### The steps -/

namespace ObjectMode

variable {R : Type*} {s s' : ObjectMode R} {p p' : Processing R}

structure Inv (s : ObjectMode R) : Prop where
  exact : Exact s.cfg.isClassify s.tracking.sourceInfo (refsOf s.inFlight)
  attaching : s.attaching ≠ [] → s.cfg.isClassify = true

theorem refsOf_perm {l l' : List InferFrame} (h : l.Perm l') : (refsOf l).Perm (refsOf l') := h.filterMap _

theorem refsOf_append (l l' : List InferFrame) : refsOf (l ++ l') = refsOf l ++ refsOf l' := List.filterMap_append

theorem inFlight_of_processing (hp : s.processing = some p) :
    s.inFlight = p.building ++ (s.requests.flatten ++ s.attaching) := by
  simp [inFlight, hp]

theorem inFlight_of_idle (hp : s.processing = none) : s.inFlight = s.requests.flatten ++ s.attaching := by
  simp [inFlight, hp]

theorem underInference_iff {h : ℕ} {history : GstNvInferObjectHistory R} :
    s.UnderInference h history ↔ (h, history.lastInferredFrameNum) ∈ refsOf s.inFlight := mem_refsOf.symm

/-- Frames that are not the last inference of a history can be lost. -/
theorem Inv.drop (h : s.Inv) {d l : List InferFrame} (hp : s.inFlight.Perm (d ++ l)) (hd : ∀ f ∈ d, ¬ s.IsLast f) :
    Exact s.cfg.isClassify s.tracking.sourceInfo (refsOf l) := by
  refine h.exact.drop (d := refsOf d) ?_ fun x n u hmem ha hflag => ?_
  · rw [← refsOf_append]
    exact refsOf_perm hp
  · obtain ⟨f, hf, hhist, rfl⟩ := mem_refsOf.mp hmem
    exact hd f hf ⟨x, hhist, ha, _, hflag, rfl⟩

section Object

variable [CFloat R]

/-- An object that a classifier infers is not under inference. -/
theorem unmarked_of_shouldInfer {cfg : Settings} (hc : cfg.isClassify = true) {o : NvDsObjectMeta R} {n : ℕ}
    {history : GstNvInferObjectHistory R} (h : cfg.shouldInferObject o n (some history) = true) :
    history.underInference = false := by
  unfold Settings.shouldInferObject at h
  split at h
  · cases h
  · split at h
    · cases h
    · split at h
      · cases h
      · simp only [Bool.and_eq_true] at h
        simpa using h.1

omit [CFloat R] in
theorem Inv.addFrame (h : s.Inv) (hp : s.processing = some p) (hb : p'.building = p.building) (o : NvDsObjectMeta R)
    (n : ℕ) {history : Option ℕ} {t : ObjectHistories R} (he : Exact s.cfg.isClassify t (refsOf s.inFlight))
    (hnew : ∀ x ∈ history, t.alive x ∧ (s.cfg.isClassify → ∀ k, t.flag? x ≠ some (true, k))) :
    (s.addFrame p' o n history t).Inv := by
  refine ⟨?_, h.attaching⟩
  have hperm : (s.addFrame p' o n history t).inFlight.Perm (⟨history, n⟩ :: s.inFlight) := by
    rw [inFlight_of_processing hp, inFlight_of_processing (s := s.addFrame p' o n history t) rfl, hb, List.append_assoc]
    exact List.perm_middle
  rcases history with _ | x
  · exact he.perm (refsOf_perm hperm).symm
  · obtain ⟨ha, hunmarked⟩ := hnew x rfl
    have hmark := he.infer (m := n) ha hunmarked (f := markHistory o n) fun hist => ⟨rfl, rfl⟩
    exact hmark.perm (refsOf_perm hperm).symm

theorem Inv.processObject (h : s.Inv) (hp : s.processing = some p) (hb : p'.building = p.building)
    {f : NvDsFrameMeta R} (hsource : (s.tracking.sourceInfo.source? f.padIndex).isSome) (o : NvDsObjectMeta R) :
    (s.processObject p' f o).Inv := by
  have hkeep : ∀ t : ObjectHistories R, Exact s.cfg.isClassify t (refsOf s.inFlight) →
      Inv { s.modifySources fun _ => t with processing := some p' } := by
    intro t ht
    refine ⟨?_, h.attaching⟩
    rw [inFlight_of_processing hp] at ht
    show Exact _ t (refsOf (p'.building ++ (s.requests.flatten ++ s.attaching)))
    rw [hb]
    exact ht
  unfold ObjectMode.processObject
  split
  · exact hkeep _ h.exact
  · split
    · rename_i x hx
      have halive : s.tracking.sourceInfo.alive x := ObjectHistories.alive_of_search hx
      have haccess : ∀ b : Prop, [Decidable b] → Exact s.cfg.isClassify
          (if b then s.tracking.sourceInfo.modify x fun history => { history with lastAccessedFrameNum := f.frameNum }
            else s.tracking.sourceInfo) (refsOf s.inFlight) := by
        intro b _
        split
        · refine h.exact.update ?_ (fun y => ObjectHistories.flag?_access _ x y _) fun y hy => hy
          simp [ObjectHistories.modify]
        · exact h.exact
      have hflag : ∀ (b : Prop) [Decidable b] (y : ℕ),
          (if b then s.tracking.sourceInfo.modify x fun history => { history with lastAccessedFrameNum := f.frameNum }
            else s.tracking.sourceInfo).flag? y = s.tracking.sourceInfo.flag? y := by
        intro b _ y
        split
        · exact ObjectHistories.flag?_access _ x y _
        · rfl
      dsimp only
      split
      · rename_i hshould
        refine h.addFrame hp hb o f.frameNum (haccess _) fun y hy => ?_
        obtain rfl := Option.some.inj hy
        constructor
        · split <;> exact halive
        · intro hc k hk
          rw [hflag] at hk
          obtain ⟨history, hhist, heq⟩ := Option.map_eq_some_iff.mp hk
          rw [hhist] at hshould
          have hno := unmarked_of_shouldInfer hc hshould
          exact absurd (hno.symm.trans (Prod.mk.inj heq).1) (by simp)
      · exact hkeep _ (haccess _)
    · rename_i hx
      split
      · split
        · exact h.addFrame hp hb o f.frameNum h.exact (by simp)
        · have hcreate := h.exact.create hsource o.objectId
          refine h.addFrame hp hb o f.frameNum hcreate fun y hy => ?_
          obtain rfl := Option.some.inj hy
          refine ⟨(ObjectHistories.alive_create hsource o.objectId _).mpr (.inr rfl), fun _ k hk => ?_⟩
          simp [ObjectHistories.flag?] at hk
      · exact hkeep _ h.exact

end Object

theorem Inv.nextFrame (h : s.Inv) (hp : s.processing = some p) (hs : s.nextFrame p = some s') : s'.Inv := by
  unfold ObjectMode.nextFrame at hs
  have hflight := inFlight_of_processing hp
  split at hs
  · split at hs
    · cases hs
    · rename_i f frames hframes
      split at hs
      · obtain rfl := Option.some.inj hs
        refine ⟨?_, h.attaching⟩
        have he := h.exact
        rw [hflight] at he
        exact he
      · obtain rfl := Option.some.inj hs
        refine ⟨?_, h.attaching⟩
        have he := h.exact
        rw [hflight] at he
        refine he.update rfl (fun _ => rfl) fun x hx => ?_
        exact (ObjectHistories.alive_updateSource
          (f := fun si => { si with lastSeenFrameNum := f.frameNum }) (fun _ => rfl) _ _ _).mp hx
  · cases hs

theorem Inv.submit (h : s.Inv) (hp : s.processing = some p) {ok : Bool} (hok : s.Attached (.submit ok))
    (hs : s.submit p ok = some s') : s'.Inv := by
  unfold ObjectMode.submit at hs
  have hflight := inFlight_of_processing hp
  split at hs
  · split at hs
    · obtain rfl := Option.some.inj hs
      refine ⟨h.exact.perm (refsOf_perm ?_), h.attaching⟩
      rw [hflight, inFlight_of_processing rfl, List.flatten_append, List.flatten_singleton, List.nil_append,
        List.append_assoc]
      exact List.perm_append_comm_assoc _ _ _
    · rename_i hfail
      obtain rfl := Option.some.inj hs
      have hd := hok.resolve_left hfail p hp
      exact ⟨h.drop (hflight ▸ List.Perm.refl _) hd, h.attaching⟩
  · cases hs

theorem Inv.inferenceDone (h : s.Inv) {ok found : Bool} (hok : s.Attached (.inferenceDone ok found))
    (hs : s.inferenceDone ok found = some s') : s'.Inv := by
  unfold ObjectMode.inferenceDone at hs
  split at hs
  · rename_i frames requests hattaching hrequests
    have hflight : s.inFlight.Perm (frames ++ ((s.processing.map (·.building)).getD [] ++ requests.flatten)) := by
      unfold inFlight
      rw [hattaching, hrequests, List.append_nil, List.flatten_cons]
      exact List.perm_append_comm_assoc _ _ _
    split at hs
    · rename_i hcond
      obtain rfl := Option.some.inj hs
      refine ⟨h.exact.perm (refsOf_perm (hflight.trans ?_)), fun _ => hcond.2.1⟩
      refine List.perm_append_comm.trans ?_
      rw [List.append_assoc]
      exact List.Perm.refl _
    · rename_i hcond
      obtain rfl := Option.some.inj hs
      have hd := hok.resolve_left hcond frames (by simp [hrequests])
      refine ⟨h.drop (hflight.trans ?_) hd, h.attaching⟩
      unfold inFlight
      rw [hattaching, List.append_nil]
  · cases hs

theorem Inv.attach (h : s.Inv) (hs : s.attach = some s') : s'.Inv := by
  unfold ObjectMode.attach at hs
  split at hs
  · cases hs
  · rename_i f frames hattaching
    have hc : s.cfg.isClassify = true := h.attaching (by simp [hattaching])
    have hflight : s.inFlight.Perm (f :: ((s.processing.map (·.building)).getD [] ++ (s.requests.flatten ++ frames))) := by
      unfold inFlight
      rw [hattaching, ← List.append_assoc]
      refine List.perm_middle.trans ?_
      rw [List.append_assoc]
    have he := h.exact.perm (refsOf_perm hflight)
    obtain rfl := Option.some.inj hs
    split
    · rename_i hhist
      refine ⟨?_, fun _ => hc⟩
      simpa [refsOf, hhist, inFlight] using he
    · rename_i x hhist
      have hrefs : refsOf (f :: ((s.processing.map (·.building)).getD [] ++ (s.requests.flatten ++ frames))) =
          (x, f.frameNum) :: refsOf ((s.processing.map (·.building)).getD [] ++ (s.requests.flatten ++ frames)) := by
        simp [refsOf, hhist]
      rw [hrefs] at he
      split
      · rename_i ha
        refine ⟨?_, fun _ => hc⟩
        rw [hc] at he
        show Exact s.cfg.isClassify _ _
        rw [hc]
        exact he.attach ha
      · rename_i ha
        refine ⟨he.drop (d := [(x, f.frameNum)]) (List.Perm.refl _) fun y n u hmem halive => ?_, fun _ => hc⟩
        obtain ⟨rfl, rfl⟩ := Prod.mk.inj (List.mem_singleton.mp hmem)
        exact absurd halive ha

theorem Inv.noSources (hp : s.processing = none) (hr : s.requests = []) (hattaching : s.attaching = [])
    (hs : s.tracking.sourceInfo.sourceInfo = []) : s.Inv := by
  refine ⟨?_, fun hne => absurd hattaching hne⟩
  rw [inFlight_of_idle hp, hr, hattaching]
  refine Exact.empty fun x hx => ?_
  obtain ⟨e, he, -⟩ := hx
  rw [hs] at he
  cases he

/-- Histories are accessed, and some go. -/
theorem Inv.modifySources (h : s.Inv) {f : ObjectHistories R → ObjectHistories R}
    (hf : (f s.tracking.sourceInfo).histories = s.tracking.sourceInfo.histories)
    (hof : ∀ x, (f s.tracking.sourceInfo).alive x → s.tracking.sourceInfo.alive x) : (s.modifySources f).Inv := by
  refine ⟨h.exact.update (congrArg List.length hf) (fun x => ?_) hof, h.attaching⟩
  show ((f s.tracking.sourceInfo).histories[x]?).map _ = _
  rw [hf]
  rfl

section Run

variable [CFloat R]

theorem Inv.nextObject (h : s.Inv) (hp : s.processing = some p) (hs : s.nextObject p = some s') : s'.Inv := by
  unfold ObjectMode.nextObject at hs
  split at hs
  · cases hs
  · split at hs
    · cases hs
    · rename_i f hf
      split at hs
      · rename_i o os si hobjs hsource
        obtain rfl := Option.some.inj hs
        have hb : { p with current := some { f with objMetaList := os } }.building = p.building := rfl
        exact h.processObject hp hb (Option.isSome_iff_exists.mpr ⟨_, hsource⟩) o
      · cases hs

omit [CFloat R] in
theorem Inv.clearUpHistory (h : s.Inv) (hp : s.processing = some p) (hb : p.building = []) (seqId : ℕ) :
    Inv { s with tracking := s.tracking.clearUpHistory seqId, processing := none } := by
  have he := h.exact
  rw [inFlight_of_processing hp, hb, List.nil_append] at he
  refine ⟨?_, h.attaching⟩
  show Exact _ (s.tracking.clearUpHistory seqId).sourceInfo (refsOf (s.requests.flatten ++ s.attaching))
  unfold ObjTrackingData.clearUpHistory
  split
  · exact he
  · exact he.update rfl (fun _ => rfl) fun _ => ObjectHistories.alive_of_cleanup

theorem Inv.step (h : s.Inv) {a : Action R} (hok : s.Attached a) (hs : s.step a = some s') : s'.Inv := by
  rcases a with sourceId | sourceId | _ | _ | ⟨seqId, frames⟩ | _ | _ | ok | _ | ⟨ok, found⟩ | _
  · simp only [ObjectMode.step] at hs
    split at hs
    · obtain rfl := Option.some.inj hs
      refine h.modifySources ?_ fun x => (ObjectHistories.alive_addSource _ _ _).mp
      unfold ObjectHistories.addSource
      split <;> rfl
    · cases hs
  · simp only [ObjectMode.step] at hs
    split at hs
    · obtain rfl := Option.some.inj hs
      exact h.modifySources rfl fun x => ObjectHistories.alive_of_removeSource
    · cases hs
  · simp only [ObjectMode.step] at hs
    split at hs
    · obtain rfl := Option.some.inj hs
      exact ⟨h.exact, h.attaching⟩
    · cases hs
  · simp only [ObjectMode.step] at hs
    split at hs
    · rename_i hidle
      obtain rfl := Option.some.inj hs
      have hnone : s.processing = none := by simpa using hidle
      exact Inv.noSources hnone rfl rfl rfl
    · cases hs
  · simp only [ObjectMode.step] at hs
    split at hs
    · rename_i hidle
      obtain rfl := Option.some.inj hs
      have hnone : s.processing = none := by simpa using hidle
      refine ⟨?_, h.attaching⟩
      have he := h.exact
      rw [inFlight_of_idle hnone] at he
      exact he
    · cases hs
  · obtain ⟨p, hp, hs⟩ := Option.bind_eq_some_iff.mp hs
    exact h.nextFrame hp hs
  · obtain ⟨p, hp, hs⟩ := Option.bind_eq_some_iff.mp hs
    exact h.nextObject hp hs
  · obtain ⟨p, hp, hs⟩ := Option.bind_eq_some_iff.mp hs
    exact h.submit hp hok hs
  · obtain ⟨p, hp, hs⟩ := Option.bind_eq_some_iff.mp hs
    split at hs
    · rename_i hdone
      obtain rfl := Option.some.inj hs
      exact h.clearUpHistory hp hdone.2 p.seqId
    · cases hs
  · exact h.inferenceDone hok hs
  · exact h.attach hs

omit [CFloat R] in
/-- A history that a clean-up leaves in its source was accessed lately, or is marked. -/
theorem marked_of_cleared {t : ObjTrackingData R} {seqId sourceId : ℕ} {si si' : GstNvInferSourceInfo}
    (hseq : ObjectHistories.mapCleanupInterval ≤ wrapSub 64 seqId t.lastMapCleanupSeqId)
    (hsi : t.sourceInfo.source? sourceId = some si)
    (hdue : ObjectHistories.mapCleanupInterval ≤ wrapSub 64 si.lastSeenFrameNum si.lastCleanupFrameNum)
    (hsi' : (t.clearUpHistory seqId).sourceInfo.source? sourceId = some si') {entry : ℕ × ℕ}
    (hentry : entry ∈ si'.objectHistoryMap) {history : GstNvInferObjectHistory R}
    (hhist : t.sourceInfo.histories[entry.2]? = some history)
    (hlong : ObjectHistories.cleanupAccessCriteria < wrapSub 64 si.lastSeenFrameNum history.lastAccessedFrameNum) :
    history.underInference = true ∧ t.sourceInfo.alive entry.2 := by
  obtain ⟨e, he, rfl⟩ := Option.map_eq_some_iff.mp hsi
  have hclean : t.sourceInfo.cleanup.source? sourceId = some (t.sourceInfo.cleanupSource e.2) := by
    simp only [ObjectHistories.source?, ObjectHistories.cleanup, List.find?_map] at he ⊢
    show ((t.sourceInfo.sourceInfo.find? fun x => x.1 = sourceId).map _).map _ = _
    rw [he]
    rfl
  unfold ObjTrackingData.clearUpHistory at hsi'
  rw [if_neg (by omega)] at hsi'
  obtain rfl := Option.some.inj (hclean.symm.trans hsi')
  unfold ObjectHistories.cleanupSource at hentry
  rw [if_neg (by omega)] at hentry
  obtain ⟨hmem, hstale⟩ := List.mem_filter.mp hentry
  refine ⟨?_, e, List.mem_of_find?_eq_some he, entry, hmem, rfl⟩
  simp [ObjectHistories.stale, hhist, hlong] at hstale
  exact hstale

theorem Inv.historiesExact (h : s.Inv) : s.HistoriesExact := by
  have hmarked : ∀ x history, s.tracking.sourceInfo.alive x → s.tracking.sourceInfo.histories[x]? = some history →
      (history.underInference = true ↔ s.UnderInference x history) := by
    intro x history ha hhist
    rw [underInference_iff]
    exact h.exact.flag x _ _ (by rw [ObjectHistories.flag?, hhist, Option.map_some]) ha
  refine ⟨hmarked, fun seqId sourceId si si' hseq hsi hdue hsi' entry hentry history hhist hlong => ?_,
    fun x history ha hhist hnot o frameNum => ?_⟩
  · obtain ⟨hunder, ha⟩ := marked_of_cleared hseq hsi hdue hsi' hentry hhist hlong
    exact (hmarked _ _ ha hhist).mp hunder
  · have hunder : history.underInference = false := by
      rw [← Bool.not_eq_true, hmarked x history ha hhist]
      exact hnot
    rw [← hunder]

/-- In every run in which each request with the last inference of an object ends in
`attachBatchClassification`, the marks of the histories are exact. -/
theorem historiesExact_run {s : ObjectMode R} (h : Reach step Attached Started s) : s.HistoriesExact := by
  have hinv : s.Inv := by
    refine h.invariant (fun t ht => ?_) fun _ _ _ hI hok hs => hI.step hok hs
    obtain ⟨cfg, rfl⟩ := ht
    exact Inv.noSources rfl rfl rfl rfl
  exact hinv.historiesExact

end Run

/-! ### Runs -/

instance (s : ObjectMode R) (f : InferFrame) : Decidable (s.IsLast f) := inferInstanceAs (Decidable (∃ _ ∈ f.history, _ ∧ _))

instance (s : ObjectMode R) (a : Action R) : Decidable (s.Attached a) :=
  match a with
  | .submit ok => inferInstanceAs (Decidable (ok ∨ ∀ p ∈ s.processing, ∀ f ∈ p.building, ¬ s.IsLast f))
  | .inferenceDone ok found =>
    inferInstanceAs (Decidable ((ok ∧ s.cfg.isClassify ∧ found) ∨ ∀ frames ∈ s.requests.head?, ∀ f ∈ frames, ¬ s.IsLast f))
  | .addTrackingSource _ | .eraseTrackingSource _ | .updateInterval | .stop | .processObjects _ _ | .nextFrame
  | .nextObject | .clearUpHistory | .attach => inferInstanceAs (Decidable True)

/-- A frame of source 0 with cars. -/
def carFrame (frameNum : ℕ) (ids : List ℕ) : NvDsFrameMeta ℚ :=
  ⟨0, frameNum, ids.map fun id => ⟨id, 1, 0, 40, 30⟩⟩

/-- A classifier of cars. -/
def carMakes : ObjectMode ℚ := { cfg := { postprocess := some .classification, maxBatchSize := 4 }, tracking := ⟨⟨[], []⟩, 0⟩ }

/-- Two cars are inferred; the output of the first has come. -/
def firstCarAttached : List (Action ℚ) :=
  [.addTrackingSource 0, .processObjects 1 [carFrame 5 [7, 8]], .nextFrame, .nextObject, .nextObject, .submit true,
   .clearUpHistory, .inferenceDone true true, .attach]

theorem historiesExact_run_carMakes : ∃ s : ObjectMode ℚ, Reach step Attached Started s ∧
    (s.tracking.sourceInfo.flag? 0, s.tracking.sourceInfo.flag? 1) = (some (false, 5), some (true, 5)) ∧
    s.inFlight = [⟨some 1, 5⟩] ∧ s.HistoriesExact := by
  have hinit : Started carMakes := ⟨_, rfl⟩
  have hreach : Reach step Attached Started _ := Reach.get_exec (l := firstCarAttached) hinit (by decide +kernel)
  exact ⟨_, hreach, by decide +kernel, by decide +kernel, historiesExact_run hreach⟩

/-- The context refuses the request of a car. -/
def carRefused : List (Action ℚ) :=
  [.addTrackingSource 0, .processObjects 1 [carFrame 5 [7]], .nextFrame, .nextObject, .submit false]

theorem markLeft : ∃ s : ObjectMode ℚ, Reach step anyStep Started s ∧ s.tracking.sourceInfo.flag? 0 = some (true, 5) ∧
    s.inFlight = [] ∧ ¬ s.HistoriesExact := by
  have hinit : Started carMakes := ⟨_, rfl⟩
  have hreach : Reach step anyStep Started _ := Reach.get_exec (l := carRefused) hinit (by decide +kernel)
  refine ⟨_, hreach, by decide +kernel, by decide +kernel, fun h => ?_⟩
  obtain ⟨f, hf, -⟩ := (h.marked 0 _ (by decide +kernel) rfl).mp rfl
  cases hf

end ObjectMode
end InferServer
end DeepStream
