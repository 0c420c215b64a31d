/-
# Objects and their histories in gst-nvinfer

What the element reads of a buffer, when it infers on an object, and the maps of
object histories it keeps for each source. A history is named by its number in
the order of creation and lives as long as a map holds it: the frames of a batch
only have weak references. Frame numbers are 64-bit words.
-/
import DeepStream.Infer.Outputs
import DeepStream.Lib.Word

namespace DeepStream
namespace NvInfer

open Infer (CFloat)

/-! ### Buffers -/

structure NvDsObjectMeta (R : Type*) where
  objectId : ℕ
  uniqueComponentId : ℤ
  classId : ℕ
  width : R
  height : R

structure NvDsFrameMeta (R : Type*) where
  padIndex : ℕ
  frameNum : ℕ
  objMetaList : List (NvDsObjectMeta R)

/-- A batched buffer: its frames. -/
abbrev GstBuffer (R : Type*) := List (NvDsFrameMeta R)

def untrackedObjectId : ℕ := 2 ^ 64 - 1

/-- A frame of a buffer, or an object of the frame, by their positions. -/
structure Item where
  buffer : ℕ
  frame : ℕ
  object : Option ℕ
  deriving DecidableEq, Repr

/-! ### Settings -/

inductive NvDsInferNetworkType where
  | detector | classifier | segmentation | instanceSegmentation | other
  deriving DecidableEq, Repr

/-- The settings that stay; asynchronous mode is turned off at the start where it
does not apply. -/
structure Settings where
  maxBatchSize : ℕ
  networkType : NvDsInferNetworkType
  inputTensorFromMeta : Bool
  processFullFrame : Bool
  classifierAsyncMode : Bool
  operateOnGieId : ℤ
  minInputObjectWidth : ℕ
  minInputObjectHeight : ℕ
  maxInputObjectWidth : ℕ
  maxInputObjectHeight : ℕ
  operateOnClassIds : List Bool
  secondaryReinferInterval : ℕ
  maxBatchSize_pos : 0 < maxBatchSize := by decide
  async_classifier : classifierAsyncMode → processFullFrame = false ∧ networkType = .classifier := by decide

def defaultReinferInterval : ℕ := 2 ^ 31 - 1

/-! ### Histories -/

structure GstNvInferObjectInfo where
  attributes : List String
  label : String
  deriving DecidableEq, Repr, Inhabited

structure GstNvInferObjectHistory (R : Type*) where
  underInference : Bool
  lastInferredCoords : R × R
  lastInferredFrameNum : ℕ
  lastAccessedFrameNum : ℕ
  cachedInfo : GstNvInferObjectInfo

structure GstNvInferSourceInfo where
  objectHistoryMap : List (ℕ × ℕ)
  lastCleanupFrameNum : ℕ
  lastSeenFrameNum : ℕ
  deriving DecidableEq, Repr

def GstNvInferSourceInfo.new : GstNvInferSourceInfo := ⟨[], 0, 0⟩

/-- `source_info` and all histories that were ever created. -/
structure ObjectHistories (R : Type*) where
  sourceInfo : List (ℕ × GstNvInferSourceInfo)
  histories : List (GstNvInferObjectHistory R)

variable {R : Type*}

section Decision

variable [CFloat R] (cfg : Settings)

/-- An object with a history is inferred again when it has grown, or when its
last inference is long ago. -/
def shouldReinfer (obj : NvDsObjectMeta R) (frameNum : ℕ) (history : GstNvInferObjectHistory R) : Bool :=
  match cfg.networkType with
  | .classifier =>
    history.lastInferredCoords.1 * history.lastInferredCoords.2 * ((1 : ℕ) + (0.2 : R)) < obj.width * obj.height ||
      wrapSub 64 frameNum history.lastInferredFrameNum > cfg.secondaryReinferInterval
  | .detector =>
    wrapSub 64 frameNum history.lastInferredFrameNum > cfg.secondaryReinferInterval ||
      cfg.secondaryReinferInterval = defaultReinferInterval
  | _ => true

def shouldInferObject (obj : NvDsObjectMeta R) (frameNum : ℕ) (history : Option (GstNvInferObjectHistory R)) :
    Bool :=
  if -1 < cfg.operateOnGieId ∧ obj.uniqueComponentId ≠ cfg.operateOnGieId then false
  else if obj.width < (cfg.minInputObjectWidth : R) then false
  else if obj.height < (cfg.minInputObjectHeight : R) then false
  else if 0 < cfg.maxInputObjectWidth ∧ (cfg.maxInputObjectWidth : R) < obj.width then false
  else if 0 < cfg.maxInputObjectHeight ∧ (cfg.maxInputObjectHeight : R) < obj.height then false
  else if cfg.operateOnClassIds ≠ [] ∧ cfg.operateOnClassIds.getD obj.classId false = false then false
  else history.all (shouldReinfer cfg obj frameNum)

end Decision

namespace ObjectHistories

variable (t : ObjectHistories R)

def source? (pad : ℕ) : Option GstNvInferSourceInfo := (t.sourceInfo.find? (·.1 = pad)).map (·.2)

def updateSource (pad : ℕ) (f : GstNvInferSourceInfo → GstNvInferSourceInfo) : ObjectHistories R :=
  { t with sourceInfo := t.sourceInfo.map fun e => if e.1 = pad then (e.1, f e.2) else e }

/-- `GST_NVEVENT_PAD_ADDED`: a source that is known stays as it is. -/
def addSource (pad : ℕ) : ObjectHistories R :=
  if (t.source? pad).isSome then t else { t with sourceInfo := t.sourceInfo ++ [(pad, .new)] }

/-- `GST_NVEVENT_PAD_DELETED` -/
def removeSource (pad : ℕ) : ObjectHistories R :=
  { t with sourceInfo := t.sourceInfo.filter (·.1 ≠ pad) }

/-- `GST_NVEVENT_STREAM_EOS` -/
def clearSource (pad : ℕ) : ObjectHistories R := t.updateSource pad fun si => { si with objectHistoryMap := [] }

/-- What a model update does. -/
def clearAll : ObjectHistories R :=
  { t with sourceInfo := t.sourceInfo.map fun e => (e.1, { e.2 with objectHistoryMap := [] }) }

def modify (h : ℕ) (f : GstNvInferObjectHistory R → GstNvInferObjectHistory R) : ObjectHistories R :=
  { t with histories := t.histories.modify h f }

/-- A weak reference to the history can be locked. -/
def alive (h : ℕ) : Prop := ∃ e ∈ t.sourceInfo, ∃ entry ∈ e.2.objectHistoryMap, entry.2 = h

instance (h : ℕ) : Decidable (t.alive h) := inferInstanceAs (Decidable (∃ _, _ ∧ _))

/-- The history of a tracked object, when it has one. -/
def search (si : GstNvInferSourceInfo) (objectId : ℕ) : Option ℕ :=
  if objectId = untrackedObjectId then none else (si.objectHistoryMap.find? (·.1 = objectId)).map (·.2)

/-- The new history of a tracked object, with its name. -/
def create [CFloat R] (pad objectId : ℕ) : ℕ × ObjectHistories R :=
  let h := t.histories.length
  (h, { t.updateSource pad fun si => { si with objectHistoryMap := si.objectHistoryMap ++ [(objectId, h)] } with
    histories := t.histories ++ [⟨false, (0, 0), 0, 0, default⟩] })

def mapCleanupInterval : ℕ := 1800
def cleanupAccessCriteria : ℕ := 150

/-- The entry is dropped by the cleanup of its source. -/
def stale (si : GstNvInferSourceInfo) (h : ℕ) : Bool :=
  match t.histories[h]? with
  | none => false
  | some history => !history.underInference &&
      wrapSub 64 si.lastSeenFrameNum history.lastAccessedFrameNum > cleanupAccessCriteria

def cleanupSource (si : GstNvInferSourceInfo) : GstNvInferSourceInfo :=
  if wrapSub 64 si.lastSeenFrameNum si.lastCleanupFrameNum < mapCleanupInterval then si
  else { si with
    lastCleanupFrameNum := si.lastSeenFrameNum
    objectHistoryMap := si.objectHistoryMap.filter fun entry => !t.stale si entry.2 }

/-- `cleanup_history_map` -/
def cleanup : ObjectHistories R :=
  { t with sourceInfo := t.sourceInfo.map fun e => (e.1, t.cleanupSource e.2) }

/-! ### What changes a map -/

variable {t}

/-- Whether the history is marked, and the frame of its last inference. -/
def flag? (t : ObjectHistories R) (h : ℕ) : Option (Bool × ℕ) :=
  (t.histories[h]?).map fun hist => (hist.underInference, hist.lastInferredFrameNum)

theorem alive_updateSource {f : GstNvInferSourceInfo → GstNvInferSourceInfo}
    (hf : ∀ si, (f si).objectHistoryMap = si.objectHistoryMap) (t : ObjectHistories R) (pad h : ℕ) :
    (t.updateSource pad f).alive h ↔ t.alive h := by
  simp only [alive, updateSource, List.mem_map]
  constructor
  · rintro ⟨_, ⟨e, he, rfl⟩, entry, hentry, hh⟩
    refine ⟨e, he, entry, ?_, hh⟩
    split at hentry
    · rwa [hf] at hentry
    · exact hentry
  · rintro ⟨e, he, entry, hentry, hh⟩
    refine ⟨_, ⟨e, he, rfl⟩, entry, ?_, hh⟩
    split
    · rwa [hf]
    · exact hentry

theorem alive_addSource (t : ObjectHistories R) (pad h : ℕ) : (t.addSource pad).alive h ↔ t.alive h := by
  unfold addSource
  split
  · rfl
  · simp [alive, GstNvInferSourceInfo.new, or_and_right, exists_or]

theorem alive_of_search {pad objectId h : ℕ}
    (hh : (t.source? pad).bind (fun si => search si objectId) = some h) : t.alive h := by
  obtain ⟨si, hsi, hh⟩ := Option.bind_eq_some_iff.mp hh
  obtain ⟨e, he, rfl⟩ := Option.map_eq_some_iff.mp hsi
  unfold search at hh
  split at hh
  · cases hh
  · obtain ⟨entry, hentry, rfl⟩ := Option.map_eq_some_iff.mp hh
    exact ⟨e, List.mem_of_find?_eq_some he, entry, List.mem_of_find?_eq_some hentry, rfl⟩

/-- A new history is there, and no other one comes or goes. -/
theorem alive_create [CFloat R] {pad : ℕ} (hs : (t.source? pad).isSome = true) (objectId h : ℕ) :
    (t.create pad objectId).2.alive h ↔ t.alive h ∨ h = t.histories.length := by
  obtain ⟨si, hsi⟩ := Option.isSome_iff_exists.mp hs
  obtain ⟨e, he, rfl⟩ := Option.map_eq_some_iff.mp hsi
  have hmem := List.mem_of_find?_eq_some he
  have hkey : e.1 = pad := by simpa using List.find?_some he
  simp only [create, alive, updateSource, List.mem_map]
  constructor
  · rintro ⟨_, ⟨e', he', rfl⟩, entry, hentry, hh⟩
    split at hentry
    · obtain hentry | hentry := List.mem_append.mp hentry
      · exact .inl ⟨e', he', entry, hentry, hh⟩
      · obtain rfl := List.mem_singleton.mp hentry
        exact .inr hh.symm
    · exact .inl ⟨e', he', entry, hentry, hh⟩
  · rintro (⟨e', he', entry, hentry, hh⟩ | rfl)
    · refine ⟨_, ⟨e', he', rfl⟩, entry, ?_, hh⟩
      split
      · exact List.mem_append_left _ hentry
      · exact hentry
    · refine ⟨_, ⟨e, hmem, rfl⟩, (objectId, t.histories.length), ?_, rfl⟩
      rw [if_pos hkey]
      simp

theorem alive_of_clearAll {h : ℕ} (hh : t.clearAll.alive h) : t.alive h := by
  simp [clearAll, alive] at hh

theorem alive_of_removeSource {pad h : ℕ} (hh : (t.removeSource pad).alive h) : t.alive h := by
  obtain ⟨e, he, hentry⟩ := hh
  exact ⟨e, (List.mem_filter.mp he).1, hentry⟩

theorem alive_of_clearSource {pad h : ℕ} (hh : (t.clearSource pad).alive h) : t.alive h := by
  obtain ⟨_, hmem, entry, hentry, hh⟩ := hh
  obtain ⟨e, he, rfl⟩ := List.mem_map.mp hmem
  split at hentry
  · cases hentry
  · exact ⟨e, he, entry, hentry, hh⟩

/-- The history is in a map of the source. -/
def ofSource (t : ObjectHistories R) (pad h : ℕ) : Prop :=
  ∃ e ∈ t.sourceInfo, e.1 = pad ∧ ∃ entry ∈ e.2.objectHistoryMap, entry.2 = h

instance instDecidableOfSource (pad h : ℕ) : Decidable (t.ofSource pad h) :=
  inferInstanceAs (Decidable (∃ _, _ ∧ _))

/-- Histories of other sources stay. -/
theorem alive_removeSource {pad h : ℕ} (ha : t.alive h) (hn : ¬ t.ofSource pad h) : (t.removeSource pad).alive h := by
  obtain ⟨e, he, entry, hentry, hh⟩ := ha
  have hkey : e.1 ≠ pad := fun hkey => hn ⟨e, he, hkey, entry, hentry, hh⟩
  exact ⟨e, List.mem_filter.mpr ⟨he, by simpa using hkey⟩, entry, hentry, hh⟩

theorem alive_clearSource {pad h : ℕ} (ha : t.alive h) (hn : ¬ t.ofSource pad h) : (t.clearSource pad).alive h := by
  obtain ⟨e, he, entry, hentry, hh⟩ := ha
  have hkey : e.1 ≠ pad := fun hkey => hn ⟨e, he, hkey, entry, hentry, hh⟩
  exact ⟨_, List.mem_map.mpr ⟨e, he, rfl⟩, entry, by rwa [if_neg hkey], hh⟩

theorem alive_of_cleanup {h : ℕ} (hh : t.cleanup.alive h) : t.alive h := by
  obtain ⟨_, hmem, entry, hentry, hh⟩ := hh
  obtain ⟨e, he, rfl⟩ := List.mem_map.mp hmem
  refine ⟨e, he, entry, ?_, hh⟩
  simp only [cleanupSource] at hentry
  split at hentry
  · exact hentry
  · exact (List.mem_filter.mp hentry).1

/-- Marked histories are not cleaned up. -/
theorem alive_cleanup {h n : ℕ} (ha : t.alive h) (hf : t.flag? h = some (true, n)) : t.cleanup.alive h := by
  obtain ⟨e, he, entry, hentry, rfl⟩ := ha
  refine ⟨_, List.mem_map.mpr ⟨e, he, rfl⟩, entry, ?_, rfl⟩
  simp only [cleanupSource]
  split
  · exact hentry
  · obtain ⟨hist, hhist, hflag⟩ := Option.map_eq_some_iff.mp hf
    have hunder : hist.underInference = true := (Prod.mk.inj hflag).1
    exact List.mem_filter.mpr ⟨hentry, by simp [stale, hhist, hunder]⟩

theorem flag?_modify (t : ObjectHistories R) (h h' : ℕ)
    (f : GstNvInferObjectHistory R → GstNvInferObjectHistory R) :
    (t.modify h f).flag? h' = (t.histories[h']?).map fun hist =>
      let hist := if h = h' then f hist else hist
      (hist.underInference, hist.lastInferredFrameNum) := by
  simp only [flag?, modify, List.getElem?_modify]
  rcases t.histories[h']? with _ | hist
  · rfl
  · rfl

/-- Accessing a history neither marks nor dates it. -/
theorem flag?_access (t : ObjectHistories R) (h h' frameNum : ℕ) :
    (t.modify h fun hist => { hist with lastAccessedFrameNum := frameNum }).flag? h' = t.flag? h' := by
  rw [flag?_modify, flag?]
  congr 1
  funext hist
  split <;> rfl

end ObjectHistories
end NvInfer
end DeepStream
