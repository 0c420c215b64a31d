/-
# Object ids after the mapping

`objectIdMapping` keeps the upper half of a tracking id and moves the lower half down
by that of the first id of the stream. As long as the stream keeps its offset this is
one injective function, so an object has one id and no two objects have the same; a
stream that has no offset yet starts with 0. Nothing in a run but the removal of the
offset changes it.
-/
import DeepStream.Lib.Word
import DeepStream.Tracker.Removal

namespace DeepStream
namespace Tracker

open Std StreamMaps

/-- `TrackingIdResetMode`, by its two bits. -/
structure TrackingIdResetMode where
  newIdAfterStreamReset : Bool
  fromZeroAfterEOS : Bool
  deriving DecidableEq, Repr

/-- What `objectIdMapping` returns where `offset` is the stream's. -/
def mappedId (mode : TrackingIdResetMode) (offset objectId : UInt64) : UInt64 :=
  if mode.fromZeroAfterEOS then (objectId &&& 0xffffffff00000000) + (objectId - offset).toUInt32.toUInt64
  else objectId

/-- What is done with the maps, with the 64 bits of a tracking id. -/
inductive IdOp where
  | dispatchFrame (frame : NvDsFrameMeta)
  | fillMOTFrame (frame : NvDsFrameMeta)
  | objectIdMapping (objectId : UInt64) (ssId : SurfaceStreamId)
  | removeSource (sourceId : StreamId) (removeObjectIdMapping : Bool)

def IdOp.toOp : IdOp → StreamOp
  | .dispatchFrame frame => .dispatchFrame frame
  | .fillMOTFrame frame => .fillMOTFrame frame
  | .objectIdMapping objectId ssId => .objectIdMapping objectId.toNat ssId
  | .removeSource sourceId flag => .removeSource sourceId flag

variable (cfg : TrackerConfig) (mode : TrackingIdResetMode) (ssId : SurfaceStreamId)

/-- The offset that a call reads, after it has entered it. -/
def offsetOf (m : StreamMaps) : UInt64 := UInt64.ofNat (m.objectIdOffsetMap.getD ssId 0)

/-- What a step returns for the stream, with the tracking id. -/
def returned (m : StreamMaps) : IdOp → Option (UInt64 × UInt64)
  | .objectIdMapping objectId s => if s = ssId then some (objectId, mappedId mode (offsetOf s m) objectId) else none
  | _ => none

/-- The tracking ids of the stream in a run, each with the object id returned for it. -/
def mappedIds : StreamMaps → List IdOp → List (UInt64 × UInt64)
  | _, [] => []
  | m, op :: ops =>
    let m' := m.apply cfg op.toOp
    (returned mode ssId m' op).toList ++ mappedIds m' ops

/-- No step of the run removes the offset of the stream. -/
def KeepsOffset : StreamMaps → List IdOp → Prop
  | _, [] => True
  | m, op :: ops =>
    let m' := m.apply cfg op.toOp
    (ssId ∈ m.objectIdOffsetMap → ssId ∈ m'.objectIdOffsetMap) ∧ KeepsOffset m' ops

instance decidableKeepsOffset : ∀ (m : StreamMaps) (ops : List IdOp), Decidable (KeepsOffset cfg ssId m ops)
  | _, [] => inferInstanceAs (Decidable True)
  | m, op :: ops =>
    have := decidableKeepsOffset (m.apply cfg op.toOp) ops
    inferInstanceAs (Decidable (_ ∧ _))

/-! ### The function -/

section Words

variable (offset x y : UInt64)

theorem toNat_mappedId (hmode : mode.fromZeroAfterEOS = true) :
    (mappedId mode offset x).toNat = x.toNat / 2 ^ 32 * 2 ^ 32 + (2 ^ 64 - offset.toNat + x.toNat) % 2 ^ 32 := by
  have hx := x.toNat_lt
  have hlow := Nat.mod_lt (2 ^ 64 - offset.toNat + x.toNat) (show 0 < 2 ^ 32 by decide)
  rw [mappedId, if_pos hmode, UInt64.toNat_add, UInt64.toNat_and, UInt32.toNat_toUInt64, UInt64.toNat_toUInt32,
    UInt64.toNat_sub, show (0xffffffff00000000 : UInt64).toNat = 0xffffffff00000000 by decide, and_high32 hx,
    Nat.mod_mod_of_dvd _ (by decide : 2 ^ 32 ∣ 2 ^ 64)]
  exact Nat.mod_eq_of_lt (by omega)

theorem mappedId_high : mappedId mode offset x >>> 32 = x >>> 32 := by
  by_cases hmode : mode.fromZeroAfterEOS = true
  · have hlow := Nat.mod_lt (2 ^ 64 - offset.toNat + x.toNat) (show 0 < 2 ^ 32 by decide)
    refine UInt64.toNat_inj.mp ?_
    rw [UInt64.toNat_shiftRight, UInt64.toNat_shiftRight, toNat_mappedId mode offset x hmode,
      show (32 : UInt64).toNat % 64 = 32 by decide, Nat.shiftRight_eq_div_pow, Nat.shiftRight_eq_div_pow]
    omega
  · rw [mappedId, if_neg hmode]

variable {offset x y}

theorem mappedId_inj (h : mappedId mode offset x = mappedId mode offset y) : x = y := by
  by_cases hmode : mode.fromZeroAfterEOS = true
  · have hnat := congrArg UInt64.toNat h
    have ho := offset.toNat_lt
    rw [toNat_mappedId mode offset x hmode, toNat_mappedId mode offset y hmode] at hnat
    exact UInt64.toNat_inj.mp (by omega)
  · rwa [mappedId, if_neg hmode, mappedId, if_neg hmode] at h

/-- The first id of a stream is its offset. -/
theorem mappedId_self (hmode : mode.fromZeroAfterEOS = true) : (mappedId mode x x).toNat % 2 ^ 32 = 0 := by
  have hx := x.toNat_lt
  rw [toNat_mappedId mode x x hmode]
  omega

end Words

/-! ### The offset in a run -/

variable {cfg mode ssId}

theorem removeStream_offsets (m : StreamMaps) (s : SurfaceStreamId) :
    (m.removeStream cfg s).1.objectIdOffsetMap = m.objectIdOffsetMap := by
  unfold removeStream
  cases m.ssidSubBatchMap[s]? with
  | none => rfl
  | some sbId =>
    simp only [releaseSlot]
    split
    · rfl
    · split
      · rfl
      · split <;> rfl

theorem removeStreams_offsets : ∀ (l : List SurfaceStreamId) (m : StreamMaps),
    (removeStreams cfg m l).maps.objectIdOffsetMap = m.objectIdOffsetMap
  | [], _ => rfl
  | s :: l, m => by
    have hone := @removeStream_offsets cfg m s
    unfold removeStreams
    generalize m.removeStream cfg s = r at hone
    obtain ⟨m', sbId⟩ := r
    cases sbId with
    | none => exact hone
    | some sbId => exact (removeStreams_offsets l m').trans hone

theorem mapDynamic_offsets (s : SurfaceStreamId) (padIndex : ℕ) : ∀ (vs : List (ℕ × SubBatchId)) (m : StreamMaps),
    (mapDynamic cfg s padIndex vs m).1.objectIdOffsetMap = m.objectIdOffsetMap
  | [], _ => rfl
  | (size, sbId) :: vs, m => by
    simp only [mapDynamic]
    split
    · split <;> rfl
    · exact mapDynamic_offsets s padIndex vs _

/-- What a step does to the offset of a stream: it leaves it, removes it, or enters the
first tracking id of the stream. -/
theorem offset_apply (m : StreamMaps) (op : IdOp) :
    (m.apply cfg op.toOp).objectIdOffsetMap[ssId]? = m.objectIdOffsetMap[ssId]? ∨
      (m.apply cfg op.toOp).objectIdOffsetMap[ssId]? = none ∨
      ∃ objectId, op = .objectIdMapping objectId ssId ∧ ssId ∉ m.objectIdOffsetMap ∧
        (m.apply cfg op.toOp).objectIdOffsetMap[ssId]? = some objectId.toNat := by
  cases op with
  | dispatchFrame frame =>
    left
    simp only [IdOp.toOp, StreamMaps.apply, mapFrame]
    split
    · rfl
    · unfold mapStreamToSubBatch
      split
      · rw [mapDynamic_offsets]
      · split <;> rfl
  | fillMOTFrame frame => exact .inl rfl
  | objectIdMapping objectId s =>
    simp only [IdOp.toOp, StreamMaps.apply, StreamMaps.objectIdMapping, Table.touch_getElem?]
    by_cases hnew : ssId = s ∧ s ∉ m.objectIdOffsetMap
    · obtain ⟨rfl, hnew⟩ := hnew
      exact .inr (.inr ⟨objectId, rfl, hnew, if_pos ⟨rfl, hnew⟩⟩)
    · exact .inl (if_neg hnew)
  | removeSource sourceId flag =>
    simp only [IdOp.toOp, StreamMaps.apply, removeSource]
    have hmaps : (if cfg.subBatchSizes.length = 0 then (⟨m, [], true⟩ : Removal)
        else removeStreams cfg m (m.offsetStreams sourceId)).maps.objectIdOffsetMap = m.objectIdOffsetMap := by
      split
      · rfl
      · exact removeStreams_offsets _ m
    generalize (if cfg.subBatchSizes.length = 0 then (⟨m, [], true⟩ : Removal)
      else removeStreams cfg m (m.offsetStreams sourceId)) = r at hmaps
    split
    · by_cases hs : getStreamId ssId = sourceId
      · refine .inr (.inl ?_)
        rw [TreeMap.getElem?_eq_none]
        exact fun hmem => (mem_eraseOffsets.mp hmem).2 hs
      · exact .inl ((getElem?_eraseOffsets hs).trans (by rw [hmaps]))
    · rw [hmaps]
      exact .inl rfl

/-- A call of the stream finds an offset or enters its id as one. -/
theorem mem_apply_objectIdMapping (m : StreamMaps) (objectId : UInt64) :
    ssId ∈ (m.apply cfg (IdOp.objectIdMapping objectId ssId).toOp).objectIdOffsetMap := by
  simp only [IdOp.toOp, StreamMaps.apply, StreamMaps.objectIdMapping, Table.touch]
  split
  · assumption
  · exact TreeMap.mem_insert_self

theorem offsetOf_congr {m m' : StreamMaps} (h : m'.objectIdOffsetMap[ssId]? = m.objectIdOffsetMap[ssId]?) :
    offsetOf ssId m' = offsetOf ssId m := by
  rw [offsetOf, offsetOf, TreeMap.getD_eq_getD_getElem?, TreeMap.getD_eq_getD_getElem?, h]

theorem offsetOf_entered {m : StreamMaps} {objectId : UInt64}
    (h : m.objectIdOffsetMap[ssId]? = some objectId.toNat) : offsetOf ssId m = objectId := by
  rw [offsetOf, TreeMap.getD_eq_getD_getElem?, h]
  exact UInt64.ofNat_toNat

/-! ### The ids of a run -/

theorem returned_eq {m : StreamMaps} {op : IdOp} {p : UInt64 × UInt64} (h : p ∈ returned mode ssId m op) :
    op = .objectIdMapping p.1 ssId ∧ p.2 = mappedId mode (offsetOf ssId m) p.1 := by
  cases op with
  | objectIdMapping objectId s =>
    rw [returned] at h
    split at h
    · rename_i hs
      cases h
      exact ⟨by rw [hs], by rw [hs]⟩
    · cases h
  | dispatchFrame _ | fillMOTFrame _ | removeSource _ _ => cases h

/-- While a stream keeps its offset all of its ids are mapped with it. -/
theorem mappedIds_of_mem : ∀ {ops : List IdOp} {m : StreamMaps}, ssId ∈ m.objectIdOffsetMap →
    KeepsOffset cfg ssId m ops → ∀ p ∈ mappedIds cfg mode ssId m ops, p.2 = mappedId mode (offsetOf ssId m) p.1
  | [], _, _, _, p, hp => by cases hp
  | op :: ops, m, hmem, hkeep, p, hp => by
    have hmem' := hkeep.1 hmem
    have hsame : offsetOf ssId (m.apply cfg op.toOp) = offsetOf ssId m := by
      rcases @offset_apply cfg ssId m op with h | h | ⟨_, _, hnew, _⟩
      · exact offsetOf_congr h
      · rw [TreeMap.mem_iff_isSome_getElem?, h] at hmem'
        cases hmem'
      · exact absurd hmem hnew
    rw [mappedIds, List.mem_append, Option.mem_toList] at hp
    rw [← hsame]
    rcases hp with hp | hp
    · exact (returned_eq hp).2
    · exact mappedIds_of_mem hmem' hkeep.2 p hp

/-- A stream that starts without an offset takes its first id as the offset. -/
theorem mappedIds_of_notMem : ∀ {ops : List IdOp} {m : StreamMaps}, ssId ∉ m.objectIdOffsetMap →
    KeepsOffset cfg ssId m ops → ∀ first ∈ (mappedIds cfg mode ssId m ops).head?,
      ∀ p ∈ mappedIds cfg mode ssId m ops, p.2 = mappedId mode first.1 p.1
  | [], _, _, _, first, hfirst, _, _ => by cases hfirst
  | op :: ops, m, hnew, hkeep, first, hfirst, p, hp => by
    by_cases hmem' : ssId ∈ (m.apply cfg op.toOp).objectIdOffsetMap
    · -- only a call of the stream enters an offset, so this is the first one
      obtain ⟨objectId, rfl, hentered⟩ : ∃ objectId, op = .objectIdMapping objectId ssId ∧
          (m.apply cfg op.toOp).objectIdOffsetMap[ssId]? = some objectId.toNat := by
        rw [TreeMap.mem_iff_isSome_getElem?] at hmem' hnew
        rcases @offset_apply cfg ssId m op with h | h | ⟨objectId, hop, _, h⟩
        · exact absurd (h ▸ hmem') hnew
        · rw [h] at hmem'
          cases hmem'
        · exact ⟨objectId, hop, h⟩
      have hall := @mappedIds_of_mem cfg mode ssId _ _ hmem' hkeep.2
      rw [offsetOf_entered hentered] at hall
      simp only [mappedIds, returned, if_true, offsetOf_entered hentered, Option.toList_some, List.singleton_append,
        List.head?_cons, Option.mem_def, Option.some.injEq, List.mem_cons] at hfirst hp
      subst hfirst
      rcases hp with rfl | hp
      · rfl
      · exact hall p hp
    · have hnone : returned mode ssId (m.apply cfg op.toOp) op = none := by
        refine Option.eq_none_iff_forall_not_mem.mpr fun q hq => hmem' ?_
        rw [(returned_eq hq).1]
        exact mem_apply_objectIdMapping m q.1
      rw [mappedIds, hnone, Option.toList_none, List.nil_append] at hfirst hp
      exact mappedIds_of_notMem hmem' hkeep.2 first hfirst p hp

/-- **Object ids stay unique.** In a run that starts without an offset of the stream and
removes none, equal tracking ids and no others get equal object ids, the upper halves
stay, and ids that are to start from zero do so. -/
theorem mappedIds_unique {m : StreamMaps} {ops : List IdOp} (hnew : ssId ∉ m.objectIdOffsetMap)
    (hkeep : KeepsOffset cfg ssId m ops) :
    let ids := mappedIds cfg mode ssId m ops
    (∀ p ∈ ids, ∀ q ∈ ids, p.2 = q.2 ↔ p.1 = q.1) ∧ (∀ p ∈ ids, p.2 >>> 32 = p.1 >>> 32) ∧
      (mode.fromZeroAfterEOS = true → ∀ first ∈ ids.head?, first.2.toNat % 2 ^ 32 = 0) := by
  intro ids
  have hall : ∀ first ∈ ids.head?, ∀ p ∈ ids, p.2 = mappedId mode first.1 p.1 := mappedIds_of_notMem hnew hkeep
  have hfirst : ∀ p ∈ ids, ∃ first, first ∈ ids.head? := fun p hp =>
    Option.isSome_iff_exists.mp (List.isSome_head?.mpr (List.ne_nil_of_mem hp))
  refine ⟨fun p hp q hq => ?_, fun p hp => ?_, fun hmode first hf => ?_⟩
  · obtain ⟨first, hf⟩ := hfirst p hp
    rw [hall first hf p hp, hall first hf q hq]
    exact ⟨mappedId_inj mode, fun h => by rw [h]⟩
  · obtain ⟨first, hf⟩ := hfirst p hp
    rw [hall first hf p hp]
    exact mappedId_high mode _ _
  · rw [hall first hf first (List.mem_of_mem_head? hf)]
    exact mappedId_self mode hmode

/-- Three objects of stream 0, the first of them twice, and one of stream 1. -/
theorem mappedIds_unique_twoStreams :
    let ids := mappedIds (dynamicConfig [2]) ⟨false, true⟩ 0 empty [.objectIdMapping 0x500000007 0,
      .objectIdMapping 0x500000009 0, .objectIdMapping 3 1, .objectIdMapping 0x600000001 0,
      .objectIdMapping 0x500000007 0]
    (∀ p ∈ ids, ∀ q ∈ ids, p.2 = q.2 ↔ p.1 = q.1) ∧ (∀ p ∈ ids, p.2 >>> 32 = p.1 >>> 32) ∧
      ((⟨false, true⟩ : TrackingIdResetMode).fromZeroAfterEOS = true →
        ∀ first ∈ ids.head?, first.2.toNat % 2 ^ 32 = 0) :=
  mappedIds_unique TreeMap.not_mem_emptyc (by decide +kernel)

end Tracker
end DeepStream
