/-
# The rings of the regions

A region is found by its key, which no other one has. Its ring starts at one of
its slots and never counts more frames than it has slots, so that a frame either
fills the next free slot or takes the place of the oldest one.
-/
import DeepStream.Lib.Keyed
import DeepStream.Sequence.Steps

namespace DeepStream
namespace Sequence

variable {F α : Type*} {lib : SequenceImagePreprocess F α}

/-! ### One ring -/

namespace RoiProcessedBuf

variable {cfg : SequenceConfig} {b : RoiProcessedBuf F}

structure Ring (cfg : SequenceConfig) (b : RoiProcessedBuf F) : Prop where
  start_lt : b.startSeqIdx < cfg.seqSize
  processed_le : b.processedSeq ≤ cfg.seqSize

namespace Ring

/-- The frame is one more, or the oldest one goes. -/
theorem accept_cases (h : b.Ring cfg) (u : NvDsPreProcessUnit F) :
    (b.processedSeq < cfg.seqSize ∧ b.accept cfg u = { b with
      processedSeq := b.processedSeq + 1
      latestFrameNo := u.frameNum
      roiInfo := u.roiMeta }) ∨
    (b.processedSeq = cfg.seqSize ∧ b.accept cfg u = { b with
      startSeqIdx := (b.startSeqIdx + 1) % cfg.seqSize
      latestFrameNo := u.frameNum
      roiInfo := u.roiMeta }) := by
  have hle := h.processed_le
  unfold accept
  by_cases hfull : b.processedSeq = cfg.seqSize
  · right
    rw [show b.processedSeq + 1 - cfg.seqSize = 1 by omega]
    exact ⟨hfull, rfl⟩
  · left
    rw [show b.processedSeq + 1 - cfg.seqSize = 0 by omega]
    exact ⟨by omega, rfl⟩

/-- A frame does not move the ring. -/
theorem accept_site (h : b.Ring cfg) (u : NvDsPreProcessUnit F) :
    (b.accept cfg u).block = b.block ∧ (b.accept cfg u).blockOffset = b.blockOffset := by
  rcases h.accept_cases u with ⟨-, heq⟩ | ⟨-, heq⟩
  · rw [heq]
    exact ⟨rfl, rfl⟩
  · rw [heq]
    exact ⟨rfl, rfl⟩

theorem accept (h : b.Ring cfg) (u : NvDsPreProcessUnit F) : (b.accept cfg u).Ring cfg := by
  have hstart := h.start_lt
  rcases h.accept_cases u with ⟨hlt, heq⟩ | ⟨hfull, heq⟩
  · rw [heq]
    exact ⟨hstart, hlt⟩
  · rw [heq]
    exact ⟨Nat.mod_lt _ (by omega), Nat.le_of_eq hfull⟩

/-- After the stride the ring is a ring that is not full. -/
theorem slide (h : b.Ring cfg) (hstride : cfg.seqStride ≠ 0) : (b.slide cfg).Ring cfg ∧ ¬ (b.slide cfg).Ready cfg := by
  have hstart := h.start_lt
  have hle := h.processed_le
  have hprocessed : (b.slide cfg).processedSeq < cfg.seqSize := by
    show b.processedSeq - min cfg.seqStride b.processedSeq < cfg.seqSize
    omega
  refine ⟨⟨Nat.mod_lt _ (by omega), Nat.le_of_lt hprocessed⟩, fun hready => ?_⟩
  exact absurd hready.1 (Nat.not_le_of_lt hprocessed)

end Ring
end RoiProcessedBuf

/-! ### The map -/

theorem emplace_perm {υ : Type*} (k : SourceKey) (v : υ) : ∀ l, (emplace k v l).Perm ((k, v) :: l)
  | [] => .refl _
  | p :: l => by
    rw [emplace]
    split
    · exact .refl _
    · calc (p :: emplace k v l).Perm (p :: (k, v) :: l) := (emplace_perm k v l).cons p
        _ |>.Perm ((k, v) :: p :: l) := List.Perm.swap _ _ _

namespace BufferManager

variable {s s' : BufferManager F α} {key : SourceKey} {b b' : RoiProcessedBuf F}

theorem mem_of_findRoi (h : s.findRoi key = some b) : (key, b) ∈ s.src2dstMap := by
  obtain ⟨⟨k, b'⟩, hfind, rfl⟩ := Option.map_eq_some_iff.mp h
  obtain rfl : k = key := by simpa using List.find?_some hfind
  exact List.mem_of_find?_eq_some hfind

theorem notMem_of_findRoi (h : s.findRoi key = none) : key ∉ s.src2dstMap.map Prod.fst := by
  intro hmem
  obtain ⟨p, hp, hkey⟩ := List.mem_map.mp hmem
  have hnone := List.find?_eq_none.mp (Option.map_eq_none_iff.mp h) p hp
  exact hnone (by simpa using hkey)

/-- A region is set, and the others are left alone. -/
theorem setRoi_perm (h : (s.src2dstMap.map Prod.fst).Nodup) (hroi : s.findRoi key = some b)
    (b' : RoiProcessedBuf F) :
    ∃ rest, (∀ p ∈ rest, p.1 ≠ key) ∧ s.src2dstMap.Perm ((key, b) :: rest) ∧
      (s.setRoi key b').src2dstMap.Perm ((key, b') :: rest) := by
  have hperm := Keyed.perm_key h (mem_of_findRoi hroi)
  have hne : ∀ p ∈ s.src2dstMap.filter (fun p => p.1 ≠ key), p.1 ≠ key := by
    intro p hp
    simpa using (List.mem_filter.mp hp).2
  refine ⟨_, hne, hperm.symm, ?_⟩
  have hset := hperm.symm.map fun p => if p.1 = key then (key, b') else p
  have hrest : (s.src2dstMap.filter fun p => p.1 ≠ key).map (fun p => if p.1 = key then (key, b') else p) =
      s.src2dstMap.filter fun p => p.1 ≠ key :=
    (List.map_congr_left fun p hp => if_neg (hne p hp)).trans (List.map_id' _)
  rw [List.map_cons, if_pos rfl, hrest] at hset
  exact hset

/-- The keys are distinct, and every region has a ring. -/
structure Rings (lib : SequenceImagePreprocess F α) (s : BufferManager F α) : Prop where
  keys : (s.src2dstMap.map Prod.fst).Nodup
  ring : ∀ p ∈ s.src2dstMap, p.2.Ring lib.cfg

namespace Rings

theorem of_eq (h : s.Rings lib) (hmap : s'.src2dstMap = s.src2dstMap) : s'.Rings lib := by
  refine ⟨?_, ?_⟩
  · rw [hmap]
    exact h.keys
  · rw [hmap]
    exact h.ring

theorem of_findRoi (h : s.Rings lib) (hroi : s.findRoi key = some b) : b.Ring lib.cfg := h.ring _ (mem_of_findRoi hroi)

/-- The map after a region has been added. -/
theorem src2dstMap_addRoi (lib : SequenceImagePreprocess F α) (s : BufferManager F α) (key : SourceKey)
    (u : NvDsPreProcessUnit F) :
    ∃ b : RoiProcessedBuf F, b.startSeqIdx = 0 ∧ b.processedSeq = 0 ∧
      (s.addRoi lib key u).src2dstMap.Perm ((key, b) :: s.src2dstMap) := by
  rcases addRoi_cases lib s key u with ⟨block, blocks, -, -, heq⟩ | heq
  · rw [heq]
    exact ⟨_, rfl, rfl, emplace_perm _ _ _⟩
  · rw [heq]
    exact ⟨_, rfl, rfl, emplace_perm _ _ _⟩

theorem addRoi (h : s.Rings lib) (hv : lib.cfg.Valid) (hnew : s.findRoi key = none) (u : NvDsPreProcessUnit F) :
    (s.addRoi lib key u).Rings lib := by
  obtain ⟨b, hstart, hprocessed, hperm⟩ := src2dstMap_addRoi lib s key u
  have hring : b.Ring lib.cfg := ⟨hstart ▸ hv.seqSize_pos, hprocessed ▸ Nat.zero_le _⟩
  refine ⟨(hperm.map Prod.fst).nodup_iff.mpr (List.nodup_cons.mpr ⟨notMem_of_findRoi hnew, h.keys⟩), fun p hp => ?_⟩
  rcases List.mem_cons.mp (hperm.mem_iff.mp hp) with rfl | hold
  · exact hring
  · exact h.ring p hold

theorem setRoi (h : s.Rings lib) (hroi : s.findRoi key = some b) (hb : b'.Ring lib.cfg) :
    (s.setRoi key b').Rings lib := by
  obtain ⟨rest, -, hold, hnew⟩ := setRoi_perm h.keys hroi b'
  have hkeys := (hold.map Prod.fst).nodup_iff.mp h.keys
  refine ⟨(hnew.map Prod.fst).nodup_iff.mpr hkeys, fun p hp => ?_⟩
  rcases List.mem_cons.mp (hnew.mem_iff.mp hp) with rfl | hrest
  · exact hb
  · exact h.ring p (hold.mem_iff.mpr (List.mem_cons_of_mem _ hrest))

/-- The ring of an accepted frame is a ring. -/
theorem withFrame [Add F] [Mul F] (h : s.Rings lib) {f : Frame F} (hroi : s.findRoi (lib.key f) = some b) :
    (s.withFrame lib f b).Ring lib.cfg := by
  have hring := (h.of_findRoi hroi).accept f.unit
  exact ⟨hring.start_lt, hring.processed_le⟩

theorem unitCases [Add F] [Mul F] [Zero α] [Add α] [Mul α] [Neg α] {f : Frame F} {launch : Bool}
    {r : Option NvDsPreProcessStatus × BufferManager F α} (h : s.Rings lib) (hr : UnitCases lib s f launch r) :
    r.2.Rings lib := by
  cases hr with
  | unknown hroi => exact h.of_eq rfl
  | skipped hroi hskip => exact h.of_eq rfl
  | lost hroi hskip hblock hno => exact (h.setRoi hroi (h.withFrame hroi)).of_eq rfl
  | stored hroi hskip hblock hconverts => exact (h.setRoi hroi (h.withFrame hroi)).of_eq rfl

/-- A region whose sequence is collected goes on by the stride. -/
theorem roiCases {copy : Bool} {filling : Option (Filling F)}
    {r : Bool × RoiProcessedBuf F × Option (Filling F) × BufferManager F α} (hring : b.Ring lib.cfg)
    (hr : RoiCases lib s copy b filling r) : r.2.1.Ring lib.cfg := by
  cases hr with
  | idle hready => exact hring
  | failed hready hstart hcopy => exact hring
  | added hready hstart hcopy hblock hstride hroom => exact (hring.slide hstride).1
  | full hready hstart hcopy hblock hstride hfull => exact (hring.slide hstride).1

theorem roiCases_append {copy : SourceKey → Bool} {before after : List (SourceKey × RoiProcessedBuf F)}
    {p : SourceKey × RoiProcessedBuf F} {filling : Option (Filling F)}
    {r : Bool × RoiProcessedBuf F × Option (Filling F) × BufferManager F α}
    (h : ((before ++ p :: after).map Prod.fst).Nodup ∧ ∀ q ∈ before ++ p :: after, q.2.Ring lib.cfg)
    (hr : RoiCases lib s (copy p.1) p.2 filling r) :
    ((before ++ [(p.1, r.2.1)] ++ after).map Prod.fst).Nodup ∧
      ∀ q ∈ before ++ [(p.1, r.2.1)] ++ after, q.2.Ring lib.cfg := by
  refine ⟨by simpa using h.1, fun q hq => ?_⟩
  have hring := roiCases (h.2 p (List.mem_append_right _ List.mem_cons_self)) hr
  simp only [List.append_assoc, List.mem_append, List.mem_cons, List.not_mem_nil, or_false] at hq
  rcases hq with hb | rfl | ha
  · exact h.2 q (List.mem_append_left _ hb)
  · exact hring
  · exact h.2 q (List.mem_append_right _ (List.mem_cons_of_mem _ ha))

theorem collectReady {copy : SourceKey → Bool} {r : Bool × BufferManager F α} (h : s.Rings lib)
    (hcollect : s.collectReady lib copy = some r) : r.2.Rings lib := by
  obtain ⟨ok, l, filling, s₁, hrois, hend⟩ := collectReady_cases hcollect
  have hl : (l.map Prod.fst).Nodup ∧ ∀ p ∈ l, p.2.Ring lib.cfg := by
    obtain ⟨mid, rest, rfl, hJ, -⟩ := collectRois_invariant
      (J := fun before after _ _ => ((before ++ after).map Prod.fst).Nodup ∧ ∀ p ∈ before ++ after, p.2.Ring lib.cfg)
      (fun hJ hr => roiCases_append hJ hr) [] ⟨h.keys, h.ring⟩ hrois
    exact hJ
  have hmap : r.2.src2dstMap = l := by
    rcases hend with ⟨rfl, rfl⟩ | ⟨fill, rfl, ⟨rfl, rfl⟩ | ⟨rfl, rfl⟩⟩ <;> rfl
  exact ⟨hmap ▸ hl.1, hmap ▸ hl.2⟩

theorem popReady (h : s.Rings lib) : s.popReady.2.Rings lib := by
  refine h.of_eq ?_
  unfold BufferManager.popReady
  split <;> rfl

theorem prepareTensorData [Add F] [Mul F] [Zero α] [Add α] [Mul α] [Neg α] {batch : NvDsPreProcessBatch F}
    {cuda : Cuda} {r : NvDsPreProcessStatus × Option (ReadyResult F) × BufferManager F α} (h : s.Rings lib)
    (hv : lib.cfg.Valid) (hcall : s.prepareTensorData lib batch cuda = some r) : r.2.2.Rings lib :=
  prepareTensorData_invariant (I := Rings lib) (fun hm hnew => hm.addRoi hv hnew _) (fun hm => hm.unitCases)
    (fun hm => hm.collectReady) (fun hm => hm.popReady) h hcall

end Rings
end BufferManager

namespace State

variable [Add F] [Mul F] [Zero α] [Add α] [Mul α] [Neg α] {s s' : State F α}

theorem rings_step {a : Action F} (h : s.manager.Rings lib) (hv : lib.cfg.Valid) (hs : s.step lib a = some s') :
    s'.manager.Rings lib := by
  cases a with
  | prepare batch cuda =>
    obtain ⟨r, hcall, rfl⟩ := Option.map_eq_some_iff.mp hs
    exact h.prepareTensorData hv hcall
  | giveBack buf =>
    obtain ⟨-, rfl⟩ := giveBack_eq hs
    exact h.of_eq rfl
  | clearAll =>
    obtain rfl := Option.some.inj hs
    exact h.of_eq rfl

end State
end Sequence
end DeepStream
