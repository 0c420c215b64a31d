/-
# What the buffer manager's steps can do

One lemma for each function that has branches, so that an invariant is a look at
the cases: a frame is unknown, skipped, lost or stored; a region is idle, its
copies fail, or its sequence is put into the batch, which may then be full.
-/
import DeepStream.Sequence.BufferManager

namespace DeepStream
namespace Sequence

/-- The sequence is in the batch. -/
def Filling.add {F : Type*} (filling : Filling F) (b : RoiProcessedBuf F) : Filling F :=
  ⟨filling.buf, filling.rois ++ [b.roiInfo], filling.seqs ++ [b.seqNo]⟩

namespace BufferManager

variable {F α : Type*} {lib : SequenceImagePreprocess F α} {s s' : BufferManager F α}

/-! ### Frames -/

section
variable [Add F] [Mul F]

/-- The ring with the frame in it. -/
def withFrame (lib : SequenceImagePreprocess F α) (s : BufferManager F α) (f : Frame F) (b : RoiProcessedBuf F) :
    RoiProcessedBuf F :=
  { b.accept lib.cfg f.unit with seqNo := s.numReady }

/-- The frame is counted as one more of its ring. -/
def located (lib : SequenceImagePreprocess F α) (s : BufferManager F α) (f : Frame F) (b : RoiProcessedBuf F) :
    BufferManager F α :=
  { s.setRoi (lib.key f) (s.withFrame lib f b) with
    arrived := s.arrived ++ [f]
    accepted := s.accepted ++ [f]
    numReady := s.numReady + if (s.withFrame lib f b).Ready lib.cfg then 1 else 0 }

/-- Its picture can be converted, and the kernel is launched. -/
def Converts (lib : SequenceImagePreprocess F α) (f : Frame F) (launch : Bool) : Prop :=
  Supported f.inFormat lib.cfg.params.networkColorFormat ∧ ¬ (getChannels f.inFormat = 0 ∨ 4 < getChannels f.inFormat) ∧
    launch = true

instance (f : Frame F) (launch : Bool) : Decidable (Converts lib f launch) := inferInstanceAs (Decidable (_ ∧ _ ∧ _))

variable [Zero α] [Add α] [Mul α] [Neg α]

/-- What the round for a frame can do. -/
inductive UnitCases (lib : SequenceImagePreprocess F α) (s : BufferManager F α) (f : Frame F) (launch : Bool) :
    Option NvDsPreProcessStatus × BufferManager F α → Prop
  | unknown (hroi : s.findRoi (lib.key f) = none) :
      UnitCases lib s f launch (some .invalidParams, { s with arrived := s.arrived ++ [f] })
  | skipped {b : RoiProcessedBuf F} (hroi : s.findRoi (lib.key f) = some b) (hskip : b.Skips lib.cfg f.unit.frameNum) :
      UnitCases lib s f launch (none, { s with arrived := s.arrived ++ [f] })
  | lost {b : RoiProcessedBuf F} {block : FullBatchBlock} {st : NvDsPreProcessStatus}
      (hroi : s.findRoi (lib.key f) = some b) (hskip : ¬ b.Skips lib.cfg f.unit.frameNum)
      (hblock : s.findBlock b.block = some block) (hno : ¬ Converts lib f launch) :
      UnitCases lib s f launch (some st, s.located lib f b)
  | stored {b : RoiProcessedBuf F} {block : FullBatchBlock} (hroi : s.findRoi (lib.key f) = some b)
      (hskip : ¬ b.Skips lib.cfg f.unit.frameNum) (hblock : s.findBlock b.block = some block)
      (hconverts : Converts lib f launch) :
      UnitCases lib s f launch (none, { s.located lib f b with
        memory := preprocessNCDHW (lib.value f) lib.cfg.channels lib.cfg.height lib.cfg.width lib.cfg.seqSize
          ⟨block.buf, b.blockOffset + b.curIdx lib.cfg * lib.cfg.hwBytes⟩ s.memory })

omit [Add F] [Mul F] in
theorem preprocessData_cases (lib : SequenceImagePreprocess F α) (s : BufferManager F α) (f : Frame F) (launch : Bool)
    (outPtr : Ptr) :
    (¬ Converts lib f launch ∧ ∃ st, st ≠ .success ∧ s.preprocessData lib f launch outPtr = (st, s)) ∨
    (Converts lib f launch ∧ s.preprocessData lib f launch outPtr = (.success, { s with
      memory := preprocessNCDHW (lib.value f) lib.cfg.channels lib.cfg.height lib.cfg.width lib.cfg.seqSize outPtr
        s.memory })) := by
  unfold preprocessData
  by_cases hsup : Supported f.inFormat lib.cfg.params.networkColorFormat
  · rw [if_neg (not_not.mpr hsup)]
    by_cases hch : getChannels f.inFormat = 0 ∨ 4 < getChannels f.inFormat
    · rw [if_pos hch]
      exact .inl ⟨fun hc => hc.2.1 hch, _, by decide, rfl⟩
    · rw [if_neg hch]
      by_cases hl : launch = true
      · rw [if_neg (not_not.mpr hl)]
        exact .inr ⟨⟨hsup, hch, hl⟩, rfl⟩
      · rw [if_pos hl]
        exact .inl ⟨fun hc => hl hc.2.2, _, by decide, rfl⟩
  · rw [if_pos hsup]
    exact .inl ⟨fun hc => hsup hc.1, _, by decide, rfl⟩

omit [Zero α] [Add α] [Mul α] [Neg α] in
/-- Where a frame goes, if it goes anywhere. -/
theorem locateRoiDst_cases {f : Frame F} {r : Except NvDsPreProcessStatus Ptr × BufferManager F α}
    (h : s.locateRoiDst lib f = some r) :
    (s.findRoi (lib.key f) = none ∧ r = (.error .invalidParams, { s with arrived := s.arrived ++ [f] })) ∨
    ∃ b, s.findRoi (lib.key f) = some b ∧
      ((b.Skips lib.cfg f.unit.frameNum ∧ r = (.error .skipFrame, { s with arrived := s.arrived ++ [f] })) ∨
        (¬ b.Skips lib.cfg f.unit.frameNum ∧ ∃ block, s.findBlock b.block = some block ∧
          r = (.ok ⟨block.buf, b.blockOffset + b.curIdx lib.cfg * lib.cfg.hwBytes⟩, s.located lib f b))) := by
  unfold locateRoiDst at h
  have hsame : findRoi { s with arrived := s.arrived ++ [f] } (lib.key f) = s.findRoi (lib.key f) := rfl
  simp only [hsame] at h
  cases hroi : s.findRoi (lib.key f) with
  | none =>
    rw [hroi] at h
    exact .inl ⟨rfl, (Option.some.inj h).symm⟩
  | some b =>
    rw [hroi] at h
    dsimp only at h
    by_cases hskip : b.Skips lib.cfg f.unit.frameNum
    · rw [if_pos hskip] at h
      exact .inr ⟨b, rfl, .inl ⟨hskip, (Option.some.inj h).symm⟩⟩
    · rw [if_neg hskip] at h
      obtain ⟨block, hblock, rfl⟩ := Option.map_eq_some_iff.mp h
      exact .inr ⟨b, rfl, .inr ⟨hskip, block, hblock, rfl⟩⟩

theorem prepareUnit_cases {f : Frame F} {launch : Bool} {r : Option NvDsPreProcessStatus × BufferManager F α}
    (h : s.prepareUnit lib f launch = some r) : UnitCases lib s f launch r := by
  unfold prepareUnit at h
  by_cases hbuf : f.unit.bufWidth < lib.cfg.width ∨ f.unit.bufHeight ≠ lib.cfg.height
  · rw [if_pos hbuf] at h
    cases h
  · rw [if_neg hbuf] at h
    obtain ⟨q, hq, rfl⟩ := Option.map_eq_some_iff.mp h
    rcases locateRoiDst_cases hq with ⟨hroi, rfl⟩ | ⟨b, hroi, ⟨hskip, rfl⟩ | ⟨hskip, block, hblock, rfl⟩⟩
    · exact .unknown hroi
    · exact .skipped hroi hskip
    · rcases preprocessData_cases lib (s.located lib f b) f launch
          ⟨block.buf, b.blockOffset + b.curIdx lib.cfg * lib.cfg.hwBytes⟩ with ⟨hno, st, hst, heq⟩ | ⟨hc, heq⟩
      · simp only [heq, checkProcessError, if_pos hst]
        exact .lost hroi hskip hblock hno
      · simp only [heq]
        exact .stored hroi hskip hblock hc

/-- Every frame meets the condition when its round comes, as far as the call
gets. -/
def Along (lib : SequenceImagePreprocess F α) (P : BufferManager F α → Frame F → Bool → Prop) (launch : ℕ → Bool) :
    List (Frame F) → BufferManager F α → Prop
  | [], _ => True
  | f :: fs, s => P s f (launch s.arrived.length) ∧
      ∀ r ∈ s.prepareUnit lib f (launch s.arrived.length), r.1 = none → Along lib P launch fs r.2

instance decidableAlong (P : BufferManager F α → Frame F → Bool → Prop) [∀ s f l, Decidable (P s f l)]
    (launch : ℕ → Bool) : ∀ fs s, Decidable (Along lib P launch fs s)
  | [], _ => isTrue trivial
  | f :: fs, s =>
    have : ∀ s, Decidable (Along lib P launch fs s) := decidableAlong P launch fs
    inferInstanceAs (Decidable (P s f (launch s.arrived.length) ∧
      ∀ r ∈ s.prepareUnit lib f (launch s.arrived.length), r.1 = none → Along lib P launch fs r.2))

/-- What every round keeps is kept by the loop over the units. -/
theorem prepareUnits_along {I : BufferManager F α → Prop} {P : BufferManager F α → Frame F → Bool → Prop}
    {launch : ℕ → Bool} (hstep : ∀ {s f l r}, I s → P s f l → UnitCases lib s f l r → I r.2) :
    ∀ {fs : List (Frame F)} {s : BufferManager F α} {r : Option NvDsPreProcessStatus × BufferManager F α},
      I s → Along lib P launch fs s → prepareUnits lib launch fs s = some r → I r.2
  | [], _, _, hI, _, h => by
    obtain rfl := Option.some.inj h
    exact hI
  | f :: fs, s, r, hI, hP, h => by
    obtain ⟨⟨st, s₁⟩, hunit, h⟩ := Option.bind_eq_some_iff.mp h
    have hI₁ := hstep hI hP.1 (prepareUnit_cases hunit)
    cases st with
    | none => exact prepareUnits_along hstep hI₁ (hP.2 _ hunit rfl) h
    | some st =>
      obtain rfl := Option.some.inj h
      exact hI₁

theorem along_of_forall {P : BufferManager F α → Frame F → Bool → Prop} {launch : ℕ → Bool} (h : ∀ s f l, P s f l) :
    ∀ (fs : List (Frame F)) (s : BufferManager F α), Along lib P launch fs s
  | [], _ => trivial
  | _ :: fs, _ => ⟨h _ _ _, fun _ _ _ => along_of_forall h fs _⟩

theorem prepareUnits_invariant {I : BufferManager F α → Prop} {launch : ℕ → Bool}
    (hstep : ∀ {s f l r}, I s → UnitCases lib s f l r → I r.2) {fs : List (Frame F)} {s : BufferManager F α}
    {r : Option NvDsPreProcessStatus × BufferManager F α} (hI : I s) (h : prepareUnits lib launch fs s = some r) :
    I r.2 :=
  prepareUnits_along (P := fun _ _ _ => True) (fun hI _ => hstep hI) hI (along_of_forall (fun _ _ _ => trivial) fs s) h

omit [Zero α] [Add α] [Mul α] [Neg α] in
/-- What every new region keeps is kept by the loop that looks for them. -/
theorem buildRoiBlocks_invariant {I : BufferManager F α → Prop}
    (hstep : ∀ {s u}, I s → s.findRoi (getKey lib.int64 u.roiMeta) = none →
      I (s.addRoi lib (getKey lib.int64 u.roiMeta) u)) :
    ∀ {us : List (NvDsPreProcessUnit F)} {s : BufferManager F α}, I s → I (buildRoiBlocks lib us s)
  | [], _, hI => hI
  | u :: us, s, hI => by
    rw [buildRoiBlocks]
    refine buildRoiBlocks_invariant hstep ?_
    split
    · exact hI
    · rename_i hnew
      exact hstep hI (Option.not_isSome_iff_eq_none.mp hnew)

end

/-- A new region gets the next ring of the last block, or the first one of a new
block. -/
theorem addRoi_cases (lib : SequenceImagePreprocess F α) (s : BufferManager F α) (key : SourceKey)
    (u : NvDsPreProcessUnit F) :
    (∃ block blocks, s.accumulateBlocks = block :: blocks ∧ block.inUseBatchSize < lib.cfg.maxBatch ∧
      s.addRoi lib key u = s.placeRoi lib block blocks key u) ∨
    s.addRoi lib key u = s.placeRoiInNew lib key u := by
  unfold addRoi
  split
  · exact .inr rfl
  · rename_i block blocks hblocks
    split
    · exact .inr rfl
    · rename_i hroom
      exact .inl ⟨block, blocks, hblocks, Nat.lt_of_not_le hroom, rfl⟩

/-! ### Batches -/

/-- The frames of the ring are in the batch's next region. -/
def copied (lib : SequenceImagePreprocess F α) (s : BufferManager F α) (filling : Filling F) (block : FullBatchBlock)
    (b : RoiProcessedBuf F) : BufferManager F α :=
  { s with
    memory := copySequence lib.cfg ⟨filling.buf, filling.rois.length * lib.cfg.perBatchBytes % 2 ^ 32⟩
      ⟨block.buf, b.blockOffset⟩ b.startSeqIdx s.memory }

/-- What the round for a region can do. -/
inductive RoiCases (lib : SequenceImagePreprocess F α) (s : BufferManager F α) (copy : Bool) (b : RoiProcessedBuf F)
    (filling : Option (Filling F)) : Bool × RoiProcessedBuf F × Option (Filling F) × BufferManager F α → Prop
  | idle (hready : ¬ b.Ready lib.cfg) : RoiCases lib s copy b filling (true, b, filling, s)
  | failed {fill : Filling F} {s₁ : BufferManager F α} (hready : b.Ready lib.cfg)
      (hstart : s.startFilling lib filling = (fill, s₁)) (hcopy : copy = false) :
      RoiCases lib s copy b filling (false, b, some fill, s₁)
  | added {fill : Filling F} {s₁ : BufferManager F α} {block : FullBatchBlock} (hready : b.Ready lib.cfg)
      (hstart : s.startFilling lib filling = (fill, s₁)) (hcopy : copy = true)
      (hblock : s.findBlock b.block = some block) (hstride : lib.cfg.seqStride ≠ 0)
      (hroom : fill.rois.length + 1 < lib.cfg.maxBatch) :
      RoiCases lib s copy b filling (true, b.slide lib.cfg, some (fill.add b), s₁.copied lib fill block b)
  | full {fill : Filling F} {s₁ : BufferManager F α} {block : FullBatchBlock} (hready : b.Ready lib.cfg)
      (hstart : s.startFilling lib filling = (fill, s₁)) (hcopy : copy = true)
      (hblock : s.findBlock b.block = some block) (hstride : lib.cfg.seqStride ≠ 0)
      (hfull : lib.cfg.maxBatch ≤ fill.rois.length + 1) :
      RoiCases lib s copy b filling
        (true, b.slide lib.cfg, none, (s₁.copied lib fill block b).push (fill.add b) lib.cfg.maxBatch)

theorem startFilling_cases (lib : SequenceImagePreprocess F α) (s : BufferManager F α) (filling : Option (Filling F)) :
    (∃ fill, filling = some fill ∧ s.startFilling lib filling = (fill, s)) ∨
      (filling = none ∧ s.startFilling lib filling = (⟨(s.acquire lib).1, [], []⟩, (s.acquire lib).2)) := by
  cases filling with
  | some fill => exact .inl ⟨fill, rfl, rfl⟩
  | none => exact .inr ⟨rfl, rfl⟩

/-- Nothing but the buffers that are out changes. -/
theorem startFilling_frame (lib : SequenceImagePreprocess F α) (s : BufferManager F α) (filling : Option (Filling F)) :
    ∃ out, (s.startFilling lib filling).2 = { s with out := out } := by
  cases filling with
  | some fill => exact ⟨s.out, rfl⟩
  | none => exact ⟨_, rfl⟩

theorem collectRoi_cases {copy : Bool} {b : RoiProcessedBuf F} {filling : Option (Filling F)}
    {r : Bool × RoiProcessedBuf F × Option (Filling F) × BufferManager F α}
    (h : s.collectRoi lib copy b filling = some r) : RoiCases lib s copy b filling r := by
  unfold collectRoi at h
  by_cases hready : b.Ready lib.cfg
  · rw [if_neg (not_not.mpr hready)] at h
    obtain ⟨out, hout⟩ := startFilling_frame lib s filling
    cases hstart : s.startFilling lib filling with
    | mk fill s₁ =>
      rw [hstart] at hout
      obtain rfl : s₁ = { s with out := out } := hout
      simp only [hstart] at h
      obtain ⟨block, hblock, h⟩ := Option.bind_eq_some_iff.mp h
      by_cases hcopy : copy = true
      · rw [if_neg (not_not.mpr hcopy)] at h
        by_cases hstride : lib.cfg.seqStride = 0
        · rw [if_pos hstride] at h
          cases h
        · rw [if_neg hstride] at h
          simp only [List.length_append, List.length_singleton] at h
          split at h
          · rename_i hfull
            obtain rfl := Option.some.inj h
            exact .full hready hstart hcopy hblock hstride hfull
          · rename_i hroom
            obtain rfl := Option.some.inj h
            exact .added hready hstart hcopy hblock hstride (Nat.lt_of_not_le hroom)
      · rw [if_pos hcopy] at h
        obtain rfl := Option.some.inj h
        exact .failed hready hstart (by simpa using hcopy)
  · rw [if_pos hready] at h
    obtain rfl := Option.some.inj h
    exact .idle hready

/-- What every round keeps, of the regions that are done and of those that are
left, is kept by the loop over them. -/
theorem collectRois_invariant {copy : SourceKey → Bool}
    {J : List (SourceKey × RoiProcessedBuf F) → List (SourceKey × RoiProcessedBuf F) → Option (Filling F) →
      BufferManager F α → Prop}
    (hstep : ∀ {before p after filling s r}, J before (p :: after) filling s →
      RoiCases lib s (copy p.1) p.2 filling r → J (before ++ [(p.1, r.2.1)]) after r.2.2.1 r.2.2.2) :
    ∀ (before : List (SourceKey × RoiProcessedBuf F)) {after l : List (SourceKey × RoiProcessedBuf F)} {filling filling' : Option (Filling F)}
      {s s' : BufferManager F α} {ok : Bool}, J before after filling s →
      collectRois lib copy after filling s = some (ok, l, filling', s') →
      ∃ mid rest, l = mid ++ rest ∧ J (before ++ mid) rest filling' s' ∧ (ok = true → rest = [])
  | before, [], _, _, _, _, _, _, hJ, h => by
    obtain ⟨rfl, rfl, rfl, rfl⟩ : _ ∧ _ ∧ _ ∧ _ := by simpa [collectRois] using h
    exact ⟨[], [], rfl, by simpa using hJ, fun _ => rfl⟩
  | before, p :: after, _, _, _, s, _, _, hJ, h => by
    obtain ⟨⟨ok₁, b, filling₁, s₁⟩, hroi, h⟩ := Option.bind_eq_some_iff.mp h
    have hJ₁ := hstep hJ (collectRoi_cases hroi)
    cases ok₁ with
    | false =>
      obtain ⟨rfl, rfl, rfl, rfl⟩ : _ ∧ _ ∧ _ ∧ _ := by simpa using h
      exact ⟨[(p.1, b)], after, rfl, hJ₁, fun hok => Bool.noConfusion hok⟩
    | true =>
      obtain ⟨⟨ok₂, l₂, filling₂, s₂⟩, hrest, heq⟩ := Option.map_eq_some_iff.mp h
      obtain ⟨rfl, rfl, rfl, rfl⟩ : _ ∧ _ ∧ _ ∧ _ := by simpa using heq
      obtain ⟨mid, rest, rfl, hJ₂, hok⟩ := collectRois_invariant hstep _ hJ₁ hrest
      exact ⟨(p.1, b) :: mid, rest, rfl, by simpa using hJ₂, hok⟩

/-- What is left of the batch at the end is queued, or goes back. -/
theorem collectReady_cases {copy : SourceKey → Bool} {r : Bool × BufferManager F α}
    (h : s.collectReady lib copy = some r) :
    ∃ ok l filling s₁, collectRois lib copy s.src2dstMap none s = some (ok, l, filling, s₁) ∧
      ((filling = none ∧ r = (ok, { s₁ with src2dstMap := l })) ∨
        ∃ fill, filling = some fill ∧
          ((ok = true ∧ r = (true, push { s₁ with src2dstMap := l } fill fill.rois.length)) ∨
            (ok = false ∧ r = (false, release { s₁ with src2dstMap := l } fill.buf)))) := by
  obtain ⟨⟨ok, l, filling, s₁⟩, hcollect, rfl⟩ := Option.map_eq_some_iff.mp h
  refine ⟨ok, l, filling, s₁, hcollect, ?_⟩
  cases filling with
  | none => exact .inl ⟨rfl, rfl⟩
  | some fill =>
    refine .inr ⟨fill, rfl, ?_⟩
    cases ok with
    | true => exact .inl ⟨rfl, rfl⟩
    | false => exact .inr ⟨rfl, rfl⟩

/-! ### Calls -/

section
variable [Add F] [Mul F] [Zero α] [Add α] [Mul α] [Neg α]

/-- The call gets to the units: their format is one of those that are known, and the
device is set. -/
def Begins (batch : NvDsPreProcessBatch F) (cuda : Cuda) : Prop :=
  batch.scalingPoolFormat ∈ [.rgb, .bgr, .rgba, .bgrx] ∧ cuda.setDevice = true

instance (batch : NvDsPreProcessBatch F) (cuda : Cuda) : Decidable (Begins batch cuda) :=
  inferInstanceAs (Decidable (_ ∧ _))

/-- What a call can do. -/
inductive CallCases (lib : SequenceImagePreprocess F α) (s : BufferManager F α) (batch : NvDsPreProcessBatch F)
    (cuda : Cuda) : NvDsPreProcessStatus × Option (ReadyResult F) × BufferManager F α → Prop
  | refused (hno : ¬ Begins batch cuda) : CallCases lib s batch cuda (.configFailed, none, s)
  | noDevice (hno : ¬ Begins batch cuda) : CallCases lib s batch cuda (.cudaError, none, buildRoiBlocks lib batch.units s)
  | stopped {st : NvDsPreProcessStatus} {m : BufferManager F α} (hbegins : Begins batch cuda)
      (hunits : prepareUnits lib cuda.launch batch.frames (buildRoiBlocks lib batch.units s) = some (some st, m)) :
      CallCases lib s batch cuda (st, none, m)
  | failed {m m' : BufferManager F α} {ok : Bool} (hbegins : Begins batch cuda)
      (hunits : prepareUnits lib cuda.launch batch.frames (buildRoiBlocks lib batch.units s) = some (none, m))
      (hcollect : m.collectReady lib cuda.copy = some (ok, m')) (hno : ¬ (ok = true ∧ cuda.synchronize = true)) :
      CallCases lib s batch cuda (.cudaError, none, m')
  | popped {m m' : BufferManager F α} (st : NvDsPreProcessStatus) (hbegins : Begins batch cuda)
      (hunits : prepareUnits lib cuda.launch batch.frames (buildRoiBlocks lib batch.units s) = some (none, m))
      (hcollect : m.collectReady lib cuda.copy = some (true, m')) (hsync : cuda.synchronize = true) :
      CallCases lib s batch cuda (st, m'.popReady.1, m'.popReady.2)

theorem prepareTensorData_cases {batch : NvDsPreProcessBatch F} {cuda : Cuda}
    {r : NvDsPreProcessStatus × Option (ReadyResult F) × BufferManager F α}
    (h : s.prepareTensorData lib batch cuda = some r) : CallCases lib s batch cuda r := by
  unfold prepareTensorData at h
  by_cases hformat : batch.scalingPoolFormat ∈ [.rgb, .bgr, .rgba, .bgrx]
  · rw [if_neg (not_not.mpr hformat)] at h
    by_cases hdevice : cuda.setDevice = true
    · have hbegins : Begins batch cuda := ⟨hformat, hdevice⟩
      simp only [hdevice, not_true_eq_false, ↓reduceIte] at h
      obtain ⟨⟨st, m⟩, hunits, h⟩ := Option.bind_eq_some_iff.mp h
      cases st with
      | some st =>
        obtain rfl := Option.some.inj h
        exact .stopped hbegins hunits
      | none =>
        obtain ⟨⟨ok, m'⟩, hcollect, rfl⟩ := Option.map_eq_some_iff.mp h
        cases ok with
        | false => exact .failed hbegins hunits hcollect (by simp)
        | true =>
          by_cases hsync : cuda.synchronize = true
          · simp only [hsync, not_true_eq_false, ↓reduceIte]
            have hpop := CallCases.popped .success hbegins hunits hcollect hsync
            have hpop' := CallCases.popped .tensorNotReady hbegins hunits hcollect hsync
            cases hres : m'.popReady with
            | mk res m'' =>
              rw [hres] at hpop hpop'
              cases res with
              | none => exact hpop'
              | some res => exact hpop
          · simp only [hsync]
            exact .failed hbegins hunits hcollect (by simp [hsync])
    · simp only [hdevice] at h
      obtain rfl := Option.some.inj h
      exact .noDevice fun hbegins => hdevice hbegins.2
  · rw [if_pos hformat] at h
    obtain rfl := Option.some.inj h
    exact .refused fun hbegins => hformat hbegins.1

/-- What all parts of a call keep is kept by the call. -/
theorem prepareTensorData_invariant {I : BufferManager F α → Prop} {batch : NvDsPreProcessBatch F} {cuda : Cuda}
    {r : NvDsPreProcessStatus × Option (ReadyResult F) × BufferManager F α}
    (hbuild : ∀ {m u}, I m → m.findRoi (getKey lib.int64 u.roiMeta) = none →
      I (m.addRoi lib (getKey lib.int64 u.roiMeta) u))
    (hunit : ∀ {m f l q}, I m → UnitCases lib m f l q → I q.2)
    (hcollect : ∀ {m copy q}, I m → m.collectReady lib copy = some q → I q.2) (hpop : ∀ {m}, I m → I m.popReady.2)
    (hI : I s) (h : s.prepareTensorData lib batch cuda = some r) : I r.2.2 := by
  have hbuilt : I (buildRoiBlocks lib batch.units s) := buildRoiBlocks_invariant hbuild hI
  cases prepareTensorData_cases h with
  | refused hno => exact hI
  | noDevice hno => exact hbuilt
  | stopped hbegins hunits => exact prepareUnits_invariant hunit hbuilt hunits
  | failed hbegins hunits hc hno => exact hcollect (prepareUnits_invariant hunit hbuilt hunits) hc
  | popped st hbegins hunits hc hsync => exact hpop (hcollect (prepareUnits_invariant hunit hbuilt hunits) hc)

end

end BufferManager

namespace State

variable {F α : Type*} [Add F] [Mul F] [Zero α] [Add α] [Mul α] [Neg α] {lib : SequenceImagePreprocess F α}
  {s s' : State F α}

/-- The caller gives back what it has. -/
theorem giveBack_eq {buf : ℕ} (hs : s.step lib (.giveBack buf) = some s') :
    buf ∈ s.handed ∧
      s' = { s with manager := s.manager.release buf, handed := s.handed.erase buf, last := none } := by
  unfold step at hs
  dsimp only at hs
  by_cases hmem : buf ∈ s.handed
  · rw [if_pos hmem] at hs
    exact ⟨hmem, (Option.some.inj hs).symm⟩
  · rw [if_neg hmem] at hs
    cases hs

end State
end Sequence
end DeepStream
