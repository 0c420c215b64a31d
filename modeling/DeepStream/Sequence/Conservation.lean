/-
# Which ready sequences are returned

A sequence that becomes ready waits in its ring, then in a batch that is queued,
and is then returned. It is lost when another frame of its region is accepted
before it has been collected, when a copy fails after it was put into a batch,
and when its batch is not the only one that is queued.
-/
import Mathlib.Data.List.TakeWhile
import DeepStream.Sequence.Regions

namespace DeepStream
namespace Sequence

variable {F α : Type*} {lib : SequenceImagePreprocess F α}

/-! ### The sequences that wait -/

section
variable {cfg : SequenceConfig} {l l' : List (SourceKey × RoiProcessedBuf F)}

/-- The regions whose sequences are ready. -/
def readyRois (cfg : SequenceConfig) (l : List (SourceKey × RoiProcessedBuf F)) : List (SourceKey × RoiProcessedBuf F) :=
  l.filter fun p => p.2.Ready cfg

def waitingIn (cfg : SequenceConfig) (l : List (SourceKey × RoiProcessedBuf F)) : List ℕ :=
  (readyRois cfg l).map (·.2.seqNo)

variable (cfg) in
theorem waitingIn_perm (h : l.Perm l') : (waitingIn cfg l).Perm (waitingIn cfg l') := (h.filter _).map _

theorem waitingIn_append (l l' : List (SourceKey × RoiProcessedBuf F)) :
    waitingIn cfg (l ++ l') = waitingIn cfg l ++ waitingIn cfg l' := by
  simp [waitingIn, readyRois]

/-- The sequence of a ring, if it is ready. -/
def RoiProcessedBuf.ready (cfg : SequenceConfig) (b : RoiProcessedBuf F) : List ℕ := if b.Ready cfg then [b.seqNo] else []

theorem RoiProcessedBuf.ready_eq_nil_iff {b : RoiProcessedBuf F} : b.ready cfg = [] ↔ ¬ b.Ready cfg := by
  unfold ready
  split
  · rename_i hready
    exact iff_of_false (List.cons_ne_nil _ _) (not_not.mpr hready)
  · rename_i hidle
    exact iff_of_true rfl hidle

theorem waitingIn_cons (p : SourceKey × RoiProcessedBuf F) (l : List (SourceKey × RoiProcessedBuf F)) :
    waitingIn cfg (p :: l) = p.2.ready cfg ++ waitingIn cfg l := by
  unfold waitingIn readyRois RoiProcessedBuf.ready
  by_cases hready : p.2.Ready cfg
  · simp [hready]
  · simp [hready]

end

namespace BufferManager

variable {s s' : BufferManager F α} {others lost : List ℕ}

def waiting (lib : SequenceImagePreprocess F α) (s : BufferManager F α) : List ℕ := waitingIn lib.cfg s.src2dstMap

def pendingSeqs (s : BufferManager F α) : List ℕ := s.readyPendings.flatMap (·.seqs)

/-- Every sequence that became ready is one of `others`, queued, waiting or lost,
and only one of these. -/
def Accounts (lib : SequenceImagePreprocess F α) (s : BufferManager F α) (others lost : List ℕ) : Prop :=
  (others ++ s.pendingSeqs ++ s.waiting lib ++ lost).Perm (List.range s.numReady)

section
variable [Add F] [Mul F]

/-- The frame is not accepted for a region whose sequence is ready. -/
def Spares (lib : SequenceImagePreprocess F α) (s : BufferManager F α) (f : Frame F) : Prop :=
  ∀ b ∈ s.findRoi (lib.key f), b.Ready lib.cfg → b.Skips lib.cfg f.unit.frameNum

instance (f : Frame F) : Decidable (s.Spares lib f) :=
  Option.decidableForallMem _

variable [Zero α] [Add α] [Mul α] [Neg α]

/-- No frame of the call is, as far as the call gets. -/
def SparesAll (lib : SequenceImagePreprocess F α) (launch : ℕ → Bool) (fs : List (Frame F)) (s : BufferManager F α) :
    Prop :=
  Along lib (fun s f _ => s.Spares lib f) launch fs s

instance (launch : ℕ → Bool) (fs : List (Frame F)) (s : BufferManager F α) : Decidable (SparesAll lib launch fs s) :=
  inferInstanceAs (Decidable (Along lib _ launch fs s))

end

/-- The ready sequences, from the first on, that are copied. -/
def copiedRois (cfg : SequenceConfig) (copy : SourceKey → Bool) (l : List (SourceKey × RoiProcessedBuf F)) :
    List (SourceKey × RoiProcessedBuf F) :=
  (readyRois cfg l).takeWhile fun p => copy p.1

/-- What is ready goes into one batch that is then the only one that is queued. -/
def FitsOne (lib : SequenceImagePreprocess F α) (s : BufferManager F α) : Prop :=
  (readyRois lib.cfg s.src2dstMap).length = 0 ∧ s.readyPendings.length ≤ 1 ∨
    (readyRois lib.cfg s.src2dstMap).length ≤ lib.cfg.maxBatch ∧ s.readyPendings.length = 0

instance : Decidable (s.FitsOne lib) := inferInstanceAs (Decidable (_ ∧ _ ∨ _ ∧ _))

/-- The collection loses nothing: all is copied and fits, or is still queued when
the wait fails, or the batch that is being filled when a copy fails is empty. -/
def CollectOk (lib : SequenceImagePreprocess F α) (s : BufferManager F α) (cuda : Cuda) : Prop :=
  (∀ p ∈ readyRois lib.cfg s.src2dstMap, cuda.copy p.1 = true) ∧ (cuda.synchronize = true → s.FitsOne lib) ∨
    (¬ ∀ p ∈ readyRois lib.cfg s.src2dstMap, cuda.copy p.1 = true) ∧
      (copiedRois lib.cfg cuda.copy s.src2dstMap).length % lib.cfg.maxBatch = 0

instance (cuda : Cuda) : Decidable (s.CollectOk lib cuda) := inferInstanceAs (Decidable (_ ∧ (_ → _) ∨ ¬ _ ∧ _))

/-- A call loses nothing. -/
def CallOk [Add F] [Mul F] [Zero α] [Add α] [Mul α] [Neg α] (lib : SequenceImagePreprocess F α) (s : BufferManager F α)
    (batch : NvDsPreProcessBatch F) (cuda : Cuda) : Prop :=
  Begins batch cuda → SparesAll lib cuda.launch batch.frames (buildRoiBlocks lib batch.units s) ∧
    ∀ r ∈ prepareUnits lib cuda.launch batch.frames (buildRoiBlocks lib batch.units s), r.1 = none →
      r.2.CollectOk lib cuda

instance [Add F] [Mul F] [Zero α] [Add α] [Mul α] [Neg α] (batch : NvDsPreProcessBatch F) (cuda : Cuda) :
    Decidable (s.CallOk lib batch cuda) := inferInstanceAs (Decidable (_ → _ ∧ _))

/-- How far a batch is filled. -/
def fillCount (filling : Option (Filling F)) : ℕ := (filling.map (·.rois.length)).getD 0

/-- The batches that are queued are not empty. -/
def Named (s : BufferManager F α) : Prop := ∀ res ∈ s.readyPendings, res.seqs ≠ []

namespace Accounts

theorem of_perm (h : s.Accounts lib others lost) (hnum : s'.numReady = s.numReady)
    (hpend : s'.pendingSeqs = s.pendingSeqs) (hwait : (s'.waiting lib).Perm (s.waiting lib)) :
    s'.Accounts lib others lost := by
  unfold Accounts
  rw [hnum, hpend]
  exact (List.Perm.append_right _ (List.Perm.append_left _ hwait)).trans h

/-- Nothing is lost just when what is there is all. -/
theorem lost_eq_nil_iff (h : s.Accounts lib others lost) : s.Accounts lib others [] ↔ lost = [] := by
  refine ⟨fun h' => ?_, fun hnil => hnil ▸ h⟩
  have hlen := h.length_eq.trans h'.length_eq.symm
  simp only [List.length_append, List.length_nil] at hlen
  exact List.length_eq_zero_iff.mp (by omega)

theorem addRoi (h : s.Accounts lib others lost) (hv : lib.cfg.Valid) (key : SourceKey) (u : NvDsPreProcessUnit F) :
    (s.addRoi lib key u).Accounts lib others lost := by
  obtain ⟨b, -, hprocessed, hperm⟩ := Rings.src2dstMap_addRoi lib s key u
  have hidle : ¬ b.Ready lib.cfg := fun hready => by
    have := hv.seqSize_pos
    have := hready.1
    omega
  have hwait : ((s.addRoi lib key u).waiting lib).Perm (s.waiting lib) := by
    refine (waitingIn_perm _ hperm).trans ?_
    rw [waitingIn_cons, RoiProcessedBuf.ready_eq_nil_iff.mpr hidle]
    exact .refl _
  rcases addRoi_cases lib s key u with ⟨block, blocks, -, -, heq⟩ | heq
  · rw [heq] at hwait ⊢
    exact h.of_perm rfl rfl hwait
  · rw [heq] at hwait ⊢
    exact h.of_perm rfl rfl hwait

section
variable [Add F] [Mul F]

theorem buildRoiBlocks (h : s.Accounts lib others lost) (hv : lib.cfg.Valid) (us : List (NvDsPreProcessUnit F)) :
    (buildRoiBlocks lib us s).Accounts lib others lost :=
  buildRoiBlocks_invariant (I := fun m => m.Accounts lib others lost) (fun hm _ => hm.addRoi hv _ _) h

/-- A frame that is accepted takes the place of a sequence that is ready. -/
theorem located (h : s.Accounts lib others lost) (hrings : s.Rings lib) {f : Frame F} {b : RoiProcessedBuf F}
    (hroi : s.findRoi (lib.key f) = some b) : (s.located lib f b).Accounts lib others (b.ready lib.cfg ++ lost) := by
  obtain ⟨rest, -, hold, hnew⟩ := setRoi_perm hrings.keys hroi (s.withFrame lib f b)
  have hold' := waitingIn_perm lib.cfg hold
  have hnew' := waitingIn_perm lib.cfg hnew
  have hrange : List.range (s.located lib f b).numReady =
      List.range s.numReady ++ (s.withFrame lib f b).ready lib.cfg := by
    show List.range (s.numReady + if (s.withFrame lib f b).Ready lib.cfg then 1 else 0) = _
    unfold RoiProcessedBuf.ready
    split
    · exact List.range_succ
    · exact (List.append_nil _).symm
  unfold Accounts at h ⊢
  rw [hrange]
  rw [waitingIn_cons] at hold' hnew'
  rw [List.perm_iff_count] at h hold' hnew' ⊢
  intro a
  have h₀ := h a
  have h₁ := hold' a
  have h₂ := hnew' a
  simp only [waiting, List.count_append] at h₀ h₁ h₂ ⊢
  show others.count a + s.pendingSeqs.count a +
      (waitingIn lib.cfg (s.setRoi (lib.key f) (s.withFrame lib f b)).src2dstMap).count a +
      ((b.ready lib.cfg).count a + lost.count a) = _
  omega

/-- A frame that is skipped or not known changes nothing. -/
theorem unitCases [Zero α] [Add α] [Mul α] [Neg α] {f : Frame F} {launch : Bool}
    {r : Option NvDsPreProcessStatus × BufferManager F α} (h : s.Accounts lib others lost) (hrings : s.Rings lib)
    (hr : UnitCases lib s f launch r) :
    ∃ more, (more = [] ↔ s.Spares lib f) ∧ r.2.Accounts lib others (more ++ lost) := by
  have hspares : ∀ {b}, s.findRoi (lib.key f) = some b → ¬ b.Skips lib.cfg f.unit.frameNum →
      (b.ready lib.cfg = [] ↔ s.Spares lib f) := by
    intro b hroi hskip
    rw [RoiProcessedBuf.ready_eq_nil_iff]
    refine ⟨fun hidle b' hb' hready => ?_, fun hs hready => hskip (hs b hroi hready)⟩
    obtain rfl := Option.some.inj (hroi.symm.trans hb')
    exact absurd hready hidle
  cases hr with
  | unknown hroi =>
    refine ⟨[], iff_of_true rfl fun b hb => ?_, h.of_perm rfl rfl (.refl _)⟩
    rw [hroi] at hb
    cases hb
  | @skipped b hroi hskip =>
    refine ⟨[], iff_of_true rfl fun b' hb' hready => ?_, h.of_perm rfl rfl (.refl _)⟩
    obtain rfl := Option.some.inj (hroi.symm.trans hb')
    exact hskip
  | lost hroi hskip hblock hno => exact ⟨_, hspares hroi hskip, h.located hrings hroi⟩
  | stored hroi hskip hblock hconverts =>
    exact ⟨_, hspares hroi hskip, (h.located hrings hroi).of_perm rfl rfl (.refl _)⟩

theorem prepareUnits [Zero α] [Add α] [Mul α] [Neg α] {launch : ℕ → Bool} :
    ∀ {fs : List (Frame F)} {s : BufferManager F α} {lost : List ℕ}
      {r : Option NvDsPreProcessStatus × BufferManager F α}, s.Accounts lib others lost → s.Rings lib →
      prepareUnits lib launch fs s = some r →
      ∃ more, (more = [] ↔ SparesAll lib launch fs s) ∧ r.2.Accounts lib others (more ++ lost)
  | [], _, _, _, h, _, hunits => by
    obtain rfl := Option.some.inj hunits
    exact ⟨[], iff_of_true rfl trivial, h⟩
  | f :: fs, s, lost, r, h, hrings, hunits => by
    obtain ⟨⟨st, s₁⟩, hunit, hunits⟩ := Option.bind_eq_some_iff.mp hunits
    have hcases := prepareUnit_cases hunit
    obtain ⟨more, hmore, h₁⟩ := h.unitCases hrings hcases
    have hall : SparesAll lib launch (f :: fs) s ↔ s.Spares lib f ∧ (st = none → SparesAll lib launch fs s₁) := by
      refine and_congr_right fun _ => ⟨fun hr => hr _ hunit, fun hr q hq => ?_⟩
      obtain rfl := Option.some.inj (hunit.symm.trans hq)
      exact hr
    rw [hall]
    cases st with
    | some st =>
      obtain rfl := Option.some.inj hunits
      exact ⟨more, hmore.trans (by simp), h₁⟩
    | none =>
      obtain ⟨more', hmore', h₂⟩ := prepareUnits h₁ (hrings.unitCases hcases) hunits
      refine ⟨more' ++ more, ?_, (List.append_assoc more' more lost).symm ▸ h₂⟩
      rw [List.append_eq_nil_iff, hmore, hmore', and_comm]
      simp

end

/-! ### The collection -/

/-- As `Accounts`, between two rounds of the loop over the regions. -/
structure Collecting (lib : SequenceImagePreprocess F α) (others lost : List ℕ)
    (before after : List (SourceKey × RoiProcessedBuf F)) (filling : Option (Filling F)) (s : BufferManager F α) :
    Prop where
  account : (others ++ s.pendingSeqs ++ filling.toList.flatMap (·.seqs) ++ waitingIn lib.cfg (before ++ after) ++
    lost).Perm (List.range s.numReady)
  rings : ((before ++ after).map Prod.fst).Nodup ∧ ∀ p ∈ before ++ after, p.2.Ring lib.cfg
  filled : ∀ fill ∈ filling, fill.seqs.length = fill.rois.length
  named : ∀ res ∈ s.readyPendings, res.seqs ≠ []

theorem startFilling_eq {filling : Option (Filling F)} {fill : Filling F} {s₁ : BufferManager F α}
    (hstart : s.startFilling lib filling = (fill, s₁)) :
    fill.seqs = filling.toList.flatMap (·.seqs) ∧ fill.rois.length = fillCount filling ∧
      (filling = some fill ∨ fill.seqs = [] ∧ fill.rois = []) ∧ s₁.readyPendings = s.readyPendings ∧
      s₁.numReady = s.numReady := by
  rcases startFilling_cases lib s filling with ⟨fill', rfl, heq⟩ | ⟨rfl, heq⟩
  · obtain ⟨rfl, rfl⟩ := Prod.mk.inj (hstart.symm.trans heq)
    exact ⟨by simp, rfl, .inl rfl, rfl, rfl⟩
  · obtain ⟨rfl, rfl⟩ := Prod.mk.inj (hstart.symm.trans heq)
    exact ⟨rfl, rfl, .inr ⟨rfl, rfl⟩, rfl, rfl⟩

/-- A sequence that is ready goes from its ring into the batch. -/
theorem Collecting.roiCases {copy : SourceKey → Bool} {before after : List (SourceKey × RoiProcessedBuf F)}
    {p : SourceKey × RoiProcessedBuf F} {filling : Option (Filling F)}
    {r : Bool × RoiProcessedBuf F × Option (Filling F) × BufferManager F α}
    (h : Collecting lib others lost before (p :: after) filling s) (hr : RoiCases lib s (copy p.1) p.2 filling r) :
    Collecting lib others lost (before ++ [(p.1, r.2.1)]) after r.2.2.1 r.2.2.2 := by
  have hrings := Rings.roiCases_append h.rings hr
  have hring := h.rings.2 p (List.mem_append_right _ List.mem_cons_self)
  have hfilled : ∀ {fill s₁}, s.startFilling lib filling = (fill, s₁) → fill.seqs.length = fill.rois.length := by
    intro fill s₁ hstart
    obtain ⟨-, -, hsome | ⟨hseqs, hrois⟩, -⟩ := startFilling_eq hstart
    · exact h.filled fill hsome
    · rw [hseqs, hrois]
      rfl
  -- the sequence has left its ring and is the last one of `seqs`
  have hmoved : ∀ {seqs : List ℕ}, p.2.Ready lib.cfg → lib.cfg.seqStride ≠ 0 →
      seqs = s.pendingSeqs ++ filling.toList.flatMap (·.seqs) ++ [p.2.seqNo] →
      (others ++ seqs ++ waitingIn lib.cfg (before ++ [(p.1, p.2.slide lib.cfg)] ++ after) ++ lost).Perm
        (List.range s.numReady) := by
    intro seqs hready hstride hseqs
    have haccount := h.account
    rw [waitingIn_append, waitingIn_cons, RoiProcessedBuf.ready, if_pos hready] at haccount
    rw [waitingIn_append, waitingIn_append, waitingIn_cons,
      RoiProcessedBuf.ready_eq_nil_iff.mpr (hring.slide hstride).2, hseqs]
    refine List.Perm.trans ?_ haccount
    rw [List.perm_iff_count]
    intro a
    simp only [List.count_append, List.count_nil, waitingIn, readyRois, List.filter_nil, List.map_nil]
    omega
  cases hr with
  | idle hready =>
    refine ⟨?_, hrings, h.filled, h.named⟩
    have haccount := h.account
    simpa using haccount
  | @failed fill s₁ hready hstart hcopy =>
    obtain ⟨hseqs, -, -, hpend, hnum⟩ := startFilling_eq hstart
    refine ⟨?_, hrings, fun fill' hfill' => ?_, fun res hres => h.named res (hpend ▸ hres)⟩
    · show (others ++ s₁.pendingSeqs ++ _ ++ _ ++ lost).Perm (List.range s₁.numReady)
      have haccount := h.account
      rw [← hseqs] at haccount
      rw [pendingSeqs, hpend, hnum]
      simpa [pendingSeqs] using haccount
    · obtain rfl := Option.some.inj hfill'
      exact hfilled hstart
  | @added fill s₁ block hready hstart hcopy hblock hstride hroom =>
    obtain ⟨hseqs, -, -, hpend, hnum⟩ := startFilling_eq hstart
    refine ⟨?_, hrings, fun fill' hfill' => ?_, fun res hres => h.named res (hpend ▸ hres)⟩
    · show (others ++ s₁.pendingSeqs ++ _ ++ _ ++ lost).Perm (List.range s₁.numReady)
      have hm := hmoved hready hstride rfl
      rw [pendingSeqs, hpend, hnum]
      simpa [pendingSeqs, Filling.add, hseqs] using hm
    · obtain rfl := Option.some.inj hfill'
      simp [Filling.add, hfilled hstart]
  | @full fill s₁ block hready hstart hcopy hblock hstride hfull =>
    obtain ⟨hseqs, -, -, hpend, hnum⟩ := startFilling_eq hstart
    refine ⟨?_, hrings, fun fill' hfill' => (by cases hfill'), fun res hres => ?_⟩
    · show (others ++ pendingSeqs _ ++ _ ++ _ ++ lost).Perm (List.range s₁.numReady)
      have hm := hmoved hready hstride rfl
      rw [pendingSeqs, hnum]
      simpa [pendingSeqs, Filling.add, hseqs, push, copied, hpend] using hm
    · have hres' : res ∈ s₁.readyPendings ++ [⟨fill.buf, (fill.add p.2).rois, lib.cfg.maxBatch, (fill.add p.2).seqs⟩] := hres
      rcases List.mem_append.mp hres' with hold | hnew
      · exact h.named res (hpend ▸ hold)
      · obtain rfl := List.mem_singleton.mp hnew
        exact List.append_ne_nil_of_right_ne_nil _ (List.cons_ne_nil _ _)

/-- How many sequences are in the batch, and how many batches were queued. -/
structure Counts (cfg : SequenceConfig) (copied : ℕ) (filling : Option (Filling F)) (s : BufferManager F α)
    (filling' : Option (Filling F)) (s' : BufferManager F α) : Prop where
  fill_eq : fillCount filling' = (fillCount filling + copied) % cfg.maxBatch
  queued_eq : s'.readyPendings.length = s.readyPendings.length + (fillCount filling + copied) / cfg.maxBatch

theorem Counts.refl {cfg : SequenceConfig} {filling : Option (Filling F)} (hlt : fillCount filling < cfg.maxBatch) :
    Counts cfg 0 filling s filling s :=
  ⟨(Nat.mod_eq_of_lt hlt).symm, by rw [Nat.add_zero, Nat.div_eq_of_lt hlt, Nat.add_zero]⟩

theorem Counts.trans {cfg : SequenceConfig} {n : ℕ} {filling₁ filling₂ filling₃ : Option (Filling F)}
    {s₁ s₂ s₃ : BufferManager F α} (h : Counts cfg 1 filling₁ s₁ filling₂ s₂) (h' : Counts cfg n filling₂ s₂ filling₃ s₃)
    (hmax : 0 < cfg.maxBatch) : Counts cfg (n + 1) filling₁ s₁ filling₃ s₃ := by
  have hsum : fillCount filling₁ + (n + 1) = fillCount filling₁ + 1 + n := by omega
  have hdiv := Nat.div_add_mod (fillCount filling₁ + 1) cfg.maxBatch
  refine ⟨?_, ?_⟩
  · rw [h'.fill_eq, h.fill_eq, Nat.mod_add_mod, hsum]
  · rw [h'.queued_eq, h.queued_eq, h.fill_eq, hsum]
    have hsplit : fillCount filling₁ + 1 + n = cfg.maxBatch * ((fillCount filling₁ + 1) / cfg.maxBatch) +
        ((fillCount filling₁ + 1) % cfg.maxBatch + n) := by omega
    rw [hsplit, Nat.mul_add_div hmax]
    omega

theorem roiCases_counts {b : RoiProcessedBuf F} {filling : Option (Filling F)}
    {r : Bool × RoiProcessedBuf F × Option (Filling F) × BufferManager F α} (hlt : fillCount filling < lib.cfg.maxBatch)
    (hready : b.Ready lib.cfg) (hr : RoiCases lib s true b filling r) :
    r.1 = true ∧ Counts lib.cfg 1 filling s r.2.2.1 r.2.2.2 ∧ (r.2.2.1 = none ↔ fillCount r.2.2.1 = 0) := by
  cases hr with
  | idle hidle => exact absurd hready hidle
  | failed hready hstart hcopy => cases hcopy
  | @added fill s₁ block hready hstart hcopy hblock hstride hroom =>
    obtain ⟨-, hcount, -, hpend, -⟩ := startFilling_eq hstart
    have hfill : fillCount (some (fill.add b)) = fillCount filling + 1 := by
      rw [← hcount]
      simp [fillCount, Filling.add]
    refine ⟨rfl, ⟨?_, ?_⟩, by simp [hfill]⟩
    · show fillCount (some (fill.add b)) = _
      rw [hfill, Nat.mod_eq_of_lt (hcount ▸ hroom)]
    · show s₁.readyPendings.length = _
      rw [hpend, Nat.div_eq_of_lt (hcount ▸ hroom), Nat.add_zero]
  | @full fill s₁ block hready hstart hcopy hblock hstride hfull =>
    obtain ⟨-, hcount, -, hpend, -⟩ := startFilling_eq hstart
    have heq : fillCount filling + 1 = lib.cfg.maxBatch := by omega
    refine ⟨rfl, ⟨?_, ?_⟩, iff_of_true rfl rfl⟩
    · rw [heq, Nat.mod_self]
      rfl
    · show (s₁.readyPendings ++ [_]).length = _
      rw [List.length_append, hpend, heq, Nat.div_self (by omega)]
      rfl

section
variable {copy : SourceKey → Bool} {p : SourceKey × RoiProcessedBuf F} {l : List (SourceKey × RoiProcessedBuf F)}

theorem readyRois_cons_of_idle {cfg : SequenceConfig} (h : ¬ p.2.Ready cfg) : readyRois cfg (p :: l) = readyRois cfg l :=
  List.filter_cons_of_neg (by simpa using h)

theorem readyRois_cons_of_ready {cfg : SequenceConfig} (h : p.2.Ready cfg) :
    readyRois cfg (p :: l) = p :: readyRois cfg l :=
  List.filter_cons_of_pos (by simpa using h)

theorem copiedRois_cons_of_ready {cfg : SequenceConfig} (h : p.2.Ready cfg) :
    copiedRois cfg copy (p :: l) = if copy p.1 = true then p :: copiedRois cfg copy l else [] := by
  unfold copiedRois
  rw [readyRois_cons_of_ready h, List.takeWhile_cons]

/-- The loop goes on until a copy fails. -/
theorem collectRois_counts (hmax : 0 < lib.cfg.maxBatch) :
    ∀ {l l' : List (SourceKey × RoiProcessedBuf F)} {filling filling' : Option (Filling F)}
      {s s' : BufferManager F α} {ok : Bool}, fillCount filling < lib.cfg.maxBatch →
      (filling = none ↔ fillCount filling = 0) → collectRois lib copy l filling s = some (ok, l', filling', s') →
      Counts lib.cfg (copiedRois lib.cfg copy l).length filling s filling' s' ∧
        (ok = true ↔ ∀ p ∈ readyRois lib.cfg l, copy p.1 = true) ∧
        (ok = true → (filling' = none ↔ fillCount filling' = 0)) ∧ (ok = false → filling' ≠ none)
  | [], _, filling, _, s, _, _, hlt, hnone, h => by
    obtain ⟨rfl, rfl, rfl, rfl⟩ : _ ∧ _ ∧ _ ∧ _ := by simpa [collectRois] using h
    exact ⟨.refl hlt, iff_of_true rfl fun p hp => absurd hp List.not_mem_nil, fun _ => hnone, fun hok => Bool.noConfusion hok⟩
  | p :: l, _, filling, _, s, _, _, hlt, hnone, h => by
    obtain ⟨r, hroi, h⟩ := Option.bind_eq_some_iff.mp h
    have hcases := collectRoi_cases hroi
    by_cases hready : p.2.Ready lib.cfg
    · rw [copiedRois_cons_of_ready hready, readyRois_cons_of_ready hready]
      by_cases hcopy : copy p.1 = true
      · rw [hcopy] at hcases
        obtain ⟨hok₁, hcounts, hnone₁⟩ := roiCases_counts hlt hready hcases
        rw [if_pos hok₁] at h
        obtain ⟨⟨ok₂, l₂, filling₂, s₂⟩, hrest, heq⟩ := Option.map_eq_some_iff.mp h
        obtain ⟨rfl, rfl, rfl, rfl⟩ : _ ∧ _ ∧ _ ∧ _ := by simpa using heq
        have hlt₁ : fillCount r.2.2.1 < lib.cfg.maxBatch := by
          rw [hcounts.fill_eq]
          exact Nat.mod_lt _ hmax
        obtain ⟨hcounts', hok, hend⟩ := collectRois_counts hmax hlt₁ hnone₁ hrest
        rw [if_pos hcopy, List.length_cons]
        refine ⟨hcounts.trans hcounts' hmax, hok.trans ?_, hend⟩
        rw [List.forall_mem_cons]
        exact (and_iff_right hcopy).symm
      · rw [if_neg hcopy]
        cases hcases with
        | idle hidle => exact absurd hready hidle
        | @failed fill s₁ hready hstart hfails =>
          obtain ⟨rfl, rfl, rfl, rfl⟩ : _ ∧ _ ∧ _ ∧ _ := by simpa using h
          obtain ⟨-, hcount, -, hpend, -⟩ := startFilling_eq hstart
          have hrefl := Counts.refl (s := s) hlt
          refine ⟨⟨hcount.trans hrefl.fill_eq, (congrArg List.length hpend).trans hrefl.queued_eq⟩,
            iff_of_false Bool.noConfusion fun hall => hcopy (hall p List.mem_cons_self), fun hok => Bool.noConfusion hok,
            fun _ => Option.some_ne_none _⟩
        | added hready hstart hcopied hblock hstride hroom => exact absurd hcopied hcopy
        | full hready hstart hcopied hblock hstride hfull => exact absurd hcopied hcopy
    · rw [copiedRois, readyRois_cons_of_idle hready]
      cases hcases with
      | idle hidle =>
        obtain ⟨⟨ok₂, l₂, filling₂, s₂⟩, hrest, heq⟩ := Option.map_eq_some_iff.mp h
        obtain ⟨rfl, rfl, rfl, rfl⟩ : _ ∧ _ ∧ _ ∧ _ := by simpa using heq
        exact collectRois_counts hmax hlt hnone hrest
      | failed hr => exact absurd hr hready
      | added hr => exact absurd hr hready
      | full hr => exact absurd hr hready

end

theorem queued_le_one_iff {n k queued : ℕ} (hn : 0 < n) :
    queued + k / n + (if k % n = 0 then 0 else 1) ≤ 1 ↔ k = 0 ∧ queued ≤ 1 ∨ k ≤ n ∧ queued = 0 := by
  by_cases hk : k = 0
  · subst hk
    simp only [Nat.zero_div, Nat.zero_mod, ↓reduceIte, true_and, Nat.zero_le]
    omega
  · have hdiv := Nat.div_add_mod k n
    have hmod := Nat.mod_lt k hn
    rcases Nat.lt_trichotomy (k / n) 1 with hq | hq | hq
    · have hq : k / n = 0 := Nat.lt_one_iff.mp hq
      rw [hq, Nat.mul_zero, Nat.zero_add] at hdiv
      rw [hq, if_neg (by omega)]
      omega
    · rw [hq, Nat.mul_one] at hdiv
      rw [hq]
      split <;> omega
    · have hle : n * 2 ≤ n * (k / n) := Nat.mul_le_mul_left n hq
      omega

/-- The collection loses what was put into a batch that is not finished. -/
theorem collectReady {copy : SourceKey → Bool} {r : Bool × BufferManager F α} (h : s.Accounts lib others lost)
    (hrings : s.Rings lib) (hnamed : s.Named) (hmax : 0 < lib.cfg.maxBatch)
    (hcollect : s.collectReady lib copy = some r) :
    ∃ more, r.2.Accounts lib others (more ++ lost) ∧ r.2.Named ∧
      (r.1 = true ↔ ∀ p ∈ readyRois lib.cfg s.src2dstMap, copy p.1 = true) ∧
      (r.1 = true → more = [] ∧ (r.2.readyPendings.length ≤ 1 ↔ s.FitsOne lib)) ∧
      (r.1 = false → (more = [] ↔ (copiedRois lib.cfg copy s.src2dstMap).length % lib.cfg.maxBatch = 0)) := by
  obtain ⟨ok, l, filling, s₁, hrois, hend⟩ := collectReady_cases hcollect
  have hempty : fillCount (none : Option (Filling F)) < lib.cfg.maxBatch := hmax
  obtain ⟨hcounts, hok, hnone, hsome⟩ := collectRois_counts hmax hempty (iff_of_true rfl rfl) hrois
  have hstart : Collecting lib others lost [] s.src2dstMap none s := by
    refine ⟨?_, ⟨hrings.keys, hrings.ring⟩, fun fill hfill => (by cases hfill), hnamed⟩
    simpa [Accounts, waiting] using h
  obtain ⟨mid, rest, rfl, hcollecting, -⟩ := collectRois_invariant
    (J := Collecting lib others lost) (fun hJ hr => hJ.roiCases hr) [] hstart hrois
  have haccount := hcollecting.account
  have hfill := hcounts.fill_eq
  have hqueued := hcounts.queued_eq
  rw [List.nil_append] at haccount
  simp only [fillCount, Option.map_none, Option.getD_none, Nat.zero_add] at hfill hqueued
  have hcopied : ok = true → copiedRois lib.cfg copy s.src2dstMap = readyRois lib.cfg s.src2dstMap := fun h =>
    List.takeWhile_eq_self_iff.mpr fun p hp => hok.mp h p hp
  have hfits : ∀ {n}, ok = true → n = s₁.readyPendings.length +
      (if (copiedRois lib.cfg copy s.src2dstMap).length % lib.cfg.maxBatch = 0 then 0 else 1) →
      (n ≤ 1 ↔ s.FitsOne lib) := by
    intro n hall hn
    rw [hn, hqueued, hcopied hall]
    exact queued_le_one_iff hmax
  rcases hend with ⟨rfl, rfl⟩ | ⟨fill, rfl, hend⟩
  · have hall : ok = true := by
      by_contra hno
      exact hsome (by simpa using hno) rfl
    refine ⟨[], ?_, hcollecting.named, hok, fun _ => ⟨rfl, hfits hall ?_⟩, fun hno => ?_⟩
    · simpa [Accounts, waiting, pendingSeqs] using haccount
    · rw [if_pos (hfill ▸ rfl)]
      rfl
    · rw [hall] at hno
      cases hno
  · have hlen := hcollecting.filled fill rfl
    rcases hend with ⟨rfl, rfl⟩ | ⟨rfl, rfl⟩
    · have hne : fill.seqs ≠ [] := by
        intro hnil
        rw [hnil] at hlen
        have hcount : fillCount (some fill) = 0 := hlen.symm
        exact Option.some_ne_none _ ((hnone rfl).mpr hcount)
      have hmod : (copiedRois lib.cfg copy s.src2dstMap).length % lib.cfg.maxBatch ≠ 0 := by
        rw [← hfill]
        intro hzero
        exact hne (List.length_eq_zero_iff.mp (hlen.trans hzero))
      refine ⟨[], ?_, ?_, hok, fun _ => ⟨rfl, hfits rfl ?_⟩, fun hno => Bool.noConfusion hno⟩
      · simpa [Accounts, waiting, pendingSeqs, push] using haccount
      · intro res hres
        rcases List.mem_append.mp hres with hold | hnew
        · exact hcollecting.named res hold
        · obtain rfl := List.mem_singleton.mp hnew
          exact hne
      · rw [if_neg hmod]
        simp [push]
    · refine ⟨fill.seqs, ?_, hcollecting.named, hok, fun hno => Bool.noConfusion hno, fun _ => ?_⟩
      · refine List.Perm.trans ?_ haccount
        rw [List.perm_iff_count]
        intro a
        simp only [waiting, pendingSeqs, BufferManager.release, Option.toList_some, List.flatMap_cons, List.flatMap_nil,
          List.append_nil, List.count_append]
        omega
      · rw [← List.length_eq_zero_iff, hlen, ← hfill]
        rfl

/-- The last batch is returned, and those before it are lost. -/
theorem popReady (h : s.Accounts lib others lost) (hnamed : s.Named) :
    ∃ more, (more = [] ↔ s.readyPendings.length ≤ 1) ∧
      s.popReady.2.Accounts lib (others ++ s.popReady.1.toList.flatMap (·.seqs)) (more ++ lost) := by
  unfold BufferManager.popReady
  cases hlast : s.readyPendings.getLast? with
  | none =>
    have hnil := List.getLast?_eq_none_iff.mp hlast
    refine ⟨[], iff_of_true rfl (by simp [hnil]), ?_⟩
    simpa using h
  | some res =>
    have hsplit : s.readyPendings = s.readyPendings.dropLast ++ [res] :=
      (List.dropLast_append_getLast? res hlast).symm
    refine ⟨s.readyPendings.dropLast.flatMap (·.seqs), ?_, ?_⟩
    · have hlen := congrArg List.length hsplit
      rw [List.length_append, List.length_singleton] at hlen
      rw [List.flatMap_eq_nil_iff]
      refine ⟨fun hall => ?_, fun hle => ?_⟩
      · have hnil : s.readyPendings.dropLast = [] := List.eq_nil_iff_forall_not_mem.mpr fun old hold =>
          hnamed old (List.dropLast_subset _ hold) (hall old hold)
        rw [hlen, hnil]
        exact Nat.le_refl _
      · have hnil : s.readyPendings.dropLast = [] := List.length_eq_zero_iff.mp (by omega)
        rw [hnil]
        exact fun old hold => absurd hold List.not_mem_nil
    · have hseqs : s.pendingSeqs = s.readyPendings.dropLast.flatMap (·.seqs) ++ res.seqs := by
        rw [pendingSeqs]
        conv_lhs => rw [hsplit]
        simp
      unfold Accounts at h ⊢
      rw [hseqs] at h
      refine List.Perm.trans ?_ h
      rw [List.perm_iff_count]
      intro a
      simp only [waiting, pendingSeqs, Option.toList_some, List.flatMap_cons, List.flatMap_nil, List.append_nil,
        List.count_append]
      omega

theorem named_build [Add F] [Mul F] (h : s.Named) (us : List (NvDsPreProcessUnit F)) :
    (BufferManager.buildRoiBlocks lib us s).Named := by
  refine buildRoiBlocks_invariant (I := Named) (fun {m u} hm _ => ?_) h
  rcases addRoi_cases lib m (getKey lib.int64 u.roiMeta) u with ⟨block, blocks, -, -, heq⟩ | heq
  · rw [heq]
    exact hm
  · rw [heq]
    exact hm

section
variable [Add F] [Mul F] [Zero α] [Add α] [Mul α] [Neg α]

theorem named_units {launch : ℕ → Bool} {fs : List (Frame F)} {r : Option NvDsPreProcessStatus × BufferManager F α}
    (h : s.Named) (hunits : BufferManager.prepareUnits lib launch fs s = some r) : r.2.Named := by
  refine prepareUnits_invariant (I := Named) (fun hm hr => ?_) h hunits
  cases hr <;> exact hm

/-- What a call loses, if it does. -/
theorem prepareTensorData {batch : NvDsPreProcessBatch F} {cuda : Cuda}
    {r : NvDsPreProcessStatus × Option (ReadyResult F) × BufferManager F α} (h : s.Accounts lib others lost)
    (hrings : s.Rings lib) (hnamed : s.Named) (hv : lib.cfg.Valid)
    (hcall : s.prepareTensorData lib batch cuda = some r) :
    ∃ more, (more = [] ↔ s.CallOk lib batch cuda) ∧
      r.2.2.Accounts lib (others ++ r.2.1.toList.flatMap (·.seqs)) (more ++ lost) ∧ r.2.2.Named := by
  have hbuilt := h.buildRoiBlocks hv batch.units
  have hbuiltRings : (BufferManager.buildRoiBlocks lib batch.units s).Rings lib :=
    buildRoiBlocks_invariant (I := Rings lib) (fun hm hnew => hm.addRoi hv hnew _) hrings
  have hbuiltNamed : (BufferManager.buildRoiBlocks lib batch.units s).Named := named_build hnamed batch.units
  have hnone : ∀ {m : BufferManager F α} {more : List ℕ}, m.Accounts lib others more →
      m.Accounts lib (others ++ (none : Option (ReadyResult F)).toList.flatMap (·.seqs)) more := by
    intro m more hm
    simpa using hm
  -- the state after the units is that which the condition is about
  have hat : ∀ {st m}, BufferManager.prepareUnits lib cuda.launch batch.frames
      (BufferManager.buildRoiBlocks lib batch.units s) = some (st, m) → Begins batch cuda →
      (s.CallOk lib batch cuda ↔ SparesAll lib cuda.launch batch.frames (BufferManager.buildRoiBlocks lib batch.units s) ∧
        (st = none → m.CollectOk lib cuda)) := by
    intro st m hunits hbegins
    refine ⟨fun hok => ⟨(hok hbegins).1, fun hst => (hok hbegins).2 _ hunits hst⟩, fun hok _ => ⟨hok.1, fun q hq hst => ?_⟩⟩
    obtain rfl := Option.some.inj (hunits.symm.trans hq)
    exact hok.2 hst
  cases prepareTensorData_cases hcall with
  | refused hno => exact ⟨[], iff_of_true rfl fun hbegins => absurd hbegins hno, hnone h, hnamed⟩
  | noDevice hno => exact ⟨[], iff_of_true rfl fun hbegins => absurd hbegins hno, hnone hbuilt, hbuiltNamed⟩
  | stopped hbegins hunits =>
    obtain ⟨more, hmore, haccount⟩ := hbuilt.prepareUnits hbuiltRings hunits
    refine ⟨more, ?_, hnone haccount, named_units hbuiltNamed hunits⟩
    rw [hat hunits hbegins, hmore]
    simp
  | @failed m m' ok hbegins hunits hcollect hno =>
    obtain ⟨more, hmore, haccount⟩ := hbuilt.prepareUnits hbuiltRings hunits
    have hm : m.Rings lib := prepareUnits_invariant (I := Rings lib) (fun hq hr => hq.unitCases hr) hbuiltRings hunits
    obtain ⟨more', haccount', hnamed', hok, hall, hfail⟩ :=
      haccount.collectReady hm (named_units hbuiltNamed hunits) hv.maxBatch_pos hcollect
    refine ⟨more' ++ more, ?_, hnone (by rw [List.append_assoc]; exact haccount'), hnamed'⟩
    rw [hat hunits hbegins, List.append_eq_nil_iff, hmore, and_comm]
    refine and_congr_right fun _ => ?_
    unfold CollectOk
    rw [← hok]
    by_cases hcopies : ok = true
    · have hsync : ¬ cuda.synchronize = true := fun hsync => hno ⟨hcopies, hsync⟩
      simp [hcopies, (hall hcopies).1, hsync]
    · simpa [hcopies] using hfail (by simpa using hcopies)
  | @popped m m' st hbegins hunits hcollect hsync =>
    obtain ⟨more, hmore, haccount⟩ := hbuilt.prepareUnits hbuiltRings hunits
    have hm : m.Rings lib := prepareUnits_invariant (I := Rings lib) (fun hq hr => hq.unitCases hr) hbuiltRings hunits
    obtain ⟨more', haccount', hnamed', hok, hall, -⟩ :=
      haccount.collectReady hm (named_units hbuiltNamed hunits) hv.maxBatch_pos hcollect
    obtain ⟨hnil, hfits⟩ := hall rfl
    obtain ⟨more'', hmore'', haccount''⟩ := haccount'.popReady hnamed'
    rw [hnil, List.nil_append] at haccount''
    refine ⟨more'' ++ more, ?_, by rw [List.append_assoc]; exact haccount'', ?_⟩
    · rw [hat hunits hbegins, List.append_eq_nil_iff, hmore, hmore'', hfits, and_comm]
      refine and_congr_right fun _ => ?_
      unfold CollectOk
      rw [← hok]
      simp [hsync]
    · unfold BufferManager.popReady
      split
      · exact hnamed'
      · exact fun res hres => absurd hres List.not_mem_nil

end

end Accounts

/-! ### The blocks -/

/-- A ring that is ready has its block. -/
def Live (lib : SequenceImagePreprocess F α) (s : BufferManager F α) : Prop :=
  ∀ p ∈ s.src2dstMap, p.2.Ready lib.cfg → (s.findBlock p.2.block).isSome

namespace Live

theorem addRoi (h : s.Live lib) (hv : lib.cfg.Valid) (key : SourceKey) (u : NvDsPreProcessUnit F) :
    (s.addRoi lib key u).Live lib := by
  obtain ⟨b, -, hprocessed, hperm⟩ := Rings.src2dstMap_addRoi lib s key u
  intro p hp hready
  rcases List.mem_cons.mp (hperm.mem_iff.mp hp) with rfl | hold
  · have hpos := hv.seqSize_pos
    have hle : lib.cfg.seqSize ≤ b.processedSeq := hready.1
    omega
  · have hlive := h p hold hready
    simp only [findBlock, List.find?_isSome] at hlive ⊢
    obtain ⟨block, hblock, haddr⟩ := hlive
    rcases addRoi_cases lib s key u with ⟨first, blocks, hblocks, -, heq⟩ | heq
    · rw [heq]
      rw [hblocks] at hblock
      rcases List.mem_cons.mp hblock with rfl | hrest
      · exact ⟨_, List.mem_cons_self, haddr⟩
      · exact ⟨block, List.mem_cons_of_mem _ hrest, haddr⟩
    · rw [heq]
      exact ⟨block, List.mem_cons_of_mem _ hblock, haddr⟩

theorem located [Add F] [Mul F] (h : s.Live lib) (hrings : s.Rings lib) {f : Frame F} {b : RoiProcessedBuf F}
    {block : FullBatchBlock} (hroi : s.findRoi (lib.key f) = some b) (hblock : s.findBlock b.block = some block) :
    (s.located lib f b).Live lib := by
  obtain ⟨rest, -, hold, hnew⟩ := setRoi_perm hrings.keys hroi (s.withFrame lib f b)
  intro p hp hready
  rcases List.mem_cons.mp (hnew.mem_iff.mp hp) with rfl | hrest
  · have hsame : (s.withFrame lib f b).block = b.block := ((hrings.of_findRoi hroi).accept_site f.unit).1
    show (s.findBlock (s.withFrame lib f b).block).isSome
    rw [hsame, hblock]
    rfl
  · exact h p (hold.mem_iff.mpr (List.mem_cons_of_mem _ hrest)) hready

theorem unitCases [Add F] [Mul F] [Zero α] [Add α] [Mul α] [Neg α] {f : Frame F} {launch : Bool}
    {r : Option NvDsPreProcessStatus × BufferManager F α} (h : s.Live lib) (hrings : s.Rings lib)
    (hr : UnitCases lib s f launch r) : r.2.Live lib := by
  cases hr with
  | unknown hroi => exact h
  | skipped hroi hskip => exact h
  | lost hroi hskip hblock hno => exact h.located hrings hroi hblock
  | stored hroi hskip hblock hconverts => exact h.located hrings hroi hblock

/-- A region that has gone on by the stride is not ready. -/
theorem roiCases {copy : SourceKey → Bool} {before after : List (SourceKey × RoiProcessedBuf F)}
    {p : SourceKey × RoiProcessedBuf F} {filling : Option (Filling F)}
    {r : Bool × RoiProcessedBuf F × Option (Filling F) × BufferManager F α} (hring : p.2.Ring lib.cfg)
    (h : ∀ q ∈ before ++ p :: after, q.2.Ready lib.cfg → (s.findBlock q.2.block).isSome)
    (hr : RoiCases lib s (copy p.1) p.2 filling r) :
    ∀ q ∈ before ++ [(p.1, r.2.1)] ++ after, q.2.Ready lib.cfg → (r.2.2.2.findBlock q.2.block).isSome := by
  have hroi : r.2.1 = p.2 ∨ ¬ r.2.1.Ready lib.cfg := by
    cases hr with
    | idle hready => exact .inl rfl
    | failed hready hstart hcopy => exact .inl rfl
    | added hready hstart hcopy hblock hstride hroom => exact .inr (hring.slide hstride).2
    | full hready hstart hcopy hblock hstride hfull => exact .inr (hring.slide hstride).2
  intro q hq hready
  rw [findBlock, (Placed.roiCases hr).2.2.1]
  simp only [List.append_assoc, List.mem_append, List.mem_cons, List.not_mem_nil, or_false] at hq
  rcases hq with hbefore | rfl | hafter
  · exact h q (List.mem_append_left _ hbefore) hready
  · rcases hroi with hsame | hidle
    · rw [hsame] at hready
      have hp := h p (List.mem_append_right _ List.mem_cons_self) hready
      rw [← hsame] at hp
      exact hp
    · exact absurd hready hidle
  · exact h q (List.mem_append_right _ (List.mem_cons_of_mem _ hafter)) hready

theorem collectReady {copy : SourceKey → Bool} {r : Bool × BufferManager F α} (h : s.Live lib) (hrings : s.Rings lib)
    (hcollect : s.collectReady lib copy = some r) : r.2.Live lib := by
  obtain ⟨ok, l, filling, s₁, hrois, hend⟩ := collectReady_cases hcollect
  obtain ⟨mid, rest, rfl, ⟨-, hlive⟩, -⟩ := collectRois_invariant
    (J := fun before after _ m =>
      (((before ++ after).map Prod.fst).Nodup ∧ ∀ p ∈ before ++ after, p.2.Ring lib.cfg) ∧
      ∀ p ∈ before ++ after, p.2.Ready lib.cfg → (m.findBlock p.2.block).isSome)
    (fun hJ hr => ⟨Rings.roiCases_append hJ.1 hr,
      roiCases (hJ.1.2 _ (List.mem_append_right _ List.mem_cons_self)) hJ.2 hr⟩)
    [] ⟨⟨hrings.keys, hrings.ring⟩, h⟩ hrois
  rcases hend with ⟨rfl, rfl⟩ | ⟨fill, rfl, ⟨rfl, rfl⟩ | ⟨rfl, rfl⟩⟩ <;> exact hlive

theorem popReady (h : s.Live lib) : s.popReady.2.Live lib := by
  unfold BufferManager.popReady
  split
  · exact h
  · exact h

theorem prepareTensorData [Add F] [Mul F] [Zero α] [Add α] [Mul α] [Neg α] {batch : NvDsPreProcessBatch F}
    {cuda : Cuda} {r : NvDsPreProcessStatus × Option (ReadyResult F) × BufferManager F α} (h : s.Live lib)
    (hrings : s.Rings lib) (hv : lib.cfg.Valid) (hcall : s.prepareTensorData lib batch cuda = some r) :
    r.2.2.Live lib :=
  (prepareTensorData_invariant (I := fun m => m.Rings lib ∧ m.Live lib)
    (fun hm hnew => ⟨hm.1.addRoi hv hnew _, hm.2.addRoi hv _ _⟩)
    (fun hm hr => ⟨hm.1.unitCases hr, hm.2.unitCases hm.1 hr⟩)
    (fun hm hc => ⟨hm.1.collectReady hc, hm.2.collectReady hm.1 hc⟩) (fun hm => ⟨hm.1.popReady, hm.2.popReady⟩)
    ⟨hrings, h⟩ hcall).2

end Live
end BufferManager

/-! ### Runs -/

namespace State

variable {s s' : State F α}

/-- Every buffer has one holder, every ring that is ready has its block, and every
sequence that became ready has been returned once, or is queued or waits to be. -/
structure Conserved (lib : SequenceImagePreprocess F α) (s : State F α) : Prop where
  owned : s.manager.Owned s.handed
  live : s.manager.Live lib
  once : s.manager.Accounts lib s.returned []

/-- What every step keeps. -/
structure Kept (lib : SequenceImagePreprocess F α) (s : State F α) : Prop where
  rings : s.manager.Rings lib
  named : s.manager.Named

theorem conserved_started (h : s.Started) : s.Kept lib ∧ s.Conserved lib := by
  obtain ⟨memory, rfl⟩ := h
  refine ⟨⟨⟨List.nodup_nil, fun p hp => absurd hp List.not_mem_nil⟩, fun res hres => absurd hres List.not_mem_nil⟩,
    owned_started ⟨memory, rfl⟩, fun p hp => absurd hp List.not_mem_nil, List.Perm.refl _⟩

variable [Add F] [Mul F] [Zero α] [Add α] [Mul α] [Neg α]

/-- A call loses nothing, and nothing is left when all is cleared. -/
def StepOk (lib : SequenceImagePreprocess F α) (s : State F α) : Action F → Prop
  | .prepare batch cuda => s.manager.CallOk lib batch cuda
  | .giveBack _ => True
  | .clearAll => s.manager.readyPendings = [] ∧ readyRois lib.cfg s.manager.src2dstMap = []

theorem conserved_step {a : Action F} (hkept : s.Kept lib) (h : s.Conserved lib) (hlib : lib.Fresh)
    (hv : lib.cfg.Valid) (hs : s.step lib a = some s') :
    s'.Kept lib ∧ (s'.Conserved lib ↔ s.StepOk lib a) := by
  have howned := owned_step h.owned hlib hs
  have hrings := rings_step hkept.rings hv hs
  cases a with
  | prepare batch cuda =>
    obtain ⟨r, hcall, rfl⟩ := Option.map_eq_some_iff.mp hs
    have hlive := h.live.prepareTensorData hkept.rings hv hcall
    obtain ⟨more, hmore, haccount, hnamed⟩ := h.once.prepareTensorData hkept.rings hkept.named hv hcall
    rw [List.append_nil] at haccount
    refine ⟨⟨hrings, hnamed⟩, fun hc => ?_, fun hok => ⟨howned, hlive, ?_⟩⟩
    · exact hmore.mp (haccount.lost_eq_nil_iff.mp hc.once)
    · exact haccount.lost_eq_nil_iff.mpr (hmore.mpr hok)
  | giveBack buf =>
    obtain ⟨-, rfl⟩ := giveBack_eq hs
    exact ⟨⟨hrings, hkept.named⟩, iff_of_true ⟨howned, h.live, h.once⟩ trivial⟩
  | clearAll =>
    obtain rfl := Option.some.inj hs
    refine ⟨⟨hrings, fun res hres => absurd hres List.not_mem_nil⟩, fun hc => ?_, fun hok => ⟨howned, ?_, ?_⟩⟩
    · have haccount : s.manager.clearAll.Accounts lib s.returned s.manager.pendingSeqs := by
        refine List.Perm.trans ?_ h.once
        rw [List.perm_iff_count]
        intro a
        show (s.returned ++ [] ++ s.manager.waiting lib ++ s.manager.pendingSeqs).count a = _
        simp only [List.count_append, List.count_nil]
        omega
      have hnone := List.flatMap_eq_nil_iff.mp (haccount.lost_eq_nil_iff.mp hc.once)
      refine ⟨List.eq_nil_iff_forall_not_mem.mpr fun res hres => hkept.named res hres (hnone res hres),
        List.filter_eq_nil_iff.mpr fun p hp hready => ?_⟩
      have hlive := hc.live p hp (by simpa using hready)
      cases hlive
    · intro p hp hready
      have hmem : p ∈ readyRois lib.cfg s.manager.src2dstMap := List.mem_filter.mpr ⟨hp, by simpa using hready⟩
      rw [hok.2] at hmem
      cases hmem
    · have honce := h.once
      unfold BufferManager.Accounts BufferManager.pendingSeqs at honce
      rw [hok.1] at honce
      exact honce

/-- No ready sequence is lost and no buffer has two holders, in every run whose
steps all lose nothing; and the first step that does not breaks it. -/
theorem conserved_run (hlib : lib.Fresh) {params : NvDsPreProcessTensorParams} {seqStride subsample : ℕ}
    (hinit : Sequence.init params seqStride subsample = .ok lib.cfg) (hr : Reach (State.step lib) (StepOk lib) Started s) :
    s.Conserved lib ∧ ∀ a s', s.step lib a = some s' → (s'.Conserved lib ↔ s.StepOk lib a) := by
  have hv := (SequenceConfig.of_init hinit).1
  have hrun : s.Kept lib ∧ s.Conserved lib := by
    refine Reach.invariant (I := fun s => s.Kept lib ∧ s.Conserved lib) (fun s h => conserved_started h)
      (fun s a s' h hok hs => ?_) hr
    have hstep := conserved_step h.1 h.2 hlib hv hs
    exact ⟨hstep.1, hstep.2.mpr hok⟩
  exact ⟨hrun.2, fun a s' hs => (conserved_step hrun.1 hrun.2 hlib hv hs).2⟩

instance (a : Action F) : Decidable (s.StepOk lib a) :=
  match a with
  | .prepare batch cuda => inferInstanceAs (Decidable (s.manager.CallOk lib batch cuda))
  | .giveBack _ => inferInstanceAs (Decidable True)
  | .clearAll => decidable_of_iff (s.manager.readyPendings.length = 0 ∧
      (readyRois lib.cfg s.manager.src2dstMap).length = 0) (by simp [StepOk])

/-- Sequences of one frame of one pixel, and batches of one sequence. -/
def single : SequenceConfig := ⟨Sample.params [1, 1, 3, 1, 1], 1, 1, 3, 1, 1, 3, 1, 0⟩

theorem init_single : Sequence.init (Sample.params [1, 1, 3, 1, 1]) 1 0 = .ok single := rfl

open Sample in
/-- Two sources in turn. -/
theorem conserved_run_single :
    let s := (exec (State.step (library single)) (StepOk (library single)) (init fun _ => 0)
      [call [picture 0 0 1 7], call [picture 1 0 1 8]]).get (by decide +kernel)
    s.returned = [0, 1] ∧ s.Conserved (library single) ∧
      ∀ a s', s.step (library single) a = some s' → (s'.Conserved (library single) ↔ s.StepOk (library single) a) :=
  ⟨by decide +kernel, conserved_run (fresh single) init_single (Reach.get_exec ⟨_, rfl⟩ _)⟩

open Sample in
/-- Two sources at once: the sequence of the first one is dropped. -/
theorem two_at_once_lost : Sequence.init (params [1, 1, 3, 1, 1]) 1 0 = .ok single ∧ (library single).Fresh ∧
    ∃ s : State ℤ ℤ, Reach (State.step (library single)) anyStep Started s ∧ s.manager.numReady = 2 ∧
      s.returned = [1] ∧ s.manager.pendingSeqs = [] ∧ s.manager.waiting (library single) = [] ∧
      ¬ s.Conserved (library single) := by
  refine ⟨init_single, fresh single, _, Reach.get_exec (s := init fun _ => 0)
    (l := [call [picture 0 0 1 7, picture 1 0 1 8]]) ⟨_, rfl⟩ (by decide +kernel), by decide +kernel, by decide +kernel,
    by decide +kernel, by decide +kernel, fun hc => ?_⟩
  exact absurd hc.once.length_eq (by decide +kernel)

end State
end Sequence
end DeepStream
