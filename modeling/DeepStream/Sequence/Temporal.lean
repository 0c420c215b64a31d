/-
# The frames of a sequence that is returned

The ring of a region holds the pictures of the last frames that were accepted for
it. A ready sequence is copied out from the oldest one on, so that every sequence
of a batch that is returned is that of the last frames of its region of interest,
in the order in which they came.
-/
import DeepStream.Lib.Window
import DeepStream.Sequence.Conservation

namespace DeepStream
namespace Sequence

variable {F α : Type*} [Add F] [Mul F] [Zero α] [Add α] [Mul α] [Neg α] {lib : SequenceImagePreprocess F α}

/-! ### Slots -/

/-- The slot `k` of the sequence at `base` has the frame's picture. -/
def SlotHolds (lib : SequenceImagePreprocess F α) (m : Memory α) (base : Ptr) (k : ℕ) (f : Frame F) : Prop :=
  ∀ c < lib.cfg.channels, ∀ y < lib.cfg.height, ∀ x < lib.cfg.width,
    m (base.add (lib.cfg.place c k y x)) = lib.value f c y x

section
variable {m m' : Memory α} {base base' : Ptr} {k : ℕ} {f : Frame F}

omit [Add F] [Mul F] in
theorem SlotHolds.congr (h : SlotHolds lib m base k f) (hreg : lib.cfg.Regular) (hv : lib.cfg.Valid)
    (hk : k < lib.cfg.seqSize) (hsame : ∀ i < lib.cfg.perBatchBytes, m' (base.add i) = m (base.add i)) :
    SlotHolds lib m' base k f := by
  intro c hc y hy x hx
  rw [hsame _ (hreg.place_lt hv hc hk hy hx)]
  exact h c hc y hy x hx

/-- The memory after a frame was written to slot `k` of the sequence at `base`. -/
def stored (lib : SequenceImagePreprocess F α) (f : Frame F) (base : Ptr) (k : ℕ) (m : Memory α) : Memory α :=
  preprocessNCDHW (lib.value f) lib.cfg.channels lib.cfg.height lib.cfg.width lib.cfg.seqSize
    (base.add (k * lib.cfg.hwBytes)) m

omit [Add F] [Mul F] in
/-- The slot that is written, and no other. -/
theorem stored_writes (hreg : lib.cfg.Regular) (hv : lib.cfg.Valid) (hk : k < lib.cfg.seqSize) :
    Writes lib.cfg.seqSize (SlotHolds lib m base) (SlotHolds lib (stored lib f base k m) base) k f := by
  refine ⟨fun c hc y hy x hx => preprocessNCDHW_apply hreg hv hc hy hx, fun j hj hjk g hg c hc y hy x hx => ?_⟩
  rw [stored, preprocessNCDHW_of_ne hreg hv]
  · exact hg c hc y hy x hx
  · intro c' hc' y' hy' x' hx' heq
    have hplace : lib.cfg.place c j y x = lib.cfg.place c' k y' x' := by
      simpa using congrArg Ptr.off heq
    exact hjk (hreg.place_inj hv hj hk hy hy' hx hx' hplace).2.1

omit [Add F] [Mul F] in
/-- A sequence that does not overlap keeps its pictures. -/
theorem stored_apart (hreg : lib.cfg.Regular) (hv : lib.cfg.Valid) (hk : k < lib.cfg.seqSize)
    (hapart : base.Apart base' lib.cfg.perBatchBytes) {i : ℕ} (hi : i < lib.cfg.perBatchBytes) :
    stored lib f base k m (base'.add i) = m (base'.add i) :=
  preprocessNCDHW_of_ne hreg hv fun _ hc _ hy _ hx =>
    (hapart.ne (hreg.place_lt hv hc hk hy hx) hi).symm

end

/-! ### Rings -/

def framesOf (lib : SequenceImagePreprocess F α) (key : SourceKey) (log : List (Frame F)) : List (Frame F) :=
  log.filter (lib.key · = key)

/-- The ring has the last frames of its region. -/
def RingHolds (lib : SequenceImagePreprocess F α) (m : Memory α) (log : List (Frame F)) (base : Ptr) (key : SourceKey)
    (b : RoiProcessedBuf F) : Prop :=
  ∃ w, w <:+ framesOf lib key log ∧ w.length = b.processedSeq ∧
    Window lib.cfg.seqSize (SlotHolds lib m base) b.startSeqIdx w ∧ ∀ f ∈ w.getLast?, b.roiInfo = f.unit.roiMeta

section
variable {m m' : Memory α} {log : List (Frame F)} {base : Ptr} {key : SourceKey} {b : RoiProcessedBuf F} {f : Frame F}

omit [Zero α] [Add α] [Mul α] [Neg α] in
theorem framesOf_append_of_ne (h : lib.key f ≠ key) : framesOf lib key (log ++ [f]) = framesOf lib key log := by
  simp [framesOf, h]

omit [Zero α] [Add α] [Mul α] [Neg α] in
theorem framesOf_append_of_eq (h : lib.key f = key) : framesOf lib key (log ++ [f]) = framesOf lib key log ++ [f] := by
  simp [framesOf, h]

namespace RingHolds

/-- A ring without frames. -/
theorem empty (hprocessed : b.processedSeq = 0) : RingHolds lib m log base key b :=
  ⟨[], List.nil_suffix, hprocessed.symm, Window.nil, fun f hf => by cases hf⟩

theorem congr (h : RingHolds lib m log base key b) (hreg : lib.cfg.Regular) (hv : lib.cfg.Valid)
    (hsame : ∀ i < lib.cfg.perBatchBytes, m' (base.add i) = m (base.add i)) {log' : List (Frame F)}
    (hlog : framesOf lib key log' = framesOf lib key log) : RingHolds lib m' log' base key b := by
  obtain ⟨w, hw, hlen, hwindow, hroi⟩ := h
  exact ⟨w, hlog ▸ hw, hlen, hwindow.mono hv.seqSize_pos fun k hk _ hg => hg.congr hreg hv hk hsame, hroi⟩

/-- One frame more, in the slot after the last one. -/
theorem accept (h : RingHolds lib m log base key b) (hring : b.Ring lib.cfg) (hreg : lib.cfg.Regular)
    (hv : lib.cfg.Valid) (hkey : lib.key f = key) :
    RingHolds lib (stored lib f base (b.curIdx lib.cfg) m) (log ++ [f]) base key (b.accept lib.cfg f.unit) := by
  obtain ⟨w, ⟨before, hw⟩, hlen, hwindow, -⟩ := h
  have hpos := hv.seqSize_pos
  have hwrites : Writes lib.cfg.seqSize (SlotHolds lib m base)
      (SlotHolds lib (stored lib f base ((b.startSeqIdx + b.processedSeq) % lib.cfg.seqSize) m) base)
      ((b.startSeqIdx + b.processedSeq) % lib.cfg.seqSize) f := stored_writes hreg hv (Nat.mod_lt _ hpos)
  rw [RingHolds, framesOf_append_of_eq hkey, ← hw]
  rcases hring.accept_cases f.unit with ⟨hlt, heq⟩ | ⟨hfull, heq⟩
  · rw [heq]
    refine ⟨w ++ [f], ⟨before, by simp⟩, by simp [hlen], ?_, fun g hg => ?_⟩
    · rw [← hlen] at hlt hwrites
      have hpush := hwindow.push hlt hwrites
      rw [RoiProcessedBuf.curIdx, ← hlen]
      exact hpush
    · rw [List.getLast?_append] at hg
      obtain rfl : f = g := by simpa using hg
      rfl
  · rw [heq]
    refine ⟨w.drop 1 ++ [f], ⟨before ++ w.take 1, ?_⟩, ?_, ?_, fun g hg => ?_⟩
    · calc before ++ w.take 1 ++ (w.drop 1 ++ [f]) = before ++ (w.take 1 ++ w.drop 1) ++ [f] := by
            simp only [List.append_assoc]
        _ = before ++ w ++ [f] := by rw [List.take_append_drop]
    · rw [List.length_append, List.length_drop, List.length_singleton, hlen]
      show b.processedSeq - 1 + 1 = b.processedSeq
      omega
    · rw [hfull] at hwrites
      have hpush := hwindow.push_full (hlen.trans hfull) hpos hwrites
      rw [RoiProcessedBuf.curIdx, hfull]
      exact hpush
    · rw [List.getLast?_append] at hg
      obtain rfl : f = g := by simpa using hg
      rfl

/-- The oldest frames are given up. -/
theorem slide (h : RingHolds lib m log base key b) : RingHolds lib m log base key (b.slide lib.cfg) := by
  obtain ⟨w, hw, hlen, hwindow, hroi⟩ := h
  refine ⟨w.drop (min lib.cfg.seqStride b.processedSeq), (List.drop_suffix _ _).trans hw, ?_, hwindow.advance _,
    fun f hf => hroi f ?_⟩
  · rw [List.length_drop, hlen]
    rfl
  · obtain ⟨before, hbefore⟩ := List.drop_suffix (min lib.cfg.seqStride b.processedSeq) w
    rw [← hbefore, List.getLast?_append, hf]
    rfl

end RingHolds
end

/-! ### Batches -/

/-- Every sequence of a batch is that of the last frames of its region. -/
def BatchHolds (lib : SequenceImagePreprocess F α) (m : Memory α) (log : List (Frame F)) (buf : ℕ)
    (rois : List (NvDsRoiMeta F)) : Prop :=
  ∀ n roi, rois[n]? = some roi → ∃ key w, w <:+ framesOf lib key log ∧ w.length = lib.cfg.seqSize ∧
    (∀ i (h : i < w.length), SlotHolds lib m ⟨buf, n * lib.cfg.perBatchBytes⟩ i w[i]) ∧
    ∀ f ∈ w.getLast?, roi = f.unit.roiMeta

section
variable {m m' : Memory α} {log : List (Frame F)} {buf : ℕ} {rois : List (NvDsRoiMeta F)}

theorem BatchHolds.congr (h : BatchHolds lib m log buf rois) (hreg : lib.cfg.Regular) (hv : lib.cfg.Valid)
    (hsame : ∀ n < rois.length, ∀ i < lib.cfg.perBatchBytes,
      m' ⟨buf, n * lib.cfg.perBatchBytes + i⟩ = m ⟨buf, n * lib.cfg.perBatchBytes + i⟩) :
    BatchHolds lib m' log buf rois := by
  intro n roi hn
  obtain ⟨key, w, hw, hlen, hslots, hroi⟩ := h n roi hn
  have hlt : n < rois.length := (List.getElem?_eq_some_iff.mp hn).1
  exact ⟨key, w, hw, hlen, fun i hi => (hslots i hi).congr hreg hv (hlen ▸ hi) (hsame n hlt), hroi⟩

/-- The next sequence of a batch is copied from a ring that is full. -/
theorem BatchHolds.copy {key : SourceKey} {b : RoiProcessedBuf F} {src : Ptr} (h : BatchHolds lib m log buf rois)
    (hring : RingHolds lib m log src key b) (hfull : b.processedSeq = lib.cfg.seqSize) (hstart : b.startSeqIdx < lib.cfg.seqSize)
    (hreg : lib.cfg.Regular) (hv : lib.cfg.Valid) (hbuf : buf ≠ src.buf) :
    BatchHolds lib (copySequence lib.cfg ⟨buf, rois.length * lib.cfg.perBatchBytes⟩ src b.startSeqIdx m) log buf
      (rois ++ [b.roiInfo]) := by
  intro n roi hn
  by_cases hlast : n = rois.length
  · subst hlast
    obtain rfl : b.roiInfo = roi := by simpa using hn
    obtain ⟨w, hw, hlen, hwindow, hroi⟩ := hring
    rw [hfull] at hlen
    refine ⟨key, w, hw, hlen, fun i hi c hc y hy x hx => ?_, hroi⟩
    rw [copySequence_apply hreg hv hbuf hstart hc (hlen ▸ hi) hy hx]
    exact hwindow i hi c hc y hy x hx
  · have hlt : n < rois.length := by
      have hle := (List.getElem?_eq_some_iff.mp hn).1
      rw [List.length_append, List.length_singleton] at hle
      omega
    rw [List.getElem?_append_left hlt] at hn
    refine (h.congr hreg hv fun n hn i hi => copySequence_of_ne hreg hv hbuf hstart fun _ => .inl ?_) n roi hn
    exact RowMajor.lt_mul hn hi

end

/-! ### The manager -/

namespace BufferManager

variable {s s' : BufferManager F α} {others : List ℕ}

/-- Every ring whose block is there has the last frames of its region. -/
def Recorded (lib : SequenceImagePreprocess F α) (s : BufferManager F α) : Prop :=
  ∀ p ∈ s.src2dstMap, ∀ block, s.findBlock p.2.block = some block →
    RingHolds lib s.memory s.accepted ⟨block.buf, p.2.blockOffset⟩ p.1 p.2

/-- Frames that were accepted under one key are those of one region of interest. -/
def KeysApart (lib : SequenceImagePreprocess F α) (log : List (Frame F)) : Prop :=
  ∀ f ∈ log, ∀ g ∈ log, lib.key f = lib.key g → f.unit.roiMeta = g.unit.roiMeta

/-- A frame that is accepted is converted, and its key is not that of another
region of interest. -/
def FrameOk (lib : SequenceImagePreprocess F α) (s : BufferManager F α) (f : Frame F) (launch : Bool) : Prop :=
  ∀ b ∈ s.findRoi (lib.key f), ¬ b.Skips lib.cfg f.unit.frameNum →
    Converts lib f launch ∧ ∀ g ∈ s.accepted, lib.key g = lib.key f → g.unit.roiMeta = f.unit.roiMeta

/-- What holds between the parts of a call. -/
structure Steady (lib : SequenceImagePreprocess F α) (others : List ℕ) (s : BufferManager F α) : Prop where
  rings : s.Rings lib
  placed : s.Placed lib
  owned : s.Owned others
  recorded : s.Recorded lib
  keys : KeysApart lib s.accepted
  logged : s.accepted.Sublist s.arrived

namespace Recorded

variable (lib) in
omit [Add F] [Mul F] [Zero α] [Add α] [Mul α] [Neg α] in
/-- The blocks that were there keep their buffers. -/
theorem findBlock_addRoi (key : SourceKey) (u : NvDsPreProcessUnit F) {addr : ℕ}
    (haddr : addr < s.nextBlock) :
    ((s.addRoi lib key u).findBlock addr).map (·.buf) = (s.findBlock addr).map (·.buf) := by
  rcases addRoi_cases lib s key u with ⟨block, blocks, hblocks, -, heq⟩ | heq
  · rw [heq, findBlock, findBlock, hblocks]
    show (List.find? _ (_ :: blocks)).map (·.buf) = _
    by_cases hfirst : block.addr = addr
    · simp [hfirst]
    · simp [hfirst]
  · rw [heq, findBlock]
    show (List.find? _ (_ :: s.accumulateBlocks)).map (·.buf) = _
    rw [List.find?_cons_of_neg (by simpa using Nat.ne_of_gt haddr)]
    rfl

theorem addRoi (h : s.Recorded lib) (hplaced : s.Placed lib) (key : SourceKey) (u : NvDsPreProcessUnit F) :
    (s.addRoi lib key u).Recorded lib := by
  have hkept : (s.addRoi lib key u).memory = s.memory ∧ (s.addRoi lib key u).accepted = s.accepted := by
    rcases addRoi_cases lib s key u with ⟨block, blocks, -, -, heq⟩ | heq <;> rw [heq] <;> exact ⟨rfl, rfl⟩
  obtain ⟨b, -, hprocessed, hperm⟩ := Rings.src2dstMap_addRoi lib s key u
  intro p hp block hblock
  rcases List.mem_cons.mp (hperm.mem_iff.mp hp) with rfl | hold
  · exact RingHolds.empty hprocessed
  · have hlt := hplaced.block_lt _ (List.mem_map_of_mem hold)
    have hsame := findBlock_addRoi lib key u hlt
    rw [hblock] at hsame
    obtain ⟨block', hblock', hbuf⟩ := Option.map_eq_some_iff.mp hsame.symm
    have hbuf : block'.buf = block.buf := hbuf
    rw [hkept.1, hkept.2, ← hbuf]
    exact h p hold block' hblock'

end Recorded

namespace Steady

theorem addRoi (h : s.Steady lib others) (hlib : lib.Fresh) (hv : lib.cfg.Valid) (hpos : 0 < lib.cfg.perBatchBytes)
    (hfits : Fits lib (s.sites.length + 1)) {key : SourceKey} (hnew : s.findRoi key = none) (u : NvDsPreProcessUnit F) :
    (s.addRoi lib key u).Steady lib others := by
  have hkept : (s.addRoi lib key u).accepted = s.accepted ∧ (s.addRoi lib key u).arrived = s.arrived := by
    rcases addRoi_cases lib s key u with ⟨block, blocks, -, -, heq⟩ | heq <;> rw [heq] <;> exact ⟨rfl, rfl⟩
  refine ⟨h.rings.addRoi hv hnew u, h.placed.addRoi hv hfits hpos key u, h.owned.addRoi hlib key u,
    h.recorded.addRoi h.placed key u, ?_, ?_⟩
  · rw [hkept.1]
    exact h.keys
  · rw [hkept.1, hkept.2]
    exact h.logged

/-- Nothing of the frame is accepted. -/
theorem arrive (h : s.Steady lib others) (f : Frame F) :
    ({ s with arrived := s.arrived ++ [f] } : BufferManager F α).Steady lib others :=
  ⟨h.rings.of_eq rfl, h.placed.of_perm (.refl _) rfl rfl, h.owned.of_eq rfl rfl, h.recorded, h.keys,
    h.logged.trans (List.sublist_append_left _ _)⟩

/-- A frame that is accepted and converted goes into the ring of its region, and
into no other. -/
theorem stored {f : Frame F} {b : RoiProcessedBuf F} {block : FullBatchBlock} (h : s.Steady lib others)
    (hreg : lib.cfg.Regular) (hv : lib.cfg.Valid) (hroi : s.findRoi (lib.key f) = some b)
    (hblock : s.findBlock b.block = some block)
    (hkeys : ∀ g ∈ s.accepted, lib.key g = lib.key f → g.unit.roiMeta = f.unit.roiMeta) :
    ({ s.located lib f b with
      memory := stored lib f ⟨block.buf, b.blockOffset⟩ (b.curIdx lib.cfg) s.memory } : BufferManager F α).Steady lib
        others := by
  have hmem := mem_of_findRoi hroi
  have hring := h.rings.of_findRoi hroi
  have hsite := hring.accept_site f.unit
  obtain ⟨rest, hrest, hold, hnew⟩ := setRoi_perm h.rings.keys hroi (s.withFrame lib f b)
  have hset : (s.setRoi (lib.key f) (s.withFrame lib f b)).Placed lib := h.placed.setRoi h.rings hroi hsite.1 hsite.2
  refine ⟨(h.rings.setRoi hroi (h.rings.withFrame hroi)).of_eq rfl, hset.of_perm (.refl _) rfl rfl,
    h.owned.of_eq rfl rfl, ?_, ?_, ?_⟩
  · intro p hp block' hblock'
    have hblock' : s.findBlock p.2.block = some block' := hblock'
    rcases List.mem_cons.mp (hnew.mem_iff.mp hp) with rfl | hother
    · have hsame : s.findBlock (b.accept lib.cfg f.unit).block = some block' := hblock'
      rw [hsite.1, hblock] at hsame
      obtain rfl := Option.some.inj hsame
      have haccept := (h.recorded _ hmem block hblock).accept hring hreg hv rfl
      show RingHolds lib _ (s.accepted ++ [f]) ⟨block.buf, (b.accept lib.cfg f.unit).blockOffset⟩ (lib.key f) _
      rw [hsite.2]
      exact haccept
    · have hpmem := hold.mem_iff.mpr (List.mem_cons_of_mem _ hother)
      refine (h.recorded p hpmem block' hblock').congr hreg hv (fun i hi => ?_)
        (framesOf_append_of_ne fun heq => hrest p hother heq.symm)
      exact stored_apart hreg hv (Nat.mod_lt _ hv.seqSize_pos)
        (h.placed.apart_regions h.owned hmem hpmem (fun heq => hrest p hother heq.symm) hblock hblock') hi
  · intro g hg g' hg' heq
    rcases List.mem_append.mp hg with hlog | hlast <;> rcases List.mem_append.mp hg' with hlog' | hlast'
    · exact h.keys g hlog g' hlog' heq
    · obtain rfl := List.mem_singleton.mp hlast'
      exact hkeys g hlog heq
    · obtain rfl := List.mem_singleton.mp hlast
      exact (hkeys g' hlog' heq.symm).symm
    · rw [List.mem_singleton.mp hlast, List.mem_singleton.mp hlast']
  · exact h.logged.append (List.Sublist.refl _)

theorem unitCases {f : Frame F} {launch : Bool} {r : Option NvDsPreProcessStatus × BufferManager F α}
    (h : s.Steady lib others) (hreg : lib.cfg.Regular) (hv : lib.cfg.Valid) (hok : s.FrameOk lib f launch)
    (hr : UnitCases lib s f launch r) : r.2.Steady lib others := by
  cases hr with
  | unknown hroi => exact h.arrive f
  | skipped hroi hskip => exact h.arrive f
  | lost hroi hskip hblock hno => exact absurd (hok _ hroi hskip).1 hno
  | stored hroi hskip hblock hconverts => exact h.stored hreg hv hroi hblock (hok _ hroi hskip).2

end Steady

/-! ### The collection -/

/-- What holds between the rounds of the loop over the regions, of which there are
`n`. -/
structure Gathering (lib : SequenceImagePreprocess F α) (others : List ℕ) (n : ℕ)
    (before after : List (SourceKey × RoiProcessedBuf F)) (filling : Option (Filling F)) (s : BufferManager F α) :
    Prop where
  owned : s.Owned (filling.toList.map (·.buf) ++ others)
  regions : before.length + after.length = n
  ring : ∀ p ∈ before ++ after, p.2.Ring lib.cfg
  recorded : ∀ p ∈ before ++ after, ∀ block, s.findBlock p.2.block = some block →
    RingHolds lib s.memory s.accepted ⟨block.buf, p.2.blockOffset⟩ p.1 p.2
  filled : ∀ fill ∈ filling, BatchHolds lib s.memory s.accepted fill.buf fill.rois ∧ fill.rois.length ≤ before.length ∧
    fill.rois.length < lib.cfg.maxBatch
  queued : ∀ res ∈ s.readyPendings, BatchHolds lib s.memory s.accepted res.readyBuf res.rois

namespace Gathering

variable {before after : List (SourceKey × RoiProcessedBuf F)} {p : SourceKey × RoiProcessedBuf F}
  {filling : Option (Filling F)} {n : ℕ}

/-- The batch that is being filled is there. -/
theorem start (h : Gathering lib others n before after filling s) (hlib : lib.Fresh) (hv : lib.cfg.Valid)
    {fill : Filling F} {s₁ : BufferManager F α} (hstart : s.startFilling lib filling = (fill, s₁)) :
    Gathering lib others n before after (some fill) s₁ := by
  have howned := h.owned.startFilling hlib
  rw [hstart] at howned
  rcases startFilling_cases lib s filling with ⟨fill', rfl, heq⟩ | ⟨rfl, heq⟩
  · obtain ⟨rfl, rfl⟩ := Prod.mk.inj (hstart.symm.trans heq)
    exact h
  · obtain ⟨rfl, rfl⟩ := Prod.mk.inj (hstart.symm.trans heq)
    refine ⟨howned, h.regions, h.ring, h.recorded, fun fill' hfill' => ?_, h.queued⟩
    obtain rfl := Option.some.inj hfill'
    exact ⟨fun n roi hn => (by cases hn), Nat.zero_le _, hv.maxBatch_pos⟩

/-- The round is over. -/
theorem next (h : Gathering lib others n before (p :: after) filling s) {b : RoiProcessedBuf F}
    (hblock : b.block = p.2.block) (hring : b.Ring lib.cfg)
    (hholds : ∀ block, s.findBlock p.2.block = some block →
      RingHolds lib s.memory s.accepted ⟨block.buf, b.blockOffset⟩ p.1 b) :
    Gathering lib others n (before ++ [(p.1, b)]) after filling s := by
  have hsplit : ∀ q ∈ before ++ [(p.1, b)] ++ after, q = (p.1, b) ∨ q ∈ before ++ p :: after := by
    intro q hq
    simp only [List.append_assoc, List.mem_append, List.mem_cons, List.not_mem_nil, or_false] at hq
    rcases hq with hbefore | rfl | hafter
    · exact .inr (List.mem_append_left _ hbefore)
    · exact .inl rfl
    · exact .inr (List.mem_append_right _ (List.mem_cons_of_mem _ hafter))
  refine ⟨h.owned, ?_, fun q hq => ?_, fun q hq block hfind => ?_, fun fill hfill => ?_, h.queued⟩
  · have hregions := h.regions
    rw [List.length_cons] at hregions
    rw [List.length_append, List.length_singleton]
    omega
  · rcases hsplit q hq with rfl | hold
    · exact hring
    · exact h.ring q hold
  · rcases hsplit q hq with rfl | hold
    · exact hholds block (hblock ▸ hfind)
    · exact h.recorded q hold block hfind
  · obtain ⟨hbatch, hle, hlt⟩ := h.filled fill hfill
    rw [List.length_append]
    exact ⟨hbatch, Nat.le_add_right_of_le hle, hlt⟩

/-- The frames of a ring that is full are copied into the batch. -/
theorem copied {fill : Filling F} (h : Gathering lib others n before (p :: after) (some fill) s)
    (hreg : lib.cfg.Regular) (hv : lib.cfg.Valid) (hfits : Fits lib n) {block : FullBatchBlock}
    (hblock : s.findBlock p.2.block = some block) (hready : p.2.Ready lib.cfg) :
    BatchHolds lib (s.copied lib fill block p.2).memory s.accepted fill.buf (fill.rois ++ [p.2.roiInfo]) ∧
      (∀ q ∈ before ++ p :: after, ∀ block', s.findBlock q.2.block = some block' →
        RingHolds lib (s.copied lib fill block p.2).memory s.accepted ⟨block'.buf, q.2.blockOffset⟩ q.1 q.2) ∧
      ∀ res ∈ s.readyPendings, BatchHolds lib (s.copied lib fill block p.2).memory s.accepted res.readyBuf res.rois := by
  have hmem : p ∈ before ++ p :: after := List.mem_append_right _ List.mem_cons_self
  have hring := h.ring p hmem
  have howned : s.Owned (fill.buf :: others) := h.owned
  have hfull : p.2.processedSeq = lib.cfg.seqSize := Nat.le_antisymm hring.processed_le hready.1
  have hpos : 0 < lib.cfg.perBatchBytes := by
    rw [hreg.perBatchBytes_eq]
    exact Nat.mul_pos hv.channels_pos (Nat.mul_pos hv.seqSize_pos
      (Nat.mul_pos (by omega) (Nat.mul_pos hv.height_pos hv.width_pos)))
  obtain ⟨hbatch, hle, hlt⟩ := h.filled fill rfl
  have hregions := h.regions
  rw [List.length_cons] at hregions
  have hoff : fill.rois.length * lib.cfg.perBatchBytes % 2 ^ 32 = fill.rois.length * lib.cfg.perBatchBytes :=
    hfits.offset_mod hlt (by omega) hpos
  have hbuf : ∀ {addr block'}, s.findBlock addr = some block' → block'.buf ≠ fill.buf := fun hfind =>
    Placed.buf_ne howned hfind (List.mem_append_right _ List.mem_cons_self)
  -- what is in another buffer stays
  have hkept : ∀ {q : Ptr}, q.buf ≠ fill.buf → (s.copied lib fill block p.2).memory q = s.memory q := fun hne =>
    copySequence_of_ne hreg hv (hbuf hblock).symm hring.start_lt fun heq => absurd heq hne
  refine ⟨?_, fun q hq block' hblock' => ?_, fun res hres => ?_⟩
  · have hcopy := hbatch.copy (h.recorded p hmem block hblock) hfull hring.start_lt hreg hv (hbuf hblock).symm
    rw [BufferManager.copied, hoff]
    exact hcopy
  · exact (h.recorded q hq block' hblock').congr hreg hv (fun i _ => hkept (hbuf hblock')) rfl
  · have hne : res.readyBuf ≠ fill.buf := by
      have hnodup := howned.held_nodup
      exact (List.nodup_append.mp hnodup).2.2 _ (List.mem_append_right _ (List.mem_map_of_mem hres)) _
        List.mem_cons_self
    exact (h.queued res hres).congr hreg hv fun m _ i _ => hkept hne

theorem roiCases {copy : SourceKey → Bool} {r : Bool × RoiProcessedBuf F × Option (Filling F) × BufferManager F α}
    (h : Gathering lib others n before (p :: after) filling s) (hlib : lib.Fresh) (hreg : lib.cfg.Regular)
    (hv : lib.cfg.Valid) (hfits : Fits lib n) (hr : RoiCases lib s (copy p.1) p.2 filling r) :
    Gathering lib others n (before ++ [(p.1, r.2.1)]) after r.2.2.1 r.2.2.2 := by
  have hmem : p ∈ before ++ p :: after := List.mem_append_right _ List.mem_cons_self
  have hring := h.ring p hmem
  -- what holds of the state with the sequence in the batch
  have hcopied : ∀ {fill s₁ block}, s.startFilling lib filling = (fill, s₁) → s.findBlock p.2.block = some block →
      p.2.Ready lib.cfg → lib.cfg.seqStride ≠ 0 →
      (s₁.copied lib fill block p.2).Owned (fill.buf :: others) ∧
      BatchHolds lib (s₁.copied lib fill block p.2).memory s₁.accepted fill.buf (fill.add p.2).rois ∧
      fill.rois.length ≤ before.length ∧
      (before ++ [(p.1, p.2.slide lib.cfg)]).length + after.length = n ∧
      (∀ q ∈ before ++ [(p.1, p.2.slide lib.cfg)] ++ after, q.2.Ring lib.cfg) ∧
      (∀ q ∈ before ++ [(p.1, p.2.slide lib.cfg)] ++ after, ∀ block', s₁.findBlock q.2.block = some block' →
        RingHolds lib (s₁.copied lib fill block p.2).memory s₁.accepted ⟨block'.buf, q.2.blockOffset⟩ q.1 q.2) ∧
      ∀ res ∈ s₁.readyPendings, BatchHolds lib (s₁.copied lib fill block p.2).memory s₁.accepted res.readyBuf res.rois := by
    intro fill s₁ block hstart hblock hready hstride
    have h₁ := h.start hlib hv hstart
    obtain ⟨out, hout⟩ := startFilling_frame lib s filling
    rw [hstart] at hout
    obtain rfl : s₁ = { s with out := out } := hout
    obtain ⟨hbatch, hrings, hqueued⟩ := h₁.copied hreg hv hfits hblock hready
    have hafter : Gathering lib others n before (p :: after) (some fill)
        (BufferManager.copied lib { s with out := out } fill block p.2) :=
      ⟨h₁.owned, h₁.regions, h₁.ring, hrings, fun fill' hfill' => by
        obtain rfl := Option.some.inj hfill'
        obtain ⟨-, hle, hlt⟩ := h₁.filled fill rfl
        refine ⟨fun m roi hm => ?_, hle, hlt⟩
        have hlt' : m < fill.rois.length := (List.getElem?_eq_some_iff.mp hm).1
        exact hbatch m roi (by rw [List.getElem?_append_left hlt']; exact hm), hqueued⟩
    have hnext := hafter.next (b := p.2.slide lib.cfg) rfl (hring.slide hstride).1
      fun block' hblock' => (hrings p hmem block' hblock').slide
    exact ⟨h₁.owned, hbatch, (h₁.filled fill rfl).2.1, hnext.regions, hnext.ring, hnext.recorded, hqueued⟩
  cases hr with
  | idle hready => exact h.next rfl hring fun block hblock => h.recorded p hmem block hblock
  | failed hready hstart hcopy =>
    have h₁ := h.start hlib hv hstart
    exact h₁.next rfl hring fun block hblock => h₁.recorded p hmem block hblock
  | @added fill s₁ block hready hstart hcopy hblock hstride hroom =>
    obtain ⟨howned, hbatch, hle, hregions, hrings, hrecorded, hqueued⟩ := hcopied hstart hblock hready hstride
    refine ⟨howned, hregions, hrings, hrecorded, fun fill' hfill' => ?_, hqueued⟩
    obtain rfl := Option.some.inj hfill'
    refine ⟨hbatch, ?_, ?_⟩
    · simpa [Filling.add] using hle
    · simpa [Filling.add] using hroom
  | @full fill s₁ block hready hstart hcopy hblock hstride hfull =>
    obtain ⟨howned, hbatch, hle, hregions, hrings, hrecorded, hqueued⟩ := hcopied hstart hblock hready hstride
    have hpush : (s₁.copied lib fill block p.2).Owned ((fill.add p.2).buf :: others) := howned
    refine ⟨hpush.push _, hregions, hrings, hrecorded, fun fill' hfill' => (by cases hfill'), fun res hres => ?_⟩
    rcases List.mem_append.mp hres with hold | hnew
    · exact hqueued res hold
    · obtain rfl := List.mem_singleton.mp hnew
      exact hbatch

end Gathering
namespace Steady

theorem collectReady {copy : SourceKey → Bool} {r : Bool × BufferManager F α} (h : s.Steady lib others)
    (hqueued : s.readyPendings = []) (hlib : lib.Fresh) (hreg : lib.cfg.Regular) (hv : lib.cfg.Valid)
    (hfits : Fits lib s.sites.length) (hcollect : s.collectReady lib copy = some r) :
    r.2.Steady lib others ∧
      ∀ res ∈ r.2.readyPendings, BatchHolds lib r.2.memory r.2.accepted res.readyBuf res.rois := by
  obtain ⟨hplaced, -, haccepted, harrived⟩ := h.placed.collectReady hcollect
  obtain ⟨ok, l, filling, s₁, hrois, hend⟩ := collectReady_cases hcollect
  have hstart : Gathering lib others s.sites.length [] s.src2dstMap none s := by
    refine ⟨h.owned, ?_, h.rings.ring, h.recorded, fun fill hfill => (by cases hfill), fun res hres => ?_⟩
    · rw [List.length_nil, Nat.zero_add, length_sites]
    · rw [hqueued] at hres
      cases hres
  obtain ⟨mid, rest, rfl, hgather, -⟩ := collectRois_invariant (J := Gathering lib others s.sites.length)
    (fun hJ hr => hJ.roiCases hlib hreg hv hfits hr) [] hstart hrois
  have hkept : r.2.memory = s₁.memory ∧ r.2.accepted = s₁.accepted ∧ r.2.accumulateBlocks = s₁.accumulateBlocks ∧
      r.2.src2dstMap = mid ++ rest := by
    rcases hend with ⟨rfl, rfl⟩ | ⟨fill, rfl, ⟨rfl, rfl⟩ | ⟨rfl, rfl⟩⟩ <;> exact ⟨rfl, rfl, rfl, rfl⟩
  obtain ⟨hmemory, hacc, hblocks, hmap⟩ := hkept
  refine ⟨⟨h.rings.collectReady hcollect, hplaced, h.owned.collectReady hlib hcollect, fun p hp block hblock => ?_,
    haccepted ▸ h.keys, ?_⟩, fun res hres => ?_⟩
  · rw [hmemory, hacc]
    rw [findBlock, hblocks] at hblock
    exact hgather.recorded p (hmap ▸ hp) block hblock
  · rw [haccepted, harrived]
    exact h.logged
  · rw [hmemory, hacc]
    rcases hend with ⟨rfl, rfl⟩ | ⟨fill, rfl, ⟨rfl, rfl⟩ | ⟨rfl, rfl⟩⟩
    · exact hgather.queued res hres
    · rcases List.mem_append.mp hres with hold | hnew
      · exact hgather.queued res hold
      · obtain rfl := List.mem_singleton.mp hnew
        exact (hgather.filled fill rfl).1
    · exact hgather.queued res hres

theorem popReady (h : s.Steady lib others) :
    s.popReady.2.Steady lib (s.popReady.1.toList.map (·.readyBuf) ++ others) ∧ s.popReady.2.readyPendings = [] ∧
      s.popReady.2.memory = s.memory ∧ s.popReady.2.accepted = s.accepted ∧
      ∀ res ∈ s.popReady.1, res ∈ s.readyPendings := by
  have howned := h.owned.popReady
  unfold BufferManager.popReady at howned ⊢
  cases hlast : s.readyPendings.getLast? with
  | none =>
    refine ⟨h, List.getLast?_eq_none_iff.mp hlast, rfl, rfl, fun res hres => by cases hres⟩
  | some res =>
    rw [hlast] at howned
    refine ⟨⟨h.rings.of_eq rfl, h.placed.of_perm (.refl _) rfl rfl, howned, h.recorded, h.keys, h.logged⟩, rfl, rfl, rfl,
      fun res' hres' => ?_⟩
    obtain rfl := Option.some.inj hres'
    exact List.mem_of_getLast? hlast

end Steady

/-! ### Calls -/

/-- The parts of the blocks do not wrap around, every frame that is accepted is
converted and its key tells its region of interest, and CUDA does not fail when
sequences are collected. -/
def CallRecords (lib : SequenceImagePreprocess F α) (s : BufferManager F α) (batch : NvDsPreProcessBatch F)
    (cuda : Cuda) : Prop :=
  Fits lib (buildRoiBlocks lib batch.units s).sites.length ∧
    (Begins batch cuda → Along lib (FrameOk lib) cuda.launch batch.frames (buildRoiBlocks lib batch.units s) ∧
      ∀ r ∈ prepareUnits lib cuda.launch batch.frames (buildRoiBlocks lib batch.units s), r.1 = none →
        (∀ p ∈ readyRois lib.cfg r.2.src2dstMap, cuda.copy p.1 = true) ∧ cuda.synchronize = true)

/-- As `Steady`, with nothing queued and a number of regions. -/
structure Between (lib : SequenceImagePreprocess F α) (others : List ℕ) (n : ℕ) (s : BufferManager F α) : Prop where
  steady : s.Steady lib others
  idle : s.readyPendings = []
  regions : s.sites.length = n

theorem Between.unitCases {n : ℕ} {f : Frame F} {launch : Bool} {r : Option NvDsPreProcessStatus × BufferManager F α}
    (h : s.Between lib others n) (hreg : lib.cfg.Regular) (hv : lib.cfg.Valid) (hok : s.FrameOk lib f launch)
    (hr : UnitCases lib s f launch r) : r.2.Between lib others n := by
  have hlen : ∀ b, (s.located lib f b).sites.length = s.sites.length := by
    intro b
    simp [sites, located, setRoi]
  refine ⟨h.steady.unitCases hreg hv hok hr, ?_, ?_⟩
  · cases hr <;> exact h.idle
  · cases hr with
    | unknown hroi => exact h.regions
    | skipped hroi hskip => exact h.regions
    | lost hroi hskip hblock hno => exact (hlen _).trans h.regions
    | stored hroi hskip hblock hconverts => exact (hlen _).trans h.regions

/-- What a call returns has the last frames of its regions. -/
theorem prepareTensorData_records {batch : NvDsPreProcessBatch F} {cuda : Cuda}
    {r : NvDsPreProcessStatus × Option (ReadyResult F) × BufferManager F α} (h : s.Steady lib others)
    (hidle : s.readyPendings = []) (hlib : lib.Fresh) (hreg : lib.cfg.Regular) (hv : lib.cfg.Valid)
    (hpos : 0 < lib.cfg.perBatchBytes) (hok : s.CallRecords lib batch cuda)
    (hcall : s.prepareTensorData lib batch cuda = some r) :
    r.2.2.Steady lib (r.2.1.toList.map (·.readyBuf) ++ others) ∧ r.2.2.readyPendings = [] ∧
      ∀ res ∈ r.2.1, BatchHolds lib r.2.2.memory r.2.2.accepted res.readyBuf res.rois := by
  have hbuilt : (buildRoiBlocks lib batch.units s).Steady lib others ∧
      (buildRoiBlocks lib batch.units s).readyPendings = [] := by
    refine Placed.buildRoiBlocks_fits (I := fun m => m.Steady lib others ∧ m.readyPendings = []) ?_ ⟨h, hidle⟩ hok.1
    intro m u hm hfits hnew
    refine ⟨hm.1.addRoi hlib hv hpos hfits hnew u, ?_⟩
    rcases addRoi_cases lib m (getKey lib.int64 u.roiMeta) u with ⟨block, blocks, -, -, heq⟩ | heq <;> rw [heq] <;>
      exact hm.2
  have hunits : ∀ {st m}, Begins batch cuda →
      prepareUnits lib cuda.launch batch.frames (buildRoiBlocks lib batch.units s) = some (st, m) →
      m.Between lib others (buildRoiBlocks lib batch.units s).sites.length := fun hbegins hunits =>
    prepareUnits_along (I := Between lib others _) (fun hm hP hr => hm.unitCases hreg hv hP hr)
      ⟨hbuilt.1, hbuilt.2, rfl⟩ (hok.2 hbegins).1 hunits
  have hnone : ∀ res ∈ (none : Option (ReadyResult F)), BatchHolds lib r.2.2.memory r.2.2.accepted res.readyBuf
      res.rois := fun res hres => by cases hres
  cases prepareTensorData_cases hcall with
  | refused hno => exact ⟨h, hidle, hnone⟩
  | noDevice hno => exact ⟨hbuilt.1, hbuilt.2, hnone⟩
  | stopped hbegins hstopped => exact ⟨(hunits hbegins hstopped).steady, (hunits hbegins hstopped).idle, hnone⟩
  | @failed m m' ok hbegins hdone hcollect hno =>
    obtain ⟨hcopies, hsync⟩ := (hok.2 hbegins).2 _ hdone rfl
    obtain ⟨ok', l, filling, s₁, hrois, hend⟩ := collectReady_cases hcollect
    have hempty : fillCount (none : Option (Filling F)) < lib.cfg.maxBatch := hv.maxBatch_pos
    have hall := (Accounts.collectRois_counts hv.maxBatch_pos hempty (iff_of_true rfl rfl) hrois).2.1.mpr hcopies
    have hsame : ok = ok' := by
      rcases hend with ⟨-, heq⟩ | ⟨fill, -, ⟨rfl, heq⟩ | ⟨rfl, heq⟩⟩ <;> exact congrArg Prod.fst heq
    exact absurd ⟨hsame.trans hall, hsync⟩ hno
  | @popped m m' st hbegins hdone hcollect hsync =>
    have hm := hunits hbegins hdone
    obtain ⟨hsteady, hqueued⟩ := hm.steady.collectReady hm.idle hlib hreg hv (hm.regions ▸ hok.1) hcollect
    obtain ⟨hpopped, hidle', hmemory, haccepted, hres⟩ := hsteady.popReady
    refine ⟨hpopped, hidle', fun res hmem => ?_⟩
    show BatchHolds lib m'.popReady.2.memory m'.popReady.2.accepted res.readyBuf res.rois
    rw [hmemory, haccepted]
    exact hqueued res (hres res hmem)

end BufferManager

/-! ### Runs -/

namespace State

variable {s s' : State F α}

/-- Calls record what they accept. -/
def TemporalOk (lib : SequenceImagePreprocess F α) (s : State F α) : Action F → Prop
  | .prepare batch cuda => s.manager.CallRecords lib batch cuda
  | .giveBack _ => True
  | .clearAll => True

/-- Every sequence of the batch that was returned has the pictures of the last
frames that were accepted of its region of interest, one after the other. -/
def Temporal [DecidableEq F] (lib : SequenceImagePreprocess F α) (s : State F α) : Prop :=
  ∀ res ∈ s.last, ∀ n roi, res.rois[n]? = some roi →
    ∃ w, w <:+ s.manager.accepted.filter (·.unit.roiMeta = roi) ∧ w.length = lib.cfg.seqSize ∧
      ∀ i (h : i < w.length), SlotHolds lib s.manager.memory ⟨res.readyBuf, n * lib.cfg.perBatchBytes⟩ i w[i]

omit [Zero α] [Add α] [Mul α] [Neg α] in
/-- Frames with one key are those with one region of interest. -/
theorem framesOf_eq [DecidableEq F] {log w : List (Frame F)} {key : SourceKey} {f : Frame F}
    (hkeys : BufferManager.KeysApart lib log) (hw : w <:+ framesOf lib key log) (hlast : f ∈ w.getLast?) :
    framesOf lib key log = log.filter (·.unit.roiMeta = f.unit.roiMeta) := by
  obtain ⟨hlog, hkey⟩ := List.mem_filter.mp (hw.subset (List.mem_of_getLast? hlast))
  have hkey : lib.key f = key := by simpa using hkey
  refine List.filter_congr fun g hg => ?_
  rw [decide_eq_decide]
  refine ⟨fun heq => hkeys g hg f hlog (heq.trans hkey.symm), fun heq => ?_⟩
  rw [← hkey, SequenceImagePreprocess.key, SequenceImagePreprocess.key, heq]

theorem temporal_of_holds [DecidableEq F] (hv : lib.cfg.Valid) (hkeys : BufferManager.KeysApart lib s.manager.accepted)
    (h : ∀ res ∈ s.last, BatchHolds lib s.manager.memory s.manager.accepted res.readyBuf res.rois) : s.Temporal lib := by
  intro res hres n roi hn
  obtain ⟨key, w, hw, hlen, hslots, hroi⟩ := h res hres n roi hn
  have hne : w ≠ [] := by
    rintro rfl
    exact absurd hv.seqSize_pos (hlen ▸ Nat.lt_irrefl 0)
  have hlast : w.getLast hne ∈ w.getLast? := List.getLast?_eq_getLast_of_ne_nil hne
  rw [framesOf_eq hkeys hw hlast, ← hroi _ hlast] at hw
  exact ⟨w, hw, hlen, hslots⟩

theorem steady_step {a : Action F} (h : s.manager.Steady lib s.handed) (hidle : s.manager.readyPendings = [])
    (hlib : lib.Fresh) (hreg : lib.cfg.Regular) (hv : lib.cfg.Valid) (hpos : 0 < lib.cfg.perBatchBytes)
    (hok : s.TemporalOk lib a) (hs : s.step lib a = some s') :
    s'.manager.Steady lib s'.handed ∧ s'.manager.readyPendings = [] ∧
      ∀ res ∈ s'.last, BatchHolds lib s'.manager.memory s'.manager.accepted res.readyBuf res.rois := by
  have howned := owned_step h.owned hlib hs
  have hrings := rings_step h.rings hv hs
  cases a with
  | prepare batch cuda =>
    obtain ⟨r, hcall, rfl⟩ := Option.map_eq_some_iff.mp hs
    exact BufferManager.prepareTensorData_records h hidle hlib hreg hv hpos hok hcall
  | giveBack buf =>
    obtain ⟨-, rfl⟩ := giveBack_eq hs
    exact ⟨⟨hrings, h.placed.of_perm (.refl _) rfl rfl, howned, h.recorded, h.keys, h.logged⟩, hidle,
      fun res hres => by cases hres⟩
  | clearAll =>
    obtain rfl := Option.some.inj hs
    refine ⟨⟨hrings, ?_, howned, fun p hp block hblock => (by cases hblock), h.keys, h.logged⟩, rfl,
      fun res hres => by cases hres⟩
    exact ⟨List.nodup_nil, fun block hblock => absurd hblock List.not_mem_nil,
      fun block hblock => absurd hblock List.not_mem_nil, h.placed.block_lt,
      fun site hsite block hblock => absurd hblock List.not_mem_nil, h.placed.apart⟩

/-- In every run whose calls record what they accept, every batch that is returned
has the last frames of its regions of interest, in the order in which they came. -/
theorem temporal_run [DecidableEq F] (hlib : lib.Fresh) {params : NvDsPreProcessTensorParams} {seqStride subsample : ℕ}
    (hinit : Sequence.init params seqStride subsample = .ok lib.cfg) (hreg : lib.cfg.Regular)
    (hr : Reach (State.step lib) (TemporalOk lib) Started s) :
    s.Temporal lib ∧ s.manager.accepted.Sublist s.manager.arrived := by
  have hv := (SequenceConfig.of_init hinit).1
  have hpos : 0 < lib.cfg.perBatchBytes := by
    rw [hreg.perBatchBytes_eq]
    exact Nat.mul_pos hv.channels_pos (Nat.mul_pos hv.seqSize_pos
      (Nat.mul_pos (by omega) (Nat.mul_pos hv.height_pos hv.width_pos)))
  have hrun : s.manager.Steady lib s.handed ∧ s.manager.readyPendings = [] ∧
      ∀ res ∈ s.last, BatchHolds lib s.manager.memory s.manager.accepted res.readyBuf res.rois := by
    refine Reach.invariant (I := fun s => s.manager.Steady lib s.handed ∧ s.manager.readyPendings = [] ∧
      ∀ res ∈ s.last, BatchHolds lib s.manager.memory s.manager.accepted res.readyBuf res.rois)
      (fun s h => ?_) (fun s a s' h hok hs => steady_step h.1 h.2.1 hlib hreg hv hpos hok hs) hr
    have howned := owned_started h
    obtain ⟨memory, rfl⟩ := h
    refine ⟨⟨⟨List.nodup_nil, fun p hp => absurd hp List.not_mem_nil⟩, ?_, howned,
      fun p hp => absurd hp List.not_mem_nil, fun f hf => absurd hf List.not_mem_nil, List.Sublist.refl _⟩, rfl,
      fun res hres => by cases hres⟩
    exact ⟨List.nodup_nil, fun block hblock => absurd hblock List.not_mem_nil,
      fun block hblock => absurd hblock List.not_mem_nil, fun site hsite => absurd hsite List.not_mem_nil,
      fun site hsite => absurd hsite List.not_mem_nil, fun site hsite => absurd hsite List.not_mem_nil⟩
  exact ⟨temporal_of_holds hv hrun.1.keys hrun.2.2, hrun.1.logged⟩

instance [DecidableEq F] (m : BufferManager F α) (f : Frame F) (launch : Bool) : Decidable (m.FrameOk lib f launch) :=
  Option.decidableForallMem _

instance [DecidableEq F] (a : Action F) : Decidable (s.TemporalOk lib a) :=
  match a with
  | .prepare batch _ => inferInstanceAs (Decidable (BufferManager.Fits lib
      (BufferManager.buildRoiBlocks lib batch.units s.manager).sites.length ∧ (_ → _ ∧ _)))
  | .giveBack _ => inferInstanceAs (Decidable True)
  | .clearAll => inferInstanceAs (Decidable True)

/-- Sequences of two frames of one pixel. -/
def pair : SequenceConfig := ⟨Sample.params [1, 2, 3, 1, 1], 1, 2, 3, 1, 1, 6, 1, 0⟩

theorem init_pair : Sequence.init (Sample.params [1, 2, 3, 1, 1]) 1 0 = .ok pair := rfl

open Sample in
/-- Three frames of a source, and two sequences. -/
theorem temporal_run_pair :
    let s := (exec (State.step (library pair)) (TemporalOk (library pair)) (init fun _ => 0)
      [call [picture 0 0 1 7], call [picture 0 1 1 8], call [picture 0 2 1 9]]).get (by decide +kernel)
    s.returned = [0, 1] ∧ s.Temporal (library pair) ∧ s.manager.accepted.Sublist s.manager.arrived :=
  ⟨by decide +kernel, temporal_run (fresh pair) init_pair ⟨rfl, by decide, rfl⟩ (Reach.get_exec ⟨_, rfl⟩ _)⟩

open Sample in
/-- Two regions of interest with one key share a ring, and its sequence has a frame
of each of them. -/
theorem key_shared : Sequence.init (params [1, 2, 3, 1, 1]) 1 0 = .ok pair ∧ (library pair).Fresh ∧
    ∃ s : State ℤ ℤ, Reach (State.step (library pair)) anyStep Started s ∧
      s.last.map (·.rois) = some [(picture 0 1 2 8).roiMeta] ∧ ¬ s.Temporal (library pair) := by
  have hlast : (exec (State.step (library pair)) anyStep (init fun _ => 0)
      [call [picture 0 0 1 7], call [picture 0 1 2 8]]).map (fun s => s.last.map (·.rois)) =
      some (some [(picture 0 1 2 8).roiMeta]) := by decide +kernel
  have hcount : (exec (State.step (library pair)) anyStep (init fun _ => 0)
      [call [picture 0 0 1 7], call [picture 0 1 2 8]]).map
        (fun s => (s.manager.accepted.filter (·.unit.roiMeta = (picture 0 1 2 8).roiMeta)).length) = some 1 := by
    decide +kernel
  obtain ⟨s, hs, hrois⟩ := Option.map_eq_some_iff.mp hlast
  rw [hs, Option.map_some, Option.some.injEq] at hcount
  refine ⟨init_pair, fresh pair, s, Reach.of_exec _ (.init ⟨_, rfl⟩) hs, hrois, fun h => ?_⟩
  obtain ⟨res, hres, hroi⟩ := Option.map_eq_some_iff.mp hrois
  obtain ⟨w, hw, hlen, -⟩ := h res hres 0 _ (congrArg (·[0]?) hroi)
  have hle := hw.length_le
  rw [hlen, hcount] at hle
  exact absurd hle (by decide)

end State
end Sequence
end DeepStream
