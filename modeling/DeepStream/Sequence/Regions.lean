/-
# Where the regions are

Every region has a part of its block to itself, as long as the bytes of the parts
are counted without wrapping around, and the blocks have different buffers. What
is written for one region is not in another, nor in a batch that is queued.
-/
import DeepStream.Sequence.Ownership
import DeepStream.Sequence.Rings

namespace DeepStream
namespace Sequence
namespace BufferManager

variable {F α : Type*} {lib : SequenceImagePreprocess F α} {s s' : BufferManager F α}

/-- The key of each region, its block and where it is in the block. -/
def sites (s : BufferManager F α) : List (SourceKey × ℕ × ℕ) :=
  s.src2dstMap.map fun p => (p.1, p.2.block, p.2.blockOffset)

theorem length_sites (s : BufferManager F α) : s.sites.length = s.src2dstMap.length := List.length_map _

structure Placed (lib : SequenceImagePreprocess F α) (s : BufferManager F α) : Prop where
  addr_nodup : (s.accumulateBlocks.map (·.addr)).Nodup
  addr_lt : ∀ block ∈ s.accumulateBlocks, block.addr < s.nextBlock
  inUse_le : ∀ block ∈ s.accumulateBlocks,
    block.inUseBatchSize ≤ lib.cfg.maxBatch ∧ block.inUseBatchSize ≤ s.sites.length
  block_lt : ∀ site ∈ s.sites, site.2.1 < s.nextBlock
  offset : ∀ site ∈ s.sites, ∀ block ∈ s.accumulateBlocks, block.addr = site.2.1 →
    ∃ i < block.inUseBatchSize, site.2.2 = i * lib.cfg.perBatchBytes
  apart : ∀ site ∈ s.sites, ∀ site' ∈ s.sites, site.2 = site'.2 → site.1 = site'.1

/-- The regions of a block are counted in 32 bits. -/
def Fits (lib : SequenceImagePreprocess F α) (n : ℕ) : Prop := min lib.cfg.maxBatch n * lib.cfg.perBatchBytes ≤ 2 ^ 32

instance (n : ℕ) : Decidable (Fits lib n) := inferInstanceAs (Decidable (_ ≤ _))

theorem Fits.mono {m n : ℕ} (h : Fits lib n) (hmn : m ≤ n) : Fits lib m :=
  Nat.le_trans (Nat.mul_le_mul_right _ (by omega)) h

/-- No part of a block that is within reach wraps around. -/
theorem Fits.offset_mod {n i : ℕ} (h : Fits lib n) (hmax : i < lib.cfg.maxBatch) (hi : i < n)
    (hpos : 0 < lib.cfg.perBatchBytes) : i * lib.cfg.perBatchBytes % 2 ^ 32 = i * lib.cfg.perBatchBytes := by
  apply Nat.mod_eq_of_lt
  calc i * lib.cfg.perBatchBytes < min lib.cfg.maxBatch n * lib.cfg.perBatchBytes :=
        Nat.mul_lt_mul_of_pos_right (by omega) hpos
    _ ≤ 2 ^ 32 := h

namespace Placed

theorem of_perm (h : s.Placed lib) (hsites : s'.sites.Perm s.sites) (hblocks : s'.accumulateBlocks = s.accumulateBlocks)
    (hnext : s'.nextBlock = s.nextBlock) : s'.Placed lib := by
  refine ⟨?_, ?_, ?_, ?_, ?_, ?_⟩
  · rw [hblocks]
    exact h.addr_nodup
  · rw [hblocks, hnext]
    exact h.addr_lt
  · rw [hblocks, hsites.length_eq]
    exact h.inUse_le
  · rw [hnext]
    exact fun site hsite => h.block_lt site (hsites.mem_iff.mp hsite)
  · rw [hblocks]
    exact fun site hsite => h.offset site (hsites.mem_iff.mp hsite)
  · exact fun site hsite site' hsite' => h.apart site (hsites.mem_iff.mp hsite) site' (hsites.mem_iff.mp hsite')

theorem sites_addRoi (lib : SequenceImagePreprocess F α) (s : BufferManager F α) (key : SourceKey)
    (u : NvDsPreProcessUnit F) : (s.addRoi lib key u).sites.length = s.sites.length + 1 := by
  obtain ⟨b, -, -, hperm⟩ := Rings.src2dstMap_addRoi lib s key u
  rw [length_sites, length_sites, hperm.length_eq, List.length_cons]

/-- The next part of the last block. -/
theorem placeRoi (h : s.Placed lib) {block : FullBatchBlock} {blocks : List FullBatchBlock}
    (hblocks : s.accumulateBlocks = block :: blocks) (hroom : block.inUseBatchSize < lib.cfg.maxBatch)
    (hfits : Fits lib (s.sites.length + 1)) (hpos : 0 < lib.cfg.perBatchBytes) (key : SourceKey)
    (u : NvDsPreProcessUnit F) : (s.placeRoi lib block blocks key u).Placed lib := by
  have hmem : block ∈ s.accumulateBlocks := hblocks ▸ List.mem_cons_self
  have hinUse := h.inUse_le block hmem
  have hoffset : lib.cfg.perBatchBytes * block.inUseBatchSize % 2 ^ 32 = block.inUseBatchSize * lib.cfg.perBatchBytes := by
    rw [Nat.mul_comm]
    exact hfits.offset_mod hroom (by omega) hpos
  have hsites : (s.placeRoi lib block blocks key u).sites.Perm
      ((key, block.addr, block.inUseBatchSize * lib.cfg.perBatchBytes) :: s.sites) := by
    rw [← hoffset]
    exact (emplace_perm _ _ _).map _
  have hold : ∀ b ∈ block :: blocks, b ∈ s.accumulateBlocks := fun b hb => hblocks ▸ hb
  have haddrs := h.addr_nodup
  rw [hblocks] at haddrs
  -- what was there before is in another part
  have hfree : ∀ site ∈ s.sites, site.2.1 = block.addr →
      site.2.2 ≠ block.inUseBatchSize * lib.cfg.perBatchBytes := by
    intro site hsite haddr heq
    obtain ⟨i, hi, hoff⟩ := h.offset site hsite block hmem haddr.symm
    have := Nat.eq_of_mul_eq_mul_right hpos (hoff.symm.trans heq)
    omega
  refine ⟨haddrs, ?_, ?_, ?_, ?_, ?_⟩
  · intro b hb
    rcases List.mem_cons.mp hb with rfl | hrest
    · exact h.addr_lt block hmem
    · exact h.addr_lt b (hold b (List.mem_cons_of_mem _ hrest))
  · intro b hb
    rw [hsites.length_eq, List.length_cons]
    rcases List.mem_cons.mp hb with rfl | hrest
    · exact ⟨hroom, Nat.succ_le_succ hinUse.2⟩
    · have hb := h.inUse_le b (hold b (List.mem_cons_of_mem _ hrest))
      exact ⟨hb.1, Nat.le_succ_of_le hb.2⟩
  · intro site hsite
    rcases List.mem_cons.mp (hsites.mem_iff.mp hsite) with rfl | hs
    · exact h.addr_lt block hmem
    · exact h.block_lt site hs
  · intro site hsite b hb haddr
    rcases List.mem_cons.mp (hsites.mem_iff.mp hsite) with rfl | hs
    · rcases List.mem_cons.mp hb with rfl | hrest
      · exact ⟨block.inUseBatchSize, Nat.lt_succ_self _, rfl⟩
      · exact absurd (List.mem_map.mpr ⟨b, hrest, haddr⟩) (List.nodup_cons.mp haddrs).1
    · rcases List.mem_cons.mp hb with rfl | hrest
      · obtain ⟨i, hi, hoff⟩ := h.offset site hs block hmem haddr
        exact ⟨i, Nat.lt_succ_of_lt hi, hoff⟩
      · exact h.offset site hs b (hold b (List.mem_cons_of_mem _ hrest)) haddr
  · intro site hsite site' hsite' heq
    rcases List.mem_cons.mp (hsites.mem_iff.mp hsite) with rfl | hs <;>
      rcases List.mem_cons.mp (hsites.mem_iff.mp hsite') with rfl | hs'
    · rfl
    · exact absurd (congrArg Prod.snd heq).symm (hfree site' hs' (congrArg Prod.fst heq).symm)
    · exact absurd (congrArg Prod.snd heq) (hfree site hs (congrArg Prod.fst heq))
    · exact h.apart site hs site' hs' heq

theorem addRoi (h : s.Placed lib) (hv : lib.cfg.Valid) (hfits : Fits lib (s.sites.length + 1))
    (hpos : 0 < lib.cfg.perBatchBytes) (key : SourceKey) (u : NvDsPreProcessUnit F) : (s.addRoi lib key u).Placed lib := by
  rcases addRoi_cases lib s key u with ⟨block, blocks, hblocks, hroom, heq⟩ | heq
  · rw [heq]
    exact h.placeRoi hblocks hroom hfits hpos key u
  · rw [heq]
    -- a block with an address of its own, and no region in it
    have hnew : ({ (s.acquire lib).2 with
        nextBlock := s.nextBlock + 1
        accumulateBlocks := ⟨s.nextBlock, (s.acquire lib).1, 0⟩ :: s.accumulateBlocks } : BufferManager F α).Placed lib := by
      refine ⟨List.nodup_cons.mpr ⟨fun hmem => ?_, h.addr_nodup⟩, ?_, ?_, fun site hsite => ?_, ?_, h.apart⟩
      · obtain ⟨block, hblock, haddr⟩ := List.mem_map.mp hmem
        have haddr : block.addr = s.nextBlock := haddr
        exact absurd (h.addr_lt block hblock) (by omega)
      · intro block hblock
        rcases List.mem_cons.mp hblock with rfl | hold
        · exact Nat.lt_succ_self _
        · exact Nat.lt_succ_of_lt (h.addr_lt block hold)
      · intro block hblock
        rcases List.mem_cons.mp hblock with rfl | hold
        · exact ⟨Nat.zero_le _, Nat.zero_le _⟩
        · exact h.inUse_le block hold
      · exact Nat.lt_succ_of_lt (h.block_lt site hsite)
      · intro site hsite block hblock haddr
        rcases List.mem_cons.mp hblock with rfl | hold
        · have haddr : s.nextBlock = site.2.1 := haddr
          exact absurd (h.block_lt site hsite) (by omega)
        · exact h.offset site hsite block hold haddr
    exact hnew.placeRoi rfl hv.maxBatch_pos hfits hpos key u

section
variable [Add F] [Mul F]

theorem sites_buildRoiBlocks (lib : SequenceImagePreprocess F α) (s : BufferManager F α) (us : List (NvDsPreProcessUnit F)) :
    s.sites.length ≤ (BufferManager.buildRoiBlocks lib us s).sites.length := by
  refine buildRoiBlocks_invariant (I := fun m => s.sites.length ≤ m.sites.length) (fun {m u} hm _ => ?_) (Nat.le_refl _)
  rw [sites_addRoi]
  exact Nat.le_succ_of_le hm

/-- What every new region keeps whose part does not wrap around. -/
theorem buildRoiBlocks_fits {I : BufferManager F α → Prop}
    (hstep : ∀ {m u}, I m → Fits lib (m.sites.length + 1) → m.findRoi (getKey lib.int64 u.roiMeta) = none →
      I (m.addRoi lib (getKey lib.int64 u.roiMeta) u)) :
    ∀ {us : List (NvDsPreProcessUnit F)} {s : BufferManager F α}, I s →
      Fits lib (BufferManager.buildRoiBlocks lib us s).sites.length → I (BufferManager.buildRoiBlocks lib us s)
  | [], _, h, _ => h
  | u :: us, s, h, hfits => by
    rw [BufferManager.buildRoiBlocks] at hfits ⊢
    refine buildRoiBlocks_fits hstep ?_ hfits
    split at hfits
    · rename_i hknown
      rw [if_pos hknown]
      exact h
    · rename_i hnew
      rw [if_neg hnew]
      have hlen := sites_buildRoiBlocks lib (s.addRoi lib (getKey lib.int64 u.roiMeta) u) us
      rw [sites_addRoi] at hlen
      exact hstep h (hfits.mono hlen) (Option.not_isSome_iff_eq_none.mp hnew)

end

theorem setRoi {key : SourceKey} {b b' : RoiProcessedBuf F} (h : s.Placed lib) (hrings : s.Rings lib)
    (hroi : s.findRoi key = some b) (hblock : b'.block = b.block) (hoffset : b'.blockOffset = b.blockOffset) :
    (s.setRoi key b').Placed lib := by
  obtain ⟨rest, -, hold, hnew⟩ := setRoi_perm hrings.keys hroi b'
  refine h.of_perm ?_ rfl rfl
  have hsame : ((key, b') :: rest).map (fun p => (p.1, p.2.block, p.2.blockOffset)) =
      ((key, b) :: rest).map fun p => (p.1, p.2.block, p.2.blockOffset) := by
    rw [List.map_cons, List.map_cons, hblock, hoffset]
  exact (hnew.map _).trans ((List.Perm.of_eq hsame).trans (hold.map _).symm)

/-- What the loop over the regions leaves alone. -/
theorem roiCases {copy : Bool} {b : RoiProcessedBuf F} {filling : Option (Filling F)}
    {r : Bool × RoiProcessedBuf F × Option (Filling F) × BufferManager F α} (hr : RoiCases lib s copy b filling r) :
    r.2.1.block = b.block ∧ r.2.1.blockOffset = b.blockOffset ∧ r.2.2.2.accumulateBlocks = s.accumulateBlocks ∧
      r.2.2.2.nextBlock = s.nextBlock ∧ r.2.2.2.accepted = s.accepted ∧ r.2.2.2.arrived = s.arrived := by
  have hkept : ∀ {fill s₁}, s.startFilling lib filling = (fill, s₁) →
      s₁.accumulateBlocks = s.accumulateBlocks ∧ s₁.nextBlock = s.nextBlock ∧ s₁.accepted = s.accepted ∧
        s₁.arrived = s.arrived := by
    intro fill s₁ hstart
    obtain ⟨out, hout⟩ := startFilling_frame lib s filling
    rw [hstart] at hout
    obtain rfl : s₁ = { s with out := out } := hout
    exact ⟨rfl, rfl, rfl, rfl⟩
  cases hr with
  | idle hready => exact ⟨rfl, rfl, rfl, rfl, rfl, rfl⟩
  | failed hready hstart hcopy => exact ⟨rfl, rfl, hkept hstart⟩
  | @added fill s₁ block hready hstart hcopy hblock hstride hroom =>
    have hs₁ := hkept hstart
    exact ⟨rfl, rfl, hs₁⟩
  | @full fill s₁ block hready hstart hcopy hblock hstride hfull =>
    have hs₁ := hkept hstart
    exact ⟨rfl, rfl, hs₁⟩

theorem collectReady {copy : SourceKey → Bool} {r : Bool × BufferManager F α} (h : s.Placed lib)
    (hcollect : s.collectReady lib copy = some r) :
    r.2.Placed lib ∧ r.2.sites = s.sites ∧ r.2.accepted = s.accepted ∧ r.2.arrived = s.arrived := by
  obtain ⟨ok, l, filling, s₁, hrois, hend⟩ := collectReady_cases hcollect
  obtain ⟨mid, rest, rfl, ⟨hsites, hblocks, hnext, haccepted, harrived⟩, -⟩ := collectRois_invariant
    (J := fun before after _ m => (before ++ after).map (fun p => (p.1, p.2.block, p.2.blockOffset)) = s.sites ∧
      m.accumulateBlocks = s.accumulateBlocks ∧ m.nextBlock = s.nextBlock ∧ m.accepted = s.accepted ∧
      m.arrived = s.arrived)
    (fun hJ hr => by
      obtain ⟨hblock, hoffset, h1, h2, h3, h4⟩ := roiCases hr
      refine ⟨?_, h1.trans hJ.2.1, h2.trans hJ.2.2.1, h3.trans hJ.2.2.2.1, h4.trans hJ.2.2.2.2⟩
      rw [← hJ.1]
      simp [hblock, hoffset])
    [] ⟨rfl, rfl, rfl, rfl, rfl⟩ hrois
  have hend' : r.2.src2dstMap = mid ++ rest ∧ r.2.accumulateBlocks = s₁.accumulateBlocks ∧
      r.2.nextBlock = s₁.nextBlock ∧ r.2.accepted = s₁.accepted ∧ r.2.arrived = s₁.arrived := by
    rcases hend with ⟨rfl, rfl⟩ | ⟨fill, rfl, ⟨rfl, rfl⟩ | ⟨rfl, rfl⟩⟩ <;> exact ⟨rfl, rfl, rfl, rfl, rfl⟩
  obtain ⟨hmap, hb, hn, hacc, harr⟩ := hend'
  have hsites' : r.2.sites = s.sites := by
    rw [sites, hmap]
    exact hsites
  exact ⟨h.of_perm (.of_eq hsites') (hb.trans hblocks) (hn.trans hnext), hsites', hacc.trans haccepted,
    harr.trans harrived⟩

/-! ### What is apart -/

theorem mem_of_findBlock {addr : ℕ} {block : FullBatchBlock} (h : s.findBlock addr = some block) :
    block ∈ s.accumulateBlocks ∧ block.addr = addr :=
  ⟨List.mem_of_find?_eq_some h, by simpa using List.find?_some h⟩

/-- Two regions are in different parts of a block, or in blocks with different
buffers. -/
theorem apart_regions {others : List ℕ} {p q : SourceKey × RoiProcessedBuf F} {block block' : FullBatchBlock}
    (h : s.Placed lib) (howned : s.Owned others) (hp : p ∈ s.src2dstMap) (hq : q ∈ s.src2dstMap) (hne : p.1 ≠ q.1)
    (hblock : s.findBlock p.2.block = some block) (hblock' : s.findBlock q.2.block = some block') :
    Ptr.Apart ⟨block.buf, p.2.blockOffset⟩ ⟨block'.buf, q.2.blockOffset⟩ lib.cfg.perBatchBytes := by
  obtain ⟨hmem, haddr⟩ := mem_of_findBlock hblock
  obtain ⟨hmem', haddr'⟩ := mem_of_findBlock hblock'
  intro hbuf
  have hbufs : (s.accumulateBlocks.map (·.buf)).Nodup := by
    have hnodup := howned.held_nodup
    rw [bufs, List.append_assoc] at hnodup
    exact (List.nodup_append.mp hnodup).1
  obtain rfl : block = block' := List.inj_on_of_nodup_map hbufs hmem hmem' hbuf
  obtain ⟨i, -, hi⟩ := h.offset _ (List.mem_map_of_mem hp) block hmem haddr
  obtain ⟨j, -, hj⟩ := h.offset _ (List.mem_map_of_mem hq) block hmem haddr'
  have hij : i ≠ j := by
    rintro rfl
    refine hne (h.apart _ (List.mem_map_of_mem hp) _ (List.mem_map_of_mem hq) ?_)
    exact Prod.ext (haddr.symm.trans haddr') (hi.trans hj.symm)
  simp only at hi hj
  rcases Nat.lt_or_gt_of_ne hij with hlt | hlt
  · left
    have hle := Nat.mul_le_mul_right lib.cfg.perBatchBytes hlt
    rw [Nat.succ_mul] at hle
    simp only [hi, hj]
    exact hle
  · right
    have hle := Nat.mul_le_mul_right lib.cfg.perBatchBytes hlt
    rw [Nat.succ_mul] at hle
    simp only [hi, hj]
    exact hle

/-- A block's buffer is not that of another holder. -/
theorem buf_ne {others : List ℕ} {addr buf : ℕ} {block : FullBatchBlock} (howned : s.Owned others)
    (hblock : s.findBlock addr = some block) (hbuf : buf ∈ s.readyPendings.map (·.readyBuf) ++ others) :
    block.buf ≠ buf := by
  have hnodup := howned.held_nodup
  rw [bufs, List.append_assoc] at hnodup
  exact (List.nodup_append.mp hnodup).2.2 _ (List.mem_map_of_mem (mem_of_findBlock hblock).1) _ hbuf

end Placed
end BufferManager
end Sequence
end DeepStream
