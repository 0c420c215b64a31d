/-
# What identifies a region

The key of a region packs its two corners into two integers, a digit of base 10000 for each
coordinate. The second corner is not that of the region: its top is multiplied by its height. From
the product the height can be told, also if it was rounded, unless the top is 0: regions at the upper
edge that differ in their height only have one key, and one sequence buffer.
-/
import DeepStream.Lib.Binary32
import DeepStream.Sequence.Rings
import Mathlib.Tactic.Linarith

namespace DeepStream
namespace Sequence

/-- The edges of the region are below `kMaxX`. -/
structure InRange (r : NvDsRoiMeta Binary32) : Prop where
  right : r.left.val + r.width.val < 10000
  bottom : r.top.val + r.height.val < 10000

/-- The regions differ in their height only, and are at the upper edge. -/
structure Collide (r r' : NvDsRoiMeta Binary32) : Prop where
  sourceId : r.sourceId = r'.sourceId
  left : r.left = r'.left
  width : r.width = r'.width
  top : r.top.val = 0
  top' : r'.top.val = 0
  height : r.height ≠ r'.height

/-- The whole part of a float. -/
def int64 (x : Binary32) : ℤ := x.val

/-! ### Keys -/

theorem mul_lt {y h : ℕ} (hlt : y + h < 10000) : y * h < 2 ^ 25 := by
  have hsq : 4 * (y * h) ≤ (y + h) * (y + h) := by
    zify
    nlinarith [sq_nonneg ((y : ℤ) - h)]
  have hle : (y + h) * (y + h) ≤ 9999 * 9999 := Nat.mul_le_mul (by omega) (by omega)
  omega

/-- The height can be told from the rounded product. -/
theorem height_le {y h h' : ℕ} (hy : 0 < y) (hlt : y + h < 10000) (hlt' : y + h' < 10000)
    (heq : Binary32.round (y * h) = Binary32.round (y * h')) : h ≤ h' := by
  by_contra hgt
  have hmul : y * h' + y ≤ y * h := by
    rw [← Nat.mul_succ]
    exact Nat.mul_le_mul_left y (not_le.mp hgt)
  rcases Nat.lt_or_ge (y * h) (2 ^ 24) with hexact | hlarge
  · rw [Binary32.round_eq hexact, Binary32.round_eq (by omega)] at heq
    omega
  · have hy2 : 2 < y := by
      by_contra hle
      have : y * h ≤ 2 * 10000 := Nat.mul_le_mul (not_lt.mp hle) (by omega)
      omega
    have hulp : Binary32.ulp (y * h) ≤ 2 ^ 1 := Binary32.ulp_le (mul_lt hlt)
    have hulp' : Binary32.ulp (y * h') ≤ 2 ^ 1 := Binary32.ulp_le (mul_lt hlt')
    have hround := Binary32.round_lt (y * h)
    have hround' := Binary32.round_lt (y * h')
    omega

theorem height_eq {y h h' : ℕ} (hy : 0 < y) (hlt : y + h < 10000) (hlt' : y + h' < 10000)
    (heq : Binary32.round (y * h) = Binary32.round (y * h')) : h = h' :=
  Nat.le_antisymm (height_le hy hlt hlt' heq) (height_le hy hlt' hlt heq.symm)

theorem InRange.getKey_eq {r : NvDsRoiMeta Binary32} (h : InRange r) : getKey int64 r =
    (r.sourceId, (r.left.val : ℤ) * 10000 + r.top.val * 100000000,
      ((r.left.val + r.width.val : ℕ) : ℤ) * 10000 + (Binary32.round (r.top.val * r.height.val) : ℕ) * 100000000) := by
  have hright : int64 (r.left + r.width) = ((r.left.val + r.width.val : ℕ) : ℤ) := by
    rw [Binary32.add_eq, int64, Binary32.ofNat, Binary32.round_eq (h.right.trans (by norm_num))]
  have hprod : int64 (r.top * r.height) = (Binary32.round (r.top.val * r.height.val) : ℕ) := by
    rw [Binary32.mul_eq, int64, Binary32.ofNat]
  rw [getKey, hright, hprod]
  rfl

/-- Regions have one key exactly if they are the same or collide. -/
theorem getKey_eq_iff {r r' : NvDsRoiMeta Binary32} (h : InRange r) (h' : InRange r') :
    getKey int64 r = getKey int64 r' ↔ r = r' ∨ Collide r r' := by
  have hright := h.right
  have hright' := h'.right
  rw [h.getKey_eq, h'.getKey_eq]
  constructor
  · intro heq
    obtain ⟨hsource, hxy⟩ := Prod.mk.inj heq
    obtain ⟨hxy0, hxy1⟩ := Prod.mk.inj hxy
    have hleft : r.left.val = r'.left.val := by omega
    have htop : r.top.val = r'.top.val := by omega
    have hwidth : r.width.val = r'.width.val := by omega
    have hround : Binary32.round (r.top.val * r.height.val) = Binary32.round (r'.top.val * r'.height.val) := by omega
    have hval {a b : Binary32} (hab : a.val = b.val) : a = b := by
      cases a
      cases b
      exact congrArg _ hab
    by_cases hheight : r.height = r'.height
    · left
      cases r
      cases r'
      simp only [NvDsRoiMeta.mk.injEq]
      exact ⟨hsource, hval hleft, hval htop, hval hwidth, hheight⟩
    · right
      have hzero : r.top.val = 0 := by
        by_contra hne
        have hbottom' := h'.bottom
        rw [← htop] at hround hbottom'
        exact hheight (hval (height_eq (Nat.pos_of_ne_zero hne) h.bottom hbottom' hround))
      exact ⟨hsource, hval hleft, hval hwidth, hzero, htop ▸ hzero, hheight⟩
  · rintro (rfl | hc)
    · rfl
    · rw [hc.sourceId, hc.left, hc.width, hc.top, hc.top', Nat.zero_mul, Nat.zero_mul]

/-! ### Sequence buffers -/

namespace BufferManager

variable {F α : Type*} {lib : SequenceImagePreprocess F α}

theorem mem_keys_addRoi (lib : SequenceImagePreprocess F α) (s : BufferManager F α) (key : SourceKey)
    (u : NvDsPreProcessUnit F) {k : SourceKey} :
    k ∈ (s.addRoi lib key u).src2dstMap.map Prod.fst ↔ k = key ∨ k ∈ s.src2dstMap.map Prod.fst := by
  obtain ⟨b, -, -, hperm⟩ := Rings.src2dstMap_addRoi lib s key u
  rw [(hperm.map Prod.fst).mem_iff, List.map_cons, List.mem_cons]

/-- The regions have a buffer each, for their key. -/
theorem mem_keys_buildRoiBlocks [Add F] [Mul F] {u : NvDsPreProcessUnit F} :
    ∀ {us : List (NvDsPreProcessUnit F)} {s : BufferManager F α}, u ∈ us →
      getKey lib.int64 u.roiMeta ∈ (buildRoiBlocks lib us s).src2dstMap.map Prod.fst
  | v :: us, s, hu => by
    rw [buildRoiBlocks]
    rcases List.mem_cons.mp hu with rfl | hu
    · refine buildRoiBlocks_invariant (I := fun m => getKey lib.int64 u.roiMeta ∈ m.src2dstMap.map Prod.fst)
        (fun hm _ => (mem_keys_addRoi lib _ _ _).mpr (.inr hm)) ?_
      split
      · rename_i hknown
        obtain ⟨b, hroi⟩ := Option.isSome_iff_exists.mp hknown
        exact List.mem_map_of_mem (mem_of_findRoi hroi)
      · exact (mem_keys_addRoi lib _ _ _).mpr (.inl rfl)
    · exact mem_keys_buildRoiBlocks hu

end BufferManager

/-- The sequence buffer of both regions. -/
def ShareBuffer {α : Type*} (s : BufferManager Binary32 α) (r r' : NvDsRoiMeta Binary32) : Prop :=
  ∃ p ∈ s.src2dstMap, p.1 = getKey int64 r ∧ p.1 = getKey int64 r'

/-- **Regions of a configuration have keys and sequence buffers of their own exactly if no two of
them collide**, whatever other regions there are. -/
theorem regions_apart_iff {α : Type*} (lib : SequenceImagePreprocess Binary32 α) (hlib : lib.int64 = int64)
    {us : List (NvDsPreProcessUnit Binary32)} (hin : ∀ u ∈ us, InRange u.roiMeta) (s : BufferManager Binary32 α) :
    ((∀ u ∈ us, ∀ u' ∈ us, getKey int64 u.roiMeta = getKey int64 u'.roiMeta → u.roiMeta = u'.roiMeta) ↔
      ∀ u ∈ us, ∀ u' ∈ us, ¬ Collide u.roiMeta u'.roiMeta) ∧
    ((∀ u ∈ us, ∀ u' ∈ us,
        ShareBuffer (BufferManager.buildRoiBlocks lib us s) u.roiMeta u'.roiMeta → u.roiMeta = u'.roiMeta) ↔
      ∀ u ∈ us, ∀ u' ∈ us, ¬ Collide u.roiMeta u'.roiMeta) := by
  have hkeys : (∀ u ∈ us, ∀ u' ∈ us, getKey int64 u.roiMeta = getKey int64 u'.roiMeta → u.roiMeta = u'.roiMeta) ↔
      ∀ u ∈ us, ∀ u' ∈ us, ¬ Collide u.roiMeta u'.roiMeta := by
    refine forall₂_congr fun u hu => forall₂_congr fun u' hu' => ?_
    rw [getKey_eq_iff (hin u hu) (hin u' hu')]
    refine ⟨fun h hc => hc.height ?_, fun h heq => heq.resolve_right h⟩
    rw [h (.inr hc)]
  refine ⟨hkeys, Iff.trans (forall₂_congr fun u hu => forall₂_congr fun u' hu' => ?_) hkeys⟩
  refine imp_congr_left ⟨fun ⟨p, _, hp, hp'⟩ => hp.symm.trans hp', fun heq => ?_⟩
  have hmem : getKey lib.int64 u.roiMeta ∈ (BufferManager.buildRoiBlocks lib us s).src2dstMap.map Prod.fst :=
    BufferManager.mem_keys_buildRoiBlocks hu
  rw [hlib] at hmem
  obtain ⟨p, hp, hkey⟩ := List.mem_map.mp hmem
  exact ⟨p, hp, hkey, hkey.trans heq⟩

/-- A region of stream 0. -/
def regionAt (left top width height : ℕ) : NvDsRoiMeta Binary32 := ⟨0, ⟨left⟩, ⟨top⟩, ⟨width⟩, ⟨height⟩⟩

def unitOf (r : NvDsRoiMeta Binary32) : NvDsPreProcessUnit Binary32 := ⟨0, r, 0, 0, 0, fun _ => 0⟩

def binaryLibrary : SequenceImagePreprocess Binary32 ℤ where
  cfg := (Sample.library ⟨Sample.params [1, 1, 3, 1, 1], 1, 1, 3, 1, 1, 3, 1, 0⟩).cfg
  norm := ⟨fun n => n, fun _ => 1, fun _ => 0⟩
  int64 := int64
  acquire := fun out => out.foldr max 0 + 1

theorem regions_apart_iff_pair : getKey int64 (regionAt 0 0 5 5) ≠ getKey int64 (regionAt 0 5 5 5) := by
  intro hkey
  have hin : ∀ u ∈ [unitOf (regionAt 0 0 5 5), unitOf (regionAt 0 5 5 5)], InRange u.roiMeta := by
    rw [List.forall_mem_cons, List.forall_mem_singleton]
    exact ⟨⟨by decide, by decide⟩, ⟨by decide, by decide⟩⟩
  have happart : ∀ u ∈ [unitOf (regionAt 0 0 5 5), unitOf (regionAt 0 5 5 5)],
      ∀ u' ∈ [unitOf (regionAt 0 0 5 5), unitOf (regionAt 0 5 5 5)], ¬ Collide u.roiMeta u'.roiMeta := by
    intro u hu u' hu' hc
    simp only [List.mem_cons, List.not_mem_nil, or_false] at hu hu'
    rcases hu with rfl | rfl <;> rcases hu' with rfl | rfl
    · exact hc.height rfl
    · exact absurd hc.top' (by decide)
    · exact absurd hc.top (by decide)
    · exact hc.height rfl
  have hsame := (regions_apart_iff binaryLibrary rfl hin (.init fun _ => 0)).1.mpr happart
    (unitOf (regionAt 0 0 5 5)) List.mem_cons_self (unitOf (regionAt 0 5 5 5))
    (List.mem_cons_of_mem _ List.mem_cons_self) hkey
  exact absurd (congrArg (·.top) hsame) (by decide)

/-- Two regions at the upper edge that have different heights. -/
theorem regions_at_edge : getKey int64 (regionAt 0 0 100 100) = getKey int64 (regionAt 0 0 100 200) ∧
    regionAt 0 0 100 100 ≠ regionAt 0 0 100 200 ∧
    ShareBuffer (BufferManager.buildRoiBlocks binaryLibrary
      [unitOf (regionAt 0 0 100 100), unitOf (regionAt 0 0 100 200)] (.init fun _ => 0))
      (regionAt 0 0 100 100) (regionAt 0 0 100 200) := by
  have hkey : getKey int64 (regionAt 0 0 100 100) = getKey int64 (regionAt 0 0 100 200) :=
    (getKey_eq_iff ⟨by decide, by decide⟩ ⟨by decide, by decide⟩).mpr
      (.inr ⟨rfl, rfl, rfl, rfl, rfl, by decide⟩)
  have hmem : getKey int64 (regionAt 0 0 100 100) ∈ (BufferManager.buildRoiBlocks binaryLibrary
      [unitOf (regionAt 0 0 100 100), unitOf (regionAt 0 0 100 200)] (.init fun _ => 0)).src2dstMap.map Prod.fst :=
    BufferManager.mem_keys_buildRoiBlocks (u := unitOf (regionAt 0 0 100 100)) List.mem_cons_self
  obtain ⟨p, hp, heq⟩ := List.mem_map.mp hmem
  exact ⟨hkey, by decide, p, hp, heq, heq.trans hkey⟩

end Sequence
end DeepStream
