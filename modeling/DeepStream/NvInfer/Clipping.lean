/-
# Detections that are clipped to a region

With `clip-object-outside-roi` a detection is to be attached when it meets the region of the
preprocessing, as what of it is in the region and in the frame. With
`crop-objects-to-roi-boundary` what is above and below the band of its class is cut too,
and what is right of the frame; without it, the box has to be in the band.

On the near sides `attach_metadata_detector` only moves the box: `left` is overwritten
before `width` is made smaller by the difference. So a box is right where nothing is cut
off at the left and the top, or where it is cut again at the far side of the frame.
-/
import DeepStream.NvInfer.Detections

namespace DeepStream
namespace NvInfer
namespace Detector

/-! ### What is to be attached -/

section Spec

variable (nvinfer : GstNvInfer) (frame : GstNvInferFrame) (filterParams : GstNvInferDetectionFilterParams)
  (box : RectParams)

/-- The left edge of what is kept of a scaled box. -/
def keptLeft : ℚ := max (max box.left frame.roi.left) 0

/-- The top edge in the region and in the frame. -/
def roiTopEdge : ℚ := max (max box.top frame.roi.top) 0

def keptTop : ℚ :=
  if nvinfer.cropObjectsToRoiBoundary then max (roiTopEdge frame box) filterParams.roiTopOffset else roiTopEdge frame box

/-- The right edge in the region. -/
def roiRightEdge : ℚ := min box.right frame.roi.right

def keptRight : ℚ :=
  if nvinfer.cropObjectsToRoiBoundary then min (roiRightEdge frame box) frame.surfWidth else roiRightEdge frame box

def roiBottomEdge : ℚ := min box.bottom frame.roi.bottom

/-- The bottom of the band of the class. -/
def bandEdge : ℚ := frame.surfHeight - filterParams.roiBottomOffset

def keptBottom : ℚ :=
  if nvinfer.cropObjectsToRoiBoundary then min (roiBottomEdge frame box) (bandEdge frame filterParams)
  else roiBottomEdge frame box

/-- What is kept of a scaled box. -/
def kept : RectParams where
  left := keptLeft frame box
  top := keptTop nvinfer frame filterParams box
  width := keptRight nvinfer frame box - keptLeft frame box
  height := keptBottom nvinfer frame filterParams box - keptTop nvinfer frame filterParams box

/-- Something is kept, and without cropping it is in the band. -/
structure Meets : Prop where
  width : keptLeft frame box < keptRight nvinfer frame box
  height : keptTop nvinfer frame filterParams box < keptBottom nvinfer frame filterParams box
  band : nvinfer.cropObjectsToRoiBoundary = false →
    filterParams.roiTopOffset ≤ roiTopEdge frame box ∧ roiBottomEdge frame box ≤ bandEdge frame filterParams

/-- What is attached for a detection of a class with this filter: an object when the box meets
the region, and what is kept of the box. -/
structure ClippedFor (obj : NvDsInferObject) (attached : Option NvDsObjectMeta) : Prop where
  iff_meets : attached.isSome ↔ Meets nvinfer frame filterParams (scaleBox frame obj.rect)
  rect : ∀ objMeta, attached = some objMeta → objMeta.rectParams = kept nvinfer frame filterParams (scaleBox frame obj.rect)
  classId : ∀ objMeta, attached = some objMeta →
    0 ≤ objMeta.classId ∧ objMeta.classId < nvinfer.perClassDetectionFilterParams.length

def Clipped (obj : NvDsInferObject) : Prop :=
  ∃ filterParams attached, filterParamsOf nvinfer obj.classIndex = some filterParams ∧
    attachMetadataDetector nvinfer frame obj = some attached ∧ ClippedFor nvinfer frame filterParams obj attached

/-! ### When it is attached so -/

/-- The box, cut at the right and the bottom of the region. -/
def farCut : RectParams :=
  { box with width := roiRightEdge frame box - box.left, height := roiBottomEdge frame box - box.top }

/-- The class is not filtered out, and the box that is cut so has a size within the limits. -/
def Passes (obj : NvDsInferObject) : Prop :=
  filteredOut nvinfer obj.classIndex = false ∧ sizeFits filterParams (farCut frame (scaleBox frame obj.rect))

/-- Nothing is cut off at the left and at the top, or what is left reaches to where a box that
is cropped is cut again. -/
def EdgesKept : Prop :=
  (keptLeft frame box = box.left ∨ nvinfer.cropObjectsToRoiBoundary = true ∧ frame.surfWidth ≤ roiRightEdge frame box) ∧
    (keptTop nvinfer frame filterParams box = box.top ∨
      nvinfer.cropObjectsToRoiBoundary = true ∧ bandEdge frame filterParams ≤ roiBottomEdge frame box)

/-- Without cropping, the box that was cut at the far sides is in the band, moved to the region. -/
def InBand : Prop :=
  nvinfer.cropObjectsToRoiBoundary = false →
    filterParams.roiTopOffset ≤ roiTopEdge frame box ∧
      roiTopEdge frame box + (farCut frame box).height ≤ bandBottom frame filterParams

/-- The box meets the region, passes the filter and keeps its edges; or it does neither
meet the region nor pass. -/
def ClippedWhen (obj : NvDsInferObject) : Prop :=
  ∃ filterParams, filterParamsOf nvinfer obj.classIndex = some filterParams ∧
    let box := scaleBox frame obj.rect
    (Meets nvinfer frame filterParams box ∧ Passes nvinfer frame filterParams obj ∧ EdgesKept nvinfer frame filterParams box ∨
      ¬ Meets nvinfer frame filterParams box ∧
        ¬ (Passes nvinfer frame filterParams obj ∧ InBand nvinfer frame filterParams box))

end Spec

/-! ### What is attached -/

section Attach

variable {nvinfer : GstNvInfer} {frame : GstNvInferFrame} {filterParams : GstNvInferDetectionFilterParams}

/-- The box that is attached: cut at the far sides, and moved at the near ones. -/
def movedBox (nvinfer : GstNvInfer) (frame : GstNvInferFrame) (filterParams : GstNvInferDetectionFilterParams)
    (box : RectParams) : RectParams where
  left := keptLeft frame box
  top := keptTop nvinfer frame filterParams box
  width :=
    if nvinfer.cropObjectsToRoiBoundary then
      min (keptLeft frame box + (farCut frame box).width) frame.surfWidth - keptLeft frame box
    else (farCut frame box).width
  height :=
    if nvinfer.cropObjectsToRoiBoundary then
      min (keptTop nvinfer frame filterParams box + (farCut frame box).height) (bandBottom frame filterParams) -
        keptTop nvinfer frame filterParams box
    else (farCut frame box).height

theorem frameBox_eq (hclip : nvinfer.inputTensorFromMeta = true ∧ nvinfer.clipObjectOutsideRoi = true)
    (obj : RectParams) : frameBox nvinfer frame obj =
      { farCut frame (scaleBox frame obj) with
        left := keptLeft frame (scaleBox frame obj)
        top := roiTopEdge frame (scaleBox frame obj) } := by
  rw [frameBox, hclip.1, hclip.2, Bool.and_self, if_pos rfl, clipToRoi_eq, notNegative_eq]
  rfl

theorem attach_spec (hclip : nvinfer.inputTensorFromMeta = true ∧ nvinfer.clipObjectOutsideRoi = true)
    {obj : NvDsInferObject} (hclass : filterParamsOf nvinfer obj.classIndex = some filterParams) :
    ∃ attached, attachMetadataDetector nvinfer frame obj = some attached ∧
      (attached.isSome ↔ Passes nvinfer frame filterParams obj ∧ InBand nvinfer frame filterParams (scaleBox frame obj.rect)) ∧
      ∀ objMeta, attached = some objMeta → objMeta.classId = obj.classIndex ∧
        objMeta.rectParams = movedBox nvinfer frame filterParams (scaleBox frame obj.rect) := by
  have hparent : ∀ r, toParent nvinfer frame r = r := fun r => by
    rw [toParent, hclip.1, Bool.not_true, Bool.and_false, if_neg Bool.false_ne_true]
  have hfits : sizeFits filterParams (frameBox nvinfer frame obj.rect) ↔
      sizeFits filterParams (farCut frame (scaleBox frame obj.rect)) := by
    rw [frameBox_eq hclip]
    exact sizeFits_congr rfl rfl
  refine ⟨_, by rw [attachMetadataDetector, hclass, Option.map_some], ?_⟩
  dsimp only
  simp only [hparent]
  by_cases hpass : Passes nvinfer frame filterParams obj
  · rw [if_pos ⟨hpass.1, hfits.mpr hpass.2⟩, frameBox_eq hclip]
    generalize scaleBox frame obj.rect = box
    cases hcrop : nvinfer.cropObjectsToRoiBoundary with
    | true =>
      have hmoved : cropToBoundary nvinfer frame filterParams
          { farCut frame box with left := keptLeft frame box, top := roiTopEdge frame box } =
          some (movedBox nvinfer frame filterParams box) := by
        rw [cropToBoundary_crop hcrop, movedBox, keptTop, hcrop, if_pos rfl, if_pos rfl, if_pos rfl]
        rfl
      rw [hmoved]
      refine ⟨iff_of_true rfl ⟨hpass, fun h => ?_⟩, ?_⟩
      · rw [hcrop] at h
        cases h
      · rintro _ ⟨⟩
        exact ⟨rfl, rfl⟩
    | false =>
      have hmoved : { farCut frame box with left := keptLeft frame box, top := roiTopEdge frame box } =
          movedBox nvinfer frame filterParams box := by
        rw [movedBox, keptTop, hcrop, if_neg Bool.false_ne_true, if_neg Bool.false_ne_true, if_neg Bool.false_ne_true]
      have hkeep : cropToBoundary nvinfer frame filterParams
          { farCut frame box with left := keptLeft frame box, top := roiTopEdge frame box } =
          if filterParams.roiTopOffset ≤ roiTopEdge frame box ∧
              roiTopEdge frame box + (farCut frame box).height ≤ bandBottom frame filterParams then
            some (movedBox nvinfer frame filterParams box)
          else none := by
        rw [cropToBoundary_keep hcrop, ← hmoved]
        rfl
      rw [hkeep]
      by_cases hband : InBand nvinfer frame filterParams box
      · rw [if_pos (hband hcrop)]
        refine ⟨iff_of_true rfl ⟨hpass, hband⟩, ?_⟩
        rintro _ ⟨⟩
        exact ⟨rfl, rfl⟩
      · rw [if_neg fun h => hband fun _ => h]
        exact ⟨iff_of_false Bool.false_ne_true fun h => hband h.2, by rintro _ ⟨⟩⟩
  · rw [if_neg fun h => hpass ⟨h.1, hfits.mp h.2⟩]
    exact ⟨iff_of_false Bool.false_ne_true fun h => hpass h.1, by rintro _ ⟨⟩⟩

/-- A size that is kept though the near edge moved. -/
theorem min_moved {near near' size far : ℚ} (h : near ≤ near') :
    min (near' + size) far = min (near + size) far ↔ near' = near ∨ far ≤ near + size := by
  constructor
  · intro heq
    by_contra hne
    rw [not_or, not_le] at hne
    have hlt : near < near' := lt_of_le_of_ne h (Ne.symm hne.1)
    rw [min_eq_left hne.2.le] at heq
    rcases min_choice (near' + size) far with hmin | hmin
    · linarith
    · linarith
  · rintro (rfl | hfar)
    · rfl
    · rw [min_eq_right hfar, min_eq_right (hfar.trans (by linarith))]

theorem left_le (frame : GstNvInferFrame) (box : RectParams) : box.left ≤ keptLeft frame box :=
  (le_max_left _ _).trans (le_max_left _ _)

theorem roiTopEdge_le (nvinfer : GstNvInfer) (frame : GstNvInferFrame) (filterParams : GstNvInferDetectionFilterParams)
    (box : RectParams) : roiTopEdge frame box ≤ keptTop nvinfer frame filterParams box := by
  unfold keptTop
  split
  · exact le_max_left _ _
  · exact le_rfl

theorem top_le (nvinfer : GstNvInfer) (frame : GstNvInferFrame) (filterParams : GstNvInferDetectionFilterParams)
    (box : RectParams) : box.top ≤ keptTop nvinfer frame filterParams box :=
  ((le_max_left _ _).trans (le_max_left _ _)).trans (roiTopEdge_le _ _ _ _)

/-- Where a box meets the region, the band ends in the frame. -/
theorem bandEdge_of_meets {box : RectParams} (h : Meets nvinfer frame filterParams box) :
    (bandBottom frame filterParams : ℚ) = bandEdge frame filterParams := by
  have htop : 0 ≤ keptTop nvinfer frame filterParams box := (le_max_right _ _).trans (roiTopEdge_le _ _ _ _)
  have hbottom : keptBottom nvinfer frame filterParams box ≤ bandEdge frame filterParams := by
    unfold keptBottom
    cases hcrop : nvinfer.cropObjectsToRoiBoundary with
    | true => exact min_le_right _ _
    | false => exact (h.band hcrop).2
  have hpos : 0 < bandEdge frame filterParams := (htop.trans_lt h.height).trans_le hbottom
  refine bandBottom_of_le ?_
  have hlt : (filterParams.roiBottomOffset : ℚ) < frame.surfHeight := sub_pos.mp hpos
  exact (Nat.cast_lt.mp hlt).le

theorem farCut_right (frame : GstNvInferFrame) (box : RectParams) : box.left + (farCut frame box).width = roiRightEdge frame box :=
  add_sub_cancel _ _

theorem farCut_bottom (frame : GstNvInferFrame) (box : RectParams) : box.top + (farCut frame box).height = roiBottomEdge frame box :=
  add_sub_cancel _ _

/-- A box that meets the region is attached as it is kept just where it keeps its edges. -/
theorem movedBox_eq_iff {box : RectParams} (h : Meets nvinfer frame filterParams box) :
    movedBox nvinfer frame filterParams box = kept nvinfer frame filterParams box ↔
      EdgesKept nvinfer frame filterParams box := by
  have hleft := left_le frame box
  have htop := top_le nvinfer frame filterParams box
  have hright := farCut_right frame box
  have hbottom := farCut_bottom frame box
  have hband := bandEdge_of_meets h
  rw [RectParams.ext_iff, EdgesKept]
  simp only [movedBox, kept, true_and, keptRight, keptBottom]
  cases hcrop : nvinfer.cropObjectsToRoiBoundary with
  | true =>
    simp only [if_true, sub_left_inj, true_and, ← hright, ← hbottom, hband]
    exact and_congr (min_moved hleft) (min_moved htop)
  | false =>
    simp only [Bool.false_eq_true, if_false, false_and, or_false, ← hright, ← hbottom]
    constructor
    · rintro ⟨hw, hh⟩
      exact ⟨by linarith, by linarith⟩
    · rintro ⟨hw, hh⟩
      exact ⟨by linarith, by linarith⟩

/-- A box that meets the region and keeps its edges is in the band. -/
theorem inBand_of_meets {box : RectParams} (h : Meets nvinfer frame filterParams box)
    (hedges : EdgesKept nvinfer frame filterParams box) : InBand nvinfer frame filterParams box := by
  intro hcrop
  obtain ⟨htop, hbottom⟩ := h.band hcrop
  have hkept : roiTopEdge frame box = box.top := by
    have hedge := hedges.2
    rw [hcrop, keptTop, hcrop, if_neg Bool.false_ne_true] at hedge
    simpa using hedge
  rw [bandEdge_of_meets h]
  refine ⟨htop, ?_⟩
  rw [hkept, farCut_bottom]
  exact hbottom

end Attach

/-- Any size, and the whole height. -/
def anySize : GstNvInferDetectionFilterParams := ⟨0, 0, 0, 0, 0, 0⟩

/-- One class, and boxes that are clipped and cropped. -/
def cropping : GstNvInfer where
  networkWidth := 640
  networkHeight := 480
  maintainAspectRatio := false
  symmetricPadding := false
  processFullFrame := false
  inputTensorFromMeta := true
  clipObjectOutsideRoi := true
  cropObjectsToRoiBoundary := true
  perClassDetectionFilterParams := [anySize]
  filterOutClassIds := ∅

/-- A region of 100 by 100 pixels that starts at 10, as it is. -/
def atTen : GstNvInferFrame where
  scaleRatioX := 1
  scaleRatioY := 1
  offsetLeft := 0
  offsetTop := 0
  roiLeft := 0
  roiTop := 0
  roi := ⟨10, 10, 100, 100⟩
  parent := ⟨0, 0, 0, 0⟩
  surfWidth := 640
  surfHeight := 480
  surfHeight_lt := by decide

end Detector
end NvInfer
end DeepStream
