/-
# The objects that a detector attaches

`attach_metadata_detector` scales the boxes that the network found to the frame, clips
them to the region of the preprocessing, drops those that do not meet the filter of
their class and attaches the others. What is done for one detection does not depend on
the others.

Floats are rational numbers, a `guint` is a natural number, and a subtraction of two wraps
around. The filter of a class index that is none of the configured classes is read
outside of the vector and has no result. Labels, colours and the other fields of the
metadata that only copy or are constant are left out.
-/
import DeepStream.Lib.Word
import Mathlib.Data.Finset.Insert
import Mathlib.Tactic.Linarith
import Mathlib.Tactic.Ring

namespace DeepStream
namespace NvInfer
namespace Detector

/-! ### Data -/

/-- `NvOSD_RectParams`. -/
@[ext]
structure RectParams where
  left : ℚ
  top : ℚ
  width : ℚ
  height : ℚ
  deriving DecidableEq, Repr

def RectParams.right (r : RectParams) : ℚ := r.left + r.width

def RectParams.bottom (r : RectParams) : ℚ := r.top + r.height

structure NvDsInferObject where
  rect : RectParams
  classIndex : ℤ
  deriving DecidableEq, Repr

structure GstNvInferDetectionFilterParams where
  roiTopOffset : ℕ
  roiBottomOffset : ℕ
  detectionMinWidth : ℕ
  detectionMinHeight : ℕ
  detectionMaxWidth : ℕ
  detectionMaxHeight : ℕ
  deriving DecidableEq, Repr

structure GstNvInfer where
  networkWidth : ℕ
  networkHeight : ℕ
  networkWidth_lt : networkWidth < 2 ^ 32 := by decide
  networkHeight_lt : networkHeight < 2 ^ 32 := by decide
  maintainAspectRatio : Bool
  symmetricPadding : Bool
  processFullFrame : Bool
  inputTensorFromMeta : Bool
  clipObjectOutsideRoi : Bool
  cropObjectsToRoiBoundary : Bool
  perClassDetectionFilterParams : List GstNvInferDetectionFilterParams
  filterOutClassIds : Finset ℕ

/-- `roi` is that of `roi_meta`, `parent` the rectangle of `obj_meta`, and `surf` are the
sizes of `input_surf_params`. -/
structure GstNvInferFrame where
  scaleRatioX : ℚ
  scaleRatioY : ℚ
  offsetLeft : ℕ
  offsetTop : ℕ
  roiLeft : ℕ
  roiTop : ℕ
  roi : RectParams
  parent : RectParams
  surfWidth : ℕ
  surfHeight : ℕ
  surfHeight_lt : surfHeight < 2 ^ 32

structure NvDsObjectMeta where
  classId : ℤ
  rectParams : RectParams
  deriving DecidableEq, Repr

/-! ### The steps for one detection -/

section Steps

variable (nvinfer : GstNvInfer) (frame : GstNvInferFrame) (filterParams : GstNvInferDetectionFilterParams)

/-- The box as the frame or the object was scaled for the input. -/
def scaleBox (obj : RectParams) : RectParams where
  left := (obj.left - frame.offsetLeft) / frame.scaleRatioX + frame.roiLeft
  top := (obj.top - frame.offsetTop) / frame.scaleRatioY + frame.roiTop
  width := obj.width / frame.scaleRatioX
  height := obj.height / frame.scaleRatioY

/-- The branches of `clip_object_outside_roi`, one assignment after the other. -/
def clipToRoi (roi obj : RectParams) : RectParams :=
  let obj := if obj.left + obj.width ≥ roi.left + roi.width then
      { obj with width := roi.left + roi.width - obj.left }
    else obj
  let obj := if obj.top + obj.height ≥ roi.top + roi.height then
      { obj with height := roi.top + roi.height - obj.top }
    else obj
  let obj := if obj.left < roi.left then
      let obj := { obj with left := roi.left }
      { obj with width := obj.width - roi.left + obj.left }
    else obj
  if obj.top < roi.top then
    let obj := { obj with top := roi.top }
    { obj with height := obj.height - roi.top + obj.top }
  else obj

def notNegative (obj : RectParams) : RectParams :=
  let obj := if obj.top < 0 then { obj with top := 0 } else obj
  if obj.left < 0 then { obj with left := 0 } else obj

/-- `filter_out_class_ids` has the index as an `uint`. -/
def filteredOut (classIndex : ℤ) : Bool := decide ((classIndex % 2 ^ 32).toNat ∈ nvinfer.filterOutClassIds)

/-- The limits of the sizes. -/
def sizeFits (obj : RectParams) : Prop :=
  ¬ obj.width < filterParams.detectionMinWidth ∧ ¬ obj.height < filterParams.detectionMinHeight ∧
    ¬ (filterParams.detectionMaxWidth > 0 ∧ obj.width > filterParams.detectionMaxWidth) ∧
    ¬ (filterParams.detectionMaxHeight > 0 ∧ obj.height > filterParams.detectionMaxHeight)

instance (obj : RectParams) : Decidable (sizeFits filterParams obj) := inferInstanceAs (Decidable (_ ∧ _ ∧ _ ∧ _))

/-- `input_surf_params->height - roiBottomOffset`. -/
def bandBottom : ℕ := wrapSub 32 frame.surfHeight filterParams.roiBottomOffset

/-- The branches of `crop_objects_to_roi_boundary`. -/
def cropToBoundary (obj : RectParams) : Option RectParams :=
  if nvinfer.cropObjectsToRoiBoundary then
    let obj := if obj.top < filterParams.roiTopOffset then { obj with top := (filterParams.roiTopOffset : ℚ) } else obj
    let obj := if obj.left + obj.width ≥ frame.surfWidth then { obj with width := frame.surfWidth - obj.left } else obj
    some (if obj.top + obj.height > bandBottom frame filterParams then
        { obj with height := bandBottom frame filterParams - obj.top }
      else obj)
  else if obj.top < filterParams.roiTopOffset then none
  else if obj.top + obj.height > bandBottom frame filterParams then none
  else some obj

/-- The boxes of an object are relative to it. -/
def toParent (obj : RectParams) : RectParams :=
  if !nvinfer.processFullFrame && !nvinfer.inputTensorFromMeta then
    { obj with left := obj.left + frame.parent.left, top := obj.top + frame.parent.top }
  else obj

/-- The box with which the filters are asked. -/
def frameBox (obj : RectParams) : RectParams :=
  let obj := scaleBox frame obj
  notNegative (if nvinfer.inputTensorFromMeta && nvinfer.clipObjectOutsideRoi then clipToRoi frame.roi obj else obj)

/-- `perClassDetectionFilterParams[classIndex]`. -/
def filterParamsOf (classIndex : ℤ) : Option GstNvInferDetectionFilterParams :=
  if 0 ≤ classIndex then nvinfer.perClassDetectionFilterParams[classIndex.toNat]? else none

/-- The loop body: the object that is attached, if one is. -/
def attachMetadataDetector (obj : NvDsInferObject) : Option (Option NvDsObjectMeta) :=
  (filterParamsOf nvinfer obj.classIndex).map fun filterParams =>
    let rect := frameBox nvinfer frame obj.rect
    if filteredOut nvinfer obj.classIndex = false ∧ sizeFits filterParams rect then
      (cropToBoundary nvinfer frame filterParams rect).map fun rect => ⟨obj.classIndex, toParent nvinfer frame rect⟩
    else none

end Steps

/-! ### What the steps come to -/

section Facts

variable {nvinfer : GstNvInfer} {frame : GstNvInferFrame} {filterParams : GstNvInferDetectionFilterParams}

theorem ite_far (pos size far : ℚ) : (if pos + size ≥ far then far - pos else size) = min (pos + size) far - pos := by
  by_cases h : pos + size ≥ far
  · rw [if_pos h, min_eq_right h]
  · rw [if_neg h, min_eq_left (not_le.mp h).le, add_sub_cancel_left]

theorem ite_near (pos near : ℚ) : (if pos < near then near else pos) = max pos near := by
  by_cases h : pos < near
  · rw [if_pos h, max_eq_right h.le]
  · rw [if_neg h, max_eq_left (not_lt.mp h)]

theorem ite_far' (pos size far : ℚ) : (if pos + size > far then far - pos else size) = min (pos + size) far - pos := by
  by_cases h : pos + size > far
  · rw [if_pos h, min_eq_right h.le]
  · rw [if_neg h, min_eq_left (not_lt.mp h), add_sub_cancel_left]

/-- On the far sides the box is cut to the region, on the near sides it is moved into it. -/
theorem clipToRoi_eq (roi obj : RectParams) : clipToRoi roi obj =
    { left := max obj.left roi.left
      top := max obj.top roi.top
      width := min obj.right roi.right - obj.left
      height := min obj.bottom roi.bottom - obj.top } := by
  unfold RectParams.right RectParams.bottom
  rw [← ite_far, ← ite_far, ← ite_near, ← ite_near]
  by_cases hr : obj.left + obj.width ≥ roi.left + roi.width <;> by_cases hb : obj.top + obj.height ≥ roi.top + roi.height <;>
    by_cases hl : obj.left < roi.left <;> by_cases ht : obj.top < roi.top <;>
      simp [clipToRoi, hr, hb, hl, ht]

theorem notNegative_eq (obj : RectParams) : notNegative obj =
    { obj with left := max obj.left 0, top := max obj.top 0 } := by
  rw [← ite_near, ← ite_near]
  by_cases ht : obj.top < 0 <;> by_cases hl : obj.left < 0 <;> simp [notNegative, ht, hl]

/-- A box that is cropped starts in the band, and ends at the edges of the frame and of the band. -/
theorem cropToBoundary_crop (hcrop : nvinfer.cropObjectsToRoiBoundary = true) (obj : RectParams) :
    cropToBoundary nvinfer frame filterParams obj = some
      { left := obj.left
        top := max obj.top filterParams.roiTopOffset
        width := min obj.right frame.surfWidth - obj.left
        height := min (max obj.top filterParams.roiTopOffset + obj.height) (bandBottom frame filterParams) -
          max obj.top filterParams.roiTopOffset } := by
  unfold RectParams.right
  rw [← ite_far, ← ite_far', ← ite_near, cropToBoundary, if_pos hcrop]
  by_cases ht : obj.top < filterParams.roiTopOffset <;> by_cases hr : obj.left + obj.width ≥ frame.surfWidth <;>
    simp only [ht, hr, if_true, if_false] <;> split <;> rfl

theorem cropToBoundary_keep (hcrop : nvinfer.cropObjectsToRoiBoundary = false) (obj : RectParams) :
    cropToBoundary nvinfer frame filterParams obj =
      if filterParams.roiTopOffset ≤ obj.top ∧ obj.bottom ≤ bandBottom frame filterParams then some obj else none := by
  unfold RectParams.bottom
  rw [cropToBoundary, hcrop, if_neg Bool.false_ne_true]
  by_cases ht : obj.top < filterParams.roiTopOffset
  · rw [if_pos ht, if_neg fun h => absurd h.1 (not_le.mpr ht)]
  · rw [if_neg ht]
    by_cases hb : obj.top + obj.height > bandBottom frame filterParams
    · rw [if_pos hb, if_neg fun h => absurd h.2 (not_le.mpr hb)]
    · rw [if_neg hb, if_pos ⟨not_lt.mp ht, not_lt.mp hb⟩]

theorem bandBottom_of_le (h : filterParams.roiBottomOffset ≤ frame.surfHeight) :
    (bandBottom frame filterParams : ℚ) = frame.surfHeight - filterParams.roiBottomOffset := by
  rw [bandBottom, wrapSub_of_le h frame.surfHeight_lt, Nat.cast_sub h]

theorem filterParamsOf_lt {classIndex : ℤ} (h : filterParamsOf nvinfer classIndex = some filterParams) :
    0 ≤ classIndex ∧ classIndex < nvinfer.perClassDetectionFilterParams.length := by
  obtain ⟨hpos, hget⟩ := Option.ite_none_right_eq_some.mp h
  obtain ⟨hlt, -⟩ := List.getElem?_eq_some_iff.mp hget
  exact ⟨hpos, by omega⟩

theorem sizeFits_congr {obj obj' : RectParams} (hw : obj.width = obj'.width) (hh : obj.height = obj'.height) :
    sizeFits filterParams obj ↔ sizeFits filterParams obj' := by
  unfold sizeFits
  rw [hw, hh]

end Facts

end Detector
end NvInfer
end DeepStream
