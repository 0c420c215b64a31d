/-
# Scaling to the network and back

`get_converted_buffer` crops a frame or an object and scales it into the input of the
network, at the ratio of the input or at its own, with padding at the right and the
bottom or on both sides. `attach_metadata_detector` takes the boxes back with the ratios
and offsets that were stored.

The origin of the crop is rounded up to even pixels and its size down, and the way back uses
the origin of the object as it is: it misses the image of the box wherever the origin is
not even. A crop of one pixel has no size left and its ratio no value, and a crop that is much
wider than high is scaled to no rows.

Ratios are rational numbers, and the products of two `guint`s wrap around. The surfaces of
the pool have the size of the network's input, the calls of the device succeed, and the
crop is that of the frame or of the object that the frame's entry keeps. A box that starts
before the picture, in the padding or at a negative position, is moved onto it by the way back.
-/
import DeepStream.NvInfer.Detections
import Mathlib.Algebra.Order.Group.MinMax
import Mathlib.Data.Rat.Floor

namespace DeepStream
namespace NvInfer
namespace Detector

/-! ### The way to the network -/

/-- `NvBufSurfTransformRect`. -/
structure TransformRect where
  top : ℕ
  left : ℕ
  width : ℕ
  height : ℕ
  deriving DecidableEq, Repr

def TransformRect.contains (r : TransformRect) (x y : ℕ) : Prop :=
  r.left ≤ x ∧ x < r.left + r.width ∧ r.top ≤ y ∧ y < r.top + r.height

theorem TransformRect.contains_iff (r : TransformRect) (x y : ℕ) :
    r.contains x y ↔ r.left ≤ x ∧ x < r.left + r.width ∧ r.top ≤ y ∧ y < r.top + r.height := Iff.rfl

instance (r : TransformRect) (x y : ℕ) : Decidable (r.contains x y) := inferInstanceAs (Decidable (_ ∧ _ ∧ _ ∧ _))

/-- What a call gives: the ratios, the offsets, the rectangles and what is padded. -/
structure Converted where
  ratioX : ℚ
  ratioY : ℚ
  offsetLeft : ℕ
  offsetTop : ℕ
  srcRect : TransformRect
  dstRect : TransformRect
  padded : List TransformRect
  deriving DecidableEq, Repr

/-- `GST_ROUND_UP_2`. -/
def roundUp2 (x : ℕ) : ℕ := wrapAdd 32 x 1 / 2 * 2

/-- `GST_ROUND_DOWN_2`. -/
def roundDown2 (x : ℕ) : ℕ := x / 2 * 2

/-- A float that is not negative as an `unsigned int`. -/
def toUnsigned (x : ℚ) : ℕ := ⌊x⌋.toNat

section Forward

variable (nvinfer : GstNvInfer)

/-- `dest_width` and `dest_height`, from the source's size. -/
def destSize (srcWidth srcHeight : ℕ) : ℕ × ℕ :=
  if nvinfer.maintainAspectRatio then
    let hdest : ℚ := (nvinfer.networkWidth * srcHeight % 2 ^ 32 : ℕ) / (srcWidth : ℚ)
    let wdest : ℚ := (nvinfer.networkHeight * srcWidth % 2 ^ 32 : ℕ) / (srcHeight : ℚ)
    if hdest ≤ nvinfer.networkHeight then (nvinfer.networkWidth, toUnsigned hdest)
    else (toUnsigned wdest, nvinfer.networkHeight)
  else (nvinfer.networkWidth, nvinfer.networkHeight)

/-- Where the source has no size the ratios have no value. -/
def getConvertedBuffer (crop : RectParams) : Option Converted :=
  let srcLeft := roundUp2 (toUnsigned crop.left)
  let srcTop := roundUp2 (toUnsigned crop.top)
  let srcWidth := roundDown2 (toUnsigned crop.width)
  let srcHeight := roundDown2 (toUnsigned crop.height)
  if srcWidth = 0 ∨ srcHeight = 0 then none
  else
    let dest := destSize nvinfer srcWidth srcHeight
    let padX := wrapSub 32 nvinfer.networkWidth dest.1
    let padY := wrapSub 32 nvinfer.networkHeight dest.2
    let symmetric := nvinfer.maintainAspectRatio && nvinfer.symmetricPadding
    let offsetLeft := if symmetric then padX / 2 else 0
    let offsetTop := if symmetric then padY / 2 else 0
    some
      { ratioX := dest.1 / (srcWidth : ℚ)
        ratioY := dest.2 / (srcHeight : ℚ)
        offsetLeft := offsetLeft
        offsetTop := offsetTop
        srcRect := ⟨srcTop, srcLeft, srcWidth, srcHeight⟩
        dstRect := if nvinfer.symmetricPadding then ⟨offsetTop, offsetLeft, dest.1, dest.2⟩ else ⟨0, 0, dest.1, dest.2⟩
        padded :=
          if nvinfer.maintainAspectRatio then
            if nvinfer.symmetricPadding then
              [⟨0, 0, offsetLeft, nvinfer.networkHeight⟩,
                ⟨0, dest.1 + offsetLeft, padX - offsetLeft, nvinfer.networkHeight⟩,
                ⟨0, 0, dest.1, offsetTop⟩, ⟨dest.2 + offsetTop, 0, dest.1, padY - offsetTop⟩]
            else [⟨0, dest.1, padX, nvinfer.networkHeight⟩, ⟨dest.2, 0, dest.1, padY⟩]
          else [] }

end Forward

/-- Where a rectangle of the frame is in the input of the network. -/
def Converted.forward (conv : Converted) (r : RectParams) : RectParams where
  left := (r.left - conv.srcRect.left) * conv.ratioX + conv.offsetLeft
  top := (r.top - conv.srcRect.top) * conv.ratioY + conv.offsetTop
  width := r.width * conv.ratioX
  height := r.height * conv.ratioY

/-- A box of the input, moved onto the picture: no box starts before the frame or the object. -/
def Converted.onPicture (conv : Converted) (r : RectParams) : RectParams :=
  { r with left := max r.left conv.offsetLeft, top := max r.top conv.offsetTop }

/-! ### The two calls -/

/-- `in_surf->surfaceList[i]`. -/
structure Surface where
  width : ℕ
  height : ℕ
  width_lt : width < 2 ^ 32 := by decide
  height_lt : height < 2 ^ 32 := by decide

/-- A crop inside of the frame. -/
structure InFrame (surf : Surface) (crop : RectParams) : Prop where
  left : 0 ≤ crop.left
  top : 0 ≤ crop.top
  width : 0 ≤ crop.width
  height : 0 ≤ crop.height
  right : crop.right ≤ surf.width
  bottom : crop.bottom ≤ surf.height

section Calls

variable (nvinfer : GstNvInfer) (surf : Surface) (obj : RectParams)

/-- What is cropped: the frame or the object. -/
def cropRect : RectParams := if nvinfer.processFullFrame then ⟨0, 0, surf.width, surf.height⟩ else obj

/-- The entry of the batch. There is no region, and for a whole frame no object. -/
def newFrame (conv : Converted) : GstNvInferFrame where
  scaleRatioX := conv.ratioX
  scaleRatioY := conv.ratioY
  offsetLeft := conv.offsetLeft
  offsetTop := conv.offsetTop
  roiLeft := 0
  roiTop := 0
  roi := ⟨0, 0, 0, 0⟩
  parent := obj
  surfWidth := surf.width
  surfHeight := surf.height
  surfHeight_lt := surf.height_lt

/-- The element with these filters, when it scales and does not crop boxes. -/
def withFilters (filters : List GstNvInferDetectionFilterParams) (ids : Finset ℕ) : GstNvInfer :=
  { nvinfer with
    inputTensorFromMeta := false
    cropObjectsToRoiBoundary := false
    perClassDetectionFilterParams := filters
    filterOutClassIds := ids }

/-! ### What is to hold -/

/-- The crop is inside the input, and with what is padded it covers each pixel once. -/
structure Placed (conv : Converted) : Prop where
  width_pos : 0 < conv.dstRect.width
  width_le : conv.dstRect.width ≤ nvinfer.networkWidth
  height_pos : 0 < conv.dstRect.height
  height_le : conv.dstRect.height ≤ nvinfer.networkHeight
  tiles : ∀ x y, (conv.dstRect :: conv.padded).countP (fun r => decide (r.contains x y)) =
    if x < nvinfer.networkWidth ∧ y < nvinfer.networkHeight then 1 else 0

/-- A box that is attached, with whichever filters, is attached where the way to the network
leads to the box. One that starts before the picture is moved onto it. -/
def Inverse (conv : Converted) : Prop :=
  ∀ filters ids (det : NvDsInferObject) objMeta,
    attachMetadataDetector (withFilters nvinfer filters ids) (newFrame surf obj conv) det = some (some objMeta) →
    conv.forward objMeta.rectParams = conv.onPicture det.rect

def RoundTrip : Prop :=
  ∃ conv, getConvertedBuffer nvinfer (cropRect nvinfer surf obj) = some conv ∧ Placed nvinfer conv ∧
    Inverse nvinfer surf obj conv

/-- A source of this size leaves at least one pixel in each direction. -/
def SizeFits (srcWidth srcHeight : ℕ) : Prop :=
  if nvinfer.maintainAspectRatio then
    if nvinfer.networkWidth * srcHeight % 2 ^ 32 ≤ nvinfer.networkHeight * srcWidth then
      srcWidth ≤ nvinfer.networkWidth * srcHeight % 2 ^ 32
    else
      srcHeight ≤ nvinfer.networkHeight * srcWidth % 2 ^ 32 ∧
        nvinfer.networkHeight * srcWidth % 2 ^ 32 < (nvinfer.networkWidth + 1) * srcHeight
  else 0 < nvinfer.networkWidth ∧ 0 < nvinfer.networkHeight

instance (srcWidth srcHeight : ℕ) : Decidable (SizeFits nvinfer srcWidth srcHeight) :=
  inferInstanceAs (Decidable (ite _ (ite _ _ _) _))

/-- The crop has two pixels in each direction, an even origin, and fits. -/
structure RoundTripWhen : Prop where
  width : 2 ≤ (cropRect nvinfer surf obj).width
  height : 2 ≤ (cropRect nvinfer surf obj).height
  left : ∃ n : ℕ, (cropRect nvinfer surf obj).left = 2 * n
  top : ∃ n : ℕ, (cropRect nvinfer surf obj).top = 2 * n
  fits : SizeFits nvinfer (roundDown2 (toUnsigned (cropRect nvinfer surf obj).width))
    (roundDown2 (toUnsigned (cropRect nvinfer surf obj).height))

end Calls

/-! ### Placing the crop -/

section Place

variable {nvinfer : GstNvInfer} {srcWidth srcHeight : ℕ}

theorem toUnsigned_div (a b : ℕ) : toUnsigned ((a : ℚ) / b) = a / b := by
  rw [toUnsigned, Rat.floor_natCast_div_natCast, ← Int.natCast_ediv, Int.toNat_natCast]

theorem destSize_maintain (hmaintain : nvinfer.maintainAspectRatio = true) (hw : 0 < srcWidth) :
    destSize nvinfer srcWidth srcHeight =
      if nvinfer.networkWidth * srcHeight % 2 ^ 32 ≤ nvinfer.networkHeight * srcWidth then
        (nvinfer.networkWidth, nvinfer.networkWidth * srcHeight % 2 ^ 32 / srcWidth)
      else (nvinfer.networkHeight * srcWidth % 2 ^ 32 / srcHeight, nvinfer.networkHeight) := by
  have hle : ((nvinfer.networkWidth * srcHeight % 2 ^ 32 : ℕ) : ℚ) / srcWidth ≤ nvinfer.networkHeight ↔
      nvinfer.networkWidth * srcHeight % 2 ^ 32 ≤ nvinfer.networkHeight * srcWidth := by
    rw [div_le_iff₀ (Nat.cast_pos.mpr hw)]
    exact_mod_cast Iff.rfl
  simp only [destSize, hmaintain, if_true, toUnsigned_div, hle]

/-- The size is that of the input in one direction. -/
theorem destSize_full (hw : 0 < srcWidth) : (destSize nvinfer srcWidth srcHeight).1 = nvinfer.networkWidth ∨
    (destSize nvinfer srcWidth srcHeight).2 = nvinfer.networkHeight := by
  cases hmaintain : nvinfer.maintainAspectRatio with
  | true =>
    rw [destSize_maintain hmaintain hw]
    split
    · exact .inl rfl
    · exact .inr rfl
  | false =>
    rw [destSize, hmaintain, if_neg Bool.false_ne_true]
    exact .inl rfl

/-- Both sizes are at least a pixel and in the input. -/
theorem sizeFits_iff (hw : 0 < srcWidth) (hh : 0 < srcHeight) : SizeFits nvinfer srcWidth srcHeight ↔
    (0 < (destSize nvinfer srcWidth srcHeight).1 ∧ (destSize nvinfer srcWidth srcHeight).1 ≤ nvinfer.networkWidth) ∧
      0 < (destSize nvinfer srcWidth srcHeight).2 ∧ (destSize nvinfer srcWidth srcHeight).2 ≤ nvinfer.networkHeight := by
  unfold SizeFits
  cases hmaintain : nvinfer.maintainAspectRatio with
  | true =>
    rw [destSize_maintain hmaintain hw, if_pos rfl]
    by_cases hlow : nvinfer.networkWidth * srcHeight % 2 ^ 32 ≤ nvinfer.networkHeight * srcWidth
    · simp only [if_pos hlow, le_refl, and_true, Nat.div_pos_iff, hw, true_and]
      constructor
      · intro hle
        have hdiv : nvinfer.networkWidth * srcHeight % 2 ^ 32 / srcWidth ≤ nvinfer.networkHeight := by
          refine Nat.div_le_of_le_mul (hlow.trans_eq ?_)
          exact Nat.mul_comm _ _
        refine ⟨Nat.pos_of_ne_zero fun hzero => ?_, hle, hdiv⟩
        rw [hzero, Nat.zero_mul, Nat.zero_mod] at hle
        omega
      · exact fun h => h.2.1
    · simp only [if_neg hlow, le_refl, and_true, Nat.div_pos_iff, hh, true_and]
      have hdiv : nvinfer.networkHeight * srcWidth % 2 ^ 32 / srcHeight ≤ nvinfer.networkWidth ↔
          nvinfer.networkHeight * srcWidth % 2 ^ 32 < (nvinfer.networkWidth + 1) * srcHeight := by
        rw [← Nat.lt_add_one_iff, Nat.div_lt_iff_lt_mul hh]
      rw [hdiv]
      constructor
      · rintro ⟨hle, hlt⟩
        refine ⟨⟨hle, hlt⟩, Nat.pos_of_ne_zero fun hzero => ?_⟩
        rw [hzero, Nat.zero_mul, Nat.zero_mod] at hle
        omega
      · exact fun h => h.1
  | false =>
    rw [destSize, hmaintain, if_neg Bool.false_ne_true, if_neg Bool.false_ne_true]
    simp

variable {W H dw dh : ℕ}

theorem tiles_whole (x y : ℕ) :
    [TransformRect.mk 0 0 W H].countP (fun r => decide (r.contains x y)) = if x < W ∧ y < H then 1 else 0 := by
  simp only [List.countP_cons, List.countP_nil, decide_eq_true_eq, TransformRect.contains_iff]
  split_ifs <;> omega

/-- Padding at the right and the bottom. -/
theorem tiles_rightBottom (hw : dw ≤ W) (hh : dh ≤ H) (x y : ℕ) :
    (TransformRect.mk 0 0 dw dh :: [⟨0, dw, W - dw, H⟩, ⟨dh, 0, dw, H - dh⟩]).countP (fun r => decide (r.contains x y)) =
      if x < W ∧ y < H then 1 else 0 := by
  simp only [List.countP_cons, List.countP_nil, decide_eq_true_eq, TransformRect.contains_iff]
  split_ifs <;> omega

/-- Padding on both sides, in the direction in which the size is not that of the input. -/
theorem tiles_symmetric (hw : dw ≤ W) (hh : dh ≤ H) (hfull : dw = W ∨ dh = H) (x y : ℕ) :
    (TransformRect.mk ((H - dh) / 2) ((W - dw) / 2) dw dh ::
      [⟨0, 0, (W - dw) / 2, H⟩, ⟨0, dw + (W - dw) / 2, W - dw - (W - dw) / 2, H⟩, ⟨0, 0, dw, (H - dh) / 2⟩,
        ⟨dh + (H - dh) / 2, 0, dw, H - dh - (H - dh) / 2⟩]).countP (fun r => decide (r.contains x y)) =
      if x < W ∧ y < H then 1 else 0 := by
  simp only [List.countP_cons, List.countP_nil, decide_eq_true_eq, TransformRect.contains_iff]
  rcases hfull with rfl | rfl
  · simp only [Nat.sub_self, Nat.zero_div]
    generalize hpad : (H - dh) / 2 = pad
    have hle : pad ≤ H - dh := by omega
    split_ifs <;> omega
  · simp only [Nat.sub_self, Nat.zero_div]
    generalize hpad : (W - dw) / 2 = pad
    have hle : pad ≤ W - dw := by omega
    split_ifs <;> omega

end Place

/-! ### The even pixels -/

theorem roundUp2_of_lt {x : ℕ} (h : x + 1 < 2 ^ 32) : roundUp2 x = (x + 1) / 2 * 2 := by
  rw [roundUp2, wrapAdd_of_lt h]

theorem toUnsigned_natCast (n : ℕ) : toUnsigned n = n := by
  rw [toUnsigned, Int.floor_natCast, Int.toNat_natCast]

/-- The origin is kept where it is even. -/
theorem eq_roundUp2_iff {x : ℚ} (hpos : 0 ≤ x) (hlt : x < 2 ^ 32) :
    x = roundUp2 (toUnsigned x) ↔ ∃ n : ℕ, x = 2 * n := by
  constructor
  · intro h
    refine ⟨wrapAdd 32 (toUnsigned x) 1 / 2, h.trans ?_⟩
    rw [roundUp2, Nat.cast_mul, mul_comm]
    norm_num
  · rintro ⟨n, rfl⟩
    have heven : (2 * (n : ℚ)) = ((2 * n : ℕ) : ℚ) := by push_cast; ring
    rw [heven] at hlt ⊢
    have hlt' : 2 * n < 2 ^ 32 := by exact_mod_cast hlt
    rw [toUnsigned_natCast, roundUp2_of_lt (by omega)]
    have hround : (2 * n + 1) / 2 * 2 = 2 * n := by omega
    rw [hround]

/-- A size is rounded down to none when there are less than two pixels. -/
theorem roundDown2_eq_zero_iff {x : ℚ} : roundDown2 (toUnsigned x) = 0 ↔ x < 2 := by
  have hsmall : roundDown2 (toUnsigned x) = 0 ↔ ⌊x⌋ < 2 := by
    unfold roundDown2 toUnsigned
    omega
  rw [hsmall, Int.floor_lt]
  norm_num

/-! ### What a call gives -/

section Spec

variable {nvinfer : GstNvInfer} {crop : RectParams} {conv : Converted}

/-- The crop, its size in the input, and the ratios of the two. -/
structure ConvertedSpec (nvinfer : GstNvInfer) (crop : RectParams) (conv : Converted) : Prop where
  srcRect : conv.srcRect =
    ⟨roundUp2 (toUnsigned crop.top), roundUp2 (toUnsigned crop.left), roundDown2 (toUnsigned crop.width),
      roundDown2 (toUnsigned crop.height)⟩
  width_pos : 0 < conv.srcRect.width
  height_pos : 0 < conv.srcRect.height
  destWidth : conv.dstRect.width = (destSize nvinfer conv.srcRect.width conv.srcRect.height).1
  destHeight : conv.dstRect.height = (destSize nvinfer conv.srcRect.width conv.srcRect.height).2
  ratioX : conv.ratioX = conv.dstRect.width / (conv.srcRect.width : ℚ)
  ratioY : conv.ratioY = conv.dstRect.height / (conv.srcRect.height : ℚ)

theorem getConvertedBuffer_spec (h : getConvertedBuffer nvinfer crop = some conv) : ConvertedSpec nvinfer crop conv := by
  obtain ⟨hne, hconv⟩ := Option.ite_none_left_eq_some.mp h
  rw [not_or] at hne
  cases hconv
  have hw := Nat.pos_of_ne_zero hne.1
  have hh := Nat.pos_of_ne_zero hne.2
  -- The size in the input is the same with either padding.
  cases hsymmetric : nvinfer.symmetricPadding with
  | true => exact ⟨rfl, hw, hh, rfl, rfl, rfl, rfl⟩
  | false => exact ⟨rfl, hw, hh, rfl, rfl, rfl, rfl⟩

/-- The rectangle and what is padded, of a size that fits. -/
theorem tiles_of_fits (h : getConvertedBuffer nvinfer crop = some conv) (hw : conv.dstRect.width ≤ nvinfer.networkWidth)
    (hh : conv.dstRect.height ≤ nvinfer.networkHeight) (x y : ℕ) :
    (conv.dstRect :: conv.padded).countP (fun r => decide (r.contains x y)) =
      if x < nvinfer.networkWidth ∧ y < nvinfer.networkHeight then 1 else 0 := by
  have hspec := getConvertedBuffer_spec h
  have hfull := @destSize_full nvinfer _ conv.srcRect.height hspec.width_pos
  rw [hspec.destWidth] at hw
  rw [hspec.destHeight] at hh
  have hpadX := wrapSub_of_le hw nvinfer.networkWidth_lt
  have hpadY := wrapSub_of_le hh nvinfer.networkHeight_lt
  obtain ⟨hne, hconv⟩ := Option.ite_none_left_eq_some.mp h
  cases hconv
  dsimp only at hw hh hpadX hpadY hfull ⊢
  rw [hpadX, hpadY]
  cases hmaintain : nvinfer.maintainAspectRatio with
  | true =>
    cases hsymmetric : nvinfer.symmetricPadding with
    | true => exact tiles_symmetric hw hh hfull x y
    | false => exact tiles_rightBottom hw hh x y
  | false =>
    have hwhole : destSize nvinfer (roundDown2 (toUnsigned crop.width)) (roundDown2 (toUnsigned crop.height)) =
        (nvinfer.networkWidth, nvinfer.networkHeight) := by
      rw [destSize, hmaintain, if_neg Bool.false_ne_true]
    rw [hwhole]
    cases hsymmetric : nvinfer.symmetricPadding with
    | true => exact tiles_whole x y
    | false => exact tiles_whole x y

theorem placed_iff (h : getConvertedBuffer nvinfer crop = some conv) :
    Placed nvinfer conv ↔ SizeFits nvinfer conv.srcRect.width conv.srcRect.height := by
  have hspec := getConvertedBuffer_spec h
  rw [sizeFits_iff hspec.width_pos hspec.height_pos, ← hspec.destWidth, ← hspec.destHeight]
  constructor
  · exact fun p => ⟨⟨p.width_pos, p.width_le⟩, p.height_pos, p.height_le⟩
  · rintro ⟨⟨hwpos, hw⟩, hhpos, hh⟩
    exact ⟨hwpos, hw, hhpos, hh, tiles_of_fits h hw hh⟩

/-- Where the crop leaves something in the input, the ratios are positive. -/
theorem ratio_pos (h : getConvertedBuffer nvinfer crop = some conv) (hplaced : Placed nvinfer conv) :
    0 < conv.ratioX ∧ 0 < conv.ratioY := by
  have hspec := getConvertedBuffer_spec h
  rw [hspec.ratioX, hspec.ratioY]
  exact ⟨div_pos (Nat.cast_pos.mpr hplaced.width_pos) (Nat.cast_pos.mpr hspec.width_pos),
    div_pos (Nat.cast_pos.mpr hplaced.height_pos) (Nat.cast_pos.mpr hspec.height_pos)⟩

end Spec

/-! ### The way back -/

section Back

variable {nvinfer : GstNvInfer} {surf : Surface} {obj : RectParams} {conv : Converted}

/-- The crop of a whole frame is at its origin, and boxes in it are not moved. -/
theorem toParent_withFilters (filters : List GstNvInferDetectionFilterParams) (ids : Finset ℕ) (r : RectParams) :
    toParent (withFilters nvinfer filters ids) (newFrame surf obj conv) r =
      { r with left := r.left + (cropRect nvinfer surf obj).left, top := r.top + (cropRect nvinfer surf obj).top } := by
  cases hfull : nvinfer.processFullFrame with
  | true => simp [toParent, withFilters, cropRect, hfull]
  | false => simp [toParent, withFilters, newFrame, cropRect, hfull]

theorem frameBox_withFilters (filters : List GstNvInferDetectionFilterParams) (ids : Finset ℕ) (r : RectParams) :
    frameBox (withFilters nvinfer filters ids) (newFrame surf obj conv) r =
      { left := max ((r.left - conv.offsetLeft) / conv.ratioX) 0
        top := max ((r.top - conv.offsetTop) / conv.ratioY) 0
        width := r.width / conv.ratioX
        height := r.height / conv.ratioY } := by
  rw [frameBox, withFilters, Bool.false_and, if_neg Bool.false_ne_true, notNegative_eq]
  simp [scaleBox, newFrame]

/-- The box that is attached. -/
theorem rectParams_eq {filters : List GstNvInferDetectionFilterParams} {ids : Finset ℕ} {det : NvDsInferObject}
    {objMeta : NvDsObjectMeta}
    (h : attachMetadataDetector (withFilters nvinfer filters ids) (newFrame surf obj conv) det = some (some objMeta)) :
    objMeta.rectParams =
      { left := max ((det.rect.left - conv.offsetLeft) / conv.ratioX) 0 + (cropRect nvinfer surf obj).left
        top := max ((det.rect.top - conv.offsetTop) / conv.ratioY) 0 + (cropRect nvinfer surf obj).top
        width := det.rect.width / conv.ratioX
        height := det.rect.height / conv.ratioY } := by
  obtain ⟨filterParams, -, hattach⟩ := Option.map_eq_some_iff.mp h
  obtain ⟨-, hattach⟩ := Option.ite_none_right_eq_some.mp hattach
  rw [cropToBoundary_keep rfl] at hattach
  obtain ⟨rect, hkeep, hmeta⟩ := Option.map_eq_some_iff.mp hattach
  obtain ⟨-, hrect⟩ := Option.ite_none_right_eq_some.mp hkeep
  rw [← hmeta, ← Option.some.inj hrect, toParent_withFilters, frameBox_withFilters]

/-- A position that goes back and forth is moved by what the origin was rounded. -/
theorem forward_back {ratio : ℚ} (hratio : 0 < ratio) (pos offset origin origin' : ℚ) :
    (max ((pos - offset) / ratio) 0 + origin - origin') * ratio + offset = max pos offset + (origin - origin') * ratio := by
  have hmax : max ((pos - offset) / ratio) 0 * ratio = max pos offset - offset := by
    rw [max_mul_of_nonneg _ _ hratio.le, div_mul_cancel₀ _ hratio.ne', zero_mul, ← max_sub_sub_right, sub_self]
  calc (max ((pos - offset) / ratio) 0 + origin - origin') * ratio + offset
      = max ((pos - offset) / ratio) 0 * ratio + (origin - origin') * ratio + offset := by ring
    _ = max pos offset + (origin - origin') * ratio := by rw [hmax]; ring

/-- Where the way to the network leads to from a box that was attached. -/
theorem forward_attached (hx : 0 < conv.ratioX) (hy : 0 < conv.ratioY)
    {filters : List GstNvInferDetectionFilterParams} {ids : Finset ℕ} {det : NvDsInferObject} {objMeta : NvDsObjectMeta}
    (h : attachMetadataDetector (withFilters nvinfer filters ids) (newFrame surf obj conv) det = some (some objMeta)) :
    conv.forward objMeta.rectParams =
      { left := max det.rect.left conv.offsetLeft + ((cropRect nvinfer surf obj).left - conv.srcRect.left) * conv.ratioX
        top := max det.rect.top conv.offsetTop + ((cropRect nvinfer surf obj).top - conv.srcRect.top) * conv.ratioY
        width := det.rect.width
        height := det.rect.height } := by
  rw [rectParams_eq h, Converted.forward, forward_back hx, forward_back hy, div_mul_cancel₀ _ hx.ne', div_mul_cancel₀ _ hy.ne']

/-- With a filter that lets everything pass, the box without a size at the picture's origin is attached. -/
theorem attach_origin : attachMetadataDetector (withFilters nvinfer [⟨0, 0, 0, 0, 0, 0⟩] ∅) (newFrame surf obj conv)
    ⟨⟨conv.offsetLeft, conv.offsetTop, 0, 0⟩, 0⟩ =
      some (some ⟨0, ⟨(cropRect nvinfer surf obj).left, (cropRect nvinfer surf obj).top, 0, 0⟩⟩) := by
  have hbox : frameBox (withFilters nvinfer [⟨0, 0, 0, 0, 0, 0⟩] ∅) (newFrame surf obj conv)
      ⟨conv.offsetLeft, conv.offsetTop, 0, 0⟩ = ⟨0, 0, 0, 0⟩ := by
    rw [frameBox_withFilters]
    simp
  have hpass : filteredOut (withFilters nvinfer [⟨0, 0, 0, 0, 0, 0⟩] ∅) 0 = false ∧
      sizeFits ⟨0, 0, 0, 0, 0, 0⟩ ⟨0, 0, 0, 0⟩ := by
    simp [filteredOut, withFilters, sizeFits]
  have hclass : filterParamsOf (withFilters nvinfer [⟨0, 0, 0, 0, 0, 0⟩] ∅) 0 = some ⟨0, 0, 0, 0, 0, 0⟩ := rfl
  have hband : (⟨0, 0, 0, 0, 0, 0⟩ : GstNvInferDetectionFilterParams).roiTopOffset ≤ (⟨0, 0, 0, 0⟩ : RectParams).top ∧
      (⟨0, 0, 0, 0⟩ : RectParams).bottom ≤ bandBottom (newFrame surf obj conv) ⟨0, 0, 0, 0, 0, 0⟩ := by
    simp [RectParams.bottom]
  rw [attachMetadataDetector, hclass, Option.map_some, hbox, if_pos hpass, cropToBoundary_keep rfl, if_pos hband,
    Option.map_some, toParent_withFilters]
  simp

theorem inverse_iff (hx : 0 < conv.ratioX) (hy : 0 < conv.ratioY) : Inverse nvinfer surf obj conv ↔
    (cropRect nvinfer surf obj).left = conv.srcRect.left ∧ (cropRect nvinfer surf obj).top = conv.srcRect.top := by
  constructor
  · intro h
    have horigin := h _ _ _ _ attach_origin
    rw [forward_attached hx hy attach_origin, Converted.onPicture, max_self, max_self] at horigin
    obtain ⟨hleft, htop, -, -⟩ := RectParams.mk.inj horigin
    exact ⟨sub_eq_zero.mp ((mul_eq_zero_iff_right hx.ne').mp (add_eq_left.mp hleft)),
      sub_eq_zero.mp ((mul_eq_zero_iff_right hy.ne').mp (add_eq_left.mp htop))⟩
  · rintro ⟨hleft, htop⟩ filters ids det objMeta hattach
    rw [forward_attached hx hy hattach, hleft, htop, sub_self, sub_self, zero_mul, zero_mul, add_zero, add_zero]
    rfl

end Back

/-- There is a size where the crop has two pixels in each direction. -/
theorem getConvertedBuffer_isSome_iff {nvinfer : GstNvInfer} {crop : RectParams} :
    (getConvertedBuffer nvinfer crop).isSome ↔ 2 ≤ crop.width ∧ 2 ≤ crop.height := by
  have hnone : getConvertedBuffer nvinfer crop = none ↔ crop.width < 2 ∨ crop.height < 2 := by
    rw [← roundDown2_eq_zero_iff, ← roundDown2_eq_zero_iff, getConvertedBuffer]
    simp only [ite_eq_left_iff, reduceCtorEq, imp_false, not_not]
  rw [← Option.ne_none_iff_isSome, Ne, hnone, not_or, not_lt, not_lt]

/-- A crop is placed in the input, and its boxes go back to where they came from, just under
`RoundTripWhen`. -/
theorem scaling_iff (nvinfer : GstNvInfer) (surf : Surface) (obj : RectParams)
    (h : InFrame surf (cropRect nvinfer surf obj)) : RoundTrip nvinfer surf obj ↔ RoundTripWhen nvinfer surf obj := by
  have hwidth : (surf.width : ℚ) < 2 ^ 32 := by exact_mod_cast surf.width_lt
  have hheight : (surf.height : ℚ) < 2 ^ 32 := by exact_mod_cast surf.height_lt
  have hleft := eq_roundUp2_iff h.left ((le_add_of_nonneg_right h.width).trans_lt (h.right.trans_lt hwidth))
  have htop := eq_roundUp2_iff h.top ((le_add_of_nonneg_right h.height).trans_lt (h.bottom.trans_lt hheight))
  constructor
  · rintro ⟨conv, hconv, hplaced, hinverse⟩
    obtain ⟨hx, hy⟩ := ratio_pos hconv hplaced
    obtain ⟨hw, hh⟩ := getConvertedBuffer_isSome_iff.mp (Option.isSome_of_eq_some hconv)
    have horigin := (inverse_iff hx hy).mp hinverse
    have hfits := (placed_iff hconv).mp hplaced
    rw [(getConvertedBuffer_spec hconv).srcRect] at horigin hfits
    exact ⟨hw, hh, hleft.mp horigin.1, htop.mp horigin.2, hfits⟩
  · intro hwhen
    obtain ⟨conv, hconv⟩ : ∃ conv, getConvertedBuffer nvinfer (cropRect nvinfer surf obj) = some conv :=
      Option.isSome_iff_exists.mp (getConvertedBuffer_isSome_iff.mpr ⟨hwhen.width, hwhen.height⟩)
    have hsrc := (getConvertedBuffer_spec hconv).srcRect
    have hplaced : Placed nvinfer conv := by
      rw [placed_iff hconv, hsrc]
      exact hwhen.fits
    obtain ⟨hx, hy⟩ := ratio_pos hconv hplaced
    refine ⟨conv, hconv, hplaced, (inverse_iff hx hy).mpr ?_⟩
    rw [hsrc]
    exact ⟨hleft.mpr hwhen.left, htop.mpr hwhen.top⟩

/-! ### Two objects -/

/-- Objects in an input of 200 by 200 pixels, at the ratio of the input, with padding on both sides. -/
def onObjects : GstNvInfer where
  networkWidth := 200
  networkHeight := 200
  maintainAspectRatio := true
  symmetricPadding := true
  processFullFrame := false
  inputTensorFromMeta := false
  clipObjectOutsideRoi := false
  cropObjectsToRoiBoundary := false
  perClassDetectionFilterParams := [⟨0, 0, 0, 0, 0, 0⟩]
  filterOutClassIds := ∅

def fullHd : Surface where
  width := 1920
  height := 1080

/-- An object at an even origin. -/
theorem scaling_iff_even : RoundTrip onObjects fullHd ⟨10, 20, 100, 50⟩ := by
  refine (scaling_iff onObjects fullHd ⟨10, 20, 100, 50⟩ ?_).mpr ?_
  · exact ⟨by decide +kernel, by decide +kernel, by decide +kernel, by decide +kernel, by decide +kernel, by decide +kernel⟩
  · exact ⟨by decide +kernel, by decide +kernel, ⟨5, by decide +kernel⟩, ⟨10, by decide +kernel⟩, by decide +kernel⟩

/-- An object at the column 11 is cropped from the column 12: the box at the picture's origin is
attached where the way to the network leads two pixels before it. -/
theorem scaling_odd :
    InFrame fullHd (cropRect onObjects fullHd ⟨11, 20, 100, 100⟩) ∧ ¬ RoundTrip onObjects fullHd ⟨11, 20, 100, 100⟩ := by
  have hconv : getConvertedBuffer onObjects (cropRect onObjects fullHd ⟨11, 20, 100, 100⟩) = some
      { ratioX := 2
        ratioY := 2
        offsetLeft := 0
        offsetTop := 0
        srcRect := ⟨20, 12, 100, 100⟩
        dstRect := ⟨0, 0, 200, 200⟩
        padded := [⟨0, 0, 0, 200⟩, ⟨0, 200, 0, 200⟩, ⟨0, 0, 200, 0⟩, ⟨200, 0, 200, 0⟩] } := by
    decide +kernel
  refine ⟨⟨by decide +kernel, by decide +kernel, by decide +kernel, by decide +kernel, by decide +kernel,
    by decide +kernel⟩, ?_⟩
  rintro ⟨conv, hconv', -, hinverse⟩
  cases hconv.symm.trans hconv'
  have hbox := hinverse onObjects.perClassDetectionFilterParams ∅ ⟨⟨0, 0, 20, 20⟩, 0⟩ ⟨0, ⟨11, 20, 10, 10⟩⟩ (by decide +kernel)
  exact absurd hbox (by decide +kernel)

end Detector
end NvInfer
end DeepStream
