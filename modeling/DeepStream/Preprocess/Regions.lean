/-
# Regions that gst-nvdspreprocess scales

A source has a list of regions, from the key file or from the last `GST_NVEVENT_ROI_UPDATE`.
`gst_nvdspreprocess_on_frame` cuts each one at the right and the bottom of the frame, and
`scale_and_fill_data` rounds it to even numbers, scales it into the processing resolution and
fills what is left at the sides. It rejects a region with a side of length 0, which ends the
frame; a region that begins beyond the frame, or that is less than two pixels wide, is not one.

Coordinates and quotients of `double` are exact. Where a value is negative or too large for the
type it is converted to, or a quotient has the divisor 0, the source has no usable result.
-/
import DeepStream.InferServer.Letterbox
import Mathlib.Data.Rat.Floor

namespace DeepStream
namespace Preprocess
namespace Regions

open InferServer.Letterbox (ColorFormat pixelSize)

/-- `NvOSD_RectParams`. -/
structure RectParams where
  left : ℚ
  top : ℚ
  width : ℚ
  height : ℚ
  deriving DecidableEq, Repr

/-- The region of an update. -/
structure RoiDimension where
  left : ℕ
  top : ℕ
  width : ℕ
  height : ℕ
  deriving DecidableEq, Repr

def RoiDimension.toRectParams (dim : RoiDimension) : RectParams := ⟨dim.left, dim.top, dim.width, dim.height⟩

structure Frame where
  width : ℕ
  height : ℕ
  width_lt : width < 2 ^ 32
  height_lt : height < 2 ^ 32

/-- The settings with a surface of the scaling pool, whose `dataSize` is an `uint32_t`. -/
structure GstNvDsPreProcess where
  processingWidth : ℕ
  processingHeight : ℕ
  maintainAspectRatio : Bool
  symmetricPadding : Bool
  colorFormat : ColorFormat
  pitch : ℕ
  processingWidth_pos : 0 < processingWidth
  processingHeight_pos : 0 < processingHeight
  wide : pixelSize colorFormat * processingWidth ≤ pitch
  dataSize_lt : pitch * processingHeight < 2 ^ 32

def GstNvDsPreProcess.surface (p : GstNvDsPreProcess) : Surface where
  size := pixelSize p.colorFormat
  pitch := p.pitch
  width := p.processingWidth
  wide := p.wide

/-! ### One region -/

/-- `GST_ROUND_UP_2`. -/
def roundUp2 (n : ℕ) : ℕ := (n + 1) / 2 * 2

/-- `GST_ROUND_DOWN_2`. -/
def roundDown2 (n : ℕ) : ℕ := n / 2 * 2

/-- What is before the point. -/
def truncate (q : ℚ) : ℕ := ⌊q⌋.toNat

/-- `none`: the value cannot be converted. -/
def toUnsigned (q : ℚ) : Option ℕ := if -1 < q ∧ q < 2 ^ 32 then some (truncate q) else none

def clipSide (start size : ℚ) (limit : ℕ) : ℚ := if start + size > limit then limit - start else size

/-- Both functions cut a region in this way. -/
def RectParams.clip (rect : RectParams) (frame : Frame) : RectParams where
  left := rect.left
  top := rect.top
  width := clipSide rect.left rect.width frame.width
  height := clipSide rect.top rect.height frame.height

/-- What is entered into the batch for a region. -/
structure Filled where
  srcRect : PixelRect
  dstRect : PixelRect
  ratioX : ℚ
  ratioY : ℚ
  memsets : List Memset2D

inductive Outcome where
  | undefined
  | flowError
  | filled (unit : Filled)

section Fill

variable (p : GstNvDsPreProcess)

/-- The width and height in the processing resolution; the products are `unsigned`. -/
def destSize (srcWidth srcHeight : ℕ) : ℕ × ℕ :=
  if p.maintainAspectRatio then
    if p.processingWidth * srcHeight % 2 ^ 32 ≤ p.processingHeight * srcWidth then
      (p.processingWidth, p.processingWidth * srcHeight % 2 ^ 32 / srcWidth)
    else (p.processingHeight * srcWidth % 2 ^ 32 / srcHeight, p.processingHeight)
  else (p.processingWidth, p.processingHeight)

def offsetLeft (destWidth : ℕ) : ℕ :=
  if p.maintainAspectRatio && p.symmetricPadding then (p.processingWidth - destWidth) / 2 else 0

def offsetTop (destHeight : ℕ) : ℕ :=
  if p.maintainAspectRatio && p.symmetricPadding then (p.processingHeight - destHeight) / 2 else 0

def paddings (destWidth destHeight : ℕ) : List Memset2D :=
  let size := pixelSize p.colorFormat
  if p.maintainAspectRatio then
    if !p.symmetricPadding then
      [⟨size * destWidth, p.pitch, size * (p.processingWidth - destWidth), p.processingHeight⟩,
        ⟨p.pitch * destHeight, p.pitch, size * destWidth, p.processingHeight - destHeight⟩]
    else
      let left := offsetLeft p destWidth
      let top := offsetTop p destHeight
      [⟨0, p.pitch, size * left, p.processingHeight⟩,
        ⟨size * (destWidth + left), p.pitch, size * (p.processingWidth - destWidth - left), p.processingHeight⟩,
        ⟨0, p.pitch, size * destWidth, top⟩,
        ⟨p.pitch * (destHeight + top), p.pitch, size * destWidth, p.processingHeight - destHeight - top⟩]
  else []

def fill (left top width height : ℕ) : Filled :=
  let srcWidth := roundDown2 width
  let srcHeight := roundDown2 height
  let (destWidth, destHeight) := destSize p srcWidth srcHeight
  { srcRect := ⟨roundUp2 top, roundUp2 left, srcWidth, srcHeight⟩
    dstRect := ⟨offsetTop p destHeight, offsetLeft p destWidth, destWidth, destHeight⟩
    ratioX := destWidth / srcWidth
    ratioY := destHeight / srcHeight
    memsets := paddings p destWidth destHeight }

/-- An `int` holds the side, and it can be divided by. -/
def IsDivisor (srcSide : ℕ) : Prop := 0 < srcSide ∧ srcSide < 2 ^ 31

instance (srcSide : ℕ) : Decidable (IsDivisor srcSide) := inferInstanceAs (Decidable (_ ∧ _))

def scaleAndFillData (frame : Frame) (rect : RectParams) : Outcome :=
  if rect.width = 0 ∨ rect.height = 0 then .flowError
  else
    let rect := rect.clip frame
    match toUnsigned rect.left, toUnsigned rect.top, toUnsigned rect.width, toUnsigned rect.height with
    | some left, some top, some width, some height =>
      if IsDivisor (roundDown2 width) ∧ IsDivisor (roundDown2 height) then .filled (fill p left top width height)
      else .undefined
    | _, _, _, _ => .undefined

/-- The region that is scaled: the one of the list, or the frame. -/
def rectParams (processOnRoi : Bool) (frame : Frame) (roi : RectParams) : RectParams :=
  if processOnRoi then roi.clip frame else ⟨0, 0, frame.width, frame.height⟩

/-- The units of a frame, and whether all regions were added; `none`: there is no usable result. -/
def onFrame (processOnRoi : Bool) (frame : Frame) : List RectParams → Option (List Filled × Bool)
  | [] => some ([], true)
  | roi :: rois =>
    match scaleAndFillData p frame (rectParams processOnRoi frame roi) with
    | .undefined => none
    | .flowError => some ([], false)
    | .filled unit => (onFrame processOnRoi frame rois).map fun rest => (unit :: rest.1, rest.2)

end Fill

/-! ### A source -/

inductive Event where
  | roiUpdate (roiDim : List RoiDimension)
  | buffer (frame : Frame)

/-- The frames of a source, each with the regions it is processed with. -/
def processed : List RectParams → List Event → List (Frame × List RectParams)
  | _, [] => []
  | _, .roiUpdate roiDim :: events => processed (roiDim.map RoiDimension.toRectParams) events
  | rois, .buffer frame :: events => (frame, rois) :: processed rois events

/-! ### What should be added -/

section Spec

variable (p : GstNvDsPreProcess)

def IsEvenRect (r : PixelRect) : Prop := r.left % 2 = 0 ∧ r.top % 2 = 0 ∧ r.width % 2 = 0 ∧ r.height % 2 = 0

/-- The rectangle has pixels, all within these sides. -/
def WithinSides (r : PixelRect) (width height : ℕ) : Prop :=
  0 < r.width ∧ 0 < r.height ∧ r.left + r.width ≤ width ∧ r.top + r.height ≤ height

/-- Every byte is either in the picture or cleared. -/
def PadsRest (memsets : List Memset2D) (dst : PixelRect) : Prop :=
  ∀ x < p.processingWidth, ∀ y < p.processingHeight, ∀ b < p.surface.size,
    (∃ m ∈ memsets, m.Zeroes (p.surface.byte x y b)) ↔ ¬dst.Contains x y

structure Right (frame : Frame) (unit : Filled) : Prop where
  even : IsEvenRect unit.srcRect
  source : WithinSides unit.srcRect frame.width frame.height
  destination : WithinSides unit.dstRect p.processingWidth p.processingHeight
  padding : PadsRest p unit.memsets unit.dstRect
  ratios : 0 < unit.ratioX ∧ 0 < unit.ratioY

def FrameMeets (processOnRoi : Bool) (frame : Frame) (rois : List RectParams) : Prop :=
  ∃ result, onFrame p processOnRoi frame rois = some result ∧ ∀ unit ∈ result.1, Right p frame unit

def Meets (processOnRoi : Bool) (rois : List RectParams) (events : List Event) : Prop :=
  ∀ f ∈ processed rois events, FrameMeets p processOnRoi f.1 f.2

/-! ### When it is -/

def HasArea (rect : RectParams) : Prop := rect.width ≠ 0 ∧ rect.height ≠ 0

instance (rect : RectParams) : Decidable (HasArea rect) := inferInstanceAs (Decidable (_ ∧ _))

/-- A side that is rounded up at its beginning is rounded down at its end, or ends before the frame does. -/
def KeepsInside (start size limit : ℕ) : Prop := start % 2 = 0 ∨ size % 2 = 1 ∨ start + size < limit

/-- The beginning is in the frame, and the side has two pixels and is an `int`. -/
def UsableSide (start size : ℚ) (limit : ℕ) : Prop :=
  -1 < start ∧ 2 ≤ size ∧ roundDown2 (truncate size) < 2 ^ 31 ∧ KeepsInside (truncate start) (truncate size) limit

/-- The shorter side is not scaled to nothing. -/
def KeepsSides (srcWidth srcHeight : ℕ) : Prop :=
  p.maintainAspectRatio = true →
    if p.processingWidth * srcHeight % 2 ^ 32 ≤ p.processingHeight * srcWidth then
      srcWidth ≤ p.processingWidth * srcHeight % 2 ^ 32
    else srcHeight ≤ p.processingHeight * srcWidth % 2 ^ 32

structure Usable (frame : Frame) (rect : RectParams) : Prop where
  horizontal : UsableSide rect.left rect.width frame.width
  vertical : UsableSide rect.top rect.height frame.height
  sides : KeepsSides p (roundDown2 (truncate rect.width)) (roundDown2 (truncate rect.height))

/-- Every region before the first one without an area. -/
def FrameMeetsWhen (processOnRoi : Bool) (frame : Frame) (rois : List RectParams) : Prop :=
  ∀ rect ∈ (rois.map (rectParams processOnRoi frame)).takeWhile (HasArea ·), Usable p frame rect

def MeetsWhen (processOnRoi : Bool) (rois : List RectParams) (events : List Event) : Prop :=
  ∀ f ∈ processed rois events, FrameMeetsWhen p processOnRoi f.1 f.2

end Spec

/-! ### Sides -/

variable {p : GstNvDsPreProcess} {frame : Frame} {rect : RectParams}

theorem clipSide_le (start size : ℚ) (limit : ℕ) : start + clipSide start size limit ≤ limit := by
  unfold clipSide
  split
  · linarith
  · rename_i h
    exact not_lt.mp h

theorem clipSide_of_le {start size : ℚ} {limit : ℕ} (h : start + size ≤ limit) : clipSide start size limit = size :=
  if_neg (not_lt.mpr h)

/-- Nothing of the region is beyond the right and the bottom of the frame. -/
structure IsClipped (frame : Frame) (rect : RectParams) : Prop where
  horizontal : rect.left + rect.width ≤ frame.width
  vertical : rect.top + rect.height ≤ frame.height

theorem IsClipped.clip_eq (h : IsClipped frame rect) : rect.clip frame = rect := by
  unfold RectParams.clip
  rw [clipSide_of_le h.horizontal, clipSide_of_le h.vertical]

theorem isClipped_rectParams (processOnRoi : Bool) (frame : Frame) (roi : RectParams) :
    IsClipped frame (rectParams processOnRoi frame roi) := by
  cases processOnRoi with
  | false => exact ⟨(zero_add _).le, (zero_add _).le⟩
  | true => exact ⟨clipSide_le _ _ _, clipSide_le _ _ _⟩

theorem le_truncate {q : ℚ} {n : ℕ} (hn : 0 < n) : n ≤ truncate q ↔ n ≤ q := by
  have hfloor : (n : ℤ) ≤ ⌊q⌋ ↔ (n : ℚ) ≤ q := by rw [Int.le_floor, Int.cast_natCast]
  rw [← hfloor]
  unfold truncate
  omega

/-- Both are cut off towards 0, so that the end is not moved beyond the limit. -/
theorem truncate_add_le {start size : ℚ} {limit : ℕ} (hstart : -1 < start) (hsize : 0 ≤ size)
    (hle : start + size ≤ limit) : truncate start + truncate size ≤ limit := by
  have hsizeNonneg : 0 ≤ ⌊size⌋ := Int.floor_nonneg.mpr hsize
  have hsizeLe : (⌊size⌋ : ℚ) ≤ size := Int.floor_le size
  unfold truncate
  rcases lt_or_ge start 0 with hneg | hnonneg
  · have hfloor : ⌊start⌋ < 0 := Int.floor_lt.mpr (by exact_mod_cast hneg)
    have hlt : (⌊size⌋ : ℚ) < limit + 1 := by linarith
    have hlt' : ⌊size⌋ < limit + 1 := by exact_mod_cast hlt
    omega
  · have hstartNonneg : 0 ≤ ⌊start⌋ := Int.floor_nonneg.mpr hnonneg
    have hstartLe : (⌊start⌋ : ℚ) ≤ start := Int.floor_le start
    have hsum : (⌊start⌋ : ℚ) + ⌊size⌋ ≤ limit := by linarith
    have hsum' : ⌊start⌋ + ⌊size⌋ ≤ limit := by exact_mod_cast hsum
    omega

/-- The side can be converted, and its size divided by. -/
structure Converts (start size : ℚ) : Prop where
  start : -1 < start
  size : IsDivisor (roundDown2 (truncate size))

theorem roundDown2_pos_iff {size : ℚ} : 0 < roundDown2 (truncate size) ↔ 2 ≤ size := by
  have htwo : 2 ≤ truncate size ↔ (2 : ℚ) ≤ size := by exact_mod_cast le_truncate two_pos
  rw [← htwo]
  unfold roundDown2
  omega

theorem Converts.two_le {start size : ℚ} (h : Converts start size) : 2 ≤ size := roundDown2_pos_iff.mp h.size.1

theorem usableSide_iff {start size : ℚ} {limit : ℕ} : UsableSide start size limit ↔
    Converts start size ∧ KeepsInside (truncate start) (truncate size) limit := by
  constructor
  · rintro ⟨hstart, hsize, hint, hkeeps⟩
    exact ⟨⟨hstart, roundDown2_pos_iff.mpr hsize, hint⟩, hkeeps⟩
  · rintro ⟨h, hkeeps⟩
    exact ⟨h.start, h.two_le, h.size.2, hkeeps⟩

theorem Converts.toUnsigned {start size : ℚ} {limit : ℕ} (h : Converts start size) (hle : start + size ≤ limit)
    (hlimit : limit < 2 ^ 32) : toUnsigned start = some (truncate start) ∧ toUnsigned size = some (truncate size) := by
  have hlimit' : (limit : ℚ) + 1 ≤ 2 ^ 32 := by exact_mod_cast hlimit
  have htwo := h.two_le
  have hstart := h.start
  exact ⟨if_pos ⟨hstart, by linarith⟩, if_pos ⟨by linarith, by linarith⟩⟩

theorem keepsInside_iff {start size : ℚ} {limit : ℕ} (h : Converts start size) (hle : start + size ≤ limit) :
    roundUp2 (truncate start) + roundDown2 (truncate size) ≤ limit ↔
      KeepsInside (truncate start) (truncate size) limit := by
  have hsum := truncate_add_le h.start (by linarith [h.two_le]) hle
  unfold roundUp2 roundDown2 KeepsInside
  omega

/-! ### The picture and what is beside it -/

/-- The cases of the size of the picture: it takes up a whole side, and is not larger than the other. -/
theorem destSize_cases (p : GstNvDsPreProcess) {srcWidth srcHeight : ℕ} (hw : 0 < srcWidth) (hh : 0 < srcHeight) :
    let size := destSize p srcWidth srcHeight
    size.1 ≤ p.processingWidth ∧ size.2 ≤ p.processingHeight ∧
      (size.1 = p.processingWidth ∨ size.2 = p.processingHeight) ∧
      (p.maintainAspectRatio = false → size = (p.processingWidth, p.processingHeight)) ∧
      (0 < size.1 ∧ 0 < size.2 ↔ KeepsSides p srcWidth srcHeight) := by
  have hpw := p.processingWidth_pos
  have hph := p.processingHeight_pos
  unfold destSize KeepsSides
  cases p.maintainAspectRatio with
  | false => simp [hpw, hph]
  | true =>
    simp only [if_true, Bool.true_eq_false, false_imp_iff, true_imp_iff, true_and]
    split
    · rename_i hle
      refine ⟨le_rfl, Nat.div_le_of_le_mul (hle.trans_eq (Nat.mul_comm _ _)), .inl rfl, ?_⟩
      rw [and_iff_right hpw]
      exact Nat.div_pos_iff.trans (and_iff_right hw)
    · rename_i hgt
      refine ⟨?_, le_rfl, .inr rfl, ?_⟩
      · apply Nat.div_le_of_le_mul
        calc p.processingHeight * srcWidth % 2 ^ 32 ≤ p.processingHeight * srcWidth := Nat.mod_le _ _
          _ ≤ p.processingWidth * srcHeight % 2 ^ 32 := (Nat.lt_of_not_le hgt).le
          _ ≤ p.processingWidth * srcHeight := Nat.mod_le _ _
          _ = srcHeight * p.processingWidth := Nat.mul_comm _ _
      · rw [and_iff_left hph]
        exact Nat.div_pos_iff.trans (and_iff_right hh)

/-- The rectangles that are filled. -/
def paddingRects (p : GstNvDsPreProcess) (destWidth destHeight : ℕ) : List PixelRect :=
  if p.maintainAspectRatio then
    if !p.symmetricPadding then
      [⟨0, destWidth, p.processingWidth - destWidth, p.processingHeight⟩,
        ⟨destHeight, 0, destWidth, p.processingHeight - destHeight⟩]
    else
      let left := offsetLeft p destWidth
      let top := offsetTop p destHeight
      [⟨0, 0, left, p.processingHeight⟩,
        ⟨0, destWidth + left, p.processingWidth - destWidth - left, p.processingHeight⟩,
        ⟨0, 0, destWidth, top⟩,
        ⟨destHeight + top, 0, destWidth, p.processingHeight - destHeight - top⟩]
  else []

@[simp] theorem surface_size (p : GstNvDsPreProcess) : p.surface.size = pixelSize p.colorFormat := rfl

@[simp] theorem surface_pitch (p : GstNvDsPreProcess) : p.surface.pitch = p.pitch := rfl

@[simp] theorem surface_width (p : GstNvDsPreProcess) : p.surface.width = p.processingWidth := rfl

theorem offsetLeft_le (p : GstNvDsPreProcess) (destWidth : ℕ) :
    offsetLeft p destWidth ≤ p.processingWidth - destWidth := by
  unfold offsetLeft
  split <;> omega

theorem offsetTop_le (p : GstNvDsPreProcess) (destHeight : ℕ) :
    offsetTop p destHeight ≤ p.processingHeight - destHeight := by
  unfold offsetTop
  split <;> omega

theorem paddings_clear {destWidth : ℕ} (hw : destWidth ≤ p.processingWidth) (destHeight : ℕ) :
    List.Forall₂ (Memset2D.Clears p.surface) (paddings p destWidth destHeight)
      (paddingRects p destWidth destHeight) := by
  have hleft := offsetLeft_le p destWidth
  unfold paddings paddingRects
  dsimp only
  split
  · split
    · exact .cons ⟨by simp, rfl, rfl, rfl, by simp; omega⟩ (.cons ⟨by simp, rfl, rfl, rfl, by simpa⟩ .nil)
    · exact .cons ⟨by simp, rfl, rfl, rfl, by simp; omega⟩ (.cons ⟨by simp, rfl, rfl, rfl, by simp; omega⟩
        (.cons ⟨by simp, rfl, rfl, rfl, by simpa⟩ (.cons ⟨by simp, rfl, rfl, rfl, by simpa⟩ .nil)))
  · exact .nil

/-- The fills clear what is not in the picture, where it takes up a whole side. -/
theorem paddings_exact {destWidth destHeight : ℕ} (hw : destWidth ≤ p.processingWidth)
    (hh : destHeight ≤ p.processingHeight) (hwhole : destWidth = p.processingWidth ∨ destHeight = p.processingHeight)
    (hfree : p.maintainAspectRatio = false → destWidth = p.processingWidth ∧ destHeight = p.processingHeight) :
    PadsRest p (paddings p destWidth destHeight)
      ⟨offsetTop p destHeight, offsetLeft p destWidth, destWidth, destHeight⟩ := by
  intro x hx y hy b hb
  rw [Memset2D.exists_zeroes_iff (paddings_clear hw destHeight) hx hb]
  unfold paddingRects offsetLeft offsetTop
  cases hratio : p.maintainAspectRatio with
  | false =>
    obtain ⟨rfl, rfl⟩ := hfree hratio
    simp [PixelRect.Contains, hx, hy]
  | true =>
    cases p.symmetricPadding with
    | false =>
      simp only [Bool.not_false, Bool.and_false, Bool.false_eq_true, if_true, if_false, List.mem_cons, List.not_mem_nil,
        or_false, exists_eq_or_imp, exists_eq_left, PixelRect.Contains]
      omega
    | true =>
      simp only [Bool.not_true, Bool.and_true, Bool.false_eq_true, if_true, if_false, List.mem_cons, List.not_mem_nil,
        or_false, exists_eq_or_imp, exists_eq_left, PixelRect.Contains]
      omega

/-! ### What is added -/

theorem isDivisor_of_toUnsigned {size : ℚ} {n : ℕ} (h : toUnsigned size = some n) (hn : IsDivisor (roundDown2 n)) :
    IsDivisor (roundDown2 (truncate size)) := by
  unfold toUnsigned at h
  split at h
  · exact Option.some.inj h ▸ hn
  · cases h

theorem lt_of_toUnsigned {q : ℚ} {n : ℕ} (h : toUnsigned q = some n) : -1 < q := by
  unfold toUnsigned at h
  split at h
  · rename_i hrange
    exact hrange.1
  · cases h

/-- The unit of a region with an area, or nothing that could be used. -/
theorem scaleAndFillData_cases (hclipped : IsClipped frame rect) (harea : HasArea rect) :
    (Converts rect.left rect.width ∧ Converts rect.top rect.height ∧ scaleAndFillData p frame rect =
      .filled (fill p (truncate rect.left) (truncate rect.top) (truncate rect.width) (truncate rect.height))) ∨
    (¬(Converts rect.left rect.width ∧ Converts rect.top rect.height) ∧
      scaleAndFillData p frame rect = .undefined) := by
  have harea' : ¬(rect.width = 0 ∨ rect.height = 0) := not_or.mpr harea
  unfold scaleAndFillData
  rw [if_neg harea', hclipped.clip_eq]
  dsimp only
  by_cases hconverts : Converts rect.left rect.width ∧ Converts rect.top rect.height
  · left
    obtain ⟨hleft, hwidth⟩ := hconverts.1.toUnsigned hclipped.horizontal frame.width_lt
    obtain ⟨htop, hheight⟩ := hconverts.2.toUnsigned hclipped.vertical frame.height_lt
    rw [hleft, hwidth, htop, hheight]
    exact ⟨hconverts.1, hconverts.2, if_pos ⟨hconverts.1.size, hconverts.2.size⟩⟩
  · right
    refine ⟨hconverts, ?_⟩
    split
    · rename_i left top width height hleft htop hwidth hheight
      refine if_neg fun hdivisors => hconverts ⟨⟨lt_of_toUnsigned hleft, ?_⟩, lt_of_toUnsigned htop, ?_⟩
      · exact isDivisor_of_toUnsigned hwidth hdivisors.1
      · exact isDivisor_of_toUnsigned hheight hdivisors.2
    · rfl

theorem right_fill_iff (hclipped : IsClipped frame rect) (hhorizontal : Converts rect.left rect.width)
    (hvertical : Converts rect.top rect.height) :
    Right p frame (fill p (truncate rect.left) (truncate rect.top) (truncate rect.width) (truncate rect.height)) ↔
      Usable p frame rect := by
  have hleft := keepsInside_iff hhorizontal hclipped.horizontal
  have htop := keepsInside_iff hvertical hclipped.vertical
  obtain ⟨hw, hh, hwhole, hfree, hsides⟩ := destSize_cases p hhorizontal.size.1 hvertical.size.1
  constructor
  · rintro ⟨-, ⟨-, -, hright, hbottom⟩, ⟨hwpos, hhpos, -, -⟩, -, -⟩
    exact ⟨usableSide_iff.mpr ⟨hhorizontal, hleft.mp hright⟩, usableSide_iff.mpr ⟨hvertical, htop.mp hbottom⟩,
      hsides.mp ⟨hwpos, hhpos⟩⟩
  · rintro ⟨husableX, husableY, hkeeps⟩
    have hpos := hsides.mpr hkeeps
    have heven : ∀ n, n * 2 % 2 = 0 := fun n => Nat.mul_mod_left n 2
    refine ⟨⟨heven _, heven _, heven _, heven _⟩, ?_, ?_, ?_, ?_⟩
    · exact ⟨hhorizontal.size.1, hvertical.size.1, hleft.mpr (usableSide_iff.mp husableX).2,
        htop.mpr (usableSide_iff.mp husableY).2⟩
    · refine ⟨hpos.1, hpos.2, ?_, ?_⟩
      · calc offsetLeft p _ + _ ≤ p.processingWidth - _ + _ := Nat.add_le_add_right (offsetLeft_le p _) _
          _ = p.processingWidth := Nat.sub_add_cancel hw
      · calc offsetTop p _ + _ ≤ p.processingHeight - _ + _ := Nat.add_le_add_right (offsetTop_le p _) _
          _ = p.processingHeight := Nat.sub_add_cancel hh
    · exact paddings_exact hw hh hwhole fun hratio => Prod.ext_iff.mp (hfree hratio)
    · exact ⟨div_pos (Nat.cast_pos.mpr hpos.1) (Nat.cast_pos.mpr hhorizontal.size.1),
        div_pos (Nat.cast_pos.mpr hpos.2) (Nat.cast_pos.mpr hvertical.size.1)⟩

theorem usable_iff (hclipped : IsClipped frame rect) (harea : HasArea rect) :
    (∃ unit, scaleAndFillData p frame rect = .filled unit ∧ Right p frame unit) ↔ Usable p frame rect := by
  rcases scaleAndFillData_cases (p := p) hclipped harea with ⟨hhorizontal, hvertical, h⟩ | ⟨hconverts, h⟩
  · rw [h, ← right_fill_iff hclipped hhorizontal hvertical]
    exact ⟨fun ⟨_, heq, hright⟩ => Outcome.filled.inj heq ▸ hright, fun hright => ⟨_, rfl, hright⟩⟩
  · rw [h]
    refine iff_of_false (fun ⟨_, heq, _⟩ => by cases heq) fun husable => hconverts ?_
    exact ⟨(usableSide_iff.mp husable.horizontal).1, (usableSide_iff.mp husable.vertical).1⟩

theorem scaleAndFillData_of_not_hasArea (h : ¬HasArea rect) : scaleAndFillData p frame rect = .flowError := by
  have hzero : rect.width = 0 ∨ rect.height = 0 := by
    unfold HasArea at h
    tauto
  exact if_pos hzero

theorem frameMeets_cons {processOnRoi : Bool} {roi : RectParams} {rois : List RectParams} {unit : Filled}
    (h : scaleAndFillData p frame (rectParams processOnRoi frame roi) = .filled unit) :
    FrameMeets p processOnRoi frame (roi :: rois) ↔ Right p frame unit ∧ FrameMeets p processOnRoi frame rois := by
  unfold FrameMeets
  rw [onFrame, h]
  dsimp only
  simp only [Option.map_eq_some_iff]
  constructor
  · rintro ⟨_, ⟨rest, hrest, rfl⟩, hright⟩
    exact ⟨hright unit List.mem_cons_self, rest, hrest, fun u hu => hright u (List.mem_cons_of_mem _ hu)⟩
  · rintro ⟨hunit, rest, hrest, hright⟩
    exact ⟨_, ⟨rest, hrest, rfl⟩, List.forall_mem_cons.mpr ⟨hunit, hright⟩⟩

theorem frameMeets_iff (p : GstNvDsPreProcess) (processOnRoi : Bool) (frame : Frame) (rois : List RectParams) :
    FrameMeets p processOnRoi frame rois ↔ FrameMeetsWhen p processOnRoi frame rois := by
  unfold FrameMeetsWhen
  induction rois with
  | nil => exact iff_of_true ⟨_, rfl, List.forall_mem_nil _⟩ (List.forall_mem_nil _)
  | cons roi rois ih =>
    have hclipped := isClipped_rectParams processOnRoi frame roi
    rw [List.map_cons, List.takeWhile_cons]
    by_cases harea : HasArea (rectParams processOnRoi frame roi)
    · rw [if_pos (decide_eq_true harea), List.forall_mem_cons, ← ih, ← usable_iff hclipped harea]
      rcases scaleAndFillData_cases (p := p) hclipped harea with ⟨-, -, h⟩ | ⟨-, h⟩
      · rw [frameMeets_cons h, h]
        refine and_congr_left fun _ => ⟨fun hright => ⟨_, rfl, hright⟩, ?_⟩
        rintro ⟨_, heq, hright⟩
        exact Outcome.filled.inj heq ▸ hright
      · refine iff_of_false (fun hmeets => ?_) fun hmeets => ?_
        · obtain ⟨result, hresult, -⟩ := hmeets
          rw [onFrame, h] at hresult
          cases hresult
        · obtain ⟨⟨unit, hunit, -⟩, -⟩ := hmeets
          cases h.symm.trans hunit
    · rw [if_neg (by simpa using harea)]
      refine iff_of_true ⟨([], false), ?_, List.forall_mem_nil _⟩ (List.forall_mem_nil _)
      rw [onFrame, scaleAndFillData_of_not_hasArea harea]

/-- Every unit is right, in every frame, exactly for these regions. -/
theorem regions_meet_iff (p : GstNvDsPreProcess) (processOnRoi : Bool) (rois : List RectParams)
    (events : List Event) : Meets p processOnRoi rois events ↔ MeetsWhen p processOnRoi rois events :=
  forall₂_congr fun f _ => frameMeets_iff p processOnRoi f.1 f.2

/-- Four by four pixels, as the frame. -/
def smallElement : GstNvDsPreProcess where
  processingWidth := 4
  processingHeight := 4
  maintainAspectRatio := true
  symmetricPadding := false
  colorFormat := .rgba
  pitch := 16
  processingWidth_pos := by decide
  processingHeight_pos := by decide
  wide := by decide
  dataSize_lt := by decide

def smallFrame : Frame where
  width := 4
  height := 4
  width_lt := by decide
  height_lt := by decide

/-- A region that begins beyond the frame. -/
def beyondFrame : RoiDimension := ⟨6, 0, 2, 2⟩

/-- Its width becomes negative, and is converted all the same. -/
theorem not_meets_beyondFrame : ¬Meets smallElement true [] [.roiUpdate [beyondFrame], .buffer smallFrame] := by
  intro h
  have hclip : rectParams true smallFrame beyondFrame.toRectParams = ⟨6, 0, -2, 2⟩ := by
    norm_num [rectParams, RectParams.clip, clipSide, beyondFrame, RoiDimension.toRectParams, smallFrame]
  have hwhen := (frameMeets_iff _ _ _ _).mp (h (smallFrame, [beyondFrame.toRectParams]) List.mem_cons_self)
  have husable : Usable smallElement smallFrame ⟨6, 0, -2, 2⟩ := by
    refine hwhen _ ?_
    rw [List.map_singleton, hclip, List.takeWhile_cons, if_pos (by norm_num [HasArea])]
    exact List.mem_cons_self
  have htwo : (2 : ℚ) ≤ -2 := husable.horizontal.2.1
  norm_num at htwo

end Regions
end Preprocess
end DeepStream
