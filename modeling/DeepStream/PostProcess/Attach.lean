/-
# The boxes that gst-nvdspostprocess attaches

Detected boxes are in the pixels of the network's input, and `attachMetadata` takes them to the
frame with the ratios of the sizes of the surface and of the network. The detector uses the larger of
the two where the aspect ratio is kept, the copy for instance segmentation does not; and both use the
sizes of the frame also where an object was cropped, and filter the box before they move it to
where the object is.

gst-nvinfer scales what it crops by ratios of whole numbers of pixels: the size of the crop is rounded
down to even, and where the aspect ratio is kept the size in the input is rounded down. So the boxes go
back to where they come from only where nothing is rounded, and in the mode for objects only where
the object spans the frame in the direction that decides the ratio.

Floats are rational numbers. The sizes of a surface are those of a `gint`. Masks, fonts, and the
copy of the label of limited length are left out.
-/
import DeepStream.PostProcess.Detect
import DeepStream.NvInfer.Scaling

namespace DeepStream
namespace PostProcess
namespace Attach

open NvInfer.Detector (RectParams GstNvInfer Converted InFrame getConvertedBuffer cropRect destSize roundDown2 roundUp2)
open Detect (Object)

/-! ### `attachMetadata` -/

structure ObjectMeta where
  uniqueComponentId : ℤ
  confidence : ℚ
  classId : ℕ
  rectParams : RectParams
  orgBboxCoords : RectParams
  hasBgColor : Bool
  bgColor : ColorParams
  borderColor : ColorParams
  displayText : Option Text
  xOffset : ℚ
  yOffset : ℚ
  deriving DecidableEq, Repr

/-- `surf->surfaceList[batch_idx]`. -/
structure SurfaceParams where
  width : ℕ
  height : ℕ
  width_lt : width < 2 ^ 31 := by decide
  height_lt : height < 2 ^ 31 := by decide

/-- What the function reads besides the objects; there is a parent in the mode for objects. -/
structure Args where
  surf : SurfaceParams
  networkWidth : ℕ
  networkHeight : ℕ
  parent : Option RectParams
  allParams : List DetectionParams
  filterOutClassIds : List ℤ
  uniqueId : ℤ
  maintainAspectRatio : Bool

/-- The tests of the loop, for the class and the scaled box. -/
def passes (filterOutClassIds : List ℤ) (surfHeight : ℕ) (classIndex : ℕ) (d : DetectionParams) (r : RectParams) : Bool :=
  decide ((classIndex : ℤ) ∉ filterOutClassIds ∧ ¬ r.width < d.detectionMinWidth ∧ ¬ r.height < d.detectionMinHeight ∧
    ¬ (0 < d.detectionMaxWidth ∧ r.width > d.detectionMaxWidth) ∧
    ¬ (0 < d.detectionMaxHeight ∧ r.height > d.detectionMaxHeight) ∧
    ¬ r.top < d.roiTopOffset ∧ ¬ r.top + r.height > wrapSub 32 surfHeight d.roiBottomOffset)

def scaled (scaleX scaleY : ℚ) (obj : Object) : RectParams where
  left := (obj.left - 0) * scaleX + 0
  top := (obj.top - 0) * scaleY + 0
  width := obj.width * scaleX
  height := obj.height * scaleY

/-- In the mode for objects the box is moved to where the parent is. -/
def moved (parent : Option RectParams) (r : RectParams) : RectParams :=
  match parent with
  | none => r
  | some parent => { r with left := r.left + parent.left, top := r.top + parent.top }

def objectMeta (args : Args) (obj : Object) (d : DetectionParams) (r : RectParams) : ObjectMeta where
  uniqueComponentId := args.uniqueId
  confidence := obj.confidence
  classId := obj.classIndex
  rectParams := r
  orgBboxCoords := r
  hasBgColor := d.haveBgColor
  bgColor := d.bgColor
  borderColor := d.borderColor
  displayText := obj.label
  xOffset := r.left
  yOffset := r.top - 10

/-- The loop over the objects, which changes the scale factors on its way; `adjust` is for the copy
that looks at the aspect ratio. A class without parameters is undefined. -/
def attachObjects (adjust : Bool) (args : Args) : ℚ → ℚ → List Object → Option (List ObjectMeta)
  | _, _, [] => some []
  | scaleX, scaleY, obj :: objs => do
    let d ← args.allParams[obj.classIndex]?
    let (scaleX, scaleY) :=
      if adjust && args.maintainAspectRatio then
        if scaleX > scaleY then (scaleX, scaleX) else (scaleY, scaleY)
      else (scaleX, scaleY)
    let rest ← attachObjects adjust args scaleX scaleY objs
    let r := scaled scaleX scaleY obj
    if passes args.filterOutClassIds args.surf.height obj.classIndex d r then
      some (objectMeta args obj d (moved args.parent r) :: rest)
    else some rest

def scaleX (args : Args) : ℚ := args.surf.width / args.networkWidth

def scaleY (args : Args) : ℚ := args.surf.height / args.networkHeight

def DetectModelPostProcessor.attachMetadata (args : Args) (objs : List Object) : Option (List ObjectMeta) :=
  attachObjects true args (scaleX args) (scaleY args) objs

def InstanceSegmentModelPostProcessor.attachMetadata (args : Args) (objs : List Object) : Option (List ObjectMeta) :=
  attachObjects false args (scaleX args) (scaleY args) objs

/-! ### What is to hold -/

inductive Kind where
  | detect | instanceSegment
  deriving DecidableEq, Repr

def attachMetadata : Kind → Args → List Object → Option (List ObjectMeta)
  | .detect => DetectModelPostProcessor.attachMetadata
  | .instanceSegment => InstanceSegmentModelPostProcessor.attachMetadata

section Meets

variable (kind : Kind) (nvinfer : GstNvInfer) (surf : SurfaceParams) (obj : RectParams)

def SurfaceParams.toSurface (surf : SurfaceParams) : NvInfer.Detector.Surface where
  width := surf.width
  height := surf.height
  width_lt := surf.width_lt.trans (by decide)
  height_lt := surf.height_lt.trans (by decide)

/-- The size of the network and the flag come with the tensors of gst-nvinfer. -/
def argsOf (allParams : List DetectionParams) (filterOutClassIds : List ℤ) (uniqueId : ℤ) : Args where
  surf := surf
  networkWidth := nvinfer.networkWidth
  networkHeight := nvinfer.networkHeight
  parent := if nvinfer.processFullFrame then none else some obj
  allParams := allParams
  filterOutClassIds := filterOutClassIds
  uniqueId := uniqueId
  maintainAspectRatio := nvinfer.maintainAspectRatio

def boxOf (obj : Object) : RectParams := ⟨obj.left, obj.top, obj.width, obj.height⟩

/-- The filters of the class, for the box of an object. -/
def keeps (filterOutClassIds : List ℤ) (allParams : List DetectionParams) (entry : Object × RectParams) : Bool :=
  allParams[entry.1.classIndex]?.any fun d => passes filterOutClassIds surf.height entry.1.classIndex d entry.2

/-- With whichever filters and objects, those are attached whose box in the frame passes, at that box:
the one that the way to the network takes to the box of the object. -/
def Meets : Prop :=
  ∃ conv, getConvertedBuffer nvinfer (cropRect nvinfer surf.toSurface obj) = some conv ∧
    ∀ allParams filterOutClassIds uniqueId (objs : List Object), (∀ o ∈ objs, o.classIndex < allParams.length) →
      ∃ attached rects, attachMetadata kind (argsOf nvinfer surf obj allParams filterOutClassIds uniqueId) objs = some attached ∧
        List.Forall₂ (fun o r => conv.forward r = boxOf o) objs rects ∧
        attached.map (fun m => (m.classId, m.rectParams)) =
          ((objs.zip rects).filter (keeps surf filterOutClassIds allParams)).map fun (o, r) => (o.classIndex, r)

/-- The ratios are those of a crop of this size. Where the aspect ratio is kept, the crop has the size of the
surface in the direction that decides, and in the other its size in the input is a whole number. -/
def ScalesBack (srcWidth srcHeight : ℕ) : Prop :=
  0 < nvinfer.networkWidth ∧ 0 < nvinfer.networkHeight ∧
    if nvinfer.maintainAspectRatio then
      match kind with
      | .detect =>
        (srcWidth = surf.width ∧ nvinfer.networkWidth * surf.height ≤ nvinfer.networkHeight * surf.width ∧
          nvinfer.networkWidth * srcHeight < 2 ^ 32 ∧ surf.width ∣ nvinfer.networkWidth * srcHeight) ∨
        (srcHeight = surf.height ∧ nvinfer.networkHeight * surf.width ≤ nvinfer.networkWidth * surf.height ∧
          nvinfer.networkHeight * srcWidth < nvinfer.networkWidth * surf.height % 2 ^ 32 ∧
          surf.height ∣ nvinfer.networkHeight * srcWidth)
      | .instanceSegment =>
        if nvinfer.networkWidth * srcHeight % 2 ^ 32 ≤ nvinfer.networkHeight * srcWidth then
          srcWidth = surf.width ∧
            surf.height * (nvinfer.networkWidth * srcHeight % 2 ^ 32 / srcWidth) = nvinfer.networkHeight * srcHeight
        else
          srcHeight = surf.height ∧
            surf.width * (nvinfer.networkHeight * srcWidth % 2 ^ 32 / srcHeight) = nvinfer.networkWidth * srcWidth
    else srcWidth = surf.width ∧ srcHeight = surf.height

/-- For what is cropped, the frame or the object. -/
structure MeetsWhen : Prop where
  width : 2 ≤ (cropRect nvinfer surf.toSurface obj).width
  height : 2 ≤ (cropRect nvinfer surf.toSurface obj).height
  left : ∃ n : ℕ, (cropRect nvinfer surf.toSurface obj).left = 2 * n
  top : (cropRect nvinfer surf.toSurface obj).top = 0
  scales : ScalesBack kind nvinfer surf (roundDown2 (NvInfer.Detector.toUnsigned (cropRect nvinfer surf.toSurface obj).width))
    (roundDown2 (NvInfer.Detector.toUnsigned (cropRect nvinfer surf.toSurface obj).height))

end Meets

/-! ### The loop -/

/-- The factors from the first object on. -/
def factor (adjust : Bool) (args : Args) (scale : ℚ × ℚ) : ℚ × ℚ :=
  if adjust && args.maintainAspectRatio then (max scale.1 scale.2, max scale.1 scale.2) else scale

theorem factor_eq (adjust : Bool) (args : Args) (scaleX scaleY : ℚ) :
    (if adjust && args.maintainAspectRatio then
      if scaleX > scaleY then (scaleX, scaleX) else (scaleY, scaleY)
    else (scaleX, scaleY)) = factor adjust args (scaleX, scaleY) := by
  unfold factor
  refine ite_congr rfl (fun _ => ?_) fun _ => rfl
  split
  · rename_i h
    rw [max_eq_left (le_of_lt h)]
  · rename_i h
    rw [max_eq_right (not_lt.mp h)]

/-- The loop changes the factors once. -/
theorem factor_factor (adjust : Bool) (args : Args) (scale : ℚ × ℚ) :
    factor adjust args (factor adjust args scale) = factor adjust args scale := by
  unfold factor
  split
  · rw [max_self]
  · rfl

/-- What is attached for an object. -/
def attachedOf (args : Args) (scale : ℚ × ℚ) (obj : Object) : Option ObjectMeta :=
  args.allParams[obj.classIndex]?.bind fun d =>
    if passes args.filterOutClassIds args.surf.height obj.classIndex d (scaled scale.1 scale.2 obj) then
      some (objectMeta args obj d (moved args.parent (scaled scale.1 scale.2 obj)))
    else none

theorem attachObjects_eq (adjust : Bool) (args : Args) : ∀ (objs : List Object) (scaleX scaleY : ℚ),
    (∀ o ∈ objs, o.classIndex < args.allParams.length) → attachObjects adjust args scaleX scaleY objs =
      some (objs.filterMap (attachedOf args (factor adjust args (scaleX, scaleY))))
  | [], _, _, _ => rfl
  | obj :: objs, scaleX, scaleY, h => by
    have hclass : obj.classIndex < args.allParams.length := h obj List.mem_cons_self
    have hd := List.getElem?_eq_getElem hclass
    have ih := attachObjects_eq adjust args objs (factor adjust args (scaleX, scaleY)).1
      (factor adjust args (scaleX, scaleY)).2 fun o ho => h o (List.mem_cons_of_mem _ ho)
    have hobj : attachedOf args (factor adjust args (scaleX, scaleY)) obj =
        if passes args.filterOutClassIds args.surf.height obj.classIndex args.allParams[obj.classIndex]
          (scaled (factor adjust args (scaleX, scaleY)).1 (factor adjust args (scaleX, scaleY)).2 obj) then
        some (objectMeta args obj args.allParams[obj.classIndex]
          (moved args.parent (scaled (factor adjust args (scaleX, scaleY)).1 (factor adjust args (scaleX, scaleY)).2 obj)))
        else none := by
      rw [attachedOf, hd, Option.bind_some]
    rw [Prod.mk.eta, factor_factor] at ih
    rw [attachObjects, hd, factor_eq]
    simp only [Option.bind_eq_bind, Option.bind_some, ih, List.filterMap_cons, hobj]
    split
    · rfl
    · rfl

/-- The factors of a post-processor. -/
def scaleOf (kind : Kind) (args : Args) : ℚ × ℚ := factor (kind == .detect) args (scaleX args, scaleY args)

theorem attachMetadata_eq (kind : Kind) {args : Args} {objs : List Object}
    (h : ∀ o ∈ objs, o.classIndex < args.allParams.length) :
    attachMetadata kind args objs = some (objs.filterMap (attachedOf args (scaleOf kind args))) := by
  cases kind with
  | detect => exact attachObjects_eq true args objs _ _ h
  | instanceSegment => exact attachObjects_eq false args objs _ _ h

/-! ### Back and forth -/

section Ratios

variable {kind : Kind} {nvinfer : GstNvInfer} {surf : SurfaceParams} {obj : RectParams} {conv : Converted}

/-- With padding at the right and the bottom the picture is at the origin of the input. -/
theorem offsets_eq_zero (hpad : nvinfer.symmetricPadding = false) {crop : RectParams}
    (h : getConvertedBuffer nvinfer crop = some conv) : conv.offsetLeft = 0 ∧ conv.offsetTop = 0 := by
  obtain ⟨-, hconv⟩ := Option.ite_none_left_eq_some.mp h
  cases hconv
  simp [hpad]

/-- The scale factors. -/
def ratios (kind : Kind) (nvinfer : GstNvInfer) (surf : SurfaceParams) : ℚ × ℚ :=
  scaleOf kind (argsOf nvinfer surf ⟨0, 0, 0, 0⟩ [] [] 0)

/-- The box that is attached for an object. -/
def frameBox (kind : Kind) (nvinfer : GstNvInfer) (surf : SurfaceParams) (obj : RectParams) (o : Object) : RectParams where
  left := o.left * (ratios kind nvinfer surf).1 + (cropRect nvinfer surf.toSurface obj).left
  top := o.top * (ratios kind nvinfer surf).2 + (cropRect nvinfer surf.toSurface obj).top
  width := o.width * (ratios kind nvinfer surf).1
  height := o.height * (ratios kind nvinfer surf).2

theorem moved_scaled (o : Object) : moved (if nvinfer.processFullFrame then none else some obj)
    (scaled (ratios kind nvinfer surf).1 (ratios kind nvinfer surf).2 o) = frameBox kind nvinfer surf obj o := by
  cases hfull : nvinfer.processFullFrame with
  | true => simp [moved, scaled, frameBox, cropRect, hfull]
  | false => simp [moved, scaled, frameBox, cropRect, hfull]

theorem passes_frameBox (htop : (cropRect nvinfer surf.toSurface obj).top = 0) (filterOutClassIds : List ℤ)
    (classIndex : ℕ) (d : DetectionParams) (o : Object) :
    passes filterOutClassIds surf.height classIndex d (scaled (ratios kind nvinfer surf).1 (ratios kind nvinfer surf).2 o) =
      passes filterOutClassIds surf.height classIndex d (frameBox kind nvinfer surf obj o) := by
  simp [passes, scaled, frameBox, htop]

/-- The objects that pass with the box that is attached. -/
theorem filterMap_attachedOf (htop : (cropRect nvinfer surf.toSurface obj).top = 0) (allParams : List DetectionParams)
    (filterOutClassIds : List ℤ) (uniqueId : ℤ) : ∀ objs : List Object,
    (objs.filterMap (attachedOf (argsOf nvinfer surf obj allParams filterOutClassIds uniqueId) (ratios kind nvinfer surf))).map
        (fun m => (m.classId, m.rectParams)) =
      ((objs.zip (objs.map (frameBox kind nvinfer surf obj))).filter (keeps surf filterOutClassIds allParams)).map
        fun (o, r) => (o.classIndex, r)
  | [] => rfl
  | o :: objs => by
    have ih := filterMap_attachedOf htop allParams filterOutClassIds uniqueId objs
    have hkeeps : keeps surf filterOutClassIds allParams (o, frameBox kind nvinfer surf obj o) =
        allParams[o.classIndex]?.any fun d => passes filterOutClassIds surf.height o.classIndex d
          (frameBox kind nvinfer surf obj o) := rfl
    have hattached : attachedOf (argsOf nvinfer surf obj allParams filterOutClassIds uniqueId) (ratios kind nvinfer surf) o =
        allParams[o.classIndex]?.bind fun d =>
          if passes filterOutClassIds surf.height o.classIndex d (frameBox kind nvinfer surf obj o) then
            some (objectMeta (argsOf nvinfer surf obj allParams filterOutClassIds uniqueId) o d (frameBox kind nvinfer surf obj o))
          else none := by
      unfold attachedOf
      simp only [argsOf, passes_frameBox htop, moved_scaled]
    rw [List.map_cons, List.zip_cons_cons, List.filterMap_cons, List.filter_cons, hkeeps, hattached]
    cases allParams[o.classIndex]? with
    | none => exact ih
    | some d =>
      by_cases hpass : passes filterOutClassIds surf.height o.classIndex d (frameBox kind nvinfer surf obj o) = true
      · simp only [Option.bind_some, Option.any_some, hpass, if_true, List.map_cons, ih]
        rfl
      · simp only [Option.bind_some, Option.any_some, hpass]
        exact ih

theorem forward_frameBox (hpad : nvinfer.symmetricPadding = false)
    (hconv : getConvertedBuffer nvinfer (cropRect nvinfer surf.toSurface obj) = some conv) (o : Object) :
    conv.forward (frameBox kind nvinfer surf obj o) =
      { left := o.left * ((ratios kind nvinfer surf).1 * conv.ratioX) +
          ((cropRect nvinfer surf.toSurface obj).left - conv.srcRect.left) * conv.ratioX
        top := o.top * ((ratios kind nvinfer surf).2 * conv.ratioY) +
          ((cropRect nvinfer surf.toSurface obj).top - conv.srcRect.top) * conv.ratioY
        width := o.width * ((ratios kind nvinfer surf).1 * conv.ratioX)
        height := o.height * ((ratios kind nvinfer surf).2 * conv.ratioY) } := by
  obtain ⟨hleft, htop⟩ := offsets_eq_zero hpad hconv
  simp only [Converted.forward, frameBox, hleft, htop, Nat.cast_zero, RectParams.mk.injEq]
  exact ⟨by ring, by ring, by ring, by ring⟩

/-- The ratios and the origin go together, and the box that is filtered is the one that is attached. -/
structure Inverts (kind : Kind) (nvinfer : GstNvInfer) (surf : SurfaceParams) (obj : RectParams) (conv : Converted) : Prop where
  left : (cropRect nvinfer surf.toSurface obj).left = conv.srcRect.left
  top : (cropRect nvinfer surf.toSurface obj).top = 0
  srcTop : conv.srcRect.top = 0
  ratioX : (ratios kind nvinfer surf).1 * conv.ratioX = 1
  ratioY : (ratios kind nvinfer surf).2 * conv.ratioY = 1

theorem meets_of_inverts (hpad : nvinfer.symmetricPadding = false)
    (hconv : getConvertedBuffer nvinfer (cropRect nvinfer surf.toSurface obj) = some conv)
    (h : Inverts kind nvinfer surf obj conv) : Meets kind nvinfer surf obj := by
  refine ⟨conv, hconv, fun allParams filterOutClassIds uniqueId objs hclasses =>
    ⟨_, objs.map (frameBox kind nvinfer surf obj), attachMetadata_eq kind hclasses, ?_,
      filterMap_attachedOf h.top allParams filterOutClassIds uniqueId objs⟩⟩
  rw [List.forall₂_map_right_iff, List.forall₂_same]
  intro o _
  rw [forward_frameBox hpad hconv, h.ratioX, h.ratioY, h.left, h.top, h.srcTop]
  simp [boxOf]

/-! ### Two objects that show it -/

/-- An object of the first class at the origin of the input. -/
def atOrigin (width height : ℚ) : Object := ⟨0, 0, width, height, 0, none, 0⟩

theorem ratios_nonneg (kind : Kind) (nvinfer : GstNvInfer) (surf : SurfaceParams) :
    0 ≤ (ratios kind nvinfer surf).1 ∧ 0 ≤ (ratios kind nvinfer surf).2 := by
  have hx : 0 ≤ scaleX (argsOf nvinfer surf ⟨0, 0, 0, 0⟩ [] [] 0) := div_nonneg (Nat.cast_nonneg _) (Nat.cast_nonneg _)
  have hy : 0 ≤ scaleY (argsOf nvinfer surf ⟨0, 0, 0, 0⟩ [] [] 0) := div_nonneg (Nat.cast_nonneg _) (Nat.cast_nonneg _)
  unfold ratios scaleOf factor
  split
  · exact ⟨le_max_of_le_left hx, le_max_of_le_left hx⟩
  · exact ⟨hx, hy⟩

theorem passes_iff (d : DetectionParams) (hd : d = { ({} : DetectionParams) with roiTopOffset := d.roiTopOffset })
    (r : RectParams) : passes [] surf.height 0 d r = true ↔
      0 ≤ r.width ∧ 0 ≤ r.height ∧ (d.roiTopOffset : ℚ) ≤ r.top ∧ r.top + r.height ≤ surf.height := by
  have hband : wrapSub 32 surf.height 0 = surf.height := wrapSub_of_le (Nat.zero_le _) (surf.height_lt.trans (by decide))
  rw [hd]
  simp [passes, hband]

/-- What is attached for one object, with one class. -/
theorem meets_single (h : Meets kind nvinfer surf obj) : ∃ conv,
    getConvertedBuffer nvinfer (cropRect nvinfer surf.toSurface obj) = some conv ∧
      ∀ (d : DetectionParams) (o : Object), o.classIndex = 0 → ∃ r, conv.forward r = boxOf o ∧
        (passes [] surf.height 0 d (scaled (ratios kind nvinfer surf).1 (ratios kind nvinfer surf).2 o) = true →
          r = frameBox kind nvinfer surf obj o) ∧
        (passes [] surf.height 0 d r = true →
          passes [] surf.height 0 d (scaled (ratios kind nvinfer surf).1 (ratios kind nvinfer surf).2 o) = true) := by
  obtain ⟨conv, hconv, hall⟩ := h
  refine ⟨conv, hconv, fun d o ho => ?_⟩
  have hclass : ∀ o' ∈ [o], o'.classIndex < [d].length := fun o' ho' => by
    rw [List.mem_singleton.mp ho', ho]
    exact Nat.zero_lt_one
  obtain ⟨attached, rects, hrun, hrects, hlist⟩ := hall [d] [] 0 [o] hclass
  obtain ⟨r, rest, hr, hnil, rfl⟩ := List.forall₂_cons_left_iff.mp hrects
  obtain rfl := List.forall₂_nil_left_iff.mp hnil
  rw [attachMetadata_eq kind hclass] at hrun
  obtain rfl := Option.some.inj hrun
  have hattached : attachedOf (argsOf nvinfer surf obj [d] [] 0) (ratios kind nvinfer surf) o =
      if passes [] surf.height 0 d (scaled (ratios kind nvinfer surf).1 (ratios kind nvinfer surf).2 o) then
        some (objectMeta (argsOf nvinfer surf obj [d] [] 0) o d (frameBox kind nvinfer surf obj o)) else none := by
    unfold attachedOf
    simp only [argsOf, ho, moved_scaled, List.getElem?_cons_zero, Option.bind_some]
  have hkeeps : keeps surf [] [d] (o, r) = passes [] surf.height 0 d r := by
    simp [keeps, ho]
  change ([o].filterMap (attachedOf (argsOf nvinfer surf obj [d] [] 0) (ratios kind nvinfer surf))).map _ = _ at hlist
  rw [List.zip_cons_cons, List.zip_nil_right, List.filter_singleton, hkeeps, List.filterMap_cons, hattached,
    List.filterMap_nil] at hlist
  refine ⟨r, hr, fun hpass => ?_, fun hpass => ?_⟩
  · rw [if_pos hpass] at hlist
    cases hkept : passes [] surf.height 0 d r with
    | false => simp [hkept] at hlist
    | true =>
      simp only [hkept, cond_true, List.map_cons, List.map_nil, List.cons.injEq, and_true] at hlist
      exact (Prod.mk.inj hlist).2.symm
  · by_contra hdrop
    rw [if_neg hdrop, hpass] at hlist
    simp at hlist

theorem inverts_of_meets (hpad : nvinfer.symmetricPadding = false)
    (hin : InFrame surf.toSurface (cropRect nvinfer surf.toSurface obj)) (h : Meets kind nvinfer surf obj) :
    ∃ conv, getConvertedBuffer nvinfer (cropRect nvinfer surf.toSurface obj) = some conv ∧
      Inverts kind nvinfer surf obj conv := by
  obtain ⟨conv, hconv, hall⟩ := meets_single h
  obtain ⟨-, hheight⟩ := NvInfer.Detector.getConvertedBuffer_isSome_iff.mp (Option.isSome_of_eq_some hconv)
  obtain ⟨hsx, hsy⟩ := ratios_nonneg kind nvinfer surf
  obtain ⟨hoffLeft, hoffTop⟩ := offsets_eq_zero hpad hconv
  have hbottom : (cropRect nvinfer surf.toSurface obj).top + (cropRect nvinfer surf.toSurface obj).height ≤ surf.height := hin.bottom
  have hsurf : (0 : ℚ) < surf.height := by linarith [hin.top]
  -- an object low enough to pass at the origin, and wide
  let δ : ℚ := surf.height / ((ratios kind nvinfer surf).2 + 1)
  have hpos : 0 < (ratios kind nvinfer surf).2 + 1 := by linarith
  have hδ : 0 < δ := div_pos hsurf hpos
  have hlow : δ * (ratios kind nvinfer surf).2 ≤ surf.height := by
    have hsum : δ * ((ratios kind nvinfer surf).2 + 1) = surf.height := div_mul_cancel₀ _ hpos.ne'
    linarith
  obtain ⟨r, hr, hbox, -⟩ := hall {} (atOrigin 1 δ) rfl
  have hpass : passes [] surf.height 0 {} (scaled (ratios kind nvinfer surf).1 (ratios kind nvinfer surf).2 (atOrigin 1 δ)) = true := by
    rw [passes_iff {} rfl]
    simp only [scaled, atOrigin, sub_zero, zero_mul, add_zero, zero_add, one_mul, Nat.cast_zero, le_refl, true_and]
    exact ⟨hsx, mul_nonneg hδ.le hsy, hlow⟩
  rw [hbox hpass, forward_frameBox hpad hconv] at hr
  simp only [atOrigin, boxOf, zero_mul, zero_add, one_mul, RectParams.mk.injEq] at hr
  obtain ⟨hleft, htop, hx, hy⟩ := hr
  have hratioX : conv.ratioX ≠ 0 := right_ne_zero_of_mul_eq_one hx
  have hy' : (ratios kind nvinfer surf).2 * conv.ratioY = 1 := mul_left_cancel₀ hδ.ne' (by rw [hy, mul_one])
  have hratioY : conv.ratioY ≠ 0 := right_ne_zero_of_mul_eq_one hy'
  have hleft' := sub_eq_zero.mp ((mul_eq_zero_iff_right hratioX).mp hleft)
  have htop' := sub_eq_zero.mp ((mul_eq_zero_iff_right hratioY).mp htop)
  -- an offset of one pixel tells the top of the object from that of the frame
  have hsrcTop : conv.srcRect.top = 0 := by
    by_contra hne
    have hge : (1 : ℚ) ≤ conv.srcRect.top := by exact_mod_cast Nat.one_le_iff_ne_zero.mpr hne
    obtain ⟨r, hr, -, hkept⟩ := hall { roiTopOffset := 1 } (atOrigin 0 0) rfl
    simp only [Converted.forward, hoffLeft, hoffTop, atOrigin, boxOf, Nat.cast_zero, add_zero, RectParams.mk.injEq,
      mul_eq_zero_iff_right hratioX, mul_eq_zero_iff_right hratioY, sub_eq_zero] at hr
    obtain ⟨-, hrtop, hrwidth, hrheight⟩ := hr
    have hdrop := hkept (by
      rw [passes_iff _ rfl, hrtop, hrwidth, hrheight]
      refine ⟨le_rfl, le_rfl, by exact_mod_cast hge, ?_⟩
      linarith)
    rw [passes_iff _ rfl] at hdrop
    have hone := hdrop.2.2.1
    simp [scaled, atOrigin] at hone
    norm_num at hone
  refine ⟨conv, hconv, hleft', ?_, hsrcTop, hx, hy'⟩
  rw [htop', hsrcTop, Nat.cast_zero]

theorem meets_iff_ratios (hpad : nvinfer.symmetricPadding = false)
    (hin : InFrame surf.toSurface (cropRect nvinfer surf.toSurface obj)) : Meets kind nvinfer surf obj ↔
      ∃ conv, getConvertedBuffer nvinfer (cropRect nvinfer surf.toSurface obj) = some conv ∧
        Inverts kind nvinfer surf obj conv :=
  ⟨inverts_of_meets hpad hin, fun ⟨_, hconv, h⟩ => meets_of_inverts hpad hconv h⟩

end Ratios

/-! ### Whole numbers of pixels -/

section Sizes

variable {W H w h srcW srcH : ℕ}

theorem div_mul_div_eq_one_iff {a b c d : ℕ} (hb : 0 < b) (hd : 0 < d) :
    ((a : ℚ) / b) * ((c : ℚ) / d) = 1 ↔ a * c = b * d := by
  have hb' : (b : ℚ) ≠ 0 := Nat.cast_ne_zero.mpr hb.ne'
  have hd' : (d : ℚ) ≠ 0 := Nat.cast_ne_zero.mpr hd.ne'
  rw [div_mul_div_comm, div_eq_one_iff_eq (mul_ne_zero hb' hd')]
  exact_mod_cast Iff.rfl

theorem mul_mod_div_eq_iff {a m n : ℕ} : a * (m % n / a) = m ↔ m = m % n ∧ a ∣ m := by
  constructor
  · intro heq
    have hle : a * (m % n / a) ≤ m % n := Nat.mul_div_le _ _
    exact ⟨le_antisymm (heq.symm.le.trans hle) (Nat.mod_le m n), Dvd.intro _ heq⟩
  · rintro ⟨hlt, hdvd⟩
    rw [← hlt, Nat.mul_div_cancel' hdvd]

theorem eq_mod_iff {m : ℕ} : m = m % 2 ^ 32 ↔ m < 2 ^ 32 := by
  constructor
  · intro heq
    rw [heq]
    exact Nat.mod_lt _ (by decide)
  · exact fun hlt => (Nat.mod_eq_of_lt hlt).symm

/-- The size in the input. -/
def dest (w h srcW srcH : ℕ) : ℕ × ℕ :=
  if w * srcH % 2 ^ 32 ≤ h * srcW then (w, w * srcH % 2 ^ 32 / srcW) else (h * srcW % 2 ^ 32 / srcH, h)

/-- The crop has the width of the surface, and its height in the input is a whole number. -/
def FitsWidth (W H w h srcW srcH : ℕ) : Prop :=
  srcW = W ∧ w * H ≤ h * W ∧ w * srcH < 2 ^ 32 ∧ W ∣ w * srcH

def FitsHeight (W H w h srcW srcH : ℕ) : Prop :=
  srcH = H ∧ h * W ≤ w * H ∧ h * srcW < w * H % 2 ^ 32 ∧ H ∣ h * srcW

theorem mul_eq_mul_left_swap {a b c : ℕ} (hb : 0 < b) : a * b = b * c ↔ c = a := by
  rw [Nat.mul_comm a, Nat.mul_left_cancel_iff hb, eq_comm]

/-- The width decides. -/
theorem wide_iff (hw : 0 < w) (hh : 0 < h) (hsrcH : srcH ≤ H) (hwide : w * H ≤ h * W) :
    (W * (dest w h srcW srcH).1 = w * srcW ∧ W * (dest w h srcW srcH).2 = w * srcH) ↔
      FitsWidth W H w h srcW srcH ∨ FitsHeight W H w h srcW srcH := by
  have hheight : w * srcH ≤ w * H := Nat.mul_le_mul_left w hsrcH
  by_cases hp : w * srcH % 2 ^ 32 ≤ h * srcW
  · have hno : ¬ FitsHeight W H w h srcW srcH := by
      rintro ⟨rfl, -, hlt, -⟩
      omega
    rw [dest, if_pos hp, or_iff_left hno, FitsWidth, mul_eq_mul_left_swap hw]
    refine and_congr_right fun heq => ?_
    subst heq
    rw [mul_mod_div_eq_iff, eq_mod_iff, and_iff_right hwide]
  · have hno : ¬ FitsWidth W H w h srcW srcH := by
      rintro ⟨rfl, -, hlt, -⟩
      rw [Nat.mod_eq_of_lt hlt] at hp
      omega
    rw [dest, if_neg hp, or_iff_right hno]
    constructor
    · rintro ⟨hx, hy⟩
      dsimp only at hx hy
      have hcomm : W * h = h * W := Nat.mul_comm W h
      have hH : srcH = H := Nat.eq_of_mul_eq_mul_left hw (by omega)
      subst hH
      have hsame : h * W = w * srcH := by omega
      have hcancel : srcH * (h * srcW % 2 ^ 32 / srcH) = h * srcW := by
        refine Nat.eq_of_mul_eq_mul_left hw ?_
        calc w * (srcH * (h * srcW % 2 ^ 32 / srcH)) = w * srcH * (h * srcW % 2 ^ 32 / srcH) := by ring
          _ = h * (W * (h * srcW % 2 ^ 32 / srcH)) := by rw [← hsame]; ring
          _ = w * (h * srcW) := by rw [hx]; ring
      exact ⟨rfl, hsame.le, Nat.lt_of_not_le hp, (mul_mod_div_eq_iff.mp hcancel).2⟩
    · rintro ⟨rfl, htall, hlt, hdvd⟩
      have hsame : h * W = w * srcH := le_antisymm htall hwide
      have hq : h * srcW = h * srcW % 2 ^ 32 := eq_mod_iff.mpr (hlt.trans (Nat.mod_lt _ (by decide)))
      have hcancel := mul_mod_div_eq_iff.mpr ⟨hq, hdvd⟩
      refine ⟨Nat.eq_of_mul_eq_mul_left hh ?_, (Nat.mul_comm W h).trans hsame⟩
      calc h * (W * (h * srcW % 2 ^ 32 / srcH)) = h * W * (h * srcW % 2 ^ 32 / srcH) := by ring
        _ = w * (srcH * (h * srcW % 2 ^ 32 / srcH)) := by rw [hsame]; ring
        _ = h * (w * srcW) := by rw [hcancel]; ring

/-- The height decides. -/
theorem tall_iff (hh : 0 < h) (hsrcW : srcW ≤ W) (htall : h * W < w * H) :
    (H * (dest w h srcW srcH).1 = h * srcW ∧ H * (dest w h srcW srcH).2 = h * srcH) ↔
      FitsWidth W H w h srcW srcH ∨ FitsHeight W H w h srcW srcH := by
  have hwidth : h * srcW ≤ h * W := Nat.mul_le_mul_left h hsrcW
  have hno : ¬ FitsWidth W H w h srcW srcH := fun hfits => absurd hfits.2.1 (Nat.not_le.mpr htall)
  rw [or_iff_right hno]
  by_cases hp : w * srcH % 2 ^ 32 ≤ h * srcW
  · rw [dest, if_pos hp]
    refine iff_of_false ?_ ?_
    · rintro ⟨hx, -⟩
      dsimp only at hx
      have hcomm : H * w = w * H := Nat.mul_comm H w
      omega
    · rintro ⟨rfl, -, hlt, -⟩
      omega
  · rw [dest, if_neg hp, FitsHeight, and_comm, mul_eq_mul_left_swap hh]
    refine and_congr_right fun heq => ?_
    subst heq
    rw [mul_mod_div_eq_iff, eq_mod_iff, and_iff_right htall.le]
    refine and_congr_left fun _ => iff_of_true ?_ (Nat.lt_of_not_le hp)
    exact (Nat.lt_of_not_le hp).trans (Nat.mod_lt _ (by decide))

end Sizes

/-! ### The ratios -/

section Final

variable {kind : Kind} {nvinfer : GstNvInfer} {surf : SurfaceParams} {obj : RectParams} {srcWidth srcHeight : ℕ}

theorem destSize_eq_dest (hmaintain : nvinfer.maintainAspectRatio = true) (hw : 0 < srcWidth) :
    destSize nvinfer srcWidth srcHeight = dest nvinfer.networkWidth nvinfer.networkHeight srcWidth srcHeight :=
  NvInfer.Detector.destSize_maintain hmaintain hw

/-- Nothing is left in an input without a size. -/
theorem dest_pos {w h : ℕ} (h₁ : 0 < (dest w h srcWidth srcHeight).1) (h₂ : 0 < (dest w h srcWidth srcHeight).2) :
    0 < w ∧ 0 < h := by
  unfold dest at h₁ h₂
  split at h₁
  · rename_i hp
    rw [if_pos hp] at h₂
    refine ⟨h₁, Nat.pos_of_ne_zero ?_⟩
    rintro rfl
    have hzero : w * srcHeight % 2 ^ 32 = 0 := by simpa using hp
    rw [hzero, Nat.zero_div] at h₂
    exact Nat.lt_irrefl 0 h₂
  · rename_i hp
    rw [if_neg hp] at h₂
    refine ⟨Nat.pos_of_ne_zero ?_, h₂⟩
    rintro rfl
    simp at hp

theorem ratios_eq (kind : Kind) (nvinfer : GstNvInfer) (surf : SurfaceParams) : ratios kind nvinfer surf =
    if (kind == .detect && nvinfer.maintainAspectRatio) = true then
      (max (surf.width / nvinfer.networkWidth : ℚ) (surf.height / nvinfer.networkHeight),
        max (surf.width / nvinfer.networkWidth : ℚ) (surf.height / nvinfer.networkHeight))
    else ((surf.width / nvinfer.networkWidth : ℚ), (surf.height / nvinfer.networkHeight : ℚ)) := rfl

/-- The ratios of the crop in the input are the inverse of the factors. -/
theorem scalesBack_iff (hw : 0 < srcWidth) (hh : 0 < srcHeight) (hwle : srcWidth ≤ surf.width)
    (hhle : srcHeight ≤ surf.height) :
    ((ratios kind nvinfer surf).1 * ((destSize nvinfer srcWidth srcHeight).1 / (srcWidth : ℚ)) = 1 ∧
      (ratios kind nvinfer surf).2 * ((destSize nvinfer srcWidth srcHeight).2 / (srcHeight : ℚ)) = 1) ↔
      ScalesBack kind nvinfer surf srcWidth srcHeight := by
  have hpos : ∀ {s : ℚ} {a b : ℕ}, s * ((a : ℚ) / b) = 1 → 0 < a := fun {s a b} heq => Nat.pos_of_ne_zero fun hzero => by
    rw [hzero, Nat.cast_zero, zero_div, mul_zero] at heq
    exact zero_ne_one heq
  by_cases hnet : 0 < nvinfer.networkWidth ∧ 0 < nvinfer.networkHeight
  · obtain ⟨hnw, hnh⟩ := hnet
    unfold ScalesBack
    rw [and_iff_right hnw, and_iff_right hnh]
    cases hmaintain : nvinfer.maintainAspectRatio with
    | false =>
      rw [ratios_eq, hmaintain, Bool.and_false, destSize, hmaintain]
      simp only [Bool.false_eq_true, if_false]
      rw [div_mul_div_eq_one_iff hnw hw, div_mul_div_eq_one_iff hnh hh, mul_eq_mul_left_swap hnw, mul_eq_mul_left_swap hnh]
    | true =>
      rw [ratios_eq, hmaintain, destSize_eq_dest hmaintain hw]
      cases kind with
      | detect =>
        simp only [beq_self_eq_true, Bool.and_self, if_true]
        rcases Nat.lt_or_ge (nvinfer.networkHeight * surf.width) (nvinfer.networkWidth * surf.height) with htall | hwide
        · have hle : (surf.width / nvinfer.networkWidth : ℚ) ≤ surf.height / nvinfer.networkHeight := by
            rw [div_le_div_iff₀ (Nat.cast_pos.mpr hnw) (Nat.cast_pos.mpr hnh)]
            have := htall.le
            rw [Nat.mul_comm nvinfer.networkHeight, Nat.mul_comm nvinfer.networkWidth] at this
            exact_mod_cast this
          rw [max_eq_right hle, div_mul_div_eq_one_iff hnh hw, div_mul_div_eq_one_iff hnh hh]
          exact tall_iff hnh hwle htall
        · have hle : (surf.height / nvinfer.networkHeight : ℚ) ≤ surf.width / nvinfer.networkWidth := by
            rw [div_le_div_iff₀ (Nat.cast_pos.mpr hnh) (Nat.cast_pos.mpr hnw)]
            have := hwide
            rw [Nat.mul_comm nvinfer.networkHeight, Nat.mul_comm nvinfer.networkWidth] at this
            exact_mod_cast this
          rw [max_eq_left hle, div_mul_div_eq_one_iff hnw hw, div_mul_div_eq_one_iff hnw hh]
          exact wide_iff hnw hnh hhle hwide
      | instanceSegment =>
        have hkind : (Kind.instanceSegment == Kind.detect) = false := rfl
        simp only [hkind, Bool.false_and, Bool.false_eq_true, if_false, if_true]
        rw [div_mul_div_eq_one_iff hnw hw, div_mul_div_eq_one_iff hnh hh]
        unfold dest
        split
        · rw [mul_eq_mul_left_swap hnw]
        · rw [mul_eq_mul_left_swap hnh, and_comm]
  · refine iff_of_false ?_ fun hn => hnet ⟨hn.1, hn.2.1⟩
    rintro ⟨hx, hy⟩
    refine hnet ?_
    cases hmaintain : nvinfer.maintainAspectRatio with
    | false =>
      rw [destSize, hmaintain] at hx hy
      exact ⟨hpos hx, hpos hy⟩
    | true =>
      rw [destSize_eq_dest hmaintain hw] at hx hy
      exact dest_pos (hpos hx) (hpos hy)

theorem toUnsigned_le {x : ℚ} {n : ℕ} (h : x ≤ n) : NvInfer.Detector.toUnsigned x ≤ n := by
  unfold NvInfer.Detector.toUnsigned
  have hfloor : ⌊x⌋ ≤ (n : ℤ) := by
    have := Int.floor_le_floor h
    rwa [Int.floor_natCast] at this
  omega

/-- **The boxes go back exactly if nothing is rounded, the crop spans the surface in the direction that
decides the ratio, and it begins at the top**, for both post-processors. -/
theorem attach_meet_iff (kind : Kind) (nvinfer : GstNvInfer) (surf : SurfaceParams) (obj : RectParams)
    (hpad : nvinfer.symmetricPadding = false) (hin : InFrame surf.toSurface (cropRect nvinfer surf.toSurface obj)) :
    Meets kind nvinfer surf obj ↔ MeetsWhen kind nvinfer surf obj := by
  let crop := cropRect nvinfer surf.toSurface obj
  have hwidth : (surf.width : ℚ) < 2 ^ 32 := by exact_mod_cast surf.toSurface.width_lt
  have hright : crop.left + crop.width ≤ surf.width := hin.right
  have hbottom : crop.top + crop.height ≤ surf.height := hin.bottom
  have hleft := NvInfer.Detector.eq_roundUp2_iff hin.left ((le_add_of_nonneg_right hin.width).trans_lt (hright.trans_lt hwidth))
  have hsrcWidth : roundDown2 (NvInfer.Detector.toUnsigned crop.width) ≤ surf.width :=
    (Nat.div_mul_le_self _ 2).trans (toUnsigned_le (by linarith [hin.left]))
  have hsrcHeight : roundDown2 (NvInfer.Detector.toUnsigned crop.height) ≤ surf.height :=
    (Nat.div_mul_le_self _ 2).trans (toUnsigned_le (by linarith [hin.top]))
  -- the ratios of a crop, as a condition on its size
  have hratios : ∀ conv, getConvertedBuffer nvinfer crop = some conv →
      (((ratios kind nvinfer surf).1 * conv.ratioX = 1 ∧ (ratios kind nvinfer surf).2 * conv.ratioY = 1) ↔
        ScalesBack kind nvinfer surf (roundDown2 (NvInfer.Detector.toUnsigned crop.width))
          (roundDown2 (NvInfer.Detector.toUnsigned crop.height))) := fun conv hconv => by
    have hspec := NvInfer.Detector.getConvertedBuffer_spec hconv
    have hw := hspec.width_pos
    have hh := hspec.height_pos
    rw [hspec.ratioX, hspec.ratioY, hspec.destWidth, hspec.destHeight]
    rw [hspec.srcRect] at hw hh ⊢
    exact scalesBack_iff hw hh hsrcWidth hsrcHeight
  rw [meets_iff_ratios hpad hin]
  constructor
  · rintro ⟨conv, hconv, hinv⟩
    obtain ⟨hw, hh⟩ := NvInfer.Detector.getConvertedBuffer_isSome_iff.mp (Option.isSome_of_eq_some hconv)
    have horigin := hinv.left
    rw [(NvInfer.Detector.getConvertedBuffer_spec hconv).srcRect] at horigin
    exact ⟨hw, hh, hleft.mp horigin, hinv.top, (hratios conv hconv).mp ⟨hinv.ratioX, hinv.ratioY⟩⟩
  · intro hwhen
    obtain ⟨conv, hconv⟩ : ∃ conv, getConvertedBuffer nvinfer crop = some conv :=
      Option.isSome_iff_exists.mp (NvInfer.Detector.getConvertedBuffer_isSome_iff.mpr ⟨hwhen.width, hwhen.height⟩)
    obtain ⟨hx, hy⟩ := (hratios conv hconv).mpr hwhen.scales
    have hsrc := (NvInfer.Detector.getConvertedBuffer_spec hconv).srcRect
    refine ⟨conv, hconv, ?_, hwhen.top, ?_, hx, hy⟩
    · rw [hsrc]
      exact hleft.mpr hwhen.left
    · have htop : crop.top = (0 : ℕ) := hwhen.top.trans Nat.cast_zero.symm
      rw [hsrc]
      show roundUp2 (NvInfer.Detector.toUnsigned crop.top) = 0
      rw [htop, NvInfer.Detector.toUnsigned_natCast]
      rfl

/-! ### Three cases -/

/-- A network of 640 by 640 pixels that keeps the aspect ratio. -/
def square (processFullFrame : Bool) : GstNvInfer where
  networkWidth := 640
  networkHeight := 640
  networkWidth_lt := Nat.le_of_ble_eq_true rfl
  networkHeight_lt := Nat.le_of_ble_eq_true rfl
  maintainAspectRatio := true
  symmetricPadding := false
  processFullFrame := processFullFrame
  inputTensorFromMeta := false
  clipObjectOutsideRoi := false
  cropObjectsToRoiBoundary := false
  perClassDetectionFilterParams := []
  filterOutClassIds := ∅

def fullHd : SurfaceParams where
  width := 1920
  height := 1080

theorem inFrame_fullHd : InFrame fullHd.toSurface (cropRect (square true) fullHd.toSurface ⟨0, 0, 0, 0⟩) :=
  ⟨by decide +kernel, by decide +kernel, by decide +kernel, by decide +kernel, by decide +kernel, by decide +kernel⟩

/-- The detector, for a frame. -/
theorem attach_meet_iff_fullHd : Meets .detect (square true) fullHd ⟨0, 0, 0, 0⟩ := by
  refine (attach_meet_iff .detect (square true) fullHd ⟨0, 0, 0, 0⟩ rfl inFrame_fullHd).mpr ?_
  exact ⟨by decide +kernel, by decide +kernel, ⟨0, by decide +kernel⟩, by decide +kernel, by decide +kernel, by decide +kernel,
    .inl ⟨by decide +kernel, by decide +kernel, by decide +kernel, by decide +kernel⟩⟩

/-- The copy for instance segmentation does not, for the same frame, and the detector not for an object
in its middle. -/
theorem not_meets_fullHd : ¬ Meets .instanceSegment (square true) fullHd ⟨0, 0, 0, 0⟩ ∧
    ¬ Meets .detect (square false) fullHd ⟨960, 540, 640, 360⟩ := by
  have hin : InFrame fullHd.toSurface (cropRect (square false) fullHd.toSurface ⟨960, 540, 640, 360⟩) :=
    ⟨by decide +kernel, by decide +kernel, by decide +kernel, by decide +kernel, by decide +kernel, by decide +kernel⟩
  constructor
  · intro h
    obtain ⟨conv, hconv, hinv⟩ := inverts_of_meets rfl inFrame_fullHd h
    have hconv' : getConvertedBuffer (square true) (cropRect (square true) fullHd.toSurface ⟨0, 0, 0, 0⟩) = some
        { ratioX := 1 / 3
          ratioY := 1 / 3
          offsetLeft := 0
          offsetTop := 0
          srcRect := ⟨0, 0, 1920, 1080⟩
          dstRect := ⟨0, 0, 640, 360⟩
          padded := [⟨0, 640, 0, 640⟩, ⟨360, 0, 640, 280⟩] } := by
      decide +kernel
    cases hconv'.symm.trans hconv
    exact absurd hinv.ratioY (by decide +kernel)
  · intro h
    obtain ⟨conv, hconv, hinv⟩ := inverts_of_meets rfl hin h
    have htop := hinv.top
    exact absurd htop (by decide +kernel)

end Final

end Attach
end PostProcess
end DeepStream
