/-
# How a crop is put into the network input

`resizeBatch` of the surface converter rounds the crop to even numbers, scales it into the
network input, and zero-fills what is left at the sides with `cudaMemset2DAsync`: at the right
and the bottom, or on all four sides when the padding is symmetric. The strips at the left and
the right begin in the first row in both modes, also where the picture does not.

A fill is modelled by the bytes it clears. The quotients of `double` are exact. Where an `int`
does not hold a side or a product of sides, the source has no defined result.
-/
import DeepStream.InferServer.Scaling
import DeepStream.Lib.Fills

namespace DeepStream
namespace InferServer
namespace Letterbox

/-- `INFER_ROUND_UP(n, 2)`. -/
def roundUp (n : ℕ) : ℕ := (n + 1) / 2 * 2

inductive ColorFormat where
  | rgba | rgb | gray8 | nv12
  deriving DecidableEq, Repr

def pixelSize : ColorFormat → ℕ
  | .rgba => 4
  | .rgb => 3
  | .gray8 | .nv12 => 1

/-- The settings with the surface of the network input, whose rows fit into the pitch. -/
structure Network extends Converter where
  colorFormat : ColorFormat
  pitch : ℕ
  two_le_dstWidth : 2 ≤ dstWidth
  two_le_dstHeight : 2 ≤ dstHeight
  wide : pixelSize colorFormat * dstWidth ≤ pitch

def Network.surface (net : Network) : Surface where
  size := pixelSize net.colorFormat
  pitch := net.pitch
  width := net.dstWidth
  wide := net.wide

@[simp] theorem Network.surface_size (net : Network) : net.surface.size = pixelSize net.colorFormat := rfl

@[simp] theorem Network.surface_pitch (net : Network) : net.surface.pitch = net.pitch := rfl

@[simp] theorem Network.surface_width (net : Network) : net.surface.width = net.dstWidth := rfl

structure Crop extends Rect where
  two_le_width : 2 ≤ width
  two_le_height : 2 ≤ height

structure Resized where
  srcRect : Rect
  dstRect : Rect
  scaleParams : ScaleParams
  memsets : List Memset2D

variable (net : Network) (crop : Crop)

/-- The fills around a picture of this size and place. -/
def paddings (dstW dstH offsetLeft offsetTop : ℕ) : List Memset2D :=
  let size := pixelSize net.colorFormat
  if !net.symmetricPadding then
    (if dstW < net.dstWidth then [⟨size * dstW, net.pitch, size * (net.dstWidth - dstW), dstH⟩] else []) ++
    (if dstH < net.dstHeight then [⟨net.pitch * dstH, net.pitch, size * net.dstWidth, net.dstHeight - dstH⟩] else [])
  else
    let offsetRight := net.dstWidth - dstW - offsetLeft
    let offsetBottom := net.dstHeight - dstH - offsetTop
    (if dstW < net.dstWidth then
      [⟨0, net.pitch, size * offsetLeft, dstH⟩, ⟨size * (dstW + offsetLeft), net.pitch, size * offsetRight, dstH⟩]
    else []) ++
    (if dstH < net.dstHeight then
      [⟨0, net.pitch, size * net.dstWidth, offsetTop⟩,
        ⟨net.pitch * (dstH + offsetTop), net.pitch, size * net.dstWidth, offsetBottom⟩]
    else [])

/-- The numbers of a frame that the source has in an `int`. -/
def FitsInt : Prop :=
  roundDown crop.width < 2 ^ 31 ∧ roundDown crop.height < 2 ^ 31 ∧
    (net.maintainAspectRatio = true → net.dstWidth * roundDown crop.height < 2 ^ 31 ∧
      net.dstHeight * roundDown crop.width < 2 ^ 31)

instance : Decidable (FitsInt net crop) := by
  unfold FitsInt
  infer_instance

/-- What `resizeBatch` does for one frame. -/
def resizeFrame : Option Resized :=
  if FitsInt net crop then
    let (dstW, dstH) := net.scaledSize crop.toRect
    let params := net.scaleParams crop.toRect
    some
      { srcRect := ⟨roundUp crop.top, roundUp crop.left, roundDown crop.width, roundDown crop.height⟩
        dstRect := ⟨params.offsetTop, params.offsetLeft, dstW, dstH⟩
        scaleParams := params
        memsets := paddings net dstW dstH params.offsetLeft params.offsetTop }
  else none

/-! ### What it should do -/

def Inside (inner outer : Rect) : Prop :=
  outer.left ≤ inner.left ∧ inner.left + inner.width ≤ outer.left + outer.width ∧
    outer.top ≤ inner.top ∧ inner.top + inner.height ≤ outer.top + outer.height

def Contains (r : Rect) (x y : ℕ) : Prop :=
  r.left ≤ x ∧ x < r.left + r.width ∧ r.top ≤ y ∧ y < r.top + r.height

def Ratio.IsPositive (r : Ratio) : Prop := 0 < r.num ∧ 0 < r.den

/-- All bytes of a pixel are cleared. -/
def IsCleared (memsets : List Memset2D) (x y : ℕ) : Prop :=
  ∀ b < net.surface.size, ∃ m ∈ memsets, m.Zeroes (net.surface.byte x y b)

def Covers (memsets : List Memset2D) (dst : Rect) : Prop :=
  ∀ x < net.dstWidth, ∀ y < net.dstHeight, Contains dst x y ∨ IsCleared net memsets x y

structure Right (r : Resized) : Prop where
  source : Inside r.srcRect crop.toRect
  nonempty : 0 < r.dstRect.width ∧ 0 < r.dstRect.height
  destination : Inside r.dstRect ⟨0, 0, net.dstWidth, net.dstHeight⟩
  ratios : Ratio.IsPositive r.scaleParams.scaleRatioX ∧ Ratio.IsPositive r.scaleParams.scaleRatioY
  covers : Covers net r.memsets r.dstRect

def Meets : Prop := ∃ r, resizeFrame net crop = some r ∧ Right net crop r

/-- A side that begins at an odd place is not rounded. -/
def KeepsInside (start size : ℕ) : Prop := start % 2 = 0 ∨ size % 2 = 1

/-- Both sides of the picture are at least two pixels of the network input. -/
def KeepsSides : Prop :=
  net.maintainAspectRatio = true → 2 * roundDown crop.width ≤ net.dstWidth * roundDown crop.height ∧
    2 * roundDown crop.height ≤ net.dstHeight * roundDown crop.width

/-- There is a column left at the right, and padding of two rows at least. -/
def LeavesCorners : Prop :=
  net.symmetricPadding = true ∧ net.maintainAspectRatio = true ∧ net.dstWidth % 2 = 1 ∧
    net.dstWidth * roundDown crop.height < roundDown net.dstHeight * roundDown crop.width

def MeetsWhen : Prop :=
  FitsInt net crop ∧ KeepsInside crop.left crop.width ∧ KeepsInside crop.top crop.height ∧ KeepsSides net crop ∧
    ¬LeavesCorners net crop

/-! ### Sizes -/

variable {net crop}

theorem roundDown_le (n : ℕ) : roundDown n ≤ n := Nat.div_mul_le_self n 2

theorem roundDown_pos_iff {n : ℕ} : 0 < roundDown n ↔ 2 ≤ n := by
  unfold roundDown
  omega

theorem Crop.width_pos (crop : Crop) : 0 < roundDown crop.width := roundDown_pos_iff.mpr crop.two_le_width

theorem Crop.height_pos (crop : Crop) : 0 < roundDown crop.height := roundDown_pos_iff.mpr crop.two_le_height

theorem inside_iff {start size : ℕ} : start ≤ roundUp start ∧ roundUp start + roundDown size ≤ start + size ↔
    KeepsInside start size := by
  unfold roundUp roundDown KeepsInside
  omega

/-- The cases of the size of the picture. -/
theorem scaledSize_cases (net : Network) (crop : Crop) :
    (net.maintainAspectRatio = false ∧ net.scaledSize crop.toRect = (roundDown net.dstWidth, roundDown net.dstHeight)) ∨
    (net.maintainAspectRatio = true ∧ net.dstWidth * roundDown crop.height ≤ net.dstHeight * roundDown crop.width ∧
      net.scaledSize crop.toRect =
        (roundDown net.dstWidth, roundDown (net.dstWidth * roundDown crop.height / roundDown crop.width))) ∨
    (net.maintainAspectRatio = true ∧ net.dstHeight * roundDown crop.width < net.dstWidth * roundDown crop.height ∧
      net.scaledSize crop.toRect =
        (roundDown (net.dstHeight * roundDown crop.width / roundDown crop.height), roundDown net.dstHeight)) := by
  unfold Converter.scaledSize
  cases hratio : net.maintainAspectRatio with
  | false => exact .inl ⟨rfl, rfl⟩
  | true =>
    right
    by_cases hle : net.dstWidth * roundDown crop.height ≤ net.dstHeight * roundDown crop.width
    · exact .inl ⟨rfl, hle, by simp [hle]⟩
    · exact .inr ⟨rfl, Nat.lt_of_not_le hle, by simp [hle]⟩

theorem scaledSize_le (net : Network) (crop : Crop) :
    (net.scaledSize crop.toRect).1 ≤ net.dstWidth ∧ (net.scaledSize crop.toRect).2 ≤ net.dstHeight := by
  rcases scaledSize_cases net crop with ⟨-, h⟩ | ⟨-, hle, h⟩ | ⟨-, hlt, h⟩
  · rw [h]
    exact ⟨roundDown_le _, roundDown_le _⟩
  · rw [h]
    exact ⟨roundDown_le _, (roundDown_le _).trans (Nat.div_le_of_le_mul (hle.trans_eq (Nat.mul_comm _ _)))⟩
  · rw [h]
    exact ⟨(roundDown_le _).trans (Nat.div_le_of_le_mul (hlt.le.trans_eq (Nat.mul_comm _ _))), roundDown_le _⟩

theorem scaledSize_pos_iff (net : Network) (crop : Crop) :
    0 < (net.scaledSize crop.toRect).1 ∧ 0 < (net.scaledSize crop.toRect).2 ↔ KeepsSides net crop := by
  have hwidth := net.two_le_dstWidth
  have hheight := net.two_le_dstHeight
  unfold KeepsSides
  rcases scaledSize_cases net crop with ⟨hratio, h⟩ | ⟨hratio, hle, h⟩ | ⟨hratio, hlt, h⟩
  · rw [h, hratio]
    exact iff_of_true ⟨roundDown_pos_iff.mpr hwidth, roundDown_pos_iff.mpr hheight⟩ fun hratio => by cases hratio
  · rw [h, hratio, roundDown_pos_iff, roundDown_pos_iff, Nat.le_div_iff_mul_le crop.width_pos]
    have hother : 2 * roundDown crop.height ≤ net.dstHeight * roundDown crop.width :=
      (Nat.mul_le_mul_right _ hwidth).trans hle
    exact ⟨fun hpos _ => ⟨hpos.2, hother⟩, fun hkeep => ⟨hwidth, (hkeep rfl).1⟩⟩
  · rw [h, hratio, roundDown_pos_iff, roundDown_pos_iff, Nat.le_div_iff_mul_le crop.height_pos]
    have hother : 2 * roundDown crop.width ≤ net.dstWidth * roundDown crop.height :=
      (Nat.mul_le_mul_right _ hheight).trans hlt.le
    exact ⟨fun hpos _ => ⟨hother, hpos.1⟩, fun hkeep => ⟨(hkeep rfl).2, hheight⟩⟩

/-- Where the fills leave something out. -/
theorem leavesCorners_iff (net : Network) (crop : Crop) :
    net.symmetricPadding = true ∧ (net.scaledSize crop.toRect).1 < net.dstWidth ∧
      (net.scaledSize crop.toRect).2 + 2 ≤ net.dstHeight ↔ LeavesCorners net crop := by
  have hround : ∀ q n : ℕ, roundDown q + 2 ≤ n ↔ q < roundDown n := fun q n => by
    unfold roundDown
    omega
  have hodd : ∀ n : ℕ, roundDown n < n ↔ n % 2 = 1 := fun n => by
    unfold roundDown
    omega
  have hsmall : ¬roundDown net.dstHeight + 2 ≤ net.dstHeight := by
    unfold roundDown
    omega
  unfold LeavesCorners
  refine and_congr_right fun _ => ?_
  rcases scaledSize_cases net crop with ⟨hratio, h⟩ | ⟨hratio, hle, h⟩ | ⟨hratio, hlt, h⟩
  · rw [h, hratio]
    exact iff_of_false (fun hleave => hsmall hleave.2) fun hleave => by cases hleave.1
  · rw [h, hratio, hodd, hround, Nat.div_lt_iff_lt_mul crop.width_pos, eq_self, true_and]
  · rw [h, hratio]
    refine iff_of_false (fun hleave => hsmall hleave.2) fun hleave => ?_
    have hle := Nat.mul_le_mul_right (roundDown crop.width) (roundDown_le net.dstHeight)
    exact absurd (hlt.trans hleave.2.2) (Nat.not_lt.mpr hle)

/-! ### Fills -/

theorem pixelSize_pos (format : ColorFormat) : 0 < pixelSize format := by
  cases format <;> decide

theorem isCleared_iff {memsets : List Memset2D} {rects : List PixelRect}
    (h : List.Forall₂ (Memset2D.Clears net.surface) memsets rects) {x y : ℕ} (hx : x < net.dstWidth) :
    IsCleared net memsets x y ↔ ∃ r ∈ rects, r.Contains x y := by
  constructor
  · intro hall
    exact (Memset2D.exists_zeroes_iff h hx (pixelSize_pos _)).mp (hall 0 (pixelSize_pos _))
  · intro hr b hb
    exact (Memset2D.exists_zeroes_iff h hx hb).mpr hr

/-- The rectangles that are filled. -/
def paddingRects (net : Network) (dstW dstH offsetLeft offsetTop : ℕ) : List PixelRect :=
  if !net.symmetricPadding then
    (if dstW < net.dstWidth then [⟨0, dstW, net.dstWidth - dstW, dstH⟩] else []) ++
    (if dstH < net.dstHeight then [⟨dstH, 0, net.dstWidth, net.dstHeight - dstH⟩] else [])
  else
    (if dstW < net.dstWidth then
      [⟨0, 0, offsetLeft, dstH⟩, ⟨0, dstW + offsetLeft, net.dstWidth - dstW - offsetLeft, dstH⟩]
    else []) ++
    (if dstH < net.dstHeight then
      [⟨0, 0, net.dstWidth, offsetTop⟩, ⟨dstH + offsetTop, 0, net.dstWidth, net.dstHeight - dstH - offsetTop⟩]
    else [])

theorem paddings_clear {dstW dstH offsetLeft offsetTop : ℕ} (hleft : dstW + offsetLeft ≤ net.dstWidth) :
    List.Forall₂ (Memset2D.Clears net.surface) (paddings net dstW dstH offsetLeft offsetTop)
      (paddingRects net dstW dstH offsetLeft offsetTop) := by
  unfold paddings paddingRects
  dsimp only
  split
  · refine List.rel_append ?_ ?_
    · split
      · exact .cons ⟨by simp, rfl, rfl, rfl, by simp; omega⟩ .nil
      · exact .nil
    · split
      · exact .cons ⟨by simp, rfl, rfl, rfl, by simp⟩ .nil
      · exact .nil
  · refine List.rel_append ?_ ?_
    · split
      · exact .cons ⟨by simp, rfl, rfl, rfl, by simp; omega⟩
          (.cons ⟨by simp, rfl, rfl, rfl, by simp; omega⟩ .nil)
      · exact .nil
    · split
      · exact .cons ⟨by simp, rfl, rfl, rfl, by simp⟩ (.cons ⟨by simp, rfl, rfl, rfl, by simp⟩ .nil)
      · exact .nil

theorem exists_mem_ite {P P' : Prop} [Decidable P] [Decidable P'] {l l' : List PixelRect} {Q : PixelRect → Prop} :
    (∃ r ∈ (if P then l else []) ++ (if P' then l' else []), Q r) ↔ (P ∧ ∃ r ∈ l, Q r) ∨ (P' ∧ ∃ r ∈ l', Q r) := by
  simp only [List.mem_append, or_and_right, exists_or]
  refine or_congr ?_ ?_
  · split <;> simp [*]
  · split <;> simp [*]

/-- Only fills on all sides can leave something out. -/
theorem covers_iff {dstW dstH : ℕ} (hw : dstW ≤ net.dstWidth) (hh : dstH ≤ net.dstHeight) (hpos : 0 < dstH)
    {offsetLeft offsetTop : ℕ} (hleft : offsetLeft = if net.symmetricPadding then (net.dstWidth - dstW) / 2 else 0)
    (htop : offsetTop = if net.symmetricPadding then (net.dstHeight - dstH) / 2 else 0) :
    Covers net (paddings net dstW dstH offsetLeft offsetTop) ⟨offsetTop, offsetLeft, dstW, dstH⟩ ↔
      ¬(net.symmetricPadding = true ∧ dstW < net.dstWidth ∧ dstH + 2 ≤ net.dstHeight) := by
  have hclear : dstW + offsetLeft ≤ net.dstWidth := by
    rw [hleft]
    split <;> omega
  unfold Covers
  cases hsym : net.symmetricPadding with
  | false =>
    rw [hsym] at hleft htop
    obtain rfl : offsetLeft = 0 := hleft
    obtain rfl : offsetTop = 0 := htop
    refine iff_of_true (fun x hx y hy => ?_) fun hleave => by cases hleave.1
    rw [isCleared_iff (paddings_clear hclear) hx, paddingRects, hsym]
    simp only [Bool.not_false, if_true, exists_mem_ite, List.mem_singleton, exists_eq_left, PixelRect.Contains,
      Contains]
    omega
  | true =>
    rw [hsym] at hleft htop
    rw [if_pos rfl] at hleft htop
    have hcleared : ∀ x < net.dstWidth, ∀ y,
        (IsCleared net (paddings net dstW dstH offsetLeft offsetTop) x y ↔
          (dstW < net.dstWidth ∧ (x < offsetLeft ∨ dstW + offsetLeft ≤ x) ∧ y < dstH) ∨
          (dstH < net.dstHeight ∧ (y < offsetTop ∨ dstH + offsetTop ≤ y ∧ y < net.dstHeight))) := by
      intro x hx y
      rw [isCleared_iff (paddings_clear hclear) hx, paddingRects, hsym]
      simp only [Bool.not_true, Bool.false_eq_true, if_false, exists_mem_ite, List.mem_cons, List.not_mem_nil,
        or_false, or_and_right, exists_or, exists_eq_left, PixelRect.Contains]
      omega
    simp only [true_and, not_and]
    constructor
    · intro hcovers hless hrows
      -- the last column, in the row before the fill at the bottom begins
      have hpixel := hcovers (net.dstWidth - 1) (by omega) (dstH + offsetTop - 1) (by omega)
      rw [hcleared _ (by omega)] at hpixel
      unfold Contains at hpixel
      dsimp only at hpixel
      omega
    · intro hfew x hx y hy
      rw [hcleared x hx]
      unfold Contains
      dsimp only
      omega

/-- Every pixel is covered, and nothing goes wrong, exactly for these crops. -/
theorem letterbox_meets_iff (net : Network) (crop : Crop) : Meets net crop ↔ MeetsWhen net crop := by
  have hsize := scaledSize_le net crop
  have hright : ∀ r, resizeFrame net crop = some r → (Right net crop r ↔ KeepsInside crop.left crop.width ∧
      KeepsInside crop.top crop.height ∧ KeepsSides net crop ∧ ¬LeavesCorners net crop) := by
    intro r hr
    unfold resizeFrame at hr
    split at hr
    · obtain rfl := Option.some.inj hr
      have hcovers := fun hpos => covers_iff hsize.1 hsize.2 hpos rfl rfl
      constructor
      · intro h
        refine ⟨inside_iff.mp ⟨h.source.1, h.source.2.1⟩, inside_iff.mp h.source.2.2,
          (scaledSize_pos_iff net crop).mp h.nonempty, fun hcorners => ?_⟩
        exact (hcovers h.nonempty.2).mp h.covers ((leavesCorners_iff net crop).mpr hcorners)
      · rintro ⟨hleft, htop, hsides, hcorners⟩
        have hpos := (scaledSize_pos_iff net crop).mpr hsides
        refine ⟨?_, hpos, ?_, ⟨⟨hpos.1, crop.width_pos⟩, hpos.2, crop.height_pos⟩,
          (hcovers hpos.2).mpr fun hleave => hcorners ((leavesCorners_iff net crop).mp hleave)⟩
        · exact ⟨(inside_iff.mpr hleft).1, (inside_iff.mpr hleft).2, inside_iff.mpr htop⟩
        · have hleft : (net.scaleParams crop.toRect).offsetLeft + (net.scaledSize crop.toRect).1 ≤ net.dstWidth := by
            unfold Converter.scaleParams
            dsimp only
            split <;> omega
          have htop : (net.scaleParams crop.toRect).offsetTop + (net.scaledSize crop.toRect).2 ≤ net.dstHeight := by
            unfold Converter.scaleParams
            dsimp only
            split <;> omega
          exact ⟨Nat.zero_le _, by rwa [Nat.zero_add], Nat.zero_le _, by rwa [Nat.zero_add]⟩
    · cases hr
  unfold Meets MeetsWhen
  by_cases hfits : FitsInt net crop
  · obtain ⟨r, hr⟩ : ∃ r, resizeFrame net crop = some r := ⟨_, if_pos hfits⟩
    rw [← hright r hr]
    exact ⟨fun ⟨r', hr', h⟩ => ⟨hfits, Option.some.inj (hr'.symm.trans hr) ▸ h⟩, fun h => ⟨r, hr, h.2⟩⟩
  · refine iff_of_false (fun h => ?_) fun h => hfits h.1
    obtain ⟨r, hr, -⟩ := h
    rw [resizeFrame, if_neg hfits] at hr
    cases hr

/-- A network input of 5 by 6 pixels that is padded on all sides. -/
def oddNetwork : Network where
  dstWidth := 5
  dstHeight := 6
  maintainAspectRatio := true
  symmetricPadding := true
  colorFormat := .rgba
  pitch := 32
  two_le_dstWidth := by decide
  two_le_dstHeight := by decide
  wide := by decide

def flatCrop : Crop where
  top := 0
  left := 0
  width := 4
  height := 2
  two_le_width := by decide
  two_le_height := by decide

/-- The last column is not cleared beside the picture. -/
theorem not_meets_oddNetwork : ¬Meets oddNetwork flatCrop := by
  rintro ⟨r, hr, h⟩
  have hresize : resizeFrame oddNetwork flatCrop =
      some ⟨⟨0, 0, 4, 2⟩, ⟨2, 0, 4, 2⟩, ⟨⟨4, 4⟩, ⟨2, 2⟩, 0, 2⟩, paddings oddNetwork 4 2 0 2⟩ := by
    rw [resizeFrame, if_pos (by decide)]
    rfl
  obtain rfl := Option.some.inj (hresize.symm.trans hr)
  exact (covers_iff (by decide) (by decide) (by decide) rfl rfl).mp h.covers (by decide)

end Letterbox
end InferServer
end DeepStream
