/-
# Segmentation maps

The scores of a frame are in a buffer, planes of the classes one after the other or the classes of
each pixel together, and the loops over the pixels look them up through the index of their order.
So the class map is the same. The class of a pixel is found by a running maximum that starts
at -1: what is not above -1 is never the maximum, also if the threshold is lower.
-/
import DeepStream.Infer.Release
import DeepStream.Lib.RowMajor
import Mathlib.Tactic.Linarith

namespace DeepStream
namespace Infer

/-! ### The class of a pixel -/

/-- A class of maximal score if that is above the threshold, else -1. -/
def ClassOk (threshold : ℚ) (classes : ℕ) (prob : ℕ → ℚ) (cls : ℤ) : Prop :=
  (∃ c < classes, cls = c ∧ threshold < prob c ∧ ∀ c' < classes, prob c' ≤ prob c) ∨
    cls = -1 ∧ ∀ c < classes, prob c ≤ threshold

/-- The class for a threshold is that for a lower one, unless a maximum lies between them. -/
theorem ClassOk.lower_iff {threshold low : ℚ} (hle : low ≤ threshold) {classes : ℕ} {prob : ℕ → ℚ} {cls : ℤ}
    (h : ClassOk threshold classes prob cls) :
    ClassOk low classes prob cls ↔ ((∀ c < classes, prob c ≤ threshold) → ∀ c < classes, prob c ≤ low) := by
  constructor
  · rintro (⟨c, hc, rfl, hlow, hmax⟩ | ⟨-, hall⟩) hthr
    · rcases h with ⟨c', hc', -, hlt, -⟩ | ⟨hneg, -⟩
      · exact absurd (hthr c' hc') (not_le.mpr hlt)
      · omega
    · exact hall
  · intro hnone
    rcases h with ⟨c, hc, rfl, hlt, hmax⟩ | ⟨rfl, hall⟩
    · exact .inl ⟨c, hc, rfl, hle.trans_lt hlt, hmax⟩
    · exact .inr ⟨rfl, hnone hall⟩

/-- The running maximum of the first `n` classes: there is none yet, or `best` is its class and it. -/
def Best (threshold : ℚ) (n : ℕ) (prob : ℕ → ℚ) (best : ℤ × ℚ) : Prop :=
  (∃ c < n, best = ((c : ℤ), prob c) ∧ max (-1) threshold < prob c ∧ ∀ c' < n, prob c' ≤ prob c) ∨
    best = (-1, -1) ∧ ∀ c < n, prob c ≤ max (-1) threshold

theorem Best.step {threshold : ℚ} {n : ℕ} {prob : ℕ → ℚ} {best : ℤ × ℚ} (h : Best threshold n prob best) :
    Best threshold (n + 1) prob (if prob n > best.2 ∧ prob n > threshold then ((n : ℤ), prob n) else best) := by
  rcases h with ⟨c, hc, rfl, hlt, hmax⟩ | ⟨rfl, hall⟩
  · by_cases hn : prob n > prob c ∧ prob n > threshold
    · rw [if_pos hn]
      refine .inl ⟨n, Nat.lt_succ_self n, rfl, hlt.trans hn.1, fun c' hc' => ?_⟩
      rcases Nat.lt_succ_iff_lt_or_eq.mp hc' with hlt' | rfl
      · exact (hmax c' hlt').trans hn.1.le
      · exact le_rfl
    · rw [if_neg hn]
      refine .inl ⟨c, Nat.lt_succ_of_lt hc, rfl, hlt, fun c' hc' => ?_⟩
      rcases Nat.lt_succ_iff_lt_or_eq.mp hc' with hlt' | rfl
      · exact hmax c' hlt'
      · by_contra hgt
        exact hn ⟨not_le.mp hgt, ((le_max_right _ _).trans_lt hlt).trans (not_le.mp hgt)⟩
  · by_cases hn : prob n > -1 ∧ prob n > threshold
    · rw [if_pos hn]
      refine .inl ⟨n, Nat.lt_succ_self n, rfl, max_lt hn.1 hn.2, fun c' hc' => ?_⟩
      rcases Nat.lt_succ_iff_lt_or_eq.mp hc' with hlt' | rfl
      · exact (hall c' hlt').trans (max_lt hn.1 hn.2).le
      · exact le_rfl
    · rw [if_neg hn]
      refine .inr ⟨rfl, fun c' hc' => ?_⟩
      rcases Nat.lt_succ_iff_lt_or_eq.mp hc' with hlt' | rfl
      · exact hall c' hlt'
      · by_contra hgt
        exact hn ((max_lt_iff.mp (not_le.mp hgt)).imp id id)

theorem best_foldl (threshold : ℚ) (prob : ℕ → ℚ) (n : ℕ) :
    Best threshold n prob ((List.range n).foldl
      (fun best c => if prob c > best.2 ∧ prob c > threshold then ((c : ℤ), prob c) else best) (-1, -1)) := by
  induction n with
  | zero => exact .inr ⟨rfl, fun c hc => absurd hc (Nat.not_lt_zero c)⟩
  | succ n ih =>
    rw [List.range_succ, List.foldl_append]
    exact ih.step

/-- What starts at -1 is never below it. -/
theorem classOfPixel_spec (threshold : ℚ) (classes : ℕ) (prob : ℕ → ℚ) :
    ClassOk (max (-1) threshold) classes prob (classOfPixel threshold classes prob) := by
  have hstart : ((-1, -1.0) : ℤ × ℚ) = (-1, -1) := Prod.ext rfl (by norm_num)
  have hbest := best_foldl threshold prob classes
  rw [← hstart] at hbest
  have hcls : classOfPixel threshold classes prob = ((List.range classes).foldl
      (fun best c => if prob c > best.2 ∧ prob c > threshold then ((c : ℤ), prob c) else best) (-1, -1.0)).1 := rfl
  rw [hcls]
  rcases hbest with ⟨c, hc, heq, hlt, hmax⟩ | ⟨heq, hall⟩
  · exact .inl ⟨c, hc, congrArg Prod.fst heq, hlt, hmax⟩
  · exact .inr ⟨congrArg Prod.fst heq, hall⟩

theorem classOfPixel_congr {threshold : ℚ} {classes : ℕ} {prob prob' : ℕ → ℚ} (h : ∀ c < classes, prob c = prob' c) :
    classOfPixel threshold classes prob = classOfPixel threshold classes prob' := by
  unfold classOfPixel
  refine congrArg Prod.fst (List.foldl_ext _ _ _ fun best c hc => ?_)
  rw [h c (List.mem_range.mp hc)]

/-! ### The class map -/

/-- A cell has what was written there. -/
theorem fillClassMap_getElem? {width : ℕ} {cls : ℕ × ℕ → ℤ} {i : ℕ} {v : ℤ} :
    ∀ {ps : List (ℕ × ℕ)} {a a' : HeapArray ℤ}, fillClassMap width cls ps a = some a' →
      (∀ q ∈ ps, pixelIndex width q = i → cls q = v) →
      (a.cells[i]? = some (some v) ∨ ∃ q ∈ ps, pixelIndex width q = i) → a'.cells[i]? = some (some v)
  | [], a, a', h, _, hi => by
    obtain rfl := Option.some.inj h
    exact hi.resolve_right (by simp)
  | pixel :: ps, a, a', h, hall, hi => by
    obtain ⟨b, hb, h⟩ := Option.bind_eq_some_iff.mp h
    obtain ⟨hlt, rfl⟩ := write_eq_some hb
    refine fillClassMap_getElem? h (fun q hq => hall q (List.mem_cons_of_mem _ hq)) ?_
    by_cases he : pixelIndex width pixel = i
    · rw [he] at hlt
      rw [he, hall pixel List.mem_cons_self he]
      exact .inl (List.getElem?_set_self hlt)
    · rcases hi with hv | ⟨q, hq, hqi⟩
      · exact .inl (by rw [List.getElem?_set_ne he, hv])
      · rcases List.mem_cons.mp hq with rfl | hq
        · exact absurd hqi he
        · exact .inr ⟨q, hq, hqi⟩

theorem fillClassMap_congr {width : ℕ} {cls cls' : ℕ × ℕ → ℤ} : ∀ {ps : List (ℕ × ℕ)} {a : HeapArray ℤ},
    (∀ pixel ∈ ps, cls pixel = cls' pixel) → fillClassMap width cls ps a = fillClassMap width cls' ps a
  | [], _, _ => rfl
  | pixel :: ps, a, h => by
    unfold fillClassMap
    rw [h pixel List.mem_cons_self]
    exact congrArg _ (funext fun b => fillClassMap_congr fun q hq => h q (List.mem_cons_of_mem _ hq))

/-- The cell of a pixel. -/
theorem fillClassMap_pixel {width height : ℕ} (hlt : width * height < 2 ^ 32) {cls : ℕ × ℕ → ℤ} {a a' : HeapArray ℤ}
    (h : fillClassMap width cls (pixels width height) a = some a') {y x : ℕ} (hy : y < height) (hx : x < width) :
    a'.cells[y * width + x]? = some (some (cls (y, x))) := by
  have hmod {q : ℕ × ℕ} (hq : q ∈ pixels width height) : pixelIndex width q = q.1 * width + q.2 := by
    obtain ⟨hqy, hqx⟩ := mem_pixels.mp hq
    have := RowMajor.lt_mul hqy hqx
    rw [Nat.mul_comm height] at this
    exact Nat.mod_eq_of_lt (this.trans hlt)
  have hmem : (y, x) ∈ pixels width height := mem_pixels.mpr ⟨hy, hx⟩
  refine fillClassMap_getElem? h (fun q hq hqi => ?_) (.inr ⟨(y, x), hmem, hmod hmem⟩)
  rw [hmod hq] at hqi
  obtain ⟨hy', hx'⟩ := RowMajor.inj (mem_pixels.mp hq).2 hx hqi
  exact congrArg cls (Prod.ext hy' hx')

/-! ### The two orders -/

/-- The scores of a frame; there are as many, and as many pixels, as 32 bits can count. -/
structure ScoreTensor where
  c : ℕ
  h : ℕ
  w : ℕ
  score : ℕ → ℕ → ℕ → ℚ
  fits : c * (h * w) < 2 ^ 32
  fits_map : h * w < 2 ^ 32

namespace ScoreTensor

variable (t : ScoreTensor)

/-- The layer has the classes one after the other. -/
structure HoldsNCHW (layer : OutputLayer ℚ) : Prop where
  dims : getDimsCHWFromDims layer.inferDims = ⟨t.c, t.h, t.w⟩
  buffer : ∀ c < t.c, ∀ y < t.h, ∀ x < t.w, layer.buffer (c * (t.h * t.w) + (y * t.w + x)) = t.score c y x

/-- The layer has the classes of each pixel together. -/
structure HoldsNHWC (layer : OutputLayer ℚ) : Prop where
  dims : getDimsHWCFromDims layer.inferDims = ⟨t.c, t.h, t.w⟩
  buffer : ∀ c < t.c, ∀ y < t.h, ∀ x < t.w, layer.buffer ((y * t.w + x) * t.c + c) = t.score c y x

/-- The pixels of the map have the classes of maximal score. -/
def MapOk (threshold : ℚ) (classMap : HeapArray ℤ) : Prop :=
  ∀ y < t.h, ∀ x < t.w, ∃ cls, classMap.cells[y * t.w + x]? = some (some cls) ∧
    ClassOk threshold t.c (fun c => t.score c y x) cls

/-- The map that the loops fill from the scores. -/
def Fills (threshold : ℚ) (h : Heap) (classMap : HeapArray ℤ) : Prop :=
  fillClassMap t.w (fun pixel => classOfPixel threshold t.c fun c => t.score c pixel.1 pixel.2) (pixels t.w t.h)
    (newArray ℤ (t.w * t.h % 2 ^ 32) h).1 = some classMap

variable {t}

/-- The scores are looked up where they are. -/
theorem fillSegmentationOutput_eq {p : SegmentPostprocessor ℚ} {layer : OutputLayer ℚ}
    (hdims : p.outputDims layer = ⟨t.c, t.h, t.w⟩)
    (hbuffer : ∀ c < t.c, ∀ y < t.h, ∀ x < t.w,
      layer.buffer (p.indAlongChannel ⟨t.c, t.h, t.w⟩ x y c) = t.score c y x) (rest : List (OutputLayer ℚ)) (h : Heap) :
    ∃ classMap, t.Fills p.segmentationThreshold h classMap ∧ p.fillSegmentationOutput (layer :: rest) h =
      some (.success, some ⟨t.w, t.h, t.c, classMap, layer.buffer⟩, (newArray ℤ (t.w * t.h % 2 ^ 32) h).2) := by
  have hlt : t.w * t.h < 2 ^ 32 := by
    rw [Nat.mul_comm]
    exact t.fits_map
  obtain ⟨classMap, hfill⟩ := (fillClassMap_spec t.w t.h
    (fun pixel => classOfPixel p.segmentationThreshold t.c fun c => t.score c pixel.1 pixel.2) h).1 hlt
  refine ⟨classMap, hfill, ?_⟩
  rw [← fillClassMap_congr fun pixel hpixel => classOfPixel_congr fun c hc =>
    hbuffer c hc pixel.1 (mem_pixels.mp hpixel).1 pixel.2 (mem_pixels.mp hpixel).2] at hfill
  unfold SegmentPostprocessor.fillSegmentationOutput
  dsimp only
  rw [hdims]
  exact congrArg (Option.map _) hfill

theorem HoldsNCHW.fillSegmentationOutput {layer : OutputLayer ℚ} (hl : t.HoldsNCHW layer) (threshold : ℚ)
    (rest : List (OutputLayer ℚ)) (h : Heap) : ∃ classMap, t.Fills threshold h classMap ∧
      (⟨threshold, .kNCHW⟩ : SegmentPostprocessor ℚ).fillSegmentationOutput (layer :: rest) h =
        some (.success, some ⟨t.w, t.h, t.c, classMap, layer.buffer⟩, (newArray ℤ (t.w * t.h % 2 ^ 32) h).2) := by
  refine fillSegmentationOutput_eq (p := ⟨threshold, .kNCHW⟩) hl.dims (fun c hc y hy x hx => ?_) rest h
  have hlt := (RowMajor.lt_mul hc (RowMajor.lt_mul hy hx)).trans t.fits
  have hind : c * t.w * t.h + y * t.w + x = c * (t.h * t.w) + (y * t.w + x) := by ring
  show layer.buffer ((c * t.w * t.h + y * t.w + x) % 2 ^ 32) = t.score c y x
  rw [hind, Nat.mod_eq_of_lt hlt]
  exact hl.buffer c hc y hy x hx

theorem HoldsNHWC.fillSegmentationOutput {layer : OutputLayer ℚ} (hl : t.HoldsNHWC layer) (threshold : ℚ)
    (rest : List (OutputLayer ℚ)) (h : Heap) : ∃ classMap, t.Fills threshold h classMap ∧
      (⟨threshold, .kNHWC⟩ : SegmentPostprocessor ℚ).fillSegmentationOutput (layer :: rest) h =
        some (.success, some ⟨t.w, t.h, t.c, classMap, layer.buffer⟩, (newArray ℤ (t.w * t.h % 2 ^ 32) h).2) := by
  refine fillSegmentationOutput_eq (p := ⟨threshold, .kNHWC⟩) hl.dims (fun c hc y hy x hx => ?_) rest h
  have hfits : t.h * t.w * t.c < 2 ^ 32 := by
    rw [Nat.mul_comm]
    exact t.fits
  show layer.buffer ((t.c * (y * t.w + x) + c) % 2 ^ 32) = t.score c y x
  rw [Nat.mul_comm t.c, Nat.mod_eq_of_lt ((RowMajor.lt_mul (RowMajor.lt_mul hy hx) hc).trans hfits)]
  exact hl.buffer c hc y hy x hx

/-- The map is that of the scores, unless the scores of a pixel are above the threshold and up to -1. -/
theorem Fills.mapOk_iff {threshold : ℚ} {h : Heap} {classMap : HeapArray ℤ} (hf : t.Fills threshold h classMap) :
    t.MapOk threshold classMap ↔
      ∀ y < t.h, ∀ x < t.w, (∀ c < t.c, t.score c y x ≤ -1) → ∀ c < t.c, t.score c y x ≤ threshold := by
  have hlt : t.w * t.h < 2 ^ 32 := by
    rw [Nat.mul_comm]
    exact t.fits_map
  unfold MapOk
  refine forall₂_congr fun y hy => forall₂_congr fun x hx => ?_
  have hspec := classOfPixel_spec threshold t.c fun c => t.score c y x
  rw [fillClassMap_pixel hlt hf hy hx]
  simp only [Option.some.injEq, exists_eq_left']
  rw [hspec.lower_iff (le_max_right _ _)]
  refine ⟨fun hall hneg => hall fun c hc => (hneg c hc).trans (le_max_left _ _), fun hall hmax => ?_⟩
  rcases le_total threshold (-1) with hthr | hthr
  · rw [max_eq_left hthr] at hmax
    exact hall hmax
  · rwa [max_eq_right hthr] at hmax

end ScoreTensor

/-- Both orders give the maps of the tensor: the class map of the one is that of the other and has
the classes of maximal score, the scores are exposed in their order. -/
def SegmentsAlike (t : ScoreTensor) (threshold : ℚ) (nchw nhwc : OutputLayer ℚ) (rest rest' : List (OutputLayer ℚ))
    (h : Heap) : Prop :=
  ∃ classMap g g',
    (⟨threshold, .kNCHW⟩ : SegmentPostprocessor ℚ).fillSegmentationOutput (nchw :: rest) h =
      some (.success, some ⟨t.w, t.h, t.c, classMap, nchw.buffer⟩, g) ∧
    (⟨threshold, .kNHWC⟩ : SegmentPostprocessor ℚ).fillSegmentationOutput (nhwc :: rest') h =
      some (.success, some ⟨t.w, t.h, t.c, classMap, nhwc.buffer⟩, g') ∧
    t.MapOk threshold classMap

/-- **The class maps of the two orders are equal; they are right exactly if no pixel has all its
scores up to -1 and one of them above the threshold**, for every shape and threshold. -/
theorem segmentation_layout_independent (t : ScoreTensor) (threshold : ℚ) {nchw nhwc : OutputLayer ℚ}
    (hchw : t.HoldsNCHW nchw) (hhwc : t.HoldsNHWC nhwc) (rest rest' : List (OutputLayer ℚ)) (h : Heap) :
    SegmentsAlike t threshold nchw nhwc rest rest' h ↔
      ∀ y < t.h, ∀ x < t.w, (∀ c < t.c, t.score c y x ≤ -1) → ∀ c < t.c, t.score c y x ≤ threshold := by
  obtain ⟨classMap, hfill, hrun⟩ := hchw.fillSegmentationOutput threshold rest h
  obtain ⟨classMap', hfill', hrun'⟩ := hhwc.fillSegmentationOutput threshold rest' h
  obtain rfl : classMap = classMap' := Option.some.inj (hfill.symm.trans hfill')
  rw [← hfill.mapOk_iff]
  constructor
  · rintro ⟨classMap', g, g', hr, -, hok⟩
    rw [hrun] at hr
    injection hr with hr
    injection hr with _ hr
    injection hr with hr _
    injection hr with hr
    injection hr with _ _ _ hr
    rwa [hr]
  · exact fun hok => ⟨classMap, _, _, hrun, hrun', hok⟩

/-- One pixel of one class. -/
def onePixel (score : ℚ) : ScoreTensor := ⟨1, 1, 1, fun _ _ _ => score, by decide, by decide⟩

def onePixelLayer (score : ℚ) : OutputLayer ℚ := ⟨"scores", ⟨[1, 1, 1], 1⟩, fun _ => score⟩

theorem segmentation_layout_independent_zero :
    SegmentsAlike (onePixel 0) (-2) (onePixelLayer 0) (onePixelLayer 0) [] [] Heap.empty :=
  (segmentation_layout_independent (onePixel 0) (-2) ⟨rfl, fun _ _ _ _ _ _ => rfl⟩ ⟨rfl, fun _ _ _ _ _ _ => rfl⟩ [] []
    Heap.empty).mpr fun _ _ _ _ hneg => absurd (hneg 0 (by decide)) (by norm_num [onePixel])

/-- The only score is above the threshold, but not above -1: its class is not found. -/
theorem segmentation_below_start : ∃ out h',
    (⟨-5, .kNCHW⟩ : SegmentPostprocessor ℚ).fillSegmentationOutput [onePixelLayer (-3)] Heap.empty =
      some (.success, some out, h') ∧
    out.classMap.cells = [some (-1)] ∧ ¬ (onePixel (-3)).MapOk (-5) out.classMap := by
  refine ⟨_, _, rfl, by decide +kernel, fun hok => ?_⟩
  obtain ⟨cls, hcell, hcls⟩ := hok 0 (by decide) 0 (by decide)
  obtain rfl : cls = -1 := Option.some.inj (Option.some.inj (hcell.symm.trans (by decide +kernel)))
  rcases hcls with ⟨c, -, hc, -⟩ | ⟨-, hall⟩
  · omega
  · exact absurd (hall 0 (by decide)) (by norm_num [onePixel])

end Infer
end DeepStream
