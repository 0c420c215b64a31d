/-
# What the custom parsers of boxes make of their tensors

A parser is right if it comes to its end, and each object that it makes is of a class that is
configured, reaches the threshold of that class and has the part of its box that lies in the
network. Resnet counts the pixels of a rectangle from the first to the last, so its sizes are
greater by one.

The parsers differ in how they clip: corners (`Touches`), sizes (`SizesFit`), or one corner against
an origin that is not clipped; and in which threshold they look at. For each of them the condition
says what its loop needs of a detection.
-/
import DeepStream.CustomParser.Boxes
import DeepStream.Lib.Gives
import Mathlib.Tactic.Linarith

namespace DeepStream
namespace CustomParser
namespace Boxes

open Infer (NvDsInferDimsCHW)

/-! ### What is right -/

/-- Of the axis between `a` and `b`, what lies in the network starts at `lo` and is `size` long. -/
def IsPart (side : ℕ) (a b lo size : ℚ) : Prop :=
  max a 0 ≤ min b (side - 1) ∧ lo = max a 0 ∧ lo + size = min b (side - 1)

section

variable (outputLayersInfo : List NvDsInferLayerInfo) (networkInfo : NvDsInferNetworkInfo)
variable (detectionParams : NvDsInferParseDetectionParams)

/-- `pixels` is how much greater the sizes are than the distances. -/
structure Right (pixels : ℚ) (d : Detection) : Prop where
  classId_lt : d.object.classId < detectionParams.numClassesConfigured
  threshold_le : detectionParams.perClassPreclusterThreshold.getD d.object.classId 0 ≤ d.object.detectionConfidence
  columns : IsPart networkInfo.width d.raw.x1 d.raw.x2 d.object.left (d.object.width - pixels)
  rows : IsPart networkInfo.height d.raw.y1 d.raw.y2 d.object.top (d.object.height - pixels)

/-! ### Conditions -/

/-- A part of the axis between `a` and `b` lies in the network. -/
def Touches (side : ℕ) (a b : ℚ) : Prop := max a 0 ≤ min b (side - 1)

/-- The axis between `a` and `b` lies in the network, or the network in it. -/
def SizesFit (side : ℕ) (a b : ℚ) : Prop := a ≤ b ∧ (0 ≤ a ∧ b ≤ side - 1 ∨ a ≤ 0 ∧ side - 1 ≤ b)

/-- The class is one that is configured, and its own threshold is reached. -/
def ClassFits (label score : ℚ) : Prop :=
  Gives (classOf detectionParams.numClassesConfigured label) fun c => Gives c fun classId =>
    detectionParams.perClassPreclusterThreshold.getD classId 0 ≤ score

def ResnetFits (cov bbox : List ℚ) (covDims bboxDims : NvDsInferDimsCHW) (p : ℕ × ℕ × ℕ) : Prop :=
  let (c, h, w) := p
  let gridSize := covDims.w * covDims.h
  let i := w + h * covDims.w
  let outputX1 := c * 4 * bboxDims.h * bboxDims.w % 2 ^ 32
  let gcCenterX := Infer.gcCenter (stride networkInfo.width bboxDims.w) w
  let gcCenterY := Infer.gcCenter (stride networkInfo.height bboxDims.h) h
  c * gridSize + i < 2 ^ 31 ∧ Gives cov[c * gridSize + i]? fun score =>
    detectionParams.perClassPreclusterThreshold.getD c 0 ≤ score →
      Gives bbox[outputX1 + i]? fun x1 => Gives bbox[outputX1 + gridSize + i]? fun y1 =>
      Gives bbox[outputX1 + gridSize + gridSize + i]? fun x2 =>
      Gives bbox[outputX1 + gridSize + gridSize + gridSize + i]? fun y2 =>
        Touches networkInfo.width ((x1 - gcCenterX) * -35) ((x2 + gcCenterX) * 35) ∧
          Touches networkInfo.height ((y1 - gcCenterY) * -35) ((y2 + gcCenterY) * 35)

/-- The class, if it has a threshold that is reached, comes with a box. -/
def TfSSDFits (scores classes boxes : List ℚ) (i : ℕ) : Prop :=
  Gives scores[i]? fun score => Gives classes[i]? fun label => Gives (toUnsigned label) fun classId =>
    ∀ threshold ∈ detectionParams.perClassPreclusterThreshold[classId]?, threshold ≤ score →
      Gives (fourAt boxes (i * 4 % 2 ^ 32)) fun _ => True

/-- A box that is not empty starts in the network, and its class has a mask. -/
def MrcnnFits (detections masks : List ℚ) (maskSize i : ℕ) : Prop :=
  Gives detections[6 * i + 5]? fun score => detectionParams.firstThreshold ≤ score →
    Gives (fourAt detections (6 * i)) fun (y1, x1, y2, x2) =>
      x1 < clip networkInfo.width x2 → y1 < clip networkInfo.height y2 → 0 ≤ x1 ∧ 0 ≤ y1 ∧
        Gives detections[6 * i + 4]? fun label => Gives (toInt label) fun classId =>
          (classId % 2 ^ 32).toNat < detectionParams.numClassesConfigured ∧
          detectionParams.perClassPreclusterThreshold.getD (classId % 2 ^ 32).toNat 0 ≤ score ∧
          Gives (maskAt masks maskSize (i * detectionParams.numClassesConfigured % 2 ^ 32 + (classId % 2 ^ 32).toNat))
            fun _ => True

def NMSFits (outNms : List ℚ) (i : ℕ) : Prop :=
  i * 7 < 2 ^ 31 ∧ Gives outNms[i * 7 + 2]? fun score => detectionParams.firstThreshold ≤ score →
    Gives outNms[i * 7 + 1]? fun label => ClassFits detectionParams label score ∧
      Gives (fourAt outNms (i * 7 + 3)) fun (x1, y1, x2, y2) =>
        SizesFit networkInfo.width (x1 * networkInfo.width) (x2 * networkInfo.width) ∧
          SizesFit networkInfo.height (y1 * networkInfo.height) (y2 * networkInfo.height)

/-- Classes that are not configured are left out, and so are boxes with corners in the wrong order. -/
def BatchedNMSFits (bboxes scores classes : List ℚ) (i : ℕ) : Prop :=
  Gives scores[i]? fun score => detectionParams.firstThreshold ≤ score →
    Gives classes[i]? fun label => Gives (classOf detectionParams.numClassesConfigured label) fun c =>
      ∀ classId ∈ c, 4 * i < 2 ^ 31 ∧ Gives (fourAt bboxes (4 * i)) fun (x1, y1, x2, y2) => x1 ≤ x2 ∧ y1 ≤ y2 →
        detectionParams.perClassPreclusterThreshold.getD classId 0 ≤ score ∧
          Touches networkInfo.width (x1 * networkInfo.width) (x2 * networkInfo.width) ∧
          Touches networkInfo.height (y1 * networkInfo.height) (y2 * networkInfo.height)

/-- The detections that `BatchedNMS` makes an object of. -/
def BatchedNMSKeeps (bboxes scores classes : List ℚ) (i : ℕ) : Prop :=
  Gives scores[i]? fun score => detectionParams.firstThreshold ≤ score ∧
    Gives classes[i]? fun label => Gives (classOf detectionParams.numClassesConfigured label) fun c =>
      c.isSome ∧ 4 * i < 2 ^ 31 ∧ Gives (fourAt bboxes (4 * i)) fun (x1, y1, x2, y2) => x1 ≤ x2 ∧ y1 ≤ y2

/-- While there are at most 200 objects. -/
def AllFit (bboxes scores classes : List ℚ) : ℕ → List ℕ → Prop
  | _, [] => True
  | count, i :: is => count ≤ 200 → BatchedNMSFits networkInfo detectionParams bboxes scores classes i ∧
    (BatchedNMSKeeps detectionParams bboxes scores classes i → AllFit bboxes scores classes (count + 1) is) ∧
    (¬BatchedNMSKeeps detectionParams bboxes scores classes i → AllFit bboxes scores classes count is)

def EfficientDetFits (bboxes scores classes : List ℚ) (i : ℕ) : Prop :=
  Gives scores[i]? fun score => detectionParams.firstThreshold ≤ score →
    Gives classes[i]? fun label => (∃ classId, classOf detectionParams.numClassesConfigured label = some (some classId)) ∧
      4 * i < 2 ^ 31 ∧ Gives (fourAt bboxes (4 * i)) fun (y1, x1, y2, x2) => y1 ≤ y2 ∧ x1 ≤ x2 →
        ClassFits detectionParams label score ∧ SizesFit networkInfo.width x1 x2 ∧ SizesFit networkInfo.height y1 y2

def ResnetRunFits (bboxLayer covLayer : ℕ × NvDsInferDimsCHW) : Prop :=
  0 < bboxLayer.2.w ∧ 0 < bboxLayer.2.h ∧ covLayer.2.w * covLayer.2.h < 2 ^ 31 ∧
    Gives outputLayersInfo[covLayer.1]? fun cov => Gives outputLayersInfo[bboxLayer.1]? fun bbox =>
      ∀ p ∈ gridPoints (min covLayer.2.c detectionParams.numClassesConfigured) covLayer.2.h covLayer.2.w,
        ResnetFits networkInfo detectionParams cov.floats bbox.floats covLayer.2 bboxLayer.2 p

def TfSSDRunFits : Prop :=
  match layerFinder outputLayersInfo "detection_scores", layerFinder outputLayersInfo "detection_classes",
    layerFinder outputLayersInfo "detection_boxes" with
  | some scoreLayer, some classLayer, some boxLayer =>
    Gives (tfSSDCount classLayer (layerFinder outputLayersInfo "num_detections")) fun numDetections =>
      ∀ i < numDetections, TfSSDFits detectionParams scoreLayer.floats classLayer.floats boxLayer.floats i
  | _, _, _ => True

def MrcnnRunFits (maskName : String) : Prop :=
  match layerFinder outputLayersInfo "generate_detections", layerFinder outputLayersInfo maskName with
  | some detectionLayer, some maskLayer => maskLayer.inferDims.d.length = 4 → ∀ i < maskLayer.dim 0,
    MrcnnFits networkInfo detectionParams detectionLayer.floats maskLayer.floats (maskLayer.dim 3 * maskLayer.dim 2) i
  | _, _ => True

def NMSRunFits : Prop :=
  match outputLayersInfo with
  | [outNms, keepCount] => Gives keepCount.ints[0]? fun keepCount =>
    ∀ i < keepCount.toNat, NMSFits networkInfo detectionParams outNms.floats i
  | _ => True

def BatchedNMSRunFits (count : ℕ) : Prop :=
  match outputLayersInfo with
  | [keepCount, bboxes, scores, classes] => Gives keepCount.ints[0]? fun keepCount =>
    AllFit networkInfo detectionParams bboxes.floats scores.floats classes.floats count (List.range keepCount.toNat)
  | _ => True

/-- There are boxes of pixels, if there are boxes. -/
def EfficientDetRunFits : Prop :=
  match outputLayersInfo with
  | [keepCount, bboxes, scores, classes] =>
    let numElements := if bboxes.inferDims.numElements < 2 ^ 31 then bboxes.inferDims.numElements else 0
    numElements ≤ bboxes.floats.length ∧ Gives keepCount.ints[0]? fun keepCount => 0 < keepCount →
      (∃ x ∈ bboxes.floats.take numElements, 2 ≤ x) ∧
        ∀ i < keepCount.toNat, EfficientDetFits networkInfo detectionParams bboxes.floats scores.floats classes.floats i
  | _ => True

/-- The static variables after the layers have been looked for. -/
def resnetStatics (s : Statics) : Option Statics := do
  match ← keptLayer outputLayersInfo s.bboxLayer "output_bbox/BiasAdd" with
  | none => some s
  | some bbox => do
    match ← keptLayer outputLayersInfo s.covLayer "output_cov/Sigmoid" with
    | none => some { s with bboxLayer := some bbox }
    | some cov => some ⟨some bbox, some cov⟩

end

namespace Call

variable (c : Call) (s : Statics)

def statics : Option Statics := if c.parser = .resnet then resnetStatics c.outputLayersInfo s else some s

/-- What a call needs, with the static variables that it goes by. -/
def Fits : Prop :=
  match c.parser with
  | .resnet => ∀ bbox ∈ s.bboxLayer, ∀ cov ∈ s.covLayer, ResnetRunFits c.outputLayersInfo c.networkInfo c.detectionParams bbox cov
  | .tfSSD => TfSSDRunFits c.outputLayersInfo c.detectionParams
  | .mrcnnTLT => MrcnnRunFits c.outputLayersInfo c.networkInfo c.detectionParams "mask_head/mask_fcn_logits/BiasAdd"
  | .mrcnnTLTV2 => MrcnnRunFits c.outputLayersInfo c.networkInfo c.detectionParams "mask_fcn_logits/BiasAdd"
  | .nmsTLT => NMSRunFits c.outputLayersInfo c.networkInfo c.detectionParams
  | .batchedNMSTLT => BatchedNMSRunFits c.outputLayersInfo c.networkInfo c.detectionParams c.count
  | .efficientDetTAO => EfficientDetRunFits c.outputLayersInfo c.networkInfo c.detectionParams

/-- `Resnet` counts pixels. -/
def pixels : ℚ := if c.parser = .resnet then 1 else 0

end Call

/-- The calls, one after the other, come to their ends and make what is right. -/
def Meets : Statics → List Call → Prop
  | _, [] => True
  | s, c :: calls => Gives (c.parse s) fun r =>
    (∀ d ∈ r.2.2, Right c.networkInfo c.detectionParams c.pixels d) ∧ Meets r.1 calls

def MeetsWhen : Statics → List Call → Prop
  | _, [] => True
  | s, c :: calls => Gives (c.statics s) fun s' => c.Fits s' ∧ MeetsWhen s' calls

/-! ### The axes -/

section

variable {side : ℕ} {a b : ℚ}

theorem isPart_corners_iff (hpos : 0 < side) :
    IsPart side a b (clip side a) (clip side b - clip side a) ↔ Touches side a b := by
  have hside : (1 : ℚ) ≤ side := by exact_mod_cast hpos
  unfold IsPart Touches clip
  grind

theorem isPart_sizes_iff (hpos : 0 < side) : IsPart side a b (clip side a) (clip side (b - a)) ↔ SizesFit side a b := by
  have hside : (1 : ℚ) ≤ side := by exact_mod_cast hpos
  unfold IsPart SizesFit clip
  grind

theorem isPart_origin_iff (hpos : 0 < side) (h : a < clip side b) :
    IsPart side a b (clip side a) (clip side b - a) ↔ 0 ≤ a := by
  have hside : (1 : ℚ) ≤ side := by exact_mod_cast hpos
  unfold IsPart clip at *
  grind

theorem touches_of_clip_lt (hpos : 0 < side) (h : clip side a < clip side b) : Touches side a b := by
  have hside : (1 : ℚ) ≤ side := by exact_mod_cast hpos
  unfold Touches clip at *
  grind

/-- Corners that are in order stay so. -/
theorem clip_scaled_mono (h : a ≤ b) : 0 ≤ clip side (b * side) - clip side (a * side) :=
  sub_nonneg.mpr (max_le_max_right 0 (min_le_min_right _ (mul_le_mul_of_nonneg_right h (Nat.cast_nonneg side))))

end

/-! ### One detection -/

/-- Every detection that is made is such. -/
def Emits (R : Detection → Prop) (x : Option (Option Detection)) : Prop := Gives x fun d => ∀ y ∈ d, R y

section

variable {R : Detection → Prop} {x : Option (Option Detection)} {d : Detection}

theorem emits_bind {α : Type} {y : Option α} {f : α → Option (Option Detection)} :
    Emits R (y >>= f) ↔ Gives y fun a => Emits R (f a) := gives_do

theorem emits_skip {P : Prop} [Decidable P] : Emits R (if P then some none else x) ↔ (¬P → Emits R x) :=
  gives_skip (by simp)

theorem emits_guard {P : Prop} [Decidable P] : Emits R (if P then none else x) ↔ ¬P ∧ Emits R x := gives_guard

@[simp] theorem emits_some : Emits R (some (some d)) ↔ R d := gives_some.trans (by simp)

@[simp] theorem emits_none : Emits R (some none) := gives_some.mpr (by simp)

@[simp] theorem not_emits_none : ¬Emits R none := gives_none

/-- A loop makes what its steps make. -/
theorem gives_foldlM_collect {ι : Type} {body : ι → Option (Option Detection)} {is : List ι} {found : List Detection} :
    (Gives (is.foldlM (collect body) found) fun l => ∀ d ∈ l, R d) ↔ (∀ d ∈ found, R d) ∧ ∀ i ∈ is, Emits R (body i) := by
  induction is generalizing found with
  | nil => simp [gives_some]
  | cons i is ih =>
    rw [List.foldlM_cons, gives_do, collect, gives_map, List.forall_mem_cons, ← and_assoc]
    simp only [ih]
    rw [gives_and_const]
    refine and_congr_left fun _ => ?_
    cases body i with
    | none => exact iff_of_false gives_none fun h => gives_none h.2
    | some d =>
      rw [gives_some, Emits, gives_some, List.forall_mem_append]
      simp

end

section

variable {networkInfo : NvDsInferNetworkInfo} {detectionParams : NvDsInferParseDetectionParams} {i : ℕ}
variable {bboxes scores classes outNms detections masks cov bbox : List ℚ}

theorem classOf_lt {n classId : ℕ} {label : ℚ} (h : classOf n label = some (some classId)) : classId < n := by
  obtain ⟨c, -, h⟩ := Option.bind_eq_some_iff.mp h
  split at h
  · cases h
  rename_i hlt
  split at h
  · cases h
    exact not_le.mp hlt
  · cases h

/-- The parts of what is right, of a class that is configured. -/
theorem right_iff {pixels : ℚ} {d : Detection} {P Q T : Prop} (hlt : d.object.classId < detectionParams.numClassesConfigured)
    (hthreshold : detectionParams.perClassPreclusterThreshold.getD d.object.classId 0 ≤ d.object.detectionConfidence ↔ T)
    (hcolumns : IsPart networkInfo.width d.raw.x1 d.raw.x2 d.object.left (d.object.width - pixels) ↔ P)
    (hrows : IsPart networkInfo.height d.raw.y1 d.raw.y2 d.object.top (d.object.height - pixels) ↔ Q) :
    Right networkInfo detectionParams pixels d ↔ T ∧ P ∧ Q := by
  rw [← hthreshold, ← hcolumns, ← hrows]
  exact ⟨fun h => ⟨h.threshold_le, h.columns, h.rows⟩, fun h => ⟨hlt, h.1, h.2.1, h.2.2⟩⟩

theorem nmsBody_iff : Emits (Right networkInfo detectionParams 0) (nmsBody networkInfo detectionParams outNms i) ↔
    NMSFits networkInfo detectionParams outNms i := by
  unfold nmsBody NMSFits
  rw [emits_guard, not_le]
  refine and_congr_right fun _ => ?_
  rw [emits_bind]
  refine gives_congr fun score _ => ?_
  rw [emits_skip, not_lt]
  refine imp_congr_right fun _ => ?_
  rw [emits_bind]
  refine gives_congr fun label _ => ?_
  rw [ClassFits, emits_bind, ← gives_and_const]
  refine gives_congr fun c hc => ?_
  rw [emits_bind, ← gives_and_const]
  refine gives_congr fun classId hclassId => ?_
  rw [emits_bind, ← gives_const_and]
  refine gives_congr fun (x1, y1, x2, y2) _ => ?_
  refine emits_some.trans (right_iff (classOf_lt (hclassId ▸ hc)) Iff.rfl ?_ ?_)
  · simpa only [sub_zero, sub_mul] using isPart_sizes_iff networkInfo.width_pos
  · simpa only [sub_zero, sub_mul] using isPart_sizes_iff networkInfo.height_pos

theorem efficientDetBody_iff : Emits (Right networkInfo detectionParams 0)
    (efficientDetBody networkInfo detectionParams bboxes scores classes i) ↔
      EfficientDetFits networkInfo detectionParams bboxes scores classes i := by
  unfold efficientDetBody EfficientDetFits
  rw [emits_bind]
  refine gives_congr fun score _ => ?_
  rw [emits_skip, not_lt]
  refine imp_congr_right fun _ => ?_
  rw [emits_bind]
  refine gives_congr fun label _ => ?_
  rw [emits_bind]
  cases hc : classOf detectionParams.numClassesConfigured label with
  | none => simp
  | some c =>
    cases c with
    | none => simp
    | some classId =>
      have hclass : ∃ classId', some (some classId) = some (some classId') := ⟨classId, rfl⟩
      have hfits : ∀ {score}, ClassFits detectionParams label score ↔
          detectionParams.perClassPreclusterThreshold.getD classId 0 ≤ score := by
        simp [ClassFits, hc]
      rw [gives_some, emits_bind, gives_some, emits_guard, not_le, emits_bind, and_iff_right hclass]
      refine and_congr_right fun _ => gives_congr fun (y1, x1, y2, x2) _ => ?_
      rw [emits_skip, not_or, not_lt, not_lt, hfits]
      refine imp_congr_right fun _ => emits_some.trans (right_iff (classOf_lt hc) Iff.rfl ?_ ?_)
      · simpa only [sub_zero] using isPart_sizes_iff networkInfo.width_pos
      · simpa only [sub_zero] using isPart_sizes_iff networkInfo.height_pos

theorem batchedNmsBody_iff : Emits (Right networkInfo detectionParams 0)
    (batchedNmsBody networkInfo detectionParams bboxes scores classes i) ↔
      BatchedNMSFits networkInfo detectionParams bboxes scores classes i := by
  unfold batchedNmsBody BatchedNMSFits
  rw [emits_bind]
  refine gives_congr fun score _ => ?_
  rw [emits_skip, not_lt]
  refine imp_congr_right fun _ => ?_
  rw [emits_bind]
  refine gives_congr fun label _ => ?_
  rw [emits_bind]
  refine gives_congr fun c hc => ?_
  cases c with
  | none => simp
  | some classId =>
    simp only [Option.mem_some_iff, forall_eq']
    rw [emits_guard, not_le, emits_bind]
    refine and_congr_right fun _ => gives_congr fun (x1, y1, x2, y2) _ => ?_
    rw [emits_skip, not_or, not_lt, not_lt]
    refine imp_congr_right fun ⟨hx, hy⟩ => ?_
    rw [emits_skip, imp_iff_right (by rw [not_or, not_lt, not_lt]; exact ⟨clip_scaled_mono hy, clip_scaled_mono hx⟩)]
    refine emits_some.trans (right_iff (classOf_lt hc) Iff.rfl ?_ ?_)
    · simpa only [sub_zero] using isPart_corners_iff networkInfo.width_pos
    · simpa only [sub_zero] using isPart_corners_iff networkInfo.height_pos

theorem mrcnnBody_iff {maskSize : ℕ} : Emits (Right networkInfo detectionParams 0)
    (mrcnnBody networkInfo detectionParams detections masks maskSize i) ↔
      MrcnnFits networkInfo detectionParams detections masks maskSize i := by
  unfold mrcnnBody MrcnnFits
  rw [emits_bind]
  refine gives_congr fun score _ => ?_
  rw [emits_skip, not_lt]
  refine imp_congr_right fun _ => ?_
  rw [emits_bind]
  refine gives_congr fun (y1, x1, y2, x2) _ => ?_
  dsimp only
  rw [emits_skip, not_or, not_le, not_le, sub_pos, sub_pos, and_imp]
  refine imp_congr_right fun hx => imp_congr_right fun hy => ?_
  rw [emits_bind, ← and_assoc, ← gives_const_and]
  refine gives_congr fun label _ => ?_
  rw [emits_bind, ← gives_const_and]
  refine gives_congr fun label _ => ?_
  rw [emits_bind, ← gives_const_and, ← gives_const_and, ← gives_const_and]
  refine gives_congr fun mask _ => ?_
  rw [emits_some, and_true, ← isPart_origin_iff networkInfo.width_pos hx, ← isPart_origin_iff networkInfo.height_pos hy]
  constructor
  · intro h
    exact ⟨⟨by simpa only [sub_zero] using h.columns, by simpa only [sub_zero] using h.rows⟩, h.classId_lt, h.threshold_le⟩
  · rintro ⟨⟨hcolumns, hrows⟩, hlt, hle⟩
    exact ⟨hlt, hle, by simpa only [sub_zero] using hcolumns, by simpa only [sub_zero] using hrows⟩

theorem tfSSDBody_iff : Emits (Right networkInfo detectionParams 0)
    (tfSSDBody networkInfo detectionParams scores classes bboxes i) ↔
      TfSSDFits detectionParams scores classes bboxes i := by
  unfold tfSSDBody TfSSDFits
  rw [emits_bind]
  refine gives_congr fun score _ => ?_
  rw [emits_bind]
  refine gives_congr fun label _ => ?_
  rw [emits_bind]
  refine gives_congr fun classId _ => ?_
  cases hthreshold : detectionParams.perClassPreclusterThreshold[classId]? with
  | none => simp
  | some threshold =>
    simp only [Option.mem_some_iff, forall_eq']
    rw [emits_skip, not_lt, emits_bind]
    refine imp_congr_right fun hle => gives_congr fun (y1, x1, y2, x2) _ => ?_
    rw [emits_skip, not_or, not_le, not_le, emits_skip]
    refine iff_true_intro fun ⟨hx, hy⟩ _ => emits_some.mpr ⟨?_, ?_, ?_, ?_⟩
    · exact detectionParams.length_eq ▸ (List.getElem?_eq_some_iff.mp hthreshold).1
    · rwa [List.getD_eq_getElem?_getD, hthreshold]
    · simpa only [sub_zero] using (isPart_corners_iff networkInfo.width_pos).mpr (touches_of_clip_lt networkInfo.width_pos hx)
    · simpa only [sub_zero] using (isPart_corners_iff networkInfo.height_pos).mpr (touches_of_clip_lt networkInfo.height_pos hy)

theorem resnetBody_iff {covDims bboxDims : NvDsInferDimsCHW} {p : ℕ × ℕ × ℕ} (hp : p.1 < detectionParams.numClassesConfigured) :
    Emits (Right networkInfo detectionParams 1) (resnetBody networkInfo detectionParams cov bbox covDims bboxDims p) ↔
      ResnetFits networkInfo detectionParams cov bbox covDims bboxDims p := by
  obtain ⟨c, h, w⟩ := p
  unfold resnetBody ResnetFits
  dsimp only
  rw [emits_guard, not_le]
  refine and_congr_right fun _ => ?_
  rw [emits_bind]
  refine gives_congr fun score _ => ?_
  rw [emits_skip, not_lt]
  refine imp_congr_right fun hscore => ?_
  iterate 4
    rw [emits_bind]
    refine gives_congr fun _ _ => ?_
  refine emits_some.trans ((right_iff hp (iff_true_intro hscore) ?_ ?_).trans (by rw [true_and]))
  · simpa only [add_sub_cancel_right] using isPart_corners_iff networkInfo.width_pos
  · simpa only [add_sub_cancel_right] using isPart_corners_iff networkInfo.height_pos

/-! ### Runs -/

theorem isSome_batchedNmsBody_iff : (Gives (batchedNmsBody networkInfo detectionParams bboxes scores classes i) fun d => d.isSome) ↔
    BatchedNMSKeeps detectionParams bboxes scores classes i := by
  unfold batchedNmsBody BatchedNMSKeeps
  rw [gives_do]
  refine gives_congr fun score _ => ?_
  rw [gives_stop (by simp), not_lt, gives_do]
  refine and_congr_right fun _ => gives_congr fun label _ => ?_
  rw [gives_do]
  refine gives_congr fun c _ => ?_
  cases c with
  | none => simp
  | some classId =>
    rw [gives_guard, not_le, gives_do, and_iff_right Option.isSome_some]
    refine and_congr_right fun _ => gives_congr fun (x1, y1, x2, y2) _ => ?_
    rw [gives_stop (by simp), not_or, not_lt, not_lt]
    refine and_iff_left_of_imp fun ⟨hx, hy⟩ => ?_
    rw [if_neg (by rw [not_or, not_lt, not_lt]; exact ⟨clip_scaled_mono hy, clip_scaled_mono hx⟩), gives_some]
    rfl

theorem batchedNmsLoop_iff {count : ℕ} {is : List ℕ} {found : List Detection} :
    (Gives (batchedNmsLoop networkInfo detectionParams bboxes scores classes count is found) fun l =>
      ∀ d ∈ l, Right networkInfo detectionParams 0 d) ↔
      (∀ d ∈ found, Right networkInfo detectionParams 0 d) ∧
        AllFit networkInfo detectionParams bboxes scores classes (count + found.length) is := by
  induction is generalizing found with
  | nil => simp [batchedNmsLoop, AllFit]
  | cons i is ih =>
    rw [batchedNmsLoop, AllFit]
    by_cases hroom : count + found.length ≤ 200
    · rw [if_pos hroom, imp_iff_right hroom, gives_do, collect, gives_map,
        ← batchedNmsBody_iff, ← isSome_batchedNmsBody_iff]
      simp only [ih]
      cases batchedNmsBody networkInfo detectionParams bboxes scores classes i with
      | none => simp
      | some d =>
        cases d with
        | none => simp
        | some d => simp [or_imp, forall_and, and_assoc, add_assoc]
    · rw [if_neg hroom, gives_some]
      exact (and_iff_left fun h => absurd h hroom).symm

/-- A loop over the detections makes what is right if each of them fits. -/
theorem gives_range_collect {body : ℕ → Option (Option Detection)} {R : Detection → Prop} {P : ℕ → Prop} {n : ℕ}
    (h : ∀ i, Emits R (body i) ↔ P i) :
    (Gives ((List.range n).foldlM (collect body) [] >>= fun objects => some (true, objects)) fun r => ∀ d ∈ r.2, R d) ↔
      ∀ i < n, P i := by
  rw [gives_do]
  simp only [gives_some]
  rw [gives_foldlM_collect, and_iff_right (by simp)]
  simp [h]

end

section

variable {outputLayersInfo : List NvDsInferLayerInfo} {networkInfo : NvDsInferNetworkInfo}
variable {detectionParams : NvDsInferParseDetectionParams}

theorem parseCustomTfSSD_iff : (Gives (nvDsInferParseCustomTfSSD outputLayersInfo networkInfo detectionParams) fun r =>
    ∀ d ∈ r.2, Right networkInfo detectionParams 0 d) ↔ TfSSDRunFits outputLayersInfo detectionParams := by
  unfold nvDsInferParseCustomTfSSD TfSSDRunFits
  rcases layerFinder outputLayersInfo "detection_scores" with _ | scoreLayer
  · exact iff_of_true (gives_some.mpr (by simp)) trivial
  rcases layerFinder outputLayersInfo "detection_classes" with _ | classLayer
  · exact iff_of_true (gives_some.mpr (by simp)) trivial
  rcases layerFinder outputLayersInfo "detection_boxes" with _ | boxLayer
  · exact iff_of_true (gives_some.mpr (by simp)) trivial
  exact gives_do.trans (gives_congr fun n _ => gives_range_collect fun _ => tfSSDBody_iff)

theorem parseMrcnn_iff {maskName : String} : (Gives (parseMrcnn outputLayersInfo networkInfo detectionParams maskName) fun r =>
    ∀ d ∈ r.2, Right networkInfo detectionParams 0 d) ↔ MrcnnRunFits outputLayersInfo networkInfo detectionParams maskName := by
  unfold parseMrcnn MrcnnRunFits
  rcases layerFinder outputLayersInfo "generate_detections" with _ | detectionLayer
  · exact iff_of_true (gives_some.mpr (by simp)) trivial
  rcases layerFinder outputLayersInfo maskName with _ | maskLayer
  · exact iff_of_true (gives_some.mpr (by simp)) trivial
  dsimp only
  rw [gives_skip (by simp), not_not]
  exact imp_congr_right fun _ => gives_range_collect fun _ => mrcnnBody_iff

theorem parseCustomNMSTLT_iff : ∀ {outputLayersInfo : List NvDsInferLayerInfo},
    (Gives (nvDsInferParseCustomNMSTLT outputLayersInfo networkInfo detectionParams) fun r =>
      ∀ d ∈ r.2, Right networkInfo detectionParams 0 d) ↔ NMSRunFits outputLayersInfo networkInfo detectionParams
  | [_, _] => gives_do.trans (gives_congr fun _ _ => gives_range_collect fun _ => nmsBody_iff)
  | [] | [_] | _ :: _ :: _ :: _ => iff_of_true (gives_some.mpr (by simp)) trivial

theorem parseCustomBatchedNMSTLT_iff {count : ℕ} : ∀ {outputLayersInfo : List NvDsInferLayerInfo},
    (Gives (nvDsInferParseCustomBatchedNMSTLT outputLayersInfo networkInfo detectionParams count) fun r =>
      ∀ d ∈ r.2, Right networkInfo detectionParams 0 d) ↔
      BatchedNMSRunFits outputLayersInfo networkInfo detectionParams count
  | [_, _, _, _] => by
    refine gives_do.trans (gives_congr fun keepCount _ => ?_)
    rw [gives_do]
    simp only [gives_some]
    exact batchedNmsLoop_iff.trans (and_iff_right (by simp))
  | [] | [_] | [_, _] | [_, _, _] | _ :: _ :: _ :: _ :: _ :: _ => iff_of_true (gives_some.mpr (by simp)) trivial

theorem le_foldl_max_iff {bboxes : List ℚ} {y : ℚ} {best : ℚ} :
    y ≤ bboxes.foldl (fun maxBbox x => if maxBbox < x then x else maxBbox) best ↔ y ≤ best ∨ ∃ x ∈ bboxes, y ≤ x := by
  induction bboxes generalizing best with
  | nil => simp
  | cons x bboxes ih =>
    rw [List.foldl_cons, ih, List.exists_mem_cons_iff, ← or_assoc]
    refine or_congr_left ?_
    split
    · rename_i hlt
      exact ⟨.inr, fun h => h.elim (fun h => h.trans hlt.le) id⟩
    · rename_i hle
      exact ⟨.inl, fun h => h.elim id fun h => h.trans (not_lt.mp hle)⟩

theorem parseCustomEfficientDetTAO_iff : ∀ {outputLayersInfo : List NvDsInferLayerInfo},
    (Gives (nvDsInferParseCustomEfficientDetTAO outputLayersInfo networkInfo detectionParams) fun r =>
      ∀ d ∈ r.2, Right networkInfo detectionParams 0 d) ↔
      EfficientDetRunFits outputLayersInfo networkInfo detectionParams
  | [_, _, _, _] => by
    unfold nvDsInferParseCustomEfficientDetTAO EfficientDetRunFits
    dsimp only
    rw [gives_guard, not_lt]
    refine and_congr_right fun _ => ?_
    rw [gives_do]
    refine gives_congr fun keepCount _ => ?_
    rw [gives_skip (by simp), not_le]
    refine imp_congr_right fun _ => ?_
    have hmax : ∀ {l : List ℚ}, 2 ≤ maxBbox l ↔ ∃ x ∈ l, 2 ≤ x := le_foldl_max_iff.trans (or_iff_right (by norm_num))
    rw [gives_guard, not_lt, hmax]
    exact and_congr_right fun _ => gives_range_collect fun _ => efficientDetBody_iff
  | [] | [_] | [_, _] | [_, _, _] | _ :: _ :: _ :: _ :: _ :: _ => iff_of_true (gives_some.mpr (by simp)) trivial

theorem resnetRun_iff {bboxLayer covLayer : ℕ × NvDsInferDimsCHW} :
    (Gives (resnetRun outputLayersInfo networkInfo detectionParams bboxLayer covLayer) fun l =>
      ∀ d ∈ l, Right networkInfo detectionParams 1 d) ↔
      ResnetRunFits outputLayersInfo networkInfo detectionParams bboxLayer covLayer := by
  unfold resnetRun ResnetRunFits
  rw [gives_guard, not_or, not_or, not_le, ← ne_eq, ← ne_eq, ← Nat.pos_iff_ne_zero, ← Nat.pos_iff_ne_zero, and_assoc, and_assoc]
  refine and_congr_right fun _ => and_congr_right fun _ => and_congr_right fun _ => ?_
  rw [gives_do]
  refine gives_congr fun cov _ => ?_
  rw [gives_do]
  refine gives_congr fun bbox _ => ?_
  rw [gives_foldlM_collect, and_iff_right (by simp)]
  refine forall₂_congr fun p hp => resnetBody_iff ?_
  obtain ⟨c, hc, hp⟩ := List.mem_flatMap.mp hp
  obtain ⟨h, -, hp⟩ := List.mem_flatMap.mp hp
  obtain ⟨w, -, rfl⟩ := List.mem_map.mp hp
  exact (List.mem_range.mp hc).trans_le (min_le_right _ _)

theorem eq_none_of_keptLayer {kept : Option (ℕ × NvDsInferDimsCHW)} {name : String}
    (h : keptLayer outputLayersInfo kept name = some none) : kept = none := by
  cases kept with
  | none => rfl
  | some layer => cases h

theorem parseCustomResnet_iff {s : Statics} {P : Statics → Prop} :
    (Gives (nvDsInferParseCustomResnet outputLayersInfo networkInfo detectionParams s) fun r =>
      (∀ d ∈ r.2.2, Right networkInfo detectionParams 1 d) ∧ P r.1) ↔
      Gives (resnetStatics outputLayersInfo s) fun s' => (∀ bbox ∈ s'.bboxLayer, ∀ cov ∈ s'.covLayer,
        ResnetRunFits outputLayersInfo networkInfo detectionParams bbox cov) ∧ P s' := by
  unfold nvDsInferParseCustomResnet resnetStatics
  rw [gives_do, gives_do]
  refine gives_congr fun bbox hbbox => ?_
  cases bbox with
  | none => simp [eq_none_of_keptLayer hbbox]
  | some bbox =>
    dsimp only
    rw [gives_do, gives_do]
    refine gives_congr fun cov hcov => ?_
    cases cov with
    | none => simp [eq_none_of_keptLayer hcov]
    | some cov =>
      dsimp only
      rw [gives_map, gives_some]
      refine (gives_and_const (P := P ⟨some bbox, some cov⟩)).trans ?_
      rw [resnetRun_iff]
      simp

/-- One call. -/
theorem parse_iff {c : Call} {s : Statics} {P : Statics → Prop} :
    (Gives (c.parse s) fun r => (∀ d ∈ r.2.2, Right c.networkInfo c.detectionParams c.pixels d) ∧ P r.1) ↔
      Gives (c.statics s) fun s' => c.Fits s' ∧ P s' := by
  obtain ⟨parser, layers, networkInfo, detectionParams, count⟩ := c
  have hother : ∀ {x : Option (Bool × List Detection)} {F : Prop},
      ((Gives x fun r => ∀ d ∈ r.2, Right networkInfo detectionParams 0 d) ↔ F) →
        ((Gives (x.map (s, ·)) fun r => (∀ d ∈ r.2.2, Right networkInfo detectionParams 0 d) ∧ P r.1) ↔
          Gives (some s) fun s' => F ∧ P s') := fun h => by
    rw [gives_map, gives_some, ← h]
    exact gives_and_const (P := P s)
  cases parser with
  | resnet => exact parseCustomResnet_iff
  | tfSSD => exact hother parseCustomTfSSD_iff
  | mrcnnTLT => exact hother parseMrcnn_iff
  | mrcnnTLTV2 => exact hother parseMrcnn_iff
  | nmsTLT => exact hother parseCustomNMSTLT_iff
  | batchedNMSTLT => exact hother parseCustomBatchedNMSTLT_iff
  | efficientDetTAO => exact hother parseCustomEfficientDetTAO_iff

end

theorem meets_iff {s : Statics} {calls : List Call} : Meets s calls ↔ MeetsWhen s calls := by
  induction calls generalizing s with
  | nil => exact Iff.rfl
  | cons c calls ih =>
    rw [Meets, MeetsWhen]
    simp only [ih]
    exact parse_iff (P := fun s' => MeetsWhen s' calls)

/-- From the start of the process the calls make what is right exactly if each of them fits. -/
theorem boxes_meet_iff (calls : List Call) : Meets {} calls ↔ MeetsWhen {} calls := meets_iff

/-- One detection of `NMS`, whose box starts left of the network. -/
def leftOf : Call where
  parser := .nmsTLT
  outputLayersInfo := [⟨.float, some "nms", ⟨[1, 7], 7⟩, some ⟨[0, 0, 1, -1 / 4, 0, 1 / 2, 1 / 2], []⟩⟩,
    ⟨.int32, some "nms_1", ⟨[1], 1⟩, some ⟨[], [1]⟩⟩]
  networkInfo := .eight
  detectionParams := ⟨1, [1 / 2], rfl, Nat.one_pos⟩
  count := 0

/-- The rectangle is six wide, where the part of the box in the network is four wide. -/
theorem not_meets_leftOf : ¬Meets {} [leftOf] := by
  have hparse : leftOf.parse {} = some ({}, true, [⟨⟨-2, 0, 4, 4⟩, ⟨0, 0, 0, 6, 4, 1⟩, none⟩]) := by decide +kernel
  rintro ⟨r, hr, hright, -⟩
  rw [hparse] at hr
  cases hr
  have hpart := (hright _ (List.mem_singleton_self _)).columns.2.2
  revert hpart
  decide +kernel

end Boxes
end CustomParser
end DeepStream
