/-
# The post-cluster filters of the clustering modes

Each mode leaves some of the candidates of a class, and puts them through a loop of its own for the
threshold and for `topK`. NMS, alone or after DBSCAN, keeps what is above the threshold, DBSCAN
drops what is below it, and without clustering there is no threshold. So a candidate whose
confidence is the threshold is kept by one mode and dropped by the others. `AvoidsThreshold` is
when that makes no difference: there is no such candidate, or there are `topK` better ones.
-/
import DeepStream.Infer.Suppression

namespace DeepStream
namespace Infer

/-! ### What each mode makes of a class -/

section

variable (libs : ClusterLibs ℚ)

/-- What the clustering leaves of the candidates of class `c`, before the filters. -/
def leftBy : NvDsInferClusterMode → NvDsInferDetectionParams ℚ → ℕ → List (NvDsInferObjectDetectionInfo ℚ) →
    List (NvDsInferObjectDetectionInfo ℚ)
  | .nms, params, _, objects => keptObjects params objects
  | .dbscan, params, c, objects =>
    (if params.minBoxes > 0 then libs.dbScanCluster (clusteringParams params) objects else objects).map
      fun obj => { obj with classId := c }
  | .dbscanNmsHybrid, params, _, objects => keptObjects params (hybridOfClass libs params objects)
  | .groupRectangles, params, c, objects => groupRectanglesOfClass libs params c objects
  | .none, _, _, objects => objects

/-- The output of class `c`. -/
def finalOf : NvDsInferClusterMode → NvDsInferDetectionParams ℚ → ℕ → List (NvDsInferObjectDetectionInfo ℚ) →
    List (NvDsInferObjectDetectionInfo ℚ)
  | .nms, params, _, objects => nmsOfClass params objects
  | .dbscan, params, c, objects => dbScanOfClass libs params c objects
  | .dbscanNmsHybrid, params, _, objects => nmsOfClass params (hybridOfClass libs params objects)
  | .groupRectangles, params, c, objects => groupRectanglesOfClass libs params c objects
  | .none, params, _, objects => filterTopKOutputs id params.topK objects

end

theorem eachClass_eachClass {α R : Type*} (params : List (NvDsInferDetectionParams R)) (lists : List (List α))
    (f g : NvDsInferDetectionParams R → ℕ → List α → List α) :
    eachClass params (eachClass params lists f) g = eachClass params lists fun q c l => g q c (f q c l) := by
  refine List.ext_getElem? fun c => ?_
  by_cases hc : c < params.length ∧ c < lists.length
  · have hq := List.getElem?_eq_getElem hc.1
    have hl := List.getElem?_eq_getElem hc.2
    rw [eachClass_getElem? hq (eachClass_getElem? hq hl), eachClass_getElem? hq hl]
  · rw [List.getElem?_eq_none (by simp [eachClass]; omega), List.getElem?_eq_none (by simp [eachClass]; omega)]

theorem fillPerClass_detections (labels : List (List String)) (lists : List (List (NvDsInferObjectDetectionInfo ℚ)))
    (h : Heap) : ∃ output h', fillPerClass labels (lists.map (·.map withoutMask)) h = some (output, h') ∧
      output.detections = lists.flatten := by
  obtain ⟨output, stored, h', hs, hst⟩ := fillPerClass_stores labels (lists.map (·.map withoutMask)) h
  rw [← List.map_flatten] at hst
  exact ⟨output, h', hs, hst.detections⟩

/-- The candidates of each class. -/
def DetectPostprocessor.candidates (d : DetectPostprocessor ℚ) (objectList : List (NvDsInferObjectDetectionInfo ℚ)) :
    List (List (NvDsInferObjectDetectionInfo ℚ)) :=
  perClassObjectList id d.perClassDetectionParams.length
    (preClusteringThreshold id d.perClassDetectionParams objectList)

/-- The output of a frame is what the mode makes of each class. -/
theorem fillDetectionOutput_detections (d : DetectPostprocessor ℚ) (labels : List (List String))
    {networkInfo : NvDsInferNetworkInfo} {outputLayers : List (OutputLayer ℚ)}
    {objectList : List (NvDsInferObjectDetectionInfo ℚ)} (hparse : d.parse networkInfo outputLayers = some objectList)
    (hclasses : d.perClassDetectionParams ≠ []) (hmode : d.clusterMode ≠ .groupRectangles) (h : Heap) :
    ∃ output h', d.fillDetectionOutput labels networkInfo outputLayers h = some (.success, some output, h') ∧
      output.detections =
        (eachClass d.perClassDetectionParams (d.candidates objectList) (finalOf d.libs d.clusterMode)).flatten := by
  have hlists : d.candidates objectList ≠ [] := perClassObjectList_ne_nil (by simpa using hclasses) _
  have hmap : ∀ {r : Option (NvDsInferDetectionOutput ℚ × Heap)} {l : List (NvDsInferObjectDetectionInfo ℚ)},
      (∃ output h', r = some (output, h') ∧ output.detections = l) →
      ∃ output h', (r.map fun r => (NvDsInferStatus.success, some r.1, r.2)) = some (.success, some output, h') ∧
        output.detections = l := by
    rintro _ l ⟨output, h', rfl, hdet⟩
    exact ⟨output, h', rfl, hdet⟩
  unfold DetectPostprocessor.fillDetectionOutput
  rw [hparse]
  cases hm : d.clusterMode with
  | nms => exact hmap (clusterAndFillDetectionOutputNMS_detections d labels hlists h)
  | dbscan => exact hmap (fillPerClass_detections labels _ h)
  | groupRectangles => exact absurd hm hmode
  | dbscanNmsHybrid =>
    have hhybrid := clusterAndFillDetectionOutputNMS_detections d labels
      (eachClass_ne_nil hclasses hlists fun params _ => hybridOfClass d.libs params) h
    rw [eachClass_eachClass] at hhybrid
    exact hmap hhybrid
  | none => exact hmap (fillPerClass_detections labels _ h)

/-! ### The filters -/

/-- No object at the threshold counts: there is none, or there are `topK` above it. -/
def AvoidsThreshold (params : NvDsInferDetectionParams ℚ) (left : List (NvDsInferObjectDetectionInfo ℚ)) : Prop :=
  (∀ obj ∈ left, obj.detectionConfidence ≠ params.postClusterThreshold) ∨
    0 ≤ params.topK ∧ params.topK ≤ (above (·.detectionConfidence) params.postClusterThreshold left).length

/-- The two ways to compare with the threshold have the same result. -/
theorem filteredTo_and_iff {params : NvDsInferDetectionParams ℚ} {left out : List (NvDsInferObjectDetectionInfo ℚ)}
    (h : FilteredTo params.topK (above (·.detectionConfidence) params.postClusterThreshold left) out ∨
      FilteredTo params.topK (atLeast (·.detectionConfidence) params.postClusterThreshold left) out) :
    FilteredTo params.topK (above (·.detectionConfidence) params.postClusterThreshold left) out ∧
      FilteredTo params.topK (atLeast (·.detectionConfidence) params.postClusterThreshold left) out ↔
      AvoidsThreshold params left := by
  unfold FilteredTo AvoidsThreshold at *
  by_cases htop : params.topK < 0
  · simp only [if_pos htop, not_le.mpr htop, false_and, or_false] at h ⊢
    refine ⟨fun ⟨hab, hat⟩ obj hobj heq => ?_, fun hne => ?_⟩
    · have := length_above_lt hobj heq
      rw [← hab, ← hat] at this
      omega
    · rw [atLeast_eq_above hne, or_self] at h
      rw [atLeast_eq_above hne]
      exact ⟨h, h⟩
  · simp only [if_neg htop] at h ⊢
    rw [Highest.and_iff h]
    refine or_congr_right ?_
    omega

/-- Each mode filters what it leaves of a class: `side` is the one comparison with the threshold,
which all modes make but the one without clustering. -/
def FiltersAlike (side : ℚ → ℚ → Bool) (d : DetectPostprocessor ℚ)
    (lists : List (List (NvDsInferObjectDetectionInfo ℚ))) : Prop :=
  ∀ mode ≠ .groupRectangles, ∀ (c : ℕ) params objects, d.perClassDetectionParams[c]? = some params →
    lists[c]? = some objects →
      FilteredTo params.topK ((leftBy d.libs mode params c objects).filter fun obj =>
        mode == .none || side params.postClusterThreshold obj.detectionConfidence) (finalOf d.libs mode params c objects)

theorem FilteredTo.map {topK : ℤ} {l out : List (NvDsInferObjectDetectionInfo ℚ)}
    {f : NvDsInferObjectDetectionInfo ℚ → NvDsInferObjectDetectionInfo ℚ}
    (hf : ∀ obj, (f obj).detectionConfidence = obj.detectionConfidence) (h : FilteredTo topK l out) :
    FilteredTo topK (l.map f) (out.map f) := by
  unfold FilteredTo at h ⊢
  by_cases htop : topK < 0
  · rw [if_pos htop] at h ⊢
    exact congrArg _ h
  · rw [if_neg htop] at h ⊢
    exact h.map hf

theorem filteredTo_dbScanOfClass (libs : ClusterLibs ℚ) (params : NvDsInferDetectionParams ℚ) (c : ℕ)
    (objects : List (NvDsInferObjectDetectionInfo ℚ)) :
    FilteredTo params.topK (atLeast (·.detectionConfidence) params.postClusterThreshold
      (leftBy libs .dbscan params c objects)) (finalOf libs .dbscan params c objects) := by
  have h := (filteredTo_filterTopKOutputs params.topK (atLeast (·.detectionConfidence) params.postClusterThreshold
    (if params.minBoxes > 0 then libs.dbScanCluster (clusteringParams params) objects else objects))).map
      (f := fun obj => { obj with classId := c }) fun _ => rfl
  have hmap : atLeast (·.detectionConfidence) params.postClusterThreshold (leftBy libs .dbscan params c objects) =
      (atLeast (·.detectionConfidence) params.postClusterThreshold
        (if params.minBoxes > 0 then libs.dbScanCluster (clusteringParams params) objects else objects)).map
          fun obj => { obj with classId := c } := List.filter_map
  rw [hmap]
  exact h

theorem filteredTo_nms (params : NvDsInferDetectionParams ℚ) (objects : List (NvDsInferObjectDetectionInfo ℚ)) :
    FilteredTo params.topK (above (·.detectionConfidence) params.postClusterThreshold (keptObjects params objects))
      (nmsOfClass params objects) :=
  filteredTo_nmsOfClass params objects

theorem filteredTo_none (libs : ClusterLibs ℚ) (side : ℚ → ℚ → Bool) (params : NvDsInferDetectionParams ℚ) (c : ℕ)
    (objects : List (NvDsInferObjectDetectionInfo ℚ)) :
    FilteredTo params.topK ((leftBy libs .none params c objects).filter fun obj =>
      NvDsInferClusterMode.none == .none || side params.postClusterThreshold obj.detectionConfidence)
      (finalOf libs .none params c objects) := by
  have hall : (leftBy libs .none params c objects).filter (fun obj => NvDsInferClusterMode.none == .none ||
      side params.postClusterThreshold obj.detectionConfidence) = objects := List.filter_eq_self.mpr fun _ _ => rfl
  rw [hall]
  exact filteredTo_filterTopKOutputs _ _

/-- **The modes filter alike exactly where DBSCAN avoids the threshold**, if the comparison is that
of NMS; if it is that of DBSCAN, where NMS avoids it. In each mode the output is what is filtered. -/
theorem clusterModes_filter_alike (d : DetectPostprocessor ℚ) (labels : List (List String))
    {networkInfo : NvDsInferNetworkInfo} {outputLayers : List (OutputLayer ℚ)}
    {objectList : List (NvDsInferObjectDetectionInfo ℚ)} (hparse : d.parse networkInfo outputLayers = some objectList)
    (hclasses : d.perClassDetectionParams ≠ []) (h : Heap) :
    (∀ mode ≠ .groupRectangles, ∃ output h',
      { d with clusterMode := mode }.fillDetectionOutput labels networkInfo outputLayers h =
        some (.success, some output, h') ∧
      output.detections =
        (eachClass d.perClassDetectionParams (d.candidates objectList) (finalOf d.libs mode)).flatten) ∧
    (FiltersAlike (fun thr conf => decide (thr < conf)) d (d.candidates objectList) ↔
      ∀ (c : ℕ) params objects, d.perClassDetectionParams[c]? = some params → (d.candidates objectList)[c]? = some objects →
        AvoidsThreshold params (leftBy d.libs .dbscan params c objects)) ∧
    (FiltersAlike (fun thr conf => !decide (conf < thr)) d (d.candidates objectList) ↔
      ∀ (c : ℕ) params objects, d.perClassDetectionParams[c]? = some params → (d.candidates objectList)[c]? = some objects →
        AvoidsThreshold params (leftBy d.libs .nms params c objects) ∧
          AvoidsThreshold params (leftBy d.libs .dbscanNmsHybrid params c objects)) := by
  refine ⟨fun mode hmode => fillDetectionOutput_detections { d with clusterMode := mode } labels hparse hclasses hmode h,
    ⟨fun hall c params objects hp ho => ?_, fun hall mode hmode c params objects hp ho => ?_⟩,
    ⟨fun hall c params objects hp ho => ?_, fun hall mode hmode c params objects hp ho => ?_⟩⟩
  · have hdb := filteredTo_dbScanOfClass d.libs params c objects
    exact (filteredTo_and_iff (.inr hdb)).mp ⟨hall .dbscan (by decide) c params objects hp ho, hdb⟩
  · cases mode with
    | nms => exact filteredTo_nms params objects
    | dbscan =>
      exact ((filteredTo_and_iff (.inr (filteredTo_dbScanOfClass d.libs params c objects))).mpr
        (hall c params objects hp ho)).1
    | groupRectangles => exact absurd rfl hmode
    | dbscanNmsHybrid => exact filteredTo_nms params (hybridOfClass d.libs params objects)
    | none => exact filteredTo_none d.libs (fun thr conf => decide (thr < conf)) params c objects
  · have hnms := filteredTo_nms params objects
    have hhybrid := filteredTo_nms params (hybridOfClass d.libs params objects)
    exact ⟨(filteredTo_and_iff (.inl hnms)).mp ⟨hnms, hall .nms (by decide) c params objects hp ho⟩,
      (filteredTo_and_iff (.inl hhybrid)).mp ⟨hhybrid, hall .dbscanNmsHybrid (by decide) c params objects hp ho⟩⟩
  · obtain ⟨hnms, hhybrid⟩ := hall c params objects hp ho
    cases mode with
    | nms => exact ((filteredTo_and_iff (.inl (filteredTo_nms params objects))).mpr hnms).2
    | dbscan => exact filteredTo_dbScanOfClass d.libs params c objects
    | groupRectangles => exact absurd rfl hmode
    | dbscanNmsHybrid =>
      exact ((filteredTo_and_iff (.inl (filteredTo_nms params (hybridOfClass d.libs params objects)))).mpr hhybrid).2
    | none => exact filteredTo_none d.libs (fun thr conf => !decide (conf < thr)) params c objects

/-- A detector of one class, whose parse function finds one object with confidence `conf`. -/
def oneObject (clusterMode : NvDsInferClusterMode) (conf : ℚ) : DetectPostprocessor ℚ :=
  { detectorOf clusterMode ⟨0, 1 / 2, 0, 0, 0, 0, 1 / 2, -1⟩ with
    customBBoxParseFunc := some fun _ _ _ => some [⟨0, 0, 0, 10, 10, conf⟩] }

theorem candidates_oneObject (clusterMode : NvDsInferClusterMode) {conf : ℚ} (hconf : 0 ≤ conf) :
    (oneObject clusterMode conf).candidates [⟨0, 0, 0, 10, 10, conf⟩] = [[⟨0, 0, 0, 10, 10, conf⟩]] := by
  have hpre : preClusteringThreshold id (oneObject clusterMode conf).perClassDetectionParams [⟨0, 0, 0, 10, 10, conf⟩] =
      [⟨0, 0, 0, 10, 10, conf⟩] := by
    refine List.filter_eq_self.mpr fun obj hobj => ?_
    rw [List.mem_singleton.mp hobj]
    simpa [meetsPreClusterThreshold, oneObject, detectorOf] using hconf
  unfold DetectPostprocessor.candidates
  rw [hpre]
  rfl

theorem clusterModes_filter_alike_above : FiltersAlike (fun thr conf => decide (thr < conf)) (oneObject .nms 1)
    ((oneObject .nms 1).candidates [⟨0, 0, 0, 10, 10, 1⟩]) := by
  refine (clusterModes_filter_alike (oneObject .nms 1) []
    (rfl : (oneObject .nms 1).parse ⟨0, 0, 0⟩ [] = some [⟨0, 0, 0, 10, 10, 1⟩]) (List.cons_ne_nil _ _)
    Heap.empty).2.1.mpr fun c params objects hp ho => ?_
  rw [candidates_oneObject _ (by norm_num)] at ho
  obtain rfl : c = 0 := by
    have := (List.getElem?_eq_some_iff.mp ho).1
    simpa using this
  obtain rfl := Option.some.inj hp
  obtain rfl := Option.some.inj ho
  refine .inl fun obj hobj => ?_
  obtain rfl := List.mem_singleton.mp hobj
  show (1 : ℚ) ≠ 1 / 2
  norm_num

/-- An object whose confidence is the threshold is returned by DBSCAN and not by NMS: no comparison
is that of both. -/
theorem clusterModes_not_alike : (∃ output h',
      (oneObject .dbscan (1 / 2)).fillDetectionOutput [] ⟨0, 0, 0⟩ [] Heap.empty = some (.success, some output, h') ∧
      output.detections = [⟨0, 0, 0, 10, 10, 1 / 2⟩]) ∧
    (∃ output h',
      (oneObject .nms (1 / 2)).fillDetectionOutput [] ⟨0, 0, 0⟩ [] Heap.empty = some (.success, some output, h') ∧
      output.detections = []) ∧
    ¬ ∃ side, FiltersAlike side (oneObject .nms (1 / 2)) [[⟨0, 0, 0, 10, 10, 1 / 2⟩]] := by
  have hdb : finalOf (oneObject .nms (1 / 2)).libs .dbscan ⟨0, 1 / 2, 0, 0, 0, 0, 1 / 2, -1⟩ 0
      [⟨0, 0, 0, 10, 10, 1 / 2⟩] = [⟨0, 0, 0, 10, 10, 1 / 2⟩] := by
    simp [finalOf, dbScanOfClass, filterTopKOutputs]
  have hnms : finalOf (oneObject .nms (1 / 2)).libs .nms ⟨0, 1 / 2, 0, 0, 0, 0, 1 / 2, -1⟩ 0
      [⟨0, 0, 0, 10, 10, 1 / 2⟩] = [] := by
    simp [finalOf, nmsOfClass, filterTopKOutputs, nonMaximumSuppression]
  refine ⟨?_, ?_, ?_⟩
  · obtain ⟨output, h', hrun, hdet⟩ := fillDetectionOutput_detections (oneObject .dbscan (1 / 2)) []
      (rfl : (oneObject .dbscan (1 / 2)).parse ⟨0, 0, 0⟩ [] = some [⟨0, 0, 0, 10, 10, 1 / 2⟩]) (List.cons_ne_nil _ _)
      (by decide) Heap.empty
    rw [candidates_oneObject _ (by norm_num)] at hdet
    exact ⟨output, h', hrun, hdet.trans (congrArg (· ++ []) hdb)⟩
  · obtain ⟨output, h', hrun, hdet⟩ := fillDetectionOutput_detections (oneObject .nms (1 / 2)) []
      (rfl : (oneObject .nms (1 / 2)).parse ⟨0, 0, 0⟩ [] = some [⟨0, 0, 0, 10, 10, 1 / 2⟩]) (List.cons_ne_nil _ _)
      (by decide) Heap.empty
    rw [candidates_oneObject _ (by norm_num)] at hdet
    exact ⟨output, h', hrun, hdet.trans (congrArg (· ++ []) hnms)⟩
  · rintro ⟨side, hside⟩
    have hd := hside .dbscan (by decide) 0 _ _ rfl rfl
    have hn := hside .nms (by decide) 0 _ _ rfl rfl
    rw [hdb] at hd
    rw [hnms] at hn
    have hkept : keptObjects ⟨0, 1 / 2, 0, 0, 0, 0, 1 / 2, -1⟩ [⟨0, 0, 0, 10, 10, 1 / 2⟩] =
        [⟨0, 0, 0, 10, 10, 1 / 2⟩] := by
      simp [keptObjects, keptIndices, scoreIndex, nonMaximumSuppression]
    change FilteredTo (-1) ((keptObjects _ _).filter _) [] at hn
    rw [hkept] at hn
    simp [FilteredTo] at hn
    simp [FilteredTo, leftBy, hn] at hd

end Infer
end DeepStream
