/-
# The plugin detects what nvdsinfer detects

What the loops of `DetectModelPostProcessor` compute is what the functions of nvdsinfer's
post-processor compute: the division of the candidates by class, the suppression, the filters and
the objects that are written. So both find the same, `found`, with the parameters and the mode that
they were initialised with. These are the same but for the mode of OpenCV, where the plugin finds
nothing and nvdsinfer what NMS finds. That is nothing only if no candidate is above the threshold
of its class, as the one of highest confidence is always kept.
-/
import DeepStream.PostProcess.Detect

namespace DeepStream
namespace PostProcess
namespace Detect

/-! ### One class -/

theorem overlap1D_eq (a b c d : ℚ) : overlap1D a b c d = Infer.overlap1D a b c d := by
  have hmin (x y : ℚ) : min x y = if y < x then y else x := by
    rcases lt_or_ge y x with h | h
    · rw [if_pos h, min_eq_right (le_of_lt h)]
    · rw [if_neg (not_lt.mpr h), min_eq_left h]
  unfold overlap1D Infer.overlap1D
  by_cases h : a > c
  · simp only [if_pos h, hmin]
  · simp only [if_neg h, hmin]

theorem computeIoU_eq (b b' : ObjectDetectionInfo) : computeIoU b b' = Infer.computeIoU b b' := by
  unfold computeIoU Infer.computeIoU
  simp only [overlap1D_eq, beq_iff_eq]

theorem filterTopKOutputs_eq (topK : ℤ) (l : List ObjectDetectionInfo) :
    filterTopKOutputs topK l = Infer.filterTopKOutputs id topK l := by
  unfold filterTopKOutputs Infer.filterTopKOutputs
  refine ite_congr rfl (fun _ => rfl) fun _ => ?_
  dsimp only [id_eq]
  split
  · rfl
  · rename_i h
    rw [List.take_length]
    exact (List.take_of_length_le (le_of_lt (not_le.mp h))).symm

theorem preClusteringThreshold_eq (params : List DetectionParams) (l : List ObjectDetectionInfo) :
    preClusteringThreshold params l = Infer.preClusteringThreshold id (params.map DetectionParams.toInfer) l := by
  unfold preClusteringThreshold Infer.preClusteringThreshold
  refine List.filter_congr fun obj _ => ?_
  unfold Infer.meetsPreClusterThreshold
  rw [id_eq, List.getElem?_map]
  cases params[obj.classId]? with
  | none => rfl
  | some d => rfl

/-- The test of the suppression for a candidate against one that is kept. -/
def compatible (bbox : List ObjectDetectionInfo) (nmsThreshold : ℚ) (idx kept : ℕ) : Bool :=
  bbox[idx]?.any fun b => bbox[kept]?.any fun b' => decide (Infer.computeIoU b b' ≤ nmsThreshold)

variable {bbox : List ObjectDetectionInfo} {nmsThreshold : ℚ}

theorem keeps_eq {idx : ℕ} (hidx : idx < bbox.length) : ∀ {indices : List ℕ}, (∀ k ∈ indices, k < bbox.length) →
    keeps bbox nmsThreshold idx indices = some (indices.all (compatible bbox nmsThreshold idx))
  | [], _ => rfl
  | kept :: indices, h => by
    have hb := List.getElem?_eq_getElem hidx
    have hkept : kept < bbox.length := h kept List.mem_cons_self
    have hb' := List.getElem?_eq_getElem hkept
    have ih := keeps_eq hidx fun k hk => h k (List.mem_cons_of_mem _ hk)
    have hc : compatible bbox nmsThreshold idx kept = decide (computeIoU bbox[idx] bbox[kept] ≤ nmsThreshold) := by
      simp only [compatible, hb, hb', computeIoU_eq, Option.any_some]
    rw [keeps, hb, hb']
    simp only [Option.bind_eq_bind, Option.bind_some, List.all_cons, hc]
    split
    · rename_i hle
      rw [ih, decide_eq_true hle, Bool.true_and]
    · rename_i hle
      rw [decide_eq_false hle, Bool.false_and]

theorem nonMaximumSuppression_eq : ∀ {scoreIndex : List (ℚ × ℕ)} {indices : List ℕ},
    (∀ i ∈ scoreIndex, i.2 < bbox.length) → (∀ k ∈ indices, k < bbox.length) →
    nonMaximumSuppression bbox nmsThreshold scoreIndex indices =
      some (scoreIndex.foldl (fun indices i =>
        if indices.all (compatible bbox nmsThreshold i.2) then indices ++ [i.2] else indices) indices)
  | [], _, _, _ => rfl
  | i :: scoreIndex, indices, hs, hk => by
    have hi := hs i List.mem_cons_self
    rw [nonMaximumSuppression, keeps_eq hi hk, List.foldl_cons]
    simp only [Option.bind_eq_bind, Option.bind_some]
    refine nonMaximumSuppression_eq (fun j hj => hs j (List.mem_cons_of_mem _ hj)) fun k hmem => ?_
    split at hmem
    · rcases List.mem_append.mp hmem with h | h
      · exact hk k h
      · rw [List.mem_singleton.mp h]
        exact hi
    · exact hk k hmem

theorem infer_nonMaximumSuppression_eq (scoreIndex : List (ℚ × ℕ)) :
    Infer.nonMaximumSuppression scoreIndex bbox nmsThreshold = scoreIndex.foldl (fun indices i =>
      if indices.all (compatible bbox nmsThreshold i.2) then indices ++ [i.2] else indices) [] := by
  unfold Infer.nonMaximumSuppression
  congr 1
  funext indices i
  refine congrArg (fun keep : Bool => if keep then indices ++ [i.2] else indices) (List.all_congr rfl fun kept => ?_)
  unfold compatible
  cases bbox[i.2]? with
  | none => rfl
  | some b =>
    cases bbox[kept]? with
    | none => rfl
    | some b' => rfl

theorem mapM_getElem? : ∀ {indices : List ℕ}, (∀ k ∈ indices, k < bbox.length) →
    indices.mapM (bbox[·]?) = some (indices.filterMap (bbox[·]?))
  | [], _ => rfl
  | k :: indices, h => by
    have hk := List.getElem?_eq_getElem (h k List.mem_cons_self)
    rw [List.mapM_cons, hk, mapM_getElem? fun j hj => h j (List.mem_cons_of_mem _ hj), List.filterMap_cons_some hk]
    rfl

theorem nmsClass_eq (d : DetectionParams) (list : List ObjectDetectionInfo) :
    nmsClass d list = some (Infer.nmsOfClass d.toInfer list) := by
  unfold nmsClass
  split
  · rename_i hnil
    rw [hnil]
    simp [Infer.nmsOfClass, Infer.filterTopKOutputs]
  · have hscore : ∀ i ∈ Infer.scoreIndex list, i.2 < list.length := fun i hi => by
      have := (Infer.scoreIndex_perm list).mem_iff.mp (List.mem_map_of_mem hi)
      exact List.mem_range.mp this
    have hnms : nonMaximumSuppression list d.nmsIOUThreshold (Infer.scoreIndex list) [] =
        some (Infer.keptIndices d.toInfer list) := by
      rw [nonMaximumSuppression_eq hscore (by simp), ← infer_nonMaximumSuppression_eq]
      rfl
    have hkept := (Infer.suppresses_keptIndices d.toInfer list).valid
    change (do
      let indices ← nonMaximumSuppression list d.nmsIOUThreshold (Infer.scoreIndex list) []
      let found ← indices.mapM (list[·]?)
      some (filterTopKOutputs d.topK
        (found.filter fun obj => decide (obj.detectionConfidence > d.postClusterThreshold)))) = _
    rw [hnms]
    simp only [Option.bind_eq_bind, Option.bind_some, mapM_getElem? hkept, filterTopKOutputs_eq]
    rfl

variable {libs : Infer.ClusterLibs ℚ}

theorem dbscanClass_eq (d : DetectionParams) (c : ℕ) (list : List ObjectDetectionInfo) :
    (dbscanClass libs d list).map (fun obj => { obj with classId := c }) = Infer.dbScanOfClass libs d.toInfer c list := by
  have hparams : clusteringParams d = Infer.clusteringParams d.toInfer := by
    simp only [clusteringParams, Infer.clusteringParams, DetectionParams.toInfer,
      Infer.NvDsInferDBScanClusteringParams.mk.injEq, true_and]
    norm_num
  unfold dbscanClass Infer.dbScanOfClass
  rw [filterTopKOutputs_eq, hparams]
  rfl

theorem hybridClass_eq (d : DetectionParams) (list : List ObjectDetectionInfo) :
    hybridClass libs d list = Infer.hybridOfClass libs d.toInfer list := by
  have hparams : clusteringParams d = Infer.clusteringParams d.toInfer := by
    simp only [clusteringParams, Infer.clusteringParams, DetectionParams.toInfer,
      Infer.NvDsInferDBScanClusteringParams.mk.injEq, true_and]
    norm_num
  unfold hybridClass Infer.hybridOfClass
  rw [hparams]
  rfl

/-! ### All classes -/

theorem getElem?_separate (c : ℕ) : ∀ (objectList : List ObjectDetectionInfo) (lists : List (List ObjectDetectionInfo)),
    (separate objectList lists)[c]? = lists[c]?.map fun list => list ++ objectList.filter fun obj => obj.classId = c
  | [], lists => by
    simp [separate]
  | obj :: objectList, lists => by
    have ih := getElem?_separate c objectList (lists.modify obj.classId (· ++ [obj]))
    rw [separate, List.foldl_cons]
    refine ih.trans ?_
    rw [List.getElem?_modify]
    by_cases h : obj.classId = c
    · simp [h, Function.comp_def]
    · simp [h]

theorem separate_eq (objectList : List ObjectDetectionInfo) (n : ℕ) :
    separate objectList (List.replicate n []) = Infer.perClassObjectList id n objectList := by
  refine List.ext_getElem? fun c => ?_
  rw [getElem?_separate, Infer.perClassObjectList, List.getElem?_map]
  by_cases h : c < n
  · simp [h]
  · simp [h]

variable {pp : ModelPostProcessor} {lists : List (List ObjectDetectionInfo)}

theorem forClasses_eq {α : Type} {f : ℕ → DetectionParams → List ObjectDetectionInfo → Option α}
    {g : ℕ → DetectionParams → List ObjectDetectionInfo → α} (hf : ∀ c d l, f c d l = some (g c d l))
    (hp : pp.perClassDetectionParams.length = pp.numDetectedClasses) (hl : lists.length = pp.numDetectedClasses) :
    forClasses pp lists f = some ((pp.perClassDetectionParams.zip lists).zipIdx.map fun ((d, l), c) => g c d l) := by
  refine mapM_eq_some_iff.mpr (List.forall₂_iff_get.mpr ⟨by simp [hp, hl], fun c hc hc' => ?_⟩)
  have hn : c < pp.numDetectedClasses := by simpa using hc
  simp [List.getElem?_eq_getElem (hp ▸ hn), List.getElem?_eq_getElem (hl ▸ hn), hf]

theorem eachClass_map (params : List DetectionParams) (lists : List (List ObjectDetectionInfo))
    (f : Infer.NvDsInferDetectionParams ℚ → ℕ → List ObjectDetectionInfo → List ObjectDetectionInfo) :
    Infer.eachClass (params.map DetectionParams.toInfer) lists f =
      (params.zip lists).zipIdx.map fun ((d, l), c) => f d.toInfer c l := by
  unfold Infer.eachClass
  rw [List.zip_map_left, List.zipIdx_map, List.map_map]
  rfl

/-! ### Outputs -/

theorem write_next (done : List Object) (n : ℕ) (object : Object) :
    DetectionOutput.write ⟨done.map some ++ List.replicate (n + 1) none, done.length⟩ object =
      some ⟨(done ++ [object]).map some ++ List.replicate n none, (done ++ [object]).length⟩ := by
  have hset : (done.map some ++ List.replicate (n + 1) none).set done.length (some object) =
      (done ++ [object]).map some ++ List.replicate n none := by
    rw [List.set_append_right _ _ (by simp)]
    simp [List.replicate_succ]
  unfold DetectionOutput.write
  rw [if_pos (by simp), hset]
  simp

theorem fillObjects_eq (labels : List (List Text)) : ∀ (objs : List (ℕ × ObjectDetectionInfo)) (done : List Object),
    fillObjects labels objs ⟨done.map some ++ List.replicate objs.length none, done.length⟩ =
      some ⟨(done ++ objs.map fun (c, obj) => objectOf labels c obj).map some, done.length + objs.length⟩
  | [], done => by simp [fillObjects]
  | (c, obj) :: objs, done => by
    have ih := fillObjects_eq labels objs (done ++ [objectOf labels c obj])
    rw [fillObjects, List.length_cons, write_next]
    simp only [Option.bind_eq_bind, Option.bind_some]
    rw [ih]
    simp [Nat.add_assoc, Nat.add_comm 1]

theorem results_of_filled (objects : List Object) : DetectionOutput.results ⟨objects.map some, objects.length⟩ = objects := by
  unfold DetectionOutput.results
  rw [List.take_of_length_le (by simp), List.filterMap_map]
  simp

/-- An array of the right length is filled. -/
theorem newOutput_results (labels : List (List Text)) (objs : List (ℕ × ObjectDetectionInfo)) :
    (newOutput labels objs.length objs).map (·.results) = some (objs.map fun (c, obj) => objectOf labels c obj) := by
  have hfill := fillObjects_eq labels objs []
  rw [newOutput]
  simp only [List.map_nil, List.nil_append, List.length_nil, Nat.zero_add] at hfill
  rw [hfill, Option.map_some]
  have := results_of_filled (objs.map fun (c, obj) => objectOf labels c obj)
  rw [List.length_map] at this
  rw [this]

/-! ### What a mode makes of the candidates -/

/-- The candidates of each class. -/
def candidates (params : List (Infer.NvDsInferDetectionParams ℚ)) (objectList : List ObjectDetectionInfo) :
    List (List ObjectDetectionInfo) :=
  Infer.perClassObjectList id params.length (Infer.preClusteringThreshold id params objectList)

/-- What is found; NMS is undefined without classes. -/
def found (libs : Infer.ClusterLibs ℚ) (mode : Infer.NvDsInferClusterMode)
    (params : List (Infer.NvDsInferDetectionParams ℚ)) (objectList : List ObjectDetectionInfo) :
    Option (List ObjectDetectionInfo) :=
  if (mode = .nms ∨ mode = .dbscanNmsHybrid) ∧ params = [] then none
  else some (Infer.eachClass params (candidates params objectList) (Infer.finalOf libs mode)).flatten

/-- The objects that are written for what is found. -/
def written (labels : List (List Text)) (objs : List ObjectDetectionInfo) : List Object :=
  objs.map fun obj => objectOf labels obj.classId obj

theorem clusterAndFillDetectionOutputNMS_eq (hp : pp.perClassDetectionParams.length = pp.numDetectedClasses)
    (hl : lists.length = pp.numDetectedClasses) :
    (clusterAndFillDetectionOutputNMS pp lists).map (·.results) =
      if pp.perClassDetectionParams = [] then none
      else some (written pp.labels (Infer.eachClass (pp.perClassDetectionParams.map DetectionParams.toInfer) lists
        fun params _ => Infer.nmsOfClass params).flatten) := by
  have hnil : lists = [] ↔ pp.perClassDetectionParams = [] := by
    rw [← List.length_eq_zero_iff, hl, ← hp, List.length_eq_zero_iff]
  unfold clusterAndFillDetectionOutputNMS
  by_cases h : pp.perClassDetectionParams = []
  · rw [if_pos (hnil.mpr h), if_pos h]
    rfl
  · rw [if_neg (mt hnil.mp h), if_neg h, forClasses_eq (fun _ d l => nmsClass_eq d l) hp hl,
      ← eachClass_map pp.perClassDetectionParams lists fun d _ l => Infer.nmsOfClass d l]
    simp only [Option.bind_eq_bind, Option.bind_some]
    have hout := newOutput_results pp.labels
      ((Infer.eachClass (pp.perClassDetectionParams.map DetectionParams.toInfer) lists
        fun params _ => Infer.nmsOfClass params).flatten.map fun obj => (obj.classId, obj))
    rw [List.length_map, List.map_map] at hout
    exact hout

theorem length_eachClass (params : List (Infer.NvDsInferDetectionParams ℚ)) (lists : List (List ObjectDetectionInfo))
    (f : Infer.NvDsInferDetectionParams ℚ → ℕ → List ObjectDetectionInfo → List ObjectDetectionInfo)
    (h : params.length = lists.length) : (Infer.eachClass params lists f).length = lists.length := by
  simp [Infer.eachClass, h]

theorem clusterAndFillDetectionOutputHybrid_eq (hp : pp.perClassDetectionParams.length = pp.numDetectedClasses)
    (hl : lists.length = pp.numDetectedClasses) :
    (clusterAndFillDetectionOutputHybrid libs pp lists).map (·.results) =
      if pp.perClassDetectionParams = [] then none
      else some (written pp.labels (Infer.eachClass (pp.perClassDetectionParams.map DetectionParams.toInfer) lists
        (Infer.finalOf libs .dbscanNmsHybrid)).flatten) := by
  unfold clusterAndFillDetectionOutputHybrid
  rw [forClasses_eq (fun _ d l => congrArg some (hybridClass_eq d l)) hp hl,
    ← eachClass_map pp.perClassDetectionParams lists fun d _ l => Infer.hybridOfClass libs d l]
  simp only [Option.bind_eq_bind, Option.bind_some]
  rw [clusterAndFillDetectionOutputNMS_eq hp ((length_eachClass _ _ _ (by simp [hp, hl])).trans hl),
    Infer.eachClass_eachClass]
  rfl

/-- Two loops over the classes, one after the other. -/
theorem zip_zipIdx_map {α : Type} (params : List DetectionParams) (lists : List (List ObjectDetectionInfo))
    (g : DetectionParams → List ObjectDetectionInfo → List ObjectDetectionInfo) (k : ℕ → List ObjectDetectionInfo → α) :
    ((params.zip ((params.zip lists).zipIdx.map fun ((d, l), _) => g d l)).zipIdx.map fun ((_, l), c) => k c l) =
      (params.zip lists).zipIdx.map fun ((d, l), c) => k c (g d l) :=
  List.ext_getElem (by simp) fun c hc hc' => by simp

theorem clusterAndFillDetectionOutputDBSCAN_eq (hp : pp.perClassDetectionParams.length = pp.numDetectedClasses)
    (hl : lists.length = pp.numDetectedClasses) :
    (clusterAndFillDetectionOutputDBSCAN libs pp lists).map (·.results) =
      some (written pp.labels (Infer.eachClass (pp.perClassDetectionParams.map DetectionParams.toInfer) lists
        (Infer.finalOf libs .dbscan)).flatten) := by
  let classes := (pp.perClassDetectionParams.zip lists).zipIdx
  have hlists : (classes.map fun ((d, l), _) => dbscanClass libs d l).length = pp.numDetectedClasses := by
    simp [classes, hp, hl]
  have hout := newOutput_results pp.labels (classes.map fun ((d, l), c) => (dbscanClass libs d l).map fun obj => (c, obj)).flatten
  have htotal : (classes.map fun ((d, l), c) => (dbscanClass libs d l).map fun obj => (c, obj)).flatten.length =
      ((classes.map fun ((d, l), _) => dbscanClass libs d l).map List.length).sum := by
    rw [List.length_flatten, List.map_map, List.map_map]
    simp [Function.comp_def]
  have hwritten : (classes.map fun ((d, l), c) => (dbscanClass libs d l).map fun obj => (c, obj)).flatten.map
        (fun (c, obj) => objectOf pp.labels c obj) =
      written pp.labels (Infer.eachClass (pp.perClassDetectionParams.map DetectionParams.toInfer) lists
        (Infer.finalOf libs .dbscan)).flatten := by
    rw [eachClass_map, written, List.map_flatten, List.map_flatten, List.map_map, List.map_map]
    refine congrArg List.flatten (List.map_congr_left fun ((d, l), c) _ => ?_)
    have hclass : Infer.finalOf libs .dbscan d.toInfer c l = (dbscanClass libs d l).map fun obj => { obj with classId := c } :=
      (dbscanClass_eq d c l).symm
    simp only [Function.comp_apply, hclass, List.map_map]
    rfl
  have hsecond : forClasses pp (classes.map fun ((d, l), _) => dbscanClass libs d l)
        (fun c _ list => some (list.map fun obj => (c, obj))) =
      some (classes.map fun ((d, l), c) => (dbscanClass libs d l).map fun obj => (c, obj)) :=
    (forClasses_eq (fun _ _ _ => rfl) hp hlists).trans
      (congrArg some (zip_zipIdx_map pp.perClassDetectionParams lists (dbscanClass libs) fun c l => l.map fun obj => (c, obj)))
  unfold clusterAndFillDetectionOutputDBSCAN
  rw [forClasses_eq (g := fun _ d l => dbscanClass libs d l) (fun _ _ _ => rfl) hp hl, ← hwritten, ← hout, htotal]
  show Option.map _ (Option.bind (forClasses pp (classes.map fun ((d, l), _) => dbscanClass libs d l)
    fun c _ list => some (list.map fun obj => (c, obj))) _) = _
  rw [hsecond]
  rfl

theorem fillUnclusteredOutput_eq (objectList : List ObjectDetectionInfo)
    (hp : pp.perClassDetectionParams.length = pp.numDetectedClasses) :
    (fillUnclusteredOutput pp objectList (List.replicate pp.numDetectedClasses [])).map (·.results) =
      some (written pp.labels (Infer.eachClass (pp.perClassDetectionParams.map DetectionParams.toInfer)
        (Infer.perClassObjectList id pp.numDetectedClasses objectList) (Infer.finalOf libs .none)).flatten) := by
  have hl : (Infer.perClassObjectList id pp.numDetectedClasses objectList).length = pp.numDetectedClasses := by
    simp [Infer.perClassObjectList]
  unfold fillUnclusteredOutput
  rw [separate_eq, forClasses_eq (fun _ d l => congrArg some (filterTopKOutputs_eq d.topK l)) hp hl]
  simp only [Option.bind_eq_bind, Option.bind_some]
  have hout := newOutput_results pp.labels
    ((Infer.eachClass (pp.perClassDetectionParams.map DetectionParams.toInfer)
        (Infer.perClassObjectList id pp.numDetectedClasses objectList) (Infer.finalOf libs .none)).flatten.map
          fun obj => (obj.classId, obj))
  rw [List.length_map, List.map_map, List.length_flatten, eachClass_map] at hout
  rw [eachClass_map]
  exact hout

theorem fillDetectionOutput_eq (hp : pp.perClassDetectionParams.length = pp.numDetectedClasses)
    (hmode : pp.clusterMode ≠ .groupRectangles) (objectList : List ObjectDetectionInfo) (output : DetectionOutput) :
    (fillDetectionOutput libs pp (some objectList) output).map (·.2.results) =
      (found libs pp.clusterMode.toInfer (pp.perClassDetectionParams.map DetectionParams.toInfer) objectList).map
        (written pp.labels) := by
  have hl : (separate (preClusteringThreshold pp.perClassDetectionParams objectList)
      (List.replicate pp.numDetectedClasses [])).length = pp.numDetectedClasses := by
    rw [separate_eq]
    simp [Infer.perClassObjectList]
  have hcand : separate (preClusteringThreshold pp.perClassDetectionParams objectList) (List.replicate pp.numDetectedClasses []) =
      candidates (pp.perClassDetectionParams.map DetectionParams.toInfer) objectList := by
    rw [separate_eq, preClusteringThreshold_eq, candidates, List.length_map, hp]
  have hresults (r : Option DetectionOutput) :
      (r.map fun output => (Status.success, output)).map (·.2.results) = r.map (·.results) := by
    rw [Option.map_map]
    rfl
  unfold fillDetectionOutput found
  cases hm : pp.clusterMode with
  | groupRectangles => exact absurd hm hmode
  | nms =>
    simp only [ne_eq, reduceCtorEq, not_false_eq_true, if_true, hresults, ClusterMode.toInfer, true_or, true_and, List.map_eq_nil_iff]
    rw [clusterAndFillDetectionOutputNMS_eq hp hl, hcand]
    split
    · rfl
    · rfl
  | dbscan =>
    simp only [ne_eq, reduceCtorEq, not_false_eq_true, if_true, hresults, ClusterMode.toInfer, or_self, false_and, if_false]
    rw [clusterAndFillDetectionOutputDBSCAN_eq hp hl, hcand]
    rfl
  | dbscanNmsHybrid =>
    simp only [ne_eq, reduceCtorEq, not_false_eq_true, if_true, hresults, ClusterMode.toInfer, or_true, true_and, List.map_eq_nil_iff]
    rw [clusterAndFillDetectionOutputHybrid_eq hp hl, hcand]
    split
    · rfl
    · rfl
  | noClustering =>
    simp only [ne_eq, not_true_eq_false, if_false, hresults, ClusterMode.toInfer, reduceCtorEq, or_self, false_and]
    rw [fillUnclusteredOutput_eq _ hp, ← separate_eq, hcand]
    rfl

/-! ### The output of nvdsinfer -/

/-- The labels as nvdsinfer holds them. -/
def inferLabels (labels : List (List Text)) : List (List String) := labels.map (·.map String.ofList)

theorem inferLabels_getElem? (labels : List (List Text)) (c : ℕ) :
    ((inferLabels labels)[c]?.bind (·[0]?)) = (labels[c]?.bind (·[0]?)).map String.ofList := by
  unfold inferLabels
  rw [List.getElem?_map]
  cases labels[c]? with
  | none => rfl
  | some texts =>
    rw [Option.map_some, Option.bind_some, Option.bind_some, List.getElem?_map]

theorem strdupLabel_text (text : Option String) (h : Heap) :
    (Infer.strdupLabel text h).1.map (·.text.toList) = text.map String.toList := by
  cases text with
  | none => rfl
  | some text => rfl

theorem infer_fillObjects_seen (labels : List (List Text)) (ptr : ℕ) :
    ∀ (objs : List ObjectDetectionInfo) (done : List (Infer.NvDsInferObject ℚ)) (h : Heap),
    ∃ (stored : List (Infer.NvDsInferObject ℚ)) (h' : Heap), Infer.fillObjects (inferLabels labels) (objs.map Infer.withoutMask)
        ⟨⟨ptr, done.map some ++ List.replicate objs.length none⟩, done.length⟩ h =
          some (⟨⟨ptr, (done ++ stored).map some⟩, (done ++ stored).length⟩, h') ∧
      stored.map (·.seen) = written labels objs
  | [], done, h => ⟨[], h, by simp [Infer.fillObjects], rfl⟩
  | obj :: objs, done, h => by
    let label := Infer.strdupLabel ((inferLabels labels)[obj.classId]?.bind (·[0]?)) h
    let x : Infer.NvDsInferObject ℚ := ⟨obj.left, obj.top, obj.width, obj.height, obj.classId, label.1,
      obj.detectionConfidence, none⟩
    obtain ⟨stored, h', hs, hm⟩ := infer_fillObjects_seen labels ptr objs (done ++ [x]) label.2
    have hx : x.seen = objectOf labels obj.classId obj := by
      have hlabel : label.1.map (·.text.toList) = labels[obj.classId]?.bind (·[0]?) := by
        refine (strdupLabel_text _ h).trans ?_
        rw [inferLabels_getElem?, Option.map_map]
        simp [Function.comp_def]
      simp only [Infer.NvDsInferObject.seen, objectOf, x, hlabel]
    refine ⟨x :: stored, h', ?_, ?_⟩
    · rw [List.map_cons, Infer.fillObjects, List.length_cons]
      dsimp only
      rw [Infer.HeapArray.write_next, Option.bind_some, List.append_cons done x stored, ← hs, List.length_append]
      rfl
    · rw [List.map_cons, hm, hx]
      rfl

theorem newDetectionOutput_results (labels : List (List Text)) (objs : List ObjectDetectionInfo) (h : Heap) :
    (Infer.newDetectionOutput (inferLabels labels) objs.length (objs.map Infer.withoutMask) h).map (fun r => r.1.results) =
      some (written labels objs) := by
  obtain ⟨stored, h', hs, hm⟩ := infer_fillObjects_seen labels (Infer.newArray (Infer.NvDsInferObject ℚ) objs.length h).1.ptr objs []
    (Infer.newArray (Infer.NvDsInferObject ℚ) objs.length h).2
  have hrun : Infer.newDetectionOutput (inferLabels labels) objs.length (objs.map Infer.withoutMask) h =
    some (⟨⟨_, stored.map some⟩, stored.length⟩, h') := hs
  rw [hrun, Option.map_some, ← hm]
  unfold Infer.NvDsInferDetectionOutput.results
  rw [List.take_of_length_le (by simp), List.filterMap_map]
  exact congrArg some (List.filterMap_eq_map ▸ rfl)

/-- What nvdsinfer makes of the candidates. -/
theorem infer_fillDetectionOutput_eq (d : Infer.DetectPostprocessor ℚ) (labels : List (List Text))
    {networkInfo : Infer.NvDsInferNetworkInfo} {outputLayers : List (Infer.OutputLayer ℚ)}
    {objectList : List ObjectDetectionInfo} (hparse : d.parse networkInfo outputLayers = some objectList)
    (hmode : d.clusterMode ≠ .groupRectangles) (h : Heap) :
    (d.fillDetectionOutput (inferLabels labels) networkInfo outputLayers h).map (fun r => r.2.1.map (·.results)) =
      (found d.libs d.clusterMode d.perClassDetectionParams objectList).map fun objs => some (written labels objs) := by
  have hfilled (r : Option (Infer.NvDsInferDetectionOutput ℚ × Heap)) :
      (r.map fun r => (Infer.NvDsInferStatus.success, some r.1, r.2)).map (fun r => r.2.1.map (·.results)) =
        (r.map fun r => r.1.results).map some := by
    rw [Option.map_map, Option.map_map]
    rfl
  have hper (lists : List (List ObjectDetectionInfo)) (h : Heap) :
      (Infer.fillPerClass (inferLabels labels) (lists.map (·.map Infer.withoutMask)) h).map (fun r => r.1.results) =
        some (written labels lists.flatten) := by
    rw [Infer.fillPerClass_eq, ← List.map_flatten, List.length_map]
    exact newDetectionOutput_results labels lists.flatten h
  have hnms (lists : List (List ObjectDetectionInfo)) (hlen : lists.length = d.perClassDetectionParams.length) :
      (d.clusterAndFillDetectionOutputNMS (inferLabels labels) lists h).map (fun r => r.1.results) =
        if d.perClassDetectionParams = [] then none
        else some (written labels (Infer.eachClass d.perClassDetectionParams lists fun params _ =>
          Infer.nmsOfClass params).flatten) := by
    have hnil : lists.isEmpty = true ↔ d.perClassDetectionParams = [] := by
      rw [List.isEmpty_iff, ← List.length_eq_zero_iff, hlen, List.length_eq_zero_iff]
    unfold Infer.DetectPostprocessor.clusterAndFillDetectionOutputNMS
    by_cases hd : d.perClassDetectionParams = []
    · rw [if_pos (hnil.mpr hd), if_pos hd]
      rfl
    · rw [if_neg (mt hnil.mp hd), if_neg hd]
      exact newDetectionOutput_results labels _ h
  have hlen : (candidates d.perClassDetectionParams objectList).length = d.perClassDetectionParams.length := by
    simp [candidates, Infer.perClassObjectList]
  unfold Infer.DetectPostprocessor.fillDetectionOutput found
  rw [hparse]
  cases hm : d.clusterMode with
  | groupRectangles => exact absurd hm hmode
  | nms =>
    simp only [hfilled, true_or, true_and]
    rw [show Infer.perClassObjectList id d.perClassDetectionParams.length
      (Infer.preClusteringThreshold id d.perClassDetectionParams objectList) = candidates d.perClassDetectionParams objectList
      from rfl, hnms _ hlen]
    split
    · rfl
    · rfl
  | dbscan => exact (hfilled _).trans (congrArg (Option.map some) (hper _ h))
  | dbscanNmsHybrid =>
    simp only [hfilled, or_true, true_and]
    unfold Infer.DetectPostprocessor.clusterAndFillDetectionOutputHybrid
    rw [show Infer.perClassObjectList id d.perClassDetectionParams.length
      (Infer.preClusteringThreshold id d.perClassDetectionParams objectList) = candidates d.perClassDetectionParams objectList
      from rfl, hnms _ ((length_eachClass _ _ _ hlen.symm).trans hlen), Infer.eachClass_eachClass]
    split
    · rfl
    · rfl
  | none => exact (hfilled _).trans (congrArg (Option.map some) (hper _ h))

/-! ### Nothing to detect -/

theorem filterTopKOutputs_eq_nil_iff {topK : ℤ} (h : 0 < topK) {l : List ObjectDetectionInfo} :
    Infer.filterTopKOutputs id topK l = [] ↔ l = [] := by
  unfold Infer.filterTopKOutputs
  rw [if_neg (by omega), List.take_eq_nil_iff, ← List.length_eq_zero_iff, List.length_mergeSort, List.length_eq_zero_iff]
  refine or_iff_right ?_
  omega

/-- The candidate of highest confidence is kept, so it decides whether NMS finds anything. -/
theorem nmsOfClass_eq_nil_iff {params : Infer.NvDsInferDetectionParams ℚ} (h : 0 < params.topK)
    {objects : List ObjectDetectionInfo} :
    Infer.nmsOfClass params objects = [] ↔ ∀ obj ∈ objects, obj.detectionConfidence ≤ params.postClusterThreshold := by
  have hrun : Infer.nmsOfClass params objects = Infer.filterTopKOutputs id params.topK
    ((Infer.keptObjects params objects).filter fun obj => decide (params.postClusterThreshold < obj.detectionConfidence)) := rfl
  have hsup := Infer.suppresses_keptIndices params objects
  rw [hrun, filterTopKOutputs_eq_nil_iff h, List.filter_eq_nil_iff]
  simp only [decide_eq_true_eq, not_lt, Infer.keptObjects, List.mem_filterMap]
  constructor
  · intro hkept obj hobj
    obtain ⟨i, hi⟩ := List.mem_iff_getElem?.mp hobj
    by_cases hmem : i ∈ Infer.keptIndices params objects
    · exact hkept obj ⟨i, hmem, hi⟩
    · obtain ⟨k, hk, b, hb, hle, -⟩ := hsup.dropped i obj hi hmem
      exact hle.trans (hkept b ⟨k, hk, hb⟩)
  · rintro hall obj ⟨i, -, hi⟩
    exact hall obj (List.mem_of_getElem? hi)

theorem mem_candidates {params : List (Infer.NvDsInferDetectionParams ℚ)} {objectList list : List ObjectDetectionInfo}
    {c : ℕ} (h : (candidates params objectList)[c]? = some list) {obj : ObjectDetectionInfo} :
    obj ∈ list ↔ obj ∈ objectList ∧ Infer.meetsPreClusterThreshold params obj = true ∧ obj.classId = c := by
  unfold candidates Infer.perClassObjectList at h
  rw [List.getElem?_map, Option.map_eq_some_iff] at h
  obtain ⟨c', hc', rfl⟩ := h
  obtain ⟨hlt, hc⟩ := List.getElem?_eq_some_iff.mp hc'
  rw [List.getElem_range] at hc
  subst hc
  simp only [id_eq, Infer.preClusteringThreshold, List.mem_filter, decide_eq_true_eq]
  exact and_assoc

/-- With NMS nothing is found where no candidate is above its threshold. -/
theorem found_nms_eq_nil_iff {params : List (Infer.NvDsInferDetectionParams ℚ)} (h : ∀ d ∈ params, 0 < d.topK)
    {objectList : List ObjectDetectionInfo} :
    (Infer.eachClass params (candidates params objectList) (Infer.finalOf libs .nms)).flatten = [] ↔
      ∀ obj ∈ objectList, ∀ d ∈ params[obj.classId]?,
        d.preClusterThreshold ≤ obj.detectionConfidence → obj.detectionConfidence ≤ d.postClusterThreshold := by
  have hlen : (candidates params objectList).length = params.length := by simp [candidates, Infer.perClassObjectList]
  rw [List.flatten_eq_nil_iff]
  constructor
  · intro hall obj hobj d hd hpre
    obtain ⟨hlt, rfl⟩ := List.getElem?_eq_some_iff.mp hd
    have hl := List.getElem?_eq_getElem (hlen ▸ hlt : obj.classId < (candidates params objectList).length)
    have hclass := hall _ (List.mem_of_getElem? (Infer.eachClass_getElem? (f := Infer.finalOf libs .nms) hd hl))
    refine (nmsOfClass_eq_nil_iff (h _ (List.getElem_mem hlt))).mp hclass obj ((mem_candidates hl).mpr ⟨hobj, ?_, rfl⟩)
    unfold Infer.meetsPreClusterThreshold
    rw [hd]
    simpa using hpre
  · intro hall out hout
    obtain ⟨c, hc⟩ := List.mem_iff_getElem?.mp hout
    have hlt : c < params.length := by
      have := (List.getElem?_eq_some_iff.mp hc).1
      rwa [length_eachClass _ _ _ hlen.symm, hlen] at this
    have hd := List.getElem?_eq_getElem hlt
    have hl := List.getElem?_eq_getElem (hlen ▸ hlt : c < (candidates params objectList).length)
    obtain rfl := Option.some.inj (hc.symm.trans (Infer.eachClass_getElem? (f := Infer.finalOf libs .nms) hd hl))
    refine (nmsOfClass_eq_nil_iff (h _ (List.getElem_mem hlt))).mpr fun obj hobj => ?_
    obtain ⟨hmem, hpre, hclass⟩ := (mem_candidates hl).mp hobj
    refine hall obj hmem params[c] (by rw [hclass]; exact hd) ?_
    unfold Infer.meetsPreClusterThreshold at hpre
    rw [hclass, hd] at hpre
    simpa using hpre

/-! ### Initialisation -/

variable {env : Environment} {uniqueId : ℕ} {gpuId : ℤ} {p : InitParams}

/-- The post-processor that `initResource` makes. -/
def processorOf (env : Environment) (uniqueId : ℕ) (gpuId : ℤ) (p : InitParams) : ModelPostProcessor :=
  { newPostProcessor env uniqueId gpuId (replaceGroupRectangles env p) p.customBBoxParseFuncName with
    clusterMode := p.clusterMode }

theorem initResource_eq (h : IsDetector p) (hi : Initializes env p) :
    initResource env uniqueId gpuId p = .ok (processorOf env uniqueId gpuId p, replaceGroupRectangles env p) := by
  have hparams : ¬ (0 < p.numDetectedClasses ∧ p.perClassDetectionParams = none) := fun hn => hi.1 hn.1 hn.2
  have hparser : ¬ (p.customBBoxParseFuncName ≠ [] ∧ p.customBBoxParseFuncName ∉ bboxParsers) := fun hn =>
    hn.2 (h.parser.resolve_left hn.1)
  have hdbscan : ¬ ((p.clusterMode = .dbscan ∨ p.clusterMode = .dbscanNmsHybrid) ∧ env.dbscanCreated = false) :=
    fun hn => absurd (hi.2 hn.1) (by simp [hn.2])
  unfold initResource
  rw [h.networkType]
  simp only [if_neg hparams, if_neg hparser, if_neg hdbscan]
  rfl

variable (uniqueId gpuId) in
theorem initResource_error (h : IsDetector p) (hi : ¬ Initializes env p) :
    ∃ e, initResource env uniqueId gpuId p = .error e := by
  have hparser : ¬ (p.customBBoxParseFuncName ≠ [] ∧ p.customBBoxParseFuncName ∉ bboxParsers) := fun hn =>
    hn.2 (h.parser.resolve_left hn.1)
  unfold initResource
  rw [h.networkType]
  by_cases hparams : 0 < p.numDetectedClasses ∧ p.perClassDetectionParams = none
  · exact ⟨_, if_pos hparams⟩
  · have hdbscan : (p.clusterMode = .dbscan ∨ p.clusterMode = .dbscanNmsHybrid) ∧ env.dbscanCreated = false := by
      by_contra hn
      exact hi ⟨fun hpos hnone => hparams ⟨hpos, hnone⟩, fun hmode => by simpa using fun hno => hn ⟨hmode, hno⟩⟩
    simp only [if_neg hparams, if_neg hparser, if_pos hdbscan]
    exact ⟨_, rfl⟩

theorem toInfer_replaceGroupRectangles (h : IsDetector p) :
    Infer.replaceGroupRectangles env.withOpencv p.toInfer = (replaceGroupRectangles env p).toInfer := by
  have hmode : p.toInfer.clusterMode = .groupRectangles ↔ p.clusterMode = .groupRectangles := by
    show p.clusterMode.toInfer = _ ↔ _
    cases p.clusterMode <;> decide
  have htype : p.toInfer.networkType = .detector := congrArg NetworkType.toInfer h.networkType
  unfold Infer.replaceGroupRectangles replaceGroupRectangles
  simp only [hmode, htype, and_true]
  split
  · simp only [InitParams.toInfer, Option.map_map, Function.comp_def, List.map_map, h.networkType]
    rfl
  · rfl

theorem labelsFilePath_replaceGroupRectangles (p : InitParams) :
    (replaceGroupRectangles env p).labelsFilePath = p.labelsFilePath := by
  unfold replaceGroupRectangles
  split
  · rfl
  · rfl

variable (uniqueId gpuId) in
theorem labelsOf_eq (h : LabelsRead env p) : Infer.labelsOf env.readLabels (replaceGroupRectangles env p).toInfer =
    some (inferLabels (processorOf env uniqueId gpuId p).labels) := by
  unfold Infer.labelsOf
  show (if (replaceGroupRectangles env p).labelsFilePath = [] then some [] else
    (env.readLabels (replaceGroupRectangles env p).labelsFilePath).map inferLabels) =
      some (inferLabels (if (replaceGroupRectangles env p).labelsFilePath = []
        then [] else (env.readLabels (replaceGroupRectangles env p).labelsFilePath).getD []))
  rw [labelsFilePath_replaceGroupRectangles]
  by_cases hnil : p.labelsFilePath = []
  · rw [if_pos hnil, if_pos hnil]
    rfl
  · obtain ⟨labels, hlabels⟩ := Option.isSome_iff_exists.mp (h.resolve_left hnil)
    rw [if_neg hnil, if_neg hnil, hlabels]
    rfl

theorem labelsOf_eq_none (h : ¬ LabelsRead env p) :
    Infer.labelsOf env.readLabels (replaceGroupRectangles env p).toInfer = none := by
  unfold LabelsRead at h
  rw [not_or, Bool.not_eq_true, Option.isSome_eq_false_iff, Option.isNone_iff_eq_none] at h
  unfold Infer.labelsOf
  show (if (replaceGroupRectangles env p).labelsFilePath = [] then some [] else
    (env.readLabels (replaceGroupRectangles env p).labelsFilePath).map inferLabels) = none
  rw [labelsFilePath_replaceGroupRectangles, if_neg h.1, h.2]
  rfl

/-- What is compared, for the objects that are found. -/
def Detected.ofResults : Option (List Object) → Detected
  | none => .undefined
  | some results => .objects results

theorem length_processorOf (h : IsDetector p) (hi : Initializes env p) :
    (processorOf env uniqueId gpuId p).perClassDetectionParams.length =
      (processorOf env uniqueId gpuId p).numDetectedClasses := by
  have hn : (replaceGroupRectangles env p).numDetectedClasses = p.numDetectedClasses :=
    numDetectedClasses_replaceGroupRectangles p
  have hlen : ((replaceGroupRectangles env p).perClassDetectionParams.getD []).length =
      (p.perClassDetectionParams.getD []).length := length_replaceGroupRectangles p
  show (((replaceGroupRectangles env p).perClassDetectionParams.getD []).take
    (replaceGroupRectangles env p).numDetectedClasses).length = (replaceGroupRectangles env p).numDetectedClasses
  rw [List.length_take, hlen, hn]
  refine min_eq_left ?_
  cases hp : p.perClassDetectionParams with
  | none => exact Nat.not_lt.mp fun hpos => hi.1 hpos hp
  | some params => exact le_of_eq (h.length params hp).symm

theorem detects_eq (h : IsDetector p) (hi : Initializes env p) (hmode : p.clusterMode ≠ .groupRectangles)
    (objectList : List ObjectDetectionInfo) : detects libs env uniqueId gpuId p objectList =
      .ofResults ((found libs p.clusterMode.toInfer
        ((processorOf env uniqueId gpuId p).perClassDetectionParams.map DetectionParams.toInfer) objectList).map
          (written (processorOf env uniqueId gpuId p).labels)) := by
  unfold detects
  rw [initResource_eq h hi, show p.clusterMode = (processorOf env uniqueId gpuId p).clusterMode from rfl,
    ← fillDetectionOutput_eq (length_processorOf h hi) hmode objectList ⟨[], 0⟩]
  dsimp only
  cases fillDetectionOutput libs (processorOf env uniqueId gpuId p) (some objectList) ⟨[], 0⟩ with
  | none => rfl
  | some r => rfl

/-- The mode for which there is no case. -/
theorem detects_groupRectangles (h : IsDetector p) (hi : Initializes env p) (hmode : p.clusterMode = .groupRectangles)
    (objectList : List ObjectDetectionInfo) : detects libs env uniqueId gpuId p objectList = .objects [] := by
  have hpp : (processorOf env uniqueId gpuId p).clusterMode = .groupRectangles := hmode
  unfold detects
  rw [initResource_eq h hi]
  dsimp only
  unfold fillDetectionOutput
  simp only [hpp]
  rfl

theorem dbscan_replaceGroupRectangles (p : InitParams) :
    ((replaceGroupRectangles env p).toInfer.clusterMode = .dbscan ∨
      (replaceGroupRectangles env p).toInfer.clusterMode = .dbscanNmsHybrid) ↔
    (p.clusterMode = .dbscan ∨ p.clusterMode = .dbscanNmsHybrid) := by
  have hmode (m : ClusterMode) : (m.toInfer = .dbscan ∨ m.toInfer = .dbscanNmsHybrid) ↔ (m = .dbscan ∨ m = .dbscanNmsHybrid) := by
    cases m <;> decide
  refine (hmode (replaceGroupRectangles env p).clusterMode).trans ?_
  unfold replaceGroupRectangles
  split
  · rename_i hg
    simp [hg.2]
  · rfl

theorem params_replaceGroupRectangles (p : InitParams) :
    (replaceGroupRectangles env p).toInfer.perClassDetectionParams = none ↔ p.perClassDetectionParams = none := by
  show (replaceGroupRectangles env p).perClassDetectionParams.map (·.map DetectionParams.toInfer) = none ↔ _
  unfold replaceGroupRectangles
  split
  · simp
  · simp

variable {objectList : List ObjectDetectionInfo}

variable (uniqueId gpuId) in
theorem infer_initResource_eq (hi : Initializes env p) (hlabels : LabelsRead env p) :
    Infer.DetectPostprocessor.initResource env.withOpencv env.dbscanCreated env.readLabels libs objectList
        (replaceGroupRectangles env p).toInfer =
      some (inferLabels (processorOf env uniqueId gpuId p).labels,
        { customBBoxParseFunc := some fun _ _ _ => some objectList
          clusterMode := (replaceGroupRectangles env p).clusterMode.toInfer
          perClassDetectionParams := (processorOf env uniqueId gpuId p).perClassDetectionParams.map DetectionParams.toInfer
          withOpenCV := env.withOpencv
          libs := libs }) := by
  have hparams : ¬ (0 < (replaceGroupRectangles env p).toInfer.numDetectedClasses ∧
      (replaceGroupRectangles env p).toInfer.perClassDetectionParams = none) := fun hn =>
    hi.1 (hn.1.trans_eq (numDetectedClasses_replaceGroupRectangles p)) ((params_replaceGroupRectangles p).mp hn.2)
  have hdbscan : ¬ (((replaceGroupRectangles env p).toInfer.clusterMode = .dbscan ∨
      (replaceGroupRectangles env p).toInfer.clusterMode = .dbscanNmsHybrid) ∧ env.dbscanCreated = false) := fun hn =>
    absurd (hi.2 ((dbscan_replaceGroupRectangles p).mp hn.1)) (by simp [hn.2])
  have htake : ((replaceGroupRectangles env p).toInfer.perClassDetectionParams.getD []).take
        (replaceGroupRectangles env p).toInfer.numDetectedClasses =
      (processorOf env uniqueId gpuId p).perClassDetectionParams.map DetectionParams.toInfer := by
    show (((replaceGroupRectangles env p).perClassDetectionParams.map (·.map DetectionParams.toInfer)).getD []).take
        (replaceGroupRectangles env p).numDetectedClasses =
      (((replaceGroupRectangles env p).perClassDetectionParams.getD []).take
        (replaceGroupRectangles env p).numDetectedClasses).map DetectionParams.toInfer
    rw [List.map_take]
    cases (replaceGroupRectangles env p).perClassDetectionParams with
    | none => rfl
    | some params => rfl
  unfold Infer.DetectPostprocessor.initResource
  rw [labelsOf_eq uniqueId gpuId hlabels]
  simp only [Option.bind_eq_bind, Option.bind_some, if_neg hparams, if_neg hdbscan, htake]
  rfl

theorem infer_initResource_eq_none (h : ¬ (Initializes env p ∧ LabelsRead env p)) :
    Infer.DetectPostprocessor.initResource env.withOpencv env.dbscanCreated env.readLabels libs objectList
      (replaceGroupRectangles env p).toInfer = none := by
  unfold Infer.DetectPostprocessor.initResource
  by_cases hlabels : LabelsRead env p
  · rw [labelsOf_eq 0 0 hlabels]
    simp only [Option.bind_eq_bind, Option.bind_some]
    have hi : ¬ Initializes env p := fun hi => h ⟨hi, hlabels⟩
    by_cases hparams : 0 < p.numDetectedClasses ∧ p.perClassDetectionParams = none
    · have hpos : 0 < (replaceGroupRectangles env p).toInfer.numDetectedClasses :=
        hparams.1.trans_eq (numDetectedClasses_replaceGroupRectangles p).symm
      exact if_pos ⟨hpos, (params_replaceGroupRectangles p).mpr hparams.2⟩
    · have hdbscan : (p.clusterMode = .dbscan ∨ p.clusterMode = .dbscanNmsHybrid) ∧ env.dbscanCreated = false := by
        by_contra hn
        exact hi ⟨fun hpos hnone => hparams ⟨hpos, hnone⟩, fun hmode => by simpa using fun hno => hn ⟨hmode, hno⟩⟩
      rw [if_pos (⟨(dbscan_replaceGroupRectangles p).mpr hdbscan.1, hdbscan.2⟩ : _ ∧ _)]
      exact ite_self _
  · rw [labelsOf_eq_none hlabels]
    rfl

variable (uniqueId gpuId) in
theorem infer_detects_eq (h : IsDetector p) (hi : Initializes env p) (hlabels : LabelsRead env p)
    (hcv : env.withOpencv = false) (objectList : List ObjectDetectionInfo) :
    Infer.detects env.withOpencv env.dbscanCreated env.readLabels libs p.toInfer objectList =
      .ofResults ((found libs (replaceGroupRectangles env p).clusterMode.toInfer
        ((processorOf env uniqueId gpuId p).perClassDetectionParams.map DetectionParams.toInfer) objectList).map
          (written (processorOf env uniqueId gpuId p).labels)) := by
  have hmode : (replaceGroupRectangles env p).clusterMode.toInfer ≠ .groupRectangles := by
    unfold replaceGroupRectangles
    split
    · nofun
    · rename_i hnot
      have hne : p.clusterMode ≠ .groupRectangles := fun hg => hnot ⟨hcv, hg⟩
      cases hm : p.clusterMode with
      | groupRectangles => exact absurd hm hne
      | dbscan | nms | dbscanNmsHybrid | noClustering => nofun
  unfold Infer.detects
  rw [toInfer_replaceGroupRectangles h]
  dsimp only
  rw [infer_initResource_eq uniqueId gpuId hi hlabels]
  dsimp only
  let d : Infer.DetectPostprocessor ℚ :=
    { customBBoxParseFunc := some fun _ _ _ => some objectList
      clusterMode := (replaceGroupRectangles env p).clusterMode.toInfer
      perClassDetectionParams := (processorOf env uniqueId gpuId p).perClassDetectionParams.map DetectionParams.toInfer
      withOpenCV := env.withOpencv
      libs := libs }
  have hfill := infer_fillDetectionOutput_eq d (processorOf env uniqueId gpuId p).labels
    (rfl : d.parse ⟨0, 0, 0⟩ [] = some objectList) hmode Heap.empty
  cases hrun : d.fillDetectionOutput (inferLabels (processorOf env uniqueId gpuId p).labels) ⟨0, 0, 0⟩ [] Heap.empty with
  | none =>
    rw [hrun] at hfill
    have hnone := Option.map_eq_none_iff.mp hfill.symm
    rw [hnone]
    rfl
  | some r =>
    rw [hrun] at hfill
    obtain ⟨objs, hobjs, hr⟩ := Option.map_eq_some_iff.mp hfill.symm
    obtain ⟨output, hout, hres⟩ := Option.map_eq_some_iff.mp hr.symm
    rw [hobjs]
    obtain ⟨status, out, h'⟩ := r
    obtain rfl : out = some output := hout
    exact congrArg Detected.objects hres

/-- The parameters of the classes when OpenCV is replaced. -/
theorem params_groupRectangles (h : IsDetector p) (hcv : env.withOpencv = false) (hmode : p.clusterMode = .groupRectangles) :
    (processorOf env uniqueId gpuId p).perClassDetectionParams.map DetectionParams.toInfer =
      (p.perClassDetectionParams.getD []).map fun d => { d.toInfer with topK := 20, nmsIOUThreshold := 1 / 2 } := by
  show (((replaceGroupRectangles env p).perClassDetectionParams.getD []).take
    (replaceGroupRectangles env p).numDetectedClasses).map DetectionParams.toInfer = _
  unfold replaceGroupRectangles
  rw [if_pos ⟨hcv, hmode⟩]
  cases hp : p.perClassDetectionParams with
  | none => simp
  | some params =>
    have hlen : (params.map fun d => { d with topK := 20, nmsIOUThreshold := 1 / 2 }).length ≤ p.numDetectedClasses := by
      rw [List.length_map]
      exact le_of_eq (h.length params hp)
    simp only [Option.map_some, Option.getD_some]
    rw [List.take_of_length_le hlen, List.map_map]
    rfl

theorem params_eq_nil_iff (h : IsDetector p) (hi : Initializes env p) :
    p.perClassDetectionParams.getD [] = [] ↔ p.numDetectedClasses = 0 := by
  cases hp : p.perClassDetectionParams with
  | none =>
    exact iff_of_true rfl (Nat.eq_zero_of_not_pos fun hpos => hi.1 hpos hp)
  | some params =>
    rw [Option.getD_some, ← List.length_eq_zero_iff, h.length params hp]

/-- Without OpenCV NMS is to detect nothing. -/
theorem groupRectangles_meet_iff (h : IsDetector p) (hi : Initializes env p) (hcv : env.withOpencv = false)
    (hmode : p.clusterMode = .groupRectangles) (labels : List (List Text)) :
    Detected.objects [] = .ofResults ((found libs .nms ((processorOf env uniqueId gpuId p).perClassDetectionParams.map
        DetectionParams.toInfer) objectList).map (written labels)) ↔
      p.numDetectedClasses ≠ 0 ∧ NoneAbove p objectList := by
  rw [params_groupRectangles h hcv hmode, ne_eq, ← params_eq_nil_iff h hi]
  unfold found
  by_cases hnil : p.perClassDetectionParams.getD [] = []
  · rw [if_pos ⟨.inl rfl, by rw [hnil, List.map_nil]⟩]
    exact iff_of_false nofun fun hn => hn.1 hnil
  · have hne : (p.perClassDetectionParams.getD []).map (fun d => { d.toInfer with topK := 20, nmsIOUThreshold := 1 / 2 }) ≠ [] :=
      mt List.map_eq_nil_iff.mp hnil
    have htop : ∀ d ∈ (p.perClassDetectionParams.getD []).map
        (fun d => { d.toInfer with topK := 20, nmsIOUThreshold := 1 / 2 }), 0 < d.topK := fun d hd => by
      obtain ⟨d', -, rfl⟩ := List.mem_map.mp hd
      exact Int.ofNat_lt.mpr (by decide : 0 < 20)
    rw [if_neg fun hn => hne hn.2, Option.map_some, Detected.ofResults, Detected.objects.injEq, eq_comm, written,
      List.map_eq_nil_iff, found_nms_eq_nil_iff htop]
    refine Iff.trans ?_ (and_iff_right hnil).symm
    refine forall₂_congr fun obj _ => ?_
    simp only [List.getElem?_map, Option.mem_def, Option.map_eq_some_iff, forall_exists_index, and_imp,
      forall_apply_eq_imp_iff₂]
    rfl

/-- **The plugin detects what nvdsinfer detects exactly if the mode is not the one of OpenCV, or there
are classes and nothing to detect**, where the labels can be read. -/
theorem detect_meet_iff (libs : Infer.ClusterLibs ℚ) (env : Environment) (uniqueId : ℕ) (gpuId : ℤ) (p : InitParams)
    (objectList : List ObjectDetectionInfo) (h : IsDetector p) (hcv : env.withOpencv = false) :
    Meets libs env uniqueId gpuId p objectList ↔ MeetsWhen env p objectList := by
  unfold Meets MeetsWhen
  by_cases hi : Initializes env p
  · refine Iff.trans ?_ (forall_prop_of_true hi).symm
    by_cases hlabels : LabelsRead env p
    · refine Iff.trans ?_ (and_iff_right hlabels).symm
      rw [infer_detects_eq uniqueId gpuId h hi hlabels hcv]
      by_cases hmode : p.clusterMode = .groupRectangles
      · have hnms : (replaceGroupRectangles env p).clusterMode.toInfer = .nms := by
          unfold replaceGroupRectangles
          rw [if_pos ⟨hcv, hmode⟩]
          rfl
        rw [detects_groupRectangles h hi hmode, hnms, groupRectangles_meet_iff h hi hcv hmode]
        exact ⟨fun hn _ => hn, fun hn => hn hmode⟩
      · have hsame : replaceGroupRectangles env p = p := if_neg fun hg => hmode hg.2
        rw [detects_eq h hi hmode, hsame]
        exact iff_of_true rfl fun hg => absurd hg hmode
    · refine iff_of_false (fun hmeets => ?_) fun hn => hlabels hn.1
      have hinfer : Infer.detects env.withOpencv env.dbscanCreated env.readLabels libs p.toInfer objectList = .notInitialized := by
        unfold Infer.detects
        rw [toInfer_replaceGroupRectangles h]
        dsimp only
        rw [infer_initResource_eq_none fun hn => hlabels hn.2]
      rw [hinfer] at hmeets
      by_cases hmode : p.clusterMode = .groupRectangles
      · rw [detects_groupRectangles h hi hmode] at hmeets
        cases hmeets
      · rw [detects_eq h hi hmode] at hmeets
        revert hmeets
        cases found libs p.clusterMode.toInfer ((processorOf env uniqueId gpuId p).perClassDetectionParams.map
          DetectionParams.toInfer) objectList with
        | none => nofun
        | some objs => nofun
  · refine iff_of_true ?_ fun hn => absurd hn hi
    obtain ⟨e, he⟩ := initResource_error uniqueId gpuId h hi
    have hplugin : detects libs env uniqueId gpuId p objectList = .notInitialized := by
      unfold detects
      rw [he]
    rw [hplugin]
    unfold Infer.detects
    rw [toInfer_replaceGroupRectangles h]
    dsimp only
    rw [infer_initResource_eq_none fun hn => hi hn.1]

/-- Nothing can be read, and DBSCAN is there. -/
def noFiles : Environment where
  asInt _ := none
  asFloat _ := none
  stoi _ := none
  stod _ := none
  readLabels _ := none
  withOpencv := false
  dbscanCreated := true

def unchanged : Infer.ClusterLibs ℚ := ⟨fun _ list => list, fun _ list => list, fun _ _ list => list⟩

/-- A detector of one class with the default thresholds. -/
def oneClass (mode : ClusterMode) : InitParams where
  networkType := .detector
  numDetectedClasses := 1
  perClassDetectionParams := some [{}]
  clusterMode := mode

theorem isDetector_oneClass (mode : ClusterMode) : IsDetector (oneClass mode) :=
  ⟨rfl, .inl rfl, fun params h => by rw [← Option.some.inj h]; rfl⟩

theorem initializes_oneClass (mode : ClusterMode) : Initializes noFiles (oneClass mode) := ⟨fun _ => nofun, fun _ => rfl⟩

theorem detect_meet_iff_oneClass : Meets unchanged noFiles 1 0 (oneClass .nms) [⟨0, 0, 0, 10, 10, 1 / 2⟩] :=
  (detect_meet_iff unchanged noFiles 1 0 (oneClass .nms) [⟨0, 0, 0, 10, 10, 1 / 2⟩] (isDetector_oneClass .nms) rfl).mpr
    fun _ => ⟨.inl rfl, nofun⟩

/-- One candidate of confidence 1/2. -/
theorem not_meets_oneCandidate :
    ¬ Meets unchanged noFiles 1 0 (oneClass .groupRectangles) [⟨0, 0, 0, 10, 10, 1 / 2⟩] := by
  have hd := isDetector_oneClass .groupRectangles
  have hi := initializes_oneClass .groupRectangles
  unfold Meets
  rw [detects_groupRectangles hd hi rfl, infer_detects_eq 1 0 hd hi (.inl rfl) rfl]
  refine mt (groupRectangles_meet_iff hd hi rfl rfl _).mp fun hn => ?_
  have habove := hn.2 ⟨0, 0, 0, 10, 10, 1 / 2⟩ List.mem_cons_self {} rfl (by norm_num)
  norm_num at habove

end Detect
end PostProcess
end DeepStream
