/-
# Non-maximum suppression

The candidates of a class are gone through in the order of their confidence, and one is
kept if its overlap with each of those kept before is not above the threshold. So those that
are kept overlap each other at most that much, and one that is dropped overlaps more with
one that is kept and has at least its confidence. What is above the post-cluster threshold then
is the output of the class, or the best `topK` of it.

For boxes whose sizes are not negative, what is computed is the intersection over the union.
A box of negative size is put through the same formula, which is not symmetric then: the
candidate comes first in it.
-/
import DeepStream.Infer.Release
import DeepStream.Lib.Selection
import Mathlib.Tactic.Linarith
import Mathlib.Tactic.Ring

namespace DeepStream
namespace Infer

/-! ### Overlaps -/

/-- The sizes of the box are not negative. -/
def NvDsInferObjectDetectionInfo.Proper (b : NvDsInferObjectDetectionInfo ℚ) : Prop := 0 ≤ b.width ∧ 0 ≤ b.height

/-- The interval that starts first comes first. -/
theorem overlap1D_of_le {a b c d : ℚ} (h : a ≤ c) : overlap1D a b c d = if b < c then 0 else min b d - c := by
  simp only [overlap1D, if_neg (not_lt.mpr h), gt_iff_lt]
  refine ite_congr rfl (fun _ => rfl) fun _ => ?_
  split
  · rename_i hlt
    rw [min_eq_right (le_of_lt hlt)]
  · rename_i hle
    rw [min_eq_left (not_lt.mp hle)]

theorem overlap1D_of_lt {a b c d : ℚ} (h : c < a) : overlap1D a b c d = if d < a then 0 else min d b - a := by
  rw [← overlap1D_of_le (le_of_lt h)]
  simp only [overlap1D, if_pos h, if_neg (not_lt.mpr (le_of_lt h)), gt_iff_lt]

/-- The length of what two intervals have in common. -/
theorem overlap1D_eq {a b c d : ℚ} (h : a ≤ b) (h' : c ≤ d) : overlap1D a b c d = max 0 (min b d - max a c) := by
  rcases lt_or_ge c a with hlt | hle
  · rw [overlap1D_of_lt hlt, max_eq_left (le_of_lt hlt), min_comm]
    split
    · rw [max_eq_left]
      linarith [min_le_right b d]
    · rename_i hge
      rw [max_eq_right (sub_nonneg.mpr (le_min h (not_lt.mp hge)))]
  · rw [overlap1D_of_le hle, max_eq_right hle]
    split
    · rw [max_eq_left]
      linarith [min_le_left b d]
    · rename_i hge
      rw [max_eq_right (sub_nonneg.mpr (le_min (not_lt.mp hge) h'))]

/-- The area of the intersection. -/
def intersection (b b' : NvDsInferObjectDetectionInfo ℚ) : ℚ :=
  max 0 (min (b.left + b.width) (b'.left + b'.width) - max b.left b'.left) *
    max 0 (min (b.top + b.height) (b'.top + b'.height) - max b.top b'.top)

/-- Intersection over union; it is 0 where the union is empty. -/
theorem computeIoU_eq {b b' : NvDsInferObjectDetectionInfo ℚ} (h : b.Proper) (h' : b'.Proper) :
    computeIoU b b' = intersection b b' / (b.width * b.height + b'.width * b'.height - intersection b b') := by
  unfold computeIoU
  rw [overlap1D_eq (le_add_of_nonneg_right h.1) (le_add_of_nonneg_right h'.1),
    overlap1D_eq (le_add_of_nonneg_right h.2) (le_add_of_nonneg_right h'.2)]
  show (if _ then _ else _) = _
  rw [show max 0 (min (b.left + b.width) (b'.left + b'.width) - max b.left b'.left) *
    max 0 (min (b.top + b.height) (b'.top + b'.height) - max b.top b'.top) = intersection b b' from rfl]
  split
  · rename_i hu
    rw [beq_iff_eq.mp hu, div_zero]
  · rfl

theorem intersection_comm (b b' : NvDsInferObjectDetectionInfo ℚ) : intersection b b' = intersection b' b := by
  unfold intersection
  rw [min_comm, max_comm b.left, min_comm (b.top + b.height), max_comm b.top]

theorem computeIoU_comm {b b' : NvDsInferObjectDetectionInfo ℚ} (h : b.Proper) (h' : b'.Proper) :
    computeIoU b b' = computeIoU b' b := by
  rw [computeIoU_eq h h', computeIoU_eq h' h, intersection_comm, add_comm (b.width * b.height)]

/-! ### What is kept -/

section

variable (thr : ℚ) (objects : List (NvDsInferObjectDetectionInfo ℚ))

/-- Candidate `i` may come to candidate `k`, which is kept. -/
def Within (i k : ℕ) : Prop := ∃ b ∈ objects[i]?, ∃ b' ∈ objects[k]?, computeIoU b b' ≤ thr

/-- Candidate `k` has at least the confidence of candidate `i`. -/
def AtLeast (k i : ℕ) : Prop :=
  ∀ b ∈ objects[i]?, ∀ b' ∈ objects[k]?, b.detectionConfidence ≤ b'.detectionConfidence

/-- The positions `kept` are those that the suppression keeps: in the order of their confidence,
with overlaps up to the threshold; what is dropped overlaps more with a better one. -/
structure Suppresses (kept : List ℕ) : Prop where
  nodup : kept.Nodup
  valid : ∀ i ∈ kept, i < objects.length
  compatible : kept.Pairwise fun k i => ∀ b ∈ objects[i]?, ∀ b' ∈ objects[k]?,
    b.detectionConfidence ≤ b'.detectionConfidence ∧ computeIoU b b' ≤ thr ∧
      (b.Proper → b'.Proper → computeIoU b' b ≤ thr)
  dropped : ∀ i b, objects[i]? = some b → i ∉ kept →
    ∃ k ∈ kept, ∃ b' ∈ objects[k]?, b.detectionConfidence ≤ b'.detectionConfidence ∧ thr < computeIoU b b'

end

variable {thr : ℚ} {objects : List (NvDsInferObjectDetectionInfo ℚ)}

/-- The candidates with their confidence, best first. -/
def scoreIndex (objects : List (NvDsInferObjectDetectionInfo ℚ)) : List (ℚ × ℕ) :=
  (objects.zipIdx.map fun (obj, r) => (obj.detectionConfidence, r)).mergeSort
    fun pair1 pair2 => !decide (pair2.1 > pair1.1)

/-- The positions that `nmsOfClass` keeps. -/
def keptIndices (params : NvDsInferDetectionParams ℚ) (objects : List (NvDsInferObjectDetectionInfo ℚ)) : List ℕ :=
  nonMaximumSuppression (scoreIndex objects) objects params.nmsIOUThreshold

theorem scoreIndex_perm (objects : List (NvDsInferObjectDetectionInfo ℚ)) :
    ((scoreIndex objects).map Prod.snd).Perm (List.range objects.length) := by
  have hperm := (List.mergeSort_perm (objects.zipIdx.map fun (obj, r) => (obj.detectionConfidence, r))
    fun pair1 pair2 => !decide (pair2.1 > pair1.1)).map Prod.snd
  rw [List.map_map] at hperm
  refine hperm.trans (.of_eq ?_)
  rw [show (Prod.snd ∘ fun x : NvDsInferObjectDetectionInfo ℚ × ℕ => (x.1.detectionConfidence, x.2)) = Prod.snd from rfl,
    List.zipIdx_map_snd, List.range_eq_range']

theorem scoreIndex_confidence {pair : ℚ × ℕ} (h : pair ∈ scoreIndex objects) :
    ∃ b, objects[pair.2]? = some b ∧ b.detectionConfidence = pair.1 := by
  obtain ⟨⟨b, r⟩, hb, rfl⟩ := List.mem_map.mp ((List.mergeSort_perm _ _).mem_iff.mp h)
  exact ⟨b, List.mem_zipIdx_iff_getElem?.mp hb, rfl⟩

theorem scoreIndex_sorted (objects : List (NvDsInferObjectDetectionInfo ℚ)) :
    ((scoreIndex objects).map Prod.snd).Pairwise (AtLeast objects) := by
  have hle (p q : ℚ × ℕ) : (!decide (q.1 > p.1)) = true ↔ q.1 ≤ p.1 := by simp
  have hsorted : (scoreIndex objects).Pairwise fun p q => (!decide (q.1 > p.1)) = true := by
    refine List.pairwise_mergeSort (fun p q r hpq hqr => ?_) (fun p q => ?_) _
    · rw [hle] at hpq hqr ⊢
      exact hqr.trans hpq
    · rw [Bool.or_eq_true, hle, hle]
      exact le_total _ _
  rw [List.pairwise_map]
  refine hsorted.imp_of_mem fun {p q} hp hq hpq b hb b' hb' => ?_
  obtain ⟨c, hc, hcp⟩ := scoreIndex_confidence hp
  obtain ⟨d, hd, hdq⟩ := scoreIndex_confidence hq
  obtain rfl : d = b := Option.some.inj (hd.symm.trans hb)
  obtain rfl : c = b' := Option.some.inj (hc.symm.trans hb')
  rw [hcp, hdq]
  exact (hle p q).mp hpq

/-- The loop of the suppression is a greedy choice. -/
theorem greedily_keptIndices (params : NvDsInferDetectionParams ℚ) (objects : List (NvDsInferObjectDetectionInfo ℚ)) :
    Greedily (Within params.nmsIOUThreshold objects) (AtLeast objects) ((scoreIndex objects).map Prod.snd)
      (keptIndices params objects) := by
  unfold keptIndices nonMaximumSuppression
  refine Greedily.foldl (l := []) Prod.snd (fun indices i h => ?_) (fun indices i h => ?_) .nil (scoreIndex_sorted objects)
  · refine if_pos (List.all_eq_true.mpr fun k hk => ?_)
    obtain ⟨b, hb, b', hb', hiou⟩ := h k hk
    rw [hb, hb']
    exact decide_eq_true hiou
  · refine if_neg fun hkeep => h fun k hk => ?_
    have hiou := List.all_eq_true.mp hkeep k hk
    cases hb : objects[i.2]? with
    | none =>
      rw [hb] at hiou
      cases hiou
    | some b =>
      cases hb' : objects[k]? with
      | none =>
        rw [hb, hb'] at hiou
        cases hiou
      | some b' =>
        rw [hb, hb'] at hiou
        exact ⟨b, hb, b', hb', of_decide_eq_true hiou⟩

theorem suppresses_keptIndices (params : NvDsInferDetectionParams ℚ)
    (objects : List (NvDsInferObjectDetectionInfo ℚ)) :
    Suppresses params.nmsIOUThreshold objects (keptIndices params objects) := by
  have h := greedily_keptIndices params objects
  have hperm := scoreIndex_perm objects
  have hvalid : ∀ i ∈ (scoreIndex objects).map Prod.snd, i < objects.length := fun i hi =>
    List.mem_range.mp (hperm.mem_iff.mp hi)
  refine ⟨h.sublist.nodup (hperm.nodup_iff.mpr List.nodup_range), fun i hi => hvalid i (h.sublist.subset hi), ?_, ?_⟩
  · refine ((scoreIndex_sorted objects).sublist h.sublist).and h.compatible |>.imp ?_
    rintro k i ⟨hpref, c, hc, c', hc', hiou⟩ b hb b' hb'
    obtain rfl : c = b := Option.some.inj (hc.symm.trans hb)
    obtain rfl : c' = b' := Option.some.inj (hc'.symm.trans hb')
    exact ⟨hpref c hb c' hb', hiou, fun hp hp' => by rwa [computeIoU_comm hp' hp]⟩
  · intro i b hb hi
    have hmem : i ∈ (scoreIndex objects).map Prod.snd :=
      hperm.mem_iff.mpr (List.mem_range.mpr (List.getElem?_eq_some_iff.mp hb).1)
    obtain ⟨k, hk, hpref, hbad⟩ := (h.left i hmem).resolve_left hi
    obtain ⟨b', hb'⟩ : ∃ b', objects[k]? = some b' :=
      ⟨_, List.getElem?_eq_getElem (hvalid k (h.sublist.subset hk))⟩
    exact ⟨k, hk, b', hb', hpref b hb b' hb', not_le.mp fun hle => hbad ⟨b, hb, b', hb', hle⟩⟩

/-! ### The output of a class -/

/-- The output `out` are the elements of `l`, or `topK` of highest confidence. -/
def FilteredTo (topK : ℤ) (l out : List (NvDsInferObjectDetectionInfo ℚ)) : Prop :=
  if topK < 0 then out = l else Highest (·.detectionConfidence) topK.toNat l out

theorem filteredTo_filterTopKOutputs (topK : ℤ) (l : List (NvDsInferObjectDetectionInfo ℚ)) :
    FilteredTo topK l (filterTopKOutputs id topK l) := by
  unfold FilteredTo filterTopKOutputs
  split
  · rfl
  · exact Highest.take_mergeSort _ _ _ fun a b => by simp

/-- What the suppression keeps of the candidates. -/
def keptObjects (params : NvDsInferDetectionParams ℚ) (objects : List (NvDsInferObjectDetectionInfo ℚ)) :
    List (NvDsInferObjectDetectionInfo ℚ) :=
  (keptIndices params objects).filterMap fun idx => objects[idx]?

theorem filteredTo_nmsOfClass (params : NvDsInferDetectionParams ℚ) (objects : List (NvDsInferObjectDetectionInfo ℚ)) :
    FilteredTo params.topK
      ((keptObjects params objects).filter fun obj => decide (params.postClusterThreshold < obj.detectionConfidence))
      (nmsOfClass params objects) :=
  filteredTo_filterTopKOutputs _ _

/-! ### The output -/

/-- The detections that an output holds. -/
def NvDsInferDetectionOutput.detections {R : Type*} (output : NvDsInferDetectionOutput R) :
    List (NvDsInferObjectDetectionInfo R) :=
  (output.objects.cells.take output.numObjects).filterMap fun cell =>
    cell.map fun obj => obj.info.toNvDsInferObjectDetectionInfo

theorem StoresObjects.detections {R : Type*} {boxes : List (NvDsInferObjectDetectionInfo R)} {h h' : Heap}
    {output : NvDsInferDetectionOutput R} {stored : List (NvDsInferObject R)}
    (hs : StoresObjects (boxes.map withoutMask) h output stored h') : output.detections = boxes := by
  have hcells : output.objects.cells.take output.numObjects = stored.map some := by
    rw [hs.numObjects, hs.cells]
    exact List.take_of_length_le (by simp)
  have hinfo := congrArg (List.map (·.toNvDsInferObjectDetectionInfo)) hs.infos
  rw [List.map_map, List.map_map] at hinfo
  unfold NvDsInferDetectionOutput.detections
  rw [hcells, List.filterMap_map]
  have hsome : ((fun cell : Option (NvDsInferObject R) => cell.map fun obj => obj.info.toNvDsInferObjectDetectionInfo) ∘
      some) = some ∘ fun obj : NvDsInferObject R => obj.info.toNvDsInferObjectDetectionInfo := rfl
  rw [hsome, List.filterMap_eq_map]
  exact hinfo.trans (List.map_id boxes)

theorem clusterAndFillDetectionOutputNMS_detections {R : Type*} [CFloat R] (d : DetectPostprocessor R)
    (labels : List (List String)) {lists : List (List (NvDsInferObjectDetectionInfo R))} (hlists : lists ≠ []) (h : Heap) :
    ∃ output h', d.clusterAndFillDetectionOutputNMS labels lists h = some (output, h') ∧
      output.detections = (eachClass d.perClassDetectionParams lists fun params _ => nmsOfClass params).flatten := by
  let boxes := (eachClass d.perClassDetectionParams lists fun params _ => nmsOfClass params).flatten
  obtain ⟨ptr, stored, h', hs, hinfos, ha⟩ := newDetectionOutput_spec labels (boxes.map withoutMask) h
  rw [List.length_map] at hs
  have hstores : StoresObjects (boxes.map withoutMask) h ⟨⟨ptr, stored.map some⟩, stored.length⟩ stored h' :=
    ⟨rfl, rfl, hinfos, ha⟩
  refine ⟨_, h', ?_, hstores.detections⟩
  unfold DetectPostprocessor.clusterAndFillDetectionOutputNMS
  rw [if_neg (by simpa using hlists)]
  exact hs

theorem eachClass_getElem? {α R : Type*} {params : List (NvDsInferDetectionParams R)} {lists : List (List α)}
    {f : NvDsInferDetectionParams R → ℕ → List α → List α} {c : ℕ} {q : NvDsInferDetectionParams R} {l : List α}
    (hq : params[c]? = some q) (hl : lists[c]? = some l) : (eachClass params lists f)[c]? = some (f q c l) := by
  have hzip : (params.zip lists)[c]? = some (q, l) := List.getElem?_zip_eq_some.mpr ⟨hq, hl⟩
  unfold eachClass
  rw [List.getElem?_map, List.getElem?_zipIdx, hzip, Option.map_some, Option.map_some, Nat.zero_add]

/-- **The output of each class are the candidates that the suppression keeps and that are above
the threshold, or the best of them**, for all candidates and parameters. -/
theorem nms_postcondition (d : DetectPostprocessor ℚ) (labels : List (List String))
    (lists : List (List (NvDsInferObjectDetectionInfo ℚ))) (h : Heap) (hlists : lists ≠ []) :
    ∃ output h', ∃ outs : List (List (NvDsInferObjectDetectionInfo ℚ)),
      d.clusterAndFillDetectionOutputNMS labels lists h = some (output, h') ∧ output.detections = outs.flatten ∧
      outs.length = min d.perClassDetectionParams.length lists.length ∧
      ∀ (c : ℕ) params objects, d.perClassDetectionParams[c]? = some params → lists[c]? = some objects →
        ∃ out kept, outs[c]? = some out ∧ Suppresses params.nmsIOUThreshold objects kept ∧
          FilteredTo params.topK ((kept.filterMap fun idx => objects[idx]?).filter fun obj =>
            decide (params.postClusterThreshold < obj.detectionConfidence)) out := by
  obtain ⟨output, h', hrun, hdet⟩ := clusterAndFillDetectionOutputNMS_detections d labels hlists h
  refine ⟨output, h', _, hrun, hdet, by simp [eachClass], fun c params objects hp ho => ?_⟩
  exact ⟨nmsOfClass params objects, keptIndices params objects, eachClass_getElem? hp ho,
    suppresses_keptIndices params objects, filteredTo_nmsOfClass params objects⟩

/-- A detector of one class. -/
def detectorOf (clusterMode : NvDsInferClusterMode) (params : NvDsInferDetectionParams ℚ) : DetectPostprocessor ℚ where
  customBBoxParseFunc := none
  clusterMode := clusterMode
  perClassDetectionParams := [params]
  withOpenCV := false
  libs := ⟨fun _ l => l, fun _ l => l, fun _ _ l => l⟩

theorem nms_postcondition_pair : ∃ out kept,
    Suppresses (1 / 2) [⟨0, 0, 0, 10, 10, 1⟩, ⟨0, 0, 0, 10, 9, 2⟩] kept ∧
      FilteredTo (-1) ((kept.filterMap fun idx => [⟨0, 0, 0, 10, 10, 1⟩, ⟨0, 0, 0, 10, 9, 2⟩][idx]?).filter fun obj =>
        decide ((0 : ℚ) < obj.detectionConfidence)) out := by
  obtain ⟨_, _, _, -, -, -, hout⟩ := nms_postcondition (detectorOf .nms ⟨0, 0, 0, 0, 0, 0, 1 / 2, -1⟩) []
    [[⟨0, 0, 0, 10, 10, 1⟩, ⟨0, 0, 0, 10, 9, 2⟩]] Heap.empty (List.cons_ne_nil _ _)
  obtain ⟨out, kept, -, h⟩ := hout 0 _ _ rfl rfl
  exact ⟨out, kept, h⟩

end Infer
end DeepStream
