/-
# The queries of a DDETR network

`NvDsInferParseCustomDDETRTAO` walks over the boxes and the logits with one index, in steps of four,
puts the objects into a map under their confidence and goes through the map from `end()` down,
without its first element. What lies at `end()` nobody says, so it is a parameter.

The logits are read in rows of four, whatever the number of classes is, so the rows lie in the tensor
if there are four classes or more, or one query. An object that is put into the map brings the
element at `end()` into the list: the parser is right only if no query passes.
-/
import DeepStream.CustomParser.Tensors
import DeepStream.Lib.Selection
import Mathlib.Algebra.Order.Field.Basic
import Mathlib.Tactic.Linarith

namespace DeepStream
namespace CustomParser
namespace Ddetr

open Infer (NvDsInferDims)

abbrev Object := Infer.NvDsInferObjectDetectionInfo ℚ

/-! ### The parser -/

/-- The last layer of the network, if it is not part of it. -/
structure Sigmoid where
  toFun : ℚ → ℚ
  strictMono : StrictMono toFun
  pos : ∀ x, 0 < toFun x
  lt_one : ∀ x, toFun x < 1

/-- A row of logits that starts anywhere in the tensor. -/
def rowAt (logits : List ℚ) (numClasses start : ℕ) : List ℚ := (logits.drop start).take numClasses

section

variable (σ : Sigmoid) (networkInfo : NvDsInferNetworkInfo) (perClassPreclusterThreshold : List ℚ)
variable (boxes logits : List ℚ) (numClasses : ℕ)

def classAt (start : ℕ) : ℕ := maxElement (rowAt logits numClasses start)

def confidenceAt (start : ℕ) : ℚ :=
  σ.toFun ((rowAt logits numClasses start).getD (classAt logits numClasses start) 0)

/-- The row at `start` is of a class, and reaches its threshold. -/
def Passes (start : ℕ) : Prop :=
  classAt logits numClasses start ≠ 0 ∧
    perClassPreclusterThreshold.getD (classAt logits numClasses start) 0 ≤ confidenceAt σ logits numClasses start

instance (start : ℕ) : Decidable (Passes σ perClassPreclusterThreshold logits numClasses start) :=
  inferInstanceAs (Decidable (_ ∧ _))

/-- The object with a box, `box` being its four coordinates. -/
def objectOf (classId : ℕ) (detectionConfidence cx cy w h : ℚ) : Object :=
  let rectX1f := (cx - w / 2) * networkInfo.width
  let rectY1f := (cy - h / 2) * networkInfo.height
  let rectX2f := rectX1f + w * networkInfo.width
  let rectY2f := rectY1f + h * networkInfo.height
  let rectX1f := clip networkInfo.width rectX1f
  let rectX2f := clip networkInfo.width rectX2f
  let rectY1f := clip networkInfo.height rectY1f
  let rectY2f := clip networkInfo.height rectY2f
  ⟨classId, rectX1f, rectY1f, rectX2f - rectX1f, rectY2f - rectY1f, detectionConfidence⟩

/-- `ordered_objects[key] = object`. -/
def setObject (key : ℚ) (object : Object) : List (ℚ × Object) → List (ℚ × Object)
  | [] => [(key, object)]
  | (key', object') :: rest =>
    if key < key' then (key, object) :: (key', object') :: rest
    else if key = key' then (key, object) :: rest
    else (key', object') :: setObject key object rest

/-- The body of the first loop. -/
def queryAt (orderedObjects : List (ℚ × Object)) (idx : ℕ) : Option (List (ℚ × Object)) :=
  if logits.length < idx + numClasses then none
  else
    let classId := classAt logits numClasses idx
    let detectionConfidence := confidenceAt σ logits numClasses idx
    if classId = 0 then some orderedObjects
    else do
      let threshold ← perClassPreclusterThreshold[classId]?
      if detectionConfidence < threshold then some orderedObjects
      else do
        let cx ← boxes[idx]?
        let cy ← boxes[idx + 1]?
        let w ← boxes[idx + 2]?
        let h ← boxes[idx + 3]?
        some (setObject detectionConfidence (objectOf networkInfo classId detectionConfidence cx cy w h) orderedObjects)

end

def keepTopK : ℕ := 200

/-- The second loop: `iter` is the number of elements before the iterator, which is at `end()` first, and
what is found there is `past`. -/
def topObjects (orderedObjects : List (ℚ × Object)) (past : Object) : ℕ → ℕ → List Object
  | 0, _ => []
  | _ + 1, 0 => []
  | iter + 1, left + 1 =>
    let second := (orderedObjects[iter + 1]?.map Prod.snd).getD past
    (if second.classId ≠ 0 then [second] else []) ++ topObjects orderedObjects past iter left

def nvDsInferParseCustomDDETRTAO (σ : Sigmoid) (past : Object) (outputLayersInfo : List NvDsInferLayerInfo)
    (networkInfo : NvDsInferNetworkInfo) (perClassPreclusterThreshold : List ℚ) (objectList : List Object) :
    Option (Bool × List Object) :=
  match layerFinder outputLayersInfo "pred_boxes", layerFinder outputLayersInfo "pred_logits" with
  | some boxLayer, some classLayer => do
    let orderedObjects ← ((List.range (classLayer.dim 0 * 4 % 2 ^ 32 / 4)).map (4 * ·)).foldlM
      (queryAt σ networkInfo perClassPreclusterThreshold boxLayer.floats classLayer.floats (classLayer.dim 1)) []
    some (true, objectList ++ topObjects orderedObjects past orderedObjects.length keepTopK)
  | _, _ => some (false, objectList)

/-! ### What the parser is called with -/

/-- The layers of a DDETR network, and a threshold for each of its classes. -/
structure Output where
  outputLayersInfo : List NvDsInferLayerInfo
  networkInfo : NvDsInferNetworkInfo
  perClassPreclusterThreshold : List ℚ
  boxLayer : NvDsInferLayerInfo
  classLayer : NvDsInferLayerInfo
  box_found : layerFinder outputLayersInfo "pred_boxes" = some boxLayer
  class_found : layerFinder outputLayersInfo "pred_logits" = some classLayer
  boxes_length : boxLayer.floats.length = classLayer.dim 0 * 4
  logits_length : classLayer.floats.length = classLayer.dim 0 * classLayer.dim 1
  classes_pos : 0 < classLayer.dim 1
  thresholds_length : classLayer.dim 1 ≤ perClassPreclusterThreshold.length

namespace Output

variable (σ : Sigmoid) (o : Output)

def boxes : List ℚ := o.boxLayer.floats

def logits : List ℚ := o.classLayer.floats

def numQueries : ℕ := o.classLayer.dim 0

def numClasses : ℕ := o.classLayer.dim 1

/-- The number of times that the first loop runs. -/
def numRead : ℕ := o.numQueries * 4 % 2 ^ 32 / 4

def PassesAt (start : ℕ) : Prop := Passes σ o.perClassPreclusterThreshold o.logits o.numClasses start

instance (start : ℕ) : Decidable (o.PassesAt σ start) :=
  inferInstanceAs (Decidable (Passes σ o.perClassPreclusterThreshold o.logits o.numClasses start))

/-- The confidence of a query, from its own logits. -/
def confidence (k : ℕ) : ℚ := confidenceAt σ o.logits o.numClasses (k * o.numClasses)

/-- A query with its own class and its own box. -/
def object (k : ℕ) : Object :=
  objectOf o.networkInfo (classAt o.logits o.numClasses (k * o.numClasses)) (o.confidence σ k) (o.boxes.getD (k * 4) 0)
    (o.boxes.getD (k * 4 + 1) 0) (o.boxes.getD (k * 4 + 2) 0) (o.boxes.getD (k * 4 + 3) 0)

/-- The queries that are of a class and reach its threshold. -/
def passing : List ℕ := (List.range o.numQueries).filter fun k => o.PassesAt σ (k * o.numClasses)

/-- The objects of the best queries, at most 200 of them, the best ones first. -/
def Best (objects : List Object) : Prop := ∃ chosen, Highest (o.confidence σ) keepTopK (o.passing σ) chosen ∧
  chosen.Pairwise (fun k k' => o.confidence σ k' ≤ o.confidence σ k) ∧ objects = chosen.map (o.object σ)

/-- The parser reads inside of the tensors and appends the best queries, whatever lies behind the map. -/
def Meets : Prop := ∀ past objectList, ∃ objects,
  nvDsInferParseCustomDDETRTAO σ past o.outputLayersInfo o.networkInfo o.perClassPreclusterThreshold objectList =
    some (true, objectList ++ objects) ∧ o.Best σ objects

/-- The rows that the parser reads lie in the tensor, and neither one of them passes nor a query does. -/
structure MeetsWhen : Prop where
  inside : ∀ k < o.numRead, 4 * k + o.numClasses ≤ o.numQueries * o.numClasses
  rows : ∀ k < o.numRead, ¬o.PassesAt σ (4 * k)
  queries : ∀ k < o.numQueries, ¬o.PassesAt σ (k * o.numClasses)

end Output

/-! ### The loops -/

section

variable {σ : Sigmoid} {networkInfo : NvDsInferNetworkInfo} {thresholds boxes logits : List ℚ} {numClasses : ℕ}
variable {orderedObjects orderedObjects' : List (ℚ × Object)} {idx : ℕ}

theorem setObject_ne_nil (key : ℚ) (object : Object) (l : List (ℚ × Object)) : setObject key object l ≠ [] := by
  cases l with
  | nil => exact List.cons_ne_nil _ _
  | cons o l =>
    rw [setObject]
    split
    · exact List.cons_ne_nil _ _
    · split <;> exact List.cons_ne_nil _ _

/-- What a row does. -/
theorem queryAt_cases (h : queryAt σ networkInfo thresholds boxes logits numClasses orderedObjects idx = some orderedObjects') :
    idx + numClasses ≤ logits.length ∧
      (orderedObjects' = orderedObjects ∧ ¬Passes σ thresholds logits numClasses idx ∨ orderedObjects' ≠ []) := by
  unfold queryAt at h
  split at h
  · cases h
  rename_i hinside
  refine ⟨not_lt.mp hinside, ?_⟩
  dsimp only at h
  split at h
  · rename_i hzero
    exact .inl ⟨(Option.some.inj h).symm, fun hp => hp.1 hzero⟩
  · obtain ⟨threshold, hthreshold, h⟩ := Option.bind_eq_some_iff.mp h
    split at h
    · rename_i hlt
      refine .inl ⟨(Option.some.inj h).symm, fun hp => not_lt.mpr hp.2 ?_⟩
      rwa [List.getD_eq_getElem?_getD, hthreshold]
    · simp only [Option.bind_eq_bind, Option.bind_eq_some_iff] at h
      obtain ⟨cx, -, cy, -, w, -, h', -, h⟩ := h
      exact .inr ((Option.some.inj h) ▸ setObject_ne_nil _ _ _)

/-- A row that does not pass is left out. -/
theorem queryAt_of_not_passes (hinside : idx + numClasses ≤ logits.length) (hpos : 0 < numClasses)
    (hthresholds : numClasses ≤ thresholds.length) (h : ¬Passes σ thresholds logits numClasses idx) :
    queryAt σ networkInfo thresholds boxes logits numClasses orderedObjects idx = some orderedObjects := by
  unfold queryAt
  rw [if_neg (not_lt.mpr hinside)]
  dsimp only
  split
  · rfl
  · rename_i hclass
    have hlength : (rowAt logits numClasses idx).length = numClasses := by
      rw [rowAt, List.length_take, List.length_drop]
      omega
    have hlt : classAt logits numClasses idx < thresholds.length := by
      have hmax := maxElement_lt (List.ne_nil_of_length_pos (hlength.symm ▸ hpos))
      rw [classAt]
      omega
    rw [List.getElem?_eq_getElem hlt]
    refine if_pos (not_le.mp fun hle => h ⟨hclass, ?_⟩)
    rwa [List.getD_eq_getElem?_getD, List.getElem?_eq_getElem hlt]

/-- What the loop has read, and that no object leaves the map. -/
theorem foldlM_spec {starts : List ℕ}
    (h : starts.foldlM (queryAt σ networkInfo thresholds boxes logits numClasses) orderedObjects = some orderedObjects') :
    (∀ idx ∈ starts, idx + numClasses ≤ logits.length) ∧ (orderedObjects ≠ [] → orderedObjects' ≠ []) := by
  induction starts generalizing orderedObjects with
  | nil => exact ⟨fun _ h => absurd h List.not_mem_nil, fun hne => Option.some.inj h ▸ hne⟩
  | cons idx starts ih =>
    rw [List.foldlM_cons] at h
    obtain ⟨l, hl, hrest⟩ := Option.bind_eq_some_iff.mp h
    obtain ⟨hinside, hcases⟩ := queryAt_cases hl
    obtain ⟨hstarts, hne⟩ := ih hrest
    refine ⟨List.forall_mem_cons.mpr ⟨hinside, hstarts⟩, fun hne' => hne ?_⟩
    rcases hcases with ⟨rfl, -⟩ | hl'
    · exact hne'
    · exact hl'

/-- After the loop the map is empty only if no row has passed. -/
theorem not_passes_of_foldlM {starts : List ℕ}
    (h : starts.foldlM (queryAt σ networkInfo thresholds boxes logits numClasses) [] = some []) :
    ∀ idx ∈ starts, ¬Passes σ thresholds logits numClasses idx := by
  induction starts with
  | nil => exact fun _ h => absurd h List.not_mem_nil
  | cons idx starts ih =>
    rw [List.foldlM_cons] at h
    obtain ⟨l, hl, hrest⟩ := Option.bind_eq_some_iff.mp h
    obtain ⟨-, ⟨rfl, hnot⟩ | hne⟩ := queryAt_cases hl
    · exact List.forall_mem_cons.mpr ⟨hnot, ih hrest⟩
    · exact absurd rfl ((foldlM_spec hrest).2 hne)

/-- The element at `end()` is visited first. -/
theorem past_mem_topObjects (hne : orderedObjects ≠ []) {past : Object} (hpast : past.classId ≠ 0) :
    past ∈ topObjects orderedObjects past orderedObjects.length keepTopK := by
  obtain ⟨o, l, rfl⟩ := List.exists_cons_of_ne_nil hne
  rw [List.length_cons, keepTopK, topObjects]
  have hend : (o :: l)[l.length + 1]? = none := List.getElem?_eq_none (by simp)
  rw [hend]
  exact List.mem_append_left _ (by simp [hpast])

end

/-- An object that no query has. -/
def stray : Object := ⟨1, 0, 0, 0, 0, 1⟩

/-- The parser returns the best queries exactly if no row that it reads passes, and none of a query. -/
theorem ddetr_meets_iff (σ : Sigmoid) (o : Output) : o.Meets σ ↔ o.MeetsWhen σ := by
  have hparse : ∀ past objectList, nvDsInferParseCustomDDETRTAO σ past o.outputLayersInfo o.networkInfo
      o.perClassPreclusterThreshold objectList = (((List.range o.numRead).map (4 * ·)).foldlM
        (queryAt σ o.networkInfo o.perClassPreclusterThreshold o.boxes o.logits o.numClasses) []).map
          fun ordered => (true, objectList ++ topObjects ordered past ordered.length keepTopK) := by
    intro past objectList
    unfold nvDsInferParseCustomDDETRTAO
    rw [o.box_found, o.class_found]
    exact Option.map_eq_bind.symm
  have hrows : ∀ {P : ℕ → Prop}, (∀ idx ∈ (List.range o.numRead).map (4 * ·), P idx) ↔ ∀ k < o.numRead, P (4 * k) := by
    simp
  constructor
  · intro h
    obtain ⟨objects, hresult, chosen, hhighest, -, rfl⟩ := h stray []
    rw [hparse] at hresult
    obtain ⟨ordered, hordered, heq⟩ := Option.map_eq_some_iff.mp hresult
    have hinside := (foldlM_spec hordered).1
    by_cases hne : ordered = []
    · subst hne
      refine ⟨fun k hk => (hrows.mp hinside k hk).trans_eq o.logits_length, hrows.mp (not_passes_of_foldlM hordered),
        fun k hk hpasses => ?_⟩
      have hnil : chosen.map (o.object σ) = [] := by simpa [topObjects] using heq.symm
      obtain ⟨-, -, hlength, -⟩ := hhighest
      rw [List.map_eq_nil_iff.mp hnil, keepTopK, List.length_nil] at hlength
      have hmem : k ∈ o.passing σ := List.mem_filter.mpr ⟨List.mem_range.mpr hk, decide_eq_true hpasses⟩
      have hpos := List.length_pos_of_mem hmem
      omega
    · have hmem : stray ∈ chosen.map (o.object σ) := by
        have hlist : topObjects ordered stray ordered.length keepTopK = chosen.map (o.object σ) := by simpa using heq
        exact hlist ▸ past_mem_topObjects hne (show stray.classId ≠ 0 by decide)
      obtain ⟨k, -, hk⟩ := List.mem_map.mp hmem
      have hconf : o.confidence σ k = 1 := congrArg Infer.NvDsInferObjectDetectionInfo.detectionConfidence hk
      exact absurd hconf (σ.lt_one _).ne
  · rintro ⟨hinside, hnot, hqueries⟩ past objectList
    have hordered : ((List.range o.numRead).map (4 * ·)).foldlM
        (queryAt σ o.networkInfo o.perClassPreclusterThreshold o.boxes o.logits o.numClasses) [] = some [] := by
      have hall : ∀ idx ∈ (List.range o.numRead).map (4 * ·),
          queryAt σ o.networkInfo o.perClassPreclusterThreshold o.boxes o.logits o.numClasses [] idx = some [] :=
        hrows.mpr fun k hk => queryAt_of_not_passes ((hinside k hk).trans_eq o.logits_length.symm) o.classes_pos o.thresholds_length
          (hnot k hk)
      revert hall
      generalize (List.range o.numRead).map (4 * ·) = starts
      intro hall
      induction starts with
      | nil => rfl
      | cons idx starts ih =>
        obtain ⟨hidx, hstarts⟩ := List.forall_mem_cons.mp hall
        rw [List.foldlM_cons, hidx]
        exact ih hstarts
    have hpassing : o.passing σ = [] := List.filter_eq_nil_iff.mpr fun k hk hpasses =>
      hqueries k (List.mem_range.mp hk) (of_decide_eq_true hpasses)
    refine ⟨[], ?_, [], ⟨[], ?_, ?_, fun _ h => absurd h List.not_mem_nil⟩, .nil, rfl⟩
    · rw [hparse, hordered]
      rfl
    · rw [hpassing]
      exact .refl _
    · rw [hpassing]
      rfl

/-! ### One query -/

/-- A function with rational values. -/
def ratio : Sigmoid where
  toFun x := if 0 ≤ x then 1 - 1 / (x + 2) else 1 / (2 - x)
  strictMono x y hxy := by
    dsimp only
    split_ifs with hx hy hy
    · have := one_div_lt_one_div_of_lt (by linarith : (0 : ℚ) < x + 2) (by linarith : x + 2 < y + 2)
      linarith
    · linarith
    · have h₁ : 1 / (2 - x) < 1 / 2 := one_div_lt_one_div_of_lt (by norm_num) (by linarith)
      have h₂ : 1 / (y + 2) ≤ 1 / 2 := one_div_le_one_div_of_le (by norm_num) (by linarith)
      linarith
    · exact one_div_lt_one_div_of_lt (by linarith) (by linarith)
  pos x := by
    split_ifs with hx
    · have h : 1 / (x + 2) ≤ 1 / 2 := one_div_le_one_div_of_le (by norm_num) (by linarith)
      linarith
    · exact one_div_pos.mpr (by linarith)
  lt_one x := by
    split_ifs with hx
    · linarith [one_div_pos.mpr (by linarith : (0 : ℚ) < x + 2)]
    · have h : 1 / (2 - x) < 1 / 1 := one_div_lt_one_div_of_lt (by norm_num) (by linarith)
      linarith

/-- One query of four classes, of class 2. -/
def oneQuery : Output where
  outputLayersInfo := [⟨.float, some "pred_boxes", ⟨[1, 4], 4⟩, some ⟨[1, 1, 1, 1], []⟩⟩,
    ⟨.float, some "pred_logits", ⟨[1, 4], 4⟩, some ⟨[0, 0, 2, 0], []⟩⟩]
  networkInfo := .eight
  perClassPreclusterThreshold := [0, 0, 0, 0]
  boxLayer := ⟨.float, some "pred_boxes", ⟨[1, 4], 4⟩, some ⟨[1, 1, 1, 1], []⟩⟩
  classLayer := ⟨.float, some "pred_logits", ⟨[1, 4], 4⟩, some ⟨[0, 0, 2, 0], []⟩⟩
  box_found := by decide
  class_found := by decide
  boxes_length := rfl
  logits_length := rfl
  classes_pos := by decide
  thresholds_length := by decide

/-- With a class of 0 at `end()` the list stays empty. -/
theorem not_meets_oneQuery : ¬oneQuery.Meets ratio := by
  intro h
  obtain ⟨objects, hresult, chosen, ⟨rest, -, hlength, -⟩, -, rfl⟩ := h ⟨0, 0, 0, 0, 0, 0⟩ []
  have hnone : nvDsInferParseCustomDDETRTAO ratio ⟨0, 0, 0, 0, 0, 0⟩ oneQuery.outputLayersInfo oneQuery.networkInfo
      oneQuery.perClassPreclusterThreshold [] = some (true, []) := by decide +kernel
  have hpassing : oneQuery.passing ratio = [0] := by decide +kernel
  rw [hnone] at hresult
  have hnil : chosen.map (oneQuery.object ratio) = [] := by simpa using hresult.symm
  rw [List.map_eq_nil_iff.mp hnil, hpassing] at hlength
  cases hlength

end Ddetr
end CustomParser
end DeepStream
