/-
# Classes from Triton tensors

An output tensor that a classification is asked for becomes a `ClassificationOutput`:
`addClass` fills in every frame of the batch with the classes that `topKClass` finds, the
`topK` highest scores that reach the threshold. It hands the same base pointer to
`topKClass` for every frame, so that all get the classes of the first row.

The conversion of an element to `float` and the labels of the server are parameters.
-/
import DeepStream.InferServer.Tensors
import DeepStream.Lib.TopK

namespace DeepStream
namespace InferServer
namespace Classes

open FloatOrder
open Tensors (InferBufferDescription getElementSize)

variable {R : Type}

inductive NvDsInferStatus where
  | invalidParams | tritonError
  deriving DecidableEq, Repr

structure TritonClassParams (R : Type) where
  topK : ℕ
  threshold : R

structure InferAttribute (R : Type) where
  attributeIndex : ℕ
  attributeValue : ℕ
  attributeConfidence : R
  attributeLabel : Option String
  safeAttributeLabel : String

structure InferClassificationOutput (R : Type) where
  attributes : List (InferAttribute R) := []
  label : String := ""

/-- What a response of the server refers to: the memory, `float` of an element's bytes, and
`TRITONSERVER_InferenceResponseOutputClassificationLabel`, which fails or gives a string or a null pointer. -/
structure Response (R : Type) where
  memory : ℕ → UInt8
  toFloat : Tensors.InferDataType → List UInt8 → R
  classLabel : ℕ → ℕ → Option (Option String)

def safeStr (label : Option String) : String := label.getD ""

def InferClassificationOutput.append (ret : InferClassificationOutput R) (attr : InferAttribute R) :
    InferClassificationOutput R where
  attributes := ret.attributes ++ [attr]
  label := if ret.label = "" then attr.safeAttributeLabel else ret.label ++ " " ++ attr.safeAttributeLabel

/-- Element `i` of the array at `ptr`. -/
def Response.element (r : Response R) (dataType : Tensors.InferDataType) (ptr i : ℕ) : R :=
  r.toFloat dataType ((List.range (getElementSize dataType)).map fun b =>
    r.memory (ptr + i * getElementSize dataType + b))

/-- The scores of frame `i`. -/
def Response.row (r : Response R) (desc : InferBufferDescription) (base i : ℕ) : ℕ → R :=
  r.element desc.dataType (base + i * (desc.dims.numElements * getElementSize desc.dataType))

/-- `finalize`: every label points to the copy. -/
def InferAttribute.finalize (a : InferAttribute R) : InferAttribute R :=
  let safe := if a.safeAttributeLabel = "" then safeStr a.attributeLabel else a.safeAttributeLabel
  { a with
    safeAttributeLabel := safe
    attributeLabel := some safe }

def InferClassificationOutput.finalize (ret : InferClassificationOutput R) : InferClassificationOutput R :=
  { ret with attributes := ret.attributes.map InferAttribute.finalize }

/-- Labels with blanks between them, from the first that is not empty. -/
def joinLabels : List String → String
  | [] => ""
  | l :: ls => if l = "" then joinLabels ls else ls.foldl (fun text l => text ++ " " ++ l) l

variable {r : Response R} {desc : InferBufferDescription} {tensorIdx base : ℕ}

def Response.attribute (r : Response R) (tensorIdx : ℕ) (e : ℕ × R) : InferAttribute R where
  attributeIndex := tensorIdx
  attributeValue := e.1
  attributeConfidence := e.2
  attributeLabel := none
  safeAttributeLabel := safeStr ((r.classLabel tensorIdx e.1).getD none)

theorem attributes_foldl (attrs : List (InferAttribute R)) (ret : InferClassificationOutput R) :
    (attrs.foldl .append ret).attributes = ret.attributes ++ attrs := by
  induction attrs generalizing ret with
  | nil => exact (List.append_nil _).symm
  | cons attr attrs ih =>
    rw [List.foldl_cons, ih]
    exact List.append_assoc _ _ _

theorem label_foldl_of_ne {attrs : List (InferAttribute R)} {ret : InferClassificationOutput R} (h : ret.label ≠ "") :
    (attrs.foldl .append ret).label =
      (attrs.map (·.safeAttributeLabel)).foldl (fun text l => text ++ " " ++ l) ret.label := by
  induction attrs generalizing ret with
  | nil => rfl
  | cons attr attrs ih =>
    have hlabel : (ret.append attr).label = ret.label ++ " " ++ attr.safeAttributeLabel := if_neg h
    rw [List.foldl_cons, List.map_cons, List.foldl_cons, ih (by rw [hlabel]; simp [h]), hlabel]

theorem label_foldl {attrs : List (InferAttribute R)} {ret : InferClassificationOutput R} (h : ret.label = "") :
    (attrs.foldl .append ret).label = joinLabels (attrs.map (·.safeAttributeLabel)) := by
  induction attrs generalizing ret with
  | nil => exact h
  | cons attr attrs ih =>
    have hlabel : (ret.append attr).label = attr.safeAttributeLabel := if_pos h
    rw [List.foldl_cons, List.map_cons, joinLabels]
    by_cases hempty : attr.safeAttributeLabel = ""
    · rw [if_pos hempty]
      exact ih (hlabel.trans hempty)
    · rw [if_neg hempty, label_foldl_of_ne (by rw [hlabel]; exact hempty), hlabel]

/-- The output with all entries of a list. -/
def Response.outputOf (r : Response R) (tensorIdx : ℕ) (l : List (ℕ × R)) : InferClassificationOutput R :=
  ((l.map (r.attribute tensorIdx)).foldl .append ({} : InferClassificationOutput R)).finalize

theorem safeAttributeLabel_finalize (a : InferAttribute R) (h : a.attributeLabel = none) :
    a.finalize.safeAttributeLabel = a.safeAttributeLabel := by
  unfold InferAttribute.finalize
  dsimp only
  split
  · rename_i hempty
    rw [h, hempty]
    rfl
  · rfl

theorem attributes_outputOf (l : List (ℕ × R)) :
    (r.outputOf tensorIdx l).attributes = l.map fun e => (r.attribute tensorIdx e).finalize := by
  unfold Response.outputOf InferClassificationOutput.finalize
  dsimp only
  rw [attributes_foldl, List.nil_append, List.map_map]
  rfl

theorem entries_outputOf (l : List (ℕ × R)) :
    ((r.outputOf tensorIdx l).attributes.map fun a => (a.attributeValue, a.attributeConfidence)) = l := by
  rw [attributes_outputOf, List.map_map]
  exact List.map_id _

theorem row_zero (r : Response R) (desc : InferBufferDescription) (base : ℕ) :
    r.row desc base 0 = r.element desc.dataType base := by
  rw [Response.row, Nat.zero_mul, Nat.add_zero]

variable [FloatOrder R]

def topKSort (sort : PartialSort R) (prob : ℕ → R) (total topK : ℕ) : List (ℕ × R) :=
  let topK := min topK total
  if topK = 0 then []
  else (sort.run topK ((List.range total).map fun i => (i, prob i))).take topK

namespace Response

variable (r : Response R)

/-- The loop over the sorted entries. -/
def addAttributes (threshold : R) (tensorIdx : ℕ) :
    List (ℕ × R) → InferClassificationOutput R → Except NvDsInferStatus (InferClassificationOutput R)
  | [], ret => .ok ret
  | (idx, score) :: rest, ret =>
    if score < threshold then addAttributes threshold tensorIdx rest ret
    else
      match r.classLabel tensorIdx idx with
      | none => .error .tritonError
      | some label =>
        addAttributes threshold tensorIdx rest (ret.append
          { attributeIndex := tensorIdx
            attributeValue := idx
            attributeConfidence := score
            attributeLabel := none
            safeAttributeLabel := safeStr label })

def topKClass (sort : PartialSort R) (classP : TritonClassParams R) (desc : InferBufferDescription) (tensorIdx base : ℕ) :
    Except NvDsInferStatus (InferClassificationOutput R) :=
  match desc.dataType with
  | .fp32 | .fp16 | .int8 | .uint8 | .int16 | .uint16 | .int32 | .uint32 | .int64 | .uint64 =>
    r.addAttributes classP.threshold tensorIdx
      (topKSort sort (r.element desc.dataType base) desc.dims.numElements classP.topK) {}
  | .fp64 | .string | .bool | .none => .error .invalidParams

/-- The outputs of the frames before `i`. -/
def frames (sort : PartialSort R) (classP : TritonClassParams R) (desc : InferBufferDescription) (tensorIdx base : ℕ) :
    ℕ → Except NvDsInferStatus (List (InferClassificationOutput R))
  | 0 => .ok []
  | i + 1 =>
    match frames sort classP desc tensorIdx base i with
    | .error e => .error e
    | .ok outs =>
      match r.topKClass sort classP desc tensorIdx base with
      | .error e => .error e
      | .ok ret => .ok (outs ++ [ret])

end Response

/-- The outputs of all frames. -/
def Response.addClass (r : Response R) (sort : PartialSort R) (classP : TritonClassParams R) (desc : InferBufferDescription)
    (batchSize tensorIdx base : ℕ) : Except NvDsInferStatus (List (InferClassificationOutput R)) :=
  match r.frames sort classP desc tensorIdx base batchSize with
  | .error e => .error e
  | .ok outs => .ok (outs.map InferClassificationOutput.finalize)

/-! ### What the frames should get -/

/-- The output has the classes to report of a row. -/
structure FrameRight (r : Response R) (classP : TritonClassParams R) (tensorIdx n : ℕ) (row : ℕ → R)
    (out : InferClassificationOutput R) : Prop where
  classes : Shows row n classP.topK classP.threshold
    (out.attributes.map fun a => (a.attributeValue, a.attributeConfidence))
  labels : ∀ a ∈ out.attributes, a.attributeIndex = tensorIdx ∧
    (r.classLabel tensorIdx a.attributeValue).map safeStr = some a.safeAttributeLabel ∧
    a.attributeLabel = some a.safeAttributeLabel
  label : out.label = joinLabels (out.attributes.map (·.safeAttributeLabel))

/-- Every frame gets the classes of its own row, whatever the sort does with equal scores. -/
def Meets (r : Response R) (classP : TritonClassParams R) (desc : InferBufferDescription) (batchSize tensorIdx base : ℕ) :
    Prop :=
  ∀ sort : PartialSort R, ∃ outs, r.addClass sort classP desc (max batchSize 1) tensorIdx base = .ok outs ∧
    outs.length = max batchSize 1 ∧ ∀ (i : ℕ) (h : i < outs.length),
      FrameRight r classP tensorIdx desc.dims.numElements (r.row desc base i) outs[i]

/-- The types that `topKClass` reads. -/
def Readable (dataType : Tensors.InferDataType) : Prop :=
  dataType ≠ .fp64 ∧ dataType ≠ .string ∧ dataType ≠ .bool ∧ dataType ≠ .none

/-- The scores of the first row are numbers, the server has a label for each class to report of it, and all
other rows have the same classes to report with the same scores. -/
def MeetsWhen (r : Response R) (classP : TritonClassParams R) (desc : InferBufferDescription)
    (batchSize tensorIdx base : ℕ) : Prop :=
  Readable desc.dataType ∧ (0 < min classP.topK desc.dims.numElements →
    (∀ j < desc.dims.numElements, IsNumber (r.row desc base 0 j)) ∧
    (∀ j, Reported (r.row desc base 0) desc.dims.numElements classP.topK classP.threshold j →
      (r.classLabel tensorIdx j).isSome) ∧
    ∀ i < max batchSize 1,
      Agrees (r.row desc base 0) (r.row desc base i) desc.dims.numElements classP.topK classP.threshold)

/-! ### What the code does -/

/-- The entries that are not skipped. -/
def kept (threshold : R) (l : List (ℕ × R)) : List (ℕ × R) := l.filter fun e => decide ¬e.2 < threshold

variable {classP : TritonClassParams R} {sort : PartialSort R} {threshold : R}

theorem kept_cons_of_lt {idx : ℕ} {score : R} (h : score < threshold) (l : List (ℕ × R)) :
    kept threshold ((idx, score) :: l) = kept threshold l :=
  List.filter_cons_of_neg (by simpa using h)

theorem kept_cons_of_not_lt {idx : ℕ} {score : R} (h : ¬score < threshold) (l : List (ℕ × R)) :
    kept threshold ((idx, score) :: l) = (idx, score) :: kept threshold l :=
  List.filter_cons_of_pos (by simpa using h)

theorem addAttributes_of_labels {l : List (ℕ × R)} (h : ∀ e ∈ kept threshold l, (r.classLabel tensorIdx e.1).isSome)
    (ret : InferClassificationOutput R) : r.addAttributes threshold tensorIdx l ret =
      .ok (((kept threshold l).map (r.attribute tensorIdx)).foldl .append ret) := by
  induction l generalizing ret with
  | nil => rfl
  | cons e l ih =>
    obtain ⟨idx, score⟩ := e
    rw [Response.addAttributes]
    by_cases hlt : score < threshold
    · rw [kept_cons_of_lt hlt] at h ⊢
      rw [if_pos hlt]
      exact ih h ret
    · rw [kept_cons_of_not_lt hlt] at h ⊢
      rw [if_neg hlt]
      obtain ⟨hfirst, hrest⟩ := List.forall_mem_cons.mp h
      obtain ⟨label, hlabel⟩ := Option.isSome_iff_exists.mp hfirst
      have hattr : r.attribute tensorIdx (idx, score) = ⟨tensorIdx, idx, score, none, safeStr label⟩ := by
        unfold Response.attribute
        rw [hlabel]
        rfl
      rw [List.map_cons, List.foldl_cons, hattr]
      dsimp only at hlabel
      simp only [hlabel]
      exact ih hrest _

theorem addAttributes_of_no_label {l : List (ℕ × R)} (h : ∃ e ∈ kept threshold l, r.classLabel tensorIdx e.1 = none)
    (ret : InferClassificationOutput R) : r.addAttributes threshold tensorIdx l ret = .error .tritonError := by
  induction l generalizing ret with
  | nil =>
    obtain ⟨e, he, -⟩ := h
    exact absurd he List.not_mem_nil
  | cons e l ih =>
    obtain ⟨idx, score⟩ := e
    rw [Response.addAttributes]
    by_cases hlt : score < threshold
    · rw [kept_cons_of_lt hlt] at h
      rw [if_pos hlt]
      exact ih h ret
    · rw [kept_cons_of_not_lt hlt, List.exists_mem_cons_iff] at h
      rw [if_neg hlt]
      cases hlabel : r.classLabel tensorIdx idx with
      | none => rfl
      | some label =>
        rcases h with h | h
        · rw [show r.classLabel tensorIdx (idx, score).1 = some label from hlabel] at h
          cases h
        · exact ih h _

theorem topKClass_of_readable (h : Readable desc.dataType) : r.topKClass sort classP desc tensorIdx base =
    r.addAttributes classP.threshold tensorIdx
      (topKSort sort (r.element desc.dataType base) desc.dims.numElements classP.topK) {} := by
  unfold Response.topKClass
  obtain ⟨hfp64, hstring, hbool, hnone⟩ := h
  split
  iterate 10 rfl
  iterate 4 contradiction

theorem topKClass_of_not_readable (h : ¬Readable desc.dataType) :
    r.topKClass sort classP desc tensorIdx base = .error .invalidParams := by
  cases htype : desc.dataType with
  | fp64 | string | bool | none => rw [Response.topKClass, htype]
  | fp32 | fp16 | int8 | int32 | int16 | uint8 | uint16 | uint32 | int64 | uint64 =>
    refine absurd ?_ h
    rw [Readable, htype]
    decide

theorem frames_of_ok {out : InferClassificationOutput R} (h : r.topKClass sort classP desc tensorIdx base = .ok out)
    (i : ℕ) : r.frames sort classP desc tensorIdx base i = .ok (List.replicate i out) := by
  induction i with
  | zero => rfl
  | succ i ih => rw [Response.frames, ih, h, List.replicate_succ']

theorem frames_of_error {e : NvDsInferStatus} (h : r.topKClass sort classP desc tensorIdx base = .error e) (i : ℕ) :
    r.frames sort classP desc tensorIdx base (i + 1) = .error e := by
  induction i with
  | zero => rw [Response.frames, Response.frames, h]
  | succ i ih => rw [Response.frames, ih]

/-- The outcome of every frame is that of the first row. -/
theorem addClass_eq (r : Response R) (sort : PartialSort R) (classP : TritonClassParams R) (desc : InferBufferDescription)
    (batchSize tensorIdx base : ℕ) : r.addClass sort classP desc (max batchSize 1) tensorIdx base =
      (r.topKClass sort classP desc tensorIdx base).map fun out => List.replicate (max batchSize 1) out.finalize := by
  unfold Response.addClass
  cases h : r.topKClass sort classP desc tensorIdx base with
  | error e =>
    obtain ⟨i, hi⟩ : ∃ i, max batchSize 1 = i + 1 := ⟨max batchSize 1 - 1, by omega⟩
    rw [hi, frames_of_error h]
    rfl
  | ok out =>
    rw [frames_of_ok h]
    simp only [List.map_replicate]
    rfl

theorem frameRight_outputOf {l : List (ℕ × R)} {n : ℕ} {row : ℕ → R} (hlabels : ∀ e ∈ l, (r.classLabel tensorIdx e.1).isSome)
    (h : Shows row n classP.topK classP.threshold l) : FrameRight r classP tensorIdx n row (r.outputOf tensorIdx l) where
  classes := by rwa [entries_outputOf]
  labels := by
    rw [attributes_outputOf]
    refine List.forall_mem_map.mpr fun e he => ⟨rfl, ?_, ?_⟩
    · rw [safeAttributeLabel_finalize _ rfl]
      obtain ⟨label, hlabel⟩ := Option.isSome_iff_exists.mp (hlabels e he)
      show (r.classLabel tensorIdx e.1).map safeStr = some (safeStr ((r.classLabel tensorIdx e.1).getD none))
      rw [hlabel]
      rfl
    · rfl
  label := by
    rw [attributes_outputOf, List.map_map]
    have hsafe : ((·.safeAttributeLabel) ∘ fun e => (r.attribute tensorIdx e).finalize : ℕ × R → String) =
        (·.safeAttributeLabel) ∘ r.attribute tensorIdx :=
      funext fun e => safeAttributeLabel_finalize _ rfl
    rw [hsafe, ← List.map_map]
    exact label_foldl rfl

theorem topKSort_eq (prob : ℕ → R) (total topK : ℕ) : topKSort sort prob total topK =
    (sort.run (min topK total) (entries prob total)).take (min topK total) := by
  unfold topKSort
  dsimp only
  split
  · rename_i hzero
    rw [hzero, List.take_zero]
  · rfl

theorem kept_topKSort {prob : ℕ → R} {total topK : ℕ} (h : ∀ j < total, IsNumber (prob j)) :
    kept threshold (topKSort sort prob total topK) = sort.shown prob total topK threshold := by
  rw [topKSort_eq]
  exact sort.filter_run h

/-- What every frame gets when the server has all labels. -/
theorem addClass_of_labels (hread : Readable desc.dataType) {l : List (ℕ × R)}
    (hl : kept classP.threshold (topKSort sort (r.row desc base 0) desc.dims.numElements classP.topK) = l)
    (hlabels : ∀ e ∈ l, (r.classLabel tensorIdx e.1).isSome) (batchSize : ℕ) :
    r.addClass sort classP desc (max batchSize 1) tensorIdx base =
      .ok (List.replicate (max batchSize 1) (r.outputOf tensorIdx l)) := by
  subst hl
  rw [row_zero] at hlabels ⊢
  rw [addClass_eq, topKClass_of_readable hread, addAttributes_of_labels hlabels]
  rfl

theorem addClass_of_no_label (hread : Readable desc.dataType)
    (hlabels : ∃ e ∈ kept classP.threshold (topKSort sort (r.row desc base 0) desc.dims.numElements classP.topK),
      r.classLabel tensorIdx e.1 = none) (batchSize : ℕ) :
    r.addClass sort classP desc (max batchSize 1) tensorIdx base = .error .tritonError := by
  rw [row_zero] at hlabels
  rw [addClass_eq, topKClass_of_readable hread, addAttributes_of_no_label hlabels]
  rfl

theorem MeetsWhen.meets {batchSize : ℕ} (h : MeetsWhen r classP desc batchSize tensorIdx base) :
    Meets r classP desc batchSize tensorIdx base := by
  obtain ⟨hread, hrows⟩ := h
  intro sort
  by_cases hpos : 0 < min classP.topK desc.dims.numElements
  · obtain ⟨hnum, hlabel, hagree⟩ := hrows hpos
    have hlabels : ∀ e ∈ sort.shown (r.row desc base 0) desc.dims.numElements classP.topK classP.threshold,
        (r.classLabel tensorIdx e.1).isSome := fun e he => by
      obtain ⟨j, hj, rfl⟩ := List.mem_map.mp he
      exact hlabel j ((sort.isTop hnum).reported hj)
    refine ⟨_, addClass_of_labels hread (kept_topKSort hnum) hlabels batchSize, List.length_replicate, fun i hi => ?_⟩
    rw [List.getElem_replicate]
    rw [List.length_replicate] at hi
    exact frameRight_outputOf hlabels ((hagree i hi).shows hnum sort)
  · have hzero : min classP.topK desc.dims.numElements = 0 := Nat.eq_zero_of_not_pos hpos
    have hnone : kept classP.threshold (topKSort sort (r.row desc base 0) desc.dims.numElements classP.topK) = [] := by
      rw [topKSort_eq, hzero, List.take_zero]
      rfl
    refine ⟨_, addClass_of_labels hread hnone (fun _ he => absurd he List.not_mem_nil) batchSize,
      List.length_replicate, fun i hi => ?_⟩
    rw [List.getElem_replicate]
    refine frameRight_outputOf (fun _ he => absurd he List.not_mem_nil) ⟨⟨[], ?_, rfl⟩, .nil⟩
    exact ⟨.nil, fun _ hj => absurd hj List.not_mem_nil, hzero.symm, fun _ ht => absurd ht List.not_mem_nil⟩

/-- What is kept of the first row is right for every frame. -/
theorem Meets.shows {batchSize : ℕ} (h : Meets r classP desc batchSize tensorIdx base) (sort : PartialSort R) :
    (∀ e ∈ kept classP.threshold (topKSort sort (r.row desc base 0) desc.dims.numElements classP.topK),
      (r.classLabel tensorIdx e.1).isSome) ∧
    ∀ i < max batchSize 1, Shows (r.row desc base i) desc.dims.numElements classP.topK classP.threshold
      (kept classP.threshold (topKSort sort (r.row desc base 0) desc.dims.numElements classP.topK)) := by
  obtain ⟨outs, houts, hlen, hframes⟩ := h sort
  have hread : Readable desc.dataType := by
    by_contra hnot
    rw [addClass_eq, topKClass_of_not_readable hnot] at houts
    cases houts
  have hlabels : ∀ e ∈ kept classP.threshold (topKSort sort (r.row desc base 0) desc.dims.numElements classP.topK),
      (r.classLabel tensorIdx e.1).isSome := by
    by_contra hnot
    simp only [not_forall, Option.not_isSome_iff_eq_none] at hnot
    obtain ⟨e, he, hnone⟩ := hnot
    rw [addClass_of_no_label hread ⟨e, he, hnone⟩] at houts
    cases houts
  refine ⟨hlabels, fun i hi => ?_⟩
  rw [addClass_of_labels hread rfl hlabels] at houts
  obtain rfl := Except.ok.inj houts
  have hframe := (hframes i (by rwa [List.length_replicate])).classes
  rwa [List.getElem_replicate, entries_outputOf] at hframe

/-- Scores that are whole numbers. -/
instance : FloatOrder ℤ where
  trans := Int.le_trans
  number := fun _ => ⟨Int.le_refl _, Int.le_refl _⟩
  total := fun _ _ => Int.le_total _ _
  lt_iff := fun {a b} => by omega
  decidableLT := inferInstance
  decidableLE := inferInstance

/-- Two frames of two classes whose scores are bytes: 5 and 1, then 2 and 7. -/
def twoFrames : Response ℤ where
  memory := fun a => [5, 1, 2, 7].getD a 0
  toFloat := fun _ bytes => (bytes.headD 0).toNat
  classLabel := fun _ idx => some (some (if idx = 0 then "cat" else "dog"))

def twoClasses : InferBufferDescription where
  memType := .cpu
  devId := 0
  dataType := .uint8
  dims := ⟨[2], 2⟩
  elementSize := 1
  name := "scores"
  isInput := false

end Classes
end InferServer
end DeepStream
