/-
# What a dequeue stores and a release frees

Each fill function stores its elements in an array that they fill exactly, and
the addresses it allocates are those that `releaseFrameOutput` frees, but for the
masks of objects that are filtered out, which nobody frees. A frame whose parser
fails keeps an indeterminate union behind a successful status. So a dequeue is as
its clients rely on exactly when every parser succeeds and no object with a mask
is filtered out.
-/
import DeepStream.Infer.Postprocess

namespace DeepStream
namespace Infer

section

variable {R : Type*}

/-! ### Writing and walking arrays -/

theorem HeapArray.write_next {α : Type*} (ptr n : ℕ) (done : List α) (x : α) :
    (⟨ptr, done.map some ++ List.replicate (n + 1) none⟩ : HeapArray α).write done.length x =
      some ⟨ptr, (done ++ [x]).map some ++ List.replicate n none⟩ := by
  unfold HeapArray.write
  rw [if_pos (by simp), Option.some.injEq, HeapArray.mk.injEq]
  refine ⟨rfl, ?_⟩
  show (done.map some ++ List.replicate (n + 1) none).set done.length (some x) = _
  rw [List.set_append_right _ _ (by simp)]
  simp [List.replicate_succ]

theorem HeapArray.filled_map {α : Type*} (ptr : ℕ) (xs : List α) :
    (⟨ptr, xs.map some⟩ : HeapArray α).Filled xs.length := by
  refine ⟨by simp, fun cell hc => ?_⟩
  obtain ⟨x, -, rfl⟩ := List.mem_map.mp hc
  rfl

theorem forCells_map {α : Type*} {f : Heap → α → Option Heap} {g : α → List ℕ}
    (hf : ∀ h x, f h x = h.freeAll (g x)) : ∀ (xs : List α) (h : Heap),
    forCells f xs.length (xs.map some) h = h.freeAll (xs.flatMap g)
  | [], _ => rfl
  | x :: xs, h => by
    rw [List.flatMap_cons, Heap.freeAll_append, ← hf]
    exact congrArg _ (funext (forCells_map hf xs))

theorem allocates_newArray (α : Type*) (n : ℕ) (h : Heap) :
    Heap.Allocates h [(newArray α n h).1.ptr] (newArray α n h).2 :=
  Heap.Allocates.alloc h

theorem allocates_strdupLabel (text : Option String) (h : Heap) :
    Heap.Allocates h ((strdupLabel text h).1.map (·.ptr)).toList (strdupLabel text h).2 := by
  cases text with
  | none => exact Heap.Allocates.refl h
  | some text => exact Heap.Allocates.alloc h

/-! ### Detected objects -/

def NvDsInferObject.labelPtr (obj : NvDsInferObject R) : List ℕ := (obj.label.map (·.ptr)).toList

def NvDsInferObject.maskPtr (obj : NvDsInferObject R) : List ℕ := (obj.mask.map (·.ptr)).toList

def NvDsInferInstanceMaskInfo.maskPtr (obj : NvDsInferInstanceMaskInfo R Mask) : List ℕ :=
  (obj.mask.map (·.ptr)).toList

/-- What was detected of an object. -/
def NvDsInferObject.info (obj : NvDsInferObject R) : NvDsInferInstanceMaskInfo R Mask :=
  ⟨⟨obj.classIndex, obj.left, obj.top, obj.width, obj.height, obj.confidence⟩, obj.mask⟩

/-- The stored objects are those that were given, with new labels. -/
theorem fillObjects_spec (labels : List (List String)) (ptr : ℕ) :
    ∀ (objs : List (NvDsInferInstanceMaskInfo R Mask)) (done : List (NvDsInferObject R)) (h : Heap),
    ∃ (stored : List (NvDsInferObject R)) (h' : Heap), fillObjects labels objs
        ⟨⟨ptr, done.map some ++ List.replicate objs.length none⟩, done.length⟩ h =
          some (⟨⟨ptr, (done ++ stored).map some⟩, (done ++ stored).length⟩, h') ∧
      stored.map (·.info) = objs ∧ Heap.Allocates h (stored.flatMap (·.labelPtr)) h'
  | [], done, h => ⟨[], h, by simp [fillObjects], rfl, Heap.Allocates.refl h⟩
  | obj :: objs, done, h => by
    let label := strdupLabel (labels[obj.classId]?.bind (·[0]?)) h
    let x : NvDsInferObject R := ⟨obj.left, obj.top, obj.width, obj.height, obj.classId, label.1,
      obj.detectionConfidence, obj.mask⟩
    obtain ⟨stored, h', hs, hm, ha⟩ := fillObjects_spec labels ptr objs (done ++ [x]) label.2
    refine ⟨x :: stored, h', ?_, congrArg _ hm, (allocates_strdupLabel _ h).append ha⟩
    rw [fillObjects, List.length_cons]
    dsimp only
    rw [HeapArray.write_next, Option.bind_some, List.append_cons done x stored, ← hs, List.length_append]
    rfl

theorem newDetectionOutput_spec (labels : List (List String)) (objs : List (NvDsInferInstanceMaskInfo R Mask))
    (h : Heap) : ∃ (ptr : ℕ) (stored : List (NvDsInferObject R)) (h' : Heap), newDetectionOutput labels objs.length objs h =
        some (⟨⟨ptr, stored.map some⟩, stored.length⟩, h') ∧
      stored.map (·.info) = objs ∧
      Heap.Allocates h (ptr :: stored.flatMap (·.labelPtr)) h' := by
  obtain ⟨stored, h', hs, hm, ha⟩ :=
    fillObjects_spec labels (newArray (NvDsInferObject R) objs.length h).1.ptr objs [] (newArray (NvDsInferObject R) objs.length h).2
  exact ⟨_, stored, h', hs, hm, (allocates_newArray (NvDsInferObject R) objs.length h).append ha⟩

theorem foldl_length {α : Type*} : ∀ (lists : List (List α)) (n : ℕ),
    lists.foldl (fun total list => total + list.length) n = n + lists.flatten.length
  | [], n => by simp
  | l :: lists, n => by
    rw [List.foldl_cons, foldl_length lists, List.flatten_cons, List.length_append, Nat.add_assoc]

theorem fillPerClass_eq (labels : List (List String)) (lists : List (List (NvDsInferInstanceMaskInfo R Mask)))
    (h : Heap) : fillPerClass labels lists h = newDetectionOutput labels lists.flatten.length lists.flatten h := by
  rw [fillPerClass, foldl_length, Nat.zero_add]

/-- An output of the objects `objs`. -/
structure StoresObjects (objs : List (NvDsInferInstanceMaskInfo R Mask)) (h : Heap)
    (output : NvDsInferDetectionOutput R) (stored : List (NvDsInferObject R)) (h' : Heap) : Prop where
  cells : output.objects.cells = stored.map some
  numObjects : output.numObjects = stored.length
  infos : stored.map (·.info) = objs
  allocates : Heap.Allocates h (output.objects.ptr :: stored.flatMap (·.labelPtr)) h'

theorem fillPerClass_stores (labels : List (List String))
    (lists : List (List (NvDsInferInstanceMaskInfo R Mask))) (h : Heap) :
    ∃ output stored h', fillPerClass labels lists h = some (output, h') ∧
      StoresObjects lists.flatten h output stored h' := by
  obtain ⟨ptr, stored, h', hs, hm, ha⟩ := newDetectionOutput_spec labels lists.flatten h
  exact ⟨_, stored, h', (fillPerClass_eq labels lists h).trans hs, rfl, rfl, hm, ha⟩

/-! ### Masks -/

/-- The object as it was parsed. -/
def NvDsInferInstanceMaskInfo.parsed (obj : NvDsInferInstanceMaskInfo R Mask) :
    NvDsInferInstanceMaskInfo R MaskShape :=
  ⟨obj.toNvDsInferObjectDetectionInfo, obj.mask.map (·.toMaskShape)⟩

theorem allocMasks_spec : ∀ (objectList : List (NvDsInferInstanceMaskInfo R MaskShape)) (h : Heap),
    (allocMasks objectList h).1.map (·.parsed) = objectList ∧
      Heap.Allocates h ((allocMasks objectList h).1.flatMap (·.maskPtr)) (allocMasks objectList h).2
  | [], h => ⟨rfl, Heap.Allocates.refl h⟩
  | obj :: rest, h => by
    unfold allocMasks
    cases hm : obj.mask with
    | none =>
      obtain ⟨hp, ha⟩ := allocMasks_spec rest h
      refine ⟨?_, ha⟩
      rw [List.map_cons, hp]
      exact congrArg (· :: rest) (by rw [NvDsInferInstanceMaskInfo.parsed, Option.map_none, ← hm])
    | some shape =>
      obtain ⟨hp, ha⟩ := allocMasks_spec rest h.alloc.2
      refine ⟨?_, (Heap.Allocates.alloc h).append ha⟩
      rw [List.map_cons, hp]
      exact congrArg (· :: rest) (by rw [NvDsInferInstanceMaskInfo.parsed, Option.map_some, ← hm])

/-! ### One frame -/

/-- The frame is stored, `lost` is what its release leaves behind. -/
structure Stores (h : Heap) (frame : NvDsInferFrameOutput R) (lost : List ℕ) (h' : Heap) : Prop where
  defined : frame.Defined
  release : ∃ ps, (∀ g, releaseFrameOutput frame g = g.freeAll ps) ∧ Heap.Allocates h (ps ++ lost) h'

theorem stores_detector {objs : List (NvDsInferObjectDetectionInfo R)} {h h' : Heap}
    {output : NvDsInferDetectionOutput R} {stored : List (NvDsInferObject R)}
    (hs : StoresObjects (objs.map withoutMask) h output stored h') :
    Stores h ⟨.detector, .detectionOutput output⟩ [] h' where
  defined := by
    show output.objects.Filled output.numObjects
    rw [hs.numObjects]
    have := HeapArray.filled_map output.objects.ptr stored
    rwa [← hs.cells] at this
  release := by
    refine ⟨stored.flatMap (·.labelPtr) ++ [output.objects.ptr], fun g => ?_, ?_⟩
    · show (forCells _ output.numObjects output.objects.cells g).bind _ = _
      have hfree : ∀ (h : Heap) (obj : NvDsInferObject R),
          h.free (obj.label.map (·.ptr)) = h.freeAll obj.labelPtr := fun h obj => Heap.free_eq_freeAll h _
      rw [hs.cells, hs.numObjects, forCells_map hfree, Heap.freeAll_append]
      exact congrArg _ (funext fun h => Heap.free_eq_freeAll h _)
    · rw [List.append_nil]
      exact hs.allocates.perm (List.perm_append_singleton _ _).symm

theorem fillPerClass_withoutMask_stores (labels : List (List String))
    (lists : List (List (NvDsInferObjectDetectionInfo R))) (h : Heap) :
    ∃ output h', fillPerClass labels (lists.map (·.map withoutMask)) h = some (output, h') ∧
      Stores h ⟨.detector, .detectionOutput output⟩ [] h' := by
  obtain ⟨output, stored, h', hs, hst⟩ := fillPerClass_stores labels (lists.map (·.map withoutMask)) h
  rw [← List.map_flatten] at hst
  exact ⟨output, h', hs, stores_detector hst⟩

theorem stores_instanceSegmentation {objectList : List (NvDsInferInstanceMaskInfo R Mask)}
    {lists : List (List (NvDsInferInstanceMaskInfo R Mask))} {lost : List (NvDsInferInstanceMaskInfo R Mask)}
    {g h h' : Heap} {output : NvDsInferDetectionOutput R} {stored : List (NvDsInferObject R)}
    (hm : Heap.Allocates g (objectList.flatMap (·.maskPtr)) h)
    (hp : objectList.Perm (lists.flatten ++ lost)) (hs : StoresObjects lists.flatten h output stored h') :
    Stores g ⟨.instanceSegmentation, .detectionOutput output⟩ (lost.flatMap (·.maskPtr)) h' where
  defined := by
    show output.objects.Filled output.numObjects
    rw [hs.numObjects]
    have := HeapArray.filled_map output.objects.ptr stored
    rwa [← hs.cells] at this
  release := by
    refine ⟨stored.flatMap (fun obj => obj.labelPtr ++ obj.maskPtr) ++ [output.objects.ptr], fun g => ?_, ?_⟩
    · show (forCells _ output.numObjects output.objects.cells g).bind _ = _
      have hfree : ∀ (h : Heap) (obj : NvDsInferObject R),
          ((h.free (obj.label.map (·.ptr))).bind fun h => h.free (obj.mask.map (·.ptr))) =
            h.freeAll (obj.labelPtr ++ obj.maskPtr) := by
        intro h obj
        rw [Heap.freeAll_append, Heap.free_eq_freeAll]
        exact congrArg _ (funext fun h => Heap.free_eq_freeAll h _)
      rw [hs.cells, hs.numObjects, forCells_map hfree, Heap.freeAll_append]
      exact congrArg _ (funext fun h => Heap.free_eq_freeAll h _)
    · have hmasks : stored.flatMap (·.maskPtr) = lists.flatten.flatMap (·.maskPtr) := by
        have := congrArg (List.flatMap (·.maskPtr)) hs.infos
        rwa [List.flatMap_map] at this
      refine (hm.append hs.allocates).perm ?_
      have hlost := hp.flatMap_right (·.maskPtr)
      rw [List.flatMap_append, ← hmasks] at hlost
      have hboth := List.flatMap_append_perm stored (·.labelPtr) (·.maskPtr)
      rw [List.perm_iff_count] at hlost hboth ⊢
      intro a
      have h₁ := hlost a
      have h₂ := hboth a
      simp only [List.count_append, List.count_cons, List.count_nil] at h₁ h₂ ⊢
      omega

/-! ### Attributes -/

def NvDsInferAttribute.labelPtr (attr : NvDsInferAttribute R CString) : List ℕ :=
  (attr.attributeLabel.map (·.ptr)).toList

theorem allocLabels_allocates : ∀ (attributes : List (NvDsInferAttribute R String)) (h : Heap),
    Heap.Allocates h ((allocLabels attributes h).1.flatMap (·.labelPtr)) (allocLabels attributes h).2
  | [], h => Heap.Allocates.refl h
  | attr :: rest, h => (allocates_strdupLabel attr.attributeLabel h).append (allocLabels_allocates rest _)

theorem fillAttributes_eq (ptr : ℕ) : ∀ attributes done : List (NvDsInferAttribute R CString),
    fillAttributes attributes done.length ⟨ptr, done.map some ++ List.replicate attributes.length none⟩ =
      some ⟨ptr, (done ++ attributes).map some⟩
  | [], done => by simp [fillAttributes]
  | attr :: rest, done => by
    have ih := fillAttributes_eq ptr rest (done ++ [attr])
    rw [List.length_append, List.length_singleton] at ih
    rw [fillAttributes, List.length_cons, HeapArray.write_next, Option.bind_some, ih, List.append_cons done attr rest]

theorem stores_classifier (attributes : List (NvDsInferAttribute R CString)) (attrString : String)
    {g h : Heap} (ha : Heap.Allocates g (attributes.flatMap (·.labelPtr)) h) :
    let label := strdup attrString h
    let array := newArray (NvDsInferAttribute R CString) attributes.length label.2
    Stores g ⟨.classifier, .classificationOutput
      ⟨⟨array.1.ptr, attributes.map some⟩, attributes.length, label.1⟩⟩ [] array.2 := by
  intro label array
  refine ⟨HeapArray.filled_map _ _, attributes.flatMap (·.labelPtr) ++ [label.1.ptr, array.1.ptr], fun g => ?_, ?_⟩
  · have hfree : ∀ (h : Heap) (attr : NvDsInferAttribute R CString),
        h.free (attr.attributeLabel.map (·.ptr)) = h.freeAll attr.labelPtr := fun h attr => Heap.free_eq_freeAll h _
    show (forCells _ attributes.length (attributes.map some) g).bind _ = _
    rw [forCells_map hfree, Heap.freeAll_append]
    refine congrArg _ (funext fun h => congrArg _ (funext fun h => ?_))
    exact Heap.free_eq_freeAll h _
  · rw [List.append_nil, List.append_cons]
    exact (ha.append (Heap.Allocates.alloc h)).append (Heap.Allocates.alloc label.2)

/-! ### Class maps -/

theorem mem_pixels {width height : ℕ} {pixel : ℕ × ℕ} :
    pixel ∈ pixels width height ↔ pixel.1 < height ∧ pixel.2 < width := by
  obtain ⟨y, x⟩ := pixel
  simp [pixels]

theorem pixelIndex_lt {width height : ℕ} {pixel : ℕ × ℕ} (hp : pixel ∈ pixels width height) : pixelIndex width pixel < width * height := by
  obtain ⟨hy, hx⟩ := mem_pixels.mp hp
  refine Nat.lt_of_le_of_lt (Nat.mod_le _ _) ?_
  calc pixel.1 * width + pixel.2 < pixel.1 * width + width := Nat.add_lt_add_left hx _
    _ = (pixel.1 + 1) * width := by rw [Nat.succ_mul]
    _ ≤ height * width := Nat.mul_le_mul_right _ hy
    _ = width * height := Nat.mul_comm _ _

/-- Every index is that of a pixel. -/
theorem exists_pixelIndex {width height i : ℕ} (hi : i < width * height) (h32 : i < 2 ^ 32) :
    ∃ pixel ∈ pixels width height, pixelIndex width pixel = i := by
  have hw : 0 < width := Nat.pos_of_ne_zero fun h => by simp [h] at hi
  refine ⟨(i / width, i % width), mem_pixels.mpr ⟨Nat.div_lt_of_lt_mul hi, Nat.mod_lt _ hw⟩, ?_⟩
  rw [pixelIndex, Nat.mul_comm, Nat.div_add_mod, Nat.mod_eq_of_lt h32]

theorem write_eq_some {α : Type*} {a a' : HeapArray α} {i : ℕ} {x : α} (h : a.write i x = some a') :
    i < a.cells.length ∧ a' = ⟨a.ptr, a.cells.set i (some x)⟩ := by
  unfold HeapArray.write at h
  split at h
  · rename_i hi
    exact ⟨hi, (Option.some.inj h).symm⟩
  · simp at h

/-- What is written is within the map and is initialised afterwards. -/
theorem fillClassMap_eq_some {width : ℕ} {cls : ℕ × ℕ → ℤ} : ∀ {ps : List (ℕ × ℕ)} {a a' : HeapArray ℤ},
    fillClassMap width cls ps a = some a' →
      a'.ptr = a.ptr ∧ a'.cells.length = a.cells.length ∧
        (∀ pixel ∈ ps, pixelIndex width pixel < a.cells.length) ∧
        ∀ i, ((∃ v, a.cells[i]? = some (some v)) ∨ ∃ pixel ∈ ps, pixelIndex width pixel = i) →
          ∃ v, a'.cells[i]? = some (some v)
  | [], a, a', h => by
    obtain rfl := Option.some.inj h
    exact ⟨rfl, rfl, by simp, fun i hi => hi.resolve_right (by simp)⟩
  | pixel :: ps, a, a', h => by
    obtain ⟨b, hb, h⟩ := Option.bind_eq_some_iff.mp h
    obtain ⟨hlt, rfl⟩ := write_eq_some hb
    obtain ⟨hptr, hlen, hall, hset⟩ := fillClassMap_eq_some h
    rw [List.length_set] at hlen hall
    refine ⟨hptr, hlen, List.forall_mem_cons.mpr ⟨hlt, hall⟩, fun i hi => hset i ?_⟩
    by_cases he : pixelIndex width pixel = i
    · exact Or.inl ⟨cls pixel, by simp [← he, hlt]⟩
    · obtain ⟨v, hv⟩ | ⟨q, hq, hqi⟩ := hi
      · exact Or.inl ⟨v, by rw [List.getElem?_set_ne he, hv]⟩
      · obtain rfl | hq := List.mem_cons.mp hq
        · exact absurd hqi he
        · exact Or.inr ⟨q, hq, hqi⟩

theorem fillClassMap_isSome {width : ℕ} (cls : ℕ × ℕ → ℤ) : ∀ {ps : List (ℕ × ℕ)} {a : HeapArray ℤ},
    (∀ pixel ∈ ps, pixelIndex width pixel < a.cells.length) → ∃ a', fillClassMap width cls ps a = some a'
  | [], a, _ => ⟨a, rfl⟩
  | pixel :: ps, a, h => by
    obtain ⟨hp, hps⟩ := List.forall_mem_cons.mp h
    unfold fillClassMap HeapArray.write
    rw [if_pos hp, Option.bind_some]
    exact fillClassMap_isSome cls (by simpa using hps)

/-- The class map is filled exactly when its size is a 32-bit number. -/
theorem fillClassMap_spec (width height : ℕ) (cls : ℕ × ℕ → ℤ) (h : Heap) :
    let array := newArray ℤ (width * height % 2 ^ 32) h
    (width * height < 2 ^ 32 → ∃ a', fillClassMap width cls (pixels width height) array.1 = some a') ∧
      ∀ a', fillClassMap width cls (pixels width height) array.1 = some a' →
        width * height < 2 ^ 32 ∧ a'.ptr = array.1.ptr ∧ a'.Filled (width * height) := by
  intro array
  have hsize : array.1.cells.length = width * height % 2 ^ 32 := List.length_replicate
  refine ⟨fun hlt => fillClassMap_isSome cls fun pixel hp => ?_, fun a' ha => ?_⟩
  · rw [hsize, Nat.mod_eq_of_lt hlt]
    exact pixelIndex_lt hp
  · obtain ⟨hptr, hlen, hall, hset⟩ := fillClassMap_eq_some ha
    have hlt : width * height < 2 ^ 32 := by
      by_contra hge
      obtain ⟨pixel, hp, hi⟩ :=
        exists_pixelIndex (show 2 ^ 32 - 1 < width * height by omega) (by omega)
      have := hall pixel hp
      rw [hi, hsize] at this
      have := Nat.mod_lt (width * height) (show 0 < 2 ^ 32 by omega)
      omega
    refine ⟨hlt, hptr, by rw [hlen, hsize, Nat.mod_eq_of_lt hlt], fun cell hc => ?_⟩
    obtain ⟨i, hi⟩ := List.getElem?_of_mem hc
    have hil : i < width * height := by
      have := (List.getElem?_eq_some_iff.mp hi).1
      rwa [hlen, hsize, Nat.mod_eq_of_lt hlt] at this
    obtain ⟨v, hv⟩ := hset i (Or.inr (exists_pixelIndex hil (Nat.lt_trans hil hlt)))
    rw [hi, Option.some.injEq] at hv
    rw [hv, Option.isSome_some]

/-! ### Filtering -/

variable {α : Type*} {info : α → NvDsInferObjectDetectionInfo R}

theorem perClassObjectList_perm (info : α → NvDsInferObjectDetectionInfo R) (objectList : List α) :
    ∀ n, (perClassObjectList info n objectList).flatten.Perm (objectList.filter fun obj => (info obj).classId < n)
  | 0 => by simp [perClassObjectList]
  | n + 1 => by
    have ih := perClassObjectList_perm info objectList n
    have hsplit := List.filter_append_perm (fun obj => decide ((info obj).classId < n))
      (objectList.filter fun obj => decide ((info obj).classId < n + 1))
    rw [List.filter_filter, List.filter_filter] at hsplit
    have hlt : (objectList.filter fun obj => decide ((info obj).classId < n) && decide ((info obj).classId < n + 1)) =
        objectList.filter fun obj => decide ((info obj).classId < n) := by
      refine List.filter_congr fun obj _ => ?_
      simp only [Bool.and_eq_left_iff_imp, decide_eq_true_eq]
      omega
    have heq : (objectList.filter fun obj => !decide ((info obj).classId < n) && decide ((info obj).classId < n + 1)) =
        objectList.filter fun obj => decide ((info obj).classId = n) := by
      refine List.filter_congr fun obj _ => ?_
      rw [← decide_not, ← Bool.decide_and]
      refine decide_eq_decide.mpr ?_
      omega
    rw [hlt, heq] at hsplit
    rw [perClassObjectList, List.range_succ, List.map_append, List.flatten_append]
    simp only [List.map_cons, List.map_nil, List.flatten_cons, List.flatten_nil, List.append_nil]
    exact (ih.append_right _).trans hsplit

theorem eachClass_subperm {f : NvDsInferDetectionParams R → ℕ → List α → List α}
    (hf : ∀ params c l, (f params c l).Subperm l) (params : List (NvDsInferDetectionParams R))
    (lists : List (List α)) : (eachClass params lists f).flatten.Subperm lists.flatten := by
  suffices h : ∀ (zs : List (NvDsInferDetectionParams R × List α)) k,
      ((zs.zipIdx k).map fun z => f z.1.1 z.2 z.1.2).flatten.Subperm (zs.map (·.2)).flatten by
    refine (h (params.zip lists) 0).trans ?_
    have hzip : ∀ (ps : List (NvDsInferDetectionParams R)) (ls : List (List α)),
        ((ps.zip ls).map (·.2)).flatten.Sublist ls.flatten := by
      intro ps
      induction ps with
      | nil => simp
      | cons p ps ih =>
        rintro (_ | ⟨l, ls⟩)
        · simp
        · simpa using ih ls
    exact (hzip params lists).subperm
  intro zs
  induction zs with
  | nil =>
    intro k
    exact List.Subperm.refl _
  | cons z zs ih =>
    intro k
    rw [List.zipIdx_cons, List.map_cons, List.flatten_cons, List.map_cons, List.flatten_cons]
    exact (hf _ _ _).append (ih (k + 1))

theorem perClassObjectList_ne_nil {α : Type*} {info : α → NvDsInferObjectDetectionInfo R} {n : ℕ} (hn : n ≠ 0)
    (objectList : List α) : perClassObjectList info n objectList ≠ [] := by
  simp [perClassObjectList, hn]

theorem eachClass_ne_nil {α : Type*} {params : List (NvDsInferDetectionParams R)} {lists : List (List α)}
    (hp : params ≠ []) (hl : lists ≠ []) (f : NvDsInferDetectionParams R → ℕ → List α → List α) :
    eachClass params lists f ≠ [] := by
  simp [eachClass, hp, hl]

variable [CFloat R]

theorem filterTopKOutputs_subperm (topK : ℤ) (objectList : List α) :
    (filterTopKOutputs info topK objectList).Subperm objectList := by
  unfold filterTopKOutputs
  split
  · exact List.Subperm.refl _
  · exact (List.take_sublist _ _).subperm.trans (List.mergeSort_perm _ _).subperm

/-- What is kept of the parsed objects, and what is not. -/
theorem unclusteredObjects_subperm {M : Type*} (params : List (NvDsInferDetectionParams R))
    (objectList : List (NvDsInferInstanceMaskInfo R M)) :
    (unclusteredObjects params objectList).flatten.Subperm objectList := by
  refine (eachClass_subperm (fun _ _ _ => filterTopKOutputs_subperm _ _) _ _).trans ?_
  refine (perClassObjectList_perm _ _ _).subperm.trans ?_
  exact List.filter_sublist.subperm.trans List.filter_sublist.subperm

theorem filterTopKOutputs_map {M M' : Type*} {f : NvDsInferInstanceMaskInfo R M → NvDsInferInstanceMaskInfo R M'}
    (hf : ∀ obj, (f obj).toNvDsInferObjectDetectionInfo = obj.toNvDsInferObjectDetectionInfo) (topK : ℤ)
    (objectList : List (NvDsInferInstanceMaskInfo R M)) :
    filterTopKOutputs (·.toNvDsInferObjectDetectionInfo) topK (objectList.map f) =
      (filterTopKOutputs (·.toNvDsInferObjectDetectionInfo) topK objectList).map f := by
  unfold filterTopKOutputs
  split
  · rfl
  · rw [List.map_take]
    refine congrArg _ (List.map_mergeSort fun a _ b _ => ?_).symm
    simp only [hf]

/-- The filters look at the boxes only. -/
theorem unclusteredObjects_map {M M' : Type*} {f : NvDsInferInstanceMaskInfo R M → NvDsInferInstanceMaskInfo R M'}
    (hf : ∀ obj, (f obj).toNvDsInferObjectDetectionInfo = obj.toNvDsInferObjectDetectionInfo)
    (params : List (NvDsInferDetectionParams R)) (objectList : List (NvDsInferInstanceMaskInfo R M)) :
    unclusteredObjects params (objectList.map f) = (unclusteredObjects params objectList).map (·.map f) := by
  have hpre : preClusteringThreshold (·.toNvDsInferObjectDetectionInfo) params (objectList.map f) =
      (preClusteringThreshold (·.toNvDsInferObjectDetectionInfo) params objectList).map f := by
    unfold preClusteringThreshold
    rw [List.filter_map]
    exact congrArg _ (List.filter_congr fun obj _ => by simp only [Function.comp_apply, hf])
  have hper : ∀ (n : ℕ) (l : List (NvDsInferInstanceMaskInfo R M)),
      perClassObjectList (·.toNvDsInferObjectDetectionInfo) n (l.map f) =
        (perClassObjectList (·.toNvDsInferObjectDetectionInfo) n l).map (·.map f) := by
    intro n l
    unfold perClassObjectList
    rw [List.map_map]
    refine List.map_congr_left fun c _ => ?_
    rw [Function.comp_apply, List.filter_map]
    exact congrArg _ (List.filter_congr fun obj _ => by simp only [Function.comp_apply, hf])
  unfold unclusteredObjects eachClass
  rw [hpre, hper, List.zip_map_right, List.zipIdx_map, List.map_map, List.map_map]
  exact List.map_congr_left fun _ _ => filterTopKOutputs_map hf _ _

/-! ### The postprocessors -/

namespace DetectPostprocessor

variable (d : DetectPostprocessor R) (labels : List (List String))

theorem clusterAndFillDetectionOutputNMS_stores {lists : List (List (NvDsInferObjectDetectionInfo R))}
    (hl : lists ≠ []) (h : Heap) : ∃ output h',
      d.clusterAndFillDetectionOutputNMS labels lists h = some (output, h') ∧
        Stores h ⟨.detector, .detectionOutput output⟩ [] h' := by
  unfold clusterAndFillDetectionOutputNMS
  rw [if_neg (by simpa using hl)]
  let boxes := (eachClass d.perClassDetectionParams lists fun params _ => nmsOfClass params).flatten
  obtain ⟨ptr, stored, h', hs, hm, ha⟩ := newDetectionOutput_spec labels (boxes.map withoutMask) h
  rw [List.length_map] at hs
  have hstores : StoresObjects (boxes.map withoutMask) h
      ⟨⟨ptr, stored.map some⟩, stored.length⟩ stored h' := ⟨rfl, rfl, hm, ha⟩
  exact ⟨_, h', hs, stores_detector hstores⟩

/-- The clustering modes that are handled store what they leave. -/
theorem fillDetectionOutput_stores {networkInfo : NvDsInferNetworkInfo} {outputLayers : List (OutputLayer R)}
    (hparse : (d.parse networkInfo outputLayers).isSome = true)
    (hcv : d.clusterMode = .groupRectangles → d.withOpenCV = true)
    (hnms : d.clusterMode = .nms ∨ d.clusterMode = .dbscanNmsHybrid → d.perClassDetectionParams ≠ []) (h : Heap) :
    ∃ output h', d.fillDetectionOutput labels networkInfo outputLayers h =
        some (.success, some output, h') ∧ Stores h ⟨.detector, .detectionOutput output⟩ [] h' := by
  obtain ⟨objectList, ho⟩ := Option.isSome_iff_exists.mp hparse
  let lists := perClassObjectList id d.perClassDetectionParams.length
    (preClusteringThreshold id d.perClassDetectionParams objectList)
  have hmap : ∀ r : Option (NvDsInferDetectionOutput R × Heap),
      (∃ output h', r = some (output, h') ∧ Stores h ⟨.detector, .detectionOutput output⟩ [] h') →
      ∃ output h', (r.map fun r => (NvDsInferStatus.success, some r.1, r.2)) = some (.success, some output, h') ∧
        Stores h ⟨.detector, .detectionOutput output⟩ [] h' := by
    rintro _ ⟨output, h', rfl, hs⟩
    exact ⟨output, h', rfl, hs⟩
  unfold fillDetectionOutput
  rw [ho]
  cases hm : d.clusterMode with
  | nms =>
    have hp := hnms (Or.inl hm)
    exact hmap _ (d.clusterAndFillDetectionOutputNMS_stores labels
      (perClassObjectList_ne_nil (by simpa using hp) _) h)
  | dbscan => exact hmap _ (fillPerClass_withoutMask_stores labels _ h)
  | groupRectangles =>
    dsimp only
    rw [if_pos (hcv hm)]
    exact hmap _ (fillPerClass_withoutMask_stores labels _ h)
  | dbscanNmsHybrid =>
    have hp := hnms (Or.inr hm)
    exact hmap _ (d.clusterAndFillDetectionOutputNMS_stores labels
      (eachClass_ne_nil hp (perClassObjectList_ne_nil (by simpa using hp) _) _) h)
  | none => exact hmap _ (fillPerClass_withoutMask_stores labels _ h)

/-- An output is written only by a mode that is handled. -/
theorem of_fillDetectionOutput {networkInfo : NvDsInferNetworkInfo} {outputLayers : List (OutputLayer R)}
    {h h' : Heap} {status : NvDsInferStatus} {output : NvDsInferDetectionOutput R}
    (hf : d.fillDetectionOutput labels networkInfo outputLayers h = some (status, some output, h')) :
    (d.parse networkInfo outputLayers).isSome = true ∧
      (d.clusterMode = .groupRectangles → d.withOpenCV = true) ∧
        (d.clusterMode = .nms ∨ d.clusterMode = .dbscanNmsHybrid → d.perClassDetectionParams ≠ []) := by
  unfold fillDetectionOutput at hf
  split at hf
  · simp at hf
  · rename_i objectList ho
    refine ⟨by rw [ho, Option.isSome_some], fun hm => ?_, fun hm hp => ?_⟩
    · rw [hm] at hf
      by_contra hcv
      simp [hcv] at hf
    · obtain hm | hm := hm
      · simp [hm, hp, clusterAndFillDetectionOutputNMS, perClassObjectList] at hf
      · simp [hm, hp, clusterAndFillDetectionOutputHybrid, clusterAndFillDetectionOutputNMS, eachClass] at hf

end DetectPostprocessor

namespace InstanceSegmentPostprocessor

variable (s : InstanceSegmentPostprocessor R) (labels : List (List String))

/-- The masks of the objects that are filtered out are lost. -/
theorem fillDetectionOutput_stores {networkInfo : NvDsInferNetworkInfo} {outputLayers : List (OutputLayer R)}
    {parsed : List (NvDsInferInstanceMaskInfo R MaskShape)}
    (hparse : s.parse networkInfo outputLayers = some parsed) (h : Heap) :
    ∃ output lost h', s.fillDetectionOutput labels networkInfo outputLayers h =
        some (.success, some output, h') ∧
      Stores h ⟨.instanceSegmentation, .detectionOutput output⟩ lost h' ∧
        (lost = [] ↔ (unclusteredObjects s.perClassDetectionParams parsed).flatten.countP (·.mask.isSome) =
          parsed.countP (·.mask.isSome)) := by
  obtain ⟨hmap, halloc⟩ := allocMasks_spec parsed h
  let objectList := (allocMasks parsed h).1
  let lists := unclusteredObjects s.perClassDetectionParams objectList
  obtain ⟨output, stored, h', hfill, hstored⟩ := fillPerClass_stores labels lists (allocMasks parsed h).2
  obtain ⟨l, hl, hsub⟩ := List.subperm_iff.mp (unclusteredObjects_subperm s.perClassDetectionParams objectList)
  obtain ⟨lost, hlost⟩ := hsub.exists_perm_append
  have hperm : objectList.Perm (lists.flatten ++ lost) := hl.symm.trans hlost
  refine ⟨output, lost.flatMap (·.maskPtr), h', ?_, stores_instanceSegmentation halloc hperm hstored, ?_⟩
  · unfold fillDetectionOutput
    rw [hparse]
    dsimp only
    rw [s.clusterMode_eq]
    dsimp only
    rw [hfill, Option.map_some]
  · have hcount : ∀ l : List (NvDsInferInstanceMaskInfo R Mask),
        (l.map (·.parsed)).countP (·.mask.isSome) = l.countP (·.mask.isSome) := by
      intro l
      rw [List.countP_map]
      exact List.countP_congr fun obj _ => by simp [NvDsInferInstanceMaskInfo.parsed]
    have hkept : (unclusteredObjects s.perClassDetectionParams parsed).flatten = lists.flatten.map (·.parsed) := by
      rw [← hmap, unclusteredObjects_map (f := (·.parsed)) fun _ => rfl, List.map_flatten]
    have hsum := hperm.countP_eq (·.mask.isSome)
    rw [List.countP_append] at hsum
    have hparsed : parsed.countP (·.mask.isSome) = objectList.countP (·.mask.isSome) := by
      rw [← hcount objectList, hmap]
    rw [hkept, hcount, hparsed, hsum]
    have hzero : lost.flatMap (·.maskPtr) = [] ↔ lost.countP (·.mask.isSome) = 0 := by
      rw [List.flatMap_eq_nil_iff, List.countP_eq_zero]
      simp [NvDsInferInstanceMaskInfo.maskPtr]
    rw [hzero]
    omega

end InstanceSegmentPostprocessor

/-! ### Frames -/

namespace InferPostprocessor

variable (p : InferPostprocessor R)

theorem parseEachBatch_stores {outputLayers : List (OutputLayer R)} (hf : p.Fills outputLayers) (h : Heap) :
    ∃ frame lost h', p.parseEachBatch outputLayers h = some (.success, frame, h') ∧ Stores h frame lost h' ∧
      (lost = [] ↔ p.KeepsMasks outputLayers) := by
  obtain ⟨hparse, hkind⟩ := hf
  unfold Parses at hparse
  unfold parseEachBatch KeepsMasks
  cases hk : p.kind with
  | detect d =>
    rw [hk] at hparse hkind
    obtain ⟨output, h', hfill, hs⟩ := d.fillDetectionOutput_stores p.labels hparse hkind.1 hkind.2 h
    refine ⟨_, [], h', ?_, hs, by simp⟩
    dsimp only
    rw [hfill]
    rfl
  | instanceSegment s =>
    rw [hk] at hparse
    obtain ⟨parsed, hp⟩ := Option.isSome_iff_exists.mp hparse
    obtain ⟨output, lost, h', hfill, hs, hl⟩ := s.fillDetectionOutput_stores p.labels hp h
    refine ⟨_, lost, h', ?_, hs, ?_⟩
    · dsimp only
      rw [hfill]
      rfl
    · dsimp only
      rw [hp, hl]
      simp
  | classify c =>
    rw [hk] at hparse
    obtain ⟨⟨attributes, attrString⟩, hp⟩ := Option.isSome_iff_exists.mp hparse
    have hs := stores_classifier (allocLabels attributes h).1 attrString (allocLabels_allocates attributes h)
    refine ⟨_, [], _, ?_, hs, by simp⟩
    let attrs := (allocLabels attributes h).1
    let array := newArray (NvDsInferAttribute R CString) attrs.length (strdup attrString (allocLabels attributes h).2).2
    have hfill : fillAttributes attrs 0 array.1 = some ⟨array.1.ptr, attrs.map some⟩ :=
      fillAttributes_eq array.1.ptr attrs []
    dsimp only
    unfold ClassifyPostprocessor.fillClassificationOutput
    rw [hp]
    dsimp only
    rw [hfill]
    rfl
  | segment s =>
    rw [hk] at hkind
    obtain ⟨layer, hl, hlt⟩ := hkind
    cases outputLayers with
    | nil => simp at hl
    | cons l rest =>
      obtain rfl : l = layer := by simpa using hl
      let dims := s.outputDims l
      let cls := fun pixel : ℕ × ℕ => classOfPixel s.segmentationThreshold dims.c fun c =>
        l.buffer (s.indAlongChannel dims pixel.2 pixel.1 c)
      obtain ⟨hfill, hspec⟩ := fillClassMap_spec dims.w dims.h cls h
      obtain ⟨a', ha⟩ := hfill hlt
      obtain ⟨-, hptr, hfilled⟩ := hspec a' ha
      refine ⟨⟨.segmentation, .segmentationOutput ⟨dims.w, dims.h, dims.c, a', l.buffer⟩⟩, [],
        (newArray ℤ (dims.w * dims.h % 2 ^ 32) h).2, ?_,
        ⟨hfilled, [a'.ptr], fun g => ?_, ?_⟩, by simp⟩
      · dsimp only
        unfold SegmentPostprocessor.fillSegmentationOutput
        dsimp only
        rw [ha]
        rfl
      · show g.free (some a'.ptr) = g.freeAll [a'.ptr]
        exact Heap.free_eq_freeAll g _
      · rw [hptr]
        exact allocates_newArray ℤ _ h
  | other =>
    exact ⟨⟨.other, .indeterminate⟩, [], h, rfl,
      ⟨trivial, [], fun g => rfl, Heap.Allocates.refl h⟩, by simp⟩

/-- The status is always success; the frame is defined only if it was filled. -/
theorem of_parseEachBatch {outputLayers : List (OutputLayer R)} {h h' : Heap} {status : NvDsInferStatus}
    {frame : NvDsInferFrameOutput R} (hp : p.parseEachBatch outputLayers h = some (status, frame, h')) :
    status = .success ∧ (frame.Defined → p.Fills outputLayers) := by
  unfold parseEachBatch at hp
  unfold Fills Parses
  cases hk : p.kind with
  | detect d =>
    rw [hk] at hp
    obtain ⟨⟨st, output, g⟩, hf, hr⟩ := Option.map_eq_some_iff.mp hp
    obtain ⟨rfl, rfl, rfl⟩ : .success = status ∧ ⟨.detector, output.elim .indeterminate .detectionOutput⟩ = frame ∧ g = h' := by
      simpa [frameOutput] using hr
    refine ⟨rfl, fun hd => ?_⟩
    cases output with
    | none => exact hd.elim
    | some output => exact d.of_fillDetectionOutput p.labels hf
  | instanceSegment s =>
    rw [hk] at hp
    obtain ⟨⟨st, output, g⟩, hf, hr⟩ := Option.map_eq_some_iff.mp hp
    obtain ⟨rfl, rfl, rfl⟩ : .success = status ∧
        ⟨.instanceSegmentation, output.elim .indeterminate .detectionOutput⟩ = frame ∧ g = h' := by
      simpa [frameOutput] using hr
    refine ⟨rfl, fun hd => ⟨?_, trivial⟩⟩
    cases output with
    | none => exact hd.elim
    | some output =>
      cases hparse : s.parse p.networkInfo outputLayers with
      | none => simp [InstanceSegmentPostprocessor.fillDetectionOutput, hparse] at hf
      | some parsed =>
        show (s.parse p.networkInfo outputLayers).isSome = true
        rw [hparse, Option.isSome_some]
  | classify c =>
    rw [hk] at hp
    obtain ⟨⟨st, output, g⟩, hf, hr⟩ := Option.map_eq_some_iff.mp hp
    obtain ⟨rfl, rfl, rfl⟩ : .success = status ∧
        ⟨.classifier, output.elim .indeterminate .classificationOutput⟩ = frame ∧ g = h' := by
      simpa [frameOutput] using hr
    refine ⟨rfl, fun hd => ⟨?_, trivial⟩⟩
    cases output with
    | none => exact hd.elim
    | some output =>
      cases hparse : c.parse p.labels p.networkInfo outputLayers with
      | none => simp [ClassifyPostprocessor.fillClassificationOutput, hparse] at hf
      | some parsed =>
        show (c.parse p.labels p.networkInfo outputLayers).isSome = true
        rw [hparse, Option.isSome_some]
  | segment s =>
    rw [hk] at hp
    obtain ⟨⟨st, output, g⟩, hf, hr⟩ := Option.map_eq_some_iff.mp hp
    obtain ⟨rfl, -, -⟩ : .success = status ∧
        ⟨.segmentation, output.elim .indeterminate .segmentationOutput⟩ = frame ∧ g = h' := by
      simpa [frameOutput] using hr
    refine ⟨rfl, fun _ => ⟨trivial, ?_⟩⟩
    cases outputLayers with
    | nil => simp [SegmentPostprocessor.fillSegmentationOutput] at hf
    | cons layer rest =>
      obtain ⟨classMap, hfill, -⟩ := Option.map_eq_some_iff.mp hf
      exact ⟨layer, rfl, ((fillClassMap_spec _ _ _ h).2 classMap hfill).1⟩
  | other =>
    rw [hk] at hp
    obtain ⟨rfl, -, -⟩ : .success = status ∧ ⟨.other, .indeterminate⟩ = frame ∧ h = h' := by simpa using hp
    exact ⟨rfl, fun _ => ⟨trivial, trivial⟩⟩

/-! ### The batch -/

variable (buffers : ℤ → ℕ → R)

/-- Frames that can all be filled are stored one after the other. -/
theorem parseFrames_stores (ptr : ℕ) : ∀ (k : ℕ) (done : List (NvDsInferFrameOutput R)) (h : Heap),
    (∀ i ∈ List.range' done.length k, p.Fills (p.frameLayers buffers i)) →
    ∃ (stored : List (NvDsInferFrameOutput R)) (ps lost : List ℕ) (h' : Heap),
      p.parseFrames buffers (List.range' done.length k) ⟨ptr, done.map some ++ List.replicate k none⟩ h =
        some (.success, ⟨ptr, (done ++ stored).map some⟩, h') ∧
      stored.length = k ∧ (∀ frame ∈ stored, frame.Defined) ∧
      (∀ g, forCells (fun h frame => releaseFrameOutput frame h) stored.length (stored.map some) g = g.freeAll ps) ∧
      Heap.Allocates h (ps ++ lost) h' ∧
      (lost = [] ↔ ∀ i ∈ List.range' done.length k, p.KeepsMasks (p.frameLayers buffers i))
  | 0, done, h, _ => ⟨[], [], [], h, by simp [parseFrames], rfl, by simp, fun _ => rfl, Heap.Allocates.refl h, by simp⟩
  | k + 1, done, h, hf => by
    rw [List.range'_succ, List.forall_mem_cons] at hf
    obtain ⟨frame, lost₁, h₁, hp, ⟨hd, ps₁, hr₁, ha₁⟩, hl₁⟩ := p.parseEachBatch_stores hf.1 h
    obtain ⟨stored, ps₂, lost₂, h₂, hps, hlen, hds, hr₂, ha₂, hl₂⟩ := parseFrames_stores ptr k (done ++ [frame]) h₁
      (by simpa using hf.2)
    refine ⟨frame :: stored, ps₁ ++ ps₂, lost₁ ++ lost₂, h₂, ?_, by rw [List.length_cons, hlen],
      List.forall_mem_cons.mpr ⟨hd, hds⟩, fun g => ?_, ?_, ?_⟩
    · rw [List.range'_succ, parseFrames, hp, Option.bind_some]
      dsimp only
      rw [HeapArray.write_next, Option.bind_some, if_neg (by simp), List.append_cons done frame stored]
      rw [List.length_append, List.length_singleton] at hps
      exact hps
    · rw [Heap.freeAll_append, ← hr₁]
      exact congrArg _ (funext hr₂)
    · refine (ha₁.append ha₂).perm ?_
      rw [List.perm_iff_count]
      intro a
      simp only [List.count_append]
      omega
    · rw [List.append_eq_nil_iff, hl₁, hl₂, List.length_append, List.length_singleton, List.range'_succ,
        List.forall_mem_cons]

/-- Whatever the loop returns, the status is success and every position holds
the output of its frame. -/
theorem of_parseFrames : ∀ {indices : List ℕ} {frames frames' : HeapArray (NvDsInferFrameOutput R)} {h h' : Heap}
    {status : NvDsInferStatus}, p.parseFrames buffers indices frames h = some (status, frames', h') →
    status = .success ∧ (∀ i ∉ indices, frames'.cells[i]? = frames.cells[i]?) ∧
      (indices.Nodup → ∀ i ∈ indices, ∃ frame, frames'.cells[i]? = some (some frame) ∧
        (frame.Defined → p.Fills (p.frameLayers buffers i)))
  | [], frames, frames', h, h', status, hr => by
    obtain ⟨rfl, rfl, -⟩ : .success = status ∧ frames = frames' ∧ h = h' := by simpa [parseFrames] using hr
    exact ⟨rfl, fun _ _ => rfl, by simp⟩
  | index :: rest, frames, frames', h, h', status, hr => by
    obtain ⟨⟨st, frame, h₁⟩, hp, hr⟩ := Option.bind_eq_some_iff.mp hr
    obtain ⟨written, hw, hr⟩ := Option.bind_eq_some_iff.mp hr
    obtain ⟨rfl, hd⟩ := p.of_parseEachBatch hp
    rw [if_neg (by simp)] at hr
    obtain ⟨rfl, hsame, hall⟩ := of_parseFrames hr
    obtain ⟨hlt, rfl⟩ := write_eq_some hw
    refine ⟨rfl, fun i hi => ?_, fun hn => ?_⟩
    · obtain ⟨hne, hi⟩ := not_or.mp (List.mem_cons.not.mp hi)
      rw [hsame i hi]
      exact List.getElem?_set_ne (Ne.symm hne)
    · obtain ⟨hnot, hn⟩ := List.nodup_cons.mp hn
      refine List.forall_mem_cons.mpr ⟨⟨frame, ?_, hd⟩, hall hn⟩
      rw [hsame index hnot]
      simp [hlt]

/-- The batch is stored, and what its release leaves behind are the lost masks. -/
theorem postProcessHost_stores {batchSize : ℕ} (hf : ∀ i < batchSize, p.Fills (p.frameLayers buffers i))
    (batchOutput : NvDsInferContextBatchOutput R) (h : Heap) :
    ∃ out frames h' h'' lost, p.postProcessHost buffers batchSize batchOutput h = some (.success, out, h') ∧
      out.frames = some frames ∧ out.numFrames = batchSize ∧ frames.Filled batchSize ∧
      (∀ (i : ℕ) frame, frames.cells[i]? = some (some frame) → frame.Defined) ∧
      freeBatchOutput out h' = some h'' ∧ Heap.Allocates h lost h'' ∧
      (lost = [] ↔ ∀ i < batchSize, p.KeepsMasks (p.frameLayers buffers i)) := by
  let array := newArray (NvDsInferFrameOutput R) batchSize h
  obtain ⟨stored, ps, lost, h₁, hps, hlen, hd, hrel, ha, hl⟩ :=
    p.parseFrames_stores buffers array.1.ptr batchSize [] array.2 (by simpa using hf)
  have hps' : p.parseFrames buffers (List.range batchSize) array.1 array.2 =
      some (.success, ⟨array.1.ptr, stored.map some⟩, h₁) := by
    rw [List.range_eq_range']
    exact hps
  have hfree : ∀ g, freeBatchOutput (R := R) { batchOutput with
      frames := some ⟨array.1.ptr, stored.map some⟩
      numFrames := batchSize
      numHostBuffers := p.numAllLayers
      hostBuffers := some h₁.alloc.1
      numOutputDeviceBuffers := p.outputLayerInfo.length
      outputDeviceBuffers := some h₁.alloc.2.alloc.1 } g =
        g.freeAll (ps ++ [array.1.ptr, h₁.alloc.1, h₁.alloc.2.alloc.1]) := by
    intro g
    unfold freeBatchOutput
    dsimp only
    rw [← hlen, Option.map_some, Option.getD_some, hrel, Heap.freeAll_append]
    refine congrArg _ (funext fun h => congrArg _ (funext fun h => congrArg _ (funext fun h => ?_)))
    exact Heap.free_eq_freeAll h _
  have hall : Heap.Allocates h ((ps ++ [array.1.ptr, h₁.alloc.1, h₁.alloc.2.alloc.1]) ++ lost) h₁.alloc.2.alloc.2 := by
    have harray : Heap.Allocates h [array.1.ptr] array.2 := allocates_newArray _ batchSize h
    refine ((harray.append ha).append
      ((Heap.Allocates.alloc h₁).append (Heap.Allocates.alloc h₁.alloc.2))).perm ?_
    rw [List.perm_iff_count]
    intro a
    simp only [List.count_append, List.count_cons, List.count_nil]
    omega
  obtain ⟨h'', hfreed, hlost⟩ := hall.freeAll
  refine ⟨_, ⟨array.1.ptr, stored.map some⟩, _, h'', lost, ?_, rfl, rfl, ?_, fun i frame hi => ?_,
    (hfree _).trans hfreed, hlost, by simpa using hl⟩
  · unfold postProcessHost
    dsimp only
    rw [hps', Option.map_some]
    rfl
  · rw [← hlen]
    exact HeapArray.filled_map _ _
  · have hmem := List.mem_of_getElem? hi
    obtain ⟨x, hx, hxe⟩ := List.mem_map.mp hmem
    exact Option.some.inj hxe ▸ hd x hx

/-- **What a client relies on.** A dequeue fails, or reports every frame as
it is and can be released without a trace, if and only if every frame of the
batch can be filled and none loses a mask. -/
theorem dequeueOk_iff (cuda : Bool) (batchSize : ℕ) (batchOutput : NvDsInferContextBatchOutput R) (h : Heap) :
    p.DequeueOk cuda buffers batchSize batchOutput h ↔
      (cuda = true → ∀ i < batchSize, p.Fills (p.frameLayers buffers i) ∧ p.KeepsMasks (p.frameLayers buffers i)) := by
  unfold DequeueOk dequeueOutputBatch
  cases cuda with
  | false => simp
  | true =>
    simp only [↓reduceIte, forall_const]
    constructor
    · rintro ⟨status, out, h', hdeq, hok⟩
      have hdeq' := hdeq
      obtain ⟨⟨st, frames, h₁⟩, hframes, hout⟩ := Option.map_eq_some_iff.mp hdeq
      obtain ⟨rfl, -, hcells⟩ := p.of_parseFrames buffers hframes
      simp only [ne_eq, not_true_eq_false, ↓reduceIte, Prod.mk.injEq] at hout
      obtain ⟨rfl, rfl, rfl⟩ := hout
      obtain ⟨⟨frames', hfr, -, -, hdef⟩, h'', hfree, hlive⟩ := hok rfl
      obtain rfl : frames = frames' := Option.some.inj hfr
      have hf : ∀ i < batchSize, p.Fills (p.frameLayers buffers i) := by
        intro i hi
        obtain ⟨frame, hc, hfill⟩ := hcells List.nodup_range i (List.mem_range.mpr hi)
        exact hfill (hdef i frame hc).1
      obtain ⟨out', frames', g, g', lost, hp, -, -, -, -, hfree', hlost, hl⟩ :=
        p.postProcessHost_stores buffers hf batchOutput h
      rw [hp, Option.some.injEq, Prod.mk.injEq, Prod.mk.injEq] at hdeq'
      obtain ⟨-, rfl, rfl⟩ := hdeq'
      rw [hfree', Option.some.injEq] at hfree
      have hkeep := hl.mp (hlost.live_eq_iff.mp (hfree ▸ hlive))
      exact fun i hi => ⟨hf i hi, hkeep i hi⟩
    · intro hall
      obtain ⟨out, frames, h', h'', lost, hp, hfr, hn, hfilled, hdef, hfree, hlost, hl⟩ :=
        p.postProcessHost_stores buffers (fun i hi => (hall i hi).1) batchOutput h
      refine ⟨.success, out, h', hp, fun _ => ⟨⟨frames, hfr, hn, hfilled, fun i frame hi => ⟨hdef i frame hi, ?_⟩⟩,
        h'', hfree, hlost.live_eq_iff.mpr (hl.mpr fun i hi => (hall i hi).2)⟩⟩
      have hi' : i < batchSize := hfilled.1 ▸ (List.getElem?_eq_some_iff.mp hi).1
      exact fun hnot => absurd (hall i hi').1.1 hnot

/-- A detector whose custom parse function rejects every frame. -/
def rejecting : InferPostprocessor ℚ where
  networkInfo := ⟨640, 368, 3⟩
  labels := []
  outputLayerInfo := []
  numAllLayers := 1
  kind := .detect
    { customBBoxParseFunc := some fun _ _ _ => none
      clusterMode := .none
      perClassDetectionParams := []
      withOpenCV := false
      libs := ⟨fun _ l => l, fun _ l => l, fun _ _ l => l⟩ }

/-- The frame that could not be parsed is reported with status success, and
nothing has written its objects and their number. -/
theorem rejected_reported : ∃ out h',
    rejecting.dequeueOutputBatch true (fun _ _ => 0) 1 ⟨none, 0, none, 0, none, 0⟩ Heap.empty =
      some (.success, out, h') ∧
    out.frames.map (·.cells) = some [some ⟨.detector, .indeterminate⟩] ∧
    ¬ rejecting.DequeueOk true (fun _ _ => 0) 1 ⟨none, 0, none, 0, none, 0⟩ Heap.empty := by
  refine ⟨_, _, rfl, rfl, ?_⟩
  rintro ⟨status, out, h', hd, hok⟩
  have hrun : rejecting.dequeueOutputBatch true (fun _ _ => 0) 1 ⟨none, 0, none, 0, none, 0⟩ Heap.empty =
      some (.success, _, _) := rfl
  rw [hrun, Option.some.injEq, Prod.mk.injEq, Prod.mk.injEq] at hd
  obtain ⟨rfl, rfl, rfl⟩ := hd
  obtain ⟨⟨frames, hf, -, -, hdef⟩, -⟩ := hok rfl
  obtain rfl := Option.some.inj hf
  exact (hdef 0 _ rfl).1

end InferPostprocessor

end

end Infer
end DeepStream
