/-
# When the deserializer stays within its lists

A text that does not fit its buffer is left out here: without the texts that it copies, the
deserializer has a result exactly if it ends, no index is behind the end of a list or an array, and
no list that it walks is at its end. What decides that are the lengths of the lists of the message
and of the batch, which nothing compares; and a classifier with labels, for which the loop has no end.
-/
import DeepStream.Lib.Folds
import DeepStream.MetaUtils.RoundTrip

namespace DeepStream
namespace MetaUtils

/-! ### Messages without the texts that are copied -/

namespace Dsmeta

def Nvosdtextparams.withoutTexts (m : Nvosdtextparams) : Nvosdtextparams :=
  { m with displayText := [], fontParams := { m.fontParams with fontName := [] } }

def Nvdsclassifiermeta.withoutTexts (m : Nvdsclassifiermeta) : Nvdsclassifiermeta := { m with classifierType := [] }

def Nvdsobjectmeta.withoutTexts (m : Nvdsobjectmeta) : Nvdsobjectmeta :=
  { m with
    textParams := m.textParams.withoutTexts
    classifierMetaList := m.classifierMetaList.map Nvdsclassifiermeta.withoutTexts }

def Nvdsdisplaymeta.withoutTexts (m : Nvdsdisplaymeta) : Nvdsdisplaymeta :=
  { m with textParams := m.textParams.map Nvosdtextparams.withoutTexts }

def Nvdsframemeta.withoutTexts (m : Nvdsframemeta) : Nvdsframemeta :=
  { m with
    objMetaList := m.objMetaList.map Nvdsobjectmeta.withoutTexts
    displayMetaList := m.displayMetaList.map Nvdsdisplaymeta.withoutTexts }

def Nvdsbatchmeta.withoutTexts (m : Nvdsbatchmeta) : Nvdsbatchmeta :=
  { m with frameMetaList := m.frameMetaList.map Nvdsframemeta.withoutTexts }

end Dsmeta

/-- The deserializer ends and stays within its lists. -/
def StaysInRange (lib : NvdsLib) (clear : Bool) (batch : NvDsBatchMeta) : Prop :=
  (deserializeData { lib with parseFromString := fun payload => (lib.parseFromString payload).withoutTexts } clear
    batch).isSome

/-! ### What the lengths have to be -/

/-- An object of the message, for an object meta `o` from the pool. -/
structure ObjectInRange (o : NvDsObjectMeta) (m : Dsmeta.Nvdsobjectmeta) : Prop where
  mask : m.maskParams.size.toNat = 0 ∨
    m.maskParams.size.toNat ≤ m.maskParams.data.length ∧ ∃ data ∈ o.maskParams.data, m.maskParams.size.toNat ≤ data.length
  misc : maxUserFields ≤ m.miscObjInfo.length
  classifiers : m.classifierMetaList.length ≤ o.classifierMetaList.length
  labels : ∀ c ∈ m.classifierMetaList, c.labelInfoList = []

/-- The arrays of a display meta have 16 elements. -/
structure DisplayInRange (m : Dsmeta.Nvdsdisplaymeta) : Prop where
  rects : m.rectParams.length ≤ maxElementsInDisplayMeta
  texts : m.textParams.length ≤ maxElementsInDisplayMeta
  lines : m.lineParams.length ≤ maxElementsInDisplayMeta
  arrows : m.arrowParams.length ≤ maxElementsInDisplayMeta
  circles : m.circleParams.length ≤ maxElementsInDisplayMeta

/-- There is a display meta for each of the message, or the list grows in front of the walk: every meta
is linked once more, and with two of them the walk does not get to the end. -/
def DisplaysReach (atEnd : Bool) (count len : ℕ) : Prop := len ≤ count ∨ atEnd = true ∧ 2 ≤ count

/-- A frame of the message, for the frame `f` of the batch. -/
structure FrameInRange (pool : NvDsObjectMeta) (atEnd : Bool) (f : NvDsFrameMeta) (m : Dsmeta.Nvdsframemeta) : Prop where
  misc : maxUserFields ≤ m.miscFrameInfo.length
  reserve : maxReservedFields ≤ m.reserve.length
  count : m.numObjMeta.toNat ≤ m.objMetaList.length
  objects : ∀ o ∈ m.objMetaList.take m.numObjMeta.toNat, ObjectInRange pool o
  displays : ∀ d ∈ m.displayMetaList, DisplayInRange d
  displayList : DisplaysReach atEnd f.displayMetaList.length m.displayMetaList.length

/-- There is a user meta; and if the search ends at one with a payload, the message has a frame for each
frame of the batch. -/
structure BatchInRange (lib : NvdsLib) (batch : NvDsBatchMeta) : Prop where
  userMeta : batch.batchUserMetaList ≠ []
  frames : ∀ u ∈ findUserMeta lib.userCustomMeta batch.batchUserMetaList, u.baseMeta.metaType = lib.userCustomMeta →
    List.Forall₂ (FrameInRange lib.acquireObjMetaFromPool lib.addDisplayMetaAtEnd) batch.frameMetaList
      ((lib.parseFromString u.userMetaData.payload).frameMetaList.take batch.frameMetaList.length)

/-! ### The loops -/

theorem restoreEach_isSome_iff {α β : Type} {f : α → β → Option α} {P : β → Prop} :
    ∀ {nodes : List α} {ms : List β}, (∀ a, ∀ b ∈ ms, (f a b).isSome ↔ P b) →
      ((restoreEach f nodes ms).isSome ↔ ms.length ≤ nodes.length ∧ ∀ b ∈ ms, P b)
  | nodes, [], _ => by simp [restoreEach]
  | [], m :: ms, _ => by simp [restoreEach]
  | node :: nodes, m :: ms, h => by
    have ih : (restoreEach f nodes ms).isSome ↔ _ :=
      restoreEach_isSome_iff fun a b hb => h a b (List.mem_cons_of_mem _ hb)
    have hhead := h node m List.mem_cons_self
    show ((f node m).bind fun node' => (restoreEach f nodes ms).bind fun nodes' => some (node' :: nodes')).isSome ↔ _
    rw [isSome_bind_of_forall fun a _ => isSome_bind_of_forall (P := True) fun b _ => by simp, hhead, ih]
    simp only [List.length_cons, Nat.succ_le_succ_iff, List.forall_mem_cons]
    tauto

theorem restoreArray_isSome_iff {α β : Type} {n : ℕ} {f : α → β → Option α} (array : List.Vector α n) {ms : List β}
    (h : ∀ a, ∀ b ∈ ms, (f a b).isSome) : (restoreArray f array ms).isSome ↔ ms.length ≤ n := by
  have heach : (restoreEach f array.toList ms).isSome ↔ _ :=
    restoreEach_isSome_iff (P := fun _ => True) fun a b hb => iff_of_true (h a b hb) trivial
  rw [array.toList_length] at heach
  have hsame : (restoreArray f array ms).isSome ↔ (restoreEach f array.toList ms).isSome := by
    unfold restoreArray
    split
    · rename_i hnone
      rw [hnone]
      rfl
    · rename_i entries hsome
      exact iff_of_true rfl (Option.isSome_iff_exists.mpr ⟨entries, hsome⟩)
  rw [hsame, heach]
  exact and_iff_left fun _ _ => trivial

theorem restoreFields_isSome_iff {n : ℕ} (fields : List Int64) : (restoreFields (n := n) fields).isSome ↔ n ≤ fields.length := by
  unfold restoreFields
  split
  · rename_i hle
    exact iff_of_true rfl hle
  · rename_i hgt
    exact iff_of_false (by simp) hgt

/-- Nothing is written, or there are enough values and enough room for them. -/
theorem writeData_cases (src : List FloatBits) : ∀ (n : ℕ) (dst : Option (List FloatBits)),
    (writeData src n dst = none ∧ ¬ (n = 0 ∨ n ≤ src.length ∧ ∃ data ∈ dst, n ≤ data.length)) ∨
      ∃ dst', writeData src n dst = some dst' ∧ dst'.map List.length = dst.map List.length ∧
        (n = 0 ∨ n ≤ src.length ∧ ∃ data ∈ dst, n ≤ data.length)
  | 0, dst => .inr ⟨dst, rfl, rfl, .inl rfl⟩
  | n + 1, dst => by
    have hstep : writeData src (n + 1) dst = (writeData src n dst).bind fun dst => dst.bind fun data =>
        src[n]?.bind fun x => if n < data.length then some (some (data.set n x)) else none := by
      unfold writeData
      rw [List.range_succ, List.foldlM_append]
      simp only [List.foldlM_cons, List.foldlM_nil, bind_pure]
      rfl
    rcases writeData_cases src n dst with ⟨hnone, hno⟩ | ⟨dst', hsome, hlen, hroom⟩
    · refine .inl ⟨by rw [hstep, hnone, Option.bind_none], ?_⟩
      rintro (h0 | ⟨hsrc, data, hdata, hle⟩)
      · cases h0
      · exact hno (.inr ⟨by omega, data, hdata, by omega⟩)
    · rw [hstep, hsome, Option.bind_some]
      cases dst' with
      | none =>
        refine .inl ⟨rfl, ?_⟩
        rintro (h0 | ⟨-, data, hdata, -⟩)
        · cases h0
        · rw [hdata] at hlen
          cases hlen
      | some data' =>
        obtain ⟨data, rfl, hdata⟩ := Option.map_eq_some_iff.mp hlen.symm
        rw [Option.bind_some]
        by_cases hsrc : n < src.length
        · rw [List.getElem?_eq_getElem hsrc, Option.bind_some]
          by_cases hlt : n < data'.length
          · rw [if_pos hlt]
            refine .inr ⟨_, rfl, ?_, .inr ⟨hsrc, data, rfl, hdata ▸ hlt⟩⟩
            rw [Option.map_some, Option.map_some, List.length_set, hdata]
          · rw [if_neg hlt]
            refine .inl ⟨rfl, ?_⟩
            rintro (h0 | ⟨-, data₁, hdata₁, hle⟩)
            · cases h0
            · obtain rfl := Option.some.inj hdata₁
              exact hlt (hdata ▸ hle)
        · rw [List.getElem?_eq_none (not_lt.mp hsrc), Option.bind_none]
          refine .inl ⟨rfl, ?_⟩
          rintro (h0 | ⟨hle, -⟩)
          · cases h0
          · exact hsrc hle

theorem writeData_isSome_iff (src : List FloatBits) (n : ℕ) (dst : Option (List FloatBits)) :
    (writeData src n dst).isSome ↔ n = 0 ∨ n ≤ src.length ∧ ∃ data ∈ dst, n ≤ data.length := by
  rcases writeData_cases src n dst with ⟨hnone, hno⟩ | ⟨dst', hsome, -, hyes⟩
  · rw [hnone]
    exact iff_of_false (by simp) hno
  · rw [hsome]
    exact iff_of_true rfl hyes

/-- The loop over the labels does not end where it should. -/
theorem restoreLabelsFrom_eq_none (ms : List Dsmeta.Nvdslabelinfo) : ∀ (nodes : List NvDsLabelInfo) (i : ℕ),
    restoreLabelsFrom ms i nodes = none
  | [], _ => rfl
  | l :: rest, i => by
    show (ms[i]?.bind fun m => (restoreLabelsFrom ms (i + 1) rest).bind fun rest' => some (restoreLabel l m :: rest')) = none
    rw [restoreLabelsFrom_eq_none ms rest (i + 1)]
    cases ms[i]? <;> rfl

theorem restoreLabels_isSome_iff (nodes : List NvDsLabelInfo) (ms : List Dsmeta.Nvdslabelinfo) :
    (restoreLabels nodes ms).isSome ↔ ms = [] := by
  unfold restoreLabels
  rw [restoreLabelsFrom_eq_none]
  split
  · rename_i h0
    exact iff_of_true rfl (List.length_eq_zero_iff.mp h0)
  · rename_i hne
    exact iff_of_false (by simp) fun h => hne (List.length_eq_zero_iff.mpr h)

/-! ### Objects -/

theorem restoreText_withoutTexts_isSome (t : NvOSDTextParams) (m : Dsmeta.Nvosdtextparams) :
    (restoreText t m.withoutTexts).isSome := rfl

theorem restoreClassifier_isSome_iff (c : NvDsClassifierMeta) (m : Dsmeta.Nvdsclassifiermeta) :
    (restoreClassifier c m.withoutTexts).isSome ↔ m.labelInfoList = [] := by
  show ((restoreLabels c.labelInfoList m.labelInfoList).bind fun _ => some _).isSome ↔ _
  rw [isSome_bind_of_forall (P := True) fun a _ => by simp, restoreLabels_isSome_iff, and_true]

theorem restoreObject_isSome_iff (o : NvDsObjectMeta) (m : Dsmeta.Nvdsobjectmeta) :
    (restoreObject o m.withoutTexts).isSome ↔ ObjectInRange o m := by
  have hclassifiers : (restoreEach restoreClassifier o.classifierMetaList
      (m.classifierMetaList.map Dsmeta.Nvdsclassifiermeta.withoutTexts)).isSome ↔
      m.classifierMetaList.length ≤ o.classifierMetaList.length ∧ ∀ c ∈ m.classifierMetaList, c.labelInfoList = [] := by
    rw [restoreEach_isSome_iff (P := fun c => c.labelInfoList = []) fun a b hb => ?_, List.length_map, List.forall_mem_map]
    · rfl
    · obtain ⟨c, -, rfl⟩ := List.mem_map.mp hb
      exact restoreClassifier_isSome_iff a c
  have hmask : (restoreMask o.maskParams m.maskParams).isSome ↔ m.maskParams.size.toNat = 0 ∨
      m.maskParams.size.toNat ≤ m.maskParams.data.length ∧
        ∃ data ∈ o.maskParams.data, m.maskParams.size.toNat ≤ data.length := by
    show ((writeData m.maskParams.data m.maskParams.size.toNat o.maskParams.data).bind fun _ => some _).isSome ↔ _
    rw [isSome_bind_of_forall (P := True) fun a _ => by simp, writeData_isSome_iff, and_true]
  show ((restoreMask o.maskParams m.maskParams).bind fun _ => (restoreText o.textParams m.textParams.withoutTexts).bind
    fun _ => (restoreFields m.miscObjInfo).bind fun _ => (restoreEach restoreClassifier o.classifierMetaList
      (m.classifierMetaList.map Dsmeta.Nvdsclassifiermeta.withoutTexts)).bind fun _ => some _).isSome ↔ _
  rw [isSome_bind_of_forall fun _ _ => isSome_bind_of_forall fun _ _ => isSome_bind_of_forall fun _ _ =>
    isSome_bind_of_forall (P := True) fun _ _ => by simp, hmask, hclassifiers, restoreFields_isSome_iff]
  constructor
  · rintro ⟨hm, -, hf, ⟨hc, hl⟩, -⟩
    exact ⟨hm, hf, hc, hl⟩
  · rintro ⟨hm, hf, hc, hl⟩
    exact ⟨hm, restoreText_withoutTexts_isSome _ _, hf, ⟨hc, hl⟩, trivial⟩

/-- The loop over the objects, which leaves the display metas of the frame alone. -/
theorem restoreObjects_cases {lib : NvdsLib}
    (hadd : ∀ frame obj parent, (lib.addObjMetaToFrame frame obj parent).displayMetaList = frame.displayMetaList) :
    ∀ (n : ℕ) (ms : List Dsmeta.Nvdsobjectmeta) (frame : NvDsFrameMeta),
      ((restoreObjects lib n (ms.map Dsmeta.Nvdsobjectmeta.withoutTexts) frame).isSome ↔
        n ≤ ms.length ∧ ∀ m ∈ ms.take n, ObjectInRange lib.acquireObjMetaFromPool m) ∧
      ∀ frame', restoreObjects lib n (ms.map Dsmeta.Nvdsobjectmeta.withoutTexts) frame = some frame' →
        frame'.displayMetaList = frame.displayMetaList
  | 0, ms, frame => by
    refine ⟨iff_of_true rfl ⟨Nat.zero_le _, fun m hm => by simp at hm⟩, fun frame' h => ?_⟩
    rw [restoreObjects] at h
    rw [Option.some.inj h]
  | n + 1, [], frame => by
    refine ⟨iff_of_false (by simp [restoreObjects]) fun h => absurd h.1 (Nat.not_succ_le_zero n), fun frame' h => ?_⟩
    cases h
  | n + 1, m :: ms, frame => by
    have hobj := restoreObject_isSome_iff lib.acquireObjMetaFromPool m
    have ih := fun obj => restoreObjects_cases hadd n ms (lib.addObjMetaToFrame frame obj none)
    have hcons : restoreObjects lib (n + 1) ((m :: ms).map Dsmeta.Nvdsobjectmeta.withoutTexts) frame =
        (restoreObject lib.acquireObjMetaFromPool m.withoutTexts).bind fun obj =>
          restoreObjects lib n (ms.map Dsmeta.Nvdsobjectmeta.withoutTexts) (lib.addObjMetaToFrame frame obj none) := rfl
    rw [hcons]
    refine ⟨?_, fun frame' h => ?_⟩
    · rw [isSome_bind_of_forall fun obj _ => (ih obj).1, hobj, List.take_succ_cons, List.forall_mem_cons, List.length_cons,
        Nat.succ_le_succ_iff]
      tauto
    · obtain ⟨obj, -, h⟩ := Option.bind_eq_some_iff.mp h
      exact ((ih obj).2 frame' h).trans (hadd _ _ _)

/-! ### Display metas -/

theorem restoreDisplayText_withoutTexts_isSome (t : NvOSDTextParams) (m : Dsmeta.Nvosdtextparams) :
    (restoreDisplayText t m.withoutTexts).isSome := rfl

theorem restoreDisplay_isSome_iff (d : NvDsDisplayMeta) (m : Dsmeta.Nvdsdisplaymeta) :
    (restoreDisplay d m.withoutTexts).isSome ↔ DisplayInRange m := by
  have htexts : (restoreArray restoreDisplayText d.textParams (m.textParams.map Dsmeta.Nvosdtextparams.withoutTexts)).isSome ↔
      m.textParams.length ≤ maxElementsInDisplayMeta := by
    rw [restoreArray_isSome_iff d.textParams fun a b hb => ?_, List.length_map]
    obtain ⟨t, -, rfl⟩ := List.mem_map.mp hb
    exact restoreDisplayText_withoutTexts_isSome a t
  show ((restoreArray (fun _ r => some (restoreRect r)) d.rectParams m.rectParams).bind fun _ =>
    (restoreArray restoreDisplayText d.textParams (m.textParams.map Dsmeta.Nvosdtextparams.withoutTexts)).bind fun _ =>
    (restoreArray (fun _ l => some (restoreLine l)) d.lineParams m.lineParams).bind fun _ =>
    (restoreArray (fun _ a => some (restoreArrow a)) d.arrowParams m.arrowParams).bind fun _ =>
    (restoreArray (fun _ c => some (restoreCircle c)) d.circleParams m.circleParams).bind fun _ => some _).isSome ↔ _
  rw [isSome_bind_of_forall fun _ _ => isSome_bind_of_forall fun _ _ => isSome_bind_of_forall fun _ _ =>
    isSome_bind_of_forall fun _ _ => isSome_bind_of_forall (P := True) fun _ _ => by simp, htexts,
    restoreArray_isSome_iff _ fun _ _ _ => rfl, restoreArray_isSome_iff _ fun _ _ _ => rfl,
    restoreArray_isSome_iff _ fun _ _ _ => rfl, restoreArray_isSome_iff _ fun _ _ _ => rfl]
  constructor
  · rintro ⟨hr, ht, hl, ha, hc, -⟩
    exact ⟨hr, ht, hl, ha, hc⟩
  · rintro ⟨hr, ht, hl, ha, hc⟩
    exact ⟨hr, ht, hl, ha, hc, trivial⟩

/-- The nodes are those of metas, and the walk is at one of them or at the end. -/
structure DisplayWalk.Sound (w : DisplayWalk) : Prop where
  nodes : ∀ i ∈ w.nodes, i < w.metas.length
  node : ∀ k ∈ w.node, k < w.nodes.length

/-- How many nodes there are from the one that was reached on. -/
def DisplayWalk.left (w : DisplayWalk) : ℕ := (w.node.map fun k => w.nodes.length - k).getD 0

theorem DisplayWalk.Sound.left_eq_zero_iff {w : DisplayWalk} (h : w.Sound) : w.left = 0 ↔ w.node = none := by
  unfold left
  cases hnode : w.node with
  | none => simp
  | some k =>
    have := h.node k hnode
    simp
    omega

/-- A step of the walk, and where it gets. -/
theorem DisplayWalk.Sound.restore_cases (lib : NvdsLib) {w : DisplayWalk} (h : w.Sound) (m : Dsmeta.Nvdsdisplaymeta) :
    (w.node = none ∧ w.restore lib m = none) ∨ ∃ d : NvDsDisplayMeta, w.node ≠ none ∧
      ((w.restore lib m).isSome ↔ (restoreDisplay d m).isSome) ∧ ∀ w', w.restore lib m = some w' → w'.Sound ∧
        w'.left = if lib.addDisplayMetaAtEnd ∧ 2 ≤ w.left then w.left else w.left - 1 := by
  cases hnode : w.node with
  | none =>
    refine .inl ⟨rfl, ?_⟩
    unfold DisplayWalk.restore
    rw [hnode]
    rfl
  | some k =>
    have hk := h.node k hnode
    have hi := h.nodes _ (List.getElem_mem hk)
    have hrestore : w.restore lib m = (restoreDisplay w.metas[w.nodes[k]] m).map fun display =>
        if lib.addDisplayMetaAtEnd then
          ⟨w.metas.set w.nodes[k] display, w.nodes ++ [w.nodes[k]], if k + 1 < w.nodes.length then some (k + 1) else none⟩
        else ⟨w.metas.set w.nodes[k] display, w.nodes[k] :: w.nodes,
          (if k + 1 < w.nodes.length then some (k + 1) else none).map (· + 1)⟩ := by
      unfold DisplayWalk.restore
      rw [hnode]
      show (w.nodes[k]?.bind fun i => w.metas[i]?.bind fun d => (restoreDisplay d m).bind fun display =>
        some _) = _
      rw [List.getElem?_eq_getElem hk, Option.bind_some, List.getElem?_eq_getElem hi, Option.bind_some]
      cases restoreDisplay w.metas[w.nodes[k]] m <;> rfl
    have hleft : w.left = w.nodes.length - k := by
      unfold left
      rw [hnode]
      rfl
    rw [hrestore]
    refine .inr ⟨w.metas[w.nodes[k]], Option.some_ne_none k, by rw [Option.isSome_map], fun w' h' => ?_⟩
    obtain ⟨display, -, rfl⟩ := Option.map_eq_some_iff.mp h'
    have hnodes : ∀ i ∈ w.nodes, i < (w.metas.set w.nodes[k] display).length := fun i hmem => by
      rw [List.length_set]
      exact h.nodes i hmem
    rw [hleft]
    by_cases hend : lib.addDisplayMetaAtEnd = true
    · rw [if_pos hend]
      refine ⟨⟨fun i hmem => ?_, fun j hj => ?_⟩, ?_⟩
      · rcases List.mem_append.mp hmem with hold | hnew
        · exact hnodes i hold
        · exact hnodes i (List.mem_singleton.mp hnew ▸ List.getElem_mem hk)
      · by_cases hnext : k + 1 < w.nodes.length
        · simp only [hnext, ↓reduceIte, Option.mem_some_iff] at hj
          simp only [List.length_append, List.length_singleton]
          omega
        · simp [hnext] at hj
      · unfold left
        by_cases hnext : k + 1 < w.nodes.length
        · simp only [hnext, ↓reduceIte, Option.map_some, Option.getD_some, List.length_append, List.length_singleton]
          rw [if_pos ⟨hend, by omega⟩]
          omega
        · simp only [hnext, ↓reduceIte, Option.map_none, Option.getD_none]
          have hno : ¬ (lib.addDisplayMetaAtEnd = true ∧ 2 ≤ w.nodes.length - k) := fun hc => hnext (by omega)
          rw [if_neg hno]
          omega
    · rw [if_neg hend]
      refine ⟨⟨fun i hmem => ?_, fun j hj => ?_⟩, ?_⟩
      · rcases List.mem_cons.mp hmem with hnew | hold
        · exact hnodes i (hnew ▸ List.getElem_mem hk)
        · exact hnodes i hold
      · by_cases hnext : k + 1 < w.nodes.length
        · simp only [hnext, ↓reduceIte, Option.map_some, Option.mem_some_iff] at hj
          simp only [List.length_cons]
          omega
        · simp [hnext] at hj
      · have hno : ¬ (lib.addDisplayMetaAtEnd = true ∧ 2 ≤ w.nodes.length - k) := fun hc => hend hc.1
        unfold left
        rw [if_neg hno]
        by_cases hnext : k + 1 < w.nodes.length
        · simp only [hnext, ↓reduceIte, Option.map_some, Option.getD_some, List.length_cons]
          omega
        · simp only [hnext, ↓reduceIte, Option.map_none, Option.getD_none]
          omega

/-- The walk gets to the last message if nodes are linked behind it and it starts before the last one, or if
there is a node for each message. -/
theorem DisplayWalk.Sound.foldlM_isSome_iff {lib : NvdsLib} :
    ∀ (ms : List Dsmeta.Nvdsdisplaymeta) {w : DisplayWalk}, w.Sound →
      (((ms.map Dsmeta.Nvdsdisplaymeta.withoutTexts).foldlM (DisplayWalk.restore lib) w).isSome ↔
        DisplaysReach lib.addDisplayMetaAtEnd w.left ms.length ∧ ∀ m ∈ ms, DisplayInRange m)
  | [], w, _ => iff_of_true rfl ⟨.inl (Nat.zero_le _), fun m hm => absurd hm List.not_mem_nil⟩
  | m :: ms, w, h => by
    have hstep : ((w.restore lib m.withoutTexts).isSome ↔ w.node ≠ none ∧ DisplayInRange m) ∧
        ∀ w', w.restore lib m.withoutTexts = some w' → w'.Sound ∧
          w'.left = if lib.addDisplayMetaAtEnd ∧ 2 ≤ w.left then w.left else w.left - 1 := by
      rcases h.restore_cases lib m.withoutTexts with ⟨hnode, hnone⟩ | ⟨d, hnode, hsome, hnext⟩
      · rw [hnone]
        exact ⟨iff_of_false (by simp) fun hc => hc.1 hnode, fun w' hw' => by cases hw'⟩
      · exact ⟨hsome.trans ((restoreDisplay_isSome_iff d m).trans (and_iff_right hnode).symm), hnext⟩
    obtain ⟨hsome, hnext⟩ := hstep
    have hreach : DisplaysReach lib.addDisplayMetaAtEnd w.left (m :: ms).length ↔ w.left ≠ 0 ∧
        DisplaysReach lib.addDisplayMetaAtEnd (if lib.addDisplayMetaAtEnd ∧ 2 ≤ w.left then w.left else w.left - 1) ms.length := by
      unfold DisplaysReach
      rw [List.length_cons]
      split
      · rename_i hc
        exact iff_of_true (.inr hc) ⟨by omega, .inr hc⟩
      · rename_i hno
        have hno' : ¬ (lib.addDisplayMetaAtEnd = true ∧ 2 ≤ w.left - 1) := fun hc => hno ⟨hc.1, by omega⟩
        rw [or_iff_left hno, or_iff_left hno']
        omega
    have hne : w.left ≠ 0 ↔ w.node ≠ none := h.left_eq_zero_iff.not
    rw [List.map_cons, List.foldlM_cons]
    show ((w.restore lib m.withoutTexts).bind fun w' => _).isSome ↔ _
    rw [isSome_bind_of_forall (P := DisplaysReach lib.addDisplayMetaAtEnd (if lib.addDisplayMetaAtEnd ∧ 2 ≤ w.left then w.left else w.left - 1)
      ms.length ∧ ∀ m ∈ ms, DisplayInRange m) fun w' hw' => ?_, hsome, hreach, List.forall_mem_cons, hne]
    · tauto
    · obtain ⟨hsound, hleft⟩ := hnext w' hw'
      rw [← hleft]
      exact foldlM_isSome_iff ms hsound

/-- Where the walk starts. -/
def DisplayWalk.start (displays : List NvDsDisplayMeta) : DisplayWalk :=
  ⟨displays, List.range displays.length, if displays = [] then none else some 0⟩

theorem DisplayWalk.start_sound (displays : List NvDsDisplayMeta) :
    (start displays).Sound ∧ (start displays).left = displays.length := by
  refine ⟨⟨fun i hi => List.mem_range.mp hi, fun k hk => ?_⟩, ?_⟩
  · by_cases hnil : displays = []
    · simp [start, hnil] at hk
    · simp only [start, hnil, ↓reduceIte, Option.mem_some_iff] at hk
      simp only [start, List.length_range]
      exact hk ▸ List.length_pos_iff.mpr hnil
  · unfold DisplayWalk.left
    by_cases hnil : displays = []
    · simp [start, hnil]
    · simp [start, hnil]

theorem restoreDisplays_isSome_iff {lib : NvdsLib} (displays : List NvDsDisplayMeta) (ms : List Dsmeta.Nvdsdisplaymeta) :
    (restoreDisplays lib displays (ms.map Dsmeta.Nvdsdisplaymeta.withoutTexts)).isSome ↔
      DisplaysReach lib.addDisplayMetaAtEnd displays.length ms.length ∧ ∀ m ∈ ms, DisplayInRange m := by
  obtain ⟨hsound, hleft⟩ := DisplayWalk.start_sound displays
  show (((ms.map Dsmeta.Nvdsdisplaymeta.withoutTexts).foldlM (DisplayWalk.restore lib) (.start displays)).bind
    fun _ => some _).isSome ↔ _
  rw [isSome_bind_of_forall (P := True) fun _ _ => by simp, hsound.foldlM_isSome_iff, hleft, and_true]

/-! ### Frames -/

section
variable {lib : NvdsLib}
  (hadd : ∀ frame obj parent, (lib.addObjMetaToFrame frame obj parent).displayMetaList = frame.displayMetaList)
include hadd

theorem restoreFrame_isSome_iff (f : NvDsFrameMeta) (m : Dsmeta.Nvdsframemeta) :
    (restoreFrame lib f m.withoutTexts).isSome ↔ FrameInRange lib.acquireObjMetaFromPool lib.addDisplayMetaAtEnd f m := by
  have hframe : ∀ frame : NvDsFrameMeta, frame.displayMetaList = f.displayMetaList →
      (((restoreObjects lib m.numObjMeta.toNat (m.objMetaList.map Dsmeta.Nvdsobjectmeta.withoutTexts) frame).bind
        fun frame => (restoreDisplays lib frame.displayMetaList
          (m.displayMetaList.map Dsmeta.Nvdsdisplaymeta.withoutTexts)).bind fun displays =>
            some { frame with displayMetaList := displays }).isSome ↔
        (m.numObjMeta.toNat ≤ m.objMetaList.length ∧
          ∀ o ∈ m.objMetaList.take m.numObjMeta.toNat, ObjectInRange lib.acquireObjMetaFromPool o) ∧
        DisplaysReach lib.addDisplayMetaAtEnd f.displayMetaList.length m.displayMetaList.length ∧
          ∀ d ∈ m.displayMetaList, DisplayInRange d) := by
    intro frame hsame
    obtain ⟨hobjects, hkept⟩ := restoreObjects_cases hadd m.numObjMeta.toNat m.objMetaList frame
    rw [isSome_bind_of_forall fun frame' hframe' => ?_, hobjects]
    rw [isSome_bind_of_forall (P := True) fun _ _ => by simp, hkept frame' hframe', hsame, restoreDisplays_isSome_iff,
      and_true]
  show ((restoreFields m.miscFrameInfo).bind fun misc => (restoreFields m.reserve).bind fun reserved =>
    (restoreObjects lib m.numObjMeta.toNat (m.objMetaList.map Dsmeta.Nvdsobjectmeta.withoutTexts) _).bind fun frame =>
      (restoreDisplays lib frame.displayMetaList (m.displayMetaList.map Dsmeta.Nvdsdisplaymeta.withoutTexts)).bind
        fun displays => some { frame with displayMetaList := displays }).isSome ↔ _
  refine (isSome_bind_of_forall fun misc _ => isSome_bind_of_forall fun reserved _ => hframe _ ?_).trans ?_
  · rfl
  rw [restoreFields_isSome_iff, restoreFields_isSome_iff]
  constructor
  · rintro ⟨hm, hr, ⟨hc, ho⟩, hl, hd⟩
    exact ⟨hm, hr, hc, ho, hd, hl⟩
  · rintro ⟨hm, hr, hc, ho, hd, hl⟩
    exact ⟨hm, hr, ⟨hc, ho⟩, hl, hd⟩

theorem restoreFrames_isSome_iff : ∀ (fs : List NvDsFrameMeta) (ms : List Dsmeta.Nvdsframemeta),
    (restoreFrames lib fs (ms.map Dsmeta.Nvdsframemeta.withoutTexts)).isSome ↔
      List.Forall₂ (FrameInRange lib.acquireObjMetaFromPool lib.addDisplayMetaAtEnd) fs (ms.take fs.length)
  | [], _ => iff_of_true rfl .nil
  | f :: fs, [] => iff_of_false (by simp [restoreFrames]) fun h => by cases h
  | f :: fs, m :: ms => by
    show ((restoreFrame lib f m.withoutTexts).bind fun _ =>
      (restoreFrames lib fs (ms.map Dsmeta.Nvdsframemeta.withoutTexts)).bind fun _ => some _).isSome ↔ _
    rw [isSome_bind_of_forall fun _ _ => isSome_bind_of_forall (P := True) fun _ _ => by simp,
      restoreFrame_isSome_iff hadd f m, restoreFrames_isSome_iff fs ms, and_true, List.length_cons, List.take_succ_cons,
      List.forall₂_cons]

end

/-- The search stops at a user meta if there is one. -/
theorem findUserMeta_isSome_iff (metaType : UInt32) : ∀ us : List NvDsUserMeta, (findUserMeta metaType us).isSome ↔ us ≠ []
  | [] => iff_of_false (by simp [findUserMeta]) fun h => h rfl
  | [u] => iff_of_true rfl (List.cons_ne_nil _ _)
  | u :: v :: us => by
    refine iff_of_true ?_ (List.cons_ne_nil _ _)
    unfold findUserMeta
    split
    · rfl
    · exact (findUserMeta_isSome_iff metaType (v :: us)).mpr (List.cons_ne_nil _ _)

/-- Frames keep the lengths of their lists when they are cleared. -/
theorem frameInRange_clearFrame {pool : NvDsObjectMeta} {atEnd : Bool} (f : NvDsFrameMeta) (m : Dsmeta.Nvdsframemeta) :
    FrameInRange pool atEnd (clearFrame f) m ↔ FrameInRange pool atEnd f m := by
  have hlen : (clearFrame f).displayMetaList.length = f.displayMetaList.length := List.length_map _
  constructor
  · rintro ⟨hm, hr, hc, ho, hd, hl⟩
    exact ⟨hm, hr, hc, ho, hd, hlen ▸ hl⟩
  · rintro ⟨hm, hr, hc, ho, hd, hl⟩
    exact ⟨hm, hr, hc, ho, hd, hlen.symm ▸ hl⟩

/-- The deserializer ends and stays within its lists exactly if the lengths of the lists fit. -/
theorem staysInRange_iff {lib : NvdsLib}
    (hadd : ∀ frame obj parent, (lib.addObjMetaToFrame frame obj parent).displayMetaList = frame.displayMetaList)
    (clear : Bool) (batch : NvDsBatchMeta) : StaysInRange lib clear batch ↔ BatchInRange lib batch := by
  let lib' : NvdsLib := { lib with parseFromString := fun payload => (lib.parseFromString payload).withoutTexts }
  have hadd' : ∀ frame obj parent, (lib'.addObjMetaToFrame frame obj parent).displayMetaList =
    frame.displayMetaList := hadd
  let frames := if clear then batch.frameMetaList.map clearFrame else batch.frameMetaList
  have hlen : frames.length = batch.frameMetaList.length := by
    show (if clear then batch.frameMetaList.map clearFrame else batch.frameMetaList).length = _
    split
    · exact List.length_map _
    · rfl
  have hframes : ∀ ms, List.Forall₂ (FrameInRange lib.acquireObjMetaFromPool lib.addDisplayMetaAtEnd) frames ms ↔
      List.Forall₂ (FrameInRange lib.acquireObjMetaFromPool lib.addDisplayMetaAtEnd) batch.frameMetaList ms := by
    intro ms
    show List.Forall₂ _ (if clear then batch.frameMetaList.map clearFrame else batch.frameMetaList) ms ↔ _
    split
    · rw [List.forall₂_map_left_iff]
      simp only [frameInRange_clearFrame]
    · rfl
  have hstays : StaysInRange lib clear batch ↔ ((findUserMeta lib.userCustomMeta batch.batchUserMetaList).bind fun u =>
      if u.baseMeta.metaType = lib.userCustomMeta then
        (restoreFrames lib' frames ((lib.parseFromString u.userMetaData.payload).frameMetaList.map
          Dsmeta.Nvdsframemeta.withoutTexts)).bind fun frames => some { batch with
            maxFramesInBatch := (lib.parseFromString u.userMetaData.payload).maxFramesInBatch
            numFramesInBatch := (lib.parseFromString u.userMetaData.payload).numFramesInBatch
            frameMetaList := frames }
      else some { batch with frameMetaList := frames }).isSome := Iff.rfl
  have hfind := findUserMeta_isSome_iff lib.userCustomMeta batch.batchUserMetaList
  rw [hstays]
  cases hu : findUserMeta lib.userCustomMeta batch.batchUserMetaList with
  | none =>
    rw [hu] at hfind
    exact iff_of_false (by simp) fun h => by simpa using hfind.mpr h.userMeta
  | some u =>
    rw [hu] at hfind
    rw [Option.bind_some]
    have hne := hfind.mp rfl
    split
    · rename_i htype
      rw [isSome_bind_of_forall (P := True) fun _ _ => by simp, and_true,
        restoreFrames_isSome_iff hadd' frames _, hlen]
      refine (hframes _).trans ⟨fun h => ⟨hne, fun v hv _ => ?_⟩, fun h => h.frames u (hu ▸ rfl) htype⟩
      obtain rfl := Option.some.inj (hu.symm.trans hv)
      exact h
    · rename_i htype
      refine iff_of_true rfl ⟨hne, fun v hv hv' => ?_⟩
      obtain rfl := Option.some.inj (hu.symm.trans hv)
      exact absurd hv' htype

/-! ### Deserializing with the texts -/

section
variable {lib : NvdsLib}
  (hadd : ∀ frame obj parent, (lib.addObjMetaToFrame frame obj parent).displayMetaList = frame.displayMetaList)
include hadd

end

/-! ### Payloads of one frame -/

/-- The payload that is made for the objects. -/
def messageOf (objects : List NvDsObjectMeta) (h : (serializeBatch (batchOf objects)).isSome) : Dsmeta.Nvdsbatchmeta :=
  (serializeBatch (batchOf objects)).get h

/-- A batch with frames that have no objects, which the payload has arrived with. -/
def receiver (frames : List NvDsFrameMeta) (wire : Bytes) : NvDsBatchMeta :=
  { batchOf [] with frameMetaList := frames, batchUserMetaList := [⟨⟨0x10000000⟩, setMetadataPtr wire⟩] }

theorem staysInRange_car : StaysInRange (libFor carWire (messageOf [car] rfl)) false (receiver [frameOf []] carWire) := by
  refine (staysInRange_iff (fun _ _ _ => rfl) false _).mpr
    ⟨List.cons_ne_nil _ _, fun u hu _ => ?_⟩
  refine .cons ⟨le_rfl, le_rfl, le_rfl, fun o ho => ?_, fun d hd => absurd hd List.not_mem_nil, .inl le_rfl⟩ .nil
  obtain rfl := List.mem_singleton.mp ho
  exact ⟨.inl rfl, le_rfl, le_rfl, fun c hc => absurd hc List.not_mem_nil⟩

/-- The list of classifier metas of an object from the pool is empty, and is walked for the classifier of the
payload; with a list that is not empty the loop over the labels does not end; and a second frame reads behind the
frames of the payload. -/
theorem classifier_outOfRange : serializeBatch (batchOf [redCar]) = some (messageOf [redCar] rfl) ∧
    ¬ StaysInRange (libFor redCarWire (messageOf [redCar] rfl)) false (receiver [frameOf []] redCarWire) ∧
    ¬ StaysInRange { libFor redCarWire (messageOf [redCar] rfl) with acquireObjMetaFromPool := redCar } false
      (receiver [frameOf []] redCarWire) ∧
    serializeBatch (batchOf [car]) = some (messageOf [car] rfl) ∧
    ¬ StaysInRange (libFor carWire (messageOf [car] rfl)) false (receiver [frameOf [], frameOf []] carWire) := by
  have hnone : ¬ (none : Option NvDsBatchMeta).isSome = true := by decide
  exact ⟨rfl, fun h => hnone h, fun h => hnone h, rfl, fun h => hnone h⟩

end MetaUtils
end DeepStream
