/-
# When the metadata of a batch survives the round trip

The receiving batch is empty: its frames, if it has any, carry no object and no
display metas. The round trip gives back what the schema carries exactly if the
receiving batch has a frame for each frame, and no frame has a display meta, a
count that is not the number of its objects, or an object that loses something:
its parent, the flag for the background of its text, its reserved numbers, its
mask, its classifiers (for which no meta is ever acquired), its text (whose
buffer is one byte short) or a font name that the font size does not fit.
-/
import DeepStream.MetaUtils.Serialization

namespace DeepStream
namespace MetaUtils

/-! ### What the code relies on -/

/-- An object meta from the pool. -/
structure NvDsObjectMeta.Blank (o : NvDsObjectMeta) : Prop where
  displayText : o.textParams.displayText = none
  fontName : o.textParams.fontParams.fontName = none
  maskData : o.maskParams.data = none
  classifiers : o.classifierMetaList = []
  reserved : o.reserved = .replicate _ 0

/-- The pool hands out blank metas; adding an object stores the parent, links
the object behind the others and counts it. -/
structure NvdsLib.Documented (lib : NvdsLib) : Prop where
  blank : lib.acquireObjMetaFromPool.Blank
  add : ∀ frame obj parent, lib.addObjMetaToFrame frame obj parent = { frame with
    objMetaList := frame.objMetaList ++ [{ obj with parent := parent }]
    numObjMeta := frame.numObjMeta + 1 }

/-- Protobuf gives the message back; its messages are smaller than 2 GiB. -/
structure NvdsLib.Carries (lib : NvdsLib) (m : Dsmeta.Nvdsbatchmeta) : Prop where
  parse : lib.parseFromString (lib.serializeToString m) = m
  length : (lib.serializeToString m).length < 2 ^ 31

/-! ### The round trip -/

def NvDsFrameMeta.Empty (f : NvDsFrameMeta) : Prop := f.objMetaList = [] ∧ f.displayMetaList = []

/-- The two frames agree in every field of the schema, their lists in the same
order, and in the parent links. -/
def SameFrame (f g : NvDsFrameMeta) : Prop :=
  (∃ m, f.toMsg = some m ∧ g.toMsg = some m) ∧ f.objMetaList.map (·.parent) = g.objMetaList.map (·.parent)

/-- The payload made for `src` is read into `dst`. -/
def RoundTrip (lib : NvdsLib) (clear : Bool) (src dst : NvDsBatchMeta) : Prop :=
  ∃ sent userMeta restored, serializeData lib src = some (sent, userMeta) ∧
    deserializeData lib clear { dst with batchUserMetaList := [userMeta] } = some restored ∧
    List.Forall₂ SameFrame src.frameMetaList restored.frameMetaList

/-- The object loses nothing. -/
structure NvDsObjectMeta.Restorable (o : NvDsObjectMeta) : Prop where
  parent : o.parent = none
  rectReserved : o.rectParams.reserved = 0
  mask : o.maskParams.size = 0
  displayText : o.textParams.displayText.read = some []
  fontName : ∃ name, o.textParams.fontParams.fontName.read = some name ∧
    if name = [] then o.textParams.fontParams.fontSize = 0
    else name.length < o.textParams.fontParams.fontSize.toNat
  setBgClr : o.textParams.setBgClr = 0
  classifiers : o.classifierMetaList = []
  reserved : o.reserved = .replicate _ 0

/-- The frame `f` loses nothing when it is read into `g`. -/
structure NvDsFrameMeta.Restorable (f g : NvDsFrameMeta) : Prop where
  baseMeta : g.baseMeta = f.baseMeta
  reserved : f.reserved = serializedReserved
  numObjMeta : f.numObjMeta.toNat = f.objMetaList.length
  objects : ∀ o ∈ f.objMetaList, o.Restorable
  displays : f.displayMetaList = []

/-! ### Texts -/

theorem cStr_eq {s : Bytes} (h : (0 : UInt8) ∉ s) : cStr s = ⟨s, h⟩ := by
  have htake : s.takeWhile (· != 0) = s := List.takeWhile_eq_self_iff.mpr fun c hc => by
    simp only [bne_iff_ne, ne_eq]
    rintro rfl
    exact h hc
  exact Subtype.ext htake

theorem CharPtr.read_noNul {p : CharPtr} {s : Bytes} (h : p.read = some s) : (0 : UInt8) ∉ s := by
  cases p with
  | none =>
    obtain rfl := Option.some.inj h
    simp
  | some buffer =>
    obtain ⟨t, -, rfl⟩ := Option.map_eq_some_iff.mp h
    exact t.property

theorem read_gMalloc (size : ℕ) : (gMalloc size).read = if size = 0 then some [] else none := by
  unfold gMalloc
  split <;> rfl

/-- Into a NULL pointer: an empty text leaves the buffer unwritten, any other one
needs a byte more than its length. -/
theorem restoreString_read {p : CharPtr} {s : Bytes} (h : p.read = some s) (size : ℕ) :
    (∃ p', restoreString none size s = some p' ∧ p'.read = some s) ↔
      if s = [] then size = 0 else s.length < size := by
  unfold restoreString
  by_cases hs : s = []
  · subst hs
    simp [read_gMalloc]
  · rw [if_pos rfl, if_neg hs, if_neg hs, cStr_eq (CharPtr.read_noNul h)]
    unfold gMalloc
    by_cases h0 : size = 0
    · simp [h0, CharPtr.strcpy]
    · by_cases hlt : s.length < size
      · simp [h0, hlt, CharPtr.strcpy, CharPtr.read]
      · simp [h0, hlt, CharPtr.strcpy]

theorem strncpy_cStr (l : Label) : strncpy (cStr l.val.val) = l := by
  rw [cStr_eq l.val.property]
  apply Subtype.ext
  apply Subtype.ext
  have hlt : l.val.val.length < 128 := l.property
  exact List.take_of_length_le (by simp only [maxLabelSize]; omega)

/-! ### Numbers, rectangles and masks -/

theorem restoreBbox_toMsg (b : NvDsCompBboxInfo) : restoreBbox b.toMsg = b := rfl

theorem restoreRect_osdrectp (r : NvOSDRectParams) : restoreRect (osdrectp r) = { r with reserved := 0 } := rfl

theorem restoreFields_toList {n : ℕ} (v : List.Vector Int64 n) : restoreFields v.toList = some v := by
  have hlen := v.toList_length
  unfold restoreFields
  rw [dif_pos (by omega)]
  exact congrArg some (List.Vector.eq _ _ (List.take_of_length_le (by omega)))

/-- Without a mask buffer only nothing can be written. -/
theorem writeData_none {src : List FloatBits} {n : ℕ} {data : Option (List FloatBits)} :
    writeData src n none = some data ↔ n = 0 ∧ data = none := by
  cases n with
  | zero => simp [writeData, eq_comm]
  | succ n =>
    rw [writeData, List.range_succ_eq_map, List.foldlM_cons]
    simp

theorem rect_iff (r : NvOSDRectParams) : (restoreRect (osdrectp r)).toMsg = r.toMsg ↔ r.reserved = 0 := by
  rw [restoreRect_osdrectp]
  simp only [NvOSDRectParams.toMsg, Dsmeta.Nvosdrectparams.mk.injEq, true_and, and_true]
  exact eq_comm

theorem mask_iff {blank : NvOSDMaskParams} (hb : blank.data = none) (p : NvOSDMaskParams) :
    (∃ m p', osdmaskp p = some m ∧ restoreMask blank m = some p' ∧ p'.toMsg = p.toMsg) ↔ p.size = 0 := by
  constructor
  · rintro ⟨m, p', hm, hp, -⟩
    obtain ⟨data, -, rfl⟩ := Option.map_eq_some_iff.mp hm
    simp only [restoreMask, hb, Option.bind_eq_bind, Option.bind_eq_some_iff] at hp
    obtain ⟨_, hw, -⟩ := hp
    exact UInt32.toNat_inj.mp (writeData_none.mp hw).1
  · intro hsize
    refine ⟨{ p.toMsg with data := [] }, ⟨none, p.size, p.threshold, p.width, p.height⟩, ?_, ?_, ?_⟩
    · rw [osdmaskp, hsize]
      rfl
    · rw [restoreMask, hb]
      simp only [NvOSDMaskParams.toMsg, hsize]
      rfl
    · simp [NvOSDMaskParams.toMsg, hsize]

/-! ### Texts of objects -/

/-- The text is empty, the font name fits into as many bytes as the font is large. -/
structure NvOSDTextParams.Restorable (t : NvOSDTextParams) : Prop where
  displayText : t.displayText.read = some []
  fontName : ∃ name, t.fontParams.fontName.read = some name ∧
    if name = [] then t.fontParams.fontSize = 0 else name.length < t.fontParams.fontSize.toNat
  setBgClr : t.setBgClr = 0

theorem toMsg_text_eq_some {t : NvOSDTextParams} {v : Dsmeta.Nvosdtextparams} : t.toMsg = some v ↔
    t.displayText.read = some v.displayText ∧ t.fontParams.fontName.read = some v.fontParams.fontName ∧
      v = ⟨v.displayText, t.xOffset, t.yOffset,
        ⟨v.fontParams.fontName, t.fontParams.fontSize, t.fontParams.fontColor.toMsg⟩, t.setBgClr,
        t.textBgClr.toMsg⟩ := by
  simp only [NvOSDTextParams.toMsg, NvOSDFontParams.toMsg, Option.bind_eq_bind, Option.bind_eq_some_iff,
    Option.map_eq_some_iff, Option.pure_def, Option.some.injEq]
  constructor
  · rintro ⟨text, ht, _, ⟨name, hn, rfl⟩, rfl⟩
    exact ⟨ht, hn, rfl⟩
  · rintro ⟨ht, hn, hv⟩
    exact ⟨_, ht, _, ⟨_, hn, rfl⟩, hv.symm⟩

theorem text_iff {blank : NvOSDTextParams} (hd : blank.displayText = none) (hf : blank.fontParams.fontName = none)
    (t : NvOSDTextParams) : (∃ m t' v, osdtextp t = some m ∧ restoreText blank m = some t' ∧
      t.toMsg = some v ∧ t'.toMsg = some v) ↔ t.Restorable := by
  constructor
  · rintro ⟨m, t', v, hm, ht, hv, hv'⟩
    rw [osdtextp, hv] at hm
    obtain rfl := Option.some.inj hm
    obtain ⟨htext, hname, hve⟩ := toMsg_text_eq_some.mp hv
    simp only [restoreText, hd, hf, Option.bind_eq_bind, Option.bind_eq_some_iff, Option.pure_def,
      Option.some.injEq] at ht
    obtain ⟨p, hp, q, hq, rfl⟩ := ht
    obtain ⟨htext', hname', hve'⟩ := toMsg_text_eq_some.mp hv'
    have hfit := (restoreString_read htext _).mp ⟨p, hp, htext'⟩
    have hfont := (restoreString_read hname _).mp ⟨q, hq, hname'⟩
    have hsize : v.fontParams.fontSize = t.fontParams.fontSize := by rw [hve]
    have hempty : v.displayText = [] := by
      by_contra hne
      rw [if_neg hne] at hfit
      omega
    refine ⟨by rw [htext, hempty], ⟨_, hname, ?_⟩, ?_⟩
    · rw [hsize] at hfont
      split at hfont
      · rw [if_pos (by assumption)]
        exact UInt32.toNat_inj.mp hfont
      · rwa [if_neg (by assumption)]
    · have h₁ : v.setBgClr = t.setBgClr := by rw [hve]
      have h₂ : v.setBgClr = 0 := by rw [hve']
      rw [← h₁, h₂]
  · rintro ⟨htext, ⟨name, hname, hfit⟩, hbg⟩
    let v : Dsmeta.Nvosdtextparams := ⟨[], t.xOffset, t.yOffset,
      ⟨name, t.fontParams.fontSize, t.fontParams.fontColor.toMsg⟩, t.setBgClr, t.textBgClr.toMsg⟩
    have hv : t.toMsg = some v := toMsg_text_eq_some.mpr ⟨htext, hname, rfl⟩
    have hroom : if name = [] then t.fontParams.fontSize.toNat = 0
        else name.length < t.fontParams.fontSize.toNat := by
      split at hfit
      · rw [if_pos (by assumption), hfit]
        rfl
      · rwa [if_neg (by assumption)]
    obtain ⟨q, hq, hname'⟩ := (restoreString_read hname _).mpr hroom
    refine ⟨{ v with setBgClr := 0 }, ⟨none, t.xOffset, t.yOffset,
      ⟨q, t.fontParams.fontSize, t.fontParams.fontColor⟩, 0, t.textBgClr⟩, v, ?_, ?_, hv, ?_⟩
    · rw [osdtextp, hv]
      rfl
    · simp only [restoreText, hd, hf, v, hq]
      rfl
    · exact toMsg_text_eq_some.mpr ⟨rfl, hname', by simp only [v, hbg]⟩

/-! ### Objects -/

theorem mapM_eq_some_nil {α β : Type} {f : α → Option β} {l : List α} (h : l.mapM f = some []) : l = [] := by
  cases l with
  | nil => rfl
  | cons a l => simp [List.mapM_cons, Option.bind_eq_some_iff] at h

/-- An object is restored without loss, up to its parent. -/
def NvDsObjectMeta.Restored (blank o : NvDsObjectMeta) : Prop :=
  ∃ m o' v, serializeObject o = some m ∧ restoreObject blank m = some o' ∧ o.toMsg = some v ∧ o'.toMsg = some v

theorem object_iff {blank : NvDsObjectMeta} (hb : blank.Blank) (o : NvDsObjectMeta) :
    o.parent = none ∧ NvDsObjectMeta.Restored blank o ↔ o.Restorable := by
  constructor
  · rintro ⟨hparent, m, o', v, hm, ho, hv, hv'⟩
    simp only [serializeObject, Option.bind_eq_bind, Option.bind_eq_some_iff, Option.pure_def,
      Option.some.injEq] at hm
    obtain ⟨mask, hmask, text, htext, classifiers, hcls, rfl⟩ := hm
    simp only [restoreObject, hb.classifiers, Option.bind_eq_bind, Option.bind_eq_some_iff, Option.pure_def,
      Option.some.injEq] at ho
    obtain ⟨mask', hmask', text', htext', misc, -, classifiers', hcls', rfl⟩ := ho
    simp only [NvDsObjectMeta.toMsg, Option.bind_eq_bind, Option.bind_eq_some_iff, Option.pure_def,
      Option.some.injEq] at hv hv'
    obtain ⟨tv, htv, cv, hcv, rfl⟩ := hv
    obtain ⟨tv', htv', cv', hcv', heq⟩ := hv'
    simp only [Dsmeta.Nvdsobjectmeta.mk.injEq] at heq
    obtain ⟨-, -, -, -, -, -, -, -, hrect, hmeq, rfl, -, -, -, hres⟩ := heq
    have ht := (text_iff hb.displayText hb.fontName o.textParams).mp ⟨text, text', tv', htext, htext', htv, htv'⟩
    refine ⟨hparent, (rect_iff _).mp hrect, (mask_iff hb.maskData _).mp ⟨mask, mask', hmask, hmask', hmeq⟩,
      ht.displayText, ht.fontName, ht.setBgClr, ?_, ?_⟩
    · cases classifiers with
      | nil => exact mapM_eq_some_nil hcls
      | cons c cs => simp [restoreEach] at hcls'
    · rw [hb.reserved] at hres
      exact (List.Vector.eq _ _ hres).symm
  · intro h
    obtain ⟨mask, mask', hmask, hmask', hmeq⟩ := (mask_iff hb.maskData o.maskParams).mpr h.mask
    obtain ⟨text, text', tv, htext, htext', htv, htv'⟩ :=
      (text_iff hb.displayText hb.fontName o.textParams).mpr ⟨h.displayText, h.fontName, h.setBgClr⟩
    let v : Dsmeta.Nvdsobjectmeta := ⟨o.baseMeta.toMsg, o.uniqueComponentId, o.classId, o.objectId,
      o.detectorBboxInfo.toMsg, o.trackerBboxInfo.toMsg, o.confidence, o.trackerConfidence, o.rectParams.toMsg,
      o.maskParams.toMsg, tv, o.objLabel.val.val, [], o.miscObjInfo.toList, o.reserved.toList⟩
    let m : Dsmeta.Nvdsobjectmeta :=
      { v with rectParams := osdrectp o.rectParams, maskParams := mask, textParams := text }
    have hv : o.toMsg = some v := by
      simp only [NvDsObjectMeta.toMsg, htv, h.classifiers]
      rfl
    have hm : serializeObject o = some m := by
      simp only [serializeObject, hmask, htext, h.classifiers]
      rfl
    have ho : restoreObject blank m = some { o with
        parent := blank.parent
        rectParams := restoreRect (osdrectp o.rectParams)
        maskParams := mask'
        textParams := text' } := by
      simp only [restoreObject, m, v, hmask', htext', restoreFields_toList, hb.classifiers, hb.reserved,
        h.classifiers, h.reserved, strncpy_cStr, restoreBbox_toMsg]
      rfl
    refine ⟨h.parent, m, _, v, hm, ho, hv, ?_⟩
    simp only [NvDsObjectMeta.toMsg, htv', hmeq, (rect_iff _).mpr h.rectReserved, h.classifiers]
    rfl

/-! ### Object lists -/

theorem objects_iff {blank : NvDsObjectMeta} (hb : blank.Blank) : ∀ os : List NvDsObjectMeta,
    (∃ ms os' vs, os.mapM serializeObject = some ms ∧ ms.mapM (restoreObject blank) = some os' ∧
      os.mapM (·.toMsg) = some vs ∧ os'.mapM (·.toMsg) = some vs ∧ os.map (·.parent) = os'.map fun _ => none) ↔
      ∀ o ∈ os, o.Restorable
  | [] => by simp
  | o :: os => by
    rw [List.forall_mem_cons, ← object_iff hb o, ← objects_iff hb os]
    constructor
    · rintro ⟨ms, os', vs, hm, ho, hv, hv', hp⟩
      simp only [List.mapM_cons, Option.bind_eq_bind, Option.bind_eq_some_iff, Option.pure_def,
        Option.some.injEq] at hm hv
      obtain ⟨m, hm, ms, hms, rfl⟩ := hm
      obtain ⟨v, hv, vs, hvs, rfl⟩ := hv
      simp only [List.mapM_cons, Option.bind_eq_bind, Option.bind_eq_some_iff, Option.pure_def,
        Option.some.injEq] at ho
      obtain ⟨o', ho, os', hos, rfl⟩ := ho
      simp only [List.mapM_cons, Option.bind_eq_bind, Option.bind_eq_some_iff, Option.pure_def,
        Option.some.injEq, List.cons.injEq] at hv'
      obtain ⟨v', hv', vs', hvs', rfl, rfl⟩ := hv'
      simp only [List.map_cons, List.cons.injEq] at hp
      exact ⟨⟨hp.1, m, o', v', hm, ho, hv, hv'⟩, ms, os', vs', hms, hos, hvs, hvs', hp.2⟩
    · rintro ⟨⟨hp, m, o', v, hm, ho, hv, hv'⟩, ms, os', vs, hms, hos, hvs, hvs', hps⟩
      refine ⟨m :: ms, o' :: os', v :: vs, ?_, ?_, ?_, ?_, ?_⟩
      · simp [List.mapM_cons, hm, hms]
      · simp [List.mapM_cons, ho, hos]
      · simp [List.mapM_cons, hv, hvs]
      · simp [List.mapM_cons, hv', hvs']
      · simp [hp, hps]

/-- The loop fills a meta for each of the first `n` messages and adds them in order. -/
theorem restoreObjects_eq_some {lib : NvdsLib} (hl : lib.Documented) : ∀ {n : ℕ} {ms : List Dsmeta.Nvdsobjectmeta}
    {frame frame' : NvDsFrameMeta}, restoreObjects lib n ms frame = some frame' ↔
      ∃ os, n ≤ ms.length ∧ (ms.take n).mapM (restoreObject lib.acquireObjMetaFromPool) = some os ∧
        frame' = { frame with
          objMetaList := frame.objMetaList ++ os.map fun o => { o with parent := none }
          numObjMeta := frame.numObjMeta + UInt32.ofNat n }
  | 0, ms, frame, frame' => by
    constructor
    · rintro h
      obtain rfl := Option.some.inj h
      exact ⟨[], Nat.zero_le _, rfl, by simp⟩
    · rintro ⟨os, -, hos, rfl⟩
      obtain rfl := Option.some.inj hos
      simp [restoreObjects]
  | n + 1, [], frame, frame' => by simp [restoreObjects]
  | n + 1, m :: ms, frame, frame' => by
    simp only [restoreObjects, Option.bind_eq_bind, Option.bind_eq_some_iff, restoreObjects_eq_some hl (n := n),
      List.take_succ_cons, List.mapM_cons, Option.pure_def, Option.some.injEq, List.length_cons, hl.add]
    have hcount : frame.numObjMeta + 1 + UInt32.ofNat n = frame.numObjMeta + UInt32.ofNat (n + 1) := by
      rw [UInt32.add_assoc, UInt32.ofNat_add, UInt32.add_comm 1]
      rfl
    constructor
    · rintro ⟨o, ho, os, hn, hos, rfl⟩
      refine ⟨o :: os, by omega, ⟨o, ho, os, hos, rfl⟩, ?_⟩
      simp [hcount]
    · rintro ⟨_, hn, ⟨o, ho, os, hos, rfl⟩, rfl⟩
      refine ⟨o, ho, os, by omega, hos, ?_⟩
      simp [hcount]

/-! ### Frames -/

theorem restoreDisplays_nil {lib : NvdsLib} {ms : List Dsmeta.Nvdsdisplaymeta} {ds : List NvDsDisplayMeta} :
    restoreDisplays lib [] ms = some ds ↔ ms = [] ∧ ds = [] := by
  cases ms with
  | nil => simp [restoreDisplays, eq_comm]
  | cons m ms => simp [restoreDisplays, DisplayWalk.restore]

theorem length_of_mapM {α β : Type} {f : α → Option β} : ∀ {l : List α} {l' : List β},
    l.mapM f = some l' → l'.length = l.length
  | [], _, h => by
    obtain rfl := Option.some.inj h
    rfl
  | a :: l, l', h => by
    simp only [List.mapM_cons, Option.bind_eq_bind, Option.bind_eq_some_iff, Option.pure_def,
      Option.some.injEq] at h
    obtain ⟨b, -, bs, hb, rfl⟩ := h
    simp [length_of_mapM hb]

/-- What is read of an object does not depend on its parent. -/
theorem mapM_toMsg_parent (os : List NvDsObjectMeta) :
    (os.map fun o => { o with parent := none }).mapM (·.toMsg) = os.mapM (·.toMsg) := by
  rw [List.mapM_map]
  rfl

theorem frame_iff {lib : NvdsLib} (hl : lib.Documented) {f g : NvDsFrameMeta} (hg : g.Empty) :
    (∃ m g', serializeFrame f = some m ∧ restoreFrame lib g m = some g' ∧ SameFrame f g') ↔ f.Restorable g := by
  constructor
  · rintro ⟨m, g', hm, hr, ⟨v, hv, hv'⟩, hp⟩
    simp only [serializeFrame, Option.bind_eq_bind, Option.bind_eq_some_iff, Option.pure_def,
      Option.some.injEq] at hm
    obtain ⟨ms, hms, ds, hds, rfl⟩ := hm
    simp only [restoreFrame, restoreFields_toList, Option.bind_eq_bind, Option.bind_eq_some_iff,
      Option.some.injEq, Option.pure_def, exists_eq_left', restoreObjects_eq_some hl, hg.1, List.nil_append] at hr
    obtain ⟨_, ⟨os, hn, hos, rfl⟩, ds', hds', rfl⟩ := hr
    rw [hg.2] at hds'
    obtain ⟨rfl, rfl⟩ := restoreDisplays_nil.mp hds'
    simp only [NvDsFrameMeta.toMsg, mapM_toMsg_parent, Option.bind_eq_bind, Option.bind_eq_some_iff,
      Option.pure_def, Option.some.injEq] at hv hv'
    obtain ⟨vs, hvs, _, -, rfl⟩ := hv
    obtain ⟨vs', hvs', _, -, heq⟩ := hv'
    simp only [Dsmeta.Nvdsframemeta.mk.injEq] at heq
    obtain ⟨hbase, -, -, -, -, -, -, -, -, -, -, -, -, -, rfl, -, -, -, -, hres⟩ := heq
    -- as many objects were restored as there were, so the count is right
    have hlen : f.numObjMeta.toNat = f.objMetaList.length := by
      have h₁ := length_of_mapM hvs
      have h₂ := length_of_mapM hvs'
      have h₃ := length_of_mapM hos
      rw [List.length_take] at h₃
      omega
    have hall : ms.take f.numObjMeta.toNat = ms := by
      rw [hlen, ← length_of_mapM hms]
      exact List.take_length
    rw [hall] at hos
    refine ⟨?_, (List.Vector.eq _ _ hres).symm, hlen, ?_, mapM_eq_some_nil hds⟩
    · have hmeta : g.baseMeta.metaType = f.baseMeta.metaType := congrArg (·.metaType) hbase
      exact congrArg NvDsBaseMeta.mk hmeta
    · rw [List.map_map] at hp
      exact (objects_iff hl.blank _).mp ⟨ms, os, vs', hms, hos, hvs, hvs', hp⟩
  · intro h
    obtain ⟨ms, os, vs, hms, hos, hvs, hvs', hp⟩ := (objects_iff hl.blank _).mpr h.objects
    have hall : ms.take f.numObjMeta.toNat = ms := by
      rw [h.numObjMeta, ← length_of_mapM hms]
      exact List.take_length
    let v : Dsmeta.Nvdsframemeta := ⟨f.baseMeta.toMsg, f.padIndex, f.batchId, f.frameNum, f.bufPts,
      f.ntpTimestamp, f.sourceId, f.numSurfacesPerFrame, f.sourceFrameWidth, f.sourceFrameHeight, f.surfaceType,
      f.surfaceIndex, f.numObjMeta, f.bInferDone, vs, [], f.miscFrameInfo.toList, f.pipelineWidth,
      f.pipelineHeight, f.reserved.toList⟩
    have hv : f.toMsg = some v := by
      simp only [NvDsFrameMeta.toMsg, hvs, h.displays]
      rfl
    have hm : serializeFrame f = some { v with objMetaList := ms } := by
      simp only [serializeFrame, hms, h.displays, v, h.reserved]
      rfl
    let g' : NvDsFrameMeta := { f with objMetaList := os.map fun o => { o with parent := none } }
    have hobjects (frame : NvDsFrameMeta) : restoreObjects lib f.numObjMeta.toNat ms frame = some { frame with
        objMetaList := frame.objMetaList ++ os.map fun o => { o with parent := none }
        numObjMeta := frame.numObjMeta + UInt32.ofNat f.numObjMeta.toNat } :=
      (restoreObjects_eq_some hl).mpr
        ⟨os, by rw [h.numObjMeta, length_of_mapM hms], by rw [hall, hos], rfl⟩
    have hr : restoreFrame lib g { v with objMetaList := ms } = some g' := by
      simp only [restoreFrame, v, restoreFields_toList, Option.bind_eq_bind, Option.bind_some, hobjects,
        hg.1, hg.2, restoreDisplays_nil.mpr ⟨rfl, rfl⟩, h.baseMeta, g', h.displays]
      simp
    refine ⟨_, g', hm, hr, ⟨v, hv, ?_⟩, ?_⟩
    · simp only [NvDsFrameMeta.toMsg, g', mapM_toMsg_parent, hvs', h.displays]
      rfl
    · simp only [g', List.map_map]
      exact hp

/-! ### Batches -/

/-- A list is restored as its elements are, each from the message at its place,
and only into as many. -/
theorem inPlace_iff {α β : Type} {serialize : α → Option β} {restore : α → β → Option α} {Same R : α → α → Prop}
    (restoreAll : List α → List β → Option (List α)) (Fits : α → Prop)
    (hnil : ∀ ms, restoreAll [] ms = some [])
    (hcons : ∀ g gs m ms, restoreAll (g :: gs) (m :: ms) =
      (restore g m).bind fun g' => (restoreAll gs ms).bind fun gs' => some (g' :: gs'))
    (hshort : ∀ g gs, restoreAll (g :: gs) [] = none)
    (h : ∀ f g, Fits g → ((∃ m g', serialize f = some m ∧ restore g m = some g' ∧ Same f g') ↔ R f g)) :
    ∀ {fs gs : List α}, (∀ g ∈ gs, Fits g) →
      ((∃ ms gs', fs.mapM serialize = some ms ∧ restoreAll gs ms = some gs' ∧ List.Forall₂ Same fs gs') ↔
        List.Forall₂ R fs gs)
  | [], [], _ => by simp [hnil]
  | [], g :: gs, _ => by simp [hshort]
  | f :: fs, [], _ => by simp [hnil]
  | f :: fs, g :: gs, hg => by
    obtain ⟨hg, hgs⟩ := List.forall_mem_cons.mp hg
    rw [List.forall₂_cons, ← h f g hg, ← inPlace_iff restoreAll Fits hnil hcons hshort h hgs]
    constructor
    · rintro ⟨_, _, hm, hr, hsame⟩
      simp only [List.mapM_cons, Option.bind_eq_bind, Option.bind_eq_some_iff, Option.pure_def,
        Option.some.injEq] at hm
      obtain ⟨m, hm, ms, hms, rfl⟩ := hm
      simp only [hcons, Option.bind_eq_some_iff, Option.some.injEq] at hr
      obtain ⟨g', hr, gs', hrs, rfl⟩ := hr
      obtain ⟨h, hs⟩ := List.forall₂_cons.mp hsame
      exact ⟨⟨m, g', hm, hr, h⟩, ms, gs', hms, hrs, hs⟩
    · rintro ⟨⟨m, g', hm, hr, h⟩, ms, gs', hms, hrs, hs⟩
      refine ⟨m :: ms, g' :: gs', ?_, ?_, .cons h hs⟩
      · simp [List.mapM_cons, hm, hms]
      · simp [hcons, hr, hrs]

theorem frames_iff {lib : NvdsLib} (hl : lib.Documented) {fs gs : List NvDsFrameMeta} (hg : ∀ g ∈ gs, g.Empty) :
    (∃ ms gs', fs.mapM serializeFrame = some ms ∧ restoreFrames lib gs ms = some gs' ∧
      List.Forall₂ SameFrame fs gs') ↔ List.Forall₂ NvDsFrameMeta.Restorable fs gs :=
  inPlace_iff (restoreFrames lib) NvDsFrameMeta.Empty (fun _ => rfl) (fun _ _ _ _ => rfl) (fun _ _ => rfl)
    (fun _ _ hg => frame_iff hl hg) hg

/-- The size of the payload does not wrap around. -/
theorem take_memSize {mem : Bytes} (h : mem.length < 2 ^ 31) : mem.take (UInt32.ofNat mem.length).toNat = mem := by
  have hsize : (UInt32.ofNat mem.length).toNat = mem.length := UInt32.toNat_ofNat_of_lt' (by
    simp only [UInt32.size]
    omega)
  rw [hsize, List.take_length]

/-- Clearing takes nothing from an empty frame that the deserializer leaves. -/
theorem clearFrame_empty {f : NvDsFrameMeta} (h : f.Empty) : (clearFrame f).Empty := by
  simp [NvDsFrameMeta.Empty, clearFrame, h.1, h.2]

theorem restorable_clearFrame (f g : NvDsFrameMeta) : f.Restorable (clearFrame g) ↔ f.Restorable g :=
  ⟨fun h => ⟨h.baseMeta, h.reserved, h.numObjMeta, h.objects, h.displays⟩,
    fun h => ⟨h.baseMeta, h.reserved, h.numObjMeta, h.objects, h.displays⟩⟩

/-- **The round trip gives back what the schema carries exactly if nothing has
to be restored that the deserializer loses**, for every batch and every empty
receiving batch. -/
theorem roundTrip_iff {lib : NvdsLib} (hl : lib.Documented) (clear : Bool) (src dst : NvDsBatchMeta)
    (hc : ∀ m, serializeBatch src = some m → lib.Carries m) (hd : ∀ g ∈ dst.frameMetaList, g.Empty) :
    RoundTrip lib clear src dst ↔
      List.Forall₂ NvDsFrameMeta.Restorable src.frameMetaList dst.frameMetaList := by
  let frames := if clear then dst.frameMetaList.map clearFrame else dst.frameMetaList
  have hempty : ∀ g ∈ frames, g.Empty := by
    cases clear with
    | false => exact hd
    | true => exact List.forall_mem_map.mpr fun g hg => clearFrame_empty (hd g hg)
  have hframes : List.Forall₂ NvDsFrameMeta.Restorable src.frameMetaList frames ↔
      List.Forall₂ NvDsFrameMeta.Restorable src.frameMetaList dst.frameMetaList := by
    cases clear with
    | false => exact Iff.rfl
    | true =>
      show List.Forall₂ _ _ (dst.frameMetaList.map clearFrame) ↔ _
      simp only [List.forall₂_map_right_iff, restorable_clearFrame]
  rw [← hframes, ← frames_iff hl hempty]
  have hread {m : Dsmeta.Nvdsbatchmeta} (hm : serializeBatch src = some m) :
      lib.parseFromString (setMetadataPtr (lib.serializeToString m)).payload = m :=
    (congrArg lib.parseFromString (take_memSize (hc m hm).length)).trans (hc m hm).parse
  constructor
  · rintro ⟨sent, userMeta, restored, hs, hr, hsame⟩
    simp only [serializeData, Option.bind_eq_bind, Option.bind_eq_some_iff, Option.pure_def, Option.some.injEq,
      Prod.mk.injEq] at hs
    obtain ⟨m, hm, -, rfl⟩ := hs
    simp only [deserializeData, findUserMeta, Option.bind_eq_bind, Option.bind_some, ↓reduceIte,
      hread hm, Option.bind_eq_some_iff, Option.pure_def, Option.some.injEq] at hr
    obtain ⟨gs', hgs, rfl⟩ := hr
    simp only [serializeBatch, Option.bind_eq_bind, Option.bind_eq_some_iff, Option.pure_def,
      Option.some.injEq] at hm
    obtain ⟨ms, hms, rfl⟩ := hm
    exact ⟨ms, gs', hms, hgs, hsame⟩
  · rintro ⟨ms, gs', hms, hgs, hsame⟩
    let m : Dsmeta.Nvdsbatchmeta :=
      ⟨⟨0⟩, src.maxFramesInBatch, src.numFramesInBatch, ms, src.miscBatchInfo.toList, []⟩
    let userMeta : NvDsUserMeta := ⟨⟨lib.userCustomMeta⟩, setMetadataPtr (lib.serializeToString m)⟩
    have hm : serializeBatch src = some m := by
      simp only [serializeBatch, hms]
      rfl
    refine ⟨{ src with frameMetaList := src.frameMetaList.map fun f => { f with reserved := serializedReserved } },
      userMeta, { dst with
        maxFramesInBatch := src.maxFramesInBatch
        numFramesInBatch := src.numFramesInBatch
        frameMetaList := gs'
        batchUserMetaList := [userMeta] }, ?_, ?_, hsame⟩
    · rw [serializeData, hm]
      rfl
    · have hf : restoreFrames lib frames m.frameMetaList = some gs' := hgs
      simp only [deserializeData, findUserMeta, Option.bind_eq_bind, Option.bind_some, ↓reduceIte, userMeta,
        hread hm]
      rw [hf]
      rfl

/-! ### Two cars -/

def white : NvOSDColorParams := ⟨0x3ff0000000000000, 0x3ff0000000000000, 0x3ff0000000000000, 0x3ff0000000000000⟩

/-- What the pool hands out. -/
def blankObject : NvDsObjectMeta :=
  ⟨⟨0⟩, none, 0, 0, 0, ⟨⟨0, 0, 0, 0⟩⟩, ⟨⟨0, 0, 0, 0⟩⟩, 0, 0, .zero, ⟨none, 0, 0, 0, 0⟩, .zero, Label.empty,
    [], .replicate _ 0, .replicate _ 0⟩

/-- The library on a batch whose bytes are `wire`. -/
def libFor (wire : Bytes) (m : Dsmeta.Nvdsbatchmeta) : NvdsLib where
  userCustomMeta := 0x10000000
  serializeToString _ := wire
  parseFromString _ := m
  acquireObjMetaFromPool := blankObject
  addObjMetaToFrame frame obj parent := { frame with
    objMetaList := frame.objMetaList ++ [{ obj with parent := parent }]
    numObjMeta := frame.numObjMeta + 1 }
  addDisplayMetaAtEnd := true

theorem libFor_documented (wire : Bytes) (m : Dsmeta.Nvdsbatchmeta) : (libFor wire m).Documented :=
  ⟨⟨rfl, rfl, rfl, rfl, rfl⟩, fun _ _ _ => rfl⟩

/-- A detected car without a text, in Serif 10. -/
def car : NvDsObjectMeta := { blankObject with
  baseMeta := ⟨3⟩
  uniqueComponentId := 1
  classId := 2
  objectId := 7
  detectorBboxInfo := ⟨⟨0x41200000, 0x41a00000, 0x41f00000, 0x42200000⟩⟩
  confidence := 0x3f000000
  rectParams := ⟨0x41200000, 0x41a00000, 0x41f00000, 0x42200000, 3,
    ⟨0x3ff0000000000000, 0, 0, 0x3ff0000000000000⟩, 0, 0, .zero, 0, 0⟩
  textParams := ⟨none, 10, 8, ⟨some ⟨6, some ⟨[83, 101, 114, 105, 102], by decide⟩⟩, 10, white⟩, 0, .zero⟩
  objLabel := ⟨⟨[99, 97, 114], by decide⟩, by decide⟩ }

/-- The same car, classified as red. -/
def redCar : NvDsObjectMeta := { car with
  classifierMetaList := [⟨⟨5⟩, 1, 2,
    [⟨⟨6⟩, 1, ⟨⟨[114, 101, 100], by decide⟩, by decide⟩, none, 3, 0, 0x3f000000⟩], none⟩] }

def frameOf (objects : List NvDsObjectMeta) : NvDsFrameMeta :=
  ⟨⟨2⟩, 1, 0, 5, 33, 0, 1, 1, 1280, 720, 0, 0, .ofNat objects.length, true, objects, [], .replicate _ 0, 1280, 720,
    serializedReserved⟩

def batchOf (objects : List NvDsObjectMeta) : NvDsBatchMeta :=
  ⟨⟨1⟩, 1, 1, [frameOf objects], [], .replicate _ 0⟩

def carWire : Bytes := [
  16, 1, 24, 1, 34, 219, 1, 10, 2, 8, 2, 16, 1, 32, 5, 40, 33, 56, 1, 64, 1, 72, 128, 10, 80,
  208, 5, 104, 1, 112, 1, 122, 166, 1, 10, 2, 8, 3, 16, 1, 24, 2, 32, 7, 42, 22, 10, 20, 13, 0,
  0, 32, 65, 21, 0, 0, 160, 65, 29, 0, 0, 240, 65, 37, 0, 0, 32, 66, 50, 2, 10, 0, 61, 0, 0, 0,
  63, 74, 44, 13, 0, 0, 32, 65, 21, 0, 0, 160, 65, 29, 0, 0, 240, 65, 37, 0, 0, 32, 66, 40, 3,
  50, 18, 9, 0, 0, 0, 0, 0, 0, 240, 63, 33, 0, 0, 0, 0, 0, 0, 240, 63, 74, 0, 82, 0, 90, 55, 16,
  10, 24, 8, 34, 47, 10, 5, 83, 101, 114, 105, 102, 16, 10, 26, 36, 9, 0, 0, 0, 0, 0, 0, 240,
  63, 17, 0, 0, 0, 0, 0, 0, 240, 63, 25, 0, 0, 0, 0, 0, 0, 240, 63, 33, 0, 0, 0, 0, 0, 0, 240,
  63, 50, 0, 98, 3, 99, 97, 114, 122, 4, 0, 0, 0, 0, 130, 1, 4, 0, 0, 0, 0, 146, 1, 4, 0, 0, 0,
  0, 152, 1, 128, 10, 160, 1, 208, 5, 170, 1, 8, 170, 1, 171, 1, 172, 1, 173, 1, 50, 4, 0, 0, 0,
  0]

def redCarWire : Bytes := [
  16, 1, 24, 1, 34, 249, 1, 10, 2, 8, 2, 16, 1, 32, 5, 40, 33, 56, 1, 64, 1, 72, 128, 10, 80,
  208, 5, 104, 1, 112, 1, 122, 196, 1, 10, 2, 8, 3, 16, 1, 24, 2, 32, 7, 42, 22, 10, 20, 13, 0,
  0, 32, 65, 21, 0, 0, 160, 65, 29, 0, 0, 240, 65, 37, 0, 0, 32, 66, 50, 2, 10, 0, 61, 0, 0, 0,
  63, 74, 44, 13, 0, 0, 32, 65, 21, 0, 0, 160, 65, 29, 0, 0, 240, 65, 37, 0, 0, 32, 66, 40, 3,
  50, 18, 9, 0, 0, 0, 0, 0, 0, 240, 63, 33, 0, 0, 0, 0, 0, 0, 240, 63, 74, 0, 82, 0, 90, 55, 16,
  10, 24, 8, 34, 47, 10, 5, 83, 101, 114, 105, 102, 16, 10, 26, 36, 9, 0, 0, 0, 0, 0, 0, 240,
  63, 17, 0, 0, 0, 0, 0, 0, 240, 63, 25, 0, 0, 0, 0, 0, 0, 240, 63, 33, 0, 0, 0, 0, 0, 0, 240,
  63, 50, 0, 98, 3, 99, 97, 114, 106, 28, 10, 2, 8, 5, 16, 1, 24, 2, 34, 18, 10, 2, 8, 6, 16, 1,
  26, 3, 114, 101, 100, 40, 3, 61, 0, 0, 0, 63, 122, 4, 0, 0, 0, 0, 130, 1, 4, 0, 0, 0, 0, 146,
  1, 4, 0, 0, 0, 0, 152, 1, 128, 10, 160, 1, 208, 5, 170, 1, 8, 170, 1, 171, 1, 172, 1, 173, 1,
  50, 4, 0, 0, 0, 0]

theorem carries_carWire {m m' : Dsmeta.Nvdsbatchmeta} (h : m = m') : (libFor carWire m).Carries m' :=
  ⟨h, show carWire.length < 2 ^ 31 by decide +kernel⟩

theorem carries_redCarWire {m m' : Dsmeta.Nvdsbatchmeta} (h : m = m') : (libFor redCarWire m).Carries m' :=
  ⟨h, show redCarWire.length < 2 ^ 31 by decide +kernel⟩

theorem batchOf_empty : ∀ g ∈ (batchOf []).frameMetaList, g.Empty := fun _ hg => by
  obtain rfl := List.mem_singleton.mp hg
  exact ⟨rfl, rfl⟩

theorem car_restorable : car.Restorable :=
  ⟨rfl, rfl, rfl, rfl, ⟨[83, 101, 114, 105, 102], rfl, by decide⟩, rfl, rfl, rfl⟩

/-- The car without a text and without classifiers survives. -/
theorem roundTrip_car : ∃ m, serializeBatch (batchOf [car]) = some m ∧
    RoundTrip (libFor carWire m) false (batchOf [car]) (batchOf []) := by
  refine ⟨_, rfl, (roundTrip_iff (libFor_documented _ _) false _ _ (fun _ hm => ?_) batchOf_empty).mpr ?_⟩
  · exact carries_carWire (Option.some.inj hm)
  · exact .cons ⟨rfl, rfl, rfl, fun _ ho => List.mem_singleton.mp ho ▸ car_restorable, rfl⟩ .nil

/-- The metas that the classifiers of an object would be restored into do not exist. -/
theorem classifier_lost : ∃ lib src dst, lib.Documented ∧ (∀ m, serializeBatch src = some m → lib.Carries m) ∧
    (∀ g ∈ dst.frameMetaList, g.Empty) ∧ ¬ RoundTrip lib false src dst := by
  let lib := libFor redCarWire ((serializeBatch (batchOf [redCar])).get rfl)
  refine ⟨lib, batchOf [redCar], batchOf [], libFor_documented _ _,
    fun _ hm => carries_redCarWire (Option.some.inj hm), batchOf_empty, ?_⟩
  rintro ⟨_, userMeta, _, hs, hr, -⟩
  have hu : userMeta = ⟨⟨lib.userCustomMeta⟩, setMetadataPtr redCarWire⟩ :=
    (Prod.mk.inj (Option.some.inj hs)).2.symm
  have hnone : deserializeData lib false { batchOf [] with
      batchUserMetaList := [⟨⟨lib.userCustomMeta⟩, setMetadataPtr redCarWire⟩] } = none := rfl
  rw [hu, hnone] at hr
  exact absurd hr (by simp)

end MetaUtils
end DeepStream
