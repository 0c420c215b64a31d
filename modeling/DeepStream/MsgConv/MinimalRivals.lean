/-
# Objects with the same object string

No `|` of an attribute is marked, and an object of unknown type has any text in the place of
its type. So an object with other attributes, or of another type, may write the same string.
`Clear` says when none does; here are the rivals of the objects that are not clear.
-/
import DeepStream.MsgConv.MinimalParts

namespace DeepStream
namespace MsgConv
namespace Minimal

variable {F D : Type} (N : Formats F D)

/-! ### Clear objects -/

def IsAge (t : Text) : Prop := ∃ age : UInt32, t = digits age.toNat

def NoBars (parts : List Text) : Prop := ∀ t ∈ parts, '|' ∉ t

/-- The text, or what is behind one of its separators, is a confidence and what may follow it. -/
def EndsInConfidence (t : Text) : Prop :=
  ∃ front confidence embedding tracking, (front = [] ∨ ∃ p, front = p ++ ['|']) ∧
    t = front ++ (N.streamDouble confidence ++ N.tail embedding tracking)

/-- An age stands between separators behind the first part. -/
def LaterAge (gender : Text) : Prop :=
  ∃ x n, IsAge n ∧ (gender = x ++ '|' :: n ∨ ∃ y, gender = x ++ '|' :: (n ++ '|' :: y))

/-- The color has no empty part but its last one, and it does not end as an object may. -/
structure EyesClear (eyecolor : Text) : Prop where
  front (z : Text) : eyecolor ≠ '|' :: z
  bars (x z : Text) : eyecolor ≠ x ++ '|' :: '|' :: z
  tail (z : Text) (embedding : List F) (tracking : Option (NvDs3DTracking F)) :
    eyecolor = z ++ N.tail embedding tracking → embedding = [] ∧ tracking = none

/-- The attributes are found again. The types with a mask all have the name `Unknown`, and three attributes are
the fewest. -/
def AttributesClear : (type : NvDsObjectType) → ExtMsg D type → Prop
  | .vehicle, o => NoBars (NvDsVehicleObject.parts o)
  | .product, o => NoBars (NvDsProductObject.parts o)
  | .productExt, o => NoBars (NvDsProductObject.parts (Masked.object o)) ∧
      ∀ polygon ∈ Masked.mask o, ∀ x ∈ polygon, Exact N.streamDouble x
  | .person, o => ¬LaterAge (toStr (NvDsPersonObject.gender o)) ∧
      NoBars [toStr (NvDsPersonObject.hair o), toStr (NvDsPersonObject.cap o), toStr (NvDsPersonObject.apparel o)]
  | .face, o => ¬LaterAge (toStr (NvDsFaceObject.gender o)) ∧
      NoBars [toStr (NvDsFaceObject.hair o), toStr (NvDsFaceObject.cap o), toStr (NvDsFaceObject.glasses o),
        toStr (NvDsFaceObject.facialhair o), toStr (NvDsFaceObject.name o)] ∧
      EyesClear N (toStr (NvDsFaceObject.eyecolor o))
  | _, _ => False

/-- The types that write nothing between the confidence and the embedding, when there are no attributes. -/
def plainTypes : List NvDsObjectType := [.vehicle, .face, .bag, .bicycle, .roadsign, .custom, .product, .reserved]

/-- The text is a type, a confidence and attributes of this type. -/
def SpellsAttributes (t : Text) : Prop :=
  ∃ name confidence w, t = name ++ '|' :: (N.streamDouble confidence ++ '|' :: '#' :: '|' :: w) ∧
    (name = "Vehicle".toList ∧ 5 ≤ w.count '|' ∨
      name = "Person".toList ∧ (∃ g n v, w = g ++ '|' :: (n ++ '|' :: v) ∧ IsAge n ∧ 2 ≤ v.count '|') ∨
      name = "Face".toList ∧
        (∃ g n v z, w = g ++ '|' :: (n ++ '|' :: (v ++ '|' :: '|' :: z)) ∧ IsAge n ∧ 4 ≤ v.count '|') ∨
      (name = "Product".toList ∨ name = "Unknown".toList) ∧ 2 ≤ w.count '|')

/-- Nothing else that an object may be is written in the same way. -/
def ShapeClear (e : NvDsEventMsgMeta F D) : (type : NvDsObjectType) → Option (ExtMsg D type) → Prop
  | .unknown, _ => e.typeName ∉ plainTypes.map (objectEnumToStr · none) ∧
      ¬SpellsAttributes N (e.typeName ++ '|' ::
        (N.streamDouble e.confidence ++ N.tail e.embedding e.singleView3DTracking))
  | .person, none => ∀ x, e.embedding = [x] → IsAge (N.streamFloat x) → e.singleView3DTracking = none
  | _, none => False
  | type, some o => AttributesClear N type o ∧ e.writtenPose = some none ∧ e.embedding = [] ∧
      e.singleView3DTracking = none ∧
      (e.objectMask = [] → ¬EndsInConfidence N (N.streamDouble e.confidence ++ prefixed '|' (attributeParts e)))

/-- The numbers of an object are the only ones with their texts. -/
structure NumbersExact (e : NvDsEventMsgMeta F D) : Prop where
  bbox : Exact N.corners e.bbox
  confidence : Exact N.streamDouble e.confidence
  embedding : ∀ x ∈ e.embedding, Exact N.streamFloat x
  tracking : ∀ t ∈ e.singleView3DTracking, ∀ x ∈ t.numbers, Exact N.toStringFloat x

structure Clear (e : NvDsEventMsgMeta F D) : Prop where
  numbers : NumbersExact N e
  shape : ShapeClear N e e.objType e.extMsg

/-! ### Rivals -/

variable {N} {e : NvDsEventMsgMeta F D}

theorem Splits.fields_eq (h : Splits N e) {e' : NvDsEventMsgMeta F D} (hs : objectString N e' = objectString N e)
    (hm : maskString N e' = maskString N e) : e'.fields = e.fields := by
  obtain ⟨s, he, huniq⟩ := h
  exact huniq e' (hs.trans he) hm

theorem Splits.exists_pose (h : Splits N e) : ∃ pose, e.writtenPose = some pose := by
  obtain ⟨s, he, -⟩ := h
  rw [objectString_eq] at he
  obtain ⟨pose, hpose, -⟩ := Option.map_eq_some_iff.mp he
  exact ⟨pose, hpose⟩

/-- Another object with the same id and box. -/
def NvDsEventMsgMeta.rival (e : NvDsEventMsgMeta F D) (type : NvDsObjectType) (ext : Option (ExtMsg D type))
    (objectId : Gchar) (confidence : D) (embedding : List F) (tracking : Option (NvDs3DTracking F)) :
    NvDsEventMsgMeta F D :=
  { e with
    objType := type
    extMsg := ext
    objectId := objectId
    confidence := confidence
    pose := ⟨[], 0⟩
    embedding := embedding
    singleView3DTracking := tracking }

variable {type : NvDsObjectType} {ext : Option (ExtMsg D type)} {objectId : Gchar} {confidence : D}
  {embedding : List F} {tracking : Option (NvDs3DTracking F)} {pose : Option (Pose F)}

theorem writtenPose_rival : (e.rival type ext objectId confidence embedding tracking).writtenPose = some none := by
  unfold NvDsEventMsgMeta.writtenPose
  split <;> rfl

/-- A rival with the same strings has the same fields. -/
theorem Splits.rival (h : Splits N e) (hpose : e.writtenPose = some pose) (type : NvDsObjectType)
    (ext : Option (ExtMsg D type)) (objectId : Gchar) (confidence : D) (embedding : List F)
    (tracking : Option (NvDs3DTracking F))
    (hbody : objectEnumToStr type objectId ++ '|' :: (N.streamDouble confidence ++
        prefixed '|' (attributeParts (e.rival type ext objectId confidence embedding tracking)) ++
          N.tail embedding tracking) = e.typeName ++ '|' :: after N e pose)
    (hmask : (e.rival type ext objectId confidence embedding tracking).objectMask = e.objectMask) :
    (e.rival type ext objectId confidence embedding tracking).fields = e.fields := by
  refine h.fields_eq ?_ ?_
  · rw [objectString_eq, objectString_eq, writtenPose_rival, hpose, Option.map_some, Option.map_some, ← hbody]
    unfold after
    rw [Formats.poseParts, List.append_nil]
    rfl
  · unfold maskString
    rw [hmask]
    rfl

/-! ### Numbers -/

theorem Splits.numbersExact (h : Splits N e) : NumbersExact N e where
  bbox := fun b hb => by
    have hs : objectString N { e with bbox := b } = objectString N e := by
      unfold objectString
      rw [hb]
      rfl
    exact congrArg Fields.bbox (h.fields_eq hs rfl)
  confidence := fun c hc => by
    have hs : objectString N { e with confidence := c } = objectString N e := by
      unfold objectString
      rw [hc]
      rfl
    exact congrArg Fields.confidence (h.fields_eq hs rfl)
  embedding := by
    refine exact_map_iff.mp fun l hl => ?_
    have hparts : N.embeddingParts l = N.embeddingParts e.embedding := by
      unfold Formats.embeddingParts Formats.embeddingText
      rw [hl, ← List.isEmpty_map (f := N.streamFloat), hl, List.isEmpty_map]
    have hs : objectString N { e with embedding := l } = objectString N e := by
      unfold objectString
      rw [hparts]
      rfl
    exact congrArg Fields.embedding (h.fields_eq hs rfl)
  tracking := by
    rintro t ht
    refine exact_map_iff.mp fun l hl => ?_
    obtain ⟨v, i1, i2, w1, w2, rfl⟩ : ∃ v i1 i2 w1 w2, l = [v, i1, i2, w1, w2] := by
      have hlen := congrArg List.length hl
      rw [List.length_map, List.length_map] at hlen
      match l, hlen with
      | [v, i1, i2, w1, w2], _ => exact ⟨v, i1, i2, w1, w2, rfl⟩
    simp only [NvDs3DTracking.numbers, List.map_cons, List.map_nil, List.cons.injEq, and_true] at hl
    obtain ⟨hv, hi1, hi2, hw1, hw2⟩ := hl
    have htr : N.tracking (some ⟨(w1, w2), (i1, i2), v, t.convexHull⟩) = N.tracking e.singleView3DTracking := by
      rw [Option.mem_def.mp ht]
      simp only [Formats.tracking, Formats.point, hv, hi1, hi2, hw1, hw2]
    have hs : objectString N { e with singleView3DTracking := some ⟨(w1, w2), (i1, i2), v, t.convexHull⟩ } =
        objectString N e := by
      unfold objectString
      rw [htr]
      rfl
    have hfields := congrArg Fields.tracking (h.fields_eq hs rfl)
    exact congrArg NvDs3DTracking.numbers (Option.some.inj (hfields.trans ht))

/-! ### Objects without attributes -/

theorem attributeParts_of_plain {e : NvDsEventMsgMeta F D} (htype : e.objType ≠ .person) (hext : e.secondary = none) :
    attributeParts e = [] := by
  unfold attributeParts
  rw [hext, if_neg htype]

theorem attributeParts_rival_none (htype : type ≠ .person) :
    attributeParts (e.rival type none objectId confidence embedding tracking) = [] := attributeParts_of_plain htype rfl

/-- Where there is nothing between the confidence and the embedding, an unknown object writes the same. -/
theorem Splits.unknown_of_plain (h : Splits N e) (hpose : e.writtenPose = some none) (hparts : attributeParts e = [])
    (hmask : e.objectMask = []) : e.objType = .unknown := by
  have hrival := h.rival hpose .unknown none (some e.typeName) e.confidence e.embedding e.singleView3DTracking
    (by rw [attributeParts_rival_none (by decide), after, hparts]; rfl) hmask.symm
  exact (congrArg Fields.objType hrival).symm

theorem Splits.unknown_of_ends (h : Splits N e) (hpose : e.writtenPose = some none) (hmask : e.objectMask = [])
    (hends : EndsInConfidence N (after N e none)) : e.objType = .unknown := by
  obtain ⟨front, c, emb, tr, hfront, hafter⟩ := hends
  have hrival : ∀ o : Text, o ++ '|' :: (N.streamDouble c ++ N.tail emb tr) = e.typeName ++ '|' :: after N e none →
      e.objType = .unknown := by
    intro o ho
    have hfields := h.rival hpose .unknown none (some o) c emb tr
      (by rw [attributeParts_rival_none (by decide), ← ho, prefixed_nil, List.append_nil]; rfl)
      hmask.symm
    exact (congrArg Fields.objType hfields).symm
  rcases hfront with rfl | ⟨p, rfl⟩
  · exact hrival e.typeName (by rw [hafter]; rfl)
  · exact hrival (e.typeName ++ '|' :: p) (by rw [hafter]; simp)

/-! ### Objects with attributes -/

theorem attributeParts_of_secondary {e : NvDsEventMsgMeta F D} {parts : List Text} (h : e.secondary = some parts) :
    attributeParts e = "#".toList :: parts := by
  unfold attributeParts
  rw [h]

/-- Attributes that are written in the same way are the same, together with what is behind them. -/
theorem Splits.attributes_eq (h : Splits N e) (hpose : e.writtenPose = some pose) {parts parts' : List Text}
    (hparts : e.secondary = some parts) {o' : ExtMsg D e.objType} (ho' : attributes e.objType o' = some parts')
    (hmask : extMask e.objType o' = e.objectMask) (embedding : List F) (tracking : Option (NvDs3DTracking F))
    (heq : prefixed '|' parts' ++ N.tail embedding tracking =
      prefixed '|' parts ++ (prefixed '|' (N.poseParts pose) ++ N.tail e.embedding e.singleView3DTracking)) :
    parts' = parts ∧ embedding = e.embedding ∧ tracking = e.singleView3DTracking ∧ pose = none := by
  have hsecondary : (e.rival e.objType (some o') e.objectId e.confidence embedding tracking).secondary = some parts' := ho'
  have hfields := h.rival hpose e.objType (some o') e.objectId e.confidence embedding tracking
    (by
      rw [attributeParts_of_secondary hsecondary, after, attributeParts_of_secondary hparts]
      simp only [prefixed_append, prefixed_cons, List.append_assoc, heq]
      rfl) hmask
  refine ⟨?_, congrArg Fields.embedding hfields, congrArg Fields.tracking hfields, ?_⟩
  · exact Option.some.inj ((hsecondary.symm.trans (congrArg Fields.attributes hfields)).trans hparts)
  · have hjoin := congrArg Fields.pose hfields
    have hnone : (e.rival e.objType (some o') e.objectId e.confidence embedding tracking).writtenPose.join = none := by
      rw [writtenPose_rival]
      rfl
    have hsome : e.writtenPose.join = pose := by
      rw [hpose]
      rfl
    exact hsome.symm.trans (hjoin.symm.trans hnone)

/-- Where the last attribute may be any text, it could hold what is behind it. -/
theorem Splits.nothing_behind (h : Splits N e) (hpose : e.writtenPose = some pose) {parts : List Text} {last : Text}
    (hparts : e.secondary = some (parts ++ [last]))
    (hany : ∀ w, ∃ o', attributes e.objType o' = some (parts ++ [w]) ∧ extMask e.objType o' = e.objectMask) :
    pose = none ∧ e.embedding = [] ∧ e.singleView3DTracking = none := by
  obtain ⟨o', ho', hmask⟩ :=
    hany (last ++ (prefixed '|' (N.poseParts pose) ++ N.tail e.embedding e.singleView3DTracking))
  obtain ⟨-, hemb, htr, hnone⟩ := h.attributes_eq hpose hparts ho' hmask [] none
    (by simp only [prefixed_append, prefixed_cons, prefixed_nil, tail_nil, List.append_nil, List.append_assoc, List.cons_append])
  exact ⟨hnone, hemb.symm, htr.symm⟩

/-- Where two or more attributes in a row may be any texts, they have no separators. -/
theorem Splits.noBars (h : Splits N e) (hpose : e.writtenPose = some pose) {front parts back : List Text}
    (hparts : e.secondary = some (front ++ parts ++ back)) (hlen : 2 ≤ parts.length)
    (hany : ∀ ts : List Text, ts.length = parts.length →
      ∃ o', attributes e.objType o' = some (front ++ ts ++ back) ∧ extMask e.objType o' = e.objectMask)
    (hnone : pose = none) : NoBars parts := by
  by_contra hbars
  have hex : ∃ t ∈ parts, '|' ∈ t := by simpa [NoBars] using hbars
  obtain ⟨ts, hts, hne, heq⟩ := exists_prefixed_ne hlen hex
  obtain ⟨o', ho', hmask⟩ := hany ts hts
  subst hnone
  obtain ⟨hsame, -⟩ := h.attributes_eq hpose hparts ho' hmask e.embedding e.singleView3DTracking
    (by simp only [prefixed_append, heq]; rfl)
  exact hne (List.append_cancel_left (List.append_cancel_right hsame))

theorem exists_vehicle : ∀ ts : List Text, ts.length = 6 → ∃ o : NvDsVehicleObject, o.parts = ts
  | [type, make, model, color, license, region], _ =>
    ⟨⟨some type, some make, some model, some color, some region, some license⟩, rfl⟩

theorem exists_product : ∀ ts : List Text, ts.length = 3 → ∃ o : NvDsProductObject, o.parts = ts
  | [brand, type, shape], _ => ⟨⟨some brand, some type, some shape⟩, rfl⟩

theorem notEnds_of_splits (h : Splits N e) (htype : e.objType ≠ .unknown) (hpose : e.writtenPose = some none)
    (hemb : e.embedding = []) (htr : e.singleView3DTracking = none) (hmask : e.objectMask = []) :
    ¬EndsInConfidence N (N.streamDouble e.confidence ++ prefixed '|' (attributeParts e)) := by
  intro hends
  refine htype (h.unknown_of_ends hpose hmask ?_)
  rw [after, hemb, htr, tail_nil, Formats.poseParts, List.append_nil, List.append_nil]
  exact hends

/-- Of the three attributes of a product, the separators of an object with a mask and more attributes could be a
part. -/
theorem Splits.product_of_masked (h : Splits N e) {parts : List Text} (hparts : e.secondary = some parts)
    (hlen : 3 ≤ parts.length) (hpose : e.writtenPose = some none)
    (hname : e.typeName = "Unknown".toList) : e.objType = .productExt := by
  obtain ⟨p, ps, rfl⟩ := List.exists_cons_of_ne_nil (List.length_pos_iff.mp (by omega : 0 < parts.length))
  have hcount : 2 ≤ (p ++ prefixed '|' ps).count '|' := by
    have hle : (p :: ps).length ≤ (prefixed '|' (p :: ps)).count '|' := length_le_count_prefixed _
    rw [prefixed_cons, List.cons_append, List.count_cons_self] at hle
    omega
  obtain ⟨ts, hts, heq⟩ := exists_prefixed_iff.mpr hcount
  obtain ⟨o, rfl⟩ := exists_product ts hts
  have hsecondary : (e.rival .productExt (some ⟨o, e.objectMask⟩) none e.confidence e.embedding
      e.singleView3DTracking).secondary = some o.parts := rfl
  have hrival := h.rival hpose .productExt (some ⟨o, e.objectMask⟩) none e.confidence e.embedding e.singleView3DTracking
    (by
      rw [attributeParts_of_secondary hsecondary, after, attributeParts_of_secondary hparts, hname, prefixed_cons, ← heq]
      simp only [prefixed_cons, List.append_nil, List.append_assoc, List.cons_append, Formats.poseParts]
      rfl) rfl
  exact (congrArg Fields.objType hrival).symm

/-- Any texts can be the attributes. -/
theorem Splits.free (h : Splits N e) (hpose : e.writtenPose = some pose) {parts : List Text}
    (hparts : e.secondary = some parts) (hlen : 2 ≤ parts.length)
    (hany : ∀ ts : List Text, ts.length = parts.length →
      ∃ o', attributes e.objType o' = some ts ∧ extMask e.objType o' = e.objectMask) :
    NoBars parts ∧ pose = none ∧ e.embedding = [] ∧ e.singleView3DTracking = none := by
  have hne : parts ≠ [] := List.length_pos_iff.mp (by omega)
  have hlast : e.secondary = some (parts.dropLast ++ [parts.getLast hne]) := by
    rw [List.dropLast_append_getLast, hparts]
  have hbehind := h.nothing_behind hpose hlast fun w =>
    hany _ (by rw [List.length_append, List.length_dropLast, List.length_singleton]; omega)
  have hall : e.secondary = some ([] ++ parts ++ []) := by rw [List.nil_append, List.append_nil, hparts]
  exact ⟨h.noBars hpose hall hlen (by simpa using hany) hbehind.1, hbehind⟩

/-- The age in the gender can be read as the age of the object. -/
theorem LaterAge.exists_split {gender : Text} (h : LaterAge gender) (rest : Text) :
    ∃ x w, ∃ age : UInt32, gender ++ '|' :: rest = x ++ '|' :: (digits age.toNat ++ '|' :: w) ∧ x ≠ gender := by
  obtain ⟨x, n, ⟨age, rfl⟩, rfl | ⟨y, rfl⟩⟩ := h
  · refine ⟨x, rest, age, by simp, fun heq => ?_⟩
    exact absurd (congrArg List.length heq) (by simp)
  · refine ⟨x, y ++ '|' :: rest, age, by simp, fun heq => ?_⟩
    exact absurd (congrArg List.length heq) (by simp)

theorem writtenPose_of_ne (h : e.objType ≠ .person) : e.writtenPose = some none := if_neg fun hp => h hp.1

/-! ### By types -/

/-- The object with another type and other attributes. -/
def NvDsEventMsgMeta.typed (e : NvDsEventMsgMeta F D) (type : NvDsObjectType) (ext : Option (ExtMsg D type)) :
    NvDsEventMsgMeta F D :=
  { e with
    objType := type
    extMsg := ext }

theorem Splits.vehicle {o : NvDsVehicleObject} (h : Splits N (e.typed .vehicle (some o))) :
    ShapeClear N (e.typed .vehicle (some o)) .vehicle (some o) := by
  have hpose : (e.typed .vehicle (some o)).writtenPose = some none := writtenPose_of_ne nofun
  obtain ⟨hbars, -, hemb, htr⟩ := h.free hpose rfl (Nat.le_add_left 2 4) fun ts hts =>
    (exists_vehicle ts hts).imp fun o' ho' => ⟨congrArg some ho', rfl⟩
  exact ⟨hbars, hpose, hemb, htr, notEnds_of_splits h nofun hpose hemb htr⟩

theorem Splits.product {o : NvDsProductObject} (h : Splits N (e.typed .product (some o))) :
    ShapeClear N (e.typed .product (some o)) .product (some o) := by
  have hpose : (e.typed .product (some o)).writtenPose = some none := writtenPose_of_ne nofun
  obtain ⟨hbars, -, hemb, htr⟩ := h.free hpose rfl (Nat.le_add_left 2 1) fun ts hts =>
    (exists_product ts hts).imp fun o' ho' => ⟨congrArg some ho', rfl⟩
  exact ⟨hbars, hpose, hemb, htr, notEnds_of_splits h nofun hpose hemb htr⟩

theorem maskString_congr {e e' : NvDsEventMsgMeta F D} (hid : e'.trackingId = e.trackingId)
    (h : e'.objectMask.map (List.map N.streamDouble) = e.objectMask.map (List.map N.streamDouble)) :
    maskString N e' = maskString N e := by
  have hlen : e'.objectMask.length = e.objectMask.length := by simpa using congrArg List.length h
  have hempty : e'.objectMask.isEmpty = e.objectMask.isEmpty := by
    rw [← List.isEmpty_map, h, List.isEmpty_map]
  unfold maskString
  rw [hid, hlen, hempty, h]

theorem Splits.productExt {o : Masked NvDsProductObject D} (h : Splits N (e.typed .productExt (some o))) :
    ShapeClear N (e.typed .productExt (some o)) .productExt (some o) := by
  have hpose : (e.typed .productExt (some o)).writtenPose = some none := writtenPose_of_ne nofun
  obtain ⟨hbars, -, hemb, htr⟩ := h.free hpose rfl (Nat.le_add_left 2 1) fun ts hts =>
    (exists_product ts hts).elim fun o' ho' => ⟨(⟨o', o.mask⟩ : Masked _ D), congrArg some ho', rfl⟩
  refine ⟨⟨hbars, fun polygon hpolygon => ?_⟩, hpose, hemb, htr, notEnds_of_splits h nofun hpose hemb htr⟩
  refine exact_map_iff.mp ((exact_map_iff (f := List.map N.streamDouble)).mp ?_ polygon hpolygon)
  intro mask hmask
  have hs : objectString N (e.typed .productExt (some ⟨o.object, mask⟩)) = objectString N (e.typed .productExt (some o)) :=
    rfl
  exact congrArg Fields.mask (h.fields_eq hs (maskString_congr rfl hmask))

theorem Splits.person {o : NvDsPersonObject} (h : Splits N (e.typed .person (some o))) :
    ShapeClear N (e.typed .person (some o)) .person (some o) := by
  obtain ⟨pose, hpose⟩ := h.exists_pose
  have hsecondary : (e.typed .person (some o)).secondary =
      some ([toStr o.gender, digits o.age.toNat, toStr o.hair, toStr o.cap] ++ [toStr o.apparel]) := rfl
  obtain ⟨rfl, hemb, htr⟩ := h.nothing_behind hpose hsecondary fun w =>
    ⟨({ o with apparel := some w } : NvDsPersonObject), rfl, rfl⟩
  refine ⟨⟨fun hage => ?_, ?_⟩, hpose, hemb, htr, notEnds_of_splits h nofun hpose hemb htr⟩
  · obtain ⟨x, w, age, heq, hne⟩ := hage.exists_split (digits o.age.toNat ++ '|' :: toStr o.hair)
    have hrival : attributes (D := D) .person (⟨some x, some w, o.cap, o.apparel, age⟩ : NvDsPersonObject) =
        some ([x, digits age.toNat, w] ++ [toStr o.cap, toStr o.apparel]) := rfl
    have hfront : prefixed '|' [x, digits age.toNat, w] =
        prefixed '|' [toStr o.gender, digits o.age.toNat, toStr o.hair] := by simpa using heq.symm
    obtain ⟨hparts, -⟩ := h.attributes_eq hpose hsecondary hrival rfl e.embedding e.singleView3DTracking (by
      rw [prefixed_append, hfront, ← prefixed_append]
      rfl)
    exact hne (List.cons.inj hparts).1
  · have hmiddle : (e.typed .person (some o)).secondary =
        some ([toStr o.gender, digits o.age.toNat] ++ [toStr o.hair, toStr o.cap, toStr o.apparel] ++ []) := rfl
    refine h.noBars hpose hmiddle (Nat.le_add_left 2 1) (fun ts hts => ?_) rfl
    match ts, hts with
    | [hair, cap, apparel], _ => exact ⟨(⟨o.gender, some hair, some cap, some apparel, o.age⟩ : NvDsPersonObject), rfl, rfl⟩

theorem Splits.face {o : NvDsFaceObject} (h : Splits N (e.typed .face (some o))) :
    ShapeClear N (e.typed .face (some o)) .face (some o) := by
  have hpose : (e.typed .face (some o)).writtenPose = some none := writtenPose_of_ne nofun
  have hsecondary : (e.typed .face (some o)).secondary = some ([toStr o.gender, digits o.age.toNat, toStr o.hair,
      toStr o.cap, toStr o.glasses, toStr o.facialhair, toStr o.name, []] ++ [toStr o.eyecolor]) := rfl
  obtain ⟨-, hemb, htr⟩ := h.nothing_behind hpose hsecondary fun w =>
    ⟨({ o with eyecolor := some w } : NvDsFaceObject), rfl, rfl⟩
  refine ⟨⟨fun hage => ?_, ?_, ?_⟩, hpose, hemb, htr, notEnds_of_splits h nofun hpose hemb htr⟩
  · obtain ⟨x, w, age, heq, hne⟩ := hage.exists_split (digits o.age.toNat ++ '|' :: toStr o.hair)
    have hrival : attributes (D := D) .face
        (⟨some x, some w, o.cap, o.glasses, o.facialhair, o.name, o.eyecolor, age⟩ : NvDsFaceObject) =
        some ([x, digits age.toNat, w] ++ [toStr o.cap, toStr o.glasses, toStr o.facialhair, toStr o.name, [],
          toStr o.eyecolor]) := rfl
    have hfront : prefixed '|' [x, digits age.toNat, w] =
        prefixed '|' [toStr o.gender, digits o.age.toNat, toStr o.hair] := by simpa using heq.symm
    obtain ⟨hparts, -⟩ := h.attributes_eq hpose hsecondary hrival rfl e.embedding e.singleView3DTracking (by
      rw [prefixed_append, hfront, ← prefixed_append]
      rfl)
    exact hne (List.cons.inj hparts).1
  · have hmiddle : (e.typed .face (some o)).secondary = some ([toStr o.gender, digits o.age.toNat] ++ [toStr o.hair,
        toStr o.cap, toStr o.glasses, toStr o.facialhair, toStr o.name] ++ [[], toStr o.eyecolor]) := rfl
    refine h.noBars hpose hmiddle (Nat.le_add_left 2 3) (fun ts hts => ?_) rfl
    match ts, hts with
    | [hair, cap, glasses, facialhair, name], _ =>
      exact ⟨(⟨o.gender, some hair, some cap, some glasses, some facialhair, some name, o.eyecolor, o.age⟩ :
        NvDsFaceObject), rfl, rfl⟩
  · -- the name takes the front of the color up to an empty part
    have hname : ∀ name eyecolor : Text, toStr o.name ++ '|' :: '|' :: toStr o.eyecolor = name ++ '|' :: '|' :: eyecolor →
        name = toStr o.name := by
      intro name eyecolor heq
      have hrival : attributes (D := D) .face
          (⟨o.gender, o.hair, o.cap, o.glasses, o.facialhair, some name, some eyecolor, o.age⟩ : NvDsFaceObject) =
          some ([toStr o.gender, digits o.age.toNat, toStr o.hair, toStr o.cap, toStr o.glasses, toStr o.facialhair] ++
            [name, [], eyecolor]) := rfl
      have hback : prefixed '|' [name, [], eyecolor] = prefixed '|' [toStr o.name, [], toStr o.eyecolor] := by
        simpa using heq.symm
      obtain ⟨hparts, -⟩ := h.attributes_eq hpose hsecondary hrival rfl e.embedding e.singleView3DTracking (by
        rw [prefixed_append, hback, ← prefixed_append]
        rfl)
      simp only [List.cons_append, List.nil_append, List.cons.injEq] at hparts
      exact hparts.2.2.2.2.2.2.1
    refine ⟨fun z hz => ?_, fun x z hz => ?_, fun z emb tr hz => ?_⟩
    · have heq := hname (toStr o.name ++ ['|']) z (by rw [hz]; simp)
      exact absurd (congrArg List.length heq) (by simp)
    · have heq := hname (toStr o.name ++ '|' :: '|' :: x) z (by rw [hz]; simp)
      exact absurd (congrArg List.length heq) (by simp)
    · have hrival : attributes (D := D) .face ({ o with eyecolor := some z } : NvDsFaceObject) =
          some ([toStr o.gender, digits o.age.toNat, toStr o.hair, toStr o.cap, toStr o.glasses, toStr o.facialhair,
            toStr o.name, []] ++ [z]) := rfl
      obtain ⟨-, hemb', htr', -⟩ := h.attributes_eq hpose hsecondary hrival rfl emb tr (by
        rw [hz, hemb, htr, tail_nil]
        simp only [prefixed_append, prefixed_cons, prefixed_nil, List.append_nil, List.append_assoc, List.cons_append,
          Formats.poseParts])
      exact ⟨hemb'.trans hemb, htr'.trans htr⟩

/-- The six empty attributes and the embedding can be read as a gender, its number as the age. -/
theorem Splits.person_none (h : Splits N (e.typed .person none)) :
    ShapeClear N (e.typed .person none) .person none := by
  rintro x hx ⟨age, hage⟩
  by_contra htr
  obtain ⟨t, ht⟩ := Option.ne_none_iff_exists'.mp htr
  have hpose : (e.typed .person none).writtenPose = some none := if_neg (by simp [NvDsEventMsgMeta.typed])
  have hparts : attributeParts (e.typed .person none) = "#".toList :: List.replicate 6 [] := rfl
  let gender := prefixed '|' [[], [], [], [], [], "#".toList, "embedding".toList]
  let hair := "#".toList ++ prefixed '|' ["SV3DT".toList, N.toStringFloat t.visibility, N.point t.ptImgFeet, N.point t.ptWorldFeet]
  have hsecondary : ((e.typed .person none).rival .person
      (some (⟨some gender, some hair, some (hullText t.convexHull), some [], age⟩ : NvDsPersonObject)) none e.confidence []
      none).secondary = some [gender, digits age.toNat, hair, hullText t.convexHull, []] := rfl
  have hrival := h.rival hpose .person
    (some (⟨some gender, some hair, some (hullText t.convexHull), some [], age⟩ : NvDsPersonObject)) none e.confidence []
    none (by
      rw [attributeParts_of_secondary hsecondary, after, hparts, hx, ht, ← hage]
      simp [Formats.tail, Formats.tracking, Formats.embeddingParts, Formats.embeddingText, Formats.poseParts, gender, hair]
      rfl) rfl
  cases (congrArg Fields.attributes hrival)

theorem objectMask_unknown (e : NvDsEventMsgMeta F D) (ext : Option (ExtMsg D .unknown)) :
    (e.typed .unknown ext).secondary = none ∧ (e.typed .unknown ext).objectMask = [] := by
  cases ext <;> exact ⟨rfl, rfl⟩

theorem Splits.unknown {ext : Option (ExtMsg D .unknown)} (h : Splits N (e.typed .unknown ext)) :
    ShapeClear N (e.typed .unknown ext) .unknown ext := by
  have hpose : (e.typed .unknown ext).writtenPose = some none := writtenPose_of_ne nofun
  obtain ⟨hsecondary, hmask⟩ := objectMask_unknown e ext
  have hafter : after N (e.typed .unknown ext) none =
      N.streamDouble e.confidence ++ N.tail e.embedding e.singleView3DTracking := by
    rw [after, attributeParts_of_plain (by decide : NvDsObjectType.unknown ≠ .person) hsecondary, Formats.poseParts, List.append_nil, prefixed_nil, List.append_nil]
    rfl
  refine ⟨fun hname => ?_, ?_⟩
  · obtain ⟨t, ht, hname⟩ := List.mem_map.mp hname
    have hne : ∀ t ∈ plainTypes, t ≠ .person ∧ t ≠ .unknown := by decide
    have hrival := h.rival hpose t none none e.confidence e.embedding e.singleView3DTracking
      (by rw [attributeParts_rival_none (hne t ht).1, prefixed_nil, List.append_nil, hafter, hname]) hmask.symm
    exact (hne t ht).2 (congrArg Fields.objType hrival)
  · rintro ⟨name, c, w, htext, hw⟩
    have hrival : ∀ (type : NvDsObjectType) (o : ExtMsg D type) (parts : List Text), attributes type o = some parts →
        objectEnumToStr type none = name → '|' :: w = prefixed '|' parts → extMask type o = [] → type = .unknown := by
      intro type o parts ho htype hparts hnil
      have hsec : ((e.typed .unknown ext).rival type (some o) none c [] none).secondary = some parts := ho
      have hfields := h.rival hpose type (some o) none c [] none
        (by
          rw [attributeParts_of_secondary hsec, hafter, tail_nil, List.append_nil, prefixed_cons, ← hparts, htype]
          exact htext.symm) (hnil.trans hmask.symm)
      exact congrArg Fields.objType hfields
    rcases hw with ⟨rfl, hw⟩ | ⟨rfl, g, n, v, rfl, ⟨age, rfl⟩, hv⟩ | ⟨rfl, g, n, v, z, rfl, ⟨age, rfl⟩, hv⟩ |
      ⟨rfl | rfl, hw⟩
    · obtain ⟨parts, hlen, hparts⟩ := exists_prefixed_iff.mpr hw
      obtain ⟨o, rfl⟩ := exists_vehicle parts hlen
      cases hrival .vehicle o _ rfl rfl hparts rfl
    · obtain ⟨parts, hlen, hparts⟩ := exists_prefixed_iff.mpr hv
      match parts, hlen with
      | [hair, cap, apparel], _ =>
        cases hrival .person (⟨some g, some hair, some cap, some apparel, age⟩ : NvDsPersonObject) _ rfl rfl
          (by simpa [NvDsPersonObject.parts, toStr] using hparts) rfl
    · obtain ⟨parts, hlen, hparts⟩ := exists_prefixed_iff.mpr hv
      match parts, hlen with
      | [hair, cap, glasses, facialhair, name], _ =>
        cases hrival .face (⟨some g, some hair, some cap, some glasses, some facialhair, some name, some z, age⟩ :
          NvDsFaceObject) _ rfl rfl
          (by
            have hv : v = hair ++ '|' :: (cap ++ '|' :: (glasses ++ '|' :: (facialhair ++ '|' :: name))) := by
              simpa using hparts
            simp [NvDsFaceObject.parts, toStr, hv]) rfl
    · obtain ⟨parts, hlen, hparts⟩ := exists_prefixed_iff.mpr hw
      obtain ⟨o, rfl⟩ := exists_product parts hlen
      cases hrival .product o _ rfl rfl hparts rfl
    · obtain ⟨parts, hlen, hparts⟩ := exists_prefixed_iff.mpr hw
      obtain ⟨o, rfl⟩ := exists_product parts hlen
      cases hrival .productExt (⟨o, []⟩ : Masked NvDsProductObject D) _ rfl rfl hparts rfl

theorem Splits.shapeClear_typed : ∀ (type : NvDsObjectType) (ext : Option (ExtMsg D type)),
    Splits N (e.typed type ext) → ShapeClear N (e.typed type ext) type ext
  | .vehicle, some _, h => h.vehicle
  | .product, some _, h => h.product
  | .productExt, some _, h => h.productExt
  | .person, some _, h => h.person
  | .face, some _, h => h.face
  | .person, none, h => h.person_none
  | .unknown, _, h => h.unknown
  | .vehicle, none, h | .face, none, h | .product, none, h | .productExt, none, h | .vehicleExt, none, h
  | .personExt, none, h | .faceExt, none, h | .bag, none, h | .bicycle, none, h | .roadsign, none, h
  | .reserved, none, h | .custom, none, h | .force32, none, h =>
    nomatch h.unknown_of_plain (writtenPose_of_ne nofun) rfl rfl
  | .bag, some (), h | .bicycle, some (), h | .roadsign, some (), h | .reserved, some (), h | .custom, some (), h
  | .force32, some (), h =>
    nomatch h.unknown_of_plain (writtenPose_of_ne nofun) rfl rfl
  | .vehicleExt, some _, h => nomatch h.product_of_masked rfl (Nat.le_add_left 3 3) (writtenPose_of_ne nofun) rfl
  | .personExt, some _, h => nomatch h.product_of_masked rfl (Nat.le_add_left 3 2) (writtenPose_of_ne nofun) rfl
  | .faceExt, some _, h => nomatch h.product_of_masked rfl (Nat.le_add_left 3 6) (writtenPose_of_ne nofun) rfl

/-- An object whose string can be split is clear. -/
theorem Splits.clear (h : Splits N e) : Clear N e := ⟨h.numbersExact, h.shapeClear_typed e.objType e.extMsg⟩


end Minimal
end MsgConv
end DeepStream
