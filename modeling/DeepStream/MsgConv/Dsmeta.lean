/-
# Messages that are made from the metadata of a frame

`generate_dsmeta_message` makes a message of one object, and the minimal schema and protobuf
make one of the frame. The boxes are in the pipeline's resolution and are multiplied by a
scale, which all three write in the same way. Floats are rational numbers here.
-/
import Mathlib.Algebra.Order.Field.Basic
import Mathlib.Tactic.Linarith

namespace DeepStream
namespace MsgConv
namespace Dsmeta

abbrev Text := List Char

/-! ### JSON objects -/

inductive Json where
  | string (s : Text)
  | int (z : ℤ)
  | double (q : ℚ)
  | object (members : List (Text × Json))

/-- A member with the same name is replaced. -/
def setMember : List (Text × Json) → Text → Json → List (Text × Json)
  | [], name, value => [(name, value)]
  | m :: o, name, value => if m.1 = name then (name, value) :: o else m :: setMember o name value

def member (o : List (Text × Json)) (name : Text) : Option Json := (o.find? (·.1 = name)).map Prod.snd

/-! ### Metadata -/

structure NvOSDRectParams where
  left : ℚ
  top : ℚ
  width : ℚ
  height : ℚ

structure NvDsClassifierMeta where
  classifierType : Option Text
  resultLabels : List Text

structure NvDsObjectMeta where
  objectId : UInt64
  confidence : ℚ
  rectParams : NvOSDRectParams
  objLabel : Text
  classifierMetaList : List NvDsClassifierMeta

/-- The custom messages are those of `NVDS_CUSTOM_MSG_BLOB`. -/
structure NvDsFrameMeta where
  frameNum : ℤ
  sourceId : ℕ
  sourceFrameWidth : ℕ
  sourceFrameHeight : ℕ
  pipelineWidth : ℕ
  pipelineHeight : ℕ
  objMetaList : List (Option NvDsObjectMeta)
  customMessages : List Text

/-- The objects that are not null. -/
def NvDsFrameMeta.objects (f : NvDsFrameMeta) : List NvDsObjectMeta := f.objMetaList.filterMap id

def digits (n : ℕ) : Text := Nat.toDigits 10 n

def toStringInt (z : ℤ) : Text := if z < 0 then '-' :: digits z.natAbs else digits z.natAbs

/-! ### The scale -/

/-- Whether the quotient of two floats is true. Where the divisor is 0, it is infinite or no number, which are true. -/
def quotientTrue (x y : ℚ) : Bool := y = 0 || x / y ≠ 0

/-- `(float)source / (pipeline == 0) ? 1 : pipeline` -/
def scale (source pipeline : ℕ) : ℚ := if quotientTrue source (if pipeline = 0 then 1 else 0) then 1 else pipeline

structure Box where
  left : ℚ
  top : ℚ
  right : ℚ
  bottom : ℚ
  deriving DecidableEq

def Box.sides (b : Box) : List ℚ := [b.left, b.top, b.right, b.bottom]

def objectBox (f : NvDsFrameMeta) (o : NvDsObjectMeta) : Box :=
  let scaleW := scale f.sourceFrameWidth f.pipelineWidth
  let scaleH := scale f.sourceFrameHeight f.pipelineHeight
  let left := o.rectParams.left * scaleW
  let top := o.rectParams.top * scaleH
  let width := o.rectParams.width * scaleW
  let height := o.rectParams.height * scaleH
  ⟨left, top, left + width, top + height⟩

/-! ### A message of one object -/

def truncate (q : ℚ) : ℤ := q.num.tdiv q.den

/-- The conversion of a float that does not fit has no result. -/
def toInt64 (q : ℚ) : Option ℤ := if -2 ^ 63 ≤ truncate q ∧ truncate q < 2 ^ 63 then some (truncate q) else none

/-- The member with the class of the object: the confidence and the labels of the classifiers. -/
def labelObject (o : NvDsObjectMeta) : List (Text × Json) :=
  o.classifierMetaList.foldl (fun members c =>
    c.resultLabels.foldl (fun members label =>
      match c.classifierType with
      | none => members
      | some type => if type = [] then members else setMember members type (.string label)) members)
    [("confidence".toList, .double o.confidence)]

def boxObject (b : Box) : Option (List (Text × Json)) := do
  return [("topleftx".toList, .int (← toInt64 b.left)), ("toplefty".toList, .int (← toInt64 b.top)),
    ("bottomrightx".toList, .int (← toInt64 b.right)), ("bottomrighty".toList, .int (← toInt64 b.bottom))]

def generateObjectObject (f : NvDsFrameMeta) (o : NvDsObjectMeta) : Option (List (Text × Json)) := do
  let objectObj := [("id".toList, .string (digits o.objectId.toNat)), ("speed".toList, .double 0),
    ("direction".toList, .double 0), ("orientation".toList, .double 0)]
  let objectObj := setMember objectObj o.objLabel (.object (labelObject o))
  let bbox ← boxObject (objectBox f o)
  let objectObj := setMember objectObj "bbox".toList (.object bbox)
  let objectObj := setMember objectObj "location".toList (.object [])
  return setMember objectObj "coordinate".toList (.object [])

/-- The message, without its id and time stamp and what the configuration says of the source. -/
structure DsmetaMessage where
  mdsversion : Text
  object : List (Text × Json)
  videoPath : Text
  customMessage : List Text

def generateDsmetaMessage (f : NvDsFrameMeta) (o : NvDsObjectMeta) : Option DsmetaMessage :=
  (generateObjectObject f o).map fun object => {
    mdsversion := "1.0".toList
    object := object
    videoPath := []
    customMessage := f.customMessages }

/-! ### Messages of a frame -/

/-- `sensorObj` of the configuration, by its ids. -/
abbrev NvDsPayloadPriv := ℕ → Option Text

def sensorId (privData : NvDsPayloadPriv) (f : NvDsFrameMeta) : Text := (privData f.sourceId).getD "0".toList

/-- The parts of an object string. The labels and the confidence are there when there are classifiers. -/
structure MinimalObject where
  id : Text
  box : Box
  label : Text
  classifiers : Option (List Text × ℚ)

def minimalObject (f : NvDsFrameMeta) (o : NvDsObjectMeta) : MinimalObject where
  id := digits o.objectId.toNat
  box := objectBox f o
  label := o.objLabel
  classifiers :=
    if o.classifierMetaList.isEmpty then none
    else some (o.classifierMetaList.flatMap NvDsClassifierMeta.resultLabels, o.confidence)

structure MinimalMessage where
  version : Text
  id : Text
  timestamp : Text
  sensorId : Text
  objects : List MinimalObject
  customMessage : List Text

def generateDsmetaMessageMinimal (ts : Text) (privData : NvDsPayloadPriv) (f : NvDsFrameMeta) : MinimalMessage where
  version := "4.0".toList
  id := toStringInt f.frameNum
  timestamp := ts
  sensorId := sensorId privData f
  objects := f.objMetaList.filterMap fun o => o.map (minimalObject f)
  customMessage := f.customMessages

structure PbObject where
  id : Text
  bbox : Box
  type : Text
  confidence : ℚ

def pbObject (f : NvDsFrameMeta) (o : NvDsObjectMeta) : PbObject where
  id := digits o.objectId.toNat
  bbox := objectBox f o
  type := o.objLabel
  confidence := o.confidence

structure PbFrame (Timestamp : Type) where
  version : Text
  id : Text
  timestamp : Timestamp
  sensorid : Text
  objects : List PbObject

variable {Timestamp : Type} (fromString : Text → Option Timestamp)

/-- `NULL` where `TimeUtil::FromString` does not take the time stamp. -/
def generateDsmetaMessageProtobuf (ts : Text) (privData : NvDsPayloadPriv) (f : NvDsFrameMeta) :
    Option (PbFrame Timestamp) :=
  (fromString ts).map fun timestamp => {
    version := "4.0".toList
    id := toStringInt f.frameNum
    timestamp := timestamp
    sensorid := sensorId privData f
    objects := f.objMetaList.filterMap fun o => o.map (pbObject f) }

/-! ### The boxes of the source -/

/-- What takes a length of the pipeline to the source. -/
def sourceFactor (source pipeline : ℕ) : ℚ := if pipeline = 0 then 1 else source / pipeline

def sourceBox (f : NvDsFrameMeta) (o : NvDsObjectMeta) : Box :=
  let r := o.rectParams
  let x := sourceFactor f.sourceFrameWidth f.pipelineWidth
  let y := sourceFactor f.sourceFrameHeight f.pipelineHeight
  ⟨r.left * x, r.top * y, (r.left + r.width) * x, (r.top + r.height) * y⟩

/-- An object of the frame: id, type and box. -/
def described (f : NvDsFrameMeta) (o : NvDsObjectMeta) : Text × Text × Box :=
  (digits o.objectId.toNat, o.objLabel, sourceBox f o)

def truncatedBox (b : Box) : Json :=
  .object [("topleftx".toList, .int (truncate b.left)), ("toplefty".toList, .int (truncate b.top)),
    ("bottomrightx".toList, .int (truncate b.right)), ("bottomrighty".toList, .int (truncate b.bottom))]

/-- The three formats say the same of all objects of the frame, with boxes of the source. -/
structure Meets (ts : Text) (privData : NvDsPayloadPriv) (f : NvDsFrameMeta) : Prop where
  minimal : ((generateDsmetaMessageMinimal ts privData f).objects.map fun o => (o.id, o.label, o.box)) =
    f.objects.map (described f)
  protobuf : ∃ frame, generateDsmetaMessageProtobuf fromString ts privData f = some frame ∧
    (frame.objects.map fun o => (o.id, o.type, o.bbox)) = f.objects.map (described f)
  message : ∀ o ∈ f.objects, ∃ m, generateDsmetaMessage f o = some m ∧
    member m.object "id".toList = some (.string (digits o.objectId.toNat)) ∧
      member m.object "bbox".toList = some (truncatedBox (sourceBox f o))

/-- The resolutions are the same, or only the one of the pipeline is not set. -/
def ScaleRight (source pipeline : ℕ) : Prop := if pipeline = 0 then source ≠ 0 else source = pipeline

structure Reported (f : NvDsFrameMeta) (o : NvDsObjectMeta) : Prop where
  label : o.objLabel ≠ "id".toList
  horizontal : ScaleRight f.sourceFrameWidth f.pipelineWidth ∨ o.rectParams.left = 0 ∧ o.rectParams.width = 0
  vertical : ScaleRight f.sourceFrameHeight f.pipelineHeight ∨ o.rectParams.top = 0 ∧ o.rectParams.height = 0
  fits : ∀ side ∈ (sourceBox f o).sides, (toInt64 side).isSome

/-! ### Members -/

theorem member_cons (name name' : Text) (value : Json) (o : List (Text × Json)) :
    member ((name, value) :: o) name' = if name = name' then some value else member o name' := by
  unfold member
  rw [List.find?_cons]
  split
  · rename_i h
    rw [if_pos (of_decide_eq_true h)]
    rfl
  · rename_i h
    rw [if_neg (of_decide_eq_false h)]

theorem member_setMember (o : List (Text × Json)) (name name' : Text) (value : Json) :
    member (setMember o name value) name' = if name = name' then some value else member o name' := by
  induction o with
  | nil => exact member_cons name name' value []
  | cons m o ih =>
    obtain ⟨key, old⟩ := m
    rw [setMember]
    split
    · rename_i hkey
      cases hkey
      rw [member_cons, member_cons]
      split <;> rfl
    · rename_i hkey
      rw [member_cons, member_cons, ih]
      by_cases h : key = name'
      · rw [if_pos h, if_pos h, if_neg fun hname => hkey (h.trans hname.symm)]
      · rw [if_neg h, if_neg h]

/-! ### Scales -/

theorem scale_eq (source pipeline : ℕ) : scale source pipeline = if pipeline = 0 ∧ source = 0 then 0 else 1 := by
  unfold scale quotientTrue
  by_cases hp : pipeline = 0
  · by_cases hs : source = 0 <;> simp [hp, hs]
  · simp [hp]

theorem scale_eq_sourceFactor_iff (source pipeline : ℕ) :
    scale source pipeline = sourceFactor source pipeline ↔ ScaleRight source pipeline := by
  rw [scale_eq, sourceFactor, ScaleRight]
  by_cases hp : pipeline = 0
  · by_cases hs : source = 0 <;> simp [hp, hs]
  · have hpq : (pipeline : ℚ) ≠ 0 := Nat.cast_ne_zero.mpr hp
    simp only [hp, false_and, if_false]
    rw [eq_div_iff hpq, one_mul, Nat.cast_inj, eq_comm]

/-- Two scales give the same place and the same end only if they are equal, or all is 0. -/
theorem scaled_iff (x w s t : ℚ) : x * s = x * t ∧ x * s + w * s = (x + w) * t ↔ s = t ∨ x = 0 ∧ w = 0 := by
  constructor
  · rintro ⟨hx, hw⟩
    rw [add_mul, hx, add_right_inj] at hw
    by_cases hst : s = t
    · exact .inl hst
    · exact .inr ⟨(mul_eq_mul_left_iff.mp hx).resolve_left hst, (mul_eq_mul_left_iff.mp hw).resolve_left hst⟩
  · rintro (rfl | ⟨rfl, rfl⟩)
    · exact ⟨rfl, (add_mul x w s).symm⟩
    · simp

theorem objectBox_eq_iff (f : NvDsFrameMeta) (o : NvDsObjectMeta) : objectBox f o = sourceBox f o ↔
    (ScaleRight f.sourceFrameWidth f.pipelineWidth ∨ o.rectParams.left = 0 ∧ o.rectParams.width = 0) ∧
      (ScaleRight f.sourceFrameHeight f.pipelineHeight ∨ o.rectParams.top = 0 ∧ o.rectParams.height = 0) := by
  rw [← scale_eq_sourceFactor_iff, ← scale_eq_sourceFactor_iff, ← scaled_iff, ← scaled_iff]
  unfold objectBox sourceBox
  rw [Box.mk.injEq]
  constructor
  · rintro ⟨hleft, htop, hright, hbottom⟩
    exact ⟨⟨hleft, hright⟩, htop, hbottom⟩
  · rintro ⟨⟨hleft, hright⟩, htop, hbottom⟩
    exact ⟨hleft, htop, hright, hbottom⟩

/-! ### The three formats -/

theorem toInt64_eq_some {q : ℚ} {z : ℤ} (h : toInt64 q = some z) : truncate q = z := by
  unfold toInt64 at h
  split at h
  · exact Option.some.inj h
  · cases h

theorem boxObject_eq {b : Box} (h : ∀ side ∈ b.sides, (toInt64 side).isSome) :
    (boxObject b).map Json.object = some (truncatedBox b) := by
  simp only [Box.sides, List.forall_mem_cons, Option.isSome_iff_exists] at h
  obtain ⟨⟨l, hl⟩, ⟨t, ht⟩, ⟨r, hr⟩, ⟨b', hb⟩, -⟩ := h
  simp only [boxObject, hl, ht, hr, hb, truncatedBox, toInt64_eq_some hl, toInt64_eq_some ht, toInt64_eq_some hr,
    toInt64_eq_some hb]
  rfl

theorem fits_of_boxObject {b : Box} (h : (boxObject b).isSome) : ∀ side ∈ b.sides, (toInt64 side).isSome := by
  obtain ⟨members, h⟩ := Option.isSome_iff_exists.mp h
  obtain ⟨l, hl, h⟩ := Option.bind_eq_some_iff.mp h
  obtain ⟨t, ht, h⟩ := Option.bind_eq_some_iff.mp h
  obtain ⟨r, hr, h⟩ := Option.bind_eq_some_iff.mp h
  obtain ⟨b', hb, -⟩ := Option.bind_eq_some_iff.mp h
  simp [Box.sides, hl, ht, hr, hb]

/-- The label is a name of a member as well, so it may take the place of the id. -/
theorem generateObjectObject_members {f : NvDsFrameMeta} {o : NvDsObjectMeta} {object : List (Text × Json)}
    (h : generateObjectObject f o = some object) :
    (boxObject (objectBox f o)).map Json.object = member object "bbox".toList ∧
      member object "id".toList =
        some (if o.objLabel = "id".toList then .object (labelObject o) else .string (digits o.objectId.toNat)) := by
  obtain ⟨bbox, hbbox, h⟩ := Option.bind_eq_some_iff.mp h
  cases h
  refine ⟨?_, ?_⟩
  · rw [hbbox]
    simp [member_setMember]
  · simp [member_setMember, member_cons]
    split <;> rfl

theorem objects_map {α β : Type*} (f : NvDsFrameMeta) (make : NvDsObjectMeta → α) (view : α → β) :
    (f.objMetaList.filterMap fun o => o.map make).map view = f.objects.map fun o => view (make o) := by
  unfold NvDsFrameMeta.objects
  rw [List.map_filterMap, List.map_filterMap]
  refine congrArg (List.filterMap · f.objMetaList) (funext fun o => ?_)
  rw [Option.map_map]
  rfl

variable {fromString} {ts : Text} {privData : NvDsPayloadPriv} {f : NvDsFrameMeta}

/-- Where the boxes of a frame are those of the source. -/
theorem described_iff : (f.objects.map fun o => (digits o.objectId.toNat, o.objLabel, objectBox f o)) =
    f.objects.map (described f) ↔ ∀ o ∈ f.objects, objectBox f o = sourceBox f o := by
  rw [List.map_inj_left]
  refine forall₂_congr fun o _ => ?_
  rw [described, Prod.mk.injEq, Prod.mk.injEq]
  exact ⟨fun h => h.2.2, fun h => ⟨rfl, rfl, h⟩⟩

/-- The message of one object, whose box is that of the source. -/
theorem message_iff {o : NvDsObjectMeta} (hbox : objectBox f o = sourceBox f o) :
    (∃ m, generateDsmetaMessage f o = some m ∧
      member m.object "id".toList = some (.string (digits o.objectId.toNat)) ∧
        member m.object "bbox".toList = some (truncatedBox (sourceBox f o))) ↔
      o.objLabel ≠ "id".toList ∧ ∀ side ∈ (sourceBox f o).sides, (toInt64 side).isSome := by
  constructor
  · rintro ⟨m, hm, hid, hbbox⟩
    obtain ⟨object, hobject, rfl⟩ := Option.map_eq_some_iff.mp hm
    obtain ⟨hbox', hid'⟩ := generateObjectObject_members hobject
    refine ⟨fun hlabel => ?_, ?_⟩
    · rw [hid', if_pos hlabel] at hid
      cases hid
    · refine fits_of_boxObject ?_
      rw [← hbox, ← Option.isSome_map (f := Json.object), hbox', hbbox]
      rfl
  · rintro ⟨hlabel, hfits⟩
    have hbbox := boxObject_eq hfits
    rw [← hbox] at hbbox
    obtain ⟨bbox, hb, -⟩ := Option.map_eq_some_iff.mp hbbox
    obtain ⟨object, hobject⟩ : ∃ object, generateObjectObject f o = some object := by
      unfold generateObjectObject
      rw [hb]
      exact ⟨_, rfl⟩
    obtain ⟨hbox', hid'⟩ := generateObjectObject_members hobject
    rw [if_neg hlabel] at hid'
    refine ⟨_, Option.map_eq_some_iff.mpr ⟨object, hobject, rfl⟩, hid', ?_⟩
    rw [← hbox, ← hbox', hbbox]

/-- A muxer that halves a source of full HD, with one object. -/
def halved : NvDsFrameMeta where
  frameNum := 0
  sourceId := 0
  sourceFrameWidth := 1920
  sourceFrameHeight := 1080
  pipelineWidth := 960
  pipelineHeight := 540
  objMetaList := [some ⟨1, 1, ⟨100, 50, 40, 30⟩, "Car".toList, []⟩]
  customMessages := []

end Dsmeta
end MsgConv
end DeepStream
