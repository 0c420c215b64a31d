/-
# The object strings of the minimal schema

`generate_event_message_minimal` writes each object as one string, in which a `|` stands
before each part, and `generate_event_message_protobuf` writes the same object as a message.
The texts of the floating-point numbers are those of `<<` and of `to_string`.
-/
import DeepStream.Lib.Columns
import Mathlib.Data.Int.Notation

namespace DeepStream
namespace MsgConv
namespace Minimal

abbrev Text := List Char

/-! ### Numbers -/

/-- The text of a floating-point number. -/
structure IsNumber (t : Text) : Prop where
  ne_nil : t ≠ []
  bar : '|' ∉ t
  hash : '#' ∉ t
  comma : ',' ∉ t

/-- The floating-point numbers: `float` and `double`. -/
structure Formats (F D : Type) where
  add : F → F → F
  streamFloat : F → Text
  streamDouble : D → Text
  toStringFloat : F → Text
  isNumber_streamFloat (x : F) : IsNumber (streamFloat x)
  isNumber_streamDouble (x : D) : IsNumber (streamDouble x)
  isNumber_toStringFloat (x : F) : IsNumber (toStringFloat x)
  -- there is a point, or it is `inf` or `nan`
  not_digits_toStringFloat (x : F) : ∃ c ∈ toStringFloat x, c.isDigit = false

def digits (n : ℕ) : Text := Nat.toDigits 10 n

def toStringInt (z : ℤ) : Text := if z < 0 then '-' :: digits z.natAbs else digits z.natAbs

variable {F D : Type}

/-! ### Event metadata -/

inductive NvDsObjectType where
  | vehicle | person | face | bag | bicycle | roadsign | vehicleExt | personExt | faceExt | product | productExt
  | reserved | custom | unknown | force32
  deriving DecidableEq, Repr

/-- An attribute is a string or a null pointer. -/
abbrev Gchar := Option Text

def toStr (cstr : Gchar) : Text := cstr.getD []

structure NvDsVehicleObject where
  type : Gchar
  make : Gchar
  model : Gchar
  color : Gchar
  region : Gchar
  license : Gchar

structure NvDsPersonObject where
  gender : Gchar
  hair : Gchar
  cap : Gchar
  apparel : Gchar
  age : UInt32

structure NvDsFaceObject where
  gender : Gchar
  hair : Gchar
  cap : Gchar
  glasses : Gchar
  facialhair : Gchar
  name : Gchar
  eyecolor : Gchar
  age : UInt32

structure NvDsProductObject where
  brand : Gchar
  type : Gchar
  shape : Gchar

/-- An object with its mask, a list of polygons. -/
structure Masked (α D : Type) where
  object : α
  mask : List (List D)

/-- What `extMsg` points to. -/
def ExtMsg (D : Type) : NvDsObjectType → Type
  | .vehicle => NvDsVehicleObject
  | .person => NvDsPersonObject
  | .face => NvDsFaceObject
  | .product => NvDsProductObject
  | .vehicleExt => Masked NvDsVehicleObject D
  | .personExt => Masked NvDsPersonObject D
  | .faceExt => Masked NvDsFaceObject D
  | .productExt => Masked NvDsProductObject D
  | _ => Unit

structure NvDsRect (F : Type) where
  top : F
  left : F
  width : F
  height : F

structure NvDsJoint (F : Type) where
  x : F
  y : F
  z : F
  confidence : F

/-- `num_joints` is the length. -/
structure NvDsJoints (F : Type) where
  joints : List (NvDsJoint F)
  poseType : ℤ

/-- The points of the convex hull are pairs. -/
structure NvDs3DTracking (F : Type) where
  ptWorldFeet : F × F
  ptImgFeet : F × F
  visibility : F
  convexHull : List (ℤ × ℤ)

structure NvDsEventMsgMeta (F D : Type) where
  objType : NvDsObjectType
  bbox : NvDsRect F
  sensorId : ℤ
  frameId : ℤ
  confidence : D
  trackingId : UInt64
  ts : Gchar
  objectId : Gchar
  sensorStr : Gchar
  extMsg : Option (ExtMsg D objType)
  pose : NvDsJoints F
  embedding : List F
  /-- `none` without `has3DTracking`. -/
  singleView3DTracking : Option (NvDs3DTracking F)

def objectEnumToStr (type : NvDsObjectType) (objectId : Gchar) : Text :=
  match type with
  | .vehicle => "Vehicle".toList
  | .face => "Face".toList
  | .person => "Person".toList
  | .bag => "Bag".toList
  | .bicycle => "Bicycle".toList
  | .roadsign => "RoadSign".toList
  | .custom => "Custom".toList
  | .product => "Product".toList
  | .unknown => objectId.getD "Unknown".toList
  | _ => "Unknown".toList

/-! ### Poses -/

/-- The first of the `_joint_maps`. -/
def pose2DJoints : List Text :=
  ["nose", "neck", "right-shoulder", "right-elbow", "right-hand", "left-shoulder", "left-elbow", "left-hand", "right-hip",
    "right-knee", "right-foot", "left-hip", "left-knee", "left-foot", "right-eye", "left-eye", "right-ear",
    "left-ear"].map String.toList

/-- The second one and the third, which are equal. -/
def pose3DJoints : List Text :=
  ["pelvis", "left-hip", "right-hip", "torso", "left-knee", "right-knee", "neck", "left-ankle", "right-ankle",
    "left-big-toe", "right-big-toe", "left-small-toe", "right-small-toe", "left-heel", "right-heel", "nose", "left-eye",
    "right-eye", "left-ear", "right-ear", "left-shoulder", "right-shoulder", "left-elbow", "right-elbow", "left-wrist",
    "right-wrist", "left-pinky-knuckle", "right-pinky-knuckle", "left-middle-tip", "right-middle-tip",
    "left-index-knuckle", "right-index-knuckle", "left-thumb-tip", "right-thumb-tip"].map String.toList

/-- The name of a pose and the names of its joints. -/
def poseTable (poseType : ℤ) : Option (Text × List Text) :=
  if poseType = 0 then some ("pose2D".toList, pose2DJoints)
  else if poseType = 1 then some ("pose25D".toList, pose3DJoints)
  else if poseType = 2 then some ("pose3D".toList, pose3DJoints)
  else none

structure Keypoint (F : Type) where
  name : Text
  coordinates : List F

structure Pose (F : Type) where
  type : Text
  keypoints : List (Keypoint F)

def NvDsJoint.coordinates (j : NvDsJoint F) (poseType : ℤ) : List F :=
  if poseType = 0 then [j.x, j.y, j.confidence] else [j.x, j.y, j.z, j.confidence]

/-- The pose that is written, if there is one. A joint without a name is read outside of the names. -/
def NvDsJoints.written (pose : NvDsJoints F) : Option (Option (Pose F)) :=
  if pose.joints.isEmpty then some none
  else
    match poseTable pose.poseType with
    | none => some none
    | some (type, names) =>
      (pose.joints.zipIdx.mapM fun j => (names[j.2]?).map (Keypoint.mk · (j.1.coordinates pose.poseType))).map
        fun keypoints => some ⟨type, keypoints⟩

/-! ### The minimal schema -/

namespace NvDsVehicleObject

def parts (o : NvDsVehicleObject) : List Text :=
  [toStr o.type, toStr o.make, toStr o.model, toStr o.color, toStr o.license, toStr o.region]

end NvDsVehicleObject

namespace NvDsPersonObject

def parts (o : NvDsPersonObject) : List Text :=
  [toStr o.gender, digits o.age.toNat, toStr o.hair, toStr o.cap, toStr o.apparel]

end NvDsPersonObject

namespace NvDsFaceObject

/-- There are two separators before the color of the eyes. -/
def parts (o : NvDsFaceObject) : List Text :=
  [toStr o.gender, digits o.age.toNat, toStr o.hair, toStr o.cap, toStr o.glasses, toStr o.facialhair, toStr o.name, [],
    toStr o.eyecolor]

end NvDsFaceObject

namespace NvDsProductObject

def parts (o : NvDsProductObject) : List Text := [toStr o.brand, toStr o.type, toStr o.shape]

end NvDsProductObject

/-- The secondary attributes of an object. -/
def attributes : (type : NvDsObjectType) → ExtMsg D type → Option (List Text)
  | .vehicle, o => some (NvDsVehicleObject.parts o)
  | .person, o => some (NvDsPersonObject.parts o)
  | .face, o => some (NvDsFaceObject.parts o)
  | .product, o => some (NvDsProductObject.parts o)
  | .vehicleExt, o => some (NvDsVehicleObject.parts (Masked.object o))
  | .personExt, o => some (NvDsPersonObject.parts (Masked.object o))
  | .faceExt, o => some (NvDsFaceObject.parts (Masked.object o))
  | .productExt, o => some (NvDsProductObject.parts (Masked.object o))
  | _, _ => none

def extMask : (type : NvDsObjectType) → ExtMsg D type → List (List D)
  | .vehicleExt, o => Masked.mask o
  | .personExt, o => Masked.mask o
  | .faceExt, o => Masked.mask o
  | .productExt, o => Masked.mask o
  | _, _ => []

namespace NvDsEventMsgMeta

variable (e : NvDsEventMsgMeta F D)

def typeName : Text := objectEnumToStr e.objType e.objectId

def secondary : Option (List Text) := e.extMsg.bind (attributes e.objType)

def objectMask : List (List D) := (e.extMsg.map (extMask e.objType)).getD []

/-- Only a person with attributes has a pose. -/
def writtenPose : Option (Option (Pose F)) :=
  if e.objType = .person ∧ e.extMsg.isSome then e.pose.written else some none

end NvDsEventMsgMeta

variable (N : Formats F D)

namespace Formats

def joint (k : Keypoint F) : Text := k.name ++ prefixed ',' (k.coordinates.map N.toStringFloat)

def poseParts : Option (Pose F) → List Text
  | none => []
  | some pose => "#".toList :: pose.type :: pose.keypoints.map N.joint ++ [[]]

def embeddingText (embedding : List F) : Text := [','].intercalate (embedding.map N.streamFloat)

def embeddingParts (embedding : List F) : List Text :=
  if embedding.isEmpty then [] else ["#".toList, "embedding".toList, N.embeddingText embedding, []]

def point (p : F × F) : Text := N.toStringFloat p.1 ++ ',' :: N.toStringFloat p.2

end Formats

def hullText (hull : List (ℤ × ℤ)) : Text :=
  [','].intercalate (hull.flatMap fun p => [toStringInt p.1, toStringInt p.2])

namespace Formats

/-- There is no separator in front. -/
def tracking : Option (NvDs3DTracking F) → Text
  | none => []
  | some t => '#' :: prefixed '|' ["SV3DT".toList, N.toStringFloat t.visibility, N.point t.ptImgFeet,
      N.point t.ptWorldFeet, hullText t.convexHull, []]

def corners (b : NvDsRect F) : List Text :=
  [N.streamFloat b.left, N.streamFloat b.top, N.streamFloat (N.add b.left b.width), N.streamFloat (N.add b.top b.height)]

end Formats

/-- The part with the attributes. A person without attributes has six empty ones. -/
def attributeParts (e : NvDsEventMsgMeta F D) : List Text :=
  match e.secondary with
  | some parts => "#".toList :: parts
  | none => if e.objType = .person then "#".toList :: List.replicate 6 [] else []

/-- The string of an object. -/
def objectString (e : NvDsEventMsgMeta F D) : Option Text :=
  e.writtenPose.map fun pose =>
    digits e.trackingId.toNat ++ prefixed '|' (N.corners e.bbox ++ [e.typeName, N.streamDouble e.confidence] ++
      attributeParts e ++ N.poseParts pose ++ N.embeddingParts e.embedding) ++ N.tracking e.singleView3DTracking

/-- `generate_mask_array` -/
def maskString (e : NvDsEventMsgMeta F D) : Option Text :=
  if e.objectMask.isEmpty then none
  else some (digits e.trackingId.toNat ++ prefixed '|' (digits e.objectMask.length ::
    ["#".toList].intercalate (e.objectMask.map (·.map N.streamDouble))))

/-- `sensorObj` of the configuration, by its ids. -/
abbrev NvDsPayloadPriv := ℤ → Option Text

def sensorIdToStr (privData : NvDsPayloadPriv) (sensorId : ℤ) : Gchar := privData sensorId

def sensorOf (privData : Option NvDsPayloadPriv) (e : NvDsEventMsgMeta F D) : Text :=
  match e.sensorStr, privData with
  | some sensorStr, _ => sensorStr
  | none, some privData => toStr (sensorIdToStr privData e.sensorId)
  | none, none => "0".toList

structure MinimalMessage where
  version : Text
  id : Text
  timestamp : Gchar
  sensorId : Text
  objects : List Text
  masks : List Text

/-- The frame is described by the first event. -/
def generateEventMessageMinimal (privData : Option NvDsPayloadPriv) (events : List (NvDsEventMsgMeta F D)) :
    Option MinimalMessage := do
  let objects ← events.mapM (objectString N)
  let first ← events.head?
  return {
    version := "4.0".toList
    id := toStringInt first.frameId
    timestamp := first.ts
    sensorId := sensorOf privData first
    objects := objects
    masks := events.filterMap (maskString N) }

/-! ### Protobuf -/

structure PbObject (F D : Type) where
  id : Text
  bbox : F × F × F × F
  type : Text
  confidence : D
  info : List (Text × Text)
  pose : Option (Pose F)
  embedding : List F

def NvDsVehicleObject.info (o : NvDsVehicleObject) : List (Text × Text) :=
  [("type".toList, toStr o.type), ("make".toList, toStr o.make), ("model".toList, toStr o.model),
    ("color".toList, toStr o.color), ("licenseState".toList, toStr o.region), ("license".toList, toStr o.license)]

def NvDsPersonObject.info (o : NvDsPersonObject) : List (Text × Text) :=
  [("age".toList, digits o.age.toNat), ("gender".toList, toStr o.gender), ("hair".toList, toStr o.hair),
    ("cap".toList, toStr o.cap), ("apparel".toList, toStr o.apparel)]

def NvDsFaceObject.info (o : NvDsFaceObject) : List (Text × Text) :=
  [("age".toList, digits o.age.toNat), ("gender".toList, toStr o.gender), ("hair".toList, toStr o.hair),
    ("cap".toList, toStr o.cap), ("glasses".toList, toStr o.glasses), ("facialhair".toList, toStr o.facialhair),
    ("name".toList, toStr o.name), ("eyecolor".toList, toStr o.eyecolor)]

def NvDsProductObject.info (o : NvDsProductObject) : List (Text × Text) :=
  [("brand".toList, toStr o.brand), ("type".toList, toStr o.type), ("shape".toList, toStr o.shape)]

def extInfo : (type : NvDsObjectType) → ExtMsg D type → List (Text × Text)
  | .vehicle, o => NvDsVehicleObject.info o
  | .person, o => NvDsPersonObject.info o
  | .face, o => NvDsFaceObject.info o
  | .product, o => NvDsProductObject.info o
  | .vehicleExt, o => NvDsVehicleObject.info (Masked.object o)
  | .personExt, o => NvDsPersonObject.info (Masked.object o)
  | .faceExt, o => NvDsFaceObject.info (Masked.object o)
  | .productExt, o => NvDsProductObject.info (Masked.object o)
  | _, _ => []

def trackingInfo : Option (NvDs3DTracking F) → List (Text × Text)
  | none => []
  | some t => [("visibility".toList, N.toStringFloat t.visibility), ("footLocation2D".toList, N.point t.ptImgFeet),
      ("footLocation3D".toList, N.point t.ptWorldFeet), ("convexHull".toList, hullText t.convexHull)]

/-- Here the pose of a person with a mask is written as well. -/
def pbPose (e : NvDsEventMsgMeta F D) : Option (Option (Pose F)) :=
  if (e.objType = .person ∨ e.objType = .personExt) ∧ e.extMsg.isSome then e.pose.written else some none

def pbObject (e : NvDsEventMsgMeta F D) : Option (PbObject F D) :=
  (pbPose e).map fun pose => {
    id := digits e.trackingId.toNat
    bbox := (e.bbox.left, e.bbox.top, N.add e.bbox.left e.bbox.width, N.add e.bbox.top e.bbox.height)
    type := objectEnumToStr e.objType e.objectId
    confidence := e.confidence
    info := (e.extMsg.map (extInfo e.objType)).getD [] ++ trackingInfo N e.singleView3DTracking
    pose := pose
    embedding := e.embedding }

structure PbFrame (F D Timestamp : Type) where
  version : Text
  id : Text
  timestamp : Option Timestamp
  sensorid : Text
  objects : List (PbObject F D)

/-- `NULL` where `TimeUtil::FromString` does not take the time stamp, and no result at all where memory
is read that is not there. -/
def generateEventMessageProtobuf {Timestamp : Type} (fromString : Text → Option Timestamp)
    (privData : Option NvDsPayloadPriv) (events : List (NvDsEventMsgMeta F D)) :
    Option (Option (PbFrame F D Timestamp)) := do
  let first ← events.head?
  let frame := fun timestamp => (events.mapM (pbObject N)).map fun objects => some ({
    version := "4.0".toList
    id := toStringInt first.frameId
    timestamp := timestamp
    sensorid := sensorOf privData first
    objects := objects } : PbFrame F D Timestamp)
  match first.ts with
  | none => frame none
  | some ts =>
    match fromString ts with
    | none => some none
    | some timestamp => frame (some timestamp)

/-! ### What a reader of the strings finds -/

/-- What is written of an object. An attribute that is not there counts as an empty one. -/
structure Fields (F D : Type) where
  trackingId : UInt64
  bbox : NvDsRect F
  objType : NvDsObjectType
  typeName : Text
  confidence : D
  attributes : Option (List Text)
  mask : List (List D)
  pose : Option (Pose F)
  embedding : List F
  tracking : Option (NvDs3DTracking F)

def NvDsEventMsgMeta.fields (e : NvDsEventMsgMeta F D) : Fields F D where
  trackingId := e.trackingId
  bbox := e.bbox
  objType := e.objType
  typeName := e.typeName
  confidence := e.confidence
  attributes := e.secondary
  mask := e.objectMask
  pose := e.writtenPose.join
  embedding := e.embedding
  tracking := e.singleView3DTracking

/-- The strings of an object are those of no object with other fields. -/
def Splits (e : NvDsEventMsgMeta F D) : Prop :=
  ∃ s, objectString N e = some s ∧
    ∀ e', objectString N e' = some s → maskString N e' = maskString N e → e'.fields = e.fields

/-- The string begins with the id, and its type is behind the box. -/
def Reports (s : Text) (o : PbObject F D) : Prop :=
  ∃ corners rest, corners.length = 4 ∧ (∀ t ∈ corners, '|' ∉ t) ∧
    s = o.id ++ prefixed '|' (corners ++ [o.type]) ++ '|' :: rest

/-- Each object string of the frame can be split, and the objects of the other format are there with their
ids and types. -/
def Meets {Timestamp : Type} (fromString : Text → Option Timestamp) (privData : Option NvDsPayloadPriv)
    (events : List (NvDsEventMsgMeta F D)) : Prop :=
  ∃ m, generateEventMessageMinimal N privData events = some m ∧ (∀ e ∈ events, Splits N e) ∧
    ∀ frame, generateEventMessageProtobuf N fromString privData events = some (some frame) →
      List.Forall₂ Reports m.objects frame.objects

end Minimal
end MsgConv
end DeepStream
