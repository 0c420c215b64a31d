/-
# How new regions of interest reach the preprocessing plugin

The REST server parses the regions of a request, the callback of the server copies as many of them
as the request says there are, and puts them into an event, which the plugin takes apart again. The
number of regions is a member of the body and not the length of the list: if it is larger, the
callback reads on behind the list, and if it is smaller, the rest is not sent.
-/
import DeepStream.Lib.CArray
import DeepStream.Lib.Decimal
import DeepStream.MultiUri.RestServer

namespace DeepStream
namespace MultiUri

/-! ### Regions -/

structure RoiDimension where
  roiId : List.Vector UInt8 128
  left : ℕ
  top : ℕ
  width : ℕ
  height : ℕ

/-- A region with its id as it is read. -/
structure RoiValue where
  id : List UInt8
  left : ℕ
  top : ℕ
  width : ℕ
  height : ℕ
  deriving DecidableEq, Repr

def RoiDimension.value (roi : RoiDimension) : Option RoiValue :=
  (cString roi.roiId.toList).map fun id => ⟨id, roi.left, roi.top, roi.width, roi.height⟩

/-- What the id's array has room for. -/
def RoiValue.cut (roi : RoiValue) : RoiValue := { roi with id := roi.id.take 127 }

/-- A region in memory that was `old`. -/
def RoiValue.store (roi : RoiValue) (old : RoiDimension) : RoiDimension :=
  ⟨strlcpy old.roiId roi.id, roi.left, roi.top, roi.width, roi.height⟩

inductive NvDsServerRoiStatus where
  | updateSuccess
  | updateFail
  deriving DecidableEq, Repr

inductive NvDsServerRoiPropFlag where
  | roiUpdate
  deriving DecidableEq, Repr

/-- The defaults are those of a request that nothing was parsed of. -/
structure NvDsServerRoiInfo where
  rootKey : String := ""
  streamId : String := ""
  roiCount : ℕ := 0
  vect : List RoiDimension := []
  status : NvDsServerRoiStatus := .updateSuccess
  roiFlag : Option NvDsServerRoiPropFlag := none
  roiLog : String := ""
  uri : String
  code : NvDsServerStatusCode := .ok

/-- The characters up to the first that ends a C string. -/
def cBytes (text : String) : List UInt8 := text.toUTF8.data.toList.takeWhile (· ≠ 0)

/-! ### The parser -/

/-- What is thrown while the regions are read. -/
inductive RoiError where
  | logic (e : LogicError)
  | notUInt
  | notArray
  deriving DecidableEq, Repr

/-- What ends the loop over the body before its end. -/
inductive RoiStop where
  | returnFalse
  | exception (e : RoiError)
  deriving DecidableEq, Repr

namespace Json

/-- `uint` are the numbers that are unsigned ones of 32 bits, as those. -/
def asUInt (uint : String → Option ℕ) : Json → Except RoiError ℕ
  | null => .ok 0
  | bool b => .ok b.toNat
  | number text => (uint text).elim (.error .notUInt) .ok
  | string _ => .error .notUInt
  | array _ => .error .notUInt
  | object _ => .error .notUInt

def size : Json → ℕ
  | array elems => elems.length
  | object members => members.length
  | _ => 0

/-- An element. -/
def elem (j : Json) (i : ℕ) : Except RoiError Json :=
  match j with
  | null => .ok null
  | array elems => .ok (elems[i]?.getD null)
  | _ => .error .notArray

/-- `j == ""` -/
def isEmptyString : Json → Bool
  | string text => text = ""
  | _ => false

end Json

abbrev RoiParse := EStateM RoiStop NvDsServerRoiInfo

namespace RoiParse

def ofExcept {α : Type} : Except RoiError α → RoiParse α
  | .ok a => pure a
  | .error e => throw (.exception e)

def ofLogic {α : Type} (r : Except LogicError α) : Except RoiError α := r.mapError .logic

def failIf (c : Prop) [Decidable c] (log : String) : RoiParse Unit :=
  if c then do
    modify fun info => { info with roiLog := log, status := .updateFail, code := .badRequest }
    throw .returnFalse
  else pure ()

/-- The members of a region. -/
def roi (uint : String → Option ℕ) (elem : Json) : Except RoiError RoiValue := do
  let id ← ofLogic (elem.get "roi_id" .null)
  let id ← ofLogic id.asString
  let left ← ofLogic (elem.get "left" .null)
  let left ← left.asUInt uint
  let top ← ofLogic (elem.get "top" .null)
  let top ← top.asUInt uint
  let width ← ofLogic (elem.get "width" .null)
  let width ← width.asUInt uint
  let height ← ofLogic (elem.get "height" .null)
  let height ← height.asUInt uint
  return ⟨cBytes id, left, top, width, height⟩

variable (uint : String → Option ℕ) (uninit : ℕ → RoiDimension)

/-- A round of the loop over the regions. -/
def pushRoi (roiArr : Json) (i : ℕ) : RoiParse Unit := do
  let elem ← ofExcept (roiArr.elem i)
  let value ← ofExcept (roi uint elem)
  modify fun info => { info with vect := info.vect ++ [value.store (uninit i)] }

/-- A round of the loop over the body. -/
def rootKey (body : Json) (key : String) : RoiParse Unit := do
  modify fun info => { info with rootKey := cStr key }
  let sub ← ofExcept (ofLogic (body.get (cStr key) .null))
  let streamId ← ofExcept (ofLogic (sub.get "stream_id" (.string "")))
  let streamId ← ofExcept (ofLogic streamId.asString)
  modify fun info => { info with streamId := cStr streamId }
  failIf (cStr streamId = "") "ROI_UPDATE_FAIL, stream_id value not parsed correctly"
  let roiCount ← ofExcept (ofLogic (sub.get "roi_count" (.number "0")))
  let roiCount ← ofExcept (roiCount.asUInt uint)
  modify fun info => { info with roiCount := roiCount }
  failIf (roiCount = 0) "ROI_UPDATE_FAIL, roi id is 0"
  let roiArr ← ofExcept (ofLogic (sub.get "roi" (.string "")))
  failIf (roiArr.isEmptyString = true) "ROI_UPDATE_FAIL, roi is empty"
  (List.range roiArr.size).forM (pushRoi uint uninit roiArr)

end RoiParse

/-- `what` is the text of an exception, and `uninit` what is in memory before it is written. -/
def nvdsRestRoiParse (uint : String → Option ℕ) (what : RoiError → String) (uninit : ℕ → RoiDimension) (body : Json)
    (info : NvDsServerRoiInfo) : Bool × NvDsServerRoiInfo :=
  if Contains info.uri "/api/v1/" then
    match (body.keys.forM (RoiParse.rootKey uint uninit body)).run info with
    | .ok _ info => (true, info)
    | .error .returnFalse info => (false, info)
    | .error (.exception e) info =>
      (false, { info with roiLog := "ROI_UPDATE_FAIL, error: " ++ what e, status := .updateFail, code := .badRequest })
  else (true, info)

/-! ### The event -/

inductive GValue where
  | string (text : List UInt8)
  | uint (n : ℕ)
  deriving DecidableEq, Repr

structure GstStructure where
  name : String
  fields : String → Option GValue

namespace GstStructure

/-- A string is put into a structure if it is one that GStreamer takes, that is UTF-8. -/
def set (utf8 : List UInt8 → Bool) (str : GstStructure) (field : String) (value : GValue) : GstStructure :=
  match value with
  | .string text =>
    if utf8 text then { str with fields := Function.update str.fields field (some (.string text)) } else str
  | .uint n => { str with fields := Function.update str.fields field (some (.uint n)) }

def getString (str : GstStructure) (field : String) : Option (List UInt8) :=
  match str.fields field with
  | some (.string text) => some text
  | some (.uint _) => none
  | none => none

def getUInt (str : GstStructure) (field : String) : Option ℕ :=
  match str.fields field with
  | some (.uint n) => some n
  | some (.string _) => none
  | none => none

end GstStructure

/-- How often `for (int i = 0; i < (int) n; i++)` goes round. -/
def rounds (n : ℕ) : ℕ := if n < 2 ^ 31 then n else 0

/-- `g_snprintf (key, sizeof (key), "…_%d", i)` -/
def fieldKey (field : String) (i : ℕ) : String := field ++ toString i

/-- The fields of region `i`. -/
def GstStructure.setRoi (utf8 : List UInt8 → Bool) (str : GstStructure) (i : ℕ) (roi : RoiValue) : GstStructure :=
  let str := str.set utf8 (fieldKey "roi_id_" i) (.string roi.id)
  let str := str.set utf8 (fieldKey "left_" i) (.uint roi.left)
  let str := str.set utf8 (fieldKey "top_" i) (.uint roi.top)
  let str := str.set utf8 (fieldKey "width_" i) (.uint roi.width)
  str.set utf8 (fieldKey "height_" i) (.uint roi.height)

/-- The rounds of the loop over the regions. An id without a terminator is read past its end. -/
def setRois (utf8 : List UInt8 → Bool) (roiDim : List RoiDimension) (str : GstStructure) : ℕ → Option GstStructure
  | 0 => some str
  | n + 1 => (setRois utf8 roiDim str n).bind fun str =>
    (roiDim[n]?.bind RoiDimension.value).map fun roi => str.setRoi utf8 n roi

def gstNveventNewRoiUpdate (utf8 : List UInt8 → Bool) (streamId : List UInt8) (roiCount : ℕ)
    (roiDim : List RoiDimension) : Option GstStructure :=
  let str : GstStructure := ⟨"nv-roi-update", fun _ => none⟩
  let str := str.set utf8 "stream_id" (.string streamId)
  let str := str.set utf8 "roi-count" (.uint roiCount)
  setRois utf8 roiDim str (rounds roiCount)

/-- Region `i` of the event, where a field that is not there leaves what was in memory. There is no
result if there is no id: the pointer to it is not set. -/
def GstStructure.getRoi (str : GstStructure) (i : ℕ) (old : RoiDimension) : Option RoiDimension :=
  (str.getString (fieldKey "roi_id_" i)).map fun id =>
    { roiId := strlcpy old.roiId id
      left := (str.getUInt (fieldKey "left_" i)).getD old.left
      top := (str.getUInt (fieldKey "top_" i)).getD old.top
      width := (str.getUInt (fieldKey "width_" i)).getD old.width
      height := (str.getUInt (fieldKey "height_" i)).getD old.height }

/-- The stream, the count and the regions. Nothing is read if the first fields are not there. -/
def gstNveventParseRoiUpdate (uninit : ℕ → RoiDimension) (str : GstStructure) :
    Option (List UInt8 × ℕ × List RoiDimension) :=
  (str.getString "stream_id").bind fun streamId => (str.getUInt "roi-count").bind fun roiCount =>
    (tabulate (fun i => if i < rounds roiCount then str.getRoi i (uninit i) else some (uninit i)) roiCount).map
      fun roiDim => (streamId, roiCount, roiDim)

/-! ### The callbacks -/

/-- How a callback ends without a result. -/
inductive RoiFault where
  | invalidArgument
  | outOfRange
  | pastVector
  deriving DecidableEq, Repr

/-- `std::stoi` -/
def stoi (text : String) : Except RoiFault ℤ :=
  let text := text.toList.dropWhile isSpace
  let negative := text.head? == some '-'
  match readDigits (if negative || text.head? == some '+' then text.tail else text) with
  | none => .error .invalidArgument
  | some (v, _) =>
    let z : ℤ := if negative then -v else v
    if -2 ^ 31 ≤ z ∧ z < 2 ^ 31 then .ok z else .error .outOfRange

/-- The regions that are copied into an array of `roiCount`. -/
def copyRois (uninit : ℕ → RoiDimension) (info : NvDsServerRoiInfo) : Option (List RoiDimension) :=
  tabulate (fun i =>
    if i < rounds info.roiCount then (info.vect[i]?.bind RoiDimension.value).map fun roi => roi.store (uninit i)
    else some (uninit i)) info.roiCount

/-- What both callbacks do: `findSource` says whether the source is there, and `push` whether the
event was taken downstream. -/
def updateRois (utf8 : List UInt8 → Bool) (uninit : ℕ → RoiDimension) (findSource : ℕ → Bool)
    (push : GstStructure → Bool) (info : NvDsServerRoiInfo) :
    Except RoiFault (NvDsServerRoiInfo × Option GstStructure) := do
  let sourceId ← stoi info.streamId
  if Contains info.uri "/api/v1/" then
    if ¬ findSource (sourceId % 2 ^ 32).toNat then
      return ({ info with
        status := .updateFail
        code := .internalServerError
        roiLog := "ROI_UPDATE_FAIL, Unable to find stream id for ROI updation" }, none)
    else
      let roiDim ← (copyRois uninit info).elim (.error .pastVector) .ok
      let event ← (gstNveventNewRoiUpdate utf8 (cBytes info.streamId) info.roiCount roiDim).elim (.error .pastVector) .ok
      match info.roiFlag with
      | none => return (info, some event)
      | some .roiUpdate =>
        if ¬ push event then
          return ({ info with
            roiLog := "ROI_UPDATE_FAIL, nv-roi-update event not pushed"
            status := .updateFail
            code := .internalServerError }, some event)
        else
          return ({ info with status := .updateSuccess, code := .ok, roiLog := "ROI_UPDATE_SUCCESS" }, some event)
  else return (info, none)

/-- That of the server application. -/
def sRoiCallbackImpl (utf8 : List UInt8 → Bool) (uninit : ℕ → RoiDimension) (findSource : ℕ → Bool)
    (push : GstStructure → Bool) (info : NvDsServerRoiInfo) :
    Except RoiFault (NvDsServerRoiInfo × Option GstStructure) :=
  updateRois utf8 uninit findSource push info

/-- That of the bin. -/
def sRoiApiImpl (utf8 : List UInt8 → Bool) (uninit : ℕ → RoiDimension) (findSource : ℕ → Bool)
    (push : GstStructure → Bool) (info : NvDsServerRoiInfo) :
    Except RoiFault (NvDsServerRoiInfo × Option GstStructure) :=
  updateRois utf8 uninit findSource push info

/-! ### What is parsed -/

namespace Json

/-- The elements of an array. -/
def elems : Json → List Json
  | array elems => elems
  | _ => []

/-- The regions of a member of the body. -/
def roiElems (sub : Json) : List Json := (sub.get "roi" (.string "")).toOption.elim [] elems

def roiCount (uint : String → Option ℕ) (sub : Json) : ℕ :=
  ((sub.get "roi_count" (.number "0")).toOption.bind fun j => (j.asUInt uint).toOption).getD 0

def streamId (sub : Json) : String :=
  ((sub.get "stream_id" (.string "")).toOption.bind fun j => j.asString.toOption).elim "" cStr

def roiId (elem : Json) : List UInt8 :=
  ((elem.get "roi_id" .null).toOption.bind fun j => j.asString.toOption).elim [] cBytes

end Json

namespace RoiParse

section
variable {α β : Type} {info info' : NvDsServerRoiInfo}

theorem bind_ok {x : RoiParse α} {f : α → RoiParse β} {b : β} :
    (x >>= f).run info = .ok b info' ↔ ∃ a info₁, x.run info = .ok a info₁ ∧ (f a).run info₁ = .ok b info' := by
  have hbind : (x >>= f).run info = EStateM.bind x f info := rfl
  rw [hbind, EStateM.bind]
  constructor
  · intro h
    split at h
    · rename_i a info₁ hx
      exact ⟨a, info₁, hx, h⟩
    · cases h
  · rintro ⟨a, info₁, hx, hf⟩
    rw [show x info = _ from hx]
    exact hf

theorem bind_ofExcept_ok {r : Except RoiError α} {f : α → RoiParse β} {b : β} :
    (ofExcept r >>= f).run info = .ok b info' ↔ ∃ a, r = .ok a ∧ (f a).run info = .ok b info' := by
  cases r with
  | ok a =>
    refine bind_ok.trans ⟨?_, fun ⟨_, ha, hf⟩ => ⟨_, info, rfl, Except.ok.inj ha ▸ hf⟩⟩
    rintro ⟨_, _, hx, hf⟩
    obtain ⟨rfl, rfl⟩ := EStateM.Result.ok.inj hx
    exact ⟨_, rfl, hf⟩
  | error e =>
    refine iff_of_false (fun h => ?_) fun ⟨_, ha, _⟩ => by cases ha
    obtain ⟨_, _, hx, -⟩ := bind_ok.mp h
    cases hx

theorem bind_failIf_ok {c : Prop} [Decidable c] {log : String} {f : Unit → RoiParse β} {b : β} :
    (failIf c log >>= f).run info = .ok b info' ↔ ¬ c ∧ (f ()).run info = .ok b info' := by
  unfold failIf
  split
  · rename_i hc
    refine iff_of_false (fun h => ?_) fun h => h.1 hc
    obtain ⟨_, _, hx, -⟩ := bind_ok.mp h
    obtain ⟨_, _, -, hthrow⟩ := bind_ok.mp hx
    cases hthrow
  · rename_i hc
    exact (and_iff_right hc).symm

theorem ofLogic_ok {r : Except LogicError α} {a : α} : ofLogic r = .ok a ↔ r = .ok a := by
  cases r with
  | ok b => simp [ofLogic, Except.mapError]
  | error e => simp [ofLogic, Except.mapError]

/-- What every round keeps, of the rounds that are done, is kept by the loop. -/
theorem forM_ok {P : List α → NvDsServerRoiInfo → Prop} {f : α → RoiParse Unit}
    (hstep : ∀ {done a info info'}, P done info → (f a).run info = .ok () info' → P (done ++ [a]) info') :
    ∀ (l done : List α) {info info'}, P done info → (l.forM f).run info = .ok () info' → P (done ++ l) info'
  | [], done, info, info', hP, h => by
    obtain ⟨-, rfl⟩ := EStateM.Result.ok.inj h
    rw [List.append_nil]
    exact hP
  | a :: l, done, info, info', hP, h => by
    obtain ⟨_, info₁, ha, hl⟩ := bind_ok.mp h
    have hdone := forM_ok hstep l _ (hstep hP ha) hl
    rw [List.append_assoc] at hdone
    exact hdone

end

variable (uint : String → Option ℕ)

/-- The element is read, and stored as far as there is room for its id. -/
def Stores (elem : Json) (roi : RoiDimension) : Prop := ∃ v, RoiParse.roi uint elem = .ok v ∧ roi.value = some v.cut

/-- The members have been parsed: the last ones are those of the request, and all regions are in the list. -/
structure Parsed (subs : List Json) (info : NvDsServerRoiInfo) : Prop where
  count : info.roiCount = (subs.getLast?.map (Json.roiCount uint)).getD 0
  stream : info.streamId = (subs.getLast?.map Json.streamId).getD ""
  rois : List.Forall₂ (Stores uint) (subs.flatMap Json.roiElems) info.vect

variable {uint}

theorem zero_notMem_cBytes (text : String) : 0 ∉ cBytes text := fun h => by
  have hne := List.mem_takeWhile_imp h
  simp at hne

/-- The id of a region that is read. -/
theorem roi_ok {elem : Json} {v : RoiValue} (h : roi uint elem = .ok v) : v.id = elem.roiId ∧ 0 ∉ v.id := by
  simp only [roi, bind, Except.bind] at h
  split at h
  · cases h
  · rename_i j hj
    split at h
    · cases h
    · rename_i text htext
      have hid : v.id = cBytes text := by
        repeat (split at h; · cases h)
        obtain rfl := Except.ok.inj h
        rfl
      rw [ofLogic_ok] at hj htext
      rw [hid]
      refine ⟨?_, zero_notMem_cBytes text⟩
      rw [Json.roiId, hj]
      show _ = (j.asString.toOption).elim [] cBytes
      rw [htext]
      rfl

theorem value_store {v : RoiValue} (h : 0 ∉ v.id) (old : RoiDimension) : (v.store old).value = some v.cut := by
  show (cString (strlcpy old.roiId v.id).toList).map _ = _
  rw [cString_strlcpy old.roiId h]
  rfl

/-- The loop over the regions. -/
theorem pushRois_ok {uninit : ℕ → RoiDimension} {roiArr : Json} {info info' : NvDsServerRoiInfo}
    (h : ((List.range roiArr.size).forM (pushRoi uint uninit roiArr)).run info = .ok () info') :
    ∃ rois, info' = { info with vect := info.vect ++ rois } ∧ List.Forall₂ (Stores uint) roiArr.elems rois := by
  have hloop : ∃ rois, info' = { info with vect := info.vect ++ rois } ∧
      List.Forall₂ (fun i roi => ∃ elem, roiArr.elem i = .ok elem ∧ Stores uint elem roi) (List.range roiArr.size) rois := by
    refine forM_ok (P := fun done info' => ∃ rois, info' = { info with vect := info.vect ++ rois } ∧
      List.Forall₂ (fun i roi => ∃ elem, roiArr.elem i = .ok elem ∧ Stores uint elem roi) done rois)
      (fun hP hround => ?_) _ [] ⟨[], by rw [List.append_nil], .nil⟩ h
    obtain ⟨rois, rfl, hrois⟩ := hP
    obtain ⟨elem, helem, hround⟩ := bind_ofExcept_ok.mp hround
    obtain ⟨v, hv, hround⟩ := bind_ofExcept_ok.mp hround
    obtain ⟨-, rfl⟩ := EStateM.Result.ok.inj hround
    refine ⟨rois ++ [v.store (uninit _)], by rw [← List.append_assoc], List.rel_append hrois (.cons ?_ .nil)⟩
    exact ⟨elem, helem, v, hv, value_store (roi_ok hv).2 _⟩
  obtain ⟨rois, rfl, hrois⟩ := hloop
  refine ⟨rois, rfl, ?_⟩
  cases roiArr with
  | array elems =>
    show List.Forall₂ (Stores uint) elems rois
    have hlen : elems.length = rois.length := by simpa [Json.size] using hrois.length_eq
    refine List.forall₂_iff_get.mpr ⟨hlen, fun i hi hi' => ?_⟩
    obtain ⟨elem, helem, hstores⟩ := (List.forall₂_iff_get.mp hrois).2 i (by simpa [Json.size] using hi) hi'
    have heq : elems.get ⟨i, hi⟩ = elem := by
      have hget : (elems[i]?).getD .null = elem := by simpa [Json.elem] using helem
      rw [← hget, List.getElem?_eq_getElem hi]
      rfl
    rw [heq]
    exact hstores
  | object members =>
    cases members with
    | nil => simpa [Json.size, Json.elems] using hrois
    | cons m ms =>
      simp only [Json.size, List.length_cons, List.range_succ_eq_map] at hrois
      cases hrois with
      | cons hhead _ =>
        obtain ⟨elem, helem, -⟩ := hhead
        cases helem
  | null => simpa [Json.size, Json.elems] using hrois
  | bool b => simpa [Json.size, Json.elems] using hrois
  | number text => simpa [Json.size, Json.elems] using hrois
  | string text => simpa [Json.size, Json.elems] using hrois

/-- A round of the loop over the body. -/
theorem rootKey_ok {uninit : ℕ → RoiDimension} {body : Json} {key : String} {subs : List Json}
    {info info' : NvDsServerRoiInfo} (h : Parsed uint subs info)
    (hround : (rootKey uint uninit body key).run info = .ok () info') :
    Parsed uint (subs ++ [(body.get (cStr key) .null).toOption.getD .null]) info' := by
  obtain ⟨sub, hsub, hround⟩ := bind_ofExcept_ok.mp hround
  obtain ⟨stream, hstream, hround⟩ := bind_ofExcept_ok.mp hround
  obtain ⟨streamText, htext, hround⟩ := bind_ofExcept_ok.mp hround
  obtain ⟨-, hround⟩ := bind_failIf_ok.mp hround
  obtain ⟨count, hcount, hround⟩ := bind_ofExcept_ok.mp hround
  obtain ⟨n, hn, hround⟩ := bind_ofExcept_ok.mp hround
  obtain ⟨-, hround⟩ := bind_failIf_ok.mp hround
  obtain ⟨roiArr, harr, hround⟩ := bind_ofExcept_ok.mp hround
  obtain ⟨-, hround⟩ := bind_failIf_ok.mp hround
  obtain ⟨rois, rfl, hrois⟩ := pushRois_ok hround
  rw [ofLogic_ok] at hsub hstream htext hcount harr
  have hcur : (body.get (cStr key) .null).toOption.getD .null = sub := by
    rw [hsub]
    rfl
  rw [hcur]
  refine ⟨?_, ?_, ?_⟩
  · rw [List.getLast?_concat]
    show n = sub.roiCount uint
    rw [Json.roiCount, hcount]
    show n = (count.asUInt uint).toOption.getD 0
    rw [hn]
    rfl
  · rw [List.getLast?_concat]
    show cStr streamText = sub.streamId
    rw [Json.streamId, hstream]
    show _ = (stream.asString.toOption).elim "" cStr
    rw [htext]
    rfl
  · have helems : sub.roiElems = roiArr.elems := by
      rw [Json.roiElems, harr]
      rfl
    rw [List.flatMap_append, List.flatMap_singleton, helems]
    exact List.rel_append h.rois hrois

end RoiParse

/-- The members that the loop over the body goes through. -/
def subsOf (uri : String) (body : Json) : List Json :=
  if Contains uri "/api/v1/" then body.keys.map fun key => (body.get (cStr key) .null).toOption.getD .null else []

theorem parsed_of_accepted {uint : String → Option ℕ} {what : RoiError → String} {uninit : ℕ → RoiDimension}
    {body : Json} {uri : String} {flag : Option NvDsServerRoiPropFlag} {info : NvDsServerRoiInfo}
    (h : nvdsRestRoiParse uint what uninit body { uri := uri, roiFlag := flag } = (true, info)) :
    RoiParse.Parsed uint (subsOf uri body) info := by
  have hstart : RoiParse.Parsed uint [] { uri := uri, roiFlag := flag } := ⟨rfl, rfl, .nil⟩
  unfold nvdsRestRoiParse at h
  unfold subsOf
  by_cases hapi : Contains uri "/api/v1/"
  · rw [if_pos hapi] at h ⊢
    split at h
    · rename_i hrun
      obtain ⟨-, rfl⟩ := Prod.mk.inj h
      have hall := RoiParse.forM_ok (P := fun done info => RoiParse.Parsed uint
        (done.map fun key => (body.get (cStr key) .null).toOption.getD .null) info)
        (fun hP hround => by
          rw [List.map_append, List.map_singleton]
          exact RoiParse.rootKey_ok hP hround) _ [] hstart hrun
      exact hall
    · cases h
    · cases h
  · rw [if_neg hapi] at h ⊢
    obtain ⟨-, rfl⟩ := Prod.mk.inj h
    exact hstart

/-! ### What an event has -/

theorem RoiDimension.value_spec {roi : RoiDimension} {v : RoiValue} (h : roi.value = some v) :
    0 ∉ v.id ∧ v.cut = v := by
  obtain ⟨id, hid, rfl⟩ := Option.map_eq_some_iff.mp h
  obtain ⟨hzero, hlen⟩ := cString_eq_some hid
  refine ⟨hzero, ?_⟩
  have hroom : id.length ≤ 127 := by
    rw [roi.roiId.toList_length] at hlen
    omega
  show (⟨id.take 127, roi.left, roi.top, roi.width, roi.height⟩ : RoiValue) = _
  rw [List.take_of_length_le hroom]

/-- What was read is read again after it has been stored. -/
theorem RoiDimension.value_store {roi : RoiDimension} {v : RoiValue} (h : roi.value = some v) (old : RoiDimension) :
    (v.store old).value = some v := by
  obtain ⟨hzero, hcut⟩ := RoiDimension.value_spec h
  rw [RoiParse.value_store hzero, hcut]

/-- The names before the numbers. -/
def roiFields : List String := ["roi_id_", "left_", "top_", "width_", "height_"]

theorem take_fieldKey {field : String} (h : 4 ≤ field.toList.length) (i : ℕ) :
    (fieldKey field i).toList.take 4 = field.toList.take 4 := by
  rw [fieldKey, String.toList_append, List.take_append_of_le_length h]

theorem fieldKey_inj {field field' : String} (h : field ∈ roiFields) (h' : field' ∈ roiFields) {i j : ℕ}
    (heq : fieldKey field i = fieldKey field' j) : field = field' ∧ i = j := by
  have hlong : ∀ f ∈ roiFields, 4 ≤ f.toList.length := by decide
  have happart : ∀ f ∈ roiFields, ∀ f' ∈ roiFields, f.toList.take 4 = f'.toList.take 4 → f = f' := by decide
  have htake : _ = _ := congrArg (fun s : String => s.toList.take 4) heq
  rw [take_fieldKey (hlong _ h), take_fieldKey (hlong _ h')] at htake
  obtain rfl := happart _ h _ h' htake
  refine ⟨rfl, ?_⟩
  have hlist := congrArg String.toList heq
  rw [fieldKey, fieldKey, String.toList_append, String.toList_append, List.append_cancel_left_eq] at hlist
  have hdigits : Nat.toDigits 10 i = Nat.toDigits 10 j := by
    rw [← Nat.toList_repr, ← Nat.toList_repr]
    exact hlist
  have hval := congrArg (Nat.ofDigitChars 10 · 0) hdigits
  simpa only [Nat.ofDigitChars_ten_toDigits] using hval

theorem fieldKey_ne {field name : String} (h : field ∈ roiFields) (hname : name = "stream_id" ∨ name = "roi-count") (i : ℕ) :
    name ≠ fieldKey field i := by
  have hlong : ∀ f ∈ roiFields, 4 ≤ f.toList.length := by decide
  have happart : ∀ f ∈ roiFields, "stream_id".toList.take 4 ≠ f.toList.take 4 ∧
      "roi-count".toList.take 4 ≠ f.toList.take 4 := by decide
  intro heq
  have htake : _ = _ := congrArg (fun s : String => s.toList.take 4) heq
  rw [take_fieldKey (hlong _ h)] at htake
  rcases hname with rfl | rfl
  · exact (happart _ h).1 htake
  · exact (happart _ h).2 htake

namespace GstStructure

variable {utf8 : List UInt8 → Bool} {str str' : GstStructure} {i n : ℕ} {v : RoiValue}

theorem fields_set_string (field : String) (text : List UInt8) :
    (str.set utf8 field (.string text)).fields =
      if utf8 text then Function.update str.fields field (some (.string text)) else str.fields := by
  unfold set
  dsimp only
  split <;> rfl

theorem getString_eq {field : String} {text : List UInt8}
    (h : str.fields field = if utf8 text then some (.string text) else none) :
    str.getString field = if utf8 text then some text else none := by
  unfold getString
  rw [h]
  by_cases htext : utf8 text = true
  · rw [if_pos htext, if_pos htext]
  · rw [if_neg htext, if_neg htext]

theorem fields_set_uint (field : String) (m : ℕ) :
    (str.set utf8 field (.uint m)).fields = Function.update str.fields field (some (.uint m)) := rfl

/-- The fields of region `i` are those of `v`; an id that is no string for GStreamer is not there. -/
structure HasRoi (utf8 : List UInt8 → Bool) (str : GstStructure) (i : ℕ) (v : RoiValue) : Prop where
  id : str.fields (fieldKey "roi_id_" i) = if utf8 v.id then some (.string v.id) else none
  left : str.fields (fieldKey "left_" i) = some (.uint v.left)
  top : str.fields (fieldKey "top_" i) = some (.uint v.top)
  width : str.fields (fieldKey "width_" i) = some (.uint v.width)
  height : str.fields (fieldKey "height_" i) = some (.uint v.height)

theorem fields_setRoi_of_ne {name : String} (h : ∀ field ∈ roiFields, name ≠ fieldKey field i) :
    (str.setRoi utf8 i v).fields name = str.fields name := by
  have hid := h "roi_id_" (by decide)
  have hleft := h "left_" (by decide)
  have htop := h "top_" (by decide)
  have hwidth := h "width_" (by decide)
  have hheight := h "height_" (by decide)
  simp only [setRoi, fields_set_uint, fields_set_string, Function.update_of_ne hleft, Function.update_of_ne htop,
    Function.update_of_ne hwidth, Function.update_of_ne hheight]
  split
  · exact Function.update_of_ne hid _ _
  · rfl

theorem hasRoi_setRoi (hnew : str.fields (fieldKey "roi_id_" i) = none) : HasRoi utf8 (str.setRoi utf8 i v) i v := by
  have hne : ∀ {f f' : String}, f ∈ roiFields → f' ∈ roiFields → f ≠ f' → fieldKey f i ≠ fieldKey f' i :=
    fun h h' hff heq => hff (fieldKey_inj h h' heq).1
  constructor
  · simp only [setRoi, fields_set_uint, fields_set_string]
    rw [Function.update_of_ne (hne (by decide) (by decide) (by decide)),
      Function.update_of_ne (hne (by decide) (by decide) (by decide)),
      Function.update_of_ne (hne (by decide) (by decide) (by decide)),
      Function.update_of_ne (hne (by decide) (by decide) (by decide))]
    split
    · exact Function.update_self _ _ _
    · exact hnew
  · simp only [setRoi, fields_set_uint]
    rw [Function.update_of_ne (hne (by decide) (by decide) (by decide)),
      Function.update_of_ne (hne (by decide) (by decide) (by decide)),
      Function.update_of_ne (hne (by decide) (by decide) (by decide)), Function.update_self]
  · simp only [setRoi, fields_set_uint]
    rw [Function.update_of_ne (hne (by decide) (by decide) (by decide)),
      Function.update_of_ne (hne (by decide) (by decide) (by decide)), Function.update_self]
  · simp only [setRoi, fields_set_uint]
    rw [Function.update_of_ne (hne (by decide) (by decide) (by decide)), Function.update_self]
  · simp only [setRoi, fields_set_uint]
    rw [Function.update_self]

/-- The fields of another region stay. -/
theorem HasRoi.setRoi (h : HasRoi utf8 str i v) {j : ℕ} (hne : i ≠ j) (w : RoiValue) :
    HasRoi utf8 (str.setRoi utf8 j w) i v := by
  have hframe : ∀ f ∈ roiFields, (str.setRoi utf8 j w).fields (fieldKey f i) = str.fields (fieldKey f i) :=
    fun f hf => fields_setRoi_of_ne fun f' hf' heq => hne (fieldKey_inj hf hf' heq).2
  exact ⟨(hframe _ (by decide)).trans h.id, (hframe _ (by decide)).trans h.left, (hframe _ (by decide)).trans h.top,
    (hframe _ (by decide)).trans h.width, (hframe _ (by decide)).trans h.height⟩

/-- The fields of the first regions, and no ids of others. -/
structure HasRois (utf8 : List UInt8 → Bool) (v : ℕ → RoiValue) (n : ℕ) (str : GstStructure) : Prop where
  rois : ∀ i < n, HasRoi utf8 str i (v i)
  rest : ∀ i, n ≤ i → str.fields (fieldKey "roi_id_" i) = none

theorem setRois_spec {roiDim : List RoiDimension} {v : ℕ → RoiValue} (hstart : HasRois utf8 v 0 str) :
    ∀ {n : ℕ}, (∀ i < n, roiDim[i]?.bind RoiDimension.value = some (v i)) →
      ∃ str', setRois utf8 roiDim str n = some str' ∧ HasRois utf8 v n str' ∧
        str'.fields "stream_id" = str.fields "stream_id" ∧ str'.fields "roi-count" = str.fields "roi-count"
  | 0, _ => ⟨str, rfl, hstart, rfl, rfl⟩
  | n + 1, h => by
    obtain ⟨str', heq, hrois, hstream, hcount⟩ := setRois_spec hstart fun i hi => h i (Nat.lt_succ_of_lt hi)
    refine ⟨str'.setRoi utf8 n (v n), ?_, ⟨fun i hi => ?_, fun i hi => ?_⟩, ?_, ?_⟩
    · rw [setRois, heq, Option.bind_some, h n (Nat.lt_succ_self n)]
      rfl
    · rcases Nat.lt_succ_iff_lt_or_eq.mp hi with hlt | rfl
      · exact (hrois.rois i hlt).setRoi hlt.ne _
      · exact hasRoi_setRoi (hrois.rest i le_rfl)
    · rw [fields_setRoi_of_ne fun f hf heq => ?_]
      · exact hrois.rest i (Nat.le_of_succ_le hi)
      · have hin := (fieldKey_inj (by decide) hf heq).2
        omega
    · exact (fields_setRoi_of_ne fun f hf => fieldKey_ne hf (.inl rfl) n).trans hstream
    · exact (fields_setRoi_of_ne fun f hf => fieldKey_ne hf (.inr rfl) n).trans hcount

end GstStructure

/-- Element `i` of an array that the first regions have been stored in. -/
def stored (v : ℕ → RoiValue) (n : ℕ) (uninit : ℕ → RoiDimension) (i : ℕ) : RoiDimension :=
  if i < rounds n then (v i).store (uninit i) else uninit i

section
variable {utf8 : List UInt8 → Bool} {v : ℕ → RoiValue} {info : NvDsServerRoiInfo}

theorem copyRois_eq (hv : ∀ i < rounds info.roiCount, info.vect[i]?.bind RoiDimension.value = some (v i))
    (uninit : ℕ → RoiDimension) :
    copyRois uninit info = some ((List.range info.roiCount).map (stored v info.roiCount uninit)) := by
  refine tabulate_some fun i hi => ?_
  unfold stored
  split
  · rename_i hround
    rw [hv i hround]
    rfl
  · rfl

theorem rounds_le (n : ℕ) : rounds n ≤ n := by
  unfold rounds
  split
  · exact le_rfl
  · exact Nat.zero_le n

/-- The event that is made from what was stored has its fields, and is taken apart into the same stream,
count and regions if it has all of them. -/
theorem newRoiUpdate_spec (streamId : List UInt8) (n : ℕ) (uninit : ℕ → RoiDimension)
    (hread : ∀ i < rounds n, ∀ old, ((v i).store old).value = some (v i)) :
    ∃ event, gstNveventNewRoiUpdate utf8 streamId n ((List.range n).map (stored v n uninit)) = some event ∧
      ∀ uninit', gstNveventParseRoiUpdate uninit' event =
        if utf8 streamId = true ∧ ∀ i < rounds n, utf8 (v i).id = true then
          some (streamId, n, (List.range n).map (stored v n uninit'))
        else none := by
  let start : GstStructure := (GstStructure.set utf8 ⟨"nv-roi-update", fun _ => none⟩ "stream_id" (.string streamId)).set
    utf8 "roi-count" (.uint n)
  have hnone : ∀ name, name ≠ "stream_id" → name ≠ "roi-count" → start.fields name = none := by
    intro name hstream hcount
    rw [GstStructure.fields_set_uint, Function.update_of_ne hcount, GstStructure.fields_set_string]
    split
    · exact Function.update_of_ne hstream _ _
    · rfl
  have hstart : GstStructure.HasRois utf8 v 0 start :=
    ⟨fun i hi => absurd hi (Nat.not_lt_zero i), fun i _ => hnone _ (fieldKey_ne (by decide) (.inl rfl) i).symm
      (fieldKey_ne (by decide) (.inr rfl) i).symm⟩
  have hvals : ∀ i < rounds n, ((List.range n).map (stored v n uninit))[i]?.bind RoiDimension.value = some (v i) := by
    intro i hi
    rw [List.getElem?_map, List.getElem?_range (lt_of_lt_of_le hi (rounds_le n))]
    show (stored v n uninit i).value = some (v i)
    rw [stored, if_pos hi]
    exact hread i hi _
  obtain ⟨event, hevent, hrois, hstream, hcount⟩ := GstStructure.setRois_spec hstart hvals
  refine ⟨event, hevent, fun uninit' => ?_⟩
  have hgetCount : event.getUInt "roi-count" = some n := by
    rw [GstStructure.getUInt, hcount, GstStructure.fields_set_uint, Function.update_self]
  have hgetStream : event.getString "stream_id" = if utf8 streamId then some streamId else none := by
    refine GstStructure.getString_eq ?_
    rw [hstream, GstStructure.fields_set_uint, Function.update_of_ne (by decide), GstStructure.fields_set_string]
    split
    · exact Function.update_self _ _ _
    · rfl
  have hgetRoi : ∀ i < rounds n, event.getRoi i (uninit' i) =
      if utf8 (v i).id then some ((v i).store (uninit' i)) else none := by
    intro i hi
    have hroi := hrois.rois i hi
    simp only [GstStructure.getRoi, GstStructure.getString_eq hroi.id, GstStructure.getUInt, hroi.left, hroi.top,
      hroi.width, hroi.height]
    by_cases hid : utf8 (v i).id = true
    · rw [if_pos hid, if_pos hid]
      rfl
    · rw [if_neg hid, if_neg hid]
      rfl
  unfold gstNveventParseRoiUpdate
  rw [hgetStream]
  by_cases hutf : utf8 streamId = true
  · rw [if_pos hutf, Option.bind_some, hgetCount, Option.bind_some]
    by_cases hall : ∀ i < rounds n, utf8 (v i).id = true
    · rw [if_pos ⟨hutf, hall⟩, tabulate_some (g := stored v n uninit') fun i hi => ?_]
      · rfl
      · unfold stored
        split
        · rename_i hround
          rw [hgetRoi i hround, if_pos (hall i hround)]
        · rfl
    · rw [if_neg fun h => hall h.2]
      push Not at hall
      obtain ⟨i, hi, hno⟩ := hall
      have hstop : ¬ (tabulate (fun i => if i < rounds n then event.getRoi i (uninit' i) else some (uninit' i)) n).isSome := by
        intro hsome
        have hi' := tabulate_isSome_iff.mp hsome i (lt_of_lt_of_le hi (rounds_le n))
        rw [if_pos hi, hgetRoi i hi, if_neg hno] at hi'
        cases hi'
      rw [Option.not_isSome_iff_eq_none.mp hstop]
      rfl
  · rw [if_neg hutf, if_neg fun h => hutf h.1]
    rfl

end

/-! ### Requests -/

namespace RoiRequest

variable (utf8 : List UInt8 → Bool) (uint : String → Option ℕ) (subs : List Json) (info : NvDsServerRoiInfo)

/-- The regions of the body are in the list, with their ids cut, and as many as the count says; no callback
reads behind the list; and what is put into an event from a copy of it is taken out of the event again. -/
structure Intact : Prop where
  count : info.roiCount = info.vect.length
  cut : List.Forall₂ (RoiParse.Stores uint) (subs.flatMap Json.roiElems) info.vect
  reads : ∀ uninit findSource push, sRoiCallbackImpl utf8 uninit findSource push info ≠ .error .pastVector ∧
    sRoiApiImpl utf8 uninit findSource push info ≠ .error .pastVector
  event : ∀ uninit uninit' roiDim, copyRois uninit info = some roiDim →
    ∃ event out, gstNveventNewRoiUpdate utf8 (cBytes info.streamId) info.roiCount roiDim = some event ∧
      gstNveventParseRoiUpdate uninit' event = some (cBytes info.streamId, info.roiCount, out) ∧
      out.map RoiDimension.value = info.vect.map RoiDimension.value

/-- The members of the body have as many regions as the last of them says, these are not too many for an
`int`, and the strings are such that GStreamer takes them, the ids after they have been cut. -/
structure Fits : Prop where
  count : (subs.getLast?.map (Json.roiCount uint)).getD 0 = (subs.flatMap Json.roiElems).length
  small : (subs.flatMap Json.roiElems).length < 2 ^ 31
  stream : utf8 (cBytes ((subs.getLast?.map Json.streamId).getD "")) = true
  ids : ∀ elem ∈ subs.flatMap Json.roiElems, utf8 (elem.roiId.take 127) = true

variable {utf8 uint subs info}

theorem ite_ok_ne {c : Prop} [Decidable c] {z : ℤ} {e e' : RoiFault} (h : e ≠ e') :
    (if c then (.ok z : Except RoiFault ℤ) else .error e) ≠ .error e' := by
  split
  · exact fun heq => by cases heq
  · exact fun heq => h (Except.error.inj heq)

theorem stoi_ne_pastVector (text : String) : stoi text ≠ .error .pastVector := by
  unfold stoi
  dsimp only
  split
  · exact fun h => RoiFault.noConfusion (Except.error.inj h)
  · exact ite_ok_ne (by decide)

/-- A callback that can copy the regions reads nothing else. -/
theorem updateRois_ne_pastVector {uninit : ℕ → RoiDimension} {roiDim : List RoiDimension} {event : GstStructure}
    (hcopy : copyRois uninit info = some roiDim)
    (hevent : gstNveventNewRoiUpdate utf8 (cBytes info.streamId) info.roiCount roiDim = some event)
    (findSource : ℕ → Bool) (push : GstStructure → Bool) :
    updateRois utf8 uninit findSource push info ≠ .error .pastVector := by
  have hstoi := stoi_ne_pastVector info.streamId
  unfold updateRois
  cases hs : stoi info.streamId with
  | error fault =>
    rw [hs] at hstoi
    exact fun h => hstoi (congrArg Except.error (Except.error.inj h))
  | ok sourceId =>
    simp only [hcopy, hevent, bind, Except.bind, Option.elim]
    repeat' split
    all_goals exact fun h => by cases h

/-- The regions of the list as they are read. -/
def valueAt (info : NvDsServerRoiInfo) (i : ℕ) : RoiValue :=
  (info.vect[i]?.bind RoiDimension.value).getD ⟨[], 0, 0, 0, 0⟩

theorem value_valueAt (h : RoiParse.Parsed uint subs info) {i : ℕ} (hi : i < info.vect.length) :
    info.vect[i]?.bind RoiDimension.value = some (valueAt info i) ∧
      ∃ elem, (subs.flatMap Json.roiElems)[i]? = some elem ∧ (valueAt info i).id = elem.roiId.take 127 := by
  have hi' : i < (subs.flatMap Json.roiElems).length := h.rois.length_eq ▸ hi
  obtain ⟨v, hv, hvalue⟩ := (List.forall₂_iff_get.mp h.rois).2 i hi' hi
  have hbind : info.vect[i]?.bind RoiDimension.value = some v.cut := by
    rw [List.getElem?_eq_getElem hi]
    exact hvalue
  have hat : valueAt info i = v.cut := by rw [valueAt, hbind, Option.getD_some]
  refine ⟨hat.symm ▸ hbind, _, List.getElem?_eq_getElem hi', ?_⟩
  rw [hat]
  show v.id.take 127 = _
  rw [(RoiParse.roi_ok hv).1]
  rfl

theorem read_valueAt (h : RoiParse.Parsed uint subs info) {i : ℕ} (hi : i < info.vect.length) (old : RoiDimension) :
    ((valueAt info i).store old).value = some (valueAt info i) := by
  obtain ⟨roi, -, hvalue⟩ := Option.bind_eq_some_iff.mp (value_valueAt h hi).1
  exact RoiDimension.value_store hvalue old

/-- All regions have been stored. -/
theorem values_stored (h : RoiParse.Parsed uint subs info) {n : ℕ} (hn : n = info.vect.length) (hrounds : rounds n = n)
    (uninit : ℕ → RoiDimension) :
    ((List.range n).map (stored (valueAt info) n uninit)).map RoiDimension.value = info.vect.map RoiDimension.value := by
  refine List.ext_getElem? fun i => ?_
  rcases Nat.lt_or_ge i n with hlt | hge
  · have hi : i < info.vect.length := hn ▸ hlt
    rw [List.getElem?_map, List.getElem?_map, List.getElem?_range hlt, List.getElem?_map]
    show some (stored (valueAt info) n uninit i).value = _
    rw [stored, if_pos (hrounds.symm ▸ hlt), read_valueAt h hi]
    have hvalue := (value_valueAt h hi).1
    rw [List.getElem?_eq_getElem hi] at hvalue ⊢
    exact congrArg some hvalue.symm
  · rw [List.getElem?_eq_none (by simpa using hge), List.getElem?_eq_none (by simpa using hn ▸ hge)]

theorem rounds_eq_self_iff {n : ℕ} : rounds n = n ↔ n < 2 ^ 31 := by
  unfold rounds
  split
  · rename_i hlt
    exact iff_of_true rfl hlt
  · rename_i hge
    refine iff_of_false (fun heq => hge ?_) hge
    rw [← heq]
    exact Nat.two_pow_pos 31

/-- The event, for a list that is as long as the count says. -/
theorem event_spec (utf8 : List UInt8 → Bool) (h : RoiParse.Parsed uint subs info)
    (hcount : info.roiCount = info.vect.length) (uninit : ℕ → RoiDimension) :
    copyRois uninit info = some ((List.range info.roiCount).map (stored (valueAt info) info.roiCount uninit)) ∧
      ∃ event, gstNveventNewRoiUpdate utf8 (cBytes info.streamId) info.roiCount
          ((List.range info.roiCount).map (stored (valueAt info) info.roiCount uninit)) = some event ∧
        ∀ uninit', gstNveventParseRoiUpdate uninit' event =
          if utf8 (cBytes info.streamId) = true ∧ ∀ i < rounds info.roiCount, utf8 (valueAt info i).id = true then
            some (cBytes info.streamId, info.roiCount,
              (List.range info.roiCount).map (stored (valueAt info) info.roiCount uninit'))
          else none := by
  have hlt : ∀ i < rounds info.roiCount, i < info.vect.length := fun i hi =>
    hcount ▸ lt_of_lt_of_le hi (rounds_le _)
  exact ⟨copyRois_eq (fun i hi => (value_valueAt h (hlt i hi)).1) uninit,
    newRoiUpdate_spec _ _ uninit fun i hi old => read_valueAt h (hlt i hi) old⟩

theorem Fits.intact (h : RoiParse.Parsed uint subs info) (hfits : Fits utf8 uint subs) : Intact utf8 uint subs info := by
  have hlen := h.rois.length_eq
  have hcount : info.roiCount = info.vect.length := by rw [h.count, hfits.count, hlen]
  have hrounds : rounds info.roiCount = info.roiCount := rounds_eq_self_iff.mpr (by
    rw [hcount, ← hlen]
    exact hfits.small)
  have hstrings : utf8 (cBytes info.streamId) = true ∧ ∀ i < rounds info.roiCount, utf8 (valueAt info i).id = true := by
    refine ⟨h.stream ▸ hfits.stream, fun i hi => ?_⟩
    obtain ⟨-, elem, helem, hid⟩ := value_valueAt h (hcount ▸ hrounds ▸ hi)
    rw [hid]
    exact hfits.ids elem (List.mem_of_getElem? helem)
  refine ⟨hcount, h.rois, fun uninit findSource push => ?_, fun uninit uninit' roiDim hcopy => ?_⟩
  · obtain ⟨hcopy, event, hevent, -⟩ := event_spec utf8 h hcount uninit
    exact ⟨updateRois_ne_pastVector hcopy hevent findSource push, updateRois_ne_pastVector hcopy hevent findSource push⟩
  · obtain ⟨hcopy', event, hevent, hparse⟩ := event_spec utf8 h hcount uninit
    obtain rfl := Option.some.inj (hcopy'.symm.trans hcopy)
    refine ⟨event, _, hevent, ?_, values_stored h hcount hrounds uninit'⟩
    rw [hparse uninit', if_pos hstrings]

theorem Intact.fits (h : RoiParse.Parsed uint subs info) (hintact : Intact utf8 uint subs info) :
    Fits utf8 uint subs := by
  have hlen := h.rois.length_eq
  have hcount := hintact.count
  -- memory in which the first region is not the one that was sent
  let other : RoiDimension := match info.vect with
    | [] => ⟨List.Vector.replicate 128 0, 0, 0, 0, 0⟩
    | roi :: _ => { roi with left := roi.left + 1 }
  obtain ⟨hcopy, event, hevent, hparse⟩ := event_spec utf8 h hcount fun _ => other
  obtain ⟨event', out, hevent', hout, hsame⟩ := hintact.event _ (fun _ => other) _ hcopy
  obtain rfl := Option.some.inj (hevent.symm.trans hevent')
  rw [hparse] at hout
  split at hout
  · rename_i hstrings
    obtain rfl := (Prod.mk.inj (Prod.mk.inj (Option.some.inj hout)).2).2
    have hsmall : info.roiCount < 2 ^ 31 := by
      by_contra hge
      have hzero : rounds info.roiCount = 0 := if_neg hge
      cases hvect : info.vect with
      | nil =>
        rw [hvect, List.length_nil] at hcount
        exact hge (hcount ▸ Nat.two_pow_pos 31)
      | cons roi rest =>
        have hpos : 0 < info.roiCount := by
          rw [hcount, hvect, List.length_cons]
          exact Nat.succ_pos _
        have hfirst := congrArg (fun l : List (Option RoiValue) => l[0]?) hsame
        simp only [List.getElem?_map, List.getElem?_range hpos, Option.map_some, hvect, List.getElem?_cons_zero] at hfirst
        rw [stored, hzero, if_neg (Nat.lt_irrefl 0)] at hfirst
        have hroi := (value_valueAt h (i := 0) (hcount ▸ hpos)).1
        have hother : other = { roi with left := roi.left + 1 } := by
          show (match info.vect with
            | [] => _
            | roi :: _ => _) = _
          rw [hvect]
        rw [hvect, List.getElem?_cons_zero, Option.bind_some] at hroi
        rw [hother, Option.some.injEq] at hfirst
        have hleft := congrArg (Option.map RoiValue.left) hfirst
        simp only [RoiDimension.value, Option.map_map] at hleft
        obtain ⟨id, hid, -⟩ := Option.map_eq_some_iff.mp hroi
        rw [hid] at hleft
        exact absurd (Option.some.inj hleft) (Nat.succ_ne_self _)
    have hrounds := rounds_eq_self_iff.mpr hsmall
    refine ⟨?_, hlen ▸ hcount ▸ hsmall, h.stream ▸ hstrings.1, fun elem hmem => ?_⟩
    · rw [← h.count, hcount, hlen]
    · obtain ⟨i, hi, rfl⟩ := List.mem_iff_getElem.mp hmem
      have hi' : i < info.vect.length := hlen ▸ hi
      obtain ⟨-, elem, helem, hid⟩ := value_valueAt h hi'
      rw [List.getElem?_eq_getElem hi] at helem
      rw [Option.some.inj helem, ← hid]
      exact hstrings.2 i (by
        rw [hrounds, hcount]
        exact hi')
  · cases hout

end RoiRequest

/-- A body that is accepted reaches the plugin intact exactly if its count is the number of its regions,
and its strings can be sent. -/
theorem roi_update_intact_iff (utf8 : List UInt8 → Bool) {uint : String → Option ℕ} {what : RoiError → String}
    {uninit : ℕ → RoiDimension} {body : Json} {uri : String} {flag : Option NvDsServerRoiPropFlag}
    {info : NvDsServerRoiInfo}
    (h : nvdsRestRoiParse uint what uninit body { uri := uri, roiFlag := flag } = (true, info)) :
    RoiRequest.Intact utf8 uint (subsOf uri body) info ↔ RoiRequest.Fits utf8 uint (subsOf uri body) :=
  ⟨fun hintact => hintact.fits (parsed_of_accepted h), fun hfits => hfits.intact (parsed_of_accepted h)⟩

namespace RoiSample

def uri : String := "/api/v1/roi/update"

def uint (text : String) : Option ℕ := (readDigits text.toList).map Prod.fst

def blank : RoiDimension := ⟨List.Vector.replicate 128 0, 0, 0, 0, 0⟩

/-- A body with one region, for source 0. -/
def body (roiCount : String) : Json :=
  .object [("stream", .object
    [("roi", .array [.object [("height", .number "4"), ("left", .number "1"), ("roi_id", .string "7"),
      ("top", .number "2"), ("width", .number "3")]]),
      ("roi_count", .number roiCount), ("stream_id", .string "0")])]

def parsed (roiCount : String) : Bool × NvDsServerRoiInfo :=
  nvdsRestRoiParse uint (fun _ => "") (fun _ => blank) (body roiCount) { uri := uri, roiFlag := some .roiUpdate }

end RoiSample

open RoiSample in
theorem roi_update_intact_one :
    RoiRequest.Intact (fun _ => true) uint (subsOf uri (body "1")) (parsed "1").2 := by
  have hparse : parsed "1" = (true, (parsed "1").2) := Prod.ext (by decide +kernel) rfl
  exact (roi_update_intact_iff (fun _ => true) hparse).mpr ⟨by decide +kernel, by decide +kernel, rfl, fun _ _ => rfl⟩

open RoiSample in
/-- The body says that there are two regions and has one: it is accepted, and the callback reads the second one
behind the list. -/
theorem roi_count_not_checked : (parsed "2").1 = true ∧ (parsed "2").2.roiCount = 2 ∧ (parsed "2").2.vect.length = 1 ∧
    ¬ RoiRequest.Intact (fun _ => true) uint (subsOf uri (body "2")) (parsed "2").2 ∧
    sRoiCallbackImpl (fun _ => true) (fun _ => blank) (fun _ => true) (fun _ => true) (parsed "2").2 =
      .error .pastVector ∧
    sRoiApiImpl (fun _ => true) (fun _ => blank) (fun _ => true) (fun _ => true) (parsed "2").2 =
      .error .pastVector := by
  have hlen : (parsed "2").2.roiCount ≠ (parsed "2").2.vect.length := by decide +kernel
  exact ⟨by decide +kernel, by decide +kernel, by decide +kernel, fun h => hlen h.count, rfl, rfl⟩

end MultiUri
end DeepStream
