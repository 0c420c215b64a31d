/-
# What the REST server answers to a stream request

The handlers of the three stream endpoints are one and the same: they parse the
body, and hand what was parsed to the stream callback, which goes by the change
word of the body and not by the endpoint. The answer has the status of a code
that is OK until something sets it.
-/
import Mathlib
import DeepStream.MultiUri.StreamApi

namespace DeepStream
namespace MultiUri

set_option mvcgen.warning false

/-! ### JSON values -/

/-- A number is the text that it is turned into; the members of an object come
in the order of their names. -/
inductive Json where
  | null
  | bool (b : Bool)
  | number (text : String)
  | string (text : String)
  | array (elems : List Json)
  | object (members : List (String × Json))

/-- What `Json::LogicError` is thrown for. -/
inductive LogicError where
  | notString
  | notObject
  deriving DecidableEq, Repr

namespace Json

def asString : Json → Except LogicError String
  | null => .ok ""
  | bool b => .ok (toString b)
  | number text => .ok text
  | string text => .ok text
  | array _ => .error .notString
  | object _ => .error .notString

def get (j : Json) (key : String) (defaultValue : Json) : Except LogicError Json :=
  match j with
  | null => .ok defaultValue
  | object members => .ok ((members.find? (·.1 = key)).elim defaultValue Prod.snd)
  | _ => .error .notObject

/-- The names that an iterator over the value goes through; those of an array
are its indices. -/
def keys : Json → List String
  | array elems => (List.range elems.length).map toString
  | object members => members.map Prod.fst
  | _ => []

end Json

/-- A `std::string` out of the `c_str` of another. -/
def cStr (text : String) : String := String.ofList (text.toList.takeWhile (· ≠ Char.ofNat 0))

/-! ### The parser -/

/-- What ends the loop over the body before its end. -/
inductive Stop where
  | returnFalse
  | exception (e : LogicError)
  deriving DecidableEq, Repr

abbrev Parse := EStateM Stop NvDsServerStreamInfo

def Parse.ofExcept {α : Type} : Except LogicError α → Parse α
  | .ok a => pure a
  | .error e => throw (.exception e)

/-- `j.get (key, EMPTY_STRING).asString ().c_str ()` -/
def Parse.text (j : Json) (key : String) : Parse String := do
  let v ← ofExcept (j.get key (.string ""))
  let text ← ofExcept v.asString
  return cStr text

namespace NvDsServerStreamInfo

/-- The fail status of the change word. -/
def failStatus (info : NvDsServerStreamInfo) : NvDsServerStreamInfo :=
  if Contains info.valueChange "add" then { info with status := .addFail }
  else if Contains info.valueChange "remove" then { info with status := .removeFail }
  else if Contains info.valueChange "update" then { info with status := .updateFail }
  else info

/-- The same texts for an empty url and for an empty id. -/
def sourceUrlEmpty (info : NvDsServerStreamInfo) : NvDsServerStreamInfo :=
  let info :=
    if Contains info.valueChange "add" then { info with streamLog := "STREAM_ADD_FAIL, Source url empty" }
    else if Contains info.valueChange "remove" then { info with streamLog := "STREAM_REMOVE_FAIL, Source url empty" }
    else if Contains info.valueChange "update" then { info with streamLog := "STREAM_UPDATE_FAIL, Source url empty" }
    else info
  { info.failStatus with code := .badRequest }

end NvDsServerStreamInfo

namespace Parse

def sourceUrlEmpty : Parse Unit := do
  modify NvDsServerStreamInfo.sourceUrlEmpty
  throw .returnFalse

/-- A loop over what an iterator over the value goes through. -/
def forKeys (j : Json) (round : String → Parse Unit) : Parse Unit := do
  for key in j.keys do
    round key

/-- One round of the loop over "value" or "event". -/
def valueKey (sub : Json) (key : String) : Parse Unit := do
  if key = "metadata" then
    let metadata ← ofExcept (sub.get (cStr key) .null)
    let resolution ← text metadata "resolution"
    modify fun info => { info with metadataResolution := resolution }
    let codec ← text metadata "codec"
    modify fun info => { info with metadataCodec := codec }
    let framerate ← text metadata "framerate"
    modify fun info => { info with metadataFramerate := framerate }
  else
    let cameraId ← text sub "camera_id"
    modify fun info => { info with valueCameraId := cameraId }
    let cameraName ← text sub "camera_name"
    modify fun info => { info with valueCameraName := cameraName }
    let cameraUrl ← text sub "camera_url"
    modify fun info => { info with valueCameraUrl := cameraUrl }
    let change ← text sub "change"
    modify fun info => { info with valueChange := change }
    if cameraUrl = "" then sourceUrlEmpty
    if cameraId = "" then sourceUrlEmpty

/-- One round of the loop over "headers". -/
def headersKey (sub : Json) (_key : String) : Parse Unit := do
  let source ← text sub "source"
  modify fun info => { info with headersSource := source }
  let createdAt ← text sub "created_at"
  modify fun info => { info with headersCreatedAt := createdAt }

/-- One round of the loop over the body. -/
def rootKey (body : Json) (key : String) : Parse Unit := do
  let rootVal := cStr key
  let sub ← ofExcept (body.get rootVal .null)
  if rootVal = "key" then
    let text ← text body "key"
    modify fun info => { info with key := text }
  if rootVal = "value" ∨ rootVal = "event" then
    forKeys sub (valueKey sub)
  if rootVal = "headers" then
    forKeys sub (headersKey sub)

end Parse

section
variable (what : LogicError → String)

/-- `what` is the text of an exception. -/
def nvdsRestStreamParse (body : Json) (info : NvDsServerStreamInfo) : Bool × NvDsServerStreamInfo :=
  if Contains info.uri "/api/v1/" then
    match (Parse.forKeys body (Parse.rootKey body)).run info with
    | .ok _ info => (true, info)
    | .error .returnFalse info => (false, info)
    | .error (.exception e) info =>
      (false, { info.failStatus with
        streamLog := "STREAM ADD/REMOVE/UPDATE_FAIL, error: " ++ what e
        code := .badRequest })
  else (true, info)

end

open Std.Do

/-- What is parsed leaves the code as it is, and the version of the uri, until it fails. -/
abbrev Sound {α : Type} (m : Parse α) : Prop :=
  ⦃fun info => ⌜info.code = .ok ∧ Contains info.uri "/api/v1/"⌝⦄ m
    ⦃post⟨fun _ info => ⌜info.code = .ok ∧ Contains info.uri "/api/v1/"⌝,
      fun e info => ⌜e = .returnFalse → info.code = .badRequest⌝⟩⦄

theorem sound_ofExcept {α : Type} (r : Except LogicError α) : Sound (Parse.ofExcept r) := by
  cases r with
  | ok a => mvcgen [Parse.ofExcept]
  | error e =>
    mvcgen [Parse.ofExcept]
    simp

theorem sound_text (j : Json) (key : String) : Sound (Parse.text j key) := by
  mvcgen [Parse.text, sound_ofExcept]

@[simp] theorem code_sourceUrlEmpty (info : NvDsServerStreamInfo) : info.sourceUrlEmpty.code = .badRequest := rfl

theorem sound_sourceUrlEmpty : Sound Parse.sourceUrlEmpty := by
  mvcgen [Parse.sourceUrlEmpty]
  exact code_sourceUrlEmpty _

theorem sound_forKeys (j : Json) {round : String → Parse Unit} (h : ∀ key, Sound (round key)) :
    Sound (Parse.forKeys j round) := by
  mvcgen [Parse.forKeys, h]
  case inv1 => exact post⟨fun _ info => ⌜info.code = .ok ∧ Contains info.uri "/api/v1/"⌝,
    fun e info => ⌜e = .returnFalse → info.code = .badRequest⌝⟩
  case vc3.step.post.except.handle => exact fun _ => id
  case vc6.post.except => exact ExceptConds.entails.refl _
  all_goals assumption

theorem sound_valueKey (sub : Json) (key : String) : Sound (Parse.valueKey sub key) := by
  mvcgen [Parse.valueKey, sound_ofExcept, sound_text, sound_sourceUrlEmpty]

theorem sound_headersKey (sub : Json) (key : String) : Sound (Parse.headersKey sub key) := by
  mvcgen [Parse.headersKey, sound_text]

theorem Sound.pure {α : Type} (a : α) : Sound (pure a : Parse α) := by
  mvcgen

theorem Sound.bind {α β : Type} {m : Parse α} {f : α → Parse β} (hm : Sound m) (hf : ∀ a, Sound (f a)) :
    Sound (m >>= f) := by
  mvcgen [hm, hf]

theorem Sound.ite {α : Type} {c : Prop} [Decidable c] {m m' : Parse α} (h : Sound m) (h' : Sound m') :
    Sound (if c then m else m') := by
  split
  · exact h
  · exact h'

theorem sound_rootKey (body : Json) (key : String) : Sound (Parse.rootKey body key) := by
  refine Sound.bind (sound_ofExcept _) fun sub => ?_
  -- the three branches from the last one on: each goes on with those behind it
  have hheaders := Sound.ite (c := cStr key = "headers") (sound_forKeys sub (sound_headersKey sub)) (Sound.pure ())
  have hvalue := Sound.ite (c := cStr key = "value" ∨ cStr key = "event")
    (Sound.bind (sound_forKeys sub (sound_valueKey sub)) fun _ => hheaders) hheaders
  refine Sound.ite (Sound.bind (sound_text body "key") fun text => Sound.bind ?_ fun _ => hvalue) hvalue
  mvcgen

/-- What a parse leaves. -/
def Outcome : EStateM.Result Stop NvDsServerStreamInfo Unit → Prop
  | .ok _ info => info.code = .ok ∧ Contains info.uri "/api/v1/"
  | .error e info => e = .returnFalse → info.code = .badRequest

theorem Sound.run {m : Parse Unit} (h : Sound m) {info : NvDsServerStreamInfo} (hcode : info.code = .ok)
    (hapi : Contains info.uri "/api/v1/") : Outcome (m.run info) := by
  have hrun : m.run info = m.run info := rfl
  exact EStateM.of_wp_run_eq hrun Outcome fun _ => h info ⟨hcode, hapi⟩

/-- The code is OK exactly when the body was parsed to its end. -/
theorem code_nvdsRestStreamParse (what : LogicError → String) (body : Json) {info : NvDsServerStreamInfo}
    (hcode : info.code = .ok) (hapi : Contains info.uri "/api/v1/") :
    let r := nvdsRestStreamParse what body info
    (r.1 = true → r.2.code = .ok ∧ Contains r.2.uri "/api/v1/") ∧ (r.1 = false → r.2.code = .badRequest) := by
  have hrun := (sound_forKeys body (sound_rootKey body)).run hcode hapi
  simp only [nvdsRestStreamParse, if_pos hapi]
  split
  · rename_i hr
    rw [hr] at hrun
    exact ⟨fun _ => hrun, by simp⟩
  · rename_i hr
    rw [hr] at hrun
    exact ⟨by simp, fun _ => hrun rfl⟩
  · exact ⟨by simp, fun _ => rfl⟩

/-! ### The handlers -/

/-- The number and the text of a code. -/
def httpStatusCode : NvDsServerStatusCode → ℕ × String
  | .ok => (200, "OK")
  | .accepted => (202, "Accepted")
  | .badRequest => (400, "Bad Request")
  | .unauthorized => (401, "Unauthorized")
  | .forbidden => (403, "Forbidden")
  | .methodNotAllowed => (405, "Method Not Allowed")
  | .notAcceptable => (406, "Not Acceptable")
  | .proxyAuthenticationRequired => (407, "Proxy Authentication Required")
  | .requestTimeout => (408, "Request Timout")
  | .preconditionFailed => (412, "Precondition Failed")
  | .payloadTooLarge => (413, "Payload Too Large")
  | .uriTooLong => (414, "Uri Too Long")
  | .unsupportedMediaType => (415, "Unsupported Media Type")
  | .internalServerError => (500, "Internal Server Error")
  | .notImplemented => (501, "Not Implemented")

/-- `req_info` -/
structure ReqInfo where
  url : String
  method : String
  deriving DecidableEq, Repr

/-- What the handler puts into the answer. -/
structure Response where
  status : String
  reason : String
  deriving DecidableEq, Repr

def Iequals (a b : String) : Prop := a.toList.map Char.toLower = b.toList.map Char.toLower

instance (a b : String) : Decidable (Iequals a b) := inferInstanceAs (Decidable (_ = _))

def statusLine (code : NvDsServerStatusCode) : String :=
  "HTTP/1.1 " ++ toString (httpStatusCode code).1 ++ " " ++ (httpStatusCode code).2

def respond (info : NvDsServerStreamInfo) : Response := ⟨statusLine info.code, info.streamLog⟩

/-- The stream endpoints. -/
inductive Endpoint where
  | add
  | remove
  | update
  deriving DecidableEq, Repr

def Endpoint.uri : Endpoint → String
  | .add => "/api/v1/stream/add"
  | .remove => "/api/v1/stream/remove"
  | .update => "/api/v1/stream/update"

namespace NvMultiUriBin

section Handlers
variable (what : LogicError → String) (s : NvMultiUriBin) (cb : StreamCb) (a : Answers) (req : ReqInfo) (body : Json)

/-- What the handlers of the stream endpoints do; `uri` is the endpoint's. The
code that is returned is that of the status line of the whole answer. -/
def handleStream (uri : String) : Option (NvDsServerStatusCode × Option Response × NvMultiUriBin) :=
  if req.url = "" ∨ req.method = "unknown" then some (.badRequest, none, s)
  else if Iequals req.method "post" then
    match nvdsRestStreamParse what body { uri := uri } with
    | (true, info) => (s.streamCb cb a info).map fun r => (.ok, some (respond r.1), r.2)
    | (false, info) => some (.ok, some (respond info), s)
  else some (.ok, none, s)

def handleAddStream (uri : String) : Option (NvDsServerStatusCode × Option Response × NvMultiUriBin) :=
  s.handleStream what cb a req body uri

def handleRemoveStream (uri : String) : Option (NvDsServerStatusCode × Option Response × NvMultiUriBin) :=
  s.handleStream what cb a req body uri

def handleUpdateStream (uri : String) : Option (NvDsServerStatusCode × Option Response × NvMultiUriBin) :=
  s.handleStream what cb a req body uri

/-- The function that the server has for the endpoint. -/
def handle (ep : Endpoint) : Option (NvDsServerStatusCode × Option Response × NvMultiUriBin) :=
  match ep with
  | .add => s.handleAddStream what cb a req body ep.uri
  | .remove => s.handleRemoveStream what cb a req body ep.uri
  | .update => s.handleUpdateStream what cb a req body ep.uri

end Handlers

/-! ### What a faithful answer is -/

/-- The change that the callback makes out of the change word. -/
def asked (cb : StreamCb) (info : NvDsServerStreamInfo) : Option Endpoint :=
  match cb with
  | .bin =>
    if Contains info.valueChange "add" ∨ Contains info.valueChange "streaming" then some .add
    else if Contains info.valueChange "remove" then some .remove
    else none
  | .server =>
    if Contains info.valueChange "add" then some .add
    else if Contains info.valueChange "remove" then some .remove
    else if Contains info.valueChange "update" then some .update
    else none

/-- The endpoint's change, from the sources `l` to the sources `l'`. -/
def Changed (ep : Endpoint) (l l' : List (ℕ × GstDsNvUriSrcConfig)) : Prop :=
  match ep with
  | .add => ∃ p, p.1 ∉ l.map Prod.fst ∧ l' = p :: l
  | .remove => ∃ p ∈ l, l' = l.filter (·.1 ≠ p.1)
  | .update => ∃ p ∈ l, ∃ q, q.1 ∉ l.map Prod.fst ∧ l' = q :: l.filter (·.1 ≠ p.1)

/-- The endpoint's change, of the source that the request is about. -/
def Performed (ep : Endpoint) (info : NvDsServerStreamInfo) (l l' : List (ℕ × GstDsNvUriSrcConfig)) : Prop :=
  match ep with
  | .add => ∃ addr fd, addr ∉ l.map Prod.fst ∧ l' = (addr, configOf info fd) :: l
  | .remove => ∃ p ∈ l, (p.2.uri = some info.valueCameraUrl ∧ p.2.sensorId = some info.valueCameraId) ∧
      l' = l.filter (·.1 ≠ p.1)
  | .update => ∃ p ∈ l, p.2.sensorId = some info.valueCameraId ∧
      ∃ addr fd, addr ∉ l.map Prod.fst ∧ l' = (addr, configOf info fd) :: l.filter (·.1 ≠ p.1)

/-- No source is the one that is to be removed or updated. -/
def Unknown (ep : Endpoint) (info : NvDsServerStreamInfo) (l : List (ℕ × GstDsNvUriSrcConfig)) : Prop :=
  match ep with
  | .add => False
  | .remove => ∀ p ∈ l, ¬ (p.2.uri = some info.valueCameraUrl ∧ p.2.sensorId = some info.valueCameraId)
  | .update => ∀ p ∈ l, p.2.sensorId ≠ some info.valueCameraId

/-- An unknown sensor, a body that nothing was parsed from, or a change word
that does not fit the endpoint. -/
def Unfit (cb : StreamCb) (ep : Endpoint) (info : NvDsServerStreamInfo) (l : List (ℕ × GstDsNvUriSrcConfig)) : Prop :=
  Unknown ep info l ∨ info = { uri := ep.uri } ∨ asked cb info ≠ some ep

/-- The answer has the OK status. -/
def IsOk (response : Option Response) : Prop := response.map Response.status = some "HTTP/1.1 200 OK"

instance (response : Option Response) : Decidable (IsOk response) := inferInstanceAs (Decidable (_ = _))

structure Faithful (cb : StreamCb) (ep : Endpoint) (info : NvDsServerStreamInfo) (response : Option Response)
    (l l' : List (ℕ × GstDsNvUriSrcConfig)) : Prop where
  performed : IsOk response ↔ Performed ep info l l'
  unfit : Unfit cb ep info l → ¬ IsOk response ∧ l' = l

section Condition

/-- What the endpoint gets out of the body, and whether it was parsed to its end. -/
def parsed (what : LogicError → String) (ep : Endpoint) (body : Json) : Bool × NvDsServerStreamInfo :=
  nvdsRestStreamParse what body { uri := ep.uri }

/-- The request gets to the callback. -/
def Calls (what : LogicError → String) (ep : Endpoint) (req : ReqInfo) (body : Json) : Prop :=
  ¬ (req.url = "" ∨ req.method = "unknown") ∧ Iequals req.method "post" ∧ (parsed what ep body).1 = true

variable (s : NvMultiUriBin) (cb : StreamCb) (a : Answers) (info : NvDsServerStreamInfo)

/-- The callback finds a source, and the hash has the request's source for its id. -/
def Finds : Endpoint → Prop
  | .add => True
  | .remove => ∃ e ∈ s.getSourceConfig info.valueCameraUrl info.valueCameraId,
      a.stopped = true ∧ a.removed = true → ∀ addr ∈ s.creator.sourceInfoHash[(guint e.sourceId : ℤ)]?,
        (s.sourceConfig addr).uri = some info.valueCameraUrl ∧
          (s.sourceConfig addr).sensorId = some info.valueCameraId
  | .update => ∃ e ∈ s.getSourceConfigBySensorid info.valueCameraId,
      a.stopped = true ∧ a.removed = true ∧ a.created = true →
        ∀ addr ∈ s.creator.sourceInfoHash[(guint e.sourceId : ℤ)]?,
          (s.sourceConfig addr).sensorId = some info.valueCameraId

/-- The callback says that it cannot do what the change word asks for, and does nothing. -/
def Refuses : Endpoint → Prop
  | .add => ¬ (s.Admits info ∧ (s.sockOf (cb = .bin) a info).isSome = true ∧ a.created = true)
  | .remove => ∃ e ∈ s.getSourceConfig info.valueCameraUrl info.valueCameraId,
      s.creator.sourceInfoHash[(guint e.sourceId : ℤ)]? = none ∨ ¬ (a.stopped = true ∧ a.removed = true)
  | .update => ∃ e ∈ s.getSourceConfigBySensorid info.valueCameraId,
      s.creator.sourceInfoHash[(guint e.sourceId : ℤ)]? = none ∨ ¬ (a.stopped = true ∧ a.removed = true)

/-- A change word for another endpoint is one that cannot be done, and one for
this endpoint finds its source. -/
def Fits (ep : Endpoint) : Prop :=
  match asked cb info with
  | none => True
  | some change => if change = ep then s.Finds a info ep else s.Refuses cb a info change

end Condition

/-! ### Changes of the sources -/

section Changes
variable {ep : Endpoint} {l l' : List (ℕ × GstDsNvUriSrcConfig)}

theorem length_filter_key (h : (l.map Prod.fst).Nodup) {p : ℕ × GstDsNvUriSrcConfig} (hp : p ∈ l) :
    (l.filter (·.1 ≠ p.1)).length + 1 = l.length := by
  have hperm := Keyed.perm_key h (show (p.1, p.2) ∈ l from hp)
  exact hperm.length_eq

/-- The change is known from the number of sources. -/
theorem Changed.length (h : (l.map Prod.fst).Nodup) (hc : Changed ep l l') :
    match ep with
    | .add => l'.length = l.length + 1
    | .remove => l'.length + 1 = l.length
    | .update => l'.length = l.length := by
  cases ep with
  | add =>
    obtain ⟨p, -, rfl⟩ := hc
    exact List.length_cons
  | remove =>
    obtain ⟨p, hp, rfl⟩ := hc
    exact length_filter_key h hp
  | update =>
    obtain ⟨p, hp, q, -, rfl⟩ := hc
    exact length_filter_key h hp

theorem Changed.unique (h : (l.map Prod.fst).Nodup) {ep' : Endpoint} (hc : Changed ep l l') (hc' : Changed ep' l l') :
    ep = ep' := by
  have hl := hc.length h
  have hl' := hc'.length h
  cases ep <;> cases ep' <;> first | rfl | (simp only at hl hl'; omega)

theorem not_changed_self (h : (l.map Prod.fst).Nodup) : ¬ Changed ep l l := by
  intro hc
  have hl := hc.length h
  cases ep with
  | add => simp at hl
  | remove => simp at hl
  | update =>
    obtain ⟨p, hp, q, hq, heq⟩ := hc
    apply hq
    rw [heq]
    exact List.mem_map.mpr ⟨q, List.mem_cons_self, rfl⟩

theorem Performed.changed {info : NvDsServerStreamInfo} (hp : Performed ep info l l') : Changed ep l l' := by
  cases ep with
  | add =>
    obtain ⟨addr, fd, hfresh, rfl⟩ := hp
    exact ⟨_, hfresh, rfl⟩
  | remove =>
    obtain ⟨p, hp, -, rfl⟩ := hp
    exact ⟨p, hp, rfl⟩
  | update =>
    obtain ⟨p, hp, -, addr, fd, hfresh, rfl⟩ := hp
    exact ⟨p, hp, _, hfresh, rfl⟩

theorem Performed.known {info : NvDsServerStreamInfo} (hp : Performed ep info l l') : ¬ Unknown ep info l := by
  cases ep with
  | add => exact id
  | remove =>
    obtain ⟨p, hp, hsource, -⟩ := hp
    exact fun hno => hno p hp hsource
  | update =>
    obtain ⟨p, hp, hsource, -⟩ := hp
    exact fun hno => hno p hp hsource

/-- The source that is gone is known from those that are left. -/
theorem key_eq_of_filter_eq {p : ℕ × GstDsNvUriSrcConfig} {addr : ℕ} (hp : p ∈ l)
    (h : l.filter (·.1 ≠ addr) = l.filter (·.1 ≠ p.1)) : p.1 = addr := by
  by_contra hne
  have hin : p ∈ l.filter (·.1 ≠ addr) := List.mem_filter.mpr ⟨hp, by simpa using hne⟩
  rw [h] at hin
  simp at hin

end Changes

/-! ### Answers -/

theorem statusLine_eq_ok (code : NvDsServerStatusCode) : statusLine code = "HTTP/1.1 200 OK" ↔ code = .ok := by
  cases code <;> decide +kernel

theorem isOk_respond (info : NvDsServerStreamInfo) : IsOk (some (respond info)) ↔ info.code = .ok := by
  rw [IsOk, Option.map_some, Option.some_inj]
  exact statusLine_eq_ok info.code

theorem not_isOk_none : ¬ IsOk none := by
  unfold IsOk
  simp

variable {s t : NvMultiUriBin} {cb : StreamCb} {a : Answers} {ep : Endpoint} {info out : NvDsServerStreamInfo}

theorem streamCb_eq (hapi : Contains info.uri "/api/v1/") :
    s.streamCb cb a info = match asked cb info with
      | none => some (notSupported info, s)
      | some .add => some (s.addStream (cb = .bin) a info)
      | some .remove => s.removeStream a info
      | some .update => s.updateStream a info := by
  cases cb with
  | bin =>
    simp only [streamCb, streamApiImpl, asked, if_pos hapi]
    split
    · rfl
    · split <;> rfl
  | server =>
    simp only [streamCb, streamCallbackImpl, asked, if_pos hapi]
    split
    · rfl
    · split
      · rfl
      · split <;> rfl

/-- Nothing is asked for where nothing was parsed. -/
theorem ne_default_of_asked {c : Endpoint} (h : asked cb info = some c) : info ≠ { uri := ep.uri } := by
  rintro rfl
  revert h
  cases cb <;> simp [asked, Contains]

theorem Faithful.of_refused {response : Option Response} {l : List (ℕ × GstDsNvUriSrcConfig)}
    (h : (l.map Prod.fst).Nodup) (hno : ¬ IsOk response) : Faithful cb ep info response l l :=
  ⟨iff_of_false hno fun hp => not_changed_self h hp.changed, fun _ => ⟨hno, rfl⟩⟩

theorem not_faithful_silent {response : Option Response} {l : List (ℕ × GstDsNvUriSrcConfig)}
    (h : (l.map Prod.fst).Nodup) (hok : IsOk response) : ¬ Faithful cb ep info response l l :=
  fun hf => not_changed_self h (hf.performed.mp hok).changed

/-- An answer to a change that was made. -/
theorem faithful_done {response : Option Response} {c : Endpoint} {l l' : List (ℕ × GstDsNvUriSrcConfig)}
    (h : (l.map Prod.fst).Nodup) (hasked : asked cb info = some c) (hok : IsOk response) (hc : Changed c l l') :
    Faithful cb ep info response l l' ↔ c = ep ∧ Performed ep info l l' := by
  constructor
  · intro hf
    have hp := hf.performed.mp hok
    exact ⟨hc.unique h hp.changed, hp⟩
  · rintro ⟨rfl, hp⟩
    refine ⟨iff_of_true hok hp, ?_⟩
    rintro (hunknown | hdefault | hword)
    · exact absurd hunknown hp.known
    · exact absurd hdefault (ne_default_of_asked hasked)
    · exact absurd hasked hword

theorem eq_sourceConfig {p : ℕ × GstDsNvUriSrcConfig} (hp : p ∈ s.sources) : p.2 = s.sourceConfig p.1 := by
  obtain ⟨q, -, rfl⟩ := List.mem_map.mp hp
  rfl

theorem nextAddr_notMem (h : s.creator.Listed) : s.creator.nextAddr ∉ s.sources.map Prod.fst := by
  intro hin
  obtain ⟨p, hp, heq⟩ := List.mem_map.mp hin
  obtain ⟨q, hq, rfl⟩ := List.mem_map.mp hp
  exact Nat.ne_of_lt (h.fresh q hq) heq

theorem faithful_add (h : s.creator.Listed) (hasked : asked cb info = some .add)
    (hr : s.addStream (cb = .bin) a info = (out, t)) :
    Faithful cb ep info (some (respond out)) s.sources t.sources ↔
      if .add = ep then s.Finds a info ep else s.Refuses cb a info .add := by
  have hn := keys_nodup h
  have hcases := addStream_cases h (cb = .bin) a info
  rw [hr] at hcases
  cases hcases with
  | @refused log _ hno hcreator hcfg hframe =>
    have hsame : t.sources = s.sources := by rw [sources, sources, hcreator, hcfg]
    have hf : Faithful cb ep info (some (respond (addFail info log))) s.sources t.sources := by
      rw [hsame]
      exact .of_refused hn fun hok => by cases (isOk_respond _).mp hok
    refine iff_of_true hf ?_
    split
    · rename_i hep
      subst hep
      trivial
    · exact hno
  | @added fd _ hadmits hcreated hsock hlisted hsources hframe hopen =>
    have hp : Performed .add info s.sources t.sources := ⟨_, fd, nextAddr_notMem h, hsources⟩
    rw [faithful_done hn hasked ((isOk_respond _).mpr rfl) hp.changed]
    split
    · rename_i hep
      subst hep
      exact iff_of_true ⟨rfl, hp⟩ trivial
    · rename_i hep
      refine iff_of_false (fun hall => hep hall.1) fun hno => hno ⟨hadmits, ?_, hcreated⟩
      rw [hsock]
      rfl

theorem getSourceConfigBySensorid_some {e : NvDsUriSourceInfo}
    (he : s.getSourceConfigBySensorid info.valueCameraId = some e) :
    ∃ p ∈ s.sources, p.2.sensorId = some info.valueCameraId :=
  ⟨_, List.mem_map.mpr ⟨_, List.mem_map.mpr ⟨e, List.mem_of_find?_eq_some he, rfl⟩, rfl⟩,
    by simpa using List.find?_some he⟩

/-- A source that the hash has, and that stops and leaves the bin, is not refused. -/
theorem not_refused {k : ℤ} {addr : ℕ} (hhash : s.creator.sourceInfoHash[k]? = some addr)
    (hall : a.stopped = true ∧ a.removed = true) :
    ¬ (s.creator.sourceInfoHash[k]? = none ∨ ¬ (a.stopped = true ∧ a.removed = true)) := by
  rintro (hnone | hnot)
  · rw [hhash] at hnone
    cases hnone
  · exact hnot hall

theorem faithful_remove (h : s.creator.Listed) (hcode : info.code = .ok) (hasked : asked cb info = some .remove)
    (hr : s.removeStream a info = some (out, t)) :
    Faithful cb ep info (some (respond out)) s.sources t.sources ↔
      if .remove = ep then s.Finds a info ep else s.Refuses cb a info .remove := by
  have hn := keys_nodup h
  cases removeStream_cases h hr with
  | unknown hnone =>
    refine iff_of_false (not_faithful_silent hn ((isOk_respond _).mpr hcode)) ?_
    split
    · rename_i hep
      subst hep
      simp [Finds, hnone]
    · simp [Refuses, hnone]
  | @failed e _ he hno hlisted hsources =>
    have hrefused : Faithful cb ep info (some (respond { info with
        status := .removeFail
        streamLog := "STREAM_REMOVE_FAIL,Failed to remove source stream"
        code := .internalServerError })) s.sources t.sources := by
      rw [hsources]
      exact .of_refused hn fun hok => by cases (isOk_respond _).mp hok
    refine iff_of_true hrefused ?_
    split
    · rename_i hep
      subst hep
      exact ⟨e, he, fun hall addr haddr => absurd hno (not_refused haddr hall)⟩
    · exact ⟨e, he, hno⟩
  | @removed e addr _ he hall hhash hmem hlisted hsources =>
    have hc : Changed .remove s.sources t.sources := ⟨_, hmem, hsources⟩
    rw [faithful_done hn hasked ((isOk_respond _).mpr rfl) hc]
    split
    · rename_i hep
      subst hep
      constructor
      · rintro ⟨-, p, hp, hsource, hleft⟩
        refine ⟨e, he, fun _ addr' haddr' => ?_⟩
        obtain rfl := Option.some.inj (hhash.symm.trans haddr')
        rwa [eq_sourceConfig hp, key_eq_of_filter_eq hp (hsources.symm.trans hleft)] at hsource
      · rintro ⟨e', he', hsource⟩
        obtain rfl := Option.some.inj (he.symm.trans he')
        exact ⟨rfl, _, hmem, hsource hall addr hhash, hsources⟩
    · rename_i hep
      refine iff_of_false (fun hp => hep hp.1) ?_
      rintro ⟨e', he', hno⟩
      obtain rfl := Option.some.inj (he.symm.trans he')
      exact not_refused hhash hall hno

theorem faithful_update (h : s.creator.Listed) (hcode : info.code = .ok) (hasked : asked cb info = some .update)
    (hr : s.updateStream a info = some (out, t)) :
    Faithful cb ep info (some (respond out)) s.sources t.sources ↔
      if .update = ep then s.Finds a info ep else s.Refuses cb a info .update := by
  have hn := keys_nodup h
  cases updateStream_cases h hr with
  | unknown hnone =>
    refine iff_of_false (not_faithful_silent hn ((isOk_respond _).mpr hcode)) ?_
    split
    · rename_i hep
      subst hep
      simp [Finds, hnone]
    · simp [Refuses, hnone]
  | @failed e _ he hno hlisted hframe hsources =>
    have hrefused : Faithful cb ep info (some (respond { info with
        status := .updateFail
        streamLog := "STREAM_UPDATE_FAIL, Failed to update source stream"
        code := .internalServerError })) s.sources t.sources := by
      rw [hsources]
      exact .of_refused hn fun hok => by cases (isOk_respond _).mp hok
    refine iff_of_true hrefused ?_
    split
    · rename_i hep
      subst hep
      exact ⟨e, he, fun hall addr haddr => absurd hno (not_refused haddr ⟨hall.1, hall.2.1⟩)⟩
    · exact ⟨e, he, hno⟩
  | @dropped e addr _ he hall hcreated hhash hmem hlisted hframe hsources =>
    have hc : Changed .remove s.sources t.sources := ⟨_, hmem, hsources⟩
    have hno : ¬ IsOk (some (respond { info with
        status := .updateFail
        streamLog := "STREAM_UPDATE_FAIL, Failed to update source stream"
        code := .internalServerError })) := fun hok => by cases (isOk_respond _).mp hok
    split
    · rename_i hep
      subst hep
      refine iff_of_true ⟨iff_of_false hno fun hp => ?_, ?_⟩ ⟨e, he, by simp [hcreated]⟩
      · cases hc.unique hn hp.changed
      · rintro (hunknown | hdefault | hword)
        · exact absurd (getSourceConfigBySensorid_some he) fun ⟨p, hp, hid⟩ => hunknown p hp hid
        · exact absurd hdefault (ne_default_of_asked hasked)
        · exact absurd hasked hword
    · rename_i hep
      refine iff_of_false (fun hf => ?_) ?_
      · have hword : asked cb info ≠ some ep := by
          rw [hasked]
          exact fun heq => hep (Option.some.inj heq)
        have hsame := (hf.unfit (.inr (.inr hword))).2
        exact not_changed_self hn (hsame ▸ hc)
      · rintro ⟨e', he', hno'⟩
        obtain rfl := Option.some.inj (he.symm.trans he')
        exact not_refused hhash hall hno'
  | @updated e addr _ he hall hcreated hhash hmem hlisted hframe hsources =>
    have hc : Changed .update s.sources t.sources := ⟨_, hmem, _, nextAddr_notMem h, hsources⟩
    rw [faithful_done hn hasked ((isOk_respond _).mpr rfl) hc]
    split
    · rename_i hep
      subst hep
      constructor
      · rintro ⟨-, p, hp, hsource, addr', fd, -, hleft⟩
        refine ⟨e, he, fun _ addr' haddr' => ?_⟩
        obtain rfl := Option.some.inj (hhash.symm.trans haddr')
        have htail := (List.cons.inj (hsources.symm.trans hleft)).2
        rwa [eq_sourceConfig hp, key_eq_of_filter_eq hp htail] at hsource
      · rintro ⟨e', he', hsource⟩
        obtain rfl := Option.some.inj (he.symm.trans he')
        exact ⟨rfl, _, hmem, hsource ⟨hall.1, hall.2, hcreated⟩ addr hhash, _, _, nextAddr_notMem h, hsources⟩
    · rename_i hep
      refine iff_of_false (fun hp => hep hp.1) ?_
      rintro ⟨e', he', hno⟩
      obtain rfl := Option.some.inj (he.symm.trans he')
      exact not_refused hhash hall hno

/-- What a request does: without the callback it changes nothing and is not answered with OK. -/
theorem handle_cases {what : LogicError → String} {req : ReqInfo} {body : Json}
    {r : NvDsServerStatusCode × Option Response × NvMultiUriBin} (hr : s.handle what cb a req body ep = some r) :
    (¬ Calls what ep req body ∧ ¬ IsOk r.2.1 ∧ r.2.2 = s) ∨
    (Calls what ep req body ∧ (parsed what ep body).2.code = .ok ∧ Contains (parsed what ep body).2.uri "/api/v1/" ∧
      ∃ out, s.streamCb cb a (parsed what ep body).2 = some (out, r.2.2) ∧ r.2.1 = some (respond out)) := by
  obtain ⟨ret, response, t⟩ := r
  have hstream : s.handleStream what cb a req body ep.uri = some (ret, response, t) := by
    cases ep with
    | add => exact hr
    | remove => exact hr
    | update => exact hr
  have hapi : Contains ep.uri "/api/v1/" := by cases ep <;> decide +kernel
  have hcode : NvDsServerStreamInfo.code { uri := ep.uri } = .ok := rfl
  obtain ⟨hparsed, hfailed⟩ := code_nvdsRestStreamParse what body hcode hapi
  unfold handleStream at hstream
  by_cases hbad : req.url = "" ∨ req.method = "unknown"
  · rw [if_pos hbad] at hstream
    obtain ⟨-, rfl, rfl⟩ : .badRequest = ret ∧ none = response ∧ s = t := by simpa using hstream
    exact .inl ⟨fun hcalls => hcalls.1 hbad, not_isOk_none, rfl⟩
  · rw [if_neg hbad] at hstream
    by_cases hpost : Iequals req.method "post"
    · rw [if_pos hpost] at hstream
      cases hret : (parsed what ep body).1 with
      | false =>
        have hcode := hfailed hret
        have heq : nvdsRestStreamParse what body { uri := ep.uri } = (false, (parsed what ep body).2) :=
          Prod.ext hret rfl
        rw [heq] at hstream
        obtain ⟨-, rfl, rfl⟩ : .ok = ret ∧ some (respond (parsed what ep body).2) = response ∧ s = t := by
          simpa using hstream
        refine .inl ⟨fun hcalls => absurd hcalls.2.2 (by simp [hret]), fun hok => ?_, rfl⟩
        have hset := (isOk_respond _).mp hok
        exact absurd (hset.symm.trans hcode) (by decide)
      | true =>
        have heq : nvdsRestStreamParse what body { uri := ep.uri } = (true, (parsed what ep body).2) :=
          Prod.ext hret rfl
        rw [heq] at hstream
        obtain ⟨⟨out, u⟩, hout, hanswer⟩ := Option.map_eq_some_iff.mp hstream
        obtain ⟨-, rfl, rfl⟩ : .ok = ret ∧ some (respond out) = response ∧ u = t := by simpa using hanswer
        exact .inr ⟨⟨hbad, hpost, hret⟩, (hparsed hret).1, (hparsed hret).2, out, hout, rfl⟩
    · rw [if_neg hpost] at hstream
      obtain ⟨-, rfl, rfl⟩ : .ok = ret ∧ none = response ∧ s = t := by simpa using hstream
      exact .inl ⟨fun hcalls => hpost hcalls.2.1, not_isOk_none, rfl⟩

theorem listed_handle (h : s.creator.Listed) {what : LogicError → String} {req : ReqInfo} {body : Json}
    {r : NvDsServerStatusCode × Option Response × NvMultiUriBin} (hr : s.handle what cb a req body ep = some r) :
    r.2.2.creator.Listed := by
  rcases handle_cases hr with ⟨-, -, hsame⟩ | ⟨-, -, -, out, hout, -⟩
  · exact hsame ▸ h
  · exact listed_streamCb h hout

/-- **The answer tells what was done.** For every endpoint, every request and
every state whose sources have addresses of their own, the answer is OK exactly
when the endpoint's change was made, and nothing is made of a request that is
unfit, exactly when the callback is not reached or the change word fits. -/
theorem faithful_iff (h : s.creator.Listed) {what : LogicError → String} {req : ReqInfo} {body : Json}
    {r : NvDsServerStatusCode × Option Response × NvMultiUriBin} (hr : s.handle what cb a req body ep = some r) :
    Faithful cb ep (parsed what ep body).2 r.2.1 s.sources r.2.2.sources ↔
      (Calls what ep req body → s.Fits cb a (parsed what ep body).2 ep) := by
  have hcases := handle_cases hr
  obtain ⟨ret, response, t⟩ := r
  rcases hcases with ⟨hno, hnot, rfl⟩ | ⟨hcalls, hcode, hapi, out, hout, rfl⟩
  · exact iff_of_true (.of_refused (keys_nodup h) hnot) fun hcalls => absurd hcalls hno
  · rw [forall_prop_of_true hcalls]
    generalize (parsed what ep body).2 = info at hcode hapi hout ⊢
    rw [streamCb_eq hapi] at hout
    unfold Fits
    cases hasked : asked cb info with
    | none =>
      rw [hasked] at hout
      obtain ⟨rfl, rfl⟩ := Prod.mk.inj (Option.some.inj hout)
      exact iff_of_true (.of_refused (keys_nodup h) fun hok => by cases (isOk_respond _).mp hok) trivial
    | some change =>
      rw [hasked] at hout
      cases change with
      | add => exact faithful_add h hasked (Option.some.inj hout)
      | remove => exact faithful_remove h hcode hasked hout
      | update => exact faithful_update h hcode hasked hout

/-- A request's body, for camera `id`. -/
def requestBody (id url change : String) : Json :=
  .object [("key", .string "sensor"),
    ("value", .object [("camera_id", .string id), ("camera_url", .string url), ("change", .string change)])]

/-- A camera is added and is then removed by a request to the endpoint for that. -/
theorem faithful_iff_removed :
    let req : ReqInfo := ⟨"/api/v1/stream/remove", "POST"⟩
    let body := requestBody "a" "rtsp://a" "camera_remove"
    let s := ((new 4).handle (fun _ => "") .bin ⟨true, none, true, true⟩ ⟨"/api/v1/stream/add", "POST"⟩
      (requestBody "a" "rtsp://a" "camera_add") .add).get (by decide +kernel)
    let t := (s.2.2.handle (fun _ => "") .bin ⟨true, none, true, true⟩ req body .remove).get (by decide +kernel)
    Faithful .bin .remove (parsed (fun _ => "") .remove body).2 t.2.1 s.2.2.sources t.2.2.sources ↔
      (Calls (fun _ => "") .remove req body →
        s.2.2.Fits .bin ⟨true, none, true, true⟩ (parsed (fun _ => "") .remove body).2 .remove) := by
  intro req body s t
  have hnew : (new 4).creator.Listed := Started.listed ⟨rfl, rfl, rfl, rfl, rfl⟩
  have hs : s.2.2.creator.Listed := listed_handle hnew (Option.some_get _).symm
  exact faithful_iff hs (Option.some_get _).symm

/-- The removal of a camera that the bin does not have is answered with OK, and
so is an addition by a request to the endpoint for removals. -/
theorem unknown_removed :
    let a : Answers := ⟨true, none, true, true⟩
    let req : ReqInfo := ⟨"/api/v1/stream/remove", "POST"⟩
    let unknown := requestBody "a" "rtsp://a" "camera_remove"
    let added := requestBody "a" "rtsp://a" "camera_add"
    let s := ((new 4).handle (fun _ => "") .bin a req unknown .remove).get (by decide +kernel)
    let t := ((new 4).handle (fun _ => "") .bin a req added .remove).get (by decide +kernel)
    (IsOk s.2.1 ∧ s.2.2.sources = [] ∧ ¬ Faithful .bin .remove (parsed (fun _ => "") .remove unknown).2 s.2.1 [] []) ∧
      IsOk t.2.1 ∧ t.2.2.sources ≠ [] ∧
        ¬ Faithful .bin .remove (parsed (fun _ => "") .remove added).2 t.2.1 [] t.2.2.sources := by
  intro a req unknown added s t
  have hs : IsOk s.2.1 := by decide +kernel
  have ht : IsOk t.2.1 := by decide +kernel
  have hword : asked .bin (parsed (fun _ => "") .remove added).2 ≠ some .remove := by decide +kernel
  exact ⟨⟨hs, by decide +kernel, not_faithful_silent List.nodup_nil hs⟩, ht, by decide +kernel,
    fun hf => (hf.unfit (.inr (.inr hword))).1 ht⟩

end NvMultiUriBin
end MultiUri
end DeepStream
