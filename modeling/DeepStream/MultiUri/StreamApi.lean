/-
# Stream requests of the multi-URI source bin

The REST server hands a parsed request to the stream callback of the bin or to
that of the server application. The callback finds out from a word of the
request what to do, and does it with one template of a source's config: it puts
the uri and the sensor id of the request there, has the creator copy the
template into the new source, and takes them out again. A source comes from the
start-up list of the bin or from a request, and goes by a request or by the
sections of the registry that drop a source.
-/
import DeepStream.MultiUri.SourceRegistry

namespace DeepStream
namespace MultiUri

open Std

/-- Whether `word` is a part of the text. -/
def Contains (text word : String) : Prop := word.toList <:+: text.toList

instance (text word : String) : Decidable (Contains text word) := inferInstanceAs (Decidable (_ <:+: _))

def IsIpc (uri : String) : Prop := "ipc://".toList <+: uri.toList

instance (uri : String) : Decidable (IsIpc uri) := inferInstanceAs (Decidable (_ <+: _))

inductive NvDsServerStatusCode where
  | ok
  | accepted
  | badRequest
  | unauthorized
  | forbidden
  | methodNotAllowed
  | notAcceptable
  | proxyAuthenticationRequired
  | requestTimeout
  | preconditionFailed
  | payloadTooLarge
  | uriTooLong
  | unsupportedMediaType
  | internalServerError
  | notImplemented
  deriving DecidableEq, Repr

inductive NvDsServerStreamStatus where
  | addSuccess
  | addFail
  | removeSuccess
  | removeFail
  | updateSuccess
  | updateFail
  deriving DecidableEq, Repr

/-- The defaults are those of a request that nothing was parsed of. -/
structure NvDsServerStreamInfo where
  key : String := ""
  valueCameraId : String := ""
  valueCameraName : String := ""
  valueCameraUrl : String := ""
  valueChange : String := ""
  metadataResolution : String := ""
  metadataCodec : String := ""
  metadataFramerate : String := ""
  headersSource : String := ""
  headersCreatedAt : String := ""
  status : NvDsServerStreamStatus := .addSuccess
  streamLog : String := ""
  uri : String
  code : NvDsServerStatusCode := .ok
  deriving DecidableEq, Repr

/-- The `source_id` is in the registry. -/
structure GstDsNvUriSrcConfig where
  uri : Option String
  sensorId : Option String
  sensorName : Option String
  sockFd : ℤ
  deriving DecidableEq, Repr

/-- `sourceConfig` are the configs of the sources by their addresses, `config`
is the template; `openFds` are the sockets connected and not closed since, and
`closedFds` what was closed, in order. -/
structure NvMultiUriBin where
  creator : NvMultiUriSrcBinCreator
  sourceConfig : ℕ → GstDsNvUriSrcConfig
  config : GstDsNvUriSrcConfig
  maxBatchSize : ℕ
  restServer : Bool
  openFds : List ℤ
  closedFds : List ℤ

/-- What GStreamer and the system answer to a request: whether an element is
created, the socket that is connected, and whether a source stops and leaves
the bin. -/
structure Answers where
  created : Bool
  connected : Option ℤ
  stopped : Bool
  removed : Bool
  deriving DecidableEq, Repr

/-- Whose stream callback the REST server has. -/
inductive StreamCb where
  | bin
  | server
  deriving DecidableEq, Repr

namespace NvMultiUriSrcBinCreator

variable (c : NvMultiUriSrcBinCreator)

/-- The first pad number from `base_index` on that the muxer has no pad of. -/
def getSourceId : ℤ × NvMultiUriSrcBinCreator :=
  match (List.range 1024).find? fun i => (c.baseIndex + i) % 1024 ∉ c.streammuxPads with
  | none => (-1, c)
  | some i => (((c.baseIndex + i) % 1024 : ℕ), { c with baseIndex := (c.baseIndex + i) % 1024 + 1 })

def addSource : NvMultiUriSrcBinCreator := c.getSourceId.2.register c.getSourceId.1

end NvMultiUriSrcBinCreator

namespace NvMultiUriBin

variable (s : NvMultiUriBin)

/-- The sources of the list, with their addresses. -/
def sources : List (ℕ × GstDsNvUriSrcConfig) := s.creator.entries.map fun p => (p.2, s.sourceConfig p.2)

/-- A new source with the template as it is. -/
def addSource (created : Bool) : Bool × NvMultiUriBin :=
  if created then
    (true, { s with
      creator := s.creator.addSource
      sourceConfig := Function.update s.sourceConfig s.creator.nextAddr s.config })
  else (false, s)

/-- `close` of the socket that a source's config has. -/
def closeSock (addr : ℕ) : NvMultiUriBin :=
  let fd := (s.sourceConfig addr).sockFd
  if fd ≠ -1 then { s with openFds := s.openFds.erase fd, closedFds := s.closedFds ++ [fd] } else s

/-- The id as the `guint` that the creator's functions take. -/
def guint (sourceId : ℤ) : ℕ := (sourceId % 2 ^ 32).toNat

/-- What `remove_source_impl` and the first half of `update_source` do. -/
def stopSource (clears : Bool) (sourceId : ℕ) (force stopped removed : Bool) : Option (Bool × NvMultiUriBin) :=
  (s.creator.stopSource clears sourceId force stopped removed).map fun (c, done) =>
    match s.creator.sourceInfoHash[(sourceId : ℤ)]? with
    | some addr => (done, { (if done then s.closeSock addr else s) with creator := c })
    | none => (done, { s with creator := c })

/-- A new source takes the id and the template, not the old socket. -/
def updateSource (sourceId : ℤ) (a : Answers) : Option (Bool × NvMultiUriBin) :=
  (s.stopSource true (guint sourceId) true a.stopped a.removed).map fun (done, s) =>
    if done ∧ a.created then
      (true, { s with
        creator := s.creator.register sourceId
        sourceConfig := Function.update s.sourceConfig s.creator.nextAddr s.config })
    else (false, s)

def getSourceConfig (uri sensorId : String) : Option NvDsUriSourceInfo :=
  s.creator.sourceInfoList.find? fun e =>
    (s.sourceConfig e.addr).uri = some uri ∧ (s.sourceConfig e.addr).sensorId = some sensorId

/-- `get_source_config_by_sensorid` and `get_source_update_config`. -/
def getSourceConfigBySensorid (sensorId : String) : Option NvDsUriSourceInfo :=
  s.creator.sourceInfoList.find? fun e => (s.sourceConfig e.addr).sensorId = some sensorId

/-! ### The callbacks -/

def fillConfig (info : NvDsServerStreamInfo) : NvMultiUriBin :=
  { s with config := { s.config with
      uri := some info.valueCameraUrl
      sensorId := some info.valueCameraId
      sensorName := some info.valueCameraName } }

def cleanConfig : NvMultiUriBin := { s with config := { s.config with uri := none, sensorId := none } }

def addFail (info : NvDsServerStreamInfo) (log : String) : NvDsServerStreamInfo :=
  { info with status := .addFail, streamLog := "STREAM_ADD_FAIL, " ++ log, code := .internalServerError }

/-- The template has what the request asks for. -/
def addTemplate (a : Answers) (info : NvDsServerStreamInfo) : NvDsServerStreamInfo × NvMultiUriBin :=
  let (ret, s) := s.addSource a.created
  (if ret then { info with status := .addSuccess, streamLog := "STREAM_ADD_SUCCESS", code := .ok }
    else addFail info "Failed to add source stream", s.cleanConfig)

/-- Only the bin connects to the socket of an ipc uri; where that fails the
template keeps the request's texts. -/
def addStream (connects : Bool) (a : Answers) (info : NvDsServerStreamInfo) : NvDsServerStreamInfo × NvMultiUriBin :=
  if s.maxBatchSize ≤ s.creator.sourceInfoList.length then
    (addFail info "Active sources exceded max-batch-size of nvstreammux", s)
  else if (s.getSourceConfigBySensorid info.valueCameraId).isSome then
    (addFail info "Duplicate Camera id, unable to add stream", s)
  else
    let s := s.fillConfig info
    if connects ∧ IsIpc info.valueCameraUrl then
      match a.connected with
      | none => (addFail info "Connection failed, unable to add stream", s)
      | some fd => { s with config.sockFd := fd, openFds := fd :: s.openFds }.addTemplate a info
    else s.addTemplate a info

/-- Nothing is said when no source has the uri and the sensor id. -/
def removeStream (a : Answers) (info : NvDsServerStreamInfo) : Option (NvDsServerStreamInfo × NvMultiUriBin) :=
  match s.getSourceConfig info.valueCameraUrl info.valueCameraId with
  | none => some (info, s)
  | some e =>
    (s.stopSource false (guint e.sourceId) true a.stopped a.removed).map fun (ret, s) =>
      (if ret then { info with status := .removeSuccess, streamLog := "STREAM_REMOVE_SUCCESS", code := .ok }
        else { info with
          status := .removeFail
          streamLog := "STREAM_REMOVE_FAIL,Failed to remove source stream"
          code := .internalServerError }, s)

/-- Nothing is said when no source has the sensor id. -/
def updateStream (a : Answers) (info : NvDsServerStreamInfo) : Option (NvDsServerStreamInfo × NvMultiUriBin) :=
  match s.getSourceConfigBySensorid info.valueCameraId with
  | none => some (info, s)
  | some e =>
    ((s.fillConfig info).updateSource e.sourceId a).map fun (ret, s) =>
      (if ret then { info with status := .updateSuccess, streamLog := "STREAM_UPDATE_SUCCESS", code := .ok }
        else { info with
          status := .updateFail
          streamLog := "STREAM_UPDATE_FAIL, Failed to update source stream"
          code := .internalServerError }, s.cleanConfig)

def notSupported (info : NvDsServerStreamInfo) : NvDsServerStreamInfo :=
  { info with streamLog := "Sensor API change string not supported", code := .badRequest }

/-- The callback of the bin. -/
def streamApiImpl (a : Answers) (info : NvDsServerStreamInfo) : Option (NvDsServerStreamInfo × NvMultiUriBin) :=
  if Contains info.uri "/api/v1/" then
    if Contains info.valueChange "add" ∨ Contains info.valueChange "streaming" then some (s.addStream true a info)
    else if Contains info.valueChange "remove" then s.removeStream a info
    else some (notSupported info, s)
  else some (info, s)

/-- The callback of the server application. -/
def streamCallbackImpl (a : Answers) (info : NvDsServerStreamInfo) : Option (NvDsServerStreamInfo × NvMultiUriBin) :=
  if Contains info.uri "/api/v1/" then
    if Contains info.valueChange "add" then some (s.addStream false a info)
    else if Contains info.valueChange "remove" then s.removeStream a info
    else if Contains info.valueChange "update" then s.updateStream a info
    else some (notSupported info, s)
  else some (info, s)

def streamCb (cb : StreamCb) : Answers → NvDsServerStreamInfo → Option (NvDsServerStreamInfo × NvMultiUriBin) :=
  match cb with
  | .bin => s.streamApiImpl
  | .server => s.streamCallbackImpl

/-! ### Start-up, requests and sections -/

/-- `removeSource` is the removal of a source that reports an error. -/
inductive Action where
  | initial (uri : String) (sensorId sensorName : Option String) (created : Bool)
  | startServer
  | stream (a : Answers) (info : NvDsServerStreamInfo)
  | removeSource (sourceId : ℕ) (force stopped removed : Bool)
  | registry (a : MultiUri.Action)

/-- A source of the start-up list of the bin; the ids it has none of stay as
they are in the template, where they are empty. -/
def initial (uri : String) (sensorId sensorName : Option String) (created : Bool) : NvMultiUriBin :=
  let s := { s with config := { s.config with
    uri := some uri
    sensorId := sensorId.or s.config.sensorId
    sensorName := sensorName.or s.config.sensorName } }
  let s := (s.addSource created).2
  { s with config := { s.config with uri := none, sensorId := none, sensorName := none } }

/-- The sections of the registry that are no requests. -/
def OfThreads : MultiUri.Action → Prop
  | .addSource _ | .testPad | .removeSource .. | .updateSource .. => False
  | _ => True

instance (a : MultiUri.Action) : Decidable (OfThreads a) :=
  match a with
  | .addSource _ => inferInstanceAs (Decidable False)
  | .testPad => inferInstanceAs (Decidable False)
  | .removeSource .. => inferInstanceAs (Decidable False)
  | .updateSource .. => inferInstanceAs (Decidable False)
  | .newPad .. => inferInstanceAs (Decidable True)
  | .probeEos .. => inferInstanceAs (Decidable True)
  | .uribinRemoval .. => inferInstanceAs (Decidable True)
  | .uribinRemovalDone => inferInstanceAs (Decidable True)
  | .removeElem .. => inferInstanceAs (Decidable True)
  | .useAfterFree .. => inferInstanceAs (Decidable True)

/-- A socket that is connected is none of those that are open. -/
def step (cb : StreamCb) : Action → Option NvMultiUriBin
  | .initial uri sensorId sensorName created =>
    if cb = .bin ∧ s.restServer = false then some (s.initial uri sensorId sensorName created) else none
  | .startServer => some { s with restServer := true }
  | .stream a info =>
    if s.restServer = true ∧ ∀ fd ∈ a.connected, fd ≠ -1 ∧ fd ∉ s.openFds then (s.streamCb cb a info).map Prod.snd
    else none
  | .removeSource sourceId force stopped removed => (s.stopSource false sourceId force stopped removed).map Prod.snd
  | .registry a => if OfThreads a then (s.creator.step a).map fun c => { s with creator := c } else none

/-- The bin before anything is added. -/
def new (maxBatchSize : ℕ) : NvMultiUriBin :=
  ⟨.init, fun _ => ⟨none, none, none, -1⟩, ⟨none, none, none, -1⟩, maxBatchSize, false, [], []⟩

/-- Nothing is added yet, and the template has no texts and no socket. -/
def Started : Prop :=
  s.creator = .init ∧ s.config = ⟨none, none, none, -1⟩ ∧ s.restServer = false ∧ s.openFds = [] ∧ s.closedFds = []

end NvMultiUriBin

/-! ### What the sections do to the list -/

namespace NvMultiUriSrcBinCreator

variable {c c' : NvMultiUriSrcBinCreator}

/-- Every source of the list has an address of its own. -/
structure Listed (c : NvMultiUriSrcBinCreator) : Prop where
  nodup : (c.entries.map Prod.snd).Nodup
  fresh : ∀ p ∈ c.entries, p.2 < c.nextAddr

theorem Listed.sublist (h : Listed c) (hsub : c'.entries.Sublist c.entries) (hn : c'.nextAddr = c.nextAddr) :
    Listed c' := by
  refine ⟨h.nodup.sublist (hsub.map _), fun p hp => ?_⟩
  rw [hn]
  exact h.fresh p (hsub.subset hp)

theorem Listed.register (h : Listed c) (sourceId : ℤ) : Listed (c.register sourceId) := by
  constructor
  · rw [entries_register, List.map_cons, List.nodup_cons]
    refine ⟨fun hm => ?_, h.nodup⟩
    obtain ⟨p, hp, hpa⟩ := List.mem_map.mp hm
    exact Nat.ne_of_lt (h.fresh p hp) hpa
  · rw [entries_register]
    exact List.forall_mem_cons.mpr ⟨Nat.lt_succ_self _, fun p hp => Nat.lt_succ_of_lt (h.fresh p hp)⟩

theorem getSourceId_eq (c : NvMultiUriSrcBinCreator) : ∃ base, c.getSourceId.2 = { c with baseIndex := base } := by
  unfold getSourceId
  split
  · exact ⟨c.baseIndex, rfl⟩
  · exact ⟨_, rfl⟩

/-- A source is only dropped where it was found by its address. -/
theorem sublist_removeSourceInfo {c₀ : NvMultiUriSrcBinCreator} (e : NvDsUriSourceInfo) (h : c₀.entries = c.entries)
    (hn : c₀.nextAddr = c.nextAddr) :
    (c₀.removeSourceInfo e).entries.Sublist c.entries ∧ (c₀.removeSourceInfo e).nextAddr = c.nextAddr := by
  rw [entries_removeSourceInfo, h]
  exact ⟨List.eraseP_sublist, hn⟩

/-- The sections that are no requests add no source. -/
theorem sublist_step {a : Action} (ha : NvMultiUriBin.OfThreads a) (hu : ∀ addr after, a ≠ .useAfterFree addr after)
    (hs : c.step a = some c') : c'.entries.Sublist c.entries ∧ c'.nextAddr = c.nextAddr := by
  have hlocked : ∀ {r : Option NvMultiUriSrcBinCreator}, c.locked r = some c' → r = some c' := by
    intro r hr
    unfold locked at hr
    split at hr
    · cases hr
    · exact hr
  cases a with
  | addSource created => exact ha.elim
  | testPad => exact ha.elim
  | removeSource sourceId force stopped removed => exact ha.elim
  | updateSource sourceId force stopped removed created => exact ha.elim
  | newPad addr pad =>
    simp only [step, newPad] at hs
    split at hs
    · cases hs
    · split at hs
      · obtain rfl := Option.some.inj hs
        have hkept := entries_modify (s := c) addr
          (f := fun e => { e with muxSinkPad := pad, probeEosHandling := true }) fun _ => ⟨rfl, rfl⟩
        exact ⟨hkept.symm ▸ List.Sublist.refl _, rfl⟩
      · cases hs
  | probeEos addr =>
    simp only [step, probeEos] at hs
    split at hs
    · cases hs
    · split at hs
      · obtain rfl := Option.some.inj hs
        have hkept := entries_modify (s := c) addr (f := fun e => { e with probeEosHandling := false })
          fun _ => ⟨rfl, rfl⟩
        exact ⟨hkept.symm ▸ List.Sublist.refl _, rfl⟩
      · cases hs
  | uribinRemoval removed stopped =>
    simp only [step, uribinRemoval] at hs
    split at hs
    · split at hs
      · cases hs
      · rename_i e _
        obtain ⟨pads, hpads⟩ := releaseMuxSinkPad_eq (s := c) e
        simp only [hpads] at hs
        split at hs <;> obtain rfl := Option.some.inj hs <;> exact ⟨.refl _, rfl⟩
    · cases hs
  | uribinRemovalDone =>
    have hs := hlocked hs
    unfold uribinRemovalDone at hs
    split at hs
    · cases hs
    · split at hs
      · cases hs
      · split at hs
        · obtain rfl := Option.some.inj hs
          exact sublist_removeSourceInfo _ (entries_removeSourceInfoHandlers _) rfl
        · obtain rfl := Option.some.inj hs
          exact ⟨.refl _, rfl⟩
  | removeElem addr =>
    have hs := hlocked hs
    unfold removeElem at hs
    split at hs
    · cases hs
    · split at hs
      · obtain rfl := Option.some.inj hs
        exact sublist_removeSourceInfo _ (entries_removeSourceInfoHandlers _) rfl
      · cases hs
  | useAfterFree addr after => exact absurd rfl (hu addr after)

end NvMultiUriSrcBinCreator

namespace NvMultiUriBin

variable {s s' : NvMultiUriBin}

theorem sources_sublist (hc : s'.creator.entries.Sublist s.creator.entries) (hcfg : s'.sourceConfig = s.sourceConfig) :
    s'.sources.Sublist s.sources := by
  rw [sources, sources, hcfg]
  exact hc.map _

theorem Started.sources_eq (h : s.Started) : s.sources = [] := by
  rw [sources, h.1]
  rfl

theorem Started.listed (h : s.Started) : s.creator.Listed := by
  rw [h.1]
  exact ⟨List.nodup_nil, fun p hp => absurd hp List.not_mem_nil⟩

theorem keys_nodup (h : s.creator.Listed) : (s.sources.map Prod.fst).Nodup := by
  rw [sources, List.map_map]
  exact h.nodup

/-- A new source comes first, and changes no other's config. -/
theorem sources_register (h : s.creator.Listed) {c : NvMultiUriSrcBinCreator} (sourceId : ℤ) (cfg : GstDsNvUriSrcConfig)
    (hc : c.entries = s.creator.entries) (hn : c.nextAddr = s.creator.nextAddr) :
    sources { s with
      creator := c.register sourceId
      sourceConfig := Function.update s.sourceConfig s.creator.nextAddr cfg } =
      (s.creator.nextAddr, cfg) :: s.sources := by
  simp only [sources, NvMultiUriSrcBinCreator.entries_register, hc, hn, List.map_cons, Function.update_self]
  congr 1
  refine List.map_congr_left fun p hp => ?_
  rw [Function.update_of_ne (Nat.ne_of_lt (h.fresh p hp))]

theorem addSource_eq (s : NvMultiUriBin) (created : Bool) : ∃ creator sourceConfig,
    (s.addSource created).2 = { s with creator := creator, sourceConfig := sourceConfig } := by
  cases created with
  | false => exact ⟨s.creator, s.sourceConfig, rfl⟩
  | true => exact ⟨_, _, rfl⟩

/-- A source is added where its element is created, and not without. -/
theorem addSource_cases (h : s.creator.Listed) (created : Bool) :
    (created = false ∧ s.addSource created = (false, s)) ∨
    (created = true ∧ (s.addSource created).1 = true ∧ (s.addSource created).2.creator.Listed ∧
      (s.addSource created).2.sources = (s.creator.nextAddr, s.config) :: s.sources) := by
  cases created with
  | false => exact .inl ⟨rfl, rfl⟩
  | true =>
    obtain ⟨base, hbase⟩ := s.creator.getSourceId_eq
    have hlisted : NvMultiUriSrcBinCreator.Listed s.creator.getSourceId.2 := by
      rw [hbase]
      exact ⟨h.nodup, h.fresh⟩
    refine .inr ⟨rfl, rfl, hlisted.register _, ?_⟩
    exact sources_register h _ s.config (by rw [hbase]; rfl) (by rw [hbase])

theorem closeSock_frame (s : NvMultiUriBin) (addr : ℕ) : ∃ openFds closedFds,
    s.closeSock addr = { s with openFds := openFds, closedFds := closedFds } := by
  unfold closeSock
  dsimp only
  split
  · exact ⟨_, _, rfl⟩
  · exact ⟨s.openFds, s.closedFds, rfl⟩

theorem stopSource_cases (h : s.creator.Listed) {clears : Bool} {sourceId : ℕ} {force stopped removed done : Bool}
    (hs : s.stopSource clears sourceId force stopped removed = some (done, s')) :
    (done = false ∧ (s.creator.sourceInfoHash[(sourceId : ℤ)]? = none ∨
        ¬ (force = true → stopped = true ∧ removed = true)) ∧
      ∃ c, s' = { s with creator := c } ∧ c.Listed ∧ s'.sources = s.sources) ∨
    (done = true ∧ (force = true → stopped = true ∧ removed = true) ∧
      ∃ addr c, s.creator.sourceInfoHash[(sourceId : ℤ)]? = some addr ∧ (addr, s.sourceConfig addr) ∈ s.sources ∧
        s' = { s.closeSock addr with creator := c } ∧ c.Listed ∧ s'.sources = s.sources.filter (·.1 ≠ addr)) := by
  obtain ⟨⟨c, done'⟩, hc, heq⟩ := Option.map_eq_some_iff.mp hs
  rcases NvMultiUriSrcBinCreator.stopSource_cases hc with
    ⟨hhash, rfl, rfl⟩ | ⟨addr, e, list, pads, hhash, he, hlist, hcase⟩
  · rw [hhash] at heq
    obtain ⟨rfl, rfl⟩ := Prod.mk.inj heq
    exact .inl ⟨rfl, .inl hhash, s.creator, rfl, h, rfl⟩
  · rw [hhash] at heq
    obtain ⟨rfl, rfl⟩ := Prod.mk.inj heq
    have hold : NvMultiUriSrcBinCreator.entries { s.creator with sourceInfoList := list, streammuxPads := pads } =
      s.creator.entries := hlist
    rcases hcase with ⟨rfl, hnot, rfl⟩ | ⟨rfl, hall, rfl⟩
    · refine .inl ⟨rfl, .inr hnot, _, rfl, h.sublist (hold.symm ▸ List.Sublist.refl _) rfl, ?_⟩
      exact congrArg (List.map fun p => (p.2, s.sourceConfig p.2)) hold
    · obtain ⟨rfl, hmem⟩ := NvMultiUriSrcBinCreator.sourceInfo_eq_some he
      have hentries := NvMultiUriSrcBinCreator.entries_removeSourceInfo
        (s := { s.creator with sourceInfoList := list, streammuxPads := pads }) e
      rw [hold] at hentries
      have hcfg : (s.closeSock e.addr).sourceConfig = s.sourceConfig := by
        obtain ⟨openFds, closedFds, hclosed⟩ := s.closeSock_frame e.addr
        rw [hclosed]
      refine .inr ⟨rfl, hall, e.addr, _, hhash, List.mem_map.mpr ⟨_, hmem, rfl⟩, rfl, ?_, ?_⟩
      · exact h.sublist (hentries ▸ List.eraseP_sublist) rfl
      · simp only [↓reduceIte, sources]
        rw [hentries, hcfg, Keyed.eraseP_key h.nodup, List.filter_map]
        rfl

theorem nextAddr_stopSource {clears : Bool} {sourceId : ℕ} {force stopped removed done : Bool}
    (hs : s.stopSource clears sourceId force stopped removed = some (done, s')) :
    s'.creator.nextAddr = s.creator.nextAddr := by
  obtain ⟨⟨c, done'⟩, hc, heq⟩ := Option.map_eq_some_iff.mp hs
  have hcreator : s'.creator = c := by
    dsimp only at heq
    split at heq <;> obtain ⟨-, rfl⟩ := Prod.mk.inj heq <;> rfl
  rw [hcreator]
  rcases NvMultiUriSrcBinCreator.stopSource_cases hc with
    ⟨-, h, -⟩ | ⟨addr, e, list, pads, -, -, -, ⟨-, -, h⟩ | ⟨-, -, h⟩⟩
  · rw [h]
  · rw [h]
  · rw [h]
    rfl

/-! ### What a request does -/

/-- There is room, and no source has the sensor id. -/
def Admits (s : NvMultiUriBin) (info : NvDsServerStreamInfo) : Prop :=
  s.sources.length < s.maxBatchSize ∧ s.getSourceConfigBySensorid info.valueCameraId = none

instance (info : NvDsServerStreamInfo) : Decidable (s.Admits info) := inferInstanceAs (Decidable (_ ∧ _))

/-- The socket that a new source gets: the one connected for it, or whatever is
in the template. -/
def sockOf (s : NvMultiUriBin) (connects : Bool) (a : Answers) (info : NvDsServerStreamInfo) : Option ℤ :=
  if connects = true ∧ IsIpc info.valueCameraUrl then a.connected else some s.config.sockFd

/-- The config that a new source gets. -/
def configOf (info : NvDsServerStreamInfo) (fd : ℤ) : GstDsNvUriSrcConfig :=
  ⟨some info.valueCameraUrl, some info.valueCameraId, some info.valueCameraName, fd⟩

theorem length_sources : s.sources.length = s.creator.sourceInfoList.length := by
  rw [sources, List.length_map, NvMultiUriSrcBinCreator.entries, List.length_map]

/-- What an add leaves alone. -/
structure Frame (s t : NvMultiUriBin) : Prop where
  maxBatchSize : t.maxBatchSize = s.maxBatchSize
  restServer : t.restServer = s.restServer
  closedFds : t.closedFds = s.closedFds
  openFds : ∀ fd ∈ s.openFds, fd ∈ t.openFds

theorem Frame.refl (s : NvMultiUriBin) : Frame s s := ⟨rfl, rfl, rfl, fun _ => id⟩

/-- What an add can do. -/
inductive AddCases (s : NvMultiUriBin) (connects : Bool) (a : Answers) (info : NvDsServerStreamInfo) :
    NvDsServerStreamInfo × NvMultiUriBin → Prop
  | refused {log : String} {t : NvMultiUriBin}
      (hno : ¬ (s.Admits info ∧ (s.sockOf connects a info).isSome = true ∧ a.created = true))
      (hcreator : t.creator = s.creator) (hcfg : t.sourceConfig = s.sourceConfig) (hframe : Frame s t) :
      AddCases s connects a info (addFail info log, t)
  | added {fd : ℤ} {t : NvMultiUriBin} (hadmits : s.Admits info) (hcreated : a.created = true)
      (hsock : s.sockOf connects a info = some fd) (hlisted : t.creator.Listed)
      (hsources : t.sources = (s.creator.nextAddr, configOf info fd) :: s.sources) (hframe : Frame s t)
      (hopen : connects = true ∧ IsIpc info.valueCameraUrl → fd ∈ t.openFds) :
      AddCases s connects a info
        ({ info with status := .addSuccess, streamLog := "STREAM_ADD_SUCCESS", code := .ok }, t)

/-- The template is as the request asks for. -/
theorem addTemplate_cases (h : s.creator.Listed) {connects : Bool} {a : Answers} {info : NvDsServerStreamInfo} {fd : ℤ}
    {t : NvMultiUriBin} (hadmits : s.Admits info) (hsock : s.sockOf connects a info = some fd)
    (hc : t.creator = s.creator) (hcfg : t.sourceConfig = s.sourceConfig) (hframe : Frame s t)
    (hconfig : t.config = configOf info fd) (hopen : connects = true ∧ IsIpc info.valueCameraUrl → fd ∈ t.openFds) :
    AddCases s connects a info (t.addTemplate a info) := by
  unfold addTemplate
  rcases addSource_cases (hc ▸ h) a.created with ⟨hcreated, heq⟩ | ⟨hcreated, hret, hlisted, hsources⟩
  · rw [heq]
    exact .refused (by simp [hcreated]) hc hcfg ⟨hframe.maxBatchSize, hframe.restServer, hframe.closedFds, hframe.openFds⟩
  · have hold : t.sources = s.sources := by rw [sources, sources, hc, hcfg]
    obtain ⟨creator, sourceConfig, hadded⟩ := addSource_eq t a.created
    rw [hc, hconfig, hold] at hsources
    generalize t.addSource a.created = r at hret hlisted hsources hadded
    obtain ⟨ret, t'⟩ := r
    obtain rfl : ret = true := hret
    obtain rfl : t' = { t with creator := creator, sourceConfig := sourceConfig } := hadded
    exact .added hadmits hcreated hsock hlisted hsources
      ⟨hframe.maxBatchSize, hframe.restServer, hframe.closedFds, hframe.openFds⟩ hopen

theorem addStream_cases (h : s.creator.Listed) (connects : Bool) (a : Answers) (info : NvDsServerStreamInfo) :
    AddCases s connects a info (s.addStream connects a info) := by
  unfold addStream
  by_cases hfull : s.maxBatchSize ≤ s.creator.sourceInfoList.length
  · rw [if_pos hfull]
    refine .refused (fun hall => ?_) rfl rfl (.refl s)
    have hroom := hall.1.1
    rw [length_sources] at hroom
    omega
  · rw [if_neg hfull]
    by_cases hdup : (s.getSourceConfigBySensorid info.valueCameraId).isSome = true
    · rw [if_pos hdup]
      exact .refused (fun hall => by simp [hall.1.2] at hdup) rfl rfl (.refl s)
    · rw [if_neg hdup]
      have hadmits : s.Admits info := by
        refine ⟨?_, by simpa using hdup⟩
        rw [length_sources]
        omega
      dsimp only
      by_cases hipc : connects = true ∧ IsIpc info.valueCameraUrl
      · rw [if_pos hipc]
        cases hconn : a.connected with
        | none => exact .refused (fun hall => by simp [sockOf, hipc, hconn] at hall) rfl rfl ⟨rfl, rfl, rfl, fun _ => id⟩
        | some fd =>
          have hsock : s.sockOf connects a info = some fd := by rw [sockOf, if_pos hipc, hconn]
          exact addTemplate_cases h hadmits hsock rfl rfl ⟨rfl, rfl, rfl, fun _ => List.mem_cons_of_mem _⟩ rfl
            fun _ => List.mem_cons_self
      · rw [if_neg hipc]
        have hsock : s.sockOf connects a info = some s.config.sockFd := by rw [sockOf, if_neg hipc]
        exact addTemplate_cases h hadmits hsock rfl rfl ⟨rfl, rfl, rfl, fun _ => id⟩ rfl fun hc => absurd hc hipc

/-- What a removal can do. -/
inductive RemoveCases (s : NvMultiUriBin) (a : Answers) (info : NvDsServerStreamInfo) :
    NvDsServerStreamInfo × NvMultiUriBin → Prop
  | unknown (hnone : s.getSourceConfig info.valueCameraUrl info.valueCameraId = none) : RemoveCases s a info (info, s)
  | failed {e : NvDsUriSourceInfo} {t : NvMultiUriBin}
      (he : s.getSourceConfig info.valueCameraUrl info.valueCameraId = some e)
      (hno : s.creator.sourceInfoHash[(guint e.sourceId : ℤ)]? = none ∨ ¬ (a.stopped = true ∧ a.removed = true))
      (hlisted : t.creator.Listed) (hsources : t.sources = s.sources) :
      RemoveCases s a info ({ info with
        status := .removeFail
        streamLog := "STREAM_REMOVE_FAIL,Failed to remove source stream"
        code := .internalServerError }, t)
  | removed {e : NvDsUriSourceInfo} {addr : ℕ} {t : NvMultiUriBin}
      (he : s.getSourceConfig info.valueCameraUrl info.valueCameraId = some e)
      (hall : a.stopped = true ∧ a.removed = true)
      (hhash : s.creator.sourceInfoHash[(guint e.sourceId : ℤ)]? = some addr)
      (hmem : (addr, s.sourceConfig addr) ∈ s.sources) (hlisted : t.creator.Listed)
      (hsources : t.sources = s.sources.filter (·.1 ≠ addr)) :
      RemoveCases s a info ({ info with status := .removeSuccess, streamLog := "STREAM_REMOVE_SUCCESS", code := .ok }, t)

theorem removeStream_cases (h : s.creator.Listed) {a : Answers} {info : NvDsServerStreamInfo}
    {r : NvDsServerStreamInfo × NvMultiUriBin} (hr : s.removeStream a info = some r) : RemoveCases s a info r := by
  unfold removeStream at hr
  cases he : s.getSourceConfig info.valueCameraUrl info.valueCameraId with
  | none =>
    rw [he] at hr
    obtain rfl := Option.some.inj hr
    exact .unknown he
  | some e =>
    rw [he] at hr
    obtain ⟨⟨done, t⟩, hstop, rfl⟩ := Option.map_eq_some_iff.mp hr
    rcases stopSource_cases h hstop with
      ⟨rfl, hno, c, rfl, hl, hsources⟩ | ⟨rfl, hall, addr, c, hhash, hmem, rfl, hl, hsources⟩
    · exact .failed he (hno.imp_right fun hn hall => hn fun _ => hall) hl hsources
    · exact .removed he (hall rfl) hhash hmem hl hsources

/-- What an update can do; without the new source the old one is gone. -/
inductive UpdateCases (s : NvMultiUriBin) (a : Answers) (info : NvDsServerStreamInfo) :
    NvDsServerStreamInfo × NvMultiUriBin → Prop
  | unknown (hnone : s.getSourceConfigBySensorid info.valueCameraId = none) : UpdateCases s a info (info, s)
  | failed {e : NvDsUriSourceInfo} {t : NvMultiUriBin}
      (he : s.getSourceConfigBySensorid info.valueCameraId = some e)
      (hno : s.creator.sourceInfoHash[(guint e.sourceId : ℤ)]? = none ∨ ¬ (a.stopped = true ∧ a.removed = true))
      (hlisted : t.creator.Listed) (hframe : t.restServer = s.restServer ∧ t.maxBatchSize = s.maxBatchSize)
      (hsources : t.sources = s.sources) :
      UpdateCases s a info ({ info with
        status := .updateFail
        streamLog := "STREAM_UPDATE_FAIL, Failed to update source stream"
        code := .internalServerError }, t)
  | dropped {e : NvDsUriSourceInfo} {addr : ℕ} {t : NvMultiUriBin}
      (he : s.getSourceConfigBySensorid info.valueCameraId = some e)
      (hall : a.stopped = true ∧ a.removed = true) (hcreated : a.created = false)
      (hhash : s.creator.sourceInfoHash[(guint e.sourceId : ℤ)]? = some addr)
      (hmem : (addr, s.sourceConfig addr) ∈ s.sources) (hlisted : t.creator.Listed)
      (hframe : t.restServer = s.restServer ∧ t.maxBatchSize = s.maxBatchSize)
      (hsources : t.sources = s.sources.filter (·.1 ≠ addr)) :
      UpdateCases s a info ({ info with
        status := .updateFail
        streamLog := "STREAM_UPDATE_FAIL, Failed to update source stream"
        code := .internalServerError }, t)
  | updated {e : NvDsUriSourceInfo} {addr : ℕ} {t : NvMultiUriBin}
      (he : s.getSourceConfigBySensorid info.valueCameraId = some e)
      (hall : a.stopped = true ∧ a.removed = true) (hcreated : a.created = true)
      (hhash : s.creator.sourceInfoHash[(guint e.sourceId : ℤ)]? = some addr)
      (hmem : (addr, s.sourceConfig addr) ∈ s.sources) (hlisted : t.creator.Listed)
      (hframe : t.restServer = s.restServer ∧ t.maxBatchSize = s.maxBatchSize)
      (hsources : t.sources =
        (s.creator.nextAddr, configOf info s.config.sockFd) :: s.sources.filter (·.1 ≠ addr)) :
      UpdateCases s a info ({ info with status := .updateSuccess, streamLog := "STREAM_UPDATE_SUCCESS", code := .ok }, t)

theorem updateStream_cases (h : s.creator.Listed) {a : Answers} {info : NvDsServerStreamInfo}
    {r : NvDsServerStreamInfo × NvMultiUriBin} (hr : s.updateStream a info = some r) : UpdateCases s a info r := by
  unfold updateStream at hr
  cases he : s.getSourceConfigBySensorid info.valueCameraId with
  | none =>
    rw [he] at hr
    obtain rfl := Option.some.inj hr
    exact .unknown he
  | some e =>
    rw [he] at hr
    obtain ⟨⟨ret, t⟩, hupdate, rfl⟩ := Option.map_eq_some_iff.mp hr
    obtain ⟨⟨done, t₁⟩, hstop, heq⟩ := Option.map_eq_some_iff.mp hupdate
    have hlisted : (s.fillConfig info).creator.Listed := h
    rcases stopSource_cases hlisted hstop with
      ⟨rfl, hno, c, rfl, hl, hsources⟩ | ⟨rfl, hall, addr, c, hhash, hmem, rfl, hl, hsources⟩
    · simp only [Bool.false_eq_true, false_and, ↓reduceIte] at heq
      obtain ⟨rfl, rfl⟩ := Prod.mk.inj heq
      exact .failed he (hno.imp_right fun hn hall => hn fun _ => hall) hl ⟨rfl, rfl⟩ hsources
    · obtain ⟨openFds, closedFds, hclosed⟩ := (s.fillConfig info).closeSock_frame addr
      rw [hclosed] at heq hsources
      let u : NvMultiUriBin := { s.fillConfig info with openFds := openFds, closedFds := closedFds, creator := c }
      have hgone : u.sources = s.sources.filter (·.1 ≠ addr) := hsources
      cases hcreated : a.created with
      | false =>
        simp only [hcreated] at heq
        obtain ⟨rfl, rfl⟩ := Prod.mk.inj heq
        exact .dropped he (hall rfl) hcreated hhash hmem hl ⟨rfl, rfl⟩ hgone
      | true =>
        simp only [hcreated, and_self, ↓reduceIte] at heq
        obtain ⟨rfl, rfl⟩ := Prod.mk.inj heq
        let v : NvMultiUriBin := cleanConfig { u with
          creator := c.register e.sourceId
          sourceConfig := Function.update u.sourceConfig c.nextAddr u.config }
        have hv : v.sources = (c.nextAddr, u.config) :: u.sources :=
          sources_register (s := u) hl e.sourceId u.config rfl rfl
        have hnext : c.nextAddr = s.creator.nextAddr := nextAddr_stopSource hstop
        rw [hgone, hnext] at hv
        exact .updated he (hall rfl) hcreated hhash hmem (hl.register _) ⟨rfl, rfl⟩ hv

/-! ### The list over a run -/

theorem listed_addStream (h : s.creator.Listed) (connects : Bool) (a : Answers) (info : NvDsServerStreamInfo) :
    (s.addStream connects a info).2.creator.Listed := by
  have hcases := addStream_cases h connects a info
  generalize s.addStream connects a info = r at hcases ⊢
  cases hcases with
  | refused hno hcreator hcfg hframe => exact hcreator ▸ h
  | added hadmits hcreated hsock hlisted hsources hframe hopen => exact hlisted

theorem listed_removeStream (h : s.creator.Listed) {a : Answers} {info : NvDsServerStreamInfo}
    {r : NvDsServerStreamInfo × NvMultiUriBin} (hr : s.removeStream a info = some r) : r.2.creator.Listed := by
  cases removeStream_cases h hr with
  | unknown hnone => exact h
  | failed he hno hlisted hsources => exact hlisted
  | removed he hall hhash hmem hlisted hsources => exact hlisted

theorem listed_updateStream (h : s.creator.Listed) {a : Answers} {info : NvDsServerStreamInfo}
    {r : NvDsServerStreamInfo × NvMultiUriBin} (hr : s.updateStream a info = some r) : r.2.creator.Listed := by
  cases updateStream_cases h hr with
  | unknown hnone => exact h
  | failed he hno hlisted hframe hsources => exact hlisted
  | dropped he hall hcreated hhash hmem hlisted hframe hsources => exact hlisted
  | updated he hall hcreated hhash hmem hlisted hframe hsources => exact hlisted

theorem listed_streamCb (h : s.creator.Listed) {cb : StreamCb} {a : Answers} {info : NvDsServerStreamInfo}
    {r : NvDsServerStreamInfo × NvMultiUriBin} (hr : s.streamCb cb a info = some r) : r.2.creator.Listed := by
  cases cb with
  | bin =>
    simp only [streamCb, streamApiImpl] at hr
    split at hr
    · split at hr
      · exact Option.some.inj hr ▸ listed_addStream h true a info
      · split at hr
        · exact listed_removeStream h hr
        · exact Option.some.inj hr ▸ h
    · exact Option.some.inj hr ▸ h
  | server =>
    simp only [streamCb, streamCallbackImpl] at hr
    split at hr
    · split at hr
      · exact Option.some.inj hr ▸ listed_addStream h false a info
      · split at hr
        · exact listed_removeStream h hr
        · split at hr
          · exact listed_updateStream h hr
          · exact Option.some.inj hr ▸ h
    · exact Option.some.inj hr ▸ h

end NvMultiUriBin
end MultiUri
end DeepStream
