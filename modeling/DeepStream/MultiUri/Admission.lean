/-
# How many sources there are, and with which sensor ids

A request to add a source is refused when the muxer's batch is full or a source
has the sensor id; the start-up list of the bin is added without either test.
An update looks its source up by the sensor id and replaces the source that the
hash has for its source id.
-/
import DeepStream.MultiUri.StreamApi

namespace DeepStream
namespace MultiUri
namespace NvMultiUriBin

variable (s : NvMultiUriBin) {s' : NvMultiUriBin}

/-- The sensor ids of the sources that have one. -/
def sensorIds (l : List (ℕ × GstDsNvUriSrcConfig)) : List String := l.filterMap fun p => p.2.sensorId

/-- The sources fit in a batch, and no two have the same sensor id. -/
structure Admitted : Prop where
  bound : s.sources.length ≤ s.maxBatchSize
  distinct : (sensorIds s.sources).Nodup

/-- The request gets to the update of the source. -/
def Updates (cb : StreamCb) (info : NvDsServerStreamInfo) : Prop :=
  cb = .server ∧ Contains info.uri "/api/v1/" ∧ ¬ Contains info.valueChange "add" ∧
    ¬ Contains info.valueChange "remove" ∧ Contains info.valueChange "update"

instance (cb : StreamCb) (info : NvDsServerStreamInfo) : Decidable (Updates cb info) :=
  inferInstanceAs (Decidable (_ ∧ _ ∧ _ ∧ _ ∧ _))

/-- What a step must not do: add a source at start-up when the batch is full or
a source has its sensor id, replace a source with another sensor id than the
request's, or use a source that has been freed. -/
def AdmitOk (cb : StreamCb) : Action → Prop
  | .initial _ sensorId _ created => created = true →
      s.sources.length < s.maxBatchSize ∧ ∀ id ∈ sensorId, id ∉ sensorIds s.sources
  | .stream a info => Updates cb info → a.stopped = true ∧ a.removed = true ∧ a.created = true →
      ∀ e ∈ s.getSourceConfigBySensorid info.valueCameraId,
        ∀ addr ∈ s.creator.sourceInfoHash[(guint e.sourceId : ℤ)]?,
          (s.sourceConfig addr).sensorId = some info.valueCameraId
  | .registry (.useAfterFree ..) => False
  | _ => True

instance (cb : StreamCb) (a : Action) : Decidable (s.AdmitOk cb a) :=
  match a with
  | .initial _ sensorId _ created => inferInstanceAs (Decidable (created = true →
      s.sources.length < s.maxBatchSize ∧ ∀ id ∈ sensorId, id ∉ sensorIds s.sources))
  | .stream a info => inferInstanceAs (Decidable (Updates cb info → a.stopped = true ∧ a.removed = true ∧
      a.created = true → ∀ e ∈ s.getSourceConfigBySensorid info.valueCameraId,
        ∀ addr ∈ s.creator.sourceInfoHash[(guint e.sourceId : ℤ)]?,
          (s.sourceConfig addr).sensorId = some info.valueCameraId))
  | .registry (.useAfterFree ..) => inferInstanceAs (Decidable False)
  | .startServer => inferInstanceAs (Decidable True)
  | .removeSource .. => inferInstanceAs (Decidable True)
  | .registry (.addSource ..) => inferInstanceAs (Decidable True)
  | .registry .testPad => inferInstanceAs (Decidable True)
  | .registry (.removeSource ..) => inferInstanceAs (Decidable True)
  | .registry (.updateSource ..) => inferInstanceAs (Decidable True)
  | .registry (.newPad ..) => inferInstanceAs (Decidable True)
  | .registry (.probeEos ..) => inferInstanceAs (Decidable True)
  | .registry (.uribinRemoval ..) => inferInstanceAs (Decidable True)
  | .registry .uribinRemovalDone => inferInstanceAs (Decidable True)
  | .registry (.removeElem ..) => inferInstanceAs (Decidable True)

variable {s}

/-! ### The invariant -/

/-- Before the server is started the template has no sensor id. -/
structure AdmitInv (s : NvMultiUriBin) : Prop extends Admitted s where
  listed : s.creator.Listed
  template : s.restServer = false → s.config.sensorId = none

theorem sensorIds_cons (p : ℕ × GstDsNvUriSrcConfig) (l : List (ℕ × GstDsNvUriSrcConfig)) :
    sensorIds (p :: l) = p.2.sensorId.toList ++ sensorIds l := by
  rw [sensorIds, List.filterMap_cons]
  cases p.2.sensorId with
  | none => rfl
  | some id => rfl

/-- A source may be added exactly where there is room and its id is free. -/
theorem admitted_cons_iff {p : ℕ × GstDsNvUriSrcConfig} (h : (sensorIds s.sources).Nodup)
    (hs : s'.sources = p :: s.sources) (hm : s'.maxBatchSize = s.maxBatchSize) :
    Admitted s' ↔ s.sources.length < s.maxBatchSize ∧ ∀ id ∈ p.2.sensorId, id ∉ sensorIds s.sources := by
  have hids := sensorIds_cons p s.sources
  rw [← hs] at hids
  have hlen : s'.sources.length = s.sources.length + 1 := by rw [hs, List.length_cons]
  constructor
  · intro hadm
    refine ⟨?_, fun id hid hold => ?_⟩
    · have hb := hadm.bound
      omega
    · have hn := hadm.distinct
      rw [hids, hid] at hn
      exact (List.nodup_cons.mp hn).1 hold
  · rintro ⟨hroom, hfree⟩
    refine ⟨by omega, ?_⟩
    rw [hids]
    cases hid : p.2.sensorId with
    | none => exact h
    | some id => exact List.nodup_cons.mpr ⟨hfree id hid, h⟩

theorem AdmitInv.sublist (h : AdmitInv s) (hsub : s'.sources.Sublist s.sources) (hl : s'.creator.Listed)
    (hm : s'.maxBatchSize = s.maxBatchSize) (ht : s'.restServer = false → s'.config.sensorId = none) :
    AdmitInv s' := by
  refine ⟨⟨?_, h.distinct.sublist (hsub.filterMap _)⟩, hl, ht⟩
  rw [hm]
  exact Nat.le_trans hsub.length_le h.bound

theorem mem_sensorIds {id : String} :
    id ∈ sensorIds s.sources ↔ ∃ e ∈ s.creator.sourceInfoList, (s.sourceConfig e.addr).sensorId = some id := by
  simp [sensorIds, sources, NvMultiUriSrcBinCreator.entries, List.mem_filterMap]

theorem getSourceConfigBySensorid_eq_none {id : String} :
    s.getSourceConfigBySensorid id = none ↔ id ∉ sensorIds s.sources := by
  rw [getSourceConfigBySensorid, List.find?_eq_none, mem_sensorIds]
  simp

theorem mem_of_getSourceConfigBySensorid {id : String} {e : NvDsUriSourceInfo}
    (h : s.getSourceConfigBySensorid id = some e) : id ∈ sensorIds s.sources :=
  mem_sensorIds.mpr ⟨e, List.mem_of_find?_eq_some h, by simpa using List.find?_some h⟩

/-- Without one source its id is free, and no other is. -/
theorem notMem_sensorIds_iff {p : ℕ × GstDsNvUriSrcConfig} {rest l : List (ℕ × GstDsNvUriSrcConfig)} {id : String}
    (hperm : (p :: rest).Perm l) (hn : (sensorIds l).Nodup) (hin : id ∈ sensorIds l) :
    id ∉ sensorIds rest ↔ p.2.sensorId = some id := by
  have hids : (p.2.sensorId.toList ++ sensorIds rest).Perm (sensorIds l) := by
    rw [← sensorIds_cons]
    exact hperm.filterMap _
  have hmem := hids.symm.subset hin
  have hnodup := hids.nodup_iff.mpr hn
  cases hid : p.2.sensorId with
  | none =>
    rw [hid] at hmem
    exact iff_of_false (fun hno => hno hmem) (by simp)
  | some id' =>
    rw [hid] at hmem hnodup
    by_cases heq : id' = id
    · rw [heq] at hnodup ⊢
      exact iff_of_true (List.nodup_cons.mp hnodup).1 rfl
    · have hrest : id ∈ sensorIds rest := (List.mem_cons.mp hmem).resolve_left (Ne.symm heq)
      exact iff_of_false (fun hno => hno hrest) (by simpa using heq)

/-! ### Steps and runs -/

theorem admitted_initial (h : AdmitInv s) (hrest : s.restServer = false) (uri : String)
    (sensorId sensorName : Option String) (created : Bool) :
    (Admitted (s.initial uri sensorId sensorName created) ↔ (created = true →
      s.sources.length < s.maxBatchSize ∧ ∀ id ∈ sensorId, id ∉ sensorIds s.sources)) ∧
    (Admitted (s.initial uri sensorId sensorName created) → AdmitInv (s.initial uri sensorId sensorName created)) := by
  let t : NvMultiUriBin := { s with config := { s.config with
    uri := some uri
    sensorId := sensorId.or s.config.sensorId
    sensorName := sensorName.or s.config.sensorName } }
  have ht : t.creator.Listed := h.listed
  have hid : t.config.sensorId = sensorId := by
    show sensorId.or s.config.sensorId = sensorId
    rw [h.template hrest, Option.or_none]
  have hfinal : s.initial uri sensorId sensorName created = { (t.addSource created).2 with
    config := { (t.addSource created).2.config with uri := none, sensorId := none, sensorName := none } } := rfl
  rw [hfinal]
  obtain ⟨creator, sourceConfig, hadded⟩ := addSource_eq t created
  rcases addSource_cases ht created with ⟨rfl, heq⟩ | ⟨rfl, -, hlisted, hsources⟩
  · rw [heq]
    have hinv : AdmitInv { t with config := ⟨none, none, none, t.config.sockFd⟩ } :=
      h.sublist (.refl _) h.listed rfl fun _ => rfl
    exact ⟨iff_of_true hinv.toAdmitted (by simp), fun _ => hinv⟩
  · rw [hadded] at hlisted hsources ⊢
    let u : NvMultiUriBin := { t with
      creator := creator
      sourceConfig := sourceConfig
      config := { t.config with uri := none, sensorId := none, sensorName := none } }
    have hu : u.sources = (s.creator.nextAddr, t.config) :: s.sources := hsources
    have hiff := admitted_cons_iff h.distinct hu rfl
    rw [hid] at hiff
    exact ⟨hiff.trans (by simp), fun hadm => ⟨hadm, hlisted, fun _ => rfl⟩⟩

theorem admitted_addStream (h : AdmitInv s) (hrest : s.restServer = true) (connects : Bool) (a : Answers)
    (info : NvDsServerStreamInfo) : AdmitInv (s.addStream connects a info).2 := by
  have hcases := addStream_cases h.listed connects a info
  generalize s.addStream connects a info = r at hcases ⊢
  cases hcases with
  | @refused log t hno hcreator hcfg hframe =>
    have hsources : t.sources = s.sources := by rw [sources, sources, hcreator, hcfg]
    exact h.sublist (hsources ▸ List.Sublist.refl _) (hcreator ▸ h.listed) hframe.maxBatchSize
      fun hr => absurd (hframe.restServer.symm.trans hr) (by simp [hrest])
  | @added fd t hadmits hcreated hsock hlisted hsources hframe hopen =>
    refine ⟨(admitted_cons_iff h.distinct hsources hframe.maxBatchSize).mpr ⟨hadmits.1, ?_⟩, hlisted,
      fun hr => absurd (hframe.restServer.symm.trans hr) (by simp [hrest])⟩
    intro id hid
    obtain rfl : info.valueCameraId = id := Option.some.inj hid
    exact getSourceConfigBySensorid_eq_none.mp hadmits.2

theorem admitted_stopSource (h : AdmitInv s) {clears : Bool} {sourceId : ℕ} {force stopped removed done : Bool}
    (hs : s.stopSource clears sourceId force stopped removed = some (done, s')) : AdmitInv s' := by
  rcases stopSource_cases h.listed hs with
    ⟨rfl, -, c, rfl, hl, hsources⟩ | ⟨rfl, -, addr, c, -, -, rfl, hl, hsources⟩
  · exact h.sublist (hsources ▸ List.Sublist.refl _) hl rfl h.template
  · obtain ⟨openFds, closedFds, hclosed⟩ := s.closeSock_frame addr
    rw [hclosed] at hsources ⊢
    exact h.sublist (hsources ▸ List.filter_sublist) hl rfl h.template

/-- The source of the new config has the request's sensor id, that of the old
one may have had another. -/
theorem admitted_updateStream (h : AdmitInv s) (hrest : s.restServer = true) {a : Answers}
    {info out : NvDsServerStreamInfo} (hs : s.updateStream a info = some (out, s')) :
    (Admitted s' ↔ (a.stopped = true ∧ a.removed = true ∧ a.created = true →
      ∀ e ∈ s.getSourceConfigBySensorid info.valueCameraId,
        ∀ addr ∈ s.creator.sourceInfoHash[(guint e.sourceId : ℤ)]?,
          (s.sourceConfig addr).sensorId = some info.valueCameraId)) ∧ (Admitted s' → AdmitInv s') := by
  have hin : ∀ e, s.getSourceConfigBySensorid info.valueCameraId = some e → info.valueCameraId ∈ sensorIds s.sources :=
    fun e => mem_of_getSourceConfigBySensorid
  -- the sources are there after it, or the one that is dropped is not
  have hkeep : s'.creator.Listed → s'.restServer = s.restServer ∧ s'.maxBatchSize = s.maxBatchSize →
      s'.sources.Sublist s.sources → AdmitInv s' := fun hl hframe hsub =>
    h.sublist hsub hl hframe.2 fun hr => absurd (hframe.1.symm.trans hr) (by simp [hrest])
  cases updateStream_cases h.listed hs with
  | unknown hnone => exact ⟨iff_of_true h.toAdmitted (by simp [hnone]), fun _ => h⟩
  | @failed e _ he hno hlisted hframe hsources =>
    have hinv := hkeep hlisted hframe (hsources ▸ List.Sublist.refl _)
    refine ⟨iff_of_true hinv.toAdmitted ?_, fun _ => hinv⟩
    rintro ⟨hstopped, hremoved, -⟩ e' he' addr haddr
    obtain rfl := Option.some.inj (he.symm.trans he')
    rcases hno with hnone | hrefused
    · exact absurd (hnone.symm.trans haddr) (by simp)
    · exact absurd ⟨hstopped, hremoved⟩ hrefused
  | dropped he hall hcreated hhash hmem hlisted hframe hsources =>
    have hinv := hkeep hlisted hframe (hsources ▸ List.filter_sublist)
    exact ⟨iff_of_true hinv.toAdmitted (by simp [hcreated]), fun _ => hinv⟩
  | @updated e addr _ he hall hcreated hhash hmem hlisted hframe hsources =>
    have hperm := Keyed.perm_key (keys_nodup h.listed) hmem
    have hlen : (s.sources.filter (·.1 ≠ addr)).length + 1 = s.sources.length := hperm.length_eq
    have hfree : info.valueCameraId ∉ sensorIds (s.sources.filter (·.1 ≠ addr)) ↔
        (s.sourceConfig addr).sensorId = some info.valueCameraId :=
      notMem_sensorIds_iff hperm h.distinct (hin e he)
    have hdistinct : (sensorIds (s.sources.filter (·.1 ≠ addr))).Nodup :=
      h.distinct.sublist (List.filter_sublist.filterMap _)
    have hbound := h.bound
    have hiff : Admitted s' ↔ (s.sourceConfig addr).sensorId = some info.valueCameraId := by
      rw [← hfree]
      constructor
      · intro hadm
        have hn := hadm.distinct
        rw [hsources, sensorIds_cons] at hn
        exact (List.nodup_cons.mp hn).1
      · intro hno
        refine ⟨?_, ?_⟩
        · rw [hsources, List.length_cons, hframe.2]
          omega
        · rw [hsources, sensorIds_cons]
          exact List.nodup_cons.mpr ⟨hno, hdistinct⟩
    refine ⟨hiff.trans ⟨fun hid _ e' he' addr' haddr' => ?_, fun hok => ?_⟩,
      fun hadm => ⟨hadm, hlisted, fun hr => absurd (hframe.1.symm.trans hr) (by simp [hrest])⟩⟩
    · obtain rfl := Option.some.inj (he.symm.trans he')
      obtain rfl := Option.some.inj (hhash.symm.trans haddr')
      exact hid
    · exact hok ⟨hall.1, hall.2, hcreated⟩ e he addr hhash

theorem admitted_stream (h : AdmitInv s) {cb : StreamCb} {a : Answers} {info : NvDsServerStreamInfo}
    (hs : s.step cb (.stream a info) = some s') :
    (Admitted s' ↔ s.AdmitOk cb (.stream a info)) ∧ (Admitted s' → AdmitInv s') := by
  simp only [step] at hs
  by_cases hc : s.restServer = true ∧ ∀ fd ∈ a.connected, fd ≠ -1 ∧ fd ∉ s.openFds
  · rw [if_pos hc] at hs
    obtain ⟨⟨out, t⟩, hout, rfl⟩ := Option.map_eq_some_iff.mp hs
    have hsame : ¬ Updates cb info → AdmitInv t →
        (Admitted t ↔ s.AdmitOk cb (.stream a info)) ∧ (Admitted t → AdmitInv t) :=
      fun hno hinv => ⟨iff_of_true hinv.toAdmitted fun hupd => absurd hupd hno, fun _ => hinv⟩
    have hremoved : s.removeStream a info = some (out, t) → AdmitInv t := by
      intro hremove
      unfold removeStream at hremove
      cases he : s.getSourceConfig info.valueCameraUrl info.valueCameraId with
      | none =>
        rw [he] at hremove
        obtain ⟨-, rfl⟩ := Prod.mk.inj (Option.some.inj hremove)
        exact h
      | some e =>
        rw [he] at hremove
        obtain ⟨⟨done, t'⟩, hstop, heq⟩ := Option.map_eq_some_iff.mp hremove
        obtain ⟨-, rfl⟩ := Prod.mk.inj heq
        exact admitted_stopSource h hstop
    cases cb with
    | bin =>
      have hno : ¬ Updates .bin info := fun hupd => by simp [Updates] at hupd
      simp only [streamCb, streamApiImpl] at hout
      split at hout
      · split at hout
        · have ht : (s.addStream true a info).2 = t := congrArg Prod.snd (Option.some.inj hout)
          exact hsame hno (ht ▸ admitted_addStream h hc.1 true a info)
        · split at hout
          · exact hsame hno (hremoved hout)
          · obtain ⟨-, rfl⟩ := Prod.mk.inj (Option.some.inj hout)
            exact hsame hno h
      · obtain ⟨-, rfl⟩ := Prod.mk.inj (Option.some.inj hout)
        exact hsame hno h
    | server =>
      simp only [streamCb, streamCallbackImpl] at hout
      split at hout
      · rename_i hapi
        split at hout
        · rename_i hadd
          have ht : (s.addStream false a info).2 = t := congrArg Prod.snd (Option.some.inj hout)
          exact hsame (fun hupd => hupd.2.2.1 hadd) (ht ▸ admitted_addStream h hc.1 false a info)
        · rename_i hadd
          split at hout
          · rename_i hremove
            exact hsame (fun hupd => hupd.2.2.2.1 hremove) (hremoved hout)
          · rename_i hremove
            split at hout
            · rename_i hupdate
              obtain ⟨hiff, hinv⟩ := admitted_updateStream h hc.1 hout
              exact ⟨hiff.trans ⟨fun hok _ => hok, fun hok => hok ⟨rfl, hapi, hadd, hremove, hupdate⟩⟩, hinv⟩
            · rename_i hupdate
              obtain ⟨-, rfl⟩ := Prod.mk.inj (Option.some.inj hout)
              exact hsame (fun hupd => hupdate hupd.2.2.2.2) h
      · rename_i hapi
        obtain ⟨-, rfl⟩ := Prod.mk.inj (Option.some.inj hout)
        exact hsame (fun hupd => hapi hupd.2.1) h
  · rw [if_neg hc] at hs
    cases hs

theorem admitted_step (h : AdmitInv s) {cb : StreamCb} {a : Action}
    (ha : ∀ addr after, a ≠ .registry (.useAfterFree addr after)) (hs : s.step cb a = some s') :
    (Admitted s' ↔ s.AdmitOk cb a) ∧ (Admitted s' → AdmitInv s') := by
  have hkeep : AdmitInv s' → s.AdmitOk cb a → (Admitted s' ↔ s.AdmitOk cb a) ∧ (Admitted s' → AdmitInv s') :=
    fun hinv hok => ⟨iff_of_true hinv.toAdmitted hok, fun _ => hinv⟩
  cases a with
  | initial uri sensorId sensorName created =>
    simp only [step] at hs
    by_cases hc : cb = .bin ∧ s.restServer = false
    · rw [if_pos hc] at hs
      obtain rfl := Option.some.inj hs
      exact admitted_initial h hc.2 uri sensorId sensorName created
    · rw [if_neg hc] at hs
      cases hs
  | startServer =>
    obtain rfl := Option.some.inj hs
    refine hkeep (h.sublist (.refl _) h.listed rfl fun hr => ?_) trivial
    cases hr
  | stream a info => exact admitted_stream h hs
  | removeSource sourceId force stopped removed =>
    obtain ⟨⟨done, t⟩, hstop, rfl⟩ := Option.map_eq_some_iff.mp hs
    exact hkeep (admitted_stopSource h hstop) trivial
  | registry r =>
    simp only [step] at hs
    by_cases hr : OfThreads r
    · rw [if_pos hr] at hs
      obtain ⟨c, hc, rfl⟩ := Option.map_eq_some_iff.mp hs
      have hu : ∀ addr after, r ≠ .useAfterFree addr after := fun addr after heq => ha addr after (heq ▸ rfl)
      obtain ⟨hsub, hnext⟩ := NvMultiUriSrcBinCreator.sublist_step hr hu hc
      have hok : s.AdmitOk cb (.registry r) := by
        cases r with
        | useAfterFree addr after => exact hu addr after rfl
        | _ => trivial
      exact hkeep (h.sublist (sources_sublist hsub rfl) (h.listed.sublist hsub hnext) rfl h.template) hok
    · rw [if_neg hr] at hs
      cases hs

theorem admitInv_started (h : s.Started) : AdmitInv s where
  bound := by simp [h.sources_eq]
  distinct := by simp [h.sources_eq, sensorIds]
  listed := h.listed
  template _ := by rw [h.2.1]

/-- **There are no more sources than fit in a batch, and no two with one sensor
id.** In every run whose start-up list is one that requests could have added and
whose updates replace the source they ask for, in every state; and such a run
goes on to do so exactly when its next step meets the condition. -/
theorem admitted_run {cb : StreamCb} (h : Reach (step · cb) (AdmitOk · cb) Started s) :
    Admitted s ∧ ∀ a s', (∀ addr after, a ≠ .registry (.useAfterFree addr after)) → s.step cb a = some s' →
      (Admitted s' ↔ s.AdmitOk cb a) := by
  have hinv : AdmitInv s := by
    refine h.invariant (fun t ht => admitInv_started ht) fun t a t' ht hok hs => ?_
    have ha : ∀ addr after, a ≠ .registry (.useAfterFree addr after) := by
      rintro addr after rfl
      exact hok
    obtain ⟨hiff, hi⟩ := admitted_step ht ha hs
    exact hi (hiff.mpr hok)
  exact ⟨hinv.toAdmitted, fun a s' ha hs => (admitted_step hinv ha hs).1⟩

/-- A batch of three: two sources of the list, of which one has a sensor id and
one ends, and two requests. -/
def listAndRequests : List Action :=
  [.initial "rtsp://a" (some "a") none true, .initial "rtsp://b" none none true,
    .registry (.newPad 0 (some 0)), .startServer,
    .stream ⟨true, none, true, true⟩
      { valueCameraId := "c", valueCameraUrl := "rtsp://c", valueChange := "camera_add", uri := "/api/v1/stream/add" },
    .registry (.probeEos 0), .registry (.uribinRemoval true true), .registry .uribinRemovalDone,
    .stream ⟨true, none, true, true⟩
      { valueCameraId := "a", valueCameraUrl := "rtsp://d", valueChange := "camera_add", uri := "/api/v1/stream/add" }]

theorem admitted_run_listAndRequests :
    let s := (exec (step · .bin) (AdmitOk · .bin) (new 3) listAndRequests).get (by decide +kernel)
    Admitted s ∧ ∀ a s', (∀ addr after, a ≠ .registry (.useAfterFree addr after)) → s.step .bin a = some s' →
      (Admitted s' ↔ s.AdmitOk .bin a) :=
  admitted_run (.of_exec listAndRequests (.init ⟨rfl, rfl, rfl, rfl, rfl⟩) (Option.some_get _).symm)

/-- The start-up list may be longer than a batch, and may have an id twice. -/
theorem list_admitted :
    (∃ s, Reach (step · .bin) anyStep Started s ∧ s.maxBatchSize < s.sources.length) ∧
      ∃ s, Reach (step · .bin) anyStep Started s ∧ ¬ (sensorIds s.sources).Nodup := by
  let long : List Action := [.initial "rtsp://a" none none true, .initial "rtsp://b" none none true]
  let twice : List Action := [.initial "rtsp://a" (some "a") none true, .initial "rtsp://b" (some "a") none true]
  let s := (exec (step · .bin) anyStep (new 1) long).get (by decide +kernel)
  let t := (exec (step · .bin) anyStep (new 4) twice).get (by decide +kernel)
  exact ⟨⟨s, .of_exec long (.init ⟨rfl, rfl, rfl, rfl, rfl⟩) (Option.some_get _).symm, by decide +kernel⟩,
    t, .of_exec twice (.init ⟨rfl, rfl, rfl, rfl, rfl⟩) (Option.some_get _).symm, by decide +kernel⟩

end NvMultiUriBin
end MultiUri
end DeepStream
