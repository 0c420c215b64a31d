/-
# Who has the sockets of the ipc sources

For an ipc uri the bin connects to a socket and puts it into the template, from
where it goes to the new source; a request that removes a source closes the
socket of its config. The uri and the sensor id are taken out of the template
again, the socket is not: it goes to every source that is added later.
-/
import DeepStream.MultiUri.StreamApi

namespace DeepStream
namespace MultiUri
namespace NvMultiUriBin

/-- The sockets of the sources that have one. -/
def socks (l : List (ℕ × GstDsNvUriSrcConfig)) : List ℤ := (l.map fun p => p.2.sockFd).filter (· ≠ -1)

variable (s s' : NvMultiUriBin)

/-- Only sources with an ipc uri have a socket, and no two have the same. -/
structure Owned : Prop where
  ipc : ∀ p ∈ s.sources, p.2.sockFd ≠ -1 → ∃ uri ∈ p.2.uri, IsIpc uri
  distinct : (socks s.sources).Nodup

/-- The sources that are gone. -/
def gone : List (ℕ × GstDsNvUriSrcConfig) := s.sources.filter (· ∉ s'.sources)

/-- The sockets of the sources that go are closed, each once, and none of the
others is. -/
structure Closes : Prop where
  closed : s'.closedFds = s.closedFds ++ socks (s.gone s')
  own : ∀ fd ∈ socks (s.gone s'), fd ∉ socks s'.sources

/-- The request gets to adding a source without a socket of its own. -/
def AddsPlain (a : Answers) (info : NvDsServerStreamInfo) : Prop :=
  Contains info.uri "/api/v1/" ∧ (Contains info.valueChange "add" ∨ Contains info.valueChange "streaming") ∧
    s.Admits info ∧ ¬ IsIpc info.valueCameraUrl ∧ a.created = true

instance (a : Answers) (info : NvDsServerStreamInfo) : Decidable (s.AddsPlain a info) :=
  inferInstanceAs (Decidable (_ ∧ _ ∧ _ ∧ _ ∧ _))

/-- What a step must not do: add a source without a socket while the template
has one, or use a source that has been freed. -/
def SockOk : Action → Prop
  | .stream a info => s.AddsPlain a info → s.config.sockFd = -1
  | .registry (.useAfterFree ..) => False
  | _ => True

instance (a : Action) : Decidable (s.SockOk a) :=
  match a with
  | .stream a info => inferInstanceAs (Decidable (s.AddsPlain a info → s.config.sockFd = -1))
  | .registry (.useAfterFree ..) => inferInstanceAs (Decidable False)
  | .initial .. => inferInstanceAs (Decidable True)
  | .startServer => inferInstanceAs (Decidable True)
  | .removeSource .. => inferInstanceAs (Decidable True)
  | .registry (.addSource ..) => inferInstanceAs (Decidable True)
  | .registry .testPad => inferInstanceAs (Decidable True)
  | .registry (.removeSource ..) => inferInstanceAs (Decidable True)
  | .registry (.updateSource ..) => inferInstanceAs (Decidable True)
  | .registry (.newPad ..) => inferInstanceAs (Decidable True)
  | .registry (.probeEos ..) => inferInstanceAs (Decidable True)
  | .registry (.uribinRemoval ..) => inferInstanceAs (Decidable True)
  | .registry .uribinRemovalDone => inferInstanceAs (Decidable True)
  | .registry (.removeElem ..) => inferInstanceAs (Decidable True)

variable {s s'}

/-! ### The invariant -/

/-- A socket that a source has is open, and the template has none before the
server is started. -/
structure SockInv (s : NvMultiUriBin) : Prop extends Owned s where
  listed : s.creator.Listed
  isOpen : ∀ fd ∈ socks s.sources, fd ∈ s.openFds
  template : s.restServer = false → s.config.sockFd = -1

theorem mem_socks {l : List (ℕ × GstDsNvUriSrcConfig)} {fd : ℤ} :
    fd ∈ socks l ↔ (∃ p ∈ l, p.2.sockFd = fd) ∧ fd ≠ -1 := by
  rw [socks, List.mem_filter, List.mem_map, decide_eq_true_eq]

theorem perm_socks {l l' : List (ℕ × GstDsNvUriSrcConfig)} (h : l.Perm l') : (socks l).Perm (socks l') :=
  (h.map _).filter _

theorem sublist_socks {l l' : List (ℕ × GstDsNvUriSrcConfig)} (h : l'.Sublist l) : (socks l').Sublist (socks l) :=
  (h.map _).filter _

theorem socks_cons (p : ℕ × GstDsNvUriSrcConfig) (l : List (ℕ × GstDsNvUriSrcConfig)) :
    socks (p :: l) = if p.2.sockFd = -1 then socks l else p.2.sockFd :: socks l := by
  unfold socks
  rw [List.map_cons, List.filter_cons]
  by_cases h : p.2.sockFd = -1
  · simp [h]
  · simp [h]

namespace SockInv

/-- Sources may go, and sockets may be opened. -/
theorem sublist (h : SockInv s) (hsub : s'.sources.Sublist s.sources) (hl : s'.creator.Listed)
    (hopen : ∀ fd ∈ socks s'.sources, fd ∈ s.openFds → fd ∈ s'.openFds)
    (ht : s'.restServer = false → s'.config.sockFd = -1) : SockInv s' where
  ipc p hp := h.ipc p (hsub.subset hp)
  distinct := h.distinct.sublist (sublist_socks hsub)
  listed := hl
  isOpen fd hfd := hopen fd hfd (h.isOpen fd ((sublist_socks hsub).subset hfd))
  template := ht

/-- A new source may have a socket when its uri is an ipc uri and the socket is
new. -/
theorem add (h : SockInv s) {addr : ℕ} {cfg : GstDsNvUriSrcConfig} (hs : s'.sources = (addr, cfg) :: s.sources)
    (hl : s'.creator.Listed) (hopen : ∀ fd ∈ s.openFds, fd ∈ s'.openFds)
    (hcfg : cfg.sockFd ≠ -1 → (∃ uri ∈ cfg.uri, IsIpc uri) ∧ cfg.sockFd ∉ s.openFds ∧ cfg.sockFd ∈ s'.openFds)
    (ht : s'.restServer = false → s'.config.sockFd = -1) : SockInv s' := by
  have hsocks := socks_cons (addr, cfg) s.sources
  rw [← hs] at hsocks
  refine ⟨⟨fun p hp hfd => ?_, ?_⟩, hl, fun fd hfd => ?_, ht⟩
  · rw [hs] at hp
    rcases List.mem_cons.mp hp with rfl | hold
    · exact (hcfg hfd).1
    · exact h.ipc p hold hfd
  · by_cases hplain : cfg.sockFd = -1
    · rw [hsocks, if_pos hplain]
      exact h.distinct
    · rw [hsocks, if_neg hplain]
      exact List.nodup_cons.mpr ⟨fun hold => (hcfg hplain).2.1 (h.isOpen _ hold), h.distinct⟩
  · by_cases hplain : cfg.sockFd = -1
    · rw [hsocks, if_pos hplain] at hfd
      exact hopen fd (h.isOpen fd hfd)
    · rw [hsocks, if_neg hplain] at hfd
      rcases List.mem_cons.mp hfd with rfl | hold
      · exact (hcfg hplain).2.2
      · exact hopen fd (h.isOpen fd hold)

end SockInv

/-- No source goes, and nothing is closed. -/
theorem Closes.of_subset (hc : s'.closedFds = s.closedFds) (hs : ∀ p ∈ s.sources, p ∈ s'.sources) : Closes s s' := by
  have hgone : s.gone s' = [] := List.filter_eq_nil_iff.mpr fun p hp => by simpa using hs p hp
  constructor
  · rw [hgone, hc]
    exact (List.append_nil _).symm
  · rw [hgone]
    exact fun fd hfd => absurd hfd (by simp [socks])

/-! ### Steps and runs -/

theorem closeSock_eq (addr : ℕ) : s.closeSock addr = { s with
    openFds := if (s.sourceConfig addr).sockFd = -1 then s.openFds else s.openFds.erase (s.sourceConfig addr).sockFd
    closedFds := s.closedFds ++ socks [(addr, s.sourceConfig addr)] } := by
  unfold closeSock
  rw [socks_cons]
  by_cases h : (s.sourceConfig addr).sockFd = -1
  · simp [h, socks]
  · simp [h, socks]

/-- One source goes. -/
theorem gone_eq (h : s.creator.Listed) {p : ℕ × GstDsNvUriSrcConfig} (hp : p ∈ s.sources)
    (hs : s'.sources = s.sources.filter (·.1 ≠ p.1)) : s.gone s' = [p] := by
  rw [← Keyed.filter_key (keys_nodup h) hp, gone, hs]
  refine List.filter_congr fun q hq => ?_
  simp [hq]

/-- The socket of the source that is removed is closed, and no other's. -/
theorem closes_stopSource (h : SockInv s) {clears : Bool} {sourceId : ℕ} {force stopped removed done : Bool}
    (hs : s.stopSource clears sourceId force stopped removed = some (done, s')) :
    SockInv s' ∧ Closes s s' ∧ s'.restServer = s.restServer ∧ s'.config = s.config := by
  rcases stopSource_cases h.listed hs with
    ⟨rfl, -, c, rfl, hl, hsources⟩ | ⟨rfl, -, addr, c, -, hmem, rfl, hl, hsources⟩
  · have hsub : (sources { s with creator := c }).Sublist s.sources := hsources ▸ List.Sublist.refl _
    exact ⟨h.sublist hsub hl (fun _ _ => id) h.template, .of_subset rfl fun p hp => hsources ▸ hp, rfl, rfl⟩
  · rw [closeSock_eq] at hsources ⊢
    have hgone := gone_eq h.listed hmem hsources
    have hperm := Keyed.perm_key (keys_nodup h.listed) hmem
    -- the sockets of the others are different ones
    have hother : ∀ fd ∈ socks (s.sources.filter (·.1 ≠ addr)), fd ≠ (s.sourceConfig addr).sockFd := by
      intro fd hfd heq
      have hne := (mem_socks.mp hfd).2
      have hnodup := (perm_socks hperm).nodup_iff.mpr h.distinct
      rw [socks_cons, if_neg (heq ▸ hne), List.nodup_cons] at hnodup
      exact hnodup.1 (heq ▸ hfd)
    refine ⟨h.sublist (hsources ▸ List.filter_sublist) hl (fun fd hfd hold => ?_) h.template, ⟨by rw [hgone], ?_⟩, rfl, rfl⟩
    · rw [hsources] at hfd
      dsimp only
      split
      · exact hold
      · exact (List.mem_erase_of_ne (hother fd hfd)).mpr hold
    · rw [hgone, hsources]
      intro fd hfd hold
      obtain ⟨⟨p, hp, rfl⟩, -⟩ := mem_socks.mp hfd
      obtain rfl := List.mem_singleton.mp hp
      exact hother _ hold rfl

theorem closes_initial (h : SockInv s) (hrest : s.restServer = false) (uri : String)
    (sensorId sensorName : Option String) (created : Bool) :
    SockInv (s.initial uri sensorId sensorName created) ∧ Closes s (s.initial uri sensorId sensorName created) := by
  let t : NvMultiUriBin := { s with config := { s.config with
    uri := some uri
    sensorId := sensorId.or s.config.sensorId
    sensorName := sensorName.or s.config.sensorName } }
  have ht : t.creator.Listed := h.listed
  have hsock : t.config.sockFd = -1 := h.template hrest
  have hfinal : s.initial uri sensorId sensorName created = { (t.addSource created).2 with
    config := { (t.addSource created).2.config with uri := none, sensorId := none, sensorName := none } } := rfl
  rw [hfinal]
  obtain ⟨creator, sourceConfig, hadded⟩ := addSource_eq t created
  rcases addSource_cases ht created with ⟨rfl, heq⟩ | ⟨rfl, -, hlisted, hsources⟩
  · rw [heq]
    exact ⟨h.sublist (.refl _) h.listed (fun _ _ => id) h.template, .of_subset rfl fun p hp => hp⟩
  · rw [hadded] at hlisted hsources ⊢
    refine ⟨h.add hsources hlisted (fun _ => id) (fun hne => absurd hsock hne) fun _ => hsock, .of_subset rfl ?_⟩
    intro p hp
    have hmem : p ∈ (t.creator.nextAddr, t.config) :: t.sources := List.mem_cons_of_mem _ hp
    exact hsources ▸ hmem

/-- A source that is added gets a socket of its own, or what is in the template. -/
theorem owned_addStream (h : SockInv s) (hrest : s.restServer = true) {a : Answers}
    (ha : ∀ fd ∈ a.connected, fd ≠ -1 ∧ fd ∉ s.openFds) (info : NvDsServerStreamInfo) :
    (Owned (s.addStream true a info).2 ↔
      (s.Admits info ∧ ¬ IsIpc info.valueCameraUrl ∧ a.created = true → s.config.sockFd = -1)) ∧
    (Owned (s.addStream true a info).2 → SockInv (s.addStream true a info).2) ∧
    Closes s (s.addStream true a info).2 := by
  have hcases := addStream_cases h.listed true a info
  generalize s.addStream true a info = r at hcases ⊢
  cases hcases with
  | @refused log t hno hcreator hcfg hframe =>
    have hsources : t.sources = s.sources := by rw [sources, sources, hcreator, hcfg]
    have hinv : SockInv t := h.sublist (hsources ▸ List.Sublist.refl _) (hcreator ▸ h.listed)
      (fun fd _ hold => hframe.openFds fd hold) (fun hr => absurd (hframe.restServer.symm.trans hr) (by simp [hrest]))
    refine ⟨iff_of_true hinv.toOwned ?_, fun _ => hinv, .of_subset hframe.closedFds fun p hp => hsources ▸ hp⟩
    rintro ⟨hadmits, hipc, hcreated⟩
    exact absurd ⟨hadmits, by simp [sockOf, hipc], hcreated⟩ hno
  | @added fd t hadmits hcreated hsock hlisted hsources hframe hopen =>
    have hrest' : t.restServer = false → t.config.sockFd = -1 :=
      fun hr => absurd (hframe.restServer.symm.trans hr) (by simp [hrest])
    have hcloses : Closes s t := .of_subset hframe.closedFds fun p hp => hsources ▸ List.mem_cons_of_mem _ hp
    by_cases hipc : IsIpc info.valueCameraUrl
    · rw [sockOf, if_pos ⟨rfl, hipc⟩] at hsock
      have hinv : SockInv t := h.add hsources hlisted hframe.openFds
        (fun _ => ⟨⟨_, rfl, hipc⟩, (ha fd hsock).2, hopen ⟨rfl, hipc⟩⟩) hrest'
      exact ⟨iff_of_true hinv.toOwned fun hc => absurd hipc hc.2.1, fun _ => hinv, hcloses⟩
    · rw [sockOf, if_neg fun hc => hipc hc.2] at hsock
      obtain rfl := Option.some.inj hsock
      by_cases hplain : s.config.sockFd = -1
      · have hinv : SockInv t := h.add hsources hlisted hframe.openFds (fun hne => absurd hplain hne) hrest'
        exact ⟨iff_of_true hinv.toOwned fun _ => hplain, fun _ => hinv, hcloses⟩
      · have hnot : ¬ Owned t := by
          intro hown
          obtain ⟨uri, huri, huripc⟩ := hown.ipc _ (hsources ▸ List.mem_cons_self) hplain
          obtain rfl := Option.some.inj huri
          exact hipc huripc
        exact ⟨iff_of_false hnot fun hok => hplain (hok ⟨hadmits, hipc, hcreated⟩), fun hown => absurd hown hnot, hcloses⟩

theorem owned_stream (h : SockInv s) {a : Answers} {info : NvDsServerStreamInfo}
    (hs : s.step .bin (.stream a info) = some s') :
    (Owned s' ↔ s.SockOk (.stream a info)) ∧ (Owned s' → SockInv s') ∧ Closes s s' := by
  simp only [step] at hs
  by_cases hc : s.restServer = true ∧ ∀ fd ∈ a.connected, fd ≠ -1 ∧ fd ∉ s.openFds
  · rw [if_pos hc] at hs
    obtain ⟨⟨out, t⟩, hout, rfl⟩ := Option.map_eq_some_iff.mp hs
    have hsame : ¬ s.AddsPlain a info → SockInv t → Closes s t →
        (Owned t ↔ s.SockOk (.stream a info)) ∧ (Owned t → SockInv t) ∧ Closes s t :=
      fun hno hinv hcloses => ⟨iff_of_true hinv.toOwned fun hadds => absurd hadds hno, fun _ => hinv, hcloses⟩
    simp only [streamCb, streamApiImpl] at hout
    by_cases hapi : Contains info.uri "/api/v1/"
    · rw [if_pos hapi] at hout
      by_cases hadd : Contains info.valueChange "add" ∨ Contains info.valueChange "streaming"
      · rw [if_pos hadd] at hout
        have ht : (s.addStream true a info).2 = t := congrArg Prod.snd (Option.some.inj hout)
        rw [← ht]
        obtain ⟨hiff, hinv, hcloses⟩ := owned_addStream h hc.1 hc.2 info
        refine ⟨hiff.trans ⟨fun hok hadds => hok ⟨hadds.2.2.1, hadds.2.2.2⟩, fun hok hadds => ?_⟩, hinv, hcloses⟩
        exact hok ⟨hapi, hadd, hadds.1, hadds.2⟩
      · rw [if_neg hadd] at hout
        have hno : ¬ s.AddsPlain a info := fun hadds => hadd hadds.2.1
        by_cases hremove : Contains info.valueChange "remove"
        · rw [if_pos hremove, removeStream] at hout
          cases he : s.getSourceConfig info.valueCameraUrl info.valueCameraId with
          | none =>
            rw [he] at hout
            obtain ⟨rfl, rfl⟩ := Prod.mk.inj (Option.some.inj hout)
            exact hsame hno h (.of_subset rfl fun _ => id)
          | some e =>
            rw [he] at hout
            obtain ⟨⟨done, t'⟩, hstop, heq⟩ := Option.map_eq_some_iff.mp hout
            obtain ⟨-, rfl⟩ := Prod.mk.inj heq
            obtain ⟨hinv, hcloses, -⟩ := closes_stopSource h hstop
            exact hsame hno hinv hcloses
        · rw [if_neg hremove] at hout
          obtain ⟨-, rfl⟩ := Prod.mk.inj (Option.some.inj hout)
          exact hsame hno h (.of_subset rfl fun _ => id)
    · rw [if_neg hapi] at hout
      obtain ⟨-, rfl⟩ := Prod.mk.inj (Option.some.inj hout)
      exact hsame (fun hadds => hapi hadds.1) h (.of_subset rfl fun _ => id)
  · rw [if_neg hc] at hs
    cases hs

theorem owned_step (h : SockInv s) {a : Action} (ha : ∀ addr after, a ≠ .registry (.useAfterFree addr after))
    (hs : s.step .bin a = some s') :
    (Owned s' ↔ s.SockOk a) ∧ (Owned s' → SockInv s') ∧ ((∀ r, a ≠ .registry r) → Closes s s') := by
  have hkeep : SockInv s' → s.SockOk a → ((∀ r, a ≠ .registry r) → Closes s s') →
      (Owned s' ↔ s.SockOk a) ∧ (Owned s' → SockInv s') ∧ ((∀ r, a ≠ .registry r) → Closes s s') :=
    fun hinv hok hcloses => ⟨iff_of_true hinv.toOwned hok, fun _ => hinv, hcloses⟩
  cases a with
  | initial uri sensorId sensorName created =>
    simp only [step, true_and] at hs
    by_cases hc : s.restServer = false
    · rw [if_pos hc] at hs
      obtain rfl := Option.some.inj hs
      obtain ⟨hinv, hcloses⟩ := closes_initial h hc uri sensorId sensorName created
      exact hkeep hinv trivial fun _ => hcloses
    · rw [if_neg hc] at hs
      cases hs
  | startServer =>
    obtain rfl := Option.some.inj hs
    refine hkeep (h.sublist (.refl _) h.listed (fun _ _ => id) fun hr => ?_) trivial
      fun _ => .of_subset rfl fun _ => id
    cases hr
  | stream a info =>
    obtain ⟨hiff, hinv, hcloses⟩ := owned_stream h hs
    exact ⟨hiff, hinv, fun _ => hcloses⟩
  | removeSource sourceId force stopped removed =>
    obtain ⟨⟨done, t⟩, hstop, rfl⟩ := Option.map_eq_some_iff.mp hs
    obtain ⟨hinv, hcloses, -⟩ := closes_stopSource h hstop
    exact hkeep hinv trivial fun _ => hcloses
  | registry r =>
    simp only [step] at hs
    by_cases hr : OfThreads r
    · rw [if_pos hr] at hs
      obtain ⟨c, hc, rfl⟩ := Option.map_eq_some_iff.mp hs
      have hu : ∀ addr after, r ≠ .useAfterFree addr after := fun addr after heq => ha addr after (heq ▸ rfl)
      obtain ⟨hsub, hnext⟩ := NvMultiUriSrcBinCreator.sublist_step hr hu hc
      have hok : s.SockOk (.registry r) := by
        cases r with
        | useAfterFree addr after => exact hu addr after rfl
        | _ => trivial
      refine hkeep (h.sublist (sources_sublist hsub rfl) (h.listed.sublist hsub hnext) (fun _ _ => id) h.template)
        hok fun hno => absurd rfl (hno r)
    · rw [if_neg hr] at hs
      cases hs

theorem sockInv_started (h : s.Started) : SockInv s where
  ipc := by simp [h.sources_eq]
  distinct := by simp [h.sources_eq, socks]
  listed := h.listed
  isOpen := by simp [h.sources_eq, socks]
  template _ := by rw [h.2.1]

/-- **A socket belongs to the ipc source it was connected for.** In every run
that adds no source with another uri once the template has a socket, in every
state, and every removal closes the socket of its own source and no other; and
such a run goes on to do so exactly when its next step meets the condition. -/
theorem owned_run (h : Reach (step · .bin) SockOk Started s) :
    Owned s ∧ ∀ a s', (∀ addr after, a ≠ .registry (.useAfterFree addr after)) → s.step .bin a = some s' →
      (Owned s' ↔ s.SockOk a) ∧ ((∀ r, a ≠ .registry r) → Closes s s') := by
  have hinv : SockInv s := by
    refine h.invariant (fun t ht => sockInv_started ht) fun t a t' ht hok hs => ?_
    have ha : ∀ addr after, a ≠ .registry (.useAfterFree addr after) := by
      rintro addr after rfl
      exact hok
    obtain ⟨hiff, hi, -⟩ := owned_step ht ha hs
    exact hi (hiff.mpr hok)
  refine ⟨hinv.toOwned, fun a s' ha hs => ?_⟩
  obtain ⟨hiff, -, hcloses⟩ := owned_step hinv ha hs
  exact ⟨hiff, hcloses⟩

def addRequest (id url : String) : NvDsServerStreamInfo :=
  { valueCameraId := id, valueCameraUrl := url, valueChange := "camera_add", uri := "/api/v1/stream/add" }

def removeRequest (id url : String) : NvDsServerStreamInfo :=
  { valueCameraId := id, valueCameraUrl := url, valueChange := "camera_remove", uri := "/api/v1/stream/remove" }

/-- One source without a socket and two with, of which one is removed. -/
def twoSockets : List Action :=
  [.startServer, .stream ⟨true, none, true, true⟩ (addRequest "a" "rtsp://a"),
    .stream ⟨true, some 5, true, true⟩ (addRequest "b" "ipc://b"),
    .stream ⟨true, some 6, true, true⟩ (addRequest "c" "ipc://c"),
    .stream ⟨true, none, true, true⟩ (removeRequest "b" "ipc://b")]

theorem owned_run_twoSockets :
    let s := (exec (step · .bin) SockOk (new 4) twoSockets).get (by decide +kernel)
    Owned s ∧ ∀ a s', (∀ addr after, a ≠ .registry (.useAfterFree addr after)) → s.step .bin a = some s' →
      (Owned s' ↔ s.SockOk a) ∧ ((∀ r, a ≠ .registry r) → Closes s s') :=
  owned_run (.of_exec twoSockets (.init ⟨rfl, rfl, rfl, rfl, rfl⟩) (Option.some_get _).symm)

/-- A source without a socket is added after one with. -/
def plainAfterSocket : List Action :=
  [.startServer, .stream ⟨true, some 5, true, true⟩ (addRequest "a" "ipc://a"),
    .stream ⟨true, none, true, true⟩ (addRequest "b" "rtsp://b")]

/-- Both have the one socket, which the removal of the second source closes. -/
theorem socket_shared : ∃ s, Reach (step · .bin) anyStep Started s ∧ ¬ Owned s ∧
    ∃ s', s.step .bin (.stream ⟨true, none, true, true⟩ (removeRequest "b" "rtsp://b")) = some s' ∧
      s'.closedFds = [5] ∧ socks s'.sources = [5] := by
  let s := (exec (step · .bin) anyStep (new 4) plainAfterSocket).get (by decide +kernel)
  let s' := (s.step .bin (.stream ⟨true, none, true, true⟩ (removeRequest "b" "rtsp://b"))).get (by decide +kernel)
  have hsocks : socks s.sources = [5, 5] := by decide +kernel
  refine ⟨s, .of_exec plainAfterSocket (.init ⟨rfl, rfl, rfl, rfl, rfl⟩) (Option.some_get _).symm, fun hown => ?_, s',
    (Option.some_get _).symm, by decide +kernel, by decide +kernel⟩
  have hnodup := hown.distinct
  rw [hsocks] at hnodup
  exact absurd hnodup (by decide)

end NvMultiUriBin
end MultiUri
end DeepStream
