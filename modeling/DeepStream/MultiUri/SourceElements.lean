/-
# What a refused request leaves of a source

`remove_source` and `update_source` disconnect the handlers of a source and take
its probe off before they stop its element, give its pad back before they take
the element out of the bin, and drop the source before a new element is created.
Each of these may be refused, and nothing is put back. A request leaves
everything as it was exactly if it is granted, or there was nothing left to take
down before the step that is refused. The registry, the configs and the sockets
are those of the stream requests; here each source also has its element.
-/
import DeepStream.MultiUri.StreamApi

namespace DeepStream
namespace MultiUri

open Std

inductive GstState where
  | null
  | ready
  | paused
  | playing
  deriving DecidableEq, Repr

inductive GstStateChangeReturn where
  | failure
  | success
  | async
  | noPreroll
  deriving DecidableEq, Repr

/-- What GStreamer answers: to the change of the state, with the state that the
element is left in, to the removal from the bin and to the request for a new
element. -/
structure GstAnswers where
  setState : GstStateChangeReturn
  state : GstState
  binRemove : Bool
  created : Bool
  deriving DecidableEq, Repr

namespace GstAnswers

variable (a : GstAnswers)

def stopped : Bool := a.setState ≠ .failure

/-- The bin is asked only when the state has changed or is changing. -/
def asked : Bool := a.setState = .success ∨ a.setState = .async

/-- The bin does not refuse. -/
def removed : Bool := !a.asked || a.binRemove

end GstAnswers

/-- The element of a source: the callbacks that are connected to its signals and
the EOS probes on its pad are counted, `link` is the muxer's pad that its pad is
linked to. -/
structure NvUriSrcBin where
  state : GstState
  inBin : Bool
  newPadAdded : ℕ
  elemRemoved : ℕ
  probesEos : ℕ
  link : Option ℕ
  deriving DecidableEq, Repr

namespace NvUriSrcBin

/-- A new element in the bin, with its handlers. -/
def new : NvUriSrcBin := ⟨.null, true, 1, 1, 0, none⟩

/-- The handlers and the probe that the source `e` knows of are taken off. -/
def disconnect (u : NvUriSrcBin) (e : NvDsUriSourceInfo) : NvUriSrcBin :=
  { u with
    elemRemoved := if e.elemRemovedHandler then u.elemRemoved - 1 else u.elemRemoved
    newPadAdded := if e.newPadAddedHandler then u.newPadAdded - 1 else u.newPadAdded
    probesEos := if e.probeEosHandling then u.probesEos - 1 else u.probesEos }

/-- What is done to the element of the source `e`. The link ends with the
muxer's pad, or when the element leaves the bin. -/
def stop (u : NvUriSrcBin) (e : NvDsUriSourceInfo) (force : Bool) (a : GstAnswers) : NvUriSrcBin :=
  let u := u.disconnect e
  if ¬ force then u
  else
    let u := { u with state := a.state }
    if ¬ a.stopped then u
    else
      let u := if u.link = e.muxSinkPad then { u with link := none } else u
      if a.asked ∧ a.binRemove then { u with inBin := false, link := none } else u

end NvUriSrcBin

/-- The bin with the elements of its sources, by the addresses of the sources. -/
structure SourceElements where
  bin : NvMultiUriBin
  uribin : ℕ → NvUriSrcBin

inductive SourceRequest where
  | removeSource (sourceId : UInt32)
  | updateSource (sourceId : Int32) (force : Bool)
  deriving DecidableEq, Repr

/-- The source that the hash has for an id. -/
def NvMultiUriSrcBinCreator.lookup (c : NvMultiUriSrcBinCreator) (sourceId : ℕ) : Option NvDsUriSourceInfo :=
  c.sourceInfoHash[(sourceId : ℤ)]?.bind c.sourceInfo

namespace SourceElements

variable (t : SourceElements)

def stopSource (clears : Bool) (sourceId : ℕ) (force : Bool) (a : GstAnswers) : Option (Bool × SourceElements) :=
  (t.bin.stopSource clears sourceId force a.stopped a.removed).map fun (done, bin) =>
    match t.bin.creator.lookup sourceId with
    | none => (done, { t with bin := bin })
    | some e => (done, { bin := bin, uribin := Function.update t.uribin e.addr ((t.uribin e.addr).stop e force a) })

def removeSource (sourceId : UInt32) (a : GstAnswers) : Option (Bool × SourceElements) :=
  t.stopSource false sourceId.toNat true a

/-- The new source gets the template as its config, and its handlers. -/
def register (sourceId : ℤ) : SourceElements where
  bin := { t.bin with
    creator := t.bin.creator.register sourceId
    sourceConfig := Function.update t.bin.sourceConfig t.bin.creator.nextAddr t.bin.config }
  uribin := Function.update t.uribin t.bin.creator.nextAddr .new

def updateSource (sourceId : Int32) (force : Bool) (a : GstAnswers) : Option (Bool × SourceElements) :=
  (t.stopSource true (NvMultiUriBin.guint sourceId.toInt) force a).map fun (done, t) =>
    if done ∧ a.created then (true, t.register sourceId.toInt) else (false, t)

def request (r : SourceRequest) (a : GstAnswers) : Option (Bool × SourceElements) :=
  match r with
  | .removeSource sourceId => t.removeSource sourceId a
  | .updateSource sourceId force => t.updateSource sourceId force a

/-! ### All or nothing -/

/-- The source of the id is a new one, whose element will be linked to the pad
that the old one had, and the other sources are as they were. -/
def Updated (sourceId : Int32) (t' : SourceElements) : Prop :=
  ∃ old e, t.bin.creator.lookup (NvMultiUriBin.guint sourceId.toInt) = some old ∧
    t'.bin.creator.lookup (NvMultiUriBin.guint sourceId.toInt) = some e ∧
    t'.bin.sourceConfig e.addr = t.bin.config ∧
    (∀ p ∈ old.muxSinkPad, ∀ pad, (t'.bin.creator.newPad e.addr (some pad)).isSome ↔ pad = p) ∧
    (e.newPadAddedHandler ∧ (t'.uribin e.addr).newPadAdded = 1) ∧
    (e.elemRemovedHandler ∧ (t'.uribin e.addr).elemRemoved = 1) ∧
    (∀ addr, addr ≠ old.addr → addr ≠ e.addr →
      t'.bin.creator.sourceInfo addr = t.bin.creator.sourceInfo addr ∧
        t'.bin.sourceConfig addr = t.bin.sourceConfig addr ∧ t'.uribin addr = t.uribin addr) ∧
    ∀ id : ℤ, id ≠ sourceId.toInt → t'.bin.creator.sourceInfoHash[id]? = t.bin.creator.sourceInfoHash[id]?

/-- A request that returns FALSE has changed nothing, and an update that returns
TRUE has replaced the source. -/
def Atomic (r : SourceRequest) (a : GstAnswers) : Prop :=
  ∃ ret t', t.request r a = some (ret, t') ∧ (ret = false → t' = t) ∧
    (ret = true → ∀ sourceId force, r = .updateSource sourceId force → t.Updated sourceId t')

/-- The source has no handlers and no probe any more, and its element is left in
the state it is in. -/
structure Bare (e : NvDsUriSourceInfo) (a : GstAnswers) : Prop where
  newPadAddedHandler : e.newPadAddedHandler = false
  elemRemovedHandler : e.elemRemovedHandler = false
  probeEosHandling : e.probeEosHandling = false
  state : a.state = (t.uribin e.addr).state

/-- The source has no pad of the muxer. Only `update_source` clears the pointer. -/
def NoPad (clears : Bool) (e : NvDsUriSourceInfo) : Prop :=
  ∀ p ∈ e.muxSinkPad, clears = false ∧ p ∉ t.bin.creator.streammuxPads ∧ (t.uribin e.addr).link ≠ some p

/-- Where GStreamer does not stop the element, or does not let it out of the bin,
there was nothing to take down before. -/
def StopOk (clears : Bool) (sourceId : ℕ) (force : Bool) (a : GstAnswers) : Prop :=
  force = true → ∀ e ∈ t.bin.creator.lookup sourceId,
    if a.stopped = false then t.Bare e a else a.removed = false → t.Bare e a ∧ t.NoPad clears e

def AtomicOk (r : SourceRequest) (a : GstAnswers) : Prop :=
  match r with
  | .removeSource sourceId => t.StopOk false sourceId.toNat true a
  | .updateSource sourceId force => t.StopOk true (NvMultiUriBin.guint sourceId.toInt) force a ∧
    ((t.bin.creator.lookup (NvMultiUriBin.guint sourceId.toInt)).isSome →
      (force = true → a.stopped = true ∧ a.removed = true) → a.created = true)

end SourceElements
/-! ### Registries -/

namespace NvMultiUriSrcBinCreator

variable {c c' : NvMultiUriSrcBinCreator}

/-- The sources have addresses of their own and ids that are a `gint`, the hash
leads to sources of the list, and a pad that was requested by its number has it. -/
structure WellFormed (c : NvMultiUriSrcBinCreator) : Prop extends Listed c where
  gint : ∀ p ∈ c.entries, p.1 < 2 ^ 31
  hash : ∀ id addr, c.sourceInfoHash[id]? = some addr → (id, addr) ∈ c.entries
  pads : ∀ e ∈ c.sourceInfoList, 0 ≤ e.sourceId → ∀ pad ∈ e.muxSinkPad, (pad : ℤ) = e.sourceId

theorem sourceInfo_modify (addr : ℕ) {f : NvDsUriSourceInfo → NvDsUriSourceInfo} (hf : ∀ e, (f e).addr = e.addr)
    (a : ℕ) : (c.modify addr f).sourceInfo a = if a = addr then (c.sourceInfo a).map f else c.sourceInfo a := by
  unfold sourceInfo modify
  have hkey : ((fun e : NvDsUriSourceInfo => decide (e.addr = a)) ∘ fun e => if e.addr = addr then f e else e) =
      fun e => decide (e.addr = a) := by
    funext e
    simp only [Function.comp_apply]
    split
    · rw [hf]
    · rfl
  rw [List.find?_map, hkey]
  cases he : c.sourceInfoList.find? (·.addr = a) with
  | none => simp
  | some e =>
    have hea : e.addr = a := by simpa using List.find?_some he
    by_cases ha : a = addr
    · simp [hea, ha]
    · simp [hea, ha]

theorem sourceInfo_register (sourceId : ℤ) (a : ℕ) : (c.register sourceId).sourceInfo a =
    if a = c.nextAddr then some ⟨c.nextAddr, sourceId, none, false, true, true⟩ else c.sourceInfo a := by
  unfold sourceInfo register
  rw [List.find?_cons]
  by_cases ha : a = c.nextAddr
  · simp [ha]
  · simp [ha, Ne.symm ha]

theorem Listed.addrs_nodup (h : Listed c) : (c.sourceInfoList.map (·.addr)).Nodup := by
  have := h.nodup
  rwa [entries, List.map_map] at this

theorem sourceInfo_removeSourceInfo (h : Listed c) (e : NvDsUriSourceInfo) (a : ℕ) :
    (c.removeSourceInfo e).sourceInfo a = if a = e.addr then none else c.sourceInfo a := by
  unfold sourceInfo removeSourceInfo
  dsimp only
  rw [Keyed.eraseP_key h.addrs_nodup, List.find?_filter]
  by_cases ha : a = e.addr
  · rw [if_pos ha, List.find?_eq_none]
    intro b _
    simp [ha]
  · rw [if_neg ha]
    congr 1
    funext b
    by_cases hb : b.addr = a
    · simp [hb, ha]
    · simp [hb]

/-- A source is where the list has its address. -/
theorem mem_of_sourceInfo {a : ℕ} {e : NvDsUriSourceInfo} (he : c.sourceInfo a = some e) :
    e ∈ c.sourceInfoList ∧ e.addr = a :=
  ⟨List.mem_of_find?_eq_some he, (sourceInfo_eq_some he).1⟩

/-- Nothing is modified exactly when the source stays as it is. -/
theorem modify_eq_self (h : Listed c) {e : NvDsUriSourceInfo} (he : c.sourceInfo e.addr = some e)
    {f : NvDsUriSourceInfo → NvDsUriSourceInfo} (hf : ∀ e, (f e).addr = e.addr) : c.modify e.addr f = c ↔ f e = e := by
  constructor
  · intro hc
    have hi := sourceInfo_modify (c := c) e.addr hf e.addr
    rw [hc, if_pos rfl, he] at hi
    exact (Option.some.inj hi).symm
  · intro hfe
    have hlist : c.sourceInfoList.map (fun b => if b.addr = e.addr then f b else b) = c.sourceInfoList := by
      refine (List.map_congr_left fun b hb => ?_).trans (List.map_id _)
      split
      · rename_i hbe
        rw [List.inj_on_of_nodup_map h.addrs_nodup hb (mem_of_sourceInfo he).1 hbe]
        exact hfe
      · rfl
    unfold modify
    rw [hlist]

/-! ### What a refused stop leaves -/

/-- The source without its handlers and its probe, and perhaps without its pad. -/
def strip (clears : Bool) (e : NvDsUriSourceInfo) : NvDsUriSourceInfo :=
  { e with
    elemRemovedHandler := false
    newPadAddedHandler := false
    probeEosHandling := false
    muxSinkPad := if clears then none else e.muxSinkPad }

theorem strip_addr (clears : Bool) (e : NvDsUriSourceInfo) : (strip clears e).addr = e.addr := rfl

theorem modify_modify (addr : ℕ) {f g : NvDsUriSourceInfo → NvDsUriSourceInfo} (hf : ∀ e, (f e).addr = e.addr) :
    (c.modify addr f).modify addr g = c.modify addr (g ∘ f) := by
  unfold modify
  rw [List.map_map]
  refine congrArg (fun l => { c with sourceInfoList := l }) (List.map_congr_left fun e _ => ?_)
  by_cases he : e.addr = addr
  · simp [he, hf]
  · simp [he]

/-- The registry with the source taken down, before it is dropped. -/
def takenDown (c : NvMultiUriSrcBinCreator) (clears force : Bool) (e : NvDsUriSourceInfo) : NvMultiUriSrcBinCreator :=
  { c.modify e.addr (strip (force && clears)) with
    streammuxPads := if force then (c.releaseMuxSinkPad e).streammuxPads else c.streammuxPads }

theorem lookup_eq_some {sourceId : ℕ} {e : NvDsUriSourceInfo} (h : c.lookup sourceId = some e) :
    c.sourceInfoHash[(sourceId : ℤ)]? = some e.addr ∧ c.sourceInfo e.addr = some e := by
  obtain ⟨addr, hhash, he⟩ := Option.bind_eq_some_iff.mp h
  obtain rfl := (sourceInfo_eq_some he).1
  exact ⟨hhash, he⟩

theorem lookup_eq_none (hw : WellFormed c) {sourceId : ℕ} (h : c.lookup sourceId = none) :
    c.sourceInfoHash[(sourceId : ℤ)]? = none := by
  cases hhash : c.sourceInfoHash[(sourceId : ℤ)]? with
  | none => rfl
  | some addr =>
    obtain ⟨e, he, hea⟩ := List.mem_map.mp (hw.hash _ _ hhash)
    rw [lookup, hhash, Option.bind_some, sourceInfo, List.find?_eq_none] at h
    exact absurd (Prod.mk.inj hea).2 (by simpa using h e he)

theorem stopSource_none {clears : Bool} {sourceId : ℕ} {force stopped removed : Bool}
    (h : c.sourceInfoHash[(sourceId : ℤ)]? = none) :
    c.stopSource clears sourceId force stopped removed = some (c, false) := by
  rw [stopSource, h]

theorem modify_probe (e : NvDsUriSourceInfo) :
    (c.removeSourceInfoHandlers e.addr).modify e.addr (fun e => { e with probeEosHandling := false }) =
      c.modify e.addr (strip false) :=
  modify_modify e.addr fun _ => rfl

theorem releaseMuxSinkPad_modify (addr : ℕ) (f : NvDsUriSourceInfo → NvDsUriSourceInfo) (e : NvDsUriSourceInfo) :
    (c.modify addr f).releaseMuxSinkPad e =
      { c.modify addr f with streammuxPads := (c.releaseMuxSinkPad e).streammuxPads } := by
  unfold releaseMuxSinkPad
  cases e.muxSinkPad with
  | none => rfl
  | some pad => rfl

/-- What the source that an id has comes to. -/
theorem stopSource_some {sourceId : ℕ} {e : NvDsUriSourceInfo} (h : c.lookup sourceId = some e)
    (clears force stopped removed : Bool) : c.stopSource clears sourceId force stopped removed =
      if force ∧ ¬ stopped then some (c.modify e.addr (strip false), false)
      else if force ∧ ¬ removed then some (c.takenDown clears force e, false)
      else some ((c.takenDown clears force e).removeSourceInfo e, true) := by
  obtain ⟨hhash, he⟩ := lookup_eq_some h
  simp only [stopSource, hhash, he, modify_probe]
  split
  · rfl
  · cases force with
    | false => rfl
    | true =>
      have hdown : (if clears then ((c.modify e.addr (strip false)).releaseMuxSinkPad e).modify e.addr
          (fun e => { e with muxSinkPad := none }) else (c.modify e.addr (strip false)).releaseMuxSinkPad e) =
          c.takenDown clears true e := by
        rw [releaseMuxSinkPad_modify, takenDown]
        cases clears with
        | false => rfl
        | true =>
          have hmod := modify_modify (c := c) e.addr (f := strip false)
            (g := fun e => { e with muxSinkPad := none }) fun _ => rfl
          exact congrArg (fun d : NvMultiUriSrcBinCreator =>
            { d with streammuxPads := (c.releaseMuxSinkPad e).streammuxPads }) hmod
      simp only [↓reduceIte, true_and, hdown]

/-! ### Registries that are reached -/

namespace WellFormed

/-- The sources, the hash and the next address are all it speaks of. -/
theorem congr (h : WellFormed c) (hl : c'.sourceInfoList = c.sourceInfoList)
    (hh : c'.sourceInfoHash = c.sourceInfoHash) (ha : c'.nextAddr = c.nextAddr) : WellFormed c' := by
  have he : c'.entries = c.entries := by rw [entries, entries, hl]
  refine ⟨⟨he ▸ h.nodup, ?_⟩, he ▸ h.gint, ?_, hl ▸ h.pads⟩
  · rw [he, ha]
    exact h.fresh
  · rw [he, hh]
    exact h.hash

theorem modify (h : WellFormed c) (addr : ℕ) {f : NvDsUriSourceInfo → NvDsUriSourceInfo}
    (hf : ∀ e, (f e).sourceId = e.sourceId ∧ (f e).addr = e.addr)
    (hp : ∀ e, c.sourceInfo addr = some e → 0 ≤ e.sourceId → ∀ pad ∈ (f e).muxSinkPad, (pad : ℤ) = e.sourceId) :
    WellFormed (c.modify addr f) := by
  have he := entries_modify (s := c) addr hf
  refine ⟨⟨he ▸ h.nodup, he ▸ h.fresh⟩, he ▸ h.gint, he ▸ h.hash, fun e hmem => ?_⟩
  obtain ⟨b, hb, rfl⟩ := List.mem_map.mp hmem
  by_cases hba : b.addr = addr
  · obtain ⟨d, hd⟩ := Option.isSome_iff_exists.mp (List.find?_isSome (p := fun e => decide (e.addr = addr)).mpr
      ⟨b, hb, by simpa using hba⟩)
    have hdb : d = b := List.inj_on_of_nodup_map h.addrs_nodup (List.mem_of_find?_eq_some hd) hb
      ((mem_of_sourceInfo hd).2.trans hba.symm)
    subst hdb
    simp only [hba, ↓reduceIte, (hf d).1]
    exact hp d hd
  · simp only [hba, ↓reduceIte]
    exact h.pads b hb

theorem strip (h : WellFormed c) (clears : Bool) (addr : ℕ) : WellFormed (c.modify addr (strip clears)) := by
  refine h.modify addr (fun _ => ⟨rfl, rfl⟩) fun e he hpos pad hpad => ?_
  cases clears with
  | false => exact h.pads e (mem_of_sourceInfo he).1 hpos pad hpad
  | true => cases hpad

theorem releaseMuxSinkPad (h : WellFormed c) (e : NvDsUriSourceInfo) : WellFormed (c.releaseMuxSinkPad e) := by
  obtain ⟨pads, hpads⟩ := releaseMuxSinkPad_eq (s := c) e
  rw [hpads]
  exact h.congr rfl rfl rfl

theorem takenDown (h : WellFormed c) (clears force : Bool) (e : NvDsUriSourceInfo) :
    WellFormed (c.takenDown clears force e) :=
  (h.strip (force && clears) e.addr).congr rfl rfl rfl

theorem removeSourceInfo (h : WellFormed c) {e : NvDsUriSourceInfo} (he : (e.sourceId, e.addr) ∈ c.entries) :
    WellFormed (c.removeSourceInfo e) := by
  have hsub : (c.removeSourceInfo e).entries.Sublist c.entries := by
    rw [entries_removeSourceInfo]
    exact List.eraseP_sublist
  refine ⟨h.toListed.sublist hsub rfl, fun p hp => h.gint p (hsub.subset hp), fun id addr hhash => ?_,
    fun b hb => h.pads b (List.mem_of_mem_eraseP hb)⟩
  have herase : (c.sourceInfoHash.erase e.sourceId)[id]? = some addr := hhash
  rw [Table.getElem?_erase] at herase
  by_cases hid : id = e.sourceId
  · simp [hid] at herase
  · rw [if_neg hid] at herase
    rw [entries_removeSourceInfo, mem_eraseP h.nodup]
    refine ⟨h.hash id addr herase, fun hae => hid ?_⟩
    exact congrArg Prod.fst (List.inj_on_of_nodup_map h.nodup (h.hash id addr herase) he hae)

theorem register (h : WellFormed c) {sourceId : ℤ} (hid : sourceId < 2 ^ 31) : WellFormed (c.register sourceId) := by
  refine ⟨h.toListed.register sourceId, List.forall_mem_cons.mpr ⟨hid, h.gint⟩, fun id addr hhash => ?_,
    fun e he => ?_⟩
  · have hinsert : (c.sourceInfoHash.insert sourceId c.nextAddr)[id]? = some addr := hhash
    rw [Table.getElem?_insert] at hinsert
    rw [entries_register]
    by_cases heq : id = sourceId
    · rw [if_pos heq, Option.some.injEq] at hinsert
      rw [heq, hinsert]
      exact List.mem_cons_self
    · rw [if_neg heq] at hinsert
      exact List.mem_cons_of_mem _ (h.hash id addr hinsert)
  · rcases List.mem_cons.mp he with rfl | hold
    · exact fun _ pad hpad => by cases hpad
    · exact h.pads e hold

/-- A source is dropped where it was found by its address. -/
theorem drop (h : WellFormed c) {addr : ℕ} {e : NvDsUriSourceInfo} (he : c.sourceInfo addr = some e) :
    WellFormed ((c.removeSourceInfoHandlers addr).removeSourceInfo e) := by
  obtain ⟨rfl, hmem⟩ := sourceInfo_eq_some he
  have hw : WellFormed (c.removeSourceInfoHandlers e.addr) :=
    h.modify e.addr (fun _ => ⟨rfl, rfl⟩) fun b hb => h.pads b (mem_of_sourceInfo hb).1
  refine hw.removeSourceInfo ?_
  rwa [entries_removeSourceInfoHandlers]

theorem stopSource (h : WellFormed c) {clears : Bool} {sourceId : ℕ} {force stopped removed done : Bool}
    (hs : c.stopSource clears sourceId force stopped removed = some (c', done)) : WellFormed c' := by
  cases hl : c.lookup sourceId with
  | none =>
    rw [stopSource_none (lookup_eq_none h hl)] at hs
    obtain ⟨rfl, -⟩ := Prod.mk.inj (Option.some.inj hs)
    exact h
  | some e =>
    have hmem := (sourceInfo_eq_some (lookup_eq_some hl).2).2
    rw [stopSource_some hl] at hs
    split at hs
    · obtain ⟨rfl, -⟩ := Prod.mk.inj (Option.some.inj hs)
      exact h.strip false e.addr
    · split at hs
      · obtain ⟨rfl, -⟩ := Prod.mk.inj (Option.some.inj hs)
        exact h.takenDown clears force e
      · obtain ⟨rfl, -⟩ := Prod.mk.inj (Option.some.inj hs)
        refine (h.takenDown clears force e).removeSourceInfo ?_
        have hentries := entries_modify (s := c) e.addr (f := NvMultiUriSrcBinCreator.strip (force && clears))
          fun _ => ⟨rfl, rfl⟩
        exact hentries.symm ▸ hmem

end WellFormed

/-- No section uses a source that has been freed. -/
def NotFreed (_ : NvMultiUriSrcBinCreator) : Action → Prop
  | .useAfterFree .. => False
  | _ => True

theorem wellFormed_testPad (h : WellFormed c) (hs : c.testPad = some c') : WellFormed c' := by
  unfold testPad at hs
  split at hs
  · cases hs
  · rename_i i _
    dsimp only at hs
    split at hs
    · split at hs
      · obtain rfl := Option.some.inj hs
        exact h.congr rfl rfl rfl
      · obtain rfl := Option.some.inj hs
        exact h.register (by omega)
    · obtain rfl := Option.some.inj hs
      have hbase : WellFormed { c with baseIndex := (c.baseIndex + i) % 1024 + 1 } := h.congr rfl rfl rfl
      exact hbase.register (by omega)

theorem wellFormed_newPad (h : WellFormed c) {addr : ℕ} {pad : Option ℕ} (hs : c.newPad addr pad = some c') :
    WellFormed c' := by
  unfold newPad at hs
  split at hs
  · cases hs
  · rename_i e he
    split at hs
    · rename_i hpad
      obtain rfl := Option.some.inj hs
      refine WellFormed.congr (h.modify addr (f := fun e => { e with muxSinkPad := pad, probeEosHandling := true })
        (fun _ => ⟨rfl, rfl⟩) fun b hb hpos p hp => ?_) rfl rfl rfl
      rw [he] at hb
      obtain rfl := Option.some.inj hb
      exact (hpad.2.resolve_left (by omega)) p hp
    · cases hs

theorem wellFormed_step (h : WellFormed c) {a : Action} (ha : c.NotFreed a) (hs : c.step a = some c') :
    WellFormed c' := by
  have hlocked : ∀ {r : Option NvMultiUriSrcBinCreator}, c.locked r = some c' → r = some c' := by
    intro r hr
    unfold locked at hr
    split at hr
    · cases hr
    · exact hr
  cases a with
  | addSource created =>
    obtain rfl := Option.some.inj (hlocked hs)
    split
    · exact h.congr rfl rfl rfl
    · exact h
  | testPad => exact wellFormed_testPad h hs
  | removeSource sourceId force stopped removed =>
    obtain ⟨⟨d, done⟩, hd, rfl⟩ := Option.map_eq_some_iff.mp (hlocked hs)
    exact h.stopSource hd
  | updateSource sourceId force stopped removed created =>
    obtain ⟨⟨d, done⟩, hd, rfl⟩ := Option.map_eq_some_iff.mp (hlocked hs)
    dsimp only
    split
    · exact (h.stopSource hd).register sourceId.toInt_lt
    · exact h.stopSource hd
  | newPad addr pad => exact wellFormed_newPad h hs
  | probeEos addr =>
    simp only [step, probeEos] at hs
    split at hs
    · cases hs
    · split at hs
      · obtain rfl := Option.some.inj hs
        refine WellFormed.congr (h.modify addr (f := fun e => { e with probeEosHandling := false })
          (fun _ => ⟨rfl, rfl⟩) fun b hb => h.pads b (mem_of_sourceInfo hb).1) rfl rfl rfl
      · cases hs
  | uribinRemoval removed stopped =>
    simp only [step, uribinRemoval] at hs
    split at hs
    · split at hs
      · cases hs
      · rename_i e _
        have hr := h.releaseMuxSinkPad e
        split at hs <;> obtain rfl := Option.some.inj hs <;> exact hr.congr rfl rfl rfl
    · cases hs
  | uribinRemovalDone =>
    have hs := hlocked hs
    unfold uribinRemovalDone at hs
    split at hs
    · cases hs
    · split at hs
      · cases hs
      · rename_i he
        have h₁ : WellFormed { c with removing := none } := h.congr rfl rfl rfl
        dsimp only at hs
        split at hs <;> obtain rfl := Option.some.inj hs
        · exact h₁.drop he
        · exact h₁
  | removeElem addr =>
    have hs := hlocked hs
    unfold removeElem at hs
    split at hs
    · cases hs
    · rename_i he
      split at hs
      · obtain rfl := Option.some.inj hs
        exact h.drop he
      · cases hs
  | useAfterFree addr after => exact ha.elim

/-- In every run that uses no freed source the registry is well formed, also
where an id is registered twice. -/
theorem registry_wellFormed_run (h : Reach step NotFreed (· = init) c) : WellFormed c := by
  refine h.invariant (fun c hc => ?_) fun _ _ _ hw ha hs => wellFormed_step hw ha hs
  subst hc
  exact ⟨⟨List.nodup_nil, fun _ hp => absurd hp List.not_mem_nil⟩, fun _ hp => absurd hp List.not_mem_nil,
    fun _ _ hhash => by simp [init] at hhash, fun _ he => absurd he List.not_mem_nil⟩

end NvMultiUriSrcBinCreator

namespace SourceElements

open NvMultiUriSrcBinCreator

variable {t : SourceElements}

/-! ### The registry's own steps -/

/-! ### What a request comes to -/

/-- The element of the source `e` is taken down as far as GStreamer lets it, and
the registry becomes `c`. -/
def left (t : SourceElements) (e : NvDsUriSourceInfo) (force : Bool) (a : GstAnswers) (c : NvMultiUriSrcBinCreator) :
    SourceElements where
  bin := { t.bin with creator := c }
  uribin := Function.update t.uribin e.addr ((t.uribin e.addr).stop e force a)

/-- The source `e` is gone. -/
def dropped (t : SourceElements) (clears force : Bool) (e : NvDsUriSourceInfo) (a : GstAnswers) : SourceElements where
  bin := { t.bin.closeSock e.addr with creator := (t.bin.creator.takenDown clears force e).removeSourceInfo e }
  uribin := Function.update t.uribin e.addr ((t.uribin e.addr).stop e force a)

theorem stopSource_none (hw : WellFormed t.bin.creator) {sourceId : ℕ} (h : t.bin.creator.lookup sourceId = none)
    (clears force : Bool) (a : GstAnswers) : t.stopSource clears sourceId force a = some (false, t) := by
  have hhash := lookup_eq_none hw h
  simp only [stopSource, NvMultiUriBin.stopSource, NvMultiUriSrcBinCreator.stopSource_none hhash, Option.map_some,
    hhash, h]

theorem stopSource_some {sourceId : ℕ} {e : NvDsUriSourceInfo} (h : t.bin.creator.lookup sourceId = some e)
    (clears force : Bool) (a : GstAnswers) : t.stopSource clears sourceId force a =
      if force ∧ ¬ a.stopped then some (false, t.left e force a (t.bin.creator.modify e.addr (strip false)))
      else if force ∧ ¬ a.removed then some (false, t.left e force a (t.bin.creator.takenDown clears force e))
      else some (true, t.dropped clears force e a) := by
  have hhash := (lookup_eq_some h).1
  simp only [stopSource, NvMultiUriBin.stopSource, NvMultiUriSrcBinCreator.stopSource_some h, hhash, h]
  split
  · rfl
  · split
    · rfl
    · rfl

/-! ### Nothing changed -/

theorem strip_eq_self {clears : Bool} {e : NvDsUriSourceInfo} : strip clears e = e ↔
    (e.newPadAddedHandler = false ∧ e.elemRemovedHandler = false ∧ e.probeEosHandling = false) ∧
      (clears = true → e.muxSinkPad = none) := by
  obtain ⟨addr, sourceId, muxSinkPad, probeEosHandling, newPadAddedHandler, elemRemovedHandler⟩ := e
  cases clears <;> simp [strip] <;> tauto

theorem left_eq_self {e : NvDsUriSourceInfo} {force : Bool} {a : GstAnswers} {c : NvMultiUriSrcBinCreator} :
    t.left e force a c = t ↔ c = t.bin.creator ∧ (t.uribin e.addr).stop e force a = t.uribin e.addr := by
  constructor
  · intro h
    refine ⟨congrArg (·.bin.creator) h, ?_⟩
    have hu : Function.update t.uribin e.addr ((t.uribin e.addr).stop e force a) = t.uribin := congrArg (·.uribin) h
    exact Function.update_eq_self_iff.mp hu
  · rintro ⟨rfl, hu⟩
    rw [left, hu, Function.update_eq_self]

theorem disconnect_of_none {u : NvUriSrcBin} {e : NvDsUriSourceInfo} (hn : e.newPadAddedHandler = false)
    (hr : e.elemRemovedHandler = false) (hp : e.probeEosHandling = false) : u.disconnect e = u := by
  simp [NvUriSrcBin.disconnect, hn, hr, hp]

/-- GStreamer does not stop the element. -/
theorem refused_stop_iff (hw : WellFormed t.bin.creator) {e : NvDsUriSourceInfo}
    (he : t.bin.creator.sourceInfo e.addr = some e) {a : GstAnswers} (ha : a.stopped = false) :
    t.left e true a (t.bin.creator.modify e.addr (strip false)) = t ↔ t.Bare e a := by
  rw [left_eq_self, modify_eq_self hw.toListed he (strip_addr false), strip_eq_self]
  have hstop : (t.uribin e.addr).stop e true a = { (t.uribin e.addr).disconnect e with state := a.state } := by
    simp [NvUriSrcBin.stop, ha]
  rw [hstop]
  constructor
  · rintro ⟨⟨⟨hn, hr, hp⟩, -⟩, hu⟩
    exact ⟨hn, hr, hp, congrArg (·.state) hu⟩
  · rintro ⟨hn, hr, hp, hstate⟩
    refine ⟨⟨⟨hn, hr, hp⟩, by simp⟩, ?_⟩
    rw [disconnect_of_none hn hr hp, hstate]

theorem release_eq_self {c : NvMultiUriSrcBinCreator} {e : NvDsUriSourceInfo} :
    (c.releaseMuxSinkPad e).streammuxPads = c.streammuxPads ↔ ∀ p ∈ e.muxSinkPad, p ∉ c.streammuxPads := by
  unfold releaseMuxSinkPad
  cases e.muxSinkPad with
  | none => simp
  | some pad => simp [List.filter_eq_self, List.forall_mem_ne']

/-- GStreamer stops the element and does not let it out of the bin. -/
theorem refused_remove_iff (hw : WellFormed t.bin.creator) {e : NvDsUriSourceInfo}
    (he : t.bin.creator.sourceInfo e.addr = some e) {a : GstAnswers} (hs : a.stopped = true) (ha : a.removed = false)
    (clears : Bool) :
    t.left e true a (t.bin.creator.takenDown clears true e) = t ↔ t.Bare e a ∧ t.NoPad clears e := by
  have hasked : a.binRemove = false := by
    unfold GstAnswers.removed at ha
    exact (Bool.or_eq_false_iff.mp ha).2
  have hdown : t.bin.creator.takenDown clears true e = t.bin.creator ↔
      t.bin.creator.modify e.addr (strip clears) = t.bin.creator ∧
        (t.bin.creator.releaseMuxSinkPad e).streammuxPads = t.bin.creator.streammuxPads := by
    unfold takenDown
    rw [Bool.true_and, if_pos rfl]
    constructor
    · intro h
      have hpads := congrArg (·.streammuxPads) h
      dsimp only at hpads
      rw [hpads] at h
      exact ⟨h, hpads⟩
    · rintro ⟨hm, hpads⟩
      rw [hpads, hm]
  have hstop : (t.uribin e.addr).stop e true a =
      if (t.uribin e.addr).link = e.muxSinkPad then
        { (t.uribin e.addr).disconnect e with state := a.state, link := none }
      else { (t.uribin e.addr).disconnect e with state := a.state } := by
    simp only [NvUriSrcBin.stop, hs, hasked, not_true_eq_false, ↓reduceIte, Bool.false_eq_true, and_false]
    rfl
  rw [left_eq_self, hdown, modify_eq_self hw.toListed he (strip_addr clears), strip_eq_self, release_eq_self, hstop]
  constructor
  · rintro ⟨⟨⟨⟨hn, hr, hp⟩, hclears⟩, hpads⟩, hu⟩
    rw [disconnect_of_none hn hr hp] at hu
    refine ⟨⟨hn, hr, hp, ?_⟩, fun p hmem => ⟨?_, hpads p hmem, fun hlink => ?_⟩⟩
    · split at hu <;> exact congrArg (·.state) hu
    · cases clears with
      | false => rfl
      | true => rw [hclears rfl] at hmem; cases hmem
    · rw [if_pos (hlink.trans (Option.mem_def.mp hmem).symm)] at hu
      have hnone : none = (t.uribin e.addr).link := congrArg (·.link) hu
      rw [hlink] at hnone
      cases hnone
  · rintro ⟨⟨hn, hr, hp, hstate⟩, hpad⟩
    refine ⟨⟨⟨⟨hn, hr, hp⟩, fun hclears => ?_⟩, fun p hmem => (hpad p hmem).2.1⟩, ?_⟩
    · refine Option.eq_none_iff_forall_not_mem.mpr fun p hmem => ?_
      have := (hpad p hmem).1
      rw [hclears] at this
      cases this
    · rw [disconnect_of_none hn hr hp, hstate]
      split
      · rename_i hlink
        cases hmux : e.muxSinkPad with
        | none => rw [← hmux, ← hlink]
        | some p => exact absurd (hlink.trans hmux) (hpad p hmux).2.2
      · rfl

/-! ### A source is replaced -/

theorem closeSock_same (b : NvMultiUriBin) (addr : ℕ) :
    (b.closeSock addr).sourceConfig = b.sourceConfig ∧ (b.closeSock addr).config = b.config := by
  obtain ⟨openFds, closedFds, h⟩ := b.closeSock_frame addr
  rw [h]
  exact ⟨rfl, rfl⟩

theorem sourceInfo_dropped (hw : WellFormed t.bin.creator) (clears force : Bool) (e : NvDsUriSourceInfo)
    (a : GstAnswers) (addr : ℕ) : (t.dropped clears force e a).bin.creator.sourceInfo addr =
      if addr = e.addr then none else t.bin.creator.sourceInfo addr := by
  have hmod : (t.bin.creator.takenDown clears force e).sourceInfo addr =
      (t.bin.creator.modify e.addr (strip (force && clears))).sourceInfo addr := rfl
  have hdrop := sourceInfo_removeSourceInfo (hw.takenDown clears force e).toListed e addr
  rw [hmod, sourceInfo_modify e.addr (strip_addr _)] at hdrop
  refine hdrop.trans ?_
  split <;> rfl

/-- The source that was dropped is missing. -/
theorem dropped_ne (hw : WellFormed t.bin.creator) {e : NvDsUriSourceInfo}
    (he : t.bin.creator.sourceInfo e.addr = some e) (clears force : Bool) (a : GstAnswers) :
    t.dropped clears force e a ≠ t := by
  intro h
  have hnone := sourceInfo_dropped hw clears force e a e.addr
  rw [h, he, if_pos rfl] at hnone
  cases hnone

/-- The id that is looked up is the one of the source, and no negative one. -/
theorem sourceId_of_lookup (hw : WellFormed t.bin.creator) {sourceId : Int32} {e : NvDsUriSourceInfo}
    (h : t.bin.creator.lookup (NvMultiUriBin.guint sourceId.toInt) = some e) :
    ((NvMultiUriBin.guint sourceId.toInt : ℕ) : ℤ) = sourceId.toInt ∧ e.sourceId = sourceId.toInt := by
  obtain ⟨hhash, he⟩ := lookup_eq_some h
  have hmem := hw.hash _ _ hhash
  have hid := congrArg Prod.fst (List.inj_on_of_nodup_map hw.nodup (sourceInfo_eq_some he).2 hmem rfl)
  have hlt := hw.gint _ hmem
  have hlo := sourceId.le_toInt
  have hhi := sourceId.toInt_lt
  have hguint : ((NvMultiUriBin.guint sourceId.toInt : ℕ) : ℤ) = sourceId.toInt := by
    unfold NvMultiUriBin.guint at hlt ⊢
    dsimp only at hlt
    omega
  exact ⟨hguint, hid.trans hguint⟩

/-- A new source in place of the one that is dropped. -/
theorem updated_register (hw : WellFormed t.bin.creator) {sourceId : Int32} {e : NvDsUriSourceInfo}
    (h : t.bin.creator.lookup (NvMultiUriBin.guint sourceId.toInt) = some e) (force : Bool) (a : GstAnswers) :
    t.Updated sourceId ((t.dropped true force e a).register sourceId.toInt) := by
  obtain ⟨hguint, hid⟩ := sourceId_of_lookup hw h
  obtain ⟨hhash, he⟩ := lookup_eq_some h
  let d := t.dropped true force e a
  have hnext : d.bin.creator.nextAddr = t.bin.creator.nextAddr := rfl
  have hfresh : e.addr < t.bin.creator.nextAddr := hw.fresh _ (sourceInfo_eq_some he).2
  have hcfg := closeSock_same t.bin e.addr
  let new : NvDsUriSourceInfo := ⟨t.bin.creator.nextAddr, sourceId.toInt, none, false, true, true⟩
  have hsource (addr : ℕ) : (d.register sourceId.toInt).bin.creator.sourceInfo addr =
      if addr = t.bin.creator.nextAddr then some new
      else if addr = e.addr then none else t.bin.creator.sourceInfo addr := by
    have hreg := sourceInfo_register (c := d.bin.creator) sourceId.toInt addr
    rwa [sourceInfo_dropped hw, hnext] at hreg
  have hhash' (id : ℤ) : (d.register sourceId.toInt).bin.creator.sourceInfoHash[id]? =
      if id = sourceId.toInt then some t.bin.creator.nextAddr else t.bin.creator.sourceInfoHash[id]? := by
    show ((t.bin.creator.sourceInfoHash.erase e.sourceId).insert sourceId.toInt d.bin.creator.nextAddr)[id]? = _
    rw [Table.getElem?_insert, Table.getElem?_erase, hid, hnext]
    split
    · rfl
    · rfl
  have hnew : (d.register sourceId.toInt).bin.creator.sourceInfo t.bin.creator.nextAddr = some new := by
    rw [hsource, if_pos rfl]
  refine ⟨e, new, h, ?_, ?_, fun p hp pad => ?_, ⟨rfl, ?_⟩, ⟨rfl, ?_⟩, fun addr hold hadd => ⟨?_, ?_, ?_⟩,
    fun id hne => ?_⟩
  · rw [lookup, hguint, hhash', if_pos rfl]
    exact hnew
  · show Function.update d.bin.sourceConfig d.bin.creator.nextAddr d.bin.config t.bin.creator.nextAddr = t.bin.config
    rw [hnext, Function.update_self]
    exact hcfg.2
  · have hpos : 0 ≤ e.sourceId := by
      rw [hid, ← hguint]
      exact Int.natCast_nonneg _
    have hpad := hw.pads e (mem_of_sourceInfo he).1 hpos p hp
    have hlinked : ((d.register sourceId.toInt).bin.creator.newPad t.bin.creator.nextAddr (some pad)).isSome ↔
        (pad : ℤ) = sourceId.toInt := by
      have hneg : ¬ sourceId.toInt < 0 := by omega
      simp only [newPad, hnew, new, true_and, hneg, false_or, Option.mem_def, Option.some.injEq, forall_eq']
      split
      · simpa using ‹(pad : ℤ) = sourceId.toInt›
      · simpa using ‹¬ (pad : ℤ) = sourceId.toInt›
    rw [hlinked, ← hid, ← hpad]
    exact Int.natCast_inj
  · show (Function.update d.uribin d.bin.creator.nextAddr .new t.bin.creator.nextAddr).newPadAdded = 1
    rw [hnext, Function.update_self]
    rfl
  · show (Function.update d.uribin d.bin.creator.nextAddr .new t.bin.creator.nextAddr).elemRemoved = 1
    rw [hnext, Function.update_self]
    rfl
  · rw [hsource, if_neg hadd, if_neg hold]
  · show Function.update d.bin.sourceConfig d.bin.creator.nextAddr d.bin.config addr = _
    rw [hnext, Function.update_of_ne hadd]
    exact congrFun hcfg.1 addr
  · show Function.update d.uribin d.bin.creator.nextAddr .new addr = _
    rw [hnext, Function.update_of_ne hadd]
    exact Function.update_of_ne hold _ _
  · rw [hhash', if_neg hne]

/-! ### All or nothing, exactly when -/

theorem atomic_of_eq {r : SourceRequest} {a : GstAnswers} {ret : Bool} {t' : SourceElements}
    (h : t.request r a = some (ret, t')) : t.Atomic r a ↔ (ret = false → t' = t) ∧
      (ret = true → ∀ sourceId force, r = .updateSource sourceId force → t.Updated sourceId t') := by
  constructor
  · rintro ⟨ret', t'', h', hkept, hdone⟩
    obtain ⟨rfl, rfl⟩ := Prod.mk.inj (Option.some.inj (h.symm.trans h'))
    exact ⟨hkept, hdone⟩
  · exact fun hboth => ⟨ret, t', h, hboth⟩

/-- The first half of a request: it goes on, or is refused and has changed
nothing exactly where nothing was there. -/
theorem stopSource_cases (hw : WellFormed t.bin.creator) (clears : Bool) (sourceId : ℕ) (force : Bool)
    (a : GstAnswers) :
    (∃ t', t.stopSource clears sourceId force a = some (false, t') ∧
      (t' = t ↔ t.StopOk clears sourceId force a) ∧
      ((t.bin.creator.lookup sourceId).isSome → ¬ (force = true → a.stopped = true ∧ a.removed = true))) ∨
    ∃ e, t.bin.creator.lookup sourceId = some e ∧ (force = true → a.stopped = true ∧ a.removed = true) ∧
      t.StopOk clears sourceId force a ∧
      t.stopSource clears sourceId force a = some (true, t.dropped clears force e a) := by
  cases h : t.bin.creator.lookup sourceId with
  | none =>
    refine .inl ⟨t, stopSource_none hw h clears force a, iff_of_true rfl ?_, by simp⟩
    simp [StopOk, h]
  | some e =>
    have he := (lookup_eq_some h).2
    have hok : t.StopOk clears sourceId force a ↔ (force = true →
        if a.stopped = false then t.Bare e a else a.removed = false → t.Bare e a ∧ t.NoPad clears e) := by
      simp [StopOk, h]
    have hres := stopSource_some h clears force a
    by_cases hstop : force = true ∧ ¬ a.stopped = true
    · rw [if_pos hstop] at hres
      have hs : a.stopped = false := by simpa using hstop.2
      obtain rfl := hstop.1
      refine .inl ⟨_, hres, ?_, fun _ hall => hstop.2 (hall rfl).1⟩
      rw [hok, refused_stop_iff hw he hs, if_pos hs]
      simp
    · rw [if_neg hstop] at hres
      by_cases hremove : force = true ∧ ¬ a.removed = true
      · rw [if_pos hremove] at hres
        have hr : a.removed = false := by simpa using hremove.2
        obtain rfl := hremove.1
        have hs : a.stopped = true := by simpa using hstop
        refine .inl ⟨_, hres, ?_, fun _ hall => hremove.2 (hall rfl).2⟩
        rw [hok, refused_remove_iff hw he hs hr, hs, hr]
        simp
      · rw [if_neg hremove] at hres
        have hall : force = true → a.stopped = true ∧ a.removed = true := fun hf =>
          ⟨by simpa [hf] using hstop, by simpa [hf] using hremove⟩
        refine .inr ⟨e, rfl, hall, hok.mpr fun hf => ?_, hres⟩
        obtain ⟨hs, hr⟩ := hall hf
        rw [hs, hr]
        simp

/-- **A request is all or nothing exactly if it is granted or there was nothing
to take down before the step that is refused**, for every registry, every id and
config and all answers of GStreamer. -/
theorem request_atomic_iff (hw : WellFormed t.bin.creator) (r : SourceRequest) (a : GstAnswers) :
    t.Atomic r a ↔ t.AtomicOk r a := by
  cases r with
  | removeSource sourceId =>
    rcases stopSource_cases hw false sourceId.toNat true a with ⟨t', hres, hiff, -⟩ | ⟨e, -, -, hok, hres⟩
    · have hreq : t.request (.removeSource sourceId) a = some (false, t') := hres
      rw [atomic_of_eq hreq]
      simpa [AtomicOk] using hiff
    · have hreq : t.request (.removeSource sourceId) a = some (true, t.dropped false true e a) := hres
      rw [atomic_of_eq hreq]
      simpa [AtomicOk] using hok
  | updateSource sourceId force =>
    rcases stopSource_cases hw true (NvMultiUriBin.guint sourceId.toInt) force a with
      ⟨t', hres, hiff, hnot⟩ | ⟨e, hl, hall, hok, hres⟩
    · have hreq : t.request (.updateSource sourceId force) a = some (false, t') := by
        simp [request, updateSource, hres]
      rw [atomic_of_eq hreq]
      have hcreated : (t.bin.creator.lookup (NvMultiUriBin.guint sourceId.toInt)).isSome →
          (force = true → a.stopped = true ∧ a.removed = true) → a.created = true :=
        fun hsome hall => absurd hall (hnot hsome)
      have hok : t.AtomicOk (.updateSource sourceId force) a ↔
          t.StopOk true (NvMultiUriBin.guint sourceId.toInt) force a := and_iff_left hcreated
      rw [hok, ← hiff]
      simp
    · have hiff : t.AtomicOk (.updateSource sourceId force) a ↔ a.created = true :=
        ⟨fun h => h.2 (by rw [hl]; rfl) hall, fun h => ⟨hok, fun _ _ => h⟩⟩
      rw [hiff]
      cases hc : a.created with
      | false =>
        have hreq : t.request (.updateSource sourceId force) a = some (false, t.dropped true force e a) := by
          simp [request, updateSource, hres, hc]
        rw [atomic_of_eq hreq]
        simpa using dropped_ne hw (lookup_eq_some hl).2 true force a
      | true =>
        have hreq : t.request (.updateSource sourceId force) a =
            some (true, (t.dropped true force e a).register sourceId.toInt) := by
          simp [request, updateSource, hres, hc]
        rw [atomic_of_eq hreq]
        refine iff_of_true ⟨by simp, fun _ id force' heq => ?_⟩ rfl
        obtain ⟨rfl, rfl⟩ := SourceRequest.updateSource.inj heq
        exact updated_register hw hl force a

/-! ### One source -/

/-- A source is added and gets its pad. -/
def oneAdded : List Action := [.addSource true, .testPad, .newPad 0 (some 0)]

def oneRegistry : NvMultiUriSrcBinCreator := (exec step RegistryStepOk .init oneAdded).get (by decide +kernel)

theorem reach_oneRegistry : Reach step NotFreed (· = init) oneRegistry := by
  have hrun : Reach step RegistryStepOk (· = init) oneRegistry :=
    .of_exec oneAdded (.init rfl) (Option.some_get _).symm
  refine hrun.mono (fun c a hok => ?_) fun _ => id
  cases a with
  | useAfterFree addr after => exact hok
  | _ => trivial

/-- The element plays, and the template has another uri. -/
def oneSource : SourceElements where
  bin := { NvMultiUriBin.new 4 with
    creator := oneRegistry
    config := ⟨some "rtsp://b", some "cam", some "cam", -1⟩ }
  uribin _ := ⟨.playing, true, 1, 1, 1, some 0⟩

/-- With everything granted the source is replaced. -/
theorem atomic_oneSource : oneSource.Atomic (.updateSource 0 true) ⟨.success, .null, true, true⟩ :=
  (request_atomic_iff (t := oneSource) (registry_wellFormed_run reach_oneRegistry) _ _).mpr
    ⟨fun _ _ _ => by simp [GstAnswers.stopped, GstAnswers.removed], fun _ _ => rfl⟩

/-- What a request says, the sources afterwards, and how many handlers for new
pads the first one's element has. -/
def outcome (r : SourceRequest) (a : GstAnswers) : Option (Bool × List NvDsUriSourceInfo × ℕ) :=
  (oneSource.request r a).map fun (ret, t) => (ret, t.bin.creator.sourceInfoList, (t.uribin 0).newPadAdded)

/-- No new element is created, and the source is lost; the element is not
stopped, and has lost its handlers. -/
theorem refused_not_undone : Reach step NotFreed (· = init) oneSource.bin.creator ∧
    outcome (.updateSource 0 true) ⟨.success, .null, true, false⟩ = some (false, [], 0) ∧
    ¬ oneSource.Atomic (.updateSource 0 true) ⟨.success, .null, true, false⟩ ∧
    outcome (.removeSource 0) ⟨.failure, .playing, true, true⟩ =
      some (false, [⟨0, 0, some 0, false, false, false⟩], 0) ∧
    ¬ oneSource.Atomic (.removeSource 0) ⟨.failure, .playing, true, true⟩ := by
  have hno {r : SourceRequest} {a : GstAnswers} {l : List NvDsUriSourceInfo} (h : outcome r a = some (false, l, 0)) :
      ¬ oneSource.Atomic r a := by
    rintro ⟨ret, t', hreq, hkept, -⟩
    rw [outcome, hreq, Option.map_some, Option.some.injEq, Prod.mk.injEq, Prod.mk.injEq] at h
    rw [hkept h.1] at h
    exact absurd h.2.2 (by decide)
  have hupdate : outcome (.updateSource 0 true) ⟨.success, .null, true, false⟩ = some (false, [], 0) := by
    decide +kernel
  have hremove : outcome (.removeSource 0) ⟨.failure, .playing, true, true⟩ =
      some (false, [⟨0, 0, some 0, false, false, false⟩], 0) := by
    decide +kernel
  exact ⟨reach_oneRegistry, hupdate, hno hupdate, hremove, hno hremove⟩

end SourceElements
end MultiUri
end DeepStream
