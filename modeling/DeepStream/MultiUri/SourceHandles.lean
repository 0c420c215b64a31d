/-
# Who has the address of a source

The pad probe for EOS, the handlers of the signals and the removal thread are
handed a source by its address and keep it while they run: a callback reads the
source, does its work and only then waits for the lock, and the queue and the
removal thread work without the registry's lock. A source is freed by
`remove_source` and `update_source`, by the callback for a removed element and
by the removal thread. Here each of them takes as many steps as there are
points where another thread can come in between.
-/
import DeepStream.MultiUri.SourceRegistry

namespace DeepStream
namespace MultiUri

open Std

/-- A callback that has begun, with the source it is handed. -/
inductive Callback where
  | newPad (addr : ℕ)
  | probeEos (addr : ℕ)
  | removeElem (addr : ℕ)
  deriving DecidableEq, Repr

def Callback.addr : Callback → ℕ
  | .newPad addr | .probeEos addr | .removeElem addr => addr

/-- `probes` are the EOS probes on the pads, by their numbers, with the sources
they are handed; `probeId` is the number that a source has of its last one.
`popped` is the source that the removal thread has taken from the queue and
not yet taken down. -/
structure SourceHandles where
  creator : NvMultiUriSrcBinCreator
  probes : List (ℕ × ℕ)
  probeId : ℕ → Option ℕ
  nextProbe : ℕ
  callbacks : List Callback
  popped : Option ℕ
  destroyed : List ℕ

namespace SourceHandles

/-- The callbacks come in two steps: `pad-added`, `element-removed` and the
probe begin, and end with the section of the same name as in the registry. -/
inductive Action where
  | addSource (created : Bool)
  | testPad
  | removeSource (sourceId : ℕ) (force stopped removed : Bool)
  | updateSource (sourceId : Int32) (force stopped removed created : Bool)
  | padAdded (addr : ℕ)
  | newPad (addr : ℕ) (pad : Option ℕ)
  | eosEvent (id addr : ℕ)
  | probeEos (addr : ℕ)
  | elementRemoved (addr : ℕ)
  | removeElem (addr : ℕ)
  | uribinPop
  | uribinRemoval (removed stopped : Bool)
  | uribinRemovalDone
  | useAfterFree (addr : ℕ) (after : SourceHandles)

def start : SourceHandles where
  creator := .init
  probes := []
  probeId := fun _ => none
  nextProbe := 0
  callbacks := []
  popped := none
  destroyed := []

variable (t : SourceHandles)

/-- The addresses that some thread is at work with. -/
def held : List ℕ := t.popped.toList ++ t.creator.removing.toList ++ t.callbacks.map Callback.addr

/-- With those that wait in the queue. -/
def pointers : List ℕ := t.creator.removeUribinQueue ++ t.held

/-- The probe that the source has the number of is taken off its pad, if it is
still there. -/
def removeProbe (addr : ℕ) : SourceHandles :=
  { t with probes := t.probes.filter fun p => t.probeId addr ≠ some p.1 }

/-- The source that `remove_source_impl` finds is freed where GStreamer lets it. -/
def stopSource (clears : Bool) (sourceId : ℕ) (force stopped removed : Bool) : Option (SourceHandles × Bool) :=
  (t.creator.stopSource clears sourceId force stopped removed).map fun (c, done) =>
    match t.creator.sourceInfoHash[(sourceId : ℤ)]? with
    | none => (t, done)
    | some addr =>
      let t := t.removeProbe addr
      ({ t with creator := c, destroyed := if done then t.destroyed ++ [addr] else t.destroyed }, done)

def updateSource (sourceId : Int32) (force stopped removed created : Bool) : Option SourceHandles :=
  (t.stopSource true (sourceId.toInt % 2 ^ 32).toNat force stopped removed).map fun (t, done) =>
    if done ∧ created then { t with creator := t.creator.register sourceId.toInt } else t

/-- A handler of a signal is called for a source that has it connected. -/
def signalled (c : Callback) (connected : NvDsUriSourceInfo → Bool) : Option SourceHandles :=
  match t.creator.sourceInfo c.addr with
  | none => none
  | some e => if connected e then some { t with callbacks := c :: t.callbacks } else none

/-- `cb_newpad` links the pad that the muxer returns and adds a probe. -/
def newPad (addr : ℕ) (pad : Option ℕ) : Option SourceHandles :=
  match t.creator.sourceInfo addr with
  | none => none
  | some e =>
    if .newPad addr ∈ t.callbacks ∧ (e.sourceId < 0 ∨ ∀ i ∈ pad, (i : ℤ) = e.sourceId) then
      let c := t.creator.modify addr fun e => { e with muxSinkPad := pad, probeEosHandling := true }
      some { t with
        creator := { c with streammuxPads := pad.toList ++ c.streammuxPads }
        probes := (t.nextProbe, addr) :: t.probes
        probeId := Function.update t.probeId addr (some t.nextProbe)
        nextProbe := t.nextProbe + 1
        callbacks := t.callbacks.erase (.newPad addr) }
    else none

/-- The probe is called, whether its source is still there or not, and is not
called again. -/
def eosEvent (id addr : ℕ) : Option SourceHandles :=
  if (id, addr) ∈ t.probes then
    some { t with probes := t.probes.erase (id, addr), callbacks := .probeEos addr :: t.callbacks }
  else none

def probeEos (addr : ℕ) : Option SourceHandles :=
  match t.creator.sourceInfo addr with
  | none => none
  | some _ =>
    if .probeEos addr ∈ t.callbacks then
      some { t with
        creator := { t.creator with removeUribinQueue := t.creator.removeUribinQueue ++ [addr] }
        callbacks := t.callbacks.erase (.probeEos addr) }
    else none

def removeElem (addr : ℕ) : Option SourceHandles :=
  match t.creator.sourceInfo addr with
  | none => none
  | some e =>
    if .removeElem addr ∈ t.callbacks then
      some { t with
        creator := (t.creator.removeSourceInfoHandlers addr).removeSourceInfo e
        callbacks := t.callbacks.erase (.removeElem addr)
        destroyed := t.destroyed ++ [addr] }
    else none

def uribinPop : Option SourceHandles :=
  match t.creator.uribinRemovalThread, t.popped, t.creator.removing, t.creator.removeUribinQueue with
  | true, none, none, addr :: queue =>
    some { t with creator := { t.creator with removeUribinQueue := queue }, popped := some addr }
  | _, _, _, _ => none

/-- The removal thread takes the source down, or ends when GStreamer refuses. -/
def uribinRemoval (removed stopped : Bool) : Option SourceHandles :=
  match t.popped with
  | none => none
  | some addr =>
    match t.creator.sourceInfo addr with
    | none => none
    | some e =>
      let c := t.creator.releaseMuxSinkPad e
      if removed ∧ stopped then some { t with creator := { c with removing := some addr }, popped := none }
      else some { t with creator := { c with uribinRemovalThread := false }, popped := none }

def uribinRemovalDone : Option SourceHandles :=
  match t.creator.removing with
  | none => none
  | some addr =>
    match t.creator.sourceInfo addr with
    | none => none
    | some e =>
      let c := { t.creator with removing := none }
      if e.elemRemovedHandler then
        some { t with
          creator := (c.removeSourceInfoHandlers addr).removeSourceInfo e
          destroyed := t.destroyed ++ [addr] }
      else some { t with creator := c }

/-- The sections that take the lock wait for it. -/
def locked (r : Option SourceHandles) : Option SourceHandles := if t.creator.searching.isSome then none else r

def step : Action → Option SourceHandles
  | .addSource created => t.locked (some (if created then { t with creator.searching := some 0 } else t))
  | .testPad => t.creator.testPad.map fun c => { t with creator := c }
  | .removeSource sourceId force stopped removed =>
    t.locked ((t.stopSource false sourceId force stopped removed).map Prod.fst)
  | .updateSource sourceId force stopped removed created =>
    t.locked (t.updateSource sourceId force stopped removed created)
  | .padAdded addr => t.signalled (.newPad addr) (·.newPadAddedHandler)
  | .newPad addr pad => t.newPad addr pad
  | .eosEvent id addr => t.eosEvent id addr
  | .probeEos addr => t.probeEos addr
  | .elementRemoved addr => t.signalled (.removeElem addr) (·.elemRemovedHandler)
  | .removeElem addr => t.locked (t.removeElem addr)
  | .uribinPop => t.uribinPop
  | .uribinRemoval removed stopped => t.uribinRemoval removed stopped
  | .uribinRemovalDone => t.locked t.uribinRemovalDone
  | .useAfterFree addr after => if addr ∈ t.held ∧ t.creator.sourceInfo addr = none then some after else none

/-! ### The invariant -/

/-- The addresses of the sources in the list. -/
def registered : List ℕ := t.creator.entries.map Prod.snd

/-- Whoever has an address has that of a source in the list, and each source
ever created is in the list or was freed, once. -/
structure Safe : Prop where
  live : ∀ addr ∈ t.pointers, addr ∈ t.registered
  once : (t.registered ++ t.destroyed).Perm (List.range t.creator.nextAddr)

/-- No one has the address but the section itself, which has it `own` times. -/
def Alone (own addr : ℕ) : Prop := t.pointers.count addr ≤ own

/-- What a section must not do: free a source that someone else has, or call a
probe for a source that has been freed. -/
def FreeOk : Action → Prop
  | .removeSource sourceId force stopped removed => (force = true → stopped = true ∧ removed = true) →
      ∀ addr ∈ t.creator.sourceInfoHash[(sourceId : ℤ)]?, t.Alone 0 addr
  | .updateSource sourceId force stopped removed _ => (force = true → stopped = true ∧ removed = true) →
      ∀ addr ∈ t.creator.sourceInfoHash[((sourceId.toInt % 2 ^ 32).toNat : ℤ)]?, t.Alone 0 addr
  | .removeElem addr => t.Alone 1 addr
  | .uribinRemovalDone => ∀ addr ∈ t.creator.removing,
      ∀ e ∈ t.creator.sourceInfo addr, e.elemRemovedHandler = true → t.Alone 1 addr
  | .eosEvent _ addr => addr ∈ t.registered
  | .useAfterFree _ _ => False
  | _ => True

instance (own addr : ℕ) : Decidable (t.Alone own addr) := inferInstanceAs (Decidable (_ ≤ _))

instance (a : Action) : Decidable (t.FreeOk a) :=
  match a with
  | .removeSource sourceId force stopped removed =>
    inferInstanceAs (Decidable ((force = true → stopped = true ∧ removed = true) →
      ∀ addr ∈ t.creator.sourceInfoHash[(sourceId : ℤ)]?, t.Alone 0 addr))
  | .updateSource sourceId force stopped removed _ =>
    inferInstanceAs (Decidable ((force = true → stopped = true ∧ removed = true) →
      ∀ addr ∈ t.creator.sourceInfoHash[((sourceId.toInt % 2 ^ 32).toNat : ℤ)]?, t.Alone 0 addr))
  | .removeElem addr => inferInstanceAs (Decidable (t.Alone 1 addr))
  | .uribinRemovalDone => inferInstanceAs (Decidable (∀ addr ∈ t.creator.removing,
      ∀ e ∈ t.creator.sourceInfo addr, e.elemRemovedHandler = true → t.Alone 1 addr))
  | .eosEvent _ addr => inferInstanceAs (Decidable (addr ∈ t.registered))
  | .useAfterFree .. => inferInstanceAs (Decidable False)
  | .addSource .. => inferInstanceAs (Decidable True)
  | .testPad => inferInstanceAs (Decidable True)
  | .padAdded .. => inferInstanceAs (Decidable True)
  | .newPad .. => inferInstanceAs (Decidable True)
  | .probeEos .. => inferInstanceAs (Decidable True)
  | .elementRemoved .. => inferInstanceAs (Decidable True)
  | .uribinPop => inferInstanceAs (Decidable True)
  | .uribinRemoval .. => inferInstanceAs (Decidable True)

variable {t} {t' : SourceHandles}

/-- What every section keeps, also one that frees a source too early. -/
structure Counted (t : SourceHandles) : Prop where
  once : (t.registered ++ t.destroyed).Perm (List.range t.creator.nextAddr)
  created : ∀ addr ∈ t.pointers, addr < t.creator.nextAddr
  probed : ∀ p ∈ t.probes, p.2 < t.creator.nextAddr
  hash : ∀ id addr, t.creator.sourceInfoHash[id]? = some addr → (id, addr) ∈ t.creator.entries

structure Inv (t : SourceHandles) : Prop extends Safe t, Counted t

theorem inv_start : Inv start where
  live := by simp [start, pointers, held, NvMultiUriSrcBinCreator.init]
  once := List.Perm.refl _
  created := by simp [start, pointers, held, NvMultiUriSrcBinCreator.init]
  probed := by simp [start]
  hash := by simp [start, NvMultiUriSrcBinCreator.init]

theorem pointers_cons (c : Callback) :
    ({ t with callbacks := c :: t.callbacks } : SourceHandles).pointers.Perm (c.addr :: t.pointers) := by
  show (t.creator.removeUribinQueue ++ (t.popped.toList ++ t.creator.removing.toList ++
    c.addr :: t.callbacks.map Callback.addr)).Perm _
  exact (List.perm_middle.append_left _).trans List.perm_middle

theorem pointers_erase {c : Callback} (hc : c ∈ t.callbacks) :
    (c.addr :: ({ t with callbacks := t.callbacks.erase c } : SourceHandles).pointers).Perm t.pointers := by
  have hcalls : (c.addr :: (t.callbacks.erase c).map Callback.addr).Perm (t.callbacks.map Callback.addr) :=
    ((List.perm_cons_erase hc).map Callback.addr).symm
  refine (pointers_cons (t := { t with callbacks := t.callbacks.erase c }) c).symm.trans ?_
  exact (hcalls.append_left _).append_left _

/-- The removal thread forgets the source it has taken down. -/
theorem pointers_removing {addr : ℕ} (hr : t.creator.removing = some addr) :
    (addr :: ({ t with creator := { t.creator with removing := none } } : SourceHandles).pointers).Perm
      t.pointers := by
  rw [List.perm_iff_count]
  intro a
  simp only [pointers, held, hr, List.count_cons, List.count_append, Option.toList_none, Option.toList_some,
    List.count_nil]
  omega

theorem mem_registered {addr : ℕ} : addr ∈ t.registered ↔ ∃ e, t.creator.sourceInfo addr = some e := by
  rw [registered, List.mem_map]
  constructor
  · rintro ⟨p, hp, rfl⟩
    obtain ⟨e, he, rfl⟩ := List.mem_map.mp hp
    have hfound : (t.creator.sourceInfo e.addr).isSome := by
      rw [NvMultiUriSrcBinCreator.sourceInfo, List.find?_isSome]
      exact ⟨e, he, by simp⟩
    exact Option.isSome_iff_exists.mp hfound
  · rintro ⟨e, he⟩
    exact ⟨_, (NvMultiUriSrcBinCreator.sourceInfo_eq_some he).2, rfl⟩

/-- The step keeps the counts, and the addresses live on the condition `ok`. -/
structure Keeps (ok : Prop) (t' : SourceHandles) : Prop extends Counted t' where
  live_iff : (∀ addr ∈ t'.pointers, addr ∈ t'.registered) ↔ ok

namespace Counted

theorem nodup (h : Counted t) : (t.registered ++ t.destroyed).Nodup := h.once.nodup_iff.mpr List.nodup_range

theorem lt (h : Counted t) {addr : ℕ} (ha : addr ∈ t.registered) : addr < t.creator.nextAddr :=
  List.mem_range.mp (h.once.subset (List.mem_append_left _ ha))

/-- A new source has an address of its own. -/
theorem register (h : Counted t) (sourceId : ℤ) :
    Keeps (∀ addr ∈ t.pointers, addr ∈ t.registered) { t with creator := t.creator.register sourceId } := by
  refine ⟨⟨?_, fun addr ha => Nat.lt_succ_of_lt (h.created addr ha),
    fun p hp => Nat.lt_succ_of_lt (h.probed p hp), fun id addr ha => ?_⟩, ?_⟩
  · show (t.creator.nextAddr :: t.registered ++ t.destroyed).Perm (List.range (t.creator.nextAddr + 1))
    rw [List.range_succ, List.cons_append]
    exact (h.once.cons _).trans (List.perm_append_singleton ..).symm
  · have ha' : (t.creator.sourceInfoHash.insert sourceId t.creator.nextAddr)[id]? = some addr := ha
    rw [Table.getElem?_insert] at ha'
    rw [NvMultiUriSrcBinCreator.entries_register, List.mem_cons]
    by_cases hid : id = sourceId
    · rw [if_pos hid] at ha'
      exact .inl (by rw [hid, Option.some.inj ha'])
    · rw [if_neg hid] at ha'
      exact .inr (h.hash id addr ha')
  · constructor
    · intro hlive addr ha
      rcases List.mem_cons.mp (hlive addr ha) with rfl | hreg
      · exact absurd (h.created _ ha) (Nat.lt_irrefl _)
      · exact hreg
    · exact fun hlive addr ha => List.mem_cons_of_mem _ (hlive addr ha)

end Counted

namespace Inv

/-- The list, the hash and what was freed stay, and an address that someone
gets is that of a source in the list on the condition `ok`. -/
theorem keeps (h : Inv t) {ok : Prop} (he : t'.creator.entries = t.creator.entries)
    (hh : t'.creator.sourceInfoHash = t.creator.sourceInfoHash) (hd : t'.destroyed = t.destroyed)
    (hn : t'.creator.nextAddr = t.creator.nextAddr) (hc : ∀ addr ∈ t'.pointers, addr < t.creator.nextAddr)
    (hq : ∀ p ∈ t'.probes, p.2 < t.creator.nextAddr) (hp : (∀ addr ∈ t'.pointers, addr ∈ t.registered) ↔ ok) : Keeps ok t' := by
  have hr : t'.registered = t.registered := by rw [registered, he, registered]
  refine ⟨⟨?_, ?_, ?_, ?_⟩, ?_⟩
  · rw [hr, hd, hn]
    exact h.once
  · rw [hn]
    exact hc
  · rw [hn]
    exact hq
  · rw [hh, he]
    exact h.hash
  · rw [hr]
    exact hp

/-- No one gets an address of a source that is not in the list. -/
theorem same (h : Inv t) {ok : Prop} (hok : ok) (he : t'.creator.entries = t.creator.entries)
    (hh : t'.creator.sourceInfoHash = t.creator.sourceInfoHash) (hd : t'.destroyed = t.destroyed)
    (hn : t'.creator.nextAddr = t.creator.nextAddr) (hq : ∀ p ∈ t'.probes, p.2 < t.creator.nextAddr)
    (hp : ∀ addr ∈ t'.pointers, addr ∈ t.registered) : Keeps ok t' :=
  h.keeps he hh hd hn (fun addr ha => h.lt (hp addr ha)) hq (iff_of_true hp hok)

/-- A source is freed: the addresses live on exactly when no one else has it. -/
theorem destroy (h : Inv t) {e : NvDsUriSourceInfo} {addr : ℕ} (he : t.creator.sourceInfo addr = some e)
    (own : ℕ) (hentries : t'.creator.entries = t.creator.entries.eraseP (·.2 = addr))
    (hhash : t'.creator.sourceInfoHash = t.creator.sourceInfoHash.erase e.sourceId)
    (hn : t'.creator.nextAddr = t.creator.nextAddr) (hd : t'.destroyed = t.destroyed ++ [addr])
    (hq : ∀ p ∈ t'.probes, p ∈ t.probes) (hp : (t'.pointers ++ List.replicate own addr).Perm t.pointers) : Keeps (t.Alone own addr) t' := by
  obtain ⟨haddr, hmem⟩ := NvMultiUriSrcBinCreator.sourceInfo_eq_some he
  have hnodup : (t.creator.entries.map Prod.snd).Nodup := (List.nodup_append.mp h.nodup).1
  have hsub (a : ℕ) (ha : a ∈ t'.pointers) : a ∈ t.pointers := hp.subset (List.mem_append_left _ ha)
  have hleft (p : ℤ × ℕ) : p ∈ t'.creator.entries ↔ p ∈ t.creator.entries ∧ p.2 ≠ addr := by
    rw [hentries]
    exact NvMultiUriSrcBinCreator.mem_eraseP hnodup addr p
  have hreg (a : ℕ) : a ∈ t'.registered ↔ a ∈ t.registered ∧ a ≠ addr := by
    simp only [registered, List.mem_map, hleft]
    constructor
    · rintro ⟨p, ⟨hp, hne⟩, rfl⟩
      exact ⟨⟨p, hp, rfl⟩, hne⟩
    · rintro ⟨⟨p, hp, rfl⟩, hne⟩
      exact ⟨p, ⟨hp, hne⟩, rfl⟩
  refine ⟨⟨?_, fun a ha => hn ▸ h.created a (hsub a ha), fun p hp => hn ▸ h.probed p (hq p hp),
    fun id a ha => ?_⟩, ?_⟩
  · have herase : t'.registered = t.registered.erase addr := by
      rw [registered, hentries, registered, List.erase_eq_eraseP, List.eraseP_map]
      congr 2
      funext p
      rw [Function.comp_apply, beq_eq_decide, decide_eq_decide]
      exact eq_comm
    have hin : addr ∈ t.registered := List.mem_map.mpr ⟨_, hmem, rfl⟩
    rw [hd, herase, hn]
    calc t.registered.erase addr ++ (t.destroyed ++ [addr])
        = (t.registered.erase addr ++ t.destroyed) ++ [addr] := (List.append_assoc ..).symm
      _ |>.Perm (addr :: (t.registered.erase addr ++ t.destroyed)) := List.perm_append_comm
      _ |>.Perm (t.registered ++ t.destroyed) := (List.perm_cons_erase hin).symm.append_right _
      _ |>.Perm (List.range t.creator.nextAddr) := h.once
  · rw [hhash, Table.getElem?_erase] at ha
    by_cases hid : id = e.sourceId
    · simp [hid] at ha
    · rw [if_neg hid] at ha
      have hentry := h.hash id a ha
      refine (hleft _).mpr ⟨hentry, fun haddr' => hid ?_⟩
      exact congrArg Prod.fst (List.inj_on_of_nodup_map hnodup hentry hmem haddr')
  · have hcount : t.pointers.count addr = t'.pointers.count addr + own := by
      rw [← hp.count_eq, List.count_append, List.count_replicate_self]
    constructor
    · intro hlive
      have hnot : addr ∉ t'.pointers := fun ha => ((hreg addr).mp (hlive addr ha)).2 rfl
      have hzero := List.count_eq_zero.mpr hnot
      show t.pointers.count addr ≤ own
      omega
    · intro halone a ha
      have hle : t.pointers.count addr ≤ own := halone
      have hnot : addr ∉ t'.pointers := List.count_eq_zero.mp (by omega)
      refine (hreg a).mpr ⟨h.live a (hsub a ha), ?_⟩
      rintro rfl
      exact hnot ha

end Inv

/-! ### Steps and runs -/

theorem Keeps.congr {ok ok' : Prop} (h : Keeps ok t) (hok : ok ↔ ok') : Keeps ok' t :=
  ⟨h.toCounted, h.live_iff.trans hok⟩

theorem keeps_stopSource (h : Inv t) {clears : Bool} {sourceId : ℕ} {force stopped removed : Bool} {done : Bool}
    (hs : t.stopSource clears sourceId force stopped removed = some (t', done)) :
    Keeps ((force = true → stopped = true ∧ removed = true) →
      ∀ addr ∈ t.creator.sourceInfoHash[(sourceId : ℤ)]?, t.Alone 0 addr) t' := by
  obtain ⟨⟨c, done'⟩, hc, heq⟩ := Option.map_eq_some_iff.mp hs
  rcases NvMultiUriSrcBinCreator.stopSource_cases hc with
    ⟨hhash, rfl, rfl⟩ | ⟨addr, e, list, pads, hhash, he, hlist, hcase⟩
  · rw [hhash] at heq
    obtain ⟨rfl, rfl⟩ := Prod.mk.inj heq
    exact h.same (by simp [hhash]) rfl rfl rfl rfl h.probed h.live
  · rw [hhash] at heq
    obtain ⟨rfl, rfl⟩ := Prod.mk.inj heq
    rcases hcase with ⟨rfl, hnot, rfl⟩ | ⟨rfl, hall, rfl⟩
    · exact h.same (fun hall => absurd hall hnot) hlist rfl rfl rfl
        (fun p hp => h.probed p (List.mem_of_mem_filter hp)) h.live
    · obtain ⟨rfl, -⟩ := NvMultiUriSrcBinCreator.sourceInfo_eq_some he
      have hentries := NvMultiUriSrcBinCreator.entries_removeSourceInfo
        (s := { t.creator with sourceInfoList := list, streammuxPads := pads }) e
      have hold : NvMultiUriSrcBinCreator.entries { t.creator with sourceInfoList := list, streammuxPads := pads } =
        t.creator.entries := hlist
      rw [hold] at hentries
      have hfreed : Keeps (t.Alone 0 e.addr) { t.removeProbe e.addr with
          creator := { t.creator with sourceInfoList := list, streammuxPads := pads }.removeSourceInfo e
          destroyed := t.destroyed ++ [e.addr] } :=
        h.destroy he 0 hentries rfl rfl rfl (fun p hp => List.mem_of_mem_filter hp)
          (by rw [List.replicate_zero, List.append_nil]; exact List.Perm.refl _)
      refine hfreed.congr ⟨fun halone _ addr ha => ?_, fun hok => hok hall _ hhash⟩
      obtain rfl : e.addr = addr := Option.some.inj (hhash ▸ ha)
      exact halone

/-- The new source that takes the place of the old one has an address of its own. -/
theorem keeps_updateSource (h : Inv t) {sourceId : Int32} {force stopped removed created : Bool}
    (hs : t.updateSource sourceId force stopped removed created = some t') :
    Keeps (t.FreeOk (.updateSource sourceId force stopped removed created)) t' := by
  obtain ⟨⟨t₁, done⟩, h₁, rfl⟩ := Option.map_eq_some_iff.mp hs
  have hstop := keeps_stopSource h h₁
  dsimp only
  split
  · have hnew := hstop.toCounted.register sourceId.toInt
    exact hnew.congr hstop.live_iff
  · exact hstop

theorem keeps_testPad (h : Inv t) {c : NvMultiUriSrcBinCreator} (hc : t.creator.testPad = some c) :
    Keeps True { t with creator := c } := by
  have hregister (base : ℕ) (sourceId : ℤ) :
      Keeps True { t with creator := { t.creator with baseIndex := base }.register sourceId } := by
    have hbase : Keeps True { t with creator := { t.creator with baseIndex := base } } :=
      h.same trivial rfl rfl rfl rfl h.probed h.live
    exact (hbase.toCounted.register sourceId).congr hbase.live_iff
  unfold NvMultiUriSrcBinCreator.testPad at hc
  cases hi : t.creator.searching with
  | none => simp [hi] at hc
  | some i =>
    simp only [hi] at hc
    by_cases hpad : (t.creator.baseIndex + i) % 1024 ∈ t.creator.streammuxPads
    · rw [if_pos hpad] at hc
      by_cases hlast : i + 1 < 1024
      · rw [if_pos hlast] at hc
        obtain rfl := Option.some.inj hc
        exact h.same trivial rfl rfl rfl rfl h.probed h.live
      · rw [if_neg hlast] at hc
        obtain rfl := Option.some.inj hc
        exact hregister t.creator.baseIndex (-1)
    · rw [if_neg hpad] at hc
      obtain rfl := Option.some.inj hc
      exact hregister _ _

/-- Who gets an address has that of a source in the list. -/
theorem keeps_signalled (h : Inv t) {c : Callback} {connected : NvDsUriSourceInfo → Bool}
    (hs : t.signalled c connected = some t') : Keeps True t' := by
  unfold signalled at hs
  cases he : t.creator.sourceInfo c.addr with
  | none => simp [he] at hs
  | some e =>
    simp only [he] at hs
    by_cases hc : connected e = true
    · rw [if_pos hc] at hs
      obtain rfl := Option.some.inj hs
      refine h.same trivial rfl rfl rfl rfl h.probed fun addr ha => ?_
      rcases List.mem_cons.mp ((pointers_cons c).subset ha) with rfl | hold
      · exact mem_registered.mpr ⟨e, he⟩
      · exact h.live addr hold
    · rw [if_neg hc] at hs
      cases hs

theorem keeps_newPad (h : Inv t) {addr : ℕ} {pad : Option ℕ} (hs : t.newPad addr pad = some t') : Keeps True t' := by
  unfold newPad at hs
  cases he : t.creator.sourceInfo addr with
  | none => simp [he] at hs
  | some e =>
    simp only [he] at hs
    by_cases hc : .newPad addr ∈ t.callbacks ∧ (e.sourceId < 0 ∨ ∀ i ∈ pad, (i : ℤ) = e.sourceId)
    · rw [if_pos hc] at hs
      obtain rfl := Option.some.inj hs
      have hreg : addr ∈ t.registered := mem_registered.mpr ⟨e, he⟩
      have hentries := NvMultiUriSrcBinCreator.entries_modify (s := t.creator) addr
        (f := fun e => { e with muxSinkPad := pad, probeEosHandling := true }) fun _ => ⟨rfl, rfl⟩
      refine h.same trivial hentries rfl rfl rfl (fun p hp => ?_) fun a ha => ?_
      · rcases List.mem_cons.mp hp with rfl | hold
        · exact h.lt hreg
        · exact h.probed p hold
      · exact h.live a ((pointers_erase hc.1).subset (List.mem_cons_of_mem _ ha))
    · rw [if_neg hc] at hs
      cases hs

/-- The probe is handed a source that may have been freed. -/
theorem keeps_eosEvent (h : Inv t) {id addr : ℕ} (hs : t.eosEvent id addr = some t') :
    Keeps (addr ∈ t.registered) t' := by
  unfold eosEvent at hs
  by_cases hp : (id, addr) ∈ t.probes
  · rw [if_pos hp] at hs
    obtain rfl := Option.some.inj hs
    have hperm := pointers_cons (t := t) (.probeEos addr)
    refine h.keeps rfl rfl rfl rfl (fun a ha => ?_) (fun p hp => h.probed p (List.mem_of_mem_erase hp)) ?_
    · rcases List.mem_cons.mp (hperm.subset ha) with rfl | hold
      · exact h.probed _ hp
      · exact h.created a hold
    · constructor
      · exact fun hall => hall addr (hperm.symm.subset List.mem_cons_self)
      · intro hreg a ha
        rcases List.mem_cons.mp (hperm.subset ha) with rfl | hold
        · exact hreg
        · exact h.live a hold
  · rw [if_neg hp] at hs
    cases hs

theorem keeps_probeEos (h : Inv t) {addr : ℕ} (hs : t.probeEos addr = some t') : Keeps True t' := by
  unfold probeEos at hs
  cases he : t.creator.sourceInfo addr with
  | none => simp [he] at hs
  | some e =>
    simp only [he] at hs
    by_cases hc : .probeEos addr ∈ t.callbacks
    · rw [if_pos hc] at hs
      obtain rfl := Option.some.inj hs
      refine h.same trivial rfl rfl rfl rfl h.probed fun a ha => ?_
      rcases List.mem_append.mp ha with hq | hheld
      · rcases List.mem_append.mp hq with hold | hnew
        · exact h.live a (List.mem_append_left _ hold)
        · rw [List.mem_singleton.mp hnew]
          exact mem_registered.mpr ⟨e, he⟩
      · exact h.live a ((pointers_erase hc).subset (List.mem_cons_of_mem _ (List.mem_append_right _ hheld)))
    · rw [if_neg hc] at hs
      cases hs

/-- The section frees a source and forgets its own address of it. -/
theorem keeps_drop (h : Inv t) {addr : ℕ} {e : NvDsUriSourceInfo} (he : t.creator.sourceInfo addr = some e)
    {c : NvMultiUriSrcBinCreator} (hc : c.entries = t.creator.entries)
    (hhash : c.sourceInfoHash = t.creator.sourceInfoHash) (hn : c.nextAddr = t.creator.nextAddr)
    (hcreator : t'.creator = (c.removeSourceInfoHandlers addr).removeSourceInfo e)
    (hd : t'.destroyed = t.destroyed ++ [addr]) (hq : t'.probes = t.probes)
    (hp : (addr :: t'.pointers).Perm t.pointers) : Keeps (t.Alone 1 addr) t' := by
  obtain ⟨haddr, -⟩ := NvMultiUriSrcBinCreator.sourceInfo_eq_some he
  have hentries := NvMultiUriSrcBinCreator.entries_removeSourceInfo (s := c.removeSourceInfoHandlers addr) e
  rw [NvMultiUriSrcBinCreator.entries_removeSourceInfoHandlers, hc, haddr] at hentries
  refine h.destroy he 1 (by rw [hcreator]; exact hentries) ?_ (by rw [hcreator]; exact hn) hd (fun p => hq ▸ id) ?_
  · rw [hcreator, ← hhash]
    rfl
  · exact (List.perm_append_singleton ..).trans hp

theorem keeps_removeElem (h : Inv t) {addr : ℕ} (hs : t.removeElem addr = some t') : Keeps (t.Alone 1 addr) t' := by
  unfold removeElem at hs
  cases he : t.creator.sourceInfo addr with
  | none => simp [he] at hs
  | some e =>
    simp only [he] at hs
    by_cases hc : .removeElem addr ∈ t.callbacks
    · rw [if_pos hc] at hs
      obtain rfl := Option.some.inj hs
      exact keeps_drop h he rfl rfl rfl rfl rfl rfl (pointers_erase hc)
    · rw [if_neg hc] at hs
      cases hs

theorem keeps_uribinPop (h : Inv t) (hs : t.uribinPop = some t') : Keeps True t' := by
  unfold uribinPop at hs
  split at hs
  · rename_i addr queue _ hpop hrem hqueue
    obtain rfl := Option.some.inj hs
    refine h.same trivial rfl rfl rfl rfl h.probed fun a ha => h.live a ?_
    simp only [pointers, held, hpop, hrem, hqueue, Option.toList_some, Option.toList_none, List.mem_append,
      List.mem_cons, List.not_mem_nil, or_false, false_or] at ha ⊢
    tauto
  · cases hs

theorem keeps_uribinRemoval (h : Inv t) {removed stopped : Bool} (hs : t.uribinRemoval removed stopped = some t') :
    Keeps True t' := by
  unfold uribinRemoval at hs
  cases hpop : t.popped with
  | none => simp [hpop] at hs
  | some addr =>
    cases he : t.creator.sourceInfo addr with
    | none => simp [hpop, he] at hs
    | some e =>
      obtain ⟨pads, hpads⟩ := NvMultiUriSrcBinCreator.releaseMuxSinkPad_eq (s := t.creator) e
      simp only [hpop, he, hpads] at hs
      by_cases hc : removed = true ∧ stopped = true
      · rw [if_pos hc] at hs
        obtain rfl := Option.some.inj hs
        refine h.same trivial rfl rfl rfl rfl h.probed fun a ha => h.live a ?_
        simp only [pointers, held, hpop, Option.toList_some, Option.toList_none, List.mem_append, List.mem_cons,
          List.not_mem_nil, or_false, false_or] at ha ⊢
        tauto
      · rw [if_neg hc] at hs
        obtain rfl := Option.some.inj hs
        refine h.same trivial rfl rfl rfl rfl h.probed fun a ha => h.live a ?_
        simp only [pointers, held, hpop, Option.toList_some, Option.toList_none, List.mem_append, List.mem_cons,
          List.not_mem_nil, or_false, false_or] at ha ⊢
        tauto

theorem keeps_uribinRemovalDone (h : Inv t) (hs : t.uribinRemovalDone = some t') :
    Keeps (t.FreeOk .uribinRemovalDone) t' := by
  unfold uribinRemovalDone at hs
  cases hrem : t.creator.removing with
  | none => simp [hrem] at hs
  | some addr =>
    cases he : t.creator.sourceInfo addr with
    | none => simp [hrem, he] at hs
    | some e =>
      simp only [hrem, he] at hs
      by_cases hc : e.elemRemovedHandler = true
      · rw [if_pos hc] at hs
        obtain rfl := Option.some.inj hs
        have hfreed : Keeps (t.Alone 1 addr) { t with
            creator := ({ t.creator with removing := none }.removeSourceInfoHandlers addr).removeSourceInfo e
            destroyed := t.destroyed ++ [addr] } :=
          keeps_drop h he (c := { t.creator with removing := none }) rfl rfl rfl rfl rfl rfl (pointers_removing hrem)
        refine hfreed.congr ⟨fun halone a ha e' he' _ => ?_, fun hok => hok addr hrem e he hc⟩
        obtain rfl : addr = a := Option.some.inj (hrem ▸ ha)
        exact halone
      · rw [if_neg hc] at hs
        obtain rfl := Option.some.inj hs
        refine h.same (fun a ha e' he' hc' => ?_) rfl rfl rfl rfl h.probed fun a ha => h.live a ?_
        · obtain rfl : addr = a := Option.some.inj (hrem ▸ ha)
          obtain rfl : e = e' := Option.some.inj (he ▸ he')
          exact absurd hc' hc
        · exact (pointers_removing hrem).subset (List.mem_cons_of_mem _ ha)

/-- A section whose source has not been freed leaves every address live exactly
when it does not free a source that someone else has. -/
theorem keeps_step (h : Inv t) {a : Action} (ha : ∀ addr after, a ≠ .useAfterFree addr after)
    (hs : t.step a = some t') : Keeps (t.FreeOk a) t' := by
  have hlocked : ∀ {r : Option SourceHandles}, t.locked r = some t' → r = some t' := by
    intro r hr
    unfold locked at hr
    split at hr
    · simp at hr
    · exact hr
  cases a with
  | addSource created =>
    obtain rfl := Option.some.inj (hlocked hs)
    cases created with
    | false => exact h.same trivial rfl rfl rfl rfl h.probed h.live
    | true => exact h.same trivial rfl rfl rfl rfl h.probed h.live
  | testPad =>
    obtain ⟨c, hc, rfl⟩ := Option.map_eq_some_iff.mp hs
    exact keeps_testPad h hc
  | removeSource sourceId force stopped removed =>
    obtain ⟨⟨t₁, done⟩, h₁, rfl⟩ := Option.map_eq_some_iff.mp (hlocked hs)
    exact keeps_stopSource h h₁
  | updateSource sourceId force stopped removed created => exact keeps_updateSource h (hlocked hs)
  | padAdded addr => exact keeps_signalled h hs
  | newPad addr pad => exact keeps_newPad h hs
  | eosEvent id addr => exact keeps_eosEvent h hs
  | probeEos addr => exact keeps_probeEos h hs
  | elementRemoved addr => exact keeps_signalled h hs
  | removeElem addr => exact keeps_removeElem h (hlocked hs)
  | uribinPop => exact keeps_uribinPop h hs
  | uribinRemoval removed stopped => exact keeps_uribinRemoval h hs
  | uribinRemovalDone => exact keeps_uribinRemovalDone h (hlocked hs)
  | useAfterFree addr after => exact absurd rfl (ha addr after)

theorem inv_run (h : Reach step FreeOk (· = start) t) : Inv t := by
  refine h.invariant (fun t ht => ht ▸ inv_start) fun t a t' ht hok hs => ?_
  have ha : ∀ addr after, a ≠ .useAfterFree addr after := by
    rintro addr after rfl
    exact hok
  have hkeeps := keeps_step ht ha hs
  exact ⟨⟨hkeeps.live_iff.mpr hok, hkeeps.once⟩, hkeeps.created, hkeeps.probed, hkeeps.hash⟩

/-- **No source is used after it is freed, or freed twice.** In every run that
frees no source that someone else has and calls no probe for a source that is
gone, in every state; and such a run goes on to do so exactly when its next
section meets the condition. -/
theorem safe_run (h : Reach step FreeOk (· = start) t) :
    Safe t ∧ (∀ addr after, t.step (.useAfterFree addr after) = none) ∧
      ∀ a t', (∀ addr after, a ≠ .useAfterFree addr after) → t.step a = some t' → (Safe t' ↔ t.FreeOk a) := by
  have hinv := inv_run h
  refine ⟨hinv.toSafe, fun addr after => if_neg ?_, fun a t' ha hs => ?_⟩
  · rintro ⟨hheld, hgone⟩
    obtain ⟨e, he⟩ := mem_registered.mp (hinv.live addr (List.mem_append_right _ hheld))
    rw [hgone] at he
    cases he
  · have hkeeps := keeps_step hinv ha hs
    exact ⟨fun hsafe => hkeeps.live_iff.mp hsafe.live, fun hok => ⟨hkeeps.live_iff.mpr hok, hkeeps.once⟩⟩

/-- Two sources get their pads; the first is updated and ends by itself, the
second is removed, and a third goes with its element. -/
def endedAndRemoved : List Action :=
  [.addSource true, .testPad, .padAdded 0, .newPad 0 (some 0), .addSource true, .testPad, .padAdded 1,
    .newPad 1 (some 1), .updateSource 0 true true true true, .padAdded 2, .newPad 2 (some 0), .eosEvent 2 2,
    .probeEos 2, .uribinPop, .removeSource 1 true true true, .uribinRemoval true true, .uribinRemovalDone,
    .addSource true, .testPad, .elementRemoved 3, .removeElem 3]

theorem safe_run_endedAndRemoved :
    let t := (exec step FreeOk start endedAndRemoved).get (by decide +kernel)
    Safe t ∧ (∀ addr after, t.step (.useAfterFree addr after) = none) ∧
      ∀ a t', (∀ addr after, a ≠ .useAfterFree addr after) → t.step a = some t' → (Safe t' ↔ t.FreeOk a) :=
  safe_run (.of_exec endedAndRemoved (.init rfl) (Option.some_get _).symm)

/-- A source is removed by a request after its probe has queued it. -/
def removedWhileQueued : List Action :=
  [.addSource true, .testPad, .padAdded 0, .newPad 0 (some 0), .eosEvent 0 0, .probeEos 0,
    .removeSource 0 true true true, .uribinPop]

/-- The removal thread takes a source from the queue that has been freed. -/
theorem queued_freed : ∃ t, Reach step anyStep (· = start) t ∧
    ∃ addr, t.popped = some addr ∧ addr ∉ t.registered ∧ addr ∈ t.destroyed ∧
      ∀ after, t.step (.useAfterFree addr after) = some after := by
  let t := (exec step anyStep start removedWhileQueued).get (by decide +kernel)
  have hfreed : 0 ∈ t.held ∧ t.creator.sourceInfo 0 = none := by decide +kernel
  exact ⟨t, .of_exec removedWhileQueued (.init rfl) (Option.some_get _).symm, 0, by decide +kernel,
    by decide +kernel, by decide +kernel, fun _ => by rw [step, if_pos hfreed]⟩

end SourceHandles
end MultiUri
end DeepStream
