/-
# The source registry of the multi-URI source bin

The creator keeps its sources in a list, in a hash from source ids and in a
counter, all under one lock. An id is free for `s_get_source_id` when the muxer
has no pad of that number, and the pad of a source is requested only when its
decoder shows one. Requests add, remove and update sources; callbacks of a
source request its pad, queue it for the removal thread at EOS, or drop it when
its source element goes. A source is known by its address; a callback or the
removal thread that is handed a source already freed may do anything.
-/
import DeepStream.Lib.Keyed
import DeepStream.Lib.Run
import DeepStream.Lib.Table
import Mathlib.Data.List.NodupEquivFin

namespace DeepStream
namespace MultiUri

open Std

/-- `muxSinkPad` is the number of the muxer's pad; the handlers and the probe
are there or not. -/
structure NvDsUriSourceInfo where
  addr : ℕ
  sourceId : ℤ
  muxSinkPad : Option ℕ
  probeEosHandling : Bool
  newPadAddedHandler : Bool
  elemRemovedHandler : Bool
  deriving DecidableEq, Repr

/-- `searching` is the round of the loop of `s_get_source_id` of an add in
progress, which owns the lock; `removing` is the source the removal thread has
taken down and not yet dropped. -/
structure NvMultiUriSrcBinCreator where
  sourceInfoList : List NvDsUriSourceInfo
  sourceInfoHash : TreeMap ℤ ℕ
  numOfActiveSources : ℕ
  baseIndex : ℕ
  streammuxPads : List ℕ
  removeUribinQueue : List ℕ
  uribinRemovalThread : Bool
  removing : Option ℕ
  searching : Option ℕ
  nextAddr : ℕ

/-- The flags say what GStreamer answers: whether an element is created, a
source stops and leaves the bin, and which pad the muxer returns. -/
inductive Action where
  | addSource (created : Bool)
  | testPad
  | removeSource (sourceId : ℕ) (force stopped removed : Bool)
  | updateSource (sourceId : Int32) (force stopped removed created : Bool)
  | newPad (addr : ℕ) (pad : Option ℕ)
  | probeEos (addr : ℕ)
  | uribinRemoval (removed stopped : Bool)
  | uribinRemovalDone
  | removeElem (addr : ℕ)
  | useAfterFree (addr : ℕ) (after : NvMultiUriSrcBinCreator)

namespace NvMultiUriSrcBinCreator

def init : NvMultiUriSrcBinCreator where
  sourceInfoList := []
  sourceInfoHash := ∅
  numOfActiveSources := 0
  baseIndex := 0
  streammuxPads := []
  removeUribinQueue := []
  uribinRemovalThread := true
  removing := none
  searching := none
  nextAddr := 0

variable (s : NvMultiUriSrcBinCreator)

def sourceInfo (addr : ℕ) : Option NvDsUriSourceInfo := s.sourceInfoList.find? (·.addr = addr)

def modify (addr : ℕ) (f : NvDsUriSourceInfo → NvDsUriSourceInfo) : NvMultiUriSrcBinCreator :=
  { s with sourceInfoList := s.sourceInfoList.map fun e => if e.addr = addr then f e else e }

/-- A new source goes to the list, the hash and the counter. -/
def register (sourceId : ℤ) : NvMultiUriSrcBinCreator :=
  { s with
    sourceInfoList := ⟨s.nextAddr, sourceId, none, false, true, true⟩ :: s.sourceInfoList
    sourceInfoHash := s.sourceInfoHash.insert sourceId s.nextAddr
    numOfActiveSources := (s.numOfActiveSources + 1) % 2 ^ 32
    nextAddr := s.nextAddr + 1
    searching := none }

def removeSourceInfo (e : NvDsUriSourceInfo) : NvMultiUriSrcBinCreator :=
  { s with
    sourceInfoHash := s.sourceInfoHash.erase e.sourceId
    sourceInfoList := s.sourceInfoList.eraseP (·.addr = e.addr)
    numOfActiveSources := (s.numOfActiveSources + (2 ^ 32 - 1)) % 2 ^ 32 }

def removeSourceInfoHandlers (addr : ℕ) : NvMultiUriSrcBinCreator :=
  s.modify addr fun e => { e with elemRemovedHandler := false, newPadAddedHandler := false }

/-- The pad of the source is given back to the muxer. -/
def releaseMuxSinkPad (e : NvDsUriSourceInfo) : NvMultiUriSrcBinCreator :=
  match e.muxSinkPad with
  | none => s
  | some pad => { s with streammuxPads := s.streammuxPads.filter (· ≠ pad) }

/-- One round of `s_get_source_id`, and the rest of `add_source` after the last:
the id is registered even when it is -1. -/
def testPad : Option NvMultiUriSrcBinCreator :=
  match s.searching with
  | none => none
  | some i =>
    let padIndx := (s.baseIndex + i) % 1024
    if padIndx ∈ s.streammuxPads then
      if i + 1 < 1024 then some { s with searching := some (i + 1) } else some (s.register (-1))
    else some ({ s with baseIndex := padIndx + 1 }.register padIndx)

/-- What `remove_source_impl` and the first half of `update_source` do, and
whether they go on to the end; only the latter clears the pointer to the pad.
The hash is searched with the id as a `guint`. -/
def stopSource (clears : Bool) (sourceId : ℕ) (force stopped removed : Bool) :
    Option (NvMultiUriSrcBinCreator × Bool) :=
  match s.sourceInfoHash[(sourceId : ℤ)]? with
  | none => some (s, false)
  | some addr =>
    match s.sourceInfo addr with
    | none => none
    | some e =>
      let s := (s.removeSourceInfoHandlers addr).modify addr fun e => { e with probeEosHandling := false }
      if force ∧ ¬ stopped then some (s, false)
      else
        let s := if force then s.releaseMuxSinkPad e else s
        let s := if force ∧ clears then s.modify addr fun e => { e with muxSinkPad := none } else s
        if force ∧ ¬ removed then some (s, false) else some (s.removeSourceInfo e, true)

def updateSource (sourceId : Int32) (force stopped removed created : Bool) : Option NvMultiUriSrcBinCreator :=
  (s.stopSource true (sourceId.toInt % 2 ^ 32).toNat force stopped removed).map fun (s, done) =>
    if done ∧ created then s.register sourceId.toInt else s

/-- `cb_newpad`: the muxer returns the pad of the id, old or new, or none; it
chooses one for a negative id. -/
def newPad (addr : ℕ) (pad : Option ℕ) : Option NvMultiUriSrcBinCreator :=
  match s.sourceInfo addr with
  | none => none
  | some e =>
    if e.newPadAddedHandler ∧ (e.sourceId < 0 ∨ ∀ i ∈ pad, (i : ℤ) = e.sourceId) then
      let s := s.modify addr fun e => { e with muxSinkPad := pad, probeEosHandling := true }
      some { s with streammuxPads := pad.toList ++ s.streammuxPads }
    else none

def probeEos (addr : ℕ) : Option NvMultiUriSrcBinCreator :=
  match s.sourceInfo addr with
  | none => none
  | some e =>
    if e.probeEosHandling then
      let s := s.modify addr fun e => { e with probeEosHandling := false }
      some { s with removeUribinQueue := s.removeUribinQueue ++ [addr] }
    else none

/-- The removal thread takes a source down, without the lock. It ends when
GStreamer refuses. -/
def uribinRemoval (removed stopped : Bool) : Option NvMultiUriSrcBinCreator :=
  match s.uribinRemovalThread, s.removing, s.removeUribinQueue with
  | true, none, addr :: queue =>
    match s.sourceInfo addr with
    | none => none
    | some e =>
      let s := { s.releaseMuxSinkPad e with removeUribinQueue := queue }
      if removed ∧ stopped then some { s with removing := some addr }
      else some { s with uribinRemovalThread := false }
  | _, _, _ => none

/-- The removal thread drops the source, unless its element went before. -/
def uribinRemovalDone : Option NvMultiUriSrcBinCreator :=
  match s.removing with
  | none => none
  | some addr =>
    match s.sourceInfo addr with
    | none => none
    | some e =>
      let s := { s with removing := none }
      if e.elemRemovedHandler then some ((s.removeSourceInfoHandlers addr).removeSourceInfo e) else some s

def removeElem (addr : ℕ) : Option NvMultiUriSrcBinCreator :=
  match s.sourceInfo addr with
  | none => none
  | some e =>
    if e.elemRemovedHandler then some ((s.removeSourceInfoHandlers addr).removeSourceInfo e) else none

/-- The sections that take the lock wait for it. -/
def locked (r : Option NvMultiUriSrcBinCreator) : Option NvMultiUriSrcBinCreator :=
  if s.searching.isSome then none else r

def step : Action → Option NvMultiUriSrcBinCreator
  | .addSource created => s.locked (some (if created then { s with searching := some 0 } else s))
  | .testPad => s.testPad
  | .removeSource sourceId force stopped removed =>
    s.locked ((s.stopSource false sourceId force stopped removed).map Prod.fst)
  | .updateSource sourceId force stopped removed created =>
    s.locked (s.updateSource sourceId force stopped removed created)
  | .newPad addr pad => s.newPad addr pad
  | .probeEos addr => s.probeEos addr
  | .uribinRemoval removed stopped => s.uribinRemoval removed stopped
  | .uribinRemovalDone => s.locked s.uribinRemovalDone
  | .removeElem addr => s.locked (s.removeElem addr)
  | .useAfterFree addr after => if addr < s.nextAddr ∧ s.sourceInfo addr = none then some after else none

/-! ### The invariant -/

/-- The ids of the entries of the list with the entries. -/
def entries : List (ℤ × ℕ) := s.sourceInfoList.map fun e => (e.sourceId, e.addr)

/-- List, hash and counter agree on sources with distinct ids in the range. -/
structure RegistryOk : Prop where
  ids : (s.entries.map Prod.fst).Nodup
  hash : ∀ id addr, s.sourceInfoHash[id]? = some addr ↔ (id, addr) ∈ s.entries
  count : s.numOfActiveSources = s.sourceInfoList.length
  range : ∀ e ∈ s.entries, 0 ≤ e.1 ∧ e.1 < 1024

/-- What a section must not do: end the search for an id without one or at one
that a source still has, or go on with a source that has been freed. -/
def RegistryStepOk : Action → Prop
  | .testPad => ∀ i ∈ s.searching,
      if (s.baseIndex + i) % 1024 ∈ s.streammuxPads then i + 1 < 1024
      else (((s.baseIndex + i) % 1024 : ℕ) : ℤ) ∉ s.entries.map Prod.fst
  | .useAfterFree _ _ => False
  | _ => True

instance (a : Action) : Decidable (s.RegistryStepOk a) :=
  match a with
  | .testPad => inferInstanceAs (Decidable (∀ i ∈ s.searching,
      if (s.baseIndex + i) % 1024 ∈ s.streammuxPads then i + 1 < 1024
      else (((s.baseIndex + i) % 1024 : ℕ) : ℤ) ∉ s.entries.map Prod.fst))
  | .useAfterFree .. => inferInstanceAs (Decidable False)
  | .addSource .. => inferInstanceAs (Decidable True)
  | .removeSource .. => inferInstanceAs (Decidable True)
  | .updateSource .. => inferInstanceAs (Decidable True)
  | .newPad .. => inferInstanceAs (Decidable True)
  | .probeEos .. => inferInstanceAs (Decidable True)
  | .uribinRemoval .. => inferInstanceAs (Decidable True)
  | .uribinRemovalDone => inferInstanceAs (Decidable True)
  | .removeElem .. => inferInstanceAs (Decidable True)

/-! ### Registering and dropping -/

variable {s} {s' : NvMultiUriSrcBinCreator}

@[simp] theorem entries_register (sourceId : ℤ) :
    (s.register sourceId).entries = (sourceId, s.nextAddr) :: s.entries := rfl

/-- Changes of a source that leave its id alone. -/
theorem entries_modify (addr : ℕ) {f : NvDsUriSourceInfo → NvDsUriSourceInfo}
    (hf : ∀ e, (f e).sourceId = e.sourceId ∧ (f e).addr = e.addr) : (s.modify addr f).entries = s.entries := by
  unfold entries modify
  rw [List.map_map]
  refine List.map_congr_left fun e _ => ?_
  dsimp only [Function.comp_apply]
  split
  · rw [(hf e).1, (hf e).2]
  · rfl

@[simp] theorem entries_removeSourceInfoHandlers (addr : ℕ) :
    (s.removeSourceInfoHandlers addr).entries = s.entries :=
  entries_modify addr fun _ => ⟨rfl, rfl⟩

theorem entries_removeSourceInfo (e : NvDsUriSourceInfo) :
    (s.removeSourceInfo e).entries = s.entries.eraseP (·.2 = e.addr) := by
  unfold entries removeSourceInfo
  rw [List.eraseP_map]
  rfl

theorem sourceInfo_eq_some {addr : ℕ} {e : NvDsUriSourceInfo} (h : s.sourceInfo addr = some e) :
    e.addr = addr ∧ (e.sourceId, addr) ∈ s.entries := by
  have ha : e.addr = addr := by simpa using List.find?_some h
  exact ⟨ha, List.mem_map.mpr ⟨e, List.mem_of_find?_eq_some h, by rw [ha]⟩⟩

/-- An address that occurs once is erased everywhere. -/
theorem mem_eraseP {l : List (ℤ × ℕ)} (hn : (l.map Prod.snd).Nodup) (addr : ℕ) (p : ℤ × ℕ) :
    p ∈ l.eraseP (·.2 = addr) ↔ p ∈ l ∧ p.2 ≠ addr :=
  Keyed.mem_eraseP_key hn addr p

theorem releaseMuxSinkPad_eq (e : NvDsUriSourceInfo) :
    ∃ pads, s.releaseMuxSinkPad e = { s with streammuxPads := pads } := by
  unfold releaseMuxSinkPad
  cases e.muxSinkPad with
  | none => exact ⟨s.streammuxPads, rfl⟩
  | some pad => exact ⟨_, rfl⟩

/-- A source is stopped when the id has one, and only loses its handlers and
its pad where GStreamer refuses. -/
theorem stopSource_cases {clears : Bool} {sourceId : ℕ} {force stopped removed : Bool} {done : Bool}
    (hs : s.stopSource clears sourceId force stopped removed = some (s', done)) :
    (s.sourceInfoHash[(sourceId : ℤ)]? = none ∧ s' = s ∧ done = false) ∨
    ∃ addr e list pads, s.sourceInfoHash[(sourceId : ℤ)]? = some addr ∧ s.sourceInfo addr = some e ∧
      list.map (fun e => (e.sourceId, e.addr)) = s.entries ∧
      ((done = false ∧ ¬ (force = true → stopped = true ∧ removed = true) ∧
          s' = { s with sourceInfoList := list, streammuxPads := pads }) ∨
        (done = true ∧ (force = true → stopped = true ∧ removed = true) ∧
          s' = { s with sourceInfoList := list, streammuxPads := pads }.removeSourceInfo e)) := by
  unfold stopSource at hs
  cases hhash : s.sourceInfoHash[(sourceId : ℤ)]? with
  | none =>
    rw [hhash] at hs
    obtain ⟨rfl, rfl⟩ : s = s' ∧ false = done := by simpa using hs
    exact .inl ⟨rfl, rfl, rfl⟩
  | some addr =>
    rw [hhash] at hs
    cases he : s.sourceInfo addr with
    | none => simp [he] at hs
    | some e =>
      simp only [he] at hs
      obtain ⟨list, hlist, h₁⟩ : ∃ list, list.map (fun e => (e.sourceId, e.addr)) = s.entries ∧
          (s.removeSourceInfoHandlers addr).modify addr (fun e => { e with probeEosHandling := false }) =
            { s with sourceInfoList := list } := by
        refine ⟨_, ?_, rfl⟩
        have hm := entries_modify (s := s.removeSourceInfoHandlers addr) addr
          (f := fun e => { e with probeEosHandling := false }) fun _ => ⟨rfl, rfl⟩
        rwa [entries_removeSourceInfoHandlers] at hm
      rw [h₁] at hs
      refine .inr ⟨addr, e, ?_⟩
      by_cases hstop : force = true ∧ ¬ stopped = true
      · rw [if_pos hstop] at hs
        obtain ⟨rfl, rfl⟩ := Prod.mk.inj (Option.some.inj hs)
        exact ⟨list, _, rfl, he, hlist, .inl ⟨rfl, fun h => hstop.2 (h hstop.1).1, rfl⟩⟩
      · rw [if_neg hstop] at hs
        obtain ⟨pads, hpads⟩ := releaseMuxSinkPad_eq (s := { s with sourceInfoList := list }) e
        rw [hpads] at hs
        cases force with
        | false =>
          simp only [Bool.false_eq_true, false_and, ↓reduceIte] at hs
          obtain ⟨rfl, rfl⟩ := Prod.mk.inj (Option.some.inj hs)
          exact ⟨list, _, rfl, he, hlist, .inr ⟨rfl, by simp, rfl⟩⟩
        | true =>
          obtain ⟨cleared, hcleared, h₂⟩ : ∃ cleared, cleared.map (fun e => (e.sourceId, e.addr)) = s.entries ∧
              (if clears = true then
                ({ s with sourceInfoList := list, streammuxPads := pads } : NvMultiUriSrcBinCreator).modify addr
                  fun e => { e with muxSinkPad := none }
              else { s with sourceInfoList := list, streammuxPads := pads }) =
                { s with sourceInfoList := cleared, streammuxPads := pads } := by
            by_cases hclears : clears = true
            · refine ⟨_, ?_, if_pos hclears⟩
              exact (entries_modify (s := { s with sourceInfoList := list, streammuxPads := pads }) addr
                (f := fun e => { e with muxSinkPad := none }) fun _ => ⟨rfl, rfl⟩).trans hlist
            · exact ⟨list, hlist, if_neg hclears⟩
          simp only [↓reduceIte, true_and] at hs
          rw [h₂] at hs
          cases removed with
          | false =>
            obtain ⟨rfl, rfl⟩ := Prod.mk.inj (Option.some.inj hs)
            exact ⟨cleared, pads, rfl, he, hcleared, .inl ⟨rfl, by simp, rfl⟩⟩
          | true =>
            obtain ⟨rfl, rfl⟩ := Prod.mk.inj (Option.some.inj hs)
            have hstopped : stopped = true := by simpa using hstop
            exact ⟨cleared, pads, rfl, he, hcleared, .inr ⟨rfl, fun _ => ⟨hstopped, rfl⟩, rfl⟩⟩

/-- The invariant with what it needs of the addresses. -/
structure Inv (s : NvMultiUriSrcBinCreator) : Prop extends RegistryOk s where
  addrs : (s.entries.map Prod.snd).Nodup
  fresh : ∀ p ∈ s.entries, p.2 < s.nextAddr

theorem inv_init : Inv init where
  ids := List.nodup_nil
  hash := by simp [init, entries]
  count := rfl
  range := by simp [init, entries]
  addrs := List.nodup_nil
  fresh := by simp [init, entries]

namespace Inv

/-- The registry is all the invariant speaks of. -/
theorem congr (h : Inv s) (he : s'.entries = s.entries) (hh : s'.sourceInfoHash = s.sourceInfoHash)
    (hn : s'.numOfActiveSources = s.numOfActiveSources) (ha : s'.nextAddr = s.nextAddr) : Inv s' where
  ids := he ▸ h.ids
  hash := by
    rw [he, hh]
    exact h.hash
  count := by
    have hlen := congrArg List.length he
    rw [entries, entries, List.length_map, List.length_map] at hlen
    rw [hn, hlen, h.count]
  range := he ▸ h.range
  addrs := he ▸ h.addrs
  fresh := by
    rw [he, ha]
    exact h.fresh

theorem modify (h : Inv s) (addr : ℕ) {f : NvDsUriSourceInfo → NvDsUriSourceInfo}
    (hf : ∀ e, (f e).sourceId = e.sourceId ∧ (f e).addr = e.addr) : Inv (s.modify addr f) :=
  h.congr (entries_modify addr hf) rfl rfl rfl

theorem releaseMuxSinkPad (h : Inv s) (e : NvDsUriSourceInfo) : Inv (s.releaseMuxSinkPad e) := by
  unfold NvMultiUriSrcBinCreator.releaseMuxSinkPad
  split
  · exact h
  · exact h.congr rfl rfl rfl rfl

/-- There are no more sources than ids. -/
theorem length_le (h : Inv s) : s.sourceInfoList.length ≤ 1024 := by
  have hsub : (s.entries.map fun p => p.1.toNat) ⊆ List.range 1024 := by
    intro i hi
    obtain ⟨p, hp, rfl⟩ := List.mem_map.mp hi
    have := h.range p hp
    rw [List.mem_range]
    omega
  have hnodup : (s.entries.map fun p => p.1.toNat).Nodup := by
    have hids : (s.entries.map Prod.fst).Pairwise (· ≠ ·) := h.ids
    rw [List.pairwise_map] at hids
    refine List.pairwise_map.mpr (hids.imp_of_mem fun {p q} hp hq hne heq => hne ?_)
    have := h.range p hp
    have := h.range q hq
    omega
  have hle := (hnodup.subperm hsub).length_le
  rwa [List.length_map, entries, List.length_map, List.length_range] at hle

/-- A new source is right exactly when its id is in the range and free. -/
theorem register_iff (h : Inv s) (sourceId : ℤ) :
    (RegistryOk (s.register sourceId) ↔ (0 ≤ sourceId ∧ sourceId < 1024) ∧ sourceId ∉ s.entries.map Prod.fst) ∧
      (RegistryOk (s.register sourceId) → Inv (s.register sourceId)) := by
  constructor
  · constructor
    · intro hr
      have hids := hr.ids
      rw [entries_register, List.map_cons, List.nodup_cons] at hids
      exact ⟨hr.range _ (List.mem_cons_self ..), hids.1⟩
    · rintro ⟨hrange, hnot⟩
      refine ⟨?_, fun id addr => ?_, ?_, ?_⟩
      · rw [entries_register, List.map_cons, List.nodup_cons]
        exact ⟨hnot, h.ids⟩
      · show (s.sourceInfoHash.insert sourceId s.nextAddr)[id]? = some addr ↔ _
        rw [Table.getElem?_insert, entries_register, List.mem_cons, Prod.mk.injEq]
        by_cases hid : id = sourceId
        · have hne : (id, addr) ∉ s.entries := fun hm => hnot (hid ▸ List.mem_map_of_mem hm)
          simp only [hid, ↓reduceIte, Option.some.injEq, true_and]
          rw [hid] at hne
          simp only [hne, or_false]
          exact eq_comm
        · simp only [hid, ↓reduceIte, false_and, false_or]
          exact h.hash id addr
      · show (s.numOfActiveSources + 1) % 2 ^ 32 = s.sourceInfoList.length + 1
        have := h.length_le
        rw [h.count, Nat.mod_eq_of_lt (by omega)]
      · rw [entries_register]
        exact List.forall_mem_cons.mpr ⟨hrange, h.range⟩
  · intro hr
    refine ⟨hr, ?_, ?_⟩
    · rw [entries_register, List.map_cons, List.nodup_cons]
      refine ⟨fun hm => ?_, h.addrs⟩
      obtain ⟨p, hp, hpa⟩ := List.mem_map.mp hm
      exact Nat.ne_of_lt (h.fresh p hp) hpa
    · rw [entries_register]
      exact List.forall_mem_cons.mpr ⟨Nat.lt_succ_self _, fun p hp => Nat.lt_succ_of_lt (h.fresh p hp)⟩

theorem register (h : Inv s) {sourceId : ℤ} (hrange : 0 ≤ sourceId ∧ sourceId < 1024)
    (hnot : sourceId ∉ s.entries.map Prod.fst) : Inv (s.register sourceId) :=
  (h.register_iff sourceId).2 ((h.register_iff sourceId).1.mpr ⟨hrange, hnot⟩)

/-- The id and the address of an entry determine each other. -/
theorem eq_iff (h : Inv s) {p q : ℤ × ℕ} (hp : p ∈ s.entries) (hq : q ∈ s.entries) : p.1 = q.1 ↔ p.2 = q.2 :=
  ⟨fun e => by rw [List.inj_on_of_nodup_map h.ids hp hq e], fun e => by rw [List.inj_on_of_nodup_map h.addrs hp hq e]⟩

theorem removeSourceInfo (h : Inv s) {e : NvDsUriSourceInfo} (he : (e.sourceId, e.addr) ∈ s.entries) :
    Inv (s.removeSourceInfo e) ∧ e.sourceId ∉ (s.removeSourceInfo e).entries.map Prod.fst := by
  have hmem := mem_eraseP h.addrs e.addr
  rw [← entries_removeSourceInfo] at hmem
  have hsub : (s.removeSourceInfo e).entries.Sublist s.entries := by
    rw [entries_removeSourceInfo]
    exact List.eraseP_sublist
  refine ⟨⟨⟨h.ids.sublist (hsub.map _), fun id addr => ?_, ?_, fun p hp => h.range p (hsub.subset hp)⟩,
    h.addrs.sublist (hsub.map _), fun p hp => h.fresh p (hsub.subset hp)⟩, fun hm => ?_⟩
  · show (s.sourceInfoHash.erase e.sourceId)[id]? = some addr ↔ _
    rw [Table.getElem?_erase, hmem]
    by_cases hid : id = e.sourceId
    · simp only [hid, ↓reduceIte, reduceCtorEq, false_iff, not_and, ne_eq, Decidable.not_not]
      exact fun hp => (h.eq_iff hp he).mp rfl
    · simp only [hid, ↓reduceIte]
      rw [h.hash, iff_self_and]
      exact fun hp ha => hid ((h.eq_iff hp he).mpr ha)
  · have hlen := List.length_eraseP_of_mem he (p := (·.2 = e.addr)) (by simp)
    rw [← entries_removeSourceInfo, entries, List.length_map, entries, List.length_map] at hlen
    have hpos : 0 < s.sourceInfoList.length := by
      have := List.length_pos_of_mem he
      rwa [entries, List.length_map] at this
    have := h.length_le
    show (s.numOfActiveSources + (2 ^ 32 - 1)) % 2 ^ 32 = _
    rw [hlen, h.count]
    omega
  · obtain ⟨p, hp, hpe⟩ := List.mem_map.mp hm
    obtain ⟨hps, hne⟩ := (hmem p).mp hp
    exact hne ((h.eq_iff hps he).mp hpe)

end Inv

/-- The invariant, with the same entries as in `s`. -/
structure Keeps (s t : NvMultiUriSrcBinCreator) : Prop extends Inv t where
  entries_eq : t.entries = s.entries

namespace Keeps

variable {t : NvMultiUriSrcBinCreator}

theorem refl (h : Inv s) : Keeps s s := ⟨h, rfl⟩

theorem modify (h : Keeps s t) (addr : ℕ) {f : NvDsUriSourceInfo → NvDsUriSourceInfo}
    (hf : ∀ e, (f e).sourceId = e.sourceId ∧ (f e).addr = e.addr) : Keeps s (t.modify addr f) :=
  ⟨h.toInv.modify addr hf, (entries_modify addr hf).trans h.entries_eq⟩

theorem removeSourceInfoHandlers (h : Keeps s t) (addr : ℕ) : Keeps s (t.removeSourceInfoHandlers addr) :=
  h.modify addr fun _ => ⟨rfl, rfl⟩

/-- A source that is dropped leaves its id free. -/
theorem removeSourceInfo (h : Keeps s t) {e : NvDsUriSourceInfo} (he : (e.sourceId, e.addr) ∈ s.entries) :
    Inv (t.removeSourceInfo e) ∧ (0 ≤ e.sourceId ∧ e.sourceId < 1024) ∧
      e.sourceId ∉ (t.removeSourceInfo e).entries.map Prod.fst := by
  rw [← h.entries_eq] at he
  obtain ⟨hrem, hnot⟩ := h.toInv.removeSourceInfo he
  exact ⟨hrem, h.range _ he, hnot⟩

end Keeps

/-! ### Steps and runs -/

/-- A source is stopped for good or still registered as it was. -/
theorem inv_stopSource (h : Inv s) {clears : Bool} {sourceId : ℕ} {force stopped removed : Bool} {done : Bool}
    (hs : s.stopSource clears sourceId force stopped removed = some (s', done)) :
    Inv s' ∧ (done = true → (0 ≤ (sourceId : ℤ) ∧ (sourceId : ℤ) < 1024) ∧ (sourceId : ℤ) ∉ s'.entries.map Prod.fst) := by
  rcases stopSource_cases hs with ⟨-, rfl, rfl⟩ | ⟨addr, e, list, pads, hhash, he, hlist, hcase⟩
  · exact ⟨h, by simp⟩
  · obtain ⟨rfl, hmem⟩ := sourceInfo_eq_some he
    have hid : e.sourceId = sourceId := (h.eq_iff hmem ((h.hash _ _).mp hhash)).mpr rfl
    have hkept : Keeps s { s with sourceInfoList := list, streammuxPads := pads } :=
      ⟨h.congr hlist rfl rfl rfl, hlist⟩
    rcases hcase with ⟨rfl, -, rfl⟩ | ⟨rfl, -, rfl⟩
    · exact ⟨hkept.toInv, by simp⟩
    · obtain ⟨hrem, hfree⟩ := hkept.removeSourceInfo hmem
      exact ⟨hrem, fun _ => hid ▸ hfree⟩

/-- The id that is looked up is the one that is registered again. -/
theorem inv_updateSource (h : Inv s) {sourceId : Int32} {force stopped removed created : Bool}
    (hs : s.updateSource sourceId force stopped removed created = some s') : Inv s' := by
  obtain ⟨⟨t, done⟩, ht, rfl⟩ := Option.map_eq_some_iff.mp hs
  obtain ⟨hti, hfree⟩ := inv_stopSource h ht
  dsimp only
  split
  · rename_i hdone
    obtain ⟨hrange, hnot⟩ := hfree hdone.1
    have hlo := sourceId.le_toInt
    have hhi := sourceId.toInt_lt
    have hid : (((sourceId.toInt % 2 ^ 32).toNat : ℕ) : ℤ) = sourceId.toInt := by omega
    rw [hid] at hrange hnot
    exact hti.register hrange hnot
  · exact hti

theorem registryOk_testPad (h : Inv s) (hs : s.testPad = some s') :
    (RegistryOk s' ↔ s.RegistryStepOk .testPad) ∧ (RegistryOk s' → Inv s') := by
  unfold testPad at hs
  split at hs
  · simp at hs
  · rename_i i hi
    dsimp only at hs
    simp only [RegistryStepOk, hi, Option.mem_some_iff, forall_eq']
    split at hs
    · rename_i hpad
      rw [if_pos hpad]
      split at hs
      · rename_i hlt
        obtain rfl := Option.some.inj hs
        have hc : Inv { s with searching := some (i + 1) } := h.congr rfl rfl rfl rfl
        exact ⟨iff_of_true hc.toRegistryOk hlt, fun _ => hc⟩
      · rename_i hge
        obtain rfl := Option.some.inj hs
        refine ⟨iff_of_false (fun hr => ?_) hge, (h.register_iff (-1)).2⟩
        have := ((h.register_iff (-1)).1.mp hr).1.1
        omega
    · rename_i hpad
      rw [if_neg hpad]
      obtain rfl := Option.some.inj hs
      have hb : Inv { s with baseIndex := (s.baseIndex + i) % 1024 + 1 } := h.congr rfl rfl rfl rfl
      obtain ⟨hiff, hinv⟩ := hb.register_iff (((s.baseIndex + i) % 1024 : ℕ) : ℤ)
      refine ⟨hiff.trans (and_iff_right ?_), hinv⟩
      have := Nat.mod_lt (s.baseIndex + i) (show 0 < 1024 by omega)
      omega

/-- A section whose source has not been freed keeps the registry exactly when
it does not register an id that is -1 or in use. -/
theorem registryOk_step (h : Inv s) {a : Action} (ha : ∀ addr after, a ≠ .useAfterFree addr after)
    (hs : s.step a = some s') : (RegistryOk s' ↔ s.RegistryStepOk a) ∧ (RegistryOk s' → Inv s') := by
  have hkeep : ∀ {t}, Inv t → s.RegistryStepOk a → (RegistryOk t ↔ s.RegistryStepOk a) ∧ (RegistryOk t → Inv t) :=
    fun ht hok => ⟨iff_of_true ht.toRegistryOk hok, fun _ => ht⟩
  have hlocked : ∀ {r : Option NvMultiUriSrcBinCreator}, s.locked r = some s' → r = some s' := by
    intro r hr
    unfold locked at hr
    split at hr
    · simp at hr
    · exact hr
  cases a with
  | addSource created =>
    obtain rfl := Option.some.inj (hlocked hs)
    refine hkeep ?_ trivial
    split
    · exact h.congr rfl rfl rfl rfl
    · exact h
  | testPad => exact registryOk_testPad h hs
  | removeSource sourceId force stopped removed =>
    obtain ⟨⟨t, done⟩, ht, rfl⟩ := Option.map_eq_some_iff.mp (hlocked hs)
    exact hkeep (inv_stopSource h ht).1 trivial
  | updateSource sourceId force stopped removed created => exact hkeep (inv_updateSource h (hlocked hs)) trivial
  | newPad addr pad =>
    simp only [step, newPad] at hs
    split at hs
    · simp at hs
    · split at hs
      · obtain rfl := Option.some.inj hs
        have hm := h.modify addr (f := fun e => { e with muxSinkPad := pad, probeEosHandling := true })
          fun _ => ⟨rfl, rfl⟩
        exact hkeep (hm.congr rfl rfl rfl rfl) trivial
      · simp at hs
  | probeEos addr =>
    simp only [step, probeEos] at hs
    split at hs
    · simp at hs
    · split at hs
      · obtain rfl := Option.some.inj hs
        have hm := h.modify addr (f := fun e => { e with probeEosHandling := false }) fun _ => ⟨rfl, rfl⟩
        exact hkeep (hm.congr rfl rfl rfl rfl) trivial
      · simp at hs
  | uribinRemoval removed stopped =>
    simp only [step, uribinRemoval] at hs
    split at hs
    · split at hs
      · simp at hs
      · rename_i e _
        have hr := h.releaseMuxSinkPad e
        split at hs <;> obtain rfl := Option.some.inj hs <;> exact hkeep (hr.congr rfl rfl rfl rfl) trivial
    · simp at hs
  | uribinRemovalDone =>
    have hs := hlocked hs
    unfold uribinRemovalDone at hs
    split at hs
    · simp at hs
    · split at hs
      · simp at hs
      · rename_i addr _ e he
        obtain ⟨rfl, hmem⟩ := sourceInfo_eq_some he
        have h₁ : Keeps s { s with removing := none } := ⟨h.congr rfl rfl rfl rfl, rfl⟩
        dsimp only at hs
        split at hs <;> obtain rfl := Option.some.inj hs
        · exact hkeep ((h₁.removeSourceInfoHandlers e.addr).removeSourceInfo hmem).1 trivial
        · exact hkeep h₁.toInv trivial
  | removeElem addr =>
    have hs := hlocked hs
    unfold removeElem at hs
    split at hs
    · simp at hs
    · rename_i e he
      obtain ⟨rfl, hmem⟩ := sourceInfo_eq_some he
      split at hs
      · obtain rfl := Option.some.inj hs
        exact hkeep (((Keeps.refl h).removeSourceInfoHandlers e.addr).removeSourceInfo hmem).1 trivial
      · simp at hs
  | useAfterFree addr after => exact absurd rfl (ha addr after)

/-- **List, hash and counter agree.** In every run whose searches for an id end
at a free one and that uses no freed source, in every state; and such a run
goes on to do so exactly when its next section meets the condition. -/
theorem registryOk_run (h : Reach step RegistryStepOk (· = init) s) :
    RegistryOk s ∧ ∀ a s', (∀ addr after, a ≠ .useAfterFree addr after) → s.step a = some s' →
      (RegistryOk s' ↔ s.RegistryStepOk a) := by
  have hinv : Inv s := by
    refine h.invariant (fun s hs => hs ▸ inv_init) fun t a t' ht hok hs => ?_
    have ha : ∀ addr after, a ≠ .useAfterFree addr after := by
      rintro addr after rfl
      exact hok
    obtain ⟨hiff, hi⟩ := registryOk_step ht ha hs
    exact hi (hiff.mpr hok)
  exact ⟨hinv.toRegistryOk, fun a s' ha hs => (registryOk_step hinv ha hs).1⟩

/-- Two sources get their pads; the first is updated and ends by itself, the
second is removed. -/
def addedAndRemoved : List Action :=
  [.addSource true, .testPad, .newPad 0 (some 0), .addSource true, .testPad, .newPad 1 (some 1),
    .updateSource 0 true true true true, .newPad 2 (some 0), .probeEos 2, .uribinRemoval true true,
    .removeSource 1 true true true, .uribinRemovalDone]

theorem registryOk_run_addedAndRemoved :
    let s := (exec step RegistryStepOk init addedAndRemoved).get (by decide +kernel)
    RegistryOk s ∧ ∀ a s', (∀ addr after, a ≠ .useAfterFree addr after) → s.step a = some s' →
      (RegistryOk s' ↔ s.RegistryStepOk a) :=
  registryOk_run (.of_exec addedAndRemoved (.init rfl) (Option.some_get _).symm)

/-- One source after the other is added and gets its pad. -/
theorem reach_pads : ∀ k ≤ 1024, ∃ s, Reach step anyStep (· = init) s ∧ s.searching = none ∧
    s.baseIndex = k ∧ s.nextAddr = k ∧ ∀ i, i ∈ s.streammuxPads ↔ i < k
  | 0, _ => ⟨init, .init rfl, rfl, rfl, rfl, by simp [init]⟩
  | k + 1, hk => by
    obtain ⟨s, hr, hsearch, hbase, hnext, hpads⟩ := reach_pads k (by omega)
    have hmod : (s.baseIndex + 0) % 1024 = k := by omega
    have hnot : k ∉ s.streammuxPads := by simp [hpads]
    have h₁ : s.step (.addSource true) = some { s with searching := some 0 } := by simp [step, locked, hsearch]
    have h₂ : step { s with searching := some 0 } .testPad =
        some (({ s with baseIndex := k + 1, searching := some 0 } : NvMultiUriSrcBinCreator).register k) := by
      simp only [step, testPad, hmod, hnot, ↓reduceIte]
    obtain ⟨t, h₃, ht⟩ : ∃ t, step (({ s with baseIndex := k + 1, searching := some 0 } :
        NvMultiUriSrcBinCreator).register k) (.newPad k (some k)) = some t ∧ t.searching = none ∧
        t.baseIndex = k + 1 ∧ t.nextAddr = k + 1 ∧ t.streammuxPads = k :: s.streammuxPads := by
      refine ⟨_, by simp [step, newPad, sourceInfo, register, hnext]; rfl, rfl, rfl, rfl, rfl⟩
    refine ⟨t, ((hr.step trivial h₁).step trivial h₂).step trivial h₃, ht.1, ht.2.1, ht.2.2.1, fun i => ?_⟩
    rw [ht.2.2.2, List.mem_cons, hpads]
    omega

/-- The next search passes all of them. -/
theorem reach_searching : ∀ i < 1024, ∃ s, Reach step anyStep (· = init) s ∧ s.searching = some i ∧
    s.baseIndex = 1024 ∧ ∀ j, j ∈ s.streammuxPads ↔ j < 1024
  | 0, _ => by
    obtain ⟨s, hr, hsearch, hbase, -, hpads⟩ := reach_pads 1024 (Nat.le_refl _)
    have h₁ : s.step (.addSource true) = some { s with searching := some 0 } := by simp [step, locked, hsearch]
    exact ⟨_, hr.step trivial h₁, rfl, hbase, hpads⟩
  | i + 1, hi => by
    obtain ⟨s, hr, hsearch, hbase, hpads⟩ := reach_searching i (by omega)
    have hmem : (s.baseIndex + i) % 1024 ∈ s.streammuxPads := (hpads _).mpr (Nat.mod_lt _ (by omega))
    have h₁ : s.step .testPad = some { s with searching := some (i + 1) } := by
      simp only [step, testPad, hsearch, hmem, ↓reduceIte, hi]
    exact ⟨_, hr.step trivial h₁, rfl, hbase, hpads⟩

/-- The 1025th source finds no id, and is registered under -1. -/
theorem registered_negative : ∃ s, Reach step anyStep (· = init) s ∧
    (∃ e ∈ s.sourceInfoList, e.sourceId = -1) ∧ ¬ RegistryOk s := by
  obtain ⟨s, hr, hsearch, hbase, hpads⟩ := reach_searching 1023 (by omega)
  have hmem : (s.baseIndex + 1023) % 1024 ∈ s.streammuxPads := (hpads _).mpr (Nat.mod_lt _ (by omega))
  have h₁ : s.step .testPad = some (s.register (-1)) := by
    simp only [step, testPad, hsearch, hmem, ↓reduceIte, Nat.lt_irrefl]
  refine ⟨_, hr.step trivial h₁, ⟨_, List.mem_cons_self .., rfl⟩, fun hok => ?_⟩
  have := (hok.range (-1, s.nextAddr) (List.mem_cons_self ..)).1
  omega

end NvMultiUriSrcBinCreator
end MultiUri
end DeepStream
