/-
# The muxed streams

The adaptive batch size and the test whether all pads have ended count the
entries of the map of pads. `muxed` records the pads that were added and not
removed; the entries of the map are these pads as long as every look-up by
`operator[]` is of a pad that is there (`LookupKnown`), and each look-up of
another pad enters a null pad that stays.
-/
import DeepStream.Mux.Sections

namespace DeepStream
namespace Mux

open Std Table

namespace NvStreamMux

/-- The ids of the map of pads. -/
def ids (m : NvStreamMux) : Finset ℕ := keySet m.inputs

theorem mem_ids {m : NvStreamMux} {id : ℕ} : id ∈ m.ids ↔ id ∈ m.inputs := mem_keySet

theorem ids_lookup (m : NvStreamMux) (id : ℕ) : (m.lookup id).ids = insert id m.ids :=
  keySet_touch m.inputs id none

theorem ids_setPad (m : NvStreamMux) (id : ℕ) (p : SinkPad) : (m.setPad id p).ids = insert id m.ids :=
  keySet_insert m.inputs id (some p)

theorem ids_erasePad (m : NvStreamMux) (id : ℕ) : (m.erasePad id).ids = m.ids.erase id :=
  keySet_erase m.inputs id

theorem ids_setPad_of_pad {m : NvStreamMux} {id : ℕ} {p : SinkPad} (hp : m.pad id = some p)
    (q : SinkPad) : (m.setPad id q).ids = m.ids := by
  rw [ids_setPad, Finset.insert_eq_self.mpr (mem_ids.mpr (mem_inputs_of_pad hp))]

theorem ids_pushEventsOfPad (m : NvStreamMux) (id : ℕ) : (m.pushEventsOfPad id).ids = m.ids := by
  cases hp : m.pad id with
  | none => rw [pushEventsOfPad_none hp]
  | some p =>
    obtain ⟨m', q, hm, hs⟩ := pushEventsOfPad_eq hp
    rw [hm, ids_setPad_of_pad ((hs.pad id).trans hp), ids, hs.inputs, ids]

theorem ids_pushEvents {m m' : NvStreamMux} {order : List ℕ} (hm : m.pushEvents order = some m') :
    m'.ids = m.ids :=
  pushEvents_invariant (I := fun a => a.ids = m.ids) (fun a id h => (ids_pushEventsOfPad a id).trans h)
    (fun _ h => h) rfl hm

theorem ids_formBatch {m m' : NvStreamMux} {env : ℕ → OfferEnv} (hm : m.formBatch env = some m') :
    m'.ids = m.ids :=
  formBatch_invariant (I := fun a => a.ids = m.ids)
    (fun _ _ _ _ _ hp _ h => (ids_setPad_of_pad hp _).trans h) (fun _ _ _ h => h) rfl hm

section Copy

variable {ω : Type*} {copyBuf : CopyBuf ω}

theorem ids_copySource (count : ℤ) (st : CopyState ω) (id : ℕ) :
    (copySource copyBuf count st id).mux.ids = insert id st.mux.ids := by
  cases hp : st.mux.pad id with
  | none => rw [copySource_none copyBuf count hp, ids_lookup]
  | some p =>
    obtain ⟨m', q, copied, hm, -, hin, -, -, -, -, -⟩ := copySource_eq copyBuf count hp
    rw [hm, ids_setPad, ids, hin, ids]

/-- `copy_batch` enters every source of the batch. -/
theorem ids_copyBatch {m : NvStreamMux} {b : Batch} {out : ω} {order : List ℕ} {r : CopyState ω}
    (hb : m.batch = some b) (hr : m.copyBatch copyBuf out order = some r) :
    r.mux.ids = m.ids ∪ keySet b.numSources := by
  have hfold : ∀ (l : List ℕ) (st : CopyState ω),
      (l.foldl (fun st id => copySource copyBuf (b.numSources.getD id 0) st id) st).mux.ids =
        st.mux.ids ∪ l.toFinset := by
    intro l
    induction l with
    | nil =>
      intro st
      simp
    | cons id l ih =>
      intro st
      rw [List.foldl_cons, ih, ids_copySource, List.toFinset_cons, Finset.insert_union,
        Finset.union_insert]
  unfold copyBatch at hr
  rw [hb] at hr
  dsimp only at hr
  split at hr
  · rename_i horder
    cases hr
    rw [hfold, keySet, List.toFinset_eq_of_perm _ _ horder]
  · cases hr

end Copy

end NvStreamMux

/-- The action is a section of `add_pad` or `remove_pad`. -/
def Action.AddsOrRemoves {ω : Type*} : Action ω → Prop
  | .addPad _ | .removePad _ | .removePadPoll _ => True
  | _ => False

namespace Sys

variable {ω : Type*} {copyBuf : CopyBuf ω}

/-- The ids that the section looks up by `operator[]`. -/
def lookedUp (s : Sys ω) : Action ω → Finset ℕ
  | .getPad id | .addBufferLookup id | .handleFlushStop id | .handleEos id _ | .handleSegment id _
  | .handleStreamReset id _ | .updatePadMimetype id _ | .getPadMimetype id => {id}
  | .loop _ =>
    match s.loop, s.mux.batch with
    | .copy _, some b => keySet b.numSources
    | _, _ => ∅
  | _ => ∅

/-- Every pad that the section looks up is in the map. -/
def LookupKnown (s : Sys ω) (a : Action ω) : Prop := s.lookedUp a ⊆ s.mux.ids

instance (s : Sys ω) (a : Action ω) : Decidable (s.LookupKnown a) :=
  inferInstanceAs (Decidable (s.lookedUp a ⊆ s.mux.ids))

theorem ids_loopStep {o : Outside} {m m' : NvStreamMux} {pc pc' : LoopPc ω}
    (hpc : ∀ out, pc ≠ .copy out) (hm : m.loopStep copyBuf o pc = some (m', pc')) :
    m'.ids = m.ids := by
  cases NvStreamMux.loopStep_cases hm with
  | move => rfl
  | pushEvents order _ _ hm => exact NvStreamMux.ids_pushEvents hm
  | formBatch env _ _ hm => exact NvStreamMux.ids_formBatch hm
  | copy order hr => exact absurd rfl (hpc _)
  | push out copied => rfl
  | reset out => rfl

/-- A section of `push_loop` enters what `copy_batch` looks up. -/
theorem ids_loop {s : Sys ω} {o : Outside} {m : NvStreamMux} {pc : LoopPc ω}
    (hm : s.mux.loopStep copyBuf o s.loop = some (m, pc)) :
    m.ids = s.mux.ids ∪ s.lookedUp (.loop o) := by
  cases hloop : s.loop with
  | copy out =>
    rw [hloop] at hm
    obtain ⟨r, hr, he⟩ := Option.map_eq_some_iff.mp hm
    cases he
    cases hb : s.mux.batch with
    | none =>
      unfold NvStreamMux.copyBatch at hr
      rw [hb] at hr
      cases hr
    | some b => simp only [lookedUp, hloop, hb, NvStreamMux.ids_copyBatch hb hr]
  | _ =>
    rw [ids_loopStep (by rw [hloop]; nofun) hm]
    simp only [lookedUp, hloop, Finset.union_empty]

/-- What a section that neither adds nor removes a pad does to the map. -/
theorem ids_step {s s' : Sys ω} {a : Action ω} (ha : ¬ a.AddsOrRemoves)
    (hs : s.step copyBuf a = some s') : s'.mux.ids = s.mux.ids ∪ s.lookedUp a := by
  have hlookup : ∀ id, (s.mux.lookup id).ids = s.mux.ids ∪ {id} := fun id => by
    rw [NvStreamMux.ids_lookup, Finset.union_comm, Finset.insert_eq]
  have hset : ∀ {id : ℕ} {p : SinkPad} (q : SinkPad), (s.mux.lookup id).pad id = some p →
      ((s.mux.lookup id).setPad id q).ids = s.mux.ids ∪ {id} := fun q hp =>
    (NvStreamMux.ids_setPad_of_pad hp q).trans (hlookup _)
  cases a with
  | addPad _ | removePad _ | removePadPoll _ => exact absurd trivial ha
  | getPad id | addBufferLookup id | getPadMimetype id =>
    cases hs
    exact hlookup id
  | setAllPadsEos _ | resetStop | setBatchSize _ | setNumSurfacesPerFrame _ =>
    cases hs
    exact (Finset.union_empty _).symm
  | resetPad id =>
    obtain ⟨m, hm, rfl⟩ := Option.map_eq_some_iff.mp hs
    rw [show s.lookedUp (.resetPad id) = ∅ from rfl, Finset.union_empty]
    unfold NvStreamMux.resetPad at hm
    split at hm
    · cases hm
    · rename_i p hp
      have := NvStreamMux.ids_setPad_of_pad hp { p with eos := false }
      dsimp only at hm
      repeat' split at hm
      all_goals
        cases hm
        first
          | rfl
          | exact this
  | addBufferSize id =>
    obtain ⟨m, hm, rfl⟩ := Option.map_eq_some_iff.mp hs
    rw [show s.lookedUp (.addBufferSize id) = ∅ from rfl, Finset.union_empty]
    unfold NvStreamMux.addBufferSize at hm
    split at hm
    · cases hm
    · rename_i p hp
      cases hm
      dsimp only [onMux]
      split
      · exact NvStreamMux.ids_setPad_of_pad hp _
      · rfl
  | addBufferWait id =>
    obtain ⟨m, hm, rfl⟩ := Option.map_eq_some_iff.mp hs
    obtain ⟨p, hp, rfl⟩ := Option.map_eq_some_iff.mp hm
    rw [show s.lookedUp (.addBufferWait id) = ∅ from rfl, Finset.union_empty]
    exact NvStreamMux.ids_setPad_of_pad hp _
  | addBufferQueue id buffer =>
    obtain ⟨m, hm, rfl⟩ := Option.map_eq_some_iff.mp hs
    rw [show s.lookedUp (.addBufferQueue id buffer) = ∅ from rfl, Finset.union_empty]
    unfold NvStreamMux.addBufferQueue at hm
    split at hm
    · cases hm
    · rename_i p hp
      cases hm
      exact NvStreamMux.ids_setPad_of_pad hp _
  | handleEosCascaded id event =>
    obtain ⟨m, hm, rfl⟩ := Option.map_eq_some_iff.mp hs
    rw [show s.lookedUp (.handleEosCascaded id event) = ∅ from rfl, Finset.union_empty]
    unfold NvStreamMux.handleEosCascaded at hm
    split at hm
    · cases hm
    · rename_i p hp
      cases hm
      exact NvStreamMux.ids_setPad_of_pad hp _
  | handleFlushStop id =>
    cases hs
    unfold onMux NvStreamMux.handleFlushStop
    dsimp only
    split
    · exact hlookup id
    · rename_i p hp
      exact hset _ hp
  | handleEos id event =>
    cases hs
    unfold onMux NvStreamMux.handleEos
    dsimp only
    split
    · exact hlookup id
    · rename_i p hp
      split
      · exact hlookup id
      · exact hset _ hp
  | handleSegment id event =>
    cases hs
    unfold onMux NvStreamMux.handleSegment
    dsimp only
    split
    · exact hlookup id
    · rename_i p hp
      exact hset _ hp
  | handleStreamReset id event =>
    cases hs
    unfold onMux NvStreamMux.handleStreamReset
    dsimp only
    split
    · exact hlookup id
    · rename_i p hp
      exact hset _ hp
  | updatePadMimetype id mimeType =>
    cases hs
    unfold onMux NvStreamMux.updatePadMimetype
    dsimp only
    split
    · exact hlookup id
    · rename_i p hp
      exact hset _ hp
  | handleStop =>
    cases hs
    rw [show s.lookedUp (.handleStop) = ∅ from rfl, Finset.union_empty]
    ext id
    rw [NvStreamMux.mem_ids, NvStreamMux.mem_ids]
    exact TreeMap.mem_map
  | pushEvents order =>
    obtain ⟨m, hm, rfl⟩ := Option.map_eq_some_iff.mp hs
    rw [show s.lookedUp (.pushEvents order) = ∅ from rfl, Finset.union_empty]
    exact NvStreamMux.ids_pushEvents hm
  | pushLoop out =>
    simp only [step] at hs
    split at hs
    · cases hs
      exact (Finset.union_empty _).symm
    · cases hs
  | loop o =>
    obtain ⟨⟨m, pc⟩, hm, rfl⟩ := Option.map_eq_some_iff.mp hs
    exact ids_loop hm

theorem muxed_eq {s s' : Sys ω} {a : Action ω} (ha : ¬ a.AddsOrRemoves)
    (hs : s.step copyBuf a = some s') : s'.muxed = s.muxed := by
  cases a with
  | addPad _ | removePad _ | removePadPoll _ => exact absurd trivial ha
  | resetPad _ | addBufferSize _ | addBufferWait _ | addBufferQueue _ _ | handleEosCascaded _ _ | pushEvents _
  | loop _ =>
    obtain ⟨m, hm, rfl⟩ := Option.map_eq_some_iff.mp hs
    rfl
  | pushLoop out =>
    simp only [step] at hs
    split at hs
    · cases hs
      rfl
    · cases hs
  | _ =>
    cases hs
    rfl

/-- `muxed` changes with the pads that are added and removed. -/
theorem muxed_step {s s' : Sys ω} {a : Action ω} (h : s.mux.ids = s.muxed) (hok : s.LookupKnown a)
    (hs : s.step copyBuf a = some s') : s'.mux.ids = s'.muxed := by
  by_cases ha : a.AddsOrRemoves
  · cases a with
    | addPad id =>
      cases hs
      exact (NvStreamMux.ids_setPad _ id _).trans (congrArg _ h)
    | removePad id =>
      obtain ⟨⟨m, waits⟩, hm, rfl⟩ := Option.map_eq_some_iff.mp hs
      unfold NvStreamMux.removePad at hm
      split at hm
      · rename_i hid
        cases hm
        have hnot : id ∉ s.muxed := by rwa [← h, NvStreamMux.mem_ids]
        exact h.trans (Finset.erase_eq_of_notMem hnot).symm
      · split at hm
        · cases hm
        · dsimp only at hm
          repeat' split at hm
          all_goals
            cases hm
            first
              | exact (NvStreamMux.ids_erasePad _ id).trans (congrArg (Finset.erase · id) h)
              | exact h
    | removePadPoll i =>
      simp only [step] at hs
      split at hs
      · cases hs
      · rename_i id count hi
        obtain ⟨⟨m, waits⟩, hm, rfl⟩ := Option.map_eq_some_iff.mp hs
        unfold NvStreamMux.removePadPoll at hm
        split at hm
        · cases hm
        · repeat' split at hm
          all_goals
            cases hm
            first
              | exact (NvStreamMux.ids_erasePad _ id).trans (congrArg (Finset.erase · id) h)
              | exact h
    | _ => exact absurd ha id
  · rw [ids_step ha hs, muxed_eq ha hs, ← h]
    exact Finset.union_eq_left.mpr hok

/-- **When the muxed streams are the pads.** A section that neither adds nor
removes a pad leaves the keys of the map alone exactly when its look-ups are of
pads that are there; and in a run in which all look-ups are, the keys are the
pads that were added and not removed. -/
theorem keys_unchanged_iff {s s' : Sys ω} {a : Action ω} (ha : ¬ a.AddsOrRemoves)
    (hs : s.step copyBuf a = some s') :
    (keySet s'.mux.inputs = keySet s.mux.inputs ↔ s.LookupKnown a) ∧
      (Reach (step copyBuf) LookupKnown Started s → keySet s.mux.inputs = s.muxed) := by
  constructor
  · have := ids_step ha hs
    unfold NvStreamMux.ids at this
    rw [this]
    exact Finset.union_eq_left
  · intro h
    refine h.invariant (I := fun s : Sys ω => s.mux.ids = s.muxed) ?_ fun _ _ _ hI hok hst =>
      muxed_step hI hok hst
    rintro _ ⟨config, rfl⟩
    rfl

/-- A stream comes and goes. -/
def addedAndRemoved : List (Action GstBatchBufferWrapper) :=
  [.addPad 0, .getPad 0, .handleEos 0 .eos, .pushEvents [0], .removePad 0]

theorem keys_unchanged_iff_getPad :
    let s := (exec (step GstBatchBufferWrapper.copyBuf) LookupKnown (new plain)
      (addedAndRemoved.take 3)).get (by decide +kernel)
    (keySet (s.mux.getPad 0).1.inputs = keySet s.mux.inputs ↔ s.LookupKnown (.getPad 0)) ∧
      keySet s.mux.inputs = s.muxed :=
  ⟨(@keys_unchanged_iff _ GstBatchBufferWrapper.copyBuf _ _ (.getPad 0) id rfl).1,
    (keys_unchanged_iff (a := .getPad 0) id rfl).2 (Reach.get_exec ⟨plain, rfl⟩ _)⟩

/-- The state change to `READY` looks up the pad that was removed, since
`sink_pad_caps` still has its key: the map has an entry again, and no pad. -/
theorem lookup_after_removal : ∃ s s' : Sys GstBatchBufferWrapper,
    Reach (step GstBatchBufferWrapper.copyBuf) anyStep Started s ∧
      s.step GstBatchBufferWrapper.copyBuf (.getPad 0) = some s' ∧
      s'.muxed = ∅ ∧ keySet s'.mux.inputs ≠ keySet s.mux.inputs := by
  refine ⟨_, _, Reach.get_exec (s := new plain) (α := Action GstBatchBufferWrapper) ⟨plain, rfl⟩
    (show (exec _ anyStep (new plain) addedAndRemoved).isSome by decide +kernel), rfl, ?_, ?_⟩
  · decide +kernel
  · decide +kernel

end Sys
end Mux
end DeepStream
