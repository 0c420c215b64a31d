/-
# What the sections of the muxer do to the pads

The look-ups, the storing of a pad and its erasure are described by what they
do to `pad` and to the number of pads with a given property (`countPads`).
The loops of `pushEvents`, `copyBatch` and `formBatch` keep whatever one round
of them keeps; `loopStep_cases` lists what a section of `push_loop` can be.
-/
import DeepStream.Mux.FormBatch
import DeepStream.Mux.PushLoop

namespace DeepStream
namespace Mux
namespace NvStreamMux

open Std

/-! ### The pads -/

theorem pad_eq_some {m : NvStreamMux} {id : ℕ} {p : SinkPad} :
    m.pad id = some p ↔ m.inputs[id]? = some (some p) := by
  rw [pad, Option.join_eq_some_iff]

theorem pad_congr {m m' : NvStreamMux} (h : m'.inputs = m.inputs) (id : ℕ) : m'.pad id = m.pad id := by
  rw [pad, h, pad]

theorem mem_inputs_of_pad {m : NvStreamMux} {id : ℕ} {p : SinkPad} (h : m.pad id = some p) :
    id ∈ m.inputs := by
  rw [TreeMap.mem_iff_isSome_getElem?, pad_eq_some.mp h]
  rfl

@[simp] theorem pad_lookup (m : NvStreamMux) (id a : ℕ) : (m.lookup id).pad a = m.pad a := by
  rw [pad, lookup, Table.touch_getElem?, pad]
  split
  · rename_i h
    rw [h.1, TreeMap.getElem?_eq_none h.2]
    rfl
  · rfl

@[simp] theorem pad_setPad (m : NvStreamMux) (id a : ℕ) (p : SinkPad) :
    (m.setPad id p).pad a = if a = id then some p else m.pad a := by
  rw [pad, setPad, TreeMap.getElem?_insert, pad]
  by_cases h : a = id
  · simp [h]
  · rw [if_neg (by simpa using Ne.symm h), if_neg h]

theorem pad_erase (m : NvStreamMux) (id a : ℕ) :
    (m.erasePad id).pad a = if a = id then none else m.pad a := by
  rw [pad, erasePad, TreeMap.getElem?_erase, pad]
  by_cases h : a = id
  · simp [h]
  · rw [if_neg (by simpa using Ne.symm h), if_neg h]

/-- The number of pads with the property `f`. -/
def countPads (m : NvStreamMux) (f : SinkPad → Bool) : ℕ :=
  (Table.holding m.inputs fun v => v.any f).card

theorem any_getElem?_eq (m : NvStreamMux) (f : SinkPad → Bool) (id : ℕ) :
    ((m.inputs[id]?).any fun v => v.any f) = (m.pad id).any f := by
  unfold pad
  cases m.inputs[id]? <;> rfl

theorem countPads_congr {m m' : NvStreamMux} {f f' : SinkPad → Bool}
    (h : ∀ id, (m.pad id).any f = (m'.pad id).any f') : m.countPads f = m'.countPads f' :=
  congrArg Finset.card (Table.holding_congr fun id => by
    rw [any_getElem?_eq, any_getElem?_eq, h])

theorem countPads_le_of_imp (m : NvStreamMux) (f f' : SinkPad → Bool) (h : ∀ p, f p → f' p) :
    m.countPads f ≤ m.countPads f' := by
  refine Finset.card_le_card fun id hid => ?_
  rw [Table.mem_holding, any_getElem?_eq, Option.any_eq_true] at hid ⊢
  obtain ⟨p, hp, hf⟩ := hid
  exact ⟨p, hp, h p hf⟩

theorem countPads_eq_zero {m : NvStreamMux} {f : SinkPad → Bool} :
    m.countPads f = 0 ↔ ∀ id p, m.pad id = some p → f p = false := by
  have hmem : ∀ id, id ∈ Table.holding m.inputs (fun v => v.any f) ↔ (m.pad id).any f = true := fun id => by
    rw [Table.mem_holding, any_getElem?_eq]
  rw [countPads, Finset.card_eq_zero, Finset.eq_empty_iff_forall_notMem]
  constructor
  · intro h id p hp
    have hid := h id
    rw [hmem, hp, Option.any_some] at hid
    exact eq_false_of_ne_true hid
  · intro h id hid
    obtain ⟨p, hp, hf⟩ := Option.any_eq_true _ _ |>.mp ((hmem id).mp hid)
    rw [h id p hp] at hf
    cases hf

theorem pad_handleStop (m : NvStreamMux) (id : ℕ) : m.handleStop.pad id = (m.pad id).map fun p =>
    if m.frameNumResetOnEos then { p.reset with frameCount := 0 } else p.reset := by
  rw [pad, NvStreamMux.handleStop, TreeMap.getElem?_map, pad]
  cases m.inputs[id]? <;> rfl

/-- Storing a pad changes the count by what it and the pad it replaces
contribute. -/
theorem countPads_setPad (m : NvStreamMux) (id : ℕ) (p : SinkPad) (f : SinkPad → Bool) :
    (m.setPad id p).countPads f + (if (m.pad id).any f then 1 else 0) =
      m.countPads f + if f p then 1 else 0 := by
  rw [← any_getElem?_eq]
  exact Table.card_holding_insert m.inputs (fun v => v.any f) id (some p)

theorem countPads_erasePad (m : NvStreamMux) (id : ℕ) (f : SinkPad → Bool) :
    (m.erasePad id).countPads f + (if (m.pad id).any f then 1 else 0) = m.countPads f := by
  rw [← any_getElem?_eq]
  exact Table.card_holding_erase m.inputs (fun v => v.any f) id

/-- A count that takes in the whole map takes in every pad. -/
theorem of_countPads_eq_size {m : NvStreamMux} {f : SinkPad → Bool}
    (h : m.countPads f = m.inputs.size) {id : ℕ} {p : SinkPad} (hp : m.pad id = some p) : f p :=
  Table.all_of_card_holding (m := m.inputs) (p := fun v => v.any f) h (pad_eq_some.mp hp)

/-! ### The events of one pad -/

/-- The pad goes idle in this `push_events`. -/
def turnsIdle (p : SinkPad) : Prop := p.switchedToIdle ∧ p.queue = []

/-- `m'` and `q` are what `push_events` makes of the muxer and of a pad whose
events it has pushed. -/
structure Settled (m m' : NvStreamMux) (p q : SinkPad) : Prop where
  inputs : m'.inputs = m.inputs
  allPadsEos : m'.allPadsEos = m.allPadsEos
  synchBuffer : m'.batchPolicy.synchBuffer = m.batchPolicy.synchBuffer
  srcPad : m'.srcPad = m.srcPad
  queue : q.queue = p.queue
  eos : q.eos = p.eos
  switchedToIdle : q.switchedToIdle ↔ p.switchedToIdle ∧ p.queue ≠ []
  exact : p.Exact → q.Exact
  counted : turnsIdle p → p.eos →
    m'.padsGotEosAndEmptyInQ = wrapAdd 32 m.padsGotEosAndEmptyInQ 1 ∧
      m'.batchPolicy.numSourcesEos = wrapAdd 32 m.batchPolicy.numSourcesEos 1
  notCounted : ¬ (turnsIdle p ∧ p.eos) →
    m'.padsGotEosAndEmptyInQ = m.padsGotEosAndEmptyInQ ∧
      m'.batchPolicy.numSourcesEos = m.batchPolicy.numSourcesEos

theorem Settled.pad {m m' : NvStreamMux} {p q : SinkPad} (h : Settled m m' p q) (id : ℕ) :
    m'.pad id = m.pad id :=
  pad_congr h.inputs id

theorem goIdle_settled (m : NvStreamMux) (p : SinkPad) :
    Settled m (goIdle m p).1 p (goIdle m p).2 := by
  unfold goIdle
  by_cases hturn : turnsIdle p
  · rw [if_pos ⟨hturn.1, List.length_eq_zero_iff.mpr hturn.2⟩]
    by_cases he : p.eos
    · rw [if_pos he]
      cases m.frameNumResetOnEos <;>
        exact ⟨rfl, rfl, rfl, rfl, rfl, rfl, ⟨nofun, fun h => absurd hturn.2 h.2⟩,
          fun h => ⟨h.count, h.lt, h.waiting⟩, fun _ _ => ⟨rfl, rfl⟩, fun h => absurd ⟨hturn, he⟩ h⟩
    · rw [if_neg he]
      exact ⟨rfl, rfl, rfl, rfl, rfl, rfl, ⟨nofun, fun h => absurd hturn.2 h.2⟩,
        fun h => ⟨h.count, h.lt, h.waiting⟩, fun _ h => absurd h he, fun _ => ⟨rfl, rfl⟩⟩
  · rw [if_neg (by rwa [List.length_eq_zero_iff])]
    exact ⟨rfl, rfl, rfl, rfl, rfl, rfl, ⟨fun h => ⟨h, fun hq => hturn ⟨h, hq⟩⟩, And.left⟩, id,
      fun h => absurd h hturn, fun _ => ⟨rfl, rfl⟩⟩

theorem goActive_settled {m m' : NvStreamMux} {p q : SinkPad} (h : Settled m m' p q) :
    Settled m (goActive m' q).1 p (goActive m' q).2 := by
  unfold goActive
  split
  · exact ⟨h.inputs, h.allPadsEos, h.synchBuffer, h.srcPad, h.queue, h.eos, h.switchedToIdle,
      fun hp => ⟨(h.exact hp).count, (h.exact hp).lt, (h.exact hp).waiting⟩, h.counted, h.notCounted⟩
  · exact h

theorem pushEventsOfPad_eq {m : NvStreamMux} {id : ℕ} {p : SinkPad} (hp : m.pad id = some p) :
    ∃ m' q, m.pushEventsOfPad id = m'.setPad id q ∧
      Settled { m with srcPad := m.srcPad ++ p.pushEvents.2 } m' p.pushEvents.1 q := by
  unfold pushEventsOfPad
  rw [hp]
  exact ⟨_, _, rfl, goActive_settled (goIdle_settled _ _)⟩

theorem pushEventsOfPad_none {m : NvStreamMux} {id : ℕ} (hp : m.pad id = none) :
    m.pushEventsOfPad id = m := by
  unfold pushEventsOfPad
  rw [hp]

/-! ### The buffers of one pad -/

/-- `m'` differs from `m` in nothing that the counters depend on. -/
structure Quiet (m m' : NvStreamMux) : Prop where
  pad : ∀ id, m'.pad id = m.pad id
  padsGotEos : m'.padsGotEosAndEmptyInQ = m.padsGotEosAndEmptyInQ
  sourcesEos : m'.batchPolicy.numSourcesEos = m.batchPolicy.numSourcesEos
  allPadsEos : m'.allPadsEos → m.allPadsEos

section CopyOne

variable {ω : Type*} (copyBuf : CopyBuf ω)

/-- The buffers copied are the first of the queue, and events stay. -/
theorem copyQueue_spec (n : ℕ) (out : ω) (total : ℕ) (q : List QueueEntry) :
    BufErase q (copyQueue copyBuf n out total q).queue ∧
      buffersOf q = (copyQueue copyBuf n out total q).copied.map Prod.fst ++
        buffersOf (copyQueue copyBuf n out total q).queue := by
  fun_induction copyQueue copyBuf n out total q with
  | case1 out total q => exact ⟨.refl q, rfl⟩
  | case2 n out total => exact ⟨.refl [], rfl⟩
  | case3 out total n e q r ih => exact ⟨.keep _ ih.1, ih.2⟩
  | case4 out total n b q out' h => exact ⟨.refl _, rfl⟩
  | case5 out total n b q k out' h r ih => exact ⟨.drop b ih.1, congrArg (b :: ·) ih.2⟩

theorem copySource_eq {st : CopyState ω} {id : ℕ} {p : SinkPad} (count : ℤ)
    (hp : st.mux.pad id = some p) :
    ∃ m q copied, (copySource copyBuf count st id).mux = m.setPad id q ∧
      (copySource copyBuf count st id).copied = st.copied ++ copied.map (fun b => (id, b)) ∧
      m.inputs = st.mux.inputs ∧ Quiet st.mux m ∧
      m.batchPolicy.synchBuffer = st.mux.batchPolicy.synchBuffer ∧ m.srcPad = st.mux.srcPad ∧
      p.Trims q ∧ buffersOf p.queue = copied ++ buffersOf q.queue := by
  have hlookup : st.mux.lookup id = st.mux := by
    unfold lookup Table.touch
    rw [if_pos (mem_inputs_of_pad hp)]
  obtain ⟨herase, hbuffers⟩ := copyQueue_spec copyBuf count.toNat st.out st.totalCopied p.queue
  unfold copySource
  dsimp only
  rw [hlookup, hp]
  dsimp only
  generalize hr : copyQueue copyBuf count.toNat st.out st.totalCopied p.queue = r at herase hbuffers ⊢
  have hlen : (buffersOf p.queue).length = r.copied.length + (buffersOf r.queue).length := by
    simp [hbuffers]
  obtain ⟨c, w, hc, -⟩ := SinkPad.popBufferDone_iterate
    { p with queue := r.queue, frameCount := wrapAdd 64 p.frameCount (r.copied.map Prod.snd).sum }
    r.copied.length
  have htrims := (SinkPad.Trims.of_pops (p := p) (q := { p with
    queue := r.queue
    frameCount := wrapAdd 64 p.frameCount (r.copied.map Prod.snd).sum })
    r.copied.length herase hlen rfl rfl rfl rfl rfl).adjustEventIndices r.copied.length false
  rw [hc] at htrims ⊢
  refine ⟨_, _, r.copied.map Prod.fst, rfl, by simp, rfl, ⟨fun _ => rfl, rfl, ?_, fun h => h⟩, ?_, rfl, htrims,
    hbuffers⟩
  · dsimp only
    split <;> simp
  · dsimp only
    split <;> simp

theorem copySource_none {st : CopyState ω} {id : ℕ} (count : ℤ) (hp : st.mux.pad id = none) :
    copySource copyBuf count st id = { st with mux := st.mux.lookup id } := by
  unfold copySource
  dsimp only
  rw [pad_lookup, hp]

end CopyOne

/-! ### The loops -/

section Loops

variable {ω : Type*} {copyBuf : CopyBuf ω}

/-- What one round of the loop of `push_events` keeps, and its end, holds after
`push_events`. -/
theorem pushEvents_invariant {I : NvStreamMux → Prop} (hpad : ∀ m id, I m → I (m.pushEventsOfPad id))
    (hend : ∀ m, I m → I m.updateAllPadsEos) {m m' : NvStreamMux} {order : List ℕ} (h : I m)
    (hm : m.pushEvents order = some m') : I m' := by
  unfold pushEvents at hm
  split at hm
  · cases hm
    exact hend _ (List.foldlRecOn order _ h fun m hm id _ => hpad m id hm)
  · cases hm

/-- What one round of the loop of `copy_batch` keeps holds after `copy_batch`. -/
theorem copyBatch_invariant {I : CopyState ω → Prop}
    (hsource : ∀ st count id, I st → I (copySource copyBuf count st id)) {m : NvStreamMux} {out : ω}
    {order : List ℕ} {r : CopyState ω} (h : I ⟨m, out, 0, []⟩)
    (hr : m.copyBatch copyBuf out order = some r) : I r := by
  unfold copyBatch at hr
  split at hr
  · cases hr
  · split at hr
    · cases hr
      exact List.foldlRecOn order _ h fun st hst id _ => hsource st _ id hst
    · cases hr

/-- What the trimming of a pad keeps holds after `form_batch`, which trims pads
only when buffers are synchronized. -/
theorem formBatch_invariant {I : NvStreamMux → Prop}
    (htrim : ∀ (m : NvStreamMux) id p p', m.batchPolicy.synchBuffer → m.pad id = some p → p.Trims p' →
      I m → I (m.setPad id p'))
    (hrest : ∀ (m : NvStreamMux) saved batch, I m →
      I { m with batchPolicy := { m.batchPolicy with lastBatchState := saved }, batch := batch })
    {m m' : NvStreamMux} {env : ℕ → OfferEnv} (h : I m) (hm : m.formBatch env = some m') : I m' := by
  obtain ⟨r, hr, rfl⟩ := Option.map_eq_some_iff.mp hm
  have hoffer : ∀ (st : BatchPolicy.FormState) (id : ℕ), I { m with inputs := st.inputs } →
      I { m with inputs := (m.batchPolicy.offer env st id).inputs } := by
    intro st id hst
    unfold BatchPolicy.offer
    rcases BatchPolicy.updateWithSource_cases m.batchPolicy st.inputs st.batch id
      (env st.offered.length) with hc | hc | ⟨p, n, inputs', hp, -, -, hinputs, hc⟩ <;> rw [hc]
    · exact hst
    · exact hst
    · rcases hinputs with rfl | ⟨hsync, p', htrims, rfl⟩
      · exact hst
      · exact htrim { m with inputs := st.inputs } id p p' hsync (pad_eq_some.mpr hp) htrims hst
  obtain ⟨hinputs, saved, hsaved⟩ := BatchPolicy.formBatch_invariant
    (I := fun st => I { m with inputs := st.inputs }) (fun st id _ => hoffer st id) h hr
  rw [hsaved]
  exact hrest _ saved _ hinputs

/-- What a section of `push_loop` does: it moves on, pushes events, forms a
batch, copies it, pushes it or empties it. -/
inductive LoopSection (copyBuf : CopyBuf ω) (m : NvStreamMux) :
    LoopPc ω → NvStreamMux → LoopPc ω → Prop
  | move {pc pc' : LoopPc ω} (hpc : pc.inFlight = []) (hpc' : pc'.inFlight = []) :
      LoopSection copyBuf m pc m pc'
  | pushEvents {pc pc' : LoopPc ω} {m' : NvStreamMux} (order : List ℕ) (hpc : pc.inFlight = [])
      (hpc' : pc'.inFlight = []) (hm : m.pushEvents order = some m') : LoopSection copyBuf m pc m' pc'
  | formBatch {pc pc' : LoopPc ω} {m' : NvStreamMux} (env : ℕ → OfferEnv) (hpc : pc.inFlight = [])
      (hpc' : pc'.inFlight = []) (hm : m.formBatch env = some m') : LoopSection copyBuf m pc m' pc'
  | copy {out : ω} {r : CopyState ω} (order : List ℕ) (hr : m.copyBatch copyBuf out order = some r) :
      LoopSection copyBuf m (.copy out) r.mux (.push r.out r.copied)
  | push (out : ω) (copied : List (ℕ × BufferWrapper)) :
      LoopSection copyBuf m (.push out copied) (m.pushBatch copied) (.reset out)
  | reset (out : ω) :
      LoopSection copyBuf m (.reset out) { m with batch := m.batch.map Batch.resetBatch } (.tail out)

theorem afterForm_section {o : Outside} {m m' : NvStreamMux} {out : ω} {pc pc' : LoopPc ω}
    (hpc : pc.inFlight = []) (h : afterForm o m out = some (m', pc')) :
    LoopSection copyBuf m pc m' pc' := by
  unfold afterForm at h
  split at h
  · cases h
  · rename_i m'' hform
    split at h
    · cases h
    · have hpc' : m'' = m' ∧ pc'.inFlight = [] := by
        repeat' split at h
        all_goals
          cases h
          exact ⟨rfl, rfl⟩
      exact .formBatch o.env hpc hpc'.2 (hpc'.1 ▸ hform)

/-- What a section of `push_loop` can be. -/
theorem loopStep_cases {o : Outside} {m m' : NvStreamMux} {pc pc' : LoopPc ω}
    (h : m.loopStep copyBuf o pc = some (m', pc')) : LoopSection copyBuf m pc m' pc' := by
  cases pc with
  | idle => cases h
  | check called out =>
    cases h
    refine .move rfl ?_
    split <;> rfl
  | enter called out =>
    simp only [loopStep] at h
    split at h
    · cases h
      exact .move rfl rfl
    · split at h
      · exact afterForm_section rfl h
      · cases h
        exact .move rfl rfl
  | form out => exact afterForm_section rfl h
  | waiting out =>
    simp only [loopStep] at h
    split at h
    · cases h
    · cases h
      refine .move rfl ?_
      split <;> rfl
  | wokenCheck out =>
    simp only [loopStep] at h
    split at h
    · cases h
    · cases h
      refine .move rfl ?_
      split <;> rfl
  | firstEvents out | wokenEvents out | copyEvents out | tail out =>
    obtain ⟨m'', hm, he⟩ := Option.map_eq_some_iff.mp h
    cases he
    exact .pushEvents o.order rfl rfl hm
  | copy out =>
    obtain ⟨r, hr, he⟩ := Option.map_eq_some_iff.mp h
    cases he
    exact .copy o.order hr
  | push out copied =>
    cases h
    exact .push out copied
  | reset out =>
    cases h
    exact .reset out
  | finish out =>
    cases h
    exact .move rfl rfl

end Loops

end NvStreamMux
namespace Sys

open BatchPolicy

/-- No source has properties, and the batch takes one buffer. -/
def plain : MuxConfig where
  policy :=
    { type := .none
      adaptiveBatching := false
      batchSize := 1
      maxSameSourceFrames := 1
      enableSourceRateControl := false
      enableMaxFpsControl := false
      sourceProps := [] }
  synchBuffer := false
  frameNumResetOnEos := false
  frameNumResetOnStreamReset := false

/-- The order of one pad, all buffers on time, the time up. -/
def onePad : Outside := ⟨[0], noLimits, false, true⟩

end Sys
end Mux
end DeepStream
