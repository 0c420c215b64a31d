/-
# Counting the streams that have ended

`push_events` counts a pad when its queue is empty after the end of the stream,
and `reset_pad` and `remove_pad` take it out again. A pad that is still to be
counted has `switched_to_idle` set and an event at the end of its queue
(`PadOk`), so that no batch can empty the queue behind the back of
`push_events`; the counters are then exact as long as every section meets
`EosStepOk`.

`remove_pad` breaks this for a pad that has no end of the stream yet: it takes
such a pad out of both counters, although it was counted in neither.
-/
import DeepStream.Mux.Sections

namespace DeepStream
namespace Mux

open Std BatchPolicy

/-- The stream has ended and its queue has been drained. -/
def drained (p : SinkPad) : Bool := p.eos && p.queue.isEmpty

/-- What `push_events` relies on to count a pad once. -/
structure PadOk (p : SinkPad) : Prop where
  pending : p.eos → p.queue ≠ [] → p.switchedToIdle ∧ lastIsEvent p.queue
  done : drained p → ¬ p.switchedToIdle

theorem drained_iff {p : SinkPad} : drained p ↔ p.eos ∧ p.queue = [] := by
  simp [drained]

theorem PadOk.of_not_eos {p : SinkPad} (h : ¬ p.eos) : PadOk p :=
  ⟨fun he => absurd he h, fun hd => absurd (drained_iff.mp hd).1 h⟩

/-- The erasure of buffers neither drains a pad that has ended nor undoes it. -/
theorem PadOk.trims {p p' : SinkPad} (h : PadOk p) (ht : p.Trims p') :
    PadOk p' ∧ drained p' = drained p := by
  have hd : drained p' ↔ drained p := by
    rw [drained_iff, drained_iff, ht.eos]
    refine and_congr_right fun he => ⟨fun hq' => ?_, fun hq => ?_⟩
    · by_contra hq
      exact lastIsEvent_ne_nil (ht.queue.lastIsEvent (h.pending he hq).2) hq'
    · have := ht.queue
      rw [hq] at this
      exact this.nil_left
  refine ⟨⟨fun he hq' => ?_, fun hd' => ?_⟩, Bool.eq_iff_iff.mpr hd⟩
  · rw [ht.eos] at he
    have hq : p.queue ≠ [] := fun hq => hq' (drained_iff.mp (hd.mpr (drained_iff.mpr ⟨he, hq⟩))).2
    rw [ht.switchedToIdle]
    exact ⟨(h.pending he hq).1, ht.queue.lastIsEvent (h.pending he hq).2⟩
  · rw [ht.switchedToIdle]
    exact h.done (hd.mp hd')

/-- An event on a pad that is not drained yet. -/
theorem PadOk.queueEvent {p : SinkPad} (h : PadOk p) (hd : ¬ drained p) (e : EventWrapper) :
    PadOk (p.queueEntry (.event e)) ∧ drained (p.queueEntry (.event e)) = drained p := by
  have hnot : ¬ drained (p.queueEntry (.event e)) := by simp [drained_iff]
  refine ⟨⟨fun he _ => ?_, fun hd' => absurd hd' hnot⟩, ?_⟩
  · rw [SinkPad.queueEntry_eos] at he
    have hq : p.queue ≠ [] := fun hq => hd (drained_iff.mpr ⟨he, hq⟩)
    simp [(h.pending he hq).1]
  · rw [Bool.eq_false_iff.mpr hd, Bool.eq_false_iff.mpr hnot]

namespace NvStreamMux

/-- Both counters are the number of the pads that have ended and been drained,
and `all_pads_eos` says that these are all. -/
structure EosExact (m : NvStreamMux) : Prop where
  padsGotEos : m.padsGotEosAndEmptyInQ = m.countPads drained
  sourcesEos : m.batchPolicy.numSourcesEos = m.countPads drained
  allPadsEos : m.allPadsEos → ∀ id p, m.pad id = some p → drained p

structure EosInv (m : NvStreamMux) : Prop extends EosExact m where
  few : m.countPads (fun _ => true) < 2 ^ 32
  padOk : ∀ id p, m.pad id = some p → PadOk p

/-- The counters do not depend on the rest of the state. -/
theorem EosInv.congr {m m' : NvStreamMux} (h : EosInv m) (hq : Quiet m m') : EosInv m' := by
  have hcount : ∀ f, m'.countPads f = m.countPads f := fun f =>
    countPads_congr fun id => by rw [hq.pad]
  exact
    { padsGotEos := by rw [hq.padsGotEos, hcount, h.padsGotEos]
      sourcesEos := by rw [hq.sourcesEos, hcount, h.sourcesEos]
      allPadsEos := fun ha id p => by rw [hq.pad]; exact h.allPadsEos (hq.allPadsEos ha) id p
      few := by rw [hcount]; exact h.few
      padOk := fun id p => by rw [hq.pad]; exact h.padOk id p }

/-- A pad is stored, and the counters follow what it and the pad it replaces
contribute. -/
theorem EosInv.store {m m' : NvStreamMux} (h : EosInv m) {id : ℕ} {p : SinkPad}
    (hpad : ∀ a, m'.pad a = m.pad a)
    (hp : m'.padsGotEosAndEmptyInQ + (if (m.pad id).any drained then 1 else 0) =
      m.padsGotEosAndEmptyInQ + if drained p then 1 else 0)
    (he : m'.batchPolicy.numSourcesEos + (if (m.pad id).any drained then 1 else 0) =
      m.batchPolicy.numSourcesEos + if drained p then 1 else 0)
    (ha : m'.allPadsEos → m.allPadsEos ∧ drained p)
    (hfew : (m.pad id).isSome ∨ m.countPads (fun _ => true) + 1 < 2 ^ 32) (hok : PadOk p) :
    EosInv (m'.setPad id p) := by
  have hcount : ∀ f, m'.countPads f = m.countPads f := fun f => countPads_congr fun a => by rw [hpad]
  have hset := countPads_setPad m' id p drained
  have hall := countPads_setPad m' id p fun _ => true
  rw [hcount, hpad] at hset hall
  have := h.padsGotEos
  have := h.sourcesEos
  exact
    { padsGotEos := by
        show m'.padsGotEosAndEmptyInQ = _
        omega
      sourcesEos := by
        show m'.batchPolicy.numSourcesEos = _
        omega
      allPadsEos := fun ha' a q hq => by
        rw [pad_setPad, hpad] at hq
        split at hq
        · cases hq
          exact (ha ha').2
        · exact h.allPadsEos (ha ha').1 a q hq
      few := by
        have := h.few
        rcases hfew with hsome | hlt
        · have hany : (m.pad id).any fun _ => true := by
            obtain ⟨p, hp⟩ := Option.isSome_iff_exists.mp hsome
            rw [hp]
            rfl
          rw [if_pos hany, if_pos rfl] at hall
          omega
        · rw [if_pos rfl] at hall
          omega
      padOk := fun a q hq => by
        rw [pad_setPad, hpad] at hq
        split at hq
        · cases hq
          exact hok
        · exact h.padOk a q hq }

/-- A pad is stored that counts as before. -/
theorem EosInv.setPad {m m' : NvStreamMux} (h : EosInv m) {id : ℕ} {p q : SinkPad}
    (hp : m.pad id = some p) (hok : PadOk q ∧ drained q = drained p) (hq : Quiet m m') :
    EosInv (m'.setPad id q) := by
  refine h.store hq.pad ?_ ?_ (fun ha => ⟨hq.allPadsEos ha, ?_⟩) (.inl (by rw [hp]; rfl)) hok.1
  · rw [hp, Option.any_some, hok.2, hq.padsGotEos]
  · rw [hp, Option.any_some, hok.2, hq.sourcesEos]
  · rw [hok.2]
    exact h.allPadsEos (hq.allPadsEos ha) id p hp

/-- A pad is erased, and the counters follow what it contributed. -/
theorem EosInv.erasePad {m m' : NvStreamMux} (h : EosInv m) {id : ℕ}
    (hpad : ∀ a, m'.pad a = m.pad a)
    (hp : m'.padsGotEosAndEmptyInQ + (if (m.pad id).any drained then 1 else 0) =
      m.padsGotEosAndEmptyInQ)
    (he : m'.batchPolicy.numSourcesEos + (if (m.pad id).any drained then 1 else 0) =
      m.batchPolicy.numSourcesEos)
    (ha : m'.allPadsEos → m.allPadsEos) : EosInv (m'.erasePad id) := by
  have hcount : ∀ f, m'.countPads f = m.countPads f := fun f => countPads_congr fun a => by rw [hpad]
  have herase := countPads_erasePad m' id drained
  have hall := countPads_erasePad m' id fun _ => true
  rw [hcount, hpad] at herase hall
  have := h.padsGotEos
  have := h.sourcesEos
  exact
    { padsGotEos := by
        show m'.padsGotEosAndEmptyInQ = _
        omega
      sourcesEos := by
        show m'.batchPolicy.numSourcesEos = _
        omega
      allPadsEos := fun ha' a q hq => by
        rw [pad_erase, hpad] at hq
        split at hq
        · cases hq
        · simp only [NvStreamMux.erasePad] at ha'
          split at ha'
          · -- the map is empty now, so there is no other pad
            rename_i hne hsize
            have hmem : a ∈ (m'.erasePad id).inputs := mem_inputs_of_pad (p := q)
              (by rw [pad_erase, hpad, if_neg hne, hq])
            exact absurd hmem (Table.notMem_of_size_eq_zero hsize a)
          · exact h.allPadsEos (ha ha') a q hq
      few := by
        have := h.few
        omega
      padOk := fun a q hq => by
        rw [pad_erase, hpad] at hq
        split at hq
        · cases hq
        · exact h.padOk a q hq }

/-! ### The sections keep the counters exact -/

theorem EosInv.new (config : MuxConfig) : EosInv (NvStreamMux.new config) where
  padsGotEos := rfl
  sourcesEos := rfl
  allPadsEos := nofun
  few := by simp [countPads, Table.holding, NvStreamMux.new]
  padOk id p hp := by simp [NvStreamMux.new, pad] at hp

theorem EosInv.pushEventsOfPad {m : NvStreamMux} (h : EosInv m) (id : ℕ) :
    EosInv (m.pushEventsOfPad id) := by
  cases hp : m.pad id with
  | none => rwa [pushEventsOfPad_none hp]
  | some p =>
    obtain ⟨m', q, hm, hs⟩ := pushEventsOfPad_eq hp
    have hok := h.padOk id p hp
    have hqueue := p.pushEvents_queue
    rw [hm]
    by_cases hcount : turnsIdle p.pushEvents.1 ∧ p.pushEvents.1.eos
    · -- the pad is counted now, and it was not before
      obtain ⟨hturn, he⟩ := hcount
      have hidle : p.switchedToIdle := by simpa using hturn.1
      have hnot : ¬ drained p := fun hd => hok.done hd hidle
      have hdq : drained q := drained_iff.mpr ⟨by rw [hs.eos]; exact he, by rw [hs.queue]; exact hturn.2⟩
      have hokq : PadOk q :=
        ⟨fun _ hne => absurd (drained_iff.mp hdq).2 hne,
          fun _ hsw => (hs.switchedToIdle.mp hsw).2 hturn.2⟩
      have hset := countPads_setPad m id q drained
      have hall := countPads_setPad m id q fun _ => true
      have hle := countPads_le_of_imp (m.setPad id q) drained (fun _ => true) fun _ _ => rfl
      have hfew := h.few
      have hP := h.padsGotEos
      have hE := h.sourcesEos
      rw [hp, Option.any_some, if_neg hnot, if_pos hdq] at hset
      rw [hp, Option.any_some, if_pos rfl] at hall
      have hwrap : wrapAdd 32 (m.countPads drained) 1 = m.countPads drained + 1 :=
        wrapAdd_of_lt (by omega)
      obtain ⟨hP', hE'⟩ := hs.counted hturn he
      refine h.store hs.pad ?_ ?_ (fun ha => ?_) (.inl (by rw [hp]; rfl)) hokq
      · rw [hp, Option.any_some, if_neg hnot, if_pos hdq, hP', hP]
        exact hwrap
      · rw [hp, Option.any_some, if_neg hnot, if_pos hdq, hE', hE]
        exact hwrap
      · rw [hs.allPadsEos] at ha
        exact ⟨ha, hdq⟩
    · obtain ⟨hP', hE'⟩ := hs.notCounted hcount
      have hqueueq : q.queue = p.queue.dropWhile QueueEntry.isEvent := by rw [hs.queue, hqueue]
      have heq : q.eos = p.eos := by rw [hs.eos, SinkPad.pushEvents_eos]
      have hnot : p.eos → p.queue ≠ [] → q.queue ≠ [] := fun he hne hnil =>
        hcount ⟨⟨by rw [SinkPad.pushEvents_switchedToIdle]; exact (hok.pending he hne).1,
          by rw [← hs.queue]; exact hnil⟩, by rw [SinkPad.pushEvents_eos]; exact he⟩
      have hd : drained q ↔ drained p := by
        rw [drained_iff, drained_iff, heq]
        refine and_congr_right fun he => ⟨fun hnil => ?_, fun hnil => by rw [hqueueq, hnil]; rfl⟩
        by_contra hne
        exact hnot he hne hnil
      refine h.setPad hp ⟨⟨fun he hne => ?_, fun hdq hsw => ?_⟩, Bool.eq_iff_iff.mpr hd⟩
        ⟨hs.pad, hP', hE', fun ha => by rwa [hs.allPadsEos] at ha⟩
      · rw [heq] at he
        have hne' : p.queue ≠ [] := fun hnil => hne (by rw [hqueueq, hnil]; rfl)
        obtain ⟨hsw, hlast⟩ := hok.pending he hne'
        refine ⟨hs.switchedToIdle.mpr ⟨by simpa using hsw, by rw [← hs.queue]; exact hne⟩, ?_⟩
        rw [hqueueq] at hne ⊢
        exact (lastIsEvent_dropWhile hlast).resolve_left hne
      · exact (hs.switchedToIdle.mp hsw).2 (by rw [← hs.queue]; exact (drained_iff.mp hdq).2)

theorem EosInv.updateAllPadsEos {m : NvStreamMux} (h : EosInv m) : EosInv m.updateAllPadsEos where
  padsGotEos := h.padsGotEos
  sourcesEos := h.sourcesEos
  allPadsEos ha id p hp := by
    have hmem := mem_inputs_of_pad (m := m) hp
    have hsize : m.inputs.size ≠ 0 := fun h0 => Table.notMem_of_size_eq_zero h0 id hmem
    simp only [NvStreamMux.updateAllPadsEos, if_pos hsize, decide_eq_true_eq, h.padsGotEos] at ha
    exact of_countPads_eq_size ha hp
  few := h.few
  padOk := h.padOk

theorem EosInv.pushEvents {m m' : NvStreamMux} {order : List ℕ} (h : EosInv m)
    (hm : m.pushEvents order = some m') : EosInv m' :=
  pushEvents_invariant (I := EosInv) (fun _ id h => h.pushEventsOfPad id)
    (fun _ h => h.updateAllPadsEos) h hm

theorem quiet_lookup (m : NvStreamMux) (id : ℕ) : Quiet m (m.lookup id) :=
  ⟨fun _ => pad_lookup m id _, rfl, rfl, fun h => h⟩

theorem EosInv.copyBatch {ω : Type*} {copyBuf : CopyBuf ω} {m : NvStreamMux} {out : ω}
    {order : List ℕ} {r : CopyState ω} (h : EosInv m)
    (hr : m.copyBatch copyBuf out order = some r) : EosInv r.mux := by
  refine copyBatch_invariant (I := fun st => EosInv st.mux) (fun st count id hst => ?_) h hr
  cases hp : st.mux.pad id with
  | none =>
    rw [copySource_none copyBuf count hp]
    exact hst.congr (quiet_lookup _ id)
  | some p =>
    obtain ⟨m', q, copied, hm, -, -, hquiet, -, -, htrims, -⟩ := copySource_eq copyBuf count hp
    rw [hm]
    exact hst.setPad hp ((hst.padOk id p hp).trims htrims) hquiet

theorem EosInv.formBatch {m m' : NvStreamMux} {env : ℕ → OfferEnv} (h : EosInv m)
    (hm : m.formBatch env = some m') : EosInv m' :=
  formBatch_invariant (I := EosInv)
    (fun _ id p _ _ hp ht h => h.setPad hp ((h.padOk id p hp).trims ht)
      ⟨fun _ => rfl, rfl, rfl, fun ha => ha⟩)
    (fun _ _ _ h => h.congr ⟨fun _ => rfl, rfl, rfl, fun ha => ha⟩) h hm

theorem EosInv.loopStep {ω : Type*} {copyBuf : CopyBuf ω} {o : Outside} {m m' : NvStreamMux}
    {pc pc' : LoopPc ω} (h : EosInv m) (hm : m.loopStep copyBuf o pc = some (m', pc')) :
    EosInv m' := by
  cases loopStep_cases hm with
  | move => exact h
  | pushEvents order _ _ hm => exact h.pushEvents hm
  | formBatch env _ _ hm => exact h.formBatch hm
  | copy order hr => exact h.copyBatch hr
  | push out copied => exact h.congr ⟨fun _ => rfl, rfl, rfl, fun ha => ha⟩
  | reset out => exact h.congr ⟨fun _ => rfl, rfl, rfl, fun ha => ha⟩

/-! ### Pads come and go -/

theorem EosInv.addPad {m : NvStreamMux} {id : ℕ} (h : EosInv m) (hold : ¬ (m.pad id).any drained)
    (hfew : (m.pad id).isSome ∨ m.countPads (fun _ => true) + 1 < 2 ^ 32) : EosInv (m.addPad id) := by
  have hnew : ¬ drained { SinkPad.new id with switchedToIdle := true } := by simp [drained, SinkPad.new]
  refine h.store (fun _ => rfl) ?_ ?_ nofun hfew (PadOk.of_not_eos (by simp [SinkPad.new]))
  · rw [if_neg hold, if_neg hnew]
  · rw [if_neg hold, if_neg hnew]
    simp

/-- A drained pad is counted, so the counters do not wrap when it is taken out. -/
theorem EosInv.wrapSub_one {m : NvStreamMux} (h : EosInv m) {id : ℕ} {p : SinkPad}
    (hp : m.pad id = some p) (hd : drained p) :
    wrapSub 32 m.padsGotEosAndEmptyInQ 1 + 1 = m.padsGotEosAndEmptyInQ ∧
      wrapSub 32 m.batchPolicy.numSourcesEos 1 + 1 = m.batchPolicy.numSourcesEos := by
  have hpos := countPads_erasePad m id drained
  rw [hp, Option.any_some, if_pos hd] at hpos
  have hle := countPads_le_of_imp m drained (fun _ => true) fun _ _ => rfl
  have := h.few
  rw [h.padsGotEos, h.sourcesEos, wrapSub_of_le (by omega) (by omega)]
  omega

/-- A pad that is not drained is counted in neither counter. -/
theorem EosInv.erase_of_not_drained {m : NvStreamMux} (h : EosInv m) {id : ℕ} {p : SinkPad}
    (hp : m.pad id = some p) (hd : ¬ drained p) : EosInv (m.erasePad id) := by
  refine h.erasePad (fun _ => rfl) ?_ ?_ fun ha => ha
  · rw [hp, Option.any_some, if_neg hd, add_zero]
  · rw [hp, Option.any_some, if_neg hd, add_zero]

theorem EosInv.removePad {m m' : NvStreamMux} {id : ℕ} {waits : Bool} (h : EosInv m)
    (hok : (m.pad id).all fun p => p.eos || !p.queue.isEmpty)
    (hm : m.removePad id = some (m', waits)) : EosInv m' := by
  unfold NvStreamMux.removePad at hm
  split at hm
  · cases hm
    exact h
  · split at hm
    · cases hm
    · rename_i p hp
      rw [hp, Option.all_some] at hok
      by_cases hq : p.queue = []
      · -- drained already, and taken out of both counters
        have he : p.eos := by simpa [hq] using hok
        have hd : drained p := drained_iff.mpr ⟨he, hq⟩
        obtain ⟨hP, hE⟩ := h.wrapSub_one hp hd
        rw [if_pos (List.length_eq_zero_iff.mpr hq), if_pos he] at hm
        cases hm
        refine h.erasePad (pad_congr rfl) ?_ ?_ fun ha => ha
        · simp only [hp, Option.any_some, hd, if_true]
          exact hP
        · simp only [hp, Option.any_some, hd, if_true]
          exact hE
      · have hd : ¬ drained p := fun hd => hq (drained_iff.mp hd).2
        rw [if_neg (mt List.length_eq_zero_iff.mp hq)] at hm
        split at hm
        · cases hm
          exact h.erase_of_not_drained hp hd
        · cases hm
          exact h

theorem EosInv.removePadPoll {m m' : NvStreamMux} {id count : ℕ} {waits : Bool} (h : EosInv m)
    (hok : (m.pad id).all fun p => if p.eos then !p.queue.isEmpty else decide (count < 100))
    (hm : m.removePadPoll id count = some (m', waits)) : EosInv m' := by
  unfold NvStreamMux.removePadPoll at hm
  split at hm
  · cases hm
  · rename_i p hp
    rw [hp, Option.all_some] at hok
    by_cases he : p.eos
    · rw [if_pos he] at hok hm
      cases hm
      exact h.erase_of_not_drained hp fun hd => by simp [(drained_iff.mp hd).2] at hok
    · rw [if_neg he, decide_eq_true_eq] at hok
      rw [if_neg he, if_pos hok] at hm
      cases hm
      exact h

theorem EosInv.resetPad {m m' : NvStreamMux} {id : ℕ} (h : EosInv m)
    (hok : (m.pad id).all fun p =>
      !p.eos || p.queue.isEmpty || decide (m.batchPolicy.numSourcesEos = 0))
    (hm : m.resetPad id = some m') : EosInv m' := by
  unfold NvStreamMux.resetPad at hm
  split at hm
  · cases hm
  · rename_i p hp
    rw [hp, Option.all_some] at hok
    split at hm
    · rename_i he
      have hokq : PadOk { p with eos := false } := PadOk.of_not_eos (by simp)
      have hnot : ¬ drained { p with eos := false } := by simp [drained]
      dsimp only at hm
      split at hm
      · -- some pad is counted, so this one has to be
        rename_i hpos
        cases hm
        have hpos' : m.batchPolicy.numSourcesEos ≠ 0 := Nat.pos_iff_ne_zero.mp hpos
        have hd : drained p := drained_iff.mpr ⟨he, by simpa [he, hpos'] using hok⟩
        obtain ⟨hP, hE⟩ := h.wrapSub_one hp hd
        have hpad : ∀ a, NvStreamMux.pad { m.uncountEos with allPadsEos := false } a = m.pad a :=
          pad_congr rfl
        refine h.store hpad ?_ ?_ nofun (.inl (by rw [hp]; rfl)) hokq
        · simp only [hp, Option.any_some, hd, hnot, if_true]
          exact hP
        · simp only [hp, Option.any_some, hd, hnot, if_true]
          exact hE
      · rename_i hzero
        cases hm
        have hE : m.batchPolicy.numSourcesEos = 0 := Nat.eq_zero_of_not_pos hzero
        have hd : ¬ drained p := fun hd => by
          have := h.wrapSub_one hp hd
          omega
        refine h.store (fun _ => rfl) ?_ ?_ (fun ha => ?_) (.inl (by rw [hp]; rfl)) hokq
        · rw [hp, Option.any_some, if_neg hd, if_neg hnot]
        · rw [hp, Option.any_some, if_neg hd, if_neg hnot]
        · exact absurd (h.allPadsEos ha id p hp) hd
    · cases hm
      exact h

/-! ### Buffers and events arrive -/

theorem EosInv.addBufferQueue {m m' : NvStreamMux} {id : ℕ} {buffer : BufferWrapper} (h : EosInv m)
    (hok : ¬ (m.pad id).any SinkPad.eos) (hm : m.addBufferQueue id buffer = some m') : EosInv m' := by
  unfold NvStreamMux.addBufferQueue at hm
  split at hm
  · cases hm
  · rename_i p hp
    rw [hp, Option.any_some] at hok
    cases hm
    have hd : ¬ drained p := fun hd => hok (drained_iff.mp hd).1
    have hnew : ∀ b s, ¬ ({ p with switchedToActive := b, state := s }.queueEntry (.buffer buffer)).eos :=
      fun b s => by simpa using hok
    have hstate : ∃ b, { (if p.state = .idle then { p with switchedToActive := true } else p) with
        state := .playing } = { p with switchedToActive := b, state := .playing } := by
      split
      · exact ⟨_, rfl⟩
      · exact ⟨p.switchedToActive, rfl⟩
    obtain ⟨b, hb⟩ := hstate
    rw [hb]
    have hnot : ¬ drained
        ({ p with switchedToActive := b, state := .playing }.queueEntry (.buffer buffer)) :=
      fun hd => hnew b .playing (drained_iff.mp hd).1
    refine h.store (fun _ => rfl) ?_ ?_ nofun (.inl (by rw [hp]; rfl)) (PadOk.of_not_eos (hnew _ _))
    · rw [hp, Option.any_some, if_neg hd, if_neg hnot]
    · rw [hp, Option.any_some, if_neg hd, if_neg hnot]

theorem EosInv.handleEos {m : NvStreamMux} (h : EosInv m) (id : ℕ) (event : EventWrapper) :
    EosInv (m.handleEos id event) := by
  have hl := h.congr (quiet_lookup m id)
  unfold NvStreamMux.handleEos
  dsimp only
  split
  · exact hl
  · rename_i p hp
    split
    · exact hl
    · rename_i he
      have hd : ¬ drained p := fun hd => he (drained_iff.mp hd).1
      refine hl.setPad hp ⟨⟨fun _ _ => ⟨rfl, ?_⟩, fun hd' => ?_⟩, ?_⟩ ⟨fun _ => rfl, rfl, rfl, fun ha => ha⟩
      · simp
      · simp [drained] at hd'
      · rw [Bool.eq_false_iff.mpr hd]
        simp [drained]

/-- An event is queued on a pad, and fields are set that do not matter here. -/
theorem EosInv.queueEvent {m : NvStreamMux} {id : ℕ} {p q : SinkPad} {e : EventWrapper} (h : EosInv m)
    (hp : m.pad id = some p) (hok : ¬ (m.pad id).any drained)
    (hqueue : q.queue = p.queue ++ [.event e]) (heos : q.eos = p.eos)
    (hidle : q.switchedToIdle = p.switchedToIdle) : EosInv (m.setPad id q) := by
  rw [hp, Option.any_some] at hok
  obtain ⟨hpend, hdr⟩ := (h.padOk id p hp).queueEvent hok e
  have hdq : drained q = drained (p.queueEntry (.event e)) := by
    simp [drained, hqueue, heos]
  refine h.setPad hp ⟨⟨fun he hne => ?_, fun hd => ?_⟩, hdq.trans hdr⟩
    ⟨fun _ => rfl, rfl, rfl, fun ha => ha⟩
  · have := hpend.pending (by simpa [heos] using he) (by simp)
    rw [hidle, hqueue]
    simpa using this
  · have := hpend.done (hdq ▸ hd)
    rw [hidle]
    simpa using this

/-- A stop empties every queue, and drains a pad when the stream on it has
ended. -/
theorem EosInv.handleStop {m : NvStreamMux} (h : EosInv m)
    (hok : m.countPads (fun p => p.eos && !p.queue.isEmpty) = 0) : EosInv m.handleStop := by
  have hpad := m.pad_handleStop
  have hnone : ∀ id p, m.pad id = some p → p.eos → p.queue = [] := fun id p hp he => by
    have hf := countPads_eq_zero.mp hok id p hp
    simpa [he] using hf
  have hreset : ∀ p : SinkPad, drained
      (if m.frameNumResetOnEos then { p.reset with frameCount := 0 } else p.reset) = p.eos := fun p => by
    split <;> simp [drained, SinkPad.reset]
  have hdrained : m.handleStop.countPads drained = m.countPads drained := countPads_congr fun id => by
    rw [hpad]
    cases hp : m.pad id with
    | none => rfl
    | some p =>
      rw [Option.map_some, Option.any_some, Option.any_some, hreset, Bool.eq_iff_iff, drained_iff]
      exact ⟨fun he => ⟨he, hnone id p hp he⟩, And.left⟩
  have hall : m.handleStop.countPads (fun _ => true) = m.countPads fun _ => true :=
    countPads_congr fun id => by
      rw [hpad]
      cases m.pad id <;> rfl
  exact
    { padsGotEos := h.padsGotEos.trans hdrained.symm
      sourcesEos := h.sourcesEos.trans hdrained.symm
      allPadsEos := fun ha id q hq => by
        rw [hpad] at hq
        obtain ⟨p, hp, rfl⟩ := Option.map_eq_some_iff.mp hq
        rw [hreset]
        exact (drained_iff.mp (h.allPadsEos ha id p hp)).1
      few := hall.symm ▸ h.few
      padOk := fun id q hq => by
        rw [hpad] at hq
        obtain ⟨p, hp, rfl⟩ := Option.map_eq_some_iff.mp hq
        have hok := h.padOk id p hp
        refine ⟨fun _ hne => absurd ?_ hne, fun hd => ?_⟩
        · split <;> rfl
        · rw [hreset] at hd
          have := hok.done (drained_iff.mpr ⟨hd, hnone id p hp hd⟩)
          split <;> exact this }

end NvStreamMux

/-! ### Runs -/

namespace Sys

variable {ω : Type*} {copyBuf : CopyBuf ω}

/-- What a section must not do for the counters to stay exact: replace a drained
pad; remove a pad that has no end of the stream and nothing queued, or give up
waiting for the end of the stream, or find it drained only after waiting; reset
a pad that has ended and is not drained while another is counted; queue a
buffer behind the end of the stream, or an event on a drained pad; stop while a
pad that has ended is not drained; set `all_pads_eos`. -/
def EosStepOk (s : Sys ω) : Action ω → Prop
  | .addPad id => ¬ (s.mux.pad id).any drained ∧
      ((s.mux.pad id).isSome ∨ s.mux.countPads (fun _ => true) + 1 < 2 ^ 32)
  | .removePad id => (s.mux.pad id).all fun p => p.eos || !p.queue.isEmpty
  | .removePadPoll i => (s.removers[i]?).all fun r =>
      (s.mux.pad r.1).all fun p => if p.eos then !p.queue.isEmpty else decide (r.2 + 1 < 100)
  | .resetPad id => (s.mux.pad id).all fun p =>
      !p.eos || p.queue.isEmpty || decide (s.mux.batchPolicy.numSourcesEos = 0)
  | .setAllPadsEos eos => eos = false
  | .addBufferQueue id _ => ¬ (s.mux.pad id).any SinkPad.eos
  | .handleEosCascaded id _ | .handleSegment id _ | .handleStreamReset id _ =>
      ¬ (s.mux.pad id).any drained
  | .handleStop => s.mux.countPads (fun p => p.eos && !p.queue.isEmpty) = 0
  | _ => True

instance (s : Sys ω) : (a : Action ω) → Decidable (s.EosStepOk a)
  | .addPad _ => inferInstanceAs (Decidable (_ ∧ _))
  | .removePad id => inferInstanceAs (Decidable ((s.mux.pad id).all _ = true))
  | .removePadPoll i => inferInstanceAs (Decidable ((s.removers[i]?).all _ = true))
  | .resetPad id => inferInstanceAs (Decidable ((s.mux.pad id).all _ = true))
  | .setAllPadsEos eos => inferInstanceAs (Decidable (eos = false))
  | .addBufferQueue id _ => inferInstanceAs (Decidable (¬ (s.mux.pad id).any SinkPad.eos))
  | .handleEosCascaded id _ | .handleSegment id _ | .handleStreamReset id _ =>
      inferInstanceAs (Decidable (¬ (s.mux.pad id).any drained))
  | .handleStop => inferInstanceAs (Decidable (_ = 0))
  | .getPad _ | .addBufferLookup _ | .addBufferSize _ | .addBufferWait _ | .handleFlushStop _ | .handleEos _ _
  | .resetStop | .updatePadMimetype _ _ | .getPadMimetype _ | .setBatchSize _ | .setNumSurfacesPerFrame _
  | .pushEvents _ | .pushLoop _ | .loop _ => inferInstanceAs (Decidable True)

/-- Every section that meets the condition keeps the counters exact. -/
theorem eosInv_step {s s' : Sys ω} {a : Action ω} (h : s.mux.EosInv) (hok : s.EosStepOk a)
    (hs : s.step copyBuf a = some s') : s'.mux.EosInv := by
  cases a with
  | getPad id | addBufferLookup id | getPadMimetype id =>
    cases hs
    exact h.congr (NvStreamMux.quiet_lookup _ id)
  | addPad id =>
    cases hs
    exact h.addPad hok.1 hok.2
  | removePad id =>
    obtain ⟨⟨m, waits⟩, hm, rfl⟩ := Option.map_eq_some_iff.mp hs
    have := h.removePad hok hm
    unfold removing
    split <;> exact this
  | removePadPoll i =>
    simp only [step] at hs
    split at hs
    · cases hs
    · rename_i id count hi
      obtain ⟨⟨m, waits⟩, hm, rfl⟩ := Option.map_eq_some_iff.mp hs
      rw [EosStepOk, hi, Option.all_some] at hok
      have := h.removePadPoll hok hm
      unfold removing
      split <;> exact this
  | resetPad id =>
    obtain ⟨m, hm, rfl⟩ := Option.map_eq_some_iff.mp hs
    exact h.resetPad hok hm
  | setAllPadsEos eos =>
    cases hs
    cases hok
    exact h.congr ⟨fun _ => rfl, rfl, rfl, nofun⟩
  | addBufferSize id =>
    obtain ⟨m, hm, rfl⟩ := Option.map_eq_some_iff.mp hs
    unfold NvStreamMux.addBufferSize at hm
    split at hm
    · cases hm
    · rename_i p hp
      cases hm
      have hok := h.padOk id p hp
      dsimp only [onMux]
      split
      · exact h.setPad hp ⟨⟨hok.pending, hok.done⟩, rfl⟩ ⟨fun _ => rfl, rfl, rfl, fun ha => ha⟩
      · exact h
  | addBufferWait id =>
    obtain ⟨m, hm, rfl⟩ := Option.map_eq_some_iff.mp hs
    obtain ⟨p, hp, rfl⟩ := Option.map_eq_some_iff.mp hm
    have hpad := h.padOk id p hp
    exact h.setPad hp ⟨⟨by simpa using hpad.pending, by simpa [drained] using hpad.done⟩, by simp [drained]⟩
      ⟨fun _ => rfl, rfl, rfl, fun ha => ha⟩
  | addBufferQueue id buffer =>
    obtain ⟨m, hm, rfl⟩ := Option.map_eq_some_iff.mp hs
    exact h.addBufferQueue hok hm
  | handleFlushStop id =>
    cases hs
    have hl := h.congr (NvStreamMux.quiet_lookup s.mux id)
    unfold onMux NvStreamMux.handleFlushStop
    dsimp only
    split
    · exact hl
    · rename_i p hp
      have hok := hl.padOk id p hp
      exact hl.setPad hp ⟨⟨hok.pending, hok.done⟩, rfl⟩ ⟨fun _ => rfl, rfl, rfl, nofun⟩
  | handleEos id event =>
    cases hs
    exact h.handleEos id event
  | handleEosCascaded id event =>
    obtain ⟨m, hm, rfl⟩ := Option.map_eq_some_iff.mp hs
    unfold NvStreamMux.handleEosCascaded at hm
    split at hm
    · cases hm
    · rename_i p hp
      cases hm
      exact h.queueEvent (e := event) hp hok (by simp) (by simp) (by simp)
  | handleSegment id event =>
    cases hs
    have hl := h.congr (NvStreamMux.quiet_lookup s.mux id)
    rw [EosStepOk, ← NvStreamMux.pad_lookup s.mux id] at hok
    unfold onMux NvStreamMux.handleSegment
    dsimp only
    split
    · exact hl
    · rename_i p hp
      exact hl.queueEvent (e := event) hp hok (by simp) (by simp) (by simp)
  | handleStreamReset id event =>
    cases hs
    have hl := h.congr (NvStreamMux.quiet_lookup s.mux id)
    rw [EosStepOk, ← NvStreamMux.pad_lookup s.mux id] at hok
    unfold onMux NvStreamMux.handleStreamReset
    dsimp only
    split
    · exact hl
    · rename_i p hp
      split <;> exact hl.queueEvent (e := event) hp hok (by simp) (by simp) (by simp)
  | handleStop =>
    cases hs
    exact h.handleStop hok
  | updatePadMimetype id mimeType =>
    cases hs
    have hl := h.congr (NvStreamMux.quiet_lookup s.mux id)
    unfold onMux NvStreamMux.updatePadMimetype
    dsimp only
    split
    · exact hl
    · rename_i p hp
      have hok := hl.padOk id p hp
      exact hl.setPad hp ⟨⟨hok.pending, hok.done⟩, rfl⟩ ⟨fun _ => rfl, rfl, rfl, fun ha => ha⟩
  | resetStop | setBatchSize _ | setNumSurfacesPerFrame _ =>
    cases hs
    exact h.congr ⟨fun _ => rfl, rfl, rfl, fun ha => ha⟩
  | pushEvents order =>
    obtain ⟨m, hm, rfl⟩ := Option.map_eq_some_iff.mp hs
    exact h.pushEvents hm
  | pushLoop out =>
    simp only [step] at hs
    split at hs
    · cases hs
      exact h
    · cases hs
  | loop o =>
    obtain ⟨⟨m, pc⟩, hm, rfl⟩ := Option.map_eq_some_iff.mp hs
    exact h.loopStep hm

/-- **The counters are exact.** In every run whose sections meet the condition,
under any interleaving, both counters are the number of the pads that have
ended and been drained, and `all_pads_eos` holds only when these are all. -/
theorem eos_accounting {s : Sys ω} (h : Reach (step copyBuf) EosStepOk Started s) :
    s.mux.EosExact := by
  refine (h.invariant (I := fun s : Sys ω => s.mux.EosInv) ?_ fun _ _ _ hI hok hs =>
    eosInv_step hI hok hs).toEosExact
  rintro _ ⟨config, rfl⟩
  exact NvStreamMux.EosInv.new config

/-- A buffer and the end of the stream arrive, `push_loop` runs once, and the
pad is removed. -/
def oneStream : List (Action GstBatchBufferWrapper) :=
  [.addPad 0, .addBufferLookup 0, .addBufferQueue 0 ⟨7, 1⟩, .handleEos 0 .eos, .pushLoop ⟨1, 0, []⟩] ++
    List.replicate 10 (.loop onePad) ++ [.removePad 0]

theorem eos_accounting_oneStream :
    ((exec (step GstBatchBufferWrapper.copyBuf) EosStepOk (new plain) oneStream).get
      (by decide +kernel)).mux.EosExact :=
  eos_accounting (Reach.get_exec ⟨plain, rfl⟩ _)

/-- A pad is requested and released, and no end of the stream comes in the
hundred sleeps of `remove_pad`. -/
def releasedWithoutEos : List (Action GstBatchBufferWrapper) :=
  [.addPad 0, .removePad 0] ++ List.replicate 100 (.removePadPoll 0)

/-- The pad was counted in neither counter and is taken out of both; one is
compensated, the other stays below zero with no pad left. -/
theorem eos_accounting_fails : ∃ s : Sys GstBatchBufferWrapper,
    Reach (step GstBatchBufferWrapper.copyBuf) anyStep Started s ∧ s.mux.inputs.size = 0 ∧
      s.mux.batchPolicy.numSourcesEos = 4294967295 ∧ ¬ s.mux.EosExact := by
  refine ⟨_, Reach.get_exec (s := new plain) (α := Action GstBatchBufferWrapper)
    ⟨plain, rfl⟩ (show (exec _ anyStep (new plain) releasedWithoutEos).isSome by decide +kernel),
    by decide +kernel, by decide +kernel, fun h => ?_⟩
  exact absurd h.sourcesEos (by decide +kernel)

end Sys
end Mux
end DeepStream
