/-
# The limits of a source in a batch

A source may give at most `max-same-source-frames` of a batch, and at most
`max-num-frames-per-batch` of its own properties. `check_repeats_per_batch` takes the
larger of the second limit and the batch size where the smaller is meant, so a
source keeps within its own limit only where another bound keeps it there.
-/
import DeepStream.Mux.Available

namespace DeepStream
namespace Mux
namespace BatchPolicy

/-- The limit of a source, from its properties. -/
def maxFramesOf (p : BatchPolicy) (sourceId : ℕ) : ℕ :=
  ((p.config.find sourceId).map NvStreammuxSourceProps.maxNumFramesPerBatch).getD defaultSourceGroupMaxFramesPerBatch

/-- How many frames `copy_batch` takes from a source. -/
def framesOf (st : FormState) (id : ℕ) : ℕ := (st.batch.numSources.getD id 0).toNat

/-- The buffers that are queued on a pad. -/
def queuedBuffers (inputs : Inputs) (id : ℕ) : ℕ := (inputs[id]?.join.map fun pad => (buffersOf pad.queue).length).getD 0

/-- A source keeps within all its limits. -/
structure WithinLimits (p : BatchPolicy) (st : FormState) (id : ℕ) : Prop where
  sameSource : framesOf st id ≤ p.config.maxSameSourceFrames
  source : framesOf st id ≤ p.maxFramesOf id
  queued : framesOf st id ≤ queuedBuffers st.inputs id

/-- What bounds every source, whatever its own limit: `max-same-source-frames`, the
two batch sizes, and the largest `int`. -/
def frameBound (p : BatchPolicy) (size thisBatchSize : ℕ) : ℕ :=
  min (min p.config.maxSameSourceFrames (p.getBatchSize size)) (min thisBatchSize (2 ^ 31 - 1))

/-- Pads as the operations on them leave them. -/
def PadsReached (inputs : Inputs) : Prop :=
  ∀ (id : ℕ) (pad : SinkPad), inputs[id]? = some (some pad) → Reach SinkPad.step anyStep SinkPad.Constructed pad

/-! ### Within the bound -/

theorem toNat_toInt32_le {n : ℕ} (h : n < 2 ^ 32) : (toInt32 n).toNat ≤ n ∧ (toInt32 n).toNat ≤ 2 ^ 31 - 1 := by
  unfold toInt32
  split <;> omega

theorem checkRepeatsPerBatchOf_eq (p : BatchPolicy) (size id : ℕ) :
    p.checkRepeatsPerBatchOf size id = max (p.getBatchSize size) (p.maxFramesOf id) := by
  unfold checkRepeatsPerBatchOf maxFramesOf
  cases p.config.find id with
  | none =>
    show (if _ then _ else _) = max _ defaultSourceGroupMaxFramesPerBatch
    split <;> omega
  | some props =>
    show (if _ then _ else _) = max _ props.maxNumFramesPerBatch
    split <;> omega

theorem allowedRepeats_eq (p : BatchPolicy) (size id : ℕ) :
    p.allowedRepeats size id = min p.config.maxSameSourceFrames (max (p.getBatchSize size) (p.maxFramesOf id)) := by
  unfold allowedRepeats checkRepeatsPerBatch
  rw [checkRepeatsPerBatchOf_eq]
  split <;> omega

theorem numToInsert_eq (p : BatchPolicy) (size id : ℕ) (pad : SinkPad) (batch : Batch) (clockAllowed : ℕ) :
    p.numToInsert size id pad batch clockAllowed =
      min (min (p.getAllowed id clockAllowed pad.getAvailable) (p.allowedRepeats size id))
        (wrapSub 32 batch.batchSize batch.accBatch) := by
  unfold numToInsert
  dsimp only
  split <;> split <;> omega

/-- The buffers on time stay in the queue. -/
theorem onTime_le_queued (synchInfo : BufferWrapper → BufferTsStatus) (n : ℕ) (q : List QueueEntry) :
    (synchronizeQueue synchInfo n q).2.1 ≤ (buffersOf (synchronizeQueue synchInfo n q).1).length := by
  fun_induction synchronizeQueue synchInfo n q with
  | case1 | case2 | case4 => exact Nat.zero_le _
  | case3 n e q r ih => exact ih
  | case5 n b q hb r ih => exact ih
  | case6 n b q hb r ih =>
    rw [buffersOf_cons_buffer, List.length_cons]
    exact Nat.succ_le_succ ih

theorem iterate_popBufferDone_queue (n : ℕ) (p : SinkPad) : (SinkPad.popBufferDone^[n] p).queue = p.queue := by
  induction n generalizing p with
  | zero => rfl
  | succ n ih =>
    rw [Function.iterate_succ_apply, ih]
    rfl

/-- What a batch is while it is formed: the sources it takes from are pads that are
known, no source is over the bound of all limits, and the pads are as their operations
leave them. -/
structure Bounded (p : BatchPolicy) (pads : Inputs) (thisBatchSize : ℕ) (st : FormState) : Prop where
  keys : Table.keySet st.inputs = Table.keySet pads
  reached : PadsReached st.inputs
  batchSize : st.batch.batchSize = thisBatchSize
  le : st.batch.accBatch ≤ thisBatchSize
  frames : ∀ id, 0 < framesOf st id → id ∈ p.sources.map Prod.snd ∧ id ∈ pads ∧
    framesOf st id ≤ min (p.allowedRepeats pads.size id) (min thisBatchSize (2 ^ 31 - 1))
  queued : ∀ id, framesOf st id ≤ queuedBuffers st.inputs id

section Bounded

variable {p : BatchPolicy} {pads : Inputs} {thisBatchSize : ℕ} {st : FormState} {env : ℕ → OfferEnv}

theorem Bounded.size_eq (h : Bounded p pads thisBatchSize st) : st.inputs.size = pads.size := by
  rw [← Table.card_keySet, h.keys, Table.card_keySet]

/-- What a source is given: no more than it may repeat, than the batch has room for,
and than it has queued. -/
theorem Bounded.take (h : Bounded p pads thisBatchSize st) (hb : thisBatchSize < 2 ^ 32) {id n : ℕ} {pad pad' : SinkPad}
    {inputs' : Inputs} (hid : id ∈ p.sources.map Prod.snd) (hpad : st.inputs[id]? = some (some pad)) (clockAllowed : ℕ)
    (hn : n ≤ p.numToInsert st.inputs.size id pad st.batch clockAllowed) (hqueued : n ≤ (buffersOf pad'.queue).length)
    (hreach : Reach SinkPad.step anyStep SinkPad.Constructed pad') (hget : ∀ a, inputs'[a]? =
      if a = id then some (some pad') else st.inputs[a]?) (hkeys : Table.keySet inputs' = Table.keySet st.inputs)
    (offered : List ℕ) :
    Bounded p pads thisBatchSize ⟨inputs', { st.batch with
      numSources := (Table.touch st.batch.numSources id 0).insert id (toInt32 n)
      accBatch := wrapAdd 32 st.batch.accBatch n }, offered⟩ := by
  have hle := h.le
  have hroom : n ≤ thisBatchSize - st.batch.accBatch := by
    refine (hn.trans (p.numToInsert_le _ _ _ _ _).1).trans ?_
    rw [h.batchSize, wrapSub_of_le hle hb]
  have hrepeats : n ≤ p.allowedRepeats pads.size id := by
    refine hn.trans ?_
    rw [numToInsert_eq, h.size_eq]
    exact (min_le_left _ _).trans (min_le_right _ _)
  have hmem : id ∈ pads := by
    rw [← Table.mem_keySet, ← h.keys, Table.mem_keySet]
    exact Std.TreeMap.mem_iff_isSome_getElem?.mpr (by rw [hpad]; rfl)
  have hframes : ∀ a, (((Table.touch st.batch.numSources id 0).insert id (toInt32 n)).getD a 0).toNat =
      if a = id then (toInt32 n).toNat else framesOf st a := by
    intro a
    rw [Std.TreeMap.getD_insert, Table.getD_touch]
    by_cases ha : a = id
    · rw [if_pos ha, if_pos (by rw [ha]; exact Std.LawfulEqCmp.compare_eq_iff_eq.mpr rfl)]
    · rw [if_neg ha, if_neg (by rw [Std.LawfulEqCmp.compare_eq_iff_eq]; exact Ne.symm ha)]
      rfl
  obtain ⟨hword, hint⟩ := toNat_toInt32_le (show n < 2 ^ 32 by omega)
  refine ⟨hkeys.trans h.keys, fun a q hq => ?_, h.batchSize, ?_, fun a ha => ?_, fun a => ?_⟩
  · rw [hget] at hq
    split at hq
    · cases hq
      exact hreach
    · exact h.reached a q hq
  · show wrapAdd 32 st.batch.accBatch n ≤ thisBatchSize
    rw [wrapAdd_of_lt (by omega)]
    omega
  · unfold framesOf at ha ⊢
    rw [hframes] at ha ⊢
    split at ha
    · rename_i heq
      rw [if_pos heq, heq]
      exact ⟨hid, hmem, le_min (hword.trans hrepeats) (le_min (by omega) hint)⟩
    · rename_i hne
      rw [if_neg hne]
      exact h.frames a ha
  · unfold framesOf queuedBuffers
    rw [hframes, hget]
    split
    · exact hword.trans hqueued
    · exact h.queued a

theorem Bounded.offer (h : Bounded p pads thisBatchSize st) (hb : thisBatchSize < 2 ^ 32) {id : ℕ}
    (hid : id ∈ p.sources.map Prod.snd) : Bounded p pads thisBatchSize (p.offer env st id) := by
  have hsame : ∀ offered, Bounded p pads thisBatchSize ⟨st.inputs, st.batch, offered⟩ := fun _ => { h with }
  unfold BatchPolicy.offer updateWithSource
  split
  · rename_i pad hpad
    dsimp only
    have hfresh := h.reached id pad hpad
    split
    · have hframes : ∀ a, (Table.touch st.batch.numSources id 0).getD a 0 = st.batch.numSources.getD a 0 :=
        fun a => Table.getD_touch _ _ _ _
      exact
        { h with
          frames := fun a ha => by
            unfold framesOf at ha ⊢
            rw [hframes] at ha ⊢
            exact h.frames a ha
          queued := fun a => by
            unfold framesOf
            rw [hframes]
            exact h.queued a }
    · have hqueued : pad.getAvailable ≤ (buffersOf pad.queue).length := by
        rw [(SinkPad.Counted.of_reach hfresh).available.available]
        exact Nat.mod_le _ _
      cases hs : p.synchBuffer with
      | false =>
        exact h.take hb hid hpad (env st.offered.length).clockAllowed le_rfl ((p.numToInsert_le _ _ _ _ _).2.trans hqueued) hfresh
          (fun a => by by_cases ha : a = id <;> simp [ha, hpad]) rfl _
      | true =>
        have hmem : id ∈ st.inputs := Std.TreeMap.mem_iff_isSome_getElem?.mpr (by rw [hpad]; rfl)
        refine h.take hb hid hpad (env st.offered.length).clockAllowed (synchronizeQueue_onTime_le _ _ _) ?_
          (hfresh.trans (SinkPad.reach_synchronizeBuffersInPad pad _ (env st.offered.length).synchInfo))
          (fun a => Table.getElem?_insert _ _ _ _) (Table.keySet_insert_of_mem _ hmem) _
        rw [synchronizeBuffersInPad, iterate_popBufferDone_queue]
        exact onTime_le_queued _ _ _
  · exact hsame _

theorem Bounded.emptied (batch : Option Batch) {inputs : Inputs} (hkeys : Table.keySet inputs = Table.keySet pads)
    (hreached : PadsReached inputs) : Bounded p pads thisBatchSize ⟨inputs, BatchPolicy.emptied batch thisBatchSize, []⟩ := by
  have hframes : ∀ a, framesOf ⟨inputs, BatchPolicy.emptied batch thisBatchSize, []⟩ a = 0 := by
    intro a
    unfold framesOf
    cases batch <;> simp [BatchPolicy.emptied, Batch.resetBatch]
  refine ⟨hkeys, hreached, ?_, ?_, fun a ha => ?_, fun a => ?_⟩
  · cases batch <;> rfl
  · cases batch <;> exact Nat.zero_le _
  · rw [hframes] at ha
    exact absurd ha (lt_irrefl 0)
  · rw [hframes]
    exact Nat.zero_le _

theorem Bounded.withinLimits (h : Bounded p pads thisBatchSize st)
    (hbound : ∀ id ∈ p.sources.map Prod.snd, id ∈ pads → p.frameBound pads.size thisBatchSize ≤ p.maxFramesOf id)
    (id : ℕ) : WithinLimits p st id := by
  rcases Nat.eq_zero_or_pos (framesOf st id) with h0 | hpos
  · exact ⟨h0 ▸ Nat.zero_le _, h0 ▸ Nat.zero_le _, h0 ▸ Nat.zero_le _⟩
  · obtain ⟨hid, hmem, hle⟩ := h.frames id hpos
    have hb := hbound id hid hmem
    rw [allowedRepeats_eq] at hle
    unfold frameBound at hb
    exact ⟨by omega, by omega, h.queued id⟩

end Bounded

/-! ### Beyond the bound -/

/-- A pad with `n` buffers in its queue. -/
def padOf (id n : ℕ) : SinkPad := (fun pad => pad.queueEntry (.buffer ⟨0, 1⟩))^[n] (SinkPad.new id)

theorem padOf_spec (id n : ℕ) : Reach SinkPad.step anyStep SinkPad.Constructed (padOf id n) ∧
    (padOf id n).queue = List.replicate n (.buffer ⟨0, 1⟩) ∧ (padOf id n).eventIndices = [] := by
  induction n with
  | zero => exact ⟨.init ⟨rfl, rfl⟩, rfl, rfl⟩
  | succ n ih =>
    obtain ⟨hreach, hqueue, hindices⟩ := ih
    have hsucc : padOf id (n + 1) = (padOf id n).queueEntry (.buffer ⟨0, 1⟩) := Function.iterate_succ_apply' _ _ _
    rw [hsucc]
    refine ⟨hreach.step (a := .queueEntry (.buffer ⟨0, 1⟩)) trivial rfl, ?_, hindices⟩
    rw [SinkPad.queueEntry_queue, hqueue, List.replicate_succ']

theorem synchronizeQueue_ontime (n m : ℕ) :
    (synchronizeQueue (fun _ => .ontime) n (List.replicate m (.buffer ⟨0, 1⟩))).2.1 = min n m := by
  induction m generalizing n with
  | zero => cases n <;> rfl
  | succ m ih =>
    cases n with
    | zero => rw [List.replicate_succ, synchronizeQueue, Nat.zero_min]
    | succ n =>
      rw [List.replicate_succ, synchronizeQueue]
      exact (congrArg (· + 1) (ih n)).trans (Nat.succ_min_succ n m).symm

/-- Every buffer on time and no rate limit below `n`. -/
def allOnTime (n : ℕ) (_ : ℕ) : OfferEnv := ⟨n, fun _ => .ontime⟩

section OnePad

variable {p : BatchPolicy} {id n : ℕ} {st : FormState}

/-- Offers to other sources than the only one with a pad change nothing. -/
theorem offer_of_ne (env : ℕ → OfferEnv) {a : ℕ} (hnone : ∀ a ≠ id, st.inputs[a]?.join = none) (ha : a ≠ id) :
    (p.offer env st a).inputs = st.inputs ∧ (p.offer env st a).batch = st.batch := by
  unfold BatchPolicy.offer updateWithSource
  split
  · rename_i pad hpad
    have := hnone a ha
    rw [hpad] at this
    cases this
  · exact ⟨rfl, rfl⟩

theorem foldl_offer_of_notMem (env : ℕ → OfferEnv) : ∀ (l : List ℕ) (st : FormState),
    (∀ a ≠ id, st.inputs[a]?.join = none) → id ∉ l →
    (l.foldl (p.offer env) st).inputs = st.inputs ∧ (l.foldl (p.offer env) st).batch = st.batch
  | [], _, _, _ => ⟨rfl, rfl⟩
  | a :: l, st, hnone, hid => by
    obtain ⟨hinputs, hbatch⟩ := offer_of_ne (p := p) env hnone (Ne.symm (List.ne_of_not_mem_cons hid))
    obtain ⟨hinputs', hbatch'⟩ := foldl_offer_of_notMem env l (p.offer env st a)
      (fun a ha => by rw [hinputs]; exact hnone a ha) (List.not_mem_of_not_mem_cons hid)
    exact ⟨hinputs'.trans hinputs, hbatch'.trans hbatch⟩

/-- The only source with buffers is given all of them, if its limits and the batch
allow it. -/
theorem framesOf_offer (hpad : st.inputs[id]? = some (some (padOf id n))) (hfresh : id ∉ st.batch.numSources)
    (hacc : st.batch.accBatch = 0) (hrepeats : n ≤ p.allowedRepeats st.inputs.size id)
    (hpos : p.allowedRepeats st.inputs.size id % 2 ^ 32 ≠ 0) (hsize : n ≤ st.batch.batchSize)
    (hsize32 : st.batch.batchSize < 2 ^ 32) (hn : n < 2 ^ 31) :
    framesOf (p.offer (allOnTime n) st id) id = n ∧
      ∀ a ≠ id, (p.offer (allOnTime n) st id).inputs[a]? = st.inputs[a]? := by
  obtain ⟨hreach, hqueue, -⟩ := padOf_spec id n
  have havail : (padOf id n).getAvailable = n := by
    rw [(SinkPad.Counted.of_reach hreach).available.available, hqueue]
    have hlen : ∀ m, (buffersOf (List.replicate m (.buffer ⟨0, 1⟩))).length = m := by
      intro m
      induction m with
      | zero => rfl
      | succ m ih => rw [List.replicate_succ, buffersOf_cons_buffer, List.length_cons, ih]
    rw [hlen, Nat.mod_eq_of_lt (by omega)]
  have hinsert : p.numToInsert st.inputs.size id (padOf id n) st.batch n = n := by
    have hallowed : p.getAllowed id n n = n := by
      unfold getAllowed
      split <;> [split; skip] <;> simp
    rw [numToInsert_eq, havail, hallowed, hacc, wrapSub_of_le (Nat.zero_le _) hsize32]
    omega
  have hzero : (Table.touch st.batch.numSources id 0).getD id 0 ≠ toInt32 (p.allowedRepeats st.inputs.size id) := by
    rw [Table.getD_touch, Std.TreeMap.getD_eq_fallback hfresh]
    unfold toInt32
    split <;> omega
  have hcount : (if p.synchBuffer then (synchronizeBuffersInPad (padOf id n) n fun _ => .ontime).2 else n) = n := by
    split
    · rw [synchronizeBuffersInPad, hqueue, synchronizeQueue_ontime, Nat.min_self]
    · rfl
  unfold BatchPolicy.offer updateWithSource
  rw [hpad]
  dsimp only [allOnTime]
  rw [if_neg hzero, hinsert, hcount]
  refine ⟨?_, fun a ha => ?_⟩
  · unfold framesOf
    rw [Std.TreeMap.getD_insert_self, toInt32_of_lt hn, Int.toNat_natCast]
  · split
    · rw [Table.getElem?_insert, if_neg ha]
    · rfl

end OnePad

/-- Inputs with the same pads, of which only `id` has buffers, `n` of them. -/
def onlyPad (pads : Inputs) (id n : ℕ) : Inputs :=
  pads.map fun a _ => if a = id then some (padOf id n) else none

theorem onlyPad_spec {pads : Inputs} {id : ℕ} (hid : id ∈ pads) (n : ℕ) :
    (onlyPad pads id n)[id]? = some (some (padOf id n)) ∧ (∀ a ≠ id, (onlyPad pads id n)[a]?.join = none) ∧
      Table.keySet (onlyPad pads id n) = Table.keySet pads ∧ PadsReached (onlyPad pads id n) := by
  have hget : ∀ a : ℕ, (onlyPad pads id n)[a]? = pads[a]?.map fun _ => if a = id then some (padOf id n) else none :=
    fun a => Std.TreeMap.getElem?_map
  have hother : ∀ a ≠ id, (onlyPad pads id n)[a]?.join = none := by
    intro a ha
    rw [hget, if_neg ha]
    cases pads[a]? <;> rfl
  have hat : (onlyPad pads id n)[id]? = some (some (padOf id n)) := by
    obtain ⟨v, hv⟩ := Option.isSome_iff_exists.mp (Std.TreeMap.mem_iff_isSome_getElem?.mp hid)
    rw [hget, hv, if_pos rfl, Option.map_some]
  refine ⟨hat, hother, ?_, fun a pad hpad => ?_⟩
  · rw [Table.keySet, onlyPad, Std.TreeMap.keys_map, Table.keySet]
  · by_cases ha : a = id
    · rw [ha, hat, Option.some.injEq, Option.some.injEq] at hpad
      exact hpad ▸ (padOf_spec id n).1
    · have := hother a ha
      rw [hpad] at this
      cases this

/-- Over the bound of all limits and its own, a source is given one frame too many by a
batch for which no other source has any. -/
theorem exists_overLimit {p : BatchPolicy} (hp : p.WellKeyed) (hr : p.ResumeOk) {pads : Inputs}
    {thisBatchSize : Fin (2 ^ 32)} {id : ℕ} (hid : id ∈ p.sources.map Prod.snd) (hmem : id ∈ pads)
    (hword : p.config.maxSameSourceFrames < 2 ^ 32) (hover : p.maxFramesOf id < p.frameBound pads.size thisBatchSize) :
    ∃ r, p.formBatch (onlyPad pads id (p.maxFramesOf id + 1)) none thisBatchSize
        (allOnTime (p.maxFramesOf id + 1)) = some r ∧
      framesOf r.2 id = p.maxFramesOf id + 1 := by
  obtain ⟨hat, hother, hkeys, -⟩ := onlyPad_spec hmem (p.maxFramesOf id + 1)
  have hsize : (onlyPad pads id (p.maxFramesOf id + 1)).size = pads.size := by
    rw [← Table.card_keySet, hkeys, Table.card_keySet]
  have hne : p.priorityList ≠ [] := by
    obtain ⟨e, he, -⟩ := List.mem_map.mp hid
    obtain ⟨x, hx, -⟩ := hp.key_mem e he
    exact List.ne_nil_of_mem hx
  have hfirst := firstPosition_lt hr hne
  obtain ⟨saved, hform, -⟩ := formBatch_eq_scan hp hr hne (onlyPad pads id (p.maxFramesOf id + 1)) none thisBatchSize
    (allOnTime (p.maxFramesOf id + 1))
  refine ⟨_, hform, ?_⟩
  have hsched := (mem_schedule hp (p.enterAt true) hfirst).mpr hid
  have hnd := schedule_nodup hp (p.enterAt true) hfirst
  rw [scan_fst]
  generalize p.schedule _ _ _ = L at hsched hnd
  generalize hst : (⟨onlyPad pads id (p.maxFramesOf id + 1), emptied none thisBatchSize, []⟩ : FormState) = st
  have hbatch : st.batch = ⟨∅, 0, thisBatchSize⟩ := by rw [← hst]; rfl
  have hinputs : st.inputs = onlyPad pads id (p.maxFramesOf id + 1) := by rw [← hst]
  have hnone : ∀ a ≠ id, st.inputs[a]?.join = none := by rwa [hinputs]
  unfold frameBound at hover
  have hlt := thisBatchSize.isLt
  -- the batch is empty until the source is offered, so the round comes to it
  have hin : id ∈ L.take (scan (p.offer (allOnTime (p.maxFramesOf id + 1))) ready st L).2 := by
    by_contra hnot
    have hstop : ¬ ready (scan (p.offer (allOnTime (p.maxFramesOf id + 1))) ready st L).1 := by
      rw [scan_fst, ready, (foldl_offer_of_notMem _ _ st hnone hnot).2, hbatch, isReady]
      simp only [decide_eq_true_eq, not_and]
      omega
    rw [scan_snd_of_not_stop _ _ _ _ hstop, List.take_length] at hnot
    exact hnot hsched
  obtain ⟨l₁, l₂, hsplit⟩ := List.append_of_mem hin
  have hnd' : (l₁ ++ id :: l₂).Nodup := hsplit ▸ hnd.sublist (List.take_sublist _ _)
  obtain ⟨hid₁, hid₂⟩ : id ∉ l₁ ∧ id ∉ l₂ := by
    obtain ⟨-, hcons, hdisj⟩ := List.nodup_append.mp hnd'
    exact ⟨fun h => hdisj _ h _ List.mem_cons_self rfl, (List.nodup_cons.mp hcons).1⟩
  obtain ⟨hinputs₁, hbatch₁⟩ := foldl_offer_of_notMem (p := p) (allOnTime (p.maxFramesOf id + 1)) l₁ st hnone hid₁
  have hrepeats := allowedRepeats_eq p pads.size id
  rw [hsplit, List.foldl_append, List.foldl_cons]
  generalize l₁.foldl _ st = st₁ at hinputs₁ hbatch₁ ⊢
  have hsize₁ : st₁.inputs.size = pads.size := by rw [hinputs₁, hinputs, hsize]
  have hbatch₁' := hbatch₁.trans hbatch
  have hat₁ : st₁.inputs[id]? = some (some (padOf id (p.maxFramesOf id + 1))) := by rw [hinputs₁, hinputs]; exact hat
  obtain ⟨hframes, hothers⟩ := framesOf_offer (p := p) hat₁ (by rw [hbatch₁']; exact Std.TreeMap.not_mem_emptyc) (by rw [hbatch₁'])
    (by rw [hsize₁, hrepeats]; omega) (by rw [hsize₁, hrepeats]; omega)
    (by rw [hbatch₁']; show _ ≤ (thisBatchSize : ℕ); omega) (by rw [hbatch₁']; exact hlt) (by omega)
  have hend := (foldl_offer_of_notMem (p := p) (allOnTime (p.maxFramesOf id + 1)) l₂ _
    (fun a ha => by rw [hothers a ha, hinputs₁]; exact hnone a ha) hid₂).2
  unfold framesOf at hframes ⊢
  rw [hend, hframes]

/-! ### When the limits are kept -/

/-- The containers of the policy stay well keyed in every run. -/
theorem wellKeyed_run {p : BatchPolicy} (h : Reach step anyStep Constructed p) : p.WellKeyed := by
  refine h.invariant (fun _ hp => (resumeOk_new hp).1) fun p c p' hp _ hs => ?_
  cases c with
  | checkAndUpdateDefaults sourceId =>
    cases hs
    exact hp.checkAndUpdateDefaults sourceId
  | formBatch inputs batch thisBatchSize env =>
    obtain ⟨r, hr, rfl⟩ := Option.map_eq_some_iff.mp hs
    obtain ⟨-, saved, hsaved⟩ := formBatch_invariant (I := fun _ => True) (fun _ _ _ _ => trivial) trivial hr
    rw [hsaved]
    exact hp
  | updatePushStats sourceId =>
    cases hs
    unfold updatePushStats
    split
    · exact hp
    · exact hp
  | _ =>
    cases hs
    exact hp

/-- **When every source keeps within its limits.** With these pads and this batch size,
`form_batch` takes from no source more than its limits allow, whatever is queued and
wherever it begins, exactly if no source's own limit is below the bound of the others. -/
theorem withinLimits_iff {p : BatchPolicy} (h : Reach step anyStep Constructed p) (pads : Inputs)
    (thisBatchSize : Fin (2 ^ 32)) (hword : p.config.maxSameSourceFrames < 2 ^ 32) :
    (∀ (saved : LastBatchState) (inputs : Inputs) (batch : Option Batch) (env : ℕ → OfferEnv)
      (r : BatchPolicy × FormState), Table.keySet inputs = Table.keySet pads → PadsReached inputs →
      BatchPolicy.formBatch { p with lastBatchState := saved } inputs batch thisBatchSize env = some r →
      ∀ id, WithinLimits p r.2 id) ↔
    ∀ id ∈ p.sources.map Prod.snd, id ∈ pads → p.frameBound pads.size thisBatchSize ≤ p.maxFramesOf id := by
  constructor
  · intro hall id hid hmem
    by_contra hover
    have hp := wellKeyed_run h
    have hr : BatchPolicy.ResumeOk { p with lastBatchState := ⟨0, 0⟩ } := by
      obtain ⟨e, he, -⟩ := List.mem_map.mp hid
      obtain ⟨x, hx, -⟩ := hp.key_mem e he
      exact .inr (hp.groupAt_pos (List.length_pos_of_mem hx))
    obtain ⟨r, hform, hframes⟩ := exists_overLimit (p := { p with lastBatchState := ⟨0, 0⟩ }) hp hr hid hmem hword
      (Nat.not_le.mp hover)
    obtain ⟨-, -, hkeys, hreached⟩ := onlyPad_spec hmem (p.maxFramesOf id + 1)
    have hlimit := (hall _ _ _ _ r hkeys hreached hform id).source
    rw [hframes] at hlimit
    exact absurd hlimit (Nat.not_succ_le_self _)
  · intro hbound saved inputs batch env r hkeys hreached hform id
    obtain ⟨hbounded, -⟩ := formBatch_invariant (p := { p with lastBatchState := saved })
      (I := Bounded { p with lastBatchState := saved } pads thisBatchSize)
      (fun st id hid hst => hst.offer thisBatchSize.isLt hid) (Bounded.emptied batch hkeys hreached) hform
    obtain ⟨hsame, hsource, hqueued⟩ := hbounded.withinLimits hbound id
    exact ⟨hsame, hsource, hqueued⟩

theorem PadsReached.insert {inputs : Inputs} (h : PadsReached inputs) {id : ℕ} {pad : SinkPad}
    (hpad : Reach SinkPad.step anyStep SinkPad.Constructed pad) : PadsReached (inputs.insert id (some pad)) := by
  intro a q hq
  rw [Table.getElem?_insert] at hq
  split at hq
  · cases hq
    exact hpad
  · exact h a q hq

theorem padsReached_oneBufferEach (ids : List ℕ) : PadsReached (oneBufferEach ids) := by
  have hfold : ∀ (ids : List ℕ) (m : Inputs), PadsReached m → PadsReached
      (ids.foldl (fun m id => m.insert id (some ((SinkPad.new id).queueEntry (.buffer ⟨id, 1⟩)))) m) := by
    intro ids
    induction ids with
    | nil => exact fun _ h => h
    | cons id ids ih =>
      intro m h
      have hnew : Reach SinkPad.step anyStep SinkPad.Constructed (SinkPad.new id) := .init ⟨rfl, rfl⟩
      exact ih _ (h.insert (hnew.step (a := .queueEntry (.buffer ⟨id, 1⟩)) trivial rfl))
  exact hfold ids ∅ fun a q hq => absurd hq (by simp)

/-- With one frame of a source in a batch no limit is passed. -/
theorem withinLimits_iff_threeSources : ∃ r,
    (BatchPolicy.new threeSources []).formBatch (oneBufferEach [1, 2, 3]) none 2 noLimits = some r ∧
      ∀ id, WithinLimits (BatchPolicy.new threeSources []) r.2 id := by
  have hform : ((BatchPolicy.new threeSources []).formBatch (oneBufferEach [1, 2, 3]) none 2 noLimits).isSome := by
    decide
  obtain ⟨r, hr⟩ := Option.isSome_iff_exists.mp hform
  exact ⟨r, hr, (withinLimits_iff (.init ⟨threeSources, [], rfl⟩) (oneBufferEach [1, 2, 3]) 2 (by decide)).mpr
    (by decide) ⟨0, 0⟩ _ none noLimits r rfl (padsReached_oneBufferEach _) hr⟩

/-- Two sources each of which may give one frame of a batch of four. -/
def oneFrameEach : BatchPolicyConfig where
  type := .roundRobin
  adaptiveBatching := false
  batchSize := 4
  maxSameSourceFrames := 4
  enableSourceRateControl := false
  enableMaxFpsControl := false
  sourceProps := [1, 2].map fun id => (id, { priority := 0, maxNumFramesPerBatch := 1 })

/-- The first of them with three buffers gives all three. -/
theorem formBatch_overLimit : ∃ (p : BatchPolicy) (inputs : Inputs) (r : BatchPolicy × FormState),
    Reach step anyStep Constructed p ∧ PadsReached inputs ∧ p.formBatch inputs none 4 noLimits = some r ∧
      ¬ WithinLimits p r.2 1 := by
  have hform : ((BatchPolicy.new oneFrameEach []).formBatch (onlyPad (oneBufferEach [1, 2]) 1 3) none 4 noLimits).map
      (fun r => framesOf r.2 1) = some 3 := by decide
  obtain ⟨r, hr, hframes⟩ := Option.map_eq_some_iff.mp hform
  refine ⟨_, _, r, .init ⟨oneFrameEach, [], rfl⟩, (onlyPad_spec (by decide) 3).2.2.2, hr, fun h => ?_⟩
  have hlimit := h.source
  rw [hframes] at hlimit
  exact absurd hlimit (by decide)

end BatchPolicy

end Mux
end DeepStream
