/-
# A batch offers every source once

From a saved position that denotes a source (`ResumeOk`), `formBatch` is a
`scan` of `schedule`, the sources from the saved one on, group by group: each
source comes once, the position saved for the next batch denotes a source
again, and the fill level of the batch is the sum of what the sources were
given.

A source that is added keeps the saved position good exactly when it does not
shift the groups under it (`GrowthSafe`): the default priority is the least,
and the first source to have it opens a group in front of the others, after
which the position counts from another group.
-/
import DeepStream.Lib.Run
import DeepStream.Lib.Scan
import DeepStream.Mux.Groups

namespace DeepStream
namespace Mux
namespace BatchPolicy

/-! ### The loops are a scan -/

def ready (st : FormState) : Bool := isReady st.batch

/-- The order in which the sources are offered: `n` groups from the one at
`i` on, the first of them from the source at `offset` on. -/
def schedule (p : BatchPolicy) : ℕ → ℕ → ℕ → List ℕ
  | 0, _, _ => []
  | n + 1, i, offset =>
    cyclic (p.groupAt i) offset (p.groupAt i).length ++ schedule p n (next p.priorityList.length i) 0

/-- A saved position denotes a source of the group of its priority. -/
def Denotes (p : BatchPolicy) (s : LastBatchState) : Prop :=
  s.sourceMapPosition < (p.groupAt s.priorityListPosition).length

instance (p : BatchPolicy) (s : LastBatchState) : Decidable (p.Denotes s) :=
  inferInstanceAs (Decidable (_ < _))

/-- Where the next group is entered. -/
def enterAt (p : BatchPolicy) (jumpSource : Bool) : ℕ :=
  if jumpSource ∧ p.config.type = .roundRobin then p.lastBatchState.sourceMapPosition else 0

/-- Whether the saved position is still to be entered after the first group. -/
def stillJumping (p : BatchPolicy) (jumpSource : Bool) : Bool :=
  jumpSource ∧ ¬ (jumpSource ∧ p.config.type = .roundRobin)

theorem enterAt_stillJumping (p : BatchPolicy) (jumpSource : Bool) :
    p.enterAt (p.stillJumping jumpSource) = 0 := by
  unfold enterAt stillJumping
  rw [if_neg]
  simp only [decide_eq_true_eq]
  tauto

section Loops

variable {p : BatchPolicy} (h : p.WellKeyed) (env : ℕ → OfferEnv)
include h

/-- One round of the loop over a group: the offer, and the positions of the
next source. -/
theorem sourceLoop_succ (k : ℤ) (n : ℕ) {i : ℕ} (st : FormState)
    (hi : i < (group p.sources k).length) :
    p.sourceLoop env (lowerBound p.sources k) (upperBound p.sources k) (n + 1)
        (lowerBound p.sources k + i) i st =
      if 0 < n ∧ ¬ ready (p.offer env st (group p.sources k)[i]) then
        p.sourceLoop env (lowerBound p.sources k) (upperBound p.sources k) n
          (lowerBound p.sources k + next (group p.sources k).length i)
          (next (group p.sources k).length i) (p.offer env st (group p.sources k)[i])
      else some (p.offer env st (group p.sources k)[i], next (group p.sources k).length i) := by
  have hlast : lowerBound p.sources k + i + 1 = upperBound p.sources k ↔
      i + 1 = (group p.sources k).length := by
    rw [upperBound_eq h.sources_sorted]
    omega
  have hindex : (if i + 1 = (group p.sources k).length then lowerBound p.sources k
      else lowerBound p.sources k + i + 1) =
        lowerBound p.sources k + next (group p.sources k).length i := by
    unfold next
    split <;> omega
  rw [sourceLoop, getElem?_segment h.sources_sorted k hi]
  simp only [hlast, hindex]
  rfl

theorem sourceLoop_eq_scan (k : ℤ) : ∀ (n : ℕ) {i : ℕ} (st : FormState),
    i < (group p.sources k).length → n < (group p.sources k).length →
    p.sourceLoop env (lowerBound p.sources k) (upperBound p.sources k) (n + 1)
        (lowerBound p.sources k + i) i st =
      some ((scan (p.offer env) ready st (cyclic (group p.sources k) i (n + 1))).1,
        (i + (scan (p.offer env) ready st (cyclic (group p.sources k) i (n + 1))).2) %
          (group p.sources k).length) := by
  intro n
  induction n with
  | zero =>
    intro i st hi hn
    rw [sourceLoop_succ h env k 0 st hi, if_neg (by simp), cyclic_succ hi (by omega), cyclic_zero,
      next_eq_mod hi]
    by_cases hr : ready (p.offer env st (group p.sources k)[i])
    · rw [scan_cons_of_stop _ _ _ hr]
    · rw [scan_cons_of_not_stop _ _ _ hr]
      rfl
  | succ n ih =>
    intro i st hi hn
    rw [sourceLoop_succ h env k (n + 1) st hi, cyclic_succ hi (by omega)]
    by_cases hr : ready (p.offer env st (group p.sources k)[i])
    · rw [if_neg (by simp [hr]), scan_cons_of_stop _ _ _ hr, next_eq_mod hi]
    · rw [if_pos ⟨by omega, hr⟩, scan_cons_of_not_stop _ _ _ hr, ih _ (next_lt hi) (by omega)]
      have hmod : ∀ c : ℕ, (next (group p.sources k).length i + c) % (group p.sources k).length =
          (i + (c + 1)) % (group p.sources k).length := fun c => by
        rw [next_eq_mod hi, Nat.mod_add_mod, Nat.add_assoc, Nat.add_comm 1 c]
      rw [hmod]

/-- One round of the loop over the priorities: the group is scanned, and the
position is saved at the source after the last one offered. -/
theorem priorityLoop_succ (n : ℕ) {i : ℕ} (jump : Bool) (st : FormState)
    (hi : i < p.priorityList.length) (hoff : p.enterAt jump < (p.groupAt i).length) :
    p.priorityLoop env (n + 1) i i jump st =
      let r := scan (p.offer env) ready st (cyclic (p.groupAt i) (p.enterAt jump) (p.groupAt i).length)
      let sourceIndex := (p.enterAt jump + r.2) % (p.groupAt i).length
      if ready r.1 then some (r.1, ⟨i, sourceIndex⟩)
      else if n = 0 then some (r.1, ⟨next p.priorityList.length i, sourceIndex⟩)
      else p.priorityLoop env n (next p.priorityList.length i) (next p.priorityList.length i)
        (p.stillJumping jump) r.1 := by
  obtain ⟨m, hm⟩ : ∃ m, (p.groupAt i).length = m + 1 := ⟨_, (Nat.succ_pred_eq_of_pos (by omega)).symm⟩
  rw [groupAt_of_lt hi] at hoff hm ⊢
  have hloop := sourceLoop_eq_scan h env (toInt32 p.priorityList[i]) m st hoff (by omega)
  rw [← hm] at hloop
  have hcount : upperBound p.sources (toInt32 p.priorityList[i]) -
      lowerBound p.sources (toInt32 p.priorityList[i]) =
        (group p.sources (toInt32 p.priorityList[i])).length := by
    rw [upperBound_eq h.sources_sorted, Nat.add_sub_cancel_left]
  rw [priorityLoop, List.getElem?_eq_getElem hi]
  simp only [hcount]
  rw [enterAt] at hloop
  rw [hloop]
  rfl

/-- The loop over the priorities offers the schedule, and the position it saves
denotes a source if the first group was entered at its start or all groups
were to be visited. -/
theorem priorityLoop_eq_scan : ∀ (n : ℕ) {i : ℕ} (jump : Bool) (st : FormState),
    i < p.priorityList.length → p.enterAt jump < (p.groupAt i).length →
    p.enterAt jump = 0 ∨ n + 1 = p.priorityList.length →
    ∃ saved, p.priorityLoop env (n + 1) i i jump st =
        some ((scan (p.offer env) ready st (p.schedule (n + 1) i (p.enterAt jump))).1, saved) ∧
      p.Denotes saved := by
  intro n
  induction n with
  | zero =>
    intro i jump st hi hoff hall
    rw [priorityLoop_succ h env 0 jump st hi hoff, schedule, schedule, List.append_nil]
    dsimp only
    split
    · exact ⟨_, rfl, Nat.mod_lt _ (by omega)⟩
    · rename_i hr
      refine ⟨_, rfl, ?_⟩
      rw [scan_snd_of_not_stop _ _ _ _ hr, length_cyclic le_rfl, Nat.add_mod_right,
        Nat.mod_eq_of_lt hoff, Denotes]
      -- the whole group was visited, so the offset is back where it began
      rcases hall with h0 | hone
      · rw [h0]
        exact h.groupAt_pos (next_lt hi)
      · have hnext : next p.priorityList.length i = i := by
          unfold next
          split <;> omega
        rwa [hnext]
  | succ n ih =>
    intro i jump st hi hoff _
    have hne : cyclic (p.groupAt i) (p.enterAt jump) (p.groupAt i).length ≠ [] := by
      rw [ne_eq, ← List.length_eq_zero_iff, length_cyclic le_rfl]
      omega
    rw [priorityLoop_succ h env (n + 1) jump st hi hoff, schedule, scan_append _ _ _ _ hne]
    dsimp only
    split
    · exact ⟨_, rfl, Nat.mod_lt _ (by omega)⟩
    · rw [if_neg (by omega)]
      have h0 := enterAt_stillJumping p jump
      have := ih (p.stillJumping jump)
        (scan (p.offer env) ready st (cyclic (p.groupAt i) (p.enterAt jump) (p.groupAt i).length)).1
        (next_lt hi) (by rw [h0]; exact h.groupAt_pos (next_lt hi)) (.inl h0)
      rwa [h0] at this

omit h in
/-- The schedule goes through the sources of the groups it visits. -/
theorem schedule_perm : ∀ (n : ℕ) {i offset : ℕ}, i < p.priorityList.length →
    n ≤ p.priorityList.length →
    (p.schedule n i offset).Perm
      ((cyclic p.priorityList i n).flatMap fun x => group p.sources (toInt32 x)) := by
  intro n
  induction n with
  | zero =>
    intros
    exact List.Perm.refl _
  | succ n ih =>
    intro i offset hi hn
    rw [schedule, cyclic_succ hi hn, List.flatMap_cons, groupAt_of_lt hi]
    exact (cyclic_perm _ _).append (ih (next_lt hi) (by omega))

/-- A round over all priorities offers every source once. -/
theorem schedule_nodup {i : ℕ} (offset : ℕ) (hi : i < p.priorityList.length) :
    (p.schedule p.priorityList.length i offset).Nodup :=
  ((schedule_perm _ hi le_rfl).trans ((cyclic_perm _ i).flatMap_right _)).nodup_iff.mpr
    h.nodup_flatMap

theorem mem_schedule {i : ℕ} (offset : ℕ) (hi : i < p.priorityList.length) {id : ℕ} :
    id ∈ p.schedule p.priorityList.length i offset ↔ id ∈ p.sources.map Prod.snd :=
  ((schedule_perm _ hi le_rfl).trans ((cyclic_perm _ i).flatMap_right _)).mem_iff.trans
    h.mem_flatMap

end Loops

/-! ### From a good position -/

/-- The saved position denotes a source, when there is one. -/
def ResumeOk (p : BatchPolicy) : Prop :=
  p.priorityList = [] ∧ p.lastBatchState = ⟨0, 0⟩ ∨ p.Denotes p.lastBatchState

/-- The position at which `formBatch` begins. -/
def firstPosition (p : BatchPolicy) : ℕ :=
  if p.config.type = .roundRobin then p.lastBatchState.priorityListPosition else 0

/-- The batch that `formBatch` begins with. -/
def emptied (batch : Option Batch) (thisBatchSize : ℕ) : Batch :=
  match batch with
  | none => (Batch.new thisBatchSize).resetBatch
  | some b => (b.setSize thisBatchSize).resetBatch

theorem formBatch_eq (p : BatchPolicy) (inputs : Inputs) (batch : Option Batch) (thisBatchSize : ℕ)
    (env : ℕ → OfferEnv) :
    p.formBatch inputs batch thisBatchSize env =
      (p.priorityLoop env p.priorityList.length
        (if p.firstPosition = p.priorityList.length then 0 else p.firstPosition) p.firstPosition true
        ⟨inputs, emptied batch thisBatchSize, []⟩).map
          fun r => ({ p with lastBatchState := r.2 }, r.1) := by
  cases batch <;> rfl

section Invariant

variable {p : BatchPolicy} {env : ℕ → OfferEnv} {I : FormState → Prop}
  (hoffer : ∀ st, ∀ id ∈ p.sources.map Prod.snd, I st → I (p.offer env st id))
include hoffer

theorem sourceLoop_invariant {first last : ℕ} : ∀ (n index sourceIndex : ℕ) (st : FormState)
    {r : FormState × ℕ}, I st → p.sourceLoop env first last n index sourceIndex st = some r → I r.1 := by
  intro n
  induction n with
  | zero =>
    intro index sourceIndex st r h hr
    unfold sourceLoop at hr
    split at hr
    · cases hr
    · rename_i hat
      cases hr
      exact hoffer _ _ (List.mem_map_of_mem (List.mem_of_getElem? hat)) h
  | succ n ih =>
    intro index sourceIndex st r h hr
    unfold sourceLoop at hr
    split at hr
    · cases hr
    · rename_i hat
      have hid := List.mem_map_of_mem (f := Prod.snd) (List.mem_of_getElem? hat)
      dsimp only at hr
      split at hr
      · exact ih _ _ _ (hoffer _ _ hid h) hr
      · cases hr
        exact hoffer _ _ hid h

theorem priorityLoop_invariant : ∀ (n priorIt priorityIndex : ℕ) (jump : Bool) (st : FormState)
    {r : FormState × LastBatchState}, I st →
    p.priorityLoop env n priorIt priorityIndex jump st = some r → I r.1 := by
  intro n
  induction n with
  | zero =>
    intro priorIt priorityIndex jump st r _ hr
    cases hr
  | succ n ih =>
    intro priorIt priorityIndex jump st r h hr
    unfold priorityLoop at hr
    split at hr
    · cases hr
    · dsimp only at hr
      split at hr
      · cases hr
      · rename_i st' sourceIndex hloop
        have hst' := sourceLoop_invariant hoffer _ _ _ _ h hloop
        split at hr
        · cases hr
          exact hst'
        · split at hr
          · cases hr
            exact hst'
          · exact ih _ _ _ _ hst' hr

/-- What every offer keeps holds of the batch that is formed, from whatever
position; only the saved position of the policy changes. -/
theorem formBatch_invariant {inputs : Inputs} {batch : Option Batch} {thisBatchSize : ℕ}
    {r : BatchPolicy × FormState} (h0 : I ⟨inputs, emptied batch thisBatchSize, []⟩)
    (h : p.formBatch inputs batch thisBatchSize env = some r) :
    I r.2 ∧ ∃ saved, r.1 = { p with lastBatchState := saved } := by
  rw [formBatch_eq] at h
  obtain ⟨r', hr', rfl⟩ := Option.map_eq_some_iff.mp h
  exact ⟨priorityLoop_invariant hoffer _ _ _ _ _ h0 hr', _, rfl⟩

end Invariant

section FormBatch

variable {p : BatchPolicy} (h : p.WellKeyed) (hr : p.ResumeOk) (hne : p.priorityList ≠ [])
include hr hne

theorem firstPosition_lt : p.firstPosition < p.priorityList.length := by
  unfold firstPosition
  split
  · exact lt_length_of_groupAt (by have := hr.resolve_left (mt And.left hne); unfold Denotes at this; omega)
  · exact List.length_pos_iff.mpr hne

include h

theorem enterAt_lt : p.enterAt true < (p.groupAt p.firstPosition).length := by
  have hfirst := firstPosition_lt hr hne
  unfold enterAt firstPosition at *
  by_cases ht : p.config.type = .roundRobin
  · simp only [ht, and_self, ite_true]
    exact hr.resolve_left (mt And.left hne)
  · simp only [ht, and_false, ite_false] at hfirst ⊢
    exact h.groupAt_pos hfirst

/-- `formBatch` offers the sources of the schedule until the batch is ready,
and saves a position that denotes a source. -/
theorem formBatch_eq_scan (inputs : Inputs) (batch : Option Batch) (thisBatchSize : ℕ)
    (env : ℕ → OfferEnv) :
    ∃ saved, p.formBatch inputs batch thisBatchSize env =
        some ({ p with lastBatchState := saved },
          (scan (p.offer env) ready ⟨inputs, emptied batch thisBatchSize, []⟩
            (p.schedule p.priorityList.length p.firstPosition (p.enterAt true))).1) ∧
      p.Denotes saved := by
  have hfirst := firstPosition_lt hr hne
  obtain ⟨n, hn⟩ : ∃ n, p.priorityList.length = n + 1 :=
    ⟨_, (Nat.succ_pred_eq_of_pos (List.length_pos_iff.mpr hne)).symm⟩
  obtain ⟨saved, hloop, hsaved⟩ := priorityLoop_eq_scan h env n true
    ⟨inputs, emptied batch thisBatchSize, []⟩ hfirst (enterAt_lt h hr hne) (.inr hn.symm)
  refine ⟨saved, ?_, hsaved⟩
  rw [formBatch_eq, if_neg hfirst.ne, hn, hloop]
  rfl

end FormBatch

/-! ### What the sources are given -/

theorem synchronizeQueue_bufErase (synchInfo : BufferWrapper → BufferTsStatus) (n : ℕ)
    (q : List QueueEntry) : BufErase q (synchronizeQueue synchInfo n q).1 := by
  fun_induction synchronizeQueue synchInfo n q with
  | case1 => exact .nil
  | case2 | case4 => exact .refl _
  | case3 n e q r ih => exact .keep _ ih
  | case5 n b q hb r ih => exact .drop b ih
  | case6 n b q hb r ih => exact .keep _ ih

theorem synchronizeQueue_length (synchInfo : BufferWrapper → BufferTsStatus) (n : ℕ) (q : List QueueEntry) :
    (buffersOf q).length = (synchronizeQueue synchInfo n q).2.2 +
      (buffersOf (synchronizeQueue synchInfo n q).1).length := by
  fun_induction synchronizeQueue synchInfo n q with
  | case1 | case2 | case4 => simp
  | case3 n e q r ih => exact ih
  | case5 n b q hb r ih =>
    rw [buffersOf_cons_buffer, List.length_cons, ih, Nat.add_right_comm]
  | case6 n b q hb r ih =>
    rw [buffersOf_cons_buffer, List.length_cons, ih]
    rfl

theorem synchronizeBuffersInPad_trims (p : SinkPad) (n : ℕ)
    (synchInfo : BufferWrapper → BufferTsStatus) :
    p.Trims (synchronizeBuffersInPad p n synchInfo).1 :=
  .of_pops _ (synchronizeQueue_bufErase synchInfo n p.queue) (synchronizeQueue_length synchInfo n p.queue)
    rfl rfl rfl rfl rfl

theorem synchronizeQueue_onTime_le (synchInfo : BufferWrapper → BufferTsStatus) (n : ℕ)
    (q : List QueueEntry) : (synchronizeQueue synchInfo n q).2.1 ≤ n := by
  fun_induction synchronizeQueue synchInfo n q with
  | case1 | case2 | case4 => exact Nat.zero_le _
  | case3 n e q r ih => exact ih
  | case5 n b q hb r ih => exact ih
  | case6 n b q hb r ih => exact Nat.succ_le_succ ih

theorem getAllowed_le (p : BatchPolicy) (sourceId clockAllowed available : ℕ) :
    p.getAllowed sourceId clockAllowed available ≤ available := by
  unfold getAllowed
  split
  · split
    · split <;> omega
    · exact le_rfl
  · exact le_rfl

theorem numToInsert_le (p : BatchPolicy) (size sourceId : ℕ) (pad : SinkPad) (batch : Batch)
    (clockAllowed : ℕ) :
    p.numToInsert size sourceId pad batch clockAllowed ≤ wrapSub 32 batch.batchSize batch.accBatch ∧
      p.numToInsert size sourceId pad batch clockAllowed ≤ pad.getAvailable := by
  have := getAllowed_le p sourceId clockAllowed pad.getAvailable
  unfold numToInsert
  dsimp only
  split <;> split <;> omega

/-- Every count of a source fits an `int`. -/
def CountsFit (inputs : Inputs) (size : ℕ) : Prop :=
  size < 2 ^ 31 ∨ ∀ (id : ℕ) (pad : SinkPad), inputs[id]? = some (some pad) → pad.getAvailable < 2 ^ 31

/-- The fill level is the sum of the counts: as integers when the counts fit,
and in any case as the words that the code compares. -/
structure Accounted (inputs : Inputs) (size : ℕ) (st : FormState) : Prop where
  size_eq : st.batch.batchSize = size
  le : st.batch.accBatch ≤ size
  modEq : (2 ^ 32 : ℤ) ∣ st.batch.accBatch - Table.total st.batch.numSources
  exact : CountsFit inputs size → (st.batch.accBatch : ℤ) = Table.total st.batch.numSources
  offered_of_mem : ∀ id ∈ st.batch.numSources, id ∈ st.offered
  untouched : ∀ id ∉ st.offered, st.inputs[id]? = inputs[id]?

theorem toInt32_modEq (n : ℕ) : (2 ^ 32 : ℤ) ∣ n - toInt32 n := by
  unfold toInt32
  split <;> omega

/-- What an offer can do: nothing, enter the source with no buffers, or give it
buffers of its pad, no more than the batch has room for. -/
theorem updateWithSource_cases (p : BatchPolicy) (inputs : Inputs) (batch : Batch) (id : ℕ)
    (env : OfferEnv) :
    p.updateWithSource inputs batch id env = (inputs, batch) ∨
    p.updateWithSource inputs batch id env =
      (inputs, { batch with numSources := Table.touch batch.numSources id 0 }) ∨
    ∃ pad n inputs', inputs[id]? = some (some pad) ∧
      n ≤ wrapSub 32 batch.batchSize batch.accBatch ∧ n ≤ pad.getAvailable ∧
      (inputs' = inputs ∨
        p.synchBuffer ∧ ∃ pad', pad.Trims pad' ∧ inputs' = inputs.insert id (some pad')) ∧
      p.updateWithSource inputs batch id env =
        (inputs', { batch with
          numSources := (Table.touch batch.numSources id 0).insert id (toInt32 n)
          accBatch := wrapAdd 32 batch.accBatch n }) := by
  unfold updateWithSource
  split
  · rename_i pad hpad
    dsimp only
    split
    · exact .inr (.inl rfl)
    · right; right
      have hn := numToInsert_le p inputs.size id pad batch env.clockAllowed
      cases hs : p.synchBuffer with
      | false =>
        exact ⟨pad, _, inputs, hpad, hn.1, hn.2, .inl rfl, rfl⟩
      | true =>
        have hle := synchronizeQueue_onTime_le env.synchInfo
          (p.numToInsert inputs.size id pad batch env.clockAllowed) pad.queue
        exact ⟨pad, _, _, hpad, hle.trans hn.1, hle.trans hn.2,
          .inr ⟨rfl, _, synchronizeBuffersInPad_trims pad _ env.synchInfo, rfl⟩, rfl⟩
  · exact .inl rfl

theorem Accounted.offer {inputs : Inputs} {size : ℕ} {st : FormState} (p : BatchPolicy)
    (env : ℕ → OfferEnv) (hsize : size < 2 ^ 32) (h : Accounted inputs size st) {id : ℕ}
    (hid : id ∉ st.offered) : Accounted inputs size (p.offer env st id) := by
  have hfresh : id ∉ st.batch.numSources := fun hm => hid (h.offered_of_mem id hm)
  have hkeys : ∀ a ∈ Table.touch st.batch.numSources id 0, a ∈ st.offered ++ [id] := fun a ha => by
    rw [← Table.mem_keySet, Table.keySet_touch, Finset.mem_insert, Table.mem_keySet] at ha
    rcases ha with rfl | ha
    · simp
    · exact List.mem_append_left _ (h.offered_of_mem a ha)
  have hrest : ∀ a ∉ st.offered ++ [id], a ∉ st.offered ∧ a ≠ id := fun a ha => by
    simpa [not_or] using ha
  unfold BatchPolicy.offer
  rcases updateWithSource_cases p st.inputs st.batch id (env st.offered.length) with
    hc | hc | ⟨pad, n, inputs', hpad, hroom, havail, hinputs, hc⟩ <;> rw [hc]
  · exact
      { h with
        offered_of_mem := fun a ha => List.mem_append_left _ (h.offered_of_mem a ha)
        untouched := fun a ha => h.untouched a (hrest a ha).1 }
  · exact
      { size_eq := h.size_eq
        le := h.le
        modEq := by simpa only [Table.total_touch] using h.modEq
        exact := by simpa only [Table.total_touch] using h.exact
        offered_of_mem := hkeys
        untouched := fun a ha => h.untouched a (hrest a ha).1 }
  · -- the count of the source goes from 0 to n, and so does the fill level rise
    have htotal := Table.total_insert (Table.touch st.batch.numSources id 0) id (toInt32 n)
    rw [Table.getD_touch, Std.TreeMap.getD_eq_fallback hfresh, Table.total_touch, add_zero] at htotal
    have hle := h.le
    rw [h.size_eq, wrapSub_of_le hle hsize] at hroom
    have hacc : wrapAdd 32 st.batch.accBatch n = st.batch.accBatch + n := wrapAdd_of_lt (by omega)
    refine ⟨h.size_eq, ?_, ?_, fun hfit => ?_, fun a ha => ?_, fun a ha => ?_⟩
    · simp only [hacc]
      omega
    · have := h.modEq
      have := toInt32_modEq n
      simp only [hacc, htotal]
      omega
    · have := h.exact hfit
      have hn : n < 2 ^ 31 := by
        rcases hfit with hfit | hfit
        · omega
        · exact lt_of_le_of_lt havail (hfit id pad (by rw [← h.untouched id hid]; exact hpad))
      rw [toInt32_of_lt hn] at htotal
      simp only [hacc, toInt32_of_lt hn, htotal]
      omega
    · rcases Std.TreeMap.mem_insert.mp ha with ha | ha
      · simp [Std.LawfulEqOrd.compare_eq_iff_eq.mp ha]
      · exact hkeys a ha
    · rw [← h.untouched a (hrest a ha).1]
      rcases hinputs with rfl | ⟨-, pad', -, rfl⟩
      · rfl
      · rw [Std.TreeMap.getElem?_insert, if_neg (by simpa using (hrest a ha).2.symm)]

/-- Offers to different sources keep the account. -/
theorem Accounted.foldl {inputs : Inputs} {size : ℕ} (p : BatchPolicy) (env : ℕ → OfferEnv)
    (hsize : size < 2 ^ 32) : ∀ (ids : List ℕ) (st : FormState), Accounted inputs size st →
    (st.offered ++ ids).Nodup →
    Accounted inputs size (ids.foldl (p.offer env) st) ∧
      (ids.foldl (p.offer env) st).offered = st.offered ++ ids
  | [], st, h, _ => ⟨h, by simp⟩
  | id :: ids, st, h, hnd => by
    have hid : id ∉ st.offered := fun hm => (List.nodup_append.mp hnd).2.2 _ hm _ (by simp) rfl
    have hoff : (p.offer env st id).offered = st.offered ++ [id] := rfl
    have := Accounted.foldl p env hsize ids _ (h.offer p env hsize hid)
      (by rwa [hoff, List.append_assoc])
    rwa [hoff, List.append_assoc] at this

theorem Accounted.emptied (inputs : Inputs) (batch : Option Batch) (size : ℕ) :
    Accounted inputs size ⟨inputs, BatchPolicy.emptied batch size, []⟩ := by
  cases batch <;> exact
    { size_eq := rfl
      le := Nat.zero_le _
      modEq := by simp [BatchPolicy.emptied, Batch.resetBatch]
      exact := fun _ => by simp [BatchPolicy.emptied, Batch.resetBatch]
      offered_of_mem := fun a ha => absurd ha (by simp [BatchPolicy.emptied, Batch.resetBatch])
      untouched := fun _ _ => rfl }

/-! ### Runs of the policy -/

/-- The calls that change the policy. -/
inductive Call where
  | checkAndUpdateDefaults (sourceId : ℕ)
  | formBatch (inputs : Inputs) (batch : Option Batch) (thisBatchSize : Fin (2 ^ 32))
    (env : ℕ → OfferEnv)
  | updateIdleSources (idleCount : ℕ)
  | updateEosSources (eosCount : ℕ)
  | updatePushStats (sourceId : ℕ)
  | setNumSurfaces (num : ℕ)
  | setBatchSize (size : ℕ)

def step (p : BatchPolicy) : Call → Option BatchPolicy
  | .checkAndUpdateDefaults sourceId => some (p.checkAndUpdateDefaults sourceId)
  | .formBatch inputs batch thisBatchSize env =>
    (p.formBatch inputs batch thisBatchSize env).map Prod.fst
  | .updateIdleSources idleCount => some (p.updateIdleSources idleCount)
  | .updateEosSources eosCount => some (p.updateEosSources eosCount)
  | .updatePushStats sourceId => some (p.updatePushStats sourceId)
  | .setNumSurfaces num => some (p.setNumSurfaces num)
  | .setBatchSize size => some (p.setBatchSize size)

/-- The constructed policies. -/
def Constructed (p : BatchPolicy) : Prop := ∃ config ids, p = BatchPolicy.new config ids

/-- Adding the source does not open a group that the saved position would then
miss: the source is known, its priority has a group, there is no group yet, or
the saved offset is in the group that moves under the saved position. -/
def GrowthSafe (p : BatchPolicy) (sourceId : ℕ) : Prop :=
  (∃ e ∈ p.sources, e.2 = sourceId) ∨ defaultSourceGroupPriority ∈ p.priorityList ∨
    p.priorityList = [] ∨ p.lastBatchState.sourceMapPosition = 0 ∨
    (0 < p.lastBatchState.priorityListPosition ∧
      p.lastBatchState.sourceMapPosition <
        (p.groupAt (p.lastBatchState.priorityListPosition - 1)).length)

instance (p : BatchPolicy) (sourceId : ℕ) : Decidable (p.GrowthSafe sourceId) := by
  unfold GrowthSafe
  infer_instance

/-- The condition on the calls of a run. -/
def CallOk (p : BatchPolicy) : Call → Prop
  | .checkAndUpdateDefaults sourceId => p.GrowthSafe sourceId
  | _ => True

instance (p : BatchPolicy) (c : Call) : Decidable (p.CallOk c) := by
  cases c <;> unfold CallOk <;> infer_instance

/-- A policy on which `formBatch` does what it is for: the saved position
denotes a source, every source is offered at most once, and the fill level is
the sum of the counts and does not pass the size of the batch. -/
structure Sound (p : BatchPolicy) : Prop where
  resume : p.priorityList ≠ [] → p.Denotes p.lastBatchState
  formBatch : ∀ (inputs : Inputs) (batch : Option Batch) (thisBatchSize : Fin (2 ^ 32))
    (env : ℕ → OfferEnv), p.priorityList ≠ [] →
    ∃ p' st, p.formBatch inputs batch thisBatchSize env = some (p', st) ∧ st.offered.Nodup ∧
      (∀ id ∈ st.offered, id ∈ p.sources.map Prod.snd) ∧ Accounted inputs thisBatchSize st

theorem sound_of_resumeOk {p : BatchPolicy} (h : p.WellKeyed) (hr : p.ResumeOk) : p.Sound where
  resume hne := hr.resolve_left (mt And.left hne)
  formBatch inputs batch thisBatchSize env hne := by
    obtain ⟨saved, hform, -⟩ := formBatch_eq_scan h hr hne inputs batch thisBatchSize env
    have hfirst := firstPosition_lt hr hne
    refine ⟨_, _, hform, ?_⟩
    have hnd := schedule_nodup h (p.enterAt true) hfirst
    rw [scan_fst]
    have hpre := List.take_prefix (scan (p.offer env) ready ⟨inputs, emptied batch thisBatchSize, []⟩
      (p.schedule p.priorityList.length p.firstPosition (p.enterAt true))).2
      (p.schedule p.priorityList.length p.firstPosition (p.enterAt true))
    obtain ⟨hacc, hoff⟩ := Accounted.foldl p env thisBatchSize.isLt _ _
      (Accounted.emptied inputs batch thisBatchSize) (by simpa using hnd.sublist hpre.sublist)
    rw [hoff, List.nil_append]
    exact ⟨hnd.sublist hpre.sublist,
      fun id hid => (mem_schedule h _ hfirst).mp (hpre.subset hid), hacc⟩

section Growth

variable {p : BatchPolicy} {sourceId : ℕ} (hid : ¬ ∃ e ∈ p.sources, e.2 = sourceId)
include hid

theorem checkAndUpdateDefaults_of_new :
    (p.checkAndUpdateDefaults sourceId).sources =
        multimapInsert p.sources (toInt32 defaultSourceGroupPriority) sourceId ∧
      (p.checkAndUpdateDefaults sourceId).priorityList =
        sortedInsert p.priorityList defaultSourceGroupPriority ∧
      (p.checkAndUpdateDefaults sourceId).lastBatchState = p.lastBatchState := by
  unfold checkAndUpdateDefaults
  rw [if_neg (by simpa using hid)]
  exact ⟨rfl, rfl, rfl⟩

/-- A source that joins the group of its priority leaves the positions of the
groups alone. -/
theorem length_groupAt_of_mem (h : p.WellKeyed)
    (h0 : defaultSourceGroupPriority ∈ p.priorityList) (i : ℕ) :
    (p.groupAt i).length ≤ ((p.checkAndUpdateDefaults sourceId).groupAt i).length := by
  obtain ⟨hsources, hlist, -⟩ := checkAndUpdateDefaults_of_new hid
  rw [sortedInsert_default h.priorities_sorted, if_pos h0] at hlist
  unfold groupAt
  rw [hlist, hsources]
  cases p.priorityList[i]? with
  | none => exact le_rfl
  | some x => exact (length_group_multimapInsert _ _ _ _).symm ▸ Nat.le_add_right _ _

/-- A source that opens a group moves every other group one position up. -/
theorem length_groupAt_of_notMem (h : p.WellKeyed)
    (h0 : defaultSourceGroupPriority ∉ p.priorityList) (i : ℕ) :
    ((p.checkAndUpdateDefaults sourceId).groupAt i).length =
      if i = 0 then 1 else (p.groupAt (i - 1)).length := by
  obtain ⟨hsources, hlist, -⟩ := checkAndUpdateDefaults_of_new hid
  rw [sortedInsert_default h.priorities_sorted, if_neg h0] at hlist
  unfold groupAt
  rw [hlist, hsources]
  have hdef : defaultSourceGroupPriority < 2 ^ 32 := by decide
  cases i with
  | zero =>
    have hnil : group p.sources (toInt32 defaultSourceGroupPriority) = [] := by
      rw [List.eq_nil_iff_forall_not_mem]
      intro id hm
      obtain ⟨x, hx, hkey⟩ := h.key_mem _ (mem_group.mp hm)
      exact h0 (toInt32_inj hdef (h.priorities_lt x hx) hkey ▸ hx)
    exact (length_group_multimapInsert _ _ _ _).trans (by rw [hnil, if_pos rfl, if_pos rfl]; rfl)
  | succ i =>
    simp only [List.getElem?_cons_succ, Nat.add_one_ne_zero, if_false, Nat.add_sub_cancel]
    cases hx : p.priorityList[i]? with
    | none => rfl
    | some x =>
      have hne : toInt32 defaultSourceGroupPriority ≠ toInt32 x := fun he =>
        have hmem := List.mem_of_getElem? hx
        h0 (toInt32_inj hdef (h.priorities_lt x hmem) he ▸ hmem)
      exact (length_group_multimapInsert _ _ _ _).trans (by rw [if_neg hne]; rfl)

end Growth

/-- **When growth keeps the saved position.** -/
theorem resumeOk_checkAndUpdateDefaults {p : BatchPolicy} (h : p.WellKeyed) (hr : p.ResumeOk)
    (sourceId : ℕ) : (p.checkAndUpdateDefaults sourceId).ResumeOk ↔ p.GrowthSafe sourceId := by
  by_cases hid : ∃ e ∈ p.sources, e.2 = sourceId
  · have hsame : p.checkAndUpdateDefaults sourceId = p := if_pos (by simpa using hid)
    exact ⟨fun _ => .inl hid, fun _ => by rwa [hsame]⟩
  · obtain ⟨-, hlist, hlast⟩ := checkAndUpdateDefaults_of_new hid
    have hne : (p.checkAndUpdateDefaults sourceId).priorityList ≠ [] := fun hnil => by
      have := (mem_sortedInsert (l := p.priorityList)).mpr (.inl (Eq.refl defaultSourceGroupPriority))
      rw [← hlist, hnil] at this
      exact List.not_mem_nil this
    have hres : (p.checkAndUpdateDefaults sourceId).ResumeOk ↔
        (p.checkAndUpdateDefaults sourceId).Denotes p.lastBatchState := by
      rw [ResumeOk, hlast]
      exact or_iff_right (mt And.left hne)
    rw [hres, GrowthSafe, or_iff_right hid]
    by_cases h0 : defaultSourceGroupPriority ∈ p.priorityList
    · refine ⟨fun _ => .inl h0, fun _ => ?_⟩
      have hold : p.Denotes p.lastBatchState :=
        hr.resolve_left fun hnil => by rw [hnil.1] at h0; exact List.not_mem_nil h0
      exact lt_of_lt_of_le hold (length_groupAt_of_mem hid h h0 _)
    · rw [or_iff_right h0, Denotes, length_groupAt_of_notMem hid h h0]
      rcases hr with ⟨hnil, hzero⟩ | hold
      · simp [hnil, hzero]
      · have hlt := lt_length_of_groupAt (lt_of_le_of_lt (Nat.zero_le _) hold)
        have hnil : p.priorityList ≠ [] := List.ne_nil_of_length_pos (by omega)
        rw [or_iff_right hnil]
        split
        · rename_i hq
          omega
        · rename_i hq
          have := h.groupAt_pos (show p.lastBatchState.priorityListPosition - 1 < _ by omega)
          omega

/-- What every call keeps when it meets the condition. -/
theorem resumeOk_step {p p' : BatchPolicy} {c : Call} (h : p.WellKeyed) (hr : p.ResumeOk)
    (hok : p.CallOk c) (hs : p.step c = some p') : p'.WellKeyed ∧ p'.ResumeOk := by
  cases c with
  | checkAndUpdateDefaults sourceId =>
    cases hs
    exact ⟨h.checkAndUpdateDefaults sourceId, (resumeOk_checkAndUpdateDefaults h hr sourceId).mpr hok⟩
  | formBatch inputs batch thisBatchSize env =>
    by_cases hne : p.priorityList = []
    · -- with no source the loop reads the end of the list
      have hnone : p.formBatch inputs batch thisBatchSize env = none := by
        rw [formBatch_eq, hne]
        rfl
      rw [step, hnone] at hs
      cases hs
    · obtain ⟨saved, hform, hsaved⟩ := formBatch_eq_scan h hr hne inputs batch thisBatchSize env
      rw [step, hform] at hs
      cases hs
      exact ⟨h, .inr hsaved⟩
  | updatePushStats sourceId =>
    cases hs
    unfold updatePushStats
    split
    · exact ⟨h, hr⟩
    · exact ⟨h, hr⟩
  | _ =>
    cases hs
    exact ⟨h, hr⟩

theorem resumeOk_new {p : BatchPolicy} (hp : Constructed p) : p.WellKeyed ∧ p.ResumeOk := by
  obtain ⟨config, ids, rfl⟩ := hp
  refine ⟨WellKeyed.new config ids, ?_⟩
  by_cases hne : (BatchPolicy.new config ids).priorityList = []
  · exact .inl ⟨hne, rfl⟩
  · exact .inr ((WellKeyed.new config ids).groupAt_pos (List.length_pos_iff.mpr hne))

/-- **Accounting of `formBatch`.** In every run in which growth never shifts the
groups under the saved position, that position denotes a source, no source is
offered twice, and the fill level is the sum of the counts, within the size. -/
theorem formBatch_accounting {p : BatchPolicy} (h : Reach step CallOk Constructed p) : p.Sound := by
  have := h.invariant (I := fun p => p.WellKeyed ∧ p.ResumeOk) (fun _ => resumeOk_new)
    fun _ _ _ hI => resumeOk_step hI.1 hI.2
  exact sound_of_resumeOk this.1 this.2

/-- Three sources of priority 1, served round robin. -/
def threeSources : BatchPolicyConfig where
  type := .roundRobin
  adaptiveBatching := false
  batchSize := 2
  maxSameSourceFrames := 1
  enableSourceRateControl := false
  enableMaxFpsControl := false
  sourceProps := [1, 2, 3].map fun id => (id, { priority := 1, maxNumFramesPerBatch := 1 })

/-- A pad with one buffer for each of the ids. -/
def oneBufferEach (ids : List ℕ) : Inputs :=
  ids.foldl (fun m id => m.insert id (some ((SinkPad.new id).queueEntry (.buffer ⟨id, 1⟩)))) ∅

/-- No rate limit, every buffer on time. -/
def noLimits (_ : ℕ) : OfferEnv := ⟨0, fun _ => .ontime⟩

/-- A full batch takes from sources 1 and 2; the next begins at 3 and the
source 3 that is known already is added again. -/
theorem formBatch_accounting_threeSources :
    ((exec step CallOk (BatchPolicy.new threeSources [])
      [.formBatch (oneBufferEach [1, 2, 3]) none 2 noLimits, .checkAndUpdateDefaults 3]).get
        (by decide)).Sound :=
  formBatch_accounting (Reach.get_exec ⟨threeSources, [], rfl⟩ _)

/-- The saved position is lost: with the batch filled from sources 1 and 2, the
saved offset is 2; source 7, which has no properties, then opens the group of
priority 0 in front, and the next batch offers source 2 twice and source 7 not
at all. -/
theorem formBatch_offers_twice : ∃ p, Reach step anyStep Constructed p ∧ ¬ p.Sound := by
  refine ⟨_, Reach.get_exec (s := BatchPolicy.new threeSources [])
    (l := [.formBatch (oneBufferEach [1, 2, 3]) none 2 noLimits, .checkAndUpdateDefaults 7])
    ⟨threeSources, [], rfl⟩ (by decide), fun h => ?_⟩
  obtain ⟨p', st, hform, hnd, -⟩ :=
    h.formBatch (oneBufferEach [1, 2, 3, 7]) none 4 noLimits (by decide)
  have hoffered := congrArg (Option.map fun r => r.2.offered) hform
  have htwice : st.offered = [2, 1, 2, 3] := Option.some.inj (hoffered.symm.trans (by decide))
  rw [htwice] at hnd
  exact absurd hnd (by decide)

end BatchPolicy
end Mux
end DeepStream
