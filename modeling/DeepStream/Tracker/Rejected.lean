/-
# What a rejected batch leaves behind

With sub-batches `submitInput` takes a convert buffer, and `dispatchSubBatches`
registers the batch before it looks for the sub-batches of its streams. A stream
that finds none ends it there: the entry of `m_PendingBatch` stays, with nobody
to erase it, `m_BatchId` stays at it, and the buffer is gone. Only a batch that
is refused at once, because its id is still pending, leaves the tracker as it
was, and then only if no buffer was taken for it.
-/
import DeepStream.Tracker.Completion

namespace DeepStream
namespace Tracker

open Std

/-! ### A stream without a sub-batch ends the dispatch at the first list -/

/-- The `k`-th list has the streams with more than `k` frames. -/
def Nested (st : TreeMap SurfaceStreamId ℕ × List FrameMap) : Prop :=
  (∀ ssId, st.1.getD ssId 0 ≤ st.2.length) ∧
    ∀ (k : ℕ) (l : FrameMap), st.2[k]? = some l → ∀ ssId, ssId ∈ l ↔ k < st.1.getD ssId 0

theorem Nested.step {st : TreeMap SurfaceStreamId ℕ × List FrameMap} (h : Nested st) (frame : NvDsFrameMeta) :
    Nested (queueFrame st frame) := by
  obtain ⟨hcount, hmem⟩ := h
  have hgetD : ∀ ssId, (queueFrame st frame).1.getD ssId 0 =
      if ssId = frame.ssId then st.1.getD frame.ssId 0 + 1 else st.1.getD ssId 0 := by
    intro ssId
    simp only [queueFrame, TreeMap.getD_insert, LawfulEqOrd.compare_eq_iff_eq]
    exact if_congr eq_comm rfl rfl
  refine ⟨fun ssId => ?_, fun k l hl ssId => ?_⟩
  · have := hcount ssId
    rw [hgetD, length_queueFrame]
    split <;> omega
  · -- the list before the frame: an empty one is longer than any stream's count
    obtain ⟨old, hold, hl⟩ : ∃ old : FrameMap, (∀ ssId, ssId ∈ old ↔ k < st.1.getD ssId 0) ∧
        l = if st.1.getD frame.ssId 0 = k then old.insert frame.ssId frame else old := by
      simp only [queueFrame, List.getElem?_modify] at hl
      obtain ⟨old, hold, rfl⟩ := Option.map_eq_some_iff.mp hl
      refine ⟨old, fun ssId => ?_, rfl⟩
      rw [List.getElem?_append] at hold
      split at hold
      · exact hmem k old hold ssId
      · rename_i hge
        have hempty : old = ∅ := by
          obtain ⟨hlt, he⟩ := List.getElem?_eq_some_iff.mp hold
          rw [← he, List.getElem_replicate]
        have := hcount ssId
        exact iff_of_false (by simp [hempty]) (by omega)
    have hid := hold frame.ssId
    rw [hgetD, hl]
    by_cases hk : st.1.getD frame.ssId 0 = k
    · rw [if_pos hk, TreeMap.mem_insert, LawfulEqOrd.compare_eq_iff_eq, hold]
      split
      · rename_i he
        exact iff_of_true (.inl he.symm) (by omega)
      · rename_i he
        exact or_iff_right fun h => he h.symm
    · rw [if_neg hk, hold]
      split
      · rename_i he
        rw [he]
        omega
      · exact Iff.rfl

theorem nested_queueFrames (cfg : TrackerConfig) (frames : List (Option NvDsFrameMeta)) :
    Nested ((frames.filterMap cfg.selects).foldl queueFrame (∅, [])) := by
  have hall : ∀ (l : List NvDsFrameMeta) (st : TreeMap SurfaceStreamId ℕ × List FrameMap),
      Nested st → Nested (l.foldl queueFrame st) := by
    intro l
    induction l with
    | nil => exact fun _ h => h
    | cons frame l ih => exact fun st h => ih _ (h.step frame)
  exact hall _ _ ⟨by simp, by simp⟩

namespace StreamMaps

variable (cfg : TrackerConfig) (m : StreamMaps)

/-- Frames of streams that have a sub-batch are all placed. -/
theorem splitFrames_of_mapped : ∀ (rest : List (SurfaceStreamId × NvDsFrameMeta)) (subs : List FrameMap),
    (∀ e ∈ rest, e.1 ∈ m.ssidSubBatchMap) → ∃ subs', m.splitFrames cfg rest subs = (m, some subs')
  | [], subs, _ => ⟨subs, rfl⟩
  | (ssId, frame) :: rest, subs, h => by
    have hmap : m.mapFrame cfg ssId frame.padIndex.toNat = (m, true) := if_pos (h _ (List.mem_cons_self ..))
    rw [splitFrames, hmap]
    exact splitFrames_of_mapped rest _ fun e he => h e (List.mem_cons_of_mem _ he)

/-- A split that comes to its end has found a sub-batch for every stream. -/
theorem mapped_of_splitFrames : ∀ (rest : List (SurfaceStreamId × NvDsFrameMeta)) (m : StreamMaps)
    (subs subs' : List FrameMap), (m.splitFrames cfg rest subs).2 = some subs' →
      (∀ k ∈ m.ssidSubBatchMap, k ∈ (m.splitFrames cfg rest subs).1.ssidSubBatchMap) ∧
        ∀ e ∈ rest, e.1 ∈ (m.splitFrames cfg rest subs).1.ssidSubBatchMap
  | [], m, subs, subs', _ => ⟨fun _ hk => hk, nofun⟩
  | (ssId, frame) :: rest, m, subs, subs', h => by
    rw [splitFrames] at h ⊢
    by_cases hok : (m.mapFrame cfg ssId frame.padIndex.toNat).2 = true
    · rw [if_pos hok] at h ⊢
      obtain ⟨hkept, hrest⟩ := mapped_of_splitFrames rest _ _ subs' h
      refine ⟨fun k hk => hkept k ?_, fun e he => ?_⟩
      · obtain ⟨sb, hsb⟩ := Option.isSome_iff_exists.mp (TreeMap.mem_iff_isSome_getElem?.mp hk)
        exact TreeMap.mem_iff_isSome_getElem?.mpr (by rw [mapFrame_ssids _ _ hsb]; rfl)
      · rcases List.mem_cons.mp he with rfl | he
        · exact hkept _ (mem_mapFrame hok)
        · exact hrest e he
    · rw [if_neg hok] at h
      cases h

theorem dispatch_of_mapped : ∀ lists : List FrameMap, (∀ l ∈ lists, ∀ ssId ∈ l, ssId ∈ m.ssidSubBatchMap) →
    (m.dispatch cfg lists).ok = true
  | [], _ => rfl
  | l :: lists, h => by
    obtain ⟨subs, hs⟩ := splitFrames_of_mapped cfg m l.toList (List.replicate cfg.subBatchSizes.length ∅)
      fun e he => h l (List.mem_cons_self ..) e.1
        (TreeMap.mem_iff_isSome_getElem?.mpr (by rw [TreeMap.mem_toList_iff_getElem?_eq_some.mp he]; rfl))
    rw [dispatch, hs]
    exact dispatch_of_mapped lists fun l' hl' => h l' (List.mem_cons_of_mem _ hl')

/-- A dispatch that fails has pushed no request. -/
theorem requests_of_not_ok {frames : List (Option NvDsFrameMeta)}
    (hfail : (m.dispatch cfg (queueFrames cfg frames)).ok = false) :
    (m.dispatch cfg (queueFrames cfg frames)).requests = [] := by
  have hnested := (nested_queueFrames cfg frames).2
  change ∀ (k : ℕ) (l : FrameMap), (queueFrames cfg frames)[k]? = some l → _ at hnested
  generalize queueFrames cfg frames = lists at hfail hnested
  cases lists with
  | nil => rfl
  | cons l lists =>
    rw [dispatch] at hfail ⊢
    have hmapped := mapped_of_splitFrames cfg l.toList m (List.replicate cfg.subBatchSizes.length ∅)
    generalize m.splitFrames cfg l.toList (List.replicate cfg.subBatchSizes.length ∅) = r at hfail hmapped ⊢
    obtain ⟨m₁, subs⟩ := r
    cases subs with
    | none => rfl
    | some subs =>
      -- the streams of the later lists are among those of the first
      have hok := dispatch_of_mapped cfg m₁ lists fun l' hl' ssId hmem => by
        obtain ⟨k, hk⟩ := List.mem_iff_getElem?.mp hl'
        have hlt := (hnested (k + 1) l' (by rw [List.getElem?_cons_succ, hk]) ssId).mp hmem
        have hfirst := (hnested 0 l rfl ssId).mpr (Nat.zero_lt_of_lt hlt)
        obtain ⟨f, hf⟩ := Option.isSome_iff_exists.mp (TreeMap.mem_iff_isSome_getElem?.mp hfirst)
        exact (hmapped subs rfl).2 (ssId, f) (TreeMap.mem_toList_iff_getElem?_eq_some.mpr hf)
      exact absurd (hok.symm.trans hfail) Bool.noConfusion

end StreamMaps

namespace Sys

variable {cfg : TrackerConfig} {s s' t : Sys} {a : Action} {p : ProcParams}

/-! ### The buffers of the pool -/

/-- The buffer is at most in one place: in the free queue, with the caller of
`submitInput`, or with the requests of one batch. -/
structure PoolInv (s : Sys) : Prop where
  nodup : s.freeQueue.Nodup
  submitted : ∀ p buffer, s.submit = .converted p → p.pConvBuf = some (.pool buffer) → buffer ∉ s.freeQueue
  working : ∀ sb, ∀ p ∈ s.jobs sb, ∀ buffer, p.pConvBuf = some (.pool buffer) →
    buffer ∉ s.freeQueue ∧ ∀ q, s.submit = .converted q → q.pConvBuf ≠ some (.pool buffer)
  oneBatch : ∀ sb sb', ∀ p ∈ s.jobs sb, ∀ q ∈ s.jobs sb', ∀ buffer, p.pConvBuf = some (.pool buffer) →
    q.pConvBuf = some (.pool buffer) → q.batchId = p.batchId

/-- What a section does to the buffers. -/
inductive PoolStep (cfg : TrackerConfig) (s s' : Sys) : Prop
  | fewer (free : s.freeQueue.Nodup → s'.freeQueue.Nodup) (mem : s'.freeQueue ⊆ s.freeQueue)
      (submit : ∀ q, s'.submit = .converted q → s.submit = .converted q) (jobs : ∀ sb, s'.jobs sb ⊆ s.jobs sb)
  | take (buffer : ℕ) (q : ProcParams) (free : s.freeQueue = buffer :: s'.freeQueue)
      (submit : s'.submit = .converted q) (hq : q.pConvBuf = some (.pool buffer))
      (jobs : ∀ sb, s'.jobs sb = s.jobs sb)
  | none (q : ProcParams) (free : s'.freeQueue = s.freeQueue) (submit : s'.submit = .converted q)
      (hq : ∀ buffer, q.pConvBuf ≠ some (.pool buffer)) (jobs : ∀ sb, s'.jobs sb = s.jobs sb)
  | dispatch (p : ProcParams) (hp : s.submit = .converted p) (free : s'.freeQueue = s.freeQueue)
      (submit : s'.submit = .idle)
      (jobs : ∀ sb, ∀ q ∈ s'.jobs sb, q ∈ s.jobs sb ∨ q = { p with batchId := s.batchId })
  | back (sb : SubBatchId) (p : ProcParams) (buffer : ℕ) (hp : p ∈ s.jobs sb)
      (hbuf : p.pConvBuf = some (.pool buffer)) (free : s'.freeQueue = s.freeQueue ++ [buffer])
      (submit : s'.submit = s.submit) (gone : p.batchId ∉ s'.pendingBatch)
      (jobs : ∀ sb, s'.jobs sb ⊆ s.jobs sb)

namespace PoolInv

theorem started (h : Started cfg s) : PoolInv s := by
  obtain ⟨m, -, rfl⟩ := Option.map_eq_some_iff.mp h
  refine ⟨?_, nofun, ?_, ?_⟩
  · show (if cfg.numTransforms > 0 ∧ ¬ cfg.inputTensorMeta then [0, 1] else []).Nodup
    split <;> simp
  · intro sb p hp
    simp [Sys.jobs, currentJob] at hp
  · intro sb sb' p hp
    simp [Sys.jobs, currentJob] at hp

/-- The buffers stay apart. For one that comes back the other requests of its
batch are done. -/
theorem step (h : PoolInv s) (hi : SubInv cfg s') (hs : PoolStep cfg s s') : PoolInv s' := by
  rcases hs with ⟨free, mem, submit, jobs⟩ | ⟨buffer, q, free, submit, hq, jobs⟩ | ⟨q, free, submit, hq, jobs⟩ |
    ⟨p, hp, free, submit, jobs⟩ | ⟨sb, p, buffer, hp, hbuf, free, submit, gone, jobs⟩
  · refine ⟨free h.nodup, fun p b hp hb hmem => h.submitted p b (submit p hp) hb (mem hmem), ?_, ?_⟩
    · intro sb p hp b hb
      obtain ⟨hfree, hother⟩ := h.working sb p (jobs sb hp) b hb
      exact ⟨fun hmem => hfree (mem hmem), fun q hq => hother q (submit q hq)⟩
    · intro sb sb' p hp q hq
      exact h.oneBatch sb sb' p (jobs sb hp) q (jobs sb' hq)
  · have hnodup := h.nodup
    rw [free, List.nodup_cons] at hnodup
    refine ⟨hnodup.2, ?_, ?_, ?_⟩
    · intro p b hp hb
      rw [submit, SubmitPc.converted.injEq] at hp
      subst hp
      rw [hq, Option.some.injEq, ConvBuf.pool.injEq] at hb
      exact hb ▸ hnodup.1
    · intro sb p hp b hb
      have hfree := (h.working sb p (jobs sb ▸ hp) b hb).1
      rw [free, List.mem_cons, not_or] at hfree
      refine ⟨hfree.2, fun q' hq' hb' => ?_⟩
      rw [submit, SubmitPc.converted.injEq] at hq'
      subst hq'
      rw [hq, Option.some.injEq, ConvBuf.pool.injEq] at hb'
      exact hfree.1 hb'.symm
    · intro sb sb' p hp q hq
      exact h.oneBatch sb sb' p (jobs sb ▸ hp) q (jobs sb' ▸ hq)
  · refine ⟨free ▸ h.nodup, ?_, ?_, ?_⟩
    · intro p b hp hb
      rw [submit, SubmitPc.converted.injEq] at hp
      exact absurd hb (hp ▸ hq b)
    · intro sb p hp b hb
      refine ⟨free ▸ (h.working sb p (jobs sb ▸ hp) b hb).1, fun q' hq' => ?_⟩
      rw [submit, SubmitPc.converted.injEq] at hq'
      exact hq' ▸ hq b
    · intro sb sb' p hp q hq
      exact h.oneBatch sb sb' p (jobs sb ▸ hp) q (jobs sb' ▸ hq)
  · have hidle : ∀ q, s'.submit ≠ .converted q := fun q hq => by
      rw [submit] at hq
      cases hq
    refine ⟨free ▸ h.nodup, fun q b hq => absurd hq (hidle q), ?_, ?_⟩
    · intro sb q hq b hb
      refine ⟨?_, fun q' hq' => absurd hq' (hidle q')⟩
      rw [free]
      rcases jobs sb q hq with hold | rfl
      · exact (h.working sb q hold b hb).1
      · exact h.submitted p b hp hb
    · intro sb sb' q hq q' hq' b hb hb'
      rcases jobs sb q hq with hold | rfl
      · rcases jobs sb' q' hq' with hold' | rfl
        · exact h.oneBatch sb sb' q hold q' hold' b hb hb'
        · exact absurd hb' ((h.working sb q hold b hb).2 p hp)
      · rcases jobs sb' q' hq' with hold' | rfl
        · exact absurd hb ((h.working sb' q' hold' b hb').2 p hp)
        · rfl
  · obtain ⟨hfree, hother⟩ := h.working sb p hp buffer hbuf
    refine ⟨?_, ?_, ?_, ?_⟩
    · rw [free, List.nodup_append]
      refine ⟨h.nodup, List.nodup_singleton _, fun b hb b' hb' he => hfree ?_⟩
      rw [← List.mem_singleton.mp hb', ← he]
      exact hb
    · intro q b hq hb
      rw [submit] at hq
      rw [free, List.mem_append, List.mem_singleton, not_or]
      exact ⟨h.submitted q b hq hb, fun he => hother q hq (he ▸ hb)⟩
    · intro sb' q hq b hb
      rw [free, List.mem_append, List.mem_singleton, not_or, submit]
      refine ⟨⟨(h.working sb' q (jobs sb' hq) b hb).1, ?_⟩, (h.working sb' q (jobs sb' hq) b hb).2⟩
      rintro rfl
      -- the request would belong to the batch that was just erased
      obtain ⟨pb, hpb, -⟩ := hi.owner hq
      rw [h.oneBatch sb sb' p hp q (jobs sb' hq) b hbuf hb] at hpb
      exact gone (TreeMap.mem_iff_isSome_getElem?.mpr (by rw [hpb]; rfl))
    · intro sb₁ sb₂ q hq q' hq'
      exact h.oneBatch sb₁ sb₂ q (jobs sb₁ hq) q' (jobs sb₂ hq')

end PoolInv

theorem poolStep_submitInput {frames : List (Option NvDsFrameMeta)} {result : ConvertResult}
    (hs : s.submitInput cfg frames result = some s') : PoolStep cfg s s' := by
  unfold submitInput at hs
  split at hs
  swap
  · cases hs
  have hfewer : ∀ free, (s.freeQueue.Nodup → free.Nodup) → free ⊆ s.freeQueue →
      PoolStep cfg s { s with freeQueue := free }.reject :=
    fun free hnodup hmem => .fewer hnodup hmem (fun _ hq => by cases hq) fun _ => List.Subset.refl _
  split at hs
  · cases hs
    exact hfewer _ id (List.Subset.refl _)
  split at hs
  · cases hs
    exact .none _ rfl rfl (fun _ hbuf => by cases hbuf) fun _ => rfl
  split at hs
  · split at hs <;> cases hs
    · exact .none _ rfl rfl (fun _ hbuf => by cases hbuf) fun _ => rfl
    · exact hfewer _ id (List.Subset.refl _)
  · split at hs <;> cases hs
    · rename_i buffer rest hfree
      exact .take buffer _ hfree rfl rfl fun _ => rfl
    · rename_i buffer rest hfree
      refine hfewer rest (fun hn => ?_) ?_
      · rw [hfree] at hn
        exact (List.nodup_cons.mp hn).2
      · rw [hfree]
        exact List.subset_cons_self ..
    · rename_i buffer rest hfree
      have hperm : (rest ++ [buffer]).Perm s.freeQueue := hfree ▸ List.perm_append_singleton buffer rest
      exact hfewer (rest ++ [buffer]) hperm.nodup_iff.mpr hperm.subset

/-- A section adds requests only when it dispatches a batch. -/
theorem jobs_of_subStep (hi : SubInv cfg s) (hs : SubStep cfg s a s') (sb : SubBatchId) {q : ProcParams}
    (hq : q ∈ s'.jobs sb) : q ∈ s.jobs sb ∨
      a = .submitNext ∧ ∃ p, s.submit = .converted p ∧ q = { p with batchId := s.batchId } := by
  cases hs with
  | quiet hb _ | flush hb _ => exact .inl (hb.jobs sb ▸ hq)
  | dispatch ha p d hp hd hnew pending jobs =>
    rw [jobs, List.mem_append] at hq
    exact hq.imp_right fun h => ⟨ha, p, hp, List.eq_of_mem_replicate h⟩
  | partDone sb' p rest pb hjobs hpb hmem hleft pending jobs => exact .inl (SubInv.mem_of_mem_rest hjobs jobs hq)
  | batchDone sb' p rest pb hjobs hpb hmem hleft hbuf pending jobs =>
    exact .inl (SubInv.mem_of_mem_rest hjobs jobs hq)
  | stray sb' p rest hjobs hstray =>
    obtain ⟨pb, hpb, hmem⟩ := hi.mem_waiting (hjobs ▸ List.mem_cons_self ..)
    exact absurd hmem (hstray pb hpb)

theorem poolStep_submitNext (hsub : cfg.subBatchSizes.length ≠ 0) (hi : SubInv cfg s)
    (hsubmit : Submitting cfg s) (hs : s.submitNext cfg = some s') : PoolStep cfg s s' := by
  have hstep := subStep_submitNext hsub hsubmit hs
  unfold submitNext at hs
  split at hs
  · cases hs
  · rename_i p hp
    rw [if_neg hsub, Option.some.injEq] at hs
    have hfree : s'.freeQueue = s.freeQueue ∧ s'.submit = .idle := by
      subst hs
      unfold dispatchSubBatches
      split
      · exact ⟨rfl, rfl⟩
      · dsimp only
        split <;> exact ⟨rfl, rfl⟩
    refine .dispatch p hp hfree.1 hfree.2 fun sb q hq => ?_
    refine (jobs_of_subStep hi hstep sb hq).imp_right ?_
    rintro ⟨-, p', hp', rfl⟩
    rw [hp, SubmitPc.converted.injEq] at hp'
    rw [hp']
  · rename_i p hp
    exact absurd (hsubmit.registered p hp) hsub

/-- What marking a request complete does to the free queue: the buffer of the
batch goes back when the batch is erased. -/
theorem freeQueue_completeReq {sbId : SubBatchId} (hs : s.completeReq cfg sbId p = some s') :
    s'.freeQueue = s.freeQueue ∨ p.batchId ∉ s'.pendingBatch ∧
      ∃ buffer, p.pConvBuf = some (.pool buffer) ∧ s'.freeQueue = s.freeQueue ++ [buffer] := by
  unfold completeReq at hs
  split at hs
  · cases hs
    exact .inl rfl
  · split at hs
    · dsimp only at hs
      split at hs
      · obtain ⟨t, ht, rfl⟩ := Option.map_eq_some_iff.mp hs
        unfold returnBuffer at ht
        split at ht <;> cases ht
        dsimp only
        split
        · rename_i buffer hbuf
          exact .inr ⟨by simp, buffer, hbuf, rfl⟩
        · exact .inl (List.append_nil _)
      · cases hs
        exact .inl rfl
    · cases hs
      exact .inl rfl

theorem poolStep_processSubBatch {sbId : SubBatchId} {objs : TrackedObjs}
    (hjobs : ∀ sb, s'.jobs sb ⊆ s.jobs sb) (hs : s.processSubBatch cfg sbId objs = some s') :
    PoolStep cfg s s' := by
  have hsubmit := (submit_processSubBatch hs).1
  have hsame : s'.freeQueue = s.freeQueue → PoolStep cfg s s' := fun he =>
    .fewer (fun hn => he ▸ hn) (he ▸ List.Subset.refl _) (fun q hq => hsubmit ▸ hq) hjobs
  unfold processSubBatch at hs
  split at hs
  · split at hs <;> cases hs
    exact hsame rfl
  · cases hs
    exact hsame rfl
  · cases hs
    refine hsame ?_
    unfold processReq
    split <;> rfl
  · rename_i p hpc
    obtain ⟨t, ht, rfl⟩ := Option.map_eq_some_iff.mp hs
    rcases freeQueue_completeReq ht with he | ⟨hgone, buffer, hbuf, hfree⟩
    · exact hsame he
    · have hjob : p ∈ s.jobs sbId := by simp [Sys.jobs, hpc, currentJob]
      exact .back sbId p buffer hjob hbuf hfree hsubmit hgone hjobs

theorem poolStep (hsub : cfg.subBatchSizes.length ≠ 0) (hi : SubInv cfg s) (hsubmit : Submitting cfg s)
    (hs : s.step cfg a = some s') : PoolStep cfg s s' := by
  have hjobs := fun sb q => @jobs_of_subStep cfg s s' a hi (subStep hsub hsubmit hs) sb q
  have hother : a ≠ .submitNext → ∀ sb, s'.jobs sb ⊆ s.jobs sb := fun ha sb q hq =>
    (hjobs sb q hq).resolve_right fun h => ha h.1
  have hsame : a ≠ .submitNext → s'.freeQueue = s.freeQueue → s'.submit = s.submit → PoolStep cfg s s' :=
    fun ha he hpc => .fewer (fun hn => he ▸ hn) (he ▸ List.Subset.refl _) (fun q hq => hpc ▸ hq) (hother ha)
  cases a with
  | submitInput frames result => exact poolStep_submitInput hs
  | submitNext => exact poolStep_submitNext hsub hi hsubmit hs
  | processBatch objs =>
    rw [step, if_neg hsub] at hs
    cases hs
  | processSubBatch sbId objs =>
    rw [step] at hs
    split at hs
    · exact poolStep_processSubBatch (hother (by simp)) hs
    · cases hs
  | flushReqs | removeSource _ _ | trackerLibError =>
    cases hs
    exact hsame (by simp) rfl rfl
  | flushCleared i | flushPush i | waitForCompletion =>
    simp only [step] at hs
    repeat' split at hs
    all_goals first
      | (cases hs; done)
      | (cases hs; exact hsame (by simp) rfl rfl)

theorem PoolInv.of_reach (hsub : cfg.subBatchSizes.length ≠ 0) {ok : Sys → Action → Prop}
    (h : Reach (Sys.step cfg) ok (Started cfg) s) : PoolInv s := by
  induction h with
  | init h => exact PoolInv.started h
  | step hr hok hs ih =>
    have hi := SubInv.of_reach hsub hr
    exact ih.step (SubInv.of_reach hsub (hr.step hok hs)) (poolStep hsub hi (Submitting.of_reach hr) hs)

/-! ### What stays pending -/

/-- An entry that waits for nobody is never touched again. -/
theorem entry_kept (hsub : cfg.subBatchSizes.length ≠ 0) (hi : SubInv cfg s) (hsubmit : Submitting cfg s)
    (hs : s.step cfg a = some s') {b : BatchId} {pb : PendingBatch} (hpb : s.pendingBatch[b]? = some pb)
    (hw : pb.waiting = []) : s'.pendingBatch[b]? = some pb := by
  have hne : ∀ {b' : BatchId} {pb' : PendingBatch} {sb : SubBatchId}, s.pendingBatch[b']? = some pb' →
      sb ∈ pb'.waiting → b ≠ b' := by
    rintro b' pb' sb hpb' hmem rfl
    rw [hpb, Option.some.injEq] at hpb'
    rw [← hpb', hw] at hmem
    exact List.not_mem_nil hmem
  cases subStep hsub hsubmit hs with
  | quiet hb _ | flush hb _ => rwa [hb.pending]
  | dispatch ha p d hp hd hfree pending =>
    have hb : b ≠ s.batchId := by
      rintro rfl
      exact hfree (TreeMap.mem_iff_isSome_getElem?.mpr (by rw [hpb]; rfl))
    rw [pending, Table.getElem?_insert, if_neg hb, hpb]
  | partDone sb p rest pb' hjobs hpb' hmem hleft pending =>
    rw [pending, Table.getElem?_insert, if_neg (hne hpb' hmem), hpb]
  | batchDone sb p rest pb' hjobs hpb' hmem hleft hbuf pending =>
    rw [pending, Table.getElem?_erase, if_neg (hne hpb' hmem), hpb]
  | stray sb p rest hjobs hstray =>
    obtain ⟨pb', hpb', hmem⟩ := hi.mem_waiting (hjobs ▸ List.mem_cons_self ..)
    exact absurd hmem (hstray pb' hpb')

/-- Where a missing buffer would have to be deleted no batch is ever erased. -/
theorem pending_kept (hsub : cfg.subBatchSizes.length ≠ 0) (hi : SubInv cfg s) (hsubmit : Submitting cfg s)
    (hdel : DeletesNull cfg) (hs : s.step cfg a = some s') {b : BatchId} (hb : b ∈ s.pendingBatch) :
    b ∈ s'.pendingBatch := by
  cases subStep hsub hsubmit hs with
  | quiet hb' _ | flush hb' _ => rwa [hb'.pending]
  | dispatch ha p d hp hd hfree pending =>
    rw [pending]
    exact TreeMap.mem_insert.mpr (.inr hb)
  | partDone sb p rest pb hjobs hpb hmem hleft pending =>
    rw [pending]
    exact TreeMap.mem_insert.mpr (.inr hb)
  | batchDone sb p rest pb hjobs hpb hmem hleft hbuf pending =>
    have hjob : p ∈ s.jobs sb := hjobs ▸ List.mem_cons_self ..
    exact absurd hdel ((hi.buf hjob).not_deletesNull hbuf)
  | stray sb p rest hjobs hstray =>
    obtain ⟨pb, hpb, hmem⟩ := hi.mem_waiting (hjobs ▸ List.mem_cons_self ..)
    exact absurd hmem (hstray pb hpb)

/-- Every batch that is pending waits for a sub-batch. -/
def AllWait (s : Sys) : Prop := ∀ (b : BatchId) (pb : PendingBatch), s.pendingBatch[b]? = some pb → pb.waiting ≠ []

/-- The threads leave no entry that waits for nobody. -/
theorem AllWait.step (h : AllWait s) (hsub : cfg.subBatchSizes.length ≠ 0) (hi : SubInv cfg s)
    (hsubmit : Submitting cfg s) (ha : Processing a) (hs : s.step cfg a = some s') : AllWait s' := by
  intro b pb hpb
  cases subStep hsub hsubmit hs with
  | quiet hb _ | flush hb _ => exact h b pb (hb.pending ▸ hpb)
  | dispatch he => exact absurd ha (by rw [he]; exact id)
  | partDone sb p rest pb' hjobs hpb' hmem hleft pending =>
    rw [pending, Table.getElem?_insert] at hpb
    split at hpb
    · cases hpb
      exact hleft
    · exact h b pb hpb
  | batchDone sb p rest pb' hjobs hpb' hmem hleft hbuf pending =>
    rw [pending, Table.getElem?_erase] at hpb
    split at hpb
    · cases hpb
    · exact h b pb hpb
  | stray sb p rest hjobs hstray =>
    obtain ⟨pb', hpb', hmem⟩ := hi.mem_waiting (hjobs ▸ List.mem_cons_self ..)
    exact absurd hmem (hstray pb' hpb')

/-! ### The threads go on until they are at rest -/

/-- A state that the processing threads reach by themselves. -/
def Settles (cfg : TrackerConfig) (s t : Sys) : Prop :=
  Reach (step cfg) (fun _ a => Processing a) (· = s) t ∧ Idle cfg t

theorem exists_settles (cfg : TrackerConfig) (s : Sys) : ∃ t, Settles cfg s t := by
  induction hn : s.work cfg using Nat.strong_induction_on generalizing s with
  | _ n ih =>
    by_cases hidle : Idle cfg s
    · exact ⟨s, .init rfl, hidle⟩
    · simp only [Idle, not_forall, not_not] at hidle
      obtain ⟨a, s', ha, hs⟩ := hidle
      obtain ⟨t, ht, hrest⟩ := ih (s'.work cfg) (hn ▸ work_lt ha hs) s' rfl
      have hone : Reach (step cfg) (fun _ a => Processing a) (· = s) s' := Reach.single ha hs
      exact ⟨t, hone.trans ht, hrest⟩

/-- What every section of the threads keeps holds where they come to rest. -/
theorem Settles.keeps {I : Sys → Prop} (h : Settles cfg s t) (hr : Reach (Sys.step cfg) anyStep (Started cfg) s)
    (h0 : I s) (hstep : ∀ u u' a, Reach (Sys.step cfg) anyStep (Started cfg) u → Processing a → I u →
      u.step cfg a = some u' → I u') : Reach (Sys.step cfg) anyStep (Started cfg) t ∧ I t := by
  have hall : ∀ u, Reach (Sys.step cfg) (fun _ a => Processing a) (· = s) u →
      Reach (Sys.step cfg) anyStep (Started cfg) u ∧ I u := by
    intro u hu
    induction hu with
    | init he => exact ⟨he ▸ hr, he ▸ h0⟩
    | step _ ha hs ih => exact ⟨ih.1.step trivial hs, hstep _ _ _ ih.1 ha ih.2 hs⟩
  exact hall t h.1

/-- A `flushReqs` returns once the threads are at rest, if there is a buffer to
delete and nobody is missing that would erase a batch. -/
theorem isEmpty_of_settles (hsub : cfg.subBatchSizes.length ≠ 0) (hr : Reach (Sys.step cfg) anyStep (Started cfg) s)
    (hdel : ¬ DeletesNull cfg) (hw : AllWait s) (h : Settles cfg s t) : t.pendingBatch.isEmpty := by
  obtain ⟨hrt, hwt⟩ := h.keeps hr hw fun u u' a hu ha hI hs =>
    hI.step hsub (SubInv.of_reach hsub hu) (Submitting.of_reach hu) ha hs
  have hi := SubInv.of_reach hsub hrt
  rw [TreeMap.isEmpty_iff_forall_not_mem]
  intro b hb
  obtain ⟨pb, hpb⟩ := Option.isSome_iff_exists.mp (TreeMap.mem_iff_isSome_getElem?.mp hb)
  obtain ⟨sb, hsb⟩ := List.exists_mem_of_ne_nil _ (hwt b pb hpb)
  -- a sub-batch that is waited for has a request, but the threads have none
  have hcount := hi.count b sb
  rw [waits, hpb, jobs_of_idle hdel hi h.2 sb, List.countP_nil] at hcount
  exact List.count_eq_zero.mp hcount hsb

/-! ### A rejected batch -/

/-- `dispatchSubBatches` returned false and left the tracker usable: nothing of
the batch is left, its convert buffer is back, and once the threads are at rest
`flushReqs` returns and the next batch finds its id free. -/
structure LeavesUsable (cfg : TrackerConfig) (s : Sys) (p : ProcParams) (s' : Sys) : Prop where
  pendingBatch : s'.pendingBatch = s.pendingBatch
  convBufComplete : s'.convBufComplete = s.convBufComplete
  requests : ∀ sbId, ∀ q ∈ s'.jobs sbId, q.call ≠ p.call
  convBuf : ∀ buffer, p.pConvBuf = some (.pool buffer) → buffer ∈ s'.freeQueue
  flushReqs : ∀ t, Settles cfg s' t → t.pendingBatch.isEmpty
  submitInput : ∀ t, Settles cfg s' t → t.batchId ∉ t.pendingBatch

/-- The id of the batch is still in use, by a batch that somebody works on like
on every other one pending, and no buffer of the pool was taken; no thread stops
at a missing buffer. -/
structure Harmless (cfg : TrackerConfig) (s : Sys) (p : ProcParams) : Prop where
  active : s.batchId ∈ s.pendingBatch
  noBuffer : ∀ buffer, p.pConvBuf ≠ some (.pool buffer)
  noNull : ¬ DeletesNull cfg
  allWait : AllWait s

theorem submitNext_eq (hsub : cfg.subBatchSizes.length ≠ 0) (hp : s.submit = .converted p) :
    s.step cfg .submitNext = some (s.dispatchSubBatches cfg p) := by
  rw [step, submitNext, hp]
  exact if_neg hsub

/-- A batch that is refused at once. -/
theorem dispatchSubBatches_active (h : s.batchId ∈ s.pendingBatch) : s.dispatchSubBatches cfg p = s.reject := by
  rw [dispatchSubBatches, if_pos h]

/-- A batch that is refused later was registered before. -/
theorem dispatchSubBatches_rejected (h : s.batchId ∉ s.pendingBatch)
    (hrej : (s.dispatchSubBatches cfg p).accepted = s.accepted) :
    (s.dispatchSubBatches cfg p).pendingBatch[s.batchId]? = some ⟨[], p.call⟩ ∧
      (s.dispatchSubBatches cfg p).batchId = s.batchId := by
  rw [dispatchSubBatches, if_neg h] at hrej ⊢
  dsimp only at hrej ⊢
  by_cases hok : (s.maps.dispatch cfg (queueFrames cfg p.input.frames)).ok = true
  · rw [if_pos hok] at hrej
    exact absurd hrej (by simp)
  · rw [if_neg hok, StreamMaps.requests_of_not_ok cfg _ (Bool.eq_false_iff.mpr hok)]
    refine ⟨?_, rfl⟩
    show (s.pendingBatch.insert s.batchId ⟨[], p.call⟩)[s.batchId]? = _
    rw [Table.getElem?_insert, if_pos rfl]

/-- **A rejected batch leaves the tracker usable only if nothing was done for
it.** In every reachable state a batch for which `dispatchSubBatches` returns
false leaves everything as it was, with the tracker usable, exactly when its id
was still in use by a batch that will be completed, and no convert buffer of the
pool had been taken. A batch that is rejected for one of its streams never does. -/
theorem leavesUsable_iff (h : Reach (step cfg) anyStep (Started cfg) s) (hsub : cfg.subBatchSizes.length ≠ 0)
    (hp : s.submit = .converted p) (hs : s.step cfg .submitNext = some s') (hrej : s'.accepted = s.accepted) :
    LeavesUsable cfg s p s' ↔ Harmless cfg s p := by
  have hi := SubInv.of_reach hsub h
  have hsubmit := Submitting.of_reach h
  have hr' : Reach (step cfg) anyStep (Started cfg) s' := h.step trivial hs
  have he : s' = s.dispatchSubBatches cfg p := by
    rw [submitNext_eq hsub hp, Option.some.injEq] at hs
    exact hs.symm
  by_cases hactive : s.batchId ∈ s.pendingBatch
  · rw [dispatchSubBatches_active hactive] at he
    have hpending : s'.pendingBatch = s.pendingBatch := he ▸ rfl
    constructor
    · intro hu
      obtain ⟨t, ht⟩ := exists_settles cfg s'
      have hnone := TreeMap.isEmpty_iff_forall_not_mem.mp (hu.flushReqs t ht)
      refine ⟨hactive, fun buffer hbuf => ?_, fun hdel => ?_, fun b pb hpb hw => ?_⟩
      · have hback := hu.convBuf buffer hbuf
        rw [he] at hback
        exact (PoolInv.of_reach hsub h).submitted p buffer hp hbuf hback
      · obtain ⟨-, hkept⟩ := ht.keeps (I := fun u => s.batchId ∈ u.pendingBatch) hr' (hpending ▸ hactive)
          fun u u' a hu _ hI hs => pending_kept hsub (SubInv.of_reach hsub hu) (Submitting.of_reach hu) hdel hs hI
        exact hnone _ hkept
      · obtain ⟨-, hkept⟩ := ht.keeps (I := fun u => u.pendingBatch[b]? = some pb) hr' (hpending ▸ hpb)
          fun u u' a hu _ hI hs => entry_kept hsub (SubInv.of_reach hsub hu) (Submitting.of_reach hu) hs hI hw
        exact hnone b (TreeMap.mem_iff_isSome_getElem?.mpr (by rw [hkept]; rfl))
    · intro hc
      have hwait : AllWait s' := fun b pb hpb => hc.allWait b pb (hpending ▸ hpb)
      have hempty := fun t (ht : Settles cfg s' t) => isEmpty_of_settles hsub hr' hc.noNull hwait ht
      refine ⟨hpending, he ▸ rfl, fun sb q hq hcall => ?_, fun buffer hbuf => absurd hbuf (hc.noBuffer buffer),
        hempty, fun t ht => TreeMap.isEmpty_iff_forall_not_mem.mp (hempty t ht) _⟩
      -- the requests are of earlier calls
      have hold : q ∈ s.jobs sb := by rwa [he] at hq
      obtain ⟨pb, hpb, ho⟩ := hi.owner hold
      have := hi.ownerLt hpb
      rw [ho, hcall, (hsubmit.converted p hp).1] at this
      exact Nat.lt_irrefl _ this
  · refine iff_of_false (fun hu => hactive ?_) fun hc => hactive hc.active
    have hentry := (dispatchSubBatches_rejected hactive (he ▸ hrej)).1
    rw [← hu.pendingBatch, he]
    exact TreeMap.mem_iff_isSome_getElem?.mpr (by rw [hentry]; rfl)

/-- Two sources for one slot: the second one finds no sub-batch. -/
def twoSources : List (Option NvDsFrameMeta) := [some (.of 0 0 0), some (.of 1 0 0)]

/-- One slot, two sources: the caller has the buffer 0 of the pool. -/
theorem leavesUsable_iff_twoSources :
    let cfg := dynamicConfig [1]
    let s := (exec (step cfg) anyStep (start cfg (by decide)) [.submitInput twoSources .ok]).get (by decide +kernel)
    let p : ProcParams := ⟨⟨0, twoSources⟩, some (.pool 0), 0⟩
    LeavesUsable cfg s p (s.dispatchSubBatches cfg p) ↔ Harmless cfg s p :=
  leavesUsable_iff (Reach.get_exec (started_start _ _) _) (by decide) rfl rfl (by decide +kernel)

/-- The batch stays registered, although the call returned false. -/
theorem leavesUsable_fails : ∃ s s' p, Reach (step (dynamicConfig [1])) anyStep (Started (dynamicConfig [1])) s ∧
    s.submit = .converted p ∧ s.step (dynamicConfig [1]) .submitNext = some s' ∧ s'.accepted = s.accepted ∧
      ¬ LeavesUsable (dynamicConfig [1]) s p s' := by
  refine ⟨_, _, ⟨⟨0, twoSources⟩, some (.pool 0), 0⟩, Reach.get_exec (started_start _ (by decide))
    (show (exec (step (dynamicConfig [1])) anyStep _ [.submitInput twoSources .ok]).isSome by decide +kernel),
    rfl, rfl, by decide +kernel, fun hu => ?_⟩
  have hempty := congrArg TreeMap.isEmpty hu.pendingBatch
  exact absurd hempty (by decide +kernel)

end Sys
end Tracker
end DeepStream
