/-
# The barrier of `flushReqs`

`flushReqs` waits until no batch is pending and pushes its marker. With
sub-batches a batch is put on `m_CompletionQueue` in the section that makes it
no longer pending, and the marker comes after every batch that was accepted
before. Without sub-batches `processBatch` erases the batch in one section and
pushes it in the next, and a marker that is pushed between the two comes first.
-/
import DeepStream.Lib.Inevitable
import DeepStream.Tracker.Completion

namespace DeepStream
namespace Tracker
namespace Sys

open Std

variable {cfg : TrackerConfig} {s s' : Sys} {a : Action}

/-- Each marker comes after the batches that were accepted before its
`flushReqs` was called. -/
def Barrier (s : Sys) : Prop := ∀ before k, before ++ [.eventMarker k] <+: s.history →
  ∀ n ∈ s.acceptedCalls.take k, n ∈ before.filterMap Completion.call?

/-- A marker is not pushed while a batch accepted before its `flushReqs` is
erased from `m_PendingBatch` and not on the queue yet. -/
def PushesAfter (s : Sys) : Action → Prop
  | .flushPush i => ∀ k ∈ s.cleared[i]?, ∀ p ∈ s.unpushed, p.call ∉ s.acceptedCalls.take k
  | _ => True

instance (s : Sys) : (a : Action) → Decidable (PushesAfter s a)
  | .flushPush i => inferInstanceAs (Decidable (∀ k ∈ s.cleared[i]?, _))
  | .submitInput _ _ | .submitNext | .processBatch _ | .processSubBatch _ _ | .flushReqs | .flushCleared _
  | .waitForCompletion | .removeSource _ _ | .trackerLibError => inferInstanceAs (Decidable True)

/-- The batches that are no longer pending, by their calls. -/
def done (s : Sys) : List ℕ := s.completed ++ s.unpushed.map ProcParams.call

/-! ### The markers in the history -/

theorem barrier_append_marker {k : ℕ} (hh : s'.history = s.history ++ [.eventMarker k])
    (ha : s'.acceptedCalls = s.acceptedCalls) :
    Barrier s' ↔ Barrier s ∧ ∀ n ∈ s.acceptedCalls.take k, n ∈ s.completed := by
  rw [Barrier, Barrier, hh, ha]
  constructor
  · refine fun h => ⟨fun before j hp => h before j (hp.trans (List.prefix_append ..)), ?_⟩
    exact h s.history k (List.prefix_refl _)
  · rintro ⟨h, hk⟩ before j hp
    rcases List.prefix_concat_iff.mp hp with he | hp
    · obtain ⟨rfl, hj⟩ := List.append_inj' he rfl
      cases hj
      exact hk
    · exact h before j hp

/-- A step of the threads that neither pushes a marker nor moves one. -/
structure Grows (s s' : Sys) : Prop where
  accepted : s.acceptedCalls <+: s'.acceptedCalls
  done : s.done ⊆ s'.done
  history : s'.history = s.history ∨ ∃ x, s'.history = s.history ++ [.batch x]
  polling : s'.polling = s.polling
  cleared : s'.cleared = s.cleared

/-- The barrier holds so far; a marker about to be pushed finds the batches
before it no longer pending; and no `flushReqs` counts batches to come. -/
structure BarrierInv (s : Sys) : Prop where
  barrier : Barrier s
  cleared : ∀ k ∈ s.cleared, s.acceptedCalls.take k ⊆ s.done
  waiting : ∀ k ∈ s.polling ++ s.cleared, k ≤ s.acceptedCalls.length
  pushed : ∀ k, .eventMarker k ∈ s.history → k ≤ s.acceptedCalls.length

theorem take_eq_take_of_le {l l' : List ℕ} (h : l <+: l') {k : ℕ} (hk : k ≤ l.length) : l'.take k = l.take k := by
  obtain ⟨t, rfl⟩ := h
  rw [List.take_append_of_le_length hk]

namespace BarrierInv

theorem grow (h : BarrierInv s) (hg : Grows s s') : BarrierInv s' := by
  have hmem : ∀ {k}, .eventMarker k ∈ s'.history → .eventMarker k ∈ s.history := by
    intro k hk
    rcases hg.history with he | ⟨x, he⟩
    · exact he ▸ hk
    · rw [he, List.mem_append] at hk
      exact hk.resolve_right (by simp)
  have hlen := hg.accepted.length_le
  constructor
  · intro before k hp n hn
    have hold : before ++ [.eventMarker k] <+: s.history := by
      rcases hg.history with he | ⟨x, he⟩
      · exact he ▸ hp
      · rw [he] at hp
        refine (List.prefix_concat_iff.mp hp).resolve_left fun he => ?_
        cases (List.append_inj' he rfl).2
    have hk := h.pushed k (hold.subset (by simp))
    rw [take_eq_take_of_le hg.accepted hk] at hn
    exact h.barrier before k hold n hn
  · rw [hg.cleared]
    intro k hk
    rw [take_eq_take_of_le hg.accepted (h.waiting k (List.mem_append_right _ hk))]
    exact List.Subset.trans (h.cleared k hk) hg.done
  · rw [hg.polling, hg.cleared]
    exact fun k hk => (h.waiting k hk).trans hlen
  · exact fun k hk => (h.pushed k (hmem hk)).trans hlen

/-- A section of `flushReqs` that finds no batch pending that it counts, and
pushes no marker too early. -/
theorem flush (h : BarrierInv s) (hempty : s.pendingBatch.isEmpty → s.acceptedCalls ⊆ s.done)
    (hok : PushesAfter s a) (hb : SameBatches s s') (hf : FlushStep s a s') : BarrierInv s' := by
  have ha : s'.acceptedCalls = s.acceptedCalls := by rw [acceptedCalls, hb.accepted, acceptedCalls]
  have hdone : s'.done = s.done := by rw [done, hb.unpushed, hf.completed_eq, done]
  cases hf with
  | called history polling cleared =>
    constructor
    · rw [Barrier, history, ha]
      exact h.barrier
    · rw [cleared, ha, hdone]
      exact h.cleared
    · rw [polling, cleared, ha]
      intro k hk
      simp only [List.mem_append, List.mem_singleton, or_right_comm (b := k = _)] at hk
      rcases hk with hk | rfl
      · exact h.waiting k (List.mem_append.mpr hk)
      · rw [acceptedCalls, List.length_map]
    · rw [history, ha]
      exact h.pushed
  | passed i k hi hnone history polling cleared =>
    have hmem : k ∈ s.polling := List.mem_of_getElem? hi
    constructor
    · rw [Barrier, history, ha]
      exact h.barrier
    · rw [cleared, ha, hdone]
      intro j hj
      rcases List.mem_append.mp hj with hj | hj
      · exact h.cleared j hj
      · exact List.Subset.trans (List.take_subset ..) (hempty hnone)
    · rw [polling, cleared, ha]
      intro j hj
      simp only [List.mem_append, List.mem_singleton] at hj
      rcases hj with hj | hj | rfl
      · exact h.waiting j (List.mem_append_left _ (List.mem_of_mem_eraseIdx hj))
      · exact h.waiting j (List.mem_append_right _ hj)
      · exact h.waiting j (List.mem_append_left _ hmem)
    · rw [history, ha]
      exact h.pushed
  | pushed i k haction hi history polling cleared =>
    have hmem : k ∈ s.cleared := List.mem_of_getElem? hi
    constructor
    · refine (barrier_append_marker history ha).mpr ⟨h.barrier, fun n hn => ?_⟩
      refine (List.mem_append.mp (h.cleared k hmem hn)).resolve_right fun hun => ?_
      obtain ⟨p, hp, rfl⟩ := List.mem_map.mp hun
      subst haction
      exact hok k hi p hp hn
    · rw [cleared, ha, hdone]
      exact fun j hj => h.cleared j (List.mem_of_mem_eraseIdx hj)
    · rw [polling, cleared, ha]
      intro j hj
      rcases List.mem_append.mp hj with hj | hj
      · exact h.waiting j (List.mem_append_left _ hj)
      · exact h.waiting j (List.mem_append_right _ (List.mem_of_mem_eraseIdx hj))
    · rw [history, ha]
      intro j hj
      rcases List.mem_append.mp hj with hj | hj
      · exact h.pushed j hj
      · cases List.mem_singleton.mp hj
        exact h.waiting k (List.mem_append_right _ hmem)

end BarrierInv

/-! ### The other sections -/

theorem grows_quiet (hb : SameBatches s s') (hf : SameFlush s s') : Grows s s' where
  accepted := by rw [acceptedCalls, acceptedCalls, hb.accepted]
  done := by
    rw [done, done, hb.unpushed, completed_of_history hf.history]
    exact List.Subset.refl _
  history := .inl hf.history
  polling := hf.polling
  cleared := hf.cleared

theorem subStep_grows (hi : SubInv cfg s) (hstep : SubStep cfg s a s') :
    Grows s s' ∨ SameBatches s s' ∧ FlushStep s a s' := by
  cases hstep with
  | quiet hb hf => exact .inl (grows_quiet hb hf)
  | flush hb hf => exact .inr ⟨hb, hf⟩
  | dispatch ha p d hp hd hfree pending jobs held unpushed accepted returned calls hf =>
    refine .inl ⟨?_, ?_, .inl hf.history, hf.polling, hf.cleared⟩
    · rw [acceptedCalls, acceptedCalls, accepted, List.map_append]
      exact List.prefix_append ..
    · rw [done, done, unpushed, completed_of_history hf.history]
      exact List.Subset.refl _
  | partDone sbId p rest pb hjobs hpb hmem hleft pending jobs held unpushed accepted returned calls hf =>
    refine .inl ⟨?_, ?_, .inl hf.history, hf.polling, hf.cleared⟩
    · rw [acceptedCalls, acceptedCalls, accepted]
    · rw [done, done, unpushed, completed_of_history hf.history]
      exact List.Subset.refl _
  | batchDone sbId p rest pb hjobs hpb hmem hleft hbuf pending jobs held unpushed accepted returned calls
      history polling cleared =>
    refine .inl ⟨?_, ?_, .inr ⟨_, history⟩, polling, cleared⟩
    · rw [acceptedCalls, acceptedCalls, accepted]
    · rw [done, done, unpushed, completed_append history]
      exact List.append_subset.mpr ⟨fun n hn => by simp [hn], List.subset_append_right ..⟩
  | stray sbId p rest hjobs hstray =>
    obtain ⟨pb, hpb, hmem⟩ := hi.mem_waiting (hjobs ▸ List.mem_cons_self ..)
    exact absurd hmem (hstray pb hpb)

theorem lineStep_grows (hi : LineInv cfg s) (hstep : LineStep cfg s a s') :
    Grows s s' ∨ SameBatches s s' ∧ FlushStep s a s' := by
  cases hstep with
  | quiet hb hf => exact .inl (grows_quiet hb hf)
  | flush hb hf => exact .inr ⟨hb, hf⟩
  | register p hp hfree eq =>
    rw [eq]
    exact .inl ⟨List.prefix_refl _, List.Subset.refl _, .inl rfl, rfl, rfl⟩
  | enqueue p hp eq =>
    rw [eq]
    refine .inl ⟨?_, List.Subset.refl _, .inl rfl, rfl, rfl⟩
    rw [acceptedCalls, acceptedCalls, List.map_append]
    exact List.prefix_append ..
  | erase p hp hmem eq =>
    rw [eq]
    refine .inl ⟨List.prefix_refl _, ?_, .inl rfl, rfl, rfl⟩
    have hnone : s.unpushed = [] := by simp [unpushed, hp]
    rw [done, hnone, List.map_nil, List.append_nil]
    exact List.subset_append_left ..
  | stray p hp hmem => exact absurd (hi.mem_pending hp) hmem
  | push p hp eq =>
    have hhist : s'.history = s.history ++ [.batch p.input] := by
      rw [eq]
      exact (List.append_assoc ..).symm
    refine .inl ⟨by rw [eq]; exact List.prefix_refl _, ?_, .inr ⟨_, hhist⟩, by rw [eq], by rw [eq]⟩
    have hone : s.unpushed = [p] := by simp [unpushed, hp]
    rw [done, done, completed_append hhist, hone]
    exact List.subset_append_left ..
  | finish p free hp hbuf eq =>
    rw [eq]
    refine .inl ⟨List.prefix_refl _, ?_, .inl rfl, rfl, rfl⟩
    have hnone : s.unpushed = [] := by simp [unpushed, hp]
    rw [done, hnone, List.map_nil, List.append_nil]
    exact List.subset_append_left ..

/-- With nothing pending every accepted batch is done. -/
theorem done_of_empty {ok : Sys → Action → Prop} (h : Reach (step cfg) ok (Started cfg) s)
    (hempty : s.pendingBatch.isEmpty) : s.acceptedCalls ⊆ s.done := by
  have hnone : ∀ (b : BatchId) (pb : PendingBatch), s.pendingBatch[b]? ≠ some pb := by
    intro b pb hb
    rw [TreeMap.getElem?_of_isEmpty hempty] at hb
    cases hb
  by_cases hsub : cfg.subBatchSizes.length = 0
  · have hi := LineInv.of_reach hsub h
    have hheld : s.held = [] := List.eq_nil_iff_forall_not_mem.mpr fun p hp =>
      hnone _ _ ((hi.pending p.batchId _).mpr ⟨p, List.mem_append_left _ hp, rfl, rfl⟩)
    rw [acceptedCalls, hi.accepted, hheld, List.append_nil]
    exact List.Subset.refl _
  · intro n hn
    obtain ⟨x, hx, rfl⟩ := List.mem_map.mp hn
    rcases (SubInv.of_reach hsub h).accepted x hx with hdone | ⟨b, pb, hb, -⟩
    · exact List.mem_append_left _ hdone.1
    · exact absurd hb (hnone b pb)

/-- What is erased and not on the queue yet is not on the queue. -/
theorem notMem_completed {ok : Sys → Action → Prop} (h : Reach (step cfg) ok (Started cfg) s) {p : ProcParams}
    (hp : p ∈ s.unpushed) : p.call ∉ s.completed := by
  by_cases hsub : cfg.subBatchSizes.length = 0
  · have hnodup := (LineInv.of_reach hsub h).nodup
    refine fun hc => (List.nodup_append.mp hnodup).2.2 _ hc _ ?_ rfl
    exact List.mem_map_of_mem (List.mem_append_left _ hp)
  · rw [(SubInv.of_reach hsub h).unpushed] at hp
    cases hp

theorem grows_of_step {ok : Sys → Action → Prop} (h : Reach (step cfg) ok (Started cfg) s)
    (hs : s.step cfg a = some s') : Grows s s' ∨ SameBatches s s' ∧ FlushStep s a s' := by
  by_cases hsub : cfg.subBatchSizes.length = 0
  · exact lineStep_grows (LineInv.of_reach hsub h) (lineStep hsub hs)
  · exact subStep_grows (SubInv.of_reach hsub h) (subStep hsub (Submitting.of_reach h) hs)

/-! ### Runs -/

theorem BarrierInv.step {ok : Sys → Action → Prop} (hr : Reach (Sys.step cfg) ok (Started cfg) s)
    (h : BarrierInv s) (hok : PushesAfter s a) (hs : s.step cfg a = some s') : BarrierInv s' := by
  rcases grows_of_step hr hs with hg | ⟨hb, hf⟩
  · exact h.grow hg
  · exact h.flush (done_of_empty hr) hok hb hf

theorem BarrierInv.of_reach (h : Reach (Sys.step cfg) PushesAfter (Started cfg) s) : BarrierInv s := by
  induction h with
  | init h =>
    obtain ⟨m, -, rfl⟩ := Option.map_eq_some_iff.mp h
    constructor <;> simp [Barrier, history]
  | step hr hok hs ih => exact ih.step hr hok hs

/-- **When `flushReqs` is a barrier.** In a run in which no marker is pushed
between the two sections, the markers come after their batches in every state
reached, and they do so after a further section exactly when that does not push
one there. -/
theorem barrier_run_iff (h : Reach (step cfg) PushesAfter (Started cfg) s) :
    Barrier s ∧ ∀ a s', s.step cfg a = some s' → (Barrier s' ↔ PushesAfter s a) := by
  have hi := BarrierInv.of_reach h
  refine ⟨hi.barrier, fun a s' hs => ⟨fun hbarrier => ?_, fun hok => (hi.step h hok hs).barrier⟩⟩
  cases a with
  | flushPush i =>
    intro k hk p hp hmem
    have hk : s.cleared[i]? = some k := hk
    simp only [step, hk, Option.some.injEq] at hs
    have hhist : s'.history = s.history ++ [.eventMarker k] := by
      rw [← hs]
      exact (List.append_assoc ..).symm
    have hdone := ((barrier_append_marker hhist (by rw [← hs]; rfl)).mp hbarrier).2 _ hmem
    exact notMem_completed h hp hdone
  | _ => trivial

/-- No sub-batches. -/
def plainConfig (batchSize : ℕ) : TrackerConfig :=
  { dynamicConfig [] with batchSize := batchSize, dynamicSubBatching := false, sizes_eq := fun _ => rfl }

/-- A batch is submitted, goes through the first sections of `processBatch`, and
`flushReqs` finds nothing pending. -/
def erasedBatch : List Action :=
  submitFrame (.of 0 0 0) ++ [.submitNext, .processBatch [], .processBatch [], .processBatch [], .flushReqs,
    .flushCleared 0]

/-- The batch is pushed first. -/
theorem barrier_run_iff_oneBatch :
    let cfg := plainConfig 1
    let s := (exec (step cfg) PushesAfter (start cfg (by decide))
      (erasedBatch ++ [.processBatch [], .flushPush 0])).get (by decide +kernel)
    Barrier s ∧ ∀ a s', s.step cfg a = some s' → (Barrier s' ↔ PushesAfter s a) :=
  barrier_run_iff (Reach.get_exec (started_start _ _) _)

/-- The marker is pushed first. -/
theorem barrier_fails : ∃ s, Reach (step (plainConfig 1)) anyStep (Started (plainConfig 1)) s ∧ ¬ Barrier s := by
  refine ⟨_, Reach.get_exec (started_start _ (by decide))
    (show (exec (step (plainConfig 1)) anyStep _
      (erasedBatch ++ [.flushPush 0, .processBatch []])).isSome by decide +kernel), fun h => ?_⟩
  exact absurd (h [] 1 (by decide +kernel) 0 (by decide +kernel)) (by decide)

/-! ### With sub-batches -/

/-- With sub-batches the condition holds of itself. -/
theorem pushesAfter_of_subBatches (hsub : cfg.subBatchSizes.length ≠ 0) {ok : Sys → Action → Prop}
    (h : Reach (step cfg) ok (Started cfg) s) (a : Action) : PushesAfter s a := by
  cases a with
  | flushPush i =>
    intro k _ p hp
    rw [(SubInv.of_reach hsub h).unpushed] at hp
    cases hp
  | _ => trivial

theorem barrier_of_subBatches (hsub : cfg.subBatchSizes.length ≠ 0)
    (h : Reach (step cfg) anyStep (Started cfg) s) : Barrier s := by
  have hafter : Reach (step cfg) PushesAfter (Started cfg) s := by
    induction h with
    | init h => exact .init h
    | step hr _ hs ih => exact .step ih (pushesAfter_of_subBatches hsub hr _) hs
  exact (BarrierInv.of_reach hafter).barrier

/-- The batch is completed, and then `flushReqs` pushes its marker. -/
theorem barrier_of_subBatches_oneFrame :
    let cfg := dynamicConfig [1]
    let s := (exec (step cfg) anyStep (start cfg (by decide)) (submitFrame (.of 0 0 0) ++
      [.flushReqs, .processSubBatch 0 [], .processSubBatch 0 [], .processSubBatch 0 [], .flushCleared 0,
        .flushPush 0])).get (by decide +kernel)
    s.history.length = 2 ∧ Barrier s :=
  ⟨by decide +kernel, barrier_of_subBatches (by decide) (Reach.get_exec (started_start _ _) _)⟩

/-! ### The processing threads get through -/

/-- **Every batch is completed in the end.** From every reachable state, in whichever
order the processing threads run their sections, each accepted batch with something to
track and a buffer to delete is completed once. -/
theorem completed_inevitable (h : Reach (step cfg) anyStep (Started cfg) s) :
    Inevitable (step cfg) (fun _ => Processing) (fun t => s.acceptedCalls <+: t.acceptedCalls ∧
      ∀ x ∈ t.accepted, Completes cfg x → CompletedOnce t x) s := by
  refine Inevitable.of_lt (I := fun t => Reach (step cfg) anyStep (Started cfg) t ∧
    s.acceptedCalls <+: t.acceptedCalls) (work cfg) ?_ ?_ ⟨h, List.prefix_refl _⟩
  · rintro t ⟨ht, hacc⟩ hnot
    by_contra hrest
    have hidle : Idle cfg t := fun a t' ha hs => hrest ⟨a, ha, by rw [hs]; rfl⟩
    refine hnot ⟨hacc, fun x hx ⟨hdel, hsel⟩ => ?_⟩
    by_cases hsub : cfg.subBatchSizes.length = 0
    · have hi := LineInv.of_reach hsub ht
      exact hi.completedOnce (held_of_idle hsub hdel hi hidle) hx
    · have hi := SubInv.of_reach hsub ht
      exact (hi.completedOnce_iff (jobs_of_idle hdel hi hidle) hx).mpr (hsel.resolve_left hsub)
  · rintro t a t' ⟨ht, hacc⟩ ha hs
    refine ⟨⟨ht.step trivial hs, hacc.trans ?_⟩, work_lt ha hs⟩
    rcases grows_of_step ht hs with hg | ⟨hb, -⟩
    · exact hg.accepted
    · rw [acceptedCalls, acceptedCalls, hb.accepted]

/-- The batch is accepted, and no section has been run. -/
theorem completed_inevitable_oneFrame :
    let cfg := dynamicConfig [1]
    let s := (exec (step cfg) anyStep (start cfg (by decide)) (submitFrame (.of 0 0 0))).get (by decide +kernel)
    s.acceptedCalls = [0] ∧ s.completed = [] ∧
      Inevitable (step cfg) (fun _ => Processing) (fun t => s.acceptedCalls <+: t.acceptedCalls ∧
        ∀ x ∈ t.accepted, Completes cfg x → CompletedOnce t x) s :=
  ⟨by decide +kernel, by decide +kernel, completed_inevitable (Reach.get_exec (started_start _ _) _)⟩

end Sys
end Tracker
end DeepStream
