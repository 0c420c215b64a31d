/-
# The order of the output

Without sub-batches the batches come out in the order in which they were
submitted. With sub-batches each thread works on its requests in that order, but
a batch is completed as soon as its own sub-batches are done with it, so that it
overtakes an older one that waits for a sub-batch it has no frames for. The order
is kept when every new batch gives a request to each sub-batch that an older one
still waits for.
-/
import DeepStream.Tracker.Completion

namespace DeepStream
namespace Tracker

open Std

/-- The batch that is about to be registered or dispatched. -/
def SubmitPc.converted? : SubmitPc → Option ProcParams
  | .converted p => some p
  | _ => none

namespace Sys

variable {cfg : TrackerConfig} {s s' : Sys} {a : Action}

/-- What was put on the queue of the accepted batches is in the order of their calls. -/
def Ordered (s : Sys) : Prop := (s.completed.filter (· ∈ s.acceptedCalls)).Pairwise (· < ·)

/-- No request is made of the new batch, or one for every sub-batch that a
pending batch still waits for. -/
def Covers (cfg : TrackerConfig) (s : Sys) (p : ProcParams) : Prop :=
  let requests := (s.maps.dispatch cfg (queueFrames cfg p.input.frames)).requests
  requests = [] ∨ ∀ e ∈ s.pendingBatch.toList, ∀ sbId ∈ e.2.waiting, sbId ∈ requests.map Prod.fst

/-- With sub-batches, a batch that `dispatchSubBatches` accepts covers what is
pending. -/
def KeepsOrder (cfg : TrackerConfig) (s : Sys) : Action → Prop
  | .submitNext => ∀ p ∈ s.submit.converted?, cfg.subBatchSizes.length = 0 ∨ s.batchId ∈ s.pendingBatch ∨
      (s.maps.dispatch cfg (queueFrames cfg p.input.frames)).ok = false ∨ Covers cfg s p
  | _ => True

instance (cfg : TrackerConfig) (s : Sys) (p : ProcParams) : Decidable (Covers cfg s p) :=
  @instDecidableOr _ _ (decidable_of_iff ((s.maps.dispatch cfg _).requests.isEmpty = true)
    List.isEmpty_iff) inferInstance

instance (cfg : TrackerConfig) (s : Sys) : (a : Action) → Decidable (KeepsOrder cfg s a)
  | .submitNext => inferInstanceAs (Decidable (∀ p ∈ s.submit.converted?, _))
  | .submitInput _ _ | .processBatch _ | .processSubBatch _ _ | .flushReqs | .flushCleared _ | .flushPush _
  | .waitForCompletion | .removeSource _ _ | .trackerLibError => inferInstanceAs (Decidable True)

/-! ### The queues of the sub-batches -/

/-- The requests are in the order of the calls, what an older batch waits for a
newer one waits for too, and nothing older than a completed batch has a request
left. -/
structure OrderInv (s : Sys) : Prop where
  queues : ∀ sb, (s.jobs sb).Pairwise fun p q => p.call ≤ q.call
  nested : ∀ {b b' : BatchId} {pb pb'}, s.pendingBatch[b]? = some pb → s.pendingBatch[b']? = some pb' →
    pb.owner < pb'.owner → pb'.owner ∈ s.acceptedCalls → pb'.waiting ≠ [] → pb.waiting ⊆ pb'.waiting
  done : ∀ n ∈ s.completed, n ∈ s.acceptedCalls → ∀ {b : BatchId} {pb}, s.pendingBatch[b]? = some pb →
    pb.owner < n → pb.waiting = []
  order : s.Ordered

namespace OrderInv

theorem same (h : OrderInv s) (hb : SameBatches s s') (hc : s'.completed = s.completed) : OrderInv s' := by
  have ha : s'.acceptedCalls = s.acceptedCalls := by rw [acceptedCalls, hb.accepted, acceptedCalls]
  constructor
  · intro sb
    rw [hb.jobs]
    exact h.queues sb
  · rw [hb.pending, ha]
    exact h.nested
  · rw [hb.pending, ha, hc]
    exact h.done
  · rw [Ordered, ha, hc]
    exact h.order

/-- The thread of a sub-batch has requests of no batch older than the one it
works on. -/
theorem not_waiting (h : OrderInv s) (hi : SubInv cfg s) {sbId : SubBatchId} {p : ProcParams}
    {rest : List ProcParams} (hjobs : s.jobs sbId = p :: rest) {b : BatchId} {pb : PendingBatch}
    (hpb : s.pendingBatch[b]? = some pb) (hlt : pb.owner < p.call) : sbId ∉ pb.waiting := by
  intro hmem
  have hcount := hi.count b sbId
  rw [waits, hpb] at hcount
  obtain ⟨q, hq, hqb⟩ := List.countP_pos_iff.mp (hcount ▸ List.count_pos_iff.mpr hmem)
  obtain ⟨pb', hpb', ho⟩ := hi.owner hq
  rw [of_decide_eq_true hqb, hpb] at hpb'
  cases hpb'
  have hsorted := h.queues sbId
  rw [hjobs] at hq hsorted
  rcases List.mem_cons.mp hq with rfl | hq
  · exact hlt.ne ho
  · exact absurd ((List.pairwise_cons.mp hsorted).1 q hq) (by omega)

theorem sorted_rest {sbId sb : SubBatchId} (h : OrderInv s) {p : ProcParams} {rest : List ProcParams}
    (hjobs : s.jobs sbId = p :: rest) (hj : ∀ sb, s'.jobs sb = if sb = sbId then rest else s.jobs sb) :
    (s'.jobs sb).Pairwise fun p q => p.call ≤ q.call := by
  rw [hj]
  split
  · have := h.queues sbId
    rw [hjobs] at this
    exact (List.pairwise_cons.mp this).2
  · exact h.queues sb

/-- A new batch that covers what is pending, or one that is refused. -/
theorem dispatch (h : OrderInv s) (hi : SubInv cfg s) {p : ProcParams} {d : StreamMaps.Dispatch}
    (hcall : p.call = s.calls)
    (hcover : d.ok = true → d.requests = [] ∨
      ∀ e ∈ s.pendingBatch.toList, ∀ sbId ∈ e.2.waiting, sbId ∈ d.requests.map Prod.fst)
    (pending : s'.pendingBatch = s.pendingBatch.insert s.batchId ⟨d.requests.map Prod.fst, p.call⟩)
    (jobs : ∀ sbId, s'.jobs sbId = s.jobs sbId ++
      List.replicate ((d.requests.map Prod.fst).count sbId) { p with batchId := s.batchId })
    (accepted : s'.accepted = s.accepted ++ if d.ok then [p.input] else [])
    (hcompleted : s'.completed = s.completed) : OrderInv s' := by
  have hlookup : ∀ {b : BatchId} {pb}, s'.pendingBatch[b]? = some pb →
      pb = ⟨d.requests.map Prod.fst, p.call⟩ ∨ s.pendingBatch[b]? = some pb := by
    intro b pb hb
    rw [pending, Table.getElem?_insert] at hb
    split at hb
    · cases hb
      exact .inl rfl
    · exact .inr hb
  have hnew : s.calls ∉ s.acceptedCalls := by
    intro hmem
    obtain ⟨x, hx, he⟩ := List.mem_map.mp hmem
    exact (hi.acceptedLt x hx).ne he
  have hcalls : s'.acceptedCalls = s.acceptedCalls ++ if d.ok then [s.calls] else [] := by
    rw [acceptedCalls, accepted, List.map_append, acceptedCalls]
    split
    · exact congrArg _ (congrArg (fun n => [n]) hcall)
    · rfl
  have hold : ∀ {n}, n < s.calls → (n ∈ s'.acceptedCalls ↔ n ∈ s.acceptedCalls) := by
    intro n hn
    rw [hcalls, List.mem_append]
    refine or_iff_left fun hmem => ?_
    split at hmem
    · exact hn.ne (List.mem_singleton.mp hmem)
    · cases hmem
  constructor
  · intro sb
    rw [jobs]
    refine List.pairwise_append.mpr ⟨h.queues sb, List.pairwise_replicate.mpr (.inr le_rfl), fun q hq r hr => ?_⟩
    obtain ⟨pb, hpb, ho⟩ := hi.owner hq
    rw [(List.mem_replicate.mp hr).2, ← ho]
    exact ((hi.ownerLt hpb).trans_eq hcall.symm).le
  · intro b b' pb pb' hb hb' hlt hacc hne
    rcases hlookup hb' with rfl | hb'
    · rcases hlookup hb with rfl | hb
      · exact absurd hlt (lt_irrefl _)
      · have hok : d.ok = true := by
          change p.call ∈ _ at hacc
          rw [hcalls, hcall, List.mem_append] at hacc
          rcases hacc with hacc | hacc
          · exact absurd hacc hnew
          · split at hacc
            · assumption
            · cases hacc
        rcases hcover hok with hnil | hcover
        · exact absurd (by rw [hnil]; rfl) hne
        · exact hcover (b, pb) (TreeMap.mem_toList_iff_getElem?_eq_some.mpr hb)
    · rcases hlookup hb with rfl | hb
      · exact absurd hlt (hcall ▸ (hi.ownerLt hb').not_gt)
      · exact h.nested hb hb' hlt ((hold (hi.ownerLt hb')).mp hacc) hne
  · intro n hn hacc b pb hb hlt
    rw [hcompleted] at hn
    have hnlt := hi.lt n hn
    rcases hlookup hb with rfl | hb
    · exact absurd hlt (by change ¬ p.call < n; omega)
    · exact h.done n hn ((hold hnlt).mp hacc) hb hlt
  · have hfilter : s'.completed.filter (· ∈ s'.acceptedCalls) = s.completed.filter (· ∈ s.acceptedCalls) := by
      rw [hcompleted]
      exact List.filter_congr fun n hn => decide_eq_decide.mpr (hold (hi.lt n hn))
    rw [Ordered, hfilter]
    exact h.order

theorem acceptedCalls_eq (accepted : s'.accepted = s.accepted) : s'.acceptedCalls = s.acceptedCalls := by
  rw [acceptedCalls, accepted, acceptedCalls]

/-- A request of a batch for which others are left. -/
theorem partDone (h : OrderInv s) (hi : SubInv cfg s) {sbId : SubBatchId} {p : ProcParams}
    {rest : List ProcParams} {pb : PendingBatch} (hjobs : s.jobs sbId = p :: rest)
    (hpb : s.pendingBatch[p.batchId]? = some pb)
    (pending : s'.pendingBatch =
      s.pendingBatch.insert p.batchId { pb with waiting := pb.waiting.erase sbId })
    (jobs : ∀ sb, s'.jobs sb = if sb = sbId then rest else s.jobs sb) (accepted : s'.accepted = s.accepted)
    (hcompleted : s'.completed = s.completed) : OrderInv s' := by
  have hcalls := acceptedCalls_eq accepted
  have hown := hi.owner_eq (hjobs ▸ List.mem_cons_self ..) hpb
  have hold : ∀ {b : BatchId} {pb'}, s'.pendingBatch[b]? = some pb' → ∃ old, s.pendingBatch[b]? = some old ∧
      old.owner = pb'.owner ∧ pb'.waiting ⊆ old.waiting ∧
        (b = p.batchId ∧ old = pb ∧ pb'.waiting = pb.waiting.erase sbId ∨ old = pb') := by
    intro b pb' hb
    rw [pending, Table.getElem?_insert] at hb
    split at hb
    · rename_i he
      cases hb
      exact ⟨pb, he ▸ hpb, rfl, List.erase_subset, .inl ⟨he, rfl, rfl⟩⟩
    · exact ⟨pb', hb, rfl, List.Subset.refl _, .inr rfl⟩
  constructor
  · exact fun sb => h.sorted_rest hjobs jobs
  · intro b b' pb₁ pb₂ hb hb' hlt hacc hne sb hsb
    rw [hcalls] at hacc
    obtain ⟨old₁, hold₁, ho₁, hsub₁, -⟩ := hold hb
    obtain ⟨old₂, hold₂, ho₂, hsub₂, hcase⟩ := hold hb'
    have hne₂ : old₂.waiting ≠ [] := fun hnil => hne (List.subset_nil.mp (hnil ▸ hsub₂))
    have hin := h.nested hold₁ hold₂ (by omega) (ho₂ ▸ hacc) hne₂ (hsub₁ hsb)
    rcases hcase with ⟨-, rfl, hw⟩ | rfl
    · rw [hw]
      refine (List.mem_erase_of_ne ?_).mpr hin
      rintro rfl
      exact h.not_waiting hi hjobs hold₁ (by omega) (hsub₁ hsb)
    · exact hin
  · intro n hn hacc b pb' hb hlt
    obtain ⟨old, hold', ho, hsub, -⟩ := hold hb
    have hnil := h.done n (hcompleted ▸ hn) (hcalls ▸ hacc) hold' (by omega)
    exact List.subset_nil.mp (hnil ▸ hsub)
  · rw [Ordered, hcalls, hcompleted]
    exact h.order

/-- The last request of a batch: no older one waits for a request, and no newer
one was completed. -/
theorem batchDone (h : OrderInv s) (hi : SubInv cfg s) {sbId : SubBatchId} {p : ProcParams}
    {rest : List ProcParams} {pb : PendingBatch} (hjobs : s.jobs sbId = p :: rest)
    (hpb : s.pendingBatch[p.batchId]? = some pb) (hmem : sbId ∈ pb.waiting)
    (hleft : pb.waiting.erase sbId = []) (pending : s'.pendingBatch = s.pendingBatch.erase p.batchId)
    (jobs : ∀ sb, s'.jobs sb = if sb = sbId then rest else s.jobs sb) (accepted : s'.accepted = s.accepted)
    (hcompleted : s'.completed = s.completed ++ [p.call]) : OrderInv s' := by
  have hcalls := acceptedCalls_eq accepted
  have hown := hi.owner_eq (hjobs ▸ List.mem_cons_self ..) hpb
  have hne : pb.waiting ≠ [] := List.ne_nil_of_mem hmem
  have hold : ∀ {b : BatchId} {pb'}, s'.pendingBatch[b]? = some pb' → s.pendingBatch[b]? = some pb' := by
    intro b pb' hb
    rw [pending, Table.getElem?_erase] at hb
    split at hb
    · cases hb
    · exact hb
  constructor
  · exact fun sb => h.sorted_rest hjobs jobs
  · intro b b' pb₁ pb₂ hb hb' hlt hacc
    exact h.nested (hold hb) (hold hb') hlt (hcalls ▸ hacc)
  · intro n hn hacc b pb' hb hlt
    rw [hcalls] at hacc
    rw [hcompleted, List.mem_append, List.mem_singleton] at hn
    rcases hn with hn | rfl
    · exact h.done n hn hacc (hold hb) hlt
    · have hin := h.nested (hold hb) hpb (hown.symm ▸ hlt) (hown.symm ▸ hacc) hne
      refine List.eq_nil_iff_forall_not_mem.mpr fun sb hsb => ?_
      by_cases he : sb = sbId
      · exact h.not_waiting hi hjobs (hold hb) hlt (he ▸ hsb)
      · exact List.not_mem_nil (hleft ▸ (List.mem_erase_of_ne he).mpr (hin hsb))
  · rw [Ordered, hcalls, hcompleted, List.filter_append, List.pairwise_append]
    refine ⟨h.order, List.Pairwise.filter _ (List.pairwise_singleton ..), fun m hm n hn => ?_⟩
    obtain ⟨hm, hmacc⟩ := List.mem_filter.mp hm
    rw [List.mem_singleton.mp (List.mem_filter.mp hn).1]
    by_contra hge
    have hlt : pb.owner < m := by
      have hne' : pb.owner ≠ m := fun he => hi.notDone hpb (he ▸ hm)
      omega
    exact hne (h.done m hm (of_decide_eq_true hmacc) hpb hlt)

theorem step (h : OrderInv s) (hi : SubInv cfg s) (hsub : cfg.subBatchSizes.length ≠ 0)
    (hsubmit : Submitting cfg s) (hok : KeepsOrder cfg s a) (hs : s.step cfg a = some s') : OrderInv s' := by
  cases subStep hsub hsubmit hs with
  | quiet hb hf => exact h.same hb (completed_of_history hf.history)
  | flush hb hf => exact h.same hb hf.completed_eq
  | dispatch ha p d hp hd hfree pending jobs held unpushed accepted returned calls hf =>
    refine h.dispatch hi (hsubmit.converted p hp).1 (fun hd' => ?_) pending jobs accepted
      (completed_of_history hf.history)
    subst ha
    rcases hok p (by rw [hp]; rfl) with h0 | hmem | hfalse | hcovers
    · exact absurd h0 hsub
    · exact absurd hmem hfree
    · rw [hd, hd'] at hfalse
      cases hfalse
    · rw [Covers, hd] at hcovers
      exact hcovers
  | partDone sbId p rest pb hjobs hpb hmem hleft pending jobs held unpushed accepted returned calls hf =>
    exact h.partDone hi hjobs hpb pending jobs accepted (completed_of_history hf.history)
  | batchDone sbId p rest pb hjobs hpb hmem hleft hbuf pending jobs held unpushed accepted returned calls history =>
    exact h.batchDone hi hjobs hpb hmem hleft pending jobs accepted (completed_append history)
  | stray sbId p rest hjobs hstray =>
    obtain ⟨pb, hpb, hmem⟩ := hi.mem_waiting (hjobs ▸ List.mem_cons_self ..)
    exact absurd hmem (hstray pb hpb)

theorem started (h : Started cfg s) : OrderInv s := by
  obtain ⟨m, -, rfl⟩ := Option.map_eq_some_iff.mp h
  constructor <;> simp [jobs, currentJob, Ordered, completed, history]

theorem of_reach (hsub : cfg.subBatchSizes.length ≠ 0) (h : Reach (Sys.step cfg) (KeepsOrder cfg) (Started cfg) s) :
    OrderInv s := by
  induction h with
  | init h => exact started h
  | step hr hok hs ih => exact ih.step (SubInv.of_reach hsub hr) hsub (Submitting.of_reach hr) hok hs

end OrderInv

/-- Without sub-batches what is completed is a beginning of what was accepted. -/
theorem LineInv.ordered (h : LineInv cfg s) : s.Ordered := by
  have hsorted := (List.pairwise_append.mp h.sorted).1
  rw [h.accepted] at hsorted
  exact (List.pairwise_append.mp hsorted).1.filter _

/-- **When the output is in order**: in a run whose dispatches keep the order,
in every state reached. -/
theorem ordered_run (h : Reach (step cfg) (KeepsOrder cfg) (Started cfg) s) : s.Ordered := by
  by_cases hsub : cfg.subBatchSizes.length = 0
  · exact (LineInv.of_reach hsub h).ordered
  · exact (OrderInv.of_reach hsub h).order

/-- Two batches with a frame of pad 0 each: the second one has a request for
every sub-batch of the first one. -/
theorem ordered_run_twoBatches :
    ((exec (step (dynamicConfig [1, 1])) (KeepsOrder (dynamicConfig [1, 1]))
      (start (dynamicConfig [1, 1]) (by decide)) (submitFrame (.of 0 0 0) ++ submitFrame (.of 0 0 0) ++ List.replicate 6 (.processSubBatch 0 []))).get
        (by decide +kernel)).Ordered :=
  ordered_run (Reach.get_exec (started_start _ _) _)

/-- The first batch has frames of pads 0 and 1, the second one of pad 0 only, and
the thread of the first sub-batch runs ahead. -/
def runsAhead : List Action :=
  [.submitInput [some (.of 0 0 0), some (.of 1 0 0)] .ok, .submitNext] ++ submitFrame (.of 0 0 0) ++
    List.replicate 6 (.processSubBatch 0 []) ++ List.replicate 3 (.processSubBatch 1 [])

/-- The second batch is completed before the first. -/
theorem ordered_run_fails : ∃ s, Reach (step (dynamicConfig [1, 1])) anyStep (Started (dynamicConfig [1, 1])) s ∧
    ¬ s.Ordered := by
  refine ⟨_, Reach.get_exec (started_start _ (by decide))
    (show (exec (step (dynamicConfig [1, 1])) anyStep _ runsAhead).isSome by decide +kernel), ?_⟩
  unfold Ordered
  decide +kernel

/-! ### One sub-batch -/

end Sys
end Tracker
end DeepStream
