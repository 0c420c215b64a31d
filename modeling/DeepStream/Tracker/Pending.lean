/-
# Pending batches

Where the batches are in every reachable state. A batch with sub-batches is
pending as long as a thread has a request of it, and nothing else completes it;
without sub-batches the batches pass from `submitInput` over `processBatch` to
`m_CompletionQueue` in one line, in the order of the calls.
-/
import DeepStream.Tracker.Frames

namespace DeepStream
namespace Tracker
namespace Sys

open Std

variable {cfg : TrackerConfig} {s s' : Sys} {a : Action}

/-- The buffer has to be deleted and there is none. -/
def DeletesNull (cfg : TrackerConfig) : Prop := cfg.inputTensorMeta = true ∧ cfg.numTransforms = 0

/-- A frame of the batch passes the filter. -/
def Selected (cfg : TrackerConfig) (x : InputParams) : Prop := x.frames.filterMap cfg.selects ≠ []

theorem BufOk.not_deletesNull {p : ProcParams} (h : BufOk cfg p)
    (hbuf : ¬(cfg.inputTensorMeta = true ∧ p.pConvBuf = none)) : ¬ DeletesNull cfg :=
  fun hd => hbuf ⟨hd.1, (h hd.1).mpr hd.2⟩

theorem BufOk.returns {p : ProcParams} (h : BufOk cfg p) (hd : ¬ DeletesNull cfg) :
    ¬(cfg.inputTensorMeta = true ∧ p.pConvBuf = none) :=
  fun hbuf => hd ⟨hbuf.1, (h hbuf.1).mp hbuf.2⟩

/-! ### With sub-batches -/

/-- The sub-batches that a batch id is pending for. -/
def waits (s : Sys) (b : BatchId) : List SubBatchId := (s.pendingBatch[b]?).elim [] PendingBatch.waiting

/-- Each pending entry belongs to one batch that is not completed, and waits for
a sub-batch as often as this has a request of that batch. -/
structure SubInv (cfg : TrackerConfig) (s : Sys) : Prop where
  owner : ∀ {sb p}, p ∈ s.jobs sb → ∃ pb, s.pendingBatch[p.batchId]? = some pb ∧ pb.owner = p.call
  count : ∀ b sb, (s.waits b).count sb = (s.jobs sb).countP fun p => p.batchId = b
  ownerLt : ∀ {b : BatchId} {pb}, s.pendingBatch[b]? = some pb → pb.owner < s.calls
  ownerInj : ∀ {b b' : BatchId} {pb pb'}, s.pendingBatch[b]? = some pb → s.pendingBatch[b']? = some pb' →
    pb.owner = pb'.owner → b = b'
  notDone : ∀ {b : BatchId} {pb}, s.pendingBatch[b]? = some pb → pb.owner ∉ s.completed
  nodup : s.completed.Nodup
  lt : ∀ n ∈ s.completed, n < s.calls
  accepted : ∀ x ∈ s.accepted, (x.pPreservedData ∈ s.completed ∧ Selected cfg x) ∨
    ∃ (b : BatchId) (pb : PendingBatch), s.pendingBatch[b]? = some pb ∧ pb.owner = x.pPreservedData ∧
      (pb.waiting ≠ [] ↔ Selected cfg x)
  acceptedLt : ∀ x ∈ s.accepted, x.pPreservedData < s.calls
  sorted : (s.accepted.map InputParams.pPreservedData).Pairwise (· < ·)
  returned : s.returned = s.completed
  crash : DeletesNull cfg → s.returned = []
  buf : ∀ {sb p}, p ∈ s.jobs sb → BufOk cfg p
  jobsLt : ∀ {sb}, cfg.subBatchSizes.length ≤ sb → s.jobs sb = []
  held : s.held = []
  unpushed : s.unpushed = []

namespace SubInv

theorem same (h : SubInv cfg s) (hb : SameBatches s s') (hc : s'.completed = s.completed) :
    SubInv cfg s' where
  owner := by
    intro sb p hp
    rw [hb.pending]
    exact h.owner (hb.jobs sb ▸ hp)
  count := fun b sb => by
    rw [waits, hb.pending, hb.jobs]
    exact h.count b sb
  ownerLt := by
    intro b pb hpb
    exact (h.ownerLt (hb.pending ▸ hpb)).trans_le hb.calls
  ownerInj := by
    intro b b' pb pb' hpb hpb'
    exact h.ownerInj (hb.pending ▸ hpb) (hb.pending ▸ hpb')
  notDone := by
    intro b pb hpb
    rw [hc]
    exact h.notDone (hb.pending ▸ hpb)
  nodup := hc ▸ h.nodup
  lt := fun n hn => (h.lt n (hc ▸ hn)).trans_le hb.calls
  accepted := by
    rw [hb.accepted, hb.pending, hc]
    exact h.accepted
  acceptedLt := fun x hx => (h.acceptedLt x (hb.accepted ▸ hx)).trans_le hb.calls
  sorted := hb.accepted.symm ▸ h.sorted
  returned := by rw [hb.returned, hc, h.returned]
  crash := fun hd => hb.returned ▸ h.crash hd
  buf := by
    intro sb p hp
    exact h.buf (hb.jobs sb ▸ hp)
  jobsLt := by
    intro sb hsb
    rw [hb.jobs]
    exact h.jobsLt hsb
  held := hb.held.trans h.held
  unpushed := hb.unpushed.trans h.unpushed

/-- A thread never finds its request missing from the pending batches. -/
theorem mem_waiting (h : SubInv cfg s) {sb : SubBatchId} {p : ProcParams} (hp : p ∈ s.jobs sb) :
    ∃ pb, s.pendingBatch[p.batchId]? = some pb ∧ sb ∈ pb.waiting := by
  obtain ⟨pb, hpb, -⟩ := h.owner hp
  refine ⟨pb, hpb, List.count_pos_iff.mp ?_⟩
  have hcount := h.count p.batchId sb
  rw [waits, hpb] at hcount
  rw [show pb.waiting.count sb = _ from hcount]
  exact List.countP_pos_iff.mpr ⟨p, hp, by simp⟩

theorem owner_eq (h : SubInv cfg s) {sb : SubBatchId} {p : ProcParams} (hp : p ∈ s.jobs sb)
    {pb : PendingBatch} (hpb : s.pendingBatch[p.batchId]? = some pb) : pb.owner = p.call := by
  obtain ⟨pb', hpb', ho⟩ := h.owner hp
  rw [hpb] at hpb'
  cases hpb'
  exact ho

/-- The counts after a request is done. -/
theorem count_done (h : SubInv cfg s) {sbId : SubBatchId} {p : ProcParams} {rest : List ProcParams}
    {pb : PendingBatch} (hjobs : s.jobs sbId = p :: rest) (hpb : s.pendingBatch[p.batchId]? = some pb)
    (hwaits : s'.waits p.batchId = pb.waiting.erase sbId) (hother : ∀ b ≠ p.batchId, s'.waits b = s.waits b)
    (hj : ∀ sb, s'.jobs sb = if sb = sbId then rest else s.jobs sb) (b : BatchId) (sb : SubBatchId) :
    (s'.waits b).count sb = (s'.jobs sb).countP fun p => p.batchId = b := by
  have hcount := h.count b sb
  rw [hj]
  by_cases hb : b = p.batchId
  · subst hb
    rw [waits, hpb] at hcount
    change pb.waiting.count sb = _ at hcount
    rw [hwaits]
    split
    · rename_i hsb
      subst hsb
      rw [hjobs, List.countP_cons_of_pos (by simp)] at hcount
      rw [List.count_erase_self, hcount, Nat.add_sub_cancel]
    · rename_i hsb
      rw [List.count_erase_of_ne hsb, hcount]
  · rw [hother b hb, hcount]
    split
    · rename_i hsb
      rw [hsb, hjobs, List.countP_cons_of_neg (by simpa using Ne.symm hb)]
    · rfl

/-- A batch that was dispatched is pending for the sub-batches that got a
request of it, and has none when no frame of it was selected. -/
theorem dispatch (h : SubInv cfg s) (hsub : cfg.subBatchSizes.length ≠ 0) (hm : StreamMaps.Reachable cfg s.maps)
    {p : ProcParams} {d : StreamMaps.Dispatch} (hcall : p.call = s.calls) (hbuf : BufOk cfg p)
    (hd : s.maps.dispatch cfg (queueFrames cfg p.input.frames) = d) (hfree : s.batchId ∉ s.pendingBatch)
    (pending : s'.pendingBatch = s.pendingBatch.insert s.batchId ⟨d.requests.map Prod.fst, p.call⟩)
    (jobs : ∀ sbId, s'.jobs sbId = s.jobs sbId ++
      List.replicate ((d.requests.map Prod.fst).count sbId) { p with batchId := s.batchId })
    (held : s'.held = s.held) (unpushed : s'.unpushed = s.unpushed)
    (accepted : s'.accepted = s.accepted ++ if d.ok then [p.input] else [])
    (returned : s'.returned = s.returned) (calls : s'.calls = s.calls + 1)
    (hcompleted : s'.completed = s.completed) : SubInv cfg s' := by
  have hnone : s.pendingBatch[s.batchId]? = none := TreeMap.getElem?_eq_none hfree
  have hne : ∀ {b : BatchId} {pb}, s.pendingBatch[b]? = some pb → b ≠ s.batchId := by
    rintro b pb hb rfl
    rw [hnone] at hb
    cases hb
  have hlookup : ∀ {b : BatchId} {pb}, s'.pendingBatch[b]? = some pb →
      b = s.batchId ∧ pb = ⟨d.requests.map Prod.fst, p.call⟩ ∨ s.pendingBatch[b]? = some pb := by
    intro b pb hb
    rw [pending, Table.getElem?_insert] at hb
    split at hb
    · cases hb
      exact .inl ⟨‹_›, rfl⟩
    · exact .inr hb
  have hkeep : ∀ {b : BatchId} {pb}, s.pendingBatch[b]? = some pb → s'.pendingBatch[b]? = some pb := by
    intro b pb hb
    rw [pending, Table.getElem?_insert, if_neg (hne hb), hb]
  have hnew : s'.pendingBatch[s.batchId]? = some ⟨d.requests.map Prod.fst, p.call⟩ := by
    rw [pending, Table.getElem?_insert, if_pos rfl]
  obtain ⟨-, -, hrequests, hrequest⟩ := StreamMaps.dispatch_spec hsub (queueFrames cfg p.input.frames) s.maps
    (fun l hl => (mem_queueFrames hl).2.2.1) hm
  rw [hd] at hrequests hrequest
  have hselected : d.ok = true → (d.requests.map Prod.fst ≠ [] ↔ Selected cfg p.input) := by
    intro hok
    rw [Ne, List.map_eq_nil_iff, Selected, Ne, ← queueFrames_eq_nil_iff]
    constructor
    · rintro hr hq
      rw [hq] at hd
      exact hr (hd ▸ rfl)
    · intro hq
      obtain ⟨l, hl⟩ := List.exists_mem_of_ne_nil _ hq
      exact hrequest hok ⟨l, hl, (mem_queueFrames hl).1⟩
  constructor
  · intro sb q hq
    rw [jobs, List.mem_append, List.mem_replicate] at hq
    rcases hq with hq | ⟨-, rfl⟩
    · obtain ⟨pb, hpb, ho⟩ := h.owner hq
      exact ⟨pb, hkeep hpb, ho⟩
    · exact ⟨_, hnew, rfl⟩
  · intro b sb
    rw [waits, jobs, List.countP_append, List.countP_replicate]
    by_cases hb : b = s.batchId
    · have hzero : (s.jobs sb).countP (fun q => q.batchId = b) = 0 := by
        rw [← h.count b sb, waits, hb, hnone]
        rfl
      rw [hzero, hb, hnew]
      simp
    · rw [if_neg (by simpa using Ne.symm hb), Nat.add_zero, ← h.count b sb, waits, pending,
        Table.getElem?_insert, if_neg hb]
  · intro b pb hb
    rw [calls]
    rcases hlookup hb with ⟨-, rfl⟩ | hb
    · exact hcall ▸ Nat.lt_succ_self _
    · exact (h.ownerLt hb).trans (Nat.lt_succ_self _)
  · intro b b' pb pb' hb hb' ho
    rcases hlookup hb with ⟨rfl, rfl⟩ | hb <;> rcases hlookup hb' with ⟨rfl, rfl⟩ | hb'
    · rfl
    · exact absurd (hcall ▸ ho) (h.ownerLt hb').ne'
    · exact absurd (hcall ▸ ho) (h.ownerLt hb).ne
    · exact h.ownerInj hb hb' ho
  · intro b pb hb
    rw [hcompleted]
    rcases hlookup hb with ⟨-, rfl⟩ | hb
    · exact fun hc => absurd (h.lt _ hc) (hcall ▸ lt_irrefl _)
    · exact h.notDone hb
  · exact hcompleted ▸ h.nodup
  · exact fun n hn => calls ▸ (h.lt n (hcompleted ▸ hn)).trans (Nat.lt_succ_self _)
  · intro x hx
    rw [accepted, List.mem_append] at hx
    rcases hx with hx | hx
    · rcases h.accepted x hx with hdone | ⟨b, pb, hb, ho, hw⟩
      · exact .inl (hcompleted ▸ hdone)
      · exact .inr ⟨b, pb, hkeep hb, ho, hw⟩
    · split at hx
      · rename_i hok
        cases List.mem_singleton.mp hx
        exact .inr ⟨_, _, hnew, rfl, hselected hok⟩
      · cases hx
  · intro x hx
    rw [accepted, List.mem_append] at hx
    rw [calls]
    rcases hx with hx | hx
    · exact (h.acceptedLt x hx).trans (Nat.lt_succ_self _)
    · split at hx
      · cases List.mem_singleton.mp hx
        exact hcall ▸ Nat.lt_succ_self _
      · cases hx
  · rw [accepted]
    split
    · rw [List.map_append, List.pairwise_append]
      refine ⟨h.sorted, List.pairwise_singleton .., fun n hn m hm => ?_⟩
      obtain ⟨x, hx, rfl⟩ := List.mem_map.mp hn
      cases List.mem_singleton.mp hm
      exact (h.acceptedLt x hx).trans_eq hcall.symm
    · rw [List.append_nil]
      exact h.sorted
  · rw [returned, hcompleted, h.returned]
  · exact fun hdel => returned ▸ h.crash hdel
  · intro sb q hq
    rw [jobs, List.mem_append, List.mem_replicate] at hq
    rcases hq with hq | ⟨-, rfl⟩
    · exact h.buf hq
    · exact hbuf
  · intro sb hsb
    rw [jobs, h.jobsLt hsb, List.nil_append, List.replicate_eq_nil_iff, List.count_eq_zero]
    intro hmem
    obtain ⟨r, hr, rfl⟩ := List.mem_map.mp hmem
    exact absurd (hrequests r hr).lt (Nat.not_lt.mpr hsb)
  · exact held.trans h.held
  · exact unpushed.trans h.unpushed

/-- Requests that are left are some of those there were. -/
theorem mem_of_mem_rest {sbId sb : SubBatchId} {p q : ProcParams} {rest : List ProcParams}
    (hjobs : s.jobs sbId = p :: rest) (hj : ∀ sb, s'.jobs sb = if sb = sbId then rest else s.jobs sb)
    (hq : q ∈ s'.jobs sb) : q ∈ s.jobs sb := by
  rw [hj] at hq
  split at hq
  · rename_i hsb
    rw [hsb, hjobs]
    exact List.mem_cons_of_mem _ hq
  · exact hq

/-- A request of a batch for which others are left. -/
theorem partDone (h : SubInv cfg s) {sbId : SubBatchId} {p : ProcParams} {rest : List ProcParams}
    {pb : PendingBatch} (hjobs : s.jobs sbId = p :: rest) (hpb : s.pendingBatch[p.batchId]? = some pb)
    (hleft : pb.waiting.erase sbId ≠ [])
    (pending : s'.pendingBatch =
      s.pendingBatch.insert p.batchId { pb with waiting := pb.waiting.erase sbId })
    (jobs : ∀ sb, s'.jobs sb = if sb = sbId then rest else s.jobs sb) (held : s'.held = s.held)
    (unpushed : s'.unpushed = s.unpushed) (accepted : s'.accepted = s.accepted) (returned : s'.returned = s.returned) (calls : s'.calls = s.calls)
    (hcompleted : s'.completed = s.completed) : SubInv cfg s' := by
  have hat : s'.pendingBatch[p.batchId]? = some { pb with waiting := pb.waiting.erase sbId } := by
    rw [pending, Table.getElem?_insert, if_pos rfl]
  have hother : ∀ b ≠ p.batchId, s'.pendingBatch[b]? = s.pendingBatch[b]? := by
    intro b hb
    rw [pending, Table.getElem?_insert, if_neg hb]
  have howner : ∀ {b : BatchId} {pb'}, s'.pendingBatch[b]? = some pb' →
      ∃ old, s.pendingBatch[b]? = some old ∧ old.owner = pb'.owner := by
    intro b pb' hb
    by_cases he : b = p.batchId
    · subst he
      rw [hat] at hb
      cases hb
      exact ⟨pb, hpb, rfl⟩
    · exact ⟨pb', hother b he ▸ hb, rfl⟩
  have hnew : ∀ {b : BatchId} {old}, s.pendingBatch[b]? = some old →
      ∃ pb', s'.pendingBatch[b]? = some pb' ∧ pb'.owner = old.owner ∧ (pb'.waiting ≠ [] ↔ old.waiting ≠ []) := by
    intro b old hb
    by_cases he : b = p.batchId
    · subst he
      rw [hpb] at hb
      cases hb
      exact ⟨_, hat, rfl, iff_of_true hleft fun hnil => hleft (by rw [hnil]; rfl)⟩
    · exact ⟨old, (hother b he).trans hb, rfl, Iff.rfl⟩
  have hwaits : s'.waits p.batchId = pb.waiting.erase sbId := by rw [waits, hat]; rfl
  have hwaitsOther : ∀ b ≠ p.batchId, s'.waits b = s.waits b := by
    intro b hb
    rw [waits, hother b hb, waits]
  constructor
  · intro sb q hq
    obtain ⟨old, hold, ho⟩ := h.owner (mem_of_mem_rest hjobs jobs hq)
    obtain ⟨pb', hpb', ho', -⟩ := hnew hold
    exact ⟨pb', hpb', ho'.trans ho⟩
  · exact h.count_done hjobs hpb hwaits hwaitsOther jobs
  · intro b pb' hb
    obtain ⟨old, hold, ho⟩ := howner hb
    rw [calls, ← ho]
    exact h.ownerLt hold
  · intro b b' pb₁ pb₂ hb hb' ho
    obtain ⟨old, hold, ho₁⟩ := howner hb
    obtain ⟨old', hold', ho₂⟩ := howner hb'
    exact h.ownerInj hold hold' (ho₁.trans (ho.trans ho₂.symm))
  · intro b pb' hb
    obtain ⟨old, hold, ho⟩ := howner hb
    rw [hcompleted, ← ho]
    exact h.notDone hold
  · exact hcompleted ▸ h.nodup
  · exact fun n hn => calls ▸ h.lt n (hcompleted ▸ hn)
  · intro x hx
    rcases h.accepted x (accepted ▸ hx) with hdone | ⟨b, old, hold, ho, hw⟩
    · exact .inl (hcompleted ▸ hdone)
    · obtain ⟨pb', hpb', ho', hw'⟩ := hnew hold
      exact .inr ⟨b, pb', hpb', ho'.trans ho, hw'.trans hw⟩
  · exact fun x hx => calls ▸ h.acceptedLt x (accepted ▸ hx)
  · exact accepted ▸ h.sorted
  · rw [returned, hcompleted, h.returned]
  · exact fun hdel => returned ▸ h.crash hdel
  · exact fun hq => h.buf (mem_of_mem_rest hjobs jobs hq)
  · intro sb hsb
    refine List.eq_nil_iff_forall_not_mem.mpr fun q hq => ?_
    exact List.not_mem_nil (h.jobsLt hsb ▸ mem_of_mem_rest hjobs jobs hq)
  · exact held.trans h.held
  · exact unpushed.trans h.unpushed

/-- The last request of a batch. -/
theorem batchDone (h : SubInv cfg s) {sbId : SubBatchId} {p : ProcParams} {rest : List ProcParams}
    {pb : PendingBatch} (hjobs : s.jobs sbId = p :: rest) (hpb : s.pendingBatch[p.batchId]? = some pb)
    (hmem : sbId ∈ pb.waiting) (hleft : pb.waiting.erase sbId = [])
    (hbuf : ¬(cfg.inputTensorMeta = true ∧ p.pConvBuf = none))
    (pending : s'.pendingBatch = s.pendingBatch.erase p.batchId)
    (jobs : ∀ sb, s'.jobs sb = if sb = sbId then rest else s.jobs sb) (held : s'.held = s.held)
    (unpushed : s'.unpushed = s.unpushed) (accepted : s'.accepted = s.accepted) (returned : s'.returned = s.returned ++ [p.call])
    (calls : s'.calls = s.calls) (hcompleted : s'.completed = s.completed ++ [p.call]) : SubInv cfg s' := by
  have hjob : p ∈ s.jobs sbId := hjobs ▸ List.mem_cons_self ..
  have hown := h.owner_eq hjob hpb
  have hother : ∀ b ≠ p.batchId, s'.pendingBatch[b]? = s.pendingBatch[b]? := by
    intro b hb
    rw [pending, Table.getElem?_erase, if_neg hb]
  have hold : ∀ {b : BatchId} {pb'}, s'.pendingBatch[b]? = some pb' →
      b ≠ p.batchId ∧ s.pendingBatch[b]? = some pb' := by
    intro b pb' hb
    rw [pending, Table.getElem?_erase] at hb
    split at hb
    · cases hb
    · exact ⟨‹_›, hb⟩
  have hwaits : s'.waits p.batchId = pb.waiting.erase sbId := by
    rw [waits, pending, Table.getElem?_erase, if_pos rfl, hleft]
    rfl
  have hwaitsOther : ∀ b ≠ p.batchId, s'.waits b = s.waits b := by
    intro b hb
    rw [waits, hother b hb, waits]
  have hcount := h.count_done hjobs hpb hwaits hwaitsOther jobs
  constructor
  · intro sb q hq
    have hne : q.batchId ≠ p.batchId := by
      intro he
      have hzero := hcount p.batchId sb
      rw [hwaits, hleft, List.count_nil, eq_comm, List.countP_eq_zero] at hzero
      exact hzero q hq (by simpa using he)
    obtain ⟨pb', hpb', ho⟩ := h.owner (mem_of_mem_rest hjobs jobs hq)
    exact ⟨pb', (hother _ hne).trans hpb', ho⟩
  · exact hcount
  · intro b pb' hb
    rw [calls]
    exact h.ownerLt (hold hb).2
  · intro b b' pb₁ pb₂ hb hb' ho
    exact h.ownerInj (hold hb).2 (hold hb').2 ho
  · intro b pb' hb
    rw [hcompleted, List.mem_append, List.mem_singleton]
    rintro (hc | hc)
    · exact h.notDone (hold hb).2 hc
    · exact (hold hb).1 (h.ownerInj (hold hb).2 hpb (hc.trans hown.symm))
  · rw [hcompleted]
    refine List.nodup_append.mpr ⟨h.nodup, List.nodup_singleton _, fun n hn m hm => ?_⟩
    rw [List.mem_singleton.mp hm, ← hown]
    exact fun he => h.notDone hpb (he ▸ hn)
  · intro n hn
    rw [hcompleted, List.mem_append, List.mem_singleton] at hn
    rw [calls]
    rcases hn with hn | rfl
    · exact h.lt n hn
    · exact hown ▸ h.ownerLt hpb
  · intro x hx
    rw [hcompleted, List.mem_append, List.mem_singleton]
    rcases h.accepted x (accepted ▸ hx) with ⟨hdone, hsel⟩ | ⟨b, pb', hb, ho, hw⟩
    · exact .inl ⟨.inl hdone, hsel⟩
    · by_cases he : b = p.batchId
      · subst he
        rw [hpb] at hb
        cases hb
        exact .inl ⟨.inr (ho.symm.trans hown), hw.mp (List.ne_nil_of_mem hmem)⟩
      · exact .inr ⟨b, pb', (hother b he).trans hb, ho, hw⟩
  · exact fun x hx => calls ▸ h.acceptedLt x (accepted ▸ hx)
  · exact accepted ▸ h.sorted
  · rw [returned, hcompleted, h.returned]
  · exact fun hdel => absurd hdel (h.buf hjob |>.not_deletesNull hbuf)
  · exact fun hq => h.buf (mem_of_mem_rest hjobs jobs hq)
  · intro sb hsb
    refine List.eq_nil_iff_forall_not_mem.mpr fun q hq => ?_
    exact List.not_mem_nil (h.jobsLt hsb ▸ mem_of_mem_rest hjobs jobs hq)
  · exact held.trans h.held
  · exact unpushed.trans h.unpushed

theorem step (h : SubInv cfg s) (hsub : cfg.subBatchSizes.length ≠ 0) (hm : StreamMaps.Reachable cfg s.maps)
    (hsubmit : Submitting cfg s) (hs : s.step cfg a = some s') : SubInv cfg s' := by
  cases subStep hsub hsubmit hs with
  | quiet hb hf => exact h.same hb (completed_of_history hf.history)
  | flush hb hf => exact h.same hb hf.completed_eq
  | dispatch ha p d hp hd hfree pending jobs held unpushed accepted returned calls hf =>
    obtain ⟨hcall, hbuf⟩ := hsubmit.converted p hp
    exact h.dispatch hsub hm hcall hbuf hd hfree pending jobs held unpushed accepted returned calls
      (completed_of_history hf.history)
  | partDone sbId p rest pb hjobs hpb hmem hleft pending jobs held unpushed accepted returned calls hf =>
    exact h.partDone hjobs hpb hleft pending jobs held unpushed accepted returned calls (completed_of_history hf.history)
  | batchDone sbId p rest pb hjobs hpb hmem hleft hbuf pending jobs held unpushed accepted returned calls history =>
    exact h.batchDone hjobs hpb hmem hleft hbuf pending jobs held unpushed accepted returned calls (completed_append history)
  | stray sbId p rest hjobs hstray =>
    obtain ⟨pb, hpb, hmem⟩ := h.mem_waiting (hjobs ▸ List.mem_cons_self ..)
    exact absurd hmem (hstray pb hpb)

theorem started (h : Started cfg s) : SubInv cfg s := by
  obtain ⟨m, -, rfl⟩ := Option.map_eq_some_iff.mp h
  constructor <;> simp [jobs, currentJob, waits, completed, history, Sys.held, Sys.unpushed]

theorem of_reach (hsub : cfg.subBatchSizes.length ≠ 0) {ok : Sys → Action → Prop}
    (h : Reach (Sys.step cfg) ok (Started cfg) s) : SubInv cfg s := by
  induction h with
  | init h => exact started h
  | step hr _ hs ih => exact ih.step hsub (maps_reach hr) (Submitting.of_reach hr) hs

end SubInv
/-! ### Without sub-batches -/

/-- The batches are completed in the order of the calls, and the pending entries
are those of the batches not yet erased. -/
structure LineInv (cfg : TrackerConfig) (s : Sys) : Prop where
  accepted : s.accepted.map InputParams.pPreservedData =
    s.completed ++ (s.unpushed ++ s.held).map ProcParams.call
  sorted : (s.accepted.map InputParams.pPreservedData ++ s.registering.map ProcParams.call).Pairwise (· < ·)
  lt : ∀ n ∈ s.accepted.map InputParams.pPreservedData ++ s.registering.map ProcParams.call, n < s.calls
  pending : ∀ (b : BatchId) (pb : PendingBatch), s.pendingBatch[b]? = some pb ↔
    ∃ p ∈ s.held ++ s.registering, p.batchId = b ∧ pb = ⟨[], p.call⟩
  ids : ((s.held ++ s.registering).map ProcParams.batchId).Nodup
  returned : s.completed = s.returned ++ s.unreturned.map ProcParams.call
  crash : DeletesNull cfg → s.returned = []
  buf : ∀ p ∈ s.unreturned ++ s.unpushed ++ s.held ++ s.registering, BufOk cfg p
  jobs : ∀ sb, s.jobs sb = []

namespace LineInv

theorem same (h : LineInv cfg s) (hb : SameBatches s s') (hc : s'.completed = s.completed) :
    LineInv cfg s' where
  accepted := by rw [hb.accepted, hc, hb.unpushed, hb.held, h.accepted]
  sorted := by
    rw [hb.accepted, hb.registering]
    exact h.sorted
  lt := by
    rw [hb.accepted, hb.registering]
    exact fun n hn => (h.lt n hn).trans_le hb.calls
  pending := by
    rw [hb.pending, hb.held, hb.registering]
    exact h.pending
  ids := by
    rw [hb.held, hb.registering]
    exact h.ids
  returned := by rw [hc, hb.returned, hb.unreturned, h.returned]
  crash := fun hd => hb.returned ▸ h.crash hd
  buf := by
    rw [hb.unreturned, hb.unpushed, hb.held, hb.registering]
    exact h.buf
  jobs := fun sb => (hb.jobs sb).trans (h.jobs sb)

theorem register (h : LineInv cfg s) {p : ProcParams} (hsubmit : s.submit = .converted p)
    (hcall : p.call = s.calls) (hbuf : BufOk cfg p) (hfree : s.batchId ∉ s.pendingBatch)
    (eq : s' = { s with
      submit := .registered { p with batchId := s.batchId }
      pendingBatch := s.pendingBatch.insert s.batchId ⟨[], p.call⟩
      batchId := wrapAdd 32 s.batchId 1
      calls := s.calls + 1 }) : LineInv cfg s' := by
  have hreg : s.registering = [] := by simp [registering, hsubmit]
  have hreg' : s'.registering = [{ p with batchId := s.batchId }] := by rw [eq]; rfl
  have hheld : s'.held = s.held := by rw [eq]; rfl
  have hsorted := h.sorted
  have hlt := h.lt
  have hids := h.ids
  have hpending := h.pending
  have hb := h.buf
  rw [hreg] at hsorted hlt hids hpending hb
  simp only [List.map_nil, List.append_nil] at hsorted hlt hids hpending hb
  have hnew : ∀ q ∈ s.held, q.batchId ≠ s.batchId := by
    intro q hq he
    refine hfree (TreeMap.mem_iff_isSome_getElem?.mpr ?_)
    rw [(hpending s.batchId _).mpr ⟨q, hq, he, rfl⟩]
    rfl
  constructor
  · rw [hheld, eq]
    exact h.accepted
  · rw [hreg', eq]
    refine List.pairwise_append.mpr ⟨hsorted, List.pairwise_singleton .., fun n hn m hm => ?_⟩
    cases List.mem_singleton.mp hm
    exact (hlt n hn).trans_eq hcall.symm
  · rw [hreg', eq]
    intro n hn
    rcases List.mem_append.mp hn with hn | hn
    · exact (hlt n hn).trans (Nat.lt_succ_self _)
    · cases List.mem_singleton.mp hn
      exact hcall ▸ Nat.lt_succ_self _
  · intro b pb
    rw [hreg', hheld, eq, Table.getElem?_insert]
    constructor
    · intro hpb
      split at hpb
      · cases hpb
        exact ⟨_, List.mem_append_right _ (List.mem_singleton_self _), by rw [‹b = _›], rfl⟩
      · obtain ⟨q, hq, hqb⟩ := (hpending b pb).mp hpb
        exact ⟨q, List.mem_append_left _ hq, hqb⟩
    · rintro ⟨q, hq, rfl, rfl⟩
      rcases List.mem_append.mp hq with hq | hq
      · rw [if_neg (hnew q hq)]
        exact (hpending _ _).mpr ⟨q, hq, rfl, rfl⟩
      · cases List.mem_singleton.mp hq
        exact if_pos rfl
  · rw [hreg', hheld, List.map_append, List.nodup_append]
    refine ⟨hids, List.nodup_singleton _, fun b hb b' hb' => ?_⟩
    obtain ⟨q, hq, rfl⟩ := List.mem_map.mp hb
    cases List.mem_singleton.mp hb'
    exact hnew q hq
  · rw [eq]
    exact h.returned
  · rw [eq]
    exact h.crash
  · rw [hreg']
    intro q hq
    rcases List.mem_append.mp hq with hq | hq
    · exact hb q (by rw [eq] at hq; exact hq)
    · cases List.mem_singleton.mp hq
      exact hbuf
  · rw [eq]
    exact h.jobs

theorem enqueue (h : LineInv cfg s) {p : ProcParams} (hsubmit : s.submit = .registered p)
    (eq : s' = { s with
      submit := .idle
      procQueue := s.procQueue ++ [p]
      accepted := s.accepted ++ [p.input] }) : LineInv cfg s' := by
  have hreg : s.registering = [p] := by simp [registering, hsubmit]
  have hreg' : s'.registering = [] := by rw [eq]; rfl
  have hheld : s'.held = s.held ++ [p] := by rw [eq]; exact (List.append_assoc ..).symm
  have hmap : s'.accepted.map InputParams.pPreservedData =
      s.accepted.map InputParams.pPreservedData ++ [p.call] := by
    rw [eq]
    exact List.map_append
  have hall : s'.held ++ s'.registering = s.held ++ s.registering := by
    rw [hheld, hreg', hreg, List.append_nil]
  constructor
  · rw [hmap, hheld, h.accepted, eq]
    simp [completed, history, unpushed]
  · rw [hmap, hreg', List.map_nil, List.append_nil]
    have := h.sorted
    rwa [hreg] at this
  · rw [hmap, hreg', List.map_nil, List.append_nil]
    have := h.lt
    rw [hreg] at this
    rw [eq]
    exact this
  · rw [hall, eq]
    exact h.pending
  · rw [hall]
    exact h.ids
  · rw [eq]
    exact h.returned
  · rw [eq]
    exact h.crash
  · rw [List.append_assoc, hall, eq, ← List.append_assoc]
    exact h.buf
  · rw [eq]
    exact h.jobs

theorem erase (h : LineInv cfg s) {p : ProcParams} (hbatch : s.batch = .processed p)
    (eq : s' = { s with batch := .erased p, pendingBatch := s.pendingBatch.erase p.batchId }) :
    LineInv cfg s' := by
  have hheld : s.held = p :: s'.held := by rw [eq]; simp [held, hbatch]
  have hunpushed : s.unpushed = [] := by simp [unpushed, hbatch]
  have hunpushed' : s'.unpushed = [p] := by rw [eq]; rfl
  have hunreturned : s'.unreturned = s.unreturned := by rw [eq]; simp [unreturned, hbatch]
  have hids := h.ids
  rw [hheld] at hids
  have hregistering : s'.registering = s.registering := by rw [eq]; rfl
  constructor
  · have := h.accepted
    rw [hunpushed, hheld] at this
    rw [hunpushed', eq]
    rwa [eq] at this
  · rw [eq]
    exact h.sorted
  · rw [eq]
    exact h.lt
  · intro b pb
    have hpending := h.pending b pb
    rw [hheld, List.cons_append] at hpending
    rw [List.cons_append, List.map_cons, List.nodup_cons] at hids
    rw [show s'.pendingBatch = s.pendingBatch.erase p.batchId by rw [eq], Table.getElem?_erase, hregistering]
    by_cases hb : b = p.batchId
    · rw [if_pos hb]
      refine iff_of_false (by simp) ?_
      rintro ⟨q, hq, hqb, -⟩
      exact hids.1 (List.mem_map.mpr ⟨q, hq, hqb.trans hb⟩)
    · rw [if_neg hb, hpending]
      constructor
      · rintro ⟨q, hq, rfl, hpb⟩
        rcases List.mem_cons.mp hq with rfl | hq
        · exact absurd rfl hb
        · exact ⟨q, hq, rfl, hpb⟩
      · rintro ⟨q, hq, hqb⟩
        exact ⟨q, List.mem_cons_of_mem _ hq, hqb⟩
  · rw [List.cons_append, List.map_cons, List.nodup_cons] at hids
    rw [hregistering]
    exact hids.2
  · rw [hunreturned, eq]
    exact h.returned
  · rw [eq]
    exact h.crash
  · have := h.buf
    rw [hunpushed, hheld] at this
    rw [hunreturned, hunpushed', hregistering]
    intro q hq
    refine this q ?_
    simp only [List.mem_append, List.mem_cons, List.not_mem_nil, or_false] at hq ⊢
    tauto
  · rw [eq]
    exact h.jobs

theorem push (h : LineInv cfg s) {p : ProcParams} (hbatch : s.batch = .erased p)
    (eq : s' = { s with
      batch := .pushed p
      completionQueue := s.completionQueue ++ [.batch p.input] }) : LineInv cfg s' := by
  have hcompleted : s'.completed = s.completed ++ [p.call] :=
    completed_append (by rw [eq]; exact (List.append_assoc ..).symm)
  have hunpushed : s.unpushed = [p] := by simp [unpushed, hbatch]
  have hunpushed' : s'.unpushed = [] := by rw [eq]; rfl
  have hheld : s'.held = s.held := by rw [eq]; simp [held, hbatch]
  have hunreturned : s.unreturned = [] := by simp [unreturned, hbatch]
  have hunreturned' : s'.unreturned = [p] := by rw [eq]; rfl
  constructor
  · rw [hcompleted, hunpushed', hheld, eq, List.append_assoc]
    have := h.accepted
    rwa [hunpushed] at this
  · rw [eq]
    exact h.sorted
  · rw [eq]
    exact h.lt
  · rw [hheld, eq]
    exact h.pending
  · rw [hheld, eq]
    exact h.ids
  · have := h.returned
    rw [hunreturned, List.map_nil, List.append_nil] at this
    rw [hcompleted, hunreturned', this, eq]
    rfl
  · rw [eq]
    exact h.crash
  · have := h.buf
    rw [hunreturned, hunpushed] at this
    rw [hunreturned', hunpushed', hheld, eq]
    exact this
  · rw [eq]
    exact h.jobs

theorem finish (h : LineInv cfg s) {p : ProcParams} {free : List ℕ} (hbatch : s.batch = .pushed p)
    (hbuf : ¬(cfg.inputTensorMeta = true ∧ p.pConvBuf = none))
    (eq : s' = { s with batch := .idle, freeQueue := free, returned := s.returned ++ [p.call] }) :
    LineInv cfg s' := by
  have hheld : s'.held = s.held := by rw [eq]; simp [held, hbatch]
  have hunpushed : s'.unpushed = s.unpushed := by rw [eq]; simp [unpushed, hbatch]
  have hunreturned : s.unreturned = [p] := by simp [unreturned, hbatch]
  have hunreturned' : s'.unreturned = [] := by rw [eq]; rfl
  constructor
  · rw [hunpushed, hheld, eq]
    exact h.accepted
  · rw [eq]
    exact h.sorted
  · rw [eq]
    exact h.lt
  · rw [hheld, eq]
    exact h.pending
  · rw [hheld, eq]
    exact h.ids
  · have := h.returned
    rw [hunreturned] at this
    rw [hunreturned', List.map_nil, List.append_nil, eq]
    exact this
  · have hp : BufOk cfg p := h.buf p (by simp [hunreturned])
    exact fun hd => absurd hd (hp.not_deletesNull hbuf)
  · intro q hq
    rw [hunreturned', hunpushed, hheld, List.nil_append, List.append_assoc] at hq
    rw [eq] at hq
    refine h.buf q ?_
    rw [List.append_assoc, List.append_assoc]
    exact List.mem_append_right _ hq
  · rw [eq]
    exact h.jobs

/-- The batch that `processBatch` works on is pending. -/
theorem mem_pending (h : LineInv cfg s) {p : ProcParams} (hp : s.batch = .processed p) :
    p.batchId ∈ s.pendingBatch := by
  refine TreeMap.mem_iff_isSome_getElem?.mpr ?_
  rw [(h.pending p.batchId _).mpr ⟨p, by simp [held, hp], rfl, rfl⟩]
  rfl

theorem step (h : LineInv cfg s) (hsub : cfg.subBatchSizes.length = 0) (hsubmit : Submitting cfg s)
    (hs : s.step cfg a = some s') : LineInv cfg s' := by
  cases lineStep hsub hs with
  | quiet hb hf => exact h.same hb (completed_of_history hf.history)
  | flush hb hf => exact h.same hb hf.completed_eq
  | register p hp hfree eq =>
    obtain ⟨hcall, hbuf⟩ := hsubmit.converted p hp
    exact h.register hp hcall hbuf hfree eq
  | enqueue p hp eq => exact h.enqueue hp eq
  | erase p hp hmem eq => exact h.erase hp eq
  | stray p hp hmem => exact absurd (h.mem_pending hp) hmem
  | push p hp eq => exact h.push hp eq
  | finish p free hp hbuf eq => exact h.finish hp hbuf eq

theorem started (h : Started cfg s) : LineInv cfg s := by
  obtain ⟨m, -, rfl⟩ := Option.map_eq_some_iff.mp h
  constructor <;> simp [Sys.jobs, currentJob, held, unpushed, unreturned, registering, completed, history]

theorem of_reach (hsub : cfg.subBatchSizes.length = 0) {ok : Sys → Action → Prop}
    (h : Reach (Sys.step cfg) ok (Started cfg) s) : LineInv cfg s := by
  induction h with
  | init h => exact started h
  | step hr _ hs ih => exact ih.step hsub (Submitting.of_reach hr) hs

end LineInv
end Sys
end Tracker
end DeepStream
