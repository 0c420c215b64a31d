/-
# Synchronized batches take only buffers on time

With synchronization on, `form_batch` asks about the buffers of a pad one by one,
erases those that are late and counts those on time, up to the first that is early;
`copy_batch` then copies buffers by that count from the front of the queue. Between
the two, events go to the source pad and further buffers arrive (`Later`). What is
copied are the buffers that were answered on time, in order, and never more than
`update_with_source` allowed; what is erased was late, and from the first early
buffer on the queue is left alone (`TakenOnTime`).

A source may be offered more than once in a batch; the answers for a pad are then the
same each time.
-/
import DeepStream.Mux.Limits
import DeepStream.Mux.Order

namespace DeepStream
namespace Mux

/-! ### The buffers of one pad -/

/-- The buffers that `synchronize_buffers_in_pad` is told to be on time, of the first
in a queue of which `n` may be taken. -/
def onTimeOf (synchInfo : BufferWrapper → BufferTsStatus) : ℕ → List BufferWrapper → List BufferWrapper
  | _, [] => []
  | 0, _ :: _ => []
  | n + 1, b :: bs =>
    match synchInfo b with
    | .early => []
    | .late => onTimeOf synchInfo (n + 1) bs
    | .ontime => b :: onTimeOf synchInfo n bs

/-- A buffer that stays in the queue when it is asked about. -/
def kept (synchInfo : BufferWrapper → BufferTsStatus) (b : BufferWrapper) : Bool := synchInfo b ≠ .late

/-- Of the buffers `before`, those in `copied` were taken and those in `after` are left. -/
structure TakenOnTime (synchInfo : BufferWrapper → BufferTsStatus) (before copied after : List BufferWrapper) :
    Prop where
  onTime : ∀ b ∈ copied, synchInfo b = .ontime
  removed : ∃ late, before.Perm (copied ++ late ++ after) ∧ ∀ b ∈ late, synchInfo b = .late
  afterEarly : ∀ pre b post, before = pre ++ b :: post → synchInfo b = .early →
    ∃ pre', after = pre' ++ b :: post

/-- `now` are the buffers `before` without late ones, and none is missing from the first
early one on; `onTime` are on time and at the front. -/
def Sifted (synchInfo : BufferWrapper → BufferTsStatus) (before now onTime : List BufferWrapper) : Prop :=
  ∃ asked rest, before = asked ++ rest ∧ (∀ b ∈ asked, synchInfo b ≠ .early) ∧
    now = asked.filter (kept synchInfo) ++ rest ∧ onTime <+: asked.filter (kept synchInfo)

section Sifted

variable {synchInfo : BufferWrapper → BufferTsStatus}

theorem length_onTimeOf_le (n : ℕ) (bs : List BufferWrapper) : (onTimeOf synchInfo n bs).length ≤ n := by
  fun_induction onTimeOf synchInfo n bs with
  | case1 | case2 | case3 => exact Nat.zero_le _
  | case4 n b bs hb ih => exact ih
  | case5 n b bs hb ih => exact Nat.succ_le_succ ih

/-- **What `synchronize_buffers_in_pad` does.** It asks about buffers from the front on,
none of them early, erases the late ones, and returns the number of the others. -/
theorem BatchPolicy.synchronizeQueue_split (synchInfo : BufferWrapper → BufferTsStatus) (n : ℕ) (q : List QueueEntry) :
    ∃ asked rest, buffersOf q = asked ++ rest ∧ (∀ b ∈ asked, synchInfo b ≠ .early) ∧
      buffersOf (synchronizeQueue synchInfo n q).1 = asked.filter (kept synchInfo) ++ rest ∧
      asked.filter (kept synchInfo) = onTimeOf synchInfo n (buffersOf q) ∧
      (synchronizeQueue synchInfo n q).2.1 = (onTimeOf synchInfo n (buffersOf q)).length := by
  fun_induction synchronizeQueue synchInfo n q with
  | case1 n =>
    refine ⟨[], [], rfl, by simp, rfl, ?_, ?_⟩ <;> cases n <;> rfl
  | case2 entry q =>
    have hnone : onTimeOf synchInfo 0 (buffersOf (entry :: q)) = [] := by
      cases buffersOf (entry :: q) <;> rfl
    exact ⟨[], _, rfl, by simp, rfl, hnone.symm, by rw [hnone]; rfl⟩
  | case3 n e q r ih => exact ih
  | case4 n b q hb =>
    have hnone : onTimeOf synchInfo (n + 1) (b :: buffersOf q) = [] := by rw [onTimeOf, hb]
    exact ⟨[], _, rfl, by simp, rfl, hnone.symm, by rw [buffersOf_cons_buffer, hnone]; rfl⟩
  | case5 n b q hb r ih =>
    obtain ⟨asked, rest, hsplit, hearly, hleft, honTime, hcount⟩ := ih
    have hlate : onTimeOf synchInfo (n + 1) (b :: buffersOf q) = onTimeOf synchInfo (n + 1) (buffersOf q) := by
      rw [onTimeOf, hb]
    have hfilter : (b :: asked).filter (kept synchInfo) = asked.filter (kept synchInfo) := by
      rw [List.filter_cons_of_neg]
      simp [kept, hb]
    refine ⟨b :: asked, rest, ?_, ?_, ?_, ?_, ?_⟩
    · rw [buffersOf_cons_buffer, hsplit, List.cons_append]
    · intro a ha
      rcases List.mem_cons.mp ha with rfl | ha
      · rw [hb]
        decide
      · exact hearly a ha
    · rw [hfilter]
      exact hleft
    · rw [hfilter, buffersOf_cons_buffer, hlate]
      exact honTime
    · rw [buffersOf_cons_buffer, hlate]
      exact hcount
  | case6 n b q hb r ih =>
    obtain ⟨asked, rest, hsplit, hearly, hleft, honTime, hcount⟩ := ih
    have htaken : onTimeOf synchInfo (n + 1) (b :: buffersOf q) = b :: onTimeOf synchInfo n (buffersOf q) := by
      rw [onTimeOf, hb]
    have hfilter : (b :: asked).filter (kept synchInfo) = b :: asked.filter (kept synchInfo) := by
      rw [List.filter_cons_of_pos]
      simp [kept, hb]
    refine ⟨b :: asked, rest, ?_, ?_, ?_, ?_, ?_⟩
    · rw [buffersOf_cons_buffer, hsplit, List.cons_append]
    · intro a ha
      rcases List.mem_cons.mp ha with rfl | ha
      · rw [hb]
        decide
      · exact hearly a ha
    · rw [hfilter, buffersOf_cons_buffer, List.cons_append]
      exact congrArg (b :: ·) hleft
    · rw [hfilter, buffersOf_cons_buffer, htaken, honTime]
    · rw [buffersOf_cons_buffer, htaken]
      exact congrArg (· + 1) hcount

theorem Sifted.refl (bs : List BufferWrapper) : Sifted synchInfo bs bs [] :=
  ⟨[], bs, rfl, fun _ h => absurd h List.not_mem_nil, rfl, List.nil_prefix⟩

/-- Asking again, with the same answers, sifts further. -/
theorem Sifted.synchronize {before onTime : List BufferWrapper} {q : List QueueEntry} (n : ℕ)
    (h : Sifted synchInfo before (buffersOf q) onTime) :
    Sifted synchInfo before (buffersOf (synchronizeQueue synchInfo n q).1) (onTimeOf synchInfo n (buffersOf q)) := by
  obtain ⟨asked, rest, hbefore, hearly, hnow, -⟩ := h
  obtain ⟨asked', rest', hsplit, hearly', hleft, honTime, -⟩ := BatchPolicy.synchronizeQueue_split synchInfo n q
  have hidem : ∀ l : List BufferWrapper, (l.filter (kept synchInfo)).filter (kept synchInfo) = l.filter (kept synchInfo) :=
    fun l => List.filter_filter.trans (by simp only [Bool.and_self])
  rw [hleft, ← honTime]
  rw [hnow] at hsplit
  -- the second round of questions ends before the first did, or goes on behind it
  rcases List.append_eq_append_iff.mp hsplit with ⟨more, hasked', hrest⟩ | ⟨more, hasked, hrest'⟩
  · refine ⟨asked ++ more, rest', ?_, ?_, ?_, ?_⟩
    · rw [hbefore, hrest, List.append_assoc]
    · intro b hb
      rcases List.mem_append.mp hb with hb | hb
      · exact hearly b hb
      · exact hearly' b (by rw [hasked']; exact List.mem_append_right _ hb)
    · rw [hasked', List.filter_append, hidem, List.filter_append]
    · rw [hasked', List.filter_append, hidem, List.filter_append]
  · have hall : asked'.filter (kept synchInfo) = asked' := by
      rw [List.filter_eq_self]
      intro b hb
      have hin : b ∈ asked.filter (kept synchInfo) := by
        rw [hasked]
        exact List.mem_append_left _ hb
      exact (List.mem_filter.mp hin).2
    refine ⟨asked, rest, hbefore, hearly, ?_, ?_⟩
    · rw [hall, hasked, hrest', List.append_assoc]
    · rw [hall, hasked]
      exact List.prefix_append _ _

/-- The first buffers of a sifted queue are taken, and no more than are on time. -/
theorem Sifted.take {before now onTime copied after : List BufferWrapper} (h : Sifted synchInfo before now onTime)
    {more : List BufferWrapper} (hsplit : now ++ more = copied ++ after) (hcount : copied.length ≤ onTime.length) :
    ∃ left, now = copied ++ left ∧ copied <+: onTime ∧ TakenOnTime synchInfo before copied left := by
  obtain ⟨asked, rest, hbefore, hearly, hnow, hfront⟩ := h
  have hqueue : onTime <+: now ++ more := by
    rw [hnow, List.append_assoc]
    exact hfront.trans (List.prefix_append _ _)
  have hcopied : copied <+: now ++ more := by
    rw [hsplit]
    exact List.prefix_append _ _
  have hprefix : copied <+: onTime := List.prefix_of_prefix_length_le hcopied hqueue hcount
  obtain ⟨others, hothers⟩ := hprefix.trans hfront
  refine ⟨others ++ rest, by rw [hnow, ← hothers, List.append_assoc], hprefix, ?_, ?_, ?_⟩
  · intro b hb
    have hin : b ∈ asked.filter (kept synchInfo) := by
      rw [← hothers]
      exact List.mem_append_left _ hb
    obtain ⟨hasked, hkept⟩ := List.mem_filter.mp hin
    have hne := hearly b hasked
    have hlate : synchInfo b ≠ .late := of_decide_eq_true hkept
    generalize synchInfo b = answer at hne hlate ⊢
    cases answer <;> first | rfl | contradiction
  · refine ⟨asked.filter fun b => !kept synchInfo b, ?_, fun b hb => ?_⟩
    · have hperm := (List.filter_append_perm (kept synchInfo) asked).symm.append_right rest
      rw [← hbefore, ← hothers] at hperm
      refine hperm.trans ?_
      rw [List.append_assoc, List.append_assoc, List.append_assoc]
      refine List.Perm.append_left copied ?_
      rw [← List.append_assoc, ← List.append_assoc]
      exact List.perm_append_comm.append_right rest
    · have hnot := (List.mem_filter.mp hb).2
      simpa [kept] using hnot
  · intro pre b post hpost hb
    rw [hbefore] at hpost
    rcases List.append_eq_append_iff.mp hpost with ⟨between, -, hrest⟩ | ⟨between, hasked, hrest⟩
    · exact ⟨others ++ between, by rw [hrest, List.append_assoc]⟩
    · cases between with
      | nil => exact ⟨others, by rw [hrest, List.nil_append]⟩
      | cons x between =>
        rw [List.cons_append, List.cons.injEq] at hrest
        exact absurd hb (hearly b (by rw [hasked, hrest.1]; simp))

end Sifted

/-! ### A batch while it is formed -/

namespace BatchPolicy

/-- What `update_with_source` is told to be on time when it is called in the state `st`:
nothing, if the source has no pad or has given all that it may. -/
def onTimeAt (p : BatchPolicy) (env : OfferEnv) (st : FormState) (id : ℕ) : List BufferWrapper :=
  match st.inputs[id]?.join with
  | none => []
  | some pad =>
    if st.batch.numSources.getD id 0 = toInt32 (p.allowedRepeats st.inputs.size id) then []
    else onTimeOf env.synchInfo (p.numToInsert st.inputs.size id pad st.batch env.clockAllowed) (buffersOf pad.queue)

/-- What `update_with_source` allows to be taken when it is called in the state `st`. -/
def allowedAt (p : BatchPolicy) (env : OfferEnv) (st : FormState) (id : ℕ) : ℕ :=
  ((st.inputs[id]?.join).map fun pad => p.numToInsert st.inputs.size id pad st.batch env.clockAllowed).getD 0

theorem length_onTimeAt_le (p : BatchPolicy) (env : OfferEnv) (st : FormState) (id : ℕ) :
    (p.onTimeAt env st id).length ≤ p.allowedAt env st id := by
  unfold onTimeAt allowedAt
  cases st.inputs[id]?.join with
  | none => exact Nat.zero_le _
  | some pad =>
    dsimp only [Option.map_some, Option.getD_some]
    split
    · exact Nat.zero_le _
    · exact length_onTimeOf_le _ _

section Offers

variable {p : BatchPolicy} {env : ℕ → OfferEnv} {answers : ℕ → BufferWrapper → BufferTsStatus}

/-- An offer to a source with a pad: the source has given all that it may, or its queue
is synchronized and what is on time is entered. -/
theorem offer_synch (env : ℕ → OfferEnv) (hsynch : p.synchBuffer) {st : FormState} {id : ℕ} {pad : SinkPad}
    (hpad : st.inputs[id]? = some (some pad)) :
    let e := env st.offered.length
    (p.offer env st id).inputs = st.inputs ∧ (∀ a, framesOf (p.offer env st id) a = framesOf st a) ∧
        p.onTimeAt e st id = [] ∨
      ∃ n pad', (p.offer env st id).inputs = st.inputs.insert id (some pad') ∧
        pad'.queue = (synchronizeQueue e.synchInfo n pad.queue).1 ∧
        p.onTimeAt e st id = onTimeOf e.synchInfo n (buffersOf pad.queue) ∧
        ∀ a, framesOf (p.offer env st id) a =
          if a = id then (toInt32 (p.onTimeAt e st id).length).toNat else framesOf st a := by
  have htouch : ∀ a, (Table.touch st.batch.numSources id 0).getD a 0 = st.batch.numSources.getD a 0 :=
    fun a => Table.getD_touch _ _ _ _
  unfold BatchPolicy.offer updateWithSource onTimeAt
  rw [hpad]
  dsimp only [Option.join_some]
  rw [htouch]
  by_cases hall : st.batch.numSources.getD id 0 = toInt32 (p.allowedRepeats st.inputs.size id)
  · rw [if_pos hall, if_pos hall]
    refine .inl ⟨rfl, fun a => ?_, rfl⟩
    unfold framesOf
    rw [htouch]
  · rw [if_neg hall, if_neg hall, if_pos hsynch, if_pos hsynch]
    refine .inr ⟨_, _, rfl, iterate_popBufferDone_queue _ _, rfl, fun a => ?_⟩
    obtain ⟨-, -, -, -, -, -, hcount⟩ := synchronizeQueue_split (env st.offered.length).synchInfo
      (p.numToInsert st.inputs.size id pad st.batch (env st.offered.length).clockAllowed) pad.queue
    unfold framesOf synchronizeBuffersInPad
    dsimp only
    rw [Std.TreeMap.getD_insert, htouch, hcount]
    by_cases ha : a = id
    · rw [if_pos ha, if_pos (by rw [ha]; exact Std.LawfulEqCmp.compare_eq_iff_eq.mpr rfl)]
    · rw [if_neg ha, if_neg (by rw [Std.LawfulEqCmp.compare_eq_iff_eq]; exact Ne.symm ha)]

/-- An offer to another source. -/
theorem offer_other (p : BatchPolicy) (env : ℕ → OfferEnv) (st : FormState) {a id : ℕ} (ha : id ≠ a) :
    (p.offer env st a).inputs[id]? = st.inputs[id]? ∧ framesOf (p.offer env st a) id = framesOf st id := by
  unfold BatchPolicy.offer framesOf
  rcases updateWithSource_cases p st.inputs st.batch a (env st.offered.length) with
    hc | hc | ⟨pad, n, inputs', -, -, -, hinputs, hc⟩ <;> rw [hc]
  · exact ⟨rfl, rfl⟩
  · dsimp only
    rw [Table.getD_touch]
    exact ⟨rfl, rfl⟩
  · dsimp only
    rw [Std.TreeMap.getD_insert, if_neg (by rw [Std.LawfulEqCmp.compare_eq_iff_eq]; exact Ne.symm ha), Table.getD_touch]
    refine ⟨?_, rfl⟩
    rcases hinputs with rfl | ⟨-, pad', -, rfl⟩
    · rfl
    · rw [Table.getElem?_insert, if_neg ha]

/-- What the offers to `ids`, made from `st₀` on, have made of the pad of a source. -/
structure PadSifted (p : BatchPolicy) (env : ℕ → OfferEnv) (synchInfo : BufferWrapper → BufferTsStatus)
    (st₀ : FormState) (ids : List ℕ) (id : ℕ) (pad pad' : SinkPad) (onTime : List BufferWrapper) : Prop where
  now : (ids.foldl (p.offer env) st₀).inputs[id]? = some (some pad')
  sifted : Sifted synchInfo (buffersOf pad.queue) (buffersOf pad'.queue) onTime
  frames : framesOf (ids.foldl (p.offer env) st₀) id = (toInt32 onTime.length).toNat
  decided : id ∉ ids ∧ onTime = [] ∨
    ∃ k, ids[k]? = some id ∧ onTime = p.onTimeAt (env k) ((ids.take k).foldl (p.offer env) st₀) id

theorem offered_foldl (st : FormState) (ids : List ℕ) : (ids.foldl (p.offer env) st).offered = st.offered ++ ids := by
  induction ids generalizing st with
  | nil => exact (List.append_nil _).symm
  | cons a ids ih => rw [List.foldl_cons, ih, BatchPolicy.offer, List.append_assoc, List.singleton_append]

theorem PadSifted.snoc (hsynch : p.synchBuffer) {st₀ : FormState} (hst₀ : st₀.offered = []) {ids : List ℕ} {a id : ℕ}
    {pad pad' : SinkPad} {onTime : List BufferWrapper} (h : PadSifted p env (answers id) st₀ ids id pad pad' onTime)
    (hanswers : a = id → (env ids.length).synchInfo = answers id) :
    ∃ pad' onTime, PadSifted p env (answers id) st₀ (ids ++ [a]) id pad pad' onTime := by
  have hlen : (ids.foldl (p.offer env) st₀).offered.length = ids.length := by
    rw [offered_foldl, hst₀, List.nil_append]
  have hfold : (ids ++ [a]).foldl (p.offer env) st₀ = p.offer env (ids.foldl (p.offer env) st₀) a := by
    rw [List.foldl_append, List.foldl_cons, List.foldl_nil]
  have hbefore : (ids ++ [a]).take ids.length = ids := List.take_left
  have hat : (ids ++ [a])[ids.length]? = some a := by
    rw [List.getElem?_append_right le_rfl, Nat.sub_self, List.getElem?_cons_zero]
  -- what was decided by an earlier offer stays so
  have hold : (∃ k, ids[k]? = some id ∧ onTime = p.onTimeAt (env k) ((ids.take k).foldl (p.offer env) st₀) id) →
      ∃ k, (ids ++ [a])[k]? = some id ∧
        onTime = p.onTimeAt (env k) (((ids ++ [a]).take k).foldl (p.offer env) st₀) id := by
    rintro ⟨k, hk, honTime⟩
    have hlt : k < ids.length := (List.getElem?_eq_some_iff.mp hk).1
    exact ⟨k, by rw [List.getElem?_append_left hlt, hk], by rw [List.take_append_of_le_length hlt.le, ← honTime]⟩
  by_cases ha : id = a
  · have hlast := offer_synch env hsynch (ha ▸ h.now)
    rw [hlen, ← ha] at hlast
    rcases hlast with ⟨hinputs, hframes, hnone⟩ | ⟨n, pad'', hinputs, hqueue, honTime, hframes⟩
    · refine ⟨pad', onTime, ?_, h.sifted, ?_, .inr ?_⟩
      · rw [hfold, ← ha, hinputs]
        exact h.now
      · rw [hfold, ← ha, hframes]
        exact h.frames
      · rcases h.decided with ⟨-, hnil⟩ | hdecided
        · exact ⟨ids.length, by rw [hat, ha], by rw [hbefore, hnone, hnil]⟩
        · exact hold hdecided
    · have hsame := hanswers ha.symm
      refine ⟨pad'', p.onTimeAt (env ids.length) (ids.foldl (p.offer env) st₀) id, ?_, ?_, ?_,
        .inr ⟨ids.length, by rw [hat, ha], by rw [hbefore]⟩⟩
      · rw [hfold, ← ha, hinputs, Std.TreeMap.getElem?_insert_self]
      · rw [honTime, hqueue, hsame]
        exact h.sifted.synchronize n
      · rw [hfold, ← ha, hframes, if_pos rfl]
  · obtain ⟨hinputs, hframes⟩ := offer_other p env (ids.foldl (p.offer env) st₀) ha
    refine ⟨pad', onTime, ?_, h.sifted, ?_, ?_⟩
    · rw [hfold, hinputs]
      exact h.now
    · rw [hfold, hframes]
      exact h.frames
    · rcases h.decided with ⟨hnot, hnil⟩ | hdecided
      · exact .inl ⟨by simp [hnot, ha], hnil⟩
      · exact .inr (hold hdecided)

/-- After any offers that give the same answers for a pad, the pad is sifted. -/
theorem exists_padSifted (env : ℕ → OfferEnv) (hsynch : p.synchBuffer) {st₀ : FormState} (hst₀ : st₀.offered = []) {id : ℕ} {pad : SinkPad}
    (hpad : st₀.inputs[id]? = some (some pad)) (hframes : framesOf st₀ id = 0) (ids : List ℕ)
    (hanswers : ∀ k, ids[k]? = some id → (env k).synchInfo = answers id) :
    ∃ pad' onTime, PadSifted p env (answers id) st₀ ids id pad pad' onTime := by
  induction ids using List.reverseRecOn with
  | nil =>
    exact ⟨pad, [], hpad, Sifted.refl _, hframes, .inl ⟨List.not_mem_nil, rfl⟩⟩
  | append_singleton ids a ih =>
    have hsnoc : ∀ k, ids[k]? = some id → (ids ++ [a])[k]? = some id := fun k hk => by
      rw [List.getElem?_append_left (List.getElem?_eq_some_iff.mp hk).1, hk]
    obtain ⟨pad', onTime, h⟩ := ih fun k hk => hanswers k (hsnoc k hk)
    exact h.snoc hsynch hst₀ fun ha => hanswers _ (by
      rw [List.getElem?_append_right le_rfl, Nat.sub_self, List.getElem?_cons_zero, ha])

/-- The batch that is formed is that of the offers made. -/
theorem formBatch_replay {inputs : Inputs} {batch : Option Batch} {thisBatchSize : ℕ} {r : BatchPolicy × FormState}
    (h : p.formBatch inputs batch thisBatchSize env = some r) :
    r.2 = r.2.offered.foldl (p.offer env) ⟨inputs, emptied batch thisBatchSize, []⟩ := by
  refine (formBatch_invariant (I := fun st => st = st.offered.foldl (p.offer env) ⟨inputs, emptied batch thisBatchSize, []⟩)
    (fun st id _ hst => ?_) rfl h).1
  have hoffered : (p.offer env st id).offered = st.offered ++ [id] := rfl
  rw [hoffered, List.foldl_append, List.foldl_cons, List.foldl_nil, ← hst]

end Offers

end BatchPolicy

namespace NvStreamMux

open BatchPolicy

/-! ### Between forming a batch and copying it -/

/-- `m'` is `m` after events went to the source pad and the buffers `arrived` came in. -/
structure Later (m m' : NvStreamMux) (arrived : ℕ → List BufferWrapper) : Prop where
  batch : m'.batch = m.batch
  queue : ∀ id pad, m.pad id = some pad →
    ∃ pad', m'.pad id = some pad' ∧ buffersOf pad'.queue = buffersOf pad.queue ++ arrived id

theorem Later.refl (m : NvStreamMux) : Later m m fun _ => [] :=
  ⟨rfl, fun _ pad hpad => ⟨pad, hpad, (List.append_nil _).symm⟩⟩

/-! ### What is copied -/

section Copied

variable {ω : Type*} (copyBuf : CopyBuf ω)

/-- No more buffers are copied than were counted, and as many if each fits. -/
theorem length_copied (n : ℕ) (out : ω) (total : ℕ) (q : List QueueEntry) :
    (copyQueue copyBuf n out total q).copied.length ≤ n ∧
      ((∀ out b total, (copyBuf out b total).1 ≠ 0) →
        (copyQueue copyBuf n out total q).copied.length = min n (buffersOf q).length) := by
  fun_induction copyQueue copyBuf n out total q with
  | case1 out total q => exact ⟨le_rfl, fun _ => (Nat.zero_min _).symm⟩
  | case2 n out total => exact ⟨Nat.zero_le _, fun _ => (Nat.min_zero _).symm⟩
  | case3 out total n e q r ih => exact ih
  | case4 n out total b q out' h => exact ⟨Nat.zero_le _, fun hfits => absurd (by rw [h]) (hfits out b total)⟩
  | case5 n out total b q k out' h r ih =>
    refine ⟨Nat.succ_le_succ ih.1, fun hfits => ?_⟩
    rw [List.length_cons, buffersOf_cons_buffer, List.length_cons, ih.2 hfits]
    exact (Nat.succ_min_succ _ _).symm

/-- The loop of `copy_batch` at the source itself. -/
theorem copySource_at {st : CopyState ω} {id : ℕ} {p : SinkPad} (count : ℤ) (hp : st.mux.pad id = some p) :
    ∃ q copied, (copySource copyBuf count st id).mux.pad id = some q ∧
      ofPad id (copySource copyBuf count st id).copied = ofPad id st.copied ++ copied ∧
      buffersOf p.queue = copied ++ buffersOf q.queue ∧ copied.length ≤ count.toNat ∧
      ((∀ out b total, (copyBuf out b total).1 ≠ 0) → copied.length = min count.toNat (buffersOf p.queue).length) := by
  have hlookup : (st.mux.lookup id).pad id = some p := (pad_lookup _ _ _).trans hp
  obtain ⟨-, hbuffers⟩ := copyQueue_spec copyBuf count.toNat st.out st.totalCopied p.queue
  obtain ⟨hle, hfits⟩ := length_copied copyBuf count.toNat st.out st.totalCopied p.queue
  unfold copySource
  dsimp only
  rw [hlookup]
  dsimp only
  generalize copyQueue copyBuf count.toNat st.out st.totalCopied p.queue = r at hbuffers hle hfits ⊢
  refine ⟨_, r.copied.map Prod.fst, (pad_setPad _ _ _ _).trans (if_pos rfl), ?_, ?_, ?_, fun h => ?_⟩
  · have hmap : r.copied.map (fun b => (id, b.1)) = (r.copied.map Prod.fst).map fun b => (id, b) := by
      rw [List.map_map]
      rfl
    rw [ofPad_append, hmap, ofPad_map, if_pos rfl]
  · rw [SinkPad.adjustEventIndices_queue, iterate_popBufferDone_queue]
    exact hbuffers
  · rwa [List.length_map]
  · rw [List.length_map, hfits h]

/-- The loop of `copy_batch` at another source. -/
theorem copySource_other (count : ℤ) (st : CopyState ω) {a id : ℕ} (ha : id ≠ a) :
    (copySource copyBuf count st a).mux.pad id = st.mux.pad id ∧
      ofPad id (copySource copyBuf count st a).copied = ofPad id st.copied := by
  cases hp : st.mux.pad a with
  | none =>
    rw [copySource_none copyBuf count hp]
    exact ⟨pad_lookup _ _ _, rfl⟩
  | some p =>
    obtain ⟨m, q, copied, hm, hc, -, hquiet, -, -, -, -⟩ := copySource_eq copyBuf count hp
    rw [hm, hc]
    refine ⟨?_, ?_⟩
    · rw [pad_setPad, if_neg ha, hquiet.pad]
    · rw [ofPad_append, ofPad_map, if_neg ha.symm, List.append_nil]

theorem foldl_copySource_other (count : ℕ → ℤ) {id : ℕ} : ∀ (l : List ℕ) (st : CopyState ω), id ∉ l →
    (l.foldl (fun st a => copySource copyBuf (count a) st a) st).mux.pad id = st.mux.pad id ∧
      ofPad id (l.foldl (fun st a => copySource copyBuf (count a) st a) st).copied = ofPad id st.copied
  | [], _, _ => ⟨rfl, rfl⟩
  | a :: l, st, hid => by
    obtain ⟨hpad, hcopied⟩ := copySource_other copyBuf (count a) st (List.ne_of_not_mem_cons hid)
    obtain ⟨hpad', hcopied'⟩ := foldl_copySource_other count l (copySource copyBuf (count a) st a)
      (List.not_mem_of_not_mem_cons hid)
    exact ⟨hpad'.trans hpad, hcopied'.trans hcopied⟩

variable {copyBuf} in
/-- **What `copy_batch` takes from a pad.** The first buffers of its queue, as many as
were counted for it if each of them fits. -/
theorem copyBatch_at {m : NvStreamMux} {b : Batch} {out : ω} {order : List ℕ} {r : CopyState ω} {id : ℕ} {p : SinkPad}
    (hb : m.batch = some b) (hcopy : m.copyBatch copyBuf out order = some r) (hp : m.pad id = some p) :
    ∃ q, r.mux.pad id = some q ∧ buffersOf p.queue = ofPad id r.copied ++ buffersOf q.queue ∧
      (ofPad id r.copied).length ≤ (b.numSources.getD id 0).toNat ∧
      ((∀ out b total, (copyBuf out b total).1 ≠ 0) →
        (ofPad id r.copied).length = min (b.numSources.getD id 0).toNat (buffersOf p.queue).length) := by
  unfold copyBatch at hcopy
  rw [hb] at hcopy
  dsimp only at hcopy
  split at hcopy
  · rename_i hperm
    cases hcopy
    by_cases hid : id ∈ order
    · obtain ⟨l₁, l₂, rfl⟩ := List.append_of_mem hid
      have hnd : (l₁ ++ id :: l₂).Nodup := hperm.nodup_iff.mpr (b.numSources.nodup_keys)
      obtain ⟨-, hcons, hdisj⟩ := List.nodup_append.mp hnd
      have hid₁ : id ∉ l₁ := fun h => hdisj _ h _ List.mem_cons_self rfl
      have hid₂ : id ∉ l₂ := (List.nodup_cons.mp hcons).1
      rw [List.foldl_append, List.foldl_cons]
      generalize hst : l₁.foldl _ _ = st
      obtain ⟨hpad₁, hcopied₁⟩ := foldl_copySource_other copyBuf (fun a => b.numSources.getD a 0) l₁
        ⟨m, out, 0, []⟩ hid₁
      rw [hst] at hpad₁ hcopied₁
      obtain ⟨q, copied, hq, hcopied, hsplit, hle, hfits⟩ := copySource_at copyBuf
        (b.numSources.getD id 0) (hpad₁.trans hp)
      obtain ⟨hpad₂, hcopied₂⟩ := foldl_copySource_other copyBuf (fun a => b.numSources.getD a 0) l₂
        (copySource copyBuf (b.numSources.getD id 0) st id) hid₂
      rw [hcopied₂, hcopied, hcopied₁, ofPad_nil, List.nil_append]
      exact ⟨q, hpad₂.trans hq, hsplit, hle, hfits⟩
    · have hzero : b.numSources.getD id 0 = 0 := by
        refine Std.TreeMap.getD_eq_fallback fun hmem => hid ?_
        exact hperm.mem_iff.mpr (Std.TreeMap.mem_keys.mpr hmem)
      obtain ⟨hpad, hcopied⟩ := foldl_copySource_other copyBuf (fun a => b.numSources.getD a 0) order
        ⟨m, out, 0, []⟩ hid
      rw [hcopied, hzero]
      exact ⟨p, hpad.trans hp, rfl, le_rfl, fun _ => (Nat.zero_min _).symm⟩
  · cases hcopy

end Copied

/-! ### Synchronized batches -/

/-- The sources that `form_batch` offers, in order. -/
def offeredIn (m : NvStreamMux) (env : ℕ → OfferEnv) : List ℕ :=
  ((m.batchPolicy.formBatch m.inputs m.batch (m.batchPolicy.getBatchSize m.inputs.size) env).map
    fun r => r.2.offered).getD []

/-- The state in which `form_batch` makes its offer number `k`. -/
def offerState (m : NvStreamMux) (env : ℕ → OfferEnv) (k : ℕ) : FormState :=
  ((m.offeredIn env).take k).foldl (m.batchPolicy.offer env)
    ⟨m.inputs, emptied m.batch (m.batchPolicy.getBatchSize m.inputs.size), []⟩

/-- **Synchronized batching takes only buffers on time.** Let the answers for a pad be
the same whenever `form_batch` asks for it. Of the buffers queued when `form_batch`
began, `copy_batch` copies only ones that were answered on time, whatever is missing
otherwise was answered late, and from the first early one on all are left. The buffers
copied are the first of those that one offer of the source found to be on time, which
are no more than `update_with_source` allowed there; they are all of them if the output
batch takes every buffer. -/
theorem copied_onTime {ω : Type*} {copyBuf : CopyBuf ω} {m m₁ m₂ : NvStreamMux} {env : ℕ → OfferEnv} {out : ω}
    {order : List ℕ} {r : CopyState ω} {arrived : ℕ → List BufferWrapper}
    {answers : ℕ → BufferWrapper → BufferTsStatus} (hsynch : m.batchPolicy.synchBuffer)
    (hanswers : ∀ k id, (m.offeredIn env)[k]? = some id → (env k).synchInfo = answers id)
    (hform : m.formBatch env = some m₁) (hlater : Later m₁ m₂ arrived)
    (hcopy : m₂.copyBatch copyBuf out order = some r) {id : ℕ} {pad : SinkPad} (hpad : m.pad id = some pad) :
    ∃ pad' left onTime, r.mux.pad id = some pad' ∧ buffersOf pad'.queue = left ++ arrived id ∧
      TakenOnTime (answers id) (buffersOf pad.queue) (ofPad id r.copied) left ∧
      ofPad id r.copied <+: onTime ∧
      ((∀ out b total, (copyBuf out b total).1 ≠ 0) → onTime.length < 2 ^ 31 → ofPad id r.copied = onTime) ∧
      (id ∉ m.offeredIn env ∧ onTime = [] ∨ ∃ k, (m.offeredIn env)[k]? = some id ∧
        onTime = m.batchPolicy.onTimeAt (env k) (m.offerState env k) id ∧
        onTime.length ≤ m.batchPolicy.allowedAt (env k) (m.offerState env k) id) := by
  obtain ⟨s, hs, rfl⟩ := Option.map_eq_some_iff.mp hform
  have hoffered : m.offeredIn env = s.2.offered := by
    unfold offeredIn
    rw [hs]
    rfl
  have hreplay := formBatch_replay hs
  have hzero : framesOf ⟨m.inputs, emptied m.batch (m.batchPolicy.getBatchSize m.inputs.size), []⟩ id = 0 := by
    unfold framesOf
    cases m.batch <;> simp [emptied, Batch.resetBatch]
  obtain ⟨pad₁, onTime, hsifted⟩ := exists_padSifted env hsynch rfl (pad_eq_some.mp hpad) hzero s.2.offered
    fun k hk => hanswers k id (by rw [hoffered, hk])
  have hnow := hsifted.now
  have hframes := hsifted.frames
  rw [← hreplay] at hnow hframes
  obtain ⟨pad₂, hpad₂, hqueue₂⟩ := hlater.queue id pad₁ (pad_eq_some.mpr hnow)
  obtain ⟨q, hq, hsplit, hle, hfits⟩ := copyBatch_at hlater.batch hcopy hpad₂
  rw [hqueue₂] at hsplit hfits
  change framesOf s.2 id = _ at hframes
  change (ofPad id r.copied).length ≤ framesOf s.2 id at hle
  have hcount : (ofPad id r.copied).length ≤ onTime.length := by
    rw [hframes] at hle
    refine hle.trans ?_
    unfold toInt32
    split <;> omega
  obtain ⟨left, hleft, hprefix, htaken⟩ := hsifted.sifted.take hsplit hcount
  refine ⟨q, left, onTime, hq, ?_, htaken, hprefix, fun hall hlt => ?_, ?_⟩
  · rw [hleft, List.append_assoc] at hsplit
    exact (List.append_cancel_left hsplit).symm
  · have hlen : onTime.length ≤ (buffersOf pad₁.queue ++ arrived id).length := by
      obtain ⟨asked, rest, -, -, hbuffers, hfront⟩ := hsifted.sifted
      rw [hbuffers, List.append_assoc]
      exact (hfront.trans (List.prefix_append _ _)).length_le
    have hall := hfits hall
    change _ = min (framesOf s.2 id) _ at hall
    rw [hframes, toInt32_of_lt hlt, Int.toNat_natCast, Nat.min_eq_left hlen] at hall
    exact hprefix.eq_of_length hall
  · rcases hsifted.decided with hnone | ⟨k, hk, honTime⟩
    · exact .inl (by rwa [hoffered])
    · have hat : onTime = m.batchPolicy.onTimeAt (env k) (m.offerState env k) id := by
        rw [honTime, offerState, hoffered]
      exact .inr ⟨k, by rw [hoffered, hk], hat, hat ▸ length_onTimeAt_le _ _ _ _⟩

/-- The plain configuration with synchronization. -/
def synchronized : MuxConfig := { Sys.plain with synchBuffer := true }

/-- A pad with a late buffer, one on time and an early one. -/
def lateOnTimeEarly : Option NvStreamMux :=
  [1, 2, 3].foldlM (fun m raw => m.addBufferQueue 0 ⟨raw, 1⟩) ((NvStreamMux.new synchronized).addPad 0)

def answerByRaw (b : BufferWrapper) : BufferTsStatus :=
  if b.raw = 1 then .late else if b.raw = 2 then .ontime else .early

/-- The late buffer is dropped, the one on time copied, the early one left. -/
theorem copied_onTime_three : ∃ m m₁ r left, lateOnTimeEarly = some m ∧
    m.formBatch (fun _ => ⟨0, answerByRaw⟩) = some m₁ ∧
    m₁.copyBatch GstBatchBufferWrapper.copyBuf ⟨4, 0, []⟩ [0] = some r ∧ ofPad 0 r.copied = [⟨2, 1⟩] ∧
    TakenOnTime answerByRaw [⟨1, 1⟩, ⟨2, 1⟩, ⟨3, 1⟩] (ofPad 0 r.copied) left := by
  have hm : lateOnTimeEarly.isSome := by decide +kernel
  obtain ⟨m, hm⟩ := Option.isSome_iff_exists.mp hm
  have hform : (lateOnTimeEarly.bind fun m => m.formBatch fun _ => ⟨0, answerByRaw⟩).isSome := by decide +kernel
  rw [hm, Option.bind_some] at hform
  obtain ⟨m₁, hform⟩ := Option.isSome_iff_exists.mp hform
  have hcopy : ((lateOnTimeEarly.bind fun m => m.formBatch fun _ => ⟨0, answerByRaw⟩).bind fun m₁ =>
      m₁.copyBatch GstBatchBufferWrapper.copyBuf ⟨4, 0, []⟩ [0]).map (fun r => ofPad 0 r.copied) = some [⟨2, 1⟩] := by
    decide +kernel
  rw [hm, Option.bind_some, hform, Option.bind_some] at hcopy
  obtain ⟨r, hr, hcopied⟩ := Option.map_eq_some_iff.mp hcopy
  have hqueue : lateOnTimeEarly.bind (fun m => (m.pad 0).map fun p => buffersOf p.queue) =
      some [⟨1, 1⟩, ⟨2, 1⟩, ⟨3, 1⟩] := by decide +kernel
  rw [hm, Option.bind_some] at hqueue
  obtain ⟨pad, hpad, hbuffers⟩ := Option.map_eq_some_iff.mp hqueue
  have hsynch : lateOnTimeEarly.map (fun m => m.batchPolicy.synchBuffer) = some true := by decide +kernel
  rw [hm, Option.map_some, Option.some.injEq] at hsynch
  have hanswers : ∀ k id : ℕ, (m.offeredIn fun _ => ⟨0, answerByRaw⟩)[k]? = some id →
      answerByRaw = (fun _ : ℕ => answerByRaw) id := fun _ _ _ => rfl
  obtain ⟨-, left, -, -, -, htaken, -⟩ := copied_onTime hsynch hanswers hform (Later.refl m₁) hr hpad
  rw [hbuffers] at htaken
  exact ⟨m, m₁, r, left, hm, hform, hr, hcopied, htaken⟩

end NvStreamMux

end Mux
end DeepStream
