/-
# Round robin is fair within a group

With all sources in one group and one frame of each in a batch, `form_batch` walks
along the cycle of the sources: a batch takes its frames from the sources on turn,
and the saved position is that of the next one, whether the batch was filled in the
middle of a round, on the last source, or not at all. Over any number of batches two
sources have therefore given equally many frames, or one of them one more.

A batch is formed while every source has a frame to give (`supplied`); between two
batches anything may happen that adds no source.
-/
import DeepStream.Mux.Limits

namespace DeepStream
namespace Mux
namespace BatchPolicy

/-- A source has a frame to give: a buffer is queued on its pad, the rate of the source
allows it, and it is on time. -/
def supplied (p : BatchPolicy) (inputs : Inputs) (env : OfferEnv) (id : ℕ) : Bool :=
  inputs[id]?.join.any fun pad =>
    1 ≤ p.getAllowed id env.clockAllowed pad.getAvailable ∧
      (p.synchBuffer → (synchronizeQueue env.synchInfo 1 pad.queue).2.1 = 1)

/-- A batch of at least one frame, with one frame allowed of each source, and every
source with a frame to give; no source is added. -/
def RoundOk (p : BatchPolicy) : Call → Prop
  | .formBatch inputs _ thisBatchSize env =>
    1 ≤ (thisBatchSize : ℕ) ∧ ∀ id ∈ p.sources.map Prod.snd, p.allowedRepeats inputs.size id = 1 ∧
      ∀ k < p.sources.length, p.supplied inputs (env k) id
  | .checkAndUpdateDefaults sourceId => p.sources.any fun e => e.2 = sourceId
  | _ => True

instance (p : BatchPolicy) : (c : Call) → Decidable (p.RoundOk c)
  | .formBatch inputs _ thisBatchSize env =>
    @instDecidableAnd _ _ (Nat.decLe 1 thisBatchSize) (@List.decidableBAll _ _ (fun id =>
      @instDecidableAnd _ _ (Nat.decEq (p.allowedRepeats inputs.size id) 1)
        (@Nat.decidableBallLT p.sources.length (fun k _ => p.supplied inputs (env k) id = true)
          fun k _ => instDecidableEqBool (p.supplied inputs (env k) id) true))
      (p.sources.map Prod.snd))
  | .checkAndUpdateDefaults sourceId => instDecidableEqBool (p.sources.any fun e => e.2 = sourceId) true
  | .updateIdleSources _ | .updateEosSources _ | .updatePushStats _ | .setNumSurfaces _ | .setBatchSize _ => isTrue trivial

/-- A policy with the frames that were taken from each source so far, and the sources
in the order in which they were served. -/
structure Serving where
  policy : BatchPolicy
  taken : ℕ → ℕ
  order : List ℕ

def serve (s : Serving) : Call → Option Serving
  | .formBatch inputs batch thisBatchSize env =>
    (s.policy.formBatch inputs batch thisBatchSize env).map fun r =>
      ⟨r.1, fun id => s.taken id + framesOf r.2 id, s.order ++ r.2.offered⟩
  | c => (s.policy.step c).map fun p => { s with policy := p }

/-! ### One batch -/

section Round

variable {p : BatchPolicy} {inputs : Inputs} {thisBatchSize : ℕ} {env : ℕ → OfferEnv}

/-- What a batch is while it is formed: one frame of each source on turn so far, and the
other pads as they were. -/
structure Served (inputs : Inputs) (thisBatchSize : ℕ) (ids : List ℕ) (st : FormState) : Prop where
  offered : st.offered = ids
  batchSize : st.batch.batchSize = thisBatchSize
  accBatch : st.batch.accBatch = ids.length
  frames : ∀ a, framesOf st a = ids.count a
  fresh : ∀ a ∉ ids, a ∉ st.batch.numSources ∧ st.inputs[a]? = inputs[a]?
  size : st.inputs.size = inputs.size

theorem Served.emptied (batch : Option Batch) :
    Served inputs thisBatchSize [] ⟨inputs, BatchPolicy.emptied batch thisBatchSize, []⟩ := by
  have hempty : (BatchPolicy.emptied batch thisBatchSize).numSources = ∅ := by cases batch <;> rfl
  refine ⟨rfl, ?_, ?_, fun a => ?_, fun a _ => ⟨?_, rfl⟩, rfl⟩
  · cases batch <;> rfl
  · cases batch <;> rfl
  · unfold framesOf
    rw [hempty, Std.TreeMap.getD_emptyc]
    rfl
  · rw [hempty]
    exact Std.TreeMap.not_mem_emptyc

theorem Served.ready_iff {ids : List ℕ} {st : FormState} (h : Served inputs thisBatchSize ids st)
    (hb : 1 ≤ thisBatchSize) : ready st ↔ ids.length = thisBatchSize := by
  rw [ready, isReady, decide_eq_true_eq, h.accBatch, h.batchSize]
  omega

/-- A source that is supplied gives one frame. -/
theorem Served.offer {ids : List ℕ} {st : FormState} (h : Served inputs thisBatchSize ids st)
    (hb : thisBatchSize < 2 ^ 32) (hroom : ids.length < thisBatchSize) {id : ℕ} (hid : id ∉ ids)
    (hallowed : p.allowedRepeats inputs.size id = 1) (hsupplied : p.supplied inputs (env ids.length) id) :
    Served inputs thisBatchSize (ids ++ [id]) (p.offer env st id) := by
  obtain ⟨hnew, hinput⟩ := h.fresh id hid
  obtain ⟨pad, hat, hgives⟩ := (Option.any_eq_true _ _).mp hsupplied
  have hpad : st.inputs[id]? = some (some pad) := hinput.trans (Option.join_eq_some_iff.mp hat)
  obtain ⟨havail, honTime⟩ := of_decide_eq_true hgives
  have hzero : (Table.touch st.batch.numSources id 0).getD id 0 = 0 := by
    rw [Table.getD_touch, Std.TreeMap.getD_eq_fallback hnew]
  have hinsert : p.numToInsert st.inputs.size id pad st.batch (env ids.length).clockAllowed = 1 := by
    rw [numToInsert_eq, h.size, hallowed, h.batchSize, h.accBatch, wrapSub_of_le hroom.le hb]
    omega
  have hcount : (if p.synchBuffer then (synchronizeBuffersInPad pad 1 (env ids.length).synchInfo).2 else 1) = 1 := by
    split
    · rename_i hsynch
      exact honTime hsynch
    · rfl
  have hframes : ∀ a, (((Table.touch st.batch.numSources id 0).insert id (toInt32 1)).getD a 0).toNat =
      (ids ++ [id]).count a := by
    intro a
    rw [Std.TreeMap.getD_insert, Table.getD_touch, List.count_append]
    by_cases ha : id = a
    · rw [if_pos (by rw [ha]; exact Std.LawfulEqCmp.compare_eq_iff_eq.mpr rfl), ← ha, List.count_eq_zero_of_not_mem hid,
        List.count_singleton_self]
      rfl
    · rw [if_neg (by rwa [Std.LawfulEqCmp.compare_eq_iff_eq]), List.count_singleton, if_neg (by simpa using ha)]
      exact h.frames a
  have hrest : ∀ a ∉ ids ++ [id], a ∉ ids ∧ a ≠ id := fun a ha => by simpa [not_or] using ha
  have hmem : id ∈ st.inputs := Std.TreeMap.mem_iff_isSome_getElem?.mpr (by rw [hpad]; rfl)
  unfold BatchPolicy.offer updateWithSource
  rw [h.offered, hpad]
  dsimp only
  rw [hzero, h.size, hallowed, if_neg (by decide), ← h.size, hinsert, hcount]
  refine ⟨rfl, h.batchSize, ?_, hframes, fun a ha => ?_, ?_⟩
  · rw [List.length_append, List.length_singleton, ← h.accBatch]
    exact wrapAdd_of_lt (by rw [h.accBatch]; omega)
  · obtain ⟨hold, hne⟩ := hrest a ha
    obtain ⟨hnot, hsame⟩ := h.fresh a hold
    refine ⟨?_, ?_⟩
    · dsimp only
      rw [← Table.mem_keySet, Table.keySet_insert, Table.keySet_touch, Finset.mem_insert, Finset.mem_insert,
        Table.mem_keySet]
      tauto
    · dsimp only
      split
      · rw [Table.getElem?_insert, if_neg hne, hsame]
      · exact hsame
  · dsimp only
    split
    · rw [← Table.card_keySet, Table.keySet_insert_of_mem _ hmem, Table.card_keySet, h.size]
    · exact h.size

/-- The only group has every source once. -/
theorem WellKeyed.groupAt_zero (h : p.WellKeyed) (hone : p.priorityList.length = 1) :
    (p.groupAt 0).Nodup ∧ (∀ id, id ∈ p.groupAt 0 ↔ id ∈ p.sources.map Prod.snd) ∧
      0 < (p.groupAt 0).length ∧ (p.groupAt 0).length ≤ p.sources.length := by
  obtain ⟨x, hx⟩ := List.length_eq_one_iff.mp hone
  have hgroup : p.groupAt 0 = p.priorityList.flatMap fun x => group p.sources (toInt32 x) := by
    rw [groupAt, hx, List.flatMap_singleton]
    rfl
  refine ⟨hgroup ▸ h.nodup_flatMap, fun id => hgroup ▸ h.mem_flatMap, h.groupAt_pos (by omega), ?_⟩
  rw [groupAt_of_lt (by omega), group, List.length_map]
  exact List.length_filter_le _ _

/-- **One batch.** The sources have their turns from the saved position on, until the
batch is full or all had theirs, and the position goes on behind the last of them. -/
theorem formBatch_turns {size : Fin (2 ^ 32)} {batch : Option Batch} {r : BatchPolicy × FormState} (hp : p.WellKeyed)
    (hr : p.ResumeOk) (htype : p.config.type = .roundRobin) (hone : p.priorityList.length = 1)
    (hok : p.RoundOk (.formBatch inputs batch size env)) (h : p.formBatch inputs batch size env = some r) :
    let o := p.lastBatchState.sourceMapPosition
    let m := min (p.groupAt 0).length size
    o < (p.groupAt 0).length ∧ r.1 = { p with lastBatchState := ⟨0, (o + m) % (p.groupAt 0).length⟩ } ∧
      r.2.offered = turns (p.groupAt 0) o m ∧ ∀ id, framesOf r.2 id = (turns (p.groupAt 0) o m).count id := by
  intro o m
  obtain ⟨hb, hsources⟩ := hok
  obtain ⟨hnd, hmem, hpos, hlen⟩ := hp.groupAt_zero hone
  have hne : p.priorityList ≠ [] := List.length_pos_iff.mp (by omega)
  have hfirst : p.firstPosition = 0 := by
    have := firstPosition_lt hr hne
    omega
  have henter : p.enterAt true = o := by
    unfold enterAt
    rw [if_pos ⟨rfl, htype⟩]
  have ho : o < (p.groupAt 0).length := by
    have := enterAt_lt hp hr hne
    rwa [henter, hfirst] at this
  -- the scan of the group visits the sources whose turn it is
  obtain ⟨hcount, hserved⟩ := scan_spec (p.offer env) ready (I := Served inputs size) (m := size)
    (fun ids st hst => hst.ready_iff hb) (cyclic (p.groupAt 0) o (p.groupAt 0).length) [] _ (Served.emptied batch)
    (Nat.lt_of_succ_le hb) (fun ids st id hst hlt hpre => by
      rw [List.nil_append] at hpre
      have hin := hpre.subset (List.mem_append_right ids (List.mem_singleton_self id))
      have hnodup : (ids ++ [id]).Nodup :=
        ((cyclic_perm (p.groupAt 0) o).nodup_iff.mpr hnd).sublist hpre.sublist
      have hshort := hpre.length_le
      rw [List.length_append, List.length_singleton, length_cyclic le_rfl] at hshort
      obtain ⟨hallowed, hsupplied⟩ := hsources id ((hmem id).mp ((cyclic_perm _ o).mem_iff.mp hin))
      exact hst.offer size.isLt hlt (fun hid => (List.nodup_append.mp hnodup).2.2 _ hid _ (List.mem_singleton_self id) rfl)
        hallowed (hsupplied _ (by omega)))
  rw [length_cyclic le_rfl, List.length_nil, Nat.sub_zero] at hcount
  have hvisited : (cyclic (p.groupAt 0) o (p.groupAt 0).length).take m = turns (p.groupAt 0) o m := by
    rw [turns_eq_cyclic ho (min_le_left _ _), cyclic, cyclic, List.take_take, min_eq_left (min_le_left _ _)]
  rw [hcount, List.nil_append, hvisited] at hserved
  rw [formBatch_eq, hfirst, hone, if_neg (by decide), priorityLoop_succ hp env 0 true _ (by omega) (by rwa [henter]),
    henter] at h
  dsimp only at h
  rw [hcount] at h
  refine ⟨ho, ?_⟩
  -- the position is saved in two places
  split at h
  · cases h
    exact ⟨rfl, hserved.offered, hserved.frames⟩
  · rw [if_pos rfl, hone] at h
    cases h
    exact ⟨rfl, hserved.offered, hserved.frames⟩

end Round

/-! ### Any number of batches -/

/-- While there is at most one group, the saved position denotes a source. -/
theorem resumeOk_oneGroup {p : BatchPolicy} (h : Reach step anyStep Constructed p) :
    p.WellKeyed ∧ (p.priorityList.length ≤ 1 → p.ResumeOk) := by
  refine h.invariant (I := fun p => p.WellKeyed ∧ (p.priorityList.length ≤ 1 → p.ResumeOk))
    (fun p hp => ⟨(resumeOk_new hp).1, fun _ => (resumeOk_new hp).2⟩) fun p c p' hI _ hs => ?_
  obtain ⟨hp, hr⟩ := hI
  cases c with
  | checkAndUpdateDefaults sourceId =>
    cases hs
    refine ⟨hp.checkAndUpdateDefaults sourceId, fun hone => ?_⟩
    by_cases hknown : ∃ e ∈ p.sources, e.2 = sourceId
    · have hsame : p.checkAndUpdateDefaults sourceId = p := if_pos (by simpa using hknown)
      rw [hsame] at hone ⊢
      exact hr hone
    · obtain ⟨-, hlist, -⟩ := checkAndUpdateDefaults_of_new hknown
      rw [hlist, sortedInsert_default hp.priorities_sorted] at hone
      by_cases hdefault : defaultSourceGroupPriority ∈ p.priorityList
      · rw [if_pos hdefault] at hone
        exact (resumeOk_checkAndUpdateDefaults hp (hr hone) sourceId).mpr (.inr (.inl hdefault))
      · -- a second group would be opened
        rw [if_neg hdefault, List.length_cons] at hone
        have hnil : p.priorityList = [] := List.length_eq_zero_iff.mp (by omega)
        exact (resumeOk_checkAndUpdateDefaults hp (hr (by rw [hnil]; exact Nat.zero_le _)) sourceId).mpr
          (.inr (.inr (.inl hnil)))
  | formBatch inputs batch thisBatchSize env =>
    have hnext := fun hr => resumeOk_step (c := .formBatch inputs batch thisBatchSize env) hp hr trivial hs
    obtain ⟨r, hform, rfl⟩ := Option.map_eq_some_iff.mp hs
    obtain ⟨-, saved, hsaved⟩ := formBatch_invariant (I := fun _ => True) (fun _ _ _ _ => trivial) trivial hform
    refine ⟨?_, fun hone => (hnext (hr ?_)).2⟩
    · rw [hsaved]
      exact hp
    · rwa [hsaved] at hone
  | updatePushStats sourceId =>
    cases hs
    unfold updatePushStats
    split
    · exact ⟨hp, hr⟩
    · exact ⟨hp, hr⟩
  | _ =>
    cases hs
    exact ⟨hp, hr⟩

/-- What holds of a policy that serves one group: the sources have had their turns, and
the saved position is that of the next one. -/
structure Fair (s : Serving) : Prop where
  keyed : s.policy.WellKeyed
  resume : s.policy.ResumeOk
  type : s.policy.config.type = .roundRobin
  oneGroup : s.policy.priorityList.length = 1
  order : ∃ o < (s.policy.groupAt 0).length, s.order = turns (s.policy.groupAt 0) o s.order.length ∧
    s.policy.lastBatchState.sourceMapPosition = (o + s.order.length) % (s.policy.groupAt 0).length
  taken : ∀ id, s.taken id = s.order.count id

/-- The policies that begin to serve one group round robin. -/
def Begins (s : Serving) : Prop :=
  Reach step anyStep Constructed s.policy ∧ s.policy.config.type = .roundRobin ∧
    s.policy.priorityList.length = 1 ∧ (∀ id, s.taken id = 0) ∧ s.order = []

theorem Begins.fair {s : Serving} (h : Begins s) : Fair s := by
  obtain ⟨hreach, htype, hone, htaken, horder⟩ := h
  obtain ⟨hp, hr⟩ := resumeOk_oneGroup hreach
  have hresume := hr hone.le
  have hne : s.policy.priorityList ≠ [] := List.length_pos_iff.mp (by omega)
  have hfirst : s.policy.firstPosition = 0 := by
    have := firstPosition_lt hresume hne
    omega
  have hpos := enterAt_lt hp hresume hne
  rw [hfirst, enterAt, if_pos ⟨rfl, htype⟩] at hpos
  refine ⟨hp, hresume, htype, hone, ⟨_, hpos, ?_, ?_⟩, fun id => ?_⟩
  · rw [horder]
    rfl
  · rw [horder, List.length_nil, Nat.add_zero, Nat.mod_eq_of_lt hpos]
  · rw [htaken, horder, List.count_nil]

/-- A batch goes on with the turns of the batches before. -/
theorem Fair.formBatch {s : Serving} (h : Fair s) {inputs : Inputs} {batch : Option Batch} {size : Fin (2 ^ 32)}
    {env : ℕ → OfferEnv} {r : BatchPolicy × FormState} (hok : s.policy.RoundOk (.formBatch inputs batch size env))
    (hform : s.policy.formBatch inputs batch size env = some r) :
    Fair ⟨r.1, fun id => s.taken id + framesOf r.2 id, s.order ++ r.2.offered⟩ := by
  obtain ⟨hpos, hpolicy, hoffered, hframes⟩ := formBatch_turns h.keyed h.resume h.type h.oneGroup hok hform
  obtain ⟨o, ho, horder, hnext⟩ := h.order
  have hlen : r.2.offered.length = min (s.policy.groupAt 0).length size := by
    rw [hoffered, length_turns _ hpos]
  have hgroup : r.1.groupAt 0 = s.policy.groupAt 0 := by rw [hpolicy]; rfl
  refine ⟨?_, .inr ?_, ?_, ?_, ⟨o, ?_, ?_, ?_⟩, fun id => ?_⟩
  · rw [hpolicy]
    exact h.keyed
  · rw [hpolicy]
    exact Nat.mod_lt _ (Nat.zero_lt_of_lt hpos)
  · rw [hpolicy]
    exact h.type
  · rw [hpolicy]
    exact h.oneGroup
  · rwa [hgroup]
  · show s.order ++ r.2.offered = turns (r.1.groupAt 0) o (s.order ++ r.2.offered).length
    rw [hgroup, List.length_append, turns_add _ _ ho, ← horder, ← hnext, hlen, hoffered]
  · show r.1.lastBatchState.sourceMapPosition = (o + (s.order ++ r.2.offered).length) % (r.1.groupAt 0).length
    rw [hgroup, hpolicy, List.length_append, hlen, ← Nat.add_assoc]
    dsimp only
    rw [hnext, Nat.mod_add_mod]
  · show s.taken id + framesOf r.2 id = (s.order ++ r.2.offered).count id
    rw [h.taken, hframes, ← hoffered, List.count_append]

theorem Fair.step {s s' : Serving} {c : Call} (h : Fair s) (hok : s.policy.RoundOk c) (hs : serve s c = some s') :
    Fair s' := by
  cases c with
  | formBatch inputs batch size env =>
    obtain ⟨r, hform, rfl⟩ := Option.map_eq_some_iff.mp hs
    exact h.formBatch hok hform
  | checkAndUpdateDefaults sourceId =>
    -- the source is known
    have hsame : s.policy.checkAndUpdateDefaults sourceId = s.policy := if_pos hok
    cases hs
    rwa [hsame]
  | updatePushStats sourceId =>
    cases hs
    unfold updatePushStats
    split
    · exact ⟨h.keyed, h.resume, h.type, h.oneGroup, h.order, h.taken⟩
    · exact h
  | _ =>
    cases hs
    exact ⟨h.keyed, h.resume, h.type, h.oneGroup, h.order, h.taken⟩

/-- **Round robin is fair.** In every sequence of batches formed while all sources are
in one group, are allowed one frame each and have one to give, the sources are served in
cyclic order continued from batch to batch, each frame that is taken being one turn, so that
the numbers of frames taken from two sources differ by at most one. -/
theorem roundRobin_fair {s : Serving} (h : Reach serve (fun s c => s.policy.RoundOk c) Begins s) :
    (∃ o, s.order = turns (s.policy.groupAt 0) o s.order.length) ∧ (∀ id, s.taken id = s.order.count id) ∧
      ∀ a ∈ s.policy.sources.map Prod.snd, ∀ b ∈ s.policy.sources.map Prod.snd, s.taken a ≤ s.taken b + 1 := by
  have hfair : Fair s := h.invariant (fun _ => Begins.fair) fun _ _ _ hI hok hs => hI.step hok hs
  obtain ⟨o, ho, horder, -⟩ := hfair.order
  obtain ⟨hnd, hmem, -, -⟩ := hfair.keyed.groupAt_zero hfair.oneGroup
  refine ⟨⟨o, horder⟩, hfair.taken, fun a ha b hb => ?_⟩
  rw [hfair.taken, hfair.taken, horder]
  exact count_turns_le hnd ((hmem a).mpr ha) ((hmem b).mpr hb) _ ho

/-- Two batches of two from three sources: the second begins with the third source. -/
def twoBatches : List Call :=
  [.formBatch (oneBufferEach [1, 2, 3]) none 2 noLimits, .updatePushStats 1, .updatePushStats 2,
    .formBatch (oneBufferEach [1, 2, 3]) none 2 noLimits]

theorem roundRobin_fair_threeSources : ∃ s, exec serve (fun s c => s.policy.RoundOk c)
    ⟨BatchPolicy.new threeSources [], fun _ => 0, []⟩ twoBatches = some s ∧ s.order = [1, 2, 3, 1] ∧
      ∀ a ∈ s.policy.sources.map Prod.snd, ∀ b ∈ s.policy.sources.map Prod.snd, s.taken a ≤ s.taken b + 1 := by
  have hbegins : Begins ⟨BatchPolicy.new threeSources [], fun _ => 0, []⟩ :=
    ⟨.init ⟨threeSources, [], rfl⟩, rfl, rfl, fun _ => rfl, rfl⟩
  have hrun : (exec serve (fun s c => s.policy.RoundOk c) ⟨BatchPolicy.new threeSources [], fun _ => 0, []⟩
      twoBatches).isSome := by decide +kernel
  obtain ⟨s, hs⟩ := Option.isSome_iff_exists.mp hrun
  have horder : (exec serve (fun s c => s.policy.RoundOk c) ⟨BatchPolicy.new threeSources [], fun _ => 0, []⟩
      twoBatches).map Serving.order = some [1, 2, 3, 1] := by decide +kernel
  rw [hs, Option.map_some, Option.some.injEq] at horder
  exact ⟨s, hs, horder, (roundRobin_fair (Reach.of_exec _ (.init hbegins) hs)).2.2⟩

end BatchPolicy
end Mux
end DeepStream
