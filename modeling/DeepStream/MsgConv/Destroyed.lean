/-
# The context is destroyed once

The steps of `stop`, `dispose` and `transform_ip` keep the invariant of the cleanup, and so
in every run whose steps meet `StepOk` the context is destroyed and the library closed
once, after all payloads, and the reference that `dispose` took is dropped once. Two
threads that free the last two payloads in turn destroy it twice.
-/
import DeepStream.MsgConv.Cleanup

namespace DeepStream
namespace MsgConv

variable {n : ℕ}

section Phases

variable {library : Bool} {s s' : State n}

/-! ### The other steps -/

/-- `dispose` leaves alone what the cleanup is about. -/
theorem State.Stage.congr {pc : CallPc} (h : s.Stage library pc) (hctx : s'.pCtx = s.pCtx)
    (hlib : s'.libHandle = s.libHandle) (hdestroyed : s'.destroyed = s.destroyed) (hclosed : s'.closed = s.closed)
    (hdropped : s'.dropped = s.dropped) (hkept : s.dispose = .kept → s'.dispose = .kept) : s'.Stage library pc := by
  have huntouched : s.Untouched library → s'.Untouched library := fun h =>
    ⟨hctx.trans h.pCtx, hlib.trans h.libHandle, hdestroyed.trans h.destroyed, hclosed.trans h.closed,
      hdropped.trans h.dropped⟩
  cases pc with
  | testCount => exact huntouched h
  | testStop => exact huntouched h
  | stopTestCount => exact huntouched h
  | clean c =>
    cases c with
    | testCtx => exact huntouched h
    | destroyCtx => exact huntouched h
    | clearCtx => exact ⟨hdestroyed.trans h.1, hlib.trans h.2.1, hclosed.trans h.2.2.1, hdropped.trans h.2.2.2⟩
    | testLib => exact ⟨hdestroyed.trans h.1, hlib.trans h.2.1, hclosed.trans h.2.2.1, hdropped.trans h.2.2.2⟩
    | closeLib => exact ⟨hdestroyed.trans h.1, h.2.1, hclosed.trans h.2.2.1, hdropped.trans h.2.2.2⟩
    | clearLib => exact ⟨hdestroyed.trans h.1, h.2.1, hclosed.trans h.2.2.1, hdropped.trans h.2.2.2⟩
    | testSelfRef => exact ⟨hdestroyed.trans h.1, hclosed.trans h.2.1, hdropped.trans h.2.2⟩
    | unref => exact ⟨hdestroyed.trans h.1, hclosed.trans h.2.1, hdropped.trans h.2.2.1, hkept h.2.2.2⟩
  | _ => exact h.elim

/-- `dispose` goes on, or the last reference is dropped. -/
theorem Inv.disposed (h : Inv library s) {pc : DisposePc} {taken : ℕ} {selfRef : Bool} (hkept : s.dispose ≠ .kept)
    (hcleaned : s.Cleaned library → taken = s.taken ∧ pc ≠ .ref ∧ pc ≠ .setSelfRef) :
    State.Before { s with dispose := pc, taken := taken, selfRef := selfRef } library ∨
      State.After { s with dispose := pc, taken := taken, selfRef := selfRef } library := by
  rcases h.phase with hbefore | hafter
  · have huntouched := hbefore.untouched
    exact .inl (hbefore.congr rfl id rfl
      ⟨huntouched.pCtx, huntouched.libHandle, huntouched.destroyed, huntouched.closed, huntouched.dropped⟩)
  · refine .inr ⟨hafter.stop, hafter.zero, hafter.transform, ?_⟩
    rcases hafter.clean with ⟨t, hothers, hstage⟩ | hclean
    · exact .inl ⟨t, hothers, hstage.congr rfl rfl rfl rfl rfl fun hpc => absurd hpc hkept⟩
    · obtain ⟨htaken, hpc⟩ := hcleaned hclean
      exact .inr ⟨hclean.threads, hclean.destroyed, hclean.closed, hclean.dropped.trans htaken.symm, hpc⟩

/-- `stop` sets its flag. -/
theorem Inv.setStop (h : Inv library s) (hstop : s.stop = false) (hok : StepOk s .stop) :
    ({ s with stop := true }.setThread none .stopTestCount : State n).Before library ∨
      ({ s with stop := true }.setThread none .stopTestCount : State n).After library := by
  have hbefore : s.Before library := by
    rcases h.phase with hbefore | hafter
    · exact hbefore
    · cases hstop.symm.trans hafter.stop
  have huntouched : State.Untouched ({ s with stop := true }.setThread none .stopTestCount) library :=
    ⟨hbefore.untouched.pCtx, hbefore.untouched.libHandle, hbefore.untouched.destroyed, hbefore.untouched.closed,
      hbefore.untouched.dropped⟩
  obtain ⟨htest, hzero⟩ := hok.stop rfl
  have hothers : ∀ a : Option (Fin n), a ≠ none →
      ({ s with stop := true }.setThread none .stopTestCount : State n).threads a = s.threads a := fun a ha =>
    Function.update_of_ne ha _ _
  by_cases hcount : s.numActivePayloads = 0
  · obtain ⟨htransform, hcountTest⟩ := hzero hcount
    have hstopTest : ∀ a, s.threads a ≠ .stopTestCount := fun a ha => by
      cases hstop.symm.trans (hbefore.stopSet a ha)
    refine .inr ⟨rfl, hcount, htransform, .inl ⟨none, fun a ha => ?_, ?_⟩⟩
    · rw [hothers a ha]
      exact h.core.alone hcount htransform (fun a _ => ⟨hcountTest a, hstopTest a, htest a⟩)
        (fun a _ c => hbefore.noClean a c) a ha
    · show State.Stage _ library (Function.update s.threads none .stopTestCount none)
      rw [Function.update_self]
      exact huntouched
  · refine .inl ⟨fun hlate => hcount hlate.2, huntouched, fun a c hpc => ?_, fun _ a hpc => ?_, fun _ _ => rfl⟩
    · by_cases ha : a = none
      · rw [ha] at hpc
        change Function.update s.threads none .stopTestCount none = _ at hpc
        rw [Function.update_self] at hpc
        cases hpc
      · rw [hothers a ha] at hpc
        exact hbefore.noClean a c hpc
    · by_cases ha : a = none
      · rw [ha] at hpc
        change Function.update s.threads none .stopTestCount none = _ at hpc
        rw [Function.update_self] at hpc
        cases hpc
      · rw [hothers a ha] at hpc
        exact htest a hpc

theorem State.Before.untouched_of_eq {s₁ : State n} (h : s.Before library) (hctx : s₁.pCtx = s.pCtx)
    (hlib : s₁.libHandle = s.libHandle) (hdestroyed : s₁.destroyed = s.destroyed) (hclosed : s₁.closed = s.closed)
    (hdropped : s₁.dropped = s.dropped) : s₁.Untouched library :=
  ⟨hctx.trans h.untouched.pCtx, hlib.trans h.untouched.libHandle, hdestroyed.trans h.untouched.destroyed,
    hclosed.trans h.untouched.closed, hdropped.trans h.untouched.dropped⟩

/-- As long as there is a payload, the context is not touched. -/
theorem Inv.before_of_mem (h : Inv library s) {p : ℕ} (hp : p ∈ s.metas) : s.Before library := by
  rcases h.phase with hbefore | hafter
  · exact hbefore
  · rw [(h.core.empty hafter.zero hafter.transform).1] at hp
    cases hp

/-- So it is while `transform` has one in hand. -/
theorem Inv.transformStep_before (h : Inv library s) {valid : Bool} (hok : StepOk s (.transform valid))
    (hs : s.transformStep valid = some s') : s'.Before library := by
  have hnonneg := h.core.nonneg
  have hbefore : s.transform ≠ .idle → s.Before library := fun ht => by
    rcases h.phase with hbefore | hafter
    · exact hbefore
    · exact absurd hafter.transform ht
  unfold State.transformStep at hs
  cases ht : s.transform with
  | idle =>
    rw [ht] at hs
    cases hs
  | generated p =>
    rw [ht] at hs
    cases hs
    have hbefore := hbefore (by rw [ht]; exact fun hpc => by cases hpc)
    refine hbefore.congr ?_ ?_ ?_ ?_
    · split <;> rfl
    · split <;> exact id
    · split <;> rfl
    · split <;> exact hbefore.untouched_of_eq rfl rfl rfl rfl rfl
  | attached p =>
    rw [ht] at hs
    cases hs
    have hbefore := hbefore (by rw [ht]; exact fun hpc => by cases hpc)
    have hsmall := hok.count (.inl ⟨valid, p, rfl, ht⟩)
    refine hbefore.congr rfl (fun hzero => ?_) rfl (hbefore.untouched_of_eq rfl rfl rfl rfl rfl)
    change gint (s.numActivePayloads + 1) = 0 at hzero
    rw [gint_of_mem (by omega) hsmall] at hzero
    omega

theorem Inv.disposeStep_phase (h : Inv library s) (hs : s.disposeStep = some s') :
    s'.Before library ∨ s'.After library := by
  unfold State.disposeStep at hs
  cases hdispose : s.dispose with
  | testCount =>
    rw [hdispose] at hs
    cases hs
    refine h.disposed (by rw [hdispose]; decide) fun hcleaned => ⟨rfl, ?_⟩
    by_cases hcount : s.numActivePayloads ≠ 0
    · cases (h.before hcount).untouched.destroyed.symm.trans hcleaned.destroyed
    · rw [if_neg hcount]
      decide
  | ref =>
    rw [hdispose] at hs
    cases hs
    exact h.disposed (by rw [hdispose]; decide) fun hcleaned => absurd hdispose hcleaned.dispose.1
  | setSelfRef =>
    rw [hdispose] at hs
    cases hs
    exact h.disposed (by rw [hdispose]; decide) fun hcleaned => absurd hdispose hcleaned.dispose.2
  | _ =>
    rw [hdispose] at hs
    cases hs

theorem Inv.phase_step {a : Action n} (h : Inv library s) (hok : StepOk s a) (hs : step s a = some s') :
    s'.Before library ∨ s'.After library := by
  unfold MsgConv.step at hs
  split at hs
  · cases hs
  · cases a with
    | generate p =>
      dsimp only at hs
      split at hs
      · cases hs
        rcases h.phase with hbefore | hafter
        · exact .inl (hbefore.congr rfl id rfl (hbefore.untouched_of_eq rfl rfl rfl rfl rfl))
        · exact absurd ⟨hafter.stop, hafter.zero⟩ (hok.generate p rfl)
      · cases hs
    | transform valid => exact .inl (h.transformStep_before hok hs)
    | copy t src =>
      dsimp only at hs
      split at hs
      · rename_i ht
        cases hs
        exact .inl ((h.before_of_mem ht.2).setThread (some t) (fun c hpc => by cases hpc) (fun _ hpc => by cases hpc)
          fun hpc => by cases hpc)
      · cases hs
    | dup t dup =>
      dsimp only at hs
      split at hs
      · rename_i src ht
        cases hs
        have hbefore := h.before_of_mem (h.core.source (some t) src (by rw [ht]; rfl))
        exact .inl (hbefore.setThread (some t) (fun c hpc => by cases hpc) (fun _ hpc => by cases hpc)
          fun hpc => by cases hpc)
      · cases hs
    | free t p =>
      dsimp only at hs
      split at hs
      · rename_i ht
        cases hs
        have hbefore := h.before_of_mem ht.2.1
        have herase : State.Before { s with metas := s.metas.erase p } library :=
          hbefore.congr rfl id rfl (hbefore.untouched_of_eq rfl rfl rfl rfl rfl)
        exact .inl (herase.setThread (some t) (fun c hpc => by cases hpc) (fun _ hpc => by cases hpc)
          fun hpc => by cases hpc)
      · cases hs
    | stop =>
      dsimp only at hs
      split at hs
      · rename_i ht
        cases hs
        exact h.setStop ht.1 hok
      · cases hs
    | call t =>
      rcases h.phase with hbefore | hafter
      · exact h.callStep_before hbefore hok hs
      · exact .inr (h.callStep_after hafter hok hs)
    | unref =>
      dsimp only at hs
      split at hs
      · rename_i hdispose
        cases hs
        exact h.disposed (by rw [hdispose]; decide) fun _ => ⟨rfl, by decide, by decide⟩
      · cases hs
    | dispose => exact h.disposeStep_phase hs

/-- Only calls, the last reference and `dispose` change what `dispose` is about, and only
calls release. -/
theorem step_frame {a : Action n} (hs : step s a = some s') (hcall : ∀ t, a ≠ .call t) (hunref : a ≠ .unref)
    (hdispose : a ≠ .dispose) : s'.dispose = s.dispose ∧ s'.taken = s.taken ∧ s'.selfRef = s.selfRef ∧
      s'.dropped = s.dropped ∧ s'.badRelease = s.badRelease := by
  unfold MsgConv.step at hs
  split at hs
  · cases hs
  · cases a with
    | generate p =>
      dsimp only at hs
      split at hs <;> cases hs
      exact ⟨rfl, rfl, rfl, rfl, rfl⟩
    | transform valid =>
      dsimp only at hs
      unfold State.transformStep at hs
      split at hs
      · cases hs
      · cases hs
        split <;> exact ⟨rfl, rfl, rfl, rfl, rfl⟩
      · cases hs
        exact ⟨rfl, rfl, rfl, rfl, rfl⟩
    | copy t src =>
      dsimp only at hs
      split at hs <;> cases hs
      exact ⟨rfl, rfl, rfl, rfl, rfl⟩
    | dup t dup =>
      dsimp only at hs
      split at hs <;> cases hs
      exact ⟨rfl, rfl, rfl, rfl, rfl⟩
    | free t p =>
      dsimp only at hs
      split at hs <;> cases hs
      exact ⟨rfl, rfl, rfl, rfl, rfl⟩
    | stop =>
      dsimp only at hs
      split at hs <;> cases hs
      exact ⟨rfl, rfl, rfl, rfl, rfl⟩
    | call t => exact absurd rfl (hcall t)
    | unref => exact absurd rfl hunref
    | dispose => exact absurd rfl hdispose

/-- A call changes nothing that `dispose` is about, but for the end of a cleanup. -/
theorem callStep_refOk {t : Option (Fin n)} (href : s.RefOk) (hstage : s.threads t = .clean .unref →
    s.dispose = .kept ∧ s.dropped = 0) (hs : s.callStep t = some s') : s'.RefOk := by
  have hsame : ∀ {s₁ : State n}, s₁.dispose = s.dispose → s₁.taken = s.taken → s₁.selfRef = s.selfRef →
      s₁.dropped = s.dropped → s₁.RefOk := fun hdispose htaken hself hdropped => by
    unfold State.RefOk
    rw [hdispose, htaken, hself, hdropped]
    exact href
  unfold State.callStep at hs
  cases ht : s.threads t with
  | clean pc =>
    rw [ht] at hs
    cases hs
    cases pc with
    | unref =>
      obtain ⟨hkept, hdropped⟩ := hstage ht
      unfold State.RefOk at href
      rw [hkept] at href
      exact .inr ⟨href.1, href.2, congrArg (· + 1) hdropped⟩
    | _ => exact hsame rfl rfl rfl rfl
  | _ =>
    rw [ht] at hs
    cases hs
    try exact hsame rfl rfl rfl rfl

theorem Inv.refOk_step {a : Action n} (h : Inv library s) (hs : step s a = some s') : s'.RefOk := by
  have href := h.refOk
  have hwhole := hs
  cases a with
  | call t =>
    unfold MsgConv.step at hs
    split at hs
    · cases hs
    · refine callStep_refOk href (fun ht => ?_) hs
      rcases h.phase with hbefore | hafter
      · exact absurd ht (hbefore.noClean t _)
      · rcases hafter.clean with ⟨a, hothers, hstage⟩ | hcleaned
        · have hta : t = a := by
            by_contra hne
            cases (hothers t hne).symm.trans ht
          rw [← hta, ht] at hstage
          exact ⟨hstage.2.2.2, hstage.2.2.1⟩
        · cases (hcleaned.threads t).symm.trans ht
  | unref =>
    unfold MsgConv.step at hs
    dsimp only at hs
    split at hs
    · cases hs
    · split at hs
      · rename_i hdispose
        cases hs
        unfold State.RefOk at href
        rw [hdispose] at href
        exact .inl href
      · cases hs
  | dispose =>
    unfold MsgConv.step at hs
    split at hs
    · cases hs
    · dsimp only at hs
      unfold State.disposeStep at hs
      unfold State.RefOk at href
      cases hdispose : s.dispose with
      | testCount =>
        rw [hdispose] at hs href
        cases hs
        by_cases hcount : s.numActivePayloads ≠ 0
        · -- the reference of an earlier `dispose` is dropped only when the counter is at zero
          rw [if_pos hcount]
          rcases href with hnone | ⟨-, -, hone⟩
          · exact hnone
          · cases (h.before hcount).untouched.dropped.symm.trans hone
        · rw [if_neg hcount]
          exact href
      | ref =>
        rw [hdispose] at hs href
        cases hs
        exact ⟨congrArg (· + 1) href.1, href.2⟩
      | setSelfRef =>
        rw [hdispose] at hs href
        cases hs
        exact ⟨href.1, rfl⟩
      | _ =>
        rw [hdispose] at hs
        cases hs
  | _ =>
    obtain ⟨hdispose, htaken, hself, hdropped, -⟩ := step_frame hwhole (fun _ h => by cases h) (fun h => by cases h)
      fun h => by cases h
    unfold State.RefOk
    rw [hdispose, htaken, hself, hdropped]
    exact href

/-- No payload is released with a destroyed context. -/
theorem Inv.release_step {a : Action n} (h : Inv library s) (hs : step s a = some s') : s'.badRelease = false := by
  have hrelease := h.release
  have hwhole := hs
  cases a with
  | call t =>
    unfold MsgConv.step at hs
    split at hs
    · cases hs
    · dsimp only at hs
      unfold State.callStep at hs
      cases ht : s.threads t with
      | releasing p =>
        rw [ht] at hs
        cases hs
        -- the payload is still counted
        have hcounted := s.counted_le_freed t
        rw [ht] at hcounted
        change (1 : ℤ) ≤ s.freed at hcounted
        have hmetas := h.core.uncounted_le
        have hcount := h.core.count
        have hdestroyed := (h.before (by omega)).untouched.destroyed
        show (s.badRelease || decide (s.destroyed ≠ 0)) = false
        rw [hrelease, hdestroyed]
        rfl
      | clean pc =>
        rw [ht] at hs
        cases hs
        cases pc <;> exact hrelease
      | _ =>
        rw [ht] at hs
        cases hs
        try exact hrelease
  | unref =>
    unfold MsgConv.step at hs
    dsimp only at hs
    split at hs
    · cases hs
    · split at hs <;> cases hs
      exact hrelease
  | dispose =>
    unfold MsgConv.step at hs
    split at hs
    · cases hs
    · dsimp only at hs
      unfold State.disposeStep at hs
      split at hs <;> cases hs <;> exact hrelease
  | _ =>
    obtain ⟨-, -, -, -, hsame⟩ := step_frame hwhole (fun _ h => by cases h) (fun h => by cases h) fun h => by cases h
    exact hsame.trans hrelease

/-- The element is finalized only when no call is under way. -/
theorem Inv.finalized_step {a : Action n} (hok : StepOk s a) (hs : step s a = some s')
    (hfinalized : s'.dispose = .finalized) : s'.transform = .idle ∧ ∀ t, s'.threads t = .idle := by
  have hwhole := hs
  have hnot : s.dispose ≠ .finalized := fun hpc => by
    unfold MsgConv.step at hs
    rw [if_pos hpc] at hs
    cases hs
  cases a with
  | call t =>
    exfalso
    unfold MsgConv.step at hs
    rw [if_neg hnot] at hs
    dsimp only at hs
    unfold State.callStep at hs
    cases ht : s.threads t with
    | clean pc =>
      rw [ht] at hs
      cases hs
      cases pc with
      | unref => cases hfinalized
      | _ => exact hnot hfinalized
    | _ =>
      rw [ht] at hs
      cases hs
      try exact hnot hfinalized
  | unref =>
    exfalso
    unfold MsgConv.step at hs
    rw [if_neg hnot] at hs
    dsimp only at hs
    split at hs <;> cases hs
    cases hfinalized
  | dispose =>
    unfold MsgConv.step at hs
    rw [if_neg hnot] at hs
    dsimp only at hs
    unfold State.disposeStep at hs
    cases hdispose : s.dispose with
    | testCount =>
      rw [hdispose] at hs
      cases hs
      by_cases hcount : s.numActivePayloads ≠ 0
      · rw [if_pos hcount] at hfinalized
        cases hfinalized
      · exact hok.dispose rfl hdispose (not_not.mp hcount)
    | ref =>
      rw [hdispose] at hs
      cases hs
      cases hfinalized
    | setSelfRef =>
      rw [hdispose] at hs
      cases hs
      cases hfinalized
    | _ =>
      rw [hdispose] at hs
      cases hs
  | _ =>
    obtain ⟨hsame, -⟩ := step_frame hwhole (fun _ h => by cases h) (fun h => by cases h) fun h => by cases h
    exact absurd (hsame.symm.trans hfinalized) hnot

theorem Inv.step {a : Action n} (h : Inv library s) (hok : StepOk s a) (hs : step s a = some s') : Inv library s' where
  core := h.core.step hok hs
  phase := h.phase_step hok hs
  refOk := h.refOk_step hs
  release := h.release_step hs
  finalized := Inv.finalized_step hok hs

/-! ### What is wanted -/

theorem State.After.released (h : s.After library) (hcore : Core s) : s.AllReleased := by
  obtain ⟨hmetas, hthreads⟩ := hcore.empty h.zero h.transform
  refine ⟨hmetas, hcore.lost, by rw [h.transform]; rfl, fun t => ?_⟩
  exact CallPc.payload_eq_none (hthreads t).1 (hthreads t).2

/-- How much of the cleanup is done. -/
theorem State.After.done (h : s.After library) : s.destroyed ≤ 1 ∧ s.closed ≤ 1 ∧ (s.dropped = 0 ∨ s.dropped = s.taken) := by
  rcases h.clean with ⟨t, -, hstage⟩ | hcleaned
  · have huntouched : s.Untouched library → s.destroyed ≤ 1 ∧ s.closed ≤ 1 ∧ (s.dropped = 0 ∨ s.dropped = s.taken) :=
      fun h => ⟨by rw [h.destroyed]; decide, by rw [h.closed]; decide, .inl h.dropped⟩
    have hbool : library.toNat ≤ 1 := Bool.toNat_le library
    cases ht : s.threads t with
    | testCount =>
      rw [ht] at hstage
      exact huntouched hstage
    | testStop =>
      rw [ht] at hstage
      exact huntouched hstage
    | stopTestCount =>
      rw [ht] at hstage
      exact huntouched hstage
    | clean c =>
      rw [ht] at hstage
      cases c with
      | testCtx => exact huntouched hstage
      | destroyCtx => exact huntouched hstage
      | clearCtx => exact ⟨hstage.1.le, by rw [hstage.2.2.1]; decide, .inl hstage.2.2.2⟩
      | testLib => exact ⟨hstage.1.le, by rw [hstage.2.2.1]; decide, .inl hstage.2.2.2⟩
      | closeLib => exact ⟨hstage.1.le, by rw [hstage.2.2.1]; decide, .inl hstage.2.2.2⟩
      | clearLib => exact ⟨hstage.1.le, hstage.2.2.1.le, .inl hstage.2.2.2⟩
      | testSelfRef => exact ⟨hstage.1.le, hstage.2.1.trans_le hbool, .inl hstage.2.2⟩
      | unref => exact ⟨hstage.1.le, hstage.2.1.trans_le hbool, .inl hstage.2.2.1⟩
    | _ =>
      rw [ht] at hstage
      exact hstage.elim
  · exact ⟨hcleaned.destroyed.le, hcleaned.closed.trans_le (Bool.toNat_le library), .inr hcleaned.dropped⟩

theorem State.RefOk.taken_le (h : s.RefOk) : s.taken ≤ 1 := by
  unfold State.RefOk at h
  split at h
  · exact h.1.trans_le (Nat.zero_le 1)
  · exact h.1.trans_le (Nat.zero_le 1)
  · exact h.1.le
  · exact h.1.le
  · rcases h with h | h
    · exact h.1.trans_le (Nat.zero_le 1)
    · exact h.1.le
  · rcases h with h | h
    · exact h.1.trans_le (Nat.zero_le 1)
    · exact h.1.le

/-- When everything has come to rest the counter is at zero. -/
theorem Core.zero_of_quiet (h : Core s) (hquiet : s.Quiet) : s.numActivePayloads = 0 := by
  have hfreed : s.freed = 0 := Finset.sum_eq_zero fun t _ => by
    rw [hquiet.threads t]
    rfl
  have huncounted : s.transform.uncounted = 0 := by
    have hpayload := hquiet.released.transform
    cases ht : s.transform with
    | attached p =>
      rw [ht] at hpayload
      cases hpayload
    | _ => rfl
  rw [h.count, hquiet.released.metas, hfreed, huncounted]
  rfl

theorem Inv.good (h : Inv library s) : s.Good library where
  nonneg := h.core.nonneg
  destroyed := by
    rcases h.phase with hbefore | hafter
    · rw [hbefore.untouched.destroyed]
      decide
    · exact hafter.done.1
  closed := by
    rcases h.phase with hbefore | hafter
    · rw [hbefore.untouched.closed]
      decide
    · exact hafter.done.2.1
  released := fun hdone => by
    rcases h.phase with hbefore | hafter
    · rcases hdone with hdone | hdone
      · exact absurd hbefore.untouched.destroyed hdone
      · exact absurd hbefore.untouched.closed hdone
    · exact hafter.released h.core
  release := h.release
  dropped := by
    refine ⟨?_, h.refOk.taken_le⟩
    rcases h.phase with hbefore | hafter
    · rw [hbefore.untouched.dropped]
      exact Nat.zero_le _
    · rcases hafter.done.2.2 with hzero | hsame
      · rw [hzero]
        exact Nat.zero_le _
      · exact hsame.le
  finalized := h.finalized
  quiet := fun hquiet => by
    rcases h.phase with hbefore | hafter
    · exact absurd ⟨hquiet.stop, h.core.zero_of_quiet hquiet⟩ hbefore.early
    · rcases hafter.clean with ⟨t, -, hstage⟩ | hcleaned
      · rw [hquiet.threads t] at hstage
        exact hstage.elim
      · exact ⟨hcleaned.destroyed, hcleaned.closed, hcleaned.dropped⟩

/-- **The context is destroyed once, after all payloads.** In every run in which the
decrements, the flag and their tests are not interleaved in the ways that `StepOk` names,
the counter is never below zero, the context is destroyed and the library closed at most
once and only after every payload has been released, none is released with a destroyed
context, and the reference that `dispose` took is dropped at most once; when all has come
to rest, each of these has been done. -/
theorem good_of_reach (h : Reach step StepOk (· = start n library) s) : s.Good library :=
  (h.invariant (fun _ h0 => h0 ▸ inv_start n library) fun _ _ _ hinv hok hs => hinv.step hok hs : Inv library s).good

end Phases

/-! ### Runs -/

/-- The condition on a step as a test. -/
def State.allowed (s : State n) : Action n → Bool
  | .generate _ => decide (¬ (s.stop = true ∧ s.numActivePayloads = 0))
  | .transform valid =>
    match s.transform with
    | .idle => true
    | .generated _ => valid
    | .attached _ => decide (s.numActivePayloads + 1 < 2 ^ 31)
  | .copy _ p => decide (s.transform ≠ .attached p)
  | .dup _ _ => true
  | .free _ p => decide (s.transform ≠ .attached p)
  | .stop => decide ((∀ t, s.threads t ≠ .testStop) ∧
      (s.numActivePayloads = 0 → s.transform = .idle ∧ ∀ t, s.threads t ≠ .testCount))
  | .call t =>
    match s.threads t with
    | .copyCounting _ _ => decide (s.numActivePayloads + 1 < 2 ^ 31)
    | .decrementing => decide (s.stop = true → s.numActivePayloads = 1 → s.transform = .idle ∧
        ∀ t', t' ≠ t → s.threads t' ≠ .testCount ∧ s.threads t' ≠ .stopTestCount)
    | .clean .testSelfRef => decide (s.dispose ≠ .ref ∧ s.dispose ≠ .setSelfRef)
    | _ => true
  | .unref => true
  | .dispose => decide (s.dispose = .testCount → s.numActivePayloads = 0 →
      s.transform = .idle ∧ ∀ t, s.threads t = .idle)

theorem stepOk_of_allowed {s : State n} {a : Action n} (h : s.allowed a = true) : StepOk s a := by
  unfold State.allowed at h
  constructor
  · rintro p rfl
    exact of_decide_eq_true h
  · rintro p rfl hp
    simp [hp] at h
  · rintro t p rfl
    exact of_decide_eq_true h
  · rintro t p rfl
    exact of_decide_eq_true h
  · rintro (⟨valid, p, rfl, hp⟩ | ⟨t, src, dup, rfl, ht⟩)
    · simpa [hp] using h
    · simpa [ht] using h
  · rintro t rfl ht
    dsimp only at h
    rw [ht] at h
    exact of_decide_eq_true h
  · rintro rfl
    exact of_decide_eq_true h
  · rintro t rfl ht
    dsimp only at h
    rw [ht] at h
    exact of_decide_eq_true h
  · rintro rfl
    exact of_decide_eq_true h

/-- The two threads of the runs below. -/
def first : Fin 2 := ⟨0, Nat.two_pos⟩

def second : Fin 2 := ⟨1, Nat.one_lt_two⟩

/-- Two payloads, one of them copied, are freed after `stop` and `dispose`, one after the
other. -/
def oneByOne : List (Action 2) :=
  [.generate 0, .transform true, .transform true, .generate 1, .transform true, .transform true, .copy first 0,
    .dup first 2, .call (some first), .free first 0, .call (some first), .call (some first),
    .call (some first), .stop, .call none, .unref, .dispose, .dispose, .dispose, .free first 1, .free second 2,
    .call (some first), .call (some second), .call (some first), .call (some first), .call (some second),
    .call (some second), .call (some second), .call (some second), .call (some second), .call (some second),
    .call (some second), .call (some second), .call (some second), .call (some second), .call (some second),
    .dispose]

/-- Everything is cleaned up, and the element finalized. -/
theorem good_of_reach_oneByOne : ∃ s : State 2, exec step (fun s a => s.allowed a = true) (start 2 true) oneByOne = some s ∧
    s.dispose = .finalized ∧ s.destroyed = 1 ∧ s.closed = 1 ∧ s.dropped = 1 ∧ s.Good true := by
  have hrun : (exec step (fun s a => s.allowed a = true) (start 2 true) oneByOne).map
      (fun s => (s.dispose, s.destroyed, s.closed, s.dropped)) = some (.finalized, 1, 1, 1) := by decide +kernel
  obtain ⟨s, hs, heq⟩ := Option.map_eq_some_iff.mp hrun
  obtain ⟨hdispose, hrest⟩ := Prod.mk.inj heq
  obtain ⟨hdestroyed, hrest⟩ := Prod.mk.inj hrest
  obtain ⟨hclosed, hdropped⟩ := Prod.mk.inj hrest
  have hstart : Reach step (fun s a => s.allowed a = true) (· = start 2 true) (start 2 true) := .init rfl
  have hreach := (Reach.of_exec oneByOne hstart hs).mono (fun _ _ h => stepOk_of_allowed h) fun _ h => h
  exact ⟨s, hs, hdispose, hdestroyed, hclosed, hdropped, good_of_reach hreach⟩

/-- Two payloads are freed by two threads after `stop`, step by step in turn. -/
def inTurn : List (Action 2) :=
  [.generate 0, .transform true, .transform true, .generate 1, .transform true, .transform true, .stop,
    .call none, .free first 0, .free second 1, .call (some first), .call (some second), .call (some first),
    .call (some second), .call (some first), .call (some second), .call (some first), .call (some second),
    .call (some first), .call (some second), .call (some first), .call (some second)]

/-- Both find the counter at zero, and the context is destroyed twice. -/
theorem destroyed_twice : ¬ ∀ n library (s : State n), Reach step anyStep (· = start n library) s → s.Good library := by
  intro hall
  have hrun : (exec step anyStep (start 2 true) inTurn).map (fun s => s.destroyed) = some 2 := by decide +kernel
  obtain ⟨s, hs, hdestroyed⟩ := Option.map_eq_some_iff.mp hrun
  have hstart : Reach step anyStep (· = start 2 true) (start 2 true) := .init rfl
  have hle := (hall 2 true s (Reach.of_exec inTurn hstart hs)).destroyed
  rw [hdestroyed] at hle
  exact absurd hle (by decide)

end MsgConv
end DeepStream
