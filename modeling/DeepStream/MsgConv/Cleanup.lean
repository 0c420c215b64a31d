/-
# The cleanup of gst-nvmsgconv

Until `stop` has set its flag and the counter is at zero the context is not touched
(`State.Before`). From then on one thread at most has a call under way, which makes the
cleanup and finds everything as it was (`State.After`, with what is left to do in
`State.Stage`): that is what `StepOk` asks for, and where a decrement, the test of the
counter and the test of the flag are interleaved with those of another thread, two threads
clean up.
-/
import DeepStream.MsgConv.Counter

namespace DeepStream
namespace MsgConv

variable {n : ℕ}

/-! ### Before and after the payloads are gone -/

namespace State

variable (s : State n)

/-- Nothing has been cleaned up. -/
structure Untouched (library : Bool) : Prop where
  pCtx : s.pCtx = true
  libHandle : s.libHandle = library
  destroyed : s.destroyed = 0
  closed : s.closed = 0
  dropped : s.dropped = 0

/-- The flag is not set or payloads are counted, and nobody has decided to clean up. -/
structure Before (library : Bool) : Prop where
  early : ¬ (s.stop = true ∧ s.numActivePayloads = 0)
  untouched : s.Untouched library
  noClean : ∀ t pc, s.threads t ≠ .clean pc
  noTest : s.stop = true → ∀ t, s.threads t ≠ .testStop
  stopSet : ∀ t, s.threads t = .stopTestCount → s.stop = true

/-- What is left to do for the thread that cleans up, by where it is. -/
def Stage (library : Bool) : CallPc → Prop
  | .testCount | .testStop | .stopTestCount | .clean .testCtx | .clean .destroyCtx => s.Untouched library
  | .clean .clearCtx | .clean .testLib => s.destroyed = 1 ∧ s.libHandle = library ∧ s.closed = 0 ∧ s.dropped = 0
  | .clean .closeLib => s.destroyed = 1 ∧ library = true ∧ s.closed = 0 ∧ s.dropped = 0
  | .clean .clearLib => s.destroyed = 1 ∧ library = true ∧ s.closed = 1 ∧ s.dropped = 0
  | .clean .testSelfRef => s.destroyed = 1 ∧ s.closed = library.toNat ∧ s.dropped = 0
  | .clean .unref => s.destroyed = 1 ∧ s.closed = library.toNat ∧ s.dropped = 0 ∧ s.dispose = .kept
  | _ => False

/-- One thread has the cleanup before it or is in it, and no other call is under way. -/
def Cleaning (library : Bool) : Prop :=
  ∃ t, (∀ t', t' ≠ t → s.threads t' = .idle) ∧ s.Stage library (s.threads t)

structure Cleaned (library : Bool) : Prop where
  threads : ∀ t, s.threads t = .idle
  destroyed : s.destroyed = 1
  closed : s.closed = library.toNat
  dropped : s.dropped = s.taken
  dispose : s.dispose ≠ .ref ∧ s.dispose ≠ .setSelfRef

/-- The flag is set and no payload is counted. -/
structure After (library : Bool) : Prop where
  stop : s.stop = true
  zero : s.numActivePayloads = 0
  transform : s.transform = .idle
  clean : s.Cleaning library ∨ s.Cleaned library

/-- What `dispose` has done. -/
def RefOk : Prop :=
  match s.dispose with
  | .notCalled | .ref => s.taken = 0 ∧ s.selfRef = false
  | .setSelfRef => s.taken = 1 ∧ s.selfRef = false
  | .kept => s.taken = 1 ∧ s.selfRef = true
  | .testCount | .finalized => s.taken = 0 ∧ s.selfRef = false ∨ s.taken = 1 ∧ s.selfRef = true ∧ s.dropped = 1

end State

structure Inv (library : Bool) (s : State n) : Prop where
  core : Core s
  phase : s.Before library ∨ s.After library
  refOk : s.RefOk
  release : s.badRelease = false
  finalized : s.dispose = .finalized → s.transform = .idle ∧ ∀ t, s.threads t = .idle

section Phases

variable {library : Bool} {s s' : State n}

theorem inv_start (n : ℕ) (library : Bool) : Inv library (start n library) where
  core := core_start n library
  phase := .inl ⟨fun h => (by cases h.1), ⟨rfl, rfl, rfl, rfl, rfl⟩, fun _ _ h => (by cases h), fun h => (by cases h),
    fun _ h => by cases h⟩
  refOk := ⟨rfl, rfl⟩
  release := rfl
  finalized := fun h => by cases h

/-- A thread that is neither freeing nor copying has no payload. -/
theorem CallPc.payload_eq_none {pc : CallPc} (hcounted : pc.counted = 0) (hsource : pc.source = none) :
    pc.payload = none := by
  cases pc with
  | copyCounting src dup => cases hsource
  | releasing p => exact absurd hcounted one_ne_zero
  | _ => rfl

/-- While payloads are counted, nothing has been cleaned up. -/
theorem Inv.before (h : Inv library s) (hcount : s.numActivePayloads ≠ 0) : s.Before library := by
  rcases h.phase with hbefore | hafter
  · exact hbefore
  · exact absurd hafter.zero hcount

theorem State.Before.setThread (h : s.Before library) (t : Option (Fin n)) {pc : CallPc} (hclean : ∀ c, pc ≠ .clean c)
    (htest : s.stop = true → pc ≠ .testStop) (hstop : pc = .stopTestCount → s.stop = true) :
    (s.setThread t pc).Before library where
  early := h.early
  untouched := ⟨h.untouched.pCtx, h.untouched.libHandle, h.untouched.destroyed, h.untouched.closed, h.untouched.dropped⟩
  noClean := fun a c => by
    show Function.update s.threads t pc a ≠ _
    by_cases ha : a = t
    · rw [ha, Function.update_self]
      exact hclean c
    · rw [Function.update_of_ne ha]
      exact h.noClean a c
  noTest := fun hset a => by
    show Function.update s.threads t pc a ≠ _
    by_cases ha : a = t
    · rw [ha, Function.update_self]
      exact htest hset
    · rw [Function.update_of_ne ha]
      exact h.noTest hset a
  stopSet := fun a hpc => by
    change Function.update s.threads t pc a = _ at hpc
    by_cases ha : a = t
    · rw [ha, Function.update_self] at hpc
      exact hstop hpc
    · rw [Function.update_of_ne ha] at hpc
      exact h.stopSet a hpc

/-- Nothing changes that `Before` is about, and the counter comes up from no less than zero. -/
theorem State.Before.congr (h : s.Before library) (hstop : s'.stop = s.stop)
    (hcount : s'.numActivePayloads = 0 → s.numActivePayloads = 0) (hthreads : s'.threads = s.threads)
    (huntouched : s'.Untouched library) : s'.Before library where
  early := fun hlate => h.early ⟨hstop ▸ hlate.1, hcount hlate.2⟩
  untouched := huntouched
  noClean := by
    rw [hthreads]
    exact h.noClean
  noTest := by
    rw [hthreads, hstop]
    exact h.noTest
  stopSet := by
    rw [hthreads, hstop]
    exact h.stopSet

theorem CallPc.eq_idle {pc : CallPc} (hcounted : pc.counted = 0) (hsource : pc.source = none)
    (htest : pc ≠ .testCount ∧ pc ≠ .stopTestCount ∧ pc ≠ .testStop) (hclean : ∀ c, pc ≠ .clean c) : pc = .idle := by
  cases pc with
  | idle => rfl
  | copying src => cases hsource
  | copyCounting src dup => cases hsource
  | releasing p => exact absurd hcounted one_ne_zero
  | decrementing => exact absurd hcounted one_ne_zero
  | testCount => exact absurd rfl htest.1
  | testStop => exact absurd rfl htest.2.2
  | stopTestCount => exact absurd rfl htest.2.1
  | clean c => exact absurd rfl (hclean c)

/-- The payloads are gone, and `t` is the only thread that will read the counter: no other
call is under way. -/
theorem Core.alone {t : Option (Fin n)} (h : Core s) (hzero : s.numActivePayloads = 0) (htransform : s.transform = .idle)
    (htest : ∀ a, a ≠ t → s.threads a ≠ .testCount ∧ s.threads a ≠ .stopTestCount ∧ s.threads a ≠ .testStop)
    (hclean : ∀ a, a ≠ t → ∀ c, s.threads a ≠ .clean c) (a : Option (Fin n)) (ha : a ≠ t) : s.threads a = .idle := by
  obtain ⟨-, hthreads⟩ := h.empty hzero htransform
  exact CallPc.eq_idle (hthreads a).1 (hthreads a).2 (htest a ha) (hclean a ha)

theorem State.Untouched.setThread (h : s.Untouched library) (t : Option (Fin n)) (pc : CallPc) :
    (s.setThread t pc).Untouched library := ⟨h.pCtx, h.libHandle, h.destroyed, h.closed, h.dropped⟩

/-! ### A call before the payloads are gone -/

theorem Inv.callStep_before (h : Inv library s) (hbefore : s.Before library) {t : Option (Fin n)}
    (hok : StepOk s (.call t)) (hs : s.callStep t = some s') : s'.Before library ∨ s'.After library := by
  have hnonneg := h.core.nonneg
  have hbounded := h.core.bounded
  have huntouched := hbefore.untouched
  have hcore := h.core.callStep hok hs
  have hidle : ∀ {s₁ : State n}, s₁.Before library → (s₁.setThread t .idle).Before library := fun h₁ =>
    h₁.setThread t (fun c hpc => by cases hpc) (fun _ hpc => by cases hpc) fun hpc => by cases hpc
  unfold State.callStep at hs
  cases ht : s.threads t with
  | idle =>
    rw [ht] at hs
    cases hs
  | copying src =>
    rw [ht] at hs
    cases hs
  | copyCounting src dup =>
    rw [ht] at hs
    cases hs
    have hsmall := hok.count (.inr ⟨t, src, dup, rfl, ht⟩)
    refine .inl (hidle (hbefore.congr rfl (fun hzero => ?_) rfl
      ⟨huntouched.pCtx, huntouched.libHandle, huntouched.destroyed, huntouched.closed, huntouched.dropped⟩))
    change gint (s.numActivePayloads + 1) = 0 at hzero
    rw [gint_of_mem (by omega) hsmall] at hzero
    omega
  | releasing p =>
    rw [ht] at hs
    cases hs
    have hflag : State.Before { s with badRelease := s.badRelease || decide (s.destroyed ≠ 0) } library :=
      hbefore.congr rfl id rfl
        ⟨huntouched.pCtx, huntouched.libHandle, huntouched.destroyed, huntouched.closed, huntouched.dropped⟩
    exact .inl (hflag.setThread t (fun c hpc => by cases hpc) (fun _ hpc => by cases hpc) fun hpc => by cases hpc)
  | decrementing =>
    rw [ht] at hs
    cases hs
    have hdown : gint (s.numActivePayloads - 1) = s.numActivePayloads - 1 := gint_of_mem (by omega) (by omega)
    have hzero : (s.dec.setThread t .testCount).numActivePayloads = s.numActivePayloads - 1 := hdown
    by_cases hlast : s.stop = true ∧ s.numActivePayloads = 1
    · -- the last payload, and the flag is set
      obtain ⟨htransform, hothers⟩ := hok.decrement t rfl ht hlast.1 hlast.2
      have hthreads : ∀ a, a ≠ t → (s.dec.setThread t .testCount).threads a = s.threads a := fun a ha =>
        Function.update_of_ne ha _ _
      have hnow : (s.dec.setThread t .testCount).numActivePayloads = 0 := by
        rw [hzero, hlast.2]
        rfl
      refine .inr ⟨hlast.1, hnow, htransform, .inl ⟨t, hcore.alone hnow htransform (fun a ha => ?_) (fun a ha c => ?_), ?_⟩⟩
      · rw [hthreads a ha]
        exact ⟨(hothers a ha).1, (hothers a ha).2, hbefore.noTest hlast.1 a⟩
      · rw [hthreads a ha]
        exact hbefore.noClean a c
      · show State.Stage _ library (Function.update s.threads t .testCount t)
        rw [Function.update_self]
        exact ⟨huntouched.pCtx, huntouched.libHandle, huntouched.destroyed, huntouched.closed, huntouched.dropped⟩
    · refine .inl ⟨fun hlate => hlast ⟨hlate.1, ?_⟩, ?_, ?_, ?_, ?_⟩
      · have hlate := hlate.2
        rw [hzero] at hlate
        omega
      · exact ⟨huntouched.pCtx, huntouched.libHandle, huntouched.destroyed, huntouched.closed, huntouched.dropped⟩
      all_goals
        have hmoved : (State.setThread _ t .testCount).Before library :=
          hbefore.setThread t (fun c hpc => by cases hpc) (fun _ hpc => by cases hpc) fun hpc => by cases hpc
      · exact hmoved.noClean
      · exact hmoved.noTest
      · exact hmoved.stopSet
  | testCount =>
    rw [ht] at hs
    cases hs
    by_cases hzero : s.numActivePayloads = 0
    · rw [if_pos hzero]
      exact .inl (hbefore.setThread t (fun c hpc => by cases hpc) (fun hset => absurd ⟨hset, hzero⟩ hbefore.early)
        fun hpc => by cases hpc)
    · rw [if_neg hzero]
      exact .inl (hidle hbefore)
  | testStop =>
    rw [ht] at hs
    cases hs
    rw [if_neg fun hset => hbefore.noTest hset t ht]
    exact .inl (hidle hbefore)
  | stopTestCount =>
    rw [ht] at hs
    cases hs
    rw [if_neg fun hzero => hbefore.early ⟨hbefore.stopSet t ht, hzero⟩]
    exact .inl (hidle hbefore)
  | clean pc => exact absurd ht (hbefore.noClean t pc)

/-! ### The cleanup -/

/-- The thread that cleans up goes on. -/
theorem cleaning_setThread {t : Option (Fin n)} {pc : CallPc} (hothers : ∀ a, a ≠ t → s.threads a = .idle)
    (hstage : (s.setThread t pc).Stage library pc) : (s.setThread t pc).Cleaning library := by
  refine ⟨t, fun a ha => (Function.update_of_ne ha _ _).trans (hothers a ha), ?_⟩
  show State.Stage _ library (Function.update s.threads t pc t)
  rwa [Function.update_self]

/-- The thread that cleans up returns. -/
theorem idle_setThread {t : Option (Fin n)} (hothers : ∀ a, a ≠ t → s.threads a = .idle) (a : Option (Fin n)) :
    (s.setThread t .idle).threads a = .idle := by
  show Function.update s.threads t .idle a = .idle
  by_cases ha : a = t
  · rw [ha, Function.update_self]
  · rw [Function.update_of_ne ha]
    exact hothers a ha

/-- Where `dispose` is not about to set `selfRef`, it says whether there is a reference to
drop. -/
theorem State.RefOk.settled (h : s.RefOk) (hdropped : s.dropped = 0) (hdispose : s.dispose ≠ .ref ∧ s.dispose ≠ .setSelfRef) :
    s.selfRef = true ∧ s.dispose = .kept ∨ s.selfRef = false ∧ s.taken = 0 := by
  unfold State.RefOk at h
  have hnone : s.taken = 0 ∧ s.selfRef = false ∨ s.taken = 1 ∧ s.selfRef = true ∧ s.dropped = 1 →
      s.selfRef = false ∧ s.taken = 0 := fun h => by
    rcases h with ⟨htaken, hself⟩ | ⟨-, -, hone⟩
    · exact ⟨hself, htaken⟩
    · cases hone.symm.trans hdropped
  cases hd : s.dispose with
  | kept =>
    rw [hd] at h
    exact .inl ⟨h.2, rfl⟩
  | ref => exact absurd hd hdispose.1
  | setSelfRef => exact absurd hd hdispose.2
  | notCalled =>
    rw [hd] at h
    exact .inr ⟨h.2, h.1⟩
  | testCount =>
    rw [hd] at h
    exact .inr (hnone h)
  | finalized =>
    rw [hd] at h
    exact .inr (hnone h)

theorem Inv.cleanStep (h : Inv library s) {t : Option (Fin n)} {pc : CleanPc} (ht : s.threads t = .clean pc)
    (hothers : ∀ a, a ≠ t → s.threads a = .idle) (hstage : s.Stage library (.clean pc)) (hok : StepOk s (.call t)) :
    (s.cleanStep t pc).Cleaning library ∨ (s.cleanStep t pc).Cleaned library := by
  cases pc with
  | testCtx =>
    refine .inl (cleaning_setThread hothers ?_)
    rw [if_pos hstage.pCtx]
    exact ⟨hstage.pCtx, hstage.libHandle, hstage.destroyed, hstage.closed, hstage.dropped⟩
  | destroyCtx =>
    refine .inl (cleaning_setThread hothers ?_)
    exact ⟨congrArg (· + 1) hstage.destroyed, hstage.libHandle, hstage.closed, hstage.dropped⟩
  | clearCtx => exact .inl (cleaning_setThread hothers hstage)
  | testLib =>
    obtain ⟨hdestroyed, hlib, hclosed, hdropped⟩ := hstage
    refine .inl (cleaning_setThread hothers ?_)
    rw [hlib]
    cases library with
    | true => exact ⟨hdestroyed, rfl, hclosed, hdropped⟩
    | false => exact ⟨hdestroyed, hclosed, hdropped⟩
  | closeLib =>
    obtain ⟨hdestroyed, hlibrary, hclosed, hdropped⟩ := hstage
    exact .inl (cleaning_setThread hothers ⟨hdestroyed, hlibrary, congrArg (· + 1) hclosed, hdropped⟩)
  | clearLib =>
    obtain ⟨hdestroyed, hlibrary, hclosed, hdropped⟩ := hstage
    refine .inl (cleaning_setThread hothers ⟨hdestroyed, ?_, hdropped⟩)
    rw [hlibrary]
    exact hclosed
  | testSelfRef =>
    obtain ⟨hdestroyed, hclosed, hdropped⟩ := hstage
    have hdispose := hok.selfRef t rfl ht
    unfold State.cleanStep
    dsimp only
    rcases h.refOk.settled hdropped hdispose with ⟨hself, hkept⟩ | ⟨hself, htaken⟩
    · rw [if_pos hself]
      exact .inl (cleaning_setThread hothers ⟨hdestroyed, hclosed, hdropped, hkept⟩)
    · rw [if_neg (by rw [hself]; exact Bool.false_ne_true)]
      exact .inr ⟨idle_setThread hothers, hdestroyed, hclosed, hdropped.trans htaken.symm, hdispose⟩
  | unref =>
    obtain ⟨hdestroyed, hclosed, hdropped, hkept⟩ := hstage
    have href := h.refOk
    unfold State.RefOk at href
    rw [hkept] at href
    refine .inr ⟨idle_setThread hothers, hdestroyed, hclosed, ?_, fun hpc => (by cases hpc), fun hpc => by cases hpc⟩
    exact (congrArg (· + 1) hdropped).trans href.1.symm

theorem Inv.callStep_after (h : Inv library s) (hafter : s.After library) {t : Option (Fin n)}
    (hok : StepOk s (.call t)) (hs : s.callStep t = some s') : s'.After library := by
  have hkeep : ∀ {pc : CallPc}, (s.setThread t pc).Cleaning library ∨ (s.setThread t pc).Cleaned library →
      (s.setThread t pc).After library := fun hclean => ⟨hafter.stop, hafter.zero, hafter.transform, hclean⟩
  unfold State.callStep at hs
  rcases hafter.clean with ⟨a, hothers, hstage⟩ | hcleaned
  · -- only the thread that cleans up has a call under way
    have hta : t = a := by
      by_contra hne
      rw [hothers t hne] at hs
      cases hs
    rw [← hta] at hothers hstage
    cases ht : s.threads t with
    | testCount =>
      rw [ht] at hs hstage
      cases hs
      rw [if_pos hafter.zero]
      exact hkeep (.inl (cleaning_setThread hothers (State.Untouched.setThread hstage t _)))
    | testStop =>
      rw [ht] at hs hstage
      cases hs
      rw [if_pos hafter.stop]
      exact hkeep (.inl (cleaning_setThread hothers (State.Untouched.setThread hstage t _)))
    | stopTestCount =>
      rw [ht] at hs hstage
      cases hs
      rw [if_pos hafter.zero]
      exact hkeep (.inl (cleaning_setThread hothers (State.Untouched.setThread hstage t _)))
    | clean pc =>
      rw [ht] at hs hstage
      cases hs
      have hclean := h.cleanStep ht hothers hstage hok
      have hframe : (s.cleanStep t pc).stop = s.stop ∧ (s.cleanStep t pc).numActivePayloads = s.numActivePayloads ∧
          (s.cleanStep t pc).transform = s.transform := by
        cases pc <;> exact ⟨rfl, rfl, rfl⟩
      exact ⟨hframe.1.trans hafter.stop, hframe.2.1.trans hafter.zero, hframe.2.2.trans hafter.transform, hclean⟩
    | _ =>
      rw [ht] at hstage
      exact hstage.elim
  · rw [hcleaned.threads t] at hs
    cases hs

end Phases

end MsgConv
end DeepStream
