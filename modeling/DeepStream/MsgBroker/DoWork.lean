/-
# The worker thread of gst-nvmsgbroker

With the `NvDsMsgApi` interface `render` sends each message with `send_async` and counts
it in `pendingCbCount`; a worker thread calls `do_work` of the protocol adaptor, which
calls back for the messages sent, as long as some are counted, and otherwise waits on
`flowCond`. `stop` clears `isRunning`, signals the condition and joins the worker.

The counter is exact. But `stop` neither writes the flag nor signals under `flowLock`,
which the worker holds from its tests to its wait: if it signals in between, the worker
waits for a signal that has been given, and `stop` for the worker.

A step is one access to what the threads share. The counter is a signed integer of 32
bits.
-/
import DeepStream.Lib.Run
import DeepStream.Lib.Word

namespace DeepStream
namespace MsgBroker
namespace DoWork

inductive Thread where
  | worker | render
  deriving DecidableEq, Repr

/-- What `gst_nvmsgbroker_do_work` does next; a callback is about a message. -/
inductive WorkerPc where
  | loopTest | locking | testRunning | testPending | condWait | waiting | relocking | unlocking | testStopped
  | doWork
  | callbackLocking (msg : ℕ)
  | callbackCounting (msg : ℕ)
  | callbackUnlocking (msg : ℕ)
  | returned
  deriving DecidableEq, Repr

/-- What `legacy_gst_nvmsgbroker_render` does next. -/
inductive RenderPc where
  | idle
  | sending (msg : ℕ)
  | counting | signalling | unlocking
  deriving DecidableEq, Repr

/-- What `legacy_gst_nvmsgbroker_stop` does next. -/
inductive StopPc where
  | notCalled | signalling | joining | joined
  deriving DecidableEq, Repr

/-- `outstanding` are the messages that `send_async` accepted and whose callback has not
run. -/
structure State where
  isRunning : Bool := true
  pendingCbCount : ℤ := 0
  flowLock : Option Thread := none
  worker : WorkerPc := .loopTest
  render : RenderPc := .idle
  stop : StopPc := .notCalled
  outstanding : List ℕ := []
  deriving DecidableEq, Repr

inductive Action where
  /-- The worker goes on; in `do_work`, it returns from it. -/
  | worker
  /-- `do_work` calls back for a message. -/
  | callback (msg : ℕ)
  | spuriousWakeup
  /-- `render` comes to a message. -/
  | message (msg : ℕ)
  /-- What `send_async` answers. -/
  | sendAsync (accepted : Bool)
  | render
  | stop
  deriving DecidableEq, Repr

namespace State

variable (s : State)

/-- `g_cond_signal`. -/
def signal : State := if s.worker = .waiting then { s with worker := .relocking } else s

/-- `g_mutex_lock`, after which the thread goes on as `next` says. -/
def lock (t : Thread) (next : State) : Option State :=
  if s.flowLock = none then some { next with flowLock := some t } else none

def workerStep : Option State :=
  match s.worker with
  | .loopTest => some { s with worker := if s.isRunning then .locking else .returned }
  | .locking => s.lock .worker { s with worker := .testRunning }
  | .testRunning => some { s with worker := if s.isRunning then .testPending else .unlocking }
  | .testPending => some { s with worker := if s.pendingCbCount ≤ 0 then .condWait else .unlocking }
  | .condWait => some { s with worker := .waiting, flowLock := none }
  | .waiting => none
  | .relocking => s.lock .worker { s with worker := .testRunning }
  | .unlocking => some { s with worker := .testStopped, flowLock := none }
  | .testStopped => some { s with worker := if s.isRunning then .doWork else .returned }
  | .doWork => some { s with worker := .loopTest }
  | .callbackLocking msg => s.lock .worker { s with worker := .callbackCounting msg }
  | .callbackCounting msg =>
    some { s with worker := .callbackUnlocking msg, pendingCbCount := gint (s.pendingCbCount - 1) }
  | .callbackUnlocking msg =>
    some { s with worker := .doWork, flowLock := none, outstanding := s.outstanding.erase msg }
  | .returned => none

def renderStep : Option State :=
  match s.render with
  | .idle => none
  | .sending _ => none
  | .counting => some { s with render := .signalling, pendingCbCount := gint (s.pendingCbCount + 1) }
  | .signalling => some { s.signal with render := .unlocking }
  | .unlocking => some { s with render := .idle, flowLock := none }

def stopStep : Option State :=
  match s.stop with
  | .notCalled => some { s with isRunning := false, stop := .signalling }
  | .signalling => some { s.signal with stop := .joining }
  | .joining => if s.worker = .returned then some { s with stop := .joined } else none
  | .joined => none

end State

def step (s : State) : Action → Option State
  | .worker => s.workerStep
  | .callback msg =>
    if s.worker = .doWork ∧ msg ∈ s.outstanding then some { s with worker := .callbackLocking msg } else none
  | .spuriousWakeup => if s.worker = .waiting then some { s with worker := .relocking } else none
  | .message msg => if s.render = .idle then s.lock .render { s with render := .sending msg } else none
  | .sendAsync accepted =>
    match s.render with
    | .sending msg =>
      some (if accepted then { s with render := .counting, outstanding := msg :: s.outstanding }
        else { s with render := .unlocking })
    | _ => none
  | .render => s.renderStep
  | .stop => s.stopStep

/-! ### What is wanted, and when it holds -/

/-- The worker holds the lock, has found the flag set, and will wait. -/
def State.AboutToWait (s : State) : Prop :=
  s.worker = .condWait ∨ s.worker = .testPending ∧ s.pendingCbCount ≤ 0

/-- `stop` waits for the worker, the worker for a signal, and no call of `render` is under
way that could give one. -/
def State.Stuck (s : State) : Prop := s.stop = .joining ∧ s.worker = .waiting ∧ s.render = .idle

/-- The counter is exact whenever nobody holds the lock, and `stop` is not stuck. -/
def State.Good (s : State) : Prop :=
  (s.flowLock = none → s.pendingCbCount = s.outstanding.length) ∧ ¬ s.Stuck

/-- `stop` does not signal while the worker is between its tests and its wait, and a
message is counted only if the counter does not overflow. -/
structure StepOk (s : State) (a : Action) : Prop where
  signal : a = .stop → s.stop = .signalling → ¬ s.AboutToWait
  count : a = .render → s.render = .counting → s.pendingCbCount + 1 < 2 ^ 31

instance (s : State) : Decidable s.AboutToWait := instDecidableOr

instance (s : State) (a : Action) : Decidable (StepOk s a) :=
  decidable_of_iff ((a = .stop → s.stop = .signalling → ¬ s.AboutToWait) ∧
      (a = .render → s.render = .counting → s.pendingCbCount + 1 < 2 ^ 31))
    ⟨fun h => ⟨h.1, h.2⟩, fun h => ⟨h.signal, h.count⟩⟩

/-! ### The invariant -/

/-- The worker holds the lock here. -/
def WorkerPc.holds : WorkerPc → Bool
  | .testRunning | .testPending | .condWait | .unlocking | .callbackCounting _ | .callbackUnlocking _ => true
  | _ => false

/-- The message of the callback that the worker is in. -/
def WorkerPc.message : WorkerPc → Option ℕ
  | .callbackLocking msg | .callbackCounting msg | .callbackUnlocking msg => some msg
  | _ => none

/-- The worker has uncounted a message whose callback is about to return. -/
def WorkerPc.uncounted : WorkerPc → ℤ
  | .callbackUnlocking _ => 1
  | _ => 0

/-- `render` has sent a message that it is about to count. -/
def RenderPc.uncounted : RenderPc → ℤ
  | .counting => 1
  | _ => 0

structure Inv (s : State) : Prop where
  workerLock : s.flowLock = some .worker ↔ s.worker.holds
  renderLock : s.flowLock = some .render ↔ s.render ≠ .idle
  called : ∀ msg ∈ s.worker.message, msg ∈ s.outstanding
  count : s.pendingCbCount = s.outstanding.length - s.render.uncounted - s.worker.uncounted
  bounded : s.pendingCbCount < 2 ^ 31
  notRunning : s.stop ≠ .notCalled → s.isRunning = false
  joining : s.stop = .joining ∨ s.stop = .joined → s.worker ≠ .waiting ∧ ¬ s.AboutToWait

theorem inv_start : Inv {} where
  workerLock := by decide
  renderLock := by decide
  called := fun _ h => absurd h (by simp [WorkerPc.message])
  count := rfl
  bounded := by decide
  notRunning := fun h => absurd rfl h
  joining := by decide

section Keeps

variable {s s' : State}

theorem not_aboutToWait (hcond : s.worker ≠ .condWait) (hpending : s.worker ≠ .testPending) : ¬ s.AboutToWait :=
  not_or.mpr ⟨hcond, fun h => hpending h.1⟩

/-- Where the worker may go once `stop` has signalled. -/
def State.Awake (s : State) (pc : WorkerPc) : Prop :=
  s.stop = .joining ∨ s.stop = .joined → pc ≠ .waiting ∧ pc ≠ .condWait ∧ (pc = .testPending → 0 < s.pendingCbCount)

theorem State.Awake.joining {pc : WorkerPc} (h : s.Awake pc) {t : State} (ht : t.worker = pc) (hstop : t.stop = s.stop)
    (hcount : t.pendingCbCount = s.pendingCbCount) :
    t.stop = .joining ∨ t.stop = .joined → t.worker ≠ .waiting ∧ ¬ t.AboutToWait := by
  rw [hstop, State.AboutToWait, ht, hcount]
  intro hjoin
  obtain ⟨hwaiting, hcond, hpending⟩ := h hjoin
  exact ⟨hwaiting, not_or.mpr ⟨hcond, fun habout => absurd habout.2 (not_le.mpr (hpending habout.1))⟩⟩

/-- The worker goes on without touching the lock. -/
theorem Inv.moveWorker (h : Inv s) {pc : WorkerPc} (hholds : pc.holds = s.worker.holds)
    (hcalled : ∀ msg ∈ pc.message, msg ∈ s.outstanding) (huncounted : pc.uncounted = s.worker.uncounted)
    (hawake : s.Awake pc) : Inv { s with worker := pc } where
  workerLock := by rw [hholds]; exact h.workerLock
  renderLock := h.renderLock
  called := hcalled
  count := by rw [huncounted]; exact h.count
  bounded := h.bounded
  notRunning := h.notRunning
  joining := hawake.joining rfl rfl rfl

/-- `render` is in its section only with the lock. -/
theorem Inv.render_idle (h : Inv s) (hlock : s.flowLock ≠ some .render) : s.render = .idle := by
  by_contra hrender
  exact hlock (h.renderLock.mpr hrender)

/-- The worker takes the lock. -/
theorem Inv.lockWorker (h : Inv s) {pc : WorkerPc} (hs : s.lock .worker { s with worker := pc } = some s')
    (hholds : pc.holds = true) (hcalled : ∀ msg ∈ pc.message, msg ∈ s.outstanding)
    (huncounted : pc.uncounted = s.worker.uncounted) (hawake : s.Awake pc) : Inv s' := by
  unfold State.lock at hs
  split at hs
  · rename_i hfree
    cases hs
    have hidle := h.render_idle (by rw [hfree]; simp)
    exact
      { workerLock := iff_of_true rfl hholds
        renderLock := iff_of_false (fun hlock => by cases hlock) (not_not.mpr hidle)
        called := hcalled
        count := by rw [huncounted]; exact h.count
        bounded := h.bounded
        notRunning := h.notRunning
        joining := hawake.joining rfl rfl rfl }
  · cases hs

/-- The worker gives the lock up. -/
theorem Inv.unlockWorker (h : Inv s) {pc : WorkerPc} (hheld : s.worker.holds = true) (hholds : pc.holds = false)
    (hcalled : pc.message = none) (huncounted : pc.uncounted = s.worker.uncounted) (hawake : s.Awake pc) :
    Inv { s with worker := pc, flowLock := none } where
  workerLock := iff_of_false (fun hlock => by cases hlock) (by rw [hholds]; decide)
  renderLock := by
    refine iff_of_false (fun hlock => by cases hlock) fun hrender => ?_
    have hworker := h.workerLock.mpr hheld
    rw [h.renderLock.mpr hrender] at hworker
    cases hworker
  called := fun msg hmsg => by rw [hcalled] at hmsg; cases hmsg
  count := by rw [huncounted]; exact h.count
  bounded := h.bounded
  notRunning := h.notRunning
  joining := hawake.joining rfl rfl rfl

theorem Inv.signal (h : Inv s) : Inv s.signal := by
  unfold State.signal
  by_cases hw : s.worker = .waiting
  · rw [if_pos hw]
    exact h.moveWorker (by rw [hw]; rfl) (fun _ hmsg => by cases hmsg) (by rw [hw]; rfl)
      fun _ => ⟨by decide, by decide, fun hpc => by cases hpc⟩
  · rwa [if_neg hw]

/-- The worker is at none of the places where `stop` must not find it. -/
theorem awake_of_ne {pc : WorkerPc} (hwaiting : pc ≠ .waiting) (hcond : pc ≠ .condWait) (hpending : pc ≠ .testPending) :
    s.Awake pc := fun _ => ⟨hwaiting, hcond, fun h => absurd h hpending⟩

theorem Inv.callbackLocking (h : Inv s) {msg : ℕ} (hw : s.worker = .doWork) (hmsg : msg ∈ s.outstanding) :
    Inv { s with worker := .callbackLocking msg } :=
  h.moveWorker (by rw [hw]; rfl) (fun msg' hmsg' => Option.some.inj hmsg' ▸ hmsg) (by rw [hw]; rfl)
    (awake_of_ne (fun hpc => by cases hpc) (fun hpc => by cases hpc) fun hpc => by cases hpc)

/-- In a callback the counter goes down, and does not wrap. -/
theorem Inv.callbackCounting (h : Inv s) {msg : ℕ} (hw : s.worker = .callbackCounting msg) :
    Inv { s with worker := .callbackUnlocking msg, pendingCbCount := gint (s.pendingCbCount - 1) } := by
  have hmsg : msg ∈ s.outstanding := h.called msg (by rw [hw]; rfl)
  have hlock : s.flowLock = some .worker := h.workerLock.mpr (by rw [hw]; rfl)
  have hidle := h.render_idle (by rw [hlock]; simp)
  have hcount : s.pendingCbCount = s.outstanding.length := by
    rw [h.count, hidle, hw]
    exact (sub_zero _).trans (sub_zero _)
  have hpos : 0 < s.outstanding.length := List.length_pos_of_mem hmsg
  have hbounded := h.bounded
  have hdown : gint (s.pendingCbCount - 1) = s.pendingCbCount - 1 := gint_of_mem (by omega) (by omega)
  exact
    { workerLock := iff_of_true hlock rfl
      renderLock := h.renderLock
      called := fun msg' hmsg' => Option.some.inj hmsg' ▸ hmsg
      count := by
        show gint (s.pendingCbCount - 1) = s.outstanding.length - s.render.uncounted - 1
        rw [hdown, hidle, hcount]
        exact congrArg (· - 1) (sub_zero _).symm
      bounded := by
        show gint (s.pendingCbCount - 1) < 2 ^ 31
        omega
      notRunning := h.notRunning
      joining := fun _ => ⟨fun hpc => (by cases hpc), not_aboutToWait (fun hpc => by cases hpc) fun hpc => by cases hpc⟩ }

/-- A callback returns, and its message is outstanding no more. -/
theorem Inv.callbackUnlocking (h : Inv s) {msg : ℕ} (hw : s.worker = .callbackUnlocking msg) :
    Inv { s with worker := .doWork, flowLock := none, outstanding := s.outstanding.erase msg } := by
  have hmsg : msg ∈ s.outstanding := h.called msg (by rw [hw]; rfl)
  have hlock : s.flowLock = some .worker := h.workerLock.mpr (by rw [hw]; rfl)
  have hidle := h.render_idle (by rw [hlock]; simp)
  have hlength : s.outstanding.length = (s.outstanding.erase msg).length + 1 := by
    rw [List.length_erase_of_mem hmsg, Nat.sub_add_cancel (List.length_pos_of_mem hmsg)]
  exact
    { workerLock := iff_of_false (fun hfree => by cases hfree) Bool.false_ne_true
      renderLock := iff_of_false (fun hfree => by cases hfree) (not_not.mpr hidle)
      called := fun _ hmsg' => by cases hmsg'
      count := by
        have hcount := h.count
        rw [hw, hidle, hlength] at hcount
        show s.pendingCbCount = ((s.outstanding.erase msg).length : ℤ) - s.render.uncounted - 0
        rw [hcount, hidle]
        push_cast
        show _ + 1 - 0 - 1 = (_ : ℤ) - 0 - 0
        omega
      bounded := h.bounded
      notRunning := h.notRunning
      joining := fun _ => ⟨fun hpc => (by cases hpc), not_aboutToWait (fun hpc => by cases hpc) fun hpc => by cases hpc⟩ }

theorem Inv.workerStep (h : Inv s) (hs : s.workerStep = some s') : Inv s' := by
  have hnone : ∀ {pc : WorkerPc}, pc.message = none → ∀ msg ∈ pc.message, msg ∈ s.outstanding := fun hpc msg hmsg => by
    rw [hpc] at hmsg
    cases hmsg
  -- once `stop` has cleared the flag the worker leaves its loops
  have hgone : s.isRunning = true → ¬ (s.stop = .joining ∨ s.stop = .joined) := fun hrun hstop => by
    have hnot := h.notRunning fun hnever => by rcases hstop with hstop | hstop <;> cases hstop.symm.trans hnever
    rw [hrun] at hnot
    cases hnot
  unfold State.workerStep at hs
  cases hw : s.worker with
  | loopTest =>
    rw [hw] at hs
    cases hs
    by_cases hrun : s.isRunning
    · rw [if_pos hrun]
      exact h.moveWorker (by rw [hw]; rfl) (hnone rfl) (by rw [hw]; rfl)
        (awake_of_ne (by decide) (by decide) (by decide))
    · rw [if_neg hrun]
      exact h.moveWorker (by rw [hw]; rfl) (hnone rfl) (by rw [hw]; rfl)
        (awake_of_ne (by decide) (by decide) (by decide))
  | locking =>
    rw [hw] at hs
    exact h.lockWorker hs rfl (hnone rfl) (by rw [hw]; rfl) (awake_of_ne (by decide) (by decide) (by decide))
  | testRunning =>
    rw [hw] at hs
    cases hs
    by_cases hrun : s.isRunning
    · rw [if_pos hrun]
      exact h.moveWorker (by rw [hw]; rfl) (hnone rfl) (by rw [hw]; rfl) fun hstop => absurd hstop (hgone hrun)
    · rw [if_neg hrun]
      exact h.moveWorker (by rw [hw]; rfl) (hnone rfl) (by rw [hw]; rfl)
        (awake_of_ne (by decide) (by decide) (by decide))
  | testPending =>
    rw [hw] at hs
    cases hs
    by_cases hcount : s.pendingCbCount ≤ 0
    · rw [if_pos hcount]
      refine h.moveWorker (by rw [hw]; rfl) (hnone rfl) (by rw [hw]; rfl) fun hstop => ?_
      exact absurd (.inr ⟨hw, hcount⟩) (h.joining hstop).2
    · rw [if_neg hcount]
      exact h.moveWorker (by rw [hw]; rfl) (hnone rfl) (by rw [hw]; rfl)
        (awake_of_ne (by decide) (by decide) (by decide))
  | condWait =>
    rw [hw] at hs
    cases hs
    refine h.unlockWorker (by rw [hw]; rfl) rfl rfl (by rw [hw]; rfl) fun hstop => ?_
    exact absurd (.inl hw) (h.joining hstop).2
  | waiting =>
    rw [hw] at hs
    cases hs
  | relocking =>
    rw [hw] at hs
    exact h.lockWorker hs rfl (hnone rfl) (by rw [hw]; rfl) (awake_of_ne (by decide) (by decide) (by decide))
  | unlocking =>
    rw [hw] at hs
    cases hs
    exact h.unlockWorker (by rw [hw]; rfl) rfl rfl (by rw [hw]; rfl) (awake_of_ne (by decide) (by decide) (by decide))
  | testStopped =>
    rw [hw] at hs
    cases hs
    by_cases hrun : s.isRunning
    · rw [if_pos hrun]
      exact h.moveWorker (by rw [hw]; rfl) (hnone rfl) (by rw [hw]; rfl)
        (awake_of_ne (by decide) (by decide) (by decide))
    · rw [if_neg hrun]
      exact h.moveWorker (by rw [hw]; rfl) (hnone rfl) (by rw [hw]; rfl)
        (awake_of_ne (by decide) (by decide) (by decide))
  | doWork =>
    rw [hw] at hs
    cases hs
    exact h.moveWorker (by rw [hw]; rfl) (hnone rfl) (by rw [hw]; rfl)
      (awake_of_ne (by decide) (by decide) (by decide))
  | callbackLocking msg =>
    rw [hw] at hs
    have hmsg : msg ∈ s.outstanding := h.called msg (by rw [hw]; rfl)
    exact h.lockWorker hs rfl (fun msg' hmsg' => Option.some.inj hmsg' ▸ hmsg) (by rw [hw]; rfl)
      (awake_of_ne (fun hpc => by cases hpc) (fun hpc => by cases hpc) fun hpc => by cases hpc)
  | callbackCounting msg =>
    rw [hw] at hs
    cases hs
    exact h.callbackCounting hw
  | callbackUnlocking msg =>
    rw [hw] at hs
    cases hs
    exact h.callbackUnlocking hw
  | returned =>
    rw [hw] at hs
    cases hs

/-! ### The other threads -/

/-- `render` is in its section, and the worker is not. -/
theorem Inv.not_holds (h : Inv s) (hr : s.render ≠ .idle) : s.flowLock = some .render ∧ s.worker.holds = false := by
  have hlock := h.renderLock.mpr hr
  refine ⟨hlock, Bool.eq_false_iff.mpr fun hheld => ?_⟩
  rw [h.workerLock.mpr hheld] at hlock
  cases hlock

theorem WorkerPc.uncounted_of_not_holds {pc : WorkerPc} (h : pc.holds = false) : pc.uncounted = 0 := by
  cases pc with
  | callbackUnlocking msg => cases h
  | _ => rfl

/-- The counter is read where it may not change. -/
theorem Inv.joining_of_not_holds (h : Inv s) (hholds : s.worker.holds = false) {t : State} (hw : t.worker = s.worker)
    (hstop : t.stop = s.stop) : t.stop = .joining ∨ t.stop = .joined → t.worker ≠ .waiting ∧ ¬ t.AboutToWait := by
  rw [hw, hstop]
  refine fun hjoin => ⟨(h.joining hjoin).1, not_aboutToWait (fun hpc => ?_) fun hpc => ?_⟩ <;>
    rw [← hw, hpc] at hholds <;> cases hholds

theorem Inv.message (h : Inv s) {msg : ℕ} (hr : s.render = .idle)
    (hs : s.lock .render { s with render := .sending msg } = some s') : Inv s' := by
  unfold State.lock at hs
  split at hs
  · rename_i hfree
    cases hs
    have hholds : s.worker.holds = false := Bool.eq_false_iff.mpr fun hheld => by
      rw [h.workerLock.mpr hheld] at hfree
      cases hfree
    exact
      { workerLock := iff_of_false (fun hlock => by cases hlock) (by rw [hholds]; decide)
        renderLock := iff_of_true rfl fun hpc => by cases hpc
        called := h.called
        count := by
          have hcount := h.count
          rwa [hr] at hcount
        bounded := h.bounded
        notRunning := h.notRunning
        joining := h.joining }
  · cases hs

theorem Inv.sendAsync (h : Inv s) {msg : ℕ} (hr : s.render = .sending msg) (accepted : Bool) :
    Inv (if accepted then { s with render := .counting, outstanding := msg :: s.outstanding }
      else { s with render := .unlocking }) := by
  obtain ⟨hlock, -⟩ := h.not_holds (by rw [hr]; exact fun hpc => by cases hpc)
  have hcount := h.count
  rw [hr] at hcount
  cases accepted with
  | true =>
    exact
      { workerLock := h.workerLock
        renderLock := iff_of_true hlock fun hpc => by cases hpc
        called := fun msg' hmsg' => List.mem_cons_of_mem msg (h.called msg' hmsg')
        count := by
          show s.pendingCbCount = ((msg :: s.outstanding).length : ℤ) - 1 - s.worker.uncounted
          rw [hcount, List.length_cons]
          push_cast
          show _ - 0 - s.worker.uncounted = _
          omega
        bounded := h.bounded
        notRunning := h.notRunning
        joining := h.joining }
  | false =>
    exact
      { workerLock := h.workerLock
        renderLock := iff_of_true hlock fun hpc => by cases hpc
        called := h.called
        count := hcount
        bounded := h.bounded
        notRunning := h.notRunning
        joining := h.joining }

theorem Inv.renderStep (h : Inv s) (hok : s.render = .counting → s.pendingCbCount + 1 < 2 ^ 31)
    (hs : s.renderStep = some s') : Inv s' := by
  unfold State.renderStep at hs
  cases hr : s.render with
  | idle =>
    rw [hr] at hs
    cases hs
  | sending msg =>
    rw [hr] at hs
    cases hs
  | counting =>
    rw [hr] at hs
    cases hs
    obtain ⟨hlock, hholds⟩ := h.not_holds (by rw [hr]; decide)
    have hcount := h.count
    rw [hr, WorkerPc.uncounted_of_not_holds hholds] at hcount
    change _ = _ - 1 - 0 at hcount
    have hsmall := hok hr
    have hup : gint (s.pendingCbCount + 1) = s.pendingCbCount + 1 := gint_of_mem (by omega) hsmall
    exact
      { workerLock := h.workerLock
        renderLock := iff_of_true hlock fun hpc => by cases hpc
        called := h.called
        count := by
          show gint (s.pendingCbCount + 1) = (s.outstanding.length : ℤ) - 0 - s.worker.uncounted
          rw [hup, WorkerPc.uncounted_of_not_holds hholds]
          omega
        bounded := by
          show gint (s.pendingCbCount + 1) < 2 ^ 31
          rwa [hup]
        notRunning := h.notRunning
        joining := h.joining_of_not_holds hholds rfl rfl }
  | signalling =>
    rw [hr] at hs
    cases hs
    have hsignal := h.signal
    have hframe : s.signal.flowLock = s.flowLock ∧ s.signal.render = s.render := by
      unfold State.signal
      split <;> exact ⟨rfl, rfl⟩
    obtain ⟨hlock, -⟩ := h.not_holds (by rw [hr]; decide)
    have hcount := hsignal.count
    rw [hframe.2, hr] at hcount
    exact
      { workerLock := hsignal.workerLock
        renderLock := iff_of_true (hframe.1.trans hlock) fun hpc => by cases hpc
        called := hsignal.called
        count := hcount
        bounded := hsignal.bounded
        notRunning := hsignal.notRunning
        joining := hsignal.joining }
  | unlocking =>
    rw [hr] at hs
    cases hs
    obtain ⟨-, hholds⟩ := h.not_holds (by rw [hr]; decide)
    have hcount := h.count
    rw [hr] at hcount
    exact
      { workerLock := iff_of_false (fun hlock => by cases hlock) (by rw [hholds]; decide)
        renderLock := iff_of_false (fun hlock => by cases hlock) (not_not.mpr rfl)
        called := h.called
        count := hcount
        bounded := h.bounded
        notRunning := h.notRunning
        joining := h.joining }

theorem Inv.stopStep (h : Inv s) (hok : s.stop = .signalling → ¬ s.AboutToWait) (hs : s.stopStep = some s') :
    Inv s' := by
  unfold State.stopStep at hs
  cases hstop : s.stop with
  | notCalled =>
    rw [hstop] at hs
    cases hs
    exact
      { workerLock := h.workerLock
        renderLock := h.renderLock
        called := h.called
        count := h.count
        bounded := h.bounded
        notRunning := fun _ => rfl
        joining := fun hjoin => by rcases hjoin with hjoin | hjoin <;> cases hjoin }
  | signalling =>
    rw [hstop] at hs
    cases hs
    have hsignal := h.signal
    have hnot := h.notRunning (by rw [hstop]; decide)
    have hwoken : s.signal.worker ≠ .waiting ∧ ¬ s.signal.AboutToWait ∧ s.signal.isRunning = false := by
      unfold State.signal
      by_cases hw : s.worker = .waiting
      · rw [if_pos hw]
        exact ⟨fun hpc => (by cases hpc), not_aboutToWait (fun hpc => by cases hpc) (fun hpc => by cases hpc), hnot⟩
      · rw [if_neg hw]
        exact ⟨hw, hok hstop, hnot⟩
    exact
      { workerLock := hsignal.workerLock
        renderLock := hsignal.renderLock
        called := hsignal.called
        count := hsignal.count
        bounded := hsignal.bounded
        notRunning := fun _ => hwoken.2.2
        joining := fun _ => ⟨hwoken.1, hwoken.2.1⟩ }
  | joining =>
    rw [hstop] at hs
    dsimp only at hs
    split at hs
    · cases hs
      exact
        { workerLock := h.workerLock
          renderLock := h.renderLock
          called := h.called
          count := h.count
          bounded := h.bounded
          notRunning := fun _ => h.notRunning (by rw [hstop]; decide)
          joining := fun _ => h.joining (.inl hstop) }
    · cases hs
  | joined =>
    rw [hstop] at hs
    cases hs

end Keeps

theorem Inv.step {s s' : State} {a : Action} (h : Inv s) (hok : StepOk s a) (hs : step s a = some s') : Inv s' := by
  cases a with
  | worker => exact h.workerStep hs
  | callback msg =>
    unfold DoWork.step at hs
    dsimp only at hs
    split at hs
    · rename_i hmsg
      cases hs
      exact h.callbackLocking hmsg.1 hmsg.2
    · cases hs
  | spuriousWakeup =>
    unfold DoWork.step at hs
    dsimp only at hs
    split at hs
    · rename_i hw
      cases hs
      have hsignal := h.signal
      rwa [State.signal, if_pos hw] at hsignal
    · cases hs
  | message msg =>
    unfold DoWork.step at hs
    dsimp only at hs
    split at hs
    · rename_i hr
      exact h.message hr hs
    · cases hs
  | sendAsync accepted =>
    unfold DoWork.step at hs
    dsimp only at hs
    split at hs
    · rename_i msg hr
      cases hs
      exact h.sendAsync hr accepted
    · cases hs
  | render => exact h.renderStep (hok.count rfl) hs
  | stop => exact h.stopStep (hok.signal rfl) hs

theorem Inv.good {s : State} (h : Inv s) : s.Good := by
  refine ⟨fun hfree => ?_, fun hstuck => (h.joining (.inl hstuck.1)).1 hstuck.2.1⟩
  have hworker : s.worker.holds = false := Bool.eq_false_iff.mpr fun hheld => by
    rw [h.workerLock.mpr hheld] at hfree
    cases hfree
  have hidle := h.render_idle (by rw [hfree]; simp)
  rw [h.count, hidle, WorkerPc.uncounted_of_not_holds hworker]
  exact (sub_zero _).trans (sub_zero _)

/-- **The counter is exact and `stop` returns.** In every run in which `stop` does not
signal while the worker is between its tests and its wait, and the counter does not
overflow, it counts the messages outstanding whenever the lock is free, and `stop` is
never stuck. -/
theorem exact_not_stuck {s : State} (h : Reach step StepOk (· = {}) s) : s.Good :=
  (h.invariant (fun _ h0 => h0 ▸ inv_start) fun _ _ _ hinv hok hs => hinv.step hok hs : Inv s).good

/-- A signal between the tests of the worker and its wait is lost. -/
theorem exists_stuck {s s' : State} (h : Inv s) (hstop : s.stop = .signalling) (habout : s.AboutToWait)
    (hs : step s .stop = some s') : ∃ t, Reach step StepOk (· = s') t ∧ t.Stuck := by
  have hholds : s.worker.holds = true := by
    rcases habout with hw | ⟨hw, -⟩ <;> rw [hw] <;> rfl
  have hidle := h.render_idle (by rw [h.workerLock.mpr hholds]; simp)
  have hs' : s' = { s with stop := .joining } := by
    have hsame : s.signal = s := by
      unfold State.signal
      rcases habout with hw | ⟨hw, -⟩ <;> rw [hw] <;> rfl
    unfold step State.stopStep at hs
    dsimp only at hs
    rw [hstop, hsame] at hs
    cases hs
    rfl
  have hok : ∀ t : State, StepOk t .worker := fun t => ⟨nofun, nofun⟩
  have hwait : ∀ t : State, t.stop = .joining → t.render = .idle → t.worker = .condWait →
      ∃ t', Reach step StepOk (· = t) t' ∧ t'.Stuck := by
    intro t hjoin hrender hw
    have hstep : step t .worker = some { t with worker := .waiting, flowLock := none } := by
      unfold step State.workerStep
      dsimp only
      rw [hw]
    exact ⟨_, Reach.single (hok t) hstep, hjoin, rfl, hrender⟩
  rw [hs']
  rcases habout with hw | ⟨hw, hcount⟩
  · exact hwait _ rfl hidle hw
  · have hstep : step { s with stop := .joining } .worker = some { s with stop := .joining, worker := .condWait } := by
      unfold step State.workerStep
      dsimp only
      rw [hw]
      dsimp only
      rw [if_pos hcount]
    obtain ⟨t, ht, hstuck⟩ := hwait { s with stop := .joining, worker := .condWait } rfl hidle rfl
    exact ⟨t, (Reach.single (hok _) hstep).trans ht, hstuck⟩

/-- **When the signal is lost.** After `stop` has signalled it can get stuck exactly if
the worker was between its tests and its wait. -/
theorem stuck_iff {s s' : State} (h : Reach step StepOk (· = {}) s) (hstop : s.stop = .signalling)
    (hs : step s .stop = some s') : (∃ t, Reach step StepOk (· = s') t ∧ t.Stuck) ↔ s.AboutToWait := by
  have hinv : ∀ {t : State}, Reach step StepOk (· = {}) t → Inv t := fun ht =>
    ht.invariant (fun _ h0 => h0 ▸ inv_start) fun _ _ _ hi hok hs => hi.step hok hs
  refine ⟨fun ⟨t, ht, hstuck⟩ => ?_, fun habout => exists_stuck (hinv h) hstop habout hs⟩
  by_contra hnot
  have hok : StepOk s .stop := ⟨fun _ _ => hnot, nofun⟩
  exact (hinv ((h.step hok hs).trans ht)).good.2 hstuck

/-- A message is sent and called back for, and `stop` finds the worker waiting. -/
def sentAndStopped : List Action :=
  [.message 0, .sendAsync true, .render, .render, .render, .worker, .worker, .worker, .worker, .worker, .worker,
    .callback 0, .worker, .worker, .worker, .worker, .worker, .worker, .worker, .worker, .worker, .stop, .stop]

/-- The worker is woken, with nothing outstanding. -/
theorem exact_not_stuck_sentAndStopped : ∃ s, exec step StepOk {} sentAndStopped = some s ∧ s.stop = .joining ∧
    s.worker = .relocking ∧ s.flowLock = none ∧ s.pendingCbCount = s.outstanding.length ∧ ¬ s.Stuck := by
  have hrun : (exec step StepOk {} sentAndStopped).map (fun s => (s.stop, s.worker, s.flowLock)) =
      some (.joining, .relocking, none) := by decide
  obtain ⟨s, hs, heq⟩ := Option.map_eq_some_iff.mp hrun
  obtain ⟨hstop, hrest⟩ := Prod.mk.inj heq
  obtain ⟨hworker, hfree⟩ := Prod.mk.inj hrest
  have hgood := exact_not_stuck (Reach.of_exec sentAndStopped (.init rfl) hs)
  exact ⟨s, hs, hstop, hworker, hfree, hgood.1 hfree, hgood.2⟩

/-- The worker tests, `stop` clears the flag and signals, and then the worker waits. -/
def lostSignal : List Action := [.worker, .worker, .worker, .stop, .stop, .worker, .worker]

/-- The worker has made its tests, and `stop` is about to signal. -/
theorem stuck_iff_tested : ∃ s s' : State, step s .stop = some s' ∧ s.AboutToWait ∧
    ((∃ t, Reach step StepOk (· = s') t ∧ t.Stuck) ↔ s.AboutToWait) := by
  have hrun : (exec step StepOk {} (lostSignal.take 4)).isSome := by decide
  have hreach : Reach step StepOk (· = {}) _ := Reach.of_exec _ (.init rfl) (Option.some_get hrun).symm
  exact ⟨_, _, rfl, .inr ⟨rfl, Int.le_refl 0⟩, stuck_iff hreach rfl rfl⟩

/-- The signal is lost: not every state that is reached is good. -/
theorem stuck_lostSignal : ¬ ∀ s, Reach step anyStep (· = {}) s → s.Good := by
  intro hall
  have hrun : (exec step anyStep {} lostSignal).map (fun s => (s.stop, s.worker, s.render)) =
      some (.joining, .waiting, .idle) := by decide
  obtain ⟨s, hs, heq⟩ := Option.map_eq_some_iff.mp hrun
  obtain ⟨hstop, hrest⟩ := Prod.mk.inj heq
  obtain ⟨hworker, hrender⟩ := Prod.mk.inj hrest
  exact (hall s (Reach.of_exec lostSignal (.init rfl) hs)).2 ⟨hstop, hworker, hrender⟩

end DoWork
end MsgBroker
end DeepStream
