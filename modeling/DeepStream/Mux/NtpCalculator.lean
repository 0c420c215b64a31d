/-
# The NTP calculator of a source

In RTCP mode the NTP time of a buffer is computed from the NTP time and the frame time
of the latest sender report and the buffer's PTS, all as 64 bits that wrap around. A
report that comes later waits for the next buffer, which takes it or drops it. With
frame rate correction a time that does not come after the previous one is replaced by
the previous one and the average frame time. In system time mode the clock is read.

`reset` clears the average frame time, which is configuration where the application
gives the frame rate, so after it the correction adds nothing.
-/
import Mathlib.Data.List.Basic
import Mathlib.Tactic.NormNum

namespace DeepStream
namespace Ntp

abbrev GstClockTime := UInt64

def GST_CLOCK_TIME_NONE : GstClockTime := 0xffffffffffffffff

inductive CalculatorMode where
  | systemTime | rtcp
  deriving DecidableEq, Repr

inductive CorrectionMode where
  | disabled | automatic | userFrameRate
  deriving DecidableEq, Repr

structure GstNvDsNtpCalculator where
  ntpTimeEpochNs : GstClockTime
  ntpFrameTimestamp : GstClockTime
  ntpTimeEpochNsNext : GstClockTime
  ntpFrameTimestampNext : GstClockTime
  haveNtpValues : Bool
  mode : CalculatorMode
  correctionMode : CorrectionMode
  prevNtpTs : GstClockTime
  prevPts : GstClockTime
  bfirst : Bool
  avgFrameTime : GstClockTime
  deriving DecidableEq, Repr

/-- What `gettimeofday` reads. -/
structure Timeval where
  tvSec : UInt64
  tvUsec : UInt64
  deriving DecidableEq, Repr

def Timeval.nsec (t : Timeval) : GstClockTime := t.tvSec * 1000000000 + t.tvUsec * 1000

/-- `gst_util_uint64_scale`, which saturates. -/
def uint64Scale (val num denom : UInt64) : UInt64 :=
  if val.toNat * num.toNat / denom.toNat < 2 ^ 64 then .ofNat (val.toNat * num.toNat / denom.toNat)
  else 0xffffffffffffffff

namespace GstNvDsNtpCalculator

/-- The correction mode for a configured frame duration. -/
def correctionFor (frameDuration : GstClockTime) : CorrectionMode :=
  if frameDuration = GST_CLOCK_TIME_NONE then .disabled
  else if frameDuration = 0 then .automatic
  else .userFrameRate

/-- `gst_nvds_ntp_calculator_new`. -/
def new (mode : CalculatorMode) (frameDuration : GstClockTime) : GstNvDsNtpCalculator where
  ntpTimeEpochNs := 0
  ntpFrameTimestamp := 0
  ntpTimeEpochNsNext := 0
  ntpFrameTimestampNext := 0
  haveNtpValues := mode = .systemTime
  mode := mode
  correctionMode := correctionFor frameDuration
  prevNtpTs := 0
  prevPts := 0
  bfirst := false
  avgFrameTime := if correctionFor frameDuration = .userFrameRate then frameDuration else 0

variable (n : GstNvDsNtpCalculator)

/-- `gst_nvds_ntp_calculator_reset`. -/
def reset : GstNvDsNtpCalculator :=
  { n with
    ntpTimeEpochNs := 0
    ntpFrameTimestamp := 0
    ntpTimeEpochNsNext := 0
    ntpFrameTimestampNext := 0
    prevNtpTs := 0
    prevPts := 0
    bfirst := false
    avgFrameTime := 0
    haveNtpValues := if n.mode = .rtcp then false else n.haveNtpValues }

/-- `gst_nvds_ntp_calculator_add_ntp_sync_values`. -/
def addNtpSyncValues (ntpTimeEpochNs ntpFrameTimestamp avgFrameTime : GstClockTime) : GstNvDsNtpCalculator :=
  if n.mode = .rtcp then
    let n' := if n.haveNtpValues then
        { n with ntpTimeEpochNsNext := ntpTimeEpochNs, ntpFrameTimestampNext := ntpFrameTimestamp }
      else { n with ntpTimeEpochNs := ntpTimeEpochNs, ntpFrameTimestamp := ntpFrameTimestamp }
    { n' with
      avgFrameTime := if n.correctionMode = .userFrameRate then n.avgFrameTime else avgFrameTime
      haveNtpValues := true }
  else n

/-- Whether the sender report that waits is consistent with the previous buffer, or there
is none to compare it with. -/
def consistentNext (bufPts : GstClockTime) : Bool :=
  let ntptsWithNewSr := n.ntpTimeEpochNsNext + bufPts - n.ntpFrameTimestampNext
  ntptsWithNewSr - n.prevNtpTs < uint64Scale (bufPts - n.prevPts) 11 10 || n.ntpTimeEpochNs = 0

/-- The first half of `apply_correction_if_needed_rtcp`: the sender report that waits is
used or dropped. -/
def takeNext (ntpTs bufPts : GstClockTime) : GstNvDsNtpCalculator × GstClockTime :=
  if n.ntpTimeEpochNsNext ≠ 0 then
    if n.consistentNext bufPts then
      ({ n with
        ntpTimeEpochNs := n.ntpTimeEpochNsNext
        ntpFrameTimestamp := n.ntpFrameTimestampNext
        ntpTimeEpochNsNext := 0
        ntpFrameTimestampNext := 0 }, n.ntpTimeEpochNsNext + bufPts - n.ntpFrameTimestampNext)
    else ({ n with ntpTimeEpochNsNext := 0, ntpFrameTimestampNext := 0 }, ntpTs)
  else (n, ntpTs)

/-- The second half: a time that does not come after the previous one is corrected. -/
def corrected (ntpTs : GstClockTime) : GstClockTime :=
  if ntpTs = 0 ∨ n.bfirst = false ∨ n.prevNtpTs = 0 then ntpTs
  else if n.prevNtpTs ≥ ntpTs ∨ ntpTs - n.prevNtpTs < n.avgFrameTime * 90 / 100 then
    if n.correctionMode = .disabled then ntpTs else n.prevNtpTs + n.avgFrameTime
  else ntpTs

def applyCorrectionIfNeededRtcp (ntpTs bufPts : GstClockTime) : GstNvDsNtpCalculator × GstClockTime :=
  let r := n.takeNext ntpTs bufPts
  (r.1, r.1.corrected r.2)

/-- The NTP time of a buffer; `now` is what the clock reads. -/
def ntpTime (bufPts : GstClockTime) (now : Timeval) : GstNvDsNtpCalculator × GstClockTime :=
  match n.mode with
  | .systemTime => (n, now.nsec)
  | .rtcp =>
    if n.ntpTimeEpochNs = 0 ∧ n.ntpTimeEpochNsNext = 0 then (n, 0)
    else n.applyCorrectionIfNeededRtcp (n.ntpTimeEpochNs - n.ntpFrameTimestamp + bufPts) bufPts

/-- `gst_nvds_ntp_calculator_get_buffer_ntp`. -/
def getBufferNtp (bufPts : GstClockTime) (now : Timeval) : GstNvDsNtpCalculator × GstClockTime :=
  let r := n.ntpTime bufPts now
  ({ r.1 with prevNtpTs := r.2, prevPts := bufPts, bfirst := true }, r.2)

end GstNvDsNtpCalculator

open GstNvDsNtpCalculator

/-! ### Runs -/

inductive Call where
  | addNtpSyncValues (ntpTimeEpochNs ntpFrameTimestamp avgFrameTime : GstClockTime)
  | getBufferNtp (bufPts : GstClockTime) (now : Timeval)
  deriving DecidableEq, Repr

/-- A call that uses the calculator, or the reset. -/
inductive Op where
  | call (c : Call)
  | reset
  deriving DecidableEq, Repr

namespace GstNvDsNtpCalculator

def after (n : GstNvDsNtpCalculator) : Call → GstNvDsNtpCalculator
  | .addNtpSyncValues epoch frame avg => n.addNtpSyncValues epoch frame avg
  | .getBufferNtp bufPts now => (n.getBufferNtp bufPts now).1

/-- The time that a call returns. -/
def output (n : GstNvDsNtpCalculator) : Call → Option GstClockTime
  | .addNtpSyncValues _ _ _ => none
  | .getBufferNtp bufPts now => some (n.getBufferNtp bufPts now).2

def outputs : GstNvDsNtpCalculator → List Call → List GstClockTime
  | _, [] => []
  | n, c :: calls => (n.output c).toList ++ outputs (n.after c) calls

def afterOp (n : GstNvDsNtpCalculator) : Op → GstNvDsNtpCalculator
  | .call c => n.after c
  | .reset => n.reset

/-- The calculator after a history of calls and resets. -/
def afterAll (n : GstNvDsNtpCalculator) (history : List Op) : GstNvDsNtpCalculator := history.foldl afterOp n

end GstNvDsNtpCalculator

/-! ### The configuration -/

/-- What no call changes. -/
structure Configured (mode : CalculatorMode) (frameDuration : GstClockTime) (n : GstNvDsNtpCalculator) : Prop where
  mode_eq : n.mode = mode
  correction : n.correctionMode = correctionFor frameDuration
  have_systemTime : mode = .systemTime → n.haveNtpValues = true

variable {mode : CalculatorMode} {frameDuration : GstClockTime} {n : GstNvDsNtpCalculator}

theorem configured_new (mode : CalculatorMode) (frameDuration : GstClockTime) :
    Configured mode frameDuration (new mode frameDuration) where
  mode_eq := rfl
  correction := rfl
  have_systemTime := fun h => decide_eq_true h

theorem takeNext_cases (n : GstNvDsNtpCalculator) (ntpTs bufPts : GstClockTime) :
    ∃ epoch frame next frameNext, (n.takeNext ntpTs bufPts).1 = { n with
      ntpTimeEpochNs := epoch
      ntpFrameTimestamp := frame
      ntpTimeEpochNsNext := next
      ntpFrameTimestampNext := frameNext } := by
  unfold takeNext
  split
  · split
    · exact ⟨_, _, _, _, rfl⟩
    · exact ⟨_, _, _, _, rfl⟩
  · exact ⟨_, _, _, _, rfl⟩

theorem ntpTime_cases (n : GstNvDsNtpCalculator) (bufPts : GstClockTime) (now : Timeval) :
    ∃ epoch frame next frameNext, (n.ntpTime bufPts now).1 = { n with
      ntpTimeEpochNs := epoch
      ntpFrameTimestamp := frame
      ntpTimeEpochNsNext := next
      ntpFrameTimestampNext := frameNext } := by
  unfold ntpTime
  split
  · exact ⟨_, _, _, _, rfl⟩
  · split
    · exact ⟨_, _, _, _, rfl⟩
    · exact takeNext_cases n _ bufPts

/-- Of the other fields a buffer changes what is kept of the previous buffer. -/
theorem getBufferNtp_cases (n : GstNvDsNtpCalculator) (bufPts : GstClockTime) (now : Timeval) :
    ∃ epoch frame next frameNext, (n.getBufferNtp bufPts now).1 = { n with
      ntpTimeEpochNs := epoch
      ntpFrameTimestamp := frame
      ntpTimeEpochNsNext := next
      ntpFrameTimestampNext := frameNext
      prevNtpTs := (n.getBufferNtp bufPts now).2
      prevPts := bufPts
      bfirst := true } := by
  obtain ⟨epoch, frame, next, frameNext, h⟩ := ntpTime_cases n bufPts now
  refine ⟨epoch, frame, next, frameNext, ?_⟩
  rw [getBufferNtp, h]

theorem Configured.afterOp (h : Configured mode frameDuration n) (op : Op) :
    Configured mode frameDuration (n.afterOp op) := by
  cases op with
  | reset =>
    refine ⟨h.mode_eq, h.correction, fun hmode => ?_⟩
    have hsys : n.mode ≠ .rtcp := by
      rw [h.mode_eq, hmode]
      decide
    exact (if_neg hsys).trans (h.have_systemTime hmode)
  | call c =>
    cases c with
    | getBufferNtp bufPts now =>
      obtain ⟨epoch, frame, next, frameNext, heq⟩ := getBufferNtp_cases n bufPts now
      rw [GstNvDsNtpCalculator.afterOp, GstNvDsNtpCalculator.after, heq]
      exact ⟨h.mode_eq, h.correction, h.have_systemTime⟩
    | addNtpSyncValues epoch frame avg =>
      rw [GstNvDsNtpCalculator.afterOp, GstNvDsNtpCalculator.after, addNtpSyncValues]
      split
      · split
        · exact ⟨h.mode_eq, h.correction, fun _ => rfl⟩
        · exact ⟨h.mode_eq, h.correction, fun _ => rfl⟩
      · exact h

theorem configured_afterAll (history : List Op) (h : Configured mode frameDuration n) :
    Configured mode frameDuration (n.afterAll history) := by
  induction history generalizing n with
  | nil => exact h
  | cons op history ih => exact ih (h.afterOp op)

/-! ### Reset and new -/

theorem correctionFor_eq_user : correctionFor frameDuration = .userFrameRate ↔
    ¬(frameDuration = GST_CLOCK_TIME_NONE ∨ frameDuration = 0) := by
  unfold correctionFor
  by_cases h1 : frameDuration = GST_CLOCK_TIME_NONE
  · simp [h1]
  · by_cases h2 : frameDuration = 0
    · rw [if_neg h1, if_pos h2]
      simp [h2]
    · rw [if_neg h1, if_neg h2]
      simp [h1, h2]

/-- A reset calculator is a new one without an average frame time. -/
theorem reset_afterAll (history : List Op) :
    ((new mode frameDuration).afterAll history).reset = { new mode frameDuration with avgFrameTime := 0 } := by
  obtain ⟨hmode, hcorrection, hhave⟩ := configured_afterAll history (configured_new mode frameDuration)
  generalize (new mode frameDuration).afterAll history = n at hmode hcorrection hhave
  rw [reset, new, hmode, hcorrection]
  cases mode with
  | systemTime => rw [hhave rfl]; rfl
  | rtcp => rfl

/-- In system time mode the clock decides. -/
theorem outputs_systemTime : ∀ (calls : List Call) {n n' : GstNvDsNtpCalculator}, n.mode = .systemTime →
    n'.mode = .systemTime → n.outputs calls = n'.outputs calls
  | [], _, _, _, _ => rfl
  | c :: calls, n, n', h, h' => by
    have hafter : ∀ {x : GstNvDsNtpCalculator}, x.mode = .systemTime → (x.after c).mode = .systemTime := by
      intro x hx
      cases c with
      | getBufferNtp bufPts now =>
        obtain ⟨_, _, _, _, heq⟩ := getBufferNtp_cases x bufPts now
        rw [after, heq, hx]
      | addNtpSyncValues epoch frame avg =>
        rw [after, addNtpSyncValues, if_neg (by rw [hx]; decide), hx]
    have hout : n.output c = n'.output c := by
      cases c with
      | getBufferNtp bufPts now => simp only [output, getBufferNtp, ntpTime, h, h']
      | addNtpSyncValues epoch frame avg => rfl
    rw [outputs, outputs, hout, outputs_systemTime calls (hafter h) (hafter h')]

/-- A sender report with NTP time 1 for PTS 0, and two buffers with this PTS. -/
def sameTwice : List Call :=
  [.addNtpSyncValues 1 0 0, .getBufferNtp 0 ⟨0, 0⟩, .getBufferNtp 0 ⟨0, 0⟩]

/-- The second of the two buffers comes a frame later. -/
theorem outputs_sameTwice (h : correctionFor frameDuration = .userFrameRate) (avg : GstClockTime) :
    { new .rtcp frameDuration with avgFrameTime := avg }.outputs sameTwice = [1, 1 + avg] := by
  simp [sameTwice, outputs, output, after, new, addNtpSyncValues, getBufferNtp, ntpTime,
    applyCorrectionIfNeededRtcp, takeNext, corrected, h]

/-- **When a reset equals a new calculator.** It does so unless it corrects RTCP times by
a frame duration that the application gives. -/
theorem resetAsNew_iff (mode : CalculatorMode) (frameDuration : GstClockTime) (history : List Op) :
    (∀ calls, ((new mode frameDuration).afterAll history).reset.outputs calls = (new mode frameDuration).outputs calls) ↔
      mode = .systemTime ∨ frameDuration = GST_CLOCK_TIME_NONE ∨ frameDuration = 0 := by
  rw [reset_afterAll]
  by_cases huser : correctionFor frameDuration = .userFrameRate
  · have hd := correctionFor_eq_user.mp huser
    cases mode with
    | systemTime => exact iff_of_true (fun calls => outputs_systemTime calls rfl rfl) (.inl rfl)
    | rtcp =>
      refine iff_of_false (fun hall => ?_) (by simpa using hd)
      have hnew : new .rtcp frameDuration = { new .rtcp frameDuration with avgFrameTime := frameDuration } := by
        rw [new, if_pos huser]
      have hsame := hall sameTwice
      rw [hnew, outputs_sameTwice huser, outputs_sameTwice huser] at hsame
      exact hd (.inr (by simpa using hsame.symm))
  · refine iff_of_true (fun calls => ?_) (.inr (not_not.mp (mt correctionFor_eq_user.mpr huser)))
    rw [new, if_neg huser]

/-- At 25 frames a second the second buffer after a reset has the time of the first. -/
theorem reset_forgetsFrameRate : ¬ ∀ (mode : CalculatorMode) (frameDuration : GstClockTime) (history : List Op)
    (calls : List Call), ((new mode frameDuration).afterAll history).reset.outputs calls =
      (new mode frameDuration).outputs calls := by
  intro h
  have := h .rtcp 40000000 [.reset] sameTwice
  exact absurd this (by decide +kernel)

end Ntp
end DeepStream
