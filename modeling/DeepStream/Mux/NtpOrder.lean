/-
# Corrected NTP times and their order

With frame rate correction a time that is not after the previous one is replaced by a
later one, whatever sender reports and PTS come and however the 64 bits wrap. The one
way out is the time 0, which stands for no time: a buffer that the sync values place at
0 goes out with 0, and so behind the previous one.
-/
import DeepStream.Mux.NtpCalculator
import Mathlib.Data.List.Induction

namespace DeepStream
namespace Ntp

open GstNvDsNtpCalculator

namespace GstNvDsNtpCalculator

/-- The NTP time and the frame time by which a buffer is placed: those of the sender
report that waits, if it is taken. -/
def inUse (n : GstNvDsNtpCalculator) (bufPts : GstClockTime) : GstClockTime × GstClockTime :=
  if n.ntpTimeEpochNsNext ≠ 0 ∧ n.consistentNext bufPts then (n.ntpTimeEpochNsNext, n.ntpFrameTimestampNext)
  else (n.ntpTimeEpochNs, n.ntpFrameTimestamp)

/-- The time of a buffer before it is corrected. -/
def placed (n : GstNvDsNtpCalculator) (bufPts : GstClockTime) : GstClockTime :=
  (n.inUse bufPts).1 - (n.inUse bufPts).2 + bufPts

def afterCalls (n : GstNvDsNtpCalculator) (calls : List Call) : GstNvDsNtpCalculator := calls.foldl after n

end GstNvDsNtpCalculator

variable {n n₀ : GstNvDsNtpCalculator} {bufPts : GstClockTime} {now : Timeval} {calls : List Call}

/-! ### One buffer -/

theorem takeNext_snd (n : GstNvDsNtpCalculator) (bufPts : GstClockTime) :
    (n.takeNext (n.ntpTimeEpochNs - n.ntpFrameTimestamp + bufPts) bufPts).2 = n.placed bufPts := by
  unfold takeNext placed inUse
  by_cases hnext : n.ntpTimeEpochNsNext ≠ 0
  · by_cases hcons : n.consistentNext bufPts
    · rw [if_pos hnext, if_pos hcons, if_pos ⟨hnext, hcons⟩]
      grind
    · rw [if_pos hnext, if_neg hcons, if_neg fun h => hcons h.2]
  · rw [if_neg hnext, if_neg fun h => hnext h.1]

/-- In RTCP mode the placed time is corrected, once there are sync values. -/
theorem ntpTime_eq (hmode : n.mode = .rtcp) (hsync : n.ntpTimeEpochNs ≠ 0 ∨ n.ntpTimeEpochNsNext ≠ 0) :
    (n.ntpTime bufPts now).2 = n.corrected (n.placed bufPts) := by
  obtain ⟨_, _, _, _, htake⟩ := takeNext_cases n (n.ntpTimeEpochNs - n.ntpFrameTimestamp + bufPts) bufPts
  rw [ntpTime, hmode]
  simp only
  rw [if_neg (by rintro ⟨h, h'⟩; exact hsync.elim (absurd h) (absurd h')), applyCorrectionIfNeededRtcp, htake,
    takeNext_snd]
  rfl

/-- A corrected time is after the previous one, unless it is 0. -/
theorem forward_iff (hcorr : n.correctionMode ≠ .disabled) (hfirst : n.bfirst = true)
    (hsum : n.prevNtpTs.toNat + n.avgFrameTime.toNat < 2 ^ 64) (ntpTs : GstClockTime) :
    (n.prevNtpTs ≤ n.corrected ntpTs ∧ (0 < n.avgFrameTime → n.prevNtpTs < n.corrected ntpTs)) ↔
      ntpTs ≠ 0 ∨ n.prevNtpTs = 0 ∧ n.avgFrameTime = 0 := by
  have hadd : (n.prevNtpTs + n.avgFrameTime).toNat = n.prevNtpTs.toNat + n.avgFrameTime.toNat := by
    rw [UInt64.toNat_add, Nat.mod_eq_of_lt hsum]
  simp only [UInt64.le_iff_toNat_le, UInt64.lt_iff_toNat_lt, ← UInt64.toNat_inj, ne_eq, UInt64.toNat_zero]
  unfold corrected
  by_cases hzero : ntpTs = 0
  · rw [if_pos (.inl hzero), hzero, UInt64.toNat_zero]
    omega
  have hpos : ntpTs.toNat ≠ 0 := fun h => hzero (UInt64.toNat_inj.mp h)
  by_cases hprev : n.prevNtpTs = 0
  · rw [if_pos (.inr (.inr hprev)), hprev, UInt64.toNat_zero]
    omega
  rw [if_neg (by simp [hzero, hfirst, hprev])]
  by_cases hlate : n.prevNtpTs ≥ ntpTs ∨ ntpTs - n.prevNtpTs < n.avgFrameTime * 90 / 100
  · rw [if_pos hlate, if_neg hcorr, hadd]
    omega
  · rw [if_neg hlate]
    have : ¬ ntpTs.toNat ≤ n.prevNtpTs.toNat := fun h => hlate (.inl (UInt64.le_iff_toNat_le.mpr h))
    omega

/-! ### The sync values in a run -/

/-- Sync values are there only after a sender report. -/
def Synced (n : GstNvDsNtpCalculator) : Prop :=
  n.ntpTimeEpochNs ≠ 0 ∨ n.ntpTimeEpochNsNext ≠ 0 → n.haveNtpValues = true

theorem takeNext_fst (hsync : n.ntpTimeEpochNs ≠ 0 ∨ n.ntpTimeEpochNsNext ≠ 0) (ntpTs bufPts : GstClockTime) :
    (n.takeNext ntpTs bufPts).1.ntpTimeEpochNs ≠ 0 ∧ (n.takeNext ntpTs bufPts).1.ntpTimeEpochNsNext = 0 := by
  unfold takeNext
  by_cases hnext : n.ntpTimeEpochNsNext ≠ 0
  · rw [if_pos hnext]
    by_cases hcons : n.consistentNext bufPts
    · rw [if_pos hcons]
      exact ⟨hnext, rfl⟩
    · -- without sync values in use the report would be taken
      rw [if_neg hcons]
      refine ⟨fun hzero => hcons ?_, rfl⟩
      rw [consistentNext, hzero]
      exact Bool.or_true _
  · rw [if_neg hnext]
    exact ⟨hsync.resolve_right hnext, not_not.mp hnext⟩

/-- Once there are sync values a buffer leaves some in use. -/
theorem getBufferNtp_fst (hmode : n.mode = .rtcp) (hsync : n.ntpTimeEpochNs ≠ 0 ∨ n.ntpTimeEpochNsNext ≠ 0)
    (bufPts : GstClockTime) (now : Timeval) :
    (n.getBufferNtp bufPts now).1.ntpTimeEpochNs ≠ 0 ∧ (n.getBufferNtp bufPts now).1.haveNtpValues = n.haveNtpValues := by
  obtain ⟨_, _, _, _, hcases⟩ := getBufferNtp_cases n bufPts now
  refine ⟨?_, by rw [hcases]⟩
  have htake := (takeNext_fst hsync (n.ntpTimeEpochNs - n.ntpFrameTimestamp + bufPts) bufPts).1
  simp only [getBufferNtp, ntpTime, hmode]
  rw [if_neg (by rintro ⟨h, h'⟩; exact hsync.elim (absurd h) (absurd h'))]
  exact htake

/-- Without sync values the time is 0 and none appear. -/
theorem getBufferNtp_of_none (hmode : n.mode = .rtcp) (hnone : n.ntpTimeEpochNs = 0 ∧ n.ntpTimeEpochNsNext = 0)
    (bufPts : GstClockTime) (now : Timeval) :
    (n.getBufferNtp bufPts now).2 = 0 ∧ (n.getBufferNtp bufPts now).1.ntpTimeEpochNs = 0 ∧
      (n.getBufferNtp bufPts now).1.ntpTimeEpochNsNext = 0 := by
  simp only [getBufferNtp, ntpTime, hmode, if_pos hnone]
  exact ⟨trivial, hnone⟩

theorem Synced.after (h : Synced n) (hmode : n.mode = .rtcp) (c : Call) : Synced (n.after c) := by
  cases c with
  | addNtpSyncValues epoch frame avg =>
    rw [GstNvDsNtpCalculator.after, addNtpSyncValues, if_pos hmode]
    exact fun _ => rfl
  | getBufferNtp bufPts now =>
    intro hsync'
    by_cases hnone : n.ntpTimeEpochNs = 0 ∧ n.ntpTimeEpochNsNext = 0
    · have := getBufferNtp_of_none hmode hnone bufPts now
      exact hsync'.elim (absurd this.2.1) (absurd this.2.2)
    · have hsync : n.ntpTimeEpochNs ≠ 0 ∨ n.ntpTimeEpochNsNext ≠ 0 := not_and_or.mp hnone
      exact (getBufferNtp_fst hmode hsync bufPts now).2.trans (h hsync)

theorem synced_afterAll (mode : CalculatorMode) (frameDuration : GstClockTime) (hmode : mode = .rtcp)
    (history : List Op) : Synced ((new mode frameDuration).afterAll history) := by
  induction history using List.reverseRecOn with
  | nil => exact fun h => absurd rfl (h.elim id id)
  | append_singleton history op ih =>
    rw [afterAll, List.foldl_append]
    have hconf := configured_afterAll history (configured_new mode frameDuration)
    cases op with
    | call c => exact ih.after (hconf.mode_eq.trans hmode) c
    | reset => exact fun h => absurd rfl (h.elim id id)

/-! ### What the calls have returned -/

theorem outputs_append : ∀ (n : GstNvDsNtpCalculator) (calls calls' : List Call),
    n.outputs (calls ++ calls') = n.outputs calls ++ (n.afterCalls calls).outputs calls'
  | _, [], _ => rfl
  | n, c :: calls, calls' => by
    rw [List.cons_append, outputs, outputs, outputs_append (n.after c), List.append_assoc]
    rfl

/-- What holds after some calls: the last time returned is kept, and after one that is
not 0 there are sync values in use. -/
structure Ran (n₀ : GstNvDsNtpCalculator) (calls : List Call) : Prop where
  mode : (n₀.afterCalls calls).mode = .rtcp
  correction : (n₀.afterCalls calls).correctionMode = n₀.correctionMode
  synced : Synced (n₀.afterCalls calls)
  last : ∀ v ∈ (n₀.outputs calls).getLast?, v = (n₀.afterCalls calls).prevNtpTs ∧ (n₀.afterCalls calls).bfirst = true
  inUse : (∃ v ∈ n₀.outputs calls, v ≠ 0) → (n₀.afterCalls calls).ntpTimeEpochNs ≠ 0

theorem ran (hmode : n₀.mode = .rtcp) (hsynced : Synced n₀) (calls : List Call) : Ran n₀ calls := by
  induction calls using List.reverseRecOn with
  | nil =>
    refine ⟨hmode, rfl, hsynced, fun v hv => ?_, ?_⟩
    · cases hv
    · rintro ⟨v, hv, -⟩
      cases hv
  | append_singleton calls c ih =>
    have hafter : n₀.afterCalls (calls ++ [c]) = (n₀.afterCalls calls).after c := by
      rw [afterCalls, List.foldl_append]
      rfl
    have hout : n₀.outputs (calls ++ [c]) = n₀.outputs calls ++ ((n₀.afterCalls calls).output c).toList := by
      rw [outputs_append, outputs, outputs, List.append_nil]
    have hsync := ih.synced.after ih.mode c
    cases c with
    | addNtpSyncValues epoch frame avg =>
      have hcase : (n₀.afterCalls calls).addNtpSyncValues epoch frame avg =
          if (n₀.afterCalls calls).haveNtpValues then
            { n₀.afterCalls calls with
              ntpTimeEpochNsNext := epoch
              ntpFrameTimestampNext := frame
              avgFrameTime := if (n₀.afterCalls calls).correctionMode = .userFrameRate then
                (n₀.afterCalls calls).avgFrameTime else avg
              haveNtpValues := true }
          else
            { n₀.afterCalls calls with
              ntpTimeEpochNs := epoch
              ntpFrameTimestamp := frame
              avgFrameTime := if (n₀.afterCalls calls).correctionMode = .userFrameRate then
                (n₀.afterCalls calls).avgFrameTime else avg
              haveNtpValues := true } := by
        rw [addNtpSyncValues, if_pos ih.mode]
        split <;> rfl
      rw [output, Option.toList_none, List.append_nil] at hout
      rw [GstNvDsNtpCalculator.after] at hafter
      constructor
      · rw [hafter, hcase]
        split <;> exact ih.mode
      · rw [hafter, hcase]
        split <;> exact ih.correction
      · rw [hafter]
        exact hsync
      · rw [hafter, hout, hcase]
        split <;> exact ih.last
      · rw [hafter, hout, hcase]
        intro hv
        rw [if_pos (ih.synced (.inl (ih.inUse hv)))]
        exact ih.inUse hv
    | getBufferNtp bufPts now =>
      obtain ⟨_, _, _, _, hcases⟩ := getBufferNtp_cases (n₀.afterCalls calls) bufPts now
      rw [output, Option.toList_some] at hout
      rw [GstNvDsNtpCalculator.after] at hafter
      constructor
      · rw [hafter, hcases]
        exact ih.mode
      · rw [hafter, hcases]
        exact ih.correction
      · rw [hafter]
        exact hsync
      · intro v hv
        rw [hout, List.getLast?_append_cons, List.getLast?_singleton, Option.mem_some_iff] at hv
        rw [hafter, hcases]
        exact ⟨hv.symm, rfl⟩
      · rintro ⟨v, hv, hne⟩
        rw [hafter]
        refine (getBufferNtp_fst ih.mode ?_ bufPts now).1
        rw [hout, List.mem_append, List.mem_singleton] at hv
        rcases hv with hv | rfl
        · exact .inl (ih.inUse ⟨v, hv, hne⟩)
        · by_contra hnone
          push Not at hnone
          exact hne (getBufferNtp_of_none ih.mode hnone bufPts now).1

/-! ### Runs -/

/-- After a time that is not 0 every time is at least the previous one, and later than it
where the average frame time is positive, as long as their sum fits into 64 bits. -/
def NeverBack (n₀ : GstNvDsNtpCalculator) (calls : List Call) : Prop :=
  ∀ earlier bufPts now, earlier ++ [.getBufferNtp bufPts now] <+: calls → (∃ v ∈ n₀.outputs earlier, v ≠ 0) →
    let n := n₀.afterCalls earlier
    n.prevNtpTs.toNat + n.avgFrameTime.toNat < 2 ^ 64 → ∀ last ∈ (n₀.outputs earlier).getLast?,
      last ≤ (n.getBufferNtp bufPts now).2 ∧ (0 < n.avgFrameTime → last < (n.getBufferNtp bufPts now).2)

/-- After a time that is not 0 the sync values place no buffer at 0, except where the
previous one is there and the average frame time is 0 too. -/
def PlacedAll (n₀ : GstNvDsNtpCalculator) (calls : List Call) : Prop :=
  ∀ earlier bufPts now, earlier ++ [.getBufferNtp bufPts now] <+: calls → (∃ v ∈ n₀.outputs earlier, v ≠ 0) →
    let n := n₀.afterCalls earlier
    n.prevNtpTs.toNat + n.avgFrameTime.toNat < 2 ^ 64 →
      n.placed bufPts ≠ 0 ∨ n.prevNtpTs = 0 ∧ n.avgFrameTime = 0

/-- **When corrected times never go back.** With correction and without a reset they do
so as long as no buffer is placed at 0. -/
theorem neverBack_iff {frameDuration : GstClockTime} (hcorr : frameDuration ≠ GST_CLOCK_TIME_NONE)
    (history : List Op) (calls : List Call) :
    NeverBack ((new .rtcp frameDuration).afterAll history) calls ↔
      PlacedAll ((new .rtcp frameDuration).afterAll history) calls := by
  have hconf := configured_afterAll history (configured_new .rtcp frameDuration)
  have hsynced := synced_afterAll .rtcp frameDuration rfl history
  generalize (new .rtcp frameDuration).afterAll history = n₀ at hconf hsynced
  refine forall_congr' fun earlier => forall_congr' fun bufPts => forall_congr' fun now => imp_congr_right fun _ =>
    imp_congr_right fun hout => imp_congr_right fun hsum => ?_
  obtain ⟨hmode, hcorrection, -, hlast, huse⟩ := ran hconf.mode_eq hsynced earlier
  obtain ⟨v, hv, hne⟩ := hout
  have hinUse := huse ⟨v, hv, hne⟩
  obtain ⟨last, hl⟩ := Option.isSome_iff_exists.mp (List.getLast?_isSome.mpr (List.ne_nil_of_mem hv))
  obtain ⟨hprev, hfirst⟩ := hlast last hl
  have hdisabled : (n₀.afterCalls earlier).correctionMode ≠ .disabled := by
    rw [hcorrection, hconf.correction, correctionFor, if_neg hcorr]
    split <;> decide
  have hforward := forward_iff hdisabled hfirst hsum ((n₀.afterCalls earlier).placed bufPts)
  rw [← @ntpTime_eq _ _ now hmode (.inl hinUse)] at hforward
  rw [← hforward, hl]
  simp only [Option.mem_def, Option.some.injEq, forall_eq', hprev]
  rfl

/-- A sender report, a buffer that it places at 1 and one with the PTS of the report. -/
theorem neverBack_iff_oneReport :
    NeverBack ((new .rtcp 0).afterAll []) [.addNtpSyncValues 1 5 2, .getBufferNtp 5 ⟨0, 0⟩, .getBufferNtp 5 ⟨0, 0⟩] ↔
      PlacedAll ((new .rtcp 0).afterAll []) [.addNtpSyncValues 1 5 2, .getBufferNtp 5 ⟨0, 0⟩, .getBufferNtp 5 ⟨0, 0⟩] :=
  neverBack_iff (by decide) [] _

/-- A report says that PTS 2 has NTP time 1. The buffer with this PTS gets it, and one
with PTS 1 gets 0. -/
theorem ntp_back : ¬ ∀ (frameDuration : GstClockTime), frameDuration ≠ GST_CLOCK_TIME_NONE →
    ∀ calls, NeverBack (new .rtcp frameDuration) calls := by
  intro h
  have := h 0 (by decide) [.addNtpSyncValues 1 2 1, .getBufferNtp 2 ⟨0, 0⟩, .getBufferNtp 1 ⟨0, 0⟩]
    [.addNtpSyncValues 1 2 1, .getBufferNtp 2 ⟨0, 0⟩] 1 ⟨0, 0⟩ (List.prefix_refl _) ⟨1, by decide +kernel⟩
    (by decide +kernel) 1 (by decide +kernel)
  exact absurd this.1 (by decide +kernel)

end Ntp
end DeepStream
