/-
# When a batch is pushed

`BatchPolicy` turns the fractions of the configuration and the timeout of the
element into durations, and `calculate_wait` says how long the push loop waits.
Durations and times are doubles of nanoseconds; here they are rational numbers,
and a division by zero has no result. What the policy has besides its times is
in `DeepStream.Mux.Batch`.

The clock is steady and goes on between two operations, which the mutex of the
muxer keeps apart.
-/
import DeepStream.Lib.Run
import DeepStream.Mux.ConfigParser
import Mathlib.Algebra.Order.Field.Basic
import Mathlib.Tactic.Linarith

namespace DeepStream
namespace Mux
namespace Timing

open MuxConfigParser

/-! ### The policy -/

/-- Doubles would give an infinity or no number for a division by zero. -/
def quotient (x y : ℚ) : Option ℚ := if y = 0 then none else some (x / y)

/-- The duration of a frame at `n / d` frames a second. -/
def frameDur (d n : ℕ) : Option ℚ := quotient (d * 1000000000) n

structure BatchPolicy where
  config : MuxConfigParser.BatchPolicyConfig
  sources : List ℕ
  srcMaxFps : List (ℕ × ℚ)
  maxFpsDur : ℚ
  minFpsDur : ℚ
  minEarlyBufferDur : ℚ
  lastBatchTime : ℚ
  maxDurTime : ℚ
  minDurTime : ℚ
  deriving DecidableEq

namespace BatchPolicy

variable (b : BatchPolicy)

def updateLastBatchTime (now : ℕ) : BatchPolicy :=
  { b with lastBatchTime := now, minDurTime := now + b.maxFpsDur, maxDurTime := now + b.minFpsDur }

/-- One round of the constructor over `source_props`. -/
def sourceFps (source : ℕ × MuxConfigParser.NvStreammuxSourceProps) : Option (ℕ × ℚ) := do
  -- `s_min_fps_dur`, which is not read
  let _ ← quotient source.2.sourceMinFpsD source.2.sourceMinFpsN
  let sMaxFps ← quotient source.2.sourceMaxFpsN source.2.sourceMaxFpsD
  return (source.1, sMaxFps)

/-- The constructor, with the ids of the pads. -/
def create (policy : MuxConfigParser.BatchPolicyConfig) (inputs : List ℕ) (now : ℕ) : Option BatchPolicy := do
  let srcMaxFps ← policy.sourceProps.mapM sourceFps
  let sources := policy.sourceProps.map Prod.fst
  let maxFpsDur ← frameDur policy.overallMaxFpsD policy.overallMaxFpsN
  let minFpsDur ← frameDur policy.overallMinFpsD policy.overallMinFpsN
  let b : BatchPolicy :=
    { config := policy
      sources := sources ++ inputs.filter (· ∉ sources)
      srcMaxFps := srcMaxFps
      maxFpsDur := maxFpsDur
      minFpsDur := minFpsDur
      minEarlyBufferDur := 0
      lastBatchTime := 0
      maxDurTime := 0
      minDurTime := 0 }
  return b.updateLastBatchTime now

def defaultSourceProps : MuxConfigParser.NvStreammuxSourceProps where
  sourceMaxFpsN := defaultSourceGroupMaxFpsN
  sourceMaxFpsD := defaultSourceGroupMaxFpsD
  sourceMinFpsN := defaultSourceGroupMinFpsN
  sourceMinFpsD := defaultSourceGroupMinFpsD
  priority := MuxConfigParser.defaultSourceGroupPriority
  maxNumFramesPerBatch := MuxConfigParser.defaultSourceGroupMaxFramesPerBatch

def checkAndUpdateDefaults (sourceId : ℕ) : Option BatchPolicy :=
  if sourceId ∈ b.sources then some b
  else
    let b := { b with sources := b.sources ++ [sourceId] }
    if (b.config.sourceProps.lookup sourceId).isSome then some b
    else (quotient defaultSourceProps.sourceMaxFpsN defaultSourceProps.sourceMaxFpsD).map fun sMaxFps =>
      { b with
        config := b.config.insertSource sourceId defaultSourceProps
        srcMaxFps := b.srcMaxFps ++ [(sourceId, sMaxFps)] }

/-- The integer division by `timeout` is undefined for 0. -/
def setBatchPushTimeout (timeout : ℕ) : Option BatchPolicy :=
  if timeout = 0 then none
  else
    let config := { b.config with overallMinFpsN := 1000000 / timeout, overallMinFpsD := 1 }
    (frameDur config.overallMinFpsD config.overallMinFpsN).map fun d => { b with config := config, minFpsDur := d }

/-- `synchronize_buffers_in_pad` has met a buffer that is early by so many nanoseconds. -/
def earlyBuffer (thisBufferEarlybyTime : ℕ) : BatchPolicy :=
  if (thisBufferEarlybyTime : ℚ) < b.minEarlyBufferDur ∨ b.minEarlyBufferDur = 0 then
    { b with minEarlyBufferDur := thisBufferEarlybyTime }
  else b

/-- `max_dur_time` as `calculate_wait` leaves it. -/
def waitUntil : ℚ :=
  if b.minFpsDur < b.minEarlyBufferDur then b.lastBatchTime - b.minFpsDur + b.minEarlyBufferDur else b.maxDurTime

/-- The wait that is returned. -/
def calculateWait (now : ℕ) : ℚ × BatchPolicy :=
  (if now < b.waitUntil then b.waitUntil - now else 0,
    { b with maxDurTime := b.waitUntil, minEarlyBufferDur := 0 })

end BatchPolicy

/-- What `ParseConfigs` sets without a file. -/
def defaultConfig (numSources : ℕ) : MuxConfigParser.BatchPolicyConfig where
  type := batchMethodRoundRobin
  adaptiveBatching := true
  batchSize := defaultPropGroupBatchSize
  overallMaxFpsN := defaultPropGroupOverallMaxFpsN
  overallMaxFpsD := defaultPropGroupOverallMaxFpsD
  overallMinFpsN := defaultPropGroupOverallMinFpsN
  overallMinFpsD := defaultPropGroupOverallMinFpsD
  maxSameSourceFrames := 1
  enableSourceRateControl := false
  enableMaxFpsControl := false
  sourceProps := (List.range numSources).map fun i => (i, BatchPolicy.defaultSourceProps)

/-- The frame period that the minimum fps of the configuration implies. -/
def minFpsPeriod (config : MuxConfigParser.BatchPolicyConfig) : ℚ := config.overallMinFpsD / config.overallMinFpsN * 1000000000

/-! ### The muxer -/

/-- What the property `batched-push-timeout` takes, in microseconds. -/
abbrev BatchedPushTimeout := { timeout : ℕ // 1 ≤ timeout ∧ timeout < 2 ^ 31 }

/-- `waitPeriod` records the frame period of the minimum fps when `max_dur_time` was
computed, and is not read. -/
structure Muxer where
  policy : BatchPolicy
  now : ℕ
  waitPeriod : ℚ
  deriving DecidableEq

inductive Action where
  | tick (ns : ℕ)
  | setPolicy (cfg : MuxConfigParser.BatchPolicyConfig) (inputs : List ℕ)
  | setBatchPushTimeout (timeout : BatchedPushTimeout)
  | checkAndUpdateDefaults (sourceId : ℕ)
  | earlyBuffer (thisBufferEarlybyTime : ℕ)
  | updateLastBatchTime
  | calculateWait

namespace Muxer

variable (s : Muxer)

def step : Action → Option Muxer
  | .tick ns => some { s with now := s.now + ns }
  | .setPolicy cfg inputs =>
    (BatchPolicy.create cfg inputs s.now).map fun b => { s with policy := b, waitPeriod := b.minFpsDur }
  | .setBatchPushTimeout timeout => (s.policy.setBatchPushTimeout timeout.val).map fun b => { s with policy := b }
  | .checkAndUpdateDefaults sourceId => (s.policy.checkAndUpdateDefaults sourceId).map fun b => { s with policy := b }
  | .earlyBuffer earlyby => some { s with policy := s.policy.earlyBuffer earlyby }
  | .updateLastBatchTime =>
    some { s with policy := s.policy.updateLastBatchTime s.now, waitPeriod := s.policy.minFpsDur }
  | .calculateWait =>
    some { s with
      policy := (s.policy.calculateWait s.now).2
      waitPeriod := if s.policy.minFpsDur < s.policy.minEarlyBufferDur then s.policy.minFpsDur else s.waitPeriod }

/-- The muxer that `gst_nvstreammux_2_init` makes. -/
def Started : Prop :=
  ∃ b, BatchPolicy.create (defaultConfig 0) [] s.now = some b ∧ s.policy = b ∧ s.waitPeriod = b.minFpsDur

/-- No division by zero; a timeout gives a period that differs by less than a microsecond,
and a wait is no longer than the period. -/
def Safe : Action → Prop
  | .setBatchPushTimeout timeout => ∃ s', s.step (.setBatchPushTimeout timeout) = some s' ∧
      |s'.policy.minFpsDur - 1000 * timeout.val| < 1000
  | .calculateWait => 0 ≤ (s.policy.calculateWait s.now).1 ∧
      (s.policy.calculateWait s.now).1 ≤ minFpsPeriod s.policy.config
  | a => (s.step a).isSome

/-- The fractions are of numbers that are not 0, and a timeout is not changed by the division
for the fps. A buffer is not early by much more than two periods, and without early buffers
the period is not lowered while there is still more than that to wait. -/
def TimingOk : Action → Prop
  | .setPolicy cfg _ => cfg.overallMaxFpsN ≠ 0 ∧ cfg.overallMinFpsN ≠ 0 ∧
      ∀ source ∈ cfg.sourceProps, source.2.sourceMinFpsN ≠ 0 ∧ source.2.sourceMaxFpsD ≠ 0
  | .setBatchPushTimeout timeout => 1000000 % timeout.val < 1000000 / timeout.val
  | .calculateWait =>
    if s.policy.minFpsDur < s.policy.minEarlyBufferDur then
      s.policy.minEarlyBufferDur ≤ 2 * s.policy.minFpsDur + (s.now - s.policy.lastBatchTime)
    else s.waitPeriod ≤ s.policy.minFpsDur ∨ s.policy.maxDurTime ≤ s.now + s.policy.minFpsDur
  | _ => True

instance : ∀ a, Decidable (s.TimingOk a)
  | .setPolicy _ _ => inferInstanceAs (Decidable (_ ∧ _ ∧ _))
  | .setBatchPushTimeout _ => inferInstanceAs (Decidable (_ < _))
  | .calculateWait => inferInstanceAs (Decidable (ite _ _ _))
  | .tick _ | .checkAndUpdateDefaults _ | .earlyBuffer _ | .updateLastBatchTime => inferInstanceAs (Decidable True)

end Muxer

/-! ### Durations -/

theorem quotient_eq_some {x y q : ℚ} : quotient x y = some q ↔ y ≠ 0 ∧ x / y = q := by
  unfold quotient
  split <;> simp_all

theorem quotient_isSome (x y : ℚ) : (quotient x y).isSome ↔ y ≠ 0 := by
  unfold quotient
  split <;> simp_all

theorem frameDur_eq_some {d n : ℕ} {q : ℚ} : frameDur d n = some q ↔ n ≠ 0 ∧ (d : ℚ) / n * 1000000000 = q := by
  rw [frameDur, quotient_eq_some, Nat.cast_ne_zero, div_mul_eq_mul_div]

theorem frameDur_isSome (d n : ℕ) : (frameDur d n).isSome ↔ n ≠ 0 := by
  rw [frameDur, quotient_isSome, Nat.cast_ne_zero]

/-- The period of a timeout is never shorter, and what it is too long by comes from the division. -/
theorem period_iff (timeout : ℕ) :
    1000000 % timeout < 1000000 / timeout ↔
      1000000 / timeout ≠ 0 ∧ |((1 : ℕ) : ℚ) / (1000000 / timeout : ℕ) * 1000000000 - 1000 * timeout| < 1000 := by
  set n := 1000000 / timeout with hn
  have hsplit : n * timeout + 1000000 % timeout = 1000000 := Nat.div_add_mod' 1000000 timeout
  by_cases h0 : n = 0
  · simp [h0]
  have hpos : (0 : ℚ) < n := by exact_mod_cast Nat.pos_of_ne_zero h0
  have hperiod : ((1 : ℕ) : ℚ) / n * 1000000000 - 1000 * timeout = 1000 * (1000000 % timeout : ℕ) / n := by
    rw [eq_div_iff hpos.ne', sub_mul, mul_right_comm, Nat.cast_one, one_div, inv_mul_cancel₀ hpos.ne']
    have hcast : (n : ℚ) * timeout + (1000000 % timeout : ℕ) = 1000000 := by exact_mod_cast hsplit
    linarith
  rw [and_iff_right h0, hperiod, abs_of_nonneg (by positivity), div_lt_iff₀ hpos]
  rw [mul_lt_mul_iff_right₀ (by norm_num : (0 : ℚ) < 1000), Nat.cast_lt]

namespace BatchPolicy

variable {b b' : BatchPolicy}

/-- The durations of the policy; that of the minimum fps is the period of the configuration. -/
structure Timely (b : BatchPolicy) : Prop where
  maxFps : 0 ≤ b.maxFpsDur
  minFps : 0 ≤ b.minFpsDur
  early : 0 ≤ b.minEarlyBufferDur
  period : b.minFpsDur = minFpsPeriod b.config

theorem sourceFps_isSome (source : ℕ × MuxConfigParser.NvStreammuxSourceProps) :
    (sourceFps source).isSome ↔ source.2.sourceMinFpsN ≠ 0 ∧ source.2.sourceMaxFpsD ≠ 0 := by
  have hmax : ∀ q : ℚ, quotient source.2.sourceMinFpsD source.2.sourceMinFpsN = some q →
      (((quotient source.2.sourceMaxFpsN source.2.sourceMaxFpsD).bind fun sMaxFps => some (source.1, sMaxFps)).isSome ↔
        source.2.sourceMaxFpsD ≠ 0) := fun _ _ => by
    rw [isSome_bind_of_forall (P := True) fun _ _ => by simp, and_true, quotient_isSome, Nat.cast_ne_zero]
  have hmin := isSome_bind_of_forall hmax
  rw [quotient_isSome, Nat.cast_ne_zero] at hmin
  exact hmin

theorem create_eq_some {policy : MuxConfigParser.BatchPolicyConfig} {inputs : List ℕ} {now : ℕ}
    (h : create policy inputs now = some b) : policy.overallMaxFpsN ≠ 0 ∧ policy.overallMinFpsN ≠ 0 ∧
      (∀ source ∈ policy.sourceProps, (sourceFps source).isSome) ∧ b.Timely ∧ b.lastBatchTime = now ∧
      b.maxDurTime = now + b.minFpsDur := by
  simp only [create, Option.bind_eq_bind, Option.bind_eq_some_iff, Option.pure_def, Option.some.injEq] at h
  obtain ⟨fps, hfps, maxDur, hmax, minDur, hmin, rfl⟩ := h
  obtain ⟨hmaxN, hmax⟩ := frameDur_eq_some.mp hmax
  obtain ⟨hminN, hmin⟩ := frameDur_eq_some.mp hmin
  refine ⟨hmaxN, hminN, isSome_mapM_iff.mp (Option.isSome_of_eq_some hfps), ⟨?_, ?_, le_rfl, hmin.symm⟩, rfl, rfl⟩
  · show 0 ≤ maxDur
    rw [← hmax]
    positivity
  · show 0 ≤ minDur
    rw [← hmin]
    positivity

theorem create_isSome (policy : MuxConfigParser.BatchPolicyConfig) (inputs : List ℕ) (now : ℕ) :
    (create policy inputs now).isSome ↔ policy.overallMaxFpsN ≠ 0 ∧ policy.overallMinFpsN ≠ 0 ∧
      ∀ source ∈ policy.sourceProps, source.2.sourceMinFpsN ≠ 0 ∧ source.2.sourceMaxFpsD ≠ 0 := by
  constructor
  · intro h
    obtain ⟨b, hb⟩ := Option.isSome_iff_exists.mp h
    obtain ⟨hmax, hmin, hsources, -⟩ := create_eq_some hb
    exact ⟨hmax, hmin, fun source hs => (sourceFps_isSome source).mp (hsources source hs)⟩
  · rintro ⟨hmax, hmin, hsources⟩
    obtain ⟨fps, hfps⟩ := Option.isSome_iff_exists.mp
      (isSome_mapM_iff.mpr fun source hs => (sourceFps_isSome source).mpr (hsources source hs))
    obtain ⟨maxDur, hmaxDur⟩ := Option.isSome_iff_exists.mp ((frameDur_isSome policy.overallMaxFpsD _).mpr hmax)
    obtain ⟨minDur, hminDur⟩ := Option.isSome_iff_exists.mp ((frameDur_isSome policy.overallMinFpsD _).mpr hmin)
    simp [create, hfps, hmaxDur, hminDur]

theorem insertSource_eq (config : MuxConfigParser.BatchPolicyConfig) (sourceIdx : ℕ) (props : MuxConfigParser.NvStreammuxSourceProps) :
    ∃ sourceProps, config.insertSource sourceIdx props = { config with sourceProps := sourceProps } := by
  unfold MuxConfigParser.BatchPolicyConfig.insertSource
  dsimp only
  split
  · exact ⟨_, rfl⟩
  · exact ⟨_, rfl⟩

theorem checkAndUpdateDefaults_cases (b : BatchPolicy) (sourceId : ℕ) :
    ∃ sources sourceProps srcMaxFps, b.checkAndUpdateDefaults sourceId = some { b with
      config := { b.config with sourceProps := sourceProps }
      sources := sources
      srcMaxFps := srcMaxFps } := by
  unfold checkAndUpdateDefaults
  split
  · exact ⟨_, _, _, rfl⟩
  · dsimp only
    split
    · exact ⟨_, _, _, rfl⟩
    · obtain ⟨sourceProps, hprops⟩ := insertSource_eq b.config sourceId defaultSourceProps
      refine ⟨b.sources ++ [sourceId], sourceProps, b.srcMaxFps ++ [(sourceId, 60)], ?_⟩
      have hfps : quotient defaultSourceProps.sourceMaxFpsN defaultSourceProps.sourceMaxFpsD = some 60 :=
        quotient_eq_some.mpr (by norm_num [defaultSourceProps, defaultSourceGroupMaxFpsN, defaultSourceGroupMaxFpsD])
      rw [hprops, hfps, Option.map_some]

theorem setBatchPushTimeout_eq_some {timeout : ℕ} (h : b.setBatchPushTimeout timeout = some b') :
    1000000 / timeout ≠ 0 ∧ ∃ config, minFpsPeriod config = ((1 : ℕ) : ℚ) / (1000000 / timeout : ℕ) * 1000000000 ∧
      b' = { b with config := config, minFpsDur := minFpsPeriod config } := by
  unfold setBatchPushTimeout at h
  split at h
  · cases h
  · obtain ⟨d, hd, rfl⟩ := Option.map_eq_some_iff.mp h
    obtain ⟨hn, rfl⟩ := frameDur_eq_some.mp hd
    exact ⟨hn, _, rfl, rfl⟩

theorem setBatchPushTimeout_isSome (b : BatchPolicy) {timeout : ℕ} (ht : timeout ≠ 0) :
    (b.setBatchPushTimeout timeout).isSome ↔ 1000000 / timeout ≠ 0 := by
  unfold setBatchPushTimeout
  rw [if_neg ht, Option.isSome_map, frameDur_isSome]

end BatchPolicy

/-! ### Runs -/

namespace Muxer

variable {s s' : Muxer}

structure Inv (s : Muxer) : Prop where
  timely : s.policy.Timely
  last : s.policy.lastBatchTime ≤ s.now
  deadline : s.policy.maxDurTime ≤ s.now + s.waitPeriod

/-- Every policy that is made ends the first wait after one period. -/
theorem Inv.of_create {cfg : MuxConfigParser.BatchPolicyConfig} {inputs : List ℕ} {b : BatchPolicy}
    (h : BatchPolicy.create cfg inputs s.now = some b) : Inv { s with policy := b, waitPeriod := b.minFpsDur } := by
  obtain ⟨-, -, -, htimely, hlast, hmax⟩ := BatchPolicy.create_eq_some h
  exact ⟨htimely, hlast.le, hmax.le⟩

theorem inv_started (h : s.Started) : Inv s := by
  obtain ⟨b, hb, hpolicy, hperiod⟩ := h
  have hs : s = { s with policy := b, waitPeriod := b.minFpsDur } := by
    rw [← hpolicy]
    cases s
    simp_all
  rw [hs]
  exact Inv.of_create hb

/-- The wait is at most a period exactly if the time until which it goes is. -/
theorem calculateWait_le_iff (h : Inv s) : (s.policy.calculateWait s.now).1 ≤ s.policy.minFpsDur ↔
    s.policy.waitUntil ≤ s.now + s.policy.minFpsDur := by
  have hperiod := h.timely.minFps
  unfold BatchPolicy.calculateWait
  split
  · exact sub_le_iff_le_add'
  · constructor
    · intro _
      linarith
    · intro _
      exact hperiod

theorem calculateWait_nonneg (b : BatchPolicy) (now : ℕ) : 0 ≤ (b.calculateWait now).1 := by
  unfold BatchPolicy.calculateWait
  split
  · rename_i hlt
    exact sub_nonneg.mpr hlt.le
  · exact le_rfl

/-- In a state that is reached the condition says exactly what is not safe. -/
theorem safe_calculateWait_iff (h : Inv s) : s.Safe .calculateWait ↔ s.TimingOk .calculateWait := by
  show 0 ≤ _ ∧ _ ≤ minFpsPeriod _ ↔ _
  rw [and_iff_right (calculateWait_nonneg _ _), ← h.timely.period, calculateWait_le_iff h]
  simp only [BatchPolicy.waitUntil, TimingOk]
  split
  · constructor
    · intro hle
      linarith
    · intro hle
      linarith
  · have hdeadline := h.deadline
    constructor
    · exact .inr
    · rintro (hperiod | hle)
      · linarith
      · exact hle

theorem setBatchPushTimeout_iff (s : Muxer) (timeout : BatchedPushTimeout) :
    s.Safe (.setBatchPushTimeout timeout) ↔ s.TimingOk (.setBatchPushTimeout timeout) := by
  show (∃ s', _ ∧ _) ↔ 1000000 % timeout.val < 1000000 / timeout.val
  rw [period_iff]
  constructor
  · rintro ⟨s', hs, hperiod⟩
    obtain ⟨b, hb, rfl⟩ := Option.map_eq_some_iff.mp hs
    obtain ⟨hn, config, hconfig, rfl⟩ := BatchPolicy.setBatchPushTimeout_eq_some hb
    rw [← hconfig]
    exact ⟨hn, hperiod⟩
  · rintro ⟨hn, hperiod⟩
    have ht : timeout.val ≠ 0 := Nat.ne_of_gt timeout.property.1
    obtain ⟨b, hb⟩ := Option.isSome_iff_exists.mp ((BatchPolicy.setBatchPushTimeout_isSome s.policy ht).mpr hn)
    refine ⟨{ s with policy := b }, by rw [step, hb, Option.map_some], ?_⟩
    obtain ⟨-, config, hconfig, rfl⟩ := BatchPolicy.setBatchPushTimeout_eq_some hb
    rw [← hconfig] at hperiod
    exact hperiod

theorem safe_iff (h : Inv s) (a : Action) : s.Safe a ↔ s.TimingOk a := by
  cases a with
  | setPolicy cfg inputs =>
    show (Option.map _ _).isSome ↔ _
    rw [Option.isSome_map, BatchPolicy.create_isSome]
    exact Iff.rfl
  | setBatchPushTimeout timeout => exact setBatchPushTimeout_iff s timeout
  | calculateWait => exact safe_calculateWait_iff h
  | checkAndUpdateDefaults sourceId =>
    obtain ⟨sources, sourceProps, srcMaxFps, hb⟩ := BatchPolicy.checkAndUpdateDefaults_cases s.policy sourceId
    exact iff_of_true (by simp only [Safe, step, hb, Option.map_some, Option.isSome_some]) trivial
  | tick | earlyBuffer | updateLastBatchTime => exact iff_of_true rfl trivial

theorem inv_step {a : Action} (h : Inv s) (hok : s.TimingOk a) (hs : s.step a = some s') : Inv s' := by
  have hpos := h.timely.minFps
  cases a with
  | tick ns =>
    obtain rfl := Option.some.inj hs
    have hnow : (s.now : ℚ) ≤ (s.now + ns : ℕ) := by exact_mod_cast Nat.le_add_right _ _
    have hlast := h.last
    have hdeadline := h.deadline
    exact ⟨h.timely, hlast.trans hnow, by show s.policy.maxDurTime ≤ _ + s.waitPeriod; linarith⟩
  | setPolicy cfg inputs =>
    obtain ⟨b, hb, rfl⟩ := Option.map_eq_some_iff.mp hs
    exact Inv.of_create hb
  | setBatchPushTimeout timeout =>
    obtain ⟨b, hb, rfl⟩ := Option.map_eq_some_iff.mp hs
    obtain ⟨hn, config, hconfig, rfl⟩ := BatchPolicy.setBatchPushTimeout_eq_some hb
    have hnonneg : 0 ≤ minFpsPeriod config := by
      rw [hconfig]
      positivity
    exact ⟨⟨h.timely.maxFps, hnonneg, h.timely.early, rfl⟩, h.last, h.deadline⟩
  | checkAndUpdateDefaults sourceId =>
    obtain ⟨b, hb, rfl⟩ := Option.map_eq_some_iff.mp hs
    obtain ⟨sources, sourceProps, srcMaxFps, hcases⟩ := BatchPolicy.checkAndUpdateDefaults_cases s.policy sourceId
    obtain rfl := Option.some.inj (hb.symm.trans hcases)
    exact ⟨⟨h.timely.maxFps, hpos, h.timely.early, h.timely.period⟩, h.last, h.deadline⟩
  | earlyBuffer earlyby =>
    obtain rfl := Option.some.inj hs
    unfold BatchPolicy.earlyBuffer
    split
    · exact ⟨⟨h.timely.maxFps, hpos, Nat.cast_nonneg _, h.timely.period⟩, h.last, h.deadline⟩
    · exact h
  | updateLastBatchTime =>
    obtain rfl := Option.some.inj hs
    exact ⟨⟨h.timely.maxFps, hpos, h.timely.early, h.timely.period⟩, le_rfl, le_rfl⟩
  | calculateWait =>
    obtain rfl := Option.some.inj hs
    refine ⟨⟨h.timely.maxFps, hpos, le_rfl, h.timely.period⟩, h.last, ?_⟩
    have hdeadline := h.deadline
    show s.policy.waitUntil ≤ _ + ite _ _ _
    simp only [TimingOk, BatchPolicy.waitUntil] at hok ⊢
    split
    · rename_i hearly
      rw [if_pos hearly] at hok
      linarith
    · exact hdeadline

/-- **No duration is negative, and each operation is safe exactly if the condition holds**,
in every run whose steps have met it. -/
theorem timing_safe (h : Reach step TimingOk Started s) :
    (0 ≤ s.policy.maxFpsDur ∧ 0 ≤ s.policy.minFpsDur ∧ 0 ≤ s.policy.minEarlyBufferDur) ∧
      ∀ a, s.Safe a ↔ s.TimingOk a := by
  have hinv : Inv s := h.invariant (fun _ => inv_started) fun _ _ _ => inv_step
  exact ⟨⟨hinv.timely.maxFps, hinv.timely.minFps, hinv.timely.early⟩, safe_iff hinv⟩

/-- The muxer before it has a configuration file or a timeout. -/
def new : Muxer where
  policy := ⟨defaultConfig 0, [], [], 1000000000 / 120, 200000000, 0, 0, 200000000, 1000000000 / 120⟩
  now := 0
  waitPeriod := 200000000

theorem new_started : new.Started := ⟨new.policy, by decide +kernel, rfl, rfl⟩

/-- A timeout of 40 ms, which is a whole number of frames a second, and then a buffer that
is early by 60 ms. -/
def fortyMilliseconds : List Action :=
  [.setBatchPushTimeout ⟨40000, by decide⟩, .updateLastBatchTime, .tick 1000000, .calculateWait,
    .earlyBuffer 60000000]

theorem timing_safe_fortyMilliseconds :
    let s := (exec step TimingOk new fortyMilliseconds).get (by decide +kernel)
    (0 ≤ s.policy.maxFpsDur ∧ 0 ≤ s.policy.minFpsDur ∧ 0 ≤ s.policy.minEarlyBufferDur) ∧
      ∀ a, s.Safe a ↔ s.TimingOk a :=
  timing_safe (Reach.get_exec new_started _)

/-- Two seconds are no whole number of frames a second, so that the minimum fps is 0 and the
period a division by it; and of 600 ms the division makes a second. -/
theorem timing_unsafe : new.Started ∧ new.step (.setBatchPushTimeout ⟨2000000, by decide⟩) = none ∧
    (∃ s', new.step (.setBatchPushTimeout ⟨600000, by decide⟩) = some s' ∧ s'.policy.minFpsDur = 1000000000) ∧
    ¬ ∀ timeout, new.Safe (.setBatchPushTimeout timeout) := by
  have hnone : new.step (.setBatchPushTimeout ⟨2000000, by decide⟩) = none := by decide +kernel
  refine ⟨new_started, hnone, ⟨_, Option.some_get (by decide +kernel) |>.symm, by decide +kernel⟩, fun h => ?_⟩
  obtain ⟨s', hs, -⟩ := h ⟨2000000, by decide⟩
  rw [hnone] at hs
  cases hs

end Muxer

end Timing
end Mux
end DeepStream
