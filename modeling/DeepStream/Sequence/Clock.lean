/-
# The frame numbers of one region

What a region does with the frames that are offered to it depends on three numbers only: its latest
frame, the frame at which its next sequence is due, and how many frames its ring has. Two frames that
are accepted are further apart than the subsample. A sequence is due a stride after the last one, so
two sequences end at least that far apart.

If the frames come without gaps, the sequences have windows of their own, one a stride after the
other: in each window a frame is accepted every `subsample + 1`, the last one completes the
sequence, and it is due then.
-/
import DeepStream.Sequence.BufferManager
import Mathlib.Data.List.Chain
import Mathlib.Tactic.Linarith

namespace DeepStream
namespace Sequence

open RoiProcessedBuf (frameNoNotSet)

/-! ### A region -/

structure Clock where
  latestFrameNo : ℕ
  nextReadyFrameNo : ℕ
  processedSeq : ℕ
  deriving DecidableEq, Repr

namespace Clock

variable (cfg : SequenceConfig) (t : Clock)

def Skips (frameNum : ℕ) : Prop :=
  t.latestFrameNo ≠ frameNoNotSet ∧
    (frameNum ≤ (t.latestFrameNo + cfg.subsample) % 2 ^ 64 ∨ (frameNum + cfg.seqSpan) % 2 ^ 64 < t.nextReadyFrameNo)

instance (frameNum : ℕ) : Decidable (t.Skips cfg frameNum) := inferInstanceAs (Decidable (_ ∧ (_ ∨ _)))

def accept (frameNum : ℕ) : Clock := ⟨frameNum, t.nextReadyFrameNo, min (t.processedSeq + 1) cfg.seqSize⟩

def Ready : Prop := cfg.seqSize ≤ t.processedSeq ∧ t.nextReadyFrameNo ≤ t.latestFrameNo

instance : Decidable (t.Ready cfg) := inferInstanceAs (Decidable (_ ∧ _))

def slide : Clock where
  latestFrameNo := t.latestFrameNo
  nextReadyFrameNo := (t.latestFrameNo + cfg.seqStride * (cfg.subsample + 1) % 2 ^ 32) % 2 ^ 64
  processedSeq := t.processedSeq - min cfg.seqStride t.processedSeq

end Clock

/-- The clock of a region once it has a ring, the frames that were offered to it and those that it
accepted, and the last frames of the sequences that were collected. -/
structure History where
  clock : Option Clock
  arrived : List ℕ
  accepted : List ℕ
  emitted : List ℕ
  deriving DecidableEq, Repr

namespace History

variable (cfg : SequenceConfig) (r : History)

/-- The ring that `addRoi` makes, if there is none. -/
def create (frameNum : ℕ) : History :=
  match r.clock with
  | some _ => r
  | none => { r with clock := some ⟨frameNoNotSet, (frameNum + cfg.seqSpan) % 2 ^ 64, 0⟩ }

/-- A round of `locateRoiDst`. -/
def offer (frameNum : ℕ) : History :=
  match r.clock with
  | none => { r with arrived := r.arrived ++ [frameNum] }
  | some t =>
    if t.Skips cfg frameNum then { r with arrived := r.arrived ++ [frameNum] }
    else
      { r with
        clock := some (t.accept cfg frameNum)
        arrived := r.arrived ++ [frameNum]
        accepted := r.accepted ++ [frameNum] }

/-- A round of `collectReady`. -/
def collect : History :=
  match r.clock with
  | none => r
  | some t =>
    if t.Ready cfg then { r with clock := some (t.slide cfg), emitted := r.emitted ++ [t.latestFrameNo] }
    else r

end History

namespace SequenceConfig

variable (cfg : SequenceConfig)

/-- From the first frame of a sequence to its last one. -/
def span : ℕ := (cfg.seqSize - 1) * (cfg.subsample + 1)

/-- From one sequence to the next. -/
def period : ℕ := cfg.seqStride * (cfg.subsample + 1)

/-- The products are numbers of 32 bits, and there is a stride and a length. -/
structure Timely : Prop where
  seqSize_pos : 0 < cfg.seqSize
  seqStride_pos : 0 < cfg.seqStride
  span_lt : cfg.span < 2 ^ 32
  period_lt : cfg.period < 2 ^ 32

/-- A sequence and a stride after the frame the numbers do not wrap around. -/
def FrameFits (frameNum : ℕ) : Prop := frameNum + cfg.span + cfg.period < frameNoNotSet

variable {cfg}

theorem Timely.seqSpan_eq (h : cfg.Timely) : cfg.seqSpan = cfg.span := Nat.mod_eq_of_lt h.span_lt

theorem Timely.subsample_lt (h : cfg.Timely) : cfg.subsample < cfg.period :=
  Nat.le_trans (Nat.lt_succ_self _) (Nat.le_mul_of_pos_left _ h.seqStride_pos)

end SequenceConfig

/-! ### Spacing -/

/-- Frames and sequences are as far apart as they are meant to be, and the clock knows the last ones. -/
structure Spaced (cfg : SequenceConfig) (r : History) : Prop where
  accepted : r.accepted.IsChain fun a b => a + cfg.subsample < b
  emitted : r.emitted.IsChain fun a b => a + cfg.period ≤ b
  noClock : r.clock = none → r.accepted = [] ∧ r.emitted = []
  unset : ∀ t ∈ r.clock, t.latestFrameNo = frameNoNotSet → r.accepted = [] ∧ t.processedSeq = 0
  latest : ∀ t ∈ r.clock, t.latestFrameNo ≠ frameNoNotSet →
    r.accepted.getLast? = some t.latestFrameNo ∧ cfg.FrameFits t.latestFrameNo
  due : ∀ t ∈ r.clock, ∀ e ∈ r.emitted.getLast?, e + cfg.period ≤ t.nextReadyFrameNo

namespace Spaced

variable {cfg : SequenceConfig} {r : History}

theorem create (h : Spaced cfg r) (frameNum : ℕ) : Spaced cfg (r.create cfg frameNum) := by
  unfold History.create
  cases hclock : r.clock with
  | some t => exact h
  | none =>
    obtain ⟨haccepted, hemitted⟩ := h.noClock hclock
    refine ⟨h.accepted, h.emitted, fun hc => by simp at hc, ?_, ?_, ?_⟩
    · rintro t ht -
      obtain rfl := Option.some.inj ht
      exact ⟨haccepted, rfl⟩
    · rintro t ht hne
      obtain rfl := Option.some.inj ht
      exact absurd rfl hne
    · rintro t - e he
      rw [show r.emitted = [] from hemitted] at he
      simp at he

theorem isChain_concat {R : ℕ → ℕ → Prop} {l : List ℕ} {b : ℕ} (h : l.IsChain R) (hb : ∀ a ∈ l.getLast?, R a b) :
    (l ++ [b]).IsChain R := by
  rw [List.isChain_append]
  exact ⟨h, List.isChain_singleton _, fun a ha c hc => by
    obtain rfl : b = c := by simpa using hc
    exact hb a ha⟩

theorem offer (h : Spaced cfg r) (hcfg : cfg.Timely) {frameNum : ℕ} (hfits : cfg.FrameFits frameNum) :
    Spaced cfg (r.offer cfg frameNum) := by
  unfold History.offer
  cases hclock : r.clock with
  | none => exact ⟨h.accepted, h.emitted, fun _ => h.noClock hclock, by simp, by simp, by simp⟩
  | some t =>
    dsimp only
    split
    · exact ⟨h.accepted, h.emitted, by simp, by simpa [hclock] using h.unset, by simpa [hclock] using h.latest,
        by simpa [hclock] using h.due⟩
    · rename_i hskip
      have hne : frameNum ≠ frameNoNotSet := by
        unfold SequenceConfig.FrameFits at hfits
        omega
      refine ⟨isChain_concat h.accepted fun a ha => ?_, h.emitted, fun hc => by simp at hc, ?_, ?_, ?_⟩
      · by_cases hset : t.latestFrameNo = frameNoNotSet
        · rw [(h.unset t hclock hset).1] at ha
          simp at ha
        · obtain ⟨hlast, hlatest⟩ := h.latest t hclock hset
          obtain rfl : a = t.latestFrameNo := Option.some.inj (ha.symm.trans hlast)
          have hsub := hcfg.subsample_lt
          unfold Clock.Skips at hskip
          push Not at hskip
          have hlt := (hskip hset).1
          unfold SequenceConfig.FrameFits frameNoNotSet at hlatest
          rwa [Nat.mod_eq_of_lt (by omega)] at hlt
      · rintro t' ht' hset
        obtain rfl := Option.some.inj ht'
        exact absurd hset hne
      · rintro t' ht' -
        obtain rfl := Option.some.inj ht'
        exact ⟨List.getLast?_concat, hfits⟩
      · rintro t' ht' e he
        obtain rfl := Option.some.inj ht'
        exact h.due t hclock e he

theorem collect (h : Spaced cfg r) (hcfg : cfg.Timely) : Spaced cfg (r.collect cfg) := by
  unfold History.collect
  cases hclock : r.clock with
  | none => exact h
  | some t =>
    dsimp only
    split
    · rename_i hready
      have hset : t.latestFrameNo ≠ frameNoNotSet := fun hset => by
        have := (h.unset t hclock hset).2
        have := hready.1
        have := hcfg.seqSize_pos
        omega
      obtain ⟨hlast, hlatest⟩ := h.latest t hclock hset
      have hnext : (t.slide cfg).nextReadyFrameNo = t.latestFrameNo + cfg.period := by
        have hlt := hcfg.period_lt
        unfold SequenceConfig.FrameFits frameNoNotSet at hlatest
        unfold SequenceConfig.period at hlt hlatest ⊢
        rw [Clock.slide, Nat.mod_eq_of_lt hlt, Nat.mod_eq_of_lt (by omega)]
      refine ⟨h.accepted, isChain_concat h.emitted fun e he => ?_, fun hc => by simp at hc, ?_, ?_, ?_⟩
      · exact (h.due t hclock e he).trans hready.2
      · rintro t' ht' hset'
        obtain rfl := Option.some.inj ht'
        exact absurd hset' hset
      · rintro t' ht' -
        obtain rfl := Option.some.inj ht'
        exact ⟨hlast, hlatest⟩
      · rintro t' ht' e he
        obtain rfl := Option.some.inj ht'
        rw [List.getLast?_concat] at he
        obtain rfl := Option.some.inj he
        exact hnext.ge
    · exact h

end Spaced

/-! ### Frames without gaps -/

/-- The last frame of sequence `j`. -/
def dueAt (cfg : SequenceConfig) (first j : ℕ) : ℕ := first + cfg.span + j * cfg.period

/-- Frame `f` was the last one, and the window of the next sequence begins at `w`: it has not begun,
or the ring has the frames of it that were accepted, up to the latest one. -/
inductive Within (cfg : SequenceConfig) (w f : ℕ) (t : Clock) : Prop
  | before (hlt : f < w) (hlatest : t.latestFrameNo ≤ f) (hgap : t.latestFrameNo + cfg.subsample < w)
      (hnone : t.processedSeq = 0)
  | inside (q : ℕ) (hlo : w + q * (cfg.subsample + 1) ≤ f) (hhi : f < w + (q + 1) * (cfg.subsample + 1))
      (hlatest : t.latestFrameNo = w + q * (cfg.subsample + 1)) (hsome : t.processedSeq = q + 1)

/-- The sequences that were due up to the last frame have been collected, and no others. -/
structure OnTime (cfg : SequenceConfig) (first k n : ℕ) (t : Clock) (r : History) : Prop where
  clock : r.clock = some t
  arrived : r.arrived = List.range' first (k + 1)
  emitted : r.emitted = (List.range n).map (dueAt cfg first)
  past : ∀ j < n, dueAt cfg first j ≤ first + k
  coming : first + k < dueAt cfg first n
  next : t.nextReadyFrameNo = dueAt cfg first n
  within : Within cfg (first + n * cfg.period) (first + k) t

/-- Frames `first`, `first + 1` and so on were offered to the region. -/
def Exact (cfg : SequenceConfig) (first : ℕ) (r : History) : Prop :=
  (r.clock = none ∧ r.arrived = [] ∧ r.emitted = []) ∨ ∃ k n t, OnTime cfg first k n t r

namespace OnTime

variable {cfg : SequenceConfig} {first k n : ℕ} {t : Clock} {r : History}

theorem latest_le (h : OnTime cfg first k n t r) : t.latestFrameNo ≤ first + k := by
  cases h.within with
  | before hlt hlatest hgap hnone => exact hlatest
  | inside q hlo hhi hlatest hsome => exact hlatest.le.trans hlo

/-- Nothing is due. -/
theorem collect (h : OnTime cfg first k n t r) : r.collect cfg = r := by
  have hready : ¬ t.Ready cfg := fun hready => by
    have := hready.2
    have := h.latest_le
    have := h.coming
    have := h.next
    omega
  unfold History.collect
  rw [h.clock]
  exact if_neg hready

/-- A frame is accepted as number `q` of its window: it completes the sequence exactly if that is due. -/
theorem collect_accepted (hcfg : cfg.Timely) {q : ℕ} (hq : q < cfg.seqSize)
    (hframe : first + k = first + n * cfg.period + q * (cfg.subsample + 1)) (hfits : cfg.FrameFits (first + k))
    (hpast : ∀ j < n, dueAt cfg first j ≤ first + k) (hclock : r.clock = some ⟨first + k, dueAt cfg first n, q + 1⟩)
    (harrived : r.arrived = List.range' first (k + 1)) (hemitted : r.emitted = (List.range n).map (dueAt cfg first)) :
    ∃ n' t', OnTime cfg first k n' t' (r.collect cfg) := by
  have hdue : dueAt cfg first n = first + n * cfg.period + (cfg.seqSize - 1) * (cfg.subsample + 1) := by
    unfold dueAt SequenceConfig.span
    omega
  rcases Nat.lt_or_ge (q + 1) cfg.seqSize with hlt | hge
  · have hmul : (q + 1) * (cfg.subsample + 1) ≤ (cfg.seqSize - 1) * (cfg.subsample + 1) :=
      Nat.mul_le_mul_right _ (by omega)
    have hsucc : (q + 1) * (cfg.subsample + 1) = q * (cfg.subsample + 1) + (cfg.subsample + 1) := Nat.succ_mul _ _
    have hready : ¬ Clock.Ready cfg ⟨first + k, dueAt cfg first n, q + 1⟩ := fun hready => by
      have hfull : cfg.seqSize ≤ q + 1 := hready.1
      omega
    have hcollect : r.collect cfg = r := by
      unfold History.collect
      rw [hclock]
      exact if_neg hready
    rw [hcollect]
    exact ⟨n, _, hclock, harrived, hemitted, hpast, by omega, rfl, .inside q hframe.ge (by omega) hframe rfl⟩
  · obtain hsize : cfg.seqSize = q + 1 := by omega
    have hspan : cfg.span = q * (cfg.subsample + 1) := by
      rw [SequenceConfig.span, hsize, Nat.add_sub_cancel]
    have heq : first + k = dueAt cfg first n := by
      unfold dueAt
      omega
    have hready : Clock.Ready cfg ⟨first + k, dueAt cfg first n, q + 1⟩ := ⟨hsize.le, heq.ge⟩
    have hnext : dueAt cfg first (n + 1) = first + k + cfg.period := by
      rw [heq]
      unfold dueAt
      rw [Nat.succ_mul]
      omega
    have hslide : Clock.slide cfg ⟨first + k, dueAt cfg first n, q + 1⟩ =
        ⟨first + k, dueAt cfg first (n + 1), q + 1 - min cfg.seqStride (q + 1)⟩ := by
      have hlt := hcfg.period_lt
      unfold SequenceConfig.FrameFits frameNoNotSet at hfits
      have hmod : (first + k + cfg.period % 2 ^ 32) % 2 ^ 64 = first + k + cfg.period := by
        rw [Nat.mod_eq_of_lt hlt, Nat.mod_eq_of_lt (by omega)]
      rw [hnext, ← hmod]
      rfl
    have hcollect : r.collect cfg = { r with
        clock := some ⟨first + k, dueAt cfg first (n + 1), q + 1 - min cfg.seqStride (q + 1)⟩
        emitted := r.emitted ++ [first + k] } := by
      unfold History.collect
      rw [hclock]
      exact (if_pos hready).trans (by rw [hslide])
    have hpos := hcfg.subsample_lt
    rw [hcollect]
    refine ⟨n + 1, _, rfl, harrived, ?_, fun j hj => ?_, by omega, rfl, ?_⟩
    · rw [List.range_succ, List.map_append, ← hemitted, heq]
      rfl
    · rcases Nat.lt_succ_iff_lt_or_eq.mp hj with hlt | rfl
      · exact hpast j hlt
      · exact heq.ge
    · -- the windows overlap if the stride is shorter than a sequence
      have hwindow : first + (n + 1) * cfg.period + q * (cfg.subsample + 1) = first + k + cfg.period := by
        rw [Nat.succ_mul]
        omega
      rcases Nat.lt_or_ge q cfg.seqStride with hlong | hshort
      · have hperiod : (q + 1) * (cfg.subsample + 1) ≤ cfg.period := Nat.mul_le_mul_right _ hlong
        rw [Nat.succ_mul] at hperiod
        refine .before (by omega) le_rfl ?_ ?_
        · show first + k + cfg.subsample < _
          omega
        · show q + 1 - min cfg.seqStride (q + 1) = 0
          omega
      · have hsplit : q * (cfg.subsample + 1) = (q - cfg.seqStride) * (cfg.subsample + 1) + cfg.period := by
          rw [SequenceConfig.period, ← Nat.add_mul, Nat.sub_add_cancel hshort]
        have hback : first + k = first + (n + 1) * cfg.period + (q - cfg.seqStride) * (cfg.subsample + 1) := by
          omega
        refine .inside (q - cfg.seqStride) hback.ge ?_ hback ?_
        · rw [Nat.succ_mul (q - cfg.seqStride)]
          omega
        · show q + 1 - min cfg.seqStride (q + 1) = _
          omega

theorem range'_append_singleton (first k : ℕ) : List.range' first k ++ [first + k] = List.range' first (k + 1) := by
  rw [List.range'_concat, Nat.one_mul]

/-- A frame that is not that of the next step of the window. -/
theorem skip (h : OnTime cfg first k n t r) (hskip : t.Skips cfg (first + (k + 1)))
    (hcoming : first + (k + 1) < dueAt cfg first n)
    (hwithin : Within cfg (first + n * cfg.period) (first + (k + 1)) t) :
    ∃ n' t', OnTime cfg first (k + 1) n' t' ((r.offer cfg (first + (k + 1))).collect cfg) := by
  have hoffer : r.offer cfg (first + (k + 1)) = { r with arrived := r.arrived ++ [first + (k + 1)] } := by
    unfold History.offer
    rw [h.clock]
    exact if_pos hskip
  have hnext : OnTime cfg first (k + 1) n t { r with arrived := r.arrived ++ [first + (k + 1)] } := by
    refine ⟨h.clock, ?_, h.emitted, fun j hj => (h.past j hj).trans (by omega), hcoming, h.next, hwithin⟩
    show r.arrived ++ [first + (k + 1)] = _
    rw [h.arrived, range'_append_singleton]
  rw [hoffer, hnext.collect]
  exact ⟨n, t, hnext⟩

/-- A frame that is the next one of the window. -/
theorem take (h : OnTime cfg first k n t r) (hcfg : cfg.Timely) (hfits : cfg.FrameFits (first + (k + 1))) {q : ℕ}
    (hq : q < cfg.seqSize) (hsome : t.processedSeq = q) (hskip : ¬ t.Skips cfg (first + (k + 1)))
    (hframe : first + (k + 1) = first + n * cfg.period + q * (cfg.subsample + 1)) :
    ∃ n' t', OnTime cfg first (k + 1) n' t' ((r.offer cfg (first + (k + 1))).collect cfg) := by
  have hoffer : r.offer cfg (first + (k + 1)) = { r with
      clock := some (t.accept cfg (first + (k + 1)))
      arrived := r.arrived ++ [first + (k + 1)]
      accepted := r.accepted ++ [first + (k + 1)] } := by
    unfold History.offer
    rw [h.clock]
    exact if_neg hskip
  rw [hoffer]
  refine collect_accepted hcfg hq hframe hfits (fun j hj => (h.past j hj).trans (by omega)) ?_ ?_ h.emitted
  · show some (t.accept cfg (first + (k + 1))) = _
    rw [Clock.accept, h.next, hsome, Nat.min_eq_left hq]
  · show r.arrived ++ [first + (k + 1)] = _
    rw [h.arrived, range'_append_singleton]

/-- The next frame is skipped, or it is the next one of the window. -/
theorem next_frame (h : OnTime cfg first k n t r) (hcfg : cfg.Timely) (hfits : cfg.FrameFits (first + (k + 1))) :
    ∃ n' t', OnTime cfg first (k + 1) n' t' ((r.offer cfg (first + (k + 1))).collect cfg) := by
  have hdue : dueAt cfg first n = first + n * cfg.period + cfg.span := by
    unfold dueAt
    omega
  have hnext := h.next
  have hcoming := h.coming
  have hsub := hcfg.subsample_lt
  have hset : t.latestFrameNo + cfg.subsample < frameNoNotSet := by
    have := h.latest_le
    unfold SequenceConfig.FrameFits at hfits
    omega
  have hsum : (t.latestFrameNo + cfg.subsample) % 2 ^ 64 = t.latestFrameNo + cfg.subsample := by
    unfold frameNoNotSet at hset
    exact Nat.mod_eq_of_lt (by omega)
  have hahead : (first + (k + 1) + cfg.seqSpan) % 2 ^ 64 = first + (k + 1) + cfg.span := by
    unfold SequenceConfig.FrameFits frameNoNotSet at hfits
    rw [hcfg.seqSpan_eq]
    exact Nat.mod_eq_of_lt (by omega)
  have hskips : t.Skips cfg (first + (k + 1)) ↔ first + (k + 1) ≤ t.latestFrameNo + cfg.subsample ∨
      first + (k + 1) + cfg.span < t.nextReadyFrameNo := by
    unfold Clock.Skips
    rw [hsum, hahead]
    exact and_iff_right (by omega)
  cases h.within with
  | before hlt hlatest hgap hnone =>
    rcases Nat.lt_or_ge (first + (k + 1)) (first + n * cfg.period) with hearly | hbegin
    · exact h.skip (hskips.mpr (.inr (by omega))) (by omega) (.before hearly (by omega) hgap hnone)
    · refine h.take hcfg hfits (q := 0) hcfg.seqSize_pos hnone (fun hskip => ?_) (by omega)
      rcases hskips.mp hskip with hle | hlt'
      · omega
      · omega
  | inside q hlo hhi hlatest hsome =>
    have hsucc : (q + 1) * (cfg.subsample + 1) = q * (cfg.subsample + 1) + (cfg.subsample + 1) := Nat.succ_mul _ _
    have hq : q + 1 < cfg.seqSize := by
      have hspan : q * (cfg.subsample + 1) < (cfg.seqSize - 1) * (cfg.subsample + 1) := by
        unfold SequenceConfig.span at hdue
        omega
      have := Nat.lt_of_mul_lt_mul_right hspan
      omega
    have hroom : (q + 1) * (cfg.subsample + 1) ≤ cfg.span := Nat.mul_le_mul_right _ (by omega)
    rcases Nat.lt_or_ge (first + (k + 1)) (first + n * cfg.period + (q + 1) * (cfg.subsample + 1)) with hearly | hstep
    · exact h.skip (hskips.mpr (.inl (by omega))) (by omega) (.inside q (by omega) hearly hlatest hsome)
    · refine h.take hcfg hfits hq hsome (fun hskip => ?_) (by omega)
      rcases hskips.mp hskip with hle | hlt'
      · omega
      · omega

end OnTime

namespace Exact

variable {cfg : SequenceConfig} {first : ℕ} {r : History}

/-- A round of the loop over the regions without a new frame. -/
theorem collect (h : Exact cfg first r) : r.collect cfg = r := by
  rcases h with ⟨hclock, -, -⟩ | ⟨k, n, t, h⟩
  · unfold History.collect
    rw [hclock]
  · exact h.collect

/-- A call with the next frame. -/
theorem call (h : Exact cfg first r) (hcfg : cfg.Timely) (hfits : cfg.FrameFits (first + r.arrived.length)) :
    Exact cfg first (((r.create cfg (first + r.arrived.length)).offer cfg (first + r.arrived.length)).collect cfg) := by
  rcases h with ⟨hclock, harrived, hemitted⟩ | ⟨k, n, t, h⟩
  · rw [harrived, List.length_nil, Nat.add_zero] at hfits ⊢
    have hdue : (first + cfg.seqSpan) % 2 ^ 64 = dueAt cfg first 0 := by
      unfold SequenceConfig.FrameFits frameNoNotSet at hfits
      rw [hcfg.seqSpan_eq, dueAt, Nat.zero_mul, Nat.add_zero]
      exact Nat.mod_eq_of_lt (by omega)
    have hcreate : r.create cfg first = { r with clock := some ⟨frameNoNotSet, dueAt cfg first 0, 0⟩ } := by
      unfold History.create
      rw [hclock, hdue]
    have hoffer : (r.create cfg first).offer cfg first = { r with
        clock := some ⟨first, dueAt cfg first 0, 1⟩
        arrived := r.arrived ++ [first]
        accepted := r.accepted ++ [first] } := by
      have hskip : ¬ Clock.Skips cfg ⟨frameNoNotSet, dueAt cfg first 0, 0⟩ first := fun hskip => hskip.1 rfl
      have hone : min (0 + 1) cfg.seqSize = 1 := Nat.min_eq_left hcfg.seqSize_pos
      rw [hcreate]
      unfold History.offer
      refine (if_neg hskip).trans ?_
      rw [Clock.accept, hone]
    rw [hoffer]
    have hframe : first + 0 = first + 0 * cfg.period + 0 * (cfg.subsample + 1) := by
      rw [Nat.zero_mul, Nat.zero_mul]
    obtain ⟨n, t, hon⟩ := OnTime.collect_accepted (r := ⟨some ⟨first, dueAt cfg first 0, 1⟩, r.arrived ++ [first],
      r.accepted ++ [first], r.emitted⟩) hcfg hcfg.seqSize_pos hframe hfits (fun j hj => absurd hj (Nat.not_lt_zero j))
      rfl (by simp [harrived]) hemitted
    exact .inr ⟨0, n, t, hon⟩
  · have hlen : r.arrived.length = k + 1 := by rw [h.arrived, List.length_range']
    rw [hlen] at hfits ⊢
    have hcreate : r.create cfg (first + (k + 1)) = r := by
      unfold History.create
      rw [h.clock]
    rw [hcreate]
    obtain ⟨n', t', hon⟩ := h.next_frame hcfg hfits
    exact .inr ⟨k + 1, n', t', hon⟩

/-- What has been collected. -/
theorem emitted_eq (h : Exact cfg first r) : ∃ n, r.emitted = (List.range n).map (dueAt cfg first) ∧
    ∀ j, j < n ↔ dueAt cfg first j < first + r.arrived.length := by
  rcases h with ⟨hclock, harrived, hemitted⟩ | ⟨k, n, t, h⟩
  · refine ⟨0, hemitted, fun j => iff_of_false (Nat.not_lt_zero j) ?_⟩
    rw [harrived, List.length_nil]
    unfold dueAt
    omega
  · have hlen : r.arrived.length = k + 1 := by rw [h.arrived, List.length_range']
    refine ⟨n, h.emitted, fun j => ⟨fun hj => ?_, fun hlt => ?_⟩⟩
    · have := h.past j hj
      omega
    · by_contra hge
      have hmul : n * cfg.period ≤ j * cfg.period := Nat.mul_le_mul_right _ (not_lt.mp hge)
      have := h.coming
      unfold dueAt at this hlt
      omega

end Exact

end Sequence
end DeepStream
