/-
# The counter of payloads

`numActivePayloads` is the number of payloads that are attached to a buffer and counted, or
are being freed and not counted down yet (`Core`). At zero, and with no payload in the
hands of `transform_ip`, no payload is left anywhere.
-/
import DeepStream.MsgConv.Lifetime
import Mathlib.Algebra.BigOperators.Fin
import Mathlib.Algebra.Order.BigOperators.Group.Finset

namespace DeepStream
namespace MsgConv

variable {n : ℕ}

/-! ### The counter -/

/-- A payload that is being freed is counted until it is counted down. -/
def CallPc.counted : CallPc → ℤ
  | .releasing _ | .decrementing => 1
  | _ => 0

/-- A payload is attached before it is counted. -/
def TransformPc.uncounted : TransformPc → ℤ
  | .attached _ => 1
  | _ => 0

theorem CallPc.counted_nonneg (pc : CallPc) : 0 ≤ pc.counted := by
  unfold CallPc.counted
  split <;> norm_num

namespace State

variable (s : State n)

/-- The payloads that are being freed. -/
def freed : ℤ := ∑ t, (s.threads t).counted

theorem freed_setThread (t : Option (Fin n)) (pc : CallPc) :
    (s.setThread t pc).freed = s.freed - (s.threads t).counted + pc.counted := by
  have hat : ∀ a, (Function.update s.threads t pc a).counted =
      Function.update (fun a => (s.threads a).counted) t pc.counted a := fun a => by
    by_cases ha : a = t
    · rw [ha, Function.update_self, Function.update_self]
    · rw [Function.update_of_ne ha, Function.update_of_ne ha]
  have hsplit := Finset.sum_update_of_mem (Finset.mem_univ t) (fun a => (s.threads a).counted) (s.threads t).counted
  rw [Function.update_eq_self] at hsplit
  unfold freed
  show ∑ a, (Function.update s.threads t pc a).counted = _
  rw [Finset.sum_congr rfl fun a _ => hat a, Finset.sum_update_of_mem (Finset.mem_univ t), hsplit]
  omega

theorem counted_le_freed (t : Option (Fin n)) : (s.threads t).counted ≤ s.freed :=
  Finset.single_le_sum (fun a _ => (s.threads a).counted_nonneg) (Finset.mem_univ t)

theorem freed_nonneg : 0 ≤ s.freed := Finset.sum_nonneg fun a _ => (s.threads a).counted_nonneg

end State

/-- What the counter counts. -/
structure Core (s : State n) : Prop where
  count : s.numActivePayloads = s.metas.length - s.transform.uncounted + s.freed
  bounded : s.numActivePayloads < 2 ^ 31
  attached : ∀ p, s.transform = .attached p → p ∈ s.metas
  source : ∀ t p, (s.threads t).source = some p → p ∈ s.metas
  lost : s.lost = 0

section Core

variable {s s' : State n}

theorem core_start (n : ℕ) (library : Bool) : Core (start n library) where
  count := by
    have hfreed : (start n library).freed = 0 := Finset.sum_const_zero
    rw [hfreed]
    rfl
  bounded := by
    show (0 : ℤ) < 2 ^ 31
    norm_num
  attached := fun _ h => by cases h
  source := fun _ _ h => by cases h
  lost := rfl

/-- An attached payload is one of the metas. -/
theorem Core.uncounted_le (h : Core s) : s.transform.uncounted ≤ s.metas.length := by
  cases ht : s.transform with
  | attached p =>
    have hpos := List.length_pos_of_mem (h.attached p ht)
    show (1 : ℤ) ≤ _
    omega
  | _ => exact Int.natCast_nonneg _

theorem Core.nonneg (h : Core s) : 0 ≤ s.numActivePayloads := by
  have hmetas := h.uncounted_le
  have hfreed := s.freed_nonneg
  rw [h.count]
  omega

/-- At zero, and with nothing in the hands of `transform_ip`, no payload is left. -/
theorem Core.empty (h : Core s) (hzero : s.numActivePayloads = 0) (ht : s.transform = .idle) :
    s.metas = [] ∧ ∀ t, (s.threads t).counted = 0 ∧ (s.threads t).source = none := by
  have hcount := h.count
  rw [hzero, ht] at hcount
  change 0 = (s.metas.length : ℤ) - 0 + s.freed at hcount
  have hfreed := s.freed_nonneg
  have hmetas : s.metas = [] := List.length_eq_zero_iff.mp (by omega)
  refine ⟨hmetas, fun t => ⟨?_, ?_⟩⟩
  · have hle := s.counted_le_freed t
    have hnonneg := (s.threads t).counted_nonneg
    omega
  · cases hs : (s.threads t).source with
    | none => rfl
    | some p =>
      have hmem := h.source t p hs
      rw [hmetas] at hmem
      cases hmem

/-- A thread goes on. -/
theorem Core.setThread (h : Core s) {t : Option (Fin n)} {pc : CallPc} (hcounted : pc.counted = (s.threads t).counted)
    (hsource : ∀ p, pc.source = some p → p ∈ s.metas) : Core (s.setThread t pc) where
  count := by
    rw [s.freed_setThread t pc, hcounted]
    show s.numActivePayloads = _
    rw [h.count, sub_add_cancel]
    rfl
  bounded := h.bounded
  attached := h.attached
  source := fun a p hp => by
    change (Function.update s.threads t pc a).source = some p at hp
    by_cases ha : a = t
    · rw [ha, Function.update_self] at hp
      exact hsource p hp
    · rw [Function.update_of_ne ha] at hp
      exact h.source a p hp
  lost := h.lost

/-- Nothing of what is counted changes. -/
theorem Core.congr (h : Core s) (hnum : s'.numActivePayloads = s.numActivePayloads) (hmetas : s'.metas = s.metas)
    (htransform : s'.transform = s.transform) (hthreads : s'.threads = s.threads) (hlost : s'.lost = s.lost) : Core s' where
  count := by
    unfold State.freed
    rw [hnum, hmetas, htransform, hthreads]
    exact h.count
  bounded := hnum ▸ h.bounded
  attached := by
    rw [htransform, hmetas]
    exact h.attached
  source := by
    rw [hthreads, hmetas]
    exact h.source
  lost := hlost.trans h.lost

theorem Core.cleanStep (h : Core s) {t : Option (Fin n)} {pc : CleanPc} (ht : s.threads t = .clean pc) :
    Core (s.cleanStep t pc) := by
  have hmove : ∀ {s₁ : State n} {pc' : CallPc}, Core s₁ → s₁.threads = s.threads → pc'.counted = 0 → pc'.source = none →
      Core (s₁.setThread t pc') := fun h₁ hthreads hcounted hsource => by
    refine h₁.setThread ?_ fun p hp => ?_
    · rw [hthreads, ht, hcounted]
      rfl
    · rw [hsource] at hp
      cases hp
  unfold State.cleanStep
  cases pc with
  | testCtx =>
    refine hmove h rfl ?_ ?_
    · split <;> rfl
    · split <;> rfl
  | destroyCtx => exact hmove (h.congr rfl rfl rfl rfl rfl) rfl rfl rfl
  | clearCtx => exact hmove (h.congr rfl rfl rfl rfl rfl) rfl rfl rfl
  | testLib =>
    refine hmove h rfl ?_ ?_
    · split <;> rfl
    · split <;> rfl
  | closeLib => exact hmove (h.congr rfl rfl rfl rfl rfl) rfl rfl rfl
  | clearLib => exact hmove (h.congr rfl rfl rfl rfl rfl) rfl rfl rfl
  | testSelfRef =>
    refine hmove h rfl ?_ ?_
    · split <;> rfl
    · split <;> rfl
  | unref => exact hmove (h.congr rfl rfl rfl rfl rfl) rfl rfl rfl

/-- A call goes on. -/
theorem Core.callStep (h : Core s) {t : Option (Fin n)} (hok : StepOk s (.call t)) (hs : s.callStep t = some s') :
    Core s' := by
  have hnone : ∀ {pc : CallPc}, pc.source = none → ∀ p, pc.source = some p → p ∈ s.metas := fun hpc p hp => by
    rw [hpc] at hp
    cases hp
  unfold State.callStep at hs
  cases ht : s.threads t with
  | idle =>
    rw [ht] at hs
    cases hs
  | copying src =>
    rw [ht] at hs
    cases hs
  | copyCounting src dup =>
    rw [ht] at hs
    cases hs
    have hsmall := hok.count (.inr ⟨t, src, dup, rfl, ht⟩)
    have hnonneg := h.nonneg
    have hup : gint (s.numActivePayloads + 1) = s.numActivePayloads + 1 := gint_of_mem (by omega) hsmall
    have hinc : Core ({ s with metas := s.metas ++ [dup] }.inc) :=
      { count := by
          show gint (s.numActivePayloads + 1) = ((s.metas ++ [dup]).length : ℤ) - s.transform.uncounted + s.freed
          rw [hup, h.count, List.length_append, List.length_singleton]
          push_cast
          omega
        bounded := by
          show gint (s.numActivePayloads + 1) < 2 ^ 31
          rwa [hup]
        attached := fun p hp => List.mem_append_left _ (h.attached p hp)
        source := fun a p hp => List.mem_append_left _ (h.source a p hp)
        lost := h.lost }
    refine hinc.setThread ?_ fun p hp => by cases hp
    show (0 : ℤ) = (s.threads t).counted
    rw [ht]
    rfl
  | releasing p =>
    rw [ht] at hs
    cases hs
    have hflag : Core { s with badRelease := s.badRelease || decide (s.destroyed ≠ 0) } := h.congr rfl rfl rfl rfl rfl
    refine hflag.setThread ?_ fun p hp => by cases hp
    show (1 : ℤ) = (s.threads t).counted
    rw [ht]
    rfl
  | decrementing =>
    rw [ht] at hs
    cases hs
    have hnonneg := h.nonneg
    have hbounded := h.bounded
    have hdown : gint (s.numActivePayloads - 1) = s.numActivePayloads - 1 := gint_of_mem (by omega) (by omega)
    have hcount : s.numActivePayloads - 1 = s.metas.length - s.transform.uncounted + (s.setThread t .testCount).freed := by
      rw [s.freed_setThread, ht, h.count]
      show _ - 1 = _ + (s.freed - 1 + 0)
      omega
    exact
      { count := by
          show gint (s.numActivePayloads - 1) = _
          rw [hdown]
          exact hcount
        bounded := by
          show gint (s.numActivePayloads - 1) < 2 ^ 31
          omega
        attached := h.attached
        source := fun a p hp => by
          change (Function.update s.threads t .testCount a).source = some p at hp
          by_cases ha : a = t
          · rw [ha, Function.update_self] at hp
            cases hp
          · rw [Function.update_of_ne ha] at hp
            exact h.source a p hp
        lost := h.lost }
  | testCount =>
    rw [ht] at hs
    cases hs
    refine h.setThread ?_ (hnone ?_)
    · rw [ht]
      split <;> rfl
    · split <;> rfl
  | testStop =>
    rw [ht] at hs
    cases hs
    refine h.setThread ?_ (hnone ?_)
    · rw [ht]
      split <;> rfl
    · split <;> rfl
  | stopTestCount =>
    rw [ht] at hs
    cases hs
    refine h.setThread ?_ (hnone ?_)
    · rw [ht]
      split <;> rfl
    · split <;> rfl
  | clean pc =>
    rw [ht] at hs
    cases hs
    exact h.cleanStep ht

/-- `transform_ip` goes on. -/
theorem Core.transformStep (h : Core s) {valid : Bool} (hok : StepOk s (.transform valid))
    (hs : s.transformStep valid = some s') : Core s' := by
  have hcount := h.count
  unfold State.transformStep at hs
  cases ht : s.transform with
  | idle =>
    rw [ht] at hs
    cases hs
  | generated p =>
    rw [ht] at hs hcount
    cases valid with
    | false => exact absurd ht (hok.valid p rfl)
    | true =>
      cases hs
      exact
        { count := by
            show s.numActivePayloads = ((s.metas ++ [p]).length : ℤ) - 1 + s.freed
            rw [hcount, List.length_append, List.length_singleton]
            push_cast
            show _ - 0 + _ = _
            omega
          bounded := h.bounded
          attached := fun q hq => by
            cases hq
            exact List.mem_append_right _ (List.mem_singleton_self p)
          source := fun a q hq => List.mem_append_left _ (h.source a q hq)
          lost := h.lost }
  | attached p =>
    rw [ht] at hs hcount
    cases hs
    have hsmall := hok.count (.inl ⟨valid, p, rfl, ht⟩)
    have hnonneg := h.nonneg
    have hup : gint (s.numActivePayloads + 1) = s.numActivePayloads + 1 := gint_of_mem (by omega) hsmall
    exact
      { count := by
          show gint (s.numActivePayloads + 1) = (s.metas.length : ℤ) - 0 + s.freed
          rw [hup, hcount]
          show _ - 1 + _ + 1 = _
          omega
        bounded := by
          show gint (s.numActivePayloads + 1) < 2 ^ 31
          rwa [hup]
        attached := fun q hq => by cases hq
        source := h.source
        lost := h.lost }

/-- A payload is taken to be freed. -/
theorem Core.free (h : Core s) {t : Option (Fin n)} {p : ℕ} (hidle : s.threads t = .idle) (hp : p ∈ s.metas)
    (hsource : ∀ t', (s.threads t').source ≠ some p) (hcounted : s.transform ≠ .attached p) :
    Core ({ s with metas := s.metas.erase p }.setThread t (.releasing p)) where
  count := by
    have hlength : s.metas.length = (s.metas.erase p).length + 1 := by
      rw [List.length_erase_of_mem hp, Nat.sub_add_cancel (List.length_pos_of_mem hp)]
    have hfreed := s.freed_setThread t (.releasing p)
    rw [hidle] at hfreed
    change _ = s.freed - 0 + 1 at hfreed
    show s.numActivePayloads = ((s.metas.erase p).length : ℤ) - s.transform.uncounted + (s.setThread t (.releasing p)).freed
    rw [h.count, hlength, hfreed]
    push_cast
    omega
  bounded := h.bounded
  attached := fun q hq => by
    have hne : q ≠ p := fun hqp => hcounted (hqp ▸ hq)
    exact (List.mem_erase_of_ne hne).mpr (h.attached q hq)
  source := fun a q hq => by
    change (Function.update s.threads t (.releasing p) a).source = some q at hq
    show q ∈ s.metas.erase p
    by_cases ha : a = t
    · rw [ha, Function.update_self] at hq
      cases hq
    · rw [Function.update_of_ne ha] at hq
      have hne : q ≠ p := fun hqp => hsource a (hqp ▸ hq)
      exact (List.mem_erase_of_ne hne).mpr (h.source a q hq)
  lost := h.lost

theorem Core.step {a : Action n} (h : Core s) (hok : StepOk s a) (hs : step s a = some s') : Core s' := by
  unfold MsgConv.step at hs
  split at hs
  · cases hs
  · cases a with
    | generate p =>
      dsimp only at hs
      split at hs
      · rename_i ht
        cases hs
        have hcount := h.count
        rw [ht] at hcount
        exact ⟨hcount, h.bounded, fun q hq => (by cases hq), h.source, h.lost⟩
      · cases hs
    | transform valid => exact h.transformStep hok hs
    | copy t src =>
      dsimp only at hs
      split at hs
      · rename_i ht
        cases hs
        refine h.setThread ?_ fun p hp => ?_
        · rw [ht.1]
          rfl
        · cases hp
          exact ht.2
      · cases hs
    | dup t dup =>
      dsimp only at hs
      split at hs
      · rename_i src ht
        cases hs
        refine h.setThread ?_ fun p hp => ?_
        · rw [ht]
          rfl
        · cases hp
          exact h.source t src (by rw [ht]; rfl)
      · cases hs
    | free t p =>
      dsimp only at hs
      split at hs
      · rename_i ht
        cases hs
        exact h.free ht.1 ht.2.1 ht.2.2 (hok.free t p rfl)
      · cases hs
    | stop =>
      dsimp only at hs
      split at hs
      · rename_i ht
        cases hs
        have hflag : Core { s with stop := true } := h.congr rfl rfl rfl rfl rfl
        refine hflag.setThread ?_ fun p hp => by cases hp
        show (0 : ℤ) = (s.threads none).counted
        rw [ht.2]
        rfl
      · cases hs
    | call t => exact h.callStep hok hs
    | unref =>
      dsimp only at hs
      split at hs
      · cases hs
        exact h.congr rfl rfl rfl rfl rfl
      · cases hs
    | dispose =>
      dsimp only at hs
      unfold State.disposeStep at hs
      split at hs
      · cases hs
        exact h.congr rfl rfl rfl rfl rfl
      · cases hs
        exact h.congr rfl rfl rfl rfl rfl
      · cases hs
        exact h.congr rfl rfl rfl rfl rfl
      · cases hs

end Core

end MsgConv
end DeepStream
