/-
# Runs of a partial transition function

A system is a partial function `step : σ → α → Option σ`: the label `a` names
the next section of some thread and carries what the environment chooses, and
`none` says that the section is not enabled (or has no defined result) in that
state. `Reach step ok init` are the states of the runs all of whose steps meet
the condition `ok`; with `ok` true everywhere they are all reachable states.
-/
import Mathlib.Data.List.Basic
import Mathlib.Order.Basic

namespace DeepStream

variable {σ α : Type*}

/-- The states reached by runs whose steps all meet `ok`. -/
inductive Reach (step : σ → α → Option σ) (ok : σ → α → Prop) (init : σ → Prop) : σ → Prop
  | init {s : σ} (h : init s) : Reach step ok init s
  | step {s s' : σ} {a : α} (hr : Reach step ok init s) (hok : ok s a) (hs : step s a = some s') :
      Reach step ok init s'

/-- The condition that every step meets. -/
def anyStep (_ : σ) (_ : α) : Prop := True

instance (s : σ) (a : α) : Decidable (anyStep s a) := inferInstanceAs (Decidable True)

variable {step : σ → α → Option σ} {ok : σ → α → Prop} {init : σ → Prop}

/-- What holds at the start and is kept by every step that meets the
condition holds in every state reached. -/
theorem Reach.invariant {I : σ → Prop} (h0 : ∀ s, init s → I s)
    (hs : ∀ s a s', I s → ok s a → step s a = some s' → I s') {s : σ}
    (h : Reach step ok init s) : I s := by
  induction h with
  | init h => exact h0 _ h
  | step _ hok hst ih => exact hs _ _ _ ih hok hst

/-- A weaker condition on the steps and on the start reaches more. -/
theorem Reach.mono {ok' : σ → α → Prop} {init' : σ → Prop} (hok : ∀ s a, ok s a → ok' s a)
    (hi : ∀ s, init s → init' s) {s : σ} (h : Reach step ok init s) : Reach step ok' init' s := by
  induction h with
  | init h => exact .init (hi _ h)
  | step _ ha hst ih => exact .step ih (hok _ _ ha) hst

/-- A run that goes on from a state that is reached. -/
theorem Reach.trans {s t : σ} (h : Reach step ok init s) (ht : Reach step ok (· = s) t) : Reach step ok init t := by
  induction ht with
  | init h' =>
    rw [h']
    exact h
  | step _ hok hs ih => exact ih.step hok hs

/-- A run of one step. -/
theorem Reach.single {s s' : σ} {a : α} (hok : ok s a) (hs : step s a = some s') : Reach step ok (· = s) s' :=
  have hinit : Reach step ok (· = s) s := .init rfl
  hinit.step hok hs

/-- Run a list of labels, each of which has to meet the condition. -/
def exec (step : σ → α → Option σ) (ok : σ → α → Prop) [∀ s a, Decidable (ok s a)] :
    σ → List α → Option σ
  | s, [] => some s
  | s, a :: as => if ok s a then (step s a).bind fun s' => exec step ok s' as else none

theorem Reach.of_exec [∀ s a, Decidable (ok s a)] : ∀ (as : List α) {s t : σ},
    Reach step ok init s → exec step ok s as = some t → Reach step ok init t
  | [], _, _, hr, h => by
    rw [exec, Option.some.injEq] at h
    exact h ▸ hr
  | a :: as, s, t, hr, h => by
    rw [exec] at h
    split at h
    · rename_i hok
      obtain ⟨s', hs, ht⟩ := Option.bind_eq_some_iff.mp h
      exact Reach.of_exec as (hr.step hok hs) ht
    · simp at h

/-- The end of a run that goes through. -/
theorem Reach.get_exec [∀ s a, Decidable (ok s a)] {s : σ} {l : List α} (h0 : init s)
    (h : (exec step ok s l).isSome) : Reach step ok init ((exec step ok s l).get h) :=
  Reach.of_exec l (.init h0) (Option.some_get h).symm

end DeepStream
