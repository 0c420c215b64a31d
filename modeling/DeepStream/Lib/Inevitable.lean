/-
# What every run comes to

`Inevitable step ok P s` says of a system that goes on from `s` with steps that meet
`ok` that a state with `P` is reached whichever of them are taken and in whichever
order: no run gets stuck before, and none goes on without end.
-/
import DeepStream.Lib.Run

namespace DeepStream

variable {σ α : Type*}

inductive Inevitable (step : σ → α → Option σ) (ok : σ → α → Prop) (P : σ → Prop) : σ → Prop
  | here {s : σ} (h : P s) : Inevitable step ok P s
  | later {s : σ} (hgo : ∃ a, ok s a ∧ (step s a).isSome)
      (hall : ∀ a s', ok s a → step s a = some s' → Inevitable step ok P s') : Inevitable step ok P s

variable {step : σ → α → Option σ} {ok : σ → α → Prop} {P : σ → Prop}

/-- Under the invariant `I` something can be done until `P` holds, and whatever is done
leaves less to do. -/
theorem Inevitable.of_lt {I : σ → Prop} (todo : σ → ℕ)
    (hgo : ∀ s, I s → ¬ P s → ∃ a, ok s a ∧ (step s a).isSome)
    (hlt : ∀ s a s', I s → ok s a → step s a = some s' → I s' ∧ todo s' < todo s) {s : σ} (h : I s) :
    Inevitable step ok P s := by
  induction hn : todo s using Nat.strongRecOn generalizing s with
  | ind n ih =>
    by_cases hP : P s
    · exact .here hP
    · refine .later (hgo s h hP) fun a s' hok hs => ?_
      obtain ⟨h', hless⟩ := hlt s a s' h hok hs
      exact ih _ (hn ▸ hless) h' rfl

end DeepStream
