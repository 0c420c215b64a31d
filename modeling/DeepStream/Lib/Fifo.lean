/-
# A queue with one consumer

Items are put at the end of a queue; one thread takes them from its front, one at
a time, and finishes each before it takes the next. `history` is everything that
was put in, in order: what is finished is always its front part, so an item that is
finished has all items before it finished.
-/
import Mathlib.Data.List.Basic

namespace DeepStream

structure Fifo (ι : Type*) where
  waiting : List ι := []
  running : Option ι := none
  finished : List ι := []
  deriving DecidableEq, Repr

namespace Fifo

variable {ι : Type*} (f : Fifo ι) {f' : Fifo ι} {i : ι}

/-- What is still to be finished. -/
def line : List ι := f.running.toList ++ f.waiting

def history : List ι := f.finished ++ f.line

def push (i : ι) : Fifo ι := { f with waiting := f.waiting ++ [i] }

/-- How often the consumer has still to take or to finish an item. -/
def todo : ℕ := 2 * f.waiting.length + f.running.toList.length

/-- The consumer takes the next item. -/
def take : Option (Fifo ι) :=
  match f.running, f.waiting with
  | none, i :: rest => some { f with waiting := rest, running := some i }
  | _, _ => none

/-- The consumer is through with its item. -/
def finish : Option (Fifo ι) :=
  f.running.map fun i => { f with running := none, finished := f.finished ++ [i] }

variable {f}

@[simp] theorem history_push : (f.push i).history = f.history ++ [i] := by
  simp [history, line, push]

theorem take_eq_some (h : f.take = some f') : ∃ i, f.running = none ∧ f.waiting = i :: f'.waiting ∧
    f' = { f with waiting := f'.waiting, running := some i } := by
  unfold take at h
  split at h
  · rename_i i rest hrunning hwaiting
    obtain rfl := Option.some.inj h
    exact ⟨i, hrunning, hwaiting, rfl⟩
  · cases h

theorem history_take (h : f.take = some f') : f'.history = f.history ∧ f'.finished = f.finished := by
  obtain ⟨i, hrunning, hwaiting, heq⟩ := take_eq_some h
  rw [heq]
  simp [history, line, hrunning, hwaiting]

theorem history_finish (h : f.finish = some f') : f'.history = f.history := by
  obtain ⟨i, hi, rfl⟩ := Option.map_eq_some_iff.mp h
  simp [history, line, hi]

@[simp] theorem todo_push : (f.push i).todo = f.todo + 2 := by
  simp [todo, push]
  omega

theorem todo_take (h : f.take = some f') : f'.todo + 1 = f.todo := by
  obtain ⟨i, hrunning, hwaiting, heq⟩ := take_eq_some h
  rw [heq]
  simp [todo, hrunning, hwaiting]
  omega

theorem todo_finish (h : f.finish = some f') : f'.todo + 1 = f.todo := by
  obtain ⟨i, hi, rfl⟩ := Option.map_eq_some_iff.mp h
  simp [todo, hi]

theorem finished_prefix : f.finished <+: f.history := List.prefix_append _ _

theorem mem_history_of_running (h : f.running = some i) : i ∈ f.history := by
  simp [history, line, h]

/-- When the last item is finished, all are. -/
theorem finished_eq_of_last {l : List ι} (h : f.history = l ++ [i]) (hnot : i ∉ l) (hi : i ∈ f.finished) :
    f.finished = f.history := by
  have hprefix : f.finished <+: l ++ [i] := h ▸ f.finished_prefix
  rcases List.prefix_concat_iff.mp hprefix with hall | hpart
  · rw [h]
    simpa using hall
  · exact absurd (hpart.subset hi) hnot

/-- Nothing more comes of a queue that is finished. -/
theorem line_eq_nil (h : f.finished = f.history) : f.line = [] := by
  have hlen := congrArg List.length h
  rw [history, List.length_append] at hlen
  exact List.length_eq_zero_iff.mp (by omega)

end Fifo
end DeepStream
