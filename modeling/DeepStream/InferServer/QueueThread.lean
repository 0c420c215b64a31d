/-
# The worker thread of nvdsinferserver

`QueueThread` runs a function on the items of a `GuardQueue`, one after the other,
until it is woken up to stop or the function says so. `join` wakes it up, waits
until it has left its loop and clears the queue: items that wait are dropped.
-/
import DeepStream.Lib.Fifo

namespace DeepStream
namespace InferServer

/-- The thread is in `pop` while it runs nothing. -/
structure QueueThread (ι : Type*) where
  items : Fifo ι := {}
  wakeup : Bool := false
  exited : Bool := false
  deriving DecidableEq, Repr

namespace QueueThread

variable {ι : Type*} (q : QueueThread ι)

/-- Always answers true. -/
def queueItem (i : ι) : QueueThread ι := { q with items := q.items.push i }

def wakeupOnce : QueueThread ι := { q with wakeup := true }

/-- The thread goes on in `pop`: it leaves its loop if it was woken up, else it
takes the front item. -/
def pop : Option (QueueThread ι) :=
  if q.exited ∨ q.items.running.isSome then none
  else if q.wakeup then some { q with wakeup := false, exited := true }
  else q.items.take.map fun items => { q with items := items }

/-- The function has returned. -/
def ran (goOn : Bool) : Option (QueueThread ι) :=
  q.items.finish.map fun items => { q with items := items, exited := !goOn }

variable {q} {q' : QueueThread ι} {i : ι}

@[simp] theorem history_queueItem (q : QueueThread ι) (i : ι) :
    (q.queueItem i).items.history = q.items.history ++ [i] := Fifo.history_push

/-- Nothing is lost when the thread goes on. -/
theorem pop_cases (h : q.pop = some q') :
    q'.items.history = q.items.history ∧ q'.items.finished = q.items.finished ∧
      (q.wakeup = false → q'.exited = q.exited ∧ q'.wakeup = q.wakeup) := by
  unfold pop at h
  split at h
  · cases h
  · split at h
    · rename_i hw
      obtain rfl := Option.some.inj h
      exact ⟨rfl, rfl, fun hnot => absurd hw (by simp [hnot])⟩
    · obtain ⟨items, hitems, rfl⟩ := Option.map_eq_some_iff.mp h
      obtain ⟨hhist, hfin⟩ := Fifo.history_take hitems
      exact ⟨hhist, hfin, fun _ => ⟨rfl, rfl⟩⟩

theorem todo_pop (h : q.pop = some q') (hw : q.wakeup = false) : q'.items.todo + 1 = q.items.todo := by
  unfold pop at h
  rw [hw] at h
  split at h
  · cases h
  · obtain ⟨items, hitems, rfl⟩ := Option.map_eq_some_iff.mp h
    exact Fifo.todo_take hitems

theorem ran_cases (h : q.ran true = some q') :
    ∃ i, q.items.running = some i ∧ q'.exited = false ∧ q'.wakeup = q.wakeup ∧
      q'.items.history = q.items.history ∧ q'.items.finished = q.items.finished ++ [i] := by
  obtain ⟨items, hitems, rfl⟩ := Option.map_eq_some_iff.mp h
  have hhist := Fifo.history_finish hitems
  obtain ⟨i, hi, rfl⟩ := Option.map_eq_some_iff.mp hitems
  exact ⟨i, hi, rfl, rfl, hhist, rfl⟩

theorem todo_ran {goOn : Bool} (h : q.ran goOn = some q') : q'.items.todo + 1 = q.items.todo := by
  obtain ⟨items, hitems, rfl⟩ := Option.map_eq_some_iff.mp h
  exact Fifo.todo_finish hitems

end QueueThread
end InferServer
end DeepStream
