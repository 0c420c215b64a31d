/-
# The inference loop of a stream

With a custom processor that requires the loop, `processExtraInputs` waits for the streams of
a batch, calls `extraInputProcess` and starts the streams; when the batch was inferred,
`checkInferOutputs` reports each of its streams with `streamInferDone`. `StreamManager` keeps
the streams that it knows, and drops the oldest that is not running when there are too many.

A batch that has a stream twice reports it twice. After the first report the stream is
ready: it may be dropped, which fails the second report, or it may be started by the next
batch, which the second report then ends. After an error no wait blocks.

A call under the lock is one step. Batches are submitted one after the other, and finish
in any order. The list is a hash map, so the order in which it is gone through comes with the
step. A failed submission notifies the error before it returns.
-/
import DeepStream.Lib.Run
import DeepStream.Lib.Table

namespace DeepStream
namespace InferServer
namespace Streams

open Function (update)
open Std (TreeMap)

/-! ### The manager -/

inductive ProgressType where
  | stopped | ready | running
  deriving DecidableEq, Repr

structure StreamState where
  timestamp : ℤ
  progress : ProgressType
  deriving DecidableEq, Repr

structure StreamManager where
  streamList : TreeMap ℕ StreamState
  maxStreamSize : ℕ
  stopping : Bool

def INT64_MAX : ℤ := 2 ^ 63 - 1

/-- The loop body of `popDeprecatedStream`. -/
def older (best : ℤ × Option ℕ) (e : ℕ × StreamState) : ℤ × Option ℕ :=
  if e.2.timestamp < best.1 ∧ e.2.progress ≠ .running then (e.2.timestamp, some e.1) else best

/-- The stream that it finds. -/
def oldest (order : List (ℕ × StreamState)) : Option ℕ := (order.foldl older (INT64_MAX, none)).2

/-- The loop of `startStream`, which drops streams in the order of the list; `fuel` is its length. -/
def popDeprecatedStreams (maxStreamSize : ℕ) : ℕ → List (ℕ × StreamState) → TreeMap ℕ StreamState → TreeMap ℕ StreamState
  | 0, _, m => m
  | fuel + 1, order, m =>
    if m.isEmpty ∨ m.size < maxStreamSize then m
    else
      match oldest order with
      | none => m
      | some id => popDeprecatedStreams maxStreamSize fuel (order.filter fun e => e.1 != id) (m.erase id)

namespace StreamManager

variable (m : StreamManager)

/-- The stream is registered and running. -/
def running (id : ℕ) : Prop := m.streamList[id]?.map StreamState.progress = some .running

instance (id : ℕ) : Decidable (m.running id) := inferInstanceAs (Decidable (_ = _))

/-- `waitStream` returns. -/
def waitEnds (id : ℕ) : Prop := m.stopping = true ∨ ¬ m.running id

instance (id : ℕ) : Decidable (m.waitEnds id) := inferInstanceAs (Decidable (_ ∨ _))

def startStream (order : List (ℕ × StreamState)) (id : ℕ) (timestamp : ℤ) : StreamManager :=
  let kept := if id ∈ m.streamList then m.streamList
    else popDeprecatedStreams m.maxStreamSize order.length order m.streamList
  { m with streamList := kept.insert id ⟨timestamp, .running⟩ }

/-- `none` where the stream has been removed. -/
def streamInferDone (id : ℕ) : Option StreamManager :=
  m.streamList[id]?.map fun state => { m with streamList := m.streamList.insert id { state with progress := .ready } }

def notifyError : StreamManager := { m with stopping := true }

end StreamManager

/-! ### Batches -/

structure Batch where
  ids : List ℕ
  timestamp : ℤ
  deriving DecidableEq, Repr

/-- A batch that was submitted, with the streams that it has still to report. -/
structure Submitted where
  batch : Batch
  left : List ℕ
  failed : Bool
  deriving DecidableEq, Repr

/-- Where `processExtraInputs` is. -/
inductive Pc where
  | idle
  | waiting (b : Batch) (left : List ℕ)
  | processing (b : Batch)
  | starting (b : Batch) (left : List ℕ)
  deriving DecidableEq, Repr

structure State where
  manager : StreamManager
  pc : Pc
  count : ℕ
  batches : ℕ → Option Submitted

inductive Action where
  | submit (b : Batch)
  /-- A call of `waitStream` returns. -/
  | waitStream
  | extraInputProcess
  /-- It has succeeded. -/
  | extraInputDone
  | startStream (order : List (ℕ × StreamState))
  /-- The inference of the batch is queued. -/
  | enqueue
  /-- `extraInputProcess`, the copies behind it or the queueing fail. -/
  | fails
  /-- The next stream of batch `k` is reported. -/
  | streamInferDone (k : ℕ)
  /-- Batch `k` fails. -/
  | inferFails (k : ℕ)
  | notifyError

namespace State

variable (s : State)

/-- The batch is submitted, and has these streams to report. -/
def submitted (b : Batch) (failed : Bool) : State :=
  { s with
    pc := .idle
    count := s.count + 1
    batches := update s.batches s.count (some ⟨b, b.ids, failed⟩) }

def streamInferDone (k : ℕ) (e : Submitted) (id : ℕ) (rest : List ℕ) : State :=
  match s.manager.streamInferDone id with
  | none => { s with batches := update s.batches k (some { e with failed := true }) }
  | some manager => { s with manager := manager, batches := update s.batches k (some { e with left := rest }) }

end State

def step (s : State) : Action → Option State
  | .submit b =>
    match s.pc with
    | .idle => some { s with pc := .waiting b b.ids }
    | _ => none
  | .waitStream =>
    match s.pc with
    | .waiting b (id :: left) => if s.manager.waitEnds id then some { s with pc := .waiting b left } else none
    | _ => none
  | .extraInputProcess =>
    match s.pc with
    | .waiting b [] => some { s with pc := .processing b }
    | _ => none
  | .extraInputDone =>
    match s.pc with
    | .processing b => some { s with pc := .starting b b.ids }
    | _ => none
  | .startStream order =>
    match s.pc with
    | .starting b (id :: left) =>
      if order.Perm s.manager.streamList.toList then
        some { s with manager := s.manager.startStream order id b.timestamp, pc := .starting b left }
      else none
    | _ => none
  | .enqueue =>
    match s.pc with
    | .starting b [] => some (s.submitted b false)
    | _ => none
  | .fails =>
    match s.pc with
    | .processing b | .starting b [] => some ({ s with manager := s.manager.notifyError }.submitted b true)
    | _ => none
  | .streamInferDone k =>
    match s.batches k with
    | some ⟨b, id :: rest, false⟩ => some (s.streamInferDone k ⟨b, id :: rest, false⟩ id rest)
    | _ => none
  | .inferFails k =>
    match s.batches k with
    | some ⟨b, left, false⟩ => some { s with batches := update s.batches k (some ⟨b, left, true⟩) }
    | _ => none
  | .notifyError => some { s with manager := s.manager.notifyError }

def Started (s : State) : Prop := ∃ maxStreamSize, s = ⟨⟨∅, maxStreamSize, false⟩, .idle, 0, fun _ => none⟩

/-! ### What is wanted, and when it holds -/

/-- While `extraInputProcess` runs, every earlier batch has reported the streams of its batch, and
the stream that a batch reports next is registered and running. -/
structure State.Good (s : State) : Prop where
  serial : ∀ b, s.pc = .processing b → ∀ k e, s.batches k = some e → ∀ id ∈ b.ids, id ∉ e.left
  reports : ∀ k b id rest, s.batches k = some ⟨b, id :: rest, false⟩ → s.manager.running id

/-- No batch has a stream twice, and no wait ends because of an error. -/
def StepOk (s : State) : Action → Prop
  | .submit b => b.ids.Nodup
  | .waitStream => s.manager.stopping = false
  | .extraInputProcess | .extraInputDone | .startStream _ | .enqueue | .fails | .streamInferDone _ | .inferFails _
  | .notifyError => True

instance (s : State) : ∀ a, Decidable (StepOk s a)
  | .submit _ => inferInstanceAs (Decidable (List.Nodup _))
  | .waitStream => inferInstanceAs (Decidable (_ = _))
  | .extraInputProcess | .extraInputDone | .startStream _ | .enqueue | .fails | .streamInferDone _ | .inferFails _
  | .notifyError => .isTrue trivial

/-! ### The list of streams -/

theorem foldl_older {id : ℕ} : ∀ {order : List (ℕ × StreamState)} {best : ℤ × Option ℕ},
    (order.foldl older best).2 = some id → best.2 = some id ∨ ∃ state, (id, state) ∈ order ∧ state.progress ≠ .running
  | [], _, h => .inl h
  | e :: order, best, h => by
    rw [List.foldl_cons] at h
    rcases foldl_older h with hbest | ⟨state, hmem, hstate⟩
    · unfold older at hbest
      split at hbest
      · rename_i hold
        obtain rfl := Option.some.inj hbest
        exact .inr ⟨e.2, List.mem_cons_self, hold.2⟩
      · exact .inl hbest
    · exact .inr ⟨state, List.mem_cons_of_mem e hmem, hstate⟩

theorem oldest_not_running {order : List (ℕ × StreamState)} {id : ℕ} (h : oldest order = some id) :
    ∃ state, (id, state) ∈ order ∧ state.progress ≠ .running :=
  (foldl_older h).resolve_left (by simp)

/-- No stream that runs is dropped. -/
theorem getElem?_popDeprecatedStreams {maxStreamSize id : ℕ} {state : StreamState} (hrunning : state.progress = .running) :
    ∀ {fuel : ℕ} {order : List (ℕ × StreamState)} {m : TreeMap ℕ StreamState}, (∀ e ∈ order, m[e.1]? = some e.2) →
      m[id]? = some state → (popDeprecatedStreams maxStreamSize fuel order m)[id]? = some state
  | 0, _, _, _, hid => hid
  | fuel + 1, order, m, horder, hid => by
    unfold popDeprecatedStreams
    split
    · exact hid
    · split
      · exact hid
      · rename_i dropped hdropped
        obtain ⟨state', hmem, hnot⟩ := oldest_not_running hdropped
        have hne : id ≠ dropped := by
          rintro rfl
          have hsame : state' = state := Option.some.inj ((horder _ hmem).symm.trans hid)
          exact hnot (hsame ▸ hrunning)
        refine getElem?_popDeprecatedStreams hrunning (fun e he => ?_) ?_
        · obtain ⟨hmem', hne'⟩ := List.mem_filter.mp he
          rw [Table.getElem?_erase, if_neg (bne_iff_ne.mp hne')]
          exact horder e hmem'
        · rw [Table.getElem?_erase, if_neg hne]
          exact hid

namespace StreamManager

variable {m m' : StreamManager} {id id' : ℕ}

theorem running_iff : m.running id ↔ ∃ state, m.streamList[id]? = some state ∧ state.progress = .running :=
  Option.map_eq_some_iff

/-- The stream is running then, and so are those that were. -/
theorem running_startStream {order : List (ℕ × StreamState)} (horder : order.Perm m.streamList.toList) {timestamp : ℤ}
    (h : id' = id ∨ m.running id') : (m.startStream order id timestamp).running id' := by
  rw [running_iff]
  simp only [startStream, Table.getElem?_insert]
  by_cases hid : id' = id
  · exact ⟨_, if_pos hid, rfl⟩
  · rw [if_neg hid]
    obtain ⟨state, hstate, hrunning⟩ := running_iff.mp (h.resolve_left hid)
    refine ⟨state, ?_, hrunning⟩
    split
    · exact hstate
    · refine getElem?_popDeprecatedStreams hrunning (fun e he => ?_) hstate
      exact TreeMap.mem_toList_iff_getElem?_eq_some.mp (horder.mem_iff.mp he)

/-- A report of a stream that runs ends that stream only. -/
theorem streamInferDone_of_running (h : m.running id) : ∃ m', m.streamInferDone id = some m' ∧ m'.stopping = m.stopping ∧
    ∀ id', id' ≠ id → m.running id' → m'.running id' := by
  obtain ⟨state, hstate, -⟩ := running_iff.mp h
  refine ⟨{ m with streamList := m.streamList.insert id { state with progress := .ready } },
    by rw [streamInferDone, hstate, Option.map_some], rfl, fun id' hne hrunning => ?_⟩
  unfold running at hrunning ⊢
  dsimp only
  rw [Table.getElem?_insert, if_neg hne]
  exact hrunning

end StreamManager

/-! ### The invariant -/

/-- No batch has the stream still to report. -/
def State.Free (s : State) (id : ℕ) : Prop := ∀ k e, s.batches k = some e → id ∉ e.left

/-- What holds of the streams of the batch that is submitted. -/
def Pc.Ok (s : State) : Pc → Prop
  | .idle => True
  | .waiting b left => b.ids.Nodup ∧ ∃ done, b.ids = done ++ left ∧ ∀ id ∈ done, s.Free id
  | .processing b => b.ids.Nodup ∧ ∀ id ∈ b.ids, s.Free id
  | .starting b left =>
    b.ids.Nodup ∧ (∀ id ∈ b.ids, s.Free id) ∧ ∃ started, b.ids = started ++ left ∧ ∀ id ∈ started, s.manager.running id

/-- The streams that are still to be reported are those of one batch each, and run, unless
the batch has failed and the error was notified. -/
structure Inv (s : State) : Prop where
  once : ∀ k e, s.batches k = some e → e.left.Nodup
  apart : ∀ k k' e e' id, s.batches k = some e → s.batches k' = some e' → id ∈ e.left → id ∈ e'.left → k = k'
  running : ∀ k e, s.batches k = some e → e.failed = false ∨ s.manager.stopping = false → ∀ id ∈ e.left, s.manager.running id
  pc : s.pc.Ok s

variable {s s' : State}

theorem of_update_eq_some {f : ℕ → Option Submitted} {k k' : ℕ} {e e' : Submitted} (h : update f k (some e) k' = some e') :
    k' = k ∧ e' = e ∨ k' ≠ k ∧ f k' = some e' := by
  by_cases hk : k' = k
  · rw [hk, Function.update_self] at h
    exact .inl ⟨hk, (Option.some.inj h).symm⟩
  · rw [Function.update_of_ne hk] at h
    exact .inr ⟨hk, h⟩

/-- Streams stay free, and those of them that run go on. -/
theorem Pc.Ok.mono {pc : Pc} (h : pc.Ok s) (hfree : ∀ id, s.Free id → s'.Free id)
    (hrunning : ∀ id, s.Free id → s.manager.running id → s'.manager.running id) : pc.Ok s' := by
  cases pc with
  | idle => trivial
  | waiting b left =>
    obtain ⟨hnodup, done, hids, hdone⟩ := h
    exact ⟨hnodup, done, hids, fun id hid => hfree id (hdone id hid)⟩
  | processing b => exact ⟨h.1, fun id hid => hfree id (h.2 id hid)⟩
  | starting b left =>
    obtain ⟨hnodup, hall, started, hids, hstarted⟩ := h
    refine ⟨hnodup, fun id hid => hfree id (hall id hid), started, hids, fun id hid => ?_⟩
    exact hrunning id (hall id (hids ▸ List.mem_append_left left hid)) (hstarted id hid)

namespace Inv

theorem started (h : Started s) : Inv s := by
  obtain ⟨maxStreamSize, rfl⟩ := h
  exact ⟨(fun _ _ hk => nomatch hk), (fun _ _ _ _ _ hk => nomatch hk), (fun _ _ hk => nomatch hk), trivial⟩

/-- `processExtraInputs` goes on. -/
theorem setPc (h : Inv s) {pc : Pc} (hpc : pc.Ok s) : Inv { s with pc := pc } :=
  ⟨h.once, h.apart, h.running, hpc.mono (fun _ => id) fun _ _ => id⟩

/-- The wait for a stream ends without an error: no batch has it still to report. -/
theorem free_of_waitEnds (h : Inv s) (hstopping : s.manager.stopping = false) {id : ℕ} (hends : s.manager.waitEnds id) :
    s.Free id := by
  intro k e hk hid
  rcases hends with hstop | hnot
  · rw [hstopping] at hstop
    cases hstop
  · exact hnot (h.running k e hk (.inr hstopping) id hid)

theorem startStream (h : Inv s) {b : Batch} {id : ℕ} {left : List ℕ} (hpc : s.pc = .starting b (id :: left))
    {order : List (ℕ × StreamState)} (horder : order.Perm s.manager.streamList.toList) :
    Inv { s with manager := s.manager.startStream order id b.timestamp, pc := .starting b left } := by
  have hok := h.pc
  rw [hpc] at hok
  obtain ⟨hnodup, hall, started, hids, hstarted⟩ := hok
  refine ⟨h.once, h.apart, fun k e hk hrun id' hid' => ?_, hnodup, hall, started ++ [id], ?_, fun id' hid' => ?_⟩
  · exact StreamManager.running_startStream horder (.inr (h.running k e hk hrun id' hid'))
  · rw [hids, List.append_assoc, List.singleton_append]
  · refine StreamManager.running_startStream horder ?_
    rcases List.mem_append.mp hid' with hmem | hmem
    · exact .inr (hstarted id' hmem)
    · exact .inl (List.mem_singleton.mp hmem)

theorem notifyError (h : Inv s) : Inv { s with manager := s.manager.notifyError } := by
  refine ⟨h.once, h.apart, fun k e hk hrun => ?_, h.pc.mono (fun _ => id) fun _ _ => id⟩
  rcases hrun with hfailed | hstopping
  · exact h.running k e hk (.inl hfailed)
  · cases hstopping

/-- A batch is submitted whose streams no other has to report. -/
theorem submitted (h : Inv s) {b : Batch} {failed : Bool} (hnodup : b.ids.Nodup) (hfree : ∀ id ∈ b.ids, s.Free id)
    (hrunning : failed = false ∨ s.manager.stopping = false → ∀ id ∈ b.ids, s.manager.running id) :
    Inv (s.submitted b failed) := by
  refine ⟨fun k e hk => ?_, fun k k' e e' id hk hk' hid hid' => ?_, fun k e hk hrun => ?_, trivial⟩
  · rcases of_update_eq_some hk with ⟨-, rfl⟩ | ⟨-, hk⟩
    · exact hnodup
    · exact h.once k e hk
  · rcases of_update_eq_some hk with ⟨hcount, rfl⟩ | ⟨-, hk⟩
    · rcases of_update_eq_some hk' with ⟨hcount', -⟩ | ⟨-, hk'⟩
      · exact hcount.trans hcount'.symm
      · exact absurd hid' (hfree id hid k' e' hk')
    · rcases of_update_eq_some hk' with ⟨-, rfl⟩ | ⟨-, hk'⟩
      · exact absurd hid (hfree id hid' k e hk)
      · exact h.apart k k' e e' id hk hk' hid hid'
  · rcases of_update_eq_some hk with ⟨-, rfl⟩ | ⟨-, hk⟩
    · exact hrunning hrun
    · exact h.running k e hk hrun

/-- A batch goes on, and has no more streams to report than it had. -/
theorem setBatch (h : Inv s) {k : ℕ} {e e' : Submitted} (hk : s.batches k = some e) (hsub : e'.left.Sublist e.left)
    (hfailed : e'.failed = false → e.failed = false) {manager : StreamManager}
    (hstopping : manager.stopping = s.manager.stopping)
    (hrunning : ∀ id, id ∉ e.left ∨ id ∈ e'.left → s.manager.running id → manager.running id) :
    Inv { s with manager := manager, batches := update s.batches k (some e') } := by
  -- each entry is one that was there, with at most as much to report
  have hwas : ∀ k' e'', update s.batches k (some e') k' = some e'' →
      ∃ e₀, s.batches k' = some e₀ ∧ ∀ id ∈ e''.left, id ∈ e₀.left := fun k' e'' hk' => by
    rcases of_update_eq_some hk' with ⟨rfl, rfl⟩ | ⟨-, hk'⟩
    · exact ⟨e, hk, fun id hid => hsub.subset hid⟩
    · exact ⟨e'', hk', fun _ => id⟩
  refine ⟨fun k' e'' hk' => ?_, fun k₁ k₂ e₁ e₂ id h₁ h₂ hid₁ hid₂ => ?_, fun k' e'' hk' hrun id hid => ?_, ?_⟩
  · rcases of_update_eq_some hk' with ⟨-, rfl⟩ | ⟨-, hk'⟩
    · exact (h.once k e hk).sublist hsub
    · exact h.once k' e'' hk'
  · obtain ⟨e₁', hk₁, hsub₁⟩ := hwas k₁ e₁ h₁
    obtain ⟨e₂', hk₂, hsub₂⟩ := hwas k₂ e₂ h₂
    exact h.apart k₁ k₂ e₁' e₂' id hk₁ hk₂ (hsub₁ id hid₁) (hsub₂ id hid₂)
  · have hrun' : e''.failed = false ∨ s.manager.stopping = false := hrun.imp_right hstopping.symm.trans
    rcases of_update_eq_some hk' with ⟨-, rfl⟩ | ⟨hne, hk'⟩
    · exact hrunning id (.inr hid) (h.running k e hk (hrun'.imp_left hfailed) id (hsub.subset hid))
    · refine hrunning id (.inl fun hmem => hne ?_) (h.running k' e'' hk' hrun' id hid)
      exact h.apart k' k e'' e id hk' hk hid hmem
  · refine h.pc.mono (fun id hfree k' e'' hk' hid => ?_) fun id hfree hrun => hrunning id (.inl (hfree k e hk)) hrun
    obtain ⟨e₀, hk₀, hsub₀⟩ := hwas k' e'' hk'
    exact hfree k' e₀ hk₀ (hsub₀ id hid)

theorem streamInferDone (h : Inv s) {k id : ℕ} {b : Batch} {rest : List ℕ}
    (hk : s.batches k = some ⟨b, id :: rest, false⟩) : Inv (s.streamInferDone k ⟨b, id :: rest, false⟩ id rest) := by
  obtain ⟨manager, hdone, hstopping, hothers⟩ :=
    StreamManager.streamInferDone_of_running (h.running k _ hk (.inl rfl) id List.mem_cons_self)
  have hnot : id ∉ rest := (List.nodup_cons.mp (h.once k _ hk)).1
  rw [State.streamInferDone, hdone]
  refine h.setBatch hk (List.sublist_cons_self id rest) (fun _ => rfl) hstopping fun id' hid' => hothers id' ?_
  rintro rfl
  rcases hid' with hout | hin
  · exact hout List.mem_cons_self
  · exact hnot hin

theorem inferFails (h : Inv s) {k : ℕ} {b : Batch} {left : List ℕ} (hk : s.batches k = some ⟨b, left, false⟩) :
    Inv { s with batches := update s.batches k (some ⟨b, left, true⟩) } :=
  h.setBatch hk (List.Sublist.refl left) (fun _ => rfl) rfl fun _ _ hrun => hrun

/-- Each step keeps the invariant. -/
theorem step {a : Action} (h : Inv s) (hok : StepOk s a) (hs : step s a = some s') : Inv s' := by
  have hpc := h.pc
  cases a with
  | submit b =>
    simp only [Streams.step] at hs
    split at hs
    · cases hs
      exact h.setPc ⟨hok, [], rfl, fun _ hid => nomatch hid⟩
    · cases hs
  | waitStream =>
    simp only [Streams.step] at hs
    split at hs
    · rename_i b id left hcase
      obtain ⟨hends, hs⟩ := Option.ite_none_right_eq_some.mp hs
      cases hs
      rw [hcase] at hpc
      obtain ⟨hnodup, done, hids, hdone⟩ := hpc
      refine h.setPc ⟨hnodup, done ++ [id], ?_, fun id' hid' => ?_⟩
      · rw [hids, List.append_assoc, List.singleton_append]
      · rcases List.mem_append.mp hid' with hmem | hmem
        · exact hdone id' hmem
        · rw [List.mem_singleton.mp hmem]
          exact h.free_of_waitEnds hok hends
    · cases hs
  | extraInputProcess =>
    simp only [Streams.step] at hs
    split at hs
    · rename_i b hcase
      cases hs
      rw [hcase] at hpc
      obtain ⟨hnodup, done, hids, hdone⟩ := hpc
      rw [List.append_nil] at hids
      exact h.setPc ⟨hnodup, hids ▸ hdone⟩
    · cases hs
  | extraInputDone =>
    simp only [Streams.step] at hs
    split at hs
    · rename_i b hcase
      cases hs
      rw [hcase] at hpc
      exact h.setPc ⟨hpc.1, hpc.2, [], rfl, fun _ hid => nomatch hid⟩
    · cases hs
  | startStream order =>
    simp only [Streams.step] at hs
    split at hs
    · rename_i b id left hcase
      obtain ⟨horder, hs⟩ := Option.ite_none_right_eq_some.mp hs
      cases hs
      exact h.startStream hcase horder
    · cases hs
  | enqueue =>
    simp only [Streams.step] at hs
    split at hs
    · rename_i b hcase
      cases hs
      rw [hcase] at hpc
      obtain ⟨hnodup, hall, started, hids, hstarted⟩ := hpc
      rw [List.append_nil] at hids
      exact h.submitted hnodup hall fun _ => hids ▸ hstarted
    · cases hs
  | fails =>
    simp only [Streams.step] at hs
    split at hs
    · rename_i b hcase
      cases hs
      rw [hcase] at hpc
      refine h.notifyError.submitted hpc.1 hpc.2 fun hrun => ?_
      rcases hrun with hfailed | hstopping
      · cases hfailed
      · cases hstopping
    · rename_i b hcase
      cases hs
      rw [hcase] at hpc
      refine h.notifyError.submitted hpc.1 hpc.2.1 fun hrun => ?_
      rcases hrun with hfailed | hstopping
      · cases hfailed
      · cases hstopping
    · cases hs
  | streamInferDone k =>
    simp only [Streams.step] at hs
    split at hs
    · rename_i b id rest hk
      cases hs
      exact h.streamInferDone hk
    · cases hs
  | inferFails k =>
    simp only [Streams.step] at hs
    split at hs
    · rename_i b left hk
      cases hs
      exact h.inferFails hk
    · cases hs
  | notifyError =>
    cases hs
    exact h.notifyError

theorem good (h : Inv s) : s.Good := by
  refine ⟨fun b hpc k e hk id hid => ?_, fun k b id rest hk => h.running k _ hk (.inl rfl) id List.mem_cons_self⟩
  have hok := h.pc
  rw [hpc] at hok
  exact hok.2 id hid k e hk

end Inv

/-- Batches with a stream in common are processed one after the other, and every report finds
its stream running, in every run whose steps meet `StepOk`. -/
theorem serial_run {s : State} (h : Reach step StepOk Started s) : s.Good :=
  (h.invariant (fun _ => Inv.started) fun _ _ _ hinv hok hs => hinv.step hok hs).good

/-! ### Three runs -/

/-- There is room for one stream. -/
def oneStream : State := ⟨⟨∅, 1, false⟩, .idle, 0, fun _ => none⟩

theorem started_oneStream : Started oneStream := ⟨1, rfl⟩

/-- The streams 1 and 2 are both kept while they run; then 1 makes room for 3. -/
theorem serial_run_evicts : ∃ s : State, s.manager.streamList.keys = [2, 3] ∧ s.pc = .starting ⟨[2, 3], 1⟩ [] ∧ s.Good := by
  have hrun : (exec step StepOk oneStream
      [.submit ⟨[1, 2], 0⟩, .waitStream, .waitStream, .extraInputProcess, .extraInputDone, .startStream [],
        .startStream [(1, ⟨0, .running⟩)], .enqueue, .submit ⟨[2, 3], 1⟩, .streamInferDone 0, .streamInferDone 0,
        .waitStream, .waitStream, .extraInputProcess, .extraInputDone,
        .startStream [(1, ⟨0, .ready⟩), (2, ⟨0, .ready⟩)],
        .startStream [(2, ⟨1, .running⟩), (1, ⟨0, .ready⟩)]]).isSome := by decide
  exact ⟨_, rfl, rfl, serial_run (Reach.get_exec started_oneStream hrun)⟩

/-- Stream 1 is twice in the batch, and is reported once. -/
def reportedOnce : List Action :=
  [.submit ⟨[1, 1], 0⟩, .waitStream, .waitStream, .extraInputProcess, .extraInputDone, .startStream [],
    .startStream [(1, ⟨0, .running⟩)], .enqueue, .streamInferDone 0]

/-- A batch that has a stream twice reports it when it is no longer running, the next batch with
that stream does not wait for it, and where the stream was dropped it fails. -/
theorem serial_fails :
    (∃ s, Reach step anyStep Started s ∧ s.pc = .processing ⟨[1], 1⟩ ∧
      s.batches 0 = some ⟨⟨[1, 1], 0⟩, [1], false⟩ ∧ ¬ s.manager.running 1 ∧ ¬ s.Good) ∧
    ∃ s, Reach step anyStep Started s ∧ s.batches 0 = some ⟨⟨[1, 1], 0⟩, [1], true⟩ := by
  have hready : (exec step anyStep oneStream
      (reportedOnce ++ [.submit ⟨[1], 1⟩, .waitStream, .extraInputProcess])).isSome := by decide
  have hdropped : (exec step anyStep oneStream
      (reportedOnce ++ [.submit ⟨[2], 1⟩, .waitStream, .extraInputProcess, .extraInputDone,
        .startStream [(1, ⟨0, .ready⟩)], .streamInferDone 0])).isSome := by decide
  refine ⟨⟨_, Reach.get_exec started_oneStream hready, rfl, rfl, fun hrunning => ?_, fun hgood => ?_⟩,
    ⟨_, Reach.get_exec started_oneStream hdropped, rfl⟩⟩
  · have hprogress : some ProgressType.ready = some ProgressType.running := hrunning
    cases hprogress
  · exact hgood.serial ⟨[1], 1⟩ rfl 0 ⟨⟨[1, 1], 0⟩, [1], false⟩ rfl 1 List.mem_cons_self List.mem_cons_self

end Streams
end InferServer
end DeepStream
