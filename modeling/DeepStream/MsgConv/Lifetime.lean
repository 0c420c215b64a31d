/-
# The converter context of gst-nvmsgconv

`transform_ip` attaches the payloads that the converter library generates to the buffers;
the metadata of a buffer is copied and freed downstream, in any thread, by `copy_meta` and
`free_meta`, which need the context of the library. `numActivePayloads` counts the
payloads, and who finds it at zero after `stop` has set its flag destroys the context,
closes the library and drops the reference that `dispose` took if there were payloads.

Each access to what the threads share is one step. A meta that is being copied is not
freed, for who copies it holds the buffer. The counter is a signed integer of 32 bits.
The memory of an element that `dispose` has not kept alive is gone, and there are no
further steps.
-/
import DeepStream.Lib.Run
import DeepStream.Lib.Word
import Mathlib.Data.Fintype.Option

namespace DeepStream
namespace MsgConv

/-- Where the cleanup is, which `stop` and `gst_nvmsgconv_free_meta` have in common. -/
inductive CleanPc where
  | testCtx | destroyCtx | clearCtx | testLib | closeLib | clearLib | testSelfRef | unref
  deriving DecidableEq, Repr

/-- Where a thread is in `gst_nvmsgconv_copy_meta` of the payload `src`, in
`gst_nvmsgconv_free_meta`, or in `gst_nvmsgconv_stop`. -/
inductive CallPc where
  | idle
  | copying (src : ℕ)
  | copyCounting (src dup : ℕ)
  | releasing (payload : ℕ)
  | decrementing
  | testCount
  | testStop
  | stopTestCount
  | clean (pc : CleanPc)
  deriving DecidableEq, Repr

/-- The payload that is being copied. -/
def CallPc.source : CallPc → Option ℕ
  | .copying src | .copyCounting src _ => some src
  | _ => none

/-- Where `transform_ip` is with a payload. -/
inductive TransformPc where
  | idle
  | generated (payload : ℕ)
  | attached (payload : ℕ)
  deriving DecidableEq, Repr

/-- Where `gst_nvmsgconv_dispose` is; `kept` is after it has taken a reference, and
`finalized` after it has not. -/
inductive DisposePc where
  | notCalled | testCount | ref | setSelfRef | kept | finalized
  deriving DecidableEq, Repr

/-- `metas` are the payloads that are attached to a buffer, `lost` counts those that could
not be. Of the threads, `none` is the one that calls `stop`. `destroyed`, `closed`,
`taken` and `dropped` count what was done to the context, the library and the reference,
and `badRelease` is set by a release with a destroyed context. -/
structure State (n : ℕ) where
  numActivePayloads : ℤ := 0
  stop : Bool := false
  pCtx : Bool := true
  libHandle : Bool
  selfRef : Bool := false
  transform : TransformPc := .idle
  metas : List ℕ := []
  lost : ℕ := 0
  threads : Option (Fin n) → CallPc := fun _ => .idle
  dispose : DisposePc := .notCalled
  destroyed : ℕ := 0
  closed : ℕ := 0
  taken : ℕ := 0
  dropped : ℕ := 0
  badRelease : Bool := false

inductive Action (n : ℕ) where
  /-- The library generates a payload. -/
  | generate (payload : ℕ)
  /-- `transform_ip` goes on; `valid` says that a payload has a size and gets a meta. -/
  | transform (valid : Bool)
  | copy (t : Fin n) (src : ℕ)
  /-- The copy is made. -/
  | dup (t : Fin n) (dup : ℕ)
  | free (t : Fin n) (payload : ℕ)
  /-- `stop` is called and sets its flag. -/
  | stop
  /-- A thread goes on. -/
  | call (t : Option (Fin n))
  /-- The last reference to the element is dropped. -/
  | unref
  /-- `dispose` goes on. -/
  | dispose
  deriving DecidableEq, Repr

namespace State

variable {n : ℕ} (s : State n)

def setThread (t : Option (Fin n)) (pc : CallPc) : State n := { s with threads := Function.update s.threads t pc }

/-- `g_atomic_int_inc` of the counter. -/
def inc : State n := { s with numActivePayloads := gint (s.numActivePayloads + 1) }

/-- `g_atomic_int_dec_and_test`, the result of which is not used. -/
def dec : State n := { s with numActivePayloads := gint (s.numActivePayloads - 1) }

/-- The cleanup. -/
def cleanStep (t : Option (Fin n)) : CleanPc → State n
  | .testCtx => s.setThread t (.clean (if s.pCtx then .destroyCtx else .testLib))
  | .destroyCtx => { s with destroyed := s.destroyed + 1 }.setThread t (.clean .clearCtx)
  | .clearCtx => { s with pCtx := false }.setThread t (.clean .testLib)
  | .testLib => s.setThread t (.clean (if s.libHandle then .closeLib else .testSelfRef))
  | .closeLib => { s with closed := s.closed + 1 }.setThread t (.clean .clearLib)
  | .clearLib => { s with libHandle := false }.setThread t (.clean .testSelfRef)
  | .testSelfRef => s.setThread t (if s.selfRef then .clean .unref else .idle)
  -- it is the last reference, and `dispose` is called again
  | .unref => { s with dropped := s.dropped + 1, dispose := .testCount }.setThread t .idle

def callStep (t : Option (Fin n)) : Option (State n) :=
  match s.threads t with
  | .idle | .copying _ => none
  | .copyCounting _ dup => some ({ s with metas := s.metas ++ [dup] }.inc.setThread t .idle)
  | .releasing _ => some ({ s with badRelease := s.badRelease || decide (s.destroyed ≠ 0) }.setThread t .decrementing)
  | .decrementing => some (s.dec.setThread t .testCount)
  | .testCount => some (s.setThread t (if s.numActivePayloads = 0 then .testStop else .idle))
  | .testStop => some (s.setThread t (if s.stop then .clean .testCtx else .idle))
  | .stopTestCount => some (s.setThread t (if s.numActivePayloads = 0 then .clean .testCtx else .idle))
  | .clean pc => some (s.cleanStep t pc)

/-- `add_payload_to_batch_meta`. -/
def transformStep (valid : Bool) : Option (State n) :=
  match s.transform with
  | .idle => none
  | .generated p =>
    some (if valid then { s with metas := s.metas ++ [p], transform := .attached p }
      else { s with lost := s.lost + 1, transform := .idle })
  | .attached _ => some { s.inc with transform := .idle }

def disposeStep : Option (State n) :=
  match s.dispose with
  | .testCount => some { s with dispose := if s.numActivePayloads ≠ 0 then .ref else .finalized }
  | .ref => some { s with taken := s.taken + 1, dispose := .setSelfRef }
  | .setSelfRef => some { s with selfRef := true, dispose := .kept }
  | _ => none

end State

def step {n : ℕ} (s : State n) (a : Action n) : Option (State n) :=
  if s.dispose = .finalized then none
  else
    match a with
    | .generate p => if s.transform = .idle then some { s with transform := .generated p } else none
    | .transform valid => s.transformStep valid
    | .copy t src => if s.threads t = .idle ∧ src ∈ s.metas then some (s.setThread t (.copying src)) else none
    | .dup t dup =>
      match s.threads t with
      | .copying src => some (s.setThread t (.copyCounting src dup))
      | _ => none
    | .free t p =>
      if s.threads t = .idle ∧ p ∈ s.metas ∧ ∀ t', (s.threads t').source ≠ some p then
        some ({ s with metas := s.metas.erase p }.setThread t (.releasing p))
      else none
    | .stop =>
      if s.stop = false ∧ s.threads none = .idle then some ({ s with stop := true }.setThread none .stopTestCount)
      else none
    | .call t => s.callStep t
    | .unref => if s.dispose = .notCalled then some { s with dispose := .testCount } else none
    | .dispose => s.disposeStep

/-! ### What is wanted, and when it holds -/

/-- The payload in the hands of a thread that has not been released. -/
def CallPc.payload : CallPc → Option ℕ
  | .copyCounting _ dup => some dup
  | .releasing p => some p
  | _ => none

def TransformPc.payload : TransformPc → Option ℕ
  | .generated p | .attached p => some p
  | .idle => none

namespace State

variable {n : ℕ} (s : State n)

/-- Every payload that was generated or copied has been released. -/
structure AllReleased : Prop where
  metas : s.metas = []
  lost : s.lost = 0
  transform : s.transform.payload = none
  threads : ∀ t, (s.threads t).payload = none

/-- `stop` has returned, no call is under way and every payload has been released. -/
structure Quiet : Prop where
  stop : s.stop = true
  threads : ∀ t, s.threads t = .idle
  released : s.AllReleased
  dispose : s.dispose ≠ .ref ∧ s.dispose ≠ .setSelfRef

/-- The lifetime of the context, of a library that was opened if `library` says so: it ends
once, after all payloads; at the end it has ended, and so has the reference. -/
structure Good (library : Bool) : Prop where
  nonneg : 0 ≤ s.numActivePayloads
  destroyed : s.destroyed ≤ 1
  closed : s.closed ≤ 1
  released : s.destroyed ≠ 0 ∨ s.closed ≠ 0 → s.AllReleased
  release : s.badRelease = false
  dropped : s.dropped ≤ s.taken ∧ s.taken ≤ 1
  finalized : s.dispose = .finalized → s.transform = .idle ∧ ∀ t, s.threads t = .idle
  quiet : s.Quiet → s.destroyed = 1 ∧ s.closed = library.toNat ∧ s.dropped = s.taken

end State

/-- The state after the element was started. -/
def start (n : ℕ) (library : Bool) : State n := { libHandle := library }

/-- What the steps have to avoid. -/
structure StepOk {n : ℕ} (s : State n) (a : Action n) : Prop where
  /-- `transform_ip` generates nothing once the flag is set and the counter at zero. -/
  generate : ∀ p, a = .generate p → ¬ (s.stop = true ∧ s.numActivePayloads = 0)
  /-- Every payload can be attached. -/
  valid : ∀ p, a = .transform false → s.transform ≠ .generated p
  /-- A payload is copied or freed only when it has been counted. -/
  copy : ∀ t p, a = .copy t p → s.transform ≠ .attached p
  free : ∀ t p, a = .free t p → s.transform ≠ .attached p
  /-- The counter does not overflow. -/
  count : (∃ valid p, a = .transform valid ∧ s.transform = .attached p) ∨
    (∃ t src dup, a = .call t ∧ s.threads t = .copyCounting src dup) → s.numActivePayloads + 1 < 2 ^ 31
  /-- When the counter comes to zero with the flag set, no other call is about to read it,
  and `transform_ip` has no payload. -/
  decrement : ∀ t, a = .call t → s.threads t = .decrementing → s.stop = true → s.numActivePayloads = 1 →
    s.transform = .idle ∧ ∀ t', t' ≠ t → s.threads t' ≠ .testCount ∧ s.threads t' ≠ .stopTestCount
  /-- When `stop` sets the flag, no call has found the counter at zero and is about to read
  the flag; with the counter at zero, none is about to read it, and `transform_ip` has no
  payload. -/
  stop : a = .stop → (∀ t, s.threads t ≠ .testStop) ∧
    (s.numActivePayloads = 0 → s.transform = .idle ∧ ∀ t, s.threads t ≠ .testCount)
  /-- `selfRef` is not read while `dispose` is about to set it. -/
  selfRef : ∀ t, a = .call t → s.threads t = .clean .testSelfRef → s.dispose ≠ .ref ∧ s.dispose ≠ .setSelfRef
  /-- When `dispose` finds the counter at zero, no call is under way. -/
  dispose : a = .dispose → s.dispose = .testCount → s.numActivePayloads = 0 →
    s.transform = .idle ∧ ∀ t, s.threads t = .idle

end MsgConv
end DeepStream
