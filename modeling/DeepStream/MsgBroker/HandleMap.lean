/-
# The status of the connections of gst-nvmsgbroker

With the `NvMsgBroker` interface the elements keep the status of their connections in one
map from connection handles to status objects, and elements with one configuration are
given one handle. `start` enters an object after it has connected, `stop` deletes it
before it disconnects; the connect callback and `render` look the handle up by
`operator[]`, which enters a null pointer under a handle that is absent, `render` without
the lock.

The entry belongs to no element in particular: the first that stops deletes it, and a
callback that comes before it is entered or after it is deleted finds nothing. A lookup
is right exactly if some element uses the handle, and a deletion exactly if no other
element does and no `render` has the object in hand.

A step is one access to what the threads share; a look-up and the use of what it found
are two. `render` of an element can run at any time, also during its `stop`.
-/
import DeepStream.Lib.Run
import Mathlib.Data.Fintype.Basic

namespace DeepStream
namespace MsgBroker
namespace HandleMap

inductive NvMsgBrokerErrorType where
  | ok | err | reconnecting | notSupported
  deriving DecidableEq, Repr

structure NvMsgBrokerHandleStatus where
  connectionAlive : Bool
  brokerDisconnect : Bool
  deriving DecidableEq, Repr

/-- Where `start` or `stop` of an element is. -/
inductive ControlPc where
  | idle
  /-- In `nv_msgbroker_connect`, which will give this handle. -/
  | connecting (h : ℕ)
  | startLocking | inserting | startUnlocking | started
  | stopLocking | deleting | stopUnlocking
  | disconnecting
  deriving DecidableEq, Repr

/-- Where `render` of an element is with a message; a pointer that it has found is with
the handle that it looked up, and `none` is null. -/
inductive RenderPc where
  | idle
  | readingAlive (h : ℕ) (pointer : Option ℕ)
  | handled
  | readingDisconnect (h : ℕ) (pointer : Option ℕ)
  deriving DecidableEq, Repr

/-- Where the connect callback that holds the lock is. -/
inductive CallbackPc where
  | idle
  | findAlive (h : ℕ) (status : NvMsgBrokerErrorType)
  | settingAlive (h : ℕ) (status : NvMsgBrokerErrorType) (pointer : Option ℕ)
  | findDisconnect (h : ℕ)
  | settingDisconnect (h : ℕ) (pointer : Option ℕ)
  | unlocking
  deriving DecidableEq, Repr

structure Element where
  newConnHandle : Option ℕ := none
  control : ControlPc := .idle
  render : RenderPc := .idle
  deriving DecidableEq, Repr

inductive Owner (n : ℕ) where
  | element (e : Fin n)
  | callback
  deriving DecidableEq, Repr

/-- `objects` are the status objects that exist, by their addresses, of which `next` has
not been used; `arrived` are the connect callbacks that wait for the lock. -/
structure State (n : ℕ) where
  handleMap : ℕ → Option (Option ℕ) := fun _ => none
  handleLock : Option (Owner n) := none
  objects : ℕ → Option NvMsgBrokerHandleStatus := fun _ => none
  next : ℕ := 0
  elements : Fin n → Element := fun _ => {}
  arrived : List (ℕ × NvMsgBrokerErrorType) := []
  callback : CallbackPc := .idle

inductive Action (n : ℕ) where
  /-- `start` calls `nv_msgbroker_connect`, which will give the handle `h`. -/
  | connect (e : Fin n) (h : ℕ)
  | connected (e : Fin n) (ok : Bool)
  | stop (e : Fin n)
  | disconnected (e : Fin n) (ok : Bool)
  /-- `start` or `stop` goes on. -/
  | control (e : Fin n)
  /-- `render` looks its handle up. -/
  | find (e : Fin n)
  /-- `render` reads what it found. -/
  | read (e : Fin n)
  /-- The library calls back for the connection of an element. -/
  | arrive (e : Fin n) (status : NvMsgBrokerErrorType)
  | callbackLock (h : ℕ) (status : NvMsgBrokerErrorType)
  | callback
  deriving DecidableEq, Repr

/-- The handle that may be called back for: from the call of `nv_msgbroker_connect` to the
return of `nv_msgbroker_disconnect`. -/
def Element.connection (el : Element) : Option ℕ :=
  match el.control with
  | .idle => none
  | .connecting h => some h
  | _ => el.newConnHandle

namespace State

variable {n : ℕ} (s : State n)

def setElement (e : Fin n) (el : Element) : State n := { s with elements := Function.update s.elements e el }

/-- `NvMsgBrokerHandleMap[h]`. -/
def lookup (h : ℕ) : State n :=
  if s.handleMap h = none then { s with handleMap := Function.update s.handleMap h (some none) } else s

/-- What `NvMsgBrokerHandleMap[h]` is. -/
def pointer (h : ℕ) : Option ℕ := (s.handleMap h).join

/-- An assignment to a field of an object. -/
def setObject (o : ℕ) (status : NvMsgBrokerHandleStatus) : State n :=
  { s with objects := Function.update s.objects o (some status) }

/-- `start` with the lock. -/
def insert (h : ℕ) : State n :=
  if s.handleMap h = none then
    { s with
      handleMap := Function.update s.handleMap h (some (some s.next))
      objects := Function.update s.objects s.next (some ⟨true, false⟩)
      next := s.next + 1 }
  else s

/-- `stop` with the lock. -/
def delete (h : ℕ) : State n :=
  match s.handleMap h with
  | none => s
  | some none => { s with handleMap := Function.update s.handleMap h none }
  | some (some o) =>
    { s with
      handleMap := Function.update s.handleMap h none
      objects := Function.update s.objects o none }

def lock (owner : Owner n) (next : State n) : Option (State n) :=
  if s.handleLock = none then some { next with handleLock := some owner } else none

def unlock : State n := { s with handleLock := none }

/-- `start` and `stop` between their calls of the library. -/
def controlStep (e : Fin n) : Option (State n) :=
  let el := s.elements e
  match el.control with
  | .startLocking => s.lock (.element e) (s.setElement e { el with control := .inserting })
  | .inserting => el.newConnHandle.map fun h => (s.insert h).setElement e { el with control := .startUnlocking }
  | .startUnlocking => some (s.unlock.setElement e { el with control := .started })
  | .stopLocking => s.lock (.element e) (s.setElement e { el with control := .deleting })
  | .deleting => el.newConnHandle.map fun h => (s.delete h).setElement e { el with control := .stopUnlocking }
  | .stopUnlocking => some (s.unlock.setElement e { el with control := .disconnecting })
  | _ => none

/-- `render` comes to one of its look-ups; without a handle it makes none. -/
def findStep (e : Fin n) : Option (State n) :=
  let el := s.elements e
  match el.render with
  | .idle =>
    match el.newConnHandle with
    | none => some (s.setElement e { el with render := .handled })
    | some h => some ((s.lookup h).setElement e { el with render := .readingAlive h (s.pointer h) })
  | .handled =>
    match el.newConnHandle with
    | none => some (s.setElement e { el with render := .idle })
    | some h => some ((s.lookup h).setElement e { el with render := .readingDisconnect h (s.pointer h) })
  | _ => none

/-- The object behind a pointer. -/
def object (pointer : Option ℕ) : Option NvMsgBrokerHandleStatus := pointer.bind s.objects

/-- `render` reads a field, and sends the message or not, or has done with it; there is no
result if there is no object. -/
def readStep (e : Fin n) : Option (State n) :=
  let el := s.elements e
  match el.render with
  | .readingAlive _ p => (s.object p).map fun _ => s.setElement e { el with render := .handled }
  | .readingDisconnect _ p => (s.object p).map fun _ => s.setElement e { el with render := .idle }
  | _ => none

/-- `nvmsgbroker_connect_callback` with the lock. -/
def callbackStep : Option (State n) :=
  match s.callback with
  | .idle => none
  | .findAlive h status => some { s.lookup h with callback := .settingAlive h status (s.pointer h) }
  | .settingAlive h status p =>
    match p with
    | none => none
    | some o =>
      (s.objects o).map fun object =>
        { s.setObject o { object with connectionAlive := status = .ok } with
          callback := if status = .err then .findDisconnect h else .unlocking }
  | .findDisconnect h => some { s.lookup h with callback := .settingDisconnect h (s.pointer h) }
  | .settingDisconnect _ p =>
    match p with
    | none => none
    | some o =>
      (s.objects o).map fun object =>
        { s.setObject o { object with brokerDisconnect := true } with callback := .unlocking }
  | .unlocking => some { s.unlock with callback := .idle }

end State

def step {n : ℕ} (s : State n) : Action n → Option (State n)
  | .connect e h =>
    if (s.elements e).control = .idle then some (s.setElement e { s.elements e with control := .connecting h }) else none
  | .connected e ok =>
    match (s.elements e).control with
    | .connecting h =>
      some (s.setElement e (if ok then { s.elements e with newConnHandle := some h, control := .startLocking }
        else { s.elements e with newConnHandle := none, control := .idle }))
    | _ => none
  | .stop e =>
    if (s.elements e).control = .started then some (s.setElement e { s.elements e with control := .stopLocking })
    else none
  | .disconnected e ok =>
    if (s.elements e).control = .disconnecting then
      some (s.setElement e
        { s.elements e with
          newConnHandle := if ok then (s.elements e).newConnHandle else none
          control := .idle })
    else none
  | .control e => s.controlStep e
  | .find e => s.findStep e
  | .read e => s.readStep e
  | .arrive e status => (s.elements e).connection.map fun h => { s with arrived := s.arrived ++ [(h, status)] }
  | .callbackLock h status =>
    if (h, status) ∈ s.arrived then
      s.lock .callback { s with arrived := s.arrived.erase (h, status), callback := .findAlive h status }
    else none
  | .callback => s.callbackStep

/-! ### What is wanted, and when it holds -/

/-- From the insertion in `start` to the deletion in `stop`. -/
def ControlPc.uses : ControlPc → Bool
  | .startUnlocking | .started | .stopLocking | .deleting => true
  | _ => false

/-- The element is started and has the handle. -/
def Element.Uses (el : Element) (h : ℕ) : Prop := el.newConnHandle = some h ∧ el.control.uses = true

instance (el : Element) (h : ℕ) : Decidable (el.Uses h) := instDecidableAnd

/-- The handle that `render` has looked up and the pointer that it found. -/
def RenderPc.found : RenderPc → Option (ℕ × Option ℕ)
  | .readingAlive h p | .readingDisconnect h p => some (h, p)
  | _ => none

/-- The same of the callback. -/
def CallbackPc.found : CallbackPc → Option (ℕ × Option ℕ)
  | .settingAlive h _ p | .settingDisconnect h p => some (h, p)
  | _ => none

namespace State

variable {n : ℕ} (s : State n)

def Used (h : ℕ) : Prop := ∃ e, (s.elements e).Uses h

/-- The pointer is not null and its object has not been deleted. -/
def Live (pointer : Option ℕ) : Prop := ∃ o, pointer = some o ∧ (s.objects o).isSome

/-- What was found by a look-up is there until it has been used, and a handle that a
started element uses has an entry. -/
structure Good : Prop where
  render : ∀ e f, (s.elements e).render.found = some f → s.Live f.2
  callback : ∀ f, s.callback.found = some f → s.Live f.2
  started : ∀ h, s.Used h → ∃ p, s.handleMap h = some p ∧ s.Live p

/-- The handle that a step looks up by `operator[]`. -/
def lookedUp : Action n → Option ℕ
  | .find e =>
    match (s.elements e).render with
    | .idle | .handled => (s.elements e).newConnHandle
    | _ => none
  | .callback =>
    match s.callback with
    | .findAlive h _ | .findDisconnect h => some h
    | _ => none
  | _ => none

/-- The element whose `stop` deletes in a step, and the handle. -/
def deleted : Action n → Option (Fin n × ℕ)
  | .control e =>
    match (s.elements e).control with
    | .deleting => (s.elements e).newConnHandle.map fun h => (e, h)
    | _ => none
  | _ => none

end State

/-- A handle is looked up only while a started element uses it, and its entry is deleted
only if no other element uses it and no `render` has the pointer in hand. -/
structure StepOk {n : ℕ} (s : State n) (a : Action n) : Prop where
  lookup : ∀ h, s.lookedUp a = some h → s.Used h
  delete : ∀ d, s.deleted a = some d → (∀ e, e ≠ d.1 → ¬ (s.elements e).Uses d.2) ∧
    ∀ e f, (s.elements e).render.found = some f → f.1 ≠ d.2

/-! ### The entries of the map -/

/-- The handles of `used` have an object of their own, and others have no entry. -/
structure State.Entries {n : ℕ} (s : State n) (used : ℕ → Prop) : Prop where
  entry : ∀ h, used h → ∃ o, s.handleMap h = some (some o) ∧ (s.objects o).isSome
  noEntry : ∀ h, ¬ used h → s.handleMap h = none
  distinct : ∀ h h' o, s.handleMap h = some (some o) → s.handleMap h' = some (some o) → h = h'
  fresh : ∀ h o, s.handleMap h = some (some o) → o < s.next

section Entries

variable {n : ℕ} {s : State n} {used used' : ℕ → Prop}

theorem State.Entries.congr (h : s.Entries used) (hused : ∀ k, used' k ↔ used k) : s.Entries used' where
  entry := fun k hk => h.entry k ((hused k).mp hk)
  noEntry := fun k hk => h.noEntry k fun hk' => hk ((hused k).mpr hk')
  distinct := h.distinct
  fresh := h.fresh

/-- A handle in use has an entry, so looking it up enters nothing. -/
theorem State.Entries.lookup (h : s.Entries used) {k : ℕ} (hk : used k) :
    s.lookup k = s ∧ s.handleMap k = some (s.pointer k) ∧ s.Live (s.pointer k) := by
  obtain ⟨o, ho, hobject⟩ := h.entry k hk
  unfold State.lookup State.pointer
  rw [ho, if_neg (fun hnone => by cases hnone)]
  exact ⟨rfl, rfl, o, rfl, hobject⟩

/-- Looking up another handle finds a null pointer. -/
theorem State.Entries.lookup_null (h : s.Entries used) {k : ℕ} (hk : ¬ used k) : s.pointer k = none := by
  unfold State.pointer
  rw [h.noEntry k hk]
  rfl

theorem State.Entries.insert (h : s.Entries used) (k : ℕ) :
    (s.insert k).Entries (fun j => used j ∨ j = k) ∧ ∀ j, used j → (s.insert k).handleMap j = s.handleMap j := by
  unfold State.insert
  by_cases hk : s.handleMap k = none
  · rw [if_pos hk]
    have hne : ∀ j, used j → j ≠ k := fun j hj hjk => by
      obtain ⟨o, ho, -⟩ := h.entry j hj
      rw [hjk, hk] at ho
      cases ho
    have hfresh : ∀ j, s.handleMap j ≠ some (some s.next) := fun j hj => Nat.lt_irrefl _ (h.fresh j _ hj)
    refine ⟨⟨fun j hj => ?_, fun j hj => ?_, fun j j' o hj hj' => ?_, fun j o hj => ?_⟩, fun j hj =>
      Function.update_of_ne (hne j hj) _ _⟩
    · rcases hj with hj | rfl
      · obtain ⟨o, ho, hobject⟩ := h.entry j hj
        refine ⟨o, (Function.update_of_ne (hne j hj) _ _).trans ho, ?_⟩
        have hold : o ≠ s.next := fun heq => hfresh j (heq ▸ ho)
        show (Function.update s.objects s.next _ o).isSome
        rwa [Function.update_of_ne hold]
      · refine ⟨s.next, Function.update_self _ _ _, ?_⟩
        show (Function.update s.objects s.next _ s.next).isSome
        rw [Function.update_self]
        rfl
    · rw [not_or] at hj
      exact (Function.update_of_ne hj.2 _ _).trans (h.noEntry j hj.1)
    · change Function.update s.handleMap k _ j = _ at hj
      change Function.update s.handleMap k _ j' = _ at hj'
      by_cases hjk : j = k <;> by_cases hjk' : j' = k
      · rw [hjk, hjk']
      · rw [hjk, Function.update_self, Option.some.injEq] at hj
        rw [Function.update_of_ne hjk', ← hj] at hj'
        exact absurd hj' (hfresh j')
      · rw [hjk', Function.update_self, Option.some.injEq] at hj'
        rw [Function.update_of_ne hjk, ← hj'] at hj
        exact absurd hj (hfresh j)
      · rw [Function.update_of_ne hjk] at hj
        rw [Function.update_of_ne hjk'] at hj'
        exact h.distinct j j' o hj hj'
    · change Function.update s.handleMap k _ j = _ at hj
      show o < s.next + 1
      by_cases hjk : j = k
      · rw [hjk, Function.update_self, Option.some.injEq, Option.some.injEq] at hj
        omega
      · rw [Function.update_of_ne hjk] at hj
        exact Nat.lt_succ_of_lt (h.fresh j o hj)
  · rw [if_neg hk]
    have hused : used k := by
      by_contra hnot
      exact hk (h.noEntry k hnot)
    refine ⟨h.congr fun j => ⟨fun hj => ?_, .inl⟩, fun _ _ => rfl⟩
    rcases hj with hj | rfl
    · exact hj
    · exact hused

/-- The object of a handle in use is deleted, and no other. -/
theorem State.Entries.delete (h : s.Entries used) {k : ℕ} (hk : used k) :
    (s.delete k).Entries (fun j => used j ∧ j ≠ k) ∧
      (∀ j, j ≠ k → (s.delete k).handleMap j = s.handleMap j) ∧ (s.delete k).handleMap k = none ∧
      ∀ p, s.handleMap k = some p → ¬ (s.delete k).Live p := by
  obtain ⟨o, ho, -⟩ := h.entry k hk
  have hdelete : s.delete k = { s with
      handleMap := Function.update s.handleMap k none
      objects := Function.update s.objects o none } := by
    unfold State.delete
    rw [ho]
  rw [hdelete]
  refine ⟨⟨fun j hj => ?_, fun j hj => ?_, fun j j' o' hj hj' => ?_, fun j o' hj => ?_⟩, fun j hj =>
    Function.update_of_ne hj _ _, Function.update_self _ _ _, fun p hp hlive => ?_⟩
  · obtain ⟨o', ho', hobject⟩ := h.entry j hj.1
    refine ⟨o', (Function.update_of_ne hj.2 _ _).trans ho', ?_⟩
    have hne : o' ≠ o := fun heq => hj.2 (h.distinct j k o (heq ▸ ho') ho)
    show (Function.update s.objects o none o').isSome
    rwa [Function.update_of_ne hne]
  · show Function.update s.handleMap k none j = none
    by_cases hjk : j = k
    · rw [hjk, Function.update_self]
    · rw [Function.update_of_ne hjk]
      exact h.noEntry j fun hused => hj ⟨hused, hjk⟩
  · change Function.update s.handleMap k none j = _ at hj
    change Function.update s.handleMap k none j' = _ at hj'
    have hjk : j ≠ k := fun heq => by rw [heq, Function.update_self] at hj; cases hj
    have hjk' : j' ≠ k := fun heq => by rw [heq, Function.update_self] at hj'; cases hj'
    rw [Function.update_of_ne hjk] at hj
    rw [Function.update_of_ne hjk'] at hj'
    exact h.distinct j j' o' hj hj'
  · change Function.update s.handleMap k none j = _ at hj
    have hjk : j ≠ k := fun heq => by rw [heq, Function.update_self] at hj; cases hj
    rw [Function.update_of_ne hjk] at hj
    exact h.fresh j o' hj
  · obtain ⟨o', rfl, hobject⟩ := hlive
    rw [ho, Option.some.injEq, Option.some.injEq] at hp
    change (Function.update s.objects o none o').isSome at hobject
    rw [hp, Function.update_self] at hobject
    cases hobject

end Entries

end HandleMap
end MsgBroker
end DeepStream
