/-
# Look-ups of the status of a connection

The invariant of the map from connection handles to status objects: exactly the handles
that a started element uses have an entry, with an object of its own, and what was looked
up is still the entry of a handle in use. Every step that meets `StepOk` keeps it, and
every other step leads to a look-up of nothing, to an object that is used after it was
deleted, or to a started element without an entry.
-/
import DeepStream.MsgBroker.HandleMap

namespace DeepStream
namespace MsgBroker
namespace HandleMap

/-- `start` or `stop` holds the lock. -/
def ControlPc.holds : ControlPc → Bool
  | .inserting | .startUnlocking | .deleting | .stopUnlocking => true
  | _ => false

/-- The handles in use have their entries, what was looked up is one of them, and the lock
is held by whoever is in a section of it. -/
structure Inv {n : ℕ} (s : State n) : Prop where
  locked : ∀ e, s.handleLock = some (.element e) ↔ (s.elements e).control.holds
  callbackLocked : s.handleLock = some .callback ↔ s.callback ≠ .idle
  entries : s.Entries s.Used
  render : ∀ e f, (s.elements e).render.found = some f → s.Used f.1 ∧ s.handleMap f.1 = some f.2
  callback : ∀ f, s.callback.found = some f → s.Used f.1 ∧ s.handleMap f.1 = some f.2

theorem inv_start (n : ℕ) : Inv ({} : State n) where
  locked := fun _ => iff_of_false (fun h => by cases h) Bool.false_ne_true
  callbackLocked := iff_of_false (fun h => by cases h) (not_not.mpr rfl)
  entries := ⟨fun _ ⟨_, h⟩ => (by cases h.1), fun _ _ => rfl, fun _ _ _ h => (by cases h), fun _ _ h => (by cases h)⟩
  render := fun _ _ h => by cases h
  callback := fun _ h => by cases h

section Keeps

variable {n : ℕ} {s s' : State n}

theorem Inv.live (h : Inv s) {f : ℕ × Option ℕ} (hf : s.Used f.1 ∧ s.handleMap f.1 = some f.2) : s.Live f.2 := by
  obtain ⟨o, ho, hobject⟩ := h.entries.entry f.1 hf.1
  exact ⟨o, Option.some.inj (hf.2.symm.trans ho), hobject⟩

theorem Inv.good (h : Inv s) : s.Good where
  render := fun e f hf => h.live (h.render e f hf)
  callback := fun f hf => h.live (h.callback f hf)
  started := fun k hk => by
    obtain ⟨-, hentry, hlive⟩ := h.entries.lookup hk
    exact ⟨_, hentry, hlive⟩

/-- An element changes, and uses the handles that it used. -/
theorem Used.setElement {e : Fin n} {el : Element} {lock : Option (Owner n)}
    (huses : ∀ k, el.Uses k ↔ (s.elements e).Uses k) (k : ℕ) :
    ({ s.setElement e el with handleLock := lock } : State n).Used k ↔ s.Used k := by
  have hat : ∀ a, (Function.update s.elements e el a).Uses k ↔ (s.elements a).Uses k := fun a => by
    by_cases ha : a = e
    · rw [ha, Function.update_self]
      exact huses k
    · rw [Function.update_of_ne ha]
  exact ⟨fun ⟨a, ha⟩ => ⟨a, (hat a).mp ha⟩, fun ⟨a, ha⟩ => ⟨a, (hat a).mpr ha⟩⟩

/-- `start`, `stop` or `render` of an element goes on without changing the map. -/
theorem Inv.setElement (h : Inv s) {e : Fin n} {el : Element} {lock : Option (Owner n)}
    (huses : ∀ k, el.Uses k ↔ (s.elements e).Uses k)
    (hlocked : ∀ a, lock = some (.element a) ↔ if a = e then el.control.holds else (s.elements a).control.holds)
    (hcallback : lock = some .callback ↔ s.handleLock = some .callback)
    (hrender : ∀ f, el.render.found = some f → s.Used f.1 ∧ s.handleMap f.1 = some f.2) :
    Inv { s.setElement e el with handleLock := lock } where
  locked := fun a => by
    rw [hlocked a]
    show _ ↔ (Function.update s.elements e el a).control.holds = true
    by_cases ha : a = e
    · rw [if_pos ha, ha, Function.update_self]
    · rw [if_neg ha, Function.update_of_ne ha]
  callbackLocked := hcallback.trans h.callbackLocked
  entries :=
    have hentries := h.entries.congr (Used.setElement huses)
    ⟨hentries.entry, hentries.noEntry, hentries.distinct, hentries.fresh⟩
  render := fun a f hf => by
    rw [Used.setElement huses]
    change (Function.update s.elements e el a).render.found = some f at hf
    by_cases ha : a = e
    · rw [ha, Function.update_self] at hf
      exact hrender f hf
    · rw [Function.update_of_ne ha] at hf
      exact h.render a f hf
  callback := fun f hf => by
    rw [Used.setElement huses]
    exact h.callback f hf

theorem uses_congr {el el' : Element} (hhandle : el'.newConnHandle = el.newConnHandle)
    (hcontrol : el'.control.uses = el.control.uses) (k : ℕ) : el'.Uses k ↔ el.Uses k := by
  unfold Element.Uses
  rw [hhandle, hcontrol]

theorem uses_of_not {el el' : Element} (h : el.control.uses = false) (h' : el'.control.uses = false) (k : ℕ) :
    el'.Uses k ↔ el.Uses k :=
  iff_of_false (fun huses => by cases huses.2.symm.trans h') fun huses => by cases huses.2.symm.trans h

/-- An element goes on without the lock. -/
theorem Inv.move (h : Inv s) {e : Fin n} {el : Element} (huses : ∀ k, el.Uses k ↔ (s.elements e).Uses k)
    (hholds : el.control.holds = (s.elements e).control.holds)
    (hrender : ∀ f, el.render.found = some f → s.Used f.1 ∧ s.handleMap f.1 = some f.2) : Inv (s.setElement e el) := by
  show Inv { s.setElement e el with handleLock := s.handleLock }
  refine h.setElement huses (fun a => ?_) Iff.rfl hrender
  rw [h.locked a]
  by_cases ha : a = e
  · rw [if_pos ha, ha, hholds]
  · rw [if_neg ha]

/-- `start` or `stop` of an element takes the lock. -/
theorem Inv.lockElement (h : Inv s) {e : Fin n} {el : Element} (huses : ∀ k, el.Uses k ↔ (s.elements e).Uses k)
    (hholds : el.control.holds = true) (hrender : el.render = (s.elements e).render)
    (hs : s.lock (.element e) (s.setElement e el) = some s') : Inv s' := by
  unfold State.lock at hs
  split at hs
  · rename_i hfree
    cases hs
    have hnot : ∀ a, (s.elements a).control.holds = false := fun a => Bool.eq_false_iff.mpr fun hheld => by
      rw [(h.locked a).mpr hheld] at hfree
      cases hfree
    refine h.setElement huses (fun a => ?_) (iff_of_false (fun hlock => by cases hlock) fun hlock => ?_) ?_
    · by_cases ha : a = e
      · rw [if_pos ha, ha, hholds]
        exact iff_of_true rfl rfl
      · rw [if_neg ha, hnot a]
        exact iff_of_false (fun hlock => ha (by cases hlock; rfl)) Bool.false_ne_true
    · rw [hfree] at hlock
      cases hlock
    · rw [hrender]
      exact h.render e
  · cases hs

/-- `start` or `stop` of an element gives the lock up. -/
theorem Inv.unlockElement (h : Inv s) {e : Fin n} {el : Element} (huses : ∀ k, el.Uses k ↔ (s.elements e).Uses k)
    (hheld : (s.elements e).control.holds = true) (hholds : el.control.holds = false)
    (hrender : el.render = (s.elements e).render) : Inv (s.unlock.setElement e el) := by
  have hlock := (h.locked e).mpr hheld
  show Inv { s.setElement e el with handleLock := none }
  refine h.setElement huses (fun a => ?_) (iff_of_false (fun hlock => by cases hlock) fun hcallback => ?_) ?_
  · refine iff_of_false (fun hlock => by cases hlock) ?_
    by_cases ha : a = e
    · rw [if_pos ha, hholds]
      exact Bool.false_ne_true
    · rw [if_neg ha]
      intro hother
      rw [(h.locked a).mpr hother, Option.some.injEq, Owner.element.injEq] at hlock
      exact ha hlock
  · rw [hlock] at hcallback
    cases hcallback
  · rw [hrender]
    exact h.render e

/-- The handles used when an element changes. -/
theorem used_setElement (t : State n) (e : Fin n) (el : Element) (k : ℕ) :
    (t.setElement e el).Used k ↔ el.Uses k ∨ ∃ a, a ≠ e ∧ (t.elements a).Uses k := by
  constructor
  · rintro ⟨a, ha⟩
    change (Function.update t.elements e el a).Uses k at ha
    by_cases hae : a = e
    · rw [hae, Function.update_self] at ha
      exact .inl ha
    · rw [Function.update_of_ne hae] at ha
      exact .inr ⟨a, hae, ha⟩
  · rintro (he | ⟨a, hae, ha⟩)
    · refine ⟨e, ?_⟩
      show (Function.update t.elements e el e).Uses k
      rwa [Function.update_self]
    · refine ⟨a, ?_⟩
      show (Function.update t.elements e el a).Uses k
      rwa [Function.update_of_ne hae]

/-- An element changes its place within its section while the map changes. -/
theorem Inv.section {t : State n} (h : Inv s) {e : Fin n} {el : Element} (helements : t.elements = s.elements)
    (hlock : t.handleLock = s.handleLock) (hcallback : t.callback = s.callback)
    (hholds : el.control.holds = (s.elements e).control.holds) (hrender : el.render = (s.elements e).render)
    (hentries : (t.setElement e el).Entries (t.setElement e el).Used)
    (hfound : ∀ f, (∃ a, (s.elements a).render.found = some f) ∨ s.callback.found = some f →
      s.Used f.1 ∧ s.handleMap f.1 = some f.2 → (t.setElement e el).Used f.1 ∧ t.handleMap f.1 = some f.2) :
    Inv (t.setElement e el) where
  locked := fun a => by
    show t.handleLock = _ ↔ (Function.update t.elements e el a).control.holds = true
    rw [hlock, helements, h.locked a]
    by_cases ha : a = e
    · rw [ha, Function.update_self, hholds]
    · rw [Function.update_of_ne ha]
  callbackLocked := by
    show t.handleLock = _ ↔ t.callback ≠ _
    rw [hlock, hcallback]
    exact h.callbackLocked
  entries := hentries
  render := fun a f hf => by
    have hold : (s.elements a).render.found = some f := by
      change (Function.update t.elements e el a).render.found = some f at hf
      rw [helements] at hf
      by_cases ha : a = e
      · rw [ha, Function.update_self, hrender] at hf
        rwa [ha]
      · rwa [Function.update_of_ne ha] at hf
    exact hfound f (.inl ⟨a, hold⟩) (h.render a f hold)
  callback := fun f hf => by
    change t.callback.found = some f at hf
    rw [hcallback] at hf
    exact hfound f (.inr hf) (h.callback f hf)

/-- `start` enters an object, if there is none. -/
theorem Inv.insert (h : Inv s) {e : Fin n} {k : ℕ} (hcontrol : (s.elements e).control = .inserting)
    (hk : (s.elements e).newConnHandle = some k) :
    Inv ((s.insert k).setElement e { s.elements e with control := .startUnlocking }) := by
  have hrest : (s.insert k).elements = s.elements ∧ (s.insert k).handleLock = s.handleLock ∧
      (s.insert k).callback = s.callback := by
    unfold State.insert
    split <;> exact ⟨rfl, rfl, rfl⟩
  have hused : ∀ j, State.Used ((s.insert k).setElement e { s.elements e with control := .startUnlocking }) j ↔
      s.Used j ∨ j = k := fun j => by
    rw [used_setElement, hrest.1]
    constructor
    · rintro (he | ⟨a, -, ha⟩)
      · exact .inr (Option.some.inj (he.1.symm.trans hk))
      · exact .inl ⟨a, ha⟩
    · rintro (⟨a, ha⟩ | rfl)
      · refine .inr ⟨a, fun hae => ?_, ha⟩
        have huses := ha.2
        rw [hae, hcontrol] at huses
        cases huses
      · exact .inl ⟨hk, rfl⟩
  obtain ⟨hentries, hsame⟩ := h.entries.insert k
  have hentries := hentries.congr hused
  refine h.section hrest.1 hrest.2.1 hrest.2.2 (by rw [hcontrol]; rfl) rfl
    ⟨hentries.entry, hentries.noEntry, hentries.distinct, hentries.fresh⟩ fun f _ hf => ?_
  rw [hused]
  exact ⟨.inl hf.1, (hsame f.1 hf.1).trans hf.2⟩

/-- `stop` deletes the object of its handle, which nobody else uses or has in hand. -/
theorem Inv.delete (h : Inv s) {e : Fin n} {k : ℕ} (hcontrol : (s.elements e).control = .deleting)
    (hk : (s.elements e).newConnHandle = some k) (halone : ∀ a, a ≠ e → ¬ (s.elements a).Uses k)
    (hfree : ∀ a f, (s.elements a).render.found = some f → f.1 ≠ k) :
    Inv ((s.delete k).setElement e { s.elements e with control := .stopUnlocking }) := by
  have hrest : (s.delete k).elements = s.elements ∧ (s.delete k).handleLock = s.handleLock ∧
      (s.delete k).callback = s.callback := by
    unfold State.delete
    split <;> exact ⟨rfl, rfl, rfl⟩
  have huses : (s.elements e).Uses k := ⟨hk, by rw [hcontrol]; rfl⟩
  have hused : ∀ j, State.Used ((s.delete k).setElement e { s.elements e with control := .stopUnlocking }) j ↔
      s.Used j ∧ j ≠ k := fun j => by
    rw [used_setElement, hrest.1]
    constructor
    · rintro (he | ⟨a, hae, ha⟩)
      · cases he.2
      · exact ⟨⟨a, ha⟩, fun hjk => halone a hae (hjk ▸ ha)⟩
    · rintro ⟨⟨a, ha⟩, hjk⟩
      refine .inr ⟨a, fun hae => hjk ?_, ha⟩
      rw [hae] at ha
      exact Option.some.inj (ha.1.symm.trans hk)
  obtain ⟨hentries, hsame, -⟩ := h.entries.delete ⟨e, huses⟩
  have hentries := hentries.congr hused
  -- the callback has nothing in hand, for it does not hold the lock
  have hidle : s.callback = .idle := by
    by_contra hcallback
    have hlock := (h.locked e).mpr (by rw [hcontrol]; rfl)
    rw [h.callbackLocked.mpr hcallback] at hlock
    cases hlock
  refine h.section hrest.1 hrest.2.1 hrest.2.2 (by rw [hcontrol]; rfl) rfl
    ⟨hentries.entry, hentries.noEntry, hentries.distinct, hentries.fresh⟩ fun f hf hf' => ?_
  have hne : f.1 ≠ k := by
    rcases hf with ⟨a, ha⟩ | hf
    · exact hfree a f ha
    · rw [hidle] at hf
      cases hf
  rw [hused]
  exact ⟨⟨hf'.1, hne⟩, (hsame f.1 hne).trans hf'.2⟩

theorem Inv.controlStep (h : Inv s) {e : Fin n} (hok : StepOk s (.control e)) (hs : s.controlStep e = some s') :
    Inv s' := by
  unfold State.controlStep at hs
  dsimp only at hs
  cases hcontrol : (s.elements e).control with
  | startLocking =>
    rw [hcontrol] at hs
    dsimp only at hs
    refine h.lockElement ?_ ?_ ?_ hs
    · exact uses_of_not (by rw [hcontrol]; rfl) rfl
    · rfl
    · rfl
  | inserting =>
    rw [hcontrol] at hs
    obtain ⟨k, hk, rfl⟩ := Option.map_eq_some_iff.mp hs
    exact h.insert hcontrol hk
  | startUnlocking =>
    rw [hcontrol] at hs
    cases hs
    exact h.unlockElement (uses_congr rfl (by rw [hcontrol]; rfl)) (by rw [hcontrol]; rfl) rfl rfl
  | stopLocking =>
    rw [hcontrol] at hs
    dsimp only at hs
    refine h.lockElement ?_ ?_ ?_ hs
    · exact uses_congr rfl (by rw [hcontrol]; rfl)
    · rfl
    · rfl
  | deleting =>
    rw [hcontrol] at hs
    obtain ⟨k, hk, rfl⟩ := Option.map_eq_some_iff.mp hs
    have hdeleted : s.deleted (.control e) = some (e, k) := by
      unfold State.deleted
      dsimp only
      rw [hcontrol]
      dsimp only
      rw [hk]
      rfl
    obtain ⟨halone, hfree⟩ := hok.delete _ hdeleted
    exact h.delete hcontrol hk halone hfree
  | stopUnlocking =>
    rw [hcontrol] at hs
    cases hs
    exact h.unlockElement (uses_of_not (by rw [hcontrol]; rfl) rfl) (by rw [hcontrol]; rfl) rfl rfl
  | _ =>
    rw [hcontrol] at hs
    cases hs

/-- A look-up of a handle in use leaves the map alone and finds its entry. -/
theorem Inv.lookup (h : Inv s) {k : ℕ} (hused : s.Used k) :
    s.lookup k = s ∧ ∀ f, some f = some (k, s.pointer k) → s.Used f.1 ∧ s.handleMap f.1 = some f.2 := by
  obtain ⟨hlookup, hentry, -⟩ := h.entries.lookup hused
  refine ⟨hlookup, fun f hf => ?_⟩
  rw [Option.some.inj hf]
  exact ⟨hused, hentry⟩

theorem Inv.findStep (h : Inv s) {e : Fin n} (hok : StepOk s (.find e)) (hs : s.findStep e = some s') : Inv s' := by
  -- the handle is in use, so the look-up finds its entry
  have hfind : ∀ (k : ℕ) (pc : RenderPc), s.lookedUp (.find e) = some k → pc.found = some (k, s.pointer k) →
      Inv ((s.lookup k).setElement e { s.elements e with render := pc }) := by
    intro k pc hk hpc
    obtain ⟨hlookup, hfound⟩ := h.lookup (hok.lookup k hk)
    rw [hlookup]
    exact h.move (uses_congr rfl rfl) rfl fun f hf => hfound f (hf.symm.trans hpc)
  unfold State.findStep at hs
  dsimp only at hs
  have hlooked : (s.elements e).render = .idle ∨ (s.elements e).render = .handled →
      s.lookedUp (.find e) = (s.elements e).newConnHandle := fun hpc => by
    unfold State.lookedUp
    dsimp only
    rcases hpc with hpc | hpc <;> rw [hpc]
  cases hrender : (s.elements e).render with
  | idle =>
    rw [hrender] at hs
    dsimp only at hs
    split at hs
    · cases hs
      exact h.move (uses_congr rfl rfl) rfl fun f hf => by cases hf
    · rename_i k hk
      cases hs
      exact hfind k _ ((hlooked (.inl hrender)).trans hk) rfl
  | handled =>
    rw [hrender] at hs
    dsimp only at hs
    split at hs
    · cases hs
      exact h.move (uses_congr rfl rfl) rfl fun f hf => by cases hf
    · rename_i k hk
      cases hs
      exact hfind k _ ((hlooked (.inr hrender)).trans hk) rfl
  | _ =>
    rw [hrender] at hs
    cases hs

theorem Inv.readStep (h : Inv s) {e : Fin n} (hs : s.readStep e = some s') : Inv s' := by
  unfold State.readStep at hs
  dsimp only at hs
  split at hs
  · obtain ⟨-, -, rfl⟩ := Option.map_eq_some_iff.mp hs
    exact h.move (uses_congr rfl rfl) rfl fun f hf => by cases hf
  · obtain ⟨-, -, rfl⟩ := Option.map_eq_some_iff.mp hs
    exact h.move (uses_congr rfl rfl) rfl fun f hf => by cases hf
  · cases hs

/-! ### The callback -/

/-- The callback goes on; objects change, and none goes away. -/
theorem Inv.moveCallback (h : Inv s) {t : State n} (helements : t.elements = s.elements)
    (hmap : t.handleMap = s.handleMap) (hnext : t.next = s.next)
    (hobjects : ∀ o, (s.objects o).isSome → (t.objects o).isSome)
    (hlocked : ∀ a, t.handleLock = some (.element a) ↔ s.handleLock = some (.element a))
    (hcallback : t.handleLock = some .callback ↔ t.callback ≠ .idle)
    (hfound : ∀ f, t.callback.found = some f → s.Used f.1 ∧ s.handleMap f.1 = some f.2) : Inv t := by
  have hused : ∀ k, t.Used k ↔ s.Used k := fun k => by
    unfold State.Used
    rw [helements]
  refine ⟨fun a => ?_, hcallback, ⟨fun k hk => ?_, fun k hk => ?_, ?_, ?_⟩, fun a f hf => ?_, fun f hf => ?_⟩
  · rw [hlocked, helements]
    exact h.locked a
  · obtain ⟨o, ho, hobject⟩ := h.entries.entry k ((hused k).mp hk)
    exact ⟨o, by rw [hmap]; exact ho, hobjects o hobject⟩
  · rw [hmap]
    exact h.entries.noEntry k fun hk' => hk ((hused k).mpr hk')
  · rw [hmap]
    exact h.entries.distinct
  · rw [hmap, hnext]
    exact h.entries.fresh
  · rw [helements] at hf
    rw [hused, hmap]
    exact h.render a f hf
  · rw [hused, hmap]
    exact hfound f hf

theorem isSome_setObject {o o' : ℕ} (status : NvMsgBrokerHandleStatus) (h : (s.objects o').isSome) :
    ((s.setObject o status).objects o').isSome := by
  show (Function.update s.objects o (some status) o').isSome
  by_cases ho : o' = o
  · rw [ho, Function.update_self]
    rfl
  · rwa [Function.update_of_ne ho]

theorem Inv.callbackLock (h : Inv s) {arrived : List (ℕ × NvMsgBrokerErrorType)} {k : ℕ} {status : NvMsgBrokerErrorType}
    (hs : s.lock .callback { s with arrived := arrived, callback := .findAlive k status } = some s') : Inv s' := by
  unfold State.lock at hs
  split at hs
  · rename_i hfree
    cases hs
    refine h.moveCallback rfl rfl rfl (fun _ ho => ho) (fun a => ?_) (iff_of_true rfl fun hpc => by cases hpc)
      fun f hf => by cases hf
    rw [hfree]
    exact iff_of_false (fun hlock => by cases hlock) fun hlock => by cases hlock
  · cases hs

theorem Inv.callbackStep (h : Inv s) (hok : StepOk s .callback) (hs : s.callbackStep = some s') : Inv s' := by
  have hlock : s.callback ≠ .idle → s.handleLock = some .callback := h.callbackLocked.mpr
  unfold State.callbackStep at hs
  cases hcallback : s.callback with
  | idle =>
    rw [hcallback] at hs
    cases hs
  | findAlive k status =>
    rw [hcallback] at hs hlock
    cases hs
    obtain ⟨hlookup, hfound⟩ := h.lookup (hok.lookup k (by unfold State.lookedUp; dsimp only; rw [hcallback]))
    rw [hlookup]
    exact h.moveCallback rfl rfl rfl (fun _ ho => ho) (fun a => Iff.rfl)
      (iff_of_true (hlock fun hpc => by cases hpc) fun hpc => by cases hpc) fun f hf => hfound f hf.symm
  | settingAlive k status p =>
    rw [hcallback] at hs hlock
    dsimp only at hs
    split at hs
    · cases hs
    · obtain ⟨object, -, rfl⟩ := Option.map_eq_some_iff.mp hs
      refine h.moveCallback rfl rfl rfl (fun _ ho => isSome_setObject _ ho) (fun a => Iff.rfl)
        (iff_of_true (hlock fun hpc => by cases hpc) ?_) fun f hf => ?_
      · dsimp only
        split <;> exact fun hpc => by cases hpc
      · dsimp only at hf
        split at hf <;> cases hf
  | findDisconnect k =>
    rw [hcallback] at hs hlock
    cases hs
    obtain ⟨hlookup, hfound⟩ := h.lookup (hok.lookup k (by unfold State.lookedUp; dsimp only; rw [hcallback]))
    rw [hlookup]
    exact h.moveCallback rfl rfl rfl (fun _ ho => ho) (fun a => Iff.rfl)
      (iff_of_true (hlock fun hpc => by cases hpc) fun hpc => by cases hpc) fun f hf => hfound f hf.symm
  | settingDisconnect k p =>
    rw [hcallback] at hs hlock
    dsimp only at hs
    split at hs
    · cases hs
    · obtain ⟨object, -, rfl⟩ := Option.map_eq_some_iff.mp hs
      exact h.moveCallback rfl rfl rfl (fun _ ho => isSome_setObject _ ho) (fun a => Iff.rfl)
        (iff_of_true (hlock fun hpc => by cases hpc) fun hpc => by cases hpc) fun f hf => by cases hf
  | unlocking =>
    rw [hcallback] at hs hlock
    cases hs
    have hheld := hlock fun hpc => by cases hpc
    refine h.moveCallback rfl rfl rfl (fun _ ho => ho) (fun a => ?_)
      (iff_of_false (fun hfree => by cases hfree) (not_not.mpr rfl)) fun f hf => by cases hf
    rw [hheld]
    exact iff_of_false (fun hfree => by cases hfree) fun hother => by cases hother

/-- An element goes on in `start` or `stop` before the insertion or after the deletion. -/
theorem Inv.moveOutside (h : Inv s) {e : Fin n} {el : Element} {pc : ControlPc} (hpc : (s.elements e).control = pc)
    (hbefore : pc.uses = false ∧ pc.holds = false) (hafter : el.control.uses = false ∧ el.control.holds = false)
    (hrender : el.render = (s.elements e).render) : Inv (s.setElement e el) := by
  subst hpc
  refine h.move (uses_of_not hbefore.1 hafter.1) (hafter.2.trans hbefore.2.symm) ?_
  rw [hrender]
  exact h.render e

theorem Inv.step {a : Action n} (h : Inv s) (hok : StepOk s a) (hs : step s a = some s') : Inv s' := by
  cases a with
  | connect e k =>
    unfold HandleMap.step at hs
    dsimp only at hs
    split at hs
    · rename_i hcontrol
      cases hs
      exact h.moveOutside hcontrol ⟨rfl, rfl⟩ ⟨rfl, rfl⟩ rfl
    · cases hs
  | connected e ok =>
    unfold HandleMap.step at hs
    dsimp only at hs
    split at hs
    · rename_i k hcontrol
      cases hs
      cases ok with
      | true => exact h.moveOutside hcontrol ⟨rfl, rfl⟩ ⟨rfl, rfl⟩ rfl
      | false => exact h.moveOutside hcontrol ⟨rfl, rfl⟩ ⟨rfl, rfl⟩ rfl
    · cases hs
  | stop e =>
    unfold HandleMap.step at hs
    dsimp only at hs
    split at hs
    · rename_i hcontrol
      cases hs
      exact h.move (uses_congr rfl (by rw [hcontrol]; rfl)) (by rw [hcontrol]; rfl) (h.render e)
    · cases hs
  | disconnected e ok =>
    unfold HandleMap.step at hs
    dsimp only at hs
    split at hs
    · rename_i hcontrol
      cases hs
      exact h.moveOutside hcontrol ⟨rfl, rfl⟩ ⟨rfl, rfl⟩ rfl
    · cases hs
  | control e => exact h.controlStep hok hs
  | find e => exact h.findStep hok hs
  | read e => exact h.readStep hs
  | arrive e status =>
    obtain ⟨k, -, rfl⟩ := Option.map_eq_some_iff.mp hs
    exact h.moveCallback rfl rfl rfl (fun _ ho => ho) (fun a => Iff.rfl) h.callbackLocked h.callback
  | callbackLock k status =>
    unfold HandleMap.step at hs
    dsimp only at hs
    split at hs
    · exact h.callbackLock hs
    · cases hs
  | callback => exact h.callbackStep hok hs

end Keeps

/-! ### The condition is exact -/

section Exact

variable {n : ℕ} {s s' : State n}

theorem not_live_none : ¬ s.Live none := fun ⟨_, h, _⟩ => by cases h

/-- A look-up of a handle that nobody uses finds a null pointer. -/
theorem Inv.used_of_good {a : Action n} (h : Inv s) (hs : HandleMap.step s a = some s') (hgood : s'.Good) {k : ℕ}
    (hk : s.lookedUp a = some k) : s.Used k := by
  by_contra hnot
  have hnull := h.entries.lookup_null hnot
  have hrendered : ∀ (e : Fin n) (el : Element), el.render.found = some (k, s.pointer k) →
      ¬ ((s.lookup k).setElement e el).Good := by
    intro e el hpc hgood
    refine not_live_none (hgood.render e (k, none) ?_)
    show (Function.update (s.lookup k).elements e _ e).render.found = _
    rw [Function.update_self, ← hnull]
    exact hpc
  unfold State.lookedUp at hk
  split at hk
  · rename_i e
    unfold HandleMap.step State.findStep at hs
    dsimp only at hs
    split at hk
    · rename_i hrender
      rw [hrender, hk] at hs
      cases hs
      exact hrendered e _ rfl hgood
    · rename_i hrender
      rw [hrender, hk] at hs
      cases hs
      exact hrendered e _ rfl hgood
    · cases hk
  · unfold HandleMap.step State.callbackStep at hs
    dsimp only at hs
    split at hk
    · rename_i hcallback
      rw [hcallback] at hs
      cases hk
      cases hs
      exact not_live_none (hgood.callback (k, none) (by rw [← hnull]; rfl))
    · rename_i hcallback
      rw [hcallback] at hs
      cases hk
      cases hs
      exact not_live_none (hgood.callback (k, none) (by rw [← hnull]; rfl))
    · cases hk
  · cases hk

/-- A deletion takes the object away from every other element that uses the handle, and
from every `render` that has the pointer in hand. -/
theorem Inv.alone_of_good {a : Action n} (h : Inv s) (hs : HandleMap.step s a = some s') (hgood : s'.Good) {d : Fin n × ℕ}
    (hd : s.deleted a = some d) : (∀ e, e ≠ d.1 → ¬ (s.elements e).Uses d.2) ∧
      ∀ e f, (s.elements e).render.found = some f → f.1 ≠ d.2 := by
  unfold State.deleted at hd
  split at hd
  · rename_i e
    split at hd
    · rename_i hcontrol
      obtain ⟨k, hk, rfl⟩ := Option.map_eq_some_iff.mp hd
      unfold HandleMap.step State.controlStep at hs
      dsimp only at hs
      rw [hcontrol, hk] at hs
      cases hs
      have helements : (s.delete k).elements = s.elements := by
        unfold State.delete
        split <;> rfl
      obtain ⟨-, -, hnone, hdead⟩ := h.entries.delete ⟨e, hk, by rw [hcontrol]; rfl⟩
      refine ⟨fun a ha huses => ?_, fun a f hf hfk => ?_⟩
      · obtain ⟨p, hp, -⟩ := hgood.started k ((used_setElement _ _ _ _).mpr (.inr ⟨a, ha, by rw [helements]; exact huses⟩))
        cases hnone.symm.trans hp
      · have hlive : (s.delete k).Live f.2 := by
          refine hgood.render a f ?_
          show (Function.update (s.delete k).elements e _ a).render.found = some f
          rw [helements]
          by_cases ha : a = e
          · rw [ha, Function.update_self]
            rwa [ha] at hf
          · rwa [Function.update_of_ne ha]
        have hentry := (h.render a f hf).2
        rw [hfk] at hentry
        exact hdead f.2 hentry hlive
    · cases hd
  · cases hd

/-- **Every look-up finds an object as long as the condition is met, and no longer.** In
every run whose steps all meet it, what `render` and the callback have found is there
until it has been used, and every handle that a started element uses has an entry; a step
that does not meet it leads to a state in which that is not so. -/
theorem good_iff_stepOk (h : Reach step StepOk (· = {}) s) :
    s.Good ∧ ∀ a s', step s a = some s' → (s'.Good ↔ StepOk s a) := by
  have hinv : Inv s := h.invariant (fun _ h0 => h0 ▸ inv_start n) fun _ _ _ hinv hok hs => hinv.step hok hs
  refine ⟨hinv.good, fun a s' hs => ⟨fun hgood => ?_, fun hok => (hinv.step hok hs).good⟩⟩
  exact ⟨fun _ hk => hinv.used_of_good hs hgood hk, fun _ hd => hinv.alone_of_good hs hgood hd⟩

end Exact

/-- The condition, for the handles and elements that a step is about. -/
theorem stepOk_iff {n : ℕ} (s : State n) (a : Action n) : StepOk s a ↔
    ((s.lookedUp a).elim True fun h => ∃ e, (s.elements e).Uses h) ∧
      (s.deleted a).elim True fun d => (∀ e, e ≠ d.1 → ¬ (s.elements e).Uses d.2) ∧
        ∀ e, (s.elements e).render.found.elim True fun f => f.1 ≠ d.2 := by
  constructor
  · intro h
    refine ⟨?_, ?_⟩
    · cases hk : s.lookedUp a with
      | none => trivial
      | some k => exact h.lookup k hk
    · cases hd : s.deleted a with
      | none => trivial
      | some d =>
        obtain ⟨halone, hfree⟩ := h.delete d hd
        refine ⟨halone, fun e => ?_⟩
        cases hf : (s.elements e).render.found with
        | none => trivial
        | some f => exact hfree e f hf
  · rintro ⟨hlookup, hdelete⟩
    refine ⟨fun k hk => ?_, fun d hd => ?_⟩
    · rw [hk] at hlookup
      exact hlookup
    · rw [hd] at hdelete
      refine ⟨hdelete.1, fun e f hf => ?_⟩
      have hat := hdelete.2 e
      rw [hf] at hat
      exact hat

instance decidableElim {α : Type*} {p : α → Prop} [∀ x, Decidable (p x)] : ∀ o : Option α, Decidable (o.elim True p)
  | none => isTrue trivial
  | some x => inferInstanceAs (Decidable (p x))

instance {n : ℕ} (s : State n) (a : Action n) : Decidable (StepOk s a) := decidable_of_iff _ (stepOk_iff s a).symm

/-- Two elements share a handle, one after the other; while the first is started the
connection breaks. -/
def oneAfterTheOther : List (Action 2) :=
  [.connect 0 7, .connected 0 true, .control 0, .control 0, .control 0, .arrive 0 .err, .callbackLock 7 .err, .callback,
    .callback, .callback, .callback, .callback, .find 0, .read 0, .find 0, .read 0, .stop 0, .control 0, .control 0,
    .control 0, .disconnected 0 true, .connect 1 7, .connected 1 true, .control 1, .control 1, .control 1, .find 1]

theorem good_iff_stepOk_oneAfterTheOther : ∃ s : State 2, exec step StepOk {} oneAfterTheOther = some s ∧
    (s.elements 1).render = .readingAlive 7 (some 1) ∧ s.Good := by
  have hrun : (exec step StepOk ({} : State 2) oneAfterTheOther).map (fun s => (s.elements 1).render) =
      some (.readingAlive 7 (some 1)) := by decide
  obtain ⟨s, hs, hrender⟩ := Option.map_eq_some_iff.mp hrun
  have hstart : Reach step StepOk (· = {}) ({} : State 2) := .init rfl
  exact ⟨s, hs, hrender, (good_iff_stepOk (Reach.of_exec oneAfterTheOther hstart hs)).1⟩

/-- Two elements are given one handle, and the first stops. -/
def sharedHandle : List (Action 2) :=
  [.connect 0 7, .connected 0 true, .control 0, .control 0, .control 0, .connect 1 7, .connected 1 true, .control 1,
    .control 1, .control 1, .stop 0, .control 0, .control 0, .find 1]

/-- The second finds a null pointer. -/
theorem sharedHandle_null : ¬ ∀ n (s : State n), Reach step anyStep (· = {}) s → s.Good := by
  intro hall
  have hrun : (exec step anyStep ({} : State 2) sharedHandle).map (fun s => (s.elements 1).render.found) =
      some (some (7, none)) := by decide
  obtain ⟨s, hs, hfound⟩ := Option.map_eq_some_iff.mp hrun
  have hstart : Reach step anyStep (· = {}) ({} : State 2) := .init rfl
  exact not_live_none ((hall 2 s (Reach.of_exec sharedHandle hstart hs)).render 1 (7, none) hfound)

end HandleMap
end MsgBroker
end DeepStream
