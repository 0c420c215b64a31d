/-
# Tables that are filled from a list

A reader goes through a list and enters an object for each element that is on. Each element
names a slot of the table; one without a slot, or whose slot is taken, ends the reading, also
when it is off. Two readers that find the slots in the same way leave the same table exactly
when they agree element by element, as long as neither takes what the other leaves out on the
word of the other.
-/
import DeepStream.Lib.Folds
import Mathlib.Data.List.Induction
import Mathlib.Data.List.Pairwise

namespace DeepStream

variable {α κ ο ε : Type*}

/-- Two places in a list: the second one is before the first, the same, or after it. -/
theorem append_cons_cases {front back front' back' : List α} {a a' : α}
    (h : front ++ a :: back = front' ++ a' :: back') :
    a' ∈ front ∨ (front = front' ∧ a = a') ∨ ∃ rest, front' = front ++ a :: rest := by
  rcases List.append_eq_append_iff.mp h with ⟨rest, hfront, hback⟩ | ⟨rest, hfront, hback⟩
  · cases rest with
    | nil =>
      cases hback
      exact .inr (.inl ⟨(List.append_nil front).symm.trans hfront.symm, rfl⟩)
    | cons b rest =>
      cases hback
      exact .inr (.inr ⟨rest, hfront⟩)
  · cases rest with
    | nil =>
      cases hback
      exact .inr (.inl ⟨hfront.trans (List.append_nil front'), rfl⟩)
    | cons b rest =>
      cases hback
      exact .inl (hfront ▸ List.mem_append_right _ List.mem_cons_self)

structure Roster (α κ ο ε : Type*) where
  slot : α → Option κ
  isOn : α → Except ε Bool
  object : α → Except ε ο
  refused : ε

namespace Roster

variable (R : Roster α κ ο ε)

def step [DecidableEq κ] (m : κ → Option ο) (a : α) : Except ε (κ → Option ο) :=
  match R.slot a with
  | none => .error R.refused
  | some k =>
    if (m k).isSome then .error R.refused
    else
      match R.isOn a with
      | .error e => .error e
      | .ok false => .ok m
      | .ok true =>
        match R.object a with
        | .error e => .error e
        | .ok o => .ok (Function.update m k (some o))

/-- Nothing in the element itself ends the reading. -/
def Reads (a : α) : Prop :=
  (R.slot a).isSome ∧ ∃ on, R.isOn a = .ok on ∧ (on = true → ∃ o, R.object a = .ok o)

/-- No element has the slot of one before it that is on. -/
def Free (l : List α) : Prop := l.Pairwise fun b a => R.isOn b = .ok true → R.slot b ≠ R.slot a

/-- The element itself ends the reading. -/
def Fails (e : ε) (a : α) : Prop := R.isOn a = .error e ∨ R.isOn a = .ok true ∧ R.object a = .error e

/-- The table has the objects of the elements that are on. -/
def Holds (l : List α) (m : κ → Option ο) : Prop :=
  ∀ k o, m k = some o ↔ ∃ a ∈ l, R.slot a = some k ∧ R.isOn a = .ok true ∧ R.object a = .ok o

def Taken (l : List α) (a : α) : Prop := ∃ b ∈ l, R.isOn b = .ok true ∧ R.slot b = R.slot a

variable {R} {l : List α} {m : κ → Option ο} {a : α}

theorem Holds.eq {m' : κ → Option ο} (h : R.Holds l m) (h' : R.Holds l m') : m = m' := by
  funext k
  exact Option.ext fun o => (h k o).trans (h' k o).symm

theorem Holds.isSome_iff (h : R.Holds l m) (hreads : ∀ b ∈ l, R.Reads b) {k : κ} :
    (m k).isSome ↔ ∃ b ∈ l, R.isOn b = .ok true ∧ R.slot b = some k := by
  rw [Option.isSome_iff_exists]
  constructor
  · rintro ⟨o, ho⟩
    obtain ⟨b, hb, hslot, hon, -⟩ := (h k o).mp ho
    exact ⟨b, hb, hon, hslot⟩
  · rintro ⟨b, hb, hon, hslot⟩
    obtain ⟨-, on, hon', hobject⟩ := hreads b hb
    cases hon.symm.trans hon'
    obtain ⟨o, ho⟩ := hobject rfl
    exact ⟨o, (h k o).mpr ⟨b, hb, hslot, hon, ho⟩⟩

theorem holds_nil : R.Holds [] (fun _ : κ => none) :=
  fun _ _ => iff_of_false (fun h => by cases h) fun ⟨_, h, _⟩ => by cases h

theorem Fails.unique {e e' : ε} (h : R.Fails e a) (h' : R.Fails e' a) : e = e' := by
  rcases h with hon | ⟨hon, hobject⟩ <;> rcases h' with hon' | ⟨hon', hobject'⟩
  · exact Except.error.inj (hon.symm.trans hon')
  · cases hon.symm.trans hon'
  · cases hon.symm.trans hon'
  · exact Except.error.inj (hobject.symm.trans hobject')

theorem Reads.not_fails {e : ε} (h : R.Reads a) : ¬R.Fails e a := by
  obtain ⟨-, on, hon, hobject⟩ := h
  rintro (hfail | ⟨hon', hfail⟩)
  · cases hon.symm.trans hfail
  · cases hon.symm.trans hon'
    obtain ⟨o, ho⟩ := hobject rfl
    cases ho.symm.trans hfail

theorem Free.not_taken {front back : List α} (h : R.Free (front ++ a :: back)) : ¬R.Taken front a := by
  rintro ⟨b, hb, hon, hslot⟩
  exact (List.pairwise_append.mp h).2.2 b hb a List.mem_cons_self hon hslot

/-- Two elements that are on have different slots. -/
theorem Free.ne_of_isOn {b : α} (h : R.Free l) (ha : a ∈ l) (hb : b ∈ l) (hne : a ≠ b) (hon : R.isOn a = .ok true)
    (hon' : R.isOn b = .ok true) : R.slot a ≠ R.slot b := by
  have hsymm : Std.Symm fun b a => R.isOn b = .ok true → R.isOn a = .ok true → R.slot b ≠ R.slot a :=
    ⟨fun _ _ hba ha hb => (hba hb ha).symm⟩
  have hpairs : l.Pairwise fun b a => R.isOn b = .ok true → R.isOn a = .ok true → R.slot b ≠ R.slot a :=
    h.imp fun hba hb _ => hba hb
  exact hpairs.forall ha hb hne hon hon'

/-! ### One step -/

variable [DecidableEq κ] {m' : κ → Option ο} {e : ε}

theorem step_eq_ok_iff : R.step m a = .ok m' ↔ ∃ k, R.slot a = some k ∧ m k = none ∧
    (R.isOn a = .ok false ∧ m' = m ∨
      R.isOn a = .ok true ∧ ∃ o, R.object a = .ok o ∧ m' = Function.update m k (some o)) := by
  unfold step
  cases hslot : R.slot a with
  | none => simp
  | some k =>
    cases hm : m k with
    | some o => simp [hm]
    | none =>
      cases hon : R.isOn a with
      | error e => simp [hm]
      | ok on =>
        cases on with
        | false => simp [hm, eq_comm]
        | true => cases hobject : R.object a <;> simp [hm, eq_comm]

theorem step_eq_error (h : R.step m a = .error e) :
    e = R.refused ∧ (∀ k, R.slot a = some k → (m k).isSome) ∨
      R.Fails e a ∧ ∃ k, R.slot a = some k ∧ m k = none := by
  unfold step at h
  cases hslot : R.slot a with
  | none =>
    rw [hslot] at h
    cases h
    exact .inl ⟨rfl, fun k hk => by cases hk⟩
  | some k =>
    rw [hslot] at h
    dsimp only at h
    cases hm : m k with
    | some o =>
      rw [hm] at h
      cases h
      exact .inl ⟨rfl, fun k' hk' => by cases hk'; rw [hm]; rfl⟩
    | none =>
      refine .inr ⟨?_, k, rfl, hm⟩
      rw [hm] at h
      cases hon : R.isOn a with
      | error e' =>
        rw [hon] at h
        cases h
        exact .inl hon
      | ok on =>
        rw [hon] at h
        cases on with
        | false => cases h
        | true =>
          cases hobject : R.object a with
          | error e' =>
            rw [hobject] at h
            cases h
            exact .inr ⟨hon, hobject⟩
          | ok o =>
            rw [hobject] at h
            cases h

/-- A slot of the table stands for an element that is on. -/
theorem Holds.concat (h : R.Holds l m) (hreads : ∀ b ∈ l, R.Reads b) (hstep : R.step m a = .ok m') :
    R.Holds (l ++ [a]) m' := by
  obtain ⟨k, hslot, hm, ⟨hoff, rfl⟩ | ⟨hon, o, hobject, rfl⟩⟩ := step_eq_ok_iff.mp hstep
  · intro k' o
    rw [h k' o]
    constructor
    · rintro ⟨b, hb, hb'⟩
      exact ⟨b, List.mem_append_left _ hb, hb'⟩
    · rintro ⟨b, hb, hslot', hon, ho⟩
      rcases List.mem_append.mp hb with hb | hb
      · exact ⟨b, hb, hslot', hon, ho⟩
      · cases List.mem_singleton.mp hb
        cases hoff.symm.trans hon
  · intro k' o'
    by_cases hk : k' = k
    · subst hk
      rw [Function.update_self]
      constructor
      · rintro ⟨⟩
        exact ⟨a, List.mem_append_right _ (List.mem_singleton_self a), hslot, hon, hobject⟩
      · rintro ⟨b, hb, hslot', hon', ho⟩
        rcases List.mem_append.mp hb with hb | hb
        · have htaken := (h.isSome_iff hreads).mpr ⟨b, hb, hon', hslot'⟩
          rw [hm] at htaken
          cases htaken
        · cases List.mem_singleton.mp hb
          exact congrArg some (Except.ok.inj (hobject.symm.trans ho))
    · rw [Function.update_of_ne hk, h k' o']
      constructor
      · rintro ⟨b, hb, hb'⟩
        exact ⟨b, List.mem_append_left _ hb, hb'⟩
      · rintro ⟨b, hb, hslot', hb'⟩
        rcases List.mem_append.mp hb with hb | hb
        · exact ⟨b, hb, hslot', hb'⟩
        · cases List.mem_singleton.mp hb
          exact absurd (Option.some.inj (hslot'.symm.trans hslot)) hk

/-! ### Whole lists -/

/-- What is known of a list that is read to the end. -/
theorem of_ok (h : l.foldlM R.step (fun _ => none) = .ok m) : (∀ b ∈ l, R.Reads b) ∧ R.Free l ∧ R.Holds l m := by
  induction l using List.reverseRecOn generalizing m with
  | nil =>
    cases h
    exact ⟨fun b hb => (by cases hb), List.Pairwise.nil, holds_nil⟩
  | append_singleton l a ih =>
    obtain ⟨m₁, hl, hstep⟩ := foldlM_concat_eq_ok_iff.mp h
    obtain ⟨hreads, hfree, hholds⟩ := ih hl
    have hnext := hholds.concat hreads hstep
    obtain ⟨k, hslot, hm, hcases⟩ := step_eq_ok_iff.mp hstep
    refine ⟨?_, ?_, hnext⟩
    · rw [List.forall_mem_append, List.forall_mem_singleton]
      refine ⟨hreads, by rw [hslot]; rfl, ?_⟩
      rcases hcases with ⟨hoff, -⟩ | ⟨hon, o, hobject, -⟩
      · exact ⟨false, hoff, Bool.noConfusion⟩
      · exact ⟨true, hon, fun _ => ⟨o, hobject⟩⟩
    · refine List.pairwise_append.mpr ⟨hfree, List.pairwise_singleton _ a, fun b hb a' ha' hon heq => ?_⟩
      cases List.mem_singleton.mp ha'
      have htaken := (hholds.isSome_iff hreads).mpr ⟨b, hb, hon, heq.trans hslot⟩
      rw [hm] at htaken
      cases htaken

theorem exists_ok (hreads : ∀ b ∈ l, R.Reads b) (hfree : R.Free l) : ∃ m, l.foldlM R.step (fun _ => none) = .ok m := by
  induction l using List.reverseRecOn with
  | nil => exact ⟨_, rfl⟩
  | append_singleton l a ih =>
    rw [List.forall_mem_append, List.forall_mem_singleton] at hreads
    obtain ⟨hl, -, hlast⟩ := List.pairwise_append.mp hfree
    obtain ⟨m₁, hm₁⟩ := ih hreads.1 hl
    obtain ⟨hslot, on, hon, hobject⟩ := hreads.2
    obtain ⟨k, hk⟩ := Option.isSome_iff_exists.mp hslot
    have hnone : m₁ k = none := by
      rw [← Option.not_isSome_iff_eq_none, (of_ok hm₁).2.2.isSome_iff hreads.1]
      rintro ⟨b, hb, hbon, hbk⟩
      exact hlast b hb a (List.mem_singleton_self a) hbon (hbk.trans hk.symm)
    have hstep : ∃ m, R.step m₁ a = .ok m := by
      cases on with
      | false => exact ⟨m₁, step_eq_ok_iff.mpr ⟨k, hk, hnone, .inl ⟨hon, rfl⟩⟩⟩
      | true =>
        obtain ⟨o, ho⟩ := hobject rfl
        exact ⟨_, step_eq_ok_iff.mpr ⟨k, hk, hnone, .inr ⟨hon, o, ho, rfl⟩⟩⟩
    obtain ⟨m, hm⟩ := hstep
    exact ⟨m, foldlM_concat_eq_ok_iff.mpr ⟨m₁, hm₁, hm⟩⟩

/-- A list is refused where an element has no slot, or a taken one, or is refused itself, and none
before it ends the reading in another way. -/
theorem refused_iff : l.foldlM R.step (fun _ => none) = .error R.refused ↔ ∃ front a back, l = front ++ a :: back ∧
    (∀ b ∈ front, ∀ e, R.Fails e b → e = R.refused) ∧
      (R.slot a = none ∨ R.Taken front a ∨ R.Fails R.refused a) := by
  constructor
  · intro h
    obtain ⟨front, a, back, m, rfl, hfront, hstep⟩ := foldlM_eq_error_iff.mp h
    obtain ⟨hreads, -, hholds⟩ := of_ok hfront
    refine ⟨front, a, back, rfl, fun b hb e hfails => absurd hfails (hreads b hb).not_fails, ?_⟩
    rcases step_eq_error hstep with ⟨-, htaken⟩ | ⟨hfails, -⟩
    · cases hslot : R.slot a with
      | none => exact .inl rfl
      | some k =>
        obtain ⟨b, hb, hon, hbk⟩ := (hholds.isSome_iff hreads).mp (htaken k hslot)
        exact .inr (.inl ⟨b, hb, hon, hbk.trans hslot.symm⟩)
    · exact .inr (.inr hfails)
  · rintro ⟨front, a, back, rfl, hothers, hrefused⟩
    have hnot : R.Reads a → R.Taken front a ∨ R.Fails R.refused a → R.Taken front a := fun hreads h =>
      h.resolve_right hreads.not_fails
    cases hrun : (front ++ a :: back).foldlM R.step (fun _ => none) with
    | ok m =>
      obtain ⟨hreads, hfree, -⟩ := of_ok hrun
      have ha := hreads a (List.mem_append_right _ List.mem_cons_self)
      have hslot : R.slot a ≠ none := Option.isSome_iff_ne_none.mp ha.1
      exact absurd (hnot ha (hrefused.resolve_left hslot)) hfree.not_taken
    | error e =>
      refine congrArg Except.error ?_
      obtain ⟨front', a', back', m, hl, hfront, hstep⟩ := foldlM_eq_error_iff.mp hrun
      obtain ⟨hreads, hfree, hholds⟩ := of_ok hfront
      rcases step_eq_error hstep with ⟨he, -⟩ | ⟨hfails, k, hk, hm⟩
      · exact he
      rcases append_cons_cases hl with hmem | ⟨rfl, rfl⟩ | ⟨rest, rfl⟩
      · exact hothers a' hmem e hfails
      · rcases hrefused with hnone | ⟨b, hb, hon, hslot⟩ | hfails'
        · cases hk.symm.trans hnone
        · have htaken := (hholds.isSome_iff hreads).mpr ⟨b, hb, hon, hslot.trans hk⟩
          rw [hm] at htaken
          cases htaken
        · exact hfails.unique hfails'
      · have ha := hreads a (List.mem_append_right _ List.mem_cons_self)
        have hslot : R.slot a ≠ none := Option.isSome_iff_ne_none.mp ha.1
        exact absurd (hnot ha (hrefused.resolve_left hslot)) hfree.not_taken

/-! ### Two readers -/

variable {R' : Roster α κ ο ε}

/-- Two readers leave the same table when each element is on, or off, for both, with the same object. -/
theorem both_ok_iff (hslot : R'.slot = R.slot) (hlaw : ∀ a, R.isOn a = .ok true → R'.isOn a ≠ .ok false) :
    (∃ m, l.foldlM R.step (fun _ => none) = .ok m ∧ l.foldlM R'.step (fun _ => none) = .ok m) ↔
      (∀ a ∈ l, (R.slot a).isSome ∧ ∃ on, R.isOn a = .ok on ∧ R'.isOn a = .ok on ∧
        (on = true → ∃ o, R.object a = .ok o ∧ R'.object a = .ok o)) ∧ R.Free l := by
  constructor
  · rintro ⟨m, hm, hm'⟩
    obtain ⟨hreads, hfree, hholds⟩ := of_ok hm
    obtain ⟨hreads', hfree', hholds'⟩ := of_ok hm'
    refine ⟨fun a ha => ⟨(hreads a ha).1, ?_⟩, hfree⟩
    obtain ⟨hsome, on, hon, hobject⟩ := hreads a ha
    obtain ⟨-, on', hon', hobject'⟩ := hreads' a ha
    obtain ⟨k, hk⟩ := Option.isSome_iff_exists.mp hsome
    have hk' : R'.slot a = some k := (congrFun hslot a).trans hk
    cases on with
    | true =>
      cases on' with
      | false => exact absurd hon' (hlaw a hon)
      | true =>
        obtain ⟨o, ho⟩ := hobject rfl
        obtain ⟨o', ho'⟩ := hobject' rfl
        have hentry := (hholds k o).mpr ⟨a, ha, hk, hon, ho⟩
        have hentry' := (hholds' k o').mpr ⟨a, ha, hk', hon', ho'⟩
        cases hentry.symm.trans hentry'
        exact ⟨true, hon, hon', fun _ => ⟨o, ho, ho'⟩⟩
    | false =>
      cases on' with
      | false => exact ⟨false, hon, hon', Bool.noConfusion⟩
      | true =>
        -- The object of the slot is one of another element, which both readers take for on.
        obtain ⟨o', ho'⟩ := hobject' rfl
        obtain ⟨b, hb, hbk, hbon, -⟩ := (hholds k o').mp ((hholds' k o').mpr ⟨a, ha, hk', hon', ho'⟩)
        have hne : a ≠ b := by
          rintro rfl
          cases hon.symm.trans hbon
        obtain ⟨-, onb, hbon', -⟩ := hreads' b hb
        cases onb with
        | false => exact absurd hbon' (hlaw b hbon)
        | true => exact absurd (hk'.trans ((congrFun hslot b).trans hbk).symm) (hfree'.ne_of_isOn ha hb hne hon' hbon')
  · rintro ⟨hall, hfree⟩
    have hreads : ∀ a ∈ l, R.Reads a := by
      intro a ha
      obtain ⟨hsome, on, hon, -, hobject⟩ := hall a ha
      exact ⟨hsome, on, hon, fun h => (hobject h).imp fun _ h => h.1⟩
    have hreads' : ∀ a ∈ l, R'.Reads a := by
      intro a ha
      obtain ⟨hsome, on, -, hon', hobject⟩ := hall a ha
      exact ⟨by rw [hslot]; exact hsome, on, hon', fun h => (hobject h).imp fun _ h => h.2⟩
    have hsame : ∀ a ∈ l, R'.isOn a = R.isOn a := by
      intro a ha
      obtain ⟨-, on, hon, hon', -⟩ := hall a ha
      exact hon'.trans hon.symm
    have hfree' : R'.Free l := by
      refine List.Pairwise.imp_of_mem ?_ hfree
      intro b a hb _ h hon
      rw [hslot]
      exact h ((hsame b hb).symm.trans hon)
    obtain ⟨m, hm⟩ := exists_ok hreads hfree
    obtain ⟨m', hm'⟩ := exists_ok hreads' hfree'
    have hholds : R.Holds l m' := by
      intro k o
      rw [(of_ok hm').2.2 k o]
      refine exists_congr fun a => and_congr_right fun ha => ?_
      obtain ⟨-, on, hon, hon', hobject⟩ := hall a ha
      rw [hslot, hsame a ha]
      refine and_congr_right fun _ => and_congr_right fun hon'' => ?_
      cases hon.symm.trans hon''
      obtain ⟨o₁, ho, ho'⟩ := hobject rfl
      rw [ho, ho']
    exact ⟨m, hm, ((of_ok hm).2.2.eq hholds) ▸ hm'⟩

end Roster

end DeepStream
