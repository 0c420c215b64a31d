/-
# Folds that may fail

`List.foldlM` in `Option`, the loop of a reader that gives up at what it cannot read:
when it gets to the end, what it leaves in a field that only one key sets, and how it
goes together with a fold that does not fail; and in `Except`, how it ends. Before it, when the steps of such a
reader and `List.mapM` have a result.
-/
import Mathlib.Data.List.Nodup

namespace DeepStream

variable {σ τ α κ ν β : Type*}

/-- The second part has a result whatever the first one gave. -/
theorem isSome_bind_of_forall {x : Option α} {f : α → Option β} {P : Prop}
    (h : ∀ a, x = some a → ((f a).isSome ↔ P)) : (x.bind f).isSome ↔ x.isSome ∧ P := by
  cases x with
  | none => simp
  | some a => simpa using h a rfl

theorem isSome_mapM_iff {f : α → Option β} {l : List α} : (l.mapM f).isSome ↔ ∀ a ∈ l, (f a).isSome := by
  induction l with
  | nil => simp
  | cons a l ih =>
    have htail : ∀ b, f a = some b → (((l.mapM f).bind fun bs => some (b :: bs)).isSome ↔ ∀ a ∈ l, (f a).isSome) :=
      fun b _ => by rw [isSome_bind_of_forall (P := True) fun _ _ => by simp, and_true, ih]
    rw [List.mapM_cons, List.forall_mem_cons]
    exact isSome_bind_of_forall htail

theorem mapM_eq_none_iff {f : α → Option β} {l : List α} : l.mapM f = none ↔ ∃ a ∈ l, f a = none := by
  rw [← Option.not_isSome_iff_eq_none, isSome_mapM_iff]
  simp

/-- The results are those of the elements, one by one. -/
theorem mapM_eq_some_iff {f : α → Option β} {l : List α} {l' : List β} :
    l.mapM f = some l' ↔ List.Forall₂ (fun a b => f a = some b) l l' := by
  induction l generalizing l' with
  | nil => simp [eq_comm]
  | cons a l ih =>
    simp only [List.mapM_cons, Option.bind_eq_bind, Option.bind_eq_some_iff, Option.pure_def, Option.some.injEq,
      List.forall₂_cons_left_iff]
    constructor
    · rintro ⟨b, hb, bs, hbs, rfl⟩
      exact ⟨b, bs, hb, ih.mp hbs, rfl⟩
    · rintro ⟨b, bs, hb, hbs, rfl⟩
      exact ⟨b, hb, bs, ih.mpr hbs, rfl⟩

theorem forall_mem_iff_of_forall₂ {R : α → β → Prop} {P : α → Prop} {Q : β → Prop} {l : List α} {l' : List β}
    (h : List.Forall₂ R l l') (hR : ∀ a b, R a b → (P a ↔ Q b)) : (∀ a ∈ l, P a) ↔ ∀ b ∈ l', Q b := by
  induction h with
  | nil => simp
  | cons hab _ ih => rw [List.forall_mem_cons, List.forall_mem_cons, hR _ _ hab, ih]

theorem exists_of_mem_forall₂ {R : α → β → Prop} {l : List α} {l' : List β} (h : List.Forall₂ R l l') {b : β}
    (hb : b ∈ l') : ∃ a ∈ l, R a b := by
  induction h with
  | nil => cases hb
  | @cons a _ l _ hab _ ih =>
    rcases List.mem_cons.mp hb with rfl | hb
    · exact ⟨a, List.mem_cons_self, hab⟩
    · obtain ⟨a', ha', hR⟩ := ih hb
      exact ⟨a', List.mem_cons_of_mem a ha', hR⟩

/-- Two lists that go with the same one go with each other. -/
theorem forall₂_of_forall₂ {γ : Type*} {R : α → β → Prop} {S : α → γ → Prop} {T : β → γ → Prop}
    (hT : ∀ a b c, R a b → S a c → T b c) {l : List α} {bs : List β} {cs : List γ} (hR : List.Forall₂ R l bs)
    (hS : List.Forall₂ S l cs) : List.Forall₂ T bs cs := by
  induction hR generalizing cs with
  | nil =>
    cases hS
    exact .nil
  | cons hab _ ih =>
    cases hS with
    | cons hac hrest => exact .cons (hT _ _ _ hab hac) (ih hrest)

/-- A result for each element, all of them as `P` says. -/
theorem exists_forall₂ {R : α → β → Prop} {P : β → Prop} {l : List α} (h : ∀ a ∈ l, ∃ b, R a b ∧ P b) :
    ∃ l', List.Forall₂ R l l' ∧ ∀ b ∈ l', P b := by
  induction l with
  | nil => exact ⟨[], .nil, by simp⟩
  | cons a l ih =>
    obtain ⟨b, hR, hP⟩ := h a List.mem_cons_self
    obtain ⟨l', hall, hl'⟩ := ih fun a' ha' => h a' (List.mem_cons_of_mem a ha')
    exact ⟨b :: l', .cons hR hall, List.forall_mem_cons.mpr ⟨hP, hl'⟩⟩

/-- A loop gets to the end when no element stops it. -/
theorem isSome_foldlM_iff {step : σ → α → Option σ} {ok : α → Prop} {l : List α}
    (h : ∀ a ∈ l, ∀ s, (step s a).isSome ↔ ok a) (s : σ) : (l.foldlM step s).isSome ↔ ∀ a ∈ l, ok a := by
  induction l generalizing s with
  | nil => simp
  | cons a l ih =>
    rw [List.foldlM_cons, List.forall_mem_cons, ← h a List.mem_cons_self s]
    have htail := ih fun b hb => h b (List.mem_cons_of_mem a hb)
    cases hs : step s a with
    | none => simp
    | some s' => simpa using htail s'

/-- A relation that each step keeps is there at the end. -/
theorem foldlM_sim {step : τ → α → τ} {stepM : σ → α → Option σ} {R : τ → σ → Prop} {l : List α}
    (h : ∀ a ∈ l, ∀ t s, R t s → ∃ s', stepM s a = some s' ∧ R (step t a) s') {t : τ} {s : σ} (hR : R t s) :
    ∃ s', l.foldlM stepM s = some s' ∧ R (l.foldl step t) s' := by
  induction l generalizing t s with
  | nil => exact ⟨s, rfl, hR⟩
  | cons a l ih =>
    obtain ⟨s', hs, hR'⟩ := h a List.mem_cons_self t s hR
    obtain ⟨s'', hs', hR''⟩ := ih (fun b hb => h b (List.mem_cons_of_mem a hb)) hR'
    exact ⟨s'', by simp [List.foldlM_cons, hs, hs'], hR''⟩

/-- A field that the entries of one key set, and no other. -/
theorem foldlM_field [DecidableEq κ] {step : σ → κ × ν → Option σ} (f : σ → β) (g : ν → β) (k : κ)
    (hset : ∀ s v s', step s (k, v) = some s' → f s' = g v)
    (hkeep : ∀ s k' v s', k' ≠ k → step s (k', v) = some s' → f s' = f s) {l : List (κ × ν)}
    (hnodup : (l.map Prod.fst).Nodup) {s s' : σ} (h : l.foldlM step s = some s') :
    f s' = ((l.lookup k).map g).getD (f s) := by
  induction l generalizing s with
  | nil =>
    cases h
    rfl
  | cons e l ih =>
    obtain ⟨k', v⟩ := e
    rw [List.map_cons, List.nodup_cons] at hnodup
    rw [List.foldlM_cons] at h
    obtain ⟨s₁, hs₁, hrest⟩ := Option.bind_eq_some_iff.mp h
    have hf := ih hnodup.2 hrest
    by_cases hk : k' = k
    · subst hk
      have hnone : l.lookup k' = none := by
        rw [List.lookup_eq_none_iff]
        rintro e he
        exact bne_iff_ne.mpr fun heq => hnodup.1 (List.mem_map.mpr ⟨e, he, heq.symm⟩)
      rw [hf, hnone, List.lookup_cons_self]
      exact hset s v s₁ hs₁
    · rw [hf, List.lookup_cons, beq_false_of_ne (Ne.symm hk), hkeep s k' v s₁ hk hs₁]

/-- The entry of a key is what is found for it. -/
theorem lookup_of_mem [BEq κ] [LawfulBEq κ] {l : List (κ × ν)} (hnodup : (l.map Prod.fst).Nodup) {k : κ} {v : ν}
    (h : (k, v) ∈ l) : l.lookup k = some v := by
  induction l with
  | nil => cases h
  | cons e l ih =>
    rw [List.map_cons, List.nodup_cons] at hnodup
    rcases List.mem_cons.mp h with rfl | hl
    · exact List.lookup_cons_self
    · have hne : k ≠ e.1 := fun heq => hnodup.1 (List.mem_map.mpr ⟨(k, v), hl, heq⟩)
      rw [List.lookup_cons, beq_false_of_ne hne]
      exact ih hnodup.2 hl

theorem lookup_eq_some_iff_mem [BEq κ] [LawfulBEq κ] {l : List (κ × ν)} (hnodup : (l.map Prod.fst).Nodup) {k : κ} {v : ν} :
    l.lookup k = some v ↔ (k, v) ∈ l := by
  refine ⟨fun h => ?_, lookup_of_mem hnodup⟩
  obtain ⟨front, back, rfl, -⟩ := List.lookup_eq_some_iff.mp h
  exact List.mem_append_right _ List.mem_cons_self

/-! ### Loops that end with an error -/

section Errors

variable {ε : Type*} {step : σ → α → Except ε σ} {I : σ → Prop} {E : ε → Prop} {l : List α}

/-- Steps that keep `I`, or fail as `E` says. -/
theorem foldlM_except (h : ∀ s, I s → ∀ a ∈ l, (∃ s', step s a = .ok s' ∧ I s') ∨ ∃ e, step s a = .error e ∧ E e)
    {s : σ} (hs : I s) : (∃ s', l.foldlM step s = .ok s' ∧ I s') ∨ ∃ e, l.foldlM step s = .error e ∧ E e := by
  induction l generalizing s with
  | nil => exact .inl ⟨s, rfl, hs⟩
  | cons a l ih =>
    rw [List.foldlM_cons]
    rcases h s hs a List.mem_cons_self with ⟨s', hok, hs'⟩ | ⟨e, herror, he⟩
    · rw [hok]
      exact ih (fun s hs b hb => h s hs b (List.mem_cons_of_mem a hb)) hs'
    · rw [herror]
      exact .inr ⟨e, rfl, he⟩

/-- The error is that of the first step that fails. -/
theorem foldlM_eq_error_iff {s : σ} {e : ε} : l.foldlM step s = .error e ↔
    ∃ front a back s', l = front ++ a :: back ∧ front.foldlM step s = .ok s' ∧ step s' a = .error e := by
  induction l generalizing s with
  | nil =>
    refine iff_of_false (fun h => by cases h) ?_
    rintro ⟨front, a, back, -, hl, -⟩
    cases front <;> cases hl
  | cons a l ih =>
    rw [List.foldlM_cons]
    cases hstep : step s a with
    | error e' =>
      constructor
      · rintro ⟨⟩
        exact ⟨[], a, l, s, rfl, rfl, hstep⟩
      · rintro ⟨front, b, back, s', hl, hfront, hb⟩
        cases front with
        | nil =>
          cases hl
          cases hfront
          rw [hstep] at hb
          cases hb
          rfl
        | cons c front =>
          cases hl
          rw [List.foldlM_cons, hstep] at hfront
          cases hfront
    | ok s₁ =>
      refine (ih (s := s₁)).trans ?_
      constructor
      · rintro ⟨front, b, back, s', rfl, hfront, hb⟩
        refine ⟨a :: front, b, back, s', rfl, ?_, hb⟩
        rw [List.foldlM_cons, hstep]
        exact hfront
      · rintro ⟨front, b, back, s', hl, hfront, hb⟩
        cases front with
        | nil =>
          cases hl
          cases hfront
          rw [hstep] at hb
          cases hb
        | cons c front =>
          cases hl
          rw [List.foldlM_cons, hstep] at hfront
          exact ⟨front, b, back, s', rfl, hfront, hb⟩

/-- Two loops whose states go together under a function. -/
theorem map_foldlM {f : σ → τ} {step' : τ → α → Except ε τ} (h : ∀ s, ∀ a ∈ l, (step s a).map f = step' (f s) a) {s : σ} :
    (l.foldlM step s).map f = l.foldlM step' (f s) := by
  induction l generalizing s with
  | nil => rfl
  | cons a l ih =>
    rw [List.foldlM_cons, List.foldlM_cons, ← h s a List.mem_cons_self]
    cases step s a with
    | error e => rfl
    | ok s₁ => exact ih fun s b hb => h s b (List.mem_cons_of_mem a hb)

/-- A loop over a list and one more element. -/
theorem foldlM_concat_eq_ok_iff {a : α} {s s' : σ} :
    (l ++ [a]).foldlM step s = .ok s' ↔ ∃ s₁, l.foldlM step s = .ok s₁ ∧ step s₁ a = .ok s' := by
  rw [List.foldlM_append]
  cases l.foldlM step s with
  | error e => exact iff_of_false (fun h => by cases h) (fun ⟨_, h, _⟩ => by cases h)
  | ok s₁ =>
    have hlast : [a].foldlM step s₁ = step s₁ a := by
      rw [List.foldlM_cons]
      cases step s₁ a <;> rfl
    constructor
    · intro h
      exact ⟨s₁, rfl, hlast.symm.trans h⟩
    · rintro ⟨_, ⟨⟩, h⟩
      exact hlast.trans h

/-- One of the steps fails. -/
theorem foldlM_error (h : ∀ s, I s → ∀ a ∈ l, (∃ s', step s a = .ok s' ∧ I s') ∨ ∃ e, step s a = .error e ∧ E e)
    (hfail : ∃ a ∈ l, ∀ s, I s → ∃ e, step s a = .error e ∧ E e) {s : σ} (hs : I s) :
    ∃ e, l.foldlM step s = .error e ∧ E e := by
  induction l generalizing s with
  | nil => obtain ⟨a, ha, -⟩ := hfail; cases ha
  | cons a l ih =>
    rw [List.foldlM_cons]
    obtain ⟨b, hb, hstep⟩ := hfail
    rcases List.mem_cons.mp hb with rfl | hmem
    · obtain ⟨e, herror, he⟩ := hstep s hs
      rw [herror]
      exact ⟨e, rfl, he⟩
    · rcases h s hs a List.mem_cons_self with ⟨s', hok, hs'⟩ | ⟨e, herror, he⟩
      · rw [hok]
        exact ih (fun s hs b hb => h s hs b (List.mem_cons_of_mem a hb)) ⟨b, hmem, hstep⟩ hs'
      · rw [herror]
        exact ⟨e, rfl, he⟩

/-- What one element brings about and the others keep. -/
theorem foldlM_of_mem {J : σ → Prop} {a : α} (hset : ∀ s s', step s a = .ok s' → J s')
    (hkeep : ∀ b ∈ l, ∀ s s', J s → step s b = .ok s' → J s') (ha : a ∈ l) {s s' : σ}
    (h : l.foldlM step s = .ok s') : J s' := by
  have hrest : ∀ {l : List α}, (∀ b ∈ l, ∀ s s', J s → step s b = .ok s' → J s') → ∀ {s : σ}, J s →
      l.foldlM step s = .ok s' → J s' := by
    intro l
    induction l with
    | nil => rintro - s hs ⟨⟩; exact hs
    | cons b l ih =>
      intro hkeep s hs hfold
      rw [List.foldlM_cons] at hfold
      cases hb : step s b with
      | error e => rw [hb] at hfold; cases hfold
      | ok s₁ =>
        rw [hb] at hfold
        exact ih (fun c hc => hkeep c (List.mem_cons_of_mem b hc)) (hkeep b List.mem_cons_self s s₁ hs hb) hfold
  obtain ⟨front, back, rfl⟩ := List.append_of_mem ha
  rw [List.foldlM_append] at h
  cases hfront : front.foldlM step s with
  | error e => rw [hfront] at h; cases h
  | ok s₁ =>
    rw [hfront] at h
    change (a :: back).foldlM step s₁ = .ok s' at h
    rw [List.foldlM_cons] at h
    cases hstep : step s₁ a with
    | error e => rw [hstep] at h; cases h
    | ok s₂ =>
      rw [hstep] at h
      refine hrest (fun b hb => hkeep b ?_) (hset s₁ s₂ hstep) h
      exact List.mem_append_right front (List.mem_cons_of_mem a hb)

/-- Steps that all succeed are those of a fold. -/
theorem foldlM_ok {next : σ → α → σ} (h : ∀ s, I s → ∀ a ∈ l, step s a = .ok (next s a) ∧ I (next s a)) {s : σ}
    (hs : I s) : l.foldlM step s = .ok (l.foldl next s) := by
  induction l generalizing s with
  | nil => rfl
  | cons a l ih =>
    obtain ⟨hok, hs'⟩ := h s hs a List.mem_cons_self
    rw [List.foldlM_cons, hok, List.foldl_cons]
    exact ih (fun s hs b hb => h s hs b (List.mem_cons_of_mem a hb)) hs'

end Errors

/-- A field that one element sets, always to the same value. -/
theorem foldl_field [DecidableEq α] {step : σ → α → σ} (f : σ → β) (a : α) (v : β)
    (h : ∀ s b, f (step s b) = if b = a then v else f s) (l : List α) (s : σ) :
    f (l.foldl step s) = if a ∈ l then v else f s := by
  induction l generalizing s with
  | nil => simp
  | cons b l ih =>
    rw [List.foldl_cons, ih, h]
    by_cases hmem : a ∈ l
    · rw [if_pos hmem, if_pos (List.mem_cons_of_mem b hmem)]
    · rw [if_neg hmem]
      by_cases hb : b = a
      · rw [if_pos hb, if_pos (hb ▸ List.mem_cons_self)]
      · have hnot : a ∉ b :: l := fun hmem' => (List.mem_cons.mp hmem').elim (fun heq => hb heq.symm) hmem
        rw [if_neg hb, if_neg hnot]

/-- An element can be brought to the front. -/
theorem exists_perm_cons {a : α} {l : List α} (h : a ∈ l) : ∃ l', (a :: l').Perm l := by
  obtain ⟨front, back, rfl⟩ := List.append_of_mem h
  exact ⟨front ++ back, List.perm_middle.symm⟩

end DeepStream
