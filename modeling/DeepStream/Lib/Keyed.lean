/-
# Lists with distinct keys

A registry as a list of entries, each with a key of its own: what is left when
the entry of a key is erased, and what was there.
-/
import Mathlib.Data.List.Nodup

namespace DeepStream
namespace Keyed

variable {α κ : Type*} [DecidableEq κ] {f : α → κ} {l : List α}

/-- The first entry with the key is the only one. -/
theorem eraseP_key (h : (l.map f).Nodup) (k : κ) : l.eraseP (f · = k) = l.filter (f · ≠ k) := by
  induction l with
  | nil => rfl
  | cons a l ih =>
    rw [List.map_cons, List.nodup_cons] at h
    by_cases ha : f a = k
    · rw [List.eraseP_cons_of_pos (by simpa using ha), List.filter_cons_of_neg (by simpa using ha)]
      refine (List.filter_eq_self.mpr fun b hb => ?_).symm
      have hne : f b ≠ k := fun hbk => h.1 (List.mem_map.mpr ⟨b, hb, hbk.trans ha.symm⟩)
      simpa using hne
    · rw [List.eraseP_cons_of_neg (by simpa using ha), List.filter_cons_of_pos (by simpa using ha), ih h.2]

theorem mem_eraseP_key (h : (l.map f).Nodup) (k : κ) (a : α) : a ∈ l.eraseP (f · = k) ↔ a ∈ l ∧ f a ≠ k := by
  rw [eraseP_key h]
  simp

/-- The entries with the key of one of them. -/
theorem filter_key (h : (l.map f).Nodup) {a : α} (ha : a ∈ l) : l.filter (f · = f a) = [a] := by
  induction l with
  | nil => cases ha
  | cons b l ih =>
    rw [List.map_cons, List.nodup_cons] at h
    rcases List.mem_cons.mp ha with rfl | hl
    · rw [List.filter_cons_of_pos (by simp), List.filter_eq_nil_iff.mpr]
      intro c hc heq
      exact h.1 (List.mem_map.mpr ⟨c, hc, by simpa using heq⟩)
    · have hne : ¬ f b = f a := fun heq => h.1 (List.mem_map.mpr ⟨a, hl, heq.symm⟩)
      rw [List.filter_cons_of_neg (by simpa using hne), ih h.2 hl]

/-- An entry and the others. -/
theorem perm_key (h : (l.map f).Nodup) {a : α} (ha : a ∈ l) : (a :: l.filter (f · ≠ f a)).Perm l := by
  have hsplit := List.filter_append_perm (fun b => decide (f b = f a)) l
  rw [filter_key h ha] at hsplit
  simpa using hsplit

/-- What a key contributed to a list that is made key by key. -/
theorem filter_flatMap_key {g : κ → List α} (hg : ∀ k, ∀ a ∈ g k, f a = k) {ks : List κ} (h : ks.Nodup) (k : κ) :
    (ks.flatMap g).filter (f · = k) = if k ∈ ks then g k else [] := by
  induction ks with
  | nil => rfl
  | cons k' ks ih =>
    rw [List.nodup_cons] at h
    rw [List.flatMap_cons, List.filter_append, ih h.2]
    by_cases hk : k = k'
    · subst hk
      rw [if_pos List.mem_cons_self, if_neg h.1, List.append_nil]
      exact List.filter_eq_self.mpr fun a ha => by simpa using hg k a ha
    · have hnil : (g k').filter (f · = k) = [] := by
        refine List.filter_eq_nil_iff.mpr fun a ha heq => hk ?_
        exact (of_decide_eq_true heq).symm.trans (hg k' a ha)
      rw [hnil, List.nil_append]
      simp [hk]

omit [DecidableEq κ] in
/-- When nothing with a property comes after something without it. -/
theorem takeWhile_complete_iff {p : κ → Prop} [DecidablePred p] {ks : List κ} (h : ks.Nodup) :
    (∀ k ∈ ks, p k → k ∈ ks.takeWhile p) ↔ ks.Pairwise fun k k' => ¬ p k → ¬ p k' := by
  induction ks with
  | nil => simp
  | cons k ks ih =>
    rw [List.nodup_cons] at h
    rw [List.pairwise_cons, ← ih h.2, List.forall_mem_cons]
    by_cases hk : p k
    · rw [List.takeWhile_cons_of_pos (by simpa using hk)]
      constructor
      · rintro ⟨-, hall⟩
        refine ⟨fun _ _ hn => absurd hk hn, fun k' hk' hp => ?_⟩
        exact (List.mem_cons.mp (hall k' hk' hp)).resolve_left fun heq => h.1 (heq ▸ hk')
      · rintro ⟨-, hall⟩
        exact ⟨fun _ => List.mem_cons_self, fun k' hk' hp => List.mem_cons_of_mem _ (hall k' hk' hp)⟩
    · rw [List.takeWhile_cons_of_neg (by simpa using hk)]
      constructor
      · rintro ⟨-, hall⟩
        exact ⟨fun k' hk' _ hp => List.not_mem_nil (hall k' hk' hp), fun k' hk' hp =>
          absurd (hall k' hk' hp) List.not_mem_nil⟩
      · rintro ⟨hnone, -⟩
        exact ⟨fun hp => absurd hp hk, fun k' hk' hp => absurd hp (hnone k' hk' hk)⟩

/-- The values under a key that stands there once only. -/
theorem eq_of_count_le_one {β : Type*} {k : κ} {a b : β} : ∀ {l : List (κ × β)}, (l.map (·.1)).count k ≤ 1 →
    (k, a) ∈ l → (k, b) ∈ l → a = b
  | [], _, ha, _ => by cases ha
  | (k', c) :: l, hcount, ha, hb => by
    have hnot : k' = k → ∀ d, (k, d) ∉ l := by
      rintro rfl d hd
      have hpos : 0 < (l.map (·.1)).count k' := List.count_pos_iff.mpr (List.mem_map.mpr ⟨_, hd, rfl⟩)
      rw [List.map_cons, List.count_cons_self] at hcount
      omega
    have hrest : (l.map (·.1)).count k ≤ 1 := Nat.le_trans (List.count_le_count_cons ..) hcount
    rcases List.mem_cons.mp ha with heq | ha
    · rcases List.mem_cons.mp hb with heq' | hb
      · exact (Prod.mk.inj heq).2.trans (Prod.mk.inj heq').2.symm
      · exact absurd hb (hnot (Prod.mk.inj heq).1.symm b)
    · rcases List.mem_cons.mp hb with heq' | hb
      · exact absurd ha (hnot (Prod.mk.inj heq').1.symm a)
      · exact eq_of_count_le_one hrest ha hb

end Keyed
end DeepStream
