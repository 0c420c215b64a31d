/-
# What the voxelization keeps to

The numbers that `build_hash_table_kernel` gives are those of the slots in the order of their
`atomicAdd` (`Counted`), whatever the order of the threads is. The kernels stay in their arrays as
long as the voxels of a whole batch are no more than the rows (`Fits`): a cloud's rows start behind
those of the clouds before it, which are as many as were counted, and the last kernel goes over all
of them.
-/
import DeepStream.Lidar.Voxelization
import DeepStream.Lib.Run
import Mathlib.Algebra.Order.BigOperators.Group.Finset
import Mathlib.Order.Interval.Finset.Nat

namespace DeepStream
namespace Lidar

open Probing

namespace VoxelizationParameter

variable (param : VoxelizationParameter) (cloud : Cloud) (base : ℕ)

/-- The voxels that the points of a cloud are in. -/
def occupied : Finset Int3 := (cloud.filterMap param.voxelAt).toFinset

/-- The points in range of a voxel. -/
def pointsOf (voxel : Int3) : Finset ℕ := (Finset.range cloud.length).filter fun i =>
  ∃ p ∈ cloud[i]?, param.InRange p ∧ param.voxelAt p = some voxel

/-- Each voxel has one number of its own behind those of the earlier clouds, and `lookup` finds it. -/
structure Numbered (s : Build) (ids : Int3 → ℕ) : Prop where
  bijOn : Set.BijOn ids (param.occupied cloud) (Finset.Ico base (base + (param.occupied cloud).card))
  stored : ∀ slot key, s.keys slot = some key → ∃ voxel ∈ param.occupied cloud, key = param.keyOf voxel ∧ s.values slot = ids voxel
  lookup : ∀ voxel ∈ param.occupied cloud, s.lookup cloud (param.keyOf voxel) = some (ids voxel)

/-- The voxels below the limit hold as many of their points as fit. -/
def Held (ids : Int3 → ℕ) (t : Scatter) : Prop :=
  ∀ voxel ∈ param.occupied cloud, ids voxel - base < param.max_voxels → ∃ l : List ℕ, l.Nodup ∧
    l.length = min (param.pointsOf cloud voxel).card param.max_points_per_voxel ∧ (∀ i ∈ l, i ∈ param.pointsOf cloud voxel) ∧
      ∀ currentNum < l.length, t.rows (ids voxel - base) currentNum = l[currentNum]?

def Built (values : ℕ → ℕ) (s : Build) : Prop :=
  Reach (Build.step cloud) anyStep (· = Build.start param cloud base values) s

def Scattered (s : Build) (rows : ℕ → ℕ → Option ℕ) (t : Scatter) : Prop :=
  Reach (Scatter.step param) anyStep (· = Scatter.start param cloud s base rows) t

/-- What is asked of a cloud whose numbers start at `base`. -/
structure CloudMeets (a : Arrays) : Prop where
  room : 2 * hashSize cloud ≤ a.hashTable
  ends : ∃ bound, ∀ values l s, exec (Build.step cloud) anyStep (Build.start param cloud base values) l = some s → l.length ≤ bound
  goesOn : ∀ (s : Build) i, s.threads i ≠ .done → (s.step cloud i).isSome
  built : ∀ values s, param.Built cloud base values s → s.Done cloud →
    (∃ ids, param.Numbered cloud base s ids ∧ ∀ rows t, param.Scattered cloud base s rows t →
      (∀ i, ∀ c ∈ t.cells param base i, c.Inside a) ∧ (t.Done cloud → param.Held cloud base ids t)) ∧
    ∀ counts block thread row, ∀ c ∈ param.computeCells base ((s.counter + 2 ^ 32 - base % 2 ^ 32) % 2 ^ 32) counts block thread row,
      c.Inside a

/-! ### The numbers of the voxels -/

/-- The keys that a cloud brings into the table. -/
def keySet : Finset ℕ := (param.occupied cloud).image param.keyOf

section

variable {param cloud base} {s s' : Build} {i j key slot id : ℕ} {l : List ℕ}

/-- What one step does. -/
theorem Build.step_cases (h : s.step cloud i = some s') :
    (∃ key j, s.threads i = .probing key j ∧ s.keys (slotAt hash (hashSize cloud) key j) = none ∧
      s' = { s with
        keys := Function.update s.keys (slotAt hash (hashSize cloud) key j) (some key)
        threads := Function.update s.threads i (.counting (slotAt hash (hashSize cloud) key j)) }) ∨
    (∃ key j pre, s.threads i = .probing key j ∧ s.keys (slotAt hash (hashSize cloud) key j) = some pre ∧
      s' = { s with threads := Function.update s.threads i (if pre = key then .done else .probing key (j + 1)) }) ∨
    (∃ slot, s.threads i = .counting slot ∧ s' = { s with
      counter := (s.counter + 1) % 2 ^ 32, threads := Function.update s.threads i (.storing slot s.counter) }) ∨
    ∃ slot id, s.threads i = .storing slot id ∧ s' = { s with
      values := Function.update s.values slot id, threads := Function.update s.threads i .done } := by
  unfold Build.step at h
  split at h
  · rename_i key j hthread
    dsimp only at h
    split at h
    · rename_i hkey
      exact .inl ⟨key, j, hthread, hkey, (Option.some.inj h).symm⟩
    · rename_i pre hkey
      exact .inr (.inl ⟨key, j, pre, hthread, hkey, (Option.some.inj h).symm⟩)
  · rename_i slot hthread
    exact .inr (.inr (.inl ⟨slot, hthread, (Option.some.inj h).symm⟩))
  · rename_i slot id hthread
    exact .inr (.inr (.inr ⟨slot, id, hthread, (Option.some.inj h).symm⟩))
  · cases h

/-- The table, and the searches in it. -/
structure Build.Table (param : VoxelizationParameter) (cloud : Cloud) (s : Build) : Prop where
  placed : Placed hash (hashSize cloud) s.keys
  mem : ∀ slot key, s.keys slot = some key → key ∈ param.keySet cloud
  probing : ∀ i key j, s.threads i = .probing key j →
    param.keyAt cloud i = some key ∧ Passed hash (hashSize cloud) s.keys key j
  inserted : ∀ i key, param.keyAt cloud i = some key → (∃ j, s.threads i = .probing key j) ∨ ∃ slot, s.keys slot = some key
  inside : ∀ i, s.threads i ≠ .done → i < cloud.length

/-- The slots in `l` have been counted, in this order. -/
structure Build.Counted (base : ℕ) (s : Build) (l : List ℕ) : Prop where
  counter : s.counter = base + l.length
  nodup : l.Nodup
  filled : ∀ slot ∈ l, (s.keys slot).isSome
  counting : ∀ i slot, s.threads i = .counting slot →
    slot ∉ l ∧ (s.keys slot).isSome ∧ ∀ i', s.threads i' = .counting slot → i' = i
  storing : ∀ i slot id, s.threads i = .storing slot id → ∃ m, l[m]? = some slot ∧ id = base + m
  counted : ∀ slot, (s.keys slot).isSome → slot ∈ l ∨ ∃ i, s.threads i = .counting slot
  stored : ∀ m slot, l[m]? = some slot → s.values slot = base + m ∨ ∃ i, s.threads i = .storing slot (base + m)

theorem mem_keySet (h : param.keyAt cloud i = some key) : key ∈ param.keySet cloud := by
  obtain ⟨voxel, hvoxel, rfl⟩ := Option.map_eq_some_iff.mp h
  obtain ⟨p, hp, hvoxel⟩ := Option.bind_eq_some_iff.mp hvoxel
  exact Finset.mem_image_of_mem _ (List.mem_toFinset.mpr (List.mem_filterMap.mpr ⟨p, List.mem_of_getElem? hp, hvoxel⟩))

theorem update_eq_iff {α : Type} {f : ℕ → α} {x y : α} {i i' : ℕ} :
    Function.update f i x i' = y ↔ i' = i ∧ x = y ∨ i' ≠ i ∧ f i' = y := by
  rw [Function.update_apply]
  split <;> simp [*]

theorem update_eq_iff_of_ne {α : Type} {f : ℕ → α} {x y : α} {i i' : ℕ} (hne : x ≠ y) :
    Function.update f i x i' = y ↔ i' ≠ i ∧ f i' = y :=
  update_eq_iff.trans (or_iff_right fun h => hne h.2)

theorem update_keep {α : Type} {f : ℕ → α} {x y : α} {i i' : ℕ} (h : f i' = y) (hne : f i ≠ y) :
    Function.update f i x i' = y :=
  update_eq_iff.mpr (.inr ⟨fun heq => hne (heq ▸ h), h⟩)

theorem Build.Table.step (h : s.Table param cloud) (hstep : s.step cloud i = some s') : s'.Table param cloud := by
  obtain ⟨hplaced, hmem, hprobing, hinserted, hinside⟩ := h
  have hinside' : ∀ {x : Insert}, s.threads i ≠ .done → ∀ i', Function.update s.threads i x i' ≠ .done → i' < cloud.length :=
    fun hi i' hi' => by
      by_cases heq : i' = i
      · exact heq ▸ hinside i hi
      · exact hinside i' (by rwa [Function.update_of_ne heq] at hi')
  rcases Build.step_cases hstep with ⟨key, j, hi, hkey, rfl⟩ | ⟨key, j, pre, hi, hkey, rfl⟩ | ⟨slot, hi, rfl⟩ | ⟨slot, id, hi, rfl⟩
  · obtain ⟨hkeyAt, hpassed⟩ := hprobing i key j hi
    refine ⟨hplaced.update hkey hpassed, fun slot k hk => ?_, fun i' k j' hi' => ?_, fun i' k hk => ?_, hinside' (by simp [hi])⟩
    · rcases update_eq_iff.mp hk with ⟨-, heq⟩ | ⟨-, hk⟩
      · exact Option.some.inj heq ▸ mem_keySet hkeyAt
      · exact hmem slot k hk
    · rcases update_eq_iff.mp hi' with ⟨-, heq⟩ | ⟨-, hi'⟩
      · cases heq
      · obtain ⟨hk, hp⟩ := hprobing i' k j' hi'
        exact ⟨hk, hp.update hkey⟩
    · rcases hinserted i' k hk with ⟨j', hj'⟩ | ⟨slot, hslot⟩
      · by_cases heq : i' = i
        · subst heq
          cases hkeyAt.symm.trans hk
          exact .inr ⟨_, Function.update_self _ _ _⟩
        · exact .inl ⟨j', update_eq_iff.mpr (.inr ⟨heq, hj'⟩)⟩
      · refine .inr ⟨slot, update_eq_iff.mpr (.inr ⟨?_, hslot⟩)⟩
        rintro rfl
        cases hkey.symm.trans hslot
  · obtain ⟨hkeyAt, hpassed⟩ := hprobing i key j hi
    refine ⟨hplaced, hmem, fun i' k j' hi' => ?_, fun i' k hk => ?_, hinside' (by simp [hi])⟩
    · rcases update_eq_iff.mp hi' with ⟨rfl, heq⟩ | ⟨-, hi'⟩
      · split at heq
        · cases heq
        · rename_i hne
          cases heq
          exact ⟨hkeyAt, hpassed.succ hkey hne⟩
      · exact hprobing i' k j' hi'
    · rcases hinserted i' k hk with ⟨j', hj'⟩ | hslot
      · by_cases heq : i' = i
        · subst heq
          cases hkeyAt.symm.trans hk
          by_cases hpre : pre = key
          · exact .inr ⟨_, hpre ▸ hkey⟩
          · exact .inl ⟨j + 1, update_eq_iff.mpr (.inl ⟨rfl, if_neg hpre⟩)⟩
        · exact .inl ⟨j', update_eq_iff.mpr (.inr ⟨heq, hj'⟩)⟩
      · exact .inr hslot
  all_goals
    refine ⟨hplaced, hmem, fun i' k j' hi' => ?_, fun i' k hk => (hinserted i' k hk).imp_left fun ⟨j', hj'⟩ => ⟨j', ?_⟩,
      hinside' (by simp [hi])⟩
    · rcases update_eq_iff.mp hi' with ⟨-, heq⟩ | ⟨-, hi'⟩
      · cases heq
      · exact hprobing i' k j' hi'
    · refine update_eq_iff.mpr (.inr ⟨?_, hj'⟩)
      rintro rfl
      cases hi.symm.trans hj'

/-- There are at most as many filled slots as keys. -/
theorem Build.Table.length_le (h : s.Table param cloud) (hnodup : l.Nodup) (hfilled : ∀ slot ∈ l, (s.keys slot).isSome) :
    l.length ≤ (param.keySet cloud).card := by
  rw [← List.toFinset_card_of_nodup hnodup]
  refine Finset.card_le_card_of_injOn (fun slot => (s.keys slot).getD 0) (fun slot hslot => ?_) fun slot hslot slot' hslot' heq => ?_
  · obtain ⟨key, hkey⟩ := Option.isSome_iff_exists.mp (hfilled slot (List.mem_toFinset.mp hslot))
    have hmem := h.mem slot key hkey
    dsimp only
    rwa [hkey]
  · obtain ⟨key, hkey⟩ := Option.isSome_iff_exists.mp (hfilled slot (List.mem_toFinset.mp hslot))
    obtain ⟨key', hkey'⟩ := Option.isSome_iff_exists.mp (hfilled slot' (List.mem_toFinset.mp hslot'))
    dsimp only at heq
    rw [hkey, hkey'] at heq
    cases heq
    exact h.placed.inj hkey hkey'

/-- The threads that wait to count, and those that wait to store, when another one moves on. -/
theorem Build.Counted.of_threads (h : s.Counted base l) {x : Insert} (hnot : ∀ slot, s.threads i ≠ .counting slot)
    (hnot' : ∀ slot id, s.threads i ≠ .storing slot id) (hx : ∀ slot, x ≠ .counting slot) (hx' : ∀ slot id, x ≠ .storing slot id) :
    Build.Counted base { s with threads := Function.update s.threads i x } l := by
  have hcounting : ∀ {i' slot}, Function.update s.threads i x i' = .counting slot ↔ s.threads i' = .counting slot := by
    intro i' slot
    rw [update_eq_iff]
    exact ⟨fun h => h.elim (fun h => absurd h.2 (hx slot)) And.right,
      fun h => .inr ⟨fun heq => hnot slot (heq ▸ h), h⟩⟩
  have hstoring : ∀ {i' slot id}, Function.update s.threads i x i' = .storing slot id ↔ s.threads i' = .storing slot id := by
    intro i' slot id
    rw [update_eq_iff]
    exact ⟨fun h => h.elim (fun h => absurd h.2 (hx' slot id)) And.right,
      fun h => .inr ⟨fun heq => hnot' slot id (heq ▸ h), h⟩⟩
  exact ⟨h.counter, h.nodup, h.filled, by simpa only [hcounting] using h.counting, by simpa only [hstoring] using h.storing,
    by simpa only [hcounting] using h.counted, by simpa only [hstoring] using h.stored⟩

/-- A step that counts makes the slot the next one. -/
theorem Build.Counted.step (h : s.Counted base l) (hcounter : ∀ slot, s.threads i = .counting slot → base + l.length + 1 < 2 ^ 32)
    (hstep : s.step cloud i = some s') : ∃ l', s'.Counted base l' := by
  rcases Build.step_cases hstep with ⟨key, j, hi, hkey, rfl⟩ | ⟨key, j, pre, hi, hkey, rfl⟩ | ⟨slot, hi, rfl⟩ | ⟨slot, id, hi, rfl⟩
  · generalize slotAt hash (hashSize cloud) key j = slot at hkey
    have hold : ∀ slot', (s.keys slot').isSome → (Function.update s.keys slot (some key) slot').isSome := fun slot' hsome => by
      rw [Function.update_apply]
      split
      · rfl
      · exact hsome
    have hempty : ¬(s.keys slot).isSome := by rw [hkey]; exact Bool.false_ne_true
    refine ⟨l, h.counter, h.nodup, fun slot' hmem => hold slot' (h.filled slot' hmem), fun i' slot' hi' => ?_,
      fun i' slot' id hi' => ?_, fun slot' hsome => ?_, fun m slot' hm => ?_⟩
    · rcases update_eq_iff.mp hi' with ⟨rfl, heq⟩ | ⟨-, hi'⟩
      · cases heq
        refine ⟨fun hmem => hempty (h.filled slot hmem), Option.isSome_iff_exists.mpr ⟨key, Function.update_self _ _ _⟩, fun i'' hi'' => ?_⟩
        rcases update_eq_iff.mp hi'' with ⟨rfl, -⟩ | ⟨-, hi''⟩
        · rfl
        · exact absurd (h.counting i'' slot hi'').2.1 hempty
      · obtain ⟨hnot, hsome, hone⟩ := h.counting i' slot' hi'
        refine ⟨hnot, hold slot' hsome, fun i'' hi'' => ?_⟩
        rcases update_eq_iff.mp hi'' with ⟨-, heq⟩ | ⟨-, hi''⟩
        · cases heq
          exact absurd hsome hempty
        · exact hone i'' hi''
    · rcases update_eq_iff.mp hi' with ⟨-, heq⟩ | ⟨-, hi'⟩
      · cases heq
      · exact h.storing i' slot' id hi'
    · by_cases heq : slot' = slot
      · exact .inr ⟨i, update_eq_iff.mpr (.inl ⟨rfl, heq ▸ rfl⟩)⟩
      · dsimp only at hsome
        rw [Function.update_of_ne heq] at hsome
        exact (h.counted slot' hsome).imp_right fun ⟨i', hi'⟩ => ⟨i', update_keep hi' (by simp [hi])⟩
    · exact (h.stored m slot' hm).imp_right fun ⟨i', hi'⟩ => ⟨i', update_keep hi' (by simp [hi])⟩
  · refine ⟨l, h.of_threads (by simp [hi]) (by simp [hi]) ?_ ?_⟩
    all_goals
      intros
      split <;> exact Insert.noConfusion
  · obtain ⟨hnot, hsome, hone⟩ := h.counting i slot hi
    have hlt := hcounter slot hi
    refine ⟨l ++ [slot], ?_, ?_, fun slot' hmem => ?_, fun i' slot' hi' => ?_, fun i' slot' id hi' => ?_, fun slot' hsome' => ?_,
      fun m slot' hm => ?_⟩
    · dsimp only
      rw [h.counter, Nat.mod_eq_of_lt hlt, List.length_append, List.length_singleton, Nat.add_assoc]
    · exact List.nodup_append.mpr ⟨h.nodup, List.nodup_singleton _, fun a ha b hb heq => hnot (List.mem_singleton.mp hb ▸ heq ▸ ha)⟩
    · rcases List.mem_append.mp hmem with hmem | hmem
      · exact h.filled slot' hmem
      · exact List.mem_singleton.mp hmem ▸ hsome
    · rcases update_eq_iff.mp hi' with ⟨-, heq⟩ | ⟨hne, hi'⟩
      · cases heq
      · obtain ⟨hnot', hsome', hone'⟩ := h.counting i' slot' hi'
        refine ⟨fun hmem => ?_, hsome', fun i'' hi'' => ?_⟩
        · rcases List.mem_append.mp hmem with hmem | hmem
          · exact hnot' hmem
          · exact hne (hone i' (List.mem_singleton.mp hmem ▸ hi'))
        · rcases update_eq_iff.mp hi'' with ⟨-, heq⟩ | ⟨-, hi''⟩
          · cases heq
          · exact hone' i'' hi''
    · rcases update_eq_iff.mp hi' with ⟨-, heq⟩ | ⟨-, hi'⟩
      · cases heq
        exact ⟨l.length, List.getElem?_concat_length, h.counter⟩
      · obtain ⟨m, hm, hid⟩ := h.storing i' slot' id hi'
        exact ⟨m, by rwa [List.getElem?_append_left (List.getElem?_eq_some_iff.mp hm).1], hid⟩
    · rcases h.counted slot' hsome' with hmem | ⟨i', hi'⟩
      · exact .inl (List.mem_append_left _ hmem)
      · by_cases heq : i' = i
        · subst heq
          cases hi.symm.trans hi'
          exact .inl (List.mem_append_right _ (List.mem_singleton_self _))
        · exact .inr ⟨i', update_eq_iff.mpr (.inr ⟨heq, hi'⟩)⟩
    · by_cases hinside : m < l.length
      · rw [List.getElem?_append_left hinside] at hm
        exact (h.stored m slot' hm).imp_right fun ⟨i', hi'⟩ => ⟨i', update_keep hi' (by simp [hi])⟩
      · have hlength := (List.getElem?_eq_some_iff.mp hm).1
        rw [List.length_append, List.length_singleton] at hlength
        obtain rfl : m = l.length := by omega
        rw [List.getElem?_concat_length] at hm
        cases hm
        exact .inr ⟨i, update_eq_iff.mpr (.inl ⟨rfl, congrArg _ h.counter⟩)⟩
  · obtain ⟨m, hm, rfl⟩ := h.storing i slot id hi
    refine ⟨l, h.counter, h.nodup, h.filled, fun i' slot' hi' => ?_, fun i' slot' id hi' => ?_, fun slot' hsome => ?_,
      fun m' slot' hm' => ?_⟩
    · rcases update_eq_iff.mp hi' with ⟨-, heq⟩ | ⟨-, hi'⟩
      · cases heq
      · obtain ⟨hnot, hsome, hone⟩ := h.counting i' slot' hi'
        refine ⟨hnot, hsome, fun i'' hi'' => ?_⟩
        rcases update_eq_iff.mp hi'' with ⟨-, heq⟩ | ⟨-, hi''⟩
        · cases heq
        · exact hone i'' hi''
    · rcases update_eq_iff.mp hi' with ⟨-, heq⟩ | ⟨-, hi'⟩
      · cases heq
      · exact h.storing i' slot' id hi'
    · exact (h.counted slot' hsome).imp_right fun ⟨i', hi'⟩ => ⟨i', update_keep hi' (by simp [hi])⟩
    · by_cases heq : slot' = slot
      · subst heq
        have hmm : m' = m := (List.getElem?_inj (List.getElem?_eq_some_iff.mp hm').1 h.nodup).mp (hm'.trans hm.symm)
        exact .inl (update_eq_iff.mpr (.inl ⟨rfl, hmm ▸ rfl⟩))
      · refine (h.stored m' slot' hm').imp (fun hvalue => update_eq_iff.mpr (.inr ⟨heq, hvalue⟩)) fun ⟨i', hi'⟩ =>
          ⟨i', update_keep hi' ?_⟩
        rw [hi]
        exact fun h => heq (Insert.storing.inj h).1.symm

theorem Build.start_threads {values : ℕ → ℕ} (hthread : (Build.start param cloud base values).threads i ≠ .done) :
    ∃ key, param.keyAt cloud i = some key ∧ (Build.start param cloud base values).threads i = .probing key 0 := by
  cases h : param.keyAt cloud i with
  | none => exact absurd (by simp [Build.start, h]) hthread
  | some key => exact ⟨key, rfl, by simp [Build.start, h]⟩

theorem Build.table_start (values : ℕ → ℕ) : (Build.start param cloud base values).Table param cloud := by
  refine ⟨fun _ _ h => (nomatch h), fun _ _ h => (nomatch h), fun i key j h => ?_, fun i key h => .inl ⟨0, ?_⟩, fun i h => ?_⟩
  · obtain ⟨key', hkey, hthread⟩ := Build.start_threads (i := i) (by rw [h]; exact Insert.noConfusion)
    cases hthread.symm.trans h
    exact ⟨hkey, fun _ h => absurd h (Nat.not_lt_zero _)⟩
  · unfold Build.start
    dsimp only
    rw [h]
  · obtain ⟨key, hkey, -⟩ := Build.start_threads h
    by_contra hlt
    rw [keyAt, List.getElem?_eq_none (not_lt.mp hlt)] at hkey
    cases hkey

theorem Build.counted_start (values : ℕ → ℕ) : (Build.start param cloud base values).Counted base [] := by
  refine ⟨rfl, .nil, fun _ h => absurd h List.not_mem_nil, fun i slot h => ?_, fun i slot id h => ?_, fun _ h => (nomatch h),
    fun _ _ h => (nomatch h)⟩
  all_goals
    obtain ⟨key, -, hthread⟩ := Build.start_threads (i := i) (by rw [h]; exact Insert.noConfusion)
    cases hthread.symm.trans h

theorem Built.table {values : ℕ → ℕ} (h : param.Built cloud base values s) : s.Table param cloud :=
  h.invariant (fun _ h => h ▸ Build.table_start values) fun _ _ _ h _ hstep => h.step hstep

theorem Built.counted {values : ℕ → ℕ} (hbase : base + (param.keySet cloud).card < 2 ^ 32)
    (h : param.Built cloud base values s) : ∃ l, s.Counted base l := by
  have hboth : s.Table param cloud ∧ ∃ l, s.Counted base l :=
    h.invariant (I := fun s => s.Table param cloud ∧ ∃ l, s.Counted base l)
      (fun _ h => h ▸ ⟨Build.table_start values, [], Build.counted_start values⟩)
      fun s i _ ⟨htable, l, hl⟩ _ hstep => ⟨htable.step hstep, hl.step (fun slot hi => by
        obtain ⟨hnot, hsome, -⟩ := hl.counting i slot hi
        have hle := htable.length_le (List.nodup_cons.mpr ⟨hnot, hl.nodup⟩) (List.forall_mem_cons.mpr ⟨hsome, hl.filled⟩)
        rw [List.length_cons] at hle
        omega) hstep⟩
  exact hboth.2

/-! ### The loop of a search -/

theorem card_keySet_le : (param.keySet cloud).card ≤ cloud.length :=
  Finset.card_image_le.trans ((List.toFinset_card_le _).trans (List.length_filterMap_le _ _))

/-- How many steps a thread has left at most, where `n` is the number of keys. -/
def Insert.left (n : ℕ) : Insert → ℕ
  | .probing _ j => n - j + 3
  | .counting _ => 2
  | .storing _ _ => 1
  | .done => 0

def Build.left (n : ℕ) (cloud : Cloud) (s : Build) : ℕ := ∑ i ∈ Finset.range cloud.length, (s.threads i).left n

theorem Build.Table.left_lt (hpos : 0 < cloud.length) (h : s.Table param cloud) (hstep : s.step cloud i = some s') :
    s'.left (param.keySet cloud).card cloud < s.left (param.keySet cloud).card cloud := by
  have hthread : ∃ x, s'.threads = Function.update s.threads i x ∧
      x.left (param.keySet cloud).card < (s.threads i).left (param.keySet cloud).card := by
    rcases Build.step_cases hstep with ⟨key, j, hi, hkey, rfl⟩ | ⟨key, j, pre, hi, hkey, rfl⟩ | ⟨slot, hi, rfl⟩ | ⟨slot, id, hi, rfl⟩
    · refine ⟨_, rfl, ?_⟩
      simp only [hi, Insert.left]
      omega
    · refine ⟨_, rfl, ?_⟩
      rw [hi]
      split
      · exact Nat.succ_pos _
      · rename_i hne
        have hpassed := (h.probing i key j hi).2.succ hkey hne
        have hcard : (param.keySet cloud).card ≤ cloud.length := card_keySet_le
        have hle := hpassed.le_card h.placed h.mem (by unfold hashSize; omega)
        simp only [Insert.left]
        omega
    · exact ⟨_, rfl, by simp [hi, Insert.left]⟩
    · exact ⟨_, rfl, by simp [hi, Insert.left]⟩
  obtain ⟨x, hx, hlt⟩ := hthread
  have hmem : i < cloud.length := h.inside i fun hi => by rw [hi] at hlt; exact Nat.not_lt_zero _ hlt
  unfold Build.left
  rw [hx]
  refine Finset.sum_lt_sum (fun i' _ => ?_) ⟨i, Finset.mem_range.mpr hmem, by rwa [Function.update_self]⟩
  by_cases heq : i' = i
  · subst heq
    rw [Function.update_self]
    exact hlt.le
  · rw [Function.update_of_ne heq]

/-- A run is no longer than the steps that are left at its start. -/
theorem Build.Table.length_exec (hpos : 0 < cloud.length) : ∀ {l : List ℕ} {s s' : Build}, s.Table param cloud →
    exec (Build.step cloud) anyStep s l = some s' → l.length ≤ s.left (param.keySet cloud).card cloud
  | [], _, _, _, _ => Nat.zero_le _
  | i :: l, s, s', h, hexec => by
    rw [exec, if_pos (show anyStep s i from trivial)] at hexec
    obtain ⟨t, ht, hexec⟩ := Option.bind_eq_some_iff.mp hexec
    have hle := (h.step ht).length_exec hpos hexec
    have hlt := h.left_lt hpos ht
    rw [List.length_cons]
    omega

/-! ### After the first kernel -/

theorem cellAt_lt {p low size : ℚ} {grid c : ℕ} (h : cellAt p low size grid = some c) : c < grid := by
  unfold cellAt at h
  dsimp only at h
  split at h
  · cases h
  · cases h
    omega

/-- A voxel of the grid has a key of its own, which is not that of an empty slot. -/
theorem keyOf_spec {voxel : Int3} (h : voxel ∈ param.occupied cloud) :
    voxel.x < param.grid_size.x ∧ voxel.y < param.grid_size.y ∧
      param.keyOf voxel = (voxel.z * param.grid_size.y + voxel.y) * param.grid_size.x + voxel.x ∧ param.keyOf voxel < emptyKey := by
  obtain ⟨p, -, hp⟩ := List.mem_filterMap.mp (List.mem_toFinset.mp h)
  obtain ⟨x, hx, hp⟩ := Option.bind_eq_some_iff.mp hp
  obtain ⟨y, hy, hp⟩ := Option.bind_eq_some_iff.mp hp
  obtain ⟨z, hz, hp⟩ := Option.bind_eq_some_iff.mp hp
  cases hp
  have hlt := RowMajor.lt_mul (RowMajor.lt_mul (cellAt_lt hz) (cellAt_lt hy)) (cellAt_lt hx)
  have hgrid := param.grid_lt
  have hprod : param.grid_size.x * param.grid_size.y * param.grid_size.z = param.grid_size.z * param.grid_size.y * param.grid_size.x := by
    ring
  have hkey : param.keyOf ⟨x, y, z⟩ = (z * param.grid_size.y + y) * param.grid_size.x + x :=
    Nat.mod_eq_of_lt (by unfold emptyKey at hgrid; dsimp only; omega)
  exact ⟨cellAt_lt hx, cellAt_lt hy, hkey, by omega⟩

theorem keyOf_injOn : Set.InjOn param.keyOf (param.occupied cloud) := fun voxel hvoxel voxel' hvoxel' heq => by
  obtain ⟨hx, hy, hkey, -⟩ := keyOf_spec hvoxel
  obtain ⟨hx', hy', hkey', -⟩ := keyOf_spec hvoxel'
  rw [hkey, hkey'] at heq
  obtain ⟨hyz, hx⟩ := RowMajor.inj hx hx' heq
  obtain ⟨hz, hy⟩ := RowMajor.inj hy hy' hyz
  cases voxel
  cases voxel'
  cases hx
  cases hy
  cases hz
  rfl

theorem card_keySet : (param.keySet cloud).card = (param.occupied cloud).card := Finset.card_image_of_injOn keyOf_injOn

/-- When all threads are done, the slots that have been counted are those of the voxels. -/
theorem numbered {values : ℕ → ℕ} (hpos : 0 < cloud.length) (hbase : base + (param.occupied cloud).card < 2 ^ 32)
    (h : param.Built cloud base values s) (hdone : s.Done cloud) :
    s.counter = base + (param.occupied cloud).card ∧ ∃ ids, param.Numbered cloud base s ids := by
  have htable := h.table
  obtain ⟨l, hl⟩ := h.counted (card_keySet ▸ hbase)
  have hthread : ∀ {i x}, s.threads i = x → x ≠ .done → False := fun {i x} hi hne =>
    hne (hi ▸ hdone i (htable.inside i (hi ▸ hne)))
  have hslot : ∀ {slot}, (s.keys slot).isSome → slot ∈ l := fun hsome =>
    (hl.counted _ hsome).resolve_right fun ⟨i, hi⟩ => hthread hi Insert.noConfusion
  have hplace : ∀ key ∈ param.keySet cloud, ∃ m slot, l[m]? = some slot ∧ s.keys slot = some key ∧ s.values slot = base + m := by
    intro key hkey
    obtain ⟨voxel, hvoxel, rfl⟩ := Finset.mem_image.mp hkey
    obtain ⟨p, hp, hvoxel⟩ := List.mem_filterMap.mp (List.mem_toFinset.mp hvoxel)
    obtain ⟨i, hi⟩ := List.getElem?_of_mem hp
    have hkeyAt : param.keyAt cloud i = some (param.keyOf voxel) := by
      rw [keyAt, hi, Option.bind_some, hvoxel, Option.map_some]
    obtain ⟨slot, hkey⟩ := (htable.inserted i _ hkeyAt).resolve_left fun ⟨j, hj⟩ => hthread hj Insert.noConfusion
    obtain ⟨m, hm⟩ := List.getElem?_of_mem (hslot (Option.isSome_iff_exists.mpr ⟨_, hkey⟩))
    exact ⟨m, slot, hm, hkey, (hl.stored m slot hm).resolve_right fun ⟨i, hi⟩ => hthread hi Insert.noConfusion⟩
  choose! f slots hf using hplace
  have hmem : ∀ {voxel}, voxel ∈ param.occupied cloud → param.keyOf voxel ∈ param.keySet cloud := Finset.mem_image_of_mem _
  have hinj : Set.InjOn (fun voxel => base + f (param.keyOf voxel)) (param.occupied cloud) := fun voxel hvoxel voxel' hvoxel' heq => by
    obtain ⟨hm, hkey, -⟩ := hf _ (hmem hvoxel)
    obtain ⟨hm', hkey', -⟩ := hf _ (hmem hvoxel')
    rw [← Nat.add_left_cancel heq, hm] at hm'
    rw [← Option.some.inj hm', hkey] at hkey'
    exact keyOf_injOn hvoxel hvoxel' (Option.some.inj hkey')
  have hlength : l.length = (param.occupied cloud).card := by
    refine le_antisymm (card_keySet ▸ htable.length_le hl.nodup hl.filled) ?_
    have hle := Finset.card_le_card_of_injOn (t := Finset.range l.length) _ (fun voxel hvoxel => ?_) fun voxel hvoxel voxel' hvoxel' heq =>
      hinj hvoxel hvoxel' (congrArg (base + ·) heq)
    · rwa [Finset.card_range] at hle
    · exact Finset.mem_coe.mpr (Finset.mem_range.mpr (List.getElem?_eq_some_iff.mp (hf _ (hmem hvoxel)).1).1)
  have hmaps : Set.MapsTo (fun voxel => base + f (param.keyOf voxel)) (param.occupied cloud)
      (Finset.Ico base (base + (param.occupied cloud).card)) := fun voxel hvoxel => by
    have hlt := (List.getElem?_eq_some_iff.mp (hf _ (hmem hvoxel)).1).1
    exact Finset.mem_coe.mpr (Finset.mem_Ico.mpr ⟨Nat.le_add_right _ _, Nat.add_lt_add_left (hlength ▸ hlt) _⟩)
  refine ⟨hlength ▸ hl.counter, fun voxel => base + f (param.keyOf voxel),
    ⟨hmaps, hinj, Finset.surjOn_of_injOn_of_card_le _ hmaps hinj (by simp)⟩, fun slot key hkey => ?_, fun voxel hvoxel => ?_⟩
  · obtain ⟨voxel, hvoxel, rfl⟩ := Finset.mem_image.mp (htable.mem slot key hkey)
    obtain ⟨-, hkey', hvalue⟩ := hf _ (hmem hvoxel)
    exact ⟨voxel, hvoxel, rfl, htable.placed.inj hkey hkey' ▸ hvalue⟩
  · obtain ⟨-, hkey, hvalue⟩ := hf _ (hmem hvoxel)
    obtain ⟨j, hj, hpassed⟩ := htable.placed _ _ hkey
    have hcard : (param.keySet cloud).card ≤ cloud.length := card_keySet_le
    have hsize : (param.keySet cloud).card < hashSize cloud := by
      unfold hashSize
      omega
    have hle := hpassed.le_card htable.placed htable.mem hsize
    rw [Build.lookup, lookup_eq (hj ▸ hkey) hpassed (Nat.zero_le _) (by omega), ← hj, hvalue]
    rfl

/-! ### The rows of the voxels -/

section

variable {ids : Int3 → ℕ} {voxel : Int3} {t t' : Scatter} {rows : ℕ → ℕ → Option ℕ} {arrived : ℕ → List ℕ}

theorem mem_occupied (h : i ∈ param.pointsOf cloud voxel) : voxel ∈ param.occupied cloud := by
  obtain ⟨p, hp, -, hvoxel⟩ := (Finset.mem_filter.mp h).2
  exact List.mem_toFinset.mpr (List.mem_filterMap.mpr ⟨p, List.mem_of_getElem? hp, hvoxel⟩)

/-- The points in range go to the voxel that they are in, unless it is beyond the limit. -/
theorem entry_eq_iff (h : param.Numbered cloud base s ids) (hbase : base + (param.occupied cloud).card < 2 ^ 32) :
    param.entry cloud s base i = .adding id ↔
      ∃ voxel, i ∈ param.pointsOf cloud voxel ∧ ids voxel - base = id ∧ id < param.max_voxels := by
  have hmem : ∀ {voxel}, i ∈ param.pointsOf cloud voxel ↔ ∃ p, cloud[i]? = some p ∧ param.InRange p ∧ param.voxelAt p = some voxel := by
    intro voxel
    rw [pointsOf, Finset.mem_filter, Finset.mem_range]
    exact and_iff_right_of_imp fun ⟨p, hp, _⟩ => (List.getElem?_eq_some_iff.mp hp).1
  have hid : ∀ {voxel}, voxel ∈ param.occupied cloud → (ids voxel + 2 ^ 32 - base % 2 ^ 32) % 2 ^ 32 = ids voxel - base := by
    intro voxel hvoxel
    have hico := Finset.mem_Ico.mp (Finset.mem_coe.mp (h.bijOn.mapsTo hvoxel))
    omega
  simp only [hmem]
  unfold entry keyAt
  cases hp : cloud[i]? with
  | none => simp
  | some p =>
    cases hvoxel : param.voxelAt p with
    | none => simp [hvoxel]
    | some voxel =>
      have hoccupied : voxel ∈ param.occupied cloud :=
        List.mem_toFinset.mpr (List.mem_filterMap.mpr ⟨p, List.mem_of_getElem? hp, hvoxel⟩)
      simp only [Option.bind_some, hvoxel, Option.map_some, h.lookup voxel hoccupied, hid hoccupied]
      have hone : (∃ voxel', (∃ p', some p = some p' ∧ param.InRange p' ∧ param.voxelAt p' = some voxel') ∧
          ids voxel' - base = id ∧ id < param.max_voxels) ↔ param.InRange p ∧ ids voxel - base = id ∧ id < param.max_voxels := by
        simp [hvoxel, and_assoc]
      rw [hone]
      split
      · rename_i hrange
        rw [and_iff_right hrange]
        split
        · exact iff_of_false Store.noConfusion fun h => by omega
        · rw [Store.adding.injEq]
          omega
      · rename_i hrange
        exact iff_of_false Store.noConfusion fun h => hrange h.1

/-- The threads in `arrived` have added to the counter of a voxel, in this order. -/
structure Scatter.Arrived (param : VoxelizationParameter) (E : ℕ → Store) (t : Scatter) (arrived : ℕ → List ℕ) : Prop where
  counts : ∀ id, t.counts id = (arrived id).length
  nodup : ∀ id, (arrived id).Nodup
  mem : ∀ i id, E i = .adding id ↔ t.threads i = .adding id ∨ i ∈ arrived id
  adding : ∀ i id, t.threads i = .adding id → i ∉ arrived id
  writing : ∀ i id n, t.threads i = .writing id n → (arrived id)[n]? = some i ∧ n < param.max_points_per_voxel
  rows : ∀ id n i, (arrived id)[n]? = some i → n < param.max_points_per_voxel →
    t.rows id n = some i ∨ t.threads i = .writing id n

theorem Scatter.Arrived.step {E : ℕ → Store} (h : t.Arrived param E arrived) (hstep : t.step param i = some t') :
    ∃ arrived', t'.Arrived param E arrived' := by
  unfold Scatter.step at hstep
  split at hstep
  · rename_i id hi
    cases hstep
    have hmem : ∀ {i' id'}, i' ∈ Function.update arrived id (arrived id ++ [i]) id' ↔ i' ∈ arrived id' ∨ i' = i ∧ id' = id := by
      intro i' id'
      rw [Function.update_apply]
      split <;> simp [*]
    have hget : ∀ {i' id' n}, (Function.update arrived id (arrived id ++ [i]) id')[n]? = some i' ↔
        (arrived id')[n]? = some i' ∨ i' = i ∧ id' = id ∧ n = (arrived id).length := by
      intro i' id' n
      rw [Function.update_apply]
      split
      · rename_i heq
        rw [List.getElem?_append, heq]
        split <;> grind
      · simp [*]
    have hx : ∀ {id'}, (if param.max_points_per_voxel ≤ t.counts id then Store.done else .writing id (t.counts id)) ≠ .adding id' := by
      intro id'
      split <;> exact Store.noConfusion
    have hE : ∀ {id'}, i ∈ arrived id' → id' = id := fun {id'} hmem' => by
      have hentry := (h.mem i id').mpr (.inr hmem')
      rw [(h.mem i id).mpr (.inl hi)] at hentry
      exact (Store.adding.inj hentry).symm
    refine ⟨Function.update arrived id (arrived id ++ [i]), fun id' => ?_, fun id' => ?_, fun i' id' => ?_, fun i' id' hi' => ?_,
      fun i' id' n hi' => ?_, fun id' n i' hi' hn => ?_⟩
    · dsimp only
      rw [Function.update_apply, Function.update_apply]
      split
      · rw [h.counts, List.length_append, List.length_singleton]
      · exact h.counts id'
    · rw [Function.update_apply]
      split
      · exact List.nodup_append.mpr ⟨h.nodup id, List.nodup_singleton _, fun a ha b hb heq =>
          h.adding i id hi (List.mem_singleton.mp hb ▸ heq ▸ ha)⟩
      · exact h.nodup id'
    · rw [h.mem, hmem, update_eq_iff_of_ne hx]
      by_cases heq : i' = i
      · subst heq
        rw [hi, Store.adding.injEq]
        have := @hE id'
        tauto
      · tauto
    · rcases update_eq_iff.mp hi' with ⟨-, heq⟩ | ⟨hne, hi'⟩
      · exact absurd heq hx
      · exact fun h' => (hmem.mp h').elim (h.adding i' id' hi') fun h => hne h.1
    · rcases update_eq_iff.mp hi' with ⟨rfl, heq⟩ | ⟨-, hi'⟩
      · split at heq
        · cases heq
        · cases heq
          exact ⟨hget.mpr (.inr ⟨rfl, rfl, h.counts id⟩), by omega⟩
      · exact (h.writing i' id' n hi').imp_left fun h => hget.mpr (.inl h)
    · rcases hget.mp hi' with hi' | ⟨rfl, rfl, hlength⟩
      · exact (h.rows id' n i' hi' hn).imp_right fun hi' => update_keep hi' (by simp [hi])
      · rw [← h.counts] at hlength
        subst hlength
        exact .inr (update_eq_iff.mpr (.inl ⟨rfl, if_neg (not_le.mpr hn)⟩))
  · rename_i id n hi
    cases hstep
    refine ⟨arrived, h.counts, h.nodup, fun i' id' => ?_, fun i' id' hi' => ?_, fun i' id' n' hi' => ?_, fun id' n' i' hi' hn => ?_⟩
    · rw [h.mem, update_eq_iff_of_ne Store.noConfusion]
      refine or_congr_left ⟨fun h => ⟨fun heq => ?_, h⟩, And.right⟩
      subst heq
      cases hi.symm.trans h
    · rcases update_eq_iff.mp hi' with ⟨-, heq⟩ | ⟨-, hi'⟩
      · cases heq
      · exact h.adding i' id' hi'
    · rcases update_eq_iff.mp hi' with ⟨-, heq⟩ | ⟨-, hi'⟩
      · cases heq
      · exact h.writing i' id' n' hi'
    · by_cases hrow : id' = id ∧ n' = n
      · obtain ⟨rfl, rfl⟩ := hrow
        cases hi'.symm.trans (h.writing i id' n' hi).1
        exact .inl (by simp)
      · refine (h.rows id' n' i' hi' hn).imp (fun hrows => ?_) fun hi' => update_keep hi' ?_
        · dsimp only
          rw [← hrows, Function.update_apply]
          split
          · rename_i heq
            rw [Function.update_of_ne fun heq' => hrow ⟨heq, heq'⟩, heq]
          · rfl
        · rw [hi]
          rintro h
          cases h
          exact hrow ⟨rfl, rfl⟩
  · cases hstep
    exact ⟨arrived, h⟩
  · cases hstep

theorem Scattered.exists_arrived (h : param.Scattered cloud base s rows t) : ∃ arrived, t.Arrived param (param.entry cloud s base) arrived := by
  refine h.invariant (I := fun t => ∃ arrived, t.Arrived param (param.entry cloud s base) arrived)
    (fun t ht => ⟨fun _ => [], ?_⟩) fun t i t' ⟨arrived, h⟩ _ hstep => h.step hstep
  subst ht
  refine ⟨fun _ => rfl, fun _ => .nil, fun _ _ => by simp [Scatter.start], fun _ _ _ => List.not_mem_nil, fun i id n hi => ?_,
    fun _ _ _ h => (nomatch h)⟩
  have hentry : param.entry cloud s base i = .writing id n := hi
  unfold entry at hentry
  grind

/-- When all threads are done, the voxels hold their points. -/
theorem held (hnumbered : param.Numbered cloud base s ids) (hbase : base + (param.occupied cloud).card < 2 ^ 32)
    (h : param.Scattered cloud base s rows t) (hdone : t.Done cloud) : param.Held cloud base ids t := by
  obtain ⟨arrived, ha⟩ := h.exists_arrived
  have hentry : ∀ {i id}, param.entry cloud s base i = .adding id → t.threads i = .done := fun {i id} hi => by
    obtain ⟨voxel, hmem, -⟩ := (entry_eq_iff hnumbered hbase).mp hi
    exact hdone i (Finset.mem_range.mp (Finset.mem_filter.mp hmem).1)
  intro voxel hvoxel hlt
  have hmem : ∀ i, i ∈ arrived (ids voxel - base) ↔ i ∈ param.pointsOf cloud voxel := fun i => by
    have hiff := ha.mem i (ids voxel - base)
    rw [entry_eq_iff hnumbered hbase] at hiff
    refine ⟨fun hi => ?_, fun hi => ?_⟩
    · obtain ⟨voxel', hi', hid, -⟩ := hiff.mpr (.inr hi)
      have hico := Finset.mem_Ico.mp (Finset.mem_coe.mp (hnumbered.bijOn.mapsTo hvoxel))
      have hico' := Finset.mem_Ico.mp (Finset.mem_coe.mp (hnumbered.bijOn.mapsTo (mem_occupied hi')))
      have heq : ids voxel = ids voxel' := by
        clear hiff
        omega
      rwa [hnumbered.bijOn.injOn hvoxel (mem_occupied hi') heq]
    · refine (hiff.mp ⟨voxel, hi, rfl, hlt⟩).resolve_left fun hthread => ?_
      rw [hdone i (Finset.mem_range.mp (Finset.mem_filter.mp hi).1)] at hthread
      cases hthread
  have hcard : (arrived (ids voxel - base)).length = (param.pointsOf cloud voxel).card := by
    rw [← List.toFinset_card_of_nodup (ha.nodup _)]
    exact congrArg _ (Finset.ext fun i => List.mem_toFinset.trans (hmem i))
  refine ⟨(arrived (ids voxel - base)).take param.max_points_per_voxel, (ha.nodup _).sublist (List.take_sublist _ _), ?_,
    fun i hi => (hmem i).mp (List.mem_of_mem_take hi), fun n hn => ?_⟩
  · rw [List.length_take, hcard, min_comm]
  · rw [List.length_take] at hn
    rw [List.getElem?_take_of_lt (by omega)]
    obtain ⟨i, hi⟩ : ∃ i, (arrived (ids voxel - base))[n]? = some i := ⟨_, List.getElem?_eq_getElem (by omega)⟩
    rw [hi]
    refine (ha.rows _ n i hi (by omega)).resolve_right fun hthread => ?_
    rw [hentry ((ha.mem i (ids voxel - base)).mpr (.inr (List.mem_of_getElem? hi)))] at hthread
    cases hthread

/-! ### The arrays -/

/-- The arrays that `init` makes when the products fit. -/
def arrays (param : VoxelizationParameter) : Arrays where
  hashTable := param.max_points * 2 * 2 * 4 % 2 ^ 32 / 4
  perVoxelNum := param.max_voxels
  voxelFeatures := param.max_batch * param.max_voxels * param.max_points_per_voxel * voxelFeatureSize
  voxelIndices := param.max_batch * param.max_voxels

/-- The products of `init` fit. -/
structure SizesFit (param : VoxelizationParameter) : Prop where
  points : param.max_points * 2 * 2 < 2 ^ 31
  features : param.max_batch * param.max_voxels * param.max_points_per_voxel * voxelFeatureSize < 2 ^ 31

theorem SizesFit.rows_lt (h : param.SizesFit) : param.max_batch * param.max_voxels * 9 < 2 ^ 31 := by
  have hfeatures := h.features
  unfold voxelFeatureSize at hfeatures
  have hle := Nat.le_mul_of_pos_right (param.max_batch * param.max_voxels) param.points_pos
  omega

theorem SizesFit.init_eq (h : param.SizesFit) (hbatch : 0 < param.max_batch) : param.init = some param.arrays := by
  obtain ⟨hpoints, hfeatures⟩ := h
  have hrows := SizesFit.rows_lt ⟨hpoints, hfeatures⟩
  have hle := Nat.le_mul_of_pos_left param.max_voxels hbatch
  unfold init arrays
  rw [if_neg (by omega), Option.some.injEq, Arrays.mk.injEq]
  omega

/-- A number of a row lies in the features. -/
theorem SizesFit.features_lt (h : param.SizesFit) {k : ℕ} (hrow : base + id < param.max_batch * param.max_voxels)
    (hpoint : i < param.max_points_per_voxel) (hk : k < voxelFeatureSize) :
    param.features base + ((id * param.max_points_per_voxel + i) * voxelFeatureSize + k) % 2 ^ 32 < param.arrays.voxelFeatures := by
  have hfeatures := h.features
  have hpoint := RowMajor.lt_mul hrow hpoint
  rw [Nat.add_mul] at hpoint
  unfold VoxelizationParameter.features arrays
  unfold voxelFeatureSize at *
  dsimp only
  omega

theorem Scattered.cells_inside (h : param.SizesFit) (hnumbered : param.Numbered cloud base s ids)
    (hbase : base + (param.occupied cloud).card ≤ param.max_batch * param.max_voxels) (ht : param.Scattered cloud base s rows t)
    {c : Cell} (hc : c ∈ t.cells param base i) : c.Inside param.arrays := by
  obtain ⟨arrived, ha⟩ := ht.exists_arrived
  have hrows := h.rows_lt
  have hid : ∀ {id}, param.entry cloud s base i = .adding id →
      base + id < param.max_batch * param.max_voxels ∧ id < param.max_voxels := fun {id} hi => by
    obtain ⟨voxel, hmem, rfl, hlt⟩ := (entry_eq_iff hnumbered (by omega)).mp hi
    have hico := Finset.mem_Ico.mp (Finset.mem_coe.mp (hnumbered.bijOn.mapsTo (mem_occupied hmem)))
    exact ⟨by omega, hlt⟩
  unfold Scatter.cells at hc
  split at hc
  · rename_i id hi
    rw [List.mem_singleton.mp hc]
    exact (hid ((ha.mem i id).mpr (.inl hi))).2
  · rename_i id n hi
    obtain ⟨hget, hn⟩ := ha.writing i id n hi
    have hrow := (hid ((ha.mem i id).mpr (.inr (List.mem_of_getElem? hget)))).1
    rcases List.mem_cons.mp hc with rfl | hc
    · exact hrow
    · obtain ⟨k, hk, rfl⟩ := List.mem_map.mp hc
      exact h.features_lt hrow hn ((List.mem_range.mp hk).trans (by decide))
  · cases hc

theorem computeCells_inside (h : param.SizesFit) {n : ℕ} (hbase : base + n ≤ param.max_batch * param.max_voxels)
    {counts : ℕ → ℕ} {block thread row : ℕ} {c : Cell} (hc : c ∈ param.computeCells base n counts block thread row) :
    c.Inside param.arrays := by
  unfold computeCells at hc
  dsimp only at hc
  split at hc
  · cases hc
  rename_i hvoxel
  rw [not_or, not_le] at hvoxel
  have hpoint := Nat.mod_lt thread param.points_pos
  have hrow := (Nat.add_lt_add_left hvoxel.1 base).trans_le hbase
  split at hc
  · obtain ⟨k, hk, rfl⟩ := List.mem_map.mp hc
    exact h.features_lt hrow hpoint (List.mem_range.mp hk)
  · obtain ⟨k, hk, rfl⟩ := List.mem_map.mp hc
    have hlt : ∀ k ∈ [4, 5, 6, 7, 8], k < voxelFeatureSize := by decide
    exact h.features_lt hrow hpoint (hlt k hk)

theorem cloudMeets (h : param.SizesFit) (hpos : 0 < cloud.length) (hroom : 2 * hashSize cloud ≤ param.arrays.hashTable)
    (hbase : base + (param.occupied cloud).card ≤ param.max_batch * param.max_voxels) :
    param.CloudMeets cloud base param.arrays := by
  have hrows := h.rows_lt
  refine ⟨hroom, ⟨(Build.start param cloud base fun _ => 0).left (param.keySet cloud).card cloud, fun values l s hexec => (Build.table_start values).length_exec hpos hexec⟩,
    fun s i hi => ?_, fun values s hs hdone => ?_⟩
  · unfold Build.step
    split
    · dsimp only
      split <;> rfl
    · rfl
    · rfl
    · exact absurd ‹_› hi
  · obtain ⟨hcounter, ids, hids⟩ := numbered hpos (by omega) hs hdone
    refine ⟨⟨ids, hids, fun rows t ht => ⟨fun i c hc => ht.cells_inside h hids hbase hc, fun hdone' =>
      held hids (by omega) ht hdone'⟩⟩, fun counts block thread row c hc => computeCells_inside h ?_ hc⟩
    rw [hcounter]
    omega

end

end

end VoxelizationParameter

/-! ### A batch -/

/-- The clouds that `forward` is called with. -/
structure Batch where
  param : VoxelizationParameter
  clouds : List Cloud
  batch_le : clouds.length ≤ param.max_batch
  points_le : ∀ cloud ∈ clouds, 0 < cloud.length ∧ cloud.length ≤ param.max_points

namespace Batch

/-- The numbers of a cloud start where the counter is after the earlier ones. -/
def MeetFrom (param : VoxelizationParameter) (a : Arrays) : ℕ → List Cloud → Prop
  | _, [] => True
  | base, cloud :: clouds => param.CloudMeets cloud base a ∧
    ∀ values s, param.Built cloud base values s → s.Done cloud → MeetFrom param a s.counter clouds

variable (b : Batch)

def Meets : Prop := ∃ a, b.param.init = some a ∧ MeetFrom b.param a 0 b.clouds

/-- The voxels of all clouds together are no more than the rows. The size of the hash table, in bytes, may be cut. -/
structure Fits : Prop where
  sizes : b.param.SizesFit
  room : ∀ cloud ∈ b.clouds, 2 * VoxelizationParameter.hashSize cloud ≤ b.param.arrays.hashTable
  rows : (b.clouds.map fun cloud => (b.param.occupied cloud).card).sum ≤ b.param.max_batch * b.param.max_voxels

end Batch

open VoxelizationParameter in
/-- Whatever the order of the threads is, every kernel does what is asked if the voxels of the batch fit. -/
theorem voxelization_meets (b : Batch) (h : b.Fits) : b.Meets := by
  rcases Nat.eq_zero_or_pos b.param.max_batch with hbatch | hbatch
  · have hpoints := h.sizes.points
    have hfeatures := h.sizes.features
    have hnil : b.clouds = [] := List.eq_nil_of_length_eq_zero (by have := b.batch_le; omega)
    exact ⟨_, if_neg (by omega), hnil ▸ trivial⟩
  refine ⟨b.param.arrays, h.sizes.init_eq hbatch, ?_⟩
  have hrun : ∀ (clouds : List Cloud) (base : ℕ), (∀ cloud ∈ clouds, 0 < cloud.length ∧ 2 * hashSize cloud ≤ b.param.arrays.hashTable) →
      base + (clouds.map fun cloud => (b.param.occupied cloud).card).sum ≤ b.param.max_batch * b.param.max_voxels →
        Batch.MeetFrom b.param b.param.arrays base clouds := by
    intro clouds
    induction clouds with
    | nil => exact fun _ _ _ => trivial
    | cons cloud clouds ih =>
      intro base hclouds hsum
      obtain ⟨⟨hpos, hle⟩, hclouds⟩ := List.forall_mem_cons.mp hclouds
      rw [List.map_cons, List.sum_cons] at hsum
      have hrows := h.sizes.rows_lt
      refine ⟨cloudMeets h.sizes hpos hle (by omega), fun values s hs hdone => ?_⟩
      rw [(numbered hpos (by omega) hs hdone).1]
      exact ih _ hclouds (by omega)
  exact hrun b.clouds 0 (fun cloud hmem => ⟨(b.points_le cloud hmem).1, h.room cloud hmem⟩) (by have := h.rows; omega)

/-- One row, and a grid of two voxels. -/
def oneRow : VoxelizationParameter where
  min_range := ⟨0, 0, 0⟩
  max_range := ⟨2, 1, 1⟩
  voxel_size := ⟨1, 1, 1⟩
  grid_size := ⟨2, 1, 1⟩
  max_voxels := 1
  max_points_per_voxel := 1
  max_batch := 1
  max_points := 2
  grid_lt := by decide
  voxel_pos := by decide
  points_pos := Nat.one_pos

/-- Two points in one voxel. -/
theorem oneVoxel_meets : (Batch.mk oneRow [[⟨0, 0, 0⟩, ⟨1 / 2, 0, 0⟩]] (by decide) (by decide)).Meets :=
  voxelization_meets _ ⟨⟨by decide, by decide⟩, by decide, by decide +kernel⟩

/-- Two points in two voxels, where one has room. -/
def twoVoxels : Batch := ⟨oneRow, [[⟨0, 0, 0⟩, ⟨1, 0, 0⟩]], by decide, by decide⟩

open VoxelizationParameter in
/-- The last kernel writes behind the row. -/
theorem not_meets_twoVoxels : ¬twoVoxels.Meets := by
  rintro ⟨a, ha, hcloud, -⟩
  have hinit : oneRow.init = some ⟨8, 1, 9, 1⟩ := by decide
  cases Option.some.inj (ha.symm.trans hinit)
  have hrun : (exec (Build.step [⟨0, 0, 0⟩, ⟨1, 0, 0⟩]) anyStep (Build.start oneRow [⟨0, 0, 0⟩, ⟨1, 0, 0⟩] 0 fun _ => 0)
      [0, 0, 0, 1, 1, 1]).map (fun s => (s.counter, s.threads 0, s.threads 1)) = some (2, .done, .done) := by decide +kernel
  obtain ⟨s, hs, hend⟩ := Option.map_eq_some_iff.mp hrun
  obtain ⟨hcounter, hthreads⟩ := Prod.mk.inj hend
  obtain ⟨hzero, hone⟩ := Prod.mk.inj hthreads
  have hdone : s.Done [⟨0, 0, 0⟩, ⟨1, 0, 0⟩] := fun i hi => by
    match i, hi with
    | 0, _ => exact hzero
    | 1, _ => exact hone
  have hcells := (hcloud.built _ s (Reach.of_exec _ (.init rfl) hs) hdone).2 (fun _ => 0) 0 1 0 (.voxelFeatures 9)
  rw [hcounter] at hcells
  exact Nat.lt_irrefl 9 (hcells (by decide +kernel))

end Lidar
end DeepStream
