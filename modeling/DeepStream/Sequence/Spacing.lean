/-
# How far apart frames and sequences are

A call of the library is, for one region, that its ring is made if it has none, that its frames are
offered one after the other, as far as the call gets, and that its sequence is collected if it is
due. So the frames that a region accepts, and the sequences that are collected for it, are as far
apart as the subsample and the stride say, in every run in which the numbers do not wrap around;
and they come exactly then if the frames come one in a call, without gaps.
-/
import DeepStream.Sequence.Clock
import DeepStream.Sequence.Temporal

namespace DeepStream
namespace Sequence

variable {F α : Type*}

def RoiProcessedBuf.clock (b : RoiProcessedBuf F) : Clock := ⟨b.latestFrameNo, b.nextReadyFrameNo, b.processedSeq⟩

theorem RoiProcessedBuf.Ring.clock_accept {cfg : SequenceConfig} {b : RoiProcessedBuf F} (h : b.Ring cfg)
    (u : NvDsPreProcessUnit F) : (b.accept cfg u).clock = b.clock.accept cfg u.frameNum := by
  rcases h.accept_cases u with ⟨hlt, heq⟩ | ⟨hfull, heq⟩
  · rw [heq, clock, Clock.accept]
    congr 1
    exact (Nat.min_eq_left hlt).symm
  · rw [heq, clock, Clock.accept]
    congr 1
    show b.processedSeq = min (b.processedSeq + 1) cfg.seqSize
    omega

/-! ### The history of a region -/

section
variable [Add F] [Mul F] (lib : SequenceImagePreprocess F α) (key : SourceKey)

/-- The numbers of the frames of the region. -/
def numbersOf (fs : List (Frame F)) : List ℕ := (fs.filter (lib.key · = key)).map (·.unit.frameNum)

def historyOf (s : BufferManager F α) (emitted : List ℕ) : History where
  clock := (s.findRoi key).map RoiProcessedBuf.clock
  arrived := numbersOf lib key s.arrived
  accepted := numbersOf lib key s.accepted
  emitted := emitted

variable {lib key}

theorem numbersOf_append (fs gs : List (Frame F)) :
    numbersOf lib key (fs ++ gs) = numbersOf lib key fs ++ numbersOf lib key gs := by
  unfold numbersOf
  rw [List.filter_append, List.map_append]

theorem numbersOf_singleton_of_eq {f : Frame F} (h : lib.key f = key) : numbersOf lib key [f] = [f.unit.frameNum] := by
  simp [numbersOf, h]

theorem numbersOf_singleton_of_ne {f : Frame F} (h : lib.key f ≠ key) : numbersOf lib key [f] = [] := by
  simp [numbersOf, h]

end

/-! ### Lookups -/

namespace BufferManager

variable {lib : SequenceImagePreprocess F α} {s s' : BufferManager F α} {key : SourceKey} {b : RoiProcessedBuf F}

theorem findRoi_eq_some_iff (h : (s.src2dstMap.map Prod.fst).Nodup) :
    s.findRoi key = some b ↔ (key, b) ∈ s.src2dstMap := by
  refine ⟨mem_of_findRoi, fun hmem => ?_⟩
  cases hroi : s.findRoi key with
  | none => exact absurd (List.mem_map_of_mem hmem) (notMem_of_findRoi hroi)
  | some b' =>
    have hpair := List.inj_on_of_nodup_map h (mem_of_findRoi hroi) hmem rfl
    rw [(Prod.mk.inj hpair).2]

/-- The map with an entry for `key'`, which is new or set. -/
theorem findRoi_of_perm (key : SourceKey) {key' : SourceKey} {rest : List (SourceKey × RoiProcessedBuf F)}
    (h : (s.src2dstMap.map Prod.fst).Nodup) (h' : (s'.src2dstMap.map Prod.fst).Nodup)
    (hperm : s'.src2dstMap.Perm ((key', b) :: rest)) (hother : ∀ p, p.1 ≠ key' → (p ∈ rest ↔ p ∈ s.src2dstMap)) :
    s'.findRoi key = if key' = key then some b else s.findRoi key := by
  split
  · rename_i heq
    subst heq
    exact (findRoi_eq_some_iff h').mpr (hperm.mem_iff.mpr List.mem_cons_self)
  · rename_i hne
    refine Option.ext fun c => ?_
    rw [findRoi_eq_some_iff h', findRoi_eq_some_iff h, hperm.mem_iff, List.mem_cons, ← hother (key, c) (Ne.symm hne)]
    exact or_iff_right fun heq => hne (Prod.mk.inj heq).1.symm

section
variable [Add F] [Mul F]

/-- A region that gets its ring. -/
theorem history_addRoi (key : SourceKey) (hrings : s.Rings lib) (hv : lib.cfg.Valid) (u : NvDsPreProcessUnit F)
    (hnew : s.findRoi (getKey lib.int64 u.roiMeta) = none) (emitted : List ℕ) :
    historyOf lib key (s.addRoi lib (getKey lib.int64 u.roiMeta) u) emitted =
      if getKey lib.int64 u.roiMeta = key then (historyOf lib key s emitted).create lib.cfg u.frameNum
      else historyOf lib key s emitted := by
  have hnodup := (hrings.addRoi hv hnew u).keys
  obtain ⟨b, hclock, hperm, harrived, haccepted⟩ : ∃ b : RoiProcessedBuf F,
      b.clock = ⟨RoiProcessedBuf.frameNoNotSet, (u.frameNum + lib.cfg.seqSpan) % 2 ^ 64, 0⟩ ∧
      (s.addRoi lib (getKey lib.int64 u.roiMeta) u).src2dstMap.Perm ((getKey lib.int64 u.roiMeta, b) :: s.src2dstMap) ∧
      (s.addRoi lib (getKey lib.int64 u.roiMeta) u).arrived = s.arrived ∧
      (s.addRoi lib (getKey lib.int64 u.roiMeta) u).accepted = s.accepted := by
    rcases addRoi_cases lib s (getKey lib.int64 u.roiMeta) u with ⟨block, blocks, -, -, heq⟩ | heq
    · rw [heq]
      exact ⟨_, rfl, emplace_perm _ _ _, rfl, rfl⟩
    · rw [heq]
      exact ⟨_, rfl, emplace_perm _ _ _, rfl, rfl⟩
  have hroi := findRoi_of_perm key hrings.keys hnodup hperm fun p _ => Iff.rfl
  unfold historyOf
  rw [hroi, harrived, haccepted]
  split
  · rename_i heq
    subst heq
    rw [hnew]
    exact congrArg (fun t => (⟨some t, _, _, _⟩ : History)) hclock
  · rfl

theorem create_of_some {cfg : SequenceConfig} {r : History} {t : Clock} (h : r.clock = some t) (frameNum : ℕ) :
    r.create cfg frameNum = r := by
  unfold History.create
  rw [h]

/-- The rings that are new are made for the first frames of their regions. -/
theorem history_buildRoiBlocks (key : SourceKey) (hv : lib.cfg.Valid) (emitted : List ℕ)
    (format : NvDsPreProcessFormat) :
    ∀ (us : List (NvDsPreProcessUnit F)) {s : BufferManager F α}, s.Rings lib →
      (buildRoiBlocks lib us s).Rings lib ∧ historyOf lib key (buildRoiBlocks lib us s) emitted =
        (numbersOf lib key (us.map fun u => ⟨u, format⟩)).foldl (History.create lib.cfg) (historyOf lib key s emitted)
  | [], _, hrings => ⟨hrings, rfl⟩
  | u :: us, s, hrings => by
    let f : Frame F := ⟨u, format⟩
    rw [buildRoiBlocks, List.map_cons, ← List.singleton_append, numbersOf_append, List.foldl_append]
    cases hroi : s.findRoi (lib.key f) with
    | some b =>
      have hsome : (s.findRoi (getKey lib.int64 u.roiMeta)).isSome := Option.isSome_iff_exists.mpr ⟨b, hroi⟩
      have hsame : (numbersOf lib key [f]).foldl (History.create lib.cfg) (historyOf lib key s emitted) =
          historyOf lib key s emitted := by
        by_cases hkey : lib.key f = key
        · rw [numbersOf_singleton_of_eq hkey, List.foldl_cons, List.foldl_nil]
          refine create_of_some (t := b.clock) ?_ _
          show (s.findRoi key).map RoiProcessedBuf.clock = _
          rw [← hkey, hroi]
          rfl
        · rw [numbersOf_singleton_of_ne hkey, List.foldl_nil]
      simp only [hsome, ↓reduceIte]
      rw [hsame]
      exact history_buildRoiBlocks key hv emitted format us hrings
    | none =>
      have hnew : s.findRoi (getKey lib.int64 u.roiMeta) = none := hroi
      have hadd := history_addRoi key hrings hv u hnew emitted
      have hstep : (numbersOf lib key [f]).foldl (History.create lib.cfg) (historyOf lib key s emitted) =
          historyOf lib key (s.addRoi lib (getKey lib.int64 u.roiMeta) u) emitted := by
        by_cases hkey : lib.key f = key
        · rw [numbersOf_singleton_of_eq hkey, List.foldl_cons, List.foldl_nil, hadd]
          exact (if_pos hkey).symm
        · rw [numbersOf_singleton_of_ne hkey, List.foldl_nil, hadd]
          exact (if_neg hkey).symm
      have hidle : ¬ (s.findRoi (getKey lib.int64 u.roiMeta)).isSome = true := by
        rw [hnew]
        exact Bool.false_ne_true
      rw [if_neg hidle, hstep]
      exact history_buildRoiBlocks key hv emitted format us (hrings.addRoi hv hnew u)

/-! ### Frames -/

theorem history_located (hrings : s.Rings lib) {f : Frame F} (hroi : s.findRoi (lib.key f) = some b)
    (hskip : ¬ b.Skips lib.cfg f.unit.frameNum) (emitted : List ℕ) :
    historyOf lib key (s.located lib f b) emitted =
      (numbersOf lib key [f]).foldl (History.offer lib.cfg) (historyOf lib key s emitted) := by
  obtain ⟨rest, hne, hold, hnew⟩ := setRoi_perm hrings.keys hroi (s.withFrame lib f b)
  have hnodup := (hrings.setRoi hroi (hrings.withFrame hroi)).keys
  have hlookup := findRoi_of_perm key hrings.keys hnodup hnew fun p hp => by
    rw [hold.mem_iff, List.mem_cons]
    exact (or_iff_right fun heq => hp (congrArg Prod.fst heq)).symm
  have hclock : (s.withFrame lib f b).clock = b.clock.accept lib.cfg f.unit.frameNum :=
    (hrings.of_findRoi hroi).clock_accept f.unit
  unfold historyOf
  rw [show (s.located lib f b).findRoi key = _ from hlookup]
  show (⟨_, numbersOf lib key (s.arrived ++ [f]), numbersOf lib key (s.accepted ++ [f]), _⟩ : History) = _
  rw [numbersOf_append, numbersOf_append]
  by_cases hkey : lib.key f = key
  · rw [numbersOf_singleton_of_eq hkey, if_pos hkey, List.foldl_cons, List.foldl_nil, ← hkey, hroi]
    refine Eq.symm ((if_neg hskip).trans ?_)
    rw [← hclock]
    rfl
  · rw [numbersOf_singleton_of_ne hkey, if_neg hkey, List.append_nil, List.append_nil, List.foldl_nil]

/-- A frame that no ring takes has arrived. -/
theorem history_arrived {f : Frame F} (hno : ∀ b, s.findRoi (lib.key f) = some b → b.Skips lib.cfg f.unit.frameNum)
    (emitted : List ℕ) :
    historyOf lib key { s with arrived := s.arrived ++ [f] } emitted =
      (numbersOf lib key [f]).foldl (History.offer lib.cfg) (historyOf lib key s emitted) := by
  unfold historyOf
  show (⟨(s.findRoi key).map RoiProcessedBuf.clock, numbersOf lib key (s.arrived ++ [f]), _, _⟩ : History) = _
  rw [numbersOf_append]
  by_cases hkey : lib.key f = key
  · rw [numbersOf_singleton_of_eq hkey, List.foldl_cons, List.foldl_nil, ← hkey]
    cases hroi : s.findRoi (lib.key f) with
    | none => rfl
    | some b => exact (if_pos (hno b hroi)).symm
  · rw [numbersOf_singleton_of_ne hkey, List.append_nil, List.foldl_nil]

section
variable [Zero α] [Add α] [Mul α] [Neg α]

theorem history_unitCases (key : SourceKey) (hrings : s.Rings lib) {f : Frame F} {launch : Bool}
    {r : Option NvDsPreProcessStatus × BufferManager F α} (hr : UnitCases lib s f launch r) (emitted : List ℕ) :
    historyOf lib key r.2 emitted =
      (numbersOf lib key [f]).foldl (History.offer lib.cfg) (historyOf lib key s emitted) := by
  cases hr with
  | unknown hroi =>
    refine history_arrived (fun b hb => ?_) emitted
    rw [hroi] at hb
    cases hb
  | skipped hroi hskip =>
    refine history_arrived (fun b hb => ?_) emitted
    obtain rfl := Option.some.inj (hroi.symm.trans hb)
    exact hskip
  | lost hroi hskip hblock hno => exact history_located hrings hroi hskip emitted
  | stored hroi hskip hblock hconverts => exact history_located hrings hroi hskip emitted

/-- The frames are offered one after the other, as far as the call gets. -/
theorem history_prepareUnits (key : SourceKey) {launch : ℕ → Bool} (emitted : List ℕ) :
    ∀ {fs : List (Frame F)} {s : BufferManager F α} {r : Option NvDsPreProcessStatus × BufferManager F α},
      s.Rings lib → prepareUnits lib launch fs s = some r →
      ∃ done rest, fs = done ++ rest ∧ (r.1 = none → rest = []) ∧ historyOf lib key r.2 emitted =
        (numbersOf lib key done).foldl (History.offer lib.cfg) (historyOf lib key s emitted)
  | [], _, _, _, h => by
    obtain rfl := Option.some.inj h
    exact ⟨[], [], rfl, fun _ => rfl, rfl⟩
  | f :: fs, s, r, hrings, h => by
    obtain ⟨⟨st, s₁⟩, hunit, h⟩ := Option.bind_eq_some_iff.mp h
    have hcases := prepareUnit_cases hunit
    have hstep := history_unitCases key hrings hcases emitted
    cases st with
    | some st =>
      obtain rfl := Option.some.inj h
      exact ⟨[f], fs, rfl, (fun hst => by cases hst), hstep⟩
    | none =>
      obtain ⟨done, rest, rfl, hrest, hhist⟩ := history_prepareUnits key emitted (hrings.unitCases hcases) h
      refine ⟨f :: done, rest, rfl, hrest, ?_⟩
      rw [hhist, ← List.singleton_append, numbersOf_append, List.foldl_append]
      exact congrArg (fun h => (numbersOf lib key done).foldl (History.offer lib.cfg) h) hstep

/-- The regions of the frames have rings, and every frame is converted: the loop ends. -/
theorem prepareUnits_none {launch : ℕ → Bool} :
    ∀ {fs : List (Frame F)} {s : BufferManager F α} {r : Option NvDsPreProcessStatus × BufferManager F α},
      (∀ f ∈ fs, lib.key f ∈ s.src2dstMap.map Prod.fst) → Along lib (fun _ f l => Converts lib f l) launch fs s →
      prepareUnits lib launch fs s = some r → r.1 = none
  | [], _, _, _, _, h => by
    obtain rfl := Option.some.inj h
    rfl
  | f :: fs, s, r, hknown, hconv, h => by
    obtain ⟨⟨st, s₁⟩, hunit, h⟩ := Option.bind_eq_some_iff.mp h
    have hnext : st = none ∧ s₁.src2dstMap.map Prod.fst = s.src2dstMap.map Prod.fst := by
      have hset : ∀ b, (s.located lib f b).src2dstMap.map Prod.fst = s.src2dstMap.map Prod.fst := fun b => by
        show (s.src2dstMap.map fun p => if p.1 = lib.key f then (lib.key f, _) else p).map Prod.fst = _
        rw [List.map_map]
        refine List.map_congr_left fun p _ => ?_
        show (if p.1 = lib.key f then (lib.key f, _) else p).1 = p.1
        split
        · rename_i heq
          exact heq.symm
        · rfl
      cases prepareUnit_cases hunit with
      | unknown hroi => exact absurd (hknown f List.mem_cons_self) (notMem_of_findRoi hroi)
      | skipped hroi hskip => exact ⟨rfl, rfl⟩
      | lost hroi hskip hblock hno => exact absurd hconv.1 hno
      | stored hroi hskip hblock hconverts => exact ⟨rfl, hset _⟩
    obtain ⟨rfl, hkeys⟩ := hnext
    refine prepareUnits_none (fun g hg => ?_) (hconv.2 _ hunit rfl) h
    rw [hkeys]
    exact hknown g (List.mem_cons_of_mem _ hg)

end

end

/-! ### The collection -/

/-- The regions after the loop, which ends at a copy that fails. -/
def slideCopied (cfg : SequenceConfig) (copy : SourceKey → Bool) :
    List (SourceKey × RoiProcessedBuf F) → List (SourceKey × RoiProcessedBuf F)
  | [] => []
  | p :: l =>
    if ¬ p.2.Ready cfg then p :: slideCopied cfg copy l
    else if copy p.1 then (p.1, p.2.slide cfg) :: slideCopied cfg copy l
    else p :: l

/-- The last frames of the sequences that are copied for a region. -/
def lastFrames (cfg : SequenceConfig) (copy : SourceKey → Bool) (key : SourceKey)
    (l : List (SourceKey × RoiProcessedBuf F)) : List ℕ :=
  ((copiedRois cfg copy l).filter (·.1 = key)).map (·.2.latestFrameNo)

theorem src2dstMap_collectRois {copy : SourceKey → Bool} :
    ∀ {l l' : List (SourceKey × RoiProcessedBuf F)} {filling filling' : Option (Filling F)} {s s' : BufferManager F α}
      {ok : Bool}, collectRois lib copy l filling s = some (ok, l', filling', s') →
      l' = slideCopied lib.cfg copy l ∧ s'.arrived = s.arrived ∧ s'.accepted = s.accepted
  | [], _, _, _, _, _, _, h => by
    obtain ⟨rfl, rfl, rfl, rfl⟩ : _ ∧ _ ∧ _ ∧ _ := by simpa [collectRois] using h
    exact ⟨rfl, rfl, rfl⟩
  | p :: l, _, filling, _, s, _, _, h => by
    obtain ⟨⟨ok₁, b, filling₁, s₁⟩, hroi, h⟩ := Option.bind_eq_some_iff.mp h
    have hcases := collectRoi_cases hroi
    have hkept : s₁.arrived = s.arrived ∧ s₁.accepted = s.accepted := by
      have hstarted : ∀ {fill m}, s.startFilling lib filling = (fill, m) →
          m.arrived = s.arrived ∧ m.accepted = s.accepted := fun {fill m} hstart => by
        obtain ⟨out, hout⟩ := startFilling_frame lib s filling
        rw [hstart] at hout
        obtain rfl : m = { s with out := out } := hout
        exact ⟨rfl, rfl⟩
      cases hcases with
      | idle hready => exact ⟨rfl, rfl⟩
      | failed hready hstart hcopy => exact hstarted hstart
      | added hready hstart hcopy hblock hstride hroom =>
        have hm := hstarted hstart
        exact hm
      | full hready hstart hcopy hblock hstride hfull =>
        have hm := hstarted hstart
        exact hm
    cases ok₁ with
    | false =>
      obtain ⟨rfl, rfl, rfl, rfl⟩ : _ ∧ _ ∧ _ ∧ _ := by simpa using h
      refine ⟨?_, hkept⟩
      cases hcases with
      | failed hready hstart hcopy =>
        have hno : ¬ copy p.1 = true := by simp [hcopy]
        rw [slideCopied, if_neg (not_not.mpr hready), if_neg hno]
    | true =>
      obtain ⟨⟨ok₂, l₂, filling₂, s₂⟩, hrest, heq⟩ := Option.map_eq_some_iff.mp h
      obtain ⟨rfl, rfl, rfl, rfl⟩ : _ ∧ _ ∧ _ ∧ _ := by simpa using heq
      obtain ⟨rfl, harrived, haccepted⟩ := src2dstMap_collectRois hrest
      refine ⟨?_, harrived.trans hkept.1, haccepted.trans hkept.2⟩
      cases hcases with
      | idle hready => rw [slideCopied, if_pos hready]
      | added hready hstart hcopy hblock hstride hroom => rw [slideCopied, if_neg (not_not.mpr hready), if_pos hcopy]
      | full hready hstart hcopy hblock hstride hfull => rw [slideCopied, if_neg (not_not.mpr hready), if_pos hcopy]

/-- The region with a key in a list of them. -/
def lookup (key : SourceKey) (l : List (SourceKey × RoiProcessedBuf F)) : Option (RoiProcessedBuf F) :=
  (l.find? (·.1 = key)).map Prod.snd

section
variable {cfg : SequenceConfig} {copy : SourceKey → Bool} {p : SourceKey × RoiProcessedBuf F}
  {l : List (SourceKey × RoiProcessedBuf F)}

theorem lookup_cons_of_eq (h : p.1 = key) : lookup key (p :: l) = some p.2 := by
  simp [lookup, h]

theorem lookup_cons_of_ne (h : p.1 ≠ key) : lookup key (p :: l) = lookup key l := by
  simp [lookup, h]

theorem lastFrames_eq_nil (h : key ∉ l.map Prod.fst) : lastFrames cfg copy key l = [] := by
  unfold lastFrames
  rw [List.map_eq_nil_iff, List.filter_eq_nil_iff]
  intro p hp heq
  have hmem : p ∈ l := (List.mem_filter.mp ((List.takeWhile_prefix _).subset hp)).1
  exact h (List.mem_map.mpr ⟨p, hmem, by simpa using heq⟩)

theorem lastFrames_cons_of_idle (h : ¬ p.2.Ready cfg) : lastFrames cfg copy key (p :: l) = lastFrames cfg copy key l := by
  unfold lastFrames copiedRois
  rw [Accounts.readyRois_cons_of_idle h]

theorem lastFrames_cons_of_copied (h : p.2.Ready cfg) (hcopy : copy p.1 = true) :
    lastFrames cfg copy key (p :: l) =
      if p.1 = key then p.2.latestFrameNo :: lastFrames cfg copy key l else lastFrames cfg copy key l := by
  unfold lastFrames
  rw [Accounts.copiedRois_cons_of_ready h, if_pos hcopy]
  split
  · rename_i heq
    rw [List.filter_cons_of_pos (by simpa using heq), List.map_cons]
  · rename_i hne
    rw [List.filter_cons_of_neg (by simpa using hne)]

theorem lastFrames_cons_of_failed (h : p.2.Ready cfg) (hcopy : ¬ copy p.1 = true) :
    lastFrames cfg copy key (p :: l) = [] := by
  unfold lastFrames
  rw [Accounts.copiedRois_cons_of_ready h, if_neg hcopy]
  rfl

/-- What the loop does for one region. -/
inductive CollectCases (cfg : SequenceConfig) (copy : SourceKey → Bool) (key : SourceKey)
    (l : List (SourceKey × RoiProcessedBuf F)) : Prop
  | kept (hsame : lookup key (slideCopied cfg copy l) = lookup key l) (hnone : lastFrames cfg copy key l = [])
      (hidle : (∀ p ∈ readyRois cfg l, copy p.1 = true) → ∀ b, lookup key l = some b → ¬ b.Ready cfg)
  | copied (b : RoiProcessedBuf F) (hroi : lookup key l = some b) (hready : b.Ready cfg)
      (hslide : lookup key (slideCopied cfg copy l) = some (b.slide cfg))
      (hlast : lastFrames cfg copy key l = [b.latestFrameNo])

theorem collectCases (cfg : SequenceConfig) (copy : SourceKey → Bool) (key : SourceKey) :
    ∀ {l : List (SourceKey × RoiProcessedBuf F)}, (l.map Prod.fst).Nodup → CollectCases cfg copy key l
  | [], _ => .kept rfl rfl fun _ b hb => by cases hb
  | p :: l, h => by
    rw [List.map_cons, List.nodup_cons] at h
    have ih := collectCases cfg copy key h.2
    by_cases hready : p.2.Ready cfg
    · by_cases hcopy : copy p.1 = true
      · have hcons : slideCopied cfg copy (p :: l) = (p.1, p.2.slide cfg) :: slideCopied cfg copy l := by
          rw [slideCopied, if_neg (not_not.mpr hready), if_pos hcopy]
        by_cases hkey : p.1 = key
        · refine .copied p.2 (lookup_cons_of_eq hkey) hready ?_ ?_
          · rw [hcons]
            exact lookup_cons_of_eq hkey
          · rw [lastFrames_cons_of_copied hready hcopy, if_pos hkey, lastFrames_eq_nil (hkey ▸ h.1)]
        · have hlook : lookup key (slideCopied cfg copy (p :: l)) = lookup key (slideCopied cfg copy l) := by
            rw [hcons]
            exact lookup_cons_of_ne hkey
          have hlast : lastFrames cfg copy key (p :: l) = _ := lastFrames_cons_of_copied hready hcopy
          rw [if_neg hkey] at hlast
          cases ih with
          | kept hsame hnone hidle =>
            refine .kept ?_ (hlast.trans hnone) fun hall b hb => ?_
            · rw [hlook, lookup_cons_of_ne hkey]
              exact hsame
            · rw [lookup_cons_of_ne hkey] at hb
              rw [Accounts.readyRois_cons_of_ready hready] at hall
              exact hidle (fun q hq => hall q (List.mem_cons_of_mem _ hq)) b hb
          | copied b hroi hb hslide hone =>
            exact .copied b ((lookup_cons_of_ne hkey).trans hroi) hb (hlook.trans hslide) (hlast.trans hone)
      · have hcons : slideCopied cfg copy (p :: l) = p :: l := by
          rw [slideCopied, if_neg (not_not.mpr hready), if_neg hcopy]
        refine .kept (congrArg _ hcons) (lastFrames_cons_of_failed hready hcopy) fun hall => ?_
        rw [Accounts.readyRois_cons_of_ready hready] at hall
        exact absurd (hall p List.mem_cons_self) hcopy
    · have hcons : slideCopied cfg copy (p :: l) = p :: slideCopied cfg copy l := by
        rw [slideCopied, if_pos hready]
      by_cases hkey : p.1 = key
      · refine .kept ?_ ?_ fun _ b hb => ?_
        · rw [hcons, lookup_cons_of_eq hkey, lookup_cons_of_eq hkey]
        · rw [lastFrames_cons_of_idle hready, lastFrames_eq_nil (hkey ▸ h.1)]
        · rw [lookup_cons_of_eq hkey] at hb
          obtain rfl := Option.some.inj hb
          exact hready
      · have hlook : lookup key (slideCopied cfg copy (p :: l)) = lookup key (slideCopied cfg copy l) := by
          rw [hcons]
          exact lookup_cons_of_ne hkey
        have hlast : lastFrames cfg copy key (p :: l) = _ := lastFrames_cons_of_idle hready
        cases ih with
        | kept hsame hnone hidle =>
          refine .kept ?_ (hlast.trans hnone) fun hall b hb => ?_
          · rw [hlook, lookup_cons_of_ne hkey]
            exact hsame
          · rw [lookup_cons_of_ne hkey] at hb
            rw [Accounts.readyRois_cons_of_idle hready] at hall
            exact hidle hall b hb
        | copied b hroi hb hslide hone =>
          exact .copied b ((lookup_cons_of_ne hkey).trans hroi) hb (hlook.trans hslide) (hlast.trans hone)

end

section
variable [Add F] [Mul F]

/-- A region's sequence is collected, or nothing happens to it. -/
theorem history_collectReady (key : SourceKey) {copy : SourceKey → Bool} {r : Bool × BufferManager F α}
    (hrings : s.Rings lib) (h : s.collectReady lib copy = some r) (emitted : List ℕ) :
    let r' := historyOf lib key r.2 (emitted ++ lastFrames lib.cfg copy key s.src2dstMap)
    (r' = historyOf lib key s emitted ∨ r' = (historyOf lib key s emitted).collect lib.cfg) ∧
      ((∀ p ∈ readyRois lib.cfg s.src2dstMap, copy p.1 = true) → r' = (historyOf lib key s emitted).collect lib.cfg) := by
  obtain ⟨ok, l, filling, s₁, hrois, hend⟩ := collectReady_cases h
  obtain ⟨rfl, harrived, haccepted⟩ := src2dstMap_collectRois hrois
  have hkept : r.2.src2dstMap = slideCopied lib.cfg copy s.src2dstMap ∧ r.2.arrived = s.arrived ∧
      r.2.accepted = s.accepted := by
    rcases hend with ⟨rfl, rfl⟩ | ⟨fill, rfl, ⟨rfl, rfl⟩ | ⟨rfl, rfl⟩⟩ <;> exact ⟨rfl, harrived, haccepted⟩
  obtain ⟨hmap, harrived, haccepted⟩ := hkept
  have hlook : r.2.findRoi key = lookup key (slideCopied lib.cfg copy s.src2dstMap) := by
    rw [findRoi, hmap]
    rfl
  dsimp only
  cases collectCases lib.cfg copy key hrings.keys with
  | kept hsame hnone hidle =>
    have heq : historyOf lib key r.2 (emitted ++ lastFrames lib.cfg copy key s.src2dstMap) =
        historyOf lib key s emitted := by
      unfold historyOf
      rw [hlook, hsame, hnone, harrived, haccepted, List.append_nil]
      rfl
    refine ⟨.inl heq, fun hall => heq.trans ?_⟩
    unfold History.collect historyOf
    cases hroi : s.findRoi key with
    | none => rfl
    | some b => exact (if_neg (hidle hall b hroi)).symm
  | copied b hroi hready hslide hlast =>
    have heq : historyOf lib key r.2 (emitted ++ lastFrames lib.cfg copy key s.src2dstMap) =
        (historyOf lib key s emitted).collect lib.cfg := by
      have hfind : s.findRoi key = some b := hroi
      unfold historyOf History.collect
      rw [hlook, hslide, hlast, harrived, haccepted, hfind]
      exact (if_pos hready).symm
    exact ⟨.inr heq, fun _ => heq⟩

/-- The regions of the frames have rings now. -/
theorem known_buildRoiBlocks : ∀ (us : List (NvDsPreProcessUnit F)) (s : BufferManager F α),
    (∀ k ∈ s.src2dstMap.map Prod.fst, k ∈ (buildRoiBlocks lib us s).src2dstMap.map Prod.fst) ∧
      ∀ u ∈ us, getKey lib.int64 u.roiMeta ∈ (buildRoiBlocks lib us s).src2dstMap.map Prod.fst
  | [], _ => ⟨fun _ hk => hk, fun _ hu => absurd hu List.not_mem_nil⟩
  | u :: us, s => by
    rw [buildRoiBlocks]
    have hadded : (∀ k ∈ s.src2dstMap.map Prod.fst,
          k ∈ (s.addRoi lib (getKey lib.int64 u.roiMeta) u).src2dstMap.map Prod.fst) ∧
        getKey lib.int64 u.roiMeta ∈ (s.addRoi lib (getKey lib.int64 u.roiMeta) u).src2dstMap.map Prod.fst := by
      obtain ⟨b, -, -, hperm⟩ := Rings.src2dstMap_addRoi lib s (getKey lib.int64 u.roiMeta) u
      have hkeys := hperm.map Prod.fst
      exact ⟨fun k hk => hkeys.mem_iff.mpr (List.mem_cons_of_mem _ hk), hkeys.mem_iff.mpr List.mem_cons_self⟩
    split
    · rename_i hold
      obtain ⟨b, hroi⟩ := Option.isSome_iff_exists.mp hold
      obtain ⟨hkept, hknown⟩ := known_buildRoiBlocks us s
      refine ⟨hkept, fun v hv => ?_⟩
      rcases List.mem_cons.mp hv with rfl | hv
      · exact hkept _ (List.mem_map_of_mem (mem_of_findRoi hroi))
      · exact hknown v hv
    · obtain ⟨hkept, hknown⟩ := known_buildRoiBlocks us (s.addRoi lib (getKey lib.int64 u.roiMeta) u)
      refine ⟨fun k hk => hkept k (hadded.1 k hk), fun v hv => ?_⟩
      rcases List.mem_cons.mp hv with rfl | hv
      · exact hkept _ hadded.2
      · exact hknown v hv

/-! ### Calls -/

theorem history_popReady (emitted : List ℕ) : historyOf lib key s.popReady.2 emitted = historyOf lib key s emitted := by
  unfold popReady
  split <;> rfl

variable [Zero α] [Add α] [Mul α] [Neg α]

/-- The last frames of the region's sequences that a call copies into a batch. -/
def collectedLast (lib : SequenceImagePreprocess F α) (key : SourceKey) (s : BufferManager F α)
    (batch : NvDsPreProcessBatch F) (cuda : Cuda) : List ℕ :=
  if Begins batch cuda then
    match prepareUnits lib cuda.launch batch.frames (buildRoiBlocks lib batch.units s) with
    | some (none, m) => lastFrames lib.cfg cuda.copy key m.src2dstMap
    | some (some _, _) => []
    | none => []
  else []

/-- The call gets to its end: its frames can be converted, and CUDA does not fail. -/
def Completes (lib : SequenceImagePreprocess F α) (s : BufferManager F α) (batch : NvDsPreProcessBatch F)
    (cuda : Cuda) : Prop :=
  Begins batch cuda ∧
    Along lib (fun _ f l => Converts lib f l) cuda.launch batch.frames (buildRoiBlocks lib batch.units s) ∧
    ∀ r ∈ prepareUnits lib cuda.launch batch.frames (buildRoiBlocks lib batch.units s),
      ∀ p ∈ readyRois lib.cfg r.2.src2dstMap, cuda.copy p.1 = true

instance (batch : NvDsPreProcessBatch F) (cuda : Cuda) : Decidable (s.Completes lib batch cuda) :=
  inferInstanceAs (Decidable (_ ∧ _ ∧ _))

/-- A call for one region. -/
theorem history_prepareTensorData (key : SourceKey) {batch : NvDsPreProcessBatch F} {cuda : Cuda}
    {r : NvDsPreProcessStatus × Option (ReadyResult F) × BufferManager F α} (hrings : s.Rings lib) (hv : lib.cfg.Valid)
    (hcall : s.prepareTensorData lib batch cuda = some r) (emitted : List ℕ) :
    let start := historyOf lib key s emitted
    let made := (numbersOf lib key batch.frames).foldl (History.create lib.cfg) start
    let r' := historyOf lib key r.2.2 (emitted ++ collectedLast lib key s batch cuda)
    (r' = start ∨ ∃ done rest, numbersOf lib key batch.frames = done ++ rest ∧
        (r' = done.foldl (History.offer lib.cfg) made ∨
          r' = (done.foldl (History.offer lib.cfg) made).collect lib.cfg)) ∧
      (s.Completes lib batch cuda →
        r' = ((numbersOf lib key batch.frames).foldl (History.offer lib.cfg) made).collect lib.cfg) := by
  dsimp only
  obtain ⟨hbuilt, hmade⟩ := history_buildRoiBlocks key hv emitted batch.scalingPoolFormat batch.units hrings
  change _ = (numbersOf lib key batch.frames).foldl _ _ at hmade
  rw [← hmade]
  have hno : ¬ Begins batch cuda → collectedLast lib key s batch cuda = [] := fun hno => if_neg hno
  have hcompletes : ∀ {st m}, s.Completes lib batch cuda →
      prepareUnits lib cuda.launch batch.frames (buildRoiBlocks lib batch.units s) = some (st, m) →
      st = none ∧ ∀ p ∈ readyRois lib.cfg m.src2dstMap, cuda.copy p.1 = true := by
    rintro st m ⟨-, hconv, hcopies⟩ hunits
    refine ⟨prepareUnits_none (fun f hf => ?_) hconv hunits, hcopies _ hunits⟩
    obtain ⟨u, hu, rfl⟩ := List.mem_map.mp hf
    exact (known_buildRoiBlocks batch.units s).2 u hu
  -- the loop over the units has gone through, and the collection follows
  have hcollected : ∀ {m m' : BufferManager F α} {ok : Bool}, Begins batch cuda →
      prepareUnits lib cuda.launch batch.frames (buildRoiBlocks lib batch.units s) = some (none, m) →
      m.collectReady lib cuda.copy = some (ok, m') →
      let r' := historyOf lib key m' (emitted ++ collectedLast lib key s batch cuda)
      let offered := (numbersOf lib key batch.frames).foldl (History.offer lib.cfg)
        (historyOf lib key (buildRoiBlocks lib batch.units s) emitted)
      (r' = offered ∨ r' = offered.collect lib.cfg) ∧
        (s.Completes lib batch cuda → r' = offered.collect lib.cfg) := by
    intro m m' ok hbegins hunits hcollect
    obtain ⟨done, rest, hsplit, hrest, hhist⟩ := history_prepareUnits key emitted hbuilt hunits
    obtain rfl : rest = [] := hrest rfl
    rw [List.append_nil] at hsplit
    obtain ⟨hor, hall⟩ := history_collectReady key
      (prepareUnits_invariant (fun hm => hm.unitCases) hbuilt hunits) hcollect emitted
    have hlast : collectedLast lib key s batch cuda = lastFrames lib.cfg cuda.copy key m.src2dstMap := by
      unfold collectedLast
      rw [if_pos hbegins, hunits]
    rw [hlast, hsplit, ← hhist]
    exact ⟨hor, fun hc => hall (hcompletes hc hunits).2⟩
  cases prepareTensorData_cases hcall with
  | refused hrefused =>
    rw [hno hrefused, List.append_nil]
    exact ⟨.inl rfl, fun hc => absurd hc.1 hrefused⟩
  | noDevice hrefused =>
    rw [hno hrefused, List.append_nil]
    exact ⟨.inr ⟨[], _, rfl, .inl rfl⟩, fun hc => absurd hc.1 hrefused⟩
  | @stopped st m hbegins hunits =>
    have hnone : collectedLast lib key s batch cuda = [] := by
      unfold collectedLast
      rw [if_pos hbegins, hunits]
    obtain ⟨done, rest, hsplit, -, hhist⟩ := history_prepareUnits key emitted hbuilt hunits
    rw [hnone, List.append_nil]
    refine ⟨.inr ⟨numbersOf lib key done, numbersOf lib key rest, ?_, .inl hhist⟩, fun hc => ?_⟩
    · rw [hsplit, numbersOf_append]
    · exact absurd (hcompletes hc hunits).1 (Option.some_ne_none st)
  | failed hbegins hunits hcollect hfailed =>
    obtain ⟨hor, hall⟩ := hcollected hbegins hunits hcollect
    exact ⟨.inr ⟨_, [], (List.append_nil _).symm, hor⟩, hall⟩
  | popped st hbegins hunits hcollect hsync =>
    obtain ⟨hor, hall⟩ := hcollected hbegins hunits hcollect
    rw [history_popReady]
    exact ⟨.inr ⟨_, [], (List.append_nil _).symm, hor⟩, hall⟩

end

end BufferManager

/-! ### Runs -/

namespace State

variable [Add F] [Mul F] [Zero α] [Add α] [Mul α] [Neg α] {lib : SequenceImagePreprocess F α} {key : SourceKey}

/-- A step, and the last frames of the region's sequences that have been collected. -/
def stepLogged (lib : SequenceImagePreprocess F α) (key : SourceKey) (q : State F α × List ℕ) (a : Action F) :
    Option (State F α × List ℕ) :=
  (q.1.step lib a).map fun s' => (s', q.2 ++
    match a with
    | .prepare batch cuda => q.1.manager.collectedLast lib key batch cuda
    | .giveBack _ => []
    | .clearAll => [])

def StartedLogged (q : State F α × List ℕ) : Prop := Started q.1 ∧ q.2 = []

/-- The numbers of the region's frames do not wrap around. -/
def FramesFit (lib : SequenceImagePreprocess F α) (key : SourceKey) (_ : State F α × List ℕ) : Action F → Prop
  | .prepare batch _ => ∀ frameNum ∈ numbersOf lib key batch.frames, lib.cfg.FrameFits frameNum
  | .giveBack _ => True
  | .clearAll => True

/-- A call has the next frame of the region, or none, and a call that has it gets to its end. -/
def Gapless (lib : SequenceImagePreprocess F α) (key : SourceKey) (first : ℕ) (q : State F α × List ℕ) :
    Action F → Prop
  | .prepare batch cuda => numbersOf lib key batch.frames = [] ∨
      numbersOf lib key batch.frames = [first + (numbersOf lib key q.1.manager.arrived).length] ∧
        lib.cfg.FrameFits (first + (numbersOf lib key q.1.manager.arrived).length) ∧
        q.1.manager.Completes lib batch cuda
  | .giveBack _ => True
  | .clearAll => True

/-- What a region has seen. -/
def history (lib : SequenceImagePreprocess F α) (key : SourceKey) (q : State F α × List ℕ) : History :=
  historyOf lib key q.1.manager q.2

/-- Only a call does something to a region. -/
theorem history_stepLogged {q q' : State F α × List ℕ} {a : Action F} (hs : stepLogged lib key q a = some q') :
    (∃ batch cuda r, a = .prepare batch cuda ∧ q.1.manager.prepareTensorData lib batch cuda = some r ∧
        history lib key q' =
          historyOf lib key r.2.2 (q.2 ++ q.1.manager.collectedLast lib key batch cuda)) ∨
      history lib key q' = history lib key q := by
  obtain ⟨s', hstep, rfl⟩ := Option.map_eq_some_iff.mp hs
  cases a with
  | prepare batch cuda =>
    obtain ⟨r, hcall, rfl⟩ := Option.map_eq_some_iff.mp hstep
    exact .inl ⟨batch, cuda, r, rfl, hcall, rfl⟩
  | giveBack buf =>
    obtain ⟨-, rfl⟩ := giveBack_eq hstep
    right
    unfold history
    rw [List.append_nil]
    rfl
  | clearAll =>
    obtain rfl := Option.some.inj hstep
    right
    unfold history
    rw [List.append_nil]
    rfl

theorem rings_stepLogged {q q' : State F α × List ℕ} {a : Action F} (h : q.1.manager.Rings lib) (hv : lib.cfg.Valid)
    (hs : stepLogged lib key q a = some q') : q'.1.manager.Rings lib := by
  obtain ⟨s', hstep, rfl⟩ := Option.map_eq_some_iff.mp hs
  exact rings_step h hv hstep

omit [Add F] [Mul F] [Zero α] [Add α] [Mul α] [Neg α] in
theorem startedLogged_rings {q : State F α × List ℕ} (h : StartedLogged q) : q.1.manager.Rings lib := by
  obtain ⟨⟨memory, heq⟩, -⟩ := h
  rw [heq]
  exact ⟨List.nodup_nil, fun p hp => absurd hp List.not_mem_nil⟩

omit [Zero α] [Add α] [Mul α] [Neg α] in
theorem startedLogged_history {q : State F α × List ℕ} (h : StartedLogged q) :
    history lib key q = ⟨none, [], [], []⟩ := by
  obtain ⟨⟨memory, heq⟩, hlog⟩ := h
  unfold history
  rw [heq, hlog]
  rfl

theorem spaced_step {q q' : State F α × List ℕ} {a : Action F} (hrings : q.1.manager.Rings lib) (hv : lib.cfg.Valid)
    (hcfg : lib.cfg.Timely) (h : Spaced lib.cfg (history lib key q)) (hok : FramesFit lib key q a)
    (hs : stepLogged lib key q a = some q') : Spaced lib.cfg (history lib key q') := by
  have hcreated : ∀ (ns : List ℕ) {r : History}, Spaced lib.cfg r →
      Spaced lib.cfg (ns.foldl (History.create lib.cfg) r) := by
    intro ns
    induction ns with
    | nil => exact fun hr => hr
    | cons n ns ih => exact fun hr => ih (hr.create n)
  have hoffered : ∀ (ns : List ℕ) {r : History}, (∀ n ∈ ns, lib.cfg.FrameFits n) → Spaced lib.cfg r →
      Spaced lib.cfg (ns.foldl (History.offer lib.cfg) r) := by
    intro ns
    induction ns with
    | nil => exact fun _ hr => hr
    | cons n ns ih =>
      exact fun hfit hr => ih (fun m hm => hfit m (List.mem_cons_of_mem _ hm)) (hr.offer hcfg (hfit n List.mem_cons_self))
  rcases history_stepLogged hs with ⟨batch, cuda, r, rfl, hcall, heq⟩ | heq
  · have hfit : ∀ n ∈ numbersOf lib key batch.frames, lib.cfg.FrameFits n := hok
    have hmade := hcreated (numbersOf lib key batch.frames) h
    rw [heq]
    rcases (BufferManager.history_prepareTensorData key hrings hv hcall q.2).1 with hsame | ⟨done, rest, hsplit, hor⟩
    · rw [hsame]
      exact h
    · have hdone := hoffered done (fun n hn => hfit n (hsplit ▸ List.mem_append_left _ hn)) hmade
      rcases hor with hor | hor
      · rw [hor]
        exact hdone
      · rw [hor]
        exact hdone.collect hcfg
  · rw [heq]
    exact h

theorem exact_step {q q' : State F α × List ℕ} {a : Action F} {first : ℕ} (hrings : q.1.manager.Rings lib)
    (hv : lib.cfg.Valid) (hcfg : lib.cfg.Timely) (h : Exact lib.cfg first (history lib key q))
    (hok : Gapless lib key first q a) (hs : stepLogged lib key q a = some q') :
    Exact lib.cfg first (history lib key q') := by
  rcases history_stepLogged hs with ⟨batch, cuda, r, rfl, hcall, heq⟩ | heq
  · obtain ⟨hpart, hwhole⟩ := BufferManager.history_prepareTensorData key hrings hv hcall q.2
    rw [heq]
    rcases hok with hnone | ⟨hone, hfits, hcompletes⟩
    · rw [hnone] at hpart
      have hcollect : (history lib key q).collect lib.cfg = history lib key q := h.collect
      rcases hpart with hsame | ⟨done, rest, hsplit, hor⟩
      · rw [hsame]
        exact h
      · obtain ⟨rfl, rfl⟩ := List.append_eq_nil_iff.mp hsplit.symm
        rcases hor with hor | hor
        · rw [hor]
          exact h
        · rw [hor]
          exact hcollect.symm ▸ h
    · rw [hwhole hcompletes, hone]
      exact h.call hcfg hfits
  · rw [heq]
    exact h

/-- Whatever frames come, as long as their numbers do not wrap around, those that a region accepts
and those that end its sequences are far enough apart; and the sequences end exactly when they are
due if the frames come without gaps, one in a call. -/
theorem sequences_spaced (lib : SequenceImagePreprocess F α) {params : NvDsPreProcessTensorParams}
    {seqStride subsample : ℕ} (hinit : Sequence.init params seqStride subsample = .ok lib.cfg) (hcfg : lib.cfg.Timely)
    (key : SourceKey) :
    (∀ q, Reach (stepLogged lib key) (FramesFit lib key) StartedLogged q →
      ((numbersOf lib key q.1.manager.accepted).IsChain fun a b => a + lib.cfg.subsample < b) ∧
        q.2.IsChain fun a b => a + lib.cfg.period ≤ b) ∧
      ∀ first q, Reach (stepLogged lib key) (Gapless lib key first) StartedLogged q →
        ∃ n, q.2 = (List.range n).map (dueAt lib.cfg first) ∧
          ∀ j, j < n ↔ dueAt lib.cfg first j < first + (numbersOf lib key q.1.manager.arrived).length := by
  have hv := (SequenceConfig.of_init hinit).1
  refine ⟨fun q hr => ?_, fun first q hr => ?_⟩
  · have hinv : q.1.manager.Rings lib ∧ Spaced lib.cfg (history lib key q) := by
      refine Reach.invariant (I := fun q => q.1.manager.Rings lib ∧ Spaced lib.cfg (history lib key q))
        (fun q h => ⟨startedLogged_rings h, ?_⟩)
        (fun q a q' h hok hs => ⟨rings_stepLogged h.1 hv hs, spaced_step h.1 hv hcfg h.2 hok hs⟩) hr
      rw [startedLogged_history h]
      exact ⟨List.isChain_nil, List.isChain_nil, fun _ => ⟨rfl, rfl⟩, by simp, by simp, by simp⟩
    exact ⟨hinv.2.accepted, hinv.2.emitted⟩
  · have hinv : q.1.manager.Rings lib ∧ Exact lib.cfg first (history lib key q) := by
      refine Reach.invariant (I := fun q => q.1.manager.Rings lib ∧ Exact lib.cfg first (history lib key q))
        (fun q h => ⟨startedLogged_rings h, ?_⟩)
        (fun q a q' h hok hs => ⟨rings_stepLogged h.1 hv hs, exact_step h.1 hv hcfg h.2 hok hs⟩) hr
      rw [startedLogged_history h]
      exact .inl ⟨rfl, rfl, rfl⟩
    exact hinv.2.emitted_eq

instance (first : ℕ) (q : State F α × List ℕ) (a : Action F) : Decidable (Gapless lib key first q a) :=
  match a with
  | .prepare batch cuda => inferInstanceAs (Decidable (numbersOf lib key batch.frames = [] ∨
      numbersOf lib key batch.frames = [first + (numbersOf lib key q.1.manager.arrived).length] ∧
        first + (numbersOf lib key q.1.manager.arrived).length + lib.cfg.span + lib.cfg.period <
          RoiProcessedBuf.frameNoNotSet ∧ q.1.manager.Completes lib batch cuda))
  | .giveBack _ => inferInstanceAs (Decidable True)
  | .clearAll => inferInstanceAs (Decidable True)

open Sample in
/-- Three frames of a source, and two sequences of two frames. -/
theorem sequences_spaced_pair :
    let key := (library pair).key ⟨picture 0 0 1 7, .rgb⟩
    let ok : State ℤ ℤ × List ℕ → Action ℤ → Prop := Gapless (library pair) key 0
    let q := (exec (stepLogged (library pair) key) ok (init fun _ => 0, [])
      [call [picture 0 0 1 7], call [picture 0 1 1 8], call [picture 0 2 1 9]]).get (by decide +kernel)
    q.2 = [1, 2] ∧ ∃ n, q.2 = (List.range n).map (dueAt pair 0) ∧
      ∀ j, j < n ↔ dueAt pair 0 j < 0 + (numbersOf (library pair) key q.1.manager.arrived).length :=
  ⟨by decide +kernel, (sequences_spaced (library pair) init_pair ⟨by decide, by decide, by decide, by decide⟩ _).2 0 _
    (Reach.get_exec ⟨⟨_, rfl⟩, rfl⟩ _)⟩

/-- Sequences of one frame, and every 65536th frame is for every 65536th sequence. -/
def sparse : SequenceConfig := ⟨Sample.params [1, 1, 3, 1, 1], 1, 1, 3, 1, 1, 3, 65536, 65535⟩

open Sample in
/-- The stride between the sequences is `2 ^ 32` frames, and the second sequence comes after 65536. And
if three frames come in one call, the sequence that ends at the second one is left out. -/
theorem sequences_close : Sequence.init (params [1, 1, 3, 1, 1]) 65536 65535 = .ok sparse ∧
    Sequence.init (params [1, 2, 3, 1, 1]) 1 0 = .ok pair ∧
    (∃ q : State ℤ ℤ × List ℕ, Reach (stepLogged (library sparse) ((library sparse).key ⟨picture 0 0 1 7, .rgb⟩)) anyStep
      StartedLogged q ∧ q.1.manager.arrived.map (·.unit.frameNum) = [0, 65536] ∧
        ¬ q.2.IsChain fun a b => a + sparse.seqStride * (sparse.subsample + 1) ≤ b) ∧
    ∃ q : State ℤ ℤ × List ℕ, Reach (stepLogged (library pair) ((library pair).key ⟨picture 0 0 1 7, .rgb⟩)) anyStep
      StartedLogged q ∧ q.1.manager.arrived.map (·.unit.frameNum) = [0, 1, 2] ∧
        q.2.head? ≠ some (0 + (pair.seqSize - 1) * (pair.subsample + 1)) := by
  have hsparse : (exec (stepLogged (library sparse) ((library sparse).key ⟨picture 0 0 1 7, .rgb⟩)) anyStep
      (init fun _ => 0, []) [call [picture 0 0 1 7], call [picture 0 65536 1 8]]).map
        (fun q => (q.1.manager.arrived.map (·.unit.frameNum), q.2)) = some ([0, 65536], [0, 65536]) := by decide +kernel
  have hpair : (exec (stepLogged (library pair) ((library pair).key ⟨picture 0 0 1 7, .rgb⟩)) anyStep
      (init fun _ => 0, []) [call [picture 0 0 1 7, picture 0 1 1 8, picture 0 2 1 9]]).map
        (fun q => (q.1.manager.arrived.map (·.unit.frameNum), q.2)) = some ([0, 1, 2], [2]) := by decide +kernel
  refine ⟨rfl, rfl, ?_, ?_⟩
  · obtain ⟨q, hq, heq⟩ := Option.map_eq_some_iff.mp hsparse
    obtain ⟨harrived, hlast⟩ := Prod.mk.inj heq
    refine ⟨q, Reach.of_exec _ (.init ⟨⟨_, rfl⟩, rfl⟩) hq, harrived, ?_⟩
    rw [hlast]
    decide
  · obtain ⟨q, hq, heq⟩ := Option.map_eq_some_iff.mp hpair
    obtain ⟨harrived, hlast⟩ := Prod.mk.inj heq
    refine ⟨q, Reach.of_exec _ (.init ⟨⟨_, rfl⟩, rfl⟩) hq, harrived, ?_⟩
    rw [hlast]
    decide

end State
end Sequence
end DeepStream
