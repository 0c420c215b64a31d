/-
# The order of the group sections

When the order of the sections of a preprocess configuration and of their keys makes no
difference. As long as no order lets a region be read before the sources are known, a section is
refused or leaves the element without regions (`parseCommonGroup_safe`); one that is not refused
has an order in which it is read to the end, and what is read then does not depend on the order
(`parseCommonGroup_quiet`).
-/
import DeepStream.Preprocess.GroupSections
import Mathlib.Data.List.Perm.Basic
import Mathlib.Data.List.Rotate

namespace DeepStream
namespace Preprocess
namespace GroupSections

variable {processOnFrame : Bool} {sec : Section}

/-! ### Sections without a region in reach -/

/-- What a section that is read to the end says of itself. -/
structure Passed (sec : Section) (e e' : GstNvDsPreProcess) : Prop where
  processOnFrame : e'.processOnFrame = e.processOnFrame
  roiParamsSrc : e'.propertySet.roiParamsSrc = false
  refused : ¬sec.IsRefused e.processOnFrame
  complete : e.propertySet = {} → sec.IsComplete e.processOnFrame

theorem keys_refused (hsafe : ¬sec.IsDangerous processOnFrame) {set : NvDsPreProcessPropertySet} {m : ℤ → Option ℤ}
    (hset : set.roiParamsSrc = false) (hrefused : sec.HasRefusedKey) :
    ∃ f, sec.keys.foldlM (parseKey processOnFrame sec) { propertySet := set, srcToGroupMap := m } = .error f ∧
      f = .refused := by
  obtain ⟨key, hkey, herror⟩ : ∃ key ∈ sec.keys, ∀ p, parseKey processOnFrame sec p key = .error .refused :=
    parseKey_refused hrefused
  exact foldlM_error (fun _ hp _ hkey => parseKey_safe hsafe hp hkey) ⟨key, hkey, fun p _ => ⟨_, herror p, rfl⟩⟩
    (Unread.initial hset)

theorem parseRois_onRoi {p p' : Parsing} {suffix : List Char} (h : parseRois sec p suffix = .ok p') :
    p'.group.processOnRoi = p.group.processOnRoi := by
  unfold parseRois at h
  cases hlist : sec.integerList (.roiParamsSrc suffix) with
  | none => rw [hlist] at h; cases h
  | some list =>
    rw [hlist] at h
    dsimp only at h
    by_cases hlen : list.length % 4 ≠ 0
    · rw [if_pos hlen] at h
      cases h
    · rw [if_neg hlen] at h
      cases hids : p.group.srcIds with
      | nil => rw [hids] at h; cases h
      | cons first ids =>
        rw [hids] at h
        cases h
        rfl

/-- The mode is that of the last key that sets it. -/
theorem parseKey_onRoi {p p' : Parsing} {key : Key} (h : parseKey processOnFrame sec p key = .ok p') :
    p'.group.processOnRoi = p.group.processOnRoi ∧ key ≠ .processOnRoi ∨
      key = .processOnRoi ∧ sec.boolean .processOnRoi = some p'.group.processOnRoi := by
  cases key with
  | srcIds =>
    rw [parseKey] at h
    cases hval : sec.integerList .srcIds with
    | none => rw [hval] at h; cases h
    | some ids => rw [hval] at h; cases h; exact .inl ⟨rfl, by simp⟩
  | processOnRoi =>
    rw [parseKey] at h
    cases hval : sec.boolean .processOnRoi with
    | none => rw [hval] at h; cases h
    | some val => rw [hval] at h; cases h; exact .inr ⟨rfl, rfl⟩
  | processOnAllObjects =>
    rw [parseKey] at h
    cases hval : sec.boolean .processOnAllObjects with
    | none => rw [hval] at h; cases h
    | some val => rw [hval] at h; cases h; exact .inl ⟨rfl, by simp⟩
  | roiParamsSrc suffix =>
    refine .inl ⟨?_, by simp⟩
    rw [parseKey] at h
    by_cases htakes : takesRois processOnFrame p.group = true
    · rw [if_pos htakes] at h
      exact parseRois_onRoi h
    · rw [if_neg htakes] at h
      cases h
      rfl
  | other name =>
    refine .inl ⟨?_, by simp⟩
    rw [parseKey] at h
    split at h
    · cases h; rfl
    · cases h

theorem not_wantsRois {set : NvDsPreProcessPropertySet} {p₀ p : Parsing} (hp : Unread sec set p)
    (hfold : sec.keys.foldlM (parseKey processOnFrame sec) p₀ = .ok p)
    (htakes : takesRois processOnFrame p.group = false) : ¬sec.WantsRois processOnFrame := by
  unfold takesRois at htakes
  unfold Section.WantsRois
  cases processOnFrame with
  | false =>
    have hon : p.group.processOnAllObjects = true := by simpa using htakes
    exact not_not_intro (hp.onAllObjects hon)
  | true =>
    rintro ⟨hkey, hval⟩
    have hmode : ∀ key ∈ sec.keys, ∀ p p' : Parsing, p.group.processOnRoi = true →
        parseKey true sec p key = .ok p' → p'.group.processOnRoi = true := by
      intro key _ p p' hon h
      rcases parseKey_onRoi h with ⟨hkeep, -⟩ | ⟨-, hset⟩
      · rw [hkeep, hon]
      · exact Option.some.inj (hset.symm.trans hval)
    have hset : ∀ p p' : Parsing, parseKey true sec p .processOnRoi = .ok p' → p'.group.processOnRoi = true := by
      intro p p' h
      rcases parseKey_onRoi h with ⟨-, hne⟩ | ⟨-, hset⟩
      · exact absurd rfl hne
      · exact Option.some.inj (hset.symm.trans hval)
    have hon : p.group.processOnRoi = true :=
      foldlM_of_mem (J := fun p : Parsing => p.group.processOnRoi = true) hset hmode hkey hfold
    exact Bool.noConfusion (htakes.symm.trans hon)

/-- A section is refused, or read to the end without a region. -/
theorem parseCommonGroup_safe {e : GstNvDsPreProcess} (hsafe : ¬sec.IsDangerous e.processOnFrame)
    (hset : e.propertySet.roiParamsSrc = false) :
    (∃ e', parseCommonGroup e sec = .ok e' ∧ Passed sec e e') ∨
      ∃ f, parseCommonGroup e sec = .error f ∧ f = .refused := by
  unfold parseCommonGroup
  rcases keys_safe (m := e.srcToGroupMap) hsafe hset with ⟨p, hfold, hp⟩ | ⟨f, hfold, rfl⟩
  swap
  · rw [hfold]
    exact .inr ⟨_, rfl, rfl⟩
  rw [hfold]
  dsimp only
  generalize hq : (if takesRois e.processOnFrame p.group then p else p.group.srcIds.foldl (addSource sec) p) = q
  have hsame : takesRois e.processOnFrame q.group = takesRois e.processOnFrame p.group ∧
      q.propertySet = p.propertySet := by
    rw [← hq]
    split
    · exact ⟨rfl, rfl⟩
    · obtain ⟨hroi, hall, hflags⟩ := addSources_group sec p.group.srcIds p
      exact ⟨by rw [takesRois, takesRois, hroi, hall], hflags⟩
  by_cases hprops : hasProperties e.processOnFrame q.group q.propertySet = true
  swap
  · rw [if_neg hprops]
    exact .inr ⟨_, rfl, rfl⟩
  rw [if_pos hprops]
  obtain ⟨htakes, hsrcIds, hflag⟩ := hasProperties_iff.mp hprops
  rw [hsame.1, hsame.2, hp.roiParamsSrc] at htakes
  replace htakes := Bool.eq_false_iff.mpr fun hon => Bool.noConfusion (htakes hon)
  rw [hsame.2] at hsrcIds hflag
  refine .inl ⟨_, rfl, rfl, hsame.2 ▸ hp.roiParamsSrc, ?_, ?_⟩
  · rintro (hkey | hwants)
    · obtain ⟨f, herror, -⟩ := keys_refused (m := e.srcToGroupMap) hsafe hset hkey
      rw [hfold] at herror
      cases herror
    · exact not_wantsRois hp hfold htakes hwants
  · intro hinit
    rw [hinit] at hp
    refine ⟨(hp.srcIds hsrcIds).resolve_left (by simp), fun hframe => ?_⟩
    rw [if_pos hframe] at hflag
    exact (hp.processOnRoi hflag).resolve_left (by simp)

/-! ### Orders in which a section is read to the end -/

/-- In this order no key is refused, and no region is looked at. -/
structure Section.IsQuiet (processOnFrame : Bool) (sec : Section) : Prop where
  keys : ¬sec.HasRefusedKey
  rois : ¬sec.WantsRois processOnFrame
  order : processOnFrame = true ∨ (∀ suffix, .roiParamsSrc suffix ∉ sec.keys) ∨
    ∃ rest, sec.keys = .processOnAllObjects :: rest

theorem Section.IsQuiet.onAllObjects (h : sec.IsQuiet processOnFrame) (hframe : ¬processOnFrame = true) :
    sec.IsOn .processOnAllObjects := by
  have hrois := h.rois
  rw [Section.WantsRois, if_neg hframe] at hrois
  exact not_not.mp hrois

def setGroup (sec : Section) (group : GstNvDsPreProcessGroup) : Key → GstNvDsPreProcessGroup
  | .srcIds => { group with srcIds := (sec.integerList .srcIds).getD [] }
  | .processOnRoi => { group with processOnRoi := (sec.boolean .processOnRoi).getD false }
  | .processOnAllObjects => { group with processOnAllObjects := (sec.boolean .processOnAllObjects).getD false }
  | .roiParamsSrc _ => group
  | .other _ => group

def setFlag (set : NvDsPreProcessPropertySet) : Key → NvDsPreProcessPropertySet
  | .srcIds => { set with srcIds := true }
  | .processOnRoi => { set with processOnRoi := true }
  | .processOnAllObjects => { set with processOnAllObjects := true }
  | .roiParamsSrc _ => set
  | .other _ => set

/-- The keys of a section set different things. -/
instance (sec : Section) : RightCommutative (setGroup sec) where
  right_comm group a b := by cases a <;> cases b <;> rfl

def setKey (sec : Section) (p : Parsing) (key : Key) : Parsing :=
  { p with group := setGroup sec p.group key, propertySet := setFlag p.propertySet key }

theorem foldl_setKey (keys : List Key) (p : Parsing) : keys.foldl (setKey sec) p =
    { p with group := keys.foldl (setGroup sec) p.group, propertySet := keys.foldl setFlag p.propertySet } := by
  induction keys generalizing p with
  | nil => rfl
  | cons key keys ih => exact ih (setKey sec p key)

theorem parseKey_quiet (hkeys : ¬sec.HasRefusedKey) {key : Key} (hkey : key ∈ sec.keys) {p : Parsing}
    (hrois : takesRois processOnFrame p.group = false ∨ ∀ suffix, key ≠ .roiParamsSrc suffix) :
    parseKey processOnFrame sec p key = .ok (setKey sec p key) := by
  cases key with
  | srcIds =>
    cases hval : sec.integerList .srcIds with
    | none => exact absurd (.inl ⟨hkey, hval⟩) hkeys
    | some ids => rw [parseKey, setKey, setGroup, hval]; rfl
  | processOnRoi =>
    cases hval : sec.boolean .processOnRoi with
    | none => exact absurd (.inr (.inl ⟨hkey, hval⟩)) hkeys
    | some val => rw [parseKey, setKey, setGroup, hval]; rfl
  | processOnAllObjects =>
    cases hval : sec.boolean .processOnAllObjects with
    | none => exact absurd (.inr (.inr (.inl ⟨hkey, hval⟩))) hkeys
    | some val => rw [parseKey, setKey, setGroup, hval]; rfl
  | roiParamsSrc suffix =>
    have htakes := hrois.resolve_right fun hne => hne suffix rfl
    rw [parseKey, if_neg (Bool.eq_false_iff.mp htakes)]
    rfl
  | other name =>
    cases hval : sec.accepts (.other name) with
    | false => exact absurd (.inr (.inr (.inr ⟨name, hkey, hval⟩))) hkeys
    | true => rw [parseKey, if_pos hval]; rfl

theorem setGroup_onRoi (sec : Section) (group : GstNvDsPreProcessGroup) (key : Key) :
    (setGroup sec group key).processOnRoi =
      if key = .processOnRoi then (sec.boolean .processOnRoi).getD false else group.processOnRoi := by
  cases key <;> rfl

theorem setGroup_onAllObjects (sec : Section) (group : GstNvDsPreProcessGroup) (key : Key) :
    (setGroup sec group key).processOnAllObjects =
      if key = .processOnAllObjects then (sec.boolean .processOnAllObjects).getD false
      else group.processOnAllObjects := by
  cases key <;> rfl

theorem setGroup_srcIds (sec : Section) (group : GstNvDsPreProcessGroup) (key : Key) :
    (setGroup sec group key).srcIds = if key = .srcIds then (sec.integerList .srcIds).getD [] else group.srcIds := by
  cases key <;> rfl

theorem Section.IsOn.getD {key : Key} (h : sec.IsOn key) : (sec.boolean key).getD false = true := by
  rw [h.2]
  rfl

theorem Section.getD_of_not_isOn {key : Key} (h : ¬sec.IsOn key) (hkey : key ∈ sec.keys) :
    (sec.boolean key).getD false = false := by
  cases hval : sec.boolean key with
  | none => rfl
  | some val =>
    cases val with
    | false => rfl
    | true => exact absurd ⟨hkey, hval⟩ h

/-- A quiet order is read to the end. -/
theorem keys_quiet (hquiet : sec.IsQuiet processOnFrame) {p : Parsing} (hp : p.group.processOnRoi = false) :
    sec.keys.foldlM (parseKey processOnFrame sec) p = .ok (sec.keys.foldl (setKey sec) p) := by
  obtain ⟨hkeys, hrois, horder⟩ := hquiet
  unfold Section.WantsRois at hrois
  cases processOnFrame with
  | true =>
    refine foldlM_ok (I := fun p : Parsing => p.group.processOnRoi = false) (fun p hp key hkey => ?_) hp
    refine ⟨parseKey_quiet hkeys hkey (.inl hp), (setGroup_onRoi sec p.group key).trans ?_⟩
    split
    case isTrue heq => exact sec.getD_of_not_isOn hrois (heq ▸ hkey)
    case isFalse => exact hp
  | false =>
    have hon : sec.IsOn .processOnAllObjects := not_not.mp hrois
    rcases horder with hframe | hnone | ⟨rest, hrest⟩
    · cases hframe
    · refine foldlM_ok (I := fun _ => True) (fun p _ key hkey => ⟨?_, trivial⟩) trivial
      exact parseKey_quiet hkeys hkey (.inr fun suffix heq => hnone suffix (heq ▸ hkey))
    · have hmem : ∀ key ∈ Key.processOnAllObjects :: rest, key ∈ sec.keys := fun key hkey => hrest ▸ hkey
      rw [hrest, List.foldlM_cons, parseKey_quiet hkeys (hmem _ List.mem_cons_self) (.inr fun _ => by simp)]
      refine foldlM_ok (I := fun p : Parsing => p.group.processOnAllObjects = true) (fun p hp key hkey => ?_) hon.getD
      refine ⟨parseKey_quiet hkeys (hmem key (List.mem_cons_of_mem _ hkey)) (.inl ?_),
        (setGroup_onAllObjects sec p.group key).trans ?_⟩
      · rw [takesRois, hp]
        rfl
      · split
        · exact hon.getD
        · exact hp

/-- What the keys of a section set. -/
def readKeys (sec : Section) : GstNvDsPreProcessGroup := sec.keys.foldl (setGroup sec) {}

theorem takesRois_readKeys (hquiet : sec.IsQuiet processOnFrame) : takesRois processOnFrame (readKeys sec) = false := by
  have hrois := hquiet.rois
  unfold Section.WantsRois at hrois
  unfold readKeys takesRois
  cases processOnFrame with
  | true =>
    refine (foldl_field GstNvDsPreProcessGroup.processOnRoi _ _ (setGroup_onRoi sec) sec.keys {}).trans ?_
    split
    case isTrue hkey => exact sec.getD_of_not_isOn hrois hkey
    case isFalse => rfl
  | false =>
    have hon := hquiet.onAllObjects Bool.false_ne_true
    have hfield := foldl_field GstNvDsPreProcessGroup.processOnAllObjects _ _ (setGroup_onAllObjects sec) sec.keys {}
    rw [if_pos hon.1, hon.getD] at hfield
    rw [if_neg Bool.false_ne_true, hfield]
    rfl

def addGroupSource (group : GstNvDsPreProcessGroup) (s : ℤ) : GstNvDsPreProcessGroup :=
  { group with
    framemetaMap := emplace group.framemetaMap s [⟨0, 0, 0, 0⟩]
    replicatedSrcId := if group.srcIds.head? = some (-1) then s else group.replicatedSrcId }

theorem foldl_addSource (ids : List ℤ) (p : Parsing) : ids.foldl (addSource sec) p =
    { p with
      group := ids.foldl addGroupSource p.group
      srcToGroupMap := ids.foldl (fun m s => emplace m s sec.groupId) p.srcToGroupMap } := by
  induction ids generalizing p with
  | nil => rfl
  | cons s ids ih => exact ih (addSource sec p s)

def readGroup (sec : Section) : GstNvDsPreProcessGroup := (readKeys sec).srcIds.foldl addGroupSource (readKeys sec)

def readMap (m : ℤ → Option ℤ) (sec : Section) : ℤ → Option ℤ :=
  (readKeys sec).srcIds.foldl (fun m s => emplace m s sec.groupId) m

/-- What is known once a complete section has been read. -/
def Known (processOnFrame : Bool) (set : NvDsPreProcessPropertySet) : Prop :=
  set.srcIds = true ∧ (processOnFrame = true → set.processOnRoi = true)

theorem setFlags (keys : List Key) (set : NvDsPreProcessPropertySet) :
    (keys.foldl setFlag set).srcIds = (if .srcIds ∈ keys then true else set.srcIds) ∧
      (keys.foldl setFlag set).processOnRoi = (if .processOnRoi ∈ keys then true else set.processOnRoi) ∧
      (keys.foldl setFlag set).processOnAllObjects =
        if .processOnAllObjects ∈ keys then true else set.processOnAllObjects := by
  refine ⟨foldl_field NvDsPreProcessPropertySet.srcIds _ _ ?_ _ _,
    foldl_field NvDsPreProcessPropertySet.processOnRoi _ _ ?_ _ _,
    foldl_field NvDsPreProcessPropertySet.processOnAllObjects _ _ ?_ _ _⟩
  all_goals
    intro set key
    cases key <;> rfl

theorem known_of_isComplete (h : sec.IsComplete processOnFrame) (set : NvDsPreProcessPropertySet) :
    Known processOnFrame (sec.keys.foldl setFlag set) := by
  obtain ⟨hsrcIds, honRoi, -⟩ := setFlags sec.keys set
  exact ⟨hsrcIds.trans (if_pos h.1), fun hframe => honRoi.trans (if_pos (h.2 hframe))⟩

theorem Known.setFlags {set : NvDsPreProcessPropertySet} (h : Known processOnFrame set) (keys : List Key) :
    Known processOnFrame (keys.foldl setFlag set) := by
  obtain ⟨hsrcIds, honRoi, -⟩ := GroupSections.setFlags keys set
  refine ⟨hsrcIds.trans ?_, fun hframe => honRoi.trans ?_⟩
  · rw [h.1, ite_self]
  · rw [h.2 hframe, ite_self]

/-- What is read of a section in a quiet order. -/
theorem parseCommonGroup_quiet {e : GstNvDsPreProcess} (hquiet : sec.IsQuiet e.processOnFrame)
    (hknown : Known e.processOnFrame (sec.keys.foldl setFlag e.propertySet)) :
    parseCommonGroup e sec =
      .ok
        { e with
          nvdspreprocessGroups := e.nvdspreprocessGroups ++ [readGroup sec]
          propertySet := sec.keys.foldl setFlag e.propertySet
          srcToGroupMap := readMap e.srcToGroupMap sec } := by
  have htakes := takesRois_readKeys hquiet
  obtain ⟨honRoi, honAll, -⟩ := addSources_group sec (readKeys sec).srcIds
    { group := readKeys sec, propertySet := e.propertySet, srcToGroupMap := e.srcToGroupMap }
  rw [foldl_addSource] at honRoi honAll
  have hprops : hasProperties e.processOnFrame (readGroup sec) (sec.keys.foldl setFlag e.propertySet) = true := by
    have hnot : takesRois e.processOnFrame (readGroup sec) ≠ true := by
      rw [takesRois, readGroup, honRoi, honAll]
      exact Bool.eq_false_iff.mp htakes
    refine hasProperties_iff.mpr ⟨fun h => absurd h hnot, hknown.1, ?_⟩
    split
    case isTrue hframe => exact hknown.2 hframe
    case isFalse hframe =>
      exact (setFlags sec.keys e.propertySet).2.2.trans (if_pos (hquiet.onAllObjects hframe).1)
  unfold parseCommonGroup
  rw [keys_quiet hquiet rfl, foldl_setKey]
  dsimp only
  rw [← readKeys, if_neg (Bool.eq_false_iff.mp htakes), foldl_addSource]
  exact if_pos hprops

/-! ### Files that are read to the end -/

theorem foldlM_quiet {sections : List Section} {e : GstNvDsPreProcess}
    (hquiet : ∀ sec ∈ sections, sec.IsQuiet e.processOnFrame)
    (hknown : Known e.processOnFrame e.propertySet ∨
      ∀ sec, sections.head? = some sec → sec.IsComplete e.processOnFrame) :
    ∃ set, sections.foldlM parseCommonGroup e =
      .ok
        { e with
          nvdspreprocessGroups := e.nvdspreprocessGroups ++ sections.map readGroup
          propertySet := set
          srcToGroupMap := sections.foldl readMap e.srcToGroupMap } := by
  induction sections generalizing e with
  | nil => exact ⟨e.propertySet, by rw [List.map_nil, List.append_nil]; rfl⟩
  | cons sec sections ih =>
    have hset : Known e.processOnFrame (sec.keys.foldl setFlag e.propertySet) := by
      rcases hknown with hset | hfirst
      · exact hset.setFlags sec.keys
      · exact known_of_isComplete (hfirst sec rfl) e.propertySet
    obtain ⟨set, hrest⟩ :=
      ih (e := ⟨e.processOnFrame, e.nvdspreprocessGroups ++ [readGroup sec], sec.keys.foldl setFlag e.propertySet,
        readMap e.srcToGroupMap sec⟩) (fun sec' hsec' => hquiet sec' (List.mem_cons_of_mem sec hsec')) (.inl hset)
    refine ⟨set, ?_⟩
    rw [List.foldlM_cons, parseCommonGroup_quiet (hquiet sec List.mem_cons_self) hset]
    refine hrest.trans ?_
    rw [List.map_cons, List.append_assoc]
    rfl

/-- What is read of a file in a quiet order. -/
theorem parseGroups_quiet {sections : List Section} (hquiet : ∀ sec ∈ sections, sec.IsQuiet processOnFrame)
    (hfirst : ∀ sec, sections.head? = some sec → sec.IsComplete processOnFrame) :
    ∃ set, parseGroups processOnFrame sections =
      .ok ⟨processOnFrame, sections.map readGroup, set, sections.foldl readMap fun _ => none⟩ :=
  foldlM_quiet (e := { processOnFrame := processOnFrame }) hquiet (.inr hfirst)

/-! ### What a reordering keeps -/

section Reorder

variable {keys : List Key} {h : keys.Perm sec.keys}

theorem reorder_isOn {key : Key} : (sec.reorder keys h).IsOn key ↔ sec.IsOn key :=
  and_congr_left' h.mem_iff

theorem reorder_hasRefusedKey : (sec.reorder keys h).HasRefusedKey ↔ sec.HasRefusedKey := by
  unfold Section.HasRefusedKey Section.reorder
  simp only [h.mem_iff]

theorem reorder_wantsRois : (sec.reorder keys h).WantsRois processOnFrame ↔ sec.WantsRois processOnFrame := by
  unfold Section.WantsRois
  simp only [reorder_isOn]

theorem reorder_isRefused : (sec.reorder keys h).IsRefused processOnFrame ↔ sec.IsRefused processOnFrame :=
  or_congr reorder_hasRefusedKey reorder_wantsRois

theorem reorder_isDangerous : (sec.reorder keys h).IsDangerous processOnFrame ↔ sec.IsDangerous processOnFrame := by
  unfold Section.IsDangerous Section.HasRois
  simp only [reorder_isOn]
  unfold Section.IsRoiList Section.reorder
  simp only [h.mem_iff]

theorem reorder_hasRefusedRois : (sec.reorder keys h).HasRefusedRois ↔ sec.HasRefusedRois := by
  unfold Section.HasRefusedRois Section.IsRoiList Section.reorder
  simp only [h.mem_iff]

theorem reorder_isComplete : (sec.reorder keys h).IsComplete processOnFrame ↔ sec.IsComplete processOnFrame := by
  unfold Section.IsComplete Section.reorder
  simp only [h.mem_iff]

theorem reorder_readKeys : readKeys (sec.reorder keys h) = readKeys sec := h.foldl_eq (f := setGroup sec) {}

theorem reorder_readGroup : readGroup (sec.reorder keys h) = readGroup sec := by
  unfold readGroup
  rw [reorder_readKeys]

theorem reorder_readMap (m : ℤ → Option ℤ) : readMap m (sec.reorder keys h) = readMap m sec := by
  unfold readMap
  rw [reorder_readKeys]
  rfl

end Reorder

/-- What every order of a section has, every section of a reordered file has. -/
theorem File.Reorders.forall_iff {file : File} {sections : List Section} (h : file.Reorders sections)
    {P : Section → Prop} (hP : ∀ sec keys hkeys, P (Section.reorder sec keys hkeys) ↔ P sec) :
    (∀ sec ∈ sections, P sec) ↔ ∀ sec ∈ file.sections, P sec := by
  obtain ⟨l, hperm, hall⟩ := h
  rw [← forall_mem_iff_of_forall₂ hall fun sec sec' ⟨keys, hkeys, heq⟩ => heq ▸ (hP sec keys hkeys).symm]
  exact ⟨fun h sec hsec => h sec (hperm.mem_iff.mpr hsec), fun h sec hsec => h sec (hperm.mem_iff.mp hsec)⟩

theorem File.Reorders.exists_iff {file : File} {sections : List Section} (h : file.Reorders sections)
    {P : Section → Prop} (hP : ∀ sec keys hkeys, P (Section.reorder sec keys hkeys) ↔ P sec) :
    (∃ sec ∈ sections, P sec) ↔ ∃ sec ∈ file.sections, P sec := by
  simpa using not_congr (h.forall_iff (P := fun sec => ¬P sec) fun sec keys hkeys => not_congr (hP sec keys hkeys))

theorem File.Reorders.nil_iff {file : File} {sections : List Section} (h : file.Reorders sections) :
    sections = [] ↔ file.sections = [] := by
  obtain ⟨l, hperm, hall⟩ := h
  rw [← List.length_eq_zero_iff, ← List.length_eq_zero_iff, ← hall.length_eq, hperm.length_eq]

/-- The sections of a name are orders of one section. -/
theorem File.Reorders.readGroup_eq {file : File} {sections sections' : List Section} (h : file.Reorders sections)
    (h' : file.Reorders sections') {sec sec' : Section} (hsec : sec ∈ sections) (hsec' : sec' ∈ sections')
    (hname : sec'.name = sec.name) : readGroup sec' = readGroup sec := by
  have horigin : ∀ {sections : List Section} {sec : Section}, file.Reorders sections → sec ∈ sections →
      ∃ sec₀ ∈ file.sections, sec.name = sec₀.name ∧ readGroup sec = readGroup sec₀ := by
    rintro sections sec ⟨l, hperm, hall⟩ hsec
    obtain ⟨sec₀, hmem, keys, hkeys, rfl⟩ := exists_of_mem_forall₂ hall hsec
    exact ⟨sec₀, hperm.mem_iff.mp hmem, rfl, reorder_readGroup⟩
  obtain ⟨sec₀, hmem, hname₀, hgroup⟩ := horigin h hsec
  obtain ⟨sec₀', hmem', hname₀', hgroup'⟩ := horigin h' hsec'
  have hsame : sec₀' = sec₀ :=
    List.inj_on_of_nodup_map file.nodup hmem' hmem ((hname₀'.symm.trans hname).trans hname₀)
  rw [hgroup, hgroup', hsame]

/-! ### Files that are refused in every order -/

theorem parseGroups_refused {file : File} {sections : List Section} (hr : file.Reorders sections)
    (hsafe : ∀ sec ∈ file.sections, ¬sec.IsDangerous file.processOnFrame)
    (h : (∃ sec ∈ file.sections, sec.IsRefused file.processOnFrame) ∨
      (file.sections ≠ [] ∧ ∀ sec ∈ file.sections, ¬sec.IsComplete file.processOnFrame)) :
    parseGroups file.processOnFrame sections = .error .refused := by
  have hsafe' := (hr.forall_iff fun _ _ _ => not_congr reorder_isDangerous).mpr hsafe
  have hstep : ∀ e : GstNvDsPreProcess,
      e.processOnFrame = file.processOnFrame ∧ e.propertySet.roiParamsSrc = false → ∀ sec ∈ sections,
        (∃ e', parseCommonGroup e sec = .ok e' ∧
            e'.processOnFrame = file.processOnFrame ∧ e'.propertySet.roiParamsSrc = false) ∨
          ∃ f, parseCommonGroup e sec = .error f ∧ f = .refused := by
    rintro e ⟨hframe, hset⟩ sec hsec
    rcases parseCommonGroup_safe (hframe ▸ hsafe' sec hsec) hset with ⟨e', hok, hpassed⟩ | herror
    · exact .inl ⟨e', hok, hpassed.processOnFrame.trans hframe, hpassed.roiParamsSrc⟩
    · exact .inr herror
  suffices ∃ f, parseGroups file.processOnFrame sections = .error f ∧ f = .refused by
    obtain ⟨f, herror, rfl⟩ := this
    exact herror
  rcases h with hrefused | ⟨hne, hincomplete⟩
  · obtain ⟨sec, hsec, hrefused⟩ := (hr.exists_iff fun _ _ _ => reorder_isRefused).mpr hrefused
    refine foldlM_error hstep ⟨sec, hsec, ?_⟩ ⟨rfl, rfl⟩
    rintro e ⟨hframe, hset⟩
    refine (parseCommonGroup_safe (hframe ▸ hsafe' sec hsec) hset).resolve_left ?_
    rintro ⟨e', -, hpassed⟩
    exact hpassed.refused (hframe ▸ hrefused)
  · have hincomplete' := (hr.forall_iff fun _ _ _ => not_congr reorder_isComplete).mpr hincomplete
    cases sections with
    | nil => exact absurd (hr.nil_iff.mp rfl) hne
    | cons sec sections =>
      have hfirst := parseCommonGroup_safe (e := { processOnFrame := file.processOnFrame })
        (hsafe' sec List.mem_cons_self) rfl
      rcases hfirst with ⟨e', -, hpassed⟩ | ⟨f, herror, hf⟩
      · exact absurd (hpassed.complete rfl) (hincomplete' sec List.mem_cons_self)
      · unfold parseGroups
        rw [List.foldlM_cons, herror]
        exact ⟨f, rfl, hf⟩

/-! ### Files that are read to the end in every order -/

theorem isQuiet_of_allRead (hsafe : ¬sec.IsDangerous processOnFrame) (hrefused : ¬sec.IsRefused processOnFrame)
    (hrois : processOnFrame = false → ¬sec.HasRefusedRois) : sec.IsQuiet processOnFrame := by
  refine ⟨fun h => hrefused (.inl h), fun h => hrefused (.inr h), ?_⟩
  cases processOnFrame with
  | true => exact .inl rfl
  | false =>
    refine .inr (.inl fun suffix hkey => ?_)
    by_cases hlist : sec.IsRoiList suffix
    · exact hsafe ⟨⟨suffix, hkey, hlist⟩, Bool.noConfusion⟩
    · exact hrois rfl ⟨suffix, hkey, hlist⟩

theorem readKeys_srcIds (sec : Section) :
    (readKeys sec).srcIds = if .srcIds ∈ sec.keys then (sec.integerList .srcIds).getD [] else [] :=
  foldl_field GstNvDsPreProcessGroup.srcIds _ _ (setGroup_srcIds sec) sec.keys {}

theorem lists_of_mem {s : ℤ} (h : s ∈ (readKeys sec).srcIds) : sec.Lists s := by
  rw [readKeys_srcIds] at h
  by_cases hkey : .srcIds ∈ sec.keys
  · rw [if_pos hkey] at h
    cases hval : sec.integerList .srcIds with
    | none => rw [hval] at h; cases h
    | some ids => rw [hval] at h; exact .inl ⟨hkey, ids, hval, h⟩
  · rw [if_neg hkey] at h
    cases h

theorem foldl_emplace_apply (ids : List ℤ) (value : ℤ) (m : ℤ → Option ℤ) (s : ℤ) :
    ids.foldl (fun m s => emplace m s value) m s = if s ∈ ids then some ((m s).getD value) else m s := by
  induction ids generalizing m with
  | nil => simp
  | cons id ids ih =>
    rw [List.foldl_cons, ih]
    unfold emplace
    by_cases hs : s = id
    · subst hs
      simp
    · simp [hs]

theorem readMap_apply (m : ℤ → Option ℤ) (sec : Section) (s : ℤ) :
    readMap m sec s = if s ∈ (readKeys sec).srcIds then some ((m s).getD sec.groupId) else m s :=
  foldl_emplace_apply _ _ m s

/-- No source is entered when none is listed. -/
theorem foldl_readMap_none {sections : List Section} (h : ∀ sec ∈ sections, (readKeys sec).srcIds = [])
    (m : ℤ → Option ℤ) : sections.foldl readMap m = m := by
  induction sections with
  | nil => rfl
  | cons sec sections ih =>
    have hfirst : readMap m sec = m := by rw [readMap, h sec List.mem_cons_self]; rfl
    rw [List.foldl_cons, hfirst]
    exact ih fun sec' hsec' => h sec' (List.mem_cons_of_mem sec hsec')

/-- A source that a section lists is entered. -/
theorem isSome_foldl_readMap {sections : List Section} {s : ℤ} (h : ∃ sec ∈ sections, s ∈ (readKeys sec).srcIds)
    (m : ℤ → Option ℤ) : (sections.foldl readMap m s).isSome := by
  have hkeep : ∀ (sections : List Section) (m : ℤ → Option ℤ), (m s).isSome → (sections.foldl readMap m s).isSome := by
    intro sections
    induction sections with
    | nil => exact fun _ hm => hm
    | cons sec sections ih =>
      intro m hm
      refine ih (readMap m sec) ?_
      rw [readMap_apply]
      split
      · rfl
      · exact hm
  obtain ⟨sec, hsec, hs⟩ := h
  obtain ⟨front, back, rfl⟩ := List.append_of_mem hsec
  rw [List.foldl_append, List.foldl_cons]
  refine hkeep back _ ?_
  rw [readMap_apply, if_pos hs]
  rfl

/-- Reading in an order leaves this. -/
def read (processOnFrame : Bool) (set : NvDsPreProcessPropertySet) (sections : List Section) : GstNvDsPreProcess :=
  ⟨processOnFrame, sections.map readGroup, set, sections.foldl readMap fun _ => none⟩

theorem assigned_congr {sections sections' : List Section} {e e' : GstNvDsPreProcess}
    (hmap : e'.srcToGroupMap = e.srcToGroupMap)
    (hlength : e'.nvdspreprocessGroups.length = e.nvdspreprocessGroups.length)
    (hnames : sections'.map Section.name = sections.map Section.name) (s : ℤ) :
    assigned sections' e' s = assigned sections e s := by
  unfold assigned roiUpdateGroup
  simp only [← List.getElem?_map, hmap, hlength, hnames]

theorem sameMeaning_read {file : File} {sections sections' : List Section} {set set' : NvDsPreProcessPropertySet}
    (hr : file.Reorders sections) (hr' : file.Reorders sections')
    (hmap : (read processOnFrame set' sections').srcToGroupMap = (read processOnFrame set sections).srcToGroupMap)
    (hassigned : ∀ s, assigned sections' (read processOnFrame set' sections') s =
      assigned sections (read processOnFrame set sections) s) :
    SameMeaning sections (read processOnFrame set sections) sections' (read processOnFrame set' sections') := by
  refine ⟨hmap, hassigned, ?_⟩
  intro i j sec sec' group group' hsec hsec' hname hgroup hgroup'
  have hi : (sections.map readGroup)[i]? = some (readGroup sec) := by rw [List.getElem?_map, hsec]; rfl
  have hj : (sections'.map readGroup)[j]? = some (readGroup sec') := by rw [List.getElem?_map, hsec']; rfl
  have hsame := hr.readGroup_eq hr' (List.mem_of_getElem? hsec) (List.mem_of_getElem? hsec') hname
  rw [Option.some.inj (hgroup.symm.trans hi), Option.some.inj (hgroup'.symm.trans hj), hsame]
  exact ⟨rfl, rfl⟩

/-- No section stops the reading of a file in any order. -/
structure File.Accepts (file : File) : Prop where
  safe : ∀ sec ∈ file.sections, ¬sec.IsDangerous file.processOnFrame
  refused : ∀ sec ∈ file.sections, ¬sec.IsRefused file.processOnFrame
  read : AllRead file

theorem File.Accepts.parseGroups {file : File} (h : file.Accepts) {sections : List Section}
    (hr : file.Reorders sections) :
    ∃ set, parseGroups file.processOnFrame sections = .ok (GroupSections.read file.processOnFrame set sections) := by
  have hsafe := (hr.forall_iff fun _ _ _ => not_congr reorder_isDangerous).mpr h.safe
  have hrefused := (hr.forall_iff fun _ _ _ => not_congr reorder_isRefused).mpr h.refused
  have hread := (hr.forall_iff fun _ _ _ => and_congr reorder_isComplete
    (imp_congr_right fun _ => not_congr reorder_hasRefusedRois)).mpr h.read
  refine parseGroups_quiet (fun sec hsec => ?_) fun sec hsec => (hread sec (List.mem_of_head? hsec)).1
  exact isQuiet_of_allRead (hsafe sec hsec) (hrefused sec hsec) (hread sec hsec).2

theorem File.Reorders.singleton {file : File} {sec : Section} (hfile : file.sections = [sec])
    {sections : List Section} (h : file.Reorders sections) :
    ∃ keys hkeys, sections = [sec.reorder keys hkeys] := by
  obtain ⟨l, hperm, hall⟩ := h
  rw [hfile, List.perm_singleton] at hperm
  subst hperm
  obtain ⟨sec', rest, ⟨keys, hkeys, rfl⟩, hrest, rfl⟩ := List.forall₂_cons_left_iff.mp hall
  cases hrest
  exact ⟨keys, hkeys, rfl⟩

/-- Of one section, group 0. -/
theorem leadsToLister_singleton (h : sec.groupId = 0) (set : NvDsPreProcessPropertySet) :
    LeadsToLister [sec] (read processOnFrame set [sec]) := by
  intro s id hmap
  have hentry : (if s ∈ (readKeys sec).srcIds then some sec.groupId else none) = some id :=
    (readMap_apply _ sec s).symm.trans hmap
  have hs : s ∈ (readKeys sec).srcIds := by
    by_contra hnot
    rw [if_neg hnot] at hentry
    cases hentry
  rw [if_pos hs, h] at hentry
  cases hentry
  refine ⟨0, sec, ?_, rfl, lists_of_mem hs, ?_⟩
  · rw [roiUpdateGroup, hmap]
    rfl
  · rintro gcnt ⟨group, hgroup, -⟩
    have hlt : gcnt < 1 := (List.getElem?_eq_some_iff.mp hgroup).1
    exact Nat.lt_one_iff.mp hlt

theorem meets_of_numbered {file : File} (h : file.Accepts) (hnumbered : Numbered file) : Meets file := by
  refine .inr fun sections hr => ?_
  obtain ⟨set, hset⟩ := h.parseGroups hr
  refine ⟨_, hset, ?_⟩
  have hsame : ∀ {sections' : List Section} {e' : GstNvDsPreProcess}, file.Reorders sections' →
      parseGroups file.processOnFrame sections' = .ok e' → ∃ set', e' = read file.processOnFrame set' sections' := by
    intro sections' e' hr' he'
    obtain ⟨set', hset'⟩ := h.parseGroups hr'
    exact ⟨set', Except.ok.inj (he'.symm.trans hset')⟩
  rcases hnumbered with hnone | ⟨sec, hfile, hzero⟩
  · have hempty : ∀ {sections' : List Section}, file.Reorders sections' → ∀ set',
        (read file.processOnFrame set' sections').srcToGroupMap = fun _ => none := by
      intro sections' hr' set'
      refine foldl_readMap_none ((hr'.forall_iff fun _ _ _ => by rw [reorder_readKeys]).mpr fun sec hsec => ?_) _
      have hids : sec.integerList .srcIds = some [] := hnone sec hsec
      rw [readKeys_srcIds, hids]
      exact ite_self _
    have hno : ∀ {sections' : List Section}, file.Reorders sections' → ∀ set' s,
        assigned sections' (read file.processOnFrame set' sections') s = none := by
      intro sections' hr' set' s
      rw [assigned, roiUpdateGroup, hempty hr' set']
      rfl
    refine ⟨fun s id hmap => ?_, fun sections' e' hr' he' => ?_⟩
    · rw [hempty hr set] at hmap
      cases hmap
    · obtain ⟨set', rfl⟩ := hsame hr' he'
      refine sameMeaning_read hr hr' ?_ fun s => ?_
      · rw [hempty hr set, hempty hr' set']
      · rw [hno hr set, hno hr' set']
  · obtain ⟨keys, hkeys, rfl⟩ := hr.singleton hfile
    have hzero' : (sec.reorder keys hkeys).groupId = 0 := hzero
    refine ⟨leadsToLister_singleton hzero' set, fun sections' e' hr' he' => ?_⟩
    obtain ⟨set', rfl⟩ := hsame hr' he'
    obtain ⟨keys', hkeys', rfl⟩ := hr'.singleton hfile
    have hmap : readMap (fun _ => none) (sec.reorder keys' hkeys') = readMap (fun _ => none) (sec.reorder keys hkeys) := by
      rw [reorder_readMap, reorder_readMap]
    exact sameMeaning_read hr hr' hmap (assigned_congr hmap rfl rfl)

/-! ### Orders that are not read to the end -/

/-- Any section can be the first one, in any order of its keys. -/
theorem File.exists_reorders_cons {file : File} (hsec : sec ∈ file.sections) :
    ∃ rest, (sec :: rest).Perm file.sections ∧
      ∀ keys h, file.Reorders (sec.reorder keys h :: rest) := by
  obtain ⟨rest, hperm⟩ := exists_perm_cons hsec
  refine ⟨rest, hperm, fun keys h => ⟨sec :: rest, hperm, .cons ⟨keys, h, rfl⟩ ?_⟩⟩
  exact List.forall₂_same.mpr fun sec' _ => ⟨sec'.keys, .refl _, rfl⟩

theorem parseCommonGroup_error {e : GstNvDsPreProcess} {keys : List Key} (h : keys.Perm sec.keys) {f : Failure}
    (hfold : keys.foldlM (parseKey e.processOnFrame sec)
      { propertySet := e.propertySet, srcToGroupMap := e.srcToGroupMap } = .error f) :
    parseCommonGroup e (sec.reorder keys h) = .error f := by
  have hsame : (sec.reorder keys h).keys.foldlM (parseKey e.processOnFrame (sec.reorder keys h))
      { propertySet := e.propertySet, srcToGroupMap := e.srcToGroupMap } = .error f := hfold
  unfold parseCommonGroup
  rw [hsame]

/-- A region is read before the sources are. -/
theorem exists_undefined (h : sec.IsDangerous processOnFrame) :
    ∃ keys hkeys, parseCommonGroup { processOnFrame := processOnFrame } (sec.reorder keys hkeys) =
      .error .undefined := by
  obtain ⟨⟨suffix, hkey, list, hlist, hlen⟩, hon⟩ := h
  have hrois : ∀ p : Parsing, p.group.srcIds = [] → parseRois sec p suffix = .error .undefined := by
    intro p hids
    unfold parseRois
    rw [hlist]
    dsimp only
    rw [if_neg (not_not.mpr hlen), hids]
  cases processOnFrame with
  | false =>
    obtain ⟨keys, hkeys⟩ := exists_perm_cons hkey
    refine ⟨_, hkeys, parseCommonGroup_error hkeys ?_⟩
    rw [List.foldlM_cons, parseKey, if_pos (by rfl), hrois _ rfl]
    rfl
  | true =>
    obtain ⟨hmode, hval⟩ := hon rfl
    obtain ⟨keys, hkeys⟩ := exists_perm_cons hmode
    have hrest : .roiParamsSrc suffix ∈ keys :=
      (List.mem_cons.mp (hkeys.mem_iff.mpr hkey)).resolve_left Key.noConfusion
    obtain ⟨rest, hperm⟩ := exists_perm_cons hrest
    refine ⟨_, (hperm.cons _).trans hkeys, parseCommonGroup_error _ ?_⟩
    rw [List.foldlM_cons, parseKey, hval]
    dsimp only [Bind.bind, Except.bind]
    rw [List.foldlM_cons, parseKey, if_pos (by rfl), hrois _ rfl]
    rfl

/-- A list that is no list of regions stops the reading. -/
theorem exists_refused (h : sec.HasRefusedRois) :
    ∃ keys hkeys, parseCommonGroup { processOnFrame := false } (sec.reorder keys hkeys) = .error .refused := by
  obtain ⟨suffix, hkey, hlist⟩ := h
  obtain ⟨keys, hkeys⟩ := exists_perm_cons hkey
  refine ⟨_, hkeys, parseCommonGroup_error hkeys ?_⟩
  rw [List.foldlM_cons, parseKey, if_pos (by rfl), parseRois_refused hlist]
  rfl

theorem exists_quiet (h : ¬sec.IsRefused processOnFrame) :
    ∃ sec', (∃ keys hkeys, sec' = sec.reorder keys hkeys) ∧ sec'.IsQuiet processOnFrame := by
  have hquiet : ∀ keys hkeys, (processOnFrame = true ∨ ∃ rest, keys = .processOnAllObjects :: rest) →
      (sec.reorder keys hkeys).IsQuiet processOnFrame := fun keys hkeys horder =>
    ⟨fun hkey => h (.inl (reorder_hasRefusedKey.mp hkey)), fun hrois => h (.inr (reorder_wantsRois.mp hrois)),
      horder.imp_right .inr⟩
  by_cases hframe : processOnFrame = true
  · exact ⟨_, ⟨sec.keys, .refl _, rfl⟩, hquiet _ _ (.inl hframe)⟩
  · have hon : sec.IsOn .processOnAllObjects := by
      by_contra hoff
      exact h (.inr (by rwa [Section.WantsRois, if_neg hframe]))
    obtain ⟨keys, hkeys⟩ := exists_perm_cons hon.1
    exact ⟨_, ⟨_, hkeys, rfl⟩, hquiet _ hkeys (.inr ⟨keys, rfl⟩)⟩

/-- A file with a complete section is read to the end in some order, when no section is refused. -/
theorem exists_parseGroups {file : File} (hrefused : ∀ sec ∈ file.sections, ¬sec.IsRefused file.processOnFrame)
    (hsec : sec ∈ file.sections) (hcomplete : sec.IsComplete file.processOnFrame) :
    ∃ sections e, file.Reorders sections ∧ parseGroups file.processOnFrame sections = .ok e := by
  obtain ⟨rest, hperm⟩ := exists_perm_cons hsec
  obtain ⟨sections, hall, hquiet⟩ :=
    exists_forall₂ fun sec' hsec' => exists_quiet (hrefused sec' (hperm.mem_iff.mp hsec'))
  obtain ⟨set, hok⟩ := parseGroups_quiet hquiet fun sec' hsec' => by
    obtain ⟨first, rest', ⟨keys, hkeys, rfl⟩, -, rfl⟩ := List.forall₂_cons_left_iff.mp hall
    cases hsec'
    exact reorder_isComplete.mpr hcomplete
  exact ⟨sections, _, ⟨_, hperm, hall⟩, hok⟩

/-- The first section is read before any other. -/
theorem parseGroups_first_error {sections : List Section} {f : Failure}
    (h : parseCommonGroup { processOnFrame := processOnFrame } sec = .error f) :
    parseGroups processOnFrame (sec :: sections) = .error f := by
  unfold parseGroups
  rw [List.foldlM_cons, h]
  rfl

theorem not_isDangerous_of_meets {file : File} (h : Meets file) (hsec : sec ∈ file.sections) :
    ¬sec.IsDangerous file.processOnFrame := by
  intro hdangerous
  obtain ⟨keys, hkeys, hundefined⟩ := exists_undefined hdangerous
  obtain ⟨rest, -, hr⟩ := File.exists_reorders_cons hsec
  have hresult : parseGroups file.processOnFrame (sec.reorder keys hkeys :: rest) = .error .undefined :=
    parseGroups_first_error hundefined
  rcases h with hrefused | hok
  · have hcontra := hresult.symm.trans (hrefused _ (hr keys hkeys))
    cases hcontra
  · obtain ⟨e, he, -⟩ := hok _ (hr keys hkeys)
    cases hresult.symm.trans he

/-- When every order is read to the end, so is every section in every order. -/
theorem accepts_of_ok {file : File} (hsafe : ∀ sec ∈ file.sections, ¬sec.IsDangerous file.processOnFrame)
    (hok : ∀ sections, file.Reorders sections → ∃ e, parseGroups file.processOnFrame sections = .ok e) :
    file.Accepts := by
  have hfirst : ∀ sec ∈ file.sections, ∀ keys hkeys, ∃ e',
      parseCommonGroup { processOnFrame := file.processOnFrame } (sec.reorder keys hkeys) = .ok e' := by
    intro sec hsec keys hkeys
    obtain ⟨rest, -, hr⟩ := File.exists_reorders_cons hsec
    obtain ⟨e, he⟩ := hok _ (hr keys hkeys)
    cases hparse : parseCommonGroup { processOnFrame := file.processOnFrame } (sec.reorder keys hkeys) with
    | ok e' => exact ⟨e', rfl⟩
    | error f => cases (parseGroups_first_error hparse).symm.trans he
  have hpassed : ∀ sec ∈ file.sections, ∃ e', Passed sec { processOnFrame := file.processOnFrame } e' := by
    intro sec hsec
    obtain ⟨e', he'⟩ := hfirst sec hsec sec.keys (.refl _)
    rcases parseCommonGroup_safe (e := { processOnFrame := file.processOnFrame }) (hsafe sec hsec) rfl with
      ⟨e'', -, hpassed⟩ | ⟨f, herror, -⟩
    · exact ⟨e'', hpassed⟩
    · cases he'.symm.trans herror
  refine ⟨hsafe, fun sec hsec => ?_, fun sec hsec => ⟨?_, fun hframe hrois => ?_⟩⟩
  · obtain ⟨e', h⟩ := hpassed sec hsec
    exact h.refused
  · obtain ⟨e', h⟩ := hpassed sec hsec
    exact h.complete rfl
  · obtain ⟨keys, hkeys, herror⟩ := exists_refused hrois
    obtain ⟨e', he'⟩ := hfirst sec hsec keys hkeys
    rw [hframe, herror] at he'
    cases he'

/-- With two elements, a rotation leaves none where it was. -/
theorem length_of_rotate {α : Type*} {l : List α} (hnodup : l.Nodup) {i : ℕ} (hi : i < l.length)
    (h : (l.rotate 1)[i]? = l[i]?) : l.length = 1 := by
  rw [List.getElem?_rotate hi] at h
  have hindex : (i + 1) % l.length = i := (List.getElem?_inj (Nat.mod_lt _ (by omega)) hnodup).mp h
  by_contra hne
  by_cases hlast : i + 1 = l.length
  · rw [hlast, Nat.mod_self] at hindex
    omega
  · rw [Nat.mod_eq_of_lt (by omega)] at hindex
    omega

/-- With two sections, the same number means different sections in different orders. -/
theorem numbered_of_leads {file : File} (h : file.Accepts)
    (hleads : ∀ sections, file.Reorders sections → ∃ e, parseGroups file.processOnFrame sections = .ok e ∧
      LeadsToLister sections e ∧ ∀ sections' e', file.Reorders sections' →
        parseGroups file.processOnFrame sections' = .ok e' → SameMeaning sections e sections' e') :
    Numbered file := by
  by_cases hnone : ∀ sec ∈ file.sections, sec.ListsNone
  · exact .inl hnone
  right
  obtain ⟨sec, hsec, hids⟩ : ∃ sec ∈ file.sections, ¬sec.ListsNone := by simpa using hnone
  -- A source that is listed.
  obtain ⟨s, hs⟩ : ∃ s, s ∈ (readKeys sec).srcIds := by
    have hkey := (h.read sec hsec).1.1
    cases hval : sec.integerList .srcIds with
    | none => exact absurd (.inl (.inl ⟨hkey, hval⟩)) (h.refused sec hsec)
    | some ids =>
      refine List.exists_mem_of_ne_nil _ ?_
      rw [readKeys_srcIds, if_pos hkey, hval]
      exact fun hnil => hids (hval.trans (congrArg some hnil))
  -- The file as it is, and with the first section at the end.
  have hreorders : ∀ l : List Section, l.Perm file.sections → file.Reorders l := fun l hperm =>
    ⟨l, hperm, List.forall₂_same.mpr fun sec' _ => ⟨sec'.keys, .refl _, rfl⟩⟩
  have hr := hreorders file.sections (.refl _)
  have hr' := hreorders (file.sections.rotate 1) (List.rotate_perm _ _)
  obtain ⟨set, hread⟩ := h.parseGroups hr
  obtain ⟨set', hread'⟩ := h.parseGroups hr'
  obtain ⟨e, he, hlead, hsame⟩ := hleads file.sections hr
  cases he.symm.trans hread
  have hmeaning := hsame _ _ hr' hread'
  obtain ⟨id, hid⟩ := Option.isSome_iff_exists.mp (isSome_foldl_readMap ⟨sec, hsec, hs⟩ fun _ => none)
  obtain ⟨i, sec', hupdate, hget, -, -⟩ := hlead s id hid
  have hupdate' : roiUpdateGroup (read file.processOnFrame set' (file.sections.rotate 1)) s = some i := by
    have hlengths : ((file.sections.rotate 1).map readGroup).length = (file.sections.map readGroup).length := by simp
    rw [← hupdate, roiUpdateGroup, roiUpdateGroup, hmeaning.map, read, read, hlengths]
  have hnames : ((file.sections.map Section.name).rotate 1)[i]? = (file.sections.map Section.name)[i]? := by
    have hassigned := hmeaning.section_eq s
    rw [assigned, assigned, hupdate, hupdate'] at hassigned
    rw [← List.map_rotate, List.getElem?_map, List.getElem?_map]
    exact hassigned
  have hi : i < (file.sections.map Section.name).length := by
    rw [List.length_map]
    exact (List.getElem?_eq_some_iff.mp hget).1
  have hlength := length_of_rotate file.nodup hi hnames
  rw [List.length_map] at hlength
  obtain ⟨first, hfirst⟩ := List.length_eq_one_iff.mp hlength
  rw [hfirst, List.mem_singleton] at hsec
  subst hsec
  refine ⟨sec, hfirst, ?_⟩
  have hentry : sec.groupId = id := by
    rw [hfirst, List.foldl_cons, List.foldl_nil, readMap_apply, if_pos hs] at hid
    exact Option.some.inj hid
  have hbound : 0 ≤ id ∧ id < (1 : ℕ) := by
    have hmap : (read file.processOnFrame set file.sections).srcToGroupMap s = some id := hid
    have hgroups : (read file.processOnFrame set file.sections).nvdspreprocessGroups.length = 1 := by
      rw [read, List.length_map, hlength]
    rw [roiUpdateGroup, hmap, hgroups] at hupdate
    by_contra hout
    rw [Option.bind_some, if_neg hout] at hupdate
    cases hupdate
  omega

/-- The meaning of a file does not depend on the order of its group sections and of their keys exactly
when no section lets a region be read before its sources, and a section is refused in every order,
or none is complete, or all can be read and at most one group, number 0, has sources. -/
theorem groupOrder_iff (file : File) : Meets file ↔ MeetsWhen file := by
  constructor
  · intro h
    have hsafe : ∀ sec ∈ file.sections, ¬sec.IsDangerous file.processOnFrame := fun _ hsec =>
      not_isDangerous_of_meets h hsec
    refine ⟨hsafe, ?_⟩
    by_cases hrefused : ∃ sec ∈ file.sections, sec.IsRefused file.processOnFrame
    · exact .inl hrefused
    right
    by_cases hincomplete : file.sections ≠ [] ∧ ∀ sec ∈ file.sections, ¬sec.IsComplete file.processOnFrame
    · exact .inl hincomplete
    right
    by_cases hnil : file.sections = []
    · have hempty : ∀ sec, sec ∉ file.sections := fun sec hsec => by simp [hnil] at hsec
      exact ⟨fun sec hsec => absurd hsec (hempty sec), .inl fun sec hsec => absurd hsec (hempty sec)⟩
    obtain ⟨sec, hsec, hcomplete⟩ : ∃ sec ∈ file.sections, sec.IsComplete file.processOnFrame := by
      by_contra hnone
      exact hincomplete ⟨hnil, fun sec hsec hcomplete => hnone ⟨sec, hsec, hcomplete⟩⟩
    have hpasses : ∀ sec ∈ file.sections, ¬sec.IsRefused file.processOnFrame := fun sec hsec h =>
      hrefused ⟨sec, hsec, h⟩
    obtain ⟨sections, e, hr, he⟩ := exists_parseGroups hpasses hsec hcomplete
    rcases h with hall | hall
    · cases he.symm.trans (hall sections hr)
    · have haccepts := accepts_of_ok hsafe fun sections hr => (hall sections hr).imp fun _ h => h.1
      exact ⟨haccepts.read, numbered_of_leads haccepts hall⟩
  · rintro ⟨hsafe, hrefused | hincomplete | ⟨hread, hnumbered⟩⟩
    · exact .inl fun sections hr => parseGroups_refused hr hsafe (.inl hrefused)
    · exact .inl fun sections hr => parseGroups_refused hr hsafe (.inr hincomplete)
    · by_cases hrefused : ∃ sec ∈ file.sections, sec.IsRefused file.processOnFrame
      · exact .inl fun sections hr => parseGroups_refused hr hsafe (.inl hrefused)
      · exact meets_of_numbered ⟨hsafe, fun sec hsec h => hrefused ⟨sec, hsec, h⟩, hread⟩ hnumbered

/-- `[group-0]` with `src-ids=0`, `process-on-roi=1` and `roi-params-src-0=0;0;64;64`. -/
def group0 : Section where
  name := ['0']
  keys := [.srcIds, .processOnRoi, .roiParamsSrc ['-', '0']]
  integerList key := if key = .srcIds then some [0] else some [0, 0, 64, 64]
  boolean _ := some true
  accepts _ := true
  nodup := by decide

/-- As it is, the section is accepted; with its last key first, it is refused. -/
theorem not_meets_regionFirst : ¬Meets ⟨true, [group0], List.nodup_singleton _⟩ := by
  have hswap : [.roiParamsSrc ['-', '0'], .srcIds, .processOnRoi].Perm group0.keys := by decide
  rintro (hrefused | hok)
  · have hcontra := hrefused [group0] ⟨_, .refl _, .cons ⟨group0.keys, .refl _, rfl⟩ .nil⟩
    obtain ⟨e, he⟩ : ∃ e, parseGroups true [group0] = .ok e := ⟨_, rfl⟩
    cases hcontra.symm.trans he
  · obtain ⟨e, he, -⟩ := hok [group0.reorder _ hswap] ⟨_, .refl _, .cons ⟨_, hswap, rfl⟩ .nil⟩
    have hrefused : parseGroups true [group0.reorder _ hswap] = .error .refused := rfl
    cases hrefused.symm.trans he

end GroupSections
end Preprocess
end DeepStream
