/-
# The group sections of a preprocess configuration

`nvdspreprocess_parse_common_group` reads the keys of a `[group-n]` section in the order of the
file. Whether a `roi-params-src` key is looked at depends on what was read before it, and so
does the source that it takes the region from. The number in the name of the section is entered for
its sources, while the group object goes to the end of a vector. What was set, by any section so
far, is remembered for all of them.

What GLib's getters return for a key is part of the section. Where a vector without elements is
asked for its first one, nothing is known of what follows.
-/
import DeepStream.Lib.Word
import DeepStream.Mux.ConfigParser

namespace DeepStream
namespace Preprocess
namespace GroupSections

/-! ### Sections -/

/-- The keys of a section: of `roi-params-src`, what follows; and those that set something else. -/
inductive Key where
  | srcIds
  | processOnRoi
  | processOnAllObjects
  | roiParamsSrc (suffix : List Char)
  | other (name : List Char)
  deriving DecidableEq, Repr

/-- A section `[group-n]`. The getters give `none` where they set an error. -/
structure Section where
  name : List Char
  keys : List Key
  integerList : Key → Option (List ℤ)
  boolean : Key → Option Bool
  accepts : Key → Bool
  nodup : keys.Nodup

/-- `g_strsplit`, with at most `n + 1` tokens. -/
def strsplit : ℕ → List Char → List (List Char)
  | 0, text => [text]
  | n + 1, text =>
    match text.dropWhile (· ≠ '-') with
    | [] => [text]
    | _ :: rest => text.takeWhile (· ≠ '-') :: strsplit n rest

/-- `EXTRACT_STREAM_ID`, as the `gint` of the maps. -/
def streamId (suffix : List Char) : ℤ :=
  toInt32 (MuxConfigParser.gAsciiStrtoull ((strsplit 4 ("roi-params-src".toList ++ suffix)).getLastD []))

/-- `EXTRACT_GROUP_ID`, as the `gint` of the map. -/
def Section.groupId (sec : Section) : ℤ := toInt32 (MuxConfigParser.gAsciiStrtoull sec.name)

/-! ### The element -/

structure Roi where
  left : ℤ
  top : ℤ
  width : ℤ
  height : ℤ
  deriving DecidableEq, Repr

structure GstNvDsPreProcessGroup where
  srcIds : List ℤ := []
  framemetaMap : ℤ → Option (List Roi) := fun _ => none
  processOnRoi : Bool := false
  processOnAllObjects : Bool := false
  replicatedSrcId : ℤ := 0

structure NvDsPreProcessPropertySet where
  srcIds : Bool := false
  processOnRoi : Bool := false
  processOnAllObjects : Bool := false
  roiParamsSrc : Bool := false
  deriving DecidableEq, Repr

structure GstNvDsPreProcess where
  processOnFrame : Bool
  nvdspreprocessGroups : List GstNvDsPreProcessGroup := []
  propertySet : NvDsPreProcessPropertySet := {}
  srcToGroupMap : ℤ → Option ℤ := fun _ => none

/-- A map keeps what it has for a key. -/
def emplace {β : Type} (m : ℤ → Option β) (key : ℤ) (value : β) : ℤ → Option β :=
  fun i => if i = key then some ((m key).getD value) else m i

/-! ### Parsing a section -/

inductive Failure where
  | refused | undefined
  deriving DecidableEq, Repr

/-- What is changed while a section is read. -/
structure Parsing where
  group : GstNvDsPreProcessGroup := {}
  sameRoiForAllSrcs : Bool := false
  propertySet : NvDsPreProcessPropertySet
  srcToGroupMap : ℤ → Option ℤ

def roisOf : List ℤ → List Roi
  | left :: top :: width :: height :: rest => ⟨left, top, width, height⟩ :: roisOf rest
  | _ => []

/-- Whether regions are read, by what is known so far. -/
def takesRois (processOnFrame : Bool) (group : GstNvDsPreProcessGroup) : Bool :=
  if processOnFrame then group.processOnRoi else !group.processOnAllObjects

variable (processOnFrame : Bool) (sec : Section)

def parseRois (p : Parsing) (suffix : List Char) : Except Failure Parsing :=
  match sec.integerList (.roiParamsSrc suffix) with
  | none => .error .refused
  | some list =>
    if list.length % 4 ≠ 0 then .error .refused
    else
      let sourceIndex := streamId suffix
      let frame :=
        if p.sameRoiForAllSrcs then (p.group.framemetaMap p.group.replicatedSrcId).getD [] else roisOf list
      match p.group.srcIds with
      | [] => .error .undefined
      | first :: _ =>
        .ok
          { group :=
              { p.group with
                framemetaMap := emplace p.group.framemetaMap sourceIndex frame
                replicatedSrcId := if first = -1 then sourceIndex else p.group.replicatedSrcId }
            sameRoiForAllSrcs := p.sameRoiForAllSrcs || decide (first = -1)
            propertySet := { p.propertySet with roiParamsSrc := true }
            srcToGroupMap := emplace p.srcToGroupMap sourceIndex sec.groupId }

def parseKey (p : Parsing) : Key → Except Failure Parsing
  | .srcIds =>
    match sec.integerList .srcIds with
    | none => .error .refused
    | some ids =>
      .ok { p with group := { p.group with srcIds := ids }, propertySet := { p.propertySet with srcIds := true } }
  | .processOnRoi =>
    match sec.boolean .processOnRoi with
    | none => .error .refused
    | some val =>
      .ok
        { p with
          group := { p.group with processOnRoi := val }
          propertySet := { p.propertySet with processOnRoi := true } }
  | .processOnAllObjects =>
    match sec.boolean .processOnAllObjects with
    | none => .error .refused
    | some val =>
      .ok
        { p with
          group := { p.group with processOnAllObjects := val }
          propertySet := { p.propertySet with processOnAllObjects := true } }
  | .roiParamsSrc suffix => if takesRois processOnFrame p.group then parseRois sec p suffix else .ok p
  | .other name => if sec.accepts (.other name) then .ok p else .error .refused

/-- A group without regions has one empty region for each source. -/
def addSource (p : Parsing) (s : ℤ) : Parsing where
  group :=
    { p.group with
      framemetaMap := emplace p.group.framemetaMap s [⟨0, 0, 0, 0⟩]
      replicatedSrcId := if p.group.srcIds.head? = some (-1) then s else p.group.replicatedSrcId }
  sameRoiForAllSrcs := p.sameRoiForAllSrcs
  propertySet := p.propertySet
  srcToGroupMap := emplace p.srcToGroupMap s sec.groupId

def hasProperties (group : GstNvDsPreProcessGroup) (set : NvDsPreProcessPropertySet) : Bool :=
  if processOnFrame then
    if group.processOnRoi then set.srcIds && set.processOnRoi && set.roiParamsSrc else set.srcIds && set.processOnRoi
  else if !group.processOnAllObjects then set.srcIds && set.processOnAllObjects && set.roiParamsSrc
  else set.srcIds && set.processOnAllObjects

def parseCommonGroup (e : GstNvDsPreProcess) (sec : Section) : Except Failure GstNvDsPreProcess :=
  match sec.keys.foldlM (parseKey e.processOnFrame sec)
      { propertySet := e.propertySet, srcToGroupMap := e.srcToGroupMap } with
  | .error failure => .error failure
  | .ok p =>
    let p := if takesRois e.processOnFrame p.group then p else p.group.srcIds.foldl (addSource sec) p
    if hasProperties e.processOnFrame p.group p.propertySet then
      .ok
        { e with
          nvdspreprocessGroups := e.nvdspreprocessGroups ++ [p.group]
          propertySet := p.propertySet
          srcToGroupMap := p.srcToGroupMap }
    else .error .refused

/-- The group sections of a file, in their order. -/
def parseGroups (sections : List Section) : Except Failure GstNvDsPreProcess :=
  sections.foldlM parseCommonGroup { processOnFrame := processOnFrame }

/-! ### Where the map leads -/

/-- The group that an update of the regions of a source goes to. -/
def roiUpdateGroup (e : GstNvDsPreProcess) (s : ℤ) : Option ℕ :=
  (e.srcToGroupMap s).bind fun id => if 0 ≤ id ∧ id < e.nvdspreprocessGroups.length then some id.toNat else none

/-- The frame loop of the group `gcnt` does not skip the source. -/
def FrameLoopTakes (e : GstNvDsPreProcess) (gcnt : ℕ) (s : ℤ) : Prop :=
  ∃ group, e.nvdspreprocessGroups[gcnt]? = some group ∧ (s ∈ group.srcIds ∨ group.srcIds.head? = some (-1)) ∧
    ∀ id, e.srcToGroupMap s = some id → id = gcnt

/-! ### What the order should not change -/

/-- The section with its keys in another order. -/
def Section.reorder (sec : Section) (keys : List Key) (h : keys.Perm sec.keys) : Section :=
  { sec with keys := keys, nodup := h.nodup_iff.mpr sec.nodup }

/-- A file, with the mode that `[property]` sets before the group sections. -/
structure File where
  processOnFrame : Bool
  sections : List Section
  nodup : (sections.map Section.name).Nodup

/-- The same sections with the same keys, in some order. -/
def File.Reorders (file : File) (sections : List Section) : Prop :=
  ∃ l, l.Perm file.sections ∧ List.Forall₂ (fun sec sec' => ∃ keys h, sec' = sec.reorder keys h) l sections

def Section.Lists (sec : Section) (s : ℤ) : Prop :=
  (.srcIds ∈ sec.keys ∧ ∃ ids, sec.integerList .srcIds = some ids ∧ s ∈ ids) ∨
    ∃ suffix, .roiParamsSrc suffix ∈ sec.keys ∧ streamId suffix = s

/-- An update goes to the group of a section that lists the source, and no other group takes its frames. -/
def LeadsToLister (sections : List Section) (e : GstNvDsPreProcess) : Prop :=
  ∀ s id, e.srcToGroupMap s = some id → ∃ i sec, roiUpdateGroup e s = some i ∧ sections[i]? = some sec ∧ sec.Lists s ∧
    ∀ gcnt, FrameLoopTakes e gcnt s → gcnt = i

/-- The section of the group of a source. -/
def assigned (sections : List Section) (e : GstNvDsPreProcess) (s : ℤ) : Option (List Char) :=
  (roiUpdateGroup e s).bind fun i => sections[i]?.map Section.name

/-- The assignment is the same, and each section has the same regions and the same mode. -/
structure SameMeaning (sections : List Section) (e : GstNvDsPreProcess) (sections' : List Section)
    (e' : GstNvDsPreProcess) : Prop where
  map : e'.srcToGroupMap = e.srcToGroupMap
  section_eq : ∀ s, assigned sections' e' s = assigned sections e s
  groups : ∀ (i j : ℕ) (sec sec' : Section) (group group' : GstNvDsPreProcessGroup), sections[i]? = some sec →
    sections'[j]? = some sec' → sec'.name = sec.name → e.nvdspreprocessGroups[i]? = some group →
      e'.nvdspreprocessGroups[j]? = some group' →
        group'.framemetaMap = group.framemetaMap ∧ group'.processOnRoi = group.processOnRoi

/-- Every order is refused, or every order means the same. -/
def Meets (file : File) : Prop :=
  (∀ sections, file.Reorders sections → parseGroups file.processOnFrame sections = .error .refused) ∨
    ∀ sections, file.Reorders sections → ∃ e, parseGroups file.processOnFrame sections = .ok e ∧
      LeadsToLister sections e ∧ ∀ sections' e', file.Reorders sections' →
        parseGroups file.processOnFrame sections' = .ok e' → SameMeaning sections e sections' e'

/-! ### When it does not -/

def Section.IsOn (sec : Section) (key : Key) : Prop := key ∈ sec.keys ∧ sec.boolean key = some true

/-- A key that is always looked at has no usable value. -/
def Section.HasRefusedKey (sec : Section) : Prop :=
  (.srcIds ∈ sec.keys ∧ sec.integerList .srcIds = none) ∨
    (.processOnRoi ∈ sec.keys ∧ sec.boolean .processOnRoi = none) ∨
    (.processOnAllObjects ∈ sec.keys ∧ sec.boolean .processOnAllObjects = none) ∨
    ∃ name, .other name ∈ sec.keys ∧ sec.accepts (.other name) = false

def Section.IsRoiList (sec : Section) (suffix : List Char) : Prop :=
  ∃ list, sec.integerList (.roiParamsSrc suffix) = some list ∧ list.length % 4 = 0

def Section.HasRois (sec : Section) : Prop := ∃ suffix, .roiParamsSrc suffix ∈ sec.keys ∧ sec.IsRoiList suffix

def Section.HasRefusedRois (sec : Section) : Prop := ∃ suffix, .roiParamsSrc suffix ∈ sec.keys ∧ ¬sec.IsRoiList suffix

/-- With all keys read, regions are. -/
def Section.WantsRois (sec : Section) : Prop :=
  if processOnFrame then sec.IsOn .processOnRoi else ¬sec.IsOn .processOnAllObjects

/-- There is an order in which a region is read before the sources are. -/
def Section.IsDangerous (sec : Section) : Prop :=
  sec.HasRois ∧ (processOnFrame = true → sec.IsOn .processOnRoi)

/-- No order of the section is accepted, unless an earlier section has read a region. -/
def Section.IsRefused (sec : Section) : Prop := sec.HasRefusedKey ∨ sec.WantsRois processOnFrame

def Section.IsComplete (sec : Section) : Prop :=
  .srcIds ∈ sec.keys ∧ (processOnFrame = true → .processOnRoi ∈ sec.keys)

def Section.ListsNone (sec : Section) : Prop := sec.integerList .srcIds = some []

/-- Every section can be read in any order, and it makes no difference which section is first. -/
def AllRead (file : File) : Prop :=
  ∀ sec ∈ file.sections, sec.IsComplete file.processOnFrame ∧ (file.processOnFrame = false → ¬sec.HasRefusedRois)

/-- There is nothing to lead to a group, or one group that is number 0. -/
def Numbered (file : File) : Prop :=
  (∀ sec ∈ file.sections, sec.ListsNone) ∨ ∃ sec, file.sections = [sec] ∧ sec.groupId = 0

def MeetsWhen (file : File) : Prop :=
  (∀ sec ∈ file.sections, ¬sec.IsDangerous file.processOnFrame) ∧
    ((∃ sec ∈ file.sections, sec.IsRefused file.processOnFrame) ∨
      (file.sections ≠ [] ∧ ∀ sec ∈ file.sections, ¬sec.IsComplete file.processOnFrame) ∨
      (AllRead file ∧ Numbered file))

/-! ### Sections that are not read in an order that matters -/

variable {processOnFrame} {sec : Section}

/-- Before a region is read; what is set was set by a key of the section or before it. -/
structure Unread (sec : Section) (set : NvDsPreProcessPropertySet) (p : Parsing) : Prop where
  roiParamsSrc : p.propertySet.roiParamsSrc = false
  srcIds : p.propertySet.srcIds = true → set.srcIds = true ∨ .srcIds ∈ sec.keys
  processOnRoi : p.propertySet.processOnRoi = true → set.processOnRoi = true ∨ .processOnRoi ∈ sec.keys
  onRoi : p.group.processOnRoi = true → sec.IsOn .processOnRoi
  onAllObjects : p.group.processOnAllObjects = true → sec.IsOn .processOnAllObjects

theorem Unread.initial {set : NvDsPreProcessPropertySet} {m : ℤ → Option ℤ} (hset : set.roiParamsSrc = false) :
    Unread sec set { propertySet := set, srcToGroupMap := m } :=
  ⟨hset, .inl, .inl, fun h => (by cases h), fun h => (by cases h)⟩

theorem parseRois_refused {p : Parsing} {suffix : List Char} (h : ¬sec.IsRoiList suffix) :
    parseRois sec p suffix = .error .refused := by
  unfold parseRois
  cases hlist : sec.integerList (.roiParamsSrc suffix) with
  | none => rfl
  | some list => exact if_pos fun hlen => h ⟨list, hlist, hlen⟩

theorem not_isRoiList (hsafe : ¬sec.IsDangerous processOnFrame) {set : NvDsPreProcessPropertySet} {p : Parsing}
    (hp : Unread sec set p) (htakes : takesRois processOnFrame p.group = true) {suffix : List Char}
    (hkey : .roiParamsSrc suffix ∈ sec.keys) : ¬sec.IsRoiList suffix := by
  intro hlist
  refine hsafe ⟨⟨suffix, hkey, hlist⟩, fun hframe => hp.onRoi ?_⟩
  rw [takesRois, hframe] at htakes
  exact htakes

/-- One key, as long as no region is read. -/
theorem parseKey_safe (hsafe : ¬sec.IsDangerous processOnFrame) {set : NvDsPreProcessPropertySet} {p : Parsing}
    (hp : Unread sec set p) {key : Key} (hkey : key ∈ sec.keys) :
    (∃ p', parseKey processOnFrame sec p key = .ok p' ∧ Unread sec set p') ∨
      ∃ e, parseKey processOnFrame sec p key = .error e ∧ e = .refused := by
  cases key with
  | srcIds =>
    rw [parseKey]
    cases hval : sec.integerList .srcIds with
    | none => exact .inr ⟨_, rfl, rfl⟩
    | some ids => exact .inl ⟨_, rfl, hp.roiParamsSrc, fun _ => .inr hkey, hp.processOnRoi, hp.onRoi, hp.onAllObjects⟩
  | processOnRoi =>
    rw [parseKey]
    cases hval : sec.boolean .processOnRoi with
    | none => exact .inr ⟨_, rfl, rfl⟩
    | some val =>
      refine .inl ⟨_, rfl, hp.roiParamsSrc, hp.srcIds, fun _ => .inr hkey, fun hon => ⟨hkey, ?_⟩, hp.onAllObjects⟩
      rw [hval]
      exact congrArg some hon
  | processOnAllObjects =>
    rw [parseKey]
    cases hval : sec.boolean .processOnAllObjects with
    | none => exact .inr ⟨_, rfl, rfl⟩
    | some val =>
      refine .inl ⟨_, rfl, hp.roiParamsSrc, hp.srcIds, hp.processOnRoi, hp.onRoi, fun hon => ⟨hkey, ?_⟩⟩
      rw [hval]
      exact congrArg some hon
  | roiParamsSrc suffix =>
    rw [parseKey]
    by_cases htakes : takesRois processOnFrame p.group = true
    · rw [if_pos htakes, parseRois_refused (not_isRoiList hsafe hp htakes hkey)]
      exact .inr ⟨_, rfl, rfl⟩
    · rw [if_neg htakes]
      exact .inl ⟨p, rfl, hp⟩
  | other name =>
    rw [parseKey]
    split
    · exact .inl ⟨p, rfl, hp⟩
    · exact .inr ⟨_, rfl, rfl⟩

theorem parseKey_refused (hrefused : sec.HasRefusedKey) :
    ∃ key ∈ sec.keys, ∀ p, parseKey processOnFrame sec p key = .error .refused := by
  rcases hrefused with ⟨hkey, hval⟩ | ⟨hkey, hval⟩ | ⟨hkey, hval⟩ | ⟨name, hkey, hval⟩
  · exact ⟨_, hkey, fun p => by rw [parseKey, hval]⟩
  · exact ⟨_, hkey, fun p => by rw [parseKey, hval]⟩
  · exact ⟨_, hkey, fun p => by rw [parseKey, hval]⟩
  · exact ⟨_, hkey, fun p => by rw [parseKey, hval]; rfl⟩

/-- The keys of a section, as long as no region is read. -/
theorem keys_safe (hsafe : ¬sec.IsDangerous processOnFrame) {set : NvDsPreProcessPropertySet} {m : ℤ → Option ℤ}
    (hset : set.roiParamsSrc = false) :
    (∃ p, sec.keys.foldlM (parseKey processOnFrame sec) { propertySet := set, srcToGroupMap := m } = .ok p ∧
      Unread sec set p) ∨
    ∃ e, sec.keys.foldlM (parseKey processOnFrame sec) { propertySet := set, srcToGroupMap := m } = .error e ∧
      e = .refused :=
  foldlM_except (fun _ hp _ hkey => parseKey_safe hsafe hp hkey) (Unread.initial hset)

theorem addSources_group (sec : Section) (ids : List ℤ) (p : Parsing) :
    (ids.foldl (addSource sec) p).group.processOnRoi = p.group.processOnRoi ∧
      (ids.foldl (addSource sec) p).group.processOnAllObjects = p.group.processOnAllObjects ∧
      (ids.foldl (addSource sec) p).propertySet = p.propertySet := by
  induction ids generalizing p with
  | nil => exact ⟨rfl, rfl, rfl⟩
  | cons s ids ih => exact ih (addSource sec p s)

/-- The properties that are asked for. -/
theorem hasProperties_iff {group : GstNvDsPreProcessGroup} {set : NvDsPreProcessPropertySet} :
    hasProperties processOnFrame group set = true ↔
      (takesRois processOnFrame group = true → set.roiParamsSrc = true) ∧ set.srcIds = true ∧
        if processOnFrame then set.processOnRoi = true else set.processOnAllObjects = true := by
  unfold hasProperties takesRois
  cases processOnFrame <;> cases group.processOnRoi <;> cases group.processOnAllObjects <;> simp <;> tauto

end GroupSections
end Preprocess
end DeepStream
