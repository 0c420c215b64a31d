/-
# The two formats of the batch configuration

`MuxConfigParser` reads the batch policy from a key file or from a YAML file. A file
is here what the two libraries make of it: its groups in order, with the keys and
integers of each. `g_key_file_get_integer` has no result for a key that is not there or
an integer that is no `gint`; `as<gint>` throws for the second, and nothing catches it.
Messages on the console are left out.

`ParseTxtConfigCommonProps` sets the default of every field but `batch_size`, which it
leaves to the branch of the key: without the key the caller's value stays, also 0.
-/
import DeepStream.Lib.Decimal
import DeepStream.Lib.Folds

namespace DeepStream
namespace MuxConfigParser

/-- The range of a `gint`. -/
def InGint (v : ℤ) : Prop := -2 ^ 31 ≤ v ∧ v < 2 ^ 31

instance (v : ℤ) : Decidable (InGint v) := inferInstanceAs (Decidable (_ ∧ _))

/-- A `gint` as a `guint`. -/
def guint (v : ℤ) : ℕ := (v % 2 ^ 32).toNat

/-- A `gboolean` as a `bool`. -/
def gbool (v : ℤ) : Bool := v != 0

/-! ### The configuration -/

@[ext]
structure NvStreammuxSourceProps where
  sourceMaxFpsN : ℕ
  sourceMaxFpsD : ℕ
  sourceMinFpsN : ℕ
  sourceMinFpsD : ℕ
  priority : ℕ
  maxNumFramesPerBatch : ℕ
  deriving DecidableEq, Repr

/-- Any `gint` is cast to the enumeration of `type`. `sourceProps` is in the order of the
insertions. -/
@[ext]
structure BatchPolicyConfig where
  type : ℤ
  adaptiveBatching : Bool
  batchSize : ℕ
  overallMaxFpsN : ℕ
  overallMaxFpsD : ℕ
  overallMinFpsN : ℕ
  overallMinFpsD : ℕ
  maxSameSourceFrames : ℕ
  enableSourceRateControl : Bool
  enableMaxFpsControl : Bool
  sourceProps : List (ℕ × NvStreammuxSourceProps)
  deriving DecidableEq, Repr

def batchMethodRoundRobin : ℤ := 1

def defaultPropGroupBatchSize : ℕ := 1
def defaultPropGroupOverallMaxFpsN : ℕ := 120
def defaultPropGroupOverallMaxFpsD : ℕ := 1
def defaultPropGroupOverallMinFpsN : ℕ := 5
def defaultPropGroupOverallMinFpsD : ℕ := 1
def defaultSourceGroupMaxFpsN : ℕ := 60
def defaultSourceGroupMaxFpsD : ℕ := 1
def defaultSourceGroupMinFpsN : ℕ := 30
def defaultSourceGroupMinFpsD : ℕ := 1
def defaultSourceGroupPriority : ℕ := 0
def defaultSourceGroupMaxFramesPerBatch : ℕ := 1

/-- `insert` in `source_props`, whose keys are `unsigned int`: a key that is there keeps
its value. -/
def BatchPolicyConfig.insertSource (b : BatchPolicyConfig) (sourceIdx : ℕ) (props : NvStreammuxSourceProps) :
    BatchPolicyConfig :=
  let key := sourceIdx % 2 ^ 32
  if (b.sourceProps.lookup key).isSome then b else { b with sourceProps := b.sourceProps ++ [(key, props)] }

/-! ### Files -/

/-- The keys of a group with their integers. -/
abbrev Entries := List (String × ℤ)

abbrev File := List (List Char × Entries)

def File.group (file : File) (name : List Char) : Entries := (file.lookup name).getD []

/-- `g_key_file_get_integer`. -/
def getInteger (keyFile : File) (group : List Char) (key : String) : Option ℤ :=
  ((keyFile.group group).lookup key).filter fun v => decide (InGint v)

/-- `as<gint>`. -/
def asGint (v : ℤ) : Option ℤ := if InGint v then some v else none

/-- `NVSTREAMMUX_CONFIG_PROP_GROUP`. -/
def configPropGroup : List Char := "property".toList

/-- `NVSTREAMMUX_CONFIG_SOURCE_GROUP_PREFIX`. -/
def configSourceGroupPrefix : List Char := "source-config-".toList

/-! ### The key file -/

def parseTxtConfigPerSourceProps (group : List Char) (keyFile : File) : NvStreammuxSourceProps where
  sourceMaxFpsN := ((getInteger keyFile group "max-fps-n").map guint).getD defaultSourceGroupMaxFpsN
  sourceMaxFpsD := ((getInteger keyFile group "max-fps-d").map guint).getD defaultSourceGroupMaxFpsD
  sourceMinFpsN := ((getInteger keyFile group "min-fps-n").map guint).getD defaultSourceGroupMinFpsN
  sourceMinFpsD := ((getInteger keyFile group "min-fps-d").map guint).getD defaultSourceGroupMinFpsD
  priority := ((getInteger keyFile group "priority").map guint).getD defaultSourceGroupPriority
  maxNumFramesPerBatch :=
    ((getInteger keyFile group "max-num-frames-per-batch").map guint).getD defaultSourceGroupMaxFramesPerBatch

/-- One key of the loop. -/
def txtCommonKey (setBatchSize : ℕ) (group : List Char) (keyFile : File) (b : BatchPolicyConfig) (key : String) :
    BatchPolicyConfig :=
  if key = "algorithm-type" then
    { b with type := (getInteger keyFile group "algorithm-type").getD batchMethodRoundRobin }
  else if key = "adaptive-batching" then
    { b with adaptiveBatching := ((getInteger keyFile group "adaptive-batching").map gbool).getD true }
  else if key = "enable-source-rate-control" then
    { b with
      enableSourceRateControl := ((getInteger keyFile group "enable-source-rate-control").map gbool).getD false }
  else if key = "max-fps-control" then
    { b with enableMaxFpsControl := ((getInteger keyFile group "max-fps-control").map gbool).getD false }
  else if key = "batch-size" then
    { b with
      batchSize := ((getInteger keyFile group "batch-size").map guint).getD
        (if setBatchSize = 0 then defaultPropGroupBatchSize else setBatchSize) }
  else if key = "overall-max-fps-n" then
    { b with
      overallMaxFpsN :=
        ((getInteger keyFile group "overall-max-fps-n").map guint).getD defaultPropGroupOverallMaxFpsN }
  else if key = "overall-max-fps-d" then
    { b with
      overallMaxFpsD :=
        ((getInteger keyFile group "overall-max-fps-d").map guint).getD defaultPropGroupOverallMaxFpsD }
  else if key = "overall-min-fps-n" then
    { b with
      overallMinFpsN :=
        ((getInteger keyFile group "overall-min-fps-n").map guint).getD defaultPropGroupOverallMinFpsN }
  else if key = "overall-min-fps-d" then
    { b with
      overallMinFpsD :=
        ((getInteger keyFile group "overall-min-fps-d").map guint).getD defaultPropGroupOverallMinFpsD }
  else if key = "max-same-source-frames" then
    { b with
      maxSameSourceFrames :=
        ((getInteger keyFile group "max-same-source-frames").map guint).getD defaultSourceGroupMaxFramesPerBatch }
  else b

/-- The fields at the start of the loop: all but `batch_size` have their defaults. -/
def txtDefaults (b : BatchPolicyConfig) : BatchPolicyConfig :=
  { b with
    type := batchMethodRoundRobin
    adaptiveBatching := true
    enableSourceRateControl := false
    enableMaxFpsControl := false
    overallMinFpsN := defaultPropGroupOverallMinFpsN
    overallMinFpsD := defaultPropGroupOverallMinFpsD
    overallMaxFpsN := defaultPropGroupOverallMaxFpsN
    overallMaxFpsD := defaultPropGroupOverallMaxFpsD
    maxSameSourceFrames := defaultSourceGroupMaxFramesPerBatch }

def parseTxtConfigCommonProps (b : BatchPolicyConfig) (group : List Char) (keyFile : File) : BatchPolicyConfig :=
  let keys := (keyFile.group group).map Prod.fst
  let b := txtDefaults b
  keys.foldl (txtCommonKey b.batchSize group keyFile) b

/-- `g_ascii_strtoull`. -/
def gAsciiStrtoull (text : List Char) : ℕ :=
  match strtoull text with
  | .value v => v
  | .outOfRange => 2 ^ 64 - 1
  | .invalid => 0

/-- One group of the loop. -/
def txtGroup (keyFile : File) (b : BatchPolicyConfig) (group : List Char) : BatchPolicyConfig :=
  if configPropGroup.isPrefixOf group then parseTxtConfigCommonProps b group keyFile
  else if configSourceGroupPrefix.isPrefixOf group then
    b.insertSource (gAsciiStrtoull (group.drop configSourceGroupPrefix.length))
      (parseTxtConfigPerSourceProps group keyFile)
  else b

def parseTxtConfig (keyFile : File) (b : BatchPolicyConfig) : BatchPolicyConfig :=
  (keyFile.map Prod.fst).foldl (txtGroup keyFile) b

/-! ### YAML -/

/-- One key of the loop. -/
def ymlSourceKey (props : NvStreammuxSourceProps) (itr : String × ℤ) : Option NvStreammuxSourceProps :=
  if itr.1 = "max-fps-n" then (asGint itr.2).map fun v => { props with sourceMaxFpsN := guint v }
  else if itr.1 = "max-fps-d" then (asGint itr.2).map fun v => { props with sourceMaxFpsD := guint v }
  else if itr.1 = "min-fps-n" then (asGint itr.2).map fun v => { props with sourceMinFpsN := guint v }
  else if itr.1 = "min-fps-d" then (asGint itr.2).map fun v => { props with sourceMinFpsD := guint v }
  else if itr.1 = "priority" then (asGint itr.2).map fun v => { props with priority := guint v }
  else if itr.1 = "max-num-frames-per-batch" then
    (asGint itr.2).map fun v => { props with maxNumFramesPerBatch := guint v }
  else some props

def parseYmlConfigPerSourceProps (group : List Char) (configyml : File) : Option NvStreammuxSourceProps :=
  (configyml.group group).foldlM ymlSourceKey
    { sourceMaxFpsN := defaultSourceGroupMaxFpsN
      sourceMaxFpsD := defaultSourceGroupMaxFpsD
      sourceMinFpsN := defaultSourceGroupMinFpsN
      sourceMinFpsD := defaultSourceGroupMinFpsD
      priority := defaultSourceGroupPriority
      maxNumFramesPerBatch := defaultSourceGroupMaxFramesPerBatch }

/-- One key of the loop, with `batch_size_parsed`. -/
def ymlCommonKey (s : BatchPolicyConfig × Bool) (itr : String × ℤ) : Option (BatchPolicyConfig × Bool) :=
  let b := s.1
  if itr.1 = "algorithm-type" then (asGint itr.2).map fun v => ({ b with type := v }, s.2)
  else if itr.1 = "adaptive-batching" then (asGint itr.2).map fun v => ({ b with adaptiveBatching := gbool v }, s.2)
  else if itr.1 = "enable-source-rate-control" then
    (asGint itr.2).map fun v => ({ b with enableSourceRateControl := gbool v }, s.2)
  else if itr.1 = "max-fps-control" then (asGint itr.2).map fun v => ({ b with enableMaxFpsControl := gbool v }, s.2)
  else if itr.1 = "batch-size" then (asGint itr.2).map fun v => ({ b with batchSize := guint v }, true)
  else if itr.1 = "overall-max-fps-n" then (asGint itr.2).map fun v => ({ b with overallMaxFpsN := guint v }, s.2)
  else if itr.1 = "overall-max-fps-d" then (asGint itr.2).map fun v => ({ b with overallMaxFpsD := guint v }, s.2)
  else if itr.1 = "overall-min-fps-n" then (asGint itr.2).map fun v => ({ b with overallMinFpsN := guint v }, s.2)
  else if itr.1 = "overall-min-fps-d" then (asGint itr.2).map fun v => ({ b with overallMinFpsD := guint v }, s.2)
  else if itr.1 = "max-same-source-frames" then
    (asGint itr.2).map fun v => ({ b with maxSameSourceFrames := guint v }, s.2)
  else some s

def ymlDefaults (b : BatchPolicyConfig) : BatchPolicyConfig :=
  { b with
    type := batchMethodRoundRobin
    adaptiveBatching := true
    enableSourceRateControl := false
    enableMaxFpsControl := false
    batchSize := defaultPropGroupBatchSize
    overallMaxFpsN := defaultPropGroupOverallMaxFpsN
    overallMaxFpsD := defaultPropGroupOverallMaxFpsD
    overallMinFpsN := defaultPropGroupOverallMinFpsN
    overallMinFpsD := defaultPropGroupOverallMinFpsD
    maxSameSourceFrames := defaultSourceGroupMaxFramesPerBatch }

def parseYmlConfigCommonProps (b : BatchPolicyConfig) (group : List Char) (configyml : File) :
    Option BatchPolicyConfig :=
  let setBatchSize := b.batchSize
  ((configyml.group group).foldlM ymlCommonKey (ymlDefaults b, false)).map fun s =>
    if setBatchSize ≠ 0 ∧ s.2 = false then { s.1 with batchSize := setBatchSize } else s.1

/-- `stoull`, which throws where there is no number or one that does not fit. -/
def stoull (text : List Char) : Option ℕ :=
  match strtoull text with
  | .value v => some v
  | .outOfRange => none
  | .invalid => none

/-- One group of the loop. -/
def ymlGroup (configyml : File) (b : BatchPolicyConfig) (paramKey : List Char) : Option BatchPolicyConfig :=
  if paramKey = configPropGroup then parseYmlConfigCommonProps b paramKey configyml
  else if configSourceGroupPrefix.isPrefixOf paramKey then do
    let sourceIdx ← stoull (paramKey.drop configSourceGroupPrefix.length)
    let props ← parseYmlConfigPerSourceProps paramKey configyml
    return b.insertSource sourceIdx props
  else some b

def parseYmlConfig (configyml : File) (b : BatchPolicyConfig) : Option BatchPolicyConfig :=
  (configyml.map Prod.fst).foldlM (ymlGroup configyml) b

/-! ### Configurations -/

/-- The groups of a configuration. -/
inductive GroupName where
  | property
  | source (n : Digits)

def GroupName.text : GroupName → List Char
  | property => configPropGroup
  | source n => configSourceGroupPrefix ++ n.chars

/-- One `property` group and any number of source groups, each with a name of its own, and
with keys that are distinct. -/
structure Config where
  groups : List (GroupName × Entries)
  names : (groups.map fun g => g.1.text).Nodup
  property : Entries
  property_mem : (GroupName.property, property) ∈ groups
  keys : ∀ g ∈ groups, (g.2.map Prod.fst).Nodup

def Config.file (c : Config) : File := c.groups.map fun g => (g.1.text, g.2)

def commonKeys : List String :=
  ["algorithm-type", "adaptive-batching", "enable-source-rate-control", "max-fps-control", "batch-size",
    "overall-max-fps-n", "overall-max-fps-d", "overall-min-fps-n", "overall-min-fps-d", "max-same-source-frames"]

def sourceKeys : List String :=
  ["max-fps-n", "max-fps-d", "min-fps-n", "min-fps-d", "priority", "max-num-frames-per-batch"]

/-- A missing `batch-size` takes the default only if the caller's was 0. -/
def DocumentedBatchSize (c : Config) (b b' : BatchPolicyConfig) : Prop :=
  "batch-size" ∉ c.property.map Prod.fst →
    b'.batchSize = if b.batchSize = 0 then defaultPropGroupBatchSize else b.batchSize

/-- Both forms of the file give the same, and follow the rule. -/
def Agree (c : Config) (b : BatchPolicyConfig) : Prop :=
  ∃ b', parseTxtConfig c.file b = b' ∧ parseYmlConfig c.file b = some b' ∧ DocumentedBatchSize c b b'

/-- The integers of a group that are read are `gint`s, and the number of a source has 64 bits. -/
def GroupFits : GroupName × Entries → Prop
  | (.property, entries) => ∀ e ∈ entries, e.1 ∈ commonKeys → InGint e.2
  | (.source n, entries) => n.val < 2 ^ 64 ∧ ∀ e ∈ entries, e.1 ∈ sourceKeys → InGint e.2

/-! ### One group -/

section Keys

variable {file : File} {group : List Char} {entries : Entries}

theorem getInteger_of_mem (hgroup : file.group group = entries) (hnodup : (entries.map Prod.fst).Nodup) {key : String}
    {v : ℤ} (h : (key, v) ∈ entries) (hv : InGint v) : getInteger file group key = some v := by
  rw [getInteger, hgroup, lookup_of_mem hnodup h]
  simp [hv]

theorem isSome_map_asGint {β : Type*} (f : ℤ → β) (v : ℤ) : ((asGint v).map f).isSome ↔ InGint v := by
  unfold asGint
  split <;> simp_all

theorem isSome_ymlSourceKey (props : NvStreammuxSourceProps) (e : String × ℤ) :
    (ymlSourceKey props e).isSome ↔ (e.1 ∈ sourceKeys → InGint e.2) := by
  obtain ⟨key, v⟩ := e
  unfold ymlSourceKey
  by_cases hkey : key ∈ sourceKeys
  · rw [imp_iff_right hkey]
    simp only [sourceKeys, List.mem_cons, List.not_mem_nil, or_false] at hkey
    rcases hkey with rfl | rfl | rfl | rfl | rfl | rfl <;>
      simp only [String.reduceEq, ↓reduceIte, isSome_map_asGint]
  · rw [iff_true_right fun h => absurd h hkey]
    simp only [sourceKeys, List.mem_cons, List.not_mem_nil, or_false, not_or] at hkey
    simp only [hkey, ↓reduceIte, Option.isSome_some]

theorem isSome_ymlCommonKey (s : BatchPolicyConfig × Bool) (e : String × ℤ) :
    (ymlCommonKey s e).isSome ↔ (e.1 ∈ commonKeys → InGint e.2) := by
  obtain ⟨key, v⟩ := e
  unfold ymlCommonKey
  by_cases hkey : key ∈ commonKeys
  · rw [imp_iff_right hkey]
    simp only [commonKeys, List.mem_cons, List.not_mem_nil, or_false] at hkey
    rcases hkey with rfl | rfl | rfl | rfl | rfl | rfl | rfl | rfl | rfl | rfl <;>
      simp only [String.reduceEq, ↓reduceIte, isSome_map_asGint]
  · rw [iff_true_right fun h => absurd h hkey]
    simp only [commonKeys, List.mem_cons, List.not_mem_nil, or_false, not_or] at hkey
    simp only [hkey, ↓reduceIte, Option.isSome_some]

/-- Where the loops of the two formats are: all fields are the same but `batch_size`, which
is the default in YAML and the caller's in the key file until its key is read. -/
structure InStep (setBatchSize : ℕ) (b : BatchPolicyConfig) (s : BatchPolicyConfig × Bool) : Prop where
  same : s.1 = { b with batchSize := if s.2 then b.batchSize else defaultPropGroupBatchSize }
  unset : s.2 = false → b.batchSize = setBatchSize

theorem ymlCommonKey_inStep {setBatchSize : ℕ} {b : BatchPolicyConfig} {s : BatchPolicyConfig × Bool} {key : String}
    {v : ℤ} (hget : key ∈ commonKeys → InGint v ∧ getInteger file group key = some v) (h : InStep setBatchSize b s) :
    ∃ s', ymlCommonKey s (key, v) = some s' ∧
      InStep setBatchSize (txtCommonKey setBatchSize group file b key) s' := by
  obtain ⟨same, unset⟩ := h
  obtain ⟨b', parsed⟩ := s
  dsimp only at same unset
  rw [same]
  by_cases hkey : key ∈ commonKeys
  · obtain ⟨hv, hget⟩ := hget hkey
    have hgint : asGint v = some v := if_pos hv
    simp only [commonKeys, List.mem_cons, List.not_mem_nil, or_false] at hkey
    rcases hkey with rfl | rfl | rfl | rfl | rfl | rfl | rfl | rfl | rfl | rfl <;>
      simp only [ymlCommonKey, txtCommonKey, String.reduceEq, ↓reduceIte, hgint, hget, Option.map_some, Option.getD_some]
    case inr.inr.inr.inr.inl =>
      exact ⟨_, rfl, ⟨rfl, Bool.noConfusion⟩⟩
    all_goals exact ⟨_, rfl, ⟨rfl, unset⟩⟩
  · simp only [commonKeys, List.mem_cons, List.not_mem_nil, or_false, not_or] at hkey
    simp only [ymlCommonKey, txtCommonKey, hkey, ↓reduceIte]
    exact ⟨_, rfl, ⟨rfl, unset⟩⟩

theorem ymlCommonKey_parsed {s s' : BatchPolicyConfig × Bool} {key : String} {v : ℤ}
    (h : ymlCommonKey s (key, v) = some s') : s'.2 = if key = "batch-size" then true else s.2 := by
  by_cases hkey : key ∈ commonKeys
  · simp only [commonKeys, List.mem_cons, List.not_mem_nil, or_false] at hkey
    rcases hkey with rfl | rfl | rfl | rfl | rfl | rfl | rfl | rfl | rfl | rfl <;>
      · simp only [ymlCommonKey, String.reduceEq, ↓reduceIte, Option.map_eq_some_iff] at h ⊢
        obtain ⟨w, -, rfl⟩ := h
        rfl
  · simp only [commonKeys, List.mem_cons, List.not_mem_nil, or_false, not_or] at hkey
    simp only [ymlCommonKey, hkey, ↓reduceIte] at h ⊢
    cases h
    rfl

theorem batchSize_txtCommonKey {setBatchSize : ℕ} {b : BatchPolicyConfig} {key : String} (hne : key ≠ "batch-size") :
    (txtCommonKey setBatchSize group file b key).batchSize = b.batchSize := by
  by_cases hkey : key ∈ commonKeys
  · simp only [commonKeys, List.mem_cons, List.not_mem_nil, or_false, hne, false_or] at hkey
    rcases hkey with rfl | rfl | rfl | rfl | rfl | rfl | rfl | rfl | rfl <;>
      simp only [txtCommonKey, String.reduceEq, ↓reduceIte]
  · simp only [commonKeys, List.mem_cons, List.not_mem_nil, or_false, not_or] at hkey
    simp only [txtCommonKey, hkey, ↓reduceIte]

/-- The formats read the same common properties, but for a batch size that is not there. -/
theorem parseYmlConfigCommonProps_eq (hgroup : file.group group = entries) (hnodup : (entries.map Prod.fst).Nodup)
    (hfits : ∀ e ∈ entries, e.1 ∈ commonKeys → InGint e.2) (b : BatchPolicyConfig) :
    parseYmlConfigCommonProps b group file = some { parseTxtConfigCommonProps b group file with
      batchSize := if "batch-size" ∈ entries.map Prod.fst then (parseTxtConfigCommonProps b group file).batchSize
        else if b.batchSize = 0 then defaultPropGroupBatchSize else b.batchSize } := by
  have hstep : ∀ e ∈ entries, ∀ (t : BatchPolicyConfig) s, InStep b.batchSize t s →
      ∃ s', ymlCommonKey s e = some s' ∧ InStep b.batchSize (txtCommonKey b.batchSize group file t e.1) s' :=
    fun e he t s h => ymlCommonKey_inStep (fun hkey =>
      ⟨hfits e he hkey, getInteger_of_mem hgroup hnodup he (hfits e he hkey)⟩) h
  have hinit : InStep b.batchSize (txtDefaults b) (ymlDefaults b, false) := ⟨rfl, fun _ => rfl⟩
  obtain ⟨s, hs, same, unset⟩ := foldlM_sim hstep hinit
  have hparsed := foldlM_field Prod.snd (fun _ => true) "batch-size"
    (fun s v s' h => (ymlCommonKey_parsed h).trans (if_pos rfl))
    (fun s k v s' hne h => (ymlCommonKey_parsed h).trans (if_neg hne)) hnodup hs
  have htxt : parseTxtConfigCommonProps b group file =
      entries.foldl (fun t e => txtCommonKey b.batchSize group file t e.1) (txtDefaults b) := by
    rw [parseTxtConfigCommonProps, hgroup, List.foldl_map]
    rfl
  rw [← htxt] at same unset
  rw [parseYmlConfigCommonProps, hgroup, hs, Option.map_some]
  by_cases hkey : "batch-size" ∈ entries.map Prod.fst
  · obtain ⟨⟨_, v⟩, he, rfl⟩ := List.mem_map.mp hkey
    rw [lookup_of_mem hnodup he] at hparsed
    replace hparsed : s.2 = true := hparsed
    rw [if_pos hkey, if_neg (by simp [hparsed]), same, hparsed, if_pos rfl]
  · have hnone : entries.lookup "batch-size" = none := by
      rw [List.lookup_eq_none_iff]
      exact fun e he => bne_iff_ne.mpr fun heq => hkey (List.mem_map.mpr ⟨e, he, heq.symm⟩)
    rw [hnone] at hparsed
    replace hparsed : s.2 = false := hparsed
    rw [if_neg hkey, same, hparsed]
    by_cases hzero : b.batchSize = 0
    · rw [if_neg (by simp [hzero]), if_pos hzero]
      rfl
    · rw [if_pos ⟨hzero, rfl⟩, if_neg hzero]

/-- Without its key the batch size of a key file is the caller's. -/
theorem batchSize_parseTxtConfigCommonProps (hgroup : file.group group = entries)
    (hkey : "batch-size" ∉ entries.map Prod.fst) (b : BatchPolicyConfig) :
    (parseTxtConfigCommonProps b group file).batchSize = b.batchSize := by
  rw [parseTxtConfigCommonProps, hgroup]
  have hkeep : ∀ (ks : List String) (t : BatchPolicyConfig), "batch-size" ∉ ks →
      (ks.foldl (txtCommonKey b.batchSize group file) t).batchSize = t.batchSize := fun ks => by
    induction ks with
    | nil => exact fun t _ => rfl
    | cons k ks ih =>
      intro t hks
      rw [List.mem_cons, not_or] at hks
      rw [List.foldl_cons, ih _ hks.2, batchSize_txtCommonKey (Ne.symm hks.1)]
  exact hkeep _ _ hkey

/-- What a key changes. -/
theorem ymlSourceKey_eq {props props' : NvStreammuxSourceProps} {key : String} {v : ℤ}
    (h : ymlSourceKey props (key, v) = some props') :
    props' =
      { sourceMaxFpsN := if key = "max-fps-n" then guint v else props.sourceMaxFpsN
        sourceMaxFpsD := if key = "max-fps-d" then guint v else props.sourceMaxFpsD
        sourceMinFpsN := if key = "min-fps-n" then guint v else props.sourceMinFpsN
        sourceMinFpsD := if key = "min-fps-d" then guint v else props.sourceMinFpsD
        priority := if key = "priority" then guint v else props.priority
        maxNumFramesPerBatch := if key = "max-num-frames-per-batch" then guint v else props.maxNumFramesPerBatch } := by
  by_cases hkey : key ∈ sourceKeys
  · simp only [sourceKeys, List.mem_cons, List.not_mem_nil, or_false] at hkey
    rcases hkey with rfl | rfl | rfl | rfl | rfl | rfl <;>
      · simp only [ymlSourceKey, String.reduceEq, ↓reduceIte, Option.map_eq_some_iff] at h ⊢
        obtain ⟨w, hw, rfl⟩ := h
        rw [asGint, Option.ite_none_right_eq_some] at hw
        cases hw.2
        rfl
  · simp only [sourceKeys, List.mem_cons, List.not_mem_nil, or_false, not_or] at hkey
    simp only [ymlSourceKey, hkey, ↓reduceIte] at h ⊢
    cases h
    rfl

theorem getInteger_eq_lookup {ks : List String} (hgroup : file.group group = entries)
    (hfits : ∀ e ∈ entries, e.1 ∈ ks → InGint e.2) {key : String} (hkey : key ∈ ks) :
    getInteger file group key = entries.lookup key := by
  rw [getInteger, hgroup]
  cases hlookup : entries.lookup key with
  | none => rfl
  | some v =>
    obtain ⟨l₁, l₂, heq, -⟩ := List.lookup_eq_some_iff.mp hlookup
    have hv : InGint v := hfits (key, v) (by simp [heq]) hkey
    simp [hv]

/-- Both formats read the same properties of a source. -/
theorem parseYmlConfigPerSourceProps_eq (hgroup : file.group group = entries) (hnodup : (entries.map Prod.fst).Nodup)
    (hfits : ∀ e ∈ entries, e.1 ∈ sourceKeys → InGint e.2) :
    parseYmlConfigPerSourceProps group file = some (parseTxtConfigPerSourceProps group file) := by
  have hsome : (parseYmlConfigPerSourceProps group file).isSome := by
    rw [parseYmlConfigPerSourceProps, hgroup]
    exact (isSome_foldlM_iff (fun e _ props => isSome_ymlSourceKey props e) _).mpr hfits
  obtain ⟨props, hprops⟩ := Option.isSome_iff_exists.mp hsome
  rw [hprops]
  rw [parseYmlConfigPerSourceProps, hgroup] at hprops
  have hfield : ∀ (f : NvStreammuxSourceProps → ℕ) (key : String), key ∈ sourceKeys →
      (∀ p k v p', ymlSourceKey p (k, v) = some p' → f p' = if k = key then guint v else f p) →
      f props = ((getInteger file group key).map guint).getD (f _) := fun f key hkey hf => by
    rw [getInteger_eq_lookup hgroup hfits hkey]
    refine foldlM_field f guint key (fun p v p' h => ?_) (fun p k v p' hne h => ?_) hnodup hprops
    · exact (hf p key v p' h).trans (if_pos rfl)
    · exact (hf p k v p' h).trans (if_neg hne)
  refine congrArg some (NvStreammuxSourceProps.ext ?_ ?_ ?_ ?_ ?_ ?_)
  · exact hfield (·.sourceMaxFpsN) "max-fps-n" (by decide) fun p k v p' h => by rw [ymlSourceKey_eq h]
  · exact hfield (·.sourceMaxFpsD) "max-fps-d" (by decide) fun p k v p' h => by rw [ymlSourceKey_eq h]
  · exact hfield (·.sourceMinFpsN) "min-fps-n" (by decide) fun p k v p' h => by rw [ymlSourceKey_eq h]
  · exact hfield (·.sourceMinFpsD) "min-fps-d" (by decide) fun p k v p' h => by rw [ymlSourceKey_eq h]
  · exact hfield (·.priority) "priority" (by decide) fun p k v p' h => by rw [ymlSourceKey_eq h]
  · exact hfield (·.maxNumFramesPerBatch) "max-num-frames-per-batch" (by decide)
      fun p k v p' h => by rw [ymlSourceKey_eq h]

end Keys

/-! ### The groups -/

theorem configPropGroup_eq : configPropGroup = 'p' :: "roperty".toList := by
  decide

theorem configSourceGroupPrefix_eq : configSourceGroupPrefix = 's' :: "ource-config-".toList := by
  decide

theorem GroupName.property_text : configPropGroup.isPrefixOf (GroupName.text .property) = true :=
  List.isPrefixOf_iff_prefix.mpr (List.prefix_refl _)

theorem GroupName.source_text (n : Digits) :
    configPropGroup.isPrefixOf (GroupName.text (.source n)) = false ∧ GroupName.text (.source n) ≠ configPropGroup ∧
      configSourceGroupPrefix.isPrefixOf (GroupName.text (.source n)) = true ∧
      (GroupName.text (.source n)).drop configSourceGroupPrefix.length = n.chars := by
  have hproperty : configPropGroup.isPrefixOf (GroupName.text (.source n)) = false := by
    rw [GroupName.text, configPropGroup_eq, configSourceGroupPrefix_eq, List.cons_append, List.isPrefixOf_cons_cons]
    rfl
  refine ⟨hproperty, fun h => ?_, ?_, ?_⟩
  · rw [h, List.isPrefixOf_iff_prefix.mpr (List.prefix_refl _)] at hproperty
    cases hproperty
  · exact List.isPrefixOf_iff_prefix.mpr (List.prefix_append _ _)
  · exact List.drop_left

theorem Config.group_eq (c : Config) {g : GroupName × Entries} (hg : g ∈ c.groups) : c.file.group g.1.text = g.2 := by
  have hnodup : (c.file.map Prod.fst).Nodup := by
    rw [Config.file, List.map_map]
    exact c.names
  have hmem : (g.1.text, g.2) ∈ c.file := List.mem_map.mpr ⟨g, hg, rfl⟩
  rw [File.group, lookup_of_mem hnodup hmem, Option.getD_some]

section Groups

variable (c : Config) {b : BatchPolicyConfig}

theorem isSome_ymlGroup (b : BatchPolicyConfig) {g : GroupName × Entries} (hg : g ∈ c.groups) :
    (ymlGroup c.file b g.1.text).isSome ↔ GroupFits g := by
  have hgroup := c.group_eq hg
  obtain ⟨name, entries⟩ := g
  cases name with
  | property =>
    have hname : GroupName.text .property = configPropGroup := rfl
    rw [ymlGroup, if_pos hname, parseYmlConfigCommonProps, Option.isSome_map, hgroup]
    exact isSome_foldlM_iff (fun e _ s => isSome_ymlCommonKey s e) _
  | source n =>
    obtain ⟨-, hne, hsource, hdrop⟩ := GroupName.source_text n
    have hprops : (parseYmlConfigPerSourceProps (GroupName.text (.source n)) c.file).isSome ↔
        ∀ e ∈ entries, e.1 ∈ sourceKeys → InGint e.2 := by
      rw [parseYmlConfigPerSourceProps, hgroup]
      exact isSome_foldlM_iff (fun e _ props => isSome_ymlSourceKey props e) _
    rw [ymlGroup, if_neg hne, if_pos hsource, hdrop, stoull, strtoull_digits, GroupFits, ← hprops]
    by_cases hn : 2 ^ 64 ≤ n.val
    · rw [if_pos hn]
      exact iff_of_false Bool.false_ne_true fun h => absurd h.1 (not_lt.mpr hn)
    · rw [if_neg hn, and_iff_right (not_le.mp hn)]
      cases parseYmlConfigPerSourceProps (GroupName.text (.source n)) c.file <;> exact Iff.rfl

/-- A source group is read in the same way, and leaves the batch size. -/
theorem ymlGroup_source {n : Digits} {entries : Entries} (hg : (GroupName.source n, entries) ∈ c.groups)
    (hfits : GroupFits (.source n, entries)) (b : BatchPolicyConfig) :
    ymlGroup c.file b (GroupName.text (.source n)) = some (txtGroup c.file b (GroupName.text (.source n))) := by
  obtain ⟨hproperty, hne, hsource, hdrop⟩ := GroupName.source_text n
  have hprops := parseYmlConfigPerSourceProps_eq (c.group_eq hg) (c.keys _ hg) hfits.2
  have hn : ¬ 2 ^ 64 ≤ n.val := not_le.mpr hfits.1
  dsimp only at hprops
  rw [ymlGroup, if_neg hne, if_pos hsource, txtGroup, hproperty, if_neg Bool.false_ne_true, if_pos hsource, hdrop,
    gAsciiStrtoull, stoull, strtoull_digits, if_neg hn, hprops]
  rfl

theorem batchSize_insertSource (b : BatchPolicyConfig) (sourceIdx : ℕ) (props : NvStreammuxSourceProps) :
    (b.insertSource sourceIdx props).batchSize = b.batchSize := by
  unfold BatchPolicyConfig.insertSource
  dsimp only
  split <;> rfl

theorem batchSize_txtGroup (b : BatchPolicyConfig) {g : GroupName × Entries} (hg : g ∈ c.groups)
    (hkey : g.1 = .property → "batch-size" ∉ g.2.map Prod.fst) :
    (txtGroup c.file b g.1.text).batchSize = b.batchSize := by
  have hgroup := c.group_eq hg
  obtain ⟨name, entries⟩ := g
  cases name with
  | property =>
    rw [txtGroup, if_pos GroupName.property_text]
    exact batchSize_parseTxtConfigCommonProps hgroup (hkey rfl) b
  | source n =>
    obtain ⟨hproperty, -, hsource, -⟩ := GroupName.source_text n
    rw [txtGroup, hproperty, if_neg Bool.false_ne_true, if_pos hsource, batchSize_insertSource]

/-- The property group is the only one of its name. -/
theorem Config.eq_property {entries : Entries} (h : (GroupName.property, entries) ∈ c.groups) : entries = c.property :=
  (c.group_eq h).symm.trans (c.group_eq c.property_mem)

/-- The groups are read in the same way where the batch size is given. -/
theorem groups_agree (hfits : ∀ g ∈ c.groups, GroupFits g) : ∀ (gs : List (GroupName × Entries)) (b : BatchPolicyConfig),
    gs ⊆ c.groups → (gs.map fun g => g.1.text).Nodup →
    ((GroupName.property, c.property) ∈ gs → "batch-size" ∈ c.property.map Prod.fst ∨ b.batchSize ≠ 0) →
    (gs.map fun g => g.1.text).foldlM (ymlGroup c.file) b =
      some ((gs.map fun g => g.1.text).foldl (txtGroup c.file) b)
  | [], b, _, _, _ => rfl
  | (name, entries) :: gs, b, hsub, hnodup, hsize => by
    obtain ⟨hg, hrest⟩ := List.cons_subset.mp hsub
    rw [List.map_cons, List.nodup_cons] at hnodup
    rw [List.map_cons, List.foldlM_cons, List.foldl_cons]
    cases name with
    | source n =>
      rw [ymlGroup_source c hg (hfits _ hg)]
      refine groups_agree hfits gs _ hrest hnodup.2 fun hmem => ?_
      have hkeep := batchSize_txtGroup c b hg (by simp)
      dsimp only at hkeep
      rw [hkeep]
      exact hsize (List.mem_cons_of_mem _ hmem)
    | property =>
      have heq := c.eq_property hg
      subst heq
      have hname : GroupName.text .property = configPropGroup := rfl
      have hstep : ymlGroup c.file b (GroupName.text .property) =
          some (txtGroup c.file b (GroupName.text .property)) := by
        rw [ymlGroup, if_pos hname, txtGroup, if_pos GroupName.property_text,
          parseYmlConfigCommonProps_eq (c.group_eq hg) (c.keys _ hg) (hfits _ hg) b]
        by_cases hkey : "batch-size" ∈ c.property.map Prod.fst
        · rw [if_pos hkey]
        · have hzero : b.batchSize ≠ 0 := (hsize List.mem_cons_self).resolve_left hkey
          rw [if_neg hkey, if_neg hzero, ← batchSize_parseTxtConfigCommonProps (c.group_eq hg) hkey b]
      rw [hstep]
      -- no other group is the property group
      exact groups_agree hfits gs _ hrest hnodup.2 fun hmem =>
        absurd (List.mem_map.mpr ⟨_, hmem, rfl⟩) hnodup.1

theorem batchSize_parseTxtConfig (hkey : "batch-size" ∉ c.property.map Prod.fst) (b : BatchPolicyConfig) :
    (parseTxtConfig c.file b).batchSize = b.batchSize := by
  have hkeep : ∀ (gs : List (GroupName × Entries)) (b : BatchPolicyConfig), gs ⊆ c.groups →
      ((gs.map fun g => g.1.text).foldl (txtGroup c.file) b).batchSize = b.batchSize := fun gs => by
    induction gs with
    | nil => exact fun b _ => rfl
    | cons g gs ih =>
      intro b hsub
      obtain ⟨hg, hrest⟩ := List.cons_subset.mp hsub
      rw [List.map_cons, List.foldl_cons, ih _ hrest]
      refine batchSize_txtGroup c b hg fun hname => ?_
      obtain ⟨name, entries⟩ := g
      subst hname
      rw [c.eq_property hg]
      exact hkey
  rw [parseTxtConfig, Config.file, List.map_map]
  exact hkeep c.groups b (List.Subset.refl _)

theorem isSome_parseYmlConfig (b : BatchPolicyConfig) : (parseYmlConfig c.file b).isSome ↔ ∀ g ∈ c.groups, GroupFits g := by
  have hstep : ∀ g ∈ c.groups, ∀ b, (ymlGroup c.file b g.1.text).isSome ↔ GroupFits g := fun g hg b =>
    isSome_ymlGroup c b hg
  have hfold : parseYmlConfig c.file b = c.groups.foldlM (fun b g => ymlGroup c.file b g.1.text) b := by
    rw [parseYmlConfig]
    nth_rewrite 2 [Config.file]
    rw [List.map_map, List.foldlM_map]
    rfl
  rw [hfold]
  exact isSome_foldlM_iff hstep b

end Groups

/-- The key file and the YAML file give the same configuration, with the batch size that is
documented, just where the batch size is in the file or the caller's is not 0, the
integers that are read are `gint`s, and the numbers of the sources have 64 bits. -/
theorem formats_iff (c : Config) (b : BatchPolicyConfig) :
    Agree c b ↔ ("batch-size" ∈ c.property.map Prod.fst ∨ b.batchSize ≠ 0) ∧ ∀ g ∈ c.groups, GroupFits g := by
  have hnames : c.file.map Prod.fst = c.groups.map fun g => g.1.text := by
    rw [Config.file, List.map_map]
    rfl
  constructor
  · rintro ⟨b', rfl, hyml, hrule⟩
    refine ⟨?_, (isSome_parseYmlConfig c b).mp (by rw [hyml]; rfl)⟩
    by_contra h
    rw [not_or, not_not] at h
    have hsize := hrule h.1
    rw [batchSize_parseTxtConfig c h.1, if_pos h.2, h.2] at hsize
    cases hsize
  · rintro ⟨hsize, hfits⟩
    refine ⟨parseTxtConfig c.file b, rfl, ?_, fun hkey => ?_⟩
    · rw [parseYmlConfig, parseTxtConfig, hnames]
      exact groups_agree c hfits c.groups b (List.Subset.refl _) c.names fun _ => hsize
    · rw [batchSize_parseTxtConfig c hkey, if_neg (hsize.resolve_left hkey)]

/-- An empty property group. -/
def emptyProperty : Config where
  groups := [(.property, [])]
  names := by decide
  property := []
  property_mem := List.mem_cons_self
  keys := by simp

/-- The fields before they are read. -/
def unread : BatchPolicyConfig := ⟨0, false, 0, 0, 0, 0, 0, 0, false, false, []⟩

/-- Without a batch size, and none from the caller, a key file leaves 0 and YAML sets 1. -/
theorem formats_differ : ¬ Agree emptyProperty unread ∧ (parseTxtConfig emptyProperty.file unread).batchSize = 0 ∧
    (parseYmlConfig emptyProperty.file unread).map (·.batchSize) = some 1 := by
  have htxt : (parseTxtConfig emptyProperty.file unread).batchSize = 0 := by decide
  have hyml : (parseYmlConfig emptyProperty.file unread).map (·.batchSize) = some 1 := by decide
  refine ⟨?_, htxt, hyml⟩
  rintro ⟨b', rfl, hsame, -⟩
  rw [hsame, Option.map_some, htxt] at hyml
  exact absurd hyml (by decide)

end MuxConfigParser
end DeepStream
