/-
# The two formats of the message converter's configuration

`nvds_msg2p_parse_key_value` and `nvds_msg2p_parse_yaml` fill the same objects, each from its own
format. A configuration is what the two libraries make of a file: its groups in order, with the
keys and texts of each. What they make of a text is a parameter: `strtod` of the C library, in
the C locale, which both formats come to in the end, and the readers of `enable`.

A group is refused where the parser gives up on it. `std::stod` and `as<gboolean>` throw, and
nothing catches it. Messages on the console are left out.
-/
import DeepStream.Lib.Decimal
import DeepStream.Lib.Pieces
import DeepStream.Lib.Word

namespace DeepStream
namespace MsgConv
namespace Schema

/-! ### Configurations -/

inductive Key where
  | enable | id | type | description | location | coordinate | name | source | version
  | placeSubField1 | placeSubField2 | placeSubField3
  | other (name : List Char)
  deriving DecidableEq, Repr

inductive Kind where
  | sensor | place | analytics
  deriving DecidableEq, Repr

/-- What the names of the groups of a kind begin with. -/
def Kind.configGroup : Kind → List Char
  | .sensor => ['s', 'e', 'n', 's', 'o', 'r']
  | .place => ['p', 'l', 'a', 'c', 'e']
  | .analytics => ['a', 'n', 'a', 'l', 'y', 't', 'i', 'c', 's']

/-- A group: its name behind that of its kind, and the texts of its keys. -/
structure Section where
  kind : Kind
  suffix : List Char
  entries : List (Key × List Char)
  nodup : (entries.map Prod.fst).Nodup

def Section.group (sec : Section) : List Char := sec.kind.configGroup ++ sec.suffix

structure Config where
  sections : List Section
  nodup : (sections.map Section.group).Nodup

/-! ### The libraries -/

/-- What `strtod` finds at the front of a text. -/
structure Strtod (Double : Type) where
  value : Double
  rest : List Char
  erange : Bool
  deriving DecidableEq, Repr

/-- A text that is a boolean and an integer is no zero when it is true. -/
structure Readers (Double : Type) where
  zero : Double
  strtod : List Char → Option (Strtod Double)
  gKeyFileGetBoolean : List Char → Option Bool
  asGboolean : List Char → Option ℤ
  strtod_nil : strtod [] = none
  ne_zero : ∀ text v, gKeyFileGetBoolean text = some true → asGboolean text = some v → v ≠ 0

/-- `sscanf` with the name of a kind and `%u`, into a `gint`. -/
def sscanf (literal group : List Char) : Option ℤ :=
  if literal.isPrefixOf group then
    match strtoull (group.drop literal.length) with
    | .value v => some (toInt32 v)
    | .outOfRange => some (toInt32 (2 ^ 64 - 1))
    | .invalid => none
  else none

/-! ### The objects -/

/-- An array of three. -/
structure Triple (Double : Type) where
  x : Double
  y : Double
  z : Double
  deriving DecidableEq, Repr

structure NvDsSensorObject (Double : Type) where
  id : List Char
  type : List Char
  desc : List Char
  location : Triple Double
  coordinate : Triple Double
  deriving DecidableEq, Repr

structure NvDsPlaceObject (Double : Type) where
  id : List Char
  name : List Char
  type : List Char
  location : Triple Double
  coordinate : Triple Double
  field1 : List Char
  field2 : List Char
  field3 : List Char
  deriving DecidableEq, Repr

structure NvDsAnalyticsObject where
  id : List Char
  desc : List Char
  source : List Char
  version : List Char
  deriving DecidableEq, Repr

@[ext]
structure NvDsPayloadPriv (Double : Type) where
  sensorObj : ℤ → Option (NvDsSensorObject Double)
  placeObj : ℤ → Option (NvDsPlaceObject Double)
  analyticsObj : ℤ → Option NvDsAnalyticsObject

/-- Neither format has an object yet. -/
def NvDsPayloadPriv.empty {Double : Type} : NvDsPayloadPriv Double := ⟨fun _ => none, fun _ => none, fun _ => none⟩

inductive Failure where
  | refused | thrown
  deriving DecidableEq, Repr

variable {Double : Type} (r : Readers Double)

/-- `= {{0}}`: the first field is a string of one null character. -/
def initSensor : NvDsSensorObject Double where
  id := ['\x00']
  type := []
  desc := []
  location := ⟨r.zero, r.zero, r.zero⟩
  coordinate := ⟨r.zero, r.zero, r.zero⟩

def initPlace : NvDsPlaceObject Double where
  id := ['\x00']
  name := []
  type := []
  location := ⟨r.zero, r.zero, r.zero⟩
  coordinate := ⟨r.zero, r.zero, r.zero⟩
  field1 := []
  field2 := []
  field3 := []

def initAnalytics : NvDsAnalyticsObject := ⟨[], [], [], []⟩

/-- What the parsers of all kinds do with a group: `isEnabled` and `read` are theirs. -/
def parseGroup {Obj : Type} (sec : Section) (find : ℤ → Option Obj) (isEnabled : Except Failure Bool)
    (read : Except Failure Obj) (insert : ℤ → Obj → NvDsPayloadPriv Double) (priv : NvDsPayloadPriv Double) :
    Except Failure (NvDsPayloadPriv Double) :=
  match sscanf sec.kind.configGroup sec.group with
  | none => .error .refused
  | some id =>
    if (find id).isSome then .error .refused
    else
      match isEnabled with
      | .error f => .error f
      | .ok false => .ok priv
      | .ok true =>
        match read with
        | .error f => .error f
        | .ok obj => .ok (insert id obj)

namespace NvDsPayloadPriv

variable (priv : NvDsPayloadPriv Double)

def insertSensor (id : ℤ) (obj : NvDsSensorObject Double) : NvDsPayloadPriv Double :=
  { priv with sensorObj := Function.update priv.sensorObj id (some obj) }

def insertPlace (id : ℤ) (obj : NvDsPlaceObject Double) : NvDsPayloadPriv Double :=
  { priv with placeObj := Function.update priv.placeObj id (some obj) }

def insertAnalytics (id : ℤ) (obj : NvDsAnalyticsObject) : NvDsPayloadPriv Double :=
  { priv with analyticsObj := Function.update priv.analyticsObj id (some obj) }

end NvDsPayloadPriv

/-! ### The key file -/

/-- `g_key_file_get_double_list`; an error leaves no list. -/
def gKeyFileGetDoubleList (text : List Char) : Option (List Double) :=
  (pieces ';' text).mapM fun piece =>
    (r.strtod piece).bind fun number => if number.rest = [] then some number.value else none

/-- The list of a `location` or `coordinate`, which has to be of length 3. -/
def getTriple (text : List Char) : Except Failure (Triple Double) :=
  match gKeyFileGetDoubleList r text with
  | some [x, y, z] => .ok ⟨x, y, z⟩
  | _ => .error .refused

/-- `isEnabled`: an error reads as `FALSE`. -/
def Section.isEnabled (sec : Section) : Bool :=
  ((sec.entries.lookup .enable).bind r.gKeyFileGetBoolean).getD false

/-- The keys without `enable`, which is removed. -/
def Section.keys (sec : Section) : List (Key × List Char) := sec.entries.filter fun entry => entry.1 ≠ .enable

def sensorKey (obj : NvDsSensorObject Double) : Key × List Char → Except Failure (NvDsSensorObject Double)
  | (.id, keyVal) => .ok { obj with id := keyVal }
  | (.type, keyVal) => .ok { obj with type := keyVal }
  | (.description, keyVal) => .ok { obj with desc := keyVal }
  | (.location, text) => (getTriple r text).map fun location => { obj with location := location }
  | (.coordinate, text) => (getTriple r text).map fun coordinate => { obj with coordinate := coordinate }
  | _ => .ok obj

def placeKey (obj : NvDsPlaceObject Double) : Key × List Char → Except Failure (NvDsPlaceObject Double)
  | (.id, keyVal) => .ok { obj with id := keyVal }
  | (.type, keyVal) => .ok { obj with type := keyVal }
  | (.name, keyVal) => .ok { obj with name := keyVal }
  | (.location, text) => (getTriple r text).map fun location => { obj with location := location }
  | (.coordinate, text) => (getTriple r text).map fun coordinate => { obj with coordinate := coordinate }
  | (.placeSubField1, keyVal) => .ok { obj with field1 := keyVal }
  | (.placeSubField2, keyVal) => .ok { obj with field2 := keyVal }
  | (.placeSubField3, keyVal) => .ok { obj with field3 := keyVal }
  | _ => .ok obj

def analyticsKey (obj : NvDsAnalyticsObject) : Key × List Char → Except Failure NvDsAnalyticsObject
  | (.id, keyVal) => .ok { obj with id := keyVal }
  | (.source, keyVal) => .ok { obj with source := keyVal }
  | (.description, keyVal) => .ok { obj with desc := keyVal }
  | (.version, keyVal) => .ok { obj with version := keyVal }
  | _ => .ok obj

def nvdsMsg2pParseSensor (priv : NvDsPayloadPriv Double) (sec : Section) : Except Failure (NvDsPayloadPriv Double) :=
  parseGroup sec priv.sensorObj (.ok (sec.isEnabled r)) (sec.keys.foldlM (sensorKey r) (initSensor r))
    priv.insertSensor priv

def nvdsMsg2pParsePlace (priv : NvDsPayloadPriv Double) (sec : Section) : Except Failure (NvDsPayloadPriv Double) :=
  parseGroup sec priv.placeObj (.ok (sec.isEnabled r)) (sec.keys.foldlM (placeKey r) (initPlace r)) priv.insertPlace
    priv

def nvdsMsg2pParseAnalytics (priv : NvDsPayloadPriv Double) (sec : Section) :
    Except Failure (NvDsPayloadPriv Double) :=
  parseGroup sec priv.analyticsObj (.ok (sec.isEnabled r)) (sec.keys.foldlM analyticsKey initAnalytics)
    priv.insertAnalytics priv

def parseKeyValueGroup (priv : NvDsPayloadPriv Double) (sec : Section) : Except Failure (NvDsPayloadPriv Double) :=
  if Kind.sensor.configGroup.isPrefixOf sec.group then nvdsMsg2pParseSensor r priv sec
  else if Kind.place.configGroup.isPrefixOf sec.group then nvdsMsg2pParsePlace r priv sec
  else if Kind.analytics.configGroup.isPrefixOf sec.group then nvdsMsg2pParseAnalytics r priv sec
  else .ok priv

def nvdsMsg2pParseKeyValue (config : Config) : Except Failure (NvDsPayloadPriv Double) :=
  config.sections.foldlM (parseKeyValueGroup r) .empty

/-! ### YAML -/

/-- The first loop of `split_string`, at the character `i`. -/
def positions (i : ℕ) : List Char → List ℕ
  | [] => []
  | c :: input => if c = ';' then i :: positions (i + 1) input else positions (i + 1) input

/-- Its second loop, and what is left behind the last position. -/
def substrings (input : List Char) (prev : ℕ) : List ℕ → List (List Char)
  | [] => [input.drop prev]
  | j :: rest => (input.drop prev).take (j - prev) :: substrings input (j + 1) rest

def splitString (input : List Char) : List (List Char) := substrings input 0 (positions 0 input)

/-- `std::stod`, which leaves what follows the number. -/
def stod (text : List Char) : Except Failure Double :=
  match r.strtod text with
  | none => .error .thrown
  | some number => if number.erange then .error .thrown else .ok number.value

/-- The string of a `location` or `coordinate`. -/
def splitTriple (text : List Char) : Except Failure (Triple Double) :=
  match splitString text with
  | [x, y, z] =>
    match stod r x, stod r y, stod r z with
    | .ok x, .ok y, .ok z => .ok ⟨x, y, z⟩
    | _, _, _ => .error .thrown
  | _ => .error .refused

/-- `isEnabled`. -/
def Section.isEnabledYaml (sec : Section) : Except Failure Bool :=
  match sec.entries.lookup .enable with
  | none => .ok false
  | some text =>
    match r.asGboolean text with
    | none => .error .thrown
    | some v => .ok (v != 0)

def sensorKeyYaml (obj : NvDsSensorObject Double) : Key × List Char → Except Failure (NvDsSensorObject Double)
  | (.enable, _) => .ok obj
  | (.id, str) => .ok { obj with id := str }
  | (.type, str) => .ok { obj with type := str }
  | (.description, str) => .ok { obj with desc := str }
  | (.location, str) => (splitTriple r str).map fun location => { obj with location := location }
  | (.coordinate, str) => (splitTriple r str).map fun coordinate => { obj with coordinate := coordinate }
  | _ => .ok obj

def placeKeyYaml (obj : NvDsPlaceObject Double) : Key × List Char → Except Failure (NvDsPlaceObject Double)
  | (.enable, _) => .ok obj
  | (.id, str) => .ok { obj with id := str }
  | (.type, str) => .ok { obj with type := str }
  | (.name, str) => .ok { obj with name := str }
  | (.location, str) => (splitTriple r str).map fun location => { obj with location := location }
  | (.coordinate, str) => (splitTriple r str).map fun coordinate => { obj with coordinate := coordinate }
  | (.placeSubField1, str) => .ok { obj with field1 := str }
  | (.placeSubField2, str) => .ok { obj with field2 := str }
  | (.placeSubField3, str) => .ok { obj with field3 := str }
  | _ => .ok obj

def analyticsKeyYaml (obj : NvDsAnalyticsObject) : Key × List Char → Except Failure NvDsAnalyticsObject
  | (.enable, _) => .ok obj
  | (.id, str) => .ok { obj with id := str }
  | (.source, str) => .ok { obj with source := str }
  | (.description, str) => .ok { obj with desc := str }
  | (.version, str) => .ok { obj with version := str }
  | _ => .ok obj

def nvdsMsg2pParseSensorYaml (priv : NvDsPayloadPriv Double) (sec : Section) :
    Except Failure (NvDsPayloadPriv Double) :=
  parseGroup sec priv.sensorObj (sec.isEnabledYaml r) (sec.entries.foldlM (sensorKeyYaml r) (initSensor r))
    priv.insertSensor priv

def nvdsMsg2pParsePlaceYaml (priv : NvDsPayloadPriv Double) (sec : Section) :
    Except Failure (NvDsPayloadPriv Double) :=
  parseGroup sec priv.placeObj (sec.isEnabledYaml r) (sec.entries.foldlM (placeKeyYaml r) (initPlace r))
    priv.insertPlace priv

def nvdsMsg2pParseAnalyticsYaml (priv : NvDsPayloadPriv Double) (sec : Section) :
    Except Failure (NvDsPayloadPriv Double) :=
  parseGroup sec priv.analyticsObj (sec.isEnabledYaml r) (sec.entries.foldlM analyticsKeyYaml initAnalytics)
    priv.insertAnalytics priv

/-- No group is one of `ds3d::datamap`. -/
def parseYamlGroup (priv : NvDsPayloadPriv Double) (sec : Section) : Except Failure (NvDsPayloadPriv Double) :=
  if Kind.sensor.configGroup.isPrefixOf sec.group then nvdsMsg2pParseSensorYaml r priv sec
  else if Kind.place.configGroup.isPrefixOf sec.group then nvdsMsg2pParsePlaceYaml r priv sec
  else if Kind.analytics.configGroup.isPrefixOf sec.group then nvdsMsg2pParseAnalyticsYaml r priv sec
  else .ok priv

def nvdsMsg2pParseYaml (config : Config) : Except Failure (NvDsPayloadPriv Double) :=
  config.sections.foldlM (parseYamlGroup r) .empty

/-- Both formats are refused, or both are accepted with the same objects for the same ids. -/
def Meets (config : Config) : Prop :=
  (nvdsMsg2pParseKeyValue r config = .error .refused ∧ nvdsMsg2pParseYaml r config = .error .refused) ∨
    ∃ priv, nvdsMsg2pParseKeyValue r config = .ok priv ∧ nvdsMsg2pParseYaml r config = .ok priv

/-! ### When they do -/

/-- A text of three parts. -/
def IsTriple (text a b c : List Char) : Prop :=
  text = a ++ ';' :: (b ++ ';' :: c) ∧ ';' ∉ a ∧ ';' ∉ b ∧ ';' ∉ c

/-- All of the text is a number. -/
def IsNumber (text : List Char) : Prop := ∃ number, r.strtod text = some number ∧ number.rest = []

/-- The text begins with a number, which is in range. -/
def BeginsWithNumber (text : List Char) : Prop := ∃ number, r.strtod text = some number ∧ number.erange = false

/-- Three numbers, with or without a separator behind them. -/
def KeyFileReads (text : List Char) : Prop :=
  ∃ a b c, (IsTriple text a b c ∨ ∃ front, text = front ++ [';'] ∧ IsTriple front a b c) ∧
    IsNumber r a ∧ IsNumber r b ∧ IsNumber r c

/-- Three parts, each of which begins with a number. -/
def YamlReads (text : List Char) : Prop :=
  ∃ a b c, IsTriple text a b c ∧ BeginsWithNumber r a ∧ BeginsWithNumber r b ∧ BeginsWithNumber r c

/-- The key has a list of three numbers. -/
def Kind.HasTriple (kind : Kind) (key : Key) : Prop := kind ≠ .analytics ∧ (key = .location ∨ key = .coordinate)

namespace Section

variable (sec : Section)

/-- The id of the group, by its name. -/
def id : Option ℤ := sscanf sec.kind.configGroup sec.group

def IsOnInKeyFile : Prop := ∃ text, (.enable, text) ∈ sec.entries ∧ r.gKeyFileGetBoolean text = some true

def IsOnInYaml : Prop := ∃ text v, (.enable, text) ∈ sec.entries ∧ r.asGboolean text = some v ∧ v ≠ 0

/-- A group of the same kind and id, which is on, comes before. -/
def IsTaken (isOn : Section → Prop) (front : List Section) : Prop :=
  ∃ sec' ∈ front, isOn sec' ∧ sec'.kind = sec.kind ∧ sec'.id = sec.id

/-- The first list of the group that YAML does not read has not three parts. -/
def YamlRefuses : Prop :=
  sec.IsOnInYaml r ∧ ∃ front key text back, sec.entries = front ++ (key, text) :: back ∧ sec.kind.HasTriple key ∧
    (¬∃ a b c, IsTriple text a b c) ∧ ∀ entry ∈ front, sec.kind.HasTriple entry.1 → YamlReads r entry.2

/-- YAML does not read `enable`, or the first list that it does not read has three parts. -/
def YamlThrows : Prop :=
  (∃ text, (.enable, text) ∈ sec.entries ∧ r.asGboolean text = none) ∨
    sec.IsOnInYaml r ∧ ∃ front key text back, sec.entries = front ++ (key, text) :: back ∧ sec.kind.HasTriple key ∧
      (¬YamlReads r text ∧ ∃ a b c, IsTriple text a b c) ∧
        ∀ entry ∈ front, sec.kind.HasTriple entry.1 → YamlReads r entry.2

/-- Both formats read `enable` alike, and the lists of the group if it is on. -/
def ReadsAlike : Prop :=
  (∀ text, (.enable, text) ∈ sec.entries →
      ∃ v, r.asGboolean text = some v ∧ (v ≠ 0 ↔ r.gKeyFileGetBoolean text = some true)) ∧
    (sec.IsOnInKeyFile r → ∀ key text, (key, text) ∈ sec.entries → sec.kind.HasTriple key →
      KeyFileReads r text ∧ YamlReads r text)

end Section

/-- Each group has an id that no group before it has taken, and is read alike. -/
def AllReadAlike (config : Config) : Prop :=
  (∀ sec ∈ config.sections, sec.id ≠ none ∧ sec.ReadsAlike r) ∧
    config.sections.Pairwise fun sec' sec => sec'.IsOnInKeyFile r → ¬(sec'.kind = sec.kind ∧ sec'.id = sec.id)

/-- A group without a free id, or with a list that is not one of three numbers. -/
def KeyFileRefuses (config : Config) : Prop :=
  ∃ front sec back, config.sections = front ++ sec :: back ∧
    (sec.id = none ∨ sec.IsTaken (Section.IsOnInKeyFile r) front ∨
      sec.IsOnInKeyFile r ∧ ∃ key text, (key, text) ∈ sec.entries ∧ sec.kind.HasTriple key ∧ ¬KeyFileReads r text)

/-- A group without a free id, or with a list that has not three parts, before anything throws. -/
def YamlRefuses (config : Config) : Prop :=
  ∃ front sec back, config.sections = front ++ sec :: back ∧ (∀ sec' ∈ front, ¬sec'.YamlThrows r) ∧
    (sec.id = none ∨ sec.IsTaken (Section.IsOnInYaml r) front ∨ sec.YamlRefuses r)

def MeetsWhen (config : Config) : Prop :=
  AllReadAlike r config ∨ (KeyFileRefuses r config ∧ YamlRefuses r config)

end Schema
end MsgConv
end DeepStream
