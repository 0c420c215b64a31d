/-
# When the two formats mean the same

Both parsers fill one table of objects from the groups (`parseKeyValueGroup_object`,
`parseYamlGroup_object`). They agree on it where they read each group alike, or where both refuse
a group and YAML has not thrown before.
-/
import DeepStream.Lib.Roster
import DeepStream.MsgConv.SchemaLists

namespace DeepStream
namespace MsgConv
namespace Schema

variable {Double : Type} {r : Readers Double} {sec : Section}

/-! ### The loops over the keys -/

theorem readsBy_sensorKey : ReadsBy .sensor (getTriple r) (sensorKey r) := by
  refine .of_lists (fun _ _ => rfl) (fun _ _ => rfl) (fun obj key text hlocation hcoordinate => ?_) (by decide)
  cases key
  case location => exact absurd rfl hlocation
  case coordinate => exact absurd rfl hcoordinate
  all_goals exact ⟨_, rfl⟩

theorem readsBy_sensorKeyYaml : ReadsBy .sensor (splitTriple r) (sensorKeyYaml r) := by
  refine .of_lists (fun _ _ => rfl) (fun _ _ => rfl) (fun obj key text hlocation hcoordinate => ?_) (by decide)
  cases key
  case location => exact absurd rfl hlocation
  case coordinate => exact absurd rfl hcoordinate
  all_goals exact ⟨_, rfl⟩

theorem readsBy_placeKey : ReadsBy .place (getTriple r) (placeKey r) := by
  refine .of_lists (fun _ _ => rfl) (fun _ _ => rfl) (fun obj key text hlocation hcoordinate => ?_) (by decide)
  cases key
  case location => exact absurd rfl hlocation
  case coordinate => exact absurd rfl hcoordinate
  all_goals exact ⟨_, rfl⟩

theorem readsBy_placeKeyYaml : ReadsBy .place (splitTriple r) (placeKeyYaml r) := by
  refine .of_lists (fun _ _ => rfl) (fun _ _ => rfl) (fun obj key text hlocation hcoordinate => ?_) (by decide)
  cases key
  case location => exact absurd rfl hlocation
  case coordinate => exact absurd rfl hcoordinate
  all_goals exact ⟨_, rfl⟩

theorem readsBy_analyticsKey (read : List Char → Except Failure (Triple Double)) :
    ReadsBy .analytics read analyticsKey where
  triple _ hkey := absurd rfl hkey.1
  other obj key text _ := by cases key <;> exact ⟨_, rfl⟩

theorem readsBy_analyticsKeyYaml (read : List Char → Except Failure (Triple Double)) :
    ReadsBy .analytics read analyticsKeyYaml where
  triple _ hkey := absurd rfl hkey.1
  other obj key text _ := by cases key <;> exact ⟨_, rfl⟩

/-- Where both formats read a list, the keys of a sensor are read alike. -/
theorem sensorKey_eq (obj : NvDsSensorObject Double) {key : Key} {text : List Char}
    (h : Kind.sensor.HasTriple key → KeyFileReads r text ∧ YamlReads r text) :
    sensorKey r obj (key, text) = sensorKeyYaml r obj (key, text) := by
  cases key
  case location =>
    obtain ⟨hkey, hyaml⟩ := h ⟨by decide, .inl rfl⟩
    rw [sensorKey, sensorKeyYaml, getTriple_eq_splitTriple r hkey hyaml]
  case coordinate =>
    obtain ⟨hkey, hyaml⟩ := h ⟨by decide, .inr rfl⟩
    rw [sensorKey, sensorKeyYaml, getTriple_eq_splitTriple r hkey hyaml]
  all_goals rfl

theorem placeKey_eq (obj : NvDsPlaceObject Double) {key : Key} {text : List Char}
    (h : Kind.place.HasTriple key → KeyFileReads r text ∧ YamlReads r text) :
    placeKey r obj (key, text) = placeKeyYaml r obj (key, text) := by
  cases key
  case location =>
    obtain ⟨hkey, hyaml⟩ := h ⟨by decide, .inl rfl⟩
    rw [placeKey, placeKeyYaml, getTriple_eq_splitTriple r hkey hyaml]
  case coordinate =>
    obtain ⟨hkey, hyaml⟩ := h ⟨by decide, .inr rfl⟩
    rw [placeKey, placeKeyYaml, getTriple_eq_splitTriple r hkey hyaml]
  all_goals rfl

theorem analyticsKey_eq (obj : NvDsAnalyticsObject) (entry : Key × List Char) :
    analyticsKey obj entry = analyticsKeyYaml obj entry := by
  obtain ⟨key, text⟩ := entry
  cases key <;> rfl

/-! ### The two readers -/

/-- An object of any kind. -/
inductive NvDsObject (Double : Type) where
  | sensor (obj : NvDsSensorObject Double)
  | place (obj : NvDsPlaceObject Double)
  | analytics (obj : NvDsAnalyticsObject)

def NvDsPayloadPriv.object (priv : NvDsPayloadPriv Double) : Kind × ℤ → Option (NvDsObject Double)
  | (.sensor, id) => (priv.sensorObj id).map .sensor
  | (.place, id) => (priv.placeObj id).map .place
  | (.analytics, id) => (priv.analyticsObj id).map .analytics

def keyFile (r : Readers Double) : Roster Section (Kind × ℤ) (NvDsObject Double) Failure where
  slot sec := sec.id.map fun id => (sec.kind, id)
  isOn sec := .ok (sec.isEnabled r)
  object sec :=
    match sec.kind with
    | .sensor => (sec.keys.foldlM (sensorKey r) (initSensor r)).map .sensor
    | .place => (sec.keys.foldlM (placeKey r) (initPlace r)).map .place
    | .analytics => (sec.keys.foldlM analyticsKey initAnalytics).map .analytics
  refused := .refused

def yaml (r : Readers Double) : Roster Section (Kind × ℤ) (NvDsObject Double) Failure where
  slot sec := sec.id.map fun id => (sec.kind, id)
  isOn sec := sec.isEnabledYaml r
  object sec :=
    match sec.kind with
    | .sensor => (sec.entries.foldlM (sensorKeyYaml r) (initSensor r)).map .sensor
    | .place => (sec.entries.foldlM (placeKeyYaml r) (initPlace r)).map .place
    | .analytics => (sec.entries.foldlM analyticsKeyYaml initAnalytics).map .analytics
  refused := .refused

/-- The objects say all. -/
theorem NvDsPayloadPriv.eq_of_object {priv priv' : NvDsPayloadPriv Double} (h : priv.object = priv'.object) :
    priv = priv' := by
  have hat : ∀ slot, priv.object slot = priv'.object slot := congrFun h
  ext1
  · funext id
    exact Option.map_injective (fun _ _ => NvDsObject.sensor.inj) (hat (.sensor, id))
  · funext id
    exact Option.map_injective (fun _ _ => NvDsObject.place.inj) (hat (.place, id))
  · funext id
    exact Option.map_injective (fun _ _ => NvDsObject.analytics.inj) (hat (.analytics, id))

/-- The objects of one kind are updated, those of the others stay. -/
theorem eq_update {Obj : Type} {kind : Kind} {wrap : Obj → NvDsObject Double} {m : ℤ → Option Obj} {id : ℤ} {obj : Obj}
    {table table' : Kind × ℤ → Option (NvDsObject Double)}
    (hothers : ∀ kind' id', kind' ≠ kind → table' (kind', id') = table (kind', id'))
    (htable : ∀ id', table (kind, id') = (m id').map wrap)
    (htable' : ∀ id', table' (kind, id') = (Function.update m id (some obj) id').map wrap) :
    table' = Function.update table (kind, id) (some (wrap obj)) := by
  funext ⟨kind', id'⟩
  by_cases hkind : kind' = kind
  · subst hkind
    by_cases hid : id' = id
    · subst hid
      rw [htable', Function.update_self, Function.update_self]
      rfl
    · have hslot : (kind', id') ≠ (kind', id) := fun h => hid (Prod.mk.inj h).2
      rw [htable', Function.update_of_ne hid, Function.update_of_ne hslot, htable]
  · have hslot : (kind', id') ≠ (kind, id) := fun h => hkind (Prod.mk.inj h).1
    rw [Function.update_of_ne hslot, hothers kind' id' hkind]

theorem object_insertSensor (priv : NvDsPayloadPriv Double) (id : ℤ) (obj : NvDsSensorObject Double) :
    (priv.insertSensor id obj).object = Function.update priv.object (.sensor, id) (some (.sensor obj)) := by
  refine eq_update (fun kind id' hkind => ?_) (fun _ => rfl) fun _ => rfl
  cases kind
  case sensor => exact absurd rfl hkind
  all_goals rfl

theorem object_insertPlace (priv : NvDsPayloadPriv Double) (id : ℤ) (obj : NvDsPlaceObject Double) :
    (priv.insertPlace id obj).object = Function.update priv.object (.place, id) (some (.place obj)) := by
  refine eq_update (fun kind id' hkind => ?_) (fun _ => rfl) fun _ => rfl
  cases kind
  case place => exact absurd rfl hkind
  all_goals rfl

theorem object_insertAnalytics (priv : NvDsPayloadPriv Double) (id : ℤ) (obj : NvDsAnalyticsObject) :
    (priv.insertAnalytics id obj).object = Function.update priv.object (.analytics, id) (some (.analytics obj)) := by
  refine eq_update (fun kind id' hkind => ?_) (fun _ => rfl) fun _ => rfl
  cases kind
  case analytics => exact absurd rfl hkind
  all_goals rfl

/-- A parser of one kind is a step of a reader. -/
theorem parseGroup_object {Obj : Type} (wrap : Obj → NvDsObject Double) {R : Roster Section (Kind × ℤ) (NvDsObject Double) Failure}
    (hrefused : R.refused = .refused) (hslot : R.slot sec = sec.id.map fun id => (sec.kind, id))
    {isEnabled : Except Failure Bool} (hisOn : R.isOn sec = isEnabled)
    {read : Except Failure Obj} (hobject : R.object sec = read.map wrap)
    {priv : NvDsPayloadPriv Double} {find : ℤ → Option Obj}
    (hfind : ∀ id, priv.object (sec.kind, id) = (find id).map wrap) {insert : ℤ → Obj → NvDsPayloadPriv Double}
    (hinsert : ∀ id obj, (insert id obj).object = Function.update priv.object (sec.kind, id) (some (wrap obj))) :
    (parseGroup sec find isEnabled read insert priv).map NvDsPayloadPriv.object = R.step priv.object sec := by
  unfold parseGroup Roster.step
  rw [hslot, hobject, hrefused, hisOn, Section.id]
  cases sscanf sec.kind.configGroup sec.group with
  | none => rfl
  | some id =>
    rw [Option.map_some]
    dsimp only
    rw [hfind id, Option.isSome_map]
    cases (find id).isSome with
    | true => rfl
    | false =>
      cases isEnabled with
      | error e => rfl
      | ok on =>
        cases on with
        | false => rfl
        | true =>
          cases read with
          | error e => rfl
          | ok obj => exact congrArg Except.ok (hinsert id obj)

theorem parseKeyValueGroup_object (priv : NvDsPayloadPriv Double) (sec : Section) :
    (parseKeyValueGroup r priv sec).map NvDsPayloadPriv.object = (keyFile r).step priv.object sec := by
  unfold parseKeyValueGroup
  obtain ⟨kind, suffix, entries, hnodup⟩ := sec
  cases kind with
  | sensor =>
    rw [if_pos (by rfl)]
    unfold nvdsMsg2pParseSensor
    refine parseGroup_object NvDsObject.sensor ?_ ?_ ?_ ?_ ?_ ?_
    exacts [rfl, rfl, rfl, rfl, fun _ => rfl, object_insertSensor priv]
  | place =>
    rw [if_neg (by exact Bool.false_ne_true), if_pos (by rfl)]
    unfold nvdsMsg2pParsePlace
    refine parseGroup_object NvDsObject.place ?_ ?_ ?_ ?_ ?_ ?_
    exacts [rfl, rfl, rfl, rfl, fun _ => rfl, object_insertPlace priv]
  | analytics =>
    rw [if_neg (by exact Bool.false_ne_true), if_neg (by exact Bool.false_ne_true), if_pos (by rfl)]
    unfold nvdsMsg2pParseAnalytics
    refine parseGroup_object NvDsObject.analytics ?_ ?_ ?_ ?_ ?_ ?_
    exacts [rfl, rfl, rfl, rfl, fun _ => rfl, object_insertAnalytics priv]

theorem parseYamlGroup_object (priv : NvDsPayloadPriv Double) (sec : Section) :
    (parseYamlGroup r priv sec).map NvDsPayloadPriv.object = (yaml r).step priv.object sec := by
  unfold parseYamlGroup
  obtain ⟨kind, suffix, entries, hnodup⟩ := sec
  cases kind with
  | sensor =>
    rw [if_pos (by rfl)]
    unfold nvdsMsg2pParseSensorYaml
    refine parseGroup_object NvDsObject.sensor ?_ ?_ ?_ ?_ ?_ ?_
    exacts [rfl, rfl, rfl, rfl, fun _ => rfl, object_insertSensor priv]
  | place =>
    rw [if_neg (by exact Bool.false_ne_true), if_pos (by rfl)]
    unfold nvdsMsg2pParsePlaceYaml
    refine parseGroup_object NvDsObject.place ?_ ?_ ?_ ?_ ?_ ?_
    exacts [rfl, rfl, rfl, rfl, fun _ => rfl, object_insertPlace priv]
  | analytics =>
    rw [if_neg (by exact Bool.false_ne_true), if_neg (by exact Bool.false_ne_true), if_pos (by rfl)]
    unfold nvdsMsg2pParseAnalyticsYaml
    refine parseGroup_object NvDsObject.analytics ?_ ?_ ?_ ?_ ?_ ?_
    exacts [rfl, rfl, rfl, rfl, fun _ => rfl, object_insertAnalytics priv]

theorem object_empty : (NvDsPayloadPriv.empty : NvDsPayloadPriv Double).object = fun _ => none := by
  funext ⟨kind, id⟩
  cases kind <;> rfl

theorem map_parseKeyValue (config : Config) : (nvdsMsg2pParseKeyValue r config).map NvDsPayloadPriv.object =
    config.sections.foldlM (keyFile r).step fun _ => none := by
  rw [← object_empty]
  exact map_foldlM fun priv sec _ => parseKeyValueGroup_object priv sec

theorem map_parseYaml (config : Config) : (nvdsMsg2pParseYaml r config).map NvDsPayloadPriv.object =
    config.sections.foldlM (yaml r).step fun _ => none := by
  rw [← object_empty]
  exact map_foldlM fun priv sec _ => parseYamlGroup_object priv sec

/-! ### What the readers make of a group -/

theorem isEnabled_iff : sec.isEnabled r = true ↔ sec.IsOnInKeyFile r := by
  unfold Section.isEnabled Section.IsOnInKeyFile
  simp only [← lookup_eq_some_iff_mem sec.nodup]
  cases sec.entries.lookup .enable with
  | none => simp
  | some text => cases h : r.gKeyFileGetBoolean text <;> simp [h]

theorem isEnabledYaml_iff : sec.isEnabledYaml r = .ok true ↔ sec.IsOnInYaml r := by
  unfold Section.isEnabledYaml Section.IsOnInYaml
  simp only [← lookup_eq_some_iff_mem sec.nodup]
  cases sec.entries.lookup .enable with
  | none => simp
  | some text => cases h : r.asGboolean text <;> simp [h]

theorem isEnabledYaml_error_iff {f : Failure} : sec.isEnabledYaml r = .error f ↔
    f = .thrown ∧ ∃ text, (.enable, text) ∈ sec.entries ∧ r.asGboolean text = none := by
  unfold Section.isEnabledYaml
  simp only [← lookup_eq_some_iff_mem sec.nodup]
  cases sec.entries.lookup .enable with
  | none => simp
  | some text => cases h : r.asGboolean text <;> simp [h, eq_comm]

theorem isSome_slot_iff : ((keyFile r).slot sec).isSome ↔ sec.id ≠ none := by
  rw [keyFile, Option.isSome_map, Option.isSome_iff_ne_none]

theorem slot_eq_iff {sec' : Section} (hid : sec.id ≠ none) :
    (keyFile r).slot sec' = (keyFile r).slot sec ↔ sec'.kind = sec.kind ∧ sec'.id = sec.id := by
  obtain ⟨id, hid⟩ := Option.ne_none_iff_exists'.mp hid
  cases hid' : sec'.id with
  | none => simp [keyFile, hid, hid']
  | some id' => simp [keyFile, hid, hid']

theorem map_ok_iff {σ τ : Type} {x : Except Failure σ} {f : σ → τ} : (∃ t, x.map f = .ok t) ↔ ∃ s, x = .ok s := by
  cases x with
  | error e => exact iff_of_false (fun ⟨_, h⟩ => by cases h) fun ⟨_, h⟩ => by cases h
  | ok s => exact iff_of_true ⟨_, rfl⟩ ⟨_, rfl⟩

theorem map_error_iff {σ τ : Type} {x : Except Failure σ} {f : σ → τ} {e : Failure} : x.map f = .error e ↔ x = .error e := by
  cases x with
  | error e' => exact ⟨fun h => by cases h; rfl, fun h => by cases h; rfl⟩
  | ok s => exact iff_of_false (fun h => by cases h) fun h => by cases h

/-- The key file makes an object of a group when it reads all of its lists. -/
theorem keyFile_object_ok_iff : (∃ o, (keyFile r).object sec = .ok o) ↔
    ∀ key text, (key, text) ∈ sec.entries → sec.kind.HasTriple key → KeyFileReads r text := by
  have hkeys : (∀ entry ∈ sec.keys, sec.kind.HasTriple entry.1 → ∃ t, getTriple r entry.2 = .ok t) ↔
      ∀ key text, (key, text) ∈ sec.entries → sec.kind.HasTriple key → KeyFileReads r text := by
    simp only [getTriple_ok_iff]
    constructor
    · intro h key text hmem hkey
      refine h (key, text) (List.mem_filter.mpr ⟨hmem, ?_⟩) hkey
      rcases hkey.2 with rfl | rfl <;> rfl
    · exact fun h entry hentry hkey => h entry.1 entry.2 (List.mem_filter.mp hentry).1 hkey
  rw [← hkeys]
  unfold keyFile
  dsimp only
  cases sec.kind with
  | sensor => exact map_ok_iff.trans readsBy_sensorKey.ok_iff
  | place => exact map_ok_iff.trans readsBy_placeKey.ok_iff
  | analytics => exact map_ok_iff.trans (readsBy_analyticsKey (getTriple r)).ok_iff

theorem yaml_object_ok_iff : (∃ o, (yaml r).object sec = .ok o) ↔
    ∀ key text, (key, text) ∈ sec.entries → sec.kind.HasTriple key → YamlReads r text := by
  have hentries : (∀ entry ∈ sec.entries, sec.kind.HasTriple entry.1 → ∃ t, splitTriple r entry.2 = .ok t) ↔
      ∀ key text, (key, text) ∈ sec.entries → sec.kind.HasTriple key → YamlReads r text := by
    simp only [splitTriple_ok_iff]
    exact ⟨fun h key text => h (key, text), fun h entry => h entry.1 entry.2⟩
  rw [← hentries]
  unfold yaml
  dsimp only
  cases sec.kind with
  | sensor => exact map_ok_iff.trans readsBy_sensorKeyYaml.ok_iff
  | place => exact map_ok_iff.trans readsBy_placeKeyYaml.ok_iff
  | analytics => exact map_ok_iff.trans (readsBy_analyticsKeyYaml (splitTriple r)).ok_iff

/-- YAML stops at the first list of a group that it does not read. -/
theorem yaml_object_error_iff {e : Failure} : (yaml r).object sec = .error e ↔
    ∃ front key text back, sec.entries = front ++ (key, text) :: back ∧ sec.kind.HasTriple key ∧
      splitTriple r text = .error e ∧ ∀ entry ∈ front, sec.kind.HasTriple entry.1 → YamlReads r entry.2 := by
  simp only [← splitTriple_ok_iff]
  unfold yaml
  dsimp only
  cases sec.kind with
  | sensor => exact map_error_iff.trans readsBy_sensorKeyYaml.error_iff
  | place => exact map_error_iff.trans readsBy_placeKeyYaml.error_iff
  | analytics => exact map_error_iff.trans (readsBy_analyticsKeyYaml (splitTriple r)).error_iff

/-- A group whose lists both formats read is the same object for both. -/
theorem object_eq (h : ∀ key text, (key, text) ∈ sec.entries → sec.kind.HasTriple key →
    KeyFileReads r text ∧ YamlReads r text) : (keyFile r).object sec = (yaml r).object sec := by
  unfold keyFile yaml Section.keys
  dsimp only
  cases hkind : sec.kind with
  | sensor =>
    rw [hkind] at h
    dsimp only
    rw [foldlM_keys_eq (fun _ _ => rfl) fun obj entry hentry => sensorKey_eq obj (h entry.1 entry.2 hentry)]
  | place =>
    rw [hkind] at h
    dsimp only
    rw [foldlM_keys_eq (fun _ _ => rfl) fun obj entry hentry => placeKey_eq obj (h entry.1 entry.2 hentry)]
  | analytics =>
    dsimp only
    rw [foldlM_keys_eq (fun _ _ => rfl) fun obj entry _ => analyticsKey_eq obj entry]

theorem keyFile_isOn_iff : (keyFile r).isOn sec = .ok true ↔ sec.IsOnInKeyFile r :=
  (Except.ok.injEq _ _).to_iff.trans isEnabled_iff

theorem keyFile_object_error {e : Failure} (h : (keyFile r).object sec = .error e) : e = .refused := by
  have hread : ∃ text, getTriple r text = .error e := by
    unfold keyFile at h
    dsimp only at h
    cases hkind : sec.kind with
    | sensor =>
      rw [hkind] at h
      obtain ⟨-, -, text, -, -, -, htext, -⟩ := readsBy_sensorKey.error_iff.mp (map_error_iff.mp h)
      exact ⟨text, htext⟩
    | place =>
      rw [hkind] at h
      obtain ⟨-, -, text, -, -, -, htext, -⟩ := readsBy_placeKey.error_iff.mp (map_error_iff.mp h)
      exact ⟨text, htext⟩
    | analytics =>
      rw [hkind] at h
      obtain ⟨-, -, text, -, -, -, htext, -⟩ :=
        (readsBy_analyticsKey (getTriple r)).error_iff.mp (map_error_iff.mp h)
      exact ⟨text, htext⟩
  obtain ⟨text, htext⟩ := hread
  rcases getTriple_cases r text with ⟨t, ht⟩ | hrefused
  · cases ht.symm.trans htext
  · cases hrefused.symm.trans htext
    rfl

theorem keyFile_fails_iff {e : Failure} : (keyFile r).Fails e sec ↔ e = .refused ∧ sec.IsOnInKeyFile r ∧
    ∃ key text, (key, text) ∈ sec.entries ∧ sec.kind.HasTriple key ∧ ¬KeyFileReads r text := by
  have hobject : (∃ e, (keyFile r).object sec = .error e) ↔
      ∃ key text, (key, text) ∈ sec.entries ∧ sec.kind.HasTriple key ∧ ¬KeyFileReads r text := by
    have hnot : (∃ e, (keyFile r).object sec = .error e) ↔ ¬∃ o, (keyFile r).object sec = .ok o := by
      cases (keyFile r).object sec <;> simp
    rw [hnot, keyFile_object_ok_iff]
    push Not
    rfl
  constructor
  · rintro (hon | ⟨hon, herror⟩)
    · cases hon
    · exact ⟨keyFile_object_error herror, keyFile_isOn_iff.mp hon, hobject.mp ⟨e, herror⟩⟩
  · rintro ⟨rfl, hon, hlist⟩
    obtain ⟨e, herror⟩ := hobject.mpr hlist
    cases keyFile_object_error herror
    exact .inr ⟨keyFile_isOn_iff.mpr hon, herror⟩

theorem yaml_fails_refused_iff : (yaml r).Fails .refused sec ↔ sec.YamlRefuses r := by
  have hon : (yaml r).isOn sec ≠ .error .refused := fun h => by cases (isEnabledYaml_error_iff.mp h).1
  unfold Roster.Fails Section.YamlRefuses
  rw [or_iff_right hon, yaml_object_error_iff]
  simp only [splitTriple_refused_iff]
  exact and_congr_left' isEnabledYaml_iff

theorem yaml_fails_thrown_iff : (yaml r).Fails .thrown sec ↔ sec.YamlThrows r := by
  unfold Roster.Fails Section.YamlThrows
  rw [yaml_object_error_iff]
  simp only [splitTriple_thrown_iff]
  refine or_congr ?_ (and_congr_left' isEnabledYaml_iff)
  exact isEnabledYaml_error_iff.trans (and_iff_right rfl)

/-! ### Whole configurations -/

section Config

variable {R : Roster Section (Kind × ℤ) (NvDsObject Double) Failure} {isOn : Section → Prop}

/-- What a reader stops at, in the words of the configuration. -/
theorem stops_iff (hslot : R.slot = (keyFile r).slot) (hon : ∀ sec, R.isOn sec = .ok true ↔ isOn sec)
    {front : List Section} {P : Prop} (hfails : R.Fails R.refused sec ↔ P) :
    (R.slot sec = none ∨ R.Taken front sec ∨ R.Fails R.refused sec) ↔ sec.id = none ∨ sec.IsTaken isOn front ∨ P := by
  have hnone : R.slot sec = none ↔ sec.id = none := by
    rw [hslot, ← Option.not_isSome_iff_eq_none, isSome_slot_iff, not_not]
  rw [hnone, hfails]
  by_cases hid : sec.id = none
  · exact iff_of_true (.inl hid) (.inl hid)
  · refine or_congr_right (or_congr_left ?_)
    refine exists_congr fun sec' => and_congr_right fun _ => and_congr (hon sec') ?_
    rw [hslot]
    exact slot_eq_iff hid

theorem parseKeyValue_refused_iff (config : Config) :
    nvdsMsg2pParseKeyValue r config = .error .refused ↔ KeyFileRefuses r config := by
  rw [← map_error_iff, map_parseKeyValue]
  refine (Roster.refused_iff (R := keyFile r)).trans ?_
  refine exists_congr fun front => exists_congr fun sec => exists_congr fun back => and_congr_right fun _ => ?_
  have hothers : ∀ sec' ∈ front, ∀ e, (keyFile r).Fails e sec' → e = (keyFile r).refused := fun _ _ _ h =>
    (keyFile_fails_iff.mp h).1
  rw [and_iff_right hothers]
  exact stops_iff rfl (fun _ => keyFile_isOn_iff) (keyFile_fails_iff.trans (and_iff_right rfl))

theorem parseYaml_refused_iff (config : Config) :
    nvdsMsg2pParseYaml r config = .error .refused ↔ YamlRefuses r config := by
  rw [← map_error_iff, map_parseYaml]
  refine (Roster.refused_iff (R := yaml r)).trans ?_
  refine exists_congr fun front => exists_congr fun sec => exists_congr fun back => and_congr_right fun _ => ?_
  have hothers : (∀ sec' ∈ front, ∀ e, (yaml r).Fails e sec' → e = (yaml r).refused) ↔
      ∀ sec' ∈ front, ¬sec'.YamlThrows r := by
    refine forall₂_congr fun sec' _ => ?_
    rw [← yaml_fails_thrown_iff]
    constructor
    · intro h hthrown
      cases h _ hthrown
    · intro h e he
      cases e with
      | refused => rfl
      | thrown => exact absurd he h
  exact and_congr hothers (stops_iff (r := r) (R := yaml r) rfl (fun _ => isEnabledYaml_iff) yaml_fails_refused_iff)

theorem isEnabled_eq_iff : sec.isEnabledYaml r = .ok (sec.isEnabled r) ↔ ∀ text, (.enable, text) ∈ sec.entries →
    ∃ v, r.asGboolean text = some v ∧ (v ≠ 0 ↔ r.gKeyFileGetBoolean text = some true) := by
  unfold Section.isEnabledYaml Section.isEnabled
  simp only [← lookup_eq_some_iff_mem sec.nodup]
  cases sec.entries.lookup .enable with
  | none => simp
  | some text =>
    cases hint : r.asGboolean text with
    | none => simp [hint]
    | some v =>
      cases hbool : r.gKeyFileGetBoolean text with
      | none => simp [hint, hbool]
      | some val => cases val <;> simp [hint, hbool]

/-- YAML does not take for off what the key file takes for on. -/
theorem yaml_isOn_ne_false (hon : (keyFile r).isOn sec = .ok true) : (yaml r).isOn sec ≠ .ok false := by
  obtain ⟨text, hmem, hbool⟩ := keyFile_isOn_iff.mp hon
  intro hoff
  unfold yaml Section.isEnabledYaml at hoff
  dsimp only at hoff
  rw [lookup_of_mem sec.nodup hmem] at hoff
  dsimp only at hoff
  cases hint : r.asGboolean text with
  | none => rw [hint] at hoff; cases hoff
  | some v =>
    rw [hint] at hoff
    have hv := r.ne_zero text v hbool hint
    simp [hv] at hoff

theorem readsAlike_iff : ((keyFile r).slot sec).isSome ∧ (∃ on, (keyFile r).isOn sec = .ok on ∧ (yaml r).isOn sec = .ok on ∧
    (on = true → ∃ o, (keyFile r).object sec = .ok o ∧ (yaml r).object sec = .ok o)) ↔
      sec.id ≠ none ∧ sec.ReadsAlike r := by
  have hobject : (∃ o, (keyFile r).object sec = .ok o ∧ (yaml r).object sec = .ok o) ↔
      ∀ key text, (key, text) ∈ sec.entries → sec.kind.HasTriple key → KeyFileReads r text ∧ YamlReads r text := by
    constructor
    · rintro ⟨o, ho, ho'⟩ key text hmem hkey
      exact ⟨keyFile_object_ok_iff.mp ⟨o, ho⟩ key text hmem hkey, yaml_object_ok_iff.mp ⟨o, ho'⟩ key text hmem hkey⟩
    · intro h
      obtain ⟨o, ho⟩ := keyFile_object_ok_iff.mpr fun key text hmem hkey => (h key text hmem hkey).1
      exact ⟨o, ho, (object_eq h).symm.trans ho⟩
  rw [isSome_slot_iff, hobject]
  refine and_congr_right fun _ => ?_
  unfold Section.ReadsAlike
  rw [← isEnabled_eq_iff, ← isEnabled_iff]
  constructor
  · rintro ⟨on, hon, hyaml, hlists⟩
    cases hon
    exact ⟨hyaml, hlists⟩
  · rintro ⟨hyaml, hlists⟩
    exact ⟨_, rfl, hyaml, hlists⟩

/-- Both formats fill the same objects exactly when each group is read alike. -/
theorem both_ok_iff (config : Config) :
    (∃ priv, nvdsMsg2pParseKeyValue r config = .ok priv ∧ nvdsMsg2pParseYaml r config = .ok priv) ↔
      AllReadAlike r config := by
  have hobjects : (∃ priv, nvdsMsg2pParseKeyValue r config = .ok priv ∧ nvdsMsg2pParseYaml r config = .ok priv) ↔
      ∃ m, config.sections.foldlM (keyFile r).step (fun _ => none) = .ok m ∧
        config.sections.foldlM (yaml r).step (fun _ => none) = .ok m := by
    rw [← map_parseKeyValue, ← map_parseYaml]
    cases nvdsMsg2pParseKeyValue r config with
    | error e => exact iff_of_false (fun ⟨_, h, _⟩ => by cases h) fun ⟨_, h, _⟩ => by cases h
    | ok priv =>
      cases nvdsMsg2pParseYaml r config with
      | error e => exact iff_of_false (fun ⟨_, _, h⟩ => by cases h) fun ⟨_, _, h⟩ => by cases h
      | ok priv' =>
        constructor
        · rintro ⟨_, ⟨⟩, ⟨⟩⟩
          exact ⟨_, rfl, rfl⟩
        · rintro ⟨m, hm, hm'⟩
          have heq : priv = priv' :=
            NvDsPayloadPriv.eq_of_object ((Except.ok.inj hm).trans (Except.ok.inj hm').symm)
          exact ⟨priv, rfl, by rw [heq]⟩
  have hslot : (yaml r).slot = (keyFile r).slot := rfl
  rw [hobjects, Roster.both_ok_iff hslot fun _ => yaml_isOn_ne_false]
  unfold AllReadAlike
  simp only [readsAlike_iff]
  refine and_congr_right fun hall => ?_
  refine List.Pairwise.iff_of_mem fun {sec' sec} _ hsec => ?_
  rw [keyFile_isOn_iff, Ne, slot_eq_iff (hall sec hsec).1]

end Config

/-- The two formats mean the same exactly when each group is read alike, or when both refuse a group
and nothing throws before. -/
theorem schemas_meet_iff (r : Readers Double) (config : Config) : Meets r config ↔ MeetsWhen r config := by
  unfold Meets MeetsWhen
  rw [parseKeyValue_refused_iff, parseYaml_refused_iff, both_ok_iff, or_comm]

/-- Readers of numerals without a sign or a point. -/
def decimalReaders : Readers ℕ where
  zero := 0
  strtod text := (readDigits text).map fun number => ⟨number.1, number.2, false⟩
  gKeyFileGetBoolean text :=
    if text = ['1'] ∨ text = ['t', 'r', 'u', 'e'] then some true
    else if text = ['0'] ∨ text = ['f', 'a', 'l', 's', 'e'] then some false
    else none
  asGboolean text :=
    match readDigits text with
    | some (v, []) => some v
    | _ => none
  strtod_nil := rfl
  ne_zero text v htrue hint := by
    by_cases htext : text = ['1'] ∨ text = ['t', 'r', 'u', 'e']
    · rcases htext with rfl | rfl
      · cases hint
        decide
      · cases hint
    · rw [if_neg htext] at htrue
      split at htrue <;> cases htrue

/-- `[sensor0]` with `enable=1` and `location=1;2;3;`. -/
def trailingSeparator : Section where
  kind := .sensor
  suffix := ['0']
  entries := [(.enable, ['1']), (.location, ['1', ';', '2', ';', '3', ';'])]
  nodup := by decide

/-- The key file takes the separator at the end, and YAML refuses it. -/
theorem not_meets_trailingSeparator : ¬Meets decimalReaders ⟨[trailingSeparator], List.nodup_singleton _⟩ := by
  have hyaml : nvdsMsg2pParseYaml decimalReaders ⟨[trailingSeparator], List.nodup_singleton _⟩ = .error .refused := rfl
  rintro (⟨hrefused, -⟩ | ⟨priv, -, haccepted⟩)
  · obtain ⟨priv, haccepted⟩ :
        ∃ priv, nvdsMsg2pParseKeyValue decimalReaders ⟨[trailingSeparator], List.nodup_singleton _⟩ = .ok priv := ⟨_, rfl⟩
    cases hrefused.symm.trans haccepted
  · cases hyaml.symm.trans haccepted

end Schema
end MsgConv
end DeepStream
