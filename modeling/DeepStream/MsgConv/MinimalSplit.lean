/-
# The strings of clear objects

A clear object shares its strings with no object that has other fields: what stands behind the
type of the other one must be the same text, and the numbers of separators, the ages and the
ends leave one way to read it.
-/
import DeepStream.Lib.Folds
import DeepStream.MsgConv.MinimalRivals

namespace DeepStream
namespace MsgConv
namespace Minimal

variable {F D : Type} {N : Formats F D} {e e' : NvDsEventMsgMeta F D} {pose pose' : Option (Pose F)}

/-! ### Types and their names -/

theorem objectEnumToStr_of_ne {type : NvDsObjectType} (h : type ≠ .unknown) (objectId : Gchar) :
    objectEnumToStr type objectId = objectEnumToStr type none := by
  cases type <;> first | rfl | exact absurd rfl h

theorem bar_notMem_name {type : NvDsObjectType} (h : type ≠ .unknown) (objectId : Gchar) :
    '|' ∉ objectEnumToStr type objectId := by
  rw [objectEnumToStr_of_ne h]
  cases type <;> decide

theorem bar_notMem_typeName (h : e.objType ≠ .unknown) : '|' ∉ e.typeName := bar_notMem_name h e.objectId

theorem mem_plainNames {type : NvDsObjectType} (hunknown : type ≠ .unknown) (hperson : type ≠ .person) (objectId : Gchar) :
    objectEnumToStr type objectId ∈ plainTypes.map (objectEnumToStr · none) := by
  rw [objectEnumToStr_of_ne hunknown]
  revert hunknown hperson
  cases type <;> decide

/-- The types that are not written as `Unknown` have names of their own. -/
theorem type_of_name {type : NvDsObjectType} (h : type ≠ .unknown) {type' : NvDsObjectType} (h' : type' ≠ .unknown)
    (hname : objectEnumToStr type' none = objectEnumToStr type none) (hown : objectEnumToStr type none ≠ "Unknown".toList) :
    type' = type := by
  revert h h' hname hown
  cases type <;> cases type' <;> decide

theorem attributeParts_cases (e : NvDsEventMsgMeta F D) :
    (∃ parts, e.secondary = some parts ∧ attributeParts e = "#".toList :: parts) ∨
      (e.secondary = none ∧ e.objType = .person ∧ attributeParts e = "#".toList :: List.replicate 6 []) ∨
        (e.secondary = none ∧ e.objType ≠ .person ∧ attributeParts e = []) := by
  unfold attributeParts
  cases e.secondary with
  | some parts => exact .inl ⟨parts, rfl, rfl⟩
  | none =>
    by_cases h : e.objType = .person
    · exact .inr (.inl ⟨rfl, h, if_pos h⟩)
    · exact .inr (.inr ⟨rfl, h, if_neg h⟩)

theorem exists_attributeParts (h : attributeParts e ≠ []) :
    ∃ parts, (e.secondary = some parts ∨ e.secondary = none ∧ e.objType = .person ∧ parts = List.replicate 6 []) ∧
      attributeParts e = "#".toList :: parts := by
  rcases attributeParts_cases e with ⟨parts, hs, hp⟩ | ⟨hs, hperson, hp⟩ | ⟨-, -, hp⟩
  · exact ⟨parts, .inl hs, hp⟩
  · exact ⟨_, .inr ⟨hs, hperson, rfl⟩, hp⟩
  · exact absurd hp h

theorem secondary_of_unknown (h : e.objType = .unknown) : e.secondary = none := by
  obtain ⟨type, bbox, sensorId, frameId, confidence, trackingId, ts, objectId, sensorStr, ext⟩ := e
  cases h
  cases ext <;> rfl

/-! ### What two strings share -/

theorem body_eq {s : Text} (hs' : objectString N e' = some s) (hs : objectString N e = some s) :
    ∃ pose pose', e.writtenPose = some pose ∧ e'.writtenPose = some pose' ∧ e'.trackingId = e.trackingId ∧
      N.corners e'.bbox = N.corners e.bbox ∧
        e'.typeName ++ '|' :: after N e' pose' = e.typeName ++ '|' :: after N e pose := by
  rw [objectString_eq] at hs hs'
  obtain ⟨pose, hpose, rfl⟩ := Option.map_eq_some_iff.mp hs
  obtain ⟨pose', hpose', heq⟩ := Option.map_eq_some_iff.mp hs'
  obtain ⟨hid, hcorners, hbody⟩ := front_inj N heq
  exact ⟨pose, pose', hpose, hpose', hid, hcorners, hbody⟩

theorem after_of_plain (hparts : attributeParts e = []) (hpose : e.writtenPose = some pose) :
    after N e pose = N.streamDouble e.confidence ++ N.tail e.embedding e.singleView3DTracking := by
  have hne : e.objType ≠ .person := by
    rintro hperson
    rcases attributeParts_cases e with ⟨parts, -, h⟩ | ⟨-, -, h⟩ | ⟨-, h, -⟩
    · cases h.symm.trans hparts
    · cases h.symm.trans hparts
    · exact h hperson
  rw [writtenPose_of_ne hne] at hpose
  cases hpose
  rw [after, hparts, Formats.poseParts, List.append_nil, prefixed_nil, List.append_nil]

/-- Unless a text ends in a confidence, only an object with attributes and of the same name goes on in this way. -/
theorem known_of_notEnds (htype : e.objType ≠ .unknown) (hends : ¬EndsInConfidence N (after N e pose))
    (hpose' : e'.writtenPose = some pose')
    (hbody : e'.typeName ++ '|' :: after N e' pose' = e.typeName ++ '|' :: after N e pose) :
    attributeParts e' ≠ [] := by
  intro hparts
  have hafter := after_of_plain (N := N) hparts hpose'
  rcases append_sep_cases hbody with ⟨-, h⟩ | ⟨p, -, h⟩ | ⟨p, hname, -⟩
  · exact hends ⟨[], _, _, _, .inl rfl, h.symm.trans hafter⟩
  · refine hends ⟨p ++ ['|'], e'.confidence, e'.embedding, e'.singleView3DTracking, .inr ⟨p, rfl⟩, ?_⟩
    rw [h, hafter, List.append_assoc, List.singleton_append]
  · exact bar_notMem_typeName htype (hname ▸ List.mem_append_right _ List.mem_cons_self)

/-- Then the confidence and what is behind it are the same. -/
theorem parts_eq (htype : e.objType ≠ .unknown) (hparts' : attributeParts e' ≠ [])
    (hbody : e'.typeName ++ '|' :: after N e' pose' = e.typeName ++ '|' :: after N e pose) {parts parts' : List Text}
    (h : attributeParts e = "#".toList :: parts) (h' : attributeParts e' = "#".toList :: parts') :
    e'.objType ≠ .unknown ∧ e'.typeName = e.typeName ∧ N.streamDouble e'.confidence = N.streamDouble e.confidence ∧
      prefixed '|' parts' ++ (prefixed '|' (N.poseParts pose') ++ N.tail e'.embedding e'.singleView3DTracking) =
        prefixed '|' parts ++ (prefixed '|' (N.poseParts pose) ++ N.tail e.embedding e.singleView3DTracking) := by
  have htype' : e'.objType ≠ .unknown := fun hunknown =>
    hparts' (attributeParts_of_plain (by rw [hunknown]; decide) (secondary_of_unknown hunknown))
  obtain ⟨hname, hafter⟩ := append_sep_inj (bar_notMem_typeName htype') (bar_notMem_typeName htype) hbody
  refine ⟨htype', hname, ?_⟩
  simp only [after, h, h', prefixed_append, prefixed_cons, List.append_assoc, List.cons_append] at hafter
  obtain ⟨hconfidence, hrest⟩ := append_sep_inj (N.isNumber_streamDouble _).bar (N.isNumber_streamDouble _).bar hafter
  exact ⟨hconfidence, List.append_cancel_left hrest⟩

/-- Without a separator there is nothing behind the attributes. -/
theorem nothing_of_notMem {emb : List F} {tr : Option (NvDs3DTracking F)}
    (h : '|' ∉ prefixed '|' (N.poseParts pose) ++ N.tail emb tr) : pose = none ∧ emb = [] ∧ tr = none := by
  cases pose with
  | some pose => exact absurd (List.mem_append_left _ List.mem_cons_self) h
  | none =>
    cases emb with
    | cons x xs => exact absurd List.mem_cons_self h
    | nil =>
      cases tr with
      | some t => exact absurd (List.mem_cons_of_mem _ List.mem_cons_self) h
      | none => exact ⟨rfl, rfl, rfl⟩

/-- As many attributes behind one another, those of one side without separators and with nothing behind them. -/
theorem free_eq {parts parts' : List Text} (hbars : NoBars parts) (hlen : parts'.length = parts.length) (hne : parts ≠ [])
    {emb : List F} {tr : Option (NvDs3DTracking F)}
    (h : prefixed '|' parts' ++ (prefixed '|' (N.poseParts pose) ++ N.tail emb tr) = prefixed '|' parts) :
    parts' = parts ∧ pose = none ∧ emb = [] ∧ tr = none := by
  have hne' : parts' ≠ [] := fun hnil => hne (List.length_eq_zero_iff.mp (by rw [← hlen, hnil]; rfl))
  obtain ⟨front, last, rfl⟩ := (List.eq_nil_or_concat parts').resolve_left hne'
  rw [List.concat_eq_append] at *
  have hsame : parts = front ++ [last ++ (prefixed '|' (N.poseParts pose) ++ N.tail emb tr)] := by
    refine prefixed_inj ?_ hbars (h.symm.trans ?_)
    · rw [← hlen, List.length_append, List.length_append]
      rfl
    · simp [prefixed_append]
  have hlast : '|' ∉ last ++ (prefixed '|' (N.poseParts pose) ++ N.tail emb tr) :=
    hbars _ (hsame ▸ List.mem_append_right _ List.mem_cons_self)
  obtain ⟨rfl, rfl, rfl⟩ := nothing_of_notMem (N := N) fun hmem => hlast (List.mem_append_right _ hmem)
  refine ⟨?_, rfl, rfl, rfl⟩
  rw [hsame, tail_nil]
  simp [Formats.poseParts]

/-! ### Ages -/

theorem IsAge.bar {n : Text} (h : IsAge n) : '|' ∉ n := by
  obtain ⟨age, rfl⟩ := h
  exact (isNumber_digits _).bar

/-- Where the other gender is shorter, the other age is in the gender. -/
theorem laterAge_of_shorter {gender x u n back back' : Text} (hgender : gender = x ++ '|' :: u) (hn : IsAge n)
    (h : n ++ '|' :: back = u ++ '|' :: back') : LaterAge gender := by
  rcases append_sep_cases h with ⟨rfl, -⟩ | ⟨y, rfl, -⟩ | ⟨y, rfl, -⟩
  · exact ⟨x, n, hn, .inl hgender⟩
  · exact absurd (List.mem_append_right _ List.mem_cons_self) hn.bar
  · exact ⟨x, n, hn, .inr ⟨y, hgender⟩⟩

/-- The gender and the age are found again, if no more can follow them than three attributes. -/
theorem person_eq {g g' n n' v v' : Text} (hlater : ¬LaterAge g) (hn : IsAge n) (hn' : IsAge n')
    (hcount : v.count '|' ≤ v'.count '|') (h : g' ++ '|' :: (n' ++ '|' :: v') = g ++ '|' :: (n ++ '|' :: v)) :
    g' = g ∧ n' = n ∧ v' = v := by
  rcases append_sep_cases h with ⟨hg, hrest⟩ | ⟨u, -, hrest⟩ | ⟨u, hg, hrest⟩
  · exact ⟨hg, append_sep_inj hn'.bar hn.bar hrest⟩
  · have hc := congrArg (List.count '|') hrest
    simp only [count_append_sep, List.count_eq_zero_of_not_mem hn.bar, List.count_eq_zero_of_not_mem hn'.bar] at hc
    omega
  · exact absurd (laterAge_of_shorter hg hn' hrest) hlater

/-- With a clear color of the eyes, four separators are before the two. -/
theorem eyes_eq {w w' eyes z : Text} (heyes : EyesClear N eyes) (hcount : w.count '|' ≤ w'.count '|')
    (h : w' ++ '|' :: '|' :: z = w ++ '|' :: '|' :: eyes) : w' = w ∧ z = eyes := by
  rcases append_sep_cases h with ⟨hw, hrest⟩ | ⟨u, -, hrest⟩ | ⟨u, hw, -⟩
  · exact ⟨hw, List.tail_eq_of_cons_eq hrest⟩
  · cases u with
    | nil => exact absurd (List.tail_eq_of_cons_eq hrest) (heyes.front z)
    | cons c u =>
      obtain ⟨rfl, heq⟩ := List.cons.inj hrest
      exact absurd heq (heyes.bars u z)
  · rw [hw, count_append_sep] at hcount
    omega

theorem face_eq {g g' n n' w w' eyes z : Text} (hlater : ¬LaterAge g) (hn : IsAge n) (hn' : IsAge n')
    (heyes : EyesClear N eyes) (hcount : w.count '|' = 4) (hcount' : 4 ≤ w'.count '|')
    (h : g' ++ '|' :: (n' ++ '|' :: (w' ++ '|' :: '|' :: z)) = g ++ '|' :: (n ++ '|' :: (w ++ '|' :: '|' :: eyes))) :
    g' = g ∧ n' = n ∧ w' = w ∧ z = eyes := by
  have hmore : ∀ v : Text, 5 ≤ v.count '|' → w ++ '|' :: '|' :: eyes ≠ v ++ '|' :: '|' :: z := by
    intro v hv heq
    have hvw := (eyes_eq heyes (by omega) heq.symm).1
    rw [hvw] at hv
    omega
  rcases append_sep_cases h with ⟨hg, hrest⟩ | ⟨u, -, hrest⟩ | ⟨u, hg, hrest⟩
  · obtain ⟨hn, hrest⟩ := append_sep_inj hn'.bar hn.bar hrest
    obtain ⟨hw, hz⟩ := eyes_eq heyes (by omega) hrest
    exact ⟨hg, hn, hw, hz⟩
  · -- a longer gender leaves too few separators for its own attributes
    rcases append_sep_cases hrest with ⟨-, hback⟩ | ⟨y, hu, -⟩ | ⟨y, -, hback⟩
    · refine absurd (hback.trans ?_) (hmore (n' ++ '|' :: w') ?_)
      · simp
      · rw [count_append_sep]
        omega
    · exact absurd (hu ▸ List.mem_append_right _ List.mem_cons_self) hn.bar
    · refine absurd (hback.trans ?_) (hmore (y ++ '|' :: (n' ++ '|' :: w')) ?_)
      · simp
      · rw [count_append_sep, count_append_sep]
        omega
  · exact absurd (laterAge_of_shorter hg hn' hrest) hlater

/-! ### A person without attributes -/

theorem length_rcolumns (t : Text) : (rcolumns t).length = t.count '|' + 1 := by
  rw [rcolumns, List.length_reverse]
  induction t with
  | nil => rfl
  | cons c t ih =>
    rw [List.splitOn_cons_eq_if_modifyHead]
    split
    · rename_i hc
      rw [List.length_cons, ih, eq_of_beq hc, List.count_cons_self]
    · rename_i hc
      rw [List.length_modifyHead, ih, List.count_cons_of_ne (by simpa using hc)]

theorem rcolumns_empty (front : Text) (emb : List F) (tr : Option (NvDs3DTracking F)) :
    rcolumns (front ++ (prefixed '|' (List.replicate 6 []) ++ N.tail emb tr)) =
      rtail N [] emb tr ++ (List.replicate 5 [] ++ rcolumns front) := by
  have hfront : front ++ (prefixed '|' (List.replicate 6 []) ++ N.tail emb tr) =
      (front ++ prefixed '|' (List.replicate 5 [])) ++ '|' :: ([] ++ N.tail emb tr) := by simp [List.replicate]
  rw [hfront, rcolumns_append_tail N List.not_mem_nil, rcolumns_prefixed (by simp)]
  rfl

theorem IsAge.ne_of_mem {n t : Text} (h : IsAge n) (ht : t = [] ∨ ∃ c ∈ t, c.isDigit = false) : n ≠ t := by
  obtain ⟨age, rfl⟩ := h
  rintro rfl
  rcases ht with hnil | ⟨c, hc, hdigit⟩
  · exact (isNumber_digits _).ne_nil hnil
  · exact notMem_digits hdigit _ hc

theorem IsAge.ne_point {n : Text} (h : IsAge n) (p : F × F) : n ≠ N.point p :=
  h.ne_of_mem (.inr ⟨',', comma_mem_point N p, rfl⟩)

/-- The text of two or more numbers has a comma. -/
theorem IsAge.single {x : F} {xs : List F} (h : IsAge (N.embeddingText (x :: xs))) : xs = [] := by
  cases xs with
  | nil => rfl
  | cons y ys =>
    refine absurd rfl (h.ne_of_mem (.inr ⟨',', ?_, rfl⟩))
    rw [Formats.embeddingText, List.map_cons, List.map_cons, List.intercalate_cons_cons]
    simp

/-- Among the six empty attributes and what is behind them, three parts before the end there is only the number of
an embedding, before the tracking. -/
theorem age_of_empty {g n v : Text} {emb : List F} {tr : Option (NvDs3DTracking F)} (hn : IsAge n)
    (hv : 2 ≤ v.count '|')
    (h : prefixed '|' (List.replicate 6 []) ++ N.tail emb tr = '|' :: (g ++ '|' :: (n ++ '|' :: v))) :
    (∃ x, emb = [x] ∧ n = N.streamFloat x ∧ tr ≠ none) ∧ v.count '|' ≠ 2 := by
  have hcolumns : rcolumns v ++ n :: (rcolumns g ++ [[]]) = rtail N [] emb tr ++ List.replicate 6 [] := by
    have hempty := rcolumns_empty (N := N) [] emb tr
    rw [List.nil_append, h, ← List.nil_append ('|' :: _), rcolumns_append, rcolumns_append, rcolumns_append,
      rcolumns_of_notMem hn.bar] at hempty
    simpa [rcolumns_of_notMem] using hempty
  have hlen := length_rcolumns v
  have hthree : 3 ≤ (rcolumns v).length := by omega
  obtain ⟨a, b, c, l, hl⟩ : ∃ a b c l, rcolumns v = a :: b :: c :: l := by
    match rcolumns v, hthree with
    | a :: b :: c :: l, _ => exact ⟨a, b, c, l, rfl⟩
  have hcount : v.count '|' = 2 ↔ l = [] := by
    rw [hl] at hlen
    rw [← List.length_eq_zero_iff]
    simp at hlen
    omega
  rw [hl] at hcolumns
  have hmem : n ∈ (rtail N [] emb tr ++ List.replicate 6 []).drop 3 := by
    rw [← hcolumns]
    simp
  have hnil : n ≠ [] := hn.ne_of_mem (.inl rfl)
  have hhash : n ≠ ['#'] := hn.ne_of_mem (.inr ⟨'#', by simp, rfl⟩)
  have hword : n ≠ "embedding".toList := hn.ne_of_mem (.inr ⟨'e', by decide, rfl⟩)
  have hsv3dt : n ≠ "SV3DT".toList := hn.ne_of_mem (.inr ⟨'S', by decide, rfl⟩)
  have hpoint := fun p => hn.ne_point (N := N) p
  have hfloat := fun x => hn.ne_of_mem (.inr (N.not_digits_toStringFloat x))
  rcases emb with _ | ⟨x, xs⟩ <;> rcases tr with _ | t <;>
    simp [rtail, List.replicate, hnil, hhash, hword, hsv3dt, hpoint, hfloat, -String.reduceToList] at hmem
  obtain rfl := (hmem ▸ hn).single
  refine ⟨⟨x, rfl, by simpa [Formats.embeddingText] using hmem, Option.some_ne_none t⟩, fun htwo => ?_⟩
  rw [hcount.mp htwo] at hcolumns
  simp [rtail, hpoint] at hcolumns

/-! ### Other objects by their types -/

/-- The other object is of the same type, and its parts are written in the same way. -/
structure SameShape (N : Formats F D) (e' e : NvDsEventMsgMeta F D) : Prop where
  objType : e'.objType = e.objType
  typeName : e'.typeName = e.typeName
  confidence : N.streamDouble e'.confidence = N.streamDouble e.confidence
  secondary : e'.secondary = e.secondary
  pose : e'.writtenPose.join = e.writtenPose.join
  embedding : N.embeddingParts e'.embedding = N.embeddingParts e.embedding
  tracking : N.tracking e'.singleView3DTracking = N.tracking e.singleView3DTracking

def attributeCount : NvDsObjectType → ℕ
  | .vehicle | .vehicleExt => 6
  | .person | .personExt => 5
  | .face | .faceExt => 9
  | .product | .productExt => 3
  | _ => 0

theorem length_attributes : ∀ (type : NvDsObjectType) (o : ExtMsg D type) (parts : List Text),
    attributes type o = some parts → parts.length = attributeCount type ∧ 3 ≤ attributeCount type
  | .vehicle, _, _, h | .vehicleExt, _, _, h | .person, _, _, h | .personExt, _, _, h | .face, _, _, h
  | .faceExt, _, _, h | .product, _, _, h | .productExt, _, _, h => by
    cases h
    exact ⟨rfl, by decide⟩

theorem person_attributes {type : NvDsObjectType} {o : ExtMsg D type} {parts : List Text} (htype : type = .person)
    (h : attributes type o = some parts) : ∃ g n hair cap apparel, parts = [g, n, hair, cap, apparel] ∧ IsAge n := by
  subst htype
  cases h
  exact ⟨_, _, _, _, _, rfl, _, rfl⟩

theorem face_attributes {type : NvDsObjectType} {o : ExtMsg D type} {parts : List Text} (htype : type = .face)
    (h : attributes type o = some parts) :
    ∃ g n hair cap glasses facialhair name eyes,
      parts = [g, n, hair, cap, glasses, facialhair, name, [], eyes] ∧ IsAge n := by
  subst htype
  cases h
  exact ⟨_, _, _, _, _, _, _, _, rfl, _, rfl⟩

theorem exists_ext {parts : List Text} (h : e.secondary = some parts) :
    ∃ o : ExtMsg D e.objType, attributes e.objType o = some parts := by
  obtain ⟨o, -, ho⟩ := Option.bind_eq_some_iff.mp h
  exact ⟨o, ho⟩

theorem pose_of_no_attributes (h : e.secondary = none) : e.writtenPose = some none := by
  obtain ⟨type, bbox, sensorId, frameId, confidence, trackingId, ts, objectId, sensorStr, ext⟩ := e
  cases ext with
  | none => exact if_neg fun hp => absurd hp.2 (by simp)
  | some o =>
    refine writtenPose_of_ne ?_
    rintro rfl
    cases h

theorem attributeParts_of_mask (h : e.objectMask ≠ []) : attributeParts e ≠ [] := by
  obtain ⟨type, bbox, sensorId, frameId, confidence, trackingId, ts, objectId, sensorStr, ext⟩ := e
  cases ext with
  | none => exact absurd rfl h
  | some o => cases type <;> first | exact List.cons_ne_nil _ _ | exact absurd rfl h

theorem objectMask_nil_iff (h : maskString N e' = maskString N e) : e'.objectMask = [] ↔ e.objectMask = [] := by
  have hnone : ∀ e : NvDsEventMsgMeta F D, maskString N e = none ↔ e.objectMask = [] := by
    intro e
    unfold maskString
    split
    · rename_i hmask
      exact iff_of_true rfl (List.isEmpty_iff.mp hmask)
    · rename_i hmask
      exact iff_of_false (Option.some_ne_none _) fun hnil => hmask (List.isEmpty_iff.mpr hnil)
  rw [← hnone, h, hnone]

/-- What the string of an object with clear attributes says of another one. -/
theorem with_attributes {parts : List Text} (hsecondary : e.secondary = some parts) (htype : e.objType ≠ .unknown)
    (hemb : e.embedding = []) (htr : e.singleView3DTracking = none)
    (hends : e.objectMask = [] → ¬EndsInConfidence N (N.streamDouble e.confidence ++ prefixed '|' (attributeParts e)))
    (hmask : maskString N e' = maskString N e) (hpose' : e'.writtenPose = some pose')
    (hbody : e'.typeName ++ '|' :: after N e' pose' = e.typeName ++ '|' :: after N e none) :
    ∃ parts', (e'.secondary = some parts' ∨ e'.secondary = none ∧ e'.objType = .person ∧ parts' = List.replicate 6 []) ∧
      e'.objType ≠ .unknown ∧ e'.typeName = e.typeName ∧ N.streamDouble e'.confidence = N.streamDouble e.confidence ∧
        prefixed '|' parts' ++ (prefixed '|' (N.poseParts pose') ++ N.tail e'.embedding e'.singleView3DTracking) =
          prefixed '|' parts := by
  have hparts := attributeParts_of_secondary hsecondary
  have hne : attributeParts e' ≠ [] := by
    by_cases hnil : e.objectMask = []
    · refine known_of_notEnds htype ?_ hpose' hbody
      rw [after, hemb, htr, tail_nil, Formats.poseParts, List.append_nil, List.append_nil]
      exact hends hnil
    · exact attributeParts_of_mask fun h => hnil ((objectMask_nil_iff hmask).mp h)
  obtain ⟨parts', hcases, hparts'⟩ := exists_attributeParts hne
  obtain ⟨htype', hname, hconfidence, hrest⟩ := parts_eq htype hne hbody hparts hparts'
  refine ⟨parts', hcases, htype', hname, hconfidence, hrest.trans ?_⟩
  rw [hemb, htr, tail_nil, Formats.poseParts, prefixed_nil, List.append_nil, List.append_nil]

theorem SameShape.of_parts {parts parts' : List Text} (htype : e'.objType = e.objType) (hname : e'.typeName = e.typeName)
    (hconfidence : N.streamDouble e'.confidence = N.streamDouble e.confidence) (hs' : e'.secondary = some parts')
    (hs : e.secondary = some parts) (hpose : e.writtenPose = some none) (hpose' : e'.writtenPose = some pose')
    (hemb : e.embedding = []) (htr : e.singleView3DTracking = none)
    (h : parts' = parts ∧ pose' = none ∧ e'.embedding = [] ∧ e'.singleView3DTracking = none) : SameShape N e' e where
  objType := htype
  typeName := hname
  confidence := hconfidence
  secondary := by rw [hs', hs, h.1]
  pose := by rw [hpose, hpose', h.2.1]
  embedding := by rw [h.2.2.1, hemb]
  tracking := by rw [h.2.2.2, htr]

/-- Objects whose attributes have no separators, when all objects of their name have as many. -/
theorem shape_of_free {parts : List Text} (hsecondary : e.secondary = some parts) (htype : e.objType ≠ .unknown)
    (hperson : e.objType ≠ .person) (hbars : NoBars parts) (hpose : e.writtenPose = some none) (hemb : e.embedding = []) (htr : e.singleView3DTracking = none)
    (hends : e.objectMask = [] → ¬EndsInConfidence N (N.streamDouble e.confidence ++ prefixed '|' (attributeParts e)))
    (hsame : ∀ type, type ≠ .unknown → objectEnumToStr type none = objectEnumToStr e.objType none →
      type = e.objType ∨ type ≠ .person ∧ (parts.length < attributeCount type ∨ attributeCount type = 0))
    (hmask : maskString N e' = maskString N e) (hpose' : e'.writtenPose = some pose')
    (hbody : e'.typeName ++ '|' :: after N e' pose' = e.typeName ++ '|' :: after N e none) : SameShape N e' e := by
  obtain ⟨parts', hcases, htype', hname, hconfidence, hrest⟩ :=
    with_attributes hsecondary htype hemb htr hends hmask hpose' hbody
  have hlen' : parts'.length ≤ parts.length := by
    have hcount := congrArg (List.count '|') hrest
    rw [List.count_append, count_prefixed_eq_length_iff.mpr hbars] at hcount
    have hle : parts'.length ≤ (prefixed '|' parts').count '|' := length_le_count_prefixed _
    omega
  have hname' : objectEnumToStr e'.objType none = objectEnumToStr e.objType none := by
    rw [← objectEnumToStr_of_ne htype' e'.objectId, ← objectEnumToStr_of_ne htype e.objectId]
    exact hname
  obtain ⟨o, ho⟩ := exists_ext hsecondary
  obtain ⟨hlen, hthree⟩ := length_attributes _ _ _ ho
  have hne : parts ≠ [] := List.length_pos_iff.mp (by omega)
  rcases hcases with hs' | ⟨-, hperson', -⟩
  · obtain ⟨o', ho'⟩ := exists_ext hs'
    obtain ⟨hlen'', hthree'⟩ := length_attributes _ _ _ ho'
    rcases hsame _ htype' hname' with hobj | ⟨-, hlt | hzero⟩
    · exact .of_parts hobj hname hconfidence hs' hsecondary hpose hpose' hemb htr
        (free_eq hbars (by rw [hlen, hlen'', hobj]) hne hrest)
    · omega
    · omega
  · rcases hsame _ htype' hname' with hobj | ⟨hne', -⟩
    · exact absurd (hobj.symm.trans hperson') hperson
    · exact absurd hperson' hne'

theorem shape_person {o : NvDsPersonObject} (hclear : ShapeClear N (e.typed .person (some o)) .person (some o))
    (hmask : maskString N e' = maskString N (e.typed .person (some o))) (hpose' : e'.writtenPose = some pose')
    (hbody : e'.typeName ++ '|' :: after N e' pose' =
      (e.typed .person (some o)).typeName ++ '|' :: after N (e.typed .person (some o)) none) :
    SameShape N e' (e.typed .person (some o)) := by
  obtain ⟨⟨hlater, hbars⟩, hpose, hemb, htr, hends⟩ := hclear
  have hs : (e.typed .person (some o)).secondary =
    some [toStr o.gender, digits o.age.toNat, toStr o.hair, toStr o.cap, toStr o.apparel] := rfl
  obtain ⟨parts', hcases, htype', hname, hconfidence, hrest⟩ := with_attributes hs nofun hemb htr hends hmask hpose' hbody
  have hobj : e'.objType = .person := by
    refine type_of_name (by decide) htype' ?_ (by decide)
    rw [← objectEnumToStr_of_ne htype' e'.objectId]
    exact hname
  obtain ⟨hhair, hcap, happarel, -⟩ : '|' ∉ toStr o.hair ∧ '|' ∉ toStr o.cap ∧ '|' ∉ toStr o.apparel ∧ True := by
    simpa [NoBars] using hbars
  have hcount : (toStr o.hair ++ '|' :: (toStr o.cap ++ '|' :: toStr o.apparel)).count '|' = 2 := by
    simp [List.count_eq_zero_of_not_mem, hhair, hcap, happarel]
  rcases hcases with hs' | ⟨hs', -, rfl⟩
  · obtain ⟨o', ho'⟩ := exists_ext hs'
    obtain ⟨g, n, hair, cap, apparel, rfl, hn⟩ := person_attributes hobj ho'
    have heq : g ++ '|' :: (n ++ '|' :: (hair ++ '|' :: (cap ++ '|' ::
        (apparel ++ (prefixed '|' (N.poseParts pose') ++ N.tail e'.embedding e'.singleView3DTracking))))) =
        toStr o.gender ++ '|' :: (digits o.age.toNat ++ '|' ::
          (toStr o.hair ++ '|' :: (toStr o.cap ++ '|' :: toStr o.apparel))) := by simpa using hrest
    obtain ⟨rfl, rfl, hv⟩ := person_eq hlater ⟨o.age, rfl⟩ hn
      (by rw [hcount, count_append_sep, count_append_sep]; omega) heq
    have hback : prefixed '|' [hair, cap, apparel] ++ (prefixed '|' (N.poseParts pose') ++
        N.tail e'.embedding e'.singleView3DTracking) = prefixed '|' [toStr o.hair, toStr o.cap, toStr o.apparel] := by
      simpa using hv
    obtain ⟨hparts, hnothing⟩ := free_eq hbars (Eq.refl 3) (List.cons_ne_nil _ _) hback
    exact .of_parts hobj hname hconfidence hs' hs hpose hpose' hemb htr ⟨by rw [hparts], hnothing⟩
  · -- six empty attributes have no age
    have hnone := pose_of_no_attributes hs'
    rw [hpose'] at hnone
    cases hnone
    exact absurd hcount (age_of_empty ⟨o.age, rfl⟩ (Nat.le_of_eq hcount.symm) (by simpa [Formats.poseParts] using hrest)).2

theorem shape_face {o : NvDsFaceObject} (hclear : ShapeClear N (e.typed .face (some o)) .face (some o))
    (hmask : maskString N e' = maskString N (e.typed .face (some o))) (hpose' : e'.writtenPose = some pose')
    (hbody : e'.typeName ++ '|' :: after N e' pose' =
      (e.typed .face (some o)).typeName ++ '|' :: after N (e.typed .face (some o)) none) :
    SameShape N e' (e.typed .face (some o)) := by
  obtain ⟨⟨hlater, hbars, heyes⟩, hpose, hemb, htr, hends⟩ := hclear
  have hs : (e.typed .face (some o)).secondary = some [toStr o.gender, digits o.age.toNat, toStr o.hair, toStr o.cap,
      toStr o.glasses, toStr o.facialhair, toStr o.name, [], toStr o.eyecolor] := rfl
  obtain ⟨parts', hcases, htype', hname, hconfidence, hrest⟩ := with_attributes hs nofun hemb htr hends hmask hpose' hbody
  have hobj : e'.objType = .face := by
    refine type_of_name (by decide) htype' ?_ (by decide)
    rw [← objectEnumToStr_of_ne htype' e'.objectId]
    exact hname
  have hnone : pose' = none := by
    rw [writtenPose_of_ne (by rw [hobj]; decide)] at hpose'
    exact (Option.some.inj hpose').symm
  subst hnone
  rcases hcases with hs' | ⟨-, hperson, -⟩
  · obtain ⟨o', ho'⟩ := exists_ext hs'
    obtain ⟨g, n, hair, cap, glasses, facialhair, name, eyes, rfl, hn⟩ := face_attributes hobj ho'
    have heq : g ++ '|' :: (n ++ '|' :: ((hair ++ '|' :: (cap ++ '|' :: (glasses ++ '|' :: (facialhair ++ '|' :: name)))) ++
        '|' :: '|' :: (eyes ++ N.tail e'.embedding e'.singleView3DTracking))) =
        toStr o.gender ++ '|' :: (digits o.age.toNat ++ '|' :: ((toStr o.hair ++ '|' :: (toStr o.cap ++ '|' ::
          (toStr o.glasses ++ '|' :: (toStr o.facialhair ++ '|' :: toStr o.name)))) ++ '|' :: '|' :: toStr o.eyecolor)) := by
      simpa [Formats.poseParts] using hrest
    have hcount : (toStr o.hair ++ '|' :: (toStr o.cap ++ '|' :: (toStr o.glasses ++ '|' ::
        (toStr o.facialhair ++ '|' :: toStr o.name)))).count '|' = 4 := by
      have h5 := count_prefixed_eq_length_iff.mpr hbars
      simp only [prefixed_cons, prefixed_nil, List.append_nil, List.cons_append, List.count_cons_self, List.length_cons,
        List.length_nil] at h5
      simpa using h5
    obtain ⟨rfl, rfl, hw, hz⟩ := face_eq hlater ⟨o.age, rfl⟩ hn heyes hcount
      (by simp only [count_append_sep]; omega) heq
    have hprefixed : prefixed '|' [toStr o.hair, toStr o.cap, toStr o.glasses, toStr o.facialhair, toStr o.name] =
        prefixed '|' [hair, cap, glasses, facialhair, name] := by simpa using hw.symm
    have hmiddle := (prefixed_inj (Eq.refl 5) hbars hprefixed).symm
    obtain ⟨hemb', htr'⟩ := heyes.tail eyes _ _ hz.symm
    rw [hemb', htr', tail_nil, List.append_nil] at hz
    refine .of_parts hobj hname hconfidence hs' hs hpose hpose' hemb htr ⟨?_, rfl, hemb', htr'⟩
    simp only [List.cons.injEq, and_true] at hmiddle ⊢
    exact ⟨trivial, trivial, hmiddle.1, hmiddle.2.1, hmiddle.2.2.1, hmiddle.2.2.2.1, hmiddle.2.2.2.2, trivial, hz⟩
  · cases hobj.symm.trans hperson

/-- What is written behind a number is found again. -/
theorem tail_inj {emb emb' : List F} {tr tr' : Option (NvDs3DTracking F)} (h : N.tail emb' tr' = N.tail emb tr) :
    N.embeddingParts emb' = N.embeddingParts emb ∧ N.tracking tr' = N.tracking tr := by
  have hzero : rcolumns (['0'] ++ N.tail emb' tr') = rcolumns (['0'] ++ N.tail emb tr) := by rw [h]
  rw [rcolumns_tail N (by decide), rcolumns_tail N (by decide)] at hzero
  have hnil : rtail N ['0'] emb' tr' ++ [] = rtail N ['0'] emb tr ++ [] := by rw [hzero]
  obtain ⟨-, hemb, htr, -⟩ := rtail_inj N (List.cons_ne_nil _ _) (List.cons_ne_nil _ _) hnil
  exact ⟨hemb, htr⟩

/-- The six empty attributes leave no number at the end. -/
theorem notEnds_of_empty {confidence : D} {emb : List F} {tr : Option (NvDs3DTracking F)} :
    ¬EndsInConfidence N (N.streamDouble confidence ++ '|' :: '#' :: (prefixed '|' (List.replicate 6 []) ++ N.tail emb tr)) := by
  rintro ⟨front, c, emb', tr', hfront, h⟩
  have hnumber := N.isNumber_streamDouble c
  have hempty := rcolumns_empty (N := N) (N.streamDouble confidence ++ '|' :: ['#']) emb tr
  have happ : N.streamDouble confidence ++ '|' :: ['#'] ++ (prefixed '|' (List.replicate 6 []) ++ N.tail emb tr) =
      N.streamDouble confidence ++ '|' :: '#' :: (prefixed '|' (List.replicate 6 []) ++ N.tail emb tr) := by simp
  rw [happ, h] at hempty
  rcases hfront with rfl | ⟨p, rfl⟩
  · rw [List.nil_append, rcolumns_tail N hnumber.bar] at hempty
    exact rtail_ne N hnumber.ne_nil (hempty.symm.trans (List.append_nil _).symm)
  · rw [List.append_assoc, List.singleton_append, rcolumns_append_tail N hnumber.bar] at hempty
    exact rtail_ne N hnumber.ne_nil hempty.symm

theorem shape_person_none (hclear : ShapeClear N (e.typed .person none) .person none) (hpose' : e'.writtenPose = some pose')
    (hbody : e'.typeName ++ '|' :: after N e' pose' =
      (e.typed .person none).typeName ++ '|' :: after N (e.typed .person none) none) :
    SameShape N e' (e.typed .person none) := by
  have hparts : attributeParts (e.typed .person none) = "#".toList :: List.replicate 6 [] := rfl
  have htype : (e.typed .person none).objType ≠ .unknown := nofun
  have hne : attributeParts e' ≠ [] := by
    refine known_of_notEnds htype ?_ hpose' hbody
    rw [after, hparts]
    simpa [Formats.poseParts] using notEnds_of_empty
  obtain ⟨parts', hcases, hparts'⟩ := exists_attributeParts hne
  obtain ⟨htype', hname, hconfidence, hrest⟩ := parts_eq htype hne hbody hparts hparts'
  have hobj : e'.objType = .person := by
    refine type_of_name (by decide) htype' ?_ (by decide)
    rw [← objectEnumToStr_of_ne htype' e'.objectId]
    exact hname
  rcases hcases with hs' | ⟨hs', -, rfl⟩
  · obtain ⟨o', ho'⟩ := exists_ext hs'
    obtain ⟨g, n, hair, cap, apparel, rfl, hn⟩ := person_attributes hobj ho'
    have hempty : prefixed '|' (List.replicate 6 []) ++
        N.tail (e.typed .person none).embedding (e.typed .person none).singleView3DTracking =
        '|' :: (g ++ '|' :: (n ++ '|' :: (hair ++ '|' :: (cap ++ '|' ::
          (apparel ++ (prefixed '|' (N.poseParts pose') ++ N.tail e'.embedding e'.singleView3DTracking)))))) := by
      simpa [Formats.poseParts] using hrest.symm
    obtain ⟨⟨x, hx, hage, htr⟩, -⟩ := age_of_empty hn (by simp only [count_append_sep]; omega) hempty
    exact absurd (hclear x hx (hage ▸ hn)) htr
  · have hnone := pose_of_no_attributes hs'
    rw [hpose'] at hnone
    cases hnone
    obtain ⟨hemb, htr⟩ := tail_inj (List.append_cancel_left hrest)
    exact {
      objType := hobj
      typeName := hname
      confidence := hconfidence
      secondary := hs'
      pose := by rw [hpose', pose_of_no_attributes rfl]
      embedding := hemb
      tracking := htr }

theorem name_of_masked {type : NvDsObjectType} (hvehicle : type ≠ .vehicle) (hperson : type ≠ .person)
    (hface : type ≠ .face) (hcount : 3 ≤ attributeCount type) :
    objectEnumToStr type none = "Product".toList ∨ objectEnumToStr type none = "Unknown".toList := by
  revert hvehicle hperson hface hcount
  cases type <;> decide

/-- What is written of an object with attributes spells a type, a confidence and attributes. -/
theorem spells_of_secondary {parts : List Text} (htype : e.objType ≠ .unknown) (hs : e.secondary = some parts) :
    SpellsAttributes N (e.typeName ++ '|' :: after N e pose) := by
  obtain ⟨o, ho⟩ := exists_ext hs
  obtain ⟨hlen, hthree⟩ := length_attributes _ _ _ ho
  have hname : e.typeName = objectEnumToStr e.objType none := objectEnumToStr_of_ne htype _
  obtain ⟨p, ps, rfl⟩ := List.exists_cons_of_ne_nil (List.length_pos_iff.mp (by omega : 0 < parts.length))
  let behind := prefixed '|' (N.poseParts pose) ++ N.tail e.embedding e.singleView3DTracking
  refine ⟨e.typeName, e.confidence, p ++ (prefixed '|' ps ++ behind), ?_, ?_⟩
  · rw [after, attributeParts_of_secondary hs]
    simp [prefixed_append, behind]
  by_cases hperson : e.objType = .person
  · obtain ⟨g, n, hair, cap, apparel, hparts, hn⟩ := person_attributes hperson ho
    cases hparts
    refine .inr (.inl ⟨by rw [hname, hperson]; rfl, p, n, hair ++ '|' :: (cap ++ '|' :: (apparel ++ behind)), by simp, hn, ?_⟩)
    simp only [count_append_sep]
    omega
  by_cases hface : e.objType = .face
  · obtain ⟨g, n, hair, cap, glasses, facialhair, name, eyes, hparts, hn⟩ := face_attributes hface ho
    cases hparts
    refine .inr (.inr (.inl ⟨by rw [hname, hface]; rfl, p, n,
      hair ++ '|' :: (cap ++ '|' :: (glasses ++ '|' :: (facialhair ++ '|' :: name))), eyes ++ behind, by simp, hn, ?_⟩))
    simp only [count_append_sep]
    omega
  have hcount : attributeCount e.objType ≤ (p ++ (prefixed '|' ps ++ behind)).count '|' + 1 := by
    have hle : (p :: ps).length ≤ (prefixed '|' (p :: ps)).count '|' := length_le_count_prefixed _
    rw [prefixed_cons, List.cons_append, List.count_cons_self, List.count_append] at hle
    rw [List.count_append, List.count_append]
    omega
  by_cases hvehicle : e.objType = .vehicle
  · rw [hvehicle, attributeCount] at hcount
    exact .inl ⟨by rw [hname, hvehicle]; rfl, by omega⟩
  · refine .inr (.inr (.inr ⟨?_, by omega⟩))
    rw [hname]
    exact name_of_masked hvehicle hperson hface hthree

theorem shape_unknown {ext : Option (ExtMsg D .unknown)} (hclear : ShapeClear N (e.typed .unknown ext) .unknown ext)
    (hpose' : e'.writtenPose = some pose')
    (hbody : e'.typeName ++ '|' :: after N e' pose' =
      (e.typed .unknown ext).typeName ++ '|' :: after N (e.typed .unknown ext) none) :
    SameShape N e' (e.typed .unknown ext) := by
  obtain ⟨hname, hspells⟩ := hclear
  obtain ⟨hs, -⟩ := objectMask_unknown e ext
  have hpose : (e.typed .unknown ext).writtenPose = some none := pose_of_no_attributes hs
  rw [after_of_plain (attributeParts_of_plain (by decide : NvDsObjectType.unknown ≠ .person) hs) hpose] at hbody
  have hnumber := N.isNumber_streamDouble
  rcases attributeParts_cases e' with ⟨parts', hs', -⟩ | ⟨hs', hperson, hparts'⟩ | ⟨hs', hperson, hparts'⟩
  · refine absurd (hbody ▸ spells_of_secondary (fun hunknown => ?_) hs') hspells
    cases (secondary_of_unknown hunknown).symm.trans hs'
  · have hnone := pose_of_no_attributes hs'
    rw [hpose'] at hnone
    cases hnone
    have happ : e'.typeName ++ '|' :: after N e' none = (e'.typeName ++ '|' :: (N.streamDouble e'.confidence ++ '|' :: ['#'])) ++
        (prefixed '|' (List.replicate 6 []) ++ N.tail e'.embedding e'.singleView3DTracking) := by
      rw [after, hparts']
      simp [Formats.poseParts]
    have hcolumns := congrArg rcolumns (happ.symm.trans hbody)
    rw [rcolumns_empty, rcolumns_append_tail N (hnumber _).bar] at hcolumns
    exact absurd hcolumns (rtail_ne N (hnumber _).ne_nil)
  · rw [after_of_plain hparts' hpose'] at hbody
    have hcolumns := congrArg rcolumns hbody
    rw [rcolumns_append_tail N (hnumber _).bar, rcolumns_append_tail N (hnumber _).bar] at hcolumns
    obtain ⟨hconfidence, hemb, htr, hnames⟩ := rtail_inj N (hnumber _).ne_nil (hnumber _).ne_nil hcolumns
    have hsame := rcolumns_inj hnames
    have hobj : e'.objType = .unknown := by
      by_contra hunknown
      exact hname (hsame ▸ mem_plainNames hunknown hperson e'.objectId)
    exact {
      objType := hobj
      typeName := hsame
      confidence := hconfidence
      secondary := hs'.trans hs.symm
      pose := by rw [hpose, pose_of_no_attributes hs']
      embedding := hemb
      tracking := htr }

/-! ### The objects that can be split -/

/-- The other types of the name `Unknown` have more attributes than a product, or none. -/
theorem more_of_unknown (type : NvDsObjectType) (hne : type ≠ .unknown)
    (hname : objectEnumToStr type none = objectEnumToStr .productExt none) :
    type = .productExt ∨ type ≠ .person ∧ (3 < attributeCount type ∨ attributeCount type = 0) := by
  revert hne hname
  cases type <;> decide

theorem shape_eq : ∀ (type : NvDsObjectType) (ext : Option (ExtMsg D type)), ShapeClear N (e.typed type ext) type ext →
    maskString N e' = maskString N (e.typed type ext) → e'.writtenPose = some pose' →
    e'.typeName ++ '|' :: after N e' pose' = (e.typed type ext).typeName ++ '|' :: after N (e.typed type ext) none →
    SameShape N e' (e.typed type ext)
  | .unknown, _, hclear, _, hpose', hbody => shape_unknown hclear hpose' hbody
  | .person, none, hclear, _, hpose', hbody => shape_person_none hclear hpose' hbody
  | .person, some _, hclear, hmask, hpose', hbody => shape_person hclear hmask hpose' hbody
  | .face, some _, hclear, hmask, hpose', hbody => shape_face hclear hmask hpose' hbody
  | .vehicle, some _, ⟨hbars, hpose, hemb, htr, hends⟩, hmask, hpose', hbody =>
    shape_of_free rfl nofun nofun hbars hpose hemb htr hends
      (fun _ hne hname => .inl (type_of_name (by decide : NvDsObjectType.vehicle ≠ .unknown) hne hname (by decide))) hmask hpose' hbody
  | .product, some _, ⟨hbars, hpose, hemb, htr, hends⟩, hmask, hpose', hbody =>
    shape_of_free rfl nofun nofun hbars hpose hemb htr hends
      (fun _ hne hname => .inl (type_of_name (by decide : NvDsObjectType.product ≠ .unknown) hne hname (by decide))) hmask hpose' hbody
  | .productExt, some _, ⟨⟨hbars, _⟩, hpose, hemb, htr, hends⟩, hmask, hpose', hbody =>
    shape_of_free rfl nofun nofun hbars hpose hemb htr hends more_of_unknown hmask hpose' hbody

theorem ShapeClear.writtenPose : ∀ (type : NvDsObjectType) (ext : Option (ExtMsg D type)),
    ShapeClear N (e.typed type ext) type ext → (e.typed type ext).writtenPose = some none
  | .unknown, _, _ => writtenPose_of_ne nofun
  | .person, none, _ => pose_of_no_attributes rfl
  | .person, some _, h | .face, some _, h | .vehicle, some _, h | .product, some _, h | .productExt, some _, h => h.2.1

theorem ShapeClear.mask : ∀ (type : NvDsObjectType) (ext : Option (ExtMsg D type)),
    ShapeClear N (e.typed type ext) type ext →
    ∀ polygon ∈ (e.typed type ext).objectMask, ∀ x ∈ polygon, Exact N.streamDouble x
  | .productExt, some _, h => h.1.2
  | .unknown, ext, _ => by
    rw [(objectMask_unknown e ext).2]
    exact fun polygon hpolygon => absurd hpolygon List.not_mem_nil
  | .person, none, _ | .person, some _, _ | .face, some _, _ | .vehicle, some _, _ | .product, some _, _ =>
    fun polygon hpolygon => absurd hpolygon List.not_mem_nil

/-- The strings of a clear object are those of no object with other fields. -/
theorem Clear.splits (h : Clear N e) : Splits N e := by
  have hpose := ShapeClear.writtenPose e.objType e.extMsg h.shape
  have hs : objectString N e = some (digits e.trackingId.toNat ++ prefixed '|' (N.corners e.bbox) ++
      '|' :: (e.typeName ++ '|' :: after N e none)) := by
    rw [objectString_eq, show e.writtenPose = some none from hpose]
    rfl
  refine ⟨_, hs, fun e' hs' hmask => ?_⟩
  obtain ⟨pose, pose', hp, hpose', hid, hcorners, hbody⟩ := body_eq hs' hs
  cases hp.symm.trans hpose
  have hshape := shape_eq e.objType e.extMsg h.shape hmask hpose' hbody
  have hconfidence := h.numbers.confidence _ hshape.confidence
  have hemb := embedding_eq N h.numbers.embedding hshape.embedding
  have htr := tracking_eq N h.numbers.tracking hshape.tracking
  have hmasks := mask_eq N (ShapeClear.mask e.objType e.extMsg h.shape) hmask
  unfold NvDsEventMsgMeta.fields
  rw [hid, h.numbers.bbox _ hcorners, hshape.objType, hshape.typeName, hconfidence, hshape.secondary, hshape.pose, hemb, htr,
    hmasks]
  rfl

/-! ### The payload -/

/-- Numbers that are whole. -/
def wholeFormats : Formats ℕ ℕ where
  add := (· + ·)
  streamFloat := digits
  streamDouble := digits
  toStringFloat := fun n => digits n ++ ".000000".toList
  isNumber_streamFloat := isNumber_digits
  isNumber_streamDouble := isNumber_digits
  isNumber_toStringFloat := fun n => by
    have h := isNumber_digits n
    exact ⟨by simp, by simp [h.bar], by simp [h.hash], by simp [h.comma]⟩
  not_digits_toStringFloat := fun n => ⟨'.', by simp, rfl⟩

/-- A car by two makers. -/
def twoMakers : NvDsEventMsgMeta ℕ ℕ where
  objType := .vehicle
  bbox := ⟨150, 1834, 84, 65⟩
  sensorId := 0
  frameId := 12
  confidence := 1
  trackingId := 957
  ts := none
  objectId := none
  sensorStr := none
  extMsg := some (⟨some "sedan".toList, some "Alfa|Romeo".toList, some "M".toList, some "blue".toList,
    some "California".toList, some "CA 444".toList⟩ : NvDsVehicleObject)
  pose := ⟨[], 0⟩
  embedding := []
  singleView3DTracking := none

variable {Timestamp : Type} {fromString : Text → Option Timestamp} {privData : Option NvDsPayloadPriv}
  {events : List (NvDsEventMsgMeta F D)}

theorem generateEventMessageMinimal_eq_some {m : MinimalMessage}
    (h : generateEventMessageMinimal N privData events = some m) :
    events ≠ [] ∧ events.mapM (objectString N) = some m.objects := by
  obtain ⟨objects, hobjects, h⟩ := Option.bind_eq_some_iff.mp h
  obtain ⟨first, hfirst, h⟩ := Option.bind_eq_some_iff.mp h
  refine ⟨?_, ?_⟩
  · rintro rfl
    cases hfirst
  · cases h
    exact hobjects

theorem exists_minimal (hne : events ≠ []) (h : ∀ e ∈ events, Splits N e) :
    ∃ m, generateEventMessageMinimal N privData events = some m := by
  have hobjects : (events.mapM (objectString N)).isSome := isSome_mapM_iff.mpr fun e he => by
    obtain ⟨s, hs, -⟩ := h e he
    exact Option.isSome_of_eq_some hs
  obtain ⟨objects, hobjects⟩ := Option.isSome_iff_exists.mp hobjects
  obtain ⟨first, rest, rfl⟩ := List.exists_cons_of_ne_nil hne
  unfold generateEventMessageMinimal
  rw [hobjects]
  exact ⟨_, rfl⟩

theorem generateEventMessageProtobuf_objects {frame : PbFrame F D Timestamp}
    (h : generateEventMessageProtobuf N fromString privData events = some (some frame)) :
    events.mapM (pbObject N) = some frame.objects := by
  obtain ⟨first, -, h⟩ := Option.bind_eq_some_iff.mp h
  dsimp only at h
  split at h
  · obtain ⟨objects, hobjects, h⟩ := Option.map_eq_some_iff.mp h
    cases h
    exact hobjects
  · split at h
    · cases h
    · obtain ⟨objects, hobjects, h⟩ := Option.map_eq_some_iff.mp h
      cases h
      exact hobjects

/-- An object has the same id and type in both formats. -/
theorem reports {s : Text} {o : PbObject F D} (hs : objectString N e = some s) (ho : pbObject N e = some o) : Reports s o := by
  rw [objectString_eq] at hs
  obtain ⟨pose, -, rfl⟩ := Option.map_eq_some_iff.mp hs
  obtain ⟨pbpose, -, rfl⟩ := Option.map_eq_some_iff.mp ho
  refine ⟨N.corners e.bbox, after N e pose, rfl, bar_notMem_corners N _, ?_⟩
  simp only [prefixed_append, prefixed_cons, prefixed_nil, List.append_assoc, List.cons_append, List.append_nil]
  rfl

/-- The payload of a frame can be split, and has the objects of the other format, exactly when there is an object and
all objects are clear. -/
theorem objectStrings_meet_iff : Meets N fromString privData events ↔ events ≠ [] ∧ ∀ e ∈ events, Clear N e := by
  constructor
  · rintro ⟨m, hm, hsplits, -⟩
    exact ⟨(generateEventMessageMinimal_eq_some hm).1, fun e he => (hsplits e he).clear⟩
  · rintro ⟨hne, hclear⟩
    have hsplits : ∀ e ∈ events, Splits N e := fun e he => (hclear e he).splits
    obtain ⟨m, hm⟩ : ∃ m, generateEventMessageMinimal N privData events = some m := exists_minimal hne hsplits
    refine ⟨m, hm, hsplits, fun frame hframe => ?_⟩
    have hstrings := mapM_eq_some_iff.mp (generateEventMessageMinimal_eq_some hm).2
    have hobjects := mapM_eq_some_iff.mp (generateEventMessageProtobuf_objects hframe)
    refine forall₂_of_forall₂ ?_ hstrings hobjects
    exact fun _ _ _ => reports

theorem not_meets_twoMakers : ¬Meets wholeFormats (fun _ : Text => some ()) none [twoMakers] := by
  rintro ⟨m, -, hsplits, -⟩
  have hclear : Clear wholeFormats twoMakers := (hsplits twoMakers List.mem_cons_self).clear
  exact hclear.shape.1 "Alfa|Romeo".toList (by decide) (by decide)

end Minimal
end MsgConv
end DeepStream
