/-
# The `sub-batches` property

A string with `;` or `,` lists the source ids of every sub-batch, and one without lists
the sizes of the sub-batches with `:` between them. Setting the property clears what was
there and reads the string item by item; an error clears again what was read so far.
The reader of a size does not look at what is behind the number.
-/
import DeepStream.Lib.Decimal
import DeepStream.Lib.Folds
import DeepStream.Lib.Pieces
import DeepStream.Lib.Word
import Mathlib.Data.List.TakeDrop

namespace DeepStream.Tracker.SubBatches

/-- The fields of the tracker's configuration that the property sets. No number in them is negative. -/
structure TrackerConfig where
  subBatchesConfig : List (List ℕ)
  subBatchSizes : List ℕ
  dynamicSubBatching : Bool
  deriving DecidableEq, Repr

inductive SubBatchesError where
  | mixed -- "sub-batches can be configured by either using a "," and a ";" or using ":""
  | incorrect -- `SUB_BATCHES_CONFIG_ERROR`
  deriving DecidableEq, Repr

def TrackerConfig.clear (c : TrackerConfig) : TrackerConfig := { c with subBatchesConfig := [], subBatchSizes := [] }

/-- The loop over the source ids of one sub-batch. -/
def readSourceIds : ℕ → List Char → Option (List ℕ)
  | 0, _ => none
  | fuel + 1, ss =>
    if ss = [] then some []
    else
      match streamInt ss with
      | none => none
      | some (sourceID, rest) =>
        if sourceID < 0 then none
        else
          match rest with
          | [] => some [sourceID.toNat]
          | c :: rest => if c = ',' then (readSourceIds fuel rest).map (sourceID.toNat :: ·) else none

def readSubBatch (stringSourceIds : List Char) : Option (List ℕ) :=
  readSourceIds (stringSourceIds.length + 1) stringSourceIds

def readSubBatchSize (subBatchSizeString : List Char) : Option ℕ :=
  match streamInt subBatchSizeString with
  | none => none
  | some (subBatchSize, _) => if subBatchSize < 0 then none else some subBatchSize.toNat

def fillSubBatches (c : TrackerConfig) : List (List Char) → TrackerConfig × Option SubBatchesError
  | [] => (c, none)
  | stringSourceIds :: rest =>
    match readSubBatch stringSourceIds with
    | none => (c.clear, some .incorrect)
    | some subBatch =>
      fillSubBatches
        { subBatchesConfig := c.subBatchesConfig ++ [subBatch]
          subBatchSizes := c.subBatchSizes ++ [subBatch.length % 2 ^ 32]
          dynamicSubBatching := false } rest

def fillSubBatchSizes (c : TrackerConfig) : List (List Char) → TrackerConfig × Option SubBatchesError
  | [] => (c, none)
  | subBatchSizeString :: rest =>
    match readSubBatchSize subBatchSizeString with
    | none => (c.clear, some .incorrect)
    | some subBatchSize =>
      fillSubBatchSizes
        { c with
          subBatchSizes := c.subBatchSizes ++ [subBatchSize]
          dynamicSubBatching := true } rest

/-- `gst_nv_tracker_set_property`, with the error that is printed. -/
def setSubBatches (c : TrackerConfig) (str : List Char) : TrackerConfig × Option SubBatchesError :=
  if (';' ∈ str ∨ ',' ∈ str) ∧ ':' ∈ str then (c.clear, some .mixed)
  else if ';' ∈ str ∨ ',' ∈ str then fillSubBatches c.clear (pieces ';' str)
  else fillSubBatchSizes c.clear (pieces ':' str)

/-- A sub-batch as it is printed; `i` is the index that its loop ends with. -/
def printSubBatch (subBatch : List ℕ) : List Char :=
  let i := (toInt32 subBatch.length - 1).toNat
  terminated ',' ((subBatch.take i).map fun sourceID => (printed sourceID).chars) ++
    (match subBatch[i]? with
    | none => []
    | some sourceID => (printed sourceID).chars)

/-- `gst_nv_tracker_get_property`; the loops count in `int32_t`. -/
def getSubBatches (c : TrackerConfig) : List Char :=
  if c.dynamicSubBatching = false then
    terminated ';' ((c.subBatchesConfig.take (toInt32 c.subBatchesConfig.length).toNat).map printSubBatch)
  else
    terminated ':' ((c.subBatchSizes.take (toInt32 c.subBatchSizes.length).toNat).map fun n => (printed n).chars)

/-! ### What a string denotes -/

/-- Source ids with a comma between them. -/
def SubBatchText (text : List Char) (subBatch : List ℕ) : Prop :=
  ∃ items, IsPieces ',' text items ∧ List.Forall₂ IntText items subBatch

/-- The configuration that the whole string denotes. -/
structure Denotes (str : List Char) (c : TrackerConfig) : Prop where
  lists : ';' ∈ str ∨ ',' ∈ str → ':' ∉ str ∧ c.dynamicSubBatching = false ∧
    (∃ items, IsPieces ';' str items ∧ List.Forall₂ SubBatchText items c.subBatchesConfig) ∧
    c.subBatchSizes = c.subBatchesConfig.map List.length
  sizes : ¬(';' ∈ str ∨ ',' ∈ str) → (str ≠ [] → c.dynamicSubBatching = true) ∧
    (∃ items, IsPieces ':' str items ∧ List.Forall₂ IntText items c.subBatchSizes) ∧ c.subBatchesConfig = []

/-- Either the string is rejected and the feature is off, or what it denotes is stored and
survives being printed and set again. -/
def Meets (c : TrackerConfig) (str : List Char) : Prop :=
  let set := setSubBatches c str
  set.2.isSome ∧ set.1.subBatchesConfig = [] ∧ set.1.subBatchSizes = [] ∨
    set.2 = none ∧ Denotes str set.1 ∧ setSubBatches set.1 (getSubBatches set.1) = (set.1, none)

/-- Some item is no number, or there are fewer than 2^31 in every list; and a size that begins with a
number is one, unless another does not begin with one. -/
def MeetsWhen (str : List Char) : Prop :=
  if ';' ∈ str ∨ ',' ∈ str then
    ':' ∈ str ∨ (∃ group ∈ pieces ';' str, ∃ item ∈ pieces ',' group, ∀ n, ¬IntText item n) ∨
      (pieces ';' str).length < 2 ^ 31 ∧ ∀ group ∈ pieces ';' str, (pieces ',' group).length < 2 ^ 31
  else
    (∃ item ∈ pieces ':' str, ∀ (n : ℕ) (rest : List Char), streamInt item ≠ some ((n : ℤ), rest)) ∨
      (pieces ':' str).length < 2 ^ 31 ∧ ∀ item ∈ pieces ':' str, ∃ n, IntText item n

/-! ### The readers -/

/-- The number that a whole item is. -/
def readItem (item : List Char) : Option ℕ :=
  match streamInt item with
  | some (n, []) => if n < 0 then none else some n.toNat
  | _ => none

theorem readItem_eq_some {item : List Char} {n : ℕ} : readItem item = some n ↔ IntText item n := by
  rw [← streamInt_eq_iff]
  unfold readItem
  constructor
  · intro h
    split at h
    · rename_i v hv
      split at h
      · cases h
      · rename_i hneg
        rw [hv, ← Option.some.inj h, Int.toNat_of_nonneg (Int.not_lt.mp hneg)]
    · cases h
  · intro h
    rw [h]
    exact (if_neg (by omega)).trans (congrArg some (Int.toNat_natCast n))

theorem endsNumber_comma : EndsNumber ',' := ⟨by decide, by decide, by decide, by decide⟩

/-- The loop reads the items between the commas. -/
theorem readSourceIds_eq {fuel : ℕ} {ss : List Char} (h : ss.length < fuel) :
    readSourceIds fuel ss = (pieces ',' ss).mapM readItem := by
  induction fuel generalizing ss with
  | zero => exact absurd h (Nat.not_lt_zero _)
  | succ fuel ih =>
    rw [readSourceIds]
    split
    · subst ss
      rfl
    · rename_i hne
      rcases cases_sep ',' ss with hss | ⟨item, rest, hitem, rfl⟩
      · rw [pieces_of_notMem hss hne, List.mapM_cons, List.mapM_nil, readItem]
        cases hv : streamInt ss with
        | none => rfl
        | some vr =>
          obtain ⟨v, rest⟩ := vr
          obtain ⟨p, -, hp⟩ := streamInt_eq_some_append hv
          cases rest with
          | nil =>
            dsimp only
            split <;> rfl
          | cons c rest =>
            have hc : c ≠ ',' := fun hc => hss (by rw [hp, hc]; simp)
            simp [hc]
      · rw [pieces_append hitem, List.mapM_cons, streamInt_append endsNumber_comma, readItem]
        cases hv : streamInt item with
        | none => rfl
        | some vr =>
          obtain ⟨v, behind⟩ := vr
          obtain ⟨p, -, hp⟩ := streamInt_eq_some_append hv
          cases behind with
          | nil =>
            have hrest : rest.length < fuel := by
              simp only [List.length_append, List.length_cons] at h
              omega
            simp only [Option.map_some, List.nil_append, if_true, ih hrest]
            split
            · rfl
            · cases (pieces ',' rest).mapM readItem <;> rfl
          | cons c behind =>
            have hc : c ≠ ',' := fun hc => hitem (by rw [hp, hc]; simp)
            simp [hc]

theorem readSubBatch_eq (ss : List Char) : readSubBatch ss = (pieces ',' ss).mapM readItem :=
  readSourceIds_eq (Nat.lt_succ_self _)

theorem readSubBatch_eq_some {text : List Char} {subBatch : List ℕ} :
    readSubBatch text = some subBatch ↔ SubBatchText text subBatch := by
  simp only [readSubBatch_eq, mapM_eq_some_iff, readItem_eq_some, SubBatchText, ← pieces_eq_iff, exists_eq_left']

theorem readSubBatchSize_eq_some {text : List Char} {n : ℕ} :
    readSubBatchSize text = some n ↔ ∃ rest, streamInt text = some ((n : ℤ), rest) := by
  unfold readSubBatchSize
  constructor
  · intro h
    split at h
    · cases h
    · rename_i v rest hv
      split at h
      · cases h
      · rename_i hneg
        rw [hv, ← Option.some.inj h, Int.toNat_of_nonneg (Int.not_lt.mp hneg)]
        exact ⟨rest, rfl⟩
  · rintro ⟨rest, h⟩
    rw [h]
    exact (if_neg (by omega)).trans (congrArg some (Int.toNat_natCast n))

theorem readSubBatchSize_of_intText {text : List Char} {n : ℕ} (h : IntText text n) :
    readSubBatchSize text = some n :=
  readSubBatchSize_eq_some.mpr ⟨[], streamInt_eq_iff.mpr h⟩

theorem fillSubBatches_of_none {items : List (List Char)} (h : items.mapM readSubBatch = none) (c : TrackerConfig) :
    (fillSubBatches c items).2 = some .incorrect ∧ (fillSubBatches c items).1.subBatchesConfig = [] ∧
      (fillSubBatches c items).1.subBatchSizes = [] := by
  induction items generalizing c with
  | nil => cases h
  | cons item items ih =>
    rw [fillSubBatches]
    cases hitem : readSubBatch item with
    | none => exact ⟨rfl, rfl, rfl⟩
    | some subBatch =>
      rw [List.mapM_cons, hitem] at h
      refine ih ?_ _
      cases hitems : items.mapM readSubBatch with
      | none => rfl
      | some subBatches =>
        rw [hitems] at h
        cases h

theorem fillSubBatches_of_some {items : List (List Char)} {subBatches : List (List ℕ)}
    (h : items.mapM readSubBatch = some subBatches) (c : TrackerConfig) :
    fillSubBatches c items =
      (⟨c.subBatchesConfig ++ subBatches, c.subBatchSizes ++ subBatches.map (·.length % 2 ^ 32),
        c.dynamicSubBatching && items.isEmpty⟩, none) := by
  rw [mapM_eq_some_iff] at h
  induction h generalizing c with
  | nil => simp [fillSubBatches]
  | cons hitem _ ih =>
    rw [fillSubBatches, hitem]
    simp only [ih, List.append_assoc, List.singleton_append, List.map_cons, Bool.false_and, List.isEmpty_cons,
      Bool.and_false]

theorem fillSubBatchSizes_of_none {items : List (List Char)} (h : items.mapM readSubBatchSize = none)
    {c : TrackerConfig} (hc : c.subBatchesConfig = []) :
    (fillSubBatchSizes c items).2 = some .incorrect ∧ (fillSubBatchSizes c items).1.subBatchesConfig = [] ∧
      (fillSubBatchSizes c items).1.subBatchSizes = [] := by
  induction items generalizing c with
  | nil => cases h
  | cons item items ih =>
    rw [fillSubBatchSizes]
    cases hitem : readSubBatchSize item with
    | none => exact ⟨rfl, rfl, rfl⟩
    | some subBatchSize =>
      rw [List.mapM_cons, hitem] at h
      refine ih ?_ hc
      cases hitems : items.mapM readSubBatchSize with
      | none => rfl
      | some subBatchSizes =>
        rw [hitems] at h
        cases h

theorem fillSubBatchSizes_of_some {items : List (List Char)} {subBatchSizes : List ℕ}
    (h : items.mapM readSubBatchSize = some subBatchSizes) (c : TrackerConfig) :
    fillSubBatchSizes c items =
      (⟨c.subBatchesConfig, c.subBatchSizes ++ subBatchSizes, c.dynamicSubBatching || !items.isEmpty⟩, none) := by
  rw [mapM_eq_some_iff] at h
  induction h generalizing c with
  | nil => simp [fillSubBatchSizes]
  | cons hitem _ ih =>
    rw [fillSubBatchSizes, hitem]
    simp only [ih, List.append_assoc, List.singleton_append, Bool.true_or, List.isEmpty_cons, Bool.not_false,
      Bool.or_true]

/-! ### What is printed is read again -/

/-- A loop that counts to the length in an `int` sees all of a list that is not too long. -/
theorem take_toInt32_eq_self_iff {α : Type} {l : List α} : l.take (toInt32 l.length).toNat = l ↔ l.length < 2 ^ 31 := by
  rw [List.take_eq_self_iff]
  constructor
  · intro h
    have := toInt32_lt l.length
    omega
  · intro h
    rw [toInt32_of_lt h, Int.toNat_natCast]

def shownSubBatch (subBatch : List ℕ) : List ℕ := subBatch.take ((toInt32 subBatch.length - 1).toNat + 1)

theorem shownSubBatch_eq_self_iff {subBatch : List ℕ} :
    shownSubBatch subBatch = subBatch ↔ subBatch.length < 2 ^ 31 := by
  rw [shownSubBatch, List.take_eq_self_iff]
  constructor
  · intro h
    have := toInt32_lt subBatch.length
    omega
  · intro h
    rw [toInt32_of_lt h]
    omega

theorem notMem_printed {c : Char} (hc : c.isDigit = false) (n : ℕ) : c ∉ (printed n).chars := fun hmem => by
  rw [(printed n).isDigit c hmem] at hc
  cases hc

theorem notMem_terminated {c sep : Char} (hc : c ≠ sep) {ps : List (List Char)} (h : ∀ p ∈ ps, c ∉ p) :
    c ∉ terminated sep ps := by
  simp only [terminated, List.mem_flatMap, List.mem_append, List.mem_singleton, not_exists, not_and, not_or]
  exact fun p hp => ⟨h p hp, hc⟩

theorem notMem_printSubBatch {c : Char} (hdigit : c.isDigit = false) (hc : c ≠ ',') (subBatch : List ℕ) :
    c ∉ printSubBatch subBatch := by
  rw [printSubBatch, List.mem_append, not_or]
  refine ⟨notMem_terminated hc (List.forall_mem_map.mpr fun n _ => notMem_printed hdigit n), ?_⟩
  split
  · exact List.not_mem_nil
  · exact notMem_printed hdigit _

theorem pieces_printed (n : ℕ) {sep : Char} (hsep : sep.isDigit = false) :
    pieces sep (printed n).chars = [(printed n).chars] :=
  pieces_of_notMem (notMem_printed hsep n) (printed n).ne_nil

theorem mapM_readItem_printed {l : List ℕ} (h : ∀ n ∈ l, n < 2 ^ 31) :
    (l.map fun n => (printed n).chars).mapM readItem = some l := by
  rw [mapM_eq_some_iff, List.forall₂_map_left_iff, List.forall₂_same]
  exact fun n hn => readItem_eq_some.mpr (intText_printed (h n hn))

theorem readSubBatch_printSubBatch {subBatch : List ℕ} (h : ∀ n ∈ subBatch, n < 2 ^ 31) :
    readSubBatch (printSubBatch subBatch) = some (shownSubBatch subBatch) := by
  have hpieces : pieces ',' (printSubBatch subBatch) = (shownSubBatch subBatch).map fun n => (printed n).chars := by
    rw [printSubBatch, pieces_terminated_append (List.forall_mem_map.mpr fun n _ => notMem_printed (by decide) n),
      shownSubBatch, List.take_add_one, List.map_append]
    cases subBatch[(toInt32 subBatch.length - 1).toNat]? with
    | none => rfl
    | some n => exact congrArg _ (pieces_printed n (by decide))
  rw [readSubBatch_eq, hpieces]
  exact mapM_readItem_printed fun n hn => h n (List.mem_of_mem_take hn)

/-- The configuration of the sub-batches that are listed. -/
def ofSubBatches (subBatches : List (List ℕ)) : TrackerConfig :=
  ⟨subBatches, subBatches.map (·.length % 2 ^ 32), false⟩

/-- What is left of listed sub-batches that are printed and read again. -/
def shown (subBatches : List (List ℕ)) : List (List ℕ) :=
  (subBatches.take (toInt32 subBatches.length).toNat).map shownSubBatch

theorem shown_eq_self_iff {subBatches : List (List ℕ)} :
    shown subBatches = subBatches ↔ subBatches.length < 2 ^ 31 ∧ ∀ ids ∈ subBatches, ids.length < 2 ^ 31 := by
  have hmap : subBatches.map shownSubBatch = subBatches ↔ ∀ ids ∈ subBatches, ids.length < 2 ^ 31 := by
    have hid := List.map_inj_left (l := subBatches) (f := shownSubBatch) (g := id)
    simpa only [List.map_id, id, shownSubBatch_eq_self_iff] using hid
  constructor
  · intro h
    have hlen := congrArg List.length h
    rw [shown, List.length_map] at hlen
    have htake : subBatches.take (toInt32 subBatches.length).toNat = subBatches :=
      (List.take_sublist _ _).eq_of_length hlen
    rw [shown, htake] at h
    exact ⟨take_toInt32_eq_self_iff.mp htake, hmap.mp h⟩
  · rintro ⟨hlen, hids⟩
    rw [shown, take_toInt32_eq_self_iff.mpr hlen]
    exact hmap.mpr hids

theorem setSubBatches_nil (c : TrackerConfig) : setSubBatches c [] = (c.clear, none) := rfl

theorem sep_mem_terminated {sep : Char} {p : List Char} (ps : List (List Char)) : sep ∈ terminated sep (p :: ps) := by
  simp [terminated]

theorem setSubBatches_getSubBatches {subBatches : List (List ℕ)} (h : ∀ ids ∈ subBatches, ∀ n ∈ ids, n < 2 ^ 31) :
    setSubBatches (ofSubBatches subBatches) (getSubBatches (ofSubBatches subBatches)) =
      (ofSubBatches (shown subBatches), none) := by
  have hget : getSubBatches (ofSubBatches subBatches) =
      terminated ';' ((subBatches.take (toInt32 subBatches.length).toNat).map printSubBatch) := rfl
  rw [hget, shown]
  cases htake : subBatches.take (toInt32 subBatches.length).toNat with
  | nil => rfl
  | cons ids rest =>
    have hsub : ∀ ids' ∈ ids :: rest, ∀ n ∈ ids', n < 2 ^ 31 :=
      fun ids' hmem => h ids' (List.mem_of_mem_take (htake ▸ hmem))
    have hcolon : ':' ∉ terminated ';' ((ids :: rest).map printSubBatch) :=
      notMem_terminated (by decide)
        (List.forall_mem_map.mpr fun ids _ => notMem_printSubBatch (by decide) (by decide) ids)
    have hsemicolon : ';' ∈ terminated ';' ((ids :: rest).map printSubBatch) := sep_mem_terminated _
    have hread : ((ids :: rest).map printSubBatch).mapM readSubBatch = some ((ids :: rest).map shownSubBatch) := by
      rw [mapM_eq_some_iff, List.forall₂_map_left_iff, List.forall₂_map_right_iff, List.forall₂_same]
      exact fun ids' hmem => readSubBatch_printSubBatch (hsub ids' hmem)
    rw [setSubBatches, if_neg (fun hmixed => hcolon hmixed.2), if_pos (.inl hsemicolon),
      pieces_terminated (List.forall_mem_map.mpr fun ids _ => notMem_printSubBatch (by decide) (by decide) ids),
      fillSubBatches_of_some hread]
    rfl

theorem setSubBatches_getSubBatches_sizes {sizes : List ℕ} (h : ∀ n ∈ sizes, n < 2 ^ 31) :
    setSubBatches ⟨[], sizes, true⟩ (getSubBatches ⟨[], sizes, true⟩) =
      (⟨[], sizes.take (toInt32 sizes.length).toNat, true⟩, none) := by
  have hget : getSubBatches ⟨[], sizes, true⟩ =
      terminated ':' ((sizes.take (toInt32 sizes.length).toNat).map fun n => (printed n).chars) := rfl
  have hnot : ∀ c : Char, c.isDigit = false → c ≠ ':' → c ∉ getSubBatches ⟨[], sizes, true⟩ := fun c hc hne =>
    hget ▸ notMem_terminated hne (List.forall_mem_map.mpr fun n _ => notMem_printed hc n)
  have hneither : ¬(';' ∈ getSubBatches ⟨[], sizes, true⟩ ∨ ',' ∈ getSubBatches ⟨[], sizes, true⟩) :=
    not_or.mpr ⟨hnot ';' (by decide) (by decide), hnot ',' (by decide) (by decide)⟩
  have hread : ((sizes.take (toInt32 sizes.length).toNat).map fun n => (printed n).chars).mapM readSubBatchSize =
      some (sizes.take (toInt32 sizes.length).toNat) := by
    rw [mapM_eq_some_iff, List.forall₂_map_left_iff, List.forall₂_same]
    exact fun n hn => readSubBatchSize_of_intText (intText_printed (h n (List.mem_of_mem_take hn)))
  rw [setSubBatches, if_neg (fun hmixed => hneither hmixed.1), if_neg hneither, hget,
    pieces_terminated (List.forall_mem_map.mpr fun n _ => notMem_printed (by decide) n), fillSubBatchSizes_of_some hread]
  rfl

/-! ### Strings of every kind -/

theorem mapM_readSubBatch_eq_none {items : List (List Char)} : items.mapM readSubBatch = none ↔
    ∃ group ∈ items, ∃ item ∈ pieces ',' group, ∀ n, ¬IntText item n := by
  rw [mapM_eq_none_iff]
  simp only [readSubBatch_eq, mapM_eq_none_iff]
  simp only [Option.eq_none_iff_forall_ne_some, ne_eq, readItem_eq_some]

theorem mapM_readSubBatchSize_eq_none {items : List (List Char)} : items.mapM readSubBatchSize = none ↔
    ∃ item ∈ items, ∀ (n : ℕ) (rest : List Char), streamInt item ≠ some ((n : ℤ), rest) := by
  rw [mapM_eq_none_iff]
  simp only [Option.eq_none_iff_forall_ne_some, ne_eq, readSubBatchSize_eq_some, not_exists]

theorem sizes_lt {items : List (List Char)} {sizes : List ℕ} (h : List.Forall₂ IntText items sizes) :
    ∀ n ∈ sizes, n < 2 ^ 31 :=
  (forall_mem_iff_of_forall₂ h (P := fun _ => True) fun _ _ hn => iff_of_true trivial hn.lt).mp fun _ _ => trivial

theorem subBatchText_lt {text : List Char} {subBatch : List ℕ} (h : SubBatchText text subBatch) :
    ∀ n ∈ subBatch, n < 2 ^ 31 := by
  obtain ⟨items, -, hitems⟩ := h
  exact sizes_lt hitems

/-- A string of lists that is accepted. -/
theorem meets_lists {c : TrackerConfig} {str : List Char} (hlists : ';' ∈ str ∨ ',' ∈ str) (hcolon : ':' ∉ str)
    {subBatches : List (List ℕ)} (h : (pieces ';' str).mapM readSubBatch = some subBatches) :
    Meets c str ↔ (pieces ';' str).length < 2 ^ 31 ∧ ∀ group ∈ pieces ';' str, (pieces ',' group).length < 2 ^ 31 := by
  have hne : (pieces ';' str).isEmpty = false := by
    rw [List.isEmpty_eq_false_iff, ne_eq, pieces_eq_nil_iff]
    rintro rfl
    simp at hlists
  have hset : setSubBatches c str = (ofSubBatches subBatches, none) := by
    rw [setSubBatches, if_neg (fun hmixed => hcolon hmixed.2), if_pos hlists, fillSubBatches_of_some h, hne,
      Bool.and_false]
    rfl
  have htexts : List.Forall₂ SubBatchText (pieces ';' str) subBatches := by
    have := mapM_eq_some_iff.mp h
    simpa only [readSubBatch_eq_some] using this
  have hlt : ∀ ids ∈ subBatches, ∀ n ∈ ids, n < 2 ^ 31 :=
    (forall_mem_iff_of_forall₂ htexts (P := fun _ => True) fun _ _ hids => iff_of_true trivial (subBatchText_lt hids)).mp
      fun _ _ => trivial
  have hlengths : (∀ group ∈ pieces ';' str, (pieces ',' group).length < 2 ^ 31) ↔
      ∀ ids ∈ subBatches, ids.length < 2 ^ 31 := by
    refine forall_mem_iff_of_forall₂ htexts fun group ids hids => ?_
    obtain ⟨items, hpieces, hitems⟩ := hids
    rw [hpieces.eq, hitems.length_eq]
  unfold Meets
  rw [hset, hlengths, htexts.length_eq, ← shown_eq_self_iff]
  dsimp only
  rw [setSubBatches_getSubBatches hlt]
  constructor
  · rintro (⟨hnone, -⟩ | ⟨-, -, hagain⟩)
    · cases hnone
    · exact congrArg (fun r => r.1.subBatchesConfig) hagain
  · intro hshown
    have hids := (shown_eq_self_iff.mp hshown).2
    refine .inr ⟨rfl, ⟨fun _ => ⟨hcolon, rfl, ⟨_, isPieces_pieces ';' str, htexts⟩, ?_⟩,
      fun hnot => absurd hlists hnot⟩, by rw [hshown]⟩
    exact List.map_congr_left fun ids hmem => Nat.mod_eq_of_lt (by have := hids ids hmem; omega)

/-- A string of sizes that is accepted. -/
theorem meets_sizes {c : TrackerConfig} {str : List Char} (hsizes : ¬(';' ∈ str ∨ ',' ∈ str)) {sizes : List ℕ}
    (h : (pieces ':' str).mapM readSubBatchSize = some sizes) :
    Meets c str ↔ (pieces ':' str).length < 2 ^ 31 ∧ ∀ item ∈ pieces ':' str, ∃ n, IntText item n := by
  by_cases hstr : str = []
  · subst hstr
    refine iff_of_true (.inr ⟨rfl, ⟨fun hmem => absurd hmem hsizes, fun _ => ⟨fun hne => absurd rfl hne, ?_, rfl⟩⟩, ?_⟩)
      ⟨by decide, fun _ hmem => absurd hmem List.not_mem_nil⟩
    · exact ⟨[], isPieces_pieces ':' [], .nil⟩
    · cases hd : c.dynamicSubBatching <;> simp [setSubBatches_nil, getSubBatches, TrackerConfig.clear, hd, terminated]
  have hne : (pieces ':' str).isEmpty = false := by
    rwa [List.isEmpty_eq_false_iff, ne_eq, pieces_eq_nil_iff]
  have hset : setSubBatches c str = (⟨[], sizes, true⟩, none) := by
    rw [setSubBatches, if_neg (fun hmixed => hsizes hmixed.1), if_neg hsizes, fillSubBatchSizes_of_some h, hne,
      Bool.not_false, Bool.or_true]
    rfl
  have hread := mapM_eq_some_iff.mp h
  have htexts : List.Forall₂ IntText (pieces ':' str) sizes ↔ ∀ item ∈ pieces ':' str, ∃ n, IntText item n := by
    constructor
    · intro htexts
      exact (forall_mem_iff_of_forall₂ htexts (Q := fun _ => True) fun _ n hn => iff_of_true ⟨n, hn⟩ trivial).mpr
        fun _ _ => trivial
    · intro hall
      refine ((List.forall₂_and_left _ _).mpr ⟨hall, hread⟩).imp fun item n hn => ?_
      obtain ⟨⟨m, hm⟩, hn⟩ := hn
      rw [readSubBatchSize_of_intText hm] at hn
      exact Option.some.inj hn ▸ hm
  unfold Meets
  rw [hset, ← htexts, hread.length_eq, ← take_toInt32_eq_self_iff]
  dsimp only
  constructor
  · rintro (⟨hnone, -⟩ | ⟨-, hdenotes, hagain⟩)
    · cases hnone
    · obtain ⟨-, ⟨items, hitems, hints⟩, -⟩ := hdenotes.sizes hsizes
      have hints : List.Forall₂ IntText (pieces ':' str) sizes := by rwa [hitems.eq]
      rw [setSubBatches_getSubBatches_sizes (sizes_lt hints)] at hagain
      exact ⟨congrArg (fun r => r.1.subBatchSizes) hagain, hints⟩
  · rintro ⟨htake, hints⟩
    refine .inr ⟨rfl, ⟨fun hlists => absurd hlists hsizes, fun _ => ⟨fun _ => rfl, ?_, rfl⟩⟩, ?_⟩
    · exact ⟨_, isPieces_pieces ':' str, hints⟩
    · rw [setSubBatches_getSubBatches_sizes (sizes_lt hints), htake]

/-- The string is rejected or kept as it is when one of the conditions on its items holds. -/
theorem subBatches_meets_iff (c : TrackerConfig) (str : List Char) : Meets c str ↔ MeetsWhen str := by
  unfold MeetsWhen
  split
  · rename_i hlists
    by_cases hcolon : ':' ∈ str
    · refine iff_of_true (.inl ?_) (.inl hcolon)
      rw [setSubBatches, if_pos ⟨hlists, hcolon⟩]
      exact ⟨rfl, rfl, rfl⟩
    · cases h : (pieces ';' str).mapM readSubBatch with
      | none =>
        refine iff_of_true (.inl ?_) (.inr (.inl (mapM_readSubBatch_eq_none.mp h)))
        obtain ⟨herror, hempty⟩ := fillSubBatches_of_none h c.clear
        rw [setSubBatches, if_neg (fun hmixed => hcolon hmixed.2), if_pos hlists, herror]
        exact ⟨rfl, hempty⟩
      | some subBatches =>
        have hnot : ¬∃ group ∈ pieces ';' str, ∃ item ∈ pieces ',' group, ∀ n, ¬IntText item n := by
          intro hbad
          rw [mapM_readSubBatch_eq_none.mpr hbad] at h
          cases h
        rw [meets_lists hlists hcolon h, or_iff_right hcolon, or_iff_right hnot]
  · rename_i hsizes
    cases h : (pieces ':' str).mapM readSubBatchSize with
    | none =>
      refine iff_of_true (.inl ?_) (.inl (mapM_readSubBatchSize_eq_none.mp h))
      obtain ⟨herror, hempty⟩ := fillSubBatchSizes_of_none h (c := c.clear) rfl
      rw [setSubBatches, if_neg (fun hmixed => hsizes hmixed.1), if_neg hsizes, herror]
      exact ⟨rfl, hempty⟩
    | some sizes =>
      have hnot : ¬∃ item ∈ pieces ':' str, ∀ (n : ℕ) (rest : List Char), streamInt item ≠ some ((n : ℤ), rest) := by
        intro hbad
        rw [mapM_readSubBatchSize_eq_none.mpr hbad] at h
        cases h
      rw [meets_sizes hsizes h, or_iff_right hnot]

/-- What is behind a size is dropped. -/
theorem not_meets_trailing : ¬Meets ⟨[], [], false⟩ "4x:2".toList := by
  have hset : setSubBatches ⟨[], [], false⟩ "4x:2".toList = (⟨[], [4, 2], true⟩, none) := by decide
  unfold Meets
  rw [hset]
  rintro (⟨hnone, -⟩ | ⟨-, hdenotes, -⟩)
  · cases hnone
  · obtain ⟨-, ⟨items, hitems, hints⟩, -⟩ := hdenotes.sizes (by decide)
    rw [← hitems.eq, show pieces ':' "4x:2".toList = ["4x".toList, "2".toList] by decide] at hints
    have hfirst := streamInt_eq_iff.mpr (List.forall₂_cons.mp hints).1
    exact absurd hfirst (by decide)

end DeepStream.Tracker.SubBatches
