/-
# What is found again in an object string

The numbers in front and the parts of the embedding and of the tracking have no `|` in them.
Read from its end, a string shows whether there is an embedding or tracking, as long as the
part before is a number.
-/
import DeepStream.MsgConv.Minimal

namespace DeepStream
namespace MsgConv
namespace Minimal

variable {F D : Type} (N : Formats F D)

/-! ### Texts -/

theorem isDigit_digits {n : ℕ} : ∀ c ∈ digits n, c.isDigit = true :=
  fun _ hc => Nat.isDigit_of_mem_toDigits (by decide) (by decide) hc

theorem notMem_digits {c : Char} (hc : c.isDigit = false) (n : ℕ) : c ∉ digits n := fun hmem => by
  rw [isDigit_digits c hmem] at hc
  cases hc

theorem digits_inj {m n : ℕ} (h : digits m = digits n) : m = n :=
  calc
    m = Nat.ofDigitChars 10 (digits m) 0 := Nat.ofDigitChars_ten_toDigits.symm
    _ = Nat.ofDigitChars 10 (digits n) 0 := by rw [h]
    _ = n := Nat.ofDigitChars_ten_toDigits

theorem isNumber_digits (n : ℕ) : IsNumber (digits n) where
  ne_nil := Nat.toDigits_ne_nil
  bar := notMem_digits rfl n
  hash := notMem_digits rfl n
  comma := notMem_digits rfl n

theorem isNumber_toStringInt (z : ℤ) : IsNumber (toStringInt z) := by
  have h := isNumber_digits z.natAbs
  unfold toStringInt
  split
  · exact ⟨List.cons_ne_nil _ _, by simpa using h.bar, by simpa using h.hash, by simpa using h.comma⟩
  · exact h

theorem toStringInt_inj {y z : ℤ} (h : toStringInt y = toStringInt z) : y = z := by
  have hminus : ∀ m n : ℕ, '-' :: digits m ≠ digits n := fun m n heq =>
    notMem_digits rfl n (heq ▸ List.mem_cons_self)
  unfold toStringInt at h
  split at h <;> split at h
  · have := digits_inj (List.tail_eq_of_cons_eq h)
    omega
  · exact absurd h (hminus _ _)
  · exact absurd h.symm (hminus _ _)
  · have := digits_inj h
    omega

theorem bar_notMem_point (p : F × F) : '|' ∉ N.point p := by
  have h1 := (N.isNumber_toStringFloat p.1).bar
  have h2 := (N.isNumber_toStringFloat p.2).bar
  simp [Formats.point, h1, h2]

theorem comma_mem_point (p : F × F) : ',' ∈ N.point p := List.mem_append_right _ List.mem_cons_self

theorem forall_mem_intercalate {α : Type*} {P : α → Prop} {sep : List α} {ls : List (List α)} (hsep : ∀ a ∈ sep, P a)
    (h : ∀ l ∈ ls, ∀ a ∈ l, P a) : ∀ a ∈ sep.intercalate ls, P a := by
  induction ls with
  | nil => exact fun a ha => absurd ha List.not_mem_nil
  | cons l ls ih =>
    obtain ⟨hl, hls⟩ := List.forall_mem_cons.mp h
    cases ls with
    | nil => simpa using hl
    | cons k ks =>
      rw [List.intercalate_cons_cons]
      intro a ha
      rcases List.mem_append.mp ha with ha | ha
      · exact (List.mem_append.mp ha).elim (hl a) (hsep a)
      · exact ih hls a ha

theorem bar_notMem_intercalate {ts : List Text} (h : ∀ t ∈ ts, '|' ∉ t) : '|' ∉ [','].intercalate ts := fun hmem =>
  forall_mem_intercalate (P := (· ≠ '|')) (by simp) (fun t ht _ hc heq => h t ht (heq ▸ hc)) _ hmem rfl

theorem bar_notMem_embeddingText (embedding : List F) : '|' ∉ N.embeddingText embedding :=
  bar_notMem_intercalate fun t ht => by
    obtain ⟨x, -, rfl⟩ := List.mem_map.mp ht
    exact (N.isNumber_streamFloat x).bar

theorem isNumber_hull {hull : List (ℤ × ℤ)} :
    ∀ t ∈ hull.flatMap fun p => [toStringInt p.1, toStringInt p.2], IsNumber t := by
  intro t ht
  obtain ⟨p, -, hp⟩ := List.mem_flatMap.mp ht
  simp only [List.mem_cons, List.not_mem_nil, or_false] at hp
  rcases hp with rfl | rfl <;> exact isNumber_toStringInt _

theorem bar_notMem_hullText (hull : List (ℤ × ℤ)) : '|' ∉ hullText hull :=
  bar_notMem_intercalate fun t ht => (isNumber_hull t ht).bar

/-! ### The front of a string -/

/-- What is behind the numbers. -/
def Formats.tail (embedding : List F) (tracking : Option (NvDs3DTracking F)) : Text :=
  prefixed '|' (N.embeddingParts embedding) ++ N.tracking tracking

theorem tail_nil : N.tail [] none = [] := rfl

/-- The string behind the type. -/
def after (e : NvDsEventMsgMeta F D) (pose : Option (Pose F)) : Text :=
  N.streamDouble e.confidence ++ prefixed '|' (attributeParts e ++ N.poseParts pose) ++
    N.tail e.embedding e.singleView3DTracking

theorem objectString_eq (e : NvDsEventMsgMeta F D) :
    objectString N e = e.writtenPose.map fun pose =>
      digits e.trackingId.toNat ++ prefixed '|' (N.corners e.bbox) ++ '|' :: (e.typeName ++ '|' :: after N e pose) := by
  unfold objectString after Formats.tail
  refine congrArg (Option.map · e.writtenPose) (funext fun pose => ?_)
  simp [prefixed_append]

theorem bar_notMem_corners (b : NvDsRect F) : ∀ t ∈ N.corners b, '|' ∉ t := by
  intro t ht
  simp only [Formats.corners, List.mem_cons, List.not_mem_nil, or_false] at ht
  rcases ht with rfl | rfl | rfl | rfl <;> exact (N.isNumber_streamFloat _).bar

/-- The id, the box and the rest are found again. -/
theorem front_inj {i i' : UInt64} {b b' : NvDsRect F} {rest rest' : Text}
    (h : digits i.toNat ++ prefixed '|' (N.corners b) ++ '|' :: rest =
      digits i'.toNat ++ prefixed '|' (N.corners b') ++ '|' :: rest') :
    i = i' ∧ N.corners b = N.corners b' ∧ rest = rest' := by
  have hbar : ∀ x : F, '|' ∉ N.streamFloat x := fun x => (N.isNumber_streamFloat x).bar
  simp only [Formats.corners, prefixed_cons, prefixed_nil, List.append_nil, List.append_assoc, List.cons_append] at h
  obtain ⟨hid, h⟩ := append_sep_inj (notMem_digits rfl _) (notMem_digits rfl _) h
  obtain ⟨hleft, h⟩ := append_sep_inj (hbar _) (hbar _) h
  obtain ⟨htop, h⟩ := append_sep_inj (hbar _) (hbar _) h
  obtain ⟨hright, h⟩ := append_sep_inj (hbar _) (hbar _) h
  obtain ⟨hbottom, h⟩ := append_sep_inj (hbar _) (hbar _) h
  refine ⟨UInt64.toNat_inj.mp (digits_inj hid), ?_, h⟩
  rw [Formats.corners, Formats.corners, hleft, htop, hright, hbottom]

/-! ### The end of a string -/

/-- The parts of a text, from its end. -/
def rcolumns (t : Text) : List Text := (t.splitOn '|').reverse

theorem rcolumns_inj {t u : Text} (h : rcolumns t = rcolumns u) : t = u := by
  have hsplit := List.reverse_injective h
  calc
    t = ['|'].intercalate (t.splitOn '|') := (List.intercalate_splitOn '|').symm
    _ = ['|'].intercalate (u.splitOn '|') := by rw [hsplit]
    _ = u := List.intercalate_splitOn '|'

theorem rcolumns_append (t u : Text) : rcolumns (t ++ '|' :: u) = rcolumns u ++ rcolumns t := by
  rw [rcolumns, List.splitOn_append_cons_self, List.reverse_append]
  rfl

theorem rcolumns_of_notMem {t : Text} (h : '|' ∉ t) : rcolumns t = [t] := by
  rw [rcolumns, List.splitOn_eq_singleton h]
  rfl

theorem rcolumns_prefixed {ts : List Text} (h : ∀ t ∈ ts, '|' ∉ t) (front : Text) :
    rcolumns (front ++ prefixed '|' ts) = ts.reverse ++ rcolumns front := by
  induction ts generalizing front with
  | nil => simp
  | cons t ts ih =>
    obtain ⟨ht, hts⟩ := List.forall_mem_cons.mp h
    have happ : front ++ prefixed '|' (t :: ts) = (front ++ '|' :: t) ++ prefixed '|' ts := by simp
    rw [happ, ih hts, rcolumns_append, rcolumns_of_notMem ht]
    simp

/-- The last parts of a string with the part `y` before the embedding. -/
def rtail (y : Text) (embedding : List F) (tracking : Option (NvDs3DTracking F)) : List Text :=
  match embedding, tracking with
  | [], none => [y]
  | x :: xs, none => [[], N.embeddingText (x :: xs), "embedding".toList, ['#'], y]
  | [], some t => [[], hullText t.convexHull, N.point t.ptWorldFeet, N.point t.ptImgFeet, N.toStringFloat t.visibility,
      "SV3DT".toList, y ++ ['#']]
  | x :: xs, some t => [[], hullText t.convexHull, N.point t.ptWorldFeet, N.point t.ptImgFeet,
      N.toStringFloat t.visibility, "SV3DT".toList, ['#'], N.embeddingText (x :: xs), "embedding".toList, ['#'], y]

theorem bar_notMem_tracking (t : NvDs3DTracking F) :
    ∀ p ∈ ["SV3DT".toList, N.toStringFloat t.visibility, N.point t.ptImgFeet, N.point t.ptWorldFeet,
      hullText t.convexHull, []], '|' ∉ p := by
  have hvisibility := (N.isNumber_toStringFloat t.visibility).bar
  simp [bar_notMem_point, bar_notMem_hullText, hvisibility]

theorem bar_notMem_embeddingParts (embedding : List F) : ∀ p ∈ N.embeddingParts embedding, '|' ∉ p := by
  unfold Formats.embeddingParts
  split
  · simp
  · simp [bar_notMem_embeddingText]

theorem rcolumns_tail {y : Text} (hy : '|' ∉ y) (embedding : List F) (tracking : Option (NvDs3DTracking F)) :
    rcolumns (y ++ N.tail embedding tracking) = rtail N y embedding tracking := by
  have hparts := bar_notMem_embeddingParts N embedding
  unfold Formats.tail
  cases tracking with
  | none =>
    rw [Formats.tracking, List.append_nil, rcolumns_prefixed hparts, rcolumns_of_notMem hy]
    cases embedding <;> rfl
  | some t =>
    rw [Formats.tracking, ← List.append_assoc, List.append_cons, rcolumns_prefixed (bar_notMem_tracking N t)]
    cases embedding with
    | nil =>
      have hhash : '|' ∉ y ++ ['#'] := by simp [hy]
      have hnil : y ++ prefixed '|' (N.embeddingParts []) ++ ['#'] = y ++ ['#'] := by simp [Formats.embeddingParts]
      rw [hnil, rcolumns_of_notMem hhash]
      rfl
    | cons x xs =>
      -- the `#` of the tracking is behind the last separator of the embedding
      have hfront : y ++ prefixed '|' (N.embeddingParts (x :: xs)) ++ ['#'] =
          y ++ prefixed '|' [['#'], "embedding".toList, N.embeddingText (x :: xs), ['#']] := by
        simp [Formats.embeddingParts]
      have hbars : ∀ p ∈ [['#'], "embedding".toList, N.embeddingText (x :: xs), ['#']], '|' ∉ p := by
        simp [bar_notMem_embeddingText]
      rw [hfront, rcolumns_prefixed hbars, rcolumns_of_notMem hy]
      rfl

theorem rcolumns_append_tail {y : Text} (hy : '|' ∉ y) (front : Text) (embedding : List F)
    (tracking : Option (NvDs3DTracking F)) :
    rcolumns (front ++ '|' :: (y ++ N.tail embedding tracking)) = rtail N y embedding tracking ++ rcolumns front := by
  rw [rcolumns_append, rcolumns_tail N hy]

theorem embeddingText_ne_nil (x : F) (xs : List F) : N.embeddingText (x :: xs) ≠ [] := by
  have hx := (N.isNumber_streamFloat x).ne_nil
  unfold Formats.embeddingText
  cases xs with
  | nil => simpa using hx
  | cons y ys => simp [List.intercalate_cons_cons, hx]

theorem point_ne_embedding (p : F × F) : N.point p ≠ "embedding".toList := fun h =>
  absurd (h ▸ comma_mem_point N p) (by decide)

theorem point_ne_nil (p : F × F) : N.point p ≠ [] := fun h =>
  absurd (h ▸ comma_mem_point N p) List.not_mem_nil

theorem append_hash_ne {y : Text} (hy : y ≠ []) : y ++ ['#'] ≠ ['#'] := fun h =>
  hy (List.append_cancel_right (h : y ++ ['#'] = [] ++ ['#']))

/-- Behind a number, the end of a string shows what is written there. -/
theorem rtail_inj {y y' : Text} {emb emb' : List F} {tr tr' : Option (NvDs3DTracking F)} {rest rest' : List Text}
    (hy : y ≠ []) (hy' : y' ≠ []) (h : rtail N y emb tr ++ rest = rtail N y' emb' tr' ++ rest') :
    y = y' ∧ N.embeddingParts emb = N.embeddingParts emb' ∧ N.tracking tr = N.tracking tr' ∧ rest = rest' := by
  have hhash := append_hash_ne hy
  have hhash' := append_hash_ne hy'
  have hpoint := fun p => (point_ne_embedding N p).symm
  -- the third part from the end is a point or `embedding`, the one before the tracking is a number and `#`, or `#`
  rcases emb with _ | ⟨x, xs⟩ <;> rcases tr with _ | t <;> rcases emb' with _ | ⟨x', xs'⟩ <;> rcases tr' with _ | t' <;>
    simp [rtail, point_ne_embedding, hpoint, hy, hy'.symm, hhash, hhash'.symm, -String.reduceToList] at h
  · exact ⟨h.1, rfl, rfl, h.2⟩
  · obtain ⟨hhull, hworld, himg, hvisibility, hy, hrest⟩ := h
    exact ⟨hy, rfl, by simp only [Formats.tracking, hhull, hworld, himg, hvisibility], hrest⟩
  · obtain ⟨htext, hy, hrest⟩ := h
    exact ⟨hy, congrArg (fun w => ["#".toList, "embedding".toList, w, []]) htext, rfl, hrest⟩
  · obtain ⟨hhull, hworld, himg, hvisibility, htext, hy, hrest⟩ := h
    exact ⟨hy, congrArg (fun w => ["#".toList, "embedding".toList, w, []]) htext,
      by simp only [Formats.tracking, hhull, hworld, himg, hvisibility], hrest⟩

/-- Behind two empty parts there is no end with a number before it. -/
theorem rtail_ne {y' : Text} {emb emb' : List F} {tr tr' : Option (NvDs3DTracking F)} {rest rest' : List Text}
    (hy' : y' ≠ []) : rtail N [] emb tr ++ [] :: [] :: rest ≠ rtail N y' emb' tr' ++ rest' := by
  intro h
  have hhash' := append_hash_ne hy'
  have hpoint := fun p => (point_ne_embedding N p).symm
  have hnil := fun p => (point_ne_nil N p).symm
  have htext := fun x xs => (embeddingText_ne_nil N x xs).symm
  rcases emb with _ | ⟨x, xs⟩ <;> rcases tr with _ | t <;> rcases emb' with _ | ⟨x', xs'⟩ <;> rcases tr' with _ | t' <;>
    simp [rtail, point_ne_embedding, hpoint, hnil, htext, hy'.symm, hhash'.symm, -String.reduceToList] at h

/-! ### The numbers behind their texts -/

/-- Nothing else is written in the same way. -/
def Exact {α β : Type*} (f : α → β) (a : α) : Prop := ∀ a', f a' = f a → a' = a

theorem exact_map_iff {α β : Type*} {f : α → β} {l : List α} : Exact (List.map f) l ↔ ∀ a ∈ l, Exact f a := by
  constructor
  · rintro h a ha a' hf
    obtain ⟨front, back, rfl⟩ := List.append_of_mem ha
    have heq := h (front ++ a' :: back) (by simp [hf])
    exact (List.cons.inj (List.append_cancel_left heq)).1
  · intro h l' hl'
    induction l generalizing l' with
    | nil => exact List.map_eq_nil_iff.mp hl'
    | cons a l ih =>
      obtain ⟨a', l', rfl, hhead, htail⟩ := List.map_eq_cons_iff.mp hl'
      obtain ⟨ha, hl⟩ := List.forall_mem_cons.mp h
      rw [ha a' hhead, ih hl l' htail]

theorem intercalate_inj {c : Char} {ts us : List Text} (hts : ∀ t ∈ ts, t ≠ [] ∧ c ∉ t) (hus : ∀ u ∈ us, u ≠ [] ∧ c ∉ u)
    (h : [c].intercalate ts = [c].intercalate us) : ts = us := by
  have hnil : ∀ {ws : List Text}, (∀ w ∈ ws, w ≠ [] ∧ c ∉ w) → [c].intercalate ws = [] → ws = [] := by
    intro ws hws hnil
    rcases ws with _ | ⟨w, _ | ⟨v, ws⟩⟩
    · rfl
    · exact absurd (by simpa using hnil) (hws w List.mem_cons_self).1
    · rw [List.intercalate_cons_cons] at hnil
      simp at hnil
  by_cases hne : ts = []
  · subst hne
    exact (hnil hus h.symm).symm
  · have hne' : us ≠ [] := by
      rintro rfl
      exact hne (hnil hts h)
    rw [← List.splitOn_intercalate c (fun t ht => (hts t ht).2) hne, h,
      List.splitOn_intercalate c (fun u hu => (hus u hu).2) hne']

theorem embedding_eq {emb emb' : List F} (hexact : ∀ x ∈ emb, Exact N.streamFloat x)
    (h : N.embeddingParts emb' = N.embeddingParts emb) : emb' = emb := by
  have htexts : ∀ l : List F, ∀ t ∈ l.map N.streamFloat, t ≠ [] ∧ ',' ∉ t := by
    intro l t ht
    obtain ⟨x, -, rfl⟩ := List.mem_map.mp ht
    exact ⟨(N.isNumber_streamFloat x).ne_nil, (N.isNumber_streamFloat x).comma⟩
  cases emb with
  | nil =>
    cases emb' with
    | nil => rfl
    | cons x' xs' => cases h
  | cons x xs =>
    cases emb' with
    | nil => cases h
    | cons x' xs' =>
      simp only [Formats.embeddingParts, List.isEmpty_cons, Bool.false_eq_true, if_false, List.cons.injEq, and_true,
        true_and] at h
      exact exact_map_iff.mpr hexact _ (intercalate_inj (htexts _) (htexts _) h)

/-- The floating-point numbers of the tracking. -/
def NvDs3DTracking.numbers (t : NvDs3DTracking F) : List F :=
  [t.visibility, t.ptImgFeet.1, t.ptImgFeet.2, t.ptWorldFeet.1, t.ptWorldFeet.2]

theorem hull_eq {hull hull' : List (ℤ × ℤ)} (h : hullText hull' = hullText hull) : hull' = hull := by
  have htexts : ∀ l : List (ℤ × ℤ), ∀ t ∈ l.flatMap fun p => [toStringInt p.1, toStringInt p.2], t ≠ [] ∧ ',' ∉ t :=
    fun l t ht => ⟨(isNumber_hull t ht).ne_nil, (isNumber_hull t ht).comma⟩
  have hpairs := intercalate_inj (htexts _) (htexts _) h
  clear h
  induction hull generalizing hull' with
  | nil =>
    cases hull' with
    | nil => rfl
    | cons p' hull' => cases hpairs
  | cons p hull ih =>
    cases hull' with
    | nil => cases hpairs
    | cons p' hull' =>
      simp only [List.flatMap_cons, List.cons_append, List.nil_append, List.cons.injEq] at hpairs
      obtain ⟨hx, hy, hrest⟩ := hpairs
      rw [ih hrest, Prod.ext (toStringInt_inj hx) (toStringInt_inj hy)]

theorem point_inj {p p' : F × F} (h : N.point p' = N.point p) :
    N.toStringFloat p'.1 = N.toStringFloat p.1 ∧ N.toStringFloat p'.2 = N.toStringFloat p.2 :=
  append_sep_inj (N.isNumber_toStringFloat _).comma (N.isNumber_toStringFloat _).comma h

theorem tracking_eq {tr tr' : Option (NvDs3DTracking F)} (hexact : ∀ t ∈ tr, ∀ x ∈ t.numbers, Exact N.toStringFloat x)
    (h : N.tracking tr' = N.tracking tr) : tr' = tr := by
  cases tr with
  | none =>
    cases tr' with
    | none => rfl
    | some t' => cases h
  | some t =>
    cases tr' with
    | none => cases h
    | some t' =>
      obtain ⟨-, hprefixed⟩ := List.cons.inj h
      have hparts := prefixed_inj_of_notMem (bar_notMem_tracking N t') (bar_notMem_tracking N t) hprefixed
      simp only [List.cons.injEq, and_true, true_and] at hparts
      obtain ⟨hvisibility, himg, hworld, hhull⟩ := hparts
      obtain ⟨himg1, himg2⟩ := point_inj N himg
      obtain ⟨hworld1, hworld2⟩ := point_inj N hworld
      have hx := hexact t rfl
      simp only [NvDs3DTracking.numbers, List.forall_mem_cons] at hx
      obtain ⟨xvisibility, ximg1, ximg2, xworld1, xworld2, -⟩ := hx
      obtain ⟨⟨w1, w2⟩, ⟨i1, i2⟩, v, hull⟩ := t
      obtain ⟨⟨w1', w2'⟩, ⟨i1', i2'⟩, v', hull'⟩ := t'
      have hhull : hull' = hull := hull_eq hhull
      rw [xvisibility v' hvisibility, ximg1 i1' himg1, ximg2 i2' himg2, xworld1 w1' hworld1, xworld2 w2' hworld2, hhull]

/-! ### Masks -/

theorem isNumber_mask (mask : List (List D)) :
    ∀ polygon ∈ mask.map (·.map N.streamDouble), ∀ t ∈ polygon, IsNumber t := by
  intro polygon hpolygon t ht
  obtain ⟨values, -, rfl⟩ := List.mem_map.mp hpolygon
  obtain ⟨x, -, rfl⟩ := List.mem_map.mp ht
  exact N.isNumber_streamDouble x

/-- The parts of the string of a mask. -/
def maskParts (mask : List (List D)) : List Text :=
  digits mask.length :: ["#".toList].intercalate (mask.map (·.map N.streamDouble))

theorem bar_notMem_maskParts (mask : List (List D)) : ∀ t ∈ maskParts N mask, '|' ∉ t := by
  refine List.forall_mem_cons.mpr ⟨(isNumber_digits _).bar, forall_mem_intercalate (by simp) ?_⟩
  exact fun polygon hpolygon t ht => (isNumber_mask N mask polygon hpolygon t ht).bar

/-- The masks with the same string are the same. -/
theorem mask_eq {e e' : NvDsEventMsgMeta F D}
    (hexact : ∀ polygon ∈ e.objectMask, ∀ x ∈ polygon, Exact N.streamDouble x)
    (h : maskString N e' = maskString N e) : e'.objectMask = e.objectMask := by
  unfold maskString at h
  split at h
  · rename_i hnil'
    split at h
    · rename_i hnil
      rw [List.isEmpty_iff.mp hnil, List.isEmpty_iff.mp hnil']
    · cases h
  · rename_i hne'
    split at h
    · cases h
    · rename_i hne
      rw [List.isEmpty_iff] at hne hne'
      obtain ⟨-, hparts⟩ := append_sep_inj (isNumber_digits _).bar (isNumber_digits _).bar (Option.some.inj h)
      have hparts := prefixed_inj_of_notMem (bar_notMem_maskParts N _) (bar_notMem_maskParts N _)
        (congrArg ('|' :: ·) hparts)
      have hsplit : ∀ mask : List (List D), mask ≠ [] →
          (["#".toList].intercalate (mask.map (·.map N.streamDouble))).splitOn "#".toList = mask.map (·.map N.streamDouble) :=
        fun mask hmask => List.splitOn_intercalate _ (fun polygon hpolygon hmem =>
          (isNumber_mask N mask polygon hpolygon _ hmem).hash (by decide)) (by simpa using hmask)
      have hmap : e'.objectMask.map (·.map N.streamDouble) = e.objectMask.map (·.map N.streamDouble) := by
        rw [← hsplit _ hne', (List.cons.inj hparts).2, hsplit _ hne]
      exact exact_map_iff.mpr (fun polygon hpolygon => exact_map_iff.mpr (hexact polygon hpolygon)) _ hmap

end Minimal
end MsgConv
end DeepStream
