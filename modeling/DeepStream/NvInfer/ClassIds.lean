/-
# Lists of class ids as properties

`gst_nvinfer_set_property` reads `operate-on-class-ids` and `filter-out-class-ids` from a
stream: an integer, a separator, an integer, until nothing is left. A negative id of the
first list goes on before its separator is read, so the next integer is read from the
separator: the reading fails with the value 0, which is taken for an id, and the rest
of the list is lost. The second list keeps a negative id as an unsigned number.
-/
import DeepStream.Lib.Decimal
import Mathlib.Data.Finset.Insert

namespace DeepStream
namespace NvInfer

def INT_MAX : ℤ := 2 ^ 31 - 1
def INT_MIN : ℤ := -2 ^ 31

/-! ### Streams -/

/-- A `stringstream` that is read: what is left, and `eofbit` and `failbit`. -/
structure IStream where
  rest : List Char
  eof : Bool
  fail : Bool
  deriving DecidableEq, Repr

namespace IStream

def open' (text : List Char) : IStream := ⟨text, false, false⟩

variable (s : IStream)

def good : Bool := !s.eof && !s.fail

/-- `peek () != EOF`. -/
def peeks : Bool := s.good && !s.rest.isEmpty

/-- `get`. -/
def get : IStream :=
  if s.peeks then { s with rest := s.rest.tail } else { s with eof := s.eof || s.good, fail := true }

/-- A value that does not fit is replaced by the nearest one that does. -/
def clamp (v : ℤ) : ℤ := max INT_MIN (min v INT_MAX)

/-- The digits of an integer. Where there are none the value is 0. -/
def readMagnitude (negative : Bool) (text : List Char) : IStream × ℤ :=
  match readDigits text with
  | none => (⟨text, text.isEmpty, true⟩, 0)
  | some (v, rest) =>
    let v : ℤ := if negative then -v else v
    (⟨rest, rest.isEmpty, decide (clamp v ≠ v)⟩, clamp v)

/-- `>>` into an `int`, on a stream that is good. Where only white space is left the
integer keeps its value. -/
def readInt : IStream × Option ℤ :=
  let text := s.rest.dropWhile isSpace
  if text = [] then (⟨[], true, true⟩, none)
  else
    let negative := text.head? == some '-'
    let r := readMagnitude negative (if negative || text.head? == some '+' then text.tail else text)
    (r.1, some r.2)

/-! ### What is left -/

/-- What a stream still gives. -/
def left : ℕ := if s.good then s.rest.length else 0

theorem left_cases : s.left = 0 ∨ s.left = s.rest.length := by
  unfold left
  split
  · exact .inr rfl
  · exact .inl rfl

theorem left_get : s.get.left ≤ s.left := by
  unfold get
  split
  · unfold left
    split
    · rename_i hgood
      rw [if_pos (show s.good = true from hgood), List.length_tail]
      omega
    · exact Nat.zero_le _
  · exact (if_neg (by simp [good])).trans_le (Nat.zero_le _)

theorem left_readMagnitude (negative : Bool) (text : List Char) :
    (readMagnitude negative text).1.left = 0 ∨ (readMagnitude negative text).1.left < text.length := by
  unfold readMagnitude
  cases hread : readDigits text with
  | none => exact .inl (by simp [left, good])
  | some r =>
    have hlt := length_of_readDigits r.1 r.2 hread
    refine (left_cases _).imp id fun h => ?_
    rw [h]
    exact hlt

theorem left_readInt (h : s.peeks) : s.readInt.1.left < s.left := by
  unfold peeks at h
  rw [Bool.and_eq_true, Bool.not_eq_true', List.isEmpty_eq_false_iff] at h
  have hleft : s.left = s.rest.length := if_pos h.1
  have hpos := List.length_pos_iff.mpr h.2
  have hdrop := List.length_dropWhile_le isSpace s.rest
  unfold readInt
  rw [hleft]
  generalize s.rest.dropWhile isSpace = text at hdrop
  by_cases htext : text = []
  · rw [if_pos htext]
    simpa [left, good] using hpos
  · simp only [if_neg htext]
    have hbody : (if (text.head? == some '-' || text.head? == some '+') = true then text.tail else text).length ≤
        text.length := by
      split <;> simp
    have := left_readMagnitude (text.head? == some '-')
      (if (text.head? == some '-' || text.head? == some '+') = true then text.tail else text)
    omega

end IStream

/-! ### The loop -/

/-- `while (str.peek () != EOF)`; an id that is not kept goes on at once. The loop has no
result where an integer is used that was never set. -/
def readIds (keep : ℤ → Bool) (s : IStream) : Option (List ℤ × IStream) :=
  if _h : s.peeks then
    match _hread : s.readInt with
    | (_, none) => none
    | (s', some classId) =>
      if keep classId then (readIds keep s'.get).map fun r => (classId :: r.1, r.2)
      else readIds keep s'
  else some ([], s)
termination_by s.left
decreasing_by
  all_goals
    have hlt := IStream.left_readInt s _h
    rw [_hread] at hlt
    first
      | exact hlt
      | exact (IStream.left_get s').trans_lt hlt

/-- `operate-on-class-ids`: the flags of the classes, and the stream. The vector has no
size behind the greatest `int`. -/
def operateOnClassIds (text : List Char) : Option (List Bool × IStream) :=
  (readIds (fun classId => !decide (classId < 0)) (.open' text)).bind fun r =>
    let maxClassId := r.1.foldl max (-1)
    if maxClassId = INT_MAX then none
    else some (r.1.foldl (fun flags cid => flags.set cid.toNat true) (List.replicate (maxClassId + 1).toNat false), r.2)

/-- `filter-out-class-ids`: the set of the ids, as `uint`, and the stream. -/
def filterOutClassIds (text : List Char) : Option (Finset ℕ × IStream) :=
  (readIds (fun _ => true) (.open' text)).map fun r =>
    (r.1.foldl (fun ids classId => insert (classId % 2 ^ 32).toNat ids) ∅, r.2)

/-! ### One round of the loop -/

section Round

variable {keep : ℤ → Bool} {s s' : IStream} {v : ℤ}

theorem readIds_of_end (h : s.peeks = false) : readIds keep s = some ([], s) := by
  rw [readIds, dif_neg (by simp [h])]

theorem readIds_of_kept (h : s.peeks = true) (hread : s.readInt = (s', some v)) (hkeep : keep v = true) :
    readIds keep s = (readIds keep s'.get).map fun r => (v :: r.1, r.2) := by
  rw [readIds, dif_pos h]
  split
  · rename_i hnone
    rw [hnone] at hread
    cases hread
  · rename_i hsome
    rw [hsome] at hread
    cases hread
    rw [if_pos hkeep]

theorem readIds_of_skipped (h : s.peeks = true) (hread : s.readInt = (s', some v)) (hkeep : keep v = false) :
    readIds keep s = readIds keep s' := by
  rw [readIds, dif_pos h]
  split
  · rename_i hnone
    rw [hnone] at hread
    cases hread
  · rename_i hsome
    rw [hsome] at hread
    cases hread
    rw [if_neg (by simp [hkeep])]

end Round

/-! ### Lists of numerals -/

/-- An integer in decimal, with a sign or none; `true` is the minus. -/
structure Numeral where
  sign : Option Bool
  digits : Digits

namespace Numeral

def text (n : Numeral) : List Char :=
  (match n.sign with
    | none => []
    | some true => ['-']
    | some false => ['+']) ++ n.digits.chars

def val (n : Numeral) : ℤ := if n.sign = some true then -n.digits.val else n.digits.val

end Numeral

/-- The numerals with a separator between each two of them. -/
def joined (sep : Char) : List Numeral → List Char
  | [] => []
  | [n] => n.text
  | n :: m :: l => n.text ++ sep :: joined sep (m :: l)

open IStream

theorem readMagnitude_append (negative : Bool) (d : Digits) (tail : List Char) (h : ∀ c ∈ tail.head?, c.isDigit = false) :
    readMagnitude negative (d.chars ++ tail) =
      let v : ℤ := if negative then -d.val else d.val
      (⟨tail, tail.isEmpty, decide (clamp v ≠ v)⟩, clamp v) := by
  rw [readMagnitude, readDigits_append d tail h]

/-- A numeral is read whole, up to what cannot belong to it. -/
theorem readInt_numeral (n : Numeral) (tail : List Char) (h : ∀ c ∈ tail.head?, c.isDigit = false) :
    readInt (.open' (n.text ++ tail)) =
      (⟨tail, tail.isEmpty, decide (clamp n.val ≠ n.val)⟩, some (clamp n.val)) := by
  obtain ⟨sign, digits⟩ := n
  have hmag := fun negative => readMagnitude_append negative digits tail h
  cases sign with
  | none =>
    obtain ⟨c, l, hcl⟩ := List.exists_cons_of_ne_nil digits.ne_nil
    obtain ⟨hspace, hminus, hplus⟩ := isDigit_facts (digits.isDigit c (by simp [hcl]))
    have htext : Numeral.text ⟨none, digits⟩ ++ tail = digits.chars ++ tail := rfl
    have hdrop : (digits.chars ++ tail).dropWhile isSpace = digits.chars ++ tail := by
      rw [hcl, List.cons_append, List.dropWhile_cons_of_neg (by simp [hspace])]
    have hhead : (digits.chars ++ tail).head? = some c := by rw [hcl]; rfl
    rw [readInt, htext]
    simp only [open', hdrop, hhead]
    rw [if_neg (by simp [hcl])]
    simp [hminus, hplus, hmag, Numeral.val]
  | some negative =>
    rw [readInt]
    cases negative with
    | true =>
      have hdrop : (Numeral.text ⟨some true, digits⟩ ++ tail).dropWhile isSpace = '-' :: (digits.chars ++ tail) := rfl
      simp [open', hdrop, hmag, Numeral.val]
    | false =>
      have hdrop : (Numeral.text ⟨some false, digits⟩ ++ tail).dropWhile isSpace = '+' :: (digits.chars ++ tail) := rfl
      simp [open', hdrop, hmag, Numeral.val]

/-- A character that cannot belong to an integer. -/
def IsSep (sep : Char) : Prop := sep.isDigit = false ∧ isSpace sep = false ∧ sep ≠ '-' ∧ sep ≠ '+'

/-- Read from a separator, an integer is 0 and the stream fails. -/
theorem readInt_sep {sep : Char} (hsep : IsSep sep) (tail : List Char) :
    readInt (.open' (sep :: tail)) = (⟨sep :: tail, false, true⟩, some 0) := by
  obtain ⟨hdigit, hspace, hminus, hplus⟩ := hsep
  have hdrop : (sep :: tail).dropWhile isSpace = sep :: tail := List.dropWhile_cons_of_neg (by simp [hspace])
  have hread : readDigits (sep :: tail) = none := if_pos (List.takeWhile_cons_of_neg (by simp [hdigit]))
  rw [readInt]
  simp [open', hdrop, hminus, hplus, readMagnitude, hread]

/-- The ids that the loop takes from a list, and whether it comes to the end. -/
def taken (keep : ℤ → Bool) : List Numeral → List ℤ × Bool
  | [] => ([], true)
  | [n] => (if keep (clamp n.val) then [clamp n.val] else [], true)
  | n :: m :: l =>
    if keep (clamp n.val) then
      if clamp n.val = n.val then
        let r := taken keep (m :: l)
        (n.val :: r.1, r.2)
      else ([clamp n.val], false)
    else (if clamp n.val = n.val ∧ keep 0 then [0] else [], false)

theorem peeks_open' {text : List Char} (h : text ≠ []) : (open' text).peeks = true := by
  simp [peeks, open', good, h]

theorem Numeral.text_ne_nil (n : Numeral) : n.text ≠ [] := by
  simp [Numeral.text, n.digits.ne_nil]

/-- After a value that does not fit nothing more is read. -/
theorem readIds_failed (keep : ℤ → Bool) (rest : List Char) (eof : Bool) :
    readIds keep ⟨rest, eof, true⟩ = some ([], ⟨rest, eof, true⟩) :=
  readIds_of_end (by simp [peeks, good])

/-- What the loop does with a list of numerals. -/
theorem readIds_joined {sep : Char} (hsep : IsSep sep) (keep : ℤ → Bool) : ∀ ns : List Numeral,
    ∃ s, readIds keep (.open' (joined sep ns)) = some ((taken keep ns).1, s) ∧ (s.rest = [] ↔ (taken keep ns).2 = true)
  | [] => ⟨.open' [], readIds_of_end rfl, iff_of_true rfl rfl⟩
  | [n] => by
    have hpeeks : (open' n.text).peeks = true := peeks_open' n.text_ne_nil
    have hread := readInt_numeral n [] (by simp)
    rw [List.append_nil] at hread
    have hend : ∀ s : IStream, s.eof = true → readIds keep s = some ([], s) := fun s hs =>
      readIds_of_end (by simp [peeks, good, hs])
    by_cases hkeep : keep (clamp n.val) = true
    · refine ⟨IStream.get ⟨[], true, decide (clamp n.val ≠ n.val)⟩, ?_, iff_of_true rfl rfl⟩
      rw [joined, readIds_of_kept hpeeks hread hkeep, taken, if_pos hkeep]
      exact congrArg _ (hend _ rfl)
    · rw [Bool.not_eq_true] at hkeep
      refine ⟨⟨[], true, decide (clamp n.val ≠ n.val)⟩, ?_, iff_of_true rfl rfl⟩
      rw [joined, readIds_of_skipped hpeeks hread hkeep, taken, if_neg (by simp [hkeep])]
      exact hend _ rfl
  | n :: m :: l => by
    have hpeeks : (open' (n.text ++ sep :: joined sep (m :: l))).peeks = true := peeks_open' (by simp)
    have hread := readInt_numeral n (sep :: joined sep (m :: l)) (by simpa using hsep.1)
    rw [joined, taken]
    by_cases hfits : clamp n.val = n.val
    · rw [hfits] at hread ⊢
      simp only [List.isEmpty_cons, ne_eq, not_true_eq_false, decide_false, true_and, if_true] at hread ⊢
      by_cases hkeep : keep n.val = true
      · -- the separator is taken, and the rest of the list read
        obtain ⟨s, hs, hrest⟩ := readIds_joined hsep keep (m :: l)
        refine ⟨s, ?_, ?_⟩
        · rw [readIds_of_kept hpeeks hread hkeep, if_pos hkeep]
          exact congrArg _ hs
        · rw [if_pos hkeep]
          exact hrest
      · -- the next integer is read from the separator
        rw [Bool.not_eq_true] at hkeep
        have hpeeks' : (open' (sep :: joined sep (m :: l))).peeks = true := rfl
        rw [readIds_of_skipped hpeeks hread hkeep, if_neg (by simp [hkeep])]
        refine ⟨⟨sep :: joined sep (m :: l), false, true⟩, ?_, iff_of_false (by simp) (by simp)⟩
        by_cases hzero : keep 0 = true
        · rw [if_pos hzero]
          refine (readIds_of_kept hpeeks' (readInt_sep hsep _) hzero).trans ?_
          exact congrArg _ (readIds_failed keep _ _)
        · rw [if_neg hzero]
          rw [Bool.not_eq_true] at hzero
          refine (readIds_of_skipped hpeeks' (readInt_sep hsep _) hzero).trans ?_
          exact readIds_failed keep _ _
    · simp only [List.isEmpty_cons, ne_eq, hfits, not_false_eq_true, decide_true, false_and, if_false] at hread ⊢
      refine ⟨⟨sep :: joined sep (m :: l), false, true⟩, ?_, ?_⟩
      · by_cases hkeep : keep (clamp n.val) = true
        · rw [readIds_of_kept hpeeks hread hkeep, if_pos hkeep]
          exact congrArg _ (readIds_failed keep _ _)
        · rw [Bool.not_eq_true] at hkeep
          rw [readIds_of_skipped hpeeks hread hkeep, if_neg (by simp [hkeep])]
          exact readIds_failed keep _ _
      · refine iff_of_false (by simp) ?_
        split <;> simp

/-! ### Lists that are read to the end -/

theorem clamp_eq_iff {v : ℤ} : clamp v = v ↔ INT_MIN ≤ v ∧ v ≤ INT_MAX := by
  unfold clamp INT_MIN INT_MAX
  omega

theorem clamp_le (v : ℤ) : clamp v ≤ INT_MAX := max_le (by decide) (min_le_right _ _)

theorem clamp_of_ge {v : ℤ} (h : INT_MAX ≤ v) : clamp v = INT_MAX := by
  rw [clamp, min_eq_right h]
  decide

theorem clamp_lt {v : ℤ} (h : v < INT_MAX) : clamp v < INT_MAX := max_lt (by decide) (min_lt_of_left_lt h)

theorem clamp_of_nonneg {v : ℤ} (h : 0 ≤ v) (hle : v ≤ INT_MAX) : clamp v = v :=
  clamp_eq_iff.mpr ⟨le_trans (by decide) h, hle⟩

theorem clamp_of_clamp_nonneg {v : ℤ} (h : 0 ≤ clamp v) (hle : v ≤ INT_MAX) : clamp v = v := by
  unfold clamp INT_MIN at *
  omega

theorem taken_complete_iff (keep : ℤ → Bool) : ∀ ns : List Numeral,
    (taken keep ns).2 = true ↔ ∀ n ∈ ns.dropLast, keep n.val = true ∧ clamp n.val = n.val
  | [] => iff_of_true rfl (by simp)
  | [n] => iff_of_true rfl (by simp)
  | n :: m :: l => by
    have ih := taken_complete_iff keep (m :: l)
    rw [taken, List.dropLast_cons_cons, List.forall_mem_cons, ← ih]
    by_cases hfits : clamp n.val = n.val
    · by_cases hkeep : keep n.val = true <;> simp [hfits, hkeep]
    · by_cases hkeep : keep (clamp n.val) = true <;> simp [hfits, hkeep]

theorem taken_of_complete (keep : ℤ → Bool) : ∀ ns : List Numeral, (taken keep ns).2 = true →
    (taken keep ns).1 = (ns.map fun n => clamp n.val).filter keep
  | [], _ => rfl
  | [n], _ => by
    by_cases hkeep : keep (clamp n.val) = true <;> simp [taken, hkeep]
  | n :: m :: l, h => by
    have hall := (taken_complete_iff keep (n :: m :: l)).mp h
    rw [List.dropLast_cons_cons, List.forall_mem_cons] at hall
    obtain ⟨⟨hkeep, hfits⟩, htail⟩ := hall
    have ih := taken_of_complete keep (m :: l) ((taken_complete_iff keep (m :: l)).mpr htail)
    rw [taken, hfits, if_pos hkeep, if_pos rfl, List.map_cons, hfits, List.filter_cons_of_pos hkeep, ← ih]

/-- The ids of a list that is read to its end. -/
theorem readIds_iff {sep : Char} (hsep : IsSep sep) (keep : ℤ → Bool) (ns : List Numeral) :
    ∃ l s, readIds keep (.open' (joined sep ns)) = some (l, s) ∧
      (s.rest = [] ↔ ∀ n ∈ ns.dropLast, keep n.val = true ∧ clamp n.val = n.val) ∧
      (s.rest = [] → l = (ns.map fun n => clamp n.val).filter keep) := by
  obtain ⟨s, hread, hrest⟩ := readIds_joined hsep keep ns
  exact ⟨(taken keep ns).1, s, hread, hrest.trans (taken_complete_iff keep ns),
    fun h => taken_of_complete keep ns (hrest.mp h)⟩

/-! ### The flags -/

theorem foldl_max_iff (l : List ℤ) {m b : ℤ} : l.foldl max m < b ↔ m < b ∧ ∀ v ∈ l, v < b := by
  induction l generalizing m with
  | nil => simp
  | cons v l ih => rw [List.foldl_cons, ih, max_lt_iff, List.forall_mem_cons, and_assoc]

theorem setAll_iff (l : List ℤ) (flags : List Bool) (c : ℕ) :
    (l.foldl (fun flags cid => flags.set cid.toNat true) flags)[c]? = some true ↔
      flags[c]? = some true ∨ c < flags.length ∧ ∃ v ∈ l, v.toNat = c := by
  induction l generalizing flags with
  | nil => simp
  | cons v l ih =>
    rw [List.foldl_cons, ih, List.length_set, List.getElem?_set]
    by_cases hv : v.toNat = c
    · by_cases hc : c < flags.length
      · simp [hv, hc]
      · simp [hv, hc]
    · simp [hv]

theorem insertAll_iff (l : List ℤ) (ids : Finset ℕ) (c : ℕ) :
    c ∈ l.foldl (fun ids classId => insert (classId % 2 ^ 32).toNat ids) ids ↔
      c ∈ ids ∨ ∃ v ∈ l, (v % 2 ^ 32).toNat = c := by
  induction l generalizing ids with
  | nil => simp
  | cons v l ih =>
    rw [List.foldl_cons, ih, Finset.mem_insert, List.exists_mem_cons_iff, or_comm (a := c = _), or_assoc, eq_comm]

/-! ### Setting the properties -/

/-- The flags that are set are those of the listed ids, and the text is read to its end. -/
def OperateOk (ns : List Numeral) : Prop :=
  ∃ r, operateOnClassIds (joined ':' ns) = some r ∧ r.2.rest = [] ∧
    ∀ c : ℕ, r.1[c]? = some true ↔ ∃ n ∈ ns, n.val = c

def FilterOk (ns : List Numeral) : Prop :=
  ∃ r, filterOutClassIds (joined ';' ns) = some r ∧ r.2.rest = [] ∧
    ∀ c : ℕ, c ∈ r.1 ↔ ∃ n ∈ ns, n.val = c

theorem isSep_colon : IsSep ':' := by
  unfold IsSep
  decide

theorem isSep_semicolon : IsSep ';' := by
  unfold IsSep
  decide

theorem operates_iff (ns : List Numeral) :
    OperateOk ns ↔ (∀ n ∈ ns.dropLast, 0 ≤ n.val) ∧ ∀ n ∈ ns, n.val < INT_MAX := by
  obtain ⟨l, s, hread, hrest, hl⟩ := readIds_iff isSep_colon (fun classId => !decide (classId < 0)) ns
  have hmem : s.rest = [] → ∀ v, v ∈ l ↔ (∃ n ∈ ns, clamp n.val = v) ∧ 0 ≤ v := fun h v => by
    rw [hl h, List.mem_filter, List.mem_map]
    simp
  simp only [OperateOk, operateOnClassIds, hread, Option.bind_some]
  constructor
  · rintro ⟨r, hr, hend, -⟩
    split at hr
    · cases hr
    rename_i hmax
    cases hr
    have hle : l.foldl max (-1) < INT_MAX + 1 := by
      refine (foldl_max_iff l).mpr ⟨by decide, fun v hv => ?_⟩
      obtain ⟨⟨n, -, rfl⟩, -⟩ := (hmem hend v).mp hv
      exact Int.lt_add_one_of_le (clamp_le _)
    have hlt : ∀ v ∈ l, v < INT_MAX :=
      ((foldl_max_iff l).mp (lt_of_le_of_ne (Int.lt_add_one_iff.mp hle) hmax)).2
    refine ⟨fun n hn => by simpa using (hrest.mp hend n hn).1, fun n hn => ?_⟩
    by_contra hbig
    have hclamp : clamp n.val = INT_MAX := clamp_of_ge (not_lt.mp hbig)
    exact lt_irrefl _ (hlt _ ((hmem hend _).mpr ⟨⟨n, hn, hclamp⟩, by decide⟩))
  · rintro ⟨hpos, hlt⟩
    have hend : s.rest = [] := hrest.mpr fun n hn =>
      ⟨by simpa using hpos n hn, clamp_of_nonneg (hpos n hn) (hlt n (List.mem_of_mem_dropLast hn)).le⟩
    have hmax : l.foldl max (-1) < INT_MAX := by
      refine (foldl_max_iff l).mpr ⟨by decide, fun v hv => ?_⟩
      obtain ⟨⟨n, hn, rfl⟩, -⟩ := (hmem hend v).mp hv
      exact clamp_lt (hlt n hn)
    rw [if_neg hmax.ne]
    refine ⟨_, rfl, hend, fun c => ?_⟩
    rw [setAll_iff, List.length_replicate]
    constructor
    · rintro (hfalse | ⟨-, v, hv, rfl⟩)
      · simp [List.getElem?_replicate] at hfalse
      obtain ⟨⟨n, hn, rfl⟩, hv⟩ := (hmem hend v).mp hv
      exact ⟨n, hn, by rw [Int.toNat_of_nonneg hv, clamp_of_clamp_nonneg hv (hlt n hn).le]⟩
    · rintro ⟨n, hn, hc⟩
      have hv : (c : ℤ) ∈ l :=
        (hmem hend c).mpr ⟨⟨n, hn, by rw [clamp_of_nonneg (by omega) (hlt n hn).le, hc]⟩, Int.natCast_nonneg c⟩
      have hle := ((foldl_max_iff l).mp (Int.lt_add_one_of_le (le_refl (l.foldl max (-1))))).2 c hv
      exact .inr ⟨by omega, c, hv, Int.toNat_natCast c⟩

/-- The lists that `filter-out-class-ids` takes: no id is negative or past the range of
an `int`; or the last is, and what is kept for it and for the negative ids, which are the
same, are ids of the list. -/
def FilterCond (ns : List Numeral) : Prop :=
  (∀ n ∈ ns, 0 ≤ n.val ∧ n.val ≤ INT_MAX) ∨
    ∃ l k, ns = l ++ [k] ∧ INT_MAX < k.val ∧ k.val < 2 ^ 32 ∧ (∃ n ∈ l, n.val = INT_MAX) ∧
      (∃ n ∈ l, n.val = k.val - 2 ^ 32) ∧ ∀ n ∈ l, n.val = k.val - 2 ^ 32 ∨ 0 ≤ n.val ∧ n.val ≤ INT_MAX

/-- What is kept for an id. -/
def stored (v : ℤ) : ℕ := (clamp v % 2 ^ 32).toNat

theorem stored_of_nonneg {v : ℤ} (h : 0 ≤ v) (hle : v ≤ INT_MAX) : (stored v : ℤ) = v := by
  unfold stored
  rw [clamp_of_nonneg h hle]
  unfold INT_MAX at hle
  omega

theorem stored_of_neg {v : ℤ} (h : v < 0) (hge : INT_MIN ≤ v) : (stored v : ℤ) = v + 2 ^ 32 := by
  unfold stored
  rw [clamp_eq_iff.mpr ⟨hge, h.le.trans (by decide)⟩]
  unfold INT_MIN at hge
  omega

theorem stored_of_gt {v : ℤ} (h : INT_MAX ≤ v) : (stored v : ℤ) = INT_MAX := by
  unfold stored
  rw [clamp_of_ge h]
  decide

theorem INT_MAX_lt_stored {v : ℤ} (h : v < 0) : INT_MAX < stored v := by
  unfold stored clamp INT_MIN INT_MAX
  omega

/-- A list whose ids are kept as they are is one that the property takes. -/
theorem filterCond_of_set {l : List Numeral} {k : Numeral} (hfits : ∀ n ∈ l, clamp n.val = n.val)
    (hset : ∀ c : ℕ, (∃ n ∈ l, stored n.val = c) ∨ stored k.val = c ↔ (∃ n ∈ l, n.val = c) ∨ k.val = c) :
    FilterCond (l ++ [k]) := by
  have hrange : ∀ n ∈ l, INT_MIN ≤ n.val ∧ n.val ≤ INT_MAX := fun n hn => clamp_eq_iff.mp (hfits n hn)
  -- a negative id is kept as one past the range, and only the last can be that
  have hneg : ∀ n ∈ l, n.val < 0 → k.val = n.val + 2 ^ 32 := fun n hn h => by
    have hbig := INT_MAX_lt_stored h
    have hval := stored_of_neg h (hrange n hn).1
    rcases (hset (stored n.val)).mp (.inl ⟨n, hn, rfl⟩) with ⟨m, hm, heq⟩ | heq
    · exact absurd (hrange m hm).2 (by omega)
    · exact heq.trans hval
  by_cases hk : INT_MAX < k.val
  · have hlast := stored_of_gt hk.le
    have hkpos : (k.val.toNat : ℤ) = k.val := Int.toNat_of_nonneg (le_trans (by decide) hk.le)
    obtain ⟨m, hm, heq⟩ : ∃ n ∈ l, stored n.val = k.val.toNat := by
      rcases (hset k.val.toNat).mpr (.inr hkpos.symm) with h | h
      · exact h
      · exact absurd hk (by omega)
    have hm0 : m.val < 0 := by
      by_contra hpos
      have hval := stored_of_nonneg (not_lt.mp hpos) (hrange m hm).2
      have hle := (hrange m hm).2
      omega
    have hkm := hneg m hm hm0
    refine .inr ⟨l, k, rfl, hk, by omega, ?_, ⟨m, hm, by omega⟩, fun n hn => ?_⟩
    · rcases (hset (stored k.val)).mp (.inr rfl) with ⟨n, hn, h⟩ | h
      · exact ⟨n, hn, h.trans hlast⟩
      · exact absurd hk (by omega)
    · rcases lt_or_ge n.val 0 with h | h
      · exact .inl (by have := hneg n hn h; omega)
      · exact .inr ⟨h, (hrange n hn).2⟩
  · rw [not_lt] at hk
    refine .inl fun n hn => ?_
    rw [List.mem_append, List.mem_singleton] at hn
    rcases hn with hn | rfl
    · refine ⟨?_, (hrange n hn).2⟩
      by_contra h
      have := hneg n hn (not_le.mp h)
      have := (hrange n hn).1
      unfold INT_MAX at hk
      unfold INT_MIN at this
      omega
    · refine ⟨?_, hk⟩
      by_contra h
      have hbig := INT_MAX_lt_stored (not_le.mp h)
      rcases (hset (stored n.val)).mp (.inr rfl) with ⟨m, hm, heq⟩ | heq
      · exact absurd (hrange m hm).2 (by omega)
      · exact absurd hk (by omega)

theorem filters_iff (ns : List Numeral) : FilterOk ns ↔ FilterCond ns := by
  obtain ⟨l, s, hread, hrest, hl⟩ := readIds_iff isSep_semicolon (fun _ => true) ns
  have hok : FilterOk ns ↔ (∀ n ∈ ns.dropLast, clamp n.val = n.val) ∧
      ∀ c : ℕ, (∃ n ∈ ns, stored n.val = c) ↔ ∃ n ∈ ns, n.val = c := by
    simp only [FilterOk, filterOutClassIds, hread, Option.map_some, Option.some.injEq, exists_eq_left']
    simp only [true_and] at hrest
    rw [hrest]
    refine and_congr_right fun hend => ?_
    refine forall_congr' fun c => ?_
    rw [insertAll_iff, hl (hrest.mpr hend)]
    simp only [Finset.notMem_empty, false_or, List.filter_true, List.mem_map, exists_exists_and_eq_and]
    rfl
  rw [hok]
  constructor
  · rintro ⟨hfits, hset⟩
    rcases List.eq_nil_or_concat' ns with rfl | ⟨l, k, rfl⟩
    · exact .inl (by simp)
    exact filterCond_of_set (by simpa using hfits) (by simpa [or_and_right, exists_or] using hset)
  · rintro (hall | ⟨l, k, rfl, hk, hk', hmax, hneg, hall⟩)
    · refine ⟨fun n hn => ?_, fun c => ?_⟩
      · obtain ⟨hpos, hle⟩ := hall n (List.mem_of_mem_dropLast hn)
        exact clamp_of_nonneg hpos hle
      · refine exists_congr fun n => and_congr_right fun hn => ?_
        obtain ⟨hpos, hle⟩ := hall n hn
        have := stored_of_nonneg hpos hle
        omega
    · have hlast := stored_of_gt hk.le
      have hin : ∀ n ∈ l, n.val = k.val - 2 ^ 32 → (stored n.val : ℤ) = k.val := fun n _ h => by
        have := stored_of_neg (v := n.val) (by omega) (by unfold INT_MAX at hk; unfold INT_MIN; omega)
        omega
      refine ⟨fun n hn => ?_, fun c => ?_⟩
      · rw [List.dropLast_concat] at hn
        rcases hall n hn with h | ⟨h, hle⟩
        · exact clamp_eq_iff.mpr (by unfold INT_MAX at hk ⊢; unfold INT_MIN; omega)
        · exact clamp_of_nonneg h hle
      · simp only [List.mem_append, List.mem_singleton, or_and_right, exists_or, exists_eq_left]
        constructor
        · rintro (⟨n, hn, rfl⟩ | rfl)
          · rcases hall n hn with h | ⟨h, hle⟩
            · exact .inr (hin n hn h).symm
            · exact .inl ⟨n, hn, (stored_of_nonneg h hle).symm⟩
          · obtain ⟨n, hn, h⟩ := hmax
            exact .inl ⟨n, hn, h.trans hlast.symm⟩
        · rintro (⟨n, hn, h⟩ | h)
          · rcases hall n hn with hn' | ⟨hpos, hle⟩
            · omega
            · have := stored_of_nonneg hpos hle
              exact .inl ⟨n, hn, by omega⟩
          · obtain ⟨n, hn, hn'⟩ := hneg
            have := hin n hn hn'
            exact .inl ⟨n, hn, by omega⟩

/-- A list sets the flags of its ids and is read to its end just where no id but the last
is negative, for `operate-on-class-ids`, and none is, for `filter-out-class-ids`, and
all ids are in the range of an `int`, but for the lists that `FilterCond` names. -/
theorem classIds_iff (ns : List Numeral) :
    (OperateOk ns ↔ (∀ n ∈ ns.dropLast, 0 ≤ n.val) ∧ ∀ n ∈ ns, n.val < INT_MAX) ∧ (FilterOk ns ↔ FilterCond ns) :=
  ⟨operates_iff ns, filters_iff ns⟩

/-- `-1:5`. -/
def minusOneFive : List Numeral :=
  [⟨some true, ['1'], by decide, List.forall_mem_singleton.mpr rfl⟩, ⟨none, ['5'], by decide, List.forall_mem_singleton.mpr rfl⟩]

/-- The separator behind `-1` is read as the id 0, and `5` is lost. -/
theorem classIds_skipped :
    joined ':' minusOneFive = "-1:5".toList ∧
      (∃ s, operateOnClassIds (joined ':' minusOneFive) = some ([true], s) ∧ s.rest ≠ []) ∧ ¬ OperateOk minusOneFive := by
  obtain ⟨s, hread, hrest⟩ := readIds_joined isSep_colon (fun classId => !decide (classId < 0)) minusOneFive
  have htaken : taken (fun classId => !decide (classId < 0)) minusOneFive = ([0], false) := by decide
  rw [htaken] at hread hrest
  have hset : operateOnClassIds (joined ':' minusOneFive) = some ([true], s) := by
    rw [operateOnClassIds, hread]
    rfl
  have hrest' : s.rest ≠ [] := fun h => Bool.false_ne_true (hrest.mp h)
  refine ⟨by decide, ⟨s, hset, hrest'⟩, ?_⟩
  rintro ⟨r, hr, hend, -⟩
  rw [hset] at hr
  cases hr
  exact hrest' hend

end NvInfer
end DeepStream
