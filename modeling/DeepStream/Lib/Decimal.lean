/-
# Decimal numerals

A numeral is a list of digits that is not empty. `readDigits` takes the digits at the
front of a text, as `strtoull` and the streams do. A stream reads an `int` behind white
space and a sign, and fails where it does not fit; it prints a number without either.
-/
import Mathlib.Data.List.Basic
import Mathlib.Data.List.TakeWhile
import Mathlib.Tactic.NormNum

namespace DeepStream

/-- The value of a list of digits. -/
def digitsVal (l : List Char) : ℕ := l.foldl (fun v c => 10 * v + (c.toNat - '0'.toNat)) 0

structure Digits where
  chars : List Char
  ne_nil : chars ≠ []
  isDigit : ∀ c ∈ chars, c.isDigit = true

def Digits.val (d : Digits) : ℕ := digitsVal d.chars

/-- The value of the digits at the front, and what is behind them. -/
def readDigits (l : List Char) : Option (ℕ × List Char) :=
  if l.takeWhile Char.isDigit = [] then none
  else some (digitsVal (l.takeWhile Char.isDigit), l.dropWhile Char.isDigit)

/-- White space, which is skipped before a number. -/
def isSpace (c : Char) : Bool := c = ' ' || decide (9 ≤ c.toNat ∧ c.toNat ≤ 13)

/-- What `strtoull` finds: a number that fits 64 bits, one that does not, or none. -/
inductive Conversion where
  | value (v : ℕ) | outOfRange | invalid
  deriving DecidableEq, Repr

/-- A number with a minus is negated in 64 bits. -/
def strtoull (text : List Char) : Conversion :=
  let text := text.dropWhile isSpace
  let negative := text.head? == some '-'
  match readDigits (if negative || text.head? == some '+' then text.tail else text) with
  | none => .invalid
  | some (v, _) =>
    if 2 ^ 64 ≤ v then .outOfRange
    else .value (if negative then (2 ^ 64 - v) % 2 ^ 64 else v)

theorem isDigit_facts {c : Char} (h : c.isDigit = true) : isSpace c = false ∧ c ≠ '-' ∧ c ≠ '+' := by
  have hrange : 48 ≤ c.toNat ∧ c.toNat ≤ 57 := by
    simpa [Char.isDigit, UInt32.le_iff_toNat_le] using h
  refine ⟨?_, ?_, ?_⟩
  · have hspace : c ≠ ' ' := by
      rintro rfl
      exact absurd h (by decide)
    simp only [isSpace, hspace, decide_false, Bool.false_or, decide_eq_false_iff_not]
    omega
  · rintro rfl
    exact absurd h (by decide)
  · rintro rfl
    exact absurd h (by decide)

theorem readDigits_append (d : Digits) (tail : List Char) (h : ∀ c ∈ tail.head?, c.isDigit = false) :
    readDigits (d.chars ++ tail) = some (d.val, tail) := by
  have htail : tail.takeWhile Char.isDigit = [] ∧ tail.dropWhile Char.isDigit = tail := by
    cases tail with
    | nil => exact ⟨rfl, rfl⟩
    | cons c tail =>
      have hc := h c rfl
      exact ⟨List.takeWhile_cons_of_neg (by simp [hc]), List.dropWhile_cons_of_neg (by simp [hc])⟩
  unfold readDigits
  rw [List.takeWhile_append_of_pos d.isDigit, List.dropWhile_append_of_pos d.isDigit, htail.1, htail.2,
    List.append_nil, if_neg d.ne_nil]
  rfl

theorem length_of_readDigits {l : List Char} (v : ℕ) (rest : List Char) (h : readDigits l = some (v, rest)) :
    rest.length < l.length := by
  unfold readDigits at h
  split at h
  · cases h
  · rename_i hne
    cases h
    have hlen := congrArg List.length (List.takeWhile_append_dropWhile (p := Char.isDigit) (l := l))
    rw [List.length_append] at hlen
    have := List.length_pos_iff.mpr hne
    omega

/-- A number without a sign. -/
theorem strtoull_digits (d : Digits) : strtoull d.chars = if 2 ^ 64 ≤ d.val then .outOfRange else .value d.val := by
  obtain ⟨c, l, hcl⟩ := List.exists_cons_of_ne_nil d.ne_nil
  obtain ⟨hspace, hminus, hplus⟩ := isDigit_facts (d.isDigit c (by simp [hcl]))
  have hdrop : d.chars.dropWhile isSpace = d.chars := by
    rw [hcl, List.dropWhile_cons_of_neg (by simp [hspace])]
  have hhead : d.chars.head? = some c := by rw [hcl]; rfl
  have hread := readDigits_append d [] (by simp)
  rw [List.append_nil] at hread
  simp [strtoull, hdrop, hhead, hminus, hplus, hread]

/-! ### Streams -/

def signed (negative : Bool) (v : ℕ) : ℤ := if negative then -v else v

/-- The number with its sign, if it is an `int`. -/
def signedInt (negative : Bool) (number : ℕ × List Char) : Option (ℤ × List Char) :=
  if -2 ^ 31 ≤ signed negative number.1 ∧ signed negative number.1 < 2 ^ 31 then
    some (signed negative number.1, number.2)
  else none

/-- Whether there is a minus, and the text behind the sign. -/
def skipSign : List Char → Bool × List Char
  | [] => (false, [])
  | c :: l => if c = '-' then (true, l) else if c = '+' then (false, l) else (false, c :: l)

/-- `>>` into an `int`: the value, and what is left in the stream. -/
def streamInt (text : List Char) : Option (ℤ × List Char) :=
  let signed := skipSign (text.dropWhile isSpace)
  (readDigits signed.2).bind (signedInt signed.1)

/-- A character that no number begins or goes on with. -/
structure EndsNumber (c : Char) : Prop where
  space : isSpace c = false
  minus : c ≠ '-'
  plus : c ≠ '+'
  digit : c.isDigit = false

theorem dropWhile_append_cons {f : Char → Bool} {c : Char} (hc : f c = false) (p l : List Char) :
    (p ++ c :: l).dropWhile f = p.dropWhile f ++ c :: l := by
  rw [List.dropWhile_append]
  cases hp : p.dropWhile f with
  | nil => exact List.dropWhile_cons_of_neg (by simp [hc])
  | cons a q => rfl

theorem takeWhile_append_cons {f : Char → Bool} {c : Char} (hc : f c = false) (p l : List Char) :
    (p ++ c :: l).takeWhile f = p.takeWhile f := by
  rw [List.takeWhile_append, List.takeWhile_cons_of_neg (by simp [hc]), List.append_nil]
  split
  · rename_i hlen
    exact ((List.takeWhile_sublist f).eq_of_length hlen).symm
  · rfl

/-- A number ends before such a character. -/
theorem readDigits_append_cons {c : Char} (hc : c.isDigit = false) (p l : List Char) :
    readDigits (p ++ c :: l) = (readDigits p).map fun vr => (vr.1, vr.2 ++ c :: l) := by
  unfold readDigits
  rw [takeWhile_append_cons hc, dropWhile_append_cons hc]
  split <;> rfl

theorem skipSign_append_cons {c : Char} (hminus : c ≠ '-') (hplus : c ≠ '+') (p l : List Char) :
    skipSign (p ++ c :: l) = ((skipSign p).1, (skipSign p).2 ++ c :: l) := by
  cases p with
  | nil =>
    show skipSign (c :: l) = (false, c :: l)
    rw [skipSign, if_neg hminus, if_neg hplus]
  | cons a p =>
    rw [List.cons_append, skipSign, skipSign]
    split
    · rfl
    · split <;> rfl

theorem signedInt_eq_some {negative : Bool} {number : ℕ × List Char} {vr : ℤ × List Char} :
    signedInt negative number = some vr ↔ vr.1 = signed negative number.1 ∧ vr.2 = number.2 ∧
      -2 ^ 31 ≤ vr.1 ∧ vr.1 < 2 ^ 31 := by
  obtain ⟨v, rest⟩ := vr
  unfold signedInt
  constructor
  · intro h
    split at h
    · rename_i hrange
      obtain ⟨rfl, rfl⟩ := Prod.mk.inj (Option.some.inj h)
      exact ⟨rfl, rfl, hrange⟩
    · cases h
  · rintro ⟨rfl, rfl, hrange⟩
    exact if_pos hrange

theorem streamInt_append {c : Char} (hc : EndsNumber c) (p l : List Char) :
    streamInt (p ++ c :: l) = (streamInt p).map fun vr => (vr.1, vr.2 ++ c :: l) := by
  unfold streamInt
  rw [dropWhile_append_cons hc.space, skipSign_append_cons hc.minus hc.plus]
  dsimp only
  rw [readDigits_append_cons hc.digit]
  cases readDigits (skipSign (p.dropWhile isSpace)).2 with
  | none => rfl
  | some number =>
    refine Option.ext fun vr => ?_
    rw [Option.map_some, Option.bind_some, Option.bind_some, Option.map_eq_some_iff, signedInt_eq_some]
    constructor
    · rintro ⟨hv, hr, hrange⟩
      exact ⟨(vr.1, number.2), signedInt_eq_some.mpr ⟨hv, rfl, hrange⟩, Prod.ext rfl hr.symm⟩
    · rintro ⟨vr', hsigned, rfl⟩
      obtain ⟨hv, hr, hrange⟩ := signedInt_eq_some.mp hsigned
      exact ⟨hv, by rw [hr], hrange⟩

/-- The text is the number `n`, behind white space and a sign. -/
def IntText (text : List Char) (n : ℕ) : Prop :=
  ∃ (spaces sign : List Char) (digits : Digits), text = spaces ++ sign ++ digits.chars ∧ (∀ c ∈ spaces, isSpace c = true) ∧
    (sign = [] ∨ sign = ['+'] ∨ sign = ['-'] ∧ n = 0) ∧ digits.val = n ∧ n < 2 ^ 31

theorem readDigits_eq_some {l rest : List Char} {v : ℕ} (h : readDigits l = some (v, rest)) :
    ∃ d : Digits, l = d.chars ++ rest ∧ d.val = v := by
  unfold readDigits at h
  split at h
  · cases h
  · rename_i hne
    obtain ⟨rfl, rfl⟩ := Prod.mk.inj (Option.some.inj h)
    exact ⟨⟨_, hne, fun _ hc => List.mem_takeWhile_imp hc⟩, (List.takeWhile_append_dropWhile).symm, rfl⟩

theorem skipSign_cases (l : List Char) : ∃ sign, l = sign ++ (skipSign l).2 ∧
    ((sign = [] ∨ sign = ['+']) ∧ (skipSign l).1 = false ∨ sign = ['-'] ∧ (skipSign l).1 = true) := by
  cases l with
  | nil => exact ⟨[], rfl, .inl ⟨.inl rfl, rfl⟩⟩
  | cons c l =>
    rw [skipSign]
    split
    · rename_i hc
      exact ⟨['-'], by rw [hc]; rfl, .inr ⟨rfl, rfl⟩⟩
    · split
      · rename_i hc
        exact ⟨['+'], by rw [hc]; rfl, .inl ⟨.inr rfl, rfl⟩⟩
      · exact ⟨[], rfl, .inl ⟨.inl rfl, rfl⟩⟩

/-- A stream takes at least one character for a number. -/
theorem streamInt_eq_some_append {l rest : List Char} {v : ℤ} (h : streamInt l = some (v, rest)) :
    ∃ p, p ≠ [] ∧ l = p ++ rest := by
  obtain ⟨⟨w, rest'⟩, hread, hsigned⟩ := Option.bind_eq_some_iff.mp h
  obtain ⟨-, rfl, -⟩ := signedInt_eq_some.mp hsigned
  obtain ⟨digits, hdigits, -⟩ := readDigits_eq_some hread
  obtain ⟨sign, hsign, -⟩ := skipSign_cases (l.dropWhile isSpace)
  refine ⟨l.takeWhile isSpace ++ sign ++ digits.chars, ?_, ?_⟩
  · exact List.append_ne_nil_of_right_ne_nil _ digits.ne_nil
  · calc l = l.takeWhile isSpace ++ l.dropWhile isSpace := List.takeWhile_append_dropWhile.symm
      _ = l.takeWhile isSpace ++ (sign ++ (digits.chars ++ rest)) := by rw [← hdigits, ← hsign]
      _ = l.takeWhile isSpace ++ sign ++ digits.chars ++ rest := by simp only [List.append_assoc]

theorem skipSign_digits (d : Digits) : skipSign d.chars = (false, d.chars) := by
  obtain ⟨c, l, hcl⟩ := List.exists_cons_of_ne_nil d.ne_nil
  obtain ⟨-, hminus, hplus⟩ := isDigit_facts (d.isDigit c (by simp [hcl]))
  rw [hcl, skipSign, if_neg hminus, if_neg hplus]

theorem dropWhile_isSpace_digits (d : Digits) : d.chars.dropWhile isSpace = d.chars := by
  obtain ⟨c, l, hcl⟩ := List.exists_cons_of_ne_nil d.ne_nil
  obtain ⟨hspace, -, -⟩ := isDigit_facts (d.isDigit c (by simp [hcl]))
  rw [hcl, List.dropWhile_cons_of_neg (by simp [hspace])]

theorem readDigits_digits (d : Digits) : readDigits d.chars = some (d.val, []) := by
  have h := readDigits_append d [] (by simp)
  rwa [List.append_nil] at h

/-- What a stream reads to its end as a number that is not negative. -/
theorem streamInt_eq_iff {text : List Char} {n : ℕ} : streamInt text = some ((n : ℤ), []) ↔ IntText text n := by
  constructor
  · intro h
    obtain ⟨⟨v, rest⟩, hread, hsigned⟩ := Option.bind_eq_some_iff.mp h
    obtain ⟨hv, hrest, -, hlt⟩ := signedInt_eq_some.mp hsigned
    obtain ⟨digits, hdigits, rfl⟩ := readDigits_eq_some hread
    obtain ⟨sign, htext, hsign⟩ := skipSign_cases (text.dropWhile isSpace)
    rw [← show [] = rest from hrest, List.append_nil] at hdigits
    rw [hdigits] at htext
    have hv : (n : ℤ) = signed (skipSign (text.dropWhile isSpace)).1 digits.val := hv
    have hn : n < 2 ^ 31 := by
      have hlt : (n : ℤ) < 2 ^ 31 := hlt
      omega
    refine ⟨text.takeWhile isSpace, sign, digits, ?_, fun _ hc => List.mem_takeWhile_imp hc, ?_⟩
    · rw [List.append_assoc, ← htext, List.takeWhile_append_dropWhile]
    · rcases hsign with ⟨hsign, hpos⟩ | ⟨hsign, hneg⟩
      · rw [hpos] at hv
        exact ⟨hsign.imp_right .inl, (Int.ofNat_inj.mp hv).symm, hn⟩
      · -- a number that is not negative behind a minus is zero
        rw [hneg] at hv
        have hv : (n : ℤ) = -(digits.val : ℤ) := hv
        exact ⟨.inr (.inr ⟨hsign, by omega⟩), by omega, hn⟩
  · rintro ⟨spaces, sign, digits, rfl, hspaces, hsign, rfl, hlt⟩
    have hdrop : (spaces ++ sign ++ digits.chars).dropWhile isSpace = sign ++ digits.chars := by
      rw [List.append_assoc, List.dropWhile_append_of_pos hspaces]
      rcases hsign with rfl | rfl | ⟨rfl, -⟩
      · exact dropWhile_isSpace_digits digits
      · rfl
      · rfl
    have hskip : ∃ negative, skipSign (sign ++ digits.chars) = (negative, digits.chars) ∧
        signed negative digits.val = digits.val := by
      rcases hsign with rfl | rfl | ⟨rfl, hzero⟩
      · exact ⟨false, skipSign_digits digits, rfl⟩
      · exact ⟨false, rfl, rfl⟩
      · exact ⟨true, rfl, by rw [hzero]; rfl⟩
    obtain ⟨negative, hskip, hsigned⟩ := hskip
    unfold streamInt
    rw [hdrop, hskip]
    dsimp only
    rw [readDigits_digits, Option.bind_some]
    refine signedInt_eq_some.mpr ⟨hsigned.symm, rfl, ?_, ?_⟩
    · show -2 ^ 31 ≤ (digits.val : ℤ)
      omega
    · show (digits.val : ℤ) < 2 ^ 31
      omega

theorem IntText.lt {text : List Char} {n : ℕ} (h : IntText text n) : n < 2 ^ 31 := by
  obtain ⟨_, _, _, -, -, -, -, hlt⟩ := h
  exact hlt

/-- A number as it is printed. -/
def printed (n : ℕ) : Digits where
  chars := Nat.toDigits 10 n
  ne_nil := Nat.toDigits_ne_nil
  isDigit := fun _ hc => Nat.isDigit_of_mem_toDigits (by decide) (by decide) hc

theorem printed_val (n : ℕ) : (printed n).val = n := by
  have h := Nat.ofDigitChars_ten_toDigits (n := n)
  rw [Nat.ofDigitChars_eq_foldl] at h
  exact h

theorem intText_printed {n : ℕ} (h : n < 2 ^ 31) : IntText (printed n).chars n :=
  ⟨[], [], printed n, rfl, fun _ hc => absurd hc List.not_mem_nil, .inl rfl, printed_val n, h⟩

end DeepStream
