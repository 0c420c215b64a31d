/-
# The lists of a group of the message converter's configuration

Of a list of three, the key file takes a separator at its end and YAML does not; the key file
wants each part to be a number, YAML that it begins with one. The loop over the keys of a group
fails at the first list that is not read, and at nothing else.
-/
import DeepStream.Lib.Folds
import DeepStream.MsgConv.Schema

namespace DeepStream
namespace MsgConv
namespace Schema

variable {Double : Type} (r : Readers Double)

/-! ### Lists of three -/

theorem positions_of_notMem {p : List Char} (hp : ';' ∉ p) (i : ℕ) : positions i p = [] := by
  induction p generalizing i with
  | nil => rfl
  | cons c p ih =>
    rw [List.mem_cons, not_or] at hp
    rw [positions, if_neg (Ne.symm hp.1), ih hp.2]

theorem positions_append {p : List Char} (hp : ';' ∉ p) (rest : List Char) (i : ℕ) :
    positions i (p ++ ';' :: rest) = (i + p.length) :: positions (i + p.length + 1) rest := by
  induction p generalizing i with
  | nil => rfl
  | cons c p ih =>
    rw [List.mem_cons, not_or] at hp
    rw [List.cons_append, positions, if_neg (Ne.symm hp.1), ih hp.2, List.length_cons,
      show i + 1 + p.length = i + (p.length + 1) by omega]

/-- What the second loop takes of an input from `front` on. -/
def partsFrom (front input : List Char) : List (List Char) :=
  substrings (front ++ input) front.length (positions front.length input)

theorem partsFrom_of_notMem (front : List Char) {p : List Char} (hp : ';' ∉ p) : partsFrom front p = [p] := by
  rw [partsFrom, positions_of_notMem hp, substrings, List.drop_left]

theorem partsFrom_append (front : List Char) {p : List Char} (hp : ';' ∉ p) (rest : List Char) :
    partsFrom front (p ++ ';' :: rest) = p :: partsFrom (front ++ p ++ [';']) rest := by
  have hlength : (front ++ p ++ [';']).length = front.length + p.length + 1 := by simp only [List.length_append]; rfl
  have hinput : front ++ (p ++ ';' :: rest) = (front ++ p ++ [';']) ++ rest := by simp
  rw [partsFrom, positions_append hp, substrings, List.drop_left, Nat.add_sub_cancel_left, List.take_left, hinput,
    ← hlength]
  rfl

/-- The parts do not depend on what is in front. -/
theorem partsFrom_eq (front l : List Char) : partsFrom front l = splitString l := by
  induction hn : l.length using Nat.strongRecOn generalizing l front with
  | ind n ih =>
    subst hn
    have hsplit : splitString l = partsFrom [] l := rfl
    rw [hsplit]
    rcases cases_sep ';' l with hl | ⟨p, rest, hp, rfl⟩
    · rw [partsFrom_of_notMem front hl, partsFrom_of_notMem [] hl]
    · have hlt : rest.length < (p ++ ';' :: rest).length := by
        rw [List.length_append, List.length_cons]
        omega
      rw [partsFrom_append front hp, partsFrom_append [] hp, ih _ hlt _ rest rfl, ih _ hlt _ rest rfl]

theorem splitString_of_notMem {p : List Char} (hp : ';' ∉ p) : splitString p = [p] := partsFrom_of_notMem [] hp

theorem splitString_append {p : List Char} (hp : ';' ∉ p) (rest : List Char) :
    splitString (p ++ ';' :: rest) = p :: splitString rest :=
  (partsFrom_append [] hp rest).trans (congrArg (p :: ·) (partsFrom_eq _ rest))

theorem splitString_ne_nil (l : List Char) : splitString l ≠ [] := by
  rcases cases_sep ';' l with hl | ⟨p, rest, hp, rfl⟩
  · rw [splitString_of_notMem hl]
    exact List.cons_ne_nil _ _
  · rw [splitString_append hp]
    exact List.cons_ne_nil _ _

theorem splitString_eq_triple_iff {text a b c : List Char} : splitString text = [a, b, c] ↔ IsTriple text a b c := by
  constructor
  · intro h
    rcases cases_sep ';' text with htext | ⟨p, rest, hp, rfl⟩
    · rw [splitString_of_notMem htext] at h
      cases h
    rw [splitString_append hp, List.cons.injEq] at h
    obtain ⟨rfl, h⟩ := h
    rcases cases_sep ';' rest with hrest | ⟨q, last, hq, rfl⟩
    · rw [splitString_of_notMem hrest] at h
      cases h
    rw [splitString_append hq, List.cons.injEq] at h
    obtain ⟨rfl, h⟩ := h
    rcases cases_sep ';' last with hlast | ⟨s, more, hs, rfl⟩
    · rw [splitString_of_notMem hlast] at h
      cases h
      exact ⟨rfl, hp, hq, hlast⟩
    · rw [splitString_append hs, List.cons.injEq] at h
      exact absurd h.2 (splitString_ne_nil more)
  · rintro ⟨rfl, ha, hb, hc⟩
    rw [splitString_append ha, splitString_append hb, splitString_of_notMem hc]

/-- The parts of a text are one triple. -/
theorem IsTriple.unique {text a b c a' b' c' : List Char} (h : IsTriple text a b c) (h' : IsTriple text a' b' c') :
    a = a' ∧ b = b' ∧ c = c' := by
  have hparts := (splitString_eq_triple_iff.mpr h).symm.trans (splitString_eq_triple_iff.mpr h')
  simpa using hparts

/-- With a separator behind it, a triple has four parts. -/
theorem IsTriple.not_concat {front a b c a' b' c' : List Char} (h : IsTriple front a b c) :
    ¬IsTriple (front ++ [';']) a' b' c' := by
  obtain ⟨rfl, ha, hb, hc⟩ := h
  intro h'
  have hparts := splitString_eq_triple_iff.mpr h'
  rw [List.append_assoc, List.cons_append, List.append_assoc, List.cons_append, splitString_append ha,
    splitString_append hb, splitString_append hc] at hparts
  simp at hparts
  exact splitString_ne_nil [] hparts.2.2.2

/-- The number that is all of a text. -/
theorem bind_strtod_eq_some_iff {text : List Char} {v : Double} :
    ((r.strtod text).bind fun number => if number.rest = [] then some number.value else none) = some v ↔
      ∃ number, r.strtod text = some number ∧ number.rest = [] ∧ number.value = v := by
  rw [Option.bind_eq_some_iff]
  refine exists_congr fun number => and_congr_right fun _ => ?_
  by_cases hrest : number.rest = []
  · simp [hrest]
  · simp [hrest]

theorem stod_eq_ok_iff {text : List Char} {v : Double} :
    stod r text = .ok v ↔ ∃ number, r.strtod text = some number ∧ number.erange = false ∧ number.value = v := by
  unfold stod
  cases r.strtod text with
  | none => simp
  | some number => cases herange : number.erange <;> simp [herange]

theorem stod_cases (text : List Char) :
    (∃ v, stod r text = .ok v ∧ BeginsWithNumber r text) ∨ stod r text = .error .thrown ∧ ¬BeginsWithNumber r text := by
  unfold stod BeginsWithNumber
  cases r.strtod text with
  | none => simp
  | some number => cases herange : number.erange <;> simp [herange]

/-- The list of a key file has three elements. -/
theorem gKeyFileGetDoubleList_eq_iff {text : List Char} {x y z : Double} :
    gKeyFileGetDoubleList r text = some [x, y, z] ↔ ∃ a b c, pieces ';' text = [a, b, c] ∧
      (∃ number, r.strtod a = some number ∧ number.rest = [] ∧ number.value = x) ∧
      (∃ number, r.strtod b = some number ∧ number.rest = [] ∧ number.value = y) ∧
      ∃ number, r.strtod c = some number ∧ number.rest = [] ∧ number.value = z := by
  unfold gKeyFileGetDoubleList
  rw [mapM_eq_some_iff]
  simp only [List.forall₂_cons_right_iff, List.forall₂_nil_right_iff, bind_strtod_eq_some_iff]
  constructor
  · rintro ⟨a, l, ha, ⟨b, l, hb, ⟨c, l, hc, rfl, rfl⟩, rfl⟩, htext⟩
    exact ⟨a, b, c, htext, ha, hb, hc⟩
  · rintro ⟨a, b, c, htext, ha, hb, hc⟩
    exact ⟨a, _, ha, ⟨b, _, hb, ⟨c, _, hc, rfl, rfl⟩, rfl⟩, htext⟩

/-- Three pieces are a triple, with or without a separator behind it. -/
theorem pieces_eq_triple_iff {text a b c : List Char} : pieces ';' text = [a, b, c] ↔
    (c ≠ [] ∧ IsTriple text a b c) ∨ ∃ front, text = front ++ [';'] ∧ IsTriple front a b c := by
  rw [pieces_eq_iff]
  constructor
  · rintro ⟨hparts, htext⟩
    have ha := hparts a (by simp)
    have hb := hparts b (by simp)
    have hc := hparts c (by simp)
    rcases htext with rfl | ⟨front, last, hlast, hfront, rfl⟩
    · refine .inr ⟨a ++ ';' :: (b ++ ';' :: c), ?_, rfl, ha, hb, hc⟩
      simp [terminated]
    · have hab : front = [a, b] ∧ last = c := by
        have hdrop := congrArg List.dropLast hfront
        have hget := congrArg List.getLast? hfront
        simp at hdrop hget
        exact ⟨hdrop.symm, hget.symm⟩
      obtain ⟨rfl, rfl⟩ := hab
      refine .inl ⟨hlast, ?_, ha, hb, hc⟩
      simp [terminated]
  · rintro (⟨hne, rfl, ha, hb, hc⟩ | ⟨front, rfl, rfl, ha, hb, hc⟩)
    · refine ⟨by simp [ha, hb, hc], .inr ⟨[a, b], c, hne, rfl, ?_⟩⟩
      simp [terminated]
    · refine ⟨by simp [ha, hb, hc], .inl ?_⟩
      simp [terminated]

theorem getTriple_eq_ok_iff {text : List Char} {t : Triple Double} :
    getTriple r text = .ok t ↔ gKeyFileGetDoubleList r text = some [t.x, t.y, t.z] := by
  unfold getTriple
  split
  case h_1 x y z hlist =>
    rw [hlist]
    constructor
    · rintro ⟨⟩
      rfl
    · intro h
      cases h
      rfl
  case h_2 hne => exact iff_of_false (fun h => by cases h) fun h => hne _ _ _ h

theorem getTriple_cases (text : List Char) : (∃ t, getTriple r text = .ok t) ∨ getTriple r text = .error .refused := by
  unfold getTriple
  split
  · exact .inl ⟨_, rfl⟩
  · exact .inr rfl

/-- The parts of a text that the key file reads. -/
theorem getTriple_ok_iff (text : List Char) : (∃ t, getTriple r text = .ok t) ↔ KeyFileReads r text := by
  constructor
  · rintro ⟨t, h⟩
    obtain ⟨a, b, c, htext, ⟨na, ha, hra, -⟩, ⟨nb, hb, hrb, -⟩, nc, hc, hrc, -⟩ :=
      (gKeyFileGetDoubleList_eq_iff r).mp ((getTriple_eq_ok_iff r).mp h)
    exact ⟨a, b, c, (pieces_eq_triple_iff.mp htext).imp_left And.right, ⟨na, ha, hra⟩, ⟨nb, hb, hrb⟩, nc, hc, hrc⟩
  · rintro ⟨a, b, c, htext, ⟨na, ha, hra⟩, ⟨nb, hb, hrb⟩, nc, hc, hrc⟩
    have hne : c ≠ [] := by
      rintro rfl
      rw [r.strtod_nil] at hc
      cases hc
    refine ⟨⟨na.value, nb.value, nc.value⟩, (getTriple_eq_ok_iff r).mpr ((gKeyFileGetDoubleList_eq_iff r).mpr ?_)⟩
    exact ⟨a, b, c, pieces_eq_triple_iff.mpr (htext.imp_left fun h => ⟨hne, h⟩), ⟨na, ha, hra, rfl⟩,
      ⟨nb, hb, hrb, rfl⟩, nc, hc, hrc, rfl⟩

theorem splitTriple_of_isTriple {text a b c : List Char} (h : IsTriple text a b c) :
    splitTriple r text =
      match stod r a, stod r b, stod r c with
      | .ok x, .ok y, .ok z => .ok ⟨x, y, z⟩
      | _, _, _ => .error .thrown := by
  have hsplit := splitString_eq_triple_iff.mpr h
  cases hx : stod r a <;> cases hy : stod r b <;> cases hz : stod r c <;>
    simp only [splitTriple, hsplit, hx, hy, hz]

/-- What YAML makes of a text. -/
theorem splitTriple_cases (text : List Char) :
    (∃ t, splitTriple r text = .ok t ∧ YamlReads r text) ∨
      (splitTriple r text = .error .refused ∧ ¬∃ a b c, IsTriple text a b c) ∨
        (splitTriple r text = .error .thrown ∧ ¬YamlReads r text ∧ ∃ a b c, IsTriple text a b c) := by
  by_cases htriple : ∃ a b c, IsTriple text a b c
  · obtain ⟨a, b, c, h⟩ := htriple
    have hreads : YamlReads r text ↔ BeginsWithNumber r a ∧ BeginsWithNumber r b ∧ BeginsWithNumber r c := by
      constructor
      · rintro ⟨a', b', c', h', hnumbers⟩
        obtain ⟨rfl, rfl, rfl⟩ := h.unique h'
        exact hnumbers
      · exact fun hnumbers => ⟨a, b, c, h, hnumbers⟩
    rw [splitTriple_of_isTriple r h, hreads]
    rcases stod_cases r a with ⟨x, hx, ha⟩ | ⟨hx, ha⟩
    · rcases stod_cases r b with ⟨y, hy, hb⟩ | ⟨hy, hb⟩
      · rcases stod_cases r c with ⟨z, hz, hc⟩ | ⟨hz, hc⟩
        · exact .inl ⟨⟨x, y, z⟩, by rw [hx, hy, hz], ha, hb, hc⟩
        · exact .inr (.inr ⟨by rw [hx, hy, hz], fun h => hc h.2.2, a, b, c, h⟩)
      · exact .inr (.inr ⟨by rw [hx, hy], fun h => hb h.2.1, a, b, c, h⟩)
    · exact .inr (.inr ⟨by rw [hx], fun h => ha h.1, a, b, c, h⟩)
  · refine .inr (.inl ⟨?_, htriple⟩)
    unfold splitTriple
    split
    case h_1 a b c hsplit => exact absurd ⟨a, b, c, splitString_eq_triple_iff.mp hsplit⟩ htriple
    case h_2 => rfl

theorem splitTriple_ok_iff (text : List Char) : (∃ t, splitTriple r text = .ok t) ↔ YamlReads r text := by
  rcases splitTriple_cases r text with ⟨t, ht, hreads⟩ | ⟨hrefused, hno⟩ | ⟨hthrown, hno, -⟩
  · exact iff_of_true ⟨t, ht⟩ hreads
  · rw [hrefused]
    exact iff_of_false (fun ⟨t, ht⟩ => by cases ht) fun ⟨a, b, c, h, _⟩ => hno ⟨a, b, c, h⟩
  · rw [hthrown]
    exact iff_of_false (fun ⟨t, ht⟩ => by cases ht) hno

theorem splitTriple_refused_iff (text : List Char) :
    splitTriple r text = .error .refused ↔ ¬∃ a b c, IsTriple text a b c := by
  rcases splitTriple_cases r text with ⟨t, ht, a, b, c, h, -⟩ | ⟨hrefused, hno⟩ | ⟨hthrown, -, h⟩
  · rw [ht]
    exact iff_of_false (fun h => by cases h) (not_not_intro ⟨a, b, c, h⟩)
  · exact iff_of_true hrefused hno
  · rw [hthrown]
    exact iff_of_false (fun h => by cases h) (not_not_intro h)

theorem splitTriple_thrown_iff (text : List Char) :
    splitTriple r text = .error .thrown ↔ ¬YamlReads r text ∧ ∃ a b c, IsTriple text a b c := by
  rcases splitTriple_cases r text with ⟨t, ht, hreads⟩ | ⟨hrefused, hno⟩ | ⟨hthrown, h⟩
  · rw [ht]
    exact iff_of_false (fun h => by cases h) fun h => h.1 hreads
  · rw [hrefused]
    exact iff_of_false (fun h => by cases h) fun h => hno h.2
  · exact iff_of_true hthrown h

/-- A text that both formats read gives the same numbers. -/
theorem getTriple_eq_splitTriple {text : List Char} (h : KeyFileReads r text) (h' : YamlReads r text) :
    getTriple r text = splitTriple r text := by
  obtain ⟨a, b, c, htext, ⟨na, ha, hra⟩, ⟨nb, hb, hrb⟩, nc, hc, hrc⟩ := h
  obtain ⟨a', b', c', htriple, ⟨na', ha', hea⟩, ⟨nb', hb', heb⟩, nc', hc', hec⟩ := h'
  rcases htext with htext | ⟨front, rfl, hfront⟩
  swap
  · exact absurd htriple hfront.not_concat
  obtain ⟨rfl, rfl, rfl⟩ := htext.unique htriple
  cases ha.symm.trans ha'
  cases hb.symm.trans hb'
  cases hc.symm.trans hc'
  have hne : c ≠ [] := by
    rintro rfl
    rw [r.strtod_nil] at hc
    cases hc
  have hget : getTriple r text = .ok ⟨na.value, nb.value, nc.value⟩ :=
    (getTriple_eq_ok_iff r).mpr ((gKeyFileGetDoubleList_eq_iff r).mpr ⟨a, b, c,
      pieces_eq_triple_iff.mpr (.inl ⟨hne, htext⟩), ⟨na, ha, hra, rfl⟩, ⟨nb, hb, hrb, rfl⟩, nc, hc, hrc, rfl⟩)
  have hx : stod r a = .ok na.value := (stod_eq_ok_iff r).mpr ⟨na, ha, hea, rfl⟩
  have hy : stod r b = .ok nb.value := (stod_eq_ok_iff r).mpr ⟨nb, hb, heb, rfl⟩
  have hz : stod r c = .ok nc.value := (stod_eq_ok_iff r).mpr ⟨nc, hc, hec, rfl⟩
  rw [hget, splitTriple_of_isTriple r htriple, hx, hy, hz]

/-! ### The keys of a group -/

section Keys

variable {Obj : Type} {kind : Kind} {read : List Char → Except Failure (Triple Double)}
  {step : Obj → Key × List Char → Except Failure Obj} {entries : List (Key × List Char)} {obj : Obj}

/-- A loop over the keys of a group, which fails at a list only. -/
structure ReadsBy (kind : Kind) (read : List Char → Except Failure (Triple Double))
    (step : Obj → Key × List Char → Except Failure Obj) : Prop where
  triple : ∀ key, kind.HasTriple key → ∃ set : Obj → Triple Double → Obj,
    ∀ obj text, step obj (key, text) = (read text).map (set obj)
  other : ∀ obj key text, ¬kind.HasTriple key → ∃ obj', step obj (key, text) = .ok obj'

theorem ReadsBy.of_lists {setLocation setCoordinate : Obj → Triple Double → Obj}
    (hlocation : ∀ obj text, step obj (.location, text) = (read text).map (setLocation obj))
    (hcoordinate : ∀ obj text, step obj (.coordinate, text) = (read text).map (setCoordinate obj))
    (hother : ∀ obj key text, key ≠ .location → key ≠ .coordinate → ∃ obj', step obj (key, text) = .ok obj')
    (hkind : kind ≠ .analytics) : ReadsBy kind read step where
  triple := by
    rintro key ⟨-, rfl | rfl⟩
    · exact ⟨setLocation, hlocation⟩
    · exact ⟨setCoordinate, hcoordinate⟩
  other obj key text hkey :=
    hother obj key text (fun h => hkey ⟨hkind, .inl h⟩) fun h => hkey ⟨hkind, .inr h⟩

theorem ReadsBy.ok_iff (h : ReadsBy kind read step) : (∃ obj', entries.foldlM step obj = .ok obj') ↔
    ∀ entry ∈ entries, kind.HasTriple entry.1 → ∃ t, read entry.2 = .ok t := by
  induction entries generalizing obj with
  | nil => exact iff_of_true ⟨obj, rfl⟩ fun entry hentry => by cases hentry
  | cons entry entries ih =>
    obtain ⟨key, text⟩ := entry
    rw [List.foldlM_cons, List.forall_mem_cons]
    have hrest : ∀ obj', step obj (key, text) = .ok obj' →
        ((∃ obj'', (step obj (key, text) >>= fun obj => entries.foldlM step obj) = .ok obj'') ↔
          ∀ entry ∈ entries, kind.HasTriple entry.1 → ∃ t, read entry.2 = .ok t) := by
      intro obj' hobj'
      rw [hobj']
      exact ih
    by_cases hkey : kind.HasTriple key
    · obtain ⟨set, hset⟩ := h.triple key hkey
      cases hread : read text with
      | error e =>
        rw [hset, hread]
        refine iff_of_false (fun ⟨_, h⟩ => by cases h) fun ⟨h, _⟩ => ?_
        obtain ⟨t, ht⟩ := h hkey
        cases ht
      | ok t =>
        rw [hrest (set obj t) (by rw [hset, hread]; rfl), iff_and_self]
        exact fun _ _ => ⟨t, rfl⟩
    · obtain ⟨obj', hobj'⟩ := h.other obj key text hkey
      rw [hrest obj' hobj', iff_and_self]
      exact fun _ h => absurd h hkey

/-- The error is that of the first list that is not read. -/
theorem ReadsBy.error_iff (h : ReadsBy kind read step) {e : Failure} : entries.foldlM step obj = .error e ↔
    ∃ front key text back, entries = front ++ (key, text) :: back ∧ kind.HasTriple key ∧ read text = .error e ∧
      ∀ entry ∈ front, kind.HasTriple entry.1 → ∃ t, read entry.2 = .ok t := by
  rw [foldlM_eq_error_iff]
  constructor
  · rintro ⟨front, ⟨key, text⟩, back, obj', hentries, hfront, hstep⟩
    have hkey : kind.HasTriple key := by
      by_contra hkey
      obtain ⟨obj'', hok⟩ := h.other obj' key text hkey
      cases hok.symm.trans hstep
    refine ⟨front, key, text, back, hentries, hkey, ?_, h.ok_iff.mp ⟨obj', hfront⟩⟩
    obtain ⟨set, hset⟩ := h.triple key hkey
    rw [hset] at hstep
    cases hread : read text with
    | ok t => rw [hread] at hstep; cases hstep
    | error e' => rw [hread] at hstep; cases hstep; rfl
  · rintro ⟨front, key, text, back, hentries, hkey, hread, hfront⟩
    obtain ⟨obj', hobj'⟩ : ∃ obj', front.foldlM step obj = .ok obj' := h.ok_iff.mpr hfront
    refine ⟨front, (key, text), back, obj', hentries, hobj', ?_⟩
    obtain ⟨set, hset⟩ := h.triple key hkey
    rw [hset, hread]
    rfl

/-- Two loops that do the same with each key, the second one nothing with `enable`. -/
theorem foldlM_keys_eq {step' : Obj → Key × List Char → Except Failure Obj}
    (henable : ∀ obj text, step' obj (.enable, text) = .ok obj)
    (hsame : ∀ obj, ∀ entry ∈ entries, step obj entry = step' obj entry) :
    (entries.filter fun entry => entry.1 ≠ .enable).foldlM step obj = entries.foldlM step' obj := by
  induction entries generalizing obj with
  | nil => rfl
  | cons entry entries ih =>
    have hrest : ∀ obj, ∀ entry ∈ entries, step obj entry = step' obj entry := fun obj entry hentry =>
      hsame obj entry (List.mem_cons_of_mem _ hentry)
    by_cases hkey : entry.1 = .enable
    · obtain ⟨key, text⟩ := entry
      cases hkey
      rw [List.filter_cons_of_neg (by simp), List.foldlM_cons, henable]
      exact ih hrest
    · rw [List.filter_cons_of_pos (by simpa using hkey), List.foldlM_cons, List.foldlM_cons,
        hsame obj entry List.mem_cons_self]
      cases step' obj entry with
      | error e => rfl
      | ok obj' => exact ih hrest

end Keys

end Schema
end MsgConv
end DeepStream
