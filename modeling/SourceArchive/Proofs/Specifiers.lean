import SourceArchive.Facts.Import
import SourceArchive.Proofs.Language
import SourceArchive.Proofs.Searches

/-!
# Clauses before a specifier

Both patterns of import clauses end in a specifier, and what they read before it is `Guarded`: quotation marks stand in
it only within curly brackets.  A text without quotation marks up to the specifier is therefore read as a whole, whatever
follows, or not at all (`exists_of_at?_specified`).
-/

namespace SourceArchive

open Pattern Text

/-- The text last captured under a number. -/
def Progress.kept? (t : Progress) (n : Nat) : Option Text := (t.captures.find? (·.number == n)).map (·.text)

namespace Pattern

theorem kept?_of_mem_outcomes {p : Pattern} {n : Nat} {s t : Progress} (hp : p.capturedAs n = [])
    (ht : t ∈ p.outcomes s) : t.kept? n = s.kept? n := by
  rw [Progress.kept?, find?_captures_of_mem_outcomes hp ht, Progress.kept?]

theorem kept?_close {n : Nat} {s : Spot} {t : Progress} {w : Text} (h : s.Reads w t.spot) :
    (close n s t).kept? n = some w := by
  rw [Progress.kept?, close, List.find?_cons, beq_self_eq_true]
  exact congrArg some h.take_eq

theorem kept?_close_of_ne {k n : Nat} (h : k ≠ n) (s : Spot) (t : Progress) : (close n s t).kept? k = t.kept? k := by
  have hother : (n == k) = false := beq_eq_false_iff_ne.mpr (Ne.symm h)
  rw [Progress.kept?, close, List.find?_cons, hother, Progress.kept?]

end Pattern

namespace Imports

/-! ## Guarded languages -/

def isQuote (c : Char) : Bool := c == '\'' || c == '"'

/-- Reads a text from inside or outside curly brackets and says where it ends.  Outside brackets there may be no
quotation mark and no closing bracket. -/
def scan (inside : Bool) : Text → Option Bool
  | [] => some inside
  | c :: r =>
    if inside then scan (c != '\x7d') r
    else if c = '\x7d' ∨ isQuote c = true then none
    else scan (c == '\x7b') r

/-- All texts end outside brackets, and have quotation marks only inside. -/
def Guarded (l : Language Char) : Prop := ∀ w ∈ l, scan false w = some false

theorem scan_append (inside : Bool) (v w : Text) : scan inside (v ++ w) = (scan inside v).bind (scan · w) := by
  induction v generalizing inside with
  | nil => rfl
  | cons c v ih =>
    rw [List.cons_append, scan, scan, ih, ih]
    cases inside with
    | true => rfl
    | false =>
      by_cases h : c = '\x7d' ∨ isQuote c = true
      · simp [h]
      · simp [h]

theorem scan_inside {v : Text} (h : '\x7d' ∉ v) : scan true v = some true := by
  induction v with
  | nil => rfl
  | cons c v ih =>
    obtain ⟨hc, hv⟩ : '\x7d' ≠ c ∧ '\x7d' ∉ v := by simpa using h
    have hopen : (c != '\x7d') = true := bne_iff_ne.mpr (Ne.symm hc)
    rw [scan, if_pos rfl, hopen]
    exact ih hv

theorem isQuote_eq_false {w : Text} (hsingle : '\'' ∉ w) (hdouble : '"' ∉ w) : ∀ c ∈ w, isQuote c = false := by
  intro c hc
  have hnotSingle : c ≠ '\'' := fun h => hsingle (h ▸ hc)
  have hnotDouble : c ≠ '"' := fun h => hdouble (h ▸ hc)
  simp [isQuote, hnotSingle, hnotDouble]

theorem scan_outside {w : Text} (h : ∀ x ∈ ['\'', '"', '\x7b', '\x7d'], x ∉ w) : scan false w = some false := by
  have hquote : ∀ c ∈ w, isQuote c = false := isQuote_eq_false (h '\'' (by simp)) (h '"' (by simp))
  have hopen : '\x7b' ∉ w := h _ (by simp)
  have hclose : '\x7d' ∉ w := h _ (by simp)
  clear h
  induction w with
  | nil => rfl
  | cons c w ih =>
    simp only [List.mem_cons, not_or] at hopen hclose
    obtain ⟨hc, hw⟩ := List.forall_mem_cons.mp hquote
    have hstay : (c == '\x7b') = false := beq_eq_false_iff_ne.mpr (Ne.symm hopen.1)
    rw [scan, if_neg Bool.false_ne_true, if_neg (by simp [hc, Ne.symm hclose.1]), hstay]
    exact ih hw hopen.2 hclose.2

theorem scan_braced {v : Text} (h : '\x7d' ∉ v) : scan false ('\x7b' :: (v ++ ['\x7d'])) = some false := by
  have hinside : scan false ('\x7b' :: (v ++ ['\x7d'])) = scan true (v ++ ['\x7d']) := rfl
  rw [hinside, scan_append, scan_inside h]
  rfl

section Guarded

variable {l m : Language Char}

theorem guarded_one : Guarded 1 := by
  rintro w rfl
  rfl

theorem Guarded.mul (hl : Guarded l) (hm : Guarded m) : Guarded (l * m) := by
  rintro _ ⟨v, hv, w, hw, rfl⟩
  show scan false (v ++ w) = _
  rw [scan_append, hl v hv]
  exact hm w hw

theorem Guarded.add (hl : Guarded l) (hm : Guarded m) : Guarded (l + m) := fun w hw => hw.elim (hl w) (hm w)

theorem Guarded.kstar (hl : Guarded l) : Guarded (KStar.kstar l) := by
  intro w hw
  obtain ⟨ws, rfl, hws⟩ := Language.mem_kstar.mp hw
  clear hw
  induction ws with
  | nil => rfl
  | cons v ws ih =>
    obtain ⟨hv, hrest⟩ := List.forall_mem_cons.mp hws
    rw [List.flatten_cons, scan_append, hl v hv]
    exact ih hrest

theorem guarded_of_avoids {p : Pattern} (hp : p.plain = true)
    (h : ['\'', '"', '\x7b', '\x7d'].all p.avoids = true) : Guarded p.language := by
  intro w hw
  exact scan_outside fun x hx => not_mem_of_avoids hp (List.all_eq_true.mp h x hx) hw

theorem guarded_braced {p : Pattern} (hp : p.plain = true) (h : p.avoids '\x7d' = true) :
    Guarded (sequence [lit ['\x7b'], p, lit ['\x7d']]).language := by
  intro w hw
  obtain ⟨o, ho, x, hx, rfl⟩ := exists_of_mem_cons hw
  obtain ⟨v, hv, c, hc, rfl⟩ := exists_of_mem_cons hx
  obtain rfl : o = ['\x7b'] := mem_language_lit.mp ho
  obtain rfl : c = ['\x7d'] := mem_language_lit.mp hc
  exact scan_braced (not_mem_of_avoids hp h hv)

theorem guarded_sequence {ps : List Pattern} (h : ∀ p ∈ ps, Guarded p.language) : Guarded (sequence ps).language := by
  induction ps with
  | nil => exact guarded_one
  | cons p ps ih =>
    obtain ⟨hp, hps⟩ := List.forall_mem_cons.mp h
    rw [language_sequence_cons]
    exact hp.mul (ih hps)

end Guarded

/-- A guarded text before a quotation mark is all that stands before the first one. -/
theorem eq_of_guarded {w p y z : Text} {q q' : Char} (hw : scan false w = some false) (hp : ∀ c ∈ p, isQuote c = false)
    (hend : scan false p ≠ some true) (hq : isQuote q = true) (hq' : isQuote q' = true)
    (h : w ++ q :: y = p ++ q' :: z) : w = p := by
  rcases List.append_eq_append_iff.mp h with ⟨v, rfl, hv⟩ | ⟨v, rfl, hv⟩
  · cases v with
    | nil => exact (List.append_nil w).symm
    | cons c v =>
      obtain rfl : q = c := (List.cons.inj hv).1
      rw [hp q (List.mem_append_right w List.mem_cons_self)] at hq
      cases hq
  · cases v with
    | nil => exact List.append_nil p
    | cons c v =>
      obtain rfl : q' = c := (List.cons.inj hv).1
      -- the reading goes on behind a quotation mark outside brackets
      rw [scan_append] at hw
      cases hscan : scan false p with
      | none =>
        rw [hscan] at hw
        cases hw
      | some inside =>
        rw [hscan] at hw hend
        cases inside with
        | true => exact absurd rfl hend
        | false =>
          rw [Option.bind_some, scan, if_neg Bool.false_ne_true, if_pos (Or.inr hq')] at hw
          cases hw

/-! ## Specifiers -/

/-- A module specifier: some text without quotation marks. -/
structure Specifies (x : Text) : Prop where
  ne_nil : x ≠ []
  not_isQuote : ∀ c ∈ x, isQuote c = false

theorem mem_language_quote {w : Text} : w ∈ quote.language ↔ ∃ q, isQuote q = true ∧ w = [q] := Iff.rfl

theorem specifier_outcome {n : Nat} {s t : Progress} (ht : t ∈ (specifier n).outcomes s) :
    ∃ q x q', isQuote q = true ∧ isQuote q' = true ∧ (∀ c ∈ x, isQuote c = false) ∧
      s.spot.Reads (q :: (x ++ [q'])) t.spot ∧ t.kept? n = some x := by
  obtain ⟨a, ha, ht⟩ := mem_outcomes_sequence_cons.mp ht
  obtain ⟨b, hb, ht⟩ := mem_outcomes_sequence_cons.mp ht
  obtain ⟨c, hc, rfl⟩ := mem_outcomes_capture.mp hb
  obtain ⟨o, ho, hopen⟩ := reads_language_of_mem_outcomes ha
  obtain ⟨x, hx, hread⟩ := reads_language_of_mem_outcomes hc
  obtain ⟨e, he, hclose⟩ := reads_language_of_mem_outcomes ht
  obtain ⟨q, hq, rfl⟩ := mem_language_quote.mp ho
  obtain ⟨q', hq', rfl⟩ := mem_language_quote.mp he
  have hinside : ∀ c ∈ x, isQuote c = false := by
    intro c hc
    have hclass : (!isQuote c) = true := (mem_language_many1_one.mp hx).2 c hc
    simpa using hclass
  refine ⟨q, x, q', hq, hq', hinside, (hopen.trans hread).trans hclose, ?_⟩
  rw [kept?_of_mem_outcomes rfl ht]
  exact kept?_close hread

section Specified

variable {ps : List Pattern} {n : Nat} {s : Spot} {before x rest : Text}
  (hbefore : ∀ c ∈ before, isQuote c = false) (hx : Specifies x)
  (hs : s.ahead = before ++ '\'' :: (x ++ '\'' :: rest))

include hx hs in
theorem exists_at?_specified (hplain : (sequence (ps ++ [specifier n])).plain = true)
    (hmem : before ∈ (sequence ps).language) : ∃ m, (sequence (ps ++ [specifier n])).at? s = some m := by
  have hspecifier : ['\''] ++ (x ++ ['\'']) ∈ (specifier n).language := by
    have hquote : ['\''] ∈ quote.language := mem_language_quote.mpr ⟨'\'', rfl, rfl⟩
    have hinside : x ∈ (capture n (many1 (noneOf "'\""))).language := by
      refine mem_language_many1_one.mpr ⟨hx.ne_nil, fun c hc => ?_⟩
      show (!isQuote c) = true
      rw [hx.not_isQuote c hc]
      rfl
    exact append_mem_cons hquote (append_mem_cons hinside hquote)
  have hwhole : before ++ (['\''] ++ (x ++ ['\''])) ∈ (sequence (ps ++ [specifier n])).language :=
    append_mem_append hmem hspecifier
  obtain ⟨t, ht, -⟩ := exists_outcome (s := { spot := s }) (r := rest) hplain hwhole (by rw [hs]; simp)
  exact Option.isSome_iff_exists.mp (isSome_at?_iff_exists.mpr ⟨t, ht⟩)

variable (hguard : Guarded (sequence ps).language) (hend : scan false before ≠ some true)

include hbefore hx hs hguard hend in
/-- What stands before a specifier is read as a whole, and the specifier is captured. -/
theorem exists_of_at?_specified {m : Match} (h : (sequence (ps ++ [specifier n])).at? s = some m) :
    ∃ u ∈ (sequence ps).outcomes { spot := s }, before ∈ (sequence ps).language ∧ s.Reads before u.spot ∧
      s.Reads (before ++ '\'' :: (x ++ ['\''])) m.closed.spot ∧ m.group? n = some x ∧
      ∀ k, k ≠ n → m.group? k = u.kept? k := by
  obtain ⟨-, hm⟩ := mem_outcomes_of_at? h
  obtain ⟨u, hu, hm⟩ := mem_outcomes_sequence_append.mp hm
  obtain ⟨w, hw, hread⟩ := reads_language_of_mem_outcomes hu
  obtain ⟨q, y, q', hq, hq', hy, hspecifier, hgroup⟩ := specifier_outcome hm
  have hahead : w ++ q :: (y ++ q' :: m.closed.spot.ahead) = before ++ '\'' :: (x ++ '\'' :: rest) := by
    rw [← hs, hread.ahead_eq, hspecifier.ahead_eq]
    simp
  obtain rfl : w = before := eq_of_guarded (hguard w hw) hbefore hend hq rfl hahead
  obtain ⟨rfl, htail⟩ := List.cons.inj (List.append_cancel_left hahead)
  obtain ⟨rfl, rfl, -⟩ := eq_of_firstWhen hy hx.not_isQuote hq' rfl htail
  refine ⟨u, hu, hw, hread, hread.trans hspecifier, hgroup, fun k hk => ?_⟩
  have hnone : (specifier n).capturedAs k = [] := by
    show [] ++ ((if n = k then _ else []) ++ [] ++ []) = []
    rw [if_neg (Ne.symm hk)]
    rfl
  exact kept?_of_mem_outcomes hnone hm

end Specified

end Imports

end SourceArchive
