import SourceArchive.Pattern.DecimalDigit
import SourceArchive.Pattern.Folding
import SourceArchive.Pattern.WordChar
import SourceArchive.Text.Blank

/-!
# Classes of characters

A pattern tests one character at a time, by membership in a class.  Classes are data, so patterns can be compared
and printed; `CharClass.has` says what they mean.
-/

namespace SourceArchive

inductive CharClass where
  | all
  | none
  | only (c : Char)
  | range (first last : Char)
  | blank
  | word
  /-- Decimal digits of any script. -/
  | digit
  | union (a b : CharClass)
  | inter (a b : CharClass)
  | compl (a : CharClass)
  /-- The members of `a` and all that differ from one only by case. -/
  | folded (a : CharClass)
deriving Repr, DecidableEq

namespace CharClass

def has : CharClass → Char → Bool
  | all, _ => true
  | none, _ => false
  | only c, x => x == c
  | range first last, x => first ≤ x && x ≤ last
  | blank, x => isBlank x
  | word, x => isWordChar x
  | digit, x => isDecimal x
  | union a b, x => a.has x || b.has x
  | inter a b, x => a.has x && b.has x
  | compl a, x => !a.has x
  | folded a, x => (caseOrbit x).any a.has

def anyOf : Text → CharClass
  | [] => none
  | [c] => only c
  | c :: r => union (only c) (anyOf r)

def noneOf (t : Text) : CharClass := compl (anyOf t)

theorem has_anyOf_iff {t : Text} {x : Char} : (anyOf t).has x = true ↔ x ∈ t := by
  fun_induction anyOf t with
  | case1 => simp [has]
  | case2 c => simp [has]
  | case3 c r _ ih => simp [has, ih]

theorem has_noneOf_iff {t : Text} {x : Char} : (noneOf t).has x = true ↔ x ∉ t := by
  simp [noneOf, has, ← has_anyOf_iff]

end CharClass

end SourceArchive
