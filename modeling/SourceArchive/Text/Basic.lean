/-!
# Texts

A text is a list of characters.  This module holds the searching, cutting and joining that the rest of the
library is written in; each operation has a small law beside it.
-/

namespace SourceArchive

/-- A text, character by character. -/
abbrev Text := List Char

instance : Coe String Text := ⟨String.toList⟩

namespace Text

def contains (t pattern : Text) : Bool :=
  match t with
  | [] => pattern.isEmpty
  | c :: r => pattern.isPrefixOf (c :: r) || contains r pattern

theorem contains_iff {t pattern : Text} : contains t pattern = true ↔ pattern <:+: t := by
  induction t with
  | nil => simp [contains]
  | cons c r ih => simp [contains, ih, List.infix_cons_iff]

def startsWith (t start : Text) : Bool := start.isPrefixOf t

@[simp] theorem startsWith_iff {t start : Text} : startsWith t start = true ↔ start <+: t := by
  simp [startsWith]

def endsWith (t tail : Text) : Bool := tail.isSuffixOf t

@[simp] theorem endsWith_iff {t tail : Text} : endsWith t tail = true ↔ tail <:+ t := by
  simp [endsWith]

/-- What follows `start` in a text that begins with it. -/
def after? (t start : Text) : Option Text :=
  match start, t with
  | [], _ => some t
  | _ :: _, [] => none
  | c :: s, d :: r => if c = d then after? r s else none

theorem after?_eq_some_iff {t start rest : Text} : after? t start = some rest ↔ start ++ rest = t := by
  induction start generalizing t with
  | nil => simp [after?, eq_comm]
  | cons c s ih =>
    cases t with
    | nil => simp [after?]
    | cons d r => by_cases h : c = d <;> simp [after?, h, ih]

def before? (t tail : Text) : Option Text := (after? t.reverse tail.reverse).map List.reverse

theorem before?_eq_some_iff {t tail rest : Text} : before? t tail = some rest ↔ rest ++ tail = t := by
  simp only [before?, Option.map_eq_some_iff, after?_eq_some_iff]
  constructor
  · rintro ⟨r, h, rfl⟩
    simpa using congrArg List.reverse h
  · rintro rfl
    exact ⟨rest.reverse, by rw [List.reverse_append], List.reverse_reverse rest⟩

/-- The pieces between the characters that satisfy `p`; there is always at least one. -/
def splitWhen (p : Char → Bool) : Text → List Text
  | [] => [[]]
  | c :: r =>
    match splitWhen p r with
    | [] => [[c]]
    | piece :: pieces => if p c then [] :: piece :: pieces else (c :: piece) :: pieces

def splitAt (sep : Char) (t : Text) : List Text := splitWhen (· == sep) t

theorem splitWhen_ne_nil (p : Char → Bool) (t : Text) : splitWhen p t ≠ [] := by
  cases t with
  | nil => simp [splitWhen]
  | cons c r =>
    unfold splitWhen
    split
    · simp
    · split <;> simp

def join (sep : Text) (ts : List Text) : Text := sep.intercalate ts

theorem join_splitAt (sep : Char) (t : Text) : join [sep] (splitAt sep t) = t := by
  induction t with
  | nil => rfl
  | cons c r ih =>
    have hne := splitWhen_ne_nil (· == sep) r
    simp only [splitAt, splitWhen] at ih ⊢
    split
    · contradiction
    · rename_i piece pieces h
      rw [h] at ih
      split
      · rename_i hc
        simp only [beq_iff_eq] at hc
        subst hc
        simpa [join, List.intercalate] using ih
      · cases pieces <;> simp_all [join, List.intercalate]

/-- The part before the first occurrence of a character and the part after it. -/
def cutAt? (sep : Char) : Text → Option (Text × Text)
  | [] => none
  | c :: r =>
    if c = sep then some ([], r)
    else (cutAt? sep r).map fun (a, b) => (c :: a, b)

/-- The piece after the last occurrence of a character; the whole text if there is none. -/
def lastPiece (sep : Char) (t : Text) : Text := (splitAt sep t).getLastD []

/-- A text without the copies of `unit` that it begins with. -/
def dropLeading (unit t : Text) : Text :=
  match after? t unit with
  | none => t
  | some rest => if rest.length < t.length then dropLeading unit rest else t
termination_by t.length

/-- A place where a text was found: the character before it and the text behind it. -/
structure Occurrence where
  previous : Option Char
  behind : Text
deriving Repr, DecidableEq

/-- The occurrences of `pattern`, read from left to right without overlap, in `t` which follows `previous`.  The
empty pattern occurs at every place. -/
def occurrencesAfter (pattern : Text) (previous : Option Char) (t : Text) : List Occurrence :=
  match after? t pattern with
  | some rest =>
    ⟨previous, rest⟩ ::
      if rest.length < t.length then occurrencesAfter pattern (pattern.getLast?.or previous) rest
      else match t with
        | [] => []
        | c :: r => occurrencesAfter pattern (some c) r
  | none =>
    match t with
    | [] => []
    | c :: r => occurrencesAfter pattern (some c) r
termination_by t.length

def occurrences (t pattern : Text) : List Occurrence := occurrencesAfter pattern none t

/-- Whether two texts agree when ASCII letters are compared without regard to case. -/
def sameIgnoringAsciiCase (a b : Text) : Bool := a.map Char.toLower == b.map Char.toLower

/-- Comparison by code point, character by character. -/
def le (a b : Text) : Bool :=
  match a, b with
  | [], _ => true
  | _ :: _, [] => false
  | x :: xs, y :: ys => x < y || (x == y && le xs ys)

end Text

def decimal (n : Nat) : Text := Nat.toDigits 10 n

/-- Adds `item` at the end unless the list holds it already. -/
def addNew {α : Type} [BEq α] (items : List α) (item : α) : List α :=
  if items.contains item then items else items ++ [item]

/-- The distinct members of a list in order of first occurrence. -/
def distinct {α : Type} [BEq α] (items : List α) : List α := items.foldl addNew []

/-- The entries with that of `key` changed.  If there is none, a new entry is put behind the others. -/
def enter {κ α : Type} [DecidableEq κ] (key : κ) (change : Option α → α) : List (κ × α) → List (κ × α)
  | [] => [(key, change none)]
  | (k, a) :: rest => if k = key then (k, change (some a)) :: rest else (k, a) :: enter key change rest

end SourceArchive
