import SourceArchive.Text.Basic

/-!
# Blanks, comments and line ends in TOML

Every reader takes a text and answers with what follows the part that it has read.
-/

namespace SourceArchive

namespace Toml

/-- Whether a character may stand in a comment: all but the control characters, of which only the tab may. -/
def inComment (c : Char) : Bool := c == '\t' || (0x20 ≤ c.toNat && c.toNat != 0x7f)

def skipBlanks (t : Text) : Text := t.dropWhile fun c => c == ' ' || c == '\t'

/-- What follows a line end: a line feed, possibly with a carriage return before it. -/
def afterLineEnd? (t : Text) : Option Text :=
  match t with
  | '\n' :: rest => some rest
  | '\r' :: '\n' :: rest => some rest
  | _ => none

def skipComment (t : Text) : Text :=
  match t with
  | '#' :: rest => rest.dropWhile inComment
  | _ => t

/-- What follows the rest of a line on which only blanks and a comment are left. -/
def restOfLine? (t : Text) : Option Text :=
  match skipComment (skipBlanks t) with
  | [] => some []
  | t => afterLineEnd? t

theorem length_skipBlanks_le (t : Text) : (skipBlanks t).length ≤ t.length :=
  (List.dropWhile_sublist _).length_le

theorem length_skipComment_le (t : Text) : (skipComment t).length ≤ t.length := by
  unfold skipComment
  split
  · exact Nat.le_succ_of_le (List.dropWhile_sublist _).length_le
  · exact Nat.le_refl _

theorem length_lt_of_afterLineEnd? {t rest : Text} (h : afterLineEnd? t = some rest) : rest.length < t.length := by
  unfold afterLineEnd? at h
  split at h
  · cases h
    exact Nat.lt_succ_self _
  · cases h
    exact Nat.lt_succ_of_lt (Nat.lt_succ_self _)
  · cases h

/-- A text without the blanks, comments and line ends in front.  A comment that no line end follows stays. -/
def skipLines (t : Text) : Text :=
  match _h : afterLineEnd? (skipComment (skipBlanks t)) with
  | none => skipBlanks t
  | some rest => skipLines rest
termination_by t.length
decreasing_by
  have h1 := length_skipBlanks_le t
  have h2 := length_skipComment_le (skipBlanks t)
  have h3 := length_lt_of_afterLineEnd? _h
  omega

end Toml

end SourceArchive
