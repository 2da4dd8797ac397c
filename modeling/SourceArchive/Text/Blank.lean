import SourceArchive.Text.Basic

/-!
# Blank characters

The Unicode property `White_Space`, and the trimming and word splitting that go by it.  The byte-order mark, the
zero-width space and the separators U+001C to U+001F are not blank.
-/

namespace SourceArchive

def isBlank (c : Char) : Bool :=
  let n := c.toNat
  n == 0x20 || (0x9 ≤ n && n ≤ 0xd) || n == 0x85 || n == 0xa0 || n == 0x1680 || (0x2000 ≤ n && n ≤ 0x200a)
    || n == 0x2028 || n == 0x2029 || n == 0x202f || n == 0x205f || n == 0x3000

namespace Text

def trimStart (t : Text) : Text := t.dropWhile isBlank

def trimEnd (t : Text) : Text := (t.reverse.dropWhile isBlank).reverse

def trim (t : Text) : Text := trimEnd (trimStart t)

def indentation (t : Text) : Text := t.takeWhile isBlank

theorem indentation_append_trimStart (t : Text) : indentation t ++ trimStart t = t :=
  List.takeWhile_append_dropWhile

/-- The maximal runs of characters that are not blank. -/
def words (t : Text) : List Text := (splitWhen isBlank t).filter (!·.isEmpty)

/-- A text on one line: runs of blanks become single spaces and the ends are trimmed. -/
def singleLine (t : Text) : Text := join " " (words t)

end Text

end SourceArchive
