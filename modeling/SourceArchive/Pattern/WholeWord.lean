import SourceArchive.Pattern.Engine

/-!
# Whole-word patterns

A list of written patterns is made into one that ignores case and matches only from word edge to word edge.  The
entries are joined as text before they are compiled, so what counts is whether the joined text is a pattern.
-/

namespace SourceArchive

namespace WholeWord

/-- The entries that count: trimmed, and not blank. -/
def entries (written : List Text) : List Text := (written.map Text.trim).filter (!·.isEmpty)

/-- The pattern that stands for the joined entries. -/
def source (entries : List Text) : Text := "(?i)\\b(?:" ++ Text.join "|" entries ++ ")\\b"

/-- Compiles the entries as one pattern; there is none if no entry counts. -/
def read (engine : PatternEngine) (written : List Text) : Except PatternFault (Option (Text → Bool)) :=
  match entries written with
  | [] => .ok none
  | es => (engine.compile (source es)).map some

/-- Whether the pattern, if there is one, occurs in a text. -/
def occursIn (p : Option (Text → Bool)) (t : Text) : Bool := p.any (· t)

end WholeWord

end SourceArchive
