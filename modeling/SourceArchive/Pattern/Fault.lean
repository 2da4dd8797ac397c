/-!
# Faults of written patterns
-/

namespace SourceArchive

/-- Why a written pattern is refused. -/
inductive PatternFault where
  | unclosedGroup
  | strayParenthesis
  | unclosedClass
  | reversedRange
  /-- A range whose ends are not single characters. -/
  | rangeOfClasses
  | nothingRepeated
  /-- A count that is not closed, has no number or has its bounds reversed. -/
  | malformedCount
  /-- A backslash at the end. -/
  | unfinishedEscape
  | unknownEscape
  /-- Switches without a closing parenthesis or a colon behind them. -/
  | unfinishedSwitches
  /-- A group with an unknown opening, look-around among them. -/
  | unknownGroup
  | repeatedName
  /-- A pattern beyond the limits of the engine. -/
  | tooLarge
deriving Repr, DecidableEq

end SourceArchive
