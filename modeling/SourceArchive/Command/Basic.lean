import SourceArchive.Settings.Fault

/-!
# Commands

What the program can be asked to do, and how it can fail.
-/

namespace SourceArchive

/-- What the program is asked to do.  Without an output path the result goes to standard output. -/
inductive Command where
  | pack (directory : Text) (output : Option Text)
  | mark (archive : Text) (output : Option Text)
  | enhance (archive : Text) (output : Option Text) (json : Bool)
  | validate (annotated : Text) (plain output : Option Text) (json : Bool)
  /-- Annotate an archive and check the outcome; both results go to a directory. -/
  | run (archive directory : Text)
deriving Repr, DecidableEq

structure Invocation where
  settings : Option Text
  command : Command
deriving Repr, DecidableEq

inductive CommandFault where
  | unreadableSettings (path : Text)
  | malformedSettings (path : Text)
  | unreadable (path : Text)
  | unwritable (path : Text)
  | directoryNotMade (path : Text)
  | notADirectory (path : Text)
  | refusedAnalysis (fault : SettingsFault)
  | refusedChecks (fault : SettingsFault)
deriving Repr, DecidableEq

namespace CommandFault

def message : CommandFault → Text
  | unreadableSettings path => "Failed to read config " ++ path
  | malformedSettings path => "Invalid config " ++ path
  | unreadable path => "Failed to read " ++ path
  | unwritable path => "Failed to write " ++ path
  | directoryNotMade path => "Failed to create " ++ path
  | notADirectory path => "Not a directory: " ++ path
  | refusedAnalysis _ => "Invalid analyzer config"
  | refusedChecks _ => "Invalid validator config"

/-- What is behind the fault. -/
def cause? : CommandFault → Option Text
  | refusedAnalysis fault | refusedChecks fault => some fault.message
  | _ => none

end CommandFault

/-- The outcome of a call of the program. -/
inductive Outcome where
  /-- All is done, and this goes to standard output. -/
  | done (output : Text)
  | failed (fault : CommandFault)
  | misused
deriving Repr, DecidableEq

namespace Outcome

def exitCode : Outcome → Nat
  | done _ => 0
  | failed _ => 1
  | misused => 2

end Outcome

end SourceArchive
