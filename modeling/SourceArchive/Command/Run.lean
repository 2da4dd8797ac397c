import SourceArchive.Command.Arguments
import SourceArchive.Command.Workspace
import SourceArchive.Data.Json.Writer
import SourceArchive.Data.ResultForm
import SourceArchive.Data.SettingsForm
import SourceArchive.Data.Toml.Reader
import SourceArchive.Mark

/-!
# Running commands

Settings come first; then the inputs are read, the settings are checked, and the results are written.  The first
fault ends the command.  What a command prints is the last that it does.
-/

namespace SourceArchive

namespace Command

variable {m : Type → Type} [Monad m] [Workspace m]

def readInput (path : Text) : ExceptT CommandFault m Text := do
  match ← (Workspace.read path : m _) with
  | none => throw (.unreadable path)
  | some text => return text

def writeOutput (path text : Text) : ExceptT CommandFault m Unit := do
  if !(← (Workspace.write path text : m _)) then throw (.unwritable path)

def dropLineFeeds (t : Text) : Text := (t.reverse.dropWhile (· == '\n')).reverse

def printed (t : Text) : Text := t ++ ['\n']

/-- Writes a text to a file, or without a path prints it with one line feed at its end. -/
def emit (output : Option Text) (text : Text) : ExceptT CommandFault m Text := do
  match output with
  | none => return printed (dropLineFeeds text)
  | some path =>
    writeOutput path text
    return []

/-- The settings in a file; without a path, the defaults. -/
def readSettings : Option Text → ExceptT CommandFault m Settings
  | none => return {}
  | some path => do
    match ← (Workspace.read path : m _) with
    | none => throw (.unreadableSettings path)
    | some text =>
      match (Toml.read text).bind Settings.ofValue? with
      | none => throw (.malformedSettings path)
      | some settings => return settings

def classifierOf (s : AnalysisSettings) : Except CommandFault Classifier :=
  (Classifier.ofSettings s).mapError .refusedAnalysis

def reviewerOf (s : CheckSettings) : Except CommandFault Reviewer :=
  (Reviewer.ofSettings s).mapError .refusedChecks

def runSummary (enhancedPath reportPath : Text) (report : Report) : Text := Text.joinLines [
  "Enhanced archive: " ++ enhancedPath,
  "Validation report: " ++ reportPath,
  "Accuracy: " ++ onePlace report.accuracy ++ "% (" ++ report.verdict.label ++ ")"]

/-- Carries out a command; the answer is what it prints. -/
def perform (settings : Settings) : Command → ExceptT CommandFault m Text
  | pack directory output => do
    match ← (Workspace.sourceFiles directory : m _) with
    | none => throw (.notADirectory directory)
    | some files => emit output (SourceArchive.pack files)
  | mark archive output => do
    emit output (Mark.archive (← readInput archive))
  | enhance archive output json => do
    let text ← readInput archive
    let classifier ← liftExcept (classifierOf settings.analysis)
    let enhanced := classifier.enhance text
    match output with
    | none => if json then return printed (Json.pretty enhanced.toValue) else emit none enhanced.text
    | some path =>
      writeOutput path enhanced.text
      return printed (if json then Json.pretty enhanced.toValue else enhanced.statistics.text)
  | validate annotated plain output json => do
    let text ← readInput annotated
    let plainText ← plain.mapM readInput
    let reviewer ← liftExcept (reviewerOf settings.checks)
    let report := reviewer.review text plainText (fileName annotated)
    emit output (if json then Json.pretty report.toValue else report.text)
  | run archive directory => do
    let text ← readInput archive
    let classifier ← liftExcept (classifierOf settings.analysis)
    let reviewer ← liftExcept (reviewerOf settings.checks)
    if !(← (Workspace.makeDirectories directory : m _)) then throw (.directoryNotMade directory)
    let name := stem (fileName archive)
    let enhancedPath := joinPath directory (name ++ "_enhanced.txt")
    let reportPath := joinPath directory (name ++ "_validation_report.txt")
    let enhanced := (classifier.enhance text).text
    writeOutput enhancedPath enhanced
    let report := reviewer.review enhanced (some text) (fileName enhancedPath)
    writeOutput reportPath report.text
    return printed (runSummary enhancedPath reportPath report)
where
  /-- An outcome that does not depend on files. -/
  liftExcept {α : Type} (e : Except CommandFault α) : ExceptT CommandFault m α := ExceptT.mk (pure e)

end Command

def helpText : Text := Text.endLines [
  "Usage: sectionmeta [OPTIONS] <COMMAND>",
  [],
  "Commands:",
  "  pack      Concatenate a source tree into one archive",
  "  mark      Insert structural MARK comments into every section",
  "  enhance   Annotate every section with flow, metadata and dependency tree",
  "  validate  Check an annotated archive against its own code",
  "  run       Enhance then validate, writing both outputs to a directory"]

def versionText : Text := Text.endLines ["sectionmeta 0.1.1"]

def execute {m : Type → Type} [Monad m] [Workspace m] (args : List Text) : m Outcome := do
  match Arguments.read args with
  | .error .misuse => return .misused
  | .error .help => return .done helpText
  | .error .version => return .done versionText
  | .ok invocation =>
    let performed : ExceptT CommandFault m Text := do
      let settings ← Command.readSettings invocation.settings
      invocation.command.perform settings
    match ← performed.run with
    | .ok output => return .done output
    | .error fault => return .failed fault

end SourceArchive
