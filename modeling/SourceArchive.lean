import SourceArchive.Text.Blank
import SourceArchive.Text.Line
import SourceArchive.Text.Identifier
import SourceArchive.Text.Lowercase
import SourceArchive.Text.Uppercase
import SourceArchive.Pattern.Build
import SourceArchive.Pattern.WholeWord
import SourceArchive.Archive.Section
import SourceArchive.Settings.Analysis
import SourceArchive.Settings.Checking
import SourceArchive.Label.Classifier
import SourceArchive.Facts.Basic
import SourceArchive.Enhancement
import SourceArchive.Mark
import SourceArchive.Annotated.Reader
import SourceArchive.Review
import SourceArchive.Files.Sources
import SourceArchive.Main
import SourceArchive.Data.Json.Reader
import SourceArchive.Data.Toml.Reader
import SourceArchive.Data.SettingsForm
import SourceArchive.Data.ResultForm
import SourceArchive.Data.Json.Writer
import SourceArchive.Number.Places
import SourceArchive.Pattern.Search
import SourceArchive.Proofs.Markerless
import SourceArchive.Proofs.Reading
import SourceArchive.Proofs.Facts
import SourceArchive.Proofs.Boundaries
import SourceArchive.Proofs.LineEnds
import SourceArchive.Proofs.Reader
import SourceArchive.Proofs.RoundTrip
import SourceArchive.Proofs.Agreement
import SourceArchive.Proofs.Splitting
import SourceArchive.Proofs.Packing
import SourceArchive.Proofs.Language
import SourceArchive.Proofs.Places
import SourceArchive.Proofs.Spacing
import SourceArchive.Proofs.Declarations
import SourceArchive.Proofs.Entries
import SourceArchive.Proofs.HintCount
import SourceArchive.Proofs.StateCheck
import SourceArchive.Proofs.Marks
import SourceArchive.Proofs.Marking
import SourceArchive.Proofs.MarkedReading
import SourceArchive.Proofs.Concatenation
import SourceArchive.Proofs.Consistency
import SourceArchive.Proofs.Delimited
import SourceArchive.Proofs.EmptyFields
import SourceArchive.Proofs.TreeCheck
import SourceArchive.Proofs.HintPlaces
import SourceArchive.Proofs.HintChoice
import SourceArchive.Proofs.DeclaredNames
import SourceArchive.Proofs.Brackets
import SourceArchive.Proofs.FirstArguments
import SourceArchive.Proofs.Initializers
import SourceArchive.Proofs.Searches
import SourceArchive.Proofs.ContextReads
import SourceArchive.Proofs.Parameters
import SourceArchive.Proofs.Members
import SourceArchive.Proofs.Specifiers
import SourceArchive.Proofs.ImportClauses
import SourceArchive.Proofs.ImportReadings
import SourceArchive.Proofs.ImportBlocks
import SourceArchive.Proofs.Buckets
import SourceArchive.Proofs.EndpointGroups
import SourceArchive.Proofs.Interpolations
import SourceArchive.Proofs.Reaches
import SourceArchive.Proofs.Extension
import SourceArchive.Proofs.ExtendedRuns
import SourceArchive.Proofs.AlikeRuns
import SourceArchive.Proofs.Keywords
import SourceArchive.Proofs.Order
import SourceArchive.Proofs.StatedLines
import SourceArchive.Proofs.PathChecks
import SourceArchive.Proofs.Tallies
import SourceArchive.Proofs.FindingGroups
import SourceArchive.Proofs.ReportReading
import SourceArchive.Proofs.Rounding
import SourceArchive.Proofs.Scores
import SourceArchive.Proofs.CarriageReturns
import SourceArchive.Proofs.PlainWords
import SourceArchive.Proofs.Labels
import SourceArchive.Proofs.WordPlaces
import SourceArchive.Proofs.ByteOffsets
import SourceArchive.Proofs.BracketCounts
import SourceArchive.Proofs.ByteScans
import SourceArchive.Proofs.CallOffsets
