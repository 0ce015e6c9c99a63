import DartDecoders.Arguments
import DartDecoders.Body
import DartDecoders.CommandLine
import DartDecoders.Declaration.Basic
import DartDecoders.Declaration.Document
import DartDecoders.Envelope
import DartDecoders.Fault
import DartDecoders.FileTree
import DartDecoders.Formatter
import DartDecoders.Implementation
import DartDecoders.Json.Basic
import DartDecoders.Json.Display
import DartDecoders.Json.Reader
import DartDecoders.Loading
import DartDecoders.Main
import DartDecoders.Number.Binary64
import DartDecoders.Options
import DartDecoders.Path
import DartDecoders.Proofs.AbstractMethods
import DartDecoders.Proofs.AdjacentTexts
import DartDecoders.Proofs.Angles
import DartDecoders.Proofs.Annotations
import DartDecoders.Proofs.BracketGroups
import DartDecoders.Proofs.CanonicalType
import DartDecoders.Proofs.ClassBraces
import DartDecoders.Proofs.ClassText
import DartDecoders.Proofs.CommentContents
import DartDecoders.Proofs.CommentPattern
import DartDecoders.Proofs.Constructors
import DartDecoders.Proofs.Directories
import DartDecoders.Proofs.DocumentFaults
import DartDecoders.Proofs.Endings
import DartDecoders.Proofs.Faults
import DartDecoders.Proofs.FrontEnds
import DartDecoders.Proofs.FunctionTypes
import DartDecoders.Proofs.GeneratedBody
import DartDecoders.Proofs.GeneratedCode
import DartDecoders.Proofs.HiddenMarkers
import DartDecoders.Proofs.JsonCollections
import DartDecoders.Proofs.KeyLiterals
import DartDecoders.Proofs.LastAngleGroup
import DartDecoders.Proofs.LayeredOptions
import DartDecoders.Proofs.Libraries
import DartDecoders.Proofs.LibraryContents
import DartDecoders.Proofs.MarkerWalks
import DartDecoders.Proofs.MemberBoundaries
import DartDecoders.Proofs.MemberHeads
import DartDecoders.Proofs.Members
import DartDecoders.Proofs.Nesting
import DartDecoders.Proofs.NormalParts
import DartDecoders.Proofs.OptionLayers
import DartDecoders.Proofs.OtherMembers
import DartDecoders.Proofs.PlainMember
import DartDecoders.Proofs.PlainParameter
import DartDecoders.Proofs.PlainSignature
import DartDecoders.Proofs.PrefixRuns
import DartDecoders.Proofs.RawArguments
import DartDecoders.Proofs.Receiver
import DartDecoders.Proofs.RemainingMarks
import DartDecoders.Proofs.RoundTrip
import DartDecoders.Proofs.Runs
import DartDecoders.Proofs.ScanFaults
import DartDecoders.Proofs.SelfContained
import DartDecoders.Proofs.ShapeOfText
import DartDecoders.Proofs.ShapeOfType
import DartDecoders.Proofs.SharedLiterals
import DartDecoders.Proofs.StableMembers
import DartDecoders.Proofs.TrimmedParts
import DartDecoders.Proofs.Turns
import DartDecoders.Proofs.TypeGrammar
import DartDecoders.Proofs.TypeText
import DartDecoders.Proofs.Uncommented
import DartDecoders.Proofs.VerbatimParameters
import DartDecoders.Proofs.WellFormedData
import DartDecoders.Proofs.Words
import DartDecoders.Proofs.WrittenArguments
import DartDecoders.Proofs.WrittenFiles
import DartDecoders.Proofs.WrittenTypes
import DartDecoders.Report
import DartDecoders.Shape
import DartDecoders.Signature
import DartDecoders.Source.Bracket
import DartDecoders.Source.Comment
import DartDecoders.Source.Header
import DartDecoders.Source.Literal
import DartDecoders.Source.Marker
import DartDecoders.Source.Member
import DartDecoders.Source.Parameter
import DartDecoders.Source.Scan
import DartDecoders.Stack
import DartDecoders.Text.Alphanumeric
import DartDecoders.Text.Basic
import DartDecoders.Text.Blank
import DartDecoders.Text.Printable
import DartDecoders.Text.Quoted
import DartDecoders.Text.Range
import DartDecoders.TypeExpr.Basic
import DartDecoders.TypeExpr.Listed
import DartDecoders.TypeExpr.Parser
import DartDecoders.TypeExpr.Query
