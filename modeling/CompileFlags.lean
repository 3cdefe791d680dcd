import CompileFlags.Answer
import CompileFlags.Catalog
import CompileFlags.Choice
import CompileFlags.Command
import CompileFlags.CommandLine.Commands
import CompileFlags.CommandLine.Grammar
import CompileFlags.Event
import CompileFlags.Fault
import CompileFlags.FileSystem
import CompileFlags.Filter
import CompileFlags.Flag
import CompileFlags.Help
import CompileFlags.Json.Error
import CompileFlags.Json.Input
import CompileFlags.Json.Number
import CompileFlags.Json.Text
import CompileFlags.Json.Tree
import CompileFlags.Json.Value
import CompileFlags.Language
import CompileFlags.Main
import CompileFlags.Normalize
import CompileFlags.Number.Double
import CompileFlags.Path
import CompileFlags.Pattern.Basic
import CompileFlags.Pattern.CharSet
import CompileFlags.Pattern.Error
import CompileFlags.Pattern.Match
import CompileFlags.Pattern.Parser
import CompileFlags.Pattern.Weight
import CompileFlags.Program
import CompileFlags.Project
import CompileFlags.Proofs.AbsoluteRoots
import CompileFlags.Proofs.Absorption
import CompileFlags.Proofs.Agreement
import CompileFlags.Proofs.AlignedHelp
import CompileFlags.Proofs.Attribution
import CompileFlags.Proofs.BrokenSession
import CompileFlags.Proofs.CatalogSchema
import CompileFlags.Proofs.ClosedOutput
import CompileFlags.Proofs.Coloring
import CompileFlags.Proofs.Components
import CompileFlags.Proofs.Delivery
import CompileFlags.Proofs.Discovery
import CompileFlags.Proofs.DocumentTables
import CompileFlags.Proofs.Encoding
import CompileFlags.Proofs.KeyOrder
import CompileFlags.Proofs.LastPieces
import CompileFlags.Proofs.Leaves
import CompileFlags.Proofs.Lines
import CompileFlags.Proofs.LinesInTurn
import CompileFlags.Proofs.OptionSpellings
import CompileFlags.Proofs.Outlines
import CompileFlags.Proofs.ParentDirectories
import CompileFlags.Proofs.PassedDirectories
import CompileFlags.Proofs.Plans
import CompileFlags.Proofs.PrefixRuns
import CompileFlags.Proofs.PrefixTable
import CompileFlags.Proofs.PrintedFlags
import CompileFlags.Proofs.ReadArguments
import CompileFlags.Proofs.ReadBack
import CompileFlags.Proofs.Replies
import CompileFlags.Proofs.RepliesReadBack
import CompileFlags.Proofs.ReplyDependence
import CompileFlags.Proofs.RequestShape
import CompileFlags.Proofs.ResolvedColumn
import CompileFlags.Proofs.Respelling
import CompileFlags.Proofs.Results
import CompileFlags.Proofs.SaidOptions
import CompileFlags.Proofs.ServedLines
import CompileFlags.Proofs.Slices
import CompileFlags.Proofs.Spelling
import CompileFlags.Proofs.TwoLayouts
import CompileFlags.Proofs.ValuePositions
import CompileFlags.Proofs.Verdicts
import CompileFlags.Proofs.Walks
import CompileFlags.Proofs.Warnings
import CompileFlags.Proofs.Whereabouts
import CompileFlags.Proofs.WrappedHelp
import CompileFlags.Proofs.WrappedText
import CompileFlags.Request
import CompileFlags.Row
import CompileFlags.Session
import CompileFlags.Stream
import CompileFlags.Style
import CompileFlags.Table
import CompileFlags.Text.Character
import CompileFlags.Text.Columns
import CompileFlags.Text.Escape
import CompileFlags.Text.Letters
import CompileFlags.Text.Offset
import CompileFlags.Text.Pieces
import CompileFlags.Text.Printable
import CompileFlags.Text.Quoted
import CompileFlags.Text.Utf8
import CompileFlags.Text.Wrap
import CompileFlags.Toml.Document
import CompileFlags.Toml.Error
import CompileFlags.Toml.Field
import CompileFlags.Toml.Token
import CompileFlags.Toml.Value
import CompileFlags.Traced
import CompileFlags.Usage
