import SnippetLens.Build.Explorer
import SnippetLens.Bytecode.Report
import SnippetLens.Cli.Reach
import SnippetLens.Cli.Run
import SnippetLens.Config.Load
import SnippetLens.Files.Change
import SnippetLens.Listing.Dump
import SnippetLens.Main
import SnippetLens.NativeCode.Report
import SnippetLens.Tool.System
import SnippetLens.Proofs.Text.ByteOrder
import SnippetLens.Proofs.Text.Decoding
import SnippetLens.Proofs.Text.Lines
import SnippetLens.Proofs.Text.LineEnd
import SnippetLens.Proofs.Text.Erase
import SnippetLens.Proofs.Text.Composed
import SnippetLens.Proofs.Text.Whole
import SnippetLens.Proofs.Files.Walk
import SnippetLens.Proofs.Files.Entry
import SnippetLens.Proofs.Files.Write
import SnippetLens.Proofs.Files.Footprint
import SnippetLens.Proofs.Files.Reordered
import SnippetLens.Proofs.Files.NewDirectory
import SnippetLens.Proofs.Listing.Source
import SnippetLens.Proofs.Listing.Cursor
import SnippetLens.Proofs.Bytecode.Pattern
import SnippetLens.Proofs.Bytecode.Projection
import SnippetLens.Proofs.Bytecode.WellFormed
import SnippetLens.Proofs.Bytecode.Stray
import SnippetLens.Proofs.Bytecode.ClassLines
import SnippetLens.Proofs.Bytecode.LastLine
import SnippetLens.Proofs.Bytecode.VirtualMethods
import SnippetLens.Proofs.Bytecode.Reader
import SnippetLens.Proofs.Bytecode.Format
import SnippetLens.Proofs.NativeCode.Pattern
import SnippetLens.Proofs.NativeCode.Regions
import SnippetLens.Proofs.NativeCode.WellFormed
import SnippetLens.Proofs.NativeCode.Projection
import SnippetLens.Proofs.NativeCode.Structure
import SnippetLens.Proofs.NativeCode.LastLine
import SnippetLens.Proofs.NativeCode.Noise
import SnippetLens.Proofs.NativeCode.Truncation
import SnippetLens.Proofs.NativeCode.Reader
import SnippetLens.Proofs.NativeCode.RuleOrder
import SnippetLens.Proofs.NativeCode.Format
import SnippetLens.Proofs.Listing.Stream
import SnippetLens.Proofs.Listing.Format
import SnippetLens.Proofs.Build.Run
import SnippetLens.Proofs.Build.Trace
import SnippetLens.Proofs.Build.ClassFiles
import SnippetLens.Proofs.Build.Script
import SnippetLens.Proofs.Build.Isolation
import SnippetLens.Proofs.Build.Footprint
import SnippetLens.Proofs.Build.Cleaning
import SnippetLens.Proofs.Build.SingleFlight
import SnippetLens.Proofs.Build.Errors
import SnippetLens.Proofs.Build.Messages
import SnippetLens.Proofs.Build.Diagnostics
import SnippetLens.Proofs.Tool.Capture
import SnippetLens.Proofs.Tool.Listening
import SnippetLens.Proofs.Tool.Expiry
import SnippetLens.Proofs.Tool.WholeOutput
import SnippetLens.Proofs.Cli.ReadErrors
import SnippetLens.Proofs.Cli.Filter
import SnippetLens.Proofs.Cli.Commands
import SnippetLens.Proofs.Cli.Turns
import SnippetLens.Proofs.Cli.Showing
import SnippetLens.Proofs.Cli.Audience
import SnippetLens.Proofs.Cli.Forecast
import SnippetLens.Proofs.Cli.Precedence
import SnippetLens.Proofs.Config.Tidy
import SnippetLens.Proofs.Config.Lookup
import SnippetLens.Proofs.Config.Schema
import SnippetLens.Proofs.Config.Fields
import SnippetLens.Proofs.Toolchain.Version
import SnippetLens.Proofs.Toolchain.LatestVersion
import SnippetLens.Proofs.Toolchain.NewDirectory
