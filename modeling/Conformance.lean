import Conformance.Main
import Conformance.Proofs.Text.Marker
import Conformance.Proofs.Text.Pieces
import Conformance.Proofs.Text.Drift
import Conformance.Proofs.Text.Lines
import Conformance.Proofs.Text.Chunks
import Conformance.Proofs.Text.MaskedLines
import Conformance.Proofs.Text.Utf8
import Conformance.Proofs.Text.Decoding
import Conformance.Proofs.Text.LineOffsets
import Conformance.Proofs.Pipeline.Decoding
import Conformance.Proofs.Pipeline.Waiting
import Conformance.Proofs.Pipeline.Rounds
import Conformance.Proofs.Pipeline.Following
import Conformance.Proofs.Pipeline.Course
import Conformance.Proofs.Pipeline.Compiler
import Conformance.Proofs.Pipeline.Children
import Conformance.Proofs.Comparison.FirstDivergence
import Conformance.Proofs.Comparison.CommonPrefix
import Conformance.Proofs.Comparison.Masked
import Conformance.Proofs.Comparison.Unread
import Conformance.Proofs.Comparison.Depth
import Conformance.Proofs.Session.Verdict
import Conformance.Proofs.Session.Accounts
import Conformance.Proofs.Session.FailFast
import Conformance.Proofs.Session.Smoke
import Conformance.Proofs.Session.Choices
import Conformance.Proofs.Metrics.Table
import Conformance.Proofs.Metrics.History
import Conformance.Proofs.Metrics.Totals
import Conformance.Proofs.Metrics.Series
import Conformance.Proofs.Metrics.Summary
import Conformance.Proofs.Session.Measured
import Conformance.Proofs.Text.Order
import Conformance.Proofs.Path.Components
import Conformance.Proofs.Path.Below
import Conformance.Proofs.Path.Order
import Conformance.Proofs.Files.Tree
import Conformance.Proofs.Files.Lookup
import Conformance.Proofs.Corpus.Finds
import Conformance.Proofs.Corpus.Tree
import Conformance.Proofs.Corpus.Directory
import Conformance.Proofs.Corpus.Names
import Conformance.Proofs.Corpus.Filter
import Conformance.Proofs.Corpus.Listed
import Conformance.Proofs.Corpus.Discovery
import Conformance.Proofs.Text.Words
import Conformance.Proofs.Text.Cuts
import Conformance.Proofs.Text.ByteOrder
import Conformance.Proofs.Toolchain.Invocation
import Conformance.Proofs.Arguments.Steps
import Conformance.Proofs.Arguments.Accepted
import Conformance.Proofs.Arguments.Flags
import Conformance.Proofs.Arguments.Values
import Conformance.Proofs.Arguments.Written
import Conformance.Proofs.Arguments.RoundTrip
import Conformance.Proofs.Console.ExitCode
import Conformance.Proofs.Console.Silence
