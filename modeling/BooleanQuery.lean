import BooleanQuery.Query.Preorder
import BooleanQuery.Main
import BooleanQuery.Proofs.Compile.Violations
import BooleanQuery.Proofs.Compile.Outline
import BooleanQuery.Proofs.Compile.Acceptance
import BooleanQuery.Proofs.Compile.Events
import BooleanQuery.Proofs.Query.RoundTrip
import BooleanQuery.Proofs.Compile.Interpretation
import BooleanQuery.Proofs.Compile.Translation
import BooleanQuery.Proofs.Compile.Observation
import BooleanQuery.Proofs.Compile.Replay
import BooleanQuery.Proofs.Compile.Selection
import BooleanQuery.Proofs.Compile.Normal
import BooleanQuery.Proofs.Compile.Fuel
import BooleanQuery.Proofs.Query.Schema
import BooleanQuery.Proofs.Command.Fuel
import BooleanQuery.Proofs.Command.Stages
import BooleanQuery.Proofs.Command.Pointer
import BooleanQuery.Proofs.Compile.Log
import BooleanQuery.Proofs.Plan.Dump
import BooleanQuery.Proofs.Compile.Wrapper
import BooleanQuery.Proofs.Compile.Relevance
import BooleanQuery.Proofs.Compile.Culprit
import BooleanQuery.Proofs.Query.Reprinting
import BooleanQuery.Proofs.Compile.Counter
import BooleanQuery.Proofs.Command.Scanning
import BooleanQuery.Proofs.Command.Spelling
import BooleanQuery.Proofs.Json.Integer
import BooleanQuery.Proofs.Json.Literal
import BooleanQuery.Proofs.Query.Kind
import BooleanQuery.Proofs.Text.Invisible
