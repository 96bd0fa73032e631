import Flowgraph.Main
import Flowgraph.Proofs.Drawing
import Flowgraph.Proofs.Json.Reading
import Flowgraph.Proofs.Acceptance
import Flowgraph.Proofs.Integrity
import Flowgraph.Proofs.Dag.Assembly
import Flowgraph.Proofs.Dag.Refinement
import Flowgraph.Proofs.Lowering
import Flowgraph.Proofs.Grounding
import Flowgraph.Proofs.Json.Objects
import Flowgraph.Proofs.Json.Rereading
import Flowgraph.Proofs.Workflow.Rereading
import Flowgraph.Proofs.Workflow.Tidy
import Flowgraph.Proofs.HandOver
import Flowgraph.Proofs.Failure
import Flowgraph.Proofs.Json.Canonical
import Flowgraph.Proofs.Json.Carrying
import Flowgraph.Proofs.Numeral
import Flowgraph.Proofs.Json.Numerals
import Flowgraph.Proofs.Json.ReadBack
import Flowgraph.Proofs.Json.Filling
import Flowgraph.Proofs.Json.Reworking
import Flowgraph.Proofs.Workflow.Filling
import Flowgraph.Proofs.Workflow.NormalForm
import Flowgraph.Proofs.Spelling
import Flowgraph.Proofs.Catalog
import Flowgraph.Proofs.PolicyNumbers
import Flowgraph.Proofs.Straightening
import Flowgraph.Proofs.Resolution
import Flowgraph.Proofs.Workflow.StraightPolicies
import Flowgraph.Proofs.Workflow.Straightening
import Flowgraph.Proofs.Idempotence
import Flowgraph.Proofs.Agreement
import Flowgraph.Proofs.Placeholder
import Flowgraph.Proofs.Workflow.PolicyNumbers
import Flowgraph.Proofs.Rearrangement
import Flowgraph.Proofs.Containment
import Flowgraph.Proofs.Dag.Rereading
import Flowgraph.Proofs.Dag.RoundTrip
import Flowgraph.Proofs.Workflow.SettledPolicies
import Flowgraph.Proofs.Holders
import Flowgraph.Proofs.ListedFlow
import Flowgraph.Proofs.Tolerance
import Flowgraph.Proofs.Payloads
import Flowgraph.Proofs.Dependencies
import Flowgraph.Proofs.Reachability
import Flowgraph.Proofs.Json.Tables
import Flowgraph.Proofs.Inputs
import Flowgraph.Proofs.Rounding
import Flowgraph.Proofs.Coercion
import Flowgraph.Proofs.Refusals
import Flowgraph.Proofs.Reports
import Flowgraph.Proofs.Paths
import Flowgraph.Proofs.Warnings
import Flowgraph.Proofs.Parameters
import Flowgraph.Proofs.Times
import Flowgraph.Proofs.Text
import Flowgraph.Proofs.Json.Trails
import Flowgraph.Proofs.Secrets
import Flowgraph.Proofs.DottedPaths
import Flowgraph.Proofs.UiDefaults
import Flowgraph.Proofs.OpenTokens
import Flowgraph.Proofs.Hints
import Flowgraph.Proofs.Substitution
import Flowgraph.Proofs.Subscriptions
import Flowgraph.Proofs.Exposure
import Flowgraph.Proofs.CommandLine
import Flowgraph.Proofs.NearestDouble
import Flowgraph.Proofs.DoubleText
import Flowgraph.Proofs.Versions
