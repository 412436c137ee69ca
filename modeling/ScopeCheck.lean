import ScopeCheck.Engine
import ScopeCheck.Sink.Text
import ScopeCheck.Suite
import ScopeCheck.Proofs.Counters
import ScopeCheck.Proofs.Steps
import ScopeCheck.Proofs.Comparison
import ScopeCheck.Proofs.Running
import ScopeCheck.Proofs.Verdict
import ScopeCheck.Proofs.EventLog
import ScopeCheck.Proofs.Moments
import ScopeCheck.Proofs.Agreement
import ScopeCheck.Proofs.SinkIndependence
import ScopeCheck.Proofs.Deliveries
import ScopeCheck.Proofs.Transcript
import ScopeCheck.Proofs.Notation
import ScopeCheck.Proofs.Overrides
import ScopeCheck.Proofs.Spelling
import ScopeCheck.Proofs.CompactForms
import ScopeCheck.Proofs.Marking
import ScopeCheck.Proofs.CommentScan
import ScopeCheck.Proofs.Rendering
import ScopeCheck.Proofs.Nesting
import ScopeCheck.Proofs.LineLocality
import ScopeCheck.Proofs.Independence
import ScopeCheck.Proofs.JoinedLines
import ScopeCheck.Proofs.Verbosity
import ScopeCheck.Proofs.Simulation
import ScopeCheck.Proofs.ExitStatus
import ScopeCheck.Proofs.TokenizerCalls
import ScopeCheck.Proofs.Members
import ScopeCheck.Proofs.EventObjects
import ScopeCheck.Proofs.Loading
import ScopeCheck.Proofs.JsonText
import ScopeCheck.Proofs.Fields
import ScopeCheck.Proofs.Defaults
import ScopeCheck.Proofs.Decoding
import ScopeCheck.Proofs.Reading
import ScopeCheck.Proofs.Documents
import ScopeCheck.Proofs.SuiteFormats
import ScopeCheck.Proofs.TomlSuites
