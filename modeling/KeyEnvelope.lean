import KeyEnvelope.Main
import KeyEnvelope.RecordedService
import KeyEnvelope.Settings.Document
import KeyEnvelope.Proofs.Engine.OwnContext
import KeyEnvelope.Proofs.Engine.Retry
import KeyEnvelope.Proofs.Engine.Survivors
import KeyEnvelope.Proofs.Transit.Retention
import KeyEnvelope.Proofs.Record.Grammar
import KeyEnvelope.Proofs.Reader.Counter
import KeyEnvelope.Proofs.Engine.Forward
import KeyEnvelope.Proofs.Engine.RangeEnd
import KeyEnvelope.Proofs.Text.Canonical
import KeyEnvelope.Proofs.Transit.Interval
import KeyEnvelope.Proofs.Transit.Unwrapping
import KeyEnvelope.Proofs.Transit.Floor
import KeyEnvelope.Proofs.Transit.Acceptance
import KeyEnvelope.Proofs.Transit.Frame
import KeyEnvelope.Proofs.Transit.Length
import KeyEnvelope.Proofs.Engine.Layout
import KeyEnvelope.Proofs.Engine.NamedCipher
import KeyEnvelope.Proofs.Reader.Seek
import KeyEnvelope.Proofs.Reader.Skip
import KeyEnvelope.Proofs.Wrapper.Inverse
import KeyEnvelope.Proofs.Engine.Stages
import KeyEnvelope.Proofs.Engine.Selection
import KeyEnvelope.Proofs.RecordedService
import KeyEnvelope.Proofs.Record.RoundTrip
import KeyEnvelope.Proofs.Record.Truncation
import KeyEnvelope.Proofs.Record.ListTruncation
import KeyEnvelope.Proofs.Range.Request
import KeyEnvelope.Proofs.Range.Header
import KeyEnvelope.Proofs.Range.Satisfiable
import KeyEnvelope.Proofs.Settings.Environment
import KeyEnvelope.Proofs.Settings.Heeded
import KeyEnvelope.Proofs.Text.Alphabet
import KeyEnvelope.Proofs.SealedData.Text
import KeyEnvelope.Proofs.Transit.Version
import KeyEnvelope.Proofs.Record.Promise
import KeyEnvelope.Proofs.Text.Faults
import KeyEnvelope.Proofs.Engine.Disclosure
