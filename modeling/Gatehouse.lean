import Gatehouse.Audit.Sink
import Gatehouse.Main
import Gatehouse.Proofs.Condition.RoundTrip
import Gatehouse.Proofs.EvaluationErrors
import Gatehouse.Proofs.FailClosed
import Gatehouse.Proofs.Noninterference
import Gatehouse.Proofs.Respelling
import Gatehouse.Proofs.StorageOrder
import Gatehouse.Proofs.FirstFault
import Gatehouse.Proofs.Revision
import Gatehouse.Proofs.Confidentiality
import Gatehouse.Proofs.Explanation
import Gatehouse.Proofs.Audit.Sink
import Gatehouse.Proofs.Session
import Gatehouse.Proofs.Condition.Storage
import Gatehouse.Proofs.Condition.Reordering
import Gatehouse.Proofs.Draft
import Gatehouse.Proofs.Serialisation
import Gatehouse.Proofs.Audit.Framing
import Gatehouse.Proofs.Condition.Duality
import Gatehouse.Proofs.Condition.FirstViolation
import Gatehouse.Proofs.DecidingRule
import Gatehouse.Proofs.Condition.Decoding
import Gatehouse.Proofs.Resolution.Malformed
import Gatehouse.Proofs.Path.Rendering
import Gatehouse.Proofs.Resolution.Nesting
import Gatehouse.Proofs.Condition.Search
import Gatehouse.Proofs.Value.NormalForm
import Gatehouse.Proofs.Value.Symmetry
import Gatehouse.Proofs.Condition.Failures
import Gatehouse.Proofs.HeaderNames
import Gatehouse.Proofs.Addressing
import Gatehouse.Proofs.Path.Iteration
import Gatehouse.Proofs.Display
import Gatehouse.Proofs.Condition.Notes
import Gatehouse.Proofs.Condition.Trails
import Gatehouse.Proofs.Seen
import Gatehouse.Proofs.Condition.Notes
