import Vestrace.Security.Delegation
import Vestrace.Security.Redaction
import Vestrace.Legacy.Recovery
import Vestrace.Run.Lease
import Vestrace.Run.Wakeup
import Vestrace.Run.Serial
import Vestrace.Run.StepAttempt
import Vestrace.Run.Queue
import Vestrace.Run.Approval
import Vestrace.Installation.SignedRecords
import Vestrace.Installation.DecodeCost
import Vestrace.Installation.AppendRecovery
import Vestrace.Effects.Settlement
import Vestrace.Outbox.Progress
import Vestrace.Outbox.Books
import Vestrace.Models.Routing
import Vestrace.Retrieval.Hydration
import Vestrace.Trust.AuditChain
import Vestrace.Work.IndexBuild
import Vestrace.Work.FlatIndex
import Vestrace.Work.Workflow
