import Vallet.Auth.RevocationWindow
import Vallet.Transport.Management
import Vallet.Auth.SharedDenylist
import Vallet.Counter.SharedFailover
import Vallet.Auth.EnrollmentSafety
import Vallet.Auth.LineageBurn
import Vallet.Publishing.ConcurrentRotation
import Vallet.Publishing.Lookalikes
import Vallet.Publishing.ConcurrentRenames
import Vallet.Publishing.SetNames
import Vallet.Publishing.ConcurrentSets
import Vallet.ManagedBlock.Reapply
import Vallet.Publishing.NonInterference
import Vallet.Helper.Relay
import Vallet.ListAdmin.Revision
import Vallet.Erasure.Interleaved
import Vallet.Publishing.GraceSweeps
import Vallet.Publishing.SetDeletion
import Vallet.Counter.RedisStore
import Vallet.Dns01.RecordSets
import Vallet.RateLimit.Backoff
import Vallet.Logging.Redact
