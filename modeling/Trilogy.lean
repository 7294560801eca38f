import Trilogy.Lib.Retry
import Trilogy.RoundTrip
import Trilogy.StmtExecute
import Trilogy.Sequence
import Trilogy.Receive
import Trilogy.Responses
import Trilogy.Bounds
import Trilogy.RowReuse
import Trilogy.Escape
import Trilogy.Shutdown
import Trilogy.Pausing
import Trilogy.Arrival
import Trilogy.Rows
import Trilogy.Classify
import Trilogy.StmtRows
import Trilogy.MoreResults
import Trilogy.Drain
import Trilogy.Upgrade
import Trilogy.Cleartext
import Trilogy.Rejected
import Trilogy.OwnBytes
import Trilogy.TextRow
import Trilogy.Greeting
import Trilogy.OkCodec
import Trilogy.Gtid
import Trilogy.HandshakeResponse
import Trilogy.Challenge
import Trilogy.AuthSwitch
import Trilogy.Limit
import Trilogy.ColumnCounts
import Trilogy.Clients
import Trilogy.Lib.Bytes
import Trilogy.Lib.Feed
import Trilogy.Growth
import Trilogy.Bytewise
import Trilogy.Cast
import Trilogy.Items
import Trilogy.Completion
import Trilogy.Flushing
import Trilogy.Opening
import Trilogy.Commit
import Trilogy.Secrecy
import Trilogy.Agreement
import Trilogy.Dialogue
import Trilogy.Acceptance
import Trilogy.Visit
import Trilogy.Identity
import Trilogy.ClientCalls
import Trilogy.Connecting
import Trilogy.Downgrade
import Trilogy.Turns
import Trilogy.Methods
import Trilogy.Handshaking
import Trilogy.Opened
