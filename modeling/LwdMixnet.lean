import LwdMixnet.Splice.BlockedWrite
import LwdMixnet.Splice.Discovery
import LwdMixnet.Splice.HeldAnswer
import LwdMixnet.Splice.Refinement
import LwdMixnet.Splice.Transfer
import LwdMixnet.Handshake.Codec
import LwdMixnet.Handshake.Correlated
import LwdMixnet.Dial.Streams
import LwdMixnet.Dial.Waiting
import LwdMixnet.Dial.Budget
import LwdMixnet.Dial.Cancelled
import LwdMixnet.Streaks.Exit
import LwdMixnet.Carry.Accounts
import LwdMixnet.Serve.Carried
import LwdMixnet.Serve.Deadlines
import LwdMixnet.Listener.Capacity
import LwdMixnet.Listener.Refinement
import LwdMixnet.Tunnel.Announced
import LwdMixnet.Tunnel.Occupancy
import LwdMixnet.Bench.Spread
import LwdMixnet.Server.Startup
import LwdMixnet.Client.Report
import LwdMixnet.Carry.Folds
import LwdMixnet.Halves.Ledger
import LwdMixnet.Halves.Independent
