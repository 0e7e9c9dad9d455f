import LwdMixnet.Dial
import LwdMixnet.Splice.Watchdog
import Mathlib.Logic.Function.Basic

namespace LwdMixnet

-- A counter with one label.
abbrev CounterVec := String → Nat

def CounterVec.incBy (counters : CounterVec) (label : String) (count : Nat) : CounterVec :=
  Function.update counters label (counters label + count)

def CounterVec.total (counters : CounterVec) (labels : List String) : Nat :=
  (labels.map counters).sum

theorem CounterVec.incBy_apply (counters : CounterVec) (label other : String) (count : Nat) :
    counters.incBy label count other = counters other + if other = label then count else 0 := by
  by_cases h : other = label
  · subst h
    simp [CounterVec.incBy]
  · simp [CounterVec.incBy, h]

theorem CounterVec.incBy_comm (counters : CounterVec) (first second : String) (some more : Nat) :
    (counters.incBy first some).incBy second more =
      (counters.incBy second more).incBy first some := by
  funext label
  simp only [CounterVec.incBy_apply]
  exact Nat.add_right_comm _ _ _

theorem CounterVec.incBy_zero (counters : CounterVec) (label : String) :
    counters.incBy label 0 = counters := by
  funext other
  simp [CounterVec.incBy_apply]

theorem CounterVec.total_incBy (counters : CounterVec) (label : String) (count : Nat)
    (labels : List String) : (counters.incBy label count).total labels =
      counters.total labels + labels.count label * count := by
  induction labels with
  | nil => simp [CounterVec.total]
  | cons first rest ih =>
      simp only [CounterVec.total] at ih
      simp only [CounterVec.total, List.map_cons, List.sum_cons, CounterVec.incBy_apply, ih,
        List.count_cons, beq_iff_eq, Nat.add_mul]
      split_ifs <;> omega

def endedReason : Ended → String
  | .Closed => "closed"
  | .Stalled _ => "stalled"
  | .Idle _ => "idle"
  | .Failed _ => "failed"

def endedReasons : List String := ["closed", "stalled", "idle", "failed"]

theorem count_endedReason (ended : Ended) : endedReasons.count (endedReason ended) = 1 := by
  cases ended <;> simp [endedReason, endedReasons]

def handshakeReason : HandshakeError → String
  | .TimedOut _ => "unanswered"
  | .Read _ | .Write _ => "io"
  | .ForeignStream => "foreign"
  | .UnsupportedVersion _ => "unsupported_version"
  | .TokenMismatch _ _ => "token_mismatch"

def discardReason : DialError → String
  | .Open _ => "refused_open"
  | .Probe probe => handshakeReason probe

def recordTransfer (bytes : CounterVec) (transfer : Transfer) : CounterVec :=
  (bytes.incBy "to_mixnet" transfer.toRemote).incBy "from_mixnet" transfer.fromRemote

structure ClientMetrics where
  connections : Nat := 0
  inFlight : Int := 0
  unestablished : Nat := 0
  failedInARow : Int := 0
  firstRoundFailures : Nat := 0
  streamsOpened : Nat := 0
  streamsDiscarded : CounterVec := fun _ => 0
  rounds : Nat := 0
  establishment : List Nat := []
  ended : CounterVec := fun _ => 0
  bytes : CounterVec := fun _ => 0

namespace ClientMetrics

def connectionAccepted (metrics : ClientMetrics) : ClientMetrics :=
  { metrics with connections := metrics.connections + 1, inFlight := metrics.inFlight + 1 }

def dialled (metrics : ClientMetrics) (rounds : List Round) : ClientMetrics :=
  { metrics with
    rounds := metrics.rounds + rounds.length
    streamsOpened := metrics.streamsOpened + (rounds.map Round.opened).sum
    streamsDiscarded := (rounds.flatMap Round.discarded).foldl
      (fun counters discarded => counters.incBy (discardReason discarded.error) 1)
      metrics.streamsDiscarded
    firstRoundFailures := metrics.firstRoundFailures +
      if rounds.head?.any fun round => !round.answered then 1 else 0 }

def established (metrics : ClientMetrics) (rounds : List Round) (waited : Nat) : ClientMetrics :=
  let metrics := metrics.dialled rounds
  { metrics with establishment := metrics.establishment ++ [waited] }

def gaveUp (metrics : ClientMetrics) (rounds : List Round) : ClientMetrics :=
  let metrics := metrics.dialled rounds
  { metrics with unestablished := metrics.unestablished + 1 }

def setFailedInARow (metrics : ClientMetrics) (streak : Nat) : ClientMetrics :=
  { metrics with failedInARow := streak }

def finished (metrics : ClientMetrics) (transfer : Transfer) (ended : Ended) : ClientMetrics :=
  { metrics with
    bytes := recordTransfer metrics.bytes transfer
    ended := metrics.ended.incBy (endedReason ended) 1 }

-- The drop of the guard that `connectionAccepted` returns.
def dropInFlight (metrics : ClientMetrics) : ClientMetrics :=
  { metrics with inFlight := metrics.inFlight - 1 }

end ClientMetrics

structure ServerMetrics where
  streamsAccepted : Nat := 0
  streamsRejected : CounterVec := fun _ => 0
  streamsWithoutRequest : Nat := 0
  inFlight : Int := 0
  upstreamConnections : Nat := 0
  upstreamFailures : Nat := 0
  ended : CounterVec := fun _ => 0
  bytes : CounterVec := fun _ => 0

namespace ServerMetrics

def streamAccepted (metrics : ServerMetrics) : ServerMetrics :=
  { metrics with streamsAccepted := metrics.streamsAccepted + 1 }

def streamRejected (metrics : ServerMetrics) (error : HandshakeError) : ServerMetrics :=
  { metrics with streamsRejected := metrics.streamsRejected.incBy (handshakeReason error) 1 }

def streamDroppedOverCapacity (metrics : ServerMetrics) : ServerMetrics :=
  { metrics with streamsRejected := metrics.streamsRejected.incBy "over_capacity" 1 }

def streamWithoutRequest (metrics : ServerMetrics) : ServerMetrics :=
  { metrics with streamsWithoutRequest := metrics.streamsWithoutRequest + 1 }

def upstreamUnreachable (metrics : ServerMetrics) : ServerMetrics :=
  { metrics with upstreamFailures := metrics.upstreamFailures + 1 }

def upstreamConnected (metrics : ServerMetrics) : ServerMetrics :=
  { metrics with
    upstreamConnections := metrics.upstreamConnections + 1
    inFlight := metrics.inFlight + 1 }

def finished (metrics : ServerMetrics) (transfer : Transfer) (ended : Ended) : ServerMetrics :=
  { metrics with
    bytes := recordTransfer metrics.bytes transfer
    ended := metrics.ended.incBy (endedReason ended) 1 }

-- The drop of the guard that `upstreamConnected` returns.
def dropInFlight (metrics : ServerMetrics) : ServerMetrics :=
  { metrics with inFlight := metrics.inFlight - 1 }

end ServerMetrics

end LwdMixnet
