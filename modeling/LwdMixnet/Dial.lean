import LwdMixnet.Handshake.Exchange

namespace LwdMixnet

structure ProbeSettings where
  timeout : Nat
  attempts : Nat
  concurrency : Nat
  attempts_pos : 0 < attempts
  concurrency_pos : 0 < concurrency
  deriving DecidableEq, Repr

structure DialSettings where
  probe : Option ProbeSettings
  deriving DecidableEq, Repr

inductive DialError
  | Open (code : Nat)
  | Probe (error : HandshakeError)
  deriving DecidableEq, Repr

def DialError.isOpenFailure : DialError → Bool
  | .Open _ => true
  | .Probe _ => false

structure Discarded where
  elapsed : Nat
  error : DialError
  deriving DecidableEq, Repr

structure Round where
  opened : Nat := 0
  discarded : List Discarded := []
  answered : Bool := false
  deriving DecidableEq, Repr

def Round.failures (round : Round) (matching : DialError → Bool) : Nat :=
  round.discarded.countP fun stream => matching stream.error

def Round.attempted (round : Round) : Nat :=
  round.opened + round.failures DialError.isOpenFailure

def Round.unanswered (round : Round) : Nat :=
  round.failures fun error => !error.isOpenFailure

def Round.cancelled (round : Round) : Nat :=
  round.opened - round.unanswered - round.answered.toNat

structure Dialled where
  stream : StreamId
  answeringRound : Nat
  rounds : List Round
  deriving DecidableEq, Repr

structure GaveUp where
  rounds : List Round
  deriving DecidableEq, Repr

def Dialled.discarded (dialled : Dialled) : Nat :=
  (dialled.rounds.map fun round => round.discarded.length).sum

def GaveUp.lastError (gaveUp : GaveUp) : Option DialError := do
  let round ← gaveUp.rounds.getLast?
  let attempt ← round.discarded.getLast?
  some attempt.error

def GaveUp.attempts (gaveUp : GaveUp) : Nat :=
  (gaveUp.rounds.map Round.attempted).sum

def GaveUp.nothingOpened (gaveUp : GaveUp) : Bool :=
  gaveUp.rounds.all fun round => round.opened = 0

def DialSettings.attempts (settings : DialSettings) : Nat :=
  match settings.probe with
  | some probe => probe.attempts
  | none => 1

def DialSettings.concurrency (settings : DialSettings) : Nat :=
  match settings.probe with
  | some probe => probe.concurrency
  | none => 1

-- Where `dial` is suspended: in an open of the current round, in the
-- announcement on the stream it opened, or in the probes of the round, each of
-- them `none` until it is first polled.
inductive DialPhase
  | opening (left : Nat) (opened : List StreamId)
  | announcing (stream : StreamId) (write : Option WriteHeader)
  | probing (timeout : Nat) (probes : List (StreamId × Option Probe))
  | returned (result : Except GaveUp Dialled)
  deriving DecidableEq, Repr

structure Dial where
  elapsed : Nat := 0
  nextStream : StreamId := 0
  rounds : List Round := []
  remaining : Nat
  started : Nat := 0
  round : Round := {}
  phase : DialPhase
  deriving DecidableEq, Repr

-- `NEXT_TOKEN` is shared with every other dial of the process, so what a header
-- draws from it comes with the event.
inductive DialEvent
  | opened
  | refused (code : Nat)
  | polled (stream : StreamId) (NEXT_TOKEN : UInt64)
  | wait (stream : StreamId) (event : WaitEvent)
  | elapse (time : Nat)
  deriving DecidableEq, Repr

def DialEvent.delay : DialEvent → Nat
  | .elapse time => time
  | _ => 0

-- The head of the loop over the rounds.
def Dial.turn (settings : DialSettings) (dial : Dial) : Dial :=
  if dial.remaining = 0 then
    { dial with round := {}, phase := .returned (.error ⟨dial.rounds⟩) }
  else
    let size := min settings.concurrency dial.remaining
    { dial with
      remaining := dial.remaining - size
      started := dial.elapsed
      round := {}
      phase := .opening size [] }

def Dial.start (settings : DialSettings) : Dial :=
  Dial.turn settings { remaining := settings.attempts, phase := .opening 0 [] }

def Dial.discard (dial : Dial) (error : DialError) : Dial :=
  { dial with round := { dial.round with
      discarded := dial.round.discarded ++ [⟨dial.elapsed - dial.started, error⟩] } }

-- The end of `run_round`, with and without a stream.
def Dial.unanswered (settings : DialSettings) (dial : Dial) : Dial :=
  Dial.turn settings { dial with rounds := dial.rounds ++ [dial.round] }

def Dial.answered (dial : Dial) (stream : StreamId) : Dial :=
  let rounds := dial.rounds ++ [{ dial.round with answered := true }]
  { dial with
    rounds
    round := {}
    phase := .returned (.ok ⟨stream, dial.elapsed - dial.started, rounds⟩) }

def Dial.probes (settings : DialSettings) (dial : Dial) (timeout : Nat)
    (probes : List (StreamId × Option Probe)) : Dial :=
  if probes = [] then dial.unanswered settings
  else { dial with phase := .probing timeout probes }

-- The head of the loop over the opens of a round, and what comes after it.
def Dial.opens (settings : DialSettings) (dial : Dial) (left : Nat) (opened : List StreamId) :
    Dial :=
  if 0 < left then { dial with phase := .opening left opened }
  else
    match settings.probe with
    | none =>
        match opened.getLast? with
        | none => dial.unanswered settings
        | some stream => { dial with phase := .announcing stream none }
    | some probe => dial.probes settings probe.timeout (opened.map fun stream => (stream, none))

-- Time does not pass beyond the deadline of a probe, as its timer is polled
-- when it is due.
def Probe.allows (probe : Option Probe) (instant : Nat) : Bool :=
  match probe with
  | some (.awaiting _ _ deadline _) => instant ≤ deadline
  | _ => true

def DialPhase.allows (phase : DialPhase) (instant : Nat) : Bool :=
  match phase with
  | .probing _ probes => probes.all fun slot => Probe.allows slot.2 instant
  | .returned _ => false
  | _ => true

def Dial.step (settings : DialSettings) : Machine Dial DialEvent := fun dial event =>
  match dial.phase, event with
  | .opening left opened, .opened =>
      let stream := dial.nextStream
      let dial := { dial with
        nextStream := stream + 1
        round := { dial.round with opened := dial.round.opened + 1 } }
      some (dial.opens settings (left - 1) (opened ++ [stream]))
  | .opening left opened, .refused code =>
      some ((dial.discard (.Open code)).opens settings (left - 1) opened)
  | .announcing stream none, .polled polled NEXT_TOKEN =>
      if polled = stream then
        let header := (Header.next NEXT_TOKEN false).1
        some { dial with phase := .announcing stream (some (.start header)) }
      else none
  | .announcing stream (some write), .wait waited (.io event) =>
      if waited = stream then
        match write.step event with
        | some (.returned (.ok ())) => some (dial.answered stream)
        | some (.returned (.error error)) =>
            some ((dial.discard (.Probe error)).unanswered settings)
        | some write => some { dial with phase := .announcing stream (some write) }
        | none => none
      else none
  | .probing timeout probes, .polled stream NEXT_TOKEN =>
      match probes.find? fun slot => slot.1 = stream with
      | some (_, none) =>
          let probe := Probe.start dial.elapsed (Header.next NEXT_TOKEN true).1
          some { dial with
            phase := .probing timeout (probes.map fun slot =>
              if slot.1 = stream then (stream, some probe) else slot) }
      | _ => none
  | .probing timeout probes, .wait stream event =>
      match probes.find? fun slot => slot.1 = stream with
      | some (_, some probe) =>
          match probe.step timeout dial.elapsed event with
          | some (.returned (.ok _)) => some (dial.answered stream)
          | some (.returned (.error error)) =>
              some ((dial.discard (.Probe error)).probes settings timeout
                (probes.filter fun slot => slot.1 ≠ stream))
          | some probe =>
              some { dial with
                phase := .probing timeout (probes.map fun slot =>
                  if slot.1 = stream then (stream, some probe) else slot) }
          | none => none
      | _ => none
  | phase, .elapse time =>
      if phase.allows (dial.elapsed + time) then
        some { dial with elapsed := dial.elapsed + time }
      else none
  | _, _ => none

-- What an event moves, and the stream it moves it on.
structure Moved where
  stream : StreamId
  taken : Bytes
  given : Bytes
  deriving DecidableEq, Repr

def moveAt (ends : StreamId → Duplex) : Option Moved → StreamId → Duplex
  | none => ends
  | some moved => fun id =>
      if id = moved.stream then (ends id).move moved.taken moved.given else ends id

def Dial.moved (dial : Dial) (event : DialEvent) : Option Moved :=
  match dial.phase, event with
  | .announcing _ (some write), .wait stream (.io event) =>
      some ⟨stream, event.taken, write.given event⟩
  | .probing _ probes, .wait stream event =>
      match probes.find? fun slot => slot.1 = stream with
      | some (_, some probe) => some ⟨stream, event.taken, probe.given event⟩
      | _ => none
  | _, _ => none

end LwdMixnet
