import LwdMixnet.Carry
import LwdMixnet.Serve

namespace LwdMixnet

-- One stream of a dial: the task that serves it, once the listener has accepted
-- it, and the bytes in flight on it both ways.
structure Lane where
  serve : Option Serve := none
  outgoing : Bytes := []
  incoming : Bytes := []
  deriving DecidableEq, Repr

def Lane.far (lane : Lane) : Duplex :=
  match lane.serve with
  | some serve => serve.stream
  | none => {}

-- A wallet's connection, the task that carries it, and all of its streams.
structure Tunnel where
  carry : Carry := {}
  lanes : StreamId → Lane := fun _ => {}

inductive TunnelEvent
  | carry (event : CarryEvent)
  | accept (stream : StreamId)
  | serve (stream : StreamId) (event : ServeEvent)
  | loseOutgoing (stream : StreamId) (count : Nat)
  | loseIncoming (stream : StreamId) (count : Nat)
  deriving DecidableEq, Repr

def Tunnel.set (tunnel : Tunnel) (stream : StreamId) (lane : Lane) : Tunnel :=
  { tunnel with lanes := Function.update tunnel.lanes stream lane }

-- Each stream is in order. The mixnet may lose the first bytes of either
-- direction, as it does where they arrive before the `Open` that registers the
-- stream, and it may deliver the rest at any time or never.
def Tunnel.step (carrying : Carrying) (settings : ServeSettings) : Machine Tunnel TunnelEvent :=
  fun tunnel event =>
    match event with
    | .carry event =>
        match Carry.own carrying tunnel.carry event, tunnel.carry.moved event with
        | none, _ => none
        | some carry, none => some { tunnel with carry }
        | some carry, some ⟨stream, taken, given⟩ =>
            let lane := tunnel.lanes stream
            if taken <+: lane.incoming then
              some { tunnel.set stream { lane with
                outgoing := lane.outgoing ++ given
                incoming := lane.incoming.drop taken.length } with carry }
            else none
    | .accept stream =>
        let lane := tunnel.lanes stream
        match lane.serve with
        | none => some (tunnel.set stream { lane with serve := some (.start settings) })
        | some _ => none
    | .serve stream event =>
        let lane := tunnel.lanes stream
        match lane.serve with
        | none => none
        | some serve =>
            match Serve.own settings serve event with
            | none => none
            | some next =>
                if serve.taken event <+: lane.outgoing then
                  some (tunnel.set stream {
                    serve := some next
                    outgoing := lane.outgoing.drop (serve.taken event).length
                    incoming := lane.incoming ++ serve.given event })
                else none
    | .loseOutgoing stream count =>
        let lane := tunnel.lanes stream
        if lane.far.consumed = [] then
          some (tunnel.set stream { lane with outgoing := lane.outgoing.drop count })
        else none
    | .loseIncoming stream count =>
        let lane := tunnel.lanes stream
        if (tunnel.carry.near stream).consumed = [] then
          some (tunnel.set stream { lane with incoming := lane.incoming.drop count })
        else none

end LwdMixnet
