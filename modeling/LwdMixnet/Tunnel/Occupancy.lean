import LwdMixnet.Carry.Ledger
import LwdMixnet.Tunnel.Delivery

namespace LwdMixnet

-- What the dialling half has read of the wallet and not yet given to the stream.
def Carry.forwarding (carry : Carry) : Bytes :=
  match carry.phase with
  | .splicing _ splice => splice.outbound.held
  | _ => []

def Carry.returning (carry : Carry) : Bytes :=
  match carry.phase with
  | .splicing _ splice => splice.inbound.held
  | _ => []

-- What the serving half has read of the stream and not yet given to the upstream.
def Serve.forwarding (serve : Serve) : Bytes :=
  match serve.phase with
  | .connecting rest | .writing rest => rest
  | .splicing splice => splice.inbound.held
  | _ => []

def Serve.returning (serve : Serve) : Bytes :=
  match serve.phase with
  | .splicing splice => splice.outbound.held
  | _ => []

def Serve.forwarded (serve : Serve) : Bytes :=
  (serve.upstream.map Duplex.accepted).getD []

theorem Pump.Copies.held_le {pump : Pump} {flow : Flow} {bytes : Nat}
    (h : pump.Copies flow bytes) : pump.held.length ≤ COPY_BUFFER := by
  cases pump with
  | writing read rest =>
      obtain ⟨-, -, hrest, hread⟩ := h
      exact hrest.trans hread
  | reading | flushing _ | returned _ => exact Nat.zero_le _

section

variable {carrying : Carrying} {settings : ServeSettings} {tunnel next : Tunnel}

-- Each part of the tunnel makes a run of its own.
structure Tunnel.Parted (carrying : Carrying) (settings : ServeSettings) (tunnel : Tunnel) :
    Prop where
  carry : (Carry.own carrying).Reaches {} tunnel.carry
  serve : ∀ id serve, (tunnel.lanes id).serve = some serve →
    (Serve.own settings).Reaches (.start settings) serve

theorem Tunnel.Parted.step {event : TunnelEvent} (h : tunnel.Parted carrying settings)
    (hs : Tunnel.step carrying settings tunnel event = some next) :
    next.Parted carrying settings := by
  obtain ⟨hcarry, hserve⟩ := h
  have hset (stream : StreamId) (resumed : Serve)
      (hreached : (Serve.own settings).Reaches (.start settings) resumed)
      (hlanes : ∀ id, (next.lanes id).serve =
        if id = stream then some resumed else (tunnel.lanes id).serve) (id : StreamId)
      (serve : Serve) (hsome : (next.lanes id).serve = some serve) :
      (Serve.own settings).Reaches (.start settings) serve := by
    rw [hlanes] at hsome
    split_ifs at hsome with hid
    · obtain rfl := Option.some.inj hsome
      exact hreached
    · exact hserve id serve hsome
  obtain ⟨carried, rfl, hstep, -, hlanes⟩ | ⟨stream, rfl, -, hsame, -, hlanes⟩ |
    ⟨stream, served, serve, resumed, rfl, hsome, hstep, hsame, -, hlanes⟩ |
    ⟨stream, count, -, hsame, -, -, hlanes⟩ := Tunnel.step_cases hs
  · exact ⟨hcarry.step (Or.inr ⟨carried, hstep⟩),
      fun id serve hsome => hserve id serve (hlanes id ▸ hsome)⟩
  · exact ⟨hsame ▸ hcarry, hset stream (.start settings) ⟨[], rfl⟩ hlanes⟩
  · exact ⟨hsame ▸ hcarry, hset stream resumed
      ((hserve stream serve hsome).step (Or.inr ⟨served, hstep⟩)) hlanes⟩
  · exact ⟨hsame ▸ hcarry, fun id serve hsome => hserve id serve (hlanes id ▸ hsome)⟩

theorem tunnel_parted {events : List TunnelEvent}
    (hr : (Tunnel.step carrying settings).run {} events = some tunnel) :
    tunnel.Parted carrying settings := by
  refine Machine.run_invariant _ (fun _ _ _ h hs => h.step hs) ?_ hr
  refine ⟨⟨[], rfl⟩, fun id serve hsome => ?_⟩
  cases hsome

end

section

variable {settings : ServeSettings} {serve next : Serve}

-- The first request was read into one buffer, and what is left of it is no longer.
def Serve.Fits (serve : Serve) : Prop :=
  match serve.phase with
  | .connecting rest | .writing rest => rest.length ≤ FIRST_CHUNK
  | _ => True

theorem Serve.Fits.step {event : ServeEvent} (h : serve.Fits)
    (hs : Serve.own settings serve event = some next) : next.Fits := by
  obtain ⟨after, hs⟩ := Serve.own_step hs
  have hstep := hs
  unfold Serve.Fits at h
  obtain ⟨accept, waited, resumed, -, rfl, -, -, -, -, hnext⟩ |
    ⟨deadline, opening, hphase, rfl, hopening, rfl⟩ | ⟨opening, hphase, rfl, rfl⟩ |
    ⟨rest, count, hphase, rfl, -, -, -, hnext⟩ |
    ⟨splice, waited, resumed, -, rfl, -, -, -, -, hnext⟩ | ⟨rfl, -⟩ | ⟨time, rfl, -, rfl⟩ :=
    Serve.step_cases hs
  · obtain ⟨header, -, hnext⟩ | ⟨error, -, hnext⟩ | ⟨-, hnext⟩ := hnext <;>
      simp [Serve.Fits, hnext]
  · simp only [Serve.step, hphase, if_neg hopening] at hstep
    split_ifs at hstep with hfits
    exact hfits
  · rw [hphase] at h
    exact h
  · rw [hphase] at h
    obtain ⟨left, hw, hnext⟩ | ⟨-, hnext⟩ := hnext
    · obtain ⟨hleft, -⟩ := writeAll_pending hw
      have hlen := congrArg List.length hleft
      rw [List.length_append] at hlen
      simp only [Serve.Fits, hnext]
      omega
    · simp [Serve.Fits, hnext]
  · obtain hnext | hnext := hnext <;> simp [Serve.Fits, hnext]
  · trivial
  · exact h

theorem serve_fits {events : List ServeEvent}
    (hr : (Serve.own settings).run (.start settings) events = some serve) : serve.Fits :=
  Machine.run_invariant Serve.Fits (fun _ _ _ h hs => h.step hs)
    (by simp [Serve.Fits, Serve.start]) hr

-- Neither end of the task holds more than a buffer.
theorem serve_holds {events : List ServeEvent}
    (hr : (Serve.own settings).run (.start settings) events = some serve) :
    serve.forwarding.length ≤ max FIRST_CHUNK COPY_BUFFER ∧
      serve.returning.length ≤ COPY_BUFFER := by
  have hfits := serve_fits hr
  have hspliced := serve_spliced hr
  unfold Serve.Fits at hfits
  unfold Serve.forwarding Serve.returning
  cases hphase : serve.phase with
  | connecting rest | writing rest =>
      rw [hphase] at hfits
      exact ⟨le_max_of_le_left hfits, Nat.zero_le _⟩
  | splicing splice =>
      obtain ⟨opening, flows, -, hcopies, -⟩ := hspliced splice hphase
      exact ⟨le_max_of_le_right (hcopies.ways .inbound).held_le, (hcopies.ways .outbound).held_le⟩
  | accepting _ | awaitingRequest _ | returned => exact ⟨Nat.zero_le _, Nat.zero_le _⟩

theorem carry_holds {carrying : Carrying} {events : List CarryEvent} {carry : Carry}
    (hr : (Carry.own carrying).run {} events = some carry) :
    carry.forwarding.length ≤ COPY_BUFFER ∧ carry.returning.length ≤ COPY_BUFFER := by
  have hscripted := carry_scripted hr
  unfold Carry.forwarding Carry.returning
  cases hphase : carry.phase with
  | splicing stream splice =>
      simp only [Carry.Scripted, hphase] at hscripted
      obtain ⟨rounds, waited, outcome, flows, -, hcopies, -⟩ := hscripted
      exact ⟨(hcopies.ways .outbound).held_le, (hcopies.ways .inbound).held_le⟩
  | accepted | dialling _ | dialled _ | returned => exact ⟨Nat.zero_le _, Nat.zero_le _⟩

end

section

variable {tunnel : Tunnel} {stream : StreamId} {splice : Splice} {serve : Serve}
  {asked answered : Bytes}

theorem Pump.Live.conserves {pump : Pump} {consumed accepted : Bytes} (h : pump.Live)
    (hconserves : pump.Conserves consumed accepted) : accepted ++ pump.held = consumed := by
  cases pump with
  | reading | writing _ _ | flushing _ => exact hconserves
  | returned result => exact h.elim

-- What the serving half relays is what the stream it keeps has carried, but for what
-- is in flight.
theorem Serve.Relays.carries {sent : Header} {carried returned outgoing incoming : Bytes}
    {asked heard : Bytes} (h : serve.Relays carried returned) (hecho : sent.echoRequested)
    (hout : sent.encode ++ asked = serve.stream.consumed ++ outgoing)
    (hin : serve.stream.accepted = sent.encode ++ heard ++ incoming) :
    asked = carried ++ outgoing ∧ returned = heard ++ incoming := by
  obtain ⟨wire, header, hlen, hdecode, hstream⟩ := h
  rw [hstream, List.append_assoc] at hout
  obtain ⟨hwire, hasked⟩ := List.append_inj hout (by rw [hlen, encode_length])
  rw [← hwire, decode_encode] at hdecode
  obtain rfl := Except.ok.inj hdecode
  rw [hstream, Header.greeting, if_pos hecho, List.append_assoc] at hin
  exact ⟨hasked, List.append_cancel_left hin⟩

-- Every byte of the wallet's is with the upstream, in one of the two buffers or in
-- flight between them, in this order, and so is every byte of the upstream's.
theorem Tunnel.Delivers.placed (h : tunnel.Delivers stream asked answered splice serve) :
    asked = serve.forwarded ++ (serve.forwarding ++
      ((tunnel.lanes stream).outgoing ++ tunnel.carry.forwarding)) ∧
    answered = tunnel.carry.wallet.accepted ++ (tunnel.carry.returning ++
      ((tunnel.lanes stream).incoming ++ serve.returning)) := by
  obtain ⟨sent, carried, hkeeps, hconserves⟩ := h.keeps
  have hsound := h.far_sound
  have hlive := h.live.carry stream splice h.splicing
  have hfar := h.live.serve stream serve h.serving
  have hupstream := h.upstream
  have hasked : carried.accepted ++ tunnel.carry.forwarding = asked := by
    rw [← h.wallet, Carry.forwarding, h.splicing]
    exact (hlive.pumps .outbound).conserves hconserves.outbound
  have hheard : tunnel.carry.wallet.accepted ++ tunnel.carry.returning = carried.consumed := by
    rw [Carry.returning, h.splicing]
    exact (hlive.pumps .inbound).conserves hconserves.inbound
  obtain ⟨hout, hin, -⟩ := hkeeps.lane
  rw [Lane.far_serve h.serving, hkeeps.near] at hout hin
  simp only [Duplex.after, Duplex.move_accepted, Duplex.move_consumed, List.nil_append]
    at hout hin
  rw [List.append_assoc] at hin
  have hplaced {relayed returned : Bytes} (hrelays : serve.Relays relayed returned)
      (hrelayed : relayed = serve.forwarded ++ serve.forwarding)
      (hreturned : returned ++ serve.returning = answered) :
      asked = serve.forwarded ++ (serve.forwarding ++
        ((tunnel.lanes stream).outgoing ++ tunnel.carry.forwarding)) ∧
      answered = tunnel.carry.wallet.accepted ++ (tunnel.carry.returning ++
        ((tunnel.lanes stream).incoming ++ serve.returning)) := by
    obtain ⟨hcarried, hback⟩ := hrelays.carries hkeeps.echo hout (by rw [hin, List.append_assoc])
    rw [← hasked, hcarried, hrelayed, ← hreturned, hback, ← hheard]
    simp
  unfold Serve.Sound at hsound
  unfold Serve.answered at hupstream
  cases hphase : serve.phase with
  | accepting accept =>
      -- The echo has been written but for its flush.
      obtain ⟨header, rfl⟩ := h.accepting hphase
      rw [hphase] at hsound
      obtain ⟨hnone, hecho, hlen, hdecode, hsent⟩ := hsound
      have hrelays : serve.Relays [] [] := by
        refine ⟨_, header, hlen, hdecode, Duplex.ext (List.append_nil _).symm ?_⟩
        rw [Header.greeting, if_pos hecho, List.append_nil]
        exact hsent
      rw [hnone] at hupstream
      refine hplaced hrelays ?_ ?_
      · simp [Serve.forwarded, Serve.forwarding, hnone, hphase]
      · simpa [Serve.returning, hphase] using hupstream
  | awaitingRequest deadline =>
      rw [hphase] at hsound
      obtain ⟨hnone, hrelays⟩ := hsound
      rw [hnone] at hupstream
      refine hplaced hrelays ?_ ?_
      · simp [Serve.forwarded, Serve.forwarding, hnone, hphase]
      · simpa [Serve.returning, hphase] using hupstream
  | connecting opening =>
      rw [hphase] at hsound
      obtain ⟨hnone, -, hrelays⟩ := hsound
      rw [hnone] at hupstream
      refine hplaced hrelays ?_ ?_
      · simp [Serve.forwarded, Serve.forwarding, hnone, hphase]
      · simpa [Serve.returning, hphase] using hupstream
  | writing rest =>
      rw [hphase] at hsound
      obtain ⟨written, hsome, -, hrelays⟩ := hsound
      rw [hsome] at hupstream
      refine hplaced hrelays ?_ ?_
      · simp [Serve.forwarded, Serve.forwarding, hsome, hphase]
      · simpa [Serve.returning, hphase] using hupstream
  | splicing far =>
      simp only [hphase] at hsound
      simp only [Serve.Live, hphase] at hfar
      obtain ⟨opening, near, beyond, -, hcopies, hsome, hrelays⟩ := hsound
      rw [hsome] at hupstream
      have hforth : near.accepted ++ far.inbound.held = beyond.consumed :=
        (hfar.pumps .inbound).conserves hcopies.inbound
      have hback : beyond.accepted ++ far.outbound.held = near.consumed :=
        (hfar.pumps .outbound).conserves hcopies.outbound
      refine hplaced hrelays ?_ ?_
      · simp [Serve.forwarded, Serve.forwarding, hsome, hphase, Duplex.after, ← hforth]
      · simpa [Serve.returning, hphase, hback, Duplex.after] using hupstream
  | returned => exact absurd hphase h.running

end

-- While both halves go on with the stream that was kept, every byte of the wallet's
-- is with the upstream, in the serving half's buffer, in flight or in the dialling
-- half's buffer, in this order and once, and so is every byte of the upstream's on its
-- way back; and none of the four buffers holds more than its size.
theorem tunnel_places (carrying : Carrying) (settings : ServeSettings)
    (hprobe : carrying.dial.probe ≠ none) (events : List TunnelEvent) (tunnel : Tunnel)
    (hr : (Tunnel.step carrying settings).run {} events = some tunnel) (stream : StreamId)
    (hkept : tunnel.carry.kept = some stream) :
    ∃ serve, (tunnel.lanes stream).serve = some serve ∧ (serve.phase ≠ .returned →
      tunnel.carry.wallet.consumed = serve.forwarded ++ (serve.forwarding ++
        ((tunnel.lanes stream).outgoing ++ tunnel.carry.forwarding)) ∧
      serve.answered = tunnel.carry.wallet.accepted ++ (tunnel.carry.returning ++
        ((tunnel.lanes stream).incoming ++ serve.returning)) ∧
      serve.forwarding.length ≤ max FIRST_CHUNK COPY_BUFFER ∧
      serve.returning.length ≤ COPY_BUFFER ∧
      tunnel.carry.forwarding.length ≤ COPY_BUFFER ∧
      tunnel.carry.returning.length ≤ COPY_BUFFER) := by
  have hsound := tunnel_sound hprobe hr
  obtain ⟨splice, hphase⟩ := Carry.kept_splicing hkept
  have hstanding := hsound.standing
  simp only [Tunnel.Standing, hphase] at hstanding
  obtain ⟨sent, carried, hkeeps, -⟩ := hstanding
  obtain ⟨serve, hserve, -⟩ := hkeeps.lane.served hkeeps.heard.1
  refine ⟨serve, hserve, fun hrunning => ?_⟩
  have hdelivers : tunnel.Delivers stream tunnel.carry.wallet.consumed serve.answered
      splice serve :=
    ⟨hsound, tunnel_live hr, hphase, rfl, hserve, hrunning, rfl⟩
  obtain ⟨hforth, hback⟩ := hdelivers.placed
  have hparted := tunnel_parted hr
  obtain ⟨own, hown⟩ := hparted.carry
  obtain ⟨served, hserved⟩ := hparted.serve stream serve hserve
  obtain ⟨hforwarding, hreturning⟩ := serve_holds hserved
  exact ⟨hforth, hback, hforwarding, hreturning, carry_holds hown⟩

-- Of five bytes, one is with the upstream, each half holds one and two are in flight.
def underway : List TunnelEvent :=
  exchangedEvents.take 21 ++ [.serve 1 (.upstream (.wrote 1)),
    .carry (.splice (.outbound .flushed)), .carry (.splice (.outbound (.read [90, 91]))),
    .carry (.splice (.outbound (.wrote 1)))]

theorem underway_placed : ∃ tunnel serve,
    (Tunnel.step exchangedCarrying exchangedSettings).run {} underway = some tunnel ∧
    (tunnel.lanes 1).serve = some serve ∧ tunnel.carry.forwarding = [91] ∧
    (tunnel.lanes 1).outgoing = [73, 90] ∧ serve.forwarding = [82] ∧ serve.forwarded = [80] ∧
    tunnel.carry.wallet.consumed = serve.forwarded ++ (serve.forwarding ++
      ((tunnel.lanes 1).outgoing ++ tunnel.carry.forwarding)) := by
  obtain ⟨tunnel, hr, he⟩ : ∃ tunnel,
      (Tunnel.step exchangedCarrying exchangedSettings).run {} underway = some tunnel ∧
      (tunnel.carry.kept, [tunnel.carry.forwarding, (tunnel.lanes 1).outgoing],
        (tunnel.lanes 1).serve.map fun serve => [serve.forwarding, serve.forwarded]) =
        (some 1, [[91], [73, 90]], some [[82], [80]]) :=
    Option.map_eq_some_iff.mp (by decide +kernel)
  obtain ⟨hkept, hrest⟩ := Prod.mk.inj he
  obtain ⟨hunderway, hserving⟩ := Prod.mk.inj hrest
  obtain ⟨serve, hserve, hserving⟩ := Option.map_eq_some_iff.mp hserving
  obtain ⟨hheld, houtgoing⟩ :
      tunnel.carry.forwarding = [91] ∧ (tunnel.lanes 1).outgoing = [73, 90] := by
    simpa using hunderway
  obtain ⟨hforwarding, hforwarded⟩ : serve.forwarding = [82] ∧ serve.forwarded = [80] := by
    simpa using hserving
  obtain ⟨placed, hplaced, hall⟩ := tunnel_places exchangedCarrying exchangedSettings
    (by decide) underway tunnel hr 1 hkept
  obtain rfl := Option.some.inj (hserve.symm.trans hplaced)
  exact ⟨tunnel, serve, hr, hserve, hheld, houtgoing, hforwarding, hforwarded,
    (hall fun hreturned => by simp [Serve.forwarding, hreturned] at hforwarding).1⟩

end LwdMixnet
