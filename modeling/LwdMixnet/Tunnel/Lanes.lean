import LwdMixnet.Dial.Streams
import LwdMixnet.Serve.Introduced
import LwdMixnet.Tunnel

namespace LwdMixnet

-- What one end of a stream was given is what the other has read and what is
-- in flight, but for the first bytes, which may be lost.
structure Lane.Sound (lost dropped : Bytes) (near : Duplex) (lane : Lane) : Prop where
  outgoing : near.accepted = lost ++ (lane.far.consumed ++ lane.outgoing)
  incoming : lane.far.accepted = dropped ++ (near.consumed ++ lane.incoming)
  serve : ∀ serve, lane.serve = some serve → serve.Sound

theorem Lane.far_serve {lane : Lane} {serve : Serve} (h : lane.serve = some serve) :
    lane.far = serve.stream := by
  simp [Lane.far, h]

theorem Lane.Sound.near {lost dropped : Bytes} {near : Duplex} {lane : Lane} {taken : Bytes}
    (h : lane.Sound lost dropped near) (given : Bytes) (htaken : taken <+: lane.incoming) :
    Lane.Sound lost dropped (near.move taken given) { lane with
      outgoing := lane.outgoing ++ given
      incoming := lane.incoming.drop taken.length } := by
  refine ⟨?_, ?_, h.serve⟩
  · change near.accepted ++ given = lost ++ (lane.far.consumed ++ (lane.outgoing ++ given))
    simp [h.outgoing]
  · change lane.far.accepted =
      dropped ++ (near.consumed ++ taken ++ lane.incoming.drop taken.length)
    rw [List.append_assoc, take_drop_of_aligned htaken]
    exact h.incoming

theorem Lane.Sound.accept {lost dropped : Bytes} {near : Duplex} {lane : Lane}
    (h : lane.Sound lost dropped near) (settings : ServeSettings) (hnone : lane.serve = none) :
    Lane.Sound lost dropped near { lane with serve := some (.start settings) } := by
  obtain ⟨houtgoing, hincoming, -⟩ := h
  have hfar : lane.far = {} := by simp [Lane.far, hnone]
  rw [hfar] at houtgoing hincoming
  refine ⟨houtgoing, hincoming, fun serve hserve => ?_⟩
  obtain rfl := Option.some.inj hserve
  exact Serve.start_sound settings

-- The task reads and writes the stream as its step says.
theorem Serve.step_stream {settings : ServeSettings} {metrics after : ServerMetrics}
    {serve next : Serve} {event : ServeEvent}
    (hs : Serve.step settings (metrics, serve) event = some (after, next)) :
    next.stream = serve.stream.move (serve.taken event) (serve.given event) := by
  obtain ⟨accept, waited, resumed, hphase, rfl, -, -, -, hstream, -⟩ |
    ⟨deadline, opening, hphase, rfl, -, rfl⟩ | ⟨opening, hphase, rfl, rfl⟩ |
    ⟨rest, count, hphase, rfl, -, hstream, -⟩ |
    ⟨splice, waited, resumed, hphase, rfl, -, -, hstream, -⟩ |
    ⟨rfl, -, -, htaken, hgiven⟩ | ⟨time, rfl, -, rfl⟩ := Serve.step_cases hs
  · simp [hstream, Serve.taken, Serve.given, hphase]
  · simp [Serve.taken, Serve.given, hphase, WaitEvent.taken, IoEvent.taken]
  · simp [Serve.taken, Serve.given, hphase, Duplex.move]
  · simp [hstream, Serve.taken, Serve.given, hphase, Duplex.move]
  · rw [hstream]
    cases waited <;> simp [Serve.taken, Serve.given, hphase, Splice.remoteEnd, Duplex.move]
  · simp [htaken, hgiven, Duplex.move]
  · cases hphase : serve.phase <;> simp [Serve.taken, Serve.given, hphase, Duplex.move]

theorem Lane.Sound.serves {settings : ServeSettings} {lost dropped : Bytes} {near : Duplex}
    {lane : Lane} {serve next : Serve} {event : ServeEvent} (h : lane.Sound lost dropped near)
    (hserve : lane.serve = some serve) (hs : Serve.own settings serve event = some next)
    (htaken : serve.taken event <+: lane.outgoing) :
    Lane.Sound lost dropped near {
      serve := some next
      outgoing := lane.outgoing.drop (serve.taken event).length
      incoming := lane.incoming ++ serve.given event } := by
  obtain ⟨after, hs⟩ := Serve.own_step hs
  obtain ⟨houtgoing, hincoming, hsound⟩ := h
  rw [Lane.far_serve hserve] at houtgoing hincoming
  refine ⟨?_, ?_, fun other hother => ?_⟩
  · change near.accepted = lost ++ (next.stream.consumed ++ _)
    rw [Serve.step_stream hs, Duplex.move_consumed, List.append_assoc,
      take_drop_of_aligned htaken]
    exact houtgoing
  · change next.stream.accepted = _
    rw [Serve.step_stream hs, Duplex.move_accepted, hincoming]
    simp
  · obtain rfl := Option.some.inj hother
    exact (hsound serve hserve).step hs

theorem Lane.Sound.loseOutgoing {lost dropped : Bytes} {near : Duplex} {lane : Lane}
    (h : lane.Sound lost dropped near) (count : Nat) (hnothing : lane.far.consumed = []) :
    Lane.Sound (lost ++ lane.outgoing.take count) dropped near
      { lane with outgoing := lane.outgoing.drop count } := by
  refine ⟨?_, h.incoming, h.serve⟩
  change near.accepted = _ ++ (lane.far.consumed ++ _)
  rw [h.outgoing, hnothing]
  simp

theorem Lane.Sound.loseIncoming {lost dropped : Bytes} {near : Duplex} {lane : Lane}
    (h : lane.Sound lost dropped near) (count : Nat) (hnothing : near.consumed = []) :
    Lane.Sound lost (dropped ++ lane.incoming.take count) near
      { lane with incoming := lane.incoming.drop count } := by
  refine ⟨h.outgoing, ?_, h.serve⟩
  change lane.far.accepted = _
  rw [h.incoming, hnothing]
  simp

theorem Serve.Sound.heard {serve : Serve} (h : serve.Sound) (hsome : serve.stream.accepted ≠ []) :
    HEADER_LEN ≤ serve.stream.consumed.length := by
  obtain ⟨-, hnothing | ⟨header, -, hlen, -⟩⟩ | ⟨upstream, -, carried, returned, -, hrelays, -⟩ :=
    h.relayed
  · exact absurd hnothing hsome
  · exact hlen
  · rw [hrelays.length]
    exact Nat.le_add_right _ _

section

variable {lost dropped : Bytes} {near : Duplex} {lane : Lane} {serve : Serve}

-- What was heard on a stream was said by the task that serves it.
theorem Lane.Sound.served (h : lane.Sound lost dropped near) (hheard : near.consumed ≠ []) :
    ∃ serve, lane.serve = some serve ∧ lane.far.accepted ≠ [] ∧
      HEADER_LEN ≤ lane.far.consumed.length := by
  have hsome : lane.far.accepted ≠ [] := by
    rw [h.incoming]
    simp [hheard]
  cases hserve : lane.serve with
  | none => simp [Lane.far, hserve] at hsome
  | some serve =>
      refine ⟨serve, rfl, hsome, ?_⟩
      rw [Lane.far_serve hserve] at hsome ⊢
      exact (h.serve serve hserve).heard hsome

theorem Lane.Sound.consumed_le (h : lane.Sound lost dropped near) :
    lane.far.consumed.length ≤ near.accepted.length := by
  rw [h.outgoing]
  simp only [List.length_append]
  omega

-- A task whose stream was sent no more than a header leaves the upstream alone.
theorem Lane.Sound.short (h : lane.Sound lost dropped near)
    (hshort : near.accepted.length ≤ HEADER_LEN) (hserve : lane.serve = some serve) :
    ¬serve.Reaching := by
  intro hreaching
  obtain ⟨carried, returned, hne, hrelays, -⟩ := (h.serve serve hserve).reaching hreaching
  have hle := h.consumed_le
  have hpos := List.length_pos_of_ne_nil hne
  rw [Lane.far_serve hserve, hrelays.length] at hle
  omega

-- A probe that was answered read its own header back, and it was all there is:
-- nothing was lost on its stream and nothing is in flight.
theorem Lane.Sound.answered {sent : Header} (h : lane.Sound lost dropped near)
    (hanswered : near.Answered sent) :
    lost = [] ∧ dropped = [] ∧ near = ⟨sent.encode, sent.encode⟩ := by
  obtain ⟨-, haccepted, hlen⟩ := hanswered
  have hheard : near.consumed ≠ [] := by
    intro hnothing
    simp [hnothing, HEADER_LEN] at hlen
  obtain ⟨serve, hserve, hsome, hfar⟩ := h.served hheard
  have hout := congrArg List.length h.outgoing
  have hback := congrArg List.length h.incoming
  simp only [List.length_append, haccepted, encode_length] at hout hback
  have hlost : lost = [] := List.length_eq_zero_iff.mp (by omega)
  have hflight : lane.outgoing = [] := List.length_eq_zero_iff.mp (by omega)
  have hread : lane.far.consumed = sent.encode := by
    have := h.outgoing
    simpa [hlost, hflight, haccepted] using this.symm
  have hnone : ¬serve.Reaching := h.short (by rw [haccepted, encode_length]) hserve
  rw [Lane.far_serve hserve] at hsome hread hback
  obtain ⟨-, hnothing | ⟨header, hecho, -, hdecode, hgreeting⟩⟩ | ⟨upstream, hupstream, -⟩ :=
    (h.serve serve hserve).relayed
  · exact absurd hnothing hsome
  · rw [hread, List.take_of_length_le (encode_length sent).le, decode_encode] at hdecode
    obtain rfl := Except.ok.inj hdecode
    have hle := hgreeting.length_le
    rw [encode_length] at hle
    have hdropped : dropped = [] := List.length_eq_zero_iff.mp (by omega)
    have hflight : lane.incoming = [] := List.length_eq_zero_iff.mp (by omega)
    have hsaid : serve.stream.accepted = near.consumed := by
      have := h.incoming
      rwa [Lane.far_serve hserve, hdropped, hflight, List.nil_append, List.append_nil] at this
    refine ⟨hlost, hdropped, Duplex.ext ?_ haccepted⟩
    rw [← hsaid]
    exact hgreeting.eq_of_length (by rw [hsaid, encode_length, hlen])
  · exact absurd (Or.inl (by simp [hupstream])) hnone

end

-- The streams move as the task says.
theorem Carry.own_near {carrying : Carrying} {carry next : Carry} {event : CarryEvent}
    (hs : Carry.own carrying carry event = some next) :
    next.near = moveAt carry.near (carry.moved event) := by
  obtain ⟨after, hs⟩ := Carry.own_step hs
  obtain ⟨hphase, rfl, rfl⟩ | ⟨dial, waited, resumed, hphase, rfl, -, -, hnear, -⟩ |
    ⟨dialled, hphase, rfl, rfl⟩ | ⟨gaveUp, hphase, rfl, rfl⟩ |
    ⟨stream, splice, waited, resumed, hphase, rfl, -, -, hnear, -⟩ | ⟨time, rfl, rfl⟩ :=
    Carry.step_cases hs
  · simp [Carry.moved, hphase, moveAt]
  · simpa [Carry.moved, hphase] using hnear
  · simp [Carry.moved, hphase, moveAt]
  · simp [Carry.moved, hphase, moveAt]
  · exact hnear
  · cases hphase : carry.phase <;> simp [Carry.moved, hphase, moveAt]

-- What a step leaves of the lanes, whatever was lost on them before.
def Tunnel.Follows (tunnel next : Tunnel) : Prop :=
  ∀ id lost dropped, (tunnel.lanes id).Sound lost dropped (tunnel.carry.near id) →
    (next.lanes id).Sound lost dropped (next.carry.near id)

theorem Tunnel.set_lanes (tunnel : Tunnel) (stream id : StreamId) (lane : Lane) :
    (tunnel.set stream lane).lanes id = if id = stream then lane else tunnel.lanes id :=
  Function.update_apply ..

theorem Tunnel.set_follows {tunnel : Tunnel} {stream : StreamId} {lane : Lane}
    (h : ∀ lost dropped, (tunnel.lanes stream).Sound lost dropped (tunnel.carry.near stream) →
      lane.Sound lost dropped (tunnel.carry.near stream)) :
    tunnel.Follows (tunnel.set stream lane) := by
  intro id lost dropped hlane
  rw [Tunnel.set_lanes]
  split_ifs with hid
  · subst hid
    exact h lost dropped hlane
  · exact hlane

-- Everything a step can do: the carrying task or a serving one goes on, or the
-- first bytes of a stream are lost.
theorem Tunnel.step_cases {carrying : Carrying} {settings : ServeSettings} {tunnel next : Tunnel}
    {event : TunnelEvent} (h : Tunnel.step carrying settings tunnel event = some next) :
    (∃ carried, event = .carry carried ∧
      Carry.own carrying tunnel.carry carried = some next.carry ∧ tunnel.Follows next ∧
      ∀ id, (next.lanes id).serve = (tunnel.lanes id).serve) ∨
    (∃ stream, event = .accept stream ∧ (tunnel.lanes stream).serve = none ∧
      next.carry = tunnel.carry ∧ tunnel.Follows next ∧
      ∀ id, (next.lanes id).serve =
        if id = stream then some (.start settings) else (tunnel.lanes id).serve) ∨
    (∃ stream served serve resumed, event = .serve stream served ∧
      (tunnel.lanes stream).serve = some serve ∧
      Serve.own settings serve served = some resumed ∧
      next.carry = tunnel.carry ∧ tunnel.Follows next ∧
      ∀ id, (next.lanes id).serve =
        if id = stream then some resumed else (tunnel.lanes id).serve) ∨
    (∃ stream count, (event = .loseOutgoing stream count ∧
        (tunnel.lanes stream).far.consumed = [] ∨
      event = .loseIncoming stream count ∧ (tunnel.carry.near stream).consumed = []) ∧
      next.carry = tunnel.carry ∧
      (∀ id, id ≠ stream → next.lanes id = tunnel.lanes id) ∧
      (∀ lost dropped, (tunnel.lanes stream).Sound lost dropped (tunnel.carry.near stream) →
        ∃ lost dropped, (next.lanes stream).Sound lost dropped (tunnel.carry.near stream)) ∧
      ∀ id, (next.lanes id).serve = (tunnel.lanes id).serve) := by
  cases event with
  | carry carried =>
      refine Or.inl ⟨carried, rfl, ?_⟩
      simp only [Tunnel.step] at h
      split at h
      · cases h
      · rename_i carry hcarry hmoved
        cases h
        refine ⟨hcarry, fun id lost dropped hlane => ?_, fun id => rfl⟩
        change (tunnel.lanes id).Sound lost dropped (carry.near id)
        rw [Carry.own_near hcarry, hmoved]
        exact hlane
      · rename_i carry stream taken given hcarry hmoved
        split_ifs at h with htaken
        cases h
        refine ⟨hcarry, fun id lost dropped hlane => ?_, fun id => ?_⟩
        · change ((tunnel.set stream _).lanes id).Sound lost dropped (carry.near id)
          rw [Carry.own_near hcarry, hmoved, Tunnel.set_lanes]
          by_cases hid : id = stream
          · subst hid
            simpa [moveAt] using hlane.near given htaken
          · simpa [moveAt, hid] using hlane
        · change ((tunnel.set stream _).lanes id).serve = _
          rw [Tunnel.set_lanes]
          split_ifs with hid
          · rw [hid]
          · rfl
  | accept stream =>
      refine Or.inr (Or.inl ⟨stream, rfl, ?_⟩)
      simp only [Tunnel.step] at h
      split at h
      · rename_i hnone
        cases h
        refine ⟨hnone, rfl, Tunnel.set_follows fun _ _ hlane => hlane.accept settings hnone,
          fun id => ?_⟩
        rw [Tunnel.set_lanes]
        split_ifs <;> rfl
      · cases h
  | serve stream served =>
      simp only [Tunnel.step] at h
      split at h
      · cases h
      rename_i serve hserve
      split at h
      · cases h
      rename_i resumed hs
      split_ifs at h with htaken
      cases h
      refine Or.inr (Or.inr (Or.inl ⟨stream, served, serve, resumed, rfl, hserve, hs, rfl,
        Tunnel.set_follows fun _ _ hlane => hlane.serves hserve hs htaken, fun id => ?_⟩))
      rw [Tunnel.set_lanes]
      split_ifs <;> rfl
  | loseOutgoing stream count =>
      simp only [Tunnel.step] at h
      split_ifs at h with hnothing
      cases h
      refine Or.inr (Or.inr (Or.inr ⟨stream, count, Or.inl ⟨rfl, hnothing⟩, rfl,
        fun id hid => by simp [Tunnel.set_lanes, hid], fun lost dropped hlane =>
          ⟨lost ++ (tunnel.lanes stream).outgoing.take count, dropped, ?_⟩, fun id => ?_⟩))
      · rw [Tunnel.set_lanes, if_pos rfl]
        exact hlane.loseOutgoing count hnothing
      · rw [Tunnel.set_lanes]
        split_ifs with hid
        · rw [hid]
        · rfl
  | loseIncoming stream count =>
      simp only [Tunnel.step] at h
      split_ifs at h with hnothing
      cases h
      refine Or.inr (Or.inr (Or.inr ⟨stream, count, Or.inr ⟨rfl, hnothing⟩, rfl,
        fun id hid => by simp [Tunnel.set_lanes, hid], fun lost dropped hlane =>
          ⟨lost, dropped ++ (tunnel.lanes stream).incoming.take count, ?_⟩, fun id => ?_⟩))
      · rw [Tunnel.set_lanes, if_pos rfl]
        exact hlane.loseIncoming count hnothing
      · rw [Tunnel.set_lanes]
        split_ifs with hid
        · rw [hid]
        · rfl

end LwdMixnet
