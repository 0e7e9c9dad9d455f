import LwdMixnet.Tunnel.Transparency

namespace LwdMixnet

-- Nothing has gone out but the start of one announcement, and nothing was heard.
structure Announces (near : StreamId → Duplex) (stream : StreamId) (sent : Header) : Prop where
  silent : sent.echoRequested = false
  others : ∀ id, id ≠ stream → near id = {}
  unheard : (near stream).consumed = []
  aligned : (near stream).accepted <+: sent.encode

-- With the probe off, a dial opens one stream and announces itself on it.
def Dial.Announced (near : StreamId → Duplex) (dial : Dial) : Prop :=
  dial.remaining = 0 ∧
    match dial.phase with
    | .opening _ _ | .announcing _ none => near = fun _ => {}
    | .announcing stream (some write) =>
        ∃ sent, Announces near stream sent ∧ write.Sent sent (near stream).accepted
    | .probing _ _ => False
    | .returned (.ok dialled) => ∃ sent, Announces near dialled.stream sent ∧
        (near dialled.stream).accepted = sent.encode
    | .returned (.error _) => ∃ stream sent, Announces near stream sent

section

variable {settings : DialSettings} {near : StreamId → Duplex} {dial next : Dial}

theorem Announces.nothing : Announces (fun _ => {}) 0 ⟨false, 0⟩ :=
  ⟨rfl, fun _ _ => rfl, rfl, List.nil_prefix⟩

theorem Dial.start_announced (hprobe : settings.probe = none) :
    (Dial.start settings).Announced fun _ => {} := by
  have hone : settings.attempts = 1 ∧ settings.concurrency = 1 := by
    simp [DialSettings.attempts, DialSettings.concurrency, hprobe]
  unfold Dial.Announced Dial.start Dial.turn
  simp [hone.1, hone.2]

theorem Dial.unanswered_announced (hremaining : dial.remaining = 0)
    (h : ∃ stream sent, Announces near stream sent) :
    (dial.unanswered settings).Announced near := by
  unfold Dial.Announced Dial.unanswered Dial.turn
  simp only [hremaining, if_true]
  exact ⟨trivial, h⟩

theorem Dial.opens_announced (dial : Dial) (hprobe : settings.probe = none)
    (hremaining : dial.remaining = 0) (left : Nat) (opened : List StreamId) :
    (dial.opens settings left opened).Announced fun _ => {} := by
  obtain ⟨-, he⟩ | ⟨-, -, he⟩ | ⟨-, -, stream, -, he⟩ | ⟨-, -, probe, hsome, -⟩ :=
    dial.opens_cases settings left opened
  · rw [he]
    exact ⟨hremaining, rfl⟩
  · rw [he]
    exact Dial.unanswered_announced hremaining ⟨0, _, Announces.nothing⟩
  · rw [he]
    exact ⟨hremaining, rfl⟩
  · rw [hprobe] at hsome
    cases hsome

theorem Dial.Announced.step {event : DialEvent} (hprobe : settings.probe = none)
    (h : dial.Announced near) (hs : dial.step settings event = some next) :
    next.Announced (moveAt near (dial.moved event)) := by
  obtain ⟨hremaining, hstands⟩ := h
  obtain ⟨left, opened, hphase, rfl, rfl⟩ | ⟨left, opened, code, hphase, rfl, rfl⟩ |
    ⟨stream, token, hphase, rfl, rfl⟩ | ⟨stream, write, io, after, hphase, rfl, hw, hnext⟩ |
    ⟨timeout, probes, stream, token, hphase, -⟩ |
    ⟨timeout, probes, stream, wait, probe, after, hphase, -⟩ |
    ⟨time, rfl, hallows, rfl⟩ := Dial.step_cases hs
  · rw [hphase] at hstands
    have hmoved : dial.moved .opened = none := by simp [Dial.moved, hphase]
    rw [hmoved, hstands, moveAt]
    refine Dial.opens_announced _ hprobe ?_ _ _
    exact hremaining
  · rw [hphase] at hstands
    have hmoved : dial.moved (.refused code) = none := by simp [Dial.moved, hphase]
    rw [hmoved, hstands, moveAt]
    refine Dial.opens_announced _ hprobe ?_ _ _
    exact hremaining
  · rw [hphase] at hstands
    have hmoved : dial.moved (.polled stream token) = none := by simp [Dial.moved, hphase]
    rw [hmoved, hstands]
    exact ⟨hremaining, _, ⟨rfl, fun _ _ => rfl, rfl, List.nil_prefix⟩, rfl⟩
  · rw [hphase] at hstands
    obtain ⟨sent, ⟨hsilent, hothers, hunheard, -⟩, hbefore⟩ := hstands
    have hmoved : dial.moved (.wait stream (.io io)) =
        some ⟨stream, io.taken, write.given io⟩ := by
      simp [Dial.moved, hphase]
    have htaken : io.taken = [] := by
      cases io with
      | read chunk => cases write <;> simp [WriteHeader.step] at hw
      | wrote _ | flushed | failed _ => rfl
    obtain ⟨later, hlater⟩ : ∃ later, later = moveAt near (dial.moved (.wait stream (.io io))) :=
      ⟨_, rfl⟩
    rw [← hlater]
    have hsame : later stream = (near stream).move [] (write.given io) := by
      simp [hlater, hmoved, moveAt, htaken]
    have hsent : after.Sent sent (later stream).accepted := by
      rw [hsame]
      exact hbefore.step hw
    have hannounces : Announces later stream sent := by
      refine ⟨hsilent, fun id hid => ?_, ?_, hsent.aligned⟩
      · simp [hlater, hmoved, moveAt, hid, hothers id hid]
      · simp [hsame, hunheard]
    obtain ⟨rfl, rfl⟩ | ⟨error, rfl, rfl⟩ | ⟨-, rfl⟩ := hnext
    · exact ⟨hremaining, sent, hannounces, hsent⟩
    · exact Dial.unanswered_announced hremaining ⟨stream, sent, hannounces⟩
    · exact ⟨hremaining, sent, hannounces, hsent⟩
  · rw [hphase] at hstands
    exact hstands.elim
  · rw [hphase] at hstands
    exact hstands.elim
  · have hmoved : dial.moved (.elapse time) = none := by
      unfold Dial.moved
      split <;> first | rfl | contradiction
    rw [hmoved]
    exact ⟨hremaining, hstands⟩

end

-- The stream that was announced has carried `carried` since.
structure Sends (near : StreamId → Duplex) (stream : StreamId) (sent : Header)
    (carried : Duplex) : Prop where
  silent : sent.echoRequested = false
  others : ∀ id, id ≠ stream → near id = {}
  after : near stream = carried.after ⟨[], sent.encode⟩

-- What went out starts the announcement and what the wallet sent after it, and
-- what the wallet was given starts what was heard.
structure Streams (wallet : Duplex) (near : StreamId → Duplex) (stream : StreamId)
    (sent : Header) : Prop where
  silent : sent.echoRequested = false
  others : ∀ id, id ≠ stream → near id = {}
  forth : (near stream).accepted <+: sent.encode ++ wallet.consumed
  back : wallet.accepted <+: (near stream).consumed

def Carry.Announced (carry : Carry) : Prop :=
  match carry.phase with
  | .accepted => carry.near = (fun _ => {}) ∧ carry.wallet = {}
  | .dialling dial => dial.Announced carry.near ∧ carry.wallet = {}
  | .dialled (.ok dialled) =>
      (∃ sent, Sends carry.near dialled.stream sent {}) ∧ carry.wallet = {}
  | .dialled (.error _) => (∃ stream sent, Announces carry.near stream sent) ∧ carry.wallet = {}
  | .splicing stream splice => ∃ sent carried, Sends carry.near stream sent carried ∧
      splice.Conserves carry.wallet carried
  | .returned => ∃ stream sent, Streams carry.wallet carry.near stream sent

section

variable {carrying : Carrying} {carry next : Carry} {stream : StreamId} {sent : Header}

theorem Announces.streams {near : StreamId → Duplex} (h : Announces near stream sent) :
    Streams {} near stream sent :=
  ⟨h.silent, h.others, h.aligned.trans (List.prefix_append _ _), List.nil_prefix⟩

theorem Sends.streams {near : StreamId → Duplex} {wallet carried : Duplex}
    (h : Sends near stream sent carried) (hforth : carried.accepted <+: wallet.consumed)
    (hback : wallet.accepted <+: carried.consumed) : Streams wallet near stream sent := by
  obtain ⟨hsilent, hothers, hafter⟩ := h
  refine ⟨hsilent, hothers, ?_, ?_⟩
  · rw [hafter]
    exact (List.prefix_append_right_inj _).mpr hforth
  · rw [hafter]
    exact hback

theorem Dial.Announced.announces {near : StreamId → Duplex} {dial : Dial}
    (h : dial.Announced near) : ∃ stream sent, Announces near stream sent := by
  obtain ⟨-, hstands⟩ := h
  split at hstands
  · rw [hstands]
    exact ⟨0, _, Announces.nothing⟩
  · rw [hstands]
    exact ⟨0, _, Announces.nothing⟩
  · obtain ⟨sent, hannounces, -⟩ := hstands
    exact ⟨_, sent, hannounces⟩
  · exact hstands.elim
  · obtain ⟨sent, hannounces, -⟩ := hstands
    exact ⟨_, sent, hannounces⟩
  · exact hstands

theorem Carry.Announced.streams (h : carry.Announced) :
    ∃ stream sent, Streams carry.wallet carry.near stream sent := by
  unfold Carry.Announced at h
  split at h
  · obtain ⟨hnear, hwallet⟩ := h
    rw [hnear, hwallet]
    exact ⟨_, _, Announces.nothing.streams⟩
  · obtain ⟨hdial, hwallet⟩ := h
    obtain ⟨stream, sent, hannounces⟩ := hdial.announces
    rw [hwallet]
    exact ⟨stream, sent, hannounces.streams⟩
  · obtain ⟨⟨sent, hsends⟩, hwallet⟩ := h
    rw [hwallet]
    exact ⟨_, sent, hsends.streams List.nil_prefix List.nil_prefix⟩
  · obtain ⟨⟨stream, sent, hannounces⟩, hwallet⟩ := h
    rw [hwallet]
    exact ⟨stream, sent, hannounces.streams⟩
  · obtain ⟨sent, carried, hsends, hconserves⟩ := h
    exact ⟨_, sent, hsends.streams hconserves.outbound.aligned hconserves.inbound.aligned⟩
  · exact h

theorem Carry.Announced.step {event : CarryEvent} (hprobe : carrying.dial.probe = none)
    (h : carry.Announced) (hs : Carry.own carrying carry event = some next) : next.Announced := by
  have hnear := Carry.own_near hs
  have hstands := h
  unfold Carry.Announced at hstands
  obtain ⟨after, hs⟩ := Carry.own_step hs
  obtain ⟨hphase, rfl, rfl⟩ | ⟨dial, waited, resumed, hphase, rfl, hd, hwallet, -, hnext⟩ |
    ⟨dialled, hphase, rfl, rfl⟩ | ⟨gaveUp, hphase, rfl, rfl⟩ |
    ⟨stream, splice, waited, resumed, hphase, rfl, hsplice, hwallet, -, hnext⟩ |
    ⟨time, rfl, rfl⟩ := Carry.step_cases hs
  · simp only [hphase] at hstands
    obtain ⟨hnothing, hwallet⟩ := hstands
    refine ⟨?_, hwallet⟩
    simp only [hnothing]
    exact Dial.start_announced hprobe
  · simp only [hphase] at hstands
    have hmoved : carry.moved (.dial waited) = dial.moved waited := by
      simp [Carry.moved, hphase]
    rw [hmoved] at hnear
    have hannounced := hstands.1.step hprobe hd
    rw [← hnear] at hannounced
    have hnothing : next.wallet = {} := hwallet.trans hstands.2
    obtain ⟨result, hresumed, hnext⟩ | hnext := hnext
    · have hreturned := hannounced.2
      rw [hresumed] at hreturned
      cases result with
      | ok dialled =>
          obtain ⟨sent, hannounces, haccepted⟩ := hreturned
          simp only [Carry.Announced, hnext]
          refine ⟨⟨sent, hannounces.silent, hannounces.others, Duplex.ext ?_ ?_⟩, hnothing⟩
          · simp [Duplex.after, Duplex.move, hannounces.unheard]
          · simp [Duplex.after, Duplex.move, haccepted]
      | error gaveUp =>
          simp only [Carry.Announced, hnext]
          exact ⟨hreturned, hnothing⟩
    · simp only [Carry.Announced, hnext]
      exact ⟨hannounced, hnothing⟩
  · simp only [hphase] at hstands
    obtain ⟨⟨sent, hsilent, hothers, hafter⟩, hwallet⟩ := hstands
    refine ⟨sent, {}, ⟨hsilent, hothers, hafter⟩, ?_⟩
    simp only [hwallet]
    exact Splice.start_conserves _
  · simp only [hphase] at hstands
    obtain ⟨⟨stream, sent, hannounces⟩, hwallet⟩ := hstands
    refine ⟨stream, sent, ?_⟩
    simp only [hwallet]
    exact hannounces.streams
  · simp only [hphase] at hstands
    obtain ⟨sent, carried, ⟨hsilent, hothers, hafter⟩, hconserves⟩ := hstands
    have hmoved (id : StreamId) : next.near id =
        if id = stream then splice.remoteEnd (carry.near id) waited else carry.near id := by
      rw [hnear, Carry.moved_splicing hphase]
    have hsends : Sends next.near stream sent (splice.remoteEnd carried waited) := by
      refine ⟨hsilent, fun id hid => ?_, ?_⟩
      · rw [hmoved, if_neg hid]
        exact hothers id hid
      · rw [hmoved, if_pos rfl, hafter, Splice.remoteEnd_after]
    have hconserves' := hconserves.step hsplice
    rw [← hwallet] at hconserves'
    obtain hnext | hnext := hnext
    · simp only [Carry.Announced, hnext]
      exact ⟨sent, _, hsends, hconserves'⟩
    · simp only [Carry.Announced, hnext]
      exact ⟨stream, sent, hsends.streams hconserves'.outbound.aligned
        hconserves'.inbound.aligned⟩
  · exact h

end

def TunnelEvent.loses : TunnelEvent → Bool
  | .loseOutgoing _ _ | .loseIncoming _ _ => true
  | _ => false

-- Every stream is in order, and all of it where nothing was lost.
structure Tunnel.Announced (lossless : Prop) (tunnel : Tunnel) : Prop where
  lanes : ∀ id, ∃ lost dropped,
    (tunnel.lanes id).Sound lost dropped (tunnel.carry.near id) ∧
      (lossless → lost = [] ∧ dropped = [])
  carry : tunnel.carry.Announced

section

variable {carrying : Carrying} {settings : ServeSettings} {tunnel next : Tunnel}
  {lossless : Prop} {stream : StreamId}

theorem Tunnel.Announced.step {event : TunnelEvent} (hprobe : carrying.dial.probe = none)
    (h : tunnel.Announced lossless)
    (hs : Tunnel.step carrying settings tunnel event = some next) :
    next.Announced (lossless ∧ event.loses = false) := by
  have hlanes (hfollows : tunnel.Follows next) (id : StreamId) : ∃ lost dropped,
      (next.lanes id).Sound lost dropped (next.carry.near id) ∧
        (lossless ∧ event.loses = false → lost = [] ∧ dropped = []) := by
    obtain ⟨lost, dropped, hlane, hnothing⟩ := h.lanes id
    exact ⟨lost, dropped, hfollows id lost dropped hlane, fun hlossless => hnothing hlossless.1⟩
  obtain ⟨carried, rfl, hcarry, hfollows, -⟩ | ⟨stream, rfl, -, hcarry, hfollows, -⟩ |
    ⟨stream, served, serve, resumed, rfl, -, -, hcarry, hfollows, -⟩ |
    ⟨stream, count, hevent, hcarry, hothers, hlost, -⟩ := Tunnel.step_cases hs
  · exact ⟨hlanes hfollows, h.carry.step hprobe hcarry⟩
  · exact ⟨hlanes hfollows, hcarry ▸ h.carry⟩
  · exact ⟨hlanes hfollows, hcarry ▸ h.carry⟩
  · refine ⟨fun id => ?_, hcarry ▸ h.carry⟩
    have hloses : event.loses = true := by
      obtain ⟨rfl, -⟩ | ⟨rfl, -⟩ := hevent
      · rfl
      · rfl
    obtain ⟨lost, dropped, hlane, -⟩ := h.lanes id
    rw [hcarry]
    by_cases hid : id = stream
    · subst hid
      obtain ⟨lost, dropped, hlane⟩ := hlost lost dropped hlane
      exact ⟨lost, dropped, hlane, by simp [hloses]⟩
    · rw [hothers id hid]
      exact ⟨lost, dropped, hlane, by simp [hloses]⟩

theorem tunnel_announced {events : List TunnelEvent} (hprobe : carrying.dial.probe = none)
    (hr : (Tunnel.step carrying settings).run {} events = some tunnel) :
    tunnel.Announced (∀ event ∈ events, event.loses = false) := by
  refine Machine.run_history (fun events (tunnel : Tunnel) =>
    tunnel.Announced (∀ event ∈ events, event.loses = false)) ?_ ?_ hr
  · refine ⟨fun id => ⟨[], [], ⟨rfl, rfl, fun serve hserve => ?_⟩, fun _ => ⟨rfl, rfl⟩⟩, rfl, rfl⟩
    cases hserve
  · intro events tunnel event next hr h hs
    obtain ⟨hlanes, hcarry⟩ := h.step hprobe hs
    refine ⟨fun id => ?_, hcarry⟩
    obtain ⟨lost, dropped, hlane, hnothing⟩ := hlanes id
    refine ⟨lost, dropped, hlane, fun hlossless => hnothing ⟨fun event hevent => ?_, ?_⟩⟩
    · exact hlossless event (List.mem_append_left _ hevent)
    · exact hlossless event (List.mem_append_right _ (List.mem_singleton_self _))

-- Only the stream that was announced can reach the upstream.
theorem Tunnel.Announced.reaching {serve : Serve} {sent : Header} {announced : StreamId}
    (h : tunnel.Announced lossless)
    (hstreams : Streams tunnel.carry.wallet tunnel.carry.near announced sent)
    (hserve : (tunnel.lanes stream).serve = some serve) (hreaching : serve.Reaching) :
    stream = announced := by
  by_contra hid
  obtain ⟨lost, dropped, hlane, -⟩ := h.lanes stream
  have hshort : (tunnel.carry.near stream).accepted.length ≤ HEADER_LEN := by
    rw [hstreams.others stream hid]
    exact Nat.zero_le _
  exact hlane.short hshort hserve hreaching

theorem Tunnel.Announced.alone {first second : StreamId} {serve other : Serve}
    (h : tunnel.Announced lossless) (hserve : (tunnel.lanes first).serve = some serve)
    (hother : (tunnel.lanes second).serve = some other) (hfirst : serve.Reaching)
    (hsecond : other.Reaching) : first = second := by
  obtain ⟨announced, sent, hstreams⟩ := h.carry.streams
  have hannounced := h.reaching hstreams hserve hfirst
  rw [hannounced, h.reaching hstreams hother hsecond]

-- The far side was given some fourteen bytes as a header and relays the rest.
theorem Tunnel.Announced.delivered {serve : Serve} {upstream : Duplex}
    (h : tunnel.Announced lossless) (hserve : (tunnel.lanes stream).serve = some serve)
    (hupstream : serve.upstream = some upstream) :
    ∃ (sent : Header) (lost wire : Bytes) (header : Header) (dropped : Bytes),
      sent.echoRequested = false ∧ wire.length = HEADER_LEN ∧ Header.decode wire = .ok header ∧
      lost ++ wire ++ upstream.accepted <+: sent.encode ++ tunnel.carry.wallet.consumed ∧
      dropped ++ tunnel.carry.wallet.accepted <+: header.greeting ++ upstream.consumed ∧
      (lossless → lost = [] ∧ dropped = []) := by
  obtain ⟨announced, sent, hstreams⟩ := h.carry.streams
  have hreaching : serve.Reaching := Or.inl (by simp [hupstream])
  obtain rfl := h.reaching hstreams hserve hreaching
  obtain ⟨lost, dropped, ⟨hout, hback, hsound⟩, hnothing⟩ := h.lanes stream
  rw [Lane.far_serve hserve] at hout hback
  obtain ⟨hnone, -⟩ | ⟨other, hother, carried, returned, -, hrelays, hforth, hreturn⟩ :=
    (hsound serve hserve).relayed
  · rw [hupstream] at hnone
    cases hnone
  obtain rfl := Option.some.inj (hupstream.symm.trans hother)
  obtain ⟨wire, header, hlen, hdecode, hstream⟩ := hrelays
  rw [hstream] at hout hback
  simp only at hout hback
  refine ⟨sent, lost, wire, header, dropped, hstreams.silent, hlen, hdecode, ?_, ?_, hnothing⟩
  · have hgiven : lost ++ wire ++ upstream.accepted <+: (tunnel.carry.near stream).accepted := by
      rw [hout, List.append_assoc, List.append_assoc]
      have hcarried : upstream.accepted <+: carried ++ (tunnel.lanes stream).outgoing :=
        hforth.trans (List.prefix_append _ _)
      exact (List.prefix_append_right_inj _).mpr ((List.prefix_append_right_inj _).mpr hcarried)
    exact hgiven.trans hstreams.forth
  · have hheard : dropped ++ tunnel.carry.wallet.accepted <+: header.greeting ++ returned := by
      rw [hback]
      exact (List.prefix_append_right_inj _).mpr (hstreams.back.trans (List.prefix_append _ _))
    exact hheard.trans ((List.prefix_append_right_inj _).mpr hreturn)

theorem encode_of_start {wire rest : Bytes} {sent : Header} (hlen : wire.length = HEADER_LEN)
    (h : wire <+: sent.encode ++ rest) : wire = sent.encode := by
  have hsame : wire.length = sent.encode.length := by rw [hlen, encode_length]
  have hstart : wire <+: sent.encode :=
    List.prefix_of_prefix_length_le h (List.prefix_append _ _) hsame.le
  exact hstart.eq_of_length hsame

theorem Tunnel.Announced.transparent {serve : Serve} {upstream : Duplex}
    (h : tunnel.Announced lossless) (hlossless : lossless)
    (hserve : (tunnel.lanes stream).serve = some serve)
    (hupstream : serve.upstream = some upstream) :
    upstream.accepted <+: tunnel.carry.wallet.consumed ∧
      tunnel.carry.wallet.accepted <+: upstream.consumed := by
  obtain ⟨sent, lost, wire, header, dropped, hsilent, hlen, hdecode, hforth, hback, hnothing⟩ :=
    h.delivered hserve hupstream
  obtain ⟨rfl, rfl⟩ := hnothing hlossless
  rw [List.nil_append] at hforth hback
  have hwire : wire = sent.encode :=
    encode_of_start hlen ((List.prefix_append _ _).trans hforth)
  rw [hwire, decode_encode] at hdecode
  obtain rfl := Except.ok.inj hdecode
  rw [hwire, List.prefix_append_right_inj] at hforth
  rw [Header.greeting, hsilent] at hback
  exact ⟨hforth, hback⟩

-- Where the header that was read asked for no echo, nothing was said before the
-- upstream said it.
theorem Tunnel.Announced.silent (h : tunnel.Announced lossless) (hlossless : lossless)
    (hnone : ∀ id serve, (tunnel.lanes id).serve = some serve → serve.upstream = none) :
    tunnel.carry.wallet.accepted = [] := by
  obtain ⟨stream, sent, hstreams⟩ := h.carry.streams
  obtain ⟨lost, dropped, hlane, hnothing⟩ := h.lanes stream
  obtain ⟨rfl, rfl⟩ := hnothing hlossless
  by_contra hsome
  have hheard : (tunnel.carry.near stream).consumed ≠ [] := by
    intro hnothing
    have hback := hstreams.back
    rw [hnothing] at hback
    exact hsome (List.prefix_nil.mp hback)
  obtain ⟨serve, hserve, hsaid, -⟩ := hlane.served hheard
  rw [Lane.far_serve hserve] at hsaid
  obtain ⟨-, hsilence | ⟨header, hecho, hlen, hdecode, -⟩⟩ | ⟨upstream, hupstream, -⟩ :=
    (hlane.serve serve hserve).relayed
  · exact hsaid hsilence
  · have hout := hlane.outgoing
    rw [Lane.far_serve hserve, List.nil_append] at hout
    have hread : serve.stream.consumed <+: (tunnel.carry.near stream).accepted := by
      rw [hout]
      exact List.prefix_append _ _
    have hwire : serve.stream.consumed.take HEADER_LEN = sent.encode :=
      encode_of_start (List.length_take_of_le hlen)
        ((List.take_prefix _ _).trans (hread.trans hstreams.forth))
    rw [hwire, decode_encode] at hdecode
    obtain rfl := Except.ok.inj hdecode
    rw [hstreams.silent] at hecho
    cases hecho
  · rw [hnone stream serve hserve] at hupstream
    cases hupstream

theorem tunnel_announced_recorded {events : List TunnelEvent}
    (hprobe : carrying.dial.probe = none)
    (hr : (Tunnel.step carrying settings).run {} events = some tunnel) :
    tunnel.Recorded (events.countP TunnelEvent.connects) := by
  refine Machine.run_history (fun events (tunnel : Tunnel) =>
    tunnel.Recorded (events.countP TunnelEvent.connects)) ?_ ?_ hr
  · exact Or.inl ⟨rfl, fun id serve hserve => by cases hserve⟩
  · intro events tunnel event next hr hrecorded hs
    have hannounced := tunnel_announced hprobe hr
    have hserves (id : StreamId) (serve : Serve) (hserve : (tunnel.lanes id).serve = some serve) :
        serve.Sound := by
      obtain ⟨lost, dropped, hlane, -⟩ := hannounced.lanes id
      exact hlane.serve serve hserve
    have hnext := hrecorded.step hserves
      (fun _ _ _ _ hserve hother => hannounced.alone hserve hother) hs
    rw [List.countP_append, List.countP_singleton]
    exact hnext

end

-- With the probe off, a wallet's connection still reaches at most one upstream,
-- over the one stream it opened. Some fourteen bytes of that stream were taken
-- for the header. What the upstream was given starts what followed them, and
-- where nothing of the stream was lost, the tunnel is transparent.
theorem carried_unprobed (carrying : Carrying) (settings : ServeSettings)
    (hprobe : carrying.dial.probe = none) (events : List TunnelEvent) (tunnel : Tunnel)
    (hr : (Tunnel.step carrying settings).run {} events = some tunnel) :
    events.countP TunnelEvent.connects ≤ 1 ∧
    (∀ first second serve other, (tunnel.lanes first).serve = some serve →
      (tunnel.lanes second).serve = some other → serve.Reaching → other.Reaching →
      first = second) ∧
    (∀ stream serve upstream, (tunnel.lanes stream).serve = some serve →
      serve.upstream = some upstream →
      ∃ (sent : Header) (lost wire : Bytes) (header : Header) (dropped : Bytes),
        sent.echoRequested = false ∧ wire.length = HEADER_LEN ∧
        Header.decode wire = .ok header ∧
        lost ++ wire ++ upstream.accepted <+: sent.encode ++ tunnel.carry.wallet.consumed ∧
        dropped ++ tunnel.carry.wallet.accepted <+: header.greeting ++ upstream.consumed) ∧
    ((∀ event ∈ events, event.loses = false) →
      (∀ stream serve upstream, (tunnel.lanes stream).serve = some serve →
        serve.upstream = some upstream →
        upstream.accepted <+: tunnel.carry.wallet.consumed ∧
        tunnel.carry.wallet.accepted <+: upstream.consumed) ∧
      ((∀ stream serve, (tunnel.lanes stream).serve = some serve → serve.upstream = none) →
        tunnel.carry.wallet.accepted = [])) := by
  have hannounced := tunnel_announced hprobe hr
  refine ⟨?_, fun _ _ _ _ hserve hother => hannounced.alone hserve hother, ?_, ?_⟩
  · obtain ⟨hcount, -⟩ | ⟨hcount, -⟩ := tunnel_announced_recorded hprobe hr
    · rw [hcount]
      exact Nat.zero_le _
    · exact hcount.le
  · intro stream serve upstream hserve hupstream
    obtain ⟨sent, lost, wire, header, dropped, hsilent, hlen, hdecode, hforth, hback, -⟩ :=
      hannounced.delivered hserve hupstream
    exact ⟨sent, lost, wire, header, dropped, hsilent, hlen, hdecode, hforth, hback⟩
  · intro hlossless
    exact ⟨fun _ _ _ hserve => hannounced.transparent hlossless hserve,
      hannounced.silent hlossless⟩

-- One stream that is announced and never probed, whose first answer is cut
-- short on its way.
def unprobedCarrying : Carrying where
  dial := { probe := none }
  watchdog := { stall := some 60 }

def unprobedSettings : ServeSettings where
  handshakeTimeout := 10
  firstRequestTimeout := 20
  idleTimeout := 300

def unprobedEvents : List TunnelEvent :=
  [.carry .start, .carry (.dial .opened), .carry (.dial (.polled 0 7)),
    .carry (.dial (.wait 0 (.io (.wrote 14)))), .carry (.dial (.wait 0 (.io .flushed))),
    .carry .fold, .carry (.splice (.outbound (.read [80, 82]))),
    .carry (.splice (.outbound (.wrote 2))), .accept 0,
    .serve 0 (.stream (.io (.read (Header.encode ⟨false, 7⟩)))),
    .serve 0 (.stream (.io (.read [80, 82]))), .serve 0 .connected,
    .serve 0 (.upstream (.wrote 2)), .serve 0 (.splice (.outbound (.read [65, 66]))),
    .serve 0 (.splice (.outbound (.wrote 2))), .loseIncoming 0 1,
    .carry (.splice (.inbound (.read [66]))), .carry (.splice (.inbound (.wrote 1)))]

theorem unprobed_cut_short : ∃ tunnel serve upstream,
    (Tunnel.step unprobedCarrying unprobedSettings).run {} unprobedEvents = some tunnel ∧
    (tunnel.lanes 0).serve = some serve ∧ serve.upstream = some upstream ∧
    upstream = ⟨[65, 66], [80, 82]⟩ ∧ tunnel.carry.wallet = ⟨[80, 82], [66]⟩ ∧
    unprobedEvents.countP TunnelEvent.connects ≤ 1 ∧
    ∃ (sent : Header) (lost wire : Bytes) (header : Header) (dropped : Bytes),
      sent.echoRequested = false ∧ wire.length = HEADER_LEN ∧ Header.decode wire = .ok header ∧
      lost ++ wire ++ upstream.accepted <+: sent.encode ++ tunnel.carry.wallet.consumed ∧
      dropped ++ tunnel.carry.wallet.accepted <+: header.greeting ++ upstream.consumed := by
  obtain ⟨tunnel, hr, he⟩ : ∃ tunnel,
      (Tunnel.step unprobedCarrying unprobedSettings).run {} unprobedEvents = some tunnel ∧
      ((tunnel.lanes 0).serve.bind Serve.upstream, tunnel.carry.wallet) =
        (some ⟨[65, 66], [80, 82]⟩, ⟨[80, 82], [66]⟩) :=
    Option.map_eq_some_iff.mp (by decide +kernel)
  obtain ⟨hupstream, hwallet⟩ := Prod.mk.inj he
  obtain ⟨serve, hserve, hupstream⟩ := Option.bind_eq_some_iff.mp hupstream
  obtain ⟨hcount, -, hdelivered, -⟩ := carried_unprobed unprobedCarrying unprobedSettings rfl
    unprobedEvents tunnel hr
  exact ⟨tunnel, serve, _, hr, hserve, hupstream, rfl, hwallet, hcount,
    hdelivered 0 serve _ hserve hupstream⟩

end LwdMixnet
