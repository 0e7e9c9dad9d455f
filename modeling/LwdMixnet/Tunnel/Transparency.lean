import LwdMixnet.Tunnel.Lanes

namespace LwdMixnet

-- The stream that the dial kept: its header made the round trip, nothing of it
-- was lost, and `carried` is what it has moved since.
structure Tunnel.Keeps (stream : StreamId) (sent : Header) (carried : Duplex) (tunnel : Tunnel) :
    Prop where
  echo : sent.echoRequested
  near : tunnel.carry.near stream = carried.after ⟨sent.encode, sent.encode⟩
  lane : (tunnel.lanes stream).Sound [] [] (tunnel.carry.near stream)
  others : ∀ id, id ≠ stream → (tunnel.carry.near id).accepted.length ≤ HEADER_LEN

-- Nothing but headers was sent, and the wallet was neither read nor written.
structure Tunnel.Untouched (tunnel : Tunnel) : Prop where
  short : ∀ id, (tunnel.carry.near id).accepted.length ≤ HEADER_LEN
  wallet : tunnel.carry.wallet = {}

def Tunnel.Kept (tunnel : Tunnel) : Prop :=
  ∃ stream sent carried, tunnel.Keeps stream sent carried ∧
    carried.accepted <+: tunnel.carry.wallet.consumed ∧
    tunnel.carry.wallet.accepted <+: carried.consumed

def Tunnel.Standing (tunnel : Tunnel) : Prop :=
  match tunnel.carry.phase with
  | .accepted => tunnel.carry.near = (fun _ => {}) ∧ tunnel.carry.wallet = {}
  | .dialling dial => dial.Spoke tunnel.carry.near ∧ tunnel.carry.wallet = {}
  | .dialled (.ok dialled) =>
      (∃ sent, tunnel.Keeps dialled.stream sent {}) ∧ tunnel.carry.wallet = {}
  | .dialled (.error _) => tunnel.Untouched
  | .splicing stream splice => ∃ sent carried, tunnel.Keeps stream sent carried ∧
      splice.Conserves tunnel.carry.wallet carried
  | .returned => tunnel.Untouched ∨ tunnel.Kept

structure Tunnel.Sound (tunnel : Tunnel) : Prop where
  lanes : ∀ id, ∃ lost dropped, (tunnel.lanes id).Sound lost dropped (tunnel.carry.near id)
  standing : tunnel.Standing

theorem Tunnel.Sound.kept {tunnel : Tunnel} (h : tunnel.Sound) :
    tunnel.Untouched ∨ tunnel.Kept := by
  have hstanding := h.standing
  unfold Tunnel.Standing at hstanding
  split at hstanding
  · exact Or.inl ⟨fun id => by simp [hstanding.1], hstanding.2⟩
  · exact Or.inl ⟨hstanding.1.short, hstanding.2⟩
  · obtain ⟨⟨sent, hkeeps⟩, hwallet⟩ := hstanding
    have hnothing : tunnel.carry.wallet.accepted = [] := by rw [hwallet]
    exact Or.inr ⟨_, sent, {}, hkeeps, List.nil_prefix, hnothing ▸ List.nil_prefix⟩
  · exact Or.inl hstanding
  · obtain ⟨sent, carried, hkeeps, hconserves⟩ := hstanding
    exact Or.inr ⟨_, sent, carried, hkeeps, hconserves.outbound.aligned,
      hconserves.inbound.aligned⟩
  · exact hstanding

section

variable {carrying : Carrying} {settings : ServeSettings} {tunnel next : Tunnel}
  {stream : StreamId} {sent : Header} {carried : Duplex}

theorem Tunnel.Keeps.congr (h : tunnel.Keeps stream sent carried)
    (hnear : next.carry.near = tunnel.carry.near)
    (hlane : (tunnel.lanes stream).Sound [] [] (tunnel.carry.near stream) →
      (next.lanes stream).Sound [] [] (next.carry.near stream)) :
    next.Keeps stream sent carried := by
  obtain ⟨hecho, hafter, hsound, hothers⟩ := h
  exact ⟨hecho, by rw [hnear, hafter], hlane hsound, by rwa [hnear]⟩

theorem Tunnel.Standing.congr (h : tunnel.Standing)
    (hphase : next.carry.phase = tunnel.carry.phase)
    (hnear : next.carry.near = tunnel.carry.near)
    (hwallet : next.carry.wallet = tunnel.carry.wallet)
    (hkeeps : ∀ stream sent carried, tunnel.Keeps stream sent carried →
      next.Keeps stream sent carried) : next.Standing := by
  have huntouched (h : tunnel.Untouched) : next.Untouched := by
    obtain ⟨hshort, hnothing⟩ := h
    exact ⟨by rwa [hnear], by rwa [hwallet]⟩
  unfold Tunnel.Standing at h ⊢
  rw [hphase, hnear, hwallet]
  split at h
  · exact h
  · exact h
  · obtain ⟨⟨sent, hkept⟩, hnothing⟩ := h
    exact ⟨⟨sent, hkeeps _ _ _ hkept⟩, hnothing⟩
  · exact huntouched h
  · obtain ⟨sent, carried, hkept, hconserves⟩ := h
    exact ⟨sent, carried, hkeeps _ _ _ hkept, hconserves⟩
  · refine h.imp huntouched ?_
    rintro ⟨stream, sent, carried, hkept, hforth, hback⟩
    refine ⟨stream, sent, carried, hkeeps _ _ _ hkept, ?_, ?_⟩
    · rwa [hwallet]
    · rwa [hwallet]

-- Both ends of the stream that was kept have been heard, so nothing more of it
-- is lost.
theorem Tunnel.Keeps.heard (h : tunnel.Keeps stream sent carried) :
    (tunnel.carry.near stream).consumed ≠ [] ∧ (tunnel.lanes stream).far.consumed ≠ [] := by
  have hnear : (tunnel.carry.near stream).consumed ≠ [] := by
    rw [h.near]
    intro hnothing
    have hlen := congrArg List.length hnothing
    simp [Duplex.after, encode_length, HEADER_LEN] at hlen
  obtain ⟨serve, -, -, hlen⟩ := h.lane.served hnear
  refine ⟨hnear, fun hnothing => ?_⟩
  simp [hnothing, HEADER_LEN] at hlen

theorem Carry.moved_splicing {carry : Carry} {splice : Splice} {waited : SpliceEvent}
    (hphase : carry.phase = .splicing stream splice) (id : StreamId) :
    moveAt carry.near (carry.moved (.splice waited)) id =
      if id = stream then splice.remoteEnd (carry.near id) waited else carry.near id := by
  cases waited <;> simp [Carry.moved, hphase, moveAt, Splice.remoteEnd]

-- The stream whose probe was answered is kept.
theorem Tunnel.keeps_answered {dial : Dial} {dialled : Dialled}
    (hspoke : dial.Spoke tunnel.carry.near) (hphase : dial.phase = .returned (.ok dialled))
    (hlanes : ∀ id, ∃ lost dropped,
      (tunnel.lanes id).Sound lost dropped (tunnel.carry.near id)) :
    ∃ sent, tunnel.Keeps dialled.stream sent {} := by
  have hanswered := hspoke.phase
  rw [hphase] at hanswered
  obtain ⟨sent, hanswered⟩ := hanswered
  obtain ⟨lost, dropped, hlane⟩ := hlanes dialled.stream
  obtain ⟨rfl, rfl, hnear⟩ := hlane.answered hanswered
  refine ⟨sent, hanswered.1, ?_, hlane, fun id _ => hspoke.short id⟩
  rw [hnear]
  simp [Duplex.after, Duplex.move]

theorem Tunnel.Standing.carry {event : CarryEvent} (hprobe : carrying.dial.probe ≠ none)
    (h : tunnel.Sound) (hs : Carry.own carrying tunnel.carry event = some next.carry)
    (hfollows : tunnel.Follows next) : next.Standing := by
  have hlanes (id : StreamId) : ∃ lost dropped,
      (next.lanes id).Sound lost dropped (next.carry.near id) := by
    obtain ⟨lost, dropped, hlane⟩ := h.lanes id
    exact ⟨lost, dropped, hfollows id lost dropped hlane⟩
  have hnear := Carry.own_near hs
  have hstanding := h.standing
  obtain ⟨after, hs⟩ := Carry.own_step hs
  obtain ⟨hphase, rfl, hnext⟩ | ⟨dial, waited, resumed, hphase, rfl, hd, hwallet, -, hnext⟩ |
    ⟨dialled, hphase, rfl, hnext⟩ | ⟨gaveUp, hphase, rfl, hnext⟩ |
    ⟨stream, splice, waited, resumed, hphase, rfl, hsplice, hwallet, -, hnext⟩ |
    ⟨time, rfl, hnext⟩ := Carry.step_cases hs
  · simp only [Tunnel.Standing, hphase] at hstanding
    simp only [Tunnel.Standing, hnext, hstanding.1]
    exact ⟨Dial.start_spoke _, hstanding.2⟩
  · simp only [Tunnel.Standing, hphase] at hstanding
    have hmoved : tunnel.carry.moved (.dial waited) = dial.moved waited := by
      simp [Carry.moved, hphase]
    rw [hmoved] at hnear
    have hspoke := hstanding.1.step hprobe hd
    rw [← hnear] at hspoke
    have hwallet : next.carry.wallet = {} := hwallet.trans hstanding.2
    obtain ⟨result, hresumed, hnext⟩ | hnext := hnext
    · cases result with
      | ok dialled =>
          simp only [Tunnel.Standing, hnext]
          exact ⟨Tunnel.keeps_answered hspoke hresumed hlanes, hwallet⟩
      | error gaveUp =>
          simp only [Tunnel.Standing, hnext]
          exact ⟨hspoke.short, hwallet⟩
    · simp only [Tunnel.Standing, hnext]
      exact ⟨hspoke, hwallet⟩
  · simp only [Tunnel.Standing, hphase] at hstanding
    obtain ⟨⟨sent, hkeeps⟩, hwallet⟩ := hstanding
    have hkept : next.Keeps dialled.stream sent {} :=
      hkeeps.congr (by rw [hnext]) (hfollows _ [] [])
    simp only [Tunnel.Standing, hnext, hwallet]
    exact ⟨sent, {}, hkept, Splice.start_conserves _⟩
  · simp only [Tunnel.Standing, hphase] at hstanding
    simp only [Tunnel.Standing, hnext]
    exact Or.inl ⟨by simpa [hnext] using hstanding.short, by simpa [hnext] using hstanding.wallet⟩
  · simp only [Tunnel.Standing, hphase] at hstanding
    obtain ⟨sent, carried, hkeeps, hconserves⟩ := hstanding
    have hmoved (id : StreamId) : next.carry.near id =
        if id = stream then splice.remoteEnd (tunnel.carry.near id) waited
        else tunnel.carry.near id := by
      rw [hnear, Carry.moved_splicing hphase]
    have hkept : next.Keeps stream sent (splice.remoteEnd carried waited) := by
      refine ⟨hkeeps.echo, ?_, hfollows stream [] [] hkeeps.lane, fun id hid => ?_⟩
      · rw [hmoved, if_pos rfl, hkeeps.near, Splice.remoteEnd_after]
      · rw [hmoved, if_neg hid]
        exact hkeeps.others id hid
    have hconserves' := hconserves.step hsplice
    rw [← hwallet] at hconserves'
    obtain hnext | hnext := hnext
    · simp only [Tunnel.Standing, hnext]
      exact ⟨sent, _, hkept, hconserves'⟩
    · simp only [Tunnel.Standing, hnext]
      exact Or.inr ⟨stream, sent, _, hkept, hconserves'.outbound.aligned,
        hconserves'.inbound.aligned⟩
  · refine hstanding.congr (by rw [hnext]) (by rw [hnext]) (by rw [hnext]) ?_
    intro stream sent carried hkeeps
    exact hkeeps.congr (by rw [hnext]) (hfollows stream [] [])

theorem Tunnel.Sound.step {event : TunnelEvent} (hprobe : carrying.dial.probe ≠ none)
    (h : tunnel.Sound) (hs : Tunnel.step carrying settings tunnel event = some next) :
    next.Sound := by
  have hlanes (hfollows : tunnel.Follows next) (id : StreamId) : ∃ lost dropped,
      (next.lanes id).Sound lost dropped (next.carry.near id) := by
    obtain ⟨lost, dropped, hlane⟩ := h.lanes id
    exact ⟨lost, dropped, hfollows id lost dropped hlane⟩
  have hserved (hcarry : next.carry = tunnel.carry) (hfollows : tunnel.Follows next) :
      next.Sound := by
    refine ⟨hlanes hfollows, h.standing.congr (by rw [hcarry]) (by rw [hcarry])
      (by rw [hcarry]) fun stream sent carried hkeeps => ?_⟩
    exact hkeeps.congr (by rw [hcarry]) (hfollows stream [] [])
  obtain ⟨carried, rfl, hcarry, hfollows, -⟩ | ⟨stream, rfl, -, hcarry, hfollows, -⟩ |
    ⟨stream, served, serve, resumed, rfl, -, -, hcarry, hfollows, -⟩ |
    ⟨stream, count, hevent, hcarry, hothers, hlost, -⟩ := Tunnel.step_cases hs
  · exact ⟨hlanes hfollows, Tunnel.Standing.carry hprobe h hcarry hfollows⟩
  · exact hserved hcarry hfollows
  · exact hserved hcarry hfollows
  · refine ⟨fun id => ?_, h.standing.congr (by rw [hcarry]) (by rw [hcarry]) (by rw [hcarry])
      fun kept sent carried hkeeps => ?_⟩
    · obtain ⟨lost, dropped, hlane⟩ := h.lanes id
      rw [hcarry]
      by_cases hid : id = stream
      · subst hid
        exact hlost lost dropped hlane
      · rw [hothers id hid]
        exact ⟨lost, dropped, hlane⟩
    · have hne : kept ≠ stream := by
        rintro rfl
        obtain ⟨hnear, hfar⟩ := hkeeps.heard
        rcases hevent with ⟨-, hnothing⟩ | ⟨-, hnothing⟩
        · exact hfar hnothing
        · exact hnear hnothing
      refine hkeeps.congr (by rw [hcarry]) fun hlane => ?_
      rwa [hcarry, hothers kept hne]

theorem tunnel_sound {events : List TunnelEvent} (hprobe : carrying.dial.probe ≠ none)
    (hr : (Tunnel.step carrying settings).run {} events = some tunnel) : tunnel.Sound := by
  refine Machine.run_invariant _ (fun _ _ _ h hs => h.step hprobe hs) ?_ hr
  refine ⟨fun id => ⟨[], [], rfl, rfl, fun serve hserve => ?_⟩, rfl, rfl⟩
  cases hserve

-- The far side of the stream that was kept has been given nothing but the echo,
-- or it relays what the stream has carried since.
theorem Tunnel.Keeps.relayed {serve : Serve} (h : tunnel.Keeps stream sent carried)
    (hserve : (tunnel.lanes stream).serve = some serve) :
    serve.upstream = none ∧ carried.consumed = [] ∨
      ∃ upstream, serve.upstream = some upstream ∧ upstream.accepted <+: carried.accepted ∧
        carried.consumed <+: upstream.consumed := by
  obtain ⟨hout, hback, hsound⟩ := h.lane
  rw [h.near, Lane.far_serve hserve] at hout hback
  simp only [Duplex.after, Duplex.move_accepted, Duplex.move_consumed, List.nil_append]
    at hout hback
  obtain ⟨hnone, hnothing | ⟨header, -, -, -, hgreeting⟩⟩ |
    ⟨upstream, hupstream, forth, back, -, hrelays, hforth, hreturn⟩ :=
    (hsound serve hserve).relayed
  · have hlen := congrArg List.length (hnothing.symm.trans hback)
    simp only [List.length_append, encode_length, HEADER_LEN, List.length_nil] at hlen
    omega
  · have hle := hgreeting.length_le
    rw [hback, encode_length] at hle
    simp only [List.length_append, encode_length] at hle
    exact Or.inl ⟨hnone, List.length_eq_zero_iff.mp (by omega)⟩
  · obtain ⟨wire, header, hlen, hdecode, hstream⟩ := hrelays
    rw [hstream] at hout hback
    simp only at hout hback
    rw [List.append_assoc] at hout
    obtain ⟨hwire, hcarried⟩ := List.append_inj hout (by rw [encode_length, hlen])
    rw [← hwire, decode_encode] at hdecode
    obtain rfl := Except.ok.inj hdecode
    rw [Header.greeting, if_pos h.echo, List.append_assoc, List.append_cancel_left_eq] at hback
    refine Or.inr ⟨upstream, hupstream, ?_, ?_⟩
    · rw [hcarried]
      exact hforth.trans (List.prefix_append _ _)
    · exact (List.prefix_append _ _).trans (hback ▸ hreturn)

-- No other stream of the dial reaches the upstream.
theorem Tunnel.Sound.reaching {serve : Serve} (h : tunnel.Sound)
    (hserve : (tunnel.lanes stream).serve = some serve) (hreaching : serve.Reaching) :
    ∃ sent carried, tunnel.Keeps stream sent carried ∧
      carried.accepted <+: tunnel.carry.wallet.consumed ∧
      tunnel.carry.wallet.accepted <+: carried.consumed := by
  obtain ⟨lost, dropped, hlane⟩ := h.lanes stream
  obtain ⟨hshort, -⟩ | ⟨kept, sent, carried, hkeeps, hrest⟩ := h.kept
  · exact absurd hreaching (hlane.short (hshort stream) hserve)
  · by_cases hid : stream = kept
    · subst hid
      exact ⟨sent, carried, hkeeps, hrest⟩
    · exact absurd hreaching (hlane.short (hkeeps.others stream hid) hserve)

theorem Tunnel.Sound.alone {first second : StreamId} {serve other : Serve} (h : tunnel.Sound)
    (hserve : (tunnel.lanes first).serve = some serve)
    (hother : (tunnel.lanes second).serve = some other) (hfirst : serve.Reaching)
    (hsecond : other.Reaching) : first = second := by
  obtain ⟨sent, carried, hkeeps, -⟩ := h.reaching hserve hfirst
  by_contra hne
  obtain ⟨lost, dropped, hlane⟩ := h.lanes second
  exact hlane.short (hkeeps.others second (Ne.symm hne)) hother hsecond

theorem Tunnel.Sound.delivered {serve : Serve} {upstream : Duplex} (h : tunnel.Sound)
    (hserve : (tunnel.lanes stream).serve = some serve)
    (hupstream : serve.upstream = some upstream) :
    upstream.accepted <+: tunnel.carry.wallet.consumed ∧
      tunnel.carry.wallet.accepted <+: upstream.consumed := by
  obtain ⟨sent, carried, hkeeps, hforth, hback⟩ :=
    h.reaching hserve (Or.inl (by simp [hupstream]))
  obtain ⟨hnone, -⟩ | ⟨other, hother, haccepted, hconsumed⟩ := hkeeps.relayed hserve
  · rw [hupstream] at hnone
    cases hnone
  · obtain rfl := Option.some.inj (hupstream.symm.trans hother)
    exact ⟨haccepted.trans hforth, hback.trans hconsumed⟩

theorem Tunnel.Sound.silent (h : tunnel.Sound)
    (hnone : ∀ id serve, (tunnel.lanes id).serve = some serve → serve.upstream = none) :
    tunnel.carry.wallet.accepted = [] := by
  obtain ⟨-, hwallet⟩ | ⟨stream, sent, carried, hkeeps, -, hback⟩ := h.kept
  · rw [hwallet]
  · obtain ⟨serve, hserve, -⟩ := hkeeps.lane.served hkeeps.heard.1
    obtain ⟨-, hnothing⟩ | ⟨upstream, hupstream, -⟩ := hkeeps.relayed hserve
    · rw [hnothing] at hback
      exact List.prefix_nil.mp hback
    · rw [hnone stream serve hserve] at hupstream
      cases hupstream

end

def TunnelEvent.connects : TunnelEvent → Bool
  | .serve _ .connected => true
  | _ => false

-- A serving task connects at most once, and keeps its connection on record.
theorem Serve.Sound.connects {settings : ServeSettings} {serve next : Serve} {event : ServeEvent}
    (h : serve.Sound) (hs : Serve.own settings serve event = some next) :
    event = .connected ∧ serve.upstream = none ∧ serve.Reaching ∧ next.upstream ≠ none ∨
      event ≠ .connected ∧ (next.upstream = none ↔ serve.upstream = none) := by
  obtain ⟨after, hs⟩ := Serve.own_step hs
  unfold Serve.Sound at h
  obtain ⟨accept, waited, resumed, -, rfl, -, -, hupstream, -⟩ |
    ⟨deadline, opening, -, rfl, -, rfl⟩ | ⟨opening, hphase, rfl, rfl⟩ |
    ⟨rest, count, -, rfl, -, -, hupstream, -⟩ |
    ⟨splice, waited, resumed, -, rfl, -, -, -, hupstream, -⟩ |
    ⟨rfl, -, hevent, -⟩ | ⟨time, rfl, -, rfl⟩ := Serve.step_cases hs
  · exact Or.inr ⟨by simp, by rw [hupstream]⟩
  · exact Or.inr ⟨by simp, Iff.rfl⟩
  · rw [hphase] at h
    exact Or.inl ⟨rfl, h.1, Or.inr ⟨opening, hphase⟩, by simp⟩
  · exact Or.inr ⟨by simp, by rw [hupstream, Option.map_eq_none_iff]⟩
  · exact Or.inr ⟨by simp, by rw [hupstream, Option.map_eq_none_iff]⟩
  · exact Or.inr ⟨hevent, Iff.rfl⟩
  · exact Or.inr ⟨by simp, Iff.rfl⟩

-- Every connection that was opened is on record at its stream.
def Tunnel.Recorded (count : Nat) (tunnel : Tunnel) : Prop :=
  count = 0 ∧ (∀ id serve, (tunnel.lanes id).serve = some serve → serve.upstream = none) ∨
    count = 1 ∧ ∃ id serve, (tunnel.lanes id).serve = some serve ∧ serve.upstream ≠ none

theorem Tunnel.Recorded.step {carrying : Carrying} {settings : ServeSettings}
    {tunnel next : Tunnel} {count : Nat} {event : TunnelEvent} (h : tunnel.Recorded count)
    (hsound : ∀ id serve, (tunnel.lanes id).serve = some serve → serve.Sound)
    (halone : ∀ first second serve other, (tunnel.lanes first).serve = some serve →
      (tunnel.lanes second).serve = some other → serve.Reaching → other.Reaching →
      first = second)
    (hs : Tunnel.step carrying settings tunnel event = some next) :
    next.Recorded (count + if event.connects then 1 else 0) := by
  have hsame (hlanes : ∀ id, (next.lanes id).serve = (tunnel.lanes id).serve) :
      next.Recorded count := by
    unfold Tunnel.Recorded
    simp only [hlanes]
    exact h
  obtain ⟨carried, rfl, -, -, hlanes⟩ | ⟨stream, rfl, hfresh, -, -, hlanes⟩ |
    ⟨stream, served, serve, resumed, rfl, hserve, hresumed, -, -, hlanes⟩ |
    ⟨stream, lostCount, hevent, -, -, -, hlanes⟩ := Tunnel.step_cases hs
  · exact hsame hlanes
  · change next.Recorded count
    unfold Tunnel.Recorded
    simp only [hlanes]
    refine h.imp (And.imp_right fun hnone id other hother => ?_) (And.imp_right ?_)
    · split_ifs at hother with hid
      · obtain rfl := Option.some.inj hother
        rfl
      · exact hnone id other hother
    · rintro ⟨id, other, hother, hsome⟩
      have hid : id ≠ stream := by
        rintro rfl
        rw [hfresh] at hother
        cases hother
      exact ⟨id, other, by rwa [if_neg hid], hsome⟩
  · have hbefore := hsound stream serve hserve
    obtain ⟨rfl, hnone, hreaching, hsome⟩ | ⟨hne, hiff⟩ := hbefore.connects hresumed
    · obtain ⟨rfl, -⟩ | ⟨-, id, other, hother, hopen⟩ := h
      · exact Or.inr ⟨rfl, stream, resumed, by rw [hlanes, if_pos rfl], hsome⟩
      · obtain rfl := halone stream id serve other hserve hother hreaching (Or.inl hopen)
        obtain rfl := Option.some.inj (hserve.symm.trans hother)
        exact absurd hnone hopen
    · have hconnects : (TunnelEvent.serve stream served).connects = false := by
        cases served <;> first | rfl | contradiction
      rw [hconnects]
      change next.Recorded count
      refine h.imp (And.imp_right fun hnone id other hother => ?_) (And.imp_right ?_)
      · rw [hlanes] at hother
        split_ifs at hother with hid
        · obtain rfl := Option.some.inj hother
          exact hiff.mpr (hnone stream serve hserve)
        · exact hnone id other hother
      · rintro ⟨id, other, hother, hsome⟩
        by_cases hid : id = stream
        · subst hid
          obtain rfl := Option.some.inj (hserve.symm.trans hother)
          exact ⟨id, resumed, by rw [hlanes, if_pos rfl], fun hnone => hsome (hiff.mp hnone)⟩
        · exact ⟨id, other, by rwa [hlanes, if_neg hid], hsome⟩
  · have hconnects : event.connects = false := by
      rcases hevent with ⟨rfl, -⟩ | ⟨rfl, -⟩ <;> rfl
    rw [hconnects]
    exact hsame hlanes

theorem tunnel_recorded {carrying : Carrying} {settings : ServeSettings} {tunnel : Tunnel}
    {events : List TunnelEvent} (hprobe : carrying.dial.probe ≠ none)
    (hr : (Tunnel.step carrying settings).run {} events = some tunnel) :
    tunnel.Recorded (events.countP TunnelEvent.connects) := by
  refine Machine.run_history (fun events (tunnel : Tunnel) =>
    tunnel.Recorded (events.countP TunnelEvent.connects)) ?_ ?_ hr
  · exact Or.inl ⟨rfl, fun id serve hserve => by cases hserve⟩
  · intro events tunnel event next hr hrecorded hs
    have hsound := tunnel_sound hprobe hr
    have hserves (id : StreamId) (serve : Serve) (hserve : (tunnel.lanes id).serve = some serve) :
        serve.Sound := by
      obtain ⟨lost, dropped, hlane⟩ := hsound.lanes id
      exact hlane.serve serve hserve
    have hnext := hrecorded.step hserves
      (fun _ _ _ _ hserve hother => hsound.alone hserve hother) hs
    rw [List.countP_append, List.countP_singleton]
    exact hnext

-- With the probe on, a wallet's connection reaches at most one upstream, on
-- whichever stream was kept. What that upstream was given starts what the
-- wallet sent, and what the wallet was given starts what that upstream sent.
theorem carried_transparently (carrying : Carrying) (settings : ServeSettings)
    (hprobe : carrying.dial.probe ≠ none) (events : List TunnelEvent) (tunnel : Tunnel)
    (hr : (Tunnel.step carrying settings).run {} events = some tunnel) :
    events.countP TunnelEvent.connects ≤ 1 ∧
    (∀ first second serve other, (tunnel.lanes first).serve = some serve →
      (tunnel.lanes second).serve = some other → serve.Reaching → other.Reaching →
      first = second) ∧
    (∀ stream serve upstream, (tunnel.lanes stream).serve = some serve →
      serve.upstream = some upstream →
      upstream.accepted <+: tunnel.carry.wallet.consumed ∧
      tunnel.carry.wallet.accepted <+: upstream.consumed) ∧
    ((∀ stream serve, (tunnel.lanes stream).serve = some serve → serve.upstream = none) →
      tunnel.carry.wallet.accepted = []) := by
  have hsound := tunnel_sound hprobe hr
  refine ⟨?_, fun _ _ _ _ hserve hother => hsound.alone hserve hother,
    fun _ _ _ hserve => hsound.delivered hserve, hsound.silent⟩
  obtain ⟨hcount, -⟩ | ⟨hcount, -⟩ := tunnel_recorded hprobe hr
  · rw [hcount]
    exact Nat.zero_le _
  · exact hcount.le

-- Two streams, the first of which loses its header, and an exchange over the
-- second one whose request takes two reads.
def exchangedCarrying : Carrying where
  dial := {
    probe := some {
      timeout := 10
      attempts := 2
      concurrency := 2
      attempts_pos := Nat.two_pos
      concurrency_pos := Nat.two_pos } }
  watchdog := { stall := some 60 }

def exchangedSettings : ServeSettings where
  handshakeTimeout := 10
  firstRequestTimeout := 20
  idleTimeout := 300

def exchangedEvents : List TunnelEvent :=
  let header : Header := ⟨true, 2⟩
  let send (stream : StreamId) : List TunnelEvent :=
    [.carry (.dial (.polled stream (UInt64.ofNat (stream + 1)))),
      .carry (.dial (.wait stream (.io (.wrote 14)))),
      .carry (.dial (.wait stream (.io .flushed)))]
  [.carry .start, .carry (.dial .opened), .carry (.dial .opened)] ++ send 0 ++ send 1 ++
    [.loseOutgoing 0 14, .accept 0, .accept 1, .serve 1 (.stream (.io (.read header.encode))),
      .serve 1 (.stream (.io (.wrote 14))), .serve 1 (.stream (.io .flushed)),
      .carry (.dial (.wait 1 (.io (.read header.encode)))), .carry .fold,
      .carry (.splice (.outbound (.read [80, 82, 73]))), .carry (.splice (.outbound (.wrote 3))),
      .serve 1 (.stream (.io (.read [80, 82]))), .serve 1 .connected,
      .serve 1 (.upstream (.wrote 2)), .serve 1 (.splice (.inbound (.read [73]))),
      .serve 1 (.splice (.inbound (.wrote 1))), .serve 1 (.splice (.outbound (.read [65, 66]))),
      .serve 1 (.splice (.outbound (.wrote 1))), .carry (.splice (.inbound (.read [65]))),
      .carry (.splice (.inbound (.wrote 1)))]

theorem exchange_transparent : ∃ tunnel serve upstream,
    (Tunnel.step exchangedCarrying exchangedSettings).run {} exchangedEvents = some tunnel ∧
    (tunnel.lanes 1).serve = some serve ∧ serve.upstream = some upstream ∧
    upstream = ⟨[65, 66], [80, 82, 73]⟩ ∧ tunnel.carry.wallet = ⟨[80, 82, 73], [65]⟩ ∧
    upstream.accepted <+: tunnel.carry.wallet.consumed ∧
    tunnel.carry.wallet.accepted <+: upstream.consumed := by
  obtain ⟨tunnel, hr, he⟩ : ∃ tunnel,
      (Tunnel.step exchangedCarrying exchangedSettings).run {} exchangedEvents = some tunnel ∧
      ((tunnel.lanes 1).serve.bind Serve.upstream, tunnel.carry.wallet) =
        (some ⟨[65, 66], [80, 82, 73]⟩, ⟨[80, 82, 73], [65]⟩) :=
    Option.map_eq_some_iff.mp (by decide +kernel)
  obtain ⟨hupstream, hwallet⟩ := Prod.mk.inj he
  obtain ⟨serve, hserve, hupstream⟩ := Option.bind_eq_some_iff.mp hupstream
  obtain ⟨-, -, hdelivered, -⟩ := carried_transparently exchangedCarrying exchangedSettings
    (by decide) exchangedEvents tunnel hr
  exact ⟨tunnel, serve, _, hr, hserve, hupstream, rfl, hwallet,
    hdelivered 1 serve _ hserve hupstream⟩

end LwdMixnet
