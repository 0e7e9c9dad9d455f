import LwdMixnet.Serve.Relay
import Mathlib.Data.List.GetD

namespace LwdMixnet

section

variable (settings : ServeSettings)

-- The task after a part of its events.
def Serve.Passed (events : List ServeEvent) (serve : Serve) : Prop :=
  ∃ first, first <+: events ∧ (Serve.own settings).run (.start settings) first = some serve

-- At least `count` bytes of the stream had come in by an instant.
def Serve.HeardBy (events : List ServeEvent) (count instant : Nat) : Prop :=
  ∃ serve, Serve.Passed settings events serve ∧ count ≤ serve.stream.consumed.length ∧
    serve.elapsed ≤ instant

-- `accept` had returned at an instant, and the wait for a request began.
def Serve.AcceptedAt (events : List ServeEvent) (instant : Nat) : Prop :=
  ∃ serve, Serve.Passed settings events serve ∧ serve.elapsed = instant ∧
    serve.phase = .awaitingRequest (instant + settings.firstRequestTimeout)

-- The stream kept both of the deadlines that stand before the upstream.
structure Serve.InTime (events : List ServeEvent) : Prop where
  header : Serve.HeardBy settings events HEADER_LEN settings.handshakeTimeout
  request : ∃ instant, Serve.AcceptedAt settings events instant ∧
    Serve.HeardBy settings events (HEADER_LEN + 1) (instant + settings.firstRequestTimeout)

def Serve.Timely (events : List ServeEvent) (serve : Serve) : Prop :=
  match serve.phase with
  | .accepting (.reading deadline _) =>
      deadline = settings.handshakeTimeout ∧ serve.elapsed ≤ deadline
  | .accepting _ => Serve.HeardBy settings events HEADER_LEN settings.handshakeTimeout
  | .awaitingRequest deadline => serve.elapsed ≤ deadline ∧
      Serve.HeardBy settings events HEADER_LEN settings.handshakeTimeout ∧
      ∃ instant, Serve.AcceptedAt settings events instant ∧
        deadline = instant + settings.firstRequestTimeout
  | .returned => serve.upstream ≠ none → Serve.InTime settings events
  | _ => Serve.InTime settings events

variable {settings} {events : List ServeEvent} {serve next : Serve} {event : ServeEvent}

theorem Serve.Passed.concat (h : Serve.Passed settings events serve) :
    Serve.Passed settings (events ++ [event]) serve := by
  obtain ⟨first, hfirst, hr⟩ := h
  exact ⟨first, hfirst.trans (List.prefix_append _ _), hr⟩

theorem Serve.HeardBy.concat {count instant : Nat}
    (h : Serve.HeardBy settings events count instant) :
    Serve.HeardBy settings (events ++ [event]) count instant := by
  obtain ⟨serve, hpassed, hrest⟩ := h
  exact ⟨serve, hpassed.concat, hrest⟩

theorem Serve.AcceptedAt.concat {instant : Nat} (h : Serve.AcceptedAt settings events instant) :
    Serve.AcceptedAt settings (events ++ [event]) instant := by
  obtain ⟨serve, hpassed, hrest⟩ := h
  exact ⟨serve, hpassed.concat, hrest⟩

theorem Serve.InTime.concat (h : Serve.InTime settings events) :
    Serve.InTime settings (events ++ [event]) := by
  obtain ⟨hheader, instant, haccepted, hrequest⟩ := h
  exact ⟨hheader.concat, instant, haccepted.concat, hrequest.concat⟩

theorem serve_sound (hr : (Serve.own settings).run (.start settings) events = some serve) :
    serve.Sound := by
  refine Machine.run_invariant _ (fun serve event next h hs => ?_) ?_ hr
  · obtain ⟨after, hs⟩ := Serve.own_step hs
    exact Serve.Sound.step h hs
  · exact Serve.start_sound settings

-- A read of the header that goes on keeps its deadline.
theorem Accept.reading_of_step {timeout now deadline : Nat} {accept : Accept} {waited : WaitEvent}
    {read : ReadHeader} (h : accept.step timeout now waited = some (.reading deadline read)) :
    ∃ earlier, accept = .reading deadline earlier := by
  cases accept with
  | returned result => simp [Accept.step] at h
  | reading until' earlier =>
      cases waited with
      | expired =>
          simp only [Accept.step] at h
          split_ifs at h
          cases h
      | io event =>
          simp only [Accept.step] at h
          split at h
          · split_ifs at h <;> cases h
          · cases h
          · cases h
            exact ⟨earlier, rfl⟩
          · cases h
  | echoing header write =>
      cases waited with
      | expired => simp [Accept.step] at h
      | io event =>
          simp only [Accept.step] at h
          split at h <;> cases h

-- Once `accept` is past its read, the header came in on time.
theorem Serve.Timely.heard {accept : Accept} (h : serve.Timely settings events)
    (hphase : serve.phase = .accepting accept)
    (hpassed : Serve.Passed settings (events ++ [event]) next)
    (helapsed : next.elapsed = serve.elapsed)
    (hlen : HEADER_LEN ≤ next.stream.consumed.length) :
    Serve.HeardBy settings (events ++ [event]) HEADER_LEN settings.handshakeTimeout := by
  simp only [Serve.Timely, hphase] at h
  cases accept with
  | reading deadline read => exact ⟨next, hpassed, hlen, by omega⟩
  | echoing _ _ | returned _ => exact h.concat

theorem Serve.Timely.step (h : serve.Timely settings events)
    (hr : (Serve.own settings).run (.start settings) events = some serve)
    (hs : Serve.own settings serve event = some next) :
    next.Timely settings (events ++ [event]) := by
  have hrun : (Serve.own settings).run (.start settings) (events ++ [event]) = some next :=
    Machine.run_snoc hr hs
  have hpassed : Serve.Passed settings (events ++ [event]) next := ⟨_, List.prefix_rfl, hrun⟩
  have hsound := serve_sound hrun
  have hbefore := serve_sound hr
  obtain ⟨after, hs⟩ := Serve.own_step hs
  obtain ⟨accept, waited, resumed, hphase, rfl, ha, helapsed, hupstream, -, hnext⟩ |
    ⟨deadline, opening, hphase, rfl, hopening, rfl⟩ | ⟨opening, hphase, rfl, rfl⟩ |
    ⟨rest, count, hphase, rfl, -, -, -, hnext⟩ |
    ⟨splice, waited, resumed, hphase, rfl, -, -, -, -, hnext⟩ |
    ⟨rfl, hphase, -⟩ | ⟨time, rfl, hallows, rfl⟩ := Serve.step_cases hs
  · have hheard (hlen : HEADER_LEN ≤ next.stream.consumed.length) :=
      h.heard hphase hpassed helapsed hlen
    obtain ⟨header, rfl, hnext⟩ | ⟨error, rfl, hnext⟩ | ⟨hgoes, hnext⟩ := hnext
    · simp only [Serve.Sound, hnext] at hsound
      simp only [Serve.Timely, hnext, helapsed]
      refine ⟨Nat.le_add_right _ _, hheard (by simp [hsound.2.length]), serve.elapsed,
        ⟨next, hpassed, helapsed, hnext⟩, rfl⟩
    · simp only [Serve.Sound, hphase] at hbefore
      simp only [Serve.Timely, hnext]
      exact fun hsome => absurd (hupstream.trans hbefore.1) hsome
    · simp only [Serve.Sound, hnext] at hsound
      cases resumed with
      | reading deadline read =>
          obtain ⟨earlier, rfl⟩ := Accept.reading_of_step ha
          simp only [Serve.Timely, hphase] at h
          simp only [Serve.Timely, hnext, helapsed]
          exact h
      | echoing header write =>
          simp only [Serve.Timely, hnext]
          exact hheard hsound.2.2.1.ge
      | returned result => exact absurd rfl (hgoes result)
  · simp only [Serve.Timely, hphase] at h
    obtain ⟨hdeadline, hheader, instant, haccepted, rfl⟩ := h
    refine ⟨hheader.concat, instant, haccepted.concat, _, hpassed, ?_, hdeadline⟩
    have hpos := List.length_pos_of_ne_nil hopening
    rw [hsound.2.2.length]
    omega
  · simp only [Serve.Timely, hphase] at h
    exact h.concat
  · simp only [Serve.Timely, hphase] at h
    obtain ⟨left, -, hnext⟩ | ⟨-, hnext⟩ := hnext
    · simp only [Serve.Timely, hnext]
      exact h.concat
    · simp only [Serve.Timely, hnext]
      exact h.concat
  · simp only [Serve.Timely, hphase] at h
    obtain hnext | hnext := hnext
    · simp only [Serve.Timely, hnext]
      exact h.concat
    · simp only [Serve.Timely, hnext]
      exact fun _ => h.concat
  · refine fun hsome => Serve.InTime.concat ?_
    unfold Serve.Timely at h
    unfold Serve.Sound at hbefore
    cases hserve : serve.phase with
    | returned => exact absurd hserve hphase
    | accepting _ | awaitingRequest _ | connecting _ =>
        rw [hserve] at hbefore
        exact absurd hbefore.1 hsome
    | writing _ | splicing _ =>
        rw [hserve] at h
        exact h
  · unfold Serve.Timely at h ⊢
    cases hphase : serve.phase with
    | accepting accept =>
        rw [hphase] at h hallows
        cases accept with
        | reading deadline read => exact ⟨h.1, of_decide_eq_true hallows⟩
        | echoing _ _ | returned _ => exact h.concat
    | awaitingRequest deadline =>
        rw [hphase] at h hallows
        obtain ⟨-, hheader, instant, haccepted, hdeadline⟩ := h
        exact ⟨of_decide_eq_true hallows, hheader.concat, instant, haccepted.concat, hdeadline⟩
    | connecting _ | writing _ | splicing _ =>
        rw [hphase] at h
        exact h.concat
    | returned =>
        rw [hphase] at h
        exact fun hsome => (h hsome).concat

theorem serve_timely (hr : (Serve.own settings).run (.start settings) events = some serve) :
    serve.Timely settings events := by
  refine Machine.run_history _ ?_ (fun _ _ _ _ hr h hs => h.step hr hs) hr
  exact ⟨Nat.zero_add _, Nat.zero_le _⟩

-- Whether `serve` has asked for a connection to the upstream, and been given it
-- or still waits for it.
def Serve.Reaching (serve : Serve) : Prop :=
  serve.upstream ≠ none ∨ ∃ opening, serve.phase = .connecting opening

theorem Serve.Timely.inTime (h : serve.Timely settings events) (hsound : serve.Sound)
    (hreaching : serve.Reaching) : Serve.InTime settings events := by
  unfold Serve.Timely at h
  unfold Serve.Sound at hsound
  obtain hsome | ⟨opening, hphase⟩ := hreaching
  · cases hphase : serve.phase with
    | accepting _ | awaitingRequest _ | connecting _ =>
        rw [hphase] at hsound
        exact absurd hsound.1 hsome
    | writing _ | splicing _ =>
        rw [hphase] at h
        exact h
    | returned =>
        rw [hphase] at h
        exact h hsome
  · rw [hphase] at h
    exact h

theorem Serve.Sound.reaching (h : serve.Sound) (hreaching : serve.Reaching) :
    ∃ carried returned, carried ≠ [] ∧ serve.Relays carried returned ∧
      ∀ upstream, serve.upstream = some upstream → upstream.accepted <+: carried := by
  obtain ⟨hnone, -⟩ | ⟨upstream, hsome, carried, returned, hne, hrelays, hforth, -⟩ := h.relayed
  · obtain hsome | ⟨opening, hphase⟩ := hreaching
    · exact absurd hnone hsome
    · simp only [Serve.Sound, hphase] at h
      refine ⟨opening, [], h.2.1, h.2.2, fun upstream hsome => ?_⟩
      rw [hnone] at hsome
      cases hsome
  · refine ⟨carried, returned, hne, hrelays, fun other hother => ?_⟩
    obtain rfl := Option.some.inj (hsome.symm.trans hother)
    exact hforth

end

-- The listener is not an open relay. It reaches for the upstream only for a
-- stream that began with a header of ours, was answered as it asked and went on
-- to send something, all of it in time, and what follows the header is what
-- the upstream is given.
theorem upstream_needs_introduction (settings : ServeSettings) (events : List ServeEvent)
    (serve : Serve) (hr : (Serve.own settings).run (.start settings) events = some serve) :
    (serve.Reaching →
      Serve.HeardBy settings events HEADER_LEN settings.handshakeTimeout ∧
      (∃ instant, Serve.AcceptedAt settings events instant ∧
        Serve.HeardBy settings events (HEADER_LEN + 1)
          (instant + settings.firstRequestTimeout)) ∧
      serve.stream.consumed.take 4 = MAGIC ∧ serve.stream.consumed.getD 4 0 = VERSION ∧
      (serve.stream.consumed.getD 5 0 &&& FLAG_ECHO ≠ 0 →
        ∃ header, Header.decode (serve.stream.consumed.take HEADER_LEN) = .ok header ∧
          header.encode <+: serve.stream.accepted)) ∧
    (∀ upstream, serve.upstream = some upstream →
      upstream.accepted <+: serve.stream.consumed.drop HEADER_LEN) := by
  have hsound := serve_sound hr
  constructor
  · intro hreaching
    obtain ⟨hheader, hrequest⟩ := (serve_timely hr).inTime hsound hreaching
    obtain ⟨carried, returned, -, ⟨wire, header, hlen, hdecode, hstream⟩, -⟩ :=
      hsound.reaching hreaching
    obtain ⟨hmagic, hversion, hecho⟩ := decode_ok hdecode
    have hget (place : Nat) (hplace : place < HEADER_LEN) :
        (wire ++ carried).getD place 0 = wire.getD place 0 :=
      List.getD_append _ _ _ _ (hlen.symm ▸ hplace)
    refine ⟨hheader, hrequest, ?_, ?_, ?_⟩
    · rw [hstream, List.take_append_of_le_length (by rw [hlen]; decide), hmagic]
    · rw [hstream, hget 4 (by decide), hversion]
    · intro hflag
      rw [hstream, hget 5 (by decide)] at hflag
      refine ⟨header, ?_, ?_⟩
      · rw [hstream, ← hlen, List.take_left]
        exact hdecode
      · rw [hstream, Header.greeting, if_pos (hecho.mpr hflag)]
        exact List.prefix_append _ _
  · intro upstream hsome
    obtain ⟨carried, returned, -, ⟨wire, header, hlen, -, hstream⟩, hforth⟩ :=
      hsound.reaching (Or.inl (by simp [hsome]))
    rw [hstream, ← hlen, List.drop_left]
    exact hforth upstream hsome

-- A header that comes in two reads, and a request that comes with it.
def introducedSettings : ServeSettings where
  handshakeTimeout := 10
  firstRequestTimeout := 20
  idleTimeout := 300

def introducedEvents : List ServeEvent :=
  let header : Header := ⟨true, 7⟩
  [.elapse 4, .stream (.io (.read (header.encode.take 9))), .elapse 6,
    .stream (.io (.read (header.encode.drop 9))), .stream (.io (.wrote 14)), .elapse 2,
    .stream (.io .flushed), .elapse 20, .stream (.io (.read [80, 82, 73])), .connected,
    .upstream (.wrote 2)]

theorem introduced_reaches : ∃ serve,
    (Serve.own introducedSettings).run (.start introducedSettings) introducedEvents = some serve ∧
    Serve.HeardBy introducedSettings introducedEvents HEADER_LEN 10 ∧
    serve.upstream = some ⟨[], [80, 82]⟩ ∧
    [80, 82] <+: serve.stream.consumed.drop HEADER_LEN := by
  obtain ⟨serve, hr, hupstream⟩ : ∃ serve,
      (Serve.own introducedSettings).run (.start introducedSettings) introducedEvents =
        some serve ∧ serve.upstream = some ⟨[], [80, 82]⟩ :=
    Option.map_eq_some_iff.mp (by decide +kernel)
  obtain ⟨hreaching, hforth⟩ :=
    upstream_needs_introduction introducedSettings introducedEvents serve hr
  exact ⟨serve, hr, (hreaching (Or.inl (by simp [hupstream]))).1, hupstream, hforth _ hupstream⟩

end LwdMixnet
