import LwdMixnet.Handshake.Exchange
import Mathlib.Logic.Function.Basic

namespace LwdMixnet

-- The dialling side of a stream: a probe, or an announcement.
inductive Dialler
  | fresh
  | probing (probe : Probe)
  | announcing (write : WriteHeader)
  deriving DecidableEq, Repr

-- A stream with what is in flight on it, and both of its ends. `sent` is the
-- header its dialler drew.
structure Link where
  dialler : Dialler := .fresh
  sent : Option Header := none
  near : Duplex := {}
  outgoing : Bytes := []
  incoming : Bytes := []
  accept : Option Accept := none
  far : Duplex := {}
  deriving DecidableEq, Repr

-- One dialling process and the far sides of its streams.
structure Network where
  NEXT_TOKEN : UInt64 := FIRST_TOKEN
  links : StreamId → Link := fun _ => {}

inductive NetworkEvent
  | probe (id : StreamId) (now : Nat)
  | announce (id : StreamId)
  | near (id : StreamId) (now : Nat) (event : WaitEvent)
  | accept (id : StreamId) (now : Nat)
  | far (id : StreamId) (now : Nat) (event : WaitEvent)
  | loseOutgoing (id : StreamId) (count : Nat)
  | loseIncoming (id : StreamId) (count : Nat)
  deriving DecidableEq, Repr

def NetworkEvent.draws : NetworkEvent → Bool
  | .probe _ _ | .announce _ => true
  | _ => false

def headersDrawn (events : List NetworkEvent) : Nat :=
  events.countP NetworkEvent.draws

def Network.set (network : Network) (id : StreamId) (link : Link) : Network :=
  { network with links := Function.update network.links id link }

def Network.draw (network : Network) (id : StreamId) (echoRequested : Bool)
    (dialler : Header → Dialler) : Network :=
  let (header, NEXT_TOKEN) := Header.next network.NEXT_TOKEN echoRequested
  let link := { network.links id with dialler := dialler header, sent := some header }
  { NEXT_TOKEN, links := (network.set id link).links }

-- What the far side of `id` writes reaches the streams that the network takes
-- for `id` on the way back.
def Network.echo (source : StreamId → StreamId) (network : Network) (id : StreamId)
    (bytes : Bytes) : Network :=
  { network with
    links := fun listener =>
      let link := network.links listener
      if source listener = id then { link with incoming := link.incoming ++ bytes } else link }

def Dialler.step (probeTimeout now : Nat) : Machine Dialler WaitEvent := fun dialler event =>
  match dialler, event with
  | .probing probe, event => (probe.step probeTimeout now event).map .probing
  | .announcing write, .io event => (write.step event).map .announcing
  | _, _ => none

def Dialler.given (dialler : Dialler) (event : WaitEvent) : Bytes :=
  match dialler, event with
  | .probing probe, event => probe.given event
  | .announcing write, .io event => write.given event
  | _, _ => []

-- Bytes are read in order from what is in flight, and the front of it may be
-- lost at any time. Delay is a read that happens late.
def Network.step (source : StreamId → StreamId) (probeTimeout acceptTimeout : Nat) :
    Machine Network NetworkEvent := fun network event =>
  match event with
  | .probe id now =>
      if (network.links id).dialler = .fresh then
        some (network.draw id true fun header => .probing (.start now header))
      else none
  | .announce id =>
      if (network.links id).dialler = .fresh then
        some (network.draw id false fun header => .announcing (.start header))
      else none
  | .near id now event => do
      let link := network.links id
      let dialler ← link.dialler.step probeTimeout now event
      if event.taken <+: link.incoming then
        some (network.set id { link with
          dialler
          near := link.near.move event.taken (link.dialler.given event)
          outgoing := link.outgoing ++ link.dialler.given event
          incoming := link.incoming.drop event.taken.length })
      else none
  | .accept id now =>
      let link := network.links id
      if link.accept = none then
        some (network.set id { link with accept := some (.start now acceptTimeout) })
      else none
  | .far id now event => do
      let link := network.links id
      let current ← link.accept
      let accept ← current.step acceptTimeout now event
      if event.taken <+: link.outgoing then
        some ((network.set id { link with
          accept := some accept
          far := link.far.move event.taken (current.given event)
          outgoing := link.outgoing.drop event.taken.length }).echo source id
            (current.given event))
      else none
  | .loseOutgoing id count =>
      let link := network.links id
      some (network.set id { link with outgoing := link.outgoing.drop count })
  | .loseIncoming id count =>
      let link := network.links id
      some (network.set id { link with incoming := link.incoming.drop count })

-- What holds of one stream at any time.

def Dialler.Spoke (sent : Option Header) (near : Duplex) : Dialler → Prop
  | .fresh => sent = none ∧ near = {}
  | .probing probe => ∃ header, sent = some header ∧ header.echoRequested ∧
      probe.Spoke header near
  | .announcing write => ∃ header, sent = some header ∧ header.echoRequested = false ∧
      near.consumed = [] ∧ write.Sent header near.accepted

structure Link.Sound (link : Link) : Prop where
  dialler : link.dialler.Spoke link.sent link.near
  outgoing : (link.far.consumed ++ link.outgoing).Sublist link.near.accepted
  accept : match link.accept with
    | none => link.far = {}
    | some accept => accept.Answered link.far

-- And of all of them: what a stream hears comes from the one far side the
-- network takes for it, and no two streams drew one token.
structure Network.Sound (source : StreamId → StreamId) (drawn : Nat) (network : Network) :
    Prop where
  link : ∀ id, (network.links id).Sound
  incoming : ∀ id, ((network.links id).near.consumed ++ (network.links id).incoming).Sublist
    (network.links (source id)).far.accepted
  next : network.NEXT_TOKEN = UInt64.ofNat (1 + drawn)
  drawn : ∀ id header, (network.links id).sent = some header →
    ∃ order < drawn, header.token = UInt64.ofNat (1 + order)
  distinct : ∀ first second header other, (network.links first).sent = some header →
    (network.links second).sent = some other → header.token = other.token → first = second

theorem Dialler.Spoke.step {sent : Option Header} {near : Duplex} {probeTimeout now : Nat}
    {dialler next : Dialler} {event : WaitEvent} (h : dialler.Spoke sent near)
    (hs : dialler.step probeTimeout now event = some next) :
    next.Spoke sent (near.move event.taken (dialler.given event)) := by
  cases dialler with
  | fresh => simp [Dialler.step] at hs
  | probing probe =>
      obtain ⟨header, hsent, hecho, hspoke⟩ := h
      obtain ⟨probe', hp, rfl⟩ := Option.map_eq_some_iff.mp hs
      exact ⟨header, hsent, hecho, hspoke.step hp⟩
  | announcing write =>
      obtain ⟨header, hsent, hecho, hnothing, hwrite⟩ := h
      cases event with
      | expired => simp [Dialler.step] at hs
      | io event =>
          obtain ⟨write', hw, rfl⟩ := Option.map_eq_some_iff.mp hs
          refine ⟨header, hsent, hecho, ?_, hwrite.step hw⟩
          simp [hnothing, WaitEvent.taken, WriteHeader.taken_nil hw]

theorem Network.Sound.set {source : StreamId → StreamId} {drawn : Nat} {network : Network}
    {id : StreamId} {link : Link} (h : network.Sound source drawn) (hlink : link.Sound)
    (hsent : link.sent = (network.links id).sent)
    (hfar : link.far.accepted = (network.links id).far.accepted)
    (hincoming : (link.near.consumed ++ link.incoming).Sublist
      (network.links (source id)).far.accepted) :
    (network.set id link).Sound source drawn := by
  have hlinks (other : StreamId) : (network.set id link).links other =
      if other = id then link else network.links other := Function.update_apply ..
  have hsame (other : StreamId) : ((network.set id link).links other).sent =
      (network.links other).sent := by
    rw [hlinks]
    split_ifs with he
    · rw [he, hsent]
    · rfl
  have haccepted (other : StreamId) : ((network.set id link).links other).far.accepted =
      (network.links other).far.accepted := by
    rw [hlinks]
    split_ifs with he
    · rw [he, hfar]
    · rfl
  refine ⟨fun other => ?_, fun other => ?_, h.next, ?_, ?_⟩
  · rw [hlinks]
    split_ifs with he
    · exact hlink
    · exact h.link other
  · rw [haccepted, hlinks]
    split_ifs with he
    · rw [he]
      exact hincoming
    · exact h.incoming other
  · intro other header
    rw [hsame]
    exact h.drawn other header
  · intro first second header other
    rw [hsame, hsame]
    exact h.distinct first second header other

theorem Network.Sound.near {source : StreamId → StreamId} {drawn probeTimeout now : Nat}
    {network : Network} {id : StreamId} {dialler : Dialler} {event : WaitEvent}
    (h : network.Sound source drawn)
    (hs : (network.links id).dialler.step probeTimeout now event = some dialler)
    (htaken : event.taken <+: (network.links id).incoming) :
    (network.set id { network.links id with
      dialler
      near := (network.links id).near.move event.taken ((network.links id).dialler.given event)
      outgoing := (network.links id).outgoing ++ (network.links id).dialler.given event
      incoming := (network.links id).incoming.drop event.taken.length }).Sound source drawn := by
  have hl := h.link id
  refine h.set ⟨hl.dialler.step hs, ?_, hl.accept⟩ rfl rfl ?_
  · simp only [Duplex.move_accepted, ← List.append_assoc]
    exact hl.outgoing.append (List.Sublist.refl _)
  · simp only [Duplex.move_consumed, List.append_assoc, take_drop_of_aligned htaken]
    exact h.incoming id

-- The token that comes next differs from every one drawn before it.
theorem Network.Sound.draw {source : StreamId → StreamId} {drawn : Nat} {network : Network}
    {id : StreamId} {echoRequested : Bool} {dialler : Header → Dialler}
    (h : network.Sound source drawn) (hfits : drawn + 1 < 2 ^ 64)
    (hfresh : (network.links id).dialler = .fresh)
    (hdialler : ∀ header, header.echoRequested = echoRequested →
      (dialler header).Spoke (some header) {}) :
    (network.draw id echoRequested dialler).Sound source (drawn + 1) := by
  have hl := h.link id
  have hnothing := hl.dialler
  rw [hfresh] at hnothing
  obtain ⟨hsent, hnear⟩ := hnothing
  have hnew (other : StreamId) (header : Header)
      (ho : ((network.draw id echoRequested dialler).links other).sent = some header) :
      other = id ∧ header.token = network.NEXT_TOKEN ∨
        (network.links other).sent = some header := by
    simp only [Network.draw, Network.set, Function.update_apply] at ho
    split_ifs at ho with he
    · obtain rfl := Option.some.inj ho
      exact Or.inl ⟨he, rfl⟩
    · exact Or.inr ho
  have hdiffers (other : StreamId) (header : Header)
      (ho : (network.links other).sent = some header) : header.token ≠ network.NEXT_TOKEN := by
    obtain ⟨order, hlt, htoken⟩ := h.drawn other header ho
    intro he
    rw [htoken, h.next] at he
    have hnat := congrArg UInt64.toNat he
    simp only [UInt64.toNat_ofNat'] at hnat
    omega
  have hlinks (other : StreamId) : (network.draw id echoRequested dialler).links other =
      if other = id then { network.links id with
        dialler := dialler ⟨echoRequested, network.NEXT_TOKEN⟩
        sent := some ⟨echoRequested, network.NEXT_TOKEN⟩ }
      else network.links other := Function.update_apply ..
  refine ⟨fun other => ?_, fun other => ?_, ?_, ?_, ?_⟩
  · rw [hlinks]
    split_ifs
    · refine ⟨?_, hl.outgoing, hl.accept⟩
      simp only [hnear]
      exact hdialler _ rfl
    · exact h.link other
  · have hnear (other : StreamId) :
        ((network.draw id echoRequested dialler).links other).near = (network.links other).near ∧
        ((network.draw id echoRequested dialler).links other).incoming =
          (network.links other).incoming ∧
        ((network.draw id echoRequested dialler).links other).far = (network.links other).far := by
      rw [hlinks]
      split_ifs with he
      · simp [he]
      · simp
    rw [(hnear other).1, (hnear other).2.1, (hnear (source other)).2.2]
    exact h.incoming other
  · change network.NEXT_TOKEN + 1 = _
    rw [h.next]
    have hone : (1 : UInt64).toNat = 1 := rfl
    apply UInt64.toNat.inj
    simp only [UInt64.toNat_add, UInt64.toNat_ofNat', hone]
    omega
  · intro other header ho
    rcases hnew other header ho with ⟨-, htoken⟩ | ho
    · exact ⟨drawn, Nat.lt_succ_self drawn, htoken.trans h.next⟩
    · obtain ⟨order, hlt, htoken⟩ := h.drawn other header ho
      exact ⟨order, Nat.lt_succ_of_lt hlt, htoken⟩
  · intro first second header other hf ho htoken
    obtain ⟨hfirst, hnext⟩ | hfirst := hnew first header hf
    · obtain ⟨hsecond, -⟩ | hsecond := hnew second other ho
      · rw [hfirst, hsecond]
      · exact absurd (htoken.symm.trans hnext) (hdiffers second other hsecond)
    · obtain ⟨-, hnext⟩ | hsecond := hnew second other ho
      · exact absurd (htoken.trans hnext) (hdiffers first header hfirst)
      · exact h.distinct first second header other hfirst hsecond htoken

-- What a far side writes, the streams that listen to it may hear.
theorem Network.Sound.far {source : StreamId → StreamId} {drawn acceptTimeout now : Nat}
    {network : Network} {id : StreamId} {current accept : Accept} {event : WaitEvent}
    (h : network.Sound source drawn) (hcurrent : (network.links id).accept = some current)
    (hs : current.step acceptTimeout now event = some accept)
    (htaken : event.taken <+: (network.links id).outgoing) :
    ((network.set id { network.links id with
      accept := some accept
      far := (network.links id).far.move event.taken (current.given event)
      outgoing := (network.links id).outgoing.drop event.taken.length }).echo source id
        (current.given event)).Sound source drawn := by
  have hl := h.link id
  have haccept := hl.accept
  rw [hcurrent] at haccept
  have hlinks (other : StreamId) : ((network.set id { network.links id with
      accept := some accept
      far := (network.links id).far.move event.taken (current.given event)
      outgoing := (network.links id).outgoing.drop event.taken.length }).echo source id
        (current.given event)).links other = { network.links other with
      incoming := (network.links other).incoming ++
        if source other = id then current.given event else []
      accept := if other = id then some accept else (network.links other).accept
      far := (network.links other).far.move (if other = id then event.taken else [])
        (if other = id then current.given event else [])
      outgoing := if other = id then (network.links id).outgoing.drop event.taken.length
        else (network.links other).outgoing } := by
    by_cases ho : other = id
    · subst ho
      by_cases hs : source other = other <;> simp [Network.echo, Network.set, hs]
    · by_cases hs : source other = id <;>
        simp [Network.echo, Network.set, ho, hs, Duplex.move]
  refine ⟨fun other => ?_, fun other => ?_, h.next, ?_, ?_⟩
  · rw [hlinks]
    by_cases ho : other = id
    · subst ho
      refine ⟨hl.dialler, ?_, ?_⟩
      · simp only [if_true, Duplex.move_consumed, List.append_assoc,
          take_drop_of_aligned htaken]
        exact hl.outgoing
      · simpa using haccept.step hs
    · simpa [ho, Duplex.move] using ⟨(h.link other).dialler, (h.link other).outgoing,
        (h.link other).accept⟩
  · rw [hlinks, hlinks]
    simp only [Duplex.move_accepted, ← List.append_assoc]
    exact (h.incoming other).append (List.Sublist.refl _)
  · intro other header
    rw [hlinks]
    exact h.drawn other header
  · intro first second header other
    rw [hlinks, hlinks]
    exact h.distinct first second header other

theorem Network.Sound.step {source : StreamId → StreamId} {probeTimeout acceptTimeout : Nat}
    {events : List NetworkEvent} {event : NetworkEvent} {network next : Network}
    (h : network.Sound source (headersDrawn events))
    (hfits : headersDrawn (events ++ [event]) < 2 ^ 64)
    (hs : network.step source probeTimeout acceptTimeout event = some next) :
    next.Sound source (headersDrawn (events ++ [event])) := by
  rw [headersDrawn, List.countP_append] at hfits ⊢
  change headersDrawn events + _ < _ at hfits
  change next.Sound source (headersDrawn events + _)
  cases event with
  | probe id now =>
      simp only [Network.step] at hs
      split_ifs at hs with hfresh
      obtain rfl := Option.some.inj hs
      refine h.draw hfits hfresh fun header hecho => ⟨header, rfl, hecho, rfl, rfl, rfl⟩
  | announce id =>
      simp only [Network.step] at hs
      split_ifs at hs with hfresh
      obtain rfl := Option.some.inj hs
      refine h.draw hfits hfresh fun header hecho => ⟨header, rfl, hecho, rfl, rfl⟩
  | near id now event =>
      obtain ⟨dialler, hd, hs⟩ := Option.bind_eq_some_iff.mp hs
      split_ifs at hs with htaken
      obtain rfl := Option.some.inj hs
      exact h.near hd htaken
  | accept id now =>
      simp only [Network.step] at hs
      split_ifs at hs with hnone
      obtain rfl := Option.some.inj hs
      have hl := h.link id
      have haccept := hl.accept
      rw [hnone] at haccept
      refine h.set ⟨hl.dialler, hl.outgoing, ?_⟩ rfl rfl (h.incoming id)
      simp only [haccept]
      exact ⟨⟨rfl, by decide⟩, rfl⟩
  | far id now event =>
      obtain ⟨current, hcurrent, hs⟩ := Option.bind_eq_some_iff.mp hs
      obtain ⟨accept, ha, hs⟩ := Option.bind_eq_some_iff.mp hs
      split_ifs at hs with htaken
      obtain rfl := Option.some.inj hs
      exact h.far hcurrent ha htaken
  | loseOutgoing id count =>
      obtain rfl := Option.some.inj hs
      have hl := h.link id
      refine h.set ⟨hl.dialler, ?_, hl.accept⟩ rfl rfl (h.incoming id)
      exact ((List.Sublist.refl _).append (List.drop_sublist count _)).trans hl.outgoing
  | loseIncoming id count =>
      obtain rfl := Option.some.inj hs
      have hl := h.link id
      refine h.set ⟨hl.dialler, hl.outgoing, hl.accept⟩ rfl rfl ?_
      exact ((List.Sublist.refl _).append (List.drop_sublist count _)).trans (h.incoming id)

theorem Dialler.Spoke.spoken {sent : Option Header} {near : Duplex} {dialler : Dialler}
    (h : dialler.Spoke sent near) (hsome : near.accepted ≠ []) :
    ∃ header, sent = some header ∧ near.accepted <+: header.encode := by
  cases dialler with
  | fresh => simp [h.2] at hsome
  | probing probe =>
      obtain ⟨header, hsent, -, hspoke⟩ := h
      exact ⟨header, hsent, hspoke.aligned⟩
  | announcing write =>
      obtain ⟨header, hsent, -, -, hwrite⟩ := h
      exact ⟨header, hsent, hwrite.aligned⟩

-- Fourteen bytes that come out of a header are that header.
theorem eq_encode {bytes wire : Bytes} {header : Header} (hlen : bytes.length = HEADER_LEN)
    (hsub : bytes.Sublist wire) (hwire : wire <+: header.encode) :
    bytes = header.encode ∧ wire = header.encode := by
  have hle := hwire.length_le
  have hge := hsub.length_le
  rw [encode_length] at hle
  have heq : wire = header.encode := hwire.eq_of_length (by rw [encode_length]; omega)
  exact ⟨hsub.eq_of_length (by omega) |>.trans heq, heq⟩

-- A far side that read a whole header read the one its dialler drew.
theorem Link.Sound.read {link : Link} (h : link.Sound)
    (hlen : link.far.consumed.length = HEADER_LEN) :
    ∃ header, link.sent = some header ∧ link.far.consumed = header.encode ∧
      link.near.accepted = header.encode := by
  have hsub : link.far.consumed.Sublist link.near.accepted :=
    (List.sublist_append_left _ _).trans h.outgoing
  have hsome : link.near.accepted ≠ [] := by
    intro hnil
    rw [hnil, List.sublist_nil] at hsub
    simp [hsub, HEADER_LEN] at hlen
  obtain ⟨header, hsent, haligned⟩ := h.dialler.spoken hsome
  obtain ⟨hread, haccepted⟩ := eq_encode hlen hsub haligned
  exact ⟨header, hsent, hread, haccepted⟩

-- `probe` on its own, with the instant of each event, against any reply at all.
def Probe.timed (timeout : Nat) : Machine Probe (Nat × WaitEvent) := fun probe event =>
  probe.step timeout event.1 event.2

def reply (events : List (Nat × WaitEvent)) : Bytes :=
  events.flatMap fun event => event.2.taken

-- A header that is being written goes out whole once its stream takes it, and the
-- wait for the echo starts then.
theorem Probe.Live.sends {timeout started : Nat} {header : Header} {write : WriteHeader}
    (h : Probe.Live (.sending started header write)) (later : Nat) :
    ∃ more : List (Nat × WaitEvent), (∀ event ∈ more, event.1 = later ∧ event.2.taken = []) ∧
      (Probe.timed timeout).run (.sending started header write) more =
        some (.awaiting started header (later + timeout) .start) := by
  have hflushed : Probe.timed timeout (.sending started header .flushing) (later, .io .flushed) =
      some (.awaiting started header (later + timeout) .start) := rfl
  cases write with
  | returned _ => exact h.elim
  | flushing =>
      refine ⟨[(later, .io .flushed)], by simp [WaitEvent.taken, IoEvent.taken], ?_⟩
      rw [Machine.run_cons, hflushed, Option.bind_some, Machine.run_nil]
  | writing rest =>
      have hwrote : Probe.timed timeout (.sending started header (.writing rest))
          (later, .io (.wrote rest.length)) = some (.sending started header .flushing) := by
        simp [Probe.timed, Probe.step, WriteHeader.step, writeAll_length h]
      refine ⟨[(later, .io (.wrote rest.length)), (later, .io .flushed)],
        by simp [WaitEvent.taken, IoEvent.taken], ?_⟩
      rw [Machine.run_cons, hwrote, Option.bind_some, Machine.run_cons, hflushed,
        Option.bind_some, Machine.run_nil]

-- A probe that has heard fourteen bytes is through, and with an error unless
-- they are a header under its own token.
theorem Probe.Spoke.complete {sent : Header} {near : Duplex} {probe : Probe}
    (h : probe.Spoke sent near) (hlen : near.consumed.length = HEADER_LEN)
    (hforeign : ∀ echoed, Header.decode near.consumed = .ok echoed →
      echoed.token ≠ sent.token) : ∃ error, probe = .returned (.error error) := by
  cases probe with
  | sending started header write =>
      rw [h.2.1] at hlen
      cases hlen
  | awaiting started header deadline read =>
      cases read with
      | returned _ => exact h.elim
      | reading got =>
          obtain ⟨-, -, rfl, hlt⟩ := h
          exact absurd hlen (Nat.ne_of_lt hlt)
  | returned result =>
      cases result with
      | error error => exact ⟨error, rfl⟩
      | ok roundTrip =>
          obtain ⟨-, -, echoed, hdecode, htoken⟩ := h
          exact absurd htoken (hforeign echoed hdecode)

end LwdMixnet
