import LwdMixnet.Handshake.Agreement
import Mathlib.Data.Nat.ModEq

namespace LwdMixnet

-- What happens on a new stream first: a probe or an announcement draws its header.
def NetworkEvent.opening (id : StreamId) (now : Nat) (echoRequested : Bool) : NetworkEvent :=
  if echoRequested then .probe id now else .announce id

-- A dialling process, and one stream it opens: what it did before on any of its
-- streams, and what it does from then on.
structure Opening where
  source : StreamId → StreamId
  probeTimeout : Nat
  acceptTimeout : Nat
  earlier : List NetworkEvent
  id : StreamId
  now : Nat
  echoRequested : Bool
  later : List NetworkEvent
  ran : (Machine.run (Network.step source probeTimeout acceptTimeout) {}
    (earlier ++ .opening id now echoRequested :: later)).isSome

def Opening.network (opening : Opening) : Network :=
  (Machine.run (Network.step opening.source opening.probeTimeout opening.acceptTimeout) {}
    (opening.earlier ++ .opening opening.id opening.now opening.echoRequested ::
      opening.later)).get opening.ran

-- The bytes the stream has put on the wire so far.
def Opening.shown (opening : Opening) : Bytes :=
  (opening.network.links opening.id).near.accepted

-- Whether one of two streams of a process was opened before the other, and with
-- which events between.
def Opening.Precedes (first : Opening) (between : List NetworkEvent) (second : Opening) : Prop :=
  second.earlier =
    first.earlier ++ .opening first.id first.now first.echoRequested :: between

section

variable {source : StreamId → StreamId} {probeTimeout acceptTimeout : Nat} {network next : Network}
  {event : NetworkEvent}

theorem draws_opening (id : StreamId) (now : Nat) (echoRequested : Bool) :
    (NetworkEvent.opening id now echoRequested).draws := by
  cases echoRequested <;> rfl

-- Every header advances the one counter of the process, whichever stream it is for.
theorem Network.step_token (hs : network.step source probeTimeout acceptTimeout event = some next) :
    next.NEXT_TOKEN = network.NEXT_TOKEN + if event.draws then 1 else 0 := by
  cases event with
  | probe id now | announce id =>
      simp only [Network.step] at hs
      split_ifs at hs
      obtain rfl := Option.some.inj hs
      rfl
  | near id now event =>
      obtain ⟨dialler, -, hs⟩ := Option.bind_eq_some_iff.mp hs
      split_ifs at hs
      obtain rfl := Option.some.inj hs
      exact (UInt64.add_zero _).symm
  | accept id now =>
      simp only [Network.step] at hs
      split_ifs at hs
      obtain rfl := Option.some.inj hs
      exact (UInt64.add_zero _).symm
  | far id now event =>
      obtain ⟨current, -, hs⟩ := Option.bind_eq_some_iff.mp hs
      obtain ⟨accept, -, hs⟩ := Option.bind_eq_some_iff.mp hs
      split_ifs at hs
      obtain rfl := Option.some.inj hs
      exact (UInt64.add_zero _).symm
  | loseOutgoing id count | loseIncoming id count =>
      obtain rfl := Option.some.inj hs
      exact (UInt64.add_zero _).symm

theorem network_token {events : List NetworkEvent}
    (hr : Machine.run (Network.step source probeTimeout acceptTimeout) {} events = some network) :
    network.NEXT_TOKEN = UInt64.ofNat (1 + headersDrawn events) := by
  refine Machine.run_history (fun events network =>
    Network.NEXT_TOKEN network = UInt64.ofNat (1 + headersDrawn events)) rfl ?_ hr
  intro events network event next _ h hs
  rw [Network.step_token hs, h, headersDrawn, headersDrawn, List.countP_append, ← Nat.add_assoc,
    UInt64.ofNat_add (1 + _)]
  congr 1
  cases hdraws : event.draws with
  | true => simp [hdraws]
  | false => simp [hdraws]

-- What a step can do to the near side of a stream.
theorem Network.step_near (hs : network.step source probeTimeout acceptTimeout event = some next)
    (id : StreamId) :
    (next.links id).dialler = (network.links id).dialler ∧
      (next.links id).sent = (network.links id).sent ∧
      (next.links id).near = (network.links id).near ∨
    (network.links id).dialler = .fresh ∧ (next.links id).near = (network.links id).near ∧
      (∃ now echoRequested, event = .opening id now echoRequested ∧
        (next.links id).sent = some ⟨echoRequested, network.NEXT_TOKEN⟩ ∧
        (next.links id).dialler.Spoke (next.links id).sent {}) ∨
    ∃ now waited, (network.links id).dialler.step probeTimeout now waited =
        some (next.links id).dialler ∧
      (next.links id).sent = (network.links id).sent ∧
      (next.links id).near = (network.links id).near.move waited.taken
        ((network.links id).dialler.given waited) := by
  have hupdate (other : StreamId) (link : Link) : (network.set other link).links id =
      if id = other then link else network.links id := Function.update_apply ..
  cases event with
  | probe other now =>
      simp only [Network.step] at hs
      split_ifs at hs with hfresh
      obtain rfl := Option.some.inj hs
      by_cases hid : id = other
      · subst hid
        refine Or.inr (Or.inl ⟨hfresh, ?_, now, true, rfl, ?_, ?_⟩)
        · simp [Network.draw, Network.set]
        · simp [Network.draw, Network.set, Header.next]
        · simp only [Network.draw, Network.set, Function.update_self]
          exact ⟨_, rfl, rfl, rfl, rfl, rfl⟩
      · simp [Network.draw, Network.set, hid]
  | announce other =>
      simp only [Network.step] at hs
      split_ifs at hs with hfresh
      obtain rfl := Option.some.inj hs
      by_cases hid : id = other
      · subst hid
        refine Or.inr (Or.inl ⟨hfresh, ?_, 0, false, rfl, ?_, ?_⟩)
        · simp [Network.draw, Network.set]
        · simp [Network.draw, Network.set, Header.next]
        · simp only [Network.draw, Network.set, Function.update_self]
          exact ⟨_, rfl, rfl, rfl, rfl⟩
      · simp [Network.draw, Network.set, hid]
  | near other now waited =>
      obtain ⟨dialler, hd, hs⟩ := Option.bind_eq_some_iff.mp hs
      split_ifs at hs
      obtain rfl := Option.some.inj hs
      by_cases hid : id = other
      · subst hid
        rw [hupdate, if_pos rfl]
        exact Or.inr (Or.inr ⟨now, waited, hd, rfl, rfl⟩)
      · simp [hupdate, hid]
  | accept other now =>
      simp only [Network.step] at hs
      split_ifs at hs
      obtain rfl := Option.some.inj hs
      rw [hupdate]
      split_ifs with hid <;> simp [hid]
  | far other now waited =>
      obtain ⟨current, -, hs⟩ := Option.bind_eq_some_iff.mp hs
      obtain ⟨accept, -, hs⟩ := Option.bind_eq_some_iff.mp hs
      split_ifs at hs
      obtain rfl := Option.some.inj hs
      simp only [Network.echo, hupdate]
      by_cases hid : id = other
      · subst hid
        by_cases hsource : source id = id <;> simp [hsource]
      · by_cases hsource : source id = other <;> simp [hsource, hid]
  | loseOutgoing other count | loseIncoming other count =>
      obtain rfl := Option.some.inj hs
      rw [hupdate]
      split_ifs with hid <;> simp [hid]

theorem Network.step_opening {id : StreamId} {now : Nat} {echoRequested : Bool}
    (hs : network.step source probeTimeout acceptTimeout (.opening id now echoRequested) =
      some next) : (next.links id).sent = some ⟨echoRequested, network.NEXT_TOKEN⟩ := by
  cases echoRequested with
  | true | false =>
      simp only [NetworkEvent.opening, Network.step, Bool.false_eq_true, if_true, if_false] at hs
      split_ifs at hs
      obtain rfl := Option.some.inj hs
      simp [Network.draw, Network.set, Header.next]

-- What the near sides of all streams have put on the wire.
def Network.Spoke (network : Network) : Prop :=
  ∀ id, (network.links id).dialler.Spoke (network.links id).sent (network.links id).near

theorem Network.Spoke.step (h : network.Spoke)
    (hs : network.step source probeTimeout acceptTimeout event = some next) : next.Spoke := by
  intro id
  obtain ⟨hdialler, hsent, hnear⟩ | ⟨hfresh, hnear, now, echo, -, -, hspoke⟩ |
    ⟨now, waited, hd, hsent, hnear⟩ := Network.step_near hs id
  · rw [hdialler, hsent, hnear]
    exact h id
  · have hnothing := h id
    rw [hfresh] at hnothing
    rw [hnear, hnothing.2]
    exact hspoke
  · rw [hsent, hnear]
    exact (h id).step hd

-- No stream is opened twice, so its header stays the one it drew.
theorem Network.Spoke.sent {id : StreamId} {header : Header} (h : network.Spoke)
    (hsent : (network.links id).sent = some header)
    (hs : network.step source probeTimeout acceptTimeout event = some next) :
    (next.links id).sent = some header := by
  obtain ⟨-, hsame, -⟩ | ⟨hfresh, -⟩ | ⟨-, -, -, hsame, -⟩ := Network.step_near hs id
  · rw [hsame, hsent]
  · have hnothing := h id
    rw [hfresh, hsent] at hnothing
    cases hnothing.1
  · rw [hsame, hsent]

theorem network_spoke {events : List NetworkEvent}
    (hr : Machine.run (Network.step source probeTimeout acceptTimeout) {} events = some network) :
    network.Spoke := by
  have hfresh : Dialler.Spoke none {} .fresh := ⟨rfl, rfl⟩
  exact Machine.run_invariant Network.Spoke (fun _ _ _ h hs => h.step hs) (fun _ => hfresh) hr

end

-- The header of the stream. Of all that the process did before, the number of
-- headers it drew is in it.
def Opening.header (opening : Opening) : Header :=
  ⟨opening.echoRequested, UInt64.ofNat (1 + headersDrawn opening.earlier)⟩

theorem Opening.sent (opening : Opening) : opening.network.Spoke ∧
    (opening.network.links opening.id).sent = some opening.header := by
  have hr : Machine.run (Network.step opening.source opening.probeTimeout opening.acceptTimeout) {}
      (opening.earlier ++ .opening opening.id opening.now opening.echoRequested ::
        opening.later) = some opening.network := (Option.some_get opening.ran).symm
  obtain ⟨before, hbefore, hrest⟩ := Machine.run_append_some hr
  obtain ⟨drawn, hdrawn, hlater⟩ := Option.bind_eq_some_iff.mp hrest
  have hfirst : (drawn.links opening.id).sent = some opening.header := by
    rw [Network.step_opening hdrawn, network_token hbefore]
    rfl
  exact Machine.run_invariant
    (fun network : Network => network.Spoke ∧
      (network.links opening.id).sent = some opening.header)
    (fun network event next h hs => ⟨h.1.step hs, h.1.sent h.2 hs⟩)
    ⟨(network_spoke hbefore).step hdrawn, hfirst⟩ hlater

theorem Opening.shown_prefix (opening : Opening) :
    opening.shown <+: opening.header.encode := by
  obtain ⟨hspoke, hsent⟩ := opening.sent
  by_cases hnil : opening.shown = []
  · rw [hnil]
    exact List.nil_prefix
  · obtain ⟨header, hheader, hprefix⟩ := (hspoke opening.id).spoken hnil
    rw [hsent] at hheader
    obtain rfl := Option.some.inj hheader
    exact hprefix

theorem Opening.shown_eq {opening : Opening} (hlen : opening.shown.length = HEADER_LEN) :
    opening.shown = opening.header.encode :=
  opening.shown_prefix.eq_of_length (hlen.trans (encode_length _).symm)

theorem token_eq_iff {first second : Nat} :
    UInt64.ofNat (1 + first) = UInt64.ofNat (1 + second) ↔
      first % 2 ^ 64 = second % 2 ^ 64 := by
  rw [← UInt64.toNat_inj, UInt64.toNat_ofNat', UInt64.toNat_ofNat']
  exact ⟨fun h => Nat.ModEq.add_left_cancel' 1 h, fun h => Nat.ModEq.add_left 1 h⟩

-- Two new streams put the same header on the wire exactly when their processes
-- have drawn as many headers before, up to the wrap of the counter. The far side
-- reads that number off the stream, and off two streams of one process how many
-- headers were drawn between them.
theorem header_counts_history (first second : Opening) :
    first.shown <+: Header.encode
      ⟨first.echoRequested, UInt64.ofNat (1 + headersDrawn first.earlier)⟩ ∧
    (first.echoRequested = second.echoRequested →
      first.shown.length = HEADER_LEN → second.shown.length = HEADER_LEN →
      (first.shown = second.shown ↔
        headersDrawn first.earlier % 2 ^ 64 = headersDrawn second.earlier % 2 ^ 64)) ∧
    (first.shown.length = HEADER_LEN →
      ∃ header, Header.decode first.shown = .ok header ∧
        header.token.toNat = (1 + headersDrawn first.earlier) % 2 ^ 64) ∧
    ∀ between : List NetworkEvent, first.Precedes between second →
      first.shown.length = HEADER_LEN → second.shown.length = HEADER_LEN →
      ∃ header next, Header.decode first.shown = .ok header ∧
        Header.decode second.shown = .ok next ∧
        (next.token - header.token).toNat = (1 + headersDrawn between) % 2 ^ 64 := by
  refine ⟨first.shown_prefix, ?_, ?_, ?_⟩
  · intro hecho hfirst hsecond
    rw [Opening.shown_eq hfirst, Opening.shown_eq hsecond, encode_inj, ← token_eq_iff]
    simp [Opening.header, hecho]
  · intro hlen
    refine ⟨first.header, ?_, UInt64.toNat_ofNat'⟩
    rw [Opening.shown_eq hlen, decode_encode]
  · intro between hprecedes hfirst hsecond
    refine ⟨first.header, second.header, ?_, ?_, ?_⟩
    · rw [Opening.shown_eq hfirst, decode_encode]
    · rw [Opening.shown_eq hsecond, decode_encode]
    · have hdrawn : headersDrawn second.earlier =
          headersDrawn first.earlier + (1 + headersDrawn between) := by
        rw [hprecedes, headersDrawn, List.countP_append, List.countP_cons,
          draws_opening, if_pos rfl, Nat.add_comm 1]
        rfl
      have htoken : second.header.token = first.header.token +
          UInt64.ofNat (1 + headersDrawn between) := by
        simp only [Opening.header, hdrawn]
        rw [← Nat.add_assoc, UInt64.ofNat_add]
      rw [htoken, UInt64.add_comm, UInt64.add_sub_cancel]
      exact UInt64.toNat_ofNat'

-- The third stream of a process, after two announcements.
def thirdOpened : Opening where
  source := id
  probeTimeout := 10
  acceptTimeout := 10
  earlier := [.announce 0, .announce 1]
  id := 2
  now := 0
  echoRequested := true
  later := [.near 2 0 (.io (.wrote 14))]
  ran := by decide +kernel

-- And of another one, in the middle of its probes.
def thirdProbed : Opening where
  source := id
  probeTimeout := 20
  acceptTimeout := 10
  earlier := [.probe 5 0, .near 5 1 (.io (.wrote 3)), .probe 0 4]
  id := 9
  now := 6
  echoRequested := true
  later := [.near 9 6 (.io (.wrote 4)), .announce 1, .near 9 7 (.io (.wrote 10)),
    .near 5 8 (.io (.wrote 11))]
  ran := by decide +kernel

-- The first stream of that other process, in the same run.
def firstProbed : Opening where
  source := id
  probeTimeout := 20
  acceptTimeout := 10
  earlier := []
  id := 5
  now := 0
  echoRequested := true
  later := [.near 5 1 (.io (.wrote 3)), .probe 0 4, .probe 9 6, .near 9 6 (.io (.wrote 4)),
    .announce 1, .near 9 7 (.io (.wrote 10)), .near 5 8 (.io (.wrote 11))]
  ran := by decide +kernel

theorem third_headers_alike : thirdOpened.shown = thirdProbed.shown ∧
    ∃ header next, Header.decode firstProbed.shown = .ok header ∧
      Header.decode thirdProbed.shown = .ok next ∧ (next.token - header.token).toNat = 2 := by
  obtain ⟨-, halike, -⟩ := header_counts_history thirdOpened thirdProbed
  obtain ⟨-, -, -, hbetween⟩ := header_counts_history firstProbed thirdProbed
  have hfirst : firstProbed.shown.length = HEADER_LEN := by decide +kernel
  have hthird : thirdProbed.shown.length = HEADER_LEN := by decide +kernel
  exact ⟨(halike rfl (by decide +kernel) hthird).mpr rfl,
    hbetween [.near 5 1 (.io (.wrote 3)), .probe 0 4] rfl hfirst hthird⟩

-- The first stream of a process does not look like its third.
theorem headers_differ_by_history : ¬∀ first second : Opening,
    first.echoRequested = second.echoRequested → first.shown.length = HEADER_LEN →
    second.shown.length = HEADER_LEN → first.shown = second.shown := by
  intro hclaim
  exact absurd (hclaim firstProbed thirdProbed rfl (by decide +kernel) (by decide +kernel))
    (by decide +kernel)

end LwdMixnet
