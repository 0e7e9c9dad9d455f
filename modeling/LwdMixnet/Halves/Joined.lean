import LwdMixnet.Halves

namespace LwdMixnet

-- A task that reached its upstream, for the connection whose stream it serves.
structure Joined (carry : Carry) (serve : Serve) (upstream : Duplex) : Prop where
  request : upstream.accepted <+: carry.wallet.consumed
  answer : carry.wallet.accepted <+: upstream.consumed
  sent : ∃ stream, HEADER_LEN < (carry.near stream).accepted.length ∧
    HEADER_LEN + upstream.accepted.length ≤ (carry.near stream).accepted.length
  returned : HEADER_LEN + carry.wallet.accepted.length ≤ serve.stream.accepted.length

theorem Tunnel.Sound.joined {tunnel : Tunnel} {stream : StreamId} {serve : Serve}
    {upstream : Duplex} (h : tunnel.Sound) (hserve : (tunnel.lanes stream).serve = some serve)
    (hupstream : serve.upstream = some upstream) : Joined tunnel.carry serve upstream := by
  have hreaching : serve.Reaching := Or.inl (by simp [hupstream])
  obtain ⟨sent, carried, hkeeps, hforth, hback⟩ := h.reaching hserve hreaching
  obtain ⟨hrequest, hanswer⟩ := h.delivered hserve hupstream
  obtain ⟨hnone, -⟩ | ⟨other, hother, haccepted, -⟩ := hkeeps.relayed hserve
  · rw [hupstream] at hnone
    cases hnone
  obtain rfl := Option.some.inj (hupstream.symm.trans hother)
  have hmore := mt (fun hshort => hkeeps.lane.short hshort hserve) (not_not_intro hreaching)
  have hsaid := hkeeps.lane.incoming
  have hnear := hkeeps.near
  rw [Lane.far_serve hserve, hnear, List.nil_append] at hsaid
  refine ⟨hrequest, hanswer, ⟨stream, Nat.lt_of_not_le hmore, ?_⟩, ?_⟩
  · rw [hnear, Duplex.after, Duplex.move_accepted, List.length_append, encode_length]
    exact Nat.add_le_add_left haccepted.length_le _
  · have hless := hback.length_le
    rw [hsaid, Duplex.after, Duplex.move_consumed]
    simp only [List.length_append, encode_length]
    omega

section

variable {carrying : Carrying} {settings : ServeSettings} {halves : Halves}
  {carrier : Machine.Member Carry ClientUpdate} {member : Machine.Member Serve ServerUpdate}
  {upstream : Duplex}

-- The task serves a stream of the connection.
def Halves.Serves (halves : Halves) (task connection : Nat) : Prop :=
  ∃ stream, halves.tasks (connection, stream) = some task

theorem Halves.Routed.serves_one {task first second : Nat} (h : halves.Routed)
    (hfirst : halves.Serves task first) (hsecond : halves.Serves task second) :
    first = second := by
  obtain ⟨stream, hstream⟩ := hfirst
  obtain ⟨later, hlater⟩ := hsecond
  exact congrArg Prod.fst (h.distinct _ _ task hstream hlater)

theorem Halves.Reached.sound (hprobe : carrying.dial.probe ≠ none)
    (h : halves.Reached carrying settings) (connection : Nat) :
    (halves.tunnel connection).Sound := by
  obtain ⟨events, hr⟩ := h.tunnels connection
  exact tunnel_sound hprobe hr

theorem Halves.lane_serve {leg : Leg} {task : Nat} (htask : halves.tasks leg = some task)
    (hmember : halves.server.members[task]? = some member) :
    (halves.lane leg).serve = some member.state := by
  simp [Halves.lane, Halves.serve, htask, Machine.Crew.stateAt, hmember]

theorem Halves.Reached.joined (hprobe : carrying.dial.probe ≠ none)
    (h : halves.Reached carrying settings) {task : Nat}
    (hmember : halves.server.members[task]? = some member)
    (hupstream : member.state.upstream = some upstream) :
    ∃ connection carrier, halves.Serves task connection ∧
      halves.client.members[connection]? = some carrier ∧
      Joined carrier.state member.state upstream := by
  obtain ⟨hless, -⟩ := List.getElem?_eq_some_iff.mp hmember
  obtain ⟨⟨connection, stream⟩, htask⟩ := h.routed.every task hless
  have hjoined := (h.sound hprobe connection).joined
    (Halves.lane_serve htask hmember) hupstream
  cases hcarrier : halves.client.members[connection]? with
  | some carrier =>
      have hcarry : (halves.tunnel connection).carry = carrier.state := by
        simp [Halves.tunnel, Halves.carry, Machine.Crew.stateAt, hcarrier]
      rw [hcarry] at hjoined
      exact ⟨connection, carrier, ⟨stream, htask⟩, hcarrier, hjoined⟩
  | none =>
      have hcarry : (halves.tunnel connection).carry = {} := by
        simp [Halves.tunnel, Halves.carry, Machine.Crew.stateAt, hcarrier]
      obtain ⟨kept, hmore, -⟩ := hjoined.sent
      rw [hcarry] at hmore
      exact absurd hmore (Nat.not_lt_zero _)

-- What was answered to a wallet came over a task that reached its upstream.
theorem Halves.Reached.answered (hprobe : carrying.dial.probe ≠ none)
    (h : halves.Reached carrying settings) {connection : Nat}
    (hcarrier : halves.client.members[connection]? = some carrier)
    (hsome : carrier.state.wallet.accepted ≠ []) :
    ∃ task member upstream, halves.Serves task connection ∧
      halves.server.members[task]? = some member ∧ member.state.upstream = some upstream ∧
      Joined carrier.state member.state upstream := by
  have hsound := h.sound hprobe connection
  have hcarry : (halves.tunnel connection).carry = carrier.state := by
    simp [Halves.tunnel, Halves.carry, Machine.Crew.stateAt, hcarrier]
  by_contra hnone
  refine hsome ?_
  rw [← hcarry]
  refine hsound.silent fun stream serve hserve => ?_
  cases hupstream : serve.upstream with
  | none => rfl
  | some upstream =>
      obtain ⟨task, htask, hstate⟩ := Option.bind_eq_some_iff.mp hserve
      obtain ⟨member, hmember, rfl⟩ := Option.map_eq_some_iff.mp hstate
      refine absurd ⟨task, member, upstream, ⟨stream, htask⟩, hmember, hupstream, ?_⟩ hnone
      rw [← hcarry]
      exact hsound.joined hserve hupstream

-- No two tasks reach an upstream for one connection.
theorem Halves.Reached.alone (hprobe : carrying.dial.probe ≠ none)
    (h : halves.Reached carrying settings) {first second connection : Nat}
    {other : Machine.Member Serve ServerUpdate}
    (hfirst : halves.server.members[first]? = some member) (hopen : member.state.upstream ≠ none)
    (hsecond : halves.server.members[second]? = some other) (hother : other.state.upstream ≠ none)
    (hserves : halves.Serves first connection) (hserved : halves.Serves second connection) :
    first = second := by
  obtain ⟨stream, hstream⟩ := hserves
  obtain ⟨later, hlater⟩ := hserved
  obtain rfl := (h.sound hprobe connection).alone (Halves.lane_serve hstream hfirst)
    (Halves.lane_serve hlater hsecond) (Or.inl hopen) (Or.inl hother)
  exact Option.some.inj (hstream.symm.trans hlater)

end

-- Whatever interleaves, each upstream is one wallet's and no other's: what the upstream
-- was given starts what that wallet sent, what the wallet was given starts what the
-- upstream sent, and no other task reached an upstream for it. A wallet that was given
-- anything has such a task.
theorem wallets_apart (carrying : Carrying) (settings : ServeSettings)
    (hprobe : carrying.dial.probe ≠ none) (events : List HalvesEvent) (halves : Halves)
    (hr : (Halves.step carrying settings).run {} events = some halves) :
    (∀ task (member : Machine.Member Serve ServerUpdate) upstream,
      halves.server.members[task]? = some member → member.state.upstream = some upstream →
      ∃ connection, ∃ carrier : Machine.Member Carry ClientUpdate,
        halves.Serves task connection ∧ halves.client.members[connection]? = some carrier ∧
        upstream.accepted <+: carrier.state.wallet.consumed ∧
        carrier.state.wallet.accepted <+: upstream.consumed ∧
        (∀ another, halves.Serves task another → another = connection) ∧
        ∀ other (later : Machine.Member Serve ServerUpdate),
          halves.server.members[other]? = some later → later.state.upstream ≠ none →
          halves.Serves other connection → other = task) ∧
    (∀ connection (carrier : Machine.Member Carry ClientUpdate),
      halves.client.members[connection]? = some carrier → carrier.state.wallet.accepted ≠ [] →
      ∃ task, ∃ member : Machine.Member Serve ServerUpdate, ∃ upstream,
        halves.Serves task connection ∧ halves.server.members[task]? = some member ∧
        member.state.upstream = some upstream ∧
        upstream.accepted <+: carrier.state.wallet.consumed ∧
        carrier.state.wallet.accepted <+: upstream.consumed) := by
  have h := halves_reached hr
  refine ⟨fun task member upstream hmember hupstream => ?_,
    fun connection carrier hcarrier hsome => ?_⟩
  · obtain ⟨connection, carrier, hserves, hcarrier, hjoined⟩ := h.joined hprobe hmember hupstream
    refine ⟨connection, carrier, hserves, hcarrier, hjoined.request, hjoined.answer,
      fun another hanother => h.routed.serves_one hanother hserves, ?_⟩
    intro other later hlater hopen hserved
    have hsame : member.state.upstream ≠ none := by simp [hupstream]
    exact h.alone hprobe hlater hopen hmember hsame hserved hserves
  · obtain ⟨task, member, upstream, hserves, hmember, hupstream, hjoined⟩ :=
      h.answered hprobe hcarrier hsome
    exact ⟨task, member, upstream, hserves, hmember, hupstream, hjoined.request, hjoined.answer⟩

def probedOnce : Carrying where
  dial := {
    probe := some {
      timeout := 10
      attempts := 1
      concurrency := 1
      attempts_pos := Nat.one_pos
      concurrency_pos := Nat.one_pos } }
  watchdog := { stall := some 60 }

def servedOnce : ServeSettings where
  handshakeTimeout := 10
  firstRequestTimeout := 20
  idleTimeout := 300

-- A connection sends three bytes that start with `first` over its only stream, and
-- has two back.
def exchange (connection task : Nat) (first : UInt8) : List HalvesEvent :=
  let carry (event : CarryEvent) : HalvesEvent := .carry connection event
  let dial (event : IoEvent) : HalvesEvent := carry (.dial (.wait 0 (.io event)))
  let forth (event : IoEvent) : HalvesEvent := carry (.splice (.outbound event))
  let back (event : IoEvent) : HalvesEvent := carry (.splice (.inbound event))
  let serve (event : ServeEvent) : HalvesEvent := .serve (connection, 0) event
  let header : Header := ⟨true, 1⟩
  [carry .start, .carryCounts connection, carry (.dial .opened), carry (.dial (.polled 0 1)),
    dial (.wrote 14), dial .flushed, .accept (connection, 0),
    serve (.stream (.io (.read header.encode))), serve (.stream (.io (.wrote 14))),
    serve (.stream (.io .flushed)), .serveCounts task, dial (.read header.encode), carry .fold,
    .carryCounts connection, .carryCounts connection, .carryCounts connection,
    .carryCounts connection, forth (.read [first, 82, 73]), forth (.wrote 3), forth .flushed,
    serve (.stream (.io (.read [first, 82]))), serve .connected, .serveCounts task,
    .serveCounts task, serve (.upstream (.wrote 2)), serve (.splice (.inbound (.read [73]))),
    serve (.splice (.inbound (.wrote 1))), serve (.splice (.inbound .flushed)),
    serve (.splice (.outbound (.read [first, 66]))), serve (.splice (.outbound (.wrote 2))),
    serve (.splice (.outbound .flushed)), back (.read [first, 66]), back (.wrote 2),
    back .flushed]

-- The second of two connections goes first, so its task is the first one.
def twoWallets : List HalvesEvent :=
  [.connect, .connect] ++ exchange 1 0 80 ++ exchange 0 1 90

theorem two_wallets_apart : ∃ halves : Halves, ∃ member : Machine.Member Serve ServerUpdate,
    ∃ upstream, (Halves.step probedOnce servedOnce).run {} twoWallets = some halves ∧
    halves.server.members[0]? = some member ∧ member.state.upstream = some upstream ∧
    upstream = ⟨[80, 66], [80, 82, 73]⟩ ∧ ∃ connection : Nat,
    ∃ carrier : Machine.Member Carry ClientUpdate,
      halves.client.members[connection]? = some carrier ∧
      upstream.accepted <+: carrier.state.wallet.consumed ∧
      carrier.state.wallet.accepted <+: upstream.consumed ∧
      ∀ another, halves.Serves 0 another → another = connection := by
  obtain ⟨halves, hr, hseen⟩ : ∃ halves,
      (Halves.step probedOnce servedOnce).run {} twoWallets = some halves ∧
      (halves.server.members[0]?).bind (fun member => member.state.upstream) =
        some ⟨[80, 66], [80, 82, 73]⟩ :=
    Option.map_eq_some_iff.mp (by decide +kernel)
  obtain ⟨member, hmember, hupstream⟩ := Option.bind_eq_some_iff.mp hseen
  obtain ⟨connection, carrier, -, hcarrier, hrequest, hanswer, hone, -⟩ :=
    (wallets_apart probedOnce servedOnce (by decide) twoWallets halves hr).1 0 member _ hmember
      hupstream
  exact ⟨halves, member, _, hr, hmember, hupstream, rfl, connection, carrier, hcarrier, hrequest,
    hanswer, hone⟩

end LwdMixnet
