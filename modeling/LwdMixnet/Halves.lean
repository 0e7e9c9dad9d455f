import LwdMixnet.Carry.Accounts
import LwdMixnet.Serve.Accounts
import LwdMixnet.Tunnel.Transparency

namespace LwdMixnet

-- A stream of a connection, and the bytes in flight on it both ways.
abbrev Leg := Nat × StreamId

structure Wire where
  outgoing : Bytes := []
  incoming : Bytes := []
  deriving DecidableEq, Repr

-- The two processes and the mixnet between them: the connections that wallets made to
-- the one, the streams that the other accepted, and the task that serves each of these.
-- A stream that is shed for want of a permit is one that nobody accepts.
structure Halves where
  client : Carriers := Carriers.start
  server : Serving := Serving.start
  tasks : Leg → Option Nat := fun _ => none
  wires : Leg → Wire := fun _ => {}

-- A task counts in its metrics between its steps, one update at a time.
inductive HalvesEvent
  | connect
  | carry (connection : Nat) (event : CarryEvent)
  | carryCounts (connection : Nat)
  | accept (leg : Leg)
  | serve (leg : Leg) (event : ServeEvent)
  | serveCounts (task : Nat)
  | loseOutgoing (leg : Leg) (count : Nat)
  | loseIncoming (leg : Leg) (count : Nat)

-- What an event is to one of the connections.
def HalvesEvent.own (connection : Nat) : HalvesEvent → Option TunnelEvent
  | .carry other event => if other = connection then some (.carry event) else none
  | .accept leg => if leg.1 = connection then some (.accept leg.2) else none
  | .serve leg event => if leg.1 = connection then some (.serve leg.2 event) else none
  | .loseOutgoing leg count =>
      if leg.1 = connection then some (.loseOutgoing leg.2 count) else none
  | .loseIncoming leg count =>
      if leg.1 = connection then some (.loseIncoming leg.2 count) else none
  | .connect | .carryCounts _ | .serveCounts _ => none

def Halves.carry (halves : Halves) (connection : Nat) : Carry :=
  (halves.client.stateAt connection).getD {}

def Halves.serve (halves : Halves) (leg : Leg) : Option Serve :=
  (halves.tasks leg).bind halves.server.stateAt

def Halves.lane (halves : Halves) (leg : Leg) : Lane where
  serve := halves.serve leg
  outgoing := (halves.wires leg).outgoing
  incoming := (halves.wires leg).incoming

def Halves.wire (halves : Halves) (leg : Leg) (wire : Wire) : Halves :=
  { halves with wires := Function.update halves.wires leg wire }

def Halves.step (carrying : Carrying) (settings : ServeSettings) : Machine Halves HalvesEvent :=
  fun halves event =>
    match event with
    | .connect => do
        let client ← Carriers.step carrying halves.client .join
        some { halves with client }
    | .carry connection event => do
        let client ← Carriers.step carrying halves.client (.step connection event)
        match (halves.carry connection).moved event with
        | none => some { halves with client }
        | some ⟨stream, taken, given⟩ =>
            let wire := halves.wires (connection, stream)
            if taken <+: wire.incoming then
              some { halves.wire (connection, stream) {
                outgoing := wire.outgoing ++ given
                incoming := wire.incoming.drop taken.length } with client }
            else none
    | .carryCounts connection => do
        let client ← Carriers.step carrying halves.client (.update connection)
        some { halves with client }
    | .accept leg =>
        match halves.tasks leg with
        | some _ => none
        | none => do
            let server ← Serving.step settings halves.server .join
            some { halves with
              server
              tasks := Function.update halves.tasks leg halves.server.members.length }
    | .serve leg event =>
        match halves.tasks leg, halves.serve leg with
        | some task, some serve => do
            let server ← Serving.step settings halves.server (.step task event)
            let wire := halves.wires leg
            if serve.taken event <+: wire.outgoing then
              some { halves.wire leg {
                outgoing := wire.outgoing.drop (serve.taken event).length
                incoming := wire.incoming ++ serve.given event } with server }
            else none
        | _, _ => none
    | .serveCounts task => do
        let server ← Serving.step settings halves.server (.update task)
        some { halves with server }
    | .loseOutgoing leg count =>
        let wire := halves.wires leg
        if (halves.lane leg).far.consumed = [] then
          some (halves.wire leg { wire with outgoing := wire.outgoing.drop count })
        else none
    | .loseIncoming leg count =>
        let wire := halves.wires leg
        if ((halves.carry leg.1).near leg.2).consumed = [] then
          some (halves.wire leg { wire with incoming := wire.incoming.drop count })
        else none

-- One connection of them, with the streams it dialled.
def Halves.tunnel (halves : Halves) (connection : Nat) : Tunnel where
  carry := halves.carry connection
  lanes := fun stream => halves.lane (connection, stream)

section

variable {carrying : Carrying} {settings : ServeSettings} {halves next : Halves}

-- Everything a step can do.
theorem Halves.step_cases {event : HalvesEvent}
    (hs : Halves.step carrying settings halves event = some next) :
    (∃ counts client, (∀ connection, event.own connection = none) ∧
      (counts = .join ∧ event = .connect ∨ ∃ connection, counts = .update connection) ∧
      Carriers.step carrying halves.client counts = some client ∧
      next = { halves with client }) ∨
    (∃ connection taken client, event = .carry connection taken ∧
      Carriers.step carrying halves.client (.step connection taken) = some client ∧
      ((halves.carry connection).moved taken = none ∧ next = { halves with client } ∨
        ∃ stream read given, (halves.carry connection).moved taken = some ⟨stream, read, given⟩ ∧
          read <+: (halves.wires (connection, stream)).incoming ∧
          next = { halves.wire (connection, stream) {
            outgoing := (halves.wires (connection, stream)).outgoing ++ given
            incoming := (halves.wires (connection, stream)).incoming.drop read.length } with
              client })) ∨
    (∃ leg server, event = .accept leg ∧ halves.tasks leg = none ∧
      Serving.step settings halves.server .join = some server ∧
      next = { halves with
        server
        tasks := Function.update halves.tasks leg halves.server.members.length }) ∨
    (∃ leg taken task serve server, event = .serve leg taken ∧ halves.tasks leg = some task ∧
      halves.server.stateAt task = some serve ∧
      Serving.step settings halves.server (.step task taken) = some server ∧
      serve.taken taken <+: (halves.wires leg).outgoing ∧
      next = { halves.wire leg {
        outgoing := (halves.wires leg).outgoing.drop (serve.taken taken).length
        incoming := (halves.wires leg).incoming ++ serve.given taken } with server }) ∨
    (∃ task server, (∀ connection, event.own connection = none) ∧
      Serving.step settings halves.server (.update task) = some server ∧
      next = { halves with server }) ∨
    (∃ leg count, event = .loseOutgoing leg count ∧ (halves.lane leg).far.consumed = [] ∧
      next = halves.wire leg { halves.wires leg with
        outgoing := (halves.wires leg).outgoing.drop count }) ∨
    (∃ leg count, event = .loseIncoming leg count ∧
      ((halves.carry leg.1).near leg.2).consumed = [] ∧
      next = halves.wire leg { halves.wires leg with
        incoming := (halves.wires leg).incoming.drop count }) := by
  unfold Halves.step at hs
  cases event with
  | connect =>
      obtain ⟨client, hclient, hnext⟩ := Option.bind_eq_some_iff.mp hs
      exact Or.inl ⟨_, client, fun _ => rfl, Or.inl ⟨rfl, rfl⟩, hclient,
        (Option.some.inj hnext).symm⟩
  | carryCounts connection =>
      obtain ⟨client, hclient, hnext⟩ := Option.bind_eq_some_iff.mp hs
      exact Or.inl ⟨_, client, fun _ => rfl, Or.inr ⟨connection, rfl⟩, hclient,
        (Option.some.inj hnext).symm⟩
  | carry connection taken =>
      obtain ⟨client, hclient, hnext⟩ := Option.bind_eq_some_iff.mp hs
      refine Or.inr (Or.inl ⟨connection, taken, client, rfl, hclient, ?_⟩)
      split at hnext
      · rename_i hmoved
        exact Or.inl ⟨hmoved, (Option.some.inj hnext).symm⟩
      · rename_i stream read given hmoved
        simp only at hnext
        split_ifs at hnext with hread
        exact Or.inr ⟨stream, read, given, hmoved, hread, (Option.some.inj hnext).symm⟩
  | accept leg =>
      cases htask : halves.tasks leg with
      | some task => simp [htask] at hs
      | none =>
          simp only [htask] at hs
          obtain ⟨server, hserver, hnext⟩ := Option.bind_eq_some_iff.mp hs
          exact Or.inr (Or.inr (Or.inl
            ⟨leg, server, rfl, htask, hserver, (Option.some.inj hnext).symm⟩))
  | serve leg taken =>
      simp only at hs
      split at hs
      · rename_i task serve htask hserve
        rw [Halves.serve, htask, Option.bind_some] at hserve
        obtain ⟨server, hserver, hnext⟩ := Option.bind_eq_some_iff.mp hs
        split_ifs at hnext with hread
        exact Or.inr (Or.inr (Or.inr (Or.inl
          ⟨leg, taken, task, serve, server, rfl, htask, hserve, hserver, hread,
            (Option.some.inj hnext).symm⟩)))
      · cases hs
  | serveCounts task =>
      obtain ⟨server, hserver, hnext⟩ := Option.bind_eq_some_iff.mp hs
      exact Or.inr (Or.inr (Or.inr (Or.inr (Or.inl
        ⟨task, server, fun _ => rfl, hserver, (Option.some.inj hnext).symm⟩))))
  | loseOutgoing leg count =>
      simp only at hs
      split_ifs at hs with hnothing
      exact Or.inr (Or.inr (Or.inr (Or.inr (Or.inr (Or.inl
        ⟨leg, count, rfl, hnothing, (Option.some.inj hs).symm⟩)))))
  | loseIncoming leg count =>
      simp only at hs
      split_ifs at hs with hnothing
      exact Or.inr (Or.inr (Or.inr (Or.inr (Or.inr (Or.inr
        ⟨leg, count, rfl, hnothing, (Option.some.inj hs).symm⟩)))))

-- Each task serves one stream, and was accepted for it.
structure Halves.Routed (halves : Halves) : Prop where
  within : ∀ leg task, halves.tasks leg = some task → task < halves.server.members.length
  distinct : ∀ first second task, halves.tasks first = some task →
    halves.tasks second = some task → first = second
  every : ∀ task, task < halves.server.members.length → ∃ leg, halves.tasks leg = some task

theorem Halves.Routed.congr (h : halves.Routed) (htasks : next.tasks = halves.tasks)
    (hlength : next.server.members.length = halves.server.members.length) : next.Routed := by
  obtain ⟨hwithin, hdistinct, hevery⟩ := h
  exact ⟨by rwa [htasks, hlength], by rwa [htasks], by rwa [htasks, hlength]⟩

theorem Halves.Routed.step {event : HalvesEvent} (h : halves.Routed)
    (hs : Halves.step carrying settings halves event = some next) : next.Routed := by
  obtain ⟨_, _, -, -, -, rfl⟩ | ⟨_, _, _, -, -, ⟨-, rfl⟩ | ⟨_, _, _, -, -, rfl⟩⟩ |
    ⟨leg, server, -, hnone, hserver, rfl⟩ | ⟨_, _, _, _, server, -, -, -, hserver, -, rfl⟩ |
    ⟨task, server, -, hserver, rfl⟩ | ⟨_, _, -, -, rfl⟩ | ⟨_, _, -, -, rfl⟩ :=
    Halves.step_cases hs
  · exact h.congr rfl rfl
  · exact h.congr rfl rfl
  · exact h.congr rfl rfl
  · obtain ⟨hwithin, hdistinct, hevery⟩ := h
    have hlength : server.members.length = halves.server.members.length + 1 := by
      obtain rfl := Option.some.inj hserver
      exact List.length_append
    refine ⟨fun other task htask => ?_, fun first second task hfirst hsecond => ?_,
      fun task htask => ?_⟩
    · simp only [Function.update_apply, hlength] at htask ⊢
      split_ifs at htask with hleg
      · obtain rfl := Option.some.inj htask
        exact Nat.lt_succ_self _
      · exact (hwithin other task htask).trans (Nat.lt_succ_self _)
    · simp only [Function.update_apply] at hfirst hsecond
      split_ifs at hfirst hsecond with hf hg hg
      · rw [hf, hg]
      · have hless := hwithin second task hsecond
        obtain rfl := Option.some.inj hfirst
        exact absurd hless (Nat.lt_irrefl _)
      · have hless := hwithin first task hfirst
        obtain rfl := Option.some.inj hsecond
        exact absurd hless (Nat.lt_irrefl _)
      · exact hdistinct first second task hfirst hsecond
    · simp only [hlength] at htask
      rcases Nat.lt_succ_iff_lt_or_eq.mp htask with hless | rfl
      · obtain ⟨other, hother⟩ := hevery task hless
        have hne : other ≠ leg := by
          rintro rfl
          rw [hnone] at hother
          cases hother
        exact ⟨other, (Function.update_of_ne hne ..).trans hother⟩
      · exact ⟨leg, Function.update_self ..⟩
  · obtain ⟨_, _, -, -, hlength, -⟩ := Machine.crew_step hserver
    exact h.congr rfl hlength
  · exact h.congr rfl (Machine.crew_update hserver).1
  · exact h.congr rfl rfl
  · exact h.congr rfl rfl

theorem Tunnel.same {first second : Tunnel} (hcarry : first.carry = second.carry)
    (hlanes : ∀ stream, first.lanes stream = second.lanes stream) : first = second := by
  cases first
  cases second
  obtain rfl := hcarry
  obtain rfl := funext hlanes
  rfl

theorem Halves.lane_set {leg : Leg} {served : Option Serve} {wire : Wire}
    (hserve : ∀ other, next.serve other = if other = leg then served else halves.serve other)
    (hwires : next.wires = Function.update halves.wires leg wire) (other : Leg) :
    next.lane other = if other = leg
      then { serve := served, outgoing := wire.outgoing, incoming := wire.incoming }
      else halves.lane other := by
  unfold Halves.lane
  rw [hserve, hwires, Function.update_apply]
  split_ifs <;> rfl

theorem Halves.tunnel_kept {connection : Nat}
    (hcarry : next.carry connection = halves.carry connection)
    (hlanes : ∀ stream, next.lane (connection, stream) = halves.lane (connection, stream)) :
    next.tunnel connection = halves.tunnel connection :=
  Tunnel.same hcarry hlanes

section

variable {connection : Nat} {stream : StreamId} {lane : Lane}
  (hlane : ∀ other, next.lane other =
    if other = (connection, stream) then lane else halves.lane other)

include hlane

theorem Halves.tunnel_set {carry : Carry} (hcarry : next.carry connection = carry) :
    next.tunnel connection = { (halves.tunnel connection).set stream lane with carry } := by
  refine Tunnel.same hcarry fun other => ?_
  refine Eq.trans ?_ (Tunnel.set_lanes (halves.tunnel connection) stream other lane).symm
  refine (hlane (connection, other)).trans ?_
  by_cases hsame : other = stream
  · rw [if_pos hsame, hsame, if_pos rfl]
  · rw [if_neg hsame, if_neg fun he => hsame (Prod.mk.inj he).2]
    rfl

-- Only the connection that the stream belongs to takes a step.
theorem Halves.tunnel_steps {event : HalvesEvent} (taken : TunnelEvent) (other : Nat)
    (hown : event.own other = if connection = other then some taken else none)
    (hcarry : ∀ other, other ≠ connection → next.carry other = halves.carry other)
    (hs : Tunnel.step carrying settings (halves.tunnel connection) taken =
      some (next.tunnel connection)) :
    (event.own other = none ∧ next.tunnel other = halves.tunnel other) ∨
    ∃ taken, event.own other = some taken ∧
      Tunnel.step carrying settings (halves.tunnel other) taken = some (next.tunnel other) := by
  by_cases hsame : connection = other
  · subst hsame
    exact Or.inr ⟨taken, hown.trans (if_pos rfl), hs⟩
  · refine Or.inl ⟨hown.trans (if_neg hsame), ?_⟩
    refine Halves.tunnel_kept (hcarry other (Ne.symm hsame)) fun stream => ?_
    rw [hlane, if_neg fun he => hsame (Prod.mk.inj he).1.symm]

end

-- What the server's tasks make of the streams.
theorem Halves.serve_set {leg : Leg} {task : Nat} {after : Serve} (h : halves.Routed)
    (htask : halves.tasks leg = some task) (htasks : next.tasks = halves.tasks)
    (hafter : ∀ other, next.server.stateAt other =
      if other = task then some after else halves.server.stateAt other) (other : Leg) :
    next.serve other = if other = leg then some after else halves.serve other := by
  unfold Halves.serve
  rw [htasks]
  split_ifs with hleg
  · rw [hleg, htask, Option.bind_some, hafter, if_pos rfl]
  · cases hother : halves.tasks other with
    | none => rfl
    | some found =>
        have hfound : found ≠ task := by
          rintro rfl
          exact hleg (h.distinct other leg found hother htask)
        rw [Option.bind_some, Option.bind_some, hafter, if_neg hfound]

theorem Halves.serve_join {leg : Leg} (h : halves.Routed)
    (hserver : Serving.step settings halves.server .join = some next.server)
    (htasks : next.tasks =
      Function.update halves.tasks leg (some halves.server.members.length)) (other : Leg) :
    next.serve other = if other = leg then some (.start settings) else halves.serve other := by
  unfold Halves.serve
  rw [htasks, Function.update_apply]
  split_ifs with hleg
  · rw [Option.bind_some, Machine.crew_join hserver, if_pos rfl]
  · cases hother : halves.tasks other with
    | none => rfl
    | some found =>
        have hless := h.within other found hother
        rw [Option.bind_some, Option.bind_some, Machine.crew_join hserver,
          if_neg (Nat.ne_of_lt hless)]

theorem Halves.lane_wired (halves next : Halves) {leg : Leg} {wire : Wire}
    (hserver : next.server = halves.server) (htasks : next.tasks = halves.tasks)
    (hwires : next.wires = Function.update halves.wires leg wire) (other : Leg) :
    next.lane other = if other = leg
      then { serve := halves.serve leg, outgoing := wire.outgoing, incoming := wire.incoming }
      else halves.lane other := by
  refine Halves.lane_set (fun other => ?_) hwires other
  unfold Halves.serve
  rw [hserver, htasks]
  split_ifs with hleg
  · rw [hleg]
  · rfl

-- The task of the leg makes a step of its own.
theorem Halves.serve_stepped {leg : Leg} {task : Nat} {serve : Serve} {event : ServeEvent}
    (h : halves.Routed) (htask : halves.tasks leg = some task) (htasks : next.tasks = halves.tasks)
    (hserve : halves.server.stateAt task = some serve)
    (hserver : Serving.step settings halves.server (.step task event) = some next.server) :
    ∃ after, Serve.own settings serve event = some after ∧
      ∀ other, next.serve other = if other = leg then some after else halves.serve other := by
  obtain ⟨before, after, hbefore, hown, -, hafter⟩ := Machine.crew_step hserver
  obtain rfl := Option.some.inj (hserve.symm.trans hbefore)
  exact ⟨after, hown, Halves.serve_set h htask htasks hafter⟩

-- A connection that has yet to be made stands where it will start.
theorem Halves.carry_counted {event : Machine.CrewEvent CarryEvent}
    (hcounts : event = .join ∨ ∃ connection, event = .update connection)
    (hclient : Carriers.step carrying halves.client event = some next.client) (other : Nat) :
    next.carry other = halves.carry other := by
  unfold Halves.carry
  obtain rfl | ⟨connection, rfl⟩ := hcounts
  · rw [Machine.crew_join hclient]
    split_ifs with hnew
    · simp [hnew, Machine.Crew.stateAt]
    · rfl
  · rw [(Machine.crew_update hclient).2]

theorem Halves.carry_stepped {connection : Nat} {event : CarryEvent}
    (hclient : Carriers.step carrying halves.client (.step connection event) =
      some next.client) :
    ∃ after, Carry.own carrying (halves.carry connection) event = some after ∧
      ∀ other, next.carry other = if other = connection then after else halves.carry other := by
  obtain ⟨before, after, hbefore, hown, -, hafter⟩ := Machine.crew_step hclient
  refine ⟨after, by rwa [Halves.carry, hbefore], fun other => ?_⟩
  unfold Halves.carry
  rw [hafter]
  split_ifs <;> rfl

-- The connections do not touch one another: a step of the halves is a step of one of
-- their tunnels, or of none.
theorem Halves.step_tunnel {event : HalvesEvent} (h : halves.Routed)
    (hs : Halves.step carrying settings halves event = some next) (connection : Nat) :
    (event.own connection = none ∧ next.tunnel connection = halves.tunnel connection) ∨
    ∃ taken, event.own connection = some taken ∧
      Tunnel.step carrying settings (halves.tunnel connection) taken =
        some (next.tunnel connection) := by
  obtain ⟨counts, client, hnobody, hcounts, hclient, hnext⟩ |
    ⟨origin, taken, client, rfl, hclient, hnext⟩ |
    ⟨⟨origin, stream⟩, server, rfl, hnone, hserver, hnext⟩ |
    ⟨⟨origin, stream⟩, taken, task, serve, server, rfl, htask, hserve, hserver, hread, hnext⟩ |
    ⟨task, server, hnobody, hserver, hnext⟩ |
    ⟨⟨origin, stream⟩, count, rfl, hnothing, hnext⟩ |
    ⟨⟨origin, stream⟩, count, rfl, hnothing, hnext⟩ := Halves.step_cases hs
  · obtain rfl : client = next.client := by rw [hnext]
    refine Or.inl ⟨hnobody connection, ?_⟩
    refine Halves.tunnel_kept (Halves.carry_counted ?_ hclient connection)
      fun stream => by rw [hnext]; rfl
    exact hcounts.imp_left And.left
  · obtain rfl : client = next.client := by
      obtain ⟨-, hnext⟩ | ⟨_, _, _, -, -, hnext⟩ := hnext <;> rw [hnext]
    obtain ⟨after, hown, hcarry⟩ := Halves.carry_stepped hclient
    obtain ⟨hmoved, hnext⟩ | ⟨stream, read, given, hmoved, hread, hnext⟩ := hnext
    · have hlane (stream : StreamId) :
          next.lane (connection, stream) = halves.lane (connection, stream) := by rw [hnext]; rfl
      by_cases hsame : origin = connection
      · subst hsame
        refine Or.inr ⟨.carry taken, if_pos rfl, ?_⟩
        simp only [Tunnel.step, Halves.tunnel, hown, hmoved]
        exact congrArg some (Tunnel.same ((hcarry origin).trans (if_pos rfl)).symm
          fun stream => (hlane stream).symm)
      · refine Or.inl ⟨if_neg hsame, ?_⟩
        exact Halves.tunnel_kept ((hcarry connection).trans (if_neg (Ne.symm hsame))) hlane
    · have hlane := Halves.lane_wired halves next (by rw [hnext]; rfl)
        (by rw [hnext]; rfl) (congrArg Halves.wires hnext)
      refine Halves.tunnel_steps hlane (.carry taken) connection rfl
        (fun other hne => (hcarry other).trans (if_neg hne)) ?_
      rw [Halves.tunnel_set hlane ((hcarry origin).trans (if_pos rfl))]
      simp only [Tunnel.step, Halves.tunnel, hown, hmoved]
      exact if_pos hread
  · obtain rfl : server = next.server := by rw [hnext]
    have hcarry (other : Nat) : next.carry other = halves.carry other := by rw [hnext]; rfl
    have hwires : next.wires = Function.update halves.wires (origin, stream)
        (halves.wires (origin, stream)) := by
      rw [hnext, Function.update_eq_self]
    have hlane := Halves.lane_set (Halves.serve_join h hserver (by rw [hnext])) hwires
    have hfresh : halves.serve (origin, stream) = none := by rw [Halves.serve, hnone]; rfl
    refine Halves.tunnel_steps hlane (.accept stream) connection rfl
      (fun other _ => hcarry other) ?_
    rw [Halves.tunnel_set hlane (hcarry origin)]
    simp only [Tunnel.step, Halves.tunnel, Halves.lane, hfresh]
    rfl
  · obtain rfl : server = next.server := by rw [hnext]
    have hcarry (other : Nat) : next.carry other = halves.carry other := by rw [hnext]; rfl
    obtain ⟨after, hown, hafter⟩ :=
      Halves.serve_stepped h htask (by rw [hnext]; rfl) hserve hserver
    have hlane := Halves.lane_set hafter (by rw [hnext]; rfl)
    have hserves : halves.serve (origin, stream) = some serve := by
      rw [Halves.serve, htask, Option.bind_some, hserve]
    refine Halves.tunnel_steps hlane (.serve stream taken) connection rfl
      (fun other _ => hcarry other) ?_
    rw [Halves.tunnel_set hlane (hcarry origin)]
    simp only [Tunnel.step, Halves.tunnel, Halves.lane, hserves, hown]
    exact if_pos hread
  · have hserve (leg : Leg) : next.serve leg = halves.serve leg := by
      unfold Halves.serve
      rw [hnext]
      simp only [funext (Machine.crew_update hserver).2]
    refine Or.inl ⟨hnobody connection, ?_⟩
    refine Halves.tunnel_kept (by rw [hnext]; rfl) fun stream => ?_
    unfold Halves.lane
    rw [hserve, hnext]
  · have hlane := Halves.lane_wired halves next (by rw [hnext]; rfl)
      (by rw [hnext]; rfl) (congrArg Halves.wires hnext)
    refine Halves.tunnel_steps hlane (.loseOutgoing stream count) connection rfl
      (fun other _ => by rw [hnext]; rfl) ?_
    rw [Halves.tunnel_set hlane (by rw [hnext])]
    exact if_pos hnothing
  · have hlane := Halves.lane_wired halves next (by rw [hnext]; rfl)
      (by rw [hnext]; rfl) (congrArg Halves.wires hnext)
    refine Halves.tunnel_steps hlane (.loseIncoming stream count) connection rfl
      (fun other _ => by rw [hnext]; rfl) ?_
    rw [Halves.tunnel_set hlane (by rw [hnext])]
    exact if_pos hnothing

theorem Halves.step_processes {event : HalvesEvent}
    (hs : Halves.step carrying settings halves event = some next) :
    (next.client = halves.client ∨
      ∃ taken, Carriers.step carrying halves.client taken = some next.client) ∧
    (next.server = halves.server ∨
      ∃ taken, Serving.step settings halves.server taken = some next.server) := by
  obtain ⟨_, _, -, -, hclient, rfl⟩ | ⟨_, _, _, -, hclient, ⟨-, rfl⟩ | ⟨_, _, _, -, -, rfl⟩⟩ |
    ⟨_, _, -, -, hserver, rfl⟩ | ⟨_, _, _, _, _, -, -, -, hserver, -, rfl⟩ |
    ⟨_, _, -, hserver, rfl⟩ | ⟨_, _, -, -, rfl⟩ | ⟨_, _, -, -, rfl⟩ := Halves.step_cases hs
  · exact ⟨Or.inr ⟨_, hclient⟩, Or.inl rfl⟩
  · exact ⟨Or.inr ⟨_, hclient⟩, Or.inl rfl⟩
  · exact ⟨Or.inr ⟨_, hclient⟩, Or.inl rfl⟩
  · exact ⟨Or.inl rfl, Or.inr ⟨_, hserver⟩⟩
  · exact ⟨Or.inl rfl, Or.inr ⟨_, hserver⟩⟩
  · exact ⟨Or.inl rfl, Or.inr ⟨_, hserver⟩⟩
  · exact ⟨Or.inl rfl, Or.inl rfl⟩
  · exact ⟨Or.inl rfl, Or.inl rfl⟩

theorem Halves.step_members {event : HalvesEvent} (hconnect : event ≠ .connect)
    (hs : Halves.step carrying settings halves event = some next) :
    next.client.members.length = halves.client.members.length := by
  obtain ⟨_, _, -, hcounts, hclient, rfl⟩ |
    ⟨_, _, _, -, hclient, ⟨-, rfl⟩ | ⟨_, _, _, -, -, rfl⟩⟩ | ⟨_, _, -, -, -, rfl⟩ |
    ⟨_, _, _, _, _, -, -, -, -, -, rfl⟩ | ⟨_, _, -, -, rfl⟩ | ⟨_, _, -, -, rfl⟩ |
    ⟨_, _, -, -, rfl⟩ := Halves.step_cases hs
  · obtain ⟨-, he⟩ | ⟨_, rfl⟩ := hcounts
    · exact absurd he hconnect
    · exact (Machine.crew_update hclient).1
  · obtain ⟨_, _, -, -, hlength, -⟩ := Machine.crew_step hclient
    exact hlength
  · obtain ⟨_, _, -, -, hlength, -⟩ := Machine.crew_step hclient
    exact hlength
  · rfl
  · rfl
  · rfl
  · rfl
  · rfl

-- Each process has made a run of its own, and so has every connection with its streams.
structure Halves.Reached (carrying : Carrying) (settings : ServeSettings) (halves : Halves) :
    Prop where
  routed : halves.Routed
  client : (Carriers.step carrying).Reaches Carriers.start halves.client
  server : (Serving.step settings).Reaches Serving.start halves.server
  tunnels : ∀ connection, (Tunnel.step carrying settings).Reaches {} (halves.tunnel connection)

theorem Halves.Reached.step {event : HalvesEvent} (h : halves.Reached carrying settings)
    (hs : Halves.step carrying settings halves event = some next) :
    next.Reached carrying settings := by
  obtain ⟨hclient, hserver⟩ := Halves.step_processes hs
  exact ⟨h.routed.step hs, h.client.step hclient, h.server.step hserver,
    fun connection => (h.tunnels connection).step ((Halves.step_tunnel h.routed hs connection).imp
      And.right (Exists.imp fun _ => And.right))⟩

theorem halves_reached {events : List HalvesEvent}
    (hr : (Halves.step carrying settings).run {} events = some halves) :
    halves.Reached carrying settings := by
  refine Machine.run_invariant _ (fun _ _ _ h hs => h.step hs) ?_ hr
  refine ⟨⟨fun _ _ h => (nomatch h), fun _ _ _ h => (nomatch h), fun _ h => ?_⟩, ⟨[], rfl⟩,
    ⟨[], rfl⟩, fun _ => ⟨[], rfl⟩⟩
  exact absurd h (Nat.not_lt_zero _)

end

end LwdMixnet
