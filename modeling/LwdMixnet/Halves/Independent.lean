import LwdMixnet.Halves.Joined
import LwdMixnet.Tunnel.Delivery

namespace LwdMixnet

-- What the two tasks of a stream do: the one that carries the connection and the one
-- that serves the stream.
def HalvesEvent.of (leg : Leg) (task : Nat) : HalvesEvent → Bool
  | .carry connection _ | .carryCounts connection => connection = leg.1
  | .serve other _ => other = leg
  | .serveCounts other => other = task
  | .connect | .accept _ | .loseOutgoing _ _ | .loseIncoming _ _ => false

-- Since `halves`, only the two tasks of a stream have moved, and the tunnel they are of
-- is `tunnel`.
structure Halves.Moved (halves : Halves) (leg : Leg) (tunnel : Tunnel) (next : Halves) : Prop where
  routed : next.Routed
  tasks : next.tasks = halves.tasks
  members : next.client.members.length = halves.client.members.length
  own : next.tunnel leg.1 = tunnel
  others : ∀ other, other ≠ leg.1 → next.tunnel other = halves.tunnel other

section

variable {carrying : Carrying} {settings : ServeSettings} {halves next last : Halves}
  {leg : Leg} {task : Nat} {tunnel after : Tunnel} {event : HalvesEvent}

theorem Halves.Moved.start (h : halves.Routed) (leg : Leg) :
    halves.Moved leg (halves.tunnel leg.1) halves :=
  ⟨h, rfl, rfl, rfl, fun _ _ => rfl⟩

-- The tasks of a stream neither accept a stream nor connect a wallet, and every other
-- connection stays as it is.
theorem Halves.step_of (h : next.Routed) (hof : event.of leg task)
    (hs : Halves.step carrying settings next event = some last) :
    last.tasks = next.tasks ∧ last.client.members.length = next.client.members.length ∧
      ∀ other, other ≠ leg.1 → last.tunnel other = next.tunnel other := by
  have hmembers : last.client.members.length = next.client.members.length :=
    Halves.step_members (by rintro rfl; cases hof) hs
  refine ⟨?_, hmembers, fun other hne => ?_⟩
  · obtain ⟨_, _, -, -, -, rfl⟩ | ⟨_, _, _, -, -, ⟨-, rfl⟩ | ⟨_, _, _, -, -, rfl⟩⟩ |
      ⟨_, _, rfl, -⟩ | ⟨_, _, _, _, _, -, -, -, -, -, rfl⟩ | ⟨_, _, -, -, rfl⟩ |
      ⟨_, _, rfl, -⟩ | ⟨_, _, rfl, -⟩ := Halves.step_cases hs
    · rfl
    · rfl
    · rfl
    · cases hof
    · rfl
    · rfl
    · cases hof
    · cases hof
  · obtain ⟨-, hkept⟩ | ⟨taken, hown, -⟩ := Halves.step_tunnel h hs other
    · exact hkept
    · cases event with
      | carry connection _ =>
          obtain rfl : connection = leg.1 := of_decide_eq_true hof
          rw [HalvesEvent.own, if_neg (Ne.symm hne)] at hown
          cases hown
      | serve found _ =>
          obtain rfl : found = leg := of_decide_eq_true hof
          rw [HalvesEvent.own, if_neg (Ne.symm hne)] at hown
          cases hown
      | connect | carryCounts _ | serveCounts _ => cases hown
      | accept _ | loseOutgoing _ _ | loseIncoming _ _ => cases hof

theorem Halves.Moved.step (h : halves.Moved leg tunnel next) (hof : event.of leg task)
    (hs : Halves.step carrying settings next event = some last)
    (hown : last.tunnel leg.1 = after) : halves.Moved leg after last := by
  obtain ⟨htasks, hmembers, hothers⟩ := Halves.step_of h.routed hof hs
  exact ⟨h.routed.step hs, htasks.trans h.tasks, hmembers.trans h.members, hown,
    fun other hne => (hothers other hne).trans (h.others other hne)⟩

theorem Halves.Moved.counts (h : halves.Moved leg tunnel next) (hof : event.of leg task)
    (hs : Halves.step carrying settings next event = some last)
    (hnobody : event.own leg.1 = none) : halves.Moved leg tunnel last := by
  refine h.step hof hs (Eq.trans ?_ h.own)
  obtain ⟨-, hkept⟩ | ⟨taken, hown, -⟩ := Halves.step_tunnel h.routed hs leg.1
  · exact hkept
  · rw [hnobody] at hown
    cases hown

theorem Halves.Moved.moves {taken : TunnelEvent} (h : halves.Moved leg tunnel next)
    (hof : event.of leg task) (hs : Halves.step carrying settings next event = some last)
    (hown : event.own leg.1 = some taken)
    (htunnel : Tunnel.step carrying settings tunnel taken = some after) :
    halves.Moved leg after last := by
  refine h.step hof hs ?_
  obtain ⟨hnone, -⟩ | ⟨found, hfound, hstep⟩ := Halves.step_tunnel h.routed hs leg.1
  · rw [hown] at hnone
    cases hnone
  · obtain rfl := Option.some.inj (hown.symm.trans hfound)
    rw [h.own, htunnel] at hstep
    exact (Option.some.inj hstep).symm

-- The updates that stand between a task and its next step are its own to make.
theorem Halves.Moved.drained (carrying : Carrying) (settings : ServeSettings) (task : Nat)
    (h : halves.Moved leg tunnel next) :
    ∃ more last,
      ((Halves.step carrying settings).only (HalvesEvent.of leg task)).run next more = some last ∧
      halves.Moved leg tunnel last ∧ last.client.owed leg.1 = [] := by
  refine Machine.run_descends (halves.Moved leg tunnel) (fun last => last.client.owed leg.1 = [])
    (fun last => (last.client.owed leg.1).length) (fun last h => ?_) h
  by_cases howed : last.client.owed leg.1 = []
  · exact Or.inl howed
  · obtain ⟨client, hclient, hless⟩ := Machine.crew_owing howed
    have hof : (HalvesEvent.carryCounts leg.1).of leg task := decide_eq_true rfl
    have hs : Halves.step carrying settings last (.carryCounts leg.1) =
        some { last with client } := Option.bind_eq_some_iff.mpr ⟨client, hclient, rfl⟩
    exact Or.inr ⟨_, _, Machine.only_some.mpr ⟨hof, hs⟩, h.counts hof hs rfl, hless⟩

theorem Halves.Moved.drained_serve (carrying : Carrying) (settings : ServeSettings) (task : Nat)
    (h : halves.Moved leg tunnel next) :
    ∃ more last,
      ((Halves.step carrying settings).only (HalvesEvent.of leg task)).run next more = some last ∧
      halves.Moved leg tunnel last ∧ last.server.owed task = [] := by
  refine Machine.run_descends (halves.Moved leg tunnel) (fun last => last.server.owed task = [])
    (fun last => (last.server.owed task).length) (fun last h => ?_) h
  by_cases howed : last.server.owed task = []
  · exact Or.inl howed
  · obtain ⟨server, hserver, hless⟩ := Machine.crew_owing howed
    have hof : (HalvesEvent.serveCounts task).of leg task := decide_eq_true rfl
    have hs : Halves.step carrying settings last (.serveCounts task) =
        some { last with server } := Option.bind_eq_some_iff.mpr ⟨server, hserver, rfl⟩
    exact Or.inr ⟨_, _, Machine.only_some.mpr ⟨hof, hs⟩, h.counts hof hs rfl, hless⟩

-- A task that owes no update is as free as it would be alone.
theorem Halves.carries {connection : Nat} {event : CarryEvent}
    (hjoined : connection < next.client.members.length)
    (howed : next.client.owed connection = [])
    (hs : Tunnel.step carrying settings (next.tunnel connection) (.carry event) = some after) :
    ∃ last, Halves.step carrying settings next (.carry connection event) = some last := by
  have hstate : next.client.stateAt connection = some (next.carry connection) := by
    simp [Halves.carry, Machine.Crew.stateAt, List.getElem?_eq_getElem hjoined]
  simp only [Tunnel.step, Halves.tunnel] at hs
  cases hown : Carry.own carrying (next.carry connection) event with
  | none => simp [hown] at hs
  | some resumed =>
      obtain ⟨client, hclient⟩ : ∃ client,
          Carriers.step carrying next.client (.step connection event) = some client :=
        Machine.crew_free howed hstate hown
      cases hmoved : (next.carry connection).moved event with
      | none => exact ⟨_, by simp only [Halves.step, hclient, hmoved]; rfl⟩
      | some moved =>
          obtain ⟨stream, taken, given⟩ := moved
          simp only [hown, hmoved] at hs
          obtain ⟨hread, -⟩ := Option.ite_none_right_eq_some.mp hs
          exact ⟨_, by simp only [Halves.step, hclient, hmoved]; exact if_pos hread⟩

theorem Halves.serves {event : ServeEvent} (htask : next.tasks leg = some task)
    (howed : next.server.owed task = [])
    (hs : Tunnel.step carrying settings (next.tunnel leg.1) (.serve leg.2 event) = some after) :
    ∃ last, Halves.step carrying settings next (.serve leg event) = some last := by
  simp only [Tunnel.step, Halves.tunnel, Halves.lane] at hs
  cases hserve : next.serve leg with
  | none => simp [hserve] at hs
  | some serve =>
      have hstate := hserve
      rw [Halves.serve, htask, Option.bind_some] at hstate
      simp only [hserve] at hs
      cases hown : Serve.own settings serve event with
      | none => simp [hown] at hs
      | some resumed =>
          obtain ⟨server, hserver⟩ : ∃ server,
              Serving.step settings next.server (.step task event) = some server :=
            Machine.crew_free howed hstate hown
          simp only [hown] at hs
          obtain ⟨hread, -⟩ := Option.ite_none_right_eq_some.mp hs
          exact ⟨_, by simp only [Halves.step, htask, hserve, hserver]; exact if_pos hread⟩

-- What the tasks of a stream could do alone, they can do among the others.
theorem Halves.Moved.follows {taken : TunnelEvent} (htask : halves.tasks leg = some task)
    (hjoined : leg.1 < halves.client.members.length) (h : halves.Moved leg tunnel next)
    (hs : (Tunnel.step carrying settings).only (TunnelEvent.moves leg.2) tunnel taken =
      some after) :
    ∃ more last,
      ((Halves.step carrying settings).only (HalvesEvent.of leg task)).run next more = some last ∧
      halves.Moved leg after last := by
  obtain ⟨htaken, hs⟩ := Machine.only_some.mp hs
  cases taken with
  | carry event =>
      obtain ⟨more, ready, hmore, hready, howed⟩ := h.drained carrying settings task
      have hthere := hready.members.symm ▸ hjoined
      obtain ⟨last, hlast⟩ := Halves.carries hthere howed (hready.own.symm ▸ hs)
      have hof : (HalvesEvent.carry leg.1 event).of leg task := decide_eq_true rfl
      exact ⟨_, last, Machine.run_snoc hmore (Machine.only_some.mpr ⟨hof, hlast⟩),
        hready.moves hof hlast (if_pos rfl) hs⟩
  | serve stream event =>
      obtain ⟨hstream, -⟩ := Bool.and_eq_true_iff.mp htaken
      obtain rfl : stream = leg.2 := of_decide_eq_true hstream
      obtain ⟨more, ready, hmore, hready, howed⟩ := h.drained_serve carrying settings task
      have hthere := hready.tasks.symm ▸ htask
      obtain ⟨last, hlast⟩ := Halves.serves hthere howed (hready.own.symm ▸ hs)
      have hof : (HalvesEvent.serve leg event).of leg task := decide_eq_true rfl
      exact ⟨_, last, Machine.run_snoc hmore (Machine.only_some.mpr ⟨hof, hlast⟩),
        hready.moves hof hlast (if_pos rfl) hs⟩
  | accept _ | loseOutgoing _ _ | loseIncoming _ _ => cases htaken

theorem Halves.joined_kept {connection : Nat} {stream : StreamId}
    (h : (halves.carry connection).kept = some stream) :
    connection < halves.client.members.length := by
  by_contra hbeyond
  have hnone := List.getElem?_eq_none (Nat.le_of_not_lt hbeyond)
  simp [Halves.carry, Machine.Crew.stateAt, hnone, Carry.kept] at h

end

-- Whatever the others are in the middle of, they hold nothing that a stream has to wait
-- for: once kept, and as long as its two halves go on, all that either end was sent
-- reaches it by steps of its own two tasks.
theorem halves_deliver (carrying : Carrying) (settings : ServeSettings)
    (hprobe : carrying.dial.probe ≠ none) (events : List HalvesEvent) (halves : Halves)
    (hr : (Halves.step carrying settings).run {} events = some halves) (leg : Leg)
    (hkept : (halves.carry leg.1).kept = some leg.2) (task : Nat)
    (htask : halves.tasks leg = some task) (serve : Serve)
    (hserve : halves.server.stateAt task = some serve) (hrunning : serve.phase ≠ .returned) :
    ∃ more next after, (Halves.step carrying settings).run halves more = some next ∧
      (∀ event ∈ more, event.of leg task) ∧
      (∀ other, other ≠ leg.1 → next.tunnel other = halves.tunnel other) ∧
      (next.carry leg.1).kept = some leg.2 ∧ next.server.stateAt task = some after ∧
      after.phase ≠ .returned ∧
      (next.carry leg.1).wallet = ⟨(halves.carry leg.1).wallet.consumed, serve.answered⟩ ∧
      ((halves.carry leg.1).wallet.consumed = [] ∧ after.upstream = none ∨
        after.upstream = some ⟨serve.answered, (halves.carry leg.1).wallet.consumed⟩) := by
  have h := halves_reached hr
  obtain ⟨own, hown⟩ := h.tunnels leg.1
  have hserves : halves.serve leg = some serve := by rw [Halves.serve, htask]; exact hserve
  obtain ⟨alone, last, after, halone, hlast, hafter, hdelivered⟩ :=
    (tunnel_sound hprobe hown).delivers settings hprobe (tunnel_live hown) hkept hserves hrunning
  obtain ⟨more, next, hmore, hnext⟩ := Machine.run_answered (halves.Moved leg)
    (fun _ _ _ _ hmoved hs => hmoved.follows htask (Halves.joined_kept hkept) hs)
    (Halves.Moved.start h.routed leg) halone
  obtain ⟨hrun, hof⟩ := Machine.run_only hmore
  rw [← hnext.own] at hlast hafter hdelivered
  have hstate : next.serve leg = some after := hafter
  rw [Halves.serve, hnext.tasks, htask, Option.bind_some] at hstate
  exact ⟨more, next, after, hrun, hof, hnext.others, hlast, hstate, hdelivered⟩

-- The task of the first exchange has yet to count the connection it has just made, and
-- the second exchange has yet to count its dial.
def twoHalfway : List HalvesEvent :=
  [.connect, .connect] ++ (exchange 1 0 80).take 22 ++ (exchange 0 1 90).take 13

theorem halfway_deliver : ∃ halves next : Halves, ∃ more after,
    (Halves.step probedOnce servedOnce).run {} twoHalfway = some halves ∧
    (Halves.step probedOnce servedOnce).run halves more = some next ∧
    next.tunnel 0 = halves.tunnel 0 ∧ next.server.stateAt 0 = some after ∧
    after.upstream = some ⟨[], [80, 82, 73]⟩ := by
  obtain ⟨halves, hr, he⟩ : ∃ halves,
      (Halves.step probedOnce servedOnce).run {} twoHalfway = some halves ∧
      ([(halves.carry 1).kept, halves.tasks (1, 0)], (halves.carry 1).wallet,
        (halves.server.stateAt 0).map fun serve => (serve.phase, serve.answered)) =
        ([some 0, some 0], ⟨[80, 82, 73], []⟩, some (.writing [80, 82], [])) :=
    Option.map_eq_some_iff.mp (by decide +kernel)
  obtain ⟨hids, hrest⟩ := Prod.mk.inj he
  obtain ⟨hkept, htasks⟩ := List.cons.inj hids
  obtain ⟨htask, -⟩ := List.cons.inj htasks
  obtain ⟨hwallet, hserving⟩ := Prod.mk.inj hrest
  obtain ⟨serve, hserve, hserving⟩ := Option.map_eq_some_iff.mp hserving
  obtain ⟨hphase, hanswered⟩ := Prod.mk.inj hserving
  obtain ⟨more, next, after, hmore, -, hothers, -, hafter, -, -, hupstream⟩ :=
    halves_deliver probedOnce servedOnce (by decide) twoHalfway halves hr (1, 0) hkept 0 htask
      serve hserve (by simp [hphase])
  rw [hwallet, hanswered] at hupstream
  obtain ⟨hnothing, -⟩ | hsome := hupstream
  · cases hnothing
  · exact ⟨halves, next, more, after, hr, hmore, hothers 0 (by decide), hafter, hsome⟩

end LwdMixnet
