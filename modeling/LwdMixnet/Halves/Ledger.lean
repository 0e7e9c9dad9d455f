import LwdMixnet.Halves.Joined
import LwdMixnet.Halves.Sent
import LwdMixnet.Halves.Served
import LwdMixnet.Matching

namespace LwdMixnet

section

variable {carrying : Carrying} {settings : ServeSettings} {halves : Halves}
  {carrier : Machine.Member Carry ClientUpdate} {member : Machine.Member Serve ServerUpdate}

-- What only the tasks that reached an upstream have is bounded by what their
-- connections have, and the other way round.
theorem Halves.Reached.tasks_le (hprobe : carrying.dial.probe ≠ none)
    (h : halves.Reached carrying settings) (value : Machine.Member Serve ServerUpdate → Nat)
    (other : Machine.Member Carry ClientUpdate → Nat)
    (hvalue : ∀ member ∈ halves.server.members, member.state.upstream = none → value member = 0)
    (hless : ∀ member ∈ halves.server.members, ∀ carrier ∈ halves.client.members, ∀ upstream,
      member.state.upstream = some upstream → Joined carrier.state member.state upstream →
      value member ≤ other carrier) :
    (halves.server.members.map value).sum ≤ (halves.client.members.map other).sum := by
  have hopened {task : Nat} {member : Machine.Member Serve ServerUpdate}
      (hmember : halves.server.members[task]? = some member) (hne : value member ≠ 0) :
      member.state.upstream ≠ none :=
    fun hnone => hne (hvalue member (List.mem_of_getElem? hmember) hnone)
  have hmatched : Matching.Matched halves.server.members halves.client.members value other
      halves.Serves := by
    refine ⟨fun task member hmember hne => ?_, fun first second connection member later hfirst hne
      hsecond hlater hserves hserved => ?_⟩
    · obtain ⟨upstream, hupstream⟩ := Option.ne_none_iff_exists'.mp (hopened hmember hne)
      obtain ⟨connection, carrier, hserves, hcarrier, hjoined⟩ :=
        h.joined hprobe hmember hupstream
      exact ⟨connection, carrier, hserves, hcarrier, hless member (List.mem_of_getElem? hmember)
        carrier (List.mem_of_getElem? hcarrier) upstream hupstream hjoined⟩
    · exact h.alone hprobe hfirst (hopened hfirst hne) hsecond (hopened hsecond hlater) hserves
        hserved
  exact hmatched.sum_le

theorem Halves.Reached.connections_le (hprobe : carrying.dial.probe ≠ none)
    (h : halves.Reached carrying settings) (value : Machine.Member Carry ClientUpdate → Nat)
    (other : Machine.Member Serve ServerUpdate → Nat)
    (hvalue : ∀ carrier ∈ halves.client.members,
      value carrier ≤ carrier.state.wallet.accepted.length)
    (hless : ∀ member ∈ halves.server.members, ∀ carrier : Machine.Member Carry ClientUpdate,
      ∀ upstream, member.state.upstream = some upstream →
      Joined carrier.state member.state upstream →
      carrier.state.wallet.accepted.length ≤ other member) :
    (halves.client.members.map value).sum ≤ (halves.server.members.map other).sum := by
  have hmatched : Matching.Matched halves.client.members halves.server.members value other
      fun connection task => halves.Serves task connection := by
    refine ⟨fun connection carrier hcarrier hne => ?_,
      fun first second task _ _ _ _ _ _ hserves hserved => ?_⟩
    · have hgiven := hvalue carrier (List.mem_of_getElem? hcarrier)
      have hsome : carrier.state.wallet.accepted ≠ [] := by
        intro hnothing
        rw [hnothing, List.length_nil, Nat.le_zero] at hgiven
        exact hne hgiven
      obtain ⟨task, member, upstream, hserves, hmember, hupstream, hjoined⟩ :=
        h.answered hprobe hcarrier hsome
      exact ⟨task, member, hserves, hmember, hgiven.trans (hless member
        (List.mem_of_getElem? hmember) carrier upstream hupstream hjoined)⟩
    · obtain ⟨stream, hstream⟩ := hserves
      obtain ⟨later, hlater⟩ := hserved
      exact (Prod.mk.inj (h.routed.distinct _ _ task hstream hlater)).1
  exact hmatched.sum_le

-- A counter of the server's reads what its tasks' updates have come to.
theorem Serving.reads {events : List (Machine.CrewEvent ServeEvent)} {serving : Serving}
    (hr : (Serving.step settings).run .start events = some serving)
    (reading : ServerMetrics → Nat) (weight : ServerUpdate → Nat) (hzero : reading {} = 0)
    (happly : ∀ (update : ServerUpdate) metrics,
      reading (update.apply metrics) = reading metrics + weight update) :
    reading serving.shared =
      (serving.members.map fun member => (member.log.map weight).sum).sum := by
  have htally := Machine.crew_tally reading weight happly hr
  rw [htally]
  change reading {} + _ = _
  rw [hzero, Nat.zero_add]

theorem Serving.billed {events : List (Machine.CrewEvent ServeEvent)} {serving : Serving}
    (hr : (Serving.step settings).run .start events = some serving)
    (hmember : member ∈ serving.members) :
    member.state.Billed (member.log ++ member.pending) := by
  obtain ⟨id, hid⟩ := List.mem_iff_getElem?.mp hmember
  obtain ⟨hrun, hlog⟩ := Machine.crew_member hr hid
  rw [hlog]
  exact serve_billed hrun

theorem sum_log_le (weight : ServerUpdate → Nat) (log pending : List ServerUpdate) :
    (log.map weight).sum ≤ ((log ++ pending).map weight).sum := by
  rw [List.map_append, List.sum_append]
  exact Nat.le_add_right _ _

theorem Carriers.sent {events : List (Machine.CrewEvent CarryEvent)} {carriers : Carriers}
    (hprobe : carrying.dial.probe ≠ none)
    (hr : (Carriers.step carrying).run .start events = some carriers)
    (hmember : carrier ∈ carriers.members) :
    carrier.state.Sent (carrier.log ++ carrier.pending) := by
  obtain ⟨id, hid⟩ := List.mem_iff_getElem?.mp hmember
  obtain ⟨hrun, hlog⟩ := Machine.crew_member hr hid
  rw [hlog]
  exact carry_sent hprobe hrun

end

-- The two processes count the same connections: at every instant, whatever is in
-- flight, the server has no more of them than the client established, and neither has
-- counted more bytes than the other's far end sent. Once one side's tasks have all
-- returned and counted, what the other has counted of its bytes is within one buffer a
-- connection of its own count.
theorem halves_agree (carrying : Carrying) (settings : ServeSettings)
    (hprobe : carrying.dial.probe ≠ none) (events : List HalvesEvent) (halves : Halves)
    (hr : (Halves.step carrying settings).run {} events = some halves) :
    let client := halves.client.shared.metrics
    let server := halves.server.shared
    (server.upstreamConnections ≤ client.establishment.length ∧
      server.bytes "from_mixnet" ≤
        (halves.client.members.map fun member => member.state.wallet.consumed.length).sum ∧
      client.bytes "from_mixnet" ≤ (halves.server.members.map fun member =>
        member.state.upstream.elim 0 fun upstream => upstream.consumed.length).sum) ∧
    ((∀ member ∈ halves.client.members, member.state.phase = .returned ∧ member.pending = []) →
      server.bytes "from_mixnet" ≤
        client.bytes "to_mixnet" + COPY_BUFFER * client.establishment.length) ∧
    ((∀ member ∈ halves.server.members, member.state.phase = .returned ∧ member.pending = []) →
      client.bytes "from_mixnet" ≤
        server.bytes "to_mixnet" + COPY_BUFFER * server.upstreamConnections) := by
  have h := halves_reached hr
  obtain ⟨carried, hclient⟩ := h.client
  obtain ⟨served, hserver⟩ := h.server
  have hconnections := Serving.reads hserver ServerMetrics.upstreamConnections
    ServerUpdate.connected rfl fun update metrics => (update.apply_charged metrics).1
  have hserved (direction : String) := Serving.reads hserver
    (fun metrics => metrics.bytes direction) (ServerUpdate.carried direction) rfl
    fun update metrics => (update.apply_charged metrics).2 direction
  have hestablished := Carriers.reads hclient (fun metrics => metrics.establishment.length)
    ClientUpdate.established rfl fun update streaks =>
      (ClientUpdate.apply_charged update streaks).2.2.2.2.1
  have hcarried (direction : String) := Carriers.reads hclient
    (fun metrics => metrics.bytes direction) (ClientUpdate.carried direction) rfl
    fun update streaks => (ClientUpdate.apply_charged update streaks).2.2.2.2.2 direction
  have hbilled {member : Machine.Member Serve ServerUpdate}
      (hmember : member ∈ halves.server.members) := Serving.billed hserver hmember
  -- Only a task with an upstream has counted a connection or any bytes.
  have hnone (member : Machine.Member Serve ServerUpdate) (hmember : member ∈ halves.server.members)
      (hupstream : member.state.upstream = none) :
      (member.log.map ServerUpdate.connected).sum = 0 ∧
        (member.log.map (ServerUpdate.carried "from_mixnet")).sum = 0 := by
    have hconnected := (hbilled hmember).connected
    have hbytes := (hbilled hmember).carried
    rw [hupstream] at hconnected hbytes
    have hlog := sum_log_le ServerUpdate.connected member.log member.pending
    have hbytes := (sum_log_le (ServerUpdate.carried "from_mixnet") member.log _).trans hbytes
    exact ⟨Nat.le_zero.mp (hlog.trans hconnected.le), Nat.le_zero.mp hbytes⟩
  have hcopied (member : Machine.Member Serve ServerUpdate)
      (hmember : member ∈ halves.server.members) (upstream : Duplex)
      (hupstream : member.state.upstream = some upstream) :
      (member.log.map (ServerUpdate.carried "from_mixnet")).sum ≤ upstream.accepted.length := by
    have hbytes := (hbilled hmember).carried
    rw [hupstream] at hbytes
    exact (sum_log_le _ _ _).trans hbytes
  have hreturned (carrier : Machine.Member Carry ClientUpdate)
      (hcarrier : carrier ∈ halves.client.members) :
      charge (ClientUpdate.carried "from_mixnet") carrier.log ≤
        carrier.state.wallet.accepted.length := by
    have hlog := charge_prefix (ClientUpdate.carried "from_mixnet")
      (List.prefix_append carrier.log carrier.pending)
    exact hlog.trans (Carriers.scripted hclient hcarrier).carries.2
  refine ⟨⟨?_, ?_, ?_⟩, fun hrests => ?_, fun hrests => ?_⟩
  · rw [hconnections, hestablished]
    refine h.tasks_le hprobe _ _ (fun member hmember hupstream =>
      (hnone member hmember hupstream).1) ?_
    intro member hmember carrier hcarrier upstream hupstream hjoined
    obtain ⟨stream, hmore, -⟩ := hjoined.sent
    have hone := (hbilled hmember).connected
    rw [hupstream] at hone
    exact ((sum_log_le _ _ _).trans hone.le).trans
      (Carriers.established hprobe hclient hcarrier hmore)
  · rw [hserved]
    refine h.tasks_le hprobe _ _ (fun member hmember hupstream =>
      (hnone member hmember hupstream).2) ?_
    intro member hmember carrier hcarrier upstream hupstream hjoined
    exact (hcopied member hmember upstream hupstream).trans hjoined.request.length_le
  · rw [hcarried]
    refine h.connections_le hprobe _ _ hreturned ?_
    intro member hmember carrier upstream hupstream hjoined
    rw [hupstream]
    exact hjoined.answer.length_le
  · rw [hserved, hcarried, hestablished, ← List.sum_map_mul_left, ← List.sum_map_add]
    refine h.tasks_le hprobe _ _ (fun member hmember hupstream =>
      (hnone member hmember hupstream).2) ?_
    intro member hmember carrier hcarrier upstream hupstream hjoined
    obtain ⟨hphase, hpending⟩ := hrests carrier hcarrier
    obtain ⟨stream, -, hsent⟩ := hjoined.sent
    have hcounted := Carriers.sent hprobe hclient hcarrier
    rw [hpending, List.append_nil] at hcounted
    simp only [Carry.Sent, hphase] at hcounted
    have hbytes := hcopied member hmember upstream hupstream
    have hbound := hcounted stream
    omega
  · rw [hserved, hcarried, hconnections, ← List.sum_map_mul_left, ← List.sum_map_add]
    refine h.connections_le hprobe _ _ hreturned ?_
    intro member hmember carrier upstream hupstream hjoined
    obtain ⟨hphase, hpending⟩ := hrests member hmember
    have hcounted := (hbilled hmember).returned hphase
    rw [hpending, List.append_nil] at hcounted
    have hsaid := hjoined.returned
    omega

-- The upstream hangs up, and then the stream does.
def hungUp : List HalvesEvent :=
  [.connect] ++ exchange 0 0 80 ++ [.serve (0, 0) (.splice (.outbound (.read []))),
    .serveCounts 0, .serveCounts 0, .serveCounts 0, .serveCounts 0,
    .carry 0 (.splice (.inbound (.read []))),
    .carryCounts 0, .carryCounts 0, .carryCounts 0, .carryCounts 0]

theorem hung_up_agree : ∃ halves : Halves,
    (Halves.step probedOnce servedOnce).run {} hungUp = some halves ∧
    halves.client.shared.metrics.bytes "from_mixnet" = 2 ∧
    halves.server.shared.bytes "to_mixnet" = 2 ∧
    halves.client.shared.metrics.bytes "from_mixnet" ≤ halves.server.shared.bytes "to_mixnet" +
      COPY_BUFFER * halves.server.shared.upstreamConnections := by
  obtain ⟨halves, hr, hseen⟩ : ∃ halves,
      (Halves.step probedOnce servedOnce).run {} hungUp = some halves ∧
      (halves.client.shared.metrics.bytes "from_mixnet",
        halves.server.shared.bytes "to_mixnet",
        halves.server.members.map fun member => (member.state.phase, member.pending)) =
        (2, 2, [(.returned, [])]) :=
    Option.map_eq_some_iff.mp (by decide +kernel)
  obtain ⟨hreceived, hrest⟩ := Prod.mk.inj hseen
  obtain ⟨hreturned, hmembers⟩ := Prod.mk.inj hrest
  refine ⟨halves, hr, hreceived, hreturned, ?_⟩
  refine (halves_agree probedOnce servedOnce (by decide) hungUp halves hr).2.2 ?_
  intro member hmember
  have hsame := List.mem_map_of_mem hmember (f := fun member : Machine.Member Serve ServerUpdate =>
    (member.state.phase, member.pending))
  rw [hmembers, List.mem_singleton] at hsame
  exact Prod.mk.inj hsame

end LwdMixnet
