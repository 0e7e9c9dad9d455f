import LwdMixnet.Carry.Charges
import LwdMixnet.Serve.Carried
import Mathlib.Algebra.BigOperators.Ring.List

namespace LwdMixnet

-- The updates a task has made, by where it stands.
def Carry.Scripted (carrying : Carrying) (made : List ClientUpdate) (carry : Carry) : Prop :=
  match carry.phase with
  | .accepted => made = [] ∧ carry.wallet = {}
  | .dialling dial =>
      made = [.connectionAccepted] ∧ carry.wallet = {} ∧ dial.Budgeted carrying.dial
  | .dialled (.ok dialled) =>
      made = [.connectionAccepted] ∧ carry.wallet = {} ∧ Billed carrying.dial dialled.rounds
  | .dialled (.error gaveUp) =>
      made = [.connectionAccepted] ∧ carry.wallet = {} ∧ Billed carrying.dial gaveUp.rounds
  | .splicing _ splice => ∃ rounds waited outcome flows, Billed carrying.dial rounds ∧
      splice.Copies flows ∧ carry.wallet = flows.local ∧
      made = .connectionAccepted ::
        (dialUpdates rounds ++ [.establishment waited, .fold outcome])
  | .returned => ∃ rounds tail, Billed carrying.dial rounds ∧ Ending carry.wallet tail ∧
      .dropInFlight ∈ tail ∧ made = .connectionAccepted :: (dialUpdates rounds ++ tail)

section

variable {carrying : Carrying} {carry next : Carry} {made done : List ClientUpdate}

theorem Splice.Copies.carried {splice : Splice} {flows : Flows} {transfer : Transfer}
    {reason : Ended} (h : splice.Copies flows) (hended : splice.ended = some (transfer, reason)) :
    transfer.toRemote ≤ flows.local.consumed.length ∧
      transfer.fromRemote ≤ flows.local.accepted.length ∧
      flows.local.accepted.length ≤ transfer.fromRemote + COPY_BUFFER := by
  obtain ⟨rfl, -⟩ := h.reported transfer reason hended
  obtain ⟨haligned, hsent, -⟩ := (h.ways .outbound).counted
  obtain ⟨-, hgiven, hrest⟩ := (h.ways .inbound).counted
  exact ⟨hsent.trans haligned.length_le, hgiven, hrest⟩

theorem Carry.Scripted.step {event : CarryEvent} (h : carry.Scripted carrying made)
    (hown : Carry.own carrying carry event = some next) :
    next.Scripted carrying (made ++ carry.emits carrying event) := by
  obtain ⟨after, hs⟩ := Carry.own_step hown
  have hscript := h
  unfold Carry.Scripted at hscript
  obtain ⟨hphase, rfl, rfl⟩ | ⟨dial, waited, resumed, hphase, rfl, hd, hwallet, -, hnext⟩ |
    ⟨dialled, hphase, rfl, rfl⟩ | ⟨gaveUp, hphase, rfl, rfl⟩ |
    ⟨stream, splice, waited, resumed, hphase, rfl, hsplice, hwallet, -, hnext⟩ |
    ⟨time, rfl, rfl⟩ := Carry.step_cases hs
  · have he : carry.emits carrying .start = [.connectionAccepted] := by
      simp [Carry.emits, hphase]
    simp only [hphase] at hscript
    obtain ⟨rfl, hnothing⟩ := hscript
    rw [he]
    exact ⟨rfl, hnothing, Dial.start_budgeted carrying.dial⟩
  · have he : carry.emits carrying (.dial waited) = [] := by simp [Carry.emits, hphase]
    simp only [hphase] at hscript
    obtain ⟨rfl, hnothing, hbudgeted⟩ := hscript
    have hbudgeted := hbudgeted.step hd
    have hnothing : next.wallet = {} := hwallet.trans hnothing
    rw [he, List.append_nil]
    unfold Carry.Scripted
    obtain ⟨result, hreturned, hnext⟩ | hnext := hnext
    · have hbilled := hbudgeted.billed
      simp only [Dial.Budgeted, hreturned] at hbudgeted
      cases result with
      | ok dialled =>
          simp only [hnext]
          rw [← hbudgeted.1] at hbilled
          exact ⟨trivial, hnothing, hbilled⟩
      | error gaveUp =>
          simp only [hnext]
          rw [← hbudgeted.1] at hbilled
          exact ⟨trivial, hnothing, hbilled⟩
    · simp only [hnext]
      exact ⟨trivial, hnothing, hbudgeted⟩
  · have he : carry.emits carrying .fold = dialUpdates dialled.rounds ++
        [.establishment carry.waited, .fold (carrying.dial.outcome (.ok dialled))] := by
      simp [Carry.emits, hphase]
    simp only [hphase] at hscript
    obtain ⟨rfl, hnothing, hbilled⟩ := hscript
    rw [he]
    exact ⟨_, _, _, .start, hbilled, Splice.start_copies _, hnothing, rfl⟩
  · have he : carry.emits carrying .fold = dialUpdates gaveUp.rounds ++
        [.unestablished, .fold (carrying.dial.outcome (.error gaveUp)), .dropInFlight] := by
      simp [Carry.emits, hphase]
    simp only [hphase] at hscript
    obtain ⟨rfl, hnothing, hbilled⟩ := hscript
    rw [he]
    exact ⟨_, _, hbilled, .gaveUp _ hnothing, by simp, rfl⟩
  · have hstep := hs
    simp only [Carry.step, hphase, hsplice] at hstep
    simp only [hphase] at hscript
    obtain ⟨rounds, since, outcome, flows, hbilled, hcopies, hlocal, rfl⟩ := hscript
    have hcopies := hcopies.step hsplice
    have hlocal : next.wallet = (flows.move splice waited).local := by
      rw [hwallet, hlocal, Flows.local_move]
    cases hended : resumed.ended with
    | none =>
        have he : carry.emits carrying (.splice waited) = [] := by
          simp [Carry.emits, hphase, hsplice, hended]
        have hgoes : next.phase = .splicing stream resumed := by
          rw [hended] at hstep
          obtain ⟨-, rfl⟩ := Prod.mk.inj (Option.some.inj hstep)
          rfl
        rw [he, List.append_nil]
        simp only [Carry.Scripted, hgoes]
        exact ⟨rounds, since, outcome, _, hbilled, hcopies, hlocal, rfl⟩
    | some verdict =>
        obtain ⟨transfer, ended⟩ := verdict
        have he : carry.emits carrying (.splice waited) =
            clientFinished transfer ended ++ [.dropInFlight] := by
          simp [Carry.emits, hphase, hsplice, hended]
        have hreturned : next.phase = .returned := by
          rw [hended] at hstep
          obtain ⟨-, rfl⟩ := Prod.mk.inj (Option.some.inj hstep)
          rfl
        obtain ⟨hread, hgiven, hrest⟩ := hcopies.carried hended
        rw [← hlocal] at hread hgiven hrest
        rw [he]
        simp only [Carry.Scripted, hreturned]
        exact ⟨rounds, _, hbilled, .carried since outcome transfer ended hread hgiven hrest,
          by simp, by simp⟩
  · have he : carry.emits carrying (.elapse time) = [] := by
      cases hphase : carry.phase <;> simp [Carry.emits, hphase]
    rw [he, List.append_nil]
    exact h

theorem carry_scripted {events : List CarryEvent}
    (hr : (Carry.own carrying).run {} events = some carry) :
    carry.Scripted carrying (Carry.made carrying events) := by
  refine Machine.run_history (fun events carry =>
    Carry.Scripted carrying (Carry.made carrying events) carry) ?_ ?_ hr
  · exact ⟨rfl, rfl⟩
  intro events carry event next hr h hown
  have hmade : Carry.made carrying (events ++ [event]) =
      Carry.made carrying events ++ carry.emits carrying event :=
    Machine.views_concat _ (Carry.emits carrying) hr hown
  rw [hmade]
  exact h.step hown

theorem Carry.Scripted.charged (h : carry.Scripted carrying made) (hdone : done <+: made) :
    Charged carrying.dial done := by
  unfold Carry.Scripted at h
  split at h
  · obtain ⟨rfl, -⟩ := h
    obtain rfl := List.prefix_nil.mp hdone
    exact Charged.nothing
  · obtain ⟨rfl, -⟩ := h
    exact Charged.begun hdone
  · obtain ⟨rfl, -⟩ := h
    exact Charged.begun hdone
  · obtain ⟨rfl, -⟩ := h
    exact Charged.begun hdone
  · obtain ⟨rounds, waited, outcome, flows, hbilled, -, -, rfl⟩ := h
    exact (Ending.carrying waited outcome : Ending carry.wallet _).charged hbilled hdone
  · obtain ⟨rounds, tail, hbilled, hending, -, rfl⟩ := h
    exact hending.charged hbilled hdone

theorem Carry.Scripted.carries (h : carry.Scripted carrying made) :
    charge (ClientUpdate.carried "to_mixnet") made ≤ carry.wallet.consumed.length ∧
      charge (ClientUpdate.carried "from_mixnet") made ≤ carry.wallet.accepted.length := by
  have hdial (direction : String) (rounds : List Round) :
      charge (ClientUpdate.carried direction) (dialUpdates rounds) = 0 :=
    charge_silent _ rfl (fun _ => rfl) (fun _ => rfl) rounds
  unfold Carry.Scripted at h
  split at h
  · obtain ⟨rfl, -⟩ := h
    exact ⟨Nat.zero_le _, Nat.zero_le _⟩
  · obtain ⟨rfl, -⟩ := h
    exact ⟨Nat.zero_le _, Nat.zero_le _⟩
  · obtain ⟨rfl, -⟩ := h
    exact ⟨Nat.zero_le _, Nat.zero_le _⟩
  · obtain ⟨rfl, -⟩ := h
    exact ⟨Nat.zero_le _, Nat.zero_le _⟩
  · obtain ⟨rounds, waited, outcome, flows, -, -, -, rfl⟩ := h
    simp [hdial, ClientUpdate.carried]
  · obtain ⟨rounds, tail, -, hending, -, rfl⟩ := h
    simpa [hdial, ClientUpdate.carried] using hending.carries

theorem Carry.Scripted.rests (h : carry.Scripted carrying made) (hphase : carry.phase = .returned) :
    carry.wallet.accepted.length ≤ charge (ClientUpdate.carried "from_mixnet") made +
      COPY_BUFFER * charge ClientUpdate.accepted made := by
  simp only [Carry.Scripted, hphase] at h
  obtain ⟨rounds, tail, -, hending, hdropped, rfl⟩ := h
  have hrests := hending.rests hdropped
  have hbuffer := Nat.le_mul_of_pos_right COPY_BUFFER (charge_accepted (dialUpdates rounds ++ tail))
  simp only [charge_cons, charge_append] at hbuffer ⊢
  omega

end

section

variable {carrying : Carrying} {events : List (Machine.CrewEvent CarryEvent)} {carriers : Carriers}

theorem Carriers.scripted (hr : (Carriers.step carrying).run .start events = some carriers)
    {member : Machine.Member Carry ClientUpdate} (hmember : member ∈ carriers.members) :
    member.state.Scripted carrying (member.log ++ member.pending) := by
  obtain ⟨id, hid⟩ := List.mem_iff_getElem?.mp hmember
  obtain ⟨hrun, hlog⟩ := Machine.crew_member hr hid
  rw [hlog]
  exact carry_scripted hrun

-- A counter reads what the tasks' updates have come to.
theorem Carriers.reads (hr : (Carriers.step carrying).run .start events = some carriers)
    (reading : ClientMetrics → Nat) (weight : ClientUpdate → Nat) (hzero : reading {} = 0)
    (happly : ∀ update (streaks : Streaks),
      reading (update.apply streaks).metrics = reading streaks.metrics + weight update) :
    reading carriers.shared.metrics =
      (carriers.members.map fun member => charge weight member.log).sum := by
  have htally := Machine.crew_tally (fun streaks : Streaks => reading streaks.metrics) weight
    happly hr
  rw [htally]
  change reading {} + _ = _
  rw [hzero, Nat.zero_add]
  rfl

end

-- What one update adds to the counters of a dial, and of what was carried.
theorem ClientUpdate.apply_charged (update : ClientUpdate) (streaks : Streaks) :
    (update.apply streaks).metrics.rounds = streaks.metrics.rounds + update.roundsRun ∧
    (update.apply streaks).metrics.streamsOpened =
      streaks.metrics.streamsOpened + update.opened ∧
    (update.apply streaks).metrics.streamsDiscarded "refused_open" =
      streaks.metrics.streamsDiscarded "refused_open" + update.refused ∧
    (update.apply streaks).metrics.streamsDiscarded.total probeReasons =
      streaks.metrics.streamsDiscarded.total probeReasons + update.unanswered ∧
    (update.apply streaks).metrics.establishment.length =
      streaks.metrics.establishment.length + update.established ∧
    ∀ direction, (update.apply streaks).metrics.bytes direction =
      streaks.metrics.bytes direction + update.carried direction := by
  cases update with
  | fold outcome =>
      simp only [ClientUpdate.apply, Streaks.fold_metrics]
      exact ⟨rfl, rfl, rfl, rfl, rfl, fun _ => rfl⟩
  | streamDiscarded reason =>
      refine ⟨rfl, rfl, ?_, ?_, rfl, fun _ => rfl⟩
      · simp [ClientUpdate.apply, Streaks.report, CounterVec.incBy_apply, ClientUpdate.refused,
          eq_comm]
      · simp [ClientUpdate.apply, Streaks.report, CounterVec.total_incBy, ClientUpdate.unanswered]
  | establishment waited =>
      refine ⟨rfl, rfl, rfl, rfl, ?_, fun _ => rfl⟩
      simp [ClientUpdate.apply, Streaks.report, ClientUpdate.established]
  | bytes direction count =>
      refine ⟨rfl, rfl, rfl, rfl, rfl, fun other => ?_⟩
      simp [ClientUpdate.apply, Streaks.report, CounterVec.incBy_apply, ClientUpdate.carried]
  | connectionAccepted | dropInFlight | rounds _ | streamsOpened _ | firstRoundFailure
  | unestablished | ended _ => exact ⟨rfl, rfl, rfl, rfl, rfl, fun _ => rfl⟩

-- At every instant, whatever the connections are in the middle of, the counters
-- of their dials are within the budget of the connections that were counted, a
-- stream is counted before what became of it and a connection before how long it
-- took, and no more bytes are counted than were read from the wallets or given
-- to them. Once all have returned, at most one buffer of each is uncounted.
theorem exported_ledger (carrying : Carrying) (events : List (Machine.CrewEvent CarryEvent))
    (carriers : Carriers) (hr : (Carriers.step carrying).run .start events = some carriers) :
    let metrics := carriers.shared.metrics
    (metrics.rounds ≤ carrying.dial.mostRounds * metrics.connections ∧
      metrics.streamsOpened + metrics.streamsDiscarded "refused_open" ≤
        carrying.dial.attempts * metrics.connections ∧
      metrics.streamsDiscarded.total probeReasons ≤ metrics.streamsOpened) ∧
    (metrics.ended.total endedReasons ≤ metrics.establishment.length ∧
      metrics.establishment.length + metrics.unestablished ≤ metrics.connections) ∧
    (metrics.bytes "to_mixnet" ≤
        (carriers.members.map fun member => member.state.wallet.consumed.length).sum ∧
      metrics.bytes "from_mixnet" ≤
        (carriers.members.map fun member => member.state.wallet.accepted.length).sum) ∧
    ((∀ member ∈ carriers.members, member.state.phase = .returned ∧ member.pending = []) →
      (carriers.members.map fun member => member.state.wallet.accepted.length).sum ≤
        metrics.bytes "from_mixnet" + COPY_BUFFER * metrics.connections) := by
  have hconnections := Carriers.reads hr ClientMetrics.connections ClientUpdate.accepted rfl
    fun update streaks => (ClientUpdate.apply_counted update streaks).1
  have hgaveUp := Carriers.reads hr ClientMetrics.unestablished ClientUpdate.gaveUp rfl
    fun update streaks => (ClientUpdate.apply_counted update streaks).2.2.1
  have hfinished := Carriers.reads hr (fun metrics => metrics.ended.total endedReasons)
    ClientUpdate.finished rfl fun update streaks =>
      (ClientUpdate.apply_counted update streaks).2.2.2.1
  have hrounds := Carriers.reads hr ClientMetrics.rounds ClientUpdate.roundsRun rfl
    fun update streaks => (ClientUpdate.apply_charged update streaks).1
  have hopened := Carriers.reads hr ClientMetrics.streamsOpened ClientUpdate.opened rfl
    fun update streaks => (ClientUpdate.apply_charged update streaks).2.1
  have hrefused := Carriers.reads hr (fun metrics => metrics.streamsDiscarded "refused_open")
    ClientUpdate.refused rfl fun update streaks =>
      (ClientUpdate.apply_charged update streaks).2.2.1
  have hunanswered := Carriers.reads hr
    (fun metrics => metrics.streamsDiscarded.total probeReasons) ClientUpdate.unanswered rfl
    fun update streaks => (ClientUpdate.apply_charged update streaks).2.2.2.1
  have hestablished := Carriers.reads hr (fun metrics => metrics.establishment.length)
    ClientUpdate.established rfl fun update streaks =>
      (ClientUpdate.apply_charged update streaks).2.2.2.2.1
  have hbytes (direction : String) := Carriers.reads hr (fun metrics => metrics.bytes direction)
    (ClientUpdate.carried direction) rfl fun update streaks =>
      (ClientUpdate.apply_charged update streaks).2.2.2.2.2 direction
  have hcharged {member : Machine.Member Carry ClientUpdate}
      (hmember : member ∈ carriers.members) : Charged carrying.dial member.log :=
    (Carriers.scripted hr hmember).charged (List.prefix_append _ _)
  have hcarries (member : Machine.Member Carry ClientUpdate) (direction : String) :
      charge (ClientUpdate.carried direction) member.log ≤
        charge (ClientUpdate.carried direction) (member.log ++ member.pending) :=
    charge_prefix _ (List.prefix_append _ _)
  refine ⟨⟨?_, ?_, ?_⟩, ⟨?_, ?_⟩, ⟨?_, ?_⟩, fun hrests => ?_⟩
  · rw [hrounds, hconnections, ← List.sum_map_mul_left]
    exact List.sum_le_sum fun member hmember => (hcharged hmember).rounds
  · rw [hopened, hrefused, hconnections, ← List.sum_map_add, ← List.sum_map_mul_left]
    exact List.sum_le_sum fun member hmember => (hcharged hmember).attempts
  · rw [hunanswered, hopened]
    exact List.sum_le_sum fun member hmember => (hcharged hmember).unanswered
  · rw [hfinished, hestablished]
    exact List.sum_le_sum fun member hmember => (hcharged hmember).finished
  · rw [hestablished, hgaveUp, hconnections, ← List.sum_map_add]
    exact List.sum_le_sum fun member hmember => (hcharged hmember).established
  · rw [hbytes]
    exact List.sum_le_sum fun member hmember =>
      (hcarries member _).trans (Carriers.scripted hr hmember).carries.1
  · rw [hbytes]
    exact List.sum_le_sum fun member hmember =>
      (hcarries member _).trans (Carriers.scripted hr hmember).carries.2
  · rw [hbytes, hconnections, ← List.sum_map_mul_left, ← List.sum_map_add]
    refine List.sum_le_sum fun member hmember => ?_
    obtain ⟨hphase, hpending⟩ := hrests member hmember
    have hscripted := Carriers.scripted hr hmember
    rw [hpending, List.append_nil] at hscripted
    exact hscripted.rests hphase

-- A connection that is carried without a probe: one byte there, two back, and the
-- far side hangs up.
def oneAnswered : List (Machine.CrewEvent CarryEvent) :=
  let own (event : CarryEvent) : Machine.CrewEvent CarryEvent := .step 0 event
  [.join, own .start, .update 0, own (.dial .opened), own (.dial (.polled 0 3)),
    own (.dial (.wait 0 (.io (.wrote 14)))), own (.dial (.wait 0 (.io .flushed))), own .fold,
    .update 0, .update 0, .update 0, .update 0, own (.splice (.outbound (.read [80]))),
    own (.splice (.outbound (.wrote 1))), own (.splice (.outbound .flushed)),
    own (.splice (.inbound (.read [65, 66]))), own (.splice (.inbound (.wrote 2))),
    own (.splice (.inbound .flushed)), own (.splice (.inbound (.read []))),
    .update 0, .update 0, .update 0, .update 0]

theorem one_answered_ledger : ∃ carriers : Carriers,
    (Carriers.step ⟨⟨none⟩, {}⟩).run .start oneAnswered = some carriers ∧
    carriers.shared.metrics.rounds = 1 ∧ carriers.shared.metrics.bytes "from_mixnet" = 2 ∧
    (carriers.members.map fun member => member.state.wallet.accepted.length).sum ≤
      carriers.shared.metrics.bytes "from_mixnet" +
        COPY_BUFFER * carriers.shared.metrics.connections := by
  obtain ⟨carriers, hr, hseen⟩ : ∃ carriers : Carriers,
      (Carriers.step ⟨⟨none⟩, {}⟩).run .start oneAnswered = some carriers ∧
      (carriers.shared.metrics.rounds, carriers.shared.metrics.bytes "from_mixnet",
        carriers.members.map fun member => (member.state.phase, member.pending)) =
        (1, 2, [(.returned, [])]) :=
    Option.map_eq_some_iff.mp (by decide +kernel)
  obtain ⟨hrounds, hrest⟩ := Prod.mk.inj hseen
  obtain ⟨hbytes, hmembers⟩ := Prod.mk.inj hrest
  refine ⟨carriers, hr, hrounds, hbytes, ?_⟩
  refine (exported_ledger _ oneAnswered carriers hr).2.2.2 fun member hmember => ?_
  have hsame := List.mem_map_of_mem hmember (f := fun member : Machine.Member Carry ClientUpdate =>
    (member.state.phase, member.pending))
  rw [hmembers, List.mem_singleton] at hsame
  exact Prod.mk.inj hsame

end LwdMixnet
