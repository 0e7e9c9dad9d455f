import LwdMixnet.Serve.Accounts
import LwdMixnet.Serve.Introduced
import LwdMixnet.Splice.Transfer

namespace LwdMixnet

-- The two ends of a splice as its flows leave them.
def Flows.local (flows : Flows) : Duplex := ⟨(flows .outbound).read, (flows .inbound).accepted⟩

def Flows.remote (flows : Flows) : Duplex := ⟨(flows .inbound).read, (flows .outbound).accepted⟩

theorem Flows.local_move (flows : Flows) (splice : Splice) (event : SpliceEvent) :
    (flows.move splice event).local = splice.localEnd flows.local event := by
  cases event <;> simp [Flows.local, Flows.move, Flow.move, Splice.localEnd, Duplex.move]

theorem Flows.remote_move (flows : Flows) (splice : Splice) (event : SpliceEvent) :
    (flows.move splice event).remote = splice.remoteEnd flows.remote event := by
  cases event <;> simp [Flows.remote, Flows.move, Flow.move, Splice.remoteEnd, Duplex.move]

-- The first request went to the upstream outside of the splice, which has
-- copied and counted the rest.
def Serve.Splices (serve : Serve) (splice : Splice) (opening : Bytes) (flows : Flows) : Prop :=
  opening ≠ [] ∧ splice.Copies flows ∧
    serve.upstream = some (flows.local.after ⟨[], opening⟩) ∧
    serve.Relays (opening ++ flows.remote.consumed) flows.remote.accepted

theorem Serve.Splices.step {serve next : Serve} {splice resumed : Splice} {event : SpliceEvent}
    {opening : Bytes} {flows : Flows} (h : serve.Splices splice opening flows)
    (hs : splice.step event = some resumed)
    (hstream : next.stream = splice.remoteEnd serve.stream event)
    (hupstream : next.upstream = serve.upstream.map (splice.localEnd · event)) :
    next.Splices resumed opening (flows.move splice event) := by
  obtain ⟨hopening, hcopies, hsome, wire, header, hlen, hdecode, hsame⟩ := h
  refine ⟨hopening, hcopies.step hs, ?_, wire, header, hlen, hdecode, ?_⟩
  · rw [hupstream, hsome, Option.map_some, Splice.localEnd_after, Flows.local_move]
  · have hafter : serve.stream = flows.remote.after ⟨wire ++ opening, header.greeting⟩ := by
      simp [hsame, Duplex.after, Duplex.move]
    rw [hstream, hafter, Splice.remoteEnd_after, Flows.remote_move]
    simp [Duplex.after, Duplex.move]

def Serve.Spliced (serve : Serve) : Prop :=
  ∀ splice, serve.phase = .splicing splice → ∃ opening flows, serve.Splices splice opening flows

theorem serve_spliced {settings : ServeSettings} {events : List ServeEvent} {serve : Serve}
    (hr : (Serve.own settings).run (.start settings) events = some serve) : serve.Spliced := by
  refine Machine.run_history (fun _ serve => Serve.Spliced serve) (fun _ h => by cases h) ?_ hr
  intro events serve event next hr h hs splice hsplicing
  have hsound := serve_sound hr
  obtain ⟨after, hs⟩ := Serve.own_step hs
  obtain ⟨accept, waited, resumed, hphase, rfl, ha, -, hupstream, hstream, hnext⟩ |
    ⟨deadline, opening, hphase, rfl, hopening, rfl⟩ | ⟨opening, hphase, rfl, rfl⟩ |
    ⟨rest, count, hphase, rfl, -, hstream, hupstream, hnext⟩ |
    ⟨before, waited, resumed, hphase, rfl, hsplice, -, hstream, hupstream, hnext⟩ |
    ⟨rfl, -⟩ | ⟨time, rfl, -, rfl⟩ := Serve.step_cases hs
  · obtain ⟨header, -, hnext⟩ | ⟨error, -, hnext⟩ | ⟨-, hnext⟩ := hnext
    · simp [hnext] at hsplicing
    · simp [hnext] at hsplicing
    · simp [hnext] at hsplicing
  · cases hsplicing
  · cases hsplicing
  · obtain ⟨left, -, hnext⟩ | ⟨hw, hnext⟩ := hnext
    · simp [hnext] at hsplicing
    · obtain rfl : Splice.start settings.watchdog = splice := by simpa [hnext] using hsplicing
      simp only [Serve.Sound, hphase] at hsound
      obtain ⟨written, hsome, hrest, hrelays⟩ := hsound
      refine ⟨written ++ rest, .start, by simp [hrest], Splice.start_copies _, ?_, ?_⟩
      · simp [hupstream, hsome, Flows.local, Flows.start, Duplex.move, Duplex.after,
          writeAll_complete hw]
      · simpa [Flows.remote, Flows.start] using hrelays.congr hstream
  · obtain hnext | hnext := hnext
    · obtain rfl : resumed = splice := by simpa [hnext] using hsplicing
      obtain ⟨opening, flows, hsplices⟩ := h before hphase
      exact ⟨opening, _, hsplices.step hsplice hstream hupstream⟩
    · simp [hnext] at hsplicing
  · cases hsplicing
  · exact h splice hsplicing

-- Only the end of a splice touches the byte counters.
theorem Serve.bytes_kept {settings : ServeSettings} {metrics after : ServerMetrics}
    {serve next : Serve} {event : ServeEvent}
    (hs : Serve.step settings (metrics, serve) event = some (after, next))
    (hnext : next.phase ≠ .returned) : after.bytes = metrics.bytes := by
  have hown := Serve.step_own hs
  rw [Serve.step_emits, hown, Option.map_some] at hs
  cases hs
  obtain ⟨he, -⟩ | ⟨reason, he, -⟩ | ⟨he | he, -⟩ | ⟨he, -⟩ | ⟨he, -⟩ |
    ⟨transfer, ended, -, -, ⟨-, hreturned⟩, -⟩ | ⟨he, -⟩ := Serve.emits_cases hown
  · rw [he]; rfl
  · rw [he]; rfl
  · rw [he]; rfl
  · rw [he]; rfl
  · rw [he]; rfl
  · rw [he]; rfl
  · exact absurd hreturned hnext
  · rw [he]; rfl

theorem serve_bytes {settings : ServeSettings} {metrics after : ServerMetrics}
    {events : List ServeEvent} {serve : Serve}
    (hr : (Serve.step settings).run (metrics, .start settings) events = some (after, serve))
    (hphase : serve.phase ≠ .returned) : after.bytes = metrics.bytes := by
  refine Machine.run_invariant (fun state : ServerMetrics × Serve =>
    state.2.phase ≠ .returned → state.1.bytes = metrics.bytes) ?_ (fun _ => rfl) hr hphase
  rintro ⟨before, serve⟩ event ⟨after, next⟩ h hs hnext
  refine (Serve.bytes_kept hs hnext).trans (h fun hreturned => hnext ?_)
  exact Serve.returned_stays hs hreturned

theorem Serve.run_own {settings : ServeSettings} {metrics after : ServerMetrics}
    {events : List ServeEvent} {serve : Serve}
    (hr : (Serve.step settings).run (metrics, .start settings) events = some (after, serve)) :
    (Serve.own settings).run (.start settings) events = some serve := by
  refine Machine.run_history (fun events (state : ServerMetrics × Serve) =>
    (Serve.own settings).run (.start settings) events = some state.2) rfl ?_ hr
  rintro events ⟨before, serve⟩ event ⟨after, next⟩ - h hs
  exact Machine.run_snoc h (Serve.step_own hs)

theorem recordTransfer_apply (bytes : CounterVec) (transfer : Transfer) :
    recordTransfer bytes transfer "to_mixnet" = bytes "to_mixnet" + transfer.toRemote ∧
    recordTransfer bytes transfer "from_mixnet" = bytes "from_mixnet" + transfer.fromRemote := by
  simp [recordTransfer, CounterVec.incBy_apply]

-- The step that ends a splice.
theorem Serve.finishes {settings : ServeSettings} {metrics after : ServerMetrics}
    {serve next : Serve} {event : SpliceEvent}
    (hs : Serve.step settings (metrics, serve) (.splice event) = some (after, next))
    (hreturned : next.phase = .returned) : ∃ splice resumed transfer ended,
    serve.phase = .splicing splice ∧ splice.step event = some resumed ∧
    resumed.ended = some (transfer, ended) ∧
    after.bytes = recordTransfer metrics.bytes transfer ∧
    next.stream = splice.remoteEnd serve.stream event ∧
    next.upstream = serve.upstream.map (splice.localEnd · event) := by
  cases hphase : serve.phase with
  | accepting _ | awaitingRequest _ | connecting _ | writing _ | returned =>
      simp [Serve.step, hphase] at hs
  | splicing splice =>
      have hstream : serve.stream.move (serve.taken (.splice event))
          (serve.given (.splice event)) = splice.remoteEnd serve.stream event := by
        cases event <;> simp [Serve.taken, Serve.given, hphase, Splice.remoteEnd, Duplex.move]
      simp only [Serve.step, hphase, hstream] at hs
      cases hstep : splice.step event with
      | none => simp [hstep] at hs
      | some resumed =>
          simp only [hstep] at hs
          cases hended : resumed.ended with
          | none =>
              rw [hended] at hs
              cases hs
              cases hreturned
          | some verdict =>
              rw [hended] at hs
              cases hs
              exact ⟨splice, resumed, verdict.1, verdict.2, rfl, hstep, hended, rfl, rfl, rfl⟩

-- Both pumps are in a read, so each write that was begun has been completed.
def Splice.Resting (splice : Splice) : Prop :=
  ∀ way, splice.pump way = .reading

-- A read that ends the pump moves nothing.
theorem Pump.reading_ends {io : IoEvent} {pump : Pump} {result : Except IoError Unit}
    (hs : Pump.reading.step io = some pump) (hresult : pump.result = some result) (flow : Flow) :
    flow.move .reading io = flow ∧ Pump.reading.recorded io = none := by
  obtain ⟨error, rfl, rfl⟩ | ⟨-, rfl, rfl⟩ | ⟨chunk, -, rfl, -, -, rfl⟩ |
    ⟨_, _, _, hpump, -⟩ | ⟨_, hpump, -⟩ := Pump.step_cases hs
  · simp [Flow.move, IoEvent.taken, Pump.given, Pump.recorded]
  · simp [Flow.move, IoEvent.taken, Pump.given, Pump.recorded]
  · cases hresult
  · cases hpump
  · cases hpump

theorem Splice.Resting.ends {splice resumed : Splice} {event : SpliceEvent}
    {verdict : Transfer × Ended} (hresting : splice.Resting)
    (hs : splice.step event = some resumed) (hended : resumed.ended = some verdict)
    (flows : Flows) :
    flows.move splice event = flows ∧ resumed.watch.activity = splice.watch.activity := by
  have houtbound : splice.outbound = .reading := hresting .outbound
  have hinbound : splice.inbound = .reading := hresting .inbound
  obtain ⟨-, ⟨io, pump, watch, rfl, hp, hw, rfl⟩ | ⟨io, pump, watch, rfl, hp, hw, rfl⟩ |
    ⟨time, watch, rfl, hw, rfl⟩ | ⟨watch, rfl, hw, rfl⟩⟩ := Splice.step_cases hs
  · obtain ⟨result, hresult, -⟩ := Option.map_eq_some_iff.mp hended
    rw [houtbound] at hp hw
    obtain ⟨hflow, hrecorded⟩ := Pump.reading_ends hp hresult (flows .outbound)
    rw [Pump.records, hrecorded] at hw
    obtain rfl := Option.some.inj hw
    refine ⟨funext fun way => ?_, rfl⟩
    cases way with
    | outbound => simpa [Flows.move, houtbound] using hflow
    | inbound => rfl
  · obtain ⟨result, hresult, -⟩ := Option.map_eq_some_iff.mp hended
    rw [hinbound] at hp hw
    obtain ⟨hflow, hrecorded⟩ := Pump.reading_ends hp hresult (flows .inbound)
    rw [Pump.records, hrecorded] at hw
    obtain rfl := Option.some.inj hw
    refine ⟨funext fun way => ?_, rfl⟩
    cases way with
    | outbound => rfl
    | inbound => simpa [Flows.move, hinbound] using hflow
  · exact ⟨funext fun way => by cases way <;> rfl, Watch.activity_kept hw (by simp)⟩
  · exact ⟨funext fun way => by cases way <;> rfl, Watch.activity_kept hw (by simp)⟩

-- A splice that ends while it rests has counted all that it moved.
theorem Splice.Copies.resting {splice resumed : Splice} {flows : Flows} {event : SpliceEvent}
    {transfer : Transfer} {reason : Ended} (h : splice.Copies flows) (hresting : splice.Resting)
    (hs : splice.step event = some resumed) (hended : resumed.ended = some (transfer, reason))
    (way : Way) :
    (flows.move splice event way).accepted = (flows.move splice event way).read ∧
      transfer.count way = (flows.move splice event way).read.length := by
  obtain ⟨rfl, -⟩ := (h.step hs).reported transfer reason hended
  obtain ⟨hmoved, hactivity⟩ := hresting.ends hs hended flows
  have hsettled := h.ways way
  rw [hresting way] at hsettled
  rw [hmoved, Activity.transfer_count, hactivity]
  exact ⟨hsettled.1, hsettled.2.2⟩

-- The byte counters of this half have grown by what crossed between the stream
-- and the upstream, the greeting apart.
def Serve.CountsBytes (metrics after : ServerMetrics) (serve : Serve) : Prop :=
  ∀ upstream carried returned, serve.upstream = some upstream →
    serve.Relays carried returned →
    after.bytes "from_mixnet" = metrics.bytes "from_mixnet" + upstream.accepted.length ∧
    after.bytes "to_mixnet" = metrics.bytes "to_mixnet" + returned.length

-- The splice of a dialling half that sent `carried` and heard `returned` on its
-- stream, with each write completed, reports `transfer`.
def Splice.Reports (transfer : Transfer) (carried returned : Bytes) : Prop :=
  ∃ watchdog events splice flows last resumed reason,
    Splice.flowing.run (.start watchdog, .start) events = some (splice, flows) ∧
    splice.Resting ∧ splice.step last = some resumed ∧
    resumed.ended = some (transfer, reason) ∧
    (flows.move splice last .outbound).accepted = carried ∧
    (flows.move splice last .inbound).read = returned

theorem Splice.Reports.lengths {transfer : Transfer} {carried returned : Bytes}
    (h : Splice.Reports transfer carried returned) :
    transfer.toRemote = carried.length ∧ transfer.fromRemote = returned.length := by
  obtain ⟨watchdog, events, splice, flows, last, resumed, reason, hr, hresting, hs, hended, rfl,
    rfl⟩ := h
  obtain ⟨hsent, hto⟩ := (splice_copies hr).resting hresting hs hended .outbound
  obtain ⟨-, hfrom⟩ := (splice_copies hr).resting hresting hs hended .inbound
  exact ⟨by rw [hsent]; exact hto, hfrom⟩

-- What this half counts as coming from the mixnet always leaves out the first
-- request, which it wrote to the upstream itself. Where each write was completed
-- that is all it leaves out, and the dialling half counts it.
theorem opening_uncounted (settings : ServeSettings) (metrics after : ServerMetrics)
    (before : List ServeEvent) (last : SpliceEvent) (serve : Serve)
    (hr : (Serve.step settings).run (metrics, .start settings) (before ++ [.splice last]) =
      some (after, serve))
    (hreturned : serve.phase = .returned) :
    ¬Serve.CountsBytes metrics after serve ∧
    ∃ upstream opening carried returned, serve.upstream = some upstream ∧ opening ≠ [] ∧
      serve.Relays (opening ++ carried) returned ∧
      after.bytes "from_mixnet" + opening.length ≤
        metrics.bytes "from_mixnet" + upstream.accepted.length ∧
      ∀ middle splice, (Serve.own settings).run (.start settings) before = some middle →
        middle.phase = .splicing splice → splice.Resting →
        upstream.accepted = opening ++ carried ∧
        after.bytes "from_mixnet" + opening.length =
          metrics.bytes "from_mixnet" + upstream.accepted.length ∧
        after.bytes "to_mixnet" = metrics.bytes "to_mixnet" + returned.length ∧
        ∀ transfer, Splice.Reports transfer (opening ++ carried) returned →
          after.bytes "from_mixnet" + opening.length =
            metrics.bytes "from_mixnet" + transfer.toRemote ∧
          after.bytes "to_mixnet" = metrics.bytes "to_mixnet" + transfer.fromRemote := by
  obtain ⟨⟨counted, middle⟩, hbefore, hs⟩ := Machine.run_concat_some hr
  obtain ⟨splice, resumed, transfer, reason, hphase, hstep, hended, hbytes, hstream, hupstream⟩ :=
    Serve.finishes hs hreturned
  have hunchanged := serve_bytes hbefore (by rw [hphase]; simp)
  obtain ⟨opening, flows, hsplices⟩ := serve_spliced (Serve.run_own hbefore) splice hphase
  have hcopies := hsplices.2.1
  obtain ⟨hopening, hlater, hsome, hrelays⟩ := hsplices.step hstep hstream hupstream
  obtain ⟨hto, hfrom⟩ := recordTransfer_apply counted.bytes transfer
  rw [← hbytes, hunchanged] at hto hfrom
  obtain ⟨hreported, -⟩ := hlater.reported transfer reason hended
  have hcounted := (hlater.ways .inbound).counted.counted
  rw [← Activity.transfer_count, ← hreported] at hcounted
  change transfer.fromRemote ≤ (flows.move splice last .inbound).accepted.length at hcounted
  have hlong : 0 < opening.length := List.length_pos_iff.mpr hopening
  have haccepted : ((flows.move splice last).local.after ⟨[], opening⟩).accepted =
      opening ++ (flows.move splice last .inbound).accepted := rfl
  have hlen := congrArg List.length haccepted
  rw [List.length_append] at hlen
  refine ⟨fun hcounts => ?_, _, opening, _, _, hsome, hopening, hrelays, by omega, ?_⟩
  · have hgrowth := (hcounts _ _ _ hsome hrelays).1
    omega
  · intro other state hother hstate hresting
    obtain rfl : other = middle := Option.some.inj (hother.symm.trans (Serve.run_own hbefore))
    obtain rfl : state = splice := by simpa [hphase] using hstate.symm
    obtain ⟨hall, hinbound⟩ := hcopies.resting hresting hstep hended .inbound
    obtain ⟨hback, houtbound⟩ := hcopies.resting hresting hstep hended .outbound
    change transfer.fromRemote = _ at hinbound
    change transfer.toRemote = _ at houtbound
    refine ⟨by rw [haccepted, hall]; rfl, ?_, ?_, fun dialling hdialling => ?_⟩
    · rw [hfrom, hlen, hall, hinbound]
      omega
    · rw [hto, houtbound, ← hback]
      rfl
    · obtain ⟨hsent, hheard⟩ := hdialling.lengths
      rw [hfrom, hto, hsent, hheard, hinbound, houtbound, List.length_append, ← hback]
      refine ⟨?_, rfl⟩
      simp only [Flows.remote]
      omega

-- A request in one chunk, its answer, and the wallet's half going quiet.
def oneRequest : List ServeEvent :=
  [.stream (.io (.read (Header.encode ⟨false, 7⟩))), .stream (.io (.read [80, 82, 73])),
    .connected, .upstream (.wrote 3), .splice (.outbound (.read [79, 75])),
    .splice (.outbound (.wrote 2)), .splice (.outbound .flushed)]

theorem one_request_uncounted : ∃ after serve,
    (Serve.step accountSettings).run ({}, .start accountSettings)
      (oneRequest ++ [.splice (.outbound (.read []))]) = some (after, serve) ∧
    serve.phase = .returned ∧ ¬Serve.CountsBytes {} after serve := by
  obtain ⟨⟨after, serve⟩, hr, hreturned⟩ : ∃ state,
      (Serve.step accountSettings).run ({}, .start accountSettings)
        (oneRequest ++ [.splice (.outbound (.read []))]) = some state ∧
      state.2.phase = .returned :=
    Option.map_eq_some_iff.mp (by decide +kernel)
  exact ⟨after, serve, hr, hreturned,
    (opening_uncounted accountSettings {} after oneRequest _ serve hr hreturned).1⟩

theorem served_bytes_differ : ¬∀ (settings : ServeSettings) (metrics after : ServerMetrics)
    (before : List ServeEvent) (last : SpliceEvent) (serve : Serve),
    (Serve.step settings).run (metrics, .start settings) (before ++ [.splice last]) =
      some (after, serve) →
    serve.phase = .returned →
    (∀ middle splice, (Serve.own settings).run (.start settings) before = some middle →
      middle.phase = .splicing splice → splice.Resting) →
    Serve.CountsBytes metrics after serve := by
  intro hclaim
  obtain ⟨⟨after, serve⟩, hr, hseen⟩ : ∃ state,
      (Serve.step accountSettings).run ({}, .start accountSettings)
        (oneRequest ++ [.splice (.outbound (.read []))]) = some state ∧
      (state.2.phase, state.2.upstream, state.2.stream, state.1.bytes "from_mixnet") =
        (.returned, some ⟨[79, 75], [80, 82, 73]⟩,
          ⟨Header.encode ⟨false, 7⟩ ++ [80, 82, 73], [79, 75]⟩, 0) :=
    Option.map_eq_some_iff.mp (by decide +kernel)
  obtain ⟨hreturned, hupstream, hstream, hbytes⟩ : serve.phase = .returned ∧
      serve.upstream = some ⟨[79, 75], [80, 82, 73]⟩ ∧
      serve.stream = ⟨Header.encode ⟨false, 7⟩ ++ [80, 82, 73], [79, 75]⟩ ∧
      after.bytes "from_mixnet" = 0 := by
    simpa using hseen
  have hresting : ∀ middle splice,
      (Serve.own accountSettings).run (.start accountSettings) oneRequest = some middle →
      middle.phase = .splicing splice → splice.Resting := by
    intro middle splice hr hphase
    have hpumps : ((Serve.own accountSettings).run (.start accountSettings) oneRequest).map
        (fun serve => match serve.phase with
          | .splicing splice => (splice.outbound, splice.inbound)
          | _ => (.flushing 0, .flushing 0)) = some (.reading, .reading) := by decide +kernel
    rw [hr, Option.map_some, hphase] at hpumps
    obtain ⟨houtbound, hinbound⟩ := Prod.mk.inj (Option.some.inj hpumps)
    intro way
    cases way with
    | outbound => exact houtbound
    | inbound => exact hinbound
  have hcounts := hclaim accountSettings {} after oneRequest _ serve hr hreturned hresting
  have hgrowth := (hcounts ⟨[79, 75], [80, 82, 73]⟩ [80, 82, 73] [79, 75] hupstream
    ⟨_, ⟨false, 7⟩, rfl, decode_encode _, hstream⟩).1
  rw [hbytes] at hgrowth
  exact absurd hgrowth (by decide)

end LwdMixnet
