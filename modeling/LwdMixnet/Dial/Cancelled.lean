import LwdMixnet.Dial.Accounts
import LwdMixnet.Metrics
import Mathlib.Algebra.BigOperators.Group.List.Basic

namespace LwdMixnet

def roundsOf : Except GaveUp Dialled → List Round
  | .ok dialled => dialled.rounds
  | .error gaveUp => gaveUp.rounds

def keptOf : Except GaveUp Dialled → List StreamId
  | .ok dialled => [dialled.stream]
  | .error _ => []

-- The streams of the current round that have not been dropped.
def Dial.held (dial : Dial) : List StreamId :=
  match dial.phase with
  | .opening _ opened => opened
  | .announcing _ _ => dial.streams
  | .probing _ probes => probes.map Prod.fst
  | .returned result => keptOf result

-- The streams an event drops: the one whose probe failed, and with the end of
-- the round all but the one it returns.
def Dial.drops (dial : Dial) (event : DialEvent) : List StreamId :=
  match dial.phase, event with
  | .announcing stream (some write), .wait _ (.io io) =>
      match write.step io with
      | some (.returned (.ok ())) => dial.streams.erase stream
      | some (.returned (.error _)) => dial.streams
      | _ => []
  | .probing timeout probes, .wait stream waited =>
      match probes.find? fun slot => slot.1 = stream with
      | some (_, some probe) =>
          match probe.step timeout dial.elapsed waited with
          | some (.returned (.ok _)) => (probes.map Prod.fst).erase stream
          | some (.returned (.error _)) => [stream]
          | _ => []
      | _ => []
  | _, _ => []

theorem Dial.turn_held (settings : DialSettings) (dial : Dial) :
    (dial.turn settings).held = [] := by
  unfold Dial.turn
  split_ifs <;> rfl

theorem Dial.probes_held (settings : DialSettings) (dial : Dial) (timeout : Nat)
    (probes : List (StreamId × Option Probe)) :
    (dial.probes settings timeout probes).held = probes.map Prod.fst := by
  unfold Dial.probes
  split_ifs with hnil
  · rw [hnil]
    exact Dial.turn_held settings _
  · rfl

theorem Dial.opens_held (settings : DialSettings) (dial : Dial) (left : Nat) :
    (dial.opens settings left dial.streams).held = dial.streams := by
  obtain ⟨-, he⟩ | ⟨-, hnil, he⟩ | ⟨-, -, stream, -, he⟩ | ⟨-, -, probe, -, he⟩ :=
    dial.opens_cases settings left dial.streams
  · rw [he]
    rfl
  · rw [he, hnil]
    exact Dial.turn_held settings _
  · rw [he]
    rfl
  · rw [he]
    simp [Dial.held, List.map_map, Function.comp_def]

theorem map_fst_filter_slot {probes : List (StreamId × Option Probe)} {stream : StreamId}
    (hnodup : (probes.map Prod.fst).Nodup) :
    (probes.filter fun slot => slot.1 ≠ stream).map Prod.fst =
      (probes.map Prod.fst).erase stream := by
  rw [hnodup.erase_eq_filter, List.filter_map]
  congr 1
  refine List.filter_congr fun slot _ => ?_
  by_cases h : slot.1 = stream <;> simp [h]

-- No stream is dropped twice, and none is forgotten.
theorem Dial.Sized.drops {settings : DialSettings} {size : Nat} {dial next : Dial}
    {event : DialEvent} (h : dial.Sized settings size)
    (hs : dial.step settings event = some next) :
    (dial.drops event ++ next.held).Perm
      (dial.held ++ if event = .opened then [dial.nextStream] else []) := by
  obtain ⟨hnumbered, -, hround⟩ := h
  obtain ⟨left, opened, hphase, rfl, rfl⟩ | ⟨left, opened, code, hphase, rfl, rfl⟩ |
    ⟨stream, token, hphase, rfl, rfl⟩ |
    ⟨stream, write, io, after, hphase, rfl, hw, ⟨rfl, rfl⟩ | ⟨error, rfl, rfl⟩ | ⟨hw', rfl⟩⟩ |
    ⟨timeout, probes, stream, token, hphase, rfl, -, rfl⟩ |
    ⟨timeout, probes, stream, wait, probe, after, hphase, rfl, hfind, hp,
      ⟨roundTrip, rfl, rfl⟩ | ⟨error, rfl, rfl⟩ | ⟨hp', rfl⟩⟩ |
    ⟨time, rfl, hallows, rfl⟩ := Dial.step_cases hs
  · rw [hphase] at hround
    obtain ⟨-, -, rfl, -⟩ := hround
    rw [← Dial.streams_opened hnumbered, Dial.opens_held, Dial.streams_opened hnumbered]
    simp [Dial.drops, Dial.held, hphase]
  · rw [hphase] at hround
    obtain ⟨-, -, rfl, -⟩ := hround
    have hheld : ((dial.discard (.Open code)).opens settings (left - 1) dial.streams).held =
        dial.streams := Dial.opens_held settings (dial.discard (.Open code)) (left - 1)
    rw [hheld]
    simp [Dial.drops, Dial.held, hphase]
  · simp [Dial.drops, Dial.held, hphase, Dial.streams]
  · rw [hphase] at hround
    obtain ⟨-, -, hstream, -⟩ := hround
    simp only [Dial.drops, Dial.held, hphase, hw, Dial.answered, keptOf, reduceCtorEq, if_false,
      List.append_nil]
    exact (List.perm_append_comm).trans (List.perm_cons_erase hstream).symm
  · have hheld : ((dial.discard (.Probe error)).unanswered settings).held = [] :=
      Dial.turn_held settings _
    rw [hheld]
    simp [Dial.drops, Dial.held, hphase, hw]
  · have hdrops : dial.drops (.wait stream (.io io)) = [] := by
      cases after with
      | returned result => cases hw'
      | writing _ | flushing => simp [Dial.drops, hphase, hw]
    simp [hdrops, Dial.held, hphase, Dial.streams]
  · simp only [Dial.drops, Dial.held, hphase, map_fst_slot, reduceCtorEq, if_false,
      List.append_nil, List.nil_append]
    exact List.Perm.refl _
  · rw [hphase] at hround
    have hstream := List.mem_map_of_mem (f := Prod.fst) (List.mem_of_find?_eq_some hfind)
    simp only [Dial.drops, Dial.held, hphase, hfind, hp, Dial.answered, keptOf, reduceCtorEq,
      if_false, List.append_nil]
    exact (List.perm_append_comm).trans (List.perm_cons_erase hstream).symm
  · rw [hphase] at hround
    have hstream := List.mem_map_of_mem (f := Prod.fst) (List.mem_of_find?_eq_some hfind)
    have hnodup := dial.streams_nodup.sublist hround.2.2.1
    rw [Dial.probes_held, map_fst_filter_slot hnodup]
    simp only [Dial.drops, Dial.held, hphase, hfind, hp, reduceCtorEq, if_false, List.append_nil]
    exact (List.perm_cons_erase hstream).symm
  · have hdrops : dial.drops (.wait stream wait) = [] := by
      cases after with
      | returned result => cases hp'
      | sending _ _ _ | awaiting _ _ _ _ => simp [Dial.drops, hphase, hfind, hp]
    simp only [hdrops, Dial.held, hphase, map_fst_slot, reduceCtorEq, if_false, List.append_nil,
      List.nil_append]
    exact List.Perm.refl _
  · have hdrops : dial.drops (.elapse time) = [] := by
      unfold Dial.drops
      split
      · rename_i he
        cases he
      · rename_i he
        cases he
      · rfl
    simp [hdrops, Dial.held, Dial.streams]

-- `run_round` by itself: a dial that has nothing to try after this round.
def Dial.runRound (settings : DialSettings) (size elapsed nextStream : Nat) : Dial :=
  let dial : Dial :=
    { elapsed, nextStream, remaining := 0, started := elapsed, phase := .opening size [] }
  dial.opens settings size []

-- A round that goes on, or the one round that was run.
def Dial.RunsRound (settings : DialSettings) (size : Nat) (dial : Dial) : Prop :=
  (dial.rounds = [] ∧ dial.remaining = 0 ∧ dial.Sized settings size) ∨
  ∃ round result, dial.phase = .returned result ∧ roundsOf result = [round] ∧
    Round.Accounted settings size round ∧ round.answered = result.isOk

theorem Dial.Goes.runsRound {settings : DialSettings} {size : Nat} {dial next : Dial}
    (h : dial.Goes settings size next) (hrounds : dial.rounds = [])
    (hremaining : dial.remaining = 0) : next.RunsRound settings size := by
  obtain ⟨hsame, hleft, hsized⟩ | ⟨round, stream, waited, hround, hanswered, hran, -, hphase⟩ |
    ⟨before, round, hround, hanswered, hran, hleft, rfl⟩ := h
  · exact Or.inl ⟨hsame.trans hrounds, hleft.trans hremaining, hsized⟩
  · refine Or.inr ⟨round, _, hphase, ?_, hround, hanswered⟩
    rw [roundsOf, hran, hrounds, List.nil_append]
  · refine Or.inr ⟨round, .error ⟨before.rounds⟩, ?_, ?_, hround, hanswered⟩
    · rw [Dial.turn, if_pos (hleft.trans hremaining)]
    · rw [roundsOf, hran, hrounds, List.nil_append]

section

variable {settings : DialSettings} {dial next : Dial} {event : DialEvent}

theorem Dial.turn_nextStream (settings : DialSettings) (dial : Dial) :
    (dial.turn settings).nextStream = dial.nextStream := by
  unfold Dial.turn
  split_ifs <;> rfl

theorem Dial.probes_nextStream (settings : DialSettings) (dial : Dial) (timeout : Nat)
    (probes : List (StreamId × Option Probe)) :
    (dial.probes settings timeout probes).nextStream = dial.nextStream := by
  unfold Dial.probes
  split_ifs
  · exact Dial.turn_nextStream settings _
  · rfl

theorem Dial.opens_nextStream (settings : DialSettings) (dial : Dial) (left : Nat)
    (opened : List StreamId) : (dial.opens settings left opened).nextStream = dial.nextStream := by
  obtain ⟨-, he⟩ | ⟨-, -, he⟩ | ⟨-, -, stream, -, he⟩ | ⟨-, -, probe, -, he⟩ :=
    dial.opens_cases settings left opened
  · rw [he]
  · rw [he]
    exact Dial.turn_nextStream settings _
  · rw [he]
  · rw [he]

theorem Dial.step_nextStream (hs : dial.step settings event = some next) :
    next.nextStream = dial.nextStream + if event = .opened then 1 else 0 := by
  obtain ⟨left, opened, -, rfl, rfl⟩ | ⟨left, opened, code, -, rfl, rfl⟩ |
    ⟨stream, token, -, rfl, rfl⟩ |
    ⟨stream, write, io, after, -, rfl, -, ⟨-, rfl⟩ | ⟨error, -, rfl⟩ | ⟨-, rfl⟩⟩ |
    ⟨timeout, probes, stream, token, -, rfl, -, rfl⟩ |
    ⟨timeout, probes, stream, wait, probe, after, -, rfl, -, -,
      ⟨roundTrip, -, rfl⟩ | ⟨error, -, rfl⟩ | ⟨-, rfl⟩⟩ |
    ⟨time, rfl, -, rfl⟩ := Dial.step_cases hs
  · rw [Dial.opens_nextStream]
    rfl
  · rw [Dial.opens_nextStream]
    rfl
  · rfl
  · rfl
  · exact Dial.turn_nextStream settings _
  · rfl
  · rfl
  · rfl
  · exact Dial.probes_nextStream settings _ _ _
  · rfl
  · rfl

end

-- What a run of one round has done with the streams it opened.
structure Dial.Disposes (settings : DialSettings) (size nextStream : Nat)
    (dropped : List StreamId) (dial : Dial) : Prop where
  round : dial.RunsRound settings size
  counted : dial.Counted
  numbered : dial.nextStream = nextStream + dial.opensTotal
  disposed : (dropped ++ dial.held).Perm (List.range' nextStream dial.opensTotal)

section

variable {settings : DialSettings} {size elapsed nextStream : Nat}

theorem Dial.runRound_disposes :
    (Dial.runRound settings size elapsed nextStream).Disposes settings size nextStream [] := by
  have hgoes : Dial.Goes settings size
      { elapsed, nextStream, remaining := 0, started := elapsed, phase := .opening size [] }
      (Dial.runRound settings size elapsed nextStream) :=
    @Dial.goes_opens settings size
      { elapsed, nextStream, remaining := 0, started := elapsed, phase := .opening size [] } _
      size rfl rfl (Nat.zero_le _) rfl (Nat.zero_add _) rfl
  have htotal : (Dial.runRound settings size elapsed nextStream).opensTotal = 0 :=
    Dial.opens_opensTotal _ _ _ _
  refine ⟨hgoes.runsRound rfl rfl, Dial.opens_counted _ _ _ _ rfl, ?_, ?_⟩
  · rw [htotal]
    exact Dial.opens_nextStream _ _ _ _
  · rw [htotal]
    have hheld := Dial.opens_held settings {
      elapsed, nextStream, remaining := 0, started := elapsed, phase := .opening size [] } size
    exact List.Perm.of_eq hheld

theorem Dial.Disposes.step {dropped : List StreamId} {dial next : Dial} {event : DialEvent}
    (h : dial.Disposes settings size nextStream dropped)
    (hs : dial.step settings event = some next) :
    next.Disposes settings size nextStream (dropped ++ dial.drops event) := by
  obtain ⟨hround, hcounted, hnumbered, hdisposed⟩ := h
  obtain ⟨hrounds, hremaining, hsized⟩ | ⟨round, result, hphase, -⟩ := hround
  · refine ⟨(hsized.step hs).runsRound hrounds hremaining, hcounted.step hs, ?_, ?_⟩
    · rw [Dial.step_nextStream hs, Dial.step_opensTotal hs, hnumbered, Nat.add_assoc]
    · have hdrops := (hsized.drops hs).append_left dropped
      rw [List.append_assoc, Dial.step_opensTotal hs]
      refine hdrops.trans ?_
      rw [← List.append_assoc]
      refine (hdisposed.append_right _).trans ?_
      split_ifs
      · rw [List.range'_concat, hnumbered, Nat.one_mul]
      · rw [List.append_nil, Nat.add_zero]
  · cases event <;> simp [Dial.step, hphase, DialPhase.allows] at hs

theorem run_round_disposes {events : List DialEvent} {dial : Dial}
    (hr : (Dial.step settings).run (Dial.runRound settings size elapsed nextStream) events =
      some dial) :
    dial.Disposes settings size nextStream ((Dial.step settings).views Dial.drops
      (Dial.runRound settings size elapsed nextStream) events) := by
  refine Machine.run_history (fun events dial => Dial.Disposes settings size nextStream
    ((Dial.step settings).views Dial.drops (Dial.runRound settings size elapsed nextStream) events)
    dial) Dial.runRound_disposes ?_ hr
  intro events dial event next hr h hs
  rw [Machine.views_concat _ _ hr hs]
  exact h.step hs

end

-- What a task tells the metrics of its dial.
def ClientMetrics.told (metrics : ClientMetrics) (result : Except GaveUp Dialled) (waited : Nat) :
    ClientMetrics :=
  match result with
  | .ok dialled => metrics.established dialled.rounds waited
  | .error gaveUp => metrics.gaveUp gaveUp.rounds

-- The reasons of a discarded stream that was opened.
def probeReasons : List String :=
  ["unanswered", "io", "foreign", "unsupported_version", "token_mismatch"]

theorem count_discardReason (error : DialError) :
    probeReasons.count (discardReason error) = if error.isOpenFailure then 0 else 1 := by
  cases error with
  | Open code => simp [discardReason, probeReasons, DialError.isOpenFailure]
  | Probe error =>
      cases error <;> simp [discardReason, handshakeReason, probeReasons, DialError.isOpenFailure]

theorem total_discarded (discarded : List Discarded) (counters : CounterVec) :
    (discarded.foldl (fun counters stream => counters.incBy (discardReason stream.error) 1)
      counters).total probeReasons =
    counters.total probeReasons + discarded.countP fun stream => !stream.error.isOpenFailure := by
  induction discarded generalizing counters with
  | nil => rfl
  | cons stream rest ih =>
      rw [List.foldl_cons, ih, CounterVec.total_incBy, count_discardReason, List.countP_cons]
      cases stream.error.isOpenFailure with
      | true => simp
      | false =>
          simp
          omega

theorem ClientMetrics.told_streams (metrics : ClientMetrics) (result : Except GaveUp Dialled)
    (waited : Nat) :
    (metrics.told result waited).streamsOpened =
      metrics.streamsOpened + ((roundsOf result).map Round.opened).sum ∧
    (metrics.told result waited).streamsDiscarded.total probeReasons =
      metrics.streamsDiscarded.total probeReasons +
        ((roundsOf result).map Round.unanswered).sum := by
  have hsum (rounds : List Round) : (rounds.flatMap Round.discarded).countP
      (fun stream => !stream.error.isOpenFailure) = (rounds.map Round.unanswered).sum := by
    rw [List.countP_flatMap]
    rfl
  cases result with
  | ok dialled =>
      refine ⟨rfl, ?_⟩
      rw [roundsOf, ← hsum]
      exact total_discarded _ _
  | error gaveUp =>
      refine ⟨rfl, ?_⟩
      rw [roundsOf, ← hsum]
      exact total_discarded _ _

theorem sum_resolved {settings : DialSettings} {rounds : List Round}
    (h : Dial.Looping settings rounds) : (rounds.map Round.opened).sum =
      (rounds.map Round.unanswered).sum + (rounds.map Round.cancelled).sum := by
  rw [← List.sum_map_add]
  congr 1
  refine List.map_congr_left fun round hround => ?_
  obtain ⟨index, hindex⟩ := List.mem_iff_getElem?.mp hround
  have hresolved := (h.shared index round hindex).resolved
  rw [h.unanswered round hround] at hresolved
  exact hresolved

def Dial.Returns (result : Except GaveUp Dialled) : Prop :=
  ∃ settings events dial, (Dial.step settings).run (.start settings) events = some dial ∧
    dial.phase = .returned result

theorem Dial.Returns.resolved {result : Except GaveUp Dialled} (h : Dial.Returns result) :
    ((roundsOf result).map Round.opened).sum =
      ((roundsOf result).map Round.unanswered).sum +
        ((roundsOf result).map Round.cancelled).sum + result.isOk.toNat := by
  obtain ⟨settings, events, dial, hr, hphase⟩ := h
  have hbudgeted := dial_budgeted hr
  cases result with
  | ok dialled =>
      simp only [Dial.Budgeted, hphase] at hbudgeted
      obtain ⟨hsame, hshared, earlier, last, hrounds, hlooping, -, hanswered⟩ := hbudgeted
      have hlast := (hshared earlier.length last (by simp [hrounds])).resolved
      have hearlier := sum_resolved hlooping
      rw [hanswered] at hlast
      rw [roundsOf, hsame, hrounds]
      simp only [List.map_append, List.sum_append, List.map_cons, List.map_nil, List.sum_cons,
        List.sum_nil, Except.isOk, Except.toBool, Bool.toNat_true] at hlast ⊢
      omega
  | error gaveUp =>
      simp only [Dial.Budgeted, hphase] at hbudgeted
      rw [roundsOf, hbudgeted.1, sum_resolved hbudgeted.2.1]
      rfl

-- Over any dials, what was opened is discarded, handed on or cancelled.
theorem ClientMetrics.told_accounts {dials : List (Except GaveUp Dialled × Nat)}
    (h : ∀ dial ∈ dials, Dial.Returns dial.1) :
    let metrics := dials.foldl (fun metrics dial => metrics.told dial.1 dial.2)
      ({} : ClientMetrics)
    metrics.streamsOpened = metrics.streamsDiscarded.total probeReasons +
      dials.countP (·.1.isOk) +
      ((dials.flatMap fun dial => roundsOf dial.1).map Round.cancelled).sum := by
  induction dials using List.reverseRecOn with
  | nil => rfl
  | append_singleton dials dial ih =>
      have hbefore := ih fun other hother => h other (List.mem_append_left _ hother)
      have hresolved := (h dial (by simp)).resolved
      obtain ⟨hopened, hdiscarded⟩ := ClientMetrics.told_streams
        (dials.foldl (fun metrics dial => metrics.told dial.1 dial.2) ({} : ClientMetrics))
        dial.1 dial.2
      simp only [List.foldl_append, List.foldl_cons, List.foldl_nil, List.countP_append,
        List.countP_cons, List.countP_nil, List.flatMap_append, List.flatMap_cons,
        List.flatMap_nil, List.append_nil, List.map_append, List.sum_append] at hbefore ⊢
      rw [hopened, hdiscarded, hbefore, hresolved]
      cases dial.1.isOk <;> simp <;> omega

theorem Dial.Counted.opensTotal_returned {dial : Dial} {result : Except GaveUp Dialled}
    (h : dial.Counted) (hphase : dial.phase = .returned result) :
    dial.opensTotal = ((roundsOf result).map Round.opened).sum := by
  unfold Dial.Counted at h
  rw [hphase] at h
  cases result with
  | ok dialled =>
      obtain ⟨hsame, hempty, -⟩ := h
      rw [Dial.opensTotal, ← hsame, hempty]
      exact Nat.add_zero _
  | error gaveUp =>
      obtain ⟨hsame, hempty⟩ := h
      rw [Dial.opensTotal, ← hsame, hempty]
      exact Nat.add_zero _

-- A round with the probe on, or one that opened a single stream, accounts for
-- each stream once. Where the probe is off and more were opened, a failed
-- announcement is heard of on one, and the others were cancelled.
theorem round_accounts :
    (∀ (settings : DialSettings) (size elapsed nextStream : Nat) (events : List DialEvent)
      (dial : Dial) (result : Except GaveUp Dialled),
      (Dial.step settings).run (Dial.runRound settings size elapsed nextStream) events =
        some dial →
      dial.phase = .returned result →
      ∃ round, roundsOf result = [round] ∧ round.answered = result.isOk ∧
        round.opened + round.failures DialError.isOpenFailure = size ∧
        round.opened = round.unanswered + round.cancelled + round.answered.toNat ∧
        round.unanswered ≤ round.opened ∧
        round.answered.toNat ≤ round.opened - round.unanswered ∧
        (round.answered = false → settings.probe ≠ none ∨ round.opened ≤ 1 →
          round.cancelled = 0 ∧ round.discarded.length = size) ∧
        ((Dial.step settings).views Dial.drops (Dial.runRound settings size elapsed nextStream)
          events ++ keptOf result).Perm (List.range' nextStream round.opened)) ∧
    (∀ (settings : DialSettings) (events : List DialEvent) (dial : Dial),
      (Dial.step settings).run (.start settings) events = some dial →
      ∀ round ∈ dial.rounds, round.answered = false →
        round.cancelled = 0 ∧ round.discarded.length = round.attempted) ∧
    ∀ dials : List (Except GaveUp Dialled × Nat), (∀ dial ∈ dials, Dial.Returns dial.1) →
      let metrics := dials.foldl (fun metrics dial => metrics.told dial.1 dial.2)
        ({} : ClientMetrics)
      metrics.streamsOpened = metrics.streamsDiscarded.total probeReasons +
        dials.countP (·.1.isOk) +
        ((dials.flatMap fun dial => roundsOf dial.1).map Round.cancelled).sum := by
  refine ⟨?_, ?_, ?_⟩
  · intro settings size elapsed nextStream events dial result hr hphase
    obtain ⟨hround, hcounted, -, hdisposed⟩ := run_round_disposes hr
    obtain ⟨-, -, hsized⟩ | ⟨round, other, hreturned, hrounds, haccounted, hanswered⟩ := hround
    · have hnever := hsized.phase
      rw [hphase] at hnever
      exact hnever.elim
    · obtain rfl : other = result := by
        rw [hphase] at hreturned
        exact (DialPhase.returned.inj hreturned).symm
      have hunclamped := haccounted.unclamped
      have htotal : dial.opensTotal = round.opened := by
        rw [hcounted.opensTotal_returned hphase, hrounds]
        simp
      rw [htotal, Dial.held, hphase] at hdisposed
      exact ⟨round, hrounds, hanswered, haccounted.attempted, haccounted.resolved, by omega,
        by omega, haccounted.discards, hdisposed⟩
  · intro settings events dial hr round hround hanswered
    obtain ⟨index, hindex⟩ := List.mem_iff_getElem?.mp hround
    have hshared := (dial_budgeted hr).shared
    rw [(hshared index round hindex).attempted]
    exact hshared.discards hindex hanswered
  · exact fun dials hdials => ClientMetrics.told_accounts hdials

-- Three opens, of which one is refused; one stream fails its probe and the other
-- answers.
def probeThree : DialSettings where
  probe := some {
    timeout := 10, attempts := 3, concurrency := 3, attempts_pos := Nat.succ_pos 2
    concurrency_pos := Nat.succ_pos 2 }

def threeOpens : List DialEvent :=
  [.opened, .refused 1, .opened, .polled 0 7, .polled 1 8, .wait 0 (.io (.failed (.Other 5))),
    .wait 1 (.io (.wrote 14)), .wait 1 (.io .flushed),
    .wait 1 (.io (.read (Header.encode ⟨true, 8⟩)))]

theorem three_opens_accounted : ∃ dial,
    (Dial.step probeThree).run (Dial.runRound probeThree 3 0 0) threeOpens = some dial ∧
    dial.phase = .returned (.ok ⟨1, 0, [⟨2, [⟨0, .Open 1⟩, ⟨0, .Probe (.Write (.Other 5))⟩],
      true⟩]⟩) ∧
    ((Dial.step probeThree).views Dial.drops (Dial.runRound probeThree 3 0 0) threeOpens ++
      [1]).Perm [0, 1] := by
  obtain ⟨dial, hr, hphase⟩ : ∃ dial,
      (Dial.step probeThree).run (Dial.runRound probeThree 3 0 0) threeOpens = some dial ∧
      dial.phase = .returned (.ok ⟨1, 0, [⟨2, [⟨0, .Open 1⟩, ⟨0, .Probe (.Write (.Other 5))⟩],
        true⟩]⟩) :=
    Option.map_eq_some_iff.mp (by decide +kernel)
  obtain ⟨round, hround, -, -, -, -, -, -, hdisposed⟩ :=
    round_accounts.1 probeThree 3 0 0 threeOpens dial _ hr hphase
  obtain rfl := List.singleton_inj.mp hround
  exact ⟨dial, hr, hphase, hdisposed⟩

-- The probe is off, and the announcement on the second of two streams fails.
theorem announced_round_cancels : ¬∀ (settings : DialSettings) (size elapsed nextStream : Nat)
    (events : List DialEvent) (dial : Dial) (result : Except GaveUp Dialled) (round : Round),
    (Dial.step settings).run (Dial.runRound settings size elapsed nextStream) events = some dial →
    dial.phase = .returned result → roundsOf result = [round] → round.answered = false →
    round.cancelled = 0 ∧ round.discarded.length = size := by
  intro hclaim
  obtain ⟨dial, hr, hphase⟩ : ∃ dial,
      (Dial.step ⟨none⟩).run (Dial.runRound ⟨none⟩ 2 0 0)
        [.opened, .opened, .polled 1 7, .wait 1 (.io (.failed (.Other 5)))] = some dial ∧
      dial.phase = .returned (.error ⟨[⟨2, [⟨0, .Probe (.Write (.Other 5))⟩], false⟩]⟩) :=
    Option.map_eq_some_iff.mp (by decide +kernel)
  have hcancelled := (hclaim ⟨none⟩ 2 0 0 _ dial _ _ hr hphase rfl rfl).1
  exact absurd hcancelled (by decide)

end LwdMixnet
