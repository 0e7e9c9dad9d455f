import LwdMixnet.Splice.Loop
import LwdMixnet.Splice.Refinement

namespace LwdMixnet

-- When anything last moved, on the clock of the watchdog.
def Watch.latest (watch : Watch) : Nat :=
  max (watch.activity.toRemote.movedAt.getD 0) (watch.activity.fromRemote.movedAt.getD 0)

-- The same in exact time: the last movement, or the start where nothing moved.
def lastMoved (moves : List Move) : Nat :=
  (moves.getLast?.map Move.instant).getD 0

theorem lastMoved_concat (moves : List Move) (move : Move) :
    lastMoved (moves ++ [move]) = move.instant := by
  simp [lastMoved]

theorem le_lastMoved {moves : List Move} (hc : Chronological moves) {move : Move}
    (hm : move ∈ moves) : move.instant ≤ lastMoved moves := by
  rcases List.eq_nil_or_concat moves with rfl | ⟨first, last, rfl⟩
  · cases hm
  · rw [List.concat_eq_append] at hm hc ⊢
    rw [lastMoved_concat]
    rcases List.mem_append.mp hm with hm | hm
    · exact (List.pairwise_append.mp hc).2.2 move hm last (List.mem_singleton_self _)
    · rw [List.mem_singleton.mp hm]

-- The later of the two latest stamps is the last movement's.
theorem max_lastStamp {moves : List Move} (hc : Chronological moves) :
    max ((lastStamp .outbound moves).getD 0) ((lastStamp .inbound moves).getD 0) =
      asMillis (lastMoved moves) := by
  induction moves using List.reverseRecOn with
  | nil => rfl
  | append_singleton moves last ih =>
      have hstamp (way : Way) : (lastStamp way moves).getD 0 ≤ last.stamp := by
        cases h : lastStamp way moves with
        | none => exact Nat.zero_le _
        | some stamp =>
            obtain ⟨move, hm, -, rfl⟩ := lastStamp_mem h
            exact asMillis_mono ((List.pairwise_append.mp hc).2.2 move hm last
              (List.mem_singleton_self _))
      rw [lastStamp_concat, lastStamp_concat, lastMoved_concat]
      cases hway : last.way with
      | outbound => simpa [Move.stamp] using hstamp .inbound
      | inbound => simpa [Move.stamp] using hstamp .outbound

theorem Watch.Traced.latest {watchdog : Watchdog} {events : List WatchEvent} {watch : Watch}
    (ht : watch.Traced watchdog events) : watch.latest = asMillis (lastMoved (moves events)) := by
  rw [Watch.latest, ht.wrote, ht.heard, max_lastStamp (moves_chronological events)]

-- A verdict of `Idle` is the reaper's.
theorem tripped_idle {watchdog : Watchdog} {clock : StallClock} {activity : Activity}
    {elapsed idle : Nat} (h : (watchdog.tripped clock activity elapsed).2 = some (.Idle idle)) :
    watchdog.idle = some idle ∧ asMillis idle ≤ asMillis elapsed -
      max (activity.toRemote.movedAt.getD 0) (activity.fromRemote.movedAt.getD 0) := by
  rw [tripped_ended] at h
  rcases Option.or_eq_some_iff.mp h with h | ⟨-, h⟩
  · obtain ⟨since, -, hstalled⟩ := Option.bind_eq_some_iff.mp h
    unfold Watchdog.stalled at hstalled
    split at hstalled
    · split_ifs at hstalled
      cases hstalled
    · cases hstalled
  · unfold Watchdog.idled at h
    split at h
    · rename_i deadline hidle
      split_ifs at h with hle
      cases h
      exact ⟨hidle, hle⟩
    · cases h

section

variable {watch next : Watch} {event : WatchEvent} {idle : Nat}

theorem Watch.latest_congr (h : next.activity = watch.activity) : next.latest = watch.latest := by
  unfold Watch.latest
  rw [h]

theorem Watch.latest_record {way : Way} {count : Nat} (hcount : 0 < count)
    (h : watch.latest ≤ asMillis watch.elapsed) :
    Watch.latest { watch with activity := watch.activity.record way count watch.elapsed } =
      asMillis watch.elapsed := by
  have hout := movedAt_record watch.activity way .outbound count watch.elapsed hcount
  have hin := movedAt_record watch.activity way .inbound count watch.elapsed hcount
  simp only [Activity.direction] at hout hin
  unfold Watch.latest at h ⊢
  rw [hout, hin]
  cases way with
  | outbound => simpa using (Nat.le_max_right _ _).trans h
  | inbound => simpa using (Nat.le_max_left _ _).trans h

-- And a tick that lets the loop go on found it short of its deadline, whatever
-- the stall clock said.
theorem Watch.not_idled (hidle : watch.watchdog.idle = some idle)
    (h : (watch.watchdog.tripped watch.clock watch.activity watch.elapsed).2 = none) :
    asMillis watch.elapsed < watch.latest + asMillis idle := by
  rw [tripped_ended, Option.or_eq_none_iff] at h
  have hle : ¬asMillis idle ≤ asMillis watch.elapsed - watch.latest := by
    intro hle
    have hidled := h.2
    rw [Watchdog.idled, hidle] at hidled
    simp only [if_pos (show asMillis idle ≤ asMillis watch.elapsed - max _ _ from hle)] at hidled
    cases hidled
  omega

-- The reaper, tick by tick: the next tick comes within a period of the deadline,
-- as long as the millisecond clock can show that it was reached.
structure Watch.Reaped (idle : Nat) (watch : Watch) : Prop where
  configured : watch.watchdog.idle = some idle
  stamped : watch.latest ≤ asMillis watch.elapsed
  ticking : watch.elapsed ≤ watch.nextTick
  reaped : watch.ended = none → watch.latest + asMillis idle ≤ U64_MAX →
    watch.nextTick ≤ (watch.latest + asMillis idle) * MILLI + watch.watchdog.checkPeriod

theorem Watch.Reaped.step (h : watch.Reaped idle) (hs : watch.step event = some next) :
    next.Reaped idle := by
  obtain ⟨hidle, hstamped, hticking, hreaped⟩ := h
  obtain ⟨hended, ⟨way, count, rfl, hcount, rfl⟩ | ⟨time, rfl, hle, rfl⟩ | ⟨rfl, hdue, rfl⟩⟩ :=
    Watch.step_cases hs
  · have hlatest := @Watch.latest_record watch way count hcount hstamped
    refine ⟨hidle, hlatest.le, hticking, fun _ hfits => ?_⟩
    rw [hlatest] at hfits ⊢
    refine (hreaped hended (by omega)).trans ?_
    exact Nat.add_le_add_right (Nat.mul_le_mul_right _ (Nat.add_le_add_right hstamped _)) _
  · exact ⟨hidle, hstamped.trans (asMillis_mono (Nat.le_add_right _ _)), hle, hreaped⟩
  · refine ⟨hidle, hstamped, hdue.le.trans (Nat.le_add_right _ _), fun hgoes hfits => ?_⟩
    change watch.latest + _ ≤ _ at hfits
    -- the tick came before the deadline, so the millisecond clock is exact there
    have hlt := Watch.not_idled hidle hgoes
    have hexact : asMillis watch.elapsed = watch.elapsed / MILLI := by
      unfold asMillis at hlt hfits ⊢
      omega
    rw [hexact, Nat.div_lt_iff_lt_mul (by decide)] at hlt
    rw [← hdue]
    exact Nat.add_le_add_right hlt.le _

theorem Watch.start_reaped {watchdog : Watchdog} (hidle : watchdog.idle = some idle) :
    (Watch.start watchdog).Reaped idle :=
  ⟨hidle, Nat.zero_le _, Nat.zero_le _, fun _ _ => Nat.le_add_left _ _⟩

end

-- The movements the pumps of a splice recorded.
def Splice.recorded (watchdog : Watchdog) (events : List SpliceEvent) : List Move :=
  moves ((Splice.start watchdog).watched events)

theorem splice_latest {watchdog : Watchdog} {events : List SpliceEvent} {splice : Splice}
    (hr : Splice.step.run (.start watchdog) events = some splice) :
    splice.watch.latest = asMillis (lastMoved (Splice.recorded watchdog events)) :=
  (traced (Splice.run_view hr)).latest

theorem recorded_tick {watchdog : Watchdog} {before : List SpliceEvent} {state splice : Splice}
    (hr : Splice.step.run (.start watchdog) before = some state)
    (hs : state.step .tick = some splice) :
    Splice.recorded watchdog (before ++ [.tick]) = Splice.recorded watchdog before := by
  rw [Splice.recorded, Splice.watched, Machine.views_concat Splice.step Splice.view hr hs]
  change moves (_ ++ [.tick]) = _
  rw [moves_concat]
  exact List.append_nil _

section

variable {watchdog : Watchdog} {idle : Nat} {events : List SpliceEvent} {splice : Splice}
  (hidle : watchdog.idle = some idle)
  (hr : Splice.step.run (.start watchdog) events = some splice)

include hr

theorem recorded_le {move : Move} (hm : move ∈ Splice.recorded watchdog events) :
    move.instant ≤ splice.watch.elapsed ∧
      move.stamp ≤ asMillis (lastMoved (Splice.recorded watchdog events)) :=
  ⟨(traced (Splice.run_view hr)).instant_le hm,
    asMillis_mono (le_lastMoved (moves_chronological _) hm)⟩

include hidle

-- The tick that gave the verdict, and what its clock showed.
theorem idle_tick {transfer : Transfer} {deadline : Nat}
    (hended : splice.ended = some (transfer, .Idle deadline)) : deadline = idle ∧
      ∃ before state ticks, events = before ++ [.tick] ∧
        Splice.step.run (.start watchdog) before = some state ∧
        state.watch.elapsed = splice.watch.elapsed ∧
        splice.watch.elapsed = (ticks + 1) * watchdog.checkPeriod ∧
        asMillis idle ≤ asMillis splice.watch.elapsed -
          asMillis (lastMoved (Splice.recorded watchdog events)) := by
  rcases List.eq_nil_or_concat events with rfl | ⟨before, event, rfl⟩
  · obtain rfl := Option.some.inj hr
    cases hended
  rw [List.concat_eq_append] at hr ⊢
  obtain ⟨state, hrun, hs⟩ := Machine.run_concat_some hr
  obtain ⟨result, he⟩ | ⟨rfl, hdue, helapsed, htripped⟩ := Splice.ended_cases hs hended
  · cases result <;> cases he
  have hbefore := traced (Splice.run_view hrun)
  obtain ⟨hdeadline, hle⟩ := tripped_idle htripped
  rw [hbefore.configured, hidle] at hdeadline
  obtain rfl := Option.some.inj hdeadline
  obtain ⟨ticks, hnext, -⟩ := hbefore.due
  change asMillis idle ≤ asMillis state.watch.elapsed - state.watch.latest at hle
  rw [splice_latest hrun, ← recorded_tick hrun hs, ← helapsed] at hle
  refine ⟨rfl, before, state, ticks, rfl, hrun, helapsed.symm, ?_, hle⟩
  rw [helapsed, hdue, hnext]

theorem running_within (hrunning : splice.ended = none)
    (hfits : asMillis (lastMoved (Splice.recorded watchdog events)) + asMillis idle ≤ U64_MAX) :
    splice.watch.elapsed ≤
      lastMoved (Splice.recorded watchdog events) + idle + watchdog.checkPeriod := by
  have hreaped : splice.watch.Reaped idle :=
    Machine.run_invariant (Watch.Reaped idle) (fun _ _ _ h hs => h.step hs)
      (Watch.start_reaped hidle) (Splice.run_view hr)
  have hconfigured := (traced (Splice.run_view hr)).configured
  have hlatest := splice_latest hr
  rw [← hlatest] at hfits
  have hdue := hreaped.reaped (Splice.watching hr hrunning) hfits
  have hticking := hreaped.ticking
  have hmoved := asMillis_mul_le (lastMoved (Splice.recorded watchdog events))
  have hdeadline := asMillis_mul_le idle
  rw [hlatest, Nat.add_mul, hconfigured] at hdue
  omega

end

-- `Idle` comes at a tick, once nothing was recorded for the deadline, both in whole
-- milliseconds; and a splice does not run for longer than the deadline and a period
-- after its last movement, whatever its pumps wait for.
theorem idle_reaped_in_time (watchdog : Watchdog) (idle : Nat) (hidle : watchdog.idle = some idle)
    (events : List SpliceEvent) (splice : Splice)
    (hr : Splice.step.run (.start watchdog) events = some splice) :
    (∀ transfer deadline, splice.ended = some (transfer, .Idle deadline) → deadline = idle ∧
      ∃ before state ticks, events = before ++ [.tick] ∧
        Splice.step.run (.start watchdog) before = some state ∧
        state.watch.elapsed = splice.watch.elapsed ∧
        splice.watch.elapsed = (ticks + 1) * watchdog.checkPeriod ∧
        asMillis idle ≤ asMillis splice.watch.elapsed ∧
        (∀ move ∈ Splice.recorded watchdog events,
          move.stamp + asMillis idle ≤ asMillis splice.watch.elapsed) ∧
        ∀ count ≤ U64_MAX, idle = fromMillis count → idle ≤ splice.watch.elapsed ∧
          ∀ move ∈ Splice.recorded watchdog events,
            move.instant + idle < splice.watch.elapsed + MILLI) ∧
    (splice.ended = none →
      asMillis (lastMoved (Splice.recorded watchdog events)) + asMillis idle ≤ U64_MAX →
      splice.watch.elapsed ≤
        lastMoved (Splice.recorded watchdog events) + idle + watchdog.checkPeriod) := by
  refine ⟨fun transfer deadline hended => ?_, running_within hidle hr⟩
  obtain ⟨hdeadline, before, state, ticks, hevents, hrun, hsame, hdue, hle⟩ :=
    idle_tick hidle hr hended
  have hstamps : ∀ move ∈ Splice.recorded watchdog events,
      move.stamp + asMillis idle ≤ asMillis splice.watch.elapsed := by
    intro move hm
    obtain ⟨hpast, hlast⟩ := recorded_le hr hm
    have hstamp : move.stamp ≤ asMillis splice.watch.elapsed := asMillis_mono hpast
    omega
  have hreached := hle.trans (Nat.sub_le _ _)
  refine ⟨hdeadline, before, state, ticks, hevents, hrun, hsame, hdue, hreached, hstamps, ?_⟩
  intro count hfits hcount
  have hwhole := asMillis_fromMillis hfits
  rw [hcount, hwhole] at hreached hstamps
  rw [hcount]
  refine ⟨?_, fun move hm => lt_of_asMillis hfits (recorded_le hr hm).1 (hstamps move hm)⟩
  exact (Nat.mul_le_mul_right MILLI hreached).trans (asMillis_mul_le _)

-- A request, its answer, and a second request that the remote never takes.
def answeredThenBlocked : List SpliceEvent :=
  [.elapse (fromMillis 10), .outbound (.read [1]), .outbound (.wrote 1), .outbound .flushed,
    .elapse (fromMillis 40), .inbound (.read [2]), .inbound (.wrote 1), .inbound .flushed,
    .outbound (.read [3]), .elapse (fromMillis 50), .tick] ++
    (List.replicate 4 [.elapse (fromMillis 100), .tick]).flatten

theorem blocked_splice_reaped : ∃ splice,
    Splice.step.run (.start { stall := some (fromSecs 60), idle := some (fromMillis 400) })
      answeredThenBlocked = some splice ∧
    splice.ended = some (⟨1, 1⟩, .Idle (fromMillis 400)) ∧
    ∀ move ∈ Splice.recorded { stall := some (fromSecs 60), idle := some (fromMillis 400) }
      answeredThenBlocked, move.instant + fromMillis 400 < splice.watch.elapsed + MILLI := by
  obtain ⟨splice, hr, hended⟩ : ∃ splice,
      Splice.step.run (.start { stall := some (fromSecs 60), idle := some (fromMillis 400) })
        answeredThenBlocked = some splice ∧
      splice.ended = some (⟨1, 1⟩, .Idle (fromMillis 400)) :=
    Option.map_eq_some_iff.mp (by decide +kernel)
  obtain ⟨-, before, state, ticks, -, -, -, -, -, -, hwhole⟩ :=
    (idle_reaped_in_time _ (fromMillis 400) rfl answeredThenBlocked splice hr).1 _ _ hended
  exact ⟨splice, hr, hended, (hwhole 400 (by decide) rfl).2⟩

-- A splice whose pumps wait goes on as its watchdog does.
theorem Splice.run_quiet {splice : Splice} {watch : Watch} {period ticks : Nat}
    (hrunning : splice.ended = none)
    (hr : Watch.step.run splice.watch (quiet period ticks) = some watch)
    (hgoes : watch.ended = none) :
    Splice.step.run splice (List.replicate ticks [.elapse period, .tick]).flatten =
      some { splice with watch := watch } := by
  induction ticks generalizing watch with
  | zero =>
      obtain rfl := Option.some.inj hr
      rfl
  | succ ticks ih =>
      rw [quiet_succ] at hr
      obtain ⟨middle, hmiddle, hrest⟩ := Machine.run_append_some hr
      obtain ⟨due, helapse, hrest⟩ := Option.bind_eq_some_iff.mp hrest
      obtain ⟨last, htick, hlast⟩ := Option.bind_eq_some_iff.mp hrest
      obtain rfl := Option.some.inj hlast
      rw [List.replicate_succ', List.flatten_append, List.flatten_singleton]
      refine Machine.run_trans (ih hmiddle (Watch.step_cases helapse).1) ?_
      simp [Machine.run_cons, Splice.step, hrunning, helapse, htick, hgoes]

-- A request half a millisecond after the first tick.
def afterTick : List SpliceEvent :=
  [.elapse (fromMillis 100), .tick, .elapse 500000, .outbound (.read [1]), .outbound (.wrote 1),
    .outbound .flushed, .elapse 99500000, .tick] ++
    (List.replicate 3 [.elapse (fromMillis 100), .tick]).flatten

-- A request at 1 ms, and a deadline that ends beyond the millisecond clock.
def beyondReaper : List SpliceEvent :=
  [.elapse (fromMillis 1), .outbound (.read [1]), .outbound (.wrote 1), .outbound .flushed,
    .elapse (fromMillis 4999), .tick] ++
    (List.replicate (2 ^ 64) [.elapse (fromSecs 5), .tick]).flatten

theorem beyondReaper_running : ∃ splice,
    Splice.step.run (.start { idle := some (fromMillis U64_MAX) }) beyondReaper = some splice ∧
    splice.ended = none ∧ splice.watch.latest = 1 ∧
    splice.watch.elapsed = fromSecs (5 * (2 ^ 64 + 1)) := by
  have hperiod : Watchdog.checkPeriod { idle := some (fromMillis U64_MAX) } = fromSecs 5 := by
    decide +kernel
  let first : Splice := {
    watch := {
      watchdog := { idle := some (fromMillis U64_MAX) }, elapsed := fromSecs 5,
      activity := { toRemote := { bytes := 1, lastAtMillis := 1 } }
      clock := { sinceMillis := some 1 }, nextTick := fromSecs 10 } }
  have hfirst : Splice.step.run (.start { idle := some (fromMillis U64_MAX) })
      [.elapse (fromMillis 1), .outbound (.read [1]), .outbound (.wrote 1), .outbound .flushed,
        .elapse (fromMillis 4999), .tick] = some first := by decide +kernel
  have hcalm (elapsed : Nat) : first.watch.watchdog.tripped first.watch.clock
      first.watch.activity elapsed = (first.watch.clock, none) := by
    have hmax := asMillis_le_max elapsed
    have hidle := asMillis_fromMillis (Nat.le_refl U64_MAX)
    have hpos : 0 < U64_MAX := by decide
    have hlate : ¬asMillis (fromMillis U64_MAX) ≤ asMillis elapsed - 1 := by omega
    change (StallClock.mk (some 1), Watchdog.idled { idle := some (fromMillis U64_MAX) }
      (asMillis elapsed) 1) = _
    rw [Watchdog.idled]
    simp only [if_neg hlate]
    rfl
  have hquiet := LwdMixnet.run_quiet first.watch rfl (by rw [hperiod]; decide) hcalm (2 ^ 64)
  rw [show first.watch.watchdog.checkPeriod = fromSecs 5 from hperiod] at hquiet
  refine ⟨_, Machine.run_trans hfirst (Splice.run_quiet rfl hquiet rfl), rfl, rfl, ?_⟩
  change fromSecs 5 + 2 ^ 64 * fromSecs 5 = _
  unfold fromSecs
  omega

-- The millisecond of a movement begins before it, and a clock of milliseconds ends.
theorem reaped_to_the_millisecond :
    (¬∀ (watchdog : Watchdog) (idle : Nat) (events : List SpliceEvent) (splice : Splice)
      (transfer : Transfer), watchdog.idle = some idle →
      Splice.step.run (.start watchdog) events = some splice →
      splice.ended = some (transfer, .Idle idle) →
      ∀ move ∈ Splice.recorded watchdog events, move.instant + idle ≤ splice.watch.elapsed) ∧
    ¬∀ (watchdog : Watchdog) (idle : Nat) (events : List SpliceEvent) (splice : Splice),
      watchdog.idle = some idle → Splice.step.run (.start watchdog) events = some splice →
      splice.ended = none → splice.watch.elapsed ≤
        lastMoved (Splice.recorded watchdog events) + idle + watchdog.checkPeriod := by
  constructor
  · intro hclaim
    obtain ⟨splice, hr, hended⟩ : ∃ splice,
        Splice.step.run (.start { idle := some (fromMillis 400) }) afterTick = some splice ∧
        (splice.watch.elapsed, splice.ended) =
          (fromMillis 500, some (⟨1, 0⟩, .Idle (fromMillis 400))) :=
      Option.map_eq_some_iff.mp (by decide +kernel)
    obtain ⟨helapsed, hended⟩ := Prod.mk.inj hended
    have hmoved := hclaim _ (fromMillis 400) afterTick splice _ rfl hr hended
      ⟨.outbound, 100500000⟩ (by decide +kernel)
    rw [helapsed] at hmoved
    exact absurd hmoved (by decide)
  · intro hclaim
    obtain ⟨splice, hr, hrunning, hlatest, helapsed⟩ := beyondReaper_running
    have hbound := hclaim _ (fromMillis U64_MAX) beyondReaper splice rfl hr hrunning
    have hperiod : Watchdog.checkPeriod { idle := some (fromMillis U64_MAX) } = fromSecs 5 := by
      decide +kernel
    have hmoved : lastMoved (Splice.recorded _ beyondReaper) < fromMillis 2 :=
      lt_of_asMillis_le ((splice_latest hr).symm.trans hlatest).le (by decide)
    rw [helapsed, hperiod] at hbound
    have hlate : fromMillis 2 + fromMillis U64_MAX + fromSecs 5 < fromSecs (5 * (2 ^ 64 + 1)) := by
      decide
    omega

end LwdMixnet
