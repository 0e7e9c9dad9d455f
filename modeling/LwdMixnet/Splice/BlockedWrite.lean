import LwdMixnet.Splice.Discovery
import LwdMixnet.Splice.Loop

namespace LwdMixnet

theorem unanswered_append {first second : List WatchEvent} {move : Move}
    (hu : Unanswered (moves first) move) (hno : ∀ count, .moved .inbound count ∉ second) :
    Unanswered (moves (first ++ second)) move := by
  refine ⟨moves_append_left hu.1 second, hu.2.1, ?_⟩
  intro answer ha hin
  rw [moves, Machine.timed_append, List.filterMap_append] at ha
  rcases List.mem_append.mp ha with ha | ha
  · exact hu.2.2 answer ha hin
  · obtain ⟨⟨instant, event⟩, ht, hrecorded⟩ := List.mem_filterMap.mp ha
    cases event with
    | moved way count =>
        obtain rfl := Option.some.inj hrecorded
        obtain rfl : way = .inbound := hin
        exact absurd (Machine.mem_of_timed WatchEvent.delay ht) (hno count)
    | elapse _ | tick => cases hrecorded

-- Only a flush that the inbound pump waited for records an answer.
theorem mem_watched {splice : Splice} {events : List SpliceEvent} {count : Nat}
    (h : .moved .inbound count ∈ splice.watched events) :
    ∃ before after state, events = before ++ .inbound .flushed :: after ∧
      Splice.step.run splice before = some state ∧ state.inbound = .flushing count := by
  obtain ⟨before, event, after, state, he, hr, hm⟩ := Machine.mem_views h
  cases event with
  | outbound io =>
      obtain ⟨read, -, heq⟩ := List.mem_map.mp hm
      cases heq
  | inbound io =>
      obtain ⟨read, hrecorded, heq⟩ := List.mem_map.mp hm
      cases heq
      have hflush : state.inbound = .flushing count ∧ io = .flushed := by
        cases hp : state.inbound <;> cases io <;> simp_all [Pump.recorded]
      obtain ⟨hp, rfl⟩ := hflush
      exact ⟨before, after, state, he, hr, hp⟩
  | elapse time => simp [Splice.view] at hm
  | tick => simp [Splice.view] at hm

-- A pump that reads nothing stays in its read.
theorem inbound_reading {splice last : Splice} {events : List SpliceEvent}
    (hr : Splice.step.run splice events = some last) (hreading : splice.inbound = .reading)
    (hsilent : ∀ bytes, .inbound (.read bytes) ∈ events → bytes = []) :
    last.inbound = .reading ∨ ∃ result, last.inbound = .returned result := by
  refine Machine.run_history (fun events last =>
    (∀ bytes, .inbound (.read bytes) ∈ events → bytes = []) →
      last.inbound = .reading ∨ ∃ result, last.inbound = .returned result)
    (fun _ => Or.inl hreading) ?_ hr hsilent
  intro events state event next _ hholds hs hsilent
  have hi := hholds fun bytes hm => hsilent bytes (List.mem_append_left _ hm)
  obtain ⟨-, ⟨io, pump, watch, rfl, -, -, rfl⟩ | ⟨io, pump, watch, rfl, hp, -, rfl⟩ |
    ⟨time, watch, rfl, -, rfl⟩ | ⟨watch, rfl, -, rfl⟩⟩ := Splice.step_cases hs
  · exact hi
  · rcases hi with hi | ⟨result, hi⟩
    · rw [hi] at hp
      obtain ⟨error, -, rfl⟩ | ⟨-, -, rfl⟩ | ⟨chunk, -, rfl, hne, -⟩ | ⟨_, _, _, he, -⟩ |
        ⟨_, he, -⟩ := Pump.step_cases hp
      · exact Or.inr ⟨_, rfl⟩
      · exact Or.inr ⟨_, rfl⟩
      · exact absurd (hsilent chunk (by simp)) hne
      · cases he
      · cases he
    · rw [hi] at hp
      simp [Pump.step] at hp
  · exact hi
  · exact hi

-- A tick of an execution, in the state `due` before it, later than the start of
-- the execution and within a period of it.
def TickWithin (period : Nat) (splice : Splice) (events after : List SpliceEvent)
    (due : Splice) : Prop :=
  ∃ before, events = before ++ .tick :: after ∧ Splice.step.run splice before = some due ∧
    splice.watch.elapsed < due.watch.elapsed ∧
    due.watch.elapsed ≤ splice.watch.elapsed + period

-- At that tick a write is outstanding, and what the inbound pump had read before
-- is not passed on later.
def Noticed (period : Nat) (splice : Splice) (events : List SpliceEvent) : Prop :=
  ∀ after due, TickWithin period splice events after due →
    (outstanding due.watch.activity.toRemote.movedAt
      due.watch.activity.fromRemote.movedAt).isSome ∧
    (due.inbound = .reading ∨ .inbound .flushed ∉ after)

theorem TickWithin.concat {period : Nat} {splice due : Splice} {events after : List SpliceEvent}
    (h : TickWithin period splice events after due) (event : SpliceEvent) :
    TickWithin period splice (events ++ [event]) (after ++ [event]) due := by
  obtain ⟨before, rfl, hrest⟩ := h
  exact ⟨before, by simp, hrest⟩

theorem no_answer {splice last : Splice} {events : List SpliceEvent}
    (hr : Splice.step.run splice events = some last)
    (hsilent : ∀ bytes, .inbound (.read bytes) ∈ events → bytes = [])
    (hnothing : splice.inbound = .reading ∨ .inbound .flushed ∉ events) (count : Nat) :
    .moved .inbound count ∉ splice.watched events := by
  intro hm
  obtain ⟨before, after, state, rfl, hb, hflushing⟩ := mem_watched hm
  rcases hnothing with hreading | hno
  · have hstays := inbound_reading hb hreading fun bytes hm =>
      hsilent bytes (List.mem_append_left _ hm)
    rw [hflushing] at hstays
    obtain he | ⟨result, he⟩ := hstays <;> cases he
  · exact hno (by simp)

theorem Watch.nextTick_of_no_tick {watch last : Watch} {events : List WatchEvent}
    (hr : Watch.step.run watch events = some last) (hno : .tick ∉ events) :
    last.nextTick = watch.nextTick := by
  refine Machine.run_history (fun events last =>
    .tick ∉ events → last.nextTick = watch.nextTick) (fun _ => rfl) ?_ hr hno
  intro events state event next _ hholds hs hno
  have hi := hholds fun hm => hno (List.mem_append_left _ hm)
  obtain ⟨-, ⟨_, _, rfl, -, rfl⟩ | ⟨_, rfl, -, rfl⟩ | ⟨rfl, -⟩⟩ := Watch.step_cases hs
  · exact hi
  · exact hi
  · simp at hno

theorem Splice.nextTick_of_ne {splice next : Splice} {event : SpliceEvent}
    (hs : splice.step event = some next) (hne : event ≠ .tick) :
    next.watch.nextTick = splice.watch.nextTick := by
  refine Watch.nextTick_of_no_tick (Splice.step_view hs) fun hm => ?_
  cases event with
  | outbound io | inbound io =>
      obtain ⟨read, -, heq⟩ := List.mem_map.mp hm
      cases heq
  | elapse time => simp [Splice.view] at hm
  | tick => exact hne rfl

-- A splice that goes on for longer than a period came through such a tick.
theorem tick_within {watchdog : Watchdog} {before events : List SpliceEvent}
    {state last : Splice} (hbefore : Splice.step.run (.start watchdog) before = some state)
    (hr : Splice.step.run state events = some last)
    (hpast : state.watch.elapsed + watchdog.checkPeriod < last.watch.nextTick) :
    ∃ after due, TickWithin watchdog.checkPeriod state events after due ∧
      due.watch.elapsed = due.watch.nextTick := by
  refine Machine.run_history (fun events last =>
    state.watch.elapsed + watchdog.checkPeriod < last.watch.nextTick →
    ∃ after due, TickWithin watchdog.checkPeriod state events after due ∧
      due.watch.elapsed = due.watch.nextTick) ?_ ?_ hr hpast
  · intro hlt
    obtain ⟨hlo, -, hnext, -⟩ := (traced (Splice.run_view hbefore)).lastTick
    omega
  · intro events middle event next hrun hholds hs hlt
    by_cases hearlier : state.watch.elapsed + watchdog.checkPeriod < middle.watch.nextTick
    · obtain ⟨after, due, hwithin, hdue⟩ := hholds hearlier
      exact ⟨after ++ [event], due, hwithin.concat event, hdue⟩
    by_cases htick : event = .tick
    · subst htick
      have hwhole : Splice.step.run (.start watchdog) (before ++ events) = some middle :=
        Machine.run_trans hbefore hrun
      have hdog := (traced (Splice.run_view hwhole)).configured
      obtain ⟨-, ⟨_, _, _, he, -⟩ | ⟨_, _, _, he, -⟩ | ⟨_, _, he, -⟩ | ⟨watch, -, hw, rfl⟩⟩ :=
        Splice.step_cases hs
      · cases he
      · cases he
      · cases he
      obtain ⟨-, ⟨_, _, he, -⟩ | ⟨_, he, -⟩ | ⟨-, heq, rfl⟩⟩ := Watch.step_cases hw
      · cases he
      · cases he
      simp only [hdog] at hlt
      exact ⟨[], middle, ⟨events, rfl, hrun, by omega, by omega⟩, heq⟩
    · exact absurd (Splice.nextTick_of_ne hs htick ▸ hlt) hearlier

-- A write that is outstanding at the tick within a period of the read, and stays
-- so, ends the splice in time for the bytes that were read.
theorem blocked_write_discovered (stall : Nat) (before rest : List SpliceEvent)
    (chunk : Bytes) (state last : Splice)
    (hread : Splice.step.run (.start { stall := some stall }) before = some state)
    (hr : Splice.step.run state (.outbound (.read chunk) :: rest) = some last)
    (hsilent : ∀ bytes, .inbound (.read bytes) ∈ rest → bytes = [])
    (hnoticed : Noticed (Watchdog.checkPeriod { stall := some stall }) state
      (.outbound (.read chunk) :: rest))
    (hfits : (state.watch.elapsed + Watchdog.checkPeriod { stall := some stall } + stall) / MILLI
      ≤ U64_MAX)
    (hrunning : last.ended = none) :
    last.watch.elapsed ≤
      state.watch.elapsed + stall + 2 * Watchdog.checkPeriod { stall := some stall } := by
  have hrun : Splice.step.run (.start { stall := some stall })
      (before ++ .outbound (.read chunk) :: rest) = some last :=
    Machine.run_trans hread hr
  have hnow := (traced (Splice.run_view hrun)).lastTick.2.1
  rcases Nat.lt_or_ge (state.watch.elapsed + Watchdog.checkPeriod { stall := some stall })
    last.watch.nextTick with hpast | hpast
  · obtain ⟨after, due, hwithin, htick⟩ := tick_within hread hr hpast
    obtain ⟨hout, hnothing⟩ := hnoticed after due hwithin
    obtain ⟨middle, he, hdue, -, hhi⟩ := hwithin
    rw [he] at hr hrun
    obtain ⟨_, hsame, hafter⟩ := Machine.run_append_some hr
    obtain rfl := Option.some.inj (hdue.symm.trans hsame)
    have hbefore : Splice.step.run (.start { stall := some stall }) (before ++ middle) =
        some due := Machine.run_trans hread hdue
    have hwatch := Splice.run_view hbefore
    have ht := traced hwatch
    obtain ⟨wrote, hwrote⟩ := Option.isSome_iff_exists.mp hout
    rw [ht.wrote, ht.heard] at hwrote
    obtain ⟨move, hmove, -⟩ := outstanding_some (moves_chronological _) hwrote
    have hquiet : ∀ bytes, .inbound (.read bytes) ∈ SpliceEvent.tick :: after → bytes = [] := by
      intro bytes hm
      have hin := List.mem_append_right middle hm
      rw [← he] at hin
      exact hsilent bytes (by simpa using hin)
    have hanswer := no_answer hafter hquiet (by simpa using hnothing)
    rw [← List.append_assoc] at hrun
    have hlast := Splice.run_view hrun
    rw [Machine.views_append _ _ hbefore] at hlast
    have hbound := (awaited rfl hwatch hmove.1 (htick ▸ hhi) hlast
      (unanswered_append hmove hanswer) (Splice.watching hrun hrunning)).bound (traced hlast)
      ((Nat.div_le_div_right (by omega)).trans hfits)
    omega
  · omega

-- A request that reaches the remote at once, and no answer to it.
def askedInTime : List SpliceEvent :=
  [.outbound (.read [1]), .outbound (.wrote 1), .outbound .flushed, .elapse (fromMillis 240),
    .tick, .elapse (fromMillis 250)]

theorem asked_in_time_discovered : ∃ state last,
    Splice.step.run (.start { stall := some (fromSecs 1) }) [.elapse (fromMillis 10)] =
      some state ∧
    Splice.step.run state askedInTime = some last ∧ last.ended = none ∧
    last.watch.elapsed = fromMillis 500 ∧
    last.watch.elapsed ≤ state.watch.elapsed + fromSecs 1 + 2 * fromMillis 250 := by
  obtain ⟨state, hread, hstate⟩ : ∃ state,
      Splice.step.run (.start { stall := some (fromSecs 1) }) [.elapse (fromMillis 10)] =
        some state ∧
      state = { Splice.start { stall := some (fromSecs 1) } with
        watch := { Watch.start { stall := some (fromSecs 1) } with elapsed := fromMillis 10 } } :=
    ⟨_, rfl, rfl⟩
  obtain ⟨last, hr, he⟩ : ∃ last, Splice.step.run state askedInTime = some last ∧
      (last.watch.elapsed, last.ended) = (fromMillis 500, none) := by
    rw [hstate]
    exact Option.map_eq_some_iff.mp (by decide +kernel)
  obtain ⟨hel, hrunning⟩ := Prod.mk.inj he
  have hnoticed : Noticed (fromMillis 250) state askedInTime := by
    rintro after due ⟨before, hsplit, hdue, -⟩
    obtain ⟨rfl, -, rfl⟩ := (List.append_cons_inj_of_notMem (by decide) (by decide)).mp
      (show [.outbound (.read [1]), .outbound (.wrote 1), .outbound .flushed,
        .elapse (fromMillis 240)] ++ SpliceEvent.tick :: [.elapse (fromMillis 250)] = _ from hsplit)
    rw [hstate] at hdue
    obtain rfl := Option.some.inj hdue
    decide +kernel
  have hbound := blocked_write_discovered (fromSecs 1) [.elapse (fromMillis 10)]
    (askedInTime.drop 1) [1] state last hread hr (by simp [askedInTime]) hnoticed
    (by rw [hstate]; decide) hrunning
  exact ⟨state, last, hread, hr, hrunning, hel, hbound⟩

-- The wallet's request is read at 1 s and the remote's writer never takes it.
def neverTaken : List SpliceEvent :=
  [.elapse (fromSecs 1), .outbound (.read [1]), .elapse (fromSecs 4), .tick] ++
    (List.replicate 19 [.elapse (fromSecs 5), .tick]).flatten

theorem blocked_write_hangs :
    (Splice.step.run (.start { stall := some (fromSecs 60) }) neverTaken).map
      (fun splice => (splice.watch.elapsed, splice.ended)) = some (fromSecs 100, none) ∧
    fromSecs 1 + fromSecs 60 + 2 * Watchdog.checkPeriod { stall := some (fromSecs 60) } <
      fromSecs 100 := by
  decide +kernel

end LwdMixnet
