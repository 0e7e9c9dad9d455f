import LwdMixnet.Splice.Pump
import LwdMixnet.Splice.Watchdog

namespace LwdMixnet

-- `splice` over a local and a remote end: the two pumps, and the watchdog they
-- record their movements with.
structure Splice where
  watch : Watch
  outbound : Pump := .reading
  inbound : Pump := .reading
  ended : Option (Transfer × Ended) := none
  deriving DecidableEq, Repr

inductive SpliceEvent
  | outbound (event : IoEvent)
  | inbound (event : IoEvent)
  | elapse (time : Nat)
  | tick
  deriving DecidableEq, Repr

def ended : Except IoError Unit → Ended
  | .ok () => .Closed
  | .error error => .Failed error

def Splice.start (watchdog : Watchdog) : Splice where
  watch := .start watchdog

def Splice.pump (splice : Splice) : Way → Pump
  | .outbound => splice.outbound
  | .inbound => splice.inbound

-- What the watchdog sees of a pump's event.
def Pump.records (pump : Pump) (way : Way) (event : IoEvent) : List WatchEvent :=
  (pump.recorded event).toList.map (.moved way)

def Splice.view (splice : Splice) : SpliceEvent → List WatchEvent
  | .outbound event => splice.outbound.records .outbound event
  | .inbound event => splice.inbound.records .inbound event
  | .elapse time => [.elapse time]
  | .tick => [.tick]

def Splice.step : Machine Splice SpliceEvent := fun splice event =>
  if splice.ended.isSome then none else
  match event with
  | .outbound event => do
      let outbound ← splice.outbound.step event
      let watch ← Watch.step.run splice.watch (splice.outbound.records .outbound event)
      some { splice with
        watch, outbound
        ended := outbound.result.map fun result =>
          (watch.activity.transfer, LwdMixnet.ended result) }
  | .inbound event => do
      let inbound ← splice.inbound.step event
      let watch ← Watch.step.run splice.watch (splice.inbound.records .inbound event)
      some { splice with
        watch, inbound
        ended := inbound.result.map fun result =>
          (watch.activity.transfer, LwdMixnet.ended result) }
  | .elapse time => do
      let watch ← Watch.step splice.watch (.elapse time)
      some { splice with watch }
  | .tick => do
      let watch ← Watch.step splice.watch .tick
      some { splice with
        watch
        ended := watch.ended.map fun reason => (watch.activity.transfer, reason) }

def SpliceEvent.delay : SpliceEvent → Nat
  | .elapse time => time
  | _ => 0

-- The bytes an event moves at the local end and at the remote one.
def Splice.localEnd (splice : Splice) (duplex : Duplex) : SpliceEvent → Duplex
  | .outbound event => duplex.move event.taken []
  | .inbound event => duplex.move [] (splice.inbound.given event)
  | _ => duplex

def Splice.remoteEnd (splice : Splice) (duplex : Duplex) : SpliceEvent → Duplex
  | .outbound event => duplex.move [] (splice.outbound.given event)
  | .inbound event => duplex.move event.taken []
  | _ => duplex

theorem Splice.localEnd_after (splice : Splice) (duplex before : Duplex) (event : SpliceEvent) :
    splice.localEnd (duplex.after before) event = (splice.localEnd duplex event).after before := by
  cases event <;> simp [Splice.localEnd, Duplex.move_after]

theorem Splice.remoteEnd_after (splice : Splice) (duplex before : Duplex) (event : SpliceEvent) :
    splice.remoteEnd (duplex.after before) event =
      (splice.remoteEnd duplex event).after before := by
  cases event <;> simp [Splice.remoteEnd, Duplex.move_after]

-- Everything a step can do.
theorem Splice.step_cases {splice next : Splice} {event : SpliceEvent}
    (h : splice.step event = some next) :
    splice.ended = none ∧
    ((∃ io pump watch, event = .outbound io ∧ splice.outbound.step io = some pump ∧
        Watch.step.run splice.watch (splice.outbound.records .outbound io) = some watch ∧
        next = { splice with
          watch, outbound := pump
          ended := pump.result.map fun result =>
            (watch.activity.transfer, LwdMixnet.ended result) }) ∨
      (∃ io pump watch, event = .inbound io ∧ splice.inbound.step io = some pump ∧
        Watch.step.run splice.watch (splice.inbound.records .inbound io) = some watch ∧
        next = { splice with
          watch, inbound := pump
          ended := pump.result.map fun result =>
            (watch.activity.transfer, LwdMixnet.ended result) }) ∨
      (∃ time watch, event = .elapse time ∧ splice.watch.step (.elapse time) = some watch ∧
        next = { splice with watch }) ∨
      (∃ watch, event = .tick ∧ splice.watch.step .tick = some watch ∧
        next = { splice with
          watch, ended := watch.ended.map fun reason => (watch.activity.transfer, reason) })) := by
  unfold Splice.step at h
  split at h
  · cases h
  rename_i hended
  refine ⟨by simpa using hended, ?_⟩
  cases event with
  | outbound io =>
      obtain ⟨pump, hp, h⟩ := Option.bind_eq_some_iff.mp h
      obtain ⟨watch, hw, h⟩ := Option.bind_eq_some_iff.mp h
      exact Or.inl ⟨io, pump, watch, rfl, hp, hw, (Option.some.inj h).symm⟩
  | inbound io =>
      obtain ⟨pump, hp, h⟩ := Option.bind_eq_some_iff.mp h
      obtain ⟨watch, hw, h⟩ := Option.bind_eq_some_iff.mp h
      exact Or.inr (Or.inl ⟨io, pump, watch, rfl, hp, hw, (Option.some.inj h).symm⟩)
  | elapse time =>
      obtain ⟨watch, hw, h⟩ := Option.bind_eq_some_iff.mp h
      exact Or.inr (Or.inr (Or.inl ⟨time, watch, rfl, hw, (Option.some.inj h).symm⟩))
  | tick =>
      obtain ⟨watch, hw, h⟩ := Option.bind_eq_some_iff.mp h
      exact Or.inr (Or.inr (Or.inr ⟨watch, rfl, hw, (Option.some.inj h).symm⟩))

-- The splice as its watchdog sees it.
theorem Splice.step_view {splice next : Splice} {event : SpliceEvent}
    (h : splice.step event = some next) :
    Watch.step.run splice.watch (splice.view event) = some next.watch := by
  obtain ⟨-, ⟨io, pump, watch, rfl, -, hw, rfl⟩ | ⟨io, pump, watch, rfl, -, hw, rfl⟩ |
    ⟨time, watch, rfl, hw, rfl⟩ | ⟨watch, rfl, hw, rfl⟩⟩ := Splice.step_cases h
  · exact hw
  · exact hw
  · simp [Splice.view, Machine.run_cons, hw]
  · simp [Splice.view, Machine.run_cons, hw]

-- The watchdog's events of an execution of the splice.
abbrev Splice.watched (splice : Splice) (events : List SpliceEvent) : List WatchEvent :=
  Splice.step.views Splice.view splice events

theorem Splice.run_view {splice last : Splice} {events : List SpliceEvent}
    (hr : Splice.step.run splice events = some last) :
    Watch.step.run splice.watch (Splice.step.views Splice.view splice events) =
      some last.watch :=
  Machine.run_simulates Splice.watch (fun _ _ _ => Splice.step_view) hr

theorem Pump.delay_records (pump : Pump) (way : Way) (io : IoEvent) :
    Machine.duration WatchEvent.delay (pump.records way io) = 0 := by
  unfold Pump.records
  cases pump.recorded io <;> rfl

theorem Splice.delay_view (splice : Splice) (event : SpliceEvent) :
    Machine.duration WatchEvent.delay (splice.view event) = event.delay := by
  cases event with
  | outbound io | inbound io => exact Pump.delay_records _ _ io
  | elapse time => simp [Splice.view, Machine.duration, WatchEvent.delay, SpliceEvent.delay]
  | tick => rfl

-- A pump tells the watchdog of its bytes at most once an event.
theorem Pump.records_cases {pump : Pump} {way : Way} {io : IoEvent} {watch next : Watch}
    (h : Watch.step.run watch (pump.records way io) = some next) :
    (pump.recorded io = none ∧ next = watch) ∨
    ∃ count, pump.recorded io = some count ∧ Watch.step watch (.moved way count) = some next := by
  unfold Pump.records at h
  cases hrecorded : pump.recorded io with
  | none =>
      rw [hrecorded] at h
      exact Or.inl ⟨rfl, (Option.some.inj h).symm⟩
  | some count =>
      rw [hrecorded] at h
      obtain ⟨middle, hs, hr⟩ := Option.bind_eq_some_iff.mp h
      obtain rfl := Option.some.inj hr
      exact Or.inr ⟨count, rfl, hs⟩

theorem Pump.ended_records {pump : Pump} {way : Way} {io : IoEvent} {watch next : Watch}
    (h : Watch.step.run watch (pump.records way io) = some next) : next.ended = watch.ended := by
  obtain ⟨-, rfl⟩ | ⟨count, -, hs⟩ := Pump.records_cases h
  · rfl
  · rw [Watch.going_on hs (by simp), (Watch.step_cases hs).1]

theorem Splice.step_elapsed {splice next : Splice} {event : SpliceEvent}
    (h : splice.step event = some next) :
    next.watch.elapsed = splice.watch.elapsed + event.delay := by
  have hclock := Machine.run_clock WatchEvent.delay Watch.elapsed ?_ (Splice.step_view h)
  · rw [hclock, Splice.delay_view]
  · intro watch event next hs
    obtain ⟨-, ⟨_, _, rfl, -, rfl⟩ | ⟨_, rfl, -, rfl⟩ | ⟨rfl, -, rfl⟩⟩ := Watch.step_cases hs
    all_goals simp [WatchEvent.delay]

-- A splice that goes on has a watchdog that has not tripped.
theorem Splice.step_watching {splice next : Splice} {event : SpliceEvent}
    (h : splice.step event = some next) (hwatching : splice.watch.ended = none)
    (hended : next.ended = none) : next.watch.ended = none := by
  obtain ⟨-, ⟨io, pump, watch, rfl, -, hw, rfl⟩ | ⟨io, pump, watch, rfl, -, hw, rfl⟩ |
    ⟨time, watch, rfl, hw, rfl⟩ | ⟨watch, rfl, -, rfl⟩⟩ := Splice.step_cases h
  · exact (Pump.ended_records hw).trans hwatching
  · exact (Pump.ended_records hw).trans hwatching
  · exact Watch.going_on hw (by simp)
  · exact Option.map_eq_none_iff.mp hended

theorem Splice.watching {watchdog : Watchdog} {events : List SpliceEvent} {splice : Splice}
    (hr : Splice.step.run (.start watchdog) events = some splice)
    (hended : splice.ended = none) : splice.watch.ended = none := by
  refine Machine.run_invariant (fun splice => splice.ended = none →
    splice.watch.ended = none) ?_ (fun _ => rfl) hr hended
  intro splice event next hholds hs hnext
  exact Splice.step_watching hs (hholds (Splice.step_cases hs).1) hnext

-- A splice is ended by a pump, or by a tick.
theorem Splice.ended_cases {splice last : Splice} {event : SpliceEvent} {transfer : Transfer}
    {reason : Ended} (hs : splice.step event = some last)
    (hended : last.ended = some (transfer, reason)) :
    (∃ result, reason = LwdMixnet.ended result) ∨
    (event = .tick ∧ splice.watch.elapsed = splice.watch.nextTick ∧
      last.watch.elapsed = splice.watch.elapsed ∧
      (splice.watch.watchdog.tripped splice.watch.clock splice.watch.activity
        splice.watch.elapsed).2 = some reason) := by
  obtain ⟨hnone, ⟨io, pump, watch, rfl, -, -, rfl⟩ | ⟨io, pump, watch, rfl, -, -, rfl⟩ |
    ⟨time, watch, rfl, -, rfl⟩ | ⟨watch, rfl, hw, rfl⟩⟩ := Splice.step_cases hs
  · obtain ⟨result, -, he⟩ := Option.map_eq_some_iff.mp hended
    exact Or.inl ⟨result, (Prod.mk.inj he).2.symm⟩
  · obtain ⟨result, -, he⟩ := Option.map_eq_some_iff.mp hended
    exact Or.inl ⟨result, (Prod.mk.inj he).2.symm⟩
  · rw [hnone] at hended
    cases hended
  · obtain ⟨-, ⟨_, _, he, -⟩ | ⟨_, he, -⟩ | ⟨-, hdue, rfl⟩⟩ := Watch.step_cases hw
    · cases he
    · cases he
    · obtain ⟨verdict, htripped, he⟩ := Option.map_eq_some_iff.mp hended
      obtain rfl := (Prod.mk.inj he).2
      exact Or.inr ⟨rfl, hdue, rfl, htripped⟩

-- Both directions conserve their bytes over every execution: what the remote
-- took starts what was read locally, and the other way round.
structure Splice.Conserves (splice : Splice) (near far : Duplex) : Prop where
  outbound : splice.outbound.Conserves near.consumed far.accepted
  inbound : splice.inbound.Conserves far.consumed near.accepted

theorem Splice.Conserves.step {splice next : Splice} {event : SpliceEvent} {near far : Duplex}
    (h : splice.Conserves near far) (hs : splice.step event = some next) :
    next.Conserves (splice.localEnd near event) (splice.remoteEnd far event) := by
  obtain ⟨ho, hi⟩ := h
  obtain ⟨-, ⟨io, pump, watch, rfl, hp, -, rfl⟩ | ⟨io, pump, watch, rfl, hp, -, rfl⟩ |
    ⟨time, watch, rfl, -, rfl⟩ | ⟨watch, rfl, -, rfl⟩⟩ := Splice.step_cases hs
  · refine ⟨ho.step hp, ?_⟩
    simpa [Splice.localEnd, Splice.remoteEnd] using hi
  · refine ⟨?_, hi.step hp⟩
    simpa [Splice.localEnd, Splice.remoteEnd] using ho
  · exact ⟨ho, hi⟩
  · exact ⟨ho, hi⟩

theorem Splice.start_conserves (watchdog : Watchdog) : (Splice.start watchdog).Conserves {} {} :=
  ⟨rfl, rfl⟩

end LwdMixnet
