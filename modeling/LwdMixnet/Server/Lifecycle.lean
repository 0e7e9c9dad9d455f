import LwdMixnet.Server

namespace LwdMixnet

-- What the phases say of the report and of the tasks.
def ServerMain.Standing (main : ServerMain) : Prop :=
  match main.phase with
  | .binding _ | .connecting _ =>
      main.report.Holds .Starting ∧ main.listener.tasks = [] ∧ main.listener.streams = []
  | .listening =>
      main.report.Holds .Registered ∧ main.listener.tasks = [] ∧ main.listener.streams = []
  | .accepting | .draining _ | .returned (.ok _) => main.report.Holds .Serving
  | .returned (.error _) => (∃ state ≠ .Serving, main.report.Holds state) ∧
      main.listener.tasks = [] ∧ main.listener.streams = []

section

variable {arguments : ServerArguments} {main next last : ServerMain} {event : ServerEvent}
  {events : List ServerEvent}

-- No task does anything before one was spawned.
theorem Listener.step_idle {settings : ServeSettings} {listener : Listener}
    {taken : ListenerEvent} (hnone : listener.tasks = []) (htask : taken.ofTask) :
    listener.step settings taken = none := by
  cases taken with
  | polled _ | serve _ _ | unwound _ | released _ => simp [Listener.step, hnone]
  | arrived | aborted _ | reaped _ | stopped => cases htask

theorem Listener.step_task {settings : ServeSettings} {listener after : Listener}
    {taken : ListenerEvent} (htask : taken.ofTask)
    (hs : listener.step settings taken = some after) :
    after.tasks.length = listener.tasks.length ∧ after.streams = listener.streams := by
  obtain ⟨rfl, -⟩ | ⟨id, -, -, rfl⟩ | ⟨id, _, _, _, _, -, -, -, rfl⟩ | ⟨id, _, -, -, -, rfl⟩ |
    ⟨id, _, -, -, rfl⟩ | ⟨id, rfl, -⟩ | ⟨rfl, -⟩ := Listener.step_cases hs
  · cases htask
  · exact ⟨List.length_set, rfl⟩
  · exact ⟨List.length_set, rfl⟩
  · exact ⟨List.length_set, rfl⟩
  · exact ⟨List.length_set, rfl⟩
  · cases htask
  · cases htask

theorem Listener.step_joined {settings : ServeSettings} {listener after : Listener} {id : TaskId}
    (hs : listener.step settings (.reaped id) = some after) :
    id ∈ listener.streams ∧
      after = { listener with streams := listener.streams.erase id } := by
  simp only [Listener.step] at hs
  split_ifs at hs with hended
  exact ⟨hended.2, (Option.some.inj hs).symm⟩

theorem ServerMain.Standing.starting (h : main.Standing) (hstarting : main.phase.starting) :
    main.listener.tasks = [] ∧ main.listener.streams = [] ∧
      ∃ state ≠ .Serving, main.report.Holds state := by
  unfold ServerMain.Standing at h
  cases hphase : main.phase with
  | binding _ | connecting _ =>
      rw [hphase] at h
      exact ⟨h.2.1, h.2.2, _, by decide, h.1⟩
  | listening =>
      rw [hphase] at h
      exact ⟨h.2.1, h.2.2, _, by decide, h.1⟩
  | accepting | draining _ | returned _ =>
      rw [hphase] at hstarting
      cases hstarting

theorem ServerMain.Standing.congr (h : main.Standing) (hphase : next.phase = main.phase)
    (hreport : next.report = main.report)
    (hlistener : main.listener.tasks = [] → main.listener.streams = [] →
      next.listener.tasks = [] ∧ next.listener.streams = []) : next.Standing := by
  unfold ServerMain.Standing at h ⊢
  rw [hphase, hreport]
  split at h
  · exact ⟨h.1, hlistener h.2.1 h.2.2⟩
  · exact ⟨h.1, hlistener h.2.1 h.2.2⟩
  · exact ⟨h.1, hlistener h.2.1 h.2.2⟩
  · exact h
  · exact h
  · exact h
  · exact ⟨h.1, hlistener h.2.1 h.2.2⟩

theorem ServerMain.Standing.step (h : main.Standing)
    (hs : main.step arguments event = some next) : next.Standing := by
  obtain ⟨hstarting, -, ⟨error, -, rfl⟩ | ⟨address, hphase, -, rfl⟩ | ⟨deadline, hphase, -, rfl⟩ |
      ⟨hphase, -, rfl⟩⟩ |
    ⟨listener, hphase, -, hlistener, rfl⟩ | ⟨hphase, -, rfl⟩ |
    ⟨id, listener, -, hlistener, ⟨hphase, rfl⟩ | ⟨deadline, hphase, rfl⟩⟩ |
    ⟨deadline, hphase, -, -, rfl⟩ | ⟨taken, listener, -, htask, hlistener, rfl⟩ |
    ⟨observed, endpoint, -, -, rfl⟩ | ⟨time, -, -, rfl⟩ := ServerMain.step_cases hs
  · obtain ⟨htasks, hstreams, hstate⟩ := h.starting hstarting
    exact ⟨hstate, htasks, hstreams⟩
  · unfold ServerMain.Standing at h
    rw [hphase] at h
    exact h
  · unfold ServerMain.Standing at h
    rw [hphase] at h
    exact ⟨h.1.advanceTo .Registered, h.2⟩
  · unfold ServerMain.Standing at h
    rw [hphase] at h
    exact h.1.advanceTo .Serving
  · unfold ServerMain.Standing at h ⊢
    simp only [hphase] at h ⊢
    exact h
  · unfold ServerMain.Standing at h ⊢
    rw [hphase] at h
    unfold ServerMain.drain
    split_ifs <;> exact h
  · unfold ServerMain.Standing at h ⊢
    simp only [hphase] at h ⊢
    exact h
  · unfold ServerMain.Standing at h ⊢
    rw [hphase] at h
    split_ifs <;> exact h
  · unfold ServerMain.Standing at h ⊢
    rw [hphase] at h
    exact h
  · refine h.congr rfl rfl fun hnone _ => ?_
    rw [Listener.step_idle hnone htask] at hlistener
    cases hlistener
  · exact h.congr rfl rfl fun htasks hstreams => ⟨htasks, hstreams⟩
  · exact h.congr rfl rfl fun htasks hstreams => ⟨htasks, hstreams⟩

theorem ServerMain.start_standing (arguments : ServerArguments) :
    (ServerMain.start arguments).Standing := by
  unfold ServerMain.Standing ServerMain.start
  cases arguments.metricsBind with
  | none => exact ⟨rfl, rfl, rfl⟩
  | some address => exact ⟨rfl, rfl, rfl⟩

theorem server_standing
    (hr : (ServerMain.step arguments).run (.start arguments) events = some main) : main.Standing :=
  Machine.run_invariant ServerMain.Standing (fun _ _ _ h hs => h.step hs)
    (ServerMain.start_standing arguments) hr

-- The loop of `main` is one of the library's. A startup that fails is asked to
-- stop with its error, and the set is empty then.

def ServerPhase.loop : ServerPhase → Machine.LoopPhase (Except String Unit)
  | .draining deadline => .draining deadline (.ok ())
  | .returned result => .ended result
  | _ => .accepting

def ServerMain.loop (main : ServerMain) : Machine.Loop (Except String Unit) where
  now := main.now
  phase := main.phase.loop
  spawned := main.listener.tasks.length
  set := main.listener.streams

def ServerMain.result (main : ServerMain) : Option (Except String Unit) :=
  match main.phase with
  | .returned result => some result
  | _ => none

def ServerMain.toLoop (arguments : ServerArguments) (main : ServerMain) (event : ServerEvent) :
    List (Machine.LoopEvent (Except String Unit)) :=
  match event with
  | .accepted => if 0 < main.listener.capacity then [.spawn] else []
  | .joined id => [.join id]
  | .closed | .askedToStop => [.stop (.ok ())]
  | .graceOver => [.expire]
  | .elapse time => [.elapse time]
  | .task _ | .endpoint _ => []
  | event => ((main.step arguments event).bind ServerMain.result).toList.map .stop

theorem ServerPhase.loop_starting {phase : ServerPhase} (h : phase.starting) :
    phase.loop = .accepting := by
  cases phase <;> first | rfl | cases h

theorem ServerPhase.loop_allows {phase : ServerPhase} {instant : Nat} (h : phase.allows instant) :
    phase.loop.allows instant := by
  cases phase with
  | binding _ | connecting _ | listening | accepting => rfl
  | draining _ => exact h
  | returned _ => cases h

theorem ServerMain.toLoop_starts (hstarts : event.starts)
    (hs : main.step arguments event = some next) :
    main.toLoop arguments event = next.result.toList.map .stop := by
  cases event with
  | bound _ | connected _ | gatewayTimedOut | listenerTaken _ => simp [ServerMain.toLoop, hs]
  | accepted | closed | task _ | joined _ | askedToStop | graceOver | endpoint _ | elapse _ =>
      cases hstarts

theorem ServerMain.step_loop (h : main.Standing) (hs : main.step arguments event = some next) :
    (Machine.Loop.step arguments.grace).run main.loop (main.toLoop arguments event) =
      some next.loop := by
  have hloop {phase : Machine.LoopPhase (Except String Unit)} (hphase : main.phase.loop = phase) :
      main.loop = ⟨main.now, phase, main.listener.tasks.length, main.listener.streams⟩ := by
    rw [ServerMain.loop, hphase]
  obtain ⟨hstarting, hstarts, hnext⟩ | ⟨listener, hphase, rfl, hlistener, rfl⟩ |
    ⟨hphase, hstops, rfl⟩ | ⟨id, listener, rfl, hlistener, hnext⟩ |
    ⟨deadline, hphase, rfl, hdue, rfl⟩ | ⟨taken, listener, rfl, htask, hlistener, rfl⟩ |
    ⟨observed, endpoint, rfl, -, rfl⟩ | ⟨time, rfl, hallows, rfl⟩ := ServerMain.step_cases hs
  · rw [ServerMain.toLoop_starts hstarts hs, hloop (ServerPhase.loop_starting hstarting)]
    obtain ⟨error, -, rfl⟩ | ⟨address, -, -, rfl⟩ | ⟨deadline, -, -, rfl⟩ | ⟨-, -, rfl⟩ := hnext
    · obtain ⟨htasks, hstreams, -⟩ := h.starting hstarting
      simp [ServerMain.fail, ServerMain.result, Machine.run_cons, Machine.Loop.step, hstreams,
        ServerMain.loop, ServerPhase.loop]
    · rfl
    · rfl
    · rfl
  · rw [hloop (congrArg ServerPhase.loop hphase)]
    obtain ⟨-, -, ⟨hpermit, rfl⟩ | ⟨hfull, rfl⟩⟩ | ⟨_, he, -⟩ | ⟨_, _, _, _, _, he, -⟩ |
      ⟨_, _, he | he, -⟩ | ⟨_, _, -, ⟨he, -⟩ | ⟨_, he, -⟩, -⟩ | ⟨_, he, -⟩ | ⟨he, -⟩ :=
      Listener.step_cases hlistener
    all_goals first | cases he | skip
    · simp [ServerMain.toLoop, hpermit, Machine.run_cons, Machine.Loop.step, ServerMain.loop,
        hphase, ServerPhase.loop]
    · simp [ServerMain.toLoop, hfull, ServerMain.loop, hphase, ServerPhase.loop]
  · rw [hloop (congrArg ServerPhase.loop hphase)]
    have hview : main.toLoop arguments event = [.stop (.ok ())] := by
      cases event <;> first | rfl | cases hstops
    rw [hview]
    by_cases hempty : main.listener.streams = []
    · simp [Machine.run_cons, Machine.Loop.step, ServerMain.loop, ServerMain.drain, hempty,
        ServerPhase.loop]
    · simp [Machine.run_cons, Machine.Loop.step, ServerMain.loop, ServerMain.drain, hempty,
        ServerPhase.loop]
  · obtain ⟨hmem, rfl⟩ := Listener.step_joined hlistener
    obtain ⟨hphase, rfl⟩ | ⟨deadline, hphase, rfl⟩ := hnext
    · rw [hloop (congrArg ServerPhase.loop hphase)]
      simp [ServerMain.toLoop, Machine.run_cons, Machine.Loop.step, hmem, ServerMain.loop, hphase,
        ServerPhase.loop]
    · rw [hloop (congrArg ServerPhase.loop hphase)]
      by_cases hempty : main.listener.streams.erase id = []
      · simp [ServerMain.toLoop, Machine.run_cons, Machine.Loop.step, hmem, ServerMain.loop,
          ServerPhase.loop, hempty]
      · simp [ServerMain.toLoop, Machine.run_cons, Machine.Loop.step, hmem, ServerMain.loop,
          ServerPhase.loop, hempty]
  · rw [hloop (congrArg ServerPhase.loop hphase)]
    simp [ServerMain.toLoop, Machine.run_cons, Machine.Loop.step, hdue, ServerMain.loop,
      ServerPhase.loop]
  · obtain ⟨htasks, hstreams⟩ := Listener.step_task htask hlistener
    simp [ServerMain.toLoop, ServerMain.loop, htasks, hstreams]
  · rfl
  · have hallowed : main.loop.phase.allows (main.now + time) := ServerPhase.loop_allows hallows
    simp only [ServerMain.toLoop, Machine.run_cons, Machine.run_nil]
    have hstep : main.loop.step arguments.grace (.elapse time) =
        some { main.loop with now := main.now + time } := by
      unfold Machine.Loop.step
      cases hloopPhase : main.loop.phase <;> simp_all [ServerMain.loop]
    rw [hstep]
    rfl

theorem ServerMain.run_loop (h : main.Standing)
    (hr : (ServerMain.step arguments).run main events = some last) :
    (Machine.Loop.step arguments.grace).run main.loop
      ((ServerMain.step arguments).views (ServerMain.toLoop arguments) main events) =
      some last.loop :=
  (Machine.run_simulates_within ServerMain.Standing ServerMain.loop
    (fun _ _ _ h hs => ⟨h.step hs, ServerMain.step_loop h hs⟩) h hr).2

theorem ServerMain.start_loop (arguments : ServerArguments) :
    (ServerMain.start arguments).loop = {} := by
  unfold ServerMain.loop ServerMain.start
  cases arguments.metricsBind <;> rfl

-- The streams themselves are those of the accept loop, whatever else `main` does.
def ServerMain.toListener (_ : ServerMain) (event : ServerEvent) : List ListenerEvent :=
  match event with
  | .accepted => [.arrived]
  | .task event => [event]
  | .joined id => [.reaped id]
  | .closed | .askedToStop => [.stopped]
  | _ => []

theorem ServerMain.step_listener (hs : main.step arguments event = some next) :
    (Listener.step arguments.settings).run main.listener (main.toListener event) =
      some next.listener := by
  obtain ⟨-, hstarts, hnext⟩ | ⟨listener, -, rfl, hlistener, rfl⟩ |
    ⟨-, hstops, rfl⟩ | ⟨id, listener, rfl, hlistener, ⟨-, rfl⟩ | ⟨deadline, -, rfl⟩⟩ |
    ⟨deadline, -, rfl, -, rfl⟩ | ⟨taken, listener, rfl, htask, hlistener, rfl⟩ |
    ⟨observed, endpoint, rfl, -, rfl⟩ | ⟨time, rfl, -, rfl⟩ := ServerMain.step_cases hs
  · have hview : main.toListener event = [] := by
      cases event <;> first | rfl | cases hstarts
    rw [hview]
    obtain ⟨error, -, rfl⟩ | ⟨address, -, -, rfl⟩ | ⟨deadline, -, -, rfl⟩ | ⟨-, -, rfl⟩ := hnext <;>
      rfl
  · simp [ServerMain.toListener, Machine.run_cons, hlistener]
  · have hview : main.toListener event = [.stopped] := by
      cases event <;> first | rfl | cases hstops
    rw [hview]
    rfl
  · simp [ServerMain.toListener, Machine.run_cons, hlistener]
  · simp [ServerMain.toListener, Machine.run_cons, hlistener]
  · rfl
  · simp [ServerMain.toListener, Machine.run_cons, hlistener]
  · rfl
  · rfl

theorem server_listener
    (hr : (ServerMain.step arguments).run (.start arguments) events = some main) :
    (Listener.step arguments.settings).run (.start arguments.maxStreams)
      ((ServerMain.step arguments).views ServerMain.toListener (.start arguments) events) =
      some main.listener :=
  Machine.run_simulates ServerMain.listener (fun _ _ _ hs => ServerMain.step_listener hs) hr

def ServerEvent.joins : ServerEvent → Option TaskId
  | .joined id => some id
  | _ => none

theorem ServerMain.toLoop_joined (main : ServerMain) (event : ServerEvent) :
    (main.toLoop arguments event).filterMap Machine.LoopEvent.joined = event.joins.toList := by
  cases event with
  | joined id => rfl
  | accepted =>
      unfold ServerMain.toLoop
      split_ifs <;> rfl
  | closed | askedToStop | graceOver | task _ | endpoint _ | elapse _ => rfl
  | bound _ | connected _ | gatewayTimedOut | listenerTaken _ =>
      have hstops (result : Option (Except String Unit)) :
          (result.toList.map Machine.LoopEvent.stop).filterMap Machine.LoopEvent.joined = [] := by
        cases result <;> rfl
      exact hstops _

-- What `main` has come to since it was asked to stop.
theorem ServerMain.stopping {stop : ServerEvent} {after : List ServerEvent} (h : main.Standing)
    (hstop : stop.stops)
    (hr : (ServerMain.step arguments).run main (stop :: after) = some last) :
    last.loop.Stopping arguments.grace main.loop (.ok ()) := by
  have hloop := ServerMain.run_loop h hr
  have hview : main.toLoop arguments stop = [.stop (.ok ())] := by
    cases stop <;> first | rfl | cases hstop
  obtain ⟨next, hs, -⟩ := Option.bind_eq_some_iff.mp hr
  simp only [Machine.views, hs, hview] at hloop
  exact Machine.Loop.run_stop hloop

def ServerPhase.stopped : ServerPhase → Bool
  | .draining _ | .returned (.ok _) => true
  | _ => false

theorem ServerMain.stopped_step (hs : main.step arguments event = some next)
    (hnext : next.phase.stopped) : main.phase.stopped ∨ event.stops := by
  obtain ⟨hstarting, -, ⟨error, -, rfl⟩ | ⟨address, -, -, rfl⟩ | ⟨deadline, -, -, rfl⟩ |
      ⟨-, -, rfl⟩⟩ |
    ⟨listener, hphase, -, -, rfl⟩ | ⟨-, hstops, -⟩ |
    ⟨id, listener, -, -, ⟨hphase, rfl⟩ | ⟨deadline, hphase, -⟩⟩ | ⟨deadline, hphase, -⟩ |
    ⟨taken, listener, -, -, -, rfl⟩ | ⟨observed, endpoint, -, -, rfl⟩ | ⟨time, -, -, rfl⟩ :=
    ServerMain.step_cases hs
  · cases hnext
  · cases hnext
  · cases hnext
  · cases hnext
  · exact Or.inl hnext
  · exact Or.inr hstops
  · exact Or.inl hnext
  · exact Or.inl (by rw [hphase]; rfl)
  · exact Or.inl (by rw [hphase]; rfl)
  · exact Or.inl hnext
  · exact Or.inl hnext
  · exact Or.inl hnext

theorem server_stopped
    (hr : (ServerMain.step arguments).run (.start arguments) events = some main) :
    main.phase.stopped → events.any ServerEvent.stops := by
  refine Machine.run_history (fun events (main : ServerMain) =>
    main.phase.stopped → events.any ServerEvent.stops) ?_ ?_ hr
  · unfold ServerMain.start
    cases arguments.metricsBind <;> simp [ServerPhase.stopped]
  · intro events main event next _ h hs hnext
    rw [List.any_append, Bool.or_eq_true]
    exact (ServerMain.stopped_step hs hnext).imp h fun hstops => by simp [hstops]

end

def ServerEvent.isTimer : ServerEvent → Bool
  | .elapse _ | .gatewayTimedOut | .graceOver => true
  | _ => false

-- If nothing else ends the drain, its grace does.
theorem ServerMain.graceOver_returns {arguments : ServerArguments} {main : ServerMain}
    {deadline : Nat} (hphase : main.phase = .draining deadline) (hnow : main.now ≤ deadline) :
    ∃ rest last, (∀ event ∈ rest, ServerEvent.isTimer event) ∧
      (ServerMain.step arguments).run main rest = some last ∧ last.phase = .returned (.ok ()) := by
  refine ⟨[.elapse (deadline - main.now), .graceOver],
    { main with now := deadline, phase := .returned (.ok ()) }, ?_, ?_, rfl⟩
  · simp [ServerEvent.isTimer]
  · simp [Machine.run_cons, ServerMain.step, hphase, ServerPhase.allows, Nat.add_sub_cancel' hnow]

-- Every stream that is let in is joined once or left in the set. A half that is
-- asked to stop, or whose listener closes, takes no stream from then on: it waits
-- for those it has, returns as soon as they are all joined and no later than the
-- grace, and never fails.
theorem server_drains (arguments : ServerArguments) (events : List ServerEvent)
    (main : ServerMain)
    (hr : (ServerMain.step arguments).run (.start arguments) events = some main) :
    (events.filterMap ServerEvent.joins ++ main.listener.streams).Perm
      (List.range main.listener.tasks.length) ∧
    main.listener.tasks.countP ServeTask.live ≤ arguments.maxStreams ∧
    (main.phase = .returned (.ok ()) → events.any ServerEvent.stops) ∧
    ∀ before stop after asked, events = before ++ stop :: after → stop.stops →
      (ServerMain.step arguments).run (.start arguments) before = some asked →
      main.listener.tasks.length = asked.listener.tasks.length ∧
      main.now ≤ asked.now + arguments.grace ∧
      (∀ result, main.phase = .returned result → result = .ok () ∧
        (main.listener.streams = [] ∨ main.now = asked.now + arguments.grace)) ∧
      ∃ rest last, (∀ event ∈ rest, ServerEvent.isTimer event) ∧
        (ServerMain.step arguments).run main rest = some last ∧
        last.phase = .returned (.ok ()) := by
  have hstanding := ServerMain.start_standing arguments
  have hloop := ServerMain.run_loop hstanding hr
  rw [ServerMain.start_loop] at hloop
  refine ⟨?_, ?_, fun hreturned => server_stopped hr (by rw [hreturned]; rfl), ?_⟩
  · have hperm := (Machine.loop_partitions hloop).2
    rwa [Machine.views_filterMap _ _ (fun main event _ _ => main.toLoop_joined event) hr] at hperm
  · exact (Nat.le_add_right _ _).trans (listener_capped (server_listener hr)).le
  · rintro before stop after asked rfl hstop hasked
    obtain ⟨middle, hmiddle, hrest⟩ := Machine.run_append_some hr
    obtain rfl := Option.some.inj (hasked.symm.trans hmiddle)
    obtain ⟨hspawned, hnow, hphase⟩ := ServerMain.stopping (server_standing hasked) hstop hrest
    change main.now ≤ asked.now + arguments.grace at hnow
    have hsame : main.loop.phase = main.phase.loop := rfl
    rw [hsame] at hphase
    refine ⟨hspawned, hnow, fun result hreturned => ?_, ?_⟩
    · rw [hreturned] at hphase
      exact hphase
    · cases hmain : main.phase with
      | binding _ | connecting _ | listening | accepting =>
          rw [hmain] at hphase
          exact hphase.elim
      | returned result =>
          rw [hmain] at hphase
          obtain ⟨rfl, -⟩ := hphase
          exact ⟨[], main, by simp, rfl, hmain⟩
      | draining deadline =>
          rw [hmain] at hphase
          obtain ⟨-, rfl, -⟩ := hphase
          exact ServerMain.graceOver_returns hmain hnow

-- Two streams, one of which is reset at once. The other one is still being read
-- when the grace is over.
def drainedArguments : ServerArguments where
  metricsBind := some "127.0.0.1:9069"
  shutdownGraceSecs := 2

def untilAsked : List ServerEvent :=
  [.bound true, .elapse 7, .connected (.ok ()), .listenerTaken true, .accepted, .accepted,
    .task (.polled 0), .task (.polled 1), .task (.serve 0 (.stream (.io (.failed (.Other 1))))),
    .task (.released 0)]

def untilOver : List ServerEvent :=
  [.endpoint .stopped, .joined 0, .elapse (fromSecs 2), .graceOver]

theorem drained_leaves_one : ∃ asked main,
    (ServerMain.step drainedArguments).run (.start drainedArguments) untilAsked = some asked ∧
    (ServerMain.step drainedArguments).run (.start drainedArguments)
      (untilAsked ++ .askedToStop :: untilOver) = some main ∧
    asked.listener.streams = [0, 1] ∧ main.listener.streams = [1] ∧
    main.now ≤ 7 + fromSecs 2 ∧ main.listener.tasks.length = 2 := by
  obtain ⟨asked, hasked, hseen⟩ : ∃ asked,
      (ServerMain.step drainedArguments).run (.start drainedArguments) untilAsked = some asked ∧
      (asked.now, asked.listener.streams, asked.listener.tasks.length) = (7, [0, 1], 2) :=
    Option.map_eq_some_iff.mp (by decide +kernel)
  obtain ⟨main, hr, hstreams⟩ : ∃ main,
      (ServerMain.step drainedArguments).run (.start drainedArguments)
        (untilAsked ++ .askedToStop :: untilOver) = some main ∧ main.listener.streams = [1] :=
    Option.map_eq_some_iff.mp (by decide +kernel)
  obtain ⟨hnow, hbefore, hlength⟩ :
      asked.now = 7 ∧ asked.listener.streams = [0, 1] ∧ asked.listener.tasks.length = 2 := by
    simpa using hseen
  obtain ⟨-, -, -, hstopped⟩ := server_drains drainedArguments _ main hr
  obtain ⟨hspawned, hlate, -⟩ := hstopped untilAsked .askedToStop untilOver asked rfl rfl hasked
  rw [hnow] at hlate
  exact ⟨asked, main, hasked, hr, hbefore, hstreams, hlate, hspawned.trans hlength⟩

end LwdMixnet
