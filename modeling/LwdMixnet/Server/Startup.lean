import LwdMixnet.Machine.Timed
import LwdMixnet.Server.Lifecycle

namespace LwdMixnet

-- What a supervisor sees of `main`.
def ServerMain.observed (main : ServerMain) : Observed where
  report := main.report
  shuttingDown := main.shuttingDown
  endpoint := main.endpoint

def ServerMain.toObserved (_ : ServerMain) (event : ServerEvent) : List ObservedEvent :=
  match event with
  | .connected (.ok _) => [.advanced .Registered]
  | .listenerTaken true => [.advanced .Serving]
  | .closed | .askedToStop => [.shutDown]
  | .endpoint event => [.endpoint event]
  | _ => []

def ServerMain.connecting (main : ServerMain) : Bool :=
  match main.phase with
  | .connecting _ => true
  | _ => false

-- The time that was spent in `connect`, and what is left of its timeout.
def ServerMain.Waited (main : ServerMain) (arguments : ServerArguments) (spent : Nat) : Prop :=
  match main.phase with
  | .binding _ => spent = 0
  | .connecting deadline =>
      main.now ≤ deadline ∧ spent + deadline = main.now + arguments.gatewayWait
  | _ => spent ≤ arguments.gatewayWait

section

variable {arguments : ServerArguments} {main next last : ServerMain} {event : ServerEvent}
  {events : List ServerEvent} {spent : Nat}

theorem ServerMain.step_observed (hs : main.step arguments event = some next) :
    Observed.step.run main.observed (main.toObserved event) = some next.observed := by
  obtain ⟨-, -, ⟨error, hfails, rfl⟩ | ⟨address, -, rfl, rfl⟩ | ⟨deadline, -, rfl, rfl⟩ |
      ⟨-, rfl, rfl⟩⟩ |
    ⟨listener, -, rfl, -, rfl⟩ | ⟨-, hstops, rfl⟩ |
    ⟨id, listener, rfl, -, ⟨-, rfl⟩ | ⟨deadline, -, rfl⟩⟩ | ⟨deadline, -, rfl, -, rfl⟩ |
    ⟨taken, listener, rfl, -, -, rfl⟩ | ⟨observed, endpoint, rfl, hendpoint, rfl⟩ |
    ⟨time, rfl, -, rfl⟩ := ServerMain.step_cases hs
  · have hview : main.toObserved event = [] := by
      unfold ServerEvent.fails at hfails
      split at hfails <;> first | rfl | cases hfails
    rw [hview]
    rfl
  · rfl
  · rfl
  · rfl
  · rfl
  · have hview : main.toObserved event = [.shutDown] := by
      cases event <;> first | rfl | cases hstops
    rw [hview]
    rfl
  · rfl
  · rfl
  · rfl
  · rfl
  · have hobserved : main.observed.endpoint.step main.observed.report main.observed.shuttingDown
        observed = some endpoint := hendpoint
    simp only [ServerMain.toObserved, Machine.run_cons, Observed.step, hobserved]
    rfl
  · rfl

theorem server_observed
    (hr : (ServerMain.step arguments).run main events = some last) :
    Observed.step.run main.observed
      ((ServerMain.step arguments).views ServerMain.toObserved main events) =
      some last.observed :=
  Machine.run_simulates ServerMain.observed (fun _ _ _ hs => ServerMain.step_observed hs) hr

theorem ServerMain.start_observed (arguments : ServerArguments) :
    (ServerMain.start arguments).observed = {} := rfl

theorem ServerMain.Waited.bound (h : main.Waited arguments spent) :
    spent ≤ arguments.gatewayWait := by
  unfold ServerMain.Waited at h
  split at h
  · rw [h]
    exact Nat.zero_le _
  · omega
  · exact h

theorem ServerMain.Waited.step (h : main.Waited arguments spent)
    (hs : main.step arguments event = some next) :
    next.Waited arguments (spent + if main.connecting then event.delay else 0) := by
  have hbound := h.bound
  have hsame (hphase : next.phase = main.phase) (hnow : next.now = main.now)
      (hdelay : event.delay = 0) :
      next.Waited arguments (spent + if main.connecting then event.delay else 0) := by
    rw [hdelay, ite_self, Nat.add_zero]
    unfold ServerMain.Waited
    rw [hphase, hnow]
    exact h
  obtain ⟨-, hstarts, ⟨error, -, rfl⟩ | ⟨address, hphase, rfl, rfl⟩ | ⟨deadline, -, rfl, rfl⟩ |
      ⟨-, rfl, rfl⟩⟩ |
    ⟨listener, -, rfl, -, rfl⟩ | ⟨-, hstops, rfl⟩ |
    ⟨id, listener, rfl, -, ⟨-, rfl⟩ | ⟨deadline, -, rfl⟩⟩ | ⟨deadline, -, rfl, -, rfl⟩ |
    ⟨taken, listener, rfl, -, -, rfl⟩ | ⟨observed, endpoint, rfl, -, rfl⟩ |
    ⟨time, rfl, hallows, rfl⟩ := ServerMain.step_cases hs
  · have hdelay : event.delay = 0 := by
      cases event <;> first | rfl | cases hstarts
    rw [hdelay, ite_self]
    exact hbound
  · unfold ServerMain.Waited at h
    rw [hphase] at h
    rw [h]
    unfold ServerMain.Waited
    simp [ServerEvent.delay]
  · simpa [ServerMain.Waited, ServerEvent.delay] using hbound
  · simpa [ServerMain.Waited, ServerEvent.delay] using hbound
  · exact hsame rfl rfl rfl
  · have hdelay : event.delay = 0 := by
      cases event <;> first | rfl | cases hstops
    rw [hdelay, ite_self]
    unfold ServerMain.Waited ServerMain.drain
    split_ifs <;> exact hbound
  · exact hsame rfl rfl rfl
  · unfold ServerMain.Waited
    simp only
    split_ifs <;> simpa [ServerMain.Waited, ServerEvent.delay] using hbound
  · simpa [ServerMain.Waited, ServerEvent.delay] using hbound
  · exact hsame rfl rfl rfl
  · exact hsame rfl rfl rfl
  · unfold ServerMain.Waited at h ⊢
    cases hphase : main.phase with
    | connecting deadline =>
        rw [hphase] at h hallows
        have hdue : main.now + time ≤ deadline := of_decide_eq_true hallows
        simp only [ServerMain.connecting, hphase, ServerEvent.delay, if_true]
        omega
    | binding _ | listening | accepting | draining _ | returned _ =>
        rw [hphase] at h
        simpa [ServerMain.connecting, hphase] using h

theorem server_waited
    (hr : (ServerMain.step arguments).run (.start arguments) events = some main) :
    main.Waited arguments ((ServerMain.step arguments).spent ServerEvent.delay
      ServerMain.connecting (.start arguments) events) := by
  refine Machine.run_history (fun events (main : ServerMain) => main.Waited arguments
    ((ServerMain.step arguments).spent ServerEvent.delay ServerMain.connecting
      (.start arguments) events)) ?_ ?_ hr
  · unfold ServerMain.Waited ServerMain.start
    cases arguments.metricsBind with
    | none => exact ⟨Nat.zero_le _, rfl⟩
    | some address => rfl
  · intro events main event next hr h hs
    rw [Machine.spent_concat _ _ hr hs]
    exact h.step hs

-- If nothing else ends `connect`, its timeout does.
theorem ServerMain.gateway_returns {deadline : Nat} (hphase : main.phase = .connecting deadline)
    (hnow : main.now ≤ deadline) :
    ∃ rest last, (∀ event ∈ rest, ServerEvent.isTimer event) ∧
      (ServerMain.step arguments).run main rest = some last ∧
      last.phase = .returned (.error ("connecting to the mixnet: no gateway within " ++
        debugSecs arguments.gatewayWaitSecs)) := by
  refine ⟨[.elapse (deadline - main.now), .gatewayTimedOut], ServerMain.fail
    { main with now := deadline } ("connecting to the mixnet: no gateway within " ++
      debugSecs arguments.gatewayWaitSecs), ?_, ?_, rfl⟩
  · simp [ServerEvent.isTimer]
  · simp [Machine.run_cons, ServerMain.step, hphase, ServerPhase.allows, Nat.add_sub_cancel' hnow]

theorem ServerMain.step_serving (h : main.Standing) (hs : main.step arguments event = some next)
    (hserving : next.report.state = .Serving) :
    main.report.state = .Serving ∨ event = .listenerTaken true := by
  obtain ⟨-, -, ⟨error, -, rfl⟩ | ⟨address, -, -, rfl⟩ | ⟨deadline, hphase, -, rfl⟩ |
      ⟨-, rfl, -⟩⟩ |
    ⟨listener, -, -, -, rfl⟩ | ⟨-, -, rfl⟩ | ⟨id, listener, -, -, ⟨-, rfl⟩ | ⟨deadline, -, rfl⟩⟩ |
    ⟨deadline, -, -, -, rfl⟩ | ⟨taken, listener, -, -, -, rfl⟩ | ⟨observed, endpoint, -, -, rfl⟩ |
    ⟨time, -, -, rfl⟩ := ServerMain.step_cases hs
  · exact Or.inl hserving
  · exact Or.inl hserving
  · unfold ServerMain.Standing at h
    rw [hphase] at h
    rw [(h.1.advanceTo .Registered).state] at hserving
    exact absurd hserving (by decide)
  · exact Or.inr rfl
  · exact Or.inl hserving
  · exact Or.inl hserving
  · exact Or.inl hserving
  · exact Or.inl hserving
  · exact Or.inl hserving
  · exact Or.inl hserving
  · exact Or.inl hserving
  · exact Or.inl hserving

theorem server_serving
    (hr : (ServerMain.step arguments).run (.start arguments) events = some main)
    (hserving : main.report.state = .Serving) : .listenerTaken true ∈ events := by
  refine Machine.run_history (fun events (main : ServerMain) =>
    main.report.state = .Serving → .listenerTaken true ∈ events) ?_ ?_ hr hserving
  · exact fun h => absurd h (by decide : HealthReport.state {} ≠ .Serving)
  · intro events main event next hr h hs hserving
    rw [List.mem_append, List.mem_singleton]
    obtain hbefore | rfl := ServerMain.step_serving (server_standing hr) hs hserving
    · exact Or.inl (h hbefore)
    · exact Or.inr rfl

-- A half whose loop has come to a stream has said that it serves.
theorem ServerMain.Standing.spawned (h : main.Standing) (hspawned : main.listener.tasks ≠ []) :
    main.report.state = .Serving := by
  unfold ServerMain.Standing at h
  split at h
  · exact absurd h.2.1 hspawned
  · exact absurd h.2.1 hspawned
  · exact absurd h.2.1 hspawned
  · exact h.state
  · exact h.state
  · exact h.state
  · exact absurd h.2.1 hspawned

end

-- Startup waits for the gateway as long as it is told to and no longer. A half
-- whose startup fails has taken no stream and has told nobody that it serves; one
-- that has taken a stream says so to whoever asks from then on.
theorem server_starts (arguments : ServerArguments) (events : List ServerEvent)
    (main : ServerMain)
    (hr : (ServerMain.step arguments).run (.start arguments) events = some main) :
    (ServerMain.step arguments).spent ServerEvent.delay ServerMain.connecting
      (.start arguments) events ≤ arguments.gatewayWait ∧
    (main.connecting → ∃ rest last, (∀ event ∈ rest, ServerEvent.isTimer event) ∧
      (ServerMain.step arguments).run main rest = some last ∧
      last.phase = .returned (.error ("connecting to the mixnet: no gateway within " ++
        debugSecs arguments.gatewayWaitSecs))) ∧
    (∀ error, main.phase = .returned (.error error) → main.listener.tasks = [] ∧
      ∀ (id : Nat) (request : Request) (response : Response),
        main.endpoint.handlers[id]? = some ⟨request, .replied response⟩ →
        request.isHealth → response.status = 503) ∧
    ∀ (more : List ServerEvent) (last : ServerMain) (id : Nat) (request : Request)
      (response : Response), (ServerMain.step arguments).run main more = some last →
      main.endpoint.handlers.length ≤ id →
      last.endpoint.handlers[id]? = some ⟨request, .replied response⟩ → request.isHealth →
      (main.listener.tasks ≠ [] → response.status = 200) ∧
      (response.status = 200 → .listenerTaken true ∈ events ++ more) := by
  have hstanding := server_standing hr
  have hseen := server_observed hr
  rw [ServerMain.start_observed] at hseen
  have hcoded := (observed_state hseen).1
  refine ⟨(server_waited hr).bound, fun hconnecting => ?_, fun error hfailed => ?_, ?_⟩
  · have hwaited := server_waited hr
    cases hphase : main.phase with
    | connecting deadline =>
        simp only [ServerMain.Waited, hphase] at hwaited
        exact ServerMain.gateway_returns hphase hwaited.1
    | binding _ | listening | accepting | draining _ | returned _ =>
        simp [ServerMain.connecting, hphase] at hconnecting
  · simp only [ServerMain.Standing, hfailed] at hstanding
    obtain ⟨⟨state, hne, hheld⟩, htasks, -⟩ := hstanding
    refine ⟨htasks, fun id request response hreplied hhealth => ?_⟩
    obtain ⟨ready, named, degraded, rfl, -, hready, hnamed⟩ :=
      (Observed.reads_from Observed.start_coded hseen).replied (Nat.zero_le id) hreplied hhealth
    rw [healthReply_status, if_neg]
    rintro rfl
    rw [ServerMain.observed, hheld.state] at hnamed
    exact hne (le_antisymm (State.le_Serving state) (hready.trans hnamed))
  · intro more last id request response hmore hid hreplied hhealth
    obtain ⟨ready, named, degraded, rfl, hlow, hready, hnamed⟩ :=
      (Observed.reads_from hcoded (server_observed hmore)).replied hid hreplied hhealth
    rw [healthReply_status]
    refine ⟨fun hspawned => ?_, fun hserves => ?_⟩
    · rw [ServerMain.observed, hstanding.spawned hspawned] at hlow
      rw [if_pos (le_antisymm (State.le_Serving ready) hlow)]
    · have hserving : ready = .Serving := by
        by_contra hne
        rw [if_neg hne] at hserves
        exact absurd hserves (by decide)
      subst hserving
      have hstate : last.report.state = .Serving :=
        le_antisymm (State.le_Serving _) (hready.trans hnamed)
      exact server_serving (Machine.run_trans hr hmore) hstate

-- A half that is asked while it connects and again once it has a stream.
def startedEvents : List ServerEvent :=
  [.bound true, .endpoint .accepted, .endpoint (.asked ⟨"GET", "/health"⟩), .elapse 3,
    .endpoint (.stepped 0 (.ok "")), .endpoint (.stepped 0 (.ok "")),
    .endpoint (.stepped 0 (.ok "")), .elapse 4, .connected (.ok ()), .listenerTaken true, .accepted]

def askedAgain : List ServerEvent :=
  [.endpoint (.asked ⟨"GET", "/health"⟩), .endpoint (.stepped 1 (.ok "")), .askedToStop,
    .endpoint (.stepped 1 (.ok "")), .endpoint (.stepped 1 (.ok ""))]

theorem started_says_so : ∃ main last response,
    (ServerMain.step drainedArguments).run (.start drainedArguments) startedEvents = some main ∧
    (ServerMain.step drainedArguments).run main askedAgain = some last ∧
    last.endpoint.handlers[1]? = some ⟨⟨"GET", "/health"⟩, .replied response⟩ ∧
    response.status = 200 ∧ .listenerTaken true ∈ startedEvents ++ askedAgain ∧
    (ServerMain.step drainedArguments).spent ServerEvent.delay ServerMain.connecting
      (.start drainedArguments) startedEvents ≤ drainedArguments.gatewayWait := by
  obtain ⟨main, hr, hseen⟩ : ∃ main,
      (ServerMain.step drainedArguments).run (.start drainedArguments) startedEvents = some main ∧
      (main.listener.tasks.length, main.endpoint.handlers.length) = (1, 1) :=
    Option.map_eq_some_iff.mp (by decide +kernel)
  obtain ⟨htasks, hhandlers⟩ :
      main.listener.tasks.length = 1 ∧ main.endpoint.handlers.length = 1 := by
    simpa using hseen
  obtain ⟨last, hlast, hreplied⟩ : ∃ last,
      (ServerMain.step drainedArguments).run (.start drainedArguments)
        (startedEvents ++ askedAgain) = some last ∧
      last.endpoint.handlers[1]? = some ⟨⟨"GET", "/health"⟩, .replied
        ⟨200, "application/json", "\x7b\"state\":\"serving\"\x7d\n"⟩⟩ :=
    Option.map_eq_some_iff.mp (by decide +kernel)
  rw [Machine.run_append, hr] at hlast
  obtain ⟨hwaited, -, -, hasked⟩ := server_starts drainedArguments startedEvents main hr
  obtain ⟨hserves, htaken⟩ := hasked askedAgain last 1 _ _ hlast hhandlers.le hreplied (by decide)
  have hok := hserves fun hnone => by simp [hnone] at htasks
  exact ⟨main, last, _, hr, hlast, hreplied, hok, htaken hok, hwaited⟩

end LwdMixnet
