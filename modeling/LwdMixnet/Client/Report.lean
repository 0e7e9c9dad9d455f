import LwdMixnet.Client.Exits
import LwdMixnet.Streaks.Lag

namespace LwdMixnet

-- What whoever asks sees of `main`.
def ClientMain.observed {δ : Type*} (main : ClientMain δ) : Observed where
  report := main.report
  shuttingDown := main.shuttingDown
  endpoint := main.endpoint

def ClientMain.toObserved {δ : Type*} (outcome : δ → Outcome) (main : ClientMain δ)
    (event : ClientEvent δ) : List ObservedEvent :=
  match event with
  | .connected true => [.advanced .Registered]
  | .listened true => [.advanced .Serving]
  | .askedToStop => [.shutDown]
  | .polled => if ((main.process.step outcome .poll).map Process.exiting).getD false then
      [.shutDown] else []
  | .task event => ((main.process.step outcome event).map fun process =>
      ObservedEvent.degraded process.streaks.health.isDegraded).toList
  | .endpoint event => [.endpoint event]
  | _ => []

-- The flag in an answer is the run of the dials, `low` of them at least, against
-- its limit.
def ClientMain.Tells {δ : Type*} (outcome : δ → Outcome) (low index : Nat)
    (main : ClientMain δ) : Prop :=
  ∀ id request response, index ≤ id →
    main.endpoint.handlers[id]? = some ⟨request, .replied response⟩ → request.isHealth →
    ∃ ready named degraded count, response = healthReply ready named degraded ∧ low ≤ count ∧
      count ≤ main.process.folded.length ∧ (degraded ↔
        DEAD_END_LIMIT ≤ deadEndRun ((main.process.folded.take count).map outcome))

section

variable {δ : Type*} {outcome : δ → Outcome} {arguments : ClientArguments}
  {main next last : ClientMain δ} {event : ClientEvent δ} {events : List (ClientEvent δ)}
  {low index : Nat}

theorem ClientMain.step_observed (hs : main.step outcome arguments event = some next) :
    Observed.step.run main.observed (main.toObserved outcome event) = some next.observed := by
  obtain ⟨-, hstarts, ⟨error, hfails, rfl⟩ | ⟨phase, hbefore, -, rfl⟩ | ⟨-, rfl, rfl⟩ |
      ⟨-, rfl, rfl⟩⟩ |
    ⟨process, -, rfl, hprocess, rfl⟩ | ⟨-, rfl, rfl⟩ | ⟨resume, -, rfl, -, rfl⟩ |
    ⟨id, rfl, -, -, ⟨-, rfl⟩ | ⟨deadline, result, -, rfl⟩⟩ |
    ⟨process, -, rfl, hprocess, ⟨hexiting, rfl⟩ | ⟨hexiting, rfl⟩⟩ | ⟨-, rfl, rfl⟩ |
    ⟨deadline, result, -, rfl, -, rfl⟩ | ⟨taken, process, rfl, -, hprocess, rfl⟩ |
    ⟨observed, endpoint, rfl, hendpoint, rfl⟩ | ⟨time, rfl, -, rfl⟩ := ClientMain.step_cases hs
  · have hview : main.toObserved outcome event = [] := by
      unfold ClientEvent.fails at hfails
      split at hfails <;> first | rfl | cases hfails
    rw [hview]
    rfl
  · obtain ⟨-, rfl⟩ | ⟨address, -, rfl⟩ := hbefore
    · rfl
    · rfl
  · rfl
  · rfl
  · have hhealth : process.streaks.health = main.process.streaks.health := by
      simp only [Process.step] at hprocess
      split at hprocess <;> cases hprocess
      rfl
    simp [ClientMain.toObserved, ClientMain.observed, ClientMain.report, hhealth]
  · rfl
  · rfl
  · rfl
  · rfl
  · have hhealth := (Process.step_poll hprocess).1
    simp [ClientMain.toObserved, ClientMain.observed, ClientMain.report, ClientMain.drain,
      hprocess, hexiting, hhealth, Machine.run_cons, Observed.step]
  · have hhealth := (Process.step_poll hprocess).1
    simp [ClientMain.toObserved, ClientMain.observed, ClientMain.report, hprocess, hexiting,
      hhealth]
  · rfl
  · rfl
  · simp only [ClientMain.toObserved, hprocess, Option.map_some, Option.toList_some]
    rfl
  · have hobserved : main.observed.endpoint.step main.observed.report main.observed.shuttingDown
        observed = some endpoint := hendpoint
    simp only [ClientMain.toObserved, Machine.run_cons, Observed.step, hobserved]
    rfl
  · rfl

theorem client_observed
    (hr : (ClientMain.step outcome arguments).run main events = some last) :
    Observed.step.run main.observed
      ((ClientMain.step outcome arguments).views (ClientMain.toObserved outcome) main events) =
      some last.observed :=
  Machine.run_simulates ClientMain.observed (fun _ _ _ hs => ClientMain.step_observed hs) hr

-- A step is one of the endpoint or leaves it as it is.
theorem ClientMain.step_endpoint (hs : main.step outcome arguments event = some next) :
    next.endpoint = main.endpoint ∨ next.process = main.process ∧ ∃ observed,
      main.endpoint.step main.report main.shuttingDown observed = some next.endpoint := by
  obtain ⟨-, -, ⟨error, -, rfl⟩ | ⟨phase, -, -, rfl⟩ | ⟨-, -, rfl⟩ | ⟨-, -, rfl⟩⟩ |
    ⟨process, -, -, -, rfl⟩ | ⟨-, -, rfl⟩ | ⟨resume, -, -, -, rfl⟩ |
    ⟨id, -, -, -, ⟨-, rfl⟩ | ⟨deadline, result, -, rfl⟩⟩ |
    ⟨process, -, -, -, ⟨-, rfl⟩ | ⟨-, rfl⟩⟩ | ⟨-, -, rfl⟩ | ⟨deadline, result, -, -, -, rfl⟩ |
    ⟨taken, process, -, -, -, rfl⟩ | ⟨observed, endpoint, -, hendpoint, rfl⟩ |
    ⟨time, -, -, rfl⟩ := ClientMain.step_cases hs
  all_goals first | exact Or.inl rfl | exact Or.inr ⟨rfl, observed, hendpoint⟩

theorem ClientMain.Tells.step {taken : List (ProcessEvent δ)} (h : main.Tells outcome low index)
    (hr : (Process.step outcome).run {} taken = some main.process)
    (hlow : low ≤ main.process.completed) (hclean : main.process.poisoned = false)
    (hs : main.step outcome arguments event = some next) : next.Tells outcome low index := by
  intro id request response hid hreplied hhealth
  have hfolded := ClientMain.step_folded hs
  have hkept (hbefore : main.endpoint.handlers[id]? = some ⟨request, .replied response⟩) :
      ∃ ready named degraded count, response = healthReply ready named degraded ∧ low ≤ count ∧
        count ≤ next.process.folded.length ∧ (degraded ↔
          DEAD_END_LIMIT ≤ deadEndRun ((next.process.folded.take count).map outcome)) := by
    obtain ⟨ready, named, degraded, count, hresponse, hcount, hle, hflag⟩ :=
      h id request response hid hbefore hhealth
    obtain ⟨more, hmore⟩ := hfolded
    refine ⟨ready, named, degraded, count, hresponse, hcount, ?_, ?_⟩
    · rw [← hmore, List.length_append]
      omega
    · rw [← hmore, List.take_append_of_le_length hle]
      exact hflag
  obtain hsame | ⟨hprocess, observed, hendpoint⟩ := ClientMain.step_endpoint hs
  · rw [hsame] at hreplied
    exact hkept hreplied
  · obtain hbefore | ⟨-, ready, named, hresponse⟩ :=
      Endpoint.step_replied hendpoint hreplied hhealth
    · exact hkept hbefore
    · obtain ⟨gauged, flagged, hcompleted, hle, hlength, -, hflag⟩ :=
        (process_lags hr).reads hclean
      rw [hprocess]
      exact ⟨ready, named, main.report.isDegraded, flagged, hresponse, hlow.trans hcompleted,
        hle.trans hlength, hflag⟩

theorem ClientMain.step_completed (hs : main.step outcome arguments event = some next) :
    main.process.completed ≤ next.process.completed :=
  Machine.run_invariant (fun process : Process δ => main.process.completed ≤ process.completed)
    (fun _ _ _ hle hstep => hle.trans (Process.step_completed hstep)) (Nat.le_refl _)
    (ClientMain.step_process hs)

theorem ClientMain.step_poisoned (hs : main.step outcome arguments event = some next)
    (hclean : next.process.poisoned = false) : main.process.poisoned = false :=
  Machine.run_invariant
    (fun process : Process δ => process.poisoned = false → main.process.poisoned = false)
    (fun _ _ _ hkept hstep hlater => hkept (Process.step_poisoned hstep hlater)) id
    (ClientMain.step_process hs) hclean

theorem ClientMain.run_tells {taken : List (ProcessEvent δ)}
    (hprocess : (Process.step outcome).run {} taken = some main.process)
    (hr : (ClientMain.step outcome arguments).run main events = some last)
    (hclean : last.process.poisoned = false) :
    last.Tells outcome main.process.completed main.endpoint.handlers.length := by
  refine (Machine.run_invariant (fun last : ClientMain δ =>
    (∃ taken, (Process.step outcome).run {} taken = some last.process) ∧
      main.process.completed ≤ last.process.completed ∧ (last.process.poisoned = false →
        last.Tells outcome main.process.completed main.endpoint.handlers.length)) ?_
    ⟨⟨taken, hprocess⟩, Nat.le_refl _, fun _ => ?_⟩ hr).2.2 hclean
  · intro middle event next ⟨⟨taken, hrun⟩, hcompleted, htells⟩ hs
    refine ⟨⟨_, Machine.run_trans hrun (ClientMain.step_process hs)⟩,
      hcompleted.trans (ClientMain.step_completed hs), fun hclean => ?_⟩
    have hbefore := ClientMain.step_poisoned hs hclean
    exact (htells hbefore).step hrun hcompleted hbefore hs
  · intro id request response hid hreplied
    rw [List.getElem?_eq_none hid] at hreplied
    cases hreplied

end

-- What a half that carries says of itself. As long as no fold was left half
-- finished, the gauge and the flag are each the run of the dials counted so far,
-- less the latest one at most, and agree but between two updates of one fold. An
-- answer of the health endpoint names states the half was in while it was asked,
-- and its flag is the run as it stood after all the dials that were through when
-- it was asked.
theorem client_reports {δ : Type*} (outcome : δ → Outcome) (arguments : ClientArguments)
    (events more : List (ClientEvent δ)) (main last : ClientMain δ)
    (hr : (ClientMain.step outcome arguments).run {} events = some main)
    (hmore : (ClientMain.step outcome arguments).run main more = some last)
    (hclean : last.process.poisoned = false) :
    (∃ gauged flagged, last.process.completed ≤ flagged ∧ flagged ≤ gauged ∧
      gauged ≤ last.process.folded.length ∧ last.process.streaks.metrics.failedInARow =
        deadEndRun ((last.process.folded.take gauged).map outcome) ∧
      (last.process.streaks.health.isDegraded ↔
        3 ≤ deadEndRun ((last.process.folded.take flagged).map outcome))) ∧
    ((∀ id dial, last.process.connections id ≠ .folding dial .gauged) →
      (last.process.streaks.health.isDegraded ↔
        3 ≤ last.process.streaks.metrics.failedInARow)) ∧
    ∀ (id : Nat) (request : Request) (response : Response),
      main.endpoint.handlers.length ≤ id →
      last.endpoint.handlers[id]? = some ⟨request, .replied response⟩ → request.isHealth →
      ∃ ready named degraded count, response = healthReply ready named degraded ∧
        main.report.state ≤ ready ∧ ready ≤ named ∧ named ≤ last.report.state ∧
        main.process.completed ≤ count ∧ count ≤ last.process.folded.length ∧
        (degraded ↔ 3 ≤ deadEndRun ((last.process.folded.take count).map outcome)) ∧
        (0 < main.accepted → response.status = 200) := by
  have hprocess := client_process hr
  have hlags := process_lags (Machine.run_trans hprocess (client_process hmore))
  refine ⟨hlags.reads hclean, hlags.agrees hclean, ?_⟩
  intro id request response hid hreplied hhealth
  have hcoded := (observed_state (client_observed hr)).1
  obtain ⟨ready, named, degraded, hresponse, hlow, hready, hnamed⟩ :=
    (Observed.reads_from hcoded (client_observed hmore)).replied hid hreplied hhealth
  obtain ⟨ready', named', degraded', count, hanswer, hcompleted, hlength, hflag⟩ :=
    ClientMain.run_tells hprocess hmore hclean id request response hid hreplied hhealth
  obtain ⟨-, rfl⟩ := healthReply_inj (hresponse.symm.trans hanswer)
  refine ⟨ready, named, degraded, count, hresponse, hlow, hready, hnamed, hcompleted, hlength,
    hflag, fun haccepted => ?_⟩
  have hserving : main.report.state = .Serving := by
    have hstanding := client_standing hr
    unfold ClientMain.Standing at hstanding
    split at hstanding
    · omega
    · omega
    · omega
    · omega
    · exact hstanding.1.state
    · exact hstanding.1.state
    · exact hstanding.state
    · obtain hheld | ⟨-, -, hnone, -⟩ := hstanding
      · exact hheld.state
      · omega
  rw [hresponse, healthReply_status,
    if_pos (le_antisymm (State.le_Serving ready) (hserving ▸ hlow))]

-- Three dials that came to nothing. The answer loads the flag between the last
-- two updates of the third fold.
def reportedArguments : ClientArguments where
  metricsBind := some "127.0.0.1:9070"
  probeAttempts_pos := ClientArguments.attempts_default
  probeConcurrency_pos := ClientArguments.concurrency_default

def deadEnd (id : ConnectionId) : List (ClientEvent Outcome) :=
  [.accepted, .task (.resolved id .NothingAnswered), .task (.count id), .task (.gauge id)]

def untilTwo : List (ClientEvent Outcome) :=
  [.parsed true, .bound true, .connected true, .listened true, .endpoint .accepted] ++
    deadEnd 0 ++ [.task (.flag 0), .task (.signal 0)] ++ deadEnd 1 ++
    [.task (.flag 1), .task (.signal 1)]

def untilAnswered : List (ClientEvent Outcome) :=
  deadEnd 2 ++ [.endpoint (.asked ⟨"GET", "/health"⟩), .endpoint (.stepped 0 (.ok "")),
    .endpoint (.stepped 0 (.ok "")), .endpoint (.stepped 0 (.ok "")), .task (.flag 2),
    .task (.signal 2)]

def answeredBefore : Handler where
  request := ⟨"GET", "/health"⟩
  route := .replied ⟨200, "application/json", "\x7b\"state\":\"serving\"\x7d\n"⟩

theorem answered_before_flag : ∃ main last : ClientMain Outcome,
    (ClientMain.step id reportedArguments).run {} untilTwo = some main ∧
    (ClientMain.step id reportedArguments).run main untilAnswered = some last ∧
    last.endpoint.handlers = [answeredBefore] ∧ last.process.streaks.health.isDegraded ∧
    ∃ count, main.process.completed ≤ count ∧
      deadEndRun ((last.process.folded.take count).map id) < 3 := by
  obtain ⟨main, hr, hhandlers⟩ : ∃ main : ClientMain Outcome,
      (ClientMain.step id reportedArguments).run {} untilTwo = some main ∧
      main.endpoint.handlers = [] :=
    Option.map_eq_some_iff.mp (by decide +kernel)
  obtain ⟨last, hlast, hview⟩ : ∃ last : ClientMain Outcome,
      (ClientMain.step id reportedArguments).run {} (untilTwo ++ untilAnswered) = some last ∧
      (last.process.poisoned, last.process.holder, last.endpoint.handlers,
        last.process.streaks.metrics.failedInARow) = (false, none, [answeredBefore], 3) :=
    Option.map_eq_some_iff.mp (by decide +kernel)
  simp only [Prod.mk.injEq] at hview
  obtain ⟨hclean, hfree, hanswered, hgauge⟩ := hview
  have hsound := process_sound (client_process hlast)
  rw [Machine.run_append, hr, Option.bind_some] at hlast
  obtain ⟨-, hagrees, hanswers⟩ :=
    client_reports id reportedArguments untilTwo untilAnswered main last hr hlast hclean
  have hdegraded : last.process.streaks.health.isDegraded := by
    refine (hagrees fun id dial hfolding => ?_).mpr (by rw [hgauge])
    rw [hsound.holder id dial _ hfolding] at hfree
    cases hfree
  obtain ⟨ready, named, degraded, count, hresponse, -, -, -, hcompleted, -, hflag, -⟩ :=
    hanswers 0 ⟨"GET", "/health"⟩ ⟨200, "application/json", "\x7b\"state\":\"serving\"\x7d\n"⟩
      (by rw [hhandlers]; exact Nat.le_refl 0) (by rw [hanswered]; rfl) (by decide)
  have hunflagged : healthReply ready named degraded = healthReply .Serving .Serving false :=
    hresponse.symm
  obtain ⟨-, rfl⟩ := healthReply_inj hunflagged
  refine ⟨main, last, hr, hlast, hanswered, hdegraded, count, hcompleted, ?_⟩
  simpa using hflag

end LwdMixnet
