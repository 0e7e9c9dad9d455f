import LwdMixnet.Client

namespace LwdMixnet

-- What the phases say of the report and of the connections.
def ClientMain.Standing {δ : Type*} (main : ClientMain δ) : Prop :=
  match main.phase with
  | .parsing | .binding _ | .connecting =>
      main.report.Holds .Starting ∧ main.process = {} ∧ main.accepted = 0 ∧ main.connections = []
  | .listening =>
      main.report.Holds .Registered ∧ main.process = {} ∧ main.accepted = 0 ∧
        main.connections = []
  | .accepting | .pausing _ => main.report.Holds .Serving ∧ main.process.exiting = false
  | .draining _ _ => main.report.Holds .Serving
  | .returned _ => main.report.Holds .Serving ∨ (∃ state ≠ .Serving, main.report.Holds state) ∧
      main.process = {} ∧ main.accepted = 0 ∧ main.connections = []

section

variable {δ : Type*} {outcome : δ → Outcome} {arguments : ClientArguments}
  {main next last : ClientMain δ} {event : ClientEvent δ} {events : List (ClientEvent δ)}

-- No task does anything before one was spawned.
theorem Process.step_idle {taken : ProcessEvent δ} (htask : taken.ofTask) :
    Process.step outcome {} taken = none := by
  cases taken with
  | accepted _ | poll => cases htask
  | resolved _ _ | count _ | gauge _ | flag _ | signal _ | unwound _ | closed _ => rfl

-- Only the poll of the main loop finds the signal.
theorem Process.step_exiting {process after : Process δ} {taken : ProcessEvent δ}
    (htaken : taken ≠ .poll) (hs : process.step outcome taken = some after) :
    after.exiting = process.exiting := by
  cases taken with
  | poll => exact absurd rfl htaken
  | accepted _ | resolved _ _ | count _ | gauge _ | flag _ | signal _ | unwound _ | closed _ =>
      simp only [Process.step] at hs
      split at hs <;> cases hs <;> rfl

theorem ProcessEvent.ofTask_ne {taken : ProcessEvent δ} (htask : taken.ofTask) :
    taken ≠ .poll := by
  rintro rfl
  cases htask

theorem ClientMain.Standing.starting (h : main.Standing) (hstarting : main.phase.starting) :
    (∃ state ≠ .Serving, main.report.Holds state) ∧ main.process = {} ∧ main.accepted = 0 ∧
      main.connections = [] := by
  unfold ClientMain.Standing at h
  cases hphase : main.phase with
  | parsing | binding _ | connecting =>
      rw [hphase] at h
      exact ⟨⟨_, by decide, h.1⟩, h.2⟩
  | listening =>
      rw [hphase] at h
      exact ⟨⟨_, by decide, h.1⟩, h.2⟩
  | accepting | pausing _ | draining _ _ | returned _ =>
      rw [hphase] at hstarting
      cases hstarting

theorem ClientMain.Standing.task {taken : ProcessEvent δ} {process : Process δ}
    (h : main.Standing) (htask : taken.ofTask)
    (hprocess : main.process.step outcome taken = some process) :
    ClientMain.Standing { main with process } := by
  have hidle (hnone : main.process = {}) : False := by
    rw [hnone, Process.step_idle htask] at hprocess
    cases hprocess
  have hexiting := Process.step_exiting (ProcessEvent.ofTask_ne htask) hprocess
  unfold ClientMain.Standing at h ⊢
  simp only
  split at h
  · exact (hidle h.2.1).elim
  · exact (hidle h.2.1).elim
  · exact (hidle h.2.1).elim
  · exact (hidle h.2.1).elim
  · exact ⟨h.1, hexiting.trans h.2⟩
  · exact ⟨h.1, hexiting.trans h.2⟩
  · exact h
  · obtain hserving | ⟨-, hnone, -⟩ := h
    · exact Or.inl hserving
    · exact (hidle hnone).elim

-- The poll of the main loop changes nothing but its future.
theorem Process.step_poll {process after : Process δ}
    (hs : process.step outcome .poll = some after) :
    after.streaks.health = process.streaks.health ∧ after.connections = process.connections := by
  simp only [Process.step] at hs
  split at hs <;> cases hs
  exact ⟨rfl, rfl⟩

theorem ClientMain.Standing.drain (h : main.report.Holds .Serving)
    (result : Except String Unit) : (main.drain arguments result).Standing := by
  unfold ClientMain.drain ClientMain.Standing
  by_cases hempty : main.connections = []
  · simp only [hempty, if_true]
    exact Or.inl h
  · simp only [hempty, if_false]
    exact h

theorem ClientMain.Standing.step (h : main.Standing)
    (hs : main.step outcome arguments event = some next) : next.Standing := by
  have hphases {phase : ClientPhase} (hphase : main.phase = phase) : match phase with
      | .parsing | .binding _ | .connecting => main.report.Holds .Starting ∧
          main.process = {} ∧ main.accepted = 0 ∧ main.connections = []
      | .listening => main.report.Holds .Registered ∧
          main.process = {} ∧ main.accepted = 0 ∧ main.connections = []
      | .accepting | .pausing _ => main.report.Holds .Serving ∧ main.process.exiting = false
      | .draining _ _ => main.report.Holds .Serving
      | .returned _ => True := by
    unfold ClientMain.Standing at h
    rw [hphase] at h
    cases phase with
    | returned _ => trivial
    | parsing | binding _ | connecting | listening | accepting | pausing _ | draining _ _ => exact h
  obtain ⟨hstarting, -, ⟨error, -, rfl⟩ | ⟨phase, hbefore, hafter, rfl⟩ | ⟨hphase, -, rfl⟩ |
      ⟨hphase, -, rfl⟩⟩ |
    ⟨process, hphase, -, hprocess, rfl⟩ | ⟨hphase, -, rfl⟩ | ⟨resume, hphase, -, -, rfl⟩ |
    ⟨id, -, -, -, ⟨hphase, rfl⟩ | ⟨deadline, result, hphase, rfl⟩⟩ |
    ⟨process, hphase, -, hprocess, ⟨-, rfl⟩ | ⟨hrunning, rfl⟩⟩ | ⟨hphase, -, rfl⟩ |
    ⟨deadline, result, hphase, -, -, rfl⟩ | ⟨taken, process, -, htask, hprocess, rfl⟩ |
    ⟨observed, endpoint, -, -, rfl⟩ | ⟨time, -, -, rfl⟩ := ClientMain.step_cases hs
  · exact Or.inr (h.starting hstarting)
  · have hstarts : main.report.Holds .Starting ∧ main.process = {} ∧ main.accepted = 0 ∧
        main.connections = [] := by
      obtain ⟨hphase, -⟩ | ⟨address, hphase, -⟩ := hbefore
      · exact hphases hphase
      · exact hphases hphase
    obtain rfl | ⟨address, rfl⟩ := hafter
    · exact hstarts
    · exact hstarts
  · obtain ⟨hheld, hrest⟩ := hphases hphase
    exact ⟨hheld.advanceTo .Registered, hrest⟩
  · obtain ⟨hheld, hnone, -⟩ := hphases hphase
    refine ⟨hheld.advanceTo .Serving, ?_⟩
    simp only
    rw [hnone]
  · obtain ⟨hheld, hrunning⟩ := hphases hphase
    have hexiting := Process.step_exiting (by simp) hprocess
    have hhealth : process.streaks = main.process.streaks := by
      simp only [Process.step] at hprocess
      split at hprocess <;> cases hprocess
      rfl
    unfold ClientMain.Standing ClientMain.report at *
    rw [hphase]
    exact ⟨hheld, hexiting.trans hrunning⟩
  · exact hphases hphase
  · exact hphases hphase
  · have hserving := hphases hphase
    unfold ClientMain.Standing
    rw [hphase]
    exact hserving
  · have hserving := hphases hphase
    unfold ClientMain.Standing
    split_ifs
    · exact Or.inl hserving
    · exact hserving
  · have hheld : ClientMain.report { main with process } |>.Holds .Serving := (hphases hphase).1
    exact ClientMain.Standing.drain hheld clientStopped
  · obtain ⟨hheld, -⟩ := hphases hphase
    unfold ClientMain.Standing
    rw [hphase]
    exact ⟨hheld, Bool.eq_false_of_not_eq_true hrunning⟩
  · exact ClientMain.Standing.drain (hphases hphase).1 _
  · exact Or.inl (hphases hphase)
  · exact h.task htask hprocess
  · exact h
  · exact h

theorem ClientMain.start_standing : ClientMain.Standing ({} : ClientMain δ) :=
  ⟨rfl, rfl, rfl, rfl⟩

theorem client_standing
    (hr : (ClientMain.step outcome arguments).run {} events = some main) : main.Standing :=
  Machine.run_invariant ClientMain.Standing (fun _ _ _ h hs => h.step hs)
    ClientMain.start_standing hr

end

-- What `main` returns, once that is settled.
def ClientPhase.verdict : ClientPhase → Option (Except String Unit)
  | .draining _ result | .returned result => some result
  | _ => none

-- The loop of `main` is one of the library's. A startup that fails is asked to
-- stop with its error, and the set is empty then.

def ClientPhase.loop : ClientPhase → Machine.LoopPhase (Except String Unit)
  | .pausing resume => .pausing resume
  | .draining deadline result => .draining deadline result
  | .returned result => .ended result
  | _ => .accepting

def ClientMain.loop {δ : Type*} (main : ClientMain δ) : Machine.Loop (Except String Unit) where
  now := main.now
  phase := main.phase.loop
  spawned := main.accepted
  set := main.connections

def ClientMain.toLoop {δ : Type*} (outcome : δ → Outcome) (arguments : ClientArguments)
    (main : ClientMain δ) (event : ClientEvent δ) :
    List (Machine.LoopEvent (Except String Unit)) :=
  match event with
  | .accepted => [.spawn]
  | .notAccepted => [.pause (fromMillis 100)]
  | .resumed => [.resume]
  | .joined id => [.join id]
  | .graceOver => [.expire]
  | .elapse time => [.elapse time]
  | .task _ | .endpoint _ => []
  | event => ((main.step outcome arguments event).bind fun next =>
      next.phase.verdict).toList.map .stop

section

variable {δ : Type*} {outcome : δ → Outcome} {arguments : ClientArguments}
  {main next last : ClientMain δ} {event : ClientEvent δ} {events : List (ClientEvent δ)}

theorem ClientPhase.loop_starting {phase : ClientPhase} (h : phase.starting) :
    phase.loop = .accepting := by
  cases phase <;> first | rfl | cases h

theorem ClientPhase.loop_allows {phase : ClientPhase} {instant : Nat} (h : phase.allows instant) :
    phase.loop.allows instant := by
  cases phase with
  | parsing | binding _ | connecting | listening | accepting => rfl
  | pausing _ | draining _ _ => exact h
  | returned _ => cases h

-- The steps that may settle what `main` returns.
def ClientEvent.settles : ClientEvent δ → Bool
  | .polled | .askedToStop => true
  | event => event.starts

theorem ClientMain.toLoop_settles (hsettles : event.settles)
    (hs : main.step outcome arguments event = some next) :
    main.toLoop outcome arguments event = next.phase.verdict.toList.map .stop := by
  cases event with
  | parsed _ | bound _ | connected _ | listened _ | polled | askedToStop =>
      simp [ClientMain.toLoop, hs]
  | accepted | notAccepted | resumed | task _ | joined _ | graceOver | endpoint _ | elapse _ =>
      cases hsettles

theorem ClientMain.drain_loop (hphase : main.phase = .accepting) (result : Except String Unit) :
    (Machine.Loop.step arguments.grace).run main.loop
      ((main.drain arguments result).phase.verdict.toList.map .stop) =
      some (main.drain arguments result).loop := by
  by_cases hempty : main.connections = []
  · simp [Machine.run_cons, Machine.Loop.step, ClientMain.loop, ClientMain.drain, hempty,
      ClientPhase.loop, ClientPhase.verdict, hphase]
  · simp [Machine.run_cons, Machine.Loop.step, ClientMain.loop, ClientMain.drain, hempty,
      ClientPhase.loop, ClientPhase.verdict, hphase]

theorem ClientMain.step_loop (h : main.Standing)
    (hs : main.step outcome arguments event = some next) :
    (Machine.Loop.step arguments.grace).run main.loop (main.toLoop outcome arguments event) =
      some next.loop := by
  have hloop {phase : Machine.LoopPhase (Except String Unit)} (hphase : main.phase.loop = phase) :
      main.loop = ⟨main.now, phase, main.accepted, main.connections⟩ := by
    rw [ClientMain.loop, hphase]
  obtain ⟨hstarting, hstarts, hnext⟩ |
    ⟨process, hphase, rfl, hprocess, rfl⟩ | ⟨hphase, rfl, rfl⟩ | ⟨resume, hphase, rfl, hdue, rfl⟩ |
    ⟨id, rfl, hmem, -, ⟨hphase, rfl⟩ | ⟨deadline, result, hphase, rfl⟩⟩ |
    ⟨process, hphase, rfl, hprocess, ⟨-, rfl⟩ | ⟨-, rfl⟩⟩ | ⟨hphase, rfl, rfl⟩ |
    ⟨deadline, result, hphase, rfl, hdue, rfl⟩ | ⟨taken, process, rfl, -, -, rfl⟩ |
    ⟨observed, endpoint, rfl, -, rfl⟩ | ⟨time, rfl, hallows, rfl⟩ := ClientMain.step_cases hs
  · have hsettles : event.settles := by
      cases event <;> first | rfl | cases hstarts
    rw [ClientMain.toLoop_settles hsettles hs, hloop (ClientPhase.loop_starting hstarting)]
    obtain ⟨error, -, rfl⟩ | ⟨phase, -, rfl | ⟨address, rfl⟩, rfl⟩ | ⟨-, -, rfl⟩ |
      ⟨-, -, rfl⟩ := hnext
    · obtain ⟨-, -, haccepted, hconnections⟩ := h.starting hstarting
      simp [ClientMain.fail, ClientPhase.verdict, Machine.run_cons, Machine.Loop.step,
        hconnections, ClientMain.loop, ClientPhase.loop]
    · rfl
    · rfl
    · rfl
    · rfl
  · rw [hloop (congrArg ClientPhase.loop hphase)]
    simp [ClientMain.toLoop, Machine.run_cons, Machine.Loop.step, ClientMain.loop, hphase,
      ClientPhase.loop]
  · rw [hloop (congrArg ClientPhase.loop hphase)]
    rfl
  · rw [hloop (congrArg ClientPhase.loop hphase)]
    simp [ClientMain.toLoop, Machine.run_cons, Machine.Loop.step, hdue, ClientMain.loop,
      ClientPhase.loop]
  · rw [hloop (congrArg ClientPhase.loop hphase)]
    simp [ClientMain.toLoop, Machine.run_cons, Machine.Loop.step, hmem, ClientMain.loop, hphase,
      ClientPhase.loop]
  · rw [hloop (congrArg ClientPhase.loop hphase)]
    by_cases hempty : main.connections.erase id = []
    · simp [ClientMain.toLoop, Machine.run_cons, Machine.Loop.step, hmem, ClientMain.loop,
        ClientPhase.loop, hempty]
    · simp [ClientMain.toLoop, Machine.run_cons, Machine.Loop.step, hmem, ClientMain.loop,
        ClientPhase.loop, hempty]
  · rw [ClientMain.toLoop_settles rfl hs]
    let polled : ClientMain δ := { main with process }
    have hpolled : polled.phase = .accepting := hphase
    exact ClientMain.drain_loop hpolled clientStopped
  · rw [ClientMain.toLoop_settles rfl hs]
    simp [ClientPhase.verdict, hphase, ClientMain.loop]
  · rw [ClientMain.toLoop_settles rfl hs]
    exact ClientMain.drain_loop hphase (.ok ())
  · rw [hloop (congrArg ClientPhase.loop hphase)]
    simp [ClientMain.toLoop, Machine.run_cons, Machine.Loop.step, hdue, ClientMain.loop,
      ClientPhase.loop]
  · rfl
  · rfl
  · have hallowed : main.loop.phase.allows (main.now + time) := ClientPhase.loop_allows hallows
    have hstep : main.loop.step arguments.grace (.elapse time) =
        some { main.loop with now := main.now + time } := by
      unfold Machine.Loop.step
      cases hloopPhase : main.loop.phase <;> simp_all [ClientMain.loop]
    simp only [ClientMain.toLoop, Machine.run_cons, Machine.run_nil, hstep]
    rfl

theorem ClientMain.run_loop (h : main.Standing)
    (hr : (ClientMain.step outcome arguments).run main events = some last) :
    (Machine.Loop.step arguments.grace).run main.loop
      ((ClientMain.step outcome arguments).views (ClientMain.toLoop outcome arguments) main
        events) = some last.loop :=
  (Machine.run_simulates_within ClientMain.Standing ClientMain.loop
    (fun _ _ _ h hs => ⟨h.step hs, ClientMain.step_loop h hs⟩) h hr).2

theorem ClientMain.start_loop : ClientMain.loop ({} : ClientMain δ) = {} := rfl

theorem ClientMain.drain_verdict (result : Except String Unit) :
    (main.drain arguments result).phase.verdict = some result := by
  unfold ClientMain.drain
  split_ifs <;> rfl

-- What may settle what `main` returns, and that it is settled once.
theorem ClientMain.step_settled {result : Except String Unit}
    (hs : main.step outcome arguments event = some next)
    (hresult : next.phase.verdict = some result) :
    (main.phase.verdict = none ∧
      ((main.phase.starting ∧ event.starts ∧ event.fails ∧ next.accepted = main.accepted ∧
          next.report = main.report ∧ ∃ error, result = .error error) ∨
        (event = .polled ∧ result = clientStopped ∧ next.process.exiting) ∨
        (event = .askedToStop ∧ result = .ok ()))) ∨
    main.phase.verdict = some result := by
  obtain ⟨hstarting, hstarts, ⟨error, hfails, rfl⟩ | ⟨phase, -, rfl | ⟨address, rfl⟩, rfl⟩ |
      ⟨-, -, rfl⟩ | ⟨-, -, rfl⟩⟩ |
    ⟨process, hphase, -, -, rfl⟩ | ⟨-, -, rfl⟩ | ⟨resume, -, -, -, rfl⟩ |
    ⟨id, -, -, -, ⟨-, rfl⟩ | ⟨deadline, given, hphase, rfl⟩⟩ |
    ⟨process, hphase, rfl, -, ⟨hexiting, rfl⟩ | ⟨-, rfl⟩⟩ |
    ⟨hphase, rfl, rfl⟩ | ⟨deadline, given, hphase, -, -, rfl⟩ | ⟨taken, process, -, -, -, rfl⟩ |
    ⟨observed, endpoint, -, -, rfl⟩ | ⟨time, -, -, rfl⟩ := ClientMain.step_cases hs
  · have hopen : main.phase.verdict = none := by
      cases hphase : main.phase <;> first | rfl | (rw [hphase] at hstarting; cases hstarting)
    exact Or.inl ⟨hopen, Or.inl
      ⟨hstarting, hstarts, hfails, rfl, rfl, error, (Option.some.inj hresult).symm⟩⟩
  · cases hresult
  · cases hresult
  · cases hresult
  · cases hresult
  · exact Or.inr hresult
  · cases hresult
  · cases hresult
  · exact Or.inr hresult
  · refine Or.inr ?_
    rw [hphase]
    simp only at hresult
    split_ifs at hresult <;> exact hresult
  · rw [ClientMain.drain_verdict] at hresult
    refine Or.inl ⟨by rw [hphase]; rfl, Or.inr (Or.inl ⟨rfl, ?_, hexiting⟩)⟩
    exact (Option.some.inj hresult).symm
  · exact Or.inr hresult
  · rw [ClientMain.drain_verdict] at hresult
    refine Or.inl ⟨by rw [hphase]; rfl, Or.inr (Or.inr ⟨rfl, ?_⟩)⟩
    exact (Option.some.inj hresult).symm
  · refine Or.inr ?_
    rw [hphase]
    exact hresult
  · exact Or.inr hresult
  · exact Or.inr hresult
  · exact Or.inr hresult

-- What `main` has come to since it was settled what it returns.
theorem ClientMain.stopping {result : Except String Unit} {after : List (ClientEvent δ)}
    (h : main.Standing) (hopen : main.phase.verdict = none)
    (hs : main.step outcome arguments event = some next)
    (hresult : next.phase.verdict = some result)
    (hr : (ClientMain.step outcome arguments).run next after = some last) :
    last.loop.Stopping arguments.grace main.loop result := by
  have hsettles : event.settles := by
    obtain ⟨-, ⟨-, hstarts, -⟩ | ⟨rfl, -⟩ | ⟨rfl, -⟩⟩ | hgiven :=
      ClientMain.step_settled hs hresult
    · cases event <;> first | rfl | cases hstarts
    · rfl
    · rfl
    · rw [hopen] at hgiven
      cases hgiven
  have hrun : (ClientMain.step outcome arguments).run main (event :: after) = some last := by
    rw [Machine.run_cons, hs]
    exact hr
  have hloop := ClientMain.run_loop h hrun
  have hview : main.toLoop outcome arguments event = [.stop result] := by
    rw [ClientMain.toLoop_settles hsettles hs, hresult]
    rfl
  simp only [Machine.views, hs, hview] at hloop
  exact Machine.Loop.run_stop hloop

theorem Process.step_ended {process after : Process δ} {taken : ProcessEvent δ}
    {id : ConnectionId} (hended : (process.connections id).isEnded)
    (hs : process.step outcome taken = some after) : (after.connections id).isEnded := by
  have hmoved (other : ConnectionId) (connection : Connection δ)
      (hother : (process.connections other).isEnded = false) :
      ((process.move other connection).connections id).isEnded := by
    have hne : id ≠ other := by
      rintro rfl
      rw [hother] at hended
      cases hended
    simpa [Process.move, hne] using hended
  cases taken with
  | accepted other | resolved other _ | gauge other | flag other | signal other | unwound other
  | closed other =>
      simp only [Process.step] at hs
      split at hs <;> cases hs <;> rename_i hbefore <;>
        exact hmoved other _ (by rw [hbefore]; rfl)
  | count other =>
      simp only [Process.step] at hs
      split at hs <;> cases hs
      rename_i hbefore _
      exact hmoved other _ (by rw [hbefore]; rfl)
  | poll => rwa [(Process.step_poll hs).2]

-- The set holds every task that has not ended.
def ClientMain.Holding (main : ClientMain δ) : Prop :=
  ∀ id < main.accepted, id ∈ main.connections ∨ (main.process.connections id).isEnded

theorem ClientMain.Holding.step (h : main.Holding)
    (hs : main.step outcome arguments event = some next) : next.Holding := by
  have hjoined {joined : ConnectionId} {phase : ClientPhase}
      (hended : (main.process.connections joined).isEnded) :
      ClientMain.Holding { main with
        connections := main.connections.erase joined
        phase } := by
    intro id hid
    obtain hmem | hdone := h id hid
    · by_cases hsame : id = joined
      · subst hsame
        exact Or.inr hended
      · exact Or.inl ((List.mem_erase_of_ne hsame).mpr hmem)
    · exact Or.inr hdone
  have hstepped {taken : ProcessEvent δ} {process : Process δ} {phase : ClientPhase}
      {shuttingDown : Bool} (hprocess : main.process.step outcome taken = some process) :
      ClientMain.Holding { main with process, phase, shuttingDown } := fun id hid =>
    (h id hid).imp_right fun hended => Process.step_ended hended hprocess
  obtain ⟨-, -, ⟨error, -, rfl⟩ | ⟨phase, -, -, rfl⟩ | ⟨-, -, rfl⟩ | ⟨-, -, rfl⟩⟩ |
    ⟨process, -, -, hprocess, rfl⟩ | ⟨-, -, rfl⟩ | ⟨resume, -, -, -, rfl⟩ |
    ⟨id, -, -, hended, ⟨-, rfl⟩ | ⟨deadline, result, -, rfl⟩⟩ |
    ⟨process, -, -, hprocess, ⟨-, rfl⟩ | ⟨-, rfl⟩⟩ | ⟨-, -, rfl⟩ |
    ⟨deadline, result, -, -, -, rfl⟩ | ⟨taken, process, -, -, hprocess, rfl⟩ |
    ⟨observed, endpoint, -, -, rfl⟩ | ⟨time, -, -, rfl⟩ := ClientMain.step_cases hs
  · exact h
  · exact h
  · exact h
  · exact h
  · intro id hid
    simp only [List.mem_append, List.mem_singleton]
    obtain hlt | rfl := Nat.lt_succ_iff_lt_or_eq.mp hid
    · exact (h id hlt).imp Or.inl fun hended => Process.step_ended hended hprocess
    · exact Or.inl (Or.inr rfl)
  · exact h
  · exact h
  · exact hjoined hended
  · exact hjoined hended
  · exact hstepped hprocess
  · exact hstepped hprocess
  · exact h
  · exact h
  · exact hstepped hprocess
  · exact h
  · exact h

theorem client_holding
    (hr : (ClientMain.step outcome arguments).run {} events = some main) : main.Holding := by
  refine Machine.run_invariant ClientMain.Holding (fun _ _ _ h hs => h.step hs) ?_ hr
  intro id hid
  exact absurd hid (Nat.not_lt_zero id)

def ClientEvent.joins : ClientEvent δ → Option ConnectionId
  | .joined id => some id
  | _ => none

theorem ClientMain.toLoop_joined (main : ClientMain δ) (event : ClientEvent δ) :
    (main.toLoop outcome arguments event).filterMap Machine.LoopEvent.joined =
      event.joins.toList := by
  have hstops (result : Option (Except String Unit)) :
      (result.toList.map Machine.LoopEvent.stop).filterMap Machine.LoopEvent.joined = [] := by
    cases result <;> rfl
  cases event with
  | accepted | notAccepted | resumed | task _ | joined _ | graceOver | endpoint _ | elapse _ => rfl
  | parsed _ | bound _ | connected _ | listened _ | polled | askedToStop => exact hstops _

theorem ClientMain.step_askedToStop
    (hs : main.step outcome arguments .askedToStop = some next) :
    main.phase = .accepting ∧ next = main.drain arguments (.ok ()) := by
  cases hphase : main.phase with
  | accepting =>
      simp only [ClientMain.step, hphase, Option.some.injEq] at hs
      exact ⟨rfl, hs.symm⟩
  | parsing | binding _ | connecting | listening | pausing _ | draining _ _ | returned _ =>
      simp [ClientMain.step, hphase] at hs

def ClientEvent.isTimer : ClientEvent δ → Bool
  | .elapse _ | .graceOver => true
  | _ => false

-- If nothing else ends the drain, its grace does.
theorem ClientMain.graceOver_returns {deadline : Nat} {result : Except String Unit}
    (hphase : main.phase = .draining deadline result) (hnow : main.now ≤ deadline) :
    ∃ rest last, (∀ event ∈ rest, ClientEvent.isTimer event) ∧
      (ClientMain.step outcome arguments).run main rest = some last ∧
      last.phase = .returned result := by
  refine ⟨[.elapse (deadline - main.now), .graceOver],
    { main with now := deadline, phase := .returned result }, ?_, ?_, rfl⟩
  · simp [ClientEvent.isTimer]
  · simp [Machine.run_cons, ClientMain.step, hphase, ClientPhase.allows, Nat.add_sub_cancel' hnow]

end

-- Every connection is joined once or left in the set, which holds all that have
-- not ended. Once it is settled what `main` returns, it takes no connection any
-- more: it waits for those it has, no longer than the grace, and returns that.
theorem client_drains {δ : Type*} (outcome : δ → Outcome) (arguments : ClientArguments)
    (events : List (ClientEvent δ)) (main : ClientMain δ)
    (hr : (ClientMain.step outcome arguments).run {} events = some main) :
    (events.filterMap ClientEvent.joins ++ main.connections).Perm (List.range main.accepted) ∧
    (∀ id < main.accepted, id ∈ main.connections ∨ (main.process.connections id).isEnded) ∧
    ∀ (before after : List (ClientEvent δ)) (event : ClientEvent δ) (asked next : ClientMain δ)
      (result : Except String Unit), events = before ++ event :: after →
      (ClientMain.step outcome arguments).run {} before = some asked →
      asked.phase.verdict = none → asked.step outcome arguments event = some next →
      next.phase.verdict = some result →
      main.accepted = asked.accepted ∧ main.now ≤ asked.now + arguments.grace ∧
      (∀ returned, main.phase = .returned returned → returned = result ∧
        (main.connections = [] ∨ main.now = asked.now + arguments.grace)) ∧
      ∃ rest last, (∀ event ∈ rest, ClientEvent.isTimer event) ∧
        (ClientMain.step outcome arguments).run main rest = some last ∧
        last.phase = .returned result := by
  have hloop := ClientMain.run_loop ClientMain.start_standing hr
  rw [ClientMain.start_loop] at hloop
  refine ⟨?_, client_holding hr, ?_⟩
  · have hperm := (Machine.loop_partitions hloop).2
    rwa [Machine.views_filterMap _ _ (fun main event _ _ => main.toLoop_joined event) hr] at hperm
  · rintro before after event asked next result rfl hasked hopen hs hresult
    have hrest : (ClientMain.step outcome arguments).run next after = some main := by
      rwa [Machine.run_append, hasked, Option.bind_some, Machine.run_cons, hs] at hr
    obtain ⟨hspawned, hnow, hphase⟩ :=
      ClientMain.stopping (client_standing hasked) hopen hs hresult hrest
    change main.now ≤ asked.now + arguments.grace at hnow
    have hsame : main.loop.phase = main.phase.loop := rfl
    rw [hsame] at hphase
    refine ⟨hspawned, hnow, fun returned hreturned => ?_, ?_⟩
    · rw [hreturned] at hphase
      exact hphase
    · cases hmain : main.phase with
      | parsing | binding _ | connecting | listening | accepting | pausing _ =>
          rw [hmain] at hphase
          exact hphase.elim
      | returned given =>
          rw [hmain] at hphase
          obtain ⟨rfl, -⟩ := hphase
          exact ⟨[], main, by simp, rfl, hmain⟩
      | draining deadline given =>
          rw [hmain] at hphase
          obtain ⟨rfl, rfl, -⟩ := hphase
          exact ClientMain.graceOver_returns hmain hnow

-- Two connections, one of which is closed and joined. The other one is still
-- dialling when the grace is over.
def hurriedArguments : ClientArguments where
  shutdownGraceSecs := 2
  probeAttempts_pos := ClientArguments.attempts_default
  probeConcurrency_pos := ClientArguments.concurrency_default

def hurriedBefore : List (ClientEvent Outcome) :=
  [.parsed true, .connected true, .listened true, .polled, .accepted, .notAccepted,
    .elapse (fromMillis 100), .resumed, .accepted, .task (.closed 0)]

def hurriedAfter : List (ClientEvent Outcome) :=
  [.joined 0, .elapse (fromSecs 2), .graceOver]

theorem hurried_leaves_one : ∃ asked main : ClientMain Outcome,
    (ClientMain.step id hurriedArguments).run {} hurriedBefore = some asked ∧
    (ClientMain.step id hurriedArguments).run {} (hurriedBefore ++ .askedToStop :: hurriedAfter) =
      some main ∧
    asked.connections = [0, 1] ∧ main.connections = [1] ∧ main.accepted = 2 ∧
    main.now ≤ fromMillis 100 + fromSecs 2 := by
  obtain ⟨asked, hasked, hseen⟩ : ∃ asked : ClientMain Outcome,
      (ClientMain.step id hurriedArguments).run {} hurriedBefore = some asked ∧
      (asked.now, asked.connections, asked.accepted) = (fromMillis 100, [0, 1], 2) :=
    Option.map_eq_some_iff.mp (by decide +kernel)
  obtain ⟨hnow, hbefore, haccepted⟩ :
      asked.now = fromMillis 100 ∧ asked.connections = [0, 1] ∧ asked.accepted = 2 := by
    simpa using hseen
  obtain ⟨main, hr, hconnections⟩ : ∃ main : ClientMain Outcome,
      (ClientMain.step id hurriedArguments).run {}
        (hurriedBefore ++ .askedToStop :: hurriedAfter) = some main ∧ main.connections = [1] :=
    Option.map_eq_some_iff.mp (by decide +kernel)
  obtain ⟨next, hs⟩ : ∃ next, asked.step id hurriedArguments .askedToStop = some next := by
    rw [Machine.run_append, hasked, Option.bind_some, Machine.run_cons] at hr
    obtain ⟨next, hs, -⟩ := Option.bind_eq_some_iff.mp hr
    exact ⟨next, hs⟩
  obtain ⟨hphase, rfl⟩ := ClientMain.step_askedToStop hs
  obtain ⟨-, -, hstopped⟩ := client_drains id hurriedArguments _ main hr
  obtain ⟨hspawned, hlate, -⟩ := hstopped hurriedBefore hurriedAfter .askedToStop asked _ (.ok ())
    rfl hasked (by rw [hphase]; rfl) hs (ClientMain.drain_verdict _)
  rw [hnow] at hlate
  exact ⟨asked, main, hasked, hr, hbefore, hconnections, hspawned.trans haccepted, hlate⟩

end LwdMixnet
