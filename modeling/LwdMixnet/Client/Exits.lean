import LwdMixnet.Client.Lifecycle
import LwdMixnet.Streaks.Refused

namespace LwdMixnet

-- The dials of `main` are those of the process, whatever else `main` does.
def ClientMain.toProcess {δ : Type*} (main : ClientMain δ) (event : ClientEvent δ) :
    List (ProcessEvent δ) :=
  match event with
  | .accepted => [.accepted main.accepted]
  | .task event => [event]
  | .polled => [.poll]
  | _ => []

section

variable {δ : Type*} {outcome : δ → Outcome} {arguments : ClientArguments}
  {main next last : ClientMain δ} {event : ClientEvent δ} {events : List (ClientEvent δ)}

theorem ClientMain.step_process (hs : main.step outcome arguments event = some next) :
    (Process.step outcome).run main.process (main.toProcess event) = some next.process := by
  obtain ⟨-, hstarts, ⟨error, -, rfl⟩ | ⟨phase, -, -, rfl⟩ | ⟨-, -, rfl⟩ | ⟨-, -, rfl⟩⟩ |
    ⟨process, -, rfl, hprocess, rfl⟩ | ⟨-, rfl, rfl⟩ | ⟨resume, -, rfl, -, rfl⟩ |
    ⟨id, rfl, -, -, ⟨-, rfl⟩ | ⟨deadline, result, -, rfl⟩⟩ |
    ⟨process, -, rfl, hprocess, ⟨-, rfl⟩ | ⟨-, rfl⟩⟩ | ⟨-, rfl, rfl⟩ |
    ⟨deadline, result, -, rfl, -, rfl⟩ | ⟨taken, process, rfl, -, hprocess, rfl⟩ |
    ⟨observed, endpoint, rfl, -, rfl⟩ | ⟨time, rfl, -, rfl⟩ := ClientMain.step_cases hs
  · cases event <;> first | rfl | cases hstarts
  · cases event <;> first | rfl | cases hstarts
  · cases event <;> first | rfl | cases hstarts
  · cases event <;> first | rfl | cases hstarts
  · simp [ClientMain.toProcess, Machine.run_cons, hprocess]
  · rfl
  · rfl
  · rfl
  · rfl
  · simp [ClientMain.toProcess, Machine.run_cons, hprocess, ClientMain.drain]
  · simp [ClientMain.toProcess, Machine.run_cons, hprocess]
  · rfl
  · rfl
  · simp [ClientMain.toProcess, Machine.run_cons, hprocess]
  · rfl
  · rfl

theorem client_process
    (hr : (ClientMain.step outcome arguments).run main events = some last) :
    (Process.step outcome).run main.process
      ((ClientMain.step outcome arguments).views ClientMain.toProcess main events) =
      some last.process :=
  Machine.run_simulates ClientMain.process (fun _ _ _ hs => ClientMain.step_process hs) hr

theorem ClientMain.step_folded (hs : main.step outcome arguments event = some next) :
    main.process.folded <+: next.process.folded :=
  Machine.run_invariant (fun process : Process δ => main.process.folded <+: process.folded)
    (fun _ _ _ hle hstep => hle.trans (Process.step_folded hstep)) List.prefix_rfl
    (ClientMain.step_process hs)

theorem ClientMain.step_signalled (hs : main.step outcome arguments event = some next) :
    main.process.signalled ≤ next.process.signalled :=
  Machine.run_invariant (fun process : Process δ => main.process.signalled ≤ process.signalled)
    (fun _ _ _ hle hstep => hle.trans (Process.step_signalled hstep)) (Nat.le_refl _)
    (ClientMain.step_process hs)

-- Once it is settled what `main` returns, it takes no connection and advances no
-- state.
theorem ClientMain.step_after {result : Except String Unit}
    (hgiven : main.phase.verdict = some result)
    (hs : main.step outcome arguments event = some next) :
    next.accepted = main.accepted ∧ next.code = main.code := by
  have hclosed {phase : ClientPhase} (hphase : main.phase = phase) (hopen : phase.verdict = none) :
      False := by
    rw [hphase, hopen] at hgiven
    cases hgiven
  obtain ⟨hstarting, -, -⟩ | ⟨process, hphase, -, -, -⟩ | ⟨-, -, rfl⟩ | ⟨resume, -, -, -, rfl⟩ |
    ⟨id, -, -, -, ⟨-, rfl⟩ | ⟨deadline, given, -, rfl⟩⟩ | ⟨process, hphase, -, -, -⟩ |
    ⟨hphase, -, -⟩ | ⟨deadline, given, -, -, -, rfl⟩ | ⟨taken, process, -, -, -, rfl⟩ |
    ⟨observed, endpoint, -, -, rfl⟩ | ⟨time, -, -, rfl⟩ := ClientMain.step_cases hs
  · cases hphase : main.phase with
    | parsing | binding _ | connecting | listening => exact (hclosed hphase rfl).elim
    | accepting | pausing _ | draining _ _ | returned _ =>
        rw [hphase] at hstarting
        cases hstarting
  · exact (hclosed hphase rfl).elim
  · exact ⟨rfl, rfl⟩
  · exact ⟨rfl, rfl⟩
  · exact ⟨rfl, rfl⟩
  · exact ⟨rfl, rfl⟩
  · exact (hclosed hphase rfl).elim
  · exact (hclosed hphase rfl).elim
  · exact ⟨rfl, rfl⟩
  · exact ⟨rfl, rfl⟩
  · exact ⟨rfl, rfl⟩
  · exact ⟨rfl, rfl⟩

-- Why `main` returns what it does.
theorem client_settled {result : Except String Unit}
    (hr : (ClientMain.step outcome arguments).run {} events = some main)
    (hresult : main.phase.verdict = some result) :
    (events.any ClientEvent.fails ∧ main.accepted = 0 ∧
        (∃ state ≠ .Serving, main.report.Holds state) ∧ ∃ error, result = .error error) ∨
      (.askedToStop ∈ events ∧ result = .ok ()) ∨
      (RefusedInARow outcome REFUSAL_LIMIT main.process.folded ∧ result = clientStopped) := by
  refine Machine.run_history (fun events (main : ClientMain δ) => main.phase.verdict = some result →
    (events.any ClientEvent.fails ∧ main.accepted = 0 ∧
        (∃ state ≠ .Serving, main.report.Holds state) ∧ ∃ error, result = .error error) ∨
      (.askedToStop ∈ events ∧ result = .ok ()) ∨
      (RefusedInARow outcome REFUSAL_LIMIT main.process.folded ∧ result = clientStopped))
    (fun h => by cases h) ?_ hr hresult
  intro events main event next hr h hs hresult
  have hprocess := client_process (Machine.run_snoc hr hs)
  obtain ⟨-, ⟨hstarting, -, hfails, haccepted, hreport, herror⟩ | ⟨rfl, rfl, hexiting⟩ |
    ⟨rfl, rfl⟩⟩ | hgiven := ClientMain.step_settled hs hresult
  · obtain ⟨hstate, -, hnone, -⟩ := (client_standing hr).starting hstarting
    refine Or.inl ⟨by simp [hfails], haccepted.trans hnone, ?_, herror⟩
    rw [hreport]
    exact hstate
  · refine Or.inr (Or.inr ⟨process_refused hprocess (process_called hprocess (Or.inr ?_)), rfl⟩)
    unfold Notify.Ready
    rw [(process_sound hprocess).exiting.mp hexiting]
    trivial
  · exact Or.inr (Or.inl ⟨by simp, rfl⟩)
  · obtain ⟨haccepted, hcode⟩ := ClientMain.step_after hgiven hs
    obtain ⟨hfails, hnone, ⟨state, hne, hheld⟩, herror⟩ | ⟨hasked, hok⟩ | ⟨hrefused, hstopped⟩ :=
      h hgiven
    · refine Or.inl ⟨by simp [hfails], haccepted.trans hnone, ⟨state, hne, ?_⟩, herror⟩
      exact hcode.trans hheld
    · exact Or.inr (Or.inl ⟨List.mem_append_left _ hasked, hok⟩)
    · exact Or.inr (Or.inr ⟨hrefused.append (ClientMain.step_folded hs), hstopped⟩)

-- The pause after an accept that failed.
def ClientMain.Paused (main : ClientMain δ) : Prop :=
  ∀ resume, main.phase = .pausing resume → resume ≤ main.now + fromMillis 100

theorem ClientMain.Paused.step (h : main.Paused)
    (hs : main.step outcome arguments event = some next) : next.Paused := by
  intro resume hpausing
  obtain ⟨-, -, ⟨_, -, rfl⟩ | ⟨_, -, hgoes, rfl⟩ | ⟨-, -, rfl⟩ | ⟨-, -, rfl⟩⟩ |
    ⟨_, hphase, -, -, rfl⟩ | ⟨-, -, rfl⟩ | ⟨_, -, -, -, rfl⟩ |
    ⟨_, -, -, -, ⟨hphase, rfl⟩ | ⟨_, _, -, rfl⟩⟩ | ⟨_, hphase, -, -, ⟨-, rfl⟩ | ⟨-, rfl⟩⟩ |
    ⟨-, -, rfl⟩ | ⟨_, _, -, -, -, rfl⟩ | ⟨_, _, -, -, -, rfl⟩ | ⟨_, _, -, -, rfl⟩ |
    ⟨time, -, -, rfl⟩ := ClientMain.step_cases hs
  · cases hpausing
  · obtain rfl : _ = ClientPhase.pausing resume := hpausing
    obtain hconnecting | ⟨_, hbinding⟩ := hgoes
    · cases hconnecting
    · cases hbinding
  · cases hpausing
  · cases hpausing
  · exact h resume hpausing
  · obtain rfl := ClientPhase.pausing.inj hpausing
    exact Nat.le_refl _
  · cases hpausing
  · exact h resume hpausing
  · simp only at hpausing
    split_ifs at hpausing
  · simp only [ClientMain.drain] at hpausing
    split_ifs at hpausing
  · exact h resume hpausing
  · simp only [ClientMain.drain] at hpausing
    split_ifs at hpausing
  · cases hpausing
  · exact h resume hpausing
  · exact h resume hpausing
  · have hbefore := h resume hpausing
    change resume ≤ main.now + time + fromMillis 100
    omega

theorem client_paused (hr : (ClientMain.step outcome arguments).run {} events = some main) :
    main.Paused :=
  Machine.run_invariant ClientMain.Paused (fun _ _ _ h hs => h.step hs)
    (fun _ hpausing => by cases hpausing) hr

-- The next poll of a loop that was told of a dead client leaves it.
theorem ClientMain.polled (arguments : ClientArguments) (main : ClientMain δ)
    {taken : List (ProcessEvent δ)}
    (hr : (Process.step outcome).run {} taken = some main.process)
    (hcalled : 0 < main.process.signalled) (hphase : main.phase = .accepting)
    (hexiting : main.process.exiting = false) :
    ∃ last, main.step outcome arguments .polled = some last ∧ last.now = main.now ∧
      last.phase.verdict = some clientStopped := by
  obtain ⟨process, hpoll, hready⟩ := Process.poll_exits hr hcalled (by simp [hexiting])
  refine ⟨ClientMain.drain arguments { main with process } clientStopped, ?_, rfl,
    ClientMain.drain_verdict clientStopped⟩
  simp [ClientMain.step, hphase, hpoll, hready]

-- So a loop that was told of a dead client leaves at its next poll, and polls as
-- soon as it is not waiting after an accept that failed.
theorem ClientMain.leaves {taken : List (ProcessEvent δ)} (h : main.Standing)
    (hpaused : main.Paused) (hr : (Process.step outcome).run {} taken = some main.process)
    (hcalled : 0 < main.process.signalled) (hopen : main.phase.verdict = none) :
    (∀ next, main.step outcome arguments .polled = some next →
      next.phase.verdict = some clientStopped) ∧
    ∃ pause last, (∀ event ∈ pause, event = .resumed ∨ ∃ time, event = .elapse time) ∧
      (ClientMain.step outcome arguments).run main (pause ++ [.polled]) = some last ∧
      last.now ≤ main.now + fromMillis 100 ∧ last.phase.verdict = some clientStopped := by
  unfold ClientMain.Standing at h
  cases hphase : main.phase with
  | parsing | binding _ | connecting | listening =>
      rw [hphase] at h
      rw [h.2.1] at hcalled
      exact absurd hcalled (Nat.lt_irrefl 0)
  | accepting =>
      rw [hphase] at h
      obtain ⟨last, hs, hnow, hverdict⟩ :=
        ClientMain.polled arguments main hr hcalled hphase h.2
      refine ⟨fun next hnext => ?_, [], last, by simp, ?_, by omega, hverdict⟩
      · obtain rfl := Option.some.inj (hnext.symm.trans hs)
        exact hverdict
      · simp [Machine.run_cons, hs]
  | pausing resume =>
      rw [hphase] at h
      have hbound := hpaused resume hphase
      refine ⟨fun next hnext => by simp [ClientMain.step, hphase] at hnext, ?_⟩
      obtain hdue | hearly := Nat.le_total resume main.now
      · obtain ⟨last, hs, hnow, hverdict⟩ := ClientMain.polled arguments
          { main with phase := .accepting } hr hcalled rfl h.2
        have hresumed : main.step outcome arguments .resumed =
            some { main with phase := .accepting } := by
          simp [ClientMain.step, hphase, hdue]
        refine ⟨[.resumed], last, by simp, ?_, ?_, hverdict⟩
        · simp [Machine.run_cons, hresumed, hs]
        · exact hnow.trans_le (Nat.le_add_right _ _)
      · obtain ⟨last, hs, hnow, hverdict⟩ := ClientMain.polled arguments
          { main with now := resume, phase := .accepting } hr hcalled rfl h.2
        have helapsed : main.step outcome arguments (.elapse (resume - main.now)) =
            some { main with now := resume } := by
          simp [ClientMain.step, hphase, ClientPhase.allows, Nat.add_sub_cancel' hearly]
        have hresumed : ClientMain.step outcome arguments { main with now := resume } .resumed =
            some { main with now := resume, phase := .accepting } := by
          simp [ClientMain.step, hphase]
        refine ⟨[.elapse (resume - main.now), .resumed], last, by simp, ?_, ?_, hverdict⟩
        · simp [Machine.run_cons, helapsed, hresumed, hs]
        · exact hnow.trans_le hbound
  | draining _ _ | returned _ =>
      rw [hphase] at hopen
      cases hopen

end

-- What a half returns and when: the error of its startup, before it has taken a
-- connection and without ever having served; nothing, if it was asked to stop;
-- and the dead client's error only after five dials in a row that opened nothing.
-- Once the fold of such a fifth dial is through and nothing was settled before,
-- any poll of the loop leaves with that error, and one poll does, after no more
-- than the pause that follows an accept that failed.
theorem client_exits (arguments : ClientArguments)
    (events : List (ClientEvent (Resolved arguments.carrying.dial)))
    (main : ClientMain (Resolved arguments.carrying.dial))
    (hr : (ClientMain.step Resolved.outcome arguments).run {} events = some main) :
    (∀ result, main.phase.verdict = some result →
      (events.any ClientEvent.fails ∧ main.accepted = 0 ∧ main.report.state ≠ .Serving ∧
          ∃ error, result = .error error) ∨
        (.askedToStop ∈ events ∧ result = .ok ()) ∨
        (result = clientStopped ∧ ∃ earlier latest later,
          main.process.folded = earlier ++ latest ++ later ∧ latest.length = 5 ∧
          ∀ dial ∈ latest, Resolved.OpenedNothing dial)) ∧
    ∀ (before after : List (ClientEvent (Resolved arguments.carrying.dial))) (id : ConnectionId)
      (folding : ClientMain (Resolved arguments.carrying.dial)),
      events = before ++ .task (.signal id) :: after →
      (ClientMain.step Resolved.outcome arguments).run {} before = some folding →
      (∃ earlier latest, folding.process.folded = earlier ++ latest ∧ latest.length = 5 ∧
        ∀ dial ∈ latest, Resolved.OpenedNothing dial) →
      main.phase.verdict = none →
      (∀ next, main.step Resolved.outcome arguments .polled = some next →
        next.phase.verdict = some clientStopped) ∧
      ∃ pause last, (∀ event ∈ pause, event = .resumed ∨ ∃ time, event = .elapse time) ∧
        (ClientMain.step Resolved.outcome arguments).run main (pause ++ [.polled]) = some last ∧
        last.now ≤ main.now + fromMillis 100 ∧ last.phase.verdict = some clientStopped := by
  refine ⟨fun result hresult => ?_, ?_⟩
  · obtain ⟨hfails, hnone, ⟨state, hne, hheld⟩, herror⟩ | hasked |
      ⟨⟨earlier, latest, later, hsplit, hlen, hall⟩, hstopped⟩ := client_settled hr hresult
    · exact Or.inl ⟨hfails, hnone, by rwa [hheld.state], herror⟩
    · exact Or.inr (Or.inl hasked)
    · refine Or.inr (Or.inr ⟨hstopped, earlier, latest, later, hsplit, hlen, ?_⟩)
      exact fun dial hdial => dial.outcome_iff.mp (hall dial hdial)
  · rintro before after id folding rfl hfolding ⟨earlier, latest, hsplit, hlen, hall⟩ hopen
    obtain ⟨next, hs, hafter⟩ :
        ∃ next, folding.step Resolved.outcome arguments (.task (.signal id)) = some next ∧
          (ClientMain.step Resolved.outcome arguments).run next after = some main := by
      rw [Machine.run_append, hfolding, Option.bind_some, Machine.run_cons] at hr
      exact Option.bind_eq_some_iff.mp hr
    have hsignal : folding.process.step Resolved.outcome (.signal id) = some next.process := by
      have hprocess := ClientMain.step_process hs
      simpa [ClientMain.toProcess, Machine.run_cons] using hprocess
    have hcalled : folding.process.signalled < next.process.signalled := by
      refine (Process.signals_iff (client_process hfolding) hsignal).mpr ?_
      refine (le_refusalRun_iff _ _ _).mpr ⟨earlier, latest, hsplit, hlen, ?_⟩
      exact fun dial hdial => dial.outcome_iff.mpr (hall dial hdial)
    have hkept : next.process.signalled ≤ main.process.signalled :=
      Machine.run_invariant (fun later : ClientMain _ =>
        next.process.signalled ≤ later.process.signalled)
        (fun _ _ _ hle hstep => hle.trans (ClientMain.step_signalled hstep)) (Nat.le_refl _) hafter
    have hrun : (ClientMain.step Resolved.outcome arguments).run {}
        (before ++ .task (.signal id) :: after) = some main := hr
    exact ClientMain.leaves (client_standing hrun) (client_paused hrun) (client_process hrun)
      (by omega) hopen

-- Six opens over two rounds, all of them refused, five times over.
def hopelessEvents : List DialEvent := List.replicate 6 (.refused 1)

def hopelessRound : Round where
  discarded := List.replicate 3 ⟨0, .Open 1⟩

def hopelessDial : Resolved hurriedArguments.carrying.dial where
  events := hopelessEvents
  dial := ((Dial.step hurriedArguments.carrying.dial).run
    (.start hurriedArguments.carrying.dial) hopelessEvents).get (by decide +kernel)
  result := .error { rounds := [hopelessRound, hopelessRound] }
  ran := Option.some_get _ |>.symm
  returned := by decide +kernel

def hopelessRun (id : ConnectionId) :
    List (ClientEvent (Resolved hurriedArguments.carrying.dial)) :=
  [.polled, .accepted, .task (.resolved id hopelessDial), .task (.count id), .task (.gauge id),
    .task (.flag id)]

def untilHopeless : List (ClientEvent (Resolved hurriedArguments.carrying.dial)) :=
  [.parsed true, .connected true, .listened true] ++
    (List.range 4).flatMap (fun id => hopelessRun id ++ [.task (.signal id), .task (.closed id)]) ++
    hopelessRun 4

theorem hopeless_run_leaves : ∃ folding main pause last,
    (ClientMain.step Resolved.outcome hurriedArguments).run {} untilHopeless = some folding ∧
    (ClientMain.step Resolved.outcome hurriedArguments).run {}
      (untilHopeless ++ [.task (.signal 4), .notAccepted]) = some main ∧
    (ClientMain.step Resolved.outcome hurriedArguments).run main (pause ++ [.polled]) = some last ∧
    last.now ≤ main.now + fromMillis 100 ∧ last.phase.verdict = some clientStopped := by
  obtain ⟨folding, hfolding, hfolded⟩ : ∃ folding,
      (ClientMain.step Resolved.outcome hurriedArguments).run {} untilHopeless = some folding ∧
      folding.process.folded = List.replicate 5 hopelessDial :=
    Option.map_eq_some_iff.mp rfl
  obtain ⟨main, hr, hopen⟩ : ∃ main,
      (ClientMain.step Resolved.outcome hurriedArguments).run {}
        (untilHopeless ++ [.task (.signal 4), .notAccepted]) = some main ∧
      main.phase.verdict = none :=
    Option.map_eq_some_iff.mp rfl
  have hopened : hopelessDial.OpenedNothing := by
    simp [Resolved.OpenedNothing, hopelessDial, hopelessEvents]
  obtain ⟨-, hleaves⟩ := client_exits hurriedArguments _ main hr
  obtain ⟨-, pause, last, -, hlast, hnow, hverdict⟩ := hleaves untilHopeless [.notAccepted] 4
    folding rfl hfolding ⟨[], List.replicate 5 hopelessDial, hfolded, rfl, by simp [hopened]⟩ hopen
  exact ⟨folding, main, pause, last, hfolding, hr, hlast, hnow, hverdict⟩

end LwdMixnet
