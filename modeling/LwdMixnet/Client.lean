import LwdMixnet.Carry
import LwdMixnet.Endpoint
import LwdMixnet.Machine.Drain
import LwdMixnet.Streaks.Process

namespace LwdMixnet

structure ClientArguments where
  bind : String := "127.0.0.1:9068"
  probeTimeoutSecs : Nat := 10
  probeAttempts : Nat := 6
  probeConcurrency : Nat := 3
  noProbe : Bool := false
  stallTimeoutSecs : Nat := 60
  metricsBind : Option String := none
  shutdownGraceSecs : Nat := 10
  probeAttempts_pos : 0 < probeAttempts
  probeConcurrency_pos : 0 < probeConcurrency

-- The defaults are counts the arguments may have.

theorem ClientArguments.attempts_default : 0 < 6 := by decide

theorem ClientArguments.concurrency_default : 0 < 3 := by decide

def ClientArguments.carrying (arguments : ClientArguments) : Carrying where
  dial := {
    probe :=
      if arguments.noProbe then none
      else some {
        timeout := fromSecs arguments.probeTimeoutSecs
        attempts := arguments.probeAttempts
        concurrency := arguments.probeConcurrency
        attempts_pos := arguments.probeAttempts_pos
        concurrency_pos := arguments.probeConcurrency_pos } }
  watchdog := { stall := some (fromSecs arguments.stallTimeoutSecs) }

def ClientArguments.grace (arguments : ClientArguments) : Nat :=
  fromSecs arguments.shutdownGraceSecs

-- Where `main` stands: in the parse of the server's address, in the bind of the
-- metrics endpoint, in the connect, in the bind of the wallet's listener, in its
-- loop, in the pause after an accept that failed, or in `drain`.
inductive ClientPhase
  | parsing
  | binding (address : String)
  | connecting
  | listening
  | accepting
  | pausing (resume : Nat)
  | draining (deadline : Nat) (result : Except String Unit)
  | returned (result : Except String Unit)

-- `connections` is the set of tasks, and the tasks themselves are connections of
-- the process. The flag of the report is the one that the streaks keep.
structure ClientMain (δ : Type*) where
  now : Nat := 0
  phase : ClientPhase := .parsing
  code : Nat := 0
  shuttingDown : Bool := false
  endpoint : Endpoint := {}
  process : Process δ := {}
  accepted : Nat := 0
  connections : List ConnectionId := []

def ClientMain.report {δ : Type*} (main : ClientMain δ) : HealthReport where
  toHealth := main.process.streaks.health
  code := main.code

inductive ClientEvent (δ : Type*)
  | parsed (ok : Bool)
  | bound (ok : Bool)
  | connected (ok : Bool)
  | listened (ok : Bool)
  | accepted
  | notAccepted
  | resumed
  | task (event : ProcessEvent δ)
  | joined (id : ConnectionId)
  | polled
  | askedToStop
  | graceOver
  | endpoint (event : EndpointEvent)
  | elapse (time : Nat)

-- What the connections' tasks do on their own.
def ProcessEvent.ofTask {δ : Type*} : ProcessEvent δ → Bool
  | .accepted _ | .poll => false
  | _ => true

def Connection.isEnded {δ : Type*} : Connection δ → Bool
  | .ended => true
  | _ => false

-- Time does not pass beyond an armed timer, nor after `main`.
def ClientPhase.allows (phase : ClientPhase) (instant : Nat) : Bool :=
  match phase with
  | .pausing resume => instant ≤ resume
  | .draining deadline _ => instant ≤ deadline
  | .returned _ => false
  | _ => true

-- The endpoint is spawned once it is bound, if it is asked for, and is gone with
-- the process.
def ClientPhase.observable (arguments : ClientArguments) : ClientPhase → Bool
  | .parsing | .binding _ | .returned _ => false
  | _ => arguments.metricsBind.isSome

-- What a run of refusals makes `main` return.
def clientStopped : Except String Unit :=
  .error "the local mixnet client stopped opening streams"

namespace ClientMain

variable {δ : Type*}

def fail (main : ClientMain δ) (error : String) : ClientMain δ :=
  { main with phase := .returned (.error error) }

-- The two arms that leave the loop tell the endpoint and go into `drain`.
def drain (arguments : ClientArguments) (main : ClientMain δ) (result : Except String Unit) :
    ClientMain δ :=
  { main with
    shuttingDown := true
    phase :=
      if main.connections = [] then .returned result
      else .draining (main.now + arguments.grace) result }

def join (main : ClientMain δ) (id : ConnectionId) : Option (ClientMain δ) :=
  if id ∈ main.connections ∧ (main.process.connections id).isEnded then
    some { main with connections := main.connections.erase id }
  else none

-- A connection that is not accepted is waited after.
def step (outcome : δ → Outcome) (arguments : ClientArguments) :
    Machine (ClientMain δ) (ClientEvent δ) := fun main event =>
  match main.phase, event with
  | .parsing, .parsed ok =>
      if ok then
        some { main with
          phase :=
            match arguments.metricsBind with
            | some address => .binding address
            | none => .connecting }
      else some (main.fail "parsing the server's Nym address")
  | .binding address, .bound ok =>
      if ok then some { main with phase := .connecting }
      else some (main.fail ("binding the metrics endpoint on " ++ address))
  | .connecting, .connected ok =>
      if ok then
        some { main with code := (main.report.advanceTo .Registered).code, phase := .listening }
      else some (main.fail "connecting to the mixnet")
  | .listening, .listened ok =>
      if ok then
        some { main with code := (main.report.advanceTo .Serving).code, phase := .accepting }
      else some (main.fail ("binding " ++ arguments.bind))
  | .accepting, .accepted =>
      (main.process.step outcome (.accepted main.accepted)).map fun process =>
        { main with
          process
          accepted := main.accepted + 1
          connections := main.connections ++ [main.accepted] }
  | .accepting, .notAccepted => some { main with phase := .pausing (main.now + fromMillis 100) }
  | .pausing resume, .resumed =>
      if resume ≤ main.now then some { main with phase := .accepting } else none
  | .accepting, .joined id => main.join id
  | .accepting, .polled =>
      (main.process.step outcome .poll).map fun process =>
        let main := { main with process }
        if process.exiting then main.drain arguments clientStopped else main
  | .accepting, .askedToStop => some (main.drain arguments (.ok ()))
  | .draining _ result, .joined id =>
      (main.join id).map fun main =>
        if main.connections = [] then { main with phase := .returned result } else main
  | .draining deadline result, .graceOver =>
      if deadline ≤ main.now then some { main with phase := .returned result } else none
  | .returned _, _ => none
  | _, .task event =>
      if event.ofTask then
        (main.process.step outcome event).map fun process => { main with process }
      else none
  | phase, .endpoint event =>
      if phase.observable arguments then
        (main.endpoint.step main.report main.shuttingDown event).map fun endpoint =>
          { main with endpoint }
      else none
  | phase, .elapse time =>
      if phase.allows (main.now + time) then some { main with now := main.now + time } else none
  | _, _ => none

end ClientMain

def ClientPhase.starting : ClientPhase → Bool
  | .parsing | .binding _ | .connecting | .listening => true
  | _ => false

def ClientEvent.starts {δ : Type*} : ClientEvent δ → Bool
  | .parsed _ | .bound _ | .connected _ | .listened _ => true
  | _ => false

def ClientEvent.fails {δ : Type*} : ClientEvent δ → Bool
  | .parsed false | .bound false | .connected false | .listened false => true
  | _ => false

-- Everything a step can do.
theorem ClientMain.step_cases {δ : Type*} {outcome : δ → Outcome} {arguments : ClientArguments}
    {main next : ClientMain δ} {event : ClientEvent δ}
    (hs : main.step outcome arguments event = some next) :
    (main.phase.starting ∧ event.starts ∧
      ((∃ error, event.fails ∧ next = main.fail error) ∨
        (∃ phase, (main.phase = .parsing ∧ event = .parsed true ∨
            ∃ address, main.phase = .binding address ∧ event = .bound true) ∧
          (phase = .connecting ∨ ∃ address, phase = .binding address) ∧
          next = { main with phase }) ∨
        (main.phase = .connecting ∧ event = .connected true ∧ next = { main with
          code := (main.report.advanceTo .Registered).code
          phase := .listening }) ∨
        (main.phase = .listening ∧ event = .listened true ∧ next = { main with
          code := (main.report.advanceTo .Serving).code
          phase := .accepting }))) ∨
    (∃ process, main.phase = .accepting ∧ event = .accepted ∧
      main.process.step outcome (.accepted main.accepted) = some process ∧
      next = { main with
        process
        accepted := main.accepted + 1
        connections := main.connections ++ [main.accepted] }) ∨
    (main.phase = .accepting ∧ event = .notAccepted ∧
      next = { main with phase := .pausing (main.now + fromMillis 100) }) ∨
    (∃ resume, main.phase = .pausing resume ∧ event = .resumed ∧ resume ≤ main.now ∧
      next = { main with phase := .accepting }) ∨
    (∃ id, event = .joined id ∧ id ∈ main.connections ∧ (main.process.connections id).isEnded ∧
      (main.phase = .accepting ∧ next = { main with connections := main.connections.erase id } ∨
        ∃ deadline result, main.phase = .draining deadline result ∧ next = { main with
          connections := main.connections.erase id
          phase := if main.connections.erase id = [] then .returned result
            else .draining deadline result })) ∨
    (∃ process, main.phase = .accepting ∧ event = .polled ∧
      main.process.step outcome .poll = some process ∧
      (process.exiting ∧ next = ({ main with process }).drain arguments clientStopped ∨
        ¬process.exiting ∧ next = { main with process })) ∨
    (main.phase = .accepting ∧ event = .askedToStop ∧ next = main.drain arguments (.ok ())) ∨
    (∃ deadline result, main.phase = .draining deadline result ∧ event = .graceOver ∧
      deadline ≤ main.now ∧ next = { main with phase := .returned result }) ∨
    (∃ taken process, event = .task taken ∧ taken.ofTask ∧
      main.process.step outcome taken = some process ∧ next = { main with process }) ∨
    (∃ observed endpoint, event = .endpoint observed ∧
      main.endpoint.step main.report main.shuttingDown observed = some endpoint ∧
      next = { main with endpoint }) ∨
    (∃ time, event = .elapse time ∧ main.phase.allows (main.now + time) ∧
      next = { main with now := main.now + time }) := by
  simp only [ClientMain.step] at hs
  split at hs
  · rename_i ok hphase
    split_ifs at hs with hok
    · cases hs
      subst hok
      refine Or.inl ⟨by rw [hphase]; rfl, rfl,
        Or.inr (Or.inl ⟨_, Or.inl ⟨hphase, rfl⟩, ?_, rfl⟩)⟩
      cases arguments.metricsBind with
      | none => exact Or.inl rfl
      | some address => exact Or.inr ⟨address, rfl⟩
    · cases hs
      exact Or.inl ⟨by rw [hphase]; rfl, rfl,
        Or.inl ⟨_, by simp [ClientEvent.fails, hok], rfl⟩⟩
  · rename_i address ok hphase
    split_ifs at hs with hok
    · cases hs
      subst hok
      exact Or.inl ⟨by rw [hphase]; rfl, rfl,
        Or.inr (Or.inl ⟨_, Or.inr ⟨address, hphase, rfl⟩, Or.inl rfl, rfl⟩)⟩
    · cases hs
      exact Or.inl ⟨by rw [hphase]; rfl, rfl,
        Or.inl ⟨_, by simp [ClientEvent.fails, hok], rfl⟩⟩
  · rename_i ok hphase
    split_ifs at hs with hok
    · cases hs
      subst hok
      exact Or.inl ⟨by rw [hphase]; rfl, rfl, Or.inr (Or.inr (Or.inl ⟨hphase, rfl, rfl⟩))⟩
    · cases hs
      exact Or.inl ⟨by rw [hphase]; rfl, rfl,
        Or.inl ⟨_, by simp [ClientEvent.fails, hok], rfl⟩⟩
  · rename_i ok hphase
    split_ifs at hs with hok
    · cases hs
      subst hok
      exact Or.inl ⟨by rw [hphase]; rfl, rfl, Or.inr (Or.inr (Or.inr ⟨hphase, rfl, rfl⟩))⟩
    · cases hs
      exact Or.inl ⟨by rw [hphase]; rfl, rfl,
        Or.inl ⟨_, by simp [ClientEvent.fails, hok], rfl⟩⟩
  · rename_i hphase
    obtain ⟨process, hprocess, rfl⟩ := Option.map_eq_some_iff.mp hs
    exact Or.inr (Or.inl ⟨process, hphase, rfl, hprocess, rfl⟩)
  · rename_i hphase
    cases hs
    exact Or.inr (Or.inr (Or.inl ⟨hphase, rfl, rfl⟩))
  · rename_i resume hphase
    split_ifs at hs with hdue
    cases hs
    exact Or.inr (Or.inr (Or.inr (Or.inl ⟨resume, hphase, rfl, hdue, rfl⟩)))
  · rename_i id hphase
    unfold ClientMain.join at hs
    split_ifs at hs with hjoin
    cases hs
    exact Or.inr (Or.inr (Or.inr (Or.inr (Or.inl
      ⟨id, rfl, hjoin.1, hjoin.2, Or.inl ⟨hphase, rfl⟩⟩))))
  · rename_i hphase
    obtain ⟨process, hprocess, rfl⟩ := Option.map_eq_some_iff.mp hs
    refine Or.inr (Or.inr (Or.inr (Or.inr (Or.inr (Or.inl ⟨process, hphase, rfl, hprocess, ?_⟩)))))
    by_cases hexiting : process.exiting
    · exact Or.inl ⟨hexiting, if_pos hexiting⟩
    · exact Or.inr ⟨hexiting, if_neg hexiting⟩
  · rename_i hphase
    cases hs
    exact Or.inr (Or.inr (Or.inr (Or.inr (Or.inr (Or.inr (Or.inl ⟨hphase, rfl, rfl⟩))))))
  · rename_i deadline result id hphase
    obtain ⟨joined, hjoined, rfl⟩ := Option.map_eq_some_iff.mp hs
    unfold ClientMain.join at hjoined
    split_ifs at hjoined with hjoin
    cases hjoined
    refine Or.inr (Or.inr (Or.inr (Or.inr (Or.inl ⟨id, rfl, hjoin.1, hjoin.2,
      Or.inr ⟨deadline, result, hphase, ?_⟩⟩))))
    split_ifs
    · rfl
    · rw [← hphase]
  · rename_i deadline result hphase
    split_ifs at hs with hdue
    cases hs
    exact Or.inr (Or.inr (Or.inr (Or.inr (Or.inr (Or.inr (Or.inr (Or.inl
      ⟨deadline, result, hphase, rfl, hdue, rfl⟩)))))))
  · cases hs
  · rename_i taken _
    split_ifs at hs with htask
    obtain ⟨process, hprocess, rfl⟩ := Option.map_eq_some_iff.mp hs
    exact Or.inr (Or.inr (Or.inr (Or.inr (Or.inr (Or.inr (Or.inr (Or.inr (Or.inl
      ⟨taken, process, rfl, htask, hprocess, rfl⟩))))))))
  · rename_i observed _
    split_ifs at hs
    obtain ⟨endpoint, hendpoint, rfl⟩ := Option.map_eq_some_iff.mp hs
    exact Or.inr (Or.inr (Or.inr (Or.inr (Or.inr (Or.inr (Or.inr (Or.inr (Or.inr (Or.inl
      ⟨observed, endpoint, rfl, hendpoint, rfl⟩)))))))))
  · rename_i time _
    split_ifs at hs with hallows
    cases hs
    exact Or.inr (Or.inr (Or.inr (Or.inr (Or.inr (Or.inr (Or.inr (Or.inr (Or.inr (Or.inr
      ⟨time, rfl, hallows, rfl⟩)))))))))
  · cases hs

end LwdMixnet
