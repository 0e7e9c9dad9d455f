import LwdMixnet.Endpoint
import LwdMixnet.Listener.Capacity
import LwdMixnet.Machine.Drain

namespace LwdMixnet

structure ServerArguments where
  handshakeTimeoutSecs : Nat := 30
  firstRequestTimeoutSecs : Nat := 60
  idleTimeoutSecs : Nat := 600
  maxStreams : Nat := 256
  metricsBind : Option String := none
  shutdownGraceSecs : Nat := 10
  gatewayWaitSecs : Nat := 300

def ServerArguments.settings (arguments : ServerArguments) : ServeSettings where
  handshakeTimeout := fromSecs arguments.handshakeTimeoutSecs
  firstRequestTimeout := fromSecs arguments.firstRequestTimeoutSecs
  idleTimeout := fromSecs arguments.idleTimeoutSecs

def ServerArguments.gatewayWait (arguments : ServerArguments) : Nat :=
  fromSecs arguments.gatewayWaitSecs

def ServerArguments.grace (arguments : ServerArguments) : Nat :=
  fromSecs arguments.shutdownGraceSecs

-- How a duration of whole seconds is printed.
def debugSecs (secs : Nat) : String :=
  if secs = 0 then "0ns" else toString secs ++ "s"

-- Where `main` stands: in the bind of the metrics endpoint, in `connect` under
-- the timeout of the gateway, in taking the listener, in its loop, or in `drain`.
inductive ServerPhase
  | binding (address : String)
  | connecting (deadline : Nat)
  | listening
  | accepting
  | draining (deadline : Nat)
  | returned (result : Except String Unit)

-- The set of tasks is in the listener.
structure ServerMain where
  now : Nat := 0
  phase : ServerPhase
  report : HealthReport := {}
  shuttingDown : Bool := false
  endpoint : Endpoint := {}
  listener : Listener

inductive ServerEvent
  | bound (ok : Bool)
  | connected (result : Except String Unit)
  | gatewayTimedOut
  | listenerTaken (ok : Bool)
  | accepted
  | closed
  | task (event : ListenerEvent)
  | joined (id : TaskId)
  | askedToStop
  | graceOver
  | endpoint (event : EndpointEvent)
  | elapse (time : Nat)

def ServerEvent.delay : ServerEvent → Nat
  | .elapse time => time
  | _ => 0

def ServerMain.start (arguments : ServerArguments) : ServerMain where
  phase :=
    match arguments.metricsBind with
    | some address => .binding address
    | none => .connecting arguments.gatewayWait
  listener := .start arguments.maxStreams

-- What the streams' tasks do on their own, which is all but the arms of the loop.
def ListenerEvent.ofTask : ListenerEvent → Bool
  | .polled _ | .serve _ _ | .unwound _ | .released _ => true
  | _ => false

-- Time does not pass beyond an armed timer, nor after `main`.
def ServerPhase.allows (phase : ServerPhase) (instant : Nat) : Bool :=
  match phase with
  | .connecting deadline | .draining deadline => instant ≤ deadline
  | .returned _ => false
  | _ => true

-- The endpoint is spawned once it is bound, if it is asked for, and is gone with
-- the process.
def ServerPhase.observable (arguments : ServerArguments) : ServerPhase → Bool
  | .binding _ | .returned _ => false
  | _ => arguments.metricsBind.isSome

def ServerMain.fail (main : ServerMain) (error : String) : ServerMain :=
  { main with phase := .returned (.error error) }

-- The two arms that leave the loop tell the endpoint and go into `drain`.
def ServerMain.drain (arguments : ServerArguments) (main : ServerMain) : ServerMain :=
  { main with
    shuttingDown := true
    listener := { main.listener with accepting := false }
    phase :=
      if main.listener.streams = [] then .returned (.ok ())
      else .draining (main.now + arguments.grace) }

def ServerMain.listen (arguments : ServerArguments) (main : ServerMain) (event : ListenerEvent) :
    Option ServerMain :=
  (main.listener.step arguments.settings event).map fun listener => { main with listener }

def ServerMain.step (arguments : ServerArguments) : Machine ServerMain ServerEvent :=
  fun main event =>
    match main.phase, event with
    | .binding address, .bound ok =>
        if ok then some { main with phase := .connecting (main.now + arguments.gatewayWait) }
        else some (main.fail ("binding the metrics endpoint on " ++ address))
    | .connecting _, .connected result =>
        match result with
        | .ok _ =>
            some { main with report := main.report.advanceTo .Registered, phase := .listening }
        | .error error => some (main.fail error)
    | .connecting deadline, .gatewayTimedOut =>
        if deadline ≤ main.now then
          some (main.fail ("connecting to the mixnet: no gateway within " ++
            debugSecs arguments.gatewayWaitSecs))
        else none
    | .listening, .listenerTaken ok =>
        if ok then
          some { main with report := main.report.advanceTo .Serving, phase := .accepting }
        else some (main.fail "taking the stream listener")
    | .accepting, .accepted => main.listen arguments .arrived
    | .accepting, .closed => some (main.drain arguments)
    | .accepting, .askedToStop => some (main.drain arguments)
    | .accepting, .joined id => main.listen arguments (.reaped id)
    | .draining _, .joined id =>
        (main.listen arguments (.reaped id)).map fun main =>
          if main.listener.streams = [] then { main with phase := .returned (.ok ()) } else main
    | .draining deadline, .graceOver =>
        if deadline ≤ main.now then some { main with phase := .returned (.ok ()) } else none
    | .returned _, _ => none
    | _, .task event => if event.ofTask then main.listen arguments event else none
    | phase, .endpoint event =>
        if phase.observable arguments then
          (main.endpoint.step main.report main.shuttingDown event).map fun endpoint =>
            { main with endpoint }
        else none
    | phase, .elapse time =>
        if phase.allows (main.now + time) then some { main with now := main.now + time } else none
    | _, _ => none

def ServerPhase.starting : ServerPhase → Bool
  | .binding _ | .connecting _ | .listening => true
  | _ => false

def ServerEvent.starts : ServerEvent → Bool
  | .bound _ | .connected _ | .gatewayTimedOut | .listenerTaken _ => true
  | _ => false

def ServerEvent.fails : ServerEvent → Bool
  | .bound false | .connected (.error _) | .gatewayTimedOut | .listenerTaken false => true
  | _ => false

-- What leaves the loop.
def ServerEvent.stops : ServerEvent → Bool
  | .closed | .askedToStop => true
  | _ => false

-- Everything a step can do.
theorem ServerMain.step_cases {arguments : ServerArguments} {main next : ServerMain}
    {event : ServerEvent} (hs : main.step arguments event = some next) :
    (main.phase.starting ∧ event.starts ∧
      ((∃ error, event.fails ∧ next = main.fail error) ∨
        (∃ address, main.phase = .binding address ∧ event = .bound true ∧
          next = { main with phase := .connecting (main.now + arguments.gatewayWait) }) ∨
        (∃ deadline, main.phase = .connecting deadline ∧ event = .connected (.ok ()) ∧
          next = { main with report := main.report.advanceTo .Registered, phase := .listening }) ∨
        (main.phase = .listening ∧ event = .listenerTaken true ∧
          next = { main with report := main.report.advanceTo .Serving, phase := .accepting }))) ∨
    (∃ listener, main.phase = .accepting ∧ event = .accepted ∧
      main.listener.step arguments.settings .arrived = some listener ∧
      next = { main with listener }) ∨
    (main.phase = .accepting ∧ event.stops ∧ next = main.drain arguments) ∨
    (∃ id listener, event = .joined id ∧
      main.listener.step arguments.settings (.reaped id) = some listener ∧
      (main.phase = .accepting ∧ next = { main with listener } ∨
        ∃ deadline, main.phase = .draining deadline ∧ next = { main with
          listener
          phase := if listener.streams = [] then .returned (.ok ()) else .draining deadline })) ∨
    (∃ deadline, main.phase = .draining deadline ∧ event = .graceOver ∧ deadline ≤ main.now ∧
      next = { main with phase := .returned (.ok ()) }) ∨
    (∃ taken listener, event = .task taken ∧ taken.ofTask ∧
      main.listener.step arguments.settings taken = some listener ∧
      next = { main with listener }) ∨
    (∃ observed endpoint, event = .endpoint observed ∧
      main.endpoint.step main.report main.shuttingDown observed = some endpoint ∧
      next = { main with endpoint }) ∨
    (∃ time, event = .elapse time ∧ main.phase.allows (main.now + time) ∧
      next = { main with now := main.now + time }) := by
  simp only [ServerMain.step] at hs
  split at hs
  · rename_i address ok hphase
    split_ifs at hs with hok
    · cases hs
      subst hok
      exact Or.inl ⟨by rw [hphase]; rfl, rfl, Or.inr (Or.inl ⟨address, hphase, rfl, rfl⟩)⟩
    · cases hs
      exact Or.inl ⟨by rw [hphase]; rfl, rfl, Or.inl ⟨_, by simp [ServerEvent.fails, hok], rfl⟩⟩
  · rename_i deadline result hphase
    split at hs
    · cases hs
      exact Or.inl ⟨by rw [hphase]; rfl, rfl,
        Or.inr (Or.inr (Or.inl ⟨deadline, hphase, rfl, rfl⟩))⟩
    · cases hs
      exact Or.inl ⟨by rw [hphase]; rfl, rfl, Or.inl ⟨_, rfl, rfl⟩⟩
  · rename_i deadline hphase
    split_ifs at hs
    cases hs
    exact Or.inl ⟨by rw [hphase]; rfl, rfl, Or.inl ⟨_, rfl, rfl⟩⟩
  · rename_i ok hphase
    split_ifs at hs with hok
    · cases hs
      subst hok
      exact Or.inl ⟨by rw [hphase]; rfl, rfl, Or.inr (Or.inr (Or.inr ⟨hphase, rfl, rfl⟩))⟩
    · cases hs
      exact Or.inl ⟨by rw [hphase]; rfl, rfl, Or.inl ⟨_, by simp [ServerEvent.fails, hok], rfl⟩⟩
  · rename_i hphase
    obtain ⟨listener, hlistener, rfl⟩ := Option.map_eq_some_iff.mp hs
    exact Or.inr (Or.inl ⟨listener, hphase, rfl, hlistener, rfl⟩)
  · rename_i hphase
    cases hs
    exact Or.inr (Or.inr (Or.inl ⟨hphase, rfl, rfl⟩))
  · rename_i hphase
    cases hs
    exact Or.inr (Or.inr (Or.inl ⟨hphase, rfl, rfl⟩))
  · rename_i id hphase
    obtain ⟨listener, hlistener, rfl⟩ := Option.map_eq_some_iff.mp hs
    exact Or.inr (Or.inr (Or.inr (Or.inl ⟨id, listener, rfl, hlistener, Or.inl ⟨hphase, rfl⟩⟩)))
  · rename_i deadline id hphase
    obtain ⟨joined, hjoined, rfl⟩ := Option.map_eq_some_iff.mp hs
    obtain ⟨listener, hlistener, rfl⟩ := Option.map_eq_some_iff.mp hjoined
    refine Or.inr (Or.inr (Or.inr (Or.inl ⟨id, listener, rfl, hlistener,
      Or.inr ⟨deadline, hphase, ?_⟩⟩)))
    split_ifs
    · rfl
    · rw [← hphase]
  · rename_i deadline hphase
    split_ifs at hs with hdue
    cases hs
    exact Or.inr (Or.inr (Or.inr (Or.inr (Or.inl ⟨deadline, hphase, rfl, hdue, rfl⟩))))
  · cases hs
  · rename_i taken _
    split_ifs at hs with htask
    obtain ⟨listener, hlistener, rfl⟩ := Option.map_eq_some_iff.mp hs
    exact Or.inr (Or.inr (Or.inr (Or.inr (Or.inr (Or.inl
      ⟨taken, listener, rfl, htask, hlistener, rfl⟩)))))
  · rename_i observed _
    split_ifs at hs
    obtain ⟨endpoint, hendpoint, rfl⟩ := Option.map_eq_some_iff.mp hs
    exact Or.inr (Or.inr (Or.inr (Or.inr (Or.inr (Or.inr (Or.inl
      ⟨observed, endpoint, rfl, hendpoint, rfl⟩))))))
  · rename_i time _
    split_ifs at hs with hallows
    cases hs
    exact Or.inr (Or.inr (Or.inr (Or.inr (Or.inr (Or.inr (Or.inr ⟨time, rfl, hallows, rfl⟩))))))
  · cases hs

end LwdMixnet
