import LwdMixnet.Serve.Accounts

namespace LwdMixnet

abbrev TaskId := Nat

-- A task of the accept loop: spawned, with the stream and the permit its block
-- captured; in `serve`, which owns the stream and the upstream connection; or
-- over, with its permit back.
inductive ServeTask
  | spawned
  | serving (serve : Serve)
  | ended
  deriving DecidableEq, Repr

-- The serving half as its accept loop sees it. `capacity` are the permits that
-- are left, and `streams` the tasks that were not reaped yet.
structure Listener where
  accepting : Bool := true
  capacity : Nat
  tasks : List ServeTask := []
  streams : List TaskId := []
  metrics : ServerMetrics := {}

inductive ListenerEvent
  | arrived
  | polled (id : TaskId)
  | serve (id : TaskId) (event : ServeEvent)
  | unwound (id : TaskId)
  | aborted (id : TaskId)
  | released (id : TaskId)
  | reaped (id : TaskId)
  | stopped
  deriving DecidableEq, Repr

def Listener.start (maxStreams : Nat) : Listener where
  capacity := maxStreams

def Listener.set (listener : Listener) (id : TaskId) (task : ServeTask) : Listener :=
  { listener with tasks := listener.tasks.set id task }

-- A future of `serve` that is dropped where it is suspended takes the stream, the
-- upstream connection and the guard of the metrics with it.
def Listener.leave (listener : Listener) (id : TaskId) (serve : Serve) : Option Listener :=
  if serve.phase = .returned then none
  else
    let metrics :=
      if serve.phase.inFlight then listener.metrics.dropInFlight else listener.metrics
    some { listener.set id (.serving { serve with phase := .returned }) with metrics }

-- The permit is the last thing a block drops that was polled. One that was not
-- drops all it captured in one go; the order does not matter, as nothing is
-- aborted before the last stream arrived.
def Listener.step (settings : ServeSettings) : Machine Listener ListenerEvent :=
  fun listener event =>
    match event with
    | .arrived =>
        if listener.accepting = false then none
        else if 0 < listener.capacity then
          some { listener with
            capacity := listener.capacity - 1
            tasks := listener.tasks ++ [.spawned]
            streams := listener.streams ++ [listener.tasks.length] }
        else some { listener with metrics := listener.metrics.streamDroppedOverCapacity }
    | .polled id =>
        match listener.tasks[id]? with
        | some .spawned => some (listener.set id (.serving (.start settings)))
        | _ => none
    | .serve id event =>
        match listener.tasks[id]? with
        | some (.serving serve) =>
            match Serve.step settings (listener.metrics, serve) event with
            | some (metrics, next) => some { listener.set id (.serving next) with metrics }
            | none => none
        | _ => none
    | .unwound id =>
        match listener.tasks[id]? with
        | some (.serving serve) => listener.leave id serve
        | _ => none
    | .aborted id =>
        match listener.tasks[id]? with
        | some .spawned => some { listener.set id .ended with capacity := listener.capacity + 1 }
        | some (.serving serve) => listener.leave id serve
        | _ => none
    | .released id =>
        match listener.tasks[id]? with
        | some (.serving serve) =>
            if serve.phase = .returned then
              some { listener.set id .ended with capacity := listener.capacity + 1 }
            else none
        | _ => none
    | .reaped id =>
        if listener.tasks[id]? = some .ended ∧ id ∈ listener.streams then
          some { listener with streams := listener.streams.erase id }
        else none
    | .stopped => some { listener with accepting := false }

-- Everything a step can do.
theorem Listener.step_cases {settings : ServeSettings} {listener next : Listener}
    {event : ListenerEvent} (h : listener.step settings event = some next) :
    (event = .arrived ∧ listener.accepting ∧
      (0 < listener.capacity ∧ next = { listener with
          capacity := listener.capacity - 1
          tasks := listener.tasks ++ [.spawned]
          streams := listener.streams ++ [listener.tasks.length] } ∨
        listener.capacity = 0 ∧
          next = { listener with metrics := listener.metrics.streamDroppedOverCapacity })) ∨
    (∃ id, event = .polled id ∧ listener.tasks[id]? = some .spawned ∧
      next = listener.set id (.serving (.start settings))) ∨
    (∃ id taken serve after metrics, event = .serve id taken ∧
      listener.tasks[id]? = some (.serving serve) ∧
      Serve.step settings (listener.metrics, serve) taken = some (metrics, after) ∧
      next = { listener.set id (.serving after) with metrics }) ∨
    (∃ id serve, (event = .unwound id ∨ event = .aborted id) ∧
      listener.tasks[id]? = some (.serving serve) ∧ serve.phase ≠ .returned ∧
      next = { listener.set id (.serving { serve with phase := .returned }) with
        metrics := if serve.phase.inFlight then listener.metrics.dropInFlight
          else listener.metrics }) ∨
    (∃ id task, listener.tasks[id]? = some task ∧
      (event = .aborted id ∧ task = .spawned ∨
        ∃ serve, event = .released id ∧ task = .serving serve ∧ serve.phase = .returned) ∧
      next = { listener.set id .ended with capacity := listener.capacity + 1 }) ∨
    (∃ id, event = .reaped id ∧ listener.tasks[id]? = some .ended ∧
      next = { listener with streams := listener.streams.erase id }) ∨
    (event = .stopped ∧ next = { listener with accepting := false }) := by
  cases event with
  | arrived =>
      simp only [Listener.step] at h
      split_ifs at h with haccepting hpermit
      · obtain rfl := Option.some.inj h
        exact Or.inl ⟨rfl, by simpa using haccepting, Or.inl ⟨hpermit, rfl⟩⟩
      · obtain rfl := Option.some.inj h
        exact Or.inl ⟨rfl, by simpa using haccepting, Or.inr ⟨by omega, rfl⟩⟩
  | polled id =>
      simp only [Listener.step] at h
      split at h
      · rename_i htask
        exact Or.inr (Or.inl ⟨id, rfl, htask, (Option.some.inj h).symm⟩)
      · cases h
  | serve id taken =>
      simp only [Listener.step] at h
      split at h
      · rename_i serve htask
        split at h
        · rename_i metrics after hs
          exact Or.inr (Or.inr (Or.inl ⟨id, taken, serve, after, metrics, rfl, htask, hs,
            (Option.some.inj h).symm⟩))
        · cases h
      · cases h
  | unwound id =>
      simp only [Listener.step, Listener.leave] at h
      split at h
      · rename_i serve htask
        split_ifs at h with hreturned hflight
        all_goals
          exact Or.inr (Or.inr (Or.inr (Or.inl ⟨id, serve, Or.inl rfl, htask, hreturned,
            by simpa [hflight] using (Option.some.inj h).symm⟩)))
      · cases h
  | aborted id =>
      simp only [Listener.step, Listener.leave] at h
      split at h
      · rename_i htask
        exact Or.inr (Or.inr (Or.inr (Or.inr (Or.inl ⟨id, _, htask, Or.inl ⟨rfl, rfl⟩,
          (Option.some.inj h).symm⟩))))
      · rename_i serve htask
        split_ifs at h with hreturned hflight
        all_goals
          exact Or.inr (Or.inr (Or.inr (Or.inl ⟨id, serve, Or.inr rfl, htask, hreturned,
            by simpa [hflight] using (Option.some.inj h).symm⟩)))
      · cases h
  | released id =>
      simp only [Listener.step] at h
      split at h
      · rename_i serve htask
        split_ifs at h with hreturned
        exact Or.inr (Or.inr (Or.inr (Or.inr (Or.inl ⟨id, _, htask,
          Or.inr ⟨serve, rfl, rfl, hreturned⟩, (Option.some.inj h).symm⟩))))
      · cases h
  | reaped id =>
      simp only [Listener.step] at h
      split_ifs at h with hended
      exact Or.inr (Or.inr (Or.inr (Or.inr (Or.inr (Or.inl ⟨id, rfl, hended.1,
        (Option.some.inj h).symm⟩)))))
  | stopped =>
      exact Or.inr (Or.inr (Or.inr (Or.inr (Or.inr (Or.inr ⟨rfl, (Option.some.inj h).symm⟩)))))

end LwdMixnet
