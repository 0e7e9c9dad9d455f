import LwdMixnet.Listener

namespace LwdMixnet

def ServeTask.live : ServeTask → Bool
  | .ended => false
  | _ => true

def ServeTask.holdsStream : ServeTask → Bool
  | .spawned => true
  | .serving serve => serve.phase ≠ .returned
  | .ended => false

-- Its connection to the upstream is open, or being opened.
def ServeTask.holdsUpstream : ServeTask → Bool
  | .serving serve =>
      match serve.phase with
      | .connecting _ | .writing _ | .splicing _ => true
      | _ => false
  | _ => false

-- A stream arrives that no permit is left for.
def Listener.sheds (listener : Listener) (event : ListenerEvent) : List Unit :=
  if event = .arrived ∧ listener.capacity = 0 then [()] else []

def ListenerEvent.isReaped : ListenerEvent → Bool
  | .reaped _ => true
  | _ => false

theorem ServeTask.live_of_holdsStream {task : ServeTask} (h : task.holdsStream) : task.live := by
  cases task with
  | ended => cases h
  | spawned | serving _ => rfl

theorem ServeTask.holdsStream_of_holdsUpstream {task : ServeTask} (h : task.holdsUpstream) :
    task.holdsStream := by
  cases task with
  | spawned | ended => cases h
  | serving serve =>
      cases hphase : serve.phase <;>
        simp_all [ServeTask.holdsUpstream, ServeTask.holdsStream]

section

variable {settings : ServeSettings} {maxStreams : Nat} {events : List ListenerEvent}
  {listener next : Listener} {event : ListenerEvent}

-- Each permit is left over, or held by one task that is not over.
def Listener.Capped (maxStreams : Nat) (listener : Listener) : Prop :=
  listener.tasks.countP ServeTask.live + listener.capacity = maxStreams

theorem Listener.Capped.set {id : TaskId} {task : ServeTask} (h : listener.Capped maxStreams)
    (hid : listener.tasks[id]? = some task) (after : ServeTask)
    (hlive : task.live = after.live) : (listener.set id after).Capped maxStreams := by
  have hset := Machine.countP_set_add ServeTask.live after hid
  unfold Listener.Capped Listener.set at *
  rw [hlive] at hset
  simp only
  omega

theorem Listener.Capped.step (h : listener.Capped maxStreams)
    (hs : listener.step settings event = some next) : next.Capped maxStreams := by
  obtain ⟨rfl, -, ⟨hpermit, rfl⟩ | ⟨-, rfl⟩⟩ | ⟨id, rfl, hid, rfl⟩ |
    ⟨id, taken, serve, after, metrics, rfl, hid, -, rfl⟩ | ⟨id, serve, -, hid, -, rfl⟩ |
    ⟨id, task, hid, htask, rfl⟩ | ⟨id, rfl, -, rfl⟩ | ⟨rfl, rfl⟩ := Listener.step_cases hs
  · unfold Listener.Capped at h ⊢
    simp only [List.countP_append, List.countP_singleton, ServeTask.live, if_true]
    omega
  · exact h
  · exact h.set hid _ rfl
  · exact h.set hid (.serving after) rfl
  · exact h.set hid (.serving { serve with phase := .returned }) rfl
  · have hlive : task.live = true := by
      obtain ⟨-, rfl⟩ | ⟨serve, -, rfl, -⟩ := htask <;> rfl
    have hset := Machine.countP_set_add ServeTask.live .ended hid
    simp only [hlive, Bool.toNat_true] at hset
    unfold Listener.Capped Listener.set at *
    simp only [ServeTask.live, Bool.toNat_false] at hset ⊢
    omega
  · exact h
  · exact h

theorem listener_capped
    (hr : (Listener.step settings).run (.start maxStreams) events = some listener) :
    listener.Capped maxStreams := by
  have hstart : (Listener.start maxStreams).Capped maxStreams := Nat.zero_add maxStreams
  exact Machine.run_invariant (Listener.Capped maxStreams) (fun _ _ _ h hs => h.step hs) hstart hr

theorem handshakeReason_ne (error : HandshakeError) : handshakeReason error ≠ "over_capacity" := by
  cases error <;> simp [handshakeReason]

-- What `serve` rejects a stream for is never the capacity.
theorem Serve.emits_rejected (settings : ServeSettings) (serve : Serve) (event : ServeEvent) :
    ServerUpdate.streamRejected "over_capacity" ∉ serve.emits settings event := by
  intro hmem
  unfold Serve.emits at hmem
  split at hmem
  · split at hmem
    · simp at hmem
    · rename_i error _
      simp only [List.mem_singleton, ServerUpdate.streamRejected.injEq] at hmem
      exact handshakeReason_ne error hmem.symm
    · cases hmem
  · split_ifs at hmem
    · simp at hmem
    · cases hmem
  · simp at hmem
  · simp at hmem
  · simp at hmem
  · simp at hmem
  · simp at hmem
  · split at hmem
    · simp at hmem
    · cases hmem
  · split at hmem
    · simp [serverFinished] at hmem
    · cases hmem
  · cases hmem

theorem ServerMetrics.replay_rejected {label : String} {updates : List ServerUpdate}
    (metrics : ServerMetrics) (h : ServerUpdate.streamRejected label ∉ updates) :
    (metrics.replay updates).streamsRejected label = metrics.streamsRejected label := by
  induction updates generalizing metrics with
  | nil => rfl
  | cons update rest ih =>
      obtain ⟨hne, hrest⟩ := not_or.mp (mt List.mem_cons.mpr h)
      have hupdate : (update.apply metrics).streamsRejected label =
          metrics.streamsRejected label := by
        cases update with
        | streamRejected reason =>
            have hreason : label ≠ reason := fun he => hne (he ▸ rfl)
            simp [ServerUpdate.apply, CounterVec.incBy_apply, hreason]
        | streamAccepted | streamWithoutRequest | upstreamFailure | upstreamConnection | inFlight
        | bytes _ _ | ended _ | dropInFlight => rfl
      exact (ih (update.apply metrics) hrest).trans hupdate

theorem Serve.step_rejected {metrics after : ServerMetrics} {serve resumed : Serve}
    {taken : ServeEvent} (hs : Serve.step settings (metrics, serve) taken = some (after, resumed)) :
    after.streamsRejected "over_capacity" = metrics.streamsRejected "over_capacity" := by
  rw [Serve.step_emits] at hs
  obtain ⟨next, -, he⟩ := Option.map_eq_some_iff.mp hs
  rw [← (Prod.mk.inj he).1]
  exact metrics.replay_rejected (Serve.emits_rejected settings serve taken)

-- The counter of rejected streams counts the streams that were shed.
theorem Listener.step_sheds (hs : listener.step settings event = some next) :
    next.metrics.streamsRejected "over_capacity" =
      listener.metrics.streamsRejected "over_capacity" + (listener.sheds event).length := by
  obtain ⟨rfl, -, ⟨hpermit, rfl⟩ | ⟨hnone, rfl⟩⟩ | ⟨id, rfl, -, rfl⟩ |
    ⟨id, taken, serve, after, metrics, rfl, -, htaken, rfl⟩ | ⟨id, serve, hevent, -, -, rfl⟩ |
    ⟨id, task, -, hevent, rfl⟩ | ⟨id, rfl, -, rfl⟩ | ⟨rfl, rfl⟩ := Listener.step_cases hs
  · have hsome : listener.capacity ≠ 0 := by omega
    simp [Listener.sheds, hsome]
  · simp [Listener.sheds, hnone, ServerMetrics.streamDroppedOverCapacity, CounterVec.incBy_apply]
  · simp [Listener.sheds, Listener.set]
  · simpa [Listener.sheds, Listener.set] using Serve.step_rejected htaken
  · have hnot : event ≠ .arrived := by
      obtain rfl | rfl := hevent <;> simp
    simp only [Listener.sheds, hnot, false_and, if_false, List.length_nil, Nat.add_zero]
    split_ifs <;> rfl
  · have hnot : event ≠ .arrived := by
      obtain ⟨rfl, -⟩ | ⟨_, rfl, -⟩ := hevent <;> simp
    simp [Listener.sheds, hnot, Listener.set]
  · simp [Listener.sheds]
  · simp [Listener.sheds]

theorem listener_sheds
    (hr : (Listener.step settings).run (.start maxStreams) events = some listener) :
    listener.metrics.streamsRejected "over_capacity" =
      ((Listener.step settings).views Listener.sheds (.start maxStreams) events).length := by
  refine Machine.run_history (fun events (listener : Listener) =>
    listener.metrics.streamsRejected "over_capacity" =
      ((Listener.step settings).views Listener.sheds (.start maxStreams) events).length) rfl ?_ hr
  intro events listener event next hr h hs
  rw [Listener.step_sheds hs, h, Machine.views_concat _ _ hr hs, List.length_append]

-- Nothing but the reaping looks at the set of tasks.
theorem Listener.step_streams (hevent : event.isReaped = false) (streams : List TaskId)
    (hs : listener.step settings event = some next) :
    ∃ after, { listener with streams := streams }.step settings event =
      some { next with streams := after } := by
  obtain ⟨rfl, haccepting, ⟨hpermit, rfl⟩ | ⟨hnone, rfl⟩⟩ | ⟨id, rfl, hid, rfl⟩ |
    ⟨id, taken, serve, after, metrics, rfl, hid, htaken, rfl⟩ |
    ⟨id, serve, rfl | rfl, hid, hphase, rfl⟩ |
    ⟨id, task, hid, ⟨rfl, rfl⟩ | ⟨serve, rfl, rfl, hreturned⟩, rfl⟩ | ⟨id, rfl, -, rfl⟩ |
    ⟨rfl, rfl⟩ := Listener.step_cases hs
  · exact ⟨streams ++ [listener.tasks.length], by simp [Listener.step, haccepting, hpermit]⟩
  · exact ⟨streams, by simp [Listener.step, haccepting, hnone]⟩
  · exact ⟨streams, by simp [Listener.step, hid, Listener.set]⟩
  · exact ⟨streams, by simp [Listener.step, hid, htaken, Listener.set]⟩
  · exact ⟨streams, by simp [Listener.step, Listener.leave, hid, hphase, Listener.set]⟩
  · exact ⟨streams, by simp [Listener.step, Listener.leave, hid, hphase, Listener.set]⟩
  · exact ⟨streams, by simp [Listener.step, hid, Listener.set]⟩
  · exact ⟨streams, by simp [Listener.step, hid, hreturned, Listener.set]⟩
  · cases hevent
  · exact ⟨streams, rfl⟩

theorem Listener.step_reaped (hevent : event.isReaped)
    (hs : listener.step settings event = some next) :
    { next with streams := listener.streams } = listener := by
  cases event with
  | reaped id =>
      simp only [Listener.step] at hs
      split_ifs at hs
      obtain rfl := Option.some.inj hs
      rfl
  | arrived | polled _ | serve _ _ | unwound _ | aborted _ | released _ | stopped => cases hevent

-- Without the reaping the same happens, and more is left in the set.
theorem run_unreaped {start : Listener}
    (hr : (Listener.step settings).run start events = some listener) :
    ∃ streams, (Listener.step settings).run start (events.filter fun event => !event.isReaped) =
      some { listener with streams := streams } := by
  have hkept (listener twin : Listener) (event : ListenerEvent) (next : Listener)
      (hsame : ∃ streams, twin = { listener with streams := streams })
      (hevent : (!event.isReaped) = true) (hs : listener.step settings event = some next) :
      ∃ after, twin.step settings event = some after ∧
        ∃ streams, after = { next with streams := streams } := by
    obtain ⟨streams, rfl⟩ := hsame
    obtain ⟨after, hafter⟩ := Listener.step_streams (by simpa using hevent) streams hs
    exact ⟨_, hafter, after, rfl⟩
  have hskipped (listener twin : Listener) (event : ListenerEvent) (next : Listener)
      (hsame : ∃ streams, twin = { listener with streams := streams })
      (hevent : (!event.isReaped) = false) (hs : listener.step settings event = some next) :
      ∃ streams, twin = { next with streams := streams } := by
    obtain ⟨streams, rfl⟩ := hsame
    have hreaped := Listener.step_reaped (by simpa using hevent) hs
    exact ⟨streams, by rw [← hreaped]⟩
  obtain ⟨final, hfinal, streams, rfl⟩ :=
    Machine.run_filter _ _ hkept hskipped ⟨start.streams, rfl⟩ hr
  exact ⟨streams, hfinal⟩

end

-- The permits and the tasks that are not over add up to the cap, whatever the
-- tasks do and however they end, so neither streams nor connections exceed it. A
-- stream is shed, unread and counted, exactly when each permit is held by such a
-- task, and the reaping changes nothing but the set.
theorem stream_cap_kept (settings : ServeSettings) (maxStreams : Nat)
    (events : List ListenerEvent) (listener : Listener)
    (hr : (Listener.step settings).run (.start maxStreams) events = some listener) :
    listener.tasks.countP ServeTask.live + listener.capacity = maxStreams ∧
    listener.tasks.countP ServeTask.holdsStream ≤ maxStreams ∧
    listener.tasks.countP ServeTask.holdsUpstream ≤ maxStreams ∧
    (∀ next, listener.step settings .arrived = some next →
      (listener.tasks.countP ServeTask.live = maxStreams →
        next = { listener with metrics := listener.metrics.streamDroppedOverCapacity }) ∧
      (listener.tasks.countP ServeTask.live ≠ maxStreams → next = { listener with
        capacity := listener.capacity - 1
        tasks := listener.tasks ++ [.spawned]
        streams := listener.streams ++ [listener.tasks.length] })) ∧
    listener.metrics.streamsRejected "over_capacity" =
      ((Listener.step settings).views Listener.sheds (.start maxStreams) events).length ∧
    ∃ streams, (Listener.step settings).run (.start maxStreams)
      (events.filter fun event => !event.isReaped) = some { listener with streams := streams } := by
  have hcapped := listener_capped hr
  unfold Listener.Capped at hcapped
  have hstreams : listener.tasks.countP ServeTask.holdsStream ≤
      listener.tasks.countP ServeTask.live :=
    List.countP_mono_left fun task _ => ServeTask.live_of_holdsStream
  have hupstream : listener.tasks.countP ServeTask.holdsUpstream ≤
      listener.tasks.countP ServeTask.holdsStream :=
    List.countP_mono_left fun task _ => ServeTask.holdsStream_of_holdsUpstream
  refine ⟨hcapped, by omega, by omega, fun next hs => ?_, listener_sheds hr, run_unreaped hr⟩
  obtain ⟨-, -, ⟨hpermit, rfl⟩ | ⟨hnone, rfl⟩⟩ | ⟨_, he, -⟩ | ⟨_, _, _, _, _, he, -⟩ |
    ⟨_, _, he | he, -⟩ | ⟨_, _, -, ⟨he, -⟩ | ⟨_, he, -⟩, -⟩ | ⟨_, he, -⟩ | ⟨he, -⟩ :=
    Listener.step_cases hs
  · exact ⟨fun hfull => by omega, fun _ => rfl⟩
  · exact ⟨fun _ => rfl, fun hfull => by omega⟩
  all_goals cases he

-- Of two permits one task is rejected, one is aborted before its first poll and
-- one unwinds; a stream that arrives while both are held is shed.
def busyStreams : List ListenerEvent :=
  [.arrived, .polled 0, .arrived, .arrived, .serve 0 (.stream (.io (.failed (.Other 5)))),
    .released 0, .arrived, .aborted 1, .reaped 1, .polled 2, .unwound 2, .arrived, .released 2]

theorem busy_streams_capped : ∃ listener,
    (Listener.step ⟨5, 5, 5⟩).run (.start 2) busyStreams = some listener ∧
    listener.tasks = [.ended, .ended, .ended, .spawned] ∧
    listener.tasks.countP ServeTask.live + listener.capacity = 2 ∧
    listener.metrics.streamsRejected "over_capacity" = 1 := by
  obtain ⟨listener, hr, htasks⟩ : ∃ listener,
      (Listener.step ⟨5, 5, 5⟩).run (.start 2) busyStreams = some listener ∧
      listener.tasks = [.ended, .ended, .ended, .spawned] :=
    Option.map_eq_some_iff.mp (by decide +kernel)
  obtain ⟨hcapped, -, -, -, hsheds, -⟩ := stream_cap_kept ⟨5, 5, 5⟩ 2 busyStreams listener hr
  refine ⟨listener, hr, htasks, hcapped, hsheds.trans ?_⟩
  decide +kernel

end LwdMixnet
