import LwdMixnet.Listener.Capacity

namespace LwdMixnet

-- `serve` unwinds, or its task is dropped where it is suspended.
def ListenerEvent.cutsShort : ListenerEvent → Bool
  | .unwound _ | .aborted _ => true
  | _ => false

-- What a task of the accept loop is to the crew, to which it belongs from its arrival on.
def ServeTask.Is (settings : ServeSettings) (serve : Serve) : ServeTask → Prop
  | .spawned => serve = .start settings
  | .serving own => serve = own
  | .ended => serve.phase = .returned

-- The streams that were shed are on no task's account.
def ServerMetrics.shedding (metrics : ServerMetrics) (count : Nat) : ServerMetrics :=
  { metrics with streamsRejected := metrics.streamsRejected.incBy "over_capacity" count }

-- The crew has a task for each of the loop, which owes nothing, and its metrics but for
-- what was shed.
structure Listener.Refines (settings : ServeSettings) (listener : Listener) (shed : Nat)
    (serving : Serving) : Prop where
  length : serving.members.length = listener.tasks.length
  tasks : ∀ (id : TaskId) (task : ServeTask), listener.tasks[id]? = some task →
    ∃ (serve : Serve) (log : List ServerUpdate),
      serving.members[id]? = some (Machine.Member.mk serve log []) ∧ task.Is settings serve
  metrics : listener.metrics = serving.shared.shedding shed

theorem ServerUpdate.apply_shedding (update : ServerUpdate) (metrics : ServerMetrics)
    (count : Nat) :
    update.apply (metrics.shedding count) = (update.apply metrics).shedding count := by
  cases update with
  | streamRejected reason =>
      simp only [ServerUpdate.apply, ServerMetrics.shedding, CounterVec.incBy_comm]
  | _ => rfl

theorem ServerMetrics.replay_shedding (metrics : ServerMetrics) (count : Nat)
    (updates : List ServerUpdate) :
    (metrics.shedding count).replay updates = (metrics.replay updates).shedding count := by
  induction updates generalizing metrics with
  | nil => rfl
  | cons update rest ih =>
      have hfirst := ih (update.apply metrics)
      rw [← ServerUpdate.apply_shedding] at hfirst
      exact hfirst

theorem ServerMetrics.shedding_more (metrics : ServerMetrics) (count : Nat) :
    (metrics.shedding count).streamDroppedOverCapacity = metrics.shedding (count + 1) := by
  have hmore : (metrics.streamsRejected.incBy "over_capacity" count).incBy "over_capacity" 1 =
      metrics.streamsRejected.incBy "over_capacity" (count + 1) := by
    funext label
    simp only [CounterVec.incBy_apply]
    split_ifs <;> rfl
  simp only [ServerMetrics.shedding, ServerMetrics.streamDroppedOverCapacity, hmore]

section

variable {settings : ServeSettings} {listener next : Listener} {serving : Serving} {shed : Nat}
  {event : ListenerEvent}

theorem Listener.Refines.start (settings : ServeSettings) (maxStreams : Nat) :
    (Listener.start maxStreams).Refines settings 0 Serving.start := by
  refine ⟨rfl, fun id task htask => ?_, ?_⟩
  · simp [Listener.start] at htask
  · simp only [ServerMetrics.shedding, CounterVec.incBy_zero]
    rfl

-- The loop turns a task over, and the crew does not notice.
theorem Listener.Refines.turned {id : TaskId} {task after : ServeTask}
    (h : listener.Refines settings shed serving) (hid : listener.tasks[id]? = some task)
    (hsame : ∀ serve, task.Is settings serve → after.Is settings serve) :
    (listener.set id after).Refines settings shed serving := by
  obtain ⟨hlength, htasks, hmetrics⟩ := h
  refine ⟨hlength.trans List.length_set.symm, fun other found hfound => ?_, hmetrics⟩
  obtain ⟨hlt, -⟩ := List.getElem?_eq_some_iff.mp hid
  simp only [Listener.set, List.getElem?_set] at hfound
  split_ifs at hfound with hother
  · obtain rfl := Option.some.inj hfound
    obtain ⟨serve, log, hmember, his⟩ := htasks id task hid
    exact ⟨serve, log, hother ▸ hmember, hsame serve his⟩
  · exact htasks other found hfound

theorem Listener.Refines.arrived (h : listener.Refines settings shed serving) :
    ∃ after, (Serving.step settings).run serving [.join] = some after ∧
      Listener.Refines settings { listener with
        capacity := listener.capacity - 1
        tasks := listener.tasks ++ [.spawned]
        streams := listener.streams ++ [listener.tasks.length] } shed after := by
  obtain ⟨hlength, htasks, hmetrics⟩ := h
  refine ⟨_, rfl, ⟨by simp [hlength], fun id task htask => ?_, hmetrics⟩⟩
  simp only [List.getElem?_append] at htask ⊢
  rw [hlength]
  split_ifs at htask ⊢ with hless
  · exact htasks id task htask
  · rw [List.getElem?_singleton] at htask ⊢
    obtain ⟨hlast, hspawned⟩ := Option.ite_none_right_eq_some.mp htask
    obtain rfl := Option.some.inj hspawned
    exact ⟨_, [], if_pos hlast, rfl⟩

-- A step of `serve` is a step of the crew and all the updates that it owes for it.
theorem Listener.Refines.serves {id : TaskId} {taken : ServeEvent} {serve resumed : Serve}
    {metrics : ServerMetrics} (h : listener.Refines settings shed serving)
    (hid : listener.tasks[id]? = some (.serving serve))
    (hs : Serve.step settings (listener.metrics, serve) taken = some (metrics, resumed)) :
    ∃ turn after, (Serving.step settings).run serving turn = some after ∧
      Listener.Refines settings { listener.set id (.serving resumed) with metrics } shed after := by
  obtain ⟨hlength, htasks, hmetrics⟩ := h
  obtain ⟨_, log, hmember, rfl⟩ := htasks id _ hid
  rw [Serve.step_emits] at hs
  obtain ⟨_, hown, he⟩ := Option.map_eq_some_iff.mp hs
  obtain ⟨rfl, rfl⟩ := Prod.mk.inj he
  obtain ⟨hlt, -⟩ := List.getElem?_eq_some_iff.mp hid
  refine ⟨_, _, Machine.crew_turn hmember hown, ?_, fun other task htask => ?_, ?_⟩
  · simp [Listener.set, hlength]
  · simp only [Listener.set, List.getElem?_set, hlength] at htask ⊢
    split_ifs at htask ⊢ with hother
    · obtain rfl := Option.some.inj htask
      exact ⟨_, _, rfl, rfl⟩
    · exact htasks other task htask
  · rw [hmetrics]
    exact ServerMetrics.replay_shedding serving.shared shed _

theorem Listener.Refines.step (h : listener.Refines settings shed serving)
    (hkept : event.cutsShort = false) (hs : listener.step settings event = some next) :
    ∃ taken after, (Serving.step settings).run serving taken = some after ∧
      next.Refines settings (shed + (listener.sheds event).length) after := by
  obtain ⟨rfl, -, ⟨hpermit, rfl⟩ | ⟨hnone, rfl⟩⟩ | ⟨id, rfl, hid, rfl⟩ |
    ⟨id, taken, serve, resumed, metrics, rfl, hid, htaken, rfl⟩ | ⟨id, serve, hevent, -⟩ |
    ⟨id, task, hid, hevent, rfl⟩ | ⟨id, rfl, -, rfl⟩ | ⟨rfl, rfl⟩ := Listener.step_cases hs
  · have hsheds : listener.sheds .arrived = [] := by simp [Listener.sheds, hpermit.ne']
    rw [hsheds]
    obtain ⟨after, hrun, hafter⟩ := h.arrived
    exact ⟨_, after, hrun, hafter⟩
  · have hsheds : listener.sheds .arrived = [()] := by simp [Listener.sheds, hnone]
    rw [hsheds]
    refine ⟨[], serving, rfl, h.length, h.tasks, ?_⟩
    rw [h.metrics]
    exact ServerMetrics.shedding_more _ _
  · exact ⟨[], serving, rfl, h.turned hid fun _ his => his⟩
  · obtain ⟨turn, after, hrun, hafter⟩ := h.serves hid htaken
    exact ⟨turn, after, hrun, by simpa [Listener.sheds] using hafter⟩
  · obtain rfl | rfl := hevent <;> cases hkept
  · obtain ⟨rfl, -⟩ | ⟨serve, rfl, rfl, hreturned⟩ := hevent
    · cases hkept
    · have hafter : (listener.set id .ended).Refines settings shed serving :=
      h.turned hid fun _ his => his ▸ hreturned
      exact ⟨[], serving, rfl, hafter.length, hafter.tasks, hafter.metrics⟩
  · exact ⟨[], serving, rfl, h.length, h.tasks, h.metrics⟩
  · exact ⟨[], serving, rfl, h.length, h.tasks, h.metrics⟩

end

-- As long as no task is cut short, the accept loop does what its tasks could do on their
-- own: whatever its permits let in, some interleaving of the tasks has each of them where
-- the loop has it, with the same metrics but for the streams that were shed.
theorem listener_refines (settings : ServeSettings) (maxStreams : Nat)
    (events : List ListenerEvent) (listener : Listener)
    (hr : (Listener.step settings).run (.start maxStreams) events = some listener)
    (hkept : ∀ event ∈ events, event.cutsShort = false) :
    ∃ taken serving, (Serving.step settings).run Serving.start taken = some serving ∧
      listener.Refines settings
        ((Listener.step settings).views Listener.sheds (.start maxStreams) events).length
        serving := by
  refine Machine.run_history (fun events (listener : Listener) =>
    (∀ event ∈ events, event.cutsShort = false) →
      ∃ taken serving, (Serving.step settings).run Serving.start taken = some serving ∧
        listener.Refines settings
          ((Listener.step settings).views Listener.sheds (.start maxStreams) events).length
          serving) ?_ ?_ hr hkept
  · exact fun _ => ⟨[], _, rfl, Listener.Refines.start settings maxStreams⟩
  · intro events listener event next hrun h hs hkept
    have hall := List.forall_mem_append.mp hkept
    obtain ⟨taken, serving, hserving, hrefines⟩ := h hall.1
    obtain ⟨more, after, hmore, hafter⟩ :=
      hrefines.step (hall.2 event List.mem_cons_self) hs
    rw [Machine.views_concat _ _ hrun hs, List.length_append]
    exact ⟨taken ++ more, after, Machine.run_trans hserving hmore, hafter⟩

-- Two permits: a third stream is shed while both are held, and a fourth finds the one
-- that a rejected stream gave back.
def shedStream : List ListenerEvent :=
  [.arrived, .polled 0, .arrived, .arrived, .serve 0 (.stream (.io (.failed (.Other 5)))),
    .released 0, .reaped 0, .arrived]

theorem shed_stream_refines : ∃ listener taken serving,
    (Listener.step ⟨5, 5, 5⟩).run (.start 2) shedStream = some listener ∧
    listener.tasks = [.ended, .spawned, .spawned] ∧
    (Serving.step ⟨5, 5, 5⟩).run Serving.start taken = some serving ∧
    serving.members.length = 3 ∧ listener.metrics = serving.shared.shedding 1 := by
  obtain ⟨listener, hr, htasks⟩ : ∃ listener,
      (Listener.step ⟨5, 5, 5⟩).run (.start 2) shedStream = some listener ∧
      listener.tasks = [.ended, .spawned, .spawned] :=
    Option.map_eq_some_iff.mp (by decide +kernel)
  obtain ⟨taken, serving, hserving, hlength, -, hmetrics⟩ :=
    listener_refines ⟨5, 5, 5⟩ 2 shedStream listener hr (by decide)
  have hshed : ((Listener.step ⟨5, 5, 5⟩).views Listener.sheds (.start 2) shedStream).length = 1 :=
    by decide +kernel
  rw [hshed] at hmetrics
  exact ⟨listener, taken, serving, hr, htasks, hserving, by rw [hlength, htasks]; rfl, hmetrics⟩

end LwdMixnet
