import Mathlib.Data.List.Induction

-- A machine is a partial step function: it answers `none` to an event that
-- cannot happen in the state at hand. Every choice of the environment is in
-- the event, so a list of events names one execution.
abbrev Machine (σ ε : Type*) := σ → ε → Option σ

namespace Machine

variable {σ ε τ δ : Type*}

def run (machine : Machine σ ε) : σ → List ε → Option σ
  | state, [] => some state
  | state, event :: rest => (machine state event).bind fun next => run machine next rest

@[simp] theorem run_nil (machine : Machine σ ε) (state : σ) :
    machine.run state [] = some state := rfl

theorem run_cons (machine : Machine σ ε) (state : σ) (event : ε) (rest : List ε) :
    machine.run state (event :: rest) =
      (machine state event).bind fun next => machine.run next rest := rfl

theorem run_append (machine : Machine σ ε) (state : σ) (first second : List ε) :
    machine.run state (first ++ second) =
      (machine.run state first).bind fun next => machine.run next second := by
  induction first generalizing state with
  | nil => rfl
  | cons event rest ih =>
      simp only [List.cons_append, run_cons]
      cases machine state event with
      | none => rfl
      | some next => exact ih next

theorem run_concat (machine : Machine σ ε) (state : σ) (events : List ε) (event : ε) :
    machine.run state (events ++ [event]) =
      (machine.run state events).bind fun next => machine next event := by
  rw [run_append]
  congr 1
  funext next
  simp only [run_cons, run_nil]
  cases machine next event <;> rfl

theorem run_concat_some {machine : Machine σ ε} {state last : σ} {events : List ε} {event : ε}
    (hrun : machine.run state (events ++ [event]) = some last) :
    ∃ next, machine.run state events = some next ∧ machine next event = some last := by
  rw [run_concat] at hrun
  exact Option.bind_eq_some_iff.mp hrun

theorem run_trans {machine : Machine σ ε} {state next last : σ} {first second : List ε}
    (hfirst : machine.run state first = some next) (hsecond : machine.run next second = some last) :
    machine.run state (first ++ second) = some last := by
  rw [run_append, hfirst]
  exact hsecond

theorem run_snoc {machine : Machine σ ε} {state next last : σ} {events : List ε} {event : ε}
    (hrun : machine.run state events = some next) (hs : machine next event = some last) :
    machine.run state (events ++ [event]) = some last := by
  rw [run_concat, hrun]
  exact hs

theorem run_append_some {machine : Machine σ ε} {state last : σ} {first second : List ε}
    (hrun : machine.run state (first ++ second) = some last) :
    ∃ next, machine.run state first = some next ∧ machine.run next second = some last := by
  rw [run_append] at hrun
  exact Option.bind_eq_some_iff.mp hrun

-- What holds at the start and survives each step holds after every execution.
theorem run_invariant {machine : Machine σ ε} (holds : σ → Prop)
    (hstep : ∀ state event next, holds state → machine state event = some next → holds next)
    {state last : σ} {events : List ε} (hstart : holds state)
    (hrun : machine.run state events = some last) : holds last := by
  induction events generalizing state with
  | nil =>
      obtain rfl := Option.some.inj hrun
      exact hstart
  | cons event rest ih =>
      obtain ⟨next, hs, hr⟩ := Option.bind_eq_some_iff.mp hrun
      exact ih (hstep state event next hstart hs) hr

-- The same rule for a property that relates the state to the events so far.
theorem run_history {machine : Machine σ ε} {start : σ} (holds : List ε → σ → Prop)
    (hstart : holds [] start)
    (hstep : ∀ events state event next, machine.run start events = some state →
      holds events state → machine state event = some next → holds (events ++ [event]) next)
    {events : List ε} {last : σ} (hrun : machine.run start events = some last) :
    holds events last := by
  induction events using List.reverseRecOn generalizing last with
  | nil =>
      obtain rfl := Option.some.inj hrun
      exact hstart
  | append_singleton events event ih =>
      obtain ⟨state, hr, hs⟩ := run_concat_some hrun
      exact hstep events state event last hr (ih hr) hs

-- Some execution gets there.
def Reaches (machine : Machine σ ε) (origin state : σ) : Prop :=
  ∃ events, machine.run origin events = some state

theorem Reaches.step {machine : Machine σ ε} {origin state next : σ}
    (h : machine.Reaches origin state)
    (hs : next = state ∨ ∃ event, machine state event = some next) :
    machine.Reaches origin next := by
  obtain ⟨events, hr⟩ := h
  obtain rfl | ⟨event, hs⟩ := hs
  · exact ⟨events, hr⟩
  · exact ⟨events ++ [event], run_snoc hr hs⟩

-- Where every state short of the goal has a step to a smaller one, some execution
-- gets there.
theorem run_descends {machine : Machine σ ε} (holds goal : σ → Prop) (measure : σ → ℕ)
    (hstep : ∀ state, holds state → goal state ∨ ∃ event next, machine state event = some next ∧
      holds next ∧ measure next < measure state)
    {state : σ} (hstart : holds state) :
    ∃ events last, machine.run state events = some last ∧ holds last ∧ goal last := by
  induction hsize : measure state using Nat.strongRecOn generalizing state with
  | ind size ih =>
      obtain hgoal | ⟨event, next, hs, hnext, hless⟩ := hstep state hstart
      · exact ⟨[], state, rfl, hstart, hgoal⟩
      · rw [hsize] at hless
        obtain ⟨events, last, hr, hlast⟩ := ih (measure next) hless hnext rfl
        refine ⟨event :: events, last, ?_, hlast⟩
        rw [run_cons, hs]
        exact hr

-- Where one machine answers each step of another with an execution, it answers each
-- execution of it with one.
theorem run_answered {machine : Machine σ ε} {other : Machine τ δ} (related : σ → τ → Prop)
    (hstep : ∀ state twin event next, related state twin → machine state event = some next →
      ∃ events last, other.run twin events = some last ∧ related next last)
    {state last : σ} {twin : τ} {events : List ε} (h : related state twin)
    (hrun : machine.run state events = some last) :
    ∃ more after, other.run twin more = some after ∧ related last after := by
  induction events generalizing state twin with
  | nil =>
      obtain rfl := Option.some.inj hrun
      exact ⟨[], twin, rfl, h⟩
  | cons event rest ih =>
      obtain ⟨next, hs, hrest⟩ := Option.bind_eq_some_iff.mp hrun
      obtain ⟨first, between, hfirst, hbetween⟩ := hstep state twin event next h hs
      obtain ⟨second, after, hsecond, hafter⟩ := ih hbetween hrest
      exact ⟨first ++ second, after, run_trans hfirst hsecond, hafter⟩

-- A machine that is left with some of its events.
def only (keep : ε → Bool) (machine : Machine σ ε) : Machine σ ε := fun state event =>
  if keep event then machine state event else none

theorem only_some {keep : ε → Bool} {machine : Machine σ ε} {state next : σ} {event : ε} :
    machine.only keep state event = some next ↔
      keep event ∧ machine state event = some next :=
  Option.ite_none_right_eq_some

theorem run_only {keep : ε → Bool} {machine : Machine σ ε} {state last : σ} {events : List ε}
    (hrun : (machine.only keep).run state events = some last) :
    machine.run state events = some last ∧ ∀ event ∈ events, keep event := by
  induction events generalizing state with
  | nil => exact ⟨hrun, fun _ h => nomatch h⟩
  | cons event rest ih =>
      obtain ⟨next, hs, hrest⟩ := Option.bind_eq_some_iff.mp hrun
      obtain ⟨hkeep, hstep⟩ := only_some.mp hs
      obtain ⟨hall, hkept⟩ := ih hrest
      refine ⟨?_, fun taken htaken => ?_⟩
      · rw [run_cons, hstep]
        exact hall
      · rcases List.mem_cons.mp htaken with rfl | htaken
        · exact hkeep
        · exact hkept taken htaken

-- Two machines that answer each event alike, as long as the events so far are
-- `fit`, run in lockstep: either both refuse the events or neither does.
theorem run_lockstep {machine : Machine σ ε} {other : Machine τ ε} {start : σ} {origin : τ}
    (fit : List ε → Prop) (related : List ε → σ → τ → Prop)
    (hfit : ∀ events event, fit (events ++ [event]) → fit events)
    (hstart : related [] start origin)
    (hstep : ∀ events event state twin, fit (events ++ [event]) →
      machine.run start events = some state → other.run origin events = some twin →
      related events state twin →
      Option.Rel (related (events ++ [event])) (machine state event) (other twin event))
    {events : List ε} (hevents : fit events) :
    Option.Rel (related events) (machine.run start events) (other.run origin events) := by
  induction events using List.reverseRecOn with
  | nil => exact .some hstart
  | append_singleton events event ih =>
      have hi := ih (hfit events event hevents)
      rw [run_concat, run_concat]
      cases hm : machine.run start events with
      | none =>
          cases ho : other.run origin events with
          | none => exact .none
          | some twin =>
              rw [hm, ho] at hi
              cases hi
      | some state =>
          cases ho : other.run origin events with
          | none =>
              rw [hm, ho] at hi
              cases hi
          | some twin =>
              rw [hm, ho] at hi
              cases hi with
              | some hrel => exact hstep events event state twin hevents hm ho hrel

theorem map_eq_of_rel {value : Type*} {related : σ → τ → Prop} {first : σ → value}
    {second : τ → value} {left : Option σ} {right : Option τ} (h : Option.Rel related left right)
    (heq : ∀ state twin, related state twin → first state = second twin) :
    left.map first = right.map second := by
  cases h with
  | none => rfl
  | some h => simp [heq _ _ h]

-- The events a second machine takes while the first one runs.
def views (machine : Machine σ ε) (view : σ → ε → List δ) : σ → List ε → List δ
  | _, [] => []
  | state, event :: rest =>
      match machine state event with
      | none => []
      | some next => view state event ++ views machine view next rest

theorem views_append (machine : Machine σ ε) (view : σ → ε → List δ) {state next : σ}
    {first second : List ε} (hrun : machine.run state first = some next) :
    machine.views view state (first ++ second) =
      machine.views view state first ++ machine.views view next second := by
  induction first generalizing state with
  | nil =>
      obtain rfl := Option.some.inj hrun
      rfl
  | cons event rest ih =>
      obtain ⟨middle, hs, hr⟩ := Option.bind_eq_some_iff.mp hrun
      simp [views, hs, ih hr]

theorem mem_views {machine : Machine σ ε} {view : σ → ε → List δ} {state : σ} {events : List ε}
    {seen : δ} (h : seen ∈ machine.views view state events) :
    ∃ before event after next, events = before ++ event :: after ∧
      machine.run state before = some next ∧ seen ∈ view next event := by
  induction events generalizing state with
  | nil => cases h
  | cons event rest ih =>
      cases hs : machine state event with
      | none => simp [views, hs] at h
      | some middle =>
          simp only [views, hs, List.mem_append] at h
          rcases h with h | h
          · exact ⟨[], event, rest, state, rfl, rfl, h⟩
          · obtain ⟨before, later, after, next, rfl, hr, hm⟩ := ih h
            exact ⟨event :: before, later, after, next, rfl, by simp [run_cons, hs, hr], hm⟩

theorem views_concat (machine : Machine σ ε) (view : σ → ε → List δ) {state next last : σ}
    {events : List ε} {event : ε} (hrun : machine.run state events = some next)
    (hstep : machine next event = some last) :
    machine.views view state (events ++ [event]) =
      machine.views view state events ++ view next event := by
  rw [views_append machine view hrun]
  simp [views, hstep]

-- What is seen of each event, where this does not depend on the state.
theorem views_filterMap {machine : Machine σ ε} {view : σ → ε → List δ} {value : Type*}
    (seen : δ → Option value) (taken : ε → Option value)
    (hview : ∀ state event next, machine state event = some next →
      (view state event).filterMap seen = (taken event).toList)
    {state last : σ} {events : List ε} (hrun : machine.run state events = some last) :
    (machine.views view state events).filterMap seen = events.filterMap taken := by
  induction events generalizing state with
  | nil => rfl
  | cons event rest ih =>
      obtain ⟨next, hs, hr⟩ := Option.bind_eq_some_iff.mp hrun
      simp only [views, hs, List.filterMap_append, hview state event next hs, ih hr]
      cases htaken : taken event <;> simp [htaken]

-- Events that change a state within its relation to another may be left out.
theorem run_filter {machine : Machine σ ε} (keep : ε → Bool) (related : σ → σ → Prop)
    (hkeep : ∀ state twin event next, related state twin → keep event = true →
      machine state event = some next →
      ∃ after, machine twin event = some after ∧ related next after)
    (hskip : ∀ state twin event next, related state twin → keep event = false →
      machine state event = some next → related next twin)
    {state twin last : σ} {events : List ε} (h : related state twin)
    (hrun : machine.run state events = some last) :
    ∃ final, machine.run twin (events.filter keep) = some final ∧ related last final := by
  induction events generalizing state twin with
  | nil =>
      obtain rfl := Option.some.inj hrun
      exact ⟨twin, rfl, h⟩
  | cons event rest ih =>
      obtain ⟨next, hs, hr⟩ := Option.bind_eq_some_iff.mp hrun
      by_cases hevent : keep event = true
      · obtain ⟨after, hafter, hrelated⟩ := hkeep state twin event next h hevent hs
        obtain ⟨final, hfinal, hlast⟩ := ih hrelated hr
        refine ⟨final, ?_, hlast⟩
        rw [List.filter_cons_of_pos hevent, run_cons, hafter]
        exact hfinal
      · rw [List.filter_cons_of_neg hevent]
        exact ih (hskip state twin event next h (Bool.eq_false_iff.mpr hevent) hs) hr

-- Forward simulation: each step is matched by the events it is seen as, so
-- each execution is.
theorem run_simulates {machine : Machine σ ε} {target : Machine τ δ} (image : σ → τ)
    {view : σ → ε → List δ}
    (hstep : ∀ state event next, machine state event = some next →
      target.run (image state) (view state event) = some (image next))
    {state last : σ} {events : List ε} (hrun : machine.run state events = some last) :
    target.run (image state) (machine.views view state events) = some (image last) := by
  induction events generalizing state with
  | nil =>
      obtain rfl := Option.some.inj hrun
      rfl
  | cons event rest ih =>
      obtain ⟨next, hs, hr⟩ := Option.bind_eq_some_iff.mp hrun
      simp only [views, hs, run_append, hstep state event next hs, Option.bind_some]
      exact ih hr

-- The same where a step is only matched in the states that are reached.
theorem run_simulates_within {machine : Machine σ ε} {target : Machine τ δ} (holds : σ → Prop)
    (image : σ → τ) {view : σ → ε → List δ}
    (hstep : ∀ state event next, holds state → machine state event = some next →
      holds next ∧ target.run (image state) (view state event) = some (image next))
    {state last : σ} {events : List ε} (hstart : holds state)
    (hrun : machine.run state events = some last) :
    holds last ∧ target.run (image state) (machine.views view state events) =
      some (image last) := by
  induction events generalizing state with
  | nil =>
      obtain rfl := Option.some.inj hrun
      exact ⟨hstart, rfl⟩
  | cons event rest ih =>
      obtain ⟨next, hs, hr⟩ := Option.bind_eq_some_iff.mp hrun
      obtain ⟨hnext, hmatched⟩ := hstep state event next hstart hs
      simp only [views, hs, run_append, hmatched, Option.bind_some]
      exact ih hnext hr

end Machine
