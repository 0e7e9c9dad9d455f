import LwdMixnet.Machine.Basic
import Mathlib.Algebra.GroupWithZero.Nat

-- Executions in which some events let time pass and the others happen at an
-- instant. `delay` says how much time an event takes.
namespace Machine

variable {σ ε : Type*} (delay : ε → Nat)

def duration (events : List ε) : Nat :=
  (events.map delay).sum

-- Each event with the instant at which it happens, counted from `start`.
def timed (start : Nat) : List ε → List (Nat × ε)
  | [] => []
  | event :: rest => (start, event) :: timed (start + delay event) rest

@[simp] theorem duration_nil : duration delay ([] : List ε) = 0 := rfl

theorem duration_append (first second : List ε) :
    duration delay (first ++ second) = duration delay first + duration delay second := by
  simp [duration]

@[simp] theorem duration_concat (events : List ε) (event : ε) :
    duration delay (events ++ [event]) = duration delay events + delay event := by
  simp [duration]

theorem timed_append (start : Nat) (first second : List ε) :
    timed delay start (first ++ second) =
      timed delay start first ++ timed delay (start + duration delay first) second := by
  induction first generalizing start with
  | nil => simp [timed]
  | cons event rest ih => simp [timed, duration, ih, Nat.add_assoc]

@[simp] theorem timed_concat (start : Nat) (events : List ε) (event : ε) :
    timed delay start (events ++ [event]) =
      timed delay start events ++ [(start + duration delay events, event)] := by
  rw [timed_append]
  rfl

theorem mem_of_timed {start instant : Nat} {events : List ε} {event : ε}
    (hm : (instant, event) ∈ timed delay start events) : event ∈ events := by
  induction events generalizing start with
  | nil => cases hm
  | cons first rest ih =>
      rcases List.mem_cons.mp hm with he | hm
      · exact (Prod.mk.inj he).2 ▸ List.mem_cons_self
      · exact List.mem_cons_of_mem _ (ih hm)

theorem timed_bounds (start : Nat) (events : List ε) (instant : Nat) (event : ε)
    (hm : (instant, event) ∈ timed delay start events) :
    start ≤ instant ∧ instant ≤ start + duration delay events := by
  induction events using List.reverseRecOn with
  | nil => simp [timed] at hm
  | append_singleton events last ih =>
      rw [timed_concat, List.mem_append, List.mem_singleton] at hm
      rw [duration_concat]
      rcases hm with hm | hm
      · have := ih hm
        omega
      · have he := congrArg Prod.fst hm
        simp only at he
        omega

-- A clock that starts at `start` and is advanced by every delay reads the
-- duration of the execution.
theorem run_clock {machine : Machine σ ε} (clock : σ → Nat)
    (hstep : ∀ state event next, machine state event = some next →
      clock next = clock state + delay event)
    {state last : σ} {events : List ε} (hrun : machine.run state events = some last) :
    clock last = clock state + duration delay events := by
  refine run_history (fun events last => clock last = clock state + duration delay events)
    (by simp) ?_ hrun
  intro events middle event next _ hc hs
  rw [hstep middle event next hs, hc, duration_concat, Nat.add_assoc]

-- The time an execution spends in the states that `during` picks.
def spent (machine : Machine σ ε) (during : σ → Bool) (state : σ) (events : List ε) : Nat :=
  (machine.views (fun state event => if during state then [delay event] else []) state events).sum

@[simp] theorem spent_nil (machine : Machine σ ε) (during : σ → Bool) (state : σ) :
    machine.spent delay during state [] = 0 := rfl

theorem spent_concat {machine : Machine σ ε} (during : σ → Bool) {state next last : σ}
    {events : List ε} {event : ε} (hrun : machine.run state events = some next)
    (hstep : machine next event = some last) :
    machine.spent delay during state (events ++ [event]) =
      machine.spent delay during state events + if during next then delay event else 0 := by
  rw [spent, views_concat _ _ hrun hstep, List.sum_append]
  split_ifs
  · rw [List.sum_singleton, spent]
  · rfl

end Machine
