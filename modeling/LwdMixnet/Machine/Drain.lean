import LwdMixnet.Machine.Timed
import Mathlib.Data.List.Range

-- A loop that spawns tasks into a set and joins them out of it. Once it is asked
-- to stop it spawns no more, and waits for the set to be empty for a grace at
-- most. What is left in the set when it is over was abandoned.
namespace Machine

inductive LoopPhase (ν : Type*)
  | accepting
  | pausing (resume : Nat)
  | draining (deadline : Nat) (verdict : ν)
  | ended (verdict : ν)

-- Tasks are numbered as they are spawned.
structure Loop (ν : Type*) where
  now : Nat := 0
  phase : LoopPhase ν := .accepting
  spawned : Nat := 0
  set : List Nat := []

inductive LoopEvent (ν : Type*)
  | spawn
  | join (id : Nat)
  | pause (time : Nat)
  | resume
  | stop (verdict : ν)
  | expire
  | elapse (time : Nat)

variable {ν : Type*}

-- Time does not pass beyond an armed timer, nor for a loop that is over.
def LoopPhase.allows (phase : LoopPhase ν) (instant : Nat) : Bool :=
  match phase with
  | .accepting => true
  | .pausing resume => instant ≤ resume
  | .draining deadline _ => instant ≤ deadline
  | .ended _ => false

def Loop.step (grace : Nat) : Machine (Loop ν) (LoopEvent ν) := fun loop event =>
  match loop.phase, event with
  | .accepting, .spawn =>
      some { loop with spawned := loop.spawned + 1, set := loop.set ++ [loop.spawned] }
  | .accepting, .join id =>
      if id ∈ loop.set then some { loop with set := loop.set.erase id } else none
  | .accepting, .pause time => some { loop with phase := .pausing (loop.now + time) }
  | .accepting, .stop verdict =>
      if loop.set = [] then some { loop with phase := .ended verdict }
      else some { loop with phase := .draining (loop.now + grace) verdict }
  | .pausing resume, .resume =>
      if resume ≤ loop.now then some { loop with phase := .accepting } else none
  | .draining deadline verdict, .join id =>
      if id ∈ loop.set then
        some { loop with
          set := loop.set.erase id
          phase := if loop.set.erase id = [] then .ended verdict else .draining deadline verdict }
      else none
  | .draining deadline verdict, .expire =>
      if deadline ≤ loop.now then some { loop with phase := .ended verdict } else none
  | phase, .elapse time =>
      if phase.allows (loop.now + time) then some { loop with now := loop.now + time } else none
  | _, _ => none

def LoopEvent.joined : LoopEvent ν → Option Nat
  | .join id => some id
  | _ => none

def LoopEvent.isSpawn : LoopEvent ν → Bool
  | .spawn => true
  | _ => false

def LoopEvent.isStop : LoopEvent ν → Bool
  | .stop _ => true
  | _ => false

section

variable {grace : Nat} {loop next : Loop ν} {event : LoopEvent ν} {events : List (LoopEvent ν)}

-- Everything a step does to the set.
theorem Loop.step_set (hs : loop.step grace event = some next) :
    (event = .spawn ∧ next.spawned = loop.spawned + 1 ∧ next.set = loop.set ++ [loop.spawned]) ∨
    (∃ id ∈ loop.set, event = .join id ∧ next.spawned = loop.spawned ∧
      next.set = loop.set.erase id) ∨
    (event.isSpawn = false ∧ event.joined = none ∧ next.spawned = loop.spawned ∧
      next.set = loop.set) := by
  unfold Loop.step at hs
  split at hs
  · cases hs
    exact Or.inl ⟨rfl, rfl, rfl⟩
  · split_ifs at hs with hmem
    cases hs
    exact Or.inr (Or.inl ⟨_, hmem, rfl, rfl, rfl⟩)
  · cases hs
    exact Or.inr (Or.inr ⟨rfl, rfl, rfl, rfl⟩)
  · split_ifs at hs <;> cases hs <;> exact Or.inr (Or.inr ⟨rfl, rfl, rfl, rfl⟩)
  · split_ifs at hs
    cases hs
    exact Or.inr (Or.inr ⟨rfl, rfl, rfl, rfl⟩)
  · split_ifs at hs with hmem <;> cases hs <;> exact Or.inr (Or.inl ⟨_, hmem, rfl, rfl, rfl⟩)
  · split_ifs at hs
    cases hs
    exact Or.inr (Or.inr ⟨rfl, rfl, rfl, rfl⟩)
  · split_ifs at hs
    cases hs
    exact Or.inr (Or.inr ⟨rfl, rfl, rfl, rfl⟩)
  · cases hs

-- Each task that was spawned is joined once or still in the set.
theorem loop_partitions (hr : (Loop.step grace).run {} events = some loop) :
    loop.spawned = events.countP LoopEvent.isSpawn ∧
      (events.filterMap LoopEvent.joined ++ loop.set).Perm (List.range loop.spawned) := by
  refine run_history (fun events (loop : Loop ν) =>
    loop.spawned = events.countP LoopEvent.isSpawn ∧
      (events.filterMap LoopEvent.joined ++ loop.set).Perm (List.range loop.spawned))
    ⟨rfl, .refl _⟩ ?_ hr
  intro events loop event next _ ⟨hcount, hperm⟩ hs
  rw [List.countP_append, List.countP_singleton, List.filterMap_append]
  obtain ⟨rfl, hspawned, hset⟩ | ⟨id, hid, rfl, hspawned, hset⟩ |
    ⟨hspawn, hjoin, hspawned, hset⟩ := Loop.step_set hs
  · refine ⟨by rw [hspawned, hcount]; rfl, ?_⟩
    rw [hspawned, hset, List.range_succ, ← List.append_assoc]
    exact (List.append_nil (events.filterMap LoopEvent.joined) ▸ hperm).append_right _
  · refine ⟨by rw [hspawned, hcount]; rfl, ?_⟩
    rw [hspawned, hset, List.append_assoc]
    exact ((List.perm_cons_erase hid).symm.append_left _).trans hperm
  · refine ⟨by rw [hspawned, hcount, hspawn]; rfl, ?_⟩
    rw [hspawned, hset]
    simpa [hjoin] using hperm

-- What the loop has come to since it was asked to stop.
def Loop.Stopping (loop : Loop ν) (grace : Nat) (asked : Loop ν) (verdict : ν) : Prop :=
  loop.spawned = asked.spawned ∧ loop.now ≤ asked.now + grace ∧
    match loop.phase with
    | .accepting | .pausing _ => False
    | .draining deadline given =>
        given = verdict ∧ deadline = asked.now + grace ∧ loop.set ≠ []
    | .ended given => given = verdict ∧ (loop.set = [] ∨ loop.now = asked.now + grace)

theorem Loop.Stopping.step {asked : Loop ν} {verdict : ν}
    (h : loop.Stopping grace asked verdict) (hs : loop.step grace event = some next) :
    event.isStop = false ∧ next.Stopping grace asked verdict := by
  obtain ⟨hspawned, hnow, hphase⟩ := h
  obtain ⟨now, phase, spawned, set⟩ := loop
  cases phase with
  | accepting | pausing _ => exact hphase.elim
  | ended given => cases event <;> simp [Loop.step, LoopPhase.allows] at hs
  | draining deadline given =>
      obtain ⟨rfl, rfl, hset⟩ := hphase
      cases event with
      | spawn | pause _ | resume | stop _ => simp [Loop.step] at hs
      | join id =>
          simp only [Loop.step] at hs
          split_ifs at hs with hmem hempty <;> cases hs
          · exact ⟨rfl, hspawned, hnow, rfl, Or.inl hempty⟩
          · exact ⟨rfl, hspawned, hnow, rfl, rfl, hempty⟩
      | expire =>
          simp only [Loop.step] at hs
          split_ifs at hs with hdue
          cases hs
          exact ⟨rfl, hspawned, hnow, rfl, Or.inr (Nat.le_antisymm hnow hdue)⟩
      | elapse time =>
          simp only [Loop.step] at hs
          split_ifs at hs with hallows
          cases hs
          exact ⟨rfl, hspawned, of_decide_eq_true hallows, rfl, rfl, hset⟩

theorem Loop.step_stop {verdict : ν} (hs : loop.step grace (.stop verdict) = some next) :
    next.Stopping grace loop verdict := by
  obtain ⟨now, phase, spawned, set⟩ := loop
  cases phase with
  | accepting =>
      simp only [Loop.step] at hs
      split_ifs at hs with hempty <;> cases hs
      · exact ⟨rfl, Nat.le_add_right _ _, rfl, Or.inl hempty⟩
      · exact ⟨rfl, Nat.le_add_right now grace, rfl, rfl, hempty⟩
  | pausing _ | draining _ _ | ended _ => simp [Loop.step] at hs

theorem Loop.run_stop {verdict : ν} {last : Loop ν}
    (hr : (Loop.step grace).run loop (.stop verdict :: events) = some last) :
    last.Stopping grace loop verdict := by
  obtain ⟨next, hs, hr⟩ := Option.bind_eq_some_iff.mp hr
  exact run_invariant (fun last : Loop ν => last.Stopping grace loop verdict)
    (fun _ _ _ h hs => (h.step hs).2) (Loop.step_stop hs) hr

end

end Machine
