import LwdMixnet.Duration
import LwdMixnet.Io
import LwdMixnet.Machine.Timed

namespace LwdMixnet

-- How long a splice may go without the far side answering, and without moving
-- at all.
structure Watchdog where
  stall : Option Nat := none
  idle : Option Nat := none
  deriving DecidableEq, Repr

inductive Ended
  | Closed
  | Stalled (deadline : Nat)
  | Idle (deadline : Nat)
  | Failed (error : IoError)
  deriving DecidableEq, Repr

-- The two directions of a splice: `outbound` copies local bytes to the remote.
inductive Way
  | outbound
  | inbound
  deriving DecidableEq, Repr

structure Direction where
  bytes : Nat := 0
  lastAtMillis : Nat := 0
  deriving DecidableEq, Repr

def Direction.movedAt (direction : Direction) : Option Nat :=
  if 0 < direction.bytes then some direction.lastAtMillis else none

def Direction.record (direction : Direction) (moved : Nat) (elapsed : Nat) : Direction where
  bytes := direction.bytes + moved
  lastAtMillis := asMillis elapsed

structure Activity where
  toRemote : Direction := {}
  fromRemote : Direction := {}
  deriving DecidableEq, Repr

structure Transfer where
  toRemote : Nat
  fromRemote : Nat
  deriving DecidableEq, Repr

def Activity.transfer (activity : Activity) : Transfer where
  toRemote := activity.toRemote.bytes
  fromRemote := activity.fromRemote.bytes

def Activity.direction (activity : Activity) : Way → Direction
  | .outbound => activity.toRemote
  | .inbound => activity.fromRemote

def Activity.record (activity : Activity) (way : Way) (moved : Nat) (elapsed : Nat) :
    Activity :=
  match way with
  | .outbound => { activity with toRemote := activity.toRemote.record moved elapsed }
  | .inbound => { activity with fromRemote := activity.fromRemote.record moved elapsed }

structure StallClock where
  sinceMillis : Option Nat := none
  deriving DecidableEq, Repr

def IDLE_PERIOD : Nat := fromSecs 3600

def FLOOR : Nat := fromMillis 100

def CEILING : Nat := fromSecs 5

def Watchdog.checkPeriod (watchdog : Watchdog) : Nat :=
  match (watchdog.stall.toList ++ watchdog.idle.toList).min? with
  | none => IDLE_PERIOD
  | some shorter => max FLOOR (min (shorter / 4) CEILING)

def Watchdog.stalled (watchdog : Watchdog) (now since : Nat) : Option Ended :=
  match watchdog.stall with
  | some stall => if asMillis stall ≤ now - since then some (.Stalled stall) else none
  | none => none

def Watchdog.idled (watchdog : Watchdog) (now latest : Nat) : Option Ended :=
  match watchdog.idle with
  | some idle => if asMillis idle ≤ now - latest then some (.Idle idle) else none
  | none => none

-- The latest write, where the far side has said nothing at or after it.
def outstanding (wrote heard : Option Nat) : Option Nat :=
  wrote.filter fun wrote => heard.all fun heard => heard < wrote

def Watchdog.tripped (watchdog : Watchdog) (clock : StallClock) (activity : Activity)
    (elapsed : Nat) : StallClock × Option Ended :=
  let now := asMillis elapsed
  let wrote := activity.toRemote.movedAt
  let heard := activity.fromRemote.movedAt
  let idled := watchdog.idled now (max (wrote.getD 0) (heard.getD 0))
  match outstanding wrote heard with
  | some wrote =>
      let since := max (clock.sinceMillis.getD wrote) (heard.getD 0)
      (⟨some since⟩, (watchdog.stalled now since).or idled)
  | none => (⟨none⟩, idled)

-- The loop of `splice` as its watchdog sees it: movements the pumps record, the
-- passing of time, and the ticks.
structure Watch where
  watchdog : Watchdog
  elapsed : Nat := 0
  activity : Activity := {}
  clock : StallClock := {}
  nextTick : Nat
  ended : Option Ended := none
  deriving DecidableEq, Repr

inductive WatchEvent
  | moved (way : Way) (count : Nat)
  | elapse (time : Nat)
  | tick
  deriving DecidableEq, Repr

def Watch.start (watchdog : Watchdog) : Watch where
  watchdog := watchdog
  nextTick := watchdog.checkPeriod

-- A pump only records bytes it read, so a count of zero does not occur. The
-- ticker is polled as soon as it is due, so no time passes beyond the next tick.
def Watch.step : Machine Watch WatchEvent := fun watch event =>
  if watch.ended.isSome then none else
  match event with
  | .moved way count =>
      if count = 0 then none
      else some { watch with activity := watch.activity.record way count watch.elapsed }
  | .elapse time =>
      if watch.elapsed + time ≤ watch.nextTick then
        some { watch with elapsed := watch.elapsed + time }
      else none
  | .tick =>
      if watch.elapsed = watch.nextTick then
        let (clock, ended) := watch.watchdog.tripped watch.clock watch.activity watch.elapsed
        some { watch with clock, ended, nextTick := watch.nextTick + watch.watchdog.checkPeriod }
      else none

def WatchEvent.delay : WatchEvent → Nat
  | .elapse time => time
  | _ => 0

theorem floor_le_checkPeriod (watchdog : Watchdog) : FLOOR ≤ watchdog.checkPeriod := by
  unfold Watchdog.checkPeriod
  split
  · decide
  · exact Nat.le_max_left _ _

theorem checkPeriod_pos (watchdog : Watchdog) : 0 < watchdog.checkPeriod :=
  Nat.lt_of_lt_of_le (by decide) (floor_le_checkPeriod watchdog)

-- Everything a step can do.
theorem Watch.step_cases {watch next : Watch} {event : WatchEvent}
    (h : Watch.step watch event = some next) :
    watch.ended = none ∧
    ((∃ way count, event = .moved way count ∧ 0 < count ∧
        next = { watch with activity := watch.activity.record way count watch.elapsed }) ∨
      (∃ time, event = .elapse time ∧ watch.elapsed + time ≤ watch.nextTick ∧
        next = { watch with elapsed := watch.elapsed + time }) ∨
      (event = .tick ∧ watch.elapsed = watch.nextTick ∧
        next = { watch with
          clock := (watch.watchdog.tripped watch.clock watch.activity watch.elapsed).1
          ended := (watch.watchdog.tripped watch.clock watch.activity watch.elapsed).2
          nextTick := watch.nextTick + watch.watchdog.checkPeriod })) := by
  unfold Watch.step at h
  split at h
  · cases h
  rename_i hended
  refine ⟨by simpa using hended, ?_⟩
  cases event with
  | moved way count =>
      simp only at h
      split at h
      · cases h
      · exact Or.inl ⟨way, count, rfl, by omega, (Option.some.inj h).symm⟩
  | elapse time =>
      simp only at h
      split at h
      · rename_i hle
        exact Or.inr (Or.inl ⟨time, rfl, hle, (Option.some.inj h).symm⟩)
      · cases h
  | tick =>
      simp only at h
      split at h
      · rename_i heq
        exact Or.inr (Or.inr ⟨rfl, heq, (Option.some.inj h).symm⟩)
      · cases h

-- Only a tick ends the loop.
theorem Watch.going_on {watch next : Watch} {event : WatchEvent}
    (h : Watch.step watch event = some next) (he : event ≠ .tick) : next.ended = none := by
  obtain ⟨hnone, ⟨_, _, -, -, rfl⟩ | ⟨_, -, -, rfl⟩ | ⟨rfl, -⟩⟩ := Watch.step_cases h
  · exact hnone
  · exact hnone
  · exact absurd rfl he

end LwdMixnet
