import LwdMixnet.Dial
import LwdMixnet.Duration
import Mathlib.Algebra.Order.Ring.Rat

namespace LwdMixnet

-- Consecutive trials that open nothing before the run is abandoned.
def REFUSAL_STREAK_LIMIT : Nat := 5

-- What the command line gives: a list that is given has a value at least.
structure Arguments where
  trials : Nat := 300
  attempts : Nat := 6
  concurrency : List Nat := [1, 3]
  gapSecs : Option (List Nat) := none
  probeTimeoutSecs : Nat := 10
  attempts_pos : 0 < attempts
  concurrency_pos : ∀ size ∈ concurrency, 0 < size
  concurrency_given : concurrency ≠ []
  gaps_given : ∀ gaps ∈ gapSecs, gaps ≠ []

structure Arm where
  concurrency : Nat
  gapSecs : Option Nat
  deriving DecidableEq, Repr

def Arguments.gaps (arguments : Arguments) : List (Option Nat) :=
  match arguments.gapSecs with
  | some gaps => gaps.map some
  | none => [none]

def arms (arguments : Arguments) : List Arm :=
  arguments.concurrency.flatMap fun concurrency =>
    arguments.gaps.map fun gap => { concurrency, gapSecs := gap }

structure Trial where
  arm : Arm
  rounds : List Round
  total : Nat
  answeringRound : Option Nat
  deriving DecidableEq, Repr

def Trial.answered (trial : Trial) : Bool :=
  trial.answeringRound.isSome

def Trial.firstRoundFailed (trial : Trial) : Bool :=
  trial.rounds.head?.any fun round => !round.answered

def Trial.opened (trial : Trial) : Nat :=
  (trial.rounds.map Round.opened).sum

def Trial.refusedOpens (trial : Trial) : Nat :=
  (trial.rounds.map Round.attempted).sum - trial.opened

def Trial.cancelled (trial : Trial) : Nat :=
  (trial.rounds.map Round.cancelled).sum

-- A size of zero cannot be given, and would be one.
def Arguments.settings (arguments : Arguments) (arm : Arm) : DialSettings where
  probe := some {
    timeout := fromSecs arguments.probeTimeoutSecs
    attempts := arguments.attempts
    concurrency := max arm.concurrency 1
    attempts_pos := arguments.attempts_pos
    concurrency_pos := Nat.le_max_right _ _ }

-- `run_trial`, once its dial has returned.
def runTrial (arm : Arm) (dial : Dial) : Option Trial :=
  match dial.phase with
  | .returned (.ok dialled) => some {
      arm, rounds := dialled.rounds, total := dial.elapsed
      answeringRound := some dialled.answeringRound }
  | .returned (.error gaveUp) => some {
      arm, rounds := gaveUp.rounds, total := dial.elapsed, answeringRound := none }
  | _ => none

-- The loop over the trials. An event is everything that happens to the dial of one
-- trial, from its start to its return.
structure Bench where
  trials : List Trial := []
  refusingStreak : Nat := 0
  stopped : Bool := false
  deriving DecidableEq, Repr

def Bench.record (bench : Bench) (trial : Trial) : Bench :=
  let refusingStreak := if trial.opened = 0 then bench.refusingStreak + 1 else 0
  { trials := bench.trials ++ [trial]
    refusingStreak
    stopped := REFUSAL_STREAK_LIMIT ≤ refusingStreak }

def Bench.step (arguments : Arguments) : Machine Bench (List DialEvent) := fun bench events =>
  if bench.stopped ∨ arguments.trials ≤ bench.trials.length then none
  else do
    let number := bench.trials.length + 1
    let arm ← (arms arguments)[(number - 1) % (arms arguments).length]?
    let dial ← (Dial.step (arguments.settings arm)).run (.start (arguments.settings arm)) events
    let trial ← runTrial arm dial
    some (bench.record trial)

def grouped (arguments : Arguments) (trials : List Trial) : List (Arm × List Trial) :=
  (arms arguments).map fun arm => (arm, trials.filter fun trial => trial.arm = arm)

-- Rates are exact here.
def ratio (part whole : Nat) : ℚ := (part : ℚ) / (max whole 1 : Nat)

def reached (arm : List Trial) (index : Nat) : Nat :=
  arm.countP fun trial => index < trial.rounds.length

def failed (arm : List Trial) (index : Nat) : Nat :=
  (arm.filterMap fun trial => trial.rounds[index]?).countP fun round => !round.answered

-- A row of the table over the rounds.
structure RoundRate where
  round : Nat
  reached : Nat
  failed : Nat
  rate : ℚ
  deriving DecidableEq, Repr

def deepest (arm : List Trial) : Nat :=
  ((arm.map fun trial => trial.rounds.length).max?).getD 0

def conditionalRates (arm : List Trial) : List RoundRate :=
  if deepest arm < 2 then []
  else (List.range (deepest arm)).map fun index => {
    round := index + 1
    reached := reached arm index
    failed := failed arm index
    rate := ratio (failed arm index) (reached arm index) }

-- How much less often a wallet fails than a first round does.
inductive Reduction
  | factor (times : ℚ)
  | above (total : Nat)
  | unknown
  deriving DecidableEq, Repr

structure ArmReport where
  arm : Arm
  total : Nat
  firstRoundFailures : Nat
  visibleFailures : Nat
  opened : Nat
  cancelled : Nat
  firstRoundRate : ℚ
  visibleRate : ℚ
  reduction : Reduction
  unmeasured : Bool
  rates : List RoundRate
  deriving DecidableEq, Repr

def reduction (total firstRoundFailures : Nat) (firstRoundRate visibleRate : ℚ) : Reduction :=
  if 0 < visibleRate then .factor (firstRoundRate / visibleRate)
  else if 0 < firstRoundFailures then .above total
  else .unknown

def armReport (arm : Arm) (group : List Trial) : ArmReport :=
  let total := group.length
  let firstRoundFailures := group.countP Trial.firstRoundFailed
  let visibleFailures := group.countP fun trial => !trial.answered
  let firstRoundRate := ratio firstRoundFailures total
  let visibleRate := ratio visibleFailures total
  { arm
    total
    firstRoundFailures
    visibleFailures
    opened := (group.map Trial.opened).sum
    cancelled := (group.map Trial.cancelled).sum
    firstRoundRate
    visibleRate
    reduction := reduction total firstRoundFailures firstRoundRate visibleRate
    unmeasured := firstRoundFailures * 10 < total
    rates := conditionalRates group }

def reportArm (arm : Arm) (group : List Trial) : Option ArmReport :=
  if group.length = 0 then none else some (armReport arm group)

-- What `report` prints: the opens that were refused, which make the run invalid, and
-- its arms.
structure Report where
  refused : Nat
  arms : List ArmReport
  deriving DecidableEq, Repr

def report (arguments : Arguments) (trials : List Trial) : Report where
  refused := (trials.map Trial.refusedOpens).sum
  arms := (grouped arguments trials).filterMap fun entry => reportArm entry.1 entry.2

section

variable {arguments : Arguments} {bench next : Bench} {events : List DialEvent}

-- A trial as `dial` produced it.
def Trial.Ran (settings : DialSettings) (trial : Trial) : Prop :=
  ∃ events dial, (Dial.step settings).run (.start settings) events = some dial ∧
    runTrial trial.arm dial = some trial

theorem runTrial_arm {arm : Arm} {dial : Dial} {trial : Trial}
    (h : runTrial arm dial = some trial) : trial.arm = arm := by
  unfold runTrial at h
  split at h
  · cases h
    rfl
  · cases h
    rfl
  · cases h

theorem reportArm_some {arm : Arm} {group : List Trial} {printed : ArmReport}
    (h : reportArm arm group = some printed) : group ≠ [] ∧ printed = armReport arm group := by
  unfold reportArm at h
  split_ifs at h with hempty
  exact ⟨mt List.length_eq_zero_iff.mpr hempty, (Option.some.inj h).symm⟩

-- What one pass of the loop does.
theorem Bench.step_cases (hs : bench.step arguments events = some next) :
    bench.stopped = false ∧ bench.trials.length < arguments.trials ∧
    ∃ trial, next = bench.record trial ∧
      (arms arguments)[bench.trials.length % (arms arguments).length]? = some trial.arm ∧
      trial.Ran (arguments.settings trial.arm) := by
  unfold Bench.step at hs
  split_ifs at hs with hends
  rw [not_or, Bool.not_eq_true, Nat.not_le] at hends
  obtain ⟨arm, harm, hran⟩ := Option.bind_eq_some_iff.mp hs
  obtain ⟨dial, hdial, hreturned⟩ := Option.bind_eq_some_iff.mp hran
  obtain ⟨trial, htrial, hrecord⟩ := Option.bind_eq_some_iff.mp hreturned
  obtain rfl := Option.some.inj hrecord
  obtain rfl := runTrial_arm htrial
  exact ⟨hends.1, hends.2, trial, rfl, harm, events, dial, hdial, htrial⟩

end

end LwdMixnet
