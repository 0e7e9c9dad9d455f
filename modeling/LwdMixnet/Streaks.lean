import LwdMixnet.Metrics

namespace LwdMixnet

def REFUSAL_LIMIT : Nat := 5

def DEAD_END_LIMIT : Nat := 3

inductive Outcome
  | Answered
  | Unprobed
  | NothingOpened
  | NothingAnswered
  deriving DecidableEq, Repr

structure Counts where
  refusals : Nat := 0
  deadEnds : Nat := 0
  deriving DecidableEq, Repr

def Counts.fold (counts : Counts) : Outcome → Counts
  | .Answered => { refusals := 0, deadEnds := 0 }
  | .Unprobed => { counts with refusals := 0 }
  | .NothingOpened => { refusals := counts.refusals + 1, deadEnds := counts.deadEnds + 1 }
  | .NothingAnswered => { refusals := 0, deadEnds := counts.deadEnds + 1 }

structure Health where
  degraded : Bool := false
  deriving DecidableEq, Repr

def Health.setDegraded (_ : Health) (degraded : Bool) : Health where
  degraded := degraded

def Health.isDegraded (health : Health) : Bool := health.degraded

-- A `Notify` with one future created from it. The future is `initial` until its
-- first poll, and a permit is stored where a call finds no future waiting.
inductive Notified
  | initial
  | waiting
  | called
  | done
  deriving DecidableEq, Repr

structure Notify where
  permit : Bool := false
  notified : Notified := .initial
  deriving DecidableEq, Repr

def Notify.notifyOne (notify : Notify) : Notify :=
  match notify.notified with
  | .waiting => { notify with notified := .called }
  | _ => { notify with permit := true }

-- Polls the future, and says whether it is ready.
def Notify.poll (notify : Notify) : Option (Notify × Bool) :=
  match notify.notified with
  | .initial =>
      if notify.permit then some ({ permit := false, notified := .done }, true)
      else some ({ notify with notified := .waiting }, false)
  | .waiting => some (notify, false)
  | .called => some ({ notify with notified := .done }, true)
  | .done => none

structure Streaks where
  counts : Counts := {}
  health : Health := {}
  metrics : ClientMetrics := {}
  clientIsDead : Notify := {}

-- The four updates that `fold` makes under the lock, in its order.
namespace Streaks

def count (streaks : Streaks) (outcome : Outcome) : Streaks :=
  { streaks with counts := streaks.counts.fold outcome }

def gauge (streaks : Streaks) : Streaks :=
  { streaks with metrics := streaks.metrics.setFailedInARow streaks.counts.deadEnds }

def flag (streaks : Streaks) : Streaks :=
  let degraded : Bool := DEAD_END_LIMIT ≤ streaks.counts.deadEnds
  if degraded ≠ streaks.health.isDegraded then
    { streaks with health := streaks.health.setDegraded degraded }
  else streaks

def signals (streaks : Streaks) : Bool := REFUSAL_LIMIT ≤ streaks.counts.refusals

def signal (streaks : Streaks) : Streaks :=
  if streaks.signals then { streaks with clientIsDead := streaks.clientIsDead.notifyOne }
  else streaks

def fold (streaks : Streaks) (outcome : Outcome) : Streaks :=
  (((streaks.count outcome).gauge).flag).signal

end Streaks

def Outcome.isDeadEnd (outcome : Outcome) : Bool :=
  outcome = .NothingOpened || outcome = .NothingAnswered

-- What the report is about, read off the outcomes alone, oldest first.
def deadEndRun (outcomes : List Outcome) : Nat :=
  (outcomes.reverse.takeWhile fun outcome => outcome ≠ .Answered).countP Outcome.isDeadEnd

def refusalRun (outcomes : List Outcome) : Nat :=
  (outcomes.reverse.takeWhile fun outcome => outcome = .NothingOpened).length

def Counts.Reports (outcomes : List Outcome) (counts : Counts) : Prop :=
  counts.refusals = refusalRun outcomes ∧ counts.deadEnds = deadEndRun outcomes

theorem Counts.Reports.fold {outcomes : List Outcome} {counts : Counts}
    (h : counts.Reports outcomes) (outcome : Outcome) :
    (counts.fold outcome).Reports (outcomes ++ [outcome]) := by
  obtain ⟨hr, hd⟩ := h
  cases outcome <;>
    simp [Counts.Reports, Counts.fold, refusalRun, deadEndRun, Outcome.isDeadEnd, hr, hd]

theorem refusalRun_le_deadEndRun (outcomes : List Outcome) :
    refusalRun outcomes ≤ deadEndRun outcomes := by
  induction outcomes using List.reverseRecOn with
  | nil => exact Nat.le_refl _
  | append_singleton outcomes outcome ih =>
      cases outcome <;> simp_all [refusalRun, deadEndRun, Outcome.isDeadEnd]

end LwdMixnet
