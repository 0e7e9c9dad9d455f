import LwdMixnet.Streaks
import Mathlib.Order.Basic

namespace LwdMixnet

inductive State
  | Starting
  | Registered
  | Serving
  deriving Repr

namespace State

def asStr : State → String
  | .Starting => "starting"
  | .Registered => "registered"
  | .Serving => "serving"

def isReady : State → Bool
  | .Serving => true
  | _ => false

-- The discriminant, which `fetch_max` compares.
def code : State → Nat
  | .Starting => 0
  | .Registered => 1
  | .Serving => 2

def fromCode : Nat → State
  | 1 => .Registered
  | 2 => .Serving
  | _ => .Starting

@[simp] theorem fromCode_code (state : State) : fromCode state.code = state := by
  cases state <;> rfl

theorem code_injective : Function.Injective code :=
  Function.LeftInverse.injective fromCode_code

instance : LinearOrder State :=
  .lift' code code_injective

@[simp] theorem Starting_le (state : State) : .Starting ≤ state :=
  Nat.zero_le state.code

@[simp] theorem le_Serving (state : State) : state ≤ .Serving := by
  cases state <;> decide

theorem code_max (first second : State) : (max first second).code = max first.code second.code := by
  cases first <;> cases second <;> rfl

end State

-- What a half reports of itself: the flag, which moves both ways, and the code
-- of the state it has come to.
structure HealthReport extends Health where
  code : Nat := 0

namespace HealthReport

def state (report : HealthReport) : State := .fromCode report.code

def advanceTo (report : HealthReport) (state : State) : HealthReport :=
  { report with code := max report.code state.code }

def setDegraded (report : HealthReport) (degraded : Bool) : HealthReport :=
  { report with toHealth := report.toHealth.setDegraded degraded }

-- The code is one of a state's.
def Holds (report : HealthReport) (state : State) : Prop :=
  report.code = state.code

theorem Holds.state {report : HealthReport} {held : State} (h : report.Holds held) :
    report.state = held := by
  rw [HealthReport.state, show report.code = held.code from h, State.fromCode_code]

theorem Holds.advanceTo {report : HealthReport} {held : State} (h : report.Holds held)
    (state : State) : (report.advanceTo state).Holds (max held state) := by
  unfold Holds at h ⊢
  rw [State.code_max, ← h]
  rfl

end HealthReport

-- The body of the health endpoint, of the state and the flag it has read.
def asJson (state : State) (degraded : Bool) : String :=
  if degraded then "\x7b\"state\":\"" ++ state.asStr ++ "\",\"degraded\":true\x7d\n"
  else "\x7b\"state\":\"" ++ state.asStr ++ "\"\x7d\n"

def HealthReport.asJson (report : HealthReport) : String :=
  LwdMixnet.asJson report.state report.isDegraded

theorem asJson_injective {first second : State} {degraded flagged : Bool}
    (h : asJson first degraded = asJson second flagged) :
    first = second ∧ degraded = flagged := by
  cases first <;> cases second <;> cases degraded <;> cases flagged <;>
    first | exact ⟨rfl, rfl⟩ | exact absurd h (by decide)

end LwdMixnet
