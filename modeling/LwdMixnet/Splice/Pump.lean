import LwdMixnet.Io
import LwdMixnet.Machine.Basic

namespace LwdMixnet

def COPY_BUFFER : Nat := 8 * 1024

-- Where `pump` is suspended: in the read, in the `write_all` of what it read
-- with `rest` still to go, or in the flush after it.
inductive Pump
  | reading
  | writing (read : Nat) (rest : Bytes)
  | flushing (read : Nat)
  | returned (result : Except IoError Unit)
  deriving DecidableEq, Repr

def Pump.step : Machine Pump IoEvent := fun pump event =>
  match pump, event with
  | .returned _, _ => none
  | _, .failed error => some (.returned (.error error))
  | .reading, .read chunk =>
      if chunk = [] then some (.returned (.ok ()))
      else if chunk.length ≤ COPY_BUFFER then some (.writing chunk.length chunk)
      else none
  | .writing read rest, .wrote count =>
      match writeAll rest count with
      | some (.pending left) => some (.writing read left)
      | some .complete => some (.flushing read)
      | some (.failed error) => some (.returned (.error error))
      | none => none
  | .flushing _, .flushed => some .reading
  | _, _ => none

-- The count `record` is called with at the end of a turn of the loop.
def Pump.recorded (pump : Pump) (event : IoEvent) : Option Nat :=
  match pump, event with
  | .flushing read, .flushed => some read
  | _, _ => none

-- The bytes the writer takes at an event, and the ones read but not yet written.
def Pump.given (pump : Pump) (event : IoEvent) : Bytes :=
  match pump, event with
  | .writing _ rest, .wrote count => rest.take count
  | _, _ => []

def Pump.held : Pump → Bytes
  | .writing _ rest => rest
  | _ => []

def Pump.result : Pump → Option (Except IoError Unit)
  | .returned result => some result
  | _ => none

-- Everything a step can do.
theorem Pump.step_cases {pump next : Pump} {event : IoEvent} (h : pump.step event = some next) :
    (∃ error, event = .failed error ∧ next = .returned (.error error)) ∨
    (pump = .reading ∧ event = .read [] ∧ next = .returned (.ok ())) ∨
    (∃ chunk, pump = .reading ∧ event = .read chunk ∧ chunk ≠ [] ∧
      chunk.length ≤ COPY_BUFFER ∧ next = .writing chunk.length chunk) ∨
    (∃ read rest count, pump = .writing read rest ∧ event = .wrote count ∧
      ((∃ left, writeAll rest count = some (.pending left) ∧ next = .writing read left) ∨
        (writeAll rest count = some .complete ∧ next = .flushing read) ∨
        ∃ error, writeAll rest count = some (.failed error) ∧
          next = .returned (.error error))) ∨
    (∃ read, pump = .flushing read ∧ event = .flushed ∧ next = .reading) := by
  cases pump with
  | returned result => simp [Pump.step] at h
  | reading =>
      cases event with
      | failed error => exact Or.inl ⟨error, rfl, (Option.some.inj h).symm⟩
      | read chunk =>
          simp only [Pump.step] at h
          split_ifs at h with hempty hfits
          · subst hempty
            exact Or.inr (Or.inl ⟨rfl, rfl, (Option.some.inj h).symm⟩)
          · exact Or.inr (Or.inr (Or.inl
              ⟨chunk, rfl, rfl, hempty, hfits, (Option.some.inj h).symm⟩))
      | wrote _ | flushed => simp [Pump.step] at h
  | writing read rest =>
      cases event with
      | failed error => exact Or.inl ⟨error, rfl, (Option.some.inj h).symm⟩
      | wrote count =>
          refine Or.inr (Or.inr (Or.inr (Or.inl ⟨read, rest, count, rfl, rfl, ?_⟩)))
          simp only [Pump.step] at h
          cases hw : writeAll rest count with
          | none => simp [hw] at h
          | some result =>
              simp only [hw] at h
              cases result with
              | pending left => exact Or.inl ⟨left, rfl, (Option.some.inj h).symm⟩
              | complete => exact Or.inr (Or.inl ⟨rfl, (Option.some.inj h).symm⟩)
              | failed error => exact Or.inr (Or.inr ⟨error, rfl, (Option.some.inj h).symm⟩)
      | read _ | flushed => simp [Pump.step] at h
  | flushing read =>
      cases event with
      | failed error => exact Or.inl ⟨error, rfl, (Option.some.inj h).symm⟩
      | flushed =>
          exact Or.inr (Or.inr (Or.inr (Or.inr ⟨read, rfl, rfl, (Option.some.inj h).symm⟩)))
      | read _ | wrote _ => simp [Pump.step] at h

-- What went in comes out in order: the writer has taken all that was read but
-- for the bytes still held. A pump that failed drops those.
def Pump.Conserves (pump : Pump) (consumed accepted : Bytes) : Prop :=
  match pump with
  | .returned _ => accepted <+: consumed
  | pump => accepted ++ pump.held = consumed

theorem Pump.Conserves.aligned {pump : Pump} {consumed accepted : Bytes}
    (h : pump.Conserves consumed accepted) : accepted <+: consumed := by
  cases pump with
  | returned result => exact h
  | reading | writing _ _ | flushing _ => exact ⟨_, h⟩

theorem Pump.Conserves.step {pump next : Pump} {event : IoEvent} {consumed accepted : Bytes}
    (h : pump.Conserves consumed accepted) (hs : pump.step event = some next) :
    next.Conserves (consumed ++ event.taken) (accepted ++ pump.given event) := by
  obtain ⟨error, rfl, rfl⟩ | ⟨rfl, rfl, rfl⟩ | ⟨chunk, rfl, rfl, -, -, rfl⟩ |
    ⟨read, rest, count, rfl, rfl, hw⟩ | ⟨read, rfl, rfl, rfl⟩ := Pump.step_cases hs
  · have hnothing : pump.given (.failed error) = [] := by cases pump <;> rfl
    simp only [hnothing, IoEvent.taken, List.append_nil]
    exact h.aligned
  · simp only [IoEvent.taken, Pump.given, List.append_nil]
    exact h.aligned
  · have hall : accepted = consumed := by simpa [Pump.Conserves, Pump.held] using h
    simp [Pump.Conserves, Pump.held, Pump.given, IoEvent.taken, hall]
  · have hall : accepted ++ rest = consumed := h
    simp only [IoEvent.taken, List.append_nil, Pump.given]
    obtain ⟨left, hw, rfl⟩ | ⟨hw, rfl⟩ | ⟨error, hw, rfl⟩ := hw
    · change accepted ++ rest.take count ++ left = consumed
      rw [List.append_assoc, (writeAll_pending hw).1, hall]
    · change accepted ++ rest.take count ++ [] = consumed
      rw [List.append_nil, writeAll_complete hw, hall]
    · change accepted ++ rest.take count <+: consumed
      rw [writeAll_failed hw, List.append_nil]
      exact ⟨rest, hall⟩
  · simpa [Pump.Conserves, Pump.held, Pump.given, IoEvent.taken] using h

end LwdMixnet
