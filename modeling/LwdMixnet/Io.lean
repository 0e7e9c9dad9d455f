import Mathlib.Data.List.Basic

namespace LwdMixnet

abbrev Bytes := List UInt8

-- Streams are numbered in the order they are opened.
abbrev StreamId := Nat

-- An `io::Error`: the two kinds tokio's own helpers raise, and whatever a
-- transport reports of itself.
inductive IoError
  | UnexpectedEof
  | WriteZero
  | Other (code : Nat)
  deriving DecidableEq, Repr

-- What the read, write or flush a task is suspended in resolves to. An empty
-- chunk is end of file, and a count of zero a writer that takes nothing more.
inductive IoEvent
  | read (chunk : Bytes)
  | wrote (count : Nat)
  | flushed
  | failed (error : IoError)
  deriving DecidableEq, Repr

def IoEvent.taken : IoEvent → Bytes
  | .read chunk => chunk
  | _ => []

-- How `write_all` goes on once the writer took `count` bytes of `rest`.
inductive WriteAll
  | pending (rest : Bytes)
  | complete
  | failed (error : IoError)
  deriving DecidableEq, Repr

def writeAll (rest : Bytes) (count : Nat) : Option WriteAll :=
  if count = 0 then some (.failed .WriteZero)
  else if count < rest.length then some (.pending (rest.drop count))
  else if count = rest.length then some .complete
  else none

-- How `read_exact` over a buffer of `size` goes on once `chunk` follows `got`.
inductive ReadExact
  | pending (got : Bytes)
  | complete (bytes : Bytes)
  | failed (error : IoError)
  deriving DecidableEq, Repr

def readExact (size : Nat) (got chunk : Bytes) : Option ReadExact :=
  if chunk = [] then some (.failed .UnexpectedEof)
  else if (got ++ chunk).length < size then some (.pending (got ++ chunk))
  else if (got ++ chunk).length = size then some (.complete (got ++ chunk))
  else none

theorem writeAll_pending {rest left : Bytes} {count : Nat}
    (h : writeAll rest count = some (.pending left)) :
    rest.take count ++ left = rest ∧ left ≠ [] := by
  unfold writeAll at h
  split_ifs at h with hz hlt heq <;> cases h
  refine ⟨List.take_append_drop count rest, ?_⟩
  intro he
  have := List.drop_eq_nil_iff.mp he
  omega

theorem writeAll_complete {rest : Bytes} {count : Nat}
    (h : writeAll rest count = some .complete) : rest.take count = rest := by
  unfold writeAll at h
  split_ifs at h with hz hlt heq <;> cases h
  rw [heq, List.take_length]

theorem writeAll_failed {rest : Bytes} {count : Nat} {error : IoError}
    (h : writeAll rest count = some (.failed error)) : rest.take count = [] := by
  unfold writeAll at h
  split_ifs at h with hz hlt heq <;> cases h
  simp [hz]

theorem writeAll_length {rest : Bytes} (hne : rest ≠ []) :
    writeAll rest rest.length = some .complete := by
  have hpos : rest.length ≠ 0 := mt List.length_eq_zero_iff.mp hne
  unfold writeAll
  rw [if_neg hpos, if_neg (Nat.lt_irrefl _), if_pos rfl]

theorem readExact_pending {size : Nat} {got chunk left : Bytes}
    (h : readExact size got chunk = some (.pending left)) :
    left = got ++ chunk ∧ left.length < size := by
  unfold readExact at h
  split_ifs at h with hz hlt heq <;> cases h
  exact ⟨rfl, hlt⟩

theorem readExact_complete {size : Nat} {got chunk bytes : Bytes}
    (h : readExact size got chunk = some (.complete bytes)) :
    bytes = got ++ chunk ∧ bytes.length = size := by
  unfold readExact at h
  split_ifs at h with hz hlt heq <;> cases h
  exact ⟨rfl, heq⟩

theorem readExact_failed {size : Nat} {got chunk : Bytes} {error : IoError}
    (h : readExact size got chunk = some (.failed error)) : chunk = [] := by
  unfold readExact at h
  split_ifs at h with hz hlt heq <;> cases h
  exact hz

-- A chunk that fits is read.
theorem readExact_fits {size : Nat} {got chunk : Bytes} (hne : chunk ≠ [])
    (hfits : (got ++ chunk).length ≤ size) : ∃ result, readExact size got chunk = some result := by
  unfold readExact
  rw [if_neg hne]
  obtain hlt | heq := Nat.lt_or_eq_of_le hfits
  · exact ⟨_, if_pos hlt⟩
  · rw [if_neg (Nat.not_lt.mpr (Nat.le_of_eq heq.symm)), if_pos heq]
    exact ⟨_, rfl⟩

-- What a reader takes comes off the front of what is in flight.
theorem take_drop_of_aligned {taken buffer : Bytes} (h : taken <+: buffer) :
    taken ++ buffer.drop taken.length = buffer :=
  List.prefix_iff_eq_append.mp h

-- One end of a byte stream as its owner has used it so far.
@[ext]
structure Duplex where
  consumed : Bytes := []
  accepted : Bytes := []
  deriving DecidableEq, Repr

def Duplex.move (duplex : Duplex) (taken given : Bytes) : Duplex where
  consumed := duplex.consumed ++ taken
  accepted := duplex.accepted ++ given

@[simp] theorem Duplex.move_consumed (duplex : Duplex) (taken given : Bytes) :
    (duplex.move taken given).consumed = duplex.consumed ++ taken := rfl

@[simp] theorem Duplex.move_accepted (duplex : Duplex) (taken given : Bytes) :
    (duplex.move taken given).accepted = duplex.accepted ++ given := rfl

-- A stream as its later owner sees it, and as it was used altogether.
def Duplex.after (duplex before : Duplex) : Duplex :=
  before.move duplex.consumed duplex.accepted

theorem Duplex.move_after (duplex before : Duplex) (taken given : Bytes) :
    (duplex.after before).move taken given = (duplex.move taken given).after before := by
  simp [Duplex.after, Duplex.move]

end LwdMixnet
