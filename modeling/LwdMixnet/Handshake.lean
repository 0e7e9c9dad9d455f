import LwdMixnet.Io
import LwdMixnet.Machine.Basic
import Mathlib.Algebra.GroupWithZero.Nat

namespace LwdMixnet

-- "LWMP"
def MAGIC : Bytes := [0x4c, 0x57, 0x4d, 0x50]

def VERSION : UInt8 := 1

def FLAG_ECHO : UInt8 := 0b00000001

def HEADER_LEN : Nat := 14

structure Header where
  echoRequested : Bool
  token : UInt64
  deriving DecidableEq, Repr

inductive HandshakeError
  | TimedOut (timeout : Nat)
  | Read (error : IoError)
  | Write (error : IoError)
  | ForeignStream
  | UnsupportedVersion (version : UInt8)
  | TokenMismatch (sent returned : UInt64)
  deriving DecidableEq, Repr

-- `NEXT_TOKEN` starts at one and wraps around.
def FIRST_TOKEN : UInt64 := 1

def Header.next (NEXT_TOKEN : UInt64) (echoRequested : Bool) : Header × UInt64 :=
  (⟨echoRequested, NEXT_TOKEN⟩, NEXT_TOKEN + 1)

def toBeBytes (token : UInt64) : Bytes :=
  [7, 6, 5, 4, 3, 2, 1, 0].map fun place => UInt8.ofNat (token.toNat / 256 ^ place)

def fromBeBytes (bytes : Bytes) : UInt64 :=
  UInt64.ofNat (bytes.foldl (fun token byte => token * 256 + byte.toNat) 0)

def Header.encode (header : Header) : Bytes :=
  MAGIC ++ [VERSION, if header.echoRequested then FLAG_ECHO else 0] ++ toBeBytes header.token

def Header.decode (bytes : Bytes) : Except HandshakeError Header :=
  if bytes.take 4 ≠ MAGIC then .error .ForeignStream
  else if bytes.getD 4 0 ≠ VERSION then .error (.UnsupportedVersion (bytes.getD 4 0))
  else .ok {
    echoRequested := bytes.getD 5 0 &&& FLAG_ECHO ≠ 0
    token := fromBeBytes ((bytes.drop 6).take 8) }

-- `write_header`: the write of a header and the flush after it.
inductive WriteHeader
  | writing (rest : Bytes)
  | flushing
  | returned (result : Except HandshakeError Unit)
  deriving DecidableEq, Repr

def WriteHeader.start (header : Header) : WriteHeader := .writing header.encode

def WriteHeader.step : Machine WriteHeader IoEvent := fun write event =>
  match write, event with
  | .returned _, _ => none
  | _, .failed error => some (.returned (.error (.Write error)))
  | .writing rest, .wrote count =>
      match writeAll rest count with
      | some (.pending left) => some (.writing left)
      | some .complete => some .flushing
      | some (.failed error) => some (.returned (.error (.Write error)))
      | none => none
  | .flushing, .flushed => some (.returned (.ok ()))
  | _, _ => none

def WriteHeader.given (write : WriteHeader) (event : IoEvent) : Bytes :=
  match write, event with
  | .writing rest, .wrote count => rest.take count
  | _, _ => []

-- `read_header`: the exact read of a header, and what it decodes to.
inductive ReadHeader
  | reading (got : Bytes)
  | returned (result : Except HandshakeError Header)
  deriving DecidableEq, Repr

def ReadHeader.start : ReadHeader := .reading []

def ReadHeader.step : Machine ReadHeader IoEvent := fun read event =>
  match read, event with
  | .reading got, .read chunk =>
      match readExact HEADER_LEN got chunk with
      | some (.pending left) => some (.reading left)
      | some (.complete bytes) => some (.returned (Header.decode bytes))
      | some (.failed error) => some (.returned (.error (.Read error)))
      | none => none
  | .reading _, .failed error => some (.returned (.error (.Read error)))
  | _, _ => none

-- What a handshake waits for resolves to an `io` event, or its timeout expires.
inductive WaitEvent
  | io (event : IoEvent)
  | expired
  deriving DecidableEq, Repr

-- `probe` from the draw of its token on. The timeout is over the read alone.
inductive Probe
  | sending (started : Nat) (sent : Header) (write : WriteHeader)
  | awaiting (started : Nat) (sent : Header) (deadline : Nat) (read : ReadHeader)
  | returned (result : Except HandshakeError Nat)
  deriving DecidableEq, Repr

def Probe.start (now : Nat) (sent : Header) : Probe :=
  .sending now sent (.start sent)

def Probe.verdict (started now : Nat) (sent : Header) :
    Except HandshakeError Header → Except HandshakeError Nat
  | .error error => .error error
  | .ok echoed =>
      if echoed.token ≠ sent.token then .error (.TokenMismatch sent.token echoed.token)
      else .ok (now - started)

def Probe.step (timeout now : Nat) : Machine Probe WaitEvent := fun probe event =>
  match probe, event with
  | .sending started sent write, .io event =>
      match write.step event with
      | some (.returned (.ok ())) => some (.awaiting started sent (now + timeout) .start)
      | some (.returned (.error error)) => some (.returned (.error error))
      | some write => some (.sending started sent write)
      | none => none
  | .awaiting started sent deadline read, .io event =>
      match read.step event with
      | some (.returned result) => some (.returned (Probe.verdict started now sent result))
      | some read => some (.awaiting started sent deadline read)
      | none => none
  | .awaiting _ _ deadline _, .expired =>
      if deadline ≤ now then some (.returned (.error (.TimedOut timeout))) else none
  | _, _ => none

def Probe.given (probe : Probe) (event : WaitEvent) : Bytes :=
  match probe, event with
  | .sending _ _ write, .io event => write.given event
  | _, _ => []

def WaitEvent.taken : WaitEvent → Bytes
  | .io event => event.taken
  | .expired => []

-- `accept`, whose timeout is over the read alone as well.
inductive Accept
  | reading (deadline : Nat) (read : ReadHeader)
  | echoing (header : Header) (write : WriteHeader)
  | returned (result : Except HandshakeError Header)
  deriving DecidableEq, Repr

def Accept.start (now timeout : Nat) : Accept := .reading (now + timeout) .start

def Accept.step (timeout now : Nat) : Machine Accept WaitEvent := fun accept event =>
  match accept, event with
  | .reading deadline read, .io event =>
      match read.step event with
      | some (.returned (.ok header)) =>
          if header.echoRequested then some (.echoing header (.start header))
          else some (.returned (.ok header))
      | some (.returned (.error error)) => some (.returned (.error error))
      | some read => some (.reading deadline read)
      | none => none
  | .reading deadline _, .expired =>
      if deadline ≤ now then some (.returned (.error (.TimedOut timeout))) else none
  | .echoing header write, .io event =>
      match write.step event with
      | some (.returned (.ok ())) => some (.returned (.ok header))
      | some (.returned (.error error)) => some (.returned (.error error))
      | some write => some (.echoing header write)
      | none => none
  | _, _ => none

def Accept.given (accept : Accept) (event : WaitEvent) : Bytes :=
  match accept, event with
  | .echoing _ write, .io event => write.given event
  | _, _ => []

theorem fromBeBytes_toBeBytes (token : UInt64) : fromBeBytes (toBeBytes token) = token := by
  have hlt := token.toNat_lt
  have htop : token.toNat / 256 ^ 7 % 2 ^ 8 = token.toNat / 256 ^ 7 :=
    Nat.mod_eq_of_lt (by omega)
  -- each byte refines what the bytes before it have fixed
  have hplace (place : Nat) : token.toNat / 256 ^ (place + 1) * 256 +
      token.toNat / 256 ^ place % 2 ^ 8 = token.toNat / 256 ^ place := by
    rw [Nat.pow_succ, ← Nat.div_div_eq_div_mul]
    exact Nat.div_add_mod' _ _
  apply UInt64.toNat.inj
  simp only [fromBeBytes, toBeBytes, List.map_cons, List.map_nil, List.foldl_cons,
    List.foldl_nil, UInt8.toNat_ofNat', UInt64.toNat_ofNat']
  rw [Nat.zero_mul, Nat.zero_add, htop, hplace 6, hplace 5, hplace 4, hplace 3, hplace 2,
    hplace 1, hplace 0, Nat.pow_zero, Nat.div_one]
  exact Nat.mod_eq_of_lt hlt

theorem encode_length (header : Header) : header.encode.length = HEADER_LEN := by
  simp [Header.encode, toBeBytes, MAGIC, HEADER_LEN]

-- The codec loses nothing.
theorem decode_encode (header : Header) : Header.decode header.encode = .ok header := by
  obtain ⟨echo, token⟩ := header
  have hmagic : (Header.encode ⟨echo, token⟩).take 4 = MAGIC := rfl
  have hversion : (Header.encode ⟨echo, token⟩).getD 4 0 = VERSION := rfl
  have hflags : (Header.encode ⟨echo, token⟩).getD 5 0 = if echo then FLAG_ECHO else 0 := rfl
  have htoken : ((Header.encode ⟨echo, token⟩).drop 6).take 8 = toBeBytes token := rfl
  unfold Header.decode
  rw [hmagic, hversion, hflags, htoken, fromBeBytes_toBeBytes]
  cases echo <;> rfl

theorem encode_inj {first second : Header} :
    first.encode = second.encode ↔ first = second := by
  refine ⟨fun h => ?_, fun h => h ▸ rfl⟩
  have hdecode := decode_encode first
  rw [h, decode_encode] at hdecode
  exact (Except.ok.inj hdecode).symm

theorem decode_ok {bytes : Bytes} {header : Header} (h : Header.decode bytes = .ok header) :
    bytes.take 4 = MAGIC ∧ bytes.getD 4 0 = VERSION ∧
      (header.echoRequested ↔ bytes.getD 5 0 &&& FLAG_ECHO ≠ 0) := by
  unfold Header.decode at h
  split_ifs at h with hmagic hversion
  cases h
  exact ⟨not_not.mp hmagic, not_not.mp hversion, decide_eq_true_iff⟩

end LwdMixnet
