import LwdMixnet.Handshake.Agreement
import Mathlib.Data.Nat.Digits.Defs

namespace LwdMixnet

-- A header as it came, without the flag bits that no version uses yet.
def reservedCleared (bytes : Bytes) : Bytes :=
  bytes.modify 5 (· &&& FLAG_ECHO)

-- A big-endian numeral is read from its last digit by Mathlib.
theorem foldl_eq_ofDigits (base : Nat) (digits : List Nat) :
    digits.foldl (fun number digit => number * base + digit) 0 =
      Nat.ofDigits base digits.reverse := by
  rw [Nat.ofDigits_eq_foldr, List.foldr_reverse]
  simp only [Nat.cast_id, Nat.mul_comm base, Nat.add_comm]

theorem toNat_lt_base {bytes : Bytes} : ∀ digit ∈ (bytes.map UInt8.toNat).reverse, digit < 256 := by
  intro digit hdigit
  obtain ⟨byte, -, rfl⟩ := List.mem_map.mp (List.mem_reverse.mp hdigit)
  exact byte.toNat_lt

theorem fromBeBytes_toNat {bytes : Bytes} (hlen : bytes.length = 8) :
    (fromBeBytes bytes).toNat = Nat.ofDigits 256 (bytes.map UInt8.toNat).reverse := by
  have hlt := Nat.ofDigits_lt_base_pow_length (by decide : 1 < 256) (@toNat_lt_base bytes)
  rw [List.length_reverse, List.length_map, hlen] at hlt
  rw [fromBeBytes, ← List.foldl_map, foldl_eq_ofDigits, UInt64.toNat_ofNat']
  exact Nat.mod_eq_of_lt hlt

-- Eight bytes fit a token, so no two of them make the same one.
theorem fromBeBytes_inj {first second : Bytes} (hfirst : first.length = 8)
    (hsecond : second.length = 8) (h : fromBeBytes first = fromBeBytes second) :
    first = second := by
  have hdigits : (first.map UInt8.toNat).reverse = (second.map UInt8.toNat).reverse := by
    apply Nat.ofDigits_inj_of_len_eq (by decide : 1 < 256)
    · rw [List.length_reverse, List.length_reverse, List.length_map, List.length_map, hfirst,
        hsecond]
    · exact toNat_lt_base
    · exact toNat_lt_base
    · rw [← fromBeBytes_toNat hfirst, h, fromBeBytes_toNat hsecond]
  exact (List.map_inj_right fun _ _ => UInt8.toNat.inj).mp (List.reverse_injective hdigits)

theorem toBeBytes_fromBeBytes {bytes : Bytes} (hlen : bytes.length = 8) :
    toBeBytes (fromBeBytes bytes) = bytes :=
  fromBeBytes_inj rfl hlen (fromBeBytes_toBeBytes _)

-- A header field by field.
theorem header_fields {bytes : Bytes} (hlen : bytes.length = HEADER_LEN) :
    ∃ magic version flags token, bytes = magic ++ version :: flags :: token ∧
      magic.length = 4 ∧ token.length = 8 := by
  have hmagic : (bytes.take 4).length = 4 := by
    rw [List.length_take, hlen]
    rfl
  have hrest : (bytes.drop 4).length = 10 := by
    rw [List.length_drop, hlen]
    rfl
  obtain ⟨version, after, hafter⟩ := List.exists_cons_of_length_eq_add_one hrest
  rw [hafter, List.length_cons, Nat.add_right_cancel_iff] at hrest
  obtain ⟨flags, token, rfl⟩ := List.exists_cons_of_length_eq_add_one hrest
  refine ⟨_, version, flags, token, ?_, hmagic, Nat.add_right_cancel hrest⟩
  rw [← hafter, List.take_append_drop]

section

variable {magic token : Bytes} {version flags : UInt8} (hmagic : magic.length = 4)

include hmagic

theorem prefix_fields : MAGIC <+: magic ++ version :: flags :: token ↔ magic = MAGIC := by
  have htake : (magic ++ version :: flags :: token).take MAGIC.length = magic :=
    List.take_left' hmagic
  rw [List.prefix_iff_eq_take, htake]
  exact eq_comm

theorem version_field : (magic ++ version :: flags :: token)[4]? = some version := by
  obtain ⟨_, _, _, _, rfl⟩ := List.length_eq_four.mp hmagic
  rfl

theorem cleared_fields : reservedCleared (magic ++ version :: flags :: token) =
    magic ++ version :: (flags &&& FLAG_ECHO) :: token := by
  obtain ⟨_, _, _, _, rfl⟩ := List.length_eq_four.mp hmagic
  rfl

theorem decode_fields (htoken : token.length = 8) :
    Header.decode (magic ++ version :: flags :: token) =
      if magic ≠ MAGIC then .error .ForeignStream
      else if version ≠ VERSION then .error (.UnsupportedVersion version)
      else .ok ⟨flags &&& FLAG_ECHO ≠ 0, fromBeBytes token⟩ := by
  unfold Header.decode
  obtain ⟨_, _, _, _, rfl⟩ := List.length_eq_four.mp hmagic
  rw [show (_ ++ version :: flags :: token).drop 6 = token from rfl,
    List.take_of_length_le htoken.le]
  rfl

end

-- What is left of the flags is the flag that is sent.
theorem echo_flag (flags : UInt8) :
    (if decide (flags &&& FLAG_ECHO ≠ 0) then FLAG_ECHO else 0) = flags &&& FLAG_ECHO := by
  have hbit : flags &&& FLAG_ECHO = 0 ∨ flags &&& FLAG_ECHO = FLAG_ECHO := by
    rw [← UInt8.toNat_inj, ← UInt8.toNat_inj]
    simp only [FLAG_ECHO, UInt8.toNat_and]
    exact (Nat.and_one_is_mod _).symm ▸ Nat.mod_two_eq_zero_or_one _
  rcases hbit with hbit | hbit <;> rw [hbit] <;> rfl

section

variable {bytes : Bytes} (hlen : bytes.length = HEADER_LEN)

include hlen

theorem decode_foreign : Header.decode bytes = .error .ForeignStream ↔ ¬MAGIC <+: bytes := by
  obtain ⟨magic, version, flags, token, rfl, hmagic, htoken⟩ := header_fields hlen
  rw [decode_fields hmagic htoken, prefix_fields hmagic]
  by_cases hknown : magic = MAGIC
  · by_cases hversion : version = VERSION
    · simp [hknown, hversion]
    · simp [hknown, hversion]
  · simp [hknown]

theorem decode_unsupported (found : UInt8) :
    Header.decode bytes = .error (.UnsupportedVersion found) ↔
      MAGIC <+: bytes ∧ bytes[4]? = some found ∧ found ≠ VERSION := by
  obtain ⟨magic, version, flags, token, rfl, hmagic, htoken⟩ := header_fields hlen
  rw [decode_fields hmagic htoken, prefix_fields hmagic, version_field hmagic, Option.some_inj]
  by_cases hknown : magic = MAGIC
  · by_cases hversion : version = VERSION
    · have hcurrent : version = found → found = VERSION := fun h => h ▸ hversion
      simpa [hknown, hversion] using hcurrent
    · have hiff : version = found ↔ version = found ∧ found ≠ VERSION :=
        ⟨fun h => ⟨h, h ▸ hversion⟩, And.left⟩
      simpa [hknown, hversion] using hiff
  · simp [hknown]

theorem decode_accepts : (∃ header, Header.decode bytes = .ok header) ↔
    MAGIC <+: bytes ∧ bytes[4]? = some VERSION := by
  obtain ⟨magic, version, flags, token, rfl, hmagic, htoken⟩ := header_fields hlen
  rw [decode_fields hmagic htoken, prefix_fields hmagic, version_field hmagic, Option.some_inj]
  by_cases hknown : magic = MAGIC
  · by_cases hversion : version = VERSION
    · simp [hknown, hversion]
    · simp [hknown, hversion]
  · simp [hknown]

-- What is accepted is the encoding of what it decodes to, reserved bits apart.
theorem encode_decode {header : Header} (h : Header.decode bytes = .ok header) :
    header.encode = reservedCleared bytes := by
  obtain ⟨magic, version, flags, token, rfl, hmagic, htoken⟩ := header_fields hlen
  rw [decode_fields hmagic htoken] at h
  rw [cleared_fields hmagic]
  split_ifs at h with hforeign hversion
  obtain rfl := not_not.mp hforeign
  obtain rfl := not_not.mp hversion
  obtain rfl := Except.ok.inj h
  rw [Header.encode, echo_flag, toBeBytes_fromBeBytes htoken]
  rfl

end

theorem cleared_drop (bytes : Bytes) : (reservedCleared bytes).drop 6 = bytes.drop 6 :=
  List.drop_modify_of_lt _ 5 6 bytes (by decide)

-- The codec over the whole format: what is accepted, what is refused and how, and
-- what of the bytes a header keeps.
theorem codec_exact (header : Header) (bytes : Bytes) (hlen : bytes.length = HEADER_LEN) :
    Header.decode header.encode = .ok header ∧
    ((∃ decoded, Header.decode bytes = .ok decoded) ↔
      MAGIC <+: bytes ∧ bytes[4]? = some VERSION) ∧
    (Header.decode bytes = .error .ForeignStream ↔ ¬MAGIC <+: bytes) ∧
    (∀ version, Header.decode bytes = .error (.UnsupportedVersion version) ↔
      MAGIC <+: bytes ∧ bytes[4]? = some version ∧ version ≠ VERSION) ∧
    ∀ decoded, Header.decode bytes = .ok decoded →
      decoded.encode = reservedCleared bytes ∧ decoded.encode.drop 6 = bytes.drop 6 ∧
      ∀ other, other.length = HEADER_LEN → ∀ received, Header.decode other = .ok received →
        (received = decoded ↔ reservedCleared other = reservedCleared bytes) := by
  refine ⟨decode_encode header, decode_accepts hlen, decode_foreign hlen,
    decode_unsupported hlen, fun decoded hdecoded => ?_⟩
  have hencode := encode_decode hlen hdecoded
  refine ⟨hencode, hencode ▸ cleared_drop bytes, fun other hother received hreceived => ?_⟩
  rw [← encode_decode hother hreceived, ← hencode]
  exact encode_inj.symm

-- A request for an echo, with two reserved bits set.
def reservedSet : Bytes :=
  MAGIC ++ [VERSION, 0b10100001] ++ [0x01, 0x23, 0x45, 0x67, 0x89, 0xab, 0xcd, 0xef]

theorem reservedSet_decodes :
    Header.decode reservedSet = .ok ⟨true, 0x0123456789abcdef⟩ ∧
    Header.encode ⟨true, 0x0123456789abcdef⟩ = reservedCleared reservedSet ∧
    reservedCleared reservedSet ≠ reservedSet := by
  have hdecode : Header.decode reservedSet = .ok ⟨true, 0x0123456789abcdef⟩ := by decide
  obtain ⟨-, -, -, -, hkept⟩ := codec_exact ⟨true, 0x0123456789abcdef⟩ reservedSet rfl
  exact ⟨hdecode, (hkept _ hdecode).1, by decide⟩

-- `accept` on its own, with the instant of each event, and what it writes.
def Accept.timed (timeout : Nat) : Machine Accept (Nat × WaitEvent) := fun accept event =>
  accept.step timeout event.1 event.2

def echo (timeout now : Nat) (events : List (Nat × WaitEvent)) : Bytes :=
  (Accept.timed timeout).views (fun accept event => accept.given event.2) (.start now timeout)
    events

-- An echo is what was received, as far as it got, reserved bits apart.
theorem echo_as_received {timeout now : Nat} {events : List (Nat × WaitEvent)} {accept : Accept}
    (hr : (Accept.timed timeout).run (.start now timeout) events = some accept) :
    echo timeout now events <+: reservedCleared (reply events) := by
  have hanswered : accept.Answered ⟨reply events, echo timeout now events⟩ := by
    refine Machine.run_history (fun events accept =>
      Accept.Answered ⟨reply events, echo timeout now events⟩ accept) ?_ ?_ hr
    · exact show Accept.Answered _ (.reading _ _) from ⟨⟨rfl, by decide⟩, rfl⟩
    · intro events state event next hrun h hs
      have hecho : echo timeout now (events ++ [event]) =
          echo timeout now events ++ state.given event.2 := Machine.views_concat _ _ hrun hs
      rw [hecho]
      simpa [reply, Duplex.move] using h.step hs
  by_cases hsome : echo timeout now events = []
  · rw [hsome]
    exact List.nil_prefix
  · obtain ⟨header, -, hlen, hdecode, hprefix⟩ := hanswered.echoed hsome
    rw [← encode_decode hlen hdecode]
    exact hprefix

end LwdMixnet
