import LwdMixnet.Dial.Rounds

namespace LwdMixnet

-- The probe of a stream that answered: the whole header went out, and as many
-- bytes came back.
def Duplex.Answered (near : Duplex) (sent : Header) : Prop :=
  sent.echoRequested ∧ near.accepted = sent.encode ∧ near.consumed.length = HEADER_LEN

-- What a stream in the probes of a round has moved.
def Probe.Slot (nextStream : StreamId) (near : StreamId → Duplex)
    (slot : StreamId × Option Probe) : Prop :=
  slot.1 < nextStream ∧
    match slot.2 with
    | none => near slot.1 = {}
    | some probe => ∃ sent, sent.echoRequested ∧ probe.Spoke sent (near slot.1)

-- With the probe on, a dial sends nothing but headers.
structure Dial.Spoke (near : StreamId → Duplex) (dial : Dial) : Prop where
  fresh : ∀ id, dial.nextStream ≤ id → near id = {}
  short : ∀ id, (near id).accepted.length ≤ HEADER_LEN
  phase : match dial.phase with
    | .opening _ opened => ∀ id ∈ opened, id < dial.nextStream ∧ near id = {}
    | .announcing _ _ => False
    | .probing _ probes => ∀ slot ∈ probes, Probe.Slot dial.nextStream near slot
    | .returned (.ok dialled) => ∃ sent, (near dialled.stream).Answered sent
    | .returned (.error _) => True

section

variable {settings : DialSettings} {near : StreamId → Duplex} (dial : Dial)
  (hfresh : ∀ id, dial.nextStream ≤ id → near id = {})
  (hshort : ∀ id, (near id).accepted.length ≤ HEADER_LEN)

include hfresh hshort

theorem Dial.turn_spoke : (dial.turn settings).Spoke near := by
  unfold Dial.turn
  split_ifs
  · exact ⟨hfresh, hshort, trivial⟩
  · exact ⟨hfresh, hshort, by simp⟩

theorem Dial.unanswered_spoke : (dial.unanswered settings).Spoke near :=
  Dial.turn_spoke { dial with rounds := dial.rounds ++ [dial.round] } hfresh hshort

theorem Dial.probes_spoke {timeout : Nat} {probes : List (StreamId × Option Probe)}
    (hprobes : ∀ slot ∈ probes, Probe.Slot dial.nextStream near slot) :
    (dial.probes settings timeout probes).Spoke near := by
  unfold Dial.probes
  split_ifs
  · exact dial.unanswered_spoke hfresh hshort
  · exact ⟨hfresh, hshort, hprobes⟩

theorem Dial.opens_spoke {left : Nat} {opened : List StreamId} (hprobe : settings.probe ≠ none)
    (hopened : ∀ id ∈ opened, id < dial.nextStream ∧ near id = {}) :
    (dial.opens settings left opened).Spoke near := by
  obtain ⟨-, he⟩ | ⟨-, -, he⟩ | ⟨-, hnone, -⟩ | ⟨-, -, probe, -, he⟩ :=
    dial.opens_cases settings left opened
  · rw [he]
    exact ⟨hfresh, hshort, hopened⟩
  · rw [he]
    exact dial.unanswered_spoke hfresh hshort
  · exact absurd hnone hprobe
  · rw [he]
    refine ⟨hfresh, hshort, fun slot hslot => ?_⟩
    obtain ⟨id, hid, rfl⟩ := List.mem_map.mp hslot
    exact hopened id hid

end

theorem Dial.start_spoke (settings : DialSettings) : (Dial.start settings).Spoke fun _ => {} :=
  Dial.turn_spoke _ (fun _ _ => rfl) (fun _ => Nat.zero_le _)

theorem Probe.Spoke.start (now : Nat) (sent : Header) : (Probe.start now sent).Spoke sent {} :=
  ⟨rfl, rfl, rfl⟩

-- Only the stream whose probe was polled changes its slot.
theorem Probe.Slot.map {near later : StreamId → Duplex} {nextStream stream : StreamId}
    {probes : List (StreamId × Option Probe)} {probe : Probe} {sent : Header}
    (h : ∀ slot ∈ probes, Probe.Slot nextStream near slot) (hstream : stream < nextStream)
    (hrest : ∀ id, id ≠ stream → later id = near id) (hecho : sent.echoRequested)
    (hspoke : probe.Spoke sent (later stream)) :
    ∀ slot ∈ probes.map fun slot => if slot.1 = stream then (stream, some probe) else slot,
      Probe.Slot nextStream later slot := by
  intro slot hslot
  obtain ⟨before, hbefore, rfl⟩ := List.mem_map.mp hslot
  split_ifs with he
  · exact ⟨hstream, sent, hecho, hspoke⟩
  · unfold Probe.Slot
    rw [hrest before.1 he]
    exact h before hbefore

theorem Dial.moved_probing {dial : Dial} {timeout : Nat} {probes : List (StreamId × Option Probe)}
    {stream : StreamId} {probe : Probe} {waited : WaitEvent}
    (hphase : dial.phase = .probing timeout probes)
    (hfind : (probes.find? fun slot => slot.1 = stream) = some (stream, some probe)) :
    dial.moved (.wait stream waited) = some ⟨stream, waited.taken, probe.given waited⟩ := by
  simp [Dial.moved, hphase, hfind]

theorem Dial.Spoke.step {settings : DialSettings} {near : StreamId → Duplex} {dial next : Dial}
    {event : DialEvent} (hprobe : settings.probe ≠ none) (h : dial.Spoke near)
    (hs : dial.step settings event = some next) :
    next.Spoke (moveAt near (dial.moved event)) := by
  obtain ⟨hfresh, hshort, hspoke⟩ := h
  obtain ⟨left, opened, hphase, rfl, rfl⟩ | ⟨left, opened, code, hphase, rfl, rfl⟩ |
    ⟨stream, token, hphase, rfl, rfl⟩ | ⟨stream, write, io, after, hphase, rfl, -, -⟩ |
    ⟨timeout, probes, stream, token, hphase, rfl, hslot, rfl⟩ |
    ⟨timeout, probes, stream, wait, probe, after, hphase, rfl, hfind, hp, hnext⟩ |
    ⟨time, rfl, hallows, rfl⟩ := Dial.step_cases hs
  · rw [hphase] at hspoke
    have hmoved : dial.moved .opened = none := by simp [Dial.moved, hphase]
    rw [hmoved]
    refine Dial.opens_spoke _ (fun id hid => hfresh id (Nat.le_of_succ_le hid)) hshort hprobe ?_
    intro id hid
    rcases List.mem_append.mp hid with hid | hid
    · exact ⟨Nat.lt_succ_of_lt (hspoke id hid).1, (hspoke id hid).2⟩
    · obtain rfl := List.mem_singleton.mp hid
      exact ⟨Nat.lt_succ_self _, hfresh _ (Nat.le_refl _)⟩
  · rw [hphase] at hspoke
    have hmoved : dial.moved (.refused code) = none := by simp [Dial.moved, hphase]
    rw [hmoved]
    exact Dial.opens_spoke (dial.discard (.Open code)) hfresh hshort hprobe hspoke
  · rw [hphase] at hspoke
    exact hspoke.elim
  · rw [hphase] at hspoke
    exact hspoke.elim
  · rw [hphase] at hspoke
    have hmoved : dial.moved (.polled stream token) = none := by simp [Dial.moved, hphase]
    rw [hmoved]
    obtain ⟨hstream, hnothing⟩ := hspoke _ hslot
    have hecho : (Header.next token true).1.echoRequested := rfl
    refine ⟨hfresh, hshort, Probe.Slot.map hspoke hstream (fun _ _ => rfl) hecho ?_⟩
    change near stream = {} at hnothing
    change Probe.Spoke _ (near stream) _
    rw [hnothing]
    exact Probe.Spoke.start _ _
  · rw [hphase] at hspoke
    obtain ⟨hstream, sent, hecho, hbefore⟩ := hspoke _ (List.mem_of_find?_eq_some hfind)
    have hafter := hbefore.step hp
    rw [Dial.moved_probing hphase hfind]
    obtain ⟨later, hlater⟩ : ∃ later, later = moveAt near
      (some ⟨stream, wait.taken, probe.given wait⟩) := ⟨_, rfl⟩
    rw [← hlater]
    have hsame : later stream = (near stream).move wait.taken (probe.given wait) := by
      simp [hlater, moveAt]
    have hrest (id : StreamId) (hne : id ≠ stream) : later id = near id := by
      simp [hlater, moveAt, hne]
    rw [← hsame] at hafter
    have hfresh' (id : StreamId) (hid : dial.nextStream ≤ id) : later id = {} := by
      rw [hrest id (Nat.ne_of_gt (Nat.lt_of_lt_of_le hstream hid)), hfresh id hid]
    have hshort' (id : StreamId) : (later id).accepted.length ≤ HEADER_LEN := by
      by_cases hid : id = stream
      · subst hid
        rw [← encode_length sent]
        exact hafter.aligned.length_le
      · rw [hrest id hid]
        exact hshort id
    have hslots := Probe.Slot.map hspoke hstream hrest hecho hafter
    obtain ⟨roundTrip, rfl, rfl⟩ | ⟨error, rfl, rfl⟩ | ⟨-, rfl⟩ := hnext
    · exact ⟨hfresh', hshort', sent, hecho, hafter.1, hafter.2.1⟩
    · refine (dial.discard (.Probe error)).probes_spoke hfresh' hshort' fun slot hslot => ?_
      obtain ⟨hslot, hne⟩ := List.mem_filter.mp hslot
      unfold Probe.Slot
      rw [hrest slot.1 (of_decide_eq_true hne)]
      exact hspoke slot hslot
    · exact ⟨hfresh', hshort', hslots⟩
  · have hmoved : dial.moved (.elapse time) = none := by
      unfold Dial.moved
      split <;> first | rfl | contradiction
    rw [hmoved]
    exact ⟨hfresh, hshort, hspoke⟩

end LwdMixnet
