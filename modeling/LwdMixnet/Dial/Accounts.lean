import LwdMixnet.Dial.Rounds
import Mathlib.Data.List.Nodup
import Mathlib.Data.List.Range

namespace LwdMixnet

-- The streams of the current round, which are numbered as they are opened.
def Dial.streams (dial : Dial) : List StreamId :=
  List.range' (dial.nextStream - dial.round.opened) dial.round.opened

-- A round of `size` opens: each of them succeeded or was refused, each stream
-- was given up, cancelled or kept, and no subtraction is cut short. Where none
-- answered, the probe was heard of on every stream; an announcement is only made
-- on one.
structure Round.Accounted (settings : DialSettings) (size : Nat) (round : Round) : Prop where
  attempted : round.attempted = size
  unclamped : round.unanswered + round.answered.toNat ≤ round.opened
  unanswered : round.answered = false → round.unanswered =
    match settings.probe with
    | some _ => round.opened
    | none => min 1 round.opened

theorem Round.discarded_length (round : Round) :
    round.discarded.length = round.failures DialError.isOpenFailure + round.unanswered := by
  rw [Round.unanswered, Round.failures, Round.failures,
    List.length_eq_countP_add_countP fun stream : Discarded => stream.error.isOpenFailure]
  simp

section

variable {settings : DialSettings} {size : Nat} {round : Round}

theorem Round.Accounted.resolved (h : Round.Accounted settings size round) :
    round.opened = round.unanswered + round.cancelled + round.answered.toNat := by
  have := h.unclamped
  unfold Round.cancelled
  omega

-- Nothing of an unanswered round was cancelled, unless the probe was off and
-- there were streams besides the one that was announced on.
theorem Round.Accounted.discards (h : Round.Accounted settings size round)
    (hanswered : round.answered = false) (hprobe : settings.probe ≠ none ∨ round.opened ≤ 1) :
    round.cancelled = 0 ∧ round.discarded.length = size := by
  have hunanswered : round.unanswered = round.opened := by
    have hcount := h.unanswered hanswered
    cases hset : settings.probe with
    | some probe => simpa [hset] using hcount
    | none =>
        simp only [hset] at hcount
        rcases hprobe with hprobe | hopened
        · exact absurd hset hprobe
        · omega
  have hattempted := h.attempted
  rw [Round.attempted] at hattempted
  rw [Round.cancelled, Round.discarded_length, hunanswered]
  omega

end

-- What the phases say of the current round.
structure Dial.Sized (settings : DialSettings) (size : Nat) (dial : Dial) : Prop where
  numbered : dial.round.opened ≤ dial.nextStream
  unanswered : dial.round.answered = false
  phase : match dial.phase with
    | .opening left opened => 0 < left ∧ dial.round.attempted + left = size ∧
        opened = dial.streams ∧ dial.round.unanswered = 0
    | .announcing stream _ => settings.probe = none ∧ dial.round.attempted = size ∧
        stream ∈ dial.streams ∧ dial.round.unanswered = 0
    | .probing _ probes => settings.probe ≠ none ∧ dial.round.attempted = size ∧
        (probes.map Prod.fst).Sublist dial.streams ∧
        dial.round.unanswered + probes.length = dial.round.opened
    | .returned _ => False

theorem discard_unanswered (dial : Dial) (error : DialError) :
    (dial.discard error).round.unanswered =
      dial.round.unanswered + if error.isOpenFailure then 0 else 1 := by
  cases error <;> simp [Dial.discard, Round.unanswered, Round.failures, DialError.isOpenFailure]

theorem discard_attempted (dial : Dial) (error : DialError) :
    (dial.discard error).round.attempted =
      dial.round.attempted + if error.isOpenFailure then 1 else 0 := by
  cases error <;>
    simp [Dial.discard, Round.attempted, Round.failures, DialError.isOpenFailure, Nat.add_assoc]

-- How a step of a round of `size` leaves the dial: in the round, with the
-- stream that answered, or at the head of the loop over the rounds.
def Dial.Goes (settings : DialSettings) (size : Nat) (dial next : Dial) : Prop :=
  (next.rounds = dial.rounds ∧ next.remaining = dial.remaining ∧ next.Sized settings size) ∨
  (∃ round stream waited, Round.Accounted settings size round ∧ round.answered = true ∧
    next.rounds = dial.rounds ++ [round] ∧ next.remaining = dial.remaining ∧
    next.phase = .returned (.ok ⟨stream, waited, next.rounds⟩)) ∨
  (∃ before round, Round.Accounted settings size round ∧ round.answered = false ∧
    before.rounds = dial.rounds ++ [round] ∧ before.remaining = dial.remaining ∧
    next = Dial.turn settings before)

section

variable {settings : DialSettings} {size : Nat} {dial : Dial}

theorem Dial.goes_unanswered {start : Dial} (hrounds : dial.rounds = start.rounds)
    (hremaining : dial.remaining = start.remaining)
    (hround : Round.Accounted settings size dial.round) (hanswered : dial.round.answered = false) :
    start.Goes settings size (dial.unanswered settings) :=
  Or.inr (Or.inr ⟨{ dial with rounds := dial.rounds ++ [dial.round] }, dial.round, hround,
    hanswered, by rw [← hrounds], hremaining, rfl⟩)

theorem Dial.goes_answered (stream : StreamId) (hattempted : dial.round.attempted = size)
    (hless : dial.round.unanswered < dial.round.opened) :
    dial.Goes settings size (dial.answered stream) := by
  refine Or.inr (Or.inl ⟨{ dial.round with answered := true }, stream, _,
    ⟨hattempted, ?_, fun h => by cases h⟩, rfl, rfl, rfl, rfl⟩)
  exact hless

theorem Dial.goes_probes {start : Dial} (timeout : Nat) (probes : List (StreamId × Option Probe))
    (hrounds : dial.rounds = start.rounds) (hremaining : dial.remaining = start.remaining)
    (hnumbered : dial.round.opened ≤ dial.nextStream) (hanswered : dial.round.answered = false)
    (hprobe : settings.probe ≠ none) (hattempted : dial.round.attempted = size)
    (hids : (probes.map Prod.fst).Sublist dial.streams)
    (hcount : dial.round.unanswered + probes.length = dial.round.opened) :
    start.Goes settings size (dial.probes settings timeout probes) := by
  unfold Dial.probes
  split_ifs with hnil
  · subst hnil
    rw [List.length_nil, Nat.add_zero] at hcount
    refine Dial.goes_unanswered hrounds hremaining ⟨hattempted, ?_, fun _ => ?_⟩ hanswered
    · rw [hanswered, hcount]
      exact Nat.le_refl _
    · cases hset : settings.probe with
      | none => exact absurd hset hprobe
      | some probe => exact hcount
  · exact Or.inl ⟨hrounds, hremaining, hnumbered, hanswered, hprobe, hattempted, hids, hcount⟩

theorem Dial.goes_opens {start : Dial} (left : Nat) (hrounds : dial.rounds = start.rounds)
    (hremaining : dial.remaining = start.remaining)
    (hnumbered : dial.round.opened ≤ dial.nextStream) (hanswered : dial.round.answered = false)
    (hattempted : dial.round.attempted + left = size) (hnone : dial.round.unanswered = 0) :
    start.Goes settings size (dial.opens settings left dial.streams) := by
  obtain ⟨hleft, he⟩ | ⟨rfl, hnil, he⟩ | ⟨rfl, hprobe, stream, hlast, he⟩ |
    ⟨rfl, -, probe, hprobe, he⟩ := dial.opens_cases settings left dial.streams
  · rw [he]
    exact Or.inl ⟨hrounds, hremaining, hnumbered, hanswered, hleft, hattempted, rfl, hnone⟩
  · have hzero : dial.round.opened = 0 := by
      have hlen := congrArg List.length hnil
      simpa [Dial.streams] using hlen
    rw [he]
    refine Dial.goes_unanswered hrounds hremaining ⟨hattempted, ?_, fun _ => ?_⟩ hanswered
    · simp [hnone, hanswered]
    · cases settings.probe <;> simp [hnone, hzero]
  · rw [he]
    exact Or.inl ⟨hrounds, hremaining, hnumbered, hanswered, hprobe, hattempted,
      List.mem_of_getLast? hlast, hnone⟩
  · rw [he]
    refine Or.inl ⟨hrounds, hremaining, hnumbered, hanswered, by simp [hprobe], hattempted,
      ?_, ?_⟩
    · simp [List.map_map, Function.comp_def, Dial.streams]
    · simp [hnone, Dial.streams]

end

theorem Dial.streams_opened {dial : Dial} (h : dial.round.opened ≤ dial.nextStream) :
    Dial.streams { dial with
      nextStream := dial.nextStream + 1
      round := { dial.round with opened := dial.round.opened + 1 } } =
    dial.streams ++ [dial.nextStream] := by
  simp only [Dial.streams]
  rw [List.range'_concat, Nat.add_sub_add_right, Nat.one_mul, Nat.sub_add_cancel h]

theorem Dial.streams_nodup (dial : Dial) : dial.streams.Nodup :=
  List.nodup_range'

theorem map_fst_slot (probes : List (StreamId × Option Probe)) (stream : StreamId)
    (probe : Option Probe) :
    (probes.map fun slot => if slot.1 = stream then (stream, probe) else slot).map Prod.fst =
      probes.map Prod.fst := by
  rw [List.map_map]
  refine List.map_congr_left fun slot _ => ?_
  by_cases h : slot.1 = stream <;> simp [h]

-- The stream whose probe resolved is in one slot.
theorem length_filter_slot {probes : List (StreamId × Option Probe)} {stream : StreamId}
    {slot : StreamId × Option Probe} (hnodup : (probes.map Prod.fst).Nodup)
    (hslot : slot ∈ probes) (hid : slot.1 = stream) :
    (probes.filter fun slot => slot.1 ≠ stream).length + 1 = probes.length := by
  have hone : (probes.map Prod.fst).count stream = 1 :=
    List.count_eq_one_of_mem hnodup (hid ▸ List.mem_map_of_mem hslot)
  rw [List.count, List.countP_map] at hone
  have hsplit := List.length_eq_countP_add_countP (fun slot : StreamId × Option Probe =>
    slot.1 == stream) (l := probes)
  have hothers : probes.countP (fun slot => decide ¬(slot.1 == stream) = true) =
      probes.countP (fun slot => decide (slot.1 ≠ stream)) := by simp
  rw [← List.countP_eq_length_filter, ← hothers, hsplit, ← hone]
  exact Nat.add_comm _ _

theorem Dial.Sized.step {settings : DialSettings} {size : Nat} {dial next : Dial}
    {event : DialEvent} (h : dial.Sized settings size)
    (hs : dial.step settings event = some next) : dial.Goes settings size next := by
  obtain ⟨hnumbered, hanswered, hround⟩ := h
  obtain ⟨left, opened, hphase, rfl, rfl⟩ | ⟨left, opened, code, hphase, rfl, rfl⟩ |
    ⟨stream, token, hphase, rfl, rfl⟩ |
    ⟨stream, write, io, after, hphase, rfl, -, ⟨-, rfl⟩ | ⟨error, -, rfl⟩ | ⟨-, rfl⟩⟩ |
    ⟨timeout, probes, stream, token, hphase, rfl, -, rfl⟩ |
    ⟨timeout, probes, stream, wait, probe, after, hphase, rfl, hfind, -,
      ⟨roundTrip, -, rfl⟩ | ⟨error, -, rfl⟩ | ⟨-, rfl⟩⟩ |
    ⟨time, rfl, hallows, rfl⟩ := Dial.step_cases hs
  · rw [hphase] at hround
    obtain ⟨hleft, hattempted, rfl, hnone⟩ := hround
    rw [← Dial.streams_opened hnumbered]
    refine Dial.goes_opens _ rfl rfl (Nat.succ_le_succ hnumbered) hanswered ?_ hnone
    rw [← hattempted]
    simp only [Round.attempted, Round.failures]
    omega
  · rw [hphase] at hround
    obtain ⟨hleft, hattempted, rfl, hnone⟩ := hround
    refine @Dial.goes_opens settings size (dial.discard (.Open code)) dial (left - 1) rfl rfl
      hnumbered hanswered ?_ ?_
    · rw [discard_attempted, ← hattempted]
      simp only [DialError.isOpenFailure, if_true]
      omega
    · rw [discard_unanswered, hnone]
      rfl
  · rw [hphase] at hround
    exact Or.inl ⟨rfl, rfl, hnumbered, hanswered, hround⟩
  · rw [hphase] at hround
    obtain ⟨hprobe, hattempted, hstream, hnone⟩ := hround
    have hpos := List.length_pos_of_mem hstream
    rw [Dial.streams, List.length_range'] at hpos
    exact Dial.goes_answered stream hattempted (by omega)
  · rw [hphase] at hround
    obtain ⟨hprobe, hattempted, hstream, hnone⟩ := hround
    have hpos := List.length_pos_of_mem hstream
    rw [Dial.streams, List.length_range'] at hpos
    have hone : (dial.discard (.Probe error)).round.unanswered = 1 := by
      rw [discard_unanswered, hnone]
      rfl
    have hopened : (dial.discard (.Probe error)).round.opened = dial.round.opened := rfl
    refine Dial.goes_unanswered rfl rfl ⟨?_, ?_, fun _ => ?_⟩ hanswered
    · rw [discard_attempted, hattempted]
      rfl
    · rw [hone, hopened, show (dial.discard (.Probe error)).round.answered = false from hanswered]
      exact hpos
    · rw [hone, hopened, hprobe]
      exact (Nat.min_eq_left hpos).symm
  · rw [hphase] at hround
    exact Or.inl ⟨rfl, rfl, hnumbered, hanswered, hround⟩
  · rw [hphase] at hround
    obtain ⟨hprobe, hattempted, hids, hcount⟩ := hround
    refine Or.inl ⟨rfl, rfl, hnumbered, hanswered, hprobe, hattempted, ?_, by simpa using hcount⟩
    rwa [map_fst_slot]
  · rw [hphase] at hround
    obtain ⟨hprobe, hattempted, hids, hcount⟩ := hround
    have hpos := List.length_pos_of_mem (List.mem_of_find?_eq_some hfind)
    exact Dial.goes_answered stream hattempted (by omega)
  · rw [hphase] at hround
    obtain ⟨hprobe, hattempted, hids, hcount⟩ := hround
    have hid : (stream, some probe).1 = stream := rfl
    have hfewer := length_filter_slot (dial.streams_nodup.sublist hids)
      (List.mem_of_find?_eq_some hfind) hid
    refine @Dial.goes_probes settings size (dial.discard (.Probe error)) dial timeout _ rfl rfl
      hnumbered hanswered hprobe ?_ ?_ ?_
    · rw [discard_attempted, hattempted]
      rfl
    · exact (List.filter_sublist.map Prod.fst).trans hids
    · rw [discard_unanswered]
      change dial.round.unanswered + 1 + _ = dial.round.opened
      omega
  · rw [hphase] at hround
    obtain ⟨hprobe, hattempted, hids, hcount⟩ := hround
    refine Or.inl ⟨rfl, rfl, hnumbered, hanswered, hprobe, hattempted, ?_, by simpa using hcount⟩
    rwa [map_fst_slot]
  · exact Or.inl ⟨rfl, rfl, hnumbered, hanswered, hround⟩

-- The opens of the round at `index`.
def DialSettings.size (settings : DialSettings) (index : Nat) : Nat :=
  min settings.concurrency (settings.attempts - index * settings.concurrency)

theorem DialSettings.attempts_pos (settings : DialSettings) : 0 < settings.attempts := by
  unfold DialSettings.attempts
  split
  · exact ProbeSettings.attempts_pos _
  · exact Nat.one_pos

theorem DialSettings.concurrency_pos (settings : DialSettings) : 0 < settings.concurrency := by
  unfold DialSettings.concurrency
  split
  · exact ProbeSettings.concurrency_pos _
  · exact Nat.one_pos

-- The rounds that a dial has run, each with its share of the attempts.
def Dial.Shared (settings : DialSettings) (rounds : List Round) : Prop :=
  ∀ index round, rounds[index]? = some round →
    Round.Accounted settings (settings.size index) round

-- A dial has run rounds that nothing answered, and has attempts left for more.
structure Dial.Looping (settings : DialSettings) (rounds : List Round) : Prop where
  shared : Dial.Shared settings rounds
  unanswered : ∀ round ∈ rounds, round.answered = false
  needed : rounds.length = 0 ∨ (rounds.length - 1) * settings.concurrency < settings.attempts

def Dial.Budgeted (settings : DialSettings) (dial : Dial) : Prop :=
  match dial.phase with
  | .returned (.ok dialled) => dialled.rounds = dial.rounds ∧
      Dial.Shared settings dial.rounds ∧
      ∃ earlier last, dial.rounds = earlier ++ [last] ∧ Dial.Looping settings earlier ∧
        earlier.length * settings.concurrency < settings.attempts ∧ last.answered = true
  | .returned (.error gaveUp) => gaveUp.rounds = dial.rounds ∧ Dial.Looping settings dial.rounds ∧
      settings.attempts ≤ dial.rounds.length * settings.concurrency
  | _ => Dial.Looping settings dial.rounds ∧
      dial.rounds.length * settings.concurrency < settings.attempts ∧
      dial.remaining + settings.size dial.rounds.length =
        settings.attempts - dial.rounds.length * settings.concurrency ∧
      dial.Sized settings (settings.size dial.rounds.length)

section

variable {settings : DialSettings} {rounds : List Round} {round : Round}

-- With the probe off a dial opens one stream at a time.
theorem DialSettings.opened_le_one {index : Nat} (hprobe : settings.probe = none)
    (h : Round.Accounted settings (settings.size index) round) : round.opened ≤ 1 := by
  have hattempted := h.attempted
  rw [Round.attempted] at hattempted
  have hone : settings.size index ≤ settings.concurrency := Nat.min_le_left _ _
  rw [DialSettings.concurrency, hprobe] at hone
  exact (Nat.le_add_right _ _).trans (hattempted.le.trans hone)

theorem Dial.Shared.discards {index : Nat} (h : Dial.Shared settings rounds)
    (hround : rounds[index]? = some round) (hanswered : round.answered = false) :
    round.cancelled = 0 ∧ round.discarded.length = settings.size index := by
  have haccounted := h index round hround
  refine haccounted.discards hanswered ?_
  by_cases hprobe : settings.probe = none
  · exact Or.inr (DialSettings.opened_le_one hprobe haccounted)
  · exact Or.inl hprobe

theorem Dial.Shared.concat (h : Dial.Shared settings rounds)
    (hround : Round.Accounted settings (settings.size rounds.length) round) :
    Dial.Shared settings (rounds ++ [round]) := by
  intro index other hother
  rw [List.getElem?_append] at hother
  split_ifs at hother with hlt
  · exact h index other hother
  · have hlen : index - rounds.length < 1 := by
      simpa using (List.getElem?_eq_some_iff.mp hother).1
    obtain rfl : index = rounds.length := by omega
    obtain rfl : round = other := by simpa using hother
    exact hround

theorem Dial.Looping.concat (h : Dial.Looping settings rounds)
    (hneeded : rounds.length * settings.concurrency < settings.attempts)
    (hround : Round.Accounted settings (settings.size rounds.length) round)
    (hanswered : round.answered = false) : Dial.Looping settings (rounds ++ [round]) := by
  refine ⟨h.shared.concat hround, fun other hother => ?_, Or.inr ?_⟩
  · rcases List.mem_append.mp hother with hold | hnew
    · exact h.unanswered other hold
    · obtain rfl := List.mem_singleton.mp hnew
      exact hanswered
  · simpa using hneeded

-- The head of the loop: the attempts that are left make the next round, or
-- there are none.
theorem Dial.turn_budgeted {dial : Dial} (h : Dial.Looping settings dial.rounds)
    (hremaining : dial.remaining =
      settings.attempts - dial.rounds.length * settings.concurrency) :
    (dial.turn settings).Budgeted settings := by
  unfold Dial.turn
  split_ifs with hzero
  · exact ⟨rfl, h, Nat.sub_eq_zero_iff_le.mp (hremaining.symm.trans hzero)⟩
  · have hsize : settings.size dial.rounds.length = min settings.concurrency dial.remaining := by
      rw [DialSettings.size, hremaining]
    have hneeded : dial.rounds.length * settings.concurrency < settings.attempts := by omega
    have hleft : 0 < min settings.concurrency dial.remaining :=
      Nat.lt_min.mpr ⟨settings.concurrency_pos, Nat.pos_of_ne_zero hzero⟩
    refine ⟨h, hneeded, ?_, Nat.zero_le _, rfl, hleft, ?_, rfl, rfl⟩
    · simp only [hsize, ← hremaining]
      exact Nat.sub_add_cancel (Nat.min_le_right _ _)
    · exact (Nat.zero_add _).trans hsize.symm

theorem Dial.start_budgeted (settings : DialSettings) :
    (Dial.start settings).Budgeted settings := by
  refine Dial.turn_budgeted ⟨fun index round h => ?_, fun _ h => ?_, Or.inl rfl⟩ ?_
  · simp at h
  · cases h
  · simp

theorem Dial.Budgeted.step {dial next : Dial} {event : DialEvent} (h : dial.Budgeted settings)
    (hs : dial.step settings event = some next) : next.Budgeted settings := by
  have hgoing (h : Dial.Looping settings dial.rounds ∧
      dial.rounds.length * settings.concurrency < settings.attempts ∧
      dial.remaining + settings.size dial.rounds.length =
        settings.attempts - dial.rounds.length * settings.concurrency ∧
      dial.Sized settings (settings.size dial.rounds.length)) : next.Budgeted settings := by
    obtain ⟨hlooping, hneeded, hremaining, hsized⟩ := h
    obtain ⟨hrounds, hsame, hsized⟩ |
      ⟨round, stream, waited, hround, hanswered, hrounds, hsame, hphase⟩ |
      ⟨before, round, hround, hanswered, hrounds, hsame, rfl⟩ := hsized.step hs
    · unfold Dial.Budgeted
      have hphase := hsized.phase
      split
      · rename_i he
        simp [he] at hphase
      · rename_i he
        simp [he] at hphase
      · rw [hrounds, hsame]
        exact ⟨hlooping, hneeded, hremaining, hsized⟩
    · simp only [Dial.Budgeted, hphase, hrounds]
      exact ⟨trivial, hlooping.shared.concat hround, dial.rounds, round, rfl, hlooping, hneeded,
        hanswered⟩
    · apply Dial.turn_budgeted
      · rw [hrounds]
        exact hlooping.concat hneeded hround hanswered
      · rw [hsame, hrounds, List.length_append, List.length_singleton, Nat.add_mul, Nat.one_mul]
        simp only [DialSettings.size] at hremaining
        omega
  unfold Dial.Budgeted at h
  split at h
  · rename_i hphase
    cases event <;> simp [Dial.step, hphase, DialPhase.allows] at hs
  · rename_i hphase
    cases event <;> simp [Dial.step, hphase, DialPhase.allows] at hs
  · exact hgoing h

theorem Dial.Budgeted.shared {dial : Dial} (h : dial.Budgeted settings) :
    Dial.Shared settings dial.rounds := by
  unfold Dial.Budgeted at h
  split at h
  · exact h.2.1
  · exact h.2.1.shared
  · exact h.1.shared

theorem dial_budgeted {events : List DialEvent} {dial : Dial}
    (hr : (Dial.step settings).run (.start settings) events = some dial) :
    dial.Budgeted settings :=
  Machine.run_invariant (fun dial => dial.Budgeted settings)
    (fun _ _ _ h hs => Dial.Budgeted.step h hs) (Dial.start_budgeted settings) hr

end

end LwdMixnet
