import LwdMixnet.Dial.Budget
import LwdMixnet.Dial.Cancelled
import LwdMixnet.Machine.Timed

namespace LwdMixnet

-- `probe` by itself, from its call on.
structure ProbeCall where
  now : Nat
  probe : Probe
  deriving DecidableEq, Repr

inductive CallEvent
  | wait (event : WaitEvent)
  | elapse (time : Nat)
  deriving DecidableEq, Repr

def CallEvent.delay : CallEvent → Nat
  | .wait _ => 0
  | .elapse time => time

def ProbeCall.start (now : Nat) (sent : Header) : ProbeCall :=
  ⟨now, .start now sent⟩

def ProbeCall.step (timeout : Nat) : Machine ProbeCall CallEvent := fun call event =>
  match event with
  | .wait event =>
      (call.probe.step timeout call.now event).map fun probe => { call with probe }
  | .elapse time =>
      if call.probe.result = none ∧ Probe.allows (some call.probe) (call.now + time) then
        some { call with now := call.now + time }
      else none

-- The timer of a probe is over its read: it is armed once the header is out.
def Probe.guarded : Option Probe → Bool
  | some (.awaiting _ _ _ _) => true
  | _ => false

def ProbeCall.unguarded (call : ProbeCall) : Bool := !Probe.guarded (some call.probe)

-- The opens of the round have returned, and the round has not.
def Dial.waiting (dial : Dial) : Bool :=
  match dial.phase with
  | .announcing _ _ | .probing _ _ => true
  | _ => false

-- A probe of the round was not called yet, or its header is not out.
def Dial.unguarded (dial : Dial) : Bool :=
  match dial.phase with
  | .probing _ probes => probes.any fun slot => !Probe.guarded slot.2
  | _ => false

-- Everything a step of a probe can do.
theorem Probe.step_cases {timeout now : Nat} {probe next : Probe} {event : WaitEvent}
    (h : probe.step timeout now event = some next) :
    (∃ result, next = .returned result) ∨
    (∃ started sent write, probe = .sending started sent write ∧
      (next = .awaiting started sent (now + timeout) .start ∨
        ∃ after, next = .sending started sent after)) ∨
    (∃ started sent deadline read after, probe = .awaiting started sent deadline read ∧
      next = .awaiting started sent deadline after) := by
  cases probe with
  | returned result => simp [Probe.step] at h
  | sending started sent write =>
      cases event with
      | expired => simp [Probe.step] at h
      | io io =>
          simp only [Probe.step] at h
          cases hw : write.step io with
          | none => simp [hw] at h
          | some after =>
              simp only [hw] at h
              cases after with
              | writing _ | flushing =>
                  obtain rfl := Option.some.inj h
                  exact Or.inr (Or.inl ⟨started, sent, write, rfl, Or.inr ⟨_, rfl⟩⟩)
              | returned result =>
                  cases result with
                  | ok _ =>
                      obtain rfl := Option.some.inj h
                      exact Or.inr (Or.inl ⟨started, sent, write, rfl, Or.inl rfl⟩)
                  | error error =>
                      obtain rfl := Option.some.inj h
                      exact Or.inl ⟨_, rfl⟩
  | awaiting started sent deadline read =>
      cases event with
      | expired =>
          simp only [Probe.step] at h
          split_ifs at h
          obtain rfl := Option.some.inj h
          exact Or.inl ⟨_, rfl⟩
      | io io =>
          simp only [Probe.step] at h
          cases hread : read.step io with
          | none => simp [hread] at h
          | some after =>
              simp only [hread] at h
              cases after with
              | returned result =>
                  obtain rfl := Option.some.inj h
                  exact Or.inl ⟨_, rfl⟩
              | reading got =>
                  obtain rfl := Option.some.inj h
                  exact Or.inr (Or.inr ⟨started, sent, deadline, read, _, rfl, rfl⟩)

-- A call that has spent `writing` in its write: the timer counts from the end of
-- the write on, not from the call.
def ProbeCall.Due (timeout start writing : Nat) (call : ProbeCall) : Prop :=
  match call.probe with
  | .sending _ _ _ => call.now = start + writing
  | .awaiting _ _ deadline _ => deadline = start + writing + timeout ∧ call.now ≤ deadline
  | .returned _ => True

theorem ProbeCall.Due.step {timeout start writing : Nat} {call next : ProbeCall}
    {event : CallEvent} (h : call.Due timeout start writing)
    (hs : call.step timeout event = some next) :
    next.Due timeout start (writing + if call.unguarded then event.delay else 0) := by
  obtain ⟨now, probe⟩ := call
  cases event with
  | wait event =>
      obtain ⟨after, hp, rfl⟩ := Option.map_eq_some_iff.mp hs
      simp only [CallEvent.delay, ite_self, Nat.add_zero]
      obtain ⟨result, rfl⟩ | ⟨started, sent, write, rfl, rfl | ⟨more, rfl⟩⟩ |
        ⟨started, sent, deadline, read, more, rfl, rfl⟩ := Probe.step_cases hp
      · trivial
      · have hnow : now = start + writing := h
        exact ⟨by rw [hnow], Nat.le_add_right _ _⟩
      · exact h
      · exact h
  | elapse time =>
      simp only [ProbeCall.step] at hs
      split_ifs at hs with hallows
      obtain rfl := Option.some.inj hs
      cases probe with
      | returned result => trivial
      | sending started sent write =>
          have hnow : now = start + writing := h
          show now + time = start + (writing + time)
          omega
      | awaiting started sent deadline read =>
          exact ⟨h.1, of_decide_eq_true hallows.2⟩

theorem ProbeCall.due {timeout start : Nat} {sent : Header} {events : List CallEvent}
    {call : ProbeCall} (hr : (ProbeCall.step timeout).run (.start start sent) events = some call) :
    call.Due timeout start ((ProbeCall.step timeout).spent CallEvent.delay ProbeCall.unguarded
      (.start start sent) events) := by
  refine Machine.run_history (fun events call => ProbeCall.Due timeout start
    ((ProbeCall.step timeout).spent CallEvent.delay ProbeCall.unguarded
      (.start start sent) events) call) ?_ ?_ hr
  · show start = start + 0
    rfl
  · intro events call event next hr h hs
    rw [Machine.spent_concat _ _ hr hs]
    exact h.step hs

-- Once the header is out the timer runs, and it is not set again.
theorem ProbeCall.timer {timeout now deadline started : Nat} {sent : Header} {read : ReadHeader}
    {events : List CallEvent} {call : ProbeCall} (hnow : now ≤ deadline)
    (hr : (ProbeCall.step timeout).run ⟨now, .awaiting started sent deadline read⟩ events =
      some call) :
    call.probe.result ≠ none ∨
      call.now ≤ deadline ∧ ∃ after, call.probe = .awaiting started sent deadline after := by
  refine Machine.run_invariant (fun call => call.probe.result ≠ none ∨
    call.now ≤ deadline ∧ ∃ after, call.probe = .awaiting started sent deadline after)
    ?_ (Or.inr ⟨hnow, read, rfl⟩) hr
  rintro ⟨now, probe⟩ event next hbefore hs
  cases event with
  | wait event =>
      obtain ⟨after, hp, rfl⟩ := Option.map_eq_some_iff.mp hs
      obtain ⟨result, rfl⟩ | ⟨_, _, _, rfl, -⟩ | ⟨_, _, _, _, more, rfl, rfl⟩ :=
        Probe.step_cases hp
      · exact Or.inl (Option.some_ne_none result)
      · obtain hnone | ⟨-, _, he⟩ := hbefore
        · exact absurd rfl hnone
        · cases he
      · obtain hnone | ⟨hnow, _, he⟩ := hbefore
        · exact absurd rfl hnone
        · cases he
          exact Or.inr ⟨hnow, more, rfl⟩
  | elapse time =>
      simp only [ProbeCall.step] at hs
      split_ifs at hs with hallows
      obtain rfl := Option.some.inj hs
      obtain hnone | ⟨-, after, rfl⟩ := hbefore
      · exact absurd hallows.1 hnone
      · exact Or.inr ⟨of_decide_eq_true hallows.2, after, rfl⟩

-- A call gives up in time, whatever its stream does from here on, exactly when
-- its header is out and no time was spent on that.
theorem ProbeCall.bounded_iff {timeout start : Nat} {sent : Header} {events : List CallEvent}
    {call : ProbeCall} (hr : (ProbeCall.step timeout).run (.start start sent) events = some call)
    (hresult : call.probe.result = none) :
    (∀ more last, (ProbeCall.step timeout).run call more = some last →
      last.probe.result = none → last.now ≤ start + timeout) ↔
    Probe.guarded (some call.probe) ∧
      (ProbeCall.step timeout).spent CallEvent.delay ProbeCall.unguarded
        (.start start sent) events = 0 := by
  have hdue := ProbeCall.due hr
  generalize (ProbeCall.step timeout).spent CallEvent.delay ProbeCall.unguarded
    (.start start sent) events = writing at hdue ⊢
  obtain ⟨now, probe⟩ := call
  cases probe with
  | returned result => cases hresult
  | sending started header write =>
      refine ⟨fun hbounded => ?_, fun h => absurd h.1 (by simp [Probe.guarded])⟩
      have hlate := hbounded [.elapse (start + timeout + 1)] _ rfl rfl
      simp only at hlate
      omega
  | awaiting started header deadline read =>
      obtain ⟨hdeadline, hnow⟩ := hdue
      constructor
      · intro hbounded
        refine ⟨rfl, ?_⟩
        have hlate := hbounded [.elapse (deadline - now)]
          ⟨deadline, .awaiting started header deadline read⟩
          (by simp [Machine.run, ProbeCall.step, Probe.result, Probe.allows,
            Nat.add_sub_cancel' hnow]) rfl
        simp only at hlate
        omega
      · rintro ⟨-, rfl⟩ more last hmore hlast
        obtain hnone | ⟨hlate, -⟩ := ProbeCall.timer hnow hmore
        · exact absurd hlast hnone
        · rwa [hdeadline] at hlate

-- Where time is held back the timer is due, and it ends the call.
theorem ProbeCall.expires {timeout start : Nat} {sent : Header} {events : List CallEvent}
    {call : ProbeCall} {time : Nat}
    (hr : (ProbeCall.step timeout).run (.start start sent) events = some call)
    (hresult : call.probe.result = none) (hheld : call.step timeout (.elapse time) = none) :
    ∃ left < time, (ProbeCall.step timeout).run call [.elapse left, .wait .expired] =
      some ⟨call.now + left, .returned (.error (.TimedOut timeout))⟩ := by
  have hdue := ProbeCall.due hr
  obtain ⟨now, probe⟩ := call
  have hallows : Probe.allows (some probe) (now + time) = false := by
    simpa [ProbeCall.step, hresult] using hheld
  cases probe with
  | returned result => cases hresult
  | sending started header write => cases hallows
  | awaiting started header deadline read =>
      obtain ⟨-, hnow⟩ := hdue
      simp only at hnow
      have hlate : deadline < now + time := by simpa [Probe.allows] using hallows
      refine ⟨deadline - now, by omega, ?_⟩
      simp [Machine.run, ProbeCall.step, Probe.result, Probe.allows, Probe.step,
        Nat.add_sub_cancel' hnow]

-- What is waited for a probe of a round, where `due` is what may have been
-- waited without its timer.
def Probe.Due (timeout now waited due : Nat) : Option Probe → Prop
  | some (.awaiting _ _ deadline _) => now ≤ deadline ∧ waited + deadline ≤ due + timeout + now
  | _ => waited ≤ due

section

variable {timeout now waited due : Nat}

theorem Probe.Due.bound {slot : Option Probe} (h : Probe.Due timeout now waited due slot) :
    waited ≤ due + timeout := by
  unfold Probe.Due at h
  split at h
  · omega
  · omega

theorem Probe.Due.step {probe next : Probe} {event : WaitEvent}
    (h : Probe.Due timeout now waited due (some probe))
    (hs : probe.step timeout now event = some next) (hresult : next.result = none) :
    Probe.Due timeout now waited due (some next) := by
  obtain ⟨result, rfl⟩ | ⟨started, sent, write, rfl, rfl | ⟨more, rfl⟩⟩ |
    ⟨started, sent, deadline, read, more, rfl, rfl⟩ := Probe.step_cases hs
  · cases hresult
  · have hwaited : waited ≤ due := h
    exact ⟨Nat.le_add_right _ _, by omega⟩
  · exact h
  · exact h

theorem Probe.Due.elapse {slot : Option Probe} {time more : Nat}
    (h : Probe.Due timeout now waited due slot) (hallows : Probe.allows slot (now + time))
    (hmore : Probe.guarded slot = false → more = time) :
    Probe.Due timeout (now + time) (waited + time) (due + more) slot := by
  unfold Probe.Due at h ⊢
  split at h
  · exact ⟨of_decide_eq_true hallows, by omega⟩
  · rename_i hslot
    have hguarded : Probe.guarded slot = false := by
      unfold Probe.guarded
      split
      · exact (hslot _ _ _ _ rfl).elim
      · rfl
    rw [hmore hguarded]
    exact Nat.add_le_add_right h time

end

-- Each round that is over was waited for as long as its timers, and `extra`.
def Dial.OnTime (timeout waited extra : Nat) (dial : Dial) : Prop :=
  match dial.phase with
  | .probing limit probes => limit = timeout ∧ ∀ slot ∈ probes,
      Probe.Due timeout dial.elapsed waited (dial.rounds.length * timeout + extra) slot.2
  | .announcing _ _ => False
  | _ => waited ≤ dial.rounds.length * timeout + extra

section

variable {settings : DialSettings} {timeout waited extra : Nat} {dial : Dial}

theorem Dial.turn_onTime (h : waited ≤ dial.rounds.length * timeout + extra) :
    (dial.turn settings).OnTime timeout waited extra := by
  unfold Dial.turn
  split_ifs <;> exact h

theorem Dial.unanswered_onTime (h : waited ≤ dial.rounds.length * timeout + extra + timeout) :
    (dial.unanswered settings).OnTime timeout waited extra := by
  apply Dial.turn_onTime
  simp only [List.length_append, List.length_singleton, Nat.add_mul]
  omega

theorem Dial.probes_onTime {probes : List (StreamId × Option Probe)}
    (h : waited ≤ dial.rounds.length * timeout + extra + timeout)
    (hprobes : ∀ slot ∈ probes,
      Probe.Due timeout dial.elapsed waited (dial.rounds.length * timeout + extra) slot.2) :
    (dial.probes settings timeout probes).OnTime timeout waited extra := by
  unfold Dial.probes
  split_ifs
  · exact Dial.unanswered_onTime h
  · exact ⟨rfl, hprobes⟩

theorem Dial.opens_onTime {probe : ProbeSettings} {left : Nat} {opened : List StreamId}
    (hprobe : settings.probe = some probe)
    (h : waited ≤ dial.rounds.length * probe.timeout + extra) :
    (dial.opens settings left opened).OnTime probe.timeout waited extra := by
  obtain ⟨-, he⟩ | ⟨-, -, he⟩ | ⟨-, hnone, -⟩ | ⟨-, -, other, hother, he⟩ :=
    dial.opens_cases settings left opened
  · rw [he]
    exact h
  · rw [he]
    exact Dial.unanswered_onTime (by omega)
  · rw [hprobe] at hnone
    cases hnone
  · obtain rfl := Option.some.inj (hprobe.symm.trans hother)
    rw [he]
    refine ⟨rfl, fun slot hslot => ?_⟩
    obtain ⟨stream, -, rfl⟩ := List.mem_map.mp hslot
    exact h

theorem Dial.OnTime.elapse {time : Nat} (h : dial.OnTime timeout waited extra)
    (hallows : dial.phase.allows (dial.elapsed + time)) :
    Dial.OnTime timeout (waited + if dial.waiting then time else 0)
      (extra + if dial.unguarded then time else 0)
      { dial with elapsed := dial.elapsed + time } := by
  unfold Dial.OnTime at h ⊢
  cases hphase : dial.phase with
  | announcing stream write =>
      rw [hphase] at h
      exact h.elim
  | opening left opened =>
      rw [hphase] at h
      simpa [Dial.waiting, Dial.unguarded, hphase] using h
  | returned result =>
      rw [hphase] at h
      simpa [Dial.waiting, Dial.unguarded, hphase] using h
  | probing limit probes =>
      rw [hphase] at h hallows
      obtain ⟨hlimit, hprobes⟩ := h
      refine ⟨hlimit, fun slot hslot => ?_⟩
      have hallowed : Probe.allows slot.2 (dial.elapsed + time) :=
        List.all_eq_true.mp hallows slot hslot
      have hmore (hguarded : Probe.guarded slot.2 = false) :
          (if dial.unguarded then time else 0) = time := by
        have hany : dial.unguarded := by
          simp only [Dial.unguarded, hphase]
          exact List.any_eq_true.mpr ⟨slot, hslot, by simp [hguarded]⟩
        rw [if_pos hany]
      have helapsed := (hprobes slot hslot).elapse hallowed hmore
      rw [Nat.add_assoc] at helapsed
      simpa [Dial.waiting, hphase] using helapsed

theorem Dial.OnTime.step {probe : ProbeSettings} {next : Dial} {event : DialEvent}
    (hprobe : settings.probe = some probe) (h : dial.OnTime probe.timeout waited extra)
    (hs : dial.step settings event = some next) :
    next.OnTime probe.timeout (waited + if dial.waiting then event.delay else 0)
      (extra + if dial.unguarded then event.delay else 0) := by
  have hold := h
  unfold Dial.OnTime at h
  obtain ⟨left, opened, hphase, rfl, rfl⟩ | ⟨left, opened, code, hphase, rfl, rfl⟩ |
    ⟨stream, token, hphase, rfl, rfl⟩ | ⟨stream, write, io, after, hphase, rfl, -, -⟩ |
    ⟨limit, probes, stream, token, hphase, rfl, hslot, rfl⟩ |
    ⟨limit, probes, stream, wait, probing, after, hphase, rfl, hfind, hp,
      ⟨roundTrip, rfl, rfl⟩ | ⟨error, rfl, rfl⟩ | ⟨hresult, rfl⟩⟩ |
    ⟨time, rfl, hallows, rfl⟩ := Dial.step_cases hs
  all_goals simp only [DialEvent.delay, ite_self, Nat.add_zero]
  · rw [hphase] at h
    exact Dial.opens_onTime hprobe h
  · rw [hphase] at h
    exact Dial.opens_onTime hprobe h
  · rw [hphase] at h
    exact h.elim
  · rw [hphase] at h
    exact h.elim
  · rw [hphase] at h
    obtain ⟨hlimit, hprobes⟩ := h
    refine ⟨hlimit, fun slot hslot' => ?_⟩
    obtain ⟨before, hbefore, rfl⟩ := List.mem_map.mp hslot'
    split_ifs
    · exact (hprobes (stream, none) hslot : waited ≤ _)
    · exact hprobes before hbefore
  · rw [hphase] at h
    have hbound := (h.2 _ (List.mem_of_find?_eq_some hfind)).bound
    simp only [Dial.OnTime, Dial.answered, List.length_append, List.length_singleton, Nat.add_mul]
    omega
  · rw [hphase] at h
    obtain ⟨rfl, hprobes⟩ := h
    refine Dial.probes_onTime (hprobes _ (List.mem_of_find?_eq_some hfind)).bound ?_
    exact fun slot hslot => hprobes slot (List.mem_filter.mp hslot).1
  · rw [hphase] at h
    obtain ⟨rfl, hprobes⟩ := h
    refine ⟨rfl, fun slot hslot => ?_⟩
    obtain ⟨before, hbefore, rfl⟩ := List.mem_map.mp hslot
    split_ifs
    · exact (hprobes _ (List.mem_of_find?_eq_some hfind)).step hp hresult
    · exact hprobes before hbefore
  · exact hold.elapse hallows

-- What a dial has waited, besides the time in which a probe had no timer.
theorem Dial.OnTime.bound (h : dial.OnTime timeout waited extra) (hcounted : dial.Counted) :
    waited ≤ (dial.rounds.length + dial.running.toNat) * timeout + extra := by
  unfold Dial.OnTime at h
  unfold Dial.Counted at hcounted
  cases hphase : dial.phase with
  | announcing stream write =>
      rw [hphase] at h
      exact h.elim
  | opening left opened =>
      rw [hphase] at h
      simp only [Dial.running, hphase, Bool.toNat_true, Nat.add_mul]
      omega
  | returned result =>
      rw [hphase] at h
      simpa [Dial.running, hphase] using h
  | probing limit probes =>
      rw [hphase] at h hcounted
      obtain ⟨slot, hslot⟩ := List.exists_mem_of_ne_nil probes hcounted.2
      have hbound := (h.2 slot hslot).bound
      simp only [Dial.running, hphase, Bool.toNat_true, Nat.add_mul]
      omega

end

theorem dial_onTime {settings : DialSettings} {probe : ProbeSettings} {start dial : Dial}
    {events : List DialEvent} (hprobe : settings.probe = some probe)
    (hstart : start.OnTime probe.timeout 0 0)
    (hr : (Dial.step settings).run start events = some dial) :
    dial.OnTime probe.timeout
      ((Dial.step settings).spent DialEvent.delay Dial.waiting start events)
      ((Dial.step settings).spent DialEvent.delay Dial.unguarded start events) := by
  refine Machine.run_history (fun events dial => Dial.OnTime probe.timeout
    ((Dial.step settings).spent DialEvent.delay Dial.waiting start events)
    ((Dial.step settings).spent DialEvent.delay Dial.unguarded start events) dial) hstart ?_ hr
  intro events dial event next hr h hs
  rw [Machine.spent_concat _ _ hr hs, Machine.spent_concat _ _ hr hs]
  exact h.step hprobe hs

-- A round by itself is over with its first result.
theorem Dial.Disposes.rounds {settings : DialSettings} {size nextStream : Nat}
    {dropped : List StreamId} {dial : Dial}
    (h : dial.Disposes settings size nextStream dropped) :
    dial.rounds.length + dial.running.toNat ≤ 1 := by
  obtain ⟨hrounds, -, -⟩ | ⟨round, result, hphase, hrounds, -⟩ := h.round
  · rw [hrounds, List.length_nil, Nat.zero_add]
    exact Bool.toNat_le _
  · have hcounted := h.counted
    unfold Dial.Counted at hcounted
    rw [hphase] at hcounted
    cases result with
    | ok dialled =>
        have hsame : dialled.rounds = [round] := hrounds
        simp [Dial.running, hphase, ← hcounted.1, hsame]
    | error gaveUp =>
        have hsame : gaveUp.rounds = [round] := hrounds
        simp [Dial.running, hphase, ← hcounted.1, hsame]

-- A probe is held to its timeout from the end of its write on, so a call that
-- writes at once gives up in time, and no other is sure to. A round, and the
-- rounds of a dial, wait for their timeouts and for the probes without a timer.
theorem probes_give_up (settings : DialSettings) (probe : ProbeSettings)
    (hprobe : settings.probe = some probe) :
    (∀ (start : Nat) (sent : Header) (events : List CallEvent) (call : ProbeCall),
      (ProbeCall.step probe.timeout).run (.start start sent) events = some call →
      call.probe.result = none →
      ((∀ more last, (ProbeCall.step probe.timeout).run call more = some last →
          last.probe.result = none → last.now ≤ start + probe.timeout) ↔
        Probe.guarded (some call.probe) ∧ (ProbeCall.step probe.timeout).spent CallEvent.delay
          ProbeCall.unguarded (.start start sent) events = 0) ∧
      ∀ time, call.step probe.timeout (.elapse time) = none →
        ∃ left < time, (ProbeCall.step probe.timeout).run call [.elapse left, .wait .expired] =
          some ⟨call.now + left, .returned (.error (.TimedOut probe.timeout))⟩) ∧
    (∀ (size elapsed nextStream : Nat) (events : List DialEvent) (dial : Dial),
      (Dial.step settings).run (Dial.runRound settings size elapsed nextStream) events =
        some dial →
      (Dial.step settings).spent DialEvent.delay Dial.waiting
          (Dial.runRound settings size elapsed nextStream) events ≤
        probe.timeout + (Dial.step settings).spent DialEvent.delay Dial.unguarded
          (Dial.runRound settings size elapsed nextStream) events) ∧
    ∀ (events : List DialEvent) (dial : Dial),
      (Dial.step settings).run (.start settings) events = some dial →
      (Dial.step settings).spent DialEvent.delay Dial.waiting (.start settings) events ≤
        settings.mostRounds * probe.timeout +
          (Dial.step settings).spent DialEvent.delay Dial.unguarded (.start settings) events := by
  refine ⟨?_, ?_, ?_⟩
  · intro start sent events call hr hresult
    exact ⟨ProbeCall.bounded_iff hr hresult, fun time => ProbeCall.expires hr hresult⟩
  · intro size elapsed nextStream events dial hr
    have hstart : (Dial.runRound settings size elapsed nextStream).OnTime probe.timeout 0 0 :=
      Dial.opens_onTime hprobe (Nat.zero_le _)
    have hdisposes := run_round_disposes hr
    have hbound := (dial_onTime hprobe hstart hr).bound hdisposes.counted
    have hone := Nat.mul_le_mul_right probe.timeout hdisposes.rounds
    omega
  · intro events dial hr
    have hstart : (Dial.start settings).OnTime probe.timeout 0 0 :=
      Dial.turn_onTime (Nat.zero_le _)
    have hbound := (dial_onTime hprobe hstart hr).bound (dial_counted hr).1
    have hmost := Nat.mul_le_mul_right probe.timeout (dial_budgeted hr).bounded.1
    omega

-- Four attempts in two rounds: two streams stay silent to the end, and the third
-- one answers.
def silentPair : DialSettings where
  probe := some {
    timeout := 10, attempts := 4, concurrency := 2, attempts_pos := Nat.succ_pos 3
    concurrency_pos := Nat.two_pos }

def silentThenAnswered : List DialEvent :=
  [.opened, .opened, .polled 0 7, .polled 1 8, .wait 0 (.io (.wrote 14)),
    .wait 1 (.io (.wrote 14)), .wait 0 (.io .flushed), .wait 1 (.io .flushed), .elapse 10,
    .wait 0 .expired, .wait 1 .expired, .elapse 3, .opened, .opened, .polled 2 9, .polled 3 10,
    .wait 2 (.io (.wrote 14)), .wait 3 (.io (.wrote 14)), .wait 2 (.io .flushed),
    .wait 3 (.io .flushed), .elapse 4, .wait 2 (.io (.read (Header.encode ⟨true, 9⟩)))]

theorem silent_pair_gives_up :
    (∀ more last, (ProbeCall.step 10).run ⟨5, .awaiting 5 ⟨true, 7⟩ 15 .start⟩ more = some last →
      last.probe.result = none → last.now ≤ 15) ∧
    ∃ dial, (Dial.step silentPair).run (.start silentPair) silentThenAnswered = some dial ∧
      dial.running = false ∧
      (Dial.step silentPair).spent DialEvent.delay Dial.waiting (.start silentPair)
        silentThenAnswered ≤ 2 * 10 := by
  obtain ⟨hcall, -, hdial⟩ := probes_give_up silentPair _ rfl
  constructor
  · exact (hcall 5 ⟨true, 7⟩ [.wait (.io (.wrote 14)), .wait (.io .flushed)] _
      (by decide +kernel) rfl).1.mpr ⟨rfl, by decide +kernel⟩
  · obtain ⟨dial, hr, hrunning⟩ : ∃ dial,
        (Dial.step silentPair).run (.start silentPair) silentThenAnswered = some dial ∧
        dial.running = false := Option.map_eq_some_iff.mp (by decide +kernel)
    refine ⟨dial, hr, hrunning, (hdial silentThenAnswered dial hr).trans ?_⟩
    decide +kernel

-- A stream that takes none of the header keeps its probe, and the dial with it.
theorem unwritten_header_waits :
    (¬∀ (timeout start : Nat) (sent : Header) (events : List CallEvent) (call : ProbeCall),
      (ProbeCall.step timeout).run (.start start sent) events = some call →
      call.probe.result = none → call.now ≤ start + timeout) ∧
    ¬∀ (settings : DialSettings) (probe : ProbeSettings) (events : List DialEvent) (dial : Dial),
      settings.probe = some probe →
      (Dial.step settings).run (.start settings) events = some dial →
      (Dial.step settings).spent DialEvent.delay Dial.waiting (.start settings) events ≤
        settings.mostRounds * probe.timeout := by
  constructor
  · intro hclaim
    exact absurd (hclaim 10 0 ⟨true, 7⟩ [.elapse 11] _ rfl rfl) (by decide)
  · intro hclaim
    have hwaited := hclaim
      ⟨some { timeout := 10, attempts := 1, concurrency := 1, attempts_pos := Nat.one_pos
              concurrency_pos := Nat.one_pos }⟩ _ [.opened, .polled 0 7, .elapse 11] _ rfl rfl
    exact absurd hwaited (by decide +kernel)

end LwdMixnet
