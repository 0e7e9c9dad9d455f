import LwdMixnet.Dial.Accounts

namespace LwdMixnet

-- The attempts in whole rounds, rounded up.
def DialSettings.mostRounds (settings : DialSettings) : Nat :=
  (settings.attempts + settings.concurrency - 1) / settings.concurrency

def Dial.running (dial : Dial) : Bool :=
  match dial.phase with
  | .returned _ => false
  | _ => true

section

variable {settings : DialSettings} {dial : Dial} {rounds : List Round}

theorem le_mostRounds {count : Nat}
    (h : count = 0 ∨ (count - 1) * settings.concurrency < settings.attempts) :
    count ≤ settings.mostRounds := by
  have hpos := settings.concurrency_pos
  rw [DialSettings.mostRounds, Nat.le_div_iff_mul_le hpos]
  rcases h with rfl | h
  · omega
  · cases count with
    | zero => omega
    | succ count =>
        rw [Nat.add_sub_cancel] at h
        rw [Nat.add_mul, Nat.one_mul]
        omega

theorem mostRounds_le {count : Nat} (h : settings.attempts ≤ count * settings.concurrency) :
    settings.mostRounds ≤ count := by
  have hpos := settings.concurrency_pos
  rw [DialSettings.mostRounds, Nat.div_le_iff_le_mul_add_pred hpos, Nat.mul_comm]
  omega

-- The shares of the first rounds add up to what they may spend.
theorem sum_size (settings : DialSettings) (count : Nat) :
    ((List.range count).map settings.size).sum =
      min settings.attempts (count * settings.concurrency) := by
  induction count with
  | zero => simp
  | succ count ih =>
      rw [List.range_succ, List.map_append, List.sum_append, ih, Nat.add_mul, Nat.one_mul]
      simp only [DialSettings.size, List.map_cons, List.map_nil, List.sum_cons, List.sum_nil]
      omega

theorem Dial.Shared.attempts (h : Dial.Shared settings rounds) :
    (rounds.map Round.attempted).sum = min settings.attempts
      (rounds.length * settings.concurrency) := by
  rw [← sum_size]
  congr 1
  refine List.ext_getElem (by simp) fun index hleft hright => ?_
  have hindex : index < rounds.length := by simpa using hleft
  have hround := h index rounds[index] (List.getElem?_eq_getElem hindex)
  simpa using hround.attempted

theorem Dial.Looping.lastError (h : Dial.Looping settings rounds) (hne : rounds ≠ []) :
    (GaveUp.lastError ⟨rounds⟩).isSome := by
  obtain ⟨last, hlast⟩ := Option.ne_none_iff_exists'.mp (mt List.getLast?_eq_none_iff.mp hne)
  have hindex := hlast
  rw [List.getLast?_eq_getElem?] at hindex
  have hanswered := h.unanswered last (List.mem_of_getLast? hlast)
  have hlen := (h.shared.discards hindex hanswered).2
  have hpos : 0 < settings.size (rounds.length - 1) := by
    have hlong := List.length_pos_iff.mpr hne
    rcases h.needed with hzero | hneeded
    · omega
    · exact Nat.lt_min.mpr ⟨settings.concurrency_pos, Nat.sub_pos_of_lt hneeded⟩
  have hdiscarded : last.discarded ≠ [] := by
    apply List.ne_nil_of_length_pos
    rwa [hlen]
  obtain ⟨stream, hstream⟩ :=
    Option.ne_none_iff_exists'.mp (mt List.getLast?_eq_none_iff.mp hdiscarded)
  simp [GaveUp.lastError, hlast, hstream]

-- The attempts that are left and the ones the rounds were given, the current
-- round included, are all there ever were.
theorem Dial.Budgeted.remaining (h : dial.Budgeted settings) (hrunning : dial.running) :
    dial.remaining + ((List.range (dial.rounds.length + 1)).map settings.size).sum =
      settings.attempts := by
  unfold Dial.Budgeted at h
  split at h
  · rename_i hphase
    simp [Dial.running, hphase] at hrunning
  · rename_i hphase
    simp [Dial.running, hphase] at hrunning
  · obtain ⟨-, hneeded, hremaining, -⟩ := h
    rw [List.range_succ, List.map_append, List.sum_append, sum_size]
    simp only [List.map_cons, List.map_nil, List.sum_cons, List.sum_nil]
    omega

theorem Dial.Budgeted.bounded (h : dial.Budgeted settings) :
    dial.rounds.length + dial.running.toNat ≤ settings.mostRounds ∧
      ∀ round ∈ dial.rounds.dropLast, round.answered = false := by
  unfold Dial.Budgeted at h
  split at h
  · rename_i hphase
    obtain ⟨-, -, earlier, last, hrounds, hlooping, hneeded, -⟩ := h
    refine ⟨le_mostRounds (Or.inr ?_), ?_⟩
    · simpa [hrounds, Dial.running, hphase] using hneeded
    · rw [hrounds, List.dropLast_concat]
      exact hlooping.unanswered
  · rename_i hphase
    refine ⟨le_mostRounds ?_,
      fun round hround => h.2.1.unanswered round (List.dropLast_subset _ hround)⟩
    simpa [Dial.running, hphase] using h.2.1.needed
  · refine ⟨le_mostRounds (Or.inr ?_),
      fun round hround => h.1.unanswered round (List.dropLast_subset _ hround)⟩
    cases hrunning : dial.running
    · exact Nat.lt_of_le_of_lt (Nat.mul_le_mul_right _ (Nat.sub_le _ _)) h.2.1
    · simpa using h.2.1

end

-- Without probes there is one attempt to spend.
theorem Dial.Budgeted.once {settings : DialSettings} {dial : Dial} (h : dial.Budgeted settings)
    (hprobe : settings.probe = none) (hne : dial.rounds ≠ []) :
    ∃ round, dial.rounds = [round] ∧ round.attempted = 1 := by
  have hmost := h.bounded.1
  have hone : settings.mostRounds = 1 := by
    simp [DialSettings.mostRounds, DialSettings.attempts, DialSettings.concurrency, hprobe]
  obtain ⟨round, hround⟩ : ∃ round, dial.rounds = [round] := by
    have hpos := List.length_pos_iff.mpr hne
    exact List.length_eq_one_iff.mp (by omega)
  refine ⟨round, hround, ?_⟩
  have hattempted := (h.shared 0 round (by simp [hround])).attempted
  simpa [DialSettings.size, DialSettings.attempts, DialSettings.concurrency, hprobe] using
    hattempted

-- The attempts are spent exactly, in whole rounds that stop at the first answer.
theorem budget_spent (settings : DialSettings) (events : List DialEvent) (dial : Dial)
    (hr : (Dial.step settings).run (.start settings) events = some dial) :
    (∀ index round, dial.rounds[index]? = some round → round.attempted =
      min settings.concurrency (settings.attempts - index * settings.concurrency)) ∧
    (dial.running → dial.remaining +
      ((List.range (dial.rounds.length + 1)).map settings.size).sum = settings.attempts) ∧
    dial.rounds.length + dial.running.toNat ≤ settings.mostRounds ∧
    (∀ round ∈ dial.rounds.dropLast, round.answered = false) ∧
    ∀ result, dial.phase = .returned result →
      ((∃ dialled, result = .ok dialled) ↔ ∃ last ∈ dial.rounds.getLast?, last.answered = true) ∧
      ((∃ gaveUp, result = .error gaveUp) ↔ dial.rounds.length = settings.mostRounds ∧
        ∀ round ∈ dial.rounds, round.answered = false) ∧
      (∀ dialled, result = .ok dialled → dialled.rounds = dial.rounds) ∧
      (∀ gaveUp, result = .error gaveUp → gaveUp.rounds = dial.rounds ∧
        gaveUp.attempts = settings.attempts ∧ gaveUp.rounds ≠ [] ∧ gaveUp.lastError.isSome) ∧
      (settings.probe = none → ∃ round, dial.rounds = [round] ∧ round.attempted = 1) := by
  have hbudgeted := dial_budgeted hr
  have hshared := hbudgeted.shared
  obtain ⟨hmost, hearlier⟩ := hbudgeted.bounded
  refine ⟨fun index round hround => (hshared index round hround).attempted,
    hbudgeted.remaining, hmost, hearlier, fun result hphase => ?_⟩
  cases result with
  | ok dialled =>
      have hended := hbudgeted
      simp only [Dial.Budgeted, hphase] at hended
      obtain ⟨hrounds, -, earlier, last, hlast, -, -, hanswered⟩ := hended
      refine ⟨?_, ?_, ?_, ?_, fun hprobe => hbudgeted.once hprobe (by simp [hlast])⟩
      · exact ⟨fun _ => ⟨last, by simp [hlast], hanswered⟩, fun _ => ⟨dialled, rfl⟩⟩
      · constructor
        · rintro ⟨gaveUp, he⟩
          cases he
        · rintro ⟨-, hnone⟩
          rw [hnone last (by simp [hlast])] at hanswered
          cases hanswered
      · intro other he
        cases he
        exact hrounds
      · intro gaveUp he
        cases he
  | error gaveUp =>
      have hended := hbudgeted
      simp only [Dial.Budgeted, hphase] at hended
      obtain ⟨hsame, hlooping, hall⟩ := hended
      have hne : dial.rounds ≠ [] := by
        intro hnil
        rw [hnil, List.length_nil, Nat.zero_mul] at hall
        exact absurd settings.attempts_pos (Nat.not_lt_of_le hall)
      refine ⟨?_, ?_, ?_, ?_, fun hprobe => hbudgeted.once hprobe hne⟩
      · constructor
        · rintro ⟨dialled, he⟩
          cases he
        · rintro ⟨last, hlast, hanswered⟩
          rw [hlooping.unanswered last (List.mem_of_getLast? hlast)] at hanswered
          cases hanswered
      · have hrounds := Nat.le_antisymm ((Nat.le_add_right _ _).trans hmost) (mostRounds_le hall)
        exact ⟨fun _ => ⟨hrounds, hlooping.unanswered⟩, fun _ => ⟨gaveUp, rfl⟩⟩
      · intro dialled he
        cases he
      · intro other he
        cases he
        obtain ⟨rounds⟩ := gaveUp
        obtain rfl : rounds = dial.rounds := hsame
        refine ⟨rfl, ?_, hne, hlooping.lastError hne⟩
        rw [GaveUp.attempts, hshared.attempts]
        exact Nat.min_eq_left hall

-- Five attempts in rounds of two: the first round is refused, and of the second
-- one stream answers.
def fiveInTwos : DialSettings where
  probe := some {
    timeout := 10, attempts := 5, concurrency := 2, attempts_pos := Nat.succ_pos 4
    concurrency_pos := Nat.two_pos }

def answeredSecond : List DialEvent :=
  [.refused 1, .refused 1, .opened, .opened, .polled 0 7, .polled 1 8,
    .wait 1 (.io (.wrote 14)), .wait 1 (.io .flushed),
    .wait 1 (.io (.read (Header.encode ⟨true, 8⟩)))]

theorem answered_second_spent : ∃ dial,
    (Dial.step fiveInTwos).run (.start fiveInTwos) answeredSecond = some dial ∧
    dial.rounds.map Round.attempted = [2, 2] ∧
    ∃ last ∈ dial.rounds.getLast?, last.answered = true := by
  obtain ⟨dial, hr, hphase⟩ : ∃ dial,
      (Dial.step fiveInTwos).run (.start fiveInTwos) answeredSecond = some dial ∧
      dial.phase = .returned (.ok ⟨1, 0,
        [⟨0, [⟨0, .Open 1⟩, ⟨0, .Open 1⟩], false⟩, ⟨2, [], true⟩]⟩) :=
    Option.map_eq_some_iff.mp (by decide +kernel)
  obtain ⟨hattempted, -, -, -, hreturned⟩ := budget_spent fiveInTwos answeredSecond dial hr
  obtain ⟨hanswered, -, hrounds, -, -⟩ := hreturned _ hphase
  refine ⟨dial, hr, ?_, hanswered.mp ⟨_, rfl⟩⟩
  have hfirst := hattempted 0 _ (by rw [← hrounds _ rfl]; rfl)
  have hsecond := hattempted 1 _ (by rw [← hrounds _ rfl]; rfl)
  rw [← hrounds _ rfl, List.map_cons, List.map_cons, List.map_nil, hfirst, hsecond]
  rfl

end LwdMixnet
