import LwdMixnet.Carry
import LwdMixnet.Dial.Rounds
import LwdMixnet.Streaks.Process

namespace LwdMixnet

-- A dial of the process, with all that happened to it.
structure Resolved (settings : DialSettings) where
  events : List DialEvent
  dial : Dial
  result : Except GaveUp Dialled
  ran : (Dial.step settings).run (.start settings) events = some dial
  returned : dial.phase = .returned result

def Resolved.outcome {settings : DialSettings} (resolved : Resolved settings) : Outcome :=
  settings.outcome resolved.result

def Resolved.OpenedNothing {settings : DialSettings} (resolved : Resolved settings) : Prop :=
  .opened ∉ resolved.events

theorem Resolved.outcome_iff {settings : DialSettings} (resolved : Resolved settings) :
    resolved.outcome = .NothingOpened ↔ resolved.OpenedNothing := by
  obtain ⟨events, dial, result, hran, hreturned⟩ := resolved
  change settings.outcome result = .NothingOpened ↔ .opened ∉ events
  cases result with
  | ok dialled =>
      refine ⟨fun h => ?_, fun h => absurd (opened_of_dialled hran hreturned) h⟩
      simp only [DialSettings.outcome] at h
      split at h <;> cases h
  | error gaveUp =>
      rw [← nothingOpened_iff hran hreturned]
      simp [DialSettings.outcome]

theorem refusalRun_concat (outcomes : List Outcome) (outcome : Outcome) :
    refusalRun (outcomes ++ [outcome]) =
      if outcome = .NothingOpened then refusalRun outcomes + 1 else 0 := by
  unfold refusalRun
  split_ifs with h <;> simp [h]

-- A run of refusals reaches a length when that many outcomes in a row, the
-- latest one included, were refusals.
theorem le_refusalRun_iff {δ : Type*} (outcome : δ → Outcome) (count : Nat) (dials : List δ) :
    count ≤ refusalRun (dials.map outcome) ↔
      ∃ earlier latest, dials = earlier ++ latest ∧ latest.length = count ∧
        ∀ dial ∈ latest, outcome dial = .NothingOpened := by
  induction dials using List.reverseRecOn generalizing count with
  | nil =>
      refine ⟨fun h => ⟨[], [], rfl, (Nat.le_zero.mp h).symm, by simp⟩, ?_⟩
      rintro ⟨earlier, latest, hsplit, hlen, -⟩
      have hempty := (List.append_eq_nil_iff.mp hsplit.symm).2
      simp [← hlen, hempty]
  | append_singleton dials dial ih =>
      rw [List.map_append, List.map_cons, List.map_nil, refusalRun_concat]
      cases count with
      | zero =>
          refine ⟨fun _ => ⟨dials ++ [dial], [], ?_, rfl, ?_⟩, fun _ => Nat.zero_le _⟩
          · simp
          · simp
      | succ count =>
          constructor
          · intro h
            split_ifs at h with hrefused
            · obtain ⟨earlier, latest, rfl, hlen, hall⟩ := (ih count).mp (Nat.le_of_succ_le_succ h)
              refine ⟨earlier, latest ++ [dial], by simp, by simp [hlen], ?_⟩
              intro other hother
              rcases List.mem_append.mp hother with hother | hother
              · exact hall other hother
              · rwa [List.mem_singleton.mp hother]
            · omega
          · rintro ⟨earlier, latest, hsplit, hlen, hall⟩
            obtain rfl | ⟨front, last, rfl⟩ := List.eq_nil_or_concat latest
            · simp at hlen
            rw [List.concat_eq_append, ← List.append_assoc] at hsplit
            obtain ⟨rfl, hlast⟩ := List.append_inj' hsplit rfl
            obtain rfl := List.singleton_inj.mp hlast
            rw [if_pos (hall dial (by simp))]
            refine Nat.succ_le_succ ((ih count).mpr ⟨earlier, front, rfl, by simpa using hlen, ?_⟩)
            exact fun other hother => hall other (by simp [hother])

-- Nothing wakes the main loop but a call of `notify_one`.
def Process.Called {δ : Type*} (process : Process δ) : Prop :=
  process.streaks.clientIsDead.permit ∨ process.streaks.clientIsDead.Ready →
    0 < process.signalled

theorem Notify.poll_called {notify next : Notify} {ready : Bool}
    (h : notify.poll = some (next, ready)) (hnext : next.permit ∨ next.Ready) :
    notify.permit ∨ notify.Ready := by
  obtain ⟨permit, notified⟩ := notify
  cases notified with
  | initial =>
      cases permit <;> cases h
      · simp [Notify.Ready] at hnext
      · exact Or.inl rfl
  | waiting =>
      cases h
      exact hnext
  | called => exact Or.inr trivial
  | done => cases h

section

variable {δ : Type*} {outcome : δ → Outcome} {process next : Process δ}

theorem Process.Called.step {event : ProcessEvent δ} (h : process.Called)
    (hs : process.step outcome event = some next) : next.Called := by
  cases event with
  | signal id =>
      simp only [Process.step] at hs
      split at hs <;> cases hs
      unfold Process.Called
      by_cases hsignals : process.streaks.signals
      · simp [hsignals]
      · have hsame : process.streaks.signal = process.streaks := if_neg hsignals
        rw [hsame, Bool.eq_false_of_not_eq_true hsignals]
        exact h
  | flag id =>
      simp only [Process.step] at hs
      split at hs <;> cases hs
      unfold Process.Called
      rw [process.streaks.flag_rest.1]
      exact h
  | poll =>
      simp only [Process.step] at hs
      split at hs <;> cases hs
      rename_i clientIsDead ready hpoll
      exact fun hready => h (Notify.poll_called hpoll hready)
  | accepted _ | resolved _ _ | count _ | gauge _ | unwound _ | closed _ =>
      simp only [Process.step] at hs
      split at hs <;> cases hs <;> exact h

theorem process_called {events : List (ProcessEvent δ)}
    (hr : (Process.step outcome).run {} events = some process) : process.Called := by
  refine Machine.run_invariant _ (fun _ _ _ h hs => h.step hs) ?_ hr
  simp [Process.Called, Notify.Ready]

-- A fold calls `notify_one` when its run of refusals is at the limit.
theorem Process.signals_iff {events : List (ProcessEvent δ)} {id : ConnectionId}
    (hr : (Process.step outcome).run {} events = some process)
    (hs : process.step outcome (.signal id) = some next) :
    process.signalled < next.signalled ↔
      REFUSAL_LIMIT ≤ refusalRun (process.folded.map outcome) := by
  obtain ⟨-, -, -, hsignalled⟩ := Process.at_signal hr hs
  rw [hsignalled, ← (process_sound hr).counts.1]
  cases hsignals : process.streaks.signals with
  | true => simpa using of_decide_eq_true hsignals
  | false => simpa using of_decide_eq_false hsignals

theorem Process.poll_exits {events : List (ProcessEvent δ)}
    (hr : (Process.step outcome).run {} events = some process) (hcalled : 0 < process.signalled)
    (hrunning : ¬process.exiting) :
    ∃ next, process.step outcome .poll = some next ∧ next.exiting := by
  have hsound := process_sound hr
  have hready := hsound.signal hcalled
  cases hpoll : process.streaks.clientIsDead.poll with
  | none =>
      refine absurd (hsound.exiting.mpr ?_) hrunning
      cases hn : process.streaks.clientIsDead.notified <;> simp [Notify.poll, hn] at hpoll ⊢
      split at hpoll <;> cases hpoll
  | some polled =>
      obtain ⟨clientIsDead, ready⟩ := polled
      refine ⟨_, by simp only [Process.step, hpoll]; rfl, ?_⟩
      exact ((Notify.poll_some hpoll).1 hready).2

end

-- The process exits for a dead local client exactly when it should: the fold
-- of a dial calls `notify_one` if that dial and the four before it opened
-- nothing, a dial that opened a stream ends the run, and a call is never lost.
theorem exits_exactly (settings : DialSettings) :
    (∀ (events : List (ProcessEvent (Resolved settings))) (id : ConnectionId)
      (dial : Resolved settings) (before after : Process (Resolved settings)),
      (Process.step Resolved.outcome).run {} events = some before →
      before.connections id = .folding dial .flagged →
      before.step Resolved.outcome (.signal id) = some after →
      (before.signalled < after.signalled ↔ dial.OpenedNothing ∧
        ∃ earlier four, before.folded = earlier ++ four ++ [dial] ∧ four.length = 4 ∧
          ∀ other ∈ four, other.OpenedNothing)) ∧
    (∀ (events : List (ProcessEvent (Resolved settings))) (event : ProcessEvent (Resolved settings))
      (before after : Process (Resolved settings)),
      (Process.step Resolved.outcome).run {} events = some before →
      before.step Resolved.outcome event = some after → before.signalled ≠ after.signalled →
      ∃ id, event = .signal id) ∧
    (∀ (events : List (ProcessEvent (Resolved settings))) (id : ConnectionId)
      (dial : Resolved settings) (before after : Process (Resolved settings)),
      (Process.step Resolved.outcome).run {} events = some before →
      before.connections id = .resolved dial →
      before.step Resolved.outcome (.count id) = some after → ¬dial.OpenedNothing →
      after.streaks.counts.refusals = 0) ∧
    (∀ (events : List (ProcessEvent (Resolved settings))) (process : Process (Resolved settings)),
      (Process.step Resolved.outcome).run {} events = some process →
      (process.exiting → 0 < process.signalled) ∧
      (0 < process.signalled → ¬process.exiting →
        ∃ next, process.step Resolved.outcome .poll = some next ∧ next.exiting)) := by
  refine ⟨?_, fun events event before after _ hs hne => Process.only_signal hs hne, ?_, ?_⟩
  · intro events id dial before after hr hid hs
    have hlatest := (process_sound hr).latest id dial _ hid
    rw [Process.signals_iff hr hs, le_refusalRun_iff]
    constructor
    · rintro ⟨earlier, latest, hsplit, hlen, hall⟩
      obtain rfl | ⟨four, last, rfl⟩ := List.eq_nil_or_concat latest
      · simp [REFUSAL_LIMIT] at hlen
      rw [List.concat_eq_append] at hsplit hlen hall
      obtain rfl : last = dial := by simpa [hsplit] using hlatest
      refine ⟨last.outcome_iff.mp (hall last (by simp)), earlier, four, by simp [hsplit], ?_, ?_⟩
      · simpa [REFUSAL_LIMIT] using hlen
      · exact fun other hother => other.outcome_iff.mp (hall other (by simp [hother]))
    · rintro ⟨hdial, earlier, four, hsplit, hlen, hall⟩
      refine ⟨earlier, four ++ [dial], by simp [hsplit], by simp [hlen, REFUSAL_LIMIT], ?_⟩
      intro other hother
      rw [Resolved.outcome_iff]
      rcases List.mem_append.mp hother with hother | hother
      · exact hall other hother
      · rwa [List.mem_singleton.mp hother]
  · intro events id dial before after hr hid hs hopened
    have hafter : (Process.step Resolved.outcome).run {} (events ++ [.count id]) = some after :=
      Machine.run_snoc hr hs
    have hfolded : after.folded = before.folded ++ [dial] := by
      simp only [Process.step, hid] at hs
      split at hs <;> cases hs
      rename_i heq hholder
      cases heq
      rfl
    rw [(process_sound hafter).counts.1, hfolded, List.map_append, List.map_cons, List.map_nil,
      refusalRun_concat, if_neg (by rwa [Resolved.outcome_iff])]
  · intro events process hr
    refine ⟨fun hexiting => process_called hr (Or.inr ?_), Process.poll_exits hr⟩
    unfold Notify.Ready
    rw [(process_sound hr).exiting.mp hexiting]
    trivial

-- Three opens over two rounds, all of them refused, five times over.
def refusedSettings : DialSettings where
  probe := some {
    timeout := 10
    attempts := 3
    concurrency := 2
    attempts_pos := by decide
    concurrency_pos := by decide }

def refusedDial : Resolved refusedSettings where
  events := [.refused 1, .elapse 4, .refused 1, .refused 1]
  dial := ((Dial.step refusedSettings).run (.start refusedSettings)
    [.refused 1, .elapse 4, .refused 1, .refused 1]).get (by decide)
  result := .error { rounds := [
    { discarded := [⟨0, .Open 1⟩, ⟨4, .Open 1⟩] }, { discarded := [⟨0, .Open 1⟩] }] }
  ran := by decide
  returned := by decide

def refusedRun : List (ProcessEvent (Resolved refusedSettings)) :=
  (List.range 5).flatMap fun id =>
    [.poll, .accepted id, .resolved id refusedDial, .count id, .gauge id, .flag id] ++
      if id = 4 then [] else [.signal id]

theorem refused_run_exits : ∃ before after next,
    (Process.step Resolved.outcome).run {} refusedRun = some before ∧
    before.step Resolved.outcome (.signal 4) = some after ∧
    before.signalled < after.signalled ∧
    after.step Resolved.outcome .poll = some next ∧ next.exiting := by
  have hopened : refusedDial.OpenedNothing := by simp [Resolved.OpenedNothing, refusedDial]
  obtain ⟨hsignals, -, -, hpoll⟩ := exits_exactly refusedSettings
  have hsignalled := (hsignals refusedRun 4 refusedDial _ _ rfl rfl rfl).mpr
    ⟨hopened, [], List.replicate 4 refusedDial, rfl, rfl, by simp [hopened]⟩
  obtain ⟨next, hs, hexiting⟩ := (hpoll (refusedRun ++ [.signal 4]) _ rfl).2 (by decide) (by decide)
  exact ⟨_, _, next, rfl, rfl, hsignalled, hs, hexiting⟩

end LwdMixnet
