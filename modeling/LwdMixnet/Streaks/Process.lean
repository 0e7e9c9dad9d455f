import LwdMixnet.Streaks

namespace LwdMixnet

abbrev ConnectionId := Nat

-- How far a fold that holds the lock has come.
inductive Folding
  | counted
  | gauged
  | flagged
  deriving DecidableEq, Repr

inductive Connection (δ : Type*)
  | absent
  | dialling
  | resolved (dial : δ)
  | folding (dial : δ) (stage : Folding)
  | carrying
  | ended
  deriving DecidableEq, Repr

-- The dialling half as its streaks see it: connections that fold their dials
-- one update at a time, and a main loop that polls for the signal. `folded` are
-- the dials that were counted, in the order of the lock, and `signalled` how
-- often `notify_one` was called.
structure Process (δ : Type*) where
  streaks : Streaks := {}
  connections : ConnectionId → Connection δ := fun _ => .absent
  holder : Option ConnectionId := none
  poisoned : Bool := false
  folded : List δ := []
  signalled : Nat := 0
  exiting : Bool := false

inductive ProcessEvent (δ : Type*)
  | accepted (id : ConnectionId)
  | resolved (id : ConnectionId) (dial : δ)
  | count (id : ConnectionId)
  | gauge (id : ConnectionId)
  | flag (id : ConnectionId)
  | signal (id : ConnectionId)
  | unwound (id : ConnectionId)
  | closed (id : ConnectionId)
  | poll
  deriving DecidableEq, Repr

def Process.move {δ : Type*} (process : Process δ) (id : ConnectionId)
    (connection : Connection δ) : Process δ :=
  { process with connections := Function.update process.connections id connection }

-- A poisoned lock is taken like any other. A fold is completed by its `signal`,
-- and one that unwinds after the counts leaves the rest of it undone.
def Process.step {δ : Type*} (outcome : δ → Outcome) : Machine (Process δ) (ProcessEvent δ) :=
  fun process event =>
    match event with
    | .accepted id =>
        match process.connections id with
        | .absent => some (process.move id .dialling)
        | _ => none
    | .resolved id dial =>
        match process.connections id with
        | .dialling => some (process.move id (.resolved dial))
        | _ => none
    | .count id =>
        match process.connections id, process.holder with
        | .resolved dial, none => some { process.move id (.folding dial .counted) with
            streaks := process.streaks.count (outcome dial)
            holder := some id
            folded := process.folded ++ [dial] }
        | _, _ => none
    | .gauge id =>
        match process.connections id with
        | .folding dial .counted => some { process.move id (.folding dial .gauged) with
            streaks := process.streaks.gauge }
        | _ => none
    | .flag id =>
        match process.connections id with
        | .folding dial .gauged => some { process.move id (.folding dial .flagged) with
            streaks := process.streaks.flag }
        | _ => none
    | .signal id =>
        match process.connections id with
        | .folding _ .flagged => some { process.move id .carrying with
            streaks := process.streaks.signal
            holder := none
            signalled := process.signalled + process.streaks.signals.toNat }
        | _ => none
    | .unwound id =>
        match process.connections id with
        | .folding _ _ => some { process.move id .ended with holder := none, poisoned := true }
        | _ => none
    | .closed id =>
        match process.connections id with
        | .dialling | .carrying => some (process.move id .ended)
        | _ => none
    | .poll =>
        match process.streaks.clientIsDead.poll with
        | some (clientIsDead, ready) =>
            some { process with streaks := { process.streaks with clientIsDead }, exiting := ready }
        | none => none

-- What a fold that holds the lock has brought in line with the counts.
def Folding.Done (streaks : Streaks) : Folding → Prop
  | .counted => True
  | .gauged => streaks.metrics.failedInARow = streaks.counts.deadEnds
  | .flagged => streaks.metrics.failedInARow = streaks.counts.deadEnds ∧
      (streaks.health.isDegraded ↔ DEAD_END_LIMIT ≤ streaks.counts.deadEnds)

-- The future is ready at its next poll.
def Notify.Ready (notify : Notify) : Prop :=
  match notify.notified with
  | .initial => notify.permit
  | .waiting => False
  | .called | .done => True

structure Process.Sound {δ : Type*} (outcome : δ → Outcome) (process : Process δ) : Prop where
  counts : process.streaks.counts.Reports (process.folded.map outcome)
  holder : ∀ id dial stage, process.connections id = .folding dial stage →
    process.holder = some id
  latest : ∀ id dial stage, process.connections id = .folding dial stage →
    process.folded.getLast? = some dial
  stage : ∀ id dial stage, process.connections id = .folding dial stage →
    stage.Done process.streaks
  signal : 0 < process.signalled → process.streaks.clientIsDead.Ready
  exiting : process.exiting ↔ process.streaks.clientIsDead.notified = .done

theorem Notify.notifyOne_ready (notify : Notify) : notify.notifyOne.Ready := by
  obtain ⟨permit, notified⟩ := notify
  cases notified <;> simp [Notify.notifyOne, Notify.Ready]

theorem Notify.notifyOne_done (notify : Notify) :
    notify.notifyOne.notified = .done ↔ notify.notified = .done := by
  obtain ⟨permit, notified⟩ := notify
  cases notified <;> simp [Notify.notifyOne]

theorem Notify.poll_some {notify next : Notify} {ready : Bool}
    (h : notify.poll = some (next, ready)) :
    (notify.Ready → next.Ready ∧ ready) ∧ (ready ↔ next.notified = .done) := by
  obtain ⟨permit, notified⟩ := notify
  cases notified with
  | initial =>
      cases permit <;> cases h <;> simp [Notify.Ready]
  | waiting =>
      cases h
      simp [Notify.Ready]
  | called =>
      cases h
      simp [Notify.Ready]
  | done => cases h

@[simp] theorem Streaks.signal_counts (streaks : Streaks) :
    streaks.signal.counts = streaks.counts := by
  unfold Streaks.signal
  split_ifs <;> rfl

theorem Streaks.signal_ready (streaks : Streaks) (h : streaks.signals) :
    streaks.signal.clientIsDead.Ready := by
  rw [Streaks.signal, if_pos h]
  exact Notify.notifyOne_ready _

theorem Streaks.signal_done (streaks : Streaks) :
    streaks.signal.clientIsDead.notified = .done ↔ streaks.clientIsDead.notified = .done := by
  unfold Streaks.signal
  split_ifs
  · exact Notify.notifyOne_done _
  · rfl

theorem Streaks.flag_isDegraded (streaks : Streaks) :
    streaks.flag.health.isDegraded ↔ DEAD_END_LIMIT ≤ streaks.counts.deadEnds := by
  simp only [Streaks.flag]
  split_ifs with h
  · simp [Health.isDegraded, Health.setDegraded]
  · rw [← not_not.mp h, decide_eq_true_iff]

theorem Streaks.flag_rest (streaks : Streaks) :
    streaks.flag.clientIsDead = streaks.clientIsDead ∧ streaks.flag.metrics = streaks.metrics := by
  simp only [Streaks.flag]
  split_ifs <;> exact ⟨rfl, rfl⟩

@[simp] theorem Streaks.flag_counts (streaks : Streaks) : streaks.flag.counts = streaks.counts := by
  simp only [Streaks.flag]
  split_ifs <;> rfl

section

variable {δ : Type*} {outcome : δ → Outcome} {process next : Process δ} {id : ConnectionId}
  {dial : δ} {stage : Folding}

theorem Process.move_folding {connection : Connection δ} {other : ConnectionId}
    (h : (process.move id connection).connections other = .folding dial stage) :
    other = id ∧ connection = .folding dial stage ∨
      other ≠ id ∧ process.connections other = .folding dial stage := by
  simp only [Process.move, Function.update_apply] at h
  split_ifs at h with he
  · exact Or.inl ⟨he, h⟩
  · exact Or.inr ⟨he, h⟩

-- Only the holder of the lock is folding.
theorem Process.Sound.alone (h : process.Sound outcome)
    (hid : process.connections id = .folding dial stage) {other : ConnectionId} {otherDial : δ}
    {otherStage : Folding} (hother : process.connections other = .folding otherDial otherStage) :
    other = id :=
  Option.some.inj ((h.holder other _ _ hother).symm.trans (h.holder id _ _ hid))

theorem Process.Sound.move (h : process.Sound outcome) {connection : Connection δ}
    (hnot : ∀ dial stage, connection ≠ .folding dial stage) :
    (process.move id connection).Sound outcome := by
  have hold (other : ConnectionId) (dial : δ) (stage : Folding)
      (ho : (process.move id connection).connections other = .folding dial stage) :
      process.connections other = .folding dial stage := by
    obtain ⟨-, hc⟩ | ⟨-, ho⟩ := Process.move_folding ho
    · exact absurd hc (hnot dial stage)
    · exact ho
  exact ⟨h.counts, fun other dial stage ho => h.holder other dial stage (hold other dial stage ho),
    fun other dial stage ho => h.latest other dial stage (hold other dial stage ho),
    fun other dial stage ho => h.stage other dial stage (hold other dial stage ho),
    h.signal, h.exiting⟩

-- The fold that holds the lock goes on to its next stage.
theorem Process.Sound.advance (h : process.Sound outcome) {later : Folding}
    (hid : process.connections id = .folding dial stage) {streaks : Streaks}
    (hcounts : streaks.counts = process.streaks.counts)
    (hdead : streaks.clientIsDead = process.streaks.clientIsDead) (hdone : later.Done streaks) :
    ({ process.move id (.folding dial later) with streaks } : Process δ).Sound outcome := by
  refine ⟨?_, ?_, ?_, ?_, ?_, ?_⟩
  · change streaks.counts.Reports _
    rw [hcounts]
    exact h.counts
  · intro other otherDial reached ho
    obtain ⟨rfl, -⟩ | ⟨-, ho⟩ := Process.move_folding ho
    · exact h.holder other _ _ hid
    · exact h.holder other _ _ ho
  · intro other otherDial reached ho
    obtain ⟨-, hc⟩ | ⟨-, ho⟩ := Process.move_folding ho
    · obtain rfl : dial = otherDial := (Connection.folding.inj hc).1
      exact h.latest id _ _ hid
    · exact h.latest other _ _ ho
  · intro other otherDial reached ho
    obtain ⟨-, hc⟩ | ⟨hne, ho⟩ := Process.move_folding ho
    · obtain rfl : later = reached := (Connection.folding.inj hc).2
      exact hdone
    · exact absurd (h.alone hid ho) hne
  · change 0 < process.signalled → streaks.clientIsDead.Ready
    rw [hdead]
    exact h.signal
  · change process.exiting ↔ streaks.clientIsDead.notified = .done
    rw [hdead]
    exact h.exiting

-- A fold that ends gives the lock back, however it ends.
theorem Process.Sound.release (h : process.Sound outcome)
    (hid : process.connections id = .folding dial stage) {connection : Connection δ}
    (hnot : ∀ dial stage, connection ≠ .folding dial stage) {streaks : Streaks} {poisoned : Bool}
    {signalled : Nat} (hcounts : streaks.counts = process.streaks.counts)
    (hready : 0 < signalled → streaks.clientIsDead.Ready)
    (hdone : streaks.clientIsDead.notified = .done ↔
      process.streaks.clientIsDead.notified = .done) :
    ({ process.move id connection with holder := none, streaks, poisoned, signalled } :
      Process δ).Sound outcome := by
  have hnone (other : ConnectionId) (otherDial : δ) (reached : Folding)
      (ho : (process.move id connection).connections other = .folding otherDial reached) :
      False := by
    obtain ⟨-, hc⟩ | ⟨hne, ho⟩ := Process.move_folding ho
    · exact hnot otherDial reached hc
    · exact hne (h.alone hid ho)
  refine ⟨?_, fun other _ _ ho => (hnone other _ _ ho).elim,
    fun other _ _ ho => (hnone other _ _ ho).elim, fun other _ _ ho => (hnone other _ _ ho).elim,
    hready, h.exiting.trans hdone.symm⟩
  change streaks.counts.Reports _
  rw [hcounts]
  exact h.counts

theorem Process.Sound.count (h : process.Sound outcome) (hfree : process.holder = none) :
    ({ process.move id (.folding dial .counted) with
      streaks := process.streaks.count (outcome dial)
      holder := some id
      folded := process.folded ++ [dial] } : Process δ).Sound outcome := by
  have hnone (other : ConnectionId) (otherDial : δ) (reached : Folding)
      (ho : process.connections other = .folding otherDial reached) : False := by
    have hholder := h.holder other _ _ ho
    rw [hfree] at hholder
    cases hholder
  refine ⟨?_, ?_, ?_, ?_, h.signal, h.exiting⟩
  · simpa [Streaks.count] using h.counts.fold (outcome dial)
  · intro other otherDial reached ho
    obtain ⟨rfl, -⟩ | ⟨-, ho⟩ := Process.move_folding ho
    · rfl
    · exact (hnone other _ _ ho).elim
  · intro other otherDial reached ho
    obtain ⟨-, hc⟩ | ⟨-, ho⟩ := Process.move_folding ho
    · obtain rfl : dial = otherDial := (Connection.folding.inj hc).1
      exact List.getLast?_concat
    · exact (hnone other _ _ ho).elim
  · intro other otherDial reached ho
    obtain ⟨-, hc⟩ | ⟨-, ho⟩ := Process.move_folding ho
    · obtain rfl : Folding.counted = reached := (Connection.folding.inj hc).2
      trivial
    · exact (hnone other _ _ ho).elim

theorem Process.Sound.step {event : ProcessEvent δ} (h : process.Sound outcome)
    (hs : process.step outcome event = some next) : next.Sound outcome := by
  cases event with
  | accepted id | resolved id dial =>
      simp only [Process.step] at hs
      split at hs <;> cases hs
      exact h.move (by simp)
  | count id =>
      simp only [Process.step] at hs
      split at hs <;> cases hs
      rename_i hfree
      exact h.count hfree
  | gauge id =>
      simp only [Process.step] at hs
      split at hs <;> cases hs
      rename_i hid
      exact h.advance hid rfl rfl rfl
  | flag id =>
      simp only [Process.step] at hs
      split at hs <;> cases hs
      rename_i hid
      obtain ⟨hdead, hmetrics⟩ := process.streaks.flag_rest
      refine h.advance hid (Streaks.flag_counts _) hdead ⟨?_, ?_⟩
      · rw [Streaks.flag_counts, hmetrics]
        exact h.stage id _ .gauged hid
      · rw [Streaks.flag_counts]
        exact Streaks.flag_isDegraded _
  | signal id =>
      simp only [Process.step] at hs
      split at hs <;> cases hs
      rename_i hid
      refine h.release hid (by simp) process.streaks.signal_counts ?_ process.streaks.signal_done
      intro hpos
      by_cases hsignals : process.streaks.signals
      · exact process.streaks.signal_ready hsignals
      · have hsame : process.streaks.signal = process.streaks := if_neg hsignals
        rw [hsame]
        exact h.signal (by simpa [hsignals] using hpos)
  | unwound id =>
      simp only [Process.step] at hs
      split at hs <;> cases hs
      rename_i hid
      exact h.release hid (by simp) rfl h.signal Iff.rfl
  | closed id =>
      simp only [Process.step] at hs
      split at hs <;> cases hs
      · exact h.move (by simp)
      · exact h.move (by simp)
  | poll =>
      simp only [Process.step] at hs
      split at hs <;> cases hs
      rename_i ready hpoll
      obtain ⟨hready, hdone⟩ := Notify.poll_some hpoll
      exact ⟨h.counts, h.holder, h.latest, h.stage, fun hpos => (hready (h.signal hpos)).1, hdone⟩

theorem process_sound {events : List (ProcessEvent δ)}
    (hr : (Process.step outcome).run {} events = some process) : process.Sound outcome := by
  refine Machine.run_invariant _ (fun _ _ _ h hs => h.step hs) ?_ hr
  exact ⟨⟨rfl, rfl⟩, by simp, by simp, by simp, by simp, by simp⟩

-- The last update of a fold, where the gauge and the flag already stand.
theorem Process.at_signal {events : List (ProcessEvent δ)}
    (hr : (Process.step outcome).run {} events = some process)
    (hs : process.step outcome (.signal id) = some next) :
    Folding.flagged.Done process.streaks ∧ next.streaks = process.streaks.signal ∧
      next.folded = process.folded ∧
      next.signalled = process.signalled + process.streaks.signals.toNat := by
  simp only [Process.step] at hs
  split at hs <;> cases hs
  rename_i hid
  exact ⟨(process_sound hr).stage id _ .flagged hid, rfl, rfl, rfl⟩

theorem Process.only_signal {event : ProcessEvent δ}
    (hs : process.step outcome event = some next) (hne : process.signalled ≠ next.signalled) :
    ∃ id, event = .signal id := by
  cases event with
  | signal id => exact ⟨id, rfl⟩
  | accepted _ | resolved _ _ | count _ | gauge _ | flag _ | unwound _ | closed _ | poll =>
      simp only [Process.step] at hs
      split at hs <;> cases hs <;> exact absurd rfl hne

theorem Streaks.signal_report (streaks : Streaks) :
    streaks.signal.metrics = streaks.metrics ∧ streaks.signal.health = streaks.health := by
  unfold Streaks.signal
  split_ifs <;> exact ⟨rfl, rfl⟩

-- The dial that an event counts, under the lock.
def Process.counted (process : Process δ) (event : ProcessEvent δ) : List δ :=
  match event with
  | .count id =>
      match process.connections id with
      | .resolved dial => [dial]
      | _ => []
  | _ => []

theorem Process.step_counted {event : ProcessEvent δ}
    (hs : process.step outcome event = some next) :
    next.folded = process.folded ++ process.counted event := by
  cases event with
  | count id =>
      simp only [Process.step] at hs
      split at hs <;> cases hs
      rename_i hid _
      simp [Process.counted, hid]
  | accepted _ | resolved _ _ | gauge _ | flag _ | signal _ | unwound _ | closed _ | poll =>
      simp only [Process.step] at hs
      split at hs <;> cases hs <;> exact (List.append_nil _).symm

-- The history is that of the counts, in the order of the lock.
theorem process_folded {events : List (ProcessEvent δ)}
    (hr : (Process.step outcome).run {} events = some process) :
    process.folded = (Process.step outcome).views Process.counted {} events := by
  refine Machine.run_history (fun events (process : Process δ) =>
    process.folded = (Process.step outcome).views Process.counted {} events) rfl ?_ hr
  intro events process event next hr h hs
  rw [Process.step_counted hs, Machine.views_concat _ Process.counted hr hs, h]

end

-- After every completed fold the counts, the gauge and the flag tell the same
-- run, whatever earlier folds left undone, and the signal is only raised by a
-- half that reports itself degraded. The run is that of the dials counted so far,
-- in the order of the lock.
theorem fold_agrees {δ : Type*} (outcome : δ → Outcome) :
    (∀ (events : List (ProcessEvent δ)) (id : ConnectionId) (process : Process δ),
      (Process.step outcome).run {} (events ++ [.signal id]) = some process →
      process.streaks.metrics.failedInARow = deadEndRun (process.folded.map outcome) ∧
      (process.streaks.health.isDegraded ↔ 3 ≤ deadEndRun (process.folded.map outcome)) ∧
      process.streaks.counts.refusals = refusalRun (process.folded.map outcome) ∧
      process.streaks.counts.refusals ≤ process.streaks.counts.deadEnds) ∧
    (∀ (events : List (ProcessEvent δ)) (event : ProcessEvent δ) (before after : Process δ),
      (Process.step outcome).run {} events = some before →
      before.step outcome event = some after → before.signalled ≠ after.signalled →
      before.streaks.health.isDegraded ∧ after.streaks.health.isDegraded) ∧
    ∀ (events : List (ProcessEvent δ)) (process : Process δ),
      (Process.step outcome).run {} events = some process →
      process.folded = (Process.step outcome).views Process.counted {} events := by
  refine ⟨?_, ?_, fun _ _ => process_folded⟩
  · intro events id process hr
    obtain ⟨before, hb, hs⟩ := Machine.run_concat_some hr
    obtain ⟨⟨hgauge, hflag⟩, hstreaks, -, -⟩ := Process.at_signal hb hs
    obtain ⟨hrefusals, hdead⟩ := (process_sound hr).counts
    obtain ⟨hmetrics, hhealth⟩ := before.streaks.signal_report
    have hcounts : process.streaks.counts = before.streaks.counts := by
      rw [hstreaks, Streaks.signal_counts]
    refine ⟨?_, ?_, hrefusals, ?_⟩
    · rw [← hdead, hcounts, hstreaks, hmetrics]
      exact hgauge
    · rw [← hdead, hcounts, hstreaks, hhealth]
      exact hflag
    · rw [hrefusals, hdead]
      exact refusalRun_le_deadEndRun _
  · intro events event before after hb hs hne
    obtain ⟨id, rfl⟩ := Process.only_signal hs hne
    obtain ⟨⟨-, hflag⟩, hstreaks, -, hsignalled⟩ := Process.at_signal hb hs
    obtain ⟨hrefusals, hdead⟩ := (process_sound hb).counts
    have hsignals : before.streaks.signals := by
      by_contra hno
      rw [Bool.not_eq_true] at hno
      rw [hno] at hsignalled
      exact hne hsignalled.symm
    have hlimit : REFUSAL_LIMIT ≤ before.streaks.counts.refusals := by
      simpa [Streaks.signals] using hsignals
    have hdegraded : before.streaks.health.isDegraded := by
      apply hflag.mpr
      have hle := refusalRun_le_deadEndRun (before.folded.map outcome)
      rw [← hrefusals, ← hdead] at hle
      exact le_trans (by decide) (hlimit.trans hle)
    refine ⟨hdegraded, ?_⟩
    rw [hstreaks, before.streaks.signal_report.2]
    exact hdegraded

-- A fold that unwinds after its counts, and the one that comes after it.
def halfFinished : List (ProcessEvent Outcome) :=
  [.accepted 0, .accepted 1, .resolved 0 .NothingOpened, .resolved 1 .NothingAnswered, .count 0,
    .unwound 0, .count 1, .gauge 1, .flag 1]

theorem half_finished_agrees : ∃ process : Process Outcome,
    (Process.step id).run {} (halfFinished ++ [.signal 1]) = some process ∧
    process.folded = [.NothingOpened, .NothingAnswered] ∧
    process.streaks.metrics.failedInARow = 2 ∧ process.streaks.counts.refusals = 0 := by
  obtain ⟨process, hr, hfolded⟩ : ∃ process,
      (Process.step id).run {} (halfFinished ++ [.signal 1]) = some process ∧
      process.folded = [.NothingOpened, .NothingAnswered] :=
    Option.map_eq_some_iff.mp (by decide +kernel)
  obtain ⟨hgauge, -, hrefusals, -⟩ := (fold_agrees id).1 halfFinished 1 process hr
  rw [hfolded] at hgauge hrefusals
  exact ⟨process, hr, hfolded, hgauge, hrefusals⟩

end LwdMixnet
