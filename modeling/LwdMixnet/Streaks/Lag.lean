import LwdMixnet.Streaks.Process

namespace LwdMixnet

-- The gauge is the run of dead ends of some dials, and the flag is that run
-- against its limit.

def Streaks.Gauges (streaks : Streaks) (outcomes : List Outcome) : Prop :=
  streaks.metrics.failedInARow = deadEndRun outcomes

def Streaks.Flags (streaks : Streaks) (outcomes : List Outcome) : Prop :=
  streaks.health.isDegraded ↔ DEAD_END_LIMIT ≤ deadEndRun outcomes

-- What a fold that holds the lock has not brought in line with the counts yet,
-- which is as the fold before it left it.
def Folding.Leaves (streaks : Streaks) (outcomes : List Outcome) : Folding → Prop
  | .counted => streaks.Gauges outcomes.dropLast ∧ streaks.Flags outcomes.dropLast
  | .gauged => streaks.Gauges outcomes ∧ streaks.Flags outcomes.dropLast
  | .flagged => streaks.Gauges outcomes ∧ streaks.Flags outcomes

-- Where no fold was ever left half finished.
def Process.Lags {δ : Type*} (outcome : δ → Outcome) (process : Process δ) : Prop :=
  process.poisoned = false →
    match process.holder with
    | none => process.streaks.Gauges (process.folded.map outcome) ∧
        process.streaks.Flags (process.folded.map outcome)
    | some id => ∃ dial stage, process.connections id = .folding dial stage ∧
        stage.Leaves process.streaks (process.folded.map outcome)

-- The dials whose fold has come to its end.
def Process.completed {δ : Type*} (process : Process δ) : Nat :=
  process.folded.length - process.holder.isSome.toNat

section

variable {δ : Type*} {outcome : δ → Outcome} {process next : Process δ} {id : ConnectionId}
  {dial : δ} {stage : Folding}

-- The connection moved is not the one that holds the lock.
theorem Process.Lags.move (h : process.Lags outcome) {connection : Connection δ}
    (hid : ∀ dial stage, process.connections id ≠ .folding dial stage) :
    (process.move id connection).Lags outcome := by
  intro hclean
  have hlags := h hclean
  have hholder : (process.move id connection).holder = process.holder := rfl
  rw [hholder]
  cases hheld : process.holder with
  | none =>
      rw [hheld] at hlags
      exact hlags
  | some holder =>
      rw [hheld] at hlags
      obtain ⟨dial, stage, hfolding, hleaves⟩ := hlags
      have hne : holder ≠ id := by
        rintro rfl
        exact hid dial stage hfolding
      exact ⟨dial, stage, by simpa [Process.move, hne] using hfolding, hleaves⟩

-- What the fold that holds the lock leaves.
theorem Process.Lags.leaves (h : process.Lags outcome) (hsound : process.Sound outcome)
    (hid : process.connections id = .folding dial stage) (hclean : process.poisoned = false) :
    stage.Leaves process.streaks (process.folded.map outcome) := by
  have hlags := h hclean
  rw [hsound.holder id dial stage hid] at hlags
  obtain ⟨_, _, hfolding, hleaves⟩ := hlags
  cases hid.symm.trans hfolding
  exact hleaves

theorem Process.Lags.advance (hsound : process.Sound outcome) {later : Folding}
    (hid : process.connections id = .folding dial stage) {streaks : Streaks}
    (hleaves : process.poisoned = false → later.Leaves streaks (process.folded.map outcome)) :
    ({ process.move id (.folding dial later) with streaks } : Process δ).Lags outcome := by
  intro hclean
  have hheld := hsound.holder id dial stage hid
  simp only [Process.move, hheld]
  exact ⟨dial, later, by simp, hleaves hclean⟩

theorem Process.Lags.step (h : process.Lags outcome) (hsound : process.Sound outcome)
    {taken : ProcessEvent δ} (hs : process.step outcome taken = some next) :
    next.Lags outcome := by
  have hdead := hsound.counts.2
  cases taken with
  | accepted id | resolved id _ | closed id =>
      simp only [Process.step] at hs
      split at hs <;> cases hs <;> rename_i hid <;> exact h.move (by simp [hid])
  | count id =>
      simp only [Process.step] at hs
      split at hs <;> cases hs
      rename_i dial _ hfree
      intro hclean
      have hlags := h hclean
      rw [hfree] at hlags
      refine ⟨dial, .counted, by simp [Process.move], ?_⟩
      unfold Folding.Leaves
      rw [List.map_append, List.map_singleton, List.dropLast_concat]
      exact hlags
  | gauge id =>
      simp only [Process.step] at hs
      split at hs <;> cases hs
      rename_i dial hid
      refine Process.Lags.advance hsound hid fun hclean => ?_
      have hgauges : process.streaks.gauge.Gauges (process.folded.map outcome) := by
        unfold Streaks.Gauges Streaks.gauge
        rw [← hdead]
        rfl
      exact ⟨hgauges, (h.leaves hsound hid hclean).2⟩
  | flag id =>
      simp only [Process.step] at hs
      split at hs <;> cases hs
      rename_i dial hid
      refine Process.Lags.advance hsound hid fun hclean => ⟨?_, ?_⟩
      · unfold Streaks.Gauges
        rw [process.streaks.flag_rest.2]
        exact (h.leaves hsound hid hclean).1
      · unfold Streaks.Flags
        rw [process.streaks.flag_isDegraded, hdead]
  | signal id =>
      simp only [Process.step] at hs
      split at hs <;> cases hs
      rename_i dial hid
      intro hclean
      obtain ⟨hgauges, hflags⟩ := h.leaves hsound hid hclean
      obtain ⟨hmetrics, hhealth⟩ := process.streaks.signal_report
      simp only [Process.move, Streaks.Gauges, Streaks.Flags, hmetrics, hhealth]
      exact ⟨hgauges, hflags⟩
  | unwound id =>
      simp only [Process.step] at hs
      split at hs <;> cases hs
      exact fun hclean => by cases hclean
  | poll =>
      simp only [Process.step] at hs
      split at hs <;> cases hs
      exact h

theorem process_lags {taken : List (ProcessEvent δ)}
    (hr : (Process.step outcome).run {} taken = some process) : process.Lags outcome := by
  refine Machine.run_history (fun _ (process : Process δ) => process.Lags outcome) ?_ ?_ hr
  · intro _
    exact ⟨rfl, by simp [Streaks.Flags, Health.isDegraded, deadEndRun, DEAD_END_LIMIT]⟩
  · exact fun _ _ _ _ hr h hs => h.step (process_sound hr) hs

theorem Process.step_completed {taken : ProcessEvent δ}
    (hs : process.step outcome taken = some next) : process.completed ≤ next.completed := by
  cases taken with
  | count id =>
      simp only [Process.step] at hs
      split at hs <;> cases hs
      rename_i hfree
      simp [Process.completed, hfree]
  | signal id | unwound id =>
      simp only [Process.step] at hs
      split at hs <;> cases hs
      exact Nat.sub_le _ _
  | accepted _ | resolved _ _ | gauge _ | flag _ | closed _ | poll =>
      simp only [Process.step] at hs
      split at hs <;> cases hs <;> exact Nat.le_refl _

theorem Process.step_poisoned {taken : ProcessEvent δ}
    (hs : process.step outcome taken = some next) (hclean : next.poisoned = false) :
    process.poisoned = false := by
  cases taken with
  | unwound id =>
      simp only [Process.step] at hs
      split at hs <;> cases hs
      cases hclean
  | accepted _ | resolved _ _ | count _ | gauge _ | flag _ | signal _ | closed _ | poll =>
      simp only [Process.step] at hs
      split at hs <;> cases hs <;> exact hclean

-- How many dials back what is read was brought in line: the latest one at most,
-- and the flag no sooner than the gauge.
theorem Process.Lags.reads (h : process.Lags outcome) (hclean : process.poisoned = false) :
    ∃ gauged flagged, process.completed ≤ flagged ∧ flagged ≤ gauged ∧
      gauged ≤ process.folded.length ∧
      process.streaks.Gauges ((process.folded.take gauged).map outcome) ∧
      process.streaks.Flags ((process.folded.take flagged).map outcome) := by
  have hlags := h hclean
  have hlast : (process.folded.map outcome).dropLast =
      (process.folded.take (process.folded.length - 1)).map outcome := by
    rw [List.dropLast_eq_take, List.length_map, List.map_take]
  have hall : process.folded.map outcome =
      (process.folded.take process.folded.length).map outcome := by
    rw [List.take_length]
  have hle : process.completed ≤ process.folded.length := Nat.sub_le _ _
  cases hheld : process.holder with
  | none =>
      rw [hheld, hall] at hlags
      exact ⟨_, _, hle, Nat.le_refl _, Nat.le_refl _, hlags⟩
  | some id =>
      have hcompleted : process.completed = process.folded.length - 1 := by
        rw [Process.completed, hheld]
        rfl
      rw [hheld] at hlags
      obtain ⟨dial, stage, hid, hleaves⟩ := hlags
      cases stage with
      | counted =>
          rw [Folding.Leaves, hlast] at hleaves
          exact ⟨_, _, hcompleted.le, Nat.le_refl _, Nat.sub_le _ _, hleaves⟩
      | gauged =>
          rw [Folding.Leaves, hlast] at hleaves
          rw [hall] at hleaves
          exact ⟨_, _, hcompleted.le, Nat.sub_le _ _, Nat.le_refl _, by simpa using hleaves⟩
      | flagged =>
          rw [Folding.Leaves, hall] at hleaves
          exact ⟨_, _, hle, Nat.le_refl _, Nat.le_refl _, hleaves⟩

-- The gauge and the flag contradict each other between the two updates of a fold
-- and at no other time.
theorem Process.Lags.agrees (h : process.Lags outcome) (hclean : process.poisoned = false)
    (hnot : ∀ id dial, process.connections id ≠ .folding dial .gauged) :
    process.streaks.health.isDegraded ↔ (DEAD_END_LIMIT : Int) ≤
      process.streaks.metrics.failedInARow := by
  have hboth {outcomes : List Outcome} (hgauges : process.streaks.Gauges outcomes)
      (hflags : process.streaks.Flags outcomes) : process.streaks.health.isDegraded ↔
        (DEAD_END_LIMIT : Int) ≤ process.streaks.metrics.failedInARow := by
    rw [hgauges, Int.ofNat_le]
    exact hflags
  have hlags := h hclean
  cases hheld : process.holder with
  | none =>
      rw [hheld] at hlags
      exact hboth hlags.1 hlags.2
  | some id =>
      rw [hheld] at hlags
      obtain ⟨dial, stage, hid, hleaves⟩ := hlags
      cases stage with
      | counted => exact hboth hleaves.1 hleaves.2
      | gauged => exact absurd hid (hnot id dial)
      | flagged => exact hboth hleaves.1 hleaves.2

end

end LwdMixnet
