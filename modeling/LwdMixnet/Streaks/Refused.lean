import LwdMixnet.Streaks.Exit

namespace LwdMixnet

-- Somewhere among the dials there are `count` in a row that were refused.
def RefusedInARow {δ : Type*} (outcome : δ → Outcome) (count : Nat) (dials : List δ) : Prop :=
  ∃ earlier latest later, dials = earlier ++ latest ++ later ∧ latest.length = count ∧
    ∀ dial ∈ latest, outcome dial = .NothingOpened

section

variable {δ : Type*} {outcome : δ → Outcome} {process after : Process δ}

-- A dial that was counted stays counted.
theorem Process.step_folded {taken : ProcessEvent δ}
    (hs : process.step outcome taken = some after) : process.folded <+: after.folded := by
  rw [Process.step_counted hs]
  exact List.prefix_append _ _

theorem RefusedInARow.append {count : Nat} {dials more : List δ}
    (h : RefusedInARow outcome count dials) (hle : dials <+: more) :
    RefusedInARow outcome count more := by
  obtain ⟨earlier, latest, later, rfl, hlen, hall⟩ := h
  obtain ⟨rest, rfl⟩ := hle
  exact ⟨earlier, latest, later ++ rest, by simp, hlen, hall⟩

-- What a call of `notify_one` goes back to.
theorem process_refused {taken : List (ProcessEvent δ)}
    (hr : (Process.step outcome).run {} taken = some process) (hcalled : 0 < process.signalled) :
    RefusedInARow outcome REFUSAL_LIMIT process.folded := by
  refine Machine.run_history (fun _ (process : Process δ) => 0 < process.signalled →
    RefusedInARow outcome REFUSAL_LIMIT process.folded) (fun h => absurd h (Nat.lt_irrefl 0)) ?_
    hr hcalled
  intro taken process event after hr h hs hcalled
  have hfolded := Process.step_folded hs
  by_cases hbefore : 0 < process.signalled
  · exact (h hbefore).append hfolded
  · have hnew : process.signalled < after.signalled := by omega
    obtain ⟨id, rfl⟩ := Process.only_signal hs hnew.ne
    have hlimit := (Process.signals_iff hr hs).mp hnew
    obtain ⟨earlier, latest, hsplit, hlen, hall⟩ := (le_refusalRun_iff outcome _ _).mp hlimit
    have hrun : RefusedInARow outcome REFUSAL_LIMIT process.folded :=
      ⟨earlier, latest, [], by simpa using hsplit, hlen, hall⟩
    exact hrun.append hfolded

theorem Process.step_signalled {taken : ProcessEvent δ}
    (hs : process.step outcome taken = some after) : process.signalled ≤ after.signalled := by
  cases taken with
  | signal id =>
      simp only [Process.step] at hs
      split at hs <;> cases hs
      exact Nat.le_add_right _ _
  | accepted _ | resolved _ _ | count _ | gauge _ | flag _ | unwound _ | closed _ | poll =>
      simp only [Process.step] at hs
      split at hs <;> cases hs <;> exact Nat.le_refl _

end

end LwdMixnet
