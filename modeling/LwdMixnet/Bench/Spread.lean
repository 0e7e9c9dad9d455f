import LwdMixnet.Bench.Rates
import LwdMixnet.Bench.Refusals
import LwdMixnet.Histogram
import Mathlib.Data.Prod.Lex

namespace LwdMixnet

section

variable (arm : List Trial)

end

section

variable {α : Type*} {p : α → Bool}

end

section

variable (group : List Trial)

end

section

variable {settings : DialSettings} {trial : Trial} {round : Round}

-- A trial is answered as often as its rounds are.
theorem Trial.Returned.answered (h : trial.Returned settings) :
    (trial.rounds.map fun round => round.answered.toNat).sum = trial.answered.toNat := by
  have hsilent {rounds : List Round} (hnone : ∀ round ∈ rounds, round.answered = false) :
      (rounds.map fun round => round.answered.toNat).sum = 0 := by
    refine List.sum_eq_zero_iff_forall_eq_nat.mpr fun count hcount => ?_
    obtain ⟨round, hround, rfl⟩ := List.mem_map.mp hcount
    rw [hnone round hround, Bool.toNat_false]
  obtain ⟨hanswered, earlier, last, hrounds, hnone, hlast⟩ | ⟨hanswered, hnone, -⟩ := h.ended
  · rw [hrounds, List.map_append, List.sum_append, hsilent hnone, hanswered]
    simp [hlast]
  · rw [hsilent hnone, hanswered, Bool.toNat_false]

end

section

variable {settings : DialSettings} {group : List Trial}
  (h : ∀ trial ∈ group, trial.Returned settings) (hprobe : settings.probe ≠ none)

include h hprobe

end

end LwdMixnet
