import LwdMixnet.Splice.StallClock
import Mathlib.Tactic.Ring
import Mathlib.Tactic.Linarith

namespace LwdMixnet

-- The watchdog as its documentation has it: it sees every recorded movement and
-- counts from the instant of the oldest outbound one with no inbound one at or
-- after it.
structure Reference where
  stall : Nat
  period : Nat
  elapsed : Nat := 0
  moves : List Move := []
  nextTick : Nat
  ended : Option Ended := none
  deriving DecidableEq, Repr

def Reference.start (stall period : Nat) : Reference where
  stall := stall
  period := period
  nextTick := period

def Reference.tripped (reference : Reference) : Option Ended :=
  match oldestUnanswered reference.moves with
  | some first =>
      if reference.stall ≤ reference.elapsed - first.instant then
        some (.Stalled reference.stall)
      else none
  | none => none

def Reference.step : Machine Reference WatchEvent := fun reference event =>
  if reference.ended.isSome then none else
  match event with
  | .moved way count =>
      if count = 0 then none
      else some { reference with moves := reference.moves ++ [⟨way, reference.elapsed⟩] }
  | .elapse time =>
      if reference.elapsed + time ≤ reference.nextTick then
        some { reference with elapsed := reference.elapsed + time }
      else none
  | .tick =>
      if reference.elapsed = reference.nextTick then
        some { reference with
          ended := reference.tripped, nextTick := reference.nextTick + reference.period }
      else none

-- Both watchdogs take the same events, and say the same at the end of them.
def SameTick (stall : Nat) (events : List WatchEvent) : Prop :=
  (Watch.step.run (.start { stall := some stall }) events).map Watch.ended =
    (Reference.step.run (.start stall (Watchdog.checkPeriod { stall := some stall })) events).map
      Reference.ended

-- Starts that no tick tells apart.
def NoTickBetween (stall period : Nat) (since first : Nat) : Prop :=
  ∀ ticks, ticks * period / MILLI ≤ U64_MAX →
    (asMillis stall ≤ asMillis (ticks * period) - since ↔
      asMillis stall ≤ asMillis (ticks * period) - first)

theorem deadline_iff (width interval deadline ticks since : Nat)
    (hlo : interval * width < since) (hhi : since < (interval + 1) * width) :
    deadline * width ≤ ticks * width - since ↔ deadline = 0 ∨ deadline + interval + 1 ≤ ticks := by
  have hw : 0 < width := by
    rcases Nat.eq_zero_or_pos width with rfl | hw
    · simp at hhi
    · exact hw
  constructor
  · intro h
    by_cases hz : deadline = 0
    · exact Or.inl hz
    · have hd := Nat.mul_pos (Nat.pos_of_ne_zero hz) hw
      have hlt : (deadline + interval) * width < ticks * width := by
        rw [Nat.add_mul]
        omega
      exact Or.inr (Nat.lt_of_mul_lt_mul_right hlt)
  · rintro (rfl | h)
    · simp
    · have hle := Nat.mul_le_mul_right width h
      rw [Nat.add_assoc, Nat.add_mul] at hle
      omega

-- The ticks at which a start strictly between two of them has reached the
-- deadline, told by the millisecond clock.
theorem due_iff {stall width interval deadline ticks since : Nat}
    (hstall : stall = deadline * (width * MILLI)) (hlo : interval * width < since)
    (hhi : since < (interval + 1) * width) (hfits : ticks * (width * MILLI) / MILLI ≤ U64_MAX) :
    asMillis stall ≤ asMillis (ticks * (width * MILLI)) - since ↔
      deadline = 0 ∨ deadline + interval + 1 ≤ ticks := by
  rw [asMillis_of_le hfits, mul_milli_div]
  rw [mul_milli_div] at hfits
  have hdead : stall / MILLI = deadline * width := by
    rw [hstall, mul_milli_div]
  rw [← deadline_iff width interval deadline ticks since hlo hhi]
  by_cases hbig : stall / MILLI ≤ U64_MAX
  · rw [asMillis_of_le hbig, hdead]
  · have he : asMillis stall = U64_MAX := Nat.min_eq_right (by omega)
    have hpos : 0 < U64_MAX := by decide
    rw [he]
    constructor <;> intro h <;> omega

-- What the executions in question have in common: the period is a whole number
-- of milliseconds that divides the deadline, every movement is stamped strictly
-- between two ticks, and the millisecond clock has not saturated.
structure Aligned (stall period : Nat) (events : List WatchEvent) : Prop where
  whole : MILLI ∣ period
  divides : period ∣ stall
  between : ∀ move ∈ moves events, ¬period ∣ move.stamp * MILLI
  fits : Machine.duration WatchEvent.delay events / MILLI ≤ U64_MAX

theorem Aligned.of_append {stall period : Nat} {events rest : List WatchEvent}
    (h : Aligned stall period (events ++ rest)) : Aligned stall period events := by
  refine ⟨h.whole, h.divides, fun move hm => h.between move (moves_append_left hm rest), ?_⟩
  have hf := h.fits
  rw [Machine.duration_append] at hf
  exact (Nat.div_le_div_right (Nat.le_add_right _ _)).trans hf

theorem Aligned.stamp_eq {stall period : Nat} {events : List WatchEvent} {move : Move}
    (h : Aligned stall period events) (hm : move ∈ moves events) :
    move.stamp = move.instant / MILLI :=
  asMillis_of_le ((Nat.div_le_div_right (instant_le_duration hm)).trans h.fits)

theorem stamp_mem_interval {stall width ticks : Nat} {events : List WatchEvent} {move : Move}
    (ha : Aligned stall (width * MILLI) events) (hm : move ∈ moves events)
    (hlo : ticks * (width * MILLI) ≤ move.instant)
    (hhi : move.instant ≤ (ticks + 1) * (width * MILLI)) :
    ticks * width < move.stamp ∧ move.stamp < (ticks + 1) * width := by
  have hbetween := ha.between move hm
  have hl : ticks * width ≤ move.stamp := by
    rw [ha.stamp_eq hm, ← mul_milli_div]
    exact Nat.div_le_div_right hlo
  have hh : move.stamp ≤ (ticks + 1) * width := by
    rw [ha.stamp_eq hm, ← mul_milli_div]
    exact Nat.div_le_div_right hhi
  have hne (count : Nat) : move.stamp ≠ count * width := by
    intro he
    apply hbetween
    rw [he, Nat.mul_assoc]
    exact Nat.dvd_mul_left _ _
  exact ⟨Nat.lt_of_le_of_ne hl (hne ticks).symm, Nat.lt_of_le_of_ne hh (hne (ticks + 1))⟩

theorem instant_mem_interval {stall width ticks : Nat} {events : List WatchEvent} {move : Move}
    (ha : Aligned stall (width * MILLI) events) (hm : move ∈ moves events)
    (hlo : ticks * width < move.stamp) (hhi : move.stamp < (ticks + 1) * width) :
    ticks * (width * MILLI) < move.instant ∧ move.instant < (ticks + 1) * (width * MILLI) := by
  have hmilli : 0 < MILLI := by decide
  rw [← Nat.mul_assoc, ← Nat.mul_assoc]
  constructor
  · calc ticks * width * MILLI < move.stamp * MILLI := Nat.mul_lt_mul_of_pos_right hlo hmilli
      _ ≤ move.instant := asMillis_mul_le move.instant
  · rw [ha.stamp_eq hm] at hhi
    exact (Nat.div_lt_iff_lt_mul hmilli).mp hhi

-- Where the executions are aligned, the milliseconds lose nothing at a tick.
theorem due_iff_exact {stall period ticks : Nat} {events : List WatchEvent} {move : Move}
    (ha : Aligned stall period events) (hpos : 0 < period) (hm : move ∈ moves events)
    (hfits : ticks * period / MILLI ≤ U64_MAX) :
    asMillis stall ≤ asMillis (ticks * period) - move.stamp ↔
      stall ≤ ticks * period - move.instant := by
  obtain ⟨width, rfl⟩ := ha.whole
  obtain ⟨deadline, hdeadline⟩ := ha.divides
  rw [Nat.mul_comm MILLI width] at ha hpos hdeadline hfits ⊢
  rw [Nat.mul_comm] at hdeadline
  obtain ⟨hlo, hhi⟩ := stamp_mem_interval ha hm (Nat.div_mul_le_self _ _)
    (Nat.lt_div_mul_add hpos |>.le.trans_eq (Nat.succ_mul _ _).symm)
  obtain ⟨hilo, hihi⟩ := instant_mem_interval ha hm hlo hhi
  rw [due_iff hdeadline hlo hhi hfits, hdeadline,
    deadline_iff (width * MILLI) _ deadline ticks move.instant hilo hihi]

theorem aligned_sound {stall : Nat} {events : List WatchEvent} {watch : Watch}
    (hr : Watch.step.run (.start { stall := some stall }) events = some watch)
    (ha : Aligned stall (Watchdog.checkPeriod { stall := some stall }) events) :
    Sound (NoTickBetween stall (Watchdog.checkPeriod { stall := some stall })) watch.lastTick
      (moves events) watch.clock.sinceMillis := by
  have ht := traced hr
  obtain ⟨-, hhi, hnext, ticks, hlast⟩ := ht.lastTick
  obtain ⟨width, hwidth⟩ := ha.whole
  obtain ⟨deadline, hdeadline⟩ := ha.divides
  rw [Nat.mul_comm MILLI width] at hwidth
  rw [Nat.mul_comm] at hdeadline
  rw [hwidth] at ha hdeadline hnext hlast ⊢
  have hinterval (move : Move) (hm : move ∈ moves events) (hle : watch.lastTick ≤ move.instant) :
      ticks * width < move.stamp ∧ move.stamp < (ticks + 1) * width := by
    refine stamp_mem_interval ha hm (hlast ▸ hle) ?_
    have := ht.instant_le hm
    rw [Nat.add_mul, Nat.one_mul, ← hlast]
    omega
  constructor
  · intro wrote hw first hf hwl hfl _
    obtain ⟨h1, h2⟩ := hinterval wrote hw hwl
    obtain ⟨h3, h4⟩ := hinterval first hf hfl
    exact fun _ hfits => (due_iff hdeadline h1 h2 hfits).trans (due_iff hdeadline h3 h4 hfits).symm
  · intro _ _ answer hw first hwl hfl _ _ hf
    obtain ⟨h1, h2⟩ := hinterval answer hw hwl
    obtain ⟨h3, h4⟩ := hinterval first hf.1.1 hfl
    exact fun _ hfits => (due_iff hdeadline h1 h2 hfits).trans (due_iff hdeadline h3 h4 hfits).symm

-- At a tick the sampled clock and the exact one come to the same verdict.
theorem tripped_eq {stall : Nat} {events : List WatchEvent} {watch : Watch}
    {reference : Reference}
    (hr : Watch.step.run (.start { stall := some stall }) events = some watch)
    (ha : Aligned stall (Watchdog.checkPeriod { stall := some stall }) events)
    (hdue : watch.elapsed = watch.nextTick) (hstall : reference.stall = stall)
    (helapsed : reference.elapsed = watch.elapsed) (hmoves : reference.moves = moves events) :
    (watch.watchdog.tripped watch.clock watch.activity watch.elapsed).2 = reference.tripped := by
  have ht := traced hr
  have hc := moves_chronological events
  have hfollows : Follows (NoTickBetween stall (Watchdog.checkPeriod { stall := some stall }))
      (moves events) (resume watch.clock.sinceMillis (lastStamp .outbound (moves events))
        (lastStamp .inbound (moves events))) := by
    refine (tracks _ hr ?_).follows hc (aligned_sound hr ha)
    intro before after state he hrun
    rw [he] at ha
    exact aligned_sound hrun ha.of_append
  obtain ⟨ticks, hnext, -, -⟩ := ht.due
  rw [tripped_ended, ht.configured, ht.wrote, ht.heard]
  simp only [Watchdog.idled, Option.or_none, Reference.tripped, hmoves, hstall, helapsed]
  cases hs : resume watch.clock.sinceMillis (lastStamp .outbound (moves events))
      (lastStamp .inbound (moves events)) with
  | none =>
      rw [hs] at hfollows
      have hnone : oldestUnanswered (moves events) = none := by
        cases ho : oldestUnanswered (moves events) with
        | none => rfl
        | some first => exact absurd (oldestUnanswered_oldest hc ho).1 (hfollows first)
      simp [hnone]
  | some since =>
      rw [hs] at hfollows
      obtain ⟨-, oldest, holdest, hagrees⟩ := hfollows
      obtain ⟨first, hfirst⟩ := oldest_of_unanswered holdest.1
      have hunanswered := oldestUnanswered_oldest hc hfirst
      have hfits : (ticks + 1) * Watchdog.checkPeriod { stall := some stall } / MILLI ≤
          U64_MAX := by
        rw [← hnext, ← hdue, ht.elapsed]
        exact ha.fits
      have hiff := hagrees (ticks + 1) hfits
      rw [holdest.stamp_eq hunanswered,
        due_iff_exact ha (checkPeriod_pos _) hunanswered.1.1 hfits, ← hnext, ← hdue] at hiff
      simp only [Option.bind_some, Watchdog.stalled, hfirst]
      by_cases h : asMillis stall ≤ asMillis watch.elapsed - since
      · rw [if_pos h, if_pos (hiff.mp h)]
      · rw [if_neg h, if_neg (fun hn => h (hiff.mpr hn))]

structure InStep (stall : Nat) (events : List WatchEvent) (watch : Watch)
    (reference : Reference) : Prop where
  stall : reference.stall = stall
  period : reference.period = watch.watchdog.checkPeriod
  elapsed : reference.elapsed = watch.elapsed
  nextTick : reference.nextTick = watch.nextTick
  moves : reference.moves = moves events
  ended : reference.ended = watch.ended

theorem sampled_refines_exact (stall : Nat) (events : List WatchEvent)
    (ha : Aligned stall (Watchdog.checkPeriod { stall := some stall }) events) :
    SameTick stall events := by
  let period := Watchdog.checkPeriod { stall := some stall }
  have hrel : Option.Rel (InStep stall events)
      (Watch.step.run (.start { stall := some stall }) events)
      (Reference.step.run (.start stall period) events) :=
    Machine.run_lockstep (Aligned stall period) (InStep stall) (fun _ _ h => h.of_append)
      ⟨rfl, rfl, rfl, rfl, rfl, rfl⟩ ?_ ha
  · exact Machine.map_eq_of_rel hrel fun watch reference h => h.ended.symm
  · intro events event watch reference ha hr _ h
    unfold Watch.step Reference.step
    rw [h.ended]
    cases hended : watch.ended with
    | some reason => exact .none
    | none =>
        simp only [Option.isSome_none, Bool.false_eq_true, if_false]
        cases event with
        | moved way count =>
            by_cases hc : count = 0
            · simp only [hc, if_true]
              exact .none
            · simp only [hc, if_false]
              refine .some ⟨h.stall, h.period, h.elapsed, h.nextTick, ?_, rfl⟩
              rw [moves_concat, h.moves, h.elapsed, (traced hr).elapsed]
              rfl
        | elapse time =>
            simp only [h.elapsed, h.nextTick]
            split
            · refine .some ⟨h.stall, h.period, rfl, rfl, ?_, rfl⟩
              simpa [moves_concat, recorded] using h.moves
            · exact .none
        | tick =>
            simp only [h.elapsed, h.nextTick]
            split
            · rename_i hdue
              refine .some ⟨h.stall, h.period, rfl, ?_, ?_, ?_⟩
              · simp [h.period]
              · simpa [moves_concat, recorded] using h.moves
              · exact (tripped_eq hr ha.of_append hdue h.stall h.elapsed h.moves).symm
            · exact .none

-- Ticks with nothing between them.
def quiet (period ticks : Nat) : List WatchEvent :=
  (List.replicate ticks [.elapse period, .tick]).flatten

-- A lone write 10 ms in trips the fifth tick of both.
def loneWrite : List WatchEvent :=
  [.elapse (fromMillis 10), .moved .outbound 1, .elapse (fromMillis 90), .tick] ++
    quiet (fromMillis 100) 4

theorem lone_write_refines_exact :
    (Watch.step.run (.start { stall := some (fromMillis 400) }) loneWrite).map Watch.ended =
      some (some (.Stalled (fromMillis 400))) ∧
    SameTick (fromMillis 400) loneWrite :=
  ⟨by decide +kernel, sampled_refines_exact (fromMillis 400) loneWrite
    ⟨by decide, by decide, by decide +kernel, by decide +kernel⟩⟩

theorem quiet_succ (period ticks : Nat) :
    quiet period (ticks + 1) = quiet period ticks ++ [.elapse period, .tick] := by
  simp [quiet, List.replicate_succ', List.flatten_append]

-- A watchdog that nothing at hand trips stays as it is, however long it runs.
theorem run_quiet (watch : Watch) (hended : watch.ended = none)
    (hdue : watch.nextTick = watch.elapsed + watch.watchdog.checkPeriod)
    (hcalm : ∀ elapsed, watch.watchdog.tripped watch.clock watch.activity elapsed =
      (watch.clock, none)) (ticks : Nat) :
    Watch.step.run watch (quiet watch.watchdog.checkPeriod ticks) =
      some { watch with
        elapsed := watch.elapsed + ticks * watch.watchdog.checkPeriod
        nextTick := watch.nextTick + ticks * watch.watchdog.checkPeriod } := by
  induction ticks with
  | zero => simp [quiet]
  | succ ticks ih =>
      have he : watch.elapsed + ticks * watch.watchdog.checkPeriod +
          watch.watchdog.checkPeriod = watch.nextTick + ticks * watch.watchdog.checkPeriod := by
        omega
      rw [quiet_succ, Machine.run_append, ih]
      simp only [Option.bind_some, Machine.run_cons, Machine.run_nil, Watch.step, hended,
        Option.isSome_none, Bool.false_eq_true, if_false, he, Nat.le_refl, if_true, hcalm]
      congr 2 <;> rw [Nat.add_mul] <;> omega

theorem reference_quiet (stall period ticks : Nat) :
    Reference.step.run (.start stall period) (quiet period ticks) =
      some { Reference.start stall period with
        elapsed := ticks * period
        nextTick := ticks * period + period } := by
  induction ticks with
  | zero => simp [quiet, Reference.start]
  | succ ticks ih =>
      have hnone (reference : Reference) (hm : reference.moves = []) :
          reference.tripped = none := by
        simp [Reference.tripped, hm, oldestUnanswered]
      rw [quiet_succ, Machine.run_append, ih]
      have hcalm (elapsed nextTick : Nat) : Reference.tripped
          { stall := stall, period := period, elapsed := elapsed, nextTick := nextTick } = none :=
        hnone _ rfl
      simp only [Option.bind_some, Machine.run_cons, Machine.run_nil, Reference.step,
        Reference.start, Option.isSome_none, Bool.false_eq_true, if_false, Nat.le_refl, if_true,
        hcalm, Nat.add_mul, Nat.one_mul]

theorem duration_quiet (period ticks : Nat) :
    Machine.duration WatchEvent.delay (quiet period ticks) = ticks * period := by
  induction ticks with
  | zero => simp [quiet]
  | succ ticks ih =>
      rw [quiet_succ, Machine.duration_append, ih, Nat.add_mul]
      simp [Machine.duration, WatchEvent.delay]

theorem moves_quiet (period ticks : Nat) (events : List WatchEvent) :
    moves (quiet period ticks ++ events) =
      (Machine.timed WatchEvent.delay (ticks * period) events).filterMap recorded := by
  have hquiet : moves (quiet period ticks) = [] := by
    induction ticks with
    | zero => rfl
    | succ ticks ih =>
        rw [quiet_succ, moves, Machine.timed_append, List.filterMap_append]
        change moves (quiet period ticks) ++ [] = []
        rw [ih, List.append_nil]
  rw [moves, Machine.timed_append, List.filterMap_append, duration_quiet, Nat.zero_add]
  change moves (quiet period ticks) ++ _ = _
  rw [hquiet, List.nil_append]

instance (stall : Nat) (events : List WatchEvent) : Decidable (SameTick stall events) := by
  unfold SameTick
  infer_instance

-- Each movement falls strictly between two ticks, as an instant.
def BetweenTicks (period : Nat) (events : List WatchEvent) : Prop :=
  ∀ move ∈ moves events, ¬period ∣ move.instant

instance (period : Nat) (events : List WatchEvent) : Decidable (BetweenTicks period events) := by
  unfold BetweenTicks
  infer_instance

-- The answer comes 0.3 ms after the first tick and is stamped with its millisecond.
def answerOnTick : List WatchEvent :=
  [.elapse (fromMillis 10), .moved .outbound 1, .elapse (fromMillis 90), .tick,
    .elapse 300000, .moved .inbound 1, .elapse (fromMillis 50 - 300000), .moved .outbound 1,
    .elapse (fromMillis 50), .tick] ++ quiet (fromMillis 100) 3

-- A deadline of 403.999996 ms loses its fraction, and the ticks theirs.
def fractionalPeriod : List WatchEvent :=
  [.elapse (fromMillis 10), .moved .outbound 1, .elapse 90999999, .tick,
    .elapse 1, .moved .inbound 1, .elapse (fromMillis 49), .moved .outbound 1,
    .elapse 51999998, .tick] ++ quiet 100999999 3

-- A write just before the millisecond clock saturates.
def saturated : List WatchEvent :=
  quiet (fromMillis 100) 184467440737095512 ++
    ([.elapse (fromMillis 50), .moved .outbound 1, .elapse (fromMillis 50), .tick] ++
      quiet (fromMillis 100) 4)

theorem saturated_not_sameTick : ¬SameTick (fromMillis 400) saturated := by
  have hperiod : Watchdog.checkPeriod { stall := some (fromMillis 400) } = fromMillis 100 := by
    decide
  have hwatch := run_quiet (.start { stall := some (fromMillis 400) }) rfl
    (Nat.zero_add _).symm (fun _ => rfl) 184467440737095512
  unfold SameTick saturated
  simp only [Watch.start, hperiod] at hwatch ⊢
  rw [Machine.run_append, Machine.run_append, hwatch, reference_quiet]
  decide +kernel

theorem sampled_leads_exact :
    (Watchdog.checkPeriod { stall := some (fromMillis 400) } ∣ fromMillis 400 ∧
      BetweenTicks (fromMillis 100) answerOnTick ∧ ¬SameTick (fromMillis 400) answerOnTick) ∧
    (Watchdog.checkPeriod { stall := some 403999996 } ∣ 403999996 ∧
      BetweenTicks 100999999 fractionalPeriod ∧ ¬SameTick 403999996 fractionalPeriod) ∧
    (BetweenTicks (fromMillis 100) saturated ∧ ¬SameTick (fromMillis 400) saturated) := by
  refine ⟨⟨by decide, by decide +kernel, by decide +kernel⟩,
    ⟨by decide, by decide +kernel, by decide +kernel⟩, ?_, saturated_not_sameTick⟩
  unfold BetweenTicks saturated
  rw [moves_quiet]
  decide +kernel

end LwdMixnet
