import LwdMixnet.Splice.Moves

namespace LwdMixnet

-- Where a tick leaves the clock.
def resume (since wrote heard : Option Nat) : Option Nat :=
  (outstanding wrote heard).map fun wrote => max (since.getD wrote) (heard.getD 0)

theorem tripped_clock (watchdog : Watchdog) (clock : StallClock) (activity : Activity)
    (elapsed : Nat) :
    (watchdog.tripped clock activity elapsed).1 =
      ⟨resume clock.sinceMillis activity.toRemote.movedAt activity.fromRemote.movedAt⟩ := by
  cases h : outstanding activity.toRemote.movedAt activity.fromRemote.movedAt <;>
    simp [Watchdog.tripped, resume, h]

theorem tripped_ended (watchdog : Watchdog) (clock : StallClock) (activity : Activity)
    (elapsed : Nat) :
    (watchdog.tripped clock activity elapsed).2 =
      ((resume clock.sinceMillis activity.toRemote.movedAt activity.fromRemote.movedAt).bind
        (watchdog.stalled (asMillis elapsed))).or
      (watchdog.idled (asMillis elapsed)
        (max (activity.toRemote.movedAt.getD 0) (activity.fromRemote.movedAt.getD 0))) := by
  cases h : outstanding activity.toRemote.movedAt activity.fromRemote.movedAt <;>
    simp [Watchdog.tripped, resume, h]

-- What a state says of the execution that led to it.
structure Watch.Traced (watchdog : Watchdog) (events : List WatchEvent) (watch : Watch) :
    Prop where
  configured : watch.watchdog = watchdog
  elapsed : watch.elapsed = Machine.duration WatchEvent.delay events
  wrote : watch.activity.toRemote.movedAt = lastStamp .outbound (moves events)
  heard : watch.activity.fromRemote.movedAt = lastStamp .inbound (moves events)
  due : ∃ ticks, watch.nextTick = (ticks + 1) * watchdog.checkPeriod ∧
    ticks * watchdog.checkPeriod ≤ watch.elapsed ∧ watch.elapsed ≤ watch.nextTick

theorem movedAt_record (activity : Activity) (way other : Way) (count : Nat)
    (elapsed : Nat) (hc : 0 < count) :
    ((activity.record way count elapsed).direction other).movedAt =
      if way = other then some (asMillis elapsed) else (activity.direction other).movedAt := by
  have hpos (bytes : Nat) : 0 < bytes + count := by omega
  cases way <;> cases other
  · simp [Activity.record, Activity.direction, Direction.movedAt, Direction.record, hpos]
  · rfl
  · rfl
  · simp [Activity.record, Activity.direction, Direction.movedAt, Direction.record, hpos]

theorem traced_step {watchdog : Watchdog} {events : List WatchEvent} {watch next : Watch}
    {event : WatchEvent} (ht : watch.Traced watchdog events)
    (hs : Watch.step watch event = some next) : next.Traced watchdog (events ++ [event]) := by
  obtain ⟨hdog, helapsed, hwrote, hheard, ticks, hnext, hlo, hhi⟩ := ht
  obtain ⟨-, ⟨way, count, rfl, hc, rfl⟩ | ⟨time, rfl, hle, rfl⟩ | ⟨rfl, heq, rfl⟩⟩ :=
    Watch.step_cases hs
  · have hmoves : moves (events ++ [.moved way count]) =
        moves events ++ [⟨way, watch.elapsed⟩] := by
      rw [moves_concat, helapsed]
      rfl
    refine ⟨hdog, by simp [helapsed, WatchEvent.delay], ?_, ?_, ticks, hnext, hlo, hhi⟩
    · rw [hmoves, lastStamp_concat, ← hwrote]
      exact movedAt_record watch.activity way .outbound count watch.elapsed hc
    · rw [hmoves, lastStamp_concat, ← hheard]
      exact movedAt_record watch.activity way .inbound count watch.elapsed hc
  · have hmoves : moves (events ++ [.elapse time]) = moves events := by
      simp [moves_concat, recorded]
    exact ⟨hdog, by simp [helapsed, WatchEvent.delay], hmoves ▸ hwrote, hmoves ▸ hheard,
      ticks, hnext, hlo.trans (Nat.le_add_right _ _), hle⟩
  · have hmoves : moves (events ++ [.tick]) = moves events := by
      simp [moves_concat, recorded]
    refine ⟨hdog, by simp [helapsed, WatchEvent.delay], hmoves ▸ hwrote, hmoves ▸ hheard,
      ticks + 1, ?_, ?_, ?_⟩
    · rw [hdog, hnext, Nat.add_mul (ticks + 1), Nat.one_mul]
    · exact (heq.trans hnext).ge
    · exact heq.le.trans (Nat.le_add_right _ _)

theorem traced {watchdog : Watchdog} {events : List WatchEvent} {watch : Watch}
    (hr : Watch.step.run (.start watchdog) events = some watch) :
    watch.Traced watchdog events := by
  refine Machine.run_history (fun events watch => Watch.Traced watchdog events watch)
    ?_ (fun _ _ _ _ _ ht hs => traced_step ht hs) hr
  exact ⟨rfl, rfl, rfl, rfl, 0, by simp [Watch.start], by simp, Nat.zero_le _⟩

theorem Watch.Traced.instant_le {watchdog : Watchdog} {events : List WatchEvent} {watch : Watch}
    (ht : watch.Traced watchdog events) {move : Move} (hm : move ∈ moves events) :
    move.instant ≤ watch.elapsed :=
  ht.elapsed ▸ instant_le_duration hm

-- A running clock stands for the unanswered movements: `agrees` relates its
-- start to the oldest of them. A clock at rest means there are none.
def Follows (agrees : Nat → Nat → Prop) (moves : List Move) : Option Nat → Prop
  | none => ∀ move, ¬Unanswered moves move
  | some since => (∀ heard, lastStamp .inbound moves = some heard → heard ≤ since) ∧
      ∃ first, Oldest moves first ∧ agrees since first.stamp

section Tick

variable {agrees : Nat → Nat → Prop} {old new : List Move} {since : Option Nat} {ticked : Nat}

theorem unanswered_old (move : Move) (hm : move ∈ old) (hu : Unanswered (old ++ new) move) :
    Unanswered old move :=
  ⟨hm, hu.2.1, fun answer ha => hu.2.2 answer (List.mem_append_left _ ha)⟩

theorem lastStamp_append (way : Way) (hno : ∀ move ∈ new, move.way ≠ way) :
    lastStamp way (old ++ new) = lastStamp way old := by
  induction new using List.reverseRecOn with
  | nil => simp
  | append_singleton new move ih =>
      rw [← List.append_assoc, lastStamp_concat, if_neg (hno move (by simp))]
      exact ih (fun other ho => hno other (by simp [ho]))

-- Whether the direction moved since the last tick decides where its last stamp
-- comes from.
theorem lastStamp_new (way : Way) (hc : Chronological (old ++ new)) {answer : Move}
    (ha : answer ∈ new) (hw : answer.way = way) :
    ∃ last ∈ new, last.way = way ∧ lastStamp way (old ++ new) = some last.stamp := by
  induction new using List.reverseRecOn with
  | nil => cases ha
  | append_singleton new move ih =>
      rw [← List.append_assoc] at hc ⊢
      rw [lastStamp_concat]
      by_cases hm : move.way = way
      · exact ⟨move, by simp, hm, by simp [hm]⟩
      · have hne : answer ≠ move := by rintro rfl; exact hm hw
        obtain ⟨last, hl, hway, hs⟩ := ih (List.pairwise_append.mp hc).1 (by
          simpa [hne] using ha)
        exact ⟨last, by simp [hl], hway, by simp [hm, hs]⟩

-- The start of the unanswered run, tick by tick. A fresh clock takes the latest
-- write, a running one is moved up to the latest answer, and `agrees` is asked
-- for at just these two places.
theorem follows_tick (hc : Chronological (old ++ new)) (hf : Follows agrees old since)
    (hold : ∀ move ∈ old, move.stamp ≤ ticked) (hnew : ∀ move ∈ new, ticked ≤ move.stamp)
    (hsince : ∀ start, since = some start → start ≤ ticked)
    (hfresh : ∀ wrote ∈ new, ∀ first ∈ new, first.stamp ≤ wrote.stamp →
      agrees wrote.stamp first.stamp)
    (hmoved : ∀ start, since = some start → ∀ answer ∈ new, start ≤ answer.stamp →
      lastStamp .inbound (old ++ new) = some answer.stamp → ∀ first ∈ new,
      Oldest (old ++ new) first → agrees answer.stamp first.stamp) :
    Follows agrees (old ++ new) (resume since (lastStamp .outbound (old ++ new))
      (lastStamp .inbound (old ++ new))) := by
  cases hout : outstanding (lastStamp .outbound (old ++ new))
      (lastStamp .inbound (old ++ new)) with
  | none =>
      simpa only [resume, hout, Option.map_none, Follows] using outstanding_none hc hout
  | some wrote =>
      obtain ⟨latest, hlatest, rfl⟩ := outstanding_some hc hout
      obtain ⟨first, hfirst⟩ := exists_oldest hc hlatest
      simp only [resume, hout, Option.map_some, Follows]
      refine ⟨fun heard hh => by simp [hh], first, hfirst, ?_⟩
      cases since with
      | none =>
          have hin (move : Move) (hu : Unanswered (old ++ new) move) : move ∈ new :=
            (List.mem_append.mp hu.1).resolve_left fun hm => hf move (unanswered_old move hm hu)
          have hheard : (lastStamp .inbound (old ++ new)).getD 0 ≤ latest.stamp := by
            cases hl : lastStamp .inbound (old ++ new) with
            | none => exact Nat.zero_le _
            | some heard => exact (heard_lt_outstanding hout hl).le
          rw [Option.getD_none, Nat.max_eq_left hheard]
          exact hfresh latest (hin latest hlatest) first (hin first hfirst.1)
            (hfirst.2 latest hlatest)
      | some start =>
          obtain ⟨hheard, before, hbefore, hagrees⟩ := hf
          have hstart := hsince start rfl
          rw [Option.getD_some]
          by_cases hanswer : ∃ answer ∈ new, answer.way = .inbound
          · obtain ⟨answer, ha, hway⟩ := hanswer
            obtain ⟨last, hl, hin, hs⟩ := lastStamp_new .inbound hc ha hway
            have hle : start ≤ last.stamp := hstart.trans (hnew last hl)
            have hmem : first ∈ new := by
              refine (List.mem_append.mp hfirst.1.1).resolve_left fun hm => ?_
              have h1 := hold first hm
              have h2 := hnew last hl
              have h3 := hfirst.1.2.2 last (List.mem_append_right _ hl) hin
              omega
            rw [hs, Option.getD_some, Nat.max_eq_right hle]
            exact hmoved start rfl last hl hle hs first hmem hfirst
          · have hno : ∀ move ∈ new, move.way ≠ .inbound :=
              fun move hm hw => hanswer ⟨move, hm, hw⟩
            rw [lastStamp_append .inbound hno]
            have hmax : max start ((lastStamp .inbound old).getD 0) = start := by
              cases hl : lastStamp .inbound old with
              | none => exact Nat.max_eq_left (Nat.zero_le _)
              | some heard => exact Nat.max_eq_left (hheard heard hl)
            have hkept : Unanswered (old ++ new) before := by
              refine ⟨List.mem_append_left _ hbefore.1.1, hbefore.1.2.1, ?_⟩
              intro answer ha hw
              rcases List.mem_append.mp ha with ha | ha
              · exact hbefore.1.2.2 answer ha hw
              · exact absurd hw (hno answer ha)
            have heq : first.stamp = before.stamp := by
              refine Nat.le_antisymm (hfirst.2 before hkept) ?_
              rcases List.mem_append.mp hfirst.1.1 with hm | hm
              · exact hbefore.2 first (unanswered_old first hm hfirst.1)
              · exact (hold before hbefore.1.1).trans (hnew first hm)
            rw [hmax, heq]
            exact hagrees

end Tick

theorem resume_le {moves : List Move} {since : Option Nat} {bound start : Nat}
    (hmoves : ∀ move ∈ moves, move.stamp ≤ bound)
    (hsince : ∀ start, since = some start → start ≤ bound)
    (h : resume since (lastStamp .outbound moves) (lastStamp .inbound moves) = some start) :
    start ≤ bound := by
  obtain ⟨wrote, ho, rfl⟩ := Option.map_eq_some_iff.mp h
  have hlast (way : Way) (stamp : Nat) (hl : lastStamp way moves = some stamp) :
      stamp ≤ bound := by
    obtain ⟨move, hm, -, rfl⟩ := lastStamp_mem hl
    exact hmoves move hm
  have hwrote := hlast .outbound wrote (Option.filter_eq_some_iff.mp ho).1
  refine Nat.max_le.mpr ⟨?_, ?_⟩
  · cases since with
    | none => exact hwrote
    | some start => exact hsince start rfl
  · cases hl : lastStamp .inbound moves with
    | none => exact Nat.zero_le _
    | some heard => exact hlast .inbound heard hl

def Watch.lastTick (watch : Watch) : Nat :=
  watch.nextTick - watch.watchdog.checkPeriod

theorem Watch.Traced.lastTick {watchdog : Watchdog} {events : List WatchEvent} {watch : Watch}
    (ht : watch.Traced watchdog events) :
    watch.lastTick ≤ watch.elapsed ∧ watch.elapsed ≤ watch.nextTick ∧
    watch.nextTick = watch.lastTick + watchdog.checkPeriod ∧
    ∃ ticks, watch.lastTick = ticks * watchdog.checkPeriod := by
  obtain ⟨ticks, hnext, hlo, hhi⟩ := ht.due
  have he : watch.lastTick = ticks * watchdog.checkPeriod := by
    unfold Watch.lastTick
    rw [hnext, ht.configured, Nat.add_mul, Nat.one_mul, Nat.add_sub_cancel]
  refine ⟨he ▸ hlo, hhi, ?_, ticks, he⟩
  rw [he, hnext, Nat.add_mul, Nat.one_mul]

-- The movements up to the last tick are the ones the clock has seen.
def Tracks (agrees : Nat → Nat → Prop) (ticked : Nat) (moves : List Move)
    (since : Option Nat) : Prop :=
  ∃ old new, moves = old ++ new ∧ (∀ move ∈ old, move.instant ≤ ticked) ∧
    (∀ move ∈ new, ticked ≤ move.instant) ∧
    (∀ start, since = some start → start ≤ asMillis ticked) ∧ Follows agrees old since

-- What a tick needs of the movements since the last one for the clock to keep
-- agreeing with the oldest unanswered movement.
structure Sound (agrees : Nat → Nat → Prop) (ticked : Nat) (moves : List Move)
    (since : Option Nat) : Prop where
  fresh : ∀ wrote ∈ moves, ∀ first ∈ moves, ticked ≤ wrote.instant → ticked ≤ first.instant →
    first.stamp ≤ wrote.stamp → agrees wrote.stamp first.stamp
  moved : ∀ start, since = some start → ∀ answer ∈ moves, ∀ first, ticked ≤ answer.instant →
    ticked ≤ first.instant → start ≤ answer.stamp →
    lastStamp .inbound moves = some answer.stamp → Oldest moves first →
    agrees answer.stamp first.stamp

theorem Tracks.follows {agrees : Nat → Nat → Prop} {ticked : Nat} {moves : List Move}
    {since : Option Nat} (hc : Chronological moves) (ht : Tracks agrees ticked moves since)
    (hs : Sound agrees ticked moves since) :
    Follows agrees moves (resume since (lastStamp .outbound moves) (lastStamp .inbound moves)) := by
  obtain ⟨old, new, rfl, hold, hnew, hsince, hf⟩ := ht
  refine follows_tick hc hf (fun move hm => asMillis_mono (hold move hm))
    (fun move hm => asMillis_mono (hnew move hm)) hsince ?_ ?_
  · intro wrote hw first hfirst hle
    exact hs.fresh wrote (List.mem_append_right _ hw) first (List.mem_append_right _ hfirst)
      (hnew wrote hw) (hnew first hfirst) hle
  · intro start hstart answer ha hle hlast first hfirst holdest
    exact hs.moved start hstart answer (List.mem_append_right _ ha) first (hnew answer ha)
      (hnew first hfirst) hle hlast holdest

theorem Tracks.moved {agrees : Nat → Nat → Prop} {ticked : Nat} {moves : List Move}
    {since : Option Nat} (ht : Tracks agrees ticked moves since) (move : Move)
    (hm : ticked ≤ move.instant) : Tracks agrees ticked (moves ++ [move]) since := by
  obtain ⟨old, new, rfl, hold, hnew, hsince, hf⟩ := ht
  refine ⟨old, new ++ [move], List.append_assoc .., hold, ?_, hsince, hf⟩
  intro other ho
  rcases List.mem_append.mp ho with ho | ho
  · exact hnew other ho
  · obtain rfl := List.mem_singleton.mp ho
    exact hm

theorem Tracks.tick {agrees : Nat → Nat → Prop} {ticked now : Nat} {moves : List Move}
    {since : Option Nat} (hc : Chronological moves) (ht : Tracks agrees ticked moves since)
    (hs : Sound agrees ticked moves since) (hle : ticked ≤ now)
    (hnow : ∀ move ∈ moves, move.instant ≤ now) :
    Tracks agrees now moves
      (resume since (lastStamp .outbound moves) (lastStamp .inbound moves)) := by
  have hf := ht.follows hc hs
  obtain ⟨-, -, -, -, -, hsince, -⟩ := ht
  refine ⟨moves, [], (List.append_nil _).symm, hnow, by simp, ?_, hf⟩
  intro start hstart
  exact resume_le (fun move hm => asMillis_mono (hnow move hm))
    (fun start h => (hsince start h).trans (asMillis_mono hle)) hstart

theorem tracks (agrees : Nat → Nat → Prop) {watchdog : Watchdog} {events : List WatchEvent}
    {watch : Watch} (hr : Watch.step.run (.start watchdog) events = some watch)
    (hsound : ∀ before after state, events = before ++ .tick :: after →
      Watch.step.run (.start watchdog) before = some state →
      Sound agrees state.lastTick (moves before) state.clock.sinceMillis) :
    Tracks agrees watch.lastTick (moves events) watch.clock.sinceMillis := by
  induction events using List.reverseRecOn generalizing watch with
  | nil =>
      obtain rfl := Option.some.inj hr
      exact ⟨[], [], rfl, by simp, by simp, by simp [Watch.start], by simp [Follows, Watch.start,
        Unanswered]⟩
  | append_singleton events event ih =>
      obtain ⟨state, hrun, hstep⟩ := Machine.run_concat_some hr
      have ht := traced hrun
      have hi := ih hrun fun before after middle he =>
        hsound before (after ++ [event]) middle (by rw [he]; simp)
      obtain ⟨-, ⟨way, count, rfl, hc, rfl⟩ | ⟨time, rfl, hle, rfl⟩ | ⟨rfl, heq, rfl⟩⟩ :=
        Watch.step_cases hstep
      · have hmoves : moves (events ++ [.moved way count]) =
            moves events ++ [⟨way, state.elapsed⟩] := by
          rw [moves_concat, ht.elapsed]
          rfl
        rw [hmoves]
        exact hi.moved _ ht.lastTick.1
      · rw [moves_concat]
        simp only [recorded, Option.toList_none, List.append_nil]
        exact hi
      · have hlast : ({ state with
            clock := (state.watchdog.tripped state.clock state.activity state.elapsed).1
            ended := (state.watchdog.tripped state.clock state.activity state.elapsed).2
            nextTick := state.nextTick + state.watchdog.checkPeriod } : Watch).lastTick =
              state.elapsed := by
          simp [Watch.lastTick, heq]
        have hmoves : moves (events ++ [.tick]) = moves events := by
          simp [moves_concat, recorded]
        rw [hlast, hmoves]
        simp only [tripped_clock]
        rw [ht.wrote, ht.heard]
        exact hi.tick (moves_chronological events) (hsound events [] state rfl hrun)
          ht.lastTick.1 (fun move hm => ht.instant_le hm)

end LwdMixnet
