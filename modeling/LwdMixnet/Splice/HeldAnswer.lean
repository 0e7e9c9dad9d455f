import LwdMixnet.Splice.BlockedWrite

namespace LwdMixnet

def remoteRead : Nat × SpliceEvent → Option Nat
  | (instant, .inbound (.read chunk)) => if chunk = [] then none else some instant
  | _ => none

-- The instants at which the inbound pump read bytes from the remote.
def remoteReads (events : List SpliceEvent) : List Nat :=
  (Machine.timed SpliceEvent.delay 0 events).filterMap remoteRead

def Pump.carrying : Pump → Bool
  | .writing _ _ | .flushing _ => true
  | _ => false

-- The inbound pump is suspended in the write or the flush of bytes it read
-- less than the deadline ago.
def HoldsAnswer (stall : Nat) (events : List SpliceEvent) (splice : Splice) : Prop :=
  splice.inbound.carrying ∧ ∃ read, (remoteReads events).getLast? = some read ∧
    splice.watch.elapsed < read + stall

theorem remoteReads_concat (events : List SpliceEvent) (event : SpliceEvent) :
    remoteReads (events ++ [event]) = remoteReads events ++
      (remoteRead (Machine.duration SpliceEvent.delay events, event)).toList := by
  simp only [remoteReads, Machine.timed_concat, List.filterMap_append, Nat.zero_add]
  cases h : remoteRead (Machine.duration SpliceEvent.delay events, event) <;> simp [h]

theorem Splice.elapsed_eq {watchdog : Watchdog} {events : List SpliceEvent} {splice : Splice}
    (hr : Splice.step.run (.start watchdog) events = some splice) :
    splice.watch.elapsed = Machine.duration SpliceEvent.delay events := by
  have hclock := Machine.run_clock SpliceEvent.delay (fun splice => splice.watch.elapsed)
    (fun _ _ _ hs => Splice.step_elapsed hs) hr
  simpa [Splice.start, Watch.start] using hclock

-- Each read the inbound pump made has been recorded since, or is the last one
-- and still under way to the wallet.
def Passed (events : List SpliceEvent) (watched : List WatchEvent) (splice : Splice) : Prop :=
  ∀ read ∈ remoteReads events,
    (∃ move ∈ moves watched, move.way = .inbound ∧ read ≤ move.instant) ∨
      splice.inbound.carrying ∧ (remoteReads events).getLast? = some read

theorem Passed.keep {events later : List SpliceEvent} {watched rest : List WatchEvent}
    {splice next : Splice} (h : Passed events watched splice)
    (hreads : remoteReads later = remoteReads events)
    (hcarrying : splice.inbound.carrying → next.inbound.carrying) :
    Passed later (watched ++ rest) next := by
  intro read hm
  rw [hreads] at hm ⊢
  obtain ⟨move, hmove, hway, hle⟩ | ⟨hc, hlast⟩ := h read hm
  · exact Or.inl ⟨move, moves_append_left hmove rest, hway, hle⟩
  · exact Or.inr ⟨hcarrying hc, hlast⟩

theorem remoteReads_le {events : List SpliceEvent} {read : Nat} (hm : read ∈ remoteReads events) :
    read ≤ Machine.duration SpliceEvent.delay events := by
  obtain ⟨⟨instant, event⟩, ht, hread⟩ := List.mem_filterMap.mp hm
  have hle := (Machine.timed_bounds SpliceEvent.delay 0 events instant event ht).2
  have he : read = instant := by
    unfold remoteRead at hread
    split at hread
    · split_ifs at hread
      simp_all
    · cases hread
  omega

theorem passed {watchdog : Watchdog} {events : List SpliceEvent} {splice : Splice}
    (hr : Splice.step.run (.start watchdog) events = some splice) (hended : splice.ended = none) :
    Passed events ((Splice.start watchdog).watched events) splice := by
  refine Machine.run_history (fun events splice => splice.ended = none →
    Passed events ((Splice.start watchdog).watched events) splice)
    (fun _ => by simp [Passed, remoteReads, Machine.timed]) ?_ hr hended
  intro events state event next hrun hholds hs hnext
  have hi := hholds (Splice.step_cases hs).1
  have hwatched : (Splice.start watchdog).watched (events ++ [event]) =
      (Splice.start watchdog).watched events ++ state.view event :=
    Machine.views_concat Splice.step Splice.view hrun hs
  have htime := Splice.elapsed_eq hrun
  rw [hwatched]
  obtain ⟨-, ⟨io, pump, watch, rfl, hp, -, rfl⟩ | ⟨io, pump, watch, rfl, hp, -, rfl⟩ |
    ⟨time, watch, rfl, -, rfl⟩ | ⟨watch, rfl, -, rfl⟩⟩ := Splice.step_cases hs
  · exact hi.keep (by simp [remoteReads_concat, remoteRead]) id
  · obtain ⟨error, rfl, rfl⟩ | ⟨-, rfl, rfl⟩ | ⟨chunk, hreading, rfl, hne, -, rfl⟩ |
      ⟨count, rest, taken, hwriting, rfl, hw⟩ | ⟨count, hflushing, rfl, rfl⟩ := Pump.step_cases hp
    · cases hnext
    · cases hnext
    · -- nothing is held, so every earlier read has been recorded
      intro read hm
      rw [remoteReads_concat] at hm ⊢
      simp only [remoteRead, hne, if_false, Option.toList_some] at hm ⊢
      rcases List.mem_append.mp hm with hm | hm
      · obtain ⟨move, hmove, hway, hle⟩ | ⟨hc, -⟩ := hi read hm
        · exact Or.inl ⟨move, moves_append_left hmove _, hway, hle⟩
        · simp [hreading, Pump.carrying] at hc
      · refine Or.inr ⟨rfl, ?_⟩
        rw [List.mem_singleton.mp hm, List.getLast?_concat]
    · obtain ⟨left, -, rfl⟩ | ⟨-, rfl⟩ | ⟨error, -, rfl⟩ := hw
      · exact hi.keep (by simp [remoteReads_concat, remoteRead]) fun _ => rfl
      · exact hi.keep (by simp [remoteReads_concat, remoteRead]) fun _ => rfl
      · cases hnext
    · -- the record at the end of the turn covers every read so far
      intro read hm
      rw [remoteReads_concat] at hm
      simp only [remoteRead, Option.toList_none, List.append_nil] at hm
      refine Or.inl ⟨⟨.inbound, state.watch.elapsed⟩, ?_, rfl, htime ▸ remoteReads_le hm⟩
      have hview : state.view (.inbound .flushed) = [.moved .inbound count] := by
        simp [Splice.view, Pump.records, hflushing, Pump.recorded]
      rw [hview, moves_concat, ← (traced (Splice.run_view hrun)).elapsed]
      simp [recorded]
  · exact hi.keep (by simp [remoteReads_concat, remoteRead]) id
  · exact hi.keep (by simp [remoteReads_concat, remoteRead]) id

-- A verdict of the watchdog's is reached at a tick.
theorem stalled_at_tick {splice last : Splice} {event : SpliceEvent} {transfer : Transfer}
    {stall : Nat} (hs : splice.step event = some last)
    (hended : last.ended = some (transfer, .Stalled stall)) :
    event = .tick ∧ last.watch.elapsed = splice.watch.elapsed ∧
      (splice.watch.watchdog.tripped splice.watch.clock splice.watch.activity
        splice.watch.elapsed).2 = some (.Stalled stall) := by
  obtain ⟨result, he⟩ | ⟨he, -, helapsed, htripped⟩ := Splice.ended_cases hs hended
  · cases result <;> cases he
  · exact ⟨he, helapsed, htripped⟩

-- `Stalled` finds nothing read within the deadline just where the inbound pump
-- is not still passing on what it read, and the milliseconds do not make any
-- read that old before its time.
theorem stalled_after_silence (watchdog : Watchdog) (stall : Nat) (events : List SpliceEvent)
    (last : Splice) (transfer : Transfer)
    (hr : Splice.step.run (.start watchdog) events = some last)
    (hended : last.ended = some (transfer, .Stalled stall)) :
    ∃ before state, events = before ++ [.tick] ∧
      Splice.step.run (.start watchdog) before = some state ∧
      ((∀ read ∈ remoteReads events, read + stall ≤ last.watch.elapsed) ↔
        ¬HoldsAnswer stall before state ∧
          ∀ read ∈ remoteReads before, ¬Premature stall read state.watch.elapsed) := by
  cases events using List.reverseRecOn with
  | nil =>
      obtain rfl := Option.some.inj hr
      cases hended
  | append_singleton before event =>
      obtain ⟨state, hrun, hs⟩ := Machine.run_concat_some hr
      obtain ⟨rfl, helapsed, htripped⟩ := stalled_at_tick hs hended
      refine ⟨before, state, rfl, hrun, ?_⟩
      have hreads : remoteReads (before ++ [.tick]) = remoteReads before := by
        simp [remoteReads_concat, remoteRead]
      rw [hreads, helapsed]
      constructor
      · intro hpast
        refine ⟨?_, fun read hm hearly => Nat.not_lt.mpr (hpast read hm) hearly.2⟩
        rintro ⟨-, read, hlast, hlt⟩
        exact Nat.not_lt.mpr (hpast read (List.mem_of_getLast? hlast)) hlt
      · rintro ⟨hholds, hexact⟩ read hm
        have hgoes := (Splice.step_cases hs).1
        obtain ⟨move, hmove, hway, hle⟩ | ⟨hc, hlast⟩ := passed hrun hgoes read hm
        · have hwatch := Splice.run_view hrun
          have ht := traced hwatch
          obtain ⟨-, since, hsince, hdue⟩ := tripped_stalled htripped
          rw [ht.wrote, ht.heard] at hsince
          have hstart : move.stamp ≤ since := by
            obtain ⟨heard, hheard⟩ := lastStamp_isSome hmove hway
            obtain ⟨wrote, -, rfl⟩ := Option.map_eq_some_iff.mp hsince
            rw [hheard, Option.getD_some]
            exact (le_lastStamp (moves_chronological _) hheard hmove hway).trans
              (Nat.le_max_right _ _)
          have hread : asMillis read ≤ move.stamp := asMillis_mono hle
          have hnow : move.stamp ≤ asMillis state.watch.elapsed :=
            asMillis_mono (ht.instant_le hmove)
          exact le_of_not_premature (hexact read hm) (by omega)
        · by_contra hlt
          exact hholds ⟨hc, read, hlast, by omega⟩

-- A request at 10 ms, answered at 100 ms, and one at 200 ms that is not.
def secondRequest : List SpliceEvent :=
  [.elapse (fromMillis 10), .outbound (.read [1]), .outbound (.wrote 1), .outbound .flushed,
    .elapse (fromMillis 90), .inbound (.read [2]), .inbound (.wrote 1), .inbound .flushed,
    .elapse (fromMillis 100), .outbound (.read [3]), .outbound (.wrote 1), .outbound .flushed,
    .elapse (fromMillis 50), .tick] ++
    (List.replicate 4 [.elapse (fromMillis 250), .tick]).flatten

theorem second_request_after_silence : ∃ before state, secondRequest = before ++ [.tick] ∧
    Splice.step.run (.start { stall := some (fromSecs 1) }) before = some state ∧
    ((∀ read ∈ remoteReads secondRequest, read + fromSecs 1 ≤ fromMillis 1250) ↔
      ¬HoldsAnswer (fromSecs 1) before state ∧
        ∀ read ∈ remoteReads before, ¬Premature (fromSecs 1) read state.watch.elapsed) := by
  obtain ⟨last, hr, he⟩ : ∃ last,
      Splice.step.run (.start { stall := some (fromSecs 1) }) secondRequest = some last ∧
      (last.watch.elapsed, last.ended) =
        (fromMillis 1250, some (⟨2, 1⟩, .Stalled (fromSecs 1))) :=
    Option.map_eq_some_iff.mp (by decide +kernel)
  obtain ⟨hel, hended⟩ := Prod.mk.inj he
  rw [← hel]
  exact stalled_after_silence { stall := some (fromSecs 1) } (fromSecs 1) secondRequest last
    ⟨2, 1⟩ hr hended

-- The answer is read at 900 ms, and the wallet does not take it.
def answerInHand : List SpliceEvent :=
  [.elapse (fromMillis 10), .outbound (.read [1]), .outbound (.wrote 1), .outbound .flushed,
    .elapse (fromMillis 240), .tick, .elapse (fromMillis 250), .tick, .elapse (fromMillis 250),
    .tick, .elapse (fromMillis 150), .inbound (.read [2]), .elapse (fromMillis 100), .tick,
    .elapse (fromMillis 250), .tick]

theorem answer_in_hand_stalled :
    (Splice.step.run (.start { stall := some (fromSecs 1) }) answerInHand).map
      (fun splice => (splice.watch.elapsed, splice.ended)) =
        some (fromMillis 1250, some (⟨1, 0⟩, .Stalled (fromSecs 1))) ∧
    remoteReads answerInHand = [fromMillis 900] ∧
    fromMillis 1250 < fromMillis 900 + fromSecs 1 := by
  decide +kernel

end LwdMixnet
