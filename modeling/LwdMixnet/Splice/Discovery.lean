import LwdMixnet.Splice.Refinement

namespace LwdMixnet

theorem ended_at_tick {watchdog : Watchdog} {events : List WatchEvent} {watch : Watch}
    {reason : Ended} (hr : Watch.step.run (.start watchdog) events = some watch)
    (hended : watch.ended = some reason) :
    ∃ before state, events = before ++ [.tick] ∧
      Watch.step.run (.start watchdog) before = some state ∧
      state.elapsed = state.nextTick ∧ watch.elapsed = state.elapsed ∧
      (state.watchdog.tripped state.clock state.activity state.elapsed).2 = some reason := by
  cases events using List.reverseRecOn with
  | nil =>
      obtain rfl := Option.some.inj hr
      cases hended
  | append_singleton before event =>
      obtain ⟨state, hrun, hstep⟩ := Machine.run_concat_some hr
      by_cases htick : event = .tick
      · subst htick
        obtain ⟨-, ⟨_, _, he, -⟩ | ⟨_, he, -⟩ | ⟨-, heq, rfl⟩⟩ := Watch.step_cases hstep
        · cases he
        · cases he
        · exact ⟨before, state, rfl, hrun, heq, rfl, hended⟩
      · simp [Watch.going_on hstep htick] at hended

theorem stalled_some {watchdog : Watchdog} {now since stall : Nat}
    (h : watchdog.stalled now since = some (.Stalled stall)) :
    watchdog.stall = some stall ∧ asMillis stall ≤ now - since := by
  unfold Watchdog.stalled at h
  cases hs : watchdog.stall with
  | none => simp [hs] at h
  | some deadline =>
      simp only [hs] at h
      split_ifs at h with hle
      obtain rfl : deadline = stall := by simpa using h
      exact ⟨rfl, hle⟩

theorem idled_ne_stalled (watchdog : Watchdog) (now latest stall : Nat) :
    watchdog.idled now latest ≠ some (.Stalled stall) := by
  unfold Watchdog.idled
  cases watchdog.idle with
  | none => simp
  | some idle =>
      simp only
      split_ifs <;> simp

-- A verdict of `Stalled` is the running clock's.
theorem tripped_stalled {watchdog : Watchdog} {clock : StallClock} {activity : Activity}
    {elapsed stall : Nat}
    (h : (watchdog.tripped clock activity elapsed).2 = some (.Stalled stall)) :
    watchdog.stall = some stall ∧ ∃ since,
      resume clock.sinceMillis activity.toRemote.movedAt activity.fromRemote.movedAt =
        some since ∧ asMillis stall ≤ asMillis elapsed - since := by
  rw [tripped_ended] at h
  rcases Option.or_eq_some_iff.mp h with h | ⟨-, h⟩
  · obtain ⟨since, hs, hstalled⟩ := Option.bind_eq_some_iff.mp h
    obtain ⟨hstall, hle⟩ := stalled_some hstalled
    exact ⟨hstall, since, hs, hle⟩
  · exact absurd h (idled_ne_stalled _ _ _ _)

-- And a tick that lets the loop go on found the clock short of the deadline.
theorem not_tripped {watchdog : Watchdog} {clock : StallClock} {activity : Activity}
    {elapsed stall since : Nat} (hstall : watchdog.stall = some stall)
    (h : (watchdog.tripped clock activity elapsed).2 = none)
    (hs : resume clock.sinceMillis activity.toRemote.movedAt activity.fromRemote.movedAt =
      some since) : asMillis elapsed < since + asMillis stall := by
  rw [tripped_ended, hs, Option.bind_some, Option.or_eq_none_iff] at h
  have hle : ¬asMillis stall ≤ asMillis elapsed - since := by
    intro hle
    simp [Watchdog.stalled, hstall, hle] at h
  omega

-- The start at `since` trips no tick that one at `first` does not.
def NotBefore (stall period : Nat) (since first : Nat) : Prop :=
  ∀ ticks, since + asMillis stall ≤ asMillis (ticks * period) →
    first + asMillis stall ≤ asMillis (ticks * period)

-- The defect: at this tick a running clock is moved up to the last answer, and
-- some tick lies a deadline after that answer, but not a deadline after the
-- oldest write the answer leaves unanswered.
def Misdated (stall period : Nat) (events : List WatchEvent) (watch : Watch) : Prop :=
  ∃ start, watch.clock.sinceMillis = some start ∧
    ∃ heard, lastStamp .inbound (moves events) = some heard ∧ start ≤ heard ∧
      ∃ first, Oldest (moves events) first ∧
        ∃ ticks, heard + asMillis stall ≤ asMillis (ticks * period) ∧
          asMillis (ticks * period) < first.stamp + asMillis stall

theorem sound_of_not_misdated {stall period : Nat} {events : List WatchEvent} {watch : Watch}
    (h : ¬Misdated stall period events watch) :
    Sound (NotBefore stall period) watch.lastTick (moves events) watch.clock.sinceMillis := by
  constructor
  · intro wrote _ first _ _ _ hle ticks ht
    omega
  · intro start hstart answer _ first _ _ hle hlast hfirst ticks ht
    by_contra hlt
    exact h ⟨start, hstart, answer.stamp, hlast, hle, first, hfirst, ticks, ht, by omega⟩

-- Where no tick misdates the clock, and the milliseconds do not bring the last
-- one forward, `Stalled` is declared only once a write has gone unanswered for
-- the whole deadline.
theorem stalled_on_time (seconds : Nat) (events : List WatchEvent) (watch : Watch)
    (hr : Watch.step.run (.start { stall := some (fromSecs seconds) }) events = some watch)
    (hdated : ∀ before after state, events = before ++ .tick :: after →
      Watch.step.run (.start { stall := some (fromSecs seconds) }) before = some state →
      ¬Misdated (fromSecs seconds) (Watchdog.checkPeriod { stall := some (fromSecs seconds) })
        before state)
    (hexact : ∀ before state first, events = before ++ [.tick] →
      Watch.step.run (.start { stall := some (fromSecs seconds) }) before = some state →
      oldestUnanswered (moves before) = some first →
      ¬Premature (fromSecs seconds) first.instant state.elapsed)
    (hended : watch.ended = some (.Stalled (fromSecs seconds))) :
    ∃ move, Standing (moves events) move ∧
      move.instant + fromSecs seconds ≤ watch.elapsed := by
  obtain ⟨before, state, rfl, hrun, hdue, helapsed, htripped⟩ := ended_at_tick hr hended
  have ht := traced hrun
  have hsound := sound_of_not_misdated (hdated before [] state rfl hrun)
  have hc := moves_chronological before
  have htracks := tracks _ hrun fun first rest middle he hm =>
    sound_of_not_misdated (hdated first (rest ++ [.tick]) middle (by simp [he]) hm)
  obtain ⟨-, -, -, -, -, hbound, -⟩ :=
    htracks.tick hc hsound ht.lastTick.1 (fun move hm => ht.instant_le hm)
  have hfollows := htracks.follows hc hsound
  obtain ⟨-, since, hsince, hle⟩ := tripped_stalled htripped
  rw [ht.wrote, ht.heard] at hsince
  rw [hsince] at hfollows hbound
  obtain ⟨-, oldest, holdest, hagrees⟩ := hfollows
  obtain ⟨first, hfirst⟩ := oldest_of_unanswered holdest.1
  have hunanswered := oldestUnanswered_oldest hc hfirst
  obtain ⟨ticks, hnext, -, -⟩ := ht.due
  have hstamp : first.stamp + asMillis (fromSecs seconds) ≤ asMillis state.elapsed := by
    have hs := hbound since rfl
    rw [hdue, hnext] at hs hle ⊢
    rw [hunanswered.stamp_eq holdest]
    exact hagrees (ticks + 1) (by omega)
  refine ⟨first, ?_, ?_⟩
  · simpa [moves_concat, recorded] using hunanswered.1.standing
  · rw [helapsed]
    exact le_of_not_premature (hexact before state first rfl hrun hfirst) hstamp

-- A lone write at 10 ms, and the tick that gives up on it.
def loneRequest : List WatchEvent :=
  [.elapse (fromMillis 10), .moved .outbound 1, .elapse (fromMillis 240), .tick] ++
    quiet (fromMillis 250) 4

theorem lone_request_stalled_on_time : ∃ move, Standing (moves loneRequest) move ∧
    move.instant + fromSecs 1 ≤ fromMillis 1250 := by
  have hno : ∀ move ∈ moves loneRequest, move.way ≠ .inbound := by decide +kernel
  obtain ⟨watch, hr, he⟩ : ∃ watch,
      Watch.step.run (.start { stall := some (fromSecs 1) }) loneRequest = some watch ∧
      (watch.elapsed, watch.ended) = (fromMillis 1250, some (.Stalled (fromSecs 1))) :=
    Option.map_eq_some_iff.mp (by decide +kernel)
  obtain ⟨hel, hended⟩ := Prod.mk.inj he
  rw [← hel]
  refine stalled_on_time 1 loneRequest watch hr ?_ ?_ hended
  · rintro before after state hsplit - ⟨start, -, heard, hlast, -⟩
    obtain ⟨move, hm, hway, -⟩ := lastStamp_mem hlast
    exact hno move (hsplit ▸ moves_append_left hm _) hway
  · rintro before state first hsplit hrun hfirst ⟨-, hearly⟩
    have hwrite : ∀ move ∈ moves loneRequest, move.instant = fromMillis 10 := by
      decide +kernel
    have hnow : Machine.duration WatchEvent.delay before = fromMillis 1250 := by
      have hd : Machine.duration WatchEvent.delay loneRequest = fromMillis 1250 := by
        decide +kernel
      rw [hsplit, Machine.duration_append] at hd
      simpa [Machine.duration, WatchEvent.delay] using hd
    rw [(traced hrun).elapsed, hnow,
      hwrite first (hsplit ▸ moves_append_left (List.mem_of_find?_eq_some hfirst) _)] at hearly
    exact absurd hearly (by decide)

-- A write at 1 s, its answer at 5.1 s just after the first tick, and a write at
-- 9.9 s that has waited 20.1 s of its 21 when the sixth tick gives up.
def answerAfterTick : List WatchEvent :=
  [.elapse (fromMillis 1000), .moved .outbound 1, .elapse (fromMillis 4000), .tick,
    .elapse (fromMillis 100), .moved .inbound 1, .elapse (fromMillis 4800), .moved .outbound 1,
    .elapse (fromMillis 100), .tick] ++ quiet (fromSecs 5) 4

theorem stalled_early :
    (Watch.step.run (.start { stall := some (fromSecs 21) }) answerAfterTick).map
        (fun watch => (watch.elapsed, watch.ended)) =
      some (fromSecs 30, some (.Stalled (fromSecs 21))) ∧
    ∀ move ∈ moves answerAfterTick, Standing (moves answerAfterTick) move →
      fromSecs 30 < move.instant + fromSecs 21 := by
  decide +kernel

-- An unanswered write by its next tick, which comes no later than `due`, and
-- from then on: the clock runs from `due` at the latest.
def Awaited (stall due : Nat) (watch : Watch) : Prop :=
  watch.nextTick ≤ due ∨ ∃ since, watch.clock.sinceMillis = some since ∧
    since ≤ asMillis due ∧ asMillis watch.lastTick < since + asMillis stall

theorem since_le_lastTick {watchdog : Watchdog} {events : List WatchEvent} {watch : Watch}
    (hr : Watch.step.run (.start watchdog) events = some watch) (start : Nat)
    (hs : watch.clock.sinceMillis = some start) : start ≤ asMillis watch.lastTick := by
  obtain ⟨-, -, -, -, -, hbound, -⟩ := tracks (fun _ _ => True) hr
    fun _ _ _ _ _ => ⟨fun _ _ _ _ _ _ _ => trivial, fun _ _ _ _ _ _ _ _ _ _ => trivial⟩
  exact hbound start hs

theorem Unanswered.resume {moves : List Move} {move : Move} (hc : Chronological moves)
    (hu : Unanswered moves move) (since : Option Nat) :
    ∃ start, resume since (lastStamp .outbound moves) (lastStamp .inbound moves) = some start := by
  cases h : outstanding (lastStamp .outbound moves) (lastStamp .inbound moves) with
  | none => exact absurd hu (outstanding_none hc h move)
  | some wrote => exact ⟨_, by rw [LwdMixnet.resume, h, Option.map_some]⟩

theorem Unanswered.heard_le {moves : List Move} {move : Move} (hu : Unanswered moves move) :
    (lastStamp .inbound moves).getD 0 ≤ move.stamp := by
  cases hl : lastStamp .inbound moves with
  | none => exact Nat.zero_le _
  | some heard =>
      obtain ⟨answer, hm, hin, rfl⟩ := lastStamp_mem hl
      exact (hu.2.2 answer hm hin).le

theorem resume_some {since : Nat} {wrote heard : Option Nat} {start : Nat}
    (h : resume (some since) wrote heard = some start) : start = max since (heard.getD 0) := by
  obtain ⟨_, -, rfl⟩ := Option.map_eq_some_iff.mp h
  rfl

theorem awaited_tick {watchdog : Watchdog} {stall due : Nat} {events : List WatchEvent}
    {watch next : Watch} {move : Move} (hstall : watchdog.stall = some stall)
    (hr : Watch.step.run (.start watchdog) events = some watch)
    (hu : Unanswered (moves events) move) (hle : move.instant ≤ due)
    (ha : Awaited stall due watch) (hs : Watch.step watch .tick = some next)
    (hrunning : next.ended = none) : Awaited stall due next := by
  obtain ⟨-, ⟨_, _, he, -⟩ | ⟨_, he, -⟩ | ⟨-, heq, rfl⟩⟩ := Watch.step_cases hs
  · cases he
  · cases he
  have ht := traced hr
  obtain ⟨start, hresume⟩ := hu.resume (moves_chronological events) watch.clock.sinceMillis
  have hsampled : resume watch.clock.sinceMillis watch.activity.toRemote.movedAt
      watch.activity.fromRemote.movedAt = some start := by
    rw [ht.wrote, ht.heard, hresume]
  have hshort := not_tripped (ht.configured.symm ▸ hstall) hrunning hsampled
  have hstart : start ≤ asMillis due := by
    rcases ha with hnext | ⟨since, hsince, hbound, -⟩
    · -- the first tick since the write
      have hnow : watch.elapsed ≤ due := heq.trans_le hnext
      refine resume_le (fun other ho => asMillis_mono ((ht.instant_le ho).trans hnow)) ?_ hresume
      intro since hsince
      exact (since_le_lastTick hr since hsince).trans (asMillis_mono (ht.lastTick.1.trans hnow))
    · rw [hsince] at hresume
      rw [resume_some hresume]
      exact Nat.max_le.mpr ⟨hbound, hu.heard_le.trans (asMillis_mono hle)⟩
  refine Or.inr ⟨start, by rw [tripped_clock, hsampled], hstart, ?_⟩
  simpa [Watch.lastTick, heq] using hshort

-- From its record on, as long as nothing is recorded that answers it.
theorem awaited {watchdog : Watchdog} {stall due : Nat} {before after : List WatchEvent}
    {state watch : Watch} {move : Move} (hstall : watchdog.stall = some stall)
    (hbefore : Watch.step.run (.start watchdog) before = some state)
    (hm : move ∈ moves before) (hdue : state.nextTick ≤ due)
    (hr : Watch.step.run (.start watchdog) (before ++ after) = some watch)
    (hu : Unanswered (moves (before ++ after)) move) (hrunning : watch.ended = none) :
    Awaited stall due watch := by
  have ht := traced hbefore
  have hle : move.instant ≤ due := (ht.instant_le hm).trans (ht.lastTick.2.1.trans hdue)
  induction after using List.reverseRecOn generalizing watch with
  | nil =>
      rw [List.append_nil] at hr
      obtain rfl := Option.some.inj (hbefore.symm.trans hr)
      exact Or.inl hdue
  | append_singleton after event ih =>
      rw [← List.append_assoc] at hr hu
      obtain ⟨middle, hmiddle, hstep⟩ := Machine.run_concat_some hr
      have hold : Unanswered (moves (before ++ after)) move := by
        rw [moves_concat] at hu
        exact unanswered_old _ (moves_append_left hm after) hu
      have hcases := Watch.step_cases hstep
      have hi := ih hmiddle hold hcases.1
      obtain ⟨-, ⟨_, _, rfl, -, rfl⟩ | ⟨_, rfl, -, rfl⟩ | ⟨rfl, -⟩⟩ := hcases
      · exact hi
      · exact hi
      · exact awaited_tick hstall hmiddle hold hle hi hstep hrunning

-- The bound that an awaited answer puts on the run.
theorem Awaited.bound {watchdog : Watchdog} {stall due : Nat} {events : List WatchEvent}
    {watch : Watch} (ht : watch.Traced watchdog events) (ha : Awaited stall due watch)
    (hfits : (due + stall) / MILLI ≤ U64_MAX) :
    watch.elapsed ≤ due + stall + watchdog.checkPeriod := by
  obtain ⟨-, hhi, hnext, -⟩ := ht.lastTick
  rcases ha with hdue | ⟨since, -, hbound, hshort⟩
  · omega
  · have hlt : watch.lastTick < due + stall := by
      by_contra hge
      have hmono := asMillis_mono (Nat.le_of_not_lt hge)
      have hsum := asMillis_add_le hfits
      omega
    omega

-- The state just after a movement was recorded.
theorem moves_split {watchdog : Watchdog} {events : List WatchEvent} {watch : Watch} {move : Move}
    (hr : Watch.step.run (.start watchdog) events = some watch) (hm : move ∈ moves events) :
    ∃ before after state, events = before ++ after ∧ move ∈ moves before ∧
      Watch.step.run (.start watchdog) before = some state ∧ state.elapsed = move.instant := by
  induction events using List.reverseRecOn generalizing watch with
  | nil => cases hm
  | append_singleton events event ih =>
      obtain ⟨state, hrun, hstep⟩ := Machine.run_concat_some hr
      by_cases hold : move ∈ moves events
      · obtain ⟨before, after, first, rfl, hb, hf, he⟩ := ih hrun hold
        exact ⟨before, after ++ [event], first, by simp, hb, hf, he⟩
      · refine ⟨events ++ [event], [], watch, by simp, hm, hr, ?_⟩
        rw [moves_concat] at hm
        have hnew := (List.mem_append.mp hm).resolve_left hold
        cases event with
        | moved way count =>
            obtain rfl := List.mem_singleton.mp hnew
            simpa [WatchEvent.delay] using (traced hr).elapsed
        | elapse _ | tick => cases hnew

-- A write that nothing recorded answers ends the splice within the deadline and
-- two periods, whatever else the wallet writes.
theorem unanswered_discovered (watchdog : Watchdog) (stall : Nat)
    (hstall : watchdog.stall = some stall) (events : List WatchEvent) (watch : Watch)
    (hr : Watch.step.run (.start watchdog) events = some watch) (move : Move)
    (hu : Unanswered (moves events) move)
    (hfits : (move.instant + watchdog.checkPeriod + stall) / MILLI ≤ U64_MAX)
    (hrunning : watch.ended = none) :
    watch.elapsed ≤ move.instant + stall + 2 * watchdog.checkPeriod := by
  obtain ⟨before, after, state, rfl, hm, hb, he⟩ := moves_split hr hu.1
  have hdue : state.nextTick ≤ move.instant + watchdog.checkPeriod := by
    obtain ⟨hlo, -, hnext, -⟩ := (traced hb).lastTick
    omega
  have hbound := (awaited hstall hb hm hdue hr hu hrunning).bound (traced hr) hfits
  omega

-- Two writes that stay unanswered, just before the tick that gives up on them.
def keepalives : List WatchEvent :=
  [.elapse (fromMillis 10), .moved .outbound 1, .elapse (fromMillis 90), .tick,
    .elapse (fromMillis 50), .moved .outbound 1, .elapse (fromMillis 50), .tick] ++
    quiet (fromMillis 100) 2 ++ [.elapse (fromMillis 100)]

theorem keepalives_discovered : ∃ watch,
    Watch.step.run (.start { stall := some (fromMillis 400) }) keepalives = some watch ∧
    watch.ended = none ∧ watch.elapsed = fromMillis 500 ∧
    watch.elapsed ≤ fromMillis 10 + fromMillis 400 + 2 * fromMillis 100 := by
  obtain ⟨watch, hr, he⟩ : ∃ watch,
      Watch.step.run (.start { stall := some (fromMillis 400) }) keepalives = some watch ∧
      (watch.elapsed, watch.ended) = (fromMillis 500, none) :=
    Option.map_eq_some_iff.mp (by decide +kernel)
  obtain ⟨hel, hrunning⟩ := Prod.mk.inj he
  have hbound := unanswered_discovered { stall := some (fromMillis 400) } (fromMillis 400) rfl
    keepalives watch hr ⟨.outbound, fromMillis 10⟩ (by decide +kernel) (by decide) hrunning
  exact ⟨watch, hr, hrunning, hel, hbound⟩

-- An answer and the next write within one millisecond.
def sameMilli : List WatchEvent :=
  [.elapse 10200000, .moved .inbound 1, .elapse 500000, .moved .outbound 1, .elapse 89300000,
    .tick] ++ quiet (fromMillis 100) 7

-- A deadline of 2^64 ms, which the millisecond clock never reaches.
def beyondClock : List WatchEvent :=
  [.elapse (fromMillis 1), .moved .outbound 1, .elapse (fromMillis 4999), .tick] ++
    quiet (fromSecs 5) (2 ^ 64)

theorem beyondClock_running :
    (Watch.step.run (.start { stall := some (fromMillis (2 ^ 64)) }) beyondClock).map
      (fun watch => (watch.elapsed, watch.ended)) = some (fromSecs (5 * (2 ^ 64 + 1)), none) := by
  have hperiod : Watchdog.checkPeriod { stall := some (fromMillis (2 ^ 64)) } = fromSecs 5 := by
    decide +kernel
  have hquiet := run_quiet {
      watchdog := { stall := some (fromMillis (2 ^ 64)) }, elapsed := fromSecs 5,
      activity := { toRemote := { bytes := 1, lastAtMillis := 1 } }
      clock := { sinceMillis := some 1 }, nextTick := fromSecs 10 } rfl
    (by rw [hperiod]; decide) ?_ (2 ^ 64)
  · rw [hperiod] at hquiet
    rw [beyondClock, Machine.run_append]
    have hfirst : Watch.step.run (.start { stall := some (fromMillis (2 ^ 64)) })
        [.elapse (fromMillis 1), .moved .outbound 1, .elapse (fromMillis 4999), .tick] = some {
          watchdog := { stall := some (fromMillis (2 ^ 64)) }, elapsed := fromSecs 5,
          activity := { toRemote := { bytes := 1, lastAtMillis := 1 } }
          clock := { sinceMillis := some 1 }, nextTick := fromSecs 10 } := by
      decide +kernel
    rw [hfirst, Option.bind_some, hquiet]
    rfl
  · intro elapsed
    have hcalm : Watchdog.stalled { stall := some (fromMillis (2 ^ 64)) } (asMillis elapsed) 1 =
        none := by
      have hmax := asMillis_le_max elapsed
      have hstall : asMillis (fromMillis (2 ^ 64)) = U64_MAX := by decide +kernel
      have hpos : 0 < U64_MAX := by decide
      exact if_neg (by omega)
    change (StallClock.mk (some 1), (Watchdog.stalled { stall := some (fromMillis (2 ^ 64)) }
      (asMillis elapsed) 1).or none) = _
    rw [hcalm]
    rfl

theorem discovery_postponed :
    (moves sameMilli = [⟨.inbound, 10200000⟩, ⟨.outbound, 10700000⟩] ∧
      (Watch.step.run (.start { stall := some (fromMillis 400) }) sameMilli).map
        (fun watch => (watch.elapsed, watch.ended)) = some (fromMillis 800, none) ∧
      10700000 + fromMillis 400 + 2 * fromMillis 100 < fromMillis 800) ∧
    ((Watch.step.run (.start { stall := some (fromMillis (2 ^ 64)) }) beyondClock).map
        (fun watch => (watch.elapsed, watch.ended)) = some (fromSecs (5 * (2 ^ 64 + 1)), none) ∧
      fromMillis 1 + fromMillis (2 ^ 64) + 2 * fromSecs 5 < fromSecs (5 * (2 ^ 64 + 1))) :=
  ⟨⟨by decide +kernel, by decide +kernel, by decide⟩, beyondClock_running, by decide⟩

end LwdMixnet
