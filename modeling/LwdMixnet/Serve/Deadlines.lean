import LwdMixnet.Serve.Introduced
import LwdMixnet.Splice.Reaper

namespace LwdMixnet

-- What a task is suspended in. A splice counts from its last movement on.
inductive ServeWait
  | header
  | echo
  | request
  | connect
  | write
  | splice (activity : Activity)
  | over
  deriving DecidableEq, Repr

def ServePhase.wait : ServePhase → ServeWait
  | .accepting (.reading _ _) => .header
  | .accepting _ => .echo
  | .awaitingRequest _ => .request
  | .connecting _ => .connect
  | .writing _ => .write
  | .splicing splice => .splice splice.watch.activity
  | .returned => .over

-- Whether a timer of `serve` is over the suspension: the two timeouts are over
-- their reads, and the idle deadline is over the splice, as long as the clock of
-- the watchdog can show that it was reached.
def ServePhase.guarded (settings : ServeSettings) : ServePhase → Bool
  | .accepting (.reading _ _) | .awaitingRequest _ => true
  | .splicing splice => splice.watch.latest + asMillis settings.idleTimeout ≤ U64_MAX
  | _ => false

-- When that timer ends the task at the latest. The idle deadline is checked once
-- a period.
def Serve.due (settings : ServeSettings) (serve : Serve) : Nat :=
  match serve.phase with
  | .awaitingRequest deadline => deadline
  | .splicing splice => serve.elapsed - splice.watch.elapsed +
      (splice.watch.latest + asMillis settings.idleTimeout) * MILLI +
      settings.watchdog.checkPeriod
  | _ => settings.handshakeTimeout

-- Whatever the stream and the upstream do, the suspension is over at `due`.
def Serve.Deadlined (settings : ServeSettings) (serve : Serve) (due : Nat) : Prop :=
  ∀ events last, (Serve.own settings).run serve events = some last →
    last.phase.wait = serve.phase.wait → last.elapsed ≤ due

-- What happens without the stream and the upstream.
def ServeEvent.isTimer : ServeEvent → Bool
  | .elapse _ | .stream .expired | .splice (.elapse _) | .splice .tick => true
  | _ => false

section

variable {settings : ServeSettings} {watch next : Watch} {event : WatchEvent}

-- Only the reaper is armed, so only it trips.
theorem tripped_idled (watch : Watch) (h : watch.watchdog = settings.watchdog) :
    (watch.watchdog.tripped watch.clock watch.activity watch.elapsed).2 =
      if asMillis settings.idleTimeout ≤ asMillis watch.elapsed - watch.latest then
        some (.Idle settings.idleTimeout)
      else none := by
  have hstall (since : Option Nat) (now : Nat) :
      since.bind (settings.watchdog.stalled now) = none := by
    cases since <;> rfl
  rw [h, tripped_ended, hstall, Option.none_or]
  rfl

-- The reaper of a splice, tick by tick.
structure Watch.Idling (settings : ServeSettings) (watch : Watch) : Prop where
  configured : watch.watchdog = settings.watchdog
  stamped : watch.latest ≤ asMillis watch.elapsed
  ticking : watch.elapsed ≤ watch.nextTick
  idled : watch.ended = none → watch.latest + asMillis settings.idleTimeout ≤ U64_MAX →
    watch.nextTick ≤ (watch.latest + asMillis settings.idleTimeout) * MILLI +
      settings.watchdog.checkPeriod

theorem Watch.Idling.step (h : watch.Idling settings) (hs : watch.step event = some next) :
    next.Idling settings := by
  have hreaped : watch.Reaped settings.idleTimeout := by
    refine ⟨?_, h.stamped, h.ticking, ?_⟩
    · rw [h.configured]
      rfl
    · rw [h.configured]
      exact h.idled
  have hconfigured : next.watchdog = settings.watchdog := by
    obtain ⟨-, ⟨_, _, -, -, rfl⟩ | ⟨_, -, -, rfl⟩ | ⟨-, -, rfl⟩⟩ := Watch.step_cases hs
    all_goals exact h.configured
  obtain ⟨-, hstamped, hticking, hidled⟩ := hreaped.step hs
  rw [hconfigured] at hidled
  exact ⟨hconfigured, hstamped, hticking, hidled⟩

theorem Watch.start_idling (settings : ServeSettings) :
    (Watch.start settings.watchdog).Idling settings :=
  ⟨rfl, Nat.zero_le _, Nat.zero_le _, fun _ _ => Nat.le_add_left _ _⟩

end

section

variable {settings : ServeSettings} {serve next last : Serve} {splice : Splice}
  {events : List ServeEvent} {event : ServeEvent}

-- A step of the splice, with what it makes of the task.
theorem Serve.own_splice (hphase : serve.phase = .splicing splice) (waited : SpliceEvent) :
    (splice.step waited = none ∧ Serve.own settings serve (.splice waited) = none) ∨
    ∃ resumed next, splice.step waited = some resumed ∧
      Serve.own settings serve (.splice waited) = some next ∧
      next.elapsed = serve.elapsed + waited.delay ∧
      next.phase = if resumed.ended = none then .splicing resumed else .returned := by
  cases hs : splice.step waited with
  | none => exact Or.inl ⟨rfl, by simp [Serve.own, Serve.step, hphase, hs]⟩
  | some resumed =>
      refine Or.inr ⟨resumed, ?_⟩
      cases hended : resumed.ended with
      | none =>
          simp only [Serve.own, Serve.step, hphase, hs, hended, Option.map_some]
          exact ⟨_, trivial, rfl, rfl, rfl⟩
      | some verdict =>
          simp only [Serve.own, Serve.step, hphase, hs, hended, Option.map_some]
          exact ⟨_, trivial, rfl, rfl, rfl⟩

-- The clock of a splice runs with its task's.
def Serve.Ticking (settings : ServeSettings) (serve : Serve) : Prop :=
  ∀ splice, serve.phase = .splicing splice → splice.ended = none ∧ splice.watch.ended = none ∧
    splice.watch.Idling settings ∧ splice.watch.elapsed ≤ serve.elapsed

theorem Serve.Ticking.spliced {waited : SpliceEvent} (h : serve.Ticking settings)
    (hphase : serve.phase = .splicing splice)
    (hs : Serve.own settings serve (.splice waited) = some next) :
    next.Ticking settings := by
  obtain ⟨-, hnone⟩ | ⟨resumed, after, hsplice, hown, helapsed, hnext⟩ :=
    @Serve.own_splice settings serve splice hphase waited
  · rw [hnone] at hs
    cases hs
  · obtain rfl := Option.some.inj (hown.symm.trans hs)
    obtain ⟨-, hwatching, hidling, hclock⟩ := h splice hphase
    intro other hother
    rw [hnext] at hother
    split_ifs at hother with hended
    obtain rfl := ServePhase.splicing.inj hother
    refine ⟨hended, Splice.step_watching hsplice hwatching hended, ?_, ?_⟩
    · exact Machine.run_invariant (Watch.Idling settings) (fun _ _ _ h hs => h.step hs) hidling
        (Splice.step_view hsplice)
    · rw [helapsed, Splice.step_elapsed hsplice]
      exact Nat.add_le_add_right hclock _

theorem Serve.Ticking.step (h : serve.Ticking settings)
    (hs : Serve.own settings serve event = some next) : next.Ticking settings := by
  obtain ⟨after, hstep⟩ := Serve.own_step hs
  obtain ⟨accept, waited, resumed, -, -, -, -, -, -, ⟨header, -, hnext⟩ | ⟨error, -, hnext⟩ |
      ⟨-, hnext⟩⟩ |
    ⟨deadline, opening, -, -, -, rfl⟩ | ⟨opening, -, -, rfl⟩ |
    ⟨rest, count, -, -, -, -, -, ⟨left, -, hnext⟩ | ⟨-, hnext⟩⟩ |
    ⟨splice, waited, resumed, hphase, rfl, -⟩ | ⟨rfl, -⟩ | ⟨time, -, hallows, rfl⟩ :=
    Serve.step_cases hstep
  · simp [Serve.Ticking, hnext]
  · simp [Serve.Ticking, hnext]
  · simp [Serve.Ticking, hnext]
  · simp [Serve.Ticking]
  · simp [Serve.Ticking]
  · simp [Serve.Ticking, hnext]
  · intro splice hsplice
    rw [hnext] at hsplice
    obtain rfl := ServePhase.splicing.inj hsplice
    exact ⟨rfl, rfl, Watch.start_idling settings, Nat.zero_le _⟩
  · exact h.spliced hphase hs
  · simp [Serve.Ticking]
  · intro splice hsplice
    change serve.phase = .splicing splice at hsplice
    rw [hsplice] at hallows
    cases hallows

theorem Serve.Ticking.run (h : serve.Ticking settings)
    (hr : (Serve.own settings).run serve events = some last) : last.Ticking settings :=
  Machine.run_invariant (Serve.Ticking settings) (fun _ _ _ h hs => h.step hs) h hr

theorem serve_ticking (hr : (Serve.own settings).run (.start settings) events = some serve) :
    serve.Ticking settings := by
  have hstart : (Serve.start settings).Ticking settings := fun splice hsplice => by cases hsplice
  exact hstart.run hr

-- A suspension that is left is not come back to.

def ServePhase.past : ServePhase → Bool
  | .accepting _ | .awaitingRequest _ => false
  | _ => true

theorem Serve.awaiting_step {deadline : Nat}
    (h : serve.phase = .awaitingRequest deadline ∧ serve.elapsed ≤ deadline ∨ serve.phase.past)
    (hs : Serve.own settings serve event = some next) :
    next.phase = .awaitingRequest deadline ∧ next.elapsed ≤ deadline ∨ next.phase.past := by
  obtain ⟨after, hstep⟩ := Serve.own_step hs
  obtain ⟨accept, waited, resumed, hphase, -⟩ | ⟨_, opening, -, -, -, rfl⟩ |
    ⟨opening, -, -, rfl⟩ | ⟨rest, count, -, -, -, -, -, ⟨left, -, hnext⟩ | ⟨-, hnext⟩⟩ |
    ⟨splice, waited, resumed, -, -, -, -, -, -, hnext | hnext⟩ | ⟨rfl, -⟩ |
    ⟨time, -, hallows, rfl⟩ := Serve.step_cases hstep
  · simp [hphase, ServePhase.past] at h
  · exact Or.inr rfl
  · exact Or.inr rfl
  · exact Or.inr (by rw [hnext]; rfl)
  · exact Or.inr (by rw [hnext]; rfl)
  · exact Or.inr (by rw [hnext]; rfl)
  · exact Or.inr (by rw [hnext]; rfl)
  · exact Or.inr rfl
  · obtain ⟨hphase, -⟩ | hpast := h
    · rw [hphase] at hallows
      exact Or.inl ⟨hphase, of_decide_eq_true hallows⟩
    · exact Or.inr hpast

theorem Serve.splicing_step {began : Nat}
    (h : serve.phase = .returned ∨ ∃ splice, serve.phase = .splicing splice ∧
      serve.elapsed = began + splice.watch.elapsed)
    (hs : Serve.own settings serve event = some next) :
    next.phase = .returned ∨ ∃ splice, next.phase = .splicing splice ∧
      next.elapsed = began + splice.watch.elapsed := by
  obtain ⟨after, hstep⟩ := Serve.own_step hs
  obtain hphase | ⟨splice, hphase, hclock⟩ := h
  · exact Or.inl (Serve.returned_stays hstep hphase)
  · obtain ⟨_, _, _, he, -⟩ | ⟨_, _, he, -⟩ | ⟨_, he, -⟩ | ⟨_, _, he, -⟩ |
      ⟨other, waited, resumed, he, -, hsplice, helapsed, -, -, hnext⟩ | ⟨rfl, -⟩ |
      ⟨time, -, hallows, rfl⟩ := Serve.step_cases hstep
    · simp [hphase] at he
    · simp [hphase] at he
    · simp [hphase] at he
    · simp [hphase] at he
    · obtain rfl := ServePhase.splicing.inj (hphase.symm.trans he)
      obtain hnext | hnext := hnext
      · refine Or.inr ⟨resumed, hnext, ?_⟩
        rw [helapsed, hclock, Splice.step_elapsed hsplice, Nat.add_assoc]
      · exact Or.inl hnext
    · exact Or.inl rfl
    · rw [hphase] at hallows
      cases hallows

theorem Serve.own_elapse {time : Nat} (hallows : serve.phase.allows (serve.elapsed + time)) :
    Serve.own settings serve (.elapse time) =
      some { serve with elapsed := serve.elapsed + time } := by
  cases hphase : serve.phase with
  | splicing splice =>
      rw [hphase] at hallows
      cases hallows
  | accepting _ | awaitingRequest _ | connecting _ | writing _ | returned =>
      rw [hphase] at hallows
      simp [Serve.own, Serve.step, hphase, hallows]

-- Left alone, a watchdog comes to its next tick, which trips it when the reaper is
-- due.
theorem Watch.tick {watch : Watch} (hended : watch.ended = none) (h : watch.Idling settings) :
    ∃ due later, watch.step (.elapse (watch.nextTick - watch.elapsed)) = some due ∧
    due.step .tick = some later ∧
    (later.ended = none ↔
      asMillis watch.nextTick - watch.latest < asMillis settings.idleTimeout) ∧
    later.activity = watch.activity ∧ later.elapsed = watch.nextTick ∧
    later.nextTick = watch.nextTick + settings.watchdog.checkPeriod := by
  have helapse : watch.step (.elapse (watch.nextTick - watch.elapsed)) =
      some { watch with elapsed := watch.nextTick } := by
    simp [Watch.step, hended, Nat.add_sub_cancel' h.ticking]
  cases htick : Watch.step { watch with elapsed := watch.nextTick } .tick with
  | none => simp [Watch.step, hended] at htick
  | some later =>
      refine ⟨_, later, helapse, htick, ?_⟩
      obtain ⟨-, ⟨_, _, he, -⟩ | ⟨_, he, -⟩ | ⟨-, -, rfl⟩⟩ := Watch.step_cases htick
      · cases he
      · cases he
      refine ⟨?_, rfl, rfl, by rw [h.configured]⟩
      have htripped := @tripped_idled settings { watch with elapsed := watch.nextTick } h.configured
      rw [htripped]
      change _ ↔ _ - watch.latest < asMillis settings.idleTimeout
      change (if _ ≤ _ - watch.latest then _ else _) = none ↔ _
      rw [ite_eq_right_iff]
      exact ⟨fun hlt => Nat.lt_of_not_le fun hle => Option.some_ne_none _ (hlt hle),
        fun hlt hle => absurd hlt (Nat.not_lt_of_le hle)⟩

theorem Splice.tick (hended : splice.ended = none) (hwatching : splice.watch.ended = none)
    (h : splice.watch.Idling settings) : ∃ due later,
    splice.step (.elapse (splice.watch.nextTick - splice.watch.elapsed)) = some due ∧
    due.ended = none ∧ due.step .tick = some later ∧
    (later.ended = none ↔
      asMillis splice.watch.nextTick - splice.watch.latest < asMillis settings.idleTimeout) ∧
    later.watch.activity = splice.watch.activity ∧ later.watch.elapsed = splice.watch.nextTick ∧
    later.watch.nextTick = splice.watch.nextTick + settings.watchdog.checkPeriod := by
  obtain ⟨due, later, helapse, htick, htrips, hlater⟩ := Watch.tick hwatching h
  refine ⟨{ splice with watch := due },
    { splice with
      watch := later
      ended := later.ended.map fun reason => (later.activity.transfer, reason) },
    ?_, hended, ?_, ?_, hlater⟩
  · simp [Splice.step, hended, helapse]
  · simp [Splice.step, hended, htick]
  · rw [Option.map_eq_none_iff]
    exact htrips

def Splice.toTick (splice : Splice) : List ServeEvent :=
  [.splice (.elapse (splice.watch.nextTick - splice.watch.elapsed)), .splice .tick]

theorem Serve.Ticking.tick (h : serve.Ticking settings) (hphase : serve.phase = .splicing splice) :
    ∃ next, (Serve.own settings).run serve splice.toTick = some next ∧
      next.elapsed = serve.elapsed + (splice.watch.nextTick - splice.watch.elapsed) ∧
      (asMillis settings.idleTimeout ≤ asMillis splice.watch.nextTick - splice.watch.latest ∧
          next.phase = .returned ∨
        asMillis splice.watch.nextTick - splice.watch.latest < asMillis settings.idleTimeout ∧
          ∃ later, next.phase = .splicing later ∧
            later.watch.activity = splice.watch.activity ∧
            later.watch.elapsed = splice.watch.nextTick ∧
            later.watch.nextTick = splice.watch.nextTick + settings.watchdog.checkPeriod) := by
  obtain ⟨hended, hwatching, hidling, -⟩ := h splice hphase
  obtain ⟨due, later, helapse, hgoes, htick, htrips, hlater⟩ :=
    Splice.tick hended hwatching hidling
  obtain ⟨hnone, -⟩ | ⟨first, middle, hfirst, hown, helapsed, hmiddle⟩ :=
    @Serve.own_splice settings serve splice hphase
      (.elapse (splice.watch.nextTick - splice.watch.elapsed))
  · rw [helapse] at hnone
    cases hnone
  obtain rfl := Option.some.inj (helapse.symm.trans hfirst)
  rw [if_pos hgoes] at hmiddle
  obtain ⟨hnone, -⟩ | ⟨second, next, hsecond, hown', helapsed', hnext⟩ :=
    @Serve.own_splice settings middle due hmiddle .tick
  · rw [htick] at hnone
    cases hnone
  obtain rfl := Option.some.inj (htick.symm.trans hsecond)
  refine ⟨next, ?_, helapsed'.trans helapsed, ?_⟩
  · simp [Splice.toTick, Machine.run, hown, hown']
  · by_cases hlate : later.ended = none
    · rw [if_pos hlate] at hnext
      exact Or.inr ⟨htrips.mp hlate, later, hnext, hlater⟩
    · rw [if_neg hlate] at hnext
      exact Or.inl ⟨Nat.le_of_not_lt (mt htrips.mpr hlate), hnext⟩

theorem ServePhase.wait_header {phase : ServePhase} (h : phase.wait = .header) :
    ∃ deadline read, phase = .accepting (.reading deadline read) := by
  cases phase with
  | accepting accept =>
      cases accept with
      | reading deadline read => exact ⟨deadline, read, rfl⟩
      | echoing _ _ | returned _ => cases h
  | awaitingRequest _ | connecting _ | writing _ | splicing _ | returned => cases h

theorem ServePhase.wait_splice {phase : ServePhase} {activity : Activity}
    (h : phase.wait = .splice activity) :
    ∃ splice, phase = .splicing splice ∧ splice.watch.activity = activity := by
  cases phase with
  | accepting accept => cases accept <;> cases h
  | splicing splice => exact ⟨splice, rfl, ServeWait.splice.inj h⟩
  | awaitingRequest _ | connecting _ | writing _ | returned => cases h

-- The header is read by its deadline, and so is the first request.
theorem Serve.header_deadlined
    (hr : (Serve.own settings).run (.start settings) events = some serve)
    (hwait : serve.phase.wait = .header) :
    serve.Deadlined settings settings.handshakeTimeout := by
  intro later last hrun hsame
  have hlast : (Serve.own settings).run (.start settings) (events ++ later) = some last :=
    Machine.run_trans hr hrun
  obtain ⟨deadline, read, hphase⟩ := ServePhase.wait_header (hsame.trans hwait)
  have htimely := serve_timely hlast
  simp only [Serve.Timely, hphase] at htimely
  exact htimely.1 ▸ htimely.2

theorem Serve.request_deadlined {deadline : Nat}
    (hr : (Serve.own settings).run (.start settings) events = some serve)
    (hphase : serve.phase = .awaitingRequest deadline) : serve.Deadlined settings deadline := by
  intro later last hrun hsame
  have htimely := serve_timely hr
  simp only [Serve.Timely, hphase] at htimely
  obtain ⟨-, hle⟩ | hpast := Machine.run_invariant
    (fun serve : Serve => serve.phase = .awaitingRequest deadline ∧ serve.elapsed ≤ deadline ∨
      serve.phase.past) (fun _ _ _ h hs => Serve.awaiting_step h hs)
    (Or.inl ⟨hphase, htimely.1⟩) hrun
  · exact hle
  · rw [hphase] at hsame
    cases hlast : last.phase with
    | accepting _ | awaitingRequest _ =>
        rw [hlast] at hpast
        cases hpast
    | connecting _ | writing _ | splicing _ | returned =>
        rw [hlast] at hsame
        cases hsame

-- A splice that moves nothing is over a period after its idle deadline.
theorem Serve.splice_deadlined
    (hr : (Serve.own settings).run (.start settings) events = some serve)
    (hphase : serve.phase = .splicing splice)
    (hfits : splice.watch.latest + asMillis settings.idleTimeout ≤ U64_MAX) :
    serve.Deadlined settings (serve.elapsed - splice.watch.elapsed +
      (splice.watch.latest + asMillis settings.idleTimeout) * MILLI +
        settings.watchdog.checkPeriod) := by
  intro later last hrun hsame
  have hlast : (Serve.own settings).run (.start settings) (events ++ later) = some last :=
    Machine.run_trans hr hrun
  obtain ⟨-, -, -, hclock⟩ := serve_ticking hr splice hphase
  rw [hphase] at hsame
  obtain ⟨spliced, hspliced, hactivity⟩ := ServePhase.wait_splice hsame
  obtain hreturned | ⟨other, hother, hbegan⟩ := Machine.run_invariant
    (fun later : Serve => later.phase = .returned ∨ ∃ other, later.phase = .splicing other ∧
      later.elapsed = serve.elapsed - splice.watch.elapsed + other.watch.elapsed)
    (fun _ _ _ h hs => Serve.splicing_step h hs)
    (Or.inr ⟨splice, hphase, (Nat.sub_add_cancel hclock).symm⟩) hrun
  · rw [hreturned] at hspliced
    cases hspliced
  · obtain rfl := ServePhase.splicing.inj (hspliced.symm.trans hother)
    obtain ⟨-, hwatching, hidling, -⟩ := serve_ticking hlast spliced hspliced
    have hlatest := Watch.latest_congr hactivity
    have hdue := hidling.idled hwatching (hlatest ▸ hfits)
    rw [hlatest] at hdue
    have hticking := hidling.ticking
    omega

-- Left alone, a splice is ended by its reaper.
theorem Serve.splice_returns {began bound : Nat} (h : serve.Ticking settings)
    (hphase : serve.phase = .splicing splice)
    (hbegan : serve.elapsed = began + splice.watch.elapsed)
    (hbound : bound = (splice.watch.latest + asMillis settings.idleTimeout) * MILLI +
      settings.watchdog.checkPeriod)
    (hfits : splice.watch.latest + asMillis settings.idleTimeout ≤ U64_MAX) :
    ∃ timers last, (∀ event ∈ timers, ServeEvent.isTimer event) ∧
      (Serve.own settings).run serve timers = some last ∧ last.phase = .returned ∧
      last.elapsed ≤ began + bound := by
  induction hleft : bound - splice.watch.nextTick using Nat.strong_induction_on
    generalizing serve splice with
  | _ left ih =>
      obtain ⟨next, hrun, helapsed, hnext⟩ := h.tick hphase
      obtain ⟨-, hwatching, hidling, -⟩ := h splice hphase
      have hdue := hidling.idled hwatching hfits
      have hticking := hidling.ticking
      have htimers : ∀ event ∈ splice.toTick, event.isTimer := by
        simp [Splice.toTick, ServeEvent.isTimer]
      obtain ⟨-, hreturned⟩ | ⟨-, later, hlater, hactivity, hclock, hnextTick⟩ := hnext
      · exact ⟨_, next, htimers, hrun, hreturned, by omega⟩
      · have hlatest := Watch.latest_congr hactivity
        have hperiod := checkPeriod_pos settings.watchdog
        have hticks := h.run hrun
        obtain ⟨-, hwatching', hidling', -⟩ := hticks later hlater
        have hdue' := hidling'.idled hwatching' (hlatest ▸ hfits)
        rw [hlatest] at hdue'
        obtain ⟨timers, last, hrest, hlast, hreturned, hle⟩ := ih _ (by omega) hticks hlater
          (by omega) (hlatest ▸ hbound) (hlatest ▸ hfits) rfl
        refine ⟨splice.toTick ++ timers, last, ?_, ?_, hreturned, hle⟩
        · exact fun event hevent => (List.mem_append.mp hevent).elim (htimers event) (hrest event)
        · exact Machine.run_trans hrun hlast

-- One whose clock runs out before is not.
theorem Serve.Ticking.lingers (h : serve.Ticking settings) (hphase : serve.phase = .splicing splice)
    (hfits : U64_MAX < splice.watch.latest + asMillis settings.idleTimeout) :
    ∃ next later, (Serve.own settings).run serve splice.toTick = some next ∧
      next.phase = .splicing later ∧ next.Ticking settings ∧
      later.watch.activity = splice.watch.activity ∧ later.watch.elapsed = splice.watch.nextTick ∧
      splice.watch.nextTick < later.watch.nextTick := by
  obtain ⟨next, hrun, -, ⟨htrips, -⟩ | ⟨-, later, hlater, hactivity, hclock, hnextTick⟩⟩ :=
    h.tick hphase
  · have hmax := asMillis_le_max splice.watch.nextTick
    have hstamped := (h splice hphase).2.2.1.stamped
    have hmax' := asMillis_le_max splice.watch.elapsed
    omega
  · have hperiod := checkPeriod_pos settings.watchdog
    refine ⟨next, later, hrun, hlater, ?_, hactivity, hclock, by omega⟩
    exact h.run hrun

theorem Serve.Ticking.ticks (h : serve.Ticking settings) (hphase : serve.phase = .splicing splice)
    (hfits : U64_MAX < splice.watch.latest + asMillis settings.idleTimeout) (count : Nat) :
    ∃ events last later, (Serve.own settings).run serve events = some last ∧
      last.phase = .splicing later ∧ last.Ticking settings ∧
      later.watch.activity = splice.watch.activity ∧ count ≤ later.watch.nextTick := by
  induction count with
  | zero => exact ⟨[], serve, splice, rfl, hphase, h, rfl, Nat.zero_le _⟩
  | succ count ih =>
      obtain ⟨events, last, later, hrun, hlater, hticks, hactivity, hcount⟩ := ih
      have hlatest := Watch.latest_congr hactivity
      obtain ⟨next, after, hnext, hafter, hticks', hsame, -, hlt⟩ :=
        hticks.lingers hlater (hlatest ▸ hfits)
      refine ⟨events ++ later.toTick, next, after, ?_, hafter, hticks', hsame.trans hactivity,
        by omega⟩
      exact Machine.run_trans hrun hnext

theorem Serve.guarded_deadlined
    (hr : (Serve.own settings).run (.start settings) events = some serve)
    (hguarded : serve.phase.guarded settings) : serve.Deadlined settings (serve.due settings) := by
  unfold Serve.due
  cases hphase : serve.phase with
  | accepting accept =>
      rw [hphase] at hguarded
      cases accept with
      | reading deadline read => exact Serve.header_deadlined hr (by rw [hphase]; rfl)
      | echoing _ _ | returned _ => cases hguarded
  | awaitingRequest deadline => exact Serve.request_deadlined hr hphase
  | splicing splice =>
      rw [hphase] at hguarded
      exact Serve.splice_deadlined hr hphase (of_decide_eq_true hguarded)
  | connecting _ | writing _ | returned =>
      rw [hphase] at hguarded
      cases hguarded

-- Where a timer is armed it does end the task, if nothing else does.
theorem Serve.guarded_returns
    (hr : (Serve.own settings).run (.start settings) events = some serve)
    (hguarded : serve.phase.guarded settings) :
    ∃ timers last, (∀ event ∈ timers, ServeEvent.isTimer event) ∧
      (Serve.own settings).run serve timers = some last ∧ last.phase = .returned ∧
      last.elapsed ≤ serve.due settings := by
  have htimely := serve_timely hr
  unfold Serve.Timely at htimely
  obtain ⟨elapsed, stream, upstream, phase⟩ := serve
  cases phase with
  | accepting accept =>
      cases accept with
      | reading deadline read =>
          obtain ⟨rfl, hle⟩ := htimely
          refine ⟨[.elapse (settings.handshakeTimeout - elapsed), .stream .expired],
            ⟨settings.handshakeTimeout, stream.move [] [], upstream, .returned⟩, ?_, ?_, rfl,
            le_rfl⟩
          · simp [ServeEvent.isTimer]
          · simp [Machine.run, Serve.own, Serve.step, ServePhase.allows, Nat.add_sub_cancel' hle,
              Accept.step, Serve.taken, Serve.given, WaitEvent.taken, Accept.given]
      | echoing _ _ | returned _ => cases hguarded
  | awaitingRequest deadline =>
      obtain ⟨hle, -⟩ := htimely
      refine ⟨[.elapse (deadline - elapsed), .stream .expired],
        ⟨deadline, stream, upstream, .returned⟩, ?_, ?_, rfl, le_rfl⟩
      · simp [ServeEvent.isTimer]
      · simp [Machine.run, Serve.own, Serve.step, ServePhase.allows, Nat.add_sub_cancel' hle]
  | splicing splice =>
      obtain ⟨-, -, -, hclock⟩ := serve_ticking hr splice rfl
      obtain ⟨timers, last, htimers, hrun, hreturned, hle⟩ := Serve.splice_returns
        (serve_ticking hr) rfl (Nat.sub_add_cancel hclock).symm rfl (of_decide_eq_true hguarded)
      exact ⟨timers, last, htimers, hrun, hreturned, hle.trans (Nat.add_assoc _ _ _).ge⟩
  | connecting _ | writing _ | returned => cases hguarded

-- The other suspensions last as long as the stream and the upstream like.
theorem Serve.allowed_lingers {due : Nat} (h : serve.phase.allows (serve.elapsed + (due + 1))) :
    ¬serve.Deadlined settings due := by
  intro hdeadlined
  have hlate := hdeadlined [.elapse (due + 1)] { serve with elapsed := serve.elapsed + (due + 1) }
    (by rw [Machine.run_cons, Serve.own_elapse h]; rfl) rfl
  simp only at hlate
  omega

theorem Serve.unguarded_lingers
    (hr : (Serve.own settings).run (.start settings) events = some serve)
    (hrunning : serve.phase ≠ .returned) (hguarded : ¬serve.phase.guarded settings) (due : Nat) :
    ¬serve.Deadlined settings due := by
  cases hphase : serve.phase with
  | returned => exact absurd hphase hrunning
  | accepting accept =>
      rw [hphase] at hguarded
      cases accept with
      | reading _ _ => exact absurd rfl hguarded
      | echoing _ _ | returned _ => exact Serve.allowed_lingers (by rw [hphase]; rfl)
  | awaitingRequest _ =>
      rw [hphase] at hguarded
      exact absurd rfl hguarded
  | connecting _ | writing _ => exact Serve.allowed_lingers (by rw [hphase]; rfl)
  | splicing splice =>
      intro hdeadlined
      rw [hphase] at hguarded
      have hfits : U64_MAX < splice.watch.latest + asMillis settings.idleTimeout := by
        simpa [ServePhase.guarded] using hguarded
      obtain ⟨later, middle, spliced, hrun, hspliced, hticks, hactivity, hdue⟩ :=
        (serve_ticking hr).ticks hphase hfits (due + 1)
      have hlatest := Watch.latest_congr hactivity
      obtain ⟨last, after, hlast, hafter, hticks', hsame, hclock, -⟩ :=
        hticks.lingers hspliced (hlatest ▸ hfits)
      have hlate := hdeadlined (later ++ spliced.toTick) last
        (Machine.run_trans hrun hlast)
        (by rw [hafter, hphase]; exact congrArg ServeWait.splice (hsame.trans hactivity))
      have hafter := (hticks' after hafter).2.2.2
      omega

end

-- A suspended task is under a deadline exactly in the two timed reads and in the
-- splice, and there the permit is back by it.
theorem permit_deadlined (settings : ServeSettings) (events : List ServeEvent) (serve : Serve)
    (hr : (Serve.own settings).run (.start settings) events = some serve)
    (hrunning : serve.phase ≠ .returned) :
    ((∃ due, serve.Deadlined settings due) ↔ serve.phase.guarded settings) ∧
    (serve.phase.guarded settings →
      serve.Deadlined settings (serve.due settings) ∧
      ∃ timers last, (∀ event ∈ timers, ServeEvent.isTimer event) ∧
        (Serve.own settings).run serve timers = some last ∧ last.phase = .returned ∧
        last.elapsed ≤ serve.due settings) := by
  constructor
  · constructor
    · intro ⟨due, hdeadlined⟩
      by_contra hguarded
      exact Serve.unguarded_lingers hr hrunning hguarded due hdeadlined
    · exact fun hguarded => ⟨_, Serve.guarded_deadlined hr hguarded⟩
  · exact fun hguarded =>
      ⟨Serve.guarded_deadlined hr hguarded, Serve.guarded_returns hr hguarded⟩

def permitSettings : ServeSettings where
  handshakeTimeout := 30
  firstRequestTimeout := 60
  idleTimeout := 3000000

-- A wallet that says its header 5 into the handshake and then nothing.
theorem silent_wallet_deadlined : ∃ serve,
    (Serve.own permitSettings).run (.start permitSettings)
      [.elapse 5, .stream (.io (.read (Header.encode ⟨false, 7⟩)))] = some serve ∧
    serve.Deadlined permitSettings 65 ∧
    ∃ timers last, (∀ event ∈ timers, ServeEvent.isTimer event) ∧
      (Serve.own permitSettings).run serve timers = some last ∧ last.phase = .returned ∧
      last.elapsed ≤ 65 := by
  obtain ⟨serve, hr, hphase⟩ : ∃ serve,
      (Serve.own permitSettings).run (.start permitSettings)
        [.elapse 5, .stream (.io (.read (Header.encode ⟨false, 7⟩)))] = some serve ∧
      serve.phase = .awaitingRequest 65 := Option.map_eq_some_iff.mp (by decide +kernel)
  have hdue : serve.due permitSettings = 65 := by simp [Serve.due, hphase]
  have hpermit := (permit_deadlined permitSettings _ serve hr (by simp [hphase])).2
    (by rw [hphase]; rfl)
  rw [hdue] at hpermit
  exact ⟨serve, hr, hpermit⟩

-- A dialler that asks for the echo and takes none of it keeps the permit.
theorem unread_echo_holds : ¬∀ (settings : ServeSettings) (events : List ServeEvent)
    (serve : Serve), (Serve.own settings).run (.start settings) events = some serve →
    serve.phase ≠ .returned → ∃ due, serve.Deadlined settings due := by
  intro hclaim
  obtain ⟨serve, hr, hphase⟩ : ∃ serve,
      (Serve.own permitSettings).run (.start permitSettings)
        [.stream (.io (.read (Header.encode ⟨true, 7⟩)))] = some serve ∧
      serve.phase = .accepting (.echoing ⟨true, 7⟩ (.writing (Header.encode ⟨true, 7⟩))) :=
    Option.map_eq_some_iff.mp (by decide +kernel)
  obtain ⟨due, hdeadlined⟩ := hclaim permitSettings _ serve hr (by simp [hphase])
  exact Serve.allowed_lingers (by rw [hphase]; rfl) hdeadlined

end LwdMixnet
