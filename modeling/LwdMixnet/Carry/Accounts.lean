import LwdMixnet.Carry
import LwdMixnet.Dial.Accounts
import LwdMixnet.Machine.Crew
import Mathlib.Algebra.Order.BigOperators.Group.List
import Mathlib.Algebra.Order.Group.Nat

namespace LwdMixnet

-- The single updates that the metrics' methods are made of. A connection is
-- counted and its gauge raised in one, and a fold holds its lock throughout.
inductive ClientUpdate
  | connectionAccepted
  | rounds (count : Nat)
  | streamsOpened (count : Nat)
  | streamDiscarded (reason : String)
  | firstRoundFailure
  | establishment (waited : Nat)
  | unestablished
  | fold (outcome : Outcome)
  | bytes (direction : String) (count : Nat)
  | ended (reason : Ended)
  | dropInFlight
  deriving DecidableEq, Repr

def ClientUpdate.apply (update : ClientUpdate) (streaks : Streaks) : Streaks :=
  match update with
  | .connectionAccepted => streaks.report ClientMetrics.connectionAccepted
  | .rounds count =>
      streaks.report fun metrics => { metrics with rounds := metrics.rounds + count }
  | .streamsOpened count =>
      streaks.report fun metrics => { metrics with streamsOpened := metrics.streamsOpened + count }
  | .streamDiscarded reason =>
      streaks.report fun metrics =>
        { metrics with streamsDiscarded := metrics.streamsDiscarded.incBy reason 1 }
  | .firstRoundFailure =>
      streaks.report fun metrics =>
        { metrics with firstRoundFailures := metrics.firstRoundFailures + 1 }
  | .establishment waited =>
      streaks.report fun metrics =>
        { metrics with establishment := metrics.establishment ++ [waited] }
  | .unestablished =>
      streaks.report fun metrics => { metrics with unestablished := metrics.unestablished + 1 }
  | .fold outcome => streaks.fold outcome
  | .bytes direction count =>
      streaks.report fun metrics => { metrics with bytes := metrics.bytes.incBy direction count }
  | .ended reason =>
      streaks.report fun metrics =>
        { metrics with ended := metrics.ended.incBy (endedReason reason) 1 }
  | .dropInFlight => streaks.report ClientMetrics.dropInFlight

def ClientUpdate.isEnded : ClientUpdate → Bool
  | .ended _ => true
  | _ => false

def Streaks.replay (streaks : Streaks) (updates : List ClientUpdate) : Streaks :=
  updates.foldl (fun streaks update => update.apply streaks) streaks

def Round.updates (round : Round) : List ClientUpdate :=
  .streamsOpened round.opened ::
    round.discarded.map fun stream => .streamDiscarded (discardReason stream.error)

def firstUnanswered (rounds : List Round) : Bool :=
  rounds.head?.any fun round => !round.answered

def dialUpdates (rounds : List Round) : List ClientUpdate :=
  .rounds rounds.length :: rounds.flatMap Round.updates ++
    if firstUnanswered rounds then [.firstRoundFailure] else []

def clientFinished (transfer : Transfer) (ended : Ended) : List ClientUpdate :=
  [.bytes "to_mixnet" transfer.toRemote, .bytes "from_mixnet" transfer.fromRemote,
    .ended ended]

-- The updates a step of `carry` makes, in its order.
def Carry.emits (carrying : Carrying) (carry : Carry) (event : CarryEvent) : List ClientUpdate :=
  match carry.phase, event with
  | .accepted, .start => [.connectionAccepted]
  | .dialled (.ok dialled), .fold =>
      dialUpdates dialled.rounds ++
        [.establishment carry.waited, .fold (carrying.dial.outcome (.ok dialled))]
  | .dialled (.error gaveUp), .fold =>
      dialUpdates gaveUp.rounds ++
        [.unestablished, .fold (carrying.dial.outcome (.error gaveUp)), .dropInFlight]
  | .splicing _ splice, .splice waited =>
      match (splice.step waited).bind Splice.ended with
      | some (transfer, ended) => clientFinished transfer ended ++ [.dropInFlight]
      | none => []
  | _, _ => []

theorem Streaks.replay_append (streaks : Streaks) (first second : List ClientUpdate) :
    streaks.replay (first ++ second) = (streaks.replay first).replay second :=
  List.foldl_append

theorem replay_discarded (streaks : Streaks) (discarded : List Discarded) :
    streaks.replay (discarded.map fun stream => .streamDiscarded (discardReason stream.error)) =
      streaks.report fun metrics => { metrics with
        streamsDiscarded := discarded.foldl (fun counters stream =>
          counters.incBy (discardReason stream.error) 1) metrics.streamsDiscarded } := by
  induction discarded generalizing streaks with
  | nil => rfl
  | cons stream rest ih =>
      rw [List.map_cons]
      exact ih _

theorem replay_rounds (streaks : Streaks) (rounds : List Round) :
    streaks.replay (rounds.flatMap Round.updates) = streaks.report fun metrics => { metrics with
      streamsOpened := metrics.streamsOpened + (rounds.map Round.opened).sum
      streamsDiscarded := (rounds.flatMap Round.discarded).foldl (fun counters stream =>
        counters.incBy (discardReason stream.error) 1) metrics.streamsDiscarded } := by
  induction rounds generalizing streaks with
  | nil => rfl
  | cons round rest ih =>
      have hround : streaks.replay round.updates =
          (streaks.report fun metrics =>
            { metrics with streamsOpened := metrics.streamsOpened + round.opened }).replay
            (round.discarded.map fun stream => .streamDiscarded (discardReason stream.error)) := rfl
      rw [List.flatMap_cons, Streaks.replay_append, hround, replay_discarded, ih]
      simp [Streaks.report, Nat.add_assoc]

theorem replay_dial (streaks : Streaks) (rounds : List Round) :
    streaks.replay (dialUpdates rounds) = streaks.report (·.dialled rounds) := by
  have hrounds : streaks.replay (dialUpdates rounds) =
      ((streaks.report fun metrics =>
        { metrics with rounds := metrics.rounds + rounds.length }).replay
        (rounds.flatMap Round.updates)).replay
        (if firstUnanswered rounds then [.firstRoundFailure] else []) :=
    Streaks.replay_append _ (.rounds rounds.length :: rounds.flatMap Round.updates) _
  rw [hrounds, replay_rounds]
  unfold ClientMetrics.dialled
  by_cases hfirst : rounds.head?.any fun round => !round.answered
  · simp [firstUnanswered, hfirst, Streaks.report, Streaks.replay, ClientUpdate.apply]
  · simp [firstUnanswered, hfirst, Streaks.report, Streaks.replay]

-- The steps of one task, with what they make of what it shares.
theorem Carry.step_emits (carrying : Carrying) (streaks : Streaks) (carry : Carry)
    (event : CarryEvent) :
    Carry.step carrying (streaks, carry) event = (Carry.own carrying carry event).map fun next =>
      (streaks.replay (carry.emits carrying event), next) := by
  obtain ⟨waited, wallet, near, phase⟩ := carry
  unfold Carry.own
  cases phase with
  | accepted => cases event <;> rfl
  | dialling dial =>
      cases event with
      | dial waited =>
          simp only [Carry.step, Carry.emits]
          cases dial.step carrying.dial waited <;> rfl
      | start | fold | splice _ | elapse _ => rfl
  | dialled result =>
      cases event with
      | fold =>
          cases result with
          | ok dialled =>
              simp only [Carry.step, Carry.emits, Option.map_some, Streaks.replay_append,
                replay_dial]
              rfl
          | error gaveUp =>
              simp only [Carry.step, Carry.emits, Option.map_some, Streaks.replay_append,
                replay_dial]
              rfl
      | start | dial _ | splice _ | elapse _ => cases result <;> rfl
  | splicing stream splice =>
      cases event with
      | splice waited =>
          simp only [Carry.step, Carry.emits]
          cases splice.step waited with
          | none => rfl
          | some next =>
              simp only [Option.bind_some]
              cases next.ended with
              | none => rfl
              | some verdict => rfl
      | start | dial _ | fold | elapse _ => rfl
  | returned => cases event <;> rfl

-- How often a task has made each of the updates that the exported pair, the
-- gauge and the endings are made of.
structure Tally where
  accepted : Nat := 0
  firstRound : Nat := 0
  unestablished : Nat := 0
  ended : Nat := 0
  dropped : Nat := 0
  deriving DecidableEq, Repr

def Tally.add (tally : Tally) : ClientUpdate → Tally
  | .connectionAccepted => { tally with accepted := tally.accepted + 1 }
  | .firstRoundFailure => { tally with firstRound := tally.firstRound + 1 }
  | .unestablished => { tally with unestablished := tally.unestablished + 1 }
  | .ended _ => { tally with ended := tally.ended + 1 }
  | .dropInFlight => { tally with dropped := tally.dropped + 1 }
  | _ => tally

def tally (updates : List ClientUpdate) : Tally where
  accepted := updates.count .connectionAccepted
  firstRound := updates.count .firstRoundFailure
  unestablished := updates.count .unestablished
  ended := updates.countP ClientUpdate.isEnded
  dropped := updates.count .dropInFlight

theorem tally_concat (updates : List ClientUpdate) (update : ClientUpdate) :
    tally (updates ++ [update]) = (tally updates).add update := by
  cases update <;> simp [tally, Tally.add, ClientUpdate.isEnded]

-- What the order of a task's updates comes to at every point of it.
def Tally.Tidy (tally : Tally) : Prop :=
  tally.unestablished ≤ tally.firstRound ∧ tally.firstRound ≤ tally.accepted ∧
    tally.dropped ≤ tally.unestablished + tally.ended ∧
    tally.unestablished + tally.ended ≤ tally.accepted ∧ tally.accepted ≤ 1

theorem tally_append (updates later : List ClientUpdate) :
    tally (updates ++ later) = later.foldl Tally.add (tally updates) := by
  induction later using List.reverseRecOn with
  | nil => simp
  | append_singleton later update ih =>
      rw [← List.append_assoc, tally_concat, ih, List.foldl_concat]

-- The updates keep the tally tidy one by one.
def Tally.Keeps (tally : Tally) : List ClientUpdate → Prop
  | [] => True
  | update :: rest => (tally.add update).Tidy ∧ (tally.add update).Keeps rest

def Tidied (updates : List ClientUpdate) : Prop :=
  ∀ done, done <+: updates → (tally done).Tidy

theorem Tidied.append {updates later : List ClientUpdate} (h : Tidied updates)
    (hkeeps : (tally updates).Keeps later) : Tidied (updates ++ later) := by
  induction later generalizing updates with
  | nil => simpa using h
  | cons update rest ih =>
      obtain ⟨htidy, hrest⟩ := hkeeps
      rw [← tally_concat] at htidy hrest
      have hnext : Tidied (updates ++ [update]) := by
        intro done hdone
        rcases List.prefix_concat_iff.mp hdone with rfl | hdone
        · exact htidy
        · exact h done hdone
      simpa using ih hnext hrest

theorem Tally.Tidy.keeps {tally : Tally} {silent rest : List ClientUpdate} (h : tally.Tidy)
    (hsilent : ∀ update ∈ silent, tally.add update = tally) (hrest : tally.Keeps rest) :
    tally.Keeps (silent ++ rest) := by
  induction silent with
  | nil => exact hrest
  | cons update others ih =>
      have hsame := hsilent update List.mem_cons_self
      rw [List.cons_append, Tally.Keeps, hsame]
      refine ⟨h, ?_⟩
      exact ih fun other hother => hsilent other (List.mem_cons_of_mem _ hother)

-- What is done of a dial before its first round is looked at is not counted here.
theorem Tally.add_rounds (tally : Tally) (rounds : List Round) :
    ∀ update ∈ ClientUpdate.rounds rounds.length :: rounds.flatMap Round.updates,
      tally.add update = tally := by
  intro update hupdate
  rcases List.mem_cons.mp hupdate with rfl | hupdate
  · rfl
  · obtain ⟨round, -, hround⟩ := List.mem_flatMap.mp hupdate
    rcases List.mem_cons.mp hround with rfl | hround
    · rfl
    · obtain ⟨stream, -, rfl⟩ := List.mem_map.mp hround
      rfl

theorem Tally.foldl_rounds (tally : Tally) (rounds : List Round) :
    (ClientUpdate.rounds rounds.length :: rounds.flatMap Round.updates).foldl Tally.add tally =
      tally := by
  have hsilent := tally.add_rounds rounds
  generalize ClientUpdate.rounds rounds.length :: rounds.flatMap Round.updates = silent at hsilent ⊢
  induction silent with
  | nil => rfl
  | cons update rest ih =>
      rw [List.foldl_cons, hsilent update List.mem_cons_self]
      exact ih fun other hother => hsilent other (List.mem_cons_of_mem _ hother)

theorem dialUpdates_append (rounds : List Round) (later : List ClientUpdate) :
    dialUpdates rounds ++ later = (.rounds rounds.length :: rounds.flatMap Round.updates) ++
      ((if firstUnanswered rounds then [.firstRoundFailure] else []) ++ later) := by
  simp [dialUpdates]

def Carry.made (carrying : Carrying) (events : List CarryEvent) : List ClientUpdate :=
  (Carry.own carrying).views (Carry.emits carrying) {} events

-- What the phases say of the updates a task has made.
def Carry.Stands (carrying : Carrying) (tally : Tally) (carry : Carry) : Prop :=
  match carry.phase with
  | .accepted => tally = {}
  | .dialling dial => tally = { accepted := 1 } ∧ dial.Budgeted carrying.dial
  | .dialled (.ok _) => tally = { accepted := 1 }
  | .dialled (.error gaveUp) => tally = { accepted := 1 } ∧ firstUnanswered gaveUp.rounds
  | .splicing _ _ => tally = { accepted := 1 } ∨ tally = { accepted := 1, firstRound := 1 }
  | .returned => True

-- A dial that gave up ran a round, and nothing answered it.
theorem Dial.Budgeted.firstUnanswered {settings : DialSettings} {dial : Dial} {gaveUp : GaveUp}
    (h : dial.Budgeted settings) (hphase : dial.phase = .returned (.error gaveUp)) :
    LwdMixnet.firstUnanswered gaveUp.rounds := by
  simp only [Dial.Budgeted, hphase] at h
  obtain ⟨hsame, hlooping, hall⟩ := h
  rw [LwdMixnet.firstUnanswered, hsame]
  cases hrounds : dial.rounds with
  | nil =>
      rw [hrounds, List.length_nil, Nat.zero_mul] at hall
      exact absurd settings.attempts_pos (Nat.not_lt_of_le hall)
  | cons first rest =>
      have hfirst := hlooping.unanswered first (by simp [hrounds])
      simp [hfirst]

theorem Carry.Stands.step {carrying : Carrying} {carry next : Carry} {event : CarryEvent}
    {made : List ClientUpdate} (hstands : carry.Stands carrying (tally made))
    (htidied : Tidied made) (hown : Carry.own carrying carry event = some next) :
    Tidied (made ++ carry.emits carrying event) ∧
      next.Stands carrying (tally (made ++ carry.emits carrying event)) := by
  have htidy := htidied _ (List.prefix_refl _)
  obtain ⟨after, hs⟩ := Carry.own_step hown
  unfold Carry.Stands at hstands
  have hsilent (he : carry.emits carrying event = []) (hnext : next.Stands carrying
      (tally made)) :
      Tidied (made ++ carry.emits carrying event) ∧
        next.Stands carrying
          (tally (made ++ carry.emits carrying event)) := by
    rw [he, List.append_nil]
    exact ⟨htidied, hnext⟩
  obtain ⟨hphase, rfl, rfl⟩ | ⟨dial, waited, resumed, hphase, rfl, hd, -, -, hnext⟩ |
    ⟨dialled, hphase, rfl, rfl⟩ | ⟨gaveUp, hphase, rfl, rfl⟩ |
    ⟨stream, splice, waited, resumed, hphase, rfl, hsplice, -, -, hnext⟩ |
    ⟨time, rfl, rfl⟩ := Carry.step_cases hs
  · have he : carry.emits carrying .start = [.connectionAccepted] := by
      simp [Carry.emits, hphase]
    rw [hphase] at hstands
    rw [he, tally_append, hstands]
    refine ⟨htidied.append ?_, rfl, Dial.start_budgeted carrying.dial⟩
    simp [hstands, Tally.Keeps, Tally.Tidy, Tally.add]
  · refine hsilent (by simp [Carry.emits, hphase]) ?_
    rw [hphase] at hstands
    obtain ⟨htally, hbudgeted⟩ := hstands
    have hbudgeted := hbudgeted.step hd
    unfold Carry.Stands
    obtain ⟨result, hreturned, hnext⟩ | hnext := hnext
    · rw [hnext]
      cases result with
      | ok dialled => exact htally
      | error gaveUp => exact ⟨htally, hbudgeted.firstUnanswered hreturned⟩
    · rw [hnext]
      exact ⟨htally, hbudgeted⟩
  · have he : carry.emits carrying .fold = dialUpdates dialled.rounds ++
        [.establishment carry.waited, .fold (carrying.dial.outcome (.ok dialled))] := by
      simp [Carry.emits, hphase]
    rw [hphase] at hstands
    rw [he, dialUpdates_append, tally_append, List.foldl_append, Tally.foldl_rounds, hstands]
    refine ⟨htidied.append (htidy.keeps (Tally.add_rounds _ _) ?_), ?_⟩
    · rw [hstands]
      split_ifs <;> simp [Tally.Keeps, Tally.Tidy, Tally.add]
    · simp only [Carry.Stands]
      split_ifs <;> simp [Tally.add]
  · have he : carry.emits carrying .fold = dialUpdates gaveUp.rounds ++
        [.unestablished, .fold (carrying.dial.outcome (.error gaveUp)), .dropInFlight] := by
      simp [Carry.emits, hphase]
    rw [hphase] at hstands
    obtain ⟨htally, hfirst⟩ := hstands
    rw [he, dialUpdates_append, if_pos hfirst]
    refine ⟨htidied.append (htidy.keeps (Tally.add_rounds _ _) ?_), trivial⟩
    simp [htally, Tally.Keeps, Tally.Tidy, Tally.add]
  · have hnext' := hs
    simp only [Carry.step, hphase, hsplice] at hnext'
    rw [hphase] at hstands
    cases hended : resumed.ended with
    | none =>
        rw [hended] at hnext'
        obtain ⟨-, rfl⟩ := Prod.mk.inj (Option.some.inj hnext')
        exact hsilent (by simp [Carry.emits, hphase, hsplice, hended]) hstands
    | some verdict =>
        rw [hended] at hnext'
        obtain ⟨-, rfl⟩ := Prod.mk.inj (Option.some.inj hnext')
        have he : carry.emits carrying (.splice waited) =
            clientFinished verdict.1 verdict.2 ++ [.dropInFlight] := by
          simp [Carry.emits, hphase, hsplice, hended]
        rw [he]
        refine ⟨htidied.append ?_, trivial⟩
        rcases hstands with htally | htally <;>
          simp [htally, clientFinished, Tally.Keeps, Tally.Tidy, Tally.add]
  · refine hsilent (by cases hphase : carry.phase <;> simp [Carry.emits, hphase]) ?_
    exact hstands

theorem carry_tidied {carrying : Carrying} {events : List CarryEvent} {carry : Carry}
    (hr : (Carry.own carrying).run {} events = some carry) :
    Tidied (Carry.made carrying events) ∧
      carry.Stands carrying (tally (Carry.made carrying events)) := by
  refine Machine.run_history (fun events carry => Tidied (Carry.made carrying events) ∧
    Carry.Stands carrying (tally (Carry.made carrying events)) carry) ?_ ?_ hr
  · refine ⟨fun done hdone => ?_, rfl⟩
    obtain rfl := List.prefix_nil.mp hdone
    simp [Tally.Tidy, tally]
  · intro events carry event next hr ⟨htidied, hstands⟩ hown
    have hmade : Carry.made carrying (events ++ [event]) =
        Carry.made carrying events ++ carry.emits carrying event :=
      Machine.views_concat _ (Carry.emits carrying) hr hown
    rw [hmade]
    exact hstands.step htidied hown

-- Any number of tasks, whose updates of what they share interleave.
abbrev Carriers := Machine.Crew Carry ClientUpdate Streaks

abbrev Carriers.step (carrying : Carrying) : Machine Carriers (Machine.CrewEvent CarryEvent) :=
  Machine.crew (Carry.own carrying) {} (Carry.emits carrying) ClientUpdate.apply

def Carriers.start : Carriers where
  shared := {}

-- A connection that was counted and whose guard has not been dropped, and one
-- that also has its terminal count.
def holding (updates : List ClientUpdate) : Bool :=
  updates.contains .connectionAccepted && !updates.contains .dropInFlight

def closing (updates : List ClientUpdate) : Bool :=
  (updates.contains .unestablished || updates.any ClientUpdate.isEnded) &&
    !updates.contains .dropInFlight

theorem Tally.Tidy.holding {updates : List ClientUpdate} (h : (tally updates).Tidy) :
    (LwdMixnet.holding updates).toNat + updates.count .dropInFlight =
      updates.count .connectionAccepted := by
  obtain ⟨-, -, hdropped, hterminal, honce⟩ := h
  simp only [tally] at hdropped hterminal honce
  unfold LwdMixnet.holding
  by_cases haccepted : ClientUpdate.connectionAccepted ∈ updates
  · have hone := List.count_pos_iff.mpr haccepted
    by_cases hdrop : ClientUpdate.dropInFlight ∈ updates
    · have := List.count_pos_iff.mpr hdrop
      simp only [List.contains_iff_mem.mpr haccepted, List.contains_iff_mem.mpr hdrop,
        Bool.not_true, Bool.and_false, Bool.toNat_false]
      omega
    · have := List.count_eq_zero_of_not_mem hdrop
      simp [haccepted, hdrop]
      omega
  · have := List.count_eq_zero_of_not_mem haccepted
    simp [haccepted]
    omega

theorem Tally.Tidy.closing {updates : List ClientUpdate} (h : (tally updates).Tidy) :
    (LwdMixnet.closing updates).toNat + updates.count .dropInFlight =
      updates.count .unestablished + updates.countP ClientUpdate.isEnded := by
  obtain ⟨-, -, hdropped, hterminal, honce⟩ := h
  simp only [tally] at hdropped hterminal honce
  have hover : (updates.contains .unestablished || updates.any ClientUpdate.isEnded) =
      decide (0 < updates.count .unestablished + updates.countP ClientUpdate.isEnded) := by
    rw [Bool.eq_iff_iff]
    simp only [Bool.or_eq_true, List.contains_iff_mem, List.any_eq_true, decide_eq_true_eq,
      Nat.add_pos_iff_pos_or_pos, List.count_pos_iff, List.countP_pos_iff]
  unfold LwdMixnet.closing
  rw [hover]
  by_cases hdrop : ClientUpdate.dropInFlight ∈ updates
  · have := List.count_pos_iff.mpr hdrop
    simp [hdrop]
    omega
  · have := List.count_eq_zero_of_not_mem hdrop
    by_cases hzero : updates.count .unestablished + updates.countP ClientUpdate.isEnded = 0
    · simp [hdrop, hzero]
      omega
    · simp [hdrop, Nat.pos_of_ne_zero hzero]
      omega

theorem Streaks.flag_metrics (streaks : Streaks) : streaks.flag.metrics = streaks.metrics := by
  simp only [Streaks.flag]
  split_ifs <;> rfl

theorem Streaks.signal_metrics (streaks : Streaks) :
    streaks.signal.metrics = streaks.metrics := by
  unfold Streaks.signal
  split_ifs <;> rfl

theorem Streaks.fold_metrics (streaks : Streaks) (outcome : Outcome) :
    (streaks.fold outcome).metrics =
      streaks.metrics.setFailedInARow (streaks.counts.fold outcome).deadEnds := by
  rw [Streaks.fold, Streaks.signal_metrics, Streaks.flag_metrics]
  rfl

-- What one update adds to each reading.
theorem ClientUpdate.apply_counted (update : ClientUpdate) (streaks : Streaks) :
    (update.apply streaks).metrics.connections =
      streaks.metrics.connections + (update == .connectionAccepted).toNat ∧
    (update.apply streaks).metrics.firstRoundFailures =
      streaks.metrics.firstRoundFailures + (update == .firstRoundFailure).toNat ∧
    (update.apply streaks).metrics.unestablished =
      streaks.metrics.unestablished + (update == .unestablished).toNat ∧
    (update.apply streaks).metrics.ended.total endedReasons =
      streaks.metrics.ended.total endedReasons + update.isEnded.toNat ∧
    (update.apply streaks).metrics.inFlight = streaks.metrics.inFlight +
      ((update == .connectionAccepted).toNat - (update == .dropInFlight).toNat : Int) := by
  cases update with
  | fold outcome =>
      simp only [ClientUpdate.apply, Streaks.fold_metrics]
      exact ⟨rfl, rfl, rfl, rfl, (Int.add_zero _).symm⟩
  | ended reason =>
      refine ⟨rfl, rfl, rfl, ?_, (Int.add_zero _).symm⟩
      simp [ClientUpdate.apply, Streaks.report, CounterVec.total_incBy, count_endedReason,
        ClientUpdate.isEnded]
  | connectionAccepted | dropInFlight => exact ⟨rfl, rfl, rfl, rfl, rfl⟩
  | rounds _ | streamsOpened _ | streamDiscarded _ | firstRoundFailure | establishment _
  | unestablished | bytes _ _ => exact ⟨rfl, rfl, rfl, rfl, (Int.add_zero _).symm⟩

section

variable {carrying : Carrying} {events : List (Machine.CrewEvent CarryEvent)} {carriers : Carriers}

theorem Carriers.tidy (hr : (Carriers.step carrying).run .start events = some carriers)
    {member : Machine.Member Carry ClientUpdate} (hmember : member ∈ carriers.members) :
    (tally member.log).Tidy := by
  obtain ⟨id, hid⟩ := List.mem_iff_getElem?.mp hmember
  obtain ⟨hrun, hlog⟩ := Machine.crew_member hr hid
  exact (carry_tidied hrun).1 member.log ⟨member.pending, hlog⟩

-- A counter reads how often the tasks have made the update it counts.
theorem Carriers.counts (hr : (Carriers.step carrying).run .start events = some carriers)
    (reading : ClientMetrics → Nat) (counted : ClientUpdate → Bool) (hzero : reading {} = 0)
    (happly : ∀ update (streaks : Streaks),
      reading (update.apply streaks).metrics = reading streaks.metrics + (counted update).toNat) :
    reading carriers.shared.metrics =
      (carriers.members.map fun member => member.log.countP counted).sum := by
  have htally := Machine.crew_tally (fun streaks : Streaks => reading streaks.metrics)
    (fun update => (counted update).toNat) happly hr
  rw [htally]
  change reading {} + _ = _
  rw [hzero, Nat.zero_add]
  congr 1
  exact List.map_congr_left fun member _ => Machine.sum_map_toNat counted member.log

theorem sum_holding (updates : List ClientUpdate) :
    (updates.map fun update =>
      ((update == .connectionAccepted).toNat - (update == .dropInFlight).toNat : Int)).sum =
      updates.count .connectionAccepted - updates.count .dropInFlight := by
  induction updates with
  | nil => rfl
  | cons update rest ih =>
      rw [List.map_cons, List.sum_cons, ih, List.count_cons, List.count_cons]
      cases update == .connectionAccepted <;> cases update == .dropInFlight <;> simp <;> omega

theorem Carriers.inFlight (hr : (Carriers.step carrying).run .start events = some carriers) :
    carriers.shared.metrics.inFlight =
      carriers.members.countP fun member => holding member.log := by
  have htally := Machine.crew_tally (fun streaks : Streaks => streaks.metrics.inFlight) _
    (fun update streaks => (ClientUpdate.apply_counted update streaks).2.2.2.2) hr
  rw [htally, ← Machine.sum_map_toNat]
  refine (Int.zero_add _).trans (congrArg List.sum (List.map_congr_left fun member hmember => ?_))
  have hheld := (Carriers.tidy hr hmember).holding
  rw [sum_holding]
  omega

end

-- The exported pair is ordered at every instant, the gauge is the connections
-- that are held, and each connection is in flight or in one terminal count.
theorem exported_pair_ordered (carrying : Carrying)
    (events : List (Machine.CrewEvent CarryEvent)) (carriers : Carriers)
    (hr : (Carriers.step carrying).run .start events = some carriers) :
    let metrics := carriers.shared.metrics
    (metrics.unestablished ≤ metrics.firstRoundFailures ∧
      metrics.firstRoundFailures ≤ metrics.connections) ∧
    metrics.inFlight = carriers.members.countP (fun member => holding member.log) ∧
    (metrics.connections : Int) ≤
      metrics.inFlight + metrics.unestablished + metrics.ended.total endedReasons ∧
    ((∀ member ∈ carriers.members, closing member.log = false) → (metrics.connections : Int) =
      metrics.inFlight + metrics.unestablished + metrics.ended.total endedReasons) := by
  have hconnections := Carriers.counts hr ClientMetrics.connections _ rfl
    fun update streaks => (ClientUpdate.apply_counted update streaks).1
  have hfirst := Carriers.counts hr ClientMetrics.firstRoundFailures _ rfl
    fun update streaks => (ClientUpdate.apply_counted update streaks).2.1
  have hunestablished := Carriers.counts hr ClientMetrics.unestablished _ rfl
    fun update streaks => (ClientUpdate.apply_counted update streaks).2.2.1
  have hended := Carriers.counts hr (fun metrics => metrics.ended.total endedReasons) _ rfl
    fun update streaks => (ClientUpdate.apply_counted update streaks).2.2.2.1
  have hinFlight := Carriers.inFlight hr
  have hholding : (carriers.members.map fun member => (holding member.log).toNat).sum =
      carriers.members.countP fun member => holding member.log := Machine.sum_map_toNat _ _
  have hsplit : carriers.members.countP (fun member => holding member.log) +
      carriers.shared.metrics.unestablished +
      carriers.shared.metrics.ended.total endedReasons =
      (carriers.members.map fun member => (holding member.log).toNat +
        member.log.count .unestablished + member.log.countP ClientUpdate.isEnded).sum := by
    rw [List.sum_map_add, List.sum_map_add, hholding, hunestablished, hended]
    rfl
  refine ⟨⟨?_, ?_⟩, hinFlight, ?_, fun hclosed => ?_⟩
  · rw [hunestablished, hfirst]
    exact List.sum_le_sum fun member hmember => (Carriers.tidy hr hmember).1
  · rw [hfirst, hconnections]
    exact List.sum_le_sum fun member hmember => (Carriers.tidy hr hmember).2.1
  · rw [hinFlight]
    norm_cast
    rw [hsplit, hconnections]
    refine List.sum_le_sum fun member hmember => ?_
    have hheld := (Carriers.tidy hr hmember).holding
    have hclosing := (Carriers.tidy hr hmember).closing
    change member.log.count _ ≤ _
    omega
  · rw [hinFlight]
    norm_cast
    rw [hsplit, hconnections]
    refine congrArg List.sum (List.map_congr_left fun member hmember => ?_)
    have hheld := (Carriers.tidy hr hmember).holding
    have hclosing := (Carriers.tidy hr hmember).closing
    rw [hclosed member hmember, Bool.toNat_false] at hclosing
    change member.log.count _ = _
    omega

-- One of two connections is refused its only open, and has counted that but
-- still holds its guard.
def refusedAndDialling : List (Machine.CrewEvent CarryEvent) :=
  [.join, .join, .step 0 .start, .step 1 .start, .update 1, .update 0,
    .step 0 (.dial (.refused 1)), .step 1 (.dial .opened), .step 0 .fold, .update 0, .update 0,
    .update 0, .update 0, .update 0]

theorem refused_and_dialling_ordered : ∃ carriers : Carriers,
    (Carriers.step ⟨⟨none⟩, {}⟩).run .start refusedAndDialling = some carriers ∧
    carriers.shared.metrics.connections = 2 ∧ carriers.shared.metrics.inFlight = 2 ∧
    carriers.shared.metrics.unestablished = 1 ∧
    carriers.shared.metrics.unestablished ≤ carriers.shared.metrics.firstRoundFailures := by
  obtain ⟨carriers, hr, hseen⟩ : ∃ carriers : Carriers,
      (Carriers.step ⟨⟨none⟩, {}⟩).run .start refusedAndDialling = some carriers ∧
      (carriers.shared.metrics.connections, carriers.shared.metrics.inFlight,
        carriers.shared.metrics.unestablished) = (2, 2, 1) :=
    Option.map_eq_some_iff.mp (by decide +kernel)
  obtain ⟨hconnections, hinFlight, hunestablished⟩ :
      carriers.shared.metrics.connections = 2 ∧ carriers.shared.metrics.inFlight = 2 ∧
      carriers.shared.metrics.unestablished = 1 := by
    simpa using hseen
  exact ⟨carriers, hr, hconnections, hinFlight, hunestablished,
    (exported_pair_ordered _ refusedAndDialling carriers hr).1.1⟩

end LwdMixnet
