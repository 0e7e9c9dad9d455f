import LwdMixnet.Carry.Accounts
import LwdMixnet.Streaks.Lag
import LwdMixnet.Streaks.Refused

namespace LwdMixnet

def CarryEvent.dialEvent : CarryEvent → Option DialEvent
  | .dial event => some event
  | _ => none

-- What happened to the dial of a connection.
def dialEvents (events : List CarryEvent) : List DialEvent :=
  events.filterMap CarryEvent.dialEvent

def ClientUpdate.folded : ClientUpdate → Option Outcome
  | .fold outcome => some outcome
  | _ => none

def folds (updates : List ClientUpdate) : List Outcome :=
  updates.filterMap ClientUpdate.folded

-- The dial of a connection, and the one fold that its task makes of it.
def Carry.Folds (carrying : Carrying) (events : List CarryEvent) (carry : Carry) : Prop :=
  match carry.phase with
  | .accepted => dialEvents events = [] ∧ folds (Carry.made carrying events) = []
  | .dialling dial =>
      (Dial.step carrying.dial).run (.start carrying.dial) (dialEvents events) = some dial ∧
        folds (Carry.made carrying events) = []
  | .dialled result =>
      (∃ dial : Resolved carrying.dial, dial.events = dialEvents events ∧ dial.result = result) ∧
        folds (Carry.made carrying events) = []
  | .splicing _ _ | .returned =>
      ∃ dial : Resolved carrying.dial, dial.events = dialEvents events ∧
        folds (Carry.made carrying events) = [dial.outcome]

-- A dial is what happened to it.
theorem Resolved.eq_of_events {settings : DialSettings} {first second : Resolved settings}
    (h : first.events = second.events) : first = second := by
  obtain ⟨events, dial, result, hran, hreturned⟩ := first
  obtain ⟨other, dial', result', hran', hreturned'⟩ := second
  obtain rfl : events = other := h
  obtain rfl := Option.some.inj (hran.symm.trans hran')
  obtain rfl : result = result' := by
    rw [hreturned] at hreturned'
    cases hreturned'
    rfl
  rfl

theorem folds_append (first second : List ClientUpdate) :
    folds (first ++ second) = folds first ++ folds second :=
  List.filterMap_append

theorem folds_dial (rounds : List Round) : folds (dialUpdates rounds) = [] := by
  have hround (round : Round) : folds round.updates = [] := by
    simp [folds, Round.updates, ClientUpdate.folded]
  have hrounds : folds (rounds.flatMap Round.updates) = [] := by
    induction rounds with
    | nil => rfl
    | cons round rest ih => rw [List.flatMap_cons, folds_append, hround, ih, List.append_nil]
  have hopening : folds [.rounds rounds.length] = [] := rfl
  rw [dialUpdates, ← List.singleton_append, folds_append, folds_append, hopening, hrounds]
  split_ifs <;> rfl

theorem folds_finished (transfer : Transfer) (ended : Ended) :
    folds (clientFinished transfer ended ++ [.dropInFlight]) = [] := rfl

section

variable {carrying : Carrying} {carry next : Carry} {event : CarryEvent}
  {events : List CarryEvent}

theorem dialEvents_concat (events : List CarryEvent) (event : CarryEvent) :
    dialEvents (events ++ [event]) = dialEvents events ++ event.dialEvent.toList := by
  rw [dialEvents, List.filterMap_append]
  cases h : event.dialEvent <;> simp [dialEvents, h]

theorem Carry.Folds.step (h : carry.Folds carrying events)
    (hr : (Carry.own carrying).run {} events = some carry)
    (hown : Carry.own carrying carry event = some next) :
    next.Folds carrying (events ++ [event]) := by
  have hmade : folds (Carry.made carrying (events ++ [event])) =
      folds (Carry.made carrying events) ++ folds (carry.emits carrying event) := by
    rw [← folds_append]
    exact congrArg folds (Machine.views_concat _ (Carry.emits carrying) hr hown)
  obtain ⟨after, hs⟩ := Carry.own_step hown
  unfold Carry.Folds at h ⊢
  rw [dialEvents_concat, hmade]
  obtain ⟨hphase, rfl, rfl⟩ | ⟨dial, waited, resumed, hphase, rfl, hd, -, -, hnext⟩ |
    ⟨dialled, hphase, rfl, rfl⟩ | ⟨gaveUp, hphase, rfl, rfl⟩ |
    ⟨stream, splice, waited, resumed, hphase, rfl, hsplice, -, -, hnext⟩ |
    ⟨time, rfl, rfl⟩ := Carry.step_cases hs
  · rw [hphase] at h
    obtain ⟨hevents, hnone⟩ := h
    have hemits : carry.emits carrying .start = [.connectionAccepted] := by
      simp [Carry.emits, hphase]
    simp only [hemits, hevents, hnone]
    exact ⟨rfl, rfl⟩
  · rw [hphase] at h
    obtain ⟨hrun, hnone⟩ := h
    have hemits : carry.emits carrying (.dial waited) = [] := by simp [Carry.emits, hphase]
    have hresumed : (Dial.step carrying.dial).run (.start carrying.dial)
        (dialEvents events ++ [waited]) = some resumed := Machine.run_snoc hrun hd
    rw [hemits, hnone]
    obtain ⟨result, hreturned, hnext⟩ | hnext := hnext
    · rw [hnext]
      exact ⟨⟨⟨_, resumed, result, hresumed, hreturned⟩, rfl, rfl⟩, rfl⟩
    · rw [hnext]
      exact ⟨hresumed, rfl⟩
  · rw [hphase] at h
    obtain ⟨⟨dial, hevents, hresult⟩, hnone⟩ := h
    have hemits : folds (carry.emits carrying .fold) = [dial.outcome] := by
      simp only [Carry.emits, hphase, folds_append, folds_dial]
      rw [Resolved.outcome, hresult]
      rfl
    rw [hemits, hnone]
    exact ⟨dial, by simp [hevents, CarryEvent.dialEvent], rfl⟩
  · rw [hphase] at h
    obtain ⟨⟨dial, hevents, hresult⟩, hnone⟩ := h
    have hemits : folds (carry.emits carrying .fold) = [dial.outcome] := by
      simp only [Carry.emits, hphase, folds_append, folds_dial]
      rw [Resolved.outcome, hresult]
      rfl
    rw [hemits, hnone]
    exact ⟨dial, by simp [hevents, CarryEvent.dialEvent], rfl⟩
  · rw [hphase] at h
    obtain ⟨dial, hevents, hfolds⟩ := h
    have hemits : folds (carry.emits carrying (.splice waited)) = [] := by
      simp only [Carry.emits, hphase]
      split
      · exact folds_finished _ _
      · rfl
    rw [hemits, List.append_nil]
    obtain hnext | hnext := hnext
    · rw [hnext]
      exact ⟨dial, by simp [hevents, CarryEvent.dialEvent], hfolds⟩
    · rw [hnext]
      exact ⟨dial, by simp [hevents, CarryEvent.dialEvent], hfolds⟩
  · have hemits : carry.emits carrying (.elapse time) = [] := by
      cases hphase : carry.phase <;> simp [Carry.emits, hphase]
    rw [hemits]
    simpa [CarryEvent.dialEvent, folds] using h

theorem Carry.start_folds (carrying : Carrying) : Carry.Folds carrying [] {} := ⟨rfl, rfl⟩

theorem carry_folds (hr : (Carry.own carrying).run {} events = some carry) :
    carry.Folds carrying events :=
  Machine.run_history (fun events (carry : Carry) => carry.Folds carrying events)
    (Carry.start_folds carrying) (fun _ _ _ _ hr h hs => h.step hr hs) hr

end

-- The fold that an update of a task makes, if it makes one.
def Carriers.foldsMade (carriers : Carriers) (event : Machine.CrewEvent CarryEvent) :
    List (ConnectionId × Outcome) :=
  match event with
  | .update id =>
      match carriers.members[id]? with
      | some ⟨_, _, update :: _⟩ => (update.folded.map fun outcome => (id, outcome)).toList
      | _ => []
  | _ => []

-- What a dial is folded as.
def dialFold {settings : DialSettings} (folded : ConnectionId × Resolved settings) :
    ConnectionId × Outcome :=
  (folded.1, folded.2.outcome)

-- The streaks agree in all but the counters that no fold touches.
structure Streaks.Alike (streaks other : Streaks) : Prop where
  counts : streaks.counts = other.counts
  health : streaks.health = other.health
  clientIsDead : streaks.clientIsDead = other.clientIsDead
  gauge : streaks.metrics.failedInARow = other.metrics.failedInARow

-- Where the process has the connection of a task whose dial is that of `events`:
-- its fold comes with the update of the task.
def Carry.Reflects {carrying : Carrying} (carry : Carry) (log : List ClientUpdate)
    (events : List DialEvent) (connection : Connection (Resolved carrying.dial)) : Prop :=
  match carry.phase with
  | .accepted | .dialling _ => connection = .dialling
  | .dialled _ => ∃ dial, dial.events = events ∧ connection = .resolved dial
  | .splicing _ _ =>
      if folds log = [] then ∃ dial, dial.events = events ∧ connection = .resolved dial
      else connection = .carrying
  | .returned =>
      if folds log = [] then ∃ dial, dial.events = events ∧ connection = .resolved dial
      else connection = .ended

-- The process makes the folds that the tasks have made, each of the dial of its
-- task, and holds no lock between them.
structure Carriers.Refines {carrying : Carrying} (carriers : Carriers)
    (events : List (Machine.CrewEvent CarryEvent)) (process : Process (Resolved carrying.dial))
    (dials : List (ConnectionId × Resolved carrying.dial)) : Prop where
  alike : process.streaks.Alike carriers.shared
  free : process.holder = none
  clean : process.poisoned = false
  unpolled : process.streaks.clientIsDead.notified = .initial
  connections : ∀ id, match carriers.members[id]? with
    | none => process.connections id = .absent
    | some member => member.state.Reflects member.log
        (dialEvents (Machine.ownEvents id events)) (process.connections id)
  folded : process.folded = dials.map Prod.snd
  once : (dials.map Prod.fst).Nodup
  own : ∀ id dial, (id, dial) ∈ dials ↔ ∃ member, carriers.members[id]? = some member ∧
    folds member.log ≠ [] ∧ dial.events = dialEvents (Machine.ownEvents id events)
  called : RefusedInARow Resolved.outcome REFUSAL_LIMIT process.folded → 0 < process.signalled

section

theorem Streaks.Alike.flag {streaks other : Streaks} (h : streaks.Alike other) :
    streaks.flag.Alike other.flag := by
  unfold Streaks.flag
  simp only [h.counts, h.health]
  split_ifs
  · exact ⟨rfl, rfl, h.clientIsDead, h.gauge⟩
  · exact h

theorem Streaks.Alike.signal {streaks other : Streaks} (h : streaks.Alike other) :
    streaks.signal.Alike other.signal := by
  unfold Streaks.signal Streaks.signals
  simp only [h.counts, h.clientIsDead]
  split_ifs
  · exact ⟨rfl, h.health, rfl, h.gauge⟩
  · exact h

theorem Streaks.Alike.fold {streaks other : Streaks} (h : streaks.Alike other)
    (outcome : Outcome) : (streaks.fold outcome).Alike (other.fold outcome) := by
  have hcounts : streaks.counts.fold outcome = other.counts.fold outcome := by rw [h.counts]
  have hgauged : (streaks.count outcome).gauge.Alike (other.count outcome).gauge :=
    ⟨hcounts, h.health, h.clientIsDead, congrArg (fun counts => (counts.deadEnds : Int)) hcounts⟩
  exact hgauged.flag.signal

-- No other update touches what a fold reads or writes.
theorem Streaks.Alike.apply {streaks other : Streaks} (h : streaks.Alike other)
    {update : ClientUpdate} (hnot : update.folded = none) :
    streaks.Alike (update.apply other) := by
  obtain ⟨hcounts, hhealth, hdead, hgauge⟩ := h
  cases update with
  | fold outcome => cases hnot
  | connectionAccepted | rounds _ | streamsOpened _ | streamDiscarded _ | firstRoundFailure
  | establishment _ | unestablished | bytes _ _ | ended _ | dropInFlight =>
      exact ⟨hcounts, hhealth, hdead, hgauge⟩

variable {δ : Type*} {outcome : δ → Outcome} {process : Process δ} {id : ConnectionId} {dial : δ}

-- The four updates of a fold whose lock is free, one after the other.
theorem Process.run_fold (hid : process.connections id = .resolved dial)
    (hfree : process.holder = none) :
    (Process.step outcome).run process [.count id, .gauge id, .flag id, .signal id] = some {
      process with
        streaks := process.streaks.fold (outcome dial)
        connections := Function.update process.connections id .carrying
        holder := none
        folded := process.folded ++ [dial]
        signalled := process.signalled +
          (((process.streaks.count (outcome dial)).gauge).flag.signals).toNat } := by
  simp [Machine.run_cons, Process.step, Process.move, hid, hfree, Streaks.fold]

theorem Process.run_closed (hid : process.connections id = .carrying) :
    (Process.step outcome).run process [.closed id] =
      some (process.move id .ended) := by
  simp [Machine.run_cons, Process.step, hid]

end

section

variable {carrying : Carrying} {carriers : Carriers}
  {events : List (Machine.CrewEvent CarryEvent)} {event : Machine.CrewEvent CarryEvent}
  {process : Process (Resolved carrying.dial)}
  {dials : List (ConnectionId × Resolved carrying.dial)} {id : ConnectionId}
  {before after : Machine.Member Carry ClientUpdate}
  {connection : Connection (Resolved carrying.dial)}

theorem Carriers.Refines.reflected (h : carriers.Refines events process dials)
    (hid : carriers.members[id]? = some before) :
    before.state.Reflects before.log (dialEvents (Machine.ownEvents id events))
      (process.connections id) := by
  have hconnection := h.connections id
  rwa [hid] at hconnection

-- One task has moved on, and its connection with it.
theorem Carriers.Refines.reflects (h : carriers.Refines events process dials)
    (hid : carriers.members[id]? = some before)
    (hother : ∀ other, other ≠ id → event.own other = none)
    (hreflects : after.state.Reflects after.log
      (dialEvents (Machine.ownEvents id (events ++ [event]))) connection) (other : ConnectionId) :
    match (carriers.members.set id after)[other]? with
    | none => Function.update process.connections id connection other = .absent
    | some member => member.state.Reflects member.log
        (dialEvents (Machine.ownEvents other (events ++ [event])))
        (Function.update process.connections id connection other) := by
  have hlt := (List.getElem?_eq_some_iff.mp hid).1
  rw [List.getElem?_set, Function.update_apply]
  by_cases hsame : other = id
  · subst hsame
    simp only [if_true, hlt]
    exact hreflects
  · simp only [if_neg hsame, if_neg (Ne.symm hsame), Machine.ownEvents_concat, hother other hsame,
      Option.toList_none, List.append_nil]
    exact h.connections other

theorem Carriers.Refines.owns (h : carriers.Refines events process dials)
    (hother : ∀ other, other ≠ id → event.own other = none) {other : ConnectionId}
    (hne : other ≠ id) (dial : Resolved carrying.dial) :
    (other, dial) ∈ dials ↔ ∃ member, (carriers.members.set id after)[other]? = some member ∧
      folds member.log ≠ [] ∧
      dial.events = dialEvents (Machine.ownEvents other (events ++ [event])) := by
  rw [List.getElem?_set, if_neg (Ne.symm hne), Machine.ownEvents_concat, hother other hne,
    Option.toList_none, List.append_nil]
  exact h.own other dial

-- The same where nothing was folded.
theorem Carriers.Refines.moves (after : Machine.Member Carry ClientUpdate)
    (connection : Connection (Resolved carrying.dial))
    (h : carriers.Refines events process dials) (hid : carriers.members[id]? = some before)
    (hother : ∀ other, other ≠ id → event.own other = none)
    (hreflects : after.state.Reflects after.log
      (dialEvents (Machine.ownEvents id (events ++ [event]))) connection)
    (hlog : folds after.log = folds before.log)
    (hdial : folds before.log ≠ [] → dialEvents (Machine.ownEvents id (events ++ [event])) =
      dialEvents (Machine.ownEvents id events)) {shared : Streaks}
    (hshared : process.streaks.Alike shared) :
    Carriers.Refines { members := carriers.members.set id after, shared := shared }
      (events ++ [event])
      { process with connections := Function.update process.connections id connection } dials := by
  refine ⟨hshared, h.free, h.clean, h.unpolled, h.reflects hid hother hreflects, h.folded, h.once,
    fun other dial => ?_, h.called⟩
  by_cases hsame : other = id
  · subst hsame
    have hlt := (List.getElem?_eq_some_iff.mp hid).1
    rw [h.own other dial, List.getElem?_set, if_pos rfl, if_pos hlt, hid]
    constructor
    · rintro ⟨member, hmember, hfolds, hevents⟩
      obtain rfl := Option.some.inj hmember
      exact ⟨after, rfl, by rwa [hlog], hevents.trans (hdial hfolds).symm⟩
    · rintro ⟨member, hmember, hfolds, hevents⟩
      obtain rfl := Option.some.inj hmember
      rw [hlog] at hfolds
      exact ⟨before, rfl, hfolds, hevents.trans (hdial hfolds)⟩
  · exact h.owns hother hsame dial

theorem RefusedInARow.concat {δ : Type*} {outcome : δ → Outcome} {count : Nat} {dials : List δ}
    {dial : δ} (h : RefusedInARow outcome count (dials ++ [dial])) :
    RefusedInARow outcome count dials ∨ count ≤ refusalRun ((dials ++ [dial]).map outcome) := by
  obtain ⟨earlier, latest, later, hsplit, hlen, hall⟩ := h
  obtain rfl | ⟨front, last, rfl⟩ := List.eq_nil_or_concat later
  · exact Or.inr ((le_refusalRun_iff outcome count _).mpr
      ⟨earlier, latest, by simpa using hsplit, hlen, hall⟩)
  · rw [List.concat_eq_append, ← List.append_assoc] at hsplit
    obtain ⟨rfl, -⟩ := List.append_inj' hsplit rfl
    exact Or.inl ⟨earlier, latest, front, rfl, hlen, hall⟩

-- A task folds its dial.
theorem Carriers.Refines.fold (after : Machine.Member Carry ClientUpdate)
    (connection : Connection (Resolved carrying.dial)) {dial : Resolved carrying.dial}
    (h : carriers.Refines events process dials) (hsound : process.Sound Resolved.outcome)
    (hid : carriers.members[id]? = some before)
    (hother : ∀ other, other ≠ id → event.own other = none)
    (hown : event.own id = none)
    (hreflects : after.state.Reflects after.log
      (dialEvents (Machine.ownEvents id (events ++ [event]))) connection)
    (hbefore : folds before.log = []) (hafter : folds after.log ≠ [])
    (hdial : dial.events = dialEvents (Machine.ownEvents id events)) {signalled : Nat}
    (hsignalled : signalled = process.signalled +
      (((process.streaks.count dial.outcome).gauge).flag.signals).toNat) :
    Carriers.Refines {
        members := carriers.members.set id after
        shared := carriers.shared.fold dial.outcome }
      (events ++ [event])
      { process with
        streaks := process.streaks.fold dial.outcome
        connections := Function.update process.connections id connection
        holder := none
        folded := process.folded ++ [dial]
        signalled := signalled } (dials ++ [(id, dial)]) := by
  have hfresh (other : Resolved carrying.dial) : (id, other) ∉ dials := by
    intro hmem
    obtain ⟨member, hmember, hfolds, -⟩ := (h.own id other).mp hmem
    obtain rfl := Option.some.inj (hid.symm.trans hmember)
    exact hfolds hbefore
  refine ⟨h.alike.fold dial.outcome, rfl, h.clean, ?_, h.reflects hid hother hreflects, ?_, ?_,
    fun other given => ?_, fun hrefused => ?_⟩
  · have hinitial : (((process.streaks.count dial.outcome).gauge).flag).clientIsDead.notified =
        .initial := by
      rw [((process.streaks.count dial.outcome).gauge).flag_rest.1]
      exact h.unpolled
    unfold Streaks.fold Streaks.signal
    split_ifs
    · simp [Notify.notifyOne, hinitial]
    · exact hinitial
  · rw [List.map_append, ← h.folded]
    rfl
  · rw [List.map_append, List.map_singleton, List.nodup_append]
    refine ⟨h.once, List.nodup_singleton _, fun other hmem _ hlast hsame => ?_⟩
    obtain ⟨⟨_, given⟩, hgiven, rfl⟩ := List.mem_map.mp hmem
    obtain rfl := List.mem_singleton.mp hlast
    obtain rfl := hsame
    exact hfresh given hgiven
  · rw [List.mem_append, List.mem_singleton, Prod.mk.injEq]
    by_cases hsame : other = id
    · subst hsame
      have hlt := (List.getElem?_eq_some_iff.mp hid).1
      rw [List.getElem?_set, if_pos rfl, if_pos hlt, Machine.ownEvents_concat, hown,
        Option.toList_none, List.append_nil]
      constructor
      · rintro (hmem | ⟨-, rfl⟩)
        · exact absurd hmem (hfresh given)
        · exact ⟨after, rfl, hafter, hdial⟩
      · rintro ⟨member, -, -, hevents⟩
        exact Or.inr ⟨rfl, Resolved.eq_of_events (hevents.trans hdial.symm)⟩
    · rw [← h.owns hother hsame given]
      exact or_iff_left fun hnew => hsame hnew.1
  · have hreports := hsound.counts.fold dial.outcome
    rw [← List.map_singleton, ← List.map_append] at hreports
    change 0 < signalled
    obtain hearlier | hlimit := hrefused.concat
    · have := h.called hearlier
      omega
    · have hsignals : ((process.streaks.count dial.outcome).gauge).flag.signals := by
        unfold Streaks.signals
        rw [Streaks.flag_counts]
        exact decide_eq_true (hreports.1 ▸ hlimit)
      rw [hsignalled, hsignals]
      exact Nat.succ_pos _

-- The connection of a task stays where it is.
theorem Carriers.Refines.stays (after : Machine.Member Carry ClientUpdate)
    (h : carriers.Refines events process dials) (hid : carriers.members[id]? = some before)
    (hother : ∀ other, other ≠ id → event.own other = none)
    (hreflects : after.state.Reflects after.log
      (dialEvents (Machine.ownEvents id (events ++ [event]))) (process.connections id))
    (hlog : folds after.log = folds before.log)
    (hdial : folds before.log ≠ [] → dialEvents (Machine.ownEvents id (events ++ [event])) =
      dialEvents (Machine.ownEvents id events)) {shared : Streaks}
    (hshared : process.streaks.Alike shared) :
    Carriers.Refines { members := carriers.members.set id after, shared := shared }
      (events ++ [event]) process dials := by
  have hmoved := h.moves after (process.connections id) hid hother hreflects hlog hdial hshared
  rwa [Function.update_eq_self] at hmoved

theorem Carriers.Refines.join (h : carriers.Refines events process dials) :
    ∃ after, process.step Resolved.outcome (.accepted carriers.members.length) = some after ∧
      Carriers.Refines { carriers with members := carriers.members ++ [{ state := {} }] }
        (events ++ [.join]) after dials := by
  have hevents (id : ConnectionId) : Machine.ownEvents id (events ++ [.join]) =
      Machine.ownEvents id events := by
    rw [Machine.ownEvents_concat]
    simp [Machine.CrewEvent.own]
  have habsent := h.connections carriers.members.length
  rw [List.getElem?_eq_none (Nat.le_refl _)] at habsent
  refine ⟨process.move carriers.members.length .dialling, by simp [Process.step, habsent],
    h.alike, h.free, h.clean, h.unpolled, fun id => ?_, h.folded, h.once, fun id dial => ?_,
    h.called⟩
  · have hid := h.connections id
    simp only [hevents, Process.move, Function.update_apply]
    obtain hlt | rfl | hgt := Nat.lt_trichotomy id carriers.members.length
    · rw [List.getElem?_append_left hlt, if_neg hlt.ne]
      exact hid
    · rw [List.getElem?_concat_length, if_pos rfl]
      rfl
    · have hbeyond : carriers.members.length ≤ id := hgt.le
      rw [List.getElem?_eq_none hbeyond] at hid
      have hpast : carriers.members.length + 1 ≤ id := hgt
      rw [List.getElem?_eq_none (by simpa using hpast), if_neg hgt.ne']
      exact hid
  · rw [h.own id dial]
    simp only [hevents]
    constructor
    · rintro ⟨member, hmember, hrest⟩
      have hlt := (List.getElem?_eq_some_iff.mp hmember).1
      exact ⟨member, by rw [List.getElem?_append_left hlt, hmember], hrest⟩
    · rintro ⟨member, hmember, hfolds, hdial⟩
      rw [List.getElem?_append] at hmember
      split_ifs at hmember
      · exact ⟨member, hmember, hfolds, hdial⟩
      · obtain rfl := List.mem_singleton.mp (List.mem_of_getElem? hmember)
        exact absurd rfl hfolds

-- A step of a task resolves its connection, closes it or leaves it where it is.
theorem Carriers.Refines.task {carry resumed : Carry} {log : List ClientUpdate}
    {taken : CarryEvent} (h : carriers.Refines events process dials)
    (hr : (Carriers.step carrying).run .start events = some carriers)
    (hid : carriers.members[id]? = some ⟨carry, log, []⟩)
    (hown : Carry.own carrying carry taken = some resumed) :
    ∃ more after, (Process.step Resolved.outcome).run process more = some after ∧
      Carriers.Refines { carriers with
        members := carriers.members.set id ⟨resumed, log, carry.emits carrying taken⟩ }
        (events ++ [.step id taken]) after dials := by
  obtain ⟨hrun, hmade⟩ := Machine.crew_member hr hid
  have hfolds := carry_folds hrun
  have hnext := carry_folds (Machine.run_snoc hrun hown)
  have hsame : Carry.made carrying (Machine.ownEvents id events) = log := by
    rw [← List.append_nil log]
    exact hmade.symm
  have hevents : Machine.ownEvents id (events ++ [.step id taken]) =
      Machine.ownEvents id events ++ [taken] := by
    rw [Machine.ownEvents_concat, Machine.CrewEvent.own, if_pos rfl, Option.toList_some]
  have hother (other : ConnectionId) (hne : other ≠ id) :
      (Machine.CrewEvent.step id taken).own other = none := by
    simp [Machine.CrewEvent.own, hne.symm]
  have hconnection := h.reflected hid
  have hquiet (hnot : taken.dialEvent = none) :
      dialEvents (Machine.ownEvents id (events ++ [.step id taken])) =
        dialEvents (Machine.ownEvents id events) := by
    rw [hevents, dialEvents_concat, hnot, Option.toList_none, List.append_nil]
  have hstays (hreflects : resumed.Reflects log
      (dialEvents (Machine.ownEvents id events ++ [taken])) (process.connections id))
      (hdial : folds log ≠ [] → taken.dialEvent = none) :
      ∃ more after, (Process.step Resolved.outcome).run process more = some after ∧
        Carriers.Refines { carriers with
          members := carriers.members.set id ⟨resumed, log, carry.emits carrying taken⟩ }
          (events ++ [.step id taken]) after dials := by
    refine ⟨[], process, rfl, h.stays ⟨resumed, log, carry.emits carrying taken⟩ hid hother ?_ rfl
      (fun hne => hquiet (hdial hne)) h.alike⟩
    rw [hevents]
    exact hreflects
  unfold Carry.Folds at hfolds
  unfold Carry.Reflects at hconnection
  rw [hsame] at hfolds
  obtain ⟨cleared, hs⟩ := Carry.own_step hown
  obtain ⟨hphase, rfl, rfl⟩ | ⟨dial, waited, next, hphase, rfl, hd, -, -, hresumed⟩ |
    ⟨dialled, hphase, rfl, rfl⟩ | ⟨gaveUp, hphase, rfl, rfl⟩ |
    ⟨stream, splice, waited, next, hphase, rfl, hsplice, -, -, hresumed⟩ |
    ⟨time, rfl, rfl⟩ := Carry.step_cases hs
  · rw [hphase] at hfolds hconnection
    exact hstays hconnection fun _ => rfl
  · rw [hphase] at hfolds hconnection
    obtain ⟨-, hnone⟩ := hfolds
    obtain ⟨result, -, hresumed⟩ | hresumed := hresumed
    · unfold Carry.Folds at hnext
      rw [hresumed] at hnext
      obtain ⟨⟨resolved, hdial, -⟩, -⟩ := hnext
      refine ⟨[.resolved id resolved], process.move id (.resolved resolved),
        by simp [Machine.run_cons, Process.step, hconnection], ?_⟩
      refine h.moves ⟨resumed, log, carry.emits carrying (.dial waited)⟩ (.resolved resolved) hid
        hother ?_ rfl (fun hne => absurd hnone hne) h.alike
      unfold Carry.Reflects
      rw [hresumed, hevents]
      exact ⟨resolved, hdial, rfl⟩
    · refine hstays ?_ fun hne => absurd hnone hne
      unfold Carry.Reflects
      rw [hresumed]
      exact hconnection
  · rw [hphase] at hfolds hconnection
    refine hstays ?_ fun _ => rfl
    rw [← hevents, hquiet rfl]
    unfold Carry.Reflects
    simp only [hfolds.2, if_true]
    exact hconnection
  · rw [hphase] at hfolds hconnection
    refine hstays ?_ fun _ => rfl
    rw [← hevents, hquiet rfl]
    unfold Carry.Reflects
    simp only [hfolds.2, if_true]
    exact hconnection
  · rw [hphase] at hfolds hconnection
    obtain ⟨resolved, -, hone⟩ := hfolds
    have hfolded : folds log ≠ [] := by
      rw [hone]
      exact List.cons_ne_nil _ _
    simp only [if_neg hfolded] at hconnection
    obtain hresumed | hresumed := hresumed
    · refine hstays ?_ fun _ => rfl
      unfold Carry.Reflects
      rw [hresumed]
      simp only [if_neg hfolded]
      exact hconnection
    · refine ⟨[.closed id], process.move id .ended, Process.run_closed hconnection, ?_⟩
      refine h.moves ⟨resumed, log, carry.emits carrying (.splice waited)⟩ .ended hid hother ?_ rfl
        (fun _ => hquiet rfl) h.alike
      unfold Carry.Reflects
      rw [hresumed]
      simp only [if_neg hfolded]
  · refine hstays ?_ fun _ => rfl
    rw [← hevents, hquiet rfl]
    exact hconnection

-- The fold of a task is of its dial, which is over, and its first and only one.
theorem Carry.Folds.folding {carry : Carry} {own : List CarryEvent} {log rest : List ClientUpdate}
    {update : ClientUpdate} {outcome : Outcome} (h : carry.Folds carrying own)
    (hmade : log ++ update :: rest = Carry.made carrying own)
    (hupdate : update.folded = some outcome) :
    ∃ dial : Resolved carrying.dial, dial.events = dialEvents own ∧ outcome = dial.outcome ∧
      folds log = [] ∧
      (carry.phase = .returned ∨ ∃ stream splice, carry.phase = .splicing stream splice) := by
  have hsame : folds (Carry.made carrying own) = folds log ++ outcome :: folds rest := by
    have hpending : folds (update :: rest) = outcome :: folds rest :=
      List.filterMap_cons_some hupdate
    rw [← hpending, ← folds_append, hmade]
  have hnot : folds (Carry.made carrying own) ≠ [] := by
    rw [hsame]
    simp
  have hone (dial : Resolved carrying.dial)
      (hfolds : folds (Carry.made carrying own) = [dial.outcome]) :
      outcome = dial.outcome ∧ folds log = [] := by
    rw [hsame] at hfolds
    have hlength := congrArg List.length hfolds
    simp only [List.length_append, List.length_cons, List.length_nil] at hlength
    have hnone : folds log = [] := List.length_eq_zero_iff.mp (by omega)
    rw [hnone] at hfolds
    exact ⟨(List.cons.inj hfolds).1, hnone⟩
  unfold Carry.Folds at h
  cases hphase : carry.phase with
  | accepted | dialling _ | dialled _ =>
      rw [hphase] at h
      exact absurd h.2 hnot
  | splicing stream splice =>
      rw [hphase] at h
      obtain ⟨dial, hdial, hfolds⟩ := h
      obtain ⟨houtcome, hnone⟩ := hone dial hfolds
      exact ⟨dial, hdial, houtcome, hnone, Or.inr ⟨stream, splice, rfl⟩⟩
  | returned =>
      rw [hphase] at h
      obtain ⟨dial, hdial, hfolds⟩ := h
      obtain ⟨houtcome, hnone⟩ := hone dial hfolds
      exact ⟨dial, hdial, houtcome, hnone, Or.inl rfl⟩

-- An update of a task is a fold of the process or nothing to it.
theorem Carriers.Refines.update {carry : Carry} {log rest : List ClientUpdate}
    {update : ClientUpdate} (h : carriers.Refines events process dials)
    (hr : (Carriers.step carrying).run .start events = some carriers)
    (hsound : process.Sound Resolved.outcome)
    (hid : carriers.members[id]? = some ⟨carry, log, update :: rest⟩) :
    ∃ more after folded, (Process.step Resolved.outcome).run process more = some after ∧
      Carriers.Refines {
          members := carriers.members.set id ⟨carry, log ++ [update], rest⟩
          shared := update.apply carriers.shared }
        (events ++ [.update id]) after (dials ++ folded) ∧
      folded.map dialFold = (update.folded.map fun outcome => (id, outcome)).toList := by
  obtain ⟨hrun, hmade⟩ := Machine.crew_member hr hid
  have hother (other : ConnectionId) (_ : other ≠ id) :
      (Machine.CrewEvent.update id : Machine.CrewEvent CarryEvent).own other = none := rfl
  have hevents : Machine.ownEvents id (events ++ [.update id]) =
      Machine.ownEvents id events := by
    rw [Machine.ownEvents_concat]
    simp [Machine.CrewEvent.own]
  have hconnection := h.reflected hid
  have hlog : folds (log ++ [update]) = folds log ++ update.folded.toList := by
    rw [folds_append]
    cases hupdate : update.folded <;> simp [folds, hupdate]
  unfold Carry.Reflects at hconnection
  cases hupdate : update.folded with
  | none =>
      rw [hupdate, Option.toList_none, List.append_nil] at hlog
      refine ⟨[], process, [], rfl, ?_, rfl⟩
      rw [List.append_nil]
      refine h.stays ⟨carry, log ++ [update], rest⟩ hid hother ?_ hlog
        (fun _ => by rw [hevents]) (h.alike.apply hupdate)
      unfold Carry.Reflects
      rw [hevents, hlog]
      exact hconnection
  | some outcome =>
      have hown : carry.Folds carrying (Machine.ownEvents id events) := carry_folds hrun
      obtain ⟨dial, hdial, rfl, hnone, hphase⟩ := hown.folding hmade hupdate
      have hunfolded (hresolved : ∃ other : Resolved carrying.dial,
          other.events = dialEvents (Machine.ownEvents id events) ∧
          process.connections id = .resolved other) : process.connections id = .resolved dial := by
        obtain ⟨other, hother, hconnection⟩ := hresolved
        rw [hconnection, Resolved.eq_of_events (hother.trans hdial.symm)]
      have hfolded : folds (log ++ [update]) ≠ [] := by
        rw [hlog, hupdate]
        simp
      have happly : update.apply carriers.shared = carriers.shared.fold dial.outcome := by
        cases update <;> cases hupdate
        rfl
      have hfold (connection : Connection (Resolved carrying.dial))
          (hreflects : carry.Reflects (log ++ [update])
            (dialEvents (Machine.ownEvents id (events ++ [.update id]))) connection) :=
        h.fold ⟨carry, log ++ [update], rest⟩ connection hsound hid hother rfl hreflects hnone
          hfolded hdial rfl
      rw [happly]
      obtain hphase | ⟨stream, splice, hphase⟩ := hphase
      · rw [hphase] at hconnection
        simp only [hnone, if_true] at hconnection
        refine ⟨[.count id, .gauge id, .flag id, .signal id] ++ [.closed id], _, [(id, dial)],
          Machine.run_trans (Process.run_fold (hunfolded hconnection) h.free)
            (Process.run_closed (Function.update_self ..)), ?_, rfl⟩
        simp only [Process.move, Function.update_idem]
        refine hfold .ended ?_
        unfold Carry.Reflects
        rw [hphase]
        simp only [if_neg hfolded]
      · rw [hphase] at hconnection
        simp only [hnone, if_true] at hconnection
        refine ⟨[.count id, .gauge id, .flag id, .signal id], _, [(id, dial)],
          Process.run_fold (hunfolded hconnection) h.free, ?_, rfl⟩
        refine hfold .carrying ?_
        unfold Carry.Reflects
        rw [hphase]
        simp only [if_neg hfolded]

theorem Carriers.start_refines (carrying : Carrying) :
    Carriers.Refines .start [] ({} : Process (Resolved carrying.dial)) [] := by
  refine ⟨⟨rfl, rfl, rfl, rfl⟩, rfl, rfl, rfl, fun id => rfl, rfl, List.nodup_nil,
    fun id dial => ?_, ?_⟩
  · simp [Carriers.start]
  · rintro ⟨earlier, latest, later, hsplit, hlen, -⟩
    have hlength := congrArg List.length hsplit
    simp only [List.length_append, List.length_nil, hlen, REFUSAL_LIMIT] at hlength
    omega

-- Every execution of the tasks is one of the process, which makes their folds in the
-- order of the updates that make them.
theorem carriers_refine (hr : (Carriers.step carrying).run .start events = some carriers) :
    ∃ (taken : List (ProcessEvent (Resolved carrying.dial))) (process : Process _)
      (dials : List _), (Process.step Resolved.outcome).run {} taken = some process ∧
        carriers.Refines events process dials ∧
        (Carriers.step carrying).views Carriers.foldsMade .start events = dials.map dialFold := by
  refine Machine.run_history (fun events (carriers : Carriers) =>
    ∃ (taken : List (ProcessEvent (Resolved carrying.dial))) (process : Process _)
      (dials : List _), (Process.step Resolved.outcome).run {} taken = some process ∧
        carriers.Refines events process dials ∧
        (Carriers.step carrying).views Carriers.foldsMade .start events = dials.map dialFold)
    ⟨[], {}, [], rfl, Carriers.start_refines carrying, rfl⟩ ?_ hr
  rintro events carriers event next hr ⟨taken, process, dials, hprocess, h, horder⟩ hs
  have hviews := Machine.views_concat _ Carriers.foldsMade hr hs
  rw [horder] at hviews
  obtain ⟨rfl, rfl⟩ | ⟨id, owned, carry, log, resumed, rfl, hid, hown, rfl⟩ |
    ⟨id, carry, log, update, rest, rfl, hid, rfl⟩ := Machine.crew_cases hs
  · obtain ⟨after, hafter, hrefines⟩ := h.join
    exact ⟨_, after, dials, Machine.run_snoc hprocess hafter, hrefines,
      hviews.trans (List.append_nil _)⟩
  · obtain ⟨more, after, hafter, hrefines⟩ := h.task hr hid hown
    exact ⟨_, after, dials, Machine.run_trans hprocess hafter, hrefines,
      hviews.trans (List.append_nil _)⟩
  · obtain ⟨more, after, folded, hafter, hrefines, hfolded⟩ :=
      h.update hr (process_sound hprocess) hid
    refine ⟨_, after, dials ++ folded, Machine.run_trans hprocess hafter, hrefines, ?_⟩
    rw [hviews, List.map_append, hfolded]
    simp only [Carriers.foldsMade, hid]

def CarryPhase.past : CarryPhase → Bool
  | .splicing _ _ | .returned => true
  | _ => false

-- A task with nothing left to do has made its fold if its dial is over.
theorem Carry.Folds.past {carry : Carry} {own : List CarryEvent} {log : List ClientUpdate}
    (h : carry.Folds carrying own) (hmade : log = Carry.made carrying own)
    (hpast : carry.phase.past) : folds log ≠ [] := by
  subst hmade
  unfold Carry.Folds at h
  cases hphase : carry.phase with
  | accepted | dialling _ | dialled _ =>
      rw [hphase] at hpast
      cases hpast
  | splicing _ _ | returned =>
      rw [hphase] at h
      obtain ⟨dial, -, hfolds⟩ := h
      simp [hfolds]

-- The fold that it has made is of its dial, which is over, and its only one.
theorem Carry.Folds.logged {carry : Carry} {own : List CarryEvent}
    {log pending : List ClientUpdate} (h : carry.Folds carrying own)
    (hmade : log ++ pending = Carry.made carrying own) (hsome : folds log ≠ []) :
    carry.phase.past ∧ ∃ dial : Resolved carrying.dial, dial.events = dialEvents own ∧
      folds log = [dial.outcome] := by
  have hsplit : folds (Carry.made carrying own) = folds log ++ folds pending := by
    rw [← folds_append, hmade]
  have hnot : folds (Carry.made carrying own) ≠ [] := by
    rw [hsplit]
    exact List.append_ne_nil_of_left_ne_nil hsome _
  unfold Carry.Folds at h
  cases hphase : carry.phase with
  | accepted | dialling _ | dialled _ =>
      rw [hphase] at h
      exact absurd h.2 hnot
  | splicing _ _ | returned =>
      rw [hphase] at h
      obtain ⟨dial, hdial, hfolds⟩ := h
      rw [hsplit] at hfolds
      obtain ⟨hnone, -⟩ | ⟨hone, -⟩ := List.append_eq_singleton_iff.mp hfolds
      · exact absurd hnone hsome
      · exact ⟨rfl, dial, hdial, hone⟩

-- A dial is folded where the log of its task has the fold of it.
theorem Carriers.Refines.own_fold (h : carriers.Refines events process dials)
    (hr : (Carriers.step carrying).run .start events = some carriers)
    (dial : Resolved carrying.dial) :
    (id, dial) ∈ dials ↔ ∃ member, carriers.members[id]? = some member ∧
      folds member.log = [dial.outcome] ∧
      dial.events = dialEvents (Machine.ownEvents id events) := by
  rw [h.own id dial]
  constructor
  · rintro ⟨member, hid, hsome, hdial⟩
    obtain ⟨hrun, hmade⟩ := Machine.crew_member hr hid
    obtain ⟨-, found, hfound, hone⟩ := (carry_folds hrun).logged hmade hsome
    obtain rfl := Resolved.eq_of_events (hfound.trans hdial.symm)
    exact ⟨member, hid, hone, hdial⟩
  · rintro ⟨member, hid, hone, hdial⟩
    exact ⟨member, hid, by simp [hone], hdial⟩

end

-- Whatever the tasks that carry connections do between each other's updates, they
-- refine the process of the streaks: each folds the dial it has made once, not before
-- it is over and by the time it owes no update, and the gauge, the flag and the signal
-- are those of the dials folded so far, in the order of the updates that fold them.
theorem carriers_fold (carrying : Carrying) (events : List (Machine.CrewEvent CarryEvent))
    (carriers : Carriers) (hr : (Carriers.step carrying).run .start events = some carriers) :
    ∃ (taken : List (ProcessEvent (Resolved carrying.dial)))
      (process : Process (Resolved carrying.dial))
      (dials : List (ConnectionId × Resolved carrying.dial)),
      (Process.step Resolved.outcome).run {} taken = some process ∧
      process.folded = dials.map Prod.snd ∧ process.streaks.Alike carriers.shared ∧
      (Carriers.step carrying).views Carriers.foldsMade .start events = dials.map dialFold ∧
      (dials.map Prod.fst).Nodup ∧
      (∀ id dial, (id, dial) ∈ dials ↔ ∃ member, carriers.members[id]? = some member ∧
        folds member.log = [dial.outcome] ∧
        dial.events = dialEvents (Machine.ownEvents id events)) ∧
      (∀ (id : Nat) (member : Machine.Member Carry ClientUpdate),
        carriers.members[id]? = some member →
        (folds member.log ≠ [] → member.state.phase.past ∧ ∃ dial, (id, dial) ∈ dials) ∧
        (member.pending = [] → member.state.phase.past → folds member.log ≠ [])) ∧
      carriers.shared.metrics.failedInARow =
        deadEndRun (dials.map fun folded => folded.2.outcome) ∧
      (carriers.shared.health.isDegraded ↔
        3 ≤ deadEndRun (dials.map fun folded => folded.2.outcome)) ∧
      (carriers.shared.clientIsDead.permit ↔
        RefusedInARow Resolved.outcome 5 (dials.map Prod.snd)) := by
  obtain ⟨taken, process, dials, hprocess, h, horder⟩ := carriers_refine hr
  have hsound := process_sound hprocess
  have hlags := process_lags hprocess h.clean
  rw [h.free] at hlags
  obtain ⟨hgauge, hflag⟩ := hlags
  have houtcomes : process.folded.map Resolved.outcome =
      dials.map fun folded => folded.2.outcome := by
    rw [h.folded, List.map_map]
    rfl
  rw [houtcomes] at hgauge hflag
  refine ⟨taken, process, dials, hprocess, h.folded, h.alike, horder, h.once,
    fun id dial => h.own_fold hr dial, fun id member hid => ?_, ?_, ?_, fun hpermit => ?_,
    fun hrefused => ?_⟩
  · obtain ⟨hrun, hmade⟩ := Machine.crew_member hr hid
    refine ⟨fun hsome => ?_, fun hpending hpast => ?_⟩
    · obtain ⟨hpast, dial, hdial, hone⟩ := (carry_folds hrun).logged hmade hsome
      exact ⟨hpast, dial, (h.own_fold hr dial).mpr ⟨member, hid, hone, hdial⟩⟩
    · rw [hpending, List.append_nil] at hmade
      exact (carry_folds hrun).past hmade hpast
  · rw [← h.alike.gauge]
    exact hgauge
  · rw [← h.alike.health]
    exact hflag
  · rw [← h.folded]
    rw [← h.alike.clientIsDead] at hpermit
    exact process_refused hprocess (process_called hprocess (Or.inl hpermit))
  · rw [← h.folded] at hrefused
    have hready := hsound.signal (h.called hrefused)
    unfold Notify.Ready at hready
    rw [h.unpolled] at hready
    rw [← h.alike.clientIsDead]
    exact hready

-- The first of two connections makes the fold of its refused dial, while the
-- second one has opened its stream and folds nothing yet.
def refusedFolded : List (Machine.CrewEvent CarryEvent) :=
  refusedAndDialling ++ [.update 0]

theorem refused_folded_once : ∃ (carriers : Carriers)
    (dials : List (ConnectionId × Resolved (Carrying.mk ⟨none⟩ {}).dial)),
    (Carriers.step ⟨⟨none⟩, {}⟩).run .start refusedFolded = some carriers ∧
    carriers.shared.metrics.failedInARow = 1 ∧ dials.map dialFold = [(0, .NothingOpened)] ∧
    deadEndRun (dials.map fun folded => folded.2.outcome) = 1 ∧
    ¬RefusedInARow Resolved.outcome 5 (dials.map Prod.snd) := by
  obtain ⟨carriers, hr, hseen⟩ : ∃ carriers : Carriers,
      (Carriers.step ⟨⟨none⟩, {}⟩).run .start refusedFolded = some carriers ∧
      (carriers.shared.metrics.failedInARow, carriers.shared.clientIsDead.permit) = (1, false) :=
    Option.map_eq_some_iff.mp (by decide +kernel)
  obtain ⟨hgauge, hpermit⟩ := Prod.mk.inj hseen
  obtain ⟨-, -, dials, -, -, -, horder, -, -, -, hreads, -, hcalled⟩ :=
    carriers_fold ⟨⟨none⟩, {}⟩ refusedFolded carriers hr
  rw [hgauge] at hreads
  have hmade : (Carriers.step ⟨⟨none⟩, {}⟩).views Carriers.foldsMade .start refusedFolded =
      [(0, .NothingOpened)] := by decide +kernel
  refine ⟨carriers, dials, hr, hgauge, horder.symm.trans hmade, by omega, fun hrefused => ?_⟩
  rw [hcalled.mpr hrefused] at hpermit
  cases hpermit

end LwdMixnet
