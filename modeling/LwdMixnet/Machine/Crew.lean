import LwdMixnet.Machine.Basic
import Mathlib.Algebra.BigOperators.Group.List.Basic
import Mathlib.Algebra.Ring.Int.Defs
import Mathlib.Data.Nat.Cast.Basic

-- Any number of tasks that run one machine and share a state. A step leaves
-- updates of what is shared, and its task makes them one at a time before it
-- steps again, so the updates of different tasks interleave.
namespace Machine

variable {σ ε υ α : Type*}

structure Member (σ υ : Type*) where
  state : σ
  log : List υ := []
  pending : List υ := []

structure Crew (σ υ α : Type*) where
  members : List (Member σ υ) := []
  shared : α

inductive CrewEvent (ε : Type*)
  | join
  | step (id : Nat) (event : ε)
  | update (id : Nat)

def CrewEvent.own (id : Nat) : CrewEvent ε → Option ε
  | .step other event => if other = id then some event else none
  | _ => none

-- The events of one task.
def ownEvents (id : Nat) (events : List (CrewEvent ε)) : List ε :=
  events.filterMap (CrewEvent.own id)

theorem mem_ownEvents {id : Nat} {events : List (CrewEvent ε)} {event : ε} :
    event ∈ ownEvents id events ↔ .step id event ∈ events := by
  rw [ownEvents, List.mem_filterMap]
  constructor
  · rintro ⟨taken, htaken, hown⟩
    cases taken with
    | step other taken =>
        simp only [CrewEvent.own] at hown
        split_ifs at hown with hid
        cases hown
        exact hid ▸ htaken
    | join | update _ => cases hown
  · exact fun hstep => ⟨_, hstep, by simp [CrewEvent.own]⟩

def crew (machine : Machine σ ε) (origin : σ) (emits : σ → ε → List υ) (apply : υ → α → α) :
    Machine (Crew σ υ α) (CrewEvent ε) := fun crew event =>
  match event with
  | .join => some { crew with members := crew.members ++ [{ state := origin }] }
  | .step id event =>
      match crew.members[id]? with
      | some ⟨state, log, []⟩ =>
          match machine state event with
          | some next =>
              some { crew with members := crew.members.set id ⟨next, log, emits state event⟩ }
          | none => none
      | _ => none
  | .update id =>
      match crew.members[id]? with
      | some ⟨state, log, update :: rest⟩ =>
          some {
            members := crew.members.set id ⟨state, log ++ [update], rest⟩
            shared := apply update crew.shared }
      | _ => none

section

variable {machine : Machine σ ε} {origin : σ} {emits : σ → ε → List υ} {apply : υ → α → α}
  {team next : Crew σ υ α} {event : CrewEvent ε} {events : List (CrewEvent ε)} {shared : α}

-- Everything a step can do.
theorem crew_cases (h : crew machine origin emits apply team event = some next) :
    (event = .join ∧ next = { team with members := team.members ++ [{ state := origin }] }) ∨
    (∃ id taken state log after, event = .step id taken ∧
      team.members[id]? = some ⟨state, log, []⟩ ∧ machine state taken = some after ∧
      next = { team with members := team.members.set id ⟨after, log, emits state taken⟩ }) ∨
    (∃ id state log update rest, event = .update id ∧
      team.members[id]? = some ⟨state, log, update :: rest⟩ ∧
      next = {
        members := team.members.set id ⟨state, log ++ [update], rest⟩
        shared := apply update team.shared }) := by
  unfold crew at h
  cases event with
  | join => exact Or.inl ⟨rfl, (Option.some.inj h).symm⟩
  | step id taken =>
      simp only at h
      split at h
      · rename_i state log hmember
        split at h
        · rename_i after hs
          exact Or.inr (Or.inl ⟨id, taken, state, log, after, rfl, hmember, hs,
            (Option.some.inj h).symm⟩)
        · cases h
      · cases h
  | update id =>
      simp only at h
      split at h
      · rename_i state log update rest hmember
        exact Or.inr (Or.inr ⟨id, state, log, update, rest, rfl, hmember,
          (Option.some.inj h).symm⟩)
      · cases h

-- A task has made an execution of its own, and of what this left it to do it
-- has done the `log`, in order, and has the rest still pending.
def Member.Faithful (machine : Machine σ ε) (origin : σ) (emits : σ → ε → List υ)
    (events : List ε) (member : Member σ υ) : Prop :=
  machine.run origin events = some member.state ∧
    member.log ++ member.pending = machine.views emits origin events

theorem ownEvents_concat (id : Nat) (events : List (CrewEvent ε)) (event : CrewEvent ε) :
    ownEvents id (events ++ [event]) = ownEvents id events ++ (event.own id).toList := by
  rw [ownEvents, List.filterMap_append]
  cases h : event.own id <;> simp [ownEvents, h]

theorem Member.Faithful.step {own : List ε} {state after : σ} {log : List υ} {taken : ε}
    (h : Member.Faithful machine origin emits own ⟨state, log, []⟩)
    (hs : machine state taken = some after) :
    Member.Faithful machine origin emits (own ++ [taken]) ⟨after, log, emits state taken⟩ := by
  obtain ⟨hrun, hlog⟩ := h
  refine ⟨?_, ?_⟩
  · exact run_snoc hrun hs
  · rw [views_concat machine emits hrun hs, ← hlog, List.append_nil]

-- The members so far, and the ids that have yet to join.
def Crew.Faithful (machine : Machine σ ε) (origin : σ) (emits : σ → ε → List υ)
    (events : List (CrewEvent ε)) (team : Crew σ υ α) : Prop :=
  ∀ id, match team.members[id]? with
    | some member => member.Faithful machine origin emits (ownEvents id events)
    | none => ownEvents id events = []

theorem Crew.Faithful.set (h : team.Faithful machine origin emits events) {id : Nat}
    {before after : Member σ υ} (hid : team.members[id]? = some before) {later : α}
    (hown : before.Faithful machine origin emits (ownEvents id events) →
      after.Faithful machine origin emits (ownEvents id (events ++ [event])))
    (hother : ∀ other, other ≠ id → event.own other = none) :
    Crew.Faithful machine origin emits (events ++ [event])
      { members := team.members.set id after, shared := later } := by
  intro other
  have hother' := h other
  obtain ⟨hlt, -⟩ := List.getElem?_eq_some_iff.mp hid
  rw [List.getElem?_set]
  split_ifs with he
  · subst he
    rw [hid] at hother'
    exact hown hother'
  · simp only [ownEvents_concat, hother other (Ne.symm he), Option.toList_none, List.append_nil]
    exact hother'

theorem crew_faithful
    (hr : (crew machine origin emits apply).run { shared := shared } events = some team) :
    team.Faithful machine origin emits events := by
  refine run_history (Crew.Faithful machine origin emits) (fun id => by simp [ownEvents]) ?_ hr
  intro events team event next _ h hs
  obtain ⟨rfl, rfl⟩ | ⟨id, taken, state, log, after, rfl, hid, hstep, rfl⟩ |
    ⟨id, state, log, update, rest, rfl, hid, rfl⟩ := crew_cases hs
  · intro id
    have hid := h id
    simp only [ownEvents_concat, CrewEvent.own, Option.toList_none, List.append_nil]
    rw [List.getElem?_append]
    split_ifs with hlt
    · exact hid
    · rw [List.getElem?_eq_none (Nat.le_of_not_lt hlt)] at hid
      cases hjoined : ([{ state := origin }] : List (Member σ υ))[id - team.members.length]? with
      | none => exact hid
      | some member =>
          obtain rfl : member = { state := origin } := by
            simpa using List.mem_of_getElem? hjoined
          rw [hid]
          exact ⟨rfl, rfl⟩
  · refine h.set hid (fun hown => ?_) fun other hne => by simp [CrewEvent.own, hne.symm]
    rw [ownEvents_concat, CrewEvent.own, if_pos rfl]
    exact hown.step hstep
  · refine h.set hid (fun hown => ?_) fun other _ => rfl
    simp only [ownEvents_concat, CrewEvent.own, Option.toList_none, List.append_nil]
    refine ⟨hown.1, ?_⟩
    rw [← hown.2]
    simp

theorem crew_member
    (hr : (crew machine origin emits apply).run { shared := shared } events = some team)
    {id : Nat} {member : Member σ υ} (hid : team.members[id]? = some member) :
    member.Faithful machine origin emits (ownEvents id events) := by
  have h := crew_faithful hr id
  rwa [hid] at h

-- What a task has made of the updates so far says of its state, where the ones it
-- has yet to make cannot take it back.
theorem crew_settled (holds : List υ → σ → Prop) (hstart : holds [] origin)
    (hmore : ∀ log update state, holds log state → holds (log ++ [update]) state)
    (hstep : ∀ own state taken after, machine.run origin own = some state →
      holds (machine.views emits origin own) state → machine state taken = some after →
      holds (machine.views emits origin own) after)
    (hr : (crew machine origin emits apply).run { shared := shared } events = some team)
    {member : Member σ υ} (hmember : member ∈ team.members) : holds member.log member.state := by
  refine run_history (fun _ (team : Crew σ υ α) =>
    ∀ member ∈ team.members, holds member.log member.state) (fun _ h => by simp at h) ?_
    hr member hmember
  intro events team event next hr h hs member hmember
  obtain ⟨rfl, rfl⟩ | ⟨id, taken, state, log, after, rfl, hid, hown, rfl⟩ |
    ⟨id, state, log, update, rest, rfl, hid, rfl⟩ := crew_cases hs
  · rcases List.mem_append.mp hmember with hmember | hmember
    · exact h member hmember
    · obtain rfl := List.mem_singleton.mp hmember
      exact hstart
  · rcases List.mem_or_eq_of_mem_set hmember with hmember | rfl
    · exact h member hmember
    · obtain ⟨hrun, hlog⟩ := crew_member hr hid
      have hmade : log = machine.views emits origin (ownEvents id events) := by
        rw [← hlog, List.append_nil]
      have hbefore := h _ (List.mem_of_getElem? hid)
      simp only [hmade] at hbefore ⊢
      exact hstep _ _ _ _ hrun hbefore hown
  · rcases List.mem_or_eq_of_mem_set hmember with hmember | rfl
    · exact h member hmember
    · exact hmore _ _ _ (h _ (List.mem_of_getElem? hid))

-- Where a task stands, once it has joined.
def Crew.stateAt (team : Crew σ υ α) (id : Nat) : Option σ :=
  (team.members[id]?).map Member.state

theorem crew_join (hs : crew machine origin emits apply team .join = some next) (id : Nat) :
    next.stateAt id = if id = team.members.length then some origin else team.stateAt id := by
  obtain rfl := Option.some.inj hs
  unfold Crew.stateAt
  rw [List.getElem?_append]
  split_ifs with hlt hid hid
  · omega
  · rfl
  · simp [hid]
  · have hbeyond : team.members.length < id := by omega
    have hnone : team.members[id]? = none := List.getElem?_eq_none hbeyond.le
    rw [hnone, List.getElem?_eq_none]
    rw [List.length_singleton]
    omega

theorem crew_step {taken : ε} {id : Nat}
    (hs : crew machine origin emits apply team (.step id taken) = some next) :
    ∃ before after, team.stateAt id = some before ∧ machine before taken = some after ∧
      next.members.length = team.members.length ∧
      ∀ other, next.stateAt other = if other = id then some after else team.stateAt other := by
  obtain ⟨he, -⟩ | ⟨_, _, state, log, after, he, hid, hstep, rfl⟩ | ⟨_, _, _, _, _, he, -⟩ :=
    crew_cases hs
  · cases he
  · cases he
    obtain ⟨hlt, -⟩ := List.getElem?_eq_some_iff.mp hid
    refine ⟨state, after, by rw [Crew.stateAt, hid]; rfl, hstep, List.length_set, fun other => ?_⟩
    unfold Crew.stateAt
    rw [List.getElem?_set]
    split_ifs with hsame hother hother
    · rfl
    · exact absurd hsame.symm hother
    · exact absurd hother.symm hsame
    · rfl
  · cases he

theorem crew_update {id : Nat}
    (hs : crew machine origin emits apply team (.update id) = some next) :
    next.members.length = team.members.length ∧
      ∀ other, next.stateAt other = team.stateAt other := by
  obtain ⟨he, -⟩ | ⟨_, _, _, _, _, he, -⟩ | ⟨_, state, log, update, rest, he, hid, rfl⟩ :=
    crew_cases hs
  · cases he
  · cases he
  · cases he
    obtain ⟨hlt, -⟩ := List.getElem?_eq_some_iff.mp hid
    refine ⟨List.length_set, fun other => ?_⟩
    unfold Crew.stateAt
    rw [List.getElem?_set]
    split_ifs with hsame
    · rw [← hsame, hid]
      rfl
    · rfl

-- The updates that a task has yet to make.
def Crew.owed (team : Crew σ υ α) (id : Nat) : List υ :=
  ((team.members[id]?).map Member.pending).getD []

-- A task that owes an update can make it, and one that owes none can take its step,
-- whatever the other tasks are in.
theorem crew_owing {id : Nat} (howed : team.owed id ≠ []) :
    ∃ next, crew machine origin emits apply team (.update id) = some next ∧
      (next.owed id).length < (team.owed id).length := by
  unfold Crew.owed at howed ⊢
  cases hid : team.members[id]? with
  | none => simp [hid] at howed
  | some member =>
      obtain ⟨state, log, pending⟩ := member
      cases pending with
      | nil => simp [hid] at howed
      | cons update rest =>
          obtain ⟨hlt, -⟩ := List.getElem?_eq_some_iff.mp hid
          refine ⟨_, by simp only [crew, hid]; rfl, ?_⟩
          simp [List.getElem?_set_self hlt]

theorem crew_free {id : Nat} {state after : σ} {taken : ε} (howed : team.owed id = [])
    (hstate : team.stateAt id = some state) (hs : machine state taken = some after) :
    ∃ next, crew machine origin emits apply team (.step id taken) = some next := by
  obtain ⟨⟨_, log, pending⟩, hid, rfl⟩ := Option.map_eq_some_iff.mp hstate
  obtain rfl : pending = [] := by simpa [Crew.owed, hid] using howed
  exact ⟨_, by simp only [crew, hid, hs]; rfl⟩

-- A task can make all the updates it owes, and so take its turn as one step.
theorem crew_updates {id : Nat} {state : σ} {log pending : List υ}
    (hid : team.members[id]? = some ⟨state, log, pending⟩) :
    (crew machine origin emits apply).run team (List.replicate pending.length (.update id)) =
      some {
        members := team.members.set id ⟨state, log ++ pending, []⟩
        shared := pending.foldl (fun shared update => apply update shared) team.shared } := by
  induction pending generalizing log team with
  | nil =>
      obtain ⟨hlt, hmember⟩ := List.getElem?_eq_some_iff.mp hid
      simp [← hmember]
  | cons update rest ih =>
      obtain ⟨hlt, -⟩ := List.getElem?_eq_some_iff.mp hid
      have hs : crew machine origin emits apply team (.update id) = some {
          members := team.members.set id ⟨state, log ++ [update], rest⟩
          shared := apply update team.shared } := by
        simp only [crew, hid]
      rw [List.length_cons, List.replicate_succ, run_cons, hs, Option.bind_some,
        ih (List.getElem?_set_self hlt)]
      simp

theorem crew_turn {id : Nat} {state after : σ} {log : List υ} {taken : ε}
    (hid : team.members[id]? = some ⟨state, log, []⟩) (hs : machine state taken = some after) :
    (crew machine origin emits apply).run team
        (.step id taken :: List.replicate (emits state taken).length (.update id)) =
      some {
        members := team.members.set id ⟨after, log ++ emits state taken, []⟩
        shared := (emits state taken).foldl (fun shared update => apply update shared)
          team.shared } := by
  obtain ⟨hlt, -⟩ := List.getElem?_eq_some_iff.mp hid
  have hstep : crew machine origin emits apply team (.step id taken) = some { team with
      members := team.members.set id ⟨after, log, emits state taken⟩ } := by
    simp only [crew, hid, hs]
  rw [run_cons, hstep, Option.bind_some, crew_updates (List.getElem?_set_self hlt)]
  simp

end

theorem sum_map_set {β M : Type*} [AddCommMonoid M] (value : β → M) {list : List β} {id : Nat}
    {old new : β} (grown : M) (hid : list[id]? = some old)
    (hgrown : value new = value old + grown) :
    ((list.set id new).map value).sum = (list.map value).sum + grown := by
  induction list generalizing id with
  | nil => simp at hid
  | cons first rest ih =>
      cases id with
      | zero =>
          obtain rfl : first = old := by simpa using hid
          simp only [List.set_cons_zero, List.map_cons, List.sum_cons, hgrown]
          exact add_right_comm _ _ _
      | succ id =>
          simp only [List.set_cons_succ, List.map_cons, List.sum_cons,
            ih (by simpa using hid), add_assoc]

theorem sum_map_toNat {β M : Type*} [AddCommMonoidWithOne M] (counted : β → Bool)
    (list : List β) : (list.map fun item => ((counted item).toNat : M)).sum =
      (list.countP counted : Nat) := by
  induction list with
  | nil => simp
  | cons first rest ih =>
      rw [List.map_cons, List.sum_cons, ih, List.countP_cons]
      cases counted first <;> simp [add_comm]

theorem countP_set_add {β : Type*} (counted : β → Bool) {list : List β} {id : Nat} {old : β}
    (new : β) (hid : list[id]? = some old) :
    (list.set id new).countP counted + (counted old).toNat =
      list.countP counted + (counted new).toNat := by
  have hgrown : ((counted new).toNat : Int) =
      (counted old).toNat + ((counted new).toNat - (counted old).toNat) := by omega
  have hset := sum_map_set (fun item => ((counted item).toNat : Int)) _ hid hgrown
  rw [sum_map_toNat, sum_map_toNat] at hset
  omega

-- What an update adds to `reading` is on the account of the task that made it.
theorem crew_tally {M : Type*} [AddCommMonoid M] {machine : Machine σ ε} {origin : σ}
    {emits : σ → ε → List υ} {apply : υ → α → α} (reading : α → M) (weight : υ → M)
    (happly : ∀ update shared, reading (apply update shared) = reading shared + weight update)
    {shared : α} {events : List (CrewEvent ε)} {team : Crew σ υ α}
    (hr : (crew machine origin emits apply).run { shared := shared } events = some team) :
    reading team.shared = reading shared +
      (team.members.map fun member => (member.log.map weight).sum).sum := by
  refine run_invariant (fun team => reading team.shared = reading shared +
    (team.members.map fun member => (member.log.map weight).sum).sum) ?_ (by simp) hr
  intro team event next h hs
  obtain ⟨rfl, rfl⟩ | ⟨id, taken, state, log, after, rfl, hid, hstep, rfl⟩ |
    ⟨id, state, log, update, rest, rfl, hid, rfl⟩ := crew_cases hs
  · simpa using h
  · rw [sum_map_set _ 0 hid (by simp), add_zero]
    exact h
  · rw [happly, h, sum_map_set _ (weight update) hid (by simp), add_assoc]

end Machine
