import LwdMixnet.Splice.Loop

namespace LwdMixnet

-- A pump that has not returned, and has bytes to write where it writes.
def Pump.Live : Pump → Prop
  | .reading => True
  | .writing read rest => read ≠ 0 ∧ rest ≠ []
  | .flushing read => read ≠ 0
  | .returned _ => False

-- What a pump waits for that is not reading, from a writer that takes all of it.
def Pump.due : Pump → IoEvent
  | .writing _ rest => .wrote rest.length
  | _ => .flushed

def Pump.work : Pump → Nat
  | .writing _ _ => 2
  | .flushing _ => 1
  | _ => 0

structure Splice.Live (splice : Splice) : Prop where
  running : splice.ended = none
  watching : splice.watch.ended = none
  pumps : ∀ way, (splice.pump way).Live

def Way.event : Way → IoEvent → SpliceEvent
  | .outbound, io => .outbound io
  | .inbound, io => .inbound io

section

variable {pump next : Pump} {event : IoEvent}

theorem Pump.Live.step (h : pump.Live) (hs : pump.step event = some next)
    (hgoes : next.result = none) : next.Live := by
  obtain ⟨error, rfl, rfl⟩ | ⟨rfl, rfl, rfl⟩ | ⟨chunk, rfl, rfl, hne, -, rfl⟩ |
    ⟨read, rest, count, rfl, rfl, hw⟩ | ⟨read, rfl, rfl, rfl⟩ := Pump.step_cases hs
  · cases hgoes
  · cases hgoes
  · exact ⟨mt List.length_eq_zero_iff.mp hne, hne⟩
  · obtain ⟨left, hw, rfl⟩ | ⟨-, rfl⟩ | ⟨error, -, rfl⟩ := hw
    · exact ⟨h.1, (writeAll_pending hw).2⟩
    · exact h.1
    · cases hgoes
  · trivial

-- A pump that is not reading is done with its chunk in one write and a flush.
theorem Pump.Live.advances (h : pump.Live) (hbusy : pump ≠ .reading) :
    ∃ next, pump.step pump.due = some next ∧ next.Live ∧ next.work < pump.work ∧
      next.held = [] ∧ pump.given pump.due = pump.held ∧ pump.due.taken = [] := by
  cases pump with
  | reading => exact absurd rfl hbusy
  | writing read rest =>
      obtain ⟨hread, hrest⟩ := h
      refine ⟨.flushing read, ?_, hread, Nat.lt_succ_self 1, rfl, ?_, rfl⟩
      · simp [Pump.step, Pump.due, writeAll_length hrest]
      · simp [Pump.given, Pump.due, Pump.held]
  | flushing read => exact ⟨.reading, rfl, trivial, Nat.zero_lt_one, rfl, rfl, rfl⟩
  | returned result => exact h.elim

theorem Pump.reads {chunk : Bytes} (hne : chunk ≠ []) (hfits : chunk.length ≤ COPY_BUFFER) :
    Pump.step .reading (.read chunk) = some (.writing chunk.length chunk) := by
  simp [Pump.step, hne, hfits]

end

section

variable {splice next : Splice} {way : Way} {io : IoEvent} {pump : Pump}

theorem Splice.Live.step {event : SpliceEvent} (h : splice.Live)
    (hs : splice.step event = some next) (hgoes : next.ended = none) : next.Live := by
  refine ⟨hgoes, Splice.step_watching hs h.watching hgoes, ?_⟩
  obtain ⟨-, ⟨io, pump, watch, rfl, hp, -, rfl⟩ | ⟨io, pump, watch, rfl, hp, -, rfl⟩ |
    ⟨time, watch, rfl, -, rfl⟩ | ⟨watch, rfl, -, rfl⟩⟩ := Splice.step_cases hs
  · have hlive : pump.Live := (h.pumps .outbound).step hp (Option.map_eq_none_iff.mp hgoes)
    intro way
    cases way with
    | outbound => exact hlive
    | inbound => exact h.pumps .inbound
  · have hlive : pump.Live := (h.pumps .inbound).step hp (Option.map_eq_none_iff.mp hgoes)
    intro way
    cases way with
    | outbound => exact h.pumps .outbound
    | inbound => exact hlive
  · exact h.pumps
  · exact h.pumps

theorem Splice.start_live (watchdog : Watchdog) : (Splice.start watchdog).Live := by
  refine ⟨rfl, rfl, fun way => ?_⟩
  cases way with
  | outbound => trivial
  | inbound => trivial

-- The watchdog of a live splice takes note of whatever its pumps record.
theorem Pump.Live.records {watch : Watch} (h : pump.Live) (hwatching : watch.ended = none)
    (way : Way) (io : IoEvent) :
    ∃ later, Watch.step.run watch (pump.records way io) = some later ∧ later.ended = none := by
  cases hrecorded : pump.recorded io with
  | none =>
      refine ⟨watch, ?_, hwatching⟩
      rw [Pump.records, hrecorded]
      rfl
  | some count =>
      have hcount : count ≠ 0 := by
        unfold Pump.recorded at hrecorded
        split at hrecorded
        · obtain rfl := Option.some.inj hrecorded
          exact h
        · cases hrecorded
      refine ⟨{ watch with activity := watch.activity.record way count watch.elapsed }, ?_,
        hwatching⟩
      simp [Pump.records, hrecorded, Machine.run_cons, Watch.step, hwatching, hcount, Machine.run]

-- Whatever one of its pumps can do and go on, the splice can.
theorem Splice.Live.pumped (h : splice.Live) (hp : (splice.pump way).step io = some pump)
    (hlive : pump.Live) : ∃ resumed, splice.step (way.event io) = some resumed ∧
      resumed.Live ∧ resumed.pump way = pump ∧
      ∀ other, other ≠ way → resumed.pump other = splice.pump other := by
  obtain ⟨later, hw, hwatching⟩ := (h.pumps way).records h.watching way io
  have hgoes : pump.result = none := by
    cases pump with
    | returned result => exact hlive.elim
    | reading | writing _ _ | flushing _ => rfl
  have hrunning := h.running
  cases way with
  | outbound =>
      have hs : splice.step (.outbound io) =
          some { splice with watch := later, outbound := pump, ended := none } := by
        simp only [Splice.pump] at hp hw
        simp [Splice.step, hrunning, hp, hw, hgoes]
      have hnext := h.step hs rfl
      refine ⟨_, hs, hnext, rfl, fun other hother => ?_⟩
      cases other with
      | outbound => exact absurd rfl hother
      | inbound => rfl
  | inbound =>
      have hs : splice.step (.inbound io) =
          some { splice with watch := later, inbound := pump, ended := none } := by
        simp only [Splice.pump] at hp hw
        simp [Splice.step, hrunning, hp, hw, hgoes]
      have hnext := h.step hs rfl
      refine ⟨_, hs, hnext, rfl, fun other hother => ?_⟩
      cases other with
      | outbound => rfl
      | inbound => exact absurd rfl hother

-- What is left to do of the chunks that the two pumps hold. A byte on its way to
-- the remote end has further to go.
def Splice.work (splice : Splice) : Nat :=
  4 * splice.outbound.held.length + splice.outbound.work + splice.inbound.work

theorem Splice.Live.sends (h : splice.Live) (hbusy : splice.outbound ≠ .reading) :
    ∃ resumed, splice.step (.outbound splice.outbound.due) = some resumed ∧ resumed.Live ∧
      splice.outbound.due.taken = [] ∧
      resumed.work + 4 * (splice.outbound.given splice.outbound.due).length < splice.work := by
  obtain ⟨pump, hp, hlive, hwork, hheld, hgiven, htaken⟩ := (h.pumps .outbound).advances hbusy
  obtain ⟨resumed, hs, hnext, hsame, hothers⟩ :=
    @Splice.Live.pumped splice .outbound _ pump h hp hlive
  have hinbound : resumed.inbound = splice.inbound := hothers .inbound (by simp)
  have houtbound : resumed.outbound = pump := hsame
  refine ⟨resumed, hs, hnext, htaken, ?_⟩
  simp only [Splice.pump] at hwork hgiven
  rw [Splice.work, Splice.work, hinbound, houtbound, hheld, hgiven, List.length_nil]
  omega

theorem Splice.Live.hands (h : splice.Live) (hbusy : splice.inbound ≠ .reading) :
    ∃ resumed, splice.step (.inbound splice.inbound.due) = some resumed ∧ resumed.Live ∧
      splice.inbound.due.taken = [] ∧ resumed.work < splice.work := by
  obtain ⟨pump, hp, hlive, hwork, -, -, htaken⟩ := (h.pumps .inbound).advances hbusy
  obtain ⟨resumed, hs, hnext, hsame, hothers⟩ :=
    @Splice.Live.pumped splice .inbound _ pump h hp hlive
  have houtbound : resumed.outbound = splice.outbound := hothers .outbound (by simp)
  have hinbound : resumed.inbound = pump := hsame
  refine ⟨resumed, hs, hnext, htaken, ?_⟩
  simp only [Splice.pump] at hwork
  rw [Splice.work, Splice.work, hinbound, houtbound]
  omega

theorem Splice.Live.hears {chunk : Bytes} (h : splice.Live) (hidle : splice.inbound = .reading)
    (hne : chunk ≠ []) (hfits : chunk.length ≤ COPY_BUFFER) :
    ∃ resumed, splice.step (.inbound (.read chunk)) = some resumed ∧ resumed.Live ∧
      resumed.work = splice.work + 2 := by
  have hp : (splice.pump .inbound).step (.read chunk) = some (.writing chunk.length chunk) := by
    rw [Splice.pump, hidle]
    exact Pump.reads hne hfits
  obtain ⟨resumed, hs, hnext, hsame, hothers⟩ :=
    @Splice.Live.pumped splice .inbound _ _ h hp ⟨mt List.length_eq_zero_iff.mp hne, hne⟩
  have houtbound : resumed.outbound = splice.outbound := hothers .outbound (by simp)
  have hinbound : resumed.inbound = .writing chunk.length chunk := hsame
  refine ⟨resumed, hs, hnext, ?_⟩
  rw [Splice.work, Splice.work, houtbound, hinbound, hidle]
  rfl

end

end LwdMixnet
