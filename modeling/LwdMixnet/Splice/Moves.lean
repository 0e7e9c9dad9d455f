import LwdMixnet.Splice.Watchdog

namespace LwdMixnet

-- A movement a pump recorded, with the instant of its `record`.
structure Move where
  way : Way
  instant : Nat
  deriving DecidableEq, Repr

-- What `record` stores of that instant.
def Move.stamp (move : Move) : Nat := asMillis move.instant

def recorded : Nat × WatchEvent → Option Move
  | (instant, .moved way _) => some ⟨way, instant⟩
  | _ => none

-- Every movement of an execution, oldest first.
def moves (events : List WatchEvent) : List Move :=
  (Machine.timed WatchEvent.delay 0 events).filterMap recorded

def lastStamp (way : Way) (moves : List Move) : Option Nat :=
  (moves.reverse.find? fun move => move.way = way).map Move.stamp

def Chronological (moves : List Move) : Prop :=
  moves.Pairwise fun first second => first.instant ≤ second.instant

-- An outbound movement with no inbound movement at or after it.
def Standing (moves : List Move) (move : Move) : Prop :=
  move ∈ moves ∧ move.way = .outbound ∧
    ∀ answer ∈ moves, answer.way = .inbound → answer.instant < move.instant

-- The same by the stamps, where an answer in its millisecond is one.
def Unanswered (moves : List Move) (move : Move) : Prop :=
  move ∈ moves ∧ move.way = .outbound ∧
    ∀ answer ∈ moves, answer.way = .inbound → answer.stamp < move.stamp

instance (moves : List Move) (move : Move) : Decidable (Unanswered moves move) := by
  unfold Unanswered
  infer_instance

instance (moves : List Move) (move : Move) : Decidable (Standing moves move) := by
  unfold Standing
  infer_instance

def oldestUnanswered (moves : List Move) : Option Move :=
  moves.find? fun move => Unanswered moves move

def Oldest (moves : List Move) (move : Move) : Prop :=
  Unanswered moves move ∧ ∀ other, Unanswered moves other → move.stamp ≤ other.stamp

theorem Unanswered.standing {moves : List Move} {move : Move} (h : Unanswered moves move) :
    Standing moves move := by
  refine ⟨h.1, h.2.1, fun answer ha hin => ?_⟩
  by_contra hle
  exact Nat.not_lt.mpr (asMillis_mono (Nat.le_of_not_lt hle)) (h.2.2 answer ha hin)

@[simp] theorem moves_nil : moves [] = [] := rfl

theorem moves_concat (events : List WatchEvent) (event : WatchEvent) :
    moves (events ++ [event]) = moves events ++
      (recorded (Machine.duration WatchEvent.delay events, event)).toList := by
  simp only [moves, Machine.timed_concat, List.filterMap_append, Nat.zero_add]
  cases h : recorded (Machine.duration WatchEvent.delay events, event) <;> simp [h]

theorem moves_append_left {events : List WatchEvent} {move : Move} (hm : move ∈ moves events)
    (rest : List WatchEvent) : move ∈ moves (events ++ rest) := by
  rw [moves, Machine.timed_append, List.filterMap_append]
  exact List.mem_append_left _ hm

theorem instant_le_duration {events : List WatchEvent} {move : Move} (hm : move ∈ moves events) :
    move.instant ≤ Machine.duration WatchEvent.delay events := by
  obtain ⟨⟨instant, event⟩, ht, hr⟩ := List.mem_filterMap.mp hm
  have hb := (Machine.timed_bounds WatchEvent.delay 0 events instant event ht).2
  cases event with
  | moved way count =>
      obtain rfl := Option.some.inj hr
      simpa using hb
  | elapse _ | tick => cases hr

theorem moves_chronological (events : List WatchEvent) : Chronological (moves events) := by
  induction events using List.reverseRecOn with
  | nil => exact List.Pairwise.nil
  | append_singleton events event ih =>
      rw [moves_concat]
      refine List.pairwise_append.mpr ⟨ih, ?_, ?_⟩
      · cases recorded (Machine.duration WatchEvent.delay events, event) <;> simp
      · intro first hf second hs
        cases event with
        | moved way count =>
            obtain rfl := List.mem_singleton.mp hs
            exact instant_le_duration hf
        | elapse _ | tick => cases hs

theorem lastStamp_concat (way : Way) (moves : List Move) (move : Move) :
    lastStamp way (moves ++ [move]) =
      if move.way = way then some move.stamp else lastStamp way moves := by
  by_cases h : move.way = way <;> simp [lastStamp, h]

theorem lastStamp_none {way : Way} {moves : List Move} (h : lastStamp way moves = none)
    (move : Move) (hm : move ∈ moves) : move.way ≠ way := by
  simp only [lastStamp, Option.map_eq_none_iff, List.find?_eq_none, List.mem_reverse,
    decide_eq_true_eq] at h
  exact h move hm

theorem lastStamp_mem {way : Way} {moves : List Move} {stamp : Nat}
    (h : lastStamp way moves = some stamp) :
    ∃ move ∈ moves, move.way = way ∧ move.stamp = stamp := by
  obtain ⟨move, hf, hs⟩ := Option.map_eq_some_iff.mp h
  have hw := List.find?_some hf
  exact ⟨move, List.mem_reverse.mp (List.mem_of_find?_eq_some hf), by simpa using hw, hs⟩

theorem Chronological.stamp_le {first second : Move} {moves : List Move}
    (h : Chronological (first :: moves)) (hm : second ∈ moves) : first.stamp ≤ second.stamp :=
  asMillis_mono (List.rel_of_pairwise_cons h hm)

-- The last stamp of a direction is its latest.
theorem le_lastStamp {way : Way} {moves : List Move} (hc : Chronological moves) {stamp : Nat}
    (h : lastStamp way moves = some stamp) {move : Move} (hm : move ∈ moves)
    (hw : move.way = way) : move.stamp ≤ stamp := by
  induction moves using List.reverseRecOn with
  | nil => cases hm
  | append_singleton moves last ih =>
      obtain ⟨hp, -, hl⟩ := List.pairwise_append.mp hc
      rw [lastStamp_concat] at h
      rcases List.mem_append.mp hm with hm | hm
      · split_ifs at h with hway
        · cases h
          exact asMillis_mono (hl move hm last (List.mem_singleton_self _))
        · exact ih hp h hm
      · obtain rfl := List.mem_singleton.mp hm
        simp only [hw, if_true, Option.some.injEq] at h
        exact h.le

theorem lastStamp_isSome {way : Way} {moves : List Move} {move : Move} (hm : move ∈ moves)
    (hw : move.way = way) : ∃ stamp, lastStamp way moves = some stamp := by
  cases h : lastStamp way moves with
  | some stamp => exact ⟨stamp, rfl⟩
  | none => exact absurd hw (lastStamp_none h move hm)

-- What the watchdog reads off the two latest stamps is whether any write is
-- unanswered, and how recent the latest such write is.
theorem outstanding_some {moves : List Move} (hc : Chronological moves) {wrote : Nat}
    (h : outstanding (lastStamp .outbound moves) (lastStamp .inbound moves) = some wrote) :
    ∃ move, Unanswered moves move ∧ move.stamp = wrote := by
  obtain ⟨hw, hh⟩ := Option.filter_eq_some_iff.mp h
  obtain ⟨move, hm, hway, rfl⟩ := lastStamp_mem hw
  refine ⟨move, ⟨hm, hway, ?_⟩, rfl⟩
  intro answer ha hin
  obtain ⟨heard, hl⟩ := lastStamp_isSome ha hin
  have hle := le_lastStamp hc hl ha hin
  simp only [hl, Option.all_some, decide_eq_true_eq] at hh
  omega

theorem heard_lt_outstanding {moves : List Move} {wrote heard : Nat}
    (h : outstanding (lastStamp .outbound moves) (lastStamp .inbound moves) = some wrote)
    (hl : lastStamp .inbound moves = some heard) : heard < wrote := by
  have hh := (Option.filter_eq_some_iff.mp h).2
  simpa [hl] using hh

theorem outstanding_none {moves : List Move} (hc : Chronological moves)
    (h : outstanding (lastStamp .outbound moves) (lastStamp .inbound moves) = none)
    (move : Move) : ¬Unanswered moves move := by
  rintro ⟨hm, hw, ha⟩
  obtain ⟨wrote, hl⟩ := lastStamp_isSome hm hw
  have hle := le_lastStamp hc hl hm hw
  simp only [outstanding, hl, Option.filter_eq_none_iff, Option.some.injEq] at h
  apply h wrote rfl
  cases hi : lastStamp .inbound moves with
  | none => rfl
  | some heard =>
      obtain ⟨answer, hm', hin, rfl⟩ := lastStamp_mem hi
      have := ha answer hm' hin
      simp only [Option.all_some, decide_eq_true_eq]
      omega

theorem oldest_of_unanswered {moves : List Move} {move : Move} (h : Unanswered moves move) :
    ∃ first, oldestUnanswered moves = some first := by
  cases hf : oldestUnanswered moves with
  | some first => exact ⟨first, rfl⟩
  | none => exact absurd h (by simpa using List.find?_eq_none.mp hf move h.1)

theorem oldestUnanswered_oldest {moves : List Move} (hc : Chronological moves) {first : Move}
    (h : oldestUnanswered moves = some first) : Oldest moves first := by
  obtain ⟨hu, before, after, rfl, hb⟩ := List.find?_eq_some_iff_append.mp h
  refine ⟨of_decide_eq_true hu, ?_⟩
  intro other ho
  rcases List.mem_append.mp ho.1 with hm | hm
  · exact absurd ho (by simpa using hb other hm)
  · rcases List.mem_cons.mp hm with rfl | hm
    · exact Nat.le_refl _
    · have hp : Chronological (first :: after) := (List.pairwise_append.mp hc).2.1
      exact hp.stamp_le hm

theorem exists_oldest {moves : List Move} (hc : Chronological moves) {move : Move}
    (hu : Unanswered moves move) : ∃ first, Oldest moves first := by
  obtain ⟨first, hf⟩ := oldest_of_unanswered hu
  exact ⟨first, oldestUnanswered_oldest hc hf⟩

theorem Oldest.stamp_eq {moves : List Move} {first second : Move} (hf : Oldest moves first)
    (hs : Oldest moves second) : first.stamp = second.stamp :=
  Nat.le_antisymm (hf.2 second hs.1) (hs.2 first hf.1)

end LwdMixnet
