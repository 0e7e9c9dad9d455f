import LwdMixnet.Carry.Accounts
import LwdMixnet.Dial.Budget
import LwdMixnet.Dial.Cancelled

namespace LwdMixnet

theorem discardReason_refused (error : DialError) :
    discardReason error = "refused_open" ↔ error.isOpenFailure := by
  cases error with
  | Open code => simp [discardReason, DialError.isOpenFailure]
  | Probe probe => cases probe <;> simp [discardReason, handshakeReason, DialError.isOpenFailure]

namespace ClientUpdate

-- What one update adds to each counter.
def roundsRun : ClientUpdate → Nat
  | .rounds count => count
  | _ => 0

def opened : ClientUpdate → Nat
  | .streamsOpened count => count
  | _ => 0

def refused : ClientUpdate → Nat
  | .streamDiscarded reason => if reason = "refused_open" then 1 else 0
  | _ => 0

def unanswered : ClientUpdate → Nat
  | .streamDiscarded reason => probeReasons.count reason
  | _ => 0

def accepted (update : ClientUpdate) : Nat := (update == .connectionAccepted).toNat

def established : ClientUpdate → Nat
  | .establishment _ => 1
  | _ => 0

def gaveUp (update : ClientUpdate) : Nat := (update == .unestablished).toNat

def finished (update : ClientUpdate) : Nat := update.isEnded.toNat

def carried (direction : String) : ClientUpdate → Nat
  | .bytes other count => if direction = other then count else 0
  | _ => 0

end ClientUpdate

def charge (weight : ClientUpdate → Nat) (updates : List ClientUpdate) : Nat :=
  (updates.map weight).sum

section

variable {weight : ClientUpdate → Nat}

@[simp] theorem charge_nil : charge weight [] = 0 := rfl

@[simp] theorem charge_cons (update : ClientUpdate) (rest : List ClientUpdate) :
    charge weight (update :: rest) = weight update + charge weight rest := by
  simp [charge]

@[simp] theorem charge_append (first second : List ClientUpdate) :
    charge weight (first ++ second) = charge weight first + charge weight second := by
  simp [charge]

theorem charge_prefix (weight : ClientUpdate → Nat) {done updates : List ClientUpdate}
    (h : done <+: updates) : charge weight done ≤ charge weight updates := by
  obtain ⟨rest, rfl⟩ := h
  rw [charge_append]
  exact Nat.le_add_right _ _

theorem charge_accepted (rest : List ClientUpdate) :
    0 < charge ClientUpdate.accepted (.connectionAccepted :: rest) := by
  rw [charge_cons]
  exact Nat.lt_of_lt_of_le Nat.one_pos (Nat.le_add_right _ _)

theorem charge_discarded (discarded : List Discarded) (counted : Discarded → Bool)
    (hweight : ∀ stream, weight (.streamDiscarded (discardReason stream.error)) =
      (counted stream).toNat) :
    charge weight (discarded.map fun stream => .streamDiscarded (discardReason stream.error)) =
      discarded.countP counted := by
  have hcounted : (discarded.map fun stream => (counted stream).toNat).sum =
      discarded.countP counted := Machine.sum_map_toNat _ _
  rw [← hcounted, charge, List.map_map]
  exact congrArg List.sum (List.map_congr_left fun stream _ => hweight stream)

end

-- A round counts its streams before what became of them.
theorem Round.charges (round : Round) :
    charge ClientUpdate.opened round.updates = round.opened ∧
      charge ClientUpdate.refused round.updates = round.failures DialError.isOpenFailure ∧
      charge ClientUpdate.unanswered round.updates = round.unanswered := by
  have hopened : charge ClientUpdate.opened (round.discarded.map fun stream =>
      .streamDiscarded (discardReason stream.error)) = 0 := by
    rw [charge_discarded _ (fun _ => false) fun _ => rfl]
    simp
  have hrefused : charge ClientUpdate.refused (round.discarded.map fun stream =>
      .streamDiscarded (discardReason stream.error)) =
      round.discarded.countP fun stream => stream.error.isOpenFailure := by
    refine charge_discarded _ _ fun stream => ?_
    have hreason := discardReason_refused stream.error
    cases hopen : stream.error.isOpenFailure <;> simp [ClientUpdate.refused, hreason, hopen]
  have hunanswered : charge ClientUpdate.unanswered (round.discarded.map fun stream =>
      .streamDiscarded (discardReason stream.error)) =
      round.discarded.countP fun stream => !stream.error.isOpenFailure := by
    refine charge_discarded _ _ fun stream => ?_
    rw [ClientUpdate.unanswered, count_discardReason]
    cases stream.error.isOpenFailure with
    | true => rfl
    | false => rfl
  refine ⟨?_, ?_, ?_⟩
  · rw [Round.updates, charge_cons, hopened]
    rfl
  · rw [Round.updates, charge_cons, hrefused, Round.failures]
    simp [ClientUpdate.refused]
  · rw [Round.updates, charge_cons, hunanswered, Round.unanswered, Round.failures]
    simp [ClientUpdate.unanswered]

theorem prefix_of_append {done first second : List ClientUpdate} (h : done <+: first ++ second) :
    done <+: first ∨ ∃ rest, rest <+: second ∧ done = first ++ rest := by
  obtain hshort | ⟨rest, rfl⟩ := List.prefix_or_prefix_of_prefix h (List.prefix_append _ _)
  · exact Or.inl hshort
  · exact Or.inr ⟨rest, (List.prefix_append_right_inj _).mp h, rfl⟩

-- At every point, no more streams went unanswered than were opened.
def Covered (updates : List ClientUpdate) : Prop :=
  ∀ done, done <+: updates →
    charge ClientUpdate.unanswered done ≤ charge ClientUpdate.opened done

theorem Covered.append {first second : List ClientUpdate} (hfirst : Covered first)
    (hsecond : Covered second) : Covered (first ++ second) := by
  intro done hdone
  obtain hshort | ⟨rest, hrest, rfl⟩ := prefix_of_append hdone
  · exact hfirst done hshort
  · have hstart := hfirst first (List.prefix_refl _)
    have hgoes := hsecond rest hrest
    simp only [charge_append]
    omega

theorem Covered.silent {updates : List ClientUpdate}
    (h : charge ClientUpdate.unanswered updates = 0) : Covered updates := by
  intro done hdone
  have hall := charge_prefix ClientUpdate.unanswered hdone
  omega

theorem Round.covered {round : Round} (h : round.unanswered ≤ round.opened) :
    Covered round.updates := by
  intro done hdone
  have hall := charge_prefix ClientUpdate.unanswered hdone
  obtain rfl | ⟨rest, rfl, -⟩ := List.prefix_cons_iff.mp hdone
  · exact Nat.le_refl _
  · rw [round.charges.2.2] at hall
    rw [charge_cons] at hall ⊢
    rw [charge_cons]
    change _ ≤ round.opened + _
    omega

theorem charge_flatMap (weight : ClientUpdate → Nat) (rounds : List Round) :
    charge weight (rounds.flatMap Round.updates) =
      (rounds.map fun round => charge weight round.updates).sum := by
  induction rounds with
  | nil => rfl
  | cons round rest ih => simp [ih]

theorem charge_dial (weight : ClientUpdate → Nat) (hfirst : weight .firstRoundFailure = 0)
    (rounds : List Round) : charge weight (dialUpdates rounds) = weight (.rounds rounds.length) +
      (rounds.map fun round => charge weight round.updates).sum := by
  have hlast : charge weight (if firstUnanswered rounds then [.firstRoundFailure] else []) = 0 := by
    split_ifs
    · simp [hfirst]
    · rfl
  rw [dialUpdates, charge_append, charge_cons, charge_flatMap, hlast, Nat.add_zero]

theorem Round.charge_silent (weight : ClientUpdate → Nat)
    (hopened : ∀ count, weight (.streamsOpened count) = 0)
    (hdiscarded : ∀ reason, weight (.streamDiscarded reason) = 0) (round : Round) :
    charge weight round.updates = 0 := by
  rw [Round.updates, charge_cons, hopened, charge_discarded _ (fun _ => false)]
  · simp
  · intro stream
    exact hdiscarded _

-- What counts nothing of a round counts nothing of a dial but its rounds.
theorem charge_silent (weight : ClientUpdate → Nat) (hfirst : weight .firstRoundFailure = 0)
    (hopened : ∀ count, weight (.streamsOpened count) = 0)
    (hdiscarded : ∀ reason, weight (.streamDiscarded reason) = 0) (rounds : List Round) :
    charge weight (dialUpdates rounds) = weight (.rounds rounds.length) := by
  have hround := Round.charge_silent weight hopened hdiscarded
  rw [charge_dial weight hfirst]
  simp [hround]

-- The rounds of a dial, within its budget.
structure Billed (settings : DialSettings) (rounds : List Round) : Prop where
  shared : Dial.Shared settings rounds
  within : rounds.length ≤ settings.mostRounds

theorem Dial.Budgeted.billed {settings : DialSettings} {dial : Dial} (h : dial.Budgeted settings) :
    Billed settings dial.rounds :=
  ⟨h.shared, (Nat.le_add_right _ _).trans h.bounded.1⟩

theorem Billed.attempts {settings : DialSettings} {rounds : List Round}
    (h : Billed settings rounds) :
    charge ClientUpdate.opened (dialUpdates rounds) +
      charge ClientUpdate.refused (dialUpdates rounds) ≤ settings.attempts := by
  have hall := h.shared.attempts
  have hsplit : (rounds.map Round.attempted).sum = (rounds.map Round.opened).sum +
      (rounds.map fun round => round.failures DialError.isOpenFailure).sum := by
    rw [← List.sum_map_add]
    rfl
  rw [charge_dial _ rfl, charge_dial _ rfl]
  simp only [Round.charges, ClientUpdate.opened, ClientUpdate.refused, Nat.zero_add]
  change (rounds.map Round.opened).sum + _ ≤ _
  rw [← hsplit, hall]
  exact Nat.min_le_left _ _

theorem Billed.covered {settings : DialSettings} {rounds : List Round}
    (h : Billed settings rounds) : Covered (dialUpdates rounds) := by
  have hround (round : Round) (hmember : round ∈ rounds) : Covered round.updates := by
    obtain ⟨index, hindex⟩ := List.mem_iff_getElem?.mp hmember
    have hunclamped := (h.shared index round hindex).unclamped
    exact Round.covered (by omega)
  have hrounds : Covered (rounds.flatMap Round.updates) := by
    clear h
    induction rounds with
    | nil => exact Covered.silent rfl
    | cons round rest ih =>
        rw [List.flatMap_cons]
        exact (hround round List.mem_cons_self).append
          (ih fun other hother => hround other (List.mem_cons_of_mem _ hother))
  have hfirst : Covered [.rounds rounds.length] := Covered.silent rfl
  refine (hfirst.append hrounds).append (Covered.silent ?_)
  split_ifs
  · rfl
  · rfl

-- What a task still does once it has reported its dial, and what it has carried
-- by then.
inductive Ending (wallet : Duplex) : List ClientUpdate → Prop
  | gaveUp (outcome : Outcome) (hnothing : wallet = {}) :
      Ending wallet [.unestablished, .fold outcome, .dropInFlight]
  | carrying (waited : Nat) (outcome : Outcome) :
      Ending wallet [.establishment waited, .fold outcome]
  | carried (waited : Nat) (outcome : Outcome) (transfer : Transfer) (ended : Ended)
      (hread : transfer.toRemote ≤ wallet.consumed.length)
      (hgiven : transfer.fromRemote ≤ wallet.accepted.length)
      (hrest : wallet.accepted.length ≤ transfer.fromRemote + COPY_BUFFER) :
      Ending wallet ([.establishment waited, .fold outcome] ++
        clientFinished transfer ended ++ [.dropInFlight])

-- What the updates of one task come to, wherever it stands in them.
structure Charged (settings : DialSettings) (updates : List ClientUpdate) : Prop where
  rounds : charge ClientUpdate.roundsRun updates ≤
    settings.mostRounds * charge ClientUpdate.accepted updates
  attempts : charge ClientUpdate.opened updates + charge ClientUpdate.refused updates ≤
    settings.attempts * charge ClientUpdate.accepted updates
  unanswered : charge ClientUpdate.unanswered updates ≤ charge ClientUpdate.opened updates
  finished : charge ClientUpdate.finished updates ≤ charge ClientUpdate.established updates
  established : charge ClientUpdate.established updates + charge ClientUpdate.gaveUp updates ≤
    charge ClientUpdate.accepted updates

section

variable {settings : DialSettings} {wallet : Duplex} {rounds : List Round}
  {tail done : List ClientUpdate}

theorem Charged.nothing : Charged settings [] :=
  ⟨Nat.zero_le _, Nat.zero_le _, Nat.le_refl _, Nat.le_refl _, Nat.le_refl _⟩

-- The ending opens no stream and runs no round.
theorem Ending.charges (h : Ending wallet tail) :
    charge ClientUpdate.roundsRun tail = 0 ∧ charge ClientUpdate.opened tail = 0 ∧
      charge ClientUpdate.refused tail = 0 ∧ charge ClientUpdate.unanswered tail = 0 ∧
      charge ClientUpdate.established tail + charge ClientUpdate.gaveUp tail = 1 := by
  cases h with
  | gaveUp outcome hnothing => exact ⟨rfl, rfl, rfl, rfl, rfl⟩
  | carrying waited outcome => exact ⟨rfl, rfl, rfl, rfl, rfl⟩
  | carried waited outcome transfer ended hread hgiven hrest => exact ⟨rfl, rfl, rfl, rfl, rfl⟩

-- Only what was established is counted as finished, and after it.
theorem Ending.finishes (h : Ending wallet tail) (hdone : done <+: tail) :
    charge ClientUpdate.finished done ≤ charge ClientUpdate.established done := by
  have hall := charge_prefix ClientUpdate.finished hdone
  cases h with
  | gaveUp outcome hnothing => exact hall.trans (Nat.zero_le _)
  | carrying waited outcome => exact hall.trans (Nat.zero_le _)
  | carried waited outcome transfer ended hread hgiven hrest =>
      obtain rfl | ⟨rest, rfl, -⟩ := List.prefix_cons_iff.mp hdone
      · exact Nat.le_refl _
      · refine hall.trans ?_
        rw [charge_cons]
        exact Nat.le_add_right _ _

-- The metrics are never ahead of what the wallet sent, or was given.
theorem Ending.carries (h : Ending wallet tail) :
    charge (ClientUpdate.carried "to_mixnet") tail ≤ wallet.consumed.length ∧
      charge (ClientUpdate.carried "from_mixnet") tail ≤ wallet.accepted.length := by
  cases h with
  | gaveUp outcome hnothing => exact ⟨Nat.zero_le _, Nat.zero_le _⟩
  | carrying waited outcome => exact ⟨Nat.zero_le _, Nat.zero_le _⟩
  | carried waited outcome transfer ended hread hgiven hrest =>
      simpa [clientFinished, ClientUpdate.carried] using ⟨hread, hgiven⟩

theorem Ending.charged (h : Ending wallet tail) (hbilled : Billed settings rounds)
    (hdone : done <+: .connectionAccepted :: (dialUpdates rounds ++ tail)) :
    Charged settings done := by
  obtain rfl | ⟨rest, rfl, hrest⟩ := List.prefix_cons_iff.mp hdone
  · exact Charged.nothing
  obtain ⟨hruns, hopens, hrefuses, hunanswers, hreports⟩ := h.charges
  have hattempts := hbilled.attempts
  have hwithin := hbilled.within
  have hdials : charge ClientUpdate.roundsRun (dialUpdates rounds) = rounds.length :=
    charge_silent _ rfl (fun _ => rfl) (fun _ => rfl) rounds
  have hestablishes : charge ClientUpdate.established (dialUpdates rounds) = 0 :=
    charge_silent _ rfl (fun _ => rfl) (fun _ => rfl) rounds
  have hgivesUp : charge ClientUpdate.gaveUp (dialUpdates rounds) = 0 :=
    charge_silent _ rfl (fun _ => rfl) (fun _ => rfl) rounds
  have hfinishes : charge ClientUpdate.finished (dialUpdates rounds) = 0 :=
    charge_silent _ rfl (fun _ => rfl) (fun _ => rfl) rounds
  have hcovered : Covered (dialUpdates rounds ++ tail) :=
    hbilled.covered.append (Covered.silent hunanswers)
  have hrun := charge_prefix ClientUpdate.roundsRun hrest
  have hopen := charge_prefix ClientUpdate.opened hrest
  have hrefuse := charge_prefix ClientUpdate.refused hrest
  have hestablish := charge_prefix ClientUpdate.established hrest
  have hgiveUp := charge_prefix ClientUpdate.gaveUp hrest
  have hfinish : charge ClientUpdate.finished rest ≤ charge ClientUpdate.established rest := by
    obtain hshort | ⟨last, hlast, rfl⟩ := prefix_of_append hrest
    · have hnone := charge_prefix ClientUpdate.finished hshort
      omega
    · have hends := h.finishes hlast
      simp only [charge_append]
      omega
  simp only [charge_append] at hrun hopen hrefuse hestablish hgiveUp
  refine ⟨?_, ?_, ?_, ?_, ?_⟩
  · have hle : charge ClientUpdate.roundsRun rest ≤ settings.mostRounds := by omega
    rw [charge_cons]
    exact (Nat.zero_add _).le.trans (hle.trans (Nat.le_mul_of_pos_right _ (charge_accepted rest)))
  · have hle : charge ClientUpdate.opened rest + charge ClientUpdate.refused rest ≤
        settings.attempts := by omega
    have hnothing : charge ClientUpdate.opened (.connectionAccepted :: rest) +
        charge ClientUpdate.refused (.connectionAccepted :: rest) =
        charge ClientUpdate.opened rest + charge ClientUpdate.refused rest := by
      simp [ClientUpdate.opened, ClientUpdate.refused]
    rw [hnothing]
    exact hle.trans (Nat.le_mul_of_pos_right _ (charge_accepted rest))
  · simpa [ClientUpdate.opened, ClientUpdate.unanswered] using hcovered rest hrest
  · simpa [ClientUpdate.finished, ClientUpdate.established, ClientUpdate.isEnded] using hfinish
  · have hone : charge ClientUpdate.established rest + charge ClientUpdate.gaveUp rest ≤ 1 := by
      omega
    have hnothing : charge ClientUpdate.established (.connectionAccepted :: rest) +
        charge ClientUpdate.gaveUp (.connectionAccepted :: rest) =
        charge ClientUpdate.established rest + charge ClientUpdate.gaveUp rest := by
      simp [ClientUpdate.established, ClientUpdate.gaveUp]
    rw [hnothing]
    exact hone.trans (charge_accepted rest)

theorem Charged.begun (hdone : done <+: [.connectionAccepted]) : Charged settings done := by
  obtain rfl | ⟨rest, rfl, hrest⟩ := List.prefix_cons_iff.mp hdone
  · exact Charged.nothing
  · obtain rfl := List.prefix_nil.mp hrest
    exact ⟨Nat.zero_le _, Nat.zero_le _, Nat.le_refl _, Nat.le_refl _, Nat.zero_le _⟩

theorem Ending.rests (h : Ending wallet tail) (hdropped : .dropInFlight ∈ tail) :
    wallet.accepted.length ≤
      charge (ClientUpdate.carried "from_mixnet") tail + COPY_BUFFER := by
  cases h with
  | gaveUp outcome hnothing =>
      rw [hnothing]
      exact Nat.zero_le _
  | carrying waited outcome => simp at hdropped
  | carried waited outcome transfer ended hread hgiven hrest =>
      simpa [clientFinished, ClientUpdate.carried] using hrest

end

end LwdMixnet
