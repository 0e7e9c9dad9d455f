import LwdMixnet.Carry.Ledger
import LwdMixnet.Tunnel.Transparency

namespace LwdMixnet

-- What a connection has sent on its streams: headers, and on the one it kept what its
-- splice copied, which is counted but for a chunk once it has ended.
def Carry.Sent (made : List ClientUpdate) (carry : Carry) : Prop :=
  match carry.phase with
  | .accepted => carry.near = fun _ => {}
  | .dialling dial => dial.Spoke carry.near
  | .dialled _ => ∀ stream, (carry.near stream).accepted.length ≤ HEADER_LEN
  | .splicing kept splice => 0 < charge ClientUpdate.established made ∧
      (∃ flows before, splice.Copies flows ∧ carry.near kept = flows.remote.after before ∧
        before.accepted.length ≤ HEADER_LEN) ∧
      ∀ stream, stream ≠ kept → (carry.near stream).accepted.length ≤ HEADER_LEN
  | .returned => ∀ stream, (carry.near stream).accepted.length ≤ HEADER_LEN +
      (charge (ClientUpdate.carried "to_mixnet") made +
        COPY_BUFFER * charge ClientUpdate.established made)

section

variable {carrying : Carrying} {carry next : Carry} {event : CarryEvent}
  {made : List ClientUpdate}

theorem Flows.start_remote (before : Duplex) : Flows.start.remote.after before = before := by
  simp [Flows.start, Flows.remote, Duplex.after, Duplex.move]

-- The step that ends a splice counts what it carried.
theorem Carry.emits_splicing {kept : StreamId} {splice resumed : Splice} {waited : SpliceEvent}
    (hown : Carry.own carrying carry (.splice waited) = some next)
    (hphase : carry.phase = .splicing kept splice) (hsplice : splice.step waited = some resumed) :
    next.phase = .splicing kept resumed ∨
      ∃ transfer ended, resumed.ended = some (transfer, ended) ∧ next.phase = .returned ∧
        carry.emits carrying (.splice waited) =
          clientFinished transfer ended ++ [.dropInFlight] := by
  obtain ⟨after, hs⟩ := Carry.own_step hown
  simp only [Carry.step, hphase, hsplice] at hs
  cases hended : resumed.ended with
  | none =>
      simp only [hended] at hs
      obtain ⟨-, rfl⟩ := Prod.mk.inj (Option.some.inj hs)
      exact Or.inl rfl
  | some verdict =>
      simp only [hended] at hs
      obtain ⟨-, rfl⟩ := Prod.mk.inj (Option.some.inj hs)
      exact Or.inr ⟨verdict.1, verdict.2, rfl, rfl,
        by simp [Carry.emits, hphase, hsplice, hended]⟩

theorem charge_finished (weight : ClientUpdate → Nat) (transfer : Transfer) (ended : Ended) :
    charge weight (clientFinished transfer ended ++ [.dropInFlight]) =
      weight (.bytes "to_mixnet" transfer.toRemote) +
        (weight (.bytes "from_mixnet" transfer.fromRemote) +
          (weight (.ended ended) + weight .dropInFlight)) := by
  simp [clientFinished]

theorem Carry.Sent.step (hprobe : carrying.dial.probe ≠ none) (h : carry.Sent made)
    (hown : Carry.own carrying carry event = some next) :
    next.Sent (made ++ carry.emits carrying event) := by
  have hnear := Carry.own_near hown
  obtain ⟨after, hs⟩ := Carry.own_step hown
  have hsent := h
  unfold Carry.Sent at hsent
  obtain ⟨hphase, rfl, rfl⟩ | ⟨dial, waited, resumed, hphase, rfl, hd, -, -, hnext⟩ |
    ⟨dialled, hphase, rfl, rfl⟩ | ⟨gaveUp, hphase, rfl, rfl⟩ |
    ⟨kept, splice, waited, resumed, hphase, rfl, hsplice, -, -, hnext⟩ |
    ⟨time, rfl, rfl⟩ := Carry.step_cases hs
  · simp only [hphase] at hsent
    simp only [Carry.Sent, hsent]
    exact Dial.start_spoke _
  · simp only [hphase] at hsent
    have hmoved : carry.moved (.dial waited) = dial.moved waited := by simp [Carry.moved, hphase]
    rw [hmoved] at hnear
    have hspoke := hsent.step hprobe hd
    rw [← hnear] at hspoke
    obtain ⟨result, -, hnext⟩ | hnext := hnext
    · simp only [Carry.Sent, hnext]
      exact hspoke.short
    · simp only [Carry.Sent, hnext]
      exact hspoke
  · simp only [hphase] at hsent
    have he : carry.emits carrying .fold = dialUpdates dialled.rounds ++
        [.establishment carry.waited, .fold (carrying.dial.outcome (.ok dialled))] := by
      simp [Carry.emits, hphase]
    refine ⟨?_, ⟨.start, _, Splice.start_copies _, (Flows.start_remote _).symm, hsent _⟩,
      fun stream _ => hsent stream⟩
    rw [he, charge_append, charge_append, charge_cons]
    exact Nat.add_pos_right _ (Nat.add_pos_right _ (Nat.add_pos_left Nat.one_pos _))
  · simp only [hphase] at hsent
    exact fun stream => (hsent stream).trans (Nat.le_add_right _ _)
  · simp only [hphase] at hsent
    obtain ⟨hestablished, ⟨flows, before, hcopies, hkept, hheader⟩, hothers⟩ := hsent
    have hcopies := hcopies.step hsplice
    have hmoved (stream : StreamId) : next.near stream = if stream = kept
        then splice.remoteEnd (carry.near stream) waited else carry.near stream := by
      rw [hnear, Carry.moved_splicing hphase]
    have hkept : next.near kept = (flows.move splice waited).remote.after before := by
      rw [hmoved, if_pos rfl, hkept, Splice.remoteEnd_after, Flows.remote_move]
    have hothers (stream : StreamId) (hne : stream ≠ kept) :
        (next.near stream).accepted.length ≤ HEADER_LEN := by
      rw [hmoved, if_neg hne]
      exact hothers stream hne
    have hcharged := charge_prefix ClientUpdate.established
      (List.prefix_append made (carry.emits carrying (.splice waited)))
    obtain hgoes | ⟨transfer, ended, hended, hreturned, he⟩ :=
      Carry.emits_splicing hown hphase hsplice
    · simp only [Carry.Sent, hgoes]
      exact ⟨hestablished.trans_le hcharged, ⟨_, before, hcopies, hkept, hheader⟩, hothers⟩
    · simp only [Carry.Sent, hreturned]
      intro stream
      by_cases hne : stream = kept
      · subst hne
        obtain ⟨rfl, -⟩ := hcopies.reported transfer ended hended
        have huncounted := (hcopies.ways .outbound).counted.uncounted
        have hsplit : (next.near stream).accepted.length = before.accepted.length +
            (flows.move splice waited .outbound).accepted.length := by
          rw [hkept, Duplex.after, Duplex.move_accepted, List.length_append]
          rfl
        have hcounted : charge (ClientUpdate.carried "to_mixnet") (made ++
            carry.emits carrying (.splice waited)) =
            charge (ClientUpdate.carried "to_mixnet") made +
              (resumed.watch.activity.direction .outbound).bytes := by
          rw [he, charge_append, charge_finished]
          rfl
        have hbuffer := Nat.le_mul_of_pos_right COPY_BUFFER (hestablished.trans_le hcharged)
        omega
      · exact (hothers stream hne).trans (Nat.le_add_right _ _)
  · have he : carry.emits carrying (.elapse time) = [] := by
      cases hphase : carry.phase <;> simp [Carry.emits, hphase]
    rw [he, List.append_nil]
    exact h

theorem carry_sent {events : List CarryEvent} (hprobe : carrying.dial.probe ≠ none)
    (hr : (Carry.own carrying).run {} events = some carry) :
    carry.Sent (Carry.made carrying events) := by
  refine Machine.run_history (fun events carry =>
    Carry.Sent (Carry.made carrying events) carry) ?_ ?_ hr
  · rfl
  intro events carry event next hr h hown
  have hmade : Carry.made carrying (events ++ [event]) =
      Carry.made carrying events ++ carry.emits carrying event :=
    Machine.views_concat _ (Carry.emits carrying) hr hown
  rw [hmade]
  exact h.step hprobe hown

theorem Carry.Sent.short (h : carry.Sent made)
    (hsplicing : ∀ kept splice, carry.phase ≠ .splicing kept splice)
    (hreturned : carry.phase ≠ .returned) (stream : StreamId) :
    (carry.near stream).accepted.length ≤ HEADER_LEN := by
  unfold Carry.Sent at h
  split at h
  · simp [h]
  · exact h.short stream
  · exact h stream
  · rename_i hphase
    exact absurd hphase (hsplicing _ _)
  · rename_i hphase
    exact absurd hphase hreturned

-- Only a splice sends more than headers, and it starts once the dial was counted.
theorem Carry.Sent.established (hprobe : carrying.dial.probe ≠ none) (h : carry.Sent made)
    (hown : Carry.own carrying carry event = some next) :
    (∀ stream, (next.near stream).accepted.length ≤ HEADER_LEN) ∨
      0 < charge ClientUpdate.established made := by
  have hsent := h.step hprobe hown
  obtain ⟨after, hs⟩ := Carry.own_step hown
  obtain ⟨hphase, rfl, rfl⟩ | ⟨dial, waited, resumed, hphase, rfl, -, -, -, hnext⟩ |
    ⟨dialled, hphase, rfl, rfl⟩ | ⟨gaveUp, hphase, rfl, rfl⟩ |
    ⟨kept, splice, waited, resumed, hphase, -⟩ | ⟨time, rfl, rfl⟩ := Carry.step_cases hs
  · exact Or.inl (h.short (by simp [hphase]) (by simp [hphase]))
  · refine Or.inl (hsent.short ?_ ?_)
    · obtain ⟨result, -, hnext⟩ | hnext := hnext <;> simp [hnext]
    · obtain ⟨result, -, hnext⟩ | hnext := hnext <;> simp [hnext]
  · exact Or.inl (h.short (by simp [hphase]) (by simp [hphase]))
  · exact Or.inl (h.short (by simp [hphase]) (by simp [hphase]))
  · simp only [Carry.Sent, hphase] at h
    exact Or.inr h.1
  · cases hphase : carry.phase with
    | splicing kept splice =>
        simp only [Carry.Sent, hphase] at h
        exact Or.inr h.1
    | returned => simp [Carry.step, hphase] at hs
    | accepted | dialling _ | dialled _ =>
        exact Or.inl (h.short (by simp [hphase]) (by simp [hphase]))

end

section

variable {carrying : Carrying} {events : List (Machine.CrewEvent CarryEvent)} {carriers : Carriers}
  {member : Machine.Member Carry ClientUpdate}

-- A connection is counted as established before it sends anything for its wallet.
theorem Carriers.established (hprobe : carrying.dial.probe ≠ none)
    (hr : (Carriers.step carrying).run .start events = some carriers)
    (hmember : member ∈ carriers.members) {stream : StreamId}
    (hmore : HEADER_LEN < (member.state.near stream).accepted.length) :
    0 < charge ClientUpdate.established member.log := by
  have hsettled := Machine.crew_settled (fun log (carry : Carry) =>
    (∀ stream, (carry.near stream).accepted.length ≤ HEADER_LEN) ∨
      0 < charge ClientUpdate.established log)
    (Or.inl fun _ => Nat.zero_le _) ?_ ?_ hr hmember
  · obtain hshort | hestablished := hsettled
    · exact absurd (hshort stream) (Nat.not_le_of_lt hmore)
    · exact hestablished
  · intro log update carry h
    have hmore := charge_prefix ClientUpdate.established (List.prefix_append log [update])
    exact h.imp_right fun hestablished => hestablished.trans_le hmore
  · intro own carry taken next hrun _ hown
    exact (carry_sent hprobe hrun).established hprobe hown

end

end LwdMixnet
