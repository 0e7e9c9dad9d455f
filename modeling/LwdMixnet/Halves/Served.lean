import LwdMixnet.Serve.Carried
import LwdMixnet.Tunnel.Transparency

namespace LwdMixnet

namespace ServerUpdate

-- What one update adds to the counters of the upstream and of the bytes.
def connected (update : ServerUpdate) : Nat := (update == .upstreamConnection).toNat

def carried (direction : String) : ServerUpdate → Nat
  | .bytes other count => if direction = other then count else 0
  | _ => 0

end ServerUpdate

theorem ServerUpdate.apply_charged (update : ServerUpdate) (metrics : ServerMetrics) :
    (update.apply metrics).upstreamConnections =
      metrics.upstreamConnections + update.connected ∧
    ∀ direction, (update.apply metrics).bytes direction =
      metrics.bytes direction + update.carried direction := by
  cases update with
  | bytes direction count =>
      refine ⟨rfl, fun other => ?_⟩
      simp [ServerUpdate.apply, CounterVec.incBy_apply, ServerUpdate.carried]
  | streamAccepted | streamRejected _ | streamWithoutRequest | upstreamFailure
  | upstreamConnection | inFlight | ended _ | dropInFlight => exact ⟨rfl, fun _ => rfl⟩

-- What a task has counted is what it has carried, but for a chunk of what it returned.
structure Serve.Billed (made : List ServerUpdate) (serve : Serve) : Prop where
  connected : (made.map ServerUpdate.connected).sum = serve.upstream.isSome.toNat
  silent : serve.phase ≠ .returned →
    ∀ direction, (made.map (ServerUpdate.carried direction)).sum = 0
  carried : (made.map (ServerUpdate.carried "from_mixnet")).sum ≤
    serve.upstream.elim 0 fun upstream => upstream.accepted.length
  returned : serve.phase = .returned → serve.stream.accepted.length ≤ HEADER_LEN +
    ((made.map (ServerUpdate.carried "to_mixnet")).sum +
      COPY_BUFFER * (made.map ServerUpdate.connected).sum)

section

variable {settings : ServeSettings} {serve next : Serve} {event : ServeEvent}

theorem Duplex.Greeted.short {far : Duplex} (h : far.Greeted) :
    far.accepted.length ≤ HEADER_LEN := by
  obtain hnothing | ⟨header, -, -, -, haccepted⟩ := h
  · rw [hnothing]
    exact Nat.zero_le _
  · rw [← encode_length header]
    exact haccepted.length_le

-- Nothing but a greeting was given to the stream before the splice.
theorem Serve.Sound.unreturned (h : serve.Sound) (hreturned : serve.phase ≠ .returned)
    (hsplicing : ∀ splice, serve.phase ≠ .splicing splice) :
    serve.stream.accepted.length ≤ HEADER_LEN := by
  unfold Serve.Sound at h
  split at h
  · exact h.2.greeted.short
  · exact h.2.greeted.short
  · exact h.2.2.greeted.short
  · obtain ⟨written, -, -, hrelays⟩ := h
    exact hrelays.greeted.short
  · rename_i splice hphase
    exact absurd hphase (hsplicing splice)
  · rename_i hphase
    exact absurd hphase hreturned

-- Before the splice a step counts no bytes.
theorem Serve.emits_unspliced (settings : ServeSettings) (event : ServeEvent)
    (hsplicing : ∀ splice, serve.phase ≠ .splicing splice) (direction : String) :
    ((serve.emits settings event).map (ServerUpdate.carried direction)).sum = 0 := by
  unfold Serve.emits
  split
  · split <;> rfl
  · split_ifs <;> rfl
  · rfl
  · rfl
  · rfl
  · rfl
  · rfl
  · split <;> rfl
  · rename_i splice waited hphase
    exact absurd hphase (hsplicing splice)
  · rfl

theorem Serve.emits_unconnected (settings : ServeSettings) (serve : Serve)
    (hevent : event ≠ .connected) :
    ((serve.emits settings event).map ServerUpdate.connected).sum = 0 := by
  unfold Serve.emits
  split
  · split <;> rfl
  · split_ifs <;> rfl
  · rfl
  · rfl
  · exact absurd rfl hevent
  · rfl
  · rfl
  · split <;> rfl
  · split <;> rfl
  · rfl

-- The step that ends a splice counts what it carried, and no other step of one counts.
theorem Serve.emits_splicing {splice : Splice}
    (hown : Serve.own settings serve event = some next) (hphase : serve.phase = .splicing splice) :
    ∃ waited resumed, splice.step waited = some resumed ∧
      next.stream = splice.remoteEnd serve.stream waited ∧
      next.upstream = serve.upstream.map (splice.localEnd · waited) ∧
      (next.phase = .splicing resumed ∧ serve.emits settings event = [] ∨
        ∃ transfer reason, resumed.ended = some (transfer, reason) ∧ next.phase = .returned ∧
          serve.emits settings event = serverFinished transfer reason ++ [.dropInFlight]) := by
  obtain ⟨after, hs⟩ := Serve.own_step hown
  simp only [Serve.step, hphase] at hs
  cases event with
  | splice waited =>
      have hstream : serve.stream.move (serve.taken (.splice waited))
          (serve.given (.splice waited)) = splice.remoteEnd serve.stream waited := by
        cases waited <;> simp [Serve.taken, Serve.given, hphase, Splice.remoteEnd, Duplex.move]
      simp only [hstream] at hs
      cases hstep : splice.step waited with
      | none => simp [hstep] at hs
      | some resumed =>
          simp only [hstep] at hs
          cases hended : resumed.ended with
          | none =>
              simp only [hended] at hs
              obtain ⟨-, rfl⟩ := Prod.mk.inj (Option.some.inj hs)
              exact ⟨waited, resumed, hstep, rfl, rfl,
                Or.inl ⟨rfl, by simp [Serve.emits, hphase, hstep, hended]⟩⟩
          | some verdict =>
              simp only [hended] at hs
              obtain ⟨-, rfl⟩ := Prod.mk.inj (Option.some.inj hs)
              exact ⟨waited, resumed, hstep, rfl, rfl, Or.inr ⟨verdict.1, verdict.2, hended, rfl,
                by simp [Serve.emits, hphase, hstep, hended]⟩⟩
  | elapse time => simp [ServePhase.allows] at hs
  | stream _ | connected | refused _ | upstream _ => cases hs

theorem serverFinished_counts (transfer : Transfer) (reason : Ended) :
    ((serverFinished transfer reason ++ [ServerUpdate.dropInFlight]).map
      ServerUpdate.connected).sum = 0 ∧
    ((serverFinished transfer reason ++ [ServerUpdate.dropInFlight]).map
      (ServerUpdate.carried "from_mixnet")).sum = transfer.fromRemote ∧
    ((serverFinished transfer reason ++ [ServerUpdate.dropInFlight]).map
      (ServerUpdate.carried "to_mixnet")).sum = transfer.toRemote := by
  simp [serverFinished, ServerUpdate.connected, ServerUpdate.carried]

-- Where a task returns without a splice, its stream was given no more than a greeting.
theorem Serve.Sound.returns (h : serve.Sound) (hown : Serve.own settings serve event = some next)
    (hsplicing : ∀ splice, serve.phase ≠ .splicing splice) (hgoes : serve.phase ≠ .returned)
    (hreturned : next.phase = .returned) : next.stream.accepted.length ≤ HEADER_LEN := by
  obtain ⟨after, hs⟩ := Serve.own_step hown
  have hnext := h.step hs
  have hshort := h.unreturned hgoes hsplicing
  unfold Serve.Sound at h
  obtain ⟨accept, waited, resumed, hphase, rfl, -, -, hupstream, -⟩ |
    ⟨deadline, opening, -, rfl, -, rfl⟩ | ⟨opening, -, rfl, rfl⟩ |
    ⟨rest, count, -, rfl, -, hstream, -⟩ | ⟨splice, waited, resumed, hphase, -⟩ | ⟨rfl, -⟩ |
    ⟨time, rfl, -, rfl⟩ := Serve.step_cases hs
  · rw [hphase] at h
    simp only [Serve.Sound, hreturned] at hnext
    obtain ⟨-, hgreeted⟩ | ⟨upstream, hsome, -⟩ := hnext
    · exact hgreeted.short
    · rw [hupstream, h.1] at hsome
      cases hsome
  · cases hreturned
  · cases hreturned
  · rwa [hstream]
  · exact absurd hphase (hsplicing splice)
  · exact hshort
  · exact hshort

theorem Serve.Billed.step {made : List ServerUpdate} (h : serve.Billed made) (hsound : serve.Sound)
    (hspliced : serve.Spliced) (hown : Serve.own settings serve event = some next) :
    next.Billed (made ++ serve.emits settings event) := by
  obtain ⟨hconnected, hsilent, hcarried, hreturned⟩ := h
  by_cases hsplicing : ∃ splice, serve.phase = .splicing splice
  · obtain ⟨splice, hphase⟩ := hsplicing
    obtain ⟨opening, flows, hsplices⟩ := hspliced splice hphase
    obtain ⟨waited, resumed, hstep, hstream, hupstream, hnext⟩ := Serve.emits_splicing hown hphase
    have hsome : serve.upstream.isSome = true := by rw [hsplices.2.2.1, Option.isSome_some]
    obtain ⟨-, hcopies, hupstream, wire, header, -, -, hrelays⟩ :=
      hsplices.step hstep hstream hupstream
    have hgoes : serve.phase ≠ .returned := by simp [hphase]
    rw [hsome] at hconnected
    obtain ⟨hnext, he⟩ | ⟨transfer, reason, hended, hnext, he⟩ := hnext
    · rw [he, List.append_nil]
      refine ⟨by rw [hconnected, hupstream, Option.isSome_some], fun _ => hsilent hgoes, ?_,
        fun hreturned => by simp [hnext] at hreturned⟩
      rw [hsilent hgoes]
      exact Nat.zero_le _
    · obtain ⟨rfl, -⟩ := hcopies.reported transfer reason hended
      have hforth := (hcopies.ways .inbound).counted.counted
      have hback := (hcopies.ways .outbound).counted.uncounted
      have hgreeting : header.greeting.length ≤ HEADER_LEN := by
        rw [Header.greeting]
        split_ifs
        · rw [encode_length]
        · exact Nat.zero_le _
      have hreturn : (flows.move splice waited).remote.accepted =
        (flows.move splice waited .outbound).accepted := rfl
      obtain ⟨hnone, hfrom, hto⟩ :=
        serverFinished_counts resumed.watch.activity.transfer reason
      rw [he]
      have hopened : ((made ++ (serverFinished resumed.watch.activity.transfer reason ++
          [ServerUpdate.dropInFlight])).map ServerUpdate.connected).sum = 1 := by
        rw [List.map_append, List.sum_append, hconnected, hnone, Nat.add_zero]
        rfl
      have hsent : ((made ++ (serverFinished resumed.watch.activity.transfer reason ++
          [ServerUpdate.dropInFlight])).map (ServerUpdate.carried "to_mixnet")).sum =
          (resumed.watch.activity.direction .outbound).bytes := by
        rw [List.map_append, List.sum_append, hsilent hgoes, hto, Nat.zero_add]
        rfl
      refine ⟨?_, fun hgoes => absurd hnext hgoes, ?_, fun _ => ?_⟩
      · rw [hopened, hupstream, Option.isSome_some]
        rfl
      · rw [List.map_append, List.sum_append, hsilent hgoes, hfrom, Nat.zero_add, hupstream,
          Option.elim_some]
        refine hforth.trans ?_
        simp [Duplex.after, Duplex.move, Flows.local]
      · rw [hopened, hsent, hrelays, List.length_append, hreturn]
        omega
  · simp only [not_exists] at hsplicing
    have hcounts := Serve.emits_unspliced settings event hsplicing
    have hbytes (direction : String) :
        ((made ++ serve.emits settings event).map (ServerUpdate.carried direction)).sum =
          (made.map (ServerUpdate.carried direction)).sum := by
      rw [List.map_append, List.sum_append, hcounts, Nat.add_zero]
    have hopened : next.upstream.isSome.toNat = serve.upstream.isSome.toNat +
        ((serve.emits settings event).map ServerUpdate.connected).sum := by
      obtain ⟨rfl, hnone, -, hsome⟩ | ⟨hne, hiff⟩ := hsound.connects hown
      · have hopens : ((serve.emits settings .connected).map ServerUpdate.connected).sum = 1 := by
          obtain ⟨after, hs⟩ := Serve.own_step hown
          unfold Serve.emits
          cases hphase : serve.phase with
          | connecting opening => rfl
          | splicing splice => exact absurd hphase (hsplicing splice)
          | accepting _ | awaitingRequest _ | writing _ | returned =>
              simp [Serve.step, hphase] at hs
        rw [hopens, hnone, Option.isSome_iff_ne_none.mpr hsome]
        rfl
      · have hsame : next.upstream.isSome = serve.upstream.isSome := by
          rw [Bool.eq_iff_iff, Option.isSome_iff_ne_none, Option.isSome_iff_ne_none]
          exact not_congr hiff
        rw [hsame, Serve.emits_unconnected settings serve hne, Nat.add_zero]
    by_cases hgoes : serve.phase = .returned
    · have hidle : next.phase = .returned ∧ next.stream = serve.stream ∧
          next.upstream = serve.upstream := by
        obtain ⟨after, hs⟩ := Serve.own_step hown
        have hreturned := Serve.returned_stays hs hgoes
        simp only [Serve.step, hgoes] at hs
        cases event with
        | elapse time =>
            simp only at hs
            split_ifs at hs
            obtain ⟨-, rfl⟩ := Prod.mk.inj (Option.some.inj hs)
            exact ⟨hreturned, rfl, rfl⟩
        | stream _ | connected | refused _ | upstream _ | splice _ => cases hs
      obtain ⟨hphase, hstream, hupstream⟩ := hidle
      rw [hupstream, Nat.left_eq_add] at hopened
      refine ⟨?_, fun hgoes => absurd hphase hgoes, ?_, fun _ => ?_⟩
      · rw [List.map_append, List.sum_append, hconnected, hopened, hupstream, Nat.add_zero]
      · rw [hbytes, hupstream]
        exact hcarried
      · rw [hbytes, hstream, List.map_append, List.sum_append, hopened, Nat.add_zero]
        exact hreturned hgoes
    · refine ⟨?_, fun _ direction => ?_, ?_, fun hreturns => ?_⟩
      · rw [List.map_append, List.sum_append, hconnected, hopened]
      · rw [hbytes, hsilent hgoes]
      · rw [hbytes, hsilent hgoes]
        exact Nat.zero_le _
      · exact (hsound.returns hown hsplicing hgoes hreturns).trans (Nat.le_add_right _ _)

theorem serve_billed {events : List ServeEvent}
    (hr : (Serve.own settings).run (.start settings) events = some serve) :
    serve.Billed (Serve.made settings events) := by
  refine Machine.run_history (fun events serve => serve.Billed (Serve.made settings events)) ?_ ?_
    hr
  · exact ⟨rfl, fun _ _ => rfl, Nat.le_refl _, fun hreturned => by cases hreturned⟩
  · intro events serve event next hr h hs
    have hmade : Serve.made settings (events ++ [event]) =
        Serve.made settings events ++ serve.emits settings event :=
      Machine.views_concat _ _ hr hs
    rw [hmade]
    exact h.step (serve_sound hr) (serve_spliced hr) hs

end

end LwdMixnet
