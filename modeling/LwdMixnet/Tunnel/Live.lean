import LwdMixnet.Serve.Deadlines
import LwdMixnet.Splice.Live
import LwdMixnet.Tunnel.Transparency

namespace LwdMixnet

def Carry.Live (carry : Carry) : Prop :=
  ∀ stream splice, carry.phase = .splicing stream splice → splice.Live

def Accept.Live : Accept → Prop
  | .echoing _ (.writing rest) => rest ≠ []
  | .reading _ (.reading _) | .echoing _ .flushing => True
  | _ => False

-- A task that has bytes to write wherever it writes, and goes on.
def Serve.Live (serve : Serve) : Prop :=
  match serve.phase with
  | .accepting accept => accept.Live
  | .connecting rest | .writing rest => rest ≠ []
  | .splicing splice => splice.Live
  | .awaitingRequest _ | .returned => True

structure Tunnel.Live (tunnel : Tunnel) : Prop where
  carry : tunnel.carry.Live
  serve : ∀ id serve, (tunnel.lanes id).serve = some serve → serve.Live

section

variable {carrying : Carrying} {carry next : Carry}

theorem Carry.own_splice {stream : StreamId} {splice resumed : Splice} {waited : SpliceEvent}
    (hphase : carry.phase = .splicing stream splice) (hs : splice.step waited = some resumed)
    (hgoes : resumed.ended = none) : Carry.own carrying carry (.splice waited) = some { carry with
      waited := carry.waited + waited.delay
      wallet := splice.localEnd carry.wallet waited
      near := moveAt carry.near (carry.moved (.splice waited))
      phase := .splicing stream resumed } := by
  simp [Carry.own, Carry.step, hphase, hs, hgoes]

theorem Carry.Live.step {event : CarryEvent} (h : carry.Live)
    (hs : Carry.own carrying carry event = some next) : next.Live := by
  obtain ⟨after, hs⟩ := Carry.own_step hs
  intro stream splice hsplicing
  obtain ⟨-, rfl, rfl⟩ | ⟨dial, waited, resumed, -, rfl, -, -, -, hnext⟩ |
    ⟨dialled, -, rfl, rfl⟩ | ⟨gaveUp, -, rfl, rfl⟩ |
    ⟨kept, before, waited, resumed, hphase, rfl, hsplice, -, -, hnext⟩ |
    ⟨time, rfl, rfl⟩ := Carry.step_cases hs
  · cases hsplicing
  · obtain ⟨result, -, hnext⟩ | hnext := hnext
    · rw [hnext] at hsplicing
      cases hsplicing
    · rw [hnext] at hsplicing
      cases hsplicing
  · obtain ⟨-, rfl⟩ := CarryPhase.splicing.inj hsplicing
    exact Splice.start_live _
  · cases hsplicing
  · simp only [Carry.step, hphase, hsplice] at hs
    cases hended : resumed.ended with
    | none =>
        obtain hnext | hnext := hnext
        · rw [hnext] at hsplicing
          obtain ⟨-, rfl⟩ := CarryPhase.splicing.inj hsplicing
          exact (h kept before hphase).step hsplice hended
        · rw [hnext] at hsplicing
          cases hsplicing
    | some verdict =>
        rw [hended] at hs
        obtain ⟨-, rfl⟩ := Prod.mk.inj (Option.some.inj hs)
        cases hsplicing
  · exact h stream splice hsplicing

end

section

variable {settings : ServeSettings} {serve next : Serve}

theorem Serve.own_spliced (settings : ServeSettings) {splice resumed : Splice}
    {waited : SpliceEvent} (hphase : serve.phase = .splicing splice)
    (hs : splice.step waited = some resumed) (hgoes : resumed.ended = none) :
    Serve.own settings serve (.splice waited) = some {
      elapsed := serve.elapsed + waited.delay
      stream := serve.stream.move (serve.taken (.splice waited)) (serve.given (.splice waited))
      upstream := serve.upstream.map (splice.localEnd · waited)
      phase := .splicing resumed } := by
  simp [Serve.own, Serve.step, hphase, hs, hgoes]

theorem Accept.Live.step {timeout now : Nat} {accept resumed : Accept} {event : WaitEvent}
    (h : accept.Live) (hs : accept.step timeout now event = some resumed)
    (hgoes : ∀ result, resumed ≠ .returned result) : resumed.Live := by
  unfold Accept.step at hs
  split at hs
  · rename_i deadline read io
    split at hs
    · rename_i header hread
      split_ifs at hs
      · cases hs
        intro hnothing
        have hlen := congrArg List.length hnothing
        simp [encode_length, HEADER_LEN] at hlen
      · cases hs
        exact absurd rfl (hgoes _)
    · cases hs
      exact absurd rfl (hgoes _)
    · rename_i later hok herror hread
      cases hs
      cases later with
      | reading got => trivial
      | returned result =>
          cases result with
          | ok header => exact absurd rfl (hok header)
          | error error => exact absurd rfl (herror error)
    · cases hs
  · split_ifs at hs
    cases hs
    exact absurd rfl (hgoes _)
  · rename_i header write io
    split at hs
    · cases hs
      exact absurd rfl (hgoes _)
    · cases hs
      exact absurd rfl (hgoes _)
    · rename_i later hok herror hwrite
      cases hs
      obtain rfl | ⟨rest, hne, rfl⟩ := WriteHeader.step_live hwrite hok herror
      · trivial
      · exact hne
    · cases hs
  · cases hs

theorem Serve.Live.step {event : ServeEvent} (h : serve.Live)
    (hs : Serve.own settings serve event = some next) : next.Live := by
  have hown := hs
  obtain ⟨after, hs⟩ := Serve.own_step hs
  unfold Serve.Live at h
  obtain ⟨accept, waited, resumed, hphase, rfl, ha, -, -, -, hnext⟩ |
    ⟨deadline, opening, hphase, rfl, hopening, rfl⟩ | ⟨opening, hphase, rfl, rfl⟩ |
    ⟨rest, count, hphase, rfl, -, -, -, hnext⟩ |
    ⟨splice, waited, resumed, hphase, rfl, hsplice, -, -, -, -⟩ |
    ⟨rfl, -⟩ | ⟨time, rfl, -, rfl⟩ := Serve.step_cases hs
  · rw [hphase] at h
    obtain ⟨header, -, hnext⟩ | ⟨error, -, hnext⟩ | ⟨hgoes, hnext⟩ := hnext
    · simp [Serve.Live, hnext]
    · simp [Serve.Live, hnext]
    · simp only [Serve.Live, hnext]
      exact h.step ha hgoes
  · exact hopening
  · rw [hphase] at h
    exact h
  · obtain ⟨left, hw, hnext⟩ | ⟨-, hnext⟩ := hnext
    · simp only [Serve.Live, hnext]
      exact (writeAll_pending hw).2
    · simp only [Serve.Live, hnext]
      exact Splice.start_live _
  · rw [hphase] at h
    obtain ⟨hnone, -⟩ | ⟨later, after, hlater, hafter, -, hnext⟩ :=
      @Serve.own_splice settings serve splice hphase waited
    · rw [hsplice] at hnone
      cases hnone
    · obtain rfl := Option.some.inj (hsplice.symm.trans hlater)
      obtain rfl := Option.some.inj (hown.symm.trans hafter)
      split_ifs at hnext with hended
      · simp only [Serve.Live, hnext]
        exact Splice.Live.step h hsplice hended
      · simp [Serve.Live, hnext]
  · simp [Serve.Live]
  · exact h

end

section

variable {carrying : Carrying} {settings : ServeSettings} {tunnel next : Tunnel}

theorem Tunnel.Live.step {event : TunnelEvent} (h : tunnel.Live)
    (hs : Tunnel.step carrying settings tunnel event = some next) : next.Live := by
  obtain ⟨hcarry, hserve⟩ := h
  have hset (stream : StreamId) (resumed : Serve) (hlive : resumed.Live)
      (hlanes : ∀ id, (next.lanes id).serve =
        if id = stream then some resumed else (tunnel.lanes id).serve) (id : StreamId)
      (serve : Serve) (hsome : (next.lanes id).serve = some serve) : serve.Live := by
    rw [hlanes] at hsome
    split_ifs at hsome with hid
    · obtain rfl := Option.some.inj hsome
      exact hlive
    · exact hserve id serve hsome
  obtain ⟨carried, rfl, hstep, -, hlanes⟩ | ⟨stream, rfl, -, hsame, -, hlanes⟩ |
    ⟨stream, served, serve, resumed, rfl, hsome, hstep, hsame, -, hlanes⟩ |
    ⟨stream, count, -, hsame, -, -, hlanes⟩ := Tunnel.step_cases hs
  · exact ⟨hcarry.step hstep, fun id serve hsome => hserve id serve (hlanes id ▸ hsome)⟩
  · exact ⟨hsame ▸ hcarry, hset stream (.start settings) trivial hlanes⟩
  · exact ⟨hsame ▸ hcarry, hset stream _ ((hserve stream serve hsome).step hstep) hlanes⟩
  · exact ⟨hsame ▸ hcarry, fun id serve hsome => hserve id serve (hlanes id ▸ hsome)⟩

theorem tunnel_live {events : List TunnelEvent}
    (hr : (Tunnel.step carrying settings).run {} events = some tunnel) : tunnel.Live := by
  refine Machine.run_invariant Tunnel.Live (fun _ _ _ h hs => h.step hs) ?_ hr
  refine ⟨fun stream splice hsplicing => ?_, fun id serve hsome => ?_⟩
  · cases hsplicing
  · cases hsome

end

end LwdMixnet
