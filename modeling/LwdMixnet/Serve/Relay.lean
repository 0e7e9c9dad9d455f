import LwdMixnet.Serve

namespace LwdMixnet

def Header.greeting (header : Header) : Bytes :=
  if header.echoRequested then header.encode else []

-- A stream that began with a header of ours, which was answered as it asked,
-- and has since carried `carried` to this half and `returned` from it.
def Serve.Relays (serve : Serve) (carried returned : Bytes) : Prop :=
  ∃ wire header, wire.length = HEADER_LEN ∧ Header.decode wire = .ok header ∧
    serve.stream = ⟨wire ++ carried, header.greeting ++ returned⟩

-- What reached the upstream starts what the stream carried, and what the
-- stream was given starts what came from the upstream.
def Serve.Relayed (serve : Serve) (upstream : Duplex) : Prop :=
  ∃ carried returned, carried ≠ [] ∧ serve.Relays carried returned ∧
    upstream.accepted <+: carried ∧ returned <+: upstream.consumed

-- A stream that was given no more than the greeting that its header asks for.
def Duplex.Greeted (far : Duplex) : Prop :=
  far.accepted = [] ∨ ∃ header, header.echoRequested ∧ HEADER_LEN ≤ far.consumed.length ∧
    Header.decode (far.consumed.take HEADER_LEN) = .ok header ∧ far.accepted <+: header.encode

def Serve.Sound (serve : Serve) : Prop :=
  match serve.phase with
  | .accepting accept => serve.upstream = none ∧ accept.Answered serve.stream
  | .awaitingRequest _ => serve.upstream = none ∧ serve.Relays [] []
  | .connecting opening => serve.upstream = none ∧ opening ≠ [] ∧ serve.Relays opening []
  | .writing rest => ∃ written, serve.upstream = some ⟨[], written⟩ ∧ rest ≠ [] ∧
      serve.Relays (written ++ rest) []
  | .splicing splice => ∃ opening near far, opening ≠ [] ∧ splice.Conserves near far ∧
      serve.upstream = some (near.after ⟨[], opening⟩) ∧
      serve.Relays (opening ++ far.consumed) far.accepted
  | .returned => serve.upstream = none ∧ serve.stream.Greeted ∨
      ∃ upstream, serve.upstream = some upstream ∧ serve.Relayed upstream

theorem Serve.Relays.congr {serve next : Serve} {carried returned : Bytes}
    (h : serve.Relays carried returned) (hstream : next.stream = serve.stream) :
    next.Relays carried returned := by
  obtain ⟨wire, header, hlen, hdecode, hsame⟩ := h
  exact ⟨wire, header, hlen, hdecode, hstream.trans hsame⟩

theorem Serve.Relays.length {serve : Serve} {carried returned : Bytes}
    (h : serve.Relays carried returned) :
    serve.stream.consumed.length = HEADER_LEN + carried.length := by
  obtain ⟨wire, header, hlen, -, hstream⟩ := h
  rw [hstream, List.length_append, hlen]

theorem Serve.Relays.greeted {serve : Serve} {carried : Bytes} (h : serve.Relays carried []) :
    serve.stream.Greeted := by
  obtain ⟨wire, header, hlen, hdecode, hstream⟩ := h
  rw [hstream, Duplex.Greeted]
  by_cases hecho : header.echoRequested
  · refine Or.inr ⟨header, hecho, ?_, ?_, ?_⟩
    · rw [List.length_append, hlen]
      exact Nat.le_add_right _ _
    · rwa [← hlen, List.take_left]
    · simp [Header.greeting, hecho]
  · simp [Header.greeting, hecho]

theorem Accept.Answered.greeted {far : Duplex} {accept : Accept} (h : accept.Answered far) :
    far.Greeted := by
  by_cases hnothing : far.accepted = []
  · exact Or.inl hnothing
  · obtain ⟨header, hecho, hlen, hdecode, haccepted⟩ := h.echoed hnothing
    refine Or.inr ⟨header, hecho, hlen.ge, ?_, haccepted⟩
    rwa [List.take_of_length_le hlen.le]

-- Wherever the task stands, the stream has only been given a greeting, or the
-- two ends are relayed.
theorem Serve.Sound.relayed {serve : Serve} (h : serve.Sound) :
    serve.upstream = none ∧ serve.stream.Greeted ∨
      ∃ upstream, serve.upstream = some upstream ∧ serve.Relayed upstream := by
  unfold Serve.Sound at h
  split at h
  · exact Or.inl ⟨h.1, h.2.greeted⟩
  · exact Or.inl ⟨h.1, h.2.greeted⟩
  · exact Or.inl ⟨h.1, h.2.2.greeted⟩
  · rename_i rest hphase
    obtain ⟨written, hupstream, hrest, hrelays⟩ := h
    exact Or.inr ⟨_, hupstream, _, [], by simp [hrest], hrelays, List.prefix_append _ _,
      List.nil_prefix⟩
  · rename_i splice hphase
    obtain ⟨opening, near, far, hopening, hconserves, hupstream, hrelays⟩ := h
    refine Or.inr ⟨_, hupstream, _, _, by simp [hopening], hrelays, ?_, ?_⟩
    · simpa [Duplex.after] using hconserves.inbound.aligned
    · simpa [Duplex.after] using hconserves.outbound.aligned
  · exact h

theorem Serve.Sound.step {settings : ServeSettings} {metrics after : ServerMetrics}
    {serve next : Serve} {event : ServeEvent} (h : serve.Sound)
    (hs : Serve.step settings (metrics, serve) event = some (after, next)) : next.Sound := by
  have hrelayed := h.relayed
  unfold Serve.Sound at h
  obtain ⟨accept, waited, resumed, hphase, rfl, ha, -, hupstream, hstream, hnext⟩ |
    ⟨deadline, opening, hphase, rfl, hopening, rfl⟩ | ⟨opening, hphase, rfl, rfl⟩ |
    ⟨rest, count, hphase, rfl, -, hstream, hupstream, hnext⟩ |
    ⟨splice, waited, resumed, hphase, rfl, hsplice, -, hstream, hupstream, hnext⟩ |
    ⟨rfl, -⟩ | ⟨time, rfl, -, rfl⟩ := Serve.step_cases hs
  · rw [hphase] at h
    have hanswered := h.2.step ha
    rw [← hstream] at hanswered
    have hnone : next.upstream = none := hupstream.trans h.1
    obtain ⟨header, rfl, hnext⟩ | ⟨error, rfl, hnext⟩ | ⟨-, hnext⟩ := hnext
    · obtain ⟨hlen, hdecode, haccepted⟩ := hanswered
      simp only [Serve.Sound, hnext]
      exact ⟨hnone, _, header, hlen, hdecode, Duplex.ext (by simp)
        (by simpa [Header.greeting] using haccepted)⟩
    · simp only [Serve.Sound, hnext]
      exact Or.inl ⟨hnone, hanswered.greeted⟩
    · simp only [Serve.Sound, hnext]
      exact ⟨hnone, hanswered⟩
  · rw [hphase] at h
    obtain ⟨hnone, wire, header, hlen, hdecode, hstream⟩ := h
    refine ⟨hnone, hopening, wire, header, hlen, hdecode, ?_⟩
    simp [hstream, Duplex.move]
  · rw [hphase] at h
    exact ⟨[], rfl, h.2⟩
  · rw [hphase] at h
    obtain ⟨written, hsome, hrest, hrelays⟩ := h
    rw [hsome] at hupstream
    have hrelays := hrelays.congr hstream
    obtain ⟨left, hw, hnext⟩ | ⟨hw, hnext⟩ := hnext
    · obtain ⟨hleft, hne⟩ := writeAll_pending hw
      simp only [Serve.Sound, hnext]
      refine ⟨written ++ rest.take count, hupstream, hne, ?_⟩
      rwa [List.append_assoc, hleft]
    · have hall : next.upstream = some (Duplex.after {} ⟨[], written ++ rest⟩) := by
        simp [hupstream, Duplex.move, Duplex.after, writeAll_complete hw]
      simp only [Serve.Sound, hnext]
      refine ⟨written ++ rest, {}, {}, by simp [hrest], Splice.start_conserves _, hall, ?_⟩
      rw [List.append_nil]
      exact hrelays
  · rw [hphase] at h
    obtain ⟨opening, near, far, hopening, hconserves, hsome, hrelays⟩ := h
    obtain ⟨wire, header, hlen, hdecode, hsame⟩ := hrelays
    have hconserves' := hconserves.step hsplice
    rw [hsome, Option.map_some, Splice.localEnd_after] at hupstream
    have hafter : serve.stream = far.after ⟨wire ++ opening, header.greeting⟩ := by
      simp [hsame, Duplex.after, Duplex.move]
    rw [hafter, Splice.remoteEnd_after] at hstream
    have hrelays : next.Relays (opening ++ (splice.remoteEnd far waited).consumed)
        (splice.remoteEnd far waited).accepted :=
      ⟨wire, header, hlen, hdecode, by simp [hstream, Duplex.after, Duplex.move]⟩
    obtain hnext | hnext := hnext
    · simp only [Serve.Sound, hnext]
      exact ⟨opening, _, _, hopening, hconserves', hupstream, hrelays⟩
    · simp only [Serve.Sound, hnext]
      refine Or.inr ⟨_, hupstream, _, _, by simp [hopening], hrelays, ?_, ?_⟩
      · simpa [Duplex.after] using hconserves'.inbound.aligned
      · simpa [Duplex.after] using hconserves'.outbound.aligned
  · exact hrelayed
  · exact h

theorem Serve.start_sound (settings : ServeSettings) : (Serve.start settings).Sound :=
  ⟨rfl, ⟨rfl, by decide⟩, rfl⟩

end LwdMixnet
