import LwdMixnet.Tunnel.Live

namespace LwdMixnet

-- What came from the upstream so far.
def Serve.answered (serve : Serve) : Bytes :=
  (serve.upstream.map Duplex.consumed).getD []

-- The stream that the connection is carried over.
def Carry.kept (carry : Carry) : Option StreamId :=
  match carry.phase with
  | .splicing stream _ => some stream
  | _ => none

def Carry.work (carry : Carry) : Nat :=
  match carry.phase with
  | .splicing _ splice => splice.work
  | _ => 0

def Serve.work (serve : Serve) : Nat :=
  match serve.phase with
  | .accepting _ => 4
  | .awaitingRequest _ => 3
  | .connecting _ => 2
  | .writing _ => 1
  | .splicing splice => splice.work
  | .returned => 0

-- What is left to do until nothing of a stream is in flight.
def Tunnel.work (stream : StreamId) (tunnel : Tunnel) : Nat :=
  let lane := tunnel.lanes stream
  tunnel.carry.work + 3 * lane.outgoing.length + 3 * lane.incoming.length +
    (lane.serve.map Serve.work).getD 0

-- Both halves go on with the stream. The wallet has asked and the upstream has
-- answered so much.
structure Tunnel.Delivers (stream : StreamId) (asked answered : Bytes) (splice : Splice)
    (serve : Serve) (tunnel : Tunnel) : Prop where
  sound : tunnel.Sound
  live : tunnel.Live
  splicing : tunnel.carry.phase = .splicing stream splice
  wallet : tunnel.carry.wallet.consumed = asked
  serving : (tunnel.lanes stream).serve = some serve
  running : serve.phase ≠ .returned
  upstream : serve.answered = answered

def Serve.Idle (serve : Serve) : Prop :=
  match serve.phase with
  | .awaitingRequest _ => True
  | .splicing splice => ∀ way, splice.pump way = .reading
  | _ => False

structure Tunnel.Arrived (stream : StreamId) (tunnel : Tunnel) : Prop where
  near : ∀ splice, tunnel.carry.phase = .splicing stream splice →
    ∀ way, splice.pump way = .reading
  far : ∀ serve, (tunnel.lanes stream).serve = some serve → serve.Idle
  outgoing : (tunnel.lanes stream).outgoing = []
  incoming : (tunnel.lanes stream).incoming = []

-- A write that is taken, or a flush.
def IoEvent.writes : IoEvent → Bool
  | .wrote _ | .flushed => true
  | .read _ | .failed _ => false

-- One of these, or a read of what has arrived.
def IoEvent.moves : IoEvent → Bool
  | .read chunk => chunk ≠ []
  | .wrote _ | .flushed => true
  | .failed _ => false

-- The local end is written to, and is not read from.
def SpliceEvent.moves : SpliceEvent → Bool
  | .outbound event => event.writes
  | .inbound event => event.moves
  | .elapse _ | .tick => false

def ServeEvent.moves : ServeEvent → Bool
  | .stream (.io event) => event.moves
  | .upstream event => event.writes
  | .splice event => event.moves
  | .connected => true
  | .stream .expired | .refused _ | .elapse _ => false

-- The two tasks of a stream move what is under way on it: they write, flush, read what
-- is in flight and, where it is due, connect. No time passes, nothing is accepted or
-- lost, and neither the wallet nor the upstream is read.
def TunnelEvent.moves (stream : StreamId) : TunnelEvent → Bool
  | .carry (.splice event) => event.moves
  | .serve other event => other = stream && event.moves
  | .carry _ | .accept _ | .loseOutgoing _ _ | .loseIncoming _ _ => false

section

variable (carrying : Carrying) (settings : ServeSettings) (stream : StreamId)
  (asked answered : Bytes)

-- Some event of its two tasks gets the work of a stream on.
def Tunnel.Advances (tunnel : Tunnel) : Prop :=
  ∃ event next splice serve, event.moves stream ∧
    Tunnel.step carrying settings tunnel event = some next ∧
    next.Delivers stream asked answered splice serve ∧ next.work stream < tunnel.work stream

end

section

variable {carrying : Carrying} {settings : ServeSettings} {tunnel : Tunnel}
  {stream : StreamId} {splice resumed : Splice} {serve : Serve} {asked answered : Bytes}

theorem Tunnel.carry_step (settings : ServeSettings) {waited : SpliceEvent} {taken given : Bytes}
    (hphase : tunnel.carry.phase = .splicing stream splice)
    (hs : splice.step waited = some resumed) (hgoes : resumed.ended = none)
    (hmoved : tunnel.carry.moved (.splice waited) = some ⟨stream, taken, given⟩)
    (htaken : taken <+: (tunnel.lanes stream).incoming) :
    ∃ next, Tunnel.step carrying settings tunnel (.carry (.splice waited)) = some next ∧
      next.carry.phase = .splicing stream resumed ∧
      next.carry.wallet = splice.localEnd tunnel.carry.wallet waited ∧
      next.lanes stream = { tunnel.lanes stream with
        outgoing := (tunnel.lanes stream).outgoing ++ given
        incoming := (tunnel.lanes stream).incoming.drop taken.length } := by
  have hown := @Carry.own_splice carrying tunnel.carry stream splice resumed waited hphase hs hgoes
  simp only [Tunnel.step, hown, hmoved, if_pos htaken]
  refine ⟨_, rfl, rfl, rfl, ?_⟩
  exact (Tunnel.set_lanes _ _ _ _).trans (if_pos rfl)

theorem Tunnel.serve_step (carrying : Carrying) {served : ServeEvent} {resumed : Serve}
    (hserve : (tunnel.lanes stream).serve = some serve)
    (hs : Serve.own settings serve served = some resumed)
    (htaken : serve.taken served <+: (tunnel.lanes stream).outgoing) :
    ∃ next, Tunnel.step carrying settings tunnel (.serve stream served) = some next ∧
      next.carry = tunnel.carry ∧ next.lanes stream = {
        serve := some resumed
        outgoing := (tunnel.lanes stream).outgoing.drop (serve.taken served).length
        incoming := (tunnel.lanes stream).incoming ++ serve.given served } := by
  simp only [Tunnel.step, hserve, hs, if_pos htaken]
  refine ⟨_, rfl, rfl, ?_⟩
  exact (Tunnel.set_lanes _ _ _ _).trans (if_pos rfl)

-- The splice of the dialling half does some of the work.
theorem Tunnel.Delivers.carries (settings : ServeSettings) {waited : SpliceEvent}
    {taken given : Bytes} (hprobe : carrying.dial.probe ≠ none)
    (h : tunnel.Delivers stream asked answered splice serve)
    (hs : splice.step waited = some resumed) (hmoves : waited.moves)
    (hgoes : resumed.ended = none)
    (hmoved : tunnel.carry.moved (.splice waited) = some ⟨stream, taken, given⟩)
    (htaken : taken <+: (tunnel.lanes stream).incoming)
    (hkept : (splice.localEnd tunnel.carry.wallet waited).consumed = asked)
    (hless : resumed.work + 3 * given.length < splice.work + 3 * taken.length) :
    tunnel.Advances carrying settings stream asked answered := by
  obtain ⟨next, hstep, hphase, hwallet, hlane⟩ :=
    @Tunnel.carry_step carrying tunnel stream splice resumed settings waited taken given
      h.splicing hs hgoes hmoved htaken
  have hown : (TunnelEvent.carry (.splice waited)).moves stream := hmoves
  refine ⟨_, next, resumed, serve, hown, hstep, ?_, ?_⟩
  · refine ⟨h.sound.step hprobe hstep, h.live.step hstep, hphase, ?_, ?_, h.running, h.upstream⟩
    · rw [hwallet, hkept]
    · rw [hlane]
      exact h.serving
  · have hle := htaken.length_le
    simp only [Tunnel.work, Carry.work, hphase, h.splicing, hlane, List.length_append,
      List.length_drop]
    omega

-- The serving half does some of it.
theorem Tunnel.Delivers.serves {served : ServeEvent} {resumed : Serve}
    (hprobe : carrying.dial.probe ≠ none)
    (h : tunnel.Delivers stream asked answered splice serve)
    (hs : Serve.own settings serve served = some resumed) (hmoves : served.moves)
    (htaken : serve.taken served <+: (tunnel.lanes stream).outgoing)
    (hrunning : resumed.phase ≠ .returned) (hkept : resumed.answered = serve.answered)
    (hless : resumed.work + 3 * (serve.given served).length <
      serve.work + 3 * (serve.taken served).length) :
    tunnel.Advances carrying settings stream asked answered := by
  obtain ⟨next, hstep, hcarry, hlane⟩ :=
    @Tunnel.serve_step settings tunnel stream serve carrying served resumed h.serving hs htaken
  have hown : (TunnelEvent.serve stream served).moves stream := by
    simpa [TunnelEvent.moves] using hmoves
  refine ⟨_, next, splice, resumed, hown, hstep, ?_, ?_⟩
  · refine ⟨h.sound.step hprobe hstep, h.live.step hstep, ?_, ?_, ?_, hrunning,
      hkept.trans h.upstream⟩
    · rw [hcarry]
      exact h.splicing
    · rw [hcarry]
      exact h.wallet
    · rw [hlane]
  · have hle := htaken.length_le
    simp only [Tunnel.work, hcarry, hlane, h.serving, List.length_append, List.length_drop,
      Option.map_some, Option.getD_some]
    omega

-- What a pump that is not reading waits for.
theorem Pump.due_moves (pump : Pump) : pump.due.writes ∧ pump.due.moves := by
  cases pump <;> exact ⟨rfl, rfl⟩

theorem taken_of_ne {buffer : Bytes} {size : Nat} (hsize : 0 < size) (hne : buffer ≠ []) :
    buffer.take size ≠ [] ∧ (buffer.take size).length ≤ size ∧ buffer.take size <+: buffer ∧
      0 < (buffer.take size).length := by
  have hsome : buffer.take size ≠ [] := by
    simp only [ne_eq, List.take_eq_nil_iff, not_or]
    exact ⟨Nat.pos_iff_ne_zero.mp hsize, hne⟩
  exact ⟨hsome, List.length_take_le _ _, List.take_prefix _ _, List.length_pos_of_ne_nil hsome⟩

-- The dialling half has nothing under way, or can go on with it.
theorem Tunnel.Delivers.near (settings : ServeSettings) (hprobe : carrying.dial.probe ≠ none)
    (h : tunnel.Delivers stream asked answered splice serve) :
    ((∀ way, splice.pump way = .reading) ∧ (tunnel.lanes stream).incoming = []) ∨
      tunnel.Advances carrying settings stream asked answered := by
  have hlive := h.live.carry stream splice h.splicing
  have hwallet := h.wallet
  by_cases houtbound : splice.outbound = .reading
  · by_cases hinbound : splice.inbound = .reading
    · by_cases hincoming : (tunnel.lanes stream).incoming = []
      · refine Or.inl ⟨fun way => ?_, hincoming⟩
        cases way with
        | outbound => exact houtbound
        | inbound => exact hinbound
      · have hroom : 0 < COPY_BUFFER := by decide
        obtain ⟨hsome, hfits, hprefix, hpos⟩ := taken_of_ne hroom hincoming
        obtain ⟨resumed, hs, hresumed, hwork⟩ := hlive.hears hinbound hsome hfits
        refine Or.inr (h.carries settings hprobe hs (decide_eq_true hsome) hresumed.running
          (by simp [Carry.moved, h.splicing, IoEvent.taken]; rfl) hprefix ?_ ?_)
        · simpa [Splice.localEnd] using hwallet
        · simp only [List.length_nil]
          omega
    · obtain ⟨resumed, hs, hresumed, htaken, hwork⟩ := hlive.hands hinbound
      refine Or.inr (h.carries settings hprobe hs splice.inbound.due_moves.2 hresumed.running
        (by simp [Carry.moved, h.splicing, htaken]; rfl) List.nil_prefix ?_ ?_)
      · simpa [Splice.localEnd] using hwallet
      · simpa using hwork
  · obtain ⟨resumed, hs, hresumed, htaken, hwork⟩ := hlive.sends houtbound
    refine Or.inr (h.carries settings hprobe hs splice.outbound.due_moves.1 hresumed.running
      (by simp [Carry.moved, h.splicing]; rfl) List.nil_prefix ?_ ?_)
    · simpa [Splice.localEnd, htaken] using hwallet
    · simp only [List.length_nil]
      omega

theorem Tunnel.Delivers.keeps (h : tunnel.Delivers stream asked answered splice serve) :
    ∃ sent carried, tunnel.Keeps stream sent carried ∧
      splice.Conserves tunnel.carry.wallet carried := by
  have hstanding := h.sound.standing
  simp only [Tunnel.Standing, h.splicing] at hstanding
  exact hstanding

theorem Tunnel.Delivers.far_sound (h : tunnel.Delivers stream asked answered splice serve) :
    serve.Sound := by
  obtain ⟨sent, carried, hkeeps, -⟩ := h.keeps
  exact hkeeps.lane.serve serve h.serving

-- The echo has been heard, so that all of it was written.
theorem Tunnel.Delivers.accepting {accept : Accept}
    (h : tunnel.Delivers stream asked answered splice serve)
    (hphase : serve.phase = .accepting accept) : ∃ header, accept = .echoing header .flushing := by
  obtain ⟨sent, carried, hkeeps, -⟩ := h.keeps
  have hsound := h.far_sound
  have hlive := h.live.serve stream serve h.serving
  simp only [Serve.Sound, Serve.Live, hphase] at hsound hlive
  have hheard : HEADER_LEN ≤ serve.stream.accepted.length := by
    have hback := hkeeps.lane.incoming
    rw [Lane.far_serve h.serving, hkeeps.near] at hback
    rw [hback]
    simp only [Duplex.after, Duplex.move_consumed, List.length_append, encode_length,
      List.length_nil]
    omega
  obtain ⟨-, hanswered⟩ := hsound
  cases accept with
  | reading deadline read =>
      rw [hanswered.2, List.length_nil] at hheard
      exact absurd hheard (by decide)
  | echoing header write =>
      cases write with
      | writing rest =>
          have hsent : serve.stream.accepted ++ rest = header.encode := hanswered.2.2.2
          have hlen := congrArg List.length hsent
          have hpos := List.length_pos_of_ne_nil hlive
          rw [List.length_append, encode_length] at hlen
          omega
      | flushing => exact ⟨header, rfl⟩
      | returned result => exact hlive.elim
  | returned result => exact hlive.elim

theorem Serve.answered_splice {waited : SpliceEvent}
    (hkept : ∀ duplex, (splice.localEnd duplex waited).consumed = duplex.consumed) :
    ((serve.upstream.map (splice.localEnd · waited)).map Duplex.consumed).getD [] =
      serve.answered := by
  unfold Serve.answered
  cases serve.upstream with
  | none => rfl
  | some upstream => exact hkept upstream

-- The serving half in its splice has nothing under way, or can go on with it.
theorem Tunnel.Delivers.far_splicing (settings : ServeSettings) {far : Splice}
    (hprobe : carrying.dial.probe ≠ none)
    (h : tunnel.Delivers stream asked answered splice serve)
    (hphase : serve.phase = .splicing far) :
    (serve.Idle ∧ (tunnel.lanes stream).outgoing = []) ∨
      tunnel.Advances carrying settings stream asked answered := by
  have hlive := h.live.serve stream serve h.serving
  simp only [Serve.Live, hphase] at hlive
  have hsplices {waited : SpliceEvent} {resumed : Splice}
      (hs : far.step waited = some resumed) (hmoves : waited.moves) (hresumed : resumed.Live)
      (htaken : serve.taken (.splice waited) <+: (tunnel.lanes stream).outgoing)
      (hkept : ∀ duplex, (far.localEnd duplex waited).consumed = duplex.consumed)
      (hless : resumed.work + 3 * (serve.given (.splice waited)).length <
        far.work + 3 * (serve.taken (.splice waited)).length) :
      tunnel.Advances carrying settings stream asked answered := by
    have hown := Serve.own_spliced settings hphase hs hresumed.running
    refine h.serves hprobe hown hmoves htaken (by simp) (Serve.answered_splice hkept) ?_
    simpa only [Serve.work, hphase] using hless
  by_cases houtbound : far.outbound = .reading
  · by_cases hinbound : far.inbound = .reading
    · by_cases houtgoing : (tunnel.lanes stream).outgoing = []
      · refine Or.inl ⟨?_, houtgoing⟩
        simp only [Serve.Idle, hphase]
        intro way
        cases way with
        | outbound => exact houtbound
        | inbound => exact hinbound
      · have hroom : 0 < COPY_BUFFER := by decide
        obtain ⟨hsome, hfits, hprefix, hpos⟩ := taken_of_ne hroom houtgoing
        obtain ⟨resumed, hs, hresumed, hwork⟩ := hlive.hears hinbound hsome hfits
        refine Or.inr (hsplices hs (decide_eq_true hsome) hresumed ?_ ?_ ?_)
        · simpa [Serve.taken, hphase, IoEvent.taken] using hprefix
        · simp [Splice.localEnd]
        · simp only [Serve.taken, Serve.given, hphase, IoEvent.taken, List.length_nil]
          omega
    · obtain ⟨resumed, hs, hresumed, htaken, hwork⟩ := hlive.hands hinbound
      refine Or.inr (hsplices hs far.inbound.due_moves.2 hresumed ?_ ?_ ?_)
      · simp [Serve.taken, hphase, htaken]
      · simp [Splice.localEnd]
      · simpa [Serve.taken, Serve.given, hphase, htaken] using hwork
  · obtain ⟨resumed, hs, hresumed, htaken, hwork⟩ := hlive.sends houtbound
    refine Or.inr (hsplices hs far.outbound.due_moves.1 hresumed ?_ ?_ ?_)
    · simp [Serve.taken, hphase]
    · simp [Splice.localEnd, htaken]
    · simp only [Serve.taken, Serve.given, hphase, List.length_nil]
      omega

-- So does the serving half before it, which waits for a request or can go on.
theorem Tunnel.Delivers.far (settings : ServeSettings) (hprobe : carrying.dial.probe ≠ none)
    (h : tunnel.Delivers stream asked answered splice serve) :
    (serve.Idle ∧ (tunnel.lanes stream).outgoing = []) ∨
      tunnel.Advances carrying settings stream asked answered := by
  have hlive := h.live.serve stream serve h.serving
  have hsound := h.far_sound
  simp only [Serve.Live, Serve.Sound] at hlive hsound
  cases hphase : serve.phase with
  | returned => exact absurd hphase h.running
  | accepting accept =>
      obtain ⟨header, rfl⟩ := h.accepting hphase
      have htaken : serve.taken (.stream (.io .flushed)) = [] := by
        simp [Serve.taken, hphase, WaitEvent.taken, IoEvent.taken]
      have hgiven : serve.given (.stream (.io .flushed)) = [] := by
        simp [Serve.given, hphase, Accept.given, WriteHeader.given]
      have hs : Serve.own settings serve (.stream (.io .flushed)) = some { serve with
          stream := serve.stream.move [] []
          phase := .awaitingRequest (serve.elapsed + settings.firstRequestTimeout) } := by
        simp [Serve.own, Serve.step, hphase, Accept.step, WriteHeader.step, htaken, hgiven]
      refine Or.inr (h.serves hprobe hs rfl (htaken ▸ List.nil_prefix) (by simp) rfl ?_)
      simp [Serve.work, hphase, htaken, hgiven]
  | awaitingRequest deadline =>
      by_cases houtgoing : (tunnel.lanes stream).outgoing = []
      · refine Or.inl ⟨?_, houtgoing⟩
        simp [Serve.Idle, hphase]
      · have hroom : 0 < FIRST_CHUNK := by decide
        obtain ⟨hsome, hfits, hprefix, hpos⟩ := taken_of_ne hroom houtgoing
        generalize (tunnel.lanes stream).outgoing.take FIRST_CHUNK = opening at *
        have htaken : serve.taken (.stream (.io (.read opening))) = opening := by
          simp [Serve.taken, hphase, WaitEvent.taken, IoEvent.taken]
        have hgiven : serve.given (.stream (.io (.read opening))) = [] := by
          simp [Serve.given, hphase]
        have hs : Serve.own settings serve (.stream (.io (.read opening))) = some { serve with
            stream := serve.stream.move opening []
            phase := .connecting opening } := by
          simp [Serve.own, Serve.step, hphase, htaken, hgiven, hsome, hfits]
        refine Or.inr (h.serves hprobe hs (decide_eq_true hsome) (htaken.symm ▸ hprefix)
          (by simp) rfl ?_)
        simp only [Serve.work, hphase, htaken, hgiven, List.length_nil]
        omega
  | connecting opening =>
      simp only [hphase] at hsound
      have hs : Serve.own settings serve .connected =
          some { serve with upstream := some {}, phase := .writing opening } := by
        simp [Serve.own, Serve.step, hphase]
      have htaken : serve.taken .connected = [] := by simp [Serve.taken, hphase]
      have hgiven : serve.given .connected = [] := by simp [Serve.given, hphase]
      refine Or.inr (h.serves hprobe hs rfl (htaken ▸ List.nil_prefix) (by simp) ?_ ?_)
      · simp [Serve.answered, hsound.1]
      · simp [Serve.work, hphase, htaken, hgiven]
  | writing rest =>
      simp only [hphase] at hlive
      have hs : Serve.own settings serve (.upstream (.wrote rest.length)) = some { serve with
          upstream := serve.upstream.map (·.move [] rest)
          phase := .splicing (.start settings.watchdog) } := by
        simp [Serve.own, Serve.step, hphase, writeAll_length hlive]
      have htaken : serve.taken (.upstream (.wrote rest.length)) = [] := by
        simp [Serve.taken, hphase]
      have hgiven : serve.given (.upstream (.wrote rest.length)) = [] := by
        simp [Serve.given, hphase]
      refine Or.inr (h.serves hprobe hs rfl (htaken ▸ List.nil_prefix) (by simp) ?_ ?_)
      · unfold Serve.answered
        cases serve.upstream with
        | none => rfl
        | some upstream => simp
      · simp [Serve.work, hphase, htaken, hgiven, Splice.work, Splice.start, Pump.held, Pump.work]
  | splicing far => exact h.far_splicing settings hprobe hphase

-- The work of a stream goes on until nothing of it is under way.
theorem Tunnel.Delivers.arrives (settings : ServeSettings) (hprobe : carrying.dial.probe ≠ none)
    (h : tunnel.Delivers stream asked answered splice serve) :
    ∃ more next, ((Tunnel.step carrying settings).only (TunnelEvent.moves stream)).run tunnel more =
        some next ∧
      (∃ splice serve, next.Delivers stream asked answered splice serve) ∧
      next.Arrived stream := by
  refine Machine.run_descends (fun tunnel : Tunnel =>
    ∃ splice serve, tunnel.Delivers stream asked answered splice serve)
    (Tunnel.Arrived stream) (Tunnel.work stream) ?_ ⟨splice, serve, h⟩
  rintro tunnel ⟨splice, serve, h⟩
  have hgoes (hadvances : tunnel.Advances carrying settings stream asked answered) :
      ∃ event next,
        (Tunnel.step carrying settings).only (TunnelEvent.moves stream) tunnel event = some next ∧
        (∃ splice serve, next.Delivers stream asked answered splice serve) ∧
        next.work stream < tunnel.work stream := by
    obtain ⟨event, next, splice, serve, hmoves, hs, hnext, hless⟩ := hadvances
    exact ⟨event, next, Machine.only_some.mpr ⟨hmoves, hs⟩, ⟨splice, serve, hnext⟩, hless⟩
  obtain ⟨hnear, hincoming⟩ | hadvances := h.near settings hprobe
  · obtain ⟨hfar, houtgoing⟩ | hadvances := h.far settings hprobe
    · refine Or.inl ⟨fun other hphase => ?_, fun other hserve => ?_, houtgoing, hincoming⟩
      · obtain ⟨-, rfl⟩ := CarryPhase.splicing.inj (h.splicing.symm.trans hphase)
        exact hnear
      · obtain rfl := Option.some.inj (h.serving.symm.trans hserve)
        exact hfar
    · exact Or.inr (hgoes hadvances)
  · exact Or.inr (hgoes hadvances)

theorem Serve.Relays.echoed {sent : Header} {carried returned heard : Bytes}
    (h : serve.Relays carried returned) (hecho : sent.echoRequested)
    (hstream : serve.stream = ⟨sent.encode ++ asked, sent.encode ++ heard⟩) :
    carried = asked ∧ returned = heard := by
  obtain ⟨wire, header, hlen, hdecode, hsame⟩ := h
  rw [hsame] at hstream
  obtain ⟨hforth, hback⟩ := Duplex.mk.inj hstream
  obtain ⟨hwire, hcarried⟩ := List.append_inj hforth (by rw [hlen, encode_length])
  rw [hwire, decode_encode] at hdecode
  obtain rfl := Except.ok.inj hdecode
  rw [Header.greeting, if_pos hecho] at hback
  exact ⟨hcarried, List.append_cancel_left hback⟩

-- With nothing under way, the two ends of the tunnel agree.
theorem Tunnel.Delivers.agrees (h : tunnel.Delivers stream asked answered splice serve)
    (harrived : tunnel.Arrived stream) :
    tunnel.carry.wallet = ⟨asked, answered⟩ ∧
      (asked = [] ∧ serve.upstream = none ∨ serve.upstream = some ⟨answered, asked⟩) := by
  obtain ⟨sent, carried, hkeeps, hconserves⟩ := h.keeps
  have hsound := h.far_sound
  have hidle := harrived.far serve h.serving
  have houtbound : splice.outbound = .reading := harrived.near splice h.splicing .outbound
  have hinbound : splice.inbound = .reading := harrived.near splice h.splicing .inbound
  have hforth : carried.accepted = asked := by
    have hall := hconserves.outbound
    rw [houtbound, h.wallet] at hall
    simpa [Pump.Conserves, Pump.held] using hall
  have hback : tunnel.carry.wallet.accepted = carried.consumed := by
    have hall := hconserves.inbound
    rw [hinbound] at hall
    simpa [Pump.Conserves, Pump.held] using hall
  have hstream : serve.stream = ⟨sent.encode ++ asked, sent.encode ++ carried.consumed⟩ := by
    obtain ⟨hout, hin, -⟩ := hkeeps.lane
    rw [Lane.far_serve h.serving, hkeeps.near] at hout hin
    rw [harrived.outgoing] at hout
    rw [harrived.incoming] at hin
    refine Duplex.ext ?_ ?_
    · simpa [Duplex.after, hforth] using hout.symm
    · simpa [Duplex.after] using hin
  have hupstream := h.upstream
  unfold Serve.Sound at hsound
  unfold Serve.Idle at hidle
  unfold Serve.answered at hupstream
  cases hphase : serve.phase with
  | awaitingRequest deadline =>
      rw [hphase] at hsound
      obtain ⟨hnone, hrelays⟩ := hsound
      obtain ⟨hasked, hheard⟩ := hrelays.echoed hkeeps.echo hstream
      have hanswered : answered = [] := by
        rw [hnone] at hupstream
        exact hupstream.symm
      refine ⟨Duplex.ext h.wallet ?_, Or.inl ⟨hasked.symm, hnone⟩⟩
      rw [hback, ← hheard, hanswered]
  | splicing far =>
      simp only [hphase] at hsound hidle
      obtain ⟨opening, near, beyond, hopening, hcopies, hsome, hrelays⟩ := hsound
      obtain ⟨hasked, hheard⟩ := hrelays.echoed hkeeps.echo hstream
      have hfrom : beyond.accepted = near.consumed := by
        have hall := hcopies.outbound
        rw [show far.outbound = .reading from hidle .outbound] at hall
        simpa [Pump.Conserves, Pump.held] using hall
      have hto : near.accepted = beyond.consumed := by
        have hall := hcopies.inbound
        rw [show far.inbound = .reading from hidle .inbound] at hall
        simpa [Pump.Conserves, Pump.held] using hall
      have hanswered : near.consumed = answered := by
        rw [hsome] at hupstream
        simpa [Duplex.after] using hupstream
      refine ⟨Duplex.ext h.wallet ?_, Or.inr ?_⟩
      · rw [hback, ← hheard, hfrom, hanswered]
      · rw [hsome, ← hasked, ← hto, ← hanswered]
        rfl
  | accepting _ | connecting _ | writing _ | returned =>
      rw [hphase] at hidle
      exact hidle.elim

end

theorem Carry.kept_splicing {carry : Carry} {stream : StreamId} (h : carry.kept = some stream) :
    ∃ splice, carry.phase = .splicing stream splice := by
  unfold Carry.kept at h
  split at h
  · rename_i kept splice hphase
    obtain rfl := Option.some.inj h
    exact ⟨splice, hphase⟩
  · cases h

theorem Tunnel.Sound.delivers {carrying : Carrying} {tunnel : Tunnel} {stream : StreamId}
    {serve : Serve} (h : tunnel.Sound) (settings : ServeSettings)
    (hprobe : carrying.dial.probe ≠ none) (hlive : tunnel.Live)
    (hkept : tunnel.carry.kept = some stream) (hserve : (tunnel.lanes stream).serve = some serve)
    (hrunning : serve.phase ≠ .returned) :
    ∃ more next after,
      ((Tunnel.step carrying settings).only (TunnelEvent.moves stream)).run tunnel more =
        some next ∧
      next.carry.kept = some stream ∧ (next.lanes stream).serve = some after ∧
      after.phase ≠ .returned ∧
      next.carry.wallet = ⟨tunnel.carry.wallet.consumed, serve.answered⟩ ∧
      (tunnel.carry.wallet.consumed = [] ∧ after.upstream = none ∨
        after.upstream = some ⟨serve.answered, tunnel.carry.wallet.consumed⟩) := by
  obtain ⟨splice, hphase⟩ := Carry.kept_splicing hkept
  have hdelivers : tunnel.Delivers stream tunnel.carry.wallet.consumed serve.answered
      splice serve := ⟨h, hlive, hphase, rfl, hserve, hrunning, rfl⟩
  obtain ⟨more, next, hmore, ⟨resumed, after, hnext⟩, harrived⟩ :=
    hdelivers.arrives settings hprobe
  obtain ⟨hwallet, hupstream⟩ := hnext.agrees harrived
  refine ⟨more, next, after, hmore, ?_, hnext.serving, hnext.running, hwallet, hupstream⟩
  simp [Carry.kept, hnext.splicing]

-- Wherever the two halves stand with a stream that was kept, as long as neither
-- has let go of it, it takes no more than the writes, the flushes and the reads
-- that are under way, and the connect where it is due, for either end to have all
-- that the other has sent.
theorem tunnel_delivers (carrying : Carrying) (settings : ServeSettings)
    (hprobe : carrying.dial.probe ≠ none) (events : List TunnelEvent) (tunnel : Tunnel)
    (hr : (Tunnel.step carrying settings).run {} events = some tunnel) (stream : StreamId)
    (hkept : tunnel.carry.kept = some stream) (serve : Serve)
    (hserve : (tunnel.lanes stream).serve = some serve) (hrunning : serve.phase ≠ .returned) :
    ∃ more next after, (∀ event ∈ more, event.moves stream) ∧
      (Tunnel.step carrying settings).run tunnel more = some next ∧
      next.carry.kept = some stream ∧ (next.lanes stream).serve = some after ∧
      after.phase ≠ .returned ∧
      next.carry.wallet = ⟨tunnel.carry.wallet.consumed, serve.answered⟩ ∧
      (tunnel.carry.wallet.consumed = [] ∧ after.upstream = none ∨
        after.upstream = some ⟨serve.answered, tunnel.carry.wallet.consumed⟩) := by
  obtain ⟨more, next, after, hmore, hdelivered⟩ :=
    (tunnel_sound hprobe hr).delivers settings hprobe (tunnel_live hr) hkept hserve hrunning
  obtain ⟨hrun, hmoves⟩ := Machine.run_only hmore
  exact ⟨more, next, after, hmoves, hrun, hdelivered⟩

-- A request of three bytes, of which the serving half has read two and has not
-- connected yet.
theorem halfway_delivers : ∃ tunnel more next after,
    (Tunnel.step exchangedCarrying exchangedSettings).run {} (exchangedEvents.take 20) =
      some tunnel ∧
    tunnel.carry.wallet = ⟨[80, 82, 73], []⟩ ∧
    (∀ event ∈ more, event.moves 1) ∧
    (Tunnel.step exchangedCarrying exchangedSettings).run tunnel more = some next ∧
    (next.lanes 1).serve = some after ∧ after.upstream = some ⟨[], [80, 82, 73]⟩ := by
  obtain ⟨tunnel, hr, he⟩ : ∃ tunnel,
      (Tunnel.step exchangedCarrying exchangedSettings).run {} (exchangedEvents.take 20) =
        some tunnel ∧
      (tunnel.carry.kept, tunnel.carry.wallet,
        (tunnel.lanes 1).serve.map fun serve => (serve.phase, serve.answered)) =
        (some 1, ⟨[80, 82, 73], []⟩, some (.connecting [80, 82], [])) :=
    Option.map_eq_some_iff.mp (by decide +kernel)
  obtain ⟨hkept, hrest⟩ := Prod.mk.inj he
  obtain ⟨hwallet, hserving⟩ := Prod.mk.inj hrest
  obtain ⟨serve, hserve, hserving⟩ := Option.map_eq_some_iff.mp hserving
  obtain ⟨hphase, hanswered⟩ := Prod.mk.inj hserving
  obtain ⟨more, next, after, hmoves, hmore, -, hafter, -, -, hupstream⟩ :=
    tunnel_delivers exchangedCarrying exchangedSettings (by decide) (exchangedEvents.take 20)
      tunnel hr 1 hkept serve hserve (by simp [hphase])
  rw [hwallet, hanswered] at hupstream
  obtain ⟨hnothing, -⟩ | hsome := hupstream
  · cases hnothing
  · exact ⟨tunnel, more, next, after, hr, hwallet, hmoves, hmore, hafter, hsome⟩

end LwdMixnet
