import LwdMixnet.Handshake

namespace LwdMixnet

-- What the states of the handshake say of the bytes their stream has moved.

def WriteHeader.Sent (header : Header) (accepted : Bytes) : WriteHeader → Prop
  | .writing rest => accepted ++ rest = header.encode
  | .flushing | .returned (.ok ()) => accepted = header.encode
  | .returned (.error _) => accepted <+: header.encode

def ReadHeader.Heard (consumed : Bytes) : ReadHeader → Prop
  | .reading got => consumed = got ∧ got.length < HEADER_LEN
  | .returned (.ok header) => consumed.length = HEADER_LEN ∧ Header.decode consumed = .ok header
  | .returned (.error error) =>
      consumed.length < HEADER_LEN ∨
        consumed.length = HEADER_LEN ∧ Header.decode consumed = .error error

def Probe.Spoke (sent : Header) (near : Duplex) : Probe → Prop
  | .sending _ header write =>
      header = sent ∧ near.consumed = [] ∧ write.Sent sent near.accepted
  | .awaiting _ header _ (.reading got) => header = sent ∧ near.accepted = sent.encode ∧
      near.consumed = got ∧ got.length < HEADER_LEN
  | .awaiting _ _ _ (.returned _) => False
  | .returned (.ok _) => near.accepted = sent.encode ∧ near.consumed.length = HEADER_LEN ∧
      ∃ echoed, Header.decode near.consumed = .ok echoed ∧ echoed.token = sent.token
  | .returned (.error _) => near.accepted <+: sent.encode

def Accept.Answered (far : Duplex) : Accept → Prop
  | .reading _ read => read.Heard far.consumed ∧ far.accepted = []
  | .echoing header write => header.echoRequested ∧ far.consumed.length = HEADER_LEN ∧
      Header.decode far.consumed = .ok header ∧ write.Sent header far.accepted
  | .returned (.ok header) => far.consumed.length = HEADER_LEN ∧
      Header.decode far.consumed = .ok header ∧
      far.accepted = if header.echoRequested then header.encode else []
  | .returned (.error _) => far.accepted = [] ∨ ∃ header, header.echoRequested ∧
      far.consumed.length = HEADER_LEN ∧ Header.decode far.consumed = .ok header ∧
      far.accepted <+: header.encode

-- A probe that has bytes to write while it writes, and waits while it waits.
def Probe.Live : Probe → Prop
  | .sending _ _ (.writing rest) => rest ≠ []
  | .sending _ _ .flushing | .awaiting _ _ _ (.reading _) | .returned _ => True
  | .sending _ _ (.returned _) | .awaiting _ _ _ (.returned _) => False

theorem WriteHeader.Sent.aligned {header : Header} {accepted : Bytes} {write : WriteHeader}
    (h : write.Sent header accepted) : accepted <+: header.encode := by
  cases write with
  | writing rest => exact ⟨rest, h⟩
  | flushing =>
      obtain rfl : accepted = header.encode := h
      exact List.prefix_refl _
  | returned result =>
      cases result with
      | ok _ =>
          obtain rfl : accepted = header.encode := h
          exact List.prefix_refl _
      | error _ => exact h

theorem WriteHeader.Sent.step {header : Header} {accepted : Bytes} {write next : WriteHeader}
    {event : IoEvent} (h : write.Sent header accepted) (hs : write.step event = some next) :
    next.Sent header (accepted ++ write.given event) := by
  cases write with
  | returned result => simp [WriteHeader.step] at hs
  | flushing =>
      cases event with
      | flushed =>
          obtain rfl := Option.some.inj hs
          simpa [WriteHeader.given, WriteHeader.Sent] using h
      | failed error =>
          obtain rfl := Option.some.inj hs
          simp only [WriteHeader.given, List.append_nil]
          exact h.aligned
      | read _ | wrote _ => simp [WriteHeader.step] at hs
  | writing rest =>
      cases event with
      | failed error =>
          obtain rfl := Option.some.inj hs
          simp only [WriteHeader.given, List.append_nil]
          exact h.aligned
      | wrote count =>
          have hall : accepted ++ rest = header.encode := h
          simp only [WriteHeader.given]
          simp only [WriteHeader.step] at hs
          cases hw : writeAll rest count with
          | none => simp [hw] at hs
          | some result =>
              simp only [hw] at hs
              cases result with
              | pending left =>
                  obtain rfl := Option.some.inj hs
                  change accepted ++ rest.take count ++ left = header.encode
                  rw [List.append_assoc, (writeAll_pending hw).1, hall]
              | complete =>
                  obtain rfl := Option.some.inj hs
                  change accepted ++ rest.take count = header.encode
                  rw [writeAll_complete hw, hall]
              | failed error =>
                  obtain rfl := Option.some.inj hs
                  change accepted ++ rest.take count <+: header.encode
                  rw [writeAll_failed hw, List.append_nil]
                  exact ⟨rest, hall⟩
      | read _ | flushed => simp [WriteHeader.step] at hs

theorem ReadHeader.Heard.step {consumed : Bytes} {read next : ReadHeader} {event : IoEvent}
    (h : read.Heard consumed) (hs : read.step event = some next) :
    next.Heard (consumed ++ event.taken) := by
  cases read with
  | returned result => simp [ReadHeader.step] at hs
  | reading got =>
      obtain ⟨rfl, hlt⟩ := h
      cases event with
      | failed error =>
          obtain rfl := Option.some.inj hs
          simpa [ReadHeader.Heard, IoEvent.taken] using Or.inl hlt
      | read chunk =>
          simp only [IoEvent.taken]
          simp only [ReadHeader.step] at hs
          cases hr : readExact HEADER_LEN consumed chunk with
          | none => simp [hr] at hs
          | some result =>
              simp only [hr] at hs
              cases result with
              | pending left =>
                  obtain rfl := Option.some.inj hs
                  obtain ⟨rfl, hleft⟩ := readExact_pending hr
                  exact ⟨rfl, hleft⟩
              | complete bytes =>
                  obtain rfl := Option.some.inj hs
                  obtain ⟨rfl, hlen⟩ := readExact_complete hr
                  cases hd : Header.decode (consumed ++ chunk) with
                  | ok header => exact ⟨hlen, hd⟩
                  | error error => exact Or.inr ⟨hlen, hd⟩
              | failed error =>
                  obtain rfl := Option.some.inj hs
                  rw [readExact_failed hr, List.append_nil]
                  exact Or.inl hlt
      | wrote _ | flushed => simp [ReadHeader.step] at hs

theorem Probe.Spoke.aligned {sent : Header} {near : Duplex} {probe : Probe}
    (h : probe.Spoke sent near) : near.accepted <+: sent.encode := by
  cases probe with
  | sending started header write => exact h.2.2.aligned
  | awaiting started header deadline read =>
      cases read with
      | returned _ => exact h.elim
      | reading got => exact h.2.1 ▸ List.prefix_rfl
  | returned result =>
      cases result with
      | ok _ => exact h.1 ▸ List.prefix_rfl
      | error _ => exact h

theorem WriteHeader.taken_nil {write next : WriteHeader} {event : IoEvent}
    (hs : write.step event = some next) : event.taken = [] := by
  cases event with
  | read chunk => cases write <;> simp [WriteHeader.step] at hs
  | wrote _ | flushed | failed _ => rfl

theorem Probe.Spoke.step {sent : Header} {near : Duplex} {timeout now : Nat} {probe next : Probe}
    {event : WaitEvent} (h : probe.Spoke sent near)
    (hs : probe.step timeout now event = some next) :
    next.Spoke sent (near.move event.taken (probe.given event)) := by
  cases probe with
  | returned result => simp [Probe.step] at hs
  | sending started header write =>
      obtain ⟨rfl, hnothing, hsent⟩ := h
      cases event with
      | expired => simp [Probe.step] at hs
      | io event =>
          simp only [Probe.step] at hs
          cases hw : write.step event with
          | none => simp [hw] at hs
          | some write' =>
              have hnext := hsent.step hw
              simp only [hw] at hs
              have hmove : near.move (WaitEvent.io event).taken
                  (Probe.given (.sending started header write) (.io event)) =
                  ⟨[], near.accepted ++ write.given event⟩ := by
                simp [Duplex.move, hnothing, WaitEvent.taken, WriteHeader.taken_nil hw,
                  Probe.given]
              rw [hmove]
              cases write' with
              | writing rest =>
                  obtain rfl := Option.some.inj hs
                  exact ⟨rfl, rfl, hnext⟩
              | flushing =>
                  obtain rfl := Option.some.inj hs
                  exact ⟨rfl, rfl, hnext⟩
              | returned result =>
                  cases result with
                  | ok _ =>
                      obtain rfl := Option.some.inj hs
                      exact ⟨rfl, hnext, rfl, by decide⟩
                  | error error =>
                      obtain rfl := Option.some.inj hs
                      exact hnext
  | awaiting started header deadline read =>
      obtain ⟨got, rfl⟩ : ∃ got, read = .reading got := by
        cases read with
        | returned _ => exact h.elim
        | reading got => exact ⟨got, rfl⟩
      obtain ⟨rfl, haccepted, hgot, hlt⟩ := h
      have hheard : (ReadHeader.reading got).Heard near.consumed := ⟨hgot, hlt⟩
      have hmove (event : WaitEvent) : near.move event.taken
          (Probe.given (.awaiting started header deadline (.reading got)) event) =
          ⟨near.consumed ++ event.taken, header.encode⟩ := by
        simp [Duplex.move, haccepted, Probe.given]
      rw [hmove]
      cases event with
      | expired =>
          simp only [Probe.step] at hs
          split_ifs at hs
          obtain rfl := Option.some.inj hs
          exact List.prefix_rfl
      | io event =>
          simp only [Probe.step] at hs
          cases hr : (ReadHeader.reading got).step event with
          | none => simp [hr] at hs
          | some read' =>
              have hnext := hheard.step hr
              simp only [hr] at hs
              cases read' with
              | reading more =>
                  obtain rfl := Option.some.inj hs
                  exact ⟨rfl, rfl, hnext⟩
              | returned result =>
                  obtain rfl := Option.some.inj hs
                  cases result with
                  | error error => exact List.prefix_rfl
                  | ok echoed =>
                      simp only [Probe.verdict]
                      split_ifs with htoken
                      · exact List.prefix_rfl
                      · exact ⟨rfl, hnext.1, echoed, hnext.2, by simpa using htoken⟩

theorem ReadHeader.reads {got chunk : Bytes} (hne : chunk ≠ [])
    (hfits : (got ++ chunk).length ≤ HEADER_LEN) :
    ∃ next, ReadHeader.step (.reading got) (.read chunk) = some next := by
  obtain ⟨result, hresult⟩ := readExact_fits hne hfits
  cases result <;> exact ⟨_, by simp only [ReadHeader.step, hresult]; rfl⟩

-- A write that goes on has bytes left, or a flush.
theorem WriteHeader.step_live {write next : WriteHeader} {io : IoEvent}
    (hs : write.step io = some next) (hok : next ≠ .returned (.ok ()))
    (herror : ∀ error, next ≠ .returned (.error error)) :
    next = .flushing ∨ ∃ rest ≠ [], next = .writing rest := by
  unfold WriteHeader.step at hs
  split at hs
  · cases hs
  · cases hs
    exact absurd rfl (herror _)
  · split at hs
    · rename_i left hw
      cases hs
      exact Or.inr ⟨left, (writeAll_pending hw).2, rfl⟩
    · cases hs
      exact Or.inl rfl
    · cases hs
      exact absurd rfl (herror _)
    · cases hs
  · cases hs
    exact absurd rfl hok
  · cases hs

theorem Probe.Live.step {timeout now : Nat} {probe next : Probe} {event : WaitEvent}
    (hs : probe.step timeout now event = some next) : next.Live := by
  unfold Probe.step at hs
  split at hs
  · rename_i started sent write io
    split at hs
    · cases hs
      trivial
    · cases hs
      trivial
    · rename_i later hok herror hwrite
      cases hs
      obtain rfl | ⟨rest, hne, rfl⟩ := WriteHeader.step_live hwrite hok herror
      · trivial
      · exact hne
    · cases hs
  · split at hs
    · cases hs
      trivial
    · rename_i later hwaits hread
      cases hs
      cases later with
      | reading got => trivial
      | returned result => exact absurd rfl (hwaits result)
    · cases hs
  · split_ifs at hs
    cases hs
    trivial
  · cases hs

theorem Accept.Answered.step {far : Duplex} {timeout now : Nat} {accept next : Accept}
    {event : WaitEvent} (h : accept.Answered far)
    (hs : accept.step timeout now event = some next) :
    next.Answered (far.move event.taken (accept.given event)) := by
  cases accept with
  | returned result => simp [Accept.step] at hs
  | reading deadline read =>
      obtain ⟨hheard, hnothing⟩ := h
      have hmove (event : WaitEvent) : far.move event.taken
          (Accept.given (.reading deadline read) event) = ⟨far.consumed ++ event.taken, []⟩ := by
        simp [Duplex.move, hnothing, Accept.given]
      rw [hmove]
      cases event with
      | expired =>
          simp only [Accept.step] at hs
          split_ifs at hs
          obtain rfl := Option.some.inj hs
          exact Or.inl rfl
      | io event =>
          simp only [Accept.step] at hs
          cases hr : read.step event with
          | none => simp [hr] at hs
          | some read' =>
              have hnext := hheard.step hr
              simp only [hr] at hs
              cases read' with
              | reading got =>
                  obtain rfl := Option.some.inj hs
                  exact ⟨hnext, rfl⟩
              | returned result =>
                  cases result with
                  | error error =>
                      obtain rfl := Option.some.inj hs
                      exact Or.inl rfl
                  | ok header =>
                      simp only at hs
                      split_ifs at hs with hecho
                      · obtain rfl := Option.some.inj hs
                        exact ⟨hecho, hnext.1, hnext.2, rfl⟩
                      · obtain rfl := Option.some.inj hs
                        exact ⟨hnext.1, hnext.2, by simp [hecho]⟩
  | echoing header write =>
      obtain ⟨hecho, hlen, hdecode, hsent⟩ := h
      cases event with
      | expired => simp [Accept.step] at hs
      | io event =>
          simp only [Accept.step] at hs
          cases hw : write.step event with
          | none => simp [hw] at hs
          | some write' =>
              have hnext := hsent.step hw
              simp only [hw] at hs
              have hmove : far.move (WaitEvent.io event).taken
                  (Accept.given (.echoing header write) (.io event)) =
                  ⟨far.consumed, far.accepted ++ write.given event⟩ := by
                simp [Duplex.move, WaitEvent.taken, WriteHeader.taken_nil hw, Accept.given]
              rw [hmove]
              cases write' with
              | writing rest =>
                  obtain rfl := Option.some.inj hs
                  exact ⟨hecho, hlen, hdecode, hnext⟩
              | flushing =>
                  obtain rfl := Option.some.inj hs
                  exact ⟨hecho, hlen, hdecode, hnext⟩
              | returned result =>
                  cases result with
                  | ok _ =>
                      obtain rfl := Option.some.inj hs
                      exact ⟨hlen, hdecode, hnext.trans (if_pos hecho).symm⟩
                  | error error =>
                      obtain rfl := Option.some.inj hs
                      exact Or.inr ⟨header, hecho, hlen, hdecode, hnext⟩

theorem Accept.Answered.echoed {far : Duplex} {accept : Accept} (h : accept.Answered far)
    (hsome : far.accepted ≠ []) : ∃ header, header.echoRequested ∧
      far.consumed.length = HEADER_LEN ∧ Header.decode far.consumed = .ok header ∧
      far.accepted <+: header.encode := by
  cases accept with
  | reading deadline read => exact absurd h.2 hsome
  | echoing header write => exact ⟨header, h.1, h.2.1, h.2.2.1, h.2.2.2.aligned⟩
  | returned result =>
      cases result with
      | error error => exact h.resolve_left hsome
      | ok header =>
          obtain ⟨hlen, hdecode, haccepted⟩ := h
          split_ifs at haccepted with hecho
          · exact ⟨header, hecho, hlen, hdecode, haccepted ▸ List.prefix_rfl⟩
          · exact absurd haccepted hsome

end LwdMixnet
