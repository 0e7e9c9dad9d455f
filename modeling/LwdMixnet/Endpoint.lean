import LwdMixnet.Health
import LwdMixnet.Machine.Basic

namespace LwdMixnet

def EXPOSITION : String := "text/plain; version=0.0.4; charset=utf-8"

structure Request where
  method : String
  path : String
  deriving DecidableEq, Repr

structure Response where
  status : Nat
  contentType : String
  body : String
  deriving DecidableEq, Repr

def Response.reply (status : Nat) (contentType body : String) : Response where
  status := status
  contentType := contentType
  body := body

def Request.allowed (request : Request) : Bool :=
  request.method = "GET" || request.method = "HEAD"

def Request.isHealth (request : Request) : Bool :=
  request.allowed && request.path = "/health"

-- The answer of the health endpoint, which loads the state once for the status
-- and once more for the body.
def healthReply (ready named : State) (degraded : Bool) : Response :=
  .reply (if ready.isReady then 200 else 503) "application/json" (asJson named degraded)

-- Where `route` stands between the loads of `/health`.
inductive Route
  | routed
  | ready (ready : State)
  | named (ready named : State)
  | replied (response : Response)
  deriving DecidableEq, Repr

structure Handler where
  request : Request
  route : Route := .routed
  deriving DecidableEq, Repr

-- One load at a time. `encoded` is what the registry was rendered as.
def Handler.step (report : HealthReport) (encoded : Except String String) (handler : Handler) :
    Option Handler :=
  match handler.route with
  | .routed =>
      if handler.request.allowed = false then
        some { handler with route := .replied (.reply 405 "text/plain" "") }
      else if handler.request.path = "/metrics" then
        match encoded with
        | .ok encoded => some { handler with route := .replied (.reply 200 EXPOSITION encoded) }
        | .error _ => some { handler with route := .replied (.reply 500 "text/plain" "") }
      else if handler.request.path = "/health" then
        some { handler with route := .ready report.state }
      else some { handler with route := .replied (.reply 404 "text/plain" "") }
  | .ready ready => some { handler with route := .named ready report.state }
  | .named ready named =>
      some { handler with route := .replied (healthReply ready named report.isDegraded) }
  | .replied _ => none

-- The listener, the connections it accepted, and what was asked on them.
structure Endpoint where
  listening : Bool := true
  connections : Nat := 0
  handlers : List Handler := []

inductive EndpointEvent
  | accepted
  | notAccepted
  | asked (request : Request)
  | stepped (id : Nat) (encoded : Except String String)
  | closed
  | stopped

-- A connection that was accepted is answered on whatever becomes of the
-- listener.
def Endpoint.step (report : HealthReport) (shuttingDown : Bool) :
    Machine Endpoint EndpointEvent := fun endpoint event =>
  match event with
  | .accepted =>
      if endpoint.listening then some { endpoint with connections := endpoint.connections + 1 }
      else none
  | .notAccepted => if endpoint.listening then some endpoint else none
  | .asked request =>
      if 0 < endpoint.connections then
        some { endpoint with handlers := endpoint.handlers ++ [{ request := request }] }
      else none
  | .stepped id encoded =>
      match endpoint.handlers[id]? with
      | some handler =>
          match handler.step report encoded with
          | some next => some { endpoint with handlers := endpoint.handlers.set id next }
          | none => none
      | none => none
  | .closed =>
      if 0 < endpoint.connections then
        some { endpoint with connections := endpoint.connections - 1 }
      else none
  | .stopped =>
      if endpoint.listening ∧ shuttingDown then some { endpoint with listening := false }
      else none

-- A half as its supervisor sees it: whoever advances the state and whoever sets
-- the flag does so between any two loads of a handler.
structure Observed where
  report : HealthReport := {}
  shuttingDown : Bool := false
  endpoint : Endpoint := {}

inductive ObservedEvent
  | advanced (state : State)
  | degraded (degraded : Bool)
  | shutDown
  | endpoint (event : EndpointEvent)

def Observed.step : Machine Observed ObservedEvent := fun observed event =>
  match event with
  | .advanced state => some { observed with report := observed.report.advanceTo state }
  | .degraded degraded => some { observed with report := observed.report.setDegraded degraded }
  | .shutDown => some { observed with shuttingDown := true }
  | .endpoint event =>
      match observed.endpoint.step observed.report observed.shuttingDown event with
      | some endpoint => some { observed with endpoint }
      | none => none

def ObservedEvent.state : ObservedEvent → Option State
  | .advanced state => some state
  | _ => none

-- What a handler has loaded lies between two states, the later loads above the
-- earlier ones.
def Handler.Reads (low high : State) (handler : Handler) : Prop :=
  match handler.route with
  | .routed => True
  | .ready ready => handler.request.isHealth ∧ low ≤ ready ∧ ready ≤ high
  | .named ready named => handler.request.isHealth ∧ low ≤ ready ∧ ready ≤ named ∧ named ≤ high
  | .replied response =>
      if handler.request.isHealth then
        ∃ ready named degraded, response = healthReply ready named degraded ∧
          low ≤ ready ∧ ready ≤ named ∧ named ≤ high
      else response.status ≠ 503

theorem Handler.Reads.mono {low high higher : State} {handler : Handler}
    (h : handler.Reads low high) (hle : high ≤ higher) : handler.Reads low higher := by
  obtain ⟨request, route⟩ := handler
  cases route with
  | routed => trivial
  | ready ready => exact ⟨h.1, h.2.1, h.2.2.trans hle⟩
  | named ready named => exact ⟨h.1, h.2.1, h.2.2.1, h.2.2.2.trans hle⟩
  | replied response =>
      simp only [Handler.Reads] at h ⊢
      split_ifs at h ⊢
      · obtain ⟨ready, named, degraded, hresponse, hlow, hready, hhigh⟩ := h
        exact ⟨ready, named, degraded, hresponse, hlow, hready, hhigh.trans hle⟩
      · exact h

theorem Handler.Reads.step {low : State} {report : HealthReport}
    {encoded : Except String String} {handler next : Handler}
    (h : handler.Reads low report.state) (hlow : low ≤ report.state)
    (hs : handler.step report encoded = some next) : next.Reads low report.state := by
  obtain ⟨request, route⟩ := handler
  cases route with
  | routed =>
      simp only [Handler.step] at hs
      split_ifs at hs with hallowed hmetrics hhealth
      · cases hs
        simp [Handler.Reads, Request.isHealth, hallowed, Response.reply]
      · cases encoded with
        | ok encoded | error error =>
            cases hs
            simp [Handler.Reads, Request.isHealth, hmetrics, Response.reply]
      · cases hs
        refine ⟨?_, hlow, le_refl _⟩
        simpa [Request.isHealth, hhealth] using hallowed
      · cases hs
        simp [Handler.Reads, Request.isHealth, hhealth, Response.reply]
  | ready ready =>
      cases hs
      exact ⟨h.1, h.2.1, h.2.2, le_refl _⟩
  | named ready named =>
      cases hs
      obtain ⟨hhealth, hlow, hready, hnamed⟩ := h
      change if request.isHealth then _ else _
      rw [if_pos hhealth]
      exact ⟨ready, named, report.isDegraded, rfl, hlow, hready, hnamed⟩
  | replied response => cases hs

-- The handlers from the index on were all asked when the state was `low` or
-- beyond it.
def Observed.Reads (low : State) (index : Nat) (observed : Observed) : Prop :=
  low ≤ observed.report.state ∧ ∀ id handler, index ≤ id →
    observed.endpoint.handlers[id]? = some handler → handler.Reads low observed.report.state

section

variable {low : State} {index : Nat} {observed next : Observed} {event : ObservedEvent}
  {events : List ObservedEvent}

theorem Observed.Reads.report {report : HealthReport} {shuttingDown : Bool}
    (h : observed.Reads low index) (hle : observed.report.state ≤ report.state) :
    Observed.Reads low index { observed with report, shuttingDown } :=
  ⟨h.1.trans hle, fun id handler hid hhandler => (h.2 id handler hid hhandler).mono hle⟩

theorem Observed.Reads.endpoint {endpoint : Endpoint} {event : EndpointEvent}
    {shuttingDown : Bool} (h : observed.Reads low index)
    (hs : observed.endpoint.step observed.report shuttingDown event = some endpoint) :
    Observed.Reads low index { observed with endpoint } := by
  obtain ⟨hlow, hreads⟩ := h
  refine ⟨hlow, fun id handler hid hhandler => ?_⟩
  simp only at hhandler ⊢
  cases event with
  | accepted | notAccepted | closed | stopped =>
      simp only [Endpoint.step] at hs
      split_ifs at hs
      cases hs
      exact hreads id handler hid hhandler
  | asked request =>
      simp only [Endpoint.step] at hs
      split_ifs at hs
      cases hs
      rw [List.getElem?_append] at hhandler
      split_ifs at hhandler
      · exact hreads id handler hid hhandler
      · obtain rfl := List.mem_singleton.mp (List.mem_of_getElem? hhandler)
        trivial
  | stepped stepped encoded =>
      simp only [Endpoint.step] at hs
      split at hs
      · rename_i before hbefore
        split at hs
        · rename_i after hafter
          cases hs
          rw [List.getElem?_set] at hhandler
          split_ifs at hhandler with hsame hlt
          · subst hsame
            obtain rfl := Option.some.inj hhandler
            exact (hreads _ before hid hbefore).step hlow hafter
          · exact hreads id handler hid hhandler
        · cases hs
      · cases hs

theorem HealthReport.state_le_advanceTo {report : HealthReport} {held : State}
    (h : report.Holds held) (state : State) : report.state ≤ (report.advanceTo state).state := by
  rw [h.state, (h.advanceTo state).state]
  exact le_max_left held state

def Observed.Coded (observed : Observed) : Prop :=
  ∃ held, observed.report.Holds held

theorem Observed.step_coded (h : observed.Coded) (hs : observed.step event = some next) :
    next.Coded ∧ next.report.state =
      max observed.report.state (event.state.getD .Starting) := by
  obtain ⟨held, hheld⟩ := h
  have hsame : held = max observed.report.state .Starting := by
    rw [hheld.state, max_eq_left (State.Starting_le held)]
  cases event with
  | advanced state =>
      cases hs
      refine ⟨⟨_, hheld.advanceTo state⟩, ?_⟩
      rw [(hheld.advanceTo state).state, hheld.state]
      rfl
  | degraded degraded =>
      cases hs
      exact ⟨⟨held, hheld⟩, hheld.state.trans hsame⟩
  | shutDown =>
      cases hs
      exact ⟨⟨held, hheld⟩, hheld.state.trans hsame⟩
  | endpoint event =>
      simp only [Observed.step] at hs
      split at hs <;> cases hs
      exact ⟨⟨held, hheld⟩, hheld.state.trans hsame⟩

theorem Observed.Reads.step (hcoded : observed.Coded) (h : observed.Reads low index)
    (hs : observed.step event = some next) : next.Reads low index := by
  cases event with
  | advanced state =>
      cases hs
      obtain ⟨held, hheld⟩ := hcoded
      exact h.report (HealthReport.state_le_advanceTo hheld state)
  | degraded degraded =>
      cases hs
      exact h.report (le_refl observed.report.state)
  | shutDown =>
      cases hs
      exact h.report (le_refl observed.report.state)
  | endpoint event =>
      simp only [Observed.step] at hs
      split at hs <;> cases hs
      rename_i hendpoint
      exact h.endpoint hendpoint

theorem Observed.run_reads (hcoded : observed.Coded) (h : observed.Reads low index)
    (hr : Observed.step.run observed events = some next) : next.Coded ∧ next.Reads low index := by
  refine Machine.run_invariant (fun observed => Observed.Coded observed ∧
    Observed.Reads low index observed) ?_ ⟨hcoded, h⟩ hr
  intro observed event next ⟨hcoded, h⟩ hs
  exact ⟨(Observed.step_coded hcoded hs).1, h.step hcoded hs⟩

theorem Observed.start_coded : Observed.Coded {} :=
  ⟨.Starting, rfl⟩

-- The flag is loaded last, at the instant of the answer.
theorem Endpoint.step_replied {report : HealthReport} {shuttingDown : Bool}
    {endpoint next : Endpoint} {event : EndpointEvent} {id : Nat} {request : Request}
    {response : Response} (hs : endpoint.step report shuttingDown event = some next)
    (hreplied : next.handlers[id]? = some ⟨request, .replied response⟩)
    (hhealth : request.isHealth) :
    endpoint.handlers[id]? = some ⟨request, .replied response⟩ ∨
      id < endpoint.handlers.length ∧
        ∃ ready named, response = healthReply ready named report.isDegraded := by
  cases event with
  | accepted | notAccepted | closed | stopped =>
      simp only [Endpoint.step] at hs
      split_ifs at hs
      cases hs
      exact Or.inl hreplied
  | asked asked =>
      simp only [Endpoint.step] at hs
      split_ifs at hs
      cases hs
      rw [List.getElem?_append] at hreplied
      split_ifs at hreplied
      · exact Or.inl hreplied
      · cases List.mem_singleton.mp (List.mem_of_getElem? hreplied)
  | stepped stepped encoded =>
      simp only [Endpoint.step] at hs
      split at hs
      · rename_i before hbefore
        split at hs
        · rename_i after hafter
          cases hs
          rw [List.getElem?_set] at hreplied
          split_ifs at hreplied with hsame hlt
          · subst hsame
            cases hreplied
            refine Or.inr ⟨hlt, ?_⟩
            obtain ⟨asked, route⟩ := before
            cases route with
            | routed =>
                simp only [Handler.step] at hafter
                simp only [Request.isHealth, Bool.and_eq_true, decide_eq_true_eq] at hhealth
                split_ifs at hafter with hallowed hmetrics hpath
                · cases hafter
                  simp [hallowed] at hhealth
                · cases encoded <;> cases hafter <;> simp [hmetrics] at hhealth
                · cases hafter
                · cases hafter
                  exact absurd hhealth.2 hpath
            | ready ready => cases hafter
            | named ready named =>
                cases hafter
                exact ⟨ready, named, rfl⟩
            | replied answer => cases hafter
          · exact Or.inl hreplied
        · cases hs
      · cases hs

-- Whatever order the writers come in, the state is the furthest one asked for.
theorem observed_state (hr : Observed.step.run {} events = some observed) :
    observed.Coded ∧
      observed.report.state = (events.filterMap ObservedEvent.state).foldl max .Starting := by
  refine Machine.run_history (fun events (observed : Observed) => observed.Coded ∧
    observed.report.state = (events.filterMap ObservedEvent.state).foldl max .Starting)
    ⟨Observed.start_coded, rfl⟩ ?_ hr
  intro events observed event next _ ⟨hcoded, hstate⟩ hs
  obtain ⟨hcoded', hstate'⟩ := Observed.step_coded hcoded hs
  refine ⟨hcoded', ?_⟩
  rw [hstate', hstate, List.filterMap_append, List.foldl_append]
  cases hevent : event.state with
  | none => simp [hevent]
  | some state => simp [hevent]

-- What was answered, in a half that had come to `low` when it was asked.
theorem Observed.Reads.replied {id : Nat} {request : Request} {response : Response}
    (h : observed.Reads low index) (hid : index ≤ id)
    (hreplied : observed.endpoint.handlers[id]? = some ⟨request, .replied response⟩)
    (hhealth : request.isHealth) :
    ∃ ready named degraded, response = healthReply ready named degraded ∧ low ≤ ready ∧
      ready ≤ named ∧ named ≤ observed.report.state := by
  have hreads := h.2 id _ hid hreplied
  simp only [Handler.Reads] at hreads
  rwa [if_pos hhealth] at hreads

theorem Observed.reads_from (hcoded : observed.Coded)
    (hr : Observed.step.run observed events = some next) :
    next.Reads observed.report.state observed.endpoint.handlers.length := by
  refine (Observed.run_reads hcoded ⟨le_refl _, fun id handler hid hhandler => ?_⟩ hr).2
  rw [List.getElem?_eq_none hid] at hhandler
  cases hhandler

end

theorem healthReply_status {ready named : State} {degraded : Bool} :
    (healthReply ready named degraded).status = if ready = .Serving then 200 else 503 := by
  cases ready <;> rfl

theorem healthReply_inj {ready named ready' named' : State} {degraded degraded' : Bool}
    (h : healthReply ready named degraded = healthReply ready' named' degraded') :
    named = named' ∧ degraded = degraded' :=
  asJson_injective (congrArg Response.body h)

theorem healthReply_ok {ready named : State} {degraded : Bool} :
    (healthReply ready named degraded).status = 200 ↔ ready = .Serving := by
  cases ready <;> simp [healthReply, Response.reply, State.isReady]

-- However the loads of the handlers and the writers of the report interleave, the
-- answers of a half only move forward: once one of them has said that it serves,
-- in its status or in its body, each that was asked for later says so in both.
theorem health_answers_forward (first second : List ObservedEvent) (middle last : Observed)
    (hfirst : Observed.step.run {} first = some middle)
    (hsecond : Observed.step.run middle second = some last) :
    middle.report.state = (first.filterMap ObservedEvent.state).foldl max .Starting ∧
    ∀ (earlier later : Nat) (asked asking : Request) (answer reply : Response),
      middle.endpoint.handlers[earlier]? = some ⟨asked, .replied answer⟩ → asked.isHealth →
      middle.endpoint.handlers.length ≤ later →
      last.endpoint.handlers[later]? = some ⟨asking, .replied reply⟩ → asking.isHealth →
      (∃ ready named degraded, answer = healthReply ready named degraded ∧
        ready ≤ named ∧ named ≤ middle.report.state) ∧
      (∃ ready named degraded, reply = healthReply ready named degraded ∧
        middle.report.state ≤ ready ∧ ready ≤ named) ∧
      ((answer.status = 200 ∨ ∃ degraded, answer.body = asJson .Serving degraded) →
        reply.status = 200 ∧ ∃ degraded, reply.body = asJson .Serving degraded) := by
  obtain ⟨hcoded, hstate⟩ := observed_state hfirst
  refine ⟨hstate, fun earlier later asked asking answer reply hanswer hasked hlater hreply
    hasking => ?_⟩
  have hbefore := Observed.reads_from Observed.start_coded hfirst
  obtain ⟨ready, named, degraded, rfl, -, hready, hnamed⟩ :=
    hbefore.replied (Nat.zero_le _) hanswer hasked
  obtain ⟨ready', named', degraded', rfl, hlow, hready', -⟩ :=
    (Observed.reads_from hcoded hsecond).replied hlater hreply hasking
  refine ⟨⟨ready, named, degraded, rfl, hready, hnamed⟩,
    ⟨ready', named', degraded', rfl, hlow, hready'⟩, fun hserves => ?_⟩
  have hserving : named = .Serving := by
    rcases hserves with hok | ⟨flagged, hbody⟩
    · exact le_antisymm (State.le_Serving _) (healthReply_ok.mp hok ▸ hready)
    · exact (asJson_injective hbody).1
  subst hserving
  have hready'' : ready' = .Serving := le_antisymm (State.le_Serving _) (hnamed.trans hlow)
  subst hready''
  have hnamed'' : named' = .Serving := le_antisymm (State.le_Serving _) hready'
  subst hnamed''
  exact ⟨healthReply_ok.mpr rfl, degraded', rfl⟩

-- A request that is answered across the end of startup, and one after it.
def acrossStartup : List ObservedEvent :=
  [.endpoint .accepted, .advanced .Registered, .endpoint (.asked ⟨"GET", "/health"⟩),
    .endpoint (.stepped 0 (.ok "")), .advanced .Serving, .endpoint (.stepped 0 (.ok "")),
    .endpoint (.stepped 0 (.ok ""))]

def afterStartup : List ObservedEvent :=
  [.advanced .Registered, .endpoint (.asked ⟨"HEAD", "/health"⟩),
    .endpoint (.stepped 1 (.ok "")), .endpoint (.stepped 1 (.ok "")), .degraded true,
    .endpoint (.stepped 1 (.ok ""))]

theorem across_startup_forward : ∃ middle last answer reply,
    Observed.step.run {} acrossStartup = some middle ∧
    Observed.step.run middle afterStartup = some last ∧
    middle.endpoint.handlers[0]? = some ⟨⟨"GET", "/health"⟩, .replied answer⟩ ∧
    last.endpoint.handlers[1]? = some ⟨⟨"HEAD", "/health"⟩, .replied reply⟩ ∧
    answer = ⟨503, "application/json", "\x7b\"state\":\"serving\"\x7d\n"⟩ ∧
    reply = ⟨200, "application/json", "\x7b\"state\":\"serving\",\"degraded\":true\x7d\n"⟩ ∧
    reply.status = 200 := by
  have hforward := (health_answers_forward acrossStartup afterStartup _ _ rfl rfl).2 0 1 _ _ _ _
    rfl rfl (by decide) rfl rfl
  exact ⟨_, _, _, _, rfl, rfl, rfl, rfl, by decide, by decide,
    (hforward.2.2 (Or.inr ⟨false, rfl⟩)).1⟩

end LwdMixnet
