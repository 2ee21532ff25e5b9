import Fe2o3Amqp.Types.Message
import Fe2o3Amqp.Util.IndexMap
import Fe2o3Amqp.Util.Run

/-!
# The management client

A request goes out on one link and its response comes in on another.  The client numbers its requests
but takes the next response for that of its own request; it never looks at a correlation-id.
-/

namespace Fe2o3Amqp

/-! ## Responses -/

structure StatusCode where
  code : UInt16
  nonzero : code ≠ 0

/-- `NonZeroU16::new`. -/
def StatusCode.new (code : UInt16) : Option StatusCode :=
  if h : code = 0 then none else some ⟨code, h⟩

/-- `TryFrom<SimpleValue>`: wider integers are truncated. -/
def StatusCode.tryFrom (value : SimpleValue) : Except SimpleValue StatusCode :=
  let code :=
    match value.value with
    | .ushort v => StatusCode.new v
    | .uint v => StatusCode.new v.toUInt16
    | .ulong v => StatusCode.new v.toUInt16
    | .short v => StatusCode.new v.toUInt16
    | .int v => StatusCode.new v.toInt16.toUInt16
    | .long v => StatusCode.new v.toInt16.toUInt16
    | _ => none
  match code with
  | some code => .ok code
  | none => .error value

structure StatusError where
  code : StatusCode
  description : Option String

structure InvalidType where
  expected : String
  actual : String

/-- The errors of a call whose request was accepted. -/
inductive MgmtError where
  | statusCodeNotFound
  | decodeError (error : Option InvalidType)
  | status (error : StatusError)
  | recv

namespace Message

variable {B : Type}

/-- `swap_remove` of the first of two keys that is there. -/
def removeApplicationProperty (message : Message B) (kebabCase lowerCamelCase : String) :
    Option SimpleValue × Message B :=
  match message.applicationProperties with
  | none => (none, message)
  | some properties =>
      let remove (key : String) : Message B :=
        { message with applicationProperties := some (IndexMap.swapRemoveEntries key properties) }
      match properties.get (· == ·) kebabCase with
      | some value => (some value, remove kebabCase)
      | none =>
          match properties.get (· == ·) lowerCamelCase with
          | some value => (some value, remove lowerCamelCase)
          | none => (none, message)

def removeStatusCode (message : Message B) : Option (Except SimpleValue StatusCode) × Message B :=
  let (value, message) := message.removeApplicationProperty "status-code" "statusCode"
  (value.map StatusCode.tryFrom, message)

def removeStatusDescription (message : Message B) : Option (Except SimpleValue String) × Message B :=
  let (value, message) := message.removeApplicationProperty "status-description" "statusDescription"
  (value.map fun value =>
    match value.value with
    | .string s => .ok s
    | _ => .error value, message)

def correlationId (message : Message B) : Option MessageId :=
  message.properties.bind Properties.correlationId

end Message

/-- The trait `Response`; `debug` is the formatting of values in its errors. -/
structure ResponseType (B R : Type) where
  statusCode : UInt16
  decodeMessage : Message B → Except MgmtError R
  debug : SimpleValue → String

namespace ResponseType

variable {B R : Type}

def verifyStatusCode (response : ResponseType B R) (message : Message B) :
    Except MgmtError (StatusCode × Message B) :=
  match message.removeStatusCode with
  | (none, _) => .error .statusCodeNotFound
  | (some (.error value), _) => .error (.decodeError (some ⟨"u16", response.debug value⟩))
  | (some (.ok statusCode), message) =>
      if statusCode.code ≠ response.statusCode then
        match message.removeStatusDescription.1 with
        | some (.ok description) => .error (.status ⟨statusCode, some description⟩)
        | some (.error value) => .error (.decodeError (some ⟨"String", response.debug value⟩))
        | none => .error (.status ⟨statusCode, none⟩)
      else .ok (statusCode, message)

def fromMessage (response : ResponseType B R) (message : Message B) : Except MgmtError R :=
  match response.verifyStatusCode message with
  | .error e => .error e
  | .ok (_, message) => response.decodeMessage message

end ResponseType

/-! ## Requests -/

structure MgmtClient where
  reqId : UInt64
  clientNodeAddr : String

/-- `Properties::default`. -/
def Properties.default : Properties :=
  ⟨none, none, none, none, none, none, none, none, none, none, none, none, none⟩

/-- The id of the request, and the client and the message behind the head of `send_request`.  The
client's number moves on even if the request has an id of its own. -/
def MgmtClient.prepare {B : Type} (client : MgmtClient) (message : Message B) :
    MessageId × MgmtClient × Message B :=
  let properties := message.properties.getD .default
  let messageId := properties.messageId.getD (.ulong client.reqId)
  let replyTo := properties.replyTo.getD client.clientNodeAddr
  (messageId, { client with reqId := client.reqId + 1 },
    { message with
      properties := some { properties with messageId := some messageId, replyTo := some replyTo } })

/-! ## Calls -/

/-- A response as the node sends it; its message is missing if it does not decode. -/
structure MgmtResponse (B : Type) where
  correlationId : MessageId
  message : Option (Message B)

/-- Where the future of a call awaits. -/
inductive CallPhase (B : Type) where
  /-- The credit, or room for one of the frames of the request that are left. -/
  | sending (framesLeft : Nat)
  | outcome
  | receiving
  /-- The response is taken; its disposition is being sent. -/
  | accepting (response : MgmtResponse B) (message : Message B)

/-- The request is with the node, and its response is not taken. -/
def CallPhase.isPending {B : Type} : CallPhase B → Bool
  | .outcome | .receiving => true
  | _ => false

structure MgmtCall (B R : Type) where
  messageId : MessageId
  response : ResponseType B R
  phase : CallPhase B

/-- A client, the requests that the node has accepted and not answered, and its responses on their
way, the oldest first. -/
structure MgmtExchange (B R : Type) where
  client : MgmtClient
  call : Option (MgmtCall B R)
  requests : List MessageId
  responses : List (MgmtResponse B)

/-- A call that has returned, with the response that it took. -/
structure Returned (B R : Type) where
  messageId : MessageId
  taken : MgmtResponse B
  result : Except MgmtError R

/-- A call that returns a response returns the one to its own request. -/
def Returned.AnswersOwn {B R : Type} (returned : Returned B R) : Prop :=
  ∀ response, returned.result = .ok response → returned.taken.correlationId = returned.messageId

inductive MgmtEvent (A B R : Type) where
  /-- A call begins; its request is split into one frame more than `continuations`. -/
  | call (request : Message A) (continuations : Nat) (response : ResponseType B R)
  | poll
  /-- The future of the call is dropped. -/
  | drop
  /-- The node answers the oldest request. -/
  | answer (message : Option (Message B))

namespace MgmtExchange

variable {A B R : Type}

def withPhase (s : MgmtExchange B R) (call : MgmtCall B R) (phase : CallPhase B) :
    MgmtExchange B R :=
  { s with call := some { call with phase } }

/-- The call goes on from its await point, if it can. -/
def pollCall (s : MgmtExchange B R) (call : MgmtCall B R) :
    MgmtExchange B R × List (Returned B R) :=
  match call.phase with
  | .sending (framesLeft + 1) => (s.withPhase call (.sending framesLeft), [])
  | .sending 0 =>
      -- the last frame; a request that stays without it is none to the node
      ({ s with requests := s.requests ++ [call.messageId] }.withPhase call .outcome, [])
  | .outcome => (s.withPhase call .receiving, [])
  | .receiving =>
      match s.responses with
      | [] => (s, [])
      | response :: responses =>
          match response.message with
          | none =>
              ({ s with call := none, responses }, [⟨call.messageId, response, .error .recv⟩])
          | some message => ({ s with responses }.withPhase call (.accepting response message), [])
  | .accepting response message =>
      ({ s with call := none },
        [⟨call.messageId, response, call.response.fromMessage message⟩])

/-- A message with the correlation-id of a response. -/
def correlate (messageId : MessageId) (message : Message B) : Message B :=
  { message with
    properties := some { message.properties.getD .default with correlationId := some messageId } }

/-- One event, and the calls that return in it.  A call holds the client exclusively. -/
def step (s : MgmtExchange B R) : MgmtEvent A B R → MgmtExchange B R × List (Returned B R)
  | .call request continuations response =>
      if s.call.isSome then (s, [])
      else
        let (messageId, client, _) := s.client.prepare request
        ({ s with client, call := some ⟨messageId, response, .sending continuations⟩ }, [])
  | .poll =>
      match s.call with
      | none => (s, [])
      | some call => s.pollCall call
  | .drop => ({ s with call := none }, [])
  | .answer message =>
      match s.requests with
      | [] => (s, [])
      | messageId :: requests =>
          ({ s with
            requests
            responses := s.responses ++ [⟨messageId, message.map (correlate messageId)⟩] }, [])

def start (client : MgmtClient) : MgmtExchange B R := ⟨client, none, [], []⟩

def pending (s : MgmtExchange B R) : Bool :=
  s.call.elim false fun call => call.phase.isPending

/-- No call is dropped behind the last frame of its request and before it takes a response. -/
def KeepsPairing (s : MgmtExchange B R) : MgmtEvent A B R → Prop
  | .drop => s.pending = false
  | _ => True

/-! ## Pairing -/

/-- The requests without a response, on their way back or with the node. -/
def unanswered (s : MgmtExchange B R) : List MessageId :=
  s.responses.map MgmtResponse.correlationId ++ s.requests

/-- Nothing but the request of the call is on its way, and a response that is taken answers it. -/
structure Paired (s : MgmtExchange B R) : Prop where
  idle : s.call = none → s.unanswered = []
  inFlight : ∀ call, s.call = some call →
    s.unanswered = if call.phase.isPending then [call.messageId] else []
  taken : ∀ call response message, s.call = some call → call.phase = .accepting response message →
    response.correlationId = call.messageId

theorem paired_start (client : MgmtClient) : (start client : MgmtExchange B R).Paired where
  idle := fun _ => rfl
  inFlight := fun call h => by cases h
  taken := fun call _ _ h => by cases h

/-- The call of a paired exchange in another phase. -/
theorem paired_withPhase {s : MgmtExchange B R} {call : MgmtCall B R} {phase : CallPhase B}
    (hunanswered : s.unanswered = if phase.isPending then [call.messageId] else [])
    (htaken : ∀ response message, phase = .accepting response message →
      response.correlationId = call.messageId) : (s.withPhase call phase).Paired where
  idle := fun h => by cases h
  inFlight := fun call' h => by
    cases h
    exact hunanswered
  taken := fun call' response message h hphase => by
    cases h
    exact htaken response message hphase

theorem paired_idle {s : MgmtExchange B R} (hcall : s.call = none) (hunanswered : s.unanswered = []) :
    s.Paired where
  idle := fun _ => hunanswered
  inFlight := fun call h => by cases hcall.symm.trans h
  taken := fun call _ _ h => by cases hcall.symm.trans h

theorem Paired.pollCall {s : MgmtExchange B R} (h : s.Paired) {call : MgmtCall B R}
    (hcall : s.call = some call) :
    (s.pollCall call).1.Paired ∧ ∀ returned ∈ (s.pollCall call).2, returned.AnswersOwn := by
  have hunanswered := h.inFlight call hcall
  simp only [MgmtExchange.pollCall]
  cases hphase : call.phase with
  | sending framesLeft =>
      simp only [hphase, CallPhase.isPending] at hunanswered
      cases framesLeft with
      | zero =>
          refine ⟨paired_withPhase ?_ ?_, by simp⟩
          · simpa [unanswered, CallPhase.isPending, ← List.append_assoc] using hunanswered
          · rintro _ _ ⟨⟩
      | succ framesLeft =>
          refine ⟨paired_withPhase hunanswered ?_, by simp⟩
          rintro _ _ ⟨⟩
  | outcome =>
      simp only [hphase] at hunanswered
      refine ⟨paired_withPhase hunanswered ?_, by simp⟩
      rintro _ _ ⟨⟩
  | accepting response message =>
      simp only [hphase, CallPhase.isPending] at hunanswered
      refine ⟨paired_idle rfl hunanswered, ?_⟩
      intro returned hreturned
      cases List.mem_singleton.mp hreturned
      exact fun _ _ => h.taken call response message hcall hphase
  | receiving =>
      simp only [hphase, CallPhase.isPending, if_true] at hunanswered
      cases hresponses : s.responses with
      | nil => exact ⟨h, by simp⟩
      | cons response responses =>
          -- the oldest of the unanswered is the request of the call
          obtain ⟨hown, hrest⟩ : response.correlationId = call.messageId ∧
              responses.map MgmtResponse.correlationId ++ s.requests = [] := by
            rw [unanswered, hresponses] at hunanswered
            exact List.cons.inj hunanswered
          cases hmessage : response.message with
          | none =>
              simp only [hmessage]
              refine ⟨paired_idle rfl hrest, ?_⟩
              intro returned hreturned
              cases List.mem_singleton.mp hreturned
              rintro _ ⟨⟩
          | some message =>
              simp only [hmessage]
              refine ⟨paired_withPhase hrest ?_, by simp⟩
              rintro _ _ ⟨⟩
              exact hown

theorem Paired.step {s : MgmtExchange B R} (h : s.Paired) {e : MgmtEvent A B R}
    (hkeeps : s.KeepsPairing e) :
    (s.step e).1.Paired ∧ ∀ returned ∈ (s.step e).2, returned.AnswersOwn := by
  cases e with
  | call request continuations response =>
      simp only [MgmtExchange.step]
      split_ifs with hbusy
      · exact ⟨h, by simp⟩
      · have hidle : s.call = none := by simpa using hbusy
        refine ⟨?_, by simp⟩
        constructor
        · rintro ⟨⟩
        · intro call hcall
          cases hcall
          exact h.idle hidle
        · intro call taken message hcall hphase
          cases hcall
          cases hphase
  | poll =>
      simp only [MgmtExchange.step]
      cases hcall : s.call with
      | none => exact ⟨h, by simp⟩
      | some call => exact h.pollCall hcall
  | drop =>
      refine ⟨paired_idle rfl ?_, by simp [MgmtExchange.step]⟩
      have hidle : s.pending = false := hkeeps
      cases hcall : s.call with
      | none => exact h.idle hcall
      | some call =>
          simp only [pending, hcall, Option.elim_some] at hidle
          have hunanswered := h.inFlight call hcall
          rwa [hidle, if_neg Bool.false_ne_true] at hunanswered
  | answer message =>
      simp only [MgmtExchange.step]
      cases hrequests : s.requests with
      | nil => exact ⟨h, by simp⟩
      | cons messageId requests =>
          have hsame (responses : List (MgmtResponse B))
              (hresponses : responses = s.responses ++ [⟨messageId, message.map (correlate messageId)⟩]) :
              responses.map MgmtResponse.correlationId ++ requests = s.unanswered := by
            rw [hresponses, unanswered, hrequests, List.map_append, List.append_assoc]
            rfl
          refine ⟨⟨fun hcall => ?_, fun call hcall => ?_, h.taken⟩, by simp⟩
          · exact (hsame _ rfl).trans (h.idle hcall)
          · exact (hsame _ rfl).trans (h.inFlight call hcall)

/-- In every run in which no call is dropped behind the last frame of its request and before it takes
a response, every call that returns a response returns the one to its own request. -/
theorem answersOwn_of_keepsPairing (client : MgmtClient) (events : List (MgmtEvent A B R))
    (h : Run.Along step KeepsPairing (start client) events) :
    ∀ returned ∈ (Run.run step (start client) events).2, returned.AnswersOwn := by
  rw [Run.forall_output_iff_along]
  have hpaired := paired_start (B := B) (R := R) client
  generalize (start client : MgmtExchange B R) = s at h hpaired
  induction events generalizing s with
  | nil => trivial
  | cons e events ih =>
      obtain ⟨hnext, hfirst⟩ := hpaired.step h.1
      exact ⟨hfirst, ih _ h.2 hnext⟩

section Witnesses

private def statusOk : ApplicationProperties :=
  [("statusCode", ⟨.int 200, rfl⟩)]

/-- A response whose body is its text. -/
private def replied (text : String) : Message String where
  header := none
  deliveryAnnotations := none
  messageAnnotations := none
  properties := none
  applicationProperties := some statusOk
  body := text
  footer := none

private def textResponse : ResponseType String String where
  statusCode := 200
  decodeMessage := fun message => .ok message.body
  debug := fun _ => ""

private def read : Message Unit where
  header := none
  deliveryAnnotations := none
  messageAnnotations := none
  properties := none
  applicationProperties := none
  body := ()
  footer := none

private def newClient : MgmtClient := ⟨0, "client"⟩

/-- A call that is dropped before its request is out, and one that returns. -/
theorem second_call_answered :
    Returned.AnswersOwn (B := String) (R := String)
      ⟨.ulong 1, ⟨.ulong 1, some (correlate (.ulong 1) (replied "second"))⟩, .ok "second"⟩ :=
  answersOwn_of_keepsPairing newClient
    [.call read 0 textResponse, .drop, .call read 1 textResponse, .poll, .poll, .poll,
      .answer (some (replied "second")), .poll, .poll]
    ⟨trivial, rfl, trivial, trivial, trivial, trivial, trivial, trivial, trivial, trivial⟩ _
    (List.mem_singleton.mpr rfl)

/-- The first call is dropped while it waits for its response, which the second call returns. -/
theorem first_response_returned :
    ¬∀ returned ∈ (Run.run step (start newClient)
      [.call read 0 textResponse, .poll, .poll, .drop, .answer (some (replied "first")),
        .call read 0 textResponse, .poll, .poll, .poll, .poll]).2, returned.AnswersOwn := by
  intro hall
  have hreturned := hall
    ⟨.ulong 1, ⟨.ulong 0, some (correlate (.ulong 0) (replied "first"))⟩, .ok "first"⟩
    (List.mem_singleton.mpr rfl) "first" rfl
  cases hreturned

end Witnesses

end MgmtExchange

end Fe2o3Amqp
