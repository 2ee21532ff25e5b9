import Fe2o3Amqp.Primitives
import Mathlib.Data.List.Induction
import Mathlib.Tactic.Common

/-!
# The WebSocket adapter

`WebSocketStream`, which reads and writes a stream of bytes as the binary messages of a WebSocket.
The socket is a stream and a sink of messages: what each poll of the stream finds, and what the sink
answers to each message, is up to the other side.
-/

namespace Fe2o3Amqp.WebSocket

/-! ## Messages and errors -/

/-- `tungstenite::Message`. -/
inductive Message
  | text (text : String)
  | binary (payload : Bytes)
  | ping (payload : Bytes)
  | pong (payload : Bytes)
  | close
  | frame
deriving DecidableEq

inductive IoErrorKind
  | notConnected | invalidData | other
  | os (code : Int)
deriving DecidableEq

structure IoError where
  kind : IoErrorKind
  text : String
deriving DecidableEq

/-- `tungstenite::Error`. -/
inductive TungsteniteError
  | connectionClosed
  | alreadyClosed
  | io (err : IoError)
  | capacity (text : String)
  | other (text : String)
deriving DecidableEq

/-- The error of the adapter. -/
inductive Error
  | tungstenite (e : TungsteniteError)
  | statucCodeIsNotSwitchingProtocols
  | missingSecWebSocketProtocol
  | secWebSocketProtocolIsNotAmqp
deriving DecidableEq

def mapStreamError : Error → IoError
  | .tungstenite .connectionClosed => ⟨.notConnected, "not connected"⟩
  | .tungstenite .alreadyClosed => ⟨.notConnected, "not connected"⟩
  | .tungstenite (.io err) => err
  | .tungstenite (.capacity text) => ⟨.invalidData, text⟩
  | .tungstenite (.other text) => ⟨.other, text⟩
  | .statucCodeIsNotSwitchingProtocols => ⟨.other, "A status code 101 is expected"⟩
  | .missingSecWebSocketProtocol => ⟨.other, "No \"Sec-WebSocket-Protocol\" header"⟩
  | .secWebSocketProtocolIsNotAmqp => ⟨.other, "Expect \"Sec-WebSocket-Protocol\" equal to \"amqp\""⟩

/-! ## The socket -/

inductive Poll (α : Type)
  | pending
  | ready (a : α)
deriving DecidableEq

/-- What polling the stream finds, poll by poll.  Behind that it has ended, or nothing has arrived
yet. -/
structure MessageStream where
  arrivals : List (Poll (Except Error Message))
  ended : Bool

/-- What a sink answers: to the question whether it is ready, and then to the message. -/
structure SinkAnswer where
  ready : Poll (Except Error Unit)
  send : Except Error Unit

/-! ## The adapter -/

/-- `std::io::Cursor`. -/
structure Cursor where
  bytes : Bytes
  position : Nat

/-- `ReadBuf`: what it is filled with, and how many bytes more it takes. -/
structure ReadBuf where
  filled : Bytes
  remaining : Nat

structure WebSocketStream where
  inner : MessageStream
  /-- the messages that the sink has taken -/
  sent : List Message
  currentBinary : Option Cursor

/-- What `poll_read` returns, unless it panics. -/
inductive ReadOutcome
  | poll (result : Poll (Except IoError Unit))
  | unreachable
deriving DecidableEq

def Cursor.unread (cursor : Cursor) : Bytes := cursor.bytes.drop cursor.position

/-- The loop of `poll_read`: the cursor that has bytes, or what ends the call before there is one. -/
def nextBinary (ended : Bool) (cursor : Option Cursor) (arrivals : List (Poll (Except Error Message))) :
    Except ReadOutcome Cursor × Option Cursor × List (Poll (Except Error Message)) :=
  match cursor.filter fun cursor => cursor.position < cursor.bytes.length with
  | some itemToCopy => (.ok itemToCopy, cursor, arrivals)
  | none =>
      match arrivals with
      | [] => (.error (.poll (if ended then .ready (.ok ()) else .pending)), cursor, [])
      | .pending :: arrivals => (.error (.poll .pending), cursor, arrivals)
      | .ready (.error e) :: arrivals =>
          (.error (.poll (.ready (.error (mapStreamError e)))), cursor, arrivals)
      | .ready (.ok (.text _)) :: arrivals =>
          (.error (.poll (.ready (.error ⟨.invalidData, "Text messsage is not supported"⟩))), cursor,
            arrivals)
      | .ready (.ok (.binary buf)) :: arrivals => nextBinary ended (some ⟨buf, 0⟩) arrivals
      | .ready (.ok (.ping _)) :: arrivals => nextBinary ended cursor arrivals
      | .ready (.ok (.pong _)) :: arrivals => nextBinary ended cursor arrivals
      | .ready (.ok .close) :: arrivals => nextBinary ended cursor arrivals
      | .ready (.ok .frame) :: arrivals => (.error .unreachable, cursor, arrivals)

namespace WebSocketStream

/-- `poll_read`. -/
def pollRead (buf : ReadBuf) (s : WebSocketStream) : ReadOutcome × ReadBuf × WebSocketStream :=
  let found := nextBinary s.inner.ended s.currentBinary s.inner.arrivals
  let s := { s with currentBinary := found.2.1, inner := { s.inner with arrivals := found.2.2 } }
  match found.1 with
  | .error outcome => (outcome, buf, s)
  | .ok itemToCopy =>
      let lenToRead := min buf.remaining (itemToCopy.bytes.length - itemToCopy.position)
      let read := itemToCopy.unread.take lenToRead
      (.poll (.ready (.ok ())), ⟨buf.filled ++ read, buf.remaining - lenToRead⟩,
        { s with currentBinary := some ⟨itemToCopy.bytes, itemToCopy.position + lenToRead⟩ })

/-- `poll_write`. -/
def pollWrite (answer : SinkAnswer) (buf : Bytes) (s : WebSocketStream) :
    Poll (Except IoError Nat) × WebSocketStream :=
  match answer.ready with
  | .pending => (.pending, s)
  | .ready (.error e) => (.ready (.error (mapStreamError e)), s)
  | .ready (.ok _) =>
      match answer.send with
      | .ok _ => (.ready (.ok buf.length), { s with sent := s.sent ++ [.binary buf] })
      | .error e => (.ready (.error (mapStreamError e)), s)

end WebSocketStream

/-! ## Runs -/

/-- The calls of a task that reads and writes. -/
inductive Call
  | read (buf : ReadBuf)
  | write (answer : SinkAnswer) (buf : Bytes)

/-- What has been read and what has been reported as written. -/
structure Exchange where
  stream : WebSocketStream
  received : Bytes
  written : Bytes

def Exchange.step (e : Exchange) : Call → Exchange
  | .read buf =>
      let result := e.stream.pollRead buf
      { e with stream := result.2.2, received := e.received ++ result.2.1.filled.drop buf.filled.length }
  | .write answer buf =>
      let result := e.stream.pollWrite answer buf
      match result.1 with
      | .ready (.ok n) => { e with stream := result.2, written := e.written ++ buf.take n }
      | _ => { e with stream := result.2 }

/-- The adapter over a new socket, after these calls. -/
def Exchange.after (inner : MessageStream) (calls : List Call) : Exchange :=
  calls.foldl Exchange.step ⟨⟨inner, [], none⟩, [], []⟩

/-- The payload of a binary message. -/
def payloadOf : Poll (Except Error Message) → Bytes
  | .ready (.ok (.binary payload)) => payload
  | _ => []

/-- The payloads of the binary messages, one behind the other. -/
def payloads (arrivals : List (Poll (Except Error Message))) : Bytes := arrivals.flatMap payloadOf

/-- What has arrived, or is to arrive, and has not been read. -/
def WebSocketStream.unread (s : WebSocketStream) : Bytes :=
  s.currentBinary.elim [] Cursor.unread ++ payloads s.inner.arrivals

/-! ## Reading -/

private theorem readable_eq_none {cursor : Option Cursor}
    (h : cursor.filter (fun cursor => cursor.position < cursor.bytes.length) = none) :
    cursor.elim [] Cursor.unread = [] := by
  cases cursor with
  | none => rfl
  | some cursor => simpa [Cursor.unread] using h

private theorem nextBinary_of_readable {cursor : Option Cursor} {item : Cursor} (ended : Bool)
    (arrivals : List (Poll (Except Error Message)))
    (h : cursor.filter (fun cursor => cursor.position < cursor.bytes.length) = some item) :
    nextBinary ended cursor arrivals = (.ok item, cursor, arrivals) := by
  unfold nextBinary
  rw [h]

/-- The loop loses no byte.  It finds a cursor with bytes, or it ends the call; as if it had read
nothing only at the end of the stream. -/
private theorem nextBinary_eq (ended : Bool) (cursor : Option Cursor)
    (arrivals : List (Poll (Except Error Message))) :
    let found := nextBinary ended cursor arrivals
    let unread := cursor.elim [] Cursor.unread ++ payloads arrivals
    found.2.1.elim [] Cursor.unread ++ payloads found.2.2 = unread ∧
      (∀ item, found.1 = .ok item → found.2.1 = some item ∧ item.unread ≠ []) ∧
      (found.1 = .error (.poll (.ready (.ok ()))) → ended = true ∧ unread = []) := by
  induction arrivals generalizing cursor with
  | nil =>
      rcases hreadable : cursor.filter fun cursor => cursor.position < cursor.bytes.length with - | item
      · have hnone := readable_eq_none hreadable
        rw [nextBinary, hreadable]
        refine ⟨rfl, ?_, ?_⟩
        · intro found hfound
          cases hfound
        · intro hend
          cases ended with
          | true => exact ⟨rfl, by simpa [payloads] using hnone⟩
          | false => simp at hend
      · rw [nextBinary_of_readable _ _ hreadable]
        obtain ⟨rfl, hitem⟩ := Option.filter_eq_some_iff.mp hreadable
        refine ⟨rfl, ?_, ?_⟩
        · intro found hfound
          cases hfound
          exact ⟨rfl, by simpa [Cursor.unread] using hitem⟩
        · intro hend
          cases hend
  | cons arrival arrivals ih =>
      rcases hreadable : cursor.filter fun cursor => cursor.position < cursor.bytes.length with - | item
      · have hnone := readable_eq_none hreadable
        rcases arrival with - | (e | message)
        · rw [nextBinary, hreadable]
          simp [payloads, payloadOf]
        · rw [nextBinary, hreadable]
          simp [payloads, payloadOf]
        · cases message with
          | text text =>
              rw [nextBinary, hreadable]
              simp [payloads, payloadOf]
          | frame =>
              rw [nextBinary, hreadable]
              simp [payloads, payloadOf]
          | ping payload =>
              rw [nextBinary, hreadable]
              exact ih cursor
          | pong payload =>
              rw [nextBinary, hreadable]
              exact ih cursor
          | close =>
              rw [nextBinary, hreadable]
              exact ih cursor
          | binary buf =>
              rw [nextBinary, hreadable]
              have h := ih (some ⟨buf, 0⟩)
              simpa [payloads, payloadOf, hnone, Cursor.unread] using h
      · rw [nextBinary_of_readable _ _ hreadable]
        obtain ⟨rfl, hitem⟩ := Option.filter_eq_some_iff.mp hreadable
        refine ⟨rfl, ?_, ?_⟩
        · intro found hfound
          cases hfound
          exact ⟨rfl, by simpa [Cursor.unread] using hitem⟩
        · intro hend
          cases hend

/-- A call of `poll_read` puts the front of what is unread into the buffer and leaves the rest
unread. -/
theorem pollRead_eq (buf : ReadBuf) (s : WebSocketStream) :
    ∃ bytes, (s.pollRead buf).2.1.filled = buf.filled ++ bytes ∧
      (s.pollRead buf).2.1.remaining + bytes.length = buf.remaining ∧
      bytes ++ (s.pollRead buf).2.2.unread = s.unread ∧
      ((s.pollRead buf).1 = .poll (.ready (.ok ())) → bytes = [] → buf.remaining ≠ 0 →
        s.inner.ended = true ∧ s.unread = []) := by
  obtain ⟨hkept, hfound, hend⟩ := nextBinary_eq s.inner.ended s.currentBinary s.inner.arrivals
  rcases houtcome : (nextBinary s.inner.ended s.currentBinary s.inner.arrivals).1 with outcome | cursor
  · refine ⟨[], ?_, ?_, ?_, ?_⟩
    · simp [WebSocketStream.pollRead, houtcome]
    · simp [WebSocketStream.pollRead, houtcome]
    · simpa [WebSocketStream.pollRead, houtcome, WebSocketStream.unread] using hkept
    · intro hready _ _
      apply hend
      rw [houtcome]
      simpa [WebSocketStream.pollRead, houtcome] using hready
  · obtain ⟨hcursor, hunread⟩ := hfound cursor houtcome
    have hlength : cursor.unread.length = cursor.bytes.length - cursor.position := List.length_drop
    refine ⟨cursor.unread.take (min buf.remaining (cursor.bytes.length - cursor.position)), ?_, ?_, ?_, ?_⟩
    · simp [WebSocketStream.pollRead, houtcome]
    · simp only [WebSocketStream.pollRead, houtcome, List.length_take, hlength]
      omega
    · have hsplit (n : Nat) : cursor.unread.take n ++ cursor.bytes.drop (cursor.position + n) =
          cursor.unread := by
        rw [Cursor.unread, ← List.drop_drop, List.take_append_drop]
      simp only [hcursor, Option.elim_some] at hkept
      simp only [WebSocketStream.pollRead, houtcome, WebSocketStream.unread, Option.elim_some]
      rw [← List.append_assoc, ← hkept]
      exact congrArg (· ++ _) (hsplit _)
    · intro _ hnone hremaining
      have hpos := List.length_pos_iff.mpr hunread
      have := congrArg List.length hnone
      simp only [List.length_take, List.length_nil, hlength] at this hpos
      omega

/-- A message that the loop passes over. -/
def Passed : Poll (Except Error Message) → Prop
  | .ready (.ok (.binary payload)) => payload = []
  | .ready (.ok (.ping _)) | .ready (.ok (.pong _)) | .ready (.ok .close) => True
  | _ => False

/-- There are bytes at hand: of the cursor, or of the next binary message that is not passed over. -/
def WebSocketStream.AtHand (s : WebSocketStream) : Prop :=
  s.currentBinary.elim [] Cursor.unread ≠ [] ∨
    ∃ front payload rest, s.inner.arrivals = front ++ .ready (.ok (.binary payload)) :: rest ∧
      payload ≠ [] ∧ ∀ arrival ∈ front, Passed arrival

private theorem nextBinary_of_unread {cursor : Option Cursor} (ended : Bool)
    (arrivals : List (Poll (Except Error Message))) (h : cursor.elim [] Cursor.unread ≠ []) :
    ∃ item, (nextBinary ended cursor arrivals).1 = .ok item := by
  rcases hreadable : cursor.filter fun cursor => cursor.position < cursor.bytes.length with - | item
  · exact absurd (readable_eq_none hreadable) h
  · exact ⟨item, by rw [nextBinary_of_readable ended arrivals hreadable]⟩

private theorem nextBinary_of_passed {cursor : Option Cursor} (ended : Bool)
    {front rest : List (Poll (Except Error Message))} {payload : Bytes} (hpayload : payload ≠ [])
    (hpassed : ∀ arrival ∈ front, Passed arrival) :
    ∃ item, (nextBinary ended cursor (front ++ .ready (.ok (.binary payload)) :: rest)).1 = .ok item := by
  induction front generalizing cursor with
  | nil =>
      by_cases hunread : cursor.elim [] Cursor.unread = []
      · rw [List.nil_append, nextBinary]
        split
        · exact ⟨_, rfl⟩
        · exact nextBinary_of_unread ended rest hpayload
      · exact nextBinary_of_unread ended _ hunread
  | cons arrival front ih =>
      have hrest {cursor : Option Cursor} := @ih cursor fun other hmem =>
        hpassed other (List.mem_cons_of_mem _ hmem)
      have hpass := hpassed arrival List.mem_cons_self
      rw [List.cons_append]
      rcases hreadable : cursor.filter fun cursor => cursor.position < cursor.bytes.length with - | item
      · rcases arrival with - | (e | message)
        · exact hpass.elim
        · exact hpass.elim
        · cases message with
          | text text => exact hpass.elim
          | frame => exact hpass.elim
          | ping payload =>
              rw [nextBinary, hreadable]
              exact hrest
          | pong payload =>
              rw [nextBinary, hreadable]
              exact hrest
          | close =>
              rw [nextBinary, hreadable]
              exact hrest
          | binary payload =>
              rw [nextBinary, hreadable]
              exact hrest
      · exact ⟨item, by rw [nextBinary_of_readable ended _ hreadable]⟩

/-- With bytes at hand and room in the buffer, a call of `poll_read` returns at least one byte. -/
theorem pollRead_returns {s : WebSocketStream} (h : s.AtHand) {buf : ReadBuf}
    (hroom : buf.remaining ≠ 0) :
    (s.pollRead buf).1 = .poll (.ready (.ok ())) ∧
      buf.filled.length < (s.pollRead buf).2.1.filled.length := by
  obtain ⟨item, hitem⟩ : ∃ item,
      (nextBinary s.inner.ended s.currentBinary s.inner.arrivals).1 = .ok item := by
    rcases h with hunread | ⟨front, payload, rest, harrivals, hpayload, hpassed⟩
    · exact nextBinary_of_unread _ _ hunread
    · rw [harrivals]
      exact nextBinary_of_passed _ hpayload hpassed
  have hready : (s.pollRead buf).1 = .poll (.ready (.ok ())) := by
    simp [WebSocketStream.pollRead, hitem]
  refine ⟨hready, ?_⟩
  obtain ⟨bytes, hfilled, -⟩ := pollRead_eq buf s
  obtain ⟨-, hfound, -⟩ := nextBinary_eq s.inner.ended s.currentBinary s.inner.arrivals
  have hpos := List.length_pos_iff.mpr (hfound item hitem).2
  have hlength : bytes.length = min buf.remaining item.unread.length := by
    have hfilled' := congrArg List.length hfilled
    simp only [WebSocketStream.pollRead, hitem, List.length_append, List.length_take] at hfilled'
    simp only [Cursor.unread, List.length_drop] at hfilled' ⊢
    omega
  rw [hfilled, List.length_append, hlength]
  omega

/-! ## Writing -/

theorem pollWrite_eq (answer : SinkAnswer) (buf : Bytes) (s : WebSocketStream) :
    (s.pollWrite answer buf).2.currentBinary = s.currentBinary ∧
      (s.pollWrite answer buf).2.inner = s.inner ∧
      (((s.pollWrite answer buf).1 = .ready (.ok buf.length) ∧
          (s.pollWrite answer buf).2.sent = s.sent ++ [.binary buf]) ∨
        ((∀ n, (s.pollWrite answer buf).1 ≠ .ready (.ok n)) ∧
          (s.pollWrite answer buf).2.sent = s.sent)) := by
  rcases answer with ⟨_ | (e | _), (e' | _)⟩ <;> simp [WebSocketStream.pollWrite]

/-! ## Runs -/

/-- The bytes read and those unread are those of the messages; the messages sent are binary, with the
bytes written as their payloads. -/
structure Exchange.Faithful (inner : MessageStream) (e : Exchange) : Prop where
  read : e.received ++ e.stream.unread = payloads inner.arrivals
  ended : e.stream.inner.ended = inner.ended
  sent : ∃ parts : List Bytes, e.stream.sent = parts.map Message.binary ∧ parts.flatten = e.written

theorem Exchange.Faithful.step {inner : MessageStream} {e : Exchange} (h : e.Faithful inner)
    (call : Call) : (e.step call).Faithful inner := by
  cases call with
  | read buf =>
      obtain ⟨bytes, hfilled, -, hunread, -⟩ := pollRead_eq buf e.stream
      have hbytes : (e.stream.pollRead buf).2.1.filled.drop buf.filled.length = bytes := by
        rw [hfilled, List.drop_left]
      obtain ⟨hended, hsent⟩ : (e.stream.pollRead buf).2.2.inner.ended = e.stream.inner.ended ∧
          (e.stream.pollRead buf).2.2.sent = e.stream.sent := by
        rw [WebSocketStream.pollRead]
        constructor <;> split <;> rfl
      refine ⟨?_, hended.trans h.ended, ?_⟩
      · rw [Exchange.step, hbytes]
        simp only [List.append_assoc, hunread]
        exact h.read
      · rw [Exchange.step]
        simp only [hsent]
        exact h.sent
  | write answer buf =>
      obtain ⟨hcursor, hinner, ⟨hreported, hsent⟩ | ⟨hrefused, hsent⟩⟩ := pollWrite_eq answer buf e.stream
      · obtain ⟨parts, hparts, hwritten⟩ := h.sent
        rw [Exchange.step, hreported]
        refine ⟨?_, ?_, parts ++ [buf], ?_, ?_⟩
        · simpa only [WebSocketStream.unread, hcursor, hinner] using h.read
        · simpa only [hinner] using h.ended
        · simp [hsent, hparts]
        · simp [hwritten]
      · have hstep : e.step (.write answer buf) =
            { e with stream := (e.stream.pollWrite answer buf).2 } := by
          rw [Exchange.step]
          split
          · rename_i n hn
            exact absurd hn (hrefused n)
          · rfl
        rw [hstep]
        refine ⟨?_, ?_, ?_⟩
        · simpa only [WebSocketStream.unread, hcursor, hinner] using h.read
        · simpa only [hinner] using h.ended
        · simpa only [hsent] using h.sent

theorem Exchange.after_faithful (inner : MessageStream) (calls : List Call) :
    (Exchange.after inner calls).Faithful inner := by
  induction calls using List.reverseRecOn with
  | nil => exact ⟨rfl, rfl, [], rfl, rfl⟩
  | append_singleton calls call ih =>
      rw [Exchange.after, List.foldl_append]
      exact ih.step call

/-- The adapter is a faithful stream of bytes.  After any calls, the bytes read so far and those that
are left are the payloads of the binary messages, and the messages that the sink has taken carry the
bytes reported as written.  A read with room in its buffer returns without bytes, and without an error,
only when the stream has ended and all the bytes have been returned. -/
theorem webSocketStream_faithful (inner : MessageStream) (calls : List Call) :
    let e := Exchange.after inner calls
    e.received ++ e.stream.unread = payloads inner.arrivals ∧
      (∃ parts : List Bytes, e.stream.sent = parts.map Message.binary ∧ parts.flatten = e.written) ∧
      ∀ buf : ReadBuf,
        (e.stream.pollRead buf).1 = .poll (.ready (.ok ())) →
        (e.stream.pollRead buf).2.1.filled = buf.filled → buf.remaining ≠ 0 →
          inner.ended = true ∧ e.received = payloads inner.arrivals := by
  have h := Exchange.after_faithful inner calls
  refine ⟨h.read, h.sent, ?_⟩
  intro buf hready hfilled hremaining
  obtain ⟨bytes, hbytes, -, -, hend⟩ := pollRead_eq buf (Exchange.after inner calls).stream
  have hnone : bytes = [] := by
    rw [hfilled] at hbytes
    exact List.self_eq_append_right.mp hbytes
  obtain ⟨hended, hunread⟩ := hend hready hnone hremaining
  have hread := h.read
  rw [hunread, List.append_nil] at hread
  exact ⟨h.ended ▸ hended, hread⟩

end Fe2o3Amqp.WebSocket
