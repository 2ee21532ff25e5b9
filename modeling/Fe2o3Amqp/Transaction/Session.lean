import Fe2o3Amqp.Session.Endpoint

/-!
# Transactional sessions

The resource side of a transaction: a session endpoint that buffers the transfers and dispositions
of every open transaction and replays them into the session it wraps when the transaction commits.
The control link, whose coordinator asks for declares and discharges, reaches it through the
engine's control channel, and a disposition that a commit has to answer with goes back into that
channel.  The engine that runs the commit holds the receiving half, so that the channel is open;
waiting for room in it is not modelled.
-/

namespace Fe2o3Amqp

/-- What a transactional session asks of `endpoint::Session`. -/
class EndpointSession (S : Type) where
  onIncomingTransfer : S → Transfer → Payload → Except SessionInnerError (Option Disposition) × S
  onIncomingDisposition : S → Disposition → Except SessionInnerError (Option (List Disposition)) × S

instance : EndpointSession Session where
  onIncomingTransfer := Session.onIncomingTransfer
  onIncomingDisposition s disposition :=
    let (dispositions, s) := s.onIncomingDisposition disposition
    (.ok dispositions, s)

/-! ## Transactions -/

inductive TxnWorkFrame where
  | post (transfer : Transfer) (payload : Payload)
  | retire (disposition : Disposition)

structure ResourceTransaction where
  frames : List TxnWorkFrame

namespace ResourceTransaction

def new : ResourceTransaction := ⟨[]⟩

def push (txn : ResourceTransaction) (frame : TxnWorkFrame) : ResourceTransaction :=
  ⟨txn.frames ++ [frame]⟩

/-- The provisional outcome that answers a post which is not settled. -/
def postReply (txnId : TransactionId) (transfer : Transfer) : Option Disposition :=
  match transfer.settled with
  | some true => none
  | some false | none =>
      transfer.deliveryId.map fun deliveryId =>
        { role := .receiver
          first := deliveryId
          last := none
          settled := true
          state := some (.transactionalState ⟨txnId, some .accepted⟩)
          batchable := false }

def onIncomingPost (txn : ResourceTransaction) (txnId : TransactionId) (transfer : Transfer)
    (payload : Payload) : Option Disposition × ResourceTransaction :=
  (postReply txnId transfer, txn.push (.post transfer payload))

end ResourceTransaction

/-- The delivery state that a transactional state carries; any other state stays. -/
def carriedState : Option DeliveryState → Option DeliveryState
  | some (.transactionalState state) => state.outcome.map Outcome.toDeliveryState
  | state => state

/-- The transaction that a transfer or a disposition belongs to. -/
def transactionOf : Option DeliveryState → Option TransactionId
  | some (.transactionalState state) => some state.txnId
  | _ => none

/-- The transfer that a commit hands to the session. -/
def Transfer.discharged (transfer : Transfer) : Transfer :=
  { transfer with state := carriedState transfer.state }

/-- The disposition that a commit hands to the session. -/
def Disposition.discharged (disposition : Disposition) : Disposition :=
  { disposition with state := carriedState disposition.state, settled := true }

/-! ## The session -/

/-- `TxnSession<S>`; `control` are the dispositions that it put on the engine's control channel. -/
structure TxnSession (S : Type) where
  control : List Disposition
  session : S
  txns : IndexMap TransactionId ResourceTransaction

namespace TxnSession

variable {S : Type} [EndpointSession S]

/-- `allocate_transaction_id`: `drawn` are the ids that the loop draws, up to the first that no
transaction holds. -/
def allocateTransactionId (s : TxnSession S) : List TransactionId → Option TransactionId × TxnSession S
  | [] => (none, s)
  | txnId :: drawn =>
      if (s.txns.get txnId).isSome then allocateTransactionId s drawn
      else (some txnId, { s with txns := s.txns.insert txnId .new })

/-- One iteration of the loop of `commit_transaction`. -/
def applyFrame (s : TxnSession S) : TxnWorkFrame → Except SessionInnerError Unit × TxnSession S
  | .post transfer payload =>
      match EndpointSession.onIncomingTransfer s.session transfer.discharged payload with
      | (.error e, session) => (.error e, { s with session })
      | (.ok disposition, session) =>
          (.ok (), { s with session, control := s.control ++ disposition.toList })
  | .retire disposition =>
      match EndpointSession.onIncomingDisposition s.session disposition.discharged with
      | (.error e, session) => (.error e, { s with session })
      | (.ok dispositions, session) =>
          (.ok (), { s with session, control := s.control ++ dispositions.getD [] })

def applyFrames (s : TxnSession S) : List TxnWorkFrame → Except SessionInnerError Unit × TxnSession S
  | [] => (.ok (), s)
  | frame :: frames =>
      match s.applyFrame frame with
      | (.error e, s) => (.error e, s)
      | (.ok _, s) => applyFrames s frames

def commitTransaction (s : TxnSession S) (txnId : TransactionId) :
    Except SessionInnerError (Except TransactionError Unit) × TxnSession S :=
  match s.txns.get txnId with
  | none => (.ok (.error .unknownId), s)
  | some txn =>
      match applyFrames { s with txns := s.txns.swapRemove txnId } txn.frames with
      | (.error e, s) => (.error e, s)
      | (.ok _, s) => (.ok (.ok ()), s)

def rollbackTransaction (s : TxnSession S) (txnId : TransactionId) :
    Except SessionInnerError (Except TransactionError Unit) × TxnSession S :=
  match s.txns.get txnId with
  | none => (.ok (.error .unknownId), s)
  | some _ => (.ok (.ok ()), { s with txns := s.txns.swapRemove txnId })

def onIncomingTransfer (s : TxnSession S) (transfer : Transfer) (payload : Payload) :
    Except SessionInnerError (Option Disposition) × TxnSession S :=
  match transactionOf transfer.state with
  | none =>
      let (result, session) := EndpointSession.onIncomingTransfer s.session transfer payload
      (result, { s with session })
  | some txnId =>
      match s.txns.get txnId with
      | none => (.error .unknownTxnId, s)
      | some txn =>
          let (reply, txn) := txn.onIncomingPost txnId transfer payload
          (.ok reply, { s with txns := s.txns.modify txnId fun _ => txn })

def onIncomingDisposition (s : TxnSession S) (disposition : Disposition) :
    Except SessionInnerError (Option (List Disposition)) × TxnSession S :=
  match transactionOf disposition.state with
  | none =>
      let (result, session) := EndpointSession.onIncomingDisposition s.session disposition
      (result, { s with session })
  | some txnId =>
      match s.txns.get txnId with
      | none => (.error .unknownTxnId, s)
      | some _ => (.ok none, { s with txns := s.txns.modify txnId (·.push (.retire disposition)) })

end TxnSession

end Fe2o3Amqp
