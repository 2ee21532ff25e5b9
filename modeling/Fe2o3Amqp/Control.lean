import Fe2o3Amqp.Link.Relay

/-!
# Controls

The requests that reach the two engines over their control channels.  A request that asks for an
answer carries a oneshot channel; `responderDropped` says whether its receiving half is gone when
the engine sends the answer.
-/

namespace Fe2o3Amqp

/-- A session task, named by the channel on which the connection forwards frames to it. -/
abbrev SessionId := Nat

inductive ConnectionControl where
  | close (error : Option Error)
  | allocateSession (tx : SessionId) (responderDropped : Bool)
  | deallocateSession (channel : UInt16)

inductive SessionControl where
  | «end» (error : Option Error)
  | allocateLink (linkName : String) (linkRelay : LinkRelay Unit) (responderDropped : Bool)
  | allocateIncomingLink (linkName : String) (linkRelay : LinkRelay Unit)
      (inputHandle : InputHandle) (responderDropped : Bool)
  | deallocateLink (outputHandle : OutputHandle)
  | disposition (disposition : Disposition)
  | closeConnectionWithError (condition : ConnectionError) (description : Option String)
  | allocateTransactionId (responderDropped : Bool)
  | commitTransaction (txnId : TransactionId) (responderDropped : Bool)
  | rollbackTransaction (txnId : TransactionId) (responderDropped : Bool)
  | abortTransaction (txnId : TransactionId)

end Fe2o3Amqp
