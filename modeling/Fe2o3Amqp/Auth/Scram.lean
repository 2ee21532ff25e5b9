import Fe2o3Amqp.Serde.Format
import Fe2o3Amqp.Primitives
import Fe2o3Amqp.Util.Except

/-!
# SCRAM

The client's and the server's side of the mechanism, and the SASL layer that feeds them.  A text is
the list of its characters.  The cryptographic functions, base64 and the normalisation of passwords
come from other crates and are a parameter; a nonce is given where the code draws one.
-/

namespace Fe2o3Amqp

/-! ## Frames -/

inductive SaslCode where
  | ok | auth | sys | sysPerm | sysTemp
deriving DecidableEq, Repr

structure SaslInit where
  mechanism : Symbol
  initialResponse : Option Bytes
  hostname : Option String

structure SaslOutcome where
  code : SaslCode
  additionalData : Option Bytes

inductive SaslFrame where
  | mechanisms (saslServerMechanisms : List Symbol)
  | init (init : SaslInit)
  | challenge (challenge : Bytes)
  | response (response : Bytes)
  | outcome (outcome : SaslOutcome)

/-! ## Texts -/

/-- The characters of a `&str`. -/
abbrev Text := List Char

/-- `as_bytes`. -/
def textBytes (text : Text) : Bytes := utf8Bytes (String.ofList text)

/-- `std::str::from_utf8`. -/
def textFromUtf8 (bytes : Bytes) : Option Text := (fromUtf8 bytes).map String.toList

theorem textBytes_append (text text' : Text) :
    textBytes (text ++ text') = textBytes text ++ textBytes text' := by
  simp [textBytes, utf8Bytes, String.ofList_append]

theorem textFromUtf8_eq_some {bytes : Bytes} {text : Text} :
    textFromUtf8 bytes = some text ↔ bytes = textBytes text := by
  constructor
  · intro h
    obtain ⟨s, hs, rfl⟩ := Option.map_eq_some_iff.mp h
    unfold fromUtf8 String.fromUTF8? at hs
    split at hs
    · cases hs
      simp [textBytes, utf8Bytes, String.fromUTF8]
    · cases hs
  · rintro rfl
    simp [textFromUtf8, textBytes]

@[simp] theorem textFromUtf8_textBytes (text : Text) : textFromUtf8 (textBytes text) = some text :=
  textFromUtf8_eq_some.mpr rfl

theorem textBytes_injective {text text' : Text} (h : textBytes text = textBytes text') :
    text = text' := by
  have hread := textFromUtf8_eq_some.mpr h
  rw [textFromUtf8_textBytes] at hread
  exact Option.some.inj hread

/-- `strip_prefix`. -/
def stripPrefix (key text : Text) : Option Text :=
  if key <+: text then some (text.drop key.length) else none

theorem stripPrefix_eq_some {key text rest : Text} :
    stripPrefix key text = some rest ↔ text = key ++ rest := by
  unfold stripPrefix
  constructor
  · intro h
    split at h
    · rename_i hkey
      obtain ⟨rest', rfl⟩ := hkey
      simpa using h
    · cases h
  · rintro rfl
    simp

@[simp] theorem stripPrefix_append (key rest : Text) : stripPrefix key (key ++ rest) = some rest :=
  stripPrefix_eq_some.mpr rfl

/-- `ok_or`. -/
def okOr {E α : Type} (e : E) : Option α → Except E α
  | none => .error e
  | some a => .ok a

@[simp] theorem okOr_some {E α : Type} (e : E) (a : α) : okOr e (some a) = .ok a := rfl

theorem okOr_eq_ok {E α : Type} {e : E} {o : Option α} {a : α} : okOr e o = .ok a ↔ o = some a := by
  cases o <;> simp [okOr]

/-- `parse::<u32>`. -/
def parseU32 (text : Text) : Option UInt32 :=
  let digits := if text.head? = some '+' then text.tail else text
  if digits = [] ∨ ¬digits.all Char.isDigit then none
  else
    let value := Nat.ofDigitChars 10 digits 0
    if value < 2 ^ 32 then some (UInt32.ofNat value) else none

/-! ## The attributes -/

namespace Scram

def gs2Header : Text := ['n', ',', ',']

def usernameKey : Text := ['n', '=']

def reservedMext : Text := ['m', '=']

def nonceKey : Text := ['r', '=']

def channelBindingKey : Text := ['c', '=']

def saltKey : Text := ['s', '=']

def iterationCountKey : Text := ['i', '=']

def proofKey : Text := ['p', '=']

def verifierKey : Text := ['v', '=']

end Scram

open Scram

inductive ScramVersion where
  | sha1 | sha256 | sha512
deriving DecidableEq, Repr

def ScramVersion.mechanism : ScramVersion → Symbol
  | .sha1 => ⟨"SCRAM-SHA-1"⟩
  | .sha256 => ⟨"SCRAM-SHA-256"⟩
  | .sha512 => ⟨"SCRAM-SHA-512"⟩

/-- The functions of other crates.  `hmac` and `hI` return nothing for a key of invalid length. -/
structure ScramPrimitives where
  h : ScramVersion → Bytes → Bytes
  hmac : ScramVersion → Bytes → Bytes → Option Bytes
  hI : ScramVersion → Bytes → Bytes → UInt32 → Option Bytes
  encode : Bytes → Text
  decode : Text → Option Bytes
  saslprep : String → Option String

structure StoredPassword where
  salt : Bytes
  iterations : UInt32
  storedKey : Bytes
  serverKey : Bytes

structure ScramCredentialProvider where
  scramVersion : ScramVersion
  getStoredPassword : String → Option StoredPassword

inductive ScramErrorKind where
  | utf8Error | insufficientParts | extensionNotSupported | nonceNotFound | clientNonceMismatch
  | saltNotFound | base64DecodeError | iterationCountNotFound | iterationCountParseError
  | normalizeError | hmacErrorInvalidLength | xorLengthMismatch | illegalClientState
  | serverSignatureMismatch
deriving DecidableEq, Repr

inductive ServerScramErrorKind where
  | utf8Error | cannotParseGs2Header | cannotParseUsername | cannotParseClientNonce
  | hmacErrorInvalidLength | xorLengthMismatch | normalizeError | cannotParseClientFinalMessage
  | invalidChannelBinding | base64DecodeError | incorrectClientFinalNonce
  | proofNotFoundInClientFinal | authenticationFailed | illegalAuthenticatorState
deriving DecidableEq, Repr

def xor (lhs rhs : Bytes) : Option Bytes :=
  if lhs.length ≠ rhs.length then none else some (List.zipWith (· ^^^ ·) lhs rhs)

/-! ## The messages -/

/-- `b"Client Key"`. -/
def clientKeyLabel : Bytes := utf8Bytes "Client Key"

/-- `b"Server Key"`. -/
def serverKeyLabel : Bytes := utf8Bytes "Server Key"

def authMessage (clientFirstMessageBare serverFirstMessage clientFinalMessageWithoutProof : Bytes) :
    Bytes :=
  clientFirstMessageBare ++ textBytes [','] ++ serverFirstMessage ++ textBytes [','] ++
    clientFinalMessageWithoutProof

namespace ScramPrimitives

variable (P : ScramPrimitives)

def withoutProof (clientServerNonce : Text) : Text :=
  channelBindingKey ++ P.encode (textBytes gs2Header) ++ [','] ++ nonceKey ++ clientServerNonce

def clientFinal (clientFinalMessageWithoutProof clientProof : Text) : Text :=
  clientFinalMessageWithoutProof ++ [','] ++ proofKey ++ clientProof

/-- The server finds the part before the proof by the length of the rest. -/
theorem take_clientFinal (withoutProof proof : Text) :
    (textBytes (clientFinal withoutProof proof)).take
      ((textBytes (clientFinal withoutProof proof)).length -
        ((textBytes proof).length + (textBytes proofKey).length + 1)) = textBytes withoutProof := by
  have hcomma : (textBytes [',']).length = 1 := rfl
  simp only [clientFinal, textBytes_append, List.append_assoc, List.length_append, hcomma]
  exact List.take_left' (by omega)

/-- `client_first_message`: the message and its part behind the GS2 header. -/
def clientFirstMessage (username nonce : Text) : Text × Text :=
  let clientFirstMessageBare := usernameKey ++ username ++ [','] ++ nonceKey ++ nonce
  (gs2Header ++ clientFirstMessageBare, clientFirstMessageBare)

def computeSaltedPassword (version : ScramVersion) (password : String) (salt : Bytes)
    (iterations : UInt32) : Except ScramErrorKind Bytes := do
  let normalizedPassword ← okOr .normalizeError (P.saslprep password)
  okOr .hmacErrorInvalidLength (P.hI version (utf8Bytes normalizedPassword) salt iterations)

def computeServerSignature (version : ScramVersion) (saltedPassword message : Bytes) :
    Except ScramErrorKind Bytes := do
  let serverKey ← okOr .hmacErrorInvalidLength (P.hmac version saltedPassword serverKeyLabel)
  okOr .hmacErrorInvalidLength (P.hmac version serverKey message)

def computeClientProof (version : ScramVersion) (saltedPassword message : Bytes) :
    Except ScramErrorKind Bytes := do
  let clientKey ← okOr .hmacErrorInvalidLength (P.hmac version saltedPassword clientKeyLabel)
  let storedKey := P.h version clientKey
  let clientSignature ← okOr .hmacErrorInvalidLength (P.hmac version storedKey message)
  okOr .xorLengthMismatch (xor clientKey clientSignature)

/-- The client's last message and the signature that it expects of the server. -/
def computeClientFinalMessage (version : ScramVersion) (clientNonce : Text) (password : String)
    (serverFirst : Text) (clientFirstMessageBare : Bytes) :
    Except ScramErrorKind (Bytes × Bytes) := do
  match serverFirst.splitOn ',' with
  | nonce :: salt :: iterationCount :: _ =>
      if reservedMext <+: nonce then .error .extensionNotSupported
      else
        let clientServerNonce ← okOr .nonceNotFound (stripPrefix nonceKey nonce)
        if ¬clientNonce <+: clientServerNonce then .error .clientNonceMismatch
        else
          let base64Salt ← okOr .saltNotFound (stripPrefix saltKey salt)
          let salt ← okOr .base64DecodeError (P.decode base64Salt)
          let iterations ← okOr .iterationCountNotFound (stripPrefix iterationCountKey iterationCount)
          let iterations ← okOr .iterationCountParseError (parseU32 iterations)
          let saltedPassword ← P.computeSaltedPassword version password salt iterations
          let clientFinalMessageWithoutProof := P.withoutProof clientServerNonce
          let message := authMessage clientFirstMessageBare (textBytes serverFirst)
            (textBytes clientFinalMessageWithoutProof)
          let clientProof ← P.computeClientProof version saltedPassword message
          let serverSignature ← P.computeServerSignature version saltedPassword message
          return (textBytes (clientFinal clientFinalMessageWithoutProof (P.encode clientProof)),
            serverSignature)
  | _ => .error .insufficientParts

def validateServerFinal (serverFinal serverSignature : Bytes) : Except ScramErrorKind Unit := do
  let serverFinal ← okOr .utf8Error (textFromUtf8 serverFinal)
  let signature ← okOr .serverSignatureMismatch
    ((serverFinal.splitOn ',').head?.bind (stripPrefix verifierKey))
  let signatureBytes ← okOr .base64DecodeError (P.decode signature)
  if signatureBytes = serverSignature then .ok () else .error .serverSignatureMismatch

end ScramPrimitives

structure ServerFirstMessage where
  username : String
  clientFirstMessageBare : Bytes
  clientServerNonce : Bytes
  message : Bytes

namespace ScramPrimitives

variable (P : ScramPrimitives)

/-- The challenge to a user with the stored password. -/
def serverFirstMessage (clientServerNonce : Text) (storedPassword : StoredPassword) : Text :=
  nonceKey ++ clientServerNonce ++ [','] ++ saltKey ++ P.encode storedPassword.salt ++ [','] ++
    iterationCountKey ++ Nat.toDigits 10 storedPassword.iterations.toNat

/-- Returns nothing for a user without a stored password. -/
def computeServerFirstMessage (clientFirst : Bytes) (base64ServerNonce : Text)
    (credentials : ScramCredentialProvider) :
    Except ServerScramErrorKind (Option ServerFirstMessage) := do
  let clientFirst ← okOr .utf8Error (textFromUtf8 clientFirst)
  let clientFirstMessageBare ← okOr .cannotParseGs2Header (stripPrefix gs2Header clientFirst)
  let parts := clientFirstMessageBare.splitOn ','
  let username ← okOr .cannotParseUsername (parts[0]?.bind (stripPrefix usernameKey))
  let clientNonce ← okOr .cannotParseClientNonce (parts[1]?.bind (stripPrefix nonceKey))
  match credentials.getStoredPassword (String.ofList username) with
  | none => return none
  | some storedPassword =>
      let clientServerNonce := clientNonce ++ base64ServerNonce
      return some
        { username := String.ofList username
          clientFirstMessageBare := textBytes clientFirstMessageBare
          clientServerNonce := textBytes clientServerNonce
          message := textBytes (P.serverFirstMessage clientServerNonce storedPassword) }

def computeServerFinalMessage (version : ScramVersion)
    (clientFinal clientServerNonce clientFirstMessageBare serverFirstMessage : Bytes)
    (storedPassword : StoredPassword) : Except ServerScramErrorKind Bytes := do
  let clientFinalText ← okOr .utf8Error (textFromUtf8 clientFinal)
  let parts := clientFinalText.splitOn ','
  let channelBinding ← okOr .cannotParseClientFinalMessage
    (parts[0]?.bind (stripPrefix channelBindingKey))
  let channelBinding ← okOr .base64DecodeError (P.decode channelBinding)
  if channelBinding ≠ textBytes gs2Header then .error .invalidChannelBinding
  else
    let nonce ← okOr .cannotParseClientFinalMessage (parts[1]?.bind (stripPrefix nonceKey))
    if textBytes nonce ≠ clientServerNonce then .error .incorrectClientFinalNonce
    else
      let clientProof ← okOr .proofNotFoundInClientFinal
        (parts.getLast?.bind (stripPrefix proofKey))
      let withoutProofMessageLen :=
        clientFinal.length - ((textBytes clientProof).length + (textBytes proofKey).length + 1)
      let message := authMessage clientFirstMessageBare serverFirstMessage
        (clientFinal.take withoutProofMessageLen)
      let clientSignature ← okOr .hmacErrorInvalidLength
        (P.hmac version storedPassword.storedKey message)
      let clientProof ← okOr .base64DecodeError (P.decode clientProof)
      -- the inverse of xor is xor
      let clientKey ← okOr .xorLengthMismatch (xor clientProof clientSignature)
      if P.h version clientKey ≠ storedPassword.storedKey then .error .authenticationFailed
      else
        let serverSignature ← okOr .hmacErrorInvalidLength
          (P.hmac version storedPassword.serverKey message)
        return textBytes (verifierKey ++ P.encode serverSignature)

end ScramPrimitives

/-! ## The server -/

inductive ScramAuthenticatorState where
  | initial
  | serverFirstSent (first : ServerFirstMessage)
  | serverFinalSent

structure ScramAuthenticator where
  credentials : ScramCredentialProvider
  state : ScramAuthenticatorState

inductive SaslServerFrame where
  | challenge (challenge : Bytes)
  | outcome (outcome : SaslOutcome)

namespace ScramAuthenticator

variable (P : ScramPrimitives)

def new (credentials : ScramCredentialProvider) : ScramAuthenticator := ⟨credentials, .initial⟩

def refused : SaslServerFrame := .outcome ⟨.auth, none⟩

/-- `on_init`; `nonce` is the one that is drawn. -/
def onInit (server : ScramAuthenticator) (init : SaslInit) (nonce : Bytes) :
    SaslServerFrame × ScramAuthenticator :=
  if init.mechanism = server.credentials.scramVersion.mechanism then
    match init.initialResponse with
    | none => (refused, server)
    | some clientFirst =>
        match P.computeServerFirstMessage clientFirst (P.encode nonce) server.credentials with
        | .ok (some first) =>
            (.challenge first.message, { server with state := .serverFirstSent first })
        | _ => (refused, server)
  else (refused, server)

def onResponse (server : ScramAuthenticator) (response : Bytes) :
    SaslServerFrame × ScramAuthenticator :=
  match server.state with
  | .serverFirstSent first =>
      match server.credentials.getStoredPassword first.username with
      | none => (refused, server)
      | some storedPassword =>
          match P.computeServerFinalMessage server.credentials.scramVersion response
            first.clientServerNonce first.clientFirstMessageBare first.message storedPassword with
          | .error _ => (refused, server)
          | .ok serverFinal =>
              (.outcome ⟨.ok, some serverFinal⟩, { server with state := .serverFinalSent })
  | _ => (refused, server)

end ScramAuthenticator

/-! ## The client -/

inductive ScramClientState where
  | initial
  | clientFirstSent (clientNonce : Text) (clientFirstMessageBare : Bytes)
  | clientFinalSent (serverSignature : Bytes)
  | complete

structure ScramClient where
  username : String
  password : String
  scram : ScramVersion
  state : ScramClientState

namespace ScramClient

variable (P : ScramPrimitives)

def new (username password : String) (scram : ScramVersion) : ScramClient :=
  ⟨username, password, scram, .initial⟩

def computeClientFirstMessage (client : ScramClient) (nonce : Bytes) : Bytes × ScramClient :=
  let nonce := P.encode nonce
  let (message, bare) := ScramPrimitives.clientFirstMessage client.username.toList nonce
  (textBytes message, { client with state := .clientFirstSent nonce (textBytes bare) })

def computeClientFinalMessage (client : ScramClient) (serverFirst : Text) :
    Except ScramErrorKind Bytes × ScramClient :=
  match client.state with
  | .clientFirstSent clientNonce clientFirstMessageBare =>
      match P.computeClientFinalMessage client.scram clientNonce client.password serverFirst
        clientFirstMessageBare with
      | .error e => (.error e, client)
      | .ok (clientFinal, serverSignature) =>
          (.ok clientFinal, { client with state := .clientFinalSent serverSignature })
  | _ => (.error .illegalClientState, client)

def validateServerFinal (client : ScramClient) (serverFinal : Bytes) :
    Except ScramErrorKind Unit × ScramClient :=
  match client.state with
  | .clientFinalSent serverSignature =>
      match P.validateServerFinal serverFinal serverSignature with
      | .error e => (.error e, client)
      | .ok () => (.ok (), { client with state := .complete })
  | _ => (.error .illegalClientState, client)

end ScramClient

/-! ## The profile -/

inductive Negotiation where
  | init (init : SaslInit)
  | response (response : Bytes)
  | outcome (outcome : SaslOutcome)

/-- `Error` of the profiles; the first three are its `NotImplemented`. -/
inductive SaslProfileError where
  | notSupported (mechanism : Symbol)
  | challengeNotImplemented
  | notExpected (frame : SaslFrame)
  | scramError (kind : ScramErrorKind)

/-- The three SCRAM variants differ in the version that their clients carry. -/
inductive SaslProfile where
  | anonymous
  | plain (username password : String)
  | external
  | scram (client : ScramClient)

namespace SaslProfile

variable (P : ScramPrimitives)

def mechanism : SaslProfile → Symbol
  | .anonymous => ⟨"ANONYMOUS"⟩
  | .plain _ _ => ⟨"PLAIN"⟩
  | .external => ⟨"EXTERNAL"⟩
  | .scram client => client.scram.mechanism

def initialResponse (profile : SaslProfile) (nonce : Bytes) : Option Bytes × SaslProfile :=
  match profile with
  | .anonymous => (none, profile)
  | .external => (some [], profile)
  | .plain username password => (some (0 :: utf8Bytes username ++ 0 :: utf8Bytes password), profile)
  | .scram client =>
      let (message, client) := client.computeClientFirstMessage P nonce
      (some message, .scram client)

/-- `on_frame`; `nonce` is the one that is drawn for a first message. -/
def onFrame (profile : SaslProfile) (frame : SaslFrame) (hostname : Option String) (nonce : Bytes) :
    Except SaslProfileError Negotiation × SaslProfile :=
  match frame with
  | .mechanisms saslServerMechanisms =>
      let mechanism := profile.mechanism
      if mechanism ∈ saslServerMechanisms then
        let (initialResponse, profile) := profile.initialResponse P nonce
        (.ok (.init { mechanism, initialResponse, hostname }), profile)
      else (.error (.notSupported mechanism), profile)
  | .challenge challenge =>
      match profile with
      | .external =>
          if challenge = [] then (.ok (.response []), profile)
          else (.error .challengeNotImplemented, profile)
      | .anonymous | .plain _ _ => (.error .challengeNotImplemented, profile)
      | .scram client =>
          match textFromUtf8 challenge with
          | none => (.error (.scramError .utf8Error), profile)
          | some serverFirst =>
              match client.computeClientFinalMessage P serverFirst with
              | (.error e, client) => (.error (.scramError e), .scram client)
              | (.ok clientFinal, client) => (.ok (.response clientFinal), .scram client)
  | .outcome outcome =>
      match profile with
      | .scram client =>
          if outcome.code = .ok then
            match outcome.additionalData with
            | none => (.error (.scramError .serverSignatureMismatch), profile)
            | some serverFinal =>
                match client.validateServerFinal P serverFinal with
                | (.error e, client) => (.error (.scramError e), .scram client)
                | (.ok (), client) => (.ok (.outcome outcome), .scram client)
          else (.ok (.outcome outcome), profile)
      | _ => (.ok (.outcome outcome), profile)
  | .init _ | .response _ => (.error (.notExpected frame), profile)

end SaslProfile

end Fe2o3Amqp
