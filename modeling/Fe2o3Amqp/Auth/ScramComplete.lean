import Fe2o3Amqp.Auth.ScramSha1
import Fe2o3Amqp.Auth.ScramSound

/-!
# Completeness of SCRAM

A client and a server that know the same password accept each other exactly when no comma occurs in
the username: the client writes the name into its first message as it is, and the server splits the
message at its commas.
-/

namespace Fe2o3Amqp

open Scram

/-- What the code relies on of the other crates. -/
structure ScramPrimitives.Lawful (P : ScramPrimitives) : Prop where
  decode_encode : ∀ bytes, P.decode (P.encode bytes) = some bytes
  comma_not_mem_encode : ∀ bytes, ',' ∉ P.encode bytes
  /-- A key may have any length, and the code has the one of the hash function. -/
  exists_hmac : ∀ version, ∃ length, ∀ key message, ∃ code,
    P.hmac version key message = some code ∧ code.length = length
  exists_hI : ∀ version password salt iterations, ∃ key,
    P.hI version password salt iterations = some key

/-! ## The negotiation -/

namespace ScramPrimitives

variable (P : ScramPrimitives)

/-- The keys that a server stores for a password. -/
def storedPassword (version : ScramVersion) (password : String) (salt : Bytes) (iterations : UInt32) :
    Except ScramErrorKind StoredPassword := do
  let saltedPassword ← P.computeSaltedPassword version password salt iterations
  let clientKey ← okOr .hmacErrorInvalidLength (P.hmac version saltedPassword clientKeyLabel)
  let storedKey := P.h version clientKey
  let serverKey ← okOr .hmacErrorInvalidLength (P.hmac version saltedPassword serverKeyLabel)
  return { salt, iterations, storedKey, serverKey }

end ScramPrimitives

/-- `SingleScramCredential`: the provider that knows one user. -/
def singleScramCredential (scramVersion : ScramVersion) (username : String) (stored : StoredPassword) :
    ScramCredentialProvider where
  scramVersion
  getStoredPassword name := if name = username then some stored else none

/-- The frame that the acceptor sends for an answer. -/
def SaslServerFrame.toFrame : SaslServerFrame → SaslFrame
  | .challenge bytes => .challenge bytes
  | .outcome result => .outcome result

/-- How the two loops end: with the code of the outcome that the server gave, if it came to one, and
with what the client made of the last frame. -/
structure NegotiationEnd where
  server : Option SaslCode
  client : Except SaslProfileError SaslCode

/-- The code of an outcome. -/
def SaslFrame.code : SaslFrame → Option SaslCode
  | .outcome result => some result.code
  | _ => none

/-- The mechanism on both sides, as the loops of `negotiate_sasl` call it, from the frame that is on its
way to the client.  The loops end at an outcome, and the client's also at an error.  The transport of
the frames, with its limit of 512 bytes for each, is not part of it. -/
def negotiate (P : ScramPrimitives) (hostname : Option String) (clientNonce serverNonce : Bytes) :
    (fuel : Nat) → SaslProfile → ScramAuthenticator → SaslFrame → Option NegotiationEnd
  | 0, _, _, _ => none
  | fuel + 1, profile, server, frame =>
      match profile.onFrame P frame hostname clientNonce with
      | (.error e, _) => some ⟨frame.code, .error e⟩
      | (.ok (.outcome outcome), _) => some ⟨frame.code, .ok outcome.code⟩
      | (.ok (.init init), profile) =>
          let (reply, server) := server.onInit P init serverNonce
          negotiate P hostname clientNonce serverNonce fuel profile server reply.toFrame
      | (.ok (.response response), profile) =>
          let (reply, server) := server.onResponse P response
          negotiate P hostname clientNonce serverNonce fuel profile server reply.toFrame

/-- With every provider that stores the keys of the password for the username, the negotiation ends with
both sides accepting. -/
def ScramComplete (P : ScramPrimitives) (version : ScramVersion) (username password : String)
    (salt : Bytes) (iterations : UInt32) (hostname : Option String)
    (clientNonce serverNonce : Bytes) : Prop :=
  ∀ credentials stored, credentials.scramVersion = version →
    P.storedPassword version password salt iterations = .ok stored →
    credentials.getStoredPassword username = some stored →
    negotiate P hostname clientNonce serverNonce 3 (.scram (ScramClient.new username password version))
      (ScramAuthenticator.new credentials) (.mechanisms [version.mechanism]) = some ⟨some .ok, .ok .ok⟩

/-! ## Parsing what was written -/

theorem splitOn_pair {a b : Text} (ha : ',' ∉ a) (hb : ',' ∉ b) :
    (a ++ [','] ++ b).splitOn ',' = [a, b] := by
  rw [List.append_assoc, List.singleton_append, List.splitOn_append_cons_self_of_not_mem ha,
    List.splitOn_eq_singleton hb]

theorem splitOn_triple {a b c : Text} (ha : ',' ∉ a) (hb : ',' ∉ b) (hc : ',' ∉ c) :
    (a ++ [','] ++ b ++ [','] ++ c).splitOn ',' = [a, b, c] := by
  have hassoc : a ++ [','] ++ b ++ [','] ++ c = a ++ ',' :: (b ++ [','] ++ c) := by simp
  rw [hassoc, List.splitOn_append_cons_self_of_not_mem ha, splitOn_pair hb hc]

theorem comma_not_mem_toDigits (n : Nat) : ',' ∉ Nat.toDigits 10 n := by
  intro h
  have hdigit := Nat.isDigit_of_mem_toDigits (by omega) (by omega) h
  revert hdigit
  decide

theorem parseU32_toDigits (n : UInt32) : parseU32 (Nat.toDigits 10 n.toNat) = some n := by
  have hdigits : (Nat.toDigits 10 n.toNat).all Char.isDigit = true :=
    List.all_eq_true.mpr fun c hc => Nat.isDigit_of_mem_toDigits (by omega) (by omega) hc
  have hsign : (Nat.toDigits 10 n.toNat).head? ≠ some '+' := by
    intro h
    have hdigit := List.all_eq_true.mp hdigits _ (List.mem_of_head? h)
    revert hdigit
    decide
  have hlt : n.toNat < 4294967296 := n.toNat_lt
  simp [parseU32, hsign, hdigits, Nat.toDigits_ne_nil, Nat.ofDigitChars_ten_toDigits, hlt]

theorem exists_xor {lhs rhs : Bytes} (h : lhs.length = rhs.length) : ∃ bytes, xor lhs rhs = some bytes :=
  ⟨_, if_neg (not_not.mpr h)⟩

/-- The inverse of xor is xor. -/
theorem xor_xor {lhs rhs bytes : Bytes} (h : xor lhs rhs = some bytes) : xor bytes rhs = some lhs := by
  unfold xor at h
  split at h
  · cases h
  rename_i hlen
  obtain rfl := Option.some.inj h
  rw [not_not] at hlen
  rw [xor, if_neg (by simp [hlen])]
  congr 1
  apply List.ext_getElem
  · simp [hlen]
  · intro i _ _
    simp [UInt8.xor_assoc]

/-! ## The four messages -/

namespace ScramPrimitives

variable {P : ScramPrimitives}

theorem storedPassword_eq_ok {version : ScramVersion} {password : String} {salt : Bytes}
    {iterations : UInt32} {stored : StoredPassword}
    (h : P.storedPassword version password salt iterations = .ok stored) :
    ∃ saltedPassword clientKey,
      P.computeSaltedPassword version password stored.salt stored.iterations = .ok saltedPassword ∧
      P.hmac version saltedPassword clientKeyLabel = some clientKey ∧
      stored.storedKey = P.h version clientKey ∧
      P.hmac version saltedPassword serverKeyLabel = some stored.serverKey := by
  simp only [storedPassword, Except.bind_eq_ok, okOr_eq_ok, Except.pure_eq_ok] at h
  obtain ⟨saltedPassword, hsalted, clientKey, hclient, serverKey, hserver, rfl⟩ := h
  exact ⟨saltedPassword, clientKey, hsalted, hclient, rfl, hserver⟩

/-- Every provider can be given the keys of a password that `saslprep` accepts. -/
theorem exists_storedPassword (hP : P.Lawful) {password : String}
    (hprep : (P.saslprep password).isSome) (version : ScramVersion) (salt : Bytes)
    (iterations : UInt32) : ∃ stored, P.storedPassword version password salt iterations = .ok stored := by
  obtain ⟨normalized, hnormalized⟩ := Option.isSome_iff_exists.mp hprep
  obtain ⟨saltedPassword, hsalted⟩ := hP.exists_hI version (utf8Bytes normalized) salt iterations
  obtain ⟨length, hhmac⟩ := hP.exists_hmac version
  obtain ⟨clientKey, hclient, -⟩ := hhmac saltedPassword clientKeyLabel
  obtain ⟨serverKey, hserver, -⟩ := hhmac saltedPassword serverKeyLabel
  refine ⟨⟨salt, iterations, P.h version clientKey, serverKey⟩, ?_⟩
  simp only [storedPassword, computeSaltedPassword, hnormalized, hsalted, hclient, hserver, okOr_some,
    Except.ok_bind]
  rfl

/-- The server reads the client's first message as it was written. -/
theorem computeServerFirstMessage_clientFirstMessage {username nonce : Text} (husername : ',' ∉ username)
    (hnonce : ',' ∉ nonce) {credentials : ScramCredentialProvider} {stored : StoredPassword}
    (hstored : credentials.getStoredPassword (String.ofList username) = some stored)
    (base64ServerNonce : Text) :
    P.computeServerFirstMessage (textBytes (clientFirstMessage username nonce).1) base64ServerNonce
        credentials = .ok (some
      { username := String.ofList username
        clientFirstMessageBare := textBytes (clientFirstMessage username nonce).2
        clientServerNonce := textBytes (nonce ++ base64ServerNonce)
        message := textBytes (P.serverFirstMessage (nonce ++ base64ServerNonce) stored) }) := by
  have hparts : (clientFirstMessage username nonce).2.splitOn ',' =
      [usernameKey ++ username, nonceKey ++ nonce] := by
    have hbare : (clientFirstMessage username nonce).2 =
        (usernameKey ++ username) ++ [','] ++ (nonceKey ++ nonce) := by
      simp [clientFirstMessage]
    rw [hbare]
    apply splitOn_pair
    · simpa [usernameKey] using husername
    · simpa [nonceKey] using hnonce
  have hmessage : (clientFirstMessage username nonce).1 =
      gs2Header ++ (clientFirstMessage username nonce).2 := rfl
  simp only [computeServerFirstMessage, textFromUtf8_textBytes, hmessage, stripPrefix_append, hparts,
    List.getElem?_cons_zero, List.getElem?_cons_succ, Option.bind_some, okOr_some, Except.ok_bind, hstored]
  rfl

/-- What both sides authenticate. -/
def exchanged (P : ScramPrimitives) (bare nonce : Text) (stored : StoredPassword) : Bytes :=
  authMessage (textBytes bare) (textBytes (P.serverFirstMessage nonce stored))
    (textBytes (P.withoutProof nonce))

/-- The client answers the challenge for the password that the server has stored. -/
theorem computeClientFinalMessage_serverFirstMessage (hP : P.Lawful) {version : ScramVersion}
    {password : String} {stored : StoredPassword} {saltedPassword clientKey proof signature verifier : Bytes}
    {bare clientNonce base64ServerNonce : Text}
    (hnonce : ',' ∉ clientNonce ++ base64ServerNonce)
    (hsalted : P.computeSaltedPassword version password stored.salt stored.iterations = .ok saltedPassword)
    (hclient : P.hmac version saltedPassword clientKeyLabel = some clientKey)
    (hstored : stored.storedKey = P.h version clientKey)
    (hserver : P.hmac version saltedPassword serverKeyLabel = some stored.serverKey)
    (hsignature : P.hmac version stored.storedKey
      (P.exchanged bare (clientNonce ++ base64ServerNonce) stored) = some signature)
    (hproof : xor clientKey signature = some proof)
    (hverifier : P.hmac version stored.serverKey
      (P.exchanged bare (clientNonce ++ base64ServerNonce) stored) = some verifier) :
    P.computeClientFinalMessage version clientNonce password
        (P.serverFirstMessage (clientNonce ++ base64ServerNonce) stored) (textBytes bare) =
      .ok (textBytes (clientFinal (P.withoutProof (clientNonce ++ base64ServerNonce)) (P.encode proof)),
        verifier) := by
  have hparts : (P.serverFirstMessage (clientNonce ++ base64ServerNonce) stored).splitOn ',' =
      [nonceKey ++ (clientNonce ++ base64ServerNonce), saltKey ++ P.encode stored.salt,
        iterationCountKey ++ Nat.toDigits 10 stored.iterations.toNat] := by
    have hmessage : P.serverFirstMessage (clientNonce ++ base64ServerNonce) stored =
        (nonceKey ++ (clientNonce ++ base64ServerNonce)) ++ [','] ++ (saltKey ++ P.encode stored.salt) ++
          [','] ++ (iterationCountKey ++ Nat.toDigits 10 stored.iterations.toNat) := by
      simp [serverFirstMessage]
    rw [hmessage]
    apply splitOn_triple
    · simpa [nonceKey] using hnonce
    · simpa [saltKey] using hP.comma_not_mem_encode stored.salt
    · simpa [iterationCountKey] using comma_not_mem_toDigits stored.iterations.toNat
  have hextension : ¬reservedMext <+: nonceKey ++ (clientNonce ++ base64ServerNonce) := by
    rintro ⟨rest, hrest⟩
    cases hrest
  have hcontinues : clientNonce <+: clientNonce ++ base64ServerNonce := List.prefix_append ..
  unfold exchanged at hsignature hverifier
  rw [hstored] at hsignature
  simp only [computeClientFinalMessage, hparts, if_neg hextension, stripPrefix_append, okOr_some,
    Except.ok_bind, not_true_eq_false, if_false, hcontinues, hP.decode_encode, parseU32_toDigits, hsalted,
    computeClientProof, computeServerSignature, hclient, hsignature, hproof, hserver, hverifier]
  rfl

/-- The server accepts the proof of the client, and answers with the verifier that the client expects. -/
theorem computeServerFinalMessage_clientFinal (hP : P.Lawful) {version : ScramVersion}
    {stored : StoredPassword} {clientKey proof signature verifier : Bytes} {bare nonce : Text}
    (hnonce : ',' ∉ nonce) (hstored : stored.storedKey = P.h version clientKey)
    (hsignature : P.hmac version stored.storedKey (P.exchanged bare nonce stored) = some signature)
    (hproof : xor clientKey signature = some proof)
    (hverifier : P.hmac version stored.serverKey (P.exchanged bare nonce stored) = some verifier) :
    P.computeServerFinalMessage version
        (textBytes (clientFinal (P.withoutProof nonce) (P.encode proof))) (textBytes nonce) (textBytes bare)
        (textBytes (P.serverFirstMessage nonce stored)) stored =
      .ok (textBytes (verifierKey ++ P.encode verifier)) := by
  have hparts : (clientFinal (P.withoutProof nonce) (P.encode proof)).splitOn ',' =
      [channelBindingKey ++ P.encode (textBytes gs2Header), nonceKey ++ nonce,
        proofKey ++ P.encode proof] := by
    have hmessage : clientFinal (P.withoutProof nonce) (P.encode proof) =
        (channelBindingKey ++ P.encode (textBytes gs2Header)) ++ [','] ++ (nonceKey ++ nonce) ++ [','] ++
          (proofKey ++ P.encode proof) := by
      simp [clientFinal, withoutProof]
    rw [hmessage]
    apply splitOn_triple
    · simpa [channelBindingKey] using hP.comma_not_mem_encode (textBytes gs2Header)
    · simpa [nonceKey] using hnonce
    · simpa [proofKey] using hP.comma_not_mem_encode proof
  have hlast : [channelBindingKey ++ P.encode (textBytes gs2Header), nonceKey ++ nonce,
      proofKey ++ P.encode proof].getLast? = some (proofKey ++ P.encode proof) := rfl
  unfold exchanged at hsignature hverifier
  simp only [computeServerFinalMessage, textFromUtf8_textBytes, hparts, hlast, List.getElem?_cons_zero,
    List.getElem?_cons_succ, Option.bind_some, stripPrefix_append, okOr_some, Except.ok_bind,
    hP.decode_encode, ne_eq, not_true_eq_false, if_false, take_clientFinal, hsignature, xor_xor hproof,
    hstored.symm, hverifier]
  rfl

/-- The client accepts the verifier that it expects. -/
theorem validateServerFinal_verifier (hP : P.Lawful) (verifier : Bytes) :
    P.validateServerFinal (textBytes (verifierKey ++ P.encode verifier)) verifier = .ok () := by
  have hcomma : ',' ∉ verifierKey ++ P.encode verifier := by
    simpa [verifierKey] using hP.comma_not_mem_encode verifier
  simp only [validateServerFinal, textFromUtf8_textBytes, List.splitOn_eq_singleton hcomma,
    List.head?_cons, Option.bind_some, stripPrefix_append, okOr_some, Except.ok_bind, hP.decode_encode,
    if_true]

end ScramPrimitives

/-! ## The exchange -/

section

variable {P : ScramPrimitives} {version : ScramVersion} {username password : String}
  {hostname : Option String} {clientNonce serverNonce : Bytes}

theorem onFrame_mechanisms (nonce : Bytes) :
    (SaslProfile.scram (ScramClient.new username password version)).onFrame P
        (.mechanisms [version.mechanism]) hostname nonce =
      (.ok (.init
        { mechanism := version.mechanism
          initialResponse :=
            some (textBytes (ScramPrimitives.clientFirstMessage username.toList (P.encode nonce)).1)
          hostname }),
        .scram ⟨username, password, version, .clientFirstSent (P.encode nonce) (textBytes
          (ScramPrimitives.clientFirstMessage username.toList (P.encode nonce)).2)⟩) := by
  simp [SaslProfile.onFrame, SaslProfile.mechanism, SaslProfile.initialResponse, ScramClient.new,
    ScramClient.computeClientFirstMessage]

/-- The server asks for the proof of the user that the first message names. -/
theorem onInit_clientFirstMessage {credentials : ScramCredentialProvider} {stored : StoredPassword}
    {clientNonce : Text} (hversion : credentials.scramVersion = version)
    (hstored : credentials.getStoredPassword username = some stored) (husername : ',' ∉ username.toList)
    (hnonce : ',' ∉ clientNonce) (serverNonce : Bytes) :
    (ScramAuthenticator.new credentials).onInit P
        ⟨version.mechanism,
          some (textBytes (ScramPrimitives.clientFirstMessage username.toList clientNonce).1), hostname⟩
        serverNonce =
      (.challenge (textBytes (P.serverFirstMessage (clientNonce ++ P.encode serverNonce) stored)),
        ⟨credentials, .serverFirstSent
          { username
            clientFirstMessageBare :=
              textBytes (ScramPrimitives.clientFirstMessage username.toList clientNonce).2
            clientServerNonce := textBytes (clientNonce ++ P.encode serverNonce)
            message :=
              textBytes (P.serverFirstMessage (clientNonce ++ P.encode serverNonce) stored) }⟩) := by
  have hlookup : credentials.getStoredPassword (String.ofList username.toList) = some stored := by
    rw [String.ofList_toList, hstored]
  have hfirst := ScramPrimitives.computeServerFirstMessage_clientFirstMessage (P := P) husername hnonce
    hlookup (P.encode serverNonce)
  simp only [ScramAuthenticator.onInit, ScramAuthenticator.new, hversion, if_true, hfirst,
    String.ofList_toList]

/-- Without a comma in the username both sides accept. -/
theorem scramComplete_of_comma_not_mem (hP : P.Lawful) (husername : ',' ∉ username.toList)
    (salt : Bytes) (iterations : UInt32) :
    ScramComplete P version username password salt iterations hostname clientNonce serverNonce := by
  intro credentials stored hversion hkeys hstored
  obtain ⟨saltedPassword, clientKey, hsalted, hclient, hstoredKey, hserver⟩ :=
    ScramPrimitives.storedPassword_eq_ok hkeys
  have hclientNonce := hP.comma_not_mem_encode clientNonce
  have hnonce : ',' ∉ P.encode clientNonce ++ P.encode serverNonce := by
    simpa using ⟨hclientNonce, hP.comma_not_mem_encode serverNonce⟩
  -- every code is there, and has the length of the others
  obtain ⟨length, hhmac⟩ := hP.exists_hmac version
  have hlength : clientKey.length = length := by
    obtain ⟨code, hcode, hlength⟩ := hhmac saltedPassword clientKeyLabel
    rw [hclient] at hcode
    rw [Option.some.inj hcode, hlength]
  generalize hbare : (ScramPrimitives.clientFirstMessage username.toList (P.encode clientNonce)).2 = bare
  obtain ⟨signature, hsignature, hsignatureLength⟩ := hhmac stored.storedKey
    (P.exchanged bare (P.encode clientNonce ++ P.encode serverNonce) stored)
  obtain ⟨verifier, hverifier, -⟩ := hhmac stored.serverKey
    (P.exchanged bare (P.encode clientNonce ++ P.encode serverNonce) stored)
  obtain ⟨proof, hproof⟩ := exists_xor (hlength.trans hsignatureLength.symm)
  have hresponse := ScramPrimitives.computeClientFinalMessage_serverFirstMessage hP hnonce hsalted hclient
    hstoredKey hserver hsignature hproof hverifier
  have hfinal := ScramPrimitives.computeServerFinalMessage_clientFinal hP hnonce hstoredKey hsignature
    hproof hverifier
  have hvalid := ScramPrimitives.validateServerFinal_verifier hP verifier
  rw [negotiate, onFrame_mechanisms]
  simp only [onInit_clientFirstMessage hversion hstored husername hclientNonce, SaslServerFrame.toFrame, hbare]
  rw [negotiate]
  simp only [SaslProfile.onFrame, textFromUtf8_textBytes, ScramClient.computeClientFinalMessage, hresponse]
  simp only [ScramAuthenticator.onResponse, hstored, hversion, hfinal, SaslServerFrame.toFrame]
  rw [negotiate]
  simp only [SaslProfile.onFrame, if_true, ScramClient.validateServerFinal, hvalid, SaslFrame.code]

/-- A name with a comma is cut, so that a server that knows this user only knows no such user. -/
theorem onInit_comma (version : ScramVersion) (husername : ',' ∈ username.toList)
    (stored : StoredPassword) (hostname : Option String) (clientNonce : Text) (serverNonce : Bytes) :
    ((ScramAuthenticator.new (singleScramCredential version username stored)).onInit P
        ⟨version.mechanism,
          some (textBytes (ScramPrimitives.clientFirstMessage username.toList clientNonce).1), hostname⟩
        serverNonce).1 = ScramAuthenticator.refused := by
  rcases ScramAuthenticator.onInit_cases (P := P) (.new (singleScramCredential version username stored))
    ⟨version.mechanism,
      some (textBytes (ScramPrimitives.clientFirstMessage username.toList clientNonce).1), hostname⟩
    serverNonce with h | ⟨first, bare, name, nonce, stored', -, hopening, -⟩
  · rw [h]
  · exfalso
    -- the name that is looked up lies before the first comma
    obtain ⟨front, rest, hsplit, hfront⟩ := List.eq_append_cons_of_mem husername
    have hmessage := textBytes_injective (Option.some.inj hopening.initialResponse)
    have hbare : bare =
        (usernameKey ++ front) ++ ',' :: (rest ++ [','] ++ nonceKey ++ clientNonce) := by
      simpa [ScramPrimitives.clientFirstMessage, hsplit] using hmessage.symm
    have hnot : ',' ∉ usernameKey ++ front := by simpa [usernameKey] using hfront
    have hattributes := hopening.attributes
    rw [hbare, List.splitOn_append_cons_self_of_not_mem hnot] at hattributes
    have hname : name = front := List.append_cancel_left (List.cons_prefix_cons.mp hattributes).1
    have hlookup := hopening.storedPassword
    simp only [ScramAuthenticator.new, singleScramCredential] at hlookup
    split at hlookup
    · rename_i heq
      have htext : name = username.toList := by rw [← heq, String.toList_ofList]
      rw [hname, hsplit] at htext
      simp at htext
    · cases hlookup

/-- With a comma in the username the server that knows this user refuses the client. -/
theorem negotiate_comma (husername : ',' ∈ username.toList) (stored : StoredPassword) (fuel : Nat) :
    negotiate P hostname clientNonce serverNonce (fuel + 2)
        (.scram (ScramClient.new username password version))
        (ScramAuthenticator.new (singleScramCredential version username stored))
        (.mechanisms [version.mechanism]) = some ⟨some .auth, .ok .auth⟩ := by
  have hrefused := onInit_comma (P := P) version husername stored hostname (P.encode clientNonce) serverNonce
  rw [negotiate, onFrame_mechanisms]
  simp only [hrefused, ScramAuthenticator.refused, SaslServerFrame.toFrame]
  rw [negotiate]
  simp [SaslProfile.onFrame, SaslFrame.code]

end

/-- Whatever the password, the salt, the iteration count, the version and the nonces are, the exchange is
complete exactly for the usernames without a comma. -/
theorem scramComplete_iff (P : ScramPrimitives) (hP : P.Lawful) (version : ScramVersion)
    (username password : String) (hprep : (P.saslprep password).isSome) (salt : Bytes)
    (iterations : UInt32) (hostname : Option String) (clientNonce serverNonce : Bytes) :
    ScramComplete P version username password salt iterations hostname clientNonce serverNonce ↔
      ',' ∉ username.toList := by
  constructor
  · intro hcomplete hcomma
    obtain ⟨stored, hstored⟩ := ScramPrimitives.exists_storedPassword hP hprep version salt iterations
    have haccepted := hcomplete (singleScramCredential version username stored) stored rfl hstored (if_pos rfl)
    rw [negotiate_comma hcomma stored 1] at haccepted
    cases haccepted
  · intro husername
    exact scramComplete_of_comma_not_mem hP husername salt iterations

theorem lawful_scramSha1 : scramSha1.Lawful where
  decode_encode := Base64.decode_encode
  comma_not_mem_encode := Base64.comma_not_mem_encode
  exists_hmac _ := ⟨20, fun key message => ⟨_, rfl, Sha1.length_hmac key message⟩⟩
  exists_hI _ _ _ _ := ⟨_, rfl⟩

theorem scramComplete_user :
    ScramComplete scramSha1 .sha1 "user" "pencil" [0x41, 0x25, 0xC2, 0x47] 4096 none
      (List.replicate 32 1) (List.replicate 32 2) :=
  (scramComplete_iff scramSha1 lawful_scramSha1 .sha1 "user" "pencil" (by decide) _ _ _ _ _).mpr (by decide)

/-- The message for this user reads `n,,n=user,admin,r=…`. -/
theorem not_scramComplete_comma :
    ¬ScramComplete scramSha1 .sha1 "user,admin" "pencil" [0x41, 0x25, 0xC2, 0x47] 4096 none
      (List.replicate 32 1) (List.replicate 32 2) := by
  intro hcomplete
  have hprep : (scramSha1.saslprep "pencil").isSome := by decide
  obtain ⟨stored, hstored⟩ := ScramPrimitives.exists_storedPassword lawful_scramSha1 hprep .sha1
    [0x41, 0x25, 0xC2, 0x47] 4096
  have haccepted := hcomplete (singleScramCredential .sha1 "user,admin" stored) stored rfl hstored
    (by simp [singleScramCredential])
  rw [negotiate_comma (by decide) stored 1] at haccepted
  cases haccepted

end Fe2o3Amqp
