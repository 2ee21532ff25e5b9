import Fe2o3Amqp.Auth.Scram
import Fe2o3Amqp.Util.Run

/-!
# Soundness of SCRAM

Whatever frames reach one side, in whatever order, it lets the other side in only after an exchange
of messages that proves the key.  What such an exchange consists of is stated about the messages
alone and shares no parsing with the code; the histories of both sides say where it lies in the run.
-/

namespace Fe2o3Amqp

open Scram

/-! ## Attributes -/

theorem prefix_of_getElem? {α : Type} {a b : α} {parts : List α} (ha : parts[0]? = some a)
    (hb : parts[1]? = some b) : [a, b] <+: parts := by
  cases parts with
  | nil => cases ha
  | cons a' parts =>
      cases parts with
      | nil => cases hb
      | cons b' parts =>
          cases ha
          cases hb
          exact ⟨parts, rfl⟩

/-- The text behind the last comma, when there is one, is the last of the attributes. -/
theorem exists_of_getLast?_splitOn {text last : Text} (hlast : (text.splitOn ',').getLast? = some last)
    (hlen : 1 < (text.splitOn ',').length) :
    ∃ front, text = front ++ ',' :: last ∧ ',' ∉ last ∧ text.splitOn ',' = front.splitOn ',' ++ [last] := by
  have hmem : ',' ∈ text.reverse := by
    by_contra hnot
    rw [List.mem_reverse] at hnot
    rw [List.splitOn_eq_singleton hnot] at hlen
    exact absurd hlen (by simp)
  obtain ⟨tail, front, hsplit, htail⟩ := List.eq_append_cons_of_mem hmem
  have htext : text = front.reverse ++ ',' :: tail.reverse := by
    rw [← text.reverse_reverse, hsplit]
    simp
  have hnot : ',' ∉ tail.reverse := by simpa using htail
  have hparts : text.splitOn ',' = front.reverse.splitOn ',' ++ [tail.reverse] := by
    rw [htext, List.splitOn_append_cons_self, List.splitOn_eq_singleton hnot]
  rw [hparts, List.getLast?_concat] at hlast
  obtain rfl := Option.some.inj hlast
  exact ⟨front.reverse, htext, hnot, hparts⟩

/-! ## The exchange that the server accepts -/

/-- `bare` is the part behind the header of the client's first message, and `challenge` what the
server asks the user that it names. -/
structure Opening (P : ScramPrimitives) (credentials : ScramCredentialProvider) (init : SaslInit)
    (nonce : Bytes) (bare username clientNonce : Text) (stored : StoredPassword)
    (challenge : Bytes) : Prop where
  mechanism : init.mechanism = credentials.scramVersion.mechanism
  initialResponse : init.initialResponse = some (textBytes (gs2Header ++ bare))
  attributes : [usernameKey ++ username, nonceKey ++ clientNonce] <+: bare.splitOn ','
  storedPassword : credentials.getStoredPassword (String.ofList username) = some stored
  challenge : challenge = textBytes (P.serverFirstMessage (clientNonce ++ P.encode nonce) stored)

/-- The response is bound to the channel and to the nonce, and its proof is that of the stored key
for the three messages. -/
def Proves (P : ScramPrimitives) (version : ScramVersion) (stored : StoredPassword) (nonce : Text)
    (bare challenge response : Bytes) : Prop :=
  ∃ withoutProof binding proof : Text, ∃ p signature key : Bytes,
    response = textBytes (ScramPrimitives.clientFinal withoutProof proof) ∧ ',' ∉ proof ∧
    [channelBindingKey ++ binding, nonceKey ++ nonce] <+: withoutProof.splitOn ',' ∧
    P.decode binding = some (textBytes gs2Header) ∧
    P.decode proof = some p ∧
    P.hmac version stored.storedKey (authMessage bare challenge (textBytes withoutProof)) =
      some signature ∧
    xor p signature = some key ∧ P.h version key = stored.storedKey

namespace ScramPrimitives

variable {P : ScramPrimitives}

theorem computeServerFirstMessage_eq_some {clientFirst : Bytes} {base64ServerNonce : Text}
    {credentials : ScramCredentialProvider} {first : ServerFirstMessage}
    (h : P.computeServerFirstMessage clientFirst base64ServerNonce credentials = .ok (some first)) :
    ∃ bare username clientNonce stored, clientFirst = textBytes (gs2Header ++ bare) ∧
      [usernameKey ++ username, nonceKey ++ clientNonce] <+: bare.splitOn ',' ∧
      credentials.getStoredPassword (String.ofList username) = some stored ∧
      first =
        { username := String.ofList username
          clientFirstMessageBare := textBytes bare
          clientServerNonce := textBytes (clientNonce ++ base64ServerNonce)
          message := textBytes (P.serverFirstMessage (clientNonce ++ base64ServerNonce) stored) } := by
  unfold computeServerFirstMessage at h
  simp only [Except.bind_eq_ok, okOr_eq_ok, Option.bind_eq_some_iff, stripPrefix_eq_some] at h
  obtain ⟨text, htext, bare, rfl, username, ⟨part, hpart, rfl⟩, clientNonce, ⟨part', hpart', rfl⟩, h⟩ := h
  cases hstored : credentials.getStoredPassword (String.ofList username) with
  | none =>
      rw [hstored] at h
      cases h
  | some stored =>
      rw [hstored] at h
      exact ⟨bare, username, clientNonce, stored, textFromUtf8_eq_some.mp htext,
        prefix_of_getElem? hpart hpart', hstored, (Option.some.inj (Except.pure_eq_ok.mp h)).symm⟩

theorem computeServerFinalMessage_eq_ok {version : ScramVersion} {clientFinal bare first : Bytes}
    {nonce : Text} {stored : StoredPassword} {serverFinal : Bytes}
    (h : P.computeServerFinalMessage version clientFinal (textBytes nonce) bare first stored =
      .ok serverFinal) :
    Proves P version stored nonce bare first clientFinal := by
  unfold computeServerFinalMessage at h
  simp only [Except.bind_eq_ok, okOr_eq_ok, Option.bind_eq_some_iff, stripPrefix_eq_some] at h
  obtain ⟨text, htext, binding, ⟨part, hpart, rfl⟩, header, hbinding, h⟩ := h
  obtain rfl := textFromUtf8_eq_some.mp htext
  split at h
  · cases h
  rename_i hheader
  obtain rfl := not_not.mp hheader
  simp only [Except.bind_eq_ok, okOr_eq_ok, Option.bind_eq_some_iff, stripPrefix_eq_some] at h
  obtain ⟨nonce', ⟨part, hpart', rfl⟩, h⟩ := h
  split at h
  · cases h
  rename_i hnonce
  obtain rfl := textBytes_injective (not_not.mp hnonce)
  simp only [Except.bind_eq_ok, okOr_eq_ok, Option.bind_eq_some_iff, stripPrefix_eq_some] at h
  obtain ⟨proof, ⟨last, hlast, rfl⟩, signature, hsignature, p, hp, key, hkey, h⟩ := h
  split at h
  · cases h
  rename_i hstored
  -- the second attribute lies behind a comma, and the last one is not the second
  have hparts := prefix_of_getElem? hpart hpart'
  have hlen : 1 < (text.splitOn ',').length := hparts.length_le
  obtain ⟨withoutProof, rfl, hnot, hsplitOn⟩ := exists_of_getLast?_splitOn hlast hlen
  have htwo : 1 < (withoutProof.splitOn ',').length := by
    by_contra hone
    obtain ⟨front, hfront⟩ := List.length_eq_one_iff.mp
      (Nat.le_antisymm (by omega) (List.length_pos_iff.mpr (List.splitOn_ne_nil ',' withoutProof)))
    rw [hsplitOn, hfront] at hpart'
    cases hpart'
  have hproof : ',' ∉ proof := fun hmem => hnot (List.mem_append_right _ hmem)
  have hfinal : withoutProof ++ ',' :: (proofKey ++ proof) = clientFinal withoutProof proof := by
    simp [clientFinal]
  rw [hfinal, take_clientFinal] at hsignature
  rw [hsplitOn] at hparts
  exact ⟨withoutProof, binding, proof, p, signature, key, by rw [hfinal], hproof,
    List.prefix_of_prefix_length_le hparts (List.prefix_append ..) htwo, hbinding, hp, hsignature,
    hkey, not_not.mp hstored⟩

end ScramPrimitives

/-! ## The server -/

namespace ScramAuthenticator

/-- A frame of the client; `nonce` is the one that is drawn for a challenge. -/
inductive Event where
  | init (init : SaslInit) (nonce : Bytes)
  | response (response : Bytes)

variable (P : ScramPrimitives)

def answer (server : ScramAuthenticator) : Event → SaslServerFrame × ScramAuthenticator
  | .init init nonce => server.onInit P init nonce
  | .response response => server.onResponse P response

def step (server : ScramAuthenticator) (event : Event) : ScramAuthenticator × List SaslServerFrame :=
  ((server.answer P event).2, [(server.answer P event).1])

/-- The server after it has answered the frames. -/
def after (credentials : ScramCredentialProvider) (events : List Event) : ScramAuthenticator :=
  (Run.run (step P) (new credentials) events).1

def Challenges (server : ScramAuthenticator) (event : Event) (challenge : Bytes) : Prop :=
  (server.answer P event).1 = .challenge challenge

def Accepts (server : ScramAuthenticator) (event : Event) : Prop :=
  ∃ outcome, (server.answer P event).1 = .outcome outcome ∧ outcome.code = .ok

/-- The exchange that `response` concludes: the challenge was asked in answer to `init`, the run
before it being `before`, and since then no other was asked and none accepted. -/
def Concludes (credentials : ScramCredentialProvider) (events : List Event) (response : Bytes) : Prop :=
  ∃ before init nonce challenge bare username clientNonce stored,
    Run.Since (step P) (fun server event => (∃ c, Challenges P server event c) ∨ Accepts P server event)
      (new credentials) events before (.init init nonce) ∧
    Challenges P (after P credentials before) (.init init nonce) challenge ∧
    Opening P credentials init nonce bare username clientNonce stored challenge ∧
    Proves P credentials.scramVersion stored (clientNonce ++ P.encode nonce) (textBytes bare) challenge
      response

/-- After any frames only a response is accepted that concludes an exchange, and when one has been
accepted no other is before the server has asked again. -/
structure Sound (credentials : ScramCredentialProvider) : Prop where
  concludes : ∀ events event, Accepts P (after P credentials events) event →
    ∃ response, event = .response response ∧ Concludes P credentials events response
  once : ∀ events event between event', Accepts P (after P credentials events) event →
    Accepts P (after P credentials (events ++ event :: between)) event' →
    ¬Run.Along (step P) (fun server event => ∀ c, ¬Challenges P server event c)
      (after P credentials (events ++ [event])) between

variable {P}

/-! ### One step -/

/-- An init is refused, or it opens an exchange. -/
theorem onInit_cases (server : ScramAuthenticator) (init : SaslInit) (nonce : Bytes) :
    server.onInit P init nonce = (refused, server) ∨
      ∃ first bare username clientNonce stored,
        server.onInit P init nonce =
          (.challenge first.message, { server with state := .serverFirstSent first }) ∧
        Opening P server.credentials init nonce bare username clientNonce stored first.message ∧
        first.username = String.ofList username ∧ first.clientFirstMessageBare = textBytes bare ∧
        first.clientServerNonce = textBytes (clientNonce ++ P.encode nonce) := by
  by_cases hmechanism : init.mechanism = server.credentials.scramVersion.mechanism
  swap
  · exact .inl (if_neg hmechanism)
  cases hresponse : init.initialResponse with
  | none => exact .inl (by simp [onInit, hresponse])
  | some clientFirst =>
      cases hfirst : P.computeServerFirstMessage clientFirst (P.encode nonce) server.credentials with
      | error e => exact .inl (by simp [onInit, hresponse, hfirst])
      | ok first =>
          cases first with
          | none => exact .inl (by simp [onInit, hresponse, hfirst])
          | some first =>
              obtain ⟨bare, username, clientNonce, stored, rfl, hattributes, hstored, heq⟩ :=
                ScramPrimitives.computeServerFirstMessage_eq_some hfirst
              refine .inr ⟨first, bare, username, clientNonce, stored, ?_,
                ⟨hmechanism, hresponse, hattributes, hstored, ?_⟩, ?_, ?_, ?_⟩
              · simp [onInit, hmechanism, hresponse, hfirst]
              all_goals rw [heq]

/-- A response is refused, or it answers the challenge that was sent. -/
theorem onResponse_cases (server : ScramAuthenticator) (response : Bytes) :
    server.onResponse P response = (refused, server) ∨
      ∃ first stored serverFinal, server.state = .serverFirstSent first ∧
        server.credentials.getStoredPassword first.username = some stored ∧
        P.computeServerFinalMessage server.credentials.scramVersion response first.clientServerNonce
          first.clientFirstMessageBare first.message stored = .ok serverFinal ∧
        server.onResponse P response =
          (.outcome ⟨.ok, some serverFinal⟩, { server with state := .serverFinalSent }) := by
  cases hstate : server.state with
  | initial => exact .inl (by simp [onResponse, hstate])
  | serverFinalSent => exact .inl (by simp [onResponse, hstate])
  | serverFirstSent first =>
      cases hstored : server.credentials.getStoredPassword first.username with
      | none => exact .inl (by simp [onResponse, hstate, hstored])
      | some stored =>
          cases hfinal : P.computeServerFinalMessage server.credentials.scramVersion response
              first.clientServerNonce first.clientFirstMessageBare first.message stored with
          | error e => exact .inl (by simp [onResponse, hstate, hstored, hfinal])
          | ok serverFinal =>
              refine .inr ⟨first, stored, serverFinal, rfl, hstored, hfinal, ?_⟩
              simp [onResponse, hstate, hstored, hfinal]

theorem not_challenges_refused {server : ScramAuthenticator} {event : Event} {challenge : Bytes}
    (h : server.answer P event = (refused, server)) : ¬Challenges P server event challenge := by
  simp [Challenges, h, refused]

theorem not_accepts_refused {server : ScramAuthenticator} {event : Event}
    (h : server.answer P event = (refused, server)) : ¬Accepts P server event := by
  rintro ⟨outcome, houtcome, hok⟩
  rw [h] at houtcome
  cases houtcome
  cases hok

/-- Only a response to the challenge that was sent is accepted. -/
theorem accepts_cases {server : ScramAuthenticator} {event : Event} (h : Accepts P server event) :
    ∃ response first stored serverFinal, event = .response response ∧
      server.state = .serverFirstSent first ∧
      server.credentials.getStoredPassword first.username = some stored ∧
      P.computeServerFinalMessage server.credentials.scramVersion response first.clientServerNonce
        first.clientFirstMessageBare first.message stored = .ok serverFinal ∧
      (server.answer P event).2.state = .serverFinalSent := by
  cases event with
  | init init nonce =>
      rcases server.onInit_cases init nonce with hanswer | ⟨first, _, _, _, _, hanswer, -⟩
      · exact absurd h (not_accepts_refused hanswer)
      · obtain ⟨outcome, houtcome, -⟩ := h
        simp [answer, hanswer] at houtcome
  | response response =>
      rcases server.onResponse_cases response with
        hanswer | ⟨first, stored, serverFinal, hstate, hstored, hfinal, hanswer⟩
      · exact absurd h (not_accepts_refused hanswer)
      · exact ⟨response, first, stored, serverFinal, rfl, hstate, hstored, hfinal, by simp [answer, hanswer]⟩

/-! ### Every run -/

theorem after_concat (credentials : ScramCredentialProvider) (events : List Event) (event : Event) :
    after P credentials (events ++ [event]) = ((after P credentials events).answer P event).2 := by
  simp [after, Run.run_snoc, step]

/-- How the run led to the challenge that waits for its response. -/
def Asked (P : ScramPrimitives) (credentials : ScramCredentialProvider) (events : List Event)
    (first : ServerFirstMessage) : Prop :=
  ∃ before init nonce bare username clientNonce stored,
    Run.Since (step P) (fun server event => (∃ c, Challenges P server event c) ∨ Accepts P server event)
      (new credentials) events before (.init init nonce) ∧
    Challenges P (after P credentials before) (.init init nonce) first.message ∧
    Opening P credentials init nonce bare username clientNonce stored first.message ∧
    first.username = String.ofList username ∧ first.clientFirstMessageBare = textBytes bare ∧
    first.clientServerNonce = textBytes (clientNonce ++ P.encode nonce)

theorem Asked.concat {credentials : ScramCredentialProvider} {events : List Event} {event : Event}
    {first : ServerFirstMessage} (h : Asked P credentials events first)
    (hrefused : (after P credentials events).answer P event = (refused, after P credentials events)) :
    Asked P credentials (events ++ [event]) first := by
  obtain ⟨before, init, nonce, bare, username, clientNonce, stored, hsince, h⟩ := h
  refine ⟨before, init, nonce, bare, username, clientNonce, stored, hsince.snoc ?_, h⟩
  intro hdecided
  rcases hdecided with ⟨challenge, hchallenge⟩ | haccepts
  · exact not_challenges_refused hrefused hchallenge
  · exact not_accepts_refused hrefused haccepts

/-- The state of the server tells of the run. -/
structure Recorded (P : ScramPrimitives) (credentials : ScramCredentialProvider) (events : List Event)
    (server : ScramAuthenticator) : Prop where
  unchanged : server.credentials = credentials
  asked : ∀ first, server.state = .serverFirstSent first → Asked P credentials events first

theorem recorded_after (credentials : ScramCredentialProvider) (events : List Event) :
    Recorded P credentials events (after P credentials events) := by
  induction events using List.reverseRecOn with
  | nil => exact ⟨rfl, fun first hfirst => nomatch hfirst⟩
  | append_singleton events event ih =>
      rw [after_concat]
      have hrefused (h : (after P credentials events).answer P event =
          (refused, after P credentials events)) :
          Recorded P credentials (events ++ [event]) ((after P credentials events).answer P event).2 := by
        rw [h]
        exact ⟨ih.unchanged, fun first hfirst => (ih.asked first hfirst).concat h⟩
      cases event with
      | init init nonce =>
          rcases onInit_cases (after P credentials events) init nonce with
            hanswer | ⟨first, bare, username, clientNonce, stored, hanswer, hopening, hfirst⟩
          · exact hrefused hanswer
          · rw [ih.unchanged] at hopening
            have hchallenge : Challenges P (after P credentials events) (.init init nonce) first.message := by
              simp [Challenges, answer, hanswer]
            refine ⟨by simp [answer, hanswer, ih.unchanged], fun first' hfirst' => ?_⟩
            simp only [answer, hanswer, ScramAuthenticatorState.serverFirstSent.injEq] at hfirst'
            subst hfirst'
            exact ⟨events, init, nonce, bare, username, clientNonce, stored, Run.since_snoc .., hchallenge,
              hopening, hfirst⟩
      | response response =>
          rcases onResponse_cases (after P credentials events) response with
            hanswer | ⟨first, stored, serverFinal, hstate, hstored, hfinal, hanswer⟩
          · exact hrefused hanswer
          · refine ⟨by simp [answer, hanswer, ih.unchanged], fun first' hfirst' => ?_⟩
            simp [answer, hanswer] at hfirst'

theorem concludes_of_accepts {credentials : ScramCredentialProvider} {events : List Event}
    {event : Event} (h : Accepts P (after P credentials events) event) :
    ∃ response, event = .response response ∧ Concludes P credentials events response := by
  obtain ⟨response, first, stored, serverFinal, rfl, hstate, hstored, hfinal, -⟩ := accepts_cases h
  have hrecorded := recorded_after (P := P) credentials events
  obtain ⟨before, init, nonce, bare, username, clientNonce, stored', hsince, hchallenge, hopening,
    husername, hbare, hnonce⟩ := hrecorded.asked first hstate
  rw [hrecorded.unchanged, husername, hopening.storedPassword] at hstored
  obtain rfl := Option.some.inj hstored
  rw [hrecorded.unchanged, hnonce, hbare] at hfinal
  exact ⟨response, rfl, before, init, nonce, first.message, bare, username, clientNonce, stored', hsince,
    hchallenge, hopening, ScramPrimitives.computeServerFinalMessage_eq_ok hfinal⟩

/-- Once the exchange is over, only a new challenge changes that. -/
theorem serverFinalSent_of_along {server : ScramAuthenticator} (h : server.state = .serverFinalSent)
    {events : List Event}
    (hevents : Run.Along (step P) (fun server event => ∀ c, ¬Challenges P server event c) server events) :
    (Run.run (step P) server events).1.state = .serverFinalSent := by
  refine Run.invariant_of_along (I := fun server => server.state = .serverFinalSent) ?_ h hevents
  intro server event hstate hquiet
  cases event with
  | init init nonce =>
      rcases onInit_cases (P := P) server init nonce with hanswer | ⟨first, _, _, _, _, hanswer, -⟩
      · simp [step, answer, hanswer, hstate]
      · have hchallenge : Challenges P server (.init init nonce) first.message := by
          simp [Challenges, answer, hanswer]
        exact absurd hchallenge (hquiet first.message)
  | response response =>
      rcases onResponse_cases (P := P) server response with hanswer | ⟨_, _, _, _, _, _, hanswer⟩
      · simp [step, answer, hanswer, hstate]
      · simp [step, answer, hanswer]

theorem sound (credentials : ScramCredentialProvider) : Sound P credentials where
  concludes _ _ h := concludes_of_accepts h
  once events event between event' h h' hquiet := by
    obtain ⟨_, _, _, _, -, -, -, -, hfinal⟩ := accepts_cases h
    rw [← after_concat] at hfinal
    have hstill := serverFinalSent_of_along hfinal hquiet
    have hsplit : events ++ event :: between = (events ++ [event]) ++ between := by simp
    have hafter : after P credentials (events ++ event :: between) =
        (Run.run (step P) (after P credentials (events ++ [event])) between).1 := by
      rw [after, hsplit, Run.run_append]
      rfl
    obtain ⟨_, first, _, _, -, hstate, -⟩ := accepts_cases h'
    rw [hafter, hstill] at hstate
    cases hstate

end ScramAuthenticator

/-! ## The exchange that the client accepts -/

/-- The challenge continues the nonce of the client, the response is what the client sends for it, and
`verifier` is the signature of a server that knows the key. -/
def Expects (P : ScramPrimitives) (version : ScramVersion) (password : String) (bare : Bytes)
    (clientNonce : Text) (challenge response verifier : Bytes) : Prop :=
  ∃ serverFirst nonce base64Salt iterationCount proof : Text,
    ∃ salt iterations normalized saltedPassword serverKey,
      challenge = textBytes serverFirst ∧
      [nonceKey ++ nonce, saltKey ++ base64Salt, iterationCountKey ++ iterationCount] <+:
        serverFirst.splitOn ',' ∧
      clientNonce <+: nonce ∧
      P.decode base64Salt = some salt ∧ parseU32 iterationCount = some iterations ∧
      P.saslprep password = some normalized ∧
      P.hI version (utf8Bytes normalized) salt iterations = some saltedPassword ∧
      response = textBytes (ScramPrimitives.clientFinal (P.withoutProof nonce) proof) ∧
      P.hmac version saltedPassword serverKeyLabel = some serverKey ∧
      P.hmac version serverKey (authMessage bare challenge (textBytes (P.withoutProof nonce))) =
        some verifier

/-- The first attribute of the server's last message is the verifier. -/
def Verifies (P : ScramPrimitives) (verifier serverFinal : Bytes) : Prop :=
  ∃ text signature : Text, serverFinal = textBytes text ∧
    [verifierKey ++ signature] <+: text.splitOn ',' ∧ P.decode signature = some verifier

namespace ScramPrimitives

variable {P : ScramPrimitives}

theorem computeClientFinalMessage_eq_ok {version : ScramVersion} {clientNonce : Text}
    {password : String} {serverFirst : Text} {bare response verifier : Bytes}
    (h : P.computeClientFinalMessage version clientNonce password serverFirst bare =
      .ok (response, verifier)) :
    Expects P version password bare clientNonce (textBytes serverFirst) response verifier := by
  unfold computeClientFinalMessage at h
  split at h
  swap
  · cases h
  rename_i first second third rest hparts
  split at h
  · cases h
  simp only [Except.bind_eq_ok, okOr_eq_ok, stripPrefix_eq_some] at h
  obtain ⟨nonce, rfl, h⟩ := h
  split at h
  · cases h
  rename_i hnonce
  simp only [computeSaltedPassword, computeServerSignature, Except.bind_eq_ok, okOr_eq_ok,
    stripPrefix_eq_some, Except.pure_eq_ok, Prod.mk.injEq] at h
  obtain ⟨base64Salt, rfl, salt, hsalt, iterationCount, rfl, iterations, hiterations, saltedPassword,
    ⟨normalized, hnormalized, hsalted⟩, proof, -, signature, ⟨serverKey, hserverKey, hverifier⟩, hresponse,
    rfl⟩ := h
  have hattributes : [nonceKey ++ nonce, saltKey ++ base64Salt, iterationCountKey ++ iterationCount] <+:
      serverFirst.splitOn ',' := ⟨rest, hparts.symm⟩
  exact ⟨serverFirst, nonce, base64Salt, iterationCount, P.encode proof, salt, iterations, normalized,
    saltedPassword, serverKey, rfl, hattributes, not_not.mp hnonce, hsalt, hiterations, hnormalized, hsalted,
    hresponse.symm, hserverKey, hverifier⟩

theorem validateServerFinal_eq_ok {serverFinal verifier : Bytes}
    (h : P.validateServerFinal serverFinal verifier = .ok ()) : Verifies P verifier serverFinal := by
  unfold validateServerFinal at h
  simp only [Except.bind_eq_ok, okOr_eq_ok, Option.bind_eq_some_iff, stripPrefix_eq_some] at h
  obtain ⟨text, htext, signature, ⟨part, hpart, rfl⟩, signatureBytes, hdecode, h⟩ := h
  split at h
  swap
  · cases h
  rename_i heq
  subst heq
  obtain ⟨rest, hrest⟩ := List.head?_eq_some_iff.mp hpart
  exact ⟨text, signature, textFromUtf8_eq_some.mp htext, ⟨rest, hrest.symm⟩, hdecode⟩

end ScramPrimitives

/-! ## The client -/

namespace SaslProfile

/-- A frame of the server; `nonce` is the one that is drawn for a first message. -/
structure Event where
  frame : SaslFrame
  hostname : Option String
  nonce : Bytes

variable (P : ScramPrimitives)

def answer (profile : SaslProfile) (event : Event) :
    Except SaslProfileError Negotiation × SaslProfile :=
  profile.onFrame P event.frame event.hostname event.nonce

def step (profile : SaslProfile) (event : Event) :
    SaslProfile × List (Except SaslProfileError Negotiation) :=
  ((profile.answer P event).2, [(profile.answer P event).1])

/-- The profile after it has answered the frames. -/
def after (profile : SaslProfile) (events : List Event) : SaslProfile :=
  (Run.run (step P) profile events).1

def Negotiates (profile : SaslProfile) (event : Event) (negotiation : Negotiation) : Prop :=
  (profile.answer P event).1 = .ok negotiation

/-- The frame moves the exchange on: it is answered, and not by passing a failure on. -/
def Moves (profile : SaslProfile) (event : Event) : Prop :=
  ∃ negotiation, Negotiates P profile event negotiation ∧
    ∀ outcome, negotiation = .outcome outcome → outcome.code = .ok

/-- The client sent its first message, and nothing has moved the exchange on since. -/
def Opened (profile : SaslProfile) (username : String) (version : ScramVersion) (events : List Event)
    (nonce : Bytes) : Prop :=
  ∃ before saslServerMechanisms hostname,
    Run.Since (step P) (Moves P) profile events before
      ⟨.mechanisms saslServerMechanisms, hostname, nonce⟩ ∧
    Negotiates P (after P profile before) ⟨.mechanisms saslServerMechanisms, hostname, nonce⟩
      (.init
        { mechanism := version.mechanism
          initialResponse :=
            some (textBytes (ScramPrimitives.clientFirstMessage username.toList (P.encode nonce)).1)
          hostname })

/-- The client then answered a challenge, and nothing has moved the exchange on since. -/
def Answered (profile : SaslProfile) (username password : String) (version : ScramVersion)
    (events : List Event) (verifier : Bytes) : Prop :=
  ∃ before challenge hostname unused nonce response,
    Run.Since (step P) (Moves P) profile events before ⟨.challenge challenge, hostname, unused⟩ ∧
    Negotiates P (after P profile before) ⟨.challenge challenge, hostname, unused⟩ (.response response) ∧
    Opened P profile username version before nonce ∧
    Expects P version password
      (textBytes (ScramPrimitives.clientFirstMessage username.toList (P.encode nonce)).2)
      (P.encode nonce) challenge response verifier

/-- After any frames the client lets an outcome through as a success only when it carries the verifier
for the challenge that the client answered. -/
def Sound (username password : String) (version : ScramVersion) : Prop :=
  ∀ events event outcome,
    Negotiates P (after P (.scram (ScramClient.new username password version)) events) event
      (.outcome outcome) → outcome.code = .ok →
    event.frame = .outcome outcome ∧
      ∃ serverFinal verifier, outcome.additionalData = some serverFinal ∧
        Verifies P verifier serverFinal ∧
        Answered P (.scram (ScramClient.new username password version)) username password version events
          verifier

variable {P}

/-! ### One step -/

/-- What a frame does to a client. -/
inductive Moved (P : ScramPrimitives) (client : ScramClient) : Event → Prop where
  | opened {saslServerMechanisms : List Symbol} {hostname : Option String} {nonce : Bytes}
      (h : answer P (.scram client) ⟨.mechanisms saslServerMechanisms, hostname, nonce⟩ =
        (.ok (.init
            { mechanism := client.scram.mechanism
              initialResponse := some (textBytes
                (ScramPrimitives.clientFirstMessage client.username.toList (P.encode nonce)).1)
              hostname }),
          .scram { client with
            state := .clientFirstSent (P.encode nonce) (textBytes
              (ScramPrimitives.clientFirstMessage client.username.toList (P.encode nonce)).2) })) :
      Moved P client ⟨.mechanisms saslServerMechanisms, hostname, nonce⟩
  | answered {serverFirst clientNonce : Text} {hostname : Option String}
      {nonce bare response verifier : Bytes}
      (hstate : client.state = .clientFirstSent clientNonce bare)
      (hexpects : Expects P client.scram client.password bare clientNonce (textBytes serverFirst)
        response verifier)
      (h : answer P (.scram client) ⟨.challenge (textBytes serverFirst), hostname, nonce⟩ =
        (.ok (.response response), .scram { client with state := .clientFinalSent verifier })) :
      Moved P client ⟨.challenge (textBytes serverFirst), hostname, nonce⟩
  | accepted {serverFinal verifier : Bytes} {hostname : Option String} {nonce : Bytes}
      (hstate : client.state = .clientFinalSent verifier) (hverifies : Verifies P verifier serverFinal)
      (h : answer P (.scram client) ⟨.outcome ⟨.ok, some serverFinal⟩, hostname, nonce⟩ =
        (.ok (.outcome ⟨.ok, some serverFinal⟩), .scram { client with state := .complete })) :
      Moved P client ⟨.outcome ⟨.ok, some serverFinal⟩, hostname, nonce⟩
  | unmoved {event : Event} (hmoves : ¬Moves P (.scram client) event)
      (h : (answer P (.scram client) event).2 = .scram client) : Moved P client event

theorem unmoved_of_error {client : ScramClient} {event : Event} {e : SaslProfileError}
    (h : answer P (.scram client) event = (.error e, .scram client)) : Moved P client event := by
  refine .unmoved ?_ (by rw [h])
  rintro ⟨negotiation, hnegotiates, -⟩
  simp [Negotiates, h] at hnegotiates

theorem unmoved_of_failure {client : ScramClient} {event : Event} {outcome : SaslOutcome}
    (h : answer P (.scram client) event = (.ok (.outcome outcome), .scram client))
    (hcode : outcome.code ≠ .ok) : Moved P client event := by
  refine .unmoved ?_ (by rw [h])
  rintro ⟨negotiation, hnegotiates, hcodes⟩
  rw [Negotiates, h] at hnegotiates
  exact hcode (hcodes outcome (Except.ok.inj hnegotiates).symm)

private theorem moved_challenge (client : ScramClient) (challenge : Bytes) (hostname : Option String)
    (nonce : Bytes) : Moved P client ⟨.challenge challenge, hostname, nonce⟩ := by
  cases htext : textFromUtf8 challenge with
  | none =>
      apply unmoved_of_error
      simp only [answer, onFrame, htext]
      rfl
  | some serverFirst =>
      obtain rfl := textFromUtf8_eq_some.mp htext
      cases hstate : client.state with
      | clientFirstSent clientNonce bare =>
          cases hfinal : P.computeClientFinalMessage client.scram clientNonce client.password serverFirst
              bare with
          | error e =>
              apply unmoved_of_error
              simp only [answer, onFrame, htext, ScramClient.computeClientFinalMessage, hstate, hfinal]
              rfl
          | ok final =>
              refine .answered hstate (ScramPrimitives.computeClientFinalMessage_eq_ok hfinal) ?_
              simp only [answer, onFrame, htext, ScramClient.computeClientFinalMessage, hstate, hfinal]
      | initial | clientFinalSent verifier | complete =>
          apply unmoved_of_error
          simp only [answer, onFrame, htext, ScramClient.computeClientFinalMessage, hstate]
          rfl

private theorem moved_outcome (client : ScramClient) (outcome : SaslOutcome) (hostname : Option String)
    (nonce : Bytes) : Moved P client ⟨.outcome outcome, hostname, nonce⟩ := by
  obtain ⟨code, additionalData⟩ := outcome
  by_cases hcode : code = .ok
  swap
  · exact unmoved_of_failure (if_neg hcode) hcode
  subst hcode
  cases additionalData with
  | none =>
      apply unmoved_of_error
      simp only [answer, onFrame, if_true]
      rfl
  | some serverFinal =>
      cases hstate : client.state with
      | clientFinalSent verifier =>
          cases hvalid : P.validateServerFinal serverFinal verifier with
          | error e =>
              apply unmoved_of_error
              simp only [answer, onFrame, if_true, ScramClient.validateServerFinal, hstate, hvalid]
              rfl
          | ok =>
              refine .accepted hstate (ScramPrimitives.validateServerFinal_eq_ok hvalid) ?_
              simp only [answer, onFrame, if_true, ScramClient.validateServerFinal, hstate, hvalid]
      | initial | clientFirstSent clientNonce bare | complete =>
          apply unmoved_of_error
          simp only [answer, onFrame, if_true, ScramClient.validateServerFinal, hstate]
          rfl

theorem moved (client : ScramClient) (event : Event) : Moved P client event := by
  obtain ⟨frame, hostname, nonce⟩ := event
  cases frame with
  | mechanisms saslServerMechanisms =>
      by_cases hmem : client.scram.mechanism ∈ saslServerMechanisms
      · refine .opened ?_
        simp [answer, onFrame, mechanism, hmem, initialResponse, ScramClient.computeClientFirstMessage]
      · exact unmoved_of_error (if_neg hmem)
  | challenge challenge => exact moved_challenge client challenge hostname nonce
  | outcome outcome => exact moved_outcome client outcome hostname nonce
  | init init => exact unmoved_of_error rfl
  | response response => exact unmoved_of_error rfl

/-! ### Every run -/

theorem after_concat (profile : SaslProfile) (events : List Event) (event : Event) :
    after P profile (events ++ [event]) = ((after P profile events).answer P event).2 := by
  simp [after, Run.run_snoc, step]

theorem Opened.concat {profile : SaslProfile} {username : String} {version : ScramVersion}
    {events : List Event} {event : Event} {nonce : Bytes}
    (h : Opened P profile username version events nonce) (hmoves : ¬Moves P (after P profile events) event) :
    Opened P profile username version (events ++ [event]) nonce := by
  obtain ⟨before, saslServerMechanisms, hostname, hsince, hinit⟩ := h
  exact ⟨before, saslServerMechanisms, hostname, hsince.snoc hmoves, hinit⟩

theorem Answered.concat {profile : SaslProfile} {username password : String} {version : ScramVersion}
    {events : List Event} {event : Event} {verifier : Bytes}
    (h : Answered P profile username password version events verifier)
    (hmoves : ¬Moves P (after P profile events) event) :
    Answered P profile username password version (events ++ [event]) verifier := by
  obtain ⟨before, challenge, hostname, unused, nonce, response, hsince, h⟩ := h
  exact ⟨before, challenge, hostname, unused, nonce, response, hsince.snoc hmoves, h⟩

/-- The state of the client tells of the run. -/
structure Recorded (P : ScramPrimitives) (username password : String) (version : ScramVersion)
    (events : List Event) (client : ScramClient) : Prop where
  credentials : client = ⟨username, password, version, client.state⟩
  opened : ∀ clientNonce bare, client.state = .clientFirstSent clientNonce bare →
    ∃ nonce, Opened P (.scram (ScramClient.new username password version)) username version events nonce ∧
      clientNonce = P.encode nonce ∧
      bare = textBytes (ScramPrimitives.clientFirstMessage username.toList clientNonce).2
  answered : ∀ verifier, client.state = .clientFinalSent verifier →
    Answered P (.scram (ScramClient.new username password version)) username password version events verifier

theorem exists_recorded (username password : String) (version : ScramVersion) (events : List Event) :
    ∃ client, after P (.scram (ScramClient.new username password version)) events = .scram client ∧
      Recorded P username password version events client := by
  induction events using List.reverseRecOn with
  | nil => exact ⟨_, rfl, rfl, fun _ _ hstate => (nomatch hstate), fun _ hstate => (nomatch hstate)⟩
  | append_singleton events event ih =>
      obtain ⟨client, hafter, hcredentials, hopened, hanswered⟩ := ih
      rw [after_concat, hafter]
      cases moved (P := P) client event with
      | @opened saslServerMechanisms hostname nonce h =>
          rw [h]
          refine ⟨_, rfl, by rw [hcredentials], fun clientNonce bare hstate => ?_, fun _ hstate => nomatch hstate⟩
          cases hstate
          refine ⟨nonce, ⟨events, saslServerMechanisms, hostname, Run.since_snoc .., ?_⟩, rfl, ?_⟩
          · rw [Negotiates, hafter, h, hcredentials]
          · rw [hcredentials]
      | @answered serverFirst clientNonce hostname unused bare response verifier hstate hexpects h =>
          rw [h]
          refine ⟨_, rfl, by rw [hcredentials], fun _ _ hstate => (nomatch hstate), fun verifier' hstate' => ?_⟩
          cases hstate'
          obtain ⟨nonce, hopen, rfl, rfl⟩ := hopened clientNonce bare hstate
          rw [hcredentials] at hexpects
          refine ⟨events, textBytes serverFirst, hostname, unused, nonce, response, Run.since_snoc .., ?_,
            hopen, hexpects⟩
          rw [Negotiates, hafter, h]
      | accepted hstate hverifies h =>
          rw [h]
          exact ⟨_, rfl, by rw [hcredentials], fun _ _ hstate => (nomatch hstate), fun _ hstate => nomatch hstate⟩
      | unmoved hmoves h =>
          rw [← hafter] at hmoves
          rw [h]
          refine ⟨client, rfl, hcredentials, fun clientNonce bare hstate => ?_, fun verifier hstate => ?_⟩
          · obtain ⟨nonce, hopen, h⟩ := hopened clientNonce bare hstate
            exact ⟨nonce, hopen.concat hmoves, h⟩
          · exact (hanswered verifier hstate).concat hmoves

theorem sound (username password : String) (version : ScramVersion) :
    Sound P username password version := by
  intro events event outcome hnegotiates hok
  obtain ⟨client, hafter, hrecorded⟩ := exists_recorded (P := P) username password version events
  have hmoves : Moves P (after P (.scram (ScramClient.new username password version)) events) event := by
    refine ⟨_, hnegotiates, fun outcome' houtcome => ?_⟩
    rw [← Negotiation.outcome.inj houtcome]
    exact hok
  rw [hafter] at hnegotiates hmoves
  cases moved (P := P) client event with
  | opened h =>
      rw [Negotiates, h] at hnegotiates
      cases hnegotiates
  | answered hstate hexpects h =>
      rw [Negotiates, h] at hnegotiates
      cases hnegotiates
  | @accepted serverFinal verifier hostname nonce hstate hverifies h =>
      rw [Negotiates, h] at hnegotiates
      cases hnegotiates
      exact ⟨rfl, serverFinal, verifier, rfl, hverifies, hrecorded.answered verifier hstate⟩
  | unmoved hnot h => exact absurd hmoves hnot

end SaslProfile

/-- Whatever frames reach them, in whatever order, the server accepts only the response that proves the
stored key for the last challenge that it sent, and the client only the outcome that carries the verifier
for the last challenge that it answered. -/
theorem scram_sound (P : ScramPrimitives) :
    (∀ credentials, ScramAuthenticator.Sound P credentials) ∧
      ∀ username password version, SaslProfile.Sound P username password version :=
  ⟨ScramAuthenticator.sound, SaslProfile.sound⟩

end Fe2o3Amqp
