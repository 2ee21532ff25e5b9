import Fe2o3Amqp.Auth.ScramSha1
import Mathlib.Tactic.Common

/-!
# PLAIN

The acceptor of the PLAIN mechanism, the profile that a URL gives, and a client's exchange with the
acceptor.  Of a URL there is what the accessors of the `url` crate return, percent-encoded.
-/

namespace Fe2o3Amqp

/-! ## The acceptor -/

structure SaslPlainMechanism where
  username : String
  password : String

namespace SaslPlainMechanism

def new (username password : String) : SaslPlainMechanism := ⟨username, password⟩

def validateCredential (server : SaslPlainMechanism) (authcid passwd : Bytes) : SaslCode :=
  if utf8Bytes server.username = authcid ∧ utf8Bytes server.password = passwd then .ok else .auth

def validateInit (server : SaslPlainMechanism) (init : SaslInit) : Option SaslCode := do
  let response ← init.initialResponse
  match response.splitOn 0 with
  | _authzid :: authcid :: passwd :: _ => some (server.validateCredential authcid passwd)
  | _ => none

def mechanisms (_server : SaslPlainMechanism) : List Symbol := [⟨"PLAIN"⟩]

def onInit (server : SaslPlainMechanism) (init : SaslInit) : SaslServerFrame :=
  .outcome ⟨(server.validateInit init).getD .auth, none⟩

/-- This is not expected. -/
def onResponse (_server : SaslPlainMechanism) (_response : Bytes) : SaslServerFrame :=
  .outcome ⟨.sys, none⟩

end SaslPlainMechanism

/-! ## The client -/

structure Url where
  username : String
  password : Option String

/-- `TryFrom<&Url>`. -/
def SaslProfile.tryFrom (url : Url) : Option SaslProfile :=
  if url.username = "" then none else url.password.map (.plain url.username)

/-- What the client of a profile is answered by the acceptor: the code of the outcome that its profile
passes on. -/
def plainExchange (P : ScramPrimitives) (hostname : Option String) (nonce : Bytes)
    (profile : SaslProfile) (server : SaslPlainMechanism) : Option SaslCode :=
  match profile.onFrame P (.mechanisms server.mechanisms) hostname nonce with
  | (.ok (.init init), profile) =>
      match server.onInit init with
      | .outcome outcome =>
          match profile.onFrame P (.outcome outcome) hostname nonce with
          | (.ok (.outcome outcome), _) => some outcome.code
          | _ => none
      | .challenge _ => none
  | _ => none

/-! ## Percent-encoding -/

def hexDigit (byte : UInt8) : Option UInt8 :=
  if 0x30 ≤ byte ∧ byte ≤ 0x39 then some (byte - 0x30)
  else if 0x41 ≤ byte ∧ byte ≤ 0x46 then some (byte - 0x37)
  else if 0x61 ≤ byte ∧ byte ≤ 0x66 then some (byte - 0x57)
  else none

/-- The byte that three bytes escape: a percent sign and two hexadecimal digits. -/
def escaped (b0 b1 b2 : UInt8) : Option UInt8 :=
  if b0 = 0x25 then (hexDigit b1).bind fun high => (hexDigit b2).map fun low => 16 * high + low else none

/-- What a component of a URL stands for.  A percent sign that escapes nothing stands for itself. -/
def percentDecode : Bytes → Bytes
  | b0 :: b1 :: b2 :: bytes =>
      match escaped b0 b1 b2 with
      | some byte => byte :: percentDecode bytes
      | none => b0 :: percentDecode (b1 :: b2 :: bytes)
  | bytes => bytes

/-- Somewhere a percent sign is followed by two hexadecimal digits. -/
def hasEscape : Bytes → Bool
  | b0 :: b1 :: b2 :: bytes => (escaped b0 b1 b2).isSome || hasEscape (b1 :: b2 :: bytes)
  | _ => false

theorem length_percentDecode_le (bytes : Bytes) : (percentDecode bytes).length ≤ bytes.length := by
  induction bytes using percentDecode.induct with
  | case1 b0 b1 b2 bytes byte hescaped ih =>
      rw [percentDecode, hescaped]
      simp only [List.length_cons] at ih ⊢
      omega
  | case2 b0 b1 b2 bytes hescaped ih =>
      rw [percentDecode, hescaped]
      simp only [List.length_cons] at ih ⊢
      omega
  | case3 bytes hshort => rw [percentDecode.eq_2 _ hshort]

/-- A component stands for itself if nothing in it is escaped. -/
theorem percentDecode_eq_self_iff (bytes : Bytes) :
    percentDecode bytes = bytes ↔ hasEscape bytes = false := by
  induction bytes using percentDecode.induct with
  | case1 b0 b1 b2 bytes byte hescaped ih =>
      rw [percentDecode, hasEscape, hescaped]
      constructor
      · intro h
        have hle := length_percentDecode_le bytes
        have := congrArg List.length h
        simp only [List.length_cons] at this
        omega
      · intro h
        cases h
  | case2 b0 b1 b2 bytes hescaped ih =>
      rw [percentDecode, hasEscape, hescaped]
      simpa using ih
  | case3 bytes hshort =>
      rw [percentDecode.eq_2 _ hshort, hasEscape.eq_2 _ hshort]
      simp

/-- A byte that takes part in no escape is kept. -/
theorem zero_mem_percentDecode {bytes : Bytes} (h : 0 ∈ bytes) : 0 ∈ percentDecode bytes := by
  have hzero : hexDigit 0 = none := by decide
  induction bytes using percentDecode.induct with
  | case1 b0 b1 b2 bytes byte hescaped ih =>
      rw [percentDecode, hescaped]
      have h0 : 0 ≠ b0 := by
        rintro rfl
        simp [escaped] at hescaped
      have h1 : 0 ≠ b1 := by
        rintro rfl
        simp [escaped, hzero] at hescaped
      have h2 : 0 ≠ b2 := by
        rintro rfl
        simp [escaped, hzero] at hescaped
      simp only [List.mem_cons, h0, h1, h2, false_or] at h
      exact List.mem_cons_of_mem _ (ih h)
  | case2 b0 b1 b2 bytes hescaped ih =>
      rw [percentDecode, hescaped]
      rcases List.mem_cons.mp h with rfl | h
      · exact List.mem_cons_self
      · exact List.mem_cons_of_mem _ (ih h)
  | case3 bytes hshort => rwa [percentDecode.eq_2 _ hshort]

/-- The URL carries these credentials. -/
def Url.Carries (url : Url) (username password : String) : Prop :=
  percentDecode (utf8Bytes url.username) = utf8Bytes username ∧
    url.password.map (percentDecode ∘ utf8Bytes) = some (utf8Bytes password)

/-- Nothing is escaped in the credentials of the URL. -/
def Url.Unescaped (url : Url) : Prop :=
  hasEscape (utf8Bytes url.username) = false ∧
    ∀ password ∈ url.password, hasEscape (utf8Bytes password) = false

/-! ## Texts without NUL -/

theorem zero_mem_utf8EncodeChar {c : Char} : 0 ∈ String.utf8EncodeChar c ↔ c = '\x00' := by
  constructor
  · intro h
    have hsmall {n : Nat} (hn : n < 256) (hzero : 0 = UInt8.ofNat n) : n = 0 := by
      have := congrArg UInt8.toNat hzero
      rw [UInt8.toNat_ofNat', Nat.mod_eq_of_lt hn] at this
      exact this.symm
    have hvalue : c.val.toNat = 0 := by
      simp only [String.utf8EncodeChar] at h
      split_ifs at h with h1 h2 h3
      · exact hsmall (by omega) (List.mem_singleton.mp h)
      · simp only [List.mem_cons, List.not_mem_nil, or_false] at h
        rcases h with h | h
        · have := hsmall (by omega) h
          omega
        · have := hsmall (by omega) h
          omega
      · simp only [List.mem_cons, List.not_mem_nil, or_false] at h
        rcases h with h | h | h
        · have := hsmall (by omega) h
          omega
        · have := hsmall (by omega) h
          omega
        · have := hsmall (by omega) h
          omega
      · simp only [List.mem_cons, List.not_mem_nil, or_false] at h
        rcases h with h | h | h | h
        · have := hsmall (by omega) h
          omega
        · have := hsmall (by omega) h
          omega
        · have := hsmall (by omega) h
          omega
        · have := hsmall (by omega) h
          omega
    exact Char.ext (UInt32.toNat_inj.mp hvalue)
  · rintro rfl
    decide

theorem zero_mem_utf8Bytes {s : String} : 0 ∈ utf8Bytes s ↔ '\x00' ∈ s.toList := by
  have hbytes : utf8Bytes s = s.toList.flatMap String.utf8EncodeChar := by
    rw [utf8Bytes, ← String.utf8Encode_toList, List.utf8Encode]
    simp
  rw [hbytes, List.mem_flatMap]
  constructor
  · rintro ⟨c, hc, hzero⟩
    rwa [zero_mem_utf8EncodeChar.mp hzero] at hc
  · intro h
    exact ⟨_, h, zero_mem_utf8EncodeChar.mpr rfl⟩

theorem utf8Bytes_injective {s t : String} (h : utf8Bytes s = utf8Bytes t) : s = t := by
  have hread := fromUtf8_utf8Bytes s
  rw [h, fromUtf8_utf8Bytes] at hread
  exact (Option.some.inj hread).symm

/-! ## What the acceptor accepts -/

/-- A list is split at the first separator, or it has none. -/
theorem splitOn_cases (bytes : Bytes) :
    (0 ∉ bytes ∧ bytes.splitOn 0 = [bytes]) ∨
      ∃ part tail, 0 ∉ part ∧ bytes = part ++ 0 :: tail ∧ bytes.splitOn 0 = part :: tail.splitOn 0 := by
  by_cases h : 0 ∈ bytes
  · obtain ⟨part, tail, rfl, hpart⟩ := List.eq_append_cons_of_mem h
    exact .inr ⟨part, tail, hpart, rfl, List.splitOn_append_cons_self_of_not_mem hpart _⟩
  · exact .inl ⟨h, List.splitOn_eq_singleton h⟩

namespace SaslPlainMechanism

/-- `authzid NUL username NUL password`. -/
def message (server : SaslPlainMechanism) (authzid : Bytes) : Bytes :=
  authzid ++ 0 :: utf8Bytes server.username ++ 0 :: utf8Bytes server.password

/-- The response is the message of the credentials and nothing else. -/
def Exact (server : SaslPlainMechanism) (response : Bytes) : Prop :=
  ∃ authzid, 0 ∉ authzid ∧ 0 ∉ utf8Bytes server.username ∧ 0 ∉ utf8Bytes server.password ∧
    response = server.message authzid

/-- The response is the message of the credentials with another NUL and any bytes behind it. -/
def Surplus (server : SaslPlainMechanism) (response : Bytes) : Prop :=
  ∃ authzid more, 0 ∉ authzid ∧ 0 ∉ utf8Bytes server.username ∧ 0 ∉ utf8Bytes server.password ∧
    response = server.message authzid ++ 0 :: more

private theorem validateCredential_eq_ok {server : SaslPlainMechanism} {authcid passwd : Bytes} :
    server.validateCredential authcid passwd = .ok ↔
      utf8Bytes server.username = authcid ∧ utf8Bytes server.password = passwd := by
  rw [validateCredential]
  split_ifs with h
  · exact iff_of_true rfl h
  · exact iff_of_false (by decide) h

/-- The acceptor accepts the message of its credentials, also with more behind it, whatever the
mechanism. -/
theorem validateInit_eq_ok {server : SaslPlainMechanism} {init : SaslInit} :
    server.validateInit init = some .ok ↔
      ∃ response, init.initialResponse = some response ∧
        (server.Exact response ∨ server.Surplus response) := by
  rcases hresponse : init.initialResponse with - | response
  · simp [validateInit, hresponse]
  · have hvalidate : server.validateInit init = some .ok ↔
        ∃ authzid rest, response.splitOn 0 =
          authzid :: utf8Bytes server.username :: utf8Bytes server.password :: rest := by
      simp only [validateInit, hresponse, Option.bind_eq_bind, Option.bind_some]
      split
      · rename_i authzid authcid passwd rest hsplit
        rw [Option.some.injEq, validateCredential_eq_ok, hsplit]
        constructor
        · rintro ⟨rfl, rfl⟩
          exact ⟨authzid, rest, rfl⟩
        · rintro ⟨authzid', rest', hparts⟩
          cases hparts
          exact ⟨rfl, rfl⟩
      · rename_i hshort
        constructor
        · intro h
          cases h
        · rintro ⟨authzid, rest, hparts⟩
          exact absurd hparts (hshort authzid _ _ rest)
    rw [hvalidate]
    constructor
    · rintro ⟨authzid, rest, hparts⟩
      refine ⟨response, rfl, ?_⟩
      rcases splitOn_cases response with ⟨-, hsplit⟩ | ⟨part, tail, hpart, rfl, hsplit⟩
      · rw [hsplit] at hparts
        cases hparts
      · rw [hsplit, List.cons.injEq] at hparts
        obtain ⟨rfl, hparts⟩ := hparts
        rcases splitOn_cases tail with ⟨-, hsplit⟩ | ⟨user, tail, huser, rfl, hsplit⟩
        · rw [hsplit] at hparts
          cases hparts
        · rw [hsplit, List.cons.injEq] at hparts
          obtain ⟨rfl, hparts⟩ := hparts
          rcases splitOn_cases tail with ⟨hpass, hsplit⟩ | ⟨pass, tail, hpass, rfl, hsplit⟩
          · rw [hsplit, List.cons.injEq] at hparts
            obtain ⟨rfl, -⟩ := hparts
            exact .inl ⟨part, hpart, huser, hpass, by simp [message]⟩
          · rw [hsplit, List.cons.injEq] at hparts
            obtain ⟨rfl, -⟩ := hparts
            exact .inr ⟨part, tail, hpart, huser, hpass, by simp [message]⟩
    · rintro ⟨_, hresponse', ⟨authzid, hauthzid, huser, hpass, rfl⟩ |
        ⟨authzid, more, hauthzid, huser, hpass, rfl⟩⟩
      · cases hresponse'
        refine ⟨authzid, [], ?_⟩
        rw [message, List.append_assoc, List.cons_append,
          List.splitOn_append_cons_self_of_not_mem hauthzid,
          List.splitOn_append_cons_self_of_not_mem huser, List.splitOn_eq_singleton hpass]
      · cases hresponse'
        refine ⟨authzid, more.splitOn 0, ?_⟩
        rw [message, List.append_assoc, List.append_assoc, List.cons_append, List.cons_append,
          List.splitOn_append_cons_self_of_not_mem hauthzid,
          List.splitOn_append_cons_self_of_not_mem huser,
          List.splitOn_append_cons_self_of_not_mem hpass]

/-- A third NUL is not part of the message. -/
theorem Exact.not_surplus {server : SaslPlainMechanism} {response : Bytes} (h : server.Exact response) :
    ¬ server.Surplus response := by
  rintro ⟨authzid', more, hauthzid', -, -, hsurplus⟩
  obtain ⟨authzid, hauthzid, huser, hpass, rfl⟩ := h
  have hcount := congrArg (List.count 0) hsurplus
  simp only [message, List.count_append, List.count_cons_self, List.count_eq_zero_of_not_mem hauthzid,
    List.count_eq_zero_of_not_mem hauthzid', List.count_eq_zero_of_not_mem huser,
    List.count_eq_zero_of_not_mem hpass] at hcount
  omega

theorem onInit_eq_ok {server : SaslPlainMechanism} {init : SaslInit} :
    server.onInit init = .outcome ⟨.ok, none⟩ ↔ server.validateInit init = some .ok := by
  rw [onInit]
  cases server.validateInit init <;> simp

end SaslPlainMechanism

/-! ## The exchange -/

variable (P : ScramPrimitives) (hostname : Option String) (nonce : Bytes)

/-- A client is accepted if the acceptor has its credentials. -/
theorem plainExchange_eq_ok {username password : String} {server : SaslPlainMechanism}
    (husername : 0 ∉ utf8Bytes username) (hpassword : 0 ∉ utf8Bytes password) :
    plainExchange P hostname nonce (.plain username password) server = some .ok ↔
      server.username = username ∧ server.password = password := by
  have hsplit : (0 :: (utf8Bytes username ++ 0 :: utf8Bytes password)).splitOn 0 =
      [[], utf8Bytes username, utf8Bytes password] := by
    have hauthzid : (0 : UInt8) ∉ ([] : Bytes) := List.not_mem_nil
    rw [← List.nil_append (0 :: _), List.splitOn_append_cons_self_of_not_mem hauthzid,
      List.splitOn_append_cons_self_of_not_mem husername, List.splitOn_eq_singleton hpassword]
  have hcode : plainExchange P hostname nonce (.plain username password) server =
      some (server.validateCredential (utf8Bytes username) (utf8Bytes password)) := by
    simp [plainExchange, SaslProfile.onFrame, SaslProfile.mechanism, SaslPlainMechanism.mechanisms,
      SaslProfile.initialResponse, SaslPlainMechanism.onInit, SaslPlainMechanism.validateInit, hsplit]
  rw [hcode, Option.some.injEq, SaslPlainMechanism.validateCredential_eq_ok]
  constructor
  · rintro ⟨hu, hp⟩
    exact ⟨utf8Bytes_injective hu, utf8Bytes_injective hp⟩
  · rintro ⟨hu, hp⟩
    exact ⟨congrArg utf8Bytes hu, congrArg utf8Bytes hp⟩

/-- What a URL without escapes carries is what its accessors return. -/
theorem Url.Carries.eq_iff {url : Url} {username password encoded : String}
    (h : url.Carries username password) (hencoded : url.password = some encoded) :
    (username = url.username ∧ password = encoded) ↔ url.Unescaped := by
  obtain ⟨husername, hpassword⟩ := h
  rw [hencoded, Option.map_some, Option.some.injEq, Function.comp_apply] at hpassword
  rw [Url.Unescaped, hencoded, ← percentDecode_eq_self_iff, husername]
  constructor
  · rintro ⟨rfl, rfl⟩
    refine ⟨rfl, ?_⟩
    rintro _ ⟨⟩
    exact (percentDecode_eq_self_iff _).mp hpassword
  · rintro ⟨hu, hp⟩
    refine ⟨utf8Bytes_injective hu, ?_⟩
    have hself := (percentDecode_eq_self_iff _).mpr (hp encoded rfl)
    rw [hself] at hpassword
    exact utf8Bytes_injective hpassword.symm

/-- The PLAIN exchange, for credentials without NUL.  Given directly they are accepted.  From a URL that
carries them they are accepted if nothing in it is escaped.  What is accepted is the message of the
acceptor's credentials under PLAIN as far as nothing is behind it and no other mechanism is named. -/
theorem plainExchange_exact_iff :
    (∀ username password : String, '\x00' ∉ username.toList → '\x00' ∉ password.toList →
      plainExchange P hostname nonce (.plain username password) (.new username password) = some .ok) ∧
    (∀ (url : Url) (profile : SaslProfile) (username password : String),
      '\x00' ∉ username.toList → '\x00' ∉ password.toList → url.Carries username password →
      SaslProfile.tryFrom url = some profile →
        (plainExchange P hostname nonce profile (.new username password) = some .ok ↔ url.Unescaped)) ∧
    ∀ (server : SaslPlainMechanism) (init : SaslInit),
      (server.onInit init = .outcome ⟨.ok, none⟩ →
        init.mechanism = ⟨"PLAIN"⟩ ∧ ∃ response ∈ init.initialResponse, server.Exact response) ↔
      ∀ response ∈ init.initialResponse, ¬ server.Surplus response ∧
        (server.Exact response → init.mechanism = ⟨"PLAIN"⟩) := by
  refine ⟨?_, ?_, ?_⟩
  · intro username password husername hpassword
    rw [← zero_mem_utf8Bytes] at husername hpassword
    exact (plainExchange_eq_ok P hostname nonce husername hpassword).mpr ⟨rfl, rfl⟩
  · intro url profile username password husername hpassword hcarries hprofile
    rw [← zero_mem_utf8Bytes] at husername hpassword
    rw [SaslProfile.tryFrom] at hprofile
    split_ifs at hprofile
    obtain ⟨encoded, hencoded, rfl⟩ := Option.map_eq_some_iff.mp hprofile
    have hdecoded : percentDecode (utf8Bytes encoded) = utf8Bytes password := by
      have := hcarries.2
      rwa [hencoded, Option.map_some, Option.some.injEq] at this
    -- the accessors return no NUL, as decoding would keep it
    have husername' : 0 ∉ utf8Bytes url.username := by
      intro hzero
      exact husername (hcarries.1 ▸ zero_mem_percentDecode hzero)
    have hencoded' : 0 ∉ utf8Bytes encoded := by
      intro hzero
      exact hpassword (hdecoded ▸ zero_mem_percentDecode hzero)
    rw [plainExchange_eq_ok P hostname nonce husername' hencoded']
    exact hcarries.eq_iff hencoded
  · intro server init
    rw [SaslPlainMechanism.onInit_eq_ok, SaslPlainMechanism.validateInit_eq_ok]
    constructor
    · intro h response hresponse
      constructor
      · intro hsurplus
        obtain ⟨-, response', hresponse', hexact⟩ := h ⟨response, hresponse, .inr hsurplus⟩
        cases hresponse.symm.trans hresponse'
        exact hexact.not_surplus hsurplus
      · intro hexact
        exact (h ⟨response, hresponse, .inl hexact⟩).1
    · rintro h ⟨response, hresponse, hexact | hsurplus⟩
      · exact ⟨(h response hresponse).2 hexact, response, hresponse, hexact⟩
      · exact absurd hsurplus (h response hresponse).1

/-- A username and a password without special characters come through a URL. -/
theorem plainExchange_unescaped_url :
    plainExchange scramSha1 none [] (.plain "user" "example") (.new "user" "example") = some .ok :=
  ((plainExchange_exact_iff scramSha1 none []).2.1 ⟨"user", some "example"⟩ (.plain "user" "example")
    "user" "example" (by decide) (by decide) ⟨by decide +kernel, by decide +kernel⟩ rfl).mpr
    ⟨by decide +kernel, by
      rintro _ ⟨⟩
      decide +kernel⟩

/-- A space in a URL is not what the acceptor compares, a response is accepted under any mechanism, and
so is one with a byte too many. -/
theorem plainExchange_not_exact :
    Url.Carries ⟨"a%20b", some "example"⟩ "a b" "example" ∧
      SaslProfile.tryFrom ⟨"a%20b", some "example"⟩ = some (.plain "a%20b" "example") ∧
      plainExchange scramSha1 none [] (.plain "a%20b" "example") (.new "a b" "example") = some .auth ∧
      (SaslPlainMechanism.new "a" "b").onInit ⟨⟨"ANONYMOUS"⟩, some [0, 0x61, 0, 0x62], none⟩ =
        .outcome ⟨.ok, none⟩ ∧
      (SaslPlainMechanism.new "a" "b").onInit ⟨⟨"PLAIN"⟩, some [0, 0x61, 0, 0x62, 0, 0x63], none⟩ =
        .outcome ⟨.ok, none⟩ := by
  refine ⟨⟨by decide +kernel, by decide +kernel⟩, rfl, by decide +kernel, ?_, ?_⟩
  · rw [SaslPlainMechanism.onInit]
    exact congrArg (fun code => SaslServerFrame.outcome ⟨code, none⟩) (by decide +kernel)
  · rw [SaslPlainMechanism.onInit]
    exact congrArg (fun code => SaslServerFrame.outcome ⟨code, none⟩) (by decide +kernel)

end Fe2o3Amqp
