import Fe2o3Amqp.Auth.Scram
import Fe2o3Amqp.Util.Base64
import Fe2o3Amqp.Util.BigEndian

/-!
# The functions behind SCRAM-SHA-1

SHA-1, HMAC and PBKDF2 with one block of output, and `saslprep` on printable ASCII characters, which
it leaves as they are.
-/

namespace Fe2o3Amqp

namespace Sha1

def rotateLeft (n : UInt32) (word : UInt32) : UInt32 := word <<< n ||| word >>> (32 - n)

structure State where
  a : UInt32
  b : UInt32
  c : UInt32
  d : UInt32
  e : UInt32

def initial : State := ⟨0x67452301, 0xEFCDAB89, 0x98BADCFE, 0x10325476, 0xC3D2E1F0⟩

def State.add (s t : State) : State := ⟨s.a + t.a, s.b + t.b, s.c + t.c, s.d + t.d, s.e + t.e⟩

/-- The function and the constant of a round. -/
def mix (t : Nat) (s : State) : UInt32 :=
  if t < 20 then (s.b &&& s.c ||| ~~~s.b &&& s.d) + 0x5A827999
  else if t < 40 then (s.b ^^^ s.c ^^^ s.d) + 0x6ED9EBA1
  else if t < 60 then (s.b &&& s.c ||| s.b &&& s.d ||| s.c &&& s.d) + 0x8F1BBCDC
  else (s.b ^^^ s.c ^^^ s.d) + 0xCA62C1D6

def round (s : State) (word : UInt32 × Nat) : State :=
  ⟨rotateLeft 5 s.a + mix word.2 s + s.e + word.1, s.a, rotateLeft 30 s.b, s.c, s.d⟩

/-- One more word of the schedule, whose last word comes first. -/
def extend (words : List UInt32) : List UInt32 :=
  rotateLeft 1 (words.getD 2 0 ^^^ words.getD 7 0 ^^^ words.getD 13 0 ^^^ words.getD 15 0) :: words

def schedule (block : List UInt32) : List UInt32 := (Nat.repeat extend 64 block.reverse).reverse

def compress (s : State) (block : List UInt32) : State :=
  s.add ((schedule block).zipIdx.foldl round s)

/-- The big-endian words of a message. -/
def words : Bytes → List UInt32
  | a :: b :: c :: d :: rest => UInt32.ofNat (BigEndian.decode [a, b, c, d]) :: words rest
  | _ => []

def padded (message : Bytes) : Bytes :=
  message ++ 0x80 :: List.replicate ((119 - message.length % 64) % 64) 0 ++
    BigEndian.encode 8 (8 * message.length)

def hash (message : Bytes) : Bytes :=
  let s := ((words (padded message)).toChunks 16).foldl compress initial
  BigEndian.encode 4 s.a.toNat ++ BigEndian.encode 4 s.b.toNat ++ BigEndian.encode 4 s.c.toNat ++
    BigEndian.encode 4 s.d.toNat ++ BigEndian.encode 4 s.e.toNat

theorem length_hash (message : Bytes) : (hash message).length = 20 := by
  simp [hash]

example : hash (utf8Bytes "abc") =
    [0xA9, 0x99, 0x3E, 0x36, 0x47, 0x06, 0x81, 0x6A, 0xBA, 0x3E,
     0x25, 0x71, 0x78, 0x50, 0xC2, 0x6C, 0x9C, 0xD0, 0xD8, 0x9D] := by decide +kernel

def hmac (key message : Bytes) : Bytes :=
  let key := if 64 < key.length then hash key else key
  let key := key ++ List.replicate (64 - key.length) 0
  hash (key.map (· ^^^ 0x5C) ++ hash (key.map (· ^^^ 0x36) ++ message))

theorem length_hmac (key message : Bytes) : (hmac key message).length = 20 := length_hash _

/-- The first block of PBKDF2: the exclusive or of `iterations` chained codes. -/
def pbkdf2 (password salt : Bytes) (iterations : Nat) : Bytes :=
  let first := hmac password (salt ++ BigEndian.encode 4 1)
  (Nat.repeat (fun codes : Bytes × Bytes =>
      let next := hmac password codes.1
      (next, List.zipWith (· ^^^ ·) codes.2 next)) (iterations - 1) (first, first)).2

end Sha1

/-- The functions of the other crates as they are for SCRAM-SHA-1. -/
def scramSha1 : ScramPrimitives where
  h _ := Sha1.hash
  hmac _ key message := some (Sha1.hmac key message)
  hI _ password salt iterations := some (Sha1.pbkdf2 password salt iterations.toNat)
  encode := Base64.encode
  decode := Base64.decode
  saslprep password :=
    if password.toList.all fun c => 0x20 ≤ c.toNat && c.toNat < 0x7F then some password else none

end Fe2o3Amqp
