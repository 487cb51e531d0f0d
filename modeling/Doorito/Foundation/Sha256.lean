import Doorito.Foundation.Bytes

/-! The SHA-256 digest, its streaming form, and the keyed digest HMAC-SHA256,
over lists of bytes. -/

set_option autoImplicit false

namespace Doorito.Foundation.Sha256

structure Working where
  a : UInt32
  b : UInt32
  c : UInt32
  d : UInt32
  e : UInt32
  f : UInt32
  g : UInt32
  h : UInt32

def rotateRight (word : UInt32) (amount : UInt32) : UInt32 :=
  (word >>> amount) ||| (word <<< (32 - amount))

def initial : Working :=
  ⟨0x6a09e667, 0xbb67ae85, 0x3c6ef372, 0xa54ff53a,
    0x510e527f, 0x9b05688c, 0x1f83d9ab, 0x5be0cd19⟩

def roundConstants : List UInt32 :=
  [0x428a2f98, 0x71374491, 0xb5c0fbcf, 0xe9b5dba5, 0x3956c25b, 0x59f111f1, 0x923f82a4,
    0xab1c5ed5, 0xd807aa98, 0x12835b01, 0x243185be, 0x550c7dc3, 0x72be5d74, 0x80deb1fe,
    0x9bdc06a7, 0xc19bf174, 0xe49b69c1, 0xefbe4786, 0x0fc19dc6, 0x240ca1cc, 0x2de92c6f,
    0x4a7484aa, 0x5cb0a9dc, 0x76f988da, 0x983e5152, 0xa831c66d, 0xb00327c8, 0xbf597fc7,
    0xc6e00bf3, 0xd5a79147, 0x06ca6351, 0x14292967, 0x27b70a85, 0x2e1b2138, 0x4d2c6dfc,
    0x53380d13, 0x650a7354, 0x766a0abb, 0x81c2c92e, 0x92722c85, 0xa2bfe8a1, 0xa81a664b,
    0xc24b8b70, 0xc76c51a3, 0xd192e819, 0xd6990624, 0xf40e3585, 0x106aa070, 0x19a4c116,
    0x1e376c08, 0x2748774c, 0x34b0bcb5, 0x391c0cb3, 0x4ed8aa4a, 0x5b9cca4f, 0x682e6ff3,
    0x748f82ee, 0x78a5636f, 0x84c87814, 0x8cc70208, 0x90befffa, 0xa4506ceb, 0xbef9a3f7,
    0xc67178f2]

def round (v : Working) (constant word : UInt32) : Working :=
  let s1 := rotateRight v.e 6 ^^^ rotateRight v.e 11 ^^^ rotateRight v.e 25
  let choice := (v.e &&& v.f) ^^^ (~~~v.e &&& v.g)
  let first := v.h + s1 + choice + constant + word
  let s0 := rotateRight v.a 2 ^^^ rotateRight v.a 13 ^^^ rotateRight v.a 22
  let majority := (v.a &&& v.b) ^^^ (v.a &&& v.c) ^^^ (v.b &&& v.c)
  ⟨first + s0 + majority, v.a, v.b, v.c, v.d + first, v.e, v.f, v.g⟩

/-- Extend the schedule; the words stand newest first, so that the word sixteen
rounds back is at position fifteen. -/
def extend : Nat → List UInt32 → List UInt32
  | 0, words => words
  | count + 1, words =>
      let far := words.getD 14 0
      let near := words.getD 1 0
      let s0 := rotateRight far 7 ^^^ rotateRight far 18 ^^^ (far >>> 3)
      let s1 := rotateRight near 17 ^^^ rotateRight near 19 ^^^ (near >>> 10)
      extend count ((words.getD 15 0 + s0 + words.getD 6 0 + s1) :: words)

def toWord (bytes : Bytes) : UInt32 :=
  bytes.foldl (fun word byte => (word <<< 8) ||| byte.toUInt32) 0

def toWords : Nat → Bytes → List UInt32
  | 0, _ => []
  | count + 1, bytes => toWord (bytes.take 4) :: toWords count (bytes.drop 4)

def compress (chain : Working) (block : Bytes) : Working :=
  let schedule := (extend 48 (toWords 16 block).reverse).reverse
  let final := (roundConstants.zip schedule).foldl
    (fun working step => round working step.1 step.2) chain
  ⟨chain.a + final.a, chain.b + final.b, chain.c + final.c, chain.d + final.d,
    chain.e + final.e, chain.f + final.f, chain.g + final.g, chain.h + final.h⟩

def blocks : Nat → Working → Bytes → Working
  | 0, chain, _ => chain
  | count + 1, chain, bytes => blocks count (compress chain (bytes.take 64)) (bytes.drop 64)

def pad (message : Bytes) : Bytes :=
  message ++ [0x80] ++ List.replicate ((119 - message.length % 64) % 64) 0 ++
    bigEndian 8 (8 * message.length)

def Working.bytes (v : Working) : Bytes :=
  [v.a, v.b, v.c, v.d, v.e, v.f, v.g, v.h].flatMap fun word => bigEndian 4 word.toNat

def digest (message : Bytes) : Bytes :=
  let padded := pad message
  (blocks (padded.length / 64) initial padded).bytes

@[simp] theorem length_digest (message : Bytes) : (digest message).length = 32 := by
  simp [digest, Working.bytes]

/-- A hash object: digesting after several updates digests the concatenation. -/
structure Hasher where
  fed : Bytes

namespace Hasher

def new : Hasher := ⟨[]⟩

def update (hasher : Hasher) (chunk : Bytes) : Hasher := ⟨hasher.fed ++ chunk⟩

def hexdigest (hasher : Hasher) : String := hex (digest hasher.fed)

theorem foldl_update (hasher : Hasher) (chunks : List Bytes) :
    chunks.foldl update hasher = ⟨hasher.fed ++ chunks.flatten⟩ := by
  induction chunks generalizing hasher with
  | nil => simp
  | cons chunk rest ih => simp [ih, update]

end Hasher

def hmac (key message : Bytes) : Bytes :=
  let short := if key.length > 64 then digest key else key
  let block := short ++ List.replicate (64 - short.length) 0
  digest (block.map (· ^^^ 0x5c) ++ digest (block.map (· ^^^ 0x36) ++ message))

example : hex (digest [97, 98, 99]) =
    "ba7816bf8f01cfea414140de5dae2223b00361a396177a9cb410ff61f20015ad" := by
  decide +kernel

end Doorito.Foundation.Sha256
