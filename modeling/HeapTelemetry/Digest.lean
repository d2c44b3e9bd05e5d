import HeapTelemetry.Bytes

/-! The 256-bit secure hash over byte sequences, as lower-case hexadecimal
text. The message is padded to whole 64-byte blocks that carry its bit length. -/

namespace HeapTelemetry.Digest

def initial : List UInt32 :=
  [0x6a09e667, 0xbb67ae85, 0x3c6ef372, 0xa54ff53a,
   0x510e527f, 0x9b05688c, 0x1f83d9ab, 0x5be0cd19]

def roundConstants : List UInt32 :=
  [0x428a2f98, 0x71374491, 0xb5c0fbcf, 0xe9b5dba5, 0x3956c25b, 0x59f111f1, 0x923f82a4, 0xab1c5ed5,
   0xd807aa98, 0x12835b01, 0x243185be, 0x550c7dc3, 0x72be5d74, 0x80deb1fe, 0x9bdc06a7, 0xc19bf174,
   0xe49b69c1, 0xefbe4786, 0x0fc19dc6, 0x240ca1cc, 0x2de92c6f, 0x4a7484aa, 0x5cb0a9dc, 0x76f988da,
   0x983e5152, 0xa831c66d, 0xb00327c8, 0xbf597fc7, 0xc6e00bf3, 0xd5a79147, 0x06ca6351, 0x14292967,
   0x27b70a85, 0x2e1b2138, 0x4d2c6dfc, 0x53380d13, 0x650a7354, 0x766a0abb, 0x81c2c92e, 0x92722c85,
   0xa2bfe8a1, 0xa81a664b, 0xc24b8b70, 0xc76c51a3, 0xd192e819, 0xd6990624, 0xf40e3585, 0x106aa070,
   0x19a4c116, 0x1e376c08, 0x2748774c, 0x34b0bcb5, 0x391c0cb3, 0x4ed8aa4a, 0x5b9cca4f, 0x682e6ff3,
   0x748f82ee, 0x78a5636f, 0x84c87814, 0x8cc70208, 0x90befffa, 0xa4506ceb, 0xbef9a3f7, 0xc67178f2]

def rotateRight (x k : UInt32) : UInt32 := (x >>> k) ||| (x <<< (32 - k))

def padding (length : Nat) : Bytes :=
  0x80 :: List.replicate ((119 - length % 64) % 64) 0 ++ (Bytes.word 8 (8 * length)).reverse

/-- Big-endian 32-bit words; a trailing piece shorter than a word is dropped. -/
def wordsOf : Bytes → List UInt32
  | a :: b :: c :: d :: rest =>
    ((a.toUInt32 <<< 24) ||| (b.toUInt32 <<< 16) ||| (c.toUInt32 <<< 8) ||| d.toUInt32)
      :: wordsOf rest
  | _ => []

/-- Extends a block's 16 words by `n` further ones. The window holds the last
sixteen words, newest first. -/
def expand : Nat → List UInt32 → List UInt32
  | 0, _ => []
  | n + 1, window =>
    let at_ (i : Nat) := window.getD (i - 1) 0
    let w15 := at_ 15
    let w2 := at_ 2
    let s0 := rotateRight w15 7 ^^^ rotateRight w15 18 ^^^ (w15 >>> 3)
    let s1 := rotateRight w2 17 ^^^ rotateRight w2 19 ^^^ (w2 >>> 10)
    let w := at_ 16 + s0 + at_ 7 + s1
    w :: expand n (w :: window.take 15)

def schedule (block : List UInt32) : List UInt32 := block ++ expand 48 block.reverse

def round : List UInt32 → UInt32 × UInt32 → List UInt32
  | [a, b, c, d, e, f, g, h], (k, w) =>
    let s1 := rotateRight e 6 ^^^ rotateRight e 11 ^^^ rotateRight e 25
    let choice := (e &&& f) ^^^ (~~~e &&& g)
    let t1 := h + s1 + choice + k + w
    let s0 := rotateRight a 2 ^^^ rotateRight a 13 ^^^ rotateRight a 22
    let majority := (a &&& b) ^^^ (a &&& c) ^^^ (b &&& c)
    [t1 + (s0 + majority), a, b, c, d + t1, e, f, g]
  | state, _ => state

def absorb (state block : List UInt32) : List UInt32 :=
  let mixed := (roundConstants.zip (schedule block)).foldl round state
  state.zipWith (· + ·) mixed

/-- Absorbs the words sixteen at a time. -/
def absorbAll : Nat → List UInt32 → List UInt32 → List UInt32
  | 0, state, _ => state
  | n + 1, state, words => absorbAll n (absorb state (words.take 16)) (words.drop 16)

def hexDigit (n : Nat) : Char := "0123456789abcdef".toList.getD n '0'

/-- Eight hexadecimal digits per word. -/
def hexWord (w : UInt32) : List Char :=
  ((List.range 8).map fun i => hexDigit (w.toNat >>> (4 * (7 - i)) % 16))

/-- The digest of a message as 64 hexadecimal digits. -/
def hash (message : Bytes) : String :=
  let words := wordsOf (message ++ padding message.length)
  String.ofList ((absorbAll (words.length / 16) initial words).flatMap hexWord)

end HeapTelemetry.Digest
