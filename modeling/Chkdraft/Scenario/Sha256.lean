import Chkdraft.Core.CheckedRead
import Chkdraft.Core.Memory
import Chkdraft.Core.SecureHash

/-!
# SHA-256 as the program computes it

An object takes bytes in calls of any length, keeps those that do not fill a
block, and gives the hash of all of them so far without forgetting them.  The
rounds of a block are written out eight at a time: instead of moving the words
on, each line names them anew.
-/

namespace Chkdraft.Scenario

open Binary SecureHash

def BlockSize : ℕ := 64

/-- The state of a `SHA256`.  The bytes of `m_buffer` from `m_bufferSize` on
are whatever was there. -/
structure SHA256 where
  m_numBytes : BitVec 64
  m_bufferSize : ℕ
  m_buffer : List UInt8
  m_hash : Words

namespace SHA256

def initialHash : Words :=
  { a := 0x6a09e667
    b := 0xbb67ae85
    c := 0x3c6ef372
    d := 0xa54ff53a
    e := 0x510e527f
    f := 0x9b05688c
    g := 0x1f83d9ab
    h := 0x5be0cd19 }

def reset (hash : SHA256) : SHA256 :=
  { hash with m_numBytes := 0, m_bufferSize := 0, m_hash := initialHash }

def rotate (a : Word) (c : ℕ) : Word := (a >>> c) ||| (a <<< (32 - c))

/-- `__builtin_bswap32`. -/
def swap (x : Word) : Word := BitVec.ofNat 32 (littleEndianValue (littleEndian 4 x.toNat).reverse)

def f1 (e f g : Word) : Word :=
  let term1 := rotate e 6 ^^^ rotate e 11 ^^^ rotate e 25
  let term2 := (e &&& f) ^^^ (~~~e &&& g)
  term1 + term2

def f2 (a b c : Word) : Word :=
  let term1 := rotate a 2 ^^^ rotate a 13 ^^^ rotate a 22
  let term2 := ((a ||| b) &&& c) ||| (a &&& b)
  term1 + term2

/-- A line of a round, with the words in the order in which the line names
them: the new values of the fourth and of the last one. -/
def line (a b c d e f g h constant word : Word) : Word × Word :=
  let x := h + f1 e f g + constant + word
  let y := f2 a b c
  (d + x, x + y)

def line0 (constant word : Word) (r : Words) : Words :=
  let changed := line r.a r.b r.c r.d r.e r.f r.g r.h constant word
  { r with d := changed.1, h := changed.2 }

def line1 (constant word : Word) (r : Words) : Words :=
  let changed := line r.h r.a r.b r.c r.d r.e r.f r.g constant word
  { r with c := changed.1, g := changed.2 }

def line2 (constant word : Word) (r : Words) : Words :=
  let changed := line r.g r.h r.a r.b r.c r.d r.e r.f constant word
  { r with b := changed.1, f := changed.2 }

def line3 (constant word : Word) (r : Words) : Words :=
  let changed := line r.f r.g r.h r.a r.b r.c r.d r.e constant word
  { r with a := changed.1, e := changed.2 }

def line4 (constant word : Word) (r : Words) : Words :=
  let changed := line r.e r.f r.g r.h r.a r.b r.c r.d constant word
  { r with h := changed.1, d := changed.2 }

def line5 (constant word : Word) (r : Words) : Words :=
  let changed := line r.d r.e r.f r.g r.h r.a r.b r.c constant word
  { r with g := changed.1, c := changed.2 }

def line6 (constant word : Word) (r : Words) : Words :=
  let changed := line r.c r.d r.e r.f r.g r.h r.a r.b constant word
  { r with f := changed.1, b := changed.2 }

def line7 (constant word : Word) (r : Words) : Words :=
  let changed := line r.b r.c r.d r.e r.f r.g r.h r.a constant word
  { r with e := changed.1, a := changed.2 }

/-- The constants in the eight blocks of eight lines. -/
def constants : List Word :=
  [0x428a2f98, 0x71374491, 0xb5c0fbcf, 0xe9b5dba5, 0x3956c25b, 0x59f111f1, 0x923f82a4, 0xab1c5ed5,
    0xd807aa98, 0x12835b01, 0x243185be, 0x550c7dc3,
    0x72be5d74, 0x80deb1fe, 0x9bdc06a7, 0xc19bf174,
    0xe49b69c1, 0xefbe4786, 0x0fc19dc6, 0x240ca1cc,
    0x2de92c6f, 0x4a7484aa, 0x5cb0a9dc, 0x76f988da,
    0x983e5152, 0xa831c66d, 0xb00327c8, 0xbf597fc7,
    0xc6e00bf3, 0xd5a79147, 0x06ca6351, 0x14292967,
    0x27b70a85, 0x2e1b2138, 0x4d2c6dfc, 0x53380d13,
    0x650a7354, 0x766a0abb, 0x81c2c92e, 0x92722c85,
    0xa2bfe8a1, 0xa81a664b, 0xc24b8b70, 0xc76c51a3,
    0xd192e819, 0xd6990624, 0xf40e3585, 0x106aa070,
    0x19a4c116, 0x1e376c08, 0x2748774c, 0x34b0bcb5,
    0x391c0cb3, 0x4ed8aa4a, 0x5b9cca4f, 0x682e6ff3,
    0x748f82ee, 0x78a5636f, 0x84c87814, 0x8cc70208,
    0x90befffa, 0xa4506ceb, 0xbef9a3f7, 0xc67178f2]

/-- The eight lines that begin with a given constant and word. -/
def eightLines (words : List Word) (first : ℕ) (r : Words) : Words :=
  let constant := fun index => constants.getD (first + index) 0
  let word := fun index => words.getD (first + index) 0
  let r := line0 (constant 0) (word 0) r
  let r := line1 (constant 1) (word 1) r
  let r := line2 (constant 2) (word 2) r
  let r := line3 (constant 3) (word 3) r
  let r := line4 (constant 4) (word 4) r
  let r := line5 (constant 5) (word 5) r
  let r := line6 (constant 6) (word 6) r
  line7 (constant 7) (word 7) r

/-- `words[i] = …` for the next index `i`; the words are those set so far. -/
def extendWord (words : List Word) : List Word :=
  let i := words.length
  let first := words.getD (i - 15) 0
  let second := words.getD (i - 2) 0
  words ++ [words.getD (i - 16) 0 + (rotate first 7 ^^^ rotate first 18 ^^^ first >>> 3) +
    words.getD (i - 7) 0 +
    (rotate second 17 ^^^ rotate second 19 ^^^ second >>> 10)]

/-- `for ( ; i < limit; i++ )`. -/
def extendTo (limit : ℕ) (words : List Word) : List Word := extendWord^[limit - words.length] words

/-- The words of `input[from]` and after, in their byte order. -/
def inputWords (data : List UInt8) (index : ℕ) : ℕ → Except Hazard (List Word)
  | 0 => .ok []
  | count + 1 => do
      let word ← readWord 4 data (4 * index)
      let words ← inputWords data (index + 1) count
      .ok (swap (BitVec.ofNat 32 word) :: words)

def processBlock (hash : SHA256) (data : List UInt8) : Except Hazard SHA256 := do
  let words ← inputWords data 0 16
  let r := eightLines words 0 hash.m_hash
  let r := eightLines words 8 r
  let words := extendTo 24 words
  let r := eightLines words 16 r
  let words := extendTo 32 words
  let r := eightLines words 24 r
  let words := extendTo 40 words
  let r := eightLines words 32 r
  let words := extendTo 48 words
  let r := eightLines words 40 r
  let words := extendTo 56 words
  let r := eightLines words 48 r
  let words := extendTo 64 words
  let r := eightLines words 56 r
  .ok { hash with
    m_hash :=
      { a := hash.m_hash.a + r.a
        b := hash.m_hash.b + r.b
        c := hash.m_hash.c + r.c
        d := hash.m_hash.d + r.d
        e := hash.m_hash.e + r.e
        f := hash.m_hash.f + r.f
        g := hash.m_hash.g + r.g
        h := hash.m_hash.h + r.h } }

/-- `m_buffer[m_bufferSize++] = byte`. -/
def push (hash : SHA256) (byte : UInt8) : Except Hazard SHA256 := do
  let buffer ← Memory.store hash.m_buffer hash.m_bufferSize byte
  .ok { hash with m_buffer := buffer, m_bufferSize := hash.m_bufferSize + 1 }

/-- The loop that completes a block, and the bytes it leaves. -/
def fillBuffer (hash : SHA256) : List UInt8 → Except Hazard (SHA256 × List UInt8)
  | [] => .ok (hash, [])
  | byte :: data =>
      if hash.m_bufferSize < BlockSize then do
        let hash ← hash.push byte
        hash.fillBuffer data
      else
        .ok (hash, byte :: data)

/-- The loop over the whole blocks of the data, and the bytes it leaves. -/
def processBlocks (hash : SHA256) (data : List UInt8) : Except Hazard (SHA256 × List UInt8) :=
  if _ : BlockSize ≤ data.length then do
    let hash ← hash.processBlock data
    processBlocks { hash with m_numBytes := hash.m_numBytes + 64 } (data.drop BlockSize)
  else
    .ok (hash, data)
termination_by data.length
decreasing_by
  rw [List.length_drop]
  unfold BlockSize at *
  omega

/-- The loop that keeps the remaining bytes. -/
def keepRemaining (hash : SHA256) : List UInt8 → Except Hazard SHA256
  | [] => .ok hash
  | byte :: data => do
      let hash ← hash.push byte
      hash.keepRemaining data

/-- The part of `add` that takes a full buffer. -/
def takeBuffer (hash : SHA256) : Except Hazard SHA256 :=
  if hash.m_bufferSize = BlockSize then do
    let hash ← hash.processBlock hash.m_buffer
    .ok { hash with m_numBytes := hash.m_numBytes + 64, m_bufferSize := 0 }
  else
    .ok hash

/-- The part of `add` behind the buffer. -/
def addRest (hash : SHA256) (data : List UInt8) : Except Hazard SHA256 :=
  if data.length = 0 then
    .ok hash
  else do
    let (hash, data) ← hash.processBlocks data
    hash.keepRemaining data

def add (hash : SHA256) (data : List UInt8) : Except Hazard SHA256 := do
  let (hash, data) ←
    if 0 < hash.m_bufferSize then hash.fillBuffer data else .ok (hash, data)
  let hash ← hash.takeBuffer
  hash.addRest data

/-- The bytes of a 64-bit number, written highest byte first. -/
def lengthBytes (msgBits : BitVec 64) : List UInt8 :=
  [56, 48, 40, 32, 24, 16, 8, 0].map fun shift =>
    UInt8.ofNat ((msgBits >>> shift) &&& 0xFF).toNat

/-- Where the padding ends and the length begins, in bytes. -/
def paddedLength (bufferSize : ℕ) : ℕ :=
  let paddedLength := bufferSize * 8 + 1
  let lower11Bits := paddedLength &&& 511
  if lower11Bits ≤ 448 then
    (paddedLength + (448 - lower11Bits)) / 8
  else
    (paddedLength + (512 + 448 - lower11Bits)) / 8

/-- The one bit behind the message, in the buffer or in `extra`. -/
def storeOne (bufferSize : ℕ) (buffer extra : List UInt8) :
    Except Hazard (List UInt8 × List UInt8) :=
  if bufferSize < BlockSize then
    (Memory.store buffer bufferSize 128).map fun buffer => (buffer, extra)
  else
    (Memory.store extra 0 128).map fun extra => (buffer, extra)

/-- The eight bytes from `addLength` on. -/
def storeLength (paddedLength : ℕ) (msgBits : BitVec 64)
    (buffer extra : List UInt8) : Except Hazard (List UInt8 × List UInt8) :=
  if paddedLength < BlockSize then
    (Memory.storeAll buffer paddedLength (lengthBytes msgBits)).map fun buffer => (buffer, extra)
  else
    (Memory.storeAll extra (paddedLength - BlockSize)
      (lengthBytes msgBits)).map fun extra => (buffer, extra)

/-- The second block, if the length is in it. -/
def processExtra (hash : SHA256) (paddedLength : ℕ) (extra : List UInt8) : Except Hazard SHA256 :=
  if BlockSize < paddedLength then
    hash.processBlock extra
  else
    .ok hash

/-- `processBuffer`, with what was in its local array `extra`. -/
def processBuffer (extra : List UInt8) (hash : SHA256) : Except Hazard SHA256 := do
  let paddedLength := paddedLength hash.m_bufferSize
  let (buffer, extra) ← storeOne hash.m_bufferSize hash.m_buffer extra
  let buffer ← Memory.storeAll buffer (hash.m_bufferSize + 1)
    (List.replicate (BlockSize - (hash.m_bufferSize + 1)) 0)
  let i := max (hash.m_bufferSize + 1) BlockSize
  let extra ← Memory.storeAll extra (i - BlockSize) (List.replicate (paddedLength - i) 0)
  let msgBits := 8 * (hash.m_numBytes + BitVec.ofNat 64 hash.m_bufferSize)
  let (buffer, extra) ← storeLength paddedLength msgBits buffer extra
  let hash ← { hash with m_buffer := buffer }.processBlock buffer
  hash.processExtra paddedLength extra

/-- The bytes that `getHash` takes from a word. -/
def wordBytes (word : Word) : List UInt8 := [24, 16, 8, 0].map fun shift =>
    UInt8.ofNat ((word >>> shift) &&& 0xFF).toNat

/-- `getHash` into an array of bytes: the bytes, and the object then. -/
def getRawHash (extra : List UInt8) (hash : SHA256) : Except Hazard (List UInt8 × SHA256) := do
  let oldHash := hash.m_hash
  let hash ← hash.processBuffer extra
  .ok ((SecureHash.words hash.m_hash).flatMap wordBytes,
    { hash with m_hash := oldHash })

/-- The two digits of a byte, as indices of `dec2hex`. -/
def hexDigits (byte : UInt8) : List (Fin 16) :=
  [⟨byte.toNat / 16 % 16, Nat.mod_lt _ (by decide)⟩, ⟨byte.toNat % 16, Nat.mod_lt _ (by decide)⟩]

/-- `getHash` as hexadecimal digits. -/
def getHash (extra : List UInt8) (hash : SHA256) : Except Hazard (List (Fin 16) × SHA256) := do
  let (rawHash, hash) ← hash.getRawHash extra
  .ok (rawHash.flatMap hexDigits, hash)

/-- `operator()` on a text. -/
def hashText (extra text : List UInt8) (hash : SHA256) :
    Except Hazard (List (Fin 16) × SHA256) := do
  let hash ← hash.reset.add text
  hash.getHash extra

end SHA256

end Chkdraft.Scenario
