import Chkdraft.Core.BlockHash
import Chkdraft.Core.Codec
import Mathlib.Data.Nat.NthRoot.Defs
import Mathlib.Data.Nat.Prime.Defs

/-!
# The 256-bit secure hash

The hash as its standard defines it: eight words, sixty-four rounds for each
block of sixty-four bytes, and the padding that ends with the length of the
message in bits.  Its constants are fractions of roots of the first primes.
-/

namespace Binary

/-- The `width` least significant bytes of `value`, highest byte first. -/
def bigEndian (width value : ℕ) : List UInt8 := (littleEndian width value).reverse

/-- The number whose big-endian bytes are given. -/
def bigEndianValue (bytes : List UInt8) : ℕ := littleEndianValue bytes.reverse

@[simp]
theorem length_bigEndian (width value : ℕ) : (bigEndian width value).length = width := by
  rw [bigEndian, List.length_reverse, length_littleEndian]

theorem littleEndian_eq_map (width value : ℕ) : littleEndian width value =
      (List.range width).map fun index =>
        UInt8.ofNat (value / 256 ^ index % 256) := by
  induction width generalizing value with
  | zero => rfl
  | succ width ih =>
      rw [littleEndian, ih, List.range_succ_eq_map, List.map_cons,
        List.map_map, pow_zero, Nat.div_one]
      congr 1
      apply List.map_congr_left
      intro index _
      rw [Nat.div_div_eq_div_mul, Function.comp_apply, pow_succ']

theorem bigEndian_eq_map (width value : ℕ) : bigEndian width value =
      (List.range width).reverse.map fun index =>
        UInt8.ofNat (value / 256 ^ index % 256) := by
  rw [bigEndian, littleEndian_eq_map, List.map_reverse]

theorem bigEndian_mod (width value : ℕ) :
    bigEndian width (value % 256 ^ width) = bigEndian width value := by
  rw [bigEndian_eq_map, bigEndian_eq_map]
  apply List.map_congr_left
  intro index hindex
  have hlt : index < width := List.mem_range.mp (List.mem_reverse.mp hindex)
  obtain ⟨rest, rfl⟩ := Nat.exists_eq_add_of_lt hlt
  rw [Nat.add_assoc, pow_add, Nat.mod_mul_right_div_self, pow_succ', Nat.mod_mul_right_mod]

end Binary

namespace SecureHash

open Binary

abbrev Word := BitVec 32

/-- Eight words: a hash value, or the working variables of a block. -/
structure Words where
  a : Word
  b : Word
  c : Word
  d : Word
  e : Word
  f : Word
  g : Word
  h : Word
deriving DecidableEq

def choice (x y z : Word) : Word := (x &&& y) ^^^ (~~~x &&& z)

def majority (x y z : Word) : Word := (x &&& y) ^^^ (x &&& z) ^^^ (y &&& z)

def upperSigma0 (x : Word) : Word := x.rotateRight 2 ^^^ x.rotateRight 13 ^^^ x.rotateRight 22

def upperSigma1 (x : Word) : Word := x.rotateRight 6 ^^^ x.rotateRight 11 ^^^ x.rotateRight 25

def lowerSigma0 (x : Word) : Word := x.rotateRight 7 ^^^ x.rotateRight 18 ^^^ x >>> 3

def lowerSigma1 (x : Word) : Word := x.rotateRight 17 ^^^ x.rotateRight 19 ^^^ x >>> 10

def primes : List ℕ := (List.range 312).filter fun p => Nat.Prime p

/-- The first thirty-two bits of the fraction of a root. -/
def rootFraction (degree value : ℕ) : Word :=
  BitVec.ofNat 32 (Nat.nthRoot degree (value * 2 ^ (32 * degree)))

/-- The constant of a round comes from the cube root of a prime. -/
def roundConstant (round : ℕ) : Word := rootFraction 3 (primes.getD round 0)

/-- The first hash value comes from the square roots of eight primes. -/
def start : Words :=
  { a := rootFraction 2 (primes.getD 0 0)
    b := rootFraction 2 (primes.getD 1 0)
    c := rootFraction 2 (primes.getD 2 0)
    d := rootFraction 2 (primes.getD 3 0)
    e := rootFraction 2 (primes.getD 4 0)
    f := rootFraction 2 (primes.getD 5 0)
    g := rootFraction 2 (primes.getD 6 0)
    h := rootFraction 2 (primes.getD 7 0) }

/-- A word of a block, highest byte first. -/
def blockWord (block : List UInt8) (index : ℕ) : Word :=
  BitVec.ofNat 32 (bigEndianValue ((block.drop (4 * index)).take 4))

/-- The message schedule: the words of the block, and words of the words
before. -/
def schedule (block : List UInt8) (index : ℕ) : Word :=
  if _ : index < 16 then
    blockWord block index
  else
    lowerSigma1 (schedule block (index - 2)) + schedule block (index - 7) +
      lowerSigma0 (schedule block (index - 15)) + schedule block (index - 16)
termination_by index

/-- One round: two new words, and the others move on by one. -/
def round (constant word : Word) (words : Words) : Words :=
  let first := words.h + upperSigma1 words.e + choice words.e words.f words.g + constant + word
  let second := upperSigma0 words.a + majority words.a words.b words.c
  { a := first + second
    b := words.a
    c := words.b
    d := words.c
    e := words.d + first
    f := words.e
    g := words.f
    h := words.g }

def add (left right : Words) : Words :=
  { a := left.a + right.a
    b := left.b + right.b
    c := left.c + right.c
    d := left.d + right.d
    e := left.e + right.e
    f := left.f + right.f
    g := left.g + right.g
    h := left.h + right.h }

/-- The rounds of a block from one number on. -/
def rounds (block : List UInt8) (first count : ℕ) (words : Words) : Words :=
  (List.range' first count).foldl (fun words index =>
      round (roundConstant index) (schedule block index) words) words

def compress (words : Words) (block : List UInt8) : Words := add words (rounds block 0 64 words)

/-- A one bit, zero bits, and the length in bits as a word of 64 bits, up to
the end of a block. -/
def padding (length : ℕ) : List UInt8 :=
  0x80 :: List.replicate ((119 - length % 64) % 64) 0 ++ bigEndian 8 (8 * length)

def words (value : Words) : List Word :=
  [value.a, value.b, value.c, value.d, value.e, value.f, value.g, value.h]

def digest (message : List UInt8) : List UInt8 :=
  (words (BlockHash.digest 64 compress padding start message)).flatMap
    fun word => bigEndian 4 word.toNat

/-- Below the square of the next prime, seven divisors are enough. -/
theorem prime_iff_of_lt {n : ℕ} (hlt : n < 324) :
    n.Prime ↔ 2 ≤ n ∧ ∀ d ∈ [2, 3, 5, 7, 11, 13, 17], d ∣ n → d = n := by
  constructor
  · intro hprime
    refine ⟨hprime.two_le, fun d hmem hdvd => ?_⟩
    rcases hprime.eq_one_or_self_of_dvd d hdvd with rfl | hself
    · exact absurd hmem (by decide)
    · exact hself
  · rintro ⟨hle, hdivisors⟩
    by_contra hnot
    have hsquare := Nat.minFac_sq_le_self (by omega) hnot
    have hprime := Nat.minFac_prime (show n ≠ 1 by omega)
    have hsmall : n.minFac < 18 := by
      by_contra hlarge
      have : 18 * 18 ≤ n.minFac * n.minFac := Nat.mul_le_mul (by omega) (by omega)
      rw [pow_two] at hsquare
      omega
    have hmem : n.minFac ∈ [2, 3, 5, 7, 11, 13, 17] := by
      have hall : ∀ d < 18, d.Prime → d ∈ [2, 3, 5, 7, 11, 13, 17] := by
        decide
      exact hall _ hsmall hprime
    have hself := hdivisors _ hmem n.minFac_dvd
    rw [hself] at hprime
    exact hnot hprime

theorem primes_eq : primes =
    [2, 3, 5, 7, 11, 13, 17, 19, 23, 29, 31, 37, 41, 43, 47, 53, 59, 61, 67,
      71, 73, 79, 83, 89, 97, 101, 103, 107, 109, 113, 127, 131, 137, 139,
      149, 151, 157, 163, 167, 173, 179, 181, 191, 193, 197, 199, 211, 223,
      227, 229, 233, 239, 241, 251, 257, 263, 269, 271, 277, 281, 283, 293,
      307, 311] := by
  have htrial : primes = (List.range 312).filter fun n =>
      2 ≤ n ∧ ∀ d ∈ [2, 3, 5, 7, 11, 13, 17], d ∣ n → d = n := by
    apply List.filter_congr
    intro n hn
    have hlt := List.mem_range.mp hn
    rw [decide_eq_decide]
    exact prime_iff_of_lt (by omega)
  rw [htrial]
  decide +kernel

theorem schedule_of_lt (block : List UInt8) {index : ℕ} (hlt : index < 16) :
    schedule block index = blockWord block index := by
  rw [schedule, dif_pos hlt]

theorem schedule_of_le (block : List UInt8) {index : ℕ} (hle : 16 ≤ index) : schedule block index =
      lowerSigma1 (schedule block (index - 2)) + schedule block (index - 7) +
        lowerSigma0 (schedule block (index - 15)) + schedule block (index - 16) := by
  rw [schedule, dif_neg (by omega)]

theorem rounds_add (block : List UInt8) (first left right : ℕ) (words : Words) :
    rounds block first (left + right) words =
      rounds block (first + left) right (rounds block first left words) := by
  rw [rounds, rounds, rounds, ← List.range'_append_1, List.foldl_append]

theorem length_flatMap_bigEndian (words : List Word) :
    (words.flatMap fun word => bigEndian 4 word.toNat).length = 4 * words.length := by
  induction words with
  | nil => rfl
  | cons word words ih =>
      rw [List.flatMap_cons, List.length_append, ih, length_bigEndian, List.length_cons]
      omega

theorem length_digest (message : List UInt8) : (digest message).length = 32 :=
  length_flatMap_bigEndian _

end SecureHash
