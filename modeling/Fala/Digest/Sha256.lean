import Mathlib.Data.Nat.Prime.Basic
import Mathlib.Tactic.Ring

/-! SHA-256 as FIPS 180-4 defines it, on strings of bits. -/

namespace Fips

abbrev Word := BitVec 32

/-! The functions on words. -/

def ch (x y z : Word) : Word := (x &&& y) ^^^ (~~~x &&& z)

def maj (x y z : Word) : Word := (x &&& y) ^^^ (x &&& z) ^^^ (y &&& z)

def bigSigma0 (x : Word) : Word := x.rotateRight 2 ^^^ x.rotateRight 13 ^^^ x.rotateRight 22

def bigSigma1 (x : Word) : Word := x.rotateRight 6 ^^^ x.rotateRight 11 ^^^ x.rotateRight 25

def smallSigma0 (x : Word) : Word := x.rotateRight 7 ^^^ x.rotateRight 18 ^^^ x >>> 3

def smallSigma1 (x : Word) : Word := x.rotateRight 17 ^^^ x.rotateRight 19 ^^^ x >>> 10

/-! The constants. -/

/-- The first 32 bits of the fractional part of a root: the root counted in units of 2^-32 is the word after some
    whole number of units of one. -/
def FractionOfRoot (degree n : Nat) (word : Word) : Prop :=
  ∃ whole < 8, (whole * 2 ^ 32 + word.toNat) ^ degree ≤ n * 2 ^ (32 * degree) ∧
    n * 2 ^ (32 * degree) < (whole * 2 ^ 32 + word.toNat + 1) ^ degree

def roundConstants : List Word :=
  [0x428a2f98, 0x71374491, 0xb5c0fbcf, 0xe9b5dba5, 0x3956c25b, 0x59f111f1, 0x923f82a4, 0xab1c5ed5,
    0xd807aa98, 0x12835b01, 0x243185be, 0x550c7dc3, 0x72be5d74, 0x80deb1fe, 0x9bdc06a7, 0xc19bf174,
    0xe49b69c1, 0xefbe4786, 0x0fc19dc6, 0x240ca1cc, 0x2de92c6f, 0x4a7484aa, 0x5cb0a9dc, 0x76f988da,
    0x983e5152, 0xa831c66d, 0xb00327c8, 0xbf597fc7, 0xc6e00bf3, 0xd5a79147, 0x06ca6351, 0x14292967,
    0x27b70a85, 0x2e1b2138, 0x4d2c6dfc, 0x53380d13, 0x650a7354, 0x766a0abb, 0x81c2c92e, 0x92722c85,
    0xa2bfe8a1, 0xa81a664b, 0xc24b8b70, 0xc76c51a3, 0xd192e819, 0xd6990624, 0xf40e3585, 0x106aa070,
    0x19a4c116, 0x1e376c08, 0x2748774c, 0x34b0bcb5, 0x391c0cb3, 0x4ed8aa4a, 0x5b9cca4f, 0x682e6ff3,
    0x748f82ee, 0x78a5636f, 0x84c87814, 0x8cc70208, 0x90befffa, 0xa4506ceb, 0xbef9a3f7, 0xc67178f2]

/-- The eight words of a hash value, or of the working variables. -/
structure Hash where
  a : Word
  b : Word
  c : Word
  d : Word
  e : Word
  f : Word
  g : Word
  h : Word
  deriving DecidableEq

namespace Hash

def words (v : Hash) : List Word := [v.a, v.b, v.c, v.d, v.e, v.f, v.g, v.h]

def add (v w : Hash) : Hash :=
  ⟨v.a + w.a, v.b + w.b, v.c + w.c, v.d + w.d, v.e + w.e, v.f + w.f, v.g + w.g, v.h + w.h⟩

end Hash

def initial : Hash :=
  ⟨0x6a09e667, 0xbb67ae85, 0x3c6ef372, 0xa54ff53a, 0x510e527f, 0x9b05688c, 0x1f83d9ab, 0x5be0cd19⟩

instance (degree n : Nat) (word : Word) : Decidable (FractionOfRoot degree n word) := by
  unfold FractionOfRoot
  infer_instance

/-! Padding and parsing. -/

/-- Some bits of a number, the highest first. -/
def bits (count n : Nat) : List Bool := (List.range count).map fun i => n.testBit (count - 1 - i)

/-- A one, as few zeros as bring the length to 448 modulo 512, and the length in 64 bits. -/
def pad (message : List Bool) : List Bool :=
  message ++ true :: (List.replicate ((447 + 512 - message.length % 512) % 512) false ++ bits 64 message.length)

/-- The number that bits spell, the highest first. -/
def number (bits : List Bool) : Nat := bits.foldl (fun value bit => 2 * value + bit.toNat) 0

/-- The word at a place of a block. -/
def messageWord (padded : List Bool) (block t : Nat) : Word :=
  BitVec.ofNat 32 (number ((padded.drop (512 * block + 32 * t)).take 32))

/-! The computation. -/

def schedule (message : Nat → Word) (t : Nat) : Word :=
  if t < 16 then message t
  else smallSigma1 (schedule message (t - 2)) + schedule message (t - 7) + smallSigma0 (schedule message (t - 15)) +
    schedule message (t - 16)

def round (constant word : Word) (v : Hash) : Hash :=
  let t1 := v.h + bigSigma1 v.e + ch v.e v.f v.g + constant + word
  let t2 := bigSigma0 v.a + maj v.a v.b v.c
  ⟨t1 + t2, v.a, v.b, v.c, v.d + t1, v.e, v.f, v.g⟩

def compress (hash : Hash) (message : Nat → Word) : Hash :=
  hash.add ((List.range 64).foldl (fun v t => round (roundConstants.getD t 0) (schedule message t) v) hash)

/-- The hash of a message of less than 2^64 bits. -/
def sha256 (message : List Bool) : Hash :=
  (List.range ((pad message).length / 512)).foldl (fun hash block => compress hash (messageWord (pad message) block))
    initial

/-- A word in hexadecimal digits. -/
def hexadecimal (word : Word) : List Char := (List.range 8).map fun i => Nat.digitChar (word.toNat / 16 ^ (7 - i) % 16)

def digest (message : List Bool) : List Char := (sha256 message).words.flatMap hexadecimal

end Fips

/-! The digest of `reactions.mojo`. -/

namespace Fala.Digest
open Fips (Word Hash)

abbrev Byte := BitVec 8

/-! The source. -/

def sha256Rotr (value : Word) (amount : Nat) : Word := (value >>> amount) ||| (value <<< (32 - amount))

/-- The sum that `_sha256_add32` takes in 64 bits. -/
def sha256Total (a b c d e : Word) : BitVec 64 :=
  a.setWidth 64 + b.setWidth 64 + c.setWidth 64 + d.setWidth 64 + e.setWidth 64

def sha256Add32 (a b : Word) (c d e : Word) : Word := (sha256Total a b c d e &&& 0xffffffff).setWidth 32

def sha256BitLength (byteLength : Nat) : Except String (BitVec 64) :=
  if 0x1fffffffffffffff < byteLength then .error "SHA-256 input exceeds its 64-bit length field"
  else .ok (BitVec.ofNat 64 byteLength * 8)

/-- The zeros after a message, up to the length field. -/
def zeroFilled (message : List Byte) : List Byte :=
  if message.length % 64 ≠ 56 then zeroFilled (message ++ [0]) else message
termination_by (120 - message.length % 64) % 64
decreasing_by
  simp only [List.length_append, List.length_singleton]
  omega

def lengthByte (bitLength : BitVec 64) (index : Nat) : Byte := ((bitLength >>> (56 - index * 8)) &&& 0xff).setWidth 8

/-- The message of `_sha256_raw_bytes`. -/
def sha256Message (bytes : List Byte) (bitLength : BitVec 64) : List Byte :=
  (List.range 8).foldl (fun message index => message ++ [lengthByte bitLength index]) (zeroFilled (bytes ++ [0x80]))

def sha256State : Hash :=
  ⟨0x6a09e667, 0xbb67ae85, 0x3c6ef372, 0xa54ff53a, 0x510e527f, 0x9b05688c, 0x1f83d9ab, 0x5be0cd19⟩

def sha256Constants : List Word :=
  [0x428a2f98, 0x71374491, 0xb5c0fbcf, 0xe9b5dba5, 0x3956c25b, 0x59f111f1, 0x923f82a4, 0xab1c5ed5,
    0xd807aa98, 0x12835b01, 0x243185be, 0x550c7dc3, 0x72be5d74, 0x80deb1fe, 0x9bdc06a7, 0xc19bf174,
    0xe49b69c1, 0xefbe4786, 0x0fc19dc6, 0x240ca1cc, 0x2de92c6f, 0x4a7484aa, 0x5cb0a9dc, 0x76f988da,
    0x983e5152, 0xa831c66d, 0xb00327c8, 0xbf597fc7, 0xc6e00bf3, 0xd5a79147, 0x06ca6351, 0x14292967,
    0x27b70a85, 0x2e1b2138, 0x4d2c6dfc, 0x53380d13, 0x650a7354, 0x766a0abb, 0x81c2c92e, 0x92722c85,
    0xa2bfe8a1, 0xa81a664b, 0xc24b8b70, 0xc76c51a3, 0xd192e819, 0xd6990624, 0xf40e3585, 0x106aa070,
    0x19a4c116, 0x1e376c08, 0x2748774c, 0x34b0bcb5, 0x391c0cb3, 0x4ed8aa4a, 0x5b9cca4f, 0x682e6ff3,
    0x748f82ee, 0x78a5636f, 0x84c87814, 0x8cc70208, 0x90befffa, 0xa4506ceb, 0xbef9a3f7, 0xc67178f2]

/-- The big-endian word at an offset. -/
def wordAt (message : List Byte) (offset : Nat) : Word :=
  let byte (index : Nat) : Word := (message.getD index 0).setWidth 32
  (byte offset <<< 24 ||| byte (offset + 1) <<< 16) ||| byte (offset + 2) <<< 8 ||| byte (offset + 3)

/-- A word of the schedule after the first sixteen. -/
def scheduleWord (schedule : List Word) (index : Nat) : Word :=
  let x := schedule.getD (index - 15) 0
  let sigma0 := sha256Rotr x 7 ^^^ sha256Rotr x 18 ^^^ (x >>> 3)
  let x := schedule.getD (index - 2) 0
  let sigma1 := sha256Rotr x 17 ^^^ sha256Rotr x 19 ^^^ (x >>> 10)
  sha256Add32 (schedule.getD (index - 16) 0) sigma0 (schedule.getD (index - 7) 0) sigma1 0

/-- The schedule of a block, written over the one of the block before. -/
def blockSchedule (message : List Byte) (blockStart : Nat) (schedule : List Word) : List Word :=
  let words := (List.range 16).foldl (fun schedule index => schedule.set index (wordAt message (blockStart + index * 4)))
    schedule
  (List.range' 16 48).foldl (fun schedule index => schedule.set index (scheduleWord schedule index)) words

def blockRound (schedule : List Word) (v : Hash) (index : Nat) : Hash :=
  let sum1 := sha256Rotr v.e 6 ^^^ sha256Rotr v.e 11 ^^^ sha256Rotr v.e 25
  let choose := (v.e &&& v.f) ^^^ (~~~v.e &&& v.g)
  let temp1 := sha256Add32 v.h sum1 choose (sha256Constants.getD index 0) (schedule.getD index 0)
  let sum0 := sha256Rotr v.a 2 ^^^ sha256Rotr v.a 13 ^^^ sha256Rotr v.a 22
  let majority := (v.a &&& v.b) ^^^ (v.a &&& v.c) ^^^ (v.b &&& v.c)
  let temp2 := sha256Add32 sum0 majority 0 0 0
  ⟨sha256Add32 temp1 temp2 0 0 0, v.a, v.b, v.c, sha256Add32 v.d temp1 0 0 0, v.e, v.f, v.g⟩

def addedTo (state v : Hash) : Hash :=
  ⟨sha256Add32 state.a v.a 0 0 0, sha256Add32 state.b v.b 0 0 0, sha256Add32 state.c v.c 0 0 0,
    sha256Add32 state.d v.d 0 0 0, sha256Add32 state.e v.e 0 0 0, sha256Add32 state.f v.f 0 0 0,
    sha256Add32 state.g v.g 0 0 0, sha256Add32 state.h v.h 0 0 0⟩

/-- What a block does to the state and the schedule. -/
def sha256Block (message : List Byte) (carried : Hash × List Word) (blockStart : Nat) : Hash × List Word :=
  let schedule := blockSchedule message blockStart carried.2
  (addedTo carried.1 ((List.range 64).foldl (blockRound schedule) carried.1), schedule)

/-- `range(0, len(message), 64)` -/
def blockStarts (message : List Byte) : List Nat := (List.range ((message.length + 63) / 64)).map (64 * ·)

def hexDigits : List Char :=
  ['0', '1', '2', '3', '4', '5', '6', '7', '8', '9', 'a', 'b', 'c', 'd', 'e', 'f']

def hexWord (word : Word) : List Char :=
  (List.range 8).map fun index => hexDigits.getD ((word >>> (28 - index * 4)) &&& 15).toNat '0'

def sha256RawBytes (bytes : List Byte) : Except String String := do
  let bitLength ← sha256BitLength bytes.length
  let message := sha256Message bytes bitLength
  let final := (blockStarts message).foldl (sha256Block message) (sha256State, List.replicate 64 0)
  return String.ofList (final.1.words.flatMap hexWord)

/-! Words. -/

theorem sha256Rotr_eq (value : Word) {amount : Nat} (less : amount < 32) :
    sha256Rotr value amount = value.rotateRight amount := (BitVec.rotateRight_eq_rotateRightAux_of_lt less).symm

theorem sha256Total_exact (a b c d e : Word) :
    (sha256Total a b c d e).toNat = a.toNat + b.toNat + c.toNat + d.toNat + e.toNat := by
  have small (x : Word) : x.toNat < 2 ^ 32 := x.isLt
  have := small a
  have := small b
  have := small c
  have := small d
  have := small e
  simp only [sha256Total, BitVec.toNat_add, BitVec.toNat_setWidth]
  omega

theorem sha256Add32_toNat (a b c d e : Word) :
    (sha256Add32 a b c d e).toNat = (a.toNat + b.toNat + c.toNat + d.toNat + e.toNat) % 2 ^ 32 := by
  have mask : (0xffffffff : BitVec 64).toNat = 2 ^ 32 - 1 := rfl
  rw [sha256Add32, BitVec.toNat_setWidth, BitVec.toNat_and, mask, Nat.and_two_pow_sub_one_eq_mod, sha256Total_exact,
    Nat.mod_mod]

theorem sha256Add32_eq (a b c d e : Word) : sha256Add32 a b c d e = a + b + c + d + e := by
  apply BitVec.eq_of_toNat_eq
  rw [sha256Add32_toNat]
  simp only [BitVec.toNat_add, Nat.mod_add_mod]

theorem sha256Add32_two (a b : Word) : sha256Add32 a b 0 0 0 = a + b := by
  rw [sha256Add32_eq]
  exact (BitVec.add_zero _).trans ((BitVec.add_zero _).trans (BitVec.add_zero _))

theorem sha256Add32_four (a b c d : Word) : sha256Add32 a b c d 0 = a + b + c + d := by
  rw [sha256Add32_eq]
  exact BitVec.add_zero _

theorem hexWord_eq (word : Word) : hexWord word = Fips.hexadecimal word := by
  have digit : ∀ n < 16, hexDigits.getD n '0' = Nat.digitChar n := by decide
  apply List.map_congr_left
  intro i listed
  have less : i < 8 := List.mem_range.mp listed
  have mask : (15 : Word).toNat = 2 ^ 4 - 1 := rfl
  have places : 2 ^ (28 - i * 4) = 16 ^ (7 - i) := by
    rw [show (16 : Nat) = 2 ^ 4 from rfl, ← Nat.pow_mul]
    congr 1
    omega
  rw [BitVec.toNat_and, mask, Nat.and_two_pow_sub_one_eq_mod, BitVec.toNat_ushiftRight, Nat.shiftRight_eq_div_pow, places]
  exact digit _ (Nat.mod_lt _ (by decide))

/-! Bits. -/

def byteBits (byte : Byte) : List Bool := Fips.bits 8 byte.toNat

def messageBits (bytes : List Byte) : List Bool := bytes.flatMap byteBits

theorem bits_succ (count n : Nat) : Fips.bits (count + 1) n = n.testBit count :: Fips.bits count n := by
  rw [Fips.bits, List.range_succ_eq_map, List.map_cons, List.map_map]
  congr 1
  apply List.map_congr_left
  intro i _
  show n.testBit (count + 1 - 1 - (i + 1)) = n.testBit (count - 1 - i)
  congr 1
  omega

theorem number_bits (value count n : Nat) :
    (Fips.bits count n).foldl (fun value bit => 2 * value + bit.toNat) value = value * 2 ^ count + n % 2 ^ count := by
  induction count generalizing value with
  | zero => simp [Fips.bits, Nat.mod_one]
  | succ count ih =>
    rw [bits_succ, List.foldl_cons, ih, Nat.mod_pow_succ, ← Nat.toNat_testBit, Nat.pow_succ]
    ring

theorem messageBits_length (bytes : List Byte) : (messageBits bytes).length = 8 * bytes.length := by
  induction bytes with
  | nil => rfl
  | cons byte rest ih =>
    have eight : (byteBits byte).length = 8 := by simp [byteBits, Fips.bits]
    show (byteBits byte ++ messageBits rest).length = _
    rw [List.length_append, eight, ih, List.length_cons]
    omega

theorem messageBits_drop (bytes : List Byte) (n : Nat) : (messageBits bytes).drop (8 * n) = messageBits (bytes.drop n) := by
  induction n generalizing bytes with
  | zero => rfl
  | succ n ih =>
    cases bytes with
    | nil => simp [messageBits]
    | cons byte rest =>
      have eight : (byteBits byte).length = 8 := by simp [byteBits, Fips.bits]
      show (byteBits byte ++ messageBits rest).drop (8 * (n + 1)) = _
      rw [show 8 * (n + 1) = (byteBits byte).length + 8 * n by omega, List.drop_append, List.drop_succ_cons, ← ih]
      simp

theorem messageBits_take (bytes : List Byte) (n : Nat) : (messageBits bytes).take (8 * n) = messageBits (bytes.take n) := by
  induction n generalizing bytes with
  | zero => rfl
  | succ n ih =>
    cases bytes with
    | nil => simp [messageBits]
    | cons byte rest =>
      have eight : (byteBits byte).length = 8 := by simp [byteBits, Fips.bits]
      have whole : (byteBits byte).length ≤ (byteBits byte).length + 8 * n := Nat.le_add_right _ _
      show (byteBits byte ++ messageBits rest).take (8 * (n + 1)) = byteBits byte ++ messageBits (rest.take n)
      rw [show 8 * (n + 1) = (byteBits byte).length + 8 * n by omega, List.take_append, ← ih,
        List.take_of_length_le whole, Nat.add_sub_cancel_left]

theorem number_messageBits (value : Nat) (bytes : List Byte) :
    (messageBits bytes).foldl (fun value bit => 2 * value + bit.toNat) value =
      bytes.foldl (fun value byte => value * 256 + byte.toNat) value := by
  induction bytes generalizing value with
  | nil => rfl
  | cons byte rest ih =>
    have whole : byte.toNat % 2 ^ 8 = byte.toNat := Nat.mod_eq_of_lt byte.isLt
    show (byteBits byte ++ messageBits rest).foldl _ value = _
    rw [List.foldl_append, byteBits, number_bits, whole]
    exact ih _

theorem spelled_four {a b c d : Nat} (b_less : b < 256) (c_less : c < 256) (d_less : d < 256) :
    ((a <<< 24 ||| b <<< 16) ||| c <<< 8) ||| d = ((a * 256 + b) * 256 + c) * 256 + d := by
  have first : a <<< 24 ||| b <<< 16 = (a * 256 + b) <<< 16 := by
    rw [← Nat.shiftLeft_add_eq_or_of_lt]
    · simp only [Nat.shiftLeft_eq]
      omega
    · simp only [Nat.shiftLeft_eq]
      omega
  have second : (a * 256 + b) <<< 16 ||| c <<< 8 = ((a * 256 + b) * 256 + c) <<< 8 := by
    rw [← Nat.shiftLeft_add_eq_or_of_lt]
    · simp only [Nat.shiftLeft_eq]
      omega
    · simp only [Nat.shiftLeft_eq]
      omega
  rw [first, second, ← Nat.shiftLeft_add_eq_or_of_lt d_less, Nat.shiftLeft_eq]

theorem four_listed {message : List Byte} {offset : Nat} (inside : offset + 4 ≤ message.length) :
    (message.drop offset).take 4 = [message.getD offset 0, message.getD (offset + 1) 0, message.getD (offset + 2) 0,
      message.getD (offset + 3) 0] := by
  have listed (i : Nat) (less : i < 4) : message.getD (offset + i) 0 = (message.drop offset).getD i 0 := by
    simp only [List.getD_eq_getElem?_getD, List.getElem?_drop]
  have at_start := listed 0 (by decide)
  rw [Nat.add_zero] at at_start
  rw [at_start, listed 1 (by decide), listed 2 (by decide), listed 3 (by decide)]
  have long : 4 ≤ (message.drop offset).length := by
    rw [List.length_drop]
    omega
  match message.drop offset, long with
  | _ :: _ :: _ :: _ :: _, _ => rfl

theorem wordAt_eq {message : List Byte} {block t : Nat} (inside : 64 * block + t * 4 + 4 ≤ message.length) :
    wordAt message (64 * block + t * 4) = Fips.messageWord (messageBits message) block t := by
  have placed : 512 * block + 32 * t = 8 * (64 * block + t * 4) := by omega
  have small (byte : Byte) : byte.toNat < 256 := byte.isLt
  rw [Fips.messageWord, placed, messageBits_drop]
  generalize 64 * block + t * 4 = offset at inside
  have taken : ((messageBits (message.drop offset)).take 32) = messageBits ((message.drop offset).take 4) :=
    messageBits_take (message.drop offset) 4
  rw [taken, four_listed inside, Fips.number, number_messageBits]
  simp only [wordAt]
  generalize message.getD offset 0 = a
  generalize message.getD (offset + 1) 0 = b
  generalize message.getD (offset + 2) 0 = c
  generalize message.getD (offset + 3) 0 = d
  have spelled := @spelled_four a.toNat _ _ _ (small b) (small c) (small d)
  have kept (x : Nat) (less : x < 2 ^ 32) : x % 2 ^ 32 = x := Nat.mod_eq_of_lt less
  have a_less := small a
  have b_less := small b
  have c_less := small c
  have d_less := small d
  apply BitVec.eq_of_toNat_eq
  simp only [BitVec.toNat_or, BitVec.toNat_shiftLeft, BitVec.toNat_setWidth, BitVec.toNat_ofNat, List.foldl_cons,
    List.foldl_nil, Nat.zero_mul, Nat.zero_add]
  rw [kept a.toNat (by omega), kept b.toNat (by omega), kept c.toNat (by omega), kept d.toNat (by omega),
    kept (a.toNat <<< 24) (by rw [Nat.shiftLeft_eq]; omega), kept (b.toNat <<< 16) (by rw [Nat.shiftLeft_eq]; omega),
    kept (c.toNat <<< 8) (by rw [Nat.shiftLeft_eq]; omega), spelled, kept _ (by omega)]

/-! Padding. -/

theorem zeroFilled_eq (message : List Byte) :
    zeroFilled message = message ++ List.replicate ((120 - message.length % 64) % 64) 0 := by
  fun_induction zeroFilled message with
  | case1 message other ih =>
    rw [ih, List.append_assoc, List.length_append, List.length_singleton, List.singleton_append, ← List.replicate_succ]
    congr 2
    omega
  | case2 message done =>
    have none_ : (120 - message.length % 64) % 64 = 0 := by omega
    rw [none_, List.replicate_zero, List.append_nil]

theorem sha256Message_eq (bytes : List Byte) (bitLength : BitVec 64) : sha256Message bytes bitLength =
    bytes ++ 0x80 :: (List.replicate ((119 - bytes.length % 64) % 64) 0 ++ (List.range 8).map (lengthByte bitLength)) := by
  have zeros : (120 - (bytes ++ [(0x80 : Byte)]).length % 64) % 64 = (119 - bytes.length % 64) % 64 := by
    rw [List.length_append, List.length_singleton]
    omega
  rw [sha256Message, zeroFilled_eq, zeros, List.foldl_append_eq_append, ← List.flatMap_def, ← List.map_eq_flatMap,
    List.append_assoc, List.append_assoc, List.singleton_append]

end Fala.Digest
