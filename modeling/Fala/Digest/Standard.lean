import Mathlib.Data.List.Basic
import Fala.Digest.Sha256

/-! The digest is the one of the standard. -/

namespace Fala.Digest
open Fips (Word Hash)

/-! Padding. -/

theorem messageBits_append (front back : List Byte) :
    messageBits (front ++ back) = messageBits front ++ messageBits back := List.flatMap_append

theorem messageBits_zeros (count : Nat) : messageBits (List.replicate count 0) = List.replicate (8 * count) false := by
  have byte : byteBits 0 = List.replicate 8 false := rfl
  induction count with
  | zero => rfl
  | succ count ih =>
    show byteBits 0 ++ messageBits (List.replicate count 0) = _
    rw [ih, byte, List.replicate_append_replicate]
    congr 1
    omega

theorem lengthByte_toNat (bitLength : BitVec 64) (index : Nat) :
    (lengthByte bitLength index).toNat = bitLength.toNat >>> (56 - index * 8) % 2 ^ 8 := by
  have mask : (0xff : BitVec 64).toNat = 2 ^ 8 - 1 := rfl
  rw [lengthByte, BitVec.toNat_setWidth, BitVec.toNat_and, mask, Nat.and_two_pow_sub_one_eq_mod, Nat.mod_mod,
    BitVec.toNat_ushiftRight]

theorem messageBits_length_bytes (bitLength : BitVec 64) :
    messageBits ((List.range 8).map (lengthByte bitLength)) = Fips.bits 64 bitLength.toNat := by
  have split : List.range 64 = (List.range 8).flatMap fun i => (List.range 8).map (8 * i + ·) := rfl
  rw [messageBits, Fips.bits, split, List.map_flatMap, List.flatMap_map]
  apply List.flatMap_congr
  intro i listed
  have i_less : i < 8 := List.mem_range.mp listed
  rw [byteBits, Fips.bits, List.map_map]
  apply List.map_congr_left
  intro j listed
  have j_less : j < 8 := List.mem_range.mp listed
  have inside : 8 - 1 - j < 8 := by omega
  show (lengthByte bitLength i).toNat.testBit (8 - 1 - j) = bitLength.toNat.testBit (64 - 1 - (8 * i + j))
  rw [lengthByte_toNat, Nat.testBit_mod_two_pow, Nat.testBit_shiftRight, decide_eq_true inside, Bool.true_and]
  congr 1
  omega

theorem sha256Message_length (bytes : List Byte) (bitLength : BitVec 64) :
    (sha256Message bytes bitLength).length = bytes.length + 9 + (119 - bytes.length % 64) % 64 := by
  rw [sha256Message_eq]
  simp only [List.length_append, List.length_cons, List.length_replicate, List.length_map, List.length_range]
  omega

theorem sha256Message_blocks (bytes : List Byte) (bitLength : BitVec 64) :
    (sha256Message bytes bitLength).length % 64 = 0 := by
  rw [sha256Message_length]
  omega

theorem sha256Message_last (bytes : List Byte) (bitLength : BitVec 64) :
    messageBits ((sha256Message bytes bitLength).drop ((sha256Message bytes bitLength).length - 8)) =
      Fips.bits 64 bitLength.toNat := by
  have filled : sha256Message bytes bitLength =
      (bytes ++ 0x80 :: List.replicate ((119 - bytes.length % 64) % 64) 0) ++ (List.range 8).map (lengthByte bitLength) := by
    rw [sha256Message_eq, List.append_assoc, List.cons_append]
  rw [filled, List.length_append, List.length_map, List.length_range, Nat.add_sub_cancel, List.drop_left]
  exact messageBits_length_bytes bitLength

theorem sha256Message_pad {bytes : List Byte} (within : 8 * bytes.length < 2 ^ 64) :
    messageBits (sha256Message bytes (BitVec.ofNat 64 (8 * bytes.length))) = Fips.pad (messageBits bytes) := by
  have marker : byteBits 0x80 = true :: List.replicate 7 false := rfl
  have zeros : 7 + 8 * ((119 - bytes.length % 64) % 64) = (447 + 512 - 8 * bytes.length % 512) % 512 := by omega
  have spelled : (BitVec.ofNat 64 (8 * bytes.length)).toNat = 8 * bytes.length := by
    rw [BitVec.toNat_ofNat]
    exact Nat.mod_eq_of_lt within
  rw [sha256Message_eq, messageBits_append, Fips.pad, messageBits_length, ← zeros]
  congr 1
  show byteBits 0x80 ++ messageBits _ = _
  rw [messageBits_append, messageBits_zeros, messageBits_length_bytes, spelled, marker, List.cons_append,
    ← List.append_assoc, List.replicate_append_replicate]

/-! The schedule. -/

theorem written (spec : Nat → Word) (write : List Word → Nat → Word) (start : Nat) (words : List Word) (count : Nat)
    (fits : start + count ≤ 64) (long : words.length = 64) (before : ∀ t < start, words.getD t 0 = spec t)
    (next : ∀ schedule : List Word, ∀ t, start ≤ t → t < start + count → (∀ s < t, schedule.getD s 0 = spec s) →
      write schedule t = spec t) :
    let final := (List.range' start count).foldl (fun schedule index => schedule.set index (write schedule index)) words
    final.length = 64 ∧ ∀ t < start + count, final.getD t 0 = spec t := by
  induction count with
  | zero => exact ⟨long, before⟩
  | succ count ih =>
    have earlier := ih (by omega) fun schedule t low high => next schedule t low (by omega)
    rw [List.range'_1_concat, List.foldl_append]
    generalize (List.range' start count).foldl _ words = schedule at earlier
    show (schedule.set _ _).length = 64 ∧ ∀ t < start + (count + 1), (schedule.set _ _).getD t 0 = spec t
    refine ⟨List.length_set.trans earlier.1, ?_⟩
    intro t less
    have placed : start + count < schedule.length := by
      rw [earlier.1]
      omega
    by_cases last : start + count = t
    · rw [← last, List.getD_eq_getElem?_getD, List.getElem?_set_self placed]
      exact next schedule _ (by omega) (by omega) earlier.2
    · rw [List.getD_eq_getElem?_getD, List.getElem?_set_ne last, ← List.getD_eq_getElem?_getD]
      exact earlier.2 t (by omega)

theorem scheduleWord_eq {message : Nat → Word} {schedule : List Word} {t : Nat} (late : 16 ≤ t)
    (before : ∀ s < t, schedule.getD s 0 = Fips.schedule message s) :
    scheduleWord schedule t = Fips.schedule message t := by
  have other : ¬t < 16 := by omega
  rw [Fips.schedule, if_neg other]
  simp only [scheduleWord, sha256Add32_four]
  rw [before (t - 15) (by omega), before (t - 2) (by omega), before (t - 16) (by omega), before (t - 7) (by omega)]
  simp (disch := decide) only [Fips.smallSigma0, Fips.smallSigma1, sha256Rotr_eq]
  ac_rfl

theorem blockSchedule_eq {message : List Byte} {block : Nat} {schedule : List Word}
    (inside : 64 * block + 64 ≤ message.length) (long : schedule.length = 64) :
    (blockSchedule message (64 * block) schedule).length = 64 ∧ ∀ t < 64,
      (blockSchedule message (64 * block) schedule).getD t 0 =
        Fips.schedule (Fips.messageWord (messageBits message) block) t := by
  have first := written (Fips.schedule (Fips.messageWord (messageBits message) block))
    (fun _ index => wordAt message (64 * block + index * 4)) 0 schedule 16 (by decide) long
    (fun t none_ => absurd none_ (Nat.not_lt_zero t)) (by
      intro words t _ less _
      have early : t < 16 := by omega
      rw [Fips.schedule, if_pos early]
      exact wordAt_eq (by omega))
  rw [← List.range_eq_range'] at first
  have second := written (Fips.schedule (Fips.messageWord (messageBits message) block)) scheduleWord 16 _ 48 (by decide)
    first.1 (fun t less => first.2 t (by omega)) fun _ _ late _ before => scheduleWord_eq late before
  exact second

/-! The rounds. -/

theorem blockRound_eq (schedule : List Word) (v : Hash) (index : Nat) :
    blockRound schedule v index = Fips.round (Fips.roundConstants.getD index 0) (schedule.getD index 0) v := by
  simp (disch := decide) only [blockRound, Fips.round, Fips.bigSigma0, Fips.bigSigma1, Fips.ch, Fips.maj, sha256Rotr_eq,
    sha256Add32_two]
  rw [sha256Add32_eq]
  rfl

theorem addedTo_eq (state v : Hash) : addedTo state v = state.add v := by
  simp only [addedTo, Hash.add, sha256Add32_two]

theorem sha256Block_schedule (message : List Byte) (carried : Hash × List Word) (blockStart : Nat) :
    (sha256Block message carried blockStart).2 = blockSchedule message blockStart carried.2 := by
  simp only [sha256Block]

theorem sha256Block_eq {message : List Byte} {block : Nat} {carried : Hash × List Word}
    (inside : 64 * block + 64 ≤ message.length) (long : carried.2.length = 64) :
    (sha256Block message carried (64 * block)).1 =
        Fips.compress carried.1 (Fips.messageWord (messageBits message) block) ∧
      (sha256Block message carried (64 * block)).2.length = 64 := by
  have scheduled := blockSchedule_eq inside long
  rw [sha256Block_schedule]
  refine ⟨?_, scheduled.1⟩
  simp only [sha256Block, addedTo_eq, Fips.compress]
  apply congrArg (Hash.add carried.1)
  apply List.foldl_ext
  intro v t listed
  rw [blockRound_eq, scheduled.2 t (List.mem_range.mp listed)]

theorem blocks_run {message : List Byte} {count : Nat} (inside : 64 * count ≤ message.length) :
    let final := ((List.range count).map (64 * ·)).foldl (sha256Block message) (sha256State, List.replicate 64 0)
    final.1 = (List.range count).foldl
        (fun hash block => Fips.compress hash (Fips.messageWord (messageBits message) block)) Fips.initial ∧
      final.2.length = 64 := by
  induction count with
  | zero => exact ⟨rfl, rfl⟩
  | succ count ih =>
    have earlier := ih (by omega)
    rw [List.range_succ, List.map_append, List.foldl_append, List.foldl_append]
    generalize ((List.range count).map (64 * ·)).foldl (sha256Block message) _ = carried at earlier
    rw [← earlier.1]
    exact sha256Block_eq (by omega) earlier.2

theorem sha256_of_message {bytes : List Byte} (within : 8 * bytes.length < 2 ^ 64) :
    let message := sha256Message bytes (BitVec.ofNat 64 (8 * bytes.length))
    ((blockStarts message).foldl (sha256Block message) (sha256State, List.replicate 64 0)).1 =
      Fips.sha256 (messageBits bytes) := by
  have whole := sha256Message_blocks bytes (BitVec.ofNat 64 (8 * bytes.length))
  have padded := sha256Message_pad within
  generalize sha256Message bytes (BitVec.ofNat 64 (8 * bytes.length)) = message at whole padded
  have counted : (message.length + 63) / 64 = 8 * message.length / 512 := by omega
  have run := @blocks_run message ((message.length + 63) / 64) (by omega)
  show ((blockStarts message).foldl (sha256Block message) (sha256State, List.replicate 64 0)).1 = _
  rw [blockStarts, run.1, Fips.sha256, ← padded, messageBits_length, counted]

theorem sha256BitLength_eq (length : Nat) : sha256BitLength length =
    if 8 * length < 2 ^ 64 then .ok (BitVec.ofNat 64 (8 * length))
    else .error "SHA-256 input exceeds its 64-bit length field" := by
  by_cases within : 8 * length < 2 ^ 64
  · have small : ¬0x1fffffffffffffff < length := by omega
    have spelled : BitVec.ofNat 64 length * 8 = BitVec.ofNat 64 (8 * length) := by
      rw [Nat.mul_comm, BitVec.ofNat_mul]
      rfl
    rw [if_pos within, sha256BitLength, if_neg small, spelled]
  · have large : 0x1fffffffffffffff < length := by omega
    rw [if_neg within, sha256BitLength, if_pos large]

/-- The digest of bytes is the one of the standard, up to the length that the length field can say. -/
theorem sha256_standard (bytes : List Byte) :
    sha256RawBytes bytes = (if 8 * bytes.length < 2 ^ 64 then .ok (String.ofList (Fips.digest (messageBits bytes)))
      else .error "SHA-256 input exceeds its 64-bit length field") ∧
    sha256BitLength bytes.length = (if 8 * bytes.length < 2 ^ 64 then .ok (BitVec.ofNat 64 (8 * bytes.length))
      else .error "SHA-256 input exceeds its 64-bit length field") ∧
    (∀ bitLength, (sha256Message bytes bitLength).length % 64 = 0 ∧
      messageBits ((sha256Message bytes bitLength).drop ((sha256Message bytes bitLength).length - 8)) =
        Fips.bits 64 bitLength.toNat) ∧
    ∀ a b c d e, (sha256Total a b c d e).toNat = a.toNat + b.toNat + c.toNat + d.toNat + e.toNat ∧
      (sha256Add32 a b c d e).toNat = (a.toNat + b.toNat + c.toNat + d.toNat + e.toNat) % 2 ^ 32 := by
  refine ⟨?_, sha256BitLength_eq bytes.length,
    fun bitLength => ⟨sha256Message_blocks bytes bitLength, sha256Message_last bytes bitLength⟩,
    fun a b c d e => ⟨sha256Total_exact a b c d e, sha256Add32_toNat a b c d e⟩⟩
  by_cases within : 8 * bytes.length < 2 ^ 64
  · have hexadecimal : hexWord = Fips.hexadecimal := funext hexWord_eq
    have hashed := sha256_of_message within
    rw [if_pos within, sha256RawBytes, sha256BitLength_eq, if_pos within]
    show Except.ok (String.ofList (List.flatMap hexWord (Hash.words _))) = _
    rw [hashed, hexadecimal, Fips.digest]
  · rw [if_neg within, sha256RawBytes, sha256BitLength_eq, if_neg within]
    rfl

example : (sha256RawBytes [0x61, 0x62, 0x63]).toOption =
    some "ba7816bf8f01cfea414140de5dae2223b00361a396177a9cb410ff61f20015ad" := by
  decide +kernel

end Fala.Digest
