import Fala.Driver.Environment
import Fala.Json.Schema
import Fala.Jsonl.Reader
import Fala.Text.Replacing

/-! Secrets in the streams that an operator sees. -/

namespace Fala.Driver
open Durable Jsonl Schema

/-- `_is_base_environment_key` -/
def isBaseEnvironmentKey (key : String) : Bool := baseEnvironmentKeys.contains key

def byteLength (text : String) : Nat := (utf8 text).length

/-- One step of the insertion sort. The sorted values are listed from the end, where the new one sinks past those
that are shorter. -/
def sink (current : String) : List String → List String
  | [] => [current]
  | last :: rest => if byteLength last < byteLength current then last :: sink current rest else current :: last :: rest

/-- `_redaction_values` -/
def redactionValues (environment : Environment) : List String :=
  let secrets := (environment.rows.filter fun pair => pair.2 ≠ "" ∧ ¬ isBaseEnvironmentKey pair.1).map Prod.snd
  (secrets.foldl (fun sorted secret => sink secret sorted) []).reverse

/-- A byte of the form `10xxxxxx`. -/
def isContinuation (byte : UInt8) : Bool := byte &&& 0xC0 = 0x80

/-- `_utf8_codepoint_end` -/
def utf8CodepointEnd (value : Bytes) (start : Nat) : Nat :=
  if value.length ≤ start then start else start + 1 + ((value.drop (start + 1)).takeWhile isContinuation).length

/-- `_bytes_equal_at` -/
def bytesEqualAt (value : Bytes) (index : Nat) (secret : Bytes) : Bool :=
  if secret.length = 0 ∨ value.length < index + secret.length then false
  else (List.range secret.length).all fun offset => decide (value[index + offset]? = secret[offset]?)

def isBoundary (value : Bytes) (index : Nat) : Bool :=
  decide (index ≤ value.length) && value[index]?.all fun byte => !isContinuation byte

/-- `value[byte=start:stop]`, which aborts where a cut is no boundary of a code point. -/
def slice (value : Bytes) (start stop : Nat) : Except String Bytes := do
  ensure (isBoundary value start && isBoundary value stop) "slice does not lie on code point boundaries"
  return (value.drop start).take (stop - start)

def redactedMarker : String := "<redacted>"

theorem lt_utf8CodepointEnd {value : Bytes} {start : Nat} (inside : start < value.length) :
    start < utf8CodepointEnd value start := by
  rw [utf8CodepointEnd, if_neg (Nat.not_le_of_lt inside)]
  omega

/-- The loop of `redact_environment` over one secret. -/
def redactSecret (redacted secret : Bytes) (index : Nat) (replaced : Bytes) : Except String Bytes :=
  if _inside : index < redacted.length then
    if _found : bytesEqualAt redacted index secret = true then
      redactSecret redacted secret (index + secret.length) (replaced ++ utf8 redactedMarker)
    else do
      let piece ← slice redacted index (utf8CodepointEnd redacted index)
      redactSecret redacted secret (utf8CodepointEnd redacted index) (replaced ++ piece)
  else .ok replaced
termination_by redacted.length - index
decreasing_by
  · have positive : secret.length ≠ 0 := by
      intro empty
      rw [bytesEqualAt, if_pos (.inl empty)] at _found
      cases _found
    omega
  · have further := lt_utf8CodepointEnd _inside
    omega

/-- `redact_environment` -/
def redactEnvironment (value : String) (environment : Environment) : Except String Bytes :=
  (redactionValues environment).foldlM (fun redacted secret =>
    if byteLength secret = 0 then .ok redacted else redactSecret redacted (utf8 secret) 0 []) (utf8 value)

/-! The bytes of a text and its characters. -/

def encode (cs : List Char) : Bytes := cs.flatMap String.utf8EncodeChar

theorem utf8_eq (text : String) : utf8 text = encode text.toList := by
  rw [← utf8_toList, utf8_ofList]
  rfl

theorem encode_append (cs ds : List Char) : encode (cs ++ ds) = encode cs ++ encode ds := List.flatMap_append

theorem encode_cons (c : Char) (cs : List Char) : encode (c :: cs) = String.utf8EncodeChar c ++ encode cs :=
  List.flatMap_cons

theorem encode_nil_iff {cs : List Char} : encode cs = [] ↔ cs = [] := by
  cases cs with
  | nil => simp [encode]
  | cons c rest => simp [encode_cons, String.utf8EncodeChar_ne_nil]

theorem isContinuation_iff {n : Nat} (byte : n < 256) : isContinuation (UInt8.ofNat n) = true ↔ 128 ≤ n ∧ n < 192 := by
  have every : ∀ m : Fin 256, isContinuation (UInt8.ofNat m.val) = true ↔ 128 ≤ m.val ∧ m.val < 192 := by decide +kernel
  exact every ⟨n, byte⟩

theorem encodeChar_bytes (c : Char) :
    ∃ lead tail, String.utf8EncodeChar c = lead :: tail ∧ isContinuation lead = false ∧
      ∀ byte ∈ tail, isContinuation byte = true := by
  have inner {n : Nat} : isContinuation (UInt8.ofNat (n % 0x40 + 0x80)) = true :=
    (isContinuation_iff (by omega)).mpr (by omega)
  have outer {n : Nat} (byte : n < 256) (lead : n < 128 ∨ 192 ≤ n) : isContinuation (UInt8.ofNat n) = false := by
    rw [← Bool.not_eq_true, isContinuation_iff byte]
    omega
  unfold String.utf8EncodeChar
  by_cases one : c.val.toNat ≤ 0x7f
  · exact ⟨_, [], if_pos one, outer (by omega) (by omega), fun _ none => absurd none List.not_mem_nil⟩
  · by_cases two : c.val.toNat ≤ 0x7ff
    · refine ⟨_, _, (if_neg one).trans (if_pos two), outer (by omega) (by omega), ?_⟩
      simp only [List.mem_singleton, forall_eq]
      exact inner
    · by_cases three : c.val.toNat ≤ 0xffff
      · refine ⟨_, _, (if_neg one).trans ((if_neg two).trans (if_pos three)), outer (by omega) (by omega), ?_⟩
        simp only [List.mem_cons, List.not_mem_nil, or_false, forall_eq_or_imp, forall_eq]
        exact ⟨inner, inner⟩
      · refine ⟨_, _, (if_neg one).trans ((if_neg two).trans (if_neg three)), outer (by omega) (by omega), ?_⟩
        simp only [List.mem_cons, List.not_mem_nil, or_false, forall_eq_or_imp, forall_eq]
        exact ⟨inner, inner, inner⟩

theorem encode_cons_inj {c d : Char} {cs ds : Bytes}
    (same : String.utf8EncodeChar c ++ cs = String.utf8EncodeChar d ++ ds) : c = d := by
  have first := @ByteArray.utf8DecodeChar?_utf8EncodeChar_append cs.toByteArray c
  have second := @ByteArray.utf8DecodeChar?_utf8EncodeChar_append ds.toByteArray d
  rw [← List.toByteArray_append, same, List.toByteArray_append, second] at first
  exact (Option.some.inj first).symm

theorem encode_prefix_iff {cs ds : List Char} : encode cs <+: encode ds ↔ cs <+: ds := by
  constructor
  · intro begins
    induction cs generalizing ds with
    | nil => exact List.nil_prefix
    | cons c rest ih =>
      obtain ⟨tail, whole⟩ := begins
      cases ds with
      | nil =>
        rw [encode_cons, List.append_assoc] at whole
        exact absurd (List.append_eq_nil_iff.mp whole).1 String.utf8EncodeChar_ne_nil
      | cons d others =>
        rw [encode_cons, encode_cons, List.append_assoc] at whole
        have same := encode_cons_inj whole
        subst same
        rw [List.cons_prefix_cons]
        exact ⟨rfl, ih ⟨tail, List.append_cancel_left whole⟩⟩
  · rintro ⟨tail, rfl⟩
    exact ⟨encode tail, (encode_append cs tail).symm⟩

theorem bytesEqualAt_iff {value secret : Bytes} {index : Nat} :
    bytesEqualAt value index secret = true ↔ secret ≠ [] ∧ secret <+: value.drop index := by
  unfold bytesEqualAt
  by_cases empty : secret.length = 0
  · have none : secret = [] := List.length_eq_zero_iff.mp empty
    simp [none]
  · have some : secret ≠ [] := fun none => empty (List.length_eq_zero_iff.mpr none)
    by_cases short : value.length < index + secret.length
    · rw [if_pos (.inr short)]
      have out : ¬ secret <+: value.drop index := by
        intro begins
        have length := begins.length_le
        rw [List.length_drop] at length
        omega
      simp [out]
    · rw [if_neg (not_or.mpr ⟨empty, short⟩), List.all_eq_true, and_iff_right some, List.prefix_iff_getElem?]
      simp only [List.mem_range, decide_eq_true_eq, List.getElem?_drop]
      refine forall_congr' fun offset => forall_congr' fun within => ?_
      rw [List.getElem?_eq_getElem within]

theorem head_encode (cs : List Char) : (encode cs)[0]?.all (fun byte => !isContinuation byte) = true := by
  cases cs with
  | nil => rfl
  | cons c rest =>
    obtain ⟨lead, tail, bytes, first, -⟩ := encodeChar_bytes c
    simp [encode_cons, bytes, first]

theorem isBoundary_encode (done rest : List Char) : isBoundary (encode (done ++ rest)) (encode done).length = true := by
  have head := head_encode rest
  simp only [isBoundary, encode_append, List.length_append, Nat.le_add_right, decide_true, Bool.true_and]
  rw [List.getElem?_append_right (Nat.le_refl _), Nat.sub_self]
  exact head

theorem utf8CodepointEnd_encode (done : List Char) (c : Char) (rest : List Char) :
    utf8CodepointEnd (encode (done ++ c :: rest)) (encode done).length = (encode (done ++ [c])).length := by
  obtain ⟨lead, tail, bytes, -, others⟩ := encodeChar_bytes c
  have whole : encode (done ++ c :: rest) = (encode done ++ [lead]) ++ (tail ++ encode rest) := by
    rw [encode_append, encode_cons, bytes]
    simp only [List.append_assoc, List.cons_append, List.nil_append]
  have stops : (encode rest).takeWhile isContinuation = [] := by
    have head := head_encode rest
    cases following : encode rest with
    | nil => rfl
    | cons byte more =>
      rw [following] at head
      have plain : ¬ isContinuation byte = true := by simpa using head
      rw [List.takeWhile_cons, if_neg plain]
  have length : (encode done).length + 1 = (encode done ++ [lead]).length := by simp
  have one : encode [c] = lead :: tail := by rw [encode_cons, bytes]; exact List.append_nil _
  have within : ¬ (encode (done ++ c :: rest)).length ≤ (encode done).length := by
    rw [whole, List.length_append, List.length_append]
    simp only [List.length_singleton]
    omega
  rw [utf8CodepointEnd, if_neg within, length, whole, List.drop_left, List.takeWhile_append_of_pos others, stops,
    List.append_nil, encode_append, one]
  simp only [List.length_append, List.length_cons, List.length_nil]
  omega

theorem redactSecret_encode {secret : List Char} (some : secret ≠ []) (done todo out : List Char) :
    redactSecret (encode (done ++ todo)) (encode secret) (encode done).length (encode out) =
      .ok (encode (out ++ Replacing.replaceAll secret redactedMarker.toList todo)) := by
  have begins (done todo : List Char) : bytesEqualAt (encode (done ++ todo)) (encode done).length (encode secret) = true ↔
      secret <+: todo := by
    rw [bytesEqualAt_iff, encode_append, List.drop_left, encode_prefix_iff, and_iff_right (mt encode_nil_iff.mp some)]
  have within (done : List Char) (c : Char) (rest : List Char) :
      (encode done).length < (encode (done ++ c :: rest)).length := by
    have positive := List.length_pos_iff.mpr (mt encode_nil_iff.mp (List.cons_ne_nil c rest))
    rw [encode_append, List.length_append]
    omega
  fun_induction Replacing.cut secret todo generalizing done out with
  | case1 =>
    rw [redactSecret, dif_neg (by rw [List.append_nil]; exact Nat.lt_irrefl _), Replacing.replaceAll_nil, List.append_nil]
  | case2 c rest found ih =>
    obtain ⟨tail, whole⟩ := found.2
    rw [redactSecret, dif_pos (within done c rest), dif_pos ((begins done _).mpr found.2),
      Replacing.replaceAll_found some found.2, ← List.append_assoc]
    have further := ih (done ++ secret) (out ++ redactedMarker.toList)
    rw [← whole, List.drop_left] at further ⊢
    rw [List.append_assoc done, encode_append out, ← utf8_eq, encode_append done secret, List.length_append] at further
    exact further
  | case3 c rest other ih =>
    have unlike : ¬ bytesEqualAt (encode (done ++ c :: rest)) (encode done).length (encode secret) = true :=
      fun equal => other ⟨some, (begins done _).mp equal⟩
    have split : done ++ c :: rest = (done ++ [c]) ++ rest := by simp
    have cut : slice (encode (done ++ c :: rest)) (encode done).length (encode (done ++ [c])).length =
        .ok (encode [c]) := by
      have stop := isBoundary_encode (done ++ [c]) rest
      rw [← split] at stop
      rw [slice, isBoundary_encode, stop, Bool.and_true, ensure, if_pos rfl]
      have piece : encode (done ++ c :: rest) = encode done ++ (encode [c] ++ encode rest) := by
        rw [← encode_append, ← encode_append]
        simp
      have size : (encode (done ++ [c])).length - (encode done).length = (encode [c]).length := by
        rw [encode_append, List.length_append, Nat.add_sub_cancel_left]
      rw [piece, List.drop_left, size]
      exact congrArg Except.ok List.take_left
    rw [redactSecret, dif_pos (within done c rest), dif_neg unlike, utf8CodepointEnd_encode, cut,
      Replacing.replaceAll_other other]
    have further := ih (done ++ [c]) (out ++ [c])
    rw [← split, encode_append out, List.append_assoc out] at further
    exact further

/-! The order of the secrets. -/

theorem sink_perm (current : String) (sorted : List String) : (sink current sorted).Perm (current :: sorted) := by
  induction sorted with
  | nil => exact .refl _
  | cons last rest ih =>
    rw [sink]
    by_cases shorter : byteLength last < byteLength current
    · rw [if_pos shorter]
      exact (ih.cons last).trans (.swap current last rest)
    · rw [if_neg shorter]

theorem sink_sorted {current : String} {sorted : List String}
    (before : sorted.Pairwise fun a b => byteLength a ≤ byteLength b) :
    (sink current sorted).Pairwise fun a b => byteLength a ≤ byteLength b := by
  induction sorted with
  | nil => exact List.pairwise_singleton _ _
  | cons last rest ih =>
    obtain ⟨least, others⟩ := List.pairwise_cons.mp before
    rw [sink]
    by_cases shorter : byteLength last < byteLength current
    · rw [if_pos shorter, List.pairwise_cons]
      refine ⟨fun secret listed => ?_, ih others⟩
      rcases List.mem_cons.mp ((sink_perm current rest).mem_iff.mp listed) with rfl | later
      · exact Nat.le_of_lt shorter
      · exact least secret later
    · rw [if_neg shorter, List.pairwise_cons]
      refine ⟨fun secret listed => ?_, before⟩
      rcases List.mem_cons.mp listed with rfl | later
      · exact Nat.le_of_not_lt shorter
      · exact Nat.le_trans (Nat.le_of_not_lt shorter) (least secret later)

theorem foldl_sink (secrets sorted : List String)
    (before : sorted.Pairwise fun a b => byteLength a ≤ byteLength b) :
    (secrets.foldl (fun sorted secret => sink secret sorted) sorted).Perm (sorted ++ secrets) ∧
      (secrets.foldl (fun sorted secret => sink secret sorted) sorted).Pairwise
        fun a b => byteLength a ≤ byteLength b := by
  induction secrets generalizing sorted with
  | nil => exact ⟨.of_eq (List.append_nil sorted).symm, before⟩
  | cons secret rest ih =>
    have ⟨perm, after⟩ := ih (sink secret sorted) (sink_sorted before)
    refine ⟨perm.trans ?_, after⟩
    exact ((sink_perm secret sorted).append_right rest).trans List.perm_middle.symm

/-- A nonempty value under a key that is no base key. -/
def Secret (environment : Environment) (secret : String) : Prop :=
  secret ≠ "" ∧ ∃ key, environment.get key = some secret ∧ isBaseEnvironmentKey key = false

theorem mem_redactionValues {environment : Environment} {secret : String} :
    secret ∈ redactionValues environment ↔ Secret environment secret := by
  have perm := (foldl_sink ((environment.rows.filter fun pair =>
    pair.2 ≠ "" ∧ ¬ isBaseEnvironmentKey pair.1).map Prod.snd) [] .nil).1
  rw [redactionValues, List.mem_reverse, perm.mem_iff, List.nil_append, List.mem_map, Secret]
  constructor
  · rintro ⟨entry, listed, rfl⟩
    obtain ⟨stored, kept⟩ := List.mem_filter.mp listed
    have kept := of_decide_eq_true kept
    exact ⟨kept.1, entry.1, Dict.get_some.mpr stored, Bool.eq_false_iff.mpr kept.2⟩
  · rintro ⟨some, key, held, other⟩
    refine ⟨(key, secret), List.mem_filter.mpr ⟨Dict.get_some.mp held, decide_eq_true ⟨some, ?_⟩⟩, rfl⟩
    exact Bool.eq_false_iff.mp other

theorem redactionValues_sorted (environment : Environment) :
    (redactionValues environment).Pairwise fun a b => byteLength b ≤ byteLength a := by
  rw [redactionValues, List.pairwise_reverse]
  exact (foldl_sink _ [] .nil).2

/-! The redacted text. -/

theorem redactEnvironment_encode (text : String) (environment : Environment) :
    redactEnvironment text environment =
      .ok (encode (((redactionValues environment).map String.toList).foldl
        (fun text needle => Replacing.replaceAll needle redactedMarker.toList text) text.toList)) := by
  have nonempty : ∀ secret ∈ redactionValues environment, secret ≠ "" := fun secret listed =>
    (mem_redactionValues.mp listed).1
  rw [redactEnvironment, utf8_eq]
  generalize text.toList = cs
  generalize redactionValues environment = secrets at nonempty
  induction secrets generalizing cs with
  | nil => rfl
  | cons secret rest ih =>
    obtain ⟨some, others⟩ := List.forall_mem_cons.mp nonempty
    have letters : secret.toList ≠ [] := mt String.toList_eq_nil_iff.mp some
    have long : byteLength secret ≠ 0 := by
      rw [byteLength, utf8_eq]
      exact mt List.length_eq_zero_iff.mp (mt encode_nil_iff.mp letters)
    have replaced := redactSecret_encode letters [] cs []
    rw [List.foldlM_cons, if_neg long, utf8_eq, List.map_cons, List.foldl_cons]
    exact (congrArg (· >>= _) replaced).trans (ih _ others)

/-- The text with its secrets marked, the longer ones first. -/
def marked (environment : Environment) (text : String) : Replacing.Marked Char :=
  .layered ((redactionValues environment).map String.toList) text.toList

/-- The marked occurrences are disjoint occurrences of secrets in the text, and none is left between them. -/
structure Redaction (environment : Environment) (text : String) (m : Replacing.Marked Char) : Prop where
  original : m.original = text.toList
  secrets : ∀ g ∈ m.gaps, ∃ secret, Secret environment secret ∧ g.1 = secret.toList
  free : ∀ part ∈ m.parts, ∀ secret, Secret environment secret → ¬ secret.toList <:+: part

theorem needles_nonempty (environment : Environment) :
    ∀ needle ∈ (redactionValues environment).map String.toList, needle ≠ [] := by
  intro needle listed
  obtain ⟨secret, among, rfl⟩ := List.mem_map.mp listed
  exact mt String.toList_eq_nil_iff.mp (mem_redactionValues.mp among).1

theorem marked_redaction (environment : Environment) (text : String) : Redaction environment text (marked environment text) where
  original := (Replacing.Marked.original_foldl _ _).trans (Replacing.Marked.original_plain _)
  secrets g listed := by
    rcases Replacing.Marked.word_foldl listed with word | ⟨_, none, _⟩
    · obtain ⟨secret, among, same⟩ := List.mem_map.mp word
      exact ⟨secret, mem_redactionValues.mp among, same.symm⟩
    · cases none
  free part listed secret held := Replacing.Marked.free_foldl (needles_nonempty environment) listed secret.toList
    (List.mem_map_of_mem (mem_redactionValues.mpr held))

end Fala.Driver
