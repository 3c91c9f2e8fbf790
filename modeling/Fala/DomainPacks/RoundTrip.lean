import Fala.DomainPacks.Records
import Fala.Json.Reading
import Fala.Package.Expansion

/-! What the packs write they read again. -/

namespace Fala.DomainPacks
open Json Schema Correlation

variable {codec : Codec}

/-! The texts of objects. -/

theorem toList_fieldsText_cons (name text : String) (rest : List (String × String)) :
    (fieldsText ((name, text) :: rest)).toList =
      name.toList ++ ':' :: (text.toList ++ (if rest = [] then [] else [',']) ++ (fieldsText rest).toList) := by
  rw [fieldsText]
  by_cases last : rest = []
  · simp [last]
  · simp [last]

theorem toList_quote (text : String) : (quote codec text).toList = writeText codec.escape text := by
  rw [quote, codec.printed, write]

theorem objectText_print (members : List (String × Json)) :
    objectText (members.map fun m => (quote codec m.1, codec.print m.2)) = codec.print (.obj members) := by
  apply Library.print_inj
  have fields : (fieldsText (members.map fun m => (quote codec m.1, codec.print m.2))).toList =
      writeMembers codec.scalar codec.escape members := by
    induction members with
    | nil => rfl
    | cons m rest ih =>
      rw [List.map_cons, toList_fieldsText_cons, ih, toList_quote, codec.printed, writeMembers]
      cases rest <;> simp
  rw [objectText, write, String.toList_append, String.toList_append, fields]
  rfl

theorem quote_label {name : String} (plain : ∀ c ∈ name.toList, isPlain c = true) : quote codec name = label name := by
  have same : ∀ letters : List Char, (∀ c ∈ letters, isPlain c = true) → letters.flatMap codec.escape = letters := by
    intro letters plain
    induction letters with
    | nil => rfl
    | cons c rest ih =>
      have kept : codec.escape c = [c] := codec.plain c (.inl (plain c List.mem_cons_self))
      rw [List.flatMap_cons, kept, ih fun d listed => plain d (List.mem_cons_of_mem _ listed), List.singleton_append]
  apply String.toList_inj.mp
  rw [toList_quote, writeText, same _ plain]
  simp [label]

theorem print_int (n : Int) : codec.print (.int n) = toString n := by
  apply String.toList_inj.mp
  rw [codec.printed, write, codec.int]
  all_goals simp

theorem print_uint (n : Nat) : codec.print (.uint n) = toString n := by
  apply String.toList_inj.mp
  rw [codec.printed, write, codec.uint]
  all_goals simp

theorem composed {members : List (String × String × Json)} (distinct : (members.map Prod.fst).Nodup)
    (plain : ((members.map Prod.fst).all fun name => name.toList.all isPlain) = true) (reads : ∀ m ∈ members, codec.read m.2.1 = .ok m.2.2) :
    codec.read (objectText (members.map fun m => (label m.1, m.2.1))) = .ok (.obj (members.map fun m => (m.1, m.2.2))) := by
  rw [← codec.composes members distinct reads]
  congr 2
  apply List.map_congr_left
  intro m member
  have letters := List.all_eq_true.mp (List.all_eq_true.mp plain m.1 (List.mem_map_of_mem member))
  rw [← @quote_label codec m.1 letters, quote]

theorem reads_print {text : String} {value : Json} (parsed : codec.read text = .ok value) :
    canonicalValue value = value.canonical ∧ codec.read (codec.print value.canonical) = .ok value.canonical :=
  reads_canonical codec.reads (fun _ _ => codec.sound) parsed

theorem written_read {raw : String} {members : List (String × Json)} (parsed : codec.read raw = .ok (.obj members)) :
    ∃ held, codec.read (written codec raw) = .ok (.obj held) ∧
      ∀ key, lookup key held = (lookup key members).map canonical := by
  obtain ⟨same, again⟩ := reads_print parsed
  have text : canonicalJsonText codec.print codec.read raw = .ok (codec.print (Json.obj members).canonical) := by
    rw [canonicalJsonText, parsed]
    show Except.ok (codec.print (canonicalValue (.obj members))) = _
    rw [same]
  refine ⟨sortMembers (canonicalMembers members), ?_, fun key => ?_⟩
  · rw [written, text]
    exact again
  · rw [lookup_sortMembers, lookup_canonicalMembers]

/-! Texts with one canonical form. -/

section
variable (codec : Codec)

def SameText (text other : String) : Prop :=
  ∃ v w, codec.read text = .ok v ∧ codec.read other = .ok w ∧ canonicalValue v = canonicalValue w

/-- Metadata without the reserved key. No text is the empty object, as for the packs. -/
def bareMetadata (text : String) : Except String Json :=
  if text = "" then .ok (.obj [])
  else
    match codec.read text with
    | .ok (.obj members) => .ok (.obj (members.filter fun m => m.1 ≠ "domain_pack"))
    | read => read

def SameMetadata (text other : String) : Prop :=
  ∃ v w, bareMetadata codec text = .ok v ∧ bareMetadata codec other = .ok w ∧ canonicalValue v = canonicalValue w

end

theorem SameText.symm {text other : String} (same : SameText codec text other) : SameText codec other text := by
  obtain ⟨v, w, read, read', equal⟩ := same
  exact ⟨w, v, read', read, equal.symm⟩

theorem SameText.trans {text other third : String} (same : SameText codec text other)
    (same' : SameText codec other third) : SameText codec text third := by
  obtain ⟨v, w, read, read', equal⟩ := same
  obtain ⟨w', x, again, read'', equal'⟩ := same'
  cases Except.ok.inj (read'.symm.trans again)
  exact ⟨v, x, read, read'', equal.trans equal'⟩

theorem SameMetadata.symm {text other : String} (same : SameMetadata codec text other) :
    SameMetadata codec other text := by
  obtain ⟨v, w, read, read', equal⟩ := same
  exact ⟨w, v, read', read, equal.symm⟩

theorem SameMetadata.trans {text other third : String} (same : SameMetadata codec text other)
    (same' : SameMetadata codec other third) : SameMetadata codec text third := by
  obtain ⟨v, w, read, read', equal⟩ := same
  obtain ⟨w', x, again, read'', equal'⟩ := same'
  cases Except.ok.inj (read'.symm.trans again)
  exact ⟨v, x, read, read'', equal.trans equal'⟩

theorem SameText.read {text other : String} (same : SameText codec text other) : ∃ v, codec.read text = .ok v := by
  obtain ⟨v, _, read, -⟩ := same
  exact ⟨v, read⟩

theorem embedded_same {text missing key : String} {value : Json} {held : List (String × Json)}
    (parsed : codec.read text = .ok value) (found : lookup key held = some value.canonical) :
    SameText codec text (embedded codec held key missing) := by
  obtain ⟨same, again⟩ := reads_print parsed
  obtain ⟨same', -⟩ := reads_print again
  refine ⟨value, value.canonical, parsed, ?_, ?_⟩
  · rw [embedded, found]
    exact again
  · rw [same, same', canonical_canonical]

theorem canonicalValue_str {value : Json} {s : String} (same : canonicalValue value = .str s) : value = .str s := by
  cases value with
  | str => exact same
  | null | bool | int | uint | float => cases same
  | arr => cases same
  | obj => cases same

/-- An amount comes back when it is a number or `null`. -/
theorem optionalNumber_same {text key : String} {value : Json} {held : List (String × Json)}
    (parsed : codec.read text = .ok value) (found : lookup key held = some value.canonical) :
    SameText codec text (jsonOptionalNumber codec held key) ↔ value = .null ∨ value.isNumber = true := by
  have known := (codec.sound parsed).1
  have refuted (read : jsonOptionalNumber codec held key = "null") (other : canonicalValue value ≠ .null) :
      ¬ SameText codec text (jsonOptionalNumber codec held key) := by
    rintro ⟨v, w, read', null, equal⟩
    rw [read, codec.null] at null
    cases null
    cases Except.ok.inj (read'.symm.trans parsed)
    exact other equal
  cases value with
  | null =>
    have back : jsonOptionalNumber codec held key = "null" := by rw [jsonOptionalNumber, found]; rfl
    rw [back]
    exact iff_of_true ⟨_, _, parsed, codec.null, rfl⟩ (.inl rfl)
  | int n =>
    have back : jsonOptionalNumber codec held key = codec.print (.int n) := by
      rw [jsonOptionalNumber, found, print_int]
      rfl
    rw [back]
    exact iff_of_true ⟨_, _, parsed, codec.reads _ known rfl, rfl⟩ (.inr rfl)
  | uint n =>
    have back : jsonOptionalNumber codec held key = codec.print (.uint n) := by
      rw [jsonOptionalNumber, found, print_uint]
      rfl
    rw [back]
    exact iff_of_true ⟨_, _, parsed, codec.reads _ known rfl, rfl⟩ (.inr rfl)
  | float q =>
    have back : jsonOptionalNumber codec held key = codec.floatText q := by rw [jsonOptionalNumber, found]; rfl
    rw [back]
    exact iff_of_true ⟨_, _, parsed, codec.floats q (known _ List.mem_cons_self), rfl⟩ (.inr rfl)
  | bool b =>
    have back : jsonOptionalNumber codec held key = "null" := by rw [jsonOptionalNumber, found]; rfl
    exact iff_of_false (refuted back (by simp [canonicalValue])) (by simp [isNumber])
  | arr items =>
    have back : jsonOptionalNumber codec held key = "null" := by rw [jsonOptionalNumber, found]; rfl
    exact iff_of_false (refuted back (by simp [canonicalValue])) (by simp [isNumber])
  | obj members =>
    have back : jsonOptionalNumber codec held key = "null" := by rw [jsonOptionalNumber, found]; rfl
    exact iff_of_false (refuted back (by simp [canonicalValue])) (by simp [isNumber])
  | str s =>
    by_cases empty : s = ""
    · have back : jsonOptionalNumber codec held key = "null" := by
        rw [jsonOptionalNumber, found, empty]
        rfl
      exact iff_of_false (refuted back (by simp [canonicalValue])) (by simp [isNumber])
    · have back : jsonOptionalNumber codec held key = s := by
        rw [jsonOptionalNumber, found]
        exact if_neg empty
      rw [back]
      refine iff_of_false ?_ (by simp [isNumber])
      rintro ⟨v, w, read, read', equal⟩
      cases Except.ok.inj (read.symm.trans parsed)
      rw [canonicalValue_str equal.symm] at read'
      exact codec.spelled read' rfl

/-! The metadata. -/

theorem objectText_domainPack (pack : String) :
    objectText [(label "domain_pack", quote codec pack)] = codec.print (.obj [("domain_pack", .str pack)]) := by
  have plain : ∀ c ∈ "domain_pack".toList, isPlain c = true := List.all_eq_true.mp rfl
  rw [← objectText_print, List.map_cons, List.map_nil, quote_label plain]
  rfl

theorem print_empty : codec.print (.obj []) = "\x7b\x7d" := by
  rw [← objectText_print]
  rfl

theorem read_empty : codec.read "\x7b\x7d" = .ok (.obj []) := by
  rw [← @print_empty codec]
  exact codec.reads _ nofun rfl

theorem parsed_filter {members : List (String × Json)} (parsed : codec.Parsed (.obj members))
    (keep : String × Json → Bool) : codec.Parsed (.obj (members.filter keep)) := by
  obtain ⟨known, distinct⟩ := parsed
  obtain ⟨names, inner⟩ := keysDistinct_obj.mp distinct
  constructor
  · intro leaf listed
    apply known leaf
    rw [leaves, leavesMembers_eq, List.mem_flatMap] at listed ⊢
    obtain ⟨m, member, within⟩ := listed
    exact ⟨m, (List.mem_filter.mp member).1, within⟩
  · apply keysDistinct_obj.mpr
    exact ⟨(List.filter_sublist.map Prod.fst).nodup names, fun m member => inner m (List.mem_filter.mp member).1⟩

theorem parsed_setMember {members : List (String × Json)} (parsed : codec.Parsed (.obj members)) (name text : String) :
    codec.Parsed (.obj (setMember name (.str text) members)) := by
  obtain ⟨known, distinct⟩ := parsed
  obtain ⟨names, inner⟩ := keysDistinct_obj.mp distinct
  constructor
  · intro leaf listed
    rw [leaves, leavesMembers_eq, List.mem_flatMap] at listed
    obtain ⟨m, member, within⟩ := listed
    rcases Package.mem_setMember member with rfl | old
    · cases within
    · apply known leaf
      rw [leaves, leavesMembers_eq, List.mem_flatMap]
      exact ⟨m, old, within⟩
  · apply keysDistinct_obj.mpr
    constructor
    · rw [Package.names_setMember]
      by_cases named : name ∈ members.map Prod.fst
      · rw [if_pos named, List.append_nil]
        exact names
      · rw [if_neg named, List.nodup_append]
        refine ⟨names, List.nodup_singleton name, ?_⟩
        intro held listed other listed' same
        rw [List.mem_singleton.mp listed'] at same
        exact named (same ▸ listed)
    · intro m member
      rcases Package.mem_setMember member with rfl | old
      · rfl
      · exact inner m old

theorem canonical_of_lookup {members others : List (String × Json)} (distinct : (members.map Prod.fst).Nodup)
    (distinct' : (others.map Prod.fst).Nodup)
    (same : ∀ key, (lookup key members).map canonical = (lookup key others).map canonical) :
    (Json.obj members).canonical = (Json.obj others).canonical := by
  have names := names_canonicalMembers members
  have names' := names_canonicalMembers others
  have perm : (canonicalMembers members).Perm (canonicalMembers others) := by
    apply perm_of_lookup (names ▸ distinct) (names' ▸ distinct')
    intro key
    rw [lookup_canonicalMembers, lookup_canonicalMembers, same]
  rw [canonical, canonical, sortMembers_eq_of_perm perm (names ▸ distinct)]

theorem metadata_same {pack message base metadata : String}
    (made : metadataWithPack codec pack message base = .ok metadata) :
    SameMetadata codec base (metadataSurface codec metadata) := by
  rw [metadataWithPack] at made
  by_cases plain : base = "" ∨ base = "\x7b\x7d"
  · rw [if_pos plain] at made
    cases made
    have read : codec.read (codec.print (.obj [("domain_pack", .str pack)])) = .ok (.obj [("domain_pack", .str pack)]) :=
      codec.reads _ nofun rfl
    have surface : metadataSurface codec (objectText [(label "domain_pack", quote codec pack)]) = "\x7b\x7d" := by
      rw [metadataSurface, objectText_domainPack, read]
      rfl
    have bare : bareMetadata codec base = .ok (.obj []) := by
      rw [bareMetadata]
      rcases plain with rfl | rfl
      · rfl
      · rw [if_neg (by decide), read_empty]
        rfl
    have bare' : bareMetadata codec "\x7b\x7d" = .ok (.obj []) := by
      rw [bareMetadata, if_neg (by decide), read_empty]
      rfl
    rw [surface]
    exact ⟨_, _, bare, bare', rfl⟩
  · rw [if_neg plain, bind_ok] at made
    obtain ⟨parsed, read, made⟩ := made
    cases parsed with
    | obj members =>
      have own : codec.Parsed (.obj members) := codec.sound read
      let marked := setMember "domain_pack" (.str pack) members
      have whole : codec.Parsed (.obj marked) := parsed_setMember own "domain_pack" pack
      obtain ⟨value, read', text⟩ := canonicalJsonText_ok made
      cases Except.ok.inj (read'.symm.trans (codec.reads _ whole.1 whole.2))
      obtain ⟨same, again⟩ := reads_print read'
      rw [same] at text
      rw [text] at again
      let held := sortMembers (canonicalMembers marked)
      have stored : codec.Parsed (.obj held) := codec.sound again
      let kept := held.filter fun m => m.1 ≠ "domain_pack"
      have rest : codec.Parsed (.obj kept) := parsed_filter stored _
      have found : ∀ key, lookup key held = (lookup key marked).map canonical := fun key => by
        rw [lookup_sortMembers, lookup_canonicalMembers]
      have mark : (lookup "domain_pack" held).isSome = true := by
        rw [found, Package.lookup_setMember, if_pos rfl]
        rfl
      have surface : metadataSurface codec metadata = codec.print (.obj kept) := by
        rw [metadataSurface, again]
        show (if (lookup "domain_pack" held).isSome = true then _ else _) = _
        rw [if_pos mark, objectText_print]
      have back : codec.read (codec.print (.obj kept)) = .ok (.obj kept) := codec.reads _ rest.1 rest.2
      have bare : bareMetadata codec base = .ok (.obj (members.filter fun m => m.1 ≠ "domain_pack")) := by
        rw [bareMetadata, if_neg fun empty => plain (.inl empty), read]
      have nonempty : codec.print (.obj kept) ≠ "" := by
        intro empty
        have letters := congrArg String.toList empty
        rw [codec.printed, write] at letters
        cases letters
      have bare' : bareMetadata codec (codec.print (.obj kept)) = .ok (.obj kept) := by
        rw [bareMetadata, if_neg nonempty, back]
        show Except.ok (Json.obj (kept.filter _)) = _
        rw [List.filter_filter]
        simp [kept]
      rw [surface]
      have own' := parsed_filter own fun m => m.1 ≠ "domain_pack"
      refine ⟨_, _, bare, bare', ?_⟩
      rw [canonicalValue_eq _ own'.2, canonicalValue_eq _ rest.2]
      apply canonical_of_lookup (keysDistinct_obj.mp own'.2).1 (keysDistinct_obj.mp rest.2).1
      intro key
      rw [lookup_filter_ne, lookup_filter_ne, found, Package.lookup_setMember]
      by_cases reserved : key = "domain_pack"
      · rw [if_pos reserved, if_pos reserved]
      · rw [if_neg reserved, if_neg reserved, if_neg (Ne.symm reserved), Option.map_map]
        congr 1
        funext value
        exact (canonical_canonical value).symm
    | _ => cases made

/-! Cases. -/

namespace SplotArbitrationCase

section
variable (codec : Codec)

/-- The embedded texts are what the fields hold. -/
structure WellFormed (c : SplotArbitrationCase) : Prop where
  amount : ∃ v, codec.read c.amountJson = .ok v ∧ (v = .null ∨ v.isNumber = true)
  values : ∃ v, codec.read c.valuesJson = .ok v
  reactions : ∃ v, codec.read c.reactionsJson = .ok v

/-- The same record, the embedded texts up to their canonical form. -/
structure Same (c other : SplotArbitrationCase) : Prop where
  id : c.id = other.id
  claimId : c.claimId = other.claimId
  claimant : c.claimant = other.claimant
  respondent : c.respondent = other.respondent
  currency : c.currency = other.currency
  rules : c.rules = other.rules
  amount : SameText codec c.amountJson other.amountJson
  values : SameText codec c.valuesJson other.valuesJson
  reactions : SameText codec c.reactionsJson other.reactionsJson
  metadata : SameMetadata codec c.metadataJson other.metadataJson

end

theorem Same.symm {c other : SplotArbitrationCase} (same : c.Same codec other) : other.Same codec c :=
  ⟨same.id.symm, same.claimId.symm, same.claimant.symm, same.respondent.symm, same.currency.symm, same.rules.symm,
    same.amount.symm, same.values.symm, same.reactions.symm, same.metadata.symm⟩

theorem Same.trans {c other third : SplotArbitrationCase} (same : c.Same codec other) (same' : other.Same codec third) :
    c.Same codec third :=
  ⟨same.id.trans same'.id, same.claimId.trans same'.claimId, same.claimant.trans same'.claimant,
    same.respondent.trans same'.respondent, same.currency.trans same'.currency, same.rules.trans same'.rules,
    same.amount.trans same'.amount, same.values.trans same'.values, same.reactions.trans same'.reactions,
    same.metadata.trans same'.metadata⟩

def optional (text : String) : Json := if text ≠ "" then .str text else .null

theorem read_optional (text : String) :
    codec.read (if text ≠ "" then quote codec text else "null") = .ok (optional text) := by
  by_cases given : text ≠ ""
  · rw [optional, if_pos given, if_pos given, quote]
    exact codec.reads _ nofun rfl
  · rw [optional, if_neg given, if_neg given]
    exact codec.null

theorem jsonString_optional {held : List (String × Json)} {key text : String}
    (found : lookup key held = some (optional text).canonical) : jsonString codec held key = text := by
  by_cases given : text ≠ ""
  · rw [optional, if_pos given] at found
    rw [jsonString, found]
    rfl
  · rw [optional, if_neg given] at found
    rw [jsonString, found]
    exact (not_not.mp given).symm

theorem payload_read (c : SplotArbitrationCase) {amount values reactions : Json}
    (amountRead : codec.read c.amountJson = .ok amount) (valuesRead : codec.read c.valuesJson = .ok values)
    (reactionsRead : codec.read c.reactionsJson = .ok reactions) :
    ∃ held, codec.read (c.payloadJson codec) = .ok (.obj held) ∧
      ∀ key, lookup key held = (lookup key
        [("claim_id", .str c.claimId), ("claimant", .str c.claimant), ("respondent", .str c.respondent),
          ("amount", amount), ("currency", optional c.currency), ("rules", optional c.rules), ("values", values),
          ("reactions", reactions)]).map canonical := by
  have quoted : ∀ text, codec.read (quote codec text) = .ok (.str text) := fun text => codec.reads _ nofun rfl
  have plain : (["claim_id", "claimant", "respondent", "amount", "currency", "rules", "values", "reactions"].all
      fun name => name.toList.all isPlain) = true := by decide
  have whole := @composed codec
    [("claim_id", quote codec c.claimId, .str c.claimId), ("claimant", quote codec c.claimant, .str c.claimant),
      ("respondent", quote codec c.respondent, .str c.respondent), ("amount", c.amountJson, amount),
      ("currency", if c.currency ≠ "" then quote codec c.currency else "null", optional c.currency),
      ("rules", if c.rules ≠ "" then quote codec c.rules else "null", optional c.rules),
      ("values", c.valuesJson, values), ("reactions", c.reactionsJson, reactions)]
    (by simp) plain
    (by
      simp only [List.forall_mem_cons]
      exact ⟨quoted _, quoted _, quoted _, amountRead, read_optional _, read_optional _, valuesRead, reactionsRead,
        nofun⟩)
  exact written_read whole

theorem made {c : SplotArbitrationCase} {runId createdAt : String} {impulse : Impulse}
    (h : impulseFromCase codec c runId createdAt = .ok impulse) :
    c.isValid = true ∧ c.metadataWithPack codec = .ok impulse.metadata ∧ impulse.id = c.id ∧
      impulse.impulseType = Splot.arbitrationCase ∧ impulse.payload = c.payloadJson codec := by
  simp only [impulseFromCase, bind_ok, ensure_ok] at h
  obtain ⟨_, valid, _, -, metadata, written, same⟩ := h
  cases same
  exact ⟨valid, written, rfl, rfl, rfl⟩

theorem returned {c : SplotArbitrationCase} {impulse : Impulse} (valid : c.isValid = true) (id : impulse.id = c.id)
    (type : impulse.impulseType = Splot.arbitrationCase) {held : List (String × Json)}
    (payload : codec.read impulse.payload = .ok (.obj held)) {amount values reactions : Json}
    (found : ∀ key, lookup key held = (lookup key
      [("claim_id", .str c.claimId), ("claimant", .str c.claimant), ("respondent", .str c.respondent),
        ("amount", amount), ("currency", optional c.currency), ("rules", optional c.rules), ("values", values),
        ("reactions", reactions)]).map canonical) :
    caseFromImpulse codec impulse = .ok {
      c with
      amountJson := jsonOptionalNumber codec held "amount"
      valuesJson := embedded codec held "values" "\x7b\x7d"
      metadataJson := metadataSurface codec impulse.metadata
      reactionsJson := embedded codec held "reactions" "[]" } := by
  have text : ∀ key text, lookup key held = some (.str text) → jsonString codec held key = text := by
    intro key text found
    rw [jsonString, found]
  have claimId := text "claim_id" c.claimId (found _)
  have claimant := text "claimant" c.claimant (found _)
  have respondent := text "respondent" c.respondent (found _)
  have currency : jsonString codec held "currency" = c.currency := jsonString_optional (found _)
  have rules : jsonString codec held "rules" = c.rules := jsonString_optional (found _)
  have given : c.claimId ≠ "" ∧ c.claimant ≠ "" ∧ c.respondent ≠ "" := (of_decide_eq_true valid).2
  simp [caseFromImpulse, type, payload, claimId, claimant, respondent, currency, rules, given, id, ensure, bind,
    Except.bind, pure, Except.pure]

theorem comes_back {c : SplotArbitrationCase} {runId createdAt : String} {impulse : Impulse}
    (h : impulseFromCase codec c runId createdAt = .ok impulse) :
    (∃ back, caseFromImpulse codec impulse = .ok back ∧ c.Same codec back) ↔ c.WellFormed codec := by
  obtain ⟨valid, metadata, id, type, payload⟩ := made h
  have metadata := metadata_same metadata
  have whole {amount values reactions : Json} (amountRead : codec.read c.amountJson = .ok amount)
      (valuesRead : codec.read c.valuesJson = .ok values) (reactionsRead : codec.read c.reactionsJson = .ok reactions) :
      ∃ back, caseFromImpulse codec impulse = .ok back ∧
        (c.Same codec back ↔ amount = .null ∨ amount.isNumber = true) := by
    obtain ⟨held, read, found⟩ := payload_read c amountRead valuesRead reactionsRead
    rw [← payload] at read
    refine ⟨_, returned valid id type read found, ?_⟩
    have back := optionalNumber_same amountRead (found "amount")
    constructor
    · intro same
      exact back.mp same.amount
    · intro number
      exact ⟨rfl, rfl, rfl, rfl, rfl, rfl, back.mpr number, embedded_same valuesRead (found "values"),
        embedded_same reactionsRead (found "reactions"), metadata⟩
  constructor
  · rintro ⟨back, read, same⟩
    obtain ⟨amount, amountRead⟩ := same.amount.read
    obtain ⟨values, valuesRead⟩ := same.values.read
    obtain ⟨reactions, reactionsRead⟩ := same.reactions.read
    obtain ⟨back', read', same'⟩ := whole amountRead valuesRead reactionsRead
    cases Except.ok.inj (read.symm.trans read')
    exact ⟨⟨amount, amountRead, same'.mp same⟩, ⟨values, valuesRead⟩, ⟨reactions, reactionsRead⟩⟩
  · intro formed
    obtain ⟨amount, amountRead, number⟩ := formed.amount
    obtain ⟨values, valuesRead⟩ := formed.values
    obtain ⟨reactions, reactionsRead⟩ := formed.reactions
    obtain ⟨back, read, same⟩ := whole amountRead valuesRead reactionsRead
    exact ⟨back, read, same.mpr number⟩

end SplotArbitrationCase

/-! Requests. -/

namespace TaktCascadeRequest

section
variable (codec : Codec)

/-- The embedded texts are JSON texts. -/
structure WellFormed (r : TaktCascadeRequest) : Prop where
  plantNodes : ∃ v, codec.read r.plantNodesJson = .ok v
  layers : ∃ v, codec.read r.layersJson = .ok v
  rawSignals : ∃ v, codec.read r.rawSignalsJson = .ok v

/-- The same record, the embedded texts up to their canonical form. -/
structure Same (r other : TaktCascadeRequest) : Prop where
  id : r.id = other.id
  mode : r.mode = other.mode
  steps : r.steps = other.steps
  plantNodes : SameText codec r.plantNodesJson other.plantNodesJson
  layers : SameText codec r.layersJson other.layersJson
  rawSignals : SameText codec r.rawSignalsJson other.rawSignalsJson
  metadata : SameMetadata codec r.metadataJson other.metadataJson

end

theorem Same.symm {r other : TaktCascadeRequest} (same : r.Same codec other) : other.Same codec r :=
  ⟨same.id.symm, same.mode.symm, same.steps.symm, same.plantNodes.symm, same.layers.symm, same.rawSignals.symm,
    same.metadata.symm⟩

theorem Same.trans {r other third : TaktCascadeRequest} (same : r.Same codec other) (same' : other.Same codec third) :
    r.Same codec third :=
  ⟨same.id.trans same'.id, same.mode.trans same'.mode, same.steps.trans same'.steps,
    same.plantNodes.trans same'.plantNodes, same.layers.trans same'.layers, same.rawSignals.trans same'.rawSignals,
    same.metadata.trans same'.metadata⟩

theorem payload_read {r : TaktCascadeRequest} (valid : r.isValid = true) {plantNodes layers rawSignals : Json}
    (plantNodesRead : codec.read r.plantNodesJson = .ok plantNodes) (layersRead : codec.read r.layersJson = .ok layers)
    (rawSignalsRead : codec.read r.rawSignalsJson = .ok rawSignals) :
    ∃ held, codec.read (r.payloadJson codec) = .ok (.obj held) ∧
      ∀ key, lookup key held = (lookup key
        [("mode", .str r.mode), ("plant_nodes", plantNodes), ("layers", layers), ("raw_signals", rawSignals),
          ("steps", .int r.steps.toInt)]).map canonical := by
  have quoted : codec.read (quote codec r.mode) = .ok (.str r.mode) := codec.reads _ nofun rfl
  have steps : codec.read (toString r.steps.toInt) = .ok (.int r.steps.toInt) := by
    have known := codec.native r.steps (of_decide_eq_true valid).2.2
    rw [← @print_int codec]
    apply codec.reads _ _ rfl
    intro leaf listed
    rw [List.mem_singleton.mp listed]
    exact known
  have plain : (["mode", "plant_nodes", "layers", "raw_signals", "steps"].all fun name => name.toList.all isPlain) =
      true := by decide
  have whole := @composed codec
    [("mode", quote codec r.mode, .str r.mode), ("plant_nodes", r.plantNodesJson, plantNodes),
      ("layers", r.layersJson, layers), ("raw_signals", r.rawSignalsJson, rawSignals),
      ("steps", toString r.steps.toInt, .int r.steps.toInt)]
    (by simp) plain
    (by
      simp only [List.forall_mem_cons]
      exact ⟨quoted, plantNodesRead, layersRead, rawSignalsRead, steps, nofun⟩)
  exact written_read whole

theorem made {r : TaktCascadeRequest} {runId createdAt : String} {impulse : Impulse}
    (h : impulseFromCascade codec r runId createdAt = .ok impulse) :
    r.isValid = true ∧ r.metadataWithPack codec = .ok impulse.metadata ∧ impulse.id = r.id ∧
      impulse.impulseType = Takt.cascadeRequest ∧ impulse.payload = r.payloadJson codec := by
  simp only [impulseFromCascade, bind_ok, ensure_ok] at h
  obtain ⟨_, valid, _, -, metadata, written, same⟩ := h
  cases same
  exact ⟨valid, written, rfl, rfl, rfl⟩

theorem comes_back {r : TaktCascadeRequest} {runId createdAt : String} {impulse : Impulse}
    (h : impulseFromCascade codec r runId createdAt = .ok impulse) :
    (∃ back, cascadeFromImpulse codec impulse = .ok back ∧ r.Same codec back) ↔ r.WellFormed codec := by
  obtain ⟨valid, metadata, id, type, payload⟩ := made h
  constructor
  · rintro ⟨back, -, same⟩
    exact ⟨same.plantNodes.read, same.layers.read, same.rawSignals.read⟩
  · intro formed
    obtain ⟨plantNodes, plantNodesRead⟩ := formed.plantNodes
    obtain ⟨layers, layersRead⟩ := formed.layers
    obtain ⟨rawSignals, rawSignalsRead⟩ := formed.rawSignals
    obtain ⟨held, read, found⟩ := payload_read valid plantNodesRead layersRead rawSignalsRead
    rw [← payload] at read
    have mode : jsonString codec held "mode" "evaluate" = r.mode := by
      rw [jsonString, show lookup "mode" held = some (.str r.mode) from found _]
    have steps : stepsOf held = r.steps := by
      rw [stepsOf, show lookup "steps" held = some (.int r.steps.toInt) from found _]
      exact Int64.ofInt_toInt r.steps
    have returned : cascadeFromImpulse codec impulse = .ok {
        id := impulse.id
        mode := jsonString codec held "mode" "evaluate"
        plantNodesJson := embedded codec held "plant_nodes" "[]"
        layersJson := embedded codec held "layers" "[]"
        rawSignalsJson := embedded codec held "raw_signals" "[]"
        steps := stepsOf held
        metadataJson := metadataSurface codec impulse.metadata } := by
      simp [cascadeFromImpulse, type, read, ensure, bind, Except.bind, pure, Except.pure]
    exact ⟨_, returned, id.symm, mode.symm, steps.symm, embedded_same plantNodesRead (found "plant_nodes"),
      embedded_same layersRead (found "layers"), embedded_same rawSignalsRead (found "raw_signals"),
      metadata_same metadata⟩

end TaktCascadeRequest

/-- A case and a request come back from their impulses exactly when their embedded texts are what the fields hold; and
    then an impulse stands for one record only. -/
theorem domain_packs_come_back (codec : Codec) (runId createdAt : String) (impulse : Impulse) :
    (∀ c : SplotArbitrationCase, impulseFromCase codec c runId createdAt = .ok impulse →
      ((∃ back, caseFromImpulse codec impulse = .ok back ∧ c.Same codec back) ↔ c.WellFormed codec)) ∧
    (∀ r : TaktCascadeRequest, impulseFromCascade codec r runId createdAt = .ok impulse →
      ((∃ back, cascadeFromImpulse codec impulse = .ok back ∧ r.Same codec back) ↔ r.WellFormed codec)) ∧
    (∀ c c' : SplotArbitrationCase, impulseFromCase codec c runId createdAt = .ok impulse →
      impulseFromCase codec c' runId createdAt = .ok impulse → c.WellFormed codec → c'.WellFormed codec →
        c.Same codec c') ∧
    ∀ r r' : TaktCascadeRequest, impulseFromCascade codec r runId createdAt = .ok impulse →
      impulseFromCascade codec r' runId createdAt = .ok impulse → r.WellFormed codec → r'.WellFormed codec →
        r.Same codec r' := by
  refine ⟨fun c made => c.comes_back made, fun r made => r.comes_back made, ?_, ?_⟩
  · intro c c' made made' formed formed'
    obtain ⟨back, read, same⟩ := (c.comes_back made).mpr formed
    obtain ⟨back', read', same'⟩ := (c'.comes_back made').mpr formed'
    cases Except.ok.inj (read.symm.trans read')
    exact same.trans same'.symm
  · intro r r' made made' formed formed'
    obtain ⟨back, read, same⟩ := (r.comes_back made).mpr formed
    obtain ⟨back', read', same'⟩ := (r'.comes_back made').mpr formed'
    cases Except.ok.inj (read.symm.trans read')
    exact same.trans same'.symm

/-! A parser of natural numbers is enough for packs without other numbers. -/

theorem fieldsText_joined (members : List MemberText) :
    (fieldsText (members.map fun m => (plainPrint (.str m.name), String.ofList m.text))).toList =
      joined (members.map MemberText.spelled) := by
  induction members with
  | nil => rfl
  | cons m rest ih =>
    have name : (plainPrint (.str m.name)).toList = writeText plainEscape m.name := String.toList_ofList
    rw [List.map_cons, toList_fieldsText_cons, ih, name, List.map_cons, joined, MemberText.spelled, String.toList_ofList]
    cases rest <;> simp

def numeralCodec : Codec where
  toLibrary := numeralLibrary
  floatText _ := "0.0"
  composes := by
    intro members distinct reads
    let texts : List MemberText := members.map fun m => ⟨m.1, m.2.1.toList, m.2.2⟩
    have spells : ∀ m ∈ texts, Spells m.text m.value := by
      intro m member
      obtain ⟨n, listed, rfl⟩ := List.mem_map.mp member
      exact (numeralRead_ok (reads n listed)).1
    have values : texts.map MemberText.member = members.map fun m => (m.1, m.2.2) := by
      simp [texts, MemberText.member]
    have fields : (members.map fun m => (plainPrint (.str m.1), m.2.1)) =
        texts.map fun m => (plainPrint (.str m.name), String.ofList m.text) := by
      simp [texts]
    have whole : (objectText (members.map fun m => (plainPrint (.str m.1), m.2.1))).toList =
        '\x7b' :: (joined (texts.map MemberText.spelled) ++ ['\x7d']) := by
      rw [objectText, String.toList_append, String.toList_append, fields, fieldsText_joined]
      rfl
    have object := spells_obj spells
    rw [values, ← whole] at object
    have leaf : (Json.obj (members.map fun m => (m.1, m.2.2))).leaves.all isNumeral = true := by
      rw [List.all_eq_true, leaves, leavesMembers_eq]
      intro leaf listed
      obtain ⟨m, member, within⟩ := List.mem_flatMap.mp listed
      obtain ⟨n, listed', rfl⟩ := List.mem_map.mp member
      exact List.all_eq_true.mp (numeralRead_ok (reads n listed')).2.1 leaf within
    have keys : (Json.obj (members.map fun m => (m.1, m.2.2))).keysDistinct = true := by
      rw [keysDistinct_obj, List.map_map]
      refine ⟨distinct, fun m member => ?_⟩
      obtain ⟨n, listed, rfl⟩ := List.mem_map.mp member
      exact (numeralRead_ok (reads n listed)).2.2
    have read := numeralRead_spelled object leaf
    rw [if_pos keys] at read
    exact read
  spelled := numeralRead_str
  null := rfl
  floats _ known := nomatch known
  native n known := decide_eq_true known

theorem exists_ok {α : Type} {x : Except String α} (some_ : x.toOption.isSome = true) : ∃ a, x = .ok a := by
  cases x with
  | ok a => exact ⟨a, rfl⟩
  | error message => cases some_

/-- A case whose values go on with a member of the payload. -/
def goingOn : SplotArbitrationCase where
  id := "case"
  claimId := "claim"
  claimant := "Alice"
  respondent := "Beta"
  valuesJson := "\x7b\x7d,\x22note\x22:null"

/-- A request whose layers are no JSON text. -/
def brokenLayers : TaktCascadeRequest where
  id := "request"
  layersJson := "["

/-- A case with an amount and a currency. -/
def claimCase : SplotArbitrationCase where
  id := "case"
  claimId := "claim"
  claimant := "Alice"
  respondent := "Beta"
  amountJson := "1200"
  currency := "EUR"
  metadataJson := ""

theorem domain_packs_come_back_claim :
    ∃ impulse back, impulseFromCase numeralCodec claimCase "run" "" = .ok impulse ∧
      caseFromImpulse numeralCodec impulse = .ok back ∧ claimCase.Same numeralCodec back := by
  obtain ⟨impulse, made⟩ := exists_ok (x := impulseFromCase numeralCodec claimCase "run" "") (by decide +kernel)
  have formed : claimCase.WellFormed numeralCodec := ⟨⟨.int 1200, rfl, .inr rfl⟩, ⟨.obj [], rfl⟩, ⟨.arr [], rfl⟩⟩
  obtain ⟨back, read, same⟩ := ((domain_packs_come_back numeralCodec "run" "" impulse).1 claimCase made).mpr formed
  exact ⟨impulse, back, made, read, same⟩

/-- Neither the one case nor the request comes back from its impulse. -/
theorem domain_packs_lose :
    (¬ ∀ (c : SplotArbitrationCase) (runId createdAt : String) (impulse : Impulse),
      impulseFromCase numeralCodec c runId createdAt = .ok impulse →
        ∃ back, caseFromImpulse numeralCodec impulse = .ok back ∧ c.Same numeralCodec back) ∧
    ¬ ∀ (r : TaktCascadeRequest) (runId createdAt : String) (impulse : Impulse),
      impulseFromCascade numeralCodec r runId createdAt = .ok impulse →
        ∃ back, cascadeFromImpulse numeralCodec impulse = .ok back ∧ r.Same numeralCodec back := by
  constructor
  · intro returns
    obtain ⟨impulse, made⟩ := exists_ok (x := impulseFromCase numeralCodec goingOn "run" "") (by decide +kernel)
    obtain ⟨values, read⟩ := ((goingOn.comes_back made).mp (returns goingOn "run" "" impulse made)).values
    have unread : (numeralRead goingOn.valuesJson).toOption = none := by decide +kernel
    have read : numeralRead goingOn.valuesJson = .ok values := read
    rw [read] at unread
    cases unread
  · intro returns
    obtain ⟨impulse, made⟩ := exists_ok (x := impulseFromCascade numeralCodec brokenLayers "run" "") (by decide +kernel)
    obtain ⟨layers, read⟩ := ((brokenLayers.comes_back made).mp (returns brokenLayers "run" "" impulse made)).layers
    have unread : (numeralRead brokenLayers.layersJson).toOption = none := by decide +kernel
    have read : numeralRead brokenLayers.layersJson = .ok layers := read
    rw [read] at unread
    cases unread

end Fala.DomainPacks
