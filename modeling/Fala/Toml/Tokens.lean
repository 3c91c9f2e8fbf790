import Fala.Toml.Numbers

/-! What `_parse_number` takes, token by token. -/

namespace Fala.Toml
open Schema (bind_ok)

/-! Underscores. -/

section Underscores
variable {token before after : Text} {base : Nat} {previous : Option Char} {path : String}

theorem spacedAfter_split (spaced : spacedAfter base previous (before ++ '_' :: after) = true) :
    (before.getLast?.or previous).any (isDigit base) = true ∧ after.head?.any (isDigit base) = true := by
  induction before generalizing previous with
  | nil =>
    have ⟨here, _⟩ := Bool.and_eq_true_iff.mp spaced
    simpa using here
  | cons c before ih =>
    have ⟨_, later⟩ := Bool.and_eq_true_iff.mp spaced
    have ⟨left, right⟩ := ih later
    refine ⟨?_, right⟩
    cases before with
    | nil => exact left
    | cons d before =>
      rw [List.getLast?_cons_cons]
      rwa [List.getLast?_eq_some_getLast (List.cons_ne_nil d before), Option.some_or] at left ⊢

theorem spaced_split (fine : spaced (before ++ '_' :: after) = true) :
    before.getLast?.any (isDigit (spacedBase (bare (before ++ '_' :: after)))) = true ∧
      after.head?.any (isDigit (spacedBase (bare (before ++ '_' :: after)))) = true := by
  have sides := spacedAfter_split fine
  rwa [Option.or_none] at sides

theorem doubled_split (twice : doubled token = true) : ∃ before after, token = before ++ '_' :: '_' :: after := by
  fun_induction doubled token with
  | case1 rest => exact ⟨[], rest, rfl⟩
  | case2 c rest _ ih =>
    have ⟨before, after, same⟩ := ih twice
    exact ⟨c :: before, after, by rw [same, List.cons_append]⟩
  | case3 => cases twice

theorem bare_cons {c : Char} (kept : c ≠ '_') : bare (c :: token) = c :: bare token := by
  rw [bare, List.filter_cons, if_pos (decide_eq_true kept)]
  rfl

theorem isDigit_mono {small large : Nat} {c : Char} (less : small ≤ large) (digit : isDigit small c = true) :
    isDigit large c = true := by
  unfold isDigit at digit ⊢
  cases read : hex c with
  | none =>
    rw [read] at digit
    cases digit
  | some value =>
    rw [read] at digit
    have below : value < small := of_decide_eq_true digit
    exact decide_eq_true (Nat.lt_of_lt_of_le below less)

theorem spacedBase_le (text : Text) : spacedBase text ≤ 10 ∨ ∃ rest, text = '0' :: 'x' :: rest := by
  unfold spacedBase
  split
  · rename_i letter rest
    unfold baseOf
    split
    · exact .inr ⟨rest, rfl⟩
    · exact .inl (by decide)
    · exact .inl (by decide)
    · exact .inl (Nat.le_refl _)
  · exact .inl (Nat.le_refl _)

theorem letter_no_digit {letter : Char} (here : token[(if signed token then 1 else 0) + 1]? = some letter)
    (named : letter ∈ ['x', 'X', 'o', 'O', 'b', 'B']) : isDigit (spacedBase (bare token)) letter = false := by
  have each : letter = 'x' ∨ letter = 'X' ∨ letter = 'o' ∨ letter = 'O' ∨ letter = 'b' ∨ letter = 'B' := by
    simpa using named
  have decimal : isDigit 10 letter = false := by
    rcases each with rfl | rfl | rfl | rfl | rfl | rfl <;> rfl
  rcases spacedBase_le (bare token) with small | ⟨rest, same⟩
  · by_contra digit
    rw [isDigit_mono small (Bool.not_eq_false _ ▸ digit)] at decimal
    cases decimal
  · have shape : ∃ tail, token = '0' :: letter :: tail := by
      match token, here, same with
      | [], _, same => cases same
      | [c], here, same =>
        by_cases sign : signed [c] = true
        · rw [if_pos sign] at here
          cases here
        · rw [if_neg sign] at here
          cases here
      | c :: d :: tail, here, same =>
        by_cases sign : signed (c :: d :: tail) = true
        · have either : c = '+' ∨ c = '-' := by simpa [signed] using sign
          rcases either with rfl | rfl <;> cases same
        · rw [if_neg sign] at here
          cases here
          by_cases underscore : c = '_'
          · subst underscore
            have first : bare ('_' :: letter :: tail) = bare (letter :: tail) := rfl
            have kept : letter ≠ '_' := by rcases each with rfl | rfl | rfl | rfl | rfl | rfl <;> decide
            rw [first, bare_cons kept] at same
            have zero : letter = '0' := (List.cons.inj same).1
            rcases each with rfl | rfl | rfl | rfl | rfl | rfl <;> cases zero
          · rw [bare_cons underscore] at same
            exact ⟨tail, by rw [(List.cons.inj same).1]⟩
    obtain ⟨tail, whole⟩ := shape
    have kept : letter ≠ '_' := by rcases each with rfl | rfl | rfl | rfl | rfl | rfl <;> decide
    have second : bare token = '0' :: letter :: bare tail := by
      rw [whole, bare_cons (by decide), bare_cons kept]
    rw [second] at same
    have x : letter = 'x' := (List.cons.inj (List.cons.inj same).2).1
    rw [second, x]
    rfl

/-- What `_strip_underscores` refuses. -/
def Strays (token : Text) : Prop :=
  (token.head? = some '_' ∨ token.getLast? = some '_' ∨ doubled token = true) ∨
    ((if signed token then 1 else 0) + 2 < token.length ∧
      (token[(if signed token then 1 else 0) + 1]?.any fun c => c ∈ ['x', 'X', 'o', 'O', 'b', 'B']) = true ∧
        token[(if signed token then 1 else 0) + 2]? = some '_')

theorem stripUnderscores_ok {clean : Text} :
    stripUnderscores path token = .ok clean ↔ ¬ Strays token ∧ clean = bare token := by
  unfold stripUnderscores Strays
  generalize (if signed token = true then 1 else 0) = start
  by_cases first : token.head? = some '_' ∨ token.getLast? = some '_' ∨ doubled token = true
  · rw [if_pos first]
    constructor
    · intro never
      cases never
    · rintro ⟨placed, _⟩
      exact absurd (.inl first) placed
  · rw [if_neg first]
    by_cases second : start + 2 < token.length ∧
        (token[start + 1]?.any fun c => c ∈ ['x', 'X', 'o', 'O', 'b', 'B']) = true ∧ token[start + 2]? = some '_'
    · rw [if_pos second]
      constructor
      · intro never
        cases never
      · rintro ⟨placed, _⟩
        exact absurd (.inr second) placed
    · rw [if_neg second]
      constructor
      · intro same
        exact ⟨not_or.mpr ⟨first, second⟩, (Except.ok.inj same).symm⟩
      · rintro ⟨_, rfl⟩
        rfl

theorem not_strays (fine : spaced token = true) : ¬ Strays token := by
  have inside : ∀ before after, token = before ++ '_' :: after →
      before.getLast?.any (isDigit (spacedBase (bare token))) = true ∧
        after.head?.any (isDigit (spacedBase (bare token))) = true := by
    rintro before after rfl
    exact spaced_split fine
  rintro ((first | last | twice) | ⟨_, lettered, underscore⟩)
  · have ⟨rest, same⟩ := List.head?_eq_some_iff.mp first
    have left := (inside [] rest same).1
    cases left
  · have ⟨rest, same⟩ := List.getLast?_eq_some_iff.mp last
    have right := (inside rest [] same).2
    cases right
  · have ⟨before, after, same⟩ := doubled_split twice
    have right := (inside before ('_' :: after) same).2
    cases right
  · cases here : token[(if signed token then 1 else 0) + 1]? with
    | none =>
      rw [here] at lettered
      cases lettered
    | some letter =>
      rw [here] at lettered
      have outside := letter_no_digit here (of_decide_eq_true lettered)
      generalize (if signed token = true then 1 else 0) = start at here underscore
      have ⟨within, is⟩ := List.getElem?_eq_some_iff.mp underscore
      have whole : token = token.take (start + 2) ++ '_' :: token.drop (start + 3) := by
        rw [← is, ← List.drop_eq_getElem_cons within, List.take_append_drop]
      have left := (inside _ _ whole).1
      rw [List.getLast?_take, if_neg (by omega), show start + 2 - 1 = start + 1 from rfl, here, Option.some_or,
        Option.any_some, outside] at left
      cases left

end Underscores

/-! What the parser takes. -/

section Taken
variable {parse : String → Option Json} {path : String} {clean rest : Text} {letter : Char} {base : Nat} {value : Json}
  {n : Int}

/-- An integer with a prefix, in any spelling of it. -/
def Based (clean : Text) : Prop :=
  ∃ letter rest base, unsigned clean = '0' :: letter :: rest ∧ looseBase letter = some base

theorem readClean_based (shape : unsigned clean = '0' :: letter :: rest) (loose : looseBase letter = some base) :
    readClean parse path clean = parseIntegerBase path clean base := by
  have signless : (if signed clean = true then clean.drop 1 else clean) = '0' :: letter :: rest := shape
  unfold readClean
  simp only [signless]
  rcases looseBase_some loose with ⟨rfl | rfl, rfl⟩ | ⟨rfl | rfl, rfl⟩ | ⟨rfl | rfl, rfl⟩ <;> rfl

theorem readClean_other (other : ¬ Based clean) : readClean parse path clean =
    if '.' ∈ clean ∨ 'e' ∈ clean ∨ 'E' ∈ clean then parseFloat parse path clean
    else if 1 < clean.length ∧ startsWith "0" (unsigned clean) = true then fail path "leading zero in decimal integer"
    else parseDecimal parse path (if clean.head? = some '+' then clean.drop 1 else clean) := by
  have apart : ∀ letter base, looseBase letter = some base →
      startsWith (String.ofList ['0', letter]) (unsigned clean) ≠ true := by
    intro letter base loose starts
    have begins := List.isPrefixOf_iff_prefix.mp starts
    have ⟨rest, same⟩ := begins
    rw [String.toList_ofList] at same
    exact other ⟨letter, rest, base, same.symm, loose⟩
  have signless : (if signed clean = true then clean.drop 1 else clean) = unsigned clean := rfl
  unfold readClean
  simp only [signless]
  rw [if_neg (not_or.mpr ⟨apart 'x' 16 rfl, apart 'X' 16 rfl⟩),
    if_neg (not_or.mpr ⟨apart 'o' 8 rfl, apart 'O' 8 rfl⟩), if_neg (not_or.mpr ⟨apart 'b' 2 rfl, apart 'B' 2 rfl⟩)]

theorem parseFloat_ok (exact_ : ExactNumbers parse) (scanned : ∀ c ∈ clean, endsToken c = false)
    (marked : '.' ∈ clean ∨ 'e' ∈ clean ∨ 'E' ∈ clean) :
    (∃ value, parseFloat parse path clean = .ok value) ↔ jsonFloat clean = true := by
  constructor
  · rintro ⟨value, parsed⟩
    unfold parseFloat at parsed
    split at parsed
    · rename_i q read
      rcases exact_.floats scanned read with float | integer
      · exact float
      · have ⟨n, is⟩ := Option.isSome_iff_exists.mp integer
        exact absurd (jsonInteger_unmarked is) (not_not.mpr marked)
    · cases parsed
  · intro float
    have ⟨q, read⟩ := exact_.float float
    exact ⟨.float q, by rw [parseFloat, read]⟩

theorem parseDecimal_ok (exact_ : ExactNumbers parse) (scanned : ∀ c ∈ clean, endsToken c = false) :
    parseDecimal parse path clean = .ok value → ∃ n : Int, jsonInteger clean = some n ∧ Representable n ∧
      value.isInteger = true ∧ value.exactNumber = n := by
  intro parsed
  unfold parseDecimal at parsed
  split at parsed
  · rename_i n read
    cases parsed
    have ⟨m, is, fits, same⟩ := exact_.integers scanned read rfl
    exact ⟨m, is, fits, rfl, same⟩
  · rename_i n read
    cases parsed
    have ⟨m, is, fits, same⟩ := exact_.integers scanned read rfl
    exact ⟨m, is, fits, rfl, same⟩
  · cases parsed

theorem parseDecimal_takes (exact_ : ExactNumbers parse) (is : jsonInteger clean = some n) (fits : Representable n) :
    ∃ value, parseDecimal parse path clean = .ok value := by
  have ⟨value, read, integer, _⟩ := exact_.integer is fits
  unfold parseDecimal
  rw [read]
  cases value with
  | int m => exact ⟨_, rfl⟩
  | uint m => exact ⟨_, rfl⟩
  | _ => cases integer

/-! Numbers with a prefix. -/

theorem tomlInteger_based (shape : unsigned clean = '0' :: letter :: rest) (loose : looseBase letter = some base) :
    tomlInteger clean = if signed clean = true then none else (baseOf letter).bind fun base =>
      if rest ≠ [] ∧ rest.all (isDigit base) then some (amountOf base rest : Int) else none := by
  have noDigits : plainDigits ('0' :: letter :: rest) = false := (prefixed_apart loose).1
  unfold tomlInteger
  rw [shape, if_neg (by rw [noDigits]; exact Bool.false_ne_true)]
  by_cases sign : signed clean = true
  · rw [if_pos sign]
    cases clean with
    | nil => rfl
    | cons c tail =>
      have either : c = '+' ∨ c = '-' := by simpa [signed] using sign
      rcases either with rfl | rfl <;> rfl
  · rw [if_neg sign]
    rw [unsigned, if_neg sign] at shape
    subst shape
    rfl

theorem based_iff (shape : unsigned clean = '0' :: letter :: rest) (loose : looseBase letter = some base) :
    (∃ value, readClean parse path clean = .ok value) ↔ (∃ n, Foreign clean n ∧ Representable n) ∨ Taken clean := by
  obtain ⟨positive, within⟩ : 0 < base ∧ base ≤ 16 := by
    rcases looseBase_some loose with ⟨_, rfl⟩ | ⟨_, rfl⟩ | ⟨_, rfl⟩ <;> decide
  have accepts : (∃ value, readClean parse path clean = .ok value) ↔ rest ≠ [] ∧ rest.all (isDigit base) = true ∧
      Representable (negated clean (amountOf base rest)) := by
    rw [readClean_based shape loose]
    constructor
    · rintro ⟨value, parsed⟩
      have ⟨some_, all, fits, _⟩ := parseIntegerBase_ok positive within shape parsed
      exact ⟨some_, all, fits⟩
    · rintro ⟨some_, all, fits⟩
      exact parseIntegerBase_takes positive within shape some_ all fits
  have noFloat : tomlFloat clean = false := by rw [tomlFloat, shape, (prefixed_apart loose).2]
  have foreign : ∀ n, Foreign clean n ↔ rest ≠ [] ∧ rest.all (isDigit base) = true ∧
      n = negated clean (amountOf base rest) ∧ (signed clean = true ∨ baseOf letter = none) := by
    intro n
    constructor
    · rintro (⟨letter', rest', base', shape', loose', facts⟩ | ⟨tail, plus, _⟩)
      · rw [shape] at shape'
        cases shape'
        cases loose.symm.trans loose'
        exact facts
      · subst plus
        cases shape
    · intro facts
      exact .inl ⟨letter, rest, base, shape, loose, facts⟩
  rw [accepts]
  by_cases native : signed clean = true ∨ baseOf letter = none
  · have none_ : tomlInteger clean = none := by
      rw [tomlInteger_based shape loose]
      rcases native with sign | capital
      · rw [if_pos sign]
      · rw [capital, Option.bind_none, ite_self]
    constructor
    · rintro ⟨some_, all, fits⟩
      exact .inl ⟨_, (foreign _).mpr ⟨some_, all, rfl, native⟩, fits⟩
    · rintro (⟨n, is, fits⟩ | ⟨n, is, _⟩ | ⟨float, _⟩)
      · have ⟨some_, all, same, _⟩ := (foreign n).mp is
        subst same
        exact ⟨some_, all, fits⟩
      · rw [none_] at is
        cases is
      · rw [noFloat] at float
        cases float
  · have ⟨noSign, small⟩ := not_or.mp native
    have ⟨base', named⟩ := Option.ne_none_iff_exists'.mp small
    cases loose.symm.trans (looseBase_of_baseOf named)
    rw [unsigned, if_neg noSign] at shape
    have plain : negated clean (amountOf base rest) = amountOf base rest := by
      rw [negated, shape]
      rfl
    have zero : signedZero clean = false := by
      rw [shape]
      simp [signedZero]
    have whole : unsigned clean = '0' :: letter :: rest := by
      rw [unsigned, if_neg noSign]
      exact shape
    have is := tomlInteger_based whole loose
    rw [if_neg noSign, named, Option.bind_some] at is
    rw [plain]
    constructor
    · rintro ⟨some_, all, fits⟩
      rw [if_pos ⟨some_, all⟩] at is
      exact .inr (.inl ⟨_, is, fits, zero⟩)
    · rintro (⟨n, foreignInteger, _⟩ | ⟨n, read, fits, _⟩ | ⟨float, _⟩)
      · exact absurd ((foreign n).mp foreignInteger).2.2.2 native
      · by_cases both : rest ≠ [] ∧ rest.all (isDigit base) = true
        · rw [if_pos both] at is
          cases is.symm.trans read
          exact ⟨both.1, both.2, fits⟩
        · rw [if_neg both] at is
          cases is.symm.trans read
      · rw [noFloat] at float
        cases float

/-! Other numbers. -/

theorem tomlInteger_other (other : ¬ Based clean) : tomlInteger clean =
    if plainDigits (unsigned clean) = true then some (negated clean (amountOf 10 (unsigned clean))) else none := by
  unfold tomlInteger
  by_cases plain : plainDigits (unsigned clean) = true
  · rw [if_pos plain, if_pos plain]
  · rw [if_neg plain, if_neg plain]
    split
    · rename_i letter rest
      cases named : baseOf letter with
      | none => rfl
      | some base => exact absurd ⟨letter, rest, base, rfl, looseBase_of_baseOf named⟩ other
    · rfl

theorem tomlInteger_plain (other : ¬ Based clean) (is : tomlInteger clean = some n) :
    plainDigits (unsigned clean) = true ∧ n = negated clean (amountOf 10 (unsigned clean)) := by
  rw [tomlInteger_other other] at is
  by_cases plain : plainDigits (unsigned clean) = true
  · rw [if_pos plain] at is
    exact ⟨plain, (Option.some.inj is).symm⟩
  · rw [if_neg plain] at is
    cases is

theorem after_plus (scanned : ∀ c ∈ clean, endsToken c = false) (plus : clean.head? = some '+') :
    clean = '+' :: clean.drop 1 ∧ ∀ c ∈ clean.drop 1, endsToken c = false := by
  have ⟨tail, shape⟩ := List.head?_eq_some_iff.mp plus
  subst shape
  exact ⟨rfl, fun c listed => scanned c (List.mem_cons_of_mem _ listed)⟩

theorem foreign_other (other : ¬ Based clean) :
    Foreign clean n ↔ ∃ rest, clean = '+' :: '-' :: rest ∧ plainDigits rest = true ∧ n = -(amountOf 10 rest : Int) := by
  constructor
  · rintro (⟨letter, rest, base, shape, loose, _⟩ | signs)
    · exact absurd ⟨letter, rest, base, shape, loose⟩ other
    · exact signs
  · exact .inr

theorem marked_iff (exact_ : ExactNumbers parse) (scanned : ∀ c ∈ clean, endsToken c = false) (other : ¬ Based clean)
    (marked : '.' ∈ clean ∨ 'e' ∈ clean ∨ 'E' ∈ clean) :
    (∃ value, readClean parse path clean = .ok value) ↔ (∃ n, Foreign clean n ∧ Representable n) ∨ Taken clean := by
  rw [readClean_other other, if_pos marked, parseFloat_ok exact_ scanned marked, jsonFloat_iff]
  constructor
  · exact fun float => .inr (.inr float)
  · rintro (⟨n, foreign, _⟩ | ⟨n, is, _⟩ | float)
    · have ⟨rest, same, plain, _⟩ := (foreign_other other).mp foreign
      have unmarked := plainDigits_unmarked plain
      rw [same] at marked
      simp at marked
      exact absurd marked unmarked
    · have plain := (tomlInteger_plain other is).1
      exact absurd (marked_unsigned.mpr marked) (plainDigits_unmarked plain)
    · exact float

/-- A zero that other digits follow, or a sign comes before. -/
def ZeroLed (clean : Text) : Prop := 1 < clean.length ∧ startsWith "0" (unsigned clean) = true

theorem zeroLed_of_plain (plain : plainDigits (unsigned clean) = true) : ZeroLed clean ↔ signedZero clean = true := by
  have ⟨_, _, shortOrOther⟩ := plainDigits_iff.mp plain
  constructor
  · rintro ⟨long, zero⟩
    have ⟨rest, starts⟩ := List.isPrefixOf_iff_prefix.mp zero
    have shape : unsigned clean = '0' :: rest := starts.symm
    rw [shape] at shortOrOther
    have short : rest = [] := by
      rcases shortOrOther with one | led
      · exact List.length_eq_zero_iff.mp (Nat.succ.inj one)
      · exact absurd rfl led
    subst short
    by_cases sign : signed clean = true
    · rw [unsigned, if_pos sign] at shape
      cases clean with
      | nil => cases sign
      | cons c tail =>
        rw [List.drop_one, List.tail_cons] at shape
        subst shape
        have either : c = '+' ∨ c = '-' := by simpa [signed] using sign
        rcases either with rfl | rfl <;> rfl
    · rw [unsigned, if_neg sign] at shape
      subst shape
      exact absurd long (by decide)
  · intro zero
    rcases of_decide_eq_true zero with rfl | rfl <;> exact ⟨by decide, rfl⟩

theorem plus_iff (plus : clean = '+' :: rest) : jsonInteger rest = some n ↔
    (∃ digits, clean = '+' :: '-' :: digits ∧ plainDigits digits = true ∧ n = -(amountOf 10 digits : Int)) ∨
      (plainDigits (unsigned clean) = true ∧ n = negated clean (amountOf 10 (unsigned clean))) := by
  subst plus
  have left : unsigned ('+' :: rest) = rest := rfl
  have positive : negated ('+' :: rest) (amountOf 10 rest) = amountOf 10 rest := rfl
  rw [left, positive]
  by_cases minus : rest.head? = some '-'
  · have ⟨digits, same⟩ := List.head?_eq_some_iff.mp minus
    subst same
    have noDigits : ¬ plainDigits ('-' :: digits) = true := by
      intro plain
      have ⟨c, tail, same, digit⟩ := plainDigits_head plain
      cases same
      cases digit
    have is : jsonInteger ('-' :: digits) = if plainDigits digits = true then some (-(amountOf 10 digits : Int)) else none :=
      rfl
    rw [is]
    constructor
    · intro read
      by_cases plain : plainDigits digits = true
      · rw [if_pos plain] at read
        exact .inl ⟨digits, rfl, plain, (Option.some.inj read).symm⟩
      · rw [if_neg plain] at read
        cases read
    · rintro (⟨digits', same, plain, rfl⟩ | ⟨plain, _⟩)
      · cases same
        rw [if_pos plain]
      · exact absurd plain noDigits
  · have is : jsonInteger rest = if plainDigits rest = true then some (amountOf 10 rest : Int) else none := by
      rw [jsonInteger, withoutMinus, if_neg minus, negated, if_neg minus]
    rw [is]
    constructor
    · intro read
      by_cases plain : plainDigits rest = true
      · rw [if_pos plain] at read
        exact .inr ⟨plain, (Option.some.inj read).symm⟩
      · rw [if_neg plain] at read
        cases read
    · rintro (⟨digits, same, _⟩ | ⟨plain, rfl⟩)
      · cases same
        exact absurd rfl minus
      · rw [if_pos plain]

theorem unmarked_iff (exact_ : ExactNumbers parse) (scanned : ∀ c ∈ clean, endsToken c = false) (other : ¬ Based clean)
    (unmarked : ¬ ('.' ∈ clean ∨ 'e' ∈ clean ∨ 'E' ∈ clean)) :
    (∃ value, readClean parse path clean = .ok value) ↔ (∃ n, Foreign clean n ∧ Representable n) ∨ Taken clean := by
  have noFloat : tomlFloat clean ≠ true := fun float => unmarked (marked_unsigned.mp (plainFloat_marked float))
  rw [readClean_other other, if_neg unmarked]
  by_cases zero : ZeroLed clean
  · have led : 1 < clean.length ∧ startsWith "0" (unsigned clean) = true := zero
    rw [if_pos led]
    constructor
    · rintro ⟨_, never⟩
      cases never
    · rintro (⟨n, foreign, _⟩ | ⟨n, is, _, unsignedZero⟩ | ⟨float, _⟩)
      · have ⟨rest, same, _⟩ := (foreign_other other).mp foreign
        subst same
        cases zero.2
      · have plain := (tomlInteger_plain other is).1
        rw [(zeroLed_of_plain plain).mp zero] at unsignedZero
        cases unsignedZero
      · exact absurd float noFloat
  · have led : ¬ (1 < clean.length ∧ startsWith "0" (unsigned clean) = true) := zero
    rw [if_neg led]
    have takes : ∀ {decimal : Text} {n : Int}, jsonInteger decimal = some n → Representable n →
        ∃ value, parseDecimal parse path decimal = .ok value := parseDecimal_takes exact_
    have whole : ∀ {n : Int}, plainDigits (unsigned clean) = true → n = negated clean (amountOf 10 (unsigned clean)) →
        Representable n → Taken clean := by
      intro n plain is fits
      refine .inl ⟨n, ?_, fits, ?_⟩
      · rw [tomlInteger_other other, if_pos plain, is]
      · exact Bool.eq_false_iff.mpr fun signed => zero ((zeroLed_of_plain plain).mpr signed)
    by_cases plus : clean.head? = some '+'
    · rw [if_pos plus]
      have ⟨shape, within⟩ := after_plus scanned plus
      constructor
      · rintro ⟨value, parsed⟩
        have ⟨n, is, fits, _⟩ := parseDecimal_ok exact_ within parsed
        rcases (plus_iff shape).mp is with signs | ⟨plain, same⟩
        · exact .inl ⟨n, (foreign_other other).mpr signs, fits⟩
        · exact .inr (whole plain same fits)
      · rintro (⟨n, foreign, fits⟩ | ⟨n, is, fits, _⟩ | ⟨float, _⟩)
        · exact takes ((plus_iff shape).mpr (.inl ((foreign_other other).mp foreign))) fits
        · exact takes ((plus_iff shape).mpr (.inr (tomlInteger_plain other is))) fits
        · exact absurd float noFloat
    · rw [if_neg plus]
      constructor
      · rintro ⟨value, parsed⟩
        have ⟨n, is, fits, _⟩ := parseDecimal_ok exact_ scanned parsed
        have ⟨_, plain, same⟩ := jsonInteger_some is
        exact .inr (whole plain same fits)
      · rintro (⟨n, foreign, _⟩ | ⟨n, is, fits, _⟩ | ⟨float, _⟩)
        · have ⟨rest, same, _⟩ := (foreign_other other).mp foreign
          exact absurd (by rw [same]; rfl) plus
        · have ⟨plain, same⟩ := tomlInteger_plain other is
          refine takes ?_ fits
          rw [jsonInteger, withoutMinus_eq plus, if_pos plain, same]
        · exact absurd float noFloat

theorem readClean_iff (exact_ : ExactNumbers parse) (scanned : ∀ c ∈ clean, endsToken c = false) :
    (∃ value, readClean parse path clean = .ok value) ↔ (∃ n, Foreign clean n ∧ Representable n) ∨ Taken clean := by
  by_cases based : Based clean
  · have ⟨letter, rest, base, shape, loose⟩ := based
    exact based_iff shape loose
  · by_cases marked : '.' ∈ clean ∨ 'e' ∈ clean ∨ 'E' ∈ clean
    · exact marked_iff exact_ scanned based marked
    · exact unmarked_iff exact_ scanned based marked

theorem tomlInteger_float (is : tomlInteger clean = some n) : tomlFloat clean = false := by
  by_cases based : Based clean
  · have ⟨letter, rest, base, shape, loose⟩ := based
    rw [tomlFloat, shape, (prefixed_apart loose).2]
  · have plain := (tomlInteger_plain based is).1
    by_contra float
    exact plainDigits_unmarked plain (plainFloat_marked (Bool.not_eq_false _ ▸ float))

theorem foreign_apart (foreign : Foreign clean n) : tomlInteger clean = none ∧ tomlFloat clean = false := by
  by_cases based : Based clean
  · have ⟨letter, rest, base, shape, loose⟩ := based
    refine ⟨?_, by rw [tomlFloat, shape, (prefixed_apart loose).2]⟩
    rw [tomlInteger_based shape loose]
    rcases foreign with ⟨letter', rest', base', shape', loose', _, _, _, sign | capital⟩ | ⟨tail, plus, _⟩
    · rw [if_pos sign]
    · rw [shape] at shape'
      cases shape'
      rw [capital, Option.bind_none, ite_self]
    · subst plus
      cases shape
  · have ⟨rest, same, plain, _⟩ := (foreign_other based).mp foreign
    subst same
    have noDigits : ¬ plainDigits (unsigned ('+' :: '-' :: rest)) = true := by
      intro digits
      have ⟨c, tail, same, digit⟩ := plainDigits_head digits
      cases same
      cases digit
    refine ⟨by rw [tomlInteger_other based, if_neg noDigits], ?_⟩
    by_contra float
    have ⟨c, tail, same, digit⟩ := plainFloat_head (Bool.not_eq_false _ ▸ float)
    cases same
    cases digit

theorem readClean_integer (exact_ : ExactNumbers parse) (scanned : ∀ c ∈ clean, endsToken c = false)
    (parsed : readClean parse path clean = .ok value) (is : tomlInteger clean = some n) :
    value.isInteger = true ∧ value.exactNumber = n := by
  by_cases based : Based clean
  · obtain ⟨letter, rest, base, shape, loose⟩ := based
    obtain ⟨positive, within⟩ : 0 < base ∧ base ≤ 16 := by
      rcases looseBase_some loose with ⟨_, rfl⟩ | ⟨_, rfl⟩ | ⟨_, rfl⟩ <;> decide
    rw [readClean_based shape loose] at parsed
    obtain ⟨some_, all, _, integer, same⟩ := parseIntegerBase_ok positive within shape parsed
    rw [tomlInteger_based shape loose] at is
    by_cases sign : signed clean = true
    · rw [if_pos sign] at is
      cases is
    · rw [if_neg sign] at is
      have noMinus : clean.head? ≠ some '-' := by
        intro minus
        simp [signed, minus] at sign
      rw [negated, if_neg noMinus] at same
      cases named : baseOf letter with
      | none =>
        rw [named] at is
        cases is
      | some base' =>
        cases loose.symm.trans (looseBase_of_baseOf named)
        rw [named, Option.bind_some, if_pos ⟨some_, all⟩] at is
        cases is
        exact ⟨integer, same⟩
  · have plain := tomlInteger_plain based is
    have unmarked : ¬ ('.' ∈ clean ∨ 'e' ∈ clean ∨ 'E' ∈ clean) := fun marked =>
      plainDigits_unmarked plain.1 (marked_unsigned.mpr marked)
    rw [readClean_other based, if_neg unmarked] at parsed
    by_cases led : 1 < clean.length ∧ startsWith "0" (unsigned clean) = true
    · rw [if_pos led] at parsed
      cases parsed
    · rw [if_neg led] at parsed
      by_cases plus : clean.head? = some '+'
      · rw [if_pos plus] at parsed
        obtain ⟨shape, within⟩ := after_plus scanned plus
        obtain ⟨m, read, _, integer, same⟩ := parseDecimal_ok exact_ within parsed
        have again := (plus_iff shape).mpr (.inr plain)
        cases again.symm.trans read
        exact ⟨integer, same⟩
      · rw [if_neg plus] at parsed
        obtain ⟨m, read, _, integer, same⟩ := parseDecimal_ok exact_ scanned parsed
        obtain ⟨_, _, is'⟩ := jsonInteger_some read
        rw [is', ← plain.2] at same
        exact ⟨integer, same⟩

end Taken

/-! Tokens. -/

section Tokens
variable {parse : String → Option Json} {path : String} {token : Text}

/-- `_parse_number` takes the token exactly when it is a number of TOML, and an integer for what it is. -/
def ReadsExactly (parse : String → Option Json) (path : String) (token : Text) : Prop :=
  ((∃ value, parseNumber parse path token = .ok value) ↔
    (∃ n, TomlInteger token n ∧ Representable n) ∨ TomlFloat token) ∧
  ∀ n value, TomlInteger token n → parseNumber parse path token = .ok value →
    value.isInteger = true ∧ value.exactNumber = n

/-- A signed zero, a float with a plus, an integer that is foreign to TOML, or a number with an underscore that does
    not stand between digits, where `_strip_underscores` does not look. -/
def Misread (token : Text) : Prop :=
  (spaced token = true ∧ (signedZero (bare token) = true ∨
    (tomlFloat (bare token) = true ∧ (bare token).head? = some '+'))) ∨
  (¬ Strays token ∧ ∃ n, Foreign (bare token) n ∧ Representable n) ∨
  (¬ Strays token ∧ spaced token = false ∧ Taken (bare token))

theorem parseNumber_ok {value : Json} : parseNumber parse path token = .ok value ↔
    ¬ Strays token ∧ readClean parse path (bare token) = .ok value := by
  rw [parseNumber_eq, bind_ok]
  constructor
  · rintro ⟨clean, stripped, read⟩
    have ⟨placed, same⟩ := stripUnderscores_ok.mp stripped
    subst same
    exact ⟨placed, read⟩
  · rintro ⟨placed, read⟩
    exact ⟨bare token, stripUnderscores_ok.mpr ⟨placed, rfl⟩, read⟩

theorem tomlNumber_iff : ((∃ n, TomlInteger token n ∧ Representable n) ∨ TomlFloat token) ↔
    spaced token = true ∧ (Taken (bare token) ∨ signedZero (bare token) = true ∨
      (tomlFloat (bare token) = true ∧ (bare token).head? = some '+')) := by
  constructor
  · rintro (⟨n, ⟨fine, is⟩, fits⟩ | ⟨fine, float⟩)
    · by_cases zero : signedZero (bare token) = true
      · exact ⟨fine, .inr (.inl zero)⟩
      · exact ⟨fine, .inl (.inl ⟨n, is, fits, Bool.eq_false_iff.mpr zero⟩)⟩
    · by_cases plus : (bare token).head? = some '+'
      · exact ⟨fine, .inr (.inr ⟨float, plus⟩)⟩
      · exact ⟨fine, .inl (.inr ⟨float, plus⟩)⟩
  · rintro ⟨fine, (⟨n, is, fits, _⟩ | ⟨float, _⟩) | zero | ⟨float, _⟩⟩
    · exact .inl ⟨n, ⟨fine, is⟩, fits⟩
    · exact .inr ⟨fine, float⟩
    · have read : tomlInteger (bare token) = some 0 := by
        rcases of_decide_eq_true zero with same | same <;> rw [same] <;> rfl
      exact .inl ⟨0, ⟨fine, read⟩, by decide, by decide⟩
    · exact .inr ⟨fine, float⟩

theorem signedZero_apart {clean : Text} (zero : signedZero clean = true) :
    tomlInteger clean = some 0 ∧ tomlFloat clean = false := by
  rcases of_decide_eq_true zero with rfl | rfl <;> exact ⟨rfl, rfl⟩

theorem parse_number_exact_iff (exact_ : ExactNumbers parse) (path : String)
    (scanned : ∀ c ∈ token, endsToken c = false) : ReadsExactly parse path token ↔ ¬ Misread token := by
  have clean : ∀ c ∈ bare token, endsToken c = false := fun c listed => scanned c (List.mem_of_mem_filter listed)
  have accepts : (∃ value, parseNumber parse path token = .ok value) ↔
      ¬ Strays token ∧ ((∃ n, Foreign (bare token) n ∧ Representable n) ∨ Taken (bare token)) := by
    have read : (∃ value, readClean parse path (bare token) = .ok value) ↔ _ := readClean_iff exact_ clean
    rw [← read]
    simp only [parseNumber_ok, exists_and_left]
  have values : ∀ n value, TomlInteger token n → parseNumber parse path token = .ok value →
      value.isInteger = true ∧ value.exactNumber = n := by
    intro n value ⟨_, is⟩ parsed
    exact readClean_integer exact_ clean (parseNumber_ok.mp parsed).2 is
  -- the kinds of numbers without underscores exclude each other
  have foreignApart : (∃ n, Foreign (bare token) n ∧ Representable n) → ¬ Taken (bare token) ∧
      signedZero (bare token) = false ∧ tomlFloat (bare token) = false := by
    rintro ⟨n, foreign, _⟩
    have ⟨noInteger, noFloat⟩ := foreign_apart foreign
    refine ⟨?_, ?_, noFloat⟩
    · rintro (⟨m, is, _⟩ | ⟨float, _⟩)
      · rw [noInteger] at is
        cases is
      · rw [noFloat] at float
        cases float
    · by_contra zero
      have is := (signedZero_apart (Bool.not_eq_false _ ▸ zero)).1
      rw [noInteger] at is
      cases is
  have takenApart : Taken (bare token) → signedZero (bare token) = false ∧
      ¬ (tomlFloat (bare token) = true ∧ (bare token).head? = some '+') := by
    rintro (⟨n, is, _, zero⟩ | ⟨float, noPlus⟩)
    · refine ⟨zero, ?_⟩
      rintro ⟨float, _⟩
      rw [tomlInteger_float is] at float
      cases float
    · refine ⟨?_, fun both => noPlus both.2⟩
      by_contra zero
      have noFloat := (signedZero_apart (Bool.not_eq_false _ ▸ zero)).2
      rw [noFloat] at float
      cases float
  have placed : spaced token = true → ¬ Strays token := not_strays
  unfold ReadsExactly
  rw [and_iff_left values, accepts, tomlNumber_iff]
  unfold Misread
  by_cases fine : spaced token = true
  · have here := placed fine
    constructor
    · rintro same (⟨_, kind⟩ | ⟨_, foreign⟩ | ⟨_, unspaced, _⟩)
      · rcases (same.mpr ⟨fine, .inr kind⟩).2 with foreign | taken
        · have ⟨_, noZero, noFloat⟩ := foreignApart foreign
          rcases kind with zero | ⟨float, _⟩
          · rw [noZero] at zero
            cases zero
          · rw [noFloat] at float
            cases float
        · have ⟨noZero, noPlus⟩ := takenApart taken
          rcases kind with zero | plus
          · rw [noZero] at zero
            cases zero
          · exact noPlus plus
      · have ⟨noTaken, noZero, noFloat⟩ := foreignApart foreign
        rcases (same.mp ⟨here, .inl foreign⟩).2 with taken | zero | ⟨float, _⟩
        · exact noTaken taken
        · rw [noZero] at zero
          cases zero
        · rw [noFloat] at float
          cases float
      · exact absurd fine (Bool.eq_false_iff.mp unspaced)
    · intro noSlip
      constructor
      · rintro ⟨_, foreign | taken⟩
        · exact absurd (.inr (.inl ⟨here, foreign⟩)) noSlip
        · exact ⟨fine, .inl taken⟩
      · rintro ⟨_, taken | kind⟩
        · exact ⟨here, .inr taken⟩
        · exact absurd (.inl ⟨fine, kind⟩) noSlip
  · have unspaced : spaced token = false := Bool.eq_false_iff.mpr fine
    constructor
    · rintro same (⟨spacedToken, _⟩ | ⟨here, foreign⟩ | ⟨here, _, taken⟩)
      · exact fine spacedToken
      · exact fine (same.mp ⟨here, .inl foreign⟩).1
      · exact fine (same.mp ⟨here, .inr taken⟩).1
    · intro noSlip
      constructor
      · rintro ⟨here, foreign | taken⟩
        · exact absurd (.inr (.inl ⟨here, foreign⟩)) noSlip
        · exact absurd (.inr (.inr ⟨here, unspaced, taken⟩)) noSlip
      · intro number
        exact absurd number.1 fine

end Tokens

theorem scanned_of_all {token : Text} (all : (token.all fun c => !endsToken c) = true) :
    ∀ c ∈ token, endsToken c = false := by
  intro c listed
  have held := List.all_eq_true.mp all c listed
  rwa [Bool.not_eq_true'] at held

theorem parse_number_exact_thousand : ReadsExactly exactParse "" "1_000".toList ↔ ¬ Misread "1_000".toList :=
  parse_number_exact_iff exactParse_exact "" (scanned_of_all rfl)

/-- A zero with a plus is refused. -/
theorem signed_zero_refused : ¬ ∀ (parse : String → Option Json), ExactNumbers parse → ∀ (path : String) (token : Text),
    (∀ c ∈ token, endsToken c = false) → ReadsExactly parse path token := by
  intro claimed
  have reads := claimed exactParse exactParse_exact "" ['+', '0'] (scanned_of_all rfl)
  have zero : TomlInteger ['+', '0'] 0 := ⟨rfl, rfl⟩
  have ⟨value, read⟩ := reads.1.mpr (.inl ⟨0, zero, by decide⟩)
  cases read

end Fala.Toml
