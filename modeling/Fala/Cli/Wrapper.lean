import Fala.Cli.Words

/-! What the dispatcher reads of the arguments. -/

namespace Fala.Cli

/-- A reader outside of quotes, bracket groups and escapes. -/
def at_rest (finished : List Word) (token : Word) (active : Bool) : Reader := ⟨finished, token, { active }⟩

/-- A text leaves nothing open. -/
def Closed (text : List Char) : Prop := (read text).scan = { active := (read text).scan.active }

/-! Quoted words. -/

theorem take_opens (finished : List Word) (token : Word) (active : Bool) {ch : Char} (quote : ch = '\x27' ∨ ch = '\x22') :
    (at_rest finished token active).take ch = ⟨finished, token, { active := true, quote := some ch }⟩ := by
  have step := @Scan.step_opens { active } ch ⟨rfl, rfl, rfl⟩ quote
  have goes : ¬((at_rest finished token active).scan.active = true ∧
      (at_rest finished token active).scan.separates ch = true) := fun both => by
    rw [at_rest, step.2.2] at both
    exact Bool.noConfusion both.2
  rw [take_kept goes]
  simp only [at_rest, step.1, step.2.1, List.append_nil]

theorem take_closes (finished : List Word) (token : Word) {ch : Char} (plain : ch ≠ '\x5c') :
    (⟨finished, token, { active := true, quote := some ch }⟩ : Reader).take ch = at_rest finished token true := by
  have step := @Scan.step_closes { active := true, quote := some ch } ch rfl rfl plain rfl
  rw [Reader.take, if_neg (by simp [step])]
  simp only [at_rest, step.1, step.2.1, List.append_nil]

theorem take_inside (finished : List Word) (token : Word) {quote ch : Char} (other : quote ≠ ch)
    (raw : ch = '\x5c' → quote = '\x27') :
    (⟨finished, token, { active := true, quote := some quote }⟩ : Reader).take ch =
      ⟨finished, token ++ [ch], { active := true, quote := some quote }⟩ := by
  have backslash : ¬(ch = '\x5c' ∧ some quote ≠ some '\x27') := fun both => both.2 (congrArg some (raw both.1))
  have step := @Scan.step_quoted { active := true, quote := some quote } ch rfl backslash rfl nofun
    fun is => other (Option.some.inj is)
  rw [Reader.take, if_neg (by simp [step])]
  simp only [step.1, step.2.1]

theorem take_quoted (finished : List Word) (token : Word) (value : Word) :
    (value.flatMap fun ch => if ch = '\x27' then ['\x27', '\x22', '\x27', '\x22', '\x27'] else [ch]).foldl Reader.take
        ⟨finished, token, { active := true, quote := some '\x27' }⟩ =
      ⟨finished, token ++ value, { active := true, quote := some '\x27' }⟩ := by
  induction value generalizing token with
  | nil =>
    rw [List.append_nil]
    rfl
  | cons ch rest ih =>
    rw [List.flatMap_cons, List.foldl_append]
    by_cases apostrophe : ch = '\x27'
    · rw [if_pos apostrophe]
      simp only [List.foldl_cons, List.foldl_nil]
      rw [take_closes _ _ (by decide), take_opens _ _ _ (.inr rfl), take_inside _ _ (by decide) (by decide),
        take_closes _ _ (by decide), take_opens _ _ _ (.inl rfl), ih, apostrophe, List.append_assoc, List.singleton_append]
    · rw [if_neg apostrophe, List.foldl_cons, take_inside _ _ (Ne.symm apostrophe) (fun _ => rfl), List.foldl_nil, ih,
        List.append_assoc, List.singleton_append]

theorem take_shellQuote (finished : List Word) (token : Word) (active : Bool) (value : Word) :
    (shellQuote value).foldl Reader.take (at_rest finished token active) = at_rest finished (token ++ value) true := by
  rw [shellQuote, List.cons_append, List.foldl_cons, take_opens _ _ _ (.inl rfl), List.foldl_append, take_quoted,
    List.foldl_cons, take_closes _ _ (by decide), List.foldl_nil]

/-! The arguments after the second. -/

theorem words_at_rest (finished : List Word) (token : Word) :
    (at_rest finished token true).words = finished ++ [token] := rfl

/-- A command before its next argument. -/
def spaced (command : List Char) : List Char := if command ≠ [] then command ++ [' '] else command

theorem separates_of_idle {s : Scan} {ch : Char} (idle : (s.next ch).active = false) : s.separates ch = true := by
  rcases s.mode ch with escaped | ⟨going, rfl, unquoted⟩ | ⟨going, backslash, deep⟩ | ⟨going, flat, plain, closed⟩ |
    ⟨going, backslash, flat, quoted, other⟩ | ⟨bare, plain⟩
  · have step := @Scan.step_escaped s ch escaped
    simp [step] at idle
  · have step := Scan.step_backslash going ⟨rfl, unquoted⟩
    simp [step] at idle
  · have step := Scan.step_json going backslash deep
    rw [step.1, Scan.inJson] at idle
    split_ifs at idle
  · have step := Scan.step_closes going flat plain closed
    simp [step] at idle
  · have step := Scan.step_quoted going backslash flat quoted other
    simp [step] at idle
  by_cases space : ch = ' ' ∨ ch = '\t'
  · exact (Scan.step_space bare space).2.2
  by_cases bracket : ch = '{' ∨ ch = '['
  · have step := Scan.step_bracket bare bracket
    simp [step] at idle
  by_cases quote : ch = '\x27' ∨ ch = '\x22'
  · have step := Scan.step_opens bare quote
    simp [step] at idle
  · have step := Scan.step_plain bare plain bracket quote space
    simp [step] at idle

theorem token_idle (text : List Char) {r : Reader} (idle : r.scan.active = false → r.token = []) :
    (text.foldl Reader.take r).scan.active = false → (text.foldl Reader.take r).token = [] := by
  induction text generalizing r with
  | nil => exact idle
  | cons ch rest ih =>
    rw [List.foldl_cons]
    apply ih
    by_cases ends : r.scan.active = true ∧ r.scan.separates ch = true
    · rw [take_separator ends]
      exact fun _ => rfl
    · rw [take_kept ends]
      intro inactive
      have separates := separates_of_idle inactive
      have before : r.scan.active = false := eq_false_of_ne_true fun active => ends ⟨active, separates⟩
      have nothing : r.scan.kept ch = [] := if_pos (.inl separates)
      show r.token ++ r.scan.kept ch = []
      rw [idle before, nothing, List.append_nil]

theorem read_spaced {command : List Char} (closed : Closed command) :
    read (spaced command) = at_rest (read command).words [] false := by
  by_cases nothing : command = []
  · rw [nothing]
    rfl
  have idle := @token_idle command {} fun _ => rfl
  have bare : (read command).scan.escaped = false ∧ (read command).scan.jsonDepth = 0 ∧
      (read command).scan.quote = none := by
    rw [closed]
    exact ⟨rfl, rfl, rfl⟩
  have step := @Scan.step_space (read command).scan ' ' bare (.inl rfl)
  have quiet : (read command).scan.next ' ' = { active := false } := by
    rw [step.1, closed]
  have taken : read (spaced command) = (read command).take ' ' := by
    rw [spaced, if_pos nothing, read, List.foldl_append]
    rfl
  rw [taken]
  by_cases active : (read command).scan.active = true
  · have words : (read command).words = (read command).finished ++ [(read command).token] := by
      rw [Reader.words, if_pos active, bare.1, if_neg Bool.false_ne_true]
    rw [take_separator ⟨active, step.2.2⟩, quiet, words]
    rfl
  · have words : (read command).words = (read command).finished := by
      rw [Reader.words, if_neg active]
    have empty : (read command).token = [] := idle (eq_false_of_ne_true active)
    rw [take_kept (fun both => active both.1), quiet, words, empty, step.2.1]
    rfl

theorem read_quoted {command : List Char} (closed : Closed command) (value : Word) :
    Closed (spaced command ++ shellQuote value) ∧
      (read (spaced command ++ shellQuote value)).words = (read command).words ++ [value] := by
  have taken : read (spaced command ++ shellQuote value) = at_rest (read command).words value true := by
    have before := read_spaced closed
    rw [read] at before
    rw [read, List.foldl_append, before, take_shellQuote, List.nil_append]
  exact ⟨by rw [Closed, taken]; rfl, by rw [taken, words_at_rest]⟩

theorem read_arguments {command : List Char} (closed : Closed command) (args : List Word) :
    (read (args.foldl (fun command arg => spaced command ++ shellQuote arg) command)).words =
      (read command).words ++ args := by
  induction args generalizing command with
  | nil => rw [List.append_nil]; rfl
  | cons arg rest ih =>
    have next := read_quoted closed arg
    rw [List.foldl_cons, ih next.1, next.2, List.append_assoc, List.singleton_append]

/-! The first two arguments. -/

/-- A word that the tokenizer reads as it stands: outside of bracket groups no quote, space or tab, every group closed,
    and no escape left at the end. -/
def bare (depth : Nat) (inString : Bool) : Word → Bool
  | [] => depth == 0
  | ['\x5c'] => false
  | '\x5c' :: _ :: rest => bare depth inString rest
  | ch :: rest =>
    if 0 < depth then
      if ch = '\x22' then bare depth (!inString) rest
      else if inString = false ∧ (ch = '{' ∨ ch = '[') then bare (depth + 1) inString rest
      else if inString = false ∧ (ch = '}' ∨ ch = ']') then bare (depth - 1) inString rest
      else bare depth inString rest
    else if ch = '{' ∨ ch = '[' then bare 1 false rest
    else if ch = '\x27' ∨ ch = '\x22' ∨ ch = ' ' ∨ ch = '\t' then false
    else bare depth inString rest

theorem take_adds {scan next : Scan} {ch : Char}
    (step : scan.next ch = next ∧ scan.kept ch = [ch] ∧ scan.separates ch = false) (finished : List Word) (token : Word) :
    (⟨finished, token, scan⟩ : Reader).take ch = ⟨finished, token ++ [ch], next⟩ := by
  have goes : ¬(scan.active = true ∧ scan.separates ch = true) := fun both => by
    rw [step.2.2] at both
    exact Bool.noConfusion both.2
  rw [take_kept goes, step.1, step.2.1]

theorem plain_of {ch : Char} {rest : List Char} (last : ch = '\x5c' → rest = [] → False)
    (escape : ∀ head tail, ch = '\x5c' → rest = head :: tail → False) : ch ≠ '\x5c' := by
  intro is
  cases rest with
  | nil => exact last is rfl
  | cons head tail => exact escape head tail is rfl

theorem rest_taken {finished : List Word} {token : Word} {ch : Char} {rest : Word} {scan next : Scan} (active : Bool)
    (step : scan.next ch = next ∧ scan.kept ch = [ch] ∧ scan.separates ch = false)
    (read : rest.foldl Reader.take ⟨finished, token ++ [ch], next⟩ =
      at_rest finished (token ++ [ch] ++ rest) (true || !rest.isEmpty)) :
    (ch :: rest).foldl Reader.take ⟨finished, token, scan⟩ =
      at_rest finished (token ++ ch :: rest) (active || !(ch :: rest).isEmpty) := by
  rw [List.foldl_cons, take_adds step, read]
  simp

theorem take_bare (depth : Nat) (inString : Bool) (value : Word) (finished : List Word) (token : Word) (active : Bool)
    (is : bare depth inString value = true) (outer : depth = 0 → inString = false) (inner : 0 < depth → active = true) :
    value.foldl Reader.take ⟨finished, token, { active, jsonDepth := depth, jsonString := inString }⟩ =
      at_rest finished (token ++ value) (active || !value.isEmpty) := by
  fun_induction bare depth inString value generalizing token active with
  | case1 depth inString =>
    have flat : depth = 0 := by simpa using is
    rw [flat, outer flat, List.append_nil]
    simp [at_rest]
  | case2 => exact Bool.noConfusion is
  | case3 depth inString ch rest ih =>
    have first := @Scan.step_backslash { active, jsonDepth := depth, jsonString := inString } '\x5c' rfl ⟨rfl, nofun⟩
    have second := @Scan.step_escaped { active := true, escaped := true, jsonDepth := depth, jsonString := inString } ch rfl
    have later := ih (token ++ ['\x5c'] ++ [ch]) true is outer (fun _ => rfl)
    exact rest_taken active first (rest_taken true second later)
  | case4 depth inString rest deep _ _ ih =>
    have step := @Scan.step_json { active, jsonDepth := depth, jsonString := inString } '\x22' rfl (fun both => by
      exact absurd both.1 (by decide)) deep
    have later := ih (token ++ ['\x22']) true is (fun flat => absurd flat (by omega)) (fun _ => rfl)
    exact rest_taken active step later
  | case5 depth inString ch rest last escape deep other opens ih =>
    have plain := plain_of last escape
    have step := @Scan.step_json { active, jsonDepth := depth, jsonString := inString } ch rfl (fun both => plain both.1) deep
    have later := ih (token ++ [ch]) true is (fun flat => absurd flat (by omega)) (fun _ => rfl)
    have inside : ({ active, jsonDepth := depth, jsonString := inString } : Scan).inJson ch =
        { active := true, jsonDepth := depth + 1, jsonString := inString } := by
      rcases opens with ⟨rfl, rfl | rfl⟩ <;> rfl
    rw [inside] at step
    exact rest_taken active step later
  | case6 depth inString ch rest last escape deep other _ closes ih =>
    have plain := plain_of last escape
    have step := @Scan.step_json { active, jsonDepth := depth, jsonString := inString } ch rfl (fun both => plain both.1) deep
    have later := ih (token ++ [ch]) true is (fun _ => closes.1) (fun _ => rfl)
    have inside : ({ active, jsonDepth := depth, jsonString := inString } : Scan).inJson ch =
        { active := true, jsonDepth := depth - 1, jsonString := inString } := by
      rcases closes with ⟨rfl, rfl | rfl⟩ <;> rfl
    rw [inside] at step
    exact rest_taken active step later
  | case7 depth inString ch rest last escape deep other opens closes ih =>
    have plain := plain_of last escape
    have step := @Scan.step_json { active, jsonDepth := depth, jsonString := inString } ch rfl (fun both => plain both.1) deep
    have later := ih (token ++ [ch]) true is outer (fun _ => rfl)
    have inside : ({ active, jsonDepth := depth, jsonString := inString } : Scan).inJson ch =
        { active := true, jsonDepth := depth, jsonString := inString } := by
      have unopened : ¬((inString = false ∧ ch = '{') ∨ (inString = false ∧ ch = '[')) := by tauto
      have unclosed : ¬((inString = false ∧ ch = '}') ∨ (inString = false ∧ ch = ']')) := by tauto
      simp only [Scan.inJson, if_neg other, if_neg unopened, if_neg unclosed]
    rw [inside] at step
    exact rest_taken active step later
  | case8 depth inString ch rest last escape flat bracket ih =>
    have surface : depth = 0 := by omega
    have step := @Scan.step_bracket { active, jsonDepth := depth, jsonString := inString } ch ⟨rfl, surface, rfl⟩ bracket
    have later := ih (token ++ [ch]) true is (fun _ => rfl) (fun _ => rfl)
    exact rest_taken active step later
  | case9 => exact Bool.noConfusion is
  | case10 depth inString ch rest last escape flat bracket other ih =>
    have surface : depth = 0 := by omega
    have step := @Scan.step_plain { active, jsonDepth := depth, jsonString := inString } ch ⟨rfl, surface, rfl⟩
      (plain_of last escape) bracket (fun quote => other (by tauto)) (fun space => other (by tauto))
    have later := ih (token ++ [ch]) true is outer (fun _ => rfl)
    exact rest_taken active step later

theorem read_bare {value : Word} (is : bare 0 false value = true) (finished : List Word) (nonempty : value ≠ []) :
    value.foldl Reader.take (at_rest finished [] false) = at_rest finished value true := by
  have taken := take_bare 0 false value finished [] false is (fun _ => rfl) (fun deep => absurd deep (by decide))
  have some_ : (!value.isEmpty) = true := by
    cases value with
    | nil => exact absurd rfl nonempty
    | cons ch rest => rfl
  rw [some_] at taken
  exact taken

/-! The joined command. -/

/-- The arguments that are joined as they stand. -/
def raw (args : List Word) : List Char := (args.take 2).foldl (fun command arg => spaced command ++ arg) []

theorem joined_later (args : List Word) (first : Nat) (later : 2 < first) (command : List Char) :
    (args.zipIdx first).foldl (fun command arg =>
      let command := if command ≠ [] then command ++ [' '] else command
      if arg.2 ≤ 2 then command ++ arg.1 else command ++ shellQuote arg.1) command =
    args.foldl (fun command arg => spaced command ++ shellQuote arg) command := by
  induction args generalizing first command with
  | nil => rfl
  | cons arg rest ih =>
    have quoted : ¬first ≤ 2 := by omega
    rw [List.zipIdx_cons, List.foldl_cons, List.foldl_cons, ih (first + 1) (by omega)]
    simp only [if_neg quoted, spaced]

theorem joined_eq (args : List Word) :
    joined args = (args.drop 2).foldl (fun command arg => spaced command ++ shellQuote arg) (raw args) := by
  match args with
  | [] => rfl
  | [first] => rfl
  | first :: second :: rest => exact joined_later rest 3 (by decide) (spaced ([] ++ first) ++ second)

theorem raw_words {args : List Word} (plain : ∀ arg ∈ args.take 2, arg ≠ [] ∧ bare 0 false arg = true) :
    Closed (raw args) ∧ (read (raw args)).words = args.take 2 := by
  match args with
  | [] => exact ⟨rfl, rfl⟩
  | [first] =>
    have one := plain first (by simp)
    have taken : read (raw [first]) = at_rest [] first true := read_bare one.2 [] one.1
    rw [Closed, taken]
    exact ⟨rfl, rfl⟩
  | first :: second :: rest =>
    have one := plain first (by simp)
    have two := plain second (by simp)
    have taken : read first = at_rest [] first true := read_bare one.2 [] one.1
    have before : read (spaced first) = at_rest [first] [] false := by
      have closed : Closed first := by
        rw [Closed, taken]
        rfl
      rw [read_spaced closed, taken]
      rfl
    have both : read (raw (first :: second :: rest)) = at_rest [first] second true := by
      show (spaced first ++ second).foldl Reader.take {} = _
      rw [List.foldl_append]
      rw [read] at before
      rw [before]
      exact read_bare two.2 [first] two.1
    rw [Closed, both]
    exact ⟨rfl, rfl⟩

/-- The first two arguments are joined as they stand, and every later one is read back as it was given. -/
theorem wrapper_transparent (quote : String → List Char) (dispatch : List Char → Except String Output)
    (args : List Word) :
    (Closed (raw args) → tokens (joined args) = tokens (raw args) ++ args.drop 2) ∧
    ((∀ arg ∈ args.take 2, arg ≠ [] ∧ bare 0 false arg = true) → tokens (joined args) = args) ∧
    (∀ command wanted, (wordFrom wanted command 0 [] {}).isSome ↔ wanted < count command) ∧
    (∀ detail, dispatch (joined args) = .error detail → (main quote dispatch args).2 = true) ∧
    ∀ output, dispatch (joined args) = .ok output →
      (output.rootOk = some false → (main quote dispatch args).2 = true) ∧
      (¬"\"ok\":false".toList <:+: output.text → (main quote dispatch args).2 = false) := by
  have later (closed : Closed (raw args)) : tokens (joined args) = tokens (raw args) ++ args.drop 2 := by
    rw [tokens_eq, tokens_eq, joined_eq]
    exact read_arguments closed _
  refine ⟨later, ?_, ?_, ?_, ?_⟩
  · intro plain
    have verbs := raw_words plain
    rw [later verbs.1, tokens_eq, verbs.2, List.take_append_drop]
  · intro command wanted
    rw [word_found, count_eq]
    simp
  · intro detail raised
    rw [main, raised]
  · intro output returned
    rw [main, returned]
    constructor
    · intro failed
      cases output with
      | lines text => exact nomatch failed
      | envelope before ok after =>
        have is : ok = false := Option.some.inj failed
        rw [is]
        apply decide_eq_true
        exact ⟨before, after, by simp [Output.text]⟩
    · exact fun absent => decide_eq_false absent

/-- A first argument of two words is read as two. -/
theorem verbs_split : tokens (joined ["runs list".toList]) ≠ ["runs list".toList] := by
  decide +kernel

theorem wrapper_transparent_options :
    tokens (joined ["runs".toList, "observe".toList, "--run-id".toList, "it's \x7b \"a\\".toList, []]) =
      ["runs".toList, "observe".toList, "--run-id".toList, "it's \x7b \"a\\".toList, []] :=
  (wrapper_transparent String.toList (fun _ => .ok (.lines [])) _).2.1 (by decide +kernel)

end Fala.Cli
