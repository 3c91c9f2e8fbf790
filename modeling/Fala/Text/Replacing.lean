import Mathlib.Data.List.Infix

/-! Replacing the occurrences of a word in a text, one after another from the left. -/

namespace Replacing

variable {α : Type}

/-- A text with occurrences of words marked in it: what stands before the first, and each with what follows it. -/
structure Marked (α : Type) where
  first : List α
  gaps : List (List α × List α)

namespace Marked

def plain (text : List α) : Marked α := ⟨text, []⟩

def original (m : Marked α) : List α := m.first ++ m.gaps.flatMap fun g => g.1 ++ g.2

/-- The text with the marker in place of every marked occurrence. -/
def rendered (marker : List α) (m : Marked α) : List α := m.first ++ m.gaps.flatMap fun g => marker ++ g.2

def parts (m : Marked α) : List (List α) := m.first :: m.gaps.map Prod.snd

theorem original_plain (text : List α) : (plain text).original = text := List.append_nil text

theorem rendered_plain (marker text : List α) : (plain text).rendered marker = text := List.append_nil text

theorem rendered_cons (marker first word part : List α) (gaps : List (List α × List α)) :
    rendered marker ⟨first, (word, part) :: gaps⟩ = first ++ (marker ++ rendered marker ⟨part, gaps⟩) := by
  simp only [rendered, List.flatMap_cons, List.append_assoc]

theorem original_cons (first word part : List α) (gaps : List (List α × List α)) :
    original ⟨first, (word, part) :: gaps⟩ = first ++ (word ++ original ⟨part, gaps⟩) := by
  simp only [original, List.flatMap_cons, List.append_assoc]

/-- The rendered text has an occurrence of the word that takes in something of a marker. -/
def Touches (marker needle : List α) (m : Marked α) : Prop :=
  ∃ before g after, m.gaps = before ++ g :: after ∧
    ∃ u v, m.rendered marker = u ++ needle ++ v ∧
      u.length < (rendered marker ⟨m.first, before⟩).length + marker.length ∧
      (rendered marker ⟨m.first, before⟩).length < u.length + needle.length

theorem Touches.later {marker needle first word part : List α} {gaps : List (List α × List α)}
    (touches : Touches marker needle ⟨part, gaps⟩) : Touches marker needle ⟨first, (word, part) :: gaps⟩ := by
  obtain ⟨before, g, after, split, u, v, whole, starts, ends⟩ := touches
  refine ⟨(word, part) :: before, g, after, ?_, first ++ marker ++ u, v, ?_, ?_, ?_⟩
  · exact congrArg _ split
  · rw [rendered_cons, whole]
    simp only [List.append_assoc]
  · simp only [rendered_cons, List.length_append] at starts ⊢
    omega
  · simp only [rendered_cons, List.length_append] at ends ⊢
    omega

theorem not_touches {needle marker middle : List α} {a b : α} (is : marker = a :: middle ++ [b]) (first : a ∉ needle)
    (last : b ∉ needle) (inside : ¬ needle <:+: marker) (m : Marked α) : ¬ m.Touches marker needle := by
  rintro ⟨before, g, after, split, u, v, whole, starts, ends⟩
  have known : m.rendered marker = rendered marker ⟨m.first, before⟩ ++ (marker ++ (g.2 ++ after.flatMap fun g => marker ++ g.2)) := by
    rw [rendered, split]
    simp only [rendered, List.flatMap_append, List.flatMap_cons, List.append_assoc]
  generalize rendered marker ⟨m.first, before⟩ = ahead at known starts ends
  generalize (g.2 ++ after.flatMap fun g => marker ++ g.2) = behind at known
  rw [whole] at known
  have size := congrArg List.length is
  simp only [List.length_append, List.length_cons, List.length_nil] at size
  by_cases early : u.length < ahead.length
  · have held : (u ++ needle ++ v)[ahead.length]? = some a := by
      rw [known, is]
      simp
    rw [List.append_assoc, List.getElem?_append_right (by omega), List.getElem?_append_left (by omega)] at held
    exact first (List.mem_of_getElem? held)
  · by_cases late : ahead.length + marker.length < u.length + needle.length
    · have held : (u ++ needle ++ v)[ahead.length + (middle.length + 1)]? = some b := by
        rw [known, is]
        simp
      rw [List.append_assoc, List.getElem?_append_right (by omega), List.getElem?_append_left (by omega)] at held
      exact last (List.mem_of_getElem? held)
    · have inner : needle = (marker.drop (u.length - ahead.length)).take needle.length := by
        have cutOut := congrArg (fun l => (l.drop u.length).take needle.length) known
        simp only [List.append_assoc, List.drop_left, List.take_left] at cutOut
        refine cutOut.trans ?_
        rw [List.drop_append, List.drop_eq_nil_of_le (by omega), List.nil_append,
          List.drop_append_of_le_length (by omega), List.take_append_of_le_length (by rw [List.length_drop]; omega)]
      apply inside
      rw [inner]
      exact (List.take_prefix _ _).isInfix.trans (List.drop_suffix _ _).isInfix

end Marked

variable [DecidableEq α]

/-- The parts of a text around the occurrences of a word: the first, and those that follow an occurrence. -/
def cut (needle : List α) : List α → List α × List (List α)
  | [] => ([], [])
  | c :: rest =>
    if _found : needle ≠ [] ∧ needle <+: c :: rest then
      ([], (cut needle ((c :: rest).drop needle.length)).1 :: (cut needle ((c :: rest).drop needle.length)).2)
    else (c :: (cut needle rest).1, (cut needle rest).2)
termination_by text => text.length
decreasing_by
  · have positive := List.length_pos_iff.mpr _found.1
    simp only [List.length_drop, List.length_cons]
    omega
  · simp

def replaceAll (needle marker text : List α) : List α :=
  (cut needle text).1 ++ (cut needle text).2.flatMap (marker ++ ·)

section
variable {needle marker text : List α}

theorem cut_nil : cut needle [] = ([], []) := by rw [cut]

theorem cut_found (some : needle ≠ []) (found : needle <+: text) :
    cut needle text = ([], (cut needle (text.drop needle.length)).1 :: (cut needle (text.drop needle.length)).2) := by
  cases text with
  | nil => exact absurd (List.prefix_nil.mp found) some
  | cons c rest => rw [cut, dif_pos ⟨some, found⟩]

theorem cut_other {c : α} {rest : List α} (other : ¬ (needle ≠ [] ∧ needle <+: c :: rest)) :
    cut needle (c :: rest) = (c :: (cut needle rest).1, (cut needle rest).2) := by
  rw [cut, dif_neg other]

theorem replaceAll_nil : replaceAll needle marker [] = [] := by
  rw [replaceAll, cut_nil]
  rfl

theorem replaceAll_found (some : needle ≠ []) (found : needle <+: text) :
    replaceAll needle marker text = marker ++ replaceAll needle marker (text.drop needle.length) := by
  rw [replaceAll, cut_found some found, replaceAll, List.nil_append, List.flatMap_cons, List.append_assoc]

theorem replaceAll_other {c : α} {rest : List α} (other : ¬ (needle ≠ [] ∧ needle <+: c :: rest)) :
    replaceAll needle marker (c :: rest) = c :: replaceAll needle marker rest := by
  rw [replaceAll, cut_other other, replaceAll, List.cons_append]

theorem cut_original (needle text : List α) :
    (cut needle text).1 ++ (cut needle text).2.flatMap (needle ++ ·) = text := by
  fun_induction cut needle text with
  | case1 => rfl
  | case2 c rest found ih =>
    rw [List.nil_append, List.flatMap_cons, List.append_assoc, ih]
    obtain ⟨tail, whole⟩ := found.2
    rw [← whole, List.drop_left]
  | case3 c rest other ih => rw [List.cons_append, ih]

theorem part_within {part : List α} (listed : part ∈ (cut needle text).1 :: (cut needle text).2) : part <:+: text := by
  have whole := cut_original needle text
  rcases List.mem_cons.mp listed with rfl | among
  · exact ⟨[], _, by rw [List.nil_append]; exact whole⟩
  · obtain ⟨before, after, split⟩ := List.append_of_mem among
    refine ⟨(cut needle text).1 ++ before.flatMap (needle ++ ·) ++ needle, after.flatMap (needle ++ ·), ?_⟩
    rw [split] at whole
    simpa only [List.flatMap_append, List.flatMap_cons, List.append_assoc] using whole

theorem cut_free (some : needle ≠ []) (text : List α) :
    ∀ part ∈ (cut needle text).1 :: (cut needle text).2, ¬ needle <:+: part := by
  fun_induction cut needle text with
  | case1 =>
    intro part listed inside
    rw [List.mem_singleton.mp listed] at inside
    exact some (List.infix_nil.mp inside)
  | case2 c rest found ih =>
    rw [List.forall_mem_cons]
    exact ⟨fun inside => some (List.infix_nil.mp inside), ih⟩
  | case3 c rest other ih =>
    rw [List.forall_mem_cons] at ih ⊢
    refine ⟨fun inside => ?_, ih.2⟩
    rcases List.infix_cons_iff.mp inside with here | later
    · have whole : c :: (cut needle rest).1 <+: c :: rest := by
        rw [List.cons_prefix_cons]
        exact ⟨rfl, ⟨_, cut_original needle rest⟩⟩
      exact other ⟨some, here.trans whole⟩
    · exact ih.1 later

theorem replaceAll_append {left right : List α}
    (apart : ∀ tail, tail ≠ [] → tail <:+ left → needle <+: tail ++ right → needle <+: tail) :
    replaceAll needle marker (left ++ right) = replaceAll needle marker left ++ replaceAll needle marker right := by
  fun_induction cut needle left with
  | case1 => rw [replaceAll_nil, List.nil_append, List.nil_append]
  | case2 c rest found ih =>
    have whole : needle <+: c :: rest ++ right := found.2.trans (List.prefix_append _ _)
    rw [replaceAll_found found.1 found.2, replaceAll_found found.1 whole, List.append_assoc]
    congr 1
    rw [List.drop_append_of_le_length found.2.length_le]
    exact ih fun tail more among => apart tail more (among.trans (List.drop_suffix _ _))
  | case3 c rest other ih =>
    have whole : ¬ (needle ≠ [] ∧ needle <+: c :: (rest ++ right)) := by
      intro found
      exact other ⟨found.1, apart (c :: rest) (List.cons_ne_nil _ _) (List.suffix_refl _) found.2⟩
    rw [List.cons_append, replaceAll_other whole, replaceAll_other other, List.cons_append]
    congr 1
    exact ih fun tail more among => apart tail more (among.trans (List.suffix_cons _ _))

theorem replaceAll_left {left right : List α}
    (apart : ∀ tail, tail ≠ [] → tail <:+ left → ¬ needle <+: tail ++ right) :
    replaceAll needle marker (left ++ right) = left ++ replaceAll needle marker right := by
  induction left with
  | nil => rfl
  | cons c rest ih =>
    have other : ¬ (needle ≠ [] ∧ needle <+: c :: (rest ++ right)) := fun found =>
      apart (c :: rest) (List.cons_ne_nil _ _) (List.suffix_refl _) found.2
    rw [List.cons_append, replaceAll_other other, List.cons_append,
      ih fun tail more among => apart tail more (among.trans (List.suffix_cons _ _))]

end

namespace Marked

/-- The occurrences of one more word are marked in the parts. -/
def refine (m : Marked α) (needle : List α) : Marked α where
  first := (cut needle m.first).1
  gaps := (cut needle m.first).2.map (needle, ·) ++
    m.gaps.flatMap fun g => (g.1, (cut needle g.2).1) :: (cut needle g.2).2.map (needle, ·)

section
variable {needle marker : List α} {m : Marked α}

theorem refine_cons (first word part : List α) (gaps : List (List α × List α)) :
    refine ⟨first, (word, part) :: gaps⟩ needle =
      ⟨(cut needle first).1, (cut needle first).2.map (needle, ·) ++
        (word, (refine ⟨part, gaps⟩ needle).first) :: (refine ⟨part, gaps⟩ needle).gaps⟩ := by
  simp only [refine, List.flatMap_cons, List.cons_append]

theorem original_refine (m : Marked α) (needle : List α) : (m.refine needle).original = m.original := by
  obtain ⟨first, gaps⟩ := m
  induction gaps generalizing first with
  | nil =>
    have whole := cut_original needle first
    simpa only [original, refine, List.flatMap_map, List.flatMap_nil, List.append_nil] using whole
  | cons g rest ih =>
    obtain ⟨word, part⟩ := g
    have whole := cut_original needle first
    rw [refine_cons, original_cons, ← ih part, original, List.flatMap_append, List.flatMap_map, ← List.append_assoc, whole]
    simp only [List.flatMap_cons, original, List.append_assoc]

theorem word_refine {g : List α × List α} (listed : g ∈ (m.refine needle).gaps) :
    g.1 = needle ∨ ∃ g' ∈ m.gaps, g.1 = g'.1 := by
  simp only [refine, List.mem_append, List.mem_map, List.mem_flatMap, List.mem_cons] at listed
  rcases listed with ⟨part, -, rfl⟩ | ⟨g', among, rfl | ⟨part, -, rfl⟩⟩
  · exact .inl rfl
  · exact .inr ⟨g', among, rfl⟩
  · exact .inl rfl

theorem part_refine {part : List α} (listed : part ∈ (m.refine needle).parts) :
    ∃ whole ∈ m.parts, part ∈ (cut needle whole).1 :: (cut needle whole).2 := by
  simp only [parts, refine, List.mem_cons, List.map_append, List.mem_append, List.mem_map, List.mem_flatMap] at listed
  rcases listed with rfl | ⟨g, ⟨piece, among, rfl⟩, rfl⟩ | ⟨g, ⟨g', among, rfl | ⟨piece, inside, rfl⟩⟩, rfl⟩
  · exact ⟨m.first, by simp [parts], by simp⟩
  · exact ⟨m.first, by simp [parts], by simp [among]⟩
  · exact ⟨g'.2, by simp only [parts, List.mem_cons, List.mem_map]; exact .inr ⟨g', among, rfl⟩, by simp⟩
  · exact ⟨g'.2, by simp only [parts, List.mem_cons, List.mem_map]; exact .inr ⟨g', among, rfl⟩, by simp [inside]⟩

theorem replaceAll_rendered (some : needle ≠ []) (clear : ¬ m.Touches marker needle) :
    replaceAll needle marker (m.rendered marker) = (m.refine needle).rendered marker := by
  obtain ⟨first, gaps⟩ := m
  have length := List.length_pos_iff.mpr some
  induction gaps generalizing first with
  | nil =>
    simp only [rendered, refine, replaceAll, List.flatMap_nil, List.append_nil, List.flatMap_map]
  | cons g rest ih =>
    obtain ⟨word, part⟩ := g
    -- An occurrence over the end of the first part would reach into the marker.
    have before : replaceAll needle marker (first ++ (marker ++ rendered marker ⟨part, rest⟩)) =
        replaceAll needle marker first ++ replaceAll needle marker (marker ++ rendered marker ⟨part, rest⟩) := by
      apply replaceAll_append
      intro tail more among found
      by_cases short : needle.length ≤ tail.length
      · exact List.prefix_of_prefix_length_le found (List.prefix_append _ _) short
      · obtain ⟨head, rfl⟩ := among
        obtain ⟨v, whole⟩ := found
        have positive := List.length_pos_iff.mpr more
        refine absurd ⟨[], (word, part), rest, rfl, head, v, ?_, ?_, ?_⟩ clear
        · rw [rendered_cons, List.append_assoc, ← whole, ← List.append_assoc]
        · simp only [rendered, List.flatMap_nil, List.append_nil, List.length_append]
          omega
        · simp only [rendered, List.flatMap_nil, List.append_nil, List.length_append]
          omega
    -- One that starts in the marker touches it as well.
    have inside : replaceAll needle marker (marker ++ rendered marker ⟨part, rest⟩) =
        marker ++ replaceAll needle marker (rendered marker ⟨part, rest⟩) := by
      apply replaceAll_left
      intro tail more among found
      obtain ⟨head, split⟩ := among
      obtain ⟨v, whole⟩ := found
      have positive := List.length_pos_iff.mpr more
      have lengths := congrArg List.length split
      rw [List.length_append] at lengths
      refine clear ⟨[], (word, part), rest, rfl, first ++ head, v, ?_, ?_, ?_⟩
      · rw [rendered_cons, List.append_assoc (first ++ head), whole, ← List.append_assoc (first ++ head),
          List.append_assoc first head tail, split, List.append_assoc]
      · simp only [rendered, List.flatMap_nil, List.append_nil, List.length_append]
        omega
      · simp only [rendered, List.flatMap_nil, List.append_nil, List.length_append]
        omega
    rw [rendered_cons, before, inside, ih part fun touches => clear touches.later, refine_cons]
    simp only [rendered, replaceAll, List.flatMap_append, List.flatMap_map, List.flatMap_cons, List.append_assoc]

end

/-- The words are marked in turn. -/
def layered (needles : List (List α)) (text : List α) : Marked α := needles.foldl refine (plain text)

/-- No word is found over a marker that was put there for an earlier one. -/
def Untouched (marker : List α) : List (List α) → Marked α → Prop
  | [], _ => True
  | needle :: rest, m => ¬ m.Touches marker needle ∧ Untouched marker rest (m.refine needle)

section
variable {needles : List (List α)} {marker : List α} {m : Marked α}

theorem foldl_replaceAll (nonempty : ∀ needle ∈ needles, needle ≠ []) (clear : Untouched marker needles m) :
    needles.foldl (fun text needle => replaceAll needle marker text) (m.rendered marker) =
      (needles.foldl refine m).rendered marker := by
  induction needles generalizing m with
  | nil => rfl
  | cons needle rest ih =>
    obtain ⟨some, others⟩ := List.forall_mem_cons.mp nonempty
    rw [List.foldl_cons, List.foldl_cons, replaceAll_rendered some clear.1]
    exact ih others clear.2

theorem original_foldl (needles : List (List α)) (m : Marked α) : (needles.foldl refine m).original = m.original := by
  induction needles generalizing m with
  | nil => rfl
  | cons needle rest ih => rw [List.foldl_cons, ih, original_refine]

theorem word_foldl {g : List α × List α} (listed : g ∈ (needles.foldl refine m).gaps) :
    g.1 ∈ needles ∨ ∃ g' ∈ m.gaps, g.1 = g'.1 := by
  induction needles generalizing m with
  | nil => exact .inr ⟨g, listed, rfl⟩
  | cons needle rest ih =>
    rcases ih listed with later | ⟨g', among, same⟩
    · exact .inl (List.mem_cons_of_mem _ later)
    · rcases word_refine among with here | ⟨earlier, held, equal⟩
      · exact .inl (by rw [same, here]; exact List.mem_cons_self)
      · exact .inr ⟨earlier, held, same.trans equal⟩

theorem part_foldl {part : List α} (listed : part ∈ (needles.foldl refine m).parts) :
    ∃ whole ∈ m.parts, part <:+: whole := by
  induction needles generalizing m with
  | nil => exact ⟨part, listed, List.infix_refl _⟩
  | cons needle rest ih =>
    obtain ⟨piece, among, inside⟩ := ih listed
    obtain ⟨whole, held, cut⟩ := part_refine among
    exact ⟨whole, held, inside.trans (part_within cut)⟩

theorem free_foldl (nonempty : ∀ needle ∈ needles, needle ≠ []) {part : List α}
    (listed : part ∈ (needles.foldl refine m).parts) : ∀ needle ∈ needles, ¬ needle <:+: part := by
  induction needles generalizing m with
  | nil => exact fun _ none => absurd none List.not_mem_nil
  | cons needle rest ih =>
    obtain ⟨some, others⟩ := List.forall_mem_cons.mp nonempty
    rw [List.forall_mem_cons]
    refine ⟨fun here => ?_, ih others listed⟩
    obtain ⟨piece, among, inside⟩ : ∃ piece ∈ (m.refine needle).parts, part <:+: piece := part_foldl listed
    obtain ⟨whole, -, pieces⟩ := part_refine among
    exact cut_free some whole piece pieces (here.trans inside)

end

theorem untouched_of_apart {marker : List α} {needles : List (List α)}
    (apart : ∀ needle ∈ needles, ∀ m : Marked α, ¬ m.Touches marker needle) (m : Marked α) :
    Untouched marker needles m := by
  induction needles generalizing m with
  | nil => trivial
  | cons needle rest ih =>
    obtain ⟨here, others⟩ := List.forall_mem_cons.mp apart
    exact ⟨here m, ih others _⟩

end Marked

end Replacing
