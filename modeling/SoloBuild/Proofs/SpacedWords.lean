import SoloBuild.Proofs.TextPieces

/-!
# Words behind blanks

Command lines and launcher scripts hold options: words that begin with a dash, each with blanks
before it. Here are the texts that are written so, and the words that are read from them.

## Key results

- `mem_of_mem_words`: a word holds only characters of its text
- `Gap.words_append`: the words on both sides of blanks
- `words_optionsText`: options are read as they are written
-/

namespace SoloBuild.Text

/-! ## Blanks between words -/

/-- The blanks between two words: one at least. -/
structure Gap where
  text : List Char
  ne_nil : text ≠ []
  blank : ∀ c ∈ text, isBlank c = true

theorem Gap.exists_cons (gap : Gap) :
    ∃ c rest, gap.text = c :: rest ∧ isBlank c = true ∧ ∀ d ∈ rest, isBlank d = true := by
  obtain ⟨c, rest, heq⟩ := List.exists_cons_of_ne_nil gap.ne_nil
  have hblank := gap.blank
  rw [heq, List.forall_mem_cons] at hblank
  exact ⟨c, rest, heq, hblank.1, hblank.2⟩

theorem Gap.not_mem (gap : Gap) {c : Char} (hc : isBlank c = false) : c ∉ gap.text := fun hmem =>
  Bool.false_ne_true (hc.symm.trans (gap.blank c hmem))

/-- A word ends before the text: it is empty, or begins with a blank. -/
def EndsWord (rest : List Char) : Prop :=
  ∀ c ∈ rest.head?, isBlank c = true

theorem endsWord_cons {c : Char} {rest : List Char} :
    EndsWord (c :: rest) ↔ isBlank c = true :=
  ⟨fun h => h c rfl, fun h _ hd => Option.some.inj hd ▸ h⟩

instance : (rest : List Char) → Decidable (EndsWord rest)
  | [] => isTrue fun _ h => by cases h
  | _ :: _ => decidable_of_iff _ endsWord_cons.symm

theorem Gap.endsWord (gap : Gap) (rest : List Char) : EndsWord (gap.text ++ rest) := by
  obtain ⟨c, blanks, heq, hblank, -⟩ := gap.exists_cons
  intro d hd
  rw [heq] at hd
  cases hd
  exact hblank

/-- Every text begins with a word that ends before the rest; it may be empty. -/
theorem exists_word_append (cs : List Char) :
    ∃ word rest, cs = word ++ rest ∧ (∀ c ∈ word, isBlank c = false) ∧ EndsWord rest := by
  induction cs with
  | nil => exact ⟨[], [], rfl, List.forall_mem_nil _, fun _ hc => by cases hc⟩
  | cons c cs ih =>
    cases hblank : isBlank c with
    | true =>
      refine ⟨[], c :: cs, rfl, List.forall_mem_nil _, fun d hd => ?_⟩
      exact Option.some.inj hd ▸ hblank
    | false =>
      obtain ⟨word, rest, heq, hword, hrest⟩ := ih
      exact ⟨c :: word, rest, congrArg (c :: ·) heq, List.forall_mem_cons.2 ⟨hblank, hword⟩, hrest⟩

/-! ## The words of a text -/

private theorem mem_of_mem_splitWhere {isMark : Char → Bool} {cs piece : List Char} {c : Char}
    (hp : piece ∈ splitWhere isMark cs) (hc : c ∈ piece) : c ∈ cs := by
  induction cs generalizing piece with
  | nil =>
    rw [splitWhere, List.mem_singleton] at hp
    exact hp ▸ hc
  | cons a cs ih =>
    rw [splitWhere] at hp
    split at hp
    · rcases List.mem_cons.1 hp with rfl | hp
      · cases hc
      · exact List.mem_cons_of_mem a (ih hp hc)
    · cases hcs : splitWhere isMark cs with
      | nil => exact absurd hcs (splitWhere_ne_nil isMark cs)
      | cons first rest =>
        rw [hcs] at hp ih
        rcases List.mem_cons.1 hp with rfl | hp
        · rcases List.mem_cons.1 hc with rfl | hc
          · exact List.mem_cons_self
          · exact List.mem_cons_of_mem a (ih List.mem_cons_self hc)
        · exact List.mem_cons_of_mem a (ih (List.mem_cons_of_mem first hp) hc)

/-- A word holds only characters of its text. -/
theorem mem_of_mem_words {cs w : List Char} {c : Char} (hw : w ∈ words cs) (hc : c ∈ w) :
    c ∈ cs :=
  mem_of_mem_splitWhere (List.mem_filter.1 hw).1 hc

/-- The words on both sides of a blank. -/
theorem words_append_cons {c : Char} (hc : isBlank c = true) (xs ys : List Char) :
    words (xs ++ c :: ys) = words xs ++ words ys := by
  rw [words, splitWhere_append_cons hc, List.filter_append, words, words]

/-- A blank in front belongs to no word. -/
theorem words_cons {c : Char} (hc : isBlank c = true) (cs : List Char) :
    words (c :: cs) = words cs :=
  words_append_cons hc [] cs

/-- The words on both sides of blanks. -/
theorem Gap.words_append (gap : Gap) (xs ys : List Char) :
    words (xs ++ (gap.text ++ ys)) = words xs ++ words ys := by
  obtain ⟨c, blanks, heq, hc, hblanks⟩ := gap.exists_cons
  have hskip : words (blanks ++ ys) = words ys := by
    clear heq
    induction blanks with
    | nil => rfl
    | cons b bs ih =>
      rw [List.forall_mem_cons] at hblanks
      rw [List.cons_append, words_cons hblanks.1, ih hblanks.2]
  rw [heq, List.cons_append, words_append_cons hc, hskip]

/-- A text without blanks is one word. -/
theorem words_of_not_blank {w : List Char} (hne : w ≠ []) (h : ∀ c ∈ w, isBlank c = false) :
    words w = [w] := by
  have hsplit : splitWhere isBlank w = [w] := by
    clear hne
    induction w with
    | nil => rfl
    | cons c cs ih =>
      rw [List.forall_mem_cons] at h
      simp [splitWhere, h.1, ih h.2]
  simp [words, hsplit, hne]

/-- The word that a text begins with. -/
theorem words_append_of_endsWord {w rest : List Char} (hne : w ≠ [])
    (h : ∀ c ∈ w, isBlank c = false) (hrest : EndsWord rest) :
    words (w ++ rest) = w :: words rest := by
  cases rest with
  | nil => rw [List.append_nil, words_of_not_blank hne h]; rfl
  | cons c rest =>
    have hc : isBlank c = true := hrest c rfl
    rw [words_append_cons hc, words_of_not_blank hne h, words_cons hc, List.singleton_append]

/-! ## Options -/

/-- An option: a word that begins with a dash, with the blanks before it. -/
structure SpacedOption where
  gap : Gap
  /-- What follows the dash. -/
  rest : List Char
  notBlank : ∀ c ∈ rest, isBlank c = false

namespace SpacedOption

/-- The option itself. -/
def word (o : SpacedOption) : List Char :=
  '-' :: o.rest

/-- The option behind its blanks. -/
def text (o : SpacedOption) : List Char :=
  o.gap.text ++ o.word

theorem word_notBlank (o : SpacedOption) : ∀ c ∈ o.word, isBlank c = false :=
  List.forall_mem_cons.2 ⟨rfl, o.notBlank⟩

theorem words_word (o : SpacedOption) : words o.word = [o.word] :=
  words_of_not_blank (List.cons_ne_nil _ _) o.word_notBlank

end SpacedOption

/-- Options, one after the other. -/
def optionsText (options : List SpacedOption) : List Char :=
  options.flatMap SpacedOption.text

/-- What is no blank stands in options only where it stands in one of them. -/
theorem not_mem_optionsText {c : Char} (hc : isBlank c = false) {options : List SpacedOption}
    (h : ∀ o ∈ options, c ∉ o.word) : c ∉ optionsText options := by
  intro hmem
  obtain ⟨o, ho, hmem⟩ := List.mem_flatMap.1 hmem
  rcases List.mem_append.1 hmem with hgap | hword
  · exact o.gap.not_mem hc hgap
  · exact h o ho hword

theorem endsWord_optionsText (options : List SpacedOption) (gap : Gap) (rest : List Char) :
    EndsWord (optionsText options ++ (gap.text ++ rest)) := by
  cases options with
  | nil => exact gap.endsWord rest
  | cons o options =>
    rw [optionsText, List.flatMap_cons, SpacedOption.text, List.append_assoc, List.append_assoc]
    exact o.gap.endsWord _

/-- Options are read as they are written, before blanks. -/
theorem words_optionsText (options : List SpacedOption) (xs : List Char) (gap : Gap)
    (ys : List Char) :
    words (xs ++ (optionsText options ++ (gap.text ++ ys))) =
      words xs ++ (options.map SpacedOption.word ++ words ys) := by
  induction options generalizing xs with
  | nil => exact gap.words_append xs ys
  | cons o options ih =>
    -- An option is itself a text before the options behind it.
    have hfront := ih o.word
    rw [o.words_word] at hfront
    rw [optionsText, List.flatMap_cons, SpacedOption.text, List.append_assoc, List.append_assoc,
      o.gap.words_append, List.map_cons]
    exact congrArg (words xs ++ ·) hfront

end SoloBuild.Text
