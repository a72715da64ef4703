/-!
# Taking a text apart from the left

The steps from which the readers of this library are put together: a fixed text in front, one
expected character, the run of characters before a mark, and the pieces between marks.

- `joinWith_splitWhere`: the pieces between marks hold the whole text;
- `not_mark_of_mem_splitWhere`: a piece holds no mark;
- `splitWhere_append_cons`: the pieces of two texts with a mark between them;
- `eq_append_of_afterFront?`: what follows a front, with the front before it, is the text;
- `upTo?_eq_some`: the part before a mark holds no mark.
-/

namespace SoloBuild.Text

/-- What follows `front`, when the text begins with it. -/
def afterFront? : List Char → List Char → Option (List Char)
  | [], cs => some cs
  | _ :: _, [] => none
  | f :: fs, c :: cs => if f = c then afterFront? fs cs else none

/-- The part of the text before the first `mark`, and what follows that mark. -/
def upTo? (mark : Char) : List Char → Option (List Char × List Char)
  | [] => none
  | c :: cs =>
    if c = mark then some ([], cs)
    else (upTo? mark cs).map fun (front, rest) => (c :: front, rest)

/-- The pieces between the characters that `isMark` holds of; there is always one more of them than
such characters. -/
def splitWhere (isMark : Char → Bool) : List Char → List (List Char)
  | [] => [[]]
  | c :: cs =>
    if isMark c then [] :: splitWhere isMark cs
    else match splitWhere isMark cs with
      | [] => [[c]]
      | piece :: rest => (c :: piece) :: rest

/-- The pieces with one mark between any two. -/
def joinWith (mark : Char) : List (List Char) → List Char
  | [] => []
  | [piece] => piece
  | piece :: rest => piece ++ mark :: joinWith mark rest

@[simp] theorem afterFront?_append (front rest : List Char) :
    afterFront? front (front ++ rest) = some rest := by
  induction front with
  | nil => rfl
  | cons f fs ih => simp [afterFront?, ih]

/-- What follows a front, with the front before it, is the text. -/
theorem eq_append_of_afterFront? {front cs rest : List Char}
    (h : afterFront? front cs = some rest) : cs = front ++ rest := by
  induction front generalizing cs with
  | nil => simpa [afterFront?] using h
  | cons f fs ih =>
    cases cs with
    | nil => simp [afterFront?] at h
    | cons c cs =>
      rw [afterFront?] at h
      split at h
      · rename_i hfc
        rw [hfc, ih h, List.cons_append]
      · simp at h

/-- The part before a mark, the mark and the rest are the text, and the part holds no mark. -/
theorem upTo?_eq_some {mark : Char} {cs front rest : List Char}
    (h : upTo? mark cs = some (front, rest)) : cs = front ++ mark :: rest ∧ mark ∉ front := by
  induction cs generalizing front with
  | nil => simp [upTo?] at h
  | cons c cs ih =>
    rw [upTo?] at h
    split at h
    · rename_i hc
      simp only [Option.some.injEq, Prod.mk.injEq] at h
      obtain ⟨rfl, rfl⟩ := h
      exact ⟨by rw [hc, List.nil_append], by simp⟩
    · rename_i hc
      cases hcs : upTo? mark cs with
      | none => simp [hcs] at h
      | some p =>
        obtain ⟨f, r⟩ := p
        simp only [hcs, Option.map_some, Option.some.injEq, Prod.mk.injEq] at h
        obtain ⟨rfl, rfl⟩ := h
        obtain ⟨hf, hm⟩ := ih hcs
        exact ⟨by rw [hf, List.cons_append], by simp [hm, Ne.symm hc]⟩

/-- A mark is found exactly when the text holds it. -/
theorem upTo?_eq_none_iff {mark : Char} {cs : List Char} :
    upTo? mark cs = none ↔ mark ∉ cs := by
  induction cs with
  | nil => simp [upTo?]
  | cons c cs ih =>
    rw [upTo?]
    split
    · simp_all
    · rename_i hc
      simp [ih, Ne.symm hc]

/-- The first mark of a text is the one whose part before it holds none. -/
theorem upTo?_append_cons {mark : Char} {front : List Char} (h : mark ∉ front) (rest : List Char) :
    upTo? mark (front ++ mark :: rest) = some (front, rest) := by
  induction front with
  | nil => simp [upTo?]
  | cons c cs ih =>
    simp only [List.mem_cons, not_or] at h
    simp [upTo?, Ne.symm h.1, ih h.2]

theorem splitWhere_ne_nil (isMark : Char → Bool) (cs : List Char) : splitWhere isMark cs ≠ [] := by
  cases cs with
  | nil => simp [splitWhere]
  | cons c cs =>
    rw [splitWhere]
    split
    · simp
    · split <;> simp

/-- A piece holds no mark. -/
theorem not_mark_of_mem_splitWhere {isMark : Char → Bool} {cs piece : List Char} {c : Char}
    (hp : piece ∈ splitWhere isMark cs) (hc : c ∈ piece) : isMark c = false := by
  induction cs generalizing piece with
  | nil => simp_all [splitWhere]
  | cons a cs ih =>
    rw [splitWhere] at hp
    split at hp
    · rcases List.mem_cons.1 hp with rfl | hp
      · simp at hc
      · exact ih hp hc
    · rename_i ha
      split at hp
      · simp_all
      · rename_i l ls hl
        rcases List.mem_cons.1 hp with rfl | hp
        · rcases List.mem_cons.1 hc with rfl | hc
          · simpa using ha
          · exact ih (by simp [hl]) hc
        · exact ih (by simp [hl, hp]) hc

/-- A text without a mark is one piece. -/
theorem splitWhere_of_not_mem (mark : Char) (cs : List Char) (h : mark ∉ cs) :
    splitWhere (· == mark) cs = [cs] := by
  induction cs with
  | nil => rfl
  | cons c cs ih =>
    simp only [List.mem_cons, not_or] at h
    have hc : (c == mark) = false := by simpa using fun e : c = mark => h.1 e.symm
    simp [splitWhere, ih h.2, hc]

/-- The pieces on both sides of a mark. -/
theorem splitWhere_append_cons {isMark : Char → Bool} {mark : Char} (h : isMark mark = true)
    (xs ys : List Char) :
    splitWhere isMark (xs ++ mark :: ys) = splitWhere isMark xs ++ splitWhere isMark ys := by
  induction xs with
  | nil => simp [splitWhere, h]
  | cons c cs ih =>
    rw [List.cons_append, splitWhere, splitWhere, ih]
    by_cases hc : isMark c = true
    · rw [if_pos hc, if_pos hc, List.cons_append]
    · rw [if_neg hc, if_neg hc]
      cases hcs : splitWhere isMark cs with
      | nil => exact absurd hcs (splitWhere_ne_nil isMark cs)
      | cons piece rest => rfl

/-- The pieces hold the whole text. -/
@[simp] theorem joinWith_splitWhere (mark : Char) (cs : List Char) :
    joinWith mark (splitWhere (· == mark) cs) = cs := by
  induction cs with
  | nil => rfl
  | cons c cs ih =>
    rw [splitWhere]
    cases h : splitWhere (· == mark) cs with
    | nil => exact absurd h (splitWhere_ne_nil _ cs)
    | cons piece rest =>
      rw [h] at ih
      by_cases hc : c = mark
      · rw [if_pos (by simpa using hc)]
        show [] ++ mark :: joinWith mark (piece :: rest) = c :: cs
        rw [ih, hc, List.nil_append]
      · rw [if_neg (by simpa using hc)]
        cases rest with
        | nil => exact congrArg (c :: ·) ih
        | cons l ls => exact congrArg (c :: ·) ih

end SoloBuild.Text
