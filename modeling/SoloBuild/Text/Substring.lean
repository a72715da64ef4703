/-!
# Occurrences of a text in a text

Search and replacement of a fixed text, over lists of characters. An empty text occurs everywhere,
so replacing it inserts the new text before every character and at the end.

- `occursIn_iff`: the search finds exactly the infixes;
- `replaceAll_of_not_occursIn`: without an occurrence nothing changes.
-/

namespace SoloBuild.Text

/-- `needle` occurs somewhere in the text. -/
def occursIn (needle : List Char) : List Char → Bool
  | [] => needle.isEmpty
  | c :: cs => needle.isPrefixOf (c :: cs) || occursIn needle cs

/-- The search finds exactly the infixes. -/
theorem occursIn_iff {needle text : List Char} :
    occursIn needle text = true ↔ needle <:+: text := by
  induction text with
  | nil => simp [occursIn]
  | cons c cs ih =>
    simp [occursIn, ih, List.infix_cons_iff]

/-- Replacement from left to right; the first argument counts the characters that belong to an
occurrence already replaced. -/
def replaceFrom (old new : List Char) : Nat → List Char → List Char
  | _, [] => if old.isEmpty then new else []
  | skip + 1, _ :: cs => replaceFrom old new skip cs
  | 0, c :: cs =>
    if old.isEmpty then new ++ c :: replaceFrom old new 0 cs
    else if old.isPrefixOf (c :: cs) then new ++ replaceFrom old new (old.length - 1) cs
    else c :: replaceFrom old new 0 cs

/-- Every occurrence of `old`, found from left to right without overlap, becomes `new`. -/
def replaceAll (old new text : List Char) : List Char :=
  replaceFrom old new 0 text

/-- Without an occurrence nothing changes. -/
theorem replaceAll_of_not_occursIn {old : List Char} (new : List Char) {text : List Char}
    (h : occursIn old text = false) : replaceAll old new text = text := by
  unfold replaceAll
  induction text with
  | nil => simp_all [occursIn, replaceFrom]
  | cons c cs ih =>
    simp only [occursIn, Bool.or_eq_false_iff] at h
    have hne : old.isEmpty = false := by
      cases old with
      | nil => simp [List.isPrefixOf] at h
      | cons => rfl
    simp [replaceFrom, hne, h.1, ih h.2]

/-- The text cut before its last `mark`, or nothing when there is none. -/
def splitAtLast (mark : Char) : List Char → Option (List Char × List Char)
  | [] => none
  | c :: cs =>
    match splitAtLast mark cs with
    | some (front, back) => some (c :: front, back)
    | none => if c = mark then some ([], c :: cs) else none

/-- The two parts are the text, the second begins with the mark, and no mark follows it. -/
theorem splitAtLast_eq_some {mark : Char} {text front back : List Char}
    (h : splitAtLast mark text = some (front, back)) :
    text = front ++ back ∧ ∃ rest, back = mark :: rest ∧ mark ∉ rest := by
  induction text generalizing front back with
  | nil => simp [splitAtLast] at h
  | cons c cs ih =>
    rw [splitAtLast] at h
    cases hcs : splitAtLast mark cs with
    | some p =>
      obtain ⟨f, b⟩ := p
      simp only [hcs, Option.some.injEq, Prod.mk.injEq] at h
      obtain ⟨rfl, rfl⟩ := h
      obtain ⟨hf, hb⟩ := ih hcs
      exact ⟨by rw [hf, List.cons_append], hb⟩
    | none =>
      have hnone : ∀ l : List Char, splitAtLast mark l = none → mark ∉ l := by
        intro l
        induction l with
        | nil => simp
        | cons d ds ihd =>
          intro hl
          rw [splitAtLast] at hl
          cases hds : splitAtLast mark ds with
          | some p => simp [hds] at hl
          | none =>
            simp only [hds] at hl
            split at hl
            · simp at hl
            · rename_i hd
              simp only [List.mem_cons, not_or]
              exact ⟨fun he => hd he.symm, ihd hds⟩
      simp only [hcs] at h
      split at h
      · rename_i hc
        simp only [Option.some.injEq, Prod.mk.injEq] at h
        obtain ⟨rfl, rfl⟩ := h
        exact ⟨rfl, cs, by rw [hc], hnone cs hcs⟩
      · simp at h

end SoloBuild.Text
