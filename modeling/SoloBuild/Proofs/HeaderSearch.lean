import SoloBuild.Description.Header
import SoloBuild.Launcher
import SoloBuild.Proofs.BlockSearch
import SoloBuild.Proofs.TextPieces

/-!
# What the search for headers finds

The search for headers resumes after each header it finds, also after one that stands outside code.
Nothing is lost by that: two headers of one kind never overlap. So the search is the plain one that
tries every position and keeps the headers whose keyword stands in code.

## Key results

- `afterHeader?_eq_some_iff`: the reader reads exactly the headers
- `afterHeader?_inside`: no header begins inside another one
- `headersFrom_eq_declarationsFrom`: the search is the search at every position
- `mem_declarationsFrom_iff`, `pairwise_declarationsFrom`: what it finds, and in which order
-/

namespace SoloBuild

open Text

/-- A name that a build command line can ask for. -/
def Launcher.IsTargetName (name : List Char) : Prop :=
  (∃ c ∈ name.head?, isTargetStart c = true) ∧ ∀ c ∈ name, isTargetChar c = true

instance : (name : List Char) → Decidable (Launcher.IsTargetName name)
  | [] => isFalse (by simp [Launcher.IsTargetName])
  | c :: cs => decidable_of_iff
      (Launcher.isTargetStart c = true ∧ ∀ d ∈ c :: cs, Launcher.isTargetChar d = true)
      (by simp [Launcher.IsTargetName])

/-- A character of a target name is a word character, a point or a dash. -/
theorem Launcher.isTargetChar_cases {c : Char} (h : isTargetChar c = true) :
    isWord c = true ∨ c = '.' ∨ c = '-' := by
  simp only [isTargetChar, isTargetStart, Bool.or_eq_true, beq_iff_eq] at h
  exact or_assoc.1 h

namespace Description

/-- A quote of either kind. -/
def isQuote (c : Char) : Bool :=
  c == '\'' || c == '"'

/-- The texts that are a header: the keyword, a parenthesis with blanks around it, and the name in
    quotes, of which each is of either kind. -/
inductive IsHeader (keyword name : List Char) : List Char → Prop
  | intro {ws ws' : List Char} {q q' : Char} (hws : ∀ c ∈ ws, isBlank c = true)
      (hws' : ∀ c ∈ ws', isBlank c = true) (hq : isQuote q = true) (hq' : isQuote q' = true) :
      IsHeader keyword name (keyword ++ (ws ++ '(' :: (ws' ++ q :: (name ++ [q']))))

theorem IsHeader.exists_eq {keyword name header : List Char} (h : IsHeader keyword name header) :
    ∃ ws ws' q q', (∀ c ∈ ws, isBlank c = true) ∧ (∀ c ∈ ws', isBlank c = true) ∧
      isQuote q = true ∧ isQuote q' = true ∧
      header = keyword ++ (ws ++ '(' :: (ws' ++ q :: (name ++ [q']))) := by
  obtain ⟨hws, hws', hq, hq'⟩ := h
  exact ⟨_, _, _, _, hws, hws', hq, hq', rfl⟩

theorem isQuote_cases {c : Char} (h : isQuote c = true) : c = '\'' ∨ c = '"' := by
  simpa only [isQuote, Bool.or_eq_true, beq_iff_eq] using h

theorem isBlank_eq_false_of_isQuote {c : Char} (h : isQuote c = true) : isBlank c = false := by
  rcases isQuote_cases h with rfl | rfl <;> decide

theorem isWord_eq_false_of_isQuote {c : Char} (h : isQuote c = true) : isWord c = false := by
  rcases isQuote_cases h with rfl | rfl <;> decide

theorem afterQuote?_eq_some_iff {cs rest : List Char} :
    afterQuote? cs = some rest ↔ ∃ q, isQuote q = true ∧ cs = q :: rest := by
  cases cs with
  | nil => simp [afterQuote?]
  | cons c cs =>
    simp only [afterQuote?, isQuote, Bool.or_eq_true, beq_iff_eq, List.cons.injEq]
    constructor
    · intro h
      split at h
      · rename_i hc
        exact ⟨c, hc, rfl, Option.some.inj h⟩
      · cases h
    · rintro ⟨q, hq, rfl, rfl⟩
      rw [if_pos hq]

/-- The reader reads exactly the headers. -/
theorem afterHeader?_eq_some_iff {keyword name text rest : List Char} :
    afterHeader? keyword name text = some rest ↔
      ∃ header, IsHeader keyword name header ∧ text = header ++ rest := by
  constructor
  · intro h
    simp only [afterHeader?, Option.bind_eq_some_iff] at h
    obtain ⟨a, ha, b, hb, c, hc, d, hd, hr⟩ := h
    -- The blanks that the reader skips are the blanks of the header.
    obtain ⟨ws, hws, hwsa⟩ := exists_blanks_append_skipBlanks a
    obtain ⟨ws', hws', hwsb⟩ := exists_blanks_append_skipBlanks b
    obtain ⟨q, hq, hqc⟩ := afterQuote?_eq_some_iff.1 hc
    obtain ⟨q', hq', hqr⟩ := afterQuote?_eq_some_iff.1 hr
    refine ⟨_, IsHeader.intro hws hws' hq hq', ?_⟩
    rw [eq_append_of_afterFront? ha, hwsa, eq_append_of_afterFront? hb, hwsb, hqc,
      eq_append_of_afterFront? hd, hqr]
    simp
  · rintro ⟨_, ⟨hws, hws', hq, hq'⟩, rfl⟩
    rename_i ws ws' q q'
    have hparen := skipBlanks_append hws (c := '(') (by decide)
      (ws' ++ q :: (name ++ q' :: rest))
    have hquote := skipBlanks_append hws' (isBlank_eq_false_of_isQuote hq) (name ++ q' :: rest)
    simp only [List.append_assoc, List.cons_append, List.nil_append, afterHeader?,
      afterFront?_append, Option.bind_some, hparen, hquote, afterFront?, if_true,
      afterQuote?_eq_some_iff.2 ⟨q, hq, rfl⟩, afterQuote?_eq_some_iff.2 ⟨q', hq', rfl⟩]

/-- Two headers at the front of one text are the same. -/
theorem IsHeader.unique {keyword name header header' rest rest' : List Char}
    (h : IsHeader keyword name header) (h' : IsHeader keyword name header')
    (heq : header ++ rest = header' ++ rest') : header = header' := by
  have hread : afterHeader? keyword name (header ++ rest) = some rest :=
    afterHeader?_eq_some_iff.2 ⟨header, h, rfl⟩
  have hread' : afterHeader? keyword name (header ++ rest) = some rest' :=
    afterHeader?_eq_some_iff.2 ⟨header', h', heq⟩
  have hrest : rest = rest' := Option.some.inj (hread.symm.trans hread')
  rw [hrest] at heq
  exact List.append_cancel_right heq

/-! ## Headers do not overlap -/

/-- The letter a keyword begins with. -/
def TargetKind.initial : TargetKind → Char
  | objectList => 'O'
  | library => 'L'

theorem TargetKind.keyword_eq_cons (kind : TargetKind) :
    ∃ letters, kind.keyword.toList = kind.initial :: letters ∧ kind.initial ∉ letters ∧
      ∀ c ∈ kind.keyword.toList, isWord c = true := by
  cases kind with
  | objectList => exact ⟨"bjectList".toList, rfl, by decide, by decide⟩
  | library => exact ⟨"ibrary".toList, rfl, by decide, by decide⟩

/-- The first character of a text that is a run of `xs` characters before `c`. -/
private theorem head_cases (xs : List Char) {ys zs ws : List Char} {c d : Char}
    (h : xs ++ c :: ys = zs ++ d :: ws) : ∃ e, (e ∈ xs ∨ e = c) ∧ (e ∈ zs ∨ e = d) := by
  cases xs with
  | nil =>
    cases zs with
    | nil => exact ⟨c, .inr rfl, .inr (List.cons.inj h).1⟩
    | cons z zs => exact ⟨z, .inr (List.cons.inj h).1.symm, .inl List.mem_cons_self⟩
  | cons x xs =>
    cases zs with
    | nil => exact ⟨x, .inl List.mem_cons_self, .inr (List.cons.inj h).1⟩
    | cons z zs =>
      exact ⟨x, .inl List.mem_cons_self, .inl ((List.cons.inj h).1 ▸ List.mem_cons_self)⟩

/-- A character that is not in the front of a text is in the rest. -/
theorem split_of_not_mem {α : Type} {xs ys us vs : List α} {c : α} (hc : c ∉ xs)
    (h : xs ++ ys = us ++ c :: vs) : ∃ ws, us = xs ++ ws ∧ ys = ws ++ c :: vs := by
  rcases List.append_eq_append_iff.1 h with ⟨as, hus, hys⟩ | ⟨bs, hxs, hvs⟩
  · exact ⟨as, hus, hys⟩
  · cases bs with
    | nil => exact ⟨[], by simpa using hxs.symm, by simpa using hvs.symm⟩
    | cons b bs =>
      have hb : c = b := (List.cons.inj hvs).1
      exact absurd (hb ▸ hxs ▸ List.mem_append_right us List.mem_cons_self) hc

/-- After the characters of a name and a quote no keyword with its parenthesis begins. -/
private theorem name_quote_ne_keyword {kind : TargetKind} {cs rest ws tail : List Char} {q : Char}
    (hcs : ∀ c ∈ cs, Launcher.isTargetChar c = true) (hq : isQuote q = true)
    (hws : ∀ c ∈ ws, isBlank c = true) :
    cs ++ q :: rest ≠ kind.keyword.toList ++ (ws ++ '(' :: tail) := by
  intro h
  obtain ⟨_, _, _, hword⟩ := kind.keyword_eq_cons
  -- Either way a character of a name, or the quote, would be a blank or a parenthesis.
  have hclash : ∀ c, (c ∈ cs ∨ c = q) → (c ∈ ws ∨ c = '(') → False := by
    rintro c (hc | rfl) (hd | rfl)
    · rcases Launcher.isTargetChar_cases (hcs c hc) with hw | rfl | rfl
      · cases (isBlank_eq_false_of_isWord hw).symm.trans (hws c hd)
      · exact absurd (hws '.' hd) (by decide)
      · exact absurd (hws '-' hd) (by decide)
    · exact absurd (hcs '(' hc) (by decide)
    · cases (isBlank_eq_false_of_isQuote hq).symm.trans (hws c hd)
    · exact absurd hq (by decide)
  rcases List.append_eq_append_iff.1 h with ⟨as, hkey, hrest⟩ | ⟨as, hname, hrest⟩
  · cases as with
    | nil =>
      obtain ⟨c, hc, hd⟩ := head_cases [] hrest
      exact hclash c (.inr (hc.resolve_left List.not_mem_nil)) hd
    | cons a as =>
      have hmem : q ∈ kind.keyword.toList := by
        rw [hkey, (List.cons.inj hrest).1]; exact List.mem_append_right cs List.mem_cons_self
      cases (isWord_eq_false_of_isQuote hq).symm.trans (hword q hmem)
  · obtain ⟨c, hc, hd⟩ := head_cases _ hrest.symm
    refine hclash c (hc.imp_left fun hmem => ?_) hd
    rw [hname]; exact List.mem_append_right _ hmem

/-- Past its start, a header holds the initial of its keyword only in its name. -/
private theorem IsHeader.initial_in_name {kind : TargetKind} {name front back : List Char}
    (h : IsHeader kind.keyword.toList name (front ++ kind.initial :: back)) (hfront : front ≠ []) :
    ∃ cs q, isQuote q = true ∧ (∀ c ∈ cs, c ∈ name) ∧ kind.initial :: back = cs ++ [q] := by
  obtain ⟨letters, hkey, hletters, hword⟩ := kind.keyword_eq_cons
  have hinitial : isWord kind.initial = true := hword _ (by rw [hkey]; exact List.mem_cons_self)
  generalize hheader : front ++ kind.initial :: back = header at h
  obtain ⟨hws, hws', hq, hq'⟩ := h
  rename_i ws ws' q q'
  -- Between its first character and the name a header has no other initial.
  have hnot : kind.initial ∉ letters ++ (ws ++ '(' :: (ws' ++ [q])) := by
    simp only [List.mem_append, List.mem_cons, List.not_mem_nil, or_false, not_or]
    refine ⟨hletters, fun hmem => ?_, fun hc => ?_, fun hmem => ?_, fun hc => ?_⟩
    · cases (isWord_eq_false_of_isBlank (hws _ hmem)).symm.trans hinitial
    · exact absurd (hc ▸ hinitial) (by decide)
    · cases (isWord_eq_false_of_isBlank (hws' _ hmem)).symm.trans hinitial
    · rw [hc, isWord_eq_false_of_isQuote hq] at hinitial
      cases hinitial
  obtain ⟨f, front, rfl⟩ := List.exists_cons_of_ne_nil hfront
  rw [hkey, List.cons_append, List.cons_append, List.cons.injEq] at hheader
  have hsplit : letters ++ (ws ++ '(' :: (ws' ++ [q])) ++ (name ++ [q']) =
      front ++ kind.initial :: back := by
    rw [hheader.2]; simp
  obtain ⟨front', rfl, htail⟩ := split_of_not_mem hnot hsplit
  rcases List.append_eq_append_iff.1 htail with ⟨as, _, hlast⟩ | ⟨cs, hcs, hback⟩
  · -- The quote after the name would be the keyword's initial.
    have hq'' : q' = kind.initial := by
      cases as with
      | nil => exact (List.cons.inj hlast).1
      | cons a as => simp at hlast
    rw [← hq'', isWord_eq_false_of_isQuote hq'] at hinitial
    cases hinitial
  · exact ⟨cs, q', hq', fun c hc => hcs ▸ List.mem_append_right _ hc, hback⟩

/-- No header begins inside another one of the same kind. -/
theorem afterHeader?_inside {kind : TargetKind} {name front back : List Char}
    (hname : ∀ c ∈ name, Launcher.isTargetChar c = true)
    (h : IsHeader kind.keyword.toList name (front ++ back)) (hfront : front ≠ [])
    (hback : back ≠ []) (rest : List Char) :
    afterHeader? kind.keyword.toList name (back ++ rest) = none := by
  rw [Option.eq_none_iff_forall_ne_some]
  intro rest' hread
  obtain ⟨_, ⟨hvs, _, _, _⟩, heq⟩ := afterHeader?_eq_some_iff.1 hread
  obtain ⟨letters, hkey, _, _⟩ := kind.keyword_eq_cons
  obtain ⟨back', rfl⟩ : ∃ back', back = kind.initial :: back' := by
    obtain ⟨b, back, rfl⟩ := List.exists_cons_of_ne_nil hback
    rw [hkey, List.cons_append, List.cons_append, List.cons_append, List.cons.injEq] at heq
    exact ⟨back, by rw [heq.1]⟩
  -- So the second header begins in the name of the first, and would run over its closing quote.
  obtain ⟨cs, q, hq, hcs, hend⟩ := h.initial_in_name hfront
  rw [hend, List.append_assoc, List.singleton_append, List.append_assoc, List.append_assoc,
    List.cons_append] at heq
  exact name_quote_ne_keyword (fun c hc => hname c (hcs c hc)) hq hvs heq

/-! ## The search at every position -/

/-- The length in bytes of the header that a text begins with. -/
def headerBytes? (keyword name text : List Char) : Option Nat :=
  (afterHeader? keyword name text).map fun rest => byteLength text - byteLength rest

theorem headerBytes?_eq_some_iff {keyword name text : List Char} {n : Nat} :
    headerBytes? keyword name text = some n ↔
      ∃ header rest, IsHeader keyword name header ∧ text = header ++ rest ∧
        n = byteLength header := by
  simp only [headerBytes?, Option.map_eq_some_iff, afterHeader?_eq_some_iff]
  constructor
  · rintro ⟨rest, ⟨header, hheader, rfl⟩, rfl⟩
    exact ⟨header, rest, hheader, rfl, by simp⟩
  · rintro ⟨header, rest, hheader, rfl, rfl⟩
    exact ⟨rest, ⟨header, hheader, rfl⟩, by simp⟩

/-- The declaration whose header begins with the given cell, `before` being the character before
    it and `offset` its offset. -/
def declarationAt? (kind : TargetKind) (name : List Char) (before : Option Char) (offset : Nat)
    (cell : Cell) (cells : List Cell) : Option Header :=
  if isWordBoundary before (some cell.1) = true ∧ cell.2 = .code then
    (headerBytes? kind.keyword.toList name (cell.1 :: cells.map Prod.fst)).map
      fun n => ⟨kind, offset, offset + n⟩
  else none

/-- The declarations' headers in a text, with a header tried at every position. -/
def declarationsFrom (kind : TargetKind) (name : List Char) :
    (before : Option Char) → (offset : Nat) → List Cell → List Header
  | _, _, [] => []
  | before, offset, cell :: cells =>
    (declarationAt? kind name before offset cell cells).toList ++
      declarationsFrom kind name (some cell.1) (offset + cell.1.utf8Size) cells

/-- What the search finds where it is not inside a header already found. -/
private theorem headersFrom_found {kind : TargetKind} {name : List Char} {before : Option Char}
    {offset : Nat} {c : Char} {region : Region} {cs rest : List Char} {regions : List Region}
    (hboundary : isWordBoundary before (some c) = true)
    (hread : afterHeader? kind.keyword.toList name (c :: cs) = some rest) :
    headersFrom kind name before 0 offset (c :: cs) (region :: regions) =
      (if region = .code then [⟨kind, offset, offset + (byteLength (c :: cs) - byteLength rest)⟩]
        else []) ++
      headersFrom kind name (some c) ((c :: cs).length - rest.length - 1) (offset + c.utf8Size)
        cs regions := by
  have hbytes : byteLength ((c :: cs).take ((c :: cs).length - rest.length)) =
      byteLength (c :: cs) - byteLength rest := by
    obtain ⟨header, _, heq⟩ := afterHeader?_eq_some_iff.1 hread
    rw [heq]; simp
  simp only [headersFrom, hboundary, if_true, hread, hbytes]
  split <;> rfl

/-- A header that the search finds is one, whatever the name, and begins in code. -/
theorem exists_of_mem_headersFrom {kind : TargetKind} {name : List Char} {header : Header}
    {cells : List Cell} {before : Option Char} {skip offset : Nat}
    (h : header ∈ headersFrom kind name before skip offset (cells.map Prod.fst)
      (cells.map Prod.snd)) :
    ∃ us c vs, cells = us ++ (c, .code) :: vs ∧
      ∃ n, headerBytes? kind.keyword.toList name (c :: vs.map Prod.fst) = some n ∧
        header = ⟨kind, offset + cellBytes us, offset + cellBytes us + n⟩ := by
  induction cells generalizing before skip offset with
  | nil => cases skip <;> exact absurd h List.not_mem_nil
  | cons cell cells ih =>
    obtain ⟨c, region⟩ := cell
    -- A header found further on is found behind this cell.
    have hlater : ∀ skip', header ∈ headersFrom kind name (some c) skip' (offset + c.utf8Size)
        (cells.map Prod.fst) (cells.map Prod.snd) →
        ∃ us d vs, (c, region) :: cells = us ++ (d, .code) :: vs ∧
          ∃ n, headerBytes? kind.keyword.toList name (d :: vs.map Prod.fst) = some n ∧
            header = ⟨kind, offset + cellBytes us, offset + cellBytes us + n⟩ := by
      intro skip' hmem
      obtain ⟨us, d, vs, rfl, n, hn, rfl⟩ := ih hmem
      exact ⟨(c, region) :: us, d, vs, rfl, n, hn, by simp [Nat.add_assoc]⟩
    simp only [List.map_cons] at h
    cases skip with
    | succ skip =>
      rw [headersFrom] at h
      exact hlater skip h
    | zero =>
      by_cases hboundary : isWordBoundary before (some c) = true
      · cases hread : afterHeader? kind.keyword.toList name (c :: cells.map Prod.fst) with
        | none =>
          simp only [headersFrom, hboundary, if_true, hread] at h
          exact hlater 0 h
        | some rest =>
          rw [headersFrom_found hboundary hread, List.mem_append] at h
          rcases h with h | h
          · split at h
            · rename_i hcode
              rw [List.mem_singleton] at h
              refine ⟨[], c, cells, by rw [hcode]; rfl, _, by rw [headerBytes?, hread]; rfl, ?_⟩
              rw [h]
              simp
            · exact absurd h List.not_mem_nil
          · exact hlater _ h
      · simp only [headersFrom, hboundary, Bool.false_eq_true, if_false] at h
        exact hlater 0 h

/-- A header that is listed begins in code, by the cells of the text around it; whatever the name. -/
theorem exists_cells_of_mem_headers {text name : List Char} {kinds : List TargetKind}
    {header : Header} (h : header ∈ headers text name kinds) :
    ∃ us c vs, cellsFrom none .start text = us ++ (c, .code) :: vs ∧
      ∃ n, headerBytes? header.kind.keyword.toList name (c :: vs.map Prod.fst) = some n ∧
        header = ⟨header.kind, cellBytes us, cellBytes us + n⟩ := by
  obtain ⟨kind, -, hmem⟩ := List.mem_flatMap.1 h
  have hfound : header ∈ headersFrom kind name none 0 0 ((cellsFrom none .start text).map Prod.fst)
      ((cellsFrom none .start text).map Prod.snd) := by
    rw [map_fst_cellsFrom, map_snd_cellsFrom]
    exact hmem
  obtain ⟨us, c, vs, hcells, n, hn, rfl⟩ := exists_of_mem_headersFrom hfound
  exact ⟨us, c, vs, hcells, n, hn, by simp⟩

/-- No header begins among the characters that belong to a header already found. -/
private theorem afterHeader?_of_skipped {kind : TargetKind} {name : List Char}
    (hname : ∀ c ∈ name, Launcher.isTargetChar c = true) {c : Char} {us vs rest : List Char}
    (hread : afterHeader? kind.keyword.toList name (c :: (us ++ vs)) = some rest)
    (hlen : us.length < (c :: (us ++ vs)).length - rest.length - 1) :
    afterHeader? kind.keyword.toList name vs = none := by
  obtain ⟨header, hheader, heq⟩ := afterHeader?_eq_some_iff.1 hread
  have hlength : (c :: (us ++ vs)).length = header.length + rest.length := by
    rw [heq, List.length_append]
  -- What is skipped ends before the header does.
  have hprefix : (c :: us) <+: header := by
    refine List.prefix_of_prefix_length_le ⟨vs, heq⟩ (List.prefix_append header rest) ?_
    rw [List.length_cons]
    omega
  obtain ⟨back, rfl⟩ := hprefix
  have hback : back ≠ [] := by
    intro hnil
    rw [hnil, List.append_nil] at hlength
    simp only [List.length_cons] at hlength hlen
    omega
  have hvs : vs = back ++ rest := by
    simpa using heq
  rw [hvs]
  exact afterHeader?_inside hname hheader (List.cons_ne_nil c us) hback rest

/-- The search is the search at every position, as long as no header begins among the characters
    that it skips. -/
private theorem headersFrom_eq_of_skip {kind : TargetKind} {name : List Char}
    (hname : ∀ c ∈ name, Launcher.isTargetChar c = true) (cells : List Cell) :
    ∀ (before : Option Char) (skip offset : Nat),
      (∀ us vs, cells = us ++ vs → us.length < skip →
        afterHeader? kind.keyword.toList name (vs.map Prod.fst) = none) →
      headersFrom kind name before skip offset (cells.map Prod.fst) (cells.map Prod.snd) =
        declarationsFrom kind name before offset cells := by
  induction cells with
  | nil => intro before skip offset _; cases skip <;> rfl
  | cons cell cells ih =>
    intro before skip offset hskip
    obtain ⟨c, region⟩ := cell
    have hfresh : ∀ us vs, cells = us ++ vs → us.length < 0 →
        afterHeader? kind.keyword.toList name (vs.map Prod.fst) = none :=
      fun us vs _ hlen => absurd hlen (Nat.not_lt_zero _)
    rw [declarationsFrom, declarationAt?, headerBytes?]
    simp only [List.map_cons]
    cases skip with
    -- A skipped character begins no header, so trying one there finds nothing.
    | succ skip =>
      have hnone := hskip [] ((c, region) :: cells) rfl (by simp)
      simp only [List.map_cons] at hnone
      simp only [headersFrom, hnone, Option.map_none, ite_self, Option.toList_none,
        List.nil_append]
      exact ih _ _ _ fun us vs hus hlen =>
        hskip ((c, region) :: us) vs (by rw [hus]; rfl) (by simpa using hlen)
    | zero =>
      by_cases hboundary : isWordBoundary before (some c) = true
      · cases hread : afterHeader? kind.keyword.toList name (c :: cells.map Prod.fst) with
        | none =>
          simp only [headersFrom, hboundary, hread, Option.map_none, ite_self,
            Option.toList_none, List.nil_append]
          exact ih _ _ _ hfresh
        -- A header is found, and the search skips to its end.
        | some rest =>
          rw [headersFrom_found hboundary hread]
          congr 1
          · simp only [hboundary, true_and, Option.map_some]
            split <;> rfl
          · refine ih _ _ _ fun us vs hus hlen => ?_
            subst hus
            rw [List.map_append] at hread hlen
            exact afterHeader?_of_skipped hname hread (by simpa using hlen)
      · simp only [headersFrom, hboundary, Bool.false_eq_true, false_and, if_false,
          Option.toList_none, List.nil_append]
        exact ih _ _ _ hfresh

/-- The search resumes after each header it finds, and still finds every declaration. -/
theorem headersFrom_eq_declarationsFrom (kind : TargetKind) {name : List Char}
    (hname : ∀ c ∈ name, Launcher.isTargetChar c = true) (before : Option Char) (offset : Nat)
    (cells : List Cell) :
    headersFrom kind name before 0 offset (cells.map Prod.fst) (cells.map Prod.snd) =
      declarationsFrom kind name before offset cells :=
  headersFrom_eq_of_skip hname cells before 0 offset fun _ _ _ hlen =>
    absurd hlen (Nat.not_lt_zero _)

/-- The headers of a text, as they are found at every position of its cells. -/
theorem headers_eq_declarationsFrom {name : List Char}
    (hname : ∀ c ∈ name, Launcher.isTargetChar c = true) (text : List Char)
    (kinds : List TargetKind) :
    headers text name kinds =
      kinds.flatMap fun kind => declarationsFrom kind name none 0 (cellsFrom none .start text) := by
  have hkind : ∀ kind : TargetKind, headersFrom kind name none 0 0 text (classify text) =
      declarationsFrom kind name none 0 (cellsFrom none .start text) := by
    intro kind
    have h := headersFrom_eq_declarationsFrom kind hname none 0 (cellsFrom none .start text)
    rwa [map_fst_cellsFrom, map_snd_cellsFrom] at h
  simp only [headers, hkind]

/-- A declaration found here begins here. -/
theorem mem_declarationAt?_iff {kind : TargetKind} {name : List Char} {before : Option Char}
    {offset : Nat} {cell : Cell} {cells : List Cell} {header : Header} :
    declarationAt? kind name before offset cell cells = some header ↔
      isWordBoundary before (some cell.1) = true ∧ cell.2 = .code ∧
        ∃ n, headerBytes? kind.keyword.toList name (cell.1 :: cells.map Prod.fst) = some n ∧
          header = ⟨kind, offset, offset + n⟩ := by
  rw [declarationAt?]
  split
  · rename_i h
    simp only [h.1, h.2, true_and, Option.map_eq_some_iff, eq_comm (a := header)]
  · rename_i h
    constructor
    · intro hnone; cases hnone
    · rintro ⟨hboundary, hcode, _⟩; exact absurd ⟨hboundary, hcode⟩ h

/-- What the search finds: the headers whose keyword stands in code, at a word boundary. -/
theorem mem_declarationsFrom_iff {kind : TargetKind} {name : List Char} {before : Option Char}
    {offset : Nat} {cells : List Cell} {header : Header} :
    header ∈ declarationsFrom kind name before offset cells ↔
      ∃ us c vs, cells = us ++ (c, .code) :: vs ∧
        isWordBoundary ((us.map Prod.fst).getLast?.or before) (some c) = true ∧
        ∃ n, headerBytes? kind.keyword.toList name (c :: vs.map Prod.fst) = some n ∧
          header = ⟨kind, offset + cellBytes us, offset + cellBytes us + n⟩ := by
  induction cells generalizing before offset with
  | nil => simp [declarationsFrom]
  | cons cell cells ih =>
    rw [declarationsFrom, List.mem_append, Option.mem_toList, mem_declarationAt?_iff, ih]
    constructor
    · rintro (⟨hboundary, hcode, n, hn, rfl⟩ | ⟨us, c, vs, rfl, hboundary, n, hn, rfl⟩)
      · exact ⟨[], cell.1, cells, by rw [← hcode]; rfl, by simpa using hboundary, n, hn, by simp⟩
      · refine ⟨cell :: us, c, vs, rfl, ?_, n, hn, by simp [Nat.add_assoc]⟩
        rw [List.map_cons, List.getLast?_cons]
        cases h : (us.map Prod.fst).getLast? with
        | none => simpa [h] using hboundary
        | some d => simpa [h] using hboundary
    · rintro ⟨us, c, vs, hcells, hboundary, n, hn, rfl⟩
      cases us with
      | nil =>
        simp only [List.nil_append, List.cons.injEq] at hcells
        obtain ⟨rfl, rfl⟩ := hcells
        exact .inl ⟨by simpa using hboundary, rfl, n, hn, by simp⟩
      | cons u us =>
        simp only [List.cons_append, List.cons.injEq] at hcells
        obtain ⟨rfl, rfl⟩ := hcells
        refine .inr ⟨us, c, vs, rfl, ?_, n, hn, by simp [Nat.add_assoc]⟩
        rw [List.map_cons, List.getLast?_cons] at hboundary
        cases h : (us.map Prod.fst).getLast? with
        | none => simpa [h] using hboundary
        | some d => simpa [h] using hboundary

/-- The search finds declarations from left to right. -/
theorem pairwise_declarationsFrom (kind : TargetKind) (name : List Char) (before : Option Char)
    (offset : Nat) (cells : List Cell) :
    (declarationsFrom kind name before offset cells).Pairwise fun a b => a.start < b.start := by
  induction cells generalizing before offset with
  | nil => exact List.Pairwise.nil
  | cons cell cells ih =>
    rw [declarationsFrom]
    cases h : declarationAt? kind name before offset cell cells with
    | none => exact ih _ _
    | some header =>
      obtain ⟨_, _, n, _, rfl⟩ := mem_declarationAt?_iff.1 h
      refine List.Pairwise.cons (fun other hother => ?_) (ih _ _)
      obtain ⟨us, c, vs, _, _, m, _, rfl⟩ := mem_declarationsFrom_iff.1 hother
      have := cell.1.utf8Size_pos
      simp only
      omega

end Description

end SoloBuild
