import Mathlib.Data.List.Basic
import SoloBuild.Proofs.LocateAppend
import SoloBuild.SingleFile.Config

/-!
# What a transient config declares

A transient config is a notice, the solution's description without its includes, a rule that sets
the target off, and the target. The notice and the rule are comments, and the rule begins on a line
of its own, so the target is read as if it stood alone, unless the description ends in a literal.

## Key results

- `readsAs_notice`, `readsAs_ruleLines`: what stands around the description is comment
- `headerBytes?_append_newline_slash`: no header reaches into the line of a rule
- `locate_compose_eq_move`: locating in a config is locating in its target, moved behind its front
- `locate_compose`: the config gives the single-file target back
-/

namespace SoloBuild.Description

open Text

/-- A character that a header can hold: of its keyword or its name, a blank, a parenthesis or a
    quote. -/
theorem IsHeader.mem_cases {kind : TargetKind} {name header : List Char} {c : Char}
    (h : IsHeader kind.keyword.toList name header) (hc : c ∈ header) :
    isWord c = true ∨ c ∈ name ∨ isBlank c = true ∨ c = '(' ∨ isQuote c = true := by
  obtain ⟨_, _, _, hword⟩ := kind.keyword_eq_cons
  obtain ⟨hws, hws', hq, hq'⟩ := h
  simp only [List.mem_append, List.mem_cons, List.not_mem_nil, or_false] at hc
  rcases hc with hc | hc | rfl | hc | rfl | hc | rfl
  · exact .inl (hword c hc)
  · exact .inr (.inr (.inl (hws c hc)))
  · exact .inr (.inr (.inr (.inl rfl)))
  · exact .inr (.inr (.inl (hws' c hc)))
  · exact .inr (.inr (.inr (.inr hq)))
  · exact .inr (.inl hc)
  · exact .inr (.inr (.inr (.inr hq')))

/-- A header ends with a quote. -/
theorem IsHeader.getLast?_eq {keyword name header : List Char} (h : IsHeader keyword name header) :
    ∃ q, isQuote q = true ∧ header.getLast? = some q := by
  obtain ⟨_, _, _, hq'⟩ := h
  exact ⟨_, hq', by simp [List.getLast?_append, List.getLast?_cons]⟩

/-- A header holds no slash. -/
theorem IsHeader.slash_not_mem {kind : TargetKind} {name header : List Char}
    (hname : ∀ c ∈ name, Launcher.isTargetChar c = true)
    (h : IsHeader kind.keyword.toList name header) : '/' ∉ header := by
  intro hmem
  rcases h.mem_cases hmem with hc | hc | hc | hc | hc
  · exact absurd hc (by decide)
  · exact absurd (hname '/' hc) (by decide)
  · exact absurd hc (by decide)
  · exact absurd hc (by decide)
  · exact absurd hc (by decide)

/-- No header begins before a line that begins with a slash and ends in that line. -/
theorem headerBytes?_append_newline_slash {kind : TargetKind} {name : List Char}
    (hname : ∀ c ∈ name, Launcher.isTargetChar c = true) (xs ys : List Char) :
    headerBytes? kind.keyword.toList name (xs ++ '\n' :: '/' :: ys) =
      headerBytes? kind.keyword.toList name xs := by
  ext n
  rw [headerBytes?_eq_some_iff, headerBytes?_eq_some_iff]
  constructor
  · rintro ⟨header, rest, hheader, heq, rfl⟩
    rcases List.append_eq_append_iff.1 heq with ⟨as, hlong, hrest⟩ | ⟨bs, rfl, _⟩
    · -- What the header takes of the line would end with a line break or hold a slash.
      match as with
      | [] => exact ⟨header, [], hheader, by simpa using hlong.symm, rfl⟩
      | [a] =>
        obtain ⟨q, hq, hlast⟩ := hheader.getLast?_eq
        rw [hlong, List.getLast?_append, List.getLast?_singleton, Option.some_or,
          Option.some.injEq] at hlast
        rw [← hlast, ← (List.cons.inj hrest).1] at hq
        exact absurd hq (by decide)
      | a :: b :: as =>
        have hb : '/' = b := (List.cons.inj (List.cons.inj hrest).2).1
        have hmem : '/' ∈ header := by
          rw [hlong, hb]
          exact List.mem_append_right xs (List.mem_cons_of_mem a List.mem_cons_self)
        exact absurd hmem (hheader.slash_not_mem hname)
    · exact ⟨header, bs, hheader, rfl, rfl⟩
  · rintro ⟨header, rest, hheader, rfl, rfl⟩
    exact ⟨header, rest ++ '\n' :: '/' :: ys, hheader, by rw [List.append_assoc], rfl⟩

end SoloBuild.Description

namespace SoloBuild.SingleFile

open Text Description

/-! ## The parts of a config -/

/-- The comment that announces a target, between two rules. -/
def ruleLines (name : List Char) : List Char :=
  rule ++ "\n// ".toList ++ name ++ " target\n".toList ++ rule ++ ['\n']

/-- What stands between a description and the target of a config. -/
def separator (name : List Char) : List Char :=
  '\n' :: (ruleLines name ++ ['\n'])

/-- What stands before the target of a config. -/
def composeFront (description name : List Char) : List Char :=
  notice ++ (description ++ separator name)

theorem compose_eq (solution : Document) (name target : String) (s : Settings) :
    compose solution name target s =
      String.ofList (composeFront (filterIncludes solution.text.toList s.globalInclude.toList)
        name.toList) ++ target := by
  rw [← String.toList_inj]
  simp [compose, composeFront, separator, ruleLines]

/-- A line comment with its line break is comment. -/
theorem readsAs_commentLine {text : List Char} (h : '\n' ∉ text) (next : Option Char) :
    ReadsAs next .start ('/' :: '/' :: (text ++ ['\n'])) .comment .start := by
  have hrest : ReadsAs next .comment (text ++ ['\n']) .comment .start :=
    (readsAs_comment h _).append
      (ReadsAs.cons (by simp [ReadState.step, ReadState.start]) ReadsAs.nil)
  have hopen : ReadState.start.step (some '/') '/' = (.comment, .comment) := by
    simp [ReadState.step, ReadState.start]
  exact ReadsAs.cons hopen (ReadsAs.cons (by simp [ReadState.step]) hrest)

/-- The text is a line comment with its line break. -/
def isCommentLine (line : List Char) : Bool :=
  ['/', '/'].isPrefixOf line && line.getLast? == some '\n' && !line.dropLast.contains '\n'

theorem readsAs_of_isCommentLine {line : List Char} (h : isCommentLine line = true)
    (next : Option Char) : ReadsAs next .start line .comment .start := by
  simp only [isCommentLine, Bool.and_eq_true, beq_iff_eq, Bool.not_eq_true',
    List.contains_eq_mem, decide_eq_false_iff_not, List.isPrefixOf_iff_prefix] at h
  obtain ⟨⟨⟨rest, rfl⟩, hlast⟩, hmem⟩ := h
  rcases List.eq_nil_or_concat rest with rfl | ⟨text, c, rfl⟩
  · exact absurd hlast (by decide)
  · have hsplit : ['/', '/'] ++ text.concat c = '/' :: '/' :: text ++ [c] := by simp
    rw [hsplit, List.getLast?_concat, Option.some.injEq] at hlast
    rw [hsplit, List.dropLast_concat, List.mem_cons, List.mem_cons, not_or, not_or] at hmem
    rw [hsplit, hlast]
    exact readsAs_commentLine hmem.2.2 next

theorem readsAs_notice (next : Option Char) :
    ReadsAs next .start notice .comment .start := by
  have hsplit : ∀ a b c d e : String, (a ++ b ++ c ++ d ++ e).toList =
      (a.toList ++ (b.toList ++ c.toList)) ++ (d.toList ++ e.toList) := by
    intro a b c d e
    simp only [String.toList_append, List.append_assoc]
  -- The notice is three comment lines; its parts are named, never evaluated as a whole.
  have hnotice : notice = _ := hsplit _ _ _ _ _
  rw [hnotice]
  exact (readsAs_of_isCommentLine (by decide +kernel) _).append
    ((readsAs_of_isCommentLine (by decide +kernel) _).append
      (readsAs_of_isCommentLine (by decide +kernel) _))

theorem readsAs_ruleLines {name : List Char} (h : '\n' ∉ name) (next : Option Char) :
    ReadsAs next .start (ruleLines name) .comment .start := by
  have hsplit : ruleLines name =
      ('/' :: '/' :: (List.replicate 113 '=' ++ ['\n'])) ++
        (('/' :: '/' :: ((' ' :: name ++ " target".toList) ++ ['\n'])) ++
          ('/' :: '/' :: (List.replicate 113 '=' ++ ['\n']))) := by
    have hopen : "\n// ".toList = ['\n', '/', '/', ' '] := rfl
    have hclose : " target\n".toList = " target".toList ++ ['\n'] := rfl
    rw [ruleLines, rule, hopen, hclose]
    simp only [List.append_assoc, List.cons_append, List.nil_append]
  have hrule : '\n' ∉ List.replicate 113 '=' := by
    simp
  have hname : '\n' ∉ ' ' :: name ++ " target".toList := by
    simp [h]
  rw [hsplit]
  exact (readsAs_commentLine hrule _).append
    ((readsAs_commentLine hname _).append (readsAs_commentLine hrule _))

/-- A line break leads to the start of a line, unless it is met in a literal. -/
theorem step_newline {state : ReadState} (h : state.isLiteral = false) (next : Option Char) :
    (state.step next '\n').2 = .start := by
  cases state with
  | code lineStart => simp [ReadState.step, ReadState.start]
  | literal quote escaped => cases h
  | comment => simp [ReadState.step, ReadState.start]

/-- The character before the start of a line is no word character. -/
theorem isWord_eq_false_of_step_start {state : ReadState} {next : Option Char} {c : Char}
    (h : (state.step next c).2 = .start) : isWord c = false := by
  have hnewline : c = '\n' → isWord c = false := by
    rintro rfl
    decide
  cases state with
  | code lineStart =>
    rcases ReadState.step_code_cases lineStart next c with ⟨hstep, _⟩ | hstep | ⟨_, hc⟩ | hstep
    · rw [hstep] at h; cases h
    · rw [hstep] at h; cases h
    · exact hnewline hc
    · -- Only blanks keep the start of a line.
      rw [hstep] at h
      simp only [ReadState.start, ReadState.code.injEq, Bool.and_eq_true] at h
      exact isWord_eq_false_of_isBlank (isBlank_of_isIndent h.2)
  | literal quote escaped =>
    rcases ReadState.step_literal_cases quote escaped next c with ⟨_, hstep⟩ | hstep
    · rw [hstep] at h; cases h
    · rw [hstep] at h; cases h
  | comment =>
    rcases ReadState.step_comment_cases next c with ⟨_, hc⟩ | hstep
    · exact hnewline hc
    · rw [hstep] at h; cases h

/-- The separator leads to the start of a line. -/
theorem after_separator {state : ReadState} {name : List Char} (hname : '\n' ∉ name)
    (hliteral : state.isLiteral = false) (next : Option Char) :
    state.after next (separator name) = .start := by
  rw [separator, ReadState.after, step_newline hliteral, ReadState.after_append,
    List.head?_singleton, Option.some_or, (readsAs_ruleLines hname _).after]
  rfl

/-- The separator holds no initial of a keyword in code. -/
theorem initial_not_mem_separator {state : ReadState} {name : List Char} (hname : '\n' ∉ name)
    (hliteral : state.isLiteral = false) (next : Option Char) (kind : TargetKind) :
    (kind.initial, Region.code) ∉ cellsFrom next state (separator name) := by
  have hne : kind.initial ≠ '\n' := by cases kind <;> decide
  have hrule := readsAs_ruleLines hname (some '\n')
  rw [separator, cellsFrom_cons, step_newline hliteral, cellsFrom_append, List.head?_singleton,
    Option.some_or, hrule.cells, hrule.after, cellsFrom_cons]
  simp [hne]

/-- The front of a config leads to where a description begins. -/
theorem after_composeFront {description name : List Char} (hname : '\n' ∉ name)
    (hliteral : (ReadState.start.after none description).isLiteral = false)
    (next : Option Char) : ReadState.start.after next (composeFront description name) = .start := by
  have hnext : (some '\n' : Option Char) ≠ some '/' := by decide
  rw [composeFront, ReadState.after_append, (readsAs_notice _).after, ReadState.after_append]
  simp only [separator, List.head?_cons, Option.some_or, ReadState.after_of_ne_slash hnext]
  exact after_separator hname hliteral next

/-- A config by its parts. -/
theorem cellsFrom_compose {description name : List Char} (hname : '\n' ∉ name)
    (hliteral : (ReadState.start.after none description).isLiteral = false) (target : List Char) :
    cellsFrom none .start (composeFront description name ++ target) =
      cellsFrom (description.head?.or (some '\n')) .start notice ++
        (cellsFrom none .start description ++
          (cellsFrom target.head? (ReadState.start.after none description) (separator name) ++
            cellsFrom none .start target)) := by
  have hnext : (some '\n' : Option Char) ≠ some '/' := by decide
  have hhead : ((description ++ separator name) ++ target).head?.or none =
      description.head?.or (some '\n') := by
    cases description <;> rfl
  have hsep : (separator name ++ target).head?.or none = some '\n' := rfl
  rw [composeFront, List.append_assoc, cellsFrom_append, hhead, (readsAs_notice _).after,
    List.append_assoc, cellsFrom_append, hsep, cellsFrom_of_ne_slash hnext,
    ReadState.after_of_ne_slash hnext, cellsFrom_append, Option.or_none,
    after_separator hname hliteral]

/-! ## Locating in a config -/

/-- Where a front leads to the start of a line, what follows has the declarations it has alone. -/
theorem declarationsFrom_of_after_start {next : Option Char} {front : List Char}
    (h : ReadState.start.after next front = .start) (kind : TargetKind) (name : List Char)
    (offset : Nat) (cells : List Cell) :
    declarationsFrom kind name (front.getLast?.or none) offset cells =
      declarationsFrom kind name none offset cells := by
  rcases List.eq_nil_or_concat front with rfl | ⟨text, c, rfl⟩
  · rfl
  · rw [List.concat_eq_append, List.getLast?_concat, Option.some_or]
    rw [List.concat_eq_append, ReadState.after_append] at h
    exact declarationsFrom_of_not_word (isWord_eq_false_of_step_start h) ..

/-- The declarations of a config are those of its target, when its description has none. -/
theorem declarationsFrom_compose {kind : TargetKind} {name description marker : List Char}
    (hname : ∀ c ∈ name, Launcher.isTargetChar c = true) (hmarker : '\n' ∉ marker)
    (hliteral : (ReadState.start.after none description).isLiteral = false)
    (hnone : declarationsFrom kind name none 0 (cellsFrom none .start description) = [])
    (target : List Char) :
    declarationsFrom kind name none 0
        (cellsFrom none .start (composeFront description marker ++ target)) =
      (declarationsFrom kind name none 0 (cellsFrom none .start target)).map
        (Header.move (byteLength (composeFront description marker))) := by
  have hnotice : (kind.initial, Region.code) ∉
      cellsFrom (description.head?.or (some '\n')) .start notice := by
    rw [(readsAs_notice _).cells]
    simp
  have hlast : (separator marker).getLast? = some '\n' := by
    rw [separator, ← List.cons_append, List.getLast?_concat]
  -- No header of the description reaches into the separator.
  have hspan : ∀ us c vs, cellsFrom none .start description = us ++ (c, .code) :: vs →
      headerBytes? kind.keyword.toList name (c :: (vs ++
          (cellsFrom target.head? (ReadState.start.after none description) (separator marker) ++
            cellsFrom none .start target)).map Prod.fst) =
        headerBytes? kind.keyword.toList name (c :: vs.map Prod.fst) := by
    intro us c vs _
    rw [List.map_append, List.map_append, map_fst_cellsFrom, map_fst_cellsFrom]
    exact headerBytes?_append_newline_slash hname (c :: vs.map Prod.fst) _
  -- The notice and the separator are passed over, and the character before each piece that follows
  -- is a line break, so it is searched as it is alone.
  rw [cellsFrom_compose hmarker hliteral, declarationsFrom_of_ne_initial hnotice,
    map_fst_cellsFrom, declarationsFrom_of_after_start (readsAs_notice none).after,
    declarationsFrom_append hspan, ← Nat.add_zero (0 + _), declarationsFrom_move, hnone,
    List.map_nil, List.nil_append,
    declarationsFrom_of_ne_initial (initial_not_mem_separator hmarker hliteral _ kind),
    map_fst_cellsFrom, map_fst_cellsFrom, hlast, Option.some_or,
    declarationsFrom_of_not_word (by decide), ← declarationsFrom_move]
  simp only [cellBytes, map_fst_cellsFrom, composeFront, byteLength_append]
  generalize byteLength notice = n
  rw [show 0 + n + 0 + byteLength description + byteLength (separator marker) =
    n + (byteLength description + byteLength (separator marker)) + 0 by omega]

/-- Locating in a config is locating in its target, when its description ends outside literals and
    has nothing to locate. -/
theorem locate_compose_eq_move {solution : Document} {name marker : String} {s : Settings}
    {kinds : List TargetKind} {path' : Path} {description : List Char}
    (hdescription : filterIncludes solution.text.toList s.globalInclude.toList = description)
    (hname : ∀ c ∈ name.toList, Launcher.isTargetChar c = true) (hmarker : '\n' ∉ marker.toList)
    (hliteral : (ReadState.start.after none description).isLiteral = false)
    (hnone : Document.locate ⟨path', String.ofList description⟩ name kinds =
      .error (.notFound name path')) (target : String) (path : Path) :
    Document.locate ⟨path, compose solution marker target s⟩ name kinds =
      (Document.locate ⟨path, target⟩ name kinds).map
        (TargetNode.move (byteLength (composeFront description marker.toList))) := by
  have hheaders := locate_eq_notFound_iff.1 hnone
  rw [String.toList_ofList, headers_eq_declarationsFrom hname, List.flatMap_eq_nil_iff] at hheaders
  rw [compose_eq, hdescription]
  have hfront := String.toList_ofList (l := composeFront description marker.toList)
  have h := locate_append path (String.ofList (composeFront description marker.toList)) target name
    kinds
  rw [hfront] at h
  refine h (after_composeFront hmarker hliteral _) ?_
  rw [String.toList_append, hfront, headers_eq_declarationsFrom hname,
    headers_eq_declarationsFrom hname, List.map_flatMap]
  exact List.flatMap_congr fun kind hkind =>
    declarationsFrom_compose hname hmarker hliteral (hheaders kind hkind) target.toList

/-- The config of a single-file target gives the target back: it is the one declaration of its
    name, and it ends the config. -/
theorem locate_compose (solution : Document) (target : String) (path : Path) (node : TargetNode)
    (hliteral : (ReadState.start.after none
      (filterIncludes solution.text.toList "globalsettings.bff".toList)).isLiteral = false)
    (hnone : Document.locate
        ⟨path, String.ofList (filterIncludes solution.text.toList "globalsettings.bff".toList)⟩
        "CompileSingleFile" [.objectList] = .error (.notFound "CompileSingleFile" path))
    (htarget : Document.locate ⟨path, target⟩ "CompileSingleFile" [.objectList] = .ok node)
    (hstart : node.start = 0) (hstop : node.stop = byteLength target.toList) :
    let content := compose solution "CompileSingleFile" target {}
    ∃ found, Document.locate ⟨path, content⟩ "CompileSingleFile" [.objectList] = .ok found ∧
      found.text = target ∧ found.kind = node.kind ∧ found.headerLength = node.headerLength ∧
      found.start = byteLength content.toList - byteLength target.toList ∧
      found.stop = byteLength content.toList := by
  intro content
  have hname : ∀ c ∈ "CompileSingleFile".toList, Launcher.isTargetChar c = true := by
    decide +kernel
  have hinclude : filterIncludes solution.text.toList ({} : Settings).globalInclude.toList =
      filterIncludes solution.text.toList "globalsettings.bff".toList := rfl
  have hmarker : '\n' ∉ "CompileSingleFile".toList := by
    decide
  have hlocate := locate_compose_eq_move hinclude hname hmarker hliteral hnone target path
  -- A node that spans its document is the document.
  have htext : node.text = target := by
    have hslice := sliceBytes_pieces [] target.toList []
    rw [text_eq_of_locate htarget, hstart, hstop, ← String.toList_inj, String.toList_ofList]
    simpa using hslice
  have hcontent : byteLength content.toList = byteLength (composeFront
      (filterIncludes solution.text.toList "globalsettings.bff".toList)
      "CompileSingleFile".toList) + byteLength target.toList := by
    rw [← byteLength_append, show content = compose solution "CompileSingleFile" target {} from rfl,
      compose_eq, String.toList_append, String.toList_ofList]
  -- The front is named so that nothing evaluates the notice.
  generalize byteLength (composeFront _ _) = n at hlocate hcontent
  rw [htarget] at hlocate
  refine ⟨node.move n, hlocate, htext, rfl, rfl, ?_, ?_⟩
  · simp only [TargetNode.move, hstart]
    omega
  · simp only [TargetNode.move, hstop]
    omega

/-- A config whose description ends in an open comment, and a target with a blank block. -/
theorem locate_compose_comment :
    ∃ found, Document.locate ⟨⟨"a.bff"⟩, compose ⟨⟨"a.bff"⟩, ".A = 1 // x"⟩
        "CompileSingleFile" "ObjectList('CompileSingleFile')\x7b\x7d" {}⟩
        "CompileSingleFile" [.objectList] = .ok found ∧
      found.text = "ObjectList('CompileSingleFile')\x7b\x7d" := by
  obtain ⟨found, hfound, htext, _⟩ := locate_compose ⟨⟨"a.bff"⟩, ".A = 1 // x"⟩
    "ObjectList('CompileSingleFile')\x7b\x7d" ⟨"a.bff"⟩
    ⟨"CompileSingleFile", .objectList, 0, 33, 31, "ObjectList('CompileSingleFile')\x7b\x7d"⟩
    (by decide +kernel) (by decide +kernel) (by decide +kernel) rfl (by decide +kernel)
  exact ⟨found, hfound, htext⟩

end SoloBuild.SingleFile
