import SoloBuild.Proofs.LocatedNode
import SoloBuild.Proofs.RegionGrammar

/-!
# The literal that holds the name

A declaration is found by a header: the keyword, a parenthesis, a quote, the name, a quote. The two
quotes may be of different kinds, while a literal ends only with a quote of the kind it began with. So
the header does not say that the literal is the name in quotes. It says that the literal begins with
the name and some quote; where that quote is of the other kind, the literal goes on behind it, and the
target that is declared has a longer name.

## Key results

- `IsToken.literal_unique`: a text begins with one literal at most
- `headerAt_iff_nameLiteral`: a header by the literal behind its parenthesis
- `locate_nameLiteral`: which declarations are counted, and what the located node is called
- `locate_longer_name`: a target with a longer name is located
-/

namespace SoloBuild.Description

open Text

/-! ## Literal tokens -/

/-- Two contents that are closed by the same quote of one text are the same. -/
theorem eq_of_unclosed {quote : Char} {content content' rest rest' : List Char}
    (h : content ++ quote :: rest = content' ++ quote :: rest')
    (hopen : Unclosed quote content) (hopen' : Unclosed quote content')
    (hcloses : trailingCarets content % 2 = 0) (hcloses' : trailingCarets content' % 2 = 0) :
    content = content' := by
  -- The quote behind the shorter one would lie in the longer one without closing it.
  rcases List.append_eq_append_iff.1 h with ⟨as, hlonger, hrest⟩ | ⟨as, hlonger, hrest⟩
  · cases as with
    | nil => simpa using hlonger.symm
    | cons a as =>
      obtain ⟨rfl, -⟩ := List.cons.inj hrest
      have hodd := hopen' content as hlonger
      omega
  · cases as with
    | nil => simpa using hlonger
    | cons a as =>
      obtain ⟨rfl, -⟩ := List.cons.inj hrest
      have hodd := hopen content' as hlonger
      omega

/-- A text without a quote does not close the literal that the quote opens. -/
theorem unclosed_of_not_mem {quote : Char} {content : List Char} (h : quote ∉ content) :
    Unclosed quote content := by
  rintro front back rfl
  exact absurd (List.mem_append_right front List.mem_cons_self) h

/-- A text that opens a literal begins with a literal token. -/
theorem exists_literal (before : List Cell) {quote : Char} (hquote : isQuote quote = true)
    (text : List Char) :
    ∃ token rest, quote :: text = token ++ rest ∧ IsToken before token rest .literal := by
  obtain hopen | ⟨content, rest, rfl, hcontent, hcloses⟩ := unclosed_or_exists_close quote text
  · exact ⟨quote :: text, [], by simp, .openLiteral quote text hquote hopen⟩
  · exact ⟨quote :: (content ++ [quote]), rest, by simp,
      .literal quote content rest hquote hcontent hcloses⟩

/-- A literal token begins with a quote. -/
theorem IsToken.exists_quote {before : List Cell} {token rest : List Char}
    (h : IsToken before token rest .literal) :
    ∃ quote content, isQuote quote = true ∧ token = quote :: content := by
  cases h with
  | literal quote content rest hquote _ _ => exact ⟨quote, _, hquote, rfl⟩
  | openLiteral quote content hquote _ => exact ⟨quote, _, hquote, rfl⟩

/-- A text begins with one literal token at most, whatever was read before it. -/
theorem IsToken.literal_unique {before before' : List Cell} {token token' rest rest' : List Char}
    (h : IsToken before token rest .literal) (h' : IsToken before' token' rest' .literal)
    (heq : token ++ rest = token' ++ rest') : token = token' := by
  cases h with
  | literal quote content rest _ hopen hcloses =>
    cases h' with
    | literal quote' content' rest' _ hopen' hcloses' =>
      simp only [List.cons_append, List.append_assoc, List.nil_append, List.cons.injEq] at heq
      obtain ⟨rfl, heq⟩ := heq
      rw [eq_of_unclosed heq hopen hopen' hcloses hcloses']
    | openLiteral quote' content' _ hopen' =>
      simp only [List.cons_append, List.append_assoc, List.nil_append, List.append_nil,
        List.cons.injEq] at heq
      obtain ⟨rfl, rfl⟩ := heq
      have hodd := hopen' content rest rfl
      omega
  | openLiteral quote content _ hopen =>
    cases h' with
    | literal quote' content' rest' _ hopen' hcloses' =>
      simp only [List.cons_append, List.append_assoc, List.nil_append, List.append_nil,
        List.cons.injEq] at heq
      obtain ⟨rfl, rfl⟩ := heq
      have hodd := hopen content' rest' rfl
      omega
    | openLiteral quote' content' _ hopen' =>
      simpa using heq

/-! ## Names in literals -/

/-- The literal is the name in quotes of one kind. -/
def Spells (name token : List Char) : Prop :=
  ∃ quote, isQuote quote = true ∧ token = quote :: (name ++ [quote])

/-- Behind its opening quote the literal begins with the name and a quote of either kind. -/
def OpensWith (name token : List Char) : Prop :=
  ∃ quote mark more, isQuote quote = true ∧ isQuote mark = true ∧
    token = quote :: (name ++ mark :: more)

theorem quote_not_mem_name {name : List Char}
    (hname : ∀ c ∈ name, Launcher.isTargetChar c = true) {quote : Char}
    (hquote : isQuote quote = true) : quote ∉ name := by
  intro hmem
  have hchar := hname quote hmem
  rcases isQuote_cases hquote with rfl | rfl <;> revert hchar <;> decide

/-- Quotes around a content that holds none of their kind, and does not end with a `^`, make a literal
token. -/
theorem isToken_of_not_mem {quote : Char} {content : List Char} (hquote : isQuote quote = true)
    (hnot : quote ∉ content) (hlast : content.getLast? ≠ some '^') (before : List Cell)
    (rest : List Char) : IsToken before (quote :: (content ++ [quote])) rest .literal := by
  refine .literal quote content rest hquote (unclosed_of_not_mem hnot) ?_
  obtain rfl | ⟨front, last, rfl⟩ := List.eq_nil_or_concat content
  · rfl
  · rw [List.concat_eq_append, List.getLast?_concat] at hlast
    rw [List.concat_eq_append, trailingCarets_concat, if_neg (by simpa using hlast)]

/-- A name in quotes of one kind is a literal token, whatever follows it. -/
theorem isToken_of_name {name : List Char} (hname : ∀ c ∈ name, Launcher.isTargetChar c = true)
    {quote : Char} (hquote : isQuote quote = true) (before : List Cell) (rest : List Char) :
    IsToken before (quote :: (name ++ [quote])) rest .literal := by
  refine isToken_of_not_mem hquote (quote_not_mem_name hname hquote) (fun hlast => ?_) before rest
  have hchar := hname '^' (List.mem_of_getLast? hlast)
  revert hchar
  decide

/-- A literal token at a quote, the name and a quote holds them all. -/
theorem IsToken.opensWith {before : List Cell} {token rest : List Char}
    (h : IsToken before token rest .literal) {name tail : List Char} {quote mark : Char}
    (hquote : isQuote quote = true) (hmark : isQuote mark = true)
    (hname : ∀ c ∈ name, Launcher.isTargetChar c = true)
    (heq : quote :: (name ++ mark :: tail) = token ++ rest) : OpensWith name token := by
  have hnot := quote_not_mem_name hname hquote
  cases h with
  | literal quote' content rest _ _ _ =>
    simp only [List.cons_append, List.append_assoc, List.nil_append, List.cons.injEq] at heq
    obtain ⟨rfl, heq⟩ := heq
    -- The name holds no quote, so the literal does not end in it.
    obtain ⟨more, rfl, htail⟩ := split_of_not_mem hnot heq
    cases more with
    | nil =>
      obtain ⟨rfl, -⟩ := List.cons.inj htail
      exact ⟨mark, mark, [], hquote, hmark, by simp⟩
    | cons c more =>
      obtain ⟨rfl, -⟩ := List.cons.inj htail
      exact ⟨quote, mark, more ++ [quote], hquote, hmark, by simp⟩
  | openLiteral quote' content _ _ =>
    rw [List.append_nil] at heq
    exact ⟨quote, mark, tail, hquote, hmark, heq.symm⟩

/-- A literal token that begins with the name is the name in quotes exactly when the quote behind the
name is of the kind of the first. -/
theorem IsToken.spells_iff {before : List Cell} {token rest : List Char}
    (h : IsToken before token rest .literal) {name : List Char}
    (hname : ∀ c ∈ name, Launcher.isTargetChar c = true) :
    Spells name token ↔
      ∃ quote, isQuote quote = true ∧ quote :: (name ++ [quote]) <+: token := by
  constructor
  · rintro ⟨quote, hquote, rfl⟩
    exact ⟨quote, hquote, List.prefix_rfl⟩
  · rintro ⟨quote, hquote, more, rfl⟩
    have htoken := isToken_of_name hname hquote before (more ++ rest)
    refine ⟨quote, hquote, ?_⟩
    rw [h.literal_unique htoken (List.append_assoc ..)]

/-! ## The literal behind the parenthesis -/

/-- A literal token stands behind the front of a text: the reader is in code there, and the grammar
has a literal there. -/
structure LiteralAt (text front token : List Char) : Prop where
  code : ∃ lineStart, ReadState.start.after token.head? front = .code lineStart
  isToken : ∃ rest, text = front ++ (token ++ rest) ∧
    IsToken (cellsFrom token.head? .start front) token rest .literal

/-- The keyword of a declaration and its parenthesis, with blanks around it. -/
def headerOpening (kind : TargetKind) (ws ws' : List Char) : List Char :=
  kind.keyword.toList ++ (ws ++ '(' :: ws')

/-- The literal token right behind the parenthesis of the declaration that begins in code at byte
`offset`. -/
def NameLiteral (text : List Char) (kind : TargetKind) (offset : Nat) (token : List Char) : Prop :=
  (classifyBytes text)[offset]? = some .code ∧
    ∃ before ws ws', offset = byteLength before ∧
      isWordBoundary before.getLast? (some kind.initial) = true ∧
      (∀ c ∈ ws, isBlank c = true) ∧ (∀ c ∈ ws', isBlank c = true) ∧
      LiteralAt text (before ++ headerOpening kind ws ws') token

/-- What opens a declaration in code is read as code. -/
theorem exists_code_after_headerOpening {kind : TargetKind} {before ws ws' rest : List Char}
    {quote : Char} (hws : ∀ c ∈ ws, isBlank c = true) (hws' : ∀ c ∈ ws', isBlank c = true)
    (hcode : (classifyBytes (before ++ (headerOpening kind ws ws' ++ quote :: rest)))[
      byteLength before]? = some .code) :
    ∃ lineStart, ReadState.start.after (some quote) (before ++ headerOpening kind ws ws') =
      .code lineStart := by
  obtain ⟨letters, hkey, -, hword⟩ := kind.keyword_eq_cons
  have hchars : ∀ c ∈ headerOpening kind ws ws', isCodeChar c = true := by
    intro c hc
    simp only [headerOpening, List.mem_append, List.mem_cons] at hc
    rcases hc with hc | hc | rfl | hc
    · exact isCodeChar_of_isWord (hword c hc)
    · exact isCodeChar_of_isBlank (hws c hc)
    · decide
    · exact isCodeChar_of_isBlank (hws' c hc)
  have hopening : headerOpening kind ws ws' = kind.initial :: (letters ++ (ws ++ '(' :: ws')) := by
    rw [headerOpening, hkey]
    rfl
  rw [hopening, List.cons_append] at hcode
  obtain ⟨lineStart, hstate⟩ := exists_code_of_classifyBytes hcode
  have hread := (reads_code hchars lineStart).after_eq (some quote)
  refine ⟨lineStartAfter lineStart (headerOpening kind ws ws'), ?_⟩
  rw [ReadState.after_append, hopening, List.head?_cons, Option.some_or, ← hopening]
  rw [List.head?_cons, Option.some_or] at hstate
  rw [hstate, hread]

/-- A header by the literal behind its parenthesis: there a literal token begins with the name and a
quote of either kind. -/
theorem headerAt_iff_nameLiteral {text name : List Char} {kind : TargetKind} {offset : Nat}
    (hname : ∀ c ∈ name, Launcher.isTargetChar c = true) :
    ((classifyBytes text)[offset]? = some .code ∧ ∃ stop, HeaderAt text name kind offset stop) ↔
      ∃ token, NameLiteral text kind offset token ∧ OpensWith name token := by
  constructor
  · rintro ⟨hcode, stop, before, header, rest, htext, hheader, hboundary, rfl, rfl⟩
    obtain ⟨ws, ws', quote, mark, hws, hws', hquote, hmark, rfl⟩ := hheader.exists_eq
    obtain ⟨letters, hkey, -, -⟩ := kind.keyword_eq_cons
    have hsplit : text =
        before ++ (headerOpening kind ws ws' ++ quote :: (name ++ mark :: rest)) := by
      rw [htext, headerOpening]
      simp
    obtain ⟨lineStart, hstate⟩ := exists_code_after_headerOpening hws hws' (hsplit ▸ hcode)
    obtain ⟨token, tail, heq, htoken⟩ := exists_literal
      (cellsFrom (some quote) .start (before ++ headerOpening kind ws ws')) hquote
      (name ++ mark :: rest)
    have hhead : token.head? = some quote := by
      obtain ⟨first, content, -, rfl⟩ := htoken.exists_quote
      rw [List.head?_cons, (List.cons.inj heq).1]
    refine ⟨token, ⟨hcode, before, ws, ws', rfl, ?_, hws, hws', ⟨?_, tail, ?_, ?_⟩⟩,
      htoken.opensWith hquote hmark hname heq⟩
    · rw [hkey] at hboundary
      exact hboundary
    · rw [hhead]
      exact ⟨lineStart, hstate⟩
    · rw [hsplit, heq, List.append_assoc]
    · rw [hhead]
      exact htoken
  · rintro ⟨token, ⟨hcode, before, ws, ws', rfl, hboundary, hws, hws', -, rest, htext, -⟩,
      quote, mark, more, hquote, hmark, rfl⟩
    obtain ⟨letters, hkey, -, -⟩ := kind.keyword_eq_cons
    refine ⟨hcode, _, before, kind.keyword.toList ++ (ws ++ '(' :: (ws' ++ quote :: (name ++ [mark]))),
      more ++ rest, ?_, .intro hws hws' hquote hmark, ?_, rfl, rfl⟩
    · rw [htext, headerOpening]
      simp
    · rw [hkey]
      exact hboundary

/-- A declaration has one name literal. -/
theorem NameLiteral.unique {text : List Char} {kind : TargetKind} {offset : Nat}
    {token token' : List Char} (h : NameLiteral text kind offset token)
    (h' : NameLiteral text kind offset token') : token = token' := by
  obtain ⟨-, before, ws, ws', rfl, -, hws, hws', -, rest, htext, htoken⟩ := h
  obtain ⟨-, front, us, us', hbytes, -, hus, hus', -, tail, htext', htoken'⟩ := h'
  obtain ⟨quote, content, hquote, rfl⟩ := htoken.exists_quote
  obtain ⟨quote', content', hquote', rfl⟩ := htoken'.exists_quote
  rw [htext, List.append_assoc, List.append_assoc] at htext'
  obtain ⟨-, heq⟩ := append_inj_of_byteLength htext' hbytes
  simp only [headerOpening, List.append_assoc, List.cons_append, List.append_cancel_left_eq] at heq
  -- Both are what follows the same blanks and the same parenthesis.
  have hparen := congrArg skipBlanks heq
  rw [skipBlanks_append hws (by decide), skipBlanks_append hus (by decide), List.cons.injEq] at hparen
  have hquotes := congrArg skipBlanks hparen.2
  rw [skipBlanks_append hws' (isBlank_eq_false_of_isQuote hquote),
    skipBlanks_append hus' (isBlank_eq_false_of_isQuote hquote')] at hquotes
  exact htoken.literal_unique htoken' hquotes

/-! ## Locating by name -/

/-- The declarations that are counted for a name are those whose name literal begins with the name
and a quote of either kind. A located node has one name literal, which begins so; it is the name in
quotes exactly when the quote behind the name is of the kind that opened the literal. -/
theorem locate_nameLiteral (document : Document) {name : String} (kinds : List TargetKind)
    (hname : Launcher.IsTargetName name.toList) :
    (∀ kind offset,
      (∃ header ∈ headers document.text.toList name.toList kinds,
        header.kind = kind ∧ header.start = offset) ↔
      kind ∈ kinds ∧ ∃ token, NameLiteral document.text.toList kind offset token ∧
        OpensWith name.toList token) ∧
    ∀ node, document.locate name kinds = .ok node →
      ∃ token, NameLiteral document.text.toList node.kind node.start token ∧
        (∀ other, NameLiteral document.text.toList node.kind node.start other → other = token) ∧
        OpensWith name.toList token ∧
        (Spells name.toList token ↔
          ∃ quote, isQuote quote = true ∧ quote :: (name.toList ++ [quote]) <+: token) := by
  refine ⟨fun kind offset => ?_, fun node hnode => ?_⟩
  · rw [← headerAt_iff_nameLiteral hname.2]
    constructor
    · rintro ⟨header, hmem, rfl, rfl⟩
      obtain ⟨hkind, hcode, hheader⟩ := (mem_headers_iff hname.2).1 hmem
      exact ⟨hkind, hcode, header.stop, hheader⟩
    · rintro ⟨hkind, hcode, stop, hheader⟩
      exact ⟨⟨kind, offset, stop⟩, (mem_headers_iff hname.2).2 ⟨hkind, hcode, hheader⟩, rfl, rfl⟩
  · obtain ⟨header, hlist, hat⟩ := headers_of_locate hnode
    have hmem : header ∈ headers document.text.toList name.toList kinds := by
      rw [hlist]
      exact List.mem_singleton_self header
    obtain ⟨-, hcode, hheader⟩ := (mem_headers_iff hname.2).1 hmem
    obtain ⟨_, -, rfl⟩ := Option.map_eq_some_iff.1 hat
    obtain ⟨token, hliteral, hopens⟩ :=
      (headerAt_iff_nameLiteral hname.2).1 ⟨hcode, header.stop, hheader⟩
    refine ⟨token, hliteral, fun other hother => hother.unique hliteral, hopens, ?_⟩
    obtain ⟨-, _, _, _, -, -, -, -, hliteral⟩ := hliteral
    obtain ⟨_, -, htoken⟩ := hliteral.isToken
    exact htoken.spells_iff hname.2

/-- A target whose name is longer by word characters is not counted. -/
theorem locate_nameLiteral_sample :
    let document : Document := ⟨⟨"Game.bff"⟩, "Library('FooBar') \x7b\x7d\nLibrary( 'Foo' ) \x7b\x7d"⟩
    Launcher.IsTargetName "Foo".toList ∧
      ∃ node, document.locate "Foo" TargetKind.all = .ok node ∧
        ∃ token, NameLiteral document.text.toList node.kind node.start token ∧
          Spells "Foo".toList token := by
  intro document
  have hname : Launcher.IsTargetName "Foo".toList := by decide
  have hlocate : document.locate "Foo" TargetKind.all =
      .ok { name := "Foo", kind := .library, start := 21, stop := 40, headerLength := 16
            text := "Library( 'Foo' ) \x7b\x7d" } := by decide +kernel
  obtain ⟨token, hliteral, hunique, -, hspells⟩ :=
    (locate_nameLiteral document TargetKind.all hname).2 _ hlocate
  have hwritten : NameLiteral document.text.toList .library 21 "'Foo'".toList :=
    ⟨by decide +kernel, "Library('FooBar') \x7b\x7d\n".toList, [], [' '], by decide, by decide,
      by decide, by decide, ⟨false, by decide⟩, " ) \x7b\x7d".toList, by decide,
      isToken_of_name hname.2 (by decide) _ _⟩
  refine ⟨hname, _, hlocate, token, hliteral, hspells.2 ⟨'\'', by decide, ?_⟩⟩
  rw [← hunique _ hwritten]
  decide

/-- The name of the located target is longer than the name that was asked for: the literal goes on
behind a quote of the other kind. -/
theorem locate_longer_name :
    let document : Document := ⟨⟨"Project.bff"⟩, "Library( 'Foo\"Bar' ) \x7b \x7d"⟩
    Launcher.IsTargetName "Foo".toList ∧
      ∃ node, document.locate "Foo" TargetKind.all = .ok node ∧
        NameLiteral document.text.toList node.kind node.start "'Foo\"Bar'".toList ∧
        ∀ token, NameLiteral document.text.toList node.kind node.start token →
          ¬ Spells "Foo".toList token := by
  intro document
  have hliteral : NameLiteral document.text.toList .library 0 "'Foo\"Bar'".toList := by
    refine ⟨by decide +kernel, [], [], [' '], rfl, by decide, by decide, by decide,
      ⟨false, by decide⟩, " ) \x7b \x7d".toList, by decide, ?_⟩
    exact @isToken_of_not_mem '\'' "Foo\"Bar".toList (by decide) (by decide)
      (by decide) _ _
  refine ⟨by decide,
    { name := "Foo", kind := .library, start := 0, stop := 24, headerLength := 20
      text := document.text }, by decide +kernel, hliteral, fun token htoken => ?_⟩
  rw [htoken.unique hliteral]
  rintro ⟨quote, -, heq⟩
  have hlength := congrArg List.length heq
  revert hlength
  simp

end SoloBuild.Description
