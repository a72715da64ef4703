import SoloBuild.Shell.Source

/-!
# The grammar of scripts

Words with their quotes and expansions, simple commands with assignments and redirections,
pipelines, lists and compound commands. A script is read command by command, so the commands before
a fault are commands all the same. The first argument of each reader bounds the number of steps.
-/

namespace SoloBuild.Shell

open Text

/-- What a reader looks for in the next token. -/
structure Expecting where
  /-- Line ends are passed over. -/
  newlines : Bool := false
  /-- A word may be a keyword. -/
  keywords : Bool := false
  /-- A word may stand for another text. -/
  aliases : Bool := false
  /-- The token is the line that ends a document. -/
  ending : Bool := false

/-- What may stand where a command begins. -/
def Expecting.command : Expecting := { keywords := true, aliases := true }

/-- What may stand where a command begins, on this line or below. -/
def Expecting.commandBelow : Expecting := { newlines := true, keywords := true, aliases := true }

/-- Where the pieces of a word stand. -/
inductive Context where
  | plain
  /-- In the line that ends a document, between double quotes or not. -/
  | ending (quoted : Bool)
  /-- Between the braces of an expansion. -/
  | braces
  /-- Between double quotes. -/
  | quotes
  /-- Between the braces of an expansion that is quoted, and there between quotes of their own. -/
  | quotedBraces (inner : Bool)
  | document
  /-- In an arithmetic expression, inside so many brackets. -/
  | expression (depth : Nat)
  deriving DecidableEq

namespace Context

/-- What stands there is quoted. -/
def isQuoted : Context → Bool
  | .plain | .ending false | .braces => false
  | _ => true

/-- A blank or an operator ends the word. -/
def endsAtMeta : Context → Bool
  | .plain | .ending false => true
  | _ => false

/-- A dollar stands for itself. -/
def isEnding : Context → Bool
  | .ending _ => true
  | _ => false

/-- What a character after a backslash stands for. -/
def escaped (context : Context) (c : Char) : List Char :=
  let isSpecial := c == '\\' || c == '\x60' || c == '$' || (c == '"' && context != .document) ||
    (c == '\x7d' && (context == .quotedBraces true || context == .quotedBraces false))
  if context.isQuoted && !isSpecial then ['\\', c] else [c]

/-- What is wrong when the script ends there. -/
def faultAtEnd? : Context → Option String
  | .plain | .ending false | .document => none
  | .braces => some "Missing '\x7d'"
  | .expression _ => some "Missing '))'"
  | _ => some "Unterminated quoted string"

end Context

/-- The extent of a list of commands. -/
inductive Extent where
  /-- Up to the end of the line. -/
  | line
  /-- Up to something that ends a list; there is at least one command. -/
  | some
  /-- Up to something that ends a list. -/
  | any
  deriving DecidableEq

/-- The assignment that a word is. -/
def assignment? (w : Word) : Option (String × Word) :=
  match w with
  | .text chars false :: rest =>
    let name := chars.takeWhile (· != '=')
    match chars.drop name.length with
    | '=' :: value =>
      if isName name then
        some (String.ofList name, if value.isEmpty then rest else .text value false :: rest)
      else none
    | _ => none
  | _ => none

/-- The name of a parameter that the text begins with. -/
def readName : Reading (Option (List Char)) := do
  let bound := (← Reading.rest).length + 1
  match ← Reading.peek? with
  | none => return none
  | some c =>
    if isNameStart c then return some (← Reading.takeWhile isNameChar bound)
    else if c.isDigit then return some (← Reading.takeWhile Char.isDigit bound)
    else if isSpecialParameter c then
      let _ ← Reading.next?
      return some [c]
    else return none

/-- The use of a parameter that the text after its name tells, and whether an empty value counts as
missing. A line end in its place counts as no line. -/
def readUse : Reading (Use × Bool) := do
  match ← next? with
  | some '%' => return (.cutEnd (← Reading.takes '%'), false)
  | some '#' => return (.cutFront (← Reading.takes '#'), false)
  | some ':' => return (plain (← next?), true)
  | c => return (plain c, false)
where
  next? : Reading (Option Char) := do
    let c ← Reading.peek?
    Reading.goOn ((← Reading.rest).drop 1)
    return c
  plain : Option Char → Use
    | some '\x7d' => .value
    | some '-' => .instead
    | some '=' => .assign
    | some '?' => .require
    | some '+' => .alternative
    | _ => .unknown

/-- The parameter between braces, without the word that its use takes. -/
def readParameter : Reading (List Char × Use × Bool) := do
  match ← Reading.rest with
  | '#' :: c :: after =>
    if isNameChar c || (c != '\x7d' && after.head? == some '\x7d') then
      let _ ← Reading.next?
      match ← readName with
      | some name =>
        return (name, if ← Reading.takes '\x7d' then .length else .unknown, false)
      | none => return ([], .unknown, false)
  | _ => pure ()
  match ← readName with
  | some name =>
    let (use, emptyIsMissing) ← readUse
    return (name, use, emptyIsMissing)
  | none => return ([], .unknown, false)

mutual

/-- The pieces of a word, or of a text with expansions in it. -/
def readPieces : Nat → Context → Reading Word
  | 0, _ => Reading.fault "end of file unexpected"
  | n + 1, context => do
    let add (piece : Piece) : Reading Word := return piece :: (← readPieces n context)
    let literal (c : Char) (context : Context) : Reading Word := do
      let _ ← Reading.next?
      return .text [c] context.isQuoted :: (← readPieces n context)
    match ← Reading.rest with
    | [] =>
      match context.faultAtEnd? with
      | some reason => Reading.fault reason
      | none => return []
    | '\\' :: '\n' :: rest =>
      Reading.goOnBelow 1 rest
      readPieces n context
    | '\\' :: c :: rest =>
      Reading.goOn rest
      add (.text (context.escaped c) true)
    | ['\\'] =>
      Reading.goOn []
      add (.text ['\\'] true)
    | '\'' :: rest =>
      if context.isQuoted then literal '\'' context
      else
        match upTo? '\'' rest with
        | none =>
          Reading.goOnBelow (lineEnds rest) []
          Reading.fault "Unterminated quoted string"
        | some (inner, after) =>
          Reading.goOnBelow (lineEnds inner) after
          add (.text inner true)
    | '"' :: rest =>
      match context with
      | .quotes | .ending true =>
        Reading.goOn rest
        return []
      | .quotedBraces inner =>
        Reading.goOn rest
        readPieces n (.quotedBraces !inner)
      | .document | .expression _ => literal '"' context
      | .plain | .braces | .ending false =>
        Reading.goOn rest
        let inner ← readPieces n (if context.isEnding then .ending true else .quotes)
        let more ← readPieces n context
        return (if inner.isEmpty then [.text [] true] else inner) ++ more
    | '$' :: rest =>
      if context.isEnding then literal '$' context
      else
        Reading.goOn rest
        add (← readExpansion n context.isQuoted)
    | '\x60' :: rest =>
      if context.isEnding then literal '\x60' context
      else
        match backquoted? context.isQuoted rest with
        | none =>
          Reading.goOnBelow (lineEnds rest) []
          Reading.fault "EOF in backquote substitution"
        | some (inner, after) =>
          let body ← Reading.inside inner 1 (readList n .any)
          Reading.goOnBelow (lineEnds (rest.take (rest.length - after.length))) after
          add (.output body context.isQuoted)
    | '\x7d' :: rest =>
      if context = .braces ∨ context = .quotedBraces false then
        Reading.goOn rest
        return []
      else literal '\x7d' context
    | '(' :: _ =>
      match context with
      | .expression depth => literal '(' (.expression (depth + 1))
      | context => if context.endsAtMeta then return [] else literal '(' context
    | ')' :: _ =>
      match context with
      | .expression 0 =>
        let _ ← Reading.next?
        if ← Reading.takes ')' then return [] else add (.text [')'] true)
      | .expression (depth + 1) => literal ')' (.expression depth)
      | context => if context.endsAtMeta then return [] else literal ')' context
    | c :: _ => if isMeta c && context.endsAtMeta then return [] else literal c context

/-- What the text after a dollar begins with. A dollar that begins no expansion stands for
itself. -/
def readExpansion : Nat → Bool → Reading Piece
  | 0, _ => Reading.fault "end of file unexpected"
  | n + 1, quoted => do
    match ← Reading.peek? with
    | some '(' =>
      let _ ← Reading.next?
      if ← Reading.takes '(' then
        return .arithmetic (← readPieces n (.expression 0)).joined quoted
      else
        let announced := (← get).announced
        modify fun src => { src with announced := [] }
        let body ← readList n .any
        readExpected n (.operator ")")
        -- A document that a line announces after which nothing follows is empty.
        modify fun src => { src with
          announced, documents := src.announced.map (fun d => (d.key, [])) ++ src.documents }
        return .output body quoted
    | some '\x7b' =>
      let _ ← Reading.next?
      let (name, use, emptyIsMissing) ← readParameter
      let name := String.ofList name
      match use with
      | .value | .length => return .parameter name use emptyIsMissing [] quoted
      | .cutFront _ | .cutEnd _ =>
        return .parameter name use emptyIsMissing (← readPieces n .braces).joined quoted
      | _ =>
        let word ← readPieces n (if quoted then .quotedBraces false else .braces)
        return .parameter name use emptyIsMissing word.joined quoted
    | some c =>
      if c.isDigit then
        let _ ← Reading.next?
        return .parameter (String.ofList [c]) .value false [] quoted
      else
        match ← readName with
        | some name => return .parameter (String.ofList name) .value false [] quoted
        | none => return .text ['$'] quoted
    | none => return .text ['$'] quoted

/-- The documents that the line before announces. -/
def readDocuments : Nat → Reading Unit
  | 0 => Reading.fault "end of file unexpected"
  | n + 1 => do
    match (← get).announced with
    | [] => return ()
    | d :: more =>
      let (body, after) := documentLines d false (endedLines (← Reading.rest))
      let lines := (endedLines (← Reading.rest)).length - after.length
      let text := body.flatten
      let body ←
        if d.expands then Reading.inside text (← Reading.line) (readPieces n .document)
        else pure [.text text true]
      modify fun src => { src with
        announced := more, documents := (d.key, body.joined) :: src.documents
        rest := after.flatten, line := src.line + lines }
      readDocuments n

/-- The next token, which was not read before. -/
def readFresh : Nat → Bool → Reading Token
  | 0, _ => Reading.fault "end of file unexpected"
  | n + 1, ending => do
    let skip : Reading Token := do
      let _ ← Reading.next?
      readFresh n ending
    let operator (c : Char) : Reading Token := do
      let _ ← Reading.next?
      let isDouble := c == '&' || c == '|' || c == ';'
      if isDouble then
        return .operator (String.ofList (if ← Reading.takes c then [c, c] else [c]))
      else return .operator (String.ofList [c])
    match ← Reading.peek? with
    | none =>
      readDocuments n
      return .finish
    | some '\n' =>
      let _ ← Reading.next?
      readDocuments n
      return .newline
    | some '#' =>
      Reading.goOn ((← Reading.rest).dropWhile (· != '\n'))
      readFresh n ending
    | some c =>
      if c = ' ' ∨ c = '\t' then skip
      else if isMeta c && c != '<' && c != '>' then operator c
      else
        let w := (← readPieces n (if ending then .ending false else .plain)).joined
        let descriptor? : Option (Option Nat) := match w with
          | [] => some none
          | [.text [c] false] => if c.isDigit then some (some (digitValue c)) else none
          | _ => none
        match descriptor?, ← Reading.peek? with
        | some d, some '<' =>
          let _ ← Reading.next?
          let descriptor := d.getD 0
          if ← Reading.takes '<' then return .document descriptor (← Reading.takes '-')
          else if ← Reading.takes '&' then return .redirect descriptor .duplicate
          else if ← Reading.takes '>' then return .redirect descriptor .readWrite
          else return .redirect descriptor .read
        | some d, some '>' =>
          let _ ← Reading.next?
          let descriptor := d.getD 1
          if ← Reading.takes '>' then return .redirect descriptor .append
          else if ← Reading.takes '|' then return .redirect descriptor .clobber
          else if ← Reading.takes '&' then return .redirect descriptor .duplicate
          else return .redirect descriptor .write
        | _, _ => return .word w

/-- The next token. -/
def readToken : Nat → Expecting → Reading Token
  | 0, _ => Reading.fault "end of file unexpected"
  | n + 1, expecting => do
    let t ← match (← get).ahead with
      | some t => do
        modify fun src => { src with ahead := none }
        pure t
      | none => readFresh n expecting.ending
    match if expecting.keywords then t.asKeyword else t with
    | .newline => if expecting.newlines then readToken n expecting else return .newline
    | .word w =>
      let src ← get
      let isReplaced (name : String) : Bool :=
        src.replaced.any fun (other, left) => other == name && left < src.rest.length
      let name := (w.literal?.map String.ofList).filter fun name =>
        expecting.aliases && !isReplaced name
      match name.bind fun name => (src.aliases.lookup name).map fun text => (name, text) with
      | some (name, text) =>
        set { src with
          rest := text.toList ++ src.rest
          replaced := (name, src.rest.length) :: src.replaced }
        readToken n expecting
      | none => return .word w
    | t => return t

/-- Takes a token that has to stand there. -/
def readExpected : Nat → Token → Reading Unit
  | 0, _ => Reading.fault "end of file unexpected"
  | n + 1, expected => do
    let t ← readToken n {}
    if t.name = expected.name then return () else Reading.unexpected t (some expected.name)

/-- What a redirection leads to. -/
def readTarget : Nat → Token → Reading (Redirect Word)
  | 0, _ => Reading.fault "end of file unexpected"
  | n + 1, .document descriptor withoutTabs => do
    match ← readToken n { ending := true } with
    | .word w =>
      let key := (← get).keys
      let d : Announced := { key, ending := w.plainText, expands := !w.isQuoted, withoutTabs }
      modify fun src => { src with keys := key + 1, announced := src.announced ++ [d] }
      return { descriptor, kind := .document key, target := [] }
    | t => Reading.unexpected t
  | n + 1, .redirect descriptor kind => do
    match ← readToken n {} with
    | .word target => return { descriptor, kind, target }
    | t => Reading.unexpected t
  | _ + 1, t => Reading.unexpected t

/-- The redirections after a compound command. -/
def readRedirects : Nat → Expecting → Reading (List (Redirect Word))
  | 0, _ => Reading.fault "end of file unexpected"
  | n + 1, expecting => do
    match ← readToken n expecting with
    | .redirect d kind =>
      let r ← readTarget n (.redirect d kind)
      return r :: (← readRedirects n {})
    | .document d withoutTabs =>
      let r ← readTarget n (.document d withoutTabs)
      return r :: (← readRedirects n {})
    | t =>
      Reading.putBack t
      return []

/-- A list of commands. -/
def readList : Nat → Extent → Reading Command
  | 0, _ => Reading.fault "end of file unexpected"
  | n + 1, extent => do
    match ← readToken n { Expecting.command with newlines := extent != .line } with
    | .newline => return .sequence []
    | .finish =>
      Reading.putBack .finish
      return .sequence []
    | t =>
      Reading.putBack t
      if extent = .any ∧ t.endsList then return .sequence []
      else
        let first ← readAndOr n
        let goOn (first : Command) : Reading Command := do
          return first.followedBy (← readList n (if extent = .line then .line else .any))
        match ← readToken n {} with
        | .finish =>
          Reading.putBack .finish
          return first
        | .newline =>
          Reading.putBack .newline
          goOn first
        | .operator ";" => goOn first
        | .operator "&" => goOn first.inBackground
        | t =>
          if extent = .line then Reading.unexpected t
          else
            Reading.putBack t
            return first

/-- Pipelines joined by `&&` and `||`. -/
def readAndOr : Nat → Reading Command
  | 0 => Reading.fault "end of file unexpected"
  | n + 1 => do readAndOrRest n (← readPipeline n {})

/-- What is joined to the pipelines before it. -/
def readAndOrRest : Nat → Command → Reading Command
  | 0, _ => Reading.fault "end of file unexpected"
  | n + 1, first => do
    match ← readToken n {} with
    | .operator "&&" => readAndOrRest n (.both first (← readPipeline n .commandBelow))
    | .operator "||" => readAndOrRest n (.either first (← readPipeline n .commandBelow))
    | t =>
      Reading.putBack t
      return first

/-- A pipeline. -/
def readPipeline : Nat → Expecting → Reading Command
  | 0, _ => Reading.fault "end of file unexpected"
  | n + 1, expecting => do
    let stages (expecting : Expecting) : Reading Command := do
      let first ← readCommand n expecting
      match ← readStages n with
      | [] => return first
      | more => return .pipeline (first :: more)
    match ← readToken n expecting with
    | .keyword "!" => return .negated (← stages .command)
    | t =>
      Reading.putBack t
      stages {}

/-- The stages of a pipeline after the first one. -/
def readStages : Nat → Reading (List Command)
  | 0 => Reading.fault "end of file unexpected"
  | n + 1 => do
    match ← readToken n {} with
    | .operator "|" =>
      let stage ← readCommand n .commandBelow
      return stage :: (← readStages n)
    | t =>
      Reading.putBack t
      return []

/-- One command. -/
def readCommand : Nat → Expecting → Reading Command
  | 0, _ => Reading.fault "end of file unexpected"
  | n + 1, expecting => do
    let line ← Reading.line
    let redirected (body : Command) : Reading Command := do
      match ← readRedirects n .command with
      | [] => return body
      | redirects => return .redirected line body redirects
    match ← readToken n expecting with
    | .keyword "if" =>
      let body ← readConditional n
      readExpected n (.keyword "fi")
      redirected body
    | .keyword "while" =>
      let test ← readList n .some
      redirected (.loop false test (← readBody n))
    | .keyword "until" =>
      let test ← readList n .some
      redirected (.loop true test (← readBody n))
    | .keyword "for" => redirected (← readFor n line)
    | .keyword "case" => redirected (← readChoice n line)
    | .operator "(" =>
      let body ← readList n .some
      readExpected n (.operator ")")
      return .subshell line body (← readRedirects n .command)
    | .keyword "\x7b" =>
      let body ← readList n .some
      readExpected n (.keyword "\x7d")
      redirected body
    | .word w =>
      Reading.putBack (.word w)
      readSimple n (← Reading.line) [] [] []
    | .redirect d kind =>
      Reading.putBack (.redirect d kind)
      readSimple n (← Reading.line) [] [] []
    | .document d withoutTabs =>
      Reading.putBack (.document d withoutTabs)
      readSimple n (← Reading.line) [] [] []
    | t => Reading.unexpected t

/-- A simple command, of which some parts are read. -/
def readSimple : Nat → Nat → List (String × Word) → List Word → List (Redirect Word) →
    Reading Command
  | 0, _, _, _, _ => Reading.fault "end of file unexpected"
  | n + 1, line, assignments, words, redirects => do
    match ← readToken n { aliases := words.isEmpty } with
    | .word w =>
      match if words.isEmpty then assignment? w else none with
      | some a => readSimple n line (assignments ++ [a]) words redirects
      | none => readSimple n line assignments (words ++ [w]) redirects
    | .redirect d kind =>
      let r ← readTarget n (.redirect d kind)
      readSimple n line assignments words (redirects ++ [r])
    | .document d withoutTabs =>
      let r ← readTarget n (.document d withoutTabs)
      readSimple n line assignments words (redirects ++ [r])
    | t =>
      match t, assignments, words, redirects with
      | .operator "(", [], [w], [] =>
        readExpected n (.operator ")")
        let name := String.ofList (w.literal?.getD [])
        if !isName name.toList || specialCommands.contains name then
          Reading.fault "Bad function name"
        else return .define name (← readCommand n .commandBelow)
      | t, _, _, _ =>
        Reading.putBack t
        return .simple line assignments words redirects

/-- A conditional after `if` or `elif`, up to `fi`. -/
def readConditional : Nat → Reading Command
  | 0 => Reading.fault "end of file unexpected"
  | n + 1 => do
    let test ← readList n .some
    readExpected n (.keyword "then")
    let body ← readList n .some
    match ← readToken n {} with
    | .keyword "elif" => return .conditional test body (some (← readConditional n))
    | .keyword "else" => return .conditional test body (some (← readList n .some))
    | t =>
      Reading.putBack t
      return .conditional test body none

/-- The body of a loop. -/
def readBody : Nat → Reading Command
  | 0 => Reading.fault "end of file unexpected"
  | n + 1 => do
    readExpected n (.keyword "do")
    let body ← readList n .some
    readExpected n (.keyword "done")
    return body

/-- A loop over words, or over the parameters. -/
def readFor : Nat → Nat → Reading Command
  | 0, _ => Reading.fault "end of file unexpected"
  | n + 1, line => do
    let name := match ← readToken n {} with
      | .word w => (w.literal?.filter isName).map String.ofList
      | _ => none
    match name with
    | none => Reading.fault "Bad for loop variable"
    | some name =>
      let words ← match ← readToken n .commandBelow with
        | .keyword "in" => readWords n
        | .operator ";" => pure [[.parameter "@" .value false [] true]]
        | t => do
          Reading.putBack t
          pure [[.parameter "@" .value false [] true]]
      let t ← readToken n .commandBelow
      Reading.putBack t
      return .forEach line name words (← readBody n)

/-- The words of a loop, up to the end of the line. -/
def readWords : Nat → Reading (List Word)
  | 0 => Reading.fault "end of file unexpected"
  | n + 1 => do
    match ← readToken n {} with
    | .word w => return w :: (← readWords n)
    | .newline | .operator ";" => return []
    | t => Reading.unexpected t

/-- A choice after `case`. -/
def readChoice : Nat → Nat → Reading Command
  | 0, _ => Reading.fault "end of file unexpected"
  | n + 1, line => do
    match ← readToken n {} with
    | .word subject =>
      match ← readToken n .commandBelow with
      | .keyword "in" => return .choose line subject (← readCases n)
      | t => Reading.unexpected t (some "\"in\"")
    | t => Reading.unexpected t (some "word")

/-- The cases of a choice. -/
def readCases : Nat → Reading (List (List Word × Command))
  | 0 => Reading.fault "end of file unexpected"
  | n + 1 => do
    match ← readToken n { newlines := true, keywords := true } with
    | .keyword "esac" => return []
    | t =>
      let first ← match t with
        | .operator "(" => readToken n {}
        | t => pure t
      let patterns ← readPatterns n first
      let body ← readList n .any
      match ← readToken n { newlines := true, keywords := true } with
      | .keyword "esac" => return [(patterns, body)]
      | .operator ";;" => return (patterns, body) :: (← readCases n)
      | t => Reading.unexpected t (some "\";;\"")

/-- The patterns of a case, of which the first one is read. -/
def readPatterns : Nat → Token → Reading (List Word)
  | 0, _ => Reading.fault "end of file unexpected"
  | n + 1, first => do
    let pattern : Word := match first with
      | .word w => w
      | .keyword text => [.text text.toList false]
      | _ => []
    match ← readToken n {} with
    | .operator "|" =>
      let next ← readToken n {}
      return pattern :: (← readPatterns n next)
    | .operator ")" => return [pattern]
    | t => Reading.unexpected t (some "\")\"")

end

/-! ## Scripts -/

/-- The next command of a script, up to the end of a line, and what is left of the script after it;
no command when nothing is left. -/
def Command.next? (src : Source) : Except SyntaxFault (Option Command × Source) :=
  let bound := 16 * src.rest.length + 64
  let reading : Reading (Option Command) := do
    modify fun src => { src with documents := [], keys := 0 }
    match ← readToken bound .command with
    | .finish => return none
    | t =>
      Reading.putBack t
      let c ← readList bound .line
      match (← get).documents with
      | [] => return some c
      | documents => return some (.withDocuments documents c)
  reading src

/-- The word that a text between double quotes is; a text that is none stands for itself. -/
def Word.ofQuoted (text : String) : Word :=
  match readPieces (16 * text.length + 64) .document { rest := text.toList } with
  | .ok (w, _) => w.joined
  | .error _ => [.text text.toList true]

end SoloBuild.Shell
