import SoloBuild.Shell.Arithmetic
import SoloBuild.Shell.Fields
import SoloBuild.Shell.State

/-!
# Values of parameters

What a parameter stands for, and what becomes of it in a word: a stretch that is cut into fields or
not.
-/

namespace SoloBuild.Shell

/-- How a word is expanded. -/
structure Manner where
  /-- Fields are made of the word. -/
  full : Bool := false
  /-- The text of the word can be cut as well. -/
  cutsText : Bool := false
  deriving DecidableEq, Repr

/-- How the value of an expansion is cut into fields. -/
def Manner.cut (m : Manner) (quoted : Bool) : Cut :=
  if m.full && !quoted then .separated else .never

/-- A stretch of characters that are all quoted or all not. -/
def Stretch.ofChars (cut : Cut) (quoted : Bool) (chars : List Char) : Stretch :=
  { chars := chars.map fun c => (c, quoted), cut, isQuoted := quoted }

/-- What stands at the front of a word for a home directory. -/
def homeOf? (home : Option String) (name : List Char) : Option (List Char) :=
  if name.isEmpty then (home.filter (!·.isEmpty)).map String.toList
  else if name = "root".toList then some "/root".toList
  else none

/-- A word with home directories put in place of the tildes at its front, and in assignments after
colons. -/
def Word.withHome (home : Option String) (inAssignment : Bool) (w : Word) : Word :=
  match w with
  | .text chars false :: rest => pieces true rest.isEmpty (chars.length + 1) chars ++ go rest
  | w => go w
where
  /-- The pieces of a text, of which the front may be a tilde. -/
  pieces (isFront isEnd : Bool) : Nat → List Char → Word
    | 0, chars => [.text chars false]
    | n + 1, chars =>
      match isFront, chars with
      | true, '~' :: after =>
        let name := after.takeWhile fun c => c != '/' && !(inAssignment && c == ':')
        let left := after.drop name.length
        match if left.isEmpty && !isEnd then none else homeOf? home name with
        | some dir => .text dir true :: pieces false isEnd n left
        | none => plain isEnd n chars
      | _, chars => plain isEnd n chars
  /-- A text that begins with no tilde. -/
  plain (isEnd : Bool) : Nat → List Char → Word
    | 0, chars => [.text chars false]
    | n + 1, chars =>
      let front := chars.takeWhile (· != ':')
      match inAssignment, chars.drop front.length with
      | true, ':' :: rest => .text (front ++ [':']) false :: pieces true isEnd n rest
      | _, _ => if chars.isEmpty then [] else [.text chars false]
  /-- The pieces after the front of a word. -/
  go : Word → Word
    | .text chars false :: rest => plain rest.isEmpty (chars.length + 1) chars ++ go rest
    | piece :: rest => piece :: go rest
    | [] => []

/-- What stands between parameters that are joined. -/
def State.joint (st : State) : List Char :=
  match st.vars.value? "IFS" with
  | some text => text.toList.take 1
  | none => [' ']

/-- The value of a parameter other than the list of parameters. -/
def State.parameter? (st : State) (s : Setting) (name : String) : Option String :=
  match name with
  | "#" => some (toString st.parameters.length)
  | "?" => some (toString st.status)
  | "$" => some (toString s.process)
  | "!" => st.latestJob.map toString
  | "-" => some st.switches.letters
  | "0" => some st.name
  | name =>
    if name.toList.head?.any Char.isDigit then st.parameters[Text.decimal name.toList - 1]?
    else st.vars.value? name

/-- A name stands for all parameters. -/
def isParameterList (name : String) : Bool := name == "@" || name == "*"

/-- The stretch that values make which stand for all parameters. -/
def State.listStretch (st : State) (m : Manner) (isEach quoted : Bool)
    (values : List String) : Stretch :=
  let joined (mark : List Char) : List Char := mark.intercalate (values.map String.toList)
  if m.full && isEach && quoted then
    { Stretch.ofChars .parameters true (joined ['\x00']) with
      cut := if values.isEmpty then .never else .parameters, isQuoted := false }
  else if m.full && !quoted then Stretch.ofChars .separated false (joined ['\x00'])
  else Stretch.ofChars .never quoted (joined st.joint)

/-- Applies something to the first or the last of some values. -/
def trimmedValues (front : Bool) (cut : List Char → List Char) (values : List String) :
    List String :=
  let change (text : String) : String := String.ofList (cut text.toList)
  if front then
    match values with
    | first :: rest => change first :: rest
    | [] => []
  else
    match values.reverse with
    | last :: rest => (change last :: rest).reverse
    | [] => []

end SoloBuild.Shell
