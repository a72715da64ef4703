/-!
# Characters of scripts

What single characters mean to the shell.
-/

namespace SoloBuild.Shell

/-- A space, a tab or a line break. -/
def isBlank (c : Char) : Bool := c == ' ' || c == '\t' || c == '\n'

/-- A character that ends a word. -/
def isMeta (c : Char) : Bool :=
  isBlank c || c == ';' || c == '&' || c == '|' || c == '<' || c == '>' || c == '(' || c == ')'

/-- A character of a name. -/
def isNameChar (c : Char) : Bool := c.isAlphanum || c == '_'

/-- A character that a name begins with. -/
def isNameStart (c : Char) : Bool := c.isAlpha || c == '_'

/-- A name of a variable or function. -/
def isName (text : List Char) : Bool :=
  text.all isNameChar && text.head?.any isNameStart

/-- A parameter that has no name. -/
def isSpecialParameter (c : Char) : Bool :=
  c == '*' || c == '@' || c == '#' || c == '?' || c == '-' || c == '$' || c == '!'

/-- A text without the blanks at its ends. -/
def trimmed (text : List Char) : List Char :=
  ((text.dropWhile isBlank).reverse.dropWhile isBlank).reverse

end SoloBuild.Shell
