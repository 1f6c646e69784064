import SlotLang.Span

/-!
# Tokens

The words a source text is cut into. A token is one of five punctuation marks, a literal (a run
of letters, digits, underscores and dashes: a name, a keyword or a number) or the end mark.
-/

namespace SlotLang

/-- What a token is. -/
inductive TokenKind where
  | parenOpen
  | parenClose
  | colon
  | equals
  | comma
  | literal
  | eof
deriving DecidableEq, Repr, Inhabited

namespace TokenKind

/-- The kind of a punctuation mark. -/
def ofPunctuation? : Char → Option TokenKind
  | '(' => some .parenOpen
  | ')' => some .parenClose
  | ':' => some .colon
  | '=' => some .equals
  | ',' => some .comma
  | _ => none

/-- The kind's name in a token listing. -/
def name : TokenKind → String
  | .parenOpen => "ParenOpen"
  | .parenClose => "ParenClose"
  | .colon => "Colon"
  | .equals => "Equals"
  | .comma => "Comma"
  | .literal => "Literal"
  | .eof => "Eof"

/-- The kind that goes by a name in a token listing. -/
def ofName? : String → Option TokenKind
  | "ParenOpen" => some .parenOpen
  | "ParenClose" => some .parenClose
  | "Colon" => some .colon
  | "Equals" => some .equals
  | "Comma" => some .comma
  | "Literal" => some .literal
  | "Eof" => some .eof
  | _ => none

/-- What a message calls a token of this kind. -/
def describe : TokenKind → String
  | .parenOpen => "`(`"
  | .parenClose => "`)`"
  | .colon => "`:`"
  | .equals => "`=`"
  | .comma => "`,`"
  | .literal => "literal"
  | .eof => "end of input"

end TokenKind

/-- A word of a source text: its kind, its characters and its place. -/
structure Token where
  /-- What the token is. -/
  kind : TokenKind
  /-- The text of the token; the end mark has none. -/
  lexeme : String
  /-- Where the token stands. -/
  span : Span
deriving DecidableEq, Repr, Inhabited

/-- Whether `c` may begin a name: an ASCII letter or an underscore. -/
def isNameStart (c : Char) : Bool := c.isAlpha || c = '_'

/-- Whether `c` may follow in a name: an ASCII letter or digit or an underscore. -/
def isNameChar (c : Char) : Bool := c.isAlphanum || c = '_'

/-- Whether a text is a name: a letter or underscore, then letters, digits and underscores. -/
def isName (text : String) : Bool :=
  match text.toList with
  | [] => false
  | c :: cs => isNameStart c && cs.all isNameChar

namespace Token

/-- The end mark of a list of no tokens. -/
def nowhere : Token := ⟨.eof, "", .nowhere⟩

/-- Whether the token is a literal that can name a variable or a function. -/
def isIdentifier (t : Token) : Bool := t.kind = .literal && isName t.lexeme

/-- The token's line in a listing, in the pieces in which it is handed to a writer. -/
def pieces (t : Token) : List String :=
  let place := [Decimal.ofNat t.span.line, ":", Decimal.ofNat t.span.column]
  match t.kind with
  | .literal => [t.kind.name, "(", t.lexeme, ") @ "] ++ place
  | .eof => ["Eof @ "] ++ place
  | kind => [kind.name, " @ "] ++ place

/-- The token's line in a listing. -/
def text (t : Token) : String := String.join t.pieces

end Token

end SlotLang
