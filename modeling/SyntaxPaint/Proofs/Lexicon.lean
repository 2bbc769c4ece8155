import SyntaxPaint.Scan.Keyword

/-!
The lexical grammar of the C family, written down without reference to an automaton: a lexer that
takes one lexeme after another from the left, each as long as its kind allows.
-/

namespace SyntaxPaint

def KeywordSet.spells (k : KeywordSet) (text : List Nat) : Bool :=
  k.toList.any fun word => word.toList.map Char.toNat == text

namespace Lexicon

inductive Kind
  | blank
  | word
  | number
  | quoted
  | comment
  | symbol
deriving DecidableEq, Repr

def isAnyOf (chars : List Char) (code : Nat) : Bool :=
  chars.any fun c => c.toNat == code

def isBetween (first last : Char) (code : Nat) : Bool :=
  decide (first.toNat ≤ code ∧ code ≤ last.toNat)

def isBlank : Nat → Bool :=
  isAnyOf [' ', '\t', '\r', '\n', '\x0b', '\x0c']

def isLetter (code : Nat) : Bool :=
  isBetween 'A' 'Z' code || isBetween 'a' 'z' code || isAnyOf ['_'] code

def isDigit : Nat → Bool :=
  isBetween '0' '9'

def beginsWord (code : Nat) : Bool :=
  isLetter code || decide (128 ≤ code)

def inWord (code : Nat) : Bool :=
  beginsWord code || isDigit code

def inNumber (code : Nat) : Bool :=
  isLetter code || isDigit code || isAnyOf ['.'] code

def inLine (code : Nat) : Bool :=
  !isAnyOf ['\n'] code

def isQuote : Nat → Bool :=
  isAnyOf ['"', '\'']

/-- How many characters a literal takes after its opening quote: through the next such quote or up
to the next newline, but a backslash takes the character after it along. -/
def quotedRest (quote : Nat) : List Nat → Nat
  | [] => 0
  | code :: rest =>
    if code = quote then 1
    else if code = '\n'.toNat then 0
    else if code = '\\'.toNat then
      match rest with
      | [] => 1
      | _ :: rest => quotedRest quote rest + 2
    else quotedRest quote rest + 1

/-- How many characters a comment takes after its opening slash and star: through the next star that
a slash follows. -/
def blockRest : List Nat → Nat
  | [] => 0
  | code :: rest =>
    if code = '*'.toNat ∧ rest.head? = some '/'.toNat then 2 else blockRest rest + 1

def afterSlash : List Nat → Kind × Nat
  | [] => (.symbol, 0)
  | code :: rest =>
    if code = '/'.toNat then (.comment, (rest.takeWhile inLine).length + 1)
    else if code = '*'.toNat then (.comment, blockRest rest + 1)
    else (.symbol, 0)

def lead (code : Nat) (rest : List Nat) : Kind × Nat :=
  if isBlank code then (.blank, (rest.takeWhile isBlank).length)
  else if beginsWord code then (.word, (rest.takeWhile inWord).length)
  else if isDigit code then (.number, (rest.takeWhile inNumber).length)
  else if isQuote code then (.quoted, quotedRest code rest)
  else if code = '/'.toNat then afterSlash rest
  else (.symbol, 0)

structure Lexeme where
  start : Nat
  stop : Nat
  kind : Kind
deriving DecidableEq, Repr

def lexemes (offset : Nat) : List Nat → List Lexeme
  | [] => []
  | code :: rest =>
    let (kind, more) := lead code rest
    ⟨offset, offset + 1 + more, kind⟩ :: lexemes (offset + 1 + more) (rest.drop more)
termination_by codes => codes.length
decreasing_by
  simp only [List.length_drop, List.length_cons]
  omega

def Lexeme.text (codes : List Nat) (x : Lexeme) : List Nat :=
  codes.extract x.start x.stop

/-- The tag of a lexeme of some text; words that are longer than 64 characters are never
keywords. -/
def Lexeme.tag (k : KeywordSet) (codes : List Nat) (x : Lexeme) : String :=
  match x.kind with
  | .blank | .symbol => ""
  | .word =>
    if k.spells (x.text codes) && decide ((x.text codes).length ≤ 64) then "keyword"
    else "identifier"
  | .number => "number"
  | .quoted => "string"
  | .comment => "comment"

end Lexicon

end SyntaxPaint
