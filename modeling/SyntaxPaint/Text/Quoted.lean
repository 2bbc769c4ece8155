import SyntaxPaint.Text.Shape

/-!
Quoted text, as messages show it: the quote mark in use, the backslash and characters that have no
shape of their own are written as escapes, and every other character stands for itself.
-/

namespace SyntaxPaint.Text.Quoted

def byNumber (code : Nat) : List Char :=
  '\\' :: 'u' :: '{' :: (Nat.toDigits 16 code ++ ['}'])

def escape (mark c : Char) : List Char :=
  if c = mark ∨ c = '\\' then ['\\', c]
  else if c = '\n' then ['\\', 'n']
  else if c = '\t' then ['\\', 't']
  else if c = '\r' then ['\\', 'r']
  else if c = '\x00' then ['\\', '0']
  else if hasShape c then [c]
  else byNumber c.toNat

def enclose (mark : Char) (cs : List Char) : String :=
  String.ofList (mark :: (cs.flatMap (escape mark) ++ [mark]))

def text (s : String) : String :=
  enclose '"' s.toList

def char (c : Char) : String :=
  enclose '\'' [c]

def optional : Option String → String
  | none => "None"
  | some s => "Some(" ++ text s ++ ")"

end SyntaxPaint.Text.Quoted
