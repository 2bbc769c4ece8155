import SyntaxPaint.Tables.Automaton

/-!
The languages that tables are built in for: text with double-quoted strings, sources of the C
family, and GN build files. Each is an automaton, given edit by edit, and a list of words that are
keywords.
-/

namespace SyntaxPaint

inductive Tag
  | plain
  | comment
  | identifier
  | keyword
  | number
  | string
deriving DecidableEq, Repr

def Tag.text : Tag → String
  | plain => ""
  | comment => "comment"
  | identifier => "identifier"
  | keyword => "keyword"
  | number => "number"
  | string => "string"

inductive Language
  | string
  | c
  | gn
deriving DecidableEq, Repr

namespace Language

open Automaton (Edit)

def all : List Language :=
  [string, c, gn]

def name : Language → String
  | string => "string"
  | c => "c"
  | gn => "gn"

def named? (name : String) : Option Language :=
  all.find? fun l => l.name == name

def keywords : Language → List String
  | string => []
  | c =>
    ["auto", "break", "case", "char", "const", "continue", "default", "do", "double", "else",
      "enum", "extern", "float", "for", "goto", "if", "inline", "int", "long", "register",
      "return", "short", "signed", "sizeof", "static", "struct", "switch", "typedef", "union",
      "unsigned", "void", "volatile", "while"]
  | gn =>
    ["assert", "declare_args", "defined", "else", "false", "foreach", "forward_variables_from",
      "if", "import", "template", "true"]

def keywordsOf (name : String) : List String :=
  ((named? name).map keywords).getD []

def state (comment : String) (tag : Tag) : Edit :=
  .state comment tag.text false

def final (comment : String) (tag : Tag) : Edit :=
  .state comment tag.text true

def onto (source : Nat) (chars : List Char) (target : Nat) : Edit :=
  .edges source (.codes (chars.map Char.toNat)) target

def beyondOnto (source target : Nat) : Edit :=
  .edges source .beyond target

def othersOnto (source : Nat) (chars : List Char) (target : Nat) : Edit :=
  .edges source (.allExcept (chars.map Char.toNat)) target

def whitespace : List Char :=
  [' ', '\t', '\r', '\n', '\x0b', '\x0c']

def rangeOnto (source : Nat) (first last : Char) (target : Nat) : Edit :=
  .edges source (.range first.toNat last.toNat) target

def lettersOnto (source target : Nat) : List Edit :=
  [rangeOnto source 'A' 'Z' target, rangeOnto source 'a' 'z' target, onto source ['_'] target]

def digitsOnto (source target : Nat) : Edit :=
  rangeOnto source '0' '9' target

/-- A literal between quotes, with states `body`, `body + 1` after a backslash and `body + 2` at its
end; a newline leaves it, unless a backslash stands before it. -/
def quoted (what : String) (quote : Char) (body : Nat) : List Edit :=
  let escape := body + 1
  let close := body + 2
  [state (what ++ " body") .string,
    state (what ++ " escape") .string,
    final (what ++ " end") .string,
    onto ground [quote] body,
    othersOnto body [quote, '\\', '\n'] body,
    onto body [quote] close,
    onto body ['\\'] escape,
    othersOnto escape [] body]

def common : List Edit :=
  let punctuation := 1
  let white := 2
  let identifier := 3
  let number := 4
  [final "punctuation" .plain,
    state "whitespace" .plain,
    state "identifier" .identifier,
    state "number" .number,
    othersOnto ground [] punctuation,
    onto ground whitespace white] ++
  lettersOnto ground identifier ++
  [beyondOnto ground identifier,
    digitsOnto ground number,
    onto white whitespace white] ++
  lettersOnto identifier identifier ++
  [digitsOnto identifier identifier,
    beyondOnto identifier identifier] ++
  lettersOnto number number ++
  [digitsOnto number number,
    onto number ['.'] number]

/-- Strings over plain text, where nothing can be escaped. -/
def stringEdits : List Edit :=
  let body := 1
  let close := 2
  let plain := 3
  [state "string body" .string,
    final "string end" .string,
    state "plain" .plain,
    othersOnto ground ['"'] plain,
    onto ground ['"'] body,
    othersOnto body ['"'] body,
    onto body ['"'] close,
    othersOnto plain ['"'] plain]

/-- Strings, character literals, and both kinds of comments. A slash is plain; a comment that
follows it is entered straight from the slash, so that both make one lexeme. -/
def cEdits : List Edit :=
  let slash := 11
  let line := 12
  let block := 13
  let star := 14
  let done := 15
  common ++ quoted "string" '"' 5 ++ quoted "char" '\'' 8 ++
    [state "slash" .plain,
      state "line comment" .comment,
      state "block comment" .comment,
      state "block comment star" .comment,
      final "block comment end" .comment,
      onto ground ['/'] slash,
      onto slash ['/'] line,
      onto slash ['*'] block,
      othersOnto line ['\n'] line,
      othersOnto block ['*'] block,
      onto block ['*'] star,
      othersOnto star ['*', '/'] block,
      onto star ['*'] star,
      onto star ['/'] done]

def gnEdits : List Edit :=
  let line := 8
  common ++ quoted "string" '"' 5 ++
    [state "line comment" .comment,
      onto ground ['#'] line,
      othersOnto line ['\n'] line]

def edits : Language → List Edit
  | string => stringEdits
  | c => cEdits
  | gn => gnEdits

theorem edits?_isSome (l : Language) :
    ((Automaton.new l.name "").edits? l.edits).isSome = true := by
  cases l <;> decide +kernel

def automaton (l : Language) : Automaton :=
  ((Automaton.new l.name "").edits? l.edits).get l.edits?_isSome

theorem few_states (l : Language) : l.automaton.states.size < 65536 := by
  cases l <;> decide +kernel

theorem fault?_layout (l : Language) : (l.automaton.layout l.few_states).fault? = none := by
  cases l <;> decide +kernel

def tables (l : Language) : Tables :=
  ⟨l.automaton.layout l.few_states, (Layout.fault?_eq_none_iff _).1 l.fault?_layout⟩

theorem tables_automaton (l : Language) : l.automaton.tables = .ok l.tables := by
  have none := l.fault?_layout
  rw [Automaton.tables, dif_pos l.few_states, Layout.check]
  split
  · rfl
  · next fault found => rw [none] at found; contradiction

def tablesOf (name : String) : Except Error Tables :=
  match named? name with
  | some l => .ok l.tables
  | none => fail (.unknownLanguage name (all.map Language.name))

end Language

end SyntaxPaint
