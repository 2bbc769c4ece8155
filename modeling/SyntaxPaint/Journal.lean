import SyntaxPaint.Bracket.Backward
import SyntaxPaint.Bracket.Forward
import SyntaxPaint.Scan.Highlighter

/-!
What the library reports about its work, line by line: the states of an automaton, where a scan
begins a token, what painting made of a text, and why a bracket search gave up.
-/

namespace SyntaxPaint

inductive Level
  | debug
  | trace
deriving DecidableEq, Repr

def Level.name : Level → String
  | debug => "DEBUG"
  | trace => "TRACE"

structure LogLine where
  level : Level
  message : String
deriving DecidableEq, Repr

namespace LogLine

def text (l : LogLine) : String :=
  l.level.name ++ " " ++ l.message

end LogLine

namespace Journal

def padRight (width : Nat) (s : String) : String :=
  s ++ String.ofList (List.replicate (width - s.length) ' ')

def padNumber (width n : Nat) : String :=
  let digits := Nat.toDigits 10 n
  String.ofList (List.replicate (width - digits.length) ' ' ++ digits)

def ofState (id : Nat) (s : Automaton.State) : LogLine :=
  let mark := if s.accept then " ACCEPT" else ""
  ⟨.trace, s!"  s{id} {padRight 20 s.comment} label={Text.Quoted.text s.label}{mark}"⟩

def ofAutomaton (a : Automaton) : List LogLine :=
  if a.states.size < 65536 then
    ⟨.debug,
      s!"[dfa] '{a.name}': {a.states.size} states, {a.classColumns.length} alphabet classes"⟩ ::
      a.states.toList.mapIdx ofState
  else []

def shown (code : Nat) : String :=
  match Painter.char? code with
  | none => String.ofList (Text.Quoted.byNumber code)
  | some c =>
    if c = '\n' then "\\n"
    else if c = '"' then "\\\""
    else if c = '\\' then "\\\\"
    else c.toString

def ofOnset (t : Tables) (o : Onset) : LogLine :=
  let ending := if t.accepts o.state then "ACCEPT" else "continue"
  ⟨.trace, s!"  transit {o.start} s{o.source}-\"{shown o.code}\"->s{o.state} {ending}"⟩

def ofScan (t : Tables) (codes : List Nat) : List LogLine :=
  ((t.scan codes).onsets.map (ofOnset t)).reverse

def ofHighlight (h : Highlighter) (codes : List Nat) : List LogLine :=
  let count := (h.tables.classify h.painter codes.toArray).length
  ofScan h.tables codes ++
    [⟨.debug, s!"[paint] '{h.tables.name}': {codes.length} chars -> {count} ranges"⟩]

def ofOutcome (d : Bracket.Direction) : Bracket.Outcome → List LogLine
  | .tooDeep offset => [⟨.debug, s!"[bracket] nesting exceeds {Bracket.maxNesting} at {offset}"⟩]
  | .mismatched offset opening =>
    match d with
    | .forward => [⟨.debug, s!"[bracket] mismatched closer at {offset}, opener at {opening}"⟩]
    | .backward => [⟨.debug, s!"[bracket] mismatched opener at {offset}, closer at {opening}"⟩]
  | _ => []

def ofSearches (table : Bracket.Table) (p : Text.Passage) (caret : Nat) : List LogLine :=
  let caret := min caret p.length
  ofOutcome .forward (Bracket.forwardOutcome table p caret) ++
    ofOutcome .backward (Bracket.backwardOutcome table p caret)

end Journal

end SyntaxPaint
