import SyntaxPaint.Bracket.Backward
import SyntaxPaint.Bracket.Forward
import SyntaxPaint.Config
import SyntaxPaint.Journal

/-!
The two programs of the library, apart from the machine they run on. One paints a text and reports
the keywords in use, the painted stretches and the matches of all left brackets; the other writes
the tables of every built-in language to a folder.
-/

namespace SyntaxPaint.Report

open Text (Document Stretch)

structure Result where
  code : Nat
  output : String
  errors : String
deriving DecidableEq, Repr

def sample : String :=
  "\n            int main(void) \x7b\n" ++
  "                puts(\"a(\\\"b\\\")\"); /* ) */ // (\n" ++
  "                return f(x[1], \x7b2\x7d);\n" ++
  "            \x7d\n        "

def visible (s : String) : String :=
  String.ofList (s.toList.flatMap fun c =>
    if c = '\\' ∨ c = '"' then ['\\', c] else if c = '\n' then ['\\', 'n'] else [c])

def keywordLine (k : KeywordSet) : String :=
  s!"KEYWORDS ({k.size}): " ++ " ".intercalate k.toList

def stretchLine (d : Document) (s : Stretch) : String :=
  s!"[{Journal.padNumber 4 s.start}, {Journal.padNumber 4 s.stop}) " ++
    s!"{Journal.padRight 10 s.tag} \"{visible (d.slice s.start s.stop)}\""

/-- The line about the delimiter at an offset: where its search to the right ends, and where the
search back from there ends. -/
def bracketLine (p : Text.Passage) (offset : Nat) (c : Text.Cell) : String :=
  let stop := Bracket.forward .standard p offset
  let back := Bracket.backward .standard p stop
  let shown := Text.Quoted.char ((Painter.char? c.code).getD '?')
  s!"{Journal.padNumber 4 offset} {shown} [{c.tag}] -> " ++
    s!"{Journal.padNumber 4 stop} -> {Journal.padNumber 4 back}"

def isLeft (code : Nat) : Bool :=
  match Bracket.Table.standard.find? code with
  | some (.bracket .left _) => true
  | _ => false

def bracketLines (p : Text.Passage) : List String :=
  (p.mapIdx fun offset c =>
    if isLeft c.code then [bracketLine p offset c] else []).flatten

def lines (h : Highlighter) (text : String) : List String :=
  let painted := h.highlight (Document.ofString text)
  keywordLine h.keywords :: s!"RANGES ({h.tables.name}):" ::
    ((painted.1.filter (·.tag ≠ "")).map (stretchLine painted.2) ++
      "BRACKETS:" :: bracketLines painted.2.cells)

def ofLines (lines : List String) : String :=
  String.join (lines.map (· ++ "\n"))

section Programs

variable {m : Type → Type} [Monad m] [Storage m]

def report (file : Option String) (env : Config.Environment) : ExceptT Error m String := do
  let text ←
    match file with
    | some path => Storage.readText path
    | none => pure sample
  let h ← (← Config.ofEnvironment env).highlighter
  return ofLines (lines h text)

def paint (arguments : List String) (env : Config.Environment) : m Result := do
  match ← (report arguments.head? env).run with
  | .ok output => return ⟨0, output, ""⟩
  | .error e => return ⟨1, "", s!"synscan: {e.message}\n"⟩

def join (folder name : String) : String :=
  if folder.isEmpty ∨ folder.endsWith "/" then folder ++ name else folder ++ "/" ++ name

def writeTables (folder : String) (l : Language) : ExceptT Error m String := do
  let path := join folder (l.name ++ ".bin")
  let tables := l.tables
  tables.save .binary path
  tables.save .json (join folder (l.name ++ ".json"))
  let size := (← Storage.perform (Storage.read path)).length
  return s!"[gen_tables] {l.name}: {tables.numStates} states x {tables.numClasses} alphabets, " ++
    s!"{size} bytes -> {path}\n"

/-- An error as the end of a program shows it: the outermost task, then what caused it. -/
def errorText (e : Error) : String :=
  match e.tasks with
  | [] => s!"Error: {e.cause.message}\n"
  | [task] => s!"Error: {task}\n\nCaused by:\n    {e.cause.message}\n"
  | task :: inner =>
    s!"Error: {task}\n\nCaused by:\n" ++
      ofLines ((inner ++ [e.cause.message]).mapIdx fun i text => s!"    {i}: {text}")

def writeAll (folder : String) (output : String) : List Language → m Result
  | [] => return ⟨0, output, ""⟩
  | l :: rest => do
    match ← (writeTables folder l).run with
    | .ok line => writeAll folder (output ++ line) rest
    | .error e => return ⟨1, output, errorText e⟩

def generate (env : Config.Environment) : m Result := do
  let folder := (env "GEN_TABLES_DIR").getD "tables"
  match ← (Storage.perform (Storage.createFolders folder)).run with
  | .ok () => writeAll folder "" Language.all
  | .error e => return ⟨1, "", errorText e⟩

end Programs

end SyntaxPaint.Report
