import SyntaxPaint.Scan.Highlighter
import SyntaxPaint.Tables.File
import SyntaxPaint.Text.Blank

/-!
The configuration of a session: a built-in language, a tables file that takes the place of the
language's own tables, and more keywords. It starts from defaults, which a JSON file and then the
environment replace.
-/

namespace SyntaxPaint

open Text (Bytes)

structure Config where
  language : String
  /-- The file of the tables to use in place of the language's own. -/
  tables : Option String
  keywords : List String
deriving DecidableEq, Repr

namespace Config

def standard : Config :=
  ⟨"c", none, []⟩

structure Draft where
  language : Option String
  tables : Option (Option String)
  keywords : Option (List String)

open Json.Reader in
def fields : List (Json.Field Draft) := [
  ⟨"language", (·.language.isSome), fun d => return { d with language := some (← asText) }⟩,
  ⟨"tables", (·.tables.isSome), fun d => return { d with tables := some (← asPath) }⟩,
  ⟨"keywords", (·.keywords.isSome), fun d => return { d with keywords := some (← listOf asText) }⟩]

def ofDraft (d : Draft) : Config where
  language := d.language.getD standard.language
  tables := d.tables.getD standard.tables
  keywords := d.keywords.getD standard.keywords

def form : Json.Form Draft Config where
  name := "Config"
  fields := fields
  lenient := false
  start := ⟨none, none, none⟩
  finish d := .ok (ofDraft d)

def decode (b : Bytes) : Except Error Config :=
  during "failed to parse config JSON" (form.read.document b)

/-- The words in a list with commas, without the white space around them. -/
def wordsOf (list : String) : List String :=
  ((list.toList.splitOn ',').map Text.trim).filterMap fun word =>
    if word.isEmpty then none else some (String.ofList word)

abbrev Environment := String → Option String

/-- The value of a variable that holds more than white space. -/
def setting? (env : Environment) (name : String) : Option String :=
  (env name).filter fun value => !Text.allBlank value

def withSettings (config : Config) (env : Environment) : Config where
  language := (setting? env "SYNSCAN_LANG").getD config.language
  tables := (setting? env "SYNSCAN_TABLES").or config.tables
  keywords := config.keywords ++ ((setting? env "SYNSCAN_KEYWORDS").map wordsOf).getD []

/-- The words that count as keywords: those of the language, and those of the configuration. -/
def keywordSet (config : Config) : KeywordSet :=
  (KeywordSet.ofLanguage config.language).insertAll config.keywords

variable {m : Type → Type} [Monad m] [Storage m]

def load (path : String) : ExceptT Error m Config := do
  let b ← Storage.readBytes path
  during s!"load {path}" (decode b)

def ofEnvironment (env : Environment) : ExceptT Error m Config := do
  let config ←
    match setting? env "SYNSCAN_CONFIG" with
    | some path => load path
    | none => pure standard
  return config.withSettings env

def loadTables (config : Config) : ExceptT Error m Tables :=
  match config.tables with
  | some path => Tables.load path
  | none => ExceptT.mk (pure (Language.tablesOf config.language))

def highlighter (config : Config) : ExceptT Error m Highlighter := do
  return ⟨← config.loadTables, config.keywordSet⟩

end Config

end SyntaxPaint
