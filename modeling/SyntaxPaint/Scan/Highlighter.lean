import SyntaxPaint.Scan.Painter

/-!
A highlighter is a pair of tables and the keywords that a session uses with them.
-/

namespace SyntaxPaint

open Text (Buffer Stretch)

structure Highlighter where
  tables : Tables
  keywords : KeywordSet

namespace Highlighter

/-- The highlighter with the keywords of the language that the tables are named for. -/
def ofTables (tables : Tables) : Highlighter :=
  ⟨tables, .ofLanguage tables.name⟩

def painter (h : Highlighter) : Painter :=
  .keywords h.keywords

def tokenize {β : Type} [Buffer β] (h : Highlighter) (b : β) : List Token :=
  h.tables.tokenize (Buffer.cells b).codes

def classify {β : Type} [Buffer β] (h : Highlighter) (b : β) : List Stretch :=
  h.tables.classify h.painter (Buffer.cells b).codes.toArray

def highlight {β : Type} [Buffer β] (h : Highlighter) (b : β) : List Stretch × β :=
  h.tables.paint h.painter b

@[simp] theorem highlight_fst {β : Type} [Buffer β] (h : Highlighter) (b : β) :
    (h.highlight b).1 = h.classify b := rfl

def addKeyword (h : Highlighter) (word : String) : Highlighter :=
  { h with keywords := h.keywords.insert word }

def removeKeyword (h : Highlighter) (word : String) : Highlighter :=
  { h with keywords := h.keywords.erase word }

end Highlighter

end SyntaxPaint
