import SyntaxPaint.Scan.Keyword
import SyntaxPaint.Scan.Token
import SyntaxPaint.Text.Document

/-!
Painting: each token gets the tag that a painter chooses from its label, and neighbours with equal
tags make one stretch. A token without a label takes the label of the token joined to it, so that
the first slash of a comment is painted as comment.
-/

namespace SyntaxPaint

open Text (Buffer Stretch coalesce)

/-- Chooses a tag for a token of a text, given its label. -/
abbrev Painter := Array Nat → Token → String → String

namespace Painter

def labels : Painter :=
  fun _ _ label => label

def longestKeyword : Nat := 64

def char? (code : Nat) : Option Char :=
  if code.isValidChar then some (Char.ofNat code) else none

def word? (codes : Array Nat) (token : Token) : Option String :=
  ((codes.extract token.start token.stop).toList.mapM char?).map String.ofList

def keywords (k : KeywordSet) : Painter := fun codes token label =>
  if label ≠ Tag.identifier.text ∨ longestKeyword < token.length ∨ k.isEmpty then label
  else
    match word? codes token with
    | some word => if k.contains word then Tag.keyword.text else label
    | none => label

end Painter

namespace Tables

/-- Puts a token before others, with its own label, or without one with the label of a token that is
joined to it. -/
def labelBefore (t : Tables) (token : Token) (later : List (Token × String)) :
    List (Token × String) :=
  let own := t.label token.state
  match later with
  | [] => [(token, own)]
  | next :: rest => (token, if own = "" ∧ next.1.joined then next.2 else own) :: next :: rest

def labelled (t : Tables) (tokens : List Token) : List (Token × String) :=
  tokens.foldr t.labelBefore []

def classify (t : Tables) (painter : Painter) (codes : Array Nat) : List Stretch :=
  coalesce ((t.labelled (t.tokenize codes.toList)).map fun (token, label) =>
    ⟨token.start, token.stop, painter codes token label⟩)

end Tables

/-- Paints stretches; those under the empty tag are left as they are. -/
def paintStretches {β : Type} [Buffer β] (b : β) (stretches : List Stretch) : β :=
  stretches.foldl (fun b s => if s.tag = "" then b else Buffer.retag b s.start s.stop s.tag) b

def Tables.paint {β : Type} [Buffer β] (t : Tables) (painter : Painter) (b : β) :
    List Stretch × β :=
  let codes := (Buffer.cells b).codes.toArray
  let stretches := t.classify painter codes
  (stretches, paintStretches (Buffer.retag b 0 codes.size "") stretches)

end SyntaxPaint
