import SyntaxPaint.Json.Form
import SyntaxPaint.Json.Printer
import SyntaxPaint.Tables.Basic

/-!
The JSON form of tables: a record of seven fields, whose members other than these are not looked at.
-/

namespace SyntaxPaint.Record

open Json (Word)
open Text (Bytes)

structure Draft where
  name : Option String
  numStates : Option Word
  numClasses : Option Word
  classes : Option (List Word)
  accept : Option (List Bool)
  labels : Option (List String)
  transitions : Option (List Word)

def Draft.empty : Draft :=
  ⟨none, none, none, none, none, none, none⟩

def required {α : Type} (key : String) (field : Option α) : Except String α :=
  field.elim (.error key) .ok

def numbers (words : List Word) : List Nat :=
  words.map (·.val)

def Draft.layout (d : Draft) : Except String Layout := do
  let name ← required "name" d.name
  let numStates ← required "numStates" d.numStates
  let numClasses ← required "numAlphabets" d.numClasses
  let classes ← required "alphabetOf" d.classes
  let accept ← required "accept" d.accept
  let labels ← required "label" d.labels
  let transitions ← required "transitions" d.transitions
  return {
    name
    numStates := numStates
    numClasses := numClasses
    classes := Layout.classMap (numbers classes)
    accept := accept.toArray
    labels := labels.toArray
    transitions := (numbers transitions).toArray
    numStates_lt := numStates.property
    numClasses_lt := numClasses.property }

open Json.Reader in
def fields : List (Json.Field Draft) := [
  ⟨"name", (·.name.isSome), fun d => return { d with name := some (← asText) }⟩,
  ⟨"numStates", (·.numStates.isSome), fun d => return { d with numStates := some (← asWord) }⟩,
  ⟨"numAlphabets", (·.numClasses.isSome), fun d => return { d with numClasses := some (← asWord) }⟩,
  ⟨"alphabetOf", (·.classes.isSome),
    fun d => return { d with classes := some (← listOfLength 256 asWord) }⟩,
  ⟨"accept", (·.accept.isSome), fun d => return { d with accept := some (← listOf asBool) }⟩,
  ⟨"label", (·.labels.isSome), fun d => return { d with labels := some (← listOf asText) }⟩,
  ⟨"transitions", (·.transitions.isSome),
    fun d => return { d with transitions := some (← listOf asWord) }⟩]

def form : Json.Form Draft Layout where
  name := "TablesDisk"
  fields := fields
  lenient := true
  start := .empty
  finish := Draft.layout

def decode (b : Bytes) : Except Error Tables := do
  let layout ← during "failed to parse tables JSON" (form.read.document b)
  layout.check

open Json Printer in
def print (t : Tables) : List Char :=
  let numbers (a : List Nat) := array 1 (a.map natural)
  object 0
    [("name", spell t.name),
      ("numStates", natural t.numStates),
      ("numAlphabets", natural t.numClasses),
      ("alphabetOf", numbers t.classes.toArray.toList),
      ("accept", array 1 (t.accept.toList.map bool)),
      ("label", array 1 (t.labels.toList.map spell)),
      ("transitions", numbers t.transitions.toList)]

def encode (t : Tables) : Bytes :=
  Bytes.ofString (String.ofList (print t))

end SyntaxPaint.Record
