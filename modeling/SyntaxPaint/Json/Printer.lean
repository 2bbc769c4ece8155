import SyntaxPaint.Json.Spelling

/-!
JSON text, written over several lines: each item and each field has a line of its own, two spaces
deeper than the brackets around it. `depth` counts the brackets around a value.
-/

namespace SyntaxPaint.Json.Printer

def indent (depth : Nat) : List Char :=
  List.replicate (2 * depth) ' '

def block (opening closing : Char) (depth : Nat) (lines : List (List Char)) : List Char :=
  match lines with
  | [] => [opening, closing]
  | first :: rest =>
    opening :: '\n' :: (indent (depth + 1) ++ first ++
      rest.flatMap (fun line => ',' :: '\n' :: (indent (depth + 1) ++ line)) ++
      '\n' :: (indent depth ++ [closing]))

def array (depth : Nat) (items : List (List Char)) : List Char :=
  block '[' ']' depth items

def object (depth : Nat) (fields : List (String × List Char)) : List Char :=
  block '{' '}' depth (fields.map fun f => spell f.1 ++ ':' :: ' ' :: f.2)

def natural (n : Nat) : List Char :=
  Nat.toDigits 10 n

def bool (b : Bool) : List Char :=
  if b then ['t', 'r', 'u', 'e'] else ['f', 'a', 'l', 's', 'e']

end SyntaxPaint.Json.Printer
