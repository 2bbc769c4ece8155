/-!
Tagged text as plain data. A passage is a list of cells, a cell is a character code with its tag,
and an offset counts cells. `coalesce` turns a sequence of adjacent stretches into the coarsest one.
-/

namespace SyntaxPaint.Text

structure Cell where
  code : Nat
  tag : String
deriving DecidableEq, Repr

def normalTag : String := "normal"

/-- Tags that may belong to one search: equal ones, and the normal tag with any other. -/
def comparable (a b : String) : Bool :=
  a == b || a == normalTag || b == normalTag

@[simp] theorem comparable_self (a : String) : comparable a a = true := by
  simp [comparable]

structure Stretch where
  start : Nat
  stop : Nat
  tag : String
deriving DecidableEq, Repr

/-- Puts a stretch before others, making one of it and its neighbour when their tags agree. -/
def Stretch.join (s : Stretch) : List Stretch → List Stretch
  | [] => [s]
  | t :: rest => if s.tag = t.tag then ⟨s.start, t.stop, t.tag⟩ :: rest else s :: t :: rest

def coalesce (stretches : List Stretch) : List Stretch :=
  stretches.foldr Stretch.join []

@[simp] theorem coalesce_cons (s : Stretch) (rest : List Stretch) :
    coalesce (s :: rest) = s.join (coalesce rest) := rfl

abbrev Passage := List Cell

namespace Passage

def ofCodes (codes : List Nat) : Passage :=
  codes.map (⟨·, ""⟩)

def ofString (s : String) : Passage :=
  ofCodes (s.toList.map Char.toNat)

def codes (p : Passage) : List Nat :=
  p.map Cell.code

def retag (p : Passage) (start stop : Nat) (tag : String) : Passage :=
  p.mapIdx fun i c => if start ≤ i ∧ i < stop then { c with tag } else c

/-- Replaces the cells from `start` up to `stop`; offsets past the end mean the end, and a start
past the stop means the stop. -/
def replace (p : Passage) (start stop : Nat) (cells : Passage) : Passage :=
  let stop := min stop p.length
  p.take (min start stop) ++ cells ++ p.drop stop

def runs (p : Passage) : List Stretch :=
  coalesce (p.mapIdx fun i c => ⟨i, i + 1, c.tag⟩)

end Passage

end SyntaxPaint.Text
