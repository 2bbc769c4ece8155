import SyntaxPaint.Error

/-!
Reading of JSON, byte by byte. A reader takes the first bytes of a document and leaves the others;
when it fails, it says what is wrong and how many bytes follow the place. `iterate` repeats a step;
`iterate_of_inl` and `iterate_of_inr` say what it gives, step by step.
-/

namespace SyntaxPaint.Json

open Text (Bytes)

/-- A fault, and the number of bytes after its place. -/
structure Stop where
  fault : Fault
  left : Nat
deriving DecidableEq, Repr

abbrev Reader (α : Type) := StateT Bytes (Except Stop) α

def isBlank (b : UInt8) : Bool :=
  b = ' '.toUInt8 ∨ b = '\n'.toUInt8 ∨ b = '\t'.toUInt8 ∨ b = '\r'.toUInt8

namespace Reader

variable {α σ : Type}

def stop (fault : Fault) : Reader α := fun rest =>
  .error ⟨fault, rest.length⟩

def stopPast (fault : Fault) : Reader α := fun rest =>
  .error ⟨fault, rest.tail.length⟩

def peek : Reader (Option Char) := fun rest =>
  .ok (rest.head?.map fun b => Char.ofNat b.toNat, rest)

def skip : Reader Unit := fun rest =>
  .ok ((), rest.tail)

def next : Reader (Option Char) := do
  let c ← peek
  skip
  return c

def skipBlanks : Reader Unit := fun rest =>
  .ok ((), rest.dropWhile isBlank)

def token : Reader (Option Char) := do
  skipBlanks
  peek

/-- Fails at the next byte that is no white space, or after it if it is the given bracket. -/
def stopAfter (closing : Char) (fault : Fault) : Reader α := do
  if (← token) = some closing then skip
  stop fault

def letters : List Char → Reader Unit
  | [] => return ()
  | c :: rest => do
    match ← next with
    | none => stop .endOfValue
    | some d => if d = c then letters rest else stop .noWord

/-- Reads a bare word whose first letter comes next; these are its other letters. -/
def word (others : List Char) : Reader Unit := do
  skip
  letters others

def colon : Reader Unit := do
  match ← token with
  | some ':' => skip
  | some _ => stopPast .noColon
  | none => stopPast .endOfObject

/-- Repeats a step, at most once more for every byte of `fuel`. -/
def iterateFor (step : σ → Reader (σ ⊕ α)) (fuel : Bytes) (s : σ) (rest : Bytes) :
    Except Stop (α × Bytes) :=
  match step s rest with
  | .ok (.inl s, rest) =>
    match fuel with
    | [] => stop .endOfValue rest
    | _ :: fuel => iterateFor step fuel s rest
  | .ok (.inr a, rest) => .ok (a, rest)
  | .error stopped => .error stopped

def iterate (step : σ → Reader (σ ⊕ α)) (s : σ) : Reader α := fun rest =>
  iterateFor step rest s rest

theorem iterateFor_of_ok {step : σ → Reader (σ ⊕ α)} {fuel more : Bytes} {s : σ} {rest : Bytes}
    {result : α × Bytes} (done : iterateFor step fuel s rest = .ok result)
    (enough : fuel.length ≤ more.length) : iterateFor step more s rest = .ok result := by
  induction fuel generalizing more s rest with
  | nil =>
    unfold iterateFor at done ⊢
    cases taken : step s rest with
    | error stopped => simp only [taken] at done; contradiction
    | ok part =>
      obtain ⟨s' | a, rest'⟩ := part
      · simp only [taken] at done
        contradiction
      · simpa only [taken] using done
  | cons b fuel ih =>
    unfold iterateFor at done ⊢
    cases taken : step s rest with
    | error stopped => simp only [taken] at done; contradiction
    | ok part =>
      obtain ⟨s' | a, rest'⟩ := part
      · simp only [taken] at done
        cases more with
        | nil => contradiction
        | cons b' more => exact ih done (Nat.le_of_succ_le_succ enough)
      · simpa only [taken] using done

theorem iterate_of_inr {step : σ → Reader (σ ⊕ α)} {s : σ} {rest rest' : Bytes} {a : α}
    (last : step s rest = .ok (.inr a, rest')) : iterate step s rest = .ok (a, rest') := by
  rw [iterate, iterateFor, last]

theorem iterate_of_inl {step : σ → Reader (σ ⊕ α)} {s s' : σ} {rest rest' : Bytes}
    {result : α × Bytes} (first : step s rest = .ok (.inl s', rest'))
    (takes : rest'.length < rest.length) (others : iterate step s' rest' = .ok result) :
    iterate step s rest = .ok result := by
  rw [iterate, iterateFor, first]
  cases rest with
  | nil => contradiction
  | cons b rest => exact iterateFor_of_ok others (Nat.le_of_lt_succ takes)

def finish : Reader Unit := do
  if (← token).isSome then stopPast .trailingCharacters

def document (r : Reader α) (b : Bytes) : Except Error α :=
  match (do let a ← r; finish; return a : Reader α) b with
  | .ok (a, _) => .ok a
  | .error stopped =>
    fail (.json stopped.fault (.after (b.take (b.length - stopped.left))))

end Reader

end SyntaxPaint.Json
