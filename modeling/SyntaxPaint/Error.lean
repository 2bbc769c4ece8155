import SyntaxPaint.Json.Fault
import SyntaxPaint.Text.Flaw

/-!
Why an operation gives no result: one cause, and the tasks that were under way, outermost first.
`Error.message` is the one place that words them.
-/

namespace SyntaxPaint

inductive LayoutFault
  | noState
  | noClass
  | acceptCount (found expected : Nat)
  | labelCount (found expected : Nat)
  | transitionCount (found expected : Nat)
  | classRange (code cls bound : Nat)
  | targetRange (state cls target bound : Nat)
deriving DecidableEq, Repr

def LayoutFault.message : LayoutFault → String
  | noState => "at least the ground state is required"
  | noClass => "at least one alphabet class is required"
  | acceptCount found expected => s!"accept has {found} entries, expected {expected}"
  | labelCount found expected => s!"label has {found} entries, expected {expected}"
  | transitionCount found expected => s!"transitions has {found} entries, expected {expected}"
  | classRange code cls bound => s!"alphabet_of[{code}] = {cls} out of range (< {bound})"
  | targetRange state cls target bound =>
      s!"transition s{state}/a{cls} -> s{target} out of range (< {bound})"

inductive StorageFault
  | notFound
  | alreadyExists
  | notFolder
  | isFolder
  | longName
  | nulByte
  | notText
  | other (description : String)
deriving DecidableEq, Repr

def StorageFault.message : StorageFault → String
  | notFound => "No such file or directory (os error 2)"
  | alreadyExists => "File exists (os error 17)"
  | notFolder => "Not a directory (os error 20)"
  | isFolder => "Is a directory (os error 21)"
  | longName => "File name too long (os error 36)"
  | nulByte => "file name contained an unexpected NUL byte"
  | notText => "stream did not contain valid UTF-8"
  | other description => description

inductive Cause
  | layout (name : String) (fault : LayoutFault)
  | stateCount (name : String) (count : Nat)
  | unknownLanguage (name : String) (known : List String)
  /-- Binary tables end before a part is complete. -/
  | truncated (part : String) (need held : Nat)
  | badMagic
  | longText (bytes : Nat)
  | longCount
  | encoding (flaw : Text.Flaw)
  | json (fault : Json.Fault) (place : Json.Place)
  | unknownExtension (extension : Option String) (path : String)
  | invalidOffset (offset length : Nat)
  | storage (fault : StorageFault)
deriving DecidableEq, Repr

def Cause.message : Cause → String
  | layout name fault => s!"tables '{name}': {fault.message}"
  | stateCount name count => s!"dfa '{name}': {count} states do not fit in u16"
  | unknownLanguage name known =>
      s!"unknown language '{name}' (known: " ++ ", ".intercalate known ++ ")"
  | truncated part need held => s!"truncated {part}: need {need} bytes, have {held}"
  | badMagic => "bad magic in tables .bin"
  | longText bytes => s!"string too long: {bytes} bytes"
  | longCount => "number too large to fit in target type"
  | encoding flaw => flaw.message
  | json fault place => s!"{fault.message} at {place.message}"
  | unknownExtension extension path =>
      s!"unsupported tables extension {Text.Quoted.optional extension} for {path}"
  | invalidOffset offset length => s!"invalid offset {offset} for buffer of length {length}"
  | storage fault => fault.message

structure Error where
  /-- The tasks that failed because of the cause, outermost first. -/
  tasks : List String
  cause : Cause
deriving DecidableEq, Repr

namespace Error

def ofCause (cause : Cause) : Error :=
  ⟨[], cause⟩

def within (task : String) (e : Error) : Error :=
  { e with tasks := task :: e.tasks }

def message (e : Error) : String :=
  ": ".intercalate (e.tasks ++ [e.cause.message])

end Error

def fail {α : Type} (cause : Cause) : Except Error α :=
  .error (.ofCause cause)

def during {α : Type} (task : String) (r : Except Error α) : Except Error α :=
  r.mapError (Error.within task)

theorem bind_eq_ok_iff {α β : Type} {result : Except Error α} {next : α → Except Error β}
    {value : β} :
    (result >>= next) = .ok value ↔ ∃ a, result = .ok a ∧ next a = .ok value := by
  constructor
  · intro made
    cases result with
    | error e => contradiction
    | ok a => exact ⟨a, rfl, made⟩
  · rintro ⟨a, rfl, made⟩
    exact made

end SyntaxPaint
