import SyntaxPaint.Storage.Basic

/-!
A disk in memory: files and folders, listed by the names that lead to them from the topmost folder.
A path that begins with a slash begins there, and every other path in the working folder.
-/

namespace SyntaxPaint

open Text (Bytes)

inductive Entry
  | file (contents : Bytes)
  | folder
  /-- A file that stays empty whatever is written to it. -/
  | sink
deriving DecidableEq, Repr

abbrev Names := List String

structure Disk where
  entries : List (Names × Entry)
  working : Names

namespace Disk

def topmost : List String :=
  ["bin", "boot", "dev", "etc", "home", "lib", "media", "mnt", "opt", "proc", "root", "run",
    "sbin", "srv", "sys", "tmp", "usr", "var"]

/-- A disk whose working folder is empty. The name of that folder is the empty one, so that no path
leads into it from outside. -/
def empty : Disk :=
  let folders := topmost.map fun name => [name]
  let working := ["tmp", ""]
  { entries := (["dev", "null"], .sink) :: (working :: folders).map fun names => (names, .folder)
    working }

def entry? (d : Disk) (names : Names) : Option Entry :=
  if names.isEmpty then some .folder else d.entries.lookup names

def put (d : Disk) (names : Names) (e : Entry) : Disk :=
  { d with entries := (names, e) :: d.entries.filter (·.1 != names) }

/-- The parts of a path between slashes. The first one is empty if the path begins with a slash. -/
def parts (path : String) : List String :=
  (path.toList.splitOn '/').map String.ofList

def maxName : Nat :=
  255

def maxPath : Nat :=
  4095

def enter (d : Disk) (place : Names) : Except StorageFault Unit :=
  match d.entry? place with
  | none => .error .notFound
  | some .folder => .ok ()
  | some _ => .error .notFolder

/-- The place that parts of a path lead to from `place`; every place on the way has to be a folder.
The topmost folder leads back to itself. -/
def walk (d : Disk) (place : Names) : List String → Except StorageFault Names
  | [] => .ok place
  | name :: rest => do
    d.enter place
    if name = "" ∨ name = "." then d.walk place rest
    else if name = ".." then d.walk place.dropLast rest
    else if maxName < name.utf8ByteSize then throw .longName
    else d.walk (place ++ [name]) rest

def follow (d : Disk) (path : List String) : Except StorageFault Names :=
  d.walk (if path.head? = some "" then [] else d.working) path

def checkPath (path : String) : Except StorageFault Unit :=
  if path.contains '\x00' then .error .nulByte
  else if maxPath < path.utf8ByteSize then .error .longName
  else if path.isEmpty then .error .notFound
  else .ok ()

def locate (d : Disk) (path : String) : Except StorageFault Names := do
  checkPath path
  d.follow (parts path)

def read (d : Disk) (path : String) : Except StorageFault Bytes := do
  match d.entry? (← d.locate path) with
  | some (.file contents) => return contents
  | some .sink => return []
  | some .folder => throw .isFolder
  | none => throw .notFound

def write (d : Disk) (path : String) (contents : Bytes) : Except StorageFault Disk := do
  let names ← d.locate path
  match d.entry? names with
  | some .folder => throw .isFolder
  | some .sink => return d
  | _ => return d.put names (.file contents)

/-- Makes the folder that parts of a path lead to. The last part has to be a new name in a
folder. -/
def makeFolder (d : Disk) (path : List String) : Except StorageFault Disk := do
  match path.reverse.dropWhile (· = "") with
  | [] => throw .alreadyExists
  | name :: before =>
    let names ← d.walk (← d.follow before.reverse) [name]
    if name = "." ∨ name = ".." ∨ (d.entry? names).isSome then throw .alreadyExists
    return d.put names .folder

def isFolder (d : Disk) (path : List String) : Bool :=
  ((d.follow path).bind d.enter).toBool

def ensureFolder (d : Disk) (path : List String) : Except StorageFault Disk :=
  match d.makeFolder path with
  | .error .alreadyExists => if d.isFolder path then .ok d else .error .alreadyExists
  | made => made

/-- Makes folders, each of which is in the next one. The first of them that can be made is made
first, and those before it then in turn. -/
def ensureFolders (d : Disk) : List (List String) → Except StorageFault Unit × Disk
  | [] => (.ok (), d)
  | path :: outer =>
    match d.ensureFolder path with
    | .ok made => (.ok (), made)
    | .error .notFound =>
      match d.ensureFolders outer with
      | (.ok (), e) =>
        match e.ensureFolder path with
        | .ok made => (.ok (), made)
        | .error fault => (.error fault, e)
      | failed => failed
    | .error fault => (.error fault, d)

def folders (path : String) : List (List String) :=
  let start := if path.startsWith "/" then [""] else []
  let steps := (parts path).filter fun name => name ≠ "" ∧ name ≠ "."
  ((List.range steps.length).drop 1).reverse.map fun n => start ++ steps.take n

def createFolders (d : Disk) (path : String) : Except StorageFault Unit × Disk :=
  if path.isEmpty then (.ok (), d)
  else
    match checkPath path with
    | .ok () => d.ensureFolders (parts path :: folders path)
    | .error fault => (.error fault, d)

/-- Puts a file, with the folders that its path leads through. A file that can not be put is left
out. -/
def addFile (d : Disk) (path : String) (contents : Bytes) : Disk :=
  let made := (d.ensureFolders (folders path)).2
  (made.write path contents).toOption.getD made

def modifyBy (operation : Disk → Except StorageFault Disk) :
    StateM Disk (Except StorageFault Unit) :=
  fun d =>
    match operation d with
    | .ok e => (.ok (), e)
    | .error fault => (.error fault, d)

instance : Storage (StateM Disk) where
  read path := do
    return (← get).read path
  write path contents := modifyBy (·.write path contents)
  createFolders path := fun d => d.createFolders path

end Disk

end SyntaxPaint
