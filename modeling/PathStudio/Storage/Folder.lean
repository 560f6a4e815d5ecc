import PathStudio.Fault
import PathStudio.Text.Line
import PathStudio.Text.Quoted
import PathStudio.Text.Utf8

/-!
# Folders

The files that a session works with, as a value. A path is followed part by
part: each part is looked up in a folder, so whatever a path passes on its way
has to be one, also where two dots lead back again. Reading takes a file as text
in UTF-8 with all line ends alike; writing replaces a file, or makes a new one in
a folder that exists, piece by piece.

There are no permissions: every file can be read and every file can be written.
Where a file may be read but not written, writing it is refused and it keeps what
it holds; such files are outside of this model.
-/

namespace PathStudio.Storage

/-- What a file holds: a text, or bytes that may not be one. -/
inductive Content where
  | text (s : String)
  | bytes (raw : List UInt8)

/-- A folder or a file. -/
inductive Node where
  | folder
  | file (content : Content)

/-- Where something is: the names that lead there from the working folder. Two dots in front lead
above it, and a slash in front leads from the topmost folder. -/
abbrev Place := List String

/-- What there is, by place. -/
structure Folder where
  entries : List (Place × Node)

/-- The most bytes that the name of a file may have. -/
def nameLimit : Nat := 255

/-- The most bytes that a whole path may have. -/
def pathLimit : Nat := 4095

/-- The text of a path between its slashes. -/
def splitPath (path : List Char) : List (List Char) :=
  match path with
  | [] => [[]]
  | '/' :: rest => [] :: splitPath rest
  | c :: rest =>
    match splitPath rest with
    | [] => [[c]]
    | part :: more => (c :: part) :: more

/-- The parts that a path leads through. -/
def pathParts (path : String) : List String :=
  ((splitPath path.toList).filter fun part => !part.isEmpty).map String.ofList

/-- Where a path begins. -/
def origin (path : String) : Place := if path.toList.head? = some '/' then ["/"] else []

/-- Whether a place is a folder around the working folder, or the working folder itself. -/
def isAround (p : Place) : Bool := p = ["/"] || p.all (· = "..")

/-- Whether a place is below the working folder. -/
def isInside (p : Place) : Bool := p.head?.any fun name => name ≠ ".." && name ≠ "/"

/-- The place that one more part leads to. -/
def enter (p : Place) (part : String) : Place :=
  if part = "." then p
  else if part = ".." then
    if p = ["/"] then p else if isAround p then p ++ [".."] else p.dropLast
  else p ++ [part]

/-- The place that a path leads to if nothing is in its way. -/
def placeOf (path : String) : Place := (pathParts path).foldl enter (origin path)

/-- Whether a path says that it is a folder. -/
def endsInSlash (path : String) : Bool := path.toList.getLast? = some '/'

/-- A path split before its last name: the folder part and that name. -/
def splitLast (path : String) : String × String :=
  let reversed := path.toList.reverse
  let name := (reversed.takeWhile (· ≠ '/')).reverse
  let head := reversed.dropWhile (· ≠ '/')
  let head := if head.all (· = '/') then head else head.dropWhile (· = '/')
  (String.ofList head.reverse, String.ofList name)

/-- The folder part of a path. -/
def parentPath (path : String) : String := (splitLast path).1

/-- A path as messages show it. -/
def shownPath (path : String) : String := String.ofList (Text.quoted path.toList)

/-- The fault of a path. -/
def pathFault (problem : PathProblem) (path : String) : Fault := .path problem (shownPath path)

/-- Whether a surrogate stands for a byte in the name of a file. -/
def standsForByte (unit : Nat) : Bool := 0xDC80 ≤ unit && unit ≤ 0xDCFF

/-- Refuses a path that names no file anywhere. -/
def checkPath (path : String) : Outcome Unit :=
  match Text.Utf8.unencodable? standsForByte path.toList with
  | some reason => .error (.unencodable reason)
  | none => if path.toList.contains '\x00' then .error .malformedPath else .ok ()

namespace Folder

/-- A folder without anything in it. -/
def empty : Folder := ⟨[]⟩

/-- What is at a place. -/
def node? (f : Folder) (p : Place) : Option Node :=
  if isAround p then some .folder else (f.entries.find? fun e => e.1 = p).map (·.2)

/-- Entries with the node at a place replaced where it stands, or added at the end. -/
def putEntry (p : Place) (node : Node) : List (Place × Node) → List (Place × Node)
  | [] => [(p, node)]
  | e :: rest => if e.1 = p then (p, node) :: rest else e :: putEntry p node rest

/-- The folder with a node at a place. -/
def put (f : Folder) (p : Place) (node : Node) : Folder := ⟨putEntry p node f.entries⟩

/-- The folder with a node at a place and folders on the way there. -/
def plant (f : Folder) (p : Place) (node : Node) : Folder :=
  let way := (List.range' 1 (p.length - 1)).map fun k => p.take k
  (way.foldl (fun f q => if (f.node? q).isSome then f else f.put q .folder) f).put p node

/-- The place that parts lead to from another place, or what is in their way. -/
def walk (f : Folder) (p : Place) : List String → Except PathProblem Place
  | [] => .ok p
  | part :: rest =>
    match f.node? p with
    | none => .error .missing
    | some (.file _) => .error .notFolder
    | some .folder =>
      if nameLimit < Text.Utf8.size part.toList then .error .nameTooLong
      else walk f (enter p part) rest

/-- The place that a path leads to, whether there is anything or not. -/
def locate (f : Folder) (path : String) : Except PathProblem Place :=
  if path = "" then .error .missing
  else if pathLimit < Text.Utf8.size path.toList then .error .nameTooLong
  else f.walk (origin path) (pathParts path)

/-- What a path leads to, or why it leads nowhere. -/
def find (f : Folder) (path : String) : Except PathProblem Node := do
  let p ← f.locate path
  match f.node? p with
  | none => throw .missing
  | some .folder => return .folder
  | some (.file content) => if endsInSlash path then throw .notFolder else return .file content

/-- Whether a path leads to anything. -/
def leadsSomewhere (f : Folder) (path : String) : Bool :=
  (checkPath path).toBool && (f.find path).toBool

/-- Whether a path leads to a folder. -/
def isFolder (f : Folder) (path : String) : Bool :=
  match checkPath path, f.find path with
  | .ok (), .ok .folder => true
  | _, _ => false

/-- The text of a file with all line ends alike. -/
def readText (f : Folder) (path : String) : Outcome String := do
  checkPath path
  match f.find path with
  | .error problem => throw (pathFault problem path)
  | .ok .folder => throw (pathFault .isFolder path)
  | .ok (.file (.text s)) => return String.ofList (Text.normalizeLineEnds s.toList)
  | .ok (.file (.bytes raw)) =>
    match Text.Utf8.decode raw with
    | .ok s => return String.ofList (Text.normalizeLineEnds s)
    | .error reason => throw (.malformedText reason)

/-- The folder with more text in the file at a place. -/
def extend (f : Folder) (p : Place) (more : String) : Folder :=
  match f.node? p with
  | some (.file (.text s)) => f.put p (.file (.text (s ++ more)))
  | _ => f.put p (.file (.text more))

/-- The files below the working folder by path. -/
def files (f : Folder) : List (String × Content) :=
  f.entries.filterMap fun e =>
    match e.2 with
    | .file content => if isInside e.1 then some ("/".intercalate e.1, content) else none
    | .folder => none

end Folder

/-- Work on a folder that can be refused part of the way. -/
abbrev Filing (α : Type) := ExceptT Fault (StateM Folder) α

namespace Filing

/-- The place that a path leads to. -/
def locate (path : String) : Filing Place := do
  checkPath path
  match (← get).locate path with
  | .ok p => return p
  | .error problem => throw (pathFault problem path)

/-- Opens a file to write it, which leaves it empty; answers with its place. -/
def openFile (path : String) : Filing Place := do
  let p ← locate path
  match (← get).node? p with
  | some .folder => throw (pathFault .isFolder path)
  | _ =>
    if endsInSlash path then throw (pathFault .isFolder path)
    modify (·.put p (.file (.text "")))
    return p

/-- Writes a piece of text at the end of an open file. -/
def writePiece (p : Place) (piece : Outcome String) : Filing Unit := do
  let text ← piece
  match Text.Utf8.unencodable? (fun _ => false) text.toList with
  | some reason => throw (.unencodable reason)
  | none => modify (·.extend p text)

/-- Writes a file piece by piece. At the first piece that is refused the writing ends; the pieces
before it are in the file. -/
def write (path : String) (pieces : List (Outcome String)) : Filing Unit := do
  let p ← openFile path
  pieces.forM (writePiece p)

/-- Makes a folder where nothing is. -/
def makeNewFolder (path : String) : Filing Unit := do
  let p ← locate path
  if ((← get).node? p).isSome then throw (pathFault .exists path)
  modify (·.put p .folder)

/-- Makes a folder; one that exists already will do. -/
def makeFolder (path : String) : Filing Unit :=
  tryCatch (makeNewFolder path) fun fault => do
    if !(fault.isPathFault && (← get).isFolder path) then throw fault

/-- Makes a folder and the folders on the way to it. -/
def makeFolders : (fuel : Nat) → String → Filing Unit
  | 0, path => makeFolder path
  | fuel + 1, path => do
    let (head, last) := splitLast path
    let (head, last) := if last = "" then splitLast head else (head, last)
    if head ≠ "" && last ≠ "" && !(← get).leadsSomewhere head then
      tryCatch (makeFolders fuel head) fun fault =>
        match fault with
        | .path .exists _ => pure ()
        | _ => throw fault
      if last = "." then return
    makeFolder path

end Filing

/-- The text of a file's content; bad bytes are replaced. -/
def Content.shown : Content → String
  | .text s => s
  | .bytes raw => String.ofList (Text.Utf8.decodeLenient raw)

end PathStudio.Storage
