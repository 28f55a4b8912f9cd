import Backstep.Text.Input

/-!
A tree of files below a working directory, and what paths mean in it. Outside of that directory
there are its ancestors and the root, and otherwise nothing but what was written there.
-/

namespace Backstep.File

open Text

def isSilent (component : List Char) : Bool := component == [] || component == ['.']

def components (path : List Char) : List Char × List (List Char) :=
  match cut (· == '/') path with
  | [] => ([], [])
  | first :: rest => (first, (rest.reverse.dropWhile isSilent).reverse)

def joinComponents (components : List (List Char)) : List Char := ['/'].intercalate components

def fileName? (path : List Char) : Option (List Char) :=
  let (first, rest) := components path
  let last := rest.getLast?.getD first
  if isSilent last || last == ['.', '.'] then none else some last

/-- A name's last dot parts the extension from the stem, unless it is the first character. -/
def splitExtension (name : List Char) : List Char × Option (List Char) :=
  let extension := (name.reverse.takeWhile (· != '.')).reverse
  let before := (name.reverse.dropWhile (· != '.')).reverse.dropLast
  if before.isEmpty then (name, none) else (before, some extension)

def extension? (path : List Char) : Option (List Char) :=
  (fileName? path).bind fun name => (splitExtension name).2

def nameEnd (path : List Char) : Nat :=
  let (first, rest) := components path
  (joinComponents (first :: rest)).length

/-- The path with the last component's extension replaced. What follows that component goes. The
extension is taken off first; if that leaves the parent directory `..`, nothing is put on. -/
def withExtension (path extension : List Char) : List Char :=
  match fileName? path with
  | none => path
  | some name =>
    let stem := (splitExtension name).1
    let before := path.take (nameEnd path - name.length)
    if stem == ['.'] && path.length == nameEnd path then before ++ ['.', '.']
    else before ++ stem ++ '.' :: extension

def parent? (path : List Char) : Option (List Char) :=
  let (first, rest) := components path
  if rest.isEmpty then if first.isEmpty then none else some []
  else
    match (rest.dropLast.reverse.dropWhile isSilent).reverse with
    | [] => some (if first.isEmpty then ['/'] else first)
    | rest => some (joinComponents (first :: rest))

inductive FileError where
  | notFound
  | notADirectory
  | isADirectory
  | nameTooLong
  | zeroByte
  | invalidText
  | other (message : String)
  deriving DecidableEq

def FileError.message : FileError → String
  | notFound => "No such file or directory (os error 2)"
  | notADirectory => "Not a directory (os error 20)"
  | isADirectory => "Is a directory (os error 21)"
  | nameTooLong => "File name too long (os error 36)"
  | zeroByte => "file name contained an unexpected NUL byte"
  | invalidText => "stream did not contain valid UTF-8"
  | other message => message

inductive Anchor where
  | above (levels : Nat)
  | root
  deriving DecidableEq

structure Location where
  anchor : Anchor
  names : List (List Char)
  deriving DecidableEq

namespace Location

def start (path : List Char) : Location :=
  if path.head? = some '/' then ⟨.root, []⟩ else ⟨.above 0, []⟩

def parent : Location → Location
  | ⟨.above levels, []⟩ => ⟨.above (levels + 1), []⟩
  | ⟨.root, []⟩ => ⟨.root, []⟩
  | ⟨anchor, names⟩ => ⟨anchor, names.dropLast⟩

def enter (l : Location) (component : List Char) : Location :=
  if isSilent component then l
  else if component == ['.', '.'] then l.parent
  else { l with names := l.names ++ [component] }

end Location

inductive Entry where
  | file (content : ByteArray)
  | directory

structure Tree where
  entries : List (Location × Entry)

namespace Tree

def empty : Tree := ⟨[]⟩

def entry? (tree : Tree) (l : Location) : Option Entry :=
  if l.names.isEmpty then some .directory
  else (tree.entries.find? (·.1 == l)).map (·.2)

def put (tree : Tree) (l : Location) (entry : Entry) : Tree :=
  ⟨(l, entry) :: tree.entries.filter (·.1 != l)⟩

def nameBytes : Nat := 255

def pathBytes : Nat := 4095

def walk (tree : Tree) (l : Location) (component : List Char) : Except FileError Location :=
  match tree.entry? l with
  | none => .error .notFound
  | some (.file _) => .error .notADirectory
  | some .directory =>
    if byteCount component ≤ nameBytes then .ok (l.enter component) else .error .nameTooLong

def checkPath (path : List Char) : Except FileError Unit :=
  if path.contains (Char.ofNat 0) then .error .zeroByte
  else if path.isEmpty then .error .notFound
  else if byteCount path ≤ pathBytes then .ok ()
  else .error .nameTooLong

def locate (tree : Tree) (path : List Char) : Except FileError Location := do
  checkPath path
  (cut (· == '/') path).foldlM tree.walk (.start path)

def find (tree : Tree) (path : List Char) : Except FileError Entry :=
  match tree.locate path with
  | .error error => .error error
  | .ok l =>
    match tree.entry? l with
    | some entry => .ok entry
    | none => .error .notFound

def contains (tree : Tree) (path : List Char) : Bool := (tree.find path).isOk

def read (tree : Tree) (path : List Char) : Except FileError String :=
  match tree.find path with
  | .error error => .error error
  | .ok .directory => .error .isADirectory
  | .ok (.file content) =>
    match String.fromUTF8? content with
    | some text => .ok text
    | none => .error .invalidText

/-- Where a file may be written. A slash at the end asks for a directory, so no file is made there,
whether or not there is a directory. -/
def writable (tree : Tree) (path : List Char) : Except FileError Location := do
  checkPath path
  let name := (path.reverse.dropWhile (· == '/')).reverse
  let components := cut (· == '/') name
  let parent ← components.dropLast.foldlM tree.walk (.start path)
  let l ← tree.walk parent (if name == path then components.getLast?.getD [] else [])
  match tree.entry? l with
  | some .directory => throw .isADirectory
  | _ => return l

def write (tree : Tree) (path : List Char) (text : String) : Except FileError Unit × Tree :=
  match tree.writable path with
  | .error error => (.error error, tree)
  | .ok l => (.ok (), tree.put l (.file text.toUTF8))

def files (tree : Tree) : List (String × ByteArray) :=
  tree.entries.filterMap fun
    | (⟨.above 0, names⟩, .file content) => some (String.ofList (joinComponents names), content)
    | _ => none

def plant (tree : Tree) (names : List (List Char)) (entry : Entry) : Tree :=
  let ways := (List.range' 1 (names.length - 1)).map names.take
  (ways.foldl (fun tree way => tree.put ⟨.above 0, way⟩ .directory) tree).put ⟨.above 0, names⟩ entry

end Tree

class Disk (m : Type → Type) where
  contains : String → m Bool
  read : String → m (Except FileError String)
  write : String → String → m (Except FileError Unit)

instance : Disk (StateM Tree) where
  contains path := fun tree => (tree.contains path.toList, tree)
  read path := fun tree => (tree.read path.toList, tree)
  write path text := fun tree => tree.write path.toList text

end Backstep.File
