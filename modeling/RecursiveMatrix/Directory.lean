import RecursiveMatrix.Failure

/-!
# The working directory

Commands read and write files of one directory, the one they are run in. It holds files and no
folders, and some folders lie above it, the highest of which is the root. The root has a folder with
two devices: one that takes whatever is written to it, and one that has no room for any byte. Other
files of the folders above are known by the paths that lead to them, and are not listed.

A path is followed from left to right, from the directory or from the root, and the first step that
cannot be taken decides what is wrong with it (`Directory.follow`). Paths and names may be any
bytes.
-/

namespace RecursiveMatrix

/-- The longest name of a file or folder, in bytes. -/
def maxNameBytes : Nat := 255

/-- The longest path, in bytes. -/
def maxPathBytes : Nat := 4095

/-- A directory of files. -/
structure Directory where
  /-- The names of the files and what they hold. No name occurs twice. -/
  files : List (OsText × ByteArray)
  /-- The number of folders above the directory. -/
  depth : Nat

/-- A folder that paths lead through. -/
inductive Folder where
  /-- The folder so many levels above the directory, which is the directory itself at level zero. -/
  | above (levels : Nat)
  /-- The folder of the devices. -/
  | devices
  deriving DecidableEq, Repr

/-- What a path leads to. -/
inductive Place where
  /-- A folder. -/
  | folder (folder : Folder)
  /-- A file, which may exist or not. -/
  | file (name : OsText)
  /-- The device that takes everything and gives nothing. -/
  | sink
  /-- The device without room. -/
  | full
  deriving DecidableEq, Repr

/-- The name under which the files of a folder are known, without their own names. -/
def Folder.label : Folder → String
  | above levels => String.join (List.replicate levels "../")
  | devices => "/dev/"

namespace Directory

/-- A directory without files, with `depth` folders above it. -/
def empty (depth : Nat) : Directory := ⟨[], depth⟩

/-- What a file holds. -/
def get? (d : Directory) (name : OsText) : Option ByteArray := d.files.lookup name

def put (d : Directory) (name : OsText) (bytes : ByteArray) : Directory :=
  if (d.get? name).isSome then
    { d with files := d.files.map fun f ↦ if f.1 = name then (name, bytes) else f }
  else { d with files := d.files ++ [(name, bytes)] }

/-- The files of the directory itself, without those of other folders. -/
def listing (d : Directory) : List (OsText × ByteArray) := d.files.filter fun f ↦ !f.1.has '/'

/-! ## Following paths -/

def root (d : Directory) : Folder := .above d.depth

/-- The folder above a folder. The root is above itself. -/
def parent (d : Directory) : Folder → Folder
  | .above levels => .above (min (levels + 1) d.depth)
  | .devices => d.root

/-- What a name stands for in a folder. -/
def inside (d : Directory) (here : Folder) (name : OsText) : Place :=
  if here = d.root ∧ name = .text "dev" then .folder .devices
  else if here = .devices ∧ name = .text "null" then .sink
  else if here = .devices ∧ name = .text "full" then .full
  else .file (name.after here.label)

/-- There is something at a place. -/
def holds (d : Directory) : Place → Bool
  | .file name => (d.get? name).isSome
  | .folder _ | .sink | .full => true

/-- What is wrong with looking for anything inside a place that is no folder. -/
def obstacle (d : Directory) (place : Place) : FileFault :=
  if d.holds place then .notFolder else .notFound

/-- Follows the steps of a path from a folder. -/
def follow (d : Directory) : Folder → List OsText → Except FileFault Place
  | here, [] => .ok (.folder here)
  | here, step :: rest =>
    if step = .text "." then follow d here rest
    else if step = .text ".." then follow d (d.parent here) rest
    else if maxNameBytes < step.byteCount then .error .nameTooLong
    else
      match d.inside here step with
      | .folder next => follow d next rest
      | place => if rest.isEmpty then .ok place else .error (d.obstacle place)

/-- Checks that a path can be followed at all. -/
def checkPath (path : OsText) : Except FileFault Unit :=
  if path.has '\x00' then .error .nulInName
  else if path.isEmpty then .error .notFound
  else if maxPathBytes < path.byteCount then .error .nameTooLong
  else .ok ()

/-- What `steps` lead to, for a path that starts like `path`. -/
def walk (d : Directory) (path : OsText) (steps : List OsText) : Except FileFault Place :=
  d.follow (if path.startsWith '/' then d.root else .above 0) steps

/-- What a path leads to. -/
def locate (d : Directory) (path : OsText) : Except FileFault Place := do
  checkPath path
  d.walk path (path.parts '/')

/-- What a path leads to when a file is to be written there, which is no folder. A path with a slash
at its end is that of a folder, and turned down before its last step is taken. -/
def locateOutput (d : Directory) (path : OsText) : Except FileFault Place := do
  checkPath path
  if path.endsWith '/' then
    match ← d.walk path (path.parts '/').dropLast with
    | .folder _ => .error .isFolder
    | place => .error (d.obstacle place)
  else
    match ← d.walk path (path.parts '/') with
    | .folder _ => .error .isFolder
    | place => return place

/-- What a path holds. -/
def read (d : Directory) (path : OsText) : Except FileFault ByteArray := do
  match ← d.locate path with
  | .folder _ => .error .isFolder
  | .file name =>
    match d.get? name with
    | none => .error .notFound
    | some bytes => if path.endsWith '/' then .error .notFolder else return bytes
  | .sink | .full => if path.endsWith '/' then .error .notFolder else return .empty

end Directory

end RecursiveMatrix
