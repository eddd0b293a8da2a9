/-
  Trees of files and directories, and what can be done in them.

  A path is followed name by name from a directory to another: each name but the last must stand for
  a directory, also when the next part of the path takes it back.

  * `Spot`: a directory in a tree, with the way back to the root.
  * `Tree.locate`: where a path leads; `Tree.look`: what is found there.
  * `Tree.makeDirectories`, `Tree.write`: what can be made there.
  * `Tree.save`: a file, with the directories it needs.
-/
import Vitals.Files.Content
import Vitals.Files.Path
import Vitals.Text.Utf8

namespace Vitals.Files

/-- What a name stands for. -/
inductive Node where
  | file (text : String)
  | directory (entries : List (String × Node))

/-- What is in a directory. -/
abbrev Entries := List (String × Node)

/-- What is in a directory once a name stands for something else. -/
def Entries.set (entries : Entries) (name : String) (node : Node) : Entries :=
  entries.filter (fun e => e.1 ≠ name) ++ [(name, node)]

mutual

/-- The files at a path and below it. -/
def Node.files (path : String) : Node → List (String × String)
  | .file text => [(path, text)]
  | .directory entries => filesBelow (path ++ "/") entries

/-- The files in a directory and below it, by their paths behind some text. -/
def filesBelow (before : String) : List (String × Node) → List (String × String)
  | [] => []
  | (name, node) :: rest => node.files (before ++ name) ++ filesBelow before rest

end

/-! ## Directories -/

/-- A directory in a tree. -/
structure Spot where
  entries : Entries
  /-- The directories above, the nearest first, each with the name by which it was left. -/
  above : List (String × Entries)

namespace Spot

/-- The directory above; the root is above itself. -/
def up (s : Spot) : Spot :=
  match s.above with
  | [] => s
  | (_, entries) :: above => ⟨entries, above⟩

/-- A directory in a directory. -/
def down (s : Spot) (name : String) (entries : Entries) : Spot :=
  ⟨entries, (name, s.entries) :: s.above⟩

/-- What is in the root. -/
def root (s : Spot) : Entries :=
  s.above.foldl (fun below (name, entries) => entries.set name (.directory below)) s.entries

/-- What a name in a directory stands for. -/
def child? (s : Spot) (name : String) : Except FileFault (Option Node) :=
  if Path.maxNameSize < name.utf8ByteSize then .error .nameTooLong
  else .ok (s.entries.lookup name)

/-- Goes on to another directory by a part of a path. -/
def enter (s : Spot) (part : String) : Except FileFault Spot :=
  if part = "." then .ok s
  else if part = ".." then .ok s.up
  else do
    match ← s.child? part with
    | none => .error .missing
    | some (.file _) => .error .notDirectory
    | some (.directory entries) => return s.down part entries

end Spot

/-! ## Trees -/

/-- Files and directories. -/
structure Tree where
  /-- The names that lead from the root to the directory in which relative paths start. -/
  here : List String
  root : Entries

/-- Where a path leads, if all directories on the way are there. -/
inductive Target where
  /-- To a directory, without a name for it at the end of the path. -/
  | directory
  /-- To a name in a directory. -/
  | entry (parent : Spot) (name : String)

namespace Tree

/-- Where relative paths start. That directory and those above it are always there. -/
def start (t : Tree) : Spot :=
  t.here.foldl (fun s name => (s.enter name).toOption.getD (s.down name [])) ⟨t.root, []⟩

/-! ## Following paths -/

/-- Where a path leads. An empty path leads nowhere. -/
def locate (t : Tree) (p : Path) : Except FileFault Target :=
  if Path.maxSize < p.size then .error .nameTooLong
  else
    match p.steps.getLast? with
    | none => if p.absolute then .ok .directory else .error .missing
    | some last => do
      let s ← p.steps.dropLast.foldlM Spot.enter (if p.absolute then ⟨t.root, []⟩ else t.start)
      return if last = "." ∨ last = ".." then .directory else .entry s last

/-- What stands at the end of a path; nothing, for a directory. -/
def find (t : Tree) (p : Path) : Except FileFault (Option String) := do
  match ← t.locate p with
  | .directory => return none
  | .entry parent name =>
    match ← parent.child? name with
    | none => .error .missing
    | some (.file text) => if p.endsInSlash then .error .notDirectory else return some text
    | some (.directory _) => return none

/-- What is found at a path. A path that cannot be followed leads to nothing. -/
def look (t : Tree) (p : Path) : FileContent :=
  match t.find p with
  | .error _ => .absent
  | .ok none => .directory
  | .ok (some text) => .bytes (Text.encode text)

/-! ## Making directories and files -/

/-- The tree in which a name in a directory stands for something else. -/
def put (t : Tree) (parent : Spot) (name : String) (node : Node) : Tree :=
  { t with root := Spot.root { parent with entries := parent.entries.set name node } }

/-- Makes a directory. -/
def makeDirectory (t : Tree) (p : Path) : Except FileFault Tree := do
  match ← t.locate p with
  | .directory => .error .occupied
  | .entry parent name =>
    match ← parent.child? name with
    | some _ => .error .occupied
    | none => return t.put parent name (.directory [])

/-- Makes a directory that may be there already. -/
def needDirectory (t : Tree) (p : Path) : Except FileFault Tree :=
  match t.makeDirectory p with
  | .ok made => .ok made
  | .error fault => if t.look p = .directory then .ok t else .error fault

/-- Makes the first of some directories, each of which lies in the next one; those in which it lies
are made first if they are missing. -/
def makeDirectories (t : Tree) : List Path → Except FileFault Tree
  | [] => .ok t
  | p :: above =>
    match t.needDirectory p with
    | .error .missing => do (← t.makeDirectories above).needDirectory p
    | result => result

/-- Writes a file. One that is there gets another text. -/
def write (t : Tree) (p : Path) (text : String) : Except FileFault Tree := do
  match ← t.locate p with
  | .directory => .error .isDirectory
  | .entry parent name =>
    if p.endsInSlash then .error .isDirectory
    else
      match ← parent.child? name with
      | some (.directory _) => .error .isDirectory
      | _ => return t.put parent name (.file text)

/-- Writes a file whose directories are made first if they are missing. -/
def save (t : Tree) (p : Path) (text : String) : Except FileFault Tree := do
  (← t.makeDirectories p.above).write p text

/-- The files in the directory in which relative paths start, and below it. -/
def files (t : Tree) : List (String × String) := filesBelow "" t.start.entries

end Tree

end Vitals.Files
