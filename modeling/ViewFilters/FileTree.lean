import ViewFilters.Text.Pieces

/-!
# ViewFilters.FileTree

Directories and files in memory, and where a path leads in them.  A place is
the list of names from the root to it; a path is text with `/` between names.

1. A path that begins with `/` starts at the root, any other at a given place.
2. An empty name and `.` stay, `..` goes up, and the root is above itself.
3. A name leads into a directory.  If there is none yet, the walk goes on as if
   it had been made, and remembers that (`Walk.found`).
4. A name that belongs to a file, or that is too long, bars the way.

A step of a walk takes time in proportion to the depth of its place.
-/

namespace ViewFilters

/-- The names from the root to a place. -/
abbrev Place := List String

/-- A file, or a directory with its entries by name. -/
inductive FileTree where
  | file (bytes : List UInt8)
  | directory (entries : List (String × FileTree))

namespace FileTree

/-- A directory that holds nothing. -/
def empty : FileTree := directory []

/-- What a directory holds.  A file holds nothing. -/
def entries : FileTree → List (String × FileTree)
  | file _ => []
  | directory entries => entries

/-- What stands at a name in a directory. -/
def child? (tree : FileTree) (name : String) : Option FileTree := tree.entries.lookup name

/-- A directory with an entry in place of the one of its name, if any. -/
def withChild (tree : FileTree) (name : String) (child : FileTree) : FileTree :=
  directory ((name, child) :: tree.entries.filter (·.1 ≠ name))

/-- What stands at a place. -/
def at? : Place → FileTree → Option FileTree
  | [], tree => some tree
  | name :: place, tree => (tree.child? name).bind (at? place)

/-- The tree with a node in place of the one at its place, if any, and with the
directories above it. -/
def put (node : FileTree) : Place → FileTree → FileTree
  | [], _ => node
  | name :: place, tree =>
    tree.withChild name (put node place ((tree.child? name).getD empty))

/-- The contents of the file at a place. -/
def file? (tree : FileTree) (place : Place) : Option (List UInt8) :=
  match tree.at? place with
  | some (file bytes) => some bytes
  | _ => none

/-- Whether there is a directory at a place. -/
def isDirectory (tree : FileTree) (place : Place) : Bool :=
  match tree.at? place with
  | some (directory _) => true
  | _ => false

/-- The tree with a file at a place. -/
def write (tree : FileTree) (place : Place) (bytes : List UInt8) : FileTree :=
  put (file bytes) place tree

/-- The tree with a directory at a place, which holds nothing yet. -/
def makeDirectory (tree : FileTree) (place : Place) : FileTree := put empty place tree

/-! ## walking -/

/-- The most bytes in a name. -/
def nameLimit : Nat := 255

/-- The most bytes in a path. -/
def pathLimit : Nat := 4095

/-- How far a walk has come. -/
structure Walk where
  /-- The tree, with the directories that were missing on the way. -/
  tree : FileTree
  place : Place
  /-- Whether nothing was missing on the way. -/
  found : Bool
  /-- Whether the last name was missing. -/
  made : Bool

/-- Follow one name of a path. -/
def Walk.step? (w : Walk) (name : String) : Option Walk :=
  if name = "" ∨ name = "." then some w
  else if name = ".." then some { w with place := w.place.dropLast, made := false }
  else if nameLimit < name.utf8ByteSize then none
  else
    let next := w.place ++ [name]
    match w.tree.at? next with
    | some (file _) => none
    | some (directory _) => some { w with place := next, made := false }
    | none => some ⟨w.tree.makeDirectory next, next, false, true⟩

/-- The names of a path. -/
def names (path : String) : List String := (splitText '/' path).filter (· ≠ "")

/-- Follow a path to a directory. -/
def follow? (tree : FileTree) (start : Place) (path : String) : Option Walk :=
  let start := if path.toList.head? = some '/' then [] else start
  (names path).foldlM Walk.step? ⟨tree, start, true, false⟩

/-- Follow a path to a directory that may yet have to be made.  A path that ends
in `.` cannot make the name before it. -/
def destination? (tree : FileTree) (start : Place) (path : String) : Option Walk :=
  (follow? tree start path).filter fun w => !(w.made && (names path).getLast? = some ".")

end FileTree

end ViewFilters
