import TestIsolation.Text.Sink

/-!
# Files to write to

A `FileTree` is what a program finds of the files of its machine, and `FileTree.openFile` opens one of them for
writing by its path: an existing file is emptied, and a missing one is created in a directory that exists.
-/

namespace TestIsolation

set_option autoImplicit false

/-- What a name in a directory stands for. -/
inductive FileTree where
  /-- A file takes what is written to it as its sink does. -/
  | file (sink : Sink String)
  | directory (entries : List (String × FileTree))
  /-- A directory in which nothing can be created. -/
  | fixed (entries : List (String × FileTree))

namespace FileTree

/-- The most bytes that a name may have. -/
def maxName : Nat := 255

/-- The most bytes that a path may have. -/
def maxPath : Nat := 4095

/-- What is found in a directory under a name. -/
def lookup (entries : List (String × FileTree)) (name : String) : Except IoError (Option FileTree) :=
  if maxName < name.utf8ByteSize then .error .nameTooLong else .ok (entries.lookup name)

/-- The file with a name in a directory, created if it is missing and can be. -/
def openEntry (entries : List (String × FileTree)) (canCreate : Bool) (name : String) : Except IoError (Sink String) :=
  match lookup entries name with
  | .error e => .error e
  | .ok none => if canCreate then .ok {} else .error .notFound
  | .ok (some (file sink)) => .ok sink
  | .ok (some _) => .error .isDirectory

/-- Walks along the names of a path. The directories above are the nearest first. A path that ends with a slash is
taken for that of a directory, whether it exists or not. -/
def walk (above : List FileTree) (here : FileTree) (endsWithSlash : Bool) : List String → Except IoError (Sink String)
  | [] => .error .isDirectory
  | name :: rest =>
    let enter (entries : List (String × FileTree)) (canCreate : Bool) : Except IoError (Sink String) :=
      if name = "." then walk above here endsWithSlash rest
      else if name = ".." then
        match above with
        | parent :: above => walk above parent endsWithSlash rest
        | [] => walk [] here endsWithSlash rest
      else if rest = [] then
        if endsWithSlash then .error .isDirectory else openEntry entries canCreate name
      else
        match lookup entries name with
        | .error e => .error e
        | .ok none => .error .notFound
        | .ok (some next) => walk (here :: above) next endsWithSlash rest
    match here with
    | file _ => .error .notDirectory
    | directory entries => enter entries true
    | fixed entries => enter entries false

/-- Opens a file for writing. A path that does not start with a slash starts at the given directory, which is one of
the root. -/
def openFile (root current : FileTree) (path : String) : Except IoError (Sink String) :=
  let names := (path.splitOn "/").filter (· ≠ "")
  let endsWithSlash := path.endsWith "/"
  if path.contains '\x00' then .error .nulInName
  else if path = "" then .error .notFound
  else if maxPath < path.utf8ByteSize then .error .nameTooLong
  else if path.startsWith "/" then walk [] root endsWithSlash names
  else walk [root] current endsWithSlash names

end FileTree

end TestIsolation
