import AdaFront.Text.Bytes

namespace AdaFront.CommandLine

/-- Why a file cannot be used. -/
inductive FileError where
  | notFound | notDirectory | isDirectory | nameTooLong | notText
deriving DecidableEq, Repr, Inhabited

def FileError.message : FileError → String
  | .notFound => "No such file or directory (os error 2)"
  | .notDirectory => "Not a directory (os error 20)"
  | .isDirectory => "Is a directory (os error 21)"
  | .nameTooLong => "File name too long (os error 36)"
  | .notText => "stream did not contain valid UTF-8"

/-- The names on the way from the working directory to a file. -/
abbrev Path := List String

/-- The working directory with all below it. -/
structure FileTree where
  files : List (Path × List UInt8)
  directories : List Path
deriving DecidableEq, Repr, Inhabited

/-- What a name refers to. A directory without a path is not below the working directory. -/
inductive Place where
  | directory (path : Option Path)
  | file (path : Path)
  /-- Nothing yet, in a directory that exists. -/
  | vacant (path : Path)
deriving DecidableEq, Repr, Inhabited

/-- The parts of a name, between its slashes. -/
def parts (name : String) : List String :=
  ((name.toList.splitOn '/').filter fun part => !part.isEmpty).map String.ofList

namespace FileTree

def content? (tree : FileTree) (path : Path) : Option (List UInt8) :=
  tree.files.lookup path

/-- A directory is one by itself or because something lies below it. -/
def isDirectory (tree : FileTree) (path : Path) : Bool :=
  tree.directories.any (path.isPrefixOf ·) ||
    tree.files.any fun (file, _) => path.isPrefixOf file && path != file

/-- The directory above. -/
def above : Option Path → Option Path
  | none | some [] => none
  | some path => some path.dropLast

/-- Looks up one part of a name in a directory. A part takes at most 255 bytes. Of the directories
that are not below the working directory nothing is known but that they exist. -/
def enter (tree : FileTree) (here : Option Path) (part : String) : Except FileError Place :=
  if part = "." then .ok (.directory here)
  else if part = ".." then .ok (.directory (above here))
  else if 255 < part.utf8ByteSize then .error .nameTooLong
  else match here with
    | none => .error .notFound
    | some path =>
      let next := path ++ [part]
      if tree.isDirectory next then .ok (.directory (some next))
      else if (tree.content? next).isSome then .ok (.file next)
      else .ok (.vacant next)

/-- Follows parts of a name, each of which has to be a directory. -/
def descend (tree : FileTree) (here : Option Path) : List String → Except FileError (Option Path)
  | [] => .ok here
  | part :: rest =>
    match tree.enter here part with
    | .ok (.directory next) => tree.descend next rest
    | .ok (.file _) => .error .notDirectory
    | .ok (.vacant _) => .error .notFound
    | .error error => .error error

/-- The directory in which the last part of a name is looked up. A name is not empty and
takes less than 4096 bytes. -/
def parent (tree : FileTree) (name : String) : Except FileError (Option Path) :=
  if name.isEmpty then .error .notFound
  else if 4096 ≤ name.utf8ByteSize then .error .nameTooLong
  else tree.descend (if name.startsWith "/" then none else some []) (parts name).dropLast

def locate (tree : FileTree) (name : String) : Except FileError Place :=
  match tree.parent name with
  | .error error => .error error
  | .ok directory =>
    match (parts name).getLast? with
    | some part => tree.enter directory part
    | none => .ok (.directory directory)

/-- The content of a file. A name with a slash at its end can only be that of a directory. -/
def read (tree : FileTree) (name : String) : Except FileError (List UInt8) :=
  match tree.locate name with
  | .ok (.file path) =>
    if name.endsWith "/" then .error .notDirectory else .ok ((tree.content? path).getD [])
  | .ok (.directory _) => .error .isDirectory
  | .ok (.vacant _) => .error .notFound
  | .error error => .error error

def readText (tree : FileTree) (name : String) : Except FileError String :=
  match tree.read name with
  | .ok bytes =>
    match Text.ofBytes? bytes with
    | some text => .ok text
    | none => .error .notText
  | .error error => .error error

/-- The place where a file can be written, new or over an old one. A slash at the end of the name is
refused before its last part is looked up. -/
def writable (tree : FileTree) (name : String) : Except FileError Path :=
  match tree.parent name with
  | .error error => .error error
  | .ok _ =>
    if name.endsWith "/" then .error .isDirectory
    else match tree.locate name with
      | .ok (.file path) | .ok (.vacant path) => .ok path
      | .ok (.directory _) => .error .isDirectory
      | .error error => .error error

/-- Writes a file, new or over an old one. -/
def put (tree : FileTree) (path : Path) (content : List UInt8) : FileTree :=
  { tree with files := (path, content) :: tree.files.filter fun (file, _) => file != path }

end FileTree

end AdaFront.CommandLine
