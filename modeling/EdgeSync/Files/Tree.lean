/-!
# File Trees

A file tree holds regular files and directories by their absolute paths. A path
is a text: its segments are looked up one after the other, relative to the working
directory unless the path begins with a slash.

## Main definitions

- `FileFault`: why the system refuses a path
- `FileTree`, `FileTree.resolve`: the tree and the lookup of a path
- `FileTree.isFile`, `FileTree.read`, `FileTree.readText`, `FileTree.write`: the
  operations
-/

namespace EdgeSync

/-! ## Faults -/

/-- Why the system refuses a path. -/
inductive FileFault where
  | notFound
  | notDirectory
  | isDirectory
  | nameTooLong
  | notText
  | nulByte
  deriving DecidableEq, Repr

/-- The wording of the system. -/
def FileFault.message : FileFault → String
  | notFound => "No such file or directory (os error 2)"
  | notDirectory => "Not a directory (os error 20)"
  | isDirectory => "Is a directory (os error 21)"
  | nameTooLong => "File name too long (os error 36)"
  | notText => "stream did not contain valid UTF-8"
  | nulByte => "file name contained an unexpected NUL byte"

/-! ## Trees -/

/-- A regular file with its content, or a directory. -/
inductive FileNode where
  | file (content : ByteArray)
  | directory

/-- Whether a node is a regular file. -/
def FileNode.isFile : FileNode → Bool
  | file _ => true
  | directory => false

/-- The segments of an absolute path. -/
abbrev PathSegments := List String

/-- Files and directories by their absolute paths. The root and the working
directory are always there. -/
structure FileTree where
  nodes : List (PathSegments × FileNode)

namespace FileTree

/-- The working directory. -/
def workingDirectory : PathSegments := ["work"]

/-- The tree without files. -/
def empty : FileTree := ⟨[]⟩

/-- The node at an absolute path. -/
def node? (t : FileTree) (path : PathSegments) : Option FileNode :=
  if path = [] ∨ path = workingDirectory then some .directory
  else (t.nodes.find? fun entry => entry.1 == path).map (·.2)

/-- Put a node at an absolute path, replacing what was there. -/
def put (t : FileTree) (path : PathSegments) (node : FileNode) : FileTree :=
  ⟨(path, node) :: t.nodes.filter fun entry => entry.1 != path⟩

/-! ## Looking up paths -/

/-- The most bytes of a segment. -/
def maxSegment : Nat := 255

/-- The most bytes of a path. -/
def maxPath : Nat := 4095

/-- The segments of a path; doubled slashes and single dots add nothing. -/
def segments (path : String) : List String :=
  (path.splitOn "/").filter fun s => !s.isEmpty && s != "."

/-- Whether a path insists on a directory: it ends in a slash or in a dot. -/
def asksDirectory (path : String) : Bool :=
  path.endsWith "/" || path.endsWith "/." || path == "."

/-- Follow the segments of a path from a directory. The last segment need not be
there. -/
def follow (t : FileTree) (place : PathSegments) : List String → Except FileFault PathSegments
  | [] => .ok place
  | segment :: rest =>
    match t.node? place with
    | none => .error .notFound
    | some (.file _) => .error .notDirectory
    | some .directory =>
      -- The root is its own parent.
      if segment = ".." then follow t place.dropLast rest
      else if maxSegment < segment.utf8ByteSize then .error .nameTooLong
      else follow t (place ++ [segment]) rest

/-- The absolute path that a path stands for. -/
def resolve (t : FileTree) (path : String) : Except FileFault PathSegments :=
  if path.toList.contains '\x00' then .error .nulByte
  else if path.isEmpty then .error .notFound
  else if maxPath < path.utf8ByteSize then .error .nameTooLong
  else follow t (if path.startsWith "/" then [] else workingDirectory) (segments path)

/-- The node that a path stands for. -/
def lookUp (t : FileTree) (path : String) : Except FileFault FileNode :=
  match t.resolve path with
  | .error fault => .error fault
  | .ok place =>
    match t.node? place with
    | none => .error .notFound
    | some .directory => .ok .directory
    | some (.file content) =>
      if asksDirectory path then .error .notDirectory else .ok (.file content)

/-! ## Operations -/

/-- Whether a path stands for a regular file. -/
def isFile (t : FileTree) (path : String) : Except FileFault Bool :=
  (t.lookUp path).map FileNode.isFile

/-- The content of a regular file. -/
def read (t : FileTree) (path : String) : Except FileFault ByteArray :=
  match t.lookUp path with
  | .error fault => .error fault
  | .ok .directory => .error .isDirectory
  | .ok (.file content) => .ok content

/-- The content of a regular file that holds a text. -/
def readText (t : FileTree) (path : String) : Except FileFault String :=
  match t.read path with
  | .error fault => .error fault
  | .ok content =>
    match String.fromUTF8? content with
    | some s => .ok s
    | none => .error .notText

/-- Write a file, creating it if its directory is there. -/
def write (t : FileTree) (path : String) (content : ByteArray) : Except FileFault FileTree :=
  match t.resolve path with
  | .error fault => .error fault
  | .ok place =>
    match t.node? place with
    | some .directory => .error .isDirectory
    | some (.file _) =>
      if asksDirectory path then .error .notDirectory else .ok (t.put place (.file content))
    | none =>
      if asksDirectory path then .error .isDirectory else .ok (t.put place (.file content))

/-- Create the directories of a path that are not there. -/
def createDirectories (t : FileTree) (place : PathSegments) : List String → FileTree
  | [] => t
  | segment :: rest =>
    let next := place ++ [segment]
    let t := if (t.node? next).isSome then t else t.put next .directory
    createDirectories t next rest

/-- The absolute path of a path without looking it up. -/
def absolute (path : String) : PathSegments :=
  (if path.startsWith "/" then [] else workingDirectory) ++ segments path

/-- Put a file or a directory at a path together with the directories above it. -/
def install (t : FileTree) (path : String) (node : FileNode) : FileTree :=
  let place := absolute path
  (t.createDirectories [] place.dropLast).put place node

/-- Remove what is at a path, and everything below it. -/
def remove (t : FileTree) (path : String) : FileTree :=
  let place := absolute path
  ⟨t.nodes.filter fun entry => !place.isPrefixOf entry.1⟩

end FileTree

end EdgeSync
