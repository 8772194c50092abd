import EdgeSync.Files.Tree
import EdgeSync.Text.Blank
import EdgeSync.Web.Url

/-!
# Locators

A locator says where a snapshot is: at an address of the web, or in a regular
file. A text that is no address of the web must name a file that is there.

## Main definitions

- `Locator`, `Locator.parse`: locators and the texts for them
- `checkPath`: whether a text names a regular file
- `registryAddress`: an address without its scheme and the slashes at its end
-/

namespace EdgeSync

open EdgeSync.Text EdgeSync.Web

/-- Where a snapshot is. -/
inductive Locator where
  | web (url : Url)
  | file (path : String)
  deriving DecidableEq, Repr

/-! ## Files -/

/-- Why a text does not name a regular file. -/
inductive PathFault where
  | blank
  | badCharacter
  | unreachable (fault : FileFault)
  | notAFile
  deriving DecidableEq, Repr

/-- The wording of a fault. -/
def PathFault.message : PathFault → String
  | blank => "empty path"
  | badCharacter => "path contains invalid characters"
  | unreachable fault => "cannot stat path: " ++ fault.message
  | notAFile => "not a regular file"

/-- The characters that no path to a snapshot contains. -/
def badPathChars : List Char := ['<', '>', ':', '\x22', '|', '?', '*', '\x00']

/-- Check that a text names a regular file. -/
def checkPath (files : FileTree) (path : String) : Except PathFault String :=
  if (trimChars path.toList).isEmpty then .error .blank
  else if path.toList.any badPathChars.contains then .error .badCharacter
  else
    match files.isFile path with
    | .error fault => .error (.unreachable fault)
    | .ok false => .error .notAFile
    | .ok true => .ok path

/-! ## Locators -/

/-- Read a locator: an address of the web that has a host, or the path of a file. -/
def Locator.parse (names : NameForm) (files : FileTree) (s : String) :
    Except PathFault Locator :=
  match (Url.parse? names s).filter fun url => url.isWeb && url.hasHost with
  | some url => .ok (.web url)
  | none => (checkPath files s).map .file

/-! ## Addresses of registries -/

/-- The schemes that are left out, each with what divides it from the host. -/
def registrySchemes : List (List Char) :=
  [['h', 't', 't', 'p', 's', ':', '/', '/'], ['h', 't', 't', 'p', ':', '/', '/']]

/-- The address of a registry without its scheme and the slashes at its end. -/
def registryAddress (url : String) : String :=
  let cs := url.toList
  let bare :=
    match registrySchemes.find? fun scheme => scheme.isPrefixOf cs with
    | some scheme => cs.drop scheme.length
    | none => cs
  String.ofList (dropEndWhile (· == '/') bare)

end EdgeSync
