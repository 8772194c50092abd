import EdgeSync.Web.Host

/-!
# Addresses

An address names a scheme and, for most schemes, an account, a host and a port;
then a path, a query and a fragment. Reading one repairs what can be repaired:
blanks at the ends, line breaks, capitals, dots in the path, characters that need
escapes. Two texts for the same address are read as the same value, and a value
is written in one way.

## Main definitions

- `Url`: the parts of an address
- `Url.parse?`: read an address
- `Url.text`: write an address
-/

namespace EdgeSync.Web

open EdgeSync.Text

/-! ## The parts -/

/-- A path: its segments after slashes, or one text where there is no hierarchy. -/
inductive Path where
  | segments (items : List (List Char))
  | whole (text : List Char)
  deriving DecidableEq, Repr

/-- An account with its escapes. -/
structure UserInfo where
  username : List Char
  password : List Char
  deriving DecidableEq, Repr

/-- An address. -/
structure Url where
  scheme : List Char
  userInfo : UserInfo
  host : Option Host
  port : Option Nat
  path : Path
  query : Option (List Char)
  fragment : Option (List Char)
  deriving DecidableEq, Repr

/-- No account. -/
def UserInfo.none : UserInfo := ⟨[], []⟩

/-- Whether there is no account. -/
def UserInfo.isNone (u : UserInfo) : Bool :=
  u.username.isEmpty && u.password.isEmpty

/-! ## Schemes -/

/-- The scheme of files. -/
def fileScheme : List Char := ['f', 'i', 'l', 'e']

/-- The port of a well-known scheme that has one. -/
def defaultPort? (scheme : List Char) : Option Nat :=
  match String.ofList scheme with
  | "http" | "ws" => some 80
  | "https" | "wss" => some 443
  | "ftp" => some 21
  | _ => none

/-- Whether a scheme is well known. -/
def isSpecial (scheme : List Char) : Bool :=
  (defaultPort? scheme).isSome || scheme == fileScheme

/-- Whether a character may stand in a scheme. -/
def isSchemeChar (c : Char) : Bool :=
  c.isAlphanum || ['+', '-', '.'].contains c

/-- The scheme of an address and what follows its colon. -/
def cutScheme? (cs : List Char) : Option (List Char × List Char) :=
  let scheme := cs.takeWhile (· != ':')
  match cs.dropWhile (· != ':') with
  | [] => none
  | _ :: rest =>
    if (scheme.head?.any Char.isAlpha) && scheme.all isSchemeChar then
      some (scheme.map Char.toLower, rest)
    else none

/-! ## Cleaning -/

/-- Whether a character is dropped at both ends. -/
def isEdge (c : Char) : Bool :=
  c.toNat ≤ 0x20

/-- Whether a character is dropped everywhere. -/
def isLineBreak (c : Char) : Bool :=
  c == '\t' || c == '\n' || c == '\r'

/-- The characters of an address without those that never count. -/
def clean (cs : List Char) : List Char :=
  (dropEndWhile isEdge (cs.dropWhile isEdge)).filter fun c => !isLineBreak c

/-! ## Account, host and port -/

/-- Whether a character divides segments: a slash, and for the well-known schemes
a backslash. -/
def isDivider (special : Bool) (c : Char) : Bool :=
  c == '/' || (special && c == '\\')

/-- Whether a character ends a path. -/
def endsPath (c : Char) : Bool :=
  c == '?' || c == '#'

/-- Whether a character ends the account, host and port. -/
def endsAuthority (special : Bool) (c : Char) : Bool :=
  isDivider special c || endsPath c

/-- A text cut at its last at sign, if it has one. -/
def cutUserInfo (cs : List Char) : Option (List Char) × List Char :=
  let host := (cs.reverse.takeWhile (· != '@')).reverse
  if cs.contains '@' then (some (cs.take (cs.length - host.length - 1)), host) else (none, cs)

/-- The account that a text stands for: the password follows the first colon. -/
def readUserInfo (cs : List Char) : UserInfo :=
  let escaped := escape userInfoMarks
  ⟨escaped (cs.takeWhile (· != ':')), escaped ((cs.dropWhile (· != ':')).drop 1)⟩

/-- A text cut before its first colon outside brackets. -/
def cutHost (inside : Bool) : List Char → List Char × List Char
  | [] => ([], [])
  | c :: rest =>
    if c == ':' && !inside then ([], c :: rest)
    else
      let cut := cutHost (c == '[' || (inside && c != ']')) rest
      (c :: cut.1, cut.2)

/-- The port after a host: absent if there are no digits or it is the default. -/
def readPort? (scheme : List Char) : List Char → Option (Option Nat)
  | [] => some none
  | _ :: cs => do
    let port ← digits? 10 cs
    if port ≤ 65535 then
      some (if cs.isEmpty || defaultPort? scheme == some port then none else some port)
    else none

/-- The account, host and port of an address. -/
structure Authority where
  userInfo : UserInfo
  host : Host
  port : Option Nat
  deriving DecidableEq, Repr

/-- Read the account, host and port; `last` says that nothing follows them. -/
def readAuthority? (names : NameForm) (scheme : List Char) (last : Bool) (cs : List Char) :
    Option Authority := do
  let (account, place) := cutUserInfo cs
  let user := (account.map readUserInfo).getD .none
  let (name, rest) := cutHost false place
  let host ← if isSpecial scheme then Host.parse? names name else Host.parsePlain? name
  let port ← readPort? scheme rest
  -- An empty name goes with neither a port nor an account.
  if name.isEmpty &&
      (!rest.isEmpty || !user.isNone || (account == some [] && !last)) then none
  else some ⟨user, host, port⟩

/-! ## Paths -/

/-- Whether a segment is a dot, escaped or not. -/
def isDot (segment : List Char) : Bool :=
  [['.'], ['%', '2', 'e']].contains (segment.map Char.toLower)

/-- Whether a segment is two dots, escaped or not. -/
def isDoubleDot (segment : List Char) : Bool :=
  [['.', '.'], ['.', '%', '2', 'e'], ['%', '2', 'e', '.'],
    ['%', '2', 'e', '%', '2', 'e']].contains (segment.map Char.toLower)

/-- Add segments to a path: a dot adds nothing, two dots remove the last segment,
and a path that ends in either ends in an empty segment. -/
def addSegments (path : List (List Char)) : List (List Char) → List (List Char)
  | [] => path
  | segment :: rest =>
    let ended (p : List (List Char)) := if rest.isEmpty then p ++ [[]] else p
    if isDoubleDot segment then addSegments (ended path.dropLast) rest
    else if isDot segment then addSegments (ended path) rest
    else addSegments (path ++ [escape pathMarks segment]) rest

/-- The segments of a path; one divider at its beginning adds nothing. -/
def readSegments (special : Bool) (cs : List Char) : List (List Char) :=
  let divides := isDivider special
  addSegments [] (splitOn divides (if cs.head?.any divides then cs.tail else cs))

/-- A path without the empty segments at its beginning, except for a last one. -/
def dropLeadingEmpty : List (List Char) → List (List Char)
  | [] :: segment :: rest => dropLeadingEmpty (segment :: rest)
  | path => path

/-! ## Reading -/

/-- The query of what follows a path. -/
def readQuery (special : Bool) : List Char → Option (List Char)
  | '?' :: rest => some (escape (queryMarks special) (rest.takeWhile (· != '#')))
  | _ => none

/-- The fragment of what follows a path. -/
def readFragment (cs : List Char) : Option (List Char) :=
  match cs.dropWhile (· != '#') with
  | [] => none
  | _ :: rest => some (escape fragmentMarks rest)

/-- An address without account, host and port, with the query and fragment of what
follows the path. -/
def Url.ofPath (scheme : List Char) (path : Path) (rest : List Char) : Url :=
  ⟨scheme, .none, none, none, path, readQuery (isSpecial scheme) rest, readFragment rest⟩

/-- Read what follows the two slashes before a host. -/
def readHosted? (names : NameForm) (scheme cs : List Char) : Option Url := do
  let special := isSpecial scheme
  let place := cs.takeWhile fun c => !endsAuthority special c
  let rest := cs.dropWhile fun c => !endsAuthority special c
  let authority ← readAuthority? names scheme rest.isEmpty place
  let path := rest.takeWhile fun c => !endsPath c
  let segments := if special || !path.isEmpty then readSegments special path else []
  let url := Url.ofPath scheme (.segments segments) (rest.dropWhile fun c => !endsPath c)
  some { url with
    userInfo := authority.userInfo, host := some authority.host, port := authority.port }

/-- The host of a file: none for this machine. -/
def readFileHost? (names : NameForm) (cs : List Char) : Option Host :=
  if cs.isEmpty then some (.name [])
  else
    (Host.parse? names cs).map fun host =>
      if host == .name ['l', 'o', 'c', 'a', 'l', 'h', 'o', 's', 't'] then .name [] else host

/-- Read what follows the scheme of a file: a host after two dividers, then the
path. -/
def readFile? (names : NameForm) (cs : List Char) : Option Url := do
  let divides := isDivider true
  let hosted := (cs.take 2).length = 2 && (cs.take 2).all divides
  let cs := if hosted then cs.drop 2 else cs
  let place := if hosted then cs.takeWhile fun c => !endsAuthority true c else []
  let host ← readFileHost? names place
  let rest := cs.drop place.length
  let segments := dropLeadingEmpty (readSegments true (rest.takeWhile fun c => !endsPath c))
  let url := Url.ofPath fileScheme (.segments segments) (rest.dropWhile fun c => !endsPath c)
  some { url with host := some host }

/-- Read what follows a scheme that is not well known. -/
def readPlain? (names : NameForm) (scheme : List Char) : List Char → Option Url
  | '/' :: '/' :: cs => readHosted? names scheme cs
  | cs =>
    let path := cs.takeWhile fun c => !endsPath c
    let rest := cs.dropWhile fun c => !endsPath c
    if path.head? = some '/' then
      some (Url.ofPath scheme (.segments (readSegments false path)) rest)
    else some (Url.ofPath scheme (.whole (escape [] path)) rest)

namespace Url

/-- Read an address. Any number of dividers, even none, may stand between a
well-known scheme and its host. -/
def parse? (names : NameForm) (s : String) : Option Url :=
  match cutScheme? (clean s.toList) with
  | none => none
  | some (scheme, rest) =>
    if scheme = fileScheme then readFile? names rest
    else if isSpecial scheme then readHosted? names scheme (rest.dropWhile (isDivider true))
    else readPlain? names scheme rest

/-! ## Writing -/

/-- How the account is written. -/
def userInfoText (u : UserInfo) : List Char :=
  if u.isNone then []
  else u.username ++ (if u.password.isEmpty then [] else ':' :: u.password) ++ ['@']

/-- How the account, host and port are written. -/
def authorityText (u : Url) : List Char :=
  match u.host with
  | none => []
  | some host =>
    ['/', '/'] ++ userInfoText u.userInfo ++ host.text ++
      (match u.port with
      | none => []
      | some port => ':' :: Nat.toDigits 10 port)

/-- How the path is written. Without a host, a first empty segment is kept from
looking like the beginning of one. -/
def pathText (u : Url) : List Char :=
  match u.path with
  | .whole text => text
  | .segments items =>
    (if u.host.isNone && 1 < items.length && items.head? == some [] then ['/', '.'] else []) ++
      items.flatMap fun segment => '/' :: segment

/-- How a query or a fragment is written after its mark. -/
def markedText (mark : Char) : Option (List Char) → List Char
  | none => []
  | some text => mark :: text

/-- The characters of an address. -/
def chars (u : Url) : List Char :=
  u.scheme ++ [':'] ++ u.authorityText ++ u.pathText ++ markedText '?' u.query ++
    markedText '#' u.fragment

/-- The text of an address. -/
def text (u : Url) : String :=
  String.ofList u.chars

/-- Whether the scheme is one that requests are sent with. -/
def isWeb (u : Url) : Bool :=
  u.scheme == ['h', 't', 't', 'p'] || u.scheme == ['h', 't', 't', 'p', 's']

/-- Whether there is a host that is not empty. -/
def hasHost (u : Url) : Bool :=
  u.host.any fun host => !host.isEmpty

/-- Whether two addresses have the same host and the same port, named or not. -/
def isSameServer (u v : Url) : Bool :=
  u.host == v.host && u.port.or (defaultPort? u.scheme) == v.port.or (defaultPort? v.scheme)

/-- The address without its fragment. -/
def withoutFragment (u : Url) : Url :=
  { u with fragment := none }

/-- The address without its account. -/
def withoutUserInfo (u : Url) : Url :=
  { u with userInfo := .none }

end Url

end EdgeSync.Web
