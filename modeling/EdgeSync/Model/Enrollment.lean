import EdgeSync.Json.Record
import EdgeSync.Json.Value

/-!
# Enrollments

Ground control answers a registration with an enrollment: the account for the
source registry and the locators of the snapshots to follow.

## Main definitions

- `Auth`: an account, `Auth.missing`: its empty parts
- `Enrollment`: an account and locators
- `LocatorUpdate`, `StopRequest`: the contents of two further notices
- `TaskId`: the number of a scheduled task
-/

namespace EdgeSync

open EdgeSync.Json

/-! ## Accounts -/

/-- An account at the source registry. -/
structure Auth where
  name : String
  registry : String
  secret : String
  deriving DecidableEq, Repr, Inhabited

namespace Auth

/-- The account with nothing filled in. -/
def empty : Auth := ⟨"", "", ""⟩

/-- The names of the empty parts. -/
def missing (a : Auth) : List String :=
  (if a.name.isEmpty then ["name"] else []) ++
    (if a.registry.isEmpty then ["registry"] else []) ++
    (if a.secret.isEmpty then ["secret"] else [])

/-- Whether no part is empty. -/
def isComplete (a : Auth) : Bool :=
  a.missing.isEmpty

/-- The fields in their order. -/
def shape : Shape Auth where
  name := "Auth"
  fields :=
    [.optional "name" .text fun v a => { a with name := v },
     .optional "registry" .text fun v a => { a with registry := v },
     .optional "secret" .text fun v a => { a with secret := v }]

/-- Read an account; absent parts are empty. -/
def reader : Reader Auth :=
  shape.reader empty

/-- A member of an object that is left out when its text is empty. -/
def textMember (key value : String) : List (String × Value) :=
  if value.isEmpty then [] else [(key, .text value)]

/-- The JSON form without empty parts. -/
def toJson (a : Auth) : Value :=
  .object
    (textMember "name" a.name ++ textMember "registry" a.registry ++
      textMember "secret" a.secret)

end Auth

/-! ## Enrollments -/

/-- An account and the locators of the snapshots to follow. -/
structure Enrollment where
  auth : Auth
  states : List String
  deriving DecidableEq, Repr, Inhabited

namespace Enrollment

/-- The enrollment before a registration. -/
def empty : Enrollment := ⟨.empty, []⟩

/-- The fields in their order. -/
def shape : Shape Enrollment where
  name := "StateConfig"
  fields :=
    [.optional "auth" Auth.reader fun v e => { e with auth := v },
     .optional "states" (.orNull [] (.list .text)) fun v e => { e with states := v }]

/-- Read an enrollment; absent fields are empty. -/
def reader : Reader Enrollment :=
  shape.reader empty

/-- The JSON form; an empty list of locators is left out. -/
def toJson (e : Enrollment) : Value :=
  .object
    (("auth", e.auth.toJson) ::
      (if e.states.isEmpty then [] else [("states", .list (e.states.map .text))]))

end Enrollment

/-! ## Updates of the locators -/

/-- The locators that replace the ones followed so far. -/
structure LocatorUpdate where
  states : List String
  deriving DecidableEq, Repr, Inhabited

namespace LocatorUpdate

/-- The fields in their order. -/
def shape : Shape LocatorUpdate where
  name := "ConfigUpdate"
  fields := [.optional "states" (.list .text) fun v u => { u with states := v }]

/-- Read an update. -/
def reader : Reader LocatorUpdate :=
  shape.reader ⟨[]⟩

/-- The JSON form. -/
def toJson (u : LocatorUpdate) : Value :=
  .object [("states", .list (u.states.map .text))]

end LocatorUpdate

/-! ## Task numbers and stop requests -/

/-- The number of a scheduled task. -/
structure TaskId where
  number : UInt64
  deriving DecidableEq, Repr, Inhabited

namespace TaskId

/-- Read a number. -/
def reader : Reader TaskId :=
  Reader.natural.map fun n => ⟨UInt64.ofNat n⟩

/-- The JSON form. -/
def toJson (id : TaskId) : Value :=
  .natural id.number.toNat

/-- The decimal text of a number. -/
def text (id : TaskId) : String :=
  toString id.number.toNat

end TaskId

/-- The request to stop a task. -/
structure StopRequest where
  name : String
  id : TaskId
  deriving DecidableEq, Repr, Inhabited

namespace StopRequest

/-- The fields in their order. -/
def shape : Shape StopRequest where
  name := "StopTask"
  fields :=
    [.needed "name" .text fun v r => { r with name := v },
     .needed "id" TaskId.reader fun v r => { r with id := v }]

/-- Read a request. -/
def reader : Reader StopRequest :=
  shape.reader ⟨"", ⟨0⟩⟩

/-- The JSON form. -/
def toJson (r : StopRequest) : Value :=
  .object [("name", .text r.name), ("id", r.id.toJson)]

end StopRequest

end EdgeSync
