/-!
# Credentials

What the replica needs to replicate: an account at the source registry and both
registries.

## Main definitions

- `Credentials`, `Credentials.missing`: the record and the names of its empty parts
- `missingMessage?`: the message that names what is missing
-/

namespace EdgeSync

/-- The account and the registries that replication works with. -/
structure Credentials where
  username : String
  password : String
  sourceRegistry : String
  destination : String
  useUnsecure : Bool
  deriving DecidableEq, Repr, Inhabited

namespace Credentials

/-- The credentials with nothing filled in. -/
def empty : Credentials := ⟨"", "", "", "", false⟩

/-- The names of the empty parts. -/
def missing (c : Credentials) : List String :=
  (if c.destination.isEmpty then ["destination registry"] else []) ++
    (if c.sourceRegistry.isEmpty then ["source registry"] else []) ++
    (if c.username.isEmpty then ["username"] else []) ++
    (if c.password.isEmpty then ["password"] else [])

end Credentials

/-- The message that names what is missing, if anything is. -/
def missingMessage? (missing : List String) : Option String :=
  if missing.isEmpty then none else some ("missing " ++ ", ".intercalate missing)

end EdgeSync
