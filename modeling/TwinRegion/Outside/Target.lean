/-
TwinRegion.Outside.Target — what the name of a database asks for.

A database is named by a path or by a URI:

    file:PATH
    file://localhost/PATH?vfs=NAME&mode=rw#comment

In a URI a percent sign and two hexadecimal digits stand for a byte. The
options may choose another VFS, narrow down what the connection may do, let
it share the database with others, and name a file to take the access
rights from. A database without a name is temporary, and one named
`:memory:` or opened in the mode `memory` is kept in memory; neither has a
file.
-/
import TwinRegion.Bytes.Text
import TwinRegion.Path

namespace TwinRegion.Sqlite

/-- What a connection may do with the file of its database. -/
inductive Access where
  | readOnly
  | readWrite
  /-- Make the file if it is missing. -/
  | create
  /-- There is no file. -/
  | memory
  deriving DecidableEq, Repr, Inhabited

namespace Access

def ofMode? : String → Option Access
  | "ro" => some .readOnly
  | "rw" => some .readWrite
  | "rwc" => some .create
  | "memory" => some .memory
  | _ => none

/-- How much an access asks for: nothing, if there is no file. -/
def demand : Access → Nat
  | memory => 0
  | readOnly => 1
  | readWrite => 2
  | create => 3

/-- How much may be asked for in place of an access: anything, if there is no file. -/
def grant : Access → Nat
  | memory => 4
  | access => access.demand

end Access

/-- What a connection is to be opened on. -/
structure Target where
  /-- The path of the file, or the name of a database in memory. -/
  file : Path
  vfs : String
  access : Access
  /-- The database may be shared with other connections. -/
  shared : Bool
  /-- The file to take the access rights of a new one from. -/
  modeOf : Option Path
  deriving DecidableEq, Repr, Inhabited

namespace Target

/-! ## URIs -/

def hexDigit? (c : Char) : Option Nat :=
  if '0' ≤ c ∧ c ≤ '9' then some (c.toNat - '0'.toNat)
  else if 'a' ≤ c ∧ c ≤ 'f' then some (c.toNat - 'a'.toNat + 10)
  else if 'A' ≤ c ∧ c ≤ 'F' then some (c.toNat - 'A'.toNat + 10)
  else none

/-- The bytes that a part of a URI spells. A spelled-out zero byte ends the part. -/
def decode : List Char → List UInt8
  | [] => []
  | '%' :: high :: low :: rest =>
    match hexDigit? high, hexDigit? low with
    | some high', some low' =>
      let byte := UInt8.ofNat (16 * high' + low')
      if byte = 0 then [] else byte :: decode rest
    | _, _ => String.utf8EncodeChar '%' ++ decode (high :: low :: rest)
  | c :: rest => String.utf8EncodeChar c ++ decode rest

/-- What follows the slashes and the machine's name, which can only be this one's. -/
def afterAuthority : List Char → Except SqlError (List Char)
  | '/' :: '/' :: rest =>
    let authority := String.ofList (rest.takeWhile (· ≠ '/'))
    if authority = "" ∨ authority = "localhost" then .ok (rest.dropWhile (· ≠ '/'))
    else .error (.badAuthority authority)
  | text => .ok text

/-- An option of a URI. -/
structure UriOption where
  name : String
  value : List UInt8
  deriving DecidableEq, Repr, Inhabited

/-- An option with its value. One without a name does not count. -/
def option? (text : String) : Option UriOption :=
  let name := decode (text.toList.takeWhile (· ≠ '='))
  let value := decode ((text.toList.dropWhile (· ≠ '=')).drop 1)
  if name.isEmpty then none else some ⟨Bytes.shown name, value⟩

/-- The options of a URI, in order. -/
def options (query : List Char) : List UriOption :=
  ((String.ofList query).splitOn "&").filterMap option?

/-- Does what an option says. The access may only be narrowed down, the last word on
sharing counts, and the first file to take rights from. -/
def applyOption (target : Target) (option : UriOption) : Except SqlError Target :=
  let text := Bytes.shown option.value
  match option.name with
  | "vfs" => .ok { target with vfs := text }
  | "cache" =>
    if text = "shared" then .ok { target with shared := true }
    else if text = "private" then .ok { target with shared := false }
    else .error (.badCacheMode text)
  | "mode" =>
    match Access.ofMode? text with
    | none => .error (.badAccessMode text)
    | some access =>
      if target.access.grant < access.demand then .error (.accessNotAllowed text)
      else .ok { target with access := access }
  | "modeof" => .ok { target with modeOf := target.modeOf <|> some ⟨option.value⟩ }
  | _ => .ok target

/-! ## Names -/

/-- What a URI asks for, given what follows its scheme. -/
def ofUri (text : List Char) (vfs : String) : Except SqlError Target := do
  let text := (← afterAuthority text).takeWhile (· ≠ '#')
  let query := (text.dropWhile (· ≠ '?')).drop 1
  (options query).foldlM applyOption
    ⟨⟨decode (text.takeWhile (· ≠ '?'))⟩, vfs, .create, false, none⟩

/-- How the name of a database starts if it is a URI. -/
def scheme : String := "file:"

/-- What a name asks for. The VFS is the one given here, unless a URI chooses another. -/
def ofName (name vfs : String) : Except SqlError Target :=
  if name.startsWith scheme then ofUri (name.toList.drop scheme.length) vfs
  else .ok ⟨name, vfs, .create, false, none⟩

/-- The name that keeps a database in memory. -/
def memoryName : Path := ":memory:"

/-- The database has no name and goes with its connection. -/
def isTemporary (target : Target) : Bool := target.file.bytes.isEmpty

/-- The database is kept in memory. -/
def isInMemory (target : Target) : Bool := target.file == memoryName || target.access == .memory

end Target

end TwinRegion.Sqlite
