/-
TwinRegion.Registry — the blobs that are open.

An open blob is a record: its name, its device, its partition and how many
references it has. Records are numbered and never reused; the registry
leads from a name to the record open under it. A record outlives its name,
because whoever holds a reference still has it, but its device is given up
with its last reference.
-/
import TwinRegion.World
import TwinRegion.Blob.Transfer

namespace TwinRegion

/-- The state of an open blob. -/
structure BlobRecord (D : Type := Device) where
  name : String
  /-- The device, until it is given up. -/
  device : Option D
  partition : Partition
  refs : Nat
  deriving DecidableEq, Repr, Inhabited

/-- The number of a record. -/
abbrev BlobId := Nat

/-- Every record there has been, and the names under which records are open. -/
structure Registry (D : Type := Device) where
  records : Array (BlobRecord D)
  names : Std.ExtTreeMap String BlobId
  deriving Inhabited

namespace Registry

variable {D : Type}

def empty : Registry D := ⟨#[], ∅⟩

/-- The record open under a name; looking does not take a reference. -/
def lookup? (registry : Registry D) (name : String) : Option BlobId := registry.names[name]?

def record? (registry : Registry D) (id : BlobId) : Option (BlobRecord D) := registry.records[id]?

/-- The number of open blobs. -/
def size (registry : Registry D) : Nat := registry.names.size

/-- Changes one record. -/
def modifyRecord (registry : Registry D) (id : BlobId) (f : BlobRecord D → BlobRecord D) :
    Registry D :=
  { registry with records := registry.records.modify id f }

/-- Keeps a record without giving it a name. -/
def keep (registry : Registry D) (record : BlobRecord D) : BlobId × Registry D :=
  (registry.records.size, { registry with records := registry.records.push record })

/-- Keeps a record and opens it under a name. -/
def enter (registry : Registry D) (name : String) (record : BlobRecord D) : BlobId × Registry D :=
  let (id, registry) := registry.keep record
  (id, { registry with names := registry.names.insert name id })

/-- Takes a name off, whichever record it leads to. -/
def unname (registry : Registry D) (name : String) : Registry D :=
  { registry with names := registry.names.erase name }

/-- The partition of the blob open under a name. -/
def partition? (registry : Registry D) (name : String) : Option Partition := do
  let record ← registry.record? (← registry.lookup? name)
  return record.partition

end Registry

end TwinRegion
