/-
TwinRegion.Proofs.Clients — open blobs do not influence each other.

A client has one path and one medium and uses the file system for that blob
alone: it opens the database or the journal there, works on the regions by
the handles it was given, and removes, looks for and asks about its files.
`Client.Alongside` relates the file system that a client shares with others
to one that it has for itself: the blob is open in both or in neither, as
one record, on one medium; and to one before it, which the client has not
changed but for that blob. Each use of the client goes alike in both
(`Client.alike_perform`), and each use of another one keeps the relation
(`Client.Alongside.other`), so in any interleaving the replies to a client
are those that it gets when it is alone (`clients_alone`).
-/
import Mathlib.Data.Set.Basic
import Mathlib.Logic.Function.Basic
import TwinRegion.Proofs.Neighbours

namespace TwinRegion

open StepM Vfs

/-! ## Clients -/

/-- One who uses one blob. -/
structure Client where
  path : String
  medium : Medium

namespace Client

/-- The path of a region's file. -/
def file (client : Client) : Region → String
  | .database => client.path
  | .journal => client.path ++ journalEnding

/-- The path is one for a database. -/
structure Proper (client : Client) : Prop where
  path_ne : client.path ≠ ""
  not_journal : ¬ journalEnding.toList <:+ client.path.toList

variable {client other : Client}

theorem Proper.split_database (h : client.Proper) :
    splitJournalName (client.file .database) = (client.path, false) := by
  rw [splitJournalName, if_neg]
  · rfl
  · rintro ⟨-, hending⟩
    apply h.not_journal
    rw [← hending]
    exact List.drop_suffix _ _

theorem Proper.split_journal (h : client.Proper) :
    splitJournalName (client.file .journal) = (client.path, true) := by
  have hpos : 0 < client.path.toList.length := by
    rw [List.length_pos_iff]
    exact fun hnil => h.path_ne (String.toList_eq_nil_iff.mp hnil)
  simp only [splitJournalName, file, String.toList_append, List.length_append, Nat.add_sub_cancel,
    List.drop_left, List.take_left, String.ofList_toList]
  exact if_pos ⟨hpos, trivial⟩

theorem Proper.blobName_file (h : client.Proper) (region : Region) :
    blobName (client.file region) region = client.path := by
  cases region with
  | database => rfl
  | journal => rw [blobName, h.split_journal]

/-- No database has the path of a journal. -/
theorem Proper.file_journal_ne (h : other.Proper) (client : Client) :
    client.file .journal ≠ other.path := by
  intro heq
  apply h.not_journal
  rw [← heq, file, String.toList_append]
  exact List.suffix_append _ _

end Client

/-! ## Uses -/

/-- What a handle is used for. -/
inductive HandleUse where
  | read (offset len : Nat)
  | write (offset : Nat) (data : Bytes)
  | truncate (size : Nat)
  | sync (flags : Int32)
  | measure

/-- What a client does, and what happens to its medium meanwhile. A handle is known by its
number among those that the client was given. -/
inductive Use where
  | opening (region : Region) (openDevice : String → StepM World Device)
  | handling (number : Nat) (use : HandleUse)
  | closing (number : Nat)
  | removing (region : Region)
  | looking (region : Region)
  | asking (region : Region)
  | meanwhile (change : StepM World Unit)

/-- What a client is told. -/
inductive Reply where
  | done
  | bytes (bytes : Bytes)
  | size (size : Nat)
  | present (present : Bool)
  | partition (partition : Option Partition)

/-- The file system, and the handles that a client was given and has not given back. -/
structure Desk where
  vfs : Vfs
  held : List (Option Handle)

def HandleUse.perform (handle : Handle) : HandleUse → StepM Vfs Reply
  | .read offset len => do return .bytes (← Vfs.read handle offset len)
  | .write offset data => do
    Vfs.write handle offset data
    return .done
  | .truncate size => do
    Vfs.truncate handle size
    return .done
  | .sync flags => do
    Vfs.sync handle flags
    return .done
  | .measure => do return .size (← Vfs.regionSize handle)

namespace Desk

variable {α : Type}

def onVfs (step : StepM Vfs α) : StepM Desk α :=
  StepM.focus Desk.vfs (fun vfs desk => { desk with vfs := vfs }) step

/-- The handle of a number, if the client still has it. -/
def handle? (desk : Desk) (number : Nat) : Option Handle := desk.held[number]?.join

end Desk

namespace Use

/-- What a use does. Nothing is done with a handle that the client has not got. -/
def perform (client : Client) : Use → StepM Desk Reply
  | .opening region openDevice => do
    let handle ← Desk.onVfs (openVia (client.file region) region openDevice)
    modify fun desk => { desk with held := desk.held ++ [some handle] }
    return .done
  | .handling number use => do
    match (← get).handle? number with
    | some handle => Desk.onVfs (use.perform handle)
    | none => return .done
  | .closing number => do
    match (← get).handle? number with
    | some handle =>
      modify fun desk => { desk with held := desk.held.set number none }
      Desk.onVfs (Vfs.close handle)
      return .done
    | none => return .done
  | .removing region => do
    Desk.onVfs (Vfs.remove (client.file region))
    return .done
  | .looking region => do return .present ((← get).vfs.present (client.file region))
  | .asking region => do
    return .partition ((← get).vfs.registry.partition? (client.file region))
  | .meanwhile change => do
    Desk.onVfs (Vfs.onWorld change)
    return .done

/-- The use has to do with no medium but the client's own. -/
def Own (ground : Ground) (client : Client) : Use → Prop
  | .opening .database openDevice => World.Opens ground client.medium (openDevice client.path)
  | .meanwhile change => World.Minds ground client.medium change
  | _ => True

end Use

namespace Client

/-! ## Two file systems -/

/-- For a client the world is the same in both file systems, and in the first one all else is as
it is in `base`. -/
structure Beside (client : Client) (ground : Ground) (origin origin' : Option (String ⊕ Nat))
    (base far near : Vfs) : Prop where
  world : World.Twins ground client.medium origin origin' base.world far.world near.world
  names : ∀ name, name ≠ client.path → far.registry.lookup? name = base.registry.lookup? name
  records : ∀ id record, base.registry.record? id = some record → record.name ≠ client.path →
    far.registry.record? id = some record
  far_journal : far.registry.lookup? (client.file .journal) = none
  near_journal : near.registry.lookup? (client.file .journal) = none

/-- The client's blob is open in neither. -/
structure Shut (client : Client) (ground : Ground) (origin origin' : Option (String ⊕ Nat))
    (base far near : Vfs) : Prop
    extends client.Beside ground origin origin' base far near where
  far_named : far.registry.lookup? client.path = none
  near_named : near.registry.lookup? client.path = none

/-- The same record of the client's blob, though its device may go by another number. -/
structure Paired (client : Client) (origin origin' : Option (String ⊕ Nat)) (refs : Nat)
    (record record' : BlobRecord) : Prop where
  name_eq : record.name = client.path
  name_eq' : record'.name = client.path
  partition_eq : record.partition = record'.partition
  refs_eq : record.refs = refs
  refs_eq' : record'.refs = refs
  devices : Device.Paired origin origin' record.device record'.device

/-- The client's blob is open in both, as the same record, though not of the same number. -/
structure Shares (client : Client) (ground : Ground) (origin origin' : Option (String ⊕ Nat))
    (base : Vfs) (id id' : BlobId) (refs : Nat) (far near : Vfs) : Prop
    extends client.Beside ground origin origin' base far near where
  far_named : far.registry.lookup? client.path = some id
  near_named : near.registry.lookup? client.path = some id'
  record : ∃ record record', far.registry.record? id = some record ∧
    near.registry.record? id' = some record' ∧ client.Paired origin origin' refs record record'

variable {client : Client} {ground : Ground} {origin origin' : Option (String ⊕ Nat)}
  {base far near : Vfs} {id id' : BlobId} {refs : Nat} {α : Type}

/-- The record is changed in both. -/
theorem Shares.modifyRecord (h : client.Shares ground origin origin' base id id' refs far near)
    {record record' : BlobRecord} (hfar : far.registry.record? id = some record)
    (hnear : near.registry.record? id' = some record') {f g : BlobRecord → BlobRecord} {refs' : Nat}
    (hpaired : client.Paired origin origin' refs' (f record) (g record')) {world world' : World}
    (hworld : World.Twins ground client.medium origin origin' base.world world world') :
    client.Shares ground origin origin' base id id' refs' ⟨far.registry.modifyRecord id f, world⟩
      ⟨near.registry.modifyRecord id' g, world'⟩ := by
  obtain ⟨found, found', hfarFound, -, hfound⟩ := h.record
  cases hfar.symm.trans hfarFound
  refine ⟨⟨hworld, h.names, fun other r hr hother => ?_, h.far_journal, h.near_journal⟩, h.far_named,
    h.near_named, f record, g record', ?_, ?_, hpaired⟩
  · have hfarther := h.records other r hr hother
    rw [record?_modifyRecord_of_ne, hfarther]
    rintro rfl
    cases hfar.symm.trans hfarther
    exact hother hfound.name_eq
  · rw [record?_modifyRecord, hfar, Option.map_some]
  · rw [record?_modifyRecord, hnear, Option.map_some]

/-! ### Requests -/

/-- A step on the device of the client's record. -/
theorem alike_onBlob {step : Partition → StepM Attached α}
    (hstep : ∀ partition a b, Attached.Twins ground client.medium origin origin' base.world a b →
      Alike (Attached.Twins ground client.medium origin origin' base.world) (step partition) a
        (step partition) b)
    (h : client.Shares ground origin origin' base id id' refs far near) :
    Alike (client.Shares ground origin origin' base id id' refs) (onBlob id step) far
      (onBlob id' step) near := by
  obtain ⟨record, record', hfar, hnear, hpaired⟩ := h.record
  have hthere : Attached.Twins ground client.medium origin origin' base.world (attached record far)
      (attached record' near) := ⟨hpaired.devices, h.world⟩
  have hfocus : Alike (client.Shares ground origin origin' base id id' refs)
      (StepM.focus (attached record) (setAttached id) (step record.partition)) far
      (StepM.focus (attached record') (setAttached id') (step record.partition)) near := by
    refine (hstep record.partition _ _ hthere).focus fun a b hafter => ?_
    exact h.modifyRecord hfar hnear { hpaired with devices := hafter.devices } hafter.world
  refine hfocus.of_run_eq (run_onBlob step hfar) ?_
  rw [hpaired.partition_eq]
  exact run_onBlob step hnear

theorem alike_setPartition (partition : Partition)
    (h : client.Shares ground origin origin' base id id' refs far near) :
    Alike (client.Shares ground origin origin' base id id' refs) (setPartition id partition) far
      (setPartition id' partition) near := by
  obtain ⟨record, record', hfar, hnear, hpaired⟩ := h.record
  exact .ok rfl rfl (h.modifyRecord hfar hnear { hpaired with partition_eq := rfl } h.world)

theorem alike_partition (region : Region)
    (h : client.Shares ground origin origin' base id id' refs far near) :
    Alike (client.Shares ground origin origin' base id id' refs) (Vfs.partition ⟨region, id, 0⟩) far
      (Vfs.partition ⟨region, id', 0⟩) near := by
  obtain ⟨record, record', hfar, hnear, hpaired⟩ := h.record
  have hrun : ∀ {vfs : Vfs} {id : BlobId} {record : BlobRecord},
      vfs.registry.record? id = some record →
        (Vfs.partition ⟨region, id, 0⟩).run vfs = .ok record.partition vfs := by
    intro vfs id record hrecord
    simp only [Vfs.partition, Vfs.record, EStateM.run_bind, EStateM.run_get, hrecord,
      EStateM.run_pure]
  exact .ok (hrun hfar) (hpaired.partition_eq ▸ hrun hnear) h

/-- What the client does by a handle goes alike. -/
theorem alike_handling (region : Region) (use : HandleUse)
    (h : client.Shares ground origin origin' base id id' refs far near) :
    Alike (client.Shares ground origin origin' base id id' refs) (use.perform ⟨region, id, 0⟩) far
      (use.perform ⟨region, id', 0⟩) near := by
  have hmatches := Attached.matches_twins ground client.medium origin origin' base.world
  cases use with
  | read offset len =>
    refine (alike_onBlob (fun partition _ _ ha => ?_) h).bind fun _ _ _ h => .pure h
    exact Blob.alike_read hmatches partition region offset len ha
  | write offset data =>
    refine Alike.bind ?_ fun _ _ _ h => .pure h
    refine (alike_onBlob (fun partition _ _ ha => ?_) h).bind fun partition _ _ h =>
      alike_setPartition partition h
    exact Blob.alike_write hmatches.writes partition region offset data ha
  | truncate size =>
    refine Alike.bind ?_ fun _ _ _ h => .pure h
    exact (alike_partition region h).bind fun partition _ _ h => alike_setPartition _ h
  | sync flags =>
    refine Alike.bind (alike_onBlob (fun partition _ _ ha => ?_) h) fun _ _ _ h => .pure h
    exact Blob.alike_sync hmatches.writes partition region flags ha
  | measure =>
    refine Alike.bind ?_ fun _ _ _ h => .pure h
    exact (alike_partition region h).bind fun _ _ _ h => .pure h

/-! ### Removing, looking and asking -/

/-- Removing erases the journal of an open blob. -/
theorem Shares.alike_remove (hproper : client.Proper) (region : Region)
    (h : client.Shares ground origin origin' base id id' refs far near) :
    Alike (client.Shares ground origin origin' base id id' refs) (Vfs.remove (client.file region)) far
      (Vfs.remove (client.file region)) near := by
  cases region with
  | database =>
    have hrun : ∀ vfs : Vfs, (Vfs.remove (client.file .database)).run vfs = .ok () vfs := by
      intro vfs
      simp [Vfs.remove, hproper.split_database]
    exact .ok (hrun far) (hrun near) h
  | journal =>
    have herase : Alike (client.Shares ground origin origin' base id id' refs) (Vfs.eraseJournal id) far
        (Vfs.eraseJournal id') near := by
      refine (alike_onBlob (fun partition _ _ ha => ?_) h).bind fun partition _ _ h =>
        alike_setPartition partition h
      exact Blob.alike_eraseJournal (Attached.matches_twins _ _ _ _ _).writes partition ha
    exact herase.of_run_eq (run_remove h.far_named hproper.split_journal)
      (run_remove h.near_named hproper.split_journal)

/-- There is nothing to remove while the blob is not open. -/
theorem Shut.alike_remove (hproper : client.Proper) (region : Region)
    (h : client.Shut ground origin origin' base far near) :
    Alike (client.Shut ground origin origin' base) (Vfs.remove (client.file region)) far
      (Vfs.remove (client.file region)) near := by
  have hrun : ∀ {vfs : Vfs}, vfs.registry.lookup? client.path = none →
      (Vfs.remove (client.file region)).run vfs = .ok () vfs := by
    intro vfs hnone
    cases region with
    | database => simp [Vfs.remove, hproper.split_database]
    | journal => simp [Vfs.remove, hproper.split_journal, hnone]
  exact .ok (hrun h.far_named) (hrun h.near_named) h

/-! ### Closing -/

/-- Giving back a handle that is not the last one. -/
theorem Shares.alike_close_left (region : Region) (hmore : refs - 1 ≠ 0)
    (h : client.Shares ground origin origin' base id id' refs far near) :
    Alike (client.Shares ground origin origin' base id id' (refs - 1)) (Vfs.close ⟨region, id, 0⟩) far
      (Vfs.close ⟨region, id', 0⟩) near := by
  obtain ⟨record, record', hfar, hnear, hpaired⟩ := h.record
  have hrefs := hpaired.refs_eq
  have hrefs' := hpaired.refs_eq'
  refine .ok (@run_close_left _ _ _ far record ⟨region, id, 0⟩ hfar (hrefs ▸ hmore))
    (@run_close_left _ _ _ near record' ⟨region, id', 0⟩ hnear (hrefs' ▸ hmore))
    (h.modifyRecord hfar hnear ?_ h.world)
  exact { hpaired with
    refs_eq := congrArg (· - 1) hrefs
    refs_eq' := congrArg (· - 1) hrefs' }

/-- A name that is taken off is not open any more. -/
theorem Shares.unname (hproper : client.Proper)
    (h : client.Shares ground origin origin' base id id' refs far near) :
    client.Shut ground origin origin' base ⟨far.registry.unname client.path, far.world⟩
      ⟨near.registry.unname client.path, near.world⟩ := by
  refine ⟨⟨h.world, fun name hname => ?_, h.records, ?_, ?_⟩, ?_, ?_⟩
  · rw [lookup?_unname, if_neg hname.symm]
    exact h.names name hname
  · rw [lookup?_unname, if_neg (hproper.file_journal_ne client).symm]
    exact h.far_journal
  · rw [lookup?_unname, if_neg (hproper.file_journal_ne client).symm]
    exact h.near_journal
  · rw [lookup?_unname, if_pos rfl]
  · rw [lookup?_unname, if_pos rfl]

theorem Beside.of_world (h : client.Beside ground origin origin' base far near)
    {later later' : Option (String ⊕ Nat)} {world world' : World}
    (hworld : World.Twins ground client.medium later later' base.world world world') :
    client.Beside ground later later' base { far with world := world } { near with world := world' } :=
  ⟨hworld, h.names, h.records, h.far_journal, h.near_journal⟩

theorem Shut.of_world (h : client.Shut ground origin origin' base far near)
    {later later' : Option (String ⊕ Nat)} {world world' : World}
    (hworld : World.Twins ground client.medium later later' base.world world world') :
    client.Shut ground later later' base { far with world := world } { near with world := world' } :=
  ⟨h.toBeside.of_world hworld, h.far_named, h.near_named⟩

theorem Shares.of_world (h : client.Shares ground origin origin' base id id' refs far near)
    {world world' : World}
    (hworld : World.Twins ground client.medium origin origin' base.world world world') :
    client.Shares ground origin origin' base id id' refs { far with world := world }
      { near with world := world' } :=
  ⟨h.toBeside.of_world hworld, h.far_named, h.near_named, h.record⟩

/-- Giving back the last one. -/
theorem Shares.alike_close_last (hproper : client.Proper) (region : Region) (hlast : refs - 1 = 0)
    (h : client.Shares ground origin origin' base id id' refs far near) :
    Alike (client.Shut ground origin origin' base) (Vfs.close ⟨region, id, 0⟩) far
      (Vfs.close ⟨region, id', 0⟩) near := by
  obtain ⟨record, record', hfar, hnear, hpaired⟩ := h.record
  have hclosed : client.Paired origin origin' 0 { record with refs := 0, device := none }
      { record' with refs := 0, device := none } :=
    { hpaired with
      refs_eq := rfl
      refs_eq' := rfl
      devices := ⟨rfl, fun _ hnone => (by cases hnone), fun _ hnone => (by cases hnone)⟩ }
  have hshut := (h.modifyRecord (f := fun r => { r with refs := 0, device := none })
    (g := fun r => { r with refs := 0, device := none }) hfar hnear hclosed h.world).unname hproper
  have hfarRun := @run_close_last _ _ _ far record ⟨region, id, 0⟩ hfar (hpaired.refs_eq ▸ hlast)
  have hnearRun := @run_close_last _ _ _ near record' ⟨region, id', 0⟩ hnear (hpaired.refs_eq' ▸ hlast)
  rw [hpaired.name_eq] at hfarRun
  rw [hpaired.name_eq', ← hpaired.devices.isSome_eq] at hnearRun
  refine Alike.of_run_eq ?_ hfarRun hnearRun
  refine .ite (fun _ => ?_) fun _ => .pure hshut
  have hthere : Attached.Twins ground client.medium origin origin' base.world (attached record far)
      (attached record' near) := ⟨hpaired.devices, h.world⟩
  exact Alike.focus (Attached.alike_close_twins hthere) fun a b hafter => hshut.of_world hafter.world

/-! ### Opening -/

/-- A name that is open is shared once more. -/
theorem Shares.run_open (hproper : client.Proper) (region : Region)
    (openDevice : String → StepM World Device)
    (h : client.Shares ground origin origin' base id id' refs far near) :
    ∃ far' near', (openVia (client.file region) region openDevice).run far = .ok ⟨region, id, 0⟩ far' ∧
      (openVia (client.file region) region openDevice).run near = .ok ⟨region, id', 0⟩ near' ∧
      client.Shares ground origin origin' base id id' (refs + 1) far' near' := by
  obtain ⟨record, record', hfar, hnear, hpaired⟩ := h.record
  have hfarNamed := h.far_named
  have hnearNamed := h.near_named
  rw [← hproper.blobName_file region] at hfarNamed hnearNamed
  refine ⟨_, _, openVia_known hfarNamed, openVia_known hnearNamed,
    h.modifyRecord hfar hnear ?_ h.world⟩
  exact { hpaired with
    refs_eq := congrArg (· + 1) hpaired.refs_eq
    refs_eq' := congrArg (· + 1) hpaired.refs_eq' }

/-- A record is entered in both under the client's name. -/
theorem Shut.enter (hproper : client.Proper) {later later' : Option (String ⊕ Nat)}
    (h : client.Shut ground origin origin' base far near) {a b : Attached}
    (hafter : Attached.Twins ground client.medium later later' base.world a b)
    (partition : Partition) :
    client.Shares ground later later' base far.registry.records.size near.registry.records.size 1
      ⟨(far.registry.enter client.path ⟨client.path, a.device, partition, 1⟩).2, a.world⟩
      ⟨(near.registry.enter client.path ⟨client.path, b.device, partition, 1⟩).2, b.world⟩ := by
  refine ⟨⟨hafter.world, fun name hname => ?_, fun id record hrecord hother => ?_, ?_, ?_⟩, ?_, ?_,
    ⟨client.path, a.device, partition, 1⟩, ⟨client.path, b.device, partition, 1⟩, ?_, ?_,
    ⟨rfl, rfl, rfl, rfl, rfl, hafter.devices⟩⟩
  · rw [lookup?_enter, if_neg hname.symm]
    exact h.names name hname
  · have hfar := h.records id record hrecord hother
    have hlt : id ≠ far.registry.records.size := by
      rintro rfl
      simp [Registry.record?] at hfar
    rw [record?_enter, if_neg hlt, hfar]
  · rw [lookup?_enter, if_neg (hproper.file_journal_ne client).symm]
    exact h.far_journal
  · rw [lookup?_enter, if_neg (hproper.file_journal_ne client).symm]
    exact h.near_journal
  · rw [lookup?_enter, if_pos rfl]
  · rw [lookup?_enter, if_pos rfl]
  · rw [record?_enter, if_pos rfl]
  · rw [record?_enter, if_pos rfl]

/-- A name that is not open is opened in both, or fails in both for the same reason. -/
theorem Shut.run_open (hproper : client.Proper) (region : Region)
    {openDevice : String → StepM World Device}
    (hown : (Use.opening region openDevice).Own ground client)
    (h : client.Shut ground origin origin' base far near) :
    (∃ later later' id id' far' near',
      (openVia (client.file region) region openDevice).run far = .ok ⟨region, id, 0⟩ far' ∧
      (openVia (client.file region) region openDevice).run near = .ok ⟨region, id', 0⟩ near' ∧
      client.Shares ground later later' base id id' 1 far' near') ∨
    ∃ later later' e far' near',
      (openVia (client.file region) region openDevice).run far = .error e far' ∧
      (openVia (client.file region) region openDevice).run near = .error e near' ∧
      client.Shut ground later later' base far' near' := by
  cases region with
  | journal =>
    have hfarNamed := h.far_named
    have hnearNamed := h.near_named
    rw [← hproper.blobName_file .journal] at hfarNamed hnearNamed
    exact .inr ⟨_, _, _, _, _, openVia_alone hfarNamed, openVia_alone hnearNamed, h⟩
  | database =>
    have hfarRun := @openVia_new _ _ client.path _ far openDevice h.far_named
    have hnearRun := @openVia_new _ _ client.path _ near openDevice h.near_named
    cases hown h.world with
    | @error e later later' world world' hfar hnear hworld =>
      rw [hfar] at hfarRun
      rw [hnear] at hnearRun
      exact .inr ⟨_, _, _, _, _, hfarRun, hnearRun, h.of_world hworld⟩
    | @ok device device' world world' hfar hnear hdevice hworld =>
      rw [hfar] at hfarRun
      rw [hnear] at hnearRun
      have hthere : Attached.Twins ground client.medium (some device.origin) (some device'.origin)
          base.world ⟨some device, world⟩ ⟨some device', world'⟩ := by
        refine ⟨⟨congrArg some hdevice, ?_, ?_⟩, hworld⟩
        · rintro _ ⟨⟩
          rfl
        · rintro _ ⟨⟩
          rfl
      cases Blob.alike_mount (Attached.matches_twins _ _ _ _ _) Attached.alike_close_twins client.path
          hthere with
      | @error e a b hfarMount hnearMount hafter =>
        simp only [hfarMount] at hfarRun
        simp only [hnearMount] at hnearRun
        exact .inr ⟨_, _, _, _, _, hfarRun, hnearRun, h.of_world hafter.world⟩
      | @ok partition a b hfarMount hnearMount hafter =>
        simp only [hfarMount] at hfarRun
        simp only [hnearMount] at hnearRun
        exact .inl ⟨_, _, _, _, _, _, hfarRun, hnearRun, h.enter hproper hafter partition⟩

/-! ## Two desks -/

/-- Handles on the regions of one record. -/
def handlesOn (id : BlobId) (slots : List (Option Region)) : List (Option Handle) :=
  slots.map (Option.map fun region => ⟨region, id, 0⟩)

theorem handlesOn_append (id : BlobId) (slots : List (Option Region)) (region : Region) :
    handlesOn id slots ++ [some ⟨region, id, 0⟩] = handlesOn id (slots ++ [some region]) := by
  simp [handlesOn]

theorem handlesOn_set (id : BlobId) (slots : List (Option Region)) (number : Nat) :
    (handlesOn id slots).set number none = handlesOn id (slots.set number none) := by
  simp [handlesOn, List.map_set]

/-- Where every handle was given back, it does not matter what they were on. -/
theorem handlesOn_none {slots : List (Option Region)} (h : ∀ slot ∈ slots, slot = none)
    (id : BlobId) : handlesOn id slots = List.replicate slots.length none := by
  rw [List.eq_replicate_iff]
  refine ⟨List.length_map .., fun handle hhandle => ?_⟩
  obtain ⟨slot, hslot, rfl⟩ := List.mem_map.mp hhandle
  rw [h slot hslot, Option.map_none]

theorem handle?_handlesOn (vfs : Vfs) (id : BlobId) (slots : List (Option Region)) (number : Nat) :
    (⟨vfs, handlesOn id slots⟩ : Desk).handle? number =
      slots[number]?.join.map fun region => ⟨region, id, 0⟩ := by
  cases h : slots[number]? with
  | none => simp [Desk.handle?, handlesOn, h]
  | some slot => cases slot <;> simp [Desk.handle?, handlesOn, h]

/-- A client sits before both file systems with the same handles. -/
inductive Alongside (client : Client) (ground : Ground) (base : Vfs) : Desk → Desk → Prop where
  | shut {origin origin' : Option (String ⊕ Nat)} {far near : Vfs} {count : Nat}
      (h : client.Shut ground origin origin' base far near) :
      Alongside client ground base ⟨far, .replicate count none⟩ ⟨near, .replicate count none⟩
  | shared {origin origin' : Option (String ⊕ Nat)} {far near : Vfs} {id id' : BlobId}
      {slots : List (Option Region)}
      (h : client.Shares ground origin origin' base id id' (slots.countP Option.isSome) far near) :
      Alongside client ground base ⟨far, handlesOn id slots⟩ ⟨near, handlesOn id' slots⟩

variable {here there : Desk}

theorem Alongside.beside (h : client.Alongside ground base here there) :
    ∃ origin origin', client.Beside ground origin origin' base here.vfs there.vfs := by
  cases h with
  | shut h => exact ⟨_, _, h.toBeside⟩
  | shared h => exact ⟨_, _, h.toBeside⟩

/-- A blob that is open has the same partition in both. -/
theorem Alongside.partition?_eq (h : client.Alongside ground base here there) :
    here.vfs.registry.partition? client.path = there.vfs.registry.partition? client.path := by
  cases h with
  | shut h => simp [Registry.partition?, h.far_named, h.near_named]
  | shared h =>
    obtain ⟨record, record', hfar, hnear, hpaired⟩ := h.record
    simp [Registry.partition?, h.far_named, h.near_named, hfar, hnear, hpaired.partition_eq]

/-- There is no blob under the name of a journal. -/
theorem Alongside.partition?_file (h : client.Alongside ground base here there) (region : Region) :
    here.vfs.registry.partition? (client.file region) =
      there.vfs.registry.partition? (client.file region) := by
  cases region with
  | database => exact h.partition?_eq
  | journal =>
    obtain ⟨_, _, hbeside⟩ := h.beside
    simp [Registry.partition?, hbeside.far_journal, hbeside.near_journal]

theorem Alongside.present_eq (hproper : client.Proper) (h : client.Alongside ground base here there)
    (region : Region) :
    here.vfs.present (client.file region) = there.vfs.present (client.file region) := by
  cases region with
  | database => simp only [Vfs.present, hproper.split_database, h.partition?_eq]
  | journal => simp only [Vfs.present, hproper.split_journal, h.partition?_eq]

/-! ### Uses -/

theorem run_opening (region : Region) (openDevice : String → StepM World Device) (desk : Desk) :
    ((Use.opening region openDevice).perform client).run desk =
      match (openVia (client.file region) region openDevice).run desk.vfs with
      | .ok handle vfs => .ok .done ⟨vfs, desk.held ++ [some handle]⟩
      | .error e vfs => .error e ⟨vfs, desk.held⟩ := by
  simp only [Use.perform, Desk.onVfs, EStateM.run_bind, run_focus]
  cases (openVia (client.file region) region openDevice).run desk.vfs <;> rfl

theorem Alongside.alike_opening (hproper : client.Proper) {region : Region}
    {openDevice : String → StepM World Device}
    (hown : (Use.opening region openDevice).Own ground client)
    (h : client.Alongside ground base here there) :
    Alike (client.Alongside ground base) ((Use.opening region openDevice).perform client) here
      ((Use.opening region openDevice).perform client) there := by
  have hhere := @run_opening client region openDevice here
  have hthere := @run_opening client region openDevice there
  cases h with
  | @shut origin origin' far near count h =>
    rcases h.run_open hproper region hown with
      ⟨later, later', id, id', far', near', hfar, hnear, hnext⟩ |
      ⟨later, later', e, far', near', hfar, hnear, hnext⟩
    · rw [hfar] at hhere
      rw [hnear] at hthere
      refine .ok hhere hthere ?_
      have hnone : ∀ slot ∈ List.replicate count (none : Option Region), slot = none :=
        fun slot hslot => List.eq_of_mem_replicate hslot
      have hheld : ∀ id : BlobId,
          List.replicate count (none : Option Handle) ++ [some ⟨region, id, 0⟩] =
            handlesOn id (List.replicate count none ++ [some region]) := by
        intro id
        rw [← handlesOn_append, handlesOn_none hnone, List.length_replicate]
      simp only [hheld]
      have hone : (List.replicate count none ++ [some region]).countP Option.isSome = 1 := by
        simp [List.countP_replicate]
      exact .shared (hone.symm ▸ hnext)
    · rw [hfar] at hhere
      rw [hnear] at hthere
      exact .error hhere hthere (.shut hnext)
  | @shared origin origin' far near id id' slots h =>
    obtain ⟨far', near', hfar, hnear, hnext⟩ := h.run_open hproper region openDevice
    rw [hfar] at hhere
    rw [hnear] at hthere
    refine .ok hhere hthere ?_
    simp only [handlesOn_append]
    have hmore : (slots ++ [some region]).countP Option.isSome =
        slots.countP Option.isSome + 1 := by
      simp [List.countP_append]
    exact .shared (hmore.symm ▸ hnext)

theorem handle?_replicate (vfs : Vfs) (count number : Nat) :
    (⟨vfs, .replicate count none⟩ : Desk).handle? number = none := by
  simp only [Desk.handle?, List.getElem?_replicate]
  split <;> rfl

theorem run_of_handle? {use : Handle → StepM Desk Reply} {desk : Desk} {number : Nat}
    {slot : Option Handle} (h : desk.handle? number = slot) :
    (do
      match (← get).handle? number with
      | some handle => use handle
      | none => return .done : StepM Desk Reply).run desk =
      (match slot with
      | some handle => use handle
      | none => pure .done).run desk := by
  simp only [EStateM.run_bind, EStateM.run_get, h]

theorem Alongside.alike_handling (number : Nat) (use : HandleUse)
    (h : client.Alongside ground base here there) :
    Alike (client.Alongside ground base) ((Use.handling number use).perform client) here
      ((Use.handling number use).perform client) there := by
  cases h with
  | @shut origin origin' far near count h =>
    refine Alike.of_run_eq ?_ (run_of_handle? (handle?_replicate far count number))
      (run_of_handle? (handle?_replicate near count number))
    exact .pure (.shut h)
  | @shared origin origin' far near id id' slots h =>
    refine Alike.of_run_eq ?_ (run_of_handle? (handle?_handlesOn far id slots number))
      (run_of_handle? (handle?_handlesOn near id' slots number))
    cases slots[number]?.join with
    | none => exact .pure (.shared h)
    | some region =>
      refine (Client.alike_handling region use h).focus fun far' near' hnext => ?_
      exact .shared hnext

/-- One handle fewer is held when one is given back. -/
theorem countP_set_none {slots : List (Option Region)} {number : Nat} {region : Region}
    (h : slots[number]?.join = some region) :
    (slots.set number none).countP Option.isSome = slots.countP Option.isSome - 1 := by
  obtain ⟨hlt, hget⟩ := List.getElem?_eq_some_iff.mp (Option.join_eq_some_iff.mp h)
  simp [List.countP_set hlt, hget]

theorem Alongside.alike_closing (hproper : client.Proper) (number : Nat)
    (h : client.Alongside ground base here there) :
    Alike (client.Alongside ground base) ((Use.closing number).perform client) here
      ((Use.closing number).perform client) there := by
  cases h with
  | @shut origin origin' far near count h =>
    refine Alike.of_run_eq ?_ (run_of_handle? (handle?_replicate far count number))
      (run_of_handle? (handle?_replicate near count number))
    exact .pure (.shut h)
  | @shared origin origin' far near id id' slots h =>
    refine Alike.of_run_eq ?_ (run_of_handle? (handle?_handlesOn far id slots number))
      (run_of_handle? (handle?_handlesOn near id' slots number))
    cases hslot : slots[number]?.join with
    | none => exact .pure (.shared h)
    | some region =>
      have hcount := countP_set_none hslot
      have hclose : Alike (client.Alongside ground base)
          (Desk.onVfs (Vfs.close ⟨region, id, 0⟩)) ⟨far, handlesOn id (slots.set number none)⟩
          (Desk.onVfs (Vfs.close ⟨region, id', 0⟩)) ⟨near, handlesOn id' (slots.set number none)⟩ := by
        by_cases hlast : slots.countP Option.isSome - 1 = 0
        · refine (h.alike_close_last hproper region hlast).focus fun far' near' hnext => ?_
          have hnone : ∀ slot ∈ slots.set number none, slot = none := by
            rw [hlast, List.countP_eq_zero] at hcount
            simpa using hcount
          simp only [handlesOn_none hnone]
          exact .shut hnext
        · refine (h.alike_close_left region hlast).focus fun far' near' hnext => ?_
          rw [← hcount] at hnext
          exact .shared hnext
      refine Alike.of_run_eq (hclose.bind fun _ _ _ h => .pure (a := Reply.done) h) ?_ ?_ <;>
        simp only [Option.map_some, EStateM.run_bind, EStateM.run_modify, handlesOn_set]

theorem Alongside.alike_meanwhile {change : StepM World Unit}
    (hchange : World.Minds ground client.medium change)
    (h : client.Alongside ground base here there) :
    Alike (client.Alongside ground base) (Desk.onVfs (Vfs.onWorld change)) here
      (Desk.onVfs (Vfs.onWorld change)) there := by
  cases h with
  | @shut origin origin' far near count h =>
    have hstep : Alike (client.Shut ground origin origin' base) (Vfs.onWorld change) far
        (Vfs.onWorld change) near :=
      (hchange h.world).focus fun world world' hworld => h.of_world hworld
    exact hstep.focus fun far' near' hnext => .shut hnext
  | @shared origin origin' far near id id' slots h =>
    have hstep : Alike (client.Shares ground origin origin' base id id' (slots.countP Option.isSome))
        (Vfs.onWorld change) far (Vfs.onWorld change) near :=
      (hchange h.world).focus fun world world' hworld => h.of_world hworld
    exact hstep.focus fun far' near' hnext => .shared hnext

/-- Whatever the client does goes alike in both. -/
theorem alike_perform (hproper : client.Proper) {use : Use} (hown : use.Own ground client)
    (h : client.Alongside ground base here there) :
    Alike (client.Alongside ground base) (use.perform client) here (use.perform client) there := by
  cases use with
  | opening region openDevice => exact h.alike_opening hproper hown
  | handling number use => exact h.alike_handling number use
  | closing number => exact h.alike_closing hproper number
  | removing region =>
    refine Alike.bind ?_ fun _ _ _ h => .pure h
    cases h with
    | shut h => exact (h.alike_remove hproper region).focus fun _ _ hnext => .shut hnext
    | shared h => exact (h.alike_remove hproper region).focus fun _ _ hnext => .shared hnext
  | looking region =>
    refine .get_bind ?_
    rw [h.present_eq hproper region]
    exact .pure h
  | asking region =>
    refine .get_bind ?_
    rw [h.partition?_file region]
    exact .pure h
  | meanwhile change =>
    refine Alike.bind ?_ fun _ _ _ h => .pure h
    exact h.alike_meanwhile hown

/-! ### Others -/

/-- What a client has done changes nothing else, so its file system may be compared with itself. -/
theorem Beside.rebase (h : client.Beside ground origin origin' base far near) :
    client.Beside ground origin origin' far far near where
  world := { h.world with still := fun _ _ _ => ⟨rfl, rfl⟩ }
  names _ _ := rfl
  records _ _ hrecord _ := hrecord
  far_journal := h.far_journal
  near_journal := h.near_journal

theorem Alongside.rebase (h : client.Alongside ground base here there) :
    client.Alongside ground here.vfs here there := by
  cases h with
  | shut h => exact .shut ⟨h.rebase, h.far_named, h.near_named⟩
  | shared h => exact .shared ⟨h.rebase, h.far_named, h.near_named, h.record⟩

/-- What a client does is nothing to another one. -/
theorem Beside.other {other : Client} {mine mine' : Option (String ⊕ Nat)} {alone : Vfs}
    (hproper : client.Proper) (hmedium : other.medium ≠ client.medium)
    (hmoved : client.Beside ground mine mine' base far near)
    (h : other.Beside ground origin origin' base base alone) :
    other.Beside ground origin origin' far far alone where
  world :=
    have hstill := hmoved.world.still other.medium h.world.mem hmedium
    { mem := h.world.mem
      far_grown := hmoved.world.far_grown
      near_grown := h.world.near_grown
      far_apart := hmoved.world.far_apart
      far_origin := hstill.1.trans h.world.far_origin
      near_origin := h.world.near_origin
      kept_eq := hstill.2.trans h.world.kept_eq
      still := fun _ _ _ => ⟨rfl, rfl⟩ }
  names _ _ := rfl
  records _ _ hrecord _ := hrecord
  far_journal := (hmoved.names _ (hproper.file_journal_ne other)).trans h.far_journal
  near_journal := h.near_journal

theorem Alongside.other {other : Client} (hproper : client.Proper)
    (hpath : other.path ≠ client.path) (hmedium : other.medium ≠ client.medium)
    (hmoved : client.Alongside ground base here there)
    {held : List (Option Handle)} {alone : Desk}
    (h : other.Alongside ground base ⟨base, held⟩ alone) :
    other.Alongside ground here.vfs ⟨here.vfs, held⟩ alone := by
  obtain ⟨_, _, hmoved⟩ := hmoved.beside
  cases h with
  | shut h =>
    refine .shut ⟨hmoved.other hproper hmedium h.toBeside, ?_, h.near_named⟩
    rw [hmoved.names _ hpath, h.far_named]
  | shared h =>
    obtain ⟨record, record', hfar, hnear, hpaired⟩ := h.record
    refine .shared ⟨hmoved.other hproper hmedium h.toBeside, ?_, h.near_named, record, record', ?_,
      hnear, hpaired⟩
    · rw [hmoved.names _ hpath, h.far_named]
    · exact hmoved.records _ record hfar (hpaired.name_eq ▸ hpath)

end Client

/-! ## Many clients -/

section clients

variable {ι : Type} [DecidableEq ι]

/-- A file system and its clients, each with the handles that it holds. -/
structure Shared (ι : Type) where
  vfs : Vfs
  held : ι → List (Option Handle)

namespace Shared

/-- What a client does. -/
def perform (client : ι → Client) (step : ι × Use) : StepM (Shared ι) Reply :=
  StepM.focus (fun shared => ⟨shared.vfs, shared.held step.1⟩)
    (fun desk shared => ⟨desk.vfs, Function.update shared.held step.1 desk.held⟩)
    (step.2.perform (client step.1))

/-- The file system after what clients did one after the other. -/
def run (client : ι → Client) (shared : Shared ι) (steps : List (ι × Use)) : Shared ι :=
  steps.foldl (fun shared step => (perform client step).reached shared) shared

/-- What the clients are told. -/
def replies (client : ι → Client) : Shared ι → List (ι × Use) → List (ι × Except Failure Reply)
  | _, [] => []
  | shared, step :: rest =>
    (step.1, (perform client step).answer shared) ::
      replies client ((perform client step).reached shared) rest

/-- A file system in which nothing was opened yet. -/
def start (ι : Type) (world : World) : Shared ι := ⟨⟨.empty, world⟩, fun _ => []⟩

/-- A client's own place at the file system. -/
def desk (shared : Shared ι) (i : ι) : Desk := ⟨shared.vfs, shared.held i⟩

variable {client : ι → Client} {ground : Ground} {shared : Shared ι}
  {alone : ι → Shared ι} {step : ι × Use}

theorem answer_perform (client : ι → Client) (step : ι × Use) (shared : Shared ι) :
    (perform client step).answer shared =
      (step.2.perform (client step.1)).answer (shared.desk step.1) := answer_focus ..

theorem desk_perform_self (client : ι → Client) (step : ι × Use) (shared : Shared ι) :
    ((perform client step).reached shared).desk step.1 =
      (step.2.perform (client step.1)).reached (shared.desk step.1) := by
  simp only [perform, reached_focus, desk, Function.update_self]

theorem desk_perform_other (client : ι → Client) (step : ι × Use) (shared : Shared ι) {i : ι}
    (h : i ≠ step.1) :
    ((perform client step).reached shared).desk i =
      ⟨((perform client step).reached shared).vfs, shared.held i⟩ := by
  simp only [perform, reached_focus, desk, Function.update_of_ne h]

/-- Each client sits before the shared file system as before one that it has for itself. -/
def Together (client : ι → Client) (ground : Ground) (shared : Shared ι)
    (alone : ι → Shared ι) : Prop :=
  ∀ i, (client i).Alongside ground shared.vfs (shared.desk i) ((alone i).desk i)

/-- What one client does keeps all of them together, if it is done there as well where that
client is alone. -/
theorem Together.perform (hproper : ∀ i, (client i).Proper)
    (hpaths : Function.Injective fun i => (client i).path)
    (hmedia : Function.Injective fun i => (client i).medium)
    (hown : step.2.Own ground (client step.1)) (h : Together client ground shared alone) :
    (Shared.perform client step).answer shared =
        (Shared.perform client step).answer (alone step.1) ∧
      Together client ground ((Shared.perform client step).reached shared)
        (Function.update alone step.1 ((Shared.perform client step).reached (alone step.1))) := by
  have halike := Client.alike_perform (hproper step.1) hown (h step.1)
  have hmoved := halike.reached_rel
  rw [← desk_perform_self, ← desk_perform_self] at hmoved
  constructor
  · rw [answer_perform, answer_perform]
    exact halike.answer_eq
  · intro i
    by_cases hi : i = step.1
    · subst hi
      rw [Function.update_self]
      exact hmoved.rebase
    · rw [Function.update_of_ne hi, desk_perform_other client step shared hi]
      exact Client.Alongside.other (hproper step.1) (fun heq => hi (hpaths heq))
        (fun heq => hi (hmedia heq)) hmoved (h i)

/-- In any row of steps a client is told what it is told alone. -/
theorem Together.run (hproper : ∀ i, (client i).Proper)
    (hpaths : Function.Injective fun i => (client i).path)
    (hmedia : Function.Injective fun i => (client i).medium) {steps : List (ι × Use)}
    (hown : ∀ step ∈ steps, step.2.Own ground (client step.1))
    (h : Together client ground shared alone) (i : ι) :
    (shared.replies client steps).filter (fun reply => reply.1 = i) =
        (alone i).replies client (steps.filter fun step => step.1 = i) ∧
      (client i).Alongside ground (shared.run client steps).vfs ((shared.run client steps).desk i)
        (((alone i).run client (steps.filter fun step => step.1 = i)).desk i) := by
  induction steps generalizing shared alone with
  | nil => exact ⟨rfl, h i⟩
  | cons step rest ih =>
    obtain ⟨hanswer, hnext⟩ :=
      h.perform hproper hpaths hmedia (hown step List.mem_cons_self)
    obtain ⟨hreplies, hend⟩ :=
      ih (fun later hlater => hown later (List.mem_cons_of_mem _ hlater)) hnext
    by_cases hi : step.1 = i
    · subst hi
      rw [Function.update_self] at hreplies hend
      rw [List.filter_cons_of_pos (by simp)]
      refine ⟨?_, hend⟩
      rw [replies, replies, List.filter_cons_of_pos (by simp), hanswer, hreplies]
    · rw [Function.update_of_ne (Ne.symm hi)] at hreplies hend
      rw [List.filter_cons_of_neg (by simpa using hi)]
      refine ⟨?_, hend⟩
      rw [replies, List.filter_cons_of_neg (by simpa using hi), hreplies]

/-- The clients start from a world, each with its medium. -/
def groundOf (client : ι → Client) (world : World) : Ground :=
  ⟨world.tree, Set.range fun i => (client i).medium⟩

omit [DecidableEq ι] in
theorem together_start {world : World}
    (hapart : world.Apart (Set.range fun i => (client i).medium)) :
    Together client (groundOf client world) (start ι world) fun _ => start ι world := by
  intro i
  have hgrown : world.Grown (groundOf client world) := ⟨fun _ => .inl rfl⟩
  have htwins : World.Twins (groundOf client world) (client i).medium
      (world.origin? (client i).medium) (world.origin? (client i).medium) world world world :=
    ⟨⟨i, rfl⟩, hgrown, hgrown, hapart, rfl, rfl, rfl, fun _ _ _ => ⟨rfl, rfl⟩⟩
  have hnone : ∀ name, (Registry.empty : Registry).lookup? name = none := by
    simp [Registry.empty, Registry.lookup?]
  have hbeside : (client i).Beside (groundOf client world) _ _ ⟨.empty, world⟩ ⟨.empty, world⟩
      ⟨.empty, world⟩ :=
    ⟨htwins, fun _ _ => rfl, fun _ _ h _ => h, hnone _, hnone _⟩
  exact @Client.Alongside.shut (client i) _ _ _ _ _ _ 0 ⟨hbeside, hnone _, hnone _⟩

/-- Clients with paths of their own for databases and media of their own do not notice each other.
In any interleaving of what they do, successfully or not, each of them is told what it is told
when it is alone at a file system with nothing open, and its partition and its medium end the
same. The media may be in memory, files that are there, or files that are made when they are
opened; only of the last has anything to be known, that none of them is another's
(`World.apart_of_no_place`). -/
theorem clients_alone (client : ι → Client) (world : World) (steps : List (ι × Use))
    (hproper : ∀ i, (client i).Proper)
    (hpaths : Function.Injective fun i => (client i).path)
    (hmedia : Function.Injective fun i => (client i).medium)
    (hapart : world.Apart (Set.range fun i => (client i).medium))
    (hown : ∀ step ∈ steps, step.2.Own (groundOf client world) (client step.1)) (i : ι) :
    let mine := steps.filter fun step => step.1 = i
    let together := (start ι world).run client steps
    let alone := (start ι world).run client mine
    ((start ι world).replies client steps).filter (fun reply => reply.1 = i) =
        (start ι world).replies client mine ∧
      together.vfs.registry.partition? (client i).path =
        alone.vfs.registry.partition? (client i).path ∧
      together.vfs.world.kept (client i).medium = alone.vfs.world.kept (client i).medium := by
  obtain ⟨hreplies, hend⟩ := (together_start hapart).run hproper hpaths hmedia hown i
  obtain ⟨_, _, hbeside⟩ := hend.beside
  exact ⟨hreplies, hend.partition?_eq, hbeside.world.kept_eq⟩

/-- The place of a name in the working directory. -/
def placeOf (name : String) : Place := FileStore.workingDirectory ++ [FileName.ofText name]

/-- Three clients: two with files of their own, which nobody has made as yet, and one with a medium
in memory. -/
def threeClients : Fin 3 → Client
  | 0 => ⟨"a", .place (placeOf "a")⟩
  | 1 => ⟨"b", .place (placeOf "b")⟩
  | 2 => ⟨"c", .ram "m"⟩

/-- Each opens its database, which makes the two files, and works on it while others do. -/
theorem clients_alone_files :
    let own : List (Fin 3 × Use) :=
      [(1, .opening .database World.openFile), (1, .handling 0 (.write 0 #[2])),
        (1, .handling 0 (.read 0 1)), (1, .closing 0), (1, .opening .database World.openFile)]
    let steps : List (Fin 3 × Use) :=
      [(2, .opening .database fun _ => liftM (refuse .detached : Except Failure Device)),
        (0, .opening .database World.openFile), (1, .opening .database World.openFile),
        (2, .opening .database fun _ => pure (.ram "m")), (0, .handling 0 (.write 0 #[1])),
        (1, .handling 0 (.write 0 #[2])), (1, .handling 0 (.read 0 1)), (1, .closing 0),
        (2, .meanwhile (modify fun world => world.setMedium "m" .growable)), (0, .closing 0),
        (1, .opening .database World.openFile)]
    (∀ name ∈ ["a", "b"], World.initial.origin? (.place (placeOf name)) = none) ∧
      ((start (Fin 3) .initial).replies threeClients steps).filter (fun reply => reply.1 = 1) =
        (start (Fin 3) .initial).replies threeClients own := by
  intro own steps
  have hmissing : ∀ name ∈ ["a", "b"], World.initial.origin? (.place (placeOf name)) = none := by
    decide +kernel
  have hproper : ∀ i, (threeClients i).Proper
    | 0 => ⟨by decide, by decide⟩
    | 1 => ⟨by decide, by decide⟩
    | 2 => ⟨by decide, by decide⟩
  have hpaths : Function.Injective fun i => (threeClients i).path := by
    intro i j
    revert i j
    decide
  have hmedia : Function.Injective fun i => (threeClients i).medium := by
    intro i j
    revert i j
    decide +kernel
  have hapart : World.initial.Apart (Set.range fun i => (threeClients i).medium) := by
    refine World.apart_of_no_file ?_
    rintro _ ⟨i, rfl⟩ number
    match i with
    | 0 => simp [threeClients, hmissing]
    | 1 => simp [threeClients, hmissing]
    | 2 => simp [threeClients, World.origin?]
  have hleads : ∀ name ∈ ["a", "b"], World.initial.files.Leads name (placeOf name) := by
    have hcheck : ∀ name ∈ ["a", "b"], FileStore.checkPath (Path.ofText name) = .ok () ∧
        (Path.ofText name).endsInSlash = false ∧
        World.initial.files.follow (FileStore.startOf (Path.ofText name)) (Path.ofText name).names =
          .ok (placeOf name) := by
      decide +kernel
    exact fun name hname => ⟨(hcheck name hname).1, (hcheck name hname).2.1, (hcheck name hname).2.2⟩
  have hown : ∀ step ∈ steps, step.2.Own (groundOf threeClients .initial) (threeClients step.1) := by
    simp only [steps, List.forall_mem_cons, List.not_mem_nil, false_imp_iff, implies_true, and_true]
    exact ⟨World.opens_refuse .detached, World.opens_place rfl (hleads "a" (by simp)),
      World.opens_place rfl (hleads "b" (by simp)), World.opens_ram "m", trivial, trivial, trivial,
      trivial, World.minds_setMedium "m" fun _ => .growable, trivial,
      World.opens_place rfl (hleads "b" (by simp))⟩
  exact ⟨hmissing,
    (clients_alone threeClients .initial steps hproper hpaths hmedia hapart hown 1).1⟩

end Shared

end clients

end TwinRegion
