/-
TwinRegion.Proofs.Isolation — the regions as their users see them.

`ReadsAs` says of a file system that a region reads like a byte array of
some length in which certain bytes are known. Through any row of requests
both regions of an open blob do (`regions_read_as`): a read inside the
length succeeds and gives the known bytes, any other is refused with the
length, and a request about one region changes neither the length nor any
known byte of the other.
-/
import TwinRegion.Proofs.Contents
import TwinRegion.Proofs.Accepting

namespace TwinRegion

open TwinRegion.Partition RamDisk StepM

/-- The region that an action is about. -/
def Action.region? : Action → Option Region
  | .read region _ _ => some region
  | .write region _ _ => some region
  | .truncate region _ => some region
  | .sync region _ => some region
  | .eraseJournal => some .journal
  | .setFaults _ => none

namespace Live

/-! ## Runs -/

/-- Through a tame run the blob stays settled and stores what is known. -/
theorem stores_run {start : Live} (hsound : start.Sound) (hsettled : start.Settled)
    {actions : List Action} (htame : ∀ action ∈ actions, Tame action) :
    (start.run actions).Settled ∧ (start.run actions).Stores (start.known actions) := by
  refine track_invariant (fun live known => live.Settled ∧ live.Stores known) Tame ?_ hsound
    ⟨hsettled, ?_⟩ htame
  · rintro live action known hsound htame ⟨hsettled, hstores⟩
    have hchange := change_after hsound.block_le action
    exact ⟨hchange.settled hsettled htame, hchange.stores hsound hsettled hstores⟩
  · constructor <;> simp [Contents.unknown]

theorem Change.regionSize_eq {live next : Live} {action : Action} {ok : Bool}
    (hchange : Change live action ok next) {region : Region} (h : action.region? ≠ some region) :
    next.partition.regionSize region = live.partition.regionSize region := by
  cases hchange with
  | @truncated other size =>
    cases other <;> cases region <;> simp_all [Action.region?, Blob.truncate, regionSize]
  | _ => cases region <;> simp_all [Action.region?, regionSize]

theorem stored_other {live : Live} {action : Action} {region : Region}
    (h : action.region? ≠ some region) (ok : Bool) (known : Contents) (p : Nat) :
    live.stored action ok known region p = known region p := by
  cases action with
  | write other offset data =>
    have hne : region ≠ other := fun heq => h (by rw [heq]; rfl)
    cases other with
    | database =>
      simp only [stored]
      split
      · exact Contents.put_of_ne hne ..
      · rfl
    | journal => exact Contents.put_of_ne hne ..
  | eraseJournal =>
    have hne : region ≠ .journal := fun heq => h (by rw [heq]; rfl)
    simp only [stored]
    split
    · exact Contents.put_of_ne hne ..
    · rfl
  | _ => rfl

/-- An action on one region takes nothing away from what is known of the other. -/
theorem keepKnown_other {live : Live} (hsound : live.Sound) {known : Contents}
    (hstores : live.Stores known) {action : Action} {region : Region}
    (h : action.region? ≠ some region) : keepKnown live action known region = known region := by
  funext p
  have hsize := (change_after hsound.block_le action).regionSize_eq h
  rw [keepKnown, Contents.cut, hsize, stored_other h]
  cases hknown : known region p with
  | none => simp
  | some b => rw [if_pos (hstores.inside region p b hknown)]

end Live

namespace Vfs

/-- Through this handle, its region reads like an array of `size` bytes with the known ones
in it. A request that ends past the array, at a 64-bit number, is answered with its size. -/
structure ReadsAs (vfs : Vfs) (handle : Handle) (size : Nat) (known : Nat → Option UInt8) : Prop where
  length : (regionSize handle).answer vfs = .ok size
  inside : ∀ offset len, offset + len ≤ size → ∃ bytes,
    (read handle offset len).answer vfs = .ok bytes ∧ bytes.size = len ∧
      ∀ i b, i < len → known (offset + i) = some b → bytes[i]? = some b
  past : ∀ offset len, size < offset + len → offset + len < Word.limit →
    (read handle offset len).answer vfs =
      .error (.refused (.pastEnd handle.region offset len size))

variable {path medium : String} {vfs : Vfs} {live : Live}

/-- A read inside its region gives the bytes at the addresses of the request. -/
theorem Serves.answer_read {handle : Handle} (hserves : Serves path handle.blob medium vfs live)
    (hsound : live.Sound) (hreads : live.disk.faults.reads = false)
    (hjournal : live.partition.journalSize < 1 <<< 63) {offset len : Nat}
    (hin : offset + len ≤ live.partition.regionSize handle.region) :
    (read handle offset len).answer vfs =
      .ok (live.disk.image.gather (address live.partition.capacity handle.region) offset len) := by
  have hlim := hsound.capacity_lt
  have hfits := hsound.fits
  have hread := Blob.ends_read_within hreads hsound.block_le hsound.capacity_le
    (by omega) (by omega) hjournal hin
  obtain ⟨bytes, hrun, rfl, -⟩ := hread.exists_value
  have hanswer := Live.run_onDisk
    (fun partition => Blob.read partition handle.region offset len) hrun
  exact (alike_perform hserves (.read handle offset len) rfl).answer_eq.trans
    (run_eq_ok_iff.mp hanswer).1

/-- A read that its guard stops fails as the guard does. -/
theorem Serves.answer_read_stopped {handle : Handle}
    (hserves : Serves path handle.blob medium vfs live) {offset len : Nat} {e : Failure}
    (hguard : live.partition.guardRead handle.region offset len = .error e) :
    (read handle offset len).answer vfs = .error e := by
  have hread := @Blob.run_read_stopped live.partition live.disk handle.region offset len e hguard
  have hrun : (Live.perform (.read handle.region offset len)).run live = .error e live := by
    simp only [Live.perform, Live.onDisk, EStateM.run_bind, EStateM.run_get, run_focus, hread]
  exact (alike_perform hserves (.read handle offset len) rfl).answer_eq.trans
    (run_eq_error_iff.mp hrun).1

theorem Serves.readsAs {handle : Handle} (hserves : Serves path handle.blob medium vfs live)
    (hsound : live.Sound) (hsettled : live.Settled) {known : Contents} (hstores : live.Stores known) :
    vfs.ReadsAs handle (live.partition.regionSize handle.region) (known handle.region) := by
  refine ⟨hserves.answer_regionSize, ?_, ?_⟩
  · intro offset len hin
    refine ⟨_, hserves.answer_read hsound hsettled.reads hsettled.journal_lt hin,
      Image.size_gather .., ?_⟩
    intro i b hi hb
    rw [Array.getElem?_eq_getElem (by rwa [Image.size_gather]), Image.getElem_gather,
      hstores.held _ _ _ hb]
  · intro offset len hpast hlim
    exact hserves.answer_read_stopped (guardRead_of_lt hlim hpast)

/-- A blob is opened on a medium whose reads work: on an empty one, or else with at least
10240 bytes and a database no longer than it may grow. Through any tame requests, each region
reads like a byte array of its length with the bytes that are known, through every handle;
and one more request leaves length and known bytes of a region that it is not about alone. -/
theorem regions_read_as {opened : Vfs} {handle : Handle} {partition : Partition}
    {requests : List Request} (hnew : vfs.registry.lookup? path = none)
    (hopen : (openVia path .database fun _ => pure (.ram medium)).run vfs = .ok handle opened)
    (hpartition : opened.registry.partition? path = some partition)
    (hreads : (opened.world.medium medium).faults.reads = false)
    (hkind : (vfs.world.medium medium).image.size = 0 ∨
      10240 ≤ partition.capacity ∧ partition.databaseSize ≤ databaseCeiling partition.capacity)
    (habout : ∀ request ∈ requests, request.About path handle.blob medium)
    (htame : ∀ request ∈ requests, Live.Tame request.action) :
    ∀ user : Handle, user.blob = handle.blob → ∃ size,
      ReadsAs (opened.run requests) user size
        (Live.known ⟨partition, opened.world.medium medium⟩ (requests.map Request.action)
          user.region) ∧
      ∀ request : Request, request.About path handle.blob medium → Live.Tame request.action →
        request.action.region? ≠ some user.region →
        ReadsAs ((opened.run requests).run [request]) user size
          (Live.known ⟨partition, opened.world.medium medium⟩ (requests.map Request.action)
            user.region) := by
  obtain ⟨start, hmount, hserves⟩ := serves_of_openVia hnew hopen
  obtain rfl := Option.some.inj (hpartition.symm.trans hserves.partition?_eq)
  have hstart : (⟨start.partition, opened.world.medium medium⟩ : Live) = start := by
    rw [hserves.medium_eq]
  rw [hserves.medium_eq] at hreads
  rw [hstart]
  have hsound := Live.sound_of_mount hmount
  obtain ⟨hlong, hmodest⟩ : 10240 ≤ start.partition.capacity ∧
      start.partition.databaseSize ≤ databaseCeiling start.partition.capacity := by
    rcases hkind with hempty | hlarge
    · rw [Live.partition_of_mount hmount hempty]
      decide
    · exact hlarge
  have hjournal : start.partition.journalSize < 1 <<< 63 := by
    have := Live.journalSize_le_of_mount hmount
    have := hsound.capacity_lt
    omega
  have hlast := Live.sound_run hsound (requests.map Request.action)
  obtain ⟨hsettled, hstores⟩ := Live.stores_run hsound ⟨hreads, hlong, hmodest, hjournal⟩
    (List.forall_mem_map.mpr htame)
  have hserves := serves_run hserves habout
  intro user huser
  rw [← huser] at hserves
  refine ⟨_, hserves.readsAs hlast hsettled hstores, fun request hrequest htame hother => ?_⟩
  rw [← huser] at hrequest
  have hchange := Live.change_after hlast.block_le request.action
  have hnext := (serves_run hserves (List.forall_mem_singleton.mpr hrequest)).readsAs
    (Live.sound_after hlast request.action) (hchange.settled hsettled htame)
    (hchange.stores hlast hsettled hstores)
  rw [← hchange.regionSize_eq hother, ← Live.keepKnown_other hlast hstores hother]
  exact hnext

theorem regions_read_as_first_write :
    ∃ (handle : Handle) (opened : Vfs),
      (openVia "a" .database fun _ => pure (.ram "m")).run .initial = .ok handle opened ∧
      ∃ size,
        ReadsAs (opened.run [.write ⟨.journal, handle.blob, 0⟩ 0 #[1, 2, 3, 4]])
          ⟨.journal, handle.blob, 0⟩ size
          (Live.known ⟨.blank standardCapacity, opened.world.medium "m"⟩
            [.write .journal 0 #[1, 2, 3, 4]] .journal) := by
  obtain ⟨handle, opened, hopen, hserves⟩ := openVia_initial "a" "m"
  have hreads : (opened.world.medium "m").faults.reads = false := by
    rw [hserves.medium_eq]
    rfl
  have htame : (0 + 4 : Nat) < 1 <<< 63 := by decide
  obtain ⟨size, hsize, -⟩ := @regions_read_as "a" "m" .initial opened handle
    (.blank standardCapacity) [.write ⟨.journal, handle.blob, 0⟩ 0 #[1, 2, 3, 4]]
    (lookup?_initial "a") hopen hserves.partition?_eq hreads (.inl rfl)
    (List.forall_mem_singleton.mpr rfl) (List.forall_mem_singleton.mpr htame)
    ⟨.journal, handle.blob, 0⟩ rfl
  exact ⟨handle, opened, hopen, size, hsize⟩

/-- An erasure that breaks off counts as a write: it fails and leaves the journal its length,
and yet the bytes that were written last are gone from its start. -/
theorem journal_zeroed_by_failed_removal :
    ∃ (handle : Handle) (opened : Vfs),
      (openVia "a" .database fun _ => pure (.ram "m")).run .initial = .ok handle opened ∧
      let journal : Handle := ⟨.journal, handle.blob, 0⟩
      let before := opened.run [.write journal 0 #[1, 2, 3, 4], .setFaults "m" (writesLeft 1)]
      let after := before.run [.remove "a-journal"]
      (read journal 0 4).answer before = .ok #[1, 2, 3, 4] ∧
        (Request.perform (.remove "a-journal")).answer before =
          .error (.refused (injected "nth write failure")) ∧
        (regionSize journal).answer after = .ok 4 ∧
        (read journal 0 4).answer after = .ok #[0, 0, 0, 0] := by
  obtain ⟨handle, opened, hopen, hserves⟩ := openVia_initial "a" "m"
  refine ⟨handle, opened, hopen, ?_⟩
  intro journal before after
  have hsplit : splitJournalName "a-journal" = ("a", true) := by decide
  let data : Bytes := #[1, 2, 3, 4]
  let failing : Live :=
    { Live.withJournal data with
      disk := { (Live.withJournal data).disk with faults := writesLeft 1 } }
  have hfailing : Live.fresh.run [.write .journal 0 data, .setFaults (writesLeft 1)] = failing := by
    rw [Live.run_cons, Live.after_of_run_ok (Live.run_write_fresh (by decide) (by decide)),
      Live.run_cons, Live.after_of_run_ok (Live.run_setFaults _ _), Live.run_nil]
  have hsound : failing.Sound := hfailing ▸ Live.sound_run Live.sound_fresh _
  have hbefore : Serves "a" handle.blob "m" before failing :=
    hfailing ▸ serves_run hserves (List.forall_mem_cons.mpr ⟨rfl, List.forall_mem_singleton.mpr rfl⟩)
  obtain ⟨disk, hrun, himage, hfaults⟩ := @Live.run_eraseJournal_cut failing rfl rfl (by decide)
    (by decide)
  have herased := run_eq_error_iff.mp hrun
  have hremove : (Request.remove "a-journal").About "a" handle.blob "m" := hsplit
  have hafter : Serves "a" handle.blob "m" after ⟨failing.partition, disk⟩ := by
    rw [← herased.2]
    exact serves_run hbefore (List.forall_mem_singleton.mpr hremove)
  have hsound' : Live.Sound ⟨failing.partition, disk⟩ := by
    rw [← herased.2]
    exact Live.sound_after hsound .eraseJournal
  have hjournal : (4 : Nat) < 1 <<< 63 := by decide
  have hblock : 4 ≤ blockSize - 0 % blockSize := by decide
  have hhead : standardCapacity - blockSize = place standardCapacity 0 := by decide
  have hread := @Serves.answer_read "a" "m" before failing journal hbefore hsound rfl hjournal 0 4
    (Nat.le_refl 4)
  have hread' := @Serves.answer_read "a" "m" after ⟨failing.partition, disk⟩ journal hafter hsound'
    (by simp only [hfaults]; rfl) hjournal 0 4 (Nat.le_refl 4)
  refine ⟨hread.trans ?_, (alike_perform hbefore _ hremove).answer_eq.trans herased.1,
    @Serves.answer_regionSize "a" "m" after _ journal hafter, hread'.trans ?_⟩
  · exact congrArg Except.ok (@Image.gather_write RamDisk.materialised.image standardCapacity 0 data
      hblock)
  · have hzeros := @Image.gather_write failing.disk.image standardCapacity 0 (Bytes.zeros wordSize)
      hblock
    rw [← hhead] at hzeros
    simp only [himage]
    exact congrArg Except.ok hzeros

end Vfs

end TwinRegion
