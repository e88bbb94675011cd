/-
TwinRegion.Proofs.SizeWord — the size word never cuts a length off.

The size word keeps the low 32 bits of a length and says nothing about the
others, so it holds a length exactly if that is at most `sizeWordMax`
(`sizeOfWord_sizeWord_iff`). On the blobs that are ever opened the capacity
sees to that; here it is shown of blobs of any capacity, where only the
guard of a database write does. The bound is one that `Request.Turns`
preserves, so it holds after every row of requests
(`size_word_keeps_length`).
-/
import TwinRegion.Proofs.Accepting
import TwinRegion.Proofs.Records

namespace TwinRegion

open TwinRegion.Partition Vfs

namespace Partition

theorem sizeOfWord_sizeWord_iff {databaseSize : Nat} :
    sizeOfWord (sizeWord databaseSize) = databaseSize ↔ databaseSize ≤ sizeWordMax := by
  rw [sizeOfWord, sizeWord, Bytes.toNat_ofWord32]
  simp [sizeWordMax]
  omega

theorem sizeWord_sizeOfWord {word : Bytes} (h : word.size = wordSize) :
    sizeWord (sizeOfWord word) = word :=
  Bytes.ofWord32_toNat h

end Partition

/-- A length that the size word can hold is followed by no other. -/
theorem Request.Turns.worded {request : Request} {partition next : Partition}
    (h : request.Turns partition next) (hword : partition.databaseSize ≤ sizeWordMax) :
    next.databaseSize ≤ sizeWordMax :=
  h.databaseSize_le hword fun _ _ hwrite => (guardDatabaseWrite_eq_ok_iff.mp hwrite).2.2.2.2

/-- Whatever the capacity of a blob: through any requests, refused or not, a length of its database
that the size word can hold stays one, and the size word then stands for that very length. Every
word is the size word of the length that it stands for. -/
theorem size_word_keeps_length :
    (∀ {vfs : Vfs} {id : BlobId} {record : BlobRecord} (requests : List Request),
      vfs.registry.record? id = some record → record.partition.databaseSize ≤ sizeWordMax →
      ∃ last, (vfs.run requests).registry.record? id = some last ∧
        last.partition.capacity = record.partition.capacity ∧
        last.partition.databaseSize ≤ sizeWordMax ∧
        sizeOfWord (sizeWord last.partition.databaseSize) = last.partition.databaseSize) ∧
    ∀ word : Bytes, word.size = wordSize → sizeWord (sizeOfWord word) = word := by
  constructor
  · intro vfs id record requests hrecord hword
    let Kept (partition : Partition) : Prop :=
      partition.capacity = record.partition.capacity ∧ partition.databaseSize ≤ sizeWordMax
    have hstep : ∀ request ∈ requests, request.target vfs.registry = some id →
        ∀ partition next, request.Turns partition next → Kept partition → Kept next := by
      intro request _ _ partition next hturns hkept
      exact ⟨hturns.capacity_eq.trans hkept.1, hturns.worded hkept.2⟩
    obtain ⟨last, hlast, hcapacity, hsize⟩ := @record_run vfs id record Kept requests hrecord
      ⟨rfl, hword⟩ hstep
    exact ⟨last, hlast, hcapacity, hsize, sizeOfWord_sizeWord_iff.mpr hsize⟩
  · intro word hsize
    exact sizeWord_sizeOfWord hsize

/-- An empty blob of the largest capacity that is a 64-bit number. -/
def vast : Live := ⟨.blank (Word.limit - 1), .growable⟩

/-- A database write to it can end where the size word ends. -/
theorem size_word_keeps_length_vast :
    let handle : Handle := ⟨.database, 0, 0⟩
    let vfs : Vfs :=
      ⟨(Registry.empty.enter "a" ⟨"a", some (.ram "m"), vast.partition, 1⟩).2, .initial⟩
    let requests : List Request :=
      [.write handle (sizeWordMax - 1) #[7], .truncate handle sizeWordMax]
    ∃ last, (vfs.run requests).registry.record? 0 = some last ∧
      last.partition = ⟨Word.limit - 1, sizeWordMax, 0⟩ ∧
      sizeOfWord (sizeWord sizeWordMax) = sizeWordMax ∧
      sizeWord (sizeOfWord #[255, 255, 255, 255]) = #[255, 255, 255, 255] := by
  intro handle vfs requests
  have hguard : vast.partition.guardDatabaseWrite (sizeWordMax - 1) 1 = .ok () :=
    guardDatabaseWrite_eq_ok_iff.mpr (by decide)
  have hwrite := Live.after_of_run_ok (@Live.run_write vast .database (sizeWordMax - 1) #[7] _ _
    (Blob.run_write_database ⟨rfl, rfl⟩ hguard (by decide)))
  have hserves : Serves "a" 0 "m" vfs vast :=
    @serves_enter "a" "m" .empty .initial ⟨"a", some (.ram "m"), vast.partition, 1⟩ rfl
  have habout : ∀ request ∈ requests, request.About "a" 0 "m" := by
    simp [requests, Request.About, handle]
  have hrun : (vast.run (requests.map Request.action)).partition =
      ⟨Word.limit - 1, sizeWordMax, 0⟩ := by
    simp only [requests, handle, List.map_cons, List.map_nil, Request.action, Live.run_cons,
      Live.run_nil, hwrite, Live.after_of_run_ok (Live.run_truncate ..)]
    decide
  obtain ⟨-, ⟨found, hfound, -, hserved⟩, -⟩ := serves_run hserves habout
  obtain ⟨-, ⟨record, hrecord, -, hpartition⟩, -⟩ := hserves
  have hnone : record.partition.databaseSize ≤ sizeWordMax := by
    rw [hpartition]
    decide
  obtain ⟨last, hlast, -, -, hsize⟩ := size_word_keeps_length.1 requests hrecord hnone
  obtain rfl := Option.some.inj (hlast.symm.trans hfound)
  rw [hserved, hrun] at hsize
  exact ⟨last, hlast, hserved.trans hrun, hsize, size_word_keeps_length.2 _ rfl⟩

end TwinRegion
