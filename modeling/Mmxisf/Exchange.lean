/-
# Exchange -- what calls of a writer publish, readers read

The writer and the reader meet in the bytes of a file.  Whatever calls write at the
same time, and whatever of what they ask of the disk fails, the file of a call that
has succeeded opens to its listing, and every image and every block Property that was
given to the call is read back from it (`publishedReads`).  Nothing but a limit can
stop a read, and where no chunk is too large for zlib a reader's limits with room
enough do not.
-/
import Mmxisf.ReferenceLibraries
import Mmxisf.RestoredUnits

namespace Mmxisf

set_option autoImplicit false

open Library (Disk)
open Writer (MetadataWriteEntry WriteCall WriteSummary Codecs SettledUnit IsUnitOf TypedCall Path
  WriterPool startPool PoolRun onePixel reliable reliable_answers)
open Reader (ReaderOptions ImageReadOptions ByteOrderOutput)

/-! ## A unit and its reads -/

/-- What a reader gets of a unit. -/
structure Readable (unit : WrittenUnit) : Prop where
  opens : ReadsBack unit.platform unit.bytes True (fun options : ReaderOptions => options)
    (fun options => openAnd (L := Unit) unit.platform options fun reader => pure reader.document)
    (· = listedDocument unit.call.options unit.settled.plan unit.settled.header.length)
  images : ∀ (index : Fin unit.call.images.length) (readOptions : ImageReadOptions),
    ReadsBack unit.platform unit.bytes unit.Decodes (@WrittenUnit.Admitted.options unit)
      (fun admitted => openAnd (L := Unit) unit.platform admitted.options fun reader =>
        Reader.readImage unit.platform reader index readOptions)
      (RestoredImage unit.platform (unit.call.images.get index) readOptions)
  blocks : ∀ (block : unit.GivenBlock) (byteOrder : ByteOrderOutput),
    ∃ index, unit.ListedAt index block.entry ∧
      ReadsBack unit.platform unit.bytes unit.Decodes (@WrittenUnit.Admitted.options unit)
        (fun admitted => openAnd (L := Unit) unit.platform admitted.options fun reader =>
          Reader.readPropertyBlock unit.platform reader index byteOrder)
        (· = WrittenUnit.restoredBlock unit.platform block.entry byteOrder)

theorem WrittenUnit.readable (unit : WrittenUnit) : Readable unit :=
  ⟨WrittenUnit.opens, WrittenUnit.image_readsBack, WrittenUnit.block_readsBack⟩

/-! ## Published files -/

section

variable {ι : Type} (platform : Platform) (codecs : Codecs) (calls : ι → TypedCall)

/-- The file of every call that has succeeded is a unit that is read back. -/
def PublishedReads (pool : WriterPool ι) : Prop :=
  ∀ i summary, (calls i).call.writesFile = true → pool.Returned i (.ok summary) →
    (∀ entry ∈ (calls i).call.metadata, ExtentsFit entry) →
    ∃ file, ∃ unit : WrittenUnit,
      pool.state.names (calls i).call.destinationOrScratch = some file ∧
      pool.state.contents file = some unit.bytes ∧
      unit.platform = platform ∧ unit.codecs = codecs ∧ unit.call = (calls i).call ∧ Readable unit

end

/-- In every order of steps what has been published is read back. -/
theorem publishedReads {ι : Type} [DecidableEq ι] (platform : Platform) (codecs : Codecs)
    (calls : ι → TypedCall) (lawful : LawfulLibraries platform codecs fun i => (calls i).call)
    (before : Disk Path Byte)
    (run : PoolRun codecs (startPool platform calls before)) :
    PublishedReads platform codecs calls run.pool := by
  intro i summary writes returned extents
  obtain ⟨now, safe, -⟩ := (Writer.owns _ before).reaches Writer.start_safe run.reaches
  obtain ⟨file, bytes, succeeded, -⟩ := Writer.SafePool.succeeded safe writes returned
  obtain ⟨settled, contents, whole⟩ := succeeded.whole
  let unit : WrittenUnit := lawful.unit whole.isUnit extents
  refine ⟨file, unit, succeeded.named, ?_, rfl, rfl, rfl, unit.readable⟩
  rw [succeeded.holds, whole.whole]
  rfl

/-- One pixel is published, and read back. -/
theorem onePixel_readsBack : ∃ run : PoolRun storingCodecs
      (startPool referencePlatform (fun _ : Unit => onePixel) .empty),
    (∃ summary, run.pool.Returned () (.ok summary)) ∧
      PublishedReads referencePlatform storingCodecs (fun _ : Unit => onePixel) run.pool := by
  have run := Library.Program.run_answered (@reliable_answers storingCodecs Writer.Ordinary)
    (Writer.write referencePlatform onePixel.call) .empty
  have succeeds := onePixel_succeeds
  generalize (Writer.write referencePlatform onePixel.call).answered reliable .empty = ended
    at run succeeds
  obtain ⟨_ | summary, after⟩ := ended
  · cases succeeds
  · obtain ⟨pool, reaches, returned, -⟩ := Library.Pool.Reaches.of_run run (i := ())
      (startPool referencePlatform (fun _ : Unit => onePixel) .empty) rfl rfl
    exact ⟨⟨pool, reaches⟩, ⟨summary, returned⟩, publishedReads referencePlatform storingCodecs
      (fun _ : Unit => onePixel) (referenceLibraries _) .empty ⟨pool, reaches⟩⟩

end Mmxisf
