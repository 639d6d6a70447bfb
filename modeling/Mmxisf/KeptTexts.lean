/-
# KeptTexts -- which texts come back as they were

`escape_xml` writes TAB, LF and CR as they are, and a parser of XML 1.0 normalises
them.  So a text comes back as it was given exactly when it has none of these
characters, or, where it is the text of an element, when it has no CR; all else that
is listed of an entry is what was given (`textsKept`).  An entry as a whole is kept
exactly when all its texts are (`textFidelity`); a number with a TAB behind it is
accepted and is not.
-/
import Mmxisf.ReferenceLibraries
import Mmxisf.RestoredUnits

namespace Mmxisf

set_option autoImplicit false

open Writer (MetadataWriteEntry TypedCall onePixel)
open Reader (ReaderOptions)

/-! ## Normalised texts -/

/-- No CR is left. -/
theorem return_not_mem_newlinesFrom (text : Text) (afterReturn : Bool) :
    ch '\r' ∉ newlinesFrom afterReturn text := by
  have notFeed : ch '\r' ≠ ch '\n' := by decide
  induction text generalizing afterReturn with
  | nil => exact List.not_mem_nil
  | cons c rest ih =>
      rw [newlinesFrom]
      split_ifs with isReturn
      · rw [List.mem_cons, not_or]
        exact ⟨notFeed, ih true⟩
      · exact ih false
      · rw [List.mem_cons, not_or]
        exact ⟨fun same => isReturn same.symm, ih false⟩

/-- A text in an element is kept when it has no CR. -/
theorem normalizeNewlines_eq_self {text : Text} :
    normalizeNewlines text = text ↔ ch '\r' ∉ text := by
  constructor
  · intro same
    rw [← same]
    exact return_not_mem_newlinesFrom text false
  · intro absent
    unfold normalizeNewlines
    induction text with
    | nil => rfl
    | cons c rest ih =>
        rw [List.mem_cons, not_or] at absent
        rw [newlinesFrom, if_neg (Ne.symm absent.1), if_neg (by simp), ih absent.2]

/-- A text has no character that is normalised in an attribute. -/
def Unbroken (text : Text) : Prop := ch '\t' ∉ text ∧ ch '\n' ∉ text ∧ ch '\r' ∉ text

theorem normalizeCharacter_eq_self {c : Byte} : normalizeCharacter c = c ↔
    c ≠ ch '\t' ∧ c ≠ ch '\n' ∧ c ≠ ch '\r' := by
  unfold normalizeCharacter
  split_ifs with broken
  · constructor
    · rintro rfl
      decide
    · rintro ⟨tab, feed, carriage⟩
      rcases broken with same | same | same
      · exact absurd same tab
      · exact absurd same carriage
      · exact absurd same feed
  · rw [not_or, not_or] at broken
    exact iff_of_true rfl ⟨broken.1, broken.2.2, broken.2.1⟩

theorem normalizeValue_eq_self {text : Text} : normalizeValue text = text ↔ Unbroken text := by
  unfold Unbroken
  induction text with
  | nil => simp
  | cons c rest ih =>
      rw [normalizeValue_cons, List.cons.injEq, ih, normalizeCharacter_eq_self]
      simp only [List.mem_cons, not_or]
      constructor
      · rintro ⟨⟨tab, feed, carriage⟩, tabs, feeds, carriages⟩
        exact ⟨⟨tab.symm, tabs⟩, ⟨feed.symm, feeds⟩, carriage.symm, carriages⟩
      · rintro ⟨⟨tab, tabs⟩, ⟨feed, feeds⟩, carriage, carriages⟩
        exact ⟨⟨Ne.symm tab, Ne.symm feed, Ne.symm carriage⟩, tabs, feeds, carriages⟩

/-- What is normalised has nothing left to normalise. -/
theorem unbroken_normalizeValue (text : Text) : Unbroken (normalizeValue text) := by
  rw [← normalizeValue_eq_self]
  unfold normalizeValue
  rw [List.map_map]
  refine List.map_congr_left fun c _ => ?_
  rw [Function.comp_apply, normalizeCharacter_eq_self]
  unfold normalizeCharacter
  split_ifs with broken
  · decide
  · rw [not_or, not_or] at broken
    exact ⟨broken.1, broken.2.2, broken.2.1⟩

/-- A text in an attribute is kept when it has no TAB, LF or CR. -/
theorem attributeText_eq_self {text : Text} : attributeText text = text ↔ Unbroken text := by
  unfold attributeText
  constructor
  · intro same
    rw [← same]
    exact unbroken_normalizeValue _
  · intro unbroken
    rw [normalizeNewlines_eq_self.mpr unbroken.2.2, normalizeValue_eq_self]
    exact unbroken

/-! ## Entries -/

/-- The value of an entry is the text of an element. -/
def ValueInElement (entry : MetadataWriteEntry) : Prop :=
  entry.kind = .property ∧ entry.valueForm = .direct ∧ entry.type = lit "String"

/-- A value that comes back as it was. -/
def ValueKept (entry : MetadataWriteEntry) : Prop :=
  (ValueInElement entry → ch '\r' ∉ entry.value) ∧
    (¬ ValueInElement entry → Unbroken entry.value)

/-- What is listed of an entry that was given. -/
structure KeepsTexts (entry : MetadataWriteEntry) (listed : MetadataEntry) : Prop where
  kind : listed.kind = entry.kind
  name : listed.name = entry.name
  type : listed.type = entry.type
  imageIndex : listed.imageIndex = entry.imageIndex
  scope : listed.scope = if entry.imageIndex.isSome then .image else .xisfUnit
  extents : (listed.length, listed.rows, listed.columns) = (entry.length, entry.rows, entry.columns)
  value : listed.value = entry.value ↔ ValueKept entry
  comment : listed.comment = entry.comment ↔ Unbroken entry.comment
  format : listed.format = entry.format ↔ Unbroken entry.format

theorem listedForm_characterData {entry : MetadataWriteEntry} :
    listedForm entry = .characterData ↔ ValueInElement entry := by
  unfold ValueInElement listedForm
  cases entry.valueForm with
  | dataBlock => simp
  | direct => simp

theorem keepsTexts_listed (item : MetadataWriteEntry × Writer.PlannedBlock) :
    KeepsTexts item.1 (listedEntry item) := by
  refine ⟨rfl, rfl, rfl, rfl, rfl, rfl, ?_, attributeText_eq_self, attributeText_eq_self⟩
  have isValue : (listedEntry item).value = listedValue item.1 := rfl
  rw [isValue]
  unfold listedValue ValueKept
  by_cases inElement : ValueInElement item.1
  · rw [if_pos (listedForm_characterData.mpr inElement), normalizeNewlines_eq_self]
    exact ⟨fun absent => ⟨fun _ => absent, fun other => absurd inElement other⟩,
      fun kept => kept.1 inElement⟩
  · rw [if_neg (mt listedForm_characterData.mp inElement), attributeText_eq_self]
    exact ⟨fun unbroken => ⟨fun other => absurd other inElement, fun _ => unbroken⟩,
      fun kept => kept.2 inElement⟩

/-! ## The unit -/

/-- The entries of a document are those that were given and the two that the writer
adds, each with its texts. -/
def TextsKept (unit : WrittenUnit) (document : Document) : Prop :=
  ∃ pairs : List (MetadataWriteEntry × MetadataEntry),
    (pairs.map Prod.fst).Perm (creationTimeEntry unit.call.options ::
      creatorEntry unit.call.options :: unit.call.metadata) ∧
    document.metadata = pairs.map Prod.snd ∧ ∀ pair ∈ pairs, KeepsTexts pair.1 pair.2

theorem listed_textsKept (unit : WrittenUnit) : TextsKept unit
    (listedDocument unit.call.options unit.settled.plan unit.settled.header.length) := by
  refine ⟨(unitItems unit.call.options unit.settled.plan).map fun item =>
    (item.1, listedEntry item), ?_, ?_, ?_⟩
  · have perm := (unitItems_perm unit.isUnit.accepted).map Prod.fst
    have given : (allEntries unit.call.options unit.settled.plan).map Prod.fst =
        creationTimeEntry unit.call.options :: creatorEntry unit.call.options ::
          unit.call.metadata := by
      rw [← unit.isUnit.metadata]
      rfl
    rw [List.map_map, ← given]
    exact perm
  · rw [List.map_map]
    rfl
  · intro pair member
    obtain ⟨item, -, rfl⟩ := List.mem_map.mp member
    exact keepsTexts_listed item

/-- A text comes back as it was given exactly when XML leaves it alone. -/
theorem textsKept (unit : WrittenUnit) : ReadsBack unit.platform unit.bytes True
    (fun options : ReaderOptions => options)
    (fun options => openAnd (L := Unit) unit.platform options fun reader => pure reader.document)
    (TextsKept unit) :=
  (@WrittenUnit.opens unit Unit).mono fun document listed => by
    rw [listed]
    exact listed_textsKept unit

/-- The two texts of a unit with nothing else. -/
theorem onePixel_textsKept : ∃ unit : WrittenUnit, unit.call = Writer.onePixel.call ∧
    ReadsBack unit.platform unit.bytes True (fun options : ReaderOptions => options)
      (fun options => openAnd (L := Unit) unit.platform options fun reader => pure reader.document)
      (TextsKept unit) := by
  obtain ⟨unit, -, -, call⟩ := exists_onePixel
  exact ⟨unit, call, textsKept unit⟩

/-! ## Fidelity -/

/-- The texts of an entry are listed as they were given. -/
structure Faithful (entry : MetadataWriteEntry) (listed : MetadataEntry) : Prop where
  value : listed.value = entry.value
  comment : listed.comment = entry.comment
  format : listed.format = entry.format

/-- XML leaves the texts of an entry alone. -/
structure LeftAlone (entry : MetadataWriteEntry) : Prop where
  value : ValueKept entry
  comment : Unbroken entry.comment
  format : Unbroken entry.format

theorem KeepsTexts.faithful_iff {entry : MetadataWriteEntry} {listed : MetadataEntry}
    (keeps : KeepsTexts entry listed) : Faithful entry listed ↔ LeftAlone entry := by
  constructor
  · rintro ⟨value, comment, format⟩
    exact ⟨keeps.value.mp value, keeps.comment.mp comment, keeps.format.mp format⟩
  · rintro ⟨value, comment, format⟩
    exact ⟨keeps.value.mpr value, keeps.comment.mpr comment, keeps.format.mpr format⟩

/-- An entry is listed under its name, and its texts are as they were given exactly where
XML leaves them alone. -/
structure ListsTexts (entry : MetadataWriteEntry) (listed : MetadataEntry) : Prop where
  kind : listed.kind = entry.kind
  name : listed.name = entry.name
  imageIndex : listed.imageIndex = entry.imageIndex
  faithful : Faithful entry listed ↔ LeftAlone entry

/-- Every entry that was given or that the writer adds is listed in this way, and no
other is. -/
def ListsEach (unit : WrittenUnit) (lists : MetadataWriteEntry → MetadataEntry → Prop)
    (document : Document) : Prop :=
  ∃ pairs : List (MetadataWriteEntry × MetadataEntry),
    (pairs.map Prod.fst).Perm (creationTimeEntry unit.call.options ::
      creatorEntry unit.call.options :: unit.call.metadata) ∧
    document.metadata = pairs.map Prod.snd ∧ ∀ pair ∈ pairs, lists pair.1 pair.2

/-- The texts of an entry are read back as they were given if and only if XML leaves them
alone. -/
theorem textFidelity (unit : WrittenUnit) : ReadsBack unit.platform unit.bytes True
    (fun options : ReaderOptions => options)
    (fun options => openAnd (L := Unit) unit.platform options fun reader => pure reader.document)
    (ListsEach unit ListsTexts) :=
  (@WrittenUnit.opens unit Unit).mono fun document listed => by
    rw [listed]
    obtain ⟨pairs, given, metadata, keeps⟩ := listed_textsKept unit
    refine ⟨pairs, given, metadata, fun pair member => ?_⟩
    have kept := keeps pair member
    exact ⟨kept.kind, kept.name, kept.imageIndex, kept.faithful_iff⟩

/-- A number with a TAB behind it. -/
def tabbedNumber : MetadataWriteEntry where
  name := lit "Test:Number"
  type := lit "Int32"
  value := lit "7\t"
  imageIndex := some 0

def tabbed : TypedCall where
  call := { onePixel.call with metadata := [tabbedNumber] }
  typed := onePixel.typed

theorem tabbed_fits : ∀ entry ∈ tabbed.call.metadata, ExtentsFit entry := by
  intro entry member
  rw [List.mem_singleton.mp member]
  exact ⟨nofun, nofun, nofun⟩

theorem exists_tabbed : ∃ unit : WrittenUnit, unit.platform = referencePlatform ∧
    unit.codecs = storingCodecs ∧ unit.call = tabbed.call :=
  exists_unit tabbed tabbed_fits (by decide +kernel)

/-- Its TAB is read back as a blank. -/
theorem tabbed_notFaithful : ¬ ∀ unit : WrittenUnit, ReadsBack unit.platform unit.bytes True
    (fun options : ReaderOptions => options)
    (fun options => openAnd (L := Unit) unit.platform options fun reader => pure reader.document)
    (ListsEach unit Faithful) := by
  intro every
  obtain ⟨unit, -, -, call⟩ := exists_tabbed
  obtain ⟨document, rfl, pairs, given, metadata, faithful⟩ :=
    ReadsBack.both (l := ()) WrittenUnit.opens (every unit)
  have member : tabbedNumber ∈ pairs.map Prod.fst := by
    rw [given.mem_iff, call]
    exact List.mem_cons_of_mem _ (List.mem_cons_of_mem _ (List.mem_singleton.mpr rfl))
  obtain ⟨pair, there, isNumber⟩ := List.mem_map.mp member
  have value : pair.2.value = lit "7\t" := by
    rw [(faithful pair there).value, isNumber]
    rfl
  have listed : pair.2 ∈ listedEntries unit.call.options unit.settled.plan := by
    have second := List.mem_map_of_mem (f := Prod.snd) there
    rw [← metadata] at second
    exact second
  obtain ⟨item, inUnit, isListed⟩ := List.mem_map.mp listed
  have own := (unitItems_perm unit.isUnit.accepted).mem_iff.mp inUnit
  have kept : listedValue item.1 = lit "7\t" := by
    rw [← value, ← isListed]
    rfl
  have first : item.1 = creationTimeEntry tabbed.call.options ∨
      item.1 = creatorEntry tabbed.call.options ∨ item.1 = tabbedNumber := by
    unfold allEntries at own
    rw [List.mem_cons, List.mem_cons, call] at own
    rcases own with rfl | rfl | given
    · exact .inl rfl
    · exact .inr (.inl rfl)
    · have inCall := List.mem_map_of_mem (f := Prod.fst) given
      rw [unit.isUnit.metadata, call] at inCall
      exact .inr (.inr (List.mem_singleton.mp inCall))
  rcases first with isTime | isCreator | isNumber
  · rw [isTime] at kept
    revert kept
    decide
  · rw [isCreator] at kept
    revert kept
    decide
  · rw [isNumber] at kept
    revert kept
    decide

theorem tabbed_fidelity : ∃ unit : WrittenUnit, unit.call = tabbed.call ∧
    ReadsBack unit.platform unit.bytes True (fun options : ReaderOptions => options)
      (fun options => openAnd (L := Unit) unit.platform options fun reader => pure reader.document)
      (ListsEach unit ListsTexts) := by
  obtain ⟨unit, -, -, call⟩ := exists_tabbed
  exact ⟨unit, call, textFidelity unit⟩

end Mmxisf
