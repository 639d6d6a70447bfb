/-
# Writer.Tags -- the start tags of metadata as lists of attributes

`make_metadata_xml` appends texts.  Here the same start tags are lists of
attributes with their values as they are before they are escaped, so that what a
reader's handler is called with can be said: the same names, and the values after
attribute-value normalisation.  The text of an entry is the rendering of its list, and
what ends the element (`makeMetadataXml_text`).
-/
import Mmxisf.Writer.Entries

namespace Mmxisf.Writer

set_option autoImplicit false

/-- An attribute of a start tag: its name, and its value before it is escaped. -/
abbrev TagAttribute := String × Text

def extentsOf (entry : MetadataWriteEntry) : List TagAttribute :=
  match entry.length with
  | some length => [("length", decimal length)]
  | none => [("rows", decimal (entry.rows.getD 0)), ("columns", decimal (entry.columns.getD 0))]

/-- An attribute that is left out when its value is empty. -/
def optionalAttribute (name : String) (value : Text) : List TagAttribute :=
  if value ≠ [] then [(name, value)] else []

/-- The attributes of a block between its extents and its location. -/
def describingAttributes (entry : MetadataWriteEntry) (prepared : PreparedBlock) :
    List TagAttribute :=
  (if entry.byteOrder = .big then [("byteOrder", lit "big")] else []) ++
    optionalAttribute "format" entry.format ++
    optionalAttribute "compression" prepared.compression ++
    optionalAttribute "subblocks" prepared.subblocks ++
    optionalAttribute "checksum" prepared.checksum

/-- The block attributes of a Property after its type. -/
def blockAttributes (entry : MetadataWriteEntry) (block : Option (BlockLocation × PreparedBlock)) :
    List TagAttribute :=
  if isEmptyPropertyContainer entry then extentsOf entry ++ [("location", lit "inline:base64")]
  else
    match block with
    | none => []
    | some (location, prepared) =>
        extentsOf entry ++ describingAttributes entry prepared ++
          [("location", attachmentLocation location.offset location.size)]

/-- The attributes of a Property after its identifier and type. -/
def valueAttributes (entry : MetadataWriteEntry) (block : Option (BlockLocation × PreparedBlock)) :
    List TagAttribute :=
  match entry.valueForm with
  | .dataBlock => blockAttributes entry block
  | .direct => if entry.type = lit "String" then [] else [("value", entry.value)]

/-- The attributes of the start tag of an entry. -/
def metadataAttributes (entry : MetadataWriteEntry)
    (block : Option (BlockLocation × PreparedBlock)) : List TagAttribute :=
  match entry.kind with
  | .fitsKeyword => [("name", entry.name), ("value", entry.value), ("comment", entry.comment)]
  | .property => [("id", entry.name), ("type", entry.type)] ++ valueAttributes entry block

def elementName (entry : MetadataWriteEntry) : Text :=
  match entry.kind with
  | .fitsKeyword => lit "FITSKeyword"
  | .property => lit "Property"

def renderAttribute (attribute' : TagAttribute) : Text :=
  xmlAttribute attribute'.1 (attribute'.2.flatMap (escapeCharacter true))

/-- A start tag up to its end, `/>` or `>`. -/
def renderTag (name : Text) (attributes : List TagAttribute) : Text :=
  lit "<" ++ name ++ attributes.flatMap renderAttribute

/-! ## Texts that escaping leaves as they are -/

/-- A text without the four characters that are escaped. -/
def Plain (text : Text) : Prop := text.flatMap (escapeCharacter true) = text

instance instDecidablePlain (text : Text) : Decidable (Plain text) :=
  inferInstanceAs (Decidable (text.flatMap (escapeCharacter true) = text))

theorem escapeCharacter_of_not {c : Byte} {inAttribute : Bool}
    (plain : c ≠ ch '&' ∧ c ≠ ch '<' ∧ c ≠ ch '>' ∧ c ≠ ch '"') :
    escapeCharacter inAttribute c = [c] := by
  obtain ⟨ampersand, less, greater, quote⟩ := plain
  rw [escapeCharacter, if_neg ampersand, if_neg less, if_neg greater, if_neg quote]

theorem plain_of_forall {text : Text}
    (plain : ∀ c ∈ text, c ≠ ch '&' ∧ c ≠ ch '<' ∧ c ≠ ch '>' ∧ c ≠ ch '"') : Plain text := by
  unfold Plain
  induction text with
  | nil => rfl
  | cons c rest ih =>
      rw [List.flatMap_cons, escapeCharacter_of_not (plain c List.mem_cons_self),
        ih fun d member => plain d (List.mem_cons_of_mem _ member)]
      rfl

theorem Plain.append {text more : Text} (plain : Plain text) (plainMore : Plain more) :
    Plain (text ++ more) := by
  unfold Plain at plain plainMore ⊢
  rw [List.flatMap_append, plain, plainMore]

theorem decimal_digits (value : Nat) : (decimal value).all isAsciiDigit = true := by
  unfold decimal lit
  rw [List.all_map, List.all_eq_true]
  intro c member
  have digits : (toString value).toList = Nat.toDigits 10 value := Nat.toList_repr
  rw [digits] at member
  have digit : c.isDigit = true := Nat.isDigit_of_mem_toDigits (by decide) (by decide) member
  simp only [Char.isDigit, Bool.and_eq_true, decide_eq_true_eq] at digit
  have low : 48 ≤ c.toNat := digit.1
  have high : c.toNat ≤ 57 := digit.2
  have byte : (UInt8.ofNat c.toNat).toNat = c.toNat := by
    rw [UInt8.toNat_ofNat']
    omega
  have zero : (ch '0').toNat = 48 := rfl
  have nine : (ch '9').toNat = 57 := rfl
  simp only [Function.comp_apply, isAsciiDigit, Bool.and_eq_true, decide_eq_true_eq,
    UInt8.le_iff_toNat_le, byte, zero, nine]
  exact ⟨low, high⟩

theorem digit_plain {c : Byte} (digit : isAsciiDigit c = true) :
    c ≠ ch '&' ∧ c ≠ ch '<' ∧ c ≠ ch '>' ∧ c ≠ ch '"' := by
  refine ⟨?_, ?_, ?_, ?_⟩ <;> rintro rfl <;> exact absurd digit (by decide)

theorem decimal_plain (value : Nat) : Plain (decimal value) :=
  plain_of_forall fun c member => digit_plain (List.all_eq_true.mp (decimal_digits value) c member)

theorem attachmentLocation_plain (offset size : Nat) : Plain (attachmentLocation offset size) := by
  unfold attachmentLocation
  apply Plain.append
  · apply Plain.append
    · exact Plain.append (show Plain (lit "attachment:") by decide) (decimal_plain offset)
    · exact (show Plain (lit ":") by decide)
  · exact decimal_plain size

/-- The texts that `prepare_block` makes for a header have none of the four
characters. -/
structure PreparedBlock.Plain (prepared : PreparedBlock) : Prop where
  compression : Writer.Plain prepared.compression
  subblocks : Writer.Plain prepared.subblocks
  checksum : Writer.Plain prepared.checksum

/-! ## The tag of an entry -/

theorem escapeXml_eq {input escaped : Text} {inAttribute : Bool}
    (run : escapeXml input inAttribute = .ok escaped) :
    escaped = input.flatMap (escapeCharacter inAttribute) := by
  simp only [escapeXml, bind_eq_ok] at run
  obtain ⟨-, -, same⟩ := run
  cases same
  rfl

theorem renderAttribute_plain {name : String} {value : Text} (plain : Plain value) :
    renderAttribute (name, value) = xmlAttribute name value := by
  unfold renderAttribute
  rw [plain]

theorem render_extentsOf (entry : MetadataWriteEntry) :
    (extentsOf entry).flatMap renderAttribute = extentAttributes entry := by
  unfold extentsOf extentAttributes
  cases entry.length with
  | some length => simp [renderAttribute_plain (decimal_plain length)]
  | none => simp [renderAttribute_plain (decimal_plain _)]

theorem render_optionalAttribute (name : String) (value : Text) :
    (optionalAttribute name value).flatMap renderAttribute =
      if value ≠ [] then renderAttribute (name, value) else [] := by
  unfold optionalAttribute
  split <;> simp

theorem render_prepared {prepared : PreparedBlock} (plain : prepared.Plain) :
    (optionalAttribute "compression" prepared.compression ++
      optionalAttribute "subblocks" prepared.subblocks ++
      optionalAttribute "checksum" prepared.checksum).flatMap renderAttribute =
      preparedAttributes prepared := by
  simp only [List.flatMap_append, render_optionalAttribute, renderAttribute_plain plain.compression,
    renderAttribute_plain plain.subblocks, renderAttribute_plain plain.checksum, preparedAttributes]

/-- What an empty container's attributes are written as: its length is `0`. -/
theorem render_emptyContainer {entry : MetadataWriteEntry}
    (empty : isEmptyPropertyContainer entry = true)
    (single : entry.length.isSome = true → classifyPropertyType entry.type = .vector) :
    (extentsOf entry ++ [("location", lit "inline:base64")]).flatMap renderAttribute =
      (if entry.length.isSome then xmlAttribute "length" (lit "0") else extentAttributes entry) ++
        xmlAttribute "location" (lit "inline:base64") := by
  rw [List.flatMap_append, render_extentsOf, List.flatMap_singleton,
    renderAttribute_plain (by decide)]
  congr 1
  split
  · rename_i declared
    unfold isEmptyPropertyContainer at empty
    split at empty
    · cases empty
    · rw [single declared] at empty
      have zero : entry.length = some 0 := of_decide_eq_true empty
      unfold extentAttributes
      rw [zero]
      rfl
  · rfl

/-- What follows the tag of an entry: its content and its end. -/
def entryEnding (entry : MetadataWriteEntry) : Text :=
  match entry.kind, entry.valueForm with
  | .fitsKeyword, _ => lit "/>"
  | .property, .dataBlock =>
      if isEmptyPropertyContainer entry then lit "></Property>" else lit "/>"
  | .property, .direct =>
      if entry.type = lit "String" then
        lit ">" ++ entry.value.flatMap (escapeCharacter false) ++ lit "</Property>"
      else lit "/>"

/-- The text of an entry is the rendering of its tag, and what ends it. -/
theorem makeMetadataXml_text {entry : MetadataWriteEntry}
    {block : Option (BlockLocation × PreparedBlock)} {xml : Text} (type : Plain entry.type)
    (single : entry.length.isSome = true → classifyPropertyType entry.type = .vector)
    (plain : isEmptyPropertyContainer entry = false → ∀ location prepared,
      block = some (location, prepared) → prepared.Plain)
    (made : makeMetadataXml entry block = .ok xml) :
    xml = renderTag (elementName entry) (metadataAttributes entry block) ++ entryEnding entry := by
  simp only [makeMetadataXml, bind_eq_ok] at made
  obtain ⟨escapedName, name, escapedValue, value, made⟩ := made
  obtain rfl := escapeXml_eq name
  obtain rfl := escapeXml_eq value
  have typeAttribute := @renderAttribute_plain "type" _ type
  have opening : lit "<Property" = lit "<" ++ lit "Property" := rfl
  unfold renderTag elementName metadataAttributes valueAttributes entryEnding
  cases kind : entry.kind with
  | fitsKeyword =>
      simp only [kind, if_true, bind_eq_ok, decide_true, Bool.or_true] at made
      obtain ⟨escapedComment, comment, same⟩ := made
      obtain rfl := escapeXml_eq comment
      cases same
      simp [renderAttribute, List.append_assoc, lit]
  | property =>
      simp only [kind, reduceCtorEq, if_false, decide_false, Bool.or_false] at made
      cases form : entry.valueForm with
      | direct =>
          simp only [form, reduceCtorEq, if_false] at made
          by_cases isString : entry.type = lit "String"
          · simp only [isString, if_true] at made
            cases made
            rw [if_pos isString, if_pos isString, List.append_nil, List.flatMap_cons,
              List.flatMap_cons,
              List.flatMap_nil, typeAttribute, isString, opening]
            simp only [renderAttribute, List.append_assoc, List.nil_append, ne_eq,
              not_true_eq_false, decide_false]
          · simp only [isString, if_false, ne_eq, not_false_eq_true, decide_true] at made
            cases made
            rw [if_neg isString, if_neg isString, List.flatMap_append, List.flatMap_cons,
              List.flatMap_cons,
              List.flatMap_nil, List.flatMap_singleton, typeAttribute, opening]
            simp only [renderAttribute, List.append_assoc, List.nil_append]
      | dataBlock =>
          simp only [form, if_true] at made
          unfold blockAttributes
          cases empty : isEmptyPropertyContainer entry with
          | true =>
              simp only [empty, if_true] at made
              cases made
              rw [if_pos rfl, if_pos rfl, List.flatMap_append, render_emptyContainer empty single,
                List.flatMap_cons, List.flatMap_cons, List.flatMap_nil, typeAttribute, opening]
              simp only [renderAttribute, List.append_assoc, List.nil_append]
          | false =>
              simp only [empty, Bool.false_eq_true, if_false] at made
              cases isBlock : block with
              | none => simp [isBlock, Mmxisf.fail] at made
              | some located =>
                  obtain ⟨location, prepared⟩ := located
                  simp only [isBlock, bind_eq_ok] at made
                  obtain ⟨escapedFormat, format, same⟩ := made
                  obtain rfl := escapeXml_eq format
                  cases same
                  have rest := render_prepared (plain empty location prepared isBlock)
                  have order : (if entry.byteOrder = .big then
                      [("byteOrder", lit "big")] else []).flatMap renderAttribute =
                      if entry.byteOrder = .big then xmlAttribute "byteOrder" (lit "big")
                        else [] := by
                    split
                    · rw [List.flatMap_singleton, renderAttribute_plain (by decide)]
                    · rfl
                  simp only [List.flatMap_append] at rest
                  simp only [Bool.false_eq_true, if_false, describingAttributes,
                    List.flatMap_append, render_extentsOf, order, render_optionalAttribute "format",
                    List.flatMap_cons, List.flatMap_nil,
                    typeAttribute, opening, ← rest,
                    renderAttribute_plain (attachmentLocation_plain location.offset location.size),
                    List.append_nil, List.append_assoc]
                  rfl

end Mmxisf.Writer
