/-
# HeaderScanner -- a parser for the headers of a writer

A reader takes from an XML parser the calls that a header renders (`Renders`).  Here is a
parser that makes them: it cuts a text at every `<`, each part of it at its `>` and a tag
at its quotes, expands the entities and normalises what is there.  Every element is taken
for one of the XISF namespace.  On what a writer renders it makes the calls that are
rendered (`scanHeader_renders`), so what is assumed of a parser can be met.
-/
import Mmxisf.UnitReport
import Mmxisf.XmlText

namespace Mmxisf

set_option autoImplicit false

open Library (split split_append split_of_not_mem split_cons split_prefix)
open Writer (TagAttribute renderTag renderAttribute escapeCharacter)

/-! ## The scanner -/

/-- The name of an attribute, from what stands before its value. -/
def attributeName (before : Text) : Text :=
  ((before.dropWhile (· ≠ ch ' ')).drop 1).dropLast

/-- The attributes of a tag that was cut at its quotes. -/
def scanAttributes : List Text → List (Text × Text)
  | before :: value :: rest =>
      (attributeName before, attributeText (Writer.expandEntities value)) :: scanAttributes rest
  | _ => []

/-- Those that declare no namespace. -/
def tagAttributes (tag : Text) : List (Text × Text) :=
  (scanAttributes (split (ch '"') tag)).filter fun attribute' => attribute'.1 ≠ lit "xmlns"

def tagName (tag : Text) : Text := tag.takeWhile fun c => c ≠ ch ' ' && c ≠ ch '/'

/-- The calls for a tag, between its `<` and its `>`. -/
def scanTag (tag : Text) : List XmlEvent :=
  if tag.head? = some (ch '?') then
    [.declaration ((tagAttributes tag).lookup (lit "version"))
      ((tagAttributes tag).lookup (lit "encoding")) (-1)]
  else if tag.head? = some (ch '/') then [.endElement (xisfName tag.tail)]
  else
    .startElement (xisfName (tagName tag)) (tagAttributes tag) ::
      if tag.getLast? = some (ch '/') then [.endElement (xisfName (tagName tag))] else []

/-- The call for a text. -/
def scanText (text : Text) : List XmlEvent :=
  if text = [] then [] else [.characterData (normalizeNewlines (Writer.expandEntities text))]

/-- A tag without its `<`, and the text up to the next one. -/
def scanPart (part : Text) : List XmlEvent :=
  scanTag (part.takeWhile (· ≠ ch '>')) ++ scanText ((part.dropWhile (· ≠ ch '>')).drop 1)

def scanHeader (text : Text) : List XmlEvent :=
  match split (ch '<') text with
  | [] => []
  | front :: parts => scanText front ++ parts.flatMap scanPart

/-! ## Parts -/

section

variable {body text rest : Text}

/-- A tag and what follows it. -/
theorem scanHeader_tag (less : ch '<' ∉ body) (greater : ch '>' ∉ body) (rest : Text) :
    scanHeader (ch '<' :: (body ++ ch '>' :: rest)) = scanTag body ++ scanHeader rest := by
  obtain ⟨front, parts, isRest⟩ := split_cons (ch '<') rest
  have markup : ch '<' ∉ body ++ [ch '>'] := by
    rw [List.mem_append, List.mem_singleton, not_or]
    exact ⟨less, by decide⟩
  have whole : split (ch '<') (ch '<' :: (body ++ ch '>' :: rest)) =
      [] :: ((body ++ [ch '>']) ++ front) :: parts := by
    rw [split, if_pos rfl, ← split_prefix isRest markup, List.append_assoc, List.singleton_append]
  have inTag : ∀ c ∈ body, decide (c ≠ ch '>') = true := fun c member =>
    decide_eq_true fun same => greater (same ▸ member)
  have isPart : scanPart ((body ++ [ch '>']) ++ front) = scanTag body ++ scanText front := by
    unfold scanPart
    rw [List.append_assoc, List.singleton_append, List.takeWhile_append_of_pos inTag,
      List.dropWhile_append_of_pos inTag, List.takeWhile_cons_of_neg (by decide),
      List.dropWhile_cons_of_neg (by decide), List.append_nil]
    rfl
  unfold scanHeader
  rw [whole, isRest]
  dsimp only
  rw [List.flatMap_cons, isPart, List.append_assoc]
  rfl

/-- A text and the markup that follows it. -/
theorem scanHeader_text (some : text ≠ []) (free : ch '<' ∉ text) (rest : Text) :
    scanHeader (text ++ ch '<' :: rest) =
      .characterData (normalizeNewlines (Writer.expandEntities text)) ::
        scanHeader (ch '<' :: rest) := by
  have after : split (ch '<') (ch '<' :: rest) = [] :: split (ch '<') rest := by
    rw [split, if_pos rfl]
  unfold scanHeader
  rw [split_append rest free, after]
  dsimp only
  rw [scanText, if_neg some]
  rfl

end

/-! ## Tags -/

theorem not_mem_of_letters {name : Text} (letters : name.all isAsciiLetter = true) {c : Byte}
    (other : isAsciiLetter c = false) : c ∉ name := by
  intro member
  rw [List.all_eq_true.mp letters c member] at other
  cases other

theorem renderAttribute_eq (name : String) (value : Text) :
    renderAttribute (name, value) = ch ' ' :: (lit name ++ (ch '=' :: ch '"' ::
      (value.flatMap (escapeCharacter true) ++ [ch '"']))) := by
  have quoted : lit "=\"" = [ch '=', ch '"'] := rfl
  have blank : lit " " = [ch ' '] := rfl
  have quote : lit "\"" = [ch '"'] := rfl
  unfold renderAttribute Writer.xmlAttribute
  rw [quoted, blank, quote]
  simp only [List.append_assoc, List.cons_append, List.nil_append]

/-- The value of an attribute is closed by its quote, and a tag by its end. -/
theorem escaped_free (value : Text) (inAttribute : Bool) :
    ch '<' ∉ value.flatMap (escapeCharacter inAttribute) ∧
      ch '>' ∉ value.flatMap (escapeCharacter inAttribute) ∧
      (inAttribute = true → ch '"' ∉ value.flatMap (escapeCharacter inAttribute)) := by
  simp only [List.mem_flatMap, not_exists, not_and]
  exact ⟨fun c _ => (Writer.escapeCharacter_free c inAttribute).1,
    fun c _ => (Writer.escapeCharacter_free c inAttribute).2.1,
    fun quoted c _ => (Writer.escapeCharacter_free c inAttribute).2.2 quoted⟩

section

variable {attributes : List TagAttribute} {name tail : Text}

theorem attributes_free (legal : LegalTags attributes) :
    ch '<' ∉ attributes.flatMap renderAttribute ∧ ch '>' ∉ attributes.flatMap renderAttribute := by
  have each : ∀ tag ∈ attributes, ch '<' ∉ renderAttribute tag ∧ ch '>' ∉ renderAttribute tag := by
    rintro ⟨name, value⟩ member
    obtain ⟨⟨⟨-, letters⟩, -⟩, -⟩ := legal _ member
    obtain ⟨less, greater, -⟩ := escaped_free value true
    rw [renderAttribute_eq]
    simp only [List.mem_cons, List.mem_append, List.not_mem_nil, not_or]
    exact ⟨⟨by decide, not_mem_of_letters letters (by decide), by decide, by decide, less,
        by decide, not_false⟩,
      by decide, not_mem_of_letters letters (by decide), by decide, by decide, greater,
        by decide, not_false⟩
  simp only [List.mem_flatMap, not_exists, not_and]
  exact ⟨fun tag member => (each tag member).1, fun tag member => (each tag member).2⟩

theorem attributeName_render {front : Text} (unspaced : ch ' ' ∉ front) (name : Text) :
    attributeName (front ++ ch ' ' :: (name ++ [ch '='])) = name := by
  have before : ∀ c ∈ front, decide (c ≠ ch ' ') = true := fun c member =>
    decide_eq_true fun same => unspaced (same ▸ member)
  unfold attributeName
  rw [List.dropWhile_append_of_pos before, List.dropWhile_cons_of_neg (by decide), List.drop_one,
    List.tail_cons, List.dropLast_concat]

/-- The quotes are those around the values. -/
theorem scanAttributes_render (unquoted : ch '"' ∉ tail) :
    ∀ {attributes : List TagAttribute} {front : Text}, LegalTags attributes → ch '"' ∉ front →
      ch ' ' ∉ front →
      scanAttributes (split (ch '"') (front ++ (attributes.flatMap renderAttribute ++ tail))) =
        reportedTags attributes
  | [], front, _, plain, _ => by
      have free : ch '"' ∉ front ++ tail := by
        rw [List.mem_append, not_or]
        exact ⟨plain, unquoted⟩
      rw [List.flatMap_nil, List.nil_append, split_of_not_mem free]
      rfl
  | (name, value) :: attributes, front, legal, plain, unspaced => by
      rw [LegalTags, List.forall_mem_cons] at legal
      obtain ⟨⟨⟨⟨-, letters⟩, -⟩, -⟩, later⟩ := legal
      have before : ch '"' ∉ front ++ ch ' ' :: (lit name ++ [ch '=']) := by
        simp only [List.mem_append, List.mem_cons, List.not_mem_nil, not_or]
        exact ⟨plain, by decide, not_mem_of_letters letters (by decide), by decide, not_false⟩
      have cut : front ++ (((name, value) :: attributes).flatMap renderAttribute ++ tail) =
          (front ++ ch ' ' :: (lit name ++ [ch '='])) ++ ch '"' ::
            (value.flatMap (escapeCharacter true) ++ ch '"' ::
              ([] ++ (attributes.flatMap renderAttribute ++ tail))) := by
        rw [List.flatMap_cons, renderAttribute_eq]
        simp only [List.append_assoc, List.cons_append, List.nil_append]
      rw [cut, split_append _ before, split_append _ ((escaped_free value true).2.2 rfl),
        scanAttributes, attributeName_render unspaced, Writer.expand_escape,
        scanAttributes_render unquoted later List.not_mem_nil List.not_mem_nil]
      rfl

/-- A tag of a writer declares no namespace. -/
theorem tagAttributes_render (isName : IsName name) (legal : LegalTags attributes)
    (unquoted : ch '"' ∉ tail) :
    tagAttributes (name ++ (attributes.flatMap renderAttribute ++ tail)) =
      reportedTags attributes := by
  unfold tagAttributes
  rw [scanAttributes_render unquoted legal (not_mem_of_letters isName.2 (by decide))
    (not_mem_of_letters isName.2 (by decide)), List.filter_eq_self]
  intro reported member
  unfold reportedTags reportedAttributes at member
  rw [List.map_map, List.mem_map] at member
  obtain ⟨tag, there, rfl⟩ := member
  exact decide_eq_true (legal tag there).1.2

theorem tagName_render (isName : IsName name) (ends : tail = [] ∨ tail = [ch '/']) :
    tagName (name ++ (attributes.flatMap renderAttribute ++ tail)) = name := by
  have inName : ∀ c ∈ name, (decide (c ≠ ch ' ') && decide (c ≠ ch '/')) = true := by
    intro c member
    have blank : c ≠ ch ' ' := fun same => not_mem_of_letters isName.2 (by decide) (same ▸ member)
    have slash : c ≠ ch '/' := fun same => not_mem_of_letters isName.2 (by decide) (same ▸ member)
    rw [decide_eq_true blank, decide_eq_true slash]
    rfl
  have after : (attributes.flatMap renderAttribute ++ tail).takeWhile
      (fun c => c ≠ ch ' ' && c ≠ ch '/') = [] := by
    cases attributes with
    | nil => rcases ends with rfl | rfl <;> rfl
    | cons tag attributes =>
        rw [List.flatMap_cons, renderAttribute_eq, List.cons_append, List.cons_append]
        exact List.takeWhile_cons_of_neg (by decide)
  unfold tagName
  rw [List.takeWhile_append_of_pos inName, after, List.append_nil]

/-- A start tag does not end with a slash of its own. -/
theorem getLast_render (isName : IsName name) :
    (name ++ attributes.flatMap renderAttribute).getLast? ≠ some (ch '/') := by
  rcases List.eq_nil_or_concat attributes with rfl | ⟨attributes, ⟨last, value⟩, rfl⟩
  · rw [List.flatMap_nil, List.append_nil]
    intro slash
    exact not_mem_of_letters isName.2 (by decide) (List.mem_of_getLast? slash)
  · rw [List.concat_eq_append, List.flatMap_append, List.flatMap_singleton, renderAttribute_eq]
    simp only [← List.append_assoc, ← List.cons_append, List.getLast?_concat]
    decide

/-- The first character of a tag of an element is a letter. -/
theorem head_render (isName : IsName name) (more : Text) {c : Byte}
    (other : isAsciiLetter c = false) : (name ++ more).head? ≠ some c := by
  intro first
  rw [List.head?_append_of_ne_nil _ isName.1] at first
  exact not_mem_of_letters isName.2 other (List.mem_of_head? first)

theorem scanTag_opening (isName : IsName name) (legal : LegalTags attributes) :
    scanTag (name ++ attributes.flatMap renderAttribute) =
      [.startElement (xisfName name) (reportedTags attributes)] := by
  have isTagName : tagName (name ++ (attributes.flatMap renderAttribute ++ [])) = name :=
    tagName_render isName (.inl rfl)
  have isTags : tagAttributes (name ++ (attributes.flatMap renderAttribute ++ [])) =
      reportedTags attributes := tagAttributes_render isName legal List.not_mem_nil
  rw [List.append_nil] at isTagName isTags
  unfold scanTag
  rw [if_neg (head_render isName _ (by decide)), if_neg (head_render isName _ (by decide)),
    if_neg (getLast_render isName), isTagName, isTags]

theorem scanTag_empty (isName : IsName name) (legal : LegalTags attributes) :
    scanTag (name ++ (attributes.flatMap renderAttribute ++ [ch '/'])) =
      [.startElement (xisfName name) (reportedTags attributes), .endElement (xisfName name)] := by
  have ends : (name ++ (attributes.flatMap renderAttribute ++ [ch '/'])).getLast? =
      some (ch '/') := by
    rw [← List.append_assoc, List.getLast?_concat]
  unfold scanTag
  rw [if_neg (head_render isName _ (by decide)), if_neg (head_render isName _ (by decide)),
    if_pos ends, tagName_render isName (.inr rfl), tagAttributes_render isName legal (by decide)]

theorem scanTag_closing (name : Text) : scanTag (ch '/' :: name) =
    [.endElement (xisfName name)] := by
  have slash : (ch '/' :: name).head? = some (ch '/') := rfl
  unfold scanTag
  rw [slash, if_neg (by decide), if_pos rfl]
  rfl

end

/-! ## Headers -/

/-- The scanner reports what is rendered. -/
theorem scanHeader_renders {text : Text} {events : List XmlEvent} (renders : Renders text events) :
    scanHeader text = events := by
  induction renders with
  | nil => rfl
  | @declaration rest events _ ih =>
      have tag := @scanHeader_tag (lit "?xml version=\"1.0\" encoding=\"UTF-8\"?") (by decide)
        (by decide) rest
      have scanned : scanTag (lit "?xml version=\"1.0\" encoding=\"UTF-8\"?") =
          [.declaration (some (lit "1.0")) (some (lit "UTF-8")) (-1)] := by
        decide +kernel
      rw [ih, scanned] at tag
      exact tag
  | @root rest events _ ih =>
      have tag := @scanHeader_tag
        (lit "xisf xmlns=\"http://www.pixinsight.com/xisf\" version=\"1.0\"") (by decide)
        (by decide) rest
      have scanned : scanTag (lit "xisf xmlns=\"http://www.pixinsight.com/xisf\" version=\"1.0\"") =
          [.startElement (xisfName (lit "xisf")) [(lit "version", lit "1.0")]] := by
        decide +kernel
      rw [ih, scanned] at tag
      exact tag
  | @opening name attributes rest events isName legal _ ih =>
      have free := attributes_free legal
      have less : ch '<' ∉ name ++ attributes.flatMap renderAttribute := by
        rw [List.mem_append, not_or]
        exact ⟨not_mem_of_letters isName.2 (by decide), free.1⟩
      have greater : ch '>' ∉ name ++ attributes.flatMap renderAttribute := by
        rw [List.mem_append, not_or]
        exact ⟨not_mem_of_letters isName.2 (by decide), free.2⟩
      have tag := scanHeader_tag less greater rest
      rw [ih, scanTag_opening isName legal] at tag
      rw [renderTag, List.append_assoc, List.append_assoc, List.append_assoc]
      rw [List.append_assoc] at tag
      exact tag
  | @empty name attributes rest events isName legal _ ih =>
      have free := attributes_free legal
      have less : ch '<' ∉ name ++ (attributes.flatMap renderAttribute ++ [ch '/']) := by
        simp only [List.mem_append, List.mem_singleton, not_or]
        exact ⟨not_mem_of_letters isName.2 (by decide), free.1, by decide⟩
      have greater : ch '>' ∉ name ++ (attributes.flatMap renderAttribute ++ [ch '/']) := by
        simp only [List.mem_append, List.mem_singleton, not_or]
        exact ⟨not_mem_of_letters isName.2 (by decide), free.2, by decide⟩
      have tag := scanHeader_tag less greater rest
      rw [ih, scanTag_empty isName legal] at tag
      rw [renderTag, List.append_assoc, List.append_assoc, List.append_assoc]
      rw [List.append_assoc, List.append_assoc] at tag
      exact tag
  | @closing name rest events isName _ ih =>
      have tag := @scanHeader_tag (ch '/' :: name)
        (fun member => (List.mem_cons.mp member).elim (by decide)
          (not_mem_of_letters isName.2 (by decide)))
        (fun member => (List.mem_cons.mp member).elim (by decide)
          (not_mem_of_letters isName.2 (by decide))) rest
      rw [ih, scanTag_closing] at tag
      rw [List.append_assoc, List.append_assoc]
      exact tag
  | @text value rest events some legal _ ih =>
      have isText : value.flatMap (escapeCharacter false) ≠ [] := by
        intro none
        have same := Writer.expand_escape value false
        rw [none] at same
        exact some same.symm
      have scanned := scanHeader_text isText (escaped_free value false).1 rest
      rw [Writer.expand_escape] at scanned
      exact scanned.trans (congrArg _ ih)

end Mmxisf
