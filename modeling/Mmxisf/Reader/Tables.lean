/-
# Reader.Tables -- the Structure of each Table

A Table with no Structure inside takes the one that its Reference names.  The
References are gone through in document order, each sets the Structure of its
Table, and a Table with two of them, or with a Structure and a Reference, is
refused.
-/
import Mmxisf.Reader.Bindings

namespace Mmxisf.Reader

set_option autoImplicit false

/-- A table with its Structure, from the table before the references and the events
of its References. -/
inductive Resolved (standalone : List (Text × Nat)) (table : TableInfo) :
    List TableStructureReferenceEvent → TableInfo → Prop
  | inline : Resolved standalone table [] table
  | byReference (event : TableStructureReferenceEvent) (target : Nat)
      (noneInside : table.structureIndex = none)
      (found : standalone.lookup event.reference = some target) :
      Resolved standalone table [event]
        { table with structureIndex := some target, structureByReference := true }

/-- Each table is resolved with its References so far, and those that have one are
listed. -/
structure ResolvedSoFar (standalone : List (Text × Nat)) (tables : List TableInfo)
    (events : List TableStructureReferenceEvent) (carried : List TableInfo × List Nat) : Prop where
  length : carried.1.length = tables.length
  seen : ∀ event ∈ events, event.tableIndex ∈ carried.2
  resolved : ∀ (i : Nat) (table table' : TableInfo), tables[i]? = some table →
    carried.1[i]? = some table' →
    Resolved standalone table (events.filter fun event => event.tableIndex = i) table'

section

variable {standalone : List (Text × Nat)} {tables : List TableInfo}

theorem resolveStructureReference_keeps {events : List TableStructureReferenceEvent}
    {event : TableStructureReferenceEvent} {carried carried' : List TableInfo × List Nat}
    (soFar : ResolvedSoFar standalone tables events carried)
    (run : resolveStructureReference standalone carried event = .ok carried') :
    ResolvedSoFar standalone tables (events ++ [event]) carried' := by
  obtain ⟨current, seen⟩ := carried
  obtain ⟨length, known, resolved⟩ := soFar
  simp only [resolveStructureReference] at run
  cases there : current[event.tableIndex]? with
  | none =>
      rw [there] at run
      cases run
  | some table' =>
      simp only [there, bind_eq_ok, reject_eq_ok, orFail_eq_ok, not_or, pure, Except.pure,
        Except.ok.injEq] at run
      obtain ⟨-, ⟨new, noneInside⟩, target, found, rfl⟩ := run
      have first : events.filter (fun other => other.tableIndex = event.tableIndex) = [] := by
        rw [List.filter_eq_nil_iff]
        intro other member same
        rw [← of_decide_eq_true same] at new
        exact new (known other member)
      refine ⟨(List.length_set).trans length, ?_, ?_⟩
      · intro other member
        rcases List.mem_append.mp member with earlier | here
        · exact List.mem_cons_of_mem _ (known other earlier)
        · rw [List.mem_singleton.mp here]
          exact List.mem_cons_self
      · intro i table table'' isTable isTable''
        rw [List.filter_append]
        by_cases same : event.tableIndex = i
        · subst same
          have before := resolved _ table table' isTable there
          rw [first] at before ⊢
          cases before
          rw [List.getElem?_set_self (List.getElem?_eq_some_iff.mp there).1,
            Option.some.injEq] at isTable''
          subst isTable''
          rw [List.filter_singleton, decide_eq_true rfl, cond_true, List.nil_append]
          exact .byReference event target (by simpa using noneInside) found
        · rw [List.getElem?_set_ne same] at isTable''
          have other : [event].filter (fun event => event.tableIndex = i) = [] := by simp [same]
          rw [other, List.append_nil]
          exact resolved i table table'' isTable isTable''

theorem foldl_resolve {rest events : List TableStructureReferenceEvent}
    {carried carried' : List TableInfo × List Nat}
    (soFar : ResolvedSoFar standalone tables events carried)
    (run : rest.foldlM (resolveStructureReference standalone) carried = .ok carried') :
    ResolvedSoFar standalone tables (events ++ rest) carried' := by
  induction rest generalizing events carried with
  | nil =>
      cases run
      rw [List.append_nil]
      exact soFar
  | cons event rest ih =>
      simp only [List.foldlM_cons, bind_eq_ok] at run
      obtain ⟨next, step, run⟩ := run
      rw [List.append_cons]
      exact ih (resolveStructureReference_keeps soFar step) run

end

/-- The tables of the document are those of the parser, resolved. -/
structure TablesResolved (state : XmlBuilder) (tables : List TableInfo) : Prop where
  length : tables.length = state.tables.length
  resolved : ∀ (i : Nat) (table table' : TableInfo), state.tables[i]? = some table →
    tables[i]? = some table' → Resolved state.standaloneStructureUids table
      (state.tableStructureReferences.filter fun event => event.tableIndex = i) table'

theorem resolveStructureReferences_eq {state : XmlBuilder} {tables : List TableInfo}
    (run : resolveStructureReferences state = .ok tables) : TablesResolved state tables := by
  simp only [resolveStructureReferences, bind_eq_ok, pure, Except.pure, Except.ok.injEq] at run
  obtain ⟨carried, run, rfl⟩ := run
  have start : ResolvedSoFar state.standaloneStructureUids state.tables [] (state.tables, []) := by
    refine ⟨rfl, by simp, fun i table table' there there' => ?_⟩
    obtain rfl : table = table' := Option.some.inj (there.symm.trans there')
    exact .inline
  have done := foldl_resolve start run
  exact ⟨done.length, done.resolved⟩

/-- The Reference of a table, and its only one. -/
theorem TablesResolved.of_event {state : XmlBuilder} {tables : List TableInfo}
    (resolved : TablesResolved state tables) {event : TableStructureReferenceEvent}
    (member : event ∈ state.tableStructureReferences)
    (small : event.tableIndex < state.tables.length) :
    ∃ table target, state.tables[event.tableIndex]? = some table ∧ table.structureIndex = none ∧
      (state.tableStructureReferences.filter fun other => other.tableIndex = event.tableIndex) =
        [event] ∧
      state.standaloneStructureUids.lookup event.reference = some target ∧
      tables[event.tableIndex]? =
        some { table with structureIndex := some target, structureByReference := true } := by
  have there := List.getElem?_eq_getElem small
  obtain ⟨table', there'⟩ : ∃ table', tables[event.tableIndex]? = some table' :=
    ⟨_, List.getElem?_eq_getElem (by rw [resolved.length]; exact small)⟩
  have step := resolved.resolved _ _ _ there there'
  have here : event ∈ state.tableStructureReferences.filter fun other =>
      other.tableIndex = event.tableIndex := List.mem_filter.mpr ⟨member, decide_eq_true rfl⟩
  generalize only : (state.tableStructureReferences.filter fun other =>
    other.tableIndex = event.tableIndex) = events at step here
  cases step with
  | inline => cases here
  | byReference event' target noneInside found =>
      obtain rfl := List.mem_singleton.mp here
      exact ⟨_, target, there, noneInside, rfl, found, there'⟩

/-- What the resolution does not touch. -/
theorem TablesResolved.map_eq {state : XmlBuilder} {tables : List TableInfo} {β : Type}
    (resolved : TablesResolved state tables) (key : TableInfo → β)
    (same : ∀ (table : TableInfo) (index : Nat),
      key { table with structureIndex := some index, structureByReference := true } = key table) :
    tables.map key = state.tables.map key := by
  apply List.ext_getElem?
  intro i
  rw [List.getElem?_map, List.getElem?_map]
  cases there : tables[i]? with
  | none =>
      have beyond : state.tables[i]? = none := by
        rw [List.getElem?_eq_none_iff] at there ⊢
        rw [← resolved.length]
        exact there
      rw [beyond]
  | some table' =>
      have small := (List.getElem?_eq_some_iff.mp there).1
      rw [resolved.length] at small
      have here := List.getElem?_eq_getElem small
      rw [here, Option.map_some, Option.map_some]
      congr 1
      have step := resolved.resolved i _ table' here there
      generalize state.tableStructureReferences.filter (fun event => event.tableIndex = i) = events
        at step
      cases step with
      | inline => rfl
      | byReference => exact same _ _

/-! ## From the outline -/

/-- The Structures that have no Table around them. -/
def standaloneStructures (outline : HeaderOutline) : List HeaderElement :=
  (outline.ofKind (isKind .tableStructure)).filter isStandalone

section

variable {outline : HeaderOutline} {state : XmlBuilder} {reference : HeaderElement}

theorem Registered.standaloneUids (registered : Registered outline state) :
    state.standaloneStructureUids =
      (standaloneStructures outline).flatMap (uidAt outline (isKind .tableStructure)) := by
  have same : state.standaloneStructureUids = (Register.of outline).standaloneUids :=
    congrArg Register.standaloneUids registered.same
  have standalone (element : HeaderElement) :
      (contribution outline element).standaloneUids = ofKindOnly
      (isKind .tableStructure) element.tag
        (if isStandalone element then uidAt outline (isKind .tableStructure) element else []) := by
    show (if isStandalone element then ofKindOnly (isKind .tableStructure) element.tag
      (uidAt outline (isKind .tableStructure) element) else []) = _
    rw [ofKindOnly, ofKindOnly]
    split <;> split <;> rfl
  rw [same, Register.field_of_kind Register.standaloneUids (fun _ _ => rfl) rfl
    (isKind .tableStructure) _ standalone, standaloneStructures]
  induction outline.ofKind (isKind .tableStructure) with
  | nil => rfl
  | cons element rest ih =>
      rw [List.flatMap_cons, ih, List.filter_cons]
      split <;> simp

/-- What a Reference in a Table finds. -/
theorem Registered.lookup_standalone (registered : Registered outline state) {text : Text}
    (refers : referenceOf reference.tag = some text) {index : Nat}
    (found : state.standaloneStructureUids.lookup text = some index) :
    ∃ target ∈ outline.ofKind (isKind .tableStructure), isStandalone target = true ∧
      names reference target = true ∧
      positionOf outline (isKind .tableStructure) target = index := by
  have sub : ((standaloneStructures outline).filterMap fun element =>
      declaredUid element.tag).Nodup :=
    registered.uids.sublist ((List.filter_sublist.trans List.filter_sublist).filterMap _)
  have here : index ∈ ((standaloneStructures outline).filter fun element =>
      decide (declaredUid element.tag = some text)).map
        (positionOf outline (isKind .tableStructure)) := by
    rw [← Library.lookup_directory sub, Option.mem_toList]
    rw [registered.standaloneUids] at found
    exact found
  obtain ⟨target, member, position⟩ := List.mem_map.mp here
  obtain ⟨standalone, declared⟩ := List.mem_filter.mp member
  obtain ⟨inside, isStandalone⟩ := List.mem_filter.mp standalone
  exact ⟨target, inside, isStandalone, names_iff.mpr ⟨text, refers, of_decide_eq_true declared⟩,
    position⟩

theorem Registered.structureReferences (registered : Registered outline state) :
    state.tableStructureReferences = outline.elements.flatMap (structureReferencesOf outline) := by
  have same := (congrArg Register.structureReferences registered.same).trans
    (Register.field_of Register.structureReferences (fun _ _ => rfl) rfl)
  refine same.trans ?_
  congr 1
  funext element
  exact List.append_nil _

end

end Mmxisf.Reader
