import SceneLogic.Proofs.Event.Reading

/-!
# Events as elements

An element is the value that an event is written as, with the members of every object in
order.  The reader takes an event from its document as it takes it from the value of the
document, so events and trees are read back from their elements.

## Main definitions

* `Event.toElement?`, `Event.ofElement?`, `EventTree.toElement?`, `EventTree.ofElement?`

## Main statements

* `Event.ofDocument?_of_canonical?` — what is read from a document is read from its value.
* `elements_read_back` — every event and every tree is read back from its element.
-/

namespace SceneLogic

open Json

namespace Event

/-- The element that an event is written as. -/
def toElement? (event : Event) : Option Value := Value.ofDocument? event.toDocument

/-- The event that an element gives. -/
def ofElement? (element : Value) : Option Event := ofDocument? element.document

/-- Within any bound, what is read from a document is read from its value. -/
theorem steady_read? (depth : Nat) (numbered : Bool) :
    Document.Steady fun document event => read? depth numbered document = some event := by
  induction depth generalizing numbered with
  | zero => exact fun _ _ _ _ hread => nomatch hread
  | succ depth ih =>
    intro document value event hvalue hread
    obtain ⟨record, hgives, hkind, hevent⟩ := read?_succ_eq_some_iff.1 hread
    obtain ⟨other, hother, halike⟩ := hgives.of_canonical? hvalue
    refine read?_succ_eq_some_iff.2 ⟨other, hother,
      (halike "type" (List.mem_cons_self ..)).required (EventKind.steady_ofTag? numbered) hkind,
      ?_⟩
    have hfields : ∀ field ∈ event.kind.fields, record.AlikeAt other field :=
      fun field hfield => halike field (List.mem_cons_of_mem _ hfield)
    rw [← event.withChildren_children]
    exact hevent.withChildren (fun field hfield _ => hfields field hfield)
      fun hfield hlists => hlists.of_alike (hfields "events" hfield) (ih true)

/-- **What is read from a document is read from its value.** -/
theorem ofDocument?_of_canonical? {document value : Document} {event : Event}
    (hread : ofDocument? document = some event) (hvalue : document.canonical? = some value) :
    ofDocument? value = some event := by
  rw [ofDocument?_eq_some_iff] at hread ⊢
  have hcanonical := Document.canonical_of_canonical? hvalue
  exact ⟨Document.readable_of_canonical? (Document.canonical?_of_canonical hcanonical),
    read?_of_depth_le (steady_read? _ false hvalue hread.2) (Nat.le_refl _)⟩

end Event

namespace EventTree

/-- The element that a tree is written as. -/
def toElement? (tree : EventTree) : Option Value := Value.ofDocument? (toDocument tree)

/-- The tree that an element gives. -/
def ofElement? (element : Value) : Option EventTree := ofDocument? element.document

theorem readable_toDocument (tree : EventTree) : (toDocument tree).readable = true :=
  Event.readableItems_toDocuments tree

/-- What tree is read from a document is read from its value. -/
theorem ofDocument?_of_canonical? {document value : Document} {tree : EventTree}
    (hread : ofDocument? document = some tree) (hvalue : document.canonical? = some value) :
    ofDocument? value = some tree :=
  Document.Steady.list? (fun _ _ _ hvalue hread => Event.ofDocument?_of_canonical? hread hvalue)
    hvalue hread

end EventTree

/-- **Events and trees are read back from their elements**: each is written as an element,
and that element gives the same event or the same tree again. -/
theorem elements_read_back :
    (∀ event : Event, ∃ element, event.toElement? = some element ∧
      Event.ofElement? element = some event) ∧
    ∀ tree : EventTree, ∃ element, EventTree.toElement? tree = some element ∧
      EventTree.ofElement? element = some tree := by
  constructor
  · intro event
    obtain ⟨element, helement⟩ := Value.exists_ofDocument? event.readable_toDocument
    have hvalue := Value.ofDocument?_eq_some_iff.1 helement
    exact ⟨element, helement, Event.ofDocument?_of_canonical? event.ofDocument?_toDocument hvalue⟩
  · intro tree
    obtain ⟨element, helement⟩ := Value.exists_ofDocument? (EventTree.readable_toDocument tree)
    have hvalue := Value.ofDocument?_eq_some_iff.1 helement
    exact ⟨element, helement,
      EventTree.ofDocument?_of_canonical? (EventTree.ofDocument?_toDocument tree) hvalue⟩

end SceneLogic
