import SceneLogic.Instance
import SceneLogic.Objects.Handle

/-!
# The store of instances

Instances live in numbered slots.  A slot whose instance was destroyed is used
again, the one vacated last first, and only when no slot is vacant does the store
grow.  Slots and generations are numbered with 32 bits, and generations wrap.

## Main definitions

* `Store` — slots, vacant slots and the number of instances.
* `Store.insert`, `Store.create`, `Store.destroy`, `Store.modify` — the updates.
* `Store.get?`, `Store.entries`, `Store.instancesOf` — the views.

## Main statements

* `Store.isAlive_iff` — a handle is alive when it names an instance.
-/

namespace SceneLogic

/-- A place for an instance, with the generation that handles to it must have. -/
structure Slot where
  generation : UInt32
  content : Option Instance
deriving DecidableEq

/-- The instances of a scene.  `vacant` lists the vacant slots, the one to use next
at the front; `live` is the number of instances. -/
structure Store where
  slots : List Slot
  vacant : List UInt32
  live : Nat
deriving DecidableEq

namespace Store

/-- The store without slots. -/
def empty : Store := ⟨[], [], 0⟩

instance : EmptyCollection Store := ⟨empty⟩
instance : Inhabited Store := ⟨empty⟩

/-- The slot that a handle names, if its generation is the handle's. -/
def slot? (store : Store) (handle : Handle) : Option Slot :=
  store.slots[handle.slot.toNat]?.filter (·.generation = handle.generation)

/-- The instance that a handle names. -/
def get? (store : Store) (handle : Handle) : Option Instance :=
  (store.slot? handle).bind (·.content)

/-- Whether a handle names an instance. -/
def isAlive (store : Store) (handle : Handle) : Bool := (store.get? handle).isSome

/-- The number of a slot, as far as 32 bits go. -/
def slotNumber (index : Nat) : UInt32 := UInt32.ofNat (min index (UInt32.size - 1))

/-- Put an instance into the store; the handle names it. -/
def insert (store : Store) (item : Instance) : Handle × Store :=
  match store.vacant with
  | slot :: vacant =>
    let generation := (store.slots[slot.toNat]?.map (·.generation)).getD 0
    (⟨slot, generation⟩,
      { slots := store.slots.modify slot.toNat fun slot => { slot with content := some item }
        vacant
        live := store.live + 1 })
  | [] =>
    (⟨slotNumber store.slots.length, 0⟩,
      { slots := store.slots ++ [⟨0, some item⟩]
        vacant := []
        live := store.live + 1 })

/-- Put an instance of an object, without variables, into the store. -/
def create (store : Store) (object : String) : Handle × Store :=
  store.insert (.ofObject object)

/-- Take the instance that a handle names out of the store. -/
def destroy (store : Store) (handle : Handle) : Option Instance × Store :=
  match store.get? handle with
  | none => (none, store)
  | some item =>
    (some item,
      { slots := store.slots.set handle.slot.toNat ⟨handle.generation + 1, none⟩
        vacant := handle.slot :: store.vacant
        live := store.live - 1 })

/-- Change the instance that a handle names; nothing changes if it names none. -/
def modify (store : Store) (handle : Handle) (change : Instance → Instance) : Store :=
  if store.isAlive handle then
    { store with
      slots := store.slots.modify handle.slot.toNat fun slot =>
        { slot with content := slot.content.map change } }
  else store

/-- Whether the store holds no instance. -/
def isEmpty (store : Store) : Bool := store.live = 0

/-- The instance in a slot with its handle, if there is one. -/
def entry? (slot : Slot) (index : Nat) : Option (Handle × Instance) :=
  slot.content.map fun item => (⟨UInt32.ofNat index, slot.generation⟩, item)

/-- All instances with their handles, in the order of their slots. -/
def entries (store : Store) : List (Handle × Instance) :=
  store.slots.zipIdx.filterMap fun (slot, index) => entry? slot index

/-- The handles of the instances of an object, in the order of their slots. -/
def instancesOf (store : Store) (object : String) : List Handle :=
  (store.entries.filter (·.2.object = object)).map (·.1)

/-- A handle is alive exactly when it names an instance. -/
theorem isAlive_iff {store : Store} {handle : Handle} :
    store.isAlive handle = true ↔ ∃ item, store.get? handle = some item :=
  Option.isSome_iff_exists

/-- Destroying yields what the handle named. -/
@[simp] theorem destroy_fst (store : Store) (handle : Handle) :
    (store.destroy handle).1 = store.get? handle := by
  unfold destroy
  split <;> simp_all

/-- A handle that names nothing changes nothing. -/
theorem destroy_of_dead {store : Store} {handle : Handle} (dead : store.get? handle = none) :
    (store.destroy handle).2 = store := by
  simp [destroy, dead]

end Store

end SceneLogic
