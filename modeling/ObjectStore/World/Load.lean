import ObjectStore.World.Preload

/-!
This module contains the loads of related objects. All that ask for an object while it is being loaded
wait for the same load, and whichever goes on first after its call has arrived completes it for all.
-/

namespace ObjectStore.World

def load? (w : World) (l : LoadRef) : Option Load :=
  w.loads[l]?

def settleLoad (w : World) (l : LoadRef) (result : Except StoreError (Option EntityRef)) : World :=
  match w.load? l with
  | none => w
  | some load =>
    let w := w.modifyEntity load.owner fun entity => entity.finishLoad load.relation l result
    { w with loads := w.loads.modify l fun load => { load with state := .settled result } }

def arriveLoad (w : World) (l : LoadRef) (load : Load) : World :=
  match (w.adapter load.store.adapter).get load.foreignType.name load.id with
  | .error e => w.settleLoad l (.error (.adapter e))
  | .ok r =>
    let (result, w) := w.hydrate? load.store load.foreignType r
    w.settleLoad l result

def pollLoad (w : World) (l : LoadRef) : World :=
  match w.load? l with
  | some load =>
    match load.state with
    | .underWay deadline => if deadline ≤ w.clock then w.arriveLoad l load else w
    | .settled _ => w
  | none => w

def loadResult? (w : World) (l : LoadRef) : Option (Except StoreError (Option EntityRef)) :=
  match w.load? l with
  | some load =>
    match load.state with
    | .settled result => some result
    | .underWay _ => none
  | none => none

def startLoad (w : World) (e : EntityRef) (name foreignType id : String) : LoadRef × World :=
  let store := (w.entity e).store
  let l := w.loads.size
  let w := w.modifyEntity e fun entity => entity.setLink name (.loading l)
  match store.objectType foreignType with
  | .error err =>
    let w := { w with loads := w.loads.push ⟨e, name, store, .ofName foreignType, id, .underWay 0⟩ }
    (l, w.settleLoad l (.error err))
  | .ok objectType =>
    let (arrival, w) := w.send store.adapter (.get foreignType id)
    let load := ⟨e, name, store, objectType, id, .underWay (arrival.getD w.clock)⟩
    (l, ({ w with loads := w.loads.push load }).pollLoad l)

inductive RelatedAnswer where
  | known (target : Option EntityRef)
  | waiting (load : LoadRef)

/-- Asks for the object of a relationship. If it is not known, it is loaded, unless the relationship
points at nothing. -/
def askRelated (w : World) (e : EntityRef) (name : String) :
    Except StoreError RelatedAnswer × World :=
  let entity := w.entity e
  match entity.relationship name with
  | .error err => (.error err, w)
  | .ok relationship =>
    match entity.links.get? name with
    | some (.resolved target) => (.ok (.known target), w)
    | some (.loading l) => (.ok (.waiting l), w)
    | none =>
      match entity.foreignId? name with
      | none =>
        (.ok (.known none), w.modifyEntity e fun entity => entity.setLink name (.resolved none))
      | some id =>
        let (l, w) := w.startLoad e name relationship.foreignType id
        (.ok (.waiting l), w)

end ObjectStore.World
