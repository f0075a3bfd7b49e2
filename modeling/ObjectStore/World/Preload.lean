import ObjectStore.World.Basic

/-!
This module follows relationships ahead of time. Each node of a preload tree costs one call for all
objects that its relationship leads to. The relationships of one level are under way at the same
time, and below each of them the next level begins as soon as its objects are there. An error ends a
small group of siblings at once, while a large group reports its errors in the order of the siblings.
-/

namespace ObjectStore

/-- The call for one relationship: the entities whose relationship is followed, with the foreign ids
that they had when the call was sent, and these ids, each once. -/
structure BranchCall where
  store : Store
  relation : String
  foreignType : ObjectType
  owners : List (EntityRef × Option String)
  ids : List String

inductive Branch where
  /-- The call is under way until the deadline. The tree is what comes below. -/
  | calling (call : BranchCall) (deadline : Nat) (below : PreloadTree)
  | descending (branches : List Branch)
  | finished
  /-- The branch has ended with an error that no one has been told of. -/
  | failed (error : StoreError)

namespace Branch

instance : Inhabited Branch := ⟨finished⟩

def isFinished : Branch → Bool
  | finished => true
  | _ => false

def ofBranches (branches : List Branch) : Branch :=
  if branches.all isFinished then finished else descending branches

mutual

def deadlines : Branch → List Nat
  | calling _ deadline _ => [deadline]
  | descending branches => allDeadlines branches
  | finished | failed _ => []

def allDeadlines : List Branch → List Nat
  | [] => []
  | b :: bs => b.deadlines ++ allDeadlines bs

end

mutual

def callsLeft : Branch → Nat
  | calling _ _ below => 1 + below.size
  | descending branches => allCallsLeft branches
  | finished | failed _ => 0

def allCallsLeft : List Branch → Nat
  | [] => 0
  | b :: bs => b.callsLeft + allCallsLeft bs

end

end Branch

inductive Reporting where
  /-- Errors are reported at once. -/
  | eager
  /-- Errors are reported in order, and all branches so far have finished. -/
  | inTurn
  /-- Errors are reported in order, and a branch before this one is still under way. -/
  | waiting

namespace Reporting

def eagerLimit : Nat := 30

def ofSize (n : Nat) : Reporting :=
  if n ≤ eagerLimit then eager else inTurn

def next (b : Branch) : Reporting → Reporting
  | inTurn => if b.isFinished then inTurn else waiting
  | reporting => reporting

def hold : Reporting → Except StoreError Branch → Except StoreError Branch
  | waiting, .error e => .ok (.failed e)
  | _, result => result

end Reporting

namespace World

/-- Sends a call to an adapter. It arrives at once, or at the time that is returned. -/
def send (w : World) (a : AdapterRef) (call : AdapterCall) : Option Nat × World :=
  let arrival := ((w.adapter a).latency.map (w.clock + ·)).filter (w.clock < ·)
  (arrival, w.modifyAdapter a fun adapter => adapter.noteCall call)

/-- The call for a relationship of some entities of a type. Entities in which the relationship was
changed are left alone. -/
def branchCall (w : World) (store : Store) (objectType : ObjectType) (owners : List EntityRef)
    (name : String) : Except StoreError BranchCall :=
  match objectType.belongsTo? name with
  | none => .error (.unknownRelationship objectType.name name)
  | some relationship => do
    let foreignType ← store.objectType relationship.foreignType
    let owners := owners.filterMap fun e => ((w.entity e).preloadTarget? name).map ((e, ·))
    return ⟨store, name, foreignType, owners, (owners.filterMap (·.2)).eraseDups⟩

def hydrateFound (w : World) (call : BranchCall) :
    List (String × Option Record) → Except StoreError (List (String × EntityRef)) × World
  | [] => (.ok [], w)
  | (_, none) :: rest => w.hydrateFound call rest
  | (id, some r) :: rest =>
    match w.hydrate call.store call.foreignType r with
    | (.error e, w) => (.error e, w)
    | (.ok e, w) =>
      match w.hydrateFound call rest with
      | (.error err, w) => (.error err, w)
      | (.ok found, w) => (.ok ((id, e) :: found), w)

def cacheFound (w : World) (call : BranchCall) (found : List (String × EntityRef)) : World :=
  call.owners.foldl (fun w (owner, id) =>
    w.modifyEntity owner fun entity =>
      entity.cachePreloaded call.relation (id.bind fun id => found.lookup id)) w

/-- The records for the ids of a call, once it has arrived. Without ids nothing was asked. -/
def branchAnswer (w : World) (call : BranchCall) :
    Except AdapterError (List (Option Record)) :=
  if call.ids.isEmpty then .ok []
  else (w.adapter call.store.adapter).getAll call.foreignType.name call.ids

mutual

def arriveBranch (w : World) (call : BranchCall) :
    PreloadTree → Except StoreError Branch × World
  | .node children =>
    match w.branchAnswer call with
    | .error e => (.error (.adapter e), w)
    | .ok records =>
      match w.hydrateFound call (call.ids.zip records) with
      | (.error e, w) => (.error e, w)
      | (.ok found, w) =>
        let w := w.cacheFound call found
        let next := call.ids.filterMap fun id => found.lookup id
        if next.isEmpty then
          (.ok .finished, w)
        else
          match w.startBranches call.store call.foreignType next (.ofSize children.length)
              children with
          | (.error e, w) => (.error e, w)
          | (.ok branches, w) => (.ok (.ofBranches branches), w)

/-- Begins with some relationships of entities of a type, one after the other, up to the first error
that is reported. -/
def startBranches (w : World) (store : Store) (objectType : ObjectType)
    (owners : List EntityRef) (reporting : Reporting) :
    List (String × PreloadTree) → Except StoreError (List Branch) × World
  | [] => (.ok [], w)
  | (name, below) :: rest =>
    let (branch, w) : Except StoreError Branch × World :=
      match w.branchCall store objectType owners name with
      | .error e => (.error e, w)
      | .ok call =>
        if call.ids.isEmpty then
          w.arriveBranch call below
        else
          match w.send store.adapter (.getAll call.foreignType.name call.ids) with
          | (none, w) => w.arriveBranch call below
          | (some deadline, w) => (.ok (.calling call deadline below), w)
    match reporting.hold branch with
    | .error e => (.error e, w)
    | .ok branch =>
      match w.startBranches store objectType owners (reporting.next branch) rest with
      | (.error e, w) => (.error e, w)
      | (.ok branches, w) => (.ok (branch :: branches), w)

end

mutual

def pollBranch (w : World) : Branch → Except StoreError Branch × World
  | .calling call deadline below =>
    if deadline ≤ w.clock then w.arriveBranch call below
    else (.ok (.calling call deadline below), w)
  | .descending branches =>
    match w.pollBranches (.ofSize branches.length) branches with
    | (.error e, w) => (.error e, w)
    | (.ok branches, w) => (.ok (.ofBranches branches), w)
  | .finished => (.ok .finished, w)
  | .failed e => (.error e, w)

def pollBranches (w : World) (reporting : Reporting) :
    List Branch → Except StoreError (List Branch) × World
  | [] => (.ok [], w)
  | b :: bs =>
    let (branch, w) := w.pollBranch b
    match reporting.hold branch with
    | .error e => (.error e, w)
    | .ok b =>
      match w.pollBranches (reporting.next b) bs with
      | (.error e, w) => (.error e, w)
      | (.ok bs, w) => (.ok (b :: bs), w)

end

end World

end ObjectStore
