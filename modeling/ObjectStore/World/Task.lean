import ObjectStore.World.Batch
import ObjectStore.World.Load

/-!
This module contains tasks, the operations that need calls to an adapter. A task is started, which takes
it to its first call that does not arrive at once, and goes on only when it is polled. `run` polls a
task to its end and lets the clock jump to the next arrival whenever there is nothing else to do.
-/

namespace ObjectStore

inductive Request where
  | get (store : Store) (typeName id : String)
  | getAll (store : Store) (typeName : String) (ids : List String)
  | related (e : EntityRef) (name : String)
  | save (e : EntityRef)
  | destroy (e : EntityRef)
  | reload (e : EntityRef)
  | execute (b : Batch)
  | fetch (q : Query)
  | first (q : Query)
  | count (q : Query)
  | explain (q : Query)
  | fetchWithDisplay (q : Query) (formats : Option (List DisplayFormat))
  | readRecord (a : AdapterRef) (typeName id : String)
  | readRecords (a : AdapterRef) (typeName : String) (ids : List String)
  | readQuery (q : Query)
  | writeOps (a : AdapterRef) (ops : List WriteOp)

inductive Outcome where
  | done
  | entity (e : Option EntityRef)
  | entities (es : List EntityRef)
  | slots (es : List (Option EntityRef))
  | count (n : Nat)
  | document (j : Json)
  | record (r : Option Record)
  | records (rs : List Record)
  | recordSlots (rs : List (Option Record))
  | results (rs : List Adapter.WriteResult)

inductive Job where
  | get (store : Store) (objectType : ObjectType) (id : String)
  | getAll (store : Store) (objectType : ObjectType) (ids : List String)
  | reload (e : EntityRef)
  /-- A write for a single entity reports the first error only. -/
  | write (d : Dispatch) (single : Bool)
  | fetch (q : Query) (single : Bool)
  | count (q : Query)
  | explain (q : Query)
  | readRecord (a : AdapterRef) (typeName id : String)
  | readRecords (a : AdapterRef) (typeName : String) (ids : List String)
  | readQuery (q : Query)
  | writeOps (a : AdapterRef) (ops : List WriteOp)

inductive Task where
  | finished (result : Except StoreError Outcome)
  /-- The call of the job is under way until the deadline. -/
  | calling (job : Job) (deadline : Nat)
  | joining (load : LoadRef)
  /-- The results of a query are there, and their relationships are being followed. -/
  | preloading (es : List EntityRef) (branches : List Branch) (single : Bool)

namespace Job

def adapter (w : World) : Job → AdapterRef
  | get store .. | getAll store .. => store.adapter
  | reload e => (w.entity e).store.adapter
  | write d _ => d.adapter
  | fetch q _ | count q | explain q | readQuery q => q.store.adapter
  | readRecord a .. | readRecords a .. | writeOps a _ => a

def call (w : World) : Job → AdapterCall
  | get _ objectType id => .get objectType.name id
  | getAll _ objectType ids => .getAll objectType.name ids
  | reload e => .get (w.entity e).typeName (w.entity e).id
  | write d _ => .apply d.ops.length
  | fetch q _ | readQuery q => .query q.objectType.name
  | count q => .count q.objectType.name
  | explain q => .explain q.objectType.name
  | readRecord _ typeName id => .get typeName id
  | readRecords _ typeName ids => .getAll typeName ids
  | writeOps _ ops => .apply ops.length

end Job

namespace Task

def isFinished : Task → Bool
  | finished _ => true
  | _ => false

def answered {α : Type} (f : α → Outcome) : Except AdapterError α → Task
  | .ok a => finished (.ok (f a))
  | .error e => finished (.error (.adapter e))

def found (es : List EntityRef) (single : Bool) : Task :=
  finished (.ok (if single then .entity es.head? else .entities es))

end Task

namespace World

/-- The warning for a query that an adapter answers. Adapters that are offline look at no query. -/
def warnOf (w : World) (q : Query) : World :=
  if (w.adapter q.store.adapter).offline then w else w.warn q.warning?

def reloadWith (w : World) (e : EntityRef) (r : Option Record) : Except StoreError Unit × World :=
  match r with
  | none => (.error (.adapter (.notFound (w.entity e).identity)), w)
  | some r => w.tryModify e fun entity => entity.rehydrate r

def startPreload (w : World) (q : Query) (es : List EntityRef) (single : Bool) : Task × World :=
  if es.isEmpty then
    (.found es single, w)
  else
    let children := q.preload.children
    match w.startBranches q.store q.objectType es (.ofSize children.length) children with
    | (.error e, w) => (.finished (.error e), w)
    | (.ok branches, w) =>
      if branches.all Branch.isFinished then (.found es single, w)
      else (.preloading es branches single, w)

def applyDispatch (w : World) (d : Dispatch) : Except StoreError Unit × World :=
  let (answer, adapter) := (w.adapter d.adapter).applyBatch d.ops
  d.settle (w.modifyAdapter d.adapter fun _ => adapter) answer

def arrive (w : World) (job : Job) : Task × World :=
  match job with
  | .get store objectType id =>
    match (w.adapter store.adapter).get objectType.name id with
    | .error e => (.finished (.error (.adapter e)), w)
    | .ok r =>
      let (result, w) := w.hydrate? store objectType r
      (.finished (result.map .entity), w)
  | .getAll store objectType ids =>
    match (w.adapter store.adapter).getAll objectType.name ids with
    | .error e => (.finished (.error (.adapter e)), w)
    | .ok rs =>
      let (result, w) := w.hydrateAll store objectType rs
      (.finished (result.map .slots), w)
  | .reload e =>
    let entity := w.entity e
    match (w.adapter entity.store.adapter).get entity.typeName entity.id with
    | .error e => (.finished (.error (.adapter e)), w)
    | .ok r =>
      let (result, w) := w.reloadWith e r
      (.finished (result.map fun _ => .done), w)
  | .write d single =>
    let (result, w) := w.applyDispatch d
    let result := if single then result.mapError StoreError.collapse else result
    (.finished (result.map fun _ => .done), w)
  | .fetch q single =>
    let answer := (w.adapter q.store.adapter).query q
    let w := w.warnOf q
    match answer with
    | .error e => (.finished (.error (.adapter e)), w)
    | .ok rs =>
      match w.hydrateAll q.store q.objectType (rs.map some) with
      | (.error e, w) => (.finished (.error e), w)
      | (.ok es, w) => w.startPreload q (es.filterMap id) single
  | .count q => (.answered .count ((w.adapter q.store.adapter).count q), w.warnOf q)
  | .explain q => (.answered .document ((w.adapter q.store.adapter).explain q), w.warnOf q)
  | .readRecord a typeName id => (.answered .record ((w.adapter a).get typeName id), w)
  | .readRecords a typeName ids => (.answered .recordSlots ((w.adapter a).getAll typeName ids), w)
  | .readQuery q => (.answered .records ((w.adapter q.store.adapter).query q), w.warnOf q)
  | .writeOps a ops =>
    let (answer, adapter) := (w.adapter a).applyBatch ops
    (.answered .results answer, w.modifyAdapter a fun _ => adapter)

def call (w : World) (job : Job) : Task × World :=
  match w.send (job.adapter w) (job.call w) with
  | (none, w) => w.arrive job
  | (some deadline, w) => (.calling job deadline, w)

def execute (w : World) (b : Batch) (single : Bool) : Task × World :=
  match b.depart w with
  | (none, w) => (.finished (.ok .done), w)
  | (some d, w) => w.call (.write d single)

theorem execute_of_plan_eq_nil {w : World} {b : Batch} (h : b.plan w = []) (single : Bool)
    : w.execute b single = (.finished (.ok .done), (b.dispatch w).destroyLocally w) := by
  unfold execute
  rw [Batch.depart_of_plan_eq_nil h]

theorem execute_of_plan_ne_nil {w : World} {b : Batch} (h : b.plan w ≠ []) (single : Bool)
    : w.execute b single = w.call (.write (b.dispatch w) single) := by
  unfold execute
  rw [Batch.depart_of_plan_ne_nil h]

def callForType (w : World) (store : Store) (typeName : String) (job : ObjectType → Job) :
    Task × World :=
  match store.objectType typeName with
  | .error e => (.finished (.error e), w)
  | .ok objectType => w.call (job objectType)

def pollJoining (w : World) (l : LoadRef) : Task × World :=
  let w := w.pollLoad l
  match w.loadResult? l with
  | some result => (.finished (result.map .entity), w)
  | none => (.joining l, w)

def start (w : World) (request : Request) : Task × World :=
  match request with
  | .get store typeName id => w.callForType store typeName fun t => .get store t id
  | .getAll store typeName ids => w.callForType store typeName fun t => .getAll store t ids
  | .related e name =>
    match w.askRelated e name with
    | (.error err, w) => (.finished (.error err), w)
    | (.ok (.known target), w) => (.finished (.ok (.entity target)), w)
    | (.ok (.waiting l), w) => w.pollJoining l
  | .save e =>
    match (Batch.empty (w.entity e).store).save w e with
    | .error err => (.finished (.error err), w)
    | .ok b => w.execute b true
  | .destroy e =>
    match (Batch.empty (w.entity e).store).destroy w e with
    | .error err => (.finished (.error err), w)
    | .ok b => w.execute b true
  | .reload e =>
    let entity := w.entity e
    if entity.destroyed then (.finished (.error (.destroyed entity.identity)), w)
    else w.call (.reload e)
  | .execute b => w.execute b false
  | .fetch q => w.call (.fetch q false)
  | .first q => w.call (.fetch q.first true)
  | .count q => w.call (.count q)
  | .explain q => w.call (.explain q)
  | .fetchWithDisplay q formats =>
    match q.withDisplay formats with
    | .error e => (.finished (.error e), w)
    | .ok q => w.call (.fetch q false)
  | .readRecord a typeName id => w.call (.readRecord a typeName id)
  | .readRecords a typeName ids => w.call (.readRecords a typeName ids)
  | .readQuery q => w.call (.readQuery q)
  | .writeOps a ops => w.call (.writeOps a ops)

def poll (w : World) (t : Task) : Task × World :=
  match t with
  | .finished result => (.finished result, w)
  | .calling job deadline => if deadline ≤ w.clock then w.arrive job else (.calling job deadline, w)
  | .joining l => w.pollJoining l
  | .preloading es branches single =>
    match w.pollBranches (.ofSize branches.length) branches with
    | (.error e, w) => (.finished (.error e), w)
    | (.ok branches, w) =>
      if branches.all Branch.isFinished then (.found es single, w)
      else (.preloading es branches single, w)

def deadlines (w : World) : Task → List Nat
  | .finished _ => []
  | .calling _ deadline => [deadline]
  | .joining l =>
    match w.load? l with
    | some load =>
      match load.state with
      | .underWay deadline => [deadline]
      | .settled _ => []
    | none => []
  | .preloading _ branches _ => Branch.allDeadlines branches

def callsLeft : Task → Nat
  | .finished _ => 0
  | .calling (.fetch q _) _ => 1 + q.preload.size
  | .calling .. | .joining _ => 1
  | .preloading _ branches _ => Branch.allCallsLeft branches

def advance (w : World) (times : List Nat) : World :=
  match times.min? with
  | some time => { w with clock := max w.clock time }
  | none => w

/-- Runs a task to its end. In every round at least one call arrives. -/
def run (w : World) (t : Task) : Task × World :=
  go (callsLeft t + 1) w t
where
  go : Nat → World → Task → Task × World
    | 0, w, t => (t, w)
    | rounds + 1, w, t =>
      match w.poll t with
      | (.finished result, w) => (.finished result, w)
      | (t, w) => go rounds (w.advance (w.deadlines t)) t

end World

end ObjectStore
