import ObjectStore.Proofs.Calendar.RoundTrip
import ObjectStore.Proofs.World.WellTyped

/-!
This module follows the values of attributes through everything that can be done with the objects of one
schema. It proves that entities only have values which their types hold if and only if the default values
of the schema are such values: these are the only ones that nobody casts.
-/

namespace ObjectStore

structure ValueSession where
  world : World
  tasks : List Task

def Query.Within (schema : Schema) (q : Query) : Prop :=
  q.store.schema = schema ∧ ∃ typeName, schema.get? typeName = some q.objectType

/-- The request is for objects of the schema, or about entities that are there. -/
def Request.Within (schema : Schema) : Request → Prop
  | get store .. | getAll store .. => store.schema = schema
  | fetch q | first q | fetchWithDisplay q _ => q.Within schema
  | _ => True

namespace ValueSession

/-- The steps, in any order and with any tasks under way. Whatever else happens to the world, such as
time that passes and records that others write, happens outside of the entities. -/
inductive Step (schema : Schema) : ValueSession → ValueSession → Prop where
  | create {w : World} {tasks : List Task} {store : Store} (hstore : store.schema = schema)
    (typeName : String) : Step schema ⟨w, tasks⟩ ⟨(w.create store typeName).2, tasks⟩
  | build {w : World} {tasks : List Task} {store : Store} (hstore : store.schema = schema)
    (r : Record) : Step schema ⟨w, tasks⟩ ⟨(w.build store r).2, tasks⟩
  | set {w : World} {tasks : List Task} (e : EntityRef) (name : String) (v : Value)
    : Step schema ⟨w, tasks⟩ ⟨(w.set e name v).2, tasks⟩
  | setRelated {w : World} {tasks : List Task} (e : EntityRef) (name : String)
    (target : Option EntityRef) : Step schema ⟨w, tasks⟩ ⟨(w.setRelated e name target).2, tasks⟩
  | setRelatedId {w : World} {tasks : List Task} (e : EntityRef) (name : String)
    (id : Option String) : Step schema ⟨w, tasks⟩ ⟨(w.setRelatedId e name id).2, tasks⟩
  | hasMany {w : World} {tasks : List Task} (e : EntityRef) (name : String)
    : Step schema ⟨w, tasks⟩ ⟨(w.hasMany e name).2, tasks⟩
  | copyAs {w : World} {tasks : List Task} (e : EntityRef) (typeName : Option String)
    : Step schema ⟨w, tasks⟩ ⟨(w.copyAs e typeName).2, tasks⟩
  | start {w : World} {tasks : List Task} {request : Request} (hrequest : request.Within schema)
    : Step schema ⟨w, tasks⟩ ⟨(w.start request).2, tasks ++ [(w.start request).1]⟩
  | poll {w : World} {before after : List Task} {t : Task}
    : Step schema ⟨w, before ++ t :: after⟩ ⟨(w.poll t).2, before ++ (w.poll t).1 :: after⟩
  | drop {w : World} {before after : List Task} {t : Task}
    : Step schema ⟨w, before ++ t :: after⟩ ⟨w, before ++ after⟩
  | outside {w w' : World} {tasks : List Task} (hentities : w'.entities = w.entities)
    (hloads : w'.loads = w.loads) : Step schema ⟨w, tasks⟩ ⟨w', tasks⟩

/-- What can be reached from a world with nothing in memory. -/
inductive Reached (schema : Schema) : ValueSession → Prop where
  | fresh {w : World} (hentities : w.entities = #[]) (hloads : w.loads = #[]) : Reached schema ⟨w, []⟩
  | step {s s' : ValueSession} (hs : Reached schema s) (hstep : Step schema s s') : Reached schema s'

structure Typed (s : ValueSession) : Prop where
  world : s.world.Typed
  tasks : ∀ t ∈ s.tasks, t.Typed

variable {schema : Schema} {s s' : ValueSession} {request : Request}

theorem typed_of_within {q : Query} (hschema : schema.Typed) (h : q.Within schema) : q.Typed := by
  obtain ⟨rfl, typeName, htype⟩ := h
  exact ⟨hschema, hschema typeName _ htype⟩

theorem typed_of_request (hschema : schema.Typed) (h : request.Within schema) : request.Typed := by
  cases request with
  | get store typeName id =>
    cases h
    exact hschema
  | getAll store typeName ids =>
    cases h
    exact hschema
  | fetch q | first q | fetchWithDisplay q formats => exact typed_of_within hschema h
  | _ => trivial

theorem Typed.step (h : s.Typed) (hschema : schema.Typed) (hstep : Step schema s s') : s'.Typed := by
  cases hstep with
  | create hstore typeName => exact ⟨h.world.create (hstore ▸ hschema) typeName, h.tasks⟩
  | build hstore r => exact ⟨h.world.build (hstore ▸ hschema) r, h.tasks⟩
  | set e name v => exact ⟨h.world.set e name v, h.tasks⟩
  | setRelated e name target => exact ⟨h.world.setRelated e name target, h.tasks⟩
  | setRelatedId e name id => exact ⟨h.world.setRelatedId e name id, h.tasks⟩
  | hasMany e name => exact ⟨h.world.hasMany e name, h.tasks⟩
  | copyAs e typeName => exact ⟨h.world.copyAs e typeName, h.tasks⟩
  | start hrequest =>
    obtain ⟨hstarted, hworld⟩ := h.world.start (typed_of_request hschema hrequest)
    refine ⟨hworld, ?_⟩
    intro t ht
    rcases List.mem_append.1 ht with ht | ht
    . exact h.tasks t ht
    . rw [List.mem_singleton.1 ht]
      exact hstarted
  | @poll w before after t =>
    obtain ⟨hpolled, hworld⟩ := h.world.poll (h.tasks t (by simp))
    refine ⟨hworld, ?_⟩
    intro t' ht'
    rcases List.mem_append.1 ht' with ht' | ht'
    . exact h.tasks t' (List.mem_append_left _ ht')
    . rcases List.mem_cons.1 ht' with rfl | ht'
      . exact hpolled
      . exact h.tasks t' (List.mem_append_right _ (List.mem_cons_of_mem _ ht'))
  | @drop w before after t =>
    refine ⟨h.world, ?_⟩
    intro t' ht'
    exact h.tasks t' (((List.sublist_cons_self t after).append_left before).subset ht')
  | outside hentities hloads => exact ⟨h.world.aside hentities hloads, h.tasks⟩

theorem Reached.typed (h : Reached schema s) (hschema : schema.Typed) : s.Typed := by
  induction h with
  | fresh hentities hloads => exact ⟨World.typed_of_empty hentities hloads, nofun⟩
  | step _ hstep ih => exact ih.step hschema hstep

/-- A new object of a type. -/
def created (schema : Schema) (typeName : String) : ValueSession :=
  ⟨(World.empty.create ⟨0, schema, {}⟩ typeName).2, []⟩

theorem reached_created (schema : Schema) (typeName : String)
    : Reached schema (created schema typeName) := by
  have hfresh : Reached schema ⟨World.empty, []⟩ := .fresh rfl rfl
  exact hfresh.step (@Step.create schema World.empty [] ⟨0, schema, {}⟩ rfl typeName)

theorem created_eq {typeName : String} {t : ObjectType} (ht : schema.get? typeName = some t)
    : 0 < (created schema typeName).world.entities.size
        ∧
      ∃ id, (created schema typeName).world.entity 0 = .create ⟨0, schema, {}⟩ t id := by
  have htype : Store.objectType ⟨0, schema, {}⟩ typeName = .ok t := by
    unfold Store.objectType
    dsimp only
    rw [ht]
  unfold created World.create
  rw [htype]
  exact ⟨Nat.one_pos, _, World.entity_addEntity_self World.empty.takeFreshId.2 _⟩

theorem day_of_cast {v : Value} (h : AttributeType.day.cast v = .ok v)
    : v = .null ∨ ∃ d, v = .day d := by
  cases AttributeType.holds_of_cast h with
  | null => exact .inl rfl
  | day => exact .inr ⟨_, rfl⟩

/-- Whatever is done with the objects of a schema, all values of their attributes are such that a cast
into the type of the attribute leaves them as they are, so that an attribute for days has days only, if
and only if this holds of the default values. -/
theorem values_typed_iff (hnames : schema.NamesAttributes)
    : (∀ s, Reached schema s → ∀ e < s.world.entities.size, ∀ name v,
        (s.world.entity e).attributes.get? name = some v →
          ∃ attr, (s.world.entity e).objectType.attribute? name = some attr
            ∧
          attr.type.cast v = .ok v
            ∧
          (attr.type = .day → v = .null ∨ ∃ d, v = .day d))
        ↔
      ∀ typeName t name attr, schema.get? typeName = some t → t.attribute? name = some attr →
        attr.type.cast attr.default = .ok attr.default := by
  constructor
  . intro hvalues typeName t name attr ht hattr
    obtain ⟨hlt, id, hcreated⟩ := created_eq ht
    have hnamed := hnames typeName t ht
    have hdefault : (Entity.create ⟨0, schema, {}⟩ t id).attributes.get? name = some attr.default :=
      (Entity.get?_create hnamed id).mpr ⟨attr, hattr, rfl⟩
    obtain ⟨attr', hattr', hcast, _⟩ := hvalues _ (reached_created schema typeName) 0 hlt name
      attr.default (hcreated ▸ hdefault)
    rw [hcreated] at hattr'
    change t.attribute? name = some attr' at hattr'
    rw [hattr] at hattr'
    cases hattr'
    exact hcast
  . intro hdefaults s hs e _ name v hget
    have hschema : schema.Typed := fun typeName t ht =>
      ⟨hnames typeName t ht, fun name attr hattr => hdefaults typeName t name attr ht hattr⟩
    obtain ⟨attr, hattr, hcast⟩ := ((hs.typed hschema).world.entities e).values name v hget
    refine ⟨attr, hattr, hcast, ?_⟩
    intro hday
    rw [hday] at hcast
    exact day_of_cast hcast

/-- The first of January 2020. -/
def newYear : Day :=
  ⟨18262, by decide, by decide⟩

/-- Chairs that were made on the first of January 2020, unless the day is given. -/
def chairSchema (made : Value) : Schema :=
  Schema.addType .empty
    ((ObjectType.ofName "chair").addAttribute { name := "made", type := .day, default := made })

theorem namesAttributes_chairSchema (made : Value) : (chairSchema made).NamesAttributes :=
  Schema.forall_addType nofun ((ObjectType.namesAttributes_ofName "chair").addAttribute _)

theorem typesDefaults_chairSchema {made : Value} (h : AttributeType.day.cast made = .ok made)
    : (chairSchema made).TypesDefaults :=
  Schema.forall_addType nofun ((ObjectType.typesDefaults_ofName "chair").addAttribute h)

theorem values_typed_of_new_year
    : (chairSchema (.day newYear)).NamesAttributes
        ∧
      ∀ s, Reached (chairSchema (.day newYear)) s → ∀ e < s.world.entities.size, ∀ name v,
        (s.world.entity e).attributes.get? name = some v →
          ∃ attr, (s.world.entity e).objectType.attribute? name = some attr
            ∧
          attr.type.cast v = .ok v
            ∧
          (attr.type = .day → v = .null ∨ ∃ d, v = .day d) := by
  have hnames := namesAttributes_chairSchema (.day newYear)
  have hdefaults : (chairSchema (.day newYear)).TypesDefaults := typesDefaults_chairSchema rfl
  refine ⟨hnames, (values_typed_iff hnames).mpr ?_⟩
  intro typeName t name attr ht hattr
  exact hdefaults typeName t ht name attr hattr

/-- A day that is given in words stays as it is. -/
theorem untyped_of_written_day
    : Reached (chairSchema (.string "2020-01-01")) (created (chairSchema (.string "2020-01-01")) "chair")
        ∧
      ((created (chairSchema (.string "2020-01-01")) "chair").world.entity 0).attributes.get? "made"
        =
      some (.string "2020-01-01")
        ∧
      (((created (chairSchema (.string "2020-01-01")) "chair").world.entity 0).objectType.attribute?
        "made").map (·.type)
        =
      some .day
        ∧
      AttributeType.day.cast (.string "2020-01-01") = .ok (.day newYear) := by
  have hread : Day.read? "2020-01-01" = some newYear := by
    have htext : newYear.text = "2020-01-01" := by decide +kernel
    rw [← htext, Day.read?_text]
  refine ⟨reached_created _ _, rfl, rfl, AttributeType.cast_eq_ok.mpr (.inr ⟨rfl, ?_⟩)⟩
  unfold AttributeType.castSome? AttributeType.castDay?
  dsimp only
  rw [hread]
  rfl

end ValueSession

end ObjectStore
