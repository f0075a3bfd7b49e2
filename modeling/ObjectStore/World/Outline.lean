import ObjectStore.Text.Outline
import ObjectStore.World.Batch

/-!
This module writes outlines of stores, queries, entities and batches, for people who look at them.
-/

namespace ObjectStore

open Text

def AttributeType.outline : AttributeType → String
  | text => "Text"
  | integer => "Integer"
  | number => "Number"
  | boolean => "Boolean"
  | day => "Day"
  | datetime => "DateTime"
  | list => "List"
  | json => "Json"

def Field.outline : Field → String
  | id => "Id"
  | attr name type => Text.outline "Attribute" [("name", quoted name), ("ty", type.outline)] false
  | relation name => Text.outline "Relation" [("name", quoted name)] false

def OrderBy.outline (o : OrderBy) : String :=
  Text.outline "OrderBy"
    [("field", o.field.outline), ("descending", boolOutline o.descending)] false

def Identity.outline (i : Identity) : String :=
  Text.outline "Identity" [("type_name", quoted i.typeName), ("id", quoted i.id)] false

def StoreConfig.outline (c : StoreConfig) : String :=
  Text.outline "StoreConfig"
    [("max_normalized_clauses", toString c.maxClauses),
      ("warn_normalized_clauses", toString c.warnClauses),
      ("max_preload_depth", toString c.maxPreloadDepth)] false

def Store.outline (s : Store) : String :=
  Text.outline "Store"
    [("types", listOutline (s.schema.names.map quoted)), ("config", s.config.outline)] true

def Query.outline (q : Query) : String :=
  Text.outline "Query"
    [("object_type", quoted q.objectType.name),
      ("filter", quoted q.filter.text),
      ("order_by", listOutline (q.order.map OrderBy.outline)),
      ("limit", optionOutline (q.limit.map toString)),
      ("skip", toString q.skip),
      ("preload", listOutline (q.preload.paths.map quoted))] false

def Entity.outline (e : Entity) : String :=
  Text.outline "Entity"
    [("type", quoted e.typeName),
      ("id", quoted e.id),
      ("persisted", boolOutline e.persisted),
      ("destroyed", boolOutline e.destroyed),
      ("dirty", setOutline (e.dirtyAttributes.names.map quoted))] true

def Slot.outline (s : Slot) : String :=
  s!"({s.object.outline}, {boolOutline s.destroy})"

def Batch.outline (b : Batch) : String :=
  Text.outline "Batch" [("slots", listOutline (b.slots.map Slot.outline))] false

end ObjectStore
