import ObjectStore.Filter.Expression
import ObjectStore.Filter.Parser

/-!
This module looks up the names and arguments of conditions. Every field becomes one of the type that
is filtered, and every argument a value that the field can be compared with.
-/

namespace ObjectStore

namespace Field

/-- The operand for an argument that is no list. Where the type of an attribute does not hold the
argument, a fraction is still a bound for integers, and a day for timestamps. -/
def bindScalar (f : Field) (v : Value) : Except CompileFault Value :=
  match f with
  | attr name type =>
    match type, v with
    | .datetime, .day d => .ok (.day d)
    | type, v =>
      match type.cast v with
      | .ok w => .ok w
      | .error e =>
        let wider :=
          match type with
          | .integer => (AttributeType.number.cast v).toOption
          | .datetime => (AttributeType.day.cast v).toOption
          | _ => none
        match wider with
        | some w => .ok w
        | none => .error (.badCast (e.forAttribute name))
  | f =>
    match v with
    | .string s => .ok (.string s)
    | .null => .ok .null
    | v => .error (.notId f.name v.kind)

def bindOperand (f : Field) (op : Operator) (v : Value) : Except CompileFault Value :=
  match op with
  | .contains | .startsWith => .ok v
  | .isIn | .notIn =>
    match v with
    | .array candidates => return .array (← candidates.mapM f.bindScalar)
    | v => .error (.notList op f.name v.kind)
  | _ => f.bindScalar v

end Field

namespace Condition

def locate (span : Span) {α : Type} : Except CompileFault α → Except CompileError α :=
  Except.mapError (⟨·, span⟩)

/-- Looks up one comparison. The name comes first, then the argument. -/
def compileComparison (scope : ObjectType) (args : List Value) (field : Spanned String)
    (op : Operator) (placeholder : Spanned Nat) : Except CompileError Expression := do
  let resolved ← locate field.span (Field.resolve scope field.value)
  match args[placeholder.value]? with
  | none => throw ⟨.missingArgument placeholder.value args.length, placeholder.span⟩
  | some arg =>
    let operand ← locate placeholder.span (resolved.bindOperand op arg)
    return .test ⟨resolved, op, operand⟩

mutual

/-- Looks up the names and arguments of a condition. The leftmost fault counts. -/
def compile (scope : ObjectType) (args : List Value) : Condition → Except CompileError Expression
  | comparison field op placeholder => compileComparison scope args field op.value placeholder
  | all parts => do return .all (← compileParts scope args parts)
  | any parts => do return .any (← compileParts scope args parts)

def compileParts (scope : ObjectType) (args : List Value) :
    List Condition → Except CompileError (List Expression)
  | [] => .ok []
  | part :: parts => do
    let e ← part.compile scope args
    return e :: (← compileParts scope args parts)

end

end Condition

namespace Expression

/-- The filter for equality of the named fields with values. Its faults have no place. -/
def ofEntries (scope : ObjectType) (entries : List (String × Value)) :
    Except CompileError Expression := do
  let operands ← entries.mapM fun (name, value) => Condition.locate .none do
    let field ← Field.resolve scope name
    return equals field (← field.bindScalar value)
  return all operands

def ofSource (scope : ObjectType) (source : String) (args : List Value) :
    Except FilterError Expression := do
  let condition ← (Condition.parse source).mapError .parse
  (condition.compile scope args).mapError .compile

end Expression

end ObjectStore
