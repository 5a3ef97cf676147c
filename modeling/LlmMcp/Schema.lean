import LlmMcp.Value

/-!
# Tool schemas

`list_tools` of each server returns a fixed list of `Tool(name, description, inputSchema)`.
Only the names and the schemas' parameters matter to `call_tool`; the descriptions and the
`enum` lists are left out. A parameter's kind is its JSON-schema `type`; `"required"` becomes a
flag on the parameter.

`WellTyped spec args` is what it means for an argument map to match a schema: every key is a
declared parameter, every value has its parameter's kind, every required parameter is present.
`KindCorrect` is the first two conditions alone.
-/

namespace LlmMcp

/-- The JSON-schema types the catalogs use. `array` is always an array of strings. -/
inductive Kind where
  | string
  | integer
  | boolean
  | array
  | object
deriving DecidableEq, Repr

structure Param where
  name : String
  kind : Kind
  required : Bool
deriving DecidableEq, Repr

/-- An optional parameter. -/
def Param.opt (name : String) (kind : Kind) : Param := ⟨name, kind, false⟩
/-- A parameter listed under `"required"`. -/
def Param.req (name : String) (kind : Kind) : Param := ⟨name, kind, true⟩

/-- One `Tool(...)` of `list_tools`: its name and the properties of its `inputSchema`. -/
structure ToolSpec where
  name : String
  params : List Param
deriving DecidableEq, Repr

def ToolSpec.kindOf (spec : ToolSpec) (key : String) : Option Kind :=
  (spec.params.find? (·.name == key)).map (·.kind)

def Value.isStr : Value → Bool
  | .str _ => true
  | _ => false

/-- A value of the given kind. An `integer` is an `int` or a `float` with no fractional part, as
JSON Schema's `integer` is any number whose fractional part is zero. An `object` is read as a map
from strings to strings: the only object parameter is the template's `vars`, "variables as
key-value pairs". -/
def Value.hasKind : Value → Kind → Bool
  | .str _, .string => true
  | .int _, .integer => true
  | .float x, .integer => x.isInteger
  | .bool _, .boolean => true
  | .list items, .array => items.all Value.isStr
  | .dict entries, .object => entries.all (·.2.isStr)
  | _, _ => false

/-- The schema declares `key` and `v` has its kind. -/
def ToolSpec.admits (spec : ToolSpec) (key : String) (v : Value) : Bool :=
  match spec.kindOf key with
  | some k => v.hasKind k
  | none => false

/-- Every supplied argument is a declared parameter of the declared kind. -/
def KindCorrect (spec : ToolSpec) (args : ArgMap) : Prop :=
  ∀ e ∈ args.entries, spec.admits e.1 e.2 = true

/-- The argument map matches the schema: kinds as declared, required parameters present. -/
def WellTyped (spec : ToolSpec) (args : ArgMap) : Prop :=
  KindCorrect spec args ∧ ∀ p ∈ spec.params, p.required = true → args.contains p.name = true

instance (spec : ToolSpec) (args : ArgMap) : Decidable (KindCorrect spec args) :=
  inferInstanceAs (Decidable (∀ e ∈ args.entries, _))

instance (spec : ToolSpec) (args : ArgMap) : Decidable (WellTyped spec args) :=
  inferInstanceAs (Decidable (_ ∧ _))

theorem KindCorrect.admits {spec : ToolSpec} {args : ArgMap} (typed : KindCorrect spec args)
    {key : String} {v : Value} (found : args.get? key = some v) : spec.admits key v = true :=
  typed (key, v) (ArgMap.get?_eq_some.mp found)

/-- A supplied argument whose parameter has kind `k` holds a value of kind `k`. -/
theorem KindCorrect.hasKind {spec : ToolSpec} {args : ArgMap} (typed : KindCorrect spec args)
    {key : String} {k : Kind} (declared : spec.kindOf key = some k) {v : Value}
    (found : args.get? key = some v) : v.hasKind k = true := by
  simpa [ToolSpec.admits, declared] using typed.admits found

/-- A kind-correct map holds no undeclared key. -/
theorem KindCorrect.get_undeclared {spec : ToolSpec} {args : ArgMap}
    (typed : KindCorrect spec args) {key : String} (undeclared : spec.kindOf key = none) :
    args.get? key = none := by
  cases found : args.get? key with
  | none => rfl
  | some v => simpa [ToolSpec.admits, undeclared] using typed.admits found

/-! ## Values of each kind -/

theorem Value.str_of_hasKind {v : Value} (kind : v.hasKind .string = true) : ∃ x, v = .str x := by
  cases v <;> simp_all [Value.hasKind]

theorem Value.number_of_hasKind {v : Value} (kind : v.hasKind .integer = true) :
    (∃ i, v = .int i) ∨ ∃ x, v = .float x ∧ x.isInteger = true := by
  cases v <;> simp_all [Value.hasKind]

theorem Value.bool_of_hasKind {v : Value} (kind : v.hasKind .boolean = true) : ∃ b, v = .bool b := by
  cases v <;> simp_all [Value.hasKind]

theorem Value.list_of_hasKind {v : Value} (kind : v.hasKind .array = true) :
    ∃ items, v = .list items ∧ items.all Value.isStr = true := by
  cases v <;> simp only [Value.hasKind, Bool.false_eq_true] at kind
  exact ⟨_, rfl, kind⟩

theorem Value.dict_of_hasKind {v : Value} (kind : v.hasKind .object = true) :
    ∃ entries, v = .dict entries ∧ entries.all (·.2.isStr) = true := by
  cases v <;> simp only [Value.hasKind, Bool.false_eq_true] at kind
  exact ⟨_, rfl, kind⟩

theorem ToolSpec.declared_of_admits {spec : ToolSpec} {key : String} {v : Value}
    (admitted : spec.admits key v = true) : ∃ p ∈ spec.params, p.name = key := by
  unfold ToolSpec.admits ToolSpec.kindOf at admitted
  cases found : spec.params.find? (·.name == key) with
  | none => simp [found] at admitted
  | some p => exact ⟨p, List.mem_of_find?_eq_some found, by simpa using List.find?_some found⟩

end LlmMcp
