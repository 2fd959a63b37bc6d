import FailureOrchestrator.JsonText
import FailureOrchestrator.RaisingSort
import Mathlib.Data.List.Lex

namespace FailureOrchestrator

inductive LoadError where
  | verificationConfigError (message : Str)
  | typeError (message : Str)
  | valueError (message : Str)
  | overflowError (message : Str)

/-- The floats of a YAML document, as the loader of the verification config uses them. -/
class YamlFloat (F : Type) extends PyFloat F where
  /-- `0.5` -/
  half : F
  truthy : F → Bool
  /-- `x < 0` -/
  negative : F → Bool
  /-- `float(n)`; `none` is the `OverflowError`. -/
  ofInt : Int → Option F
  /-- `a < b` -/
  below : Int ⊕ F → Int ⊕ F → Bool
  half_nonneg : negative half = false
  ofInt_nonneg : ∀ {n x}, 0 ≤ n → ofInt n = some x → negative x = false

/-- A value of another type that a YAML document can hold: bytes, a date, a time, a set. Only values of one kind are
comparable; `none` is the `ValueError` of a too long integer in a set. -/
structure YamlObject where
  kind : Str
  str : Option Str
  repr : Option Str
  truthy : Bool
  key : List Int

/-- A value that can be the key of a dict. -/
inductive YamlScalar (F : Type) where
  | null
  | bool (b : Bool)
  | int (n : Int)
  | float (x : F)
  | str (s : Str)
  | object (o : YamlObject)

inductive YamlValue (F : Type) where
  | scalar (v : YamlScalar F)
  | list (items : List (YamlValue F))
  | dict (entries : List (YamlScalar F × YamlValue F))

abbrev YamlDict (F : Type) := List (YamlScalar F × YamlValue F)

def tooLong : LoadError := .valueError "Exceeds the limit (4300 digits) for integer string conversion".toList

/-- The kinds of values that `<` compares. -/
inductive OrderKind where
  | number
  | str
  | object (name : Str)

namespace YamlScalar

section

variable [UnicodeData] {F : Type} [YamlFloat F]

/-- `repr(x)` of a float, whose infinities and NaN have other names in JSON. -/
def floatRepr (x : F) : Str :=
  let text := PyFloat.repr x
  if text = "NaN".toList then "nan".toList
  else if text = "Infinity".toList then "inf".toList
  else if text = "-Infinity".toList then "-inf".toList
  else text

/-- `repr(v)`; `none` is the `ValueError` of a too long integer. -/
def repr : YamlScalar F → Option Str
  | .null => some "None".toList
  | .bool b => some (if b then "True".toList else "False".toList)
  | .int n => if (natStr n.natAbs).length ≤ maxStrDigits then some (writeInt n) else none
  | .float x => some (floatRepr x)
  | .str s => some (pyRepr s)
  | .object o => o.repr

/-- `str(v)` -/
def text : YamlScalar F → Option Str
  | .str s => some s
  | .object o => o.str
  | v => v.repr

end

variable {F : Type}

def kind : YamlScalar F → Option OrderKind
  | .null => none
  | .bool _ => some .number
  | .int _ => some .number
  | .float _ => some .number
  | .str _ => some .str
  | .object o => some (.object o.kind)

def typeName : YamlScalar F → Str
  | .null => "NoneType".toList
  | .bool _ => "bool".toList
  | .int _ => "int".toList
  | .float _ => "float".toList
  | .str _ => "str".toList
  | .object o => o.kind

def number : YamlScalar F → Option (Int ⊕ F)
  | .bool b => some (.inl (if b then 1 else 0))
  | .int n => some (.inl n)
  | .float x => some (.inr x)
  | _ => none

def incomparable (v w : YamlScalar F) : LoadError :=
  .typeError ("'<' not supported between instances of '".toList ++ v.typeName ++ "' and '".toList ++ w.typeName ++ ['\''])

/-- `v < w` -/
def lt [YamlFloat F] (v w : YamlScalar F) : Except LoadError Bool :=
  match v, w with
  | .str s, .str t => .ok (decide (s < t))
  | .object o, .object p => if o.kind = p.kind then .ok (decide (o.key < p.key)) else .error (incomparable v w)
  | v, w =>
    match v.number, w.number with
    | some a, some b => .ok (YamlFloat.below a b)
    | _, _ => .error (incomparable v w)

def truthy [YamlFloat F] : YamlScalar F → Bool
  | .null => false
  | .bool b => b
  | .int n => n != 0
  | .float x => YamlFloat.truthy x
  | .str s => !s.isEmpty
  | .object o => o.truthy

/-- The string that a value is. -/
def asStr : YamlScalar F → Option Str
  | .str s => some s
  | _ => none

theorem lt_comparesBy [YamlFloat F] : ComparesBy (lt (F := F)) kind where
  ok_iff v w := by
    cases v <;> cases w
    case object.object o p =>
      by_cases h : o.kind = p.kind
      · simp [lt, kind, h]
      · simp [lt, kind, h, eq_comm]
    all_goals simp [lt, kind, number]

theorem lt_error [YamlFloat F] {v w : YamlScalar F} {e : LoadError} (h : v.lt w = .error e) : ∃ message, e = .typeError message := by
  unfold lt at h
  split at h
  next => cases h
  next =>
    split at h
    next => cases h
    next =>
      cases h
      exact ⟨_, rfl⟩
  next =>
    split at h
    next => cases h
    next =>
      cases h
      exact ⟨_, rfl⟩

end YamlScalar

namespace YamlValue

section

variable [UnicodeData] {F : Type} [YamlFloat F]

mutual

/-- `repr(v)` of a value with items. -/
def repr : YamlValue F → Option Str
  | .scalar v => v.repr
  | .list items => do pure (['['] ++ joinWith ", ".toList (← reprItems items) ++ [']'])
  | .dict entries => do pure (['\x7b'] ++ joinWith ", ".toList (← reprEntries entries) ++ ['\x7d'])

def reprItems : List (YamlValue F) → Option (List Str)
  | [] => some []
  | v :: items => do pure ((← v.repr) :: (← reprItems items))

def reprEntries : YamlDict F → Option (List Str)
  | [] => some []
  | (k, v) :: entries => do pure (((← k.repr) ++ ": ".toList ++ (← v.repr)) :: (← reprEntries entries))

end

/-- `str(v)` -/
def text : YamlValue F → Option Str
  | .scalar v => v.text
  | v => v.repr

end

variable {F : Type}

def truthy [YamlFloat F] : YamlValue F → Bool
  | .scalar v => v.truthy
  | .list items => !items.isEmpty
  | .dict entries => !entries.isEmpty

def asStr : YamlValue F → Option Str
  | .scalar v => v.asStr
  | _ => none

/-- `data.get(key)` -/
def get (key : String) (data : YamlDict F) : Option (YamlValue F) :=
  (data.find? fun e => e.1.asStr == some key.toList).map Prod.snd

/-- `data.get(key) or default` -/
def getOr [YamlFloat F] (key : String) (default : YamlValue F) (data : YamlDict F) : YamlValue F :=
  match get key data with
  | some v => if v.truthy then v else default
  | none => default

end YamlValue

end FailureOrchestrator
