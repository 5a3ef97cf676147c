import Mathlib.Data.List.Basic
import Mathlib.Tactic.IntervalCases
import Mathlib.Data.Nat.Digits

/-!
# Python values and the argument dict

The `call_tool` handlers of `llm-support-mcp.py` and `llm-clarification-mcp.py` receive the
tool arguments as a Python `dict` decoded from JSON. This module models those values and the
few Python operations the argument builders apply to them: `in`, `dict.get`, truthiness,
`list.extend` (which iterates its argument), `dict.items`, `str` and the f-string `{key}={value}`.

A JSON number is an `int` or a `float`; a `float` is held as the shortest decimal that reads back
to it, which is what `repr` prints, with the point and the exponent placed by CPython's rules.
`str` and `repr` also depend on the interpreter (`Interp`): `str` of an `int` with more digits
than `sys.get_int_max_str_digits()` raises `ValueError` (CPython 3.11 and later, 4300 digits by
default), and `repr` of a string escapes the characters beyond ASCII that the interpreter's
Unicode database does not call printable. `Value.text` is what `str` writes, and `Value.pyStr`
is `str` itself, which raises when `Value.fits` fails.

Exceptions are the messages Python puts in `str(e)`, since `call_tool` returns
`f"ERROR: {str(e)}"` for every exception it catches.
-/

namespace LlmMcp

/-! ## Values -/

/-- A finite `float` as the shortest decimal that reads back to it, as CPython's `dtoa` gives it:
`±significand × 10^exponent`, with no trailing zero in the significand, and zero as `±0 × 10^0`. -/
structure Decimal where
  negative : Bool
  significand : Nat
  exponent : Int
  canonical : (significand = 0 ∧ exponent = 0) ∨ significand % 10 ≠ 0
deriving DecidableEq

/-- A Python `float`: finite, infinite, or not a number. -/
inductive PyFloat where
  | finite (d : Decimal)
  | infinity (negative : Bool)
  | nan
deriving DecidableEq

/-- `bool(x)`: only a zero is false. -/
def PyFloat.truthy : PyFloat → Bool
  | .finite d => d.significand != 0
  | _ => true

/-- `x.is_integer()`, which JSON Schema's `integer` accepts besides an `int`. -/
def PyFloat.isInteger : PyFloat → Bool
  | .finite d => decide (0 ≤ d.exponent)
  | _ => false

/-- A JSON value as Python holds it after decoding: `None`, `bool`, `int`, `float`, `str`, `list`,
`dict`. A `dict` keeps its insertion order, as Python's does. -/
inductive Value where
  | null
  | bool (b : Bool)
  | int (i : Int)
  | float (x : PyFloat)
  | str (s : String)
  | list (items : List Value)
  | dict (entries : List (String × Value))

namespace Value

/-- `type(v).__name__`, as it appears in `TypeError` and `AttributeError` messages. -/
def typeName : Value → String
  | null => "NoneType"
  | bool _ => "bool"
  | int _ => "int"
  | float _ => "float"
  | str _ => "str"
  | list _ => "list"
  | dict _ => "dict"

/-- Python truthiness, as `if args.get(key):` and `or` test it. -/
def truthy : Value → Bool
  | null => false
  | bool b => b
  | int i => i != 0
  | float x => x.truthy
  | str s => !s.isEmpty
  | list items => !items.isEmpty
  | dict entries => !entries.isEmpty

/-- `list(v)`, what `cmd_args.extend(v)` appends: a string yields its characters, a dict its keys. -/
def iter : Value → Except String (List Value)
  | str s => .ok (s.data.map fun c => str (String.singleton c))
  | list items => .ok items
  | dict entries => .ok (entries.map fun e => str e.1)
  | v => .error ("'" ++ v.typeName ++ "' object is not iterable")

/-- `v.items()`: only a dict has it. -/
def items : Value → Except String (List (String × Value))
  | dict entries => .ok entries
  | v => .error ("'" ++ v.typeName ++ "' object has no attribute 'items'")

end Value

/-! ## Decimal text of integers -/

/-- The NUL character, which no argument of a process may hold. -/
def nul : Char := Char.ofNat 0

/-- The string holds no NUL character. -/
def noNul (s : String) : Bool := !s.data.contains nul

theorem digitChar_of_lt {k : Nat} (small : k < 10) :
    (Nat.digitChar k).isDigit = true ∧ (Nat.digitChar k).toNat = 48 + k := by
  interval_cases k <;> decide

/-- The number a list of decimal digits denotes, most significant digit first. -/
def decimalValue (ds : List Char) : Nat :=
  ds.foldl (fun n c => 10 * n + (c.toNat - 48)) 0

theorem decimalValue_snoc (ds : List Char) (d : Char) :
    decimalValue (ds ++ [d]) = 10 * decimalValue ds + (d.toNat - 48) := by
  simp [decimalValue, List.foldl_append]

/-- `Nat.toDigitsCore 10` with enough fuel puts the digits of `n` in front of its accumulator. -/
theorem toDigitsCore_spec : ∀ (fuel n : Nat) (acc : List Char), n < fuel →
    ∃ ds, Nat.toDigitsCore 10 fuel n acc = ds ++ acc ∧ ds ≠ [] ∧
      (∀ c ∈ ds, c.isDigit = true) ∧ decimalValue ds = n
  | 0, n, _, bound => absurd bound (Nat.not_lt_zero n)
  | fuel + 1, n, acc, bound => by
      obtain ⟨digit, code⟩ := digitChar_of_lt (Nat.mod_lt n (by decide : 10 > 0))
      by_cases last : n / 10 = 0
      · refine ⟨[Nat.digitChar (n % 10)], by simp [Nat.toDigitsCore, last], by simp,
          by simpa using digit, ?_⟩
        simp only [decimalValue, List.foldl, code]
        omega
      · obtain ⟨ds, core, nonempty, digits, value⟩ :=
          toDigitsCore_spec fuel (n / 10) (Nat.digitChar (n % 10) :: acc) (by omega)
        refine ⟨ds ++ [Nat.digitChar (n % 10)], by simp [Nat.toDigitsCore, last, core], by simp,
          ?_, ?_⟩
        · simpa [or_imp, forall_and] using ⟨digits, digit⟩
        · rw [decimalValue_snoc, value, code]
          omega

/-- `Nat.repr n`: at least one digit, only digits, denoting `n`. -/
theorem toDigits_spec (n : Nat) :
    Nat.toDigits 10 n ≠ [] ∧ (∀ c ∈ Nat.toDigits 10 n, c.isDigit = true) ∧
      decimalValue (Nat.toDigits 10 n) = n := by
  obtain ⟨ds, core, nonempty, digits, value⟩ := toDigitsCore_spec (n + 1) n [] (by omega)
  rw [List.append_nil] at core
  simp only [Nat.toDigits, core]
  exact ⟨nonempty, digits, value⟩

theorem intText_ofNat (n : Nat) : (toString (n : Int)).data = Nat.toDigits 10 n := rfl

theorem intText_negSucc (n : Nat) :
    (toString (Int.negSucc n)).data = '-' :: Nat.toDigits 10 (n + 1) := rfl

theorem nul_not_mem_toDigits (n : Nat) : nul ∉ Nat.toDigits 10 n := fun isNul => by
  have := (toDigits_spec n).2.1 nul isNul
  simp [nul, Char.isDigit] at this

/-- `str(i)` holds no NUL character. -/
theorem noNul_intText (i : Int) : noNul (toString i) = true := by
  cases i with
  | ofNat n => simpa [noNul, intText_ofNat] using nul_not_mem_toDigits n
  | negSucc n => simpa [noNul, intText_negSucc, nul] using nul_not_mem_toDigits (n + 1)

/-! ## `str` and `repr` -/

/-- What the interpreter running a server contributes to `str` and `repr`. -/
structure Interp where
  /-- `sys.get_int_max_str_digits()`: `str` of an `int` with more decimal digits raises
  `ValueError`; `0` is no limit, as before CPython 3.11. -/
  maxStrDigits : Nat
  /-- `str.isprintable()` of one character beyond ASCII, from the interpreter's Unicode database. -/
  printable : Char → Bool
  /-- `sys.set_int_max_str_digits` refuses a limit from 1 to 639. -/
  limit_valid : maxStrDigits = 0 ∨ 640 ≤ maxStrDigits

/-- CPython's `sys.int_info.default_max_str_digits`. -/
def defaultMaxStrDigits : Nat := 4300

/-- An interpreter for the concrete runs of this development: CPython's default digit limit, and
a Unicode database that calls the C1 controls and the no-break space unprintable and every later
character printable. -/
def sampleInterp : Interp := ⟨defaultMaxStrDigits, fun c => 0xA0 < c.toNat, .inr (by decide)⟩

/-- The characters `repr` treats specially. -/
def singleQuote : Char := Char.ofNat 39
def doubleQuote : Char := Char.ofNat 34
def backslash : Char := Char.ofNat 92

/-- `n` as `width` lowercase hexadecimal digits, the most significant first. -/
def hexDigits (width n : Nat) : List Char :=
  (List.range width).reverse.map fun i => Nat.digitChar (n / 16 ^ i % 16)

/-- How `repr` writes one character of a string quoted by `quote`, as CPython's `unicode_repr`
does: ASCII controls as `\xhh`, and a character beyond ASCII as itself when it is printable,
else as `\xhh`, `\uhhhh` or `\Uhhhhhhhh`. -/
def escapeChar (py : Interp) (quote c : Char) : List Char :=
  if c = quote ∨ c = backslash then [backslash, c]
  else if c = '\t' then [backslash, 't']
  else if c = '\n' then [backslash, 'n']
  else if c = '\r' then [backslash, 'r']
  else if c.toNat < 32 ∨ c.toNat = 127 then backslash :: 'x' :: hexDigits 2 c.toNat
  else if c.toNat < 127 ∨ py.printable c then [c]
  else if c.toNat ≤ 0xff then backslash :: 'x' :: hexDigits 2 c.toNat
  else if c.toNat ≤ 0xffff then backslash :: 'u' :: hexDigits 4 c.toNat
  else backslash :: 'U' :: hexDigits 8 c.toNat

/-- `repr(s)` of a string: single quotes, unless the string holds a single quote and no double
quote. -/
def reprStr (py : Interp) (s : String) : String :=
  let quote := if singleQuote ∈ s.data ∧ doubleQuote ∉ s.data then doubleQuote else singleQuote
  ⟨quote :: s.data.flatMap (escapeChar py quote) ++ [quote]⟩

/-- The exponent of a float's `repr`, as `%+.02d` writes it: a sign and at least two digits. -/
def exponentText (e : Int) : List Char :=
  let ds := Nat.toDigits 10 e.natAbs
  (if e < 0 then '-' else '+') :: (if ds.length < 2 then '0' :: ds else ds)

/-- `repr` of a finite float without its sign, as `format_float_short` writes it for `repr`: the
digits with the point after `decpt` of them, in exponent form when `decpt ≤ -4` or `16 < decpt`,
and `.0` after a whole number. -/
def Decimal.reprDigits (d : Decimal) : List Char :=
  let ds := Nat.toDigits 10 d.significand
  let decpt : Int := d.exponent + ds.length
  if decpt ≤ -4 ∨ 16 < decpt then
    ds.take 1 ++ (if ds.length = 1 then [] else '.' :: ds.drop 1) ++ 'e' :: exponentText (decpt - 1)
  else if decpt ≤ 0 then '0' :: '.' :: (List.replicate (-decpt).toNat '0' ++ ds)
  else if decpt < ds.length then ds.take decpt.toNat ++ '.' :: ds.drop decpt.toNat
  else ds ++ List.replicate (decpt.toNat - ds.length) '0' ++ ['.', '0']

/-- `repr(x)` of a float; a NaN is printed without its sign. -/
def PyFloat.repr : PyFloat → String
  | .finite d => ⟨(if d.negative then ['-'] else []) ++ d.reprDigits⟩
  | .infinity negative => if negative then "-inf" else "inf"
  | .nan => "nan"

/-- The characters besides digits that a float's `repr` writes. -/
theorem nul_ne_floatChars : nul ≠ '0' ∧ nul ≠ '.' ∧ nul ≠ 'e' ∧ nul ≠ '-' ∧ nul ≠ '+' := by
  decide

theorem nul_not_mem_exponentText (e : Int) : nul ∉ exponentText e := by
  have digits := nul_not_mem_toDigits e.natAbs
  simp only [exponentText]
  split_ifs <;> simp [digits, nul_ne_floatChars]

/-- `repr(x)` of a float holds no NUL character. -/
theorem PyFloat.noNul_repr (x : PyFloat) : noNul x.repr = true := by
  cases x with
  | finite d =>
      have digits := nul_not_mem_toDigits d.significand
      have take : ∀ n, nul ∉ (Nat.toDigits 10 d.significand).take n :=
        fun _ mem => digits (List.mem_of_mem_take mem)
      have drop : ∀ n, nul ∉ (Nat.toDigits 10 d.significand).drop n :=
        fun _ mem => digits (List.mem_of_mem_drop mem)
      have tail : nul ∉ (Nat.toDigits 10 d.significand).tail := List.drop_one _ ▸ drop 1
      have body : nul ∉ d.reprDigits := by
        simp only [Decimal.reprDigits]
        split_ifs <;>
          simp [digits, take, drop, tail, nul_not_mem_exponentText, nul_ne_floatChars, List.mem_replicate]
      simp only [noNul, PyFloat.repr]
      split <;> simp [body, nul_ne_floatChars]
  | infinity negative => cases negative <;> decide
  | nan => decide

mutual
/-- `repr(v)`, what `str` writes inside a list or a dict. -/
def Value.repr (py : Interp) : Value → String
  | .null => "None"
  | .bool b => if b then "True" else "False"
  | .int i => toString i
  | .float x => x.repr
  | .str s => reprStr py s
  | .list items => "[" ++ ", ".intercalate (Value.reprItems py items) ++ "]"
  | .dict entries => "\x7b" ++ ", ".intercalate (Value.reprEntries py entries) ++ "\x7d"

def Value.reprItems (py : Interp) : List Value → List String
  | [] => []
  | v :: vs => v.repr py :: Value.reprItems py vs

def Value.reprEntries (py : Interp) : List (String × Value) → List String
  | [] => []
  | (k, v) :: es => (reprStr py k ++ ": " ++ v.repr py) :: Value.reprEntries py es
end

/-- What `str(v)` and the f-string `{v}` write when they raise nothing. -/
def Value.text (py : Interp) : Value → String
  | .str s => s
  | v => v.repr py

/-- `str(i)` raises nothing: the limit is off, or `i` has at most that many digits. -/
def Interp.strFits (py : Interp) (i : Int) : Bool :=
  py.maxStrDigits == 0 || decide ((Nat.toDigits 10 i.natAbs).length ≤ py.maxStrDigits)

mutual
/-- `str(v)` raises nothing: every `int` in `v` fits the interpreter's limit. -/
def Value.fits (py : Interp) : Value → Bool
  | .int i => py.strFits i
  | .list items => Value.itemsFit py items
  | .dict entries => Value.entriesFit py entries
  | _ => true

def Value.itemsFit (py : Interp) : List Value → Bool
  | [] => true
  | v :: vs => v.fits py && Value.itemsFit py vs

def Value.entriesFit (py : Interp) : List (String × Value) → Bool
  | [] => true
  | (_, v) :: es => v.fits py && Value.entriesFit py es
end

/-- The `ValueError` of `str` on an `int` over the limit. -/
def intLimitError (py : Interp) : String :=
  "Exceeds the limit (" ++ toString py.maxStrDigits ++
    " digits) for integer string conversion; use sys.set_int_max_str_digits() to increase the limit"

/-- `str(v)`, which is also what an f-string inserts for `{v}`. -/
def Value.pyStr (py : Interp) (v : Value) : Except String String :=
  if v.fits py then .ok (v.text py) else .error (intLimitError py)

/-! ## Association lists -/

theorem lookup_cons_ite {α β : Type} [DecidableEq α] (a k : α) (b : β) (es : List (α × β)) :
    ((k, b) :: es).lookup a = if a = k then some b else es.lookup a := by
  by_cases same : a = k
  · subst same
    simp
  · have differ : (a == k) = false := by simpa using same
    simp [List.lookup_cons, differ, same]

theorem lookup_eq_none_of_not_mem {α β : Type} [DecidableEq α] {a : α} :
    ∀ {l : List (α × β)}, a ∉ l.map Prod.fst → l.lookup a = none
  | [], _ => rfl
  | (x, y) :: rest, absent => by
      simp only [List.map_cons, List.mem_cons, not_or] at absent
      simp [lookup_cons_ite, absent.1, lookup_eq_none_of_not_mem absent.2]

theorem lookup_of_mem {α β : Type} [DecidableEq α] :
    ∀ {l : List (α × β)} {a : α} {b : β}, (l.map Prod.fst).Nodup → (a, b) ∈ l → l.lookup a = some b
  | [], _, _, _, mem => absurd mem (List.not_mem_nil _)
  | (x, y) :: rest, a, b, distinct, mem => by
      simp only [List.map_cons, List.nodup_cons] at distinct
      rcases List.mem_cons.mp mem with same | later
      · cases same
        simp [lookup_cons_ite]
      · have differ : a ≠ x := fun equal => distinct.1 (equal ▸ List.mem_map_of_mem Prod.fst later)
        simp [lookup_cons_ite, differ, lookup_of_mem distinct.2 later]

theorem mem_of_lookup_eq_some {α β : Type} [DecidableEq α] :
    ∀ {l : List (α × β)} {a : α} {b : β}, l.lookup a = some b → (a, b) ∈ l
  | [], _, _, found => by simp at found
  | (x, y) :: rest, a, b, found => by
      rw [lookup_cons_ite] at found
      split at found
      · next same =>
          subst same
          cases found
          exact List.mem_cons_self _ _
      · exact List.mem_cons_of_mem _ (mem_of_lookup_eq_some found)

/-- Filtering by value commutes with lookup, when the keys are distinct. -/
theorem lookup_filter_values {β : Type} (q : β → Bool) :
    ∀ {l : List (String × β)}, (l.map Prod.fst).Nodup →
      ∀ k, (l.filter fun e => q e.2).lookup k = (l.lookup k).filter q
  | [], _, _ => rfl
  | (j, v) :: rest, distinct, k => by
      simp only [List.map_cons, List.nodup_cons] at distinct
      have tail := lookup_filter_values q distinct.2 k
      by_cases same : k = j
      · subst same
        have absent := lookup_eq_none_of_not_mem distinct.1
        by_cases keep : q v <;>
          simp [List.filter_cons, keep, lookup_cons_ite, tail, absent, Option.filter]
      · by_cases keep : q v <;> simp [List.filter_cons, keep, lookup_cons_ite, same, tail]

/-! ## The argument dict -/

/-- The `arguments` dict of `call_tool`. Its keys are distinct, as a dict's are. -/
structure ArgMap where
  entries : List (String × Value)
  keys_nodup : (entries.map Prod.fst).Nodup

namespace ArgMap

/-- `args[key]` when `key in args`. -/
def get? (args : ArgMap) (key : String) : Option Value :=
  args.entries.lookup key

/-- `key in args`. -/
def contains (args : ArgMap) (key : String) : Bool :=
  (args.get? key).isSome

/-- `args.get(key)`, which is `None` for an absent key. -/
def get (args : ArgMap) (key : String) : Value :=
  (args.get? key).getD .null

theorem get?_eq_some {args : ArgMap} {key : String} {v : Value} :
    args.get? key = some v ↔ (key, v) ∈ args.entries := by
  refine ⟨fun found => ?_, lookup_of_mem args.keys_nodup⟩
  obtain ⟨entries, distinct⟩ := args
  induction entries with
  | nil => simp [get?] at found
  | cons head tail ih =>
      obtain ⟨k, w⟩ := head
      simp only [List.map_cons, List.nodup_cons] at distinct
      by_cases equal : key = k
      · subst equal
        simp_all [get?, lookup_cons_ite]
      · simp only [get?, lookup_cons_ite, equal, if_false] at found
        exact List.mem_cons_of_mem _ (ih distinct.2 found)

theorem contains_iff {args : ArgMap} {key : String} :
    args.contains key = true ↔ ∃ v, args.get? key = some v := by
  simp [contains, Option.isSome_iff_exists]

@[simp] theorem get_of_get? {args : ArgMap} {key : String} {v : Value}
    (found : args.get? key = some v) : args.get key = v := by
  simp [get, found]

@[simp] theorem get_of_not_contains {args : ArgMap} {key : String}
    (absent : args.contains key = false) : args.get key = .null := by
  cases found : args.get? key with
  | none => simp [get, found]
  | some v => simp [contains, found] at absent

/-- `str` raises on no value of the map. -/
def Fits (args : ArgMap) (py : Interp) : Prop :=
  ∀ e ∈ args.entries, e.2.fits py = true

instance (args : ArgMap) (py : Interp) : Decidable (args.Fits py) :=
  inferInstanceAs (Decidable (∀ e ∈ args.entries, _))

theorem Fits.get {args : ArgMap} {py : Interp} (fits : args.Fits py) {key : String} {v : Value}
    (found : args.get? key = some v) : v.fits py = true :=
  fits (key, v) (get?_eq_some.mp found)

end ArgMap

end LlmMcp
