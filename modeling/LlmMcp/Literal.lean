import LlmMcp.Decode

/-!
# Reading literals back

`repr` writes a string between quotes with the escapes of `escapeChar`, an `int` as its decimal
digits, and a `float` as `format_float_short` does. The readers of this module undo each of
these:

* `readStrLit` reads a string literal, `\x`, `\u` and `\U` escapes included
  (`readStrLit_reprStr`);
* `readNumber` reads an `int` or a `float`: `inf`, or digits with a point or an exponent, whose
  significand and exponent it brings to the canonical `Decimal` (`readNumber_intText`,
  `readNumber_floatRepr`).

A number is read back whatever follows it but a character that would continue it: a digit, a
point or an `e` (`Delimited`).
-/

namespace LlmMcp

/-! ## The readers -/

/-- The value of a hexadecimal digit as `repr` writes it: `0` to `9`, then `a` to `f`. -/
def hexValue (c : Char) : Option Nat :=
  if c.isDigit then some (c.toNat - 48)
  else if 97 ≤ c.toNat ∧ c.toNat ≤ 102 then some (c.toNat - 87)
  else none

/-- The character a one-letter escape stands for. -/
def unescape (e : Char) : Char :=
  if e = 't' then '\t' else if e = 'n' then '\n' else if e = 'r' then '\r' else e

/-- Where the reader stands inside a string literal: in plain text, after a backslash, or in a
hexadecimal escape with `left` digits still to read and the code `code` read so far. -/
inductive StrState where
  | plain
  | escape
  | hex (left code : Nat)

/-- The characters of a string literal quoted by `quote`, read up to the closing quote with the
escapes of `escapeChar` undone, and what follows the literal. -/
def readStrBody (quote : Char) : StrState → List Char → Option (List Char × List Char)
  | _, [] => none
  | .plain, c :: rest =>
      if c = quote then some ([], rest)
      else if c = backslash then readStrBody quote .escape rest
      else (readStrBody quote .plain rest).map fun r => (c :: r.1, r.2)
  | .escape, e :: rest =>
      if e = 'x' then readStrBody quote (.hex 2 0) rest
      else if e = 'u' then readStrBody quote (.hex 4 0) rest
      else if e = 'U' then readStrBody quote (.hex 8 0) rest
      else (readStrBody quote .plain rest).map fun r => (unescape e :: r.1, r.2)
  | .hex left code, h :: rest =>
      match hexValue h with
      | none => none
      | some d =>
          if left ≤ 1 then
            (readStrBody quote .plain rest).map fun r => (Char.ofNat (16 * code + d) :: r.1, r.2)
          else readStrBody quote (.hex (left - 1) (16 * code + d)) rest

/-- A string literal as `repr` writes it, in single or double quotes. -/
def readStrLit : List Char → Option (String × List Char)
  | c :: cs =>
      if c = singleQuote ∨ c = doubleQuote then (readStrBody c .plain cs).map fun r => (⟨r.1⟩, r.2)
      else none
  | [] => none

/-- What follows the word `lit` at the front of `cs`. -/
def dropLit (lit : String) (cs : List Char) : Option (List Char) :=
  if lit.data.isPrefixOf cs then some (cs.drop lit.data.length) else none

/-- `m` without its trailing zeros, and `e` raised by one for each. -/
def stripZeros (m : Nat) (e : Int) : Nat × Int :=
  if nonzero : m ≠ 0 ∧ m % 10 = 0 then stripZeros (m / 10) (e + 1) else (m, e)
termination_by m
decreasing_by omega

theorem stripZeros_canonical (m : Nat) (e : Int) :
    (stripZeros m e).1 = 0 ∨ (stripZeros m e).1 % 10 ≠ 0 := by
  induction m, e using stripZeros.induct with
  | case1 m e nonzero ih => rwa [stripZeros, dif_pos nonzero]
  | case2 m e stop =>
      rw [stripZeros, dif_neg stop]
      omega

theorem stripZeros_zero (e : Int) : stripZeros 0 e = (0, e) := by
  rw [stripZeros, dif_neg (by omega)]

/-- A significand without a trailing zero, times `10 ^ k`, loses exactly the `k` zeros. -/
theorem stripZeros_mul_pow {m : Nat} (odd : m % 10 ≠ 0) :
    ∀ (k : Nat) (e : Int), stripZeros (m * 10 ^ k) e = (m, e + k)
  | 0, e => by rw [stripZeros, dif_neg (by omega)]; simp
  | k + 1, e => by
      have shifted : m * 10 ^ (k + 1) / 10 = m * 10 ^ k := by
        rw [pow_succ, ← mul_assoc, Nat.mul_div_cancel _ (by decide)]
      have nonzero : m * 10 ^ (k + 1) ≠ 0 ∧ m * 10 ^ (k + 1) % 10 = 0 :=
        ⟨Nat.mul_ne_zero (by omega) (by positivity), by rw [pow_succ, ← mul_assoc, Nat.mul_mod_left]⟩
      rw [stripZeros, dif_pos nonzero, shifted, stripZeros_mul_pow odd k (e + 1)]
      push_cast
      ring_nf

/-- The canonical decimal of `± m × 10 ^ e`. -/
def Decimal.ofDigits (negative : Bool) (m : Nat) (e : Int) : Decimal :=
  ⟨negative, (stripZeros m e).1, if (stripZeros m e).1 = 0 then 0 else (stripZeros m e).2, by
    rcases stripZeros_canonical m e with zero | odd
    · exact .inl ⟨zero, if_pos zero⟩
    · exact .inr odd⟩

/-- The fraction of a number literal: a point and digits, or nothing. -/
def readFraction : List Char → Option (List Char) × List Char
  | '.' :: cs => (some (cs.takeWhile Char.isDigit), cs.dropWhile Char.isDigit)
  | cs => (none, cs)

/-- The exponent of a number literal: `e`, a sign and digits, or nothing. -/
def readExponent : List Char → Option (Option Int × List Char)
  | 'e' :: s :: cs =>
      if s = '+' ∨ s = '-' then
        (readNat (cs.takeWhile Char.isDigit)).map fun n =>
          (some (if s = '-' then -(n : Int) else n), cs.dropWhile Char.isDigit)
      else none
  | cs => some (none, cs)

/-- A number literal without its sign: an `int`, or a `float` as the value of its digits and
its exponent. -/
def readUnsigned (cs : List Char) : Option ((Nat ⊕ Nat × Int) × List Char) := do
  let whole := cs.takeWhile Char.isDigit
  let n ← readNat whole
  let (frac, afterFrac) := readFraction (cs.dropWhile Char.isDigit)
  let (expo, rest) ← readExponent afterFrac
  if frac = none ∧ expo = none then pure (.inl n, rest)
  else
    let digits := frac.getD []
    pure (.inr (decimalValue (whole ++ digits), expo.getD 0 - digits.length), rest)

/-- An `int` or a `float` as `repr` writes it: an optional minus sign, then `inf` or a number
literal. -/
def readNumber (cs : List Char) : Option (Value × List Char) :=
  let negative := cs.head? == some '-'
  let body := if negative then cs.drop 1 else cs
  match dropLit "inf" body with
  | some rest => some (.float (.infinity negative), rest)
  | none =>
      (readUnsigned body).map fun r =>
        match r.1 with
        | .inl n => (.int (if negative then -(n : Int) else n), r.2)
        | .inr (m, e) => (.float (.finite (Decimal.ofDigits negative m e)), r.2)

/-! ## Hexadecimal escapes -/

theorem Char.toNat_lt_unicode (c : Char) : c.toNat < 0x110000 := by
  have valid := c.valid
  simp only [UInt32.isValidChar, Nat.isValidChar] at valid
  unfold Char.toNat
  omega

theorem hexValue_digitChar {n : Nat} (small : n < 16) : hexValue (Nat.digitChar n) = some n := by
  interval_cases n <;> decide

theorem hexDigits_succ (k n : Nat) :
    hexDigits (k + 1) n = Nat.digitChar (n / 16 ^ k % 16) :: hexDigits k n := by
  simp [hexDigits, List.range_succ]

section Body

variable {quote : Char}

theorem readStrBody_quote (rest : List Char) :
    readStrBody quote .plain (quote :: rest) = some ([], rest) := by
  simp [readStrBody]

theorem readStrBody_plain {c : Char} (notQuote : c ≠ quote) (notBackslash : c ≠ backslash)
    (rest : List Char) :
    readStrBody quote .plain (c :: rest) = (readStrBody quote .plain rest).map fun r => (c :: r.1, r.2) := by
  simp [readStrBody, notQuote, notBackslash]

theorem readStrBody_backslash (unquoted : backslash ≠ quote) (rest : List Char) :
    readStrBody quote .plain (backslash :: rest) = readStrBody quote .escape rest := by
  simp [readStrBody, unquoted]

theorem readStrBody_escape {e : Char} (notHex : e ≠ 'x' ∧ e ≠ 'u' ∧ e ≠ 'U') (rest : List Char) :
    readStrBody quote .escape (e :: rest) =
      (readStrBody quote .plain rest).map fun r => (unescape e :: r.1, r.2) := by
  simp [readStrBody, notHex]

/-- `k + 1` hexadecimal digits of `n` read back as `n` modulo `16 ^ (k + 1)`, after the code read
so far. -/
theorem readStrBody_hexDigits (rest : List Char) :
    ∀ (k code n : Nat), readStrBody quote (.hex (k + 1) code) (hexDigits (k + 1) n ++ rest) =
      (readStrBody quote .plain rest).map
        fun r => (Char.ofNat (16 ^ (k + 1) * code + n % 16 ^ (k + 1)) :: r.1, r.2)
  | 0, code, n => by
      simp [hexDigits_succ, hexDigits, readStrBody, hexValue_digitChar (Nat.mod_lt n (by decide))]
  | k + 1, code, n => by
      have digit := hexValue_digitChar (Nat.mod_lt (n / 16 ^ (k + 1)) (by decide : 16 > 0))
      rw [hexDigits_succ, List.cons_append]
      simp only [readStrBody, digit, show ¬ k + 1 + 1 ≤ 1 by omega, if_false,
        show k + 1 + 1 - 1 = k + 1 from rfl, readStrBody_hexDigits rest k]
      have split : n % 16 ^ (k + 1 + 1) =
          n % 16 ^ (k + 1) + 16 ^ (k + 1) * (n / 16 ^ (k + 1) % 16) := by
        rw [pow_succ 16 (k + 1), Nat.mod_mul]
      rw [split, pow_succ 16 (k + 1)]
      ring_nf

/-- A `\x`, `\u` or `\U` escape reads back as the character it was written from. -/
theorem readStrBody_hexEscape (unquoted : backslash ≠ quote) {l : Char} {width : Nat}
    (letter : l = 'x' ∧ width = 2 ∨ l = 'u' ∧ width = 4 ∨ l = 'U' ∧ width = 8) {c : Char}
    (fits : c.toNat < 16 ^ width) (rest : List Char) :
    readStrBody quote .plain (backslash :: l :: (hexDigits width c.toNat ++ rest)) =
      (readStrBody quote .plain rest).map fun r => (c :: r.1, r.2) := by
  rw [readStrBody_backslash unquoted]
  obtain ⟨k, rfl, opening⟩ : ∃ k, width = k + 1 ∧
      readStrBody quote .escape (l :: (hexDigits width c.toNat ++ rest)) =
        readStrBody quote (.hex width 0) (hexDigits width c.toNat ++ rest) := by
    rcases letter with ⟨rfl, rfl⟩ | ⟨rfl, rfl⟩ | ⟨rfl, rfl⟩ <;> exact ⟨_, rfl, by simp [readStrBody]⟩
  rw [opening, readStrBody_hexDigits, Nat.mod_eq_of_lt fits, mul_zero, zero_add,
    Char.ofNat_toNat]

variable (quoted : quote = singleQuote ∨ quote = doubleQuote)
include quoted

/-- Each character comes back from its escaped form. -/
theorem readStrBody_escapeChar (py : Interp) (c : Char) (rest : List Char) :
    readStrBody quote .plain (escapeChar py quote c ++ rest) =
      (readStrBody quote .plain rest).map fun r => (c :: r.1, r.2) := by
  have unquoted : backslash ≠ quote := by rcases quoted with rfl | rfl <;> decide
  have code := Char.toNat_lt_unicode c
  unfold escapeChar
  by_cases special : c = quote ∨ c = backslash
  · have kept : (c ≠ 'x' ∧ c ≠ 'u' ∧ c ≠ 'U') ∧ unescape c = c := by
      rcases special with rfl | rfl <;> rcases quoted with rfl | rfl <;> decide
    rw [if_pos special, List.cons_append, readStrBody_backslash unquoted, List.singleton_append,
      readStrBody_escape kept.1, kept.2]
  rw [if_neg special]
  by_cases tab : c = '\t'
  · subst tab
    exact readStrBody_backslash unquoted _ |>.trans (readStrBody_escape (by decide) rest)
  rw [if_neg tab]
  by_cases newline : c = '\n'
  · subst newline
    exact readStrBody_backslash unquoted _ |>.trans (readStrBody_escape (by decide) rest)
  rw [if_neg newline]
  by_cases ret : c = '\r'
  · subst ret
    exact readStrBody_backslash unquoted _ |>.trans (readStrBody_escape (by decide) rest)
  rw [if_neg ret]
  by_cases control : c.toNat < 32 ∨ c.toNat = 127
  · rw [if_pos control]
    exact readStrBody_hexEscape unquoted (.inl ⟨rfl, rfl⟩) (by omega) rest
  rw [if_neg control]
  by_cases printable : c.toNat < 127 ∨ py.printable c
  · rw [if_pos printable, List.singleton_append]
    exact readStrBody_plain (fun h => special (.inl h)) (fun h => special (.inr h)) rest
  rw [if_neg printable]
  by_cases latin : c.toNat ≤ 0xff
  · rw [if_pos latin]
    exact readStrBody_hexEscape unquoted (.inl ⟨rfl, rfl⟩) (by omega) rest
  rw [if_neg latin]
  by_cases basic : c.toNat ≤ 0xffff
  · rw [if_pos basic]
    exact readStrBody_hexEscape unquoted (.inr (.inl ⟨rfl, rfl⟩)) (by omega) rest
  · rw [if_neg basic]
    exact readStrBody_hexEscape unquoted (.inr (.inr ⟨rfl, rfl⟩)) (by omega) rest

theorem readStrBody_escaped (py : Interp) (rest : List Char) :
    ∀ s : List Char,
      readStrBody quote .plain (s.flatMap (escapeChar py quote) ++ quote :: rest) = some (s, rest)
  | [] => readStrBody_quote rest
  | c :: s => by
      rw [List.flatMap_cons, List.append_assoc, readStrBody_escapeChar quoted,
        readStrBody_escaped py rest s]
      rfl

end Body

theorem readStrLit_reprStr (py : Interp) (s : String) (rest : List Char) :
    readStrLit ((reprStr py s).data ++ rest) = some (s, rest) := by
  have quoted : ∀ q, q = singleQuote ∨ q = doubleQuote →
      readStrLit ((q :: s.data.flatMap (escapeChar py q) ++ [q]) ++ rest) = some (s, rest) := by
    intro q quoted
    simp only [List.cons_append, List.append_assoc, List.singleton_append, readStrLit,
      if_pos quoted, readStrBody_escaped quoted]
    rfl
  unfold reprStr
  split
  · exact quoted _ (.inr rfl)
  · exact quoted _ (.inl rfl)

/-! ## Canonical decimals -/

/-- `Decimal.ofDigits` gives back a decimal from its significand times `10 ^ k` and its exponent
less `k`. -/
theorem Decimal.ofDigits_mul_pow (d : Decimal) (k : Nat) {e : Int} (shift : d.exponent = e + k) :
    Decimal.ofDigits d.negative (d.significand * 10 ^ k) e = d := by
  obtain ⟨negative, m, exponent, canonical⟩ := d
  rcases canonical with ⟨rfl, rfl⟩ | odd
  · simp [Decimal.ofDigits, stripZeros_zero]
  · have nonzero : m ≠ 0 := by omega
    simp only at shift
    simp [Decimal.ofDigits, stripZeros_mul_pow odd, nonzero, shift]

/-! ## Digits -/

/-- What follows a number: a character that cannot continue it. -/
def Delimited (rest : List Char) : Prop :=
  ∀ c ∈ rest.head?, c.isDigit = false ∧ c ≠ '.' ∧ c ≠ 'e'

theorem delimited_nil : Delimited [] := by
  simp [Delimited]

theorem delimited_cons {c : Char} (stops : c.isDigit = false ∧ c ≠ '.' ∧ c ≠ 'e') (rest : List Char) :
    Delimited (c :: rest) := by
  simpa [Delimited] using stops

/-- Digits followed by a non-digit split there. -/
theorem span_digits {ds rest : List Char} (digits : ∀ c ∈ ds, c.isDigit = true)
    (stop : ∀ c ∈ rest.head?, c.isDigit = false) :
    (ds ++ rest).takeWhile Char.isDigit = ds ∧ (ds ++ rest).dropWhile Char.isDigit = rest := by
  have stops : rest.takeWhile Char.isDigit = [] ∧ rest.dropWhile Char.isDigit = rest := by
    cases rest with
    | nil => simp
    | cons c more => simp [stop c rfl]
  exact ⟨by rw [List.takeWhile_append_of_pos digits, stops.1, List.append_nil],
    by rw [List.dropWhile_append_of_pos digits, stops.2]⟩

theorem readNat_digits {ds : List Char} (nonempty : ds ≠ []) (digits : ∀ c ∈ ds, c.isDigit = true) :
    readNat ds = some (decimalValue ds) := by
  simp [readNat, nonempty, List.all_eq_true.mpr digits]

theorem decimalValue_append (a b : List Char) :
    decimalValue (a ++ b) = decimalValue a * 10 ^ b.length + decimalValue b := by
  induction b using List.reverseRecOn with
  | nil => simp [decimalValue]
  | append_singleton b d ih =>
      rw [← List.append_assoc, decimalValue_snoc, ih, decimalValue_snoc, List.length_append,
        List.length_singleton, pow_succ]
      ring

theorem decimalValue_zeros (k : Nat) : decimalValue (List.replicate k '0') = 0 := by
  induction k with
  | zero => rfl
  | succ k ih => rw [List.replicate_succ', decimalValue_snoc, ih]; rfl

theorem decimalValue_zeros_append (k : Nat) (ds : List Char) :
    decimalValue (List.replicate k '0' ++ ds) = decimalValue ds := by
  rw [decimalValue_append, decimalValue_zeros, zero_mul, zero_add]

theorem zero_digits (k : Nat) : ∀ c ∈ List.replicate k '0', c.isDigit = true := by
  simp [List.mem_replicate]

/-! ## Number literals -/

/-- A number literal in pieces: the digits before the point, the digits after it if there is a
point, and the exponent if there is one. -/
def numberText (whole : List Char) (frac : Option (List Char)) (expo : Option Int) : List Char :=
  whole ++ ((frac.map ('.' :: ·)).getD [] ++ (expo.map ('e' :: exponentText ·)).getD [])

theorem exponentText_spec (x : Int) :
    ∃ sign padded, exponentText x = sign :: padded ∧ (sign = '-' ↔ x < 0) ∧ (sign = '+' ∨ sign = '-') ∧
      padded ≠ [] ∧ (∀ c ∈ padded, c.isDigit = true) ∧ decimalValue padded = x.natAbs := by
  obtain ⟨nonempty, digits, value⟩ := toDigits_spec x.natAbs
  refine ⟨if x < 0 then '-' else '+', _, rfl, by split_ifs <;> simp_all, by split_ifs <;> simp, ?_⟩
  split_ifs
  · refine ⟨List.cons_ne_nil _ _, List.forall_mem_cons.mpr ⟨rfl, digits⟩, ?_⟩
    rw [← List.singleton_append, decimalValue_append, value, show decimalValue ['0'] = 0 from rfl,
      zero_mul, zero_add]
  · exact ⟨nonempty, digits, value⟩

theorem readExponent_text (expo : Option Int) {rest : List Char} (delimited : Delimited rest) :
    readExponent ((expo.map ('e' :: exponentText ·)).getD [] ++ rest) = some (expo, rest) := by
  cases expo with
  | none =>
      cases rest with
      | nil => rfl
      | cons c more =>
          have notE : c ≠ 'e' := (delimited c rfl).2.2
          simp only [Option.map_none', Option.getD_none, List.nil_append]
          unfold readExponent
          split
          · rename_i equal
            exact absurd (List.cons.inj equal).1 notE
          · rfl
  | some x =>
      obtain ⟨sign, padded, text, negative, signed, nonempty, digits, value⟩ := exponentText_spec x
      obtain ⟨taken, dropped⟩ := span_digits digits fun c mem => (delimited c mem).1
      simp only [Option.map_some', Option.getD_some, text, List.cons_append, readExponent,
        if_pos signed, taken, dropped, readNat_digits nonempty digits, value, Option.map_some']
      by_cases below : x < 0
      · simp [negative.mpr below, abs_of_neg below]
      · have plus : sign ≠ '-' := fun minus => below (negative.mp minus)
        simp [plus, abs_of_nonneg (not_lt.mp below)]

/-- A number literal reads back as its `int`, or as the value of its digits and its exponent. -/
theorem readUnsigned_numberText {whole : List Char} (nonempty : whole ≠ [])
    (digits : ∀ c ∈ whole, c.isDigit = true) {frac : Option (List Char)}
    (fracDigits : ∀ f ∈ frac, ∀ c ∈ f, c.isDigit = true) (expo : Option Int) {rest : List Char}
    (delimited : Delimited rest) :
    readUnsigned (numberText whole frac expo ++ rest) =
      some (if frac = none ∧ expo = none then .inl (decimalValue whole)
        else .inr (decimalValue (whole ++ frac.getD []), expo.getD 0 - (frac.getD []).length),
        rest) := by
  have expoHead : ∀ c ∈ ((expo.map ('e' :: exponentText ·)).getD [] ++ rest).head?,
      c.isDigit = false ∧ c ≠ '.' := by
    cases expo with
    | none => simpa using fun c mem => ⟨(delimited c mem).1, (delimited c mem).2.1⟩
    | some x => simp
  have fraction : readFraction ((frac.map ('.' :: ·)).getD [] ++
      ((expo.map ('e' :: exponentText ·)).getD [] ++ rest)) =
        (frac, (expo.map ('e' :: exponentText ·)).getD [] ++ rest) := by
    cases frac with
    | none =>
        cases after : (expo.map ('e' :: exponentText ·)).getD [] ++ rest with
        | nil => rfl
        | cons c more =>
            have notPoint : c ≠ '.' := (expoHead c (by simp [after])).2
            simp only [Option.map_none', Option.getD_none, List.nil_append]
            unfold readFraction
            split
            · rename_i equal
              exact absurd (List.cons.inj equal).1 notPoint
            · rfl
    | some f =>
        obtain ⟨taken, dropped⟩ := span_digits (fracDigits f rfl) fun c mem => (expoHead c mem).1
        simp [readFraction, taken, dropped]
  have wholeStop : ∀ c ∈ ((frac.map ('.' :: ·)).getD [] ++
      ((expo.map ('e' :: exponentText ·)).getD [] ++ rest)).head?, c.isDigit = false := by
    cases frac with
    | none => simpa using fun c mem => (expoHead c mem).1
    | some f => simp
  obtain ⟨taken, dropped⟩ := span_digits digits wholeStop
  simp only [readUnsigned, numberText, List.append_assoc, taken, dropped,
    readNat_digits nonempty digits, fraction, readExponent_text expo delimited, Option.bind_eq_bind,
    Option.some_bind]
  split_ifs <;> rfl

/-- `repr` of a finite float as a number literal: pieces that hold a point or an exponent, whose
digits and exponent come back to the decimal. -/
theorem Decimal.reprDigits_spec (d : Decimal) :
    ∃ whole frac expo, d.reprDigits = numberText whole frac expo ∧ whole ≠ [] ∧
      (∀ c ∈ whole, c.isDigit = true) ∧ (∀ f ∈ frac, ∀ c ∈ f, c.isDigit = true) ∧
      ¬ (frac = none ∧ expo = none) ∧
      Decimal.ofDigits d.negative (decimalValue (whole ++ frac.getD []))
        (expo.getD 0 - (frac.getD []).length) = d := by
  have back : ∀ {m : Nat} {x : Int} (k : Nat), m = d.significand * 10 ^ k → d.exponent = x + k →
      Decimal.ofDigits d.negative m x = d := fun k value shift => value ▸ d.ofDigits_mul_pow k shift
  obtain ⟨nonempty, digits, value⟩ := toDigits_spec d.significand
  simp only [Decimal.reprDigits]
  generalize Nat.toDigits 10 d.significand = ds at *
  have length := List.length_pos.mpr nonempty
  have takeDigits : ∀ k, ∀ c ∈ ds.take k, c.isDigit = true :=
    fun _ c mem => digits c (List.mem_of_mem_take mem)
  have dropDigits : ∀ k, ∀ f ∈ some (ds.drop k), ∀ c ∈ f, c.isDigit = true := by
    intro k f mem c inF
    rw [Option.mem_some_iff] at mem
    exact digits c (List.mem_of_mem_drop (mem ▸ inF))
  by_cases scientific : d.exponent + ds.length ≤ -4 ∨ 16 < d.exponent + ds.length
  · rw [if_pos scientific]
    by_cases one : ds.length = 1
    · refine ⟨ds, none, some (d.exponent + ds.length - 1), ?_, nonempty, digits, by simp, by simp,
        back 0 (by simp [value]) (by simp; omega)⟩
      simp [numberText, one, List.take_of_length_le (le_of_eq one)]
    · refine ⟨ds.take 1, some (ds.drop 1), some (d.exponent + ds.length - 1), by simp [numberText, one],
        by simpa using nonempty, takeDigits 1, dropDigits 1, by simp,
        back 0 (by rw [Option.getD_some, List.take_append_drop, value, pow_zero, mul_one])
          (by simp only [Option.getD_some, List.length_drop]; omega)⟩
  rw [if_neg scientific]
  by_cases small : d.exponent + ds.length ≤ 0
  · rw [if_pos small]
    refine ⟨['0'], some (List.replicate (-(d.exponent + ds.length)).toNat '0' ++ ds), none,
      by simp [numberText], by simp, by decide, ?_, by simp, back 0 ?_ (by
        simp only [Option.getD_some, Option.getD_none, List.length_append, List.length_replicate]
        omega)⟩
    · intro f mem c inF
      rw [Option.mem_some_iff] at mem
      rcases List.mem_append.mp (mem ▸ inF) with zero | digit
      · exact zero_digits _ c zero
      · exact digits c digit
    · rw [Option.getD_some, List.singleton_append, ← List.cons_append, ← List.replicate_succ,
        decimalValue_zeros_append, value, pow_zero, mul_one]
  rw [if_neg small]
  by_cases inside : d.exponent + ds.length < ds.length
  · rw [if_pos inside]
    refine ⟨ds.take (d.exponent + ds.length).toNat, some (ds.drop (d.exponent + ds.length).toNat),
      none, by simp [numberText], ?_, takeDigits _, dropDigits _, by simp,
      back 0 (by simp [value]) (by simp only [Option.getD_some, Option.getD_none, List.length_drop]; omega)⟩
    simp only [ne_eq, List.take_eq_nil_iff, not_or]
    exact ⟨by omega, nonempty⟩
  · rw [if_neg inside]
    refine ⟨ds ++ List.replicate ((d.exponent + ds.length).toNat - ds.length) '0', some ['0'], none,
      by simp [numberText], by simp [nonempty], ?_, by simp, by simp,
      back ((d.exponent + ds.length).toNat - ds.length + 1) ?_ (by
        simp only [Option.getD_some, Option.getD_none, List.length_singleton]
        omega)⟩
    · intro c mem
      rcases List.mem_append.mp mem with digit | zero
      · exact digits c digit
      · exact zero_digits _ c zero
    · rw [Option.getD_some, decimalValue_append, decimalValue_append, decimalValue_zeros, value]
      simp [show decimalValue ['0'] = 0 from rfl, pow_succ, mul_assoc]

theorem dropLit_append (lit : String) (rest : List Char) :
    dropLit lit (lit.data ++ rest) = some rest := by
  simp [dropLit, List.isPrefixOf_iff_prefix]

theorem dropLit_inf_of_digit {c : Char} (digit : c.isDigit = true) (cs : List Char) :
    dropLit "inf" (c :: cs) = none := by
  have notI : (('i' : Char) == c) = false := by
    rw [beq_eq_false_iff_ne]
    rintro rfl
    exact absurd digit (by decide)
  simp [dropLit, List.isPrefixOf, notI]

/-- A number literal after an optional minus sign reads back as an `int` when it has neither a
point nor an exponent, and otherwise as the canonical decimal of its digits and exponent. -/
theorem readNumber_numberText (negative : Bool) {whole : List Char} (nonempty : whole ≠ [])
    (digits : ∀ c ∈ whole, c.isDigit = true) {frac : Option (List Char)}
    (fracDigits : ∀ f ∈ frac, ∀ c ∈ f, c.isDigit = true) (expo : Option Int) {rest : List Char}
    (delimited : Delimited rest) :
    readNumber ((if negative then ['-'] else []) ++ numberText whole frac expo ++ rest) =
      some (if frac = none ∧ expo = none then
          .int (if negative then -(decimalValue whole : Int) else decimalValue whole)
        else .float (.finite (Decimal.ofDigits negative (decimalValue (whole ++ frac.getD []))
          (expo.getD 0 - (frac.getD []).length))), rest) := by
  obtain ⟨c, cs, split⟩ := List.exists_cons_of_ne_nil nonempty
  have digit : c.isDigit = true := digits c (by simp [split])
  have notMinus : (some c == some '-') = false := by
    simp only [beq_eq_false_iff_ne, ne_eq, Option.some.injEq]
    rintro rfl
    exact absurd digit (by decide)
  obtain ⟨tail, text⟩ : ∃ tail, numberText whole frac expo ++ rest = c :: tail :=
    ⟨_, by rw [numberText, split]; rfl⟩
  have unsigned := readUnsigned_numberText nonempty digits fracDigits expo delimited
  rw [text] at unsigned
  rw [List.append_assoc, text]
  cases negative <;>
    simp [readNumber, notMinus, dropLit_inf_of_digit digit, unsigned] <;> split_ifs <;> rfl

/-- `str` of an `int` reads back as that `int`. -/
theorem readNumber_intText (i : Int) {rest : List Char} (delimited : Delimited rest) :
    readNumber ((toString i).data ++ rest) = some (.int i, rest) := by
  have noFrac : ∀ f ∈ (none : Option (List Char)), ∀ c ∈ f, c.isDigit = true := fun _ mem => nomatch mem
  have read := fun negative n =>
    readNumber_numberText negative (toDigits_spec n).1 (toDigits_spec n).2.1 noFrac none delimited
  cases i with
  | ofNat n => simpa [numberText, intText_ofNat, (toDigits_spec n).2.2] using read false n
  | negSucc n =>
      rw [intText_negSucc, show Int.negSucc n = -((n + 1 : Nat) : Int) from rfl]
      simpa [numberText, (toDigits_spec (n + 1)).2.2] using read true (n + 1)

/-- `repr` of a float that is not a NaN reads back as that float. -/
theorem readNumber_floatRepr {x : PyFloat} (notNan : x ≠ .nan) {rest : List Char}
    (delimited : Delimited rest) : readNumber (x.repr.data ++ rest) = some (.float x, rest) := by
  cases x with
  | finite d =>
      obtain ⟨whole, frac, expo, text, nonempty, digits, fracDigits, float, back⟩ := d.reprDigits_spec
      have read := readNumber_numberText d.negative nonempty digits fracDigits expo delimited
      rw [if_neg float, back] at read
      rw [← read, ← text]
      rfl
  | infinity negative =>
      have inf : dropLit "inf" ('i' :: 'n' :: 'f' :: rest) = some rest := dropLit_append "inf" rest
      cases negative
      · show readNumber ('i' :: 'n' :: 'f' :: rest) = _
        simp [readNumber, inf]
      · show readNumber ('-' :: 'i' :: 'n' :: 'f' :: rest) = _
        simp [readNumber, inf]
  | nan => exact absurd rfl notNan

end LlmMcp
