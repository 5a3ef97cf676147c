import LlmMcp.Literal
import LlmMcp.Builder

/-!
# The `--var` tokens of `llm_support_template`

`_build_template_args` writes `f"{key}={value}"` for every entry of `vars`, and `list_tools`
declares `vars` only as an `object`: its values are any JSON values. An f-string writes a string
as it is and any other value as its `repr`, so `{"n": 1}` and `{"n": "1"}` both become
`--var n=1`, and `true` becomes `True`, `null` `None`, `2.5` `2.5`, a list `['a', 'b']`.

`readValue` reads `repr` text back, with a fuel that bounds the nesting and the lengths of the
lists and dicts. The round trip `readValue_repr` holds for every value, whatever follows its
text but a character that would continue a number, so `repr` is injective
(`Value.repr_injective`) and `str` confuses two values only when one is a string that spells the
`repr` of the other (`text_eq_iff`). The template's tokens therefore determine the
`vars` dict up to exactly that (`varsTokens_eq_iff`).
-/

namespace LlmMcp

/-! ## The reader -/

def openBrace : Char := Char.ofNat 123
def closeBrace : Char := Char.ofNat 125

mutual
/-- Reads one value as `repr` writes it, and what follows it. -/
def readValue : Nat → List Char → Option (Value × List Char)
  | 0, _ => none
  | _ + 1, [] => none
  | fuel + 1, c :: cs =>
      if c = 'N' then (dropLit "one" cs).map fun rest => (.null, rest)
      else if c = 'T' then (dropLit "rue" cs).map fun rest => (.bool true, rest)
      else if c = 'F' then (dropLit "alse" cs).map fun rest => (.bool false, rest)
      else if c = '[' then
        if cs.head? = some ']' then some (.list [], cs.drop 1)
        else (readItems fuel cs).map fun r => (.list r.1, r.2)
      else if c = openBrace then
        if cs.head? = some closeBrace then some (.dict [], cs.drop 1)
        else (readEntries fuel cs).map fun r => (.dict r.1, r.2)
      else if c = singleQuote ∨ c = doubleQuote then
        (readStrLit (c :: cs)).map fun r => (.str r.1, r.2)
      else if c = 'n' then (dropLit "an" cs).map fun rest => (.float .nan, rest)
      else readNumber (c :: cs)

/-- Reads the items of a list that is not empty, up to its closing bracket. -/
def readItems : Nat → List Char → Option (List Value × List Char)
  | 0, _ => none
  | fuel + 1, cs =>
      match readValue fuel cs with
      | some (v, ']' :: rest) => some ([v], rest)
      | some (v, ',' :: ' ' :: rest) => (readItems fuel rest).map fun r => (v :: r.1, r.2)
      | _ => none

/-- Reads the entries of a dict that is not empty, up to its closing brace. -/
def readEntries : Nat → List Char → Option (List (String × Value) × List Char)
  | 0, _ => none
  | fuel + 1, cs =>
      match readStrLit cs with
      | some (k, ':' :: ' ' :: afterKey) =>
          match readValue fuel afterKey with
          | some (v, c :: rest) =>
              if c = closeBrace then some ([(k, v)], rest)
              else if c = ',' then
                match rest with
                | ' ' :: more => (readEntries fuel more).map fun r => ((k, v) :: r.1, r.2)
                | _ => none
              else none
          | _ => none
      | _ => none
end

mutual
/-- The fuel `readValue` needs: one for each value, item and entry. -/
def Value.size : Value → Nat
  | .list items => Value.itemsSize items + 1
  | .dict entries => Value.entriesSize entries + 1
  | _ => 1

def Value.itemsSize : List Value → Nat
  | [] => 0
  | v :: vs => v.size + Value.itemsSize vs + 1

def Value.entriesSize : List (String × Value) → Nat
  | [] => 0
  | (_, v) :: es => v.size + Value.entriesSize es + 1
end

theorem Value.size_pos (v : Value) : 0 < v.size := by
  cases v <;> simp [Value.size]

/-! ## Pieces of text -/

theorem intercalate_go_append (s : String) :
    ∀ (l : List String) (a b : String),
      String.intercalate.go (a ++ b) s l = a ++ String.intercalate.go b s l
  | [], _, _ => rfl
  | c :: l, a, b => by
      simp only [String.intercalate.go, String.append_assoc]
      exact intercalate_go_append s l a (b ++ (s ++ c))

theorem intercalate_cons_cons (s a b : String) (l : List String) :
    s.intercalate (a :: b :: l) = a ++ s ++ s.intercalate (b :: l) := by
  show String.intercalate.go (a ++ s ++ b) s l = a ++ s ++ String.intercalate.go b s l
  exact intercalate_go_append s l (a ++ s) b

theorem intercalate_cons (s a : String) (l : List String) :
    s.intercalate (a :: l) = a ++ String.intercalate.go "" s l := by
  show String.intercalate.go a s l = _
  simpa using intercalate_go_append s l a ""

theorem comma_data : (", " : String).data = [',', ' '] := rfl

/-- What follows a value inside a list or a dict. -/
theorem delimited_punct {c : Char} (punct : c = ',' ∨ c = ']' ∨ c = closeBrace) (rest : List Char) :
    Delimited (c :: rest) :=
  delimited_cons (by rcases punct with rfl | rfl | rfl <;> decide) rest

/-! ## What a `repr` starts with -/

/-- The first character of a number's `repr`: a minus sign, a digit, or the `i` of `inf`. -/
def NumberStart (c : Char) : Prop := c = '-' ∨ c.isDigit = true ∨ c = 'i'

theorem intText_head (i : Int) : ∃ c cs, (toString i).data = c :: cs ∧ NumberStart c := by
  cases i with
  | ofNat n =>
      obtain ⟨d, ds, split⟩ := List.exists_cons_of_ne_nil (toDigits_spec n).1
      exact ⟨d, ds, split, .inr (.inl ((toDigits_spec n).2.1 d (by simp [split])))⟩
  | negSucc n => exact ⟨'-', _, intText_negSucc n, .inl rfl⟩

theorem floatRepr_head {x : PyFloat} (notNan : x ≠ .nan) :
    ∃ c cs, x.repr.data = c :: cs ∧ NumberStart c := by
  cases x with
  | finite d =>
      obtain ⟨whole, frac, expo, text, nonempty, digits, -⟩ := d.reprDigits_spec
      obtain ⟨c, cs, split⟩ := List.exists_cons_of_ne_nil nonempty
      obtain ⟨tail, start⟩ : ∃ tail, d.reprDigits = c :: tail :=
        ⟨_, by rw [text, numberText, split]; rfl⟩
      cases negative : d.negative
      · exact ⟨c, tail, by simp only [PyFloat.repr, negative, start]; rfl,
          .inr (.inl (digits c (by simp [split])))⟩
      · exact ⟨'-', _, by simp only [PyFloat.repr, negative]; rfl, .inl rfl⟩
  | infinity negative =>
      cases negative
      · exact ⟨'i', _, rfl, .inr (.inr rfl)⟩
      · exact ⟨'-', _, rfl, .inl rfl⟩
  | nan => exact absurd rfl notNan

theorem reprStr_head (py : Interp) (s : String) :
    ∃ q cs, (reprStr py s).data = q :: cs ∧ (q = singleQuote ∨ q = doubleQuote) := by
  unfold reprStr
  split
  · exact ⟨_, _, rfl, .inr rfl⟩
  · exact ⟨_, _, rfl, .inl rfl⟩

/-- No `repr` is empty or starts with a closing bracket. -/
theorem Value.repr_head (py : Interp) (v : Value) : ∃ c cs, (v.repr py).data = c :: cs ∧ c ≠ ']' := by
  have number : ∀ {c}, NumberStart c → c ≠ ']' := by
    rintro c (minus | digit | inf) rfl
    · exact absurd minus (by decide)
    · exact absurd digit (by decide)
    · exact absurd inf (by decide)
  cases v with
  | null | list _ | dict _ => exact ⟨_, _, rfl, by decide⟩
  | bool b => cases b <;> exact ⟨_, _, rfl, by decide⟩
  | int i =>
      obtain ⟨c, cs, text, start⟩ := intText_head i
      exact ⟨c, cs, text, number start⟩
  | float x =>
      by_cases isNan : x = .nan
      · subst isNan
        exact ⟨_, _, rfl, by decide⟩
      · obtain ⟨c, cs, text, start⟩ := floatRepr_head isNan
        exact ⟨c, cs, text, number start⟩
  | str s =>
      obtain ⟨q, cs, text, quoted⟩ := reprStr_head py s
      refine ⟨q, cs, text, ?_⟩
      rcases quoted with rfl | rfl <;> decide

/-! ## One step of `readValue` per first character -/

section Dispatch

variable (fuel : Nat) (cs : List Char)

theorem readValue_list :
    readValue (fuel + 1) ('[' :: cs) =
      if cs.head? = some ']' then some (.list [], cs.drop 1)
      else (readItems fuel cs).map fun r => (.list r.1, r.2) := by
  rw [readValue.eq_3]
  rfl

theorem readValue_dict :
    readValue (fuel + 1) (openBrace :: cs) =
      if cs.head? = some closeBrace then some (.dict [], cs.drop 1)
      else (readEntries fuel cs).map fun r => (.dict r.1, r.2) := by
  rw [readValue.eq_3]
  rfl

theorem readValue_quote {q : Char} (quoted : q = singleQuote ∨ q = doubleQuote) :
    readValue (fuel + 1) (q :: cs) = (readStrLit (q :: cs)).map fun r => (.str r.1, r.2) := by
  rw [readValue.eq_3]
  rcases quoted with rfl | rfl <;> rfl

theorem readValue_number {c : Char} (start : NumberStart c) :
    readValue (fuel + 1) (c :: cs) = readNumber (c :: cs) := by
  have away : ∀ d, d.isDigit = false → d ≠ '-' → d ≠ 'i' → c ≠ d := by
    rintro d notDigit notMinus notI rfl
    rcases start with minus | digit | inf
    · exact notMinus minus
    · exact Bool.noConfusion (digit.symm.trans notDigit)
    · exact notI inf
  rw [readValue.eq_3, if_neg (away 'N' rfl (by decide) (by decide)),
    if_neg (away 'T' rfl (by decide) (by decide)), if_neg (away 'F' rfl (by decide) (by decide)),
    if_neg (away '[' rfl (by decide) (by decide)), if_neg (away openBrace rfl (by decide) (by decide)),
    if_neg (not_or.mpr ⟨away singleQuote rfl (by decide) (by decide),
      away doubleQuote rfl (by decide) (by decide)⟩),
    if_neg (away 'n' rfl (by decide) (by decide))]

end Dispatch

/-! ## The round trip -/

section Roundtrip

variable (py : Interp)

/-- With fuel `fuel`, `readValue` reads back every value of size at most `fuel`. -/
def ReadsValues (fuel : Nat) : Prop :=
  ∀ v : Value, v.size ≤ fuel → ∀ rest, Delimited rest →
    readValue fuel ((v.repr py).data ++ rest) = some (v, rest)

/-- With fuel `fuel`, `readItems` reads back the items of every list of size below `fuel`. -/
def ReadsItems (fuel : Nat) : Prop :=
  ∀ v vs, Value.itemsSize (v :: vs) ≤ fuel → ∀ rest,
    readItems fuel ((", ".intercalate (Value.reprItems py (v :: vs))).data ++ ']' :: rest) =
      some (v :: vs, rest)

/-- With fuel `fuel`, `readEntries` reads back the entries of every dict of size below `fuel`. -/
def ReadsEntries (fuel : Nat) : Prop :=
  ∀ k v es, Value.entriesSize ((k, v) :: es) ≤ fuel → ∀ rest,
    readEntries fuel
        ((", ".intercalate (Value.reprEntries py ((k, v) :: es))).data ++ closeBrace :: rest) =
      some ((k, v) :: es, rest)

theorem readValue_str (fuel : Nat) (s : String) (rest : List Char) :
    readValue (fuel + 1) ((reprStr py s).data ++ rest) = some (.str s, rest) := by
  obtain ⟨q, cs, text, quoted⟩ := reprStr_head py s
  rw [text, List.cons_append, readValue_quote fuel _ quoted, ← List.cons_append, ← text,
    readStrLit_reprStr py s rest]
  rfl

theorem readValue_int (fuel : Nat) (i : Int) {rest : List Char} (delimited : Delimited rest) :
    readValue (fuel + 1) ((toString i).data ++ rest) = some (.int i, rest) := by
  obtain ⟨c, cs, text, start⟩ := intText_head i
  rw [text, List.cons_append, readValue_number fuel _ start, ← List.cons_append, ← text,
    readNumber_intText i delimited]

theorem readValue_float (fuel : Nat) (x : PyFloat) {rest : List Char} (delimited : Delimited rest) :
    readValue (fuel + 1) (x.repr.data ++ rest) = some (.float x, rest) := by
  by_cases isNan : x = .nan
  · subst isNan
    show readValue (fuel + 1) ('n' :: ("an".data ++ rest)) = _
    rw [readValue.eq_3, if_neg (by decide), if_neg (by decide), if_neg (by decide),
      if_neg (by decide), if_neg (show 'n' ≠ openBrace by decide),
      if_neg (show ¬('n' = singleQuote ∨ 'n' = doubleQuote) by decide), if_pos rfl, dropLit_append]
    rfl
  · obtain ⟨c, cs, text, start⟩ := floatRepr_head isNan
    rw [text, List.cons_append, readValue_number fuel _ start, ← List.cons_append, ← text,
      readNumber_floatRepr isNan delimited]

theorem repr_list_data (items : List Value) (rest : List Char) :
    ((Value.list items).repr py).data ++ rest =
      '[' :: ((", ".intercalate (Value.reprItems py items)).data ++ ']' :: rest) := by
  rw [Value.repr, String.data_append, String.data_append, List.append_assoc, List.append_assoc]
  rfl

theorem repr_dict_data (entries : List (String × Value)) (rest : List Char) :
    ((Value.dict entries).repr py).data ++ rest =
      openBrace :: ((", ".intercalate (Value.reprEntries py entries)).data ++ closeBrace :: rest) := by
  rw [Value.repr, String.data_append, String.data_append, List.append_assoc, List.append_assoc]
  rfl

variable {py}

theorem readsValues_succ {fuel : Nat} (items : ReadsItems py fuel) (entries : ReadsEntries py fuel) :
    ReadsValues py (fuel + 1) := by
  intro v size rest delimited
  cases v with
  | null =>
      show readValue (fuel + 1) ('N' :: ("one".data ++ rest)) = _
      rw [readValue.eq_3, if_pos rfl, dropLit_append]
      rfl
  | bool b =>
      cases b
      · show readValue (fuel + 1) ('F' :: ("alse".data ++ rest)) = _
        rw [readValue.eq_3, if_neg (by decide), if_neg (by decide), if_pos rfl, dropLit_append]
        rfl
      · show readValue (fuel + 1) ('T' :: ("rue".data ++ rest)) = _
        rw [readValue.eq_3, if_neg (by decide), if_pos rfl, dropLit_append]
        rfl
  | int i => exact readValue_int fuel i delimited
  | float x =>
      exact readValue_float fuel x delimited
  | str s => exact readValue_str py fuel s rest
  | list vs =>
      cases vs with
      | nil => rfl
      | cons w ws =>
          obtain ⟨c, cs, text, notClose⟩ := w.repr_head py
          have inside : Value.itemsSize (w :: ws) ≤ fuel := by
            simp only [Value.size] at size
            omega
          have head : ((", ".intercalate (Value.reprItems py (w :: ws))).data ++ ']' :: rest).head? ≠
              some ']' := by
            rw [Value.reprItems, intercalate_cons, String.data_append, text]
            simpa using notClose
          rw [repr_list_data, readValue_list, if_neg head,
            items w ws inside rest]
          rfl
  | dict es =>
      cases es with
      | nil => rfl
      | cons e es =>
          obtain ⟨k, v⟩ := e
          obtain ⟨q, cs, text, quoted⟩ := reprStr_head py k
          have inside : Value.entriesSize ((k, v) :: es) ≤ fuel := by
            simp only [Value.size] at size
            omega
          have head : ((", ".intercalate (Value.reprEntries py ((k, v) :: es))).data ++
              closeBrace :: rest).head? ≠ some closeBrace := by
            rw [Value.reprEntries, intercalate_cons, String.data_append, String.data_append,
              String.data_append, text]
            rcases quoted with rfl | rfl <;> simp [closeBrace, singleQuote, doubleQuote]
          rw [repr_dict_data, readValue_dict, if_neg head,
            entries k v es inside rest]
          rfl

theorem readsItems_succ {fuel : Nat} (values : ReadsValues py fuel) (items : ReadsItems py fuel) :
    ReadsItems py (fuel + 1) := by
  intro v vs size rest
  cases vs with
  | nil =>
      have read := values v (by simp only [Value.itemsSize] at size; omega) (']' :: rest)
        (delimited_punct (.inr (.inl rfl)) rest)
      show readItems (fuel + 1) ((v.repr py).data ++ ']' :: rest) = _
      rw [readItems.eq_2, read]
      rfl
  | cons w ws =>
      have sizes : v.size ≤ fuel ∧ Value.itemsSize (w :: ws) ≤ fuel := by
        simp only [Value.itemsSize] at size ⊢
        omega
      have chunk : ", ".intercalate (Value.reprItems py (v :: w :: ws)) =
          v.repr py ++ ", " ++ ", ".intercalate (Value.reprItems py (w :: ws)) :=
        intercalate_cons_cons ", " (v.repr py) (w.repr py) (Value.reprItems py ws)
      rw [chunk, String.data_append, String.data_append, comma_data, List.append_assoc,
        List.append_assoc, List.cons_append, List.singleton_append, readItems.eq_2,
        values v sizes.1 _ (delimited_punct (.inl rfl) _)]
      simp only [items w ws sizes.2 rest, Option.map_some']

theorem readsEntries_succ {fuel : Nat} (values : ReadsValues py fuel)
    (entries : ReadsEntries py fuel) : ReadsEntries py (fuel + 1) := by
  intro k v es size rest
  have entryText : ∀ tail : List Char, (reprStr py k ++ ": " ++ v.repr py).data ++ tail =
      (reprStr py k).data ++ ':' :: ' ' :: ((v.repr py).data ++ tail) := fun tail => by
    rw [String.data_append, String.data_append, List.append_assoc, List.append_assoc]
    rfl
  cases es with
  | nil =>
      have read := values v (by simp only [Value.entriesSize] at size; omega)
        (closeBrace :: rest) (delimited_punct (.inr (.inr rfl)) rest)
      show readEntries (fuel + 1) ((reprStr py k ++ ": " ++ v.repr py).data ++ closeBrace :: rest) = _
      rw [entryText, readEntries.eq_2, readStrLit_reprStr]
      simp [read]
  | cons e es =>
      obtain ⟨k', v'⟩ := e
      have sizes : v.size ≤ fuel ∧ Value.entriesSize ((k', v') :: es) ≤ fuel := by
        simp only [Value.entriesSize] at size ⊢
        omega
      have chunk : ", ".intercalate (Value.reprEntries py ((k, v) :: (k', v') :: es)) =
          (reprStr py k ++ ": " ++ v.repr py) ++ ", " ++
            ", ".intercalate (Value.reprEntries py ((k', v') :: es)) :=
        intercalate_cons_cons ", " _ _ (Value.reprEntries py es)
      rw [chunk, String.data_append, String.data_append, comma_data, List.append_assoc,
        List.append_assoc, entryText, List.cons_append, List.singleton_append, readEntries.eq_2,
        readStrLit_reprStr]
      simp [values v sizes.1 _ (delimited_punct (.inl rfl) _),
        entries k' v' es sizes.2 rest, if_neg (show ',' ≠ closeBrace by decide)]

end Roundtrip

theorem reads_all (py : Interp) (fuel : Nat) :
    ReadsValues py fuel ∧ ReadsItems py fuel ∧ ReadsEntries py fuel := by
  induction fuel with
  | zero =>
      refine ⟨fun v size => absurd size (Nat.not_le.mpr v.size_pos), fun v vs size => ?_,
        fun k v es size => ?_⟩
      · exact absurd size (by simp [Value.itemsSize])
      · exact absurd size (by simp [Value.entriesSize])
  | succ fuel ih =>
      obtain ⟨values, items, entries⟩ := ih
      exact ⟨readsValues_succ items entries, readsItems_succ values items,
        readsEntries_succ values entries⟩

/-- `repr` text reads back as the value it was written from, with enough fuel and whatever
follows it but a character that would continue a number. -/
theorem readValue_repr (py : Interp) (v : Value) {fuel : Nat} (enough : v.size ≤ fuel)
    {rest : List Char} (delimited : Delimited rest) :
    readValue fuel ((v.repr py).data ++ rest) = some (v, rest) :=
  (reads_all py fuel).1 v enough rest delimited

/-- `repr` is injective: no two values have the same `repr`. -/
theorem Value.repr_injective (py : Interp) : Function.Injective (Value.repr py) := fun v w same => by
  have read := readValue_repr py v (Nat.le_add_right v.size w.size) delimited_nil
  rw [same, readValue_repr py w (Nat.le_add_left w.size v.size) delimited_nil] at read
  exact (Prod.mk.inj (Option.some.inj read)).1.symm

/-! ## `str` -/

/-- `v` is a string that spells the `repr` of `w`, which is not a string. -/
def Value.Spells (py : Interp) (v w : Value) : Prop :=
  w.isStr = false ∧ v = .str (w.repr py)

theorem Value.text_eq_repr {py : Interp} {v : Value} (notStr : v.isStr = false) :
    v.text py = v.repr py := by
  cases v <;> simp_all [Value.isStr, Value.text]

theorem Value.exists_str {v : Value} (string : v.isStr = true) : ∃ s, v = .str s := by
  cases v <;> simp_all [Value.isStr]

/-- `str` of a value that is not a string is a given text exactly when the string of that text
spells it. -/
theorem text_eq_str_iff (py : Interp) {v : Value} (notStr : v.isStr = false) (t : String) :
    v.text py = t ↔ (Value.str t).Spells py v := by
  simp [Value.text_eq_repr notStr, Value.Spells, notStr, eq_comm]

/-- `str` confuses two values only when one is a string that spells the `repr` of the other. -/
theorem text_eq_iff (py : Interp) (v w : Value) :
    v.text py = w.text py ↔ v = w ∨ v.Spells py w ∨ w.Spells py v := by
  cases hv : v.isStr <;> cases hw : w.isStr
  · rw [Value.text_eq_repr hv, Value.text_eq_repr hw]
    refine ⟨fun same => .inl (Value.repr_injective py same), ?_⟩
    rintro (rfl | ⟨-, rfl⟩ | ⟨-, rfl⟩)
    · rfl
    · simp [Value.isStr] at hv
    · simp [Value.isStr] at hw
  · obtain ⟨t, rfl⟩ := Value.exists_str hw
    have differ : v ≠ .str t := by rintro rfl; simp [Value.isStr] at hv
    have notSpelled : ¬ v.Spells py (.str t) := fun ⟨str, _⟩ => by simp [Value.isStr] at str
    rw [show (Value.str t).text py = t from rfl, text_eq_str_iff py hv]
    simp [differ, notSpelled]
  · obtain ⟨s, rfl⟩ := Value.exists_str hv
    have differ : Value.str s ≠ w := by rintro rfl; simp [Value.isStr] at hw
    have notSpelled : ¬ w.Spells py (.str s) := fun ⟨str, _⟩ => by simp [Value.isStr] at str
    rw [show (Value.str s).text py = s from rfl, eq_comm, text_eq_str_iff py hw]
    simp [differ, notSpelled]
  · obtain ⟨s, rfl⟩ := Value.exists_str hv
    obtain ⟨t, rfl⟩ := Value.exists_str hw
    simp [Value.text, Value.Spells, Value.isStr]

/-! ## The tokens of `vars` -/

/-- `k=x` determines `k` and `x` when `k` holds no `=`. -/
theorem assignment_eq_iff {k k' : String} (noEq : '=' ∉ k.data) (noEq' : '=' ∉ k'.data)
    (x x' : String) : k ++ "=" ++ x = k' ++ "=" ++ x' ↔ k = k' ∧ x = x' := by
  refine ⟨fun same => ?_, fun ⟨sameKey, sameText⟩ => sameKey ▸ sameText ▸ rfl⟩
  have split := congrArg splitAssignment same
  rw [splitAssignment_append noEq, splitAssignment_append noEq'] at split
  exact Prod.mk.inj split

theorem varsEntries_eq_iff (py : Interp) (name : String) :
    ∀ {es es' : List (String × Value)}, (∀ e ∈ es, '=' ∉ e.1.data) → (∀ e ∈ es', '=' ∉ e.1.data) →
      ((es.flatMap fun e => [Value.str name, .str (e.1 ++ "=" ++ e.2.text py)]) =
          (es'.flatMap fun e => [.str name, .str (e.1 ++ "=" ++ e.2.text py)]) ↔
        List.Forall₂
          (fun e e' => e.1 = e'.1 ∧ (e.2 = e'.2 ∨ e.2.Spells py e'.2 ∨ e'.2.Spells py e.2)) es es')
  | [], [], _, _ => by simp
  | [], _ :: _, _, _ => by simp
  | _ :: _, [], _, _ => by simp
  | e :: es, e' :: es', noEq, noEq' => by
      simp only [List.flatMap_cons, List.cons_append, List.nil_append, List.cons.injEq,
        Value.str.injEq, true_and, List.forall₂_cons,
        assignment_eq_iff (noEq e (.head _)) (noEq' e' (.head _)), text_eq_iff,
        varsEntries_eq_iff py name (fun x mem => noEq x (.tail _ mem))
          (fun x mem => noEq' x (.tail _ mem)), and_assoc]

/-- `_build_template_args` writes one `--var k=v` per entry of `vars`. When no key holds `=` and
`str` raises on no value, the tokens determine the entries, in order, up to a
string that spells the `repr` of another value: `{"n": 1}` and `{"n": "1"}` give the same
tokens, and nothing else collides. -/
theorem varsTokens_eq_iff {py : Interp} {key name : String} {args args' : ArgMap}
    {es es' : List (String × Value)} (found : args.get? key = some (.dict es))
    (found' : args'.get? key = some (.dict es')) (noEq : ∀ e ∈ es, '=' ∉ e.1.data)
    (noEq' : ∀ e ∈ es', '=' ∉ e.1.data) (fit : es.all (·.2.fits py) = true)
    (fit' : es'.all (·.2.fits py) = true) :
    (Step.vars key name).run py args = (Step.vars key name).run py args' ↔
      List.Forall₂
        (fun e e' => e.1 = e'.1 ∧ (e.2 = e'.2 ∨ e.2.Spells py e'.2 ∨ e'.2.Spells py e.2)) es es' := by
  have run : ∀ {a : ArgMap} {xs : List (String × Value)}, a.get? key = some (.dict xs) →
      xs.all (·.2.fits py) = true → (Step.vars key name).run py a =
        .ok (xs.flatMap fun e => [.str name, .str (e.1 ++ "=" ++ e.2.text py)]) := by
    intro a xs found fit
    simp [Step.run, ArgMap.contains, ArgMap.get, found, Value.items, bind, Except.bind,
      varTokens_eq, fit]
  rw [run found fit, run found' fit', Except.ok.injEq]
  exact varsEntries_eq_iff py name noEq noEq'

theorem template_int_var_spelled_as_string :
    let args : ArgMap := ⟨[("vars", .dict [("n", .int 1)])], by decide⟩
    let args' : ArgMap := ⟨[("vars", .dict [("n", .str "1")])], by decide⟩
    args.get? "vars" = some (.dict [("n", .int 1)]) ∧
      args'.get? "vars" = some (.dict [("n", .str "1")]) ∧
      (∀ e ∈ [("n", Value.int 1)], '=' ∉ e.1.data) ∧ (∀ e ∈ [("n", Value.str "1")], '=' ∉ e.1.data) ∧
      [("n", Value.int 1)].all (·.2.fits sampleInterp) = true ∧
      [("n", Value.str "1")].all (·.2.fits sampleInterp) = true ∧
      (Step.vars "vars" "--var").run sampleInterp args =
        (Step.vars "vars" "--var").run sampleInterp args' := by
  intro args args'
  have found : args.get? "vars" = some (.dict [("n", .int 1)]) := rfl
  have found' : args'.get? "vars" = some (.dict [("n", .str "1")]) := rfl
  have noEq : ∀ e ∈ [("n", Value.int 1)], '=' ∉ e.1.data := by decide
  have noEq' : ∀ e ∈ [("n", Value.str "1")], '=' ∉ e.1.data := by decide
  have fit : [("n", Value.int 1)].all (·.2.fits sampleInterp) = true := by decide
  have fit' : [("n", Value.str "1")].all (·.2.fits sampleInterp) = true := by decide
  exact ⟨found, found', noEq, noEq', fit, fit', (varsTokens_eq_iff found found' noEq noEq' fit
    fit').mpr (.cons ⟨rfl, .inr (.inr ⟨rfl, rfl⟩)⟩ .nil)⟩

end LlmMcp
