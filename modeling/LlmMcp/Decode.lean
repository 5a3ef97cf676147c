import LlmMcp.Value

/-!
# How a backend reads its command line

The backends, the `llm-support` binary and `llm_clarification.py`, are not part of these
sources. What the servers rely on is that they parse the tokens after the subcommand in the
GNU style, and `decodeArgs` is that reading:

* a token that starts with `-` names an option of the subcommand: a switch sets its parameter to
  `true`; an option that takes a value takes the next token, whatever it is, as text, as a
  decimal integer, or as a `k=v` pair added to a dict, split at the first `=`; an option the
  subcommand does not know, or a value option with no token after it, is an error;
* every other token is positional; the positional parameters take them in order, and a list
  parameter takes every one that is left.

Whatever the tokens, reading adds only positional tokens that do not start with `-`, adds only
`k=v` keys without `=`, writes no float, and sets only the parameters an option names
(`readTokens_reads`); `assign` writes only positional tokens (`assign_shape`).
-/

namespace LlmMcp

/-! ## The reader -/

/-- How an option reads the command line. -/
inductive OptionKind where
  /-- takes the next token as text -/
  | text
  /-- takes the next token as a decimal integer -/
  | integer
  /-- takes the next token as a `k=v` pair of a dict -/
  | pair
  /-- takes no token and sets its parameter to `true` -/
  | switch
  /-- takes no token and sets nothing -/
  | ignored
deriving DecidableEq, Repr

/-- The command line of one subcommand. -/
structure Surface where
  /-- each option's name, the parameter it sets and how it reads -/
  options : List (String × String × OptionKind)
  /-- the positional parameters in order; `true` for one that takes every remaining token -/
  slots : List (String × Bool)
deriving DecidableEq

def isOptionToken (t : String) : Bool := t.data.head? == some '-'

/-- `k=v`, split at the first `=`. -/
def splitAssignment (t : String) : String × String :=
  (⟨t.data.takeWhile (· != '=')⟩, ⟨(t.data.dropWhile (· != '=')).drop 1⟩)

def readNat (ds : List Char) : Option Nat :=
  if ds ≠ [] ∧ ds.all Char.isDigit then some (decimalValue ds) else none

def readInt (t : String) : Option Int :=
  match t.data with
  | c :: ds =>
      if c = '-' then (readNat ds).map fun n => -(n : Int) else (readNat (c :: ds)).map Int.ofNat
  | [] => none

/-- The parameters read so far. -/
abbrev Fields := List (String × Value)

def Fields.set (fs : Fields) (key : String) (v : Value) : Fields :=
  (key, v) :: fs.filter (·.1 != key)

/-- The pairs a dict parameter holds so far. -/
def Fields.pairs (fs : Fields) (key : String) : List (String × Value) :=
  match fs.lookup key with
  | some (.dict entries) => entries
  | _ => []

/-- What a value option does with the token after it. -/
def Fields.take (fs : Fields) (key : String) : OptionKind → String → Option Fields
  | .text, v => some (fs.set key (.str v))
  | .integer, v => (readInt v).map fun i => fs.set key (.int i)
  | .pair, v =>
      some (fs.set key (.dict (fs.pairs key ++
        [((splitAssignment v).1, .str (splitAssignment v).2)])))
  | .switch, _ | .ignored, _ => none

/-- Reads the tokens left to right, setting option parameters and keeping positional tokens. -/
def readTokens (surf : Surface) :
    List String → Fields → List String → Option (Fields × List String)
  | [], fs, pos => some (fs, pos)
  | t :: rest, fs, pos =>
      if isOptionToken t then
        match surf.options.lookup t with
        | some (key, .switch) => readTokens surf rest (fs.set key (.bool true)) pos
        | some (_, .ignored) => readTokens surf rest fs pos
        | some (key, kind) =>
            match rest with
            | v :: rest' => (fs.take key kind v).bind fun fs' => readTokens surf rest' fs' pos
            | [] => none
        | none => none
      else readTokens surf rest fs (pos ++ [t])

/-- Gives the positional tokens to the positional parameters in order. -/
def assign : List (String × Bool) → List String → Fields → Option Fields
  | [], [], fs => some fs
  | [], _ :: _, _ => none
  | (key, true) :: slots, pos, fs => assign slots [] (fs.set key (.list (pos.map .str)))
  | (key, false) :: slots, t :: pos, fs => assign slots pos (fs.set key (.str t))
  | (_, false) :: slots, [], fs => assign slots [] fs

def decodeArgs (surf : Surface) (tokens : List String) : Option Fields := do
  let (fs, pos) ← readTokens surf tokens [] []
  assign surf.slots pos fs

/-! ## Fields -/

theorem lookup_filter_ne (fs : Fields) (key k : String) :
    (fs.filter (·.1 != key)).lookup k = if k = key then none else fs.lookup k := by
  induction fs with
  | nil => simp
  | cons head tail ih =>
      obtain ⟨j, v⟩ := head
      rw [List.filter_cons]
      by_cases same : j = key
      · subst same
        simp only [bne_self_eq_false, Bool.false_eq_true, if_false, ih, lookup_cons_ite]
        by_cases hk : k = j <;> simp [hk]
      · have keep : (j != key) = true := by simpa using same
        simp only [keep, if_true, lookup_cons_ite, ih]
        by_cases hk : k = j
        · subst hk
          simp [same]
        · simp [hk]

@[simp] theorem Fields.lookup_set (fs : Fields) (key k : String) (v : Value) :
    (fs.set key v).lookup k = if k = key then some v else fs.lookup k := by
  by_cases hk : k = key <;> simp [Fields.set, lookup_cons_ite, lookup_filter_ne, hk]

@[simp] theorem Fields.set_set (fs : Fields) (key : String) (v w : Value) :
    (fs.set key v).set key w = fs.set key w := by
  simp [Fields.set, List.filter_cons, List.filter_filter]

@[simp] theorem Fields.pairs_set (fs : Fields) (key : String) (entries : List (String × Value)) :
    (fs.set key (.dict entries)).pairs key = entries := by
  simp [Fields.pairs]

/-! ## One token at a time -/

section Tokens

variable {surf : Surface} {t : String} {rest : List String} {fs : Fields} {pos : List String}
  {key : String}

theorem readTokens_bare (bare : isOptionToken t = false) :
    readTokens surf (t :: rest) fs pos = readTokens surf rest fs (pos ++ [t]) := by
  simp [readTokens, bare]

theorem readTokens_bares {ts : List String} (bare : ∀ t ∈ ts, isOptionToken t = false) :
    readTokens surf (ts ++ rest) fs pos = readTokens surf rest fs (pos ++ ts) := by
  induction ts generalizing pos with
  | nil => simp
  | cons t ts ih =>
      simp only [List.forall_mem_cons] at bare
      simp [readTokens_bare bare.1, ih bare.2]

theorem readTokens_switch (dash : isOptionToken t = true)
    (found : surf.options.lookup t = some (key, .switch)) :
    readTokens surf (t :: rest) fs pos = readTokens surf rest (fs.set key (.bool true)) pos := by
  simp [readTokens, dash, found]

theorem readTokens_ignored (dash : isOptionToken t = true)
    (found : surf.options.lookup t = some (key, .ignored)) :
    readTokens surf (t :: rest) fs pos = readTokens surf rest fs pos := by
  simp [readTokens, dash, found]

theorem readTokens_value {kind : OptionKind} (dash : isOptionToken t = true)
    (found : surf.options.lookup t = some (key, kind)) (takes : kind ≠ .switch ∧ kind ≠ .ignored)
    (v : String) :
    readTokens surf (t :: v :: rest) fs pos =
      (fs.take key kind v).bind fun fs' => readTokens surf rest fs' pos := by
  cases kind <;> simp_all [readTokens]

/-- A value option followed by its value is read in one step. -/
theorem readTokens_option {name : String} {kind : OptionKind}
    (found : surf.options.lookup name = some (key, kind) ∧ isOptionToken name = true)
    (takes : kind ≠ .switch ∧ kind ≠ .ignored) (text : String) {fs' : Fields}
    (taken : fs.take key kind text = some fs') (rest : List String) (pos : List String) :
    readTokens surf ([name, text] ++ rest) fs pos = readTokens surf rest fs' pos := by
  simp [readTokens_value found.2 found.1 takes, taken]

end Tokens

/-! ## Values written as text -/

theorem readNat_toDigits (n : Nat) : readNat (Nat.toDigits 10 n) = some n := by
  obtain ⟨nonempty, digits, value⟩ := toDigits_spec n
  simp [readNat, nonempty, List.all_eq_true.mpr digits, value]

/-- `str(i)` is read back as `i`. -/
theorem readInt_toString : ∀ i : Int, readInt (toString i) = some i
  | .ofNat n => by
      show readInt (toString (n : Int)) = some (n : Int)
      obtain ⟨c, ds, split⟩ := List.exists_cons_of_ne_nil (toDigits_spec n).1
      have notMinus : c ≠ '-' := fun minus => by
        have digit := (toDigits_spec n).2.1 c (by simp [split])
        simp [minus] at digit
      have read := readNat_toDigits n
      rw [split] at read
      simp only [readInt, intText_ofNat, split, notMinus, if_false, read]
      rfl
  | .negSucc n => by
      simp only [readInt, intText_negSucc, if_true, readNat_toDigits]
      rw [Int.negSucc_eq]
      simp

theorem splitAssignment_append {k : String} (noEq : '=' ∉ k.data) (x : String) :
    splitAssignment (k ++ "=" ++ x) = (k, x) := by
  have split : ∀ {ks : List Char}, '=' ∉ ks → ∀ r, (ks ++ '=' :: r).takeWhile (· != '=') = ks ∧
      (ks ++ '=' :: r).dropWhile (· != '=') = '=' :: r := by
    intro ks
    induction ks with
    | nil => simp
    | cons c cs ih =>
        intro absent r
        simp only [List.mem_cons, not_or] at absent
        have differ : (c != '=') = true := bne_iff_ne.mpr (Ne.symm absent.1)
        simp [List.takeWhile_cons, List.dropWhile_cons, differ, ih absent.2]
  obtain ⟨taken, dropped⟩ := split noEq x.data
  simp only [splitAssignment, String.data_append]
  simp only [show ("=" : String).data = ['='] from rfl, List.append_assoc, List.singleton_append]
  rw [taken, dropped]
  rfl

theorem splitAssignment_key (t : String) : '=' ∉ (splitAssignment t).1.data := fun mem => by
  simpa using List.mem_takeWhile_imp mem

/-! ## What reading can do -/

/-- The keys of the `k=v` pairs read so far hold no `=`. -/
def PairsClean (fs : Fields) : Prop :=
  ∀ k entries, fs.lookup k = some (.dict entries) → ∀ e ∈ entries, '=' ∉ e.1.data

/-- No parameter holds a `float`: the reader writes text, integers, pairs, `true` and lists. -/
def NoFloats (fs : Fields) : Prop :=
  ∀ k x, fs.lookup k ≠ some (.float x)

theorem NoFloats.set {fs : Fields} (none : NoFloats fs) {key : String} {v : Value}
    (notFloat : ∀ x, v ≠ .float x) : NoFloats (fs.set key v) := by
  intro k x found
  by_cases same : k = key
  · simp only [Fields.lookup_set, same, if_true, Option.some.injEq] at found
    exact notFloat x found
  · simp only [Fields.lookup_set, same, if_false] at found
    exact none k x found

/-- A parameter no option of the surface sets. -/
def Surface.unset (surf : Surface) (k : String) : Prop :=
  ∀ e ∈ surf.options, e.2.1 = k → e.2.2 = .ignored

/-- What reading tokens does to the state: the positional tokens it adds do not start with `-`,
the pairs it adds have keys without `=`, it writes no float, and a parameter no option sets
keeps its value. -/
structure ReadStep (surf : Surface) (fs : Fields) (pos : List String) (fs' : Fields)
    (pos' : List String) : Prop where
  bare : ∀ t ∈ pos', t ∈ pos ∨ isOptionToken t = false
  pairs : PairsClean fs → PairsClean fs'
  floats : NoFloats fs → NoFloats fs'
  frame : ∀ k, surf.unset k → fs'.lookup k = fs.lookup k

theorem PairsClean.set {fs : Fields} (clean : PairsClean fs) {key : String} {v : Value}
    (fresh : ∀ entries, v = .dict entries → ∀ e ∈ entries, '=' ∉ e.1.data) :
    PairsClean (fs.set key v) := by
  intro k entries found
  by_cases same : k = key
  · simp only [Fields.lookup_set, same, if_true, Option.some.injEq] at found
    exact fresh entries found
  · simp only [Fields.lookup_set, same, if_false] at found
    exact clean k entries found

theorem PairsClean.pairs {fs : Fields} (clean : PairsClean fs) (key : String) :
    ∀ e ∈ fs.pairs key, '=' ∉ e.1.data := by
  unfold Fields.pairs
  split
  · next entries found => exact clean key entries found
  · simp

section ReadStep

variable {surf : Surface} {fs fs₁ fs₂ : Fields} {pos pos₁ pos₂ : List String}

theorem ReadStep.refl : ReadStep surf fs pos fs pos :=
  ⟨fun _ mem => .inl mem, id, id, fun _ _ => rfl⟩

theorem ReadStep.trans (first : ReadStep surf fs pos fs₁ pos₁)
    (second : ReadStep surf fs₁ pos₁ fs₂ pos₂) : ReadStep surf fs pos fs₂ pos₂ :=
  ⟨fun t mem => (second.bare t mem).elim (first.bare t) .inr, second.pairs ∘ first.pairs,
    second.floats ∘ first.floats, fun k unset => (second.frame k unset).trans (first.frame k unset)⟩

theorem ReadStep.keep {t : String} (bare : isOptionToken t = false) :
    ReadStep surf fs pos fs (pos ++ [t]) :=
  ⟨fun u mem => by
    rcases List.mem_append.mp mem with old | new
    · exact .inl old
    · exact .inr (List.mem_singleton.mp new ▸ bare), id, id, fun _ _ => rfl⟩

theorem ReadStep.set {t key : String} {kind : OptionKind} (listed : (t, key, kind) ∈ surf.options)
    (sets : kind ≠ .ignored) {v : Value}
    (fresh : PairsClean fs → ∀ entries, v = .dict entries → ∀ e ∈ entries, '=' ∉ e.1.data)
    (notFloat : ∀ x, v ≠ .float x) :
    ReadStep surf fs pos (fs.set key v) pos where
  bare _ mem := .inl mem
  pairs clean := clean.set (fresh clean)
  floats none := none.set notFloat
  frame k unset := by
    have differ : k ≠ key := fun same => sets (unset _ listed same.symm)
    simp [differ]

theorem ReadStep.take {t key : String} {kind : OptionKind} (listed : (t, key, kind) ∈ surf.options)
    {v : String} (taken : fs.take key kind v = some fs₁) : ReadStep surf fs pos fs₁ pos := by
  cases kind with
  | text =>
      simp only [Fields.take, Option.some.injEq] at taken
      subst taken
      exact .set listed (by decide) (by simp) (by simp)
  | integer =>
      obtain ⟨i, -, rfl⟩ := Option.map_eq_some'.mp taken
      exact .set listed (by decide) (by simp) (by simp)
  | pair =>
      simp only [Fields.take, Option.some.injEq] at taken
      subst taken
      refine .set listed (by decide) (fun clean entries equal e mem => ?_) (by simp)
      simp only [Value.dict.injEq] at equal
      subst equal
      rcases List.mem_append.mp mem with old | new
      · exact clean.pairs key e old
      · rw [List.mem_singleton.mp new]
        exact splitAssignment_key v
  | switch | ignored => simp [Fields.take] at taken

end ReadStep

theorem readTokens_reads {surf : Surface} :
    ∀ {toks : List String} {fs : Fields} {pos : List String} {fs' : Fields} {pos' : List String},
      readTokens surf toks fs pos = some (fs', pos') → ReadStep surf fs pos fs' pos'
  | [], fs, pos, fs', pos', read => by
      simp only [readTokens, Option.some.injEq, Prod.mk.injEq] at read
      obtain ⟨rfl, rfl⟩ := read
      exact .refl
  | t :: rest, fs, pos, fs', pos', read => by
      by_cases dash : isOptionToken t
      · cases found : surf.options.lookup t with
        | none => simp [readTokens, dash, found] at read
        | some target =>
            obtain ⟨key, kind⟩ := target
            have listed := mem_of_lookup_eq_some found
            cases kind with
            | switch =>
                rw [readTokens_switch dash found] at read
                exact (ReadStep.set listed (by decide) (by simp) (by simp)).trans
                  (readTokens_reads read)
            | ignored =>
                rw [readTokens_ignored dash found] at read
                exact readTokens_reads read
            | text | integer | pair =>
                cases rest with
                | nil => simp [readTokens, dash, found] at read
                | cons v rest =>
                    rw [readTokens_value dash found (by decide) v] at read
                    obtain ⟨fs₁, taken, read⟩ := Option.bind_eq_some.mp read
                    exact (ReadStep.take listed taken).trans (readTokens_reads read)
      · have bare : isOptionToken t = false := by simpa using dash
        rw [readTokens_bare bare] at read
        exact ReadStep.keep bare |>.trans (readTokens_reads read)

/-- A value made of tokens that do not start with `-`: what `assign` writes. -/
def Value.bareText : Value → Prop
  | .str t => isOptionToken t = false
  | .list items => ∀ v ∈ items, ∃ t, v = .str t ∧ isOptionToken t = false
  | _ => False

theorem lookup_set_shape {fs fs' : Fields} {key k : String} {v : Value} (bare : v.bareText)
    (shape : fs'.lookup k = (fs.set key v).lookup k ∨ ∃ w, fs'.lookup k = some w ∧ w.bareText) :
    fs'.lookup k = fs.lookup k ∨ ∃ w, fs'.lookup k = some w ∧ w.bareText := by
  rcases shape with same | written
  · by_cases hk : k = key
    · exact .inr ⟨v, by simpa [hk] using same, bare⟩
    · exact .inl (by simpa [hk] using same)
  · exact .inr written

theorem assign_shape : ∀ {slots : List (String × Bool)} {pos : List String} {fs fs' : Fields},
    assign slots pos fs = some fs' → (∀ t ∈ pos, isOptionToken t = false) →
      ∀ k, fs'.lookup k = fs.lookup k ∨ ∃ w, fs'.lookup k = some w ∧ w.bareText
  | [], [], fs, fs', assigned, _, _ => by
      simp only [assign, Option.some.injEq] at assigned
      exact .inl (by rw [assigned])
  | [], _ :: _, _, _, assigned, _, _ => by simp [assign] at assigned
  | (key, true) :: slots, pos, fs, fs', assigned, bare, k => by
      rw [assign] at assigned
      refine lookup_set_shape (v := .list (pos.map .str)) ?_ (assign_shape assigned (by simp) k)
      intro v mem
      obtain ⟨t, listed, rfl⟩ := List.mem_map.mp mem
      exact ⟨t, rfl, bare t listed⟩
  | (key, false) :: slots, t :: pos, fs, fs', assigned, bare, k => by
      rw [assign] at assigned
      simp only [List.forall_mem_cons] at bare
      exact lookup_set_shape (v := .str t) bare.1 (assign_shape assigned bare.2 k)
  | (_, false) :: slots, [], fs, fs', assigned, _, k => by
      rw [assign] at assigned
      exact assign_shape assigned (by simp) k

theorem decodeArgs_eq_some {surf : Surface} {tokens : List String} {fields : Fields}
    (decoded : decodeArgs surf tokens = some fields) :
    ∃ fs pos, readTokens surf tokens [] [] = some (fs, pos) ∧ assign surf.slots pos fs = some fields := by
  simp only [decodeArgs] at decoded
  cases read : readTokens surf tokens [] [] with
  | none => simp [read] at decoded
  | some r =>
      obtain ⟨fs, pos⟩ := r
      exact ⟨fs, pos, rfl, by simpa [read] using decoded⟩

/-- What a decoded map can hold: dicts whose keys have no `=`, no float, and, for a parameter no
option sets, only positional tokens, none of which starts with `-`. -/
theorem decodeArgs_shape {surf : Surface} {tokens : List String} {fields : Fields}
    (decoded : decodeArgs surf tokens = some fields) :
    PairsClean fields ∧ NoFloats fields ∧
      ∀ k, surf.unset k → ∀ v, fields.lookup k = some v → v.bareText := by
  obtain ⟨fs, pos, read, assigned⟩ := decodeArgs_eq_some decoded
  have reads := readTokens_reads read
  have shape := assign_shape assigned fun t mem => (reads.bare t mem).resolve_left (List.not_mem_nil t)
  refine ⟨fun k entries found => ?_, fun k x found => ?_, fun k unset v found => ?_⟩
  · rcases shape k with same | ⟨w, written, bare⟩
    · exact reads.pairs (fun _ _ empty => by simp at empty) k entries (same.symm.trans found)
    · rw [found, Option.some.injEq] at written
      subst written
      exact bare.elim
  · rcases shape k with same | ⟨w, written, bare⟩
    · exact reads.floats (fun _ _ empty => by simp at empty) k x (same.symm.trans found)
    · rw [found, Option.some.injEq] at written
      subst written
      exact bare.elim
  · rcases shape k with same | ⟨w, written, bare⟩
    · rw [reads.frame k unset, found] at same
      simp at same
    · rw [found, Option.some.injEq] at written
      subst written
      exact bare

end LlmMcp
