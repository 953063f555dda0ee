/- JSON texts: what is written of a value over several lines, and as what it reads. -/

import WorkflowGraph.Json.Parser
import WorkflowGraph.Proofs.Assoc
import WorkflowGraph.Proofs.Numerals

set_option autoImplicit false
set_option relaxedAutoImplicit false

/-!
A written text is the tokens of its value with blanks between them, and the tokens of a value are
read as the value. Two things keep the text from being read as the value it was written of: numerals
are not read as the nearest double, so that a double can come back as one of its neighbours; and the
reading stops where more containers are open than are allowed.
-/

namespace WorkflowGraph

namespace Value

mutual

def depth : Value → Nat
  | .arr items => depthOfItems items + 1
  | .obj members => depthOfMembers members + 1
  | _ => 0

def depthOfItems : List Value → Nat
  | [] => 0
  | v :: rest => max v.depth (depthOfItems rest)

def depthOfMembers : List (String × Value) → Nat
  | [] => 0
  | (_, v) :: rest => max v.depth (depthOfMembers rest)

end

end Value

def Number.reread? (n : Number) : Option Number := Json.numberOfText? (Json.writeNumber n)

def Number.Survives (n : Number) : Prop := n.reread? = some n

instance (n : Number) : Decidable n.Survives := inferInstanceAs (Decidable (_ = _))

@[simp] theorem Number.reread?_int (i : Int) (fits : FitsNumber i) :
    (Number.int i fits).reread? = some (.int i fits) := Json.numberOfText?_ofInt i fits

namespace Value

mutual

/-- The value with what its texts read as in place of its numbers. -/
def reread? : Value → Option Value
  | .num n => n.reread?.map .num
  | .arr items => (rereadItems? items).map .arr
  | .obj members => (rereadMembers? members).map .obj
  | v => some v

def rereadItems? : List Value → Option (List Value)
  | [] => some []
  | v :: rest => (reread? v).bind fun w => (rereadItems? rest).map (w :: ·)

def rereadMembers? : List (String × Value) → Option (List (String × Value))
  | [] => some []
  | (k, v) :: rest => (reread? v).bind fun w => (rereadMembers? rest).map ((k, w) :: ·)

end

mutual

def numbers : Value → List Number
  | .num n => [n]
  | .arr items => numbersOfItems items
  | .obj members => numbersOfMembers members
  | _ => []

def numbersOfItems : List Value → List Number
  | [] => []
  | v :: rest => v.numbers ++ numbersOfItems rest

def numbersOfMembers : List (String × Value) → List Number
  | [] => []
  | (_, v) :: rest => v.numbers ++ numbersOfMembers rest

end

def Survives (v : Value) : Prop := ∀ n ∈ v.numbers, n.Survives

instance (v : Value) : Decidable v.Survives := inferInstanceAs (Decidable (∀ n ∈ v.numbers, _))

mutual

private theorem reread?_shape : ∀ {v w : Value}, v.reread? = some w →
    w.depth = v.depth ∧ (v.Distinct → w.Distinct)
  | .null, _, h | .bool _, _, h | .str _, _, h => by
    obtain rfl := Option.some.inj h
    exact ⟨rfl, id⟩
  | .num n, w, h => by
    obtain ⟨m, -, rfl⟩ := Option.map_eq_some_iff.mp h
    exact ⟨rfl, id⟩
  | .arr items, w, h => by
    obtain ⟨items', read, rfl⟩ := Option.map_eq_some_iff.mp h
    obtain ⟨depth, distinct⟩ := rereadItems?_shape read
    exact ⟨congrArg (· + 1) depth, distinct⟩
  | .obj members, w, h => by
    obtain ⟨members', read, rfl⟩ := Option.map_eq_some_iff.mp h
    obtain ⟨keys, depth, distinct⟩ := rereadMembers?_shape read
    exact ⟨congrArg (· + 1) depth, fun h => ⟨keys.symm ▸ h.1, distinct h.2⟩⟩

private theorem rereadItems?_shape : ∀ {vs ws : List Value}, rereadItems? vs = some ws →
    depthOfItems ws = depthOfItems vs ∧ (DistinctItems vs → DistinctItems ws)
  | [], _, h => by
    obtain rfl := Option.some.inj h
    exact ⟨rfl, id⟩
  | v :: rest, _, h => by
    obtain ⟨w, read, later⟩ := Option.bind_eq_some_iff.mp h
    obtain ⟨ws, read', rfl⟩ := Option.map_eq_some_iff.mp later
    obtain ⟨depth, distinct⟩ := reread?_shape read
    obtain ⟨depth', distinct'⟩ := rereadItems?_shape read'
    exact ⟨congrArg₂ max depth depth', fun h => ⟨distinct h.1, distinct' h.2⟩⟩

private theorem rereadMembers?_shape :
    ∀ {ms ns : List (String × Value)}, rereadMembers? ms = some ns →
    Assoc.keys ns = Assoc.keys ms ∧ depthOfMembers ns = depthOfMembers ms ∧
      (DistinctMembers ms → DistinctMembers ns)
  | [], _, h => by
    obtain rfl := Option.some.inj h
    exact ⟨rfl, rfl, id⟩
  | (k, v) :: rest, _, h => by
    obtain ⟨w, read, later⟩ := Option.bind_eq_some_iff.mp h
    obtain ⟨ns, read', rfl⟩ := Option.map_eq_some_iff.mp later
    obtain ⟨depth, distinct⟩ := reread?_shape read
    obtain ⟨keys, depth', distinct'⟩ := rereadMembers?_shape read'
    exact ⟨congrArg (k :: ·) keys, congrArg₂ max depth depth',
      fun h => ⟨distinct h.1, distinct' h.2⟩⟩

end

mutual

theorem reread?_eq_self_iff : ∀ {v : Value}, v.reread? = some v ↔ v.Survives
  | .null | .bool _ | .str _ => by simp [reread?, Survives, numbers]
  | .num n => by simp [reread?, Survives, numbers, Number.Survives]
  | .arr items => by simp [reread?, Survives, numbers, rereadItems?_eq_self_iff]
  | .obj members => by simp [reread?, Survives, numbers, rereadMembers?_eq_self_iff]

private theorem rereadItems?_eq_self_iff : ∀ {vs : List Value},
    rereadItems? vs = some vs ↔ ∀ n ∈ numbersOfItems vs, n.Survives
  | [] => by simp [rereadItems?, numbersOfItems]
  | v :: rest => by
    rw [numbersOfItems, List.forall_mem_append, ← rereadItems?_eq_self_iff, ← Survives,
      ← reread?_eq_self_iff]
    simp [rereadItems?, Option.bind_eq_some_iff]

private theorem rereadMembers?_eq_self_iff : ∀ {ms : List (String × Value)},
    rereadMembers? ms = some ms ↔ ∀ n ∈ numbersOfMembers ms, n.Survives
  | [] => by simp [rereadMembers?, numbersOfMembers]
  | (k, v) :: rest => by
    rw [numbersOfMembers, List.forall_mem_append, ← rereadMembers?_eq_self_iff, ← Survives,
      ← reread?_eq_self_iff]
    simp [rereadMembers?, Option.bind_eq_some_iff]

end

end Value

namespace Json

variable {out : List Token} {text : List Char}

private theorem lexRun_step {m m' : Mode} {c : Char} {ts : List Token}
    (h : lexStep m c = some (m', ts)) :
    lexRun m out (c :: text) = lexRun m' (ts.reverse ++ out) text := by
  rw [lexRun, h]

private theorem hexValue?_hexChar {d : Nat} (h : d < 16) :
    Digits.hexValue? (Digits.hexChar d) = some d := by
  have all : ∀ d, d < 16 → Digits.hexValue? (Digits.hexChar d) = some d := by decide
  exact all d h

private theorem lexRun_unicode {c : Char} (control : c.toNat < 32) (read : List Char) :
    lexRun (.text read none) out ('\\' :: 'u' :: '0' :: '0' :: Digits.hexChar (c.toNat / 16) ::
      Digits.hexChar (c.toNat % 16) :: text) = lexRun (.text (c :: read) none) out text := by
  have high := hexValue?_hexChar (d := c.toNat / 16) (by omega)
  have low := hexValue?_hexChar (d := c.toNat % 16) (by omega)
  have code : 16 * (c.toNat / 16) + c.toNat % 16 = c.toNat := by omega
  have zero : Digits.hexValue? '0' = some 0 := by decide
  have surrogate : ¬ (0xD800 ≤ c.toNat ∧ c.toNat < 0xDC00) := by omega
  have surrogate' : ¬ (0xDC00 ≤ c.toNat ∧ c.toNat < 0xE000) := by omega
  simp [lexRun, lexStep, zero, high, low, afterUnicode, code, surrogate, surrogate']

private theorem lexRun_writeChar (c : Char) (read : List Char) :
    lexRun (.text read none) out (writeChar c ++ text) = lexRun (.text (c :: read) none) out text := by
  unfold writeChar
  split_ifs with quote backslash back feed line carriage tab control
  iterate 7 subst c; rfl
  · exact lexRun_unicode control read
  · have plain : lexStep (.text read none) c = some (.text (c :: read) none, []) := by
      simp [lexStep, quote, backslash, control]
    exact lexRun_step plain

private theorem lexRun_flatMap_writeChar (cs read : List Char) :
    lexRun (.text read none) out (cs.flatMap writeChar ++ text) =
      lexRun (.text (cs.reverse ++ read) none) out text := by
  induction cs generalizing read with
  | nil => rfl
  | cons c cs ih =>
    rw [List.flatMap_cons, List.append_assoc, lexRun_writeChar, ih, List.reverse_cons,
      List.append_assoc, List.singleton_append]

private theorem lexRun_writeString (s : String) :
    lexRun .between out (writeString s ++ text) = lexRun .between (.scalar (.str s) :: out) text := by
  have opened : lexStep .between '"' = some (.text [] none, []) := rfl
  have closed : lexStep (.text s.toList.reverse none) '"' =
      some (.between, [.scalar (.str s)]) := by
    simp [lexStep]
  rw [writeString, List.cons_append, lexRun_step opened, List.append_assoc,
    lexRun_flatMap_writeChar, List.append_nil, List.singleton_append, lexRun_step closed]
  rfl

/-- A character that ends a word or a numeral. -/
structure Delimits (c : Char) : Prop where
  numeral : isNumeral c = false
  word : c.isLower = false

def Delimited (text : List Char) : Prop := ∃ c rest, text = c :: rest ∧ Delimits c

private theorem delimited_cons {c : Char} (h : Delimits c) (text : List Char) :
    Delimited (c :: text) :=
  ⟨c, text, rfl, h⟩

private theorem delimits_comma : Delimits ',' := ⟨by decide, by decide⟩

private theorem delimits_newline : Delimits '\n' := ⟨by decide, by decide⟩

private theorem lexRun_numeral {cs : List Char} (numeral : ∀ c ∈ cs, isNumeral c = true)
    (read : List Char) :
    lexRun (.numeral read) out (cs ++ text) = lexRun (.numeral (cs.reverse ++ read)) out text := by
  induction cs generalizing read with
  | nil => rfl
  | cons c cs ih =>
    have next : lexStep (.numeral read) c = some (.numeral (c :: read), []) := by
      simp [lexStep, numeral c List.mem_cons_self]
    rw [List.cons_append, lexRun_step next, List.reverse_nil, List.nil_append,
      ih fun x hx => numeral x (List.mem_cons_of_mem c hx), List.reverse_cons, List.append_assoc,
      List.singleton_append]

private theorem between_digit {c : Char} (h : Digits.isDigit c = true ∨ c = '-') :
    between c = some (.numeral [c], []) := by
  have other (x : Char) (digit : Digits.isDigit x = false) (minus : x ≠ '-') : c ≠ x := by
    rintro rfl
    rcases h with h | h
    · rw [h] at digit
      exact nomatch digit
    · exact minus h
  have number : (Digits.isDigit c || c == '-') = true := by simpa using h
  have space : isSpace c = false := by
    simp only [isSpace, Bool.or_eq_false_iff, beq_eq_false_iff_ne]
    exact ⟨⟨⟨other ' ' rfl (by decide), other '\t' rfl (by decide)⟩, other '\n' rfl (by decide)⟩,
      other '\r' rfl (by decide)⟩
  simp only [between, space, other '"' rfl (by decide), other '[' rfl (by decide),
    other ']' rfl (by decide), other '\x7b' rfl (by decide), other '\x7d' rfl (by decide),
    other ',' rfl (by decide), other ':' rfl (by decide), number, if_true, if_false,
    Bool.false_eq_true]

/-- A pending scalar is complete where a text begins that does not go on with it. -/
theorem lexRun_pending {m : Mode} (v? : Option Value)
    (ends : ∀ c, Delimits c →
      lexStep m c = v?.bind fun v => (between c).map fun p => (p.1, .scalar v :: p.2))
    (h : Delimited text) :
    lexRun m out text = v?.bind fun v => lexRun .between (.scalar v :: out) text := by
  obtain ⟨c, rest, rfl, delimits⟩ := h
  have started : lexStep .between c = between c := rfl
  rw [lexRun, ends c delimits]
  cases v? with
  | none => rfl
  | some v =>
    rw [Option.bind_some, Option.bind_some, lexRun, started]
    cases between c with
    | none => rfl
    | some p => simp

private theorem lexRun_writeNumber (n : Number) (h : Delimited text) :
    lexRun .between out (writeNumber n ++ text) =
      (n.reread?.map Value.num).bind fun v => lexRun .between (.scalar v :: out) text := by
  obtain ⟨first, cs, written, begins, numeral⟩ := exists_writeNumber n
  have opened : lexStep .between first = some (.numeral [first], []) := between_digit begins
  rw [written, List.cons_append, lexRun_step opened, List.reverse_nil, List.nil_append,
    lexRun_numeral numeral]
  apply lexRun_pending _ _ h
  intro c delimits
  have read : numberOfText? (cs.reverse ++ [first]).reverse = n.reread? := by
    rw [List.reverse_append, List.reverse_reverse, List.reverse_singleton, List.singleton_append,
      ← written, Number.reread?]
  rw [lexStep, delimits.numeral, read]
  cases n.reread? with
  | none => rfl
  | some m => cases between c <;> rfl

private theorem lexRun_letters {cs : List Char} (letters : ∀ c ∈ cs, c.isLower = true)
    (read : List Char) :
    lexRun (.word read) out (cs ++ text) = lexRun (.word (cs.reverse ++ read)) out text := by
  induction cs generalizing read with
  | nil => rfl
  | cons c cs ih =>
    have next : lexStep (.word read) c = some (.word (c :: read), []) := by
      simp [lexStep, letters c List.mem_cons_self]
    rw [List.cons_append, lexRun_step next, List.reverse_nil, List.nil_append,
      ih fun x hx => letters x (List.mem_cons_of_mem c hx), List.reverse_cons, List.append_assoc,
      List.singleton_append]

private theorem lexRun_word {first : Char} {cs : List Char} {v : Value}
    (begins : between first = some (.word [first], [])) (letters : cs.all Char.isLower = true)
    (word : scalarOfWord? (first :: cs) = some v) (h : Delimited text) :
    lexRun .between out (first :: cs ++ text) = lexRun .between (.scalar v :: out) text := by
  have opened : lexStep .between first = some (.word [first], []) := begins
  rw [List.cons_append, lexRun_step opened, List.reverse_nil, List.nil_append,
    lexRun_letters (List.all_eq_true.mp letters)]
  apply lexRun_pending (some v) _ h
  intro c delimits
  have read : scalarOfWord? (cs.reverse ++ [first]).reverse = some v := by
    rw [List.reverse_append, List.reverse_reverse, List.reverse_singleton, List.singleton_append,
      word]
  rw [lexStep, delimits.word, read]
  cases between c <;> rfl

private theorem lexRun_newLine (level : Nat) :
    lexRun .between out (newLine level ++ text) = lexRun .between out text := by
  have blanks (n : Nat) :
      lexRun .between out (List.replicate n ' ' ++ text) = lexRun .between out text := by
    induction n with
    | zero => rfl
    | succ n ih =>
      have blank : lexStep .between ' ' = some (.between, []) := rfl
      rw [List.replicate_succ, List.cons_append, lexRun_step blank]
      exact ih
  have broken : lexStep .between '\n' = some (.between, []) := rfl
  rw [newLine, List.cons_append, lexRun_step broken]
  exact blanks (2 * level)

private theorem delimited_newLine (level : Nat) (text : List Char) :
    Delimited (newLine level ++ text) :=
  delimited_cons delimits_newline _

mutual

def tokensOf : Value → List Token
  | .arr [] => [.openArr, .closeArr]
  | .arr (v :: rest) => .openArr :: (tokensOf v ++ (itemTokens rest ++ [.closeArr]))
  | .obj [] => [.openObj, .closeObj]
  | .obj ((k, v) :: rest) =>
    .openObj :: .scalar (.str k) :: .colon :: (tokensOf v ++ (memberTokens rest ++ [.closeObj]))
  | v => [.scalar v]

def itemTokens : List Value → List Token
  | [] => []
  | v :: rest => .comma :: (tokensOf v ++ itemTokens rest)

def memberTokens : List (String × Value) → List Token
  | [] => []
  | (k, v) :: rest =>
    .comma :: .scalar (.str k) :: .colon :: (tokensOf v ++ memberTokens rest)

end

private theorem delimited_itemLines (level : Nat) (vs : List Value) (h : Delimited text) :
    Delimited (itemLines level vs ++ text) := by
  cases vs with
  | nil => exact h
  | cons v vs => exact delimited_cons delimits_comma _

private theorem delimited_memberLines (level : Nat) (ms : List (String × Value))
    (h : Delimited text) :
    Delimited (memberLines level ms ++ text) := by
  cases ms with
  | nil => exact h
  | cons m ms => exact delimited_cons delimits_comma _

mutual

/-- The text of a value over several lines is read into the tokens of what its numbers read as. -/
theorem lexRun_writeLines : ∀ (level : Nat) (v : Value) (out : List Token) {text : List Char},
    Delimited text → lexRun .between out (writeLines level v ++ text) =
      v.reread?.bind fun w => lexRun .between ((tokensOf w).reverse ++ out) text
  | _, .null, _, _, h => lexRun_word rfl rfl rfl h
  | _, .bool true, _, _, h => lexRun_word rfl rfl rfl h
  | _, .bool false, _, _, h => lexRun_word rfl rfl rfl h
  | _, .num n, _, _, h => by
    refine (lexRun_writeNumber n h).trans ?_
    rw [Value.reread?]
    cases n.reread? <;> rfl
  | _, .str s, _, _, _ => lexRun_writeString s
  | _, .arr [], _, _, _ => rfl
  | level, .arr (v :: rest), out, text, h => by
    have opened : lexStep .between '[' = some (.between, [.openArr]) := rfl
    have closed : lexStep .between ']' = some (.between, [.closeArr]) := rfl
    have ending : Delimited (newLine level ++ (']' :: text)) := delimited_newLine level _
    rw [writeLines, List.cons_append, lexRun_step opened]
    simp only [List.append_assoc, List.singleton_append]
    rw [lexRun_newLine, lexRun_writeLines (level + 1) v _ (delimited_itemLines _ rest ending)]
    simp only [lexRun_itemLines (level + 1) rest _ ending, lexRun_newLine, lexRun_step closed,
      Value.reread?, Value.rereadItems?]
    cases v.reread? <;> cases Value.rereadItems? rest <;> simp [tokensOf]
  | _, .obj [], _, _, _ => rfl
  | level, .obj ((k, v) :: rest), out, text, h => by
    have opened : lexStep .between '\x7b' = some (.between, [.openObj]) := rfl
    have closed : lexStep .between '\x7d' = some (.between, [.closeObj]) := rfl
    have colon : lexStep .between ':' = some (.between, [.colon]) := rfl
    have blank : lexStep .between ' ' = some (.between, []) := rfl
    have ending : Delimited (newLine level ++ ('\x7d' :: text)) := delimited_newLine level _
    rw [writeLines, List.cons_append, lexRun_step opened]
    simp only [List.append_assoc, List.cons_append, List.nil_append]
    rw [lexRun_newLine, lexRun_writeString, lexRun_step colon, lexRun_step blank,
      lexRun_writeLines (level + 1) v _ (delimited_memberLines _ rest ending)]
    simp only [lexRun_memberLines (level + 1) rest _ ending, lexRun_newLine, lexRun_step closed,
      Value.reread?, Value.rereadMembers?]
    cases v.reread? <;> cases Value.rereadMembers? rest <;> simp [tokensOf]

private theorem lexRun_itemLines :
    ∀ (level : Nat) (vs : List Value) (out : List Token) {text : List Char},
    Delimited text → lexRun .between out (itemLines level vs ++ text) =
      (Value.rereadItems? vs).bind fun ws => lexRun .between ((itemTokens ws).reverse ++ out) text
  | _, [], _, _, _ => rfl
  | level, v :: rest, out, text, h => by
    have comma : lexStep .between ',' = some (.between, [.comma]) := rfl
    rw [itemLines, List.cons_append, lexRun_step comma]
    simp only [List.append_assoc]
    rw [lexRun_newLine, lexRun_writeLines level v _ (delimited_itemLines _ rest h)]
    simp only [lexRun_itemLines level rest _ h, Value.rereadItems?]
    cases v.reread? <;> cases Value.rereadItems? rest <;> simp [itemTokens]

private theorem lexRun_memberLines : ∀ (level : Nat) (ms : List (String × Value)) (out : List Token)
    {text : List Char}, Delimited text → lexRun .between out (memberLines level ms ++ text) =
      (Value.rereadMembers? ms).bind fun ns =>
        lexRun .between ((memberTokens ns).reverse ++ out) text
  | _, [], _, _, _ => rfl
  | level, (k, v) :: rest, out, text, h => by
    have comma : lexStep .between ',' = some (.between, [.comma]) := rfl
    have colon : lexStep .between ':' = some (.between, [.colon]) := rfl
    have blank : lexStep .between ' ' = some (.between, []) := rfl
    rw [memberLines, List.cons_append, lexRun_step comma]
    simp only [List.append_assoc, List.cons_append]
    rw [lexRun_newLine, lexRun_writeString, lexRun_step colon, lexRun_step blank,
      lexRun_writeLines level v _ (delimited_memberLines _ rest h)]
    simp only [lexRun_memberLines level rest _ h, Value.rereadMembers?]
    cases v.reread? <;> cases Value.rereadMembers? rest <;> simp [memberTokens]

end

private theorem lexRun_append (m : Mode) (out : List Token) (a b : List Char) :
    lexRun m out (a ++ b) = (lexRun m out a).bind fun p => lexRun p.1 p.2 b := by
  induction a generalizing m out with
  | nil => rfl
  | cons c a ih =>
    rw [List.cons_append, lexRun, lexRun]
    cases lexStep m c with
    | none => rfl
    | some p => exact ih p.1 (p.2.reverse ++ out)

private theorem tokens?_append_newline (cs : List Char) : tokens? (cs ++ ['\n']) = tokens? cs := by
  unfold tokens?
  rw [lexRun_append]
  cases lexRun .between [] cs with
  | none => rfl
  | some p =>
    obtain ⟨m, out⟩ := p
    cases m with
    | between => rfl
    | word read =>
      cases word : scalarOfWord? read.reverse with
      | none => simp [lexRun, lexStep, word]
      | some v => simp [lexRun, lexStep, word, between, isSpace]
    | numeral read =>
      cases number : numberOfText? read.reverse with
      | none => simp [lexRun, lexStep, number, isNumeral, Digits.isDigit]
      | some n => simp [lexRun, lexStep, number, isNumeral, Digits.isDigit, between, isSpace]
    | text read high => cases high <;> rfl
    | escape read high => cases high <;> rfl
    | unicode read high missing code => rfl

private theorem tokens?_writeLines (v : Value) :
    tokens? (writeLines 0 v) = v.reread?.map tokensOf := by
  have read := lexRun_writeLines 0 v [] (delimited_cons delimits_newline [])
  rw [← tokens?_append_newline, tokens?, read]
  cases v.reread? with
  | none => rfl
  | some w =>
    simp only [Option.bind_some, List.append_nil]
    exact congrArg some (List.reverse_reverse _)

theorem run_cons (s : State) (t : Token) (ts : List Token) :
    run s (t :: ts) = (step s t).bind (run · ts) := by
  rw [run]
  cases step s t <;> rfl

private theorem run_step {s s' : State} {t : Token} (h : step s t = some s') (ts : List Token) :
    run s (t :: ts) = run s' ts := by
  rw [run_cons, h, Option.bind_some]

private theorem run_valueOrClose (v : Value) (stack : List Frame) (ts : List Token) :
    run (.reading .valueOrClose stack) (tokensOf v ++ ts) =
      run (.reading .value stack) (tokensOf v ++ ts) := by
  have first : ∃ t rest, tokensOf v = t :: rest ∧
      step (.reading .valueOrClose stack) t = step (.reading .value stack) t := by
    cases v with
    | arr items => cases items <;> exact ⟨.openArr, _, rfl, rfl⟩
    | obj members => cases members <;> exact ⟨.openObj, _, rfl, rfl⟩
    | _ => exact ⟨_, [], rfl, rfl⟩
  obtain ⟨t, rest, tokens, same⟩ := first
  rw [tokens, List.cons_append, run_cons, run_cons, same]

/-- The state after something was read that needs so much room for open containers. -/
def within (room : Nat) (s : State) : Option State := if room ≤ maxDepth then some s else none

private theorem within_bind {room room' total : Nat} {s s' : State} {f : State → Option State}
    (h : room ≤ maxDepth → f s = within room' s') (sum : max room room' = total) :
    (within room s).bind f = within total s' := by
  by_cases fits : room ≤ maxDepth
  · rw [within, if_pos fits, Option.bind_some, h fits, within, within]
    congr 1
    rw [eq_iff_iff]
    omega
  · rw [within, if_neg fits, Option.bind_none, within, if_neg]
    omega

mutual

private theorem run_tokensOf :
    ∀ (v : Value) (stack : List Frame), v.Distinct → stack.length ≤ maxDepth →
    run (.reading .value stack) (tokensOf v) = within (stack.length + v.depth) (deliver v stack)
  | .null, _, _, room => (if_pos room).symm
  | .bool _, _, _, room => (if_pos room).symm
  | .num _, _, _, room => (if_pos room).symm
  | .str _, _, _, room => (if_pos room).symm
  | .arr [], stack, _, _ => by
    have opened : step (.reading .value stack) .openArr =
      within (stack.length + 1) (.reading .valueOrClose (.arr [] :: stack)) := rfl
    rw [tokensOf, run_cons, opened]
    exact within_bind (fun _ => rfl) (Nat.max_zero _)
  | .arr (v :: rest), stack, distinct, _ => by
    have opened : step (.reading .value stack) .openArr =
      within (stack.length + 1) (.reading .valueOrClose (.arr [] :: stack)) := rfl
    have later (room : stack.length < maxDepth) :
        run (deliver v (.arr [] :: stack)) (itemTokens rest ++ [.closeArr]) =
          within (stack.length + 1 + Value.depthOfItems rest) (deliver (.arr (v :: rest)) stack) := by
      have items : (rest.reverse ++ [v]).reverse = v :: rest := by simp
      rw [run_append, deliver, run_itemTokens rest [v] stack distinct.2 room]
      exact within_bind (fun _ => by rw [run_step rfl, items]; rfl) (Nat.max_zero _)
    have inside (room : stack.length + 1 ≤ maxDepth) :
        run (.reading .valueOrClose (.arr [] :: stack))
            (tokensOf v ++ (itemTokens rest ++ [.closeArr])) =
          within (stack.length + 1 + max v.depth (Value.depthOfItems rest))
            (deliver (.arr (v :: rest)) stack) := by
      rw [run_valueOrClose, run_append, run_tokensOf v (.arr [] :: stack) distinct.1 room]
      exact within_bind (fun _ => later room) (Nat.add_max_add_left ..)
    rw [tokensOf, run_cons, opened]
    apply within_bind inside
    rw [Value.depth, Value.depthOfItems]
    omega
  | .obj [], stack, _, _ => by
    have opened : step (.reading .value stack) .openObj =
      within (stack.length + 1) (.reading .keyOrClose (.obj [] "" :: stack)) := rfl
    rw [tokensOf, run_cons, opened]
    exact within_bind (fun _ => rfl) (Nat.max_zero _)
  | .obj ((k, v) :: rest), stack, distinct, _ => by
    have opened : step (.reading .value stack) .openObj =
      within (stack.length + 1) (.reading .keyOrClose (.obj [] "" :: stack)) := rfl
    have later (room : stack.length < maxDepth) :
        run (deliver v (.obj [] k :: stack)) (memberTokens rest ++ [.closeObj]) =
          within (stack.length + 1 + Value.depthOfMembers rest)
            (deliver (.obj ((k, v) :: rest)) stack) := by
      obtain ⟨key, read⟩ := run_memberTokens rest [(k, v)] k stack distinct.2.2 distinct.1 room
      rw [run_append, deliver, Assoc.insert, read]
      exact within_bind (fun _ => rfl) (Nat.max_zero _)
    have inside (room : stack.length + 1 ≤ maxDepth) :
        run (.reading .keyOrClose (.obj [] "" :: stack)) (.scalar (.str k) :: .colon ::
            (tokensOf v ++ (memberTokens rest ++ [.closeObj]))) =
          within (stack.length + 1 + max v.depth (Value.depthOfMembers rest))
            (deliver (.obj ((k, v) :: rest)) stack) := by
      rw [run_step rfl, run_step rfl, run_append,
        run_tokensOf v (.obj [] k :: stack) distinct.2.1 room]
      exact within_bind (fun _ => later room) (Nat.add_max_add_left ..)
    rw [tokensOf, run_cons, opened]
    apply within_bind inside
    rw [Value.depth, Value.depthOfMembers]
    omega

private theorem run_itemTokens :
    ∀ (vs acc : List Value) (stack : List Frame), Value.DistinctItems vs →
    stack.length < maxDepth →
    run (.reading .separator (.arr acc :: stack)) (itemTokens vs) =
      within (stack.length + 1 + Value.depthOfItems vs)
        (.reading .separator (.arr (vs.reverse ++ acc) :: stack))
  | [], acc, stack, _, room => (if_pos room).symm
  | v :: rest, acc, stack, distinct, room => by
    have read := run_tokensOf v (.arr acc :: stack) distinct.1 room
    have items : (v :: rest).reverse ++ acc = rest.reverse ++ v :: acc := by simp
    rw [itemTokens, run_step rfl, run_append, read, items]
    exact within_bind (fun _ => run_itemTokens rest (v :: acc) stack distinct.2 room)
      (Nat.add_max_add_left ..)

private theorem run_memberTokens : ∀ (ms acc : Object) (key : String) (stack : List Frame),
    Value.DistinctMembers ms → (Assoc.keys (acc ++ ms)).Nodup → stack.length < maxDepth →
    ∃ key', run (.reading .separator (.obj acc key :: stack)) (memberTokens ms) =
      within (stack.length + 1 + Value.depthOfMembers ms)
        (.reading .separator (.obj (acc ++ ms) key' :: stack))
  | [], acc, key, stack, _, _, room => by
    rw [List.append_nil]
    exact ⟨key, (if_pos room).symm⟩
  | (k, v) :: rest, acc, key, stack, distinct, nodup, room => by
    have members : acc ++ (k, v) :: rest = acc ++ [(k, v)] ++ rest := by simp
    have new : k ∉ Assoc.keys acc := by
      rw [Assoc.keys_append, List.nodup_append] at nodup
      exact fun old => nodup.2.2 k old k List.mem_cons_self rfl
    have written : Assoc.insert k v acc = acc ++ [(k, v)] := Assoc.insert_of_not_mem new v
    have read := run_tokensOf v (.obj acc k :: stack) distinct.1 room
    rw [deliver, written] at read
    rw [members] at nodup ⊢
    obtain ⟨key', later⟩ := run_memberTokens rest (acc ++ [(k, v)]) k stack distinct.2 nodup room
    refine ⟨key', ?_⟩
    rw [memberTokens, run_step rfl, run_step rfl, run_step rfl, run_append, read]
    exact within_bind (fun _ => later) (Nat.add_max_add_left ..)

end

/-- What is written of a value reads as what its numbers read as, unless it is nested too deeply. -/
theorem parse?_pretty {v : Value} (distinct : v.Distinct) :
    parse? v.pretty = if v.depth ≤ maxDepth then v.reread? else none := by
  rw [parse?, Value.pretty, String.toList_ofList, tokens?_writeLines]
  cases reread : v.reread? with
  | none => simp
  | some w =>
    obtain ⟨depth, kept⟩ := Value.reread?_shape reread
    have read : run (.reading .value []) (tokensOf w) = within w.depth (.done w) := by
      rw [run_tokensOf w [] (kept distinct) (Nat.zero_le _), List.length_nil, Nat.zero_add]
      rfl
    rw [Option.map_some, Option.bind_some, ofTokens?, read, within, depth]
    by_cases fits : v.depth ≤ maxDepth
    · rw [if_pos fits, if_pos fits]
    · rw [if_neg fits, if_neg fits]

theorem parse?_pretty_eq_self_iff {v : Value} (distinct : v.Distinct) :
    parse? v.pretty = some v ↔ v.depth ≤ maxDepth ∧ v.Survives := by
  rw [parse?_pretty distinct, ← Value.reread?_eq_self_iff]
  simp

end Json

end WorkflowGraph
