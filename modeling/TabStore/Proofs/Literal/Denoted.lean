import TabStore.Proofs.Literal
import TabStore.Proofs.Number.Reading
import TabStore.Text.Bytes

/-!
# Literals and their values

A literal is classified by one test after the other, and its value is read by readers that know
nothing of these tests. Here the literals are described once more, each shape by itself: no text is
a literal of two shapes, so the order of the tests does not matter, and every reader takes what the
test for its shape has let through.

Results:
1. `classify_eq_some_iff`: a literal has the one shape whose test it passes;
2. `parse_eq_ok_iff_denotes`: it is parsed as the value that it denotes;
3. `convert_of_accepts`, `isInt_eq`: the readers of numbers and the cut at the quotes succeed on it,
   and an integer literal is told by what the reader of integers takes;
4. `classify_iff_parse`: classification and parsing agree on every text.
-/

namespace TabStore

theorem Text.byteSize_append (left right : List Char) :
    Text.byteSize (left ++ right) = Text.byteSize left + Text.byteSize right := by
  induction left with
  | nil => exact (Nat.zero_add _).symm
  | cons c rest ih => rw [List.cons_append, Text.byteSize, Text.byteSize, ih, Nat.add_assoc]

/-- The part of a text between its quotes; a quote is one byte. -/
theorem Text.slice_of_quoted (body : List Char) :
    Text.slice 1 (Text.byteSize ('\'' :: body ++ ['\'']) - 1) ('\'' :: body ++ ['\'']) =
      some body := by
  have size : Text.byteSize ('\'' :: body ++ ['\'']) - 1 - 1 = Text.byteSize body := by
    have quote : Text.byteSize ['\''] = 1 := by decide
    rw [← List.singleton_append, Text.byteSize_append, Text.byteSize_append, quote]
    omega
  have front : Text.cutAt 1 ('\'' :: body ++ ['\'']) = some (['\''], body ++ ['\'']) :=
    Text.cutAt_byteSize_append ['\''] (body ++ ['\''])
  unfold Text.slice
  rw [front, Option.bind_eq_bind, Option.bind_some]
  dsimp only
  rw [size, Text.cutAt_byteSize_append]
  rfl

/-- The literals and what they stand for. -/
inductive Denotes : List Char → Value → Prop
  | text {body : List Char} : (∀ c ∈ body, c ≠ '\'' ∧ c ≠ '\t' ∧ c ≠ '\r' ∧ c ≠ '\n') →
      Denotes ('\'' :: body ++ ['\'']) (.text (String.ofList body))
  | bool {raw : List Char} (b : Bool) : raw.map Char.toLower = (toString b).toList →
      Denotes raw (.bool b)
  | int (negative : Bool) {digits : List Char} {i : Int} : Number.isDigits digits = true →
      i = Number.withSign negative (Nat.ofDigits 10 (digits.reverse.map Number.digit)) →
      -0x8000000000000000 ≤ i → i ≤ 0x7FFFFFFFFFFFFFFF →
      Denotes (Number.signed negative digits) (.int i)
  | float (negative : Bool) {whole fraction : List Char} : Number.isDigits whole = true →
      Number.isDigits fraction = true →
      Denotes (Number.signed negative (whole ++ '.' :: fraction))
        (.float (.ofDecimal negative (whole ++ fraction) fraction.length))

namespace Shape

/-- The test for one shape, whatever the tests for the others say. -/
def accepts : Shape → List Char → Bool
  | .text, raw => isTextLiteral raw
  | .bool, raw => isTrue raw || isFalse raw
  | .int, raw => isInt raw
  | .float, raw => isFloat raw

variable {raw : List Char}

/-! ## Tests that exclude each other -/

theorem isTextLiteral_iff : isTextLiteral raw = true ↔ ∃ body, raw = '\'' :: body ++ ['\''] ∧
    ∀ c ∈ body, c ≠ '\'' ∧ c ≠ '\t' ∧ c ≠ '\r' ∧ c ≠ '\n' := by
  constructor
  · intro h
    obtain ⟨body, same, quote, tab, line, back⟩ := exists_of_isTextLiteral h
    refine ⟨body, same, fun c mem => ⟨?_, ?_, ?_, ?_⟩⟩ <;> rintro rfl <;> contradiction
  · rintro ⟨body, rfl, plain⟩
    simpa [isTextLiteral, and_assoc] using plain

theorem isTrue_iff : isTrue raw = true ↔ raw.map Char.toLower = "true".toList := beq_iff_eq

theorem isFalse_iff : isFalse raw = true ↔ raw.map Char.toLower = "false".toList := beq_iff_eq

theorem intValue_eq : intValue raw =
    Number.withSign (Number.splitSign raw).1 (Number.value (Number.splitSign raw).2) := by
  unfold intValue
  split <;> next same => rw [same]; rfl

/-- What has digits on both sides of its point has a point. -/
theorem splitSign_of_isFloat (h : isFloat raw = true) :
    (Number.splitSign raw).2 = (decimalParts raw).1 ++ '.' :: (decimalParts raw).2 := by
  rw [isFloat, Bool.and_eq_true] at h
  unfold decimalParts at h ⊢
  dsimp only at h ⊢
  generalize (Number.splitSign raw).2 = digits at h ⊢
  cases rest : digits.dropWhile (· != '.') with
  | nil =>
    rw [rest] at h
    cases h.2
  | cons point fraction =>
    have stopped := List.head?_dropWhile_not (· != '.') digits
    rw [rest] at stopped
    have isPoint : point = '.' := by simpa using stopped
    conv_lhs => rw [← @List.takeWhile_append_dropWhile _ (· != '.') digits, rest, isPoint]
    rfl

theorem decimalParts_signed {negative : Bool} {whole fraction : List Char}
    (h : Number.isDigits whole = true) :
    decimalParts (Number.signed negative (whole ++ '.' :: fraction)) = (whole, fraction) := by
  have noPoint : ∀ c ∈ whole, (c != '.') = true := by
    intro c mem
    refine bne_iff_ne.mpr ?_
    rintro rfl
    exact absurd (Number.isDigit_of_isDigits h mem) (by decide)
  unfold decimalParts
  rw [Number.splitSign_signed (Number.head?_ne_of_isDigits h _)]
  dsimp only
  rw [List.takeWhile_append_of_pos noPoint, List.dropWhile_append_of_pos noPoint]
  simp

/-- A number has a digit, and besides digits at most a point and a minus sign. -/
theorem chars_of_number (h : isInt raw = true ∨ isFloat raw = true) :
    (∀ c ∈ raw, c = '-' ∨ c = '.' ∨ c.isDigit = true) ∧ ∃ c ∈ raw, c.isDigit = true := by
  rcases h with int | float
  · rw [isInt, Bool.and_eq_true] at int
    refine ⟨fun c mem => ?_, ?_⟩
    · refine (mem_splitSign mem).imp_right fun digit => .inr ?_
      exact Number.isDigit_of_isDigits int.1 digit
    · obtain ⟨c, mem, digit⟩ := exists_of_isDigits int.1
      exact ⟨c, mem_of_mem_splitSign mem, digit⟩
  · rw [isFloat, Bool.and_eq_true] at float
    refine ⟨fun c mem => ?_, ?_⟩
    · refine (mem_decimalParts mem).imp_right (Or.imp_right fun digit => ?_)
      exact digit.elim (Number.isDigit_of_isDigits float.1) (Number.isDigit_of_isDigits float.2)
    · obtain ⟨c, mem, digit⟩ := exists_of_isDigits float.1
      exact ⟨c, mem_of_mem_splitSign ((List.takeWhile_prefix _).subset mem), digit⟩

theorem isLower_of_isBool (h : (isTrue raw || isFalse raw) = true) {c : Char} (mem : c ∈ raw) :
    c.toLower.isLower = true := by
  have lower : ∀ word : List Char, word.all Char.isLower = true → raw.map Char.toLower = word →
      c.toLower.isLower = true := fun _ lower same =>
    List.all_eq_true.mp lower _ (same ▸ List.mem_map_of_mem mem)
  rcases Bool.or_eq_true _ _ ▸ h with spelled | spelled
  · exact lower _ (by decide) (isTrue_iff.mp spelled)
  · exact lower _ (by decide) (isFalse_iff.mp spelled)

theorem not_isTextLiteral_of_isBool (h : (isTrue raw || isFalse raw) = true) :
    isTextLiteral raw = false := by
  rw [← Bool.not_eq_true, isTextLiteral_iff]
  rintro ⟨body, rfl, -⟩
  exact absurd (isLower_of_isBool h List.mem_cons_self) (by decide)

theorem not_isTextLiteral_of_number (h : isInt raw = true ∨ isFloat raw = true) :
    isTextLiteral raw = false := by
  rw [← Bool.not_eq_true, isTextLiteral_iff]
  rintro ⟨body, rfl, -⟩
  rcases (chars_of_number h).1 '\'' List.mem_cons_self with other | other | other <;>
    exact absurd other (by decide)

theorem not_isBool_of_number (h : isInt raw = true ∨ isFloat raw = true) :
    (isTrue raw || isFalse raw) = false := by
  rw [← Bool.not_eq_true]
  intro isBool
  obtain ⟨c, mem, digit⟩ := (chars_of_number h).2
  have alphanum : c.isAlphanum = true := by simp [Char.isAlphanum, digit]
  have other := @Text.forall_isAlphanum
    (fun c => c.isDigit = true → c.toLower.isLower = false) _ (by decide +kernel) c alphanum digit
  rw [isLower_of_isBool isBool mem] at other
  cases other

theorem not_isInt_of_isFloat (h : isFloat raw = true) : isInt raw = false := by
  rw [← Bool.not_eq_true, isInt, Bool.and_eq_true]
  rintro ⟨digits, -⟩
  have point : '.' ∈ (Number.splitSign raw).2 := by simp [splitSign_of_isFloat h]
  exact absurd (Number.isDigit_of_isDigits digits point) (by decide)

/-- A text has the shape whose test it passes, whatever the order of the tests. -/
theorem classify_eq_some_iff {raw : String} {shape : Shape} :
    classify raw = some shape ↔ shape.accepts raw.toList = true := by
  unfold classify
  dsimp only
  constructor
  · intro h
    split at h
    · next text =>
      cases h
      exact text
    · split at h
      · next isBool =>
        cases h
        exact isBool
      · split at h
        · next int =>
          cases h
          exact int
        · split at h
          · next float =>
            cases h
            exact float
          · cases h
  · intro h
    cases shape with
    | text => exact if_pos h
    | bool =>
      have isBool : (isTrue raw.toList || isFalse raw.toList) = true := h
      rw [not_isTextLiteral_of_isBool isBool, isBool]
      rfl
    | int =>
      have isInt : isInt raw.toList = true := h
      rw [not_isTextLiteral_of_number (.inl isInt), not_isBool_of_number (.inl isInt), isInt]
      rfl
    | float =>
      have isFloat : isFloat raw.toList = true := h
      rw [not_isTextLiteral_of_number (.inr isFloat), not_isBool_of_number (.inr isFloat),
        not_isInt_of_isFloat isFloat, isFloat]
      rfl

end Shape

namespace Value

/-! ## The value that a literal denotes -/

theorem denotes_ofShape {raw : String} {shape : Shape} (h : shape.accepts raw.toList = true) :
    Denotes raw.toList (ofShape raw shape) := by
  cases shape with
  | text =>
    obtain ⟨body, same, plain⟩ := Shape.isTextLiteral_iff.mp h
    have inner : (raw.toList.drop 1).dropLast = body := by simp [same]
    rw [ofShape, inner, same]
    exact .text plain
  | bool =>
    cases isTrue : Shape.isTrue raw.toList with
    | true =>
      rw [ofShape, isTrue]
      exact .bool true (Shape.isTrue_iff.mp isTrue)
    | false =>
      rw [Shape.accepts, isTrue, Bool.false_or] at h
      rw [ofShape, isTrue]
      exact .bool false (Shape.isFalse_iff.mp h)
  | int =>
    rw [Shape.accepts, Shape.isInt, Bool.and_eq_true, decide_eq_true_eq] at h
    obtain ⟨digits, low, high⟩ := h
    have denoted := Denotes.int (Number.splitSign raw.toList).1 digits
      (Shape.intValue_eq.trans (congrArg _ (Number.value_eq_ofDigits _))) low
      (Int.le_of_lt_add_one high)
    rwa [Number.signed_splitSign] at denoted
  | float =>
    have parts := Shape.splitSign_of_isFloat h
    rw [Shape.accepts, Shape.isFloat, Bool.and_eq_true] at h
    have denoted := Denotes.float (Number.splitSign raw.toList).1 h.1 h.2
    rwa [← parts, Number.signed_splitSign] at denoted

theorem eq_ofShape_of_denotes {raw : String} {v : Value} (h : Denotes raw.toList v) :
    v.shape.accepts raw.toList = true ∧ v = ofShape raw v.shape := by
  generalize same : raw.toList = chars at h
  cases h with
  | @text body plain =>
    refine ⟨Shape.isTextLiteral_iff.mpr ⟨body, rfl, plain⟩, ?_⟩
    have inner : (raw.toList.drop 1).dropLast = body := by simp [same]
    rw [shape, ofShape, inner]
  | bool b spelled =>
    cases b with
    | true =>
      have isTrue : Shape.isTrue chars = true := Shape.isTrue_iff.mpr spelled
      refine ⟨Bool.or_eq_true _ _ ▸ .inl isTrue, ?_⟩
      rw [shape, ofShape, same, isTrue]
    | false =>
      have isFalse : Shape.isFalse chars = true := Shape.isFalse_iff.mpr spelled
      have notTrue : Shape.isTrue chars = false := by
        rw [← Bool.not_eq_true, Shape.isTrue_iff, spelled]
        decide
      refine ⟨Bool.or_eq_true _ _ ▸ .inr isFalse, ?_⟩
      rw [shape, ofShape, same, notTrue]
  | @int negative digits i isDigits denoted low high =>
    have split := @Number.splitSign_signed negative digits
      (List.append_nil digits ▸ Number.head?_ne_of_isDigits isDigits [])
    have read : Shape.intValue (Number.signed negative digits) = i := by
      rw [Shape.intValue_eq, split, denoted, ← Number.value_eq_ofDigits]
    refine ⟨?_, by rw [shape, ofShape, same, read]⟩
    rw [shape, Shape.accepts, Shape.isInt, read, split, Bool.and_eq_true, decide_eq_true_eq]
    exact ⟨isDigits, low, Int.lt_add_one_of_le high⟩
  | @float negative whole fraction front back =>
    have parts := @Shape.decimalParts_signed negative whole fraction front
    refine ⟨?_, ?_⟩
    · rw [shape, Shape.accepts, Shape.isFloat, parts, front, back]
      rfl
    · rw [shape, ofShape, same, parts,
        Number.splitSign_signed (Number.head?_ne_of_isDigits front _)]

theorem parse_eq_ok {raw : String} {v : Value} : parse raw = .ok v ↔
    ∃ shape, Shape.classify raw = some shape ∧ v = ofShape raw shape := by
  unfold parse
  cases Shape.classify raw with
  | none => simp
  | some shape => simp [eq_comm]

theorem shape_ofShape (raw : String) (shape : Shape) : (ofShape raw shape).shape = shape := by
  cases shape <;> rfl

theorem parse_eq_ok_iff_denotes {raw : String} {v : Value} :
    parse raw = .ok v ↔ Denotes raw.toList v := by
  rw [parse_eq_ok]
  constructor
  · rintro ⟨shape, classified, rfl⟩
    exact denotes_ofShape (Shape.classify_eq_some_iff.mp classified)
  · intro denoted
    obtain ⟨accepted, same⟩ := eq_ofShape_of_denotes denoted
    exact ⟨v.shape, Shape.classify_eq_some_iff.mpr accepted, same⟩

/-! ## Reading a literal of a known shape -/

/-- The value of a literal of this shape, by readers that may fail: the text between its first and
its last byte, the reader of 64-bit integers, the reader of real numbers. -/
def convert? (raw : String) : Shape → Option Value
  | .text =>
    (Text.slice 1 (Text.byteSize raw.toList - 1) raw.toList).map fun body =>
      .text (String.ofList body)
  | .bool => some (ofShape raw .bool)
  | .int => (Number.readInt (-0x8000000000000000) 0x7FFFFFFFFFFFFFFF raw.toList).map .int
  | .float => if Number.isReal raw.toList then some (ofShape raw .float) else none

/-- The reader of integers takes the digits of an integer literal, and no others. -/
theorem readInt_eq {raw : List Char} (digits : Number.isDigits (Number.splitSign raw).2 = true) :
    Number.readInt (-0x8000000000000000) 0x7FFFFFFFFFFFFFFF raw =
      if Shape.isInt raw then some (Shape.intValue raw) else none := by
  rw [Number.readInt_of_isDigits (by decide) (by decide) digits, ← Shape.intValue_eq,
    Number.checked, Shape.isInt, digits, Bool.true_and]
  simp only [decide_eq_true_eq]
  exact if_congr (and_congr_right' (Int.lt_add_one_iff).symm) rfl rfl

theorem convert_of_accepts {raw : String} {shape : Shape} (h : shape.accepts raw.toList = true) :
    convert? raw shape = some (ofShape raw shape) := by
  cases shape with
  | text =>
    obtain ⟨body, same, -⟩ := Shape.isTextLiteral_iff.mp h
    have inner : (raw.toList.drop 1).dropLast = body := by simp [same]
    rw [convert?, ofShape, inner, same, Text.slice_of_quoted, Option.map_some]
  | bool => rfl
  | int =>
    have isInt : Shape.isInt raw.toList = true := h
    have digits := h
    rw [Shape.accepts, Shape.isInt, Bool.and_eq_true] at digits
    rw [convert?, readInt_eq digits.1, if_pos isInt]
    rfl
  | float =>
    have parts := Shape.splitSign_of_isFloat h
    rw [Shape.accepts, Shape.isFloat, Bool.and_eq_true] at h
    exact if_pos (Number.isReal_of_isDigits h.1 h.2 parts)

/-- Digits that the reader of integers refuses are no integer literal. -/
theorem isInt_eq (raw : List Char) : Shape.isInt raw = (Number.isDigits (Number.splitSign raw).2 &&
    (Number.readInt (-0x8000000000000000) 0x7FFFFFFFFFFFFFFF raw).isSome) := by
  cases digits : Number.isDigits (Number.splitSign raw).2 with
  | false =>
    rw [Shape.isInt, digits]
    rfl
  | true =>
    rw [readInt_eq digits]
    cases Shape.isInt raw <;> rfl

/-- A text is parsed if and only if it is classified, as a value of the shape that it is classified
as, and this is the only shape whose test it passes. No reader fails on it; the value is the one that
the text denotes. -/
theorem classify_iff_parse (raw : String) :
    (∀ shape, Shape.classify raw = some shape ↔ ∃ v, parse raw = .ok v ∧ v.shape = shape) ∧
    (Shape.classify raw = none ↔ parse raw = .error (.invalidLiteral raw)) ∧
    (∀ shape, Shape.classify raw = some shape →
      ∃ v, convert? raw shape = some v ∧ parse raw = .ok v) ∧
    (∀ shape other : Shape, shape.accepts raw.toList = true → other.accepts raw.toList = true →
      shape = other) ∧
    (∀ v, parse raw = .ok v ↔ Denotes raw.toList v) ∧
    (∀ v, parse raw = .ok v → v.number?.isSome = v.shape.isNumeric) ∧
    (∀ s, parse raw = .ok (.text s) → raw = "'" ++ s ++ "'" ∧
      ∀ c ∈ s.toList, c ≠ '\'' ∧ c ≠ '\t' ∧ c ≠ '\r' ∧ c ≠ '\n') ∧
    ∀ i, parse raw = .ok (.int i) → ∃ negative digits,
      raw.toList = Number.signed negative digits ∧ Number.isDigits digits = true ∧
      i = Number.withSign negative (Nat.ofDigits 10 (digits.reverse.map Number.digit)) ∧
      -0x8000000000000000 ≤ i ∧ i ≤ 0x7FFFFFFFFFFFFFFF := by
  refine ⟨fun shape => ⟨fun classified => ?_, ?_⟩, ?_, fun shape classified => ?_,
    fun shape other first second => ?_, fun v => parse_eq_ok_iff_denotes, fun v _ => ?_,
    fun s parsed => ?_, fun i parsed => ?_⟩
  · exact ⟨_, parse_eq_ok.mpr ⟨shape, classified, rfl⟩, shape_ofShape raw shape⟩
  · rintro ⟨v, parsed, rfl⟩
    obtain ⟨shape, classified, rfl⟩ := parse_eq_ok.mp parsed
    rw [classified, shape_ofShape]
  · unfold parse
    cases Shape.classify raw <;> simp
  · exact ⟨_, convert_of_accepts (Shape.classify_eq_some_iff.mp classified),
      parse_eq_ok.mpr ⟨shape, classified, rfl⟩⟩
  · have same := Shape.classify_eq_some_iff.mpr second
    rw [Shape.classify_eq_some_iff.mpr first] at same
    exact Option.some.inj same
  · cases v <;> rfl
  · have denoted := parse_eq_ok_iff_denotes.mp parsed
    generalize same : raw.toList = chars at denoted
    cases denoted with
    | text plain =>
      refine ⟨?_, by simpa using plain⟩
      rw [← String.toList_inj, same]
      simp
  · have denoted := parse_eq_ok_iff_denotes.mp parsed
    generalize raw.toList = chars at denoted
    cases denoted with
    | int negative isDigits denoted low high =>
      exact ⟨negative, _, rfl, isDigits, denoted, low, high⟩

theorem classify_iff_parse_of_least :
    Shape.classify "-9223372036854775808" = some .int ∧
      parse "-9223372036854775808" = .ok (.int (-9223372036854775808)) ∧
      convert? "-9223372036854775808" .int = some (.int (-9223372036854775808)) ∧
      parse "-9223372036854775809" = .error (.invalidLiteral "-9223372036854775809") := by
  obtain ⟨shapes, -, reads, -⟩ := classify_iff_parse "-9223372036854775808"
  obtain ⟨-, refused, -⟩ := classify_iff_parse "-9223372036854775809"
  have parsed : parse "-9223372036854775808" = .ok (.int (-9223372036854775808)) := by
    decide +kernel
  have classified := (shapes .int).mpr ⟨_, parsed, rfl⟩
  obtain ⟨v, converted, same⟩ := reads .int classified
  rw [parsed, Except.ok.injEq] at same
  rw [← same] at converted
  exact ⟨classified, parsed, converted, refused.mp (by decide +kernel)⟩

end Value

end TabStore
