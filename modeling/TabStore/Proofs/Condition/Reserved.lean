import TabStore.Proofs.Literal
import TabStore.Proofs.Statement.Printer

/-!
# Reserved words

A word has three readers. A main clause takes it for a keyword or leaves it a word, a condition
takes it for an operator or leaves it as it stands, and a name must not be reserved. The first two
compare upper cases, the last one compares condition words by ASCII letters only. The upper case of
the dotless i is an ASCII letter, so LIKE written with a dotless i is an operator that is not
reserved. It is the only word on which the readers differ.

Results:
1. `sameIgnoringCase_iff`: how the two comparisons of letter cases differ;
2. `canonicalChars_word`: a word that stands on its own in a condition is replaced there as it is
   by itself;
3. `isReserved_iff`: the reserved words are those that a main clause or a condition does not leave
   as they stand, but for the one with a dotless i.
-/

namespace TabStore.Text

theorem toLower_eq_toLower_iff {c capital : Char} (upper : capital.isUpper = true) :
    c.toLower = capital.toLower ↔ upperChar c = capital ∧ c ≠ 'ı' ∧ c ≠ 'ſ' := by
  have parts : capital.isAlphanum = (capital.isUpper || capital.isLower || capital.isDigit) := rfl
  have alphanum : capital.isAlphanum = true := by rw [parts, upper, Bool.true_or, Bool.true_or]
  have small : capital.toLower.isLower = true ∧ capital.toLower.toUpper = capital :=
    forall_isAlphanum (p := fun d => d.isUpper = true → d.toLower.isLower = true ∧
      d.toLower.toUpper = d) (by decide +kernel) alphanum upper
  constructor
  · intro same
    have lower : c.toLower.isLower = true := same ▸ small.1
    have ascii := Shape.isAlphanum_of_toLower lower
    refine ⟨?_, ?_, ?_⟩
    · have spelled : upperChar c = c.toLower.toUpper := forall_isAlphanum
        (p := fun d => d.toLower.isLower = true → upperChar d = d.toLower.toUpper)
        (by decide +kernel) ascii lower
      rw [spelled, same, small.2]
    · rintro rfl
      revert ascii
      decide
    · rintro rfl
      revert ascii
      decide
  · rintro ⟨spelled, noDotless, noLong⟩
    rw [upperChar, if_neg noDotless, if_neg noLong] at spelled
    have ascii := isAlphanum_of_toUpper (spelled ▸ upper)
    have same : c.toLower = c.toUpper.toLower := forall_isAlphanum
      (p := fun d => d.toUpper.isUpper = true → d.toLower = d.toUpper.toLower)
      (by decide +kernel) ascii (spelled ▸ upper)
    rw [same, spelled]

/-- A word in capitals is spelled alike up to ASCII case by the texts with this upper case in which
no letter from outside ASCII stands for a capital. -/
theorem sameIgnoringCase_iff {text word : List Char} (capitals : ∀ c ∈ word, c.isUpper = true) :
    sameIgnoringCase text word = true ↔ upper text = word ∧ 'ı' ∉ text ∧ 'ſ' ∉ text := by
  rw [sameIgnoringCase, beq_iff_eq]
  induction word generalizing text with
  | nil => cases text <;> simp [upper]
  | cons capital rest ih =>
    obtain ⟨first, later⟩ := List.forall_mem_cons.mp capitals
    cases text with
    | nil => simp [upper]
    | cons c tail =>
      have ih := @ih tail later
      rw [upper] at ih ⊢
      simp only [List.map_cons, List.cons.injEq, List.mem_cons, not_or, ih,
        toLower_eq_toLower_iff first]
      grind

end TabStore.Text

namespace TabStore

open Text

/-- The word LIKE with a dotless i, in any letter case. -/
def IsDotlessLike (word : String) : Prop :=
  upper word.toList = "LIKE".toList ∧ 'ı' ∈ word.toList

theorem upper_conditionWords : ∀ reserved ∈ conditionWords,
    reserved.toList.all Char.isUpper = true ∧ 'S' ∉ reserved.toList ∧
      ('I' ∈ reserved.toList → reserved = "LIKE") := by decide +kernel

theorem any_sameIgnoringCase_iff {word : String} :
    (conditionWords.any fun reserved => sameIgnoringCase word.toList reserved.toList) = true ↔
      (∃ reserved ∈ conditionWords, upper word.toList = reserved.toList) ∧
        ¬ IsDotlessLike word := by
  rw [List.any_eq_true]
  constructor
  · rintro ⟨reserved, mem, same⟩
    obtain ⟨spelled, noDotless, -⟩ :=
      (sameIgnoringCase_iff (List.all_eq_true.mp (upper_conditionWords reserved mem).1)).mp same
    exact ⟨⟨reserved, mem, spelled⟩, fun dotless => noDotless dotless.2⟩
  · rintro ⟨⟨reserved, mem, spelled⟩, notDotless⟩
    obtain ⟨capitals, noS, withI⟩ := upper_conditionWords reserved mem
    refine ⟨reserved, mem, (sameIgnoringCase_iff (List.all_eq_true.mp capitals)).mpr
      ⟨spelled, fun dotless => ?_, fun long => ?_⟩⟩
    · have isLike := withI (spelled ▸ List.mem_map_of_mem (f := upperChar) dotless)
      exact notDotless ⟨isLike ▸ spelled, dotless⟩
    · exact noS (spelled ▸ List.mem_map_of_mem (f := upperChar) long)

theorem isReserved_eq_true {word : String} : isReserved word = true ↔
    (∀ text, Token.ofWord word ≠ .word text) ∨
      ((∃ reserved ∈ conditionWords, upper word.toList = reserved.toList) ∧
        ¬ IsDotlessLike word) := by
  rw [isReserved, Bool.or_eq_true, any_sameIgnoringCase_iff]
  refine or_congr_left ?_
  cases Token.ofWord word <;> simp

namespace Condition

/-- A place in a condition where a word stands on its own: outside the literals, and next to no
other character of words. -/
structure IsPlace (before after : List Char) : Prop where
  closed : Closed before
  left : ∀ c, before.getLast? = some c → isWordChar c = false
  right : StartsApart after

theorem toList_ne_nil_of_mem_conditionWords :
    ∀ reserved ∈ conditionWords, reserved.toList ≠ [] := by decide

theorem canonicalWord_eq_self_iff {word : List Char} (letters : ∀ c ∈ word, isWordChar c = true) :
    canonicalWord word = word ↔ ∀ reserved ∈ conditionWords, upper word ≠ reserved.toList := by
  have code : ∀ c, isWordChar c = false → [c] ≠ word := by
    rintro c nonWord rfl
    rw [letters c List.mem_cons_self] at nonWord
    cases nonWord
  have all : (∀ reserved ∈ conditionWords, upper word ≠ reserved.toList) ↔
      upper word ≠ "AND".toList ∧ upper word ≠ "OR".toList ∧ upper word ≠ "LIKE".toList := by
    simp only [conditionWords, List.forall_mem_cons, List.not_mem_nil, false_imp_iff,
      implies_true, and_true]
  rw [all]
  unfold canonicalWord
  dsimp only
  split
  · next spelled => exact iff_of_false (code '&' (by decide)) fun others => others.1 spelled
  · split
    · next spelled =>
      exact iff_of_false (code '+' (by decide)) fun others => others.2.1 spelled
    · split
      · next spelled =>
        exact iff_of_false (code '~' (by decide)) fun others => others.2.2 spelled
      · next noAnd noOr noLike => exact iff_of_true rfl ⟨noAnd, noOr, noLike⟩

theorem canonicalize_word {word : String} (some : word ≠ "")
    (letters : ∀ c ∈ word.toList, isWordChar c = true) :
    canonicalize word = .ok (String.ofList (canonicalWord word.toList)) := by
  rw [canonicalize, canonicalChars_of_word (by simpa using some) letters]
  rfl

theorem canonicalize_ne_ok_iff {word : String} (some : word ≠ "")
    (letters : ∀ c ∈ word.toList, isWordChar c = true) :
    canonicalize word ≠ .ok word ↔
      ∃ reserved ∈ conditionWords, upper word.toList = reserved.toList := by
  have same := canonicalWord_eq_self_iff letters
  rw [canonicalize_word some letters, Ne, Except.ok.injEq, ← String.toList_inj,
    String.toList_ofList, same]
  simp

theorem pairCode?_of_isWordChar {c d : Char}
    (word : isWordChar c = true ∨ isWordChar d = true) : pairCode? c d = none := by
  have apart : ∀ mark ∈ ['=', '!', '>', '<'], isWordChar mark = false :=
    forall_of_all (by decide)
  rcases word with first | second
  · have other : ∀ mark ∈ ['=', '!', '>', '<'], c ≠ mark := by
      rintro mark mem rfl
      rw [apart c mem] at first
      cases first
    simp [pairCode?, other]
  · refine if_pos ?_
    rintro rfl
    rw [apart '=' (by decide)] at second
    cases second

theorem canonicalChars_word {word before after : List Char} (some : word ≠ [])
    (letters : ∀ c ∈ word, isWordChar c = true) (place : IsPlace before after) :
    canonicalChars (before ++ word ++ after) = do
      let first ← canonicalChars before
      let last ← canonicalChars after
      return first ++ canonicalWord word ++ last := by
  have behind : IsJoint word after := fun c d ends head =>
    ⟨pairCode?_of_isWordChar (.inl (letters c (List.mem_of_getLast? ends))),
      fun _ => place.right d head⟩
  have front : IsJoint before (word ++ after) := by
    intro c d ends head
    have nonWord := place.left c ends
    have next : isWordChar d = true := by
      obtain ⟨e, rest, rfl⟩ := List.exists_cons_of_ne_nil some
      cases head
      exact letters _ List.mem_cons_self
    refine ⟨pairCode?_of_isWordChar (.inr next), fun word => ?_⟩
    rw [nonWord] at word
    cases word
  rw [List.append_assoc, canonicalChars_append_of_closed front place.closed,
    canonicalChars_append behind (canonicalChars_of_word some letters)]
  cases canonicalChars before with
  | error fault => rfl
  | ok first =>
    cases canonicalChars after with
    | error fault => rfl
    | ok last => simp [Except.map]

end Condition

/-! ## The three readers -/

section Readers

variable {word : String}

theorem tokenize_word (some : word ≠ "")
    (letters : ∀ c ∈ word.toList, Condition.isWordChar c = true) :
    Token.tokenize word = .ok [Token.ofWord word, .endMark] := by
  have plain : '\'' ∉ word.toList := fun mem => absurd (letters _ mem) (by decide)
  have noBlank : ∀ c ∈ word.toList, isBlank c = false := fun c mem =>
    (Condition.isOperandChar_eq_true_iff.mp
      (Condition.isOperandChar_of_isWordChar (letters c mem))).1
  refine Token.tokenize_eq_ok.mpr ⟨closed_of_plain plain, ?_⟩
  rw [words_of_free ((free_iff_of_plain plain).mpr noBlank) (by simpa using some)]
  simp [Token.ofWords]

theorem ofWord_ne_word_iff (some : word ≠ "")
    (letters : ∀ c ∈ word.toList, Condition.isWordChar c = true) :
    (∀ text, Token.ofWord word ≠ .word text) ↔
      ∃ keyword, Token.tokenize word = .ok [.keyword keyword, .endMark] := by
  have noStar : word ≠ "*" := by
    rintro rfl
    exact absurd (letters '*' (by decide)) (by decide)
  rw [tokenize_word some letters, Token.ofWord, if_neg noStar]
  cases Keyword.ofWord? word <;> simp

theorem IsDotlessLike.ofWord (dotless : IsDotlessLike word) : Token.ofWord word = .word word := by
  have noStar : word ≠ "*" := by
    rintro rfl
    exact absurd dotless.1 (by decide)
  have noKeyword : Keyword.ofWord? word = none := by
    rw [Keyword.ofWord?, dotless.1]
    decide
  rw [Token.ofWord, if_neg noStar, noKeyword]

theorem IsDotlessLike.canonicalize (dotless : IsDotlessLike word)
    (letters : ∀ c ∈ word.toList, Condition.isWordChar c = true) :
    Condition.canonicalize word = .ok "~" := by
  have some : word ≠ "" := by
    rintro rfl
    exact absurd dotless.2 (by decide)
  rw [Condition.canonicalize_word some letters, Condition.canonicalWord, dotless.1]
  rfl

/-- It ends in a letter of ASCII, and none of its letters is kept from names. -/
theorem IsDotlessLike.isName (dotless : IsDotlessLike word) : IsName word := by
  have letter : ∀ c ∈ word.toList, c = 'ı' ∨ c = 'ſ' ∨ c.isAlphanum = true := by
    intro c mem
    have capitals : ∀ d ∈ "LIKE".toList, d.isUpper = true := forall_of_all (by decide)
    have mem : upperChar c ∈ upper word.toList := List.mem_map_of_mem mem
    exact cases_of_isUpper_upperChar (capitals _ (dotless.1 ▸ mem))
  refine validateName_eq_ok.mpr ⟨?_, ?_, fun c mem => ?_⟩
  · cases reserved : isReserved word with
    | false => rfl
    | true =>
      rcases isReserved_eq_true.mp reserved with noWord | ⟨-, notDotless⟩
      · exact absurd dotless.ofWord (noWord word)
      · exact absurd dotless notDotless
  · have ends : word.toList.getLast?.map upperChar = some 'E' := by
      rw [← List.getLast?_map]
      exact congrArg List.getLast? dotless.1
    obtain ⟨c, last, capital⟩ := Option.map_eq_some_iff.mp ends
    rw [endsAlphanumeric, last, Option.any_some]
    rcases letter c (List.mem_of_getLast? last) with rfl | rfl | ascii
    · revert capital
      decide
    · revert capital
      decide
    · exact ascii
  · rcases letter c mem with rfl | rfl | ascii
    · decide +kernel
    · decide +kernel
    · exact forall_isAlphanum (p := fun d => isForbiddenInName d = false) (by decide +kernel) ascii

/-- A word of letters, digits and underscores is reserved exactly if a main clause takes it for a
keyword or a condition rewrites it, but for LIKE with a dotless i. That word is a name though
every condition takes it for an operator. Any other word that is a name stays as it stands wherever
it stands on its own in a condition. -/
theorem isReserved_word_iff (some : word ≠ "")
    (letters : ∀ c ∈ word.toList, Condition.isWordChar c = true) :
    (isReserved word = true ↔
      ((∃ keyword, Token.tokenize word = .ok [.keyword keyword, .endMark]) ∨
        Condition.canonicalize word ≠ .ok word) ∧ ¬ IsDotlessLike word) ∧
    (IsDotlessLike word → IsName word ∧ Condition.canonicalize word = .ok "~") ∧
    (IsName word → ¬ IsDotlessLike word → ∀ before after : String,
      Condition.IsPlace before.toList after.toList →
        Condition.canonicalize (before ++ word ++ after) = do
          let first ← Condition.canonicalize before
          let last ← Condition.canonicalize after
          return first ++ word ++ last) := by
  refine ⟨?_, fun dotless => ⟨dotless.isName, dotless.canonicalize letters⟩,
    fun isName other before after place => ?_⟩
  · rw [isReserved_eq_true, ofWord_ne_word_iff some letters,
      Condition.canonicalize_ne_ok_iff some letters, or_and_right]
    refine or_congr_left (iff_self_and.mpr ?_)
    rintro keyword dotless
    exact (ofWord_ne_word_iff some letters).mpr keyword word dotless.ofWord
  · have kept : Condition.canonicalWord word.toList = word.toList := by
      refine (Condition.canonicalWord_eq_self_iff letters).mpr fun reserved mem spelled => ?_
      have isReserved := isReserved_eq_true.mpr (.inr ⟨⟨reserved, mem, spelled⟩, other⟩)
      rw [(validateName_eq_ok.mp isName).1] at isReserved
      cases isReserved
    rw [Condition.canonicalize, String.toList_append, String.toList_append,
      Condition.canonicalChars_word (by simpa using some) letters place, kept,
      Condition.canonicalize, Condition.canonicalize]
    cases Condition.canonicalChars before.toList with
    | error fault => rfl
    | ok first =>
      cases Condition.canonicalChars after.toList with
      | error fault => rfl
      | ok last =>
        show Except.ok _ = Except.ok _
        simp [String.ofList_append, String.append_assoc]

/-- A longer word with a dotless i is a name like any other. -/
theorem isReserved_word_iff_longer : isReserved "lıkes" = false ∧
    Condition.canonicalize "(lıkes=1)" = .ok "(lıkes=1)" := by
  have letters : ∀ c ∈ "lıkes".toList, Condition.isWordChar c = true :=
    forall_of_all (by decide +kernel)
  have isName : IsName "lıkes" := by
    unfold IsName
    decide +kernel
  have other : ¬ IsDotlessLike "lıkes" := by
    rintro ⟨spelled, -⟩
    revert spelled
    decide
  have place : Condition.IsPlace "(".toList "=1)".toList := by
    refine ⟨closed_of_plain (by decide), ?_, ?_⟩
    · rintro c ⟨⟩
      decide +kernel
    · rintro c ⟨⟩
      decide +kernel
  have first : Condition.canonicalize "(" = .ok "(" := by decide +kernel
  have last : Condition.canonicalize "=1)" = .ok "=1)" := by decide +kernel
  obtain ⟨-, -, kept⟩ := isReserved_word_iff (by decide) letters
  have whole := kept isName other "(" "=1)" place
  rw [first, last] at whole
  exact ⟨by decide +kernel, whole⟩

/-- The readers differ on LIKE with a dotless i: every condition takes it for an operator, but it is
not reserved, so it is a name. -/
theorem not_isReserved_iff_rewritten : IsName "lıke" ∧
    ¬ (isReserved "lıke" = true ↔
      (∃ keyword, Token.tokenize "lıke" = .ok [.keyword keyword, .endMark]) ∨
        Condition.canonicalize "lıke" ≠ .ok "lıke") := by
  have letters : ∀ c ∈ "lıke".toList, Condition.isWordChar c = true :=
    forall_of_all (by decide +kernel)
  have dotless : IsDotlessLike "lıke" := ⟨by decide, by decide⟩
  have isName := dotless.isName
  refine ⟨isName, fun agree => ?_⟩
  have reserved := agree.mpr (.inr (by rw [dotless.canonicalize letters]; decide))
  rw [(validateName_eq_ok.mp isName).1] at reserved
  cases reserved

end Readers

end TabStore
