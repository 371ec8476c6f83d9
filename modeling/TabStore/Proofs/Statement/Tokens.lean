import TabStore.Proofs.Statement.Where
import TabStore.Proofs.Text.Spacing

/-!
# Tokens and the texts that show them

The rules for statements put texts together again from the tokens of the main clause. Nothing gets
lost on the way: a token is a word of the clause, and its text is read as this token again. Only a
keyword changes, to its upper case.

Results:
1. `tokenize_eq_ok_iff`: a text whose literals end has the tokens of its words, and no others;
2. `ofWord_display`, `isReread_ofWord`: the text of a token is read as this token;
3. `display_ofWord`: it is the word, in upper case if that is a keyword;
4. `tokenize_stable`: the tokens of a text, with spaces between them, are tokenized to themselves.
-/

namespace TabStore.Token

open Text

theorem tokenize_eq_ok_iff {text : String} {tokens : List Token} : tokenize text = .ok tokens ↔
    ∃ words : List String, AreWords (words.map String.toList) text.toList ∧
      tokens = words.map ofWord ++ [.endMark] := by
  have texts : ∀ found : List (List Char), (found.map String.ofList).map String.toList = found := by
    intro found
    rw [List.map_map]
    exact List.map_id'' (fun _ => String.toList_ofList) found
  simp only [tokenize_eq_ok, areWords_iff]
  constructor
  · rintro ⟨closed, rfl⟩
    refine ⟨(words text.toList).map String.ofList, ⟨closed, (texts _).symm⟩, ?_⟩
    rw [List.map_map]
    rfl
  · rintro ⟨found, ⟨closed, same⟩, rfl⟩
    refine ⟨closed, ?_⟩
    rw [same, ofWords, List.map_map]
    simp [Function.comp_def]

/-! ## Texts of tokens -/

theorem ofWord_display (word : String) : ofWord (ofWord word).display = ofWord word := by
  cases read : ofWord word with
  | keyword k => exact (isSolid_keyword k).same
  | star => rfl
  | endMark => exact absurd read (ofWord_ne_endMark word)
  | word text =>
    -- A word that is no keyword is kept as it was written.
    have kept : text = word := by
      unfold ofWord at read
      split at read
      · cases read
      · split at read
        · cases read
        · cases read
          rfl
    rw [display, kept]
    exact read.trans (congrArg Token.word kept)

theorem isReread_ofWord {word : String} (h : IsWord word.toList) : (ofWord word).IsReread where
  isWord := by
    have shown := Condition.isWord_respelled h
    rwa [Condition.respelled, String.ofList_toList] at shown
  same := ofWord_display word

/-- A word as it is shown: in upper case if it is read as a keyword. -/
def shown (word : String) : String :=
  match ofWord word with
  | .keyword _ => String.ofList (upper word.toList)
  | _ => word

theorem display_ofWord (word : String) : (ofWord word).display = shown word := by
  unfold shown ofWord
  split
  · next star => exact star.symm
  · split
    · next keyword found =>
      unfold Keyword.ofWord? at found
      have spelled : upper word.toList = keyword.word.toList := by simpa using List.find?_some found
      exact (String.ofList_toList ▸ congrArg String.ofList spelled).symm
    · rfl

/-! ## Texts of clauses -/

theorem removeBlanks_eq_join {text : String} {words : List String}
    (h : AreWords (words.map String.toList) text.toList) : removeBlanks text = String.join words := by
  rw [← String.toList_inj, toList_removeBlanks, ← flatten_words, (areWords_iff.mp h).2,
    String.toList_join, List.flatMap_def]

/-- Between tokens that are read from their own texts, spaces are all the white space there is. -/
theorem removeBlanks_displayed {tokens : List Token} (reread : ∀ token ∈ tokens, token.IsReread) :
    removeBlanks (" ".intercalate (tokens.map display)) = String.join (tokens.map display) := by
  have isWord : ∀ word ∈ (tokens.map display).map String.toList, IsWord word := by
    simp only [List.mem_map, exists_exists_and_eq_and]
    rintro _ ⟨token, mem, rfl⟩
    exact (reread token mem).isWord
  refine removeBlanks_eq_join (areWords_iff.mpr ⟨?_, ?_⟩) <;> rw [String.toList_intercalate]
  · exact closed_intercalate (by decide) fun word mem => (isWord word mem).closed
  · exact words_intercalate isWord

/-- The tokens of a text are its words, each of them unbroken, with the end mark behind. Their
texts, with single spaces between them, are tokenized to the same tokens; without white space, they
are the text without its own, but for the keywords, which are in upper case. -/
theorem tokenize_stable {text : String} {tokens : List Token} (read : tokenize text = .ok tokens) :
    ∃ words : List String,
      AreWords (words.map String.toList) text.toList ∧
      tokens = words.map ofWord ++ [.endMark] ∧
      (∀ token ∈ words.map ofWord, token ≠ .endMark ∧ IsUnbroken token.display.toList) ∧
      tokenize (" ".intercalate ((words.map ofWord).map display)) = .ok tokens ∧
      removeBlanks text = String.join words ∧
      removeBlanks (" ".intercalate ((words.map ofWord).map display)) =
        String.join (words.map shown) := by
  obtain ⟨found, areWords, rfl⟩ := tokenize_eq_ok_iff.mp read
  obtain ⟨closed, same⟩ := areWords_iff.mp areWords
  have isWord : ∀ word ∈ found, IsWord word.toList := fun word mem =>
    isWord_of_mem_words closed (same ▸ List.mem_map_of_mem mem)
  have reread : ∀ token ∈ found.map ofWord, token.IsReread := by
    intro token mem
    obtain ⟨word, written, rfl⟩ := List.mem_map.mp mem
    exact isReread_ofWord (isWord word written)
  have displayed : (found.map ofWord).map display = found.map shown := by
    rw [List.map_map]
    exact List.map_congr_left fun word _ => display_ofWord word
  refine ⟨found, areWords, rfl, fun token mem => ⟨?_, ?_⟩, ?_, ?_, ?_⟩
  · obtain ⟨word, -, rfl⟩ := List.mem_map.mp mem
    exact ofWord_ne_endMark word
  · exact isUnbroken_iff.mpr (reread token mem).isWord
  · exact tokenize_displayed reread
  · exact removeBlanks_eq_join areWords
  · rw [removeBlanks_displayed reread, displayed]

theorem tokenize_stable_of_use :
    tokenize " uſe\t'a  b'x * " = .ok [.keyword .use, .word "'a  b'x", .star, .endMark] ∧
      tokenize "USE 'a  b'x *" = .ok [.keyword .use, .word "'a  b'x", .star, .endMark] ∧
      removeBlanks " uſe\t'a  b'x * " = "uſe'a  b'x*" ∧
      removeBlanks "USE 'a  b'x *" = "USE'a  b'x*" := by
  have read : tokenize " uſe\t'a  b'x * " =
      .ok [.keyword .use, .word "'a  b'x", .star, .endMark] := by decide +kernel
  obtain ⟨words, -, tokens, -, again, -, -⟩ := tokenize_stable read
  have found : [.keyword .use, .word "'a  b'x", .star] = words.map ofWord :=
    List.append_cancel_right tokens
  have texts : (words.map ofWord).map display = ["USE", "'a  b'x", "*"] := by
    rw [← found]
    rfl
  rw [texts] at again
  refine ⟨read, again, ?_, ?_⟩ <;> decide +kernel

end TabStore.Token
