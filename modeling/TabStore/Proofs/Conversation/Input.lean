import TabStore.Conversation
import TabStore.Proofs.Error

/-!
# Lines of input

The input of a conversation comes in bytes and is cut at the byte of the line feed. No other
character has that byte in its encoding, so the lines are those of the text.

Results:
1. `isLine_of_mem_inputLines`: no line of an input has a line feed;
2. `inputLines_unlines`: texts without line feeds, each ended by one, are the lines of some input.
-/

namespace TabStore

open Text (IsLine)

/-! ## Bytes of characters -/

theorem eq_feed_of_mem_utf8EncodeChar {c : Char} (h : 10 ∈ String.utf8EncodeChar c) : c = '\n' := by
  have toNat_eq : ∀ n : Nat, (10 : UInt8) = UInt8.ofNat n → n % 256 = 10 := by
    intro n same
    simpa using (congrArg UInt8.toNat same).symm
  have atMost : c.val.toNat < 0x110000 := by
    have valid := c.valid
    simp only [UInt32.isValidChar, Nat.isValidChar] at valid
    omega
  unfold String.utf8EncodeChar at h
  dsimp only at h
  split at h
  · have single := toNat_eq _ (List.mem_singleton.mp h)
    have code : c.val.toNat = 10 := by omega
    exact Char.ext (UInt32.toNat_inj.mp code)
  -- Every byte of a longer encoding is at least 128.
  split at h
  · simp only [List.mem_cons, List.not_mem_nil, or_false] at h
    rcases h with first | second
    · have := toNat_eq _ first
      omega
    · have := toNat_eq _ second
      omega
  split at h
  · simp only [List.mem_cons, List.not_mem_nil, or_false] at h
    rcases h with first | second | third
    · have := toNat_eq _ first
      omega
    · have := toNat_eq _ second
      omega
    · have := toNat_eq _ third
      omega
  · simp only [List.mem_cons, List.not_mem_nil, or_false] at h
    rcases h with first | second | third | fourth
    · have := toNat_eq _ first
      omega
    · have := toNat_eq _ second
      omega
    · have := toNat_eq _ third
      omega
    · have := toNat_eq _ fourth
      omega

theorem toList_loop_bytes (bytes : ByteArray) (i : Nat) (taken : List UInt8) :
    ByteArray.toList.loop bytes i taken = taken.reverse ++ bytes.data.toList.drop i := by
  fun_induction ByteArray.toList.loop bytes i taken with
  | case1 i taken inside ih =>
    have inData : i < bytes.data.toList.length := inside
    have first : bytes.get! i = bytes.data.toList[i] := by
      rw [ByteArray.get!, Array.getElem_toList]
      exact getElem!_pos bytes.data i inside
    rw [ih, List.drop_eq_getElem_cons inData, first]
    simp
  | case2 i taken outside =>
    have past : bytes.data.toList.length ≤ i := Nat.le_of_not_lt outside
    rw [List.drop_eq_nil_of_le past, List.append_nil]

theorem toList_bytes (bytes : ByteArray) : bytes.toList = bytes.data.toList :=
  toList_loop_bytes bytes 0 []

/-- The bytes of a text. -/
theorem toList_toUTF8 (text : String) :
    text.toUTF8.toList = text.toList.flatMap String.utf8EncodeChar := by
  have encoded : text.toByteArray = (text.toList.flatMap String.utf8EncodeChar).toByteArray :=
    String.utf8Encode_toList.symm
  rw [String.toUTF8_eq_toByteArray, toList_bytes, encoded, List.data_toByteArray]

/-! ## Lines -/

theorem feed_not_mem {bytes piece : List UInt8} (h : piece ∈ splitAtLineFeeds bytes) :
    10 ∉ piece := by
  induction bytes generalizing piece with
  | nil =>
    rw [List.mem_singleton.mp h]
    exact List.not_mem_nil
  | cons byte rest ih =>
    rw [splitAtLineFeeds] at h
    split at h
    · rcases List.mem_cons.mp h with rfl | later
      · exact List.not_mem_nil
      · exact ih later
    · next other =>
      cases pieces : splitAtLineFeeds rest with
      | nil =>
        rw [pieces] at h
        cases h
      | cons first more =>
        rw [pieces] at h ih
        rcases List.mem_cons.mp h with rfl | later
        · exact List.not_mem_cons_of_ne_of_not_mem (Ne.symm other) (ih List.mem_cons_self)
        · exact ih (List.mem_cons_of_mem first later)

theorem splitAtLineFeeds_append_cons {piece : List UInt8} (free : 10 ∉ piece) (rest : List UInt8) :
    splitAtLineFeeds (piece ++ 10 :: rest) = piece :: splitAtLineFeeds rest := by
  induction piece with
  | nil => rfl
  | cons byte tail ih =>
    rw [List.mem_cons, not_or] at free
    rw [List.cons_append, splitAtLineFeeds, if_neg (Ne.symm free.1), ih free.2]
    rfl

theorem feed_mem_toUTF8 {text : String} : 10 ∈ text.toUTF8.toList ↔ ¬ IsLine text := by
  rw [toList_toUTF8, List.mem_flatMap, IsLine, not_not]
  constructor
  · rintro ⟨c, mem, feed⟩
    rwa [eq_feed_of_mem_utf8EncodeChar feed] at mem
  · exact fun mem => ⟨'\n', mem, by decide⟩

theorem toUTF8_of_ofBytes {bytes : ByteArray} {text : String}
    (h : Content.ofBytes bytes = .text text) : text.toUTF8 = bytes := by
  unfold Content.ofBytes String.fromUTF8? at h
  split at h
  · next read =>
    cases h
    split at read
    · cases read
      rfl
    · cases read
  · cases h

theorem splitAtLineFeeds_ne_nil (bytes : List UInt8) : splitAtLineFeeds bytes ≠ [] := by
  induction bytes with
  | nil => exact List.cons_ne_nil _ _
  | cons byte rest ih =>
    rw [splitAtLineFeeds]
    split
    · exact List.cons_ne_nil _ _
    · simpa using ih

/-- No line of an input has a line feed. -/
theorem isLine_of_mem_inputLines {input : ByteArray} {line : String}
    (h : .text line ∈ inputLines input) : IsLine line := by
  obtain ⟨piece, mem, decoded⟩ := List.mem_map.mp h
  have inPieces : piece ∈ splitAtLineFeeds input.toList := by
    rcases List.mem_append.mp mem with ended | last
    · exact (List.dropLast_sublist _).mem ended
    · split at last
      · cases last
      · rw [List.mem_singleton.mp last, List.getLastD_eq_getLast?,
          List.getLast?_eq_getLast_of_ne_nil (splitAtLineFeeds_ne_nil _)]
        exact List.getLast_mem _
  have bytes := toUTF8_of_ofBytes decoded
  by_contra feeds
  have feed := feed_mem_toUTF8.mpr feeds
  rw [bytes, toList_bytes] at feed
  exact feed_not_mem inPieces (by simpa using feed)

theorem splitAtLineFeeds_unlines {lines : List String} (h : ∀ line ∈ lines, IsLine line) :
    splitAtLineFeeds (Text.unlines lines).toUTF8.toList =
      (lines.map fun line => line.toUTF8.toList) ++ [[]] := by
  induction lines with
  | nil =>
    rw [toList_toUTF8]
    rfl
  | cons line rest ih =>
    rw [List.forall_mem_cons] at h
    have free : 10 ∉ line.toUTF8.toList := fun feed => feed_mem_toUTF8.mp feed h.1
    have bytes : (Text.unlines (line :: rest)).toUTF8.toList =
        line.toUTF8.toList ++ 10 :: (Text.unlines rest).toUTF8.toList := by
      rw [toList_toUTF8, Text.toList_unlines_cons, List.flatMap_append, List.flatMap_cons,
        toList_toUTF8, toList_toUTF8]
      rfl
    rw [bytes, splitAtLineFeeds_append_cons free, ih h.2]
    rfl

/-- Texts without line feeds are the lines of the input that they make up. -/
theorem inputLines_unlines {lines : List String} (h : ∀ line ∈ lines, IsLine line) :
    inputLines (Text.unlines lines).toUTF8 = lines.map .text := by
  have decoded : ∀ line : String, Content.ofBytes ⟨line.toUTF8.toList.toArray⟩ = .text line := by
    intro line
    rw [toList_bytes, Array.toArray_toList]
    exact Content.ofBytes_bytes_text line
  rw [inputLines, splitAtLineFeeds_unlines h]
  simpa using fun line _ => decoded line

end TabStore
