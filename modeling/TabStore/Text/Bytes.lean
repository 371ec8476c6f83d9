/-!
# Cuts at byte positions

A text is cut at a count of its UTF-8 bytes. A cut inside a character has no parts, so a text can
be cut exactly at the sizes of its prefixes.
-/

namespace TabStore.Text

def byteSize : List Char → Nat
  | [] => 0
  | c :: rest => c.utf8Size + byteSize rest

/-- The parts before and behind a byte position; `none` inside a character and behind the end. -/
def cutAt (position : Nat) : List Char → Option (List Char × List Char)
  | [] => if position = 0 then some ([], []) else none
  | c :: rest =>
    if position = 0 then some ([], c :: rest)
    else if position < c.utf8Size then none
    else (cutAt (position - c.utf8Size) rest).map fun (before, behind) => (c :: before, behind)

theorem cutAt_byteSize_append (before behind : List Char) :
    cutAt (byteSize before) (before ++ behind) = some (before, behind) := by
  induction before with
  | nil => cases behind <;> simp [byteSize, cutAt]
  | cons c rest ih =>
    have positive := c.utf8Size_pos
    rw [List.cons_append, cutAt, byteSize, if_neg (by omega), if_neg (by omega),
      Nat.add_sub_cancel_left, ih]
    rfl

/-- The part of a text between two byte positions. -/
def slice (start stop : Nat) (text : List Char) : Option (List Char) := do
  let (_, behind) ← cutAt start text
  let (part, _) ← cutAt (stop - start) behind
  return part

example : slice 1 3 "aébc".toList = some "é".toList := by decide
example : slice 2 4 "aébc".toList = none := by decide

end TabStore.Text
