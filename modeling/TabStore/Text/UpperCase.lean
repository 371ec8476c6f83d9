/-!
# Upper case

Keywords are recognised in any letter case. Outside ASCII only the dotless i and the long s have a
single ASCII letter as their upper case; the sharp s and the f- and s-ligatures upper-case to pairs
of letters that occur in no keyword. So leaving every other character alone decides exactly whether
the upper case of a word is a given keyword.
-/

namespace TabStore.Text

/-- The upper case of a character as far as it is one ASCII letter. -/
def upperChar (c : Char) : Char :=
  if c = 'ı' then 'I' else if c = 'ſ' then 'S' else c.toUpper

def upper (text : List Char) : List Char := text.map upperChar

/-- Equality up to the case of ASCII letters only. -/
def sameIgnoringCase (left right : List Char) : Bool :=
  left.map Char.toLower == right.map Char.toLower

example : upper "uſe".toList = "USE".toList := by decide
example : sameIgnoringCase "lIKe".toList "LIKE".toList = true := by decide
example : sameIgnoringCase "lıke".toList "LIKE".toList = false := by decide

end TabStore.Text
