import TabStore.Text.Ranges

/-!
# Blank characters

The characters with the property White_Space, and text trimmed of them.
-/

namespace TabStore.Text

def blankRanges : List (Nat × Nat) :=
  [(0x9, 0xD), (0x20, 0x20), (0x85, 0x85), (0xA0, 0xA0), (0x1680, 0x1680), (0x2000, 0x200A),
   (0x2028, 0x2029), (0x202F, 0x202F), (0x205F, 0x205F), (0x3000, 0x3000)]

def isBlank (c : Char) : Bool := inRanges blankRanges c.toNat

def trimStart (text : List Char) : List Char := text.dropWhile isBlank

def trimEnd (text : List Char) : List Char := (text.reverse.dropWhile isBlank).reverse

def trim (text : List Char) : List Char := trimEnd (trimStart text)

example : [' ', '\u00A0', '\u3000', '\u2028'].all isBlank = true := by decide
example : ['\u200B', '\u180E', '_', '\x00'].any isBlank = false := by decide

end TabStore.Text
