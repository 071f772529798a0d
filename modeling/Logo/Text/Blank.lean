import Logo.Text.CodePoints

/-!
# Blanks

The characters that separate words: those with the Unicode property `White_Space`.
-/

namespace Logo.Text

/-- The code points with the property `White_Space`. -/
def blanks : CodePoints :=
  ⟨[(0x9, 0xD), (0x20, 0x20), (0x85, 0x85), (0xA0, 0xA0), (0x1680, 0x1680), (0x2000, 0x200A),
    (0x2028, 0x2029), (0x202F, 0x202F), (0x205F, 0x205F), (0x3000, 0x3000)]⟩

/-- Whether the character is a blank. -/
def isBlank (c : Char) : Bool :=
  blanks.contains c

/-- The text without its leading blanks. -/
def trimLeft (s : String) : String :=
  String.ofList (s.toList.dropWhile isBlank)

end Logo.Text
