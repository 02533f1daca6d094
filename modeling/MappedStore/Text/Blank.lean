/-!
# White space

The characters with the Unicode property `White_Space`, and removal of them at both ends of a
text.
-/

namespace MappedStore.Text

/-- The code points of white space. -/
def blanks : List Nat :=
  [9, 10, 11, 12, 13, 32, 133, 160, 5760, 8192, 8193, 8194, 8195, 8196, 8197, 8198, 8199, 8200,
    8201, 8202, 8232, 8233, 8239, 8287, 12288]

/-- Whether a character is white space. -/
def isBlank (char : Char) : Bool :=
  blanks.contains char.toNat

/-- Every character that core counts as white space is white space. -/
theorem isBlank_of_isWhitespace {char : Char} (h : char.isWhitespace = true) :
    isBlank char = true := by
  simp only [Char.isWhitespace, Bool.or_eq_true, decide_eq_true_eq] at h
  rcases h with ((rfl | rfl) | rfl) | rfl <;> decide

/-- A text without the white space at its ends. -/
def trim (text : String) : String :=
  String.ofList
    ((text.toList.dropWhile isBlank).reverse.dropWhile isBlank).reverse

/-- A text with the capital letters of ASCII in lower case. -/
def lowerAscii (text : String) : String :=
  String.ofList (text.toList.map Char.toLower)

end MappedStore.Text
