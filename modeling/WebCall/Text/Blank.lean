/-!
# Blanks and trimming

The characters with the Unicode property White_Space, and the removal of them from the two ends of
a text. Trimming works on lists of characters; `Text.trim` is the same operation on strings.
-/
namespace WebCall.Text

/-- The ranges of the property White_Space, ends included. -/
def blankRanges : List (Nat × Nat) :=
  [(0x09, 0x0D), (0x20, 0x20), (0x85, 0x85), (0xA0, 0xA0), (0x1680, 0x1680), (0x2000, 0x200A),
   (0x2028, 0x2029), (0x202F, 0x202F), (0x205F, 0x205F), (0x3000, 0x3000)]

/-- A blank is a character with the property White_Space. -/
def isBlank (c : Char) : Bool :=
  blankRanges.any fun r => r.1 ≤ c.toNat && c.toNat ≤ r.2

/-- Drops the blanks at the front. -/
def trimLeft (cs : List Char) : List Char := cs.dropWhile isBlank

/-- Drops the blanks at the end. -/
def trimRight (cs : List Char) : List Char := (cs.reverse.dropWhile isBlank).reverse

/-- Drops the blanks at both ends. -/
def trimBoth (cs : List Char) : List Char := trimRight (trimLeft cs)

@[simp] theorem trimLeft_nil : trimLeft [] = [] := rfl
@[simp] theorem trimRight_nil : trimRight [] = [] := rfl
@[simp] theorem trimBoth_nil : trimBoth [] = [] := rfl

/-- A text without the blanks at its two ends. -/
def trim (s : String) : String := .ofList (trimBoth s.toList)

/-- A text without the blanks at its end. -/
def trimEnd (s : String) : String := .ofList (trimRight s.toList)

/-- Nothing but blanks, or nothing at all. -/
def isAllBlank (s : String) : Bool := (trimBoth s.toList).isEmpty

@[simp] theorem toList_trim (s : String) : (trim s).toList = trimBoth s.toList :=
  String.toList_ofList

@[simp] theorem toList_trimEnd (s : String) : (trimEnd s).toList = trimRight s.toList :=
  String.toList_ofList

end WebCall.Text
