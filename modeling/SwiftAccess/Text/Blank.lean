/-!
# Character classes and white space

The Unicode properties this library consults (white space, word characters, grapheme extenders,
printable characters) are tables of inclusive code point ranges. `CodeRanges.contains` is the one
membership test for all of them, so a fact about a table is a fact about its list of ranges.

The Unicode White_Space characters: tab, line feed, vertical tab, form feed, carriage return,
space, next line, no-break space, the Ogham space mark, the spaces U+2000 to U+200A, the line and
paragraph separators, the narrow no-break space, the medium mathematical space and the ideographic
space. The zero width space U+200B is not among them.

Text is cut into `words` at these characters, and `trim` removes them from both ends.
-/

namespace SwiftAccess.Text

/-- A set of characters given by inclusive ranges of code points. -/
abbrev CodeRanges := List (Nat × Nat)

/-- Whether a character's code point lies in one of the ranges. -/
def CodeRanges.contains (rs : CodeRanges) (c : Char) : Bool :=
  rs.any fun r => r.1 ≤ c.toNat && c.toNat ≤ r.2

theorem CodeRanges.contains_iff {rs : CodeRanges} {c : Char} :
    rs.contains c = true ↔ ∃ r ∈ rs, r.1 ≤ c.toNat ∧ c.toNat ≤ r.2 := by
  simp [CodeRanges.contains]

/-! ## White space -/

/-- The White_Space characters, as code point ranges in increasing order. -/
def blankRanges : CodeRanges :=
  [(0x9, 0xD), (0x20, 0x20), (0x85, 0x85), (0xA0, 0xA0), (0x1680, 0x1680), (0x2000, 0x200A),
   (0x2028, 0x2029), (0x202F, 0x202F), (0x205F, 0x205F), (0x3000, 0x3000)]

/-- Whether a character is Unicode white space. -/
def isBlank (c : Char) : Bool := blankRanges.contains c

/-- The text with white space removed from both ends. -/
def trim (cs : List Char) : List Char :=
  ((cs.dropWhile isBlank).reverse.dropWhile isBlank).reverse

/-- The words of a text: its maximal runs of characters that are not white space, in order. -/
def words (cs : List Char) : List (List Char) :=
  match h : cs.dropWhile isBlank with
  | [] => []
  | c :: rest => (c :: rest.takeWhile (!isBlank ·)) :: words (rest.dropWhile (!isBlank ·))
termination_by cs.length
decreasing_by
  have h1 : (c :: rest).length ≤ cs.length := h ▸ (List.dropWhile_sublist isBlank).length_le
  have h2 := (List.dropWhile_sublist (l := rest) (fun x => !isBlank x)).length_le
  simp only [List.length_cons] at h1
  omega

end SwiftAccess.Text
