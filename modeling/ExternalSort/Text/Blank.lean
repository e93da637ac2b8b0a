/-
White space and letter case of names that people type.

Blank characters are those with the Unicode property White_Space, not only the ASCII
ones: a setting may arrive with an ideographic space around it.  Letter case is folded
for ASCII letters alone, so that a letter of another alphabet never turns into a name.
-/
namespace ExternalSort.Text

/-- The characters with the Unicode property White_Space. -/
def isBlank (c : Char) : Bool :=
  let n := c.toNat
  (9 ≤ n && n ≤ 13) || n == 0x20 || n == 0x85 || n == 0xA0 || n == 0x1680
    || (0x2000 ≤ n && n ≤ 0x200A) || n == 0x2028 || n == 0x2029 || n == 0x202F
    || n == 0x205F || n == 0x3000

/-- The text without the blank characters at its two ends. -/
def trimBlank (s : String) : List Char :=
  ((s.toList.dropWhile isBlank).reverse.dropWhile isBlank).reverse

/-- ASCII capitals made small; every other character stays. -/
def foldCase (cs : List Char) : List Char := cs.map Char.toLower

end ExternalSort.Text
