-- Blank characters, and the cutting of text at them. A query is a row of words
-- that have blanks between them.

namespace SearchQuery.Text

-- The characters that have the Unicode property White_Space.
def isBlankChar (c : Char) : Bool :=
  let n := c.toNat
  (9 ≤ n && n ≤ 13) || n == 0x20 || n == 0x85 || n == 0xA0 || n == 0x1680 ||
    (0x2000 ≤ n && n ≤ 0x200A) || n == 0x2028 || n == 0x2029 || n == 0x202F ||
    n == 0x205F || n == 0x3000

-- Text is blank when it is empty or holds blank characters only.
def isBlank (text : String) : Bool :=
  text.toList.all isBlankChar

def trimStart (cs : List Char) : List Char :=
  cs.dropWhile isBlankChar

-- The text without the blanks at its two ends.
def trimChars (cs : List Char) : List Char :=
  (trimStart (trimStart cs).reverse).reverse

-- The longest runs of characters that are not blank, in order.
def wordChars : List Char → List (List Char)
  | [] => []
  | c :: cs =>
      if isBlankChar c then wordChars cs
      else (c :: cs.takeWhile fun d => !isBlankChar d) ::
        wordChars (cs.dropWhile fun d => !isBlankChar d)
termination_by cs => cs.length
decreasing_by
  · simp
  · exact Nat.lt_succ_of_le (List.dropWhile_suffix _).length_le

def words (text : String) : List String :=
  (wordChars text.toList).map String.ofList

-- What stands before the first occurrence of a mark, and what stands after it
-- if there is one.
def cutAt (mark : Char) (cs : List Char) : List Char × Option (List Char) :=
  (cs.takeWhile fun c => c != mark,
    match cs.dropWhile fun c => c != mark with
    | [] => none
    | _ :: rest => some rest)

theorem isBlankChar_of_isWhitespace (c : Char) (h : c.isWhitespace = true) :
    isBlankChar c = true := by
  simp only [Char.isWhitespace, Bool.or_eq_true, decide_eq_true_eq] at h
  rcases h with ((h | h) | h) | h <;> subst h <;> rfl

end SearchQuery.Text
