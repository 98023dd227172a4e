import SearchQuery.Proofs.Text.Words
import SearchQuery.Proofs.Token.Dashes
import SearchQuery.Proofs.Token.Reading

-- The parts of a query and what each of them is, read off the characters: what stands between
-- white space, and the dashes that a part begins with. The scanner cuts and strips its words
-- just so.

namespace SearchQuery.Token

-- The code points of the characters with the Unicode property White_Space.
def whiteSpace : List Nat :=
  List.range' 0x9 5 ++ [0x20, 0x85, 0xA0, 0x1680] ++ List.range' 0x2000 11 ++
    [0x2028, 0x2029, 0x202F, 0x205F, 0x3000]

-- What stands between white space, from left to right.
def parts (query : String) : List String :=
  ((query.toList.splitOnP fun c => decide (c.toNat ∈ whiteSpace)).filter fun cs => !cs.isEmpty).map
    String.ofList

section Blanks

theorem isBlankChar_eq (c : Char) : Text.isBlankChar c = decide (c.toNat ∈ whiteSpace) := by
  rw [Bool.eq_iff_iff, decide_eq_true_eq]
  simp only [Text.isBlankChar, whiteSpace, List.mem_append, List.mem_range'_1, List.mem_cons,
    List.not_mem_nil, or_false, Bool.or_eq_true, Bool.and_eq_true, decide_eq_true_eq, beq_iff_eq]
  omega

theorem isBlank_eq (text : String) :
    Text.isBlank text = text.toList.all fun c => decide (c.toNat ∈ whiteSpace) := by
  rw [Text.isBlank, funext isBlankChar_eq]

theorem parts_eq_words (query : String) : parts query = Text.words query := by
  rw [parts, Text.words, Text.wordChars_eq_filter, funext isBlankChar_eq]

end Blanks

-- A part as it bears on the groups of a query, with the number of dashes that it begins with.
inductive Part
  | opening (dashes : Nat)
  | closing (dashes : Nat)
  | plain (dashes : Nat) (text : String)

namespace Part

-- Reads a part from where `n` dashes have been passed.
def ofChars (n : Nat) : List Char → Part
  | '-' :: cs => ofChars (n + 1) cs
  | ['('] => .opening n
  | [')'] => .closing n
  | cs => .plain n (String.ofList cs)

def of (text : String) : Part :=
  ofChars 0 text.toList

variable {text : String} {n : Nat} {cs : List Char}

theorem ofChars_plain (hdash : cs.head? ≠ some '-') (hopen : cs ≠ ['(']) (hclose : cs ≠ [')']) :
    ofChars n cs = .plain n (String.ofList cs) := by
  rw [ofChars]
  · rintro ds rfl
    exact hdash rfl
  · exact hopen
  · exact hclose

-- The dashes at the front are counted, and no others.
theorem ofChars_eq (n : Nat) (cs : List Char) :
    ofChars n cs =
      ofChars (n + (cs.takeWhile fun c => c == '-').length) (cs.dropWhile fun c => c == '-') := by
  induction cs generalizing n with
  | nil => rfl
  | cons c cs ih =>
      by_cases hc : c = '-'
      · rw [hc, ofChars, ih, List.takeWhile_cons_of_pos rfl, List.dropWhile_cons_of_pos rfl,
          List.length_cons, Nat.add_assoc, Nat.add_comm 1]
      · rw [List.takeWhile_cons_of_neg (by simpa using hc),
          List.dropWhile_cons_of_neg (by simpa using hc)]
        rfl

theorem of_eq (text : String) : of text = ofChars (dashes text) (withoutDashes text).toList := by
  rw [of, ofChars_eq, Nat.zero_add, dashes, withoutDashes, String.toList_ofList]

theorem of_open (h : withoutDashes text = "(") : of text = .opening (dashes text) := by
  rw [of_eq, h]
  rfl

theorem of_close (h : withoutDashes text = ")") : of text = .closing (dashes text) := by
  rw [of_eq, h]
  rfl

theorem of_text (h : IsText text) : of text = .plain (dashes text) (withoutDashes text) := by
  have hopen : (withoutDashes text).toList ≠ ['('] := fun hcs =>
    h.1 (String.toList_inj.mp hcs)
  have hclose : (withoutDashes text).toList ≠ [')'] := fun hcs =>
    h.2 (String.toList_inj.mp hcs)
  rw [of_eq, ofChars_plain (head?_withoutDashes text) hopen hclose, String.ofList_toList]

end Part

end SearchQuery.Token
