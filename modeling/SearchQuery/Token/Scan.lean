import SearchQuery.Token.Basic

-- The scanning of words into tokens. A dash at the start of a word negates it, `(` opens
-- a group that a `)` of its own closes, and `|` stands between the branches of a choice.

namespace SearchQuery

-- How the groups and choices of a query can be wrong.
inductive GroupingFault
  | unclosed
  | unopened
  | orWithoutLeft
  | orWithoutRight
deriving DecidableEq, Repr

-- A fault and the words that show it, from position `start` up to but not including
-- position `stop`.
structure GroupingError where
  fault : GroupingFault
  start : Nat
  stop : Nat
deriving DecidableEq, Repr

namespace Token

-- The number of dashes before a word, and the word without them.
def dashes (text : String) : Nat :=
  (text.toList.takeWhile fun c => c == '-').length

def withoutDashes (text : String) : String :=
  String.ofList (text.toList.dropWhile fun c => c == '-')

-- The tokens of one level without the empty ones. If there are bars among them they are
-- one choice, of what stands between the bars; a bar has something on both sides.
def resolve (tokens : List Token) : Except GroupingFault (List Token) :=
  let kept := tokens.filter fun token => !token.looksEmpty
  match kept.splitOnP isBar with
  | [] | [_] => .ok kept
  | parts =>
      if parts.dropLast.any List.isEmpty then .error .orWithoutLeft
      else if (parts.getLast?.getD []).isEmpty then .error .orWithoutRight
      else .ok [choice (parts.map gather)]

-- The tokens of a level, the position after it and the words from there on.
structure Level where
  tokens : List Token
  next : Nat
  rest : List String

-- Ends a level whose words are those from `start` up to `stop`. The tokens come last
-- first.
def close (start stop next : Nat) (rest : List String) (tokens : List Token) :
    Except GroupingError { level : Level // level.rest.length ≤ rest.length } :=
  match resolve tokens.reverse with
  | .ok resolved => .ok ⟨⟨resolved, next, rest⟩, Nat.le_refl _⟩
  | .error fault => .error ⟨fault, start, stop⟩

-- Scans a level of words that began at position `start`. The words from position `pos`
-- on are still to come; `tokens` are those found so far, the last one first. Inside a
-- group the level ends with the word `)`, otherwise with the last word.
def scanLevel (inGroup : Bool) (start pos : Nat) (words : List String) (tokens : List Token) :
    Except GroupingError { level : Level // level.rest.length ≤ words.length } :=
  match words with
  | [] =>
      if inGroup then .error ⟨.unclosed, start - 1, pos⟩
      else close start pos pos [] tokens
  | text :: rest =>
      if text = ")" then
        if inGroup then
          (close start pos (pos + 1) rest tokens).map fun ⟨level, h⟩ =>
            ⟨level, Nat.le_succ_of_le h⟩
        else .error ⟨.unopened, 0, pos + 1⟩
      else
        let body := withoutDashes text
        if body = "(" then
          match scanLevel true (pos + 1) (pos + 1) rest [] with
          | .error e => .error e
          | .ok ⟨inner, _⟩ =>
              (scanLevel inGroup start inner.next inner.rest
                (negate (dashes text) (gather inner.tokens) :: tokens)).map fun ⟨level, _⟩ =>
                  ⟨level, by simp only [List.length_cons]; omega⟩
        else if body = ")" then .error ⟨.unopened, 0, pos + 1⟩
        else
          (scanLevel inGroup start (pos + 1) rest
            (negate (dashes text) (word body) :: tokens)).map fun ⟨level, h⟩ =>
              ⟨level, Nat.le_succ_of_le h⟩
termination_by words.length
decreasing_by
  · simp
  · simp only [List.length_cons]; omega
  · simp

def scanWords (words : List String) : Except GroupingError (List Token) :=
  (scanLevel false 0 0 words []).map fun level => level.val.tokens

-- The tokens of a query, or nothing if it is blank.
def scan (query : String) : Except GroupingError (Option (List Token)) :=
  match Text.words query with
  | [] => .ok none
  | words => (scanWords words).map some

-- The words that an error is about, with a space between each two.
def excerpt (words : List String) (e : GroupingError) : String :=
  " ".intercalate ((words.take e.stop).drop e.start)

end Token

end SearchQuery
