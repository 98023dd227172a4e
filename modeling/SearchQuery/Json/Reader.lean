import SearchQuery.Json.Lexeme

-- The document that a text writes. Where the text stops being JSON, everything that was
-- begun before is still in the document, so that a reader of documents who goes from left
-- to right finds what comes first: the place where the text breaks, or something that it
-- does not expect.

namespace SearchQuery.Json

-- A container that is not closed yet, with its contents so far, the last first. In an
-- object the name of a member may be known before its value.
inductive Frame
  | array (items : List Document)
  | object (members : List (String × Document)) (name : Option String)

-- What may come next.
inductive Awaiting
  | value
  | itemOrEnd
  | nameOrEnd
  | name
  | colon
  | commaOrEnd
deriving DecidableEq

inductive Progress
  | reading (frames : List Frame) (awaiting : Awaiting)
  | whole (document : Document)
  | broken (document : Document)

-- More containers than these inside each other are refused.
def maxDepth : Nat := 127

-- The container with a value that cannot be read at its end, or without its end.
def Frame.breakOff (inner : Document) : Frame → Document
  | array items => .array (inner :: items).reverse
  | object members (some name) => .object ((name, inner) :: members).reverse false
  | object members none => .object members.reverse false

def breakOff (frames : List Frame) : Document :=
  frames.foldl Frame.breakOff .broken

-- Puts a value that is all there into the innermost container.
def place (value : Document) : List Frame → Progress
  | [] => .whole value
  | .array items :: frames => .reading (.array (value :: items) :: frames) .commaOrEnd
  | .object members (some name) :: frames =>
      .reading (.object ((name, value) :: members) none :: frames) .commaOrEnd
  | .object members none :: frames => .broken (breakOff (.object members none :: frames))

def push (frame : Frame) (frames : List Frame) (awaiting : Awaiting) : Progress :=
  if frames.length < maxDepth then .reading (frame :: frames) awaiting
  else .broken (breakOff frames)

def stepValue (frames : List Frame) : Lexeme → Progress
  | .beginArray => push (.array []) frames .itemOrEnd
  | .beginObject => push (.object [] none) frames .nameOrEnd
  | .string text => place (.string text) frames
  | .scalar value => place value frames
  | _ => .broken (breakOff frames)

def stepName (frames : List Frame) (lexeme : Lexeme) : Progress :=
  match lexeme, frames with
  | .string name, .object members _ :: frames =>
      .reading (.object members (some name) :: frames) .colon
  | _, _ => .broken (breakOff frames)

def stepEnd (frames : List Frame) (lexeme : Lexeme) : Progress :=
  match lexeme, frames with
  | .endArray, .array items :: frames => place (.array items.reverse) frames
  | .endObject, .object members _ :: frames => place (.object members.reverse true) frames
  | _, _ => .broken (breakOff frames)

def stepComma (frames : List Frame) : Progress :=
  match frames with
  | .array _ :: _ => .reading frames .value
  | .object _ _ :: _ => .reading frames .name
  | [] => .broken .broken

def step (progress : Progress) (lexeme : Lexeme) : Progress :=
  match progress with
  | .whole document => .broken document
  | .broken document => .broken document
  | .reading frames awaiting =>
      match awaiting, lexeme with
      | .value, _ => stepValue frames lexeme
      | .itemOrEnd, .endArray => stepEnd frames lexeme
      | .itemOrEnd, _ => stepValue frames lexeme
      | .nameOrEnd, .endObject => stepEnd frames lexeme
      | .nameOrEnd, _ => stepName frames lexeme
      | .name, _ => stepName frames lexeme
      | .colon, .colon => .reading frames .value
      | .colon, _ => .broken (breakOff frames)
      | .commaOrEnd, .comma => stepComma frames
      | .commaOrEnd, _ => stepEnd frames lexeme

-- A document, and whether the text is that document and nothing else.
structure Reading where
  document : Document
  whole : Bool

def read (text : String) : Reading :=
  match (lexemes text).foldl step (.reading [] .value) with
  | .whole document => ⟨document, true⟩
  | .broken document => ⟨document, false⟩
  | .reading frames _ => ⟨breakOff frames, false⟩

end SearchQuery.Json
