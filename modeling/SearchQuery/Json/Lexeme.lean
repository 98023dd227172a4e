import SearchQuery.Json.Number

-- JSON text cut into its smallest parts.

namespace SearchQuery.Json

open SearchQuery.Numeral

inductive Lexeme
  | beginArray
  | endArray
  | beginObject
  | endObject
  | comma
  | colon
  | string (text : String)
  | scalar (value : Document)
  | junk

def isSpace (c : Char) : Bool :=
  c = ' ' || c = '\t' || c = '\n' || c = '\r'

def hexValue? (c : Char) : Option Nat :=
  if c.isDigit then some (c.toNat - '0'.toNat)
  else if 'a' ≤ c && c ≤ 'f' then some (c.toNat - 'a'.toNat + 10)
  else if 'A' ≤ c && c ≤ 'F' then some (c.toNat - 'A'.toNat + 10)
  else none

-- A unit of UTF-16, from four hexadecimal digits.
def unitOf? (a b c d : Char) : Option Nat := do
  return 4096 * (← hexValue? a) + 256 * (← hexValue? b) + 16 * (← hexValue? c) + (← hexValue? d)

def escaped? (c : Char) : Option Char :=
  match c with
  | '"' | '\\' | '/' => some c
  | 'b' => some (Char.ofNat 8)
  | 'f' => some (Char.ofNat 12)
  | 'n' => some '\n'
  | 'r' => some '\r'
  | 't' => some '\t'
  | _ => none

-- The characters up to the closing quote, and what follows it. A character outside the
-- basic plane may be escaped as a high and a low surrogate, neither of which may stand
-- alone.
def readString : List Char → Option (List Char × List Char)
  | [] => none
  | '"' :: rest => some ([], rest)
  | '\\' :: 'u' :: a :: b :: c :: d :: rest =>
      match unitOf? a b c d with
      | none => none
      | some high =>
          if 0xD800 ≤ high && high < 0xDC00 then
            match rest with
            | '\\' :: 'u' :: e :: f :: g :: h :: rest =>
                match unitOf? e f g h with
                | none => none
                | some low =>
                    if 0xDC00 ≤ low && low < 0xE000 then
                      let code := 0x10000 + (high - 0xD800) * 0x400 + (low - 0xDC00)
                      (readString rest).map fun (cs, after) => (Char.ofNat code :: cs, after)
                    else none
            | _ => none
          else if 0xDC00 ≤ high && high < 0xE000 then none
          else (readString rest).map fun (cs, after) => (Char.ofNat high :: cs, after)
  | '\\' :: c :: rest =>
      match escaped? c with
      | some d => (readString rest).map fun (cs, after) => (d :: cs, after)
      | none => none
  | c :: rest =>
      if c.toNat < 0x20 then none
      else (readString rest).map fun (cs, after) => (c :: cs, after)

-- The lexeme at the start of a text that is not empty, and what follows it.
def next : List Char → Option (Lexeme × List Char)
  | '[' :: rest => some (.beginArray, rest)
  | ']' :: rest => some (.endArray, rest)
  | '{' :: rest => some (.beginObject, rest)
  | '}' :: rest => some (.endObject, rest)
  | ',' :: rest => some (.comma, rest)
  | ':' :: rest => some (.colon, rest)
  | '"' :: rest => (readString rest).map fun (cs, after) => (.string (String.ofList cs), after)
  | 'n' :: 'u' :: 'l' :: 'l' :: rest => some (.scalar .null, rest)
  | 't' :: 'r' :: 'u' :: 'e' :: rest => some (.scalar (.boolean true), rest)
  | 'f' :: 'a' :: 'l' :: 's' :: 'e' :: rest => some (.scalar (.boolean false), rest)
  | cs => (readNumber cs).map fun (number, rest) => (.scalar number, rest)

-- At most as many lexemes as `limit`. Text that is none ends them as junk.
def lexemesUpTo : Nat → List Char → List Lexeme
  | 0, _ => []
  | limit + 1, cs =>
      match cs.dropWhile isSpace with
      | [] => []
      | cs =>
          match next cs with
          | some (lexeme, rest) => lexeme :: lexemesUpTo limit rest
          | none => [.junk]

-- A lexeme has at least one character.
def lexemes (text : String) : List Lexeme :=
  let cs := text.toList
  lexemesUpTo cs.length cs

end SearchQuery.Json
