import ProtoSchema.Text.Blank
import ProtoSchema.Text.Case
/-!
# Identifiers and their words

An identifier is a run of words. Underscores, hyphens and blanks stand between
words; inside a chunk without them a capital letter starts a word after a
small letter or a digit (`userId`), and the last of several capitals does when
a small letter follows it (`HTTPServer`). The spellings below write the same
words in different ways.
-/

namespace ProtoSchema.Identifier

open Text

def isSeparator (c : Char) : Bool := c == '_' || c == '-' || isBlank c

/-- A word starts at `c`, which stands after `prev` and before `next`. -/
def startsWord (prev c : Char) (next : Option Char) : Bool :=
  isUpper c && (isLower prev || prev.isDigit || (isUpper prev && next.any isLower))

/-- The words of a chunk that holds no separator. -/
def chunkWords : List Char → List (List Char)
  | [] => []
  | [c] => [[c]]
  | a :: b :: rest =>
    if startsWord a b rest.head? then [a] :: chunkWords (b :: rest)
    else (chunkWords (b :: rest)).modifyHead (a :: ·)

def words (cs : List Char) : List (List Char) := (cs.splitOnP isSeparator).flatMap chunkWords

def capitalize : List Char → List Char
  | [] => []
  | c :: rest => upper c ++ rest

def snake (cs : List Char) : List Char := List.intercalate ['_'] ((words cs).map lowered)

def split (cs : List Char) : List Char := List.intercalate [' '] ((words cs).map capitalize)

def pascal (cs : List Char) : List Char := (words cs).flatMap capitalize

/-- Drops every underscore and writes the character after it as a capital, which is pending
when `raise` holds. -/
def camelFrom (raise : Bool) : List Char → List Char
  | [] => []
  | c :: rest =>
    if c = '_' then camelFrom true rest
    else (if raise then upper c else [c]) ++ camelFrom false rest

/-- The words in small letters, joined by underscores. -/
def snakeCase (s : String) : String := String.ofList (snake s.toList)

/-- The capitalized words, with a space between them: the form of titles. -/
def splitCase (s : String) : String := String.ofList (split s.toList)

/-- The capitalized words, with nothing between them. -/
def pascalCase (s : String) : String := String.ofList (pascal s.toList)

/-- The JSON name of a field that declares none. -/
def lowerCamelCase (s : String) : String := String.ofList (camelFrom false s.toList)

end ProtoSchema.Identifier
