-- SUMMARY: Splits a command line into words, with quotes and escapes taken off.

/-! # Command words

Blanks part the words of a command line. Single quotes take everything as it stands; double quotes
leave the backslash its meaning before a double quote and before itself; outside quotes a backslash
takes the next character as it stands. A word may be empty if quotes say so.
-/

namespace BranchTally

/-- Why a command line has no words. -/
inductive WordFault where
  | openQuote
  | openEscape
  deriving DecidableEq

/-- What is said of a command line without words. -/
def WordFault.message : WordFault → String
  | .openQuote => "No closing quotation"
  | .openEscape => "No escaped character"

namespace Words

/-- A blank between words. -/
def isGap (c : Char) : Bool := c = ' ' || c = '\t' || c = '\r' || c = '\n'

/-- Where the splitter stands. -/
inductive Mode where
  | plain
  | single
  | double
  | escape
  | doubleEscape
  deriving DecidableEq

/-- The word that is being read, last character first, if one has begun. -/
abbrev Open := Option (List Char)

/-- Adds a character to the open word, which it begins if there is none. -/
def push (word : Open) (c : Char) : Open := some (c :: word.getD [])

/-- The words from here on. -/
def splitFrom : Mode → Open → List Char → Except WordFault (List (List Char))
  | .plain, word, [] => .ok (word.map List.reverse).toList
  | .single, _, [] | .double, _, [] => .error .openQuote
  | .escape, _, [] | .doubleEscape, _, [] => .error .openEscape
  | .plain, word, c :: rest =>
    if isGap c then (splitFrom .plain none rest).map ((word.map List.reverse).toList ++ ·)
    else if c = '\'' then splitFrom .single (some (word.getD [])) rest
    else if c = '"' then splitFrom .double (some (word.getD [])) rest
    else if c = '\\' then splitFrom .escape word rest
    else splitFrom .plain (push word c) rest
  | .single, word, c :: rest =>
    if c = '\'' then splitFrom .plain word rest else splitFrom .single (push word c) rest
  | .double, word, c :: rest =>
    if c = '"' then splitFrom .plain word rest
    else if c = '\\' then splitFrom .doubleEscape word rest
    else splitFrom .double (push word c) rest
  | .escape, word, c :: rest => splitFrom .plain (push word c) rest
  | .doubleEscape, word, c :: rest =>
    splitFrom .double (if c = '"' || c = '\\' then push word c else push (push word '\\') c) rest

/-- The words of a command line. -/
def split (line : List Char) : Except WordFault (List (List Char)) := splitFrom .plain none line

end Words

end BranchTally
