import Rulebook.Text.Blank
import Rulebook.Text.Digit

/-!
# Listings — the tokens of a line

A line of a listing begins with counts in brackets, and goes on in words: longest runs of
characters that are not blank.  Every token knows where it starts.

* `Token.readCounts`: the tokens of the brackets, and where the words begin.
* `Token.readWords`: the words.
* `Token.scan`: all of them, or what is wrong with the brackets, and where.
-/

namespace Rulebook

/-- What is wrong with a line of a listing. -/
inductive LineFault
  | noOpeningBracket
  | noClosingBracket
  | noCount
  | noSeparator
  | noIf
  | noThen
  | noAntecedent
  | noClauseBeforeAnd
  | noClauseAfterAnd
  | conjoinedTrue
  | noOperator (clause : String)
  | noName
  | noThreshold
  | noPrediction
  | noScore
  | noAssignment
  | classCount (expected found : Nat)
  deriving DecidableEq, Repr

/-- What is wrong with a line, and the column where, counted from one; or a count of too many
digits. -/
inductive LineError
  | malformed (fault : LineFault) (column : Nat)
  | oversized (digits : Nat)
  deriving DecidableEq, Repr

inductive TokenKind
  | openBracket | closeBracket | comma | count
  | ifWord | thenWord | andWord | trueWord | word
  deriving DecidableEq, Repr

structure Token where
  kind : TokenKind
  text : List Char
  start : Nat
  deriving DecidableEq, Repr

namespace Token

/-- The position after the last character. -/
def stop (t : Token) : Nat := t.start + t.text.length

/-- The column of the first character, counted from one. -/
def column (t : Token) : Nat := t.start + 1

/-- The keyword that a word is, if it is one. -/
def keyword? (word : List Char) : Option TokenKind :=
  if word = ['I', 'F'] then some .ifWord
  else if word = ['T', 'H', 'E', 'N'] then some .thenWord
  else if word = ['A', 'N', 'D'] then some .andWord
  else if word = ['T', 'R', 'U', 'E'] then some .trueWord
  else none

/-- A word as a token. -/
def ofWord (word : List Char) (start : Nat) : Token :=
  ⟨(keyword? word).getD .word, word, start⟩

/-- The tokens of the brackets, and what follows them from `position` on. -/
structure Counts where
  tokens : List Token
  position : Nat
  rest : List Char

/-- The position of the first character that is not blank, and the text from there on. -/
def skipBlanks (position : Nat) (cs : List Char) : Nat × List Char :=
  (position + (cs.takeWhile Text.isBlank).length, cs.dropWhile Text.isBlank)

theorem length_skipBlanks_le (position : Nat) (cs : List Char) :
    (skipBlanks position cs).2.length ≤ cs.length :=
  (List.dropWhile_suffix _).length_le

/-- The counts from `position` on, and the closing bracket. -/
def readCounts (position : Nat) (cs : List Char) : Except LineError Counts :=
  let start := (skipBlanks position cs).1
  let text := (skipBlanks position cs).2
  let digits := text.takeWhile Text.isDigit
  if digits = [] then
    .error (.malformed (if text = [] then .noClosingBracket else .noCount) (start + 1))
  else
    let count : Token := ⟨.count, digits, start⟩
    let next := skipBlanks count.stop (text.dropWhile Text.isDigit)
    match _h : next.2 with
    | [] => .error (.malformed .noClosingBracket (next.1 + 1))
    | c :: rest =>
      if c = ',' then
        match readCounts (next.1 + 1) rest with
        | .ok counts =>
          .ok { counts with tokens := count :: ⟨.comma, [','], next.1⟩ :: counts.tokens }
        | .error e => .error e
      else if c = ']' then
        .ok ⟨[count, ⟨.closeBracket, [']'], next.1⟩], next.1 + 1, rest⟩
      else .error (.malformed .noSeparator (next.1 + 1))
termination_by cs.length
decreasing_by
  have h₁ : text.length ≤ cs.length := length_skipBlanks_le position cs
  have h₂ := length_skipBlanks_le count.stop (text.dropWhile Text.isDigit)
  have h₃ : (text.dropWhile Text.isDigit).length ≤ text.length :=
    (List.dropWhile_suffix _).length_le
  simp only [next] at _h
  rw [_h] at h₂
  simp only [List.length_cons] at h₂
  omega

/-- The brackets at the start of a line. -/
def readBrackets (line : List Char) : Except LineError Counts :=
  let (start, text) := skipBlanks 0 line
  match text with
  | '[' :: rest =>
    match readCounts (start + 1) rest with
    | .ok counts => .ok { counts with tokens := ⟨.openBracket, ['['], start⟩ :: counts.tokens }
    | .error e => .error e
  | _ => .error (.malformed .noOpeningBracket (start + 1))

/-- The words from `position` on. -/
def readWords (position : Nat) (cs : List Char) : List Token :=
  let start := (skipBlanks position cs).1
  let text := (skipBlanks position cs).2
  let word := text.takeWhile fun c => !Text.isBlank c
  match _h : word with
  | [] => []
  | _ :: _ =>
    ofWord word start ::
      readWords (start + word.length) (text.dropWhile fun c => !Text.isBlank c)
termination_by cs.length
decreasing_by
  change (text.dropWhile fun c => !Text.isBlank c).length < cs.length
  have h₁ : text.length ≤ cs.length := length_skipBlanks_le position cs
  have h₂ : word ++ text.dropWhile (fun c => !Text.isBlank c) = text :=
    List.takeWhile_append_dropWhile
  have h₃ := congrArg List.length h₂
  rw [List.length_append, _h, List.length_cons] at h₃
  omega

/-- The tokens of a line. -/
def scan (line : List Char) : Except LineError (List Token) :=
  match readBrackets line with
  | .ok counts => .ok (counts.tokens ++ readWords counts.position counts.rest)
  | .error e => .error e

end Token

end Rulebook
