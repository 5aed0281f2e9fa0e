import Mathlib.Data.List.Forall2
import Rulebook.Listing.Line

/-!
# Listings — the grammar of a line

What a line of a listing may look like, and what it then says, without a reader.  A line is made of
pieces: the counts in brackets, then words with blanks before them.  The words are `IF`, those of
the antecedent, the first `THEN`, those of the prediction, and the score.

* `Bracketed`: the runs of digits in the brackets, and what follows them.
* `Worded`: the words of a text, longest runs of characters that are not blank.
* `Clause.Reading`, `Antecedent.Reading`, `Prediction`, `ScoreText`: what the words may say.
* `Line.SaidBy`, `Line.Written`: the words of a line, and the whole of it.
-/

namespace Rulebook

/-! ### Characters -/

/-- What holds of every character of a text is decided along the text, not over all characters. -/
instance decidableForallMem (p : Char → Prop) [DecidablePred p] (cs : List Char) :
    Decidable (∀ c ∈ cs, p c) :=
  List.decidableBAll p cs

/-- Nothing but blanks. -/
def Blank (cs : List Char) : Prop := ∀ c ∈ cs, Text.isBlank c

instance (cs : List Char) : Decidable (Blank cs) :=
  inferInstanceAs (Decidable (∀ c ∈ cs, Text.isBlank c))

/-- Something other than blanks. -/
def Inked (cs : List Char) : Prop := ∃ c ∈ cs, ¬ Text.isBlank c

/-- A run of decimal digits. -/
structure DigitRun (cs : List Char) : Prop where
  nonempty : cs ≠ []
  digits : ∀ c ∈ cs, Text.isDigit c

/-! ### Counts -/

/-- Runs of digits between commas, with blanks around each. -/
inductive CountsText : List Char → List (List Char) → Prop
  | last {left run right : List Char} (hleft : Blank left) (hrun : DigitRun run)
      (hright : Blank right) : CountsText (left ++ (run ++ right)) [run]
  | more {left run right text : List Char} {runs : List (List Char)} (hleft : Blank left)
      (hrun : DigitRun run) (hright : Blank right) (rest : CountsText text runs) :
      CountsText (left ++ (run ++ (right ++ ',' :: text))) (run :: runs)

/-- A text that begins with counts in brackets, and the rest of it. -/
inductive Bracketed : List Char → List (List Char) → List Char → Prop
  | intro {left text rest : List Char} {runs : List (List Char)} (hleft : Blank left)
      (counts : CountsText text runs) : Bracketed (left ++ '[' :: (text ++ ']' :: rest)) runs rest

/-- The counts of a line are short enough to be read. -/
def ShortCounts (line : List Char) : Prop :=
  ∀ runs rest, Bracketed line runs rest → ∀ run ∈ runs, run.length ≤ 4300

/-! ### Words -/

/-- A word and the blanks before it. -/
structure SpacedWord where
  gap : List Char
  word : List Char

namespace SpacedWord

/-- Whether the word is the given one. -/
def is (keyword : String) (w : SpacedWord) : Bool := w.word == keyword.toList

/-- The text of some words, with the blanks before each. -/
def text (ws : List SpacedWord) : List Char := ws.flatMap fun w => w.gap ++ w.word

@[simp]
theorem text_nil : text [] = [] := rfl

@[simp]
theorem text_cons (w : SpacedWord) (ws : List SpacedWord) :
    text (w :: ws) = w.gap ++ (w.word ++ text ws) := by
  rw [text, List.flatMap_cons, List.append_assoc, text]

@[simp]
theorem text_append (us vs : List SpacedWord) : text (us ++ vs) = text us ++ text vs :=
  List.flatMap_append

theorem length_text_concat (ws : List SpacedWord) (w : SpacedWord) :
    (text (ws ++ [w])).length = (text ws).length + (w.gap ++ w.word).length := by
  rw [text_append, text_cons, text_nil, List.append_nil, List.length_append]

/-- The text from the first of some words to the last. -/
def source : List SpacedWord → List Char
  | [] => []
  | w :: ws => w.word ++ text ws

end SpacedWord

/-- The words of a text: they hold no blanks, and no two of them touch. -/
structure Worded (cs : List Char) (ws : List SpacedWord) : Prop where
  text : ∃ trailing, Blank trailing ∧ cs = SpacedWord.text ws ++ trailing
  nonempty : ∀ w ∈ ws, w.word ≠ []
  inked : ∀ w ∈ ws, ∀ c ∈ w.word, ¬ Text.isBlank c
  gaps : ∀ w ∈ ws, Blank w.gap
  apart : ∀ w ∈ ws.tail, w.gap ≠ []

/-! ### What words say -/

/-- The symbol of a comparison begins at a place of a text. -/
def Comparison.BeginsAt (op : Comparison) (text : List Char) (place : Nat) : Prop :=
  op.symbol.toList <+: text.drop place

/-- A text that says a clause: it is cut at its leftmost operator, the longest that begins there,
and says something on both sides. -/
structure Clause.Reading (text : List Char) (c : Clause) : Prop where
  cut : ∃ before after, text = before ++ (c.op.symbol.toList ++ after) ∧
    Inked before ∧ c.name = Clause.normalize (Text.strip before) ∧
    Inked after ∧ c.threshold = Clause.normalize (Text.strip after) ∧
    (∀ place < before.length, ∀ op : Comparison, ¬ op.BeginsAt text place) ∧
    ∀ op : Comparison, op.BeginsAt text before.length → op.symbol.length ≤ c.op.symbol.length

/-- Words that say a clause. -/
structure Clause.SaidBy (group : List SpacedWord) (c : Clause) : Prop where
  nonempty : group ≠ []
  reading : Clause.Reading (SpacedWord.source group) c

/-- Words that say an antecedent: the word `TRUE`, or clauses between the words `AND`. -/
def Antecedent.Reading (ws : List SpacedWord) : Antecedent → Prop
  | .always => ∃ w, ws = [w] ∧ w.is "TRUE"
  | .clauses cs => (∀ w ∈ ws, ¬ w.is "TRUE") ∧
      List.Forall₂ Clause.SaidBy (ws.splitOnP (SpacedWord.is "AND")) cs

/-- A text that says which value is predicted for which variable: it says something on both sides
of its first equality sign. -/
inductive Prediction : List Char → String → String → Prop
  | intro {target value : List Char} (hfirst : '=' ∉ target) (htarget : Inked target)
      (hvalue : Inked value) :
      Prediction (target ++ '=' :: value) (String.ofList (Text.strip target))
        (String.ofList (Text.strip value))

/-- A sign, or nothing. -/
def SignText (cs : List Char) : Prop := cs = [] ∨ cs = ['+'] ∨ cs = ['-']

/-- Digits, perhaps with a point among them or at an end. -/
inductive DecimalText : List Char → Prop
  | whole {run : List Char} (hrun : DigitRun run) : DecimalText run
  | pointed {run fraction : List Char} (hrun : DigitRun run)
      (hfraction : ∀ c ∈ fraction, Text.isDigit c) : DecimalText (run ++ '.' :: fraction)
  | fraction {run : List Char} (hrun : DigitRun run) : DecimalText ('.' :: run)

/-- An exponent, or nothing. -/
inductive ExponentText : List Char → Prop
  | absent : ExponentText []
  | present {mark : Char} {sign run : List Char} (hmark : mark = 'e' ∨ mark = 'E')
      (hsign : SignText sign) (hrun : DigitRun run) : ExponentText (mark :: (sign ++ run))

/-- A word that can be a score. -/
inductive ScoreText : List Char → Prop
  | intro {sign decimal exponent : List Char} (hsign : SignText sign)
      (hdecimal : DecimalText decimal) (hexponent : ExponentText exponent) :
      ScoreText (sign ++ (decimal ++ exponent))

/-! ### The line -/

/-- Words that say a line but for its counts: `IF`, an antecedent, the first `THEN`, a prediction
and a score. -/
inductive Line.SaidBy : List SpacedWord → Line → Prop
  | intro {opening closing score : SpacedWord} {antecedent prediction : List SpacedWord} {l : Line}
      (hopening : opening.is "IF")
      (hsome : antecedent ≠ []) (hantecedent : l.antecedent.Reading antecedent)
      (hfirst : ∀ w ∈ antecedent, ¬ w.is "THEN") (hclosing : closing.is "THEN")
      (hnonempty : prediction ≠ [])
      (hprediction : Prediction (SpacedWord.source prediction) l.target l.value)
      (hscore : ScoreText score.word)
      (hvalue : Binary64.ofText? (String.ofList score.word) = some l.score) :
      SaidBy (opening :: (antecedent ++ closing :: (prediction ++ [score]))) l

/-- A line that is written as a line has to be, and what it says. -/
inductive Line.Written : List Char → Line → Prop
  | intro {line rest : List Char} {runs : List (List Char)} {ws : List SpacedWord} {l : Line}
      (hcounts : Bracketed line runs rest)
      (hdistribution :
        l.distribution = runs.map fun run => Text.ofDigits (run.filterMap Text.digit?))
      (hwords : Worded rest ws) (hsaid : SaidBy ws l) : Written line l

end Rulebook
