import Rulebook.Listing.Token
import Rulebook.Formula

/-!
# Listings — one line

A line reads `[3, 0] IF length<=3.0 AND width>=2.9 THEN class=setosa -0.0`: how many examples of
each class the rule covers, the antecedent, the prediction, and the score of the rule.  The
antecedent is `TRUE` in the default line, and else clauses joined by `AND`.

* `Clause.read`: a clause is cut at its leftmost operator, the longer one where two begin; the
  spaces in its name and its threshold become underscores.
* `Line.read`: the parse of a line, or the first thing wrong with it.
-/

namespace Rulebook

/-- A comparison of a variable as a listing writes it. -/
structure Clause where
  name : String
  op : Comparison
  threshold : String
  deriving DecidableEq, Repr

/-- The antecedent of a line: always true, or clauses that all have to hold. -/
inductive Antecedent
  | always
  | clauses (cs : List Clause)
  deriving DecidableEq, Repr

/-- The content of a line. -/
structure Line where
  distribution : List Nat
  antecedent : Antecedent
  target : String
  value : String
  score : Binary64
  deriving DecidableEq, Repr

/-! ### Clauses -/

namespace Clause

/-- The operator at the start of a text, and what follows it. -/
def operator? : List Char → Option (Comparison × List Char)
  | '<' :: '=' :: cs => some (.le, cs)
  | '>' :: '=' :: cs => some (.ge, cs)
  | '=' :: '=' :: cs => some (.eq, cs)
  | '!' :: '=' :: cs => some (.ne, cs)
  | '<' :: cs => some (.lt, cs)
  | '>' :: cs => some (.gt, cs)
  | _ => none

/-- What stands before the leftmost operator, the operator, and what stands after it. -/
def cut? : List Char → Option (List Char × Comparison × List Char)
  | [] => none
  | c :: cs =>
    match operator? (c :: cs) with
    | some (op, after) => some ([], op, after)
    | none => (cut? cs).map fun (before, op, after) => (c :: before, op, after)

/-- A name or a threshold with underscores for its spaces. -/
def normalize (cs : List Char) : String :=
  String.ofList (cs.map fun c => if c = ' ' then '_' else c)

/-- A clause from its text, which begins at `column`. -/
def read (text : List Char) (column : Nat) : Except LineError Clause :=
  match cut? text with
  | none => .error (.malformed (.noOperator (String.ofList text)) column)
  | some (before, op, after) =>
    let name := Text.strip before
    let threshold := Text.strip after
    if name = [] then .error (.malformed .noName (column + before.length))
    else if threshold = [] then
      .error (.malformed .noThreshold (column + before.length + op.symbol.length))
    else .ok ⟨normalize name, op, normalize threshold⟩

end Clause

namespace Line

/-- The text of a line from the first of some tokens to the last. -/
def between (line : List Char) : List Token → List Char
  | [] => []
  | t :: ts =>
    let stop := ((t :: ts).getLast (List.cons_ne_nil t ts)).stop
    (line.drop t.start).take (stop - t.start)

/-- The tokens of the clauses, of which `current` are those of the first; the last token before
the others stops at `stop`. -/
def splitClauses (current : List Token) (stop : Nat) :
    List Token → Except LineError (List (List Token))
  | [] =>
    if current = [] then .error (.malformed .noClauseAfterAnd (stop + 1)) else .ok [current]
  | t :: ts =>
    match t.kind with
    | .andWord =>
      if current = [] then .error (.malformed .noClauseBeforeAnd t.column)
      else match splitClauses [] t.stop ts with
      | .ok clauses => .ok (current :: clauses)
      | .error e => .error e
    | .trueWord => .error (.malformed .conjoinedTrue t.column)
    | _ => splitClauses (current ++ [t]) t.stop ts

/-- A clause from its tokens. -/
def readClause (line : List Char) (tokens : List Token) : Except LineError Clause :=
  Clause.read (between line tokens) ((tokens.head?.map (·.column)).getD 1)

/-- The antecedent from the tokens between `IF` and `THEN`. -/
def readAntecedent (line : List Char) (tokens : List Token) : Except LineError Antecedent :=
  match tokens with
  | [⟨.trueWord, _, _⟩] => .ok .always
  | _ => do
    let clauses ← splitClauses [] 0 tokens
    let clauses ← clauses.mapM (readClause line)
    return .clauses clauses

/-- The number that a score writes: a sign, digits with a point, and an exponent. -/
def score? (cs : List Char) : Option Binary64 :=
  let (negative, cs) := Numeral.splitSign cs
  (Numeral.read? negative cs).map Numeral.value

/-- The target, the value and the score from the tokens after `THEN`. -/
def readConsequent (line : List Char) (thenStop : Nat) (tokens : List Token) :
    Except LineError (String × String × Binary64) :=
  match tokens.getLast?, tokens.dropLast with
  | some last, first :: others =>
    match score? last.text with
    | none => .error (.malformed .noScore last.column)
    | some score =>
      let prediction := between line (first :: others)
      let target := Text.strip (prediction.takeWhile (· ≠ '='))
      let value := Text.strip ((prediction.dropWhile (· ≠ '=')).drop 1)
      if target = [] ∨ value = [] then .error (.malformed .noAssignment first.column)
      else .ok (String.ofList target, String.ofList value, score)
  | _, _ => .error (.malformed .noPrediction (thenStop + 2))

/-- The number that a count writes. -/
def readCount (digits : List Char) : Except LineError Nat :=
  if Text.digitLimit < digits.length then .error (.oversized digits.length)
  else .ok (Text.ofDigits (digits.filterMap Text.digit?))

/-- The counts among some tokens. -/
def readDistribution (tokens : List Token) : Except LineError (List Nat) :=
  (tokens.filter (·.kind = .count)).mapM fun t => readCount t.text

/-- The counts of a line, whatever follows them. -/
def readTotals (line : List Char) : Except LineError (List Nat) :=
  match Token.readBrackets line with
  | .ok counts => readDistribution counts.tokens
  | .error e => .error e

/-- The words of a line: `IF`, an antecedent, `THEN` and a consequent. -/
def readWords (line : List Char) (words : List Token) :
    Except LineError (Antecedent × String × String × Binary64) :=
  match words with
  | ⟨.ifWord, _, _⟩ :: words =>
    match words.dropWhile (·.kind ≠ .thenWord) with
    | [] => .error (.malformed .noThen (line.length + 1))
    | thenToken :: consequent => do
      let tokens := words.takeWhile (·.kind ≠ .thenWord)
      if tokens = [] then .error (.malformed .noAntecedent thenToken.column)
      else
        let antecedent ← readAntecedent line tokens
        let prediction ← readConsequent line thenToken.stop consequent
        return (antecedent, prediction)
  | words => .error (.malformed .noIf ((words.head?.map (·.column)).getD (line.length + 1)))

/-- The content of a line. -/
def read (line : List Char) : Except LineError Line := do
  let counts ← Token.readBrackets line
  let distribution ← readDistribution counts.tokens
  let (antecedent, target, value, score) ←
    readWords line (Token.readWords counts.position counts.rest)
  return ⟨distribution, antecedent, target, value, score⟩

end Line

end Rulebook
