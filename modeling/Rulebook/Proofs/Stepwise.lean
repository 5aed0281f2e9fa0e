import Rulebook.Formula.Build
import Rulebook.Proofs.CountLimit
import Rulebook.Proofs.Spelling

/-!
# Listings — every step of the reader has an answer

Some steps that a reader takes have an answer only where an earlier one has made sure of it: there
is a bracket to be found among the tokens, a score is a number, the parts of a rule are fit for one,
counts come in pairs, a list has a last rule to fold.  `Listing.read` takes these steps with
functions that always answer.  Here the same reader takes them with functions that may not
(`Stepwise.read`), each with a `Slip` of its own, and the two are equal: they end alike and tell
the same on the way (`Stepwise.read_eq`).

So a text becomes a list, or is refused with an error that blames the text, and the limit on counts
is met only on a line with a count that is too long (`Stepwise.answer_total`).
-/

namespace Rulebook

namespace Listing

/-- A step of the reader that has no answer. -/
inductive Slip
  /-- No bracket among the tokens of a line closes its counts. -/
  | noClosingBracket
  /-- A line without a bracket that opens its counts. -/
  | noOpeningBracket
  /-- A score that is not a number. -/
  | noNumber
  /-- The parts of an antecedent are unfit. -/
  | unfit (fault : FormulaFault)
  /-- Counts that have no partner in a subtraction. -/
  | unpaired
  /-- The last rule of a list cannot be folded. -/
  | unfolded (fault : BuildFault)

/-- Why a reading stops. -/
inductive Stop
  /-- The text is at fault. -/
  | refused (e : ListingError)
  /-- How to read is left to settings that cannot be read. -/
  | unsettled (faults : List Settings.Fault)
  /-- The reader is at fault. -/
  | slipped (slip : Slip)

/-- An error that is in the text, and not in the length of a count. -/
def BlamesText : ListingError → Prop
  | .oversized _ => False
  | _ => True

namespace Stepwise

variable {α : Type}

/-- What a step of the reader is expected to find. -/
def found (slip : Slip) : Option α → Except Stop α
  | some a => .ok a
  | none => .error (.slipped slip)

/-- An error in a line as an error in the text. -/
def blame (line : NumberedLine) (x : Except LineError α) : Except Stop α :=
  x.mapError fun e => .refused (.ofLine line e)

/-- The counts of a line, and the words behind the bracket that closes them. -/
def splitLine (line : NumberedLine) : Except Stop (List Nat × List Token) := do
  let tokens ← blame line (Token.scan line.text)
  let closing ← found .noClosingBracket (tokens.findIdx? fun t => t.kind = .closeBracket)
  let counts ← blame line (Line.readDistribution (tokens.take closing))
  return (counts, tokens.drop (closing + 1))

/-- The number that the last of some words writes. -/
def scoreOf (words : List Token) : Except Stop Binary64 :=
  found .noNumber (words.getLast?.bind fun t => Binary64.ofText? (String.ofList t.text))

/-- The content of a line. -/
def readLine (line : NumberedLine) : Except Stop Line := do
  let (counts, words) ← splitLine line
  let (antecedent, target, value, _) ← blame line (Line.readWords line.text words)
  let score ← scoreOf words
  return ⟨counts, antecedent, target, value, score⟩

/-- The conjunction of some clauses, built from its parts. -/
def conjunctionOf (o : Options) (clauses : List Clause) : Except Stop Formula :=
  Except.mapError (fun fault => .slipped (.unfit fault)) do
    let conditions ← clauses.mapM fun c =>
      Condition.build (o.rename c.name) c.op.symbol (.ofText c.threshold)
    Formula.conjoin conditions

/-- What is left of each class, when no count is without a partner. -/
def subtract (uncovered : List Int) (covered : List Nat) : Except Stop (List Int) :=
  if uncovered.length = covered.length then .ok (remaining uncovered covered)
  else .error (.slipped .unpaired)

/-- The rules from here on and the default. -/
def readRules (o : Options) (uncovered : List Int) (preceded : Bool) :
    List NumberedLine → Traced Stop (List Rule × Model)
  | [] => .fail (.refused .noDefault)
  | line :: lines => do
    let parsed ← Traced.ofExcept (readLine line)
    match parsed.antecedent with
    | .always =>
      if o.ignoreDefault && !preceded then .fail (.refused (.defaultAlone line))
      else pure ([], constant parsed none)
    | .clauses clauses =>
      if parsed.distribution.length ≠ uncovered.length then do
        let opening ← Traced.ofExcept
          (found .noOpeningBracket (line.text.findIdx? fun c => c = '['))
        .fail (.refused (.malformed line
          (.classCount uncovered.length parsed.distribution.length) (opening + 1)))
      else
        let antecedent ← Traced.ofExcept (conjunctionOf o clauses)
        Traced.record (.ruleRead line.number parsed.value parsed.distribution)
        let left ← Traced.ofExcept (subtract uncovered parsed.distribution)
        if left.any (· < 0) then
          if o.strict then
            .fail (.refused (.overdrawn line uncovered parsed.distribution))
          else
            Traced.record (.overdrawn line.number uncovered parsed.distribution)
        let (rules, default) ← readRules o left true lines
        pure ({ rule o uncovered parsed clauses with antecedent } :: rules, default)

/-- A list as it was read, or with its last rule folded if the default is ignored. -/
def fold (o : Options) (m : Model) : Traced Stop Model :=
  if o.ignoreDefault then m.foldLastRule.mapError fun fault => .slipped (.unfolded fault)
  else pure m

/-- Records a list that is read. -/
def announce (o : Options) : Model → Traced Stop Unit
  | .decisionList _ rules default =>
    Traced.record (.listRead rules.length default.toText o.ignoreDefault)
  | _ => pure ()

/-- The decision list of a text. -/
def read (o : Options) (text : List Char) : Traced Stop Model := do
  let lines := numberedLines text
  match lines.getLast? with
  | none => .fail (.refused .noDefault)
  | some last =>
    let (totals, _) ← Traced.ofExcept (splitLine last)
    let (rules, default) ← readRules o (totals.map Int.ofNat) false lines
    let list ← fold o (.decisionList .empty rules default)
    announce o list
    pure list

/-- The decision list of a text that is asked for. -/
def answer (r : Request) (defaults : Except (List Settings.Fault) Settings) (text : List Char) :
    Traced Stop Model := do
  let o ← Traced.ofExcept ((r.options defaults).mapError .unsettled)
  read o text

/-! ### The brackets -/

theorem findIdx?_append_cons {p : α → Bool} {front rest : List α} {a : α}
    (hfront : ∀ b ∈ front, p b = false) (ha : p a = true) :
    (front ++ a :: rest).findIdx? p = some front.length := by
  rw [List.findIdx?_append, List.findIdx?_eq_none_iff.mpr hfront, List.findIdx?_cons, ha]
  simp

/-- The counts end with the one bracket that closes them. -/
theorem exists_closing_of_readCounts (position : Nat) (cs : List Char) :
    ∀ {counts : Token.Counts}, Token.readCounts position cs = .ok counts →
      ∃ front closing, counts.tokens = front ++ [closing] ∧ closing.kind = .closeBracket ∧
        ∀ t ∈ front, t.kind ≠ .closeBracket := by
  fun_induction Token.readCounts position cs with
  | case1 | case2 | case4 | case6 => rintro _ ⟨⟩
  | case3 position cs start text digits hne count next rest counts hread hnext =>
      rename_i ih
      rintro _ ⟨⟩
      obtain ⟨front, closing, htokens, hclosing, hfront⟩ := ih hread
      refine ⟨count :: ⟨.comma, [','], next.1⟩ :: front, closing, ?_, hclosing, ?_⟩
      · simp only [htokens, List.cons_append]
      · rw [List.forall_mem_cons, List.forall_mem_cons]
        exact ⟨TokenKind.noConfusion, TokenKind.noConfusion, hfront⟩
  | case5 position cs start text digits hne count next rest hnext =>
      rintro _ ⟨⟩
      refine ⟨[count], _, rfl, rfl, ?_⟩
      rw [List.forall_mem_singleton]
      exact TokenKind.noConfusion

theorem exists_closing_of_readBrackets {line : List Char} {counts : Token.Counts}
    (h : Token.readBrackets line = .ok counts) :
    ∃ front closing, counts.tokens = front ++ [closing] ∧ closing.kind = .closeBracket ∧
      ∀ t ∈ front, t.kind ≠ .closeBracket := by
  unfold Token.readBrackets at h
  split at h
  split at h
  next =>
    split at h
    next counts' hcounts =>
      cases h
      obtain ⟨front, closing, htokens, hclosing, hfront⟩ := exists_closing_of_readCounts _ _ hcounts
      refine ⟨_ :: front, closing, congrArg _ htokens, hclosing, ?_⟩
      exact List.forall_mem_cons.mpr ⟨TokenKind.noConfusion, hfront⟩
    next => cases h
  next => cases h

/-- The closing bracket counts nothing. -/
theorem readDistribution_concat {closing : Token} (h : closing.kind = .closeBracket)
    (front : List Token) :
    Line.readDistribution (front ++ [closing]) = Line.readDistribution front := by
  have hcount : decide (closing.kind = .count) = false := by rw [h]; rfl
  rw [Line.readDistribution, List.filter_append, List.filter_singleton, hcount, cond_false,
    List.append_nil, Line.readDistribution]

/-- The counts of a line are those of its brackets, and the words stand behind them. -/
theorem splitLine_eq (line : NumberedLine) :
    splitLine line = blame line (Token.readBrackets line.text >>= fun counts =>
      Line.readDistribution counts.tokens >>= fun distribution =>
        .ok (distribution, Token.readWords counts.position counts.rest)) := by
  unfold splitLine Token.scan
  cases hcounts : Token.readBrackets line.text with
  | error e => rfl
  | ok counts =>
      obtain ⟨front, closing, htokens, hclosing, hfront⟩ := exists_closing_of_readBrackets hcounts
      have hfind : (front ++ closing :: Token.readWords counts.position counts.rest).findIdx?
          (fun t => t.kind = .closeBracket) = some front.length :=
        findIdx?_append_cons (fun t ht => decide_eq_false (hfront t ht)) (decide_eq_true hclosing)
      have hwords : (front ++ closing :: Token.readWords counts.position counts.rest).drop
          (front.length + 1) = Token.readWords counts.position counts.rest := by
        rw [List.drop_append, List.drop_eq_nil_of_le (Nat.le_succ _), Nat.add_sub_cancel_left]
        rfl
      dsimp only [blame, Except.mapError]
      rw [Except.ok_bind, Except.ok_bind, htokens, List.append_assoc, List.singleton_append, hfind,
        readDistribution_concat hclosing]
      dsimp only [found]
      rw [Except.ok_bind, List.take_left, hwords]
      cases Line.readDistribution front <;> rfl

/-! ### Scores -/

theorem exists_of_readConsequent {line : List Char} {stop : Nat} {tokens : List Token}
    {target value : String} {x : Binary64}
    (h : Line.readConsequent line stop tokens = .ok (target, value, x)) :
    ∃ last, tokens.getLast? = some last ∧ Line.score? last.text = some x := by
  unfold Line.readConsequent at h
  split at h
  next last first others hlast _ =>
    split at h
    next => cases h
    next score hscore =>
      dsimp only at h
      split_ifs at h
      cases h
      exact ⟨last, hlast, hscore⟩
  next => cases h

/-- The last of the words of a line is its score, and that is a number. -/
theorem scoreOf_of_readWords {line : List Char} {words : List Token} {a : Antecedent}
    {target value : String} {x : Binary64}
    (h : Line.readWords line words = .ok (a, target, value, x)) : scoreOf words = .ok x := by
  unfold Line.readWords at h
  split at h
  next text start words =>
    split at h
    next => cases h
    next thenToken consequent hdrop =>
      dsimp only at h
      split_ifs at h
      obtain ⟨a', -, h⟩ := Except.bind_eq_ok_iff.mp h
      obtain ⟨prediction, hprediction, h⟩ := Except.bind_eq_ok_iff.mp h
      cases h
      obtain ⟨last, hlast, hscore⟩ := exists_of_readConsequent hprediction
      have hwords : words = words.takeWhile (·.kind ≠ .thenWord) ++ thenToken :: consequent := by
        rw [← hdrop, List.takeWhile_append_dropWhile]
      have hlast' : words.getLast? = some last := by
        rw [hwords, List.getLast?_append_cons, List.getLast?_cons, hlast]
        rfl
      rw [scoreOf, List.getLast?_cons, hlast']
      exact congrArg (found .noNumber) (Line.score?_eq_some_iff.mp hscore).2
  next => cases h

/-- **A line is read alike**, with the same errors. -/
theorem readLine_eq (line : NumberedLine) : readLine line = blame line (Line.read line.text) := by
  unfold readLine Line.read
  rw [splitLine_eq]
  cases Token.readBrackets line.text with
  | error e => rfl
  | ok counts =>
      rw [Except.ok_bind, Except.ok_bind]
      cases Line.readDistribution counts.tokens with
      | error e => rfl
      | ok distribution =>
          rw [Except.ok_bind, Except.ok_bind]
          dsimp only [blame, Except.mapError]
          rw [Except.ok_bind]
          cases hwords : Line.readWords line.text (Token.readWords counts.position counts.rest) with
          | error e => rfl
          | ok parsed =>
              obtain ⟨a, target, value, x⟩ := parsed
              dsimp only
              rw [Except.ok_bind, scoreOf_of_readWords hwords]
              rfl

/-! ### Lines with clauses -/

/-- A clause that a line says names a variable. -/
theorem name_ne_of_saidBy {group : List SpacedWord} {c : Clause} (h : c.SaidBy group) :
    c.name ≠ "" := by
  obtain ⟨before, -, -, hinked, hname, -⟩ := h.reading.cut
  rw [hname, Clause.normalize, ne_eq, String.ofList_eq_empty_iff, List.map_eq_nil_iff]
  exact strip_ne_nil_iff.mpr hinked

/-- A line that says clauses says one at least, and each names a variable. -/
theorem forall_name_ne_of_written {line : List Char} {content : Line} {clauses : List Clause}
    (h : Line.Written line content) (hclauses : content.antecedent = .clauses clauses) :
    clauses ≠ [] ∧ ∀ c ∈ clauses, c.name ≠ "" := by
  obtain ⟨-, -, -, hsaid⟩ := h
  obtain ⟨-, -, hantecedent, -⟩ := hsaid
  rw [hclauses] at hantecedent
  obtain ⟨-, hgroups⟩ := hantecedent
  constructor
  · rintro rfl
    exact List.splitOnP_ne_nil _ _ (List.forall₂_nil_right_iff.mp hgroups)
  · refine (forall_mem_iff_of_forall₂ (P := fun _ => True) hgroups fun _ c hc => ?_).mp
      fun _ _ => trivial
    exact iff_of_true trivial (name_ne_of_saidBy hc)

/-- The clauses of a line are fit for a conjunction. -/
theorem conjunctionOf_eq {o : Options} (hrename : o.rename = id) {clauses : List Clause}
    (hsome : clauses ≠ []) (hnames : ∀ c ∈ clauses, c.name ≠ "") :
    conjunctionOf o clauses = .ok (.conjunction (clauses.map (condition o))) := by
  have hbuild : ∀ c ∈ clauses, Condition.build (o.rename c.name) c.op.symbol (.ofText c.threshold) =
      .ok (condition o c) := by
    intro c hc
    have hname : o.rename c.name ≠ "" := by
      rw [hrename]
      exact hnames c hc
    rw [Condition.build, if_neg hname, Comparison.ofSymbol?_eq_some_iff.mpr rfl]
    rfl
  obtain ⟨c, clauses, rfl⟩ := List.exists_cons_of_ne_nil hsome
  rw [conjunctionOf, Except.mapM_eq_ok_map hbuild, Except.ok_bind]
  rfl

/-- A line with counts has a bracket, at which an error in the counts points. -/
theorem found_opening {line rest : List Char} {runs : List (List Char)}
    (h : Bracketed line runs rest) :
    found .noOpeningBracket (line.findIdx? fun c => c = '[') =
      .ok (line.takeWhile (· ≠ '[')).length := by
  cases h with
  | @intro left text rest runs hleft hcounts =>
      have hne : ∀ c ∈ left, c ≠ '[' := by
        rintro c hc rfl
        exact absurd (hleft _ hc) (by decide)
      have hhead : ∀ c ∈ ('[' :: (text ++ ']' :: rest)).head?, decide (c ≠ '[') = false := by
        rintro c hc
        obtain rfl := Option.some.inj hc
        rfl
      obtain ⟨htake, -⟩ := span_append (fun c hc => decide_eq_true (hne c hc)) hhead
      rw [htake, findIdx?_append_cons (fun c hc => decide_eq_false (hne c hc)) (decide_eq_true rfl)]
      rfl

theorem subtract_eq {uncovered : List Int} {covered : List Nat}
    (h : covered.length = uncovered.length) :
    subtract uncovered covered = .ok (remaining uncovered covered) :=
  if_pos h.symm

/-! ### The text -/

section Lines

variable {o : Options} {uncovered : List Int} {preceded : Bool} {line : NumberedLine}
  {lines : List NumberedLine} {content : Line}

theorem readRules_of_error {e : LineError} (h : Line.read line.text = .error e) :
    readRules o uncovered preceded (line :: lines) =
      (Listing.readRules o uncovered preceded (line :: lines)).mapError .refused := by
  unfold readRules Listing.readRules
  rw [readLine_eq, h]
  rfl

theorem readRules_of_always (h : Line.read line.text = .ok content)
    (halways : content.antecedent = .always) :
    readRules o uncovered preceded (line :: lines) =
      (Listing.readRules o uncovered preceded (line :: lines)).mapError .refused := by
  unfold readRules Listing.readRules
  rw [readLine_eq, h, Traced.mapError_bind]
  change (pure content >>= _) = (pure content >>= _)
  rw [pure_bind, pure_bind, halways]
  dsimp only
  split <;> rfl

/-- A rule line is read alike if the lines behind it are: what its antecedent is built of is fit,
and its counts have partners, or else there is a bracket to blame. -/
theorem readRules_of_clauses (hrename : o.rename = id) (h : Line.read line.text = .ok content)
    {clauses : List Clause} (hclauses : content.antecedent = .clauses clauses)
    (hrest : readRules o (remaining uncovered content.distribution) true lines =
      (Listing.readRules o (remaining uncovered content.distribution) true lines).mapError
        .refused) :
    readRules o uncovered preceded (line :: lines) =
      (Listing.readRules o uncovered preceded (line :: lines)).mapError .refused := by
  have hwritten := Line.written_of_read h
  obtain ⟨hsome, hnames⟩ := forall_name_ne_of_written hwritten hclauses
  have htail : (readRules o (remaining uncovered content.distribution) true lines >>= fun x =>
      pure (rule o uncovered content clauses :: x.1, x.2)) =
      (Listing.readRules o (remaining uncovered content.distribution) true lines >>= fun x =>
        pure (rule o uncovered content clauses :: x.1, x.2)).mapError Stop.refused := by
    rw [Traced.mapError_bind, hrest]
    rfl
  unfold readRules Listing.readRules
  rw [readLine_eq, h, Traced.mapError_bind]
  change (pure content >>= _) = (pure content >>= _)
  rw [pure_bind, pure_bind, hclauses]
  dsimp only
  by_cases hwidth : content.distribution.length = uncovered.length
  · rw [if_neg (not_not_intro hwidth), if_neg (not_not_intro hwidth),
      conjunctionOf_eq hrename hsome hnames, subtract_eq hwidth]
    change (pure _ >>= _) = _
    rw [pure_bind, Traced.mapError_bind, Traced.mapError_record]
    refine congrArg _ (funext fun _ => ?_)
    change (pure _ >>= _) = _
    rw [pure_bind]
    -- an overdraft ends the reading or is recorded; otherwise the rest is all there is
    split
    next =>
      split
      next => rfl
      next =>
        rw [Traced.mapError_bind]
        exact congrArg _ (funext fun _ => htail)
    next => exact htail
  · obtain ⟨hbracketed, -⟩ := hwritten
    rw [if_pos hwidth, if_pos hwidth, found_opening hbracketed]
    rfl

end Lines

/-- **The rules and the default are read alike.** -/
theorem readRules_eq {o : Options} (hrename : o.rename = id) (uncovered : List Int)
    (preceded : Bool) (lines : List NumberedLine) :
    readRules o uncovered preceded lines =
      (Listing.readRules o uncovered preceded lines).mapError .refused := by
  induction lines generalizing uncovered preceded with
  | nil => rfl
  | cons line lines ih =>
      cases hread : Line.read line.text with
      | error e => exact readRules_of_error hread
      | ok content =>
          cases hantecedent : content.antecedent with
          | always => exact readRules_of_always hread hantecedent
          | clauses clauses => exact readRules_of_clauses hrename hread hantecedent (ih _ _)

/-- The counts of the last line are its totals. -/
theorem map_fst_splitLine (line : NumberedLine) :
    (splitLine line).map (·.1) = blame line (Line.readTotals line.text) := by
  rw [splitLine_eq, Line.readTotals]
  cases Token.readBrackets line.text with
  | error e => rfl
  | ok counts =>
      rw [Except.ok_bind]
      dsimp only
      cases Line.readDistribution counts.tokens <;> rfl

/-- Rules that are read have constants for their consequents, and there is one of them if the
default is ignored. -/
theorem fit_of_readRules {o : Options} {totals : List Int} {lines : List NumberedLine}
    {rules : List Rule} {default : Model}
    (h : (Listing.readRules o totals false lines).outcome = .ok (rules, default)) :
    (o.ignoreDefault = true → rules ≠ []) ∧
      ∀ r ∈ rules, ∃ note v, r.consequent = .constant note v := by
  obtain ⟨rfl, closing, content, hclosing, hread, halways, -⟩ := readRules_eq_ok h
  constructor
  · -- without rule lines the default line is the first, which is an error if it is ignored
    intro hignore hnone
    have hfirst : (ruleLines lines).length = 0 := by
      rw [← List.length_mapIdx, ← rulesOf, hnone, List.length_nil]
    rw [hfirst] at hclosing
    obtain ⟨rest, rfl⟩ : ∃ rest, lines = closing :: rest := by
      cases lines with
      | nil => cases hclosing
      | cons line rest => exact ⟨rest, congrArg (· :: rest) (Option.some.inj hclosing)⟩
    rw [Listing.readRules_of_always hread halways, hignore] at h
    cases h
  · intro r hr
    obtain ⟨k, hk, rfl⟩ := List.mem_mapIdx.mp hr
    exact ⟨_, _, rfl⟩

/-- A list that is read has a last rule to fold if it is to be folded. -/
theorem fold_eq {o : Options} {rules : List Rule} {default : Model}
    (hsome : o.ignoreDefault = true → rules ≠ [])
    (hconstants : ∀ r ∈ rules, ∃ note v, r.consequent = .constant note v) :
    fold o (.decisionList .empty rules default) = pure (listOf o (rules, default)) := by
  unfold fold listOf assemble
  cases hignore : o.ignoreDefault with
  | false => rfl
  | true =>
      obtain ⟨last, hlast⟩ : ∃ last, rules.getLast? = some last :=
        ⟨_, List.getLast?_eq_some_getLast (hsome hignore)⟩
      obtain ⟨note, v, hconstant⟩ := hconstants last (List.mem_of_getLast? hlast)
      simp only [if_true, Model.foldLastRule, hlast, hconstant]
      rfl

/-- **The reader that takes its steps one by one and the reader agree**: they give the same list or
the same error, and tell the same on the way.  So no step is without an answer. -/
theorem read_eq {o : Options} (hrename : o.rename = id) (text : List Char) :
    read o text = (Listing.read o text).mapError .refused := by
  unfold read Listing.read
  dsimp only
  cases (numberedLines text).getLast? with
  | none => rfl
  | some last =>
      have htotals := map_fst_splitLine last
      dsimp only
      rw [Traced.mapError_bind]
      cases hread : Line.readTotals last.text with
      | error e =>
          rw [hread] at htotals
          rw [Except.map_eq_error_iff.mp htotals]
          rfl
      | ok totals =>
          rw [hread] at htotals
          obtain ⟨⟨counts, words⟩, hsplit, rfl⟩ := Except.map_eq_ok_iff.mp htotals
          rw [hsplit]
          change (pure _ >>= _) = (pure _ >>= _)
          rw [pure_bind, pure_bind, readRules_eq hrename, Traced.mapError_bind]
          refine Traced.bind_congr_of_outcome fun ⟨rules, default⟩ hrules => ?_
          obtain ⟨hsome, hconstants⟩ := fit_of_readRules (Except.mapError_eq_ok_iff.mp hrules)
          dsimp only
          rw [fold_eq hsome hconstants, pure_bind]
          rfl

/-- A request under the names of the text has options under them. -/
theorem exists_options {r : Request} {defaults : Except (List Settings.Fault) Settings}
    (hrename : r.rename = id)
    (hsettings : r.strict = none → ∃ settings, defaults = .ok settings) :
    ∃ o, r.options defaults = .ok o ∧ o.rename = id := by
  unfold Request.options
  cases hstrict : r.strict with
  | some strict => exact ⟨_, rfl, hrename⟩
  | none =>
      obtain ⟨settings, rfl⟩ := hsettings hstrict
      exact ⟨_, rfl, hrename⟩

theorem exists_decisionList_of_read {o : Options} {text : List Char} {m : Model}
    (h : (Listing.read o text).outcome = .ok m) :
    ∃ rules default, m = .decisionList .empty rules default := by
  obtain ⟨totals, htotals⟩ := exists_totals?_of_read h
  rw [read_of_totals?_eq_some htotals] at h
  obtain ⟨⟨rules, default⟩, -, rfl⟩ := Except.map_eq_ok_iff.mp h
  exact ⟨_, _, rfl⟩

/-- **Whatever goes wrong with a text is the text's own fault.**  Under its own names, and with
settings that can be read where they are asked, every text becomes a list, or the error blames the
text, or a line of it has a count that is longer than a number may be.  The steps of the reader all
have answers. -/
theorem answer_total (r : Request) (defaults : Except (List Settings.Fault) Settings)
    (text : List Char) (hrename : r.rename = id)
    (hsettings : r.strict = none → ∃ settings, defaults = .ok settings) :
    ∃ o, r.options defaults = .ok o ∧
      answer r defaults text = (Listing.read o text).mapError .refused ∧
      ((∃ rules default, (Listing.read o text).outcome = .ok (.decisionList .empty rules default)) ∨
        ∃ e, (Listing.read o text).outcome = .error e ∧
          (BlamesText e ∨ ∃ digits, e = .oversized digits ∧
            ∃ line ∈ inkedLines text, Line.Oversized line digits)) := by
  obtain ⟨o, ho, hname⟩ := exists_options hrename hsettings
  refine ⟨o, ho, ?_, ?_⟩
  · rw [answer, ho, ← read_eq hname]
    exact pure_bind o fun o => read o text
  · cases hread : (Listing.read o text).outcome with
    | ok m =>
        obtain ⟨rules, default, rfl⟩ := exists_decisionList_of_read hread
        exact .inl ⟨rules, default, rfl⟩
    | error e =>
        refine .inr ⟨e, rfl, ?_⟩
        cases e with
        | oversized digits => exact .inr ⟨digits, rfl, exists_of_read_oversized hread⟩
        | malformed | noDefault | overdrawn | defaultAlone => exact .inl trivial

theorem answer_total_coveredText :
    ∃ rules default, (answer ⟨true, none, id⟩ (.ok .default) coveredText).outcome =
      .ok (.decisionList .empty rules default) := by
  obtain ⟨o, ho, hanswer, hlist | ⟨e, he, -⟩⟩ :=
    answer_total ⟨true, none, id⟩ (.ok .default) coveredText rfl fun _ => ⟨.default, rfl⟩
  · obtain ⟨rules, default, hlist⟩ := hlist
    refine ⟨rules, default, ?_⟩
    rw [hanswer]
    exact Except.mapError_eq_ok_iff.mpr hlist
  · obtain rfl := Except.ok.inj ho
    have hread : (Listing.read ⟨true, Settings.default.strictCoverage, id⟩
        coveredText).outcome.isOk = true := by decide +kernel
    rw [he] at hread
    cases hread

/-- Where the strictness is left to settings that cannot be read, no text is read at all. -/
theorem not_answer_total_of_unsettled :
    ¬ ∀ (r : Request) (defaults : Except (List Settings.Fault) Settings) (text : List Char),
      r.rename = id →
      (∃ rules default, (answer r defaults text).outcome =
        .ok (.decisionList .empty rules default)) ∨
      ∃ e, (answer r defaults text).outcome = .error (.refused e) := by
  intro h
  have hstop : (answer ⟨false, none, id⟩ (.error [⟨.strictCoverage, .noTruthValue⟩])
      "[1] IF TRUE THEN y=A -0.0".toList).outcome =
        .error (.unsettled [⟨.strictCoverage, .noTruthValue⟩]) := rfl
  rcases h ⟨false, none, id⟩ (.error [⟨.strictCoverage, .noTruthValue⟩])
    "[1] IF TRUE THEN y=A -0.0".toList rfl with ⟨rules, default, hlist⟩ | ⟨e, he⟩
  · rw [hstop] at hlist
    cases hlist
  · rw [hstop] at he
    cases he

end Stepwise

end Listing

end Rulebook
