import Rulebook.Proofs.LineClauses
import Rulebook.Proofs.LineScore

/-!
# Listings — a line is read as it is written

The reader of lines answers for the lines that the grammar describes, and for no others, and its
answer is what the grammar says they mean (`Line.read_eq_ok_iff_written`).  The lemmas follow the
line from its end: the prediction with the score, the words, the whole.
-/

namespace Rulebook

namespace Line

variable {line : List Char}

/-! ### Consequents -/

/-- What stands on the two sides of the first equality sign. -/
theorem prediction_iff {text : List Char} {target value : String} :
    Prediction text target value ↔
      Text.strip (text.takeWhile (· ≠ '=')) ≠ [] ∧
      Text.strip ((text.dropWhile (· ≠ '=')).drop 1) ≠ [] ∧
      String.ofList (Text.strip (text.takeWhile (· ≠ '='))) = target ∧
      String.ofList (Text.strip ((text.dropWhile (· ≠ '=')).drop 1)) = value := by
  constructor
  · rintro ⟨hfirst, htarget, hvalue⟩
    rename_i left right
    have hleft : ∀ c ∈ left, decide (c ≠ '=') := by
      intro c hc
      rw [decide_eq_true_eq]
      rintro rfl
      exact hfirst hc
    have hhead : ∀ c ∈ ('=' :: right).head?, decide (c ≠ '=') = false := by
      intro c hc
      obtain rfl := Option.some.inj hc
      rfl
    obtain ⟨htake, hdrop⟩ := span_append hleft hhead
    rw [htake, hdrop]
    exact ⟨strip_ne_nil_iff.mpr htarget, strip_ne_nil_iff.mpr hvalue, rfl, rfl⟩
  · rintro ⟨htarget, hvalue, rfl, rfl⟩
    cases hdrop : text.dropWhile (· ≠ '=') with
    | nil =>
        rw [hdrop] at hvalue
        exact absurd rfl hvalue
    | cons c right =>
        have hc : c = '=' := by
          have hmem : c ∈ (text.dropWhile (· ≠ '=')).head? := by rw [hdrop]; rfl
          simpa using eq_false_of_mem_head?_dropWhile hmem
        subst hc
        rw [hdrop] at hvalue
        have hfirst : '=' ∉ text.takeWhile (· ≠ '=') := fun hmem => by
          simpa using List.mem_takeWhile_imp hmem
        have hprediction := Prediction.intro hfirst (strip_ne_nil_iff.mp htarget)
          (strip_ne_nil_iff.mp hvalue)
        rw [List.drop_one, List.tail_cons, ← hdrop, List.takeWhile_append_dropWhile]
          at hprediction
        exact hprediction

/-- The words behind `THEN` are read as the grammar says. -/
theorem readConsequent_eq_ok_iff {position : Nat} {prediction : List SpacedWord}
    {score : SpacedWord} (h : SpacedWord.StandAt line position (prediction ++ [score]))
    (stop : Nat) {target value : String} {x : Binary64} :
    readConsequent line stop (Token.ofWords position (prediction ++ [score])) =
        .ok (target, value, x) ↔
      prediction ≠ [] ∧ Prediction (SpacedWord.source prediction) target value ∧
        ScoreText score.word ∧ Binary64.ofText? (String.ofList score.word) = some x := by
  have hsource := between_ofWords (SpacedWord.standAt_append h).1
  rw [Token.ofWords_append, readConsequent, Token.ofWords, Token.ofWords, List.getLast?_concat,
    List.dropLast_concat, ← score?_eq_some_iff, prediction_iff]
  cases htokens : Token.ofWords position prediction with
  | nil =>
      constructor
      · intro hread
        cases hread
      · rintro ⟨hne, -⟩
        exact absurd (Token.ofWords_eq_nil_iff.mp htokens) hne
  | cons first others =>
      have hne : prediction ≠ [] := by
        rintro rfl
        cases htokens
      rw [htokens] at hsource
      -- the text between the tokens is the prediction, and the last token is the score
      dsimp only [Token.ofWord]
      rw [hsource, and_iff_right hne]
      cases score? score.word with
      | none =>
          constructor
          · intro hread
            cases hread
          · rintro ⟨-, hscore⟩
            cases hscore
      | some y =>
          dsimp only
          split_ifs with hsides
          · constructor
            · intro hread
              cases hread
            · rintro ⟨⟨htarget, hvalue, -⟩, -⟩
              exact absurd hsides (not_or.mpr ⟨htarget, hvalue⟩)
          · rw [not_or] at hsides
            rw [Except.ok.injEq, Prod.mk.injEq, Prod.mk.injEq, Option.some.injEq,
              and_iff_right hsides.1, and_iff_right hsides.2, and_assoc]

/-! ### Words -/

theorem kind_ne_thenWord {ws : List SpacedWord} (h : ∀ w ∈ ws, ¬ w.is "THEN") (position : Nat) :
    ∀ t ∈ Token.ofWords position ws, t.kind ≠ .thenWord := by
  intro t ht
  obtain ⟨w, hw, start, rfl⟩ := Token.exists_of_mem_ofWords ht
  exact mt (Token.kind_ofWord w start).2.1.mp (h w hw)

/-- How tokens are read when `IF` and `THEN` are found. -/
theorem readWords_cons {opening closing : Token} {tokens rest : List Token}
    (hopening : opening.kind = .ifWord) (hclosing : closing.kind = .thenWord)
    (hfirst : ∀ t ∈ tokens, t.kind ≠ .thenWord) :
    readWords line (opening :: (tokens ++ closing :: rest)) =
      if tokens = [] then .error (.malformed .noAntecedent closing.column)
      else do
        let a ← readAntecedent line tokens
        let c ← readConsequent line closing.stop rest
        return (a, c) := by
  obtain ⟨kind, text, start⟩ := opening
  cases hopening
  have hbefore : ∀ t ∈ tokens, decide (t.kind ≠ .thenWord) := by
    intro t ht
    exact decide_eq_true (hfirst t ht)
  have hthen : ∀ t ∈ (closing :: rest).head?, decide (t.kind ≠ .thenWord) = false := by
    intro t ht
    obtain rfl := Option.some.inj ht
    exact decide_eq_false (not_not.mpr hclosing)
  obtain ⟨htake, hdrop⟩ := span_append hbefore hthen
  rw [readWords, hdrop, htake]

/-- The same for the words of a line. -/
theorem readWords_ofWords {opening closing : SpacedWord} {antecedent rest : List SpacedWord}
    (hopening : opening.is "IF") (hclosing : closing.is "THEN")
    (hfirst : ∀ w ∈ antecedent, ¬ w.is "THEN") (position : Nat) :
    readWords line (Token.ofWords position (opening :: (antecedent ++ closing :: rest))) =
      let p := position + (opening.gap ++ opening.word).length
      let q := p + (SpacedWord.text antecedent).length
      let t := Token.ofWord closing.word (q + closing.gap.length)
      if antecedent = [] then .error (.malformed .noAntecedent t.column)
      else do
        let a ← readAntecedent line (Token.ofWords p antecedent)
        let c ← readConsequent line t.stop
          (Token.ofWords (q + (closing.gap ++ closing.word).length) rest)
        return (a, c) := by
  rw [Token.ofWords, Token.ofWords_append, Token.ofWords,
    readWords_cons ((Token.kind_ofWord opening _).1.mpr hopening)
      ((Token.kind_ofWord closing _).2.1.mpr hclosing) (kind_ne_thenWord hfirst _)]
  simp only [Token.ofWords_eq_nil_iff]

/-- Words that do not begin with `IF` are an error at the first of them. -/
theorem readWords_of_not_if {opening : SpacedWord} (hopening : ¬ opening.is "IF") (position : Nat)
    (ws : List SpacedWord) :
    readWords line (Token.ofWords position (opening :: ws)) =
      .error (.malformed .noIf
        (Token.ofWord opening.word (position + opening.gap.length)).column) := by
  have hkind := mt (Token.kind_ofWord opening (position + opening.gap.length)).1.mp hopening
  rw [Token.ofWords, readWords]
  · rfl
  · rintro text start rest heq
    exact hkind (congrArg Token.kind (List.cons.inj heq).1)

/-- Words without `THEN` are an error behind the line. -/
theorem readWords_of_not_then {opening : SpacedWord} {ws : List SpacedWord}
    (hopening : opening.is "IF") (hnone : ∀ w ∈ ws, ¬ w.is "THEN") (position : Nat) :
    readWords line (Token.ofWords position (opening :: ws)) =
      .error (.malformed .noThen (line.length + 1)) := by
  have hif : (Token.keyword? opening.word).getD .word = .ifWord :=
    (Token.kind_ofWord opening 0).1.mpr hopening
  -- all words stand before the first `THEN`, and nothing is left
  have hdrop : ∀ p, (Token.ofWords p ws).dropWhile (·.kind ≠ .thenWord) = [] := fun p =>
    List.dropWhile_eq_nil_iff.mpr fun t ht => decide_eq_true (kind_ne_thenWord hnone p t ht)
  rw [Token.ofWords, Token.ofWord, hif, readWords, hdrop]

/-- Some words have no `THEN` among them, or a first one. -/
theorem forall_or_exists_then (ws : List SpacedWord) :
    (∀ w ∈ ws, ¬ w.is "THEN") ∨ ∃ antecedent closing rest, ws = antecedent ++ closing :: rest ∧
      closing.is "THEN" ∧ ∀ w ∈ antecedent, ¬ w.is "THEN" := by
  cases hfind : ws.find? (SpacedWord.is "THEN") with
  | none => exact .inl (List.find?_eq_none.mp hfind)
  | some closing =>
      obtain ⟨hclosing, antecedent, rest, hws, hfirst⟩ := List.find?_eq_some_iff_append.mp hfind
      exact .inr ⟨antecedent, closing, rest, hws, hclosing, by simpa using hfirst⟩

/-- Words that are read at all begin with `IF`, and have an antecedent before the first `THEN`. -/
theorem exists_of_readWords {position : Nat} {ws : List SpacedWord}
    {parsed : Antecedent × String × String × Binary64}
    (h : readWords line (Token.ofWords position ws) = .ok parsed) :
    ∃ (opening closing : SpacedWord) (antecedent rest : List SpacedWord),
      ws = opening :: (antecedent ++ closing :: rest) ∧ opening.is "IF" ∧ closing.is "THEN" ∧
      (∀ w ∈ antecedent, ¬ w.is "THEN") ∧ antecedent ≠ [] := by
  cases ws with
  | nil => cases h
  | cons opening ws =>
      have hopening : opening.is "IF" := by
        by_contra hnot
        rw [readWords_of_not_if hnot] at h
        cases h
      rcases forall_or_exists_then ws with
        hnone | ⟨antecedent, closing, rest, rfl, hclosing, hfirst⟩
      · rw [readWords_of_not_then hopening hnone] at h
        cases h
      · refine ⟨opening, closing, antecedent, rest, rfl, hopening, hclosing, hfirst, ?_⟩
        -- an antecedent without words is an error of its own
        rintro rfl
        rw [readWords_ofWords hopening hclosing hfirst] at h
        cases h

/-- **The words of a line are read as the grammar says.** -/
theorem readWords_eq_ok_iff {position : Nat} {ws : List SpacedWord}
    (h : SpacedWord.StandAt line position ws) (l : Line) :
    readWords line (Token.ofWords position ws) = .ok (l.antecedent, l.target, l.value, l.score) ↔
      SaidBy ws l := by
  constructor
  · intro hread
    obtain ⟨opening, closing, antecedent, rest, rfl, hopening, hclosing, hfirst, hsome⟩ :=
      exists_of_readWords hread
    obtain ⟨hante, hclose⟩ := SpacedWord.standAt_append (SpacedWord.standAt_of_cons h)
    have hrest := SpacedWord.standAt_of_cons hclose
    rw [readWords_ofWords hopening hclosing hfirst] at hread
    dsimp only at hread
    rw [if_neg hsome] at hread
    obtain ⟨a, ha, hread⟩ := Except.bind_eq_ok_iff.mp hread
    obtain ⟨⟨target, value, x⟩, hc, heq⟩ := Except.bind_eq_ok_iff.mp hread
    cases heq
    rcases List.eq_nil_or_concat rest with rfl | ⟨prediction, score, rfl⟩
    · cases hc
    · rw [List.concat_eq_append] at hc hrest ⊢
      obtain ⟨hnonempty, hprediction, hscore, hvalue⟩ := (readConsequent_eq_ok_iff hrest _).mp hc
      exact .intro hopening hsome ((readAntecedent_eq_ok_iff hante _).mp ha) hfirst hclosing
        hnonempty hprediction hscore hvalue
  · rintro ⟨hopening, hsome, hantecedent, hfirst, hclosing, hnonempty, hprediction, hscore, hvalue⟩
    obtain ⟨hante, hclose⟩ := SpacedWord.standAt_append (SpacedWord.standAt_of_cons h)
    have hrest := SpacedWord.standAt_of_cons hclose
    have hconsequent := fun stop => (readConsequent_eq_ok_iff hrest stop).mpr
      ⟨hnonempty, hprediction, hscore, hvalue⟩
    rw [readWords_ofWords hopening hclosing hfirst]
    dsimp only
    rw [if_neg hsome, (readAntecedent_eq_ok_iff hante _).mpr hantecedent, Except.ok_bind,
      hconsequent]
    rfl

/-! ### The line -/

theorem readDistribution_eq_mapM (tokens : List Token) :
    readDistribution tokens = (Token.countTexts tokens).mapM readCount := by
  rw [readDistribution, Token.countTexts, List.mapM_map]
  rfl

/-- Short counts are read as the numbers they write. -/
theorem readDistribution_eq {tokens : List Token}
    (hshort : ∀ run ∈ Token.countTexts tokens, run.length ≤ 4300) :
    readDistribution tokens = .ok ((Token.countTexts tokens).map fun run =>
      Text.ofDigits (run.filterMap Text.digit?)) := by
  rw [readDistribution_eq_mapM]
  refine Except.mapM_eq_ok_map fun run hrun => ?_
  exact if_neg (not_lt.mpr (hshort run hrun))

/-- Counts that are read are short. -/
theorem short_of_readDistribution {tokens : List Token} {distribution : List Nat}
    (h : readDistribution tokens = .ok distribution) :
    ∀ run ∈ Token.countTexts tokens, run.length ≤ 4300 := by
  rw [readDistribution_eq_mapM] at h
  intro run hrun
  obtain ⟨n, -, hn⟩ := Except.exists_of_mapM_eq_ok h run hrun
  unfold readCount at hn
  split_ifs at hn with hlong
  exact not_lt.mp hlong

/-- No count is longer than its line. -/
theorem shortCounts_of_length_le (h : line.length ≤ 4300) : ShortCounts line := by
  intro runs rest hbracketed run hrun
  have hlength : ∀ {text : List Char} {runs : List (List Char)}, CountsText text runs →
      ∀ run ∈ runs, run.length ≤ text.length := by
    intro text runs hcounts
    induction hcounts with
    | last _ _ _ =>
        intro run hrun
        rw [List.mem_singleton.mp hrun, List.length_append, List.length_append]
        omega
    | more _ _ _ _ ih =>
        intro run hrun
        simp only [List.length_append, List.length_cons]
        rcases List.mem_cons.mp hrun with rfl | hrun
        · omega
        · have := ih run hrun
          omega
  cases hbracketed with
  | intro hleft hcounts =>
      have hrun := hlength hcounts run hrun
      simp only [List.length_append, List.length_cons] at h
      omega

/-- **A line is read exactly when it is written as the grammar says, and then as what it says.** -/
theorem read_eq_ok_iff_written (hshort : ShortCounts line) (l : Line) :
    read line = .ok l ↔ Written line l := by
  constructor
  · intro h
    obtain ⟨counts, hcounts, h⟩ := Except.bind_eq_ok_iff.mp h
    obtain ⟨distribution, hdistribution, h⟩ := Except.bind_eq_ok_iff.mp h
    obtain ⟨⟨a, target, value, x⟩, hwords, h⟩ := Except.bind_eq_ok_iff.mp h
    cases h
    obtain ⟨hbracketed, hdrop⟩ := Token.bracketed_of_readBrackets hcounts
    obtain ⟨ws, hws⟩ := Token.exists_worded 0 counts.rest
    rw [readDistribution_eq (hshort _ _ hbracketed)] at hdistribution
    rw [Token.readWords_of_worded hws] at hwords
    exact .intro hbracketed (Except.ok.inj hdistribution).symm hws
      ((readWords_eq_ok_iff (hws.standAt hdrop) ⟨distribution, a, target, value, x⟩).mp hwords)
  · rintro ⟨hbracketed, hdistribution, hws, hsaid⟩
    obtain ⟨counts, hcounts, rfl, rfl⟩ := Token.readBrackets_of_bracketed hbracketed
    obtain ⟨-, hdrop⟩ := Token.bracketed_of_readBrackets hcounts
    rw [read, hcounts, Except.ok_bind, readDistribution_eq (hshort _ _ hbracketed), Except.ok_bind,
      Token.readWords_of_worded hws, (readWords_eq_ok_iff (hws.standAt hdrop) l).mpr hsaid,
      Except.ok_bind, ← hdistribution]
    rfl

/-- A line of two classes and two clauses. -/
def setosaLine : List Char :=
  "[3, 0] IF petal length<=3.0 AND width>=2.9 THEN class=setosa -0.0".toList

theorem written_setosaLine :
    Written setosaLine
      ⟨[3, 0], .clauses [⟨"petal_length", .le, "3.0"⟩, ⟨"width", .ge, "2.9"⟩], "class", "setosa",
        .finite true 0 (-1074)⟩ :=
  (read_eq_ok_iff_written (shortCounts_of_length_le (by decide)) _).mp (by decide +kernel)

end Line

end Rulebook
