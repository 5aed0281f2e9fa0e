import Rulebook.Proofs.LineTokens
import Rulebook.Proofs.Outcome

/-!
# Listings — clauses

The cut of a clause is the one at its leftmost operator, the longest that begins there
(`Clause.cut?_eq_some_iff`), so a clause is read as the grammar says (`Clause.read_eq_ok_iff`).  The
words of an antecedent are read as the grammar says when they stand in the line
(`Line.readAntecedent_eq_ok_iff`); the clauses are the groups between the words `AND`.
-/

namespace Rulebook

/-! ### Blanks -/

theorem inked_iff_not_blank {cs : List Char} : Inked cs ↔ ¬ Blank cs := by
  rw [Inked, Blank, not_forall]
  exact exists_congr fun c => Classical.not_imp.symm

theorem strip_eq_nil_iff {cs : List Char} : Text.strip cs = [] ↔ Blank cs := by
  rw [Text.strip, Text.stripWith, List.reverse_eq_nil_iff, List.dropWhile_eq_nil_iff]
  constructor
  · intro h c hc
    rw [← List.takeWhile_append_dropWhile (p := Text.isBlank) (l := cs)] at hc
    rcases List.mem_append.mp hc with hc | hc
    · exact List.mem_takeWhile_imp hc
    · exact h c (List.mem_reverse.mpr hc)
  · intro h c hc
    exact h c ((List.dropWhile_suffix _).subset (List.mem_reverse.mp hc))

theorem strip_ne_nil_iff {cs : List Char} : Text.strip cs ≠ [] ↔ Inked cs := by
  rw [inked_iff_not_blank, ne_eq, strip_eq_nil_iff]

/-! ### Operators -/

namespace Comparison

theorem length_symbol_le (op : Comparison) : op.symbol.length ≤ 2 := by
  cases op <;> decide

theorem symbol_ne_nil (op : Comparison) : op.symbol.toList ≠ [] := by
  cases op <;> decide

@[simp]
theorem beginsAt_zero {op : Comparison} {text : List Char} :
    op.BeginsAt text 0 ↔ op.symbol.toList <+: text := Iff.rfl

@[simp]
theorem beginsAt_succ {op : Comparison} {c : Char} {text : List Char} {place : Nat} :
    op.BeginsAt (c :: text) (place + 1) ↔ op.BeginsAt text place := Iff.rfl

end Comparison

namespace Clause

/-- A single character is an operator where no equality sign follows. -/
theorem operator?_lt_gt {after : List Char} (h : ∀ rest, after ≠ '=' :: rest) :
    operator? ('<' :: after) = some (.lt, after) ∧
      operator? ('>' :: after) = some (.gt, after) := by
  constructor <;> (rw [operator?]; exact h)

/-- The operator at the start of a text is the longest that begins there. -/
theorem operator?_eq_some_iff {text after : List Char} {op : Comparison} :
    operator? text = some (op, after) ↔ text = op.symbol.toList ++ after ∧
      ∀ op' : Comparison, op'.BeginsAt text 0 → op'.symbol.length ≤ op.symbol.length := by
  constructor
  · intro h
    unfold operator? at h
    split at h <;> cases h
    case h_1 | h_2 | h_3 | h_4 => exact ⟨rfl, fun op' _ => op'.length_symbol_le⟩
    case h_5 hnext | h_6 hnext =>
      refine ⟨rfl, fun op' hop => ?_⟩
      obtain ⟨rest, hrest⟩ := hop
      cases op' <;> simp [Comparison.symbol] at hrest ⊢
      exact absurd hrest.symm (hnext rest)
  · rintro ⟨rfl, hlongest⟩
    cases op with
    | le | ge | eq | ne => rfl
    | lt =>
        have hnext : ∀ rest, after ≠ '=' :: rest := fun rest hafter =>
          absurd (hlongest .le ⟨rest, by rw [hafter]; rfl⟩) (by decide)
        exact (operator?_lt_gt hnext).1
    | gt =>
        have hnext : ∀ rest, after ≠ '=' :: rest := fun rest hafter =>
          absurd (hlongest .ge ⟨rest, by rw [hafter]; rfl⟩) (by decide)
        exact (operator?_lt_gt hnext).2

/-- Some operator is found where one begins. -/
theorem exists_operator?_eq (op : Comparison) (after : List Char) :
    ∃ cut, operator? (op.symbol.toList ++ after) = some cut := by
  by_cases h : ∃ rest, after = '=' :: rest
  · obtain ⟨rest, rfl⟩ := h
    cases op <;> exact ⟨_, rfl⟩
  · rw [not_exists] at h
    cases op with
    | le | ge | eq | ne => exact ⟨_, rfl⟩
    | lt => exact ⟨_, (operator?_lt_gt h).1⟩
    | gt => exact ⟨_, (operator?_lt_gt h).2⟩

theorem operator?_eq_none_iff {text : List Char} :
    operator? text = none ↔ ∀ op : Comparison, ¬ op.BeginsAt text 0 := by
  constructor
  · rintro h op ⟨after, hafter⟩
    change op.symbol.toList ++ after = text at hafter
    obtain ⟨cut, hcut⟩ := exists_operator?_eq op after
    rw [hafter, h] at hcut
    cases hcut
  · intro h
    cases hop : operator? text with
    | none => rfl
    | some cut =>
        obtain ⟨op, after⟩ := cut
        exact absurd ⟨after, (operator?_eq_some_iff.mp hop).1.symm⟩ (h op)

/-- **A clause is cut at its leftmost operator, the longest that begins there.** -/
theorem cut?_eq_some_iff {text before after : List Char} {op : Comparison} :
    cut? text = some (before, op, after) ↔ text = before ++ (op.symbol.toList ++ after) ∧
      (∀ place < before.length, ∀ op' : Comparison, ¬ op'.BeginsAt text place) ∧
      ∀ op' : Comparison, op'.BeginsAt text before.length →
        op'.symbol.length ≤ op.symbol.length := by
  induction text generalizing before with
  | nil =>
      constructor
      · exact nofun
      · rintro ⟨htext, -⟩
        have hnil := (List.append_eq_nil_iff.mp htext.symm).2
        exact absurd (List.append_eq_nil_iff.mp hnil).1 op.symbol_ne_nil
  | cons c text ih =>
      rw [cut?]
      cases hop : operator? (c :: text) with
      | some cut =>
          -- an operator begins here, so nothing stands before the leftmost one
          obtain ⟨op', after'⟩ := cut
          obtain ⟨htext', hlongest'⟩ := operator?_eq_some_iff.mp hop
          cases before with
          | nil =>
              constructor
              · intro h
                cases h
                exact ⟨htext', nofun, hlongest'⟩
              · rintro ⟨htext, -, hlongest⟩
                have hop' := operator?_eq_some_iff.mpr ⟨htext, hlongest⟩
                rw [hop] at hop'
                cases hop'
                rfl
          | cons b before =>
              constructor
              · intro h
                cases h
              · rintro ⟨-, hleft, -⟩
                exact absurd ⟨after', htext'.symm⟩ (hleft 0 (Nat.zero_lt_succ _) op')
      | none =>
          -- no operator begins here, and the places of the others move by one
          have hnone := operator?_eq_none_iff.mp hop
          dsimp only
          rw [Option.map_eq_some_iff]
          constructor
          · rintro ⟨⟨before', op', after'⟩, hcut, heq⟩
            cases heq
            obtain ⟨htext, hleft, hlongest⟩ := ih.mp hcut
            refine ⟨congrArg (c :: ·) htext, fun place hplace op' => ?_, hlongest⟩
            cases place with
            | zero => exact hnone op'
            | succ place => exact hleft place (Nat.lt_of_succ_lt_succ hplace) op'
          · rintro ⟨htext, hleft, hlongest⟩
            cases before with
            | nil => exact absurd ⟨after, htext.symm⟩ (hnone op)
            | cons b before =>
                obtain ⟨rfl, htext'⟩ := List.cons.inj htext
                refine ⟨(before, op, after), ih.mpr ⟨htext', fun place hplace => ?_, hlongest⟩, rfl⟩
                exact hleft (place + 1) (Nat.succ_lt_succ hplace)

/-- **A clause is read as the grammar says.** -/
theorem read_eq_ok_iff {text : List Char} {column : Nat} {c : Clause} :
    read text column = .ok c ↔ Reading text c := by
  constructor
  · intro h
    rw [read] at h
    split at h
    next => cases h
    next before op after hcut =>
      dsimp only at h
      split_ifs at h with hname hthreshold
      cases h
      obtain ⟨htext, hleft, hlongest⟩ := cut?_eq_some_iff.mp hcut
      exact ⟨before, after, htext, strip_ne_nil_iff.mp hname, rfl,
        strip_ne_nil_iff.mp hthreshold, rfl, hleft, hlongest⟩
  · rintro ⟨before, after, htext, hbefore, hname, hafter, hthreshold, hleft, hlongest⟩
    obtain ⟨name, op, threshold⟩ := c
    rw [read, cut?_eq_some_iff.mpr ⟨htext, hleft, hlongest⟩]
    dsimp only at hname hthreshold ⊢
    rw [if_neg (strip_ne_nil_iff.mpr hbefore), if_neg (strip_ne_nil_iff.mpr hafter), hname,
      hthreshold]

end Clause

/-! ### Antecedents -/

namespace Token

/-- The kind of a token tells which keyword its word is. -/
theorem kind_ofWord (w : SpacedWord) (start : Nat) :
    ((ofWord w.word start).kind = .ifWord ↔ w.is "IF") ∧
      ((ofWord w.word start).kind = .thenWord ↔ w.is "THEN") ∧
      ((ofWord w.word start).kind = .andWord ↔ w.is "AND") ∧
      ((ofWord w.word start).kind = .trueWord ↔ w.is "TRUE") := by
  have hif : "IF".toList = ['I', 'F'] := rfl
  have hthen : "THEN".toList = ['T', 'H', 'E', 'N'] := rfl
  have hand : "AND".toList = ['A', 'N', 'D'] := rfl
  have htrue : "TRUE".toList = ['T', 'R', 'U', 'E'] := rfl
  simp only [SpacedWord.is, beq_iff_eq, hif, hthen, hand, htrue, ofWord, keyword?]
  split_ifs with h₁ h₂ h₃ h₄ <;> simp [*]

end Token

namespace Line

variable {line : List Char} {current tokens : List Token} {t : Token} {stop : Nat}

theorem splitClauses_and (ht : t.kind = .andWord) (hne : current ≠ []) :
    splitClauses current stop (t :: tokens) =
      (splitClauses [] t.stop tokens).map (current :: ·) := by
  rw [splitClauses, ht]
  dsimp only
  rw [if_neg hne]
  cases splitClauses [] t.stop tokens <;> rfl

theorem modifyHead_nil_append (groups : List (List SpacedWord)) :
    groups.modifyHead (([] : List SpacedWord) ++ ·) = groups := by
  cases groups <;> rfl

theorem splitClauses_and_nil (ht : t.kind = .andWord) :
    splitClauses [] stop (t :: tokens) = .error (.malformed .noClauseBeforeAnd t.column) := by
  rw [splitClauses, ht]
  rfl

theorem splitClauses_true (ht : t.kind = .trueWord) :
    splitClauses current stop (t :: tokens) = .error (.malformed .conjoinedTrue t.column) := by
  rw [splitClauses, ht]

theorem splitClauses_word (hand : t.kind ≠ .andWord) (htrue : t.kind ≠ .trueWord) :
    splitClauses current stop (t :: tokens) = splitClauses (current ++ [t]) t.stop tokens := by
  rw [splitClauses]
  split
  next h => exact absurd h hand
  next h => exact absurd h htrue
  next => rfl

theorem readClause_eq_ok_iff {position : Nat} {group : List SpacedWord} {c : Clause}
    (h : SpacedWord.StandAt line position group) (hne : group ≠ []) :
    readClause line (Token.ofWords position group) = .ok c ↔ c.SaidBy group := by
  rw [readClause, between_ofWords h, Clause.read_eq_ok_iff]
  exact ⟨fun hreading => ⟨hne, hreading⟩, fun hsaid => hsaid.reading⟩

/-- At the end of the words, those that are there are the last clause. -/
theorem readClauses_nil {position : Nat} {current : List SpacedWord}
    (h : SpacedWord.StandAt line position current) (cs : List Clause) :
    (splitClauses (Token.ofWords position current) stop [] >>=
      fun groups => groups.mapM (readClause line)) = .ok cs ↔
    List.Forall₂ Clause.SaidBy [current] cs := by
  rw [splitClauses]
  by_cases hne : current = []
  · rw [if_pos (Token.ofWords_eq_nil_iff.mpr hne)]
    constructor
    · exact nofun
    · intro hsaid
      cases hsaid with
      | cons hsaid _ => exact absurd hne hsaid.nonempty
  · rw [if_neg (mt Token.ofWords_eq_nil_iff.mp hne), Except.ok_bind, Except.mapM_eq_ok_iff]
    simp only [List.forall₂_cons_left_iff, List.forall₂_nil_left_iff, readClause_eq_ok_iff h hne]

/-- At a word `AND`, those that are there are a clause, and the words behind it are the others. -/
theorem readClauses_and {position : Nat} {current : List SpacedWord}
    (ht : t.kind = .andWord) (h : SpacedWord.StandAt line position current) (cs : List Clause) :
    (splitClauses (Token.ofWords position current) stop (t :: tokens) >>=
      fun groups => groups.mapM (readClause line)) = .ok cs ↔
    ∃ c cs', cs = c :: cs' ∧ c.SaidBy current ∧
      (splitClauses [] t.stop tokens >>= fun groups => groups.mapM (readClause line)) =
        .ok cs' := by
  by_cases hne : current = []
  · rw [Token.ofWords_eq_nil_iff.mpr hne, splitClauses_and_nil ht]
    constructor
    · exact nofun
    · rintro ⟨c, -, -, hsaid, -⟩
      exact absurd hne hsaid.nonempty
  · rw [splitClauses_and ht (mt Token.ofWords_eq_nil_iff.mp hne), Except.map_bind,
      Except.bind_mapM_cons_eq_ok_iff]
    simp only [readClause_eq_ok_iff h hne]

/-- The clauses are the groups between the words `AND`, behind the words that are already there. -/
theorem readClauses_eq_ok_iff (position stop : Nat) (current ws : List SpacedWord)
    (h : SpacedWord.StandAt line position (current ++ ws)) (cs : List Clause) :
    (splitClauses (Token.ofWords position current) stop
        (Token.ofWords (position + (SpacedWord.text current).length) ws) >>=
      fun groups => groups.mapM (readClause line)) = .ok cs ↔
    (∀ w ∈ ws, ¬ w.is "TRUE") ∧ List.Forall₂ Clause.SaidBy
        ((ws.splitOnP (SpacedWord.is "AND")).modifyHead (current ++ ·)) cs := by
  induction ws generalizing position stop current cs with
  | nil =>
      rw [List.append_nil] at h
      rw [List.splitOnP_nil, List.modifyHead_cons, List.append_nil, Token.ofWords,
        readClauses_nil h]
      exact (and_iff_right fun _ hw => absurd hw List.not_mem_nil).symm
  | cons w ws ih =>
      obtain ⟨-, -, hand, htrue⟩ :=
        Token.kind_ofWord w (position + (SpacedWord.text current).length + w.gap.length)
      have hbehind : position + (SpacedWord.text (current ++ [w])).length =
          position + (SpacedWord.text current).length + (w.gap ++ w.word).length := by
        rw [SpacedWord.length_text_concat, Nat.add_assoc]
      rw [List.append_cons] at h
      rw [Token.ofWords, List.splitOnP_cons_eq_if_modifyHead]
      by_cases hwand : w.is "AND"
      · -- a group ends, and the words behind `AND` begin the next one
        have hwtrue : ¬ w.is "TRUE" := by
          rw [SpacedWord.is, eq_of_beq hwand]
          decide
        obtain ⟨hcurrent, -⟩ := SpacedWord.standAt_append (SpacedWord.standAt_append h).1
        have hws := (SpacedWord.standAt_append h).2
        rw [hbehind] at hws
        have hrest := ih _ (Token.ofWord w.word
          (position + (SpacedWord.text current).length + w.gap.length)).stop [] hws
        simp only [modifyHead_nil_append] at hrest
        rw [if_pos hwand, List.modifyHead_cons, List.append_nil,
          readClauses_and (hand.mpr hwand) hcurrent, List.forall_mem_cons, and_iff_right hwtrue,
          List.forall₂_cons_left_iff]
        constructor
        · rintro ⟨c, cs', hcs, hc, hrest'⟩
          obtain ⟨hnone, hsaid⟩ := (hrest cs').mp hrest'
          exact ⟨hnone, c, cs', hc, hsaid, hcs⟩
        · rintro ⟨hnone, c, cs', hc, hsaid, hcs⟩
          exact ⟨c, cs', hcs, hc, (hrest cs').mpr ⟨hnone, hsaid⟩⟩
      by_cases hwtrue : w.is "TRUE"
      · rw [splitClauses_true (htrue.mpr hwtrue)]
        constructor
        · intro hread
          cases hread
        · rintro ⟨hnone, -⟩
          exact absurd hwtrue (hnone w List.mem_cons_self)
      · -- the word joins those that are already there
        have hgroups : (fun group => current ++ group) ∘ List.cons w =
            fun group => current ++ [w] ++ group := by
          funext group
          rw [Function.comp_apply, List.append_cons]
        rw [splitClauses_word (mt hand.mp hwand) (mt htrue.mp hwtrue), if_neg hwand,
          List.modifyHead_modifyHead, hgroups, ← Token.ofWords_concat, ← hbehind, ih _ _ _ h,
          List.forall_mem_cons, and_iff_right hwtrue]

/-- The word `TRUE` on its own always holds. -/
theorem readAntecedent_of_true {w : SpacedWord} (hw : w.is "TRUE") (position : Nat) :
    readAntecedent line (Token.ofWords position [w]) = .ok .always := by
  have hkind : (Token.keyword? w.word).getD .word = .trueWord :=
    (Token.kind_ofWord w (position + w.gap.length)).2.2.2.mpr hw
  rw [Token.ofWords, Token.ofWords, Token.ofWord, hkind]
  rfl

/-- Other words are clauses. -/
theorem readAntecedent_of_not_true {ws : List SpacedWord}
    (htrue : ¬ ∃ w : SpacedWord, ws = [w] ∧ w.is "TRUE") (position : Nat) :
    readAntecedent line (Token.ofWords position ws) =
      splitClauses [] 0 (Token.ofWords position ws) >>= fun groups =>
        groups.mapM (readClause line) >>= fun cs => pure (.clauses cs) := by
  rw [readAntecedent]
  intro text start htokens
  refine htrue ?_
  cases ws with
  | nil => cases htokens
  | cons w ws =>
      obtain ⟨htoken, hrest⟩ := List.cons.inj htokens
      refine ⟨w, congrArg (w :: ·) (Token.ofWords_eq_nil_iff.mp hrest), ?_⟩
      exact (Token.kind_ofWord w _).2.2.2.mp (congrArg Token.kind htoken)

/-- **The words of an antecedent are read as the grammar says.** -/
theorem readAntecedent_eq_ok_iff {position : Nat} {ws : List SpacedWord}
    (h : SpacedWord.StandAt line position ws) (a : Antecedent) :
    readAntecedent line (Token.ofWords position ws) = .ok a ↔ a.Reading ws := by
  by_cases htrue : ∃ w : SpacedWord, ws = [w] ∧ w.is "TRUE"
  · obtain ⟨w, rfl, hw⟩ := htrue
    rw [readAntecedent_of_true hw]
    cases a with
    | always => exact ⟨fun _ => ⟨w, rfl, hw⟩, fun _ => rfl⟩
    | clauses cs =>
        constructor
        · intro hread
          cases hread
        · rintro ⟨hnone, -⟩
          exact absurd hw (hnone w List.mem_cons_self)
  · rw [readAntecedent_of_not_true htrue]
    have hclauses := readClauses_eq_ok_iff position 0 [] ws h
    simp only [modifyHead_nil_append] at hclauses
    rw [← bind_assoc, Except.bind_eq_ok_iff]
    constructor
    · rintro ⟨cs, hcs, ⟨⟩⟩
      exact (hclauses cs).mp hcs
    · intro hreading
      cases a with
      | always => exact absurd hreading htrue
      | clauses cs => exact ⟨cs, (hclauses cs).mpr hreading, rfl⟩

end Line

end Rulebook
