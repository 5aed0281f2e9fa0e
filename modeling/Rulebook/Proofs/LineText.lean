import Rulebook.Proofs.LineRead

/-!
# Listings — lines that are written and read back

A line is written from what it is to say (`LineText.render`), as in
`[3, 0] IF width<=3.0 AND length>4 THEN class=setosa  -0.0`.  If its texts can be told apart where
they are joined (`LineText.Plain`), it is read as what it was written from (`Line.read_render`).

The words of the line are put together as its text is: `Words` tells the words of a text that stands
behind a gap, and is kept where two such texts are joined (`Words.append`).
-/

namespace Rulebook

/-! ### Counts -/

theorem digit?_of_isDigit {c : Char} (h : c.isDigit) :
    Text.digit? c = some (c.toNat - '0'.toNat) := by
  have hrange : '0' ≤ c ∧ c ≤ '9' := by simpa [Char.isDigit, Char.le_def] using h
  have hascii : c.toNat < 0x80 := lt_of_le_of_lt (UInt32.le_iff_toNat_le.mp hrange.2) (by decide)
  rw [Text.digit?, if_pos hascii, if_pos hrange]

/-- The digits of a number write it. -/
theorem ofDigits_toDigits (n : Nat) :
    Text.ofDigits ((Nat.toDigits 10 n).filterMap Text.digit?) = n := by
  have hdigits : ∀ c ∈ Nat.toDigits 10 n, Text.digit? c = some (c.toNat - '0'.toNat) := fun c hc =>
    digit?_of_isDigit (Nat.isDigit_of_mem_toDigits (by decide) (by decide) hc)
  have hmap : (Nat.toDigits 10 n).filterMap Text.digit? =
      (Nat.toDigits 10 n).map fun c => c.toNat - '0'.toNat := by
    rw [List.filterMap_congr hdigits]
    exact congrFun List.filterMap_eq_map _
  rw [hmap, Text.ofDigits, List.foldl_map]
  exact Nat.ofDigitChars_ten_toDigits

theorem digitRun_toDigits (n : Nat) : DigitRun (Nat.toDigits 10 n) where
  nonempty := Nat.toDigits_ne_nil
  digits c hc := by
    rw [Text.isDigit, digit?_of_isDigit (Nat.isDigit_of_mem_toDigits (by decide) (by decide) hc)]
    rfl

theorem blank_space : Blank [' '] := by simp [Blank, Text.isBlank]

/-- Runs of digits with a comma and a blank between them. -/
theorem countsText_intercalate {left : List Char} (hleft : Blank left) {runs : List (List Char)}
    (hsome : runs ≠ []) (hruns : ∀ run ∈ runs, DigitRun run) :
    CountsText (left ++ ", ".toList.intercalate runs) runs := by
  induction runs generalizing left with
  | nil => exact absurd rfl hsome
  | cons run runs ih =>
      obtain ⟨hrun, hruns⟩ := List.forall_mem_cons.mp hruns
      cases runs with
      | nil =>
          have hlast := CountsText.last hleft hrun (List.forall_mem_nil _)
          rw [List.append_nil] at hlast
          rwa [List.intercalate_singleton]
      | cons run' runs =>
          have hmore := CountsText.more hleft hrun (List.forall_mem_nil _)
            (ih blank_space (List.cons_ne_nil _ _) hruns)
          rw [List.intercalate_cons_cons, List.append_assoc]
          exact hmore

/-! ### Texts without blanks at their ends -/

/-- A text without blanks at its ends. -/
structure Trimmed (cs : List Char) : Prop where
  nonempty : cs ≠ []
  strip : Text.strip cs = cs

theorem dropWhile_eq_self_iff_head? {p : Char → Bool} {cs : List Char} :
    cs.dropWhile p = cs ↔ ∀ c ∈ cs.head?, ¬ p c := by
  cases cs with
  | nil => simp
  | cons c cs => simp [List.dropWhile_eq_self_iff]

theorem trimmed_iff {cs : List Char} :
    Trimmed cs ↔
      cs ≠ [] ∧ (∀ c ∈ cs.head?, ¬ Text.isBlank c) ∧ ∀ c ∈ cs.getLast?, ¬ Text.isBlank c := by
  rw [← List.head?_reverse, ← dropWhile_eq_self_iff_head?, ← dropWhile_eq_self_iff_head?]
  constructor
  · rintro ⟨hne, hstrip⟩
    -- nothing is lost at either end
    have hlength : cs.length ≤ (cs.dropWhile Text.isBlank).length := by
      conv_lhs => rw [← hstrip, Text.strip, Text.stripWith, List.length_reverse]
      exact (List.dropWhile_suffix _).length_le.trans List.length_reverse.le
    have hfront := (List.dropWhile_suffix Text.isBlank).eq_of_length_le hlength
    rw [Text.strip, Text.stripWith, hfront, List.reverse_eq_iff] at hstrip
    exact ⟨hne, hfront, hstrip⟩
  · rintro ⟨hne, hfront, hback⟩
    exact ⟨hne, by rw [Text.strip, Text.stripWith, hfront, hback, List.reverse_reverse]⟩

theorem Trimmed.append {xs ys : List Char} (hxs : Trimmed xs) (hys : Trimmed ys) (mid : List Char) :
    Trimmed (xs ++ (mid ++ ys)) := by
  rw [trimmed_iff] at hxs hys ⊢
  obtain ⟨hne, hfront, -⟩ := hxs
  obtain ⟨hne', -, hback⟩ := hys
  refine ⟨List.append_ne_nil_of_left_ne_nil hne _, ?_, ?_⟩
  · rwa [List.head?_append_of_ne_nil _ hne]
  · rwa [← List.append_assoc, List.getLast?_append_of_ne_nil _ hne']

theorem Trimmed.inked {cs : List Char} (h : Trimmed cs) : Inked cs :=
  strip_ne_nil_iff.mp (h.strip.symm ▸ h.nonempty)

/-! ### Words behind a gap -/

/-- A word without blanks, behind a gap. -/
structure SpacedWord.Apart (w : SpacedWord) : Prop where
  nonempty : w.word ≠ []
  inked : ∀ c ∈ w.word, ¬ Text.isBlank c
  gap : Blank w.gap
  apart : w.gap ≠ []

/-- A keyword behind a blank. -/
theorem apart_keyword {keyword : String} (h : keyword ∈ ["IF", "AND", "THEN", "TRUE"]) :
    SpacedWord.Apart ⟨[' '], keyword.toList⟩ := by
  have hkeywords : ∀ keyword ∈ ["IF", "AND", "THEN", "TRUE"],
      keyword.toList ≠ [] ∧ ∀ c ∈ keyword.toList, ¬ Text.isBlank c := by decide
  obtain ⟨hne, hinked⟩ := hkeywords keyword h
  exact ⟨hne, hinked, blank_space, List.cons_ne_nil _ _⟩

/-- The words of a text that stands behind a gap. -/
inductive Words (gap : List Char) : List Char → List SpacedWord → Prop
  | intro {word : List Char} {ws : List SpacedWord} (happart : ∀ w ∈ ⟨gap, word⟩ :: ws, w.Apart) :
      Words gap (word ++ SpacedWord.text ws) (⟨gap, word⟩ :: ws)

namespace Words

variable {gap gap' cs cs' : List Char} {us vs ws : List SpacedWord}

theorem source (h : Words gap cs ws) : SpacedWord.source ws = cs := by
  cases h
  rfl

theorem ne_nil (h : Words gap cs ws) : ws ≠ [] := by
  cases h
  exact List.cons_ne_nil _ _

theorem text (h : Words gap cs ws) : SpacedWord.text ws = gap ++ cs := by
  cases h
  rw [SpacedWord.text_cons]

theorem apart (h : Words gap cs ws) : ∀ w ∈ ws, w.Apart := by
  cases h
  assumption

theorem append (hus : Words gap cs us) (hvs : Words gap' cs' vs) :
    Words gap (cs ++ (gap' ++ cs')) (us ++ vs) := by
  have htext := hvs.text
  obtain ⟨hus⟩ := hus
  rename_i word us
  rw [← htext, List.append_assoc, ← SpacedWord.text_append, List.cons_append]
  exact .intro (List.forall_mem_append.mpr ⟨hus, hvs.apart⟩)

theorem singleton {word : List Char} (h : SpacedWord.Apart ⟨gap, word⟩) :
    Words gap word [⟨gap, word⟩] := by
  have hword := Words.intro (List.forall_mem_singleton.mpr h)
  rwa [SpacedWord.text_nil, List.append_nil] at hword

/-- They are all words of the text. -/
theorem worded (h : Words gap cs ws) : Worded (gap ++ cs) ws where
  text := ⟨[], List.forall_mem_nil _, by rw [h.text, List.append_nil]⟩
  nonempty w hw := (h.apart w hw).nonempty
  inked w hw := (h.apart w hw).inked
  gaps w hw := (h.apart w hw).gap
  apart w hw := (h.apart w (List.mem_of_mem_tail hw)).apart

end Words

theorem splitOnP_cons_of_isBlank {c : Char} (hc : Text.isBlank c) (cs : List Char) :
    (c :: cs).splitOnP Text.isBlank = [] :: cs.splitOnP Text.isBlank :=
  (List.splitOnP_cons_eq_if_modifyHead c cs).trans (if_pos hc)

theorem mem_splitOnP_gap_append {gap piece cs : List Char} (hgap : Blank gap)
    (h : piece ∈ cs.splitOnP Text.isBlank) : piece ∈ (gap ++ cs).splitOnP Text.isBlank := by
  induction gap with
  | nil => exact h
  | cons c gap ih =>
      obtain ⟨hc, hgap⟩ := List.forall_mem_cons.mp hgap
      rw [List.cons_append, splitOnP_cons_of_isBlank hc]
      exact List.mem_cons_of_mem _ (ih hgap)

/-- The words of a text are pieces of it between blanks. -/
theorem Worded.mem_splitOnP {cs : List Char} {ws : List SpacedWord} (h : Worded cs ws) :
    ∀ w ∈ ws, w.word ∈ cs.splitOnP Text.isBlank := by
  induction ws generalizing cs with
  | nil => exact List.forall_mem_nil _
  | cons w ws ih =>
      obtain ⟨hgap, hne, hinked, rest, rfl, hrest, hhead⟩ := cons_iff.mp h
      have hword : w.word.splitOnP Text.isBlank = [w.word] :=
        List.splitOnP_eq_singleton fun c hc => Bool.eq_false_iff.mpr (hinked c hc)
      obtain ⟨pieces, hpieces, hwords⟩ : ∃ pieces, rest.splitOnP Text.isBlank = [] :: pieces ∧
          (w.word ++ rest).splitOnP Text.isBlank = w.word :: pieces := by
        cases rest with
        | nil => exact ⟨[], rfl, by rw [List.append_nil, hword]⟩
        | cons c rest =>
            have hc : Text.isBlank c := hhead c rfl
            refine ⟨_, splitOnP_cons_of_isBlank hc rest, ?_⟩
            rw [List.splitOnP_append_cons _ _ hc, hword, List.singleton_append]
      have hmem := ih hrest
      rw [hpieces] at hmem
      rw [List.forall_mem_cons]
      refine ⟨mem_splitOnP_gap_append hgap ?_, fun v hv => mem_splitOnP_gap_append hgap ?_⟩
      · rw [hwords]
        exact List.mem_cons_self
      · rw [hwords]
        exact List.mem_cons_of_mem _
          (List.mem_of_ne_of_mem (hrest.nonempty v hv) (hmem v hv))

/-- Every text without blanks at its ends has words, which are its pieces between blanks. -/
theorem exists_words {gap cs : List Char} (hgap : Blank gap) (hne : gap ≠ []) (hcs : Trimmed cs) :
    ∃ ws, Words gap cs ws ∧ ∀ w ∈ ws, w.word ∈ cs.splitOnP Text.isBlank := by
  obtain ⟨hsome, hfront, hback⟩ := trimmed_iff.mp hcs
  obtain ⟨ws, hws⟩ := Token.exists_worded 0 cs
  have hmem := hws.mem_splitOnP
  obtain ⟨trailing, htrailing, htext⟩ := hws.text
  have hnone : trailing = [] := by
    by_contra hne
    rw [htext, List.getLast?_append_of_ne_nil _ hne] at hback
    exact hback _ (List.getLast?_eq_some_getLast hne) (htrailing _ (List.getLast_mem hne))
  rw [hnone, List.append_nil] at htext
  cases ws with
  | nil => exact absurd htext hsome
  | cons w ws =>
      obtain ⟨front, word⟩ := w
      have hnone : front = [] := by
        cases front with
        | nil => rfl
        | cons c front =>
            rw [htext] at hfront
            exact absurd (hws.gaps _ List.mem_cons_self c List.mem_cons_self) (hfront c rfl)
      subst hnone
      subst htext
      refine ⟨⟨gap, word⟩ :: ws, .intro (List.forall_mem_cons.mpr ⟨?_, fun v hv => ?_⟩),
        List.forall_mem_cons.mpr (List.forall_mem_cons.mp hmem)⟩
      · exact ⟨hws.nonempty ⟨[], word⟩ List.mem_cons_self, hws.inked ⟨[], word⟩ List.mem_cons_self,
          hgap, hne⟩
      · have hv' : v ∈ SpacedWord.mk [] word :: ws := List.mem_cons_of_mem _ hv
        exact ⟨hws.nonempty v hv', hws.inked v hv', hws.gaps v hv', hws.apart v hv⟩

/-! ### Clauses -/

/-- What a clause is written from. -/
structure ClauseText where
  name : List Char
  op : Comparison
  threshold : List Char

namespace ClauseText

/-- The name, the operator and the threshold, with nothing between them. -/
def render (c : ClauseText) : List Char := c.name ++ (c.op.symbol.toList ++ c.threshold)

/-- The clause that is written. -/
def clause (c : ClauseText) : Clause :=
  ⟨Clause.normalize c.name, c.op, Clause.normalize c.threshold⟩

/-- The words that end a clause. -/
def keywords : List (List Char) := ["AND".toList, "THEN".toList, "TRUE".toList]

/-- The characters of the operators. -/
def marks : List Char := ['<', '>', '=', '!']

/-- The texts of a clause can be told apart: the operator is the first one and the longest, and no
word ends the clause. -/
structure Plain (c : ClauseText) : Prop where
  name : Trimmed c.name
  threshold : Trimmed c.threshold
  unmarked : ∀ ch ∈ c.name, ch ∉ marks
  longest : c.op = .lt ∨ c.op = .gt → c.threshold.head? ≠ some '='
  nameWords : ∀ word ∈ c.name.splitOnP Text.isBlank, word ∉ keywords
  thresholdWords : ∀ word ∈ c.threshold.splitOnP Text.isBlank, word ∉ keywords

variable {c : ClauseText}

theorem Plain.trimmed (h : c.Plain) : Trimmed c.render :=
  h.name.append h.threshold _

/-- An operator begins with a mark, behind which stands an equality sign or nothing. -/
theorem exists_mark (op : Comparison) :
    ∃ mark ∈ marks, op.symbol.toList = [mark] ∨ op.symbol.toList = [mark, '='] := by
  cases op with
  | lt => exact ⟨'<', by decide, .inl rfl⟩
  | le => exact ⟨'<', by decide, .inr rfl⟩
  | gt => exact ⟨'>', by decide, .inl rfl⟩
  | ge => exact ⟨'>', by decide, .inr rfl⟩
  | eq => exact ⟨'=', by decide, .inr rfl⟩
  | ne => exact ⟨'!', by decide, .inr rfl⟩

/-- The operator is the longest that begins behind the name. -/
theorem Plain.operator? (h : c.Plain) :
    Clause.operator? (c.op.symbol.toList ++ c.threshold) = some (c.op, c.threshold) := by
  have hnext (hop : c.op = .lt ∨ c.op = .gt) : ∀ rest, c.threshold ≠ '=' :: rest :=
    fun rest hrest => h.longest hop (by rw [hrest]; rfl)
  cases hop : c.op with
  | le | ge | eq | ne => rfl
  | lt => exact (Clause.operator?_lt_gt (hnext (.inl hop))).1
  | gt => exact (Clause.operator?_lt_gt (hnext (.inr hop))).2

/-- No operator begins in the name. -/
theorem Plain.not_beginsAt (h : c.Plain) {place : Nat} (hplace : place < c.name.length)
    (op : Comparison) : ¬ op.BeginsAt c.render place := by
  rintro ⟨rest, hrest⟩
  obtain ⟨mark, hmark, hsymbol⟩ := exists_mark op
  have hhead : (c.render.drop place).head? = some mark := by
    rw [← hrest]
    rcases hsymbol with hsymbol | hsymbol <;> rw [hsymbol] <;> rfl
  rw [List.head?_drop, render, List.getElem?_append_left hplace,
    List.getElem?_eq_getElem hplace] at hhead
  exact h.unmarked _ (List.getElem_mem hplace) (Option.some.inj hhead ▸ hmark)

/-- A clause is cut where it was joined. -/
theorem Plain.reading (h : c.Plain) : Clause.Reading c.render c.clause := by
  obtain ⟨-, hlongest⟩ := Clause.operator?_eq_some_iff.mp h.operator?
  refine ⟨c.name, c.threshold, rfl, h.name.inked, ?_, h.threshold.inked, ?_,
    fun _ => h.not_beginsAt, fun op hop => hlongest op ?_⟩
  · rw [h.name.strip]
    rfl
  · rw [h.threshold.strip]
    rfl
  · rwa [Comparison.BeginsAt, render, List.drop_left] at hop

/-- A piece of two texts that are joined by a character that is not blank holds the character, or is
a piece of one of the texts. -/
theorem mem_splitOnP_append_mark {mark : Char} (hmark : ¬ Text.isBlank mark)
    {xs ys word : List Char} (h : word ∈ (xs ++ mark :: ys).splitOnP Text.isBlank) :
    mark ∈ word ∨ word ∈ xs.splitOnP Text.isBlank ∨ word ∈ ys.splitOnP Text.isBlank := by
  obtain ⟨before, last, _, _, hxs, hbehind, hjoined⟩ :=
    exists_splitOnP_append Text.isBlank xs (mark :: ys)
  obtain ⟨first, after, hys⟩ := List.exists_cons_of_ne_nil (List.splitOnP_ne_nil Text.isBlank ys)
  rw [List.splitOnP_cons_eq_if_modifyHead, if_neg hmark, hys] at hbehind
  cases hbehind
  rw [hjoined, List.mem_append, List.mem_cons] at h
  rw [hxs, hys]
  rcases h with h | rfl | h
  · exact .inr (.inl (List.mem_append_left _ h))
  · exact .inl (List.mem_append_right _ List.mem_cons_self)
  · exact .inr (.inr (List.mem_cons_of_mem _ h))

/-- No keyword is a piece of a text at a mark if it is no piece of the sides. -/
theorem not_mem_splitOnP_append_mark {mark : Char} (hmark : mark ∈ marks) {xs ys word : List Char}
    (hword : word ∈ keywords) (hxs : word ∉ xs.splitOnP Text.isBlank)
    (hys : word ∉ ys.splitOnP Text.isBlank) :
    word ∉ (xs ++ mark :: ys).splitOnP Text.isBlank := by
  have hmarked : ∀ mark ∈ marks, ¬ Text.isBlank mark ∧ ∀ word ∈ keywords, mark ∉ word := by decide
  obtain ⟨hblank, hfree⟩ := hmarked mark hmark
  intro h
  rcases mem_splitOnP_append_mark hblank h with h | h | h
  · exact hfree word hword h
  · exact hxs h
  · exact hys h

/-- No word of a clause is a keyword. -/
theorem Plain.not_mem_keywords (h : c.Plain) :
    ∀ word ∈ c.render.splitOnP Text.isBlank, word ∉ keywords := by
  have hnil : ∀ word ∈ keywords, word ∉ ([] : List Char).splitOnP Text.isBlank := by decide
  intro word hword hkeyword
  have hname : word ∉ c.name.splitOnP Text.isBlank := fun hmem => h.nameWords word hmem hkeyword
  have hthreshold : word ∉ c.threshold.splitOnP Text.isBlank := fun hmem =>
    h.thresholdWords word hmem hkeyword
  obtain ⟨mark, hmark, hsymbol⟩ := exists_mark c.op
  rw [render] at hword
  rcases hsymbol with hsymbol | hsymbol <;> rw [hsymbol] at hword
  · exact not_mem_splitOnP_append_mark hmark hkeyword hname hthreshold hword
  · -- the equality sign is a mark too
    have hbehind : word ∉ ('=' :: c.threshold).splitOnP Text.isBlank :=
      not_mem_splitOnP_append_mark (by decide) hkeyword (hnil word hkeyword) hthreshold
    exact not_mem_splitOnP_append_mark hmark hkeyword hname hbehind hword

/-- Clauses with the word `AND` between them. -/
def join (cs : List ClauseText) : List Char := " AND ".toList.intercalate (cs.map render)

theorem not_is_of_not_mem_keywords {w : SpacedWord} (h : w.word ∉ keywords) :
    ¬ w.is "AND" ∧ ¬ w.is "THEN" ∧ ¬ w.is "TRUE" := by
  have hword (keyword : String) (hmem : keyword.toList ∈ keywords) : ¬ w.is keyword := fun his =>
    h (eq_of_beq his ▸ hmem)
  exact ⟨hword "AND" (by decide), hword "THEN" (by decide), hword "TRUE" (by decide)⟩

/-- A clause is said by its words. -/
theorem Plain.exists_words (h : c.Plain) :
    ∃ ws, Words [' '] c.render ws ∧ (∀ w ∈ ws, w.word ∉ keywords) ∧ c.clause.SaidBy ws := by
  obtain ⟨ws, hws, hmem⟩ := Rulebook.exists_words blank_space (List.cons_ne_nil _ _) h.trimmed
  exact ⟨ws, hws, fun w hw => h.not_mem_keywords w.word (hmem w hw), hws.ne_nil,
    hws.source.symm ▸ h.reading⟩

/-- Clauses that are joined are said by their words, between the words `AND`. -/
theorem exists_words_join {cs : List ClauseText} (hsome : cs ≠ []) (h : ∀ c ∈ cs, c.Plain) :
    ∃ ws, Words [' '] (join cs) ws ∧ (∀ w ∈ ws, ¬ w.is "THEN") ∧
      (Antecedent.clauses (cs.map clause)).Reading ws := by
  induction cs with
  | nil => exact absurd rfl hsome
  | cons c cs ih =>
      obtain ⟨hc, hcs⟩ := List.forall_mem_cons.mp h
      obtain ⟨us, hus, hkeywords, hsaid⟩ := hc.exists_words
      have hnot := fun w hw => not_is_of_not_mem_keywords (hkeywords w hw)
      have hsingle : us.splitOnP (SpacedWord.is "AND") = [us] :=
        List.splitOnP_eq_singleton fun w hw => Bool.eq_false_iff.mpr (hnot w hw).1
      cases cs with
      | nil =>
          refine ⟨us, ?_, fun w hw => (hnot w hw).2.1, fun w hw => (hnot w hw).2.2, ?_⟩
          · rwa [join, List.map_singleton, List.intercalate_singleton]
          · rw [hsingle]
            exact .cons hsaid .nil
      | cons c' cs =>
          obtain ⟨vs, hvs, hthen, htrue, hgroups⟩ := ih (List.cons_ne_nil _ _) hcs
          have hand : SpacedWord.Apart ⟨[' '], "AND".toList⟩ := apart_keyword (by decide)
          refine ⟨us ++ ([⟨[' '], "AND".toList⟩] ++ vs), ?_, ?_, ?_, ?_⟩
          · rw [join, List.map_cons, List.map_cons, List.intercalate_cons_cons, List.append_assoc]
            change Words [' ']
              (c.render ++ ([' '] ++ ("AND".toList ++ ([' '] ++ join (c' :: cs))))) _
            exact hus.append ((Words.singleton hand).append hvs)
          · rw [List.forall_mem_append, List.singleton_append, List.forall_mem_cons]
            exact ⟨fun w hw => (hnot w hw).2.1, by decide, hthen⟩
          · rw [List.forall_mem_append, List.singleton_append, List.forall_mem_cons]
            exact ⟨fun w hw => (hnot w hw).2.2, by decide, htrue⟩
          · rw [List.singleton_append, List.splitOnP_append_cons _ _ rfl, hsingle]
            exact .cons hsaid hgroups

end ClauseText

/-! ### The line -/

/-- What a line is written from.  The default line has no clauses. -/
structure LineText where
  distribution : List Nat
  clauses : List ClauseText
  target : List Char
  value : List Char
  score : List Char

namespace LineText

/-- The antecedent as it is written. -/
def antecedentText (t : LineText) : List Char :=
  match t.clauses with
  | [] => "TRUE".toList
  | cs => ClauseText.join cs

/-- The antecedent that is written. -/
def antecedent (t : LineText) : Antecedent :=
  match t.clauses with
  | [] => .always
  | cs => .clauses (cs.map (·.clause))

/-- The line behind its counts: `IF`, the antecedent, `THEN`, the prediction and the score. -/
def behindCounts (t : LineText) : List Char :=
  " IF ".toList ++ t.antecedentText ++ " THEN ".toList ++ t.target ++ "=".toList ++ t.value ++
    "  ".toList ++ t.score

/-- The line. -/
def render (t : LineText) : List Char :=
  "[".toList ++ ", ".toList.intercalate (t.distribution.map (Nat.toDigits 10)) ++ "]".toList ++
    t.behindCounts

/-- The texts of a line can be told apart where they are joined. -/
structure Plain (t : LineText) : Prop where
  counts : t.distribution ≠ []
  short : ∀ n ∈ t.distribution, (Nat.toDigits 10 n).length ≤ 4300
  clauses : ∀ c ∈ t.clauses, c.Plain
  target : Trimmed t.target
  value : Trimmed t.value
  first : '=' ∉ t.target
  score : ScoreText t.score

variable {t : LineText}

theorem Plain.exists_words_antecedent (h : t.Plain) :
    ∃ ws, Words [' '] t.antecedentText ws ∧ (∀ w ∈ ws, ¬ w.is "THEN") ∧
      t.antecedent.Reading ws := by
  unfold antecedentText antecedent
  split
  next =>
    refine ⟨_, Words.singleton (apart_keyword (by decide)), ?_, _, rfl, rfl⟩
    exact List.forall_mem_singleton.mpr (by decide)
  next hsome =>
    exact ClauseText.exists_words_join hsome h.clauses

/-- A score is one word. -/
theorem apart_score {score : List Char} (h : ScoreText score) :
    SpacedWord.Apart ⟨[' ', ' '], score⟩ where
  nonempty := by
    rintro rfl
    exact absurd (isSome_score?_iff.mpr h) (by decide)
  inked c hc := by
    rcases forall_mem_scoreText h c hc with hdigit | hmem
    · exact Bool.eq_false_iff.mp (isBlank_of_isDigit hdigit)
    · have hmarks : ∀ c ∈ ['+', '-', '.', 'e', 'E'], ¬ Text.isBlank c := by decide
      exact hmarks c hmem
  gap := List.forall_mem_cons.mpr ⟨rfl, blank_space⟩
  apart := List.cons_ne_nil _ _

/-- The prediction is said by its words. -/
theorem Plain.exists_words_prediction (h : t.Plain) :
    ∃ ws, Words [' '] (t.target ++ '=' :: t.value) ws ∧
      Prediction (SpacedWord.source ws) (String.ofList t.target) (String.ofList t.value) := by
  obtain ⟨ws, hws, -⟩ := exists_words blank_space (List.cons_ne_nil _ _)
    (h.target.append h.value ['='])
  refine ⟨ws, hws, ?_⟩
  have hprediction := Prediction.intro h.first h.target.inked h.value.inked
  rw [h.target.strip, h.value.strip] at hprediction
  rw [hws.source]
  exact hprediction

theorem Plain.bracketed (h : t.Plain) :
    Bracketed t.render (t.distribution.map (Nat.toDigits 10)) t.behindCounts := by
  have hcounts := countsText_intercalate (List.forall_mem_nil _)
    (mt List.map_eq_nil_iff.mp h.counts) (List.forall_mem_map.mpr fun n _ => digitRun_toDigits n)
  have hrender : t.render = [] ++ '[' :: (", ".toList.intercalate
      (t.distribution.map (Nat.toDigits 10)) ++ ']' :: t.behindCounts) := by
    simp only [render, List.append_assoc]
    rfl
  rw [hrender]
  exact .intro (List.forall_mem_nil _) hcounts

/-- A line is written as the grammar says, and says what it is written from. -/
theorem Plain.written (h : t.Plain) {x : Binary64}
    (hx : Binary64.ofText? (String.ofList t.score) = some x) :
    Line.Written t.render
      ⟨t.distribution, t.antecedent, String.ofList t.target, String.ofList t.value, x⟩ := by
  obtain ⟨antecedent, hantecedent, hfirst, hreading⟩ := h.exists_words_antecedent
  obtain ⟨prediction, hwords, hprediction⟩ := h.exists_words_prediction
  have hif := Words.singleton (apart_keyword (show "IF" ∈ _ by decide))
  have hthen := Words.singleton (apart_keyword (show "THEN" ∈ _ by decide))
  have hscore := Words.singleton (apart_score h.score)
  have hworded := (hif.append (hantecedent.append (hthen.append (hwords.append hscore)))).worded
  have hbehind : t.behindCounts = [' '] ++ ("IF".toList ++ ([' '] ++ (t.antecedentText ++
      ([' '] ++ ("THEN".toList ++ ([' '] ++ (t.target ++ '=' :: t.value ++
        ([' ', ' '] ++ t.score)))))))) := by
    have hif : " IF ".toList = [' '] ++ ("IF".toList ++ [' ']) := rfl
    have hthen : " THEN ".toList = [' '] ++ ("THEN".toList ++ [' ']) := rfl
    have hequal : "=".toList = ['='] := rfl
    have hgap : "  ".toList = [' ', ' '] := rfl
    unfold behindCounts
    rw [hif, hthen, hequal, hgap]
    simp only [List.append_assoc, List.cons_append, List.nil_append]
  rw [← hbehind] at hworded
  refine .intro h.bracketed ?_ hworded ?_
  · rw [List.map_map]
    exact (List.map_id'' ofDigits_toDigits t.distribution).symm
  · change Line.SaidBy (⟨[' '], "IF".toList⟩ :: (antecedent ++ ⟨[' '], "THEN".toList⟩ ::
      (prediction ++ [⟨[' ', ' '], t.score⟩]))) _
    exact .intro rfl hantecedent.ne_nil hreading hfirst rfl hwords.ne_nil hprediction h.score hx

end LineText

/-- The counts of a line are the only ones. -/
theorem shortCounts_of_bracketed {line rest : List Char} {runs : List (List Char)}
    (h : Bracketed line runs rest) (hshort : ∀ run ∈ runs, run.length ≤ 4300) :
    ShortCounts line := by
  intro runs' rest' h'
  obtain ⟨counts, hcounts, rfl, -⟩ := Token.readBrackets_of_bracketed h
  obtain ⟨counts', hcounts', rfl, -⟩ := Token.readBrackets_of_bracketed h'
  cases hcounts.symm.trans hcounts'
  exact hshort

/-- **A line is read as what it is written from.** -/
theorem Line.read_render (t : LineText) (h : t.Plain) :
    ∃ x, Binary64.ofText? (String.ofList t.score) = some x ∧
      read t.render = .ok
        ⟨t.distribution, t.antecedent, String.ofList t.target, String.ofList t.value, x⟩ := by
  obtain ⟨x, hx⟩ := Option.isSome_iff_exists.mp (isSome_score?_iff.mpr h.score)
  obtain ⟨-, hvalue⟩ := score?_eq_some_iff.mp hx
  have hshort := shortCounts_of_bracketed h.bracketed (List.forall_mem_map.mpr h.short)
  exact ⟨x, hvalue, (read_eq_ok_iff_written hshort _).mpr (h.written hvalue)⟩

/-- A rule with a name of two words, and a value that has a keyword and an equality sign. -/
def wordyLine : LineText where
  distribution := [3, 0]
  clauses := [⟨"petal length".toList, .le, "3.0".toList⟩, ⟨"width".toList, .gt, "-2.9".toList⟩]
  target := "class".toList
  value := "setosa = AND".toList
  score := "-0.0".toList

theorem Line.read_render_wordyLine :
    wordyLine.Plain ∧ wordyLine.render =
      "[3, 0] IF petal length<=3.0 AND width>-2.9 THEN class=setosa = AND  -0.0".toList ∧
    ∃ x, read wordyLine.render = .ok ⟨[3, 0],
      .clauses [⟨"petal_length", .le, "3.0"⟩, ⟨"width", .gt, "-2.9"⟩], "class", "setosa = AND",
      x⟩ := by
  have hclauses : ∀ c ∈ wordyLine.clauses, c.Plain := by
    refine List.forall_mem_cons.mpr ⟨?_, List.forall_mem_singleton.mpr ?_⟩ <;>
      exact ⟨⟨by decide, by decide⟩, ⟨by decide, by decide⟩, by decide, by decide, by decide,
        by decide⟩
  have hplain : wordyLine.Plain :=
    { counts := by decide
      short := by decide
      clauses := hclauses
      target := ⟨by decide, by decide⟩
      value := ⟨by decide, by decide⟩
      first := by decide
      score := isSome_score?_iff.mp (by decide) }
  obtain ⟨x, -, hread⟩ := read_render wordyLine hplain
  exact ⟨hplain, by decide +kernel, x, hread⟩

end Rulebook
