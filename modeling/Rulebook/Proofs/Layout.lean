import Mathlib.Logic.Relation
import Rulebook.Proofs.LineLayout
import Rulebook.Proofs.Lines
import Rulebook.Proofs.Meaning

/-!
# Listings — layout does not matter

Texts that are laid out differently are read alike.  They may differ in their blank lines, in the
characters that end their lines, in the blanks at the ends of lines, and in those around the tokens
of the brackets with which a line begins.  Each of these is a change at one place of a text
(`Relaid`); a change leaves the lines that are not blank alike, one by one
(`Relaid.forall₂_alike`), and such lines are read alike.

* `Listing.relaid_of_contents_eq`: texts of which the lines that are not blank are the same, but for
  the blanks at their ends, are changes of each other.
* `Listing.Request.read_relaid`: however often a text is changed, it is read as the same model, or
  refused for the same reason.
-/

namespace Rulebook.Listing

/-! ### Changes of layout -/

/-- A single change of the layout of a text. -/
inductive Relaid : List Char → List Char → Prop
  /-- The text begins with blanks and blank lines. -/
  | front {gap text : List Char} (hgap : Blank gap) : Relaid text (gap ++ text)
  /-- The text ends with blanks and blank lines. -/
  | back {gap text : List Char} (hgap : Blank gap) : Relaid text (text ++ gap)
  /-- A line ends with another character, its end and the start of the next have blanks, or blank
  lines stand between the two. -/
  | lineEnd {before left right after : List Char} {c : Char} (hleft : Blank left)
      (hbreak : Text.isBreak c) (hright : Blank right) :
      Relaid (before ++ '\n' :: after) (before ++ (left ++ c :: (right ++ after)))
  /-- The blanks around the tokens of the brackets of a line are others. -/
  | brackets {before head head' right right' after : List Char} {runs : List (List Char)}
      (hstart : ∀ c ∈ before.getLast?, Text.isBreak c) (hhead : Bracketed head runs [])
      (hhead' : Bracketed head' runs []) (hright : Blank right) (hright' : Blank right')
      (hone : ∀ c ∈ head ++ right, ¬ Text.isBreak c)
      (hone' : ∀ c ∈ head' ++ right', ¬ Text.isBreak c) :
      Relaid (before ++ (head ++ (right ++ after))) (before ++ (head' ++ (right' ++ after)))

/-! ### Lines -/

/-- Whether a line is not blank. -/
def isInked (line : List Char) : Bool := line.any fun c => !Text.isBlank c

theorem isInked_eq_false_iff {line : List Char} : isInked line = false ↔ Blank line := by
  simp [isInked, Blank]

theorem filter_isInked_of_blank {lines : List (List Char)} (h : ∀ line ∈ lines, Blank line) :
    lines.filter isInked = [] :=
  List.filter_eq_nil_iff.mpr fun line hline => by
    rw [isInked_eq_false_iff.mpr (h line hline)]
    exact Bool.false_ne_true

/-- Where the first pieces are the same, or there is none but a blank one, the others decide. -/
theorem filter_isInked_cons {rest lines : List (List Char)}
    (h : rest.filter isInked = lines.tail.filter isInked) :
    (lines.headD [] :: rest).filter isInked = lines.filter isInked := by
  cases lines with
  | nil => exact h
  | cons line lines => rw [List.headD_cons, List.filter_cons, List.filter_cons, h, List.tail_cons]

/-- The first piece between line breaks is the first line, and the others are the other lines but
for blank ones. -/
theorem exists_splitOnP_isBreak (text : List Char) :
    ∃ rest, text.splitOnP Text.isBreak = (Text.splitLines text).headD [] :: rest ∧
      rest.filter isInked = (Text.splitLines text).tail.filter isInked := by
  fun_induction Text.splitLines text with
  | case1 => exact ⟨[], rfl, rfl⟩
  | case2 cs ih =>
      -- the line feed behind a carriage return opens a piece of its own, a blank one
      obtain ⟨rest, hpieces, hrest⟩ := ih
      refine ⟨[] :: (Text.splitLines cs).headD [] :: rest, ?_, filter_isInked_cons hrest⟩
      rw [List.splitOnP_cons_eq_if_modifyHead, List.splitOnP_cons_eq_if_modifyHead, hpieces]
      rfl
  | case3 c cs _ hbreak ih =>
      obtain ⟨rest, hpieces, hrest⟩ := ih
      refine ⟨_ :: rest, ?_, filter_isInked_cons hrest⟩
      rw [List.splitOnP_cons_eq_if_modifyHead, if_pos hbreak, hpieces]
      rfl
  | case4 c cs _ hbreak hnil ih =>
      obtain ⟨rest, hpieces, hrest⟩ := ih
      rw [hnil] at hpieces hrest
      refine ⟨rest, ?_, hrest⟩
      rw [List.splitOnP_cons_eq_if_modifyHead, if_neg hbreak, hpieces]
      rfl
  | case5 c cs _ hbreak line lines hlines ih =>
      obtain ⟨rest, hpieces, hrest⟩ := ih
      rw [hlines] at hpieces hrest
      refine ⟨rest, ?_, hrest⟩
      rw [List.splitOnP_cons_eq_if_modifyHead, if_neg hbreak, hpieces]
      rfl

/-- The lines that are not blank are the pieces between line breaks that are not. -/
theorem inkedLines_eq (text : List Char) :
    inkedLines text = (text.splitOnP Text.isBreak).filter isInked := by
  obtain ⟨rest, hpieces, hrest⟩ := exists_splitOnP_isBreak text
  rw [hpieces]
  exact (filter_isInked_cons hrest).symm

/-- A line break divides a text. -/
theorem inkedLines_append_break {c : Char} (hc : Text.isBreak c) (before after : List Char) :
    inkedLines (before ++ c :: after) = inkedLines before ++ inkedLines after := by
  rw [inkedLines_eq, List.splitOnP_append_cons _ _ hc, List.filter_append, ← inkedLines_eq,
    ← inkedLines_eq]

/-! ### Changes leave the lines alike -/

/-- The pieces of a blank text are blank. -/
theorem blank_of_mem_splitOnP {p : Char → Bool} {gap : List Char} (hgap : Blank gap) :
    ∀ piece ∈ gap.splitOnP p, Blank piece := by
  induction gap with
  | nil => exact List.forall_mem_singleton.mpr (List.forall_mem_nil _)
  | cons c gap ih =>
      obtain ⟨hc, hgap⟩ := List.forall_mem_cons.mp hgap
      obtain ⟨first, after, hpieces⟩ := List.exists_cons_of_ne_nil (List.splitOnP_ne_nil p gap)
      have hblank := ih hgap
      rw [List.splitOnP_cons_eq_if_modifyHead]
      split_ifs
      · exact List.forall_mem_cons.mpr ⟨List.forall_mem_nil _, hblank⟩
      · rw [hpieces, List.forall_mem_cons] at hblank
        rw [hpieces, List.modifyHead_cons, List.forall_mem_cons]
        exact ⟨List.forall_mem_cons.mpr ⟨hc, hblank.1⟩, hblank.2⟩

/-- Lines that are not blank, of which one is laid out otherwise. -/
theorem forall₂_alike_of_line {line line' : List Char} (hinked : isInked line' = isInked line)
    (h : Alike line line') (before after : List (List Char)) :
    List.Forall₂ Alike ((before ++ line :: after).filter isInked)
      ((before ++ line' :: after).filter isInked) := by
  have hsame (lines : List (List Char)) : List.Forall₂ Alike lines lines :=
    List.forall₂_same.mpr fun line _ => .refl line
  rw [List.filter_append, List.filter_append, List.filter_cons, List.filter_cons, hinked]
  refine List.rel_append (hsame _) ?_
  split_ifs
  · exact .cons h (hsame _)
  · exact hsame _

/-- A line between blanks is not blank if it was not. -/
theorem isInked_framed {front back : List Char} (hfront : Blank front) (hback : Blank back)
    (line : List Char) : isInked (front ++ (line ++ back)) = isInked line := by
  have hblank {gap : List Char} (hgap : Blank gap) := isInked_eq_false_iff.mpr hgap
  unfold isInked at hblank ⊢
  rw [List.any_append, List.any_append, hblank hfront, hblank hback, Bool.false_or, Bool.or_false]

/-- Lines that are not blank, of which one has other blanks at its ends. -/
theorem forall₂_alike_framed {front back : List Char} (hfront : Blank front) (hback : Blank back)
    (line : List Char) (before after : List (List Char)) :
    List.Forall₂ Alike ((before ++ line :: after).filter isInked)
      ((before ++ (front ++ (line ++ back)) :: after).filter isInked) :=
  forall₂_alike_of_line (isInked_framed hfront hback line) (.ends (.of_blank hfront hback line)) _ _

/-- Blanks in front of a text belong to blank lines, and to the first line. -/
theorem forall₂_alike_front {gap : List Char} (hgap : Blank gap) (text : List Char) :
    List.Forall₂ Alike (inkedLines text) (inkedLines (gap ++ text)) := by
  obtain ⟨before, last, first, after, hpieces, htext, hjoined⟩ :=
    exists_splitOnP_append Text.isBreak gap text
  have hblank : ∀ piece ∈ before ++ [last], Blank piece := hpieces ▸ blank_of_mem_splitOnP hgap
  obtain ⟨hbefore, hlast⟩ := List.forall_mem_append.mp hblank
  have halike := forall₂_alike_framed (List.forall_mem_singleton.mp hlast) (List.forall_mem_nil _)
    first [] after
  rw [List.append_nil, List.nil_append, List.nil_append] at halike
  rwa [inkedLines_eq, inkedLines_eq, htext, hjoined, List.filter_append,
    filter_isInked_of_blank hbefore, List.nil_append]

/-- Blanks behind a text belong to the last line, and to blank lines. -/
theorem forall₂_alike_back {gap : List Char} (hgap : Blank gap) (text : List Char) :
    List.Forall₂ Alike (inkedLines text) (inkedLines (text ++ gap)) := by
  obtain ⟨before, last, first, after, htext, hpieces, hjoined⟩ :=
    exists_splitOnP_append Text.isBreak text gap
  have hblank : ∀ piece ∈ first :: after, Blank piece := hpieces ▸ blank_of_mem_splitOnP hgap
  obtain ⟨hfirst, hafter⟩ := List.forall_mem_cons.mp hblank
  have halike := forall₂_alike_framed (List.forall_mem_nil _) hfirst last before []
  rw [List.nil_append] at halike
  rwa [inkedLines_eq, inkedLines_eq, htext, hjoined, List.append_cons before (last ++ first),
    List.filter_append (before ++ [last ++ first]), filter_isInked_of_blank hafter, List.append_nil]

/-- A line end divides the lines, however it is written and whatever blanks stand around it. -/
theorem forall₂_alike_lineEnd {left right : List Char} {c : Char} (hleft : Blank left)
    (hbreak : Text.isBreak c) (hright : Blank right) (before after : List Char) :
    List.Forall₂ Alike (inkedLines (before ++ '\n' :: after))
      (inkedLines (before ++ (left ++ c :: (right ++ after)))) := by
  rw [← List.append_assoc, inkedLines_append_break rfl, inkedLines_append_break hbreak]
  exact List.rel_append (forall₂_alike_back hleft before) (forall₂_alike_front hright after)

/-- A line without a break begins the first piece of a text. -/
theorem splitOnP_line_append {line : List Char} (hone : ∀ c ∈ line, ¬ Text.isBreak c)
    {after first : List Char} {rest : List (List Char)}
    (hafter : after.splitOnP Text.isBreak = first :: rest) :
    (line ++ after).splitOnP Text.isBreak = (line ++ first) :: rest := by
  induction line with
  | nil => exact hafter
  | cons c line ih =>
      obtain ⟨hc, hline⟩ := List.forall_mem_cons.mp hone
      rw [List.cons_append, List.splitOnP_cons_eq_if_modifyHead, if_neg hc, ih hline]
      rfl

/-- Counts in brackets are counts in brackets of a longer line. -/
theorem bracketed_append {head : List Char} {runs : List (List Char)} (h : Bracketed head runs [])
    (rest : List Char) : Bracketed (head ++ rest) runs rest := by
  cases h with
  | intro hleft hcounts =>
      rw [List.append_assoc, List.cons_append, List.append_assoc, List.cons_append]
      exact .intro hleft hcounts

theorem isInked_of_bracketed {line rest : List Char} {runs : List (List Char)}
    (h : Bracketed line runs rest) : isInked line = true := by
  cases h with
  | intro hleft hcounts =>
      exact List.any_eq_true.mpr ⟨'[', List.mem_append_right _ List.mem_cons_self, rfl⟩

/-- A line of which the brackets are laid out otherwise is alike. -/
theorem forall₂_alike_brackets {head head' right right' : List Char} {runs : List (List Char)}
    (hhead : Bracketed head runs []) (hhead' : Bracketed head' runs []) (hright : Blank right)
    (hright' : Blank right') (hone : ∀ c ∈ head ++ right, ¬ Text.isBreak c)
    (hone' : ∀ c ∈ head' ++ right', ¬ Text.isBreak c) (after : List Char) :
    List.Forall₂ Alike (inkedLines (head ++ (right ++ after)))
      (inkedLines (head' ++ (right' ++ after))) := by
  obtain ⟨first, rest, hafter⟩ :=
    List.exists_cons_of_ne_nil (List.splitOnP_ne_nil Text.isBreak after)
  have hline := bracketed_append hhead (right ++ first)
  have hline' := bracketed_append hhead' (right' ++ first)
  have hinked := (isInked_of_bracketed hline').trans (isInked_of_bracketed hline).symm
  have hrest := SameInk.intro first hright (List.forall_mem_nil _) hright' (List.forall_mem_nil _)
  rw [List.append_nil] at hrest
  rw [inkedLines_eq, inkedLines_eq, ← List.append_assoc, ← List.append_assoc,
    splitOnP_line_append hone hafter, splitOnP_line_append hone' hafter, List.append_assoc,
    List.append_assoc]
  exact forall₂_alike_of_line hinked (.counts hline hline' hrest) [] rest

/-- **A change of layout leaves the lines alike.** -/
theorem Relaid.forall₂_alike {text text' : List Char} (h : Relaid text text') :
    List.Forall₂ Alike (inkedLines text) (inkedLines text') := by
  cases h with
  | front hgap => exact forall₂_alike_front hgap text
  | back hgap => exact forall₂_alike_back hgap text
  | lineEnd hleft hbreak hright => exact forall₂_alike_lineEnd hleft hbreak hright _ _
  | brackets hstart hhead hhead' hright hright' hone hone' =>
      rename_i before head head' right right' after runs
      have halike := forall₂_alike_brackets hhead hhead' hright hright' hone hone' after
      rcases List.eq_nil_or_concat before with rfl | ⟨before, c, rfl⟩
      · exact halike
      · have hc : Text.isBreak c := by
          rw [List.concat_eq_append, List.getLast?_concat] at hstart
          exact hstart c rfl
        rw [List.concat_append, List.concat_append, inkedLines_append_break hc,
          inkedLines_append_break hc]
        exact List.rel_append (List.forall₂_same.mpr fun line _ => .refl line) halike

/-! ### How far changes lead -/

/-- The lines of a text that are not blank, without the blanks at their ends. -/
def contents (text : List Char) : List (List Char) := (inkedLines text).map Text.strip

theorem isBlank_of_isBreak {c : Char} (h : Text.isBreak c) : Text.isBlank c := by
  simp only [Text.isBreak, Text.isBlank, Bool.or_eq_true, Bool.and_eq_true, decide_eq_true_eq,
    beq_iff_eq] at h ⊢
  omega

/-- What is stripped of a text are the blanks at its ends. -/
theorem exists_strip (cs : List Char) :
    ∃ front back, Blank front ∧ Blank back ∧ cs = front ++ (Text.strip cs ++ back) := by
  refine ⟨cs.takeWhile Text.isBlank,
    ((cs.dropWhile Text.isBlank).reverse.takeWhile Text.isBlank).reverse,
    fun _ => List.mem_takeWhile_imp,
    fun _ hc => List.mem_takeWhile_imp (List.mem_reverse.mp hc), ?_⟩
  rw [Text.strip, Text.stripWith, ← List.reverse_append, List.takeWhile_append_dropWhile,
    List.reverse_reverse, List.takeWhile_append_dropWhile]

/-- A change behind a line end is a change of the whole text. -/
theorem Relaid.behind {text text' : List Char} (h : Relaid text text') (line : List Char) :
    Relaid (line ++ '\n' :: text) (line ++ '\n' :: text') := by
  cases h with
  | front hgap => exact .lineEnd (List.forall_mem_nil _) rfl hgap
  | @back gap _ hgap =>
      have h : Relaid (line ++ '\n' :: text) (line ++ '\n' :: text ++ gap) := .back hgap
      rwa [List.append_assoc, List.cons_append] at h
  | @lineEnd before left right after c hleft hbreak hright =>
      have h : Relaid (line ++ '\n' :: before ++ '\n' :: after)
          (line ++ '\n' :: before ++ (left ++ c :: (right ++ after))) :=
        .lineEnd hleft hbreak hright
      rwa [List.append_assoc, List.cons_append, List.append_assoc, List.cons_append] at h
  | brackets hstart hhead hhead' hright hright' hone hone' =>
      rename_i before head head' right right' after runs
      have hstart' : ∀ c ∈ (line ++ '\n' :: before).getLast?, Text.isBreak c := by
        rw [List.getLast?_append_of_ne_nil _ (List.cons_ne_nil _ _)]
        cases before with
        | nil =>
            rintro _ ⟨⟩
            rfl
        | cons b before => rwa [List.getLast?_cons_cons]
      have h : Relaid (line ++ '\n' :: before ++ (head ++ (right ++ after)))
          (line ++ '\n' :: before ++ (head' ++ (right' ++ after))) :=
        .brackets hstart' hhead hhead' hright hright' hone hone'
      rwa [List.append_assoc, List.cons_append, List.append_assoc, List.cons_append] at h

theorem eqvGen_behind {text text' : List Char} (h : Relation.EqvGen Relaid text text')
    (line : List Char) : Relation.EqvGen Relaid (line ++ '\n' :: text) (line ++ '\n' :: text') := by
  induction h with
  | rel _ _ h => exact .rel _ _ (h.behind line)
  | refl => exact .refl _
  | symm _ _ _ ih => exact .symm _ _ ih
  | trans _ _ _ _ _ ih ih' => exact .trans _ _ _ ih ih'

/-- A line with blanks at its ends, before a line end of any kind. -/
theorem eqvGen_line {front back : List Char} {c : Char} (hfront : Blank front) (hback : Blank back)
    (hc : Text.isBreak c) (core rest : List Char) :
    Relation.EqvGen Relaid (core ++ '\n' :: rest) (front ++ (core ++ back) ++ c :: rest) := by
  have hend : Relaid (core ++ '\n' :: rest) (core ++ (back ++ c :: ([] ++ rest))) :=
    .lineEnd hback hc (List.forall_mem_nil _)
  have hstart : Relaid (core ++ (back ++ c :: ([] ++ rest)))
      (front ++ (core ++ (back ++ c :: ([] ++ rest)))) := .front hfront
  rw [List.append_assoc, List.append_assoc]
  exact .trans _ _ _ (.rel _ _ hend) (.rel _ _ hstart)

/-- A line above others is a line with a line end, even where there are no others. -/
theorem eqvGen_intercalate_cons (line : List Char) (lines : List (List Char)) :
    Relation.EqvGen Relaid (['\n'].intercalate (line :: lines))
      (line ++ '\n' :: ['\n'].intercalate lines) := by
  cases lines with
  | nil =>
      rw [List.intercalate_singleton]
      exact .rel _ _ (.back (by decide))
  | cons line' lines =>
      rw [List.intercalate_cons_cons, List.append_assoc]
      exact .refl _

theorem contents_append_break {c : Char} (hc : Text.isBreak c) (before after : List Char) :
    contents (before ++ c :: after) = contents before ++ contents after := by
  rw [contents, inkedLines_append_break hc, List.map_append, contents, contents]

theorem contents_line {line : List Char} (hone : ∀ c ∈ line, ¬ Text.isBreak c) :
    contents line = if isInked line then [Text.strip line] else [] := by
  have hpieces : line.splitOnP Text.isBreak = [line] :=
    List.splitOnP_eq_singleton fun c hc => Bool.eq_false_iff.mpr (hone c hc)
  rw [contents, inkedLines_eq, hpieces, List.filter_cons, List.filter_nil]
  split_ifs <;> rfl

/-- A line is what is left of it, but for its layout. -/
theorem eqvGen_contents_line {line : List Char} (hone : ∀ c ∈ line, ¬ Text.isBreak c) :
    Relation.EqvGen Relaid (['\n'].intercalate (contents line)) line := by
  rw [contents_line hone]
  split_ifs with hinked
  · obtain ⟨front, back, hfront, hback, hline⟩ := exists_strip line
    have hend : Relaid (Text.strip line) (Text.strip line ++ back) := .back hback
    have hstart : Relaid (Text.strip line ++ back) (front ++ (Text.strip line ++ back)) :=
      .front hfront
    rw [← hline] at hstart
    rw [List.intercalate_singleton]
    exact .trans _ _ _ (.rel _ _ hend) (.rel _ _ hstart)
  · have hblank : Blank line := isInked_eq_false_iff.mp (Bool.eq_false_iff.mpr hinked)
    have h : Relaid [] ([] ++ line) := .back hblank
    exact .rel _ _ h

/-- A text is what is left of its lines, one below the other, but for its layout. -/
theorem eqvGen_contents (text : List Char) :
    Relation.EqvGen Relaid (['\n'].intercalate (contents text)) text := by
  have htext : text.takeWhile (!Text.isBreak ·) ++ text.dropWhile (!Text.isBreak ·) = text :=
    List.takeWhile_append_dropWhile
  have hone : ∀ c ∈ text.takeWhile (!Text.isBreak ·), ¬ Text.isBreak c := fun c hc => by
    simpa using List.mem_takeWhile_imp hc
  generalize text.takeWhile (!Text.isBreak ·) = line at htext hone
  cases hbehind : text.dropWhile (!Text.isBreak ·) with
  | nil =>
      rw [hbehind, List.append_nil] at htext
      exact htext ▸ eqvGen_contents_line hone
  | cons c rest =>
      have hc : Text.isBreak c := by
        have hmem : c ∈ (text.dropWhile (!Text.isBreak ·)).head? := by rw [hbehind]; rfl
        simpa using eq_false_of_mem_head?_dropWhile hmem
      rw [hbehind] at htext
      have hlength : rest.length < text.length := by
        rw [← htext, List.length_append, List.length_cons]
        omega
      have ih := eqvGen_contents rest
      rw [← htext, contents_append_break hc, contents_line hone]
      split_ifs with hinked
      · obtain ⟨front, back, hfront, hback, hline⟩ := exists_strip line
        refine .trans _ _ _ (eqvGen_intercalate_cons _ _) (.trans _ _ _ (eqvGen_behind ih _) ?_)
        have h := eqvGen_line hfront hback hc (Text.strip line) rest
        rwa [← hline] at h
      · have hblank : Blank (line ++ [c]) :=
          List.forall_mem_append.mpr ⟨isInked_eq_false_iff.mp (Bool.eq_false_iff.mpr hinked),
            List.forall_mem_singleton.mpr (isBlank_of_isBreak hc)⟩
        rw [List.nil_append, List.append_cons]
        exact .trans _ _ _ ih (.rel _ _ (.front hblank))
termination_by text.length

/-- **Changes of layout lead to every text of the same lines**, blank lines apart and the blanks at
the ends of lines. -/
theorem relaid_of_contents_eq {text text' : List Char} (h : contents text = contents text') :
    Relation.EqvGen Relaid text text' :=
  .trans _ _ _ (.symm _ _ (eqvGen_contents text)) (h ▸ eqvGen_contents text')

/-! ### Lines that are alike are read alike -/

variable {o : Options} {totals : List Int} {preceded : Bool} {line line' : NumberedLine}
  {lines lines' : List NumberedLine}

/-- What the refusal of a text says. -/
def Refusal.gist : Refusal → Gist
  | .unsettled faults => .unsettled faults
  | .refused e => e.gist

/-- Numbered lines that are laid out alike. -/
def AlikeAt (line line' : NumberedLine) : Prop := Alike line.text line'.text

theorem readRules_alike (h : List.Forall₂ AlikeAt lines lines') :
    EndsLike ListingError.gist Eq (readRules o totals preceded lines).outcome
      (readRules o totals preceded lines').outcome := by
  induction h generalizing totals preceded with
  | nil => exact .refl _
  | @cons line line' lines lines' hline _ ih =>
      have hread := hline.headedAlike.read
      generalize hx : Line.read line.text = x at hread
      generalize hy : Line.read line'.text = y at hread
      cases hread with
      | error he =>
          rw [readRules_of_error hx, readRules_of_error hy]
          exact .error (by rw [ListingError.gist_ofLine, ListingError.gist_ofLine, he])
      | @ok content content' hcontent =>
          subst hcontent
          cases hantecedent : content.antecedent with
          | always =>
              rw [readRules_of_always hx hantecedent, readRules_of_always hy hantecedent]
              split_ifs
              · exact .error rfl
              · exact .ok rfl
          | clauses clauses =>
              by_cases hwidth : content.distribution.length = totals.length
              · have hfits : Fits totals [⟨line, content, clauses⟩] ↔
                    Fits totals [⟨line', content, clauses⟩] :=
                  (fits_singleton hwidth).trans (fits_singleton hwidth).symm
                rw [readRules_of_clauses hx hantecedent hwidth,
                  readRules_of_clauses hy hantecedent hwidth]
                simp only [hfits]
                split_ifs
                · exact .error rfl
                · exact ih.map fun found _ heq => heq ▸ rfl
              · rw [readRules_of_width hx hantecedent hwidth,
                  readRules_of_width hy hantecedent hwidth]
                exact .error rfl

/-- The last lines of lines that are alike are alike. -/
theorem getLast?_alike (h : List.Forall₂ AlikeAt lines lines') :
    (lines.getLast? = none ∧ lines'.getLast? = none) ∨ ∃ last last', lines.getLast? = some last ∧
      lines'.getLast? = some last' ∧ AlikeAt last last' := by
  rw [← List.forall₂_reverse_iff] at h
  rw [← List.head?_reverse, ← List.head?_reverse]
  generalize lines.reverse = ls at h ⊢
  generalize lines'.reverse = ls' at h ⊢
  cases h with
  | nil => exact .inl ⟨rfl, rfl⟩
  | cons hlast _ => exact .inr ⟨_, _, rfl, rfl, hlast⟩

/-- Texts of which the lines are alike are read alike. -/
theorem read_alike {text text' : List Char}
    (h : List.Forall₂ AlikeAt (numberedLines text) (numberedLines text')) :
    EndsLike ListingError.gist Eq (read o text).outcome (read o text').outcome := by
  unfold read
  rcases getLast?_alike h with ⟨hlast, hlast'⟩ | ⟨last, last', hlast, hlast', halike⟩
  · simp only [hlast, hlast']
    exact .error rfl
  · simp only [hlast, hlast', Traced.outcome_bind, Traced.outcome_ofExcept]
    refine (halike.headedAlike.readTotals.mapError fun e e' he => ?_).bind
      fun totals totals' _ _ heq => ?_
    · rw [ListingError.gist_ofLine, ListingError.gist_ofLine, he]
    subst heq
    refine (readRules_alike h).bind fun found found' _ _ heq => ?_
    subst heq
    exact .refl _

/-- **Layout does not matter.**  Texts that differ in their layout alone are read as the same model,
or refused for the same reason. -/
theorem Request.read_relaid (r : Request) (defaults : Except (List Settings.Fault) Settings)
    {text text' : List Char} (h : Relation.EqvGen Relaid text text') :
    EndsLike Refusal.gist Eq (r.read defaults text).outcome (r.read defaults text').outcome := by
  induction h with
  | rel text text' h =>
      have hlines : List.Forall₂ AlikeAt (numberedLines text) (numberedLines text') := by
        have halike := h.forall₂_alike
        rwa [← map_text_numberedLines, ← map_text_numberedLines, List.forall₂_map_left_iff,
          List.forall₂_map_right_iff] at halike
      unfold Request.read
      rw [Traced.outcome_bind, Traced.outcome_bind]
      refine (EndsLike.refl _).bind fun o o' _ _ heq => ?_
      subst heq
      exact (read_alike hlines).mapError fun e e' he => he
  | refl => exact .refl _
  | symm _ _ _ ih => exact ih.symm
  | trans _ _ _ _ _ ih ih' => exact ih.trans ih'

/-- A rule and a default line. -/
def plainText : List Char :=
  "[2,0] IF x>=1.0 THEN y=A -0.0\n[2,3] IF TRUE THEN y=B -1.0".toList

/-- The same with blanks, blank lines and another line end. -/
def raggedText : List Char :=
  "\n [2,0] IF x>=1.0 THEN y=A -0.0 \r\n\u000b[ 2 ,3 ]IF TRUE THEN y=B -1.0\t\n".toList

/-- Every kind of change leads from the one to the other. -/
theorem Request.read_relaid_raggedText :
    Relation.EqvGen Relaid plainText raggedText ∧
    ∃ m, (Request.read ⟨false, some true, id⟩ (.ok .default) plainText).outcome = .ok m ∧
      (Request.read ⟨false, some true, id⟩ (.ok .default) raggedText).outcome = .ok m := by
  have hbracketed {line : List Char} (h : (Token.readBrackets line).map (fun k =>
      (Token.countTexts k.tokens, k.rest)) = .ok ([['2'], ['3']], [])) :
      Bracketed line [['2'], ['3']] [] := by
    obtain ⟨k, hk, heq⟩ := Except.map_eq_ok_iff.mp h
    obtain ⟨hruns, hrest⟩ := Prod.mk.inj heq
    exact hruns ▸ hrest ▸ (Token.bracketed_of_readBrackets hk).1
  have hstart : ∀ c ∈ "[2,0] IF x>=1.0 THEN y=A -0.0\n".toList.getLast?, Text.isBreak c := by
    have hlast : "[2,0] IF x>=1.0 THEN y=A -0.0\n".toList.getLast? = some '\n' := by decide
    rw [hlast]
    rintro _ ⟨⟩
    rfl
  have hbrackets : Relaid
      ("[2,0] IF x>=1.0 THEN y=A -0.0\n".toList ++
        ("[2,3]".toList ++ (" ".toList ++ "IF TRUE THEN y=B -1.0".toList)))
      ("[2,0] IF x>=1.0 THEN y=A -0.0\n".toList ++
        ("[ 2 ,3 ]".toList ++ ("".toList ++ "IF TRUE THEN y=B -1.0".toList))) :=
    .brackets hstart (hbracketed (by decide +kernel)) (hbracketed (by decide +kernel))
      (by decide) (by decide) (by decide) (by decide)
  have hlineEnd : Relaid
      ("[2,0] IF x>=1.0 THEN y=A -0.0".toList ++ '\n' :: "[ 2 ,3 ]IF TRUE THEN y=B -1.0".toList)
      ("[2,0] IF x>=1.0 THEN y=A -0.0".toList ++ (" ".toList ++ '\r' :: ("\n\u000b".toList ++
        "[ 2 ,3 ]IF TRUE THEN y=B -1.0".toList))) :=
    .lineEnd (by decide) (by decide) (by decide)
  have hfront : Relaid
      ("[2,0] IF x>=1.0 THEN y=A -0.0 \r\n\u000b[ 2 ,3 ]IF TRUE THEN y=B -1.0".toList)
      ("\n ".toList ++
        "[2,0] IF x>=1.0 THEN y=A -0.0 \r\n\u000b[ 2 ,3 ]IF TRUE THEN y=B -1.0".toList) :=
    .front (by decide)
  have hback : Relaid
      ("\n [2,0] IF x>=1.0 THEN y=A -0.0 \r\n\u000b[ 2 ,3 ]IF TRUE THEN y=B -1.0".toList)
      ("\n [2,0] IF x>=1.0 THEN y=A -0.0 \r\n\u000b[ 2 ,3 ]IF TRUE THEN y=B -1.0".toList ++
        "\t\n".toList) :=
    .back (by decide)
  have hchain {text middle middle' text' : List Char} (h : Relation.EqvGen Relaid text middle)
      (heq : middle = middle') (h' : Relaid middle' text') : Relation.EqvGen Relaid text text' :=
    .trans _ _ _ (heq ▸ h) (.rel _ _ h')
  have hrelaid : Relation.EqvGen Relaid plainText raggedText := by
    have h := hchain (.refl plainText) (by decide +kernel) hbrackets
    have h := hchain (hchain h (by decide +kernel) hlineEnd) (by decide +kernel) hfront
    have h := hchain h (by decide +kernel) hback
    have hragged :
        "\n [2,0] IF x>=1.0 THEN y=A -0.0 \r\n\u000b[ 2 ,3 ]IF TRUE THEN y=B -1.0".toList ++
          "\t\n".toList = raggedText := by
      decide +kernel
    rwa [hragged] at h
  obtain ⟨m, hm⟩ := Except.isOk_iff.mp (show
    (Request.read ⟨false, some true, id⟩ (.ok .default) plainText).outcome.isOk = true by
      decide +kernel)
  refine ⟨hrelaid, m, hm, ?_⟩
  have halike := read_relaid ⟨false, some true, id⟩ (.ok .default) hrelaid
  rw [hm] at halike
  generalize (Request.read _ _ raggedText).outcome = read at halike
  cases halike with
  | ok h => rw [h]

end Rulebook.Listing
