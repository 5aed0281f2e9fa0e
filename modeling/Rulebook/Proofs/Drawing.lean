import Mathlib.Data.List.Forall2
import Rulebook.Model.Text
import Rulebook.Proofs.Lines
import Rulebook.Proofs.Nesting

/-!
# Models — what a drawing shows

A model is drawn by drawing what is nested in it and moving the rows of that behind marks.  Nothing
is lost by this: if no antecedent and no outcome has a line break in it, the rows of a drawing can
be taken apart again.  The first of them tells the kind of the model, and the rows of a part end
where a row no longer has the mark that continues them, which neither the next rule nor the last
part begins with.  What the texts behind the marks are does not matter; an outcome may be empty or
look like a part of a drawing.

* `Model.SameOutline`: two models with the same shape, the same texts of antecedents and the same
  texts of outcomes.
* `Model.toText_eq_iff_sameOutline`: two models are drawn alike exactly if they have one outline.
-/

namespace Rulebook.Model

/-- Constants, branches and decision lists, nested in any way, without a line break in the texts of
the antecedents and outcomes.  Rules are there as members of the lists only. -/
inductive Drawable : Model → Prop
  | constant (info : Info) {v : Value} (hv : Text.Unbroken v.toText) : Drawable (.constant info v)
  | branch (info : Info) {f : Formula} {positive negative : Model}
      (hf : Text.Unbroken f.toText) (hpositive : Drawable positive)
      (hnegative : Drawable negative) : Drawable (.branch info f positive negative)
  | decisionList (info : Info) {rules : List Rule} {default : Model}
      (hrules : ∀ r ∈ rules, Text.Unbroken r.antecedent.toText)
      (hconsequents : ∀ r ∈ rules, Drawable r.consequent) (hdefault : Drawable default) :
      Drawable (.decisionList info rules default)

/-- Two models have the same shape, and at each place antecedents or outcomes with the same text. -/
inductive SameOutline : Model → Model → Prop
  | constant (info info' : Info) {v v' : Value} (hv : v.toText = v'.toText) :
      SameOutline (.constant info v) (.constant info' v')
  | branch (info info' : Info) {f f' : Formula} {positive positive' negative negative' : Model}
      (hf : f.toText = f'.toText) (hpositive : SameOutline positive positive')
      (hnegative : SameOutline negative negative') :
      SameOutline (.branch info f positive negative) (.branch info' f' positive' negative')
  | decisionList (info info' : Info) {rules rules' : List Rule} {default default' : Model}
      (hrules : rules.map (·.antecedent.toText) = rules'.map (·.antecedent.toText))
      (hconsequents :
        List.Forall₂ (fun r r' => SameOutline r.consequent r'.consequent) rules rules')
      (hdefault : SameOutline default default') :
      SameOutline (.decisionList info rules default) (.decisionList info' rules' default')

/-! ### Rows -/

/-- The rows of a text: its lines, and of the empty text one. -/
def rows (text : String) : List String :=
  match Text.lines text with
  | [] => [""]
  | line :: lines => line :: lines

theorem rows_of_unbroken {text : String} (h : Text.Unbroken text) : rows text = [text] := by
  by_cases hempty : text = ""
  · subst hempty; rfl
  · rw [rows, Text.lines_of_unbroken h hempty]

theorem unbroken_of_mem_rows {text row : String} (h : row ∈ rows text) : Text.Unbroken row := by
  unfold rows at h
  split at h
  · obtain rfl := List.mem_singleton.mp h
    decide
  · next hlines => exact Text.unbroken_of_mem_lines (hlines ▸ h)

/-- A row that something stands on. -/
structure IsRow (row : String) : Prop where
  unbroken : Text.Unbroken row
  nonempty : row ≠ ""

instance (row : String) : Decidable (IsRow row) :=
  decidable_of_iff (Text.Unbroken row ∧ row ≠ "")
    ⟨fun h => ⟨h.1, h.2⟩, fun h => ⟨h.unbroken, h.nonempty⟩⟩

theorem IsRow.append {s t : String} (hs : IsRow s) (ht : Text.Unbroken t) : IsRow (s ++ t) :=
  ⟨Text.unbroken_append hs.unbroken ht, fun h => hs.nonempty (String.append_eq_empty_iff.mp h).1⟩

/-- Rows that something stands on, one below the other. -/
theorem rows_intercalate {row : String} {rs : List String} (h : ∀ r ∈ row :: rs, IsRow r) :
    rows (String.intercalate "\n" (row :: rs)) = row :: rs := by
  have hlines : Text.lines (String.intercalate "\n" (row :: rs)) = row :: rs :=
    Text.lines_intercalate (fun r hr => (h r hr).unbroken)
      fun hlast => (h "" (List.mem_of_getLast? hlast)).nonempty rfl
  rw [rows, hlines]

/-! ### Rows behind marks -/

section Marked

variable {head tail : String} {rs rs' rest rest' : List String}

/-- The rows of a text behind a mark: `head` before the first of them, `tail` before the others. -/
theorem exists_indent_eq (head tail text : String) :
    ∃ row rs, rows text = row :: rs ∧
      indent head tail text = (head ++ row) :: rs.map (tail ++ ·) := by
  unfold indent rows
  cases Text.lines text with
  | nil => exact ⟨"", [], rfl, congrArg ([·]) String.append_empty.symm⟩
  | cons line lines => exact ⟨line, lines, rfl, rfl⟩

theorem isRow_of_mem_indent {text row : String} (hhead : IsRow head) (htail : IsRow tail)
    (h : row ∈ indent head tail text) : IsRow row := by
  obtain ⟨first, others, hrows, hindent⟩ := exists_indent_eq head tail text
  have hunbroken : ∀ r ∈ first :: others, Text.Unbroken r :=
    fun r hr => unbroken_of_mem_rows (hrows ▸ hr)
  rw [hindent] at h
  obtain rfl | h := List.mem_cons.mp h
  · exact hhead.append (hunbroken first List.mem_cons_self)
  · obtain ⟨r, hr, rfl⟩ := List.mem_map.mp h
    exact htail.append (hunbroken r (List.mem_cons_of_mem _ hr))

/-- What follows some rows does not begin with the mark that continues them. -/
def Ends (tail : String) (rest : List String) : Prop := ∀ row, rest.head? ≠ some (tail ++ row)

theorem map_append_inj (hrest : Ends tail rest) (hrest' : Ends tail rest')
    (h : rs.map (tail ++ ·) ++ rest = rs'.map (tail ++ ·) ++ rest') : rs = rs' ∧ rest = rest' := by
  induction rs generalizing rs' with
  | nil =>
      cases rs' with
      | nil => exact ⟨rfl, h⟩
      | cons row' rs' => exact absurd (congrArg List.head? h) (hrest row')
  | cons row rs ih =>
      cases rs' with
      | nil => exact absurd (congrArg List.head? h).symm (hrest' row)
      | cons row' rs' =>
          obtain ⟨hrow, hrs⟩ := List.cons.inj h
          obtain ⟨rfl, hrest⟩ := ih hrs
          exact ⟨by rw [(String.append_right_inj tail).mp hrow], hrest⟩

/-- **Indented rows can be taken back.** -/
theorem indent_append_inj {text text' : String} (hrest : Ends tail rest) (hrest' : Ends tail rest')
    (h : indent head tail text ++ rest = indent head tail text' ++ rest') :
    rows text = rows text' ∧ rest = rest' := by
  obtain ⟨row, rs, hrows, hindent⟩ := exists_indent_eq head tail text
  obtain ⟨row', rs', hrows', hindent'⟩ := exists_indent_eq head tail text'
  rw [hindent, hindent'] at h
  rw [hrows, hrows']
  obtain ⟨hrow, hrs⟩ := List.cons.inj h
  obtain ⟨rfl, hrest⟩ := map_append_inj hrest hrest' hrs
  exact ⟨by rw [(String.append_right_inj head).mp hrow], hrest⟩

theorem ends_nil : Ends tail [] := fun _ => nofun

theorem indent_inj {text text' : String} (h : indent head tail text = indent head tail text') :
    rows text = rows text' :=
  (indent_append_inj ends_nil ends_nil (congrArg (· ++ []) h)).1

end Marked

/-! ### Texts that begin differently -/

/-- Texts with different first characters differ, whatever follows. -/
theorem append_ne_append {s t : String} {c d : Char} (hs : s.toList.head? = some c)
    (ht : t.toList.head? = some d) (hne : c ≠ d) (a b : String) : s ++ a ≠ t ++ b := by
  intro h
  have hhead := congrArg (·.toList.head?) h
  simp only [String.toList_append, List.head?_append, hs, ht, Option.some_or] at hhead
  exact hne (Option.some.inj hhead)

/-! ### Drawings of one kind -/

section Kinds

variable {info info' : Info} {f f' : Formula} {positive positive' negative negative' : Model}
  {rules rules' : List Rule} {default default' : Model} {position count count' : Nat}
  {text text' : String}

theorem rows_branch (hf : Text.Unbroken f.toText) :
    rows (Model.toText (.branch info f positive negative)) =
      ("┐" ++ f.toText) :: (indent "├✔ " "│  " positive.toText ++
        indent "└✘ " "   " negative.toText) := by
  refine rows_intercalate (List.forall_mem_cons.mpr ⟨?_, fun row hrow => ?_⟩)
  · exact IsRow.append (by decide) hf
  · obtain hrow | hrow := List.mem_append.mp hrow
    · exact isRow_of_mem_indent (by decide) (by decide) hrow
    · exact isRow_of_mem_indent (by decide) (by decide) hrow

/-- The row of a rule, with the text of its antecedent. -/
def ruleHeader (position count : Nat) (antecedent : String) : String :=
  "├[" ++ toString position ++ "/" ++ toString count ++ "]┐" ++ antecedent

theorem ruleLines_cons (r : Rule) :
    ruleLines position count (r :: rules) = ruleHeader position count r.antecedent.toText ::
      (indent "│└ " "│  " r.consequent.toText ++ ruleLines (position + 1) count rules) := rfl

theorem isDigit_of_mem_toString {n : Nat} {c : Char} (h : c ∈ (toString n).toList) :
    c.isDigit = true := by
  rw [Nat.toString_eq_repr, Nat.repr_eq_ofList_toDigits, String.toList_ofList] at h
  exact Nat.isDigit_of_mem_toDigits (by decide) (by decide) h

theorem unbroken_toString (n : Nat) : Text.Unbroken (toString n) := by
  intro c hc
  have hdigit := isDigit_of_mem_toString hc
  simp only [Char.isDigit, Bool.and_eq_true, decide_eq_true_eq] at hdigit
  have hlow : 0x30 ≤ c.toNat := hdigit.1
  have hhigh : c.toNat ≤ 0x39 := hdigit.2
  simp only [Text.isBreak, Bool.or_eq_false_iff, Bool.and_eq_false_iff, decide_eq_false_iff_not,
    beq_eq_false_iff_ne]
  omega

theorem isRow_ruleHeader {antecedent : String} (h : Text.Unbroken antecedent) :
    IsRow (ruleHeader position count antecedent) := by
  have hmark : IsRow "├[" := by decide
  have hslash : Text.Unbroken "/" := by decide
  have hclose : Text.Unbroken "]┐" := by decide
  exact ((((hmark.append (unbroken_toString position)).append hslash).append
    (unbroken_toString count)).append hclose).append h

/-- The counts are digits, so the antecedent begins where they end. -/
theorem ruleHeader_inj {antecedent antecedent' : String}
    (h : ruleHeader position count antecedent = ruleHeader position count' antecedent') :
    antecedent = antecedent' := by
  simp only [ruleHeader, String.append_assoc, String.append_right_inj] at h
  have hcut (count : Nat) (antecedent : String) :
      (toString count ++ ("]┐" ++ antecedent)).toList.dropWhile Char.isDigit =
        ("]┐" ++ antecedent).toList := by
    rw [String.toList_append,
      List.dropWhile_append_of_pos fun c hc => isDigit_of_mem_toString hc, String.toList_append]
    rfl
  have htail := congrArg (·.toList.dropWhile Char.isDigit) h
  simp only [hcut, String.toList_inj, String.append_right_inj] at htail
  exact htail

theorem isRow_of_mem_ruleLines {row : String}
    (h : ∀ r ∈ rules, Text.Unbroken r.antecedent.toText)
    (hrow : row ∈ ruleLines position count rules) : IsRow row := by
  induction rules generalizing position with
  | nil => cases hrow
  | cons r rules ih =>
      obtain ⟨hr, hrules⟩ := List.forall_mem_cons.mp h
      rw [ruleLines_cons] at hrow
      obtain rfl | hrow := List.mem_cons.mp hrow
      · exact isRow_ruleHeader hr
      · obtain hrow | hrow := List.mem_append.mp hrow
        · exact isRow_of_mem_indent (by decide) (by decide) hrow
        · exact ih hrules hrow

theorem rows_decisionList (h : ∀ r ∈ rules, Text.Unbroken r.antecedent.toText) :
    rows (Model.toText (.decisionList info rules default)) =
      "▣" :: (ruleLines 1 rules.length rules ++ indent "└✘ " "   " default.toText) := by
  refine rows_intercalate (List.forall_mem_cons.mpr ⟨by decide, fun row hrow => ?_⟩)
  obtain hrow | hrow := List.mem_append.mp hrow
  · exact isRow_of_mem_ruleLines h hrow
  · exact isRow_of_mem_indent (by decide) (by decide) hrow

/-! ### Rules that are drawn alike -/

theorem ruleHeader_ne_append {antecedent s row : String} {c : Char}
    (hs : s.toList.head? = some c) (hne : '├' ≠ c) :
    ruleHeader position count antecedent ≠ s ++ row := by
  simp only [ruleHeader, String.append_assoc]
  exact append_ne_append rfl hs hne _ _

/-- The last part of a branch and of a list does not go on with the part before it. -/
theorem ends_indent : Ends "│  " (indent "└✘ " "   " text) := by
  obtain ⟨row, rs, -, hrow⟩ := exists_indent_eq "└✘ " "   " text
  rw [hrow]
  exact fun row' h => append_ne_append rfl rfl (by decide) row row' (Option.some.inj h)

theorem ends_ruleLines :
    Ends "│  " (ruleLines position count rules ++ indent "└✘ " "   " text) := by
  cases rules with
  | nil => exact ends_indent
  | cons r rules =>
      exact fun row' h => ruleHeader_ne_append rfl (by decide) (Option.some.inj h)

/-- **The rows of a list are those of its rules and of its default.**  The induction is on the
rules; where those of one list end, the other goes on with its default as well. -/
theorem ruleLines_inj
    (h : ruleLines position count rules ++ indent "└✘ " "   " text =
      ruleLines position count' rules' ++ indent "└✘ " "   " text') :
    rules.map (·.antecedent.toText) = rules'.map (·.antecedent.toText) ∧
      List.Forall₂ (fun r r' => rows r.consequent.toText = rows r'.consequent.toText) rules rules' ∧
      rows text = rows text' := by
  induction rules generalizing position rules' with
  | nil =>
      cases rules' with
      | nil => exact ⟨rfl, .nil, indent_inj h⟩
      | cons r' rules' =>
          obtain ⟨row, rs, -, hrow⟩ := exists_indent_eq "└✘ " "   " text
          rw [ruleLines, List.nil_append, hrow] at h
          exact absurd (List.cons.inj h).1.symm (ruleHeader_ne_append rfl (by decide))
  | cons r rules ih =>
      cases rules' with
      | nil =>
          obtain ⟨row, rs, -, hrow⟩ := exists_indent_eq "└✘ " "   " text'
          rw [ruleLines, List.nil_append, hrow] at h
          exact absurd (List.cons.inj h).1 (ruleHeader_ne_append rfl (by decide))
      | cons r' rules' =>
          rw [ruleLines_cons, ruleLines_cons, List.cons_append, List.cons_append,
            List.append_assoc, List.append_assoc] at h
          obtain ⟨hheader, hrows⟩ := List.cons.inj h
          obtain ⟨hconsequent, hrest⟩ := indent_append_inj ends_ruleLines ends_ruleLines hrows
          obtain ⟨hantecedents, hconsequents, hdefault⟩ := ih hrest
          refine ⟨?_, .cons hconsequent hconsequents, hdefault⟩
          rw [List.map_cons, List.map_cons, ruleHeader_inj hheader, hantecedents]

theorem ruleLines_congr
    (hantecedents : rules.map (·.antecedent.toText) = rules'.map (·.antecedent.toText))
    (hconsequents : List.Forall₂ (fun r r' => r.consequent.toText = r'.consequent.toText)
      rules rules') : ruleLines position count rules = ruleLines position count rules' := by
  induction hconsequents generalizing position with
  | nil => rfl
  | cons hconsequent _ ih =>
      simp only [List.map_cons, List.cons.injEq] at hantecedents
      rw [ruleLines_cons, ruleLines_cons, hantecedents.1, hconsequent, ih hantecedents.2]

end Kinds

/-! ### Models that are drawn alike -/

section Models

variable {m n : Model}

/-- The kind of model that some rows show: only a constant has one row, and the first row of a list
has no antecedent in it. -/
def kindOfRows : List String → Kind
  | first :: _ :: _ => if first = "▣" then .decisionList else .branch
  | _ => .constant

theorem kindOfRows_append_indent {first head tail text : String} {rs : List String} :
    kindOfRows (first :: (rs ++ indent head tail text)) =
      if first = "▣" then .decisionList else .branch := by
  obtain ⟨row, others, -, hrow⟩ := exists_indent_eq head tail text
  obtain ⟨second, more, hsecond⟩ :=
    List.exists_cons_of_ne_nil (List.append_ne_nil_of_right_ne_nil rs (hrow ▸ List.cons_ne_nil _ _))
  rw [hsecond, kindOfRows]

theorem kindOfRows_toText (hm : Drawable m) : kindOfRows (rows m.toText) = m.kind := by
  cases hm with
  | constant info hv =>
      rw [Model.toText, rows_of_unbroken hv]
      rfl
  | @branch info f positive negative hf hpositive hnegative =>
      rw [rows_branch hf, kindOfRows_append_indent, if_neg]
      · rfl
      · simpa using append_ne_append rfl rfl (by decide) f.toText ""
  | decisionList info hrules hconsequents hdefault =>
      rw [rows_decisionList hrules, kindOfRows_append_indent, if_pos rfl]
      rfl

theorem kind_eq_of_rows_eq (hm : Drawable m) (hn : Drawable n)
    (h : rows m.toText = rows n.toText) : m.kind = n.kind := by
  rw [← kindOfRows_toText hm, ← kindOfRows_toText hn, h]

theorem sameOutline_of_rows_eq (hm : Drawable m) (hn : Drawable n)
    (h : rows m.toText = rows n.toText) : SameOutline m n := by
  induction m generalizing n with
  | constant info v =>
      have hkind := kind_eq_of_rows_eq hm hn h
      cases hm with | constant _ hv
      cases hn with
      | constant info' hv' =>
          rw [Model.toText, Model.toText, rows_of_unbroken hv, rows_of_unbroken hv'] at h
          exact .constant info info' (List.cons.inj h).1
      | branch | decisionList => cases hkind
  | branch info f positive negative ihp ihn =>
      have hkind := kind_eq_of_rows_eq hm hn h
      cases hm with | branch _ hf hpositive hnegative
      cases hn with
      | branch info' hf' hpositive' hnegative' =>
          rw [rows_branch hf, rows_branch hf'] at h
          obtain ⟨hfirst, hrest⟩ := List.cons.inj h
          obtain ⟨hrowsp, hrowsn⟩ := indent_append_inj ends_indent ends_indent hrest
          exact .branch info info' ((String.append_right_inj "┐").mp hfirst)
            (ihp hpositive hpositive' hrowsp) (ihn hnegative hnegative' (indent_inj hrowsn))
      | constant | decisionList => cases hkind
  | decisionList info rules default ihr ihd =>
      have hkind := kind_eq_of_rows_eq hm hn h
      cases hm with | decisionList _ hrules hconsequents hdefault
      cases hn with
      | decisionList info' hrules' hconsequents' hdefault' =>
          rw [rows_decisionList hrules, rows_decisionList hrules'] at h
          obtain ⟨hantecedents, hrows, hrowsd⟩ := ruleLines_inj (List.cons.inj h).2
          obtain ⟨hlength, hmembers⟩ := List.forall₂_iff_zip.mp hrows
          refine .decisionList info info' hantecedents
            (List.forall₂_iff_zip.mpr ⟨hlength, fun {r r'} hzip => ?_⟩)
            (ihd hdefault hdefault' hrowsd)
          obtain ⟨hr, hr'⟩ := List.of_mem_zip hzip
          exact ihr r hr (hconsequents r hr) (hconsequents' r' hr') (hmembers hzip)
      | constant | branch => cases hkind
  | rule r _ => cases hm
  | tree t _ => cases hm
  | forest info trees _ => cases hm
  | mixed info root feasible _ => cases hm

theorem toText_eq_of_sameOutline (h : SameOutline m n) : m.toText = n.toText := by
  induction m generalizing n with
  | constant info v =>
      cases h with | constant _ _ hv
      exact hv
  | branch info f positive negative ihp ihn =>
      cases h with | branch _ _ hf hpositive hnegative
      rw [Model.toText, Model.toText, hf, ihp hpositive, ihn hnegative]
  | decisionList info rules default ihr ihd =>
      cases h with | @decisionList _ _ _ rules' _ _ hantecedents hconsequents hdefault
      obtain ⟨hlength, hmembers⟩ := List.forall₂_iff_zip.mp hconsequents
      have htexts : List.Forall₂ (fun r r' => r.consequent.toText = r'.consequent.toText)
          rules rules' :=
        List.forall₂_iff_zip.mpr
          ⟨hlength, fun {r r'} hzip => ihr r (List.of_mem_zip hzip).1 (hmembers hzip)⟩
      rw [Model.toText, Model.toText, hlength, ruleLines_congr hantecedents htexts, ihd hdefault]
  | rule r _ => cases h
  | tree t _ => cases h
  | forest info trees _ => cases h
  | mixed info root feasible _ => cases h

/-- **A drawing shows the outline.**  Models of constants, branches and decision lists whose texts
have no line breaks are drawn alike exactly if they have the same shape and the same texts. -/
theorem toText_eq_iff_sameOutline (hm : Drawable m) (hn : Drawable n) :
    m.toText = n.toText ↔ SameOutline m n :=
  ⟨fun h => sameOutline_of_rows_eq hm hn (congrArg rows h), toText_eq_of_sameOutline⟩

end Models

/-- A branch between an outcome that looks like the last part of a branch and a list in which a rule
has no text as its outcome. -/
def lookalike (last : Value) : Model :=
  .branch .empty .top (.constant .empty (.text "└✘ B"))
    (.decisionList .empty [⟨.empty, .top, .constant .empty (.text "")⟩] (.constant .empty last))

theorem drawable_lookalike {last : Value} (h : Text.Unbroken last.toText) :
    Drawable (lookalike last) := by
  have htop : Text.Unbroken (Formula.toText .top) := by decide
  refine .branch _ htop (.constant _ (by decide)) (.decisionList _ ?_ ?_ (.constant _ h))
  · exact List.forall_mem_singleton.mpr htop
  · exact List.forall_mem_singleton.mpr (.constant _ (by decide))

/-- A number is drawn like its numeral, and not like another number. -/
theorem toText_eq_iff_sameOutline_lookalike :
    SameOutline (lookalike (.int 1)) (lookalike (.text "1")) ∧
      ¬ SameOutline (lookalike (.int 1)) (lookalike (.int 2)) := by
  have hone : Text.Unbroken (Value.toText (.int 1)) := by decide
  have hnumeral : Text.Unbroken (Value.toText (.text "1")) := by decide
  have htwo : Text.Unbroken (Value.toText (.int 2)) := by decide
  constructor
  · exact (toText_eq_iff_sameOutline (drawable_lookalike hone) (drawable_lookalike hnumeral)).mp
      (by decide +kernel)
  · exact fun h => absurd
      ((toText_eq_iff_sameOutline (drawable_lookalike hone) (drawable_lookalike htwo)).mpr h)
      (by decide +kernel)

/-- An outcome with a line break in it may be drawn like another one. -/
example : (lookalike (.text "A\nB")).toText = (lookalike (.text "A\rB")).toText := by
  decide +kernel

end Rulebook.Model
