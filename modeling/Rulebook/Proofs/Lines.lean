import Rulebook.Text.Blank
import Mathlib.Data.List.Basic

/-!
# Lines — taken apart and put together

* `Text.splitLines_append`: after a line feed the lines are those of what follows.
* `Text.unbroken_of_mem_lines`: a line has no break in it.
* `Text.lines_intercalate`: lines without breaks, joined by line feeds, are the lines of what they
  make up, unless the last of them is empty.
-/

namespace Rulebook.Text

theorem splitLines_ne_nil {cs : List Char} (h : cs ≠ []) : splitLines cs ≠ [] := by
  unfold splitLines
  split
  · exact absurd rfl h
  · exact List.cons_ne_nil _ _
  · split
    · exact List.cons_ne_nil _ _
    · split <;> exact List.cons_ne_nil _ _

/-- After a line feed the lines are those of what follows. -/
theorem splitLines_append (before after : List Char) :
    splitLines (before ++ '\n' :: after) = splitLines (before ++ ['\n']) ++ splitLines after := by
  match before with
  | [] => rfl
  | c :: cs =>
      by_cases hpair : c = '\r' ∧ (cs = [] ∨ ∃ ds, cs = '\n' :: ds)
      · obtain ⟨rfl, rfl | ⟨ds, rfl⟩⟩ := hpair
        · rfl
        · exact congrArg ([] :: ·) (splitLines_append ds after)
      · -- `c` does not share a break with what follows it
        have hsingle (tail ds : List Char) (hc : c = '\r') (hcs : cs ++ '\n' :: tail = '\n' :: ds) :
            False := by
          cases cs with
          | nil => exact hpair ⟨hc, .inl rfl⟩
          | cons d cs => exact hpair ⟨hc, .inr ⟨cs, by rw [(List.cons.inj hcs).1]⟩⟩
        rw [List.cons_append, List.cons_append, splitLines.eq_3 _ _ (hsingle after),
          splitLines.eq_3 _ _ (hsingle []), splitLines_append cs after]
        split
        · rfl
        · cases hlines : splitLines (cs ++ ['\n']) with
          | nil => exact absurd hlines (splitLines_ne_nil (by simp))
          | cons line lines => rfl

/-! ### Text without breaks -/

/-- No character of the text ends a line. -/
def Unbroken (text : String) : Prop := ∀ c ∈ text.toList, isBreak c = false

instance (text : String) : Decidable (Unbroken text) :=
  List.decidableBAll (isBreak · = false) text.toList

theorem unbroken_append {s t : String} (hs : Unbroken s) (ht : Unbroken t) : Unbroken (s ++ t) := by
  rw [Unbroken, String.toList_append]
  exact fun c hc => (List.mem_append.mp hc).elim (hs c) (ht c)

/-- The lines that `splitLines` makes have no break in them. -/
theorem isBreak_of_mem_splitLines {cs line : List Char} (hline : line ∈ splitLines cs) {c : Char}
    (hc : c ∈ line) : isBreak c = false := by
  fun_induction splitLines cs generalizing line with
  | case1 => cases hline
  | case2 cs ih =>
      obtain rfl | hline := List.mem_cons.mp hline
      · cases hc
      · exact ih hline hc
  | case3 d cs _ hd ih =>
      obtain rfl | hline := List.mem_cons.mp hline
      · cases hc
      · exact ih hline hc
  | case4 d cs _ hd hlines =>
      obtain rfl := List.mem_singleton.mp hline
      obtain rfl := List.mem_singleton.mp hc
      exact Bool.eq_false_iff.mpr hd
  | case5 d cs _ hd first lines hlines ih =>
      rw [hlines] at ih
      obtain rfl | hline := List.mem_cons.mp hline
      · obtain rfl | hc := List.mem_cons.mp hc
        · exact Bool.eq_false_iff.mpr hd
        · exact ih List.mem_cons_self hc
      · exact ih (List.mem_cons_of_mem _ hline) hc

theorem unbroken_of_mem_lines {text line : String} (h : line ∈ lines text) : Unbroken line := by
  obtain ⟨cs, hcs, rfl⟩ := List.mem_map.mp h
  intro c hc
  rw [String.toList_ofList] at hc
  exact isBreak_of_mem_splitLines hcs hc

theorem splitLines_cons {c : Char} {cs : List Char} (hc : isBreak c = false) :
    splitLines (c :: cs) =
      (c :: (splitLines cs).headD []) :: (splitLines cs).tail := by
  have hreturn (ds : List Char) (h : c = '\r') : cs = '\n' :: ds → False := by
    subst h
    exact absurd hc (by decide)
  rw [splitLines.eq_3 _ _ hreturn, if_neg (by simp [hc])]
  cases splitLines cs <;> rfl

/-- A text without breaks is one line, with the break behind it or without. -/
theorem splitLines_unbroken {cs : List Char} (h : ∀ c ∈ cs, isBreak c = false) :
    splitLines (cs ++ ['\n']) = [cs] ∧ (cs ≠ [] → splitLines cs = [cs]) := by
  induction cs with
  | nil => exact ⟨rfl, fun h => absurd rfl h⟩
  | cons c cs ih =>
      obtain ⟨hc, hcs⟩ := List.forall_mem_cons.mp h
      obtain ⟨hbreak, hend⟩ := ih hcs
      refine ⟨?_, fun _ => ?_⟩
      · rw [List.cons_append, splitLines_cons hc, hbreak]
        rfl
      · rw [splitLines_cons hc]
        by_cases hnil : cs = []
        · subst hnil; rfl
        · rw [hend hnil]; rfl

theorem lines_of_unbroken {text : String} (h : Unbroken text) (hne : text ≠ "") :
    lines text = [text] := by
  have hcs : text.toList ≠ [] := fun hnil => hne (String.toList_eq_nil_iff.mp hnil)
  rw [lines, (splitLines_unbroken h).2 hcs, List.map_singleton, String.ofList_toList]

/-- A line with its break behind it, then the rest. -/
theorem lines_append_break {line : String} (h : Unbroken line) (rest : String) :
    lines (line ++ "\n" ++ rest) = line :: lines rest := by
  have htext : (line ++ "\n" ++ rest).toList = line.toList ++ '\n' :: rest.toList := by
    simp [String.toList_append]
  rw [lines, htext, splitLines_append, (splitLines_unbroken h).1, List.singleton_append,
    List.map_cons, String.ofList_toList, lines]

/-- **Lines that are joined and split again.** -/
theorem lines_intercalate {ls : List String} (h : ∀ l ∈ ls, Unbroken l)
    (hlast : ls.getLast? ≠ some "") : lines (String.intercalate "\n" ls) = ls := by
  induction ls with
  | nil => rfl
  | cons l ls ih =>
      obtain ⟨hl, hls⟩ := List.forall_mem_cons.mp h
      cases ls with
      | nil =>
          rw [String.intercalate_singleton]
          exact lines_of_unbroken hl fun hempty => hlast (by rw [hempty]; rfl)
      | cons l' ls =>
          rw [String.intercalate_cons_cons, lines_append_break hl,
            ih hls (by rwa [List.getLast?_cons_cons] at hlast)]

end Rulebook.Text
