import Rulebook.Proofs.LineTokens

/-!
# Listings — scores

A word can be a score when it is a sign, digits with a point, and an exponent.  The reader of scores
accepts these words and no others, and its number is the double that the word writes
(`Line.score?_eq_some_iff`): without blanks, underscores and names in it, a text is read as a
numeral from its first character to its last.
-/

namespace Rulebook

namespace Numeral

/-! ### Signs and digits -/

theorem exists_signText (cs : List Char) :
    ∃ sign, SignText sign ∧ cs = sign ++ (splitSign cs).2 := by
  unfold splitSign
  split
  next cs => exact ⟨['-'], .inr (.inr rfl), rfl⟩
  next cs => exact ⟨['+'], .inr (.inl rfl), rfl⟩
  next cs _ _ => exact ⟨[], .inl rfl, rfl⟩

theorem ne_sign_of_isDigit {c : Char} (h : Text.isDigit c) : c ≠ '+' ∧ c ≠ '-' := by
  constructor <;> (rintro rfl; exact absurd h (by decide))

theorem splitSign_append {sign rest : List Char} (hsign : SignText sign)
    (hrest : ∀ c ∈ rest.head?, c ≠ '+' ∧ c ≠ '-') : (splitSign (sign ++ rest)).2 = rest := by
  rcases hsign with rfl | rfl | rfl
  · rw [List.nil_append, splitSign]
    · rintro cs rfl
      exact absurd rfl (hrest '-' rfl).2
    · rintro cs rfl
      exact absurd rfl (hrest '+' rfl).1
  · rfl
  · rfl

theorem filterMap_digit?_eq_nil_iff {run : List Char} (hrun : ∀ c ∈ run, Text.isDigit c) :
    run.filterMap Text.digit? = [] ↔ run = [] := by
  rw [List.filterMap_eq_nil_iff]
  constructor
  · intro h
    refine List.eq_nil_iff_forall_not_mem.mpr fun c hc => ?_
    have hdigit := hrun c hc
    rw [Text.isDigit, h c hc] at hdigit
    cases hdigit
  · rintro rfl
    exact nofun

theorem splitDigits_append {run rest : List Char} (hrun : ∀ c ∈ run, Text.isDigit c)
    (hrest : ∀ c ∈ rest.head?, Text.isDigit c = false) :
    splitDigits (run ++ rest) = (run.filterMap Text.digit?, rest) := by
  obtain ⟨htake, hdrop⟩ := span_append hrun hrest
  rw [splitDigits, htake, hdrop]

/-- What is split off is a run of digits. -/
theorem exists_digits (cs : List Char) :
    ∃ run, (∀ c ∈ run, Text.isDigit c) ∧ cs = run ++ (splitDigits cs).2 ∧
      (splitDigits cs).1 = run.filterMap Text.digit? :=
  ⟨cs.takeWhile Text.isDigit, fun _ => List.mem_takeWhile_imp,
    List.takeWhile_append_dropWhile.symm, rfl⟩

/-! ### Exponents -/

theorem exponentText_of_exponent? {cs : List Char} (h : (exponent? cs).isSome) :
    ExponentText cs := by
  cases cs with
  | nil => exact .absent
  | cons mark cs =>
      rw [exponent?] at h
      split_ifs at h with hmark
      · obtain ⟨sign, hsign, hcs⟩ := exists_signText cs
        generalize splitSign cs = signed at h hcs
        obtain ⟨negative, rest⟩ := signed
        dsimp only at h hcs
        obtain ⟨run, hrun, hrest, hvalues⟩ := exists_digits rest
        split at h
        next => cases h
        next => cases h
        next digits hne hsplit =>
          rw [hsplit] at hrest hvalues
          dsimp only at hrest hvalues
          have hrun' : run ≠ [] := by
            rintro rfl
            exact hne hvalues
          rw [List.append_nil] at hrest
          rw [hcs, hrest]
          exact .present hmark hsign ⟨hrun', hrun⟩
      · cases h

theorem isSome_exponent? {cs : List Char} (h : ExponentText cs) : (exponent? cs).isSome := by
  cases h with
  | absent => rfl
  | @present mark sign run hmark hsign hrun =>
      have hsplit : splitDigits (run ++ []) = (run.filterMap Text.digit?, []) :=
        splitDigits_append hrun.digits nofun
      rw [List.append_nil] at hsplit
      have hdigits : run.filterMap Text.digit? ≠ [] :=
        mt (filterMap_digit?_eq_nil_iff hrun.digits).mp hrun.nonempty
      have hhead : ∀ c ∈ run.head?, c ≠ '+' ∧ c ≠ '-' := fun c hc =>
        ne_sign_of_isDigit (hrun.digits c (List.mem_of_head? hc))
      have hrest := splitSign_append hsign hhead
      rw [exponent?, if_pos hmark]
      generalize splitSign (sign ++ run) = signed at hrest
      obtain ⟨negative, rest⟩ := signed
      dsimp only at hrest ⊢
      subst hrest
      rw [hsplit]
      obtain ⟨d, digits, hcons⟩ := List.exists_cons_of_ne_nil hdigits
      rw [hcons]
      rfl

/-! ### Numerals -/

theorem exists_decimalText_of_read? {negative : Bool} {cs : List Char}
    (h : (read? negative cs).isSome) :
    ∃ decimal exponent, DecimalText decimal ∧ ExponentText exponent ∧ cs = decimal ++ exponent := by
  obtain ⟨run, hrun, hcs, hwhole⟩ := exists_digits cs
  rw [read?] at h
  generalize splitDigits cs = split at h hcs hwhole
  obtain ⟨whole, rest⟩ := split
  dsimp only at h hcs hwhole
  subst hwhole hcs
  split at h
  next _ tail =>
    obtain ⟨fraction, hfraction, htail, hvalues⟩ := exists_digits tail
    split_ifs at h with hempty
    · cases h
    · rw [Option.isSome_map] at h
      have hexponent := exponentText_of_exponent? h
      rw [hvalues, filterMap_digit?_eq_nil_iff hrun,
        filterMap_digit?_eq_nil_iff hfraction] at hempty
      by_cases hnil : run = []
      · refine ⟨'.' :: fraction, _, .fraction ⟨fun hnil' => hempty ⟨hnil, hnil'⟩, hfraction⟩,
          hexponent, ?_⟩
        rw [hnil, List.nil_append, List.cons_append, ← htail]
      · refine ⟨run ++ '.' :: fraction, _, .pointed ⟨hnil, hrun⟩ hfraction, hexponent, ?_⟩
        rw [List.append_assoc, List.cons_append, ← htail]
  next =>
    dsimp only at h
    split_ifs at h with hempty
    · cases h
    · rw [Option.isSome_map] at h
      rw [filterMap_digit?_eq_nil_iff hrun] at hempty
      exact ⟨run, rest, .whole ⟨fun hnil => hempty ⟨hnil, rfl⟩, hrun⟩,
        exponentText_of_exponent? h, rfl⟩

/-- An exponent begins with no digit and no point. -/
theorem head?_exponent {exponent : List Char} (h : ExponentText exponent) :
    ∀ c ∈ exponent.head?, Text.isDigit c = false ∧ c ≠ '.' := by
  cases h with
  | absent => exact nofun
  | present hmark _ _ =>
      intro c hc
      obtain rfl := Option.some.inj hc
      rcases hmark with rfl | rfl <;> decide

/-- Digits, a point, digits and an exponent. -/
theorem isSome_read?_pointed {run fraction exponent : List Char}
    (hrun : ∀ c ∈ run, Text.isDigit c) (hfraction : ∀ c ∈ fraction, Text.isDigit c)
    (hne : ¬(run = [] ∧ fraction = [])) (hexponent : ExponentText exponent) (negative : Bool) :
    (read? negative (run ++ '.' :: (fraction ++ exponent))).isSome := by
  have hpoint : ∀ c ∈ ('.' :: (fraction ++ exponent)).head?, Text.isDigit c = false := by
    intro c hc
    obtain rfl := Option.some.inj hc
    rfl
  have hhead := fun c hc => (head?_exponent hexponent c hc).1
  rw [← filterMap_digit?_eq_nil_iff hrun, ← filterMap_digit?_eq_nil_iff hfraction] at hne
  rw [read?, splitDigits_append hrun hpoint]
  split
  next whole rest heq =>
    cases heq
    split
    next whole rest heq =>
      cases (splitDigits_append hfraction hhead).symm.trans heq
      rw [if_neg hne, Option.isSome_map]
      exact isSome_exponent? hexponent

theorem isSome_read? {decimal exponent : List Char} (hdecimal : DecimalText decimal)
    (hexponent : ExponentText exponent) (negative : Bool) :
    (read? negative (decimal ++ exponent)).isSome := by
  have hhead := head?_exponent hexponent
  cases hdecimal with
  | whole hrun =>
      rw [read?, splitDigits_append hrun.digits fun c hc => (hhead c hc).1]
      dsimp only
      split
      next => exact absurd rfl (hhead '.' rfl).2
      next =>
        have hdigits := mt (filterMap_digit?_eq_nil_iff hrun.digits).mp hrun.nonempty
        dsimp only
        rw [if_neg fun h => hdigits h.1, Option.isSome_map]
        exact isSome_exponent? hexponent
  | @pointed run fraction hrun hfraction =>
      rw [List.append_assoc, List.cons_append]
      exact isSome_read?_pointed hrun.digits hfraction (fun h => hrun.nonempty h.1) hexponent _
  | @fraction run hrun =>
      have hnil : ∀ c ∈ ([] : List Char), Text.isDigit c := nofun
      exact isSome_read?_pointed hnil hrun.digits (fun h => hrun.nonempty h.2) hexponent _

end Numeral

/-! ### Scores -/

theorem head?_decimalText {decimal : List Char} (h : DecimalText decimal) (rest : List Char) :
    ∀ c ∈ (decimal ++ rest).head?, Text.isDigit c ∨ c = '.' := by
  cases h with
  | whole hrun | pointed hrun _ =>
      obtain ⟨d, run, rfl⟩ := List.exists_cons_of_ne_nil hrun.nonempty
      intro c hc
      obtain rfl := Option.some.inj hc
      exact .inl (hrun.digits d List.mem_cons_self)
  | fraction _ =>
      intro c hc
      exact .inr (Option.some.inj hc).symm

theorem ne_sign_of_head {c : Char} (h : Text.isDigit c ∨ c = '.') : c ≠ '+' ∧ c ≠ '-' := by
  rcases h with hdigit | rfl
  · exact Numeral.ne_sign_of_isDigit hdigit
  · decide

/-- The characters of a score. -/
theorem forall_mem_scoreText {cs : List Char} (h : ScoreText cs) :
    ∀ c ∈ cs, Text.isDigit c ∨ c ∈ ['+', '-', '.', 'e', 'E'] := by
  have hdigits : ∀ {run : List Char}, (∀ c ∈ run, Text.isDigit c) →
      ∀ c ∈ run, Text.isDigit c ∨ c ∈ ['+', '-', '.', 'e', 'E'] := fun hrun c hc => .inl (hrun c hc)
  have hsigns : ∀ {sign : List Char}, SignText sign →
      ∀ c ∈ sign, Text.isDigit c ∨ c ∈ ['+', '-', '.', 'e', 'E'] := by
    rintro sign (rfl | rfl | rfl) <;> simp
  obtain ⟨hsign, hdecimal, hexponent⟩ := h
  rw [List.forall_mem_append, List.forall_mem_append]
  refine ⟨hsigns hsign, ?_, ?_⟩
  · cases hdecimal with
    | whole hrun => exact hdigits hrun.digits
    | pointed hrun hfraction =>
        rw [List.forall_mem_append, List.forall_mem_cons]
        exact ⟨hdigits hrun.digits, by simp, hdigits hfraction⟩
    | fraction hrun =>
        rw [List.forall_mem_cons]
        exact ⟨by simp, hdigits hrun.digits⟩
  · cases hexponent with
    | absent => exact nofun
    | present hmark hsign hrun =>
        rw [List.forall_mem_cons, List.forall_mem_append]
        exact ⟨by rcases hmark with rfl | rfl <;> simp, hsigns hsign, hdigits hrun.digits⟩

/-- A word is a score for the reader when it is one. -/
theorem isSome_score?_iff {cs : List Char} : (Line.score? cs).isSome ↔ ScoreText cs := by
  rw [Line.score?]
  constructor
  · intro h
    obtain ⟨sign, hsign, hcs⟩ := Numeral.exists_signText cs
    generalize Numeral.splitSign cs = signed at h hcs
    obtain ⟨negative, rest⟩ := signed
    dsimp only at h hcs
    rw [Option.isSome_map] at h
    obtain ⟨decimal, exponent, hdecimal, hexponent, rfl⟩ := Numeral.exists_decimalText_of_read? h
    rw [hcs]
    exact .intro hsign hdecimal hexponent
  · rintro ⟨hsign, hdecimal, hexponent⟩
    rename_i sign decimal exponent
    have hhead := fun c hc => ne_sign_of_head (head?_decimalText hdecimal exponent c hc)
    rw [Option.isSome_map, Numeral.splitSign_append hsign hhead]
    exact Numeral.isSome_read? hdecimal hexponent _

theorem stripWith_of_forall_not {p : Char → Bool} {cs : List Char} (h : ∀ c ∈ cs, p c = false) :
    Text.stripWith p cs = cs := by
  have hdrop : ∀ {cs : List Char}, (∀ c ∈ cs, p c = false) → cs.dropWhile p = cs := by
    intro cs h
    cases cs with
    | nil => rfl
    | cons c cs => exact List.dropWhile_cons_of_neg (Bool.eq_false_iff.mp (h c List.mem_cons_self))
  rw [Text.stripWith, hdrop h, hdrop fun c hc => h c (List.mem_reverse.mp hc), List.reverse_reverse]

theorem dropUnderscores_of_forall_ne {cs : List Char} (h : ∀ c ∈ cs, c ≠ '_') (afterDigit : Bool) :
    Numeral.dropUnderscores afterDigit cs = some cs := by
  induction cs generalizing afterDigit with
  | nil => rfl
  | cons c cs ih =>
      rw [List.forall_mem_cons] at h
      rw [Numeral.dropUnderscores.eq_def]
      dsimp only
      rw [if_neg h.1, ih h.2]
      rfl

/-- No digit and no point is the first letter of a word for a double. -/
theorem toLower_ne {c : Char} (h : Text.isDigit c ∨ c = '.') :
    c.toLower ≠ 'i' ∧ c.toLower ≠ 'n' := by
  rcases h with hdigit | rfl
  · have hc := toNat_of_isDigit hdigit
    have hlower : c.toLower = c := by
      refine dif_neg fun hupper => ?_
      have hlow : 0x41 ≤ c.toNat := hupper.1
      have hhigh : c.toNat ≤ 0x5a := hupper.2
      omega
    rw [hlower]
    constructor <;> (rintro rfl; exact absurd hc (by decide))
  · decide

theorem ofWord?_eq_none {cs : List Char} (h : ∀ c ∈ cs.head?, Text.isDigit c ∨ c = '.')
    (negative : Bool) : Binary64.ofWord? negative cs = none := by
  have hword : ∀ first rest, first = 'i' ∨ first = 'n' →
      String.ofList (cs.map Char.toLower) ≠ String.ofList (first :: rest) := by
    intro first rest hfirst heq
    rw [String.ofList_inj] at heq
    cases cs with
    | nil => cases heq
    | cons c cs =>
        obtain ⟨hi, hn⟩ := toLower_ne (h c rfl)
        rcases hfirst with rfl | rfl
        · exact hi (List.cons.inj heq).1
        · exact hn (List.cons.inj heq).1
  have hinf := hword 'i' ['n', 'f'] (.inl rfl)
  have hinfinity := hword 'i' ['n', 'f', 'i', 'n', 'i', 't', 'y'] (.inl rfl)
  have hnan := hword 'n' ['a', 'n'] (.inr rfl)
  rw [Binary64.ofWord?]
  exact (if_neg (not_or.mpr ⟨hinf, hinfinity⟩)).trans (if_neg hnan)

/-- A score is the double that its text writes. -/
theorem ofText?_of_scoreText {cs : List Char} (h : ScoreText cs) :
    Binary64.ofText? (String.ofList cs) = Line.score? cs := by
  have hchars := forall_mem_scoreText h
  have hspace : ∀ c ∈ cs, Text.isWhiteSpace c = false := by
    intro c hc
    rw [Text.isWhiteSpace, Bool.and_eq_false_iff]
    refine .inl ?_
    rcases hchars c hc with hdigit | hmem
    · exact isBlank_of_isDigit hdigit
    · simp only [List.mem_cons, List.not_mem_nil, or_false] at hmem
      rcases hmem with rfl | rfl | rfl | rfl | rfl <;> rfl
  have hunderscore : ∀ c ∈ cs, c ≠ '_' := by
    rintro c hc rfl
    exact absurd (hchars _ hc) (by decide)
  rw [Binary64.ofText?, Line.score?, String.toList_ofList, stripWith_of_forall_not hspace,
    dropUnderscores_of_forall_ne hunderscore]
  have hword : Binary64.ofWord? (Numeral.splitSign cs).1 (Numeral.splitSign cs).2 = none := by
    obtain ⟨hsign, hdecimal, hexponent⟩ := h
    rename_i sign decimal exponent
    have hhead := head?_decimalText hdecimal exponent
    rw [Numeral.splitSign_append hsign fun c hc => ne_sign_of_head (hhead c hc)]
    exact ofWord?_eq_none hhead _
  simp only [bind, Option.bind, hword]

/-- **The reader of scores accepts scores, and answers the double they write.** -/
theorem Line.score?_eq_some_iff {cs : List Char} {x : Binary64} :
    Line.score? cs = some x ↔ ScoreText cs ∧ Binary64.ofText? (String.ofList cs) = some x := by
  constructor
  · intro h
    have hscore : ScoreText cs := isSome_score?_iff.mp (h ▸ rfl)
    exact ⟨hscore, (ofText?_of_scoreText hscore).trans h⟩
  · rintro ⟨hscore, h⟩
    exact (ofText?_of_scoreText hscore).symm.trans h

end Rulebook
