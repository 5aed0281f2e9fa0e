import Rulebook.Listing.Read
import Rulebook.Proofs.Lines
import Rulebook.Proofs.Outcome

/-!
# Listings — the text of a file

A file is read as text: its bytes are decoded, and every carriage return, with the line feed after
it if there is one, becomes a line feed.  That is one of the breaks at which a listing is cut into
lines in any case, and the two characters together were one break before.  So the lines of the text
are those of the bytes decoded as they are (`Text.splitLines_unifyBreaks`), and a reading depends on
nothing but the lines (`Listing.Request.read_congr`).

* `Listing.Request.read_textOfBytes`: a file is read as its bytes, decoded, are.
-/

namespace Rulebook

namespace Text

/-- A carriage return that no line feed follows is a break of its own. -/
theorem splitLines_return {cs : List Char} (h : ∀ ds, cs ≠ '\n' :: ds) :
    splitLines ('\r' :: cs) = [] :: splitLines cs := by
  rw [splitLines.eq_3 _ _ fun ds _ => h ds, if_pos (by decide)]

/-- A character that is no carriage return is a break, or stands at the start of the first line,
whatever follows. -/
theorem splitLines_cons_congr {c : Char} {cs cs' : List Char} (hc : c ≠ '\r')
    (h : splitLines cs = splitLines cs') : splitLines (c :: cs) = splitLines (c :: cs') := by
  rw [splitLines.eq_3 _ _ fun _ hreturn => absurd hreturn hc,
    splitLines.eq_3 _ _ fun _ hreturn => absurd hreturn hc, h]

/-- **Line breaks that are made alike leave the lines as they are.** -/
theorem splitLines_unifyBreaks (cs : List Char) : splitLines (unifyBreaks cs) = splitLines cs := by
  fun_induction unifyBreaks cs with
  | case1 => rfl
  | case2 cs ih => exact congrArg ([] :: ·) ih
  | case3 c cs hpair ih =>
      by_cases hc : c = '\r'
      · subst hc
        rw [if_pos rfl, splitLines_return fun ds => hpair ds rfl]
        exact congrArg ([] :: ·) ih
      · rw [if_neg hc]
        exact splitLines_cons_congr hc ih

end Text

namespace Listing

variable {bytes : ByteArray} {text text' : List Char}

/-- Texts of the same lines are read alike: with the same model or the same error, and with the same
records. -/
theorem Request.read_congr (r : Request) (defaults : Except (List Settings.Fault) Settings)
    (h : Text.splitLines text = Text.splitLines text') :
    r.read defaults text = r.read defaults text' := by
  have hlines : numberedLines text = numberedLines text' := by
    unfold numberedLines
    rw [h]
  unfold Request.read Listing.read
  rw [hlines]

/-- Bytes that encode a text have it for their text, with line breaks that are alike. -/
theorem textOfBytes?_of_isValidUTF8 (h : bytes.IsValidUTF8) :
    textOfBytes? bytes = some (Text.unifyBreaks (String.fromUTF8 bytes h).toList) := by
  rw [textOfBytes?, String.fromUTF8?, dif_pos h, Option.map_some]

/-- **A file is read as the text of its bytes.**  Bytes that encode a text are read from a file as
this text is, whatever its line breaks are: as the same model, or with the same error at the same
line and column, and with the same records on the way. -/
theorem Request.read_textOfBytes (r : Request) (defaults : Except (List Settings.Fault) Settings)
    (bytes : ByteArray) (h : bytes.IsValidUTF8) :
    (textOfBytes? bytes).map (r.read defaults) =
      some (r.read defaults (String.fromUTF8 bytes h).toList) := by
  rw [textOfBytes?_of_isValidUTF8 h, Option.map_some]
  exact congrArg some (r.read_congr defaults (Text.splitLines_unifyBreaks _))

/-- A listing that starts with a byte order mark and has line breaks of all kinds, and an error in
its last line. -/
def markedText : String := "\ufeff\r\r\n\n[1] IF TRUE THEN y=A -0.0\u2028\n\r\u0085[1 IF"

/-- Seven breaks stand before the error, in the file and in the text that is read from it. -/
theorem Request.read_textOfBytes_markedText :
    markedText.toUTF8.IsValidUTF8 ∧ ∃ text, textOfBytes? markedText.toUTF8 = some text ∧
      text ≠ markedText.toList ∧
      (Request.read ⟨false, some true, id⟩ (.ok .default) text).outcome =
        .error (.refused (.malformed ⟨8, "[1 IF".toList⟩ .noSeparator 4)) := by
  have hvalid : markedText.toUTF8.IsValidUTF8 := markedText.isValidUTF8
  have hread := read_textOfBytes ⟨false, some true, id⟩ (.ok .default) markedText.toUTF8 hvalid
  obtain ⟨text, htext, hsame⟩ := Option.map_eq_some_iff.mp hread
  have hdecoded : textOfBytes? markedText.toUTF8 = some (Text.unifyBreaks markedText.toList) :=
    textOfBytes?_of_isValidUTF8 hvalid
  have herror : (Request.read ⟨false, some true, id⟩ (.ok .default) markedText.toList).outcome.map
      (fun _ => ()) = .error (.refused (.malformed ⟨8, "[1 IF".toList⟩ .noSeparator 4)) := by
    decide +kernel
  refine ⟨hvalid, text, htext, ?_, ?_⟩
  · cases htext.symm.trans hdecoded
    decide +kernel
  · rw [hsame]
    exact Except.map_eq_error_iff.mp herror

end Listing

end Rulebook
