import Polyquery.Proofs.Text.Dotted
import Polyquery.Text.Line

/-!
# Lines of a Text

A text is read line by line, and each line feed ends a line. What a line loses on the way is
its end and what backspaces take back. A text without backspaces is therefore read completely,
except for a carriage return in front of a line feed.

## Theorems

* `linesOf_cons`, `linesOf_last`: The first line of a text.
* `dropLineEnd_ended`, `dropLineEnd_free`: What a line loses at its end.
* `toList_lineOf`: A line without backspaces.
* `head_linesOf`: The first character of a text.
* `lines_induction`: Induction over the lines of a text.
* `isBlank_linesOf`: The lines of a blank text.
-/

namespace Polyquery.Text

theorem splitOn_append (separator : Char) (piece rest : List Char) (h : separator ∉ piece) :
    splitOn separator (piece ++ separator :: rest) = piece :: splitOn separator rest := by
  induction piece with
  | nil =>
      rw [List.nil_append, splitOn]
      split
      next hnil => exact absurd hnil (splitOn_ne_nil separator rest)
      next hcons => rw [if_pos rfl, hcons]
  | cons c piece ih =>
      rw [List.mem_cons, not_or] at h
      rw [List.cons_append, splitOn, ih h.2]
      exact if_neg fun hc => h.1 hc.symm

theorem withEnds_cons (piece : List Char) {rest : List (List Char)} (h : rest ≠ []) :
    withEnds (piece :: rest) = (piece ++ ['\n']) :: withEnds rest := by
  cases rest with
  | nil => exact absurd rfl h
  | cons next rest => rfl

/-- The lines of a text with a line feed in it. -/
theorem linesOf_cons (piece rest : List Char) (h : '\n' ∉ piece) :
    linesOf (String.ofList (piece ++ '\n' :: rest)) =
      lineOf (String.ofList (piece ++ ['\n'])) :: linesOf (String.ofList rest) := by
  rw [linesOf, linesOf, String.toList_ofList, String.toList_ofList, splitOn_append _ _ _ h,
    withEnds_cons piece (splitOn_ne_nil '\n' rest), List.map_cons]

/-- The lines of a text without line feeds. -/
theorem linesOf_last (piece : List Char) (h : '\n' ∉ piece) (hne : piece ≠ []) :
    linesOf (String.ofList piece) = [lineOf (String.ofList piece)] := by
  rw [linesOf, String.toList_ofList, splitOn_whole _ _ h, withEnds,
    List.isEmpty_eq_false_iff.mpr hne]
  rfl

theorem linesOf_empty : linesOf (String.ofList []) = [] := by
  decide

/-- Where there are no backspaces, none takes back anything. -/
theorem applyBackspaces_free (cs : List Char) (h : '\x08' ∉ cs) : applyBackspaces cs = cs := by
  have hleft (left : List Char) :
      cs.foldl (fun left c => if c = '\x08' then left.tail else c :: left) left =
        cs.reverse ++ left := by
    induction cs generalizing left with
    | nil => rfl
    | cons c rest ih =>
        rw [List.mem_cons, not_or] at h
        rw [List.foldl_cons, if_neg fun hc => h.1 hc.symm, ih h.2, List.reverse_cons,
          List.append_assoc]
        rfl
  rw [applyBackspaces, hleft, List.append_nil, List.reverse_reverse]

theorem dropLineEnd_subset (cs : List Char) : dropLineEnd cs ⊆ cs := by
  refine List.IsPrefix.subset ?_
  unfold dropLineEnd
  split
  next rest hreverse =>
    refine ⟨['\r', '\n'], ?_⟩
    rw [← List.reverse_reverse cs, hreverse, List.reverse_cons, List.reverse_cons,
      List.append_assoc]
    rfl
  next rest _ hreverse =>
    refine ⟨['\n'], ?_⟩
    rw [← List.reverse_reverse cs, hreverse, List.reverse_cons]
  next => exact List.prefix_refl cs

/-- A line that is ended by a line feed loses it, and a carriage return in front of it. -/
theorem dropLineEnd_ended (piece : List Char) :
    dropLineEnd (piece ++ ['\n']) = piece ∨
      ∃ front, piece = front ++ ['\r'] ∧ dropLineEnd (piece ++ ['\n']) = front := by
  unfold dropLineEnd
  rw [List.reverse_append, List.reverse_singleton, List.singleton_append]
  cases hreverse : piece.reverse with
  | nil =>
      rw [List.reverse_eq_nil_iff.mp hreverse]
      exact .inl rfl
  | cons c rest =>
      have hpiece : piece = rest.reverse ++ [c] := by
        rw [← List.reverse_reverse piece, hreverse, List.reverse_cons]
      -- A carriage return in front of the line feed is dropped with it.
      by_cases hc : c = '\r'
      · subst hc
        exact .inr ⟨rest.reverse, hpiece, rfl⟩
      · refine .inl ?_
        split
        next others heq => exact absurd (List.cons.inj (List.cons.inj heq).2).1 hc
        next others _ heq => rw [← (List.cons.inj heq).2, List.reverse_cons, hpiece]
        next _ hother => exact absurd rfl (hother (c :: rest))

/-- A line that is not ended loses nothing. -/
theorem dropLineEnd_free (cs : List Char) (h : '\n' ∉ cs) : dropLineEnd cs = cs := by
  unfold dropLineEnd
  have hreverse (rest : List Char) : cs.reverse ≠ '\n' :: rest := fun heq =>
    h (List.mem_reverse.mp (heq ▸ List.mem_cons_self))
  split
  next rest heq => exact absurd heq (hreverse ('\r' :: rest))
  next rest _ heq => exact absurd heq (hreverse rest)
  next => rfl

/-- A line without backspaces loses its end and nothing else. -/
theorem toList_lineOf (cs : List Char) (h : '\x08' ∉ cs) :
    (lineOf (String.ofList cs)).toList = dropLineEnd cs := by
  rw [lineOf, String.toList_ofList, String.toList_ofList]
  exact applyBackspaces_free _ fun hin => h (dropLineEnd_subset cs hin)

/-- The first line of a text begins with the first character of the text, unless that ends the
    line. -/
theorem head_linesOf {c : Char} {cs : List Char} (hfeed : c ≠ '\n') (hreturn : c ≠ '\r')
    (hfree : '\x08' ∉ c :: cs) :
    ∀ line ∈ (linesOf (String.ofList (c :: cs))).head?, line.toList.head? = some c := by
  intro line hline
  -- The first line is ended by a line feed, or it is the whole text.
  by_cases hended : '\n' ∈ cs
  · rcases List.eq_append_cons_of_mem hended with ⟨piece, rest, rfl, hpiece⟩
    have hfront : '\n' ∉ c :: piece := fun hin =>
      (List.mem_cons.mp hin).elim (fun heq => hfeed heq.symm) hpiece
    have hkept : '\x08' ∉ c :: piece ++ ['\n'] := by
      intro hin
      rcases List.mem_append.mp hin with hin | hin
      · exact hfree (List.mem_append_left _ hin)
      · exact absurd hin (by decide)
    rw [← List.cons_append, linesOf_cons _ _ hfront, List.head?_cons, Option.mem_some] at hline
    rw [← hline, toList_lineOf _ hkept]
    -- What is dropped at its end is the line feed, and perhaps a carriage return before it.
    rcases dropLineEnd_ended (c :: piece) with hdrop | ⟨front, hsplit, hdrop⟩
    · rw [hdrop, List.head?_cons]
    · rw [hdrop]
      cases front with
      | nil => exact absurd (List.cons.inj hsplit).1 hreturn
      | cons d front => rw [(List.cons.inj hsplit).1, List.head?_cons]
  · have hwhole : '\n' ∉ c :: cs := fun hin =>
      (List.mem_cons.mp hin).elim (fun heq => hfeed heq.symm) hended
    rw [linesOf_last _ hwhole (List.cons_ne_nil c cs), List.head?_cons, Option.mem_some] at hline
    rw [← hline, toList_lineOf _ hfree, dropLineEnd_free _ hwhole, List.head?_cons]

/-- A text is empty, or a line that is not ended, or it begins with a line that is ended. -/
@[elab_as_elim]
theorem lines_induction {P : List Char → Prop} (cs : List Char) (empty : P [])
    (last : ∀ piece, '\n' ∉ piece → piece ≠ [] → P piece)
    (line : ∀ piece rest, '\n' ∉ piece → P rest → P (piece ++ '\n' :: rest)) : P cs := by
  induction hlength : cs.length using Nat.strongRecOn generalizing cs with
  | ind n ih =>
      by_cases hfeed : '\n' ∈ cs
      · rcases List.eq_append_cons_of_mem hfeed with ⟨piece, rest, rfl, hpiece⟩
        refine line piece rest hpiece (ih rest.length ?_ rest rfl)
        rw [← hlength, List.length_append, List.length_cons]
        omega
      · by_cases hempty : cs = []
        · exact hempty ▸ empty
        · exact last cs hfeed hempty

/-- The lines of a blank text are blank. -/
theorem isBlank_linesOf (cs : List Char) (h : cs.all isWhiteSpace = true) :
    ∀ line ∈ linesOf (String.ofList cs), isBlank line = true := by
  -- What is cut off at the end of a line leaves blanks where there were blanks.
  have hline (piece : List Char) (hpiece : piece.all isWhiteSpace = true) :
      isBlank (lineOf (String.ofList piece)) = true := by
    rw [List.all_eq_true] at hpiece
    rw [isBlank, toList_lineOf piece fun hin => absurd (hpiece _ hin) (by decide), List.all_eq_true]
    exact fun c hc => hpiece c (dropLineEnd_subset piece hc)
  induction cs using lines_induction with
  | empty =>
      rw [linesOf_empty]
      exact fun line hmem => absurd hmem List.not_mem_nil
  | last piece hfree hne =>
      rw [linesOf_last piece hfree hne, List.forall_mem_singleton]
      exact hline piece h
  | line piece rest hfree ih =>
      rw [List.all_append, List.all_cons, Bool.and_eq_true, Bool.and_eq_true] at h
      rw [linesOf_cons piece rest hfree, List.forall_mem_cons]
      refine ⟨hline _ ?_, ih h.2.2⟩
      rw [List.all_append, h.1]
      rfl

end Polyquery.Text
