import Mathlib.Algebra.Group.Nat.Defs
import Polyquery.Proofs.Json.Derivations
import Polyquery.Proofs.Shell.Brackets
import Polyquery.Proofs.Text.Lines
import Polyquery.Shell.Session

/-!
# Queries over Several Lines

A query that is typed over several lines is answered at the end of the line with its closing
brace, as a whole and once. Before that line a bracket is open, so the session goes on to
collect. After it nothing is left in the buffer, and blank lines leave it so.

The lines are those that a text is read by, which may lose carriage returns at their ends. The
scan of the buffer is the same as that of the text all the same, because carriage returns count
for nothing (`over_lineOf`). The induction runs over the lines of the object and carries the scan
at the start of each line.

## Main definitions

* `buffered`: Lines as they are collected.
* `ClosedBy`: Lines of which the last one completes the buffer.
* `Division`: A query and the blank lines behind it.
* `Session.trace`: The steps of a session.

## Theorems

* `run_trace`: A session prints what its steps do.
* `trace_closedBy`: Lines that complete the buffer are answered at the last of them.
* `trace_blank`: Blank lines are passed over.
* `division_object`: The lines of the text of an object.
* `toInt_depth`: The count of open brackets in a machine word.
* `submitted_once`: The text of an object is answered once and as a whole.
-/

namespace Polyquery.Shell

open Grammar Scan

/-- The lines as they are collected behind a buffer, a line feed behind each. -/
def bufferedFrom (buffer : String) (lines : List String) : String :=
  lines.foldl (fun buffer line => buffer ++ line ++ "\n") buffer

/-- The lines as they are collected. -/
def buffered (lines : List String) : String :=
  bufferedFrom "" lines

/-- Lines of which the last one completes the buffer, and no other does. -/
inductive ClosedBy : String → List String → Prop where
  | last (buffer line : String) (h : isComplete (buffer ++ line ++ "\n") = true) :
    ClosedBy buffer [line]
  | more (buffer line : String) (rest : List String)
    (h : isComplete (buffer ++ line ++ "\n") = false)
    (hrest : ClosedBy (buffer ++ line ++ "\n") rest) : ClosedBy buffer (line :: rest)

namespace ClosedBy

variable {buffer : String} {lines : List String}

theorem complete (h : ClosedBy buffer lines) : isComplete (bufferedFrom buffer lines) = true := by
  induction h with
  | last buffer line h => exact h
  | more buffer line rest _ _ ih => exact ih

theorem incomplete (h : ClosedBy buffer lines) (n : Nat) (hpos : 0 < n) (hn : n < lines.length) :
    isComplete (bufferedFrom buffer (lines.take n)) = false := by
  induction h generalizing n with
  | last buffer line =>
      rw [List.length_singleton] at hn
      omega
  | more buffer line rest h _ ih =>
      match n, hpos with
      | 1, _ => exact h
      | n + 2, _ => exact ih (n + 1) (Nat.succ_pos n) (Nat.lt_of_succ_lt_succ hn)

end ClosedBy

namespace Session

/-- The steps of a session on lines, as long as the session goes on. -/
def trace (session : Session) : List String → List Step
  | [] => []
  | line :: rest =>
    let step := session.read line
    step :: match step.next with
      | some session => session.trace rest
      | none => []

/-- What a session prints on lines is what its steps print, and what the session prints at the end
    of the input if it has come there. -/
theorem run_trace (session : Session) (lines : List String) :
    session.run lines = (session.trace lines).flatMap Step.output ++
      match (session.trace lines).getLast?.elim (some session) Step.next with
      | some session => session.finish
      | none => [] := by
  induction lines generalizing session with
  | nil => rfl
  | cons line rest ih =>
      rw [run, trace]
      cases hnext : (session.read line).next with
      | none => simp [hnext]
      | some next =>
          simp only [ih next, List.flatMap_cons, List.append_assoc, List.getLast?_cons]
          cases (next.trace rest).getLast? with
          | none => simp [hnext]
          | some last => simp

theorem run_of_trace {session last : Session} {lines : List String}
    (h : (session.trace lines).getLast?.elim (some session) Step.next = some last) :
    session.run lines = (session.trace lines).flatMap Step.output ++ last.finish := by
  rw [run_trace, h]

/-- Steps that print nothing print nothing together. -/
theorem output_silent {α : Type} (next : α → Option Session) (causes : List α) :
    (causes.map fun cause => (⟨[], next cause⟩ : Step)).flatMap Step.output = [] := by
  rw [List.flatMap_map, List.flatMap_eq_nil_iff]
  exact fun _ _ => rfl

section Steps

variable (session : Session)

theorem trace_cons {line : String} {rest : List String} {output : List String} {next : Session}
    (h : session.read line = ⟨output, some next⟩) :
    session.trace (line :: rest) = ⟨output, some next⟩ :: next.trace rest := by
  rw [trace, h]

/-- With something in the buffer every line is collected. -/
theorem read_of_nonempty (h : session.buffer ≠ "") (line : String) :
    session.read line = session.accumulate line := by
  rw [read, if_neg fun hempty => h (String.isEmpty_iff.mp hempty)]

theorem accumulate_incomplete {line : String}
    (h : isComplete (session.buffer ++ line ++ "\n") = false) :
    session.accumulate line =
      ⟨[], some { session with buffer := session.buffer ++ line ++ "\n" }⟩ := by
  rw [accumulate, if_neg (Bool.eq_false_iff.mp h)]

theorem accumulate_complete {line : String}
    (h : isComplete (session.buffer ++ line ++ "\n") = true) :
    session.accumulate line =
      ⟨answer session.schema session.entity (session.buffer ++ line ++ "\n"),
        some { session with buffer := "" }⟩ := by
  rw [accumulate, if_pos h]

theorem buffer_ne_empty (buffer line : String) : buffer ++ line ++ "\n" ≠ "" := by
  intro h
  have hlist := congrArg String.toList h
  simp at hlist

end Steps

/-- The steps of a session on lines that complete its buffer. -/
theorem trace_closedBy (session : Session) (lines rest : List String)
    (h : ClosedBy session.buffer lines)
    (hfirst : ∀ line ∈ lines.head?, session.read line = session.accumulate line) :
    session.trace (lines ++ rest) =
      ((List.range (lines.length - 1)).map fun n =>
        ⟨[], some { session with buffer := bufferedFrom session.buffer (lines.take (n + 1)) }⟩) ++
      ⟨answer session.schema session.entity (bufferedFrom session.buffer lines),
        some { session with buffer := "" }⟩ ::
      ({ session with buffer := "" } : Session).trace rest := by
  generalize hbuffer : session.buffer = buffer at h ⊢
  induction h generalizing session with
  | last buffer line h =>
      -- The last line completes the query, which is answered at once.
      have hread := hfirst line rfl
      rw [accumulate_complete session (by rwa [hbuffer]), hbuffer] at hread
      exact trace_cons session hread
  | more buffer line others h hothers ih =>
      have hread := hfirst line rfl
      rw [accumulate_incomplete session (by rwa [hbuffer]), hbuffer] at hread
      obtain ⟨k, hk⟩ : ∃ k, others.length = k + 1 := by
        cases hothers <;> exact ⟨_, rfl⟩
      -- Behind the first line the buffer is not empty, so every line is taken for its own.
      have hsteps := ih { session with buffer := buffer ++ line ++ "\n" }
        (fun next _ => read_of_nonempty _ (buffer_ne_empty buffer line) next) rfl
      rw [List.cons_append, trace_cons session hread, hsteps, List.length_cons, hk,
        Nat.add_sub_cancel, Nat.add_sub_cancel, List.range_succ_eq_map, List.map_cons,
        List.map_map]
      rfl

/-- A blank line is passed over with nothing in the buffer. -/
theorem read_blank (session : Session) (hempty : session.buffer = "") (line : String)
    (hline : Text.isBlank line = true) : session.read line = ⟨[], some session⟩ := by
  have hnone : line.toList.dropWhile Text.isWhiteSpace = [] := by
    rw [← List.append_nil line.toList, List.dropWhile_append_of_pos (List.all_eq_true.mp hline)]
    rfl
  have htrim : (Text.trim line).toList = [] := by
    rw [Text.trim, String.toList_ofList, hnone]
    rfl
  rw [read, if_pos (String.isEmpty_iff.mpr hempty)]
  simp only [htrim]

/-- With nothing in the buffer, a line that begins with a brace is collected. -/
theorem read_brace (session : Session) (line : String)
    (hline : line.toList.head? = some '\x7b') :
    session.read line = session.accumulate line := by
  by_cases hempty : session.buffer = ""
  · obtain ⟨rest, hrest⟩ : ∃ rest, line.toList = '\x7b' :: rest :=
      List.head?_eq_some_iff.mp hline
    have htrim : ∃ others, (Text.trim line).toList = '\x7b' :: others := by
      have hbrace : Text.isWhiteSpace '\x7b' = false := by decide
      rw [Text.trim, String.toList_ofList, hrest, List.dropWhile_cons_of_neg (by simp [hbrace]),
        List.reverse_cons, List.dropWhile_append]
      split
      next hnone => exact ⟨[], by simp [hbrace]⟩
      next hsome => exact ⟨(rest.reverse.dropWhile Text.isWhiteSpace).reverse, by simp⟩
    obtain ⟨others, hothers⟩ := htrim
    rw [read, if_pos (String.isEmpty_iff.mpr hempty)]
    simp only [hothers]
    rfl
  · exact read_of_nonempty session hempty line

theorem trace_blank (session : Session) (hempty : session.buffer = "") (lines : List String)
    (h : ∀ line ∈ lines, Text.isBlank line = true) :
    session.trace lines = lines.map fun _ => ⟨[], some session⟩ := by
  induction lines with
  | nil => rfl
  | cons line rest ih =>
      rw [List.forall_mem_cons] at h
      rw [trace_cons session (read_blank session hempty line h.1), ih h.2, List.map_cons]

end Session

section Lines

variable {floor : Int} {scan : Scan}

/-- A line is collected with everything of it that counts for the scan. -/
theorem over_lineOf {piece : List Char} (h : Legible floor scan (piece ++ ['\n'])) :
    scan.over ((Text.lineOf (String.ofList (piece ++ ['\n']))).toList ++ ['\n']) =
      scan.over (piece ++ ['\n']) := by
  rw [Text.toList_lineOf _ h.no_backspace]
  rcases Text.dropLineEnd_ended piece with hline | ⟨front, rfl, hline⟩
  · rw [hline]
  · rw [List.append_assoc, legible_append] at h
    have hreturn : (scan.over front).next '\r' = scan.over front := h.2.2.2.1 rfl
    rw [hline, over_append, List.append_assoc, over_append]
    show (scan.over front).next '\n' = ((scan.over front).next '\r').next '\n'
    rw [hreturn]

/-- Apart from carriage returns, a line is collected with everything in it. -/
theorem filter_lineOf {piece : List Char} (h : '\x08' ∉ piece ++ ['\n']) :
    ((Text.lineOf (String.ofList (piece ++ ['\n']))).toList ++ ['\n']).filter (· != '\r') =
      (piece ++ ['\n']).filter (· != '\r') := by
  rw [Text.toList_lineOf _ h]
  rcases Text.dropLineEnd_ended piece with hline | ⟨front, rfl, hline⟩
  · rw [hline]
  · rw [hline]
    simp

theorem over_collected (buffer line : String) :
    start.over (buffer ++ line ++ "\n").toList =
      (start.over buffer.toList).over (line.toList ++ ['\n']) := by
  rw [String.toList_append, String.toList_append, List.append_assoc, over_append]
  rfl

theorem filter_collected (buffer line : String) :
    (buffer ++ line ++ "\n").toList.filter (· != '\r') =
      buffer.toList.filter (· != '\r') ++ (line.toList ++ ['\n']).filter (· != '\r') := by
  rw [String.toList_append, String.toList_append, List.append_assoc, List.filter_append]
  rfl

theorem level_whiteSpace (depth : Int) {cs : List Char} (h : cs.all Text.isWhiteSpace = true) :
    Level (outside depth) cs :=
  level_idle depth (all_idle (by decide) (List.all_eq_true.mp h))

end Lines

/-- Lines that are a query and blank lines behind it. The query completes the buffer, and apart
    from carriage returns it is collected with nothing missing and nothing but blanks behind. -/
structure Division (buffer : String) (cs : List Char) (query blanks : List String) : Prop where
  length_query : query.length = cs.count '\n' + 1
  closed : ClosedBy buffer query
  blank : ∀ line ∈ blanks, Text.isBlank line = true
  whole : ∃ rest, rest.all Text.isWhiteSpace = true ∧
    (bufferedFrom buffer query).toList.filter (· != '\r') =
      (buffer.toList ++ cs).filter (· != '\r') ++ rest

section Last

variable {buffer : String} {piece ending : List Char}
  (hback : (start.over buffer.toList).over piece = outside 0)
  (hending : ending.all Text.isWhiteSpace = true)

include hback hending

theorem legible_ending (hlegible : Legible 0 (start.over buffer.toList) piece) :
    Legible 0 (start.over buffer.toList) (piece ++ ending) := by
  refine legible_append.mpr ⟨hlegible, ?_⟩
  rw [hback]
  exact (level_whiteSpace 0 hending).legible

/-- A line that is collected as the end of a text with white space behind it is the query. -/
theorem division_line {line : String} {blanks : List String} (hfree : '\n' ∉ piece)
    (hscan : (start.over buffer.toList).over (line.toList ++ ['\n']) =
      (start.over buffer.toList).over (piece ++ ending ++ ['\n']))
    (hchars : (line.toList ++ ['\n']).filter (· != '\r') =
      (piece ++ ending ++ ['\n']).filter (· != '\r'))
    (hblanks : ∀ line ∈ blanks, Text.isBlank line = true) :
    Division buffer piece [line] blanks := by
  refine ⟨?_, .last buffer line ?_, hblanks, (ending ++ ['\n']).filter (· != '\r'), ?_, ?_⟩
  · rw [List.count_eq_zero.mpr hfree]
    rfl
  · rw [isComplete, over_collected, hscan, over_append, over_append, hback,
      (level_whiteSpace 0 hending).back]
    rfl
  · rw [List.all_eq_true] at hending ⊢
    intro c hc
    rcases List.mem_append.mp (List.mem_filter.mp hc).1 with hin | hin
    · exact hending c hin
    · rw [List.mem_singleton.mp hin]
      rfl
  · show (buffer ++ line ++ "\n").toList.filter (· != '\r') = _
    rw [filter_collected, hchars, List.append_assoc, List.filter_append, ← List.append_assoc,
      ← List.filter_append]

end Last

/-- The line with the end of a text that closes the last bracket. It goes on behind the text up to
    a line feed, or to the end of the input. -/
theorem division_last (buffer : String) {piece behind : List Char} (hfree : '\n' ∉ piece)
    (hbehind : behind.all Text.isWhiteSpace = true)
    (hlegible : Legible 0 (start.over buffer.toList) piece) (hne : piece ≠ [])
    (hback : (start.over buffer.toList).over piece = outside 0) :
    ∃ query blanks, Text.linesOf (String.ofList (piece ++ behind)) = query ++ blanks ∧
      Division buffer piece query blanks := by
  -- The line that ends the text goes up to the next line feed, or to the end of the input.
  by_cases hfeed : '\n' ∈ behind
  · rcases List.eq_append_cons_of_mem hfeed with ⟨ending, others, rfl, hunended⟩
    rw [List.all_append, List.all_cons, Bool.and_eq_true, Bool.and_eq_true] at hbehind
    have hended : Legible 0 (start.over buffer.toList) (piece ++ ending ++ ['\n']) := by
      rw [List.append_assoc]
      refine legible_ending hback ?_ hlegible
      rw [List.all_append, hbehind.1]
      rfl
    refine ⟨[Text.lineOf (String.ofList (piece ++ ending ++ ['\n']))],
      Text.linesOf (String.ofList others), ?_, ?_⟩
    · rw [← List.append_assoc, Text.linesOf_cons _ _ fun hin =>
        (List.mem_append.mp hin).elim hfree hunended]
      rfl
    · exact division_line hback hbehind.1 hfree (over_lineOf hended)
        (filter_lineOf hended.no_backspace) (Text.isBlank_linesOf others hbehind.2.2)
  · -- Without a line feed everything is one last line.
    have hwhole : '\n' ∉ piece ++ behind := fun hin => (List.mem_append.mp hin).elim hfree hfeed
    have hkept := (legible_ending hback hbehind hlegible).no_backspace
    have hline : (Text.lineOf (String.ofList (piece ++ behind))).toList = piece ++ behind := by
      rw [Text.toList_lineOf _ hkept, Text.dropLineEnd_free _ hwhole]
    refine ⟨[Text.lineOf (String.ofList (piece ++ behind))], [], ?_, ?_⟩
    · exact Text.linesOf_last _ hwhole fun hnil => hne (List.append_eq_nil_iff.mp hnil).1
    · exact division_line hback hbehind hfree (by rw [hline]) (by rw [hline])
        fun line hmem => absurd hmem List.not_mem_nil

section More

variable {buffer : String} {piece rest : List Char}
  (hlegible : Legible 0 (start.over buffer.toList) (piece ++ ['\n']))

include hlegible

theorem over_more :
    start.over (buffer ++ Text.lineOf (String.ofList (piece ++ ['\n'])) ++ "\n").toList =
      (start.over buffer.toList).over (piece ++ ['\n']) := by
  rw [over_collected, over_lineOf hlegible]

/-- A line at whose end a bracket is open, in front of a query. -/
theorem division_more {query blanks : List String} (hfree : '\n' ∉ piece)
    (hopen : 1 ≤ ((start.over buffer.toList).over (piece ++ ['\n'])).depth)
    (h : Division (buffer ++ Text.lineOf (String.ofList (piece ++ ['\n'])) ++ "\n") rest
      query blanks) :
    Division buffer (piece ++ '\n' :: rest)
      (Text.lineOf (String.ofList (piece ++ ['\n'])) :: query) blanks := by
  obtain ⟨ending, hending, hwhole⟩ := h.whole
  refine ⟨?_, .more buffer _ query ?_ h.closed, h.blank, ending, hending, ?_⟩
  · rw [List.length_cons, h.length_query, List.count_append, List.count_cons_self,
      List.count_eq_zero.mpr hfree, Nat.zero_add]
  · rw [isComplete, over_more hlegible, decide_eq_false_iff_not]
    omega
  · refine Eq.trans hwhole ?_
    rw [List.filter_append, filter_collected, filter_lineOf hlegible.no_backspace]
    simp

end More

/-- The lines of a text at whose end every bracket is closed, and before each line feed one is
    open. -/
theorem division_linesOf (behind : List Char) (hbehind : behind.all Text.isWhiteSpace = true)
    (cs : List Char) (buffer : String) (hlegible : Legible 0 (start.over buffer.toList) cs)
    (hopen : ∀ front rest, cs = front ++ '\n' :: rest →
      1 ≤ ((start.over buffer.toList).over front).depth)
    (hne : cs ≠ []) (hback : (start.over buffer.toList).over cs = outside 0) :
    ∃ query blanks, Text.linesOf (String.ofList (cs ++ behind)) = query ++ blanks ∧
      Division buffer cs query blanks := by
  induction cs using Text.lines_induction generalizing buffer with
  | empty => exact absurd rfl hne
  | last piece hfree _ => exact division_last buffer hfree hbehind hlegible hne hback
  | line piece rest hfree ih =>
      rw [List.append_cons, legible_append] at hlegible
      rw [List.append_cons, over_append] at hback
      have hscan := over_more hlegible.1
      have hdepth : 1 ≤ ((start.over buffer.toList).over (piece ++ ['\n'])).depth := by
        rw [over_append]
        show 1 ≤ (((start.over buffer.toList).over piece).next '\n').depth
        rw [depth_next_feed]
        exact hopen piece rest rfl
      -- The bracket that is open at the end of the line has to be closed behind it.
      have hmore : rest ≠ [] := by
        rintro rfl
        have hclosed : (start.over buffer.toList).over (piece ++ ['\n']) = outside 0 := hback
        rw [hclosed] at hdepth
        exact absurd hdepth (by decide)
      have hopen' (front others : List Char) (hrest : rest = front ++ '\n' :: others) :
          1 ≤ (((start.over buffer.toList).over (piece ++ ['\n'])).over front).depth := by
        rw [← over_append, ← List.append_cons]
        exact hopen (piece ++ '\n' :: front) others (by rw [hrest]; simp)
      rw [← hscan] at hlegible hback hopen'
      obtain ⟨query, blanks, hlines, hdivision⟩ := ih _ hlegible.2 hopen' hmore hback
      refine ⟨_ :: query, blanks, ?_, division_more hlegible.1 hfree hdepth hdivision⟩
      rw [List.append_assoc, List.cons_append, Text.linesOf_cons piece _ hfree, hlines]
      rfl

/-- The lines of the text of an object, with blanks behind it. -/
theorem division_object {text behind : String} (hobject : Derives .object text.toList)
    (hblank : Text.isBlank behind = true) :
    ∃ query blanks, Text.linesOf (text ++ behind) = query ++ blanks ∧
      Division "" text.toList query blanks ∧
      ∀ line ∈ query.head?, line.toList.head? = some '\x7b' := by
  have hlevel := derives_level hobject 0
  obtain ⟨inner, hinner, hopen⟩ := object_open hobject
  -- Inside the object the depth never comes back to zero at the end of a line.
  have hfeed (front rest : List Char) (hcut : text.toList = front ++ '\n' :: rest) :
      1 ≤ ((outside 0).over front).depth := by
    rw [hinner] at hcut
    cases front with
    | nil => exact absurd (List.cons.inj hcut).1 (by decide)
    | cons c front =>
        rw [List.cons_append, List.cons.injEq] at hcut
        rw [hcut.2] at hopen
        rw [← hcut.1]
        exact hopen.floor_le
  obtain ⟨query, blanks, hlines, hdivision⟩ :=
    division_linesOf behind.toList hblank text.toList "" hlevel.legible hfeed
      (by rw [hinner]; exact List.cons_ne_nil _ _) hlevel.back
  -- No character of the text takes back another one.
  have hfree : '\x08' ∉ text.toList ++ behind.toList := by
    rw [List.mem_append, not_or]
    exact ⟨hlevel.legible.no_backspace,
      (level_whiteSpace 0 hblank).legible.no_backspace⟩
  refine ⟨query, blanks, ?_, hdivision, fun line hline => ?_⟩
  · rw [← hlines, ← String.toList_append, String.ofList_toList]
  · have hhead : line ∈ (Text.linesOf (String.ofList (text.toList ++ behind.toList))).head? := by
      rw [hlines, List.head?_append, Option.mem_def.mp hline]
      rfl
    rw [hinner] at hhead hfree
    exact Text.head_linesOf (by decide) (by decide) hfree line hhead

/-- A session counts the open brackets of its buffer in a word of 32 bits. Such a word holds every
    count on the way over a buffer with fewer than `2 ^ 31` characters. -/
theorem toInt_depth (buffer : String) (hlength : buffer.length < 2 ^ 31)
    (front behind : List Char) (h : buffer.toList = front ++ behind) :
    (Int32.ofInt (start.over front).depth).toInt = (start.over front).depth := by
  have hdepth := natAbs_depth_over start front
  have hfront : front.length ≤ buffer.length := by
    rw [← String.length_toList, h, List.length_append]
    exact Nat.le_add_right _ _
  have hstart : start.depth = 0 := rfl
  rw [hstart, Int.sub_zero] at hdepth
  exact Int32.toInt_ofInt_of_le (by omega) (by omega)

/-- The text of an object, typed with nothing in the buffer and with blanks behind it. Its last line
    is the first one that completes the buffer. There the lines are answered together, and nothing
    is answered before or after. -/
theorem submitted_once (session : Session) (hempty : session.buffer = "") (text behind : String)
    (hobject : Derives .object text.toList) (hblank : Text.isBlank behind = true) :
    ∃ query blanks,
      Text.linesOf (text ++ behind) = query ++ blanks ∧
      query.length = text.toList.count '\n' + 1 ∧
      (∀ n, 0 < n → n < query.length → isComplete (buffered (query.take n)) = false) ∧
      isComplete (buffered query) = true ∧
      (∃ rest, rest.all Text.isWhiteSpace = true ∧
        (buffered query).toList.filter (· != '\r') = text.toList.filter (· != '\r') ++ rest) ∧
      (∀ line ∈ blanks, Text.isBlank line = true) ∧
      session.trace (query ++ blanks) =
        ((List.range (query.length - 1)).map fun n =>
          ⟨[], some { session with buffer := buffered (query.take (n + 1)) }⟩) ++
        ⟨answer session.schema session.entity (buffered query), some session⟩ ::
        (blanks.map fun _ => ⟨[], some session⟩) ∧
      session.run (query ++ blanks) =
        answer session.schema session.entity (buffered query) ++ ["", "再见!"] := by
  obtain ⟨query, blanks, hlines, hdivision, hhead⟩ := division_object hobject hblank
  have hsame : ({ session with buffer := "" } : Session) = session := by
    rw [← hempty]
  -- The query is closed by its last line, and the blank lines behind it are read into nothing.
  have htrace := session.trace_closedBy query blanks (hempty ▸ hdivision.closed)
    fun line hline => session.read_brace line (hhead line hline)
  rw [hempty, hsame, session.trace_blank hempty blanks hdivision.blank] at htrace
  refine ⟨query, blanks, hlines, hdivision.length_query, hdivision.closed.incomplete,
    hdivision.closed.complete, hdivision.whole, hdivision.blank, htrace, ?_⟩
  -- The session is back where it began, so its end has nothing left to answer.
  have hlast : (session.trace (query ++ blanks)).getLast?.elim (some session) Step.next =
      some session := by
    rw [htrace, List.getLast?_append, List.getLast?_cons, List.getLast?_map]
    cases blanks.getLast? <;> rfl
  have hfinish : session.finish = ["", "再见!"] := by
    rw [Session.finish, hempty]
    rfl
  rw [Session.run_of_trace hlast, htrace, List.flatMap_append, List.flatMap_cons,
    Session.output_silent, Session.output_silent, List.nil_append, List.append_nil, hfinish]
  rfl

/-- A query over four lines with brackets and a quotation mark in a string. -/
def sampleTyped : String :=
  "\x7b\n\"k\": \"\x7d\\\"[\",\r\n\"v\": [1\n]\x7d"

/-- What can be read as a whole and begins with a brace is the text of an object. -/
theorem sampleTyped_object : Derives .object sampleTyped.toList := by
  have hread : Reader.readValue 10 sampleTyped.toList = (_, some []) := rfl
  obtain ⟨text, htext, hobject⟩ := object_of_read hread rfl
  rw [htext, List.append_nil]
  exact hobject

theorem submitted_once_sample :
    Derives .object sampleTyped.toList ∧ Text.isBlank " \n\n" = true ∧
      (Session.start .default).run (Text.linesOf (sampleTyped ++ " \n\n")) =
        answer .default "Person"
          "\x7b\n\"k\": \"\x7d\\\"[\",\n\"v\": [1\n]\x7d \n" ++ ["", "再见!"] := by
  have hlines : Text.linesOf (sampleTyped ++ " \n\n") =
      ["\x7b", "\"k\": \"\x7d\\\"[\",", "\"v\": [1", "]\x7d ", ""] := by
    decide
  have hblank : Text.isBlank " \n\n" = true := by decide
  obtain ⟨query, blanks, hparts, hlength, _, _, _, _, _, hrun⟩ :=
    submitted_once (.start .default) rfl sampleTyped " \n\n" sampleTyped_object hblank
  have hcount : query.length = 4 := hlength.trans (by decide)
  have hquery : query = ["\x7b", "\"k\": \"\x7d\\\"[\",", "\"v\": [1", "]\x7d "] := by
    have htake : (query ++ blanks).take 4 = query := List.take_left' hcount
    rw [← hparts, hlines] at htake
    exact htake.symm
  refine ⟨sampleTyped_object, hblank, ?_⟩
  rw [hparts, hrun, hquery]
  rfl

end Polyquery.Shell
