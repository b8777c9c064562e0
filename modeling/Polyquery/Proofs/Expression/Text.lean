import Polyquery.Proofs.Expression.Parts
import Polyquery.Proofs.Text.Dotted

/-!
# Functions in Expression Strings

Expressions are told apart by their expression strings. Two expressions with
one string need not be the same, but they call the same functions in the same
order: the name of a function is the word in front of a bracket, and outside of
strings there are no other brackets. A reader of the text has to know only
whether it is inside of a string. A quote inside of a string is written twice,
and the reader that leaves the string there enters it again at once.

So the string of an expression tells whether there is an aggregate in it, and
whether the expression as a whole is one.

## Main definitions

* `Text.isIdentifier`, `Text.isDottedIdentifier`: Paths of identifiers.
* `Text.isWordChar`, `Text.calledWords`: The words in front of brackets.
* `Expression.functions`, `Expression.isAggregateCall`: The functions in an
  expression, and whether the first of them is an aggregate.
* `Expression.Dotted`: An expression whose paths are made of identifiers.
* `Expression.closed`, `Expression.behindArgument`: What comes behind the name of a
  function and behind an argument.

## Theorems

* `calledWords_word`, `calledWords_string`: Reading over a word and a string.
* `string_text`, `call_text`: How strings and calls are written.
* `literal_words`: Reading over a constant.
* `closed_cons`: The first argument of a call and what comes behind it.
* `text_words`, `closed_words`: Reading an expression and arguments.
* `functions_of_text`: Expressions with one string call the same functions.
* `aggregate?_eq_find`, `aggregate?_isSome_iff`: An aggregate in an expression is
  one of its functions.
* `aggregate?_of_text`, `isAggregateCall_of_text`: What the string tells about
  aggregates.
-/

namespace Polyquery

namespace Text

/-- A letter or an underscore. Beyond ASCII every character counts as a letter. -/
def isLetter (c : Char) : Bool :=
  c.isAlpha || c == '_' || 128 ≤ c.toNat

/-- A letter, followed by letters and digits. -/
def isIdentifier (segment : String) : Bool :=
  match segment.toList with
  | [] => false
  | c :: rest => isLetter c && rest.all fun c => isLetter c || c.isDigit

/-- Identifiers with points between them. -/
def isDottedIdentifier (path : String) : Bool :=
  (dotted path).all isIdentifier

/-- A character that can stand in a word of an expression string. -/
def isWordChar (c : Char) : Bool :=
  !(c == '\'' || c == '(' || c == ')' || c == ',' || c == ' ')

/-- The words in front of brackets outside of strings, with the letters of the present word
    that have been read, backwards. -/
def calledWords (quoted : Bool) (word : List Char) : List Char → List (List Char)
  | [] => []
  | c :: rest =>
    if c = '\'' then calledWords (!quoted) [] rest
    else if quoted then calledWords quoted word rest
    else if c = '(' then word.reverse :: calledWords false [] rest
    else if isWordChar c then calledWords false (c :: word) rest
    else calledWords false [] rest

/-- A text after an argument: it is over, or the next character ends the argument. -/
def Closes (rest : List Char) : Prop :=
  rest = [] ∨ ∃ c more, rest = c :: more ∧ (c = ',' ∨ c = ')')

theorem wordChar_ne {c : Char} (h : isWordChar c = true) : c ≠ '\'' ∧ c ≠ '(' := by
  constructor <;>
    · rintro rfl
      exact absurd h (by decide)

theorem word_of_all {cs : List Char} (h : cs.all isWordChar = true) :
    ∀ c ∈ cs, isWordChar c = true :=
  List.all_eq_true.mp h

theorem calledWords_word (cs : List Char) (h : ∀ c ∈ cs, isWordChar c = true)
    (word rest : List Char) :
    calledWords false word (cs ++ rest) = calledWords false (cs.reverse ++ word) rest := by
  induction cs generalizing word with
  | nil => rfl
  | cons c cs ih =>
      rw [List.forall_mem_cons] at h
      rcases wordChar_ne h.1 with ⟨hquote, hbracket⟩
      rw [List.cons_append, calledWords]
      simp only [if_neg hquote, Bool.false_eq_true, if_false, if_neg hbracket, h.1, if_true]
      rw [ih h.2, List.reverse_cons, List.append_assoc]
      rfl

theorem calledWords_closes (word rest : List Char) (h : Closes rest) :
    calledWords false word rest = calledWords false [] rest := by
  rcases h with hnil | ⟨c, more, hcons, hcomma | hbracket⟩
  · rw [hnil]
    rfl
  · rw [hcons, hcomma]
    rfl
  · rw [hcons, hbracket]
    rfl

/-- A character as it is written inside of a string. -/
def doubled (c : Char) : List Char :=
  if c = '\'' then ['\'', '\''] else [c]

theorem calledWords_quoted (cs rest : List Char) :
    calledWords true [] (cs.flatMap doubled ++ rest) = calledWords true [] rest := by
  induction cs with
  | nil => rfl
  | cons c cs ih =>
      rw [List.flatMap_cons, List.append_assoc, doubled]
      by_cases hquote : c = '\''
      · -- The first of the two quotes ends the string and the second one starts it again.
        simp only [if_pos hquote, List.cons_append, List.nil_append, calledWords, if_true,
          Bool.not_true, Bool.not_false]
        exact ih
      · simp only [if_neg hquote, List.cons_append, List.nil_append, calledWords, if_true]
        exact ih

/-- A string stands between two quotes. -/
theorem string_text (s : String) (rest : List Char) :
    (Literal.text (.string s)).toList ++ rest =
      '\'' :: (s.toList.flatMap doubled ++ '\'' :: rest) := by
  simp only [Literal.text, Literal.doubleQuotes, String.toList_append, String.toList_ofList,
    List.append_assoc]
  rfl

/-- Nothing is found in a string. -/
theorem calledWords_string (s : String) (word rest : List Char) :
    calledWords false word ((Literal.text (.string s)).toList ++ rest) =
      calledWords false [] rest := by
  rw [string_text, calledWords]
  simp only [if_true, Bool.not_false]
  rw [calledWords_quoted, calledWords]
  simp only [if_true, Bool.not_true]

section Constants

theorem isWordChar_of_letter {c : Char} (h : (isLetter c || c.isDigit) = true) :
    isWordChar c = true := by
  unfold isWordChar
  simp only [Bool.not_eq_true', Bool.or_eq_false_iff, beq_eq_false_iff_ne, ne_eq]
  refine ⟨⟨⟨⟨?_, ?_⟩, ?_⟩, ?_⟩, ?_⟩ <;>
    · rintro rfl
      exact absurd h (by decide)

theorem digitsOf_words (n : Nat) : ∀ c ∈ Decimal.digitsOf n, isWordChar c = true := by
  intro c hc
  have hdigit : c.isDigit = true := Nat.isDigit_of_mem_toDigits (by decide) (by decide) hc
  apply isWordChar_of_letter
  rw [hdigit, Bool.or_true]

theorem natText_words (n : Nat) : ∀ c ∈ (toString n).toList, isWordChar c = true := by
  intro c hc
  have hdigits : (toString n).toList = Nat.toDigits 10 n := Nat.toList_repr
  rw [hdigits] at hc
  exact digitsOf_words n c hc

theorem natText_injective (i j : Nat) (h : toString i = toString j) : i = j := by
  have hdigits : Nat.toDigits 10 i = Nat.toDigits 10 j := by
    rw [← Nat.toList_repr, ← Nat.toList_repr]
    exact congrArg String.toList h
  calc i = Nat.ofDigitChars 10 (Nat.toDigits 10 i) 0 := Nat.ofDigitChars_ten_toDigits.symm
    _ = Nat.ofDigitChars 10 (Nat.toDigits 10 j) 0 := by rw [hdigits]
    _ = j := Nat.ofDigitChars_ten_toDigits

/-- Names that are numbered behind one stem are different. -/
theorem numbered_injective (stem : String) (i j : Nat)
    (h : stem ++ toString i = stem ++ toString j) : i = j :=
  natText_injective i j ((String.append_right_inj stem).mp h)

theorem intText_negSucc (n : Nat) :
    (toString (Int.negSucc n)).toList = '-' :: (toString (n + 1)).toList := by
  have htext : toString (Int.negSucc n) = "-" ++ toString (n + 1) := rfl
  rw [htext, String.toList_append]
  rfl

theorem intText_words (n : Int) : ∀ c ∈ (toString n).toList, isWordChar c = true := by
  cases n with
  | ofNat n => exact natText_words n
  | negSucc n =>
      rw [intText_negSucc, List.forall_mem_cons]
      exact ⟨by decide, natText_words (n + 1)⟩

theorem ofGrid_words (k : Nat) (step : Int) :
    ∀ c ∈ (Decimal.Digits.ofGrid k step).digits, isWordChar c = true := by
  intro c hc
  simp only [Decimal.Digits.ofGrid, List.mem_reverse] at hc
  exact digitsOf_words k c (List.mem_reverse.mp ((List.dropWhile_suffix _).subset hc))

theorem firstHit_words (tie : Decimal.Tie) (i : Decimal.Interval) (exponent : Int)
    (count more : Nat) :
    ∀ c ∈ (Decimal.firstHit tie i exponent count more).digits, isWordChar c = true := by
  induction more generalizing count with
  | zero => exact ofGrid_words _ _
  | succ more ih =>
      unfold Decimal.firstHit
      simp only []
      split
      · exact ofGrid_words _ _
      · exact ih (count + 1)

theorem shortest_words (tie : Decimal.Tie) (b : Decimal.Binary) :
    ∀ c ∈ (Decimal.shortest tie b).digits, isWordChar c = true := by
  unfold Decimal.shortest
  split
  · exact word_of_all rfl
  · exact firstHit_words _ _ _ _ _

theorem writePositional_words (l : Decimal.Layout) (d : Decimal.Digits)
    (h : ∀ c ∈ d.digits, isWordChar c = true) :
    ∀ c ∈ l.writePositional d, isWordChar c = true := by
  -- Beside the digits there are only zeros and a point.
  have hzeros : ∀ n, ∀ c ∈ List.replicate n '0', isWordChar c = true := by
    intro n c hc
    rw [List.eq_of_mem_replicate hc]
    decide
  have hleading : ∀ c ∈ ['0', '.'], isWordChar c = true := word_of_all rfl
  have htrailing : ∀ c ∈ ['.', '0'], isWordChar c = true := word_of_all rfl
  intro c hc
  unfold Decimal.Layout.writePositional at hc
  -- A number below one begins with a zero and the point; the others have their whole part first.
  split at hc
  · rcases List.mem_append.mp hc with hfront | hdigits
    · rcases List.mem_append.mp hfront with hpoint | hfill
      · exact hleading c hpoint
      · exact hzeros _ c hfill
    · exact h c hdigits
  · have hwhole : ∀ c ∈ d.digits.take (d.exponent.toNat + 1) ++
        List.replicate (d.exponent.toNat + 1 - d.digits.length) '0', isWordChar c = true := by
      intro c hc
      rcases List.mem_append.mp hc with hdigits | hfill
      · exact h c (List.mem_of_mem_take hdigits)
      · exact hzeros _ c hfill
    simp only [] at hc
    split at hc
    · rcases List.mem_append.mp hc with hplaces | hfraction
      · exact hwhole c hplaces
      · split at hfraction
        · exact htrailing c hfraction
        · exact absurd hfraction List.not_mem_nil
    · rename_i fraction hdrop
      rcases List.mem_append.mp hc with hplaces | hfraction
      · exact hwhole c hplaces
      · rcases List.mem_cons.mp hfraction with hpoint | hdigits
        · rw [hpoint]
          decide
        · exact h c (List.mem_of_mem_drop hdigits)

theorem floatText_words (x : Float) :
    ∀ c ∈ (Decimal.Layout.plain.write x).toList, isWordChar c = true := by
  unfold Decimal.Layout.write
  split
  · rename_i b _
    have hdigits : ∀ c ∈ Decimal.Layout.plain.writeDigits
        (Decimal.shortest Decimal.Layout.plain.tie b), isWordChar c = true :=
      writePositional_words _ _ (shortest_words _ b)
    simp only [String.toList_ofList]
    split
    · rw [List.forall_mem_cons]
      exact ⟨by decide, hdigits⟩
    · exact hdigits
  · split
    · exact word_of_all rfl
    · split <;> exact word_of_all rfl

/-- Nothing is found in a constant. -/
theorem literal_words (literal : Literal) (rest : List Char) (h : Closes rest) :
    calledWords false [] (literal.text.toList ++ rest) = calledWords false [] rest := by
  have hword : ∀ cs : List Char, (∀ c ∈ cs, isWordChar c = true) →
      calledWords false [] (cs ++ rest) = calledWords false [] rest := by
    intro cs hcs
    rw [calledWords_word cs hcs, calledWords_closes _ rest h]
  cases literal with
  | string s => exact calledWords_string s [] rest
  | integer n => exact hword _ (intText_words n)
  | float x => exact hword _ (floatText_words x)
  | boolean b => cases b <;> exact hword _ (word_of_all rfl)

end Constants

/-- A path of identifiers is one word. -/
theorem dottedIdentifier_words (path : String) (h : isDottedIdentifier path = true) :
    ∀ c ∈ path.toList, isWordChar c = true := by
  intro c hc
  rcases dotted_covers path c hc with hpoint | ⟨segment, hsegment, hmem⟩
  · rw [hpoint]
    decide
  · have hidentifier := List.all_eq_true.mp h segment hsegment
    unfold isIdentifier at hidentifier
    apply isWordChar_of_letter
    cases hchars : segment.toList with
    | nil =>
        rw [hchars] at hmem
        exact absurd hmem List.not_mem_nil
    | cons first rest =>
        rw [hchars] at hidentifier hmem
        simp only [Bool.and_eq_true] at hidentifier
        rcases List.mem_cons.mp hmem with heq | htail
        · rw [heq]
          rw [hidentifier.1, Bool.true_or]
        · exact List.all_eq_true.mp hidentifier.2 c htail

end Text

theorem Function.name_injective (f g : Function) (h : f.name = g.name) : f = g := by
  have hname := ofName?_name f
  rw [h, ofName?_name g] at hname
  exact (Option.some.inj hname).symm

namespace Expression

mutual

/-- The functions in an expression from left to right. -/
def functions : Expression → List Function
  | .property _ _ => []
  | .call function arguments _ => function :: argumentFunctions arguments

/-- The functions in the arguments of a call. -/
def argumentFunctions : List Argument → List Function
  | [] => []
  | .expression value :: rest => value.functions ++ argumentFunctions rest
  | .literal _ :: rest => argumentFunctions rest

end

/-- An expression in which all paths are made of identifiers. -/
def Dotted (x : Expression) : Prop :=
  ∀ path ∈ x.paths, Text.isDottedIdentifier path = true

/-- The names of functions as the reader of a text finds them. -/
def names (functions : List Function) : List (List Char) :=
  functions.map fun function => function.name.toList

open Text

theorem name_words (function : Function) : ∀ c ∈ function.name.toList, isWordChar c = true := by
  cases function <;> exact word_of_all rfl

theorem names_append (fs gs : List Function) : names (fs ++ gs) = names fs ++ names gs :=
  List.map_append

/-- The arguments of a call with the bracket that closes them and what comes behind it. -/
def closed (arguments : List Argument) (rest : List Char) : List Char :=
  (String.intercalate ", " (argumentTexts arguments)).toList ++ ')' :: rest

/-- The arguments of a call stand between brackets behind the name of the function. -/
theorem call_text (function : Function) (arguments : List Argument) (label : Option String)
    (rest : List Char) :
    (text (.call function arguments label)).toList ++ rest =
      function.name.toList ++ '(' :: closed arguments rest := by
  simp only [text, closed, String.toList_append, List.append_assoc]
  rfl

/-- The string of an argument. -/
def argumentText : Argument → String
  | .expression value => value.text
  | .literal value => value.text

/-- What comes behind an argument in front of others. -/
def behindArgument (others : List Argument) (rest : List Char) : List Char :=
  match others with
  | [] => ')' :: rest
  | _ :: _ => ',' :: ' ' :: closed others rest

theorem argumentTexts_cons (argument : Argument) (others : List Argument) :
    argumentTexts (argument :: others) = argumentText argument :: argumentTexts others := by
  cases argument <;> simp only [argumentTexts, argumentText]

theorem closed_cons (argument : Argument) (others : List Argument) (rest : List Char) :
    closed (argument :: others) rest =
      (argumentText argument).toList ++ behindArgument others rest := by
  unfold closed
  rw [argumentTexts_cons]
  cases others with
  | nil =>
      rw [argumentTexts, String.intercalate_singleton]
      rfl
  | cons second others =>
      rw [argumentTexts_cons, String.intercalate_cons_cons, behindArgument, closed,
        argumentTexts_cons]
      simp only [String.toList_append, List.append_assoc]
      rfl

theorem closes_behindArgument (others : List Argument) (rest : List Char) :
    Closes (behindArgument others rest) := by
  cases others with
  | nil => exact .inr ⟨')', _, rfl, .inr rfl⟩
  | cons second others => exact .inr ⟨',', _, rfl, .inl rfl⟩

/-- Nothing is found in what separates arguments. -/
theorem calledWords_behindArgument (others : List Argument) (rest : List Char) :
    calledWords false [] (behindArgument others rest) =
      calledWords false [] (closed others rest) := by
  cases others with
  | nil =>
      rw [closed, argumentTexts, String.intercalate_nil]
      rfl
  | cons second others => rfl

mutual

/-- The words in front of brackets in an expression string are the names of its functions. -/
theorem text_words :
    ∀ (x : Expression) (rest : List Char), x.Dotted → Closes rest →
      calledWords false [] (x.text.toList ++ rest) =
        names x.functions ++ calledWords false [] rest
  | .property path label, rest, hx, hrest => by
      have hpath := hx path (List.mem_singleton.mpr rfl)
      simp only [text, functions]
      rw [calledWords_word _ (dottedIdentifier_words path hpath), calledWords_closes _ rest hrest]
      rfl
  | .call function arguments label, rest, hx, hrest => by
      rw [call_text, calledWords_word _ (name_words function), calledWords]
      simp only [Bool.false_eq_true, if_false, if_true, List.append_nil,
        List.reverse_reverse, Char.reduceEq]
      rw [closed_words arguments rest hx]
      rfl

/-- The words in front of brackets in the arguments of a call, up to the bracket that closes
    them. -/
theorem closed_words :
    ∀ (arguments : List Argument) (rest : List Char),
      (∀ path ∈ argumentPaths arguments, isDottedIdentifier path = true) →
      calledWords false [] (closed arguments rest) =
        names (argumentFunctions arguments) ++ calledWords false [] rest
  | [], rest, _ => by
      rw [← calledWords_behindArgument]
      rfl
  | .expression value :: others, rest, hx => by
      simp only [argumentPaths, List.forall_mem_append] at hx
      simp only [argumentFunctions, names_append]
      rw [closed_cons, argumentText, text_words value _ hx.1 (closes_behindArgument others rest),
        calledWords_behindArgument, closed_words others rest hx.2, List.append_assoc]
  | .literal value :: others, rest, hx => by
      simp only [argumentFunctions]
      rw [closed_cons, argumentText, literal_words value _ (closes_behindArgument others rest),
        calledWords_behindArgument, closed_words others rest hx]

end

/-- Expressions with one expression string call the same functions in the same order. -/
theorem functions_of_text (x y : Expression) (hx : x.Dotted) (hy : y.Dotted)
    (h : x.text = y.text) : x.functions = y.functions := by
  have hwords := text_words x [] hx (.inl rfl)
  rw [h, text_words y [] hy (.inl rfl)] at hwords
  have hnames : names y.functions = names x.functions := List.append_cancel_right hwords
  have hinjective : ∀ f g : Function, f.name.toList = g.name.toList → f = g := fun f g hfg =>
    Function.name_injective f g (String.toList_injective hfg)
  exact ((List.map_inj_right hinjective).mp hnames).symm

mutual

/-- The first aggregate in an expression is the first one among its functions. -/
theorem aggregate?_eq_find :
    ∀ x : Expression, x.aggregate? = x.functions.find? Function.isAggregate
  | .property _ _ => by
      simp only [aggregate?, functions, List.find?_nil]
  | .call function arguments _ => by
      simp only [aggregate?, functions, List.find?_cons]
      rw [argumentAggregate?_eq_find arguments]
      cases function.isAggregate <;> rfl

/-- So is the first aggregate in the arguments of a call. -/
theorem argumentAggregate?_eq_find :
    ∀ arguments : List Argument,
      argumentAggregate? arguments = (argumentFunctions arguments).find? Function.isAggregate
  | [] => by
      simp only [argumentAggregate?, argumentFunctions, List.find?_nil]
  | .expression value :: rest => by
      simp only [argumentAggregate?, argumentFunctions, List.find?_append]
      rw [aggregate?_eq_find value, argumentAggregate?_eq_find rest]
      cases value.functions.find? Function.isAggregate <;> rfl
  | .literal _ :: rest => by
      simp only [argumentAggregate?, argumentFunctions]
      exact argumentAggregate?_eq_find rest

end

/-- An aggregate in an expression is one of its functions. -/
theorem aggregate?_isSome_iff (x : Expression) :
    x.aggregate?.isSome = true ↔ ∃ f ∈ x.functions, f.isAggregate = true := by
  rw [aggregate?_eq_find, List.find?_isSome]

/-- Whether an expression with some string has an aggregate in it is told by the string. -/
theorem aggregate?_of_text (x y : Expression) (hx : x.Dotted) (hy : y.Dotted)
    (h : x.text = y.text) : x.aggregate?.isSome = y.aggregate?.isSome := by
  rw [Bool.eq_iff_iff, aggregate?_isSome_iff, aggregate?_isSome_iff,
    functions_of_text x y hx hy h]

/-- Whether an expression as a whole is an aggregate. -/
def isAggregateCall : Expression → Bool
  | .property _ _ => false
  | .call function _ _ => function.isAggregate

/-- So is whether it is an aggregate as a whole. -/
theorem isAggregateCall_of_text (x y : Expression) (hx : x.Dotted) (hy : y.Dotted)
    (h : x.text = y.text) : x.isAggregateCall = y.isAggregateCall := by
  have hfirst : ∀ z : Expression,
      z.isAggregateCall = z.functions.head?.any Function.isAggregate := by
    intro z
    cases z <;> rfl
  rw [hfirst x, hfirst y, functions_of_text x y hx hy h]

end Expression

end Polyquery
