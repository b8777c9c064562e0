import Polyquery.Proofs.Expression.Words
import Polyquery.Proofs.Mongo.Groups
import Polyquery.Proofs.Sql.Orderable

/-!
# Expression Strings Tell Expressions Apart

Fields of groups and columns of distinct rows are found by expression string, so two
expressions must not have one string unless they mean the same. They have one string
exactly when they differ in nothing but aliases, as long as no path can be taken for
something else and no floating-point number is in them.

What is proved is stronger: from a text that begins with an expression and goes on behind it
one can tell both the expression and what comes behind it. An expression starts with a word,
and the character behind the word tells a property from a call. An argument is followed by a
comma if there are more of them and by the closing bracket if there are not, and none starts
with a bracket, so the arguments of two calls are compared from left to right.

A field of a group is that of a group key or of an accumulator, and each of these has a number
of its own. So a field stands for no more than one string, and with the above for one
expression.

## Main definitions

* `Expression.Readable`: Expressions that are told apart.
* `Expression.word`, `Expression.behindWord`: The two parts of an expression string.
* `Mongo.TellsApart`: Fields of which none stands for two texts.

## Theorems

* `expression_ne_literal`: An expression cannot be taken for a constant.
* `expression_cut`, `arguments_cut`: Expressions and arguments.
* `text_eq_iff`: What has one expression string.
* `Mongo.groupStage_tellsApart`: The fields of a group.
* `text_identifies`: Strings, columns of distinct rows and fields of groups.
-/

namespace Polyquery

namespace Expression

open Text

/-- Paths and constants that cannot be taken for each other or for something else: the paths are
    made of identifiers and are no truth values, and no constant is a floating-point number. -/
structure Unmistakable (paths : List String) (literals : List Literal) : Prop where
  dotted : ∀ path ∈ paths, isDottedIdentifier path = true
  plain : ∀ path ∈ paths, path ≠ "true" ∧ path ≠ "false"
  exact : ∀ literal ∈ literals, ∀ x, literal ≠ .float x

/-- An expression that can be told from others by its string. -/
def Readable (x : Expression) : Prop :=
  Unmistakable x.paths x.literals

theorem Unmistakable.of_append {before after : List String} {first rest : List Literal}
    (h : Unmistakable (before ++ after) (first ++ rest)) :
    Unmistakable before first ∧ Unmistakable after rest :=
  ⟨⟨fun path hpath => h.dotted path (List.mem_append_left _ hpath),
      fun path hpath => h.plain path (List.mem_append_left _ hpath),
      fun literal hliteral => h.exact literal (List.mem_append_left _ hliteral)⟩,
    ⟨fun path hpath => h.dotted path (List.mem_append_right _ hpath),
      fun path hpath => h.plain path (List.mem_append_right _ hpath),
      fun literal hliteral => h.exact literal (List.mem_append_right _ hliteral)⟩⟩

theorem Unmistakable.of_cons {paths : List String} {literal : Literal} {rest : List Literal}
    (h : Unmistakable paths (literal :: rest)) : Unmistakable paths rest :=
  ⟨h.dotted, h.plain, fun other hother => h.exact other (List.mem_cons_of_mem literal hother)⟩

/-- The word that an expression starts with. -/
def word : Expression → String
  | .property path _ => path
  | .call function _ _ => function.name

/-- What comes behind the word: nothing for a property, and brackets for a call. -/
def behindWord : Expression → List Char
  | .property _ _ => []
  | .call _ arguments _ => '(' :: closed arguments []

theorem closed_append (arguments : List Argument) (rest : List Char) :
    closed arguments [] ++ rest = closed arguments rest :=
  List.append_assoc _ [')'] rest

variable {x : Expression}

theorem text_word (x : Expression) : x.text.toList = x.word.toList ++ x.behindWord := by
  cases x with
  | property path label => exact (List.append_nil path.toList).symm
  | call function arguments label =>
      have htext := call_text function arguments label []
      rw [List.append_nil] at htext
      exact htext

theorem word_words (hx : x.Readable) : ∀ c ∈ x.word.toList, isWordChar c = true := by
  cases x with
  | property path label => exact dottedIdentifier_words path (hx.dotted path List.mem_cons_self)
  | call function arguments label => exact name_words function

theorem word_starts (hx : x.Readable) :
    ∃ c rest, x.word.toList = c :: rest ∧ isLetter c = true := by
  cases x with
  | property path label => exact dottedIdentifier_starts path (hx.dotted path List.mem_cons_self)
  | call function arguments label => exact name_starts function

theorem behindWord_endsWord (x : Expression) {rest : List Char} (h : Closes rest) :
    EndsWord (x.behindWord ++ rest) := by
  cases x with
  | property path label => exact h.endsWord
  | call function arguments label => exact endsWord_bracket _

/-- An expression is not written like a constant. -/
theorem expression_ne_literal (hx : x.Readable) (literal : Literal)
    (hfloat : ∀ value, literal ≠ .float value) {us vs : List Char} (hus : Closes us)
    (hvs : Closes vs) : x.text.toList ++ us ≠ literal.text.toList ++ vs := by
  intro h
  rw [text_word, List.append_assoc] at h
  rcases word_starts hx with ⟨c, rest, hword, hletter⟩
  have hne : x.word.toList ≠ [] := by
    rw [hword]
    exact List.cons_ne_nil c rest
  rcases wordlike_or_string literal hfloat with hwordlike | ⟨s, rfl⟩
  · rcases word_cut (word_words hx) hwordlike.word.2 (behindWord_endsWord x hus) hvs.endsWord h with
      ⟨htext, hbehind⟩
    cases hwordlike with
    | integer n =>
        -- A number does not start with a letter.
        rcases intText_starts n with ⟨d, digits, hdigits, hdigit⟩
        have hsame : c :: rest = d :: digits := hword.symm.trans (htext.trans hdigits)
        rw [(List.cons.inj hsame).1, hdigit] at hletter
        exact absurd hletter (by decide)
    | boolean b =>
        cases x with
        | property path label =>
            have hpath := hx.plain path List.mem_cons_self
            cases b with
            | false => exact hpath.2 (String.toList_injective htext)
            | true => exact hpath.1 (String.toList_injective htext)
        | call function arguments label =>
            -- Behind a truth value there is no bracket.
            rw [← hbehind] at hvs
            exact not_closes_bracket _ hvs
  · exact absurd h.symm (string_ne_word s hne (word_words hx))

/-- The comma tells that there are more arguments. -/
theorem behindArgument_cut (as bs : List Argument) {us vs : List Char}
    (h : behindArgument as us = behindArgument bs vs) : closed as us = closed bs vs := by
  cases as with
  | nil =>
      cases bs with
      | nil => exact congrArg ("".toList ++ ·) h
      | cons b bs => exact absurd (List.cons.inj h).1 (by decide)
  | cons a as =>
      cases bs with
      | nil => exact absurd (List.cons.inj h).1 (by decide)
      | cons b bs => exact (List.cons.inj (List.cons.inj h).2).2

/-- No argument starts with a bracket. -/
theorem argument_starts (argument : Argument) (others : List Argument) (rest more : List Char)
    (h : Unmistakable (argumentPaths (argument :: others))
      (argumentLiterals (argument :: others))) :
    closed (argument :: others) rest ≠ ')' :: more := by
  intro hclosed
  rw [closed_cons] at hclosed
  cases argument with
  | expression value =>
      have hvalue : value.Readable := h.of_append.1
      rcases word_starts hvalue with ⟨c, word, hword, hletter⟩
      rw [argumentText, text_word, hword] at hclosed
      -- The text of an expression begins with a letter, so no bracket is closed there,
      rw [(List.cons.inj hclosed).1] at hletter
      exact absurd hletter (by decide)
  | literal value =>
      have hfloat := h.exact value List.mem_cons_self
      rw [argumentText] at hclosed
      -- and the text of a literal with a character of a word or with a quote.
      rcases wordlike_or_string value hfloat with hword | ⟨s, rfl⟩
      · rcases List.exists_cons_of_ne_nil hword.word.1 with ⟨c, word, htext⟩
        have hfirst := hword.word.2 c (htext ▸ List.mem_cons_self)
        rw [htext] at hclosed
        rw [(List.cons.inj hclosed).1] at hfirst
        exact absurd hfirst (by decide)
      · rw [string_text] at hclosed
        exact absurd (List.cons.inj hclosed).1 (by decide)

mutual

/-- An expression can be told, up to aliases, from its text and what comes behind it. -/
theorem expression_cut : ∀ (x y : Expression) {us vs : List Char}, x.Readable → y.Readable →
    Closes us → Closes vs → x.text.toList ++ us = y.text.toList ++ vs → x.bare = y.bare ∧ us = vs
  | .property p label, .property q other, us, vs, hx, hy, hus, hvs, h => by
      rcases word_cut (word_words hx) (word_words hy) hus.endsWord hvs.endsWord h with
        ⟨hpath, hrest⟩
      have hsame : p = q := String.toList_injective hpath
      exact ⟨by rw [bare, bare, hsame], hrest⟩
  | .property p label, .call g bs other, us, vs, hx, hy, hus, hvs, h => by
      rw [text_word (.call g bs other), List.append_assoc] at h
      have hbehind := (word_cut (word_words hx) (word_words hy) hus.endsWord
        (behindWord_endsWord (.call g bs other) hvs) h).2
      -- A bracket would come behind the path.
      rw [hbehind] at hus
      exact absurd hus (not_closes_bracket _)
  | .call f as label, .property q other, us, vs, hx, hy, hus, hvs, h => by
      rw [text_word (.call f as label), List.append_assoc] at h
      have hbehind := (word_cut (word_words hx) (word_words hy)
        (behindWord_endsWord (.call f as label) hus) hvs.endsWord h).2
      rw [← hbehind] at hvs
      exact absurd hvs (not_closes_bracket _)
  | .call f as label, .call g bs other, us, vs, hx, hy, hus, hvs, h => by
      -- The names end at the brackets, and the arguments are compared from there on.
      rw [text_word, text_word, List.append_assoc, List.append_assoc] at h
      rcases word_cut (word_words hx) (word_words hy) (behindWord_endsWord _ hus)
        (behindWord_endsWord _ hvs) h with ⟨hname, hbehind⟩
      have hsame : f = g := Function.name_injective f g (String.toList_injective hname)
      have hclosed : closed as us = closed bs vs := by
        rw [← closed_append as us, ← closed_append bs vs]
        exact (List.cons.inj hbehind).2
      rcases arguments_cut as bs hx hy hclosed with ⟨hbares, hrest⟩
      exact ⟨by rw [bare, bare, hsame, hbares], hrest⟩

/-- So can the arguments of a call. -/
theorem arguments_cut : ∀ (as bs : List Argument) {us vs : List Char},
    Unmistakable (argumentPaths as) (argumentLiterals as) →
    Unmistakable (argumentPaths bs) (argumentLiterals bs) →
    closed as us = closed bs vs → Argument.bareAll as = Argument.bareAll bs ∧ us = vs
  | [], [], us, vs, has, hbs, h => ⟨rfl, (List.cons.inj h).2⟩
  | [], b :: bs, us, vs, has, hbs, h => absurd h.symm (argument_starts b bs vs us hbs)
  | a :: as, [], us, vs, has, hbs, h => absurd h (argument_starts a as us vs has)
  | .expression x :: as, .expression y :: bs, us, vs, has, hbs, h => by
      rw [closed_cons, closed_cons] at h
      rcases expression_cut x y has.of_append.1 hbs.of_append.1 (closes_behindArgument as us)
        (closes_behindArgument bs vs) h with ⟨hbare, hbehind⟩
      rcases arguments_cut as bs has.of_append.2 hbs.of_append.2 (behindArgument_cut as bs hbehind)
        with ⟨hbares, hrest⟩
      exact ⟨by rw [Argument.bareAll, Argument.bareAll, hbare, hbares], hrest⟩
  | .expression x :: as, .literal b :: bs, us, vs, has, hbs, h => by
      rw [closed_cons, closed_cons] at h
      exact absurd h (expression_ne_literal has.of_append.1 b (hbs.exact b List.mem_cons_self)
        (closes_behindArgument as us) (closes_behindArgument bs vs))
  | .literal a :: as, .expression y :: bs, us, vs, has, hbs, h => by
      rw [closed_cons, closed_cons] at h
      exact absurd h.symm (expression_ne_literal hbs.of_append.1 a (has.exact a List.mem_cons_self)
        (closes_behindArgument bs vs) (closes_behindArgument as us))
  | .literal a :: as, .literal b :: bs, us, vs, has, hbs, h => by
      rw [closed_cons, closed_cons] at h
      rcases literal_cut a b (has.exact a List.mem_cons_self) (hbs.exact b List.mem_cons_self)
        (closes_behindArgument as us) (closes_behindArgument bs vs) h with ⟨hsame, hbehind⟩
      rcases arguments_cut as bs has.of_cons hbs.of_cons (behindArgument_cut as bs hbehind) with
        ⟨hbares, hrest⟩
      exact ⟨by rw [Argument.bareAll, Argument.bareAll, hsame, hbares], hrest⟩

end

/-- Expressions that can be told apart have one string if they differ in nothing but aliases, and
    only then. -/
theorem text_eq_iff {x y : Expression} (hx : x.Readable) (hy : y.Readable) :
    x.text = y.text ↔ x.bare = y.bare := by
  refine ⟨fun h => ?_, text_of_bare⟩
  exact (expression_cut x y hx hy (.inl rfl) (.inl rfl) (by rw [h])).1

end Expression

namespace Mongo

/-- Fields of which none stands for two texts. -/
def TellsApart (fields : List (String × String)) : Prop :=
  ∀ s t field, fields.lookup s = some field → fields.lookup t = some field → s = t

theorem key_ne_value (i j : Nat) : "_id." ++ keyName i ≠ valueName j := by
  intro h
  have hchars := congrArg String.toList h
  simp only [valueName, String.toList_append] at hchars
  exact absurd (List.cons.inj hchars).1 (by decide)

/-- The fields of group keys are those of keys with different numbers. -/
theorem groupFields_tellsApart (es : List Expression) (keys : List (String × Expr))
    (fields : List (String × String)) (h : groupFields 0 [] es = .ok (keys, fields)) :
    TellsApart fields := by
  have hkeyed := groupFields_keyed 0 [] es keys fields h
  intro s t field hs ht
  rcases hkeyed.added s field hs with hnone | ⟨i, e, he, rfl, hi⟩
  · cases hnone
  rcases hkeyed.added t field ht with hnone | ⟨j, e', he', rfl, hj⟩
  · cases hnone
  have hsame : 0 + i = 0 + j :=
    Text.numbered_injective "g" _ _ ((String.append_right_inj "_id.").mp (hi.symm.trans hj))
  rw [Nat.zero_add, Nat.zero_add] at hsame
  rw [hsame, he'] at he
  rw [Option.some.inj he]

/-- A new accumulator has a new field. -/
theorem accumulators_tellsApart (index : Nat) (known : List (String × String))
    (calls : List Expression) (values : List (String × Expr)) (fields : List (String × String))
    (h : accumulators index known calls = .ok (values, fields)) (hknown : TellsApart known)
    (hfresh : ∀ text field, known.lookup text = some field → ∀ j ≥ index, field ≠ valueName j) :
    TellsApart fields := by
  induction calls generalizing index known values fields with
  | nil =>
      rw [← (Prod.mk.inj (Except.ok.inj h)).2]
      exact hknown
  | cons call rest ih =>
      simp only [accumulators] at h
      by_cases hfound : (known.lookup call.text).isSome = true
      · -- The call has a field already.
        rw [if_pos hfound] at h
        exact ih index known values fields h hknown hfresh
      · rw [if_neg hfound] at h
        rcases bind_eq_ok.mp h with ⟨value, _, h⟩
        rcases bind_eq_ok.mp h with ⟨⟨others, known'⟩, hothers, h⟩
        rw [← (Prod.mk.inj (Except.ok.inj h)).2]
        refine ih (index + 1) _ others known' hothers ?_ ?_
        · intro s t field hs ht
          rw [lookup_cons_eq] at hs ht
          -- The new field is that of no text before, since its number is larger than all others.
          split at hs <;> split at ht
          · rename_i hs' ht'
            exact hs'.trans ht'.symm
          · exact absurd (Option.some.inj hs).symm (hfresh t field ht index (Nat.le_refl index))
          · exact absurd (Option.some.inj ht).symm (hfresh s field hs index (Nat.le_refl index))
          · exact hknown s t field hs ht
        · intro text field hlookup j hj
          rw [lookup_cons_eq] at hlookup
          split at hlookup
          · rw [← Option.some.inj hlookup]
            intro hname
            have hsame := valueName_injective _ _ hname
            omega
          · exact hfresh text field hlookup j (by omega)

/-- The group keys have fields inside of the identity of a group. -/
theorem groupKey_tellsApart (groupBy : Option Selection) (key : GroupKey) (scope : GroupScope)
    (h : groupKey groupBy = .ok (key, scope)) :
    TellsApart scope.fields ∧ ∀ text field, scope.fields.lookup text = some field →
      ∃ i, field = "_id." ++ keyName i := by
  rcases groupBy with _ | (list | piece)
  · rw [← (Prod.mk.inj (Except.ok.inj h)).2]
    exact ⟨by rintro s t field ⟨⟩, by rintro text field ⟨⟩⟩
  · rcases bind_eq_ok.mp h with ⟨⟨keys, known⟩, hkeys, h⟩
    rw [← (Prod.mk.inj (Except.ok.inj h)).2]
    refine ⟨groupFields_tellsApart list.effective keys known hkeys, fun text field hlookup => ?_⟩
    rcases (groupFields_keyed 0 [] list.effective keys known hkeys).added text field hlookup with
      hnone | ⟨i, e, _, _, hfield⟩
    · cases hnone
    · exact ⟨0 + i, hfield⟩
  · rcases bind_eq_ok.mp h with ⟨_, _, h⟩
    rw [← (Prod.mk.inj (Except.ok.inj h)).2]
    exact ⟨by rintro s t field ⟨⟩, by rintro text field ⟨⟩⟩

/-- No field of a group stands for two expression strings. -/
theorem groupStage_tellsApart (parts : QueryParts) (projection : Projection) (stage : Stage)
    (group : GroupScope) (h : groupStage parts projection = .ok (stage, group)) :
    TellsApart group.fields := by
  rcases bind_eq_ok.mp h with ⟨⟨key, before⟩, hkey, h⟩
  rcases bind_eq_ok.mp h with ⟨⟨values, fields⟩, hvalues, h⟩
  rw [← (Prod.mk.inj (Except.ok.inj h)).2]
  rcases groupKey_tellsApart parts.groupBy key before hkey with ⟨hbefore, hnames⟩
  refine accumulators_tellsApart 0 before.fields _ values fields hvalues hbefore ?_
  intro text field hlookup j _
  rcases hnames text field hlookup with ⟨i, rfl⟩
  exact key_ne_value i j

end Mongo

open Expression

/-- Expression strings identify expressions. Two expressions have one string exactly when they
    differ in nothing but aliases, if their paths are made of identifiers and are no truth values
    and they hold no floating-point numbers. A sort key of distinct rows is therefore found among
    the columns exactly when it is one of them up to its aliases, and two expressions that are
    found in the fields of a group have the same field exactly when they differ in nothing else. -/
theorem text_identifies (x y : Expression) (hx : x.Readable) (hy : y.Readable) :
    (x.text = y.text ↔ x.bare = y.bare) ∧
    (∀ columns : List (String × Expression), (∀ column ∈ columns, column.2.Readable) →
      (Sql.isSelected (.items columns) x = true ↔ ∃ column ∈ columns, column.2.bare = x.bare)) ∧
    ∀ parts projection stage group, Mongo.groupStage parts projection = .ok (stage, group) →
      ∀ field, (Mongo.Scope.grouped group).fieldOf? x = some field →
        ((Mongo.Scope.grouped group).fieldOf? y = some field ↔ x.bare = y.bare) := by
  refine ⟨text_eq_iff hx hy, fun columns hcolumns => ?_, ?_⟩
  · refine Sql.isSelected_iff
      (fun piece => by simp only [ne_eq, reduceCtorEq, not_false_eq_true]) ?_
    intro z hz
    rcases List.mem_map.mp hz with ⟨column, hcolumn, rfl⟩
    exact (text_eq_iff hx (hcolumns column hcolumn)).mp
  · intro parts projection stage group hgroup field hfield
    have hfields := Mongo.groupStage_tellsApart parts projection stage group hgroup
    rw [← text_eq_iff hx hy]
    constructor
    · exact fun hother => hfields x.text y.text field hfield hother
    · intro htext
      rw [Mongo.Scope.fieldOf?, ← htext]
      exact hfield

/-- A name and the length of a nick name with a string in between, in which there is all that
    stands between arguments elsewhere. -/
def sampleJoined (label : Option String) : Expression :=
  .call .concat [.expression (.property "user.name" label), .literal (.string "it's, (so"),
    .expression (.call .length [.expression (.property "nick" none)] none)] none

/-- The same with two strings. -/
def sampleParted : Expression :=
  .call .concat [.expression (.property "user.name" none), .literal (.string "it's"),
    .literal (.string "(so"),
    .expression (.call .length [.expression (.property "nick" none)] none)] none

/-- An alias inside of a call is overlooked, and a comma inside of a string is not. -/
theorem text_identifies_sample :
    (sampleJoined (some "n")).Readable ∧ (sampleJoined none).Readable ∧ sampleParted.Readable ∧
    (sampleJoined (some "n")).text = (sampleJoined none).text ∧
    (sampleJoined none).text ≠ sampleParted.text ∧
    Sql.isSelected (.items [("who", sampleJoined (some "n"))]) (sampleJoined none) = true ∧
    ∃ stage group,
      Mongo.groupStage (.ofAdvanced { groupBy := some (.items ⟨[], [sampleJoined (some "n")]⟩) })
        .entity = .ok (stage, group) ∧
      (Mongo.Scope.grouped group).fieldOf? (sampleJoined none) = some "_id.g0" := by
  have hreadable : ∀ x : Expression, x.paths = ["user.name", "nick"] →
      (∀ literal ∈ x.literals, ∃ s, literal = .string s) → x.Readable := by
    intro x hpaths hliterals
    refine ⟨?_, ?_, ?_⟩
    · rw [hpaths]
      decide
    · rw [hpaths]
      decide
    · intro literal hliteral value
      rcases hliterals literal hliteral with ⟨s, rfl⟩
      simp only [ne_eq, reduceCtorEq, not_false_eq_true]
  have hjoined : ∀ label, (sampleJoined label).Readable := fun label =>
    hreadable _ rfl fun literal hliteral => ⟨_, List.mem_singleton.mp hliteral⟩
  have hparted : sampleParted.Readable := by
    refine hreadable _ rfl fun literal hliteral => ?_
    rcases List.mem_cons.mp hliteral with hfirst | hsecond
    · exact ⟨_, hfirst⟩
    · exact ⟨_, List.mem_singleton.mp hsecond⟩
  have halias := text_identifies _ _ (hjoined (some "n")) (hjoined none)
  have hcomma := text_identifies _ _ (hjoined none) hparted
  refine ⟨hjoined _, hjoined _, hparted, halias.1.mpr rfl, fun h => ?_, ?_, ?_⟩
  · have hbare := hcomma.1.mp h
    simp only [sampleJoined, sampleParted, Expression.bare, Argument.bareAll,
      Expression.call.injEq, List.cons.injEq, Argument.literal.injEq, reduceCtorEq, false_and,
      and_false] at hbare
  · refine (hcomma.2.1 [("who", sampleJoined (some "n"))] ?_).mpr ⟨_, List.mem_cons_self, rfl⟩
    rw [List.forall_mem_singleton]
    exact hjoined _
  · have hgroup : Mongo.groupStage
        (.ofAdvanced { groupBy := some (.items ⟨[], [sampleJoined (some "n")]⟩) }) .entity =
          .ok (_, ⟨[((sampleJoined (some "n")).text, "_id.g0")], false⟩) := rfl
    refine ⟨_, _, hgroup, (halias.2.2 _ _ _ _ hgroup "_id.g0" ?_).mpr rfl⟩
    simp only [Mongo.Scope.fieldOf?, List.lookup_cons_self]

end Polyquery
