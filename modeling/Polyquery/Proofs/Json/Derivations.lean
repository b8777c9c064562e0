import Polyquery.Proofs.Json.Grammar

/-!
# Reading by the Grammar

A reader that gets behind a value has passed blanks and a text of the grammar. Nothing that can
be read as a whole is therefore missing from the grammar, and what holds for all its texts holds
for every text that is read. The converse fails, because a string of the grammar may have half of
a surrogate pair in it and a number may be too large.

The induction runs on the counter of the reader and through values, items and members at once.
Below it are the tokens, whose readers are taken apart one after the other.

## Main definitions

* `Continues`: What may stand before the quotation mark that ends a string.
* `onDigits`: A place where digits have to stand.
* `ReadsGrammar`: What a counter is enough for.

## Theorems

* `scanString_body`, `scanNumeral_cut`: Strings and numbers.
* `reads_grammar`: Values, items and members.
* `object_of_read`: A text that begins with a brace.
-/

namespace Polyquery.Grammar

open Reader

section Tokens

theorem skipBlanks_cut (cs : List Char) :
    ∃ before, Blank before ∧ cs = before ++ skipBlanks cs := by
  refine ⟨cs.takeWhile isBlank, fun c hc => ?_, List.takeWhile_append_dropWhile.symm⟩
  exact List.all_eq_true.mp (List.all_takeWhile) c hc

/-- What may stand between a place in a string and the quotation mark that ends it. -/
def Continues : StringState → List Char → Prop
  | .plain _, body => StringBody body
  | .escape _, body => StringBody ('\\' :: body)
  | .hex _ count _, body => count ≤ 3 → ∀ digits : List Char, digits.length = count →
    (∀ d ∈ digits, (hexValue? d).isSome = true) → StringBody ('\\' :: 'u' :: (digits ++ body))

theorem breakOff_ne_ended (soFar : StringSoFar) (fault : Fault) (value : Except Fault String)
    (rest : List Char) : soFar.breakOff fault ≠ .ended value rest := by
  cases soFar <;> exact StringToken.noConfusion

theorem finishHex_plain (soFar : StringSoFar) (leading : Option Nat) (code : Nat) :
    ∃ soFar' leading', finishHex soFar leading code = (soFar', .plain leading') := by
  unfold finishHex
  repeat' split
  all_goals exact ⟨_, _, rfl⟩

/-- A string that ends has the body of a string before its end. -/
theorem scanString_body {soFar : StringSoFar} {state : StringState} {cs rest : List Char}
    {value : Except Fault String} (h : scanString soFar state cs = .ended value rest) :
    ∃ body, cs = body ++ '"' :: rest ∧ Continues state body := by
  induction cs generalizing soFar state with
  | nil =>
      rw [scanString] at h
      exact absurd h (breakOff_ne_ended _ _ _ _)
  | cons c cs ih =>
      cases state with
      | plain leading =>
          rw [scanString] at h
          split at h
          next hslash =>
            obtain ⟨body, rfl, hbody⟩ := ih h
            exact ⟨c :: body, rfl, hslash ▸ hbody⟩
          next hslash =>
            split at h
            next hquote =>
              injection h with _ hrest
              exact ⟨[], by rw [hquote, hrest]; rfl, .nil⟩
            next hquote =>
              split at h
              next => exact absurd h (breakOff_ne_ended _ _ _ _)
              next hcontrol =>
                obtain ⟨body, rfl, hbody⟩ := ih h
                exact ⟨c :: body, rfl,
                  .plain c body hquote hslash (Nat.le_of_not_lt hcontrol) hbody⟩
      | escape leading =>
          rw [scanString] at h
          split at h
          next hhex =>
            obtain ⟨body, rfl, hbody⟩ := ih h
            refine ⟨c :: body, rfl, ?_⟩
            rw [hhex]
            exact hbody (Nat.zero_le 3) [] rfl fun _ hd => absurd hd List.not_mem_nil
          next =>
            split at h
            next escaped hescape =>
              obtain ⟨body, rfl, hbody⟩ := ih h
              exact ⟨c :: body, rfl, .escape c body (by rw [hescape]; rfl) hbody⟩
            next => exact absurd h (breakOff_ne_ended _ _ _ _)
      | hex leading count code =>
          rw [scanString] at h
          split at h
          next digit hdigit =>
            -- The digit is put behind those that have been read.
            have hall {digits : List Char} (hdigits : ∀ d ∈ digits, (hexValue? d).isSome = true) :
                ∀ d ∈ digits ++ [c], (hexValue? d).isSome = true := by
              rw [List.forall_mem_append, List.forall_mem_singleton, hdigit]
              exact ⟨hdigits, rfl⟩
            split at h
            next hlast =>
              obtain ⟨soFar', leading', hplain⟩ := finishHex_plain soFar leading (16 * code + digit)
              rw [hplain] at h
              obtain ⟨body, rfl, hbody⟩ := ih h
              refine ⟨c :: body, rfl, fun _ digits hlength hdigits => ?_⟩
              rw [List.append_cons]
              have hfour : (digits ++ [c]).length = 4 := by
                rw [List.length_append, hlength, hlast]
                rfl
              exact .hex _ body hfour (hall hdigits) hbody
            next hlast =>
              obtain ⟨body, rfl, hbody⟩ := ih h
              refine ⟨c :: body, rfl, fun hcount digits hlength hdigits => ?_⟩
              rw [List.append_cons]
              exact hbody (by omega) _ (by rw [List.length_append, hlength]; rfl) (hall hdigits)
          next =>
            split at h <;> exact absurd h (breakOff_ne_ended _ _ _ _)

theorem readString_derives {cs rest : List Char} {outline : Outline}
    (h : readString cs = (outline, some rest)) :
    ∃ value, '"' :: cs = value ++ rest ∧ Derives .value value := by
  have hended : ∃ value, scanString (.ok []) (.plain none) cs = .ended value rest := by
    unfold readString at h
    split at h
    next s others hscan =>
      injection h with _ hrest
      injection hrest with hrest
      exact ⟨_, hrest ▸ hscan⟩
    next fault others hscan =>
      injection h with _ hrest
      injection hrest with hrest
      exact ⟨_, hrest ▸ hscan⟩
    next => cases h
  obtain ⟨value, hscan⟩ := hended
  obtain ⟨body, rfl, hbody⟩ := scanString_body hscan
  exact ⟨'"' :: (body ++ ['"']), by simp, .string body hbody⟩

theorem readWord_cut {value outline : Outline} {word cs rest : List Char}
    (h : readWord value word cs = (outline, some rest)) : cs = word ++ rest := by
  induction word generalizing cs with
  | nil =>
      rw [readWord] at h
      injection h with _ hrest
      injection hrest
  | cons w word ih =>
      cases cs with
      | nil => cases h
      | cons c cs =>
          rw [readWord] at h
          split at h
          next hc => rw [ih h, hc, List.cons_append]
          next => cases h

/-- Digits, as many as there are, with what follows them. -/
theorem digits_cut {cs : List Char} (h : cs.takeWhile Char.isDigit ≠ []) :
    Digits (cs.takeWhile Char.isDigit) ∧
      cs = cs.takeWhile Char.isDigit ++ cs.dropWhile Char.isDigit :=
  ⟨⟨h, List.all_eq_true.mp List.all_takeWhile⟩, List.takeWhile_append_dropWhile.symm⟩

/-- A place where digits have to stand, and what is done with them. -/
def onDigits {α : Type} (cs : List Char) (f : List Char → List Char → Except Fault α) :
    Except Fault α :=
  match cs.takeWhile Char.isDigit, cs with
  | [], [] => .error .eofInValue
  | [], _ => .error .invalidNumber
  | digits, others => f digits others

theorem onDigits_ok {α : Type} {cs : List Char} {a : α}
    (f : List Char → List Char → Except Fault α) (h : onDigits cs f = .ok a) :
    cs.takeWhile Char.isDigit ≠ [] ∧ f (cs.takeWhile Char.isDigit) cs = .ok a := by
  unfold onDigits at h
  cases hdigits : cs.takeWhile Char.isDigit with
  | nil =>
      rw [hdigits] at h
      cases cs <;> cases h
  | cons d digits =>
      rw [hdigits] at h
      exact ⟨List.cons_ne_nil d digits, h⟩

theorem scanExponent_cut {n m : Reader.Numeral} {letter : Char} {cs rest : List Char}
    (hletter : letter = 'e' ∨ letter = 'E') (h : scanExponent n cs = .ok (m, rest)) :
    ∃ exponent, letter :: cs = exponent ++ rest ∧ Exponent exponent := by
  -- Behind the letter there may be a sign; the scan goes on with the digits in each case.
  obtain ⟨negative, sign, others, hsign, hcs, hdigits⟩ : ∃ negative sign others,
      (sign = [] ∨ sign = ['+'] ∨ sign = ['-']) ∧ cs = sign ++ others ∧
        onDigits others (fun digits others =>
          .ok ({ n with exponent := some (negative, digits) }, others.dropWhile Char.isDigit)) =
            .ok (m, rest) := by
    unfold scanExponent at h
    split at h
    next negative others hcs =>
      split at hcs <;> cases hcs
      next => exact ⟨_, ['+'], _, .inr (.inl rfl), rfl, h⟩
      next => exact ⟨_, ['-'], _, .inr (.inr rfl), rfl, h⟩
      next => exact ⟨_, [], _, .inl rfl, rfl, h⟩
  obtain ⟨hsome, hrest⟩ := onDigits_ok _ hdigits
  injection hrest with hrest
  injection hrest with _ hrest
  -- Letter, sign and digits are the exponent, and the scan stops behind them.
  obtain ⟨hall, hcut⟩ := digits_cut hsome
  refine ⟨letter :: (sign ++ others.takeWhile Char.isDigit), ?_, .some _ _ _ hletter hsign hall⟩
  rw [List.cons_append, List.append_assoc, ← hrest, ← hcut, hcs]

theorem scanAfterDigits_cut {n m : Reader.Numeral} {cs rest : List Char}
    (h : scanAfterDigits n cs = .ok (m, rest)) :
    ∃ exponent, cs = exponent ++ rest ∧ Exponent exponent := by
  unfold scanAfterDigits at h
  split at h
  next => exact scanExponent_cut (.inl rfl) h
  next => exact scanExponent_cut (.inr rfl) h
  next =>
    injection h with h
    injection h with _ hrest
    exact ⟨[], hrest, .none⟩

theorem scanNumeral_cut {negative : Bool} {n : Reader.Numeral} {cs rest : List Char}
    (h : scanNumeral negative cs = .ok (n, rest)) :
    ∃ whole fraction exponent, cs = whole ++ (fraction ++ (exponent ++ rest)) ∧ Digits whole ∧
      (whole.head? = some '0' → whole = ['0']) ∧ Fraction fraction ∧ Exponent exponent := by
  unfold scanNumeral at h
  -- A numeral has at least one digit in front of its point.
  cases hwhole : cs.takeWhile Char.isDigit with
  | nil =>
      simp only [hwhole] at h
      cases cs <;> cases h
  | cons d digits =>
      have hsome : cs.takeWhile Char.isDigit ≠ [] := by
        rw [hwhole]
        exact List.cons_ne_nil d digits
      obtain ⟨hall, hcut⟩ := digits_cut hsome
      rw [hwhole] at hall hcut
      simp only [hwhole] at h
      split at h
      next => cases h
      next => cases h
      next => cases h
      next hlong _ =>
        -- A zero in front stands alone: the three branches before refuse any longer one.
        have hzero : (d :: digits).head? = some '0' → d :: digits = ['0'] := by
          intro hhead
          rw [List.head?_cons, Option.some.injEq] at hhead
          cases digits with
          | nil => rw [hhead]
          | cons next digits => exact absurd (by rw [hhead]) (hlong next digits)
        split at h
        next tail htail =>
          -- Behind a point there are digits, and then perhaps an exponent.
          obtain ⟨hpoint, hafter⟩ := onDigits_ok (fun fraction tail =>
            scanAfterDigits ⟨negative, d :: digits, some fraction, none⟩
              (tail.dropWhile Char.isDigit)) h
          obtain ⟨exponent, htext, hexponent⟩ := scanAfterDigits_cut hafter
          obtain ⟨hfraction, htail'⟩ := digits_cut hpoint
          refine ⟨d :: digits, '.' :: tail.takeWhile Char.isDigit, exponent, ?_, hall, hzero,
            .some _ hfraction, hexponent⟩
          rw [← htext, hcut, htail]
          exact congrArg (fun others => d :: digits ++ '.' :: others) htail'
        next tail =>
          -- Without a point the exponent follows at once.
          obtain ⟨exponent, htext, hexponent⟩ := scanAfterDigits_cut h
          refine ⟨d :: digits, [], exponent, ?_, hall, hzero, .none, hexponent⟩
          rw [List.nil_append, ← htext, ← hcut]

theorem readNumber_cut {negative : Bool} {cs rest : List Char} {outline : Outline}
    (h : readNumber negative cs = (outline, some rest)) {sign : List Char}
    (hsign : sign = [] ∨ sign = ['-']) :
    ∃ value, sign ++ cs = value ++ rest ∧ Derives .value value := by
  -- Where the number ends does not depend on the value that its numeral stands for.
  have hread : ∃ n, scanNumeral negative cs = .ok (n, rest) := by
    unfold readNumber at h
    split at h
    next => cases h
    next n others hscan =>
      split at h
      all_goals
        injection h with _ hrest
        injection hrest with hrest
        exact ⟨n, hrest ▸ hscan⟩
  obtain ⟨n, hscan⟩ := hread
  obtain ⟨whole, fraction, exponent, rfl, hwhole, hzero, hfraction, hexponent⟩ :=
    scanNumeral_cut hscan
  exact ⟨sign ++ (whole ++ (fraction ++ exponent)), by simp only [List.append_assoc],
    .number _ (.parts sign whole fraction exponent hsign hwhole hzero hfraction hexponent)⟩

end Tokens

/-- Blanks in front belong to whatever may have blanks around it. -/
theorem derives_blank {symbol : Symbol} {before cs : List Char} (hbefore : Blank before)
    (h : Derives symbol cs) (hvalue : symbol ≠ .value) (hobject : symbol ≠ .object) :
    Derives symbol (before ++ cs) := by
  have hjoin {others : List Char} (hothers : Blank others) : Blank (before ++ others) :=
    List.forall_mem_append.mpr ⟨hbefore, hothers⟩
  -- The blanks go to the first item or member, which may have blanks in front already.
  induction h with
  | null | yes | no | number | string | emptyArray | array | object => exact absurd rfl hvalue
  | emptyObject | fullObject => exact absurd rfl hobject
  | item blank value after hblank h hafter =>
      rw [← List.append_assoc]
      exact .item _ value after (hjoin hblank) h hafter
  | lastItem item _ ih => exact .lastItem _ (ih Symbol.noConfusion Symbol.noConfusion)
  | nextItem item rest _ hrest ih =>
      rw [← List.append_assoc]
      exact .nextItem _ rest (ih Symbol.noConfusion Symbol.noConfusion) hrest
  | member blank key after item hblank hkey hafter h =>
      rw [← List.append_assoc]
      exact .member _ key after item (hjoin hblank) hkey hafter h
  | lastMember member _ ih => exact .lastMember _ (ih Symbol.noConfusion Symbol.noConfusion)
  | nextMember member rest _ hrest ih =>
      rw [← List.append_assoc]
      exact .nextMember _ rest (ih Symbol.noConfusion Symbol.noConfusion) hrest

/-- With a counter, whatever is read up to its end is a text of the grammar. -/
structure ReadsGrammar (counter : Nat) : Prop where
  value : ∀ {cs outline rest}, readValue counter cs = (outline, some rest) →
    ∃ before value, cs = before ++ (value ++ rest) ∧ Blank before ∧ Derives .value value
  items : ∀ {cs outlines rest}, readItems counter cs = (outlines, some rest) →
    ∃ items, cs = items ++ ']' :: rest ∧ Derives .items items
  members : ∀ {cs outlines rest}, readMembers counter cs = (outlines, some rest) →
    ∃ members, '"' :: cs = members ++ '\x7d' :: rest ∧ Derives .members members

section Steps

variable {counter : Nat} {cs rest : List Char} (ih : ReadsGrammar counter)

include ih

theorem value_derives {outline : Outline}
    (h : readValue (counter + 1) cs = (outline, some rest)) :
    ∃ before value, cs = before ++ (value ++ rest) ∧ Blank before ∧ Derives .value value := by
  obtain ⟨before, hbefore, hcs⟩ := skipBlanks_cut cs
  -- The blanks in front are split off; from here on the text begins with the value.
  suffices hvalue : ∃ value, skipBlanks cs = value ++ rest ∧ Derives .value value by
    obtain ⟨value, hskip, hvalue⟩ := hvalue
    exact ⟨before, value, by rw [← hskip, ← hcs], hbefore, hvalue⟩
  rw [readValue] at h
  split at h
  · cases h
  next c others hskip =>
    rw [hskip]
    -- The first character decides: a letter begins one of the three words,
    by_cases hnull : c = 'n'
    · rw [if_pos hnull] at h
      exact ⟨_, by rw [hnull, readWord_cut h]; rfl, .null⟩
    rw [if_neg hnull] at h
    by_cases hyes : c = 't'
    · rw [if_pos hyes] at h
      exact ⟨_, by rw [hyes, readWord_cut h]; rfl, .yes⟩
    rw [if_neg hyes] at h
    by_cases hno : c = 'f'
    · rw [if_pos hno] at h
      exact ⟨_, by rw [hno, readWord_cut h]; rfl, .no⟩
    rw [if_neg hno] at h
    -- a sign or a digit begins a number,
    by_cases hminus : c = '-'
    · rw [if_pos hminus] at h
      exact hminus ▸ readNumber_cut h (.inr rfl)
    rw [if_neg hminus] at h
    by_cases hdigit : c.isDigit = true
    · rw [if_pos hdigit] at h
      exact readNumber_cut h (.inl rfl)
    rw [if_neg hdigit] at h
    -- and a quote begins a string.
    by_cases hquote : c = '"'
    · rw [if_pos hquote] at h
      exact hquote ▸ readString_derives h
    rw [if_neg hquote] at h
    -- What is left begins with a bracket or a brace, and blanks may follow it.
    obtain ⟨blank, hblank, hothers⟩ := skipBlanks_cut others
    split at h
    · next hc =>
      rw [hc, hothers]
      split at h
      · cases h
      next d behind hbehind =>
        rw [hbehind]
        split at h
        · next hd =>
          -- The array is closed at once, so it is empty.
          injection h with _ hrest
          injection hrest with hrest
          exact ⟨'[' :: (blank ++ [']']), by simp [hd, hrest], .emptyArray blank hblank⟩
        · injection h with _ hrest
          -- The blanks behind the bracket belong to the first item.
          obtain ⟨items, htext, hitems⟩ := ih.items (Prod.ext rfl hrest)
          refine ⟨'[' :: (blank ++ items ++ [']']), by simp [htext], .array _ ?_⟩
          exact derives_blank hblank hitems Symbol.noConfusion Symbol.noConfusion
    split at h
    · next hc =>
      rw [hc, hothers]
      split at h
      · cases h
      next d behind hbehind =>
        rw [hbehind]
        split at h
        · -- A brace that is closed at once is an empty object.
          next hd =>
          injection h with _ hrest
          injection hrest with hrest
          exact ⟨'\x7b' :: (blank ++ ['\x7d']), by simp [hd, hrest],
            .object _ (.emptyObject blank hblank)⟩
        split at h
        · next hd =>
          injection h with _ hrest
          -- Members begin with the quote of a key; no other character may follow the brace.
          obtain ⟨members, htext, hmembers⟩ := ih.members (Prod.ext rfl hrest)
          refine ⟨'\x7b' :: (blank ++ members ++ ['\x7d']), by simp [hd, htext],
            .object _ (.fullObject _ ?_)⟩
          exact derives_blank hblank hmembers Symbol.noConfusion Symbol.noConfusion
        · cases h
    · -- No value begins with another character.
      cases h

theorem items_derives {outlines : List Outline × Stop}
    (h : readItems (counter + 1) cs = (outlines, some rest)) :
    ∃ items, cs = items ++ ']' :: rest ∧ Derives .items items := by
  rw [readItems] at h
  split at h
  · cases h
  next item others hitem =>
    obtain ⟨before, value, rfl, hbefore, hvalue⟩ := ih.value hitem
    obtain ⟨after, hafter, hothers⟩ := skipBlanks_cut others
    -- The first item is a value with the blanks around it.
    have hone := Derives.item before value after hbefore hvalue hafter
    rw [hothers]
    split at h
    · cases h
    next c behind hbehind =>
      rw [hbehind]
      split at h
      · next hc =>
        injection h with _ hrest
        injection hrest with hrest
        -- A bracket behind it closes the array, and the item was the last one.
        exact ⟨_, by simp [hc, hrest], .lastItem _ hone⟩
      split at h
      · next hc =>
        -- Behind a comma the reader goes on, unless the array is closed there.
        obtain ⟨blank, hblank, hnext⟩ := skipBlanks_cut behind
        split at h
        · cases h
        · injection h with _ hrest
          obtain ⟨items, htext, hitems⟩ := ih.items (Prod.ext rfl hrest)
          have hrest := derives_blank hblank hitems Symbol.noConfusion Symbol.noConfusion
          rw [hnext, htext]
          exact ⟨_, by simp [hc], .nextItem _ _ hone hrest⟩
      · cases h

theorem members_derives {outlines : List (Except Fault String × Outline) × Stop}
    (h : readMembers (counter + 1) cs = (outlines, some rest)) :
    ∃ members, '"' :: cs = members ++ '\x7d' :: rest ∧ Derives .members members := by
  rw [readMembers] at h
  split at h
  · cases h
  next key others hkey =>
    -- A member is a key, a colon and an item, with blanks between them.
    obtain ⟨body, rfl, hbody⟩ := scanString_body hkey
    obtain ⟨after, hafter, hothers⟩ := skipBlanks_cut others
    rw [hothers]
    split at h
    · cases h
    · next tail htail =>
      rw [htail]
      split at h
      · cases h
      next value behind hvalue =>
        obtain ⟨before, text, rfl, hbefore, htext⟩ := ih.value hvalue
        obtain ⟨ending, hending, hbehind⟩ := skipBlanks_cut behind
        have hone := Derives.member [] body after _ (fun _ hc => absurd hc List.not_mem_nil) hbody
          hafter (.item before text ending hbefore htext hending)
        rw [hbehind]
        split at h
        · cases h
        next c next hnext =>
          rw [hnext]
          split at h
          · next hc =>
            injection h with _ hrest
            injection hrest with hrest
            -- A brace behind it closes the object.
            exact ⟨_, by simp [hc, hrest], .lastMember _ hone⟩
          split at h
          · next hc =>
            -- Behind a comma the quote of the next key has to follow.
            obtain ⟨blank, hblank, hgap⟩ := skipBlanks_cut next
            rw [hgap]
            split at h
            · cases h
            next d tail hquote =>
              rw [hquote]
              split at h
              · next hd =>
                injection h with _ hrest
                obtain ⟨members, hmore, hmembers⟩ := ih.members (Prod.ext rfl hrest)
                have hrest := derives_blank hblank hmembers Symbol.noConfusion Symbol.noConfusion
                rw [hd, hmore]
                exact ⟨_, by simp [hc], .nextMember _ _ hone hrest⟩
              · cases h
          · cases h
    · cases h

end Steps

/-- Whatever is read up to its end is a text of the grammar. -/
theorem reads_grammar (counter : Nat) : ReadsGrammar counter := by
  induction counter with
  | zero =>
      -- Without a counter nothing is read to an end.
      refine ⟨fun h => ?_, fun h => ?_, fun h => ?_⟩
      · rw [readValue] at h
        cases h
      · rw [readItems] at h
        cases h
      · rw [readMembers] at h
        cases h
  | succ counter ih => exact ⟨value_derives ih, items_derives ih, members_derives ih⟩

/-- A value with something behind it that begins with a brace is an object. -/
theorem object_of_value {cs rest : List Char} (h : Derives .value cs)
    (hbrace : (cs ++ rest).head? = some '\x7b') : Derives .object cs := by
  cases h with
  | object cs h => exact h
  | null | yes | no | string | emptyArray | array => cases hbrace
  | number cs h =>
      cases h with
      | parts sign whole fraction exponent hsign hwhole =>
          rcases hsign with rfl | rfl
          · cases whole with
            | nil => exact absurd rfl hwhole.1
            | cons d digits =>
                cases hbrace
                exact absurd (hwhole.2 _ List.mem_cons_self) (by decide)
          · cases hbrace

/-- What a reader passes of a text that begins with a brace is the text of an object. -/
theorem object_of_read {counter : Nat} {cs rest : List Char} {outline : Outline}
    (h : readValue counter cs = (outline, some rest)) (hbrace : cs.head? = some '\x7b') :
    ∃ text, cs = text ++ rest ∧ Derives .object text := by
  obtain ⟨before, value, rfl, hbefore, hvalue⟩ := (reads_grammar counter).value h
  cases before with
  | nil => exact ⟨value, rfl, object_of_value hvalue hbrace⟩
  | cons c before =>
      cases hbrace
      exact absurd (hbefore _ List.mem_cons_self) (by decide)

end Polyquery.Grammar
