import Polyquery.Text.Search

/-!
# Dotted Paths

A dotted path is cut at its points, so no segment has a point in it. Segments
without points can be put together again: writing a point in front of each of
them loses nothing, because the next point always tells where a segment ends.
Empty segments are no exception.

## Main definitions

* `Text.trail`: Segments with a point in front of each.

## Theorems

* `splitOn_ne_nil`, `dotted_ne_nil`: A path has at least one segment.
* `splitOn_free`, `dotted_free`: No segment has a point in it.
* `splitOn_whole`, `dotted_whole`: A path without points is a segment.
* `splitOn_covers`, `dotted_covers`: Every other character is in a segment.
* `trail_injective`: Segments without points are told by their trail.
-/

namespace Polyquery.Text

theorem splitOn_ne_nil (separator : Char) (cs : List Char) : splitOn separator cs ≠ [] := by
  cases cs with
  | nil => simp only [splitOn, ne_eq, List.cons_ne_self, not_false_eq_true]
  | cons c rest =>
      unfold splitOn
      split
      · exact List.cons_ne_nil _ _
      · split <;> exact List.cons_ne_nil _ _

/-- No piece between the separators has a separator in it. -/
theorem splitOn_free (separator : Char) (cs : List Char) :
    ∀ piece ∈ splitOn separator cs, separator ∉ piece := by
  induction cs with
  | nil =>
      intro piece hmem
      rw [List.mem_singleton.mp hmem]
      exact List.not_mem_nil
  | cons c rest ih =>
      intro piece hmem
      unfold splitOn at hmem
      cases hrest : splitOn separator rest with
      | nil => exact absurd hrest (splitOn_ne_nil separator rest)
      | cons first others =>
          rw [hrest] at ih hmem
          simp only [] at hmem
          -- A separator opens a new piece, which is empty; anything else grows the first piece.
          by_cases hc : c = separator
          · rw [if_pos hc] at hmem
            rcases List.mem_cons.mp hmem with heq | htail
            · rw [heq]
              exact List.not_mem_nil
            · exact ih piece htail
          · rw [if_neg hc] at hmem
            rcases List.mem_cons.mp hmem with heq | htail
            · -- The character in front of the first piece is no separator.
              rw [heq]
              intro hin
              rcases List.mem_cons.mp hin with hhead | hfirst
              · exact hc hhead.symm
              · exact ih first List.mem_cons_self hfirst
            · exact ih piece (List.mem_cons_of_mem _ htail)

/-- Without a separator there is one piece. -/
theorem splitOn_whole (separator : Char) (cs : List Char) (h : separator ∉ cs) :
    splitOn separator cs = [cs] := by
  induction cs with
  | nil => rfl
  | cons c rest ih =>
      rw [List.mem_cons, not_or] at h
      rw [splitOn, ih h.2]
      exact if_neg (Ne.symm h.1)

theorem dotted_ne_nil (path : String) : dotted path ≠ [] := by
  unfold dotted
  intro h
  exact splitOn_ne_nil '.' path.toList (List.map_eq_nil_iff.mp h)

theorem dotted_whole (path : String) (h : '.' ∉ path.toList) : dotted path = [path] := by
  rw [dotted, splitOn_whole '.' path.toList h, List.map_singleton, String.ofList_toList]

theorem dotted_free (path : String) : ∀ segment ∈ dotted path, '.' ∉ segment.toList := by
  intro segment hmem
  unfold dotted at hmem
  rcases List.mem_map.mp hmem with ⟨piece, hpiece, heq⟩
  rw [← heq, String.toList_ofList]
  exact splitOn_free '.' path.toList piece hpiece

/-- A character that is no separator is in a piece. -/
theorem splitOn_covers (separator : Char) (cs : List Char) :
    ∀ c ∈ cs, c = separator ∨ ∃ piece ∈ splitOn separator cs, c ∈ piece := by
  induction cs with
  | nil => exact fun c hc => absurd hc List.not_mem_nil
  | cons d rest ih =>
      intro c hc
      unfold splitOn
      cases hrest : splitOn separator rest with
      | nil => exact absurd hrest (splitOn_ne_nil separator rest)
      | cons first others =>
          rw [hrest] at ih
          -- The separator is covered by itself, and a piece starts behind it.
          by_cases hd : d = separator
          · simp only [if_pos hd]
            rcases List.mem_cons.mp hc with heq | htail
            · exact .inl (heq.trans hd)
            · rcases ih c htail with hsep | ⟨piece, hpiece, hmem⟩
              · exact .inl hsep
              · exact .inr ⟨piece, List.mem_cons_of_mem _ hpiece, hmem⟩
          · simp only [if_neg hd]
            rcases List.mem_cons.mp hc with heq | htail
            · exact .inr ⟨d :: first, List.mem_cons_self, heq ▸ List.mem_cons_self⟩
            · rcases ih c htail with hsep | ⟨piece, hpiece, hmem⟩
              · exact .inl hsep
              · -- The first piece has grown at its front.
                rcases List.mem_cons.mp hpiece with hfirst | hother
                · rw [hfirst] at hmem
                  exact .inr ⟨d :: first, List.mem_cons_self, List.mem_cons_of_mem d hmem⟩
                · exact .inr ⟨piece, List.mem_cons_of_mem _ hother, hmem⟩

theorem dotted_covers (path : String) :
    ∀ c ∈ path.toList, c = '.' ∨ ∃ segment ∈ dotted path, c ∈ segment.toList := by
  intro c hc
  rcases splitOn_covers '.' path.toList c hc with hpoint | ⟨piece, hpiece, hmem⟩
  · exact .inl hpoint
  · refine .inr ⟨String.ofList piece, List.mem_map.mpr ⟨piece, hpiece, rfl⟩, ?_⟩
    rw [String.toList_ofList]
    exact hmem

/-- The characters of segments with a point in front of each. -/
def trail (segments : List String) : List Char :=
  segments.flatMap fun segment => '.' :: segment.toList

theorem trail_cons (segment : String) (rest : List String) :
    trail (segment :: rest) = '.' :: segment.toList ++ trail rest := by
  simp only [trail, List.flatMap_cons]

/-- A trail is empty or starts with a point. -/
theorem trail_head (segments : List String) : ∀ c ∈ (trail segments).head?, c = '.' := by
  cases segments with
  | nil =>
      intro c hc
      exact absurd hc (by simp only [trail, List.flatMap_nil, List.head?_nil, Option.mem_def,
        reduceCtorEq, not_false_eq_true])
  | cons segment rest =>
      intro c hc
      rw [trail_cons, List.cons_append, List.head?_cons] at hc
      exact (Option.mem_some.mp hc).symm

/-- Where a text without points ends is told by the point that follows. -/
theorem append_trail_inj (a b : List Char) (as bs : List String) (ha : '.' ∉ a) (hb : '.' ∉ b)
    (h : a ++ trail as = b ++ trail bs) : a = b ∧ trail as = trail bs := by
  induction a generalizing b with
  | nil =>
      cases b with
      | nil => exact ⟨rfl, h⟩
      | cons d b =>
          -- The first text would have to go on with a character that is no point.
          rw [List.nil_append] at h
          have hd : d = '.' := trail_head as d (by rw [h, List.cons_append, List.head?_cons]; rfl)
          exact absurd (hd ▸ List.mem_cons_self) hb
  | cons c a ih =>
      cases b with
      | nil =>
          rw [List.nil_append] at h
          have hc : c = '.' := trail_head bs c (by rw [← h, List.cons_append, List.head?_cons]; rfl)
          exact absurd (hc ▸ List.mem_cons_self) ha
      | cons d b =>
          rw [List.cons_append, List.cons_append] at h
          rcases List.cons.inj h with ⟨hcd, hrest⟩
          rcases ih b (fun hin => ha (List.mem_cons_of_mem c hin))
            (fun hin => hb (List.mem_cons_of_mem d hin)) hrest with ⟨hab, htrail⟩
          exact ⟨by rw [hcd, hab], htrail⟩

/-- Segments without points are told by their trail, empty ones included. -/
theorem trail_injective (as bs : List String) (ha : ∀ a ∈ as, '.' ∉ a.toList)
    (hb : ∀ b ∈ bs, '.' ∉ b.toList) (h : trail as = trail bs) : as = bs := by
  -- Each piece ends where the next point stands, as no piece holds one.
  induction as generalizing bs with
  | nil =>
      cases bs with
      | nil => rfl
      | cons b bs =>
          rw [trail_cons, List.cons_append] at h
          exact absurd h (by simp only [trail, List.flatMap_nil, reduceCtorEq, not_false_eq_true])
  | cons a as ih =>
      cases bs with
      | nil =>
          rw [trail_cons, List.cons_append] at h
          exact absurd h (by simp only [trail, List.flatMap_nil, reduceCtorEq, not_false_eq_true])
      | cons b bs =>
          rw [trail_cons, trail_cons, List.cons_append, List.cons_append] at h
          rcases append_trail_inj a.toList b.toList as bs (ha a List.mem_cons_self)
            (hb b List.mem_cons_self) (List.cons.inj h).2 with ⟨hab, hrest⟩
          rw [String.toList_injective hab, ih bs (fun x hx => ha x (List.mem_cons_of_mem a hx))
            (fun x hx => hb x (List.mem_cons_of_mem b hx)) hrest]

end Polyquery.Text
