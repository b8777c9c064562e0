import Mathlib.Algebra.Group.Nat.Defs
import Polyquery.Proofs.Mongo.Stages
import Polyquery.Proofs.Query.Customizers

/-!
# Pages of a Result

A page is a number and a size, and it stands for a stretch of the rows. The bounds
that a page is checked against when it is made are those of a row count, far below
the word in which the offset is computed, so the offset is the product it is meant to
be (`offset_eq`).

Every backend handles a page last. Until then a query with a page is the query
without one, so the two have the same outcome up to the page itself: `Alike` carries
the common steps, and what is left for each backend is one step. In a pipeline the
removal of the fields to sort by comes even later, which is why `Mongo.CutTo` has
stages behind the cut.

In memory the rows are cut as a list. Stretches of one size after each other make up
the list (`flatten_windows`), so the pages of a result neither lose a row nor give one
twice.

## Main definitions

* `Pagination.Fits`: A number and a size that a page can have.
* `AnyQuery.withPage`, `QueryParts.withPage`: Another page.
* `Sql.Paged`, `Mongo.CutTo`, `Mongo.Paged`, `Search.Paged`: What a backend carries of
  a page.
* `AnyQuery.Tiles`: The answers to a query with the first pages of a size.

## Theorems

* `of_fits`, `of_not_fits`, `offset_eq`: Which pages there are and where they start.
* `Sql.compileParts_paged`, `Mongo.compileParts_paged`, `Search.compileParts_paged`,
  `Store.recordsOf_paged`, `Store.rowsOf_paged`: The effect of a page.
* `window_eq`, `flatten_windows`, `tiles_flatten`: Pages after each other.
* `pages_tile`: Pages tile the result.
-/

namespace Polyquery

/-- A number and a size that a page can have. -/
def Pagination.Fits (page size : Nat) : Prop :=
  1 ≤ page ∧ 1 ≤ size ∧ size ≤ 2 ^ 63 - 1 ∧ (page - 1) * size ≤ 2 ^ 63 - 1

/-- A query with a page, or with none. -/
def AnyQuery.withPage (page : Option Pagination) : AnyQuery → AnyQuery
  | .plain q => .plain { q with pagination := page }
  | .advanced q => .advanced { q with pagination := page }

/-- Parts with a page, or with none. -/
def QueryParts.withPage (page : Option Pagination) (parts : QueryParts) : QueryParts :=
  { parts with pagination := page }

section Creation

theorem of_fits {page size : Nat} (h : Pagination.Fits page size) :
    ∃ p, Pagination.of page size = .ok p ∧ p.page = page ∧ p.size = size := by
  have hbounds : 1 ≤ page ∧ 1 ≤ size ∧ size ≤ maxRows ∧ (page - 1) * size ≤ maxRows := h
  rw [Pagination.of, dif_pos hbounds]
  exact ⟨_, rfl, rfl, rfl⟩

theorem of_not_fits {page size : Nat} (h : ¬ Pagination.Fits page size) :
    Pagination.of page size = .error (.pagination page size) := by
  have hbounds : ¬ (1 ≤ page ∧ 1 ≤ size ∧ size ≤ maxRows ∧ (page - 1) * size ≤ maxRows) := h
  rw [Pagination.of, dif_neg hbounds]

/-- The product of a page never comes near the bound at which it would be held. -/
theorem offset_eq (p : Pagination) : p.offset = (p.page - 1) * p.size := by
  have hbound := p.offset_le
  rw [Pagination.offset, Pagination.saturatingProduct, Nat.mul_comm]
  apply Nat.min_eq_left
  unfold maxRows at hbound
  unfold Pagination.maxWord
  omega

end Creation

section Queries

variable (q : AnyQuery) (page : Option Pagination)

theorem effective_withPage : (q.withPage page).effective = q.effective.withPage page := by
  cases q <;> rfl

theorem check_withPage : (q.withPage page).check = q.check := by
  cases q <;> rfl

theorem preprocessors_withPage : (q.withPage page).preprocessors = q.preprocessors := by
  cases q <;> rfl

theorem customizers_effective : q.effective.customizers = q.customizers := by
  cases q <;> rfl

/-- A query with a page is handled as the one without it as far as its parts are. -/
theorem handle_paged {α : Type} {compile : QueryParts → Except CompileError α}
    {R : α → α → Prop} (hplain : q.preprocessors = [])
    (h : Alike R (compile (q.effective.withPage none)) (compile (q.effective.withPage page))) :
    Alike R ((q.withPage none).handle (compilePlain compile) (compileGrouped compile))
      ((q.withPage page).handle (compilePlain compile) (compileGrouped compile)) := by
  rw [handle_plain compile _ ((preprocessors_withPage q none).trans hplain),
    handle_plain compile _ ((preprocessors_withPage q page).trans hplain),
    check_withPage, check_withPage, effective_withPage, effective_withPage]
  exact .bind _ fun _ _ => h

end Queries

/-- A statement that is cut to a page: the clauses for it are the last ones. -/
structure Sql.Paged (page : Pagination) (whole part : Sql.Compiled) : Prop where
  statement : part.statement = { whole.statement with
    limit := some page.size
    offset := some ((page.page - 1) * page.size) }
  text : part.sql = whole.sql ++ " LIMIT " ++ toString page.size ++ " OFFSET " ++
    toString ((page.page - 1) * page.size)
  columns : part.columns = whole.columns

/-- A command that is cut to a page. A pipeline is cut after everything but the removal of the
    fields to sort by, and nothing is skipped for the first page. -/
inductive Mongo.CutTo (page : Pagination) : Mongo.Command → Mongo.Command → Prop where
  | find (filter : Mongo.Filter) (sort : List (String × Mongo.SortValue)) :
    CutTo page (.find filter sort none none) (.find filter sort
      (if 0 < (page.page - 1) * page.size then some ((page.page - 1) * page.size) else none)
      (some page.size))
  | aggregate (before after : List Mongo.Stage)
    (h : after = [] ∨ ∃ names, after = [.unset names]) :
    CutTo page (.aggregate (before ++ after)) (.aggregate (before ++
      (if 0 < (page.page - 1) * page.size then [.skip ((page.page - 1) * page.size)] else []) ++
      [.limit page.size] ++ after))

/-- A compiled command that is cut to a page. -/
structure Mongo.Paged (page : Pagination) (whole part : Mongo.Compiled) : Prop where
  command : Mongo.CutTo page whole.command part.command
  collection : part.collection = whole.collection
  columns : part.columns = whole.columns

/-- A request that is cut to a page. -/
structure Search.Paged (page : Pagination) (whole part : Search.Request) : Prop where
  request : part = { whole with page := some ((page.page - 1) * page.size, page.size) }
  body : part.body = .object (whole.members ++
    [("from", .ofNat ((page.page - 1) * page.size)), ("size", .ofNat page.size)])

section Backends

variable (schema : Schema) (root : String) (parts : QueryParts) (page : Pagination)

/-- The clauses of a page are the last ones of a statement. -/
theorem Sql.paged_of_statement {whole part : Sql.Compiled} (hlimit : whole.statement.limit = none)
    (hoffset : whole.statement.offset = none)
    (h : part.statement = { whole.statement with
      limit := some page.size
      offset := some page.offset })
    (hcolumns : part.columns = whole.columns) : Sql.Paged page whole part := by
  rw [offset_eq] at h
  refine ⟨h, ?_, hcolumns⟩
  rw [Sql.Compiled.sql, Sql.Compiled.sql, h]
  simp only [Sql.Statement.print, hlimit, hoffset, Option.map_none, Option.map_some, Sql.clause,
    String.append_assoc, String.append_empty]

/-- The members of a page are the last ones of a request. -/
theorem Search.paged_of_request {whole part : Search.Request} (hpage : whole.page = none)
    (hadjustments : whole.adjustments = [])
    (h : part = { whole with page := some (page.offset, page.size) }) :
    Search.Paged page whole part := by
  rw [offset_eq] at h
  refine ⟨h, ?_⟩
  rw [Search.Request.body, h, hadjustments, adjustAll_nil, Search.Request.members,
    Search.Request.members, hpage, List.append_nil]

theorem Mongo.pipeline_paged (filter : Option Mongo.Filter) (projection : Projection)
    (maxDepth : Nat) :
    Alike (Mongo.CutTo page) (Mongo.pipeline filter (parts.withPage none) projection maxDepth)
      (Mongo.pipeline filter (parts.withPage (some page)) projection maxDepth) := by
  rw [Mongo.pipeline_eq, Mongo.pipeline_eq]
  refine .bind _ fun grouping _ => .bind _ fun having _ => .bind _ fun sorts _ =>
    .bind _ fun projected _ => .ok _ _ ?_
  -- Behind the page there is at most the removal of the fields to sort by.
  have hafter : (if sorts.computed.isEmpty then []
      else [Mongo.Stage.unset (sorts.computed.map (·.1))]) = [] ∨
      ∃ names, (if sorts.computed.isEmpty then []
        else [Mongo.Stage.unset (sorts.computed.map (·.1))]) = [.unset names] := by
    split
    · exact .inl rfl
    · exact .inr ⟨_, rfl⟩
  have hcut : Mongo.CutTo page _ _ := .aggregate (filter.toList.map .matching ++
    ((grouping.toList.map fun group => group.1) ++ (having.toList.map .matching ++ projected ++
      Mongo.distinctStages parts.distinct projection ++
      (if sorts.sort.isEmpty then [] else [.sort sorts.sort])))) _ hafter
  simp only [List.append_assoc] at hcut
  simp only [Mongo.laterStages, Mongo.pageStages, QueryParts.withPage, List.append_assoc, offset_eq,
    List.nil_append]
  exact hcut

theorem Mongo.findCommand_paged (filter : Option Mongo.Filter) :
    Alike (Mongo.CutTo page) (Mongo.findCommand filter (parts.withPage none))
      (Mongo.findCommand filter (parts.withPage (some page))) := by
  unfold Mongo.findCommand
  refine .bind _ fun sort _ => .ok _ _ ?_
  have hskip : ((some page).map (·.offset)).filter (fun offset => 0 < offset) =
      if 0 < (page.page - 1) * page.size then some ((page.page - 1) * page.size) else none := by
    rw [Option.map_some, offset_eq, Option.filter_some]
    simp only [decide_eq_true_eq]
  change Mongo.CutTo page (.find _ sort none none) (.find _ sort
    (((some page).map (·.offset)).filter fun offset => 0 < offset) (some page.size))
  rw [hskip]
  exact .find _ sort

variable (hcustomizers : parts.customizers = [])

include hcustomizers

theorem Sql.compileParts_paged :
    Alike (Sql.Paged page) (Sql.compileParts schema root (parts.withPage none))
      (Sql.compileParts schema root (parts.withPage (some page))) := by
  unfold Sql.compileParts
  refine .bind _ fun plan _ => .bind _ fun projection _ => .bind _ fun items _ =>
    .bind _ fun filter _ => .bind _ fun groupBy _ => .bind _ fun having _ =>
    .bind _ fun sorts _ => ?_
  rw [show (parts.withPage none).customizers = [] from hcustomizers,
    show (parts.withPage (some page)).customizers = [] from hcustomizers]
  exact .ok _ _ (Sql.paged_of_statement page rfl rfl rfl rfl)

theorem Mongo.compileParts_paged :
    Alike (Mongo.Paged page) (Mongo.compileParts schema root (parts.withPage none))
      (Mongo.compileParts schema root (parts.withPage (some page))) := by
  unfold Mongo.compileParts
  refine .bind _ fun filter _ => .bind _ fun projection _ => ?_
  -- Collection and columns do not depend on the page, so the commands decide.
  have hfinish {x y : Except CompileError Mongo.Command} (h : Alike (Mongo.CutTo page) x y)
      (columns : List String) :
      Alike (Mongo.Paged page)
        (x >>= fun command => .ok ⟨schema.tableName root, command, columns⟩)
        (y >>= fun command => .ok ⟨schema.tableName root, command, columns⟩) := by
    cases h with
    | error e => exact .error e
    | ok whole part hcut => exact .ok _ _ ⟨hcut, rfl, rfl⟩
  -- Nor do the other parts, by which a find is told from a pipeline.
  have hgroups (page : Option Pagination) : (parts.withPage page).groupBy = parts.groupBy := rfl
  have hsorts (page : Option Pagination) : (parts.withPage page).sorts = parts.sorts := rfl
  have hnone (page : Option Pagination) :
      matchingCustomizers Payload.asCommandAdjustment? (parts.withPage page).customizers = [] := by
    rw [show (parts.withPage page).customizers = [] from hcustomizers]
    rfl
  simp only [hgroups, hsorts, hnone, adjustAll_nil]
  split
  · split
    · exact hfinish (Mongo.pipeline_paged parts page filter _ _) _
    · exact hfinish (Mongo.findCommand_paged parts page filter) _
  · exact hfinish (Mongo.pipeline_paged parts page filter _ _) _

theorem Search.compileParts_paged :
    Alike (Search.Paged page) (Search.compileParts schema root (parts.withPage none))
      (Search.compileParts schema root (parts.withPage (some page))) := by
  have hgroups : (parts.withPage none).groupBy = (parts.withPage (some page)).groupBy := rfl
  have hhaving : (parts.withPage none).having = (parts.withPage (some page)).having := rfl
  simp only [Search.compileParts, hgroups, hhaving]
  split
  · exact .error _
  · split
    · exact .error _
    · refine .bind _ fun query _ => .bind _ fun projection _ => .bind _ fun source _ =>
        .bind _ fun sort _ => ?_
      rw [show (parts.withPage none).customizers = [] from hcustomizers,
        show (parts.withPage (some page)).customizers = [] from hcustomizers]
      exact .ok _ _ (Search.paged_of_request page rfl rfl rfl)

end Backends

section Windows

variable {α : Type}

/-- A page is a stretch of the rows. It is empty when it starts behind them. -/
theorem window_eq (page : Pagination) (rows : List α) :
    page.window rows =
      rows.extract ((page.page - 1) * page.size) (min (page.page * page.size) rows.length) := by
  have hend : page.page * page.size = (page.page - 1) * page.size + page.size := by
    rw [← Nat.succ_mul, Nat.succ_eq_add_one, Nat.sub_add_cancel page.one_le_page]
  rw [Pagination.window, offset_eq, List.extract_eq_take_drop, List.take_eq_take_iff,
    List.length_drop]
  omega

/-- Stretches of one size after each other are the rows up to the last one. -/
theorem flatten_windows (rows : List α) (size n : Nat) :
    ((List.range n).map fun i => (rows.drop (i * size)).take size).flatten =
      rows.take (n * size) := by
  induction n with
  | zero => rw [List.range_zero, Nat.zero_mul, List.take_zero]; rfl
  | succ n ih =>
      rw [List.range_succ, List.map_append, List.flatten_append, ih, Nat.succ_mul, List.take_add]
      simp only [List.map_cons, List.map_nil, List.flatten_cons, List.flatten_nil, List.append_nil]

/-- There are as many pages of one size as the bound on the offset allows. -/
theorem exists_pages (size n : Nat) (hsize : 1 ≤ size) (hmax : size ≤ 2 ^ 63 - 1)
    (h : (n - 1) * size ≤ 2 ^ 63 - 1) :
    ∃ pages : List Pagination,
      pages.map (fun p => (p.page, p.size)) = (List.range n).map fun i => (i + 1, size) := by
  induction n with
  | zero => exact ⟨[], rfl⟩
  | succ n ih =>
      have hless : (n - 1) * size ≤ 2 ^ 63 - 1 :=
        Nat.le_trans (Nat.mul_le_mul_right size (Nat.sub_le n 1)) h
      rcases ih hless with ⟨pages, hpages⟩
      have hfits : Pagination.Fits (n + 1) size := ⟨Nat.le_add_left 1 n, hsize, hmax, h⟩
      rcases of_fits hfits with ⟨p, _, hpage, hp⟩
      refine ⟨pages ++ [p], ?_⟩
      rw [List.map_append, hpages, List.range_succ, List.map_append, List.map_singleton,
        List.map_singleton, hpage, hp]

end Windows

/-- The answers to a query with the first pages of a size. -/
def AnyQuery.Tiles (answer : AnyQuery → Except CompileError (List Record)) (q : AnyQuery)
    (size count : Nat) (parts : List (List Record)) : Prop :=
  ∃ pages : List Pagination,
    pages.map (fun p => (p.page, p.size)) = (List.range count).map (fun i => (i + 1, size)) ∧
      pages.mapM (fun p => answer (q.withPage (some p))) = .ok parts

section Answers

variable (store : Store) (clock : Clock)

theorem Store.recordsOf_paged (parts : QueryParts) (hcustomizers : parts.customizers = [])
    (page : Pagination) :
    Alike (fun rows part => part = page.window rows)
      (store.recordsOf clock (parts.withPage none))
      (store.recordsOf clock (parts.withPage (some page))) := by
  unfold Store.recordsOf
  refine .bind _ fun projection _ => .bind _ fun columns _ => .bind _ fun filter _ =>
    .bind _ fun plan _ => ?_
  rw [show (parts.withPage none).customizers = [] from hcustomizers,
    show (parts.withPage (some page)).customizers = [] from hcustomizers]
  exact .ok _ _ rfl

theorem Store.rowsOf_paged (parts : QueryParts) (hcustomizers : parts.customizers = [])
    (page : Pagination) :
    Alike (fun rows part => part = page.window rows)
      (store.rowsOf clock (parts.withPage none))
      (store.rowsOf clock (parts.withPage (some page))) := by
  unfold Store.rowsOf
  refine .bind _ fun projection _ => .bind _ fun columns _ => .bind _ fun filter _ =>
    .bind _ fun groups _ => .bind _ fun having _ => .bind _ fun plan _ => ?_
  rw [show (parts.withPage none).customizers = [] from hcustomizers,
    show (parts.withPage (some page)).customizers = [] from hcustomizers]
  exact .ok _ _ rfl

variable (q : AnyQuery)

/-- An answer with a page is a stretch of the answer without one. -/
theorem answer_paged (hplain : q.preprocessors = []) (hcustomizers : q.customizers = [])
    (page : Pagination) :
    Alike (fun rows part => part = page.window rows)
      ((q.withPage none).handle (store.findAll clock) (store.findRows clock))
      ((q.withPage (some page)).handle (store.findAll clock) (store.findRows clock)) := by
  rw [← customizers_effective] at hcustomizers
  cases q with
  | plain p =>
      have hparts := store.recordsOf_paged clock _ hcustomizers page
      have hquery := handle_paged (.plain p) (some page) hplain hparts
      simp only [AnyQuery.withPage, AnyQuery.handle, ← store.findAll_eq] at hquery ⊢
      exact hquery
  | advanced p =>
      have hparts := store.rowsOf_paged clock _ hcustomizers page
      have hquery := handle_paged (.advanced p) (some page) hplain hparts
      simp only [AnyQuery.withPage, AnyQuery.handle, ← store.findRows_eq] at hquery ⊢
      exact hquery

variable {q}

/-- The answers with consecutive pages of one size add up to the rows. -/
theorem tiles_flatten {answer : AnyQuery → Except CompileError (List Record)} {rows : List Record}
    (hanswer : ∀ page : Pagination, answer (q.withPage (some page)) = .ok (page.window rows))
    {size n : Nat} (hsize : 1 ≤ size) (hmax : size ≤ 2 ^ 63 - 1) (h : (n - 1) * size ≤ 2 ^ 63 - 1) :
    ∃ parts, q.Tiles answer size n parts ∧ parts.flatten = rows.take (n * size) := by
  rcases exists_pages size n hsize hmax h with ⟨pages, hpages⟩
  refine ⟨pages.map (·.window rows), ⟨pages, hpages, ?_⟩, ?_⟩
  · simp only [hanswer]
    exact List.mapM_pure
  · have hwindow : (fun p : Pagination => p.window rows) =
        (fun pair : Nat × Nat => (rows.drop ((pair.1 - 1) * pair.2)).take pair.2) ∘
          fun p => (p.page, p.size) := by
      funext p
      rw [Pagination.window, offset_eq]
      rfl
    rw [hwindow, ← List.map_map, hpages, List.map_map, ← flatten_windows]
    rfl

end Answers

/-- A page is made exactly of a number and a size that fit, and its offset is never held at a
    bound. With a page, every backend gives what it gives without one, cut to the rows from the
    offset on: in SQL by the last two clauses, in Mongo by the last stages before sort keys are
    removed or by the options of a find, in a search by the last two members, and in memory by
    cutting the rows. The answers with consecutive pages add up to all rows, of which there are
    never more than a row count can tell, and later pages are empty. -/
theorem pages_tile :
    (∀ page size, Pagination.Fits page size → ∃ p, Pagination.of page size = .ok p ∧
      p.page = page ∧ p.size = size ∧ p.offset = (page - 1) * size) ∧
    (∀ page size, ¬ Pagination.Fits page size →
      Pagination.of page size = .error (.pagination page size)) ∧
    ∀ q : AnyQuery, q.preprocessors = [] → q.customizers = [] →
      (∀ page : Pagination,
        (∀ schema root, Alike (Sql.Paged page)
          ((q.withPage none).handle (Sql.compileQuery schema root)
            (Sql.compileAdvanced schema root))
          ((q.withPage (some page)).handle (Sql.compileQuery schema root)
            (Sql.compileAdvanced schema root))) ∧
        (∀ schema root, Alike (Mongo.Paged page)
          ((q.withPage none).handle (Mongo.compileQuery schema root)
            (Mongo.compileAdvanced schema root))
          ((q.withPage (some page)).handle (Mongo.compileQuery schema root)
            (Mongo.compileAdvanced schema root))) ∧
        (∀ schema root, Alike (Search.Paged page)
          ((q.withPage none).handle (Search.compileQuery schema root)
            (Search.compileAdvanced schema root))
          ((q.withPage (some page)).handle (Search.compileQuery schema root)
            (Search.compileAdvanced schema root))) ∧
        ∀ (store : Store) clock, Alike (fun rows part => part =
            rows.extract ((page.page - 1) * page.size) (min (page.page * page.size) rows.length))
          ((q.withPage none).handle (store.findAll clock) (store.findRows clock))
          ((q.withPage (some page)).handle (store.findAll clock) (store.findRows clock))) ∧
      ∀ (store : Store) clock rows,
        (q.withPage none).handle (store.findAll clock) (store.findRows clock) = .ok rows →
        (∀ size n, 1 ≤ size → size ≤ 2 ^ 63 - 1 → (n - 1) * size ≤ 2 ^ 63 - 1 →
          ∃ parts, q.Tiles (AnyQuery.handle (store.findAll clock) (store.findRows clock)) size n
            parts ∧ parts.flatten = rows.take (n * size)) ∧
        (∀ size, 1 ≤ size → size ≤ 2 ^ 63 - 1 → rows.length ≤ 2 ^ 63 - 1 →
          ∃ n parts, q.Tiles (AnyQuery.handle (store.findAll clock) (store.findRows clock)) size n
            parts ∧ parts.flatten = rows) ∧
        ∀ page : Pagination, rows.length ≤ (page.page - 1) * page.size →
          (q.withPage (some page)).handle (store.findAll clock) (store.findRows clock) =
            .ok [] := by
  refine ⟨fun page size h => ?_, fun page size h => of_not_fits h,
    fun q hplain hcustomizers => ⟨fun page => ?_, fun store clock rows hrows => ?_⟩⟩
  · rcases of_fits h with ⟨p, hp, hpage, hsize⟩
    exact ⟨p, hp, hpage, hsize, by rw [offset_eq, hpage, hsize]⟩
  · have hparts : q.effective.customizers = [] := (customizers_effective q).trans hcustomizers
    refine ⟨fun schema root => handle_paged q (some page) hplain
        (Sql.compileParts_paged schema root _ page hparts),
      fun schema root => handle_paged q (some page) hplain
        (Mongo.compileParts_paged schema root _ page hparts),
      fun schema root => handle_paged q (some page) hplain
        (Search.compileParts_paged schema root _ page hparts), fun store clock => ?_⟩
    simp only [← window_eq]
    exact answer_paged store clock q hplain hcustomizers page
  · -- Every page of the answer is a window on the rows without a page.
    have hanswer (page : Pagination) :
        (q.withPage (some page)).handle (store.findAll clock) (store.findRows clock) =
          .ok (page.window rows) := by
      rcases (answer_paged store clock q hplain hcustomizers page).exists_ok hrows with
        ⟨part, hpart, rfl⟩
      exact hpart
    refine ⟨fun size n hsize hmax h => tiles_flatten hanswer hsize hmax h,
      fun size hsize hmax hlength => ?_, fun page hend => ?_⟩
    · -- One page more than the full ones takes in the rest.
      have hfull : rows.length / size * size ≤ rows.length := Nat.div_mul_le_self _ _
      have hrest : rows.length < (rows.length / size + 1) * size :=
        Nat.lt_mul_of_div_lt (Nat.lt_succ_self _) hsize
      rcases tiles_flatten hanswer (n := rows.length / size + 1) hsize hmax
        (Nat.le_trans hfull hlength) with ⟨parts, htiles, hflatten⟩
      rw [List.take_of_length_le (Nat.le_of_lt hrest)] at hflatten
      exact ⟨_, parts, htiles, hflatten⟩
    · rw [hanswer page, Pagination.window, offset_eq, List.drop_eq_nil_of_le hend, List.take_nil]

/-- Three records. -/
def samplePaged : Store where
  records := [[("n", .ofInt 1)], [("n", .ofInt 2)], [("n", .ofInt 3)]]

/-- The second page of two rows. -/
def samplePage : Pagination :=
  ⟨2, 2, by decide, by decide, by decide, by decide⟩

/-- Pages of two rows add up to three, and the second one starts behind two rows. -/
theorem pages_tile_sample :
    (∃ n parts, (AnyQuery.plain {}).Tiles (AnyQuery.handle (samplePaged.findAll ⟨"", "", ""⟩)
      (samplePaged.findRows ⟨"", "", ""⟩)) 2 n parts ∧ parts.flatten = samplePaged.records) ∧
    ∃ compiled, ((AnyQuery.plain {}).withPage (some samplePage)).handle
      (Sql.compileQuery .default "Order") (Sql.compileAdvanced .default "Order") = .ok compiled ∧
        compiled.sql = "SELECT \"order\".* FROM \"order\" LIMIT 2 OFFSET 2" := by
  have h := pages_tile.2.2 (.plain {}) rfl rfl
  refine ⟨(h.2 samplePaged ⟨"", "", ""⟩ samplePaged.records rfl).2.1 2 (by decide) (by decide)
    (by decide), ?_⟩
  rcases ((h.1 samplePage).1 .default "Order").exists_ok rfl with ⟨compiled, hcompiled, hpaged⟩
  refine ⟨compiled, hcompiled, hpaged.text.trans ?_⟩
  decide

end Polyquery
