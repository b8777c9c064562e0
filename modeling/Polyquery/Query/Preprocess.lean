import Polyquery.Query.Basic

/-!
# Carrying Out Edits

An edit changes one part of a query and leaves the others alone. Edits of
grouping apply to advanced queries only, and an advanced query is checked
after every edit.

The preprocessors of a query run from left to right, each on the result of the
one before, and stay registered. A preprocessor whose edits cannot all be
carried out leaves its query as it was.

## Main definitions

* `EditError`: Why an edit cannot be carried out.
* `Query.edit`, `AdvancedQuery.edit`, `AnyQuery.edit`: One edit.
* `Query.preprocess`, `AdvancedQuery.preprocess`, `AnyQuery.preprocess`: All
  preprocessors.
-/

namespace Polyquery

/-- Why an edit cannot be carried out. -/
inductive EditError where
  /-- A plain query has no grouping. -/
  | needsAdvancedQuery
  | invalid (error : ValidationError)
  deriving Repr

/-- A filter with another condition joined to it. Without a filter the condition stands alone. -/
def joinFilter (join : List Condition → Condition) (filter : Option Condition)
    (condition : Condition) : Option Condition :=
  match filter with
  | some old => some (join [old, condition])
  | none => some condition

/-- A filter turned around. Without a filter there is nothing to turn. -/
def negateFilter : Option Condition → Except ValidationError (Option Condition)
  | some old => (Condition.negation old).map some
  | none => .ok none

namespace Query

/-- The query after an edit. -/
def edit (q : Query) : Edit → Except EditError Query
  | .setFilter c => .ok { q with filter := some c }
  | .andFilter c => .ok { q with filter := joinFilter .and q.filter c }
  | .orFilter c => .ok { q with filter := joinFilter .or q.filter c }
  | .negateFilter =>
    match negateFilter q.filter with
    | .ok filter => .ok { q with filter := filter }
    | .error error => .error (.invalid error)
  | .setHaving _ => .error .needsAdvancedQuery
  | .setGroupBy _ => .error .needsAdvancedQuery
  | .addSort key => .ok { q with sorts := q.sorts ++ [key] }
  | .setSorts keys => .ok { q with sorts := keys }
  | .setPagination page => .ok { q with pagination := some page }
  | .setDistinct distinct => .ok { q with distinct := distinct }
  | .setSelect columns => .ok { q with select := some columns }
  | .addCustomizer piece => .ok { q with customizers := q.customizers ++ [piece] }
  | .addPreprocessor stamp name edits =>
    .ok { q with preprocessors := q.preprocessors ++ [⟨stamp, name, edits⟩] }

/-- The query after a preprocessor. -/
def runPreprocessor (q : Query) (p : Preprocessor) : Query :=
  match p.edits.foldlM edit q with
  | .ok edited => edited
  | .error _ => q

/-- The query after its preprocessors. -/
def preprocess (q : Query) : Query :=
  q.preprocessors.foldl runPreprocessor q

end Query

namespace AdvancedQuery

/-- The query with one part changed, before it is checked. -/
def change (q : AdvancedQuery) : Edit → Except EditError AdvancedQuery
  | .setHaving c => .ok { q with having := some c }
  | .setGroupBy columns => .ok { q with groupBy := some columns }
  | edit => (q.toQuery.edit edit).map fun shared => { q with toQuery := shared }

/-- The query after an edit. -/
def edit (q : AdvancedQuery) (edit : Edit) : Except EditError AdvancedQuery := do
  let changed ← q.change edit
  changed.checked.mapError .invalid

/-- The query after a preprocessor. -/
def runPreprocessor (q : AdvancedQuery) (p : Preprocessor) : AdvancedQuery :=
  match p.edits.foldlM edit q with
  | .ok edited => edited
  | .error _ => q

/-- The query after its preprocessors. -/
def preprocess (q : AdvancedQuery) : AdvancedQuery :=
  q.preprocessors.foldl runPreprocessor q

end AdvancedQuery

namespace AnyQuery

/-- The query after an edit. -/
def edit : AnyQuery → Edit → Except EditError AnyQuery
  | .plain q, edit => (q.edit edit).map .plain
  | .advanced q, edit => (q.edit edit).map .advanced

/-- The query after its preprocessors. -/
def preprocess : AnyQuery → AnyQuery
  | .plain q => .plain q.preprocess
  | .advanced q => .advanced q.preprocess

end AnyQuery

end Polyquery
