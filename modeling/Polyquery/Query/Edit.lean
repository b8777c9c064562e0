import Polyquery.Condition
import Polyquery.Pagination
import Polyquery.Selection
import Polyquery.SortKey

/-!
# Edits of Queries

The changes that turn one query into another, as data. A preprocessor is a
named list of edits that a query carries with it and that is carried out
before the query is compiled. Since an edit may itself register a
preprocessor, the two are defined together.

Like native pieces, preprocessors are told apart by a stamp.

## Main definitions

* `Edit`: A change of a query.
* `Preprocessor`: A named list of edits.
-/

namespace Polyquery

/-- A change of a query. -/
inductive Edit where
  | setFilter (condition : Condition)
  /-- Joins the filter with another condition by `and`. -/
  | andFilter (condition : Condition)
  /-- Joins the filter with another condition by `or`. -/
  | orFilter (condition : Condition)
  /-- Turns the filter around. -/
  | negateFilter
  | setHaving (condition : Condition)
  | setGroupBy (columns : Selection)
  | addSort (key : SortKey)
  | setSorts (keys : List SortKey)
  | setPagination (page : Pagination)
  | setDistinct (distinct : Bool)
  | setSelect (columns : Selection)
  | addCustomizer (piece : Native)
  | addPreprocessor (stamp : Nat) (name : String) (edits : List Edit)
  deriving Repr

/-- A named list of edits. -/
structure Preprocessor where
  /-- What tells the preprocessor from every other one. -/
  stamp : Nat
  name : String
  edits : List Edit
  deriving Repr

/-- Whether two preprocessors are one and the same. -/
def Preprocessor.same (a b : Preprocessor) : Bool :=
  a.stamp == b.stamp

end Polyquery
