import Polyquery.Error

/-!
# Pages of a Result

A page is given by its number, counted from one, and by the number of rows on
a page. Every backend has to be able to carry the size and the offset of a
page, so both are bounded by the greatest signed 64-bit integer.

## Main definitions

* `Pagination`: A page.
* `Pagination.of`: The page with a number and a size, if there is one.
* `Pagination.offset`: The number of rows before the page.
-/

namespace Polyquery

/-- The greatest row count that every backend can carry. -/
def maxRows : Nat := 9223372036854775807

/-- A page of a result. -/
structure Pagination where
  page : Nat
  size : Nat
  one_le_page : 1 ≤ page
  one_le_size : 1 ≤ size
  size_le : size ≤ maxRows
  offset_le : (page - 1) * size ≤ maxRows
  deriving DecidableEq

namespace Pagination

instance : Repr Pagination :=
  ⟨fun p _ => "page " ++ repr p.page ++ " of " ++ repr p.size⟩

/-- The page with a number and a size, if both are at least one and within the bounds. -/
def of (page size : Nat) : Except ValidationError Pagination :=
  if h : 1 ≤ page ∧ 1 ≤ size ∧ size ≤ maxRows ∧ (page - 1) * size ≤ maxRows then
    .ok ⟨page, size, h.1, h.2.1, h.2.2.1, h.2.2.2⟩
  else .error (.pagination page size)

/-- The greatest unsigned 64-bit number. -/
def maxWord : Nat := 18446744073709551615

/-- A product of unsigned 64-bit numbers, held at the greatest one. -/
def saturatingProduct (a b : Nat) : Nat :=
  min (a * b) maxWord

/-- The number of rows before the page, in 64-bit arithmetic. -/
def offset (p : Pagination) : Nat :=
  saturatingProduct p.size (p.page - 1)

end Pagination

end Polyquery
