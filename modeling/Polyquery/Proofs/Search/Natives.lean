import Polyquery.Proofs.Condition.Rendering
import Polyquery.Proofs.Query.Customizers
import Polyquery.Proofs.Query.Natives
import Polyquery.Search.Request

/-!
# Native Pieces in Search Requests

A native piece of a search is a document in JSON, and it comes out of a query as it
went in: as a clause of the query where the condition has it, as a sort key at its
position, or as the fields that are returned. A search has no groups, so a query that
has a piece for them is refused.

## Main definitions

* `Search.accepts`, `Search.Resolves`: The payloads that are translated at a place.
* `Search.rawClause`: A native condition in a request.
* `Search.Joined`: A clause in a larger one.
* `Search.Carries`: A request with everything native in its place.

## Theorems

* `Search.natives_iff`, `Search.accepts_iff`: The payloads in the tables.
* `Search.renders`, `Search.gathers`: Native pieces in filters.
* `Search.Carries.translated`: What a request carries is translated.
* `Search.compileParts_carries`: The request of a query.
-/

namespace Polyquery.Search

/-- The payloads that a request is made of. It has no groups. -/
def accepts : NativePosition → Payload → Bool
  | .groupBy, _ => false
  | _, .json _ => true
  | _, _ => false

/-- The table of a place makes something of a piece. There is one for all places but groups. -/
def Resolves : NativePosition → Native → Prop
  | .groupBy, _ => False
  | _, piece => ∃ document, natives.resolve piece = .ok document

theorem natives_iff (piece : Native) (document : Json) :
    natives.resolve piece = .ok document ↔ piece.payload = .json document := by
  rcases piece with ⟨stamp, name, payload⟩
  rw [NativeTable.resolve_eq_ok]
  cases payload <;> simp [natives, NativeTable.accept, NativeTable.empty, Payload.asJson?]

/-- The accepted payloads are those of which the table makes something. -/
theorem accepts_iff (position : NativePosition) (piece : Native) :
    accepts position piece.payload = true ↔ Resolves position piece := by
  rcases piece with ⟨stamp, name, payload⟩
  cases position <;> cases payload <;> simp [accepts, Resolves, natives_iff]

/-- A native condition is its document. A piece of any other kind has none, and no request is made
    with it. -/
def rawClause (piece : Native) : Clause :=
  .native (piece.payload.asJson?.getD .null)

theorem renders : interpretation.Renders rawClause where
  simple := fun _ _ => rfl
  native := by
    intro piece clause h
    rcases map_eq_ok.mp h with ⟨document, hdocument, rfl⟩
    rw [rawClause, (natives_iff piece document).mp hdocument]
    rfl

/-- A clause is joined with others into a larger one, or with none. -/
inductive Joined (clause : Clause) : Clause → Prop where
  | alone : Joined clause clause
  | every (parts : List Clause) (part : Clause) (hmem : part ∈ parts) (h : Joined clause part) :
    Joined clause (.every parts)
  | any (parts : List Clause) (part : Clause) (hmem : part ∈ parts) (h : Joined clause part) :
    Joined clause (.any parts)

theorem gathers : interpretation.Gathers Joined where
  alone := fun _ => .alone
  joined := by
    intro connective parts part clause hmem hpart
    cases connective with
    | and => exact .every parts part hmem hpart
    | or => exact .any parts part hmem hpart

/-- A sort key as it stands in a request. -/
def Ordered : SortKey → SortEntry → Prop
  | .simple key, entry =>
    ∃ field, fieldOf key.expression = .ok field ∧ entry = .field field key.direction
  | .native piece, entry => ∃ document, piece.payload = .json document ∧ entry = .native document

/-- A request with everything native that a query has, each piece in its place. -/
structure Carries (q : AdvancedQuery) (request : Request) : Prop where
  query : ∃ query, request.query = query.getD .all ∧
    interpretation.FilterOf rawClause Joined q.filter query
  sorts : List.Forall₂ Ordered q.sorts request.sort
  select : ∀ piece, q.select = some (.native piece) →
    ∃ document, piece.payload = .json document ∧ request.source = some (.native document)
  having : interpretation.FilterOf rawClause Joined q.having none
  groupBy : ∀ piece, q.groupBy ≠ some (.native piece)

/-- What a request carries is of kinds that are translated. -/
theorem Carries.translated {q : AdvancedQuery} {request : Request} (h : Carries q request)
    (hfilter : TranslatedIn accepts q.filter) (hhaving : TranslatedIn accepts q.having) :
    q.Translated accepts := by
  refine ⟨hfilter, hhaving, forall_native h.sorts ?_, ?_, ?_⟩
  · rintro piece entry ⟨document, hpayload, _⟩
    rw [hpayload]
    rfl
  · intro piece hpiece
    rcases h.select piece hpiece with ⟨document, hpayload, _⟩
    rw [hpayload]
    rfl
  · exact fun piece hpiece => absurd hpiece (h.groupBy piece)

theorem sortEntry_ordered (key : SortKey) (entry : SortEntry) (h : sortEntry key = .ok entry) :
    Ordered key entry := by
  cases key with
  | simple key =>
      rcases map_eq_ok.mp h with ⟨field, hfield, rfl⟩
      exact ⟨field, hfield, rfl⟩
  | native piece =>
      rcases map_eq_ok.mp h with ⟨document, hdocument, rfl⟩
      exact ⟨document, (natives_iff piece document).mp hdocument, rfl⟩

/-- In a query with a request every native piece is translated, and the request has all of them in
    their places. -/
theorem compileParts_carries (schema : Schema) (root : String) (q : AnyQuery) (request : Request)
    (h : compileParts schema root q.effective = .ok request) :
    q.lift.Translated accepts ∧ Carries q.lift request := by
  unfold compileParts at h
  dsimp only at h
  split at h
  · -- A request cannot group.
    exact absurd h (by rintro ⟨⟩)
  · rename_i hgroup
    split at h
    · exact absurd h (by rintro ⟨⟩)
    · rename_i hhaving
      rw [Option.not_isSome_iff_eq_none] at hgroup hhaving
      rcases bind_eq_ok.mp h with ⟨query, hquery, h⟩
      rcases bind_eq_ok.mp h with ⟨projection, hprojection, h⟩
      rcases bind_eq_ok.mp h with ⟨source, hsource, h⟩
      rcases bind_eq_ok.mp h with ⟨sort, hsort, h⟩
      -- Without a filter of groups there is nothing to render.
      have hnone : interpretation.filter q.effective.having schema.maxDepth = .ok none := by
        rw [hhaving]
        rfl
      have hcarries : Carries q.lift request := by
        rw [← Except.ok.inj h]
        constructor
        case query => exact ⟨query, rfl, filterOf_of_filter renders gathers hquery⟩
        case sorts => exact (forall₂_of_mapM hsort).imp sortEntry_ordered
        case select =>
          intro piece hpiece
          -- A native select is the whole projection, and becomes the source.
          rw [projection_native (select_effective hpiece) hprojection] at hsource
          rcases bind_eq_ok.mp hsource with ⟨document, hdocument, hsource⟩
          exact ⟨document, (natives_iff piece document).mp hdocument,
            (congrArg Prod.fst (Except.ok.inj hsource)).symm⟩
        case having => exact filterOf_of_filter renders gathers hnone
        case groupBy =>
          intro piece hpiece
          exact absurd ((select_effective hpiece).symm.trans hgroup) (by rintro ⟨⟩)
      have haccepts : ∀ piece clause, interpretation.native piece = .ok clause →
          accepts .condition piece.payload = true := by
        intro piece clause hclause
        rcases map_eq_ok.mp hclause with ⟨document, hdocument, _⟩
        exact (accepts_iff .condition piece).mpr ⟨document, hdocument⟩
      exact ⟨hcarries.translated (translatedIn_of_filter haccepts hquery)
        (translatedIn_of_filter haccepts hnone), hcarries⟩

end Polyquery.Search
