import CodeIndex.Entity.Basic
import CodeIndex.Text.Pieces

/-!
# Clauses of one entity

Records with one identity are clauses of one entity.  The entity spans all of them and refers to
whatever any of them refers to; everything else comes from the clause that starts first.
-/

namespace CodeIndex

variable {τ : Type} [DecidableEq τ]

/-- Two clauses of one entity as one: on equal starts the first one given decides. -/
def Entity.join (first second : Entity τ) : Entity τ :=
  { (if first.startLine ≤ second.startLine then first else second) with
    startLine := min first.startLine second.startLine
    endLine := max first.endLine second.endLine
    references := Text.distinct (first.references ++ second.references) }

/-- Adds a clause to entities of distinct identities: it joins the one with its identity, or comes
last. -/
def addClause (merged : List (Entity τ)) (e : Entity τ) : List (Entity τ) :=
  match merged with
  | [] => [e]
  | m :: rest => if m.id == e.id then m.join e :: rest else m :: addClause rest e

/-- One entity per identity, in order of first occurrence. -/
def mergeClauses (entities : List (Entity τ)) : List (Entity τ) :=
  entities.foldl addClause []

end CodeIndex
