import SchemaContext.Journal.Basic
import SchemaContext.Record.OfSchema

/-!
# Transformers

A transformer makes what a context holds of a type of one kind, or of the directives
that a schema defines. The default transformers make records; any of them can be
replaced, and a replacement may give up with a failure of its own.
-/

namespace SchemaContext

structure Transformers (ρ : Type) where
  ofType : Kind → Schema → NamedType → Except Failure ρ
  ofDirectives : Schema → List DirectiveDefinition → Except Failure (List ρ)

namespace Transformers

/-- The transformers that make records. -/
def records : Transformers Record where
  ofType _ s t := Failure.ofArguments (Record.ofType s t)
  ofDirectives s ds :=
    Failure.ofArguments (ds.mapM fun d => Record.directive <$> DirectiveRecord.ofDefinition s d)

/-- Transformers whose results are passed through a function. -/
def map (f : ρ → σ) (t : Transformers ρ) : Transformers σ where
  ofType k s type := f <$> t.ofType k s type
  ofDirectives s ds := List.map f <$> t.ofDirectives s ds

/-- The default transformers, their records seen as values. -/
def values : Transformers Value := records.map Record.toValue

def replaceType (t : Transformers ρ) (k : Kind) (f : Schema → NamedType → Except Failure ρ) :
    Transformers ρ :=
  { t with ofType := fun k' => if k' = k then f else t.ofType k' }

def replaceDirectives (t : Transformers ρ)
    (f : Schema → List DirectiveDefinition → Except Failure (List ρ)) : Transformers ρ :=
  { t with ofDirectives := f }

end Transformers
end SchemaContext
