import SchemaContext.Context.Access
import SchemaContext.Context.Build
import SchemaContext.Manifest
import SchemaContext.Record.Given
import SchemaContext.Schema.Element
import SchemaContext.Schema.TypeMap
import SchemaContext.Proofs.Success
import SchemaContext.Proofs.Survivors
import SchemaContext.Proofs.Completion
import SchemaContext.Proofs.KindLists
import SchemaContext.Proofs.DirectiveMaps
import SchemaContext.Proofs.Deprecation
import SchemaContext.Proofs.BareSchema
import SchemaContext.Proofs.NodeRemoval
import SchemaContext.Proofs.Reachability
import SchemaContext.Proofs.TypedReferences
import SchemaContext.Proofs.CrossReferences
import SchemaContext.Proofs.FirstFailure
import SchemaContext.Proofs.Outcome
import SchemaContext.Proofs.Keeping
import SchemaContext.Proofs.Calls
import SchemaContext.Proofs.SettingsLayers
import SchemaContext.Proofs.EventTrace
import SchemaContext.Proofs.EventOrder
import SchemaContext.Proofs.SinkIndependence
import SchemaContext.Proofs.Reading
import SchemaContext.Proofs.TypeMapChange
import SchemaContext.Proofs.DocumentEffect
import SchemaContext.Proofs.ForeignTypes
import SchemaContext.Proofs.DirectiveUse
import SchemaContext.Proofs.ReadingOrder
import SchemaContext.Proofs.NodeRegrouping
import SchemaContext.Proofs.TypeRemoval
import SchemaContext.Proofs.FirstApplication
import SchemaContext.Proofs.RecordedDirectives
import SchemaContext.Proofs.ForcedTypes
import SchemaContext.Proofs.FieldNodes
import SchemaContext.Proofs.DocumentWalk
import SchemaContext.Proofs.FragmentInlining
import SchemaContext.Proofs.Implementations
import SchemaContext.Proofs.EventCounters
import SchemaContext.Proofs.MappingKeys
import SchemaContext.Proofs.SettingsResolution
import SchemaContext.Proofs.PrintedReference
import SchemaContext.Proofs.LoggedEvents
import SchemaContext.Proofs.NestedValues
import SchemaContext.Proofs.PlainContexts
import SchemaContext.Proofs.PlainEquality
import SchemaContext.Proofs.LosslessContexts
import SchemaContext.Proofs.PlainPlaces
