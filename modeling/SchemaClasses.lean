import SchemaClasses.Main
import SchemaClasses.Proofs.Outcome
import SchemaClasses.Proofs.TextKeys
import SchemaClasses.Proofs.Description
import SchemaClasses.Proofs.Lineage
import SchemaClasses.Proofs.Evaluation
import SchemaClasses.Proofs.Discriminator
import SchemaClasses.Proofs.PropertyType
import SchemaClasses.Proofs.ClosedTypes
import SchemaClasses.Proofs.Acceptance
import SchemaClasses.Proofs.Consistency
import SchemaClasses.Proofs.Subclasses
import SchemaClasses.Proofs.Neighbours
import SchemaClasses.Proofs.Histories
import SchemaClasses.Proofs.MemberNames
import SchemaClasses.Proofs.Parameters
import SchemaClasses.Proofs.Renaming
import SchemaClasses.Proofs.Reordering
import SchemaClasses.Proofs.Outline
import SchemaClasses.Proofs.ClassFiles
import SchemaClasses.Proofs.Insertion
import SchemaClasses.Proofs.TemporaryNames
import SchemaClasses.Proofs.Writing
import SchemaClasses.Proofs.FileNames
import SchemaClasses.Proofs.OutputPlaces
import SchemaClasses.Proofs.Isolation
import SchemaClasses.Proofs.ClassText
import SchemaClasses.Proofs.ModelFiles
import SchemaClasses.Proofs.Checks
import SchemaClasses.Proofs.Overlay
import SchemaClasses.Proofs.Refusals
import SchemaClasses.Proofs.Plans
import SchemaClasses.Proofs.Runs
import SchemaClasses.Proofs.SameTrees
import SchemaClasses.Proofs.Interchange
import SchemaClasses.Proofs.JsonValues
import SchemaClasses.Proofs.Overwriting
import SchemaClasses.Proofs.WritingAgain
import SchemaClasses.Proofs.Switches
import SchemaClasses.Proofs.Repetition
import SchemaClasses.Proofs.Causes
import SchemaClasses.Proofs.ModelFailures
import SchemaClasses.Proofs.Annotations
import SchemaClasses.Proofs.Wrapping
import SchemaClasses.Proofs.TypeNames
import SchemaClasses.Proofs.FieldOrder
import SchemaClasses.Proofs.Imports
import SchemaClasses.Proofs.ShortNames
import SchemaClasses.Proofs.Alike
import SchemaClasses.Proofs.AlikeSchemas
import SchemaClasses.Proofs.DiscriminatorForms
import SchemaClasses.Proofs.NormalPaths
import SchemaClasses.Proofs.SettingNames
import SchemaClasses.Proofs.SettingChecks
import SchemaClasses.Proofs.SettingsRoundTrip
import SchemaClasses.Proofs.BaseWalks
import SchemaClasses.Proofs.CycleReports
import SchemaClasses.Proofs.CharacterSets
import SchemaClasses.Proofs.Words
import SchemaClasses.Proofs.ClassNames
import SchemaClasses.Proofs.Separators
import SchemaClasses.Proofs.Identifiers
import SchemaClasses.Proofs.Operations
import SchemaClasses.Proofs.SecuritySchemes
import SchemaClasses.Proofs.RecordedCommand
import SchemaClasses.Proofs.InsertionOrder
