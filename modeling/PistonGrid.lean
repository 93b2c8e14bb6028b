import PistonGrid.Args
import PistonGrid.Catalog
import PistonGrid.Channel
import PistonGrid.Config
import PistonGrid.DecodeError
import PistonGrid.Document
import PistonGrid.Engine.Basic
import PistonGrid.Engine.Call
import PistonGrid.Engine.Pass
import PistonGrid.Event
import PistonGrid.FileTree
import PistonGrid.Grid
import PistonGrid.Heading
import PistonGrid.Instruction
import PistonGrid.Json
import PistonGrid.Json.Reader
import PistonGrid.Main
import PistonGrid.Memory
import PistonGrid.Merge
import PistonGrid.Numeral
import PistonGrid.Piston
import PistonGrid.Proofs.Abort
import PistonGrid.Proofs.Accounting
import PistonGrid.Proofs.BlankGrids
import PistonGrid.Proofs.BoundedRun
import PistonGrid.Proofs.Bystanders
import PistonGrid.Proofs.CharacterEcho
import PistonGrid.Proofs.ConfigMembers
import PistonGrid.Proofs.DigitRuns
import PistonGrid.Proofs.Dispatch
import PistonGrid.Proofs.Displacement
import PistonGrid.Proofs.DocumentRoundTrip
import PistonGrid.Proofs.DrainOrder
import PistonGrid.Proofs.FirstHalt
import PistonGrid.Proofs.ForkPlacement
import PistonGrid.Proofs.ForkedCopies
import PistonGrid.Proofs.FreshStart
import PistonGrid.Proofs.GridCells
import PistonGrid.Proofs.Identity
import PistonGrid.Proofs.IgnoredBits
import PistonGrid.Proofs.JsonGrammar
import PistonGrid.Proofs.JsonReading
import PistonGrid.Proofs.KeyedLists
import PistonGrid.Proofs.LastChange
import PistonGrid.Proofs.Lifecycle
import PistonGrid.Proofs.LockStep
import PistonGrid.Proofs.Noninterference
import PistonGrid.Proofs.NumberInput
import PistonGrid.Proofs.PriorityOrder
import PistonGrid.Proofs.ReferenceCoverage
import PistonGrid.Proofs.ReferenceText
import PistonGrid.Proofs.Registration
import PistonGrid.Proofs.RegistryIndex
import PistonGrid.Proofs.RegistryOrder
import PistonGrid.Proofs.Requests
import PistonGrid.Proofs.Resolution
import PistonGrid.Proofs.Runs
import PistonGrid.Proofs.SharedMemory
import PistonGrid.Proofs.SimultaneousChanges
import PistonGrid.Proofs.Standard
import PistonGrid.Proofs.StandardWords
import PistonGrid.Proofs.Stationary
import PistonGrid.Proofs.Steps
import PistonGrid.Proofs.Superposition
import PistonGrid.Proofs.TextValue
import PistonGrid.Proofs.Trace
import PistonGrid.Proofs.WordLayout
import PistonGrid.Proofs.Wrapping
import PistonGrid.Publish
import PistonGrid.Quoted
import PistonGrid.Quoted.CharacterClasses
import PistonGrid.Recipe
import PistonGrid.Reference
import PistonGrid.Register
import PistonGrid.Registry
import PistonGrid.Registry.Indexed
import PistonGrid.Script
import PistonGrid.Snapshot
import PistonGrid.Word
