import Mmxisf.AcceptedUnits
import Mmxisf.AllocationFailures
import Mmxisf.Association
import Mmxisf.BareHeaders
import Mmxisf.Base
import Mmxisf.Budgets
import Mmxisf.CodecGuards
import Mmxisf.Compression
import Mmxisf.DefaultLimits
import Mmxisf.DefaultOpening
import Mmxisf.Descriptors
import Mmxisf.Document
import Mmxisf.EncodedBlocks
import Mmxisf.EntrySteps
import Mmxisf.Exchange
import Mmxisf.FloatingPointSyntax
import Mmxisf.Fragmentation
import Mmxisf.HeaderPlaces
import Mmxisf.HeaderScanner
import Mmxisf.IntegerSyntax
import Mmxisf.Integrity
import Mmxisf.KeptTexts
import Mmxisf.LayoutRounds
import Mmxisf.Library.BaseEncoding
import Mmxisf.Library.Buffer
import Mmxisf.Library.Directory
import Mmxisf.Library.Executions
import Mmxisf.Library.Fields
import Mmxisf.Library.Files
import Mmxisf.Library.Gating
import Mmxisf.Library.Grouping
import Mmxisf.Library.Guarded
import Mmxisf.Library.Lockstep
import Mmxisf.Library.Log
import Mmxisf.Library.Outcomes
import Mmxisf.Library.Outline
import Mmxisf.Library.Pool
import Mmxisf.Library.Positional
import Mmxisf.Library.Program
import Mmxisf.Library.Stacking
import Mmxisf.Library.Totals
import Mmxisf.Library.Utf8
import Mmxisf.LimitsGate
import Mmxisf.MetadataAgreement
import Mmxisf.Newlines
import Mmxisf.NumberSyntax
import Mmxisf.ParserState
import Mmxisf.PayloadPartition
import Mmxisf.PixelBounds
import Mmxisf.PixelOrder
import Mmxisf.Placement
import Mmxisf.Platform
import Mmxisf.PropertyTypes
import Mmxisf.Publication
import Mmxisf.Reader.Accepted
import Mmxisf.Reader.Bindings
import Mmxisf.Reader.BlockReads
import Mmxisf.Reader.BlockText
import Mmxisf.Reader.Blocks
import Mmxisf.Reader.CellText
import Mmxisf.Reader.Decoded
import Mmxisf.Reader.EncodedAccepts
import Mmxisf.Reader.EncodedText
import Mmxisf.Reader.Environment
import Mmxisf.Reader.Events
import Mmxisf.Reader.Frames
import Mmxisf.Reader.GuardedPixels
import Mmxisf.Reader.Handlers
import Mmxisf.Reader.Header
import Mmxisf.Reader.HeaderOutline
import Mmxisf.Reader.Inventory
import Mmxisf.Reader.Leaving
import Mmxisf.Reader.Limits
import Mmxisf.Reader.Opening
import Mmxisf.Reader.ParserRun
import Mmxisf.Reader.Pixels
import Mmxisf.Reader.PlanFacts
import Mmxisf.Reader.PlanLimits
import Mmxisf.Reader.Plans
import Mmxisf.Reader.Positions
import Mmxisf.Reader.Reads
import Mmxisf.Reader.Register
import Mmxisf.Reader.Room
import Mmxisf.Reader.RowDelivery
import Mmxisf.Reader.Rows
import Mmxisf.Reader.Serialized
import Mmxisf.Reader.Shape
import Mmxisf.Reader.SpanFacts
import Mmxisf.Reader.Spans
import Mmxisf.Reader.StartElement
import Mmxisf.Reader.Steps
import Mmxisf.Reader.Tables
import Mmxisf.Reader.TextHeld
import Mmxisf.Reader.TextTarget
import Mmxisf.Reader.Unshuffle
import Mmxisf.Reader.WholeReads
import Mmxisf.Reader.XmlBuilder
import Mmxisf.ReferenceLibraries
import Mmxisf.ReferencePlacement
import Mmxisf.RestoredRows
import Mmxisf.RestoredUnits
import Mmxisf.RoundTrip
import Mmxisf.RowAgreement
import Mmxisf.ShortReads
import Mmxisf.Shuffle
import Mmxisf.SpanFrame
import Mmxisf.StoredBlocks
import Mmxisf.TableShape
import Mmxisf.TextAttribution
import Mmxisf.TidyTexts
import Mmxisf.TimePointSyntax
import Mmxisf.Trimming
import Mmxisf.UnitDocument
import Mmxisf.UnitEntries
import Mmxisf.UnitHeader
import Mmxisf.UnitImages
import Mmxisf.UnitProgress
import Mmxisf.UnitReport
import Mmxisf.ValueAgreement
import Mmxisf.Values
import Mmxisf.Writer.Blocks
import Mmxisf.Writer.Emitted
import Mmxisf.Writer.Entries
import Mmxisf.Writer.Files
import Mmxisf.Writer.Layouts
import Mmxisf.Writer.Outside
import Mmxisf.Writer.Prepared
import Mmxisf.Writer.Published
import Mmxisf.Writer.Readied
import Mmxisf.Writer.Shuffle
import Mmxisf.Writer.Sizes
import Mmxisf.Writer.Spools
import Mmxisf.Writer.Tags
import Mmxisf.Writer.Texts
import Mmxisf.Writer.Undisturbed
import Mmxisf.Writer.UnitBytes
import Mmxisf.Writer.Units
import Mmxisf.Writer.Write
import Mmxisf.Writer.Written
import Mmxisf.WriterBudgets
import Mmxisf.WriterContracts
import Mmxisf.WrittenUnits
import Mmxisf.XmlText
