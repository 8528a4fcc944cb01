import SymbolLocator.LittleEndian
import SymbolLocator.Buffer
import SymbolLocator.Word
import SymbolLocator.VirtualRange
import SymbolLocator.FirstMatch
import SymbolLocator.Text.Hex
import SymbolLocator.Text.Utf8
import SymbolLocator.Failure
import SymbolLocator.Section.Table
import SymbolLocator.Image.Basic
import SymbolLocator.Image.Load
import SymbolLocator.CodeView.Record
import SymbolLocator.Session
import SymbolLocator.Options.Document
import SymbolLocator.Proofs.CheckLists
import SymbolLocator.Proofs.Words
import SymbolLocator.Proofs.Tables
import SymbolLocator.Proofs.SectionOrder
import SymbolLocator.Proofs.HeaderChecks
import SymbolLocator.Proofs.PeGrammar
import SymbolLocator.Proofs.LookupChecks
import SymbolLocator.Proofs.LookupFailure
import SymbolLocator.Proofs.Loaded
import SymbolLocator.Proofs.LoadedLookup
import SymbolLocator.Proofs.LookupSuccess
import SymbolLocator.Proofs.AddressMapping
import SymbolLocator.Proofs.TeGrammar
import SymbolLocator.Proofs.Agreement
import SymbolLocator.Proofs.Footprint
import SymbolLocator.Proofs.Extension
import SymbolLocator.Proofs.PathWindow
import SymbolLocator.Proofs.LookupEvents
import SymbolLocator.Proofs.TeOption
import SymbolLocator.Proofs.FullFile
import SymbolLocator.Proofs.DecodedHeaders
import SymbolLocator.Proofs.SectionFaults
import SymbolLocator.Proofs.MovedHeaders
import SymbolLocator.Proofs.TrappingArithmetic
import SymbolLocator.Proofs.SizeReports
import SymbolLocator.Proofs.TableViews
import SymbolLocator.Proofs.ScalarValues
import SymbolLocator.Proofs.TextViews
import SymbolLocator.Proofs.JsonGrammar
import SymbolLocator.Proofs.JsonReader
import SymbolLocator.Proofs.OptionDocuments
import SymbolLocator.Proofs.FailureTexts
import SymbolLocator.Proofs.RecordCoding
import SymbolLocator.Proofs.BoundedReads
import SymbolLocator.Proofs.Sessions
