import SymbolSearch.Catalog
import SymbolSearch.Config.Document
import SymbolSearch.Proofs.Catalog.Search
import SymbolSearch.Proofs.Extraction.Append
import SymbolSearch.Proofs.Index.Lookup
import SymbolSearch.Proofs.Payload.Generated
import SymbolSearch.Proofs.Payload.Truncation
import SymbolSearch.Proofs.Search
import SymbolSearch.Search.Json
import SymbolSearch.Proofs.Catalog.Load
import SymbolSearch.Proofs.Extraction.Slot
import SymbolSearch.Proofs.Catalog.Report
import SymbolSearch.Proofs.Catalog.History
import SymbolSearch.Proofs.Literal.Fault
import SymbolSearch.Proofs.Payload.Fault
import SymbolSearch.Proofs.Search.Narrowing
import SymbolSearch.Proofs.Directory.Listing
import SymbolSearch.Proofs.Search.Json
import SymbolSearch.Proofs.Catalog.Kind
import SymbolSearch.Proofs.Text.LowerCase
import SymbolSearch.Proofs.Index.Get
import SymbolSearch.Proofs.Text.Decode
import SymbolSearch.Proofs.Literal.Context
import SymbolSearch.Proofs.Literal.Surrogate
import SymbolSearch.Proofs.Payload.Escape
import SymbolSearch.Proofs.Payload.Declaration
import SymbolSearch.Proofs.Payload.Comment
import SymbolSearch.Proofs.Directory.Order
import SymbolSearch.Proofs.Catalog.Refusal
import SymbolSearch.Proofs.Payload.Shape
import SymbolSearch.Proofs.Extraction.Defect
import SymbolSearch.Proofs.Extraction.Place
import SymbolSearch.Proofs.Extraction.Variant
import SymbolSearch.Proofs.Index.Rebuild
import SymbolSearch.Proofs.Index.First
import SymbolSearch.Proofs.Link.Invariance
import SymbolSearch.Proofs.Config.Document
import SymbolSearch.Proofs.Literal.Scanner
