import DocumentStore.Config.Text
import DocumentStore.Document.Identity
import DocumentStore.Store.Retrieve
import DocumentStore.Proofs.Store.Holding
import DocumentStore.Proofs.Store.OrderedMap
import DocumentStore.Proofs.Store.History
import DocumentStore.Proofs.Store.Reading
import DocumentStore.Proofs.Store.Refusal
import DocumentStore.Proofs.Store.Mirror
import DocumentStore.Proofs.Filter.Meaning
import DocumentStore.Proofs.Store.Selection
import DocumentStore.Proofs.Document.RoundTrip
import DocumentStore.Proofs.Filter.Printed
import DocumentStore.Proofs.Store.Nearest
import DocumentStore.Proofs.Store.Narrowing
import DocumentStore.Proofs.Filter.WireFormat
import DocumentStore.Proofs.Store.Membership
import DocumentStore.Proofs.Store.Retrying
import DocumentStore.Proofs.Retrieval.Wording
import DocumentStore.Proofs.Store.Locking
import DocumentStore.Proofs.Store.Independence
import DocumentStore.Proofs.Store.Widening
import DocumentStore.Proofs.Filter.Validity
import DocumentStore.Proofs.Filter.Path
import DocumentStore.Proofs.Retrieval.Serialized
import DocumentStore.Proofs.Store.Reopening
import DocumentStore.Proofs.Store.Dates
import DocumentStore.Proofs.Document.Identity
import DocumentStore.Proofs.Store.Finding
import DocumentStore.Proofs.Lexical.Sanitized
import DocumentStore.Proofs.Retrieval.Binding
import DocumentStore.Proofs.Document.Building
import DocumentStore.Proofs.Document.Stability
import DocumentStore.Proofs.Store.Hits
import DocumentStore.Proofs.Store.Generated
import DocumentStore.Proofs.Retrieval.Delegation
import DocumentStore.Proofs.Calendar.Canonical
import DocumentStore.Proofs.Vector.Heap
