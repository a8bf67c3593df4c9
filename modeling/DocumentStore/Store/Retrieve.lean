import DocumentStore.Retrieval.Retriever
import DocumentStore.Store.Basic

/-! Retrievers over a store: their runs, and their serialized form with that of the store. -/
namespace DocumentStore

def LexicalRetriever.runOn (r : LexicalRetriever) (a : Arguments) :
    StateM Store (Except StoreError (List Hit)) :=
  r.run (fun q s => (s.searchText q, s)) a

/-- Runs a retriever over a store, which can panic. -/
def VectorRetriever.runOn (r : VectorRetriever) (a : Arguments) :
    OptionT (StateM Store) (Except StoreError (List Hit)) :=
  r.run (fun q s => s.searchVector q) a

def Store.ofNested (disk : Disk) (c : Component) : Except StoreError Store := do
  let data ← lift .deserialization (c.nested storeKey)
  ofComponent disk data

def LexicalRetriever.withStore (disk : Disk) (c : Component) :
    Except StoreError (LexicalRetriever × Store) := do
  let r ← lift .deserialization (ofComponent c)
  let s ← Store.ofNested disk c
  r.validate
  return (r, s)

def VectorRetriever.withStore (disk : Disk) (c : Component) :
    Except StoreError (VectorRetriever × Store) := do
  let r ← lift .deserialization (ofComponent c)
  let s ← Store.ofNested disk c
  r.validate
  return (r, s)

end DocumentStore
