import DocumentStore.Proofs.Component
import DocumentStore.Proofs.Filter.WireFormat
import DocumentStore.Proofs.Store.History
import DocumentStore.Store.Retrieve

/-! Retrievers in serialized form, with the store that they read from. Main statement: a retriever
and its store are given back by what they are written as, nothing but the fields of the retriever
counts for it, and whatever is not a retriever over a store is refused. -/
namespace DocumentStore

namespace SnippetOptions

theorem maxTokens_isSigned (s : SnippetOptions) : Json.IsSigned s.maxTokens := by
  have hle := s.maxTokens_le
  rw [maxSnippetTokens] at hle
  constructor <;> omega

theorem ofMaxTokens_maxTokens (s : SnippetOptions) :
    ofMaxTokens s.maxTokens
      = .ok { maxTokens := s.maxTokens, maxTokens_pos := s.maxTokens_pos,
              maxTokens_le := s.maxTokens_le } := by
  rw [ofMaxTokens, dif_pos ⟨by simpa using s.maxTokens_pos, by simpa using s.maxTokens_le⟩]
  rfl

theorem ofJson_toJson (s : SnippetOptions) : ofJson s.toJson = .ok s := by
  have hjson : s.toJson = .object [("close_marker", .string s.closeMarker),
      ("ellipsis", .string s.ellipsis), ("max_tokens", .integer s.maxTokens),
      ("open_marker", .string s.openMarker)] := by
    simp [toJson, Json.ofPairs, Json.fieldsOf, Json.insertField, -String.lt_iff_ltb]
  have htokens := Json.asSigned_integer s.maxTokens_isSigned
  have hrecord : Json.asRecord fieldNames setField {} s.toJson
      = .ok ⟨s.maxTokens, s.openMarker, s.closeMarker, s.ellipsis⟩ := by
    rw [hjson, Json.asRecord_object]
    simp [fieldNames, setField, htokens, Json.asText, Except.map, bind, Except.bind, pure,
      Except.pure]
  simp only [ofJson, hrecord, bind, Except.bind, ofMaxTokens_maxTokens]
  rfl

end SnippetOptions

theorem HighlightOptions.ofJson_toJson (h : HighlightOptions) : ofJson h.toJson = .ok h := by
  have hjson : h.toJson = .object [("close_marker", .string h.closeMarker),
      ("open_marker", .string h.openMarker)] := by
    simp [toJson, Json.ofPairs, Json.fieldsOf, Json.insertField, -String.lt_iff_ltb]
  rw [ofJson, hjson, Json.asRecord_object]
  simp [fieldNames, setField, Json.asText, Except.map, bind, Except.bind, pure, Except.pure]

theorem readFilter_toJson (f : Filter) : readFilter f.toJson = .ok f := by
  rw [readFilter, Filter.ofJson_toJson]

theorem asOptional_filter (f : Option Filter) :
    Json.asOptional readFilter (.optional Filter.toJson f) = .ok f :=
  Json.asOptional_optional fun f _ => ⟨by cases f <;> simp [Filter.toJson], readFilter_toJson f⟩

/-- Whether the parameters of a component hold a mapping with the tag of a store. -/
def Component.HoldsStore (c : Component) : Prop :=
  ∃ fields, c.parameters.lookup storeKey = some (.object fields)
    ∧ fields.lookup "type" = some (.string storeType)

def Component.readAnd {α : Type} (build : Component → Except StoreError α) (v : Json) :
    Except StoreError α := do
  let c ← lift .deserialization (ofJson v)
  build c

/-- What it is for the retrievers of a type, with some fields, to be serialized faithfully. -/
structure Serializes {α : Type} (type : String) (names : List String) (isBuilt : α → Prop)
    (write : Component → α → Component) (read : Component → Except ComponentFault α)
    (rebuild : Disk → Component → Except StoreError (α × Store)) : Prop where
  given_back {disk : Disk} {s t : Store} {r : α} (hr : isBuilt r) (hfits : s.config.Fits)
    (ho : Store.openIn disk s.config = .ok t) :
    Component.readAnd (rebuild disk) (write s.toComponent r).toJson = .ok (r, t)
      ∧ t.config = s.config
  own_fields (parameters : Json.Fields) :
    read ⟨type, parameters⟩ = read ⟨type, parameters.filter fun f => names.contains f.1⟩
  store_not_own : storeKey ∉ names
  refused {disk : Disk} {v : Json}
    (hv : ∀ c, Component.ofJson v = .ok c → c.type = type → ¬c.HoldsStore) :
    ∃ fault, Component.readAnd (rebuild disk) v = .error (.deserialization fault)

namespace Component

theorem nested_eq_ok {key : String} {c d : Component} (h : c.nested key = .ok d) :
    ∃ fields, c.parameters.lookup key = some (.object fields)
      ∧ fields.lookup "type" = some (.string d.type) := by
  unfold nested at h
  split at h
  · cases h
  · rename_i fields hlookup
    refine ⟨fields, hlookup, ?_⟩
    split at h
    · unfold ofFields at h
      split at h
      · cases h
      · rename_i type htype
        split at h <;> cases h <;> exact htype
      · cases h
    · cases h
  · cases h

end Component

theorem Config.ofComponent_of_type {data : Component} (h : data.type ≠ storeType) :
    Config.ofComponent data = .error (.unexpectedType storeType data.type) := by
  rw [ofComponent, Component.read, if_neg h]
  rfl

theorem Store.ofNested_refused (disk : Disk) {c : Component} (h : ¬c.HoldsStore) :
    ∃ fault, ofNested disk c = .error (.deserialization fault) := by
  rw [ofNested]
  cases hdata : c.nested storeKey with
  | error fault => exact ⟨fault, rfl⟩
  | ok data =>
    obtain ⟨fields, hlookup, htype⟩ := Component.nested_eq_ok hdata
    have hne : data.type ≠ storeType := fun heq => h ⟨fields, hlookup, heq ▸ htype⟩
    refine ⟨.unexpectedType storeType data.type, ?_⟩
    show ofComponent disk data = _
    rw [ofComponent, Config.ofComponent_of_type hne]
    rfl

section

variable {α : Type} (type : String) (names : List String) (set : α → String → Json.Shape α)
  (start : α) (validate : α → Except StoreError Unit) (fields : α → Json.Fields)

/-- Writes a retriever with the component of its store among its parameters. -/
def Component.ofRetriever (store : Component) (r : α) : Component :=
  ⟨type, Json.insertField storeKey store.toJson (fields r)⟩

/-- Rebuilds a retriever and its store, and checks the retriever last. -/
def Component.rebuild (disk : Disk) (c : Component) : Except StoreError (α × Store) := do
  let r ← lift .deserialization (c.read type (Json.asRecord names set start))
  let s ← Store.ofNested disk c
  validate r
  return (r, s)

variable {type names set start validate fields} {isBuilt : α → Prop}

/-- Retrievers are serialized faithfully if their fields are given back and the store is none of
them. -/
theorem serializes (hstore : storeKey ∉ names) (hvalid : ∀ r, isBuilt r → validate r = .ok ())
    (hfields : ∀ r, isBuilt r → Json.asRecord names set start (.object (fields r)) = .ok r) :
    Serializes type names isBuilt (Component.ofRetriever type fields)
      (fun c => c.read type (Json.asRecord names set start))
      (Component.rebuild type names set start validate) := by
  have hown (parameters : Json.Fields) :
      Json.asRecord names set start (.object parameters)
        = Json.asRecord names set start
            (.object (parameters.filter fun f => names.contains f.1)) := by
    rw [Json.asRecord_object, Json.asRecord_object, List.filter_filter]
    simp
  refine ⟨fun {disk s t r} hr hfits ho => ?_, fun parameters => ?_, hstore,
    fun {disk v} hv => ?_⟩
  · refine ⟨?_, Store.config_of_openIn ho⟩
    -- The store is no field of the retriever, so that reading the fields passes it over.
    have hread : Json.asRecord names set start
        (.object (Json.insertField storeKey s.toComponent.toJson (fields r))) = .ok r := by
      rw [hown, Json.filter_insertField _ (by simpa using hstore), ← hown, hfields r hr]
    have hnested : Store.ofNested disk (Component.ofRetriever type fields s.toComponent r)
        = .ok t := by
      rw [Store.ofNested, Component.ofRetriever, Component.nested_insertField]
      show Store.ofComponent disk s.toComponent = _
      rw [Store.toComponent, Store.ofComponent_toComponent hfits (Store.validate_of_openIn ho), ho]
    rw [Component.readAnd, Component.ofJson_toJson]
    show Component.rebuild type names set start validate disk _ = _
    rw [Component.rebuild, hnested, Component.ofRetriever, Component.read_of_type hread]
    simp only [lift, bind, Except.bind, hvalid r hr]
    rfl
  · simp only [Component.read, if_true]
    rw [hown]
  · rw [Component.readAnd]
    cases hc : Component.ofJson v with
    | error fault => exact ⟨fault, rfl⟩
    | ok c =>
      show ∃ fault, Component.rebuild type names set start validate disk c = _
      rw [Component.rebuild]
      cases hr : c.read type (Json.asRecord names set start) with
      | error fault => exact ⟨fault, rfl⟩
      | ok r =>
        have htype := (Component.read_eq_ok hr).1
        obtain ⟨fault, hfault⟩ := Store.ofNested_refused disk (hv c hc htype)
        refine ⟨fault, ?_⟩
        simp only [lift, bind, Except.bind, hfault]

end

namespace LexicalRetriever

/-- Whether a retriever can be built, with a number of 64 bits. -/
structure IsBuilt (r : LexicalRetriever) : Prop where
  valid : r.validate = .ok ()
  topK : Json.IsSigned r.topK

theorem ofJson_toFields {r : LexicalRetriever} (h : r.IsBuilt) :
    ofJson (.object r.toFields) = .ok r := by
  have hjson : r.toFields = [("filters", .optional Filter.toJson r.filter),
      ("highlight", .optional HighlightOptions.toJson r.highlight),
      ("scale_score", .bool r.squashScores),
      ("snippet", .optional SnippetOptions.toJson r.snippet), ("top_k", .integer r.topK)] := by
    simp [toFields, Json.fieldsOf, Json.insertField, -String.lt_iff_ltb]
  have hfilter := asOptional_filter r.filter
  have hsnippet : Json.asOptional SnippetOptions.ofJson (.optional SnippetOptions.toJson r.snippet)
      = .ok r.snippet :=
    Json.asOptional_optional fun s _ => ⟨Json.ofPairs_ne_null _, s.ofJson_toJson⟩
  have hhighlight : Json.asOptional HighlightOptions.ofJson
      (.optional HighlightOptions.toJson r.highlight) = .ok r.highlight :=
    Json.asOptional_optional fun h _ => ⟨Json.ofPairs_ne_null _, h.ofJson_toJson⟩
  have htopK := Json.asSigned_integer h.topK
  rw [ofJson, hjson, Json.asRecord_object]
  simp [fieldNames, setField, hfilter, hsnippet, hhighlight, htopK, Json.asBool, Except.map, bind,
    Except.bind, pure, Except.pure]

theorem serializes : Serializes lexicalRetrieverType fieldNames IsBuilt toComponent ofComponent
    withStore :=
  DocumentStore.serializes (by decide) (fun _ h => h.valid) fun _ => ofJson_toFields

end LexicalRetriever

namespace VectorRetriever

/-- Whether a retriever can be built, with numbers of 64 bits. -/
structure IsBuilt (r : VectorRetriever) : Prop where
  valid : r.validate = .ok ()
  topK : Json.IsSigned r.topK
  candidates : Json.IsSigned r.candidates

theorem ofJson_toFields {r : VectorRetriever} (h : r.IsBuilt) :
    ofJson (.object r.toFields) = .ok r := by
  have hjson : r.toFields = [("filters", .optional Filter.toJson r.filter),
      ("num_candidates", .integer r.candidates), ("top_k", .integer r.topK)] := by
    simp [toFields, Json.fieldsOf, Json.insertField, -String.lt_iff_ltb]
  have hfilter := asOptional_filter r.filter
  have htopK := Json.asSigned_integer h.topK
  have hcandidates := Json.asSigned_integer h.candidates
  rw [ofJson, hjson, Json.asRecord_object]
  simp [fieldNames, setField, hfilter, htopK, hcandidates, Except.map, bind, Except.bind, pure,
    Except.pure]

theorem serializes : Serializes vectorRetrieverType fieldNames IsBuilt toComponent ofComponent
    withStore :=
  DocumentStore.serializes (by decide) (fun _ h => h.valid) fun _ => ofJson_toFields

end VectorRetriever

/-- What is written as a component is given back by it: a configuration if it can be opened, and
each retriever with its store. -/
theorem Component.gives_back :
    (∀ c : Config, c.Fits →
        (c.validate = .ok () → Config.ofComponent c.toComponent = .ok c)
          ∧ ∀ fault, c.validate = .error fault →
              Config.ofComponent c.toComponent = .error (.badConfig fault)
                ∧ ∀ disk, Store.ofComponent disk c.toComponent
                    = .error (.deserialization (.badConfig fault)))
      ∧ (∀ data c, Config.ofComponent data = .ok c →
          c.Fits ∧ c.validate = .ok () ∧ Config.ofComponent c.toComponent = .ok c)
      ∧ (∀ data : Component, data.type ≠ storeType →
          Config.ofComponent data = .error (.unexpectedType storeType data.type))
      ∧ Serializes lexicalRetrieverType LexicalRetriever.fieldNames LexicalRetriever.IsBuilt
          LexicalRetriever.toComponent LexicalRetriever.ofComponent LexicalRetriever.withStore
      ∧ Serializes vectorRetrieverType VectorRetriever.fieldNames VectorRetriever.IsBuilt
          VectorRetriever.toComponent VectorRetriever.ofComponent VectorRetriever.withStore
      ∧ LexicalRetriever.IsBuilt {} ∧ VectorRetriever.IsBuilt {} := by
  refine ⟨fun c hfits => ⟨fun hvalid => ?_, fun fault hfault => ?_⟩, fun data c h => ?_,
    fun data => Config.ofComponent_of_type, LexicalRetriever.serializes,
    VectorRetriever.serializes, ⟨rfl, by decide⟩, ⟨rfl, by decide, by decide⟩⟩
  · rw [Config.ofComponent_toComponent hfits, hvalid]
  · have hrefused : Config.ofComponent c.toComponent = .error (.badConfig fault) := by
      rw [Config.ofComponent_toComponent hfits, hfault]
    refine ⟨hrefused, fun disk => ?_⟩
    rw [Store.ofComponent, hrefused]
    rfl
  · obtain ⟨hfits, hvalid⟩ := Config.of_ofComponent h
    refine ⟨hfits, hvalid, ?_⟩
    rw [Config.ofComponent_toComponent hfits, hvalid]

/-- A retriever with a filter, with excerpts as long as can be, and with the largest number of
hits. -/
def LexicalRetriever.widest : LexicalRetriever where
  filter := some (.logical .not (.comparison ⟨"meta.year", .member, .array [.null]⟩) [])
  topK := 2 ^ 63 - 1
  squashScores := true
  snippet := some { maxTokens := 64, ellipsis := "" }
  highlight := some { openMarker := "" }

/-- A retriever over a store with vectors is given back with its store, but not as a retriever of
the other type, and a configuration with no dimensions at all is not given back. -/
theorem Component.gives_back_widest :
    (∃ s, Store.openIn {} { dims := some 3, similarity := .cosine } = .ok s
        ∧ readAnd (LexicalRetriever.withStore {})
            (LexicalRetriever.widest.toComponent s.toComponent).toJson = .ok (.widest, s)
        ∧ ∃ fault, readAnd (VectorRetriever.withStore {})
            (LexicalRetriever.widest.toComponent s.toComponent).toJson
              = .error (.deserialization fault))
      ∧ Config.ofComponent (Config.toComponent { dims := some 0 }) = .error (.badConfig .zeroDims) := by
  obtain ⟨hconfig, -, -, hlexical, hvector, -⟩ := gives_back
  refine ⟨⟨_, rfl, ?_, hvector.refused fun c hc htype => ?_⟩, ?_⟩
  · refine (hlexical.given_back ⟨rfl, by decide⟩ ?_ rfl).1
    rintro n ⟨⟩
    decide
  · rw [ofJson_toJson] at hc
    obtain rfl := Except.ok.inj hc
    exact absurd htype (by decide)
  · refine ((hconfig _ ?_).2 .zeroDims rfl).1
    rintro n ⟨⟩
    decide

end DocumentStore
