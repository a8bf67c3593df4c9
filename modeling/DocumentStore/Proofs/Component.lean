import DocumentStore.Proofs.Outcome
import DocumentStore.Store.Basic
import Mathlib.Data.String.Basic

/-! Serialized components, and the configuration of a store as one. A record ignores the keys that
are not names of its fields, a component is read from what it is written as, and a configuration is
given back by its component just if it can be opened. -/
namespace DocumentStore

namespace Json

variable {α : Type} {names : List String} {set : α → String → Shape α} {start a : α}

def IsSigned (n : Int) : Prop := -0x8000000000000000 ≤ n ∧ n ≤ 0x7fffffffffffffff

instance (n : Int) : Decidable (IsSigned n) := inferInstanceAs (Decidable (_ ∧ _))

theorem asSigned_integer {n : Int} (h : IsSigned n) : asSigned (.integer n) = .ok n :=
  if_pos h

theorem asUnsigned_integer {n : Nat} (h : n ≤ 0xffffffffffffffff) :
    asUnsigned (.integer n) = .ok n := by
  rw [asUnsigned, asInteger, if_pos (by omega)]
  simp [Except.map]

theorem le_of_asUnsigned {v : Json} {n : Nat} (h : asUnsigned v = .ok n) :
    n ≤ 0xffffffffffffffff := by
  obtain ⟨m, hm, rfl⟩ := map_eq_ok h
  unfold asInteger at hm
  split at hm
  · split at hm <;> cases hm
    omega
  · cases hm

theorem eq_ok_of_asOptional {shape : Shape α} {v : Json} (h : asOptional shape v = .ok (some a)) :
    shape v = .ok a := by
  unfold asOptional at h
  split at h
  · cases h
  · obtain ⟨b, hb, heq⟩ := map_eq_ok h
    rwa [← Option.some.inj heq]

/-- An optional value is given back if the one in it is, and if it is not written as null. -/
theorem asOptional_optional {shape : Shape α} {write : α → Json} {a : Option α}
    (h : ∀ b ∈ a, write b ≠ .null ∧ shape (write b) = .ok b) :
    asOptional shape (optional write a) = .ok a := by
  cases a with
  | none => rfl
  | some b =>
    obtain ⟨hnull, hshape⟩ := h b rfl
    rw [optional, asOptional, hshape]
    · rfl
    · exact hnull

theorem ofPairs_ne_null (pairs : List (String × Json)) : ofPairs pairs ≠ .null := by
  simp [ofPairs]

theorem asVariant_string {find : String → Option α} {s : String} (h : find s = some a) :
    asVariant find (.string s) = .ok a := by
  rw [asVariant, asVariant.named, h]

theorem asRecord_object (fields : Fields) :
    asRecord names set start (.object fields)
      = (fields.filter fun f => names.contains f.1).foldlM (fun a f => set a f.1 f.2) start := by
  rw [asRecord]
  induction fields generalizing start with
  | nil => rfl
  | cons f fields ih =>
    rw [List.foldlM_cons, List.filter_cons]
    cases hf : names.contains f.1 with
    | false => exact ih
    | true =>
      rw [if_pos rfl, if_pos rfl, List.foldlM_cons]
      exact bind_congr fun b => ih

theorem asRecord_preserves {P : α → Prop} (hstart : P start)
    (hset : ∀ name w a b, P a → set a name w = .ok b → P b) {v : Json}
    (h : asRecord names set start v = .ok a) : P a := by
  unfold asRecord at h
  split at h
  · refine foldlM_preserves hstart (fun f _ b c hb hc => ?_) h
    split at hc
    · exact hset f.1 f.2 b c hb hc
    · cases hc
      exact hb
  · obtain ⟨b, hb, h⟩ := bind_eq_ok h
    split at h <;> cases h
    exact foldlM_preserves hstart (fun f _ b c => hset f.1 f.2 b c) hb
  · cases h

theorem filter_insertField {key : String} {p : String × Json → Bool} (value : Json)
    (hp : ∀ v, p (key, v) = false) (fields : Fields) :
    (insertField key value fields).filter p = fields.filter p := by
  induction fields with
  | nil => simp [insertField, hp]
  | cons f fields ih =>
    obtain ⟨k, v⟩ := f
    rw [insertField]
    split
    · rename_i hk
      subst hk
      simp [hp]
    · split
      · simp [List.filter_cons, hp]
      · simp [List.filter_cons, ih]

theorem lookup_insertField (key : String) (value : Json) (fields : Fields) :
    (insertField key value fields).lookup key = some value := by
  induction fields with
  | nil => simp [insertField]
  | cons f fields ih =>
    obtain ⟨k, v⟩ := f
    rw [insertField]
    split
    · simp
    · rename_i hk
      split
      · simp
      · have hk' : (key == k) = false := by simpa using hk
        rw [List.lookup_cons, hk']
        exact ih

theorem lookup_insertField_of_ne {key k : String} (hk : k ≠ key) (value : Json) (fields : Fields) :
    (insertField key value fields).lookup k = fields.lookup k := by
  have hkey : (k == key) = false := beq_eq_false_iff_ne.mpr hk
  induction fields with
  | nil => simp [insertField, List.lookup_cons, hkey]
  | cons f fields ih =>
    obtain ⟨l, v⟩ := f
    rw [insertField]
    split
    · rename_i heq
      rw [List.lookup_cons, List.lookup_cons, hkey, ← heq, hkey]
    · split
      · rw [List.lookup_cons, hkey]
      · rw [List.lookup_cons, List.lookup_cons, ih]

end Json

namespace Component

theorem ofFields_toJson (c : Component) :
    ofFields [("init_parameters", .object c.parameters), ("type", .string c.type)] = .ok c := by
  simp [ofFields, List.lookup_cons]

theorem toJson_eq (c : Component) :
    c.toJson = .object [("init_parameters", .object c.parameters), ("type", .string c.type)] := by
  simp [toJson, Json.ofPairs, Json.fieldsOf, Json.insertField, -String.lt_iff_ltb]

theorem ofJson_toJson (c : Component) : ofJson c.toJson = .ok c := by
  rw [toJson_eq]
  exact ofFields_toJson c

theorem nested_insertField (key type : String) (c : Component) (parameters : Json.Fields) :
    (Component.mk type (Json.insertField key c.toJson parameters)).nested key = .ok c := by
  simp only [nested, Json.lookup_insertField, toJson_eq, ofFields_toJson]
  rfl

theorem read_eq_ok {α : Type} {shape : Json.Shape α} {type : String} {c : Component} {a : α}
    (h : c.read type shape = .ok a) : c.type = type ∧ shape (.object c.parameters) = .ok a := by
  unfold read at h
  split at h
  · rename_i htype
    refine ⟨htype, ?_⟩
    split at h
    · rename_i b hb
      rwa [← Except.ok.inj h]
    · cases h
  · cases h

theorem read_of_type {α : Type} {shape : Json.Shape α} {type : String} {parameters : Json.Fields}
    {a : α} (h : shape (.object parameters) = .ok a) :
    (Component.mk type parameters).read type shape = .ok a := by
  rw [read, if_pos rfl, h]

end Component

namespace Config

/-- Whether the dimensions are a number of 64 bits. -/
def Fits (c : Config) : Prop := ∀ n ∈ c.dims, n ≤ 0xffffffffffffffff

theorem ofJson_toFields {c : Config} (h : c.Fits) : ofJson (.object c.toFields) = .ok c := by
  have hfields : c.toFields = [("database", .string c.database),
      ("embedding_dims", .optional (fun n : Nat => .integer n) c.dims),
      ("embedding_similarity_function", .string c.similarity.name),
      ("fts_tokenizer", .string c.tokenizer.name), ("use_bm25", .bool c.lexical)] := by
    simp [toFields, Json.fieldsOf, Json.insertField, -String.lt_iff_ltb]
  have hdims : Json.asOptional Json.asUnsigned (.optional (fun n : Nat => .integer n) c.dims)
      = .ok c.dims :=
    Json.asOptional_optional fun n hn => ⟨by simp, Json.asUnsigned_integer (h n hn)⟩
  have hsimilarity := Json.asVariant_string c.similarity.ofName?_name
  have htokenizer := Json.asVariant_string c.tokenizer.ofName?_name
  rw [ofJson, Json.asRecord_object, hfields]
  simp [fieldNames, setField, hdims, hsimilarity, htokenizer, Json.asText, Json.asBool,
    Except.map, bind, Except.bind, pure, Except.pure]

theorem fits_ofJson {v : Json} {c : Config} (h : ofJson v = .ok c) : c.Fits := by
  refine Json.asRecord_preserves (P := Fits) (by simp [Fits]) (fun name w a b ha hset => ?_) h
  unfold setField at hset
  split at hset
  · obtain ⟨x, -, rfl⟩ := map_eq_ok hset
    exact ha
  · obtain ⟨x, -, rfl⟩ := map_eq_ok hset
    exact ha
  · obtain ⟨x, hx, rfl⟩ := map_eq_ok hset
    intro n hn
    obtain rfl : x = some n := hn
    exact Json.le_of_asUnsigned (Json.eq_ok_of_asOptional hx)
  · obtain ⟨x, -, rfl⟩ := map_eq_ok hset
    exact ha
  · obtain ⟨x, -, rfl⟩ := map_eq_ok hset
    exact ha
  · cases hset
    exact ha

/-- The component of a configuration gives the configuration back just if it can be opened. -/
theorem ofComponent_toComponent {c : Config} (h : c.Fits) :
    ofComponent c.toComponent = match c.validate with
      | .ok () => .ok c
      | .error fault => .error (ComponentFault.badConfig fault) := by
  rw [ofComponent, toComponent, Component.read_of_type (ofJson_toFields h)]
  dsimp only [bind, Except.bind]
  cases c.validate <;> rfl

theorem of_ofComponent {data : Component} {c : Config} (h : ofComponent data = .ok c) :
    c.Fits ∧ c.validate = .ok () := by
  obtain ⟨c', hc', h⟩ := bind_eq_ok h
  split at h
  · rename_i hvalid
    obtain rfl := Except.ok.inj h
    exact ⟨fits_ofJson (Component.read_eq_ok hc').2, hvalid⟩
  · cases h

end Config

theorem Store.validate_of_openIn {disk : Disk} {c : Config} {s : Store}
    (h : openIn disk c = .ok s) : c.validate = .ok () := by
  obtain ⟨_, hvalid, -⟩ := bind_eq_ok h
  exact lift_eq_ok hvalid

/-- A store is opened by the component of its configuration as by the configuration. -/
theorem Store.ofComponent_toComponent {disk : Disk} {c : Config} (h : c.Fits)
    (hvalid : c.validate = .ok ()) : Store.ofComponent disk c.toComponent = openIn disk c := by
  rw [ofComponent, Config.ofComponent_toComponent h, hvalid]
  rfl

end DocumentStore
