import DocumentStore.Proofs.Filter.Pieces
import DocumentStore.Proofs.Filter.Segments
import DocumentStore.Proofs.Filter.Value

/-! Paths into a JSON text, by the rules of the engine: a dollar sign, then labels after points and
array indices in brackets. Main statement: what stands for a field in a statement is a column with
the name of the field, or a look-up along a path that is read back as the segments of the field and
as nothing else. -/
namespace DocumentStore

namespace JsonPath

/-- A step of a path: to the value under a key, or to an item counted from the front or from the
end. -/
inductive Step where
  | key (label : String)
  | item (index : ℕ)
  | itemFromEnd (index : ℕ)
deriving DecidableEq

def readQuoted (cs : List Char) : Option (Step × List Char) :=
  match cs.dropWhile (· ≠ '"') with
  | _ :: rest => some (.key (String.ofList (cs.takeWhile (· ≠ '"'))), rest)
  | [] => none

def endsLabel (c : Char) : Bool := c = '.' || c = '['

def readBare (cs : List Char) : Option (Step × List Char) :=
  match cs.takeWhile fun c => !endsLabel c with
  | [] => none
  | label => some (.key (String.ofList label), cs.dropWhile fun c => !endsLabel c)

def readIndex (step : ℕ → Step) (cs : List Char) : Option (Step × List Char) :=
  match cs.takeWhile Char.isDigit, cs.dropWhile Char.isDigit with
  | d :: ds, ']' :: rest =>
    some (step (Number.digitsValue (d :: ds)), rest)
  | _, _ => none

def readStep : List Char → Option (Step × List Char)
  | '.' :: '"' :: cs => readQuoted cs
  | '.' :: cs => readBare cs
  | '[' :: '#' :: ']' :: cs => some (.itemFromEnd 0, cs)
  | '[' :: '#' :: '-' :: cs => readIndex .itemFromEnd cs
  | '[' :: cs => readIndex .item cs
  | _ => none

theorem readQuoted_length {cs rest : List Char} {step : Step}
    (h : readQuoted cs = some (step, rest)) : rest.length < cs.length := by
  unfold readQuoted at h
  split at h
  · rename_i c rest' hdrop
    obtain ⟨-, rfl⟩ := Prod.mk.inj (Option.some.inj h)
    have hle := (List.dropWhile_sublist (fun c => decide (c ≠ '"')) (l := cs)).length_le
    rw [hdrop, List.length_cons] at hle
    omega
  · cases h

theorem readBare_length {cs rest : List Char} {step : Step}
    (h : readBare cs = some (step, rest)) : rest.length ≤ cs.length := by
  unfold readBare at h
  split at h
  · cases h
  · obtain ⟨-, rfl⟩ := Prod.mk.inj (Option.some.inj h)
    exact (List.dropWhile_sublist _).length_le

theorem readIndex_length {of : ℕ → Step} {cs rest : List Char} {step : Step}
    (h : readIndex of cs = some (step, rest)) : rest.length < cs.length := by
  unfold readIndex at h
  split at h
  · rename_i d ds rest' _ hdrop
    obtain ⟨-, rfl⟩ := Prod.mk.inj (Option.some.inj h)
    have hle := (List.dropWhile_sublist Char.isDigit (l := cs)).length_le
    rw [hdrop, List.length_cons] at hle
    omega
  · cases h

theorem readStep_length {cs rest : List Char} {step : Step}
    (h : readStep cs = some (step, rest)) : rest.length < cs.length := by
  unfold readStep at h
  split at h
  · exact (readQuoted_length h).trans (by simp)
  · exact (readBare_length h).trans_lt (by simp)
  · cases h
    simp only [List.length_cons]
    omega
  · have hlt := readIndex_length h
    simp only [List.length_cons]
    omega
  · exact (readIndex_length h).trans (by simp)
  · cases h

/-- The steps of a path, if it consists of steps and nothing else. -/
def readSteps (cs : List Char) : Option (List Step) :=
  if cs = [] then some []
  else
    match _h : readStep cs with
    | some (step, rest) => (readSteps rest).map (step :: ·)
    | none => none
termination_by cs.length
decreasing_by exact readStep_length (by assumption)

def read (path : String) : Option (List Step) :=
  match path.toList with
  | '$' :: cs => readSteps cs
  | _ => none

def find : List Step → Node → Option Node
  | [], v => some v
  | .key label :: steps, .object fields => (Node.field label.toList (.object fields)).bind (find steps)
  | .item i :: steps, .array items => items[i]?.bind (find steps)
  | .itemFromEnd i :: steps, .array items =>
    if i = 0 then none else items.reverse[i - 1]?.bind (find steps)
  | _ :: _, _ => none

/-- The value at a path in the text of a cell, null if there is none, unless the text or the path is
malformed. -/
def extract (path : String) : Cell → Option Cell
  | .text s =>
    (read path).bind fun steps => (Node.read s).map fun v => ((find steps v).map Cell.ofNode).getD .null
  | _ => some .null

section

variable {key : String} {keys : List String} {cs rest : List Char}

theorem readQuoted_append (hcs : ∀ c ∈ cs, c ≠ '"') (rest : List Char) :
    readQuoted (cs ++ '"' :: rest) = some (.key (String.ofList cs), rest) := by
  have hpos : ∀ c ∈ cs, decide (c ≠ '"') = true := by simpa using hcs
  rw [readQuoted, List.dropWhile_append_of_pos hpos, List.takeWhile_append_of_pos hpos]
  simp

theorem readBare_append (hne : cs ≠ []) (hcs : ∀ c ∈ cs, endsLabel c = false)
    (hrest : Syntax.EndsKey rest) :
    readBare (cs ++ rest) = some (.key (String.ofList cs), rest) := by
  have hpos : ∀ c ∈ cs, (!endsLabel c) = true := by simpa using hcs
  have hstop : rest.takeWhile (fun c => !endsLabel c) = []
      ∧ rest.dropWhile (fun c => !endsLabel c) = rest := by
    cases rest with
    | nil => simp
    | cons c rest =>
      obtain rfl : c = '.' := hrest c rfl
      simp [endsLabel]
  rw [readBare, List.takeWhile_append_of_pos hpos, List.dropWhile_append_of_pos hpos, hstop.1,
    hstop.2, List.append_nil]
  cases cs with
  | nil => exact absurd rfl hne
  | cons c cs => rfl

theorem readStep_stepChars (hkey : ∀ c ∈ key.toList, Field.isKeyChar c = true)
    (hrest : Syntax.EndsKey rest) :
    readStep (Field.stepChars key ++ rest) = some (.key key, rest) := by
  have hquoted : ∀ c ∈ key.toList, c ≠ '"' := fun c hc =>
    Field.isKeyChar_ne (hkey c hc) (by decide)
  have hends : ∀ c ∈ key.toList, endsLabel c = false := by
    intro c hc
    have hpoint : c ≠ '.' := Field.isKeyChar_ne (hkey c hc) (by decide)
    have hbracket : c ≠ '[' := Field.isKeyChar_ne (hkey c hc) (by decide)
    simp [endsLabel, hpoint, hbracket]
  have hofList := String.ofList_toList (s := key)
  -- No character of a key ends a label, whether the key is quoted or not.
  unfold Field.stepChars
  split
  · rename_i c cs hchars
    rw [hchars] at hquoted hends hofList
    split
    · have hread := readBare_append (by simp) hends hrest
      rw [hofList] at hread
      have hc : c ≠ '"' := hquoted c (by simp)
      simpa [readStep, hc] using hread
    · have hread := readQuoted_append hquoted rest
      rw [hofList] at hread
      simpa [readStep] using hread
  · rename_i hchars
    rw [hchars] at hofList
    simp [readStep, readQuoted, ← hofList]

theorem read_pathChars (h : (Field.path keys).IsPlain) :
    read (String.ofList (Field.pathChars keys)) = some (keys.map .key) := by
  have hsteps : readSteps (keys.flatMap Field.stepChars) = some (keys.map .key) := by
    induction keys with
    | nil => simp [readSteps]
    | cons k ks ih =>
      have hrest : Syntax.EndsKey (ks.flatMap Field.stepChars) := by
        cases ks with
        | nil => simp [Syntax.EndsKey]
        | cons k' ks =>
          obtain ⟨cs, hcs⟩ := Syntax.stepChars_front k'
          simp [Syntax.EndsKey, hcs]
      have hread := readStep_stepChars (h k (by simp)) hrest
      have hne : Field.stepChars k ++ ks.flatMap Field.stepChars ≠ [] := by
        obtain ⟨cs, hcs⟩ := Syntax.stepChars_front k
        simp [hcs]
      rw [List.flatMap_cons, readSteps, if_neg hne]
      split
      · rename_i step rest hstep
        rw [hread] at hstep
        obtain ⟨rfl, rfl⟩ := Prod.mk.inj (Option.some.inj hstep)
        rw [ih fun k' hk' => h k' (by simp [hk'])]
        rfl
      · rename_i hstep
        rw [hread] at hstep
        cases hstep
  rw [read, String.toList_ofList]
  exact hsteps

theorem find_keys (keys : List String) (v : Node) : find (keys.map .key) v = v.follow keys := by
  induction keys generalizing v with
  | nil => rfl
  | cons k ks ih =>
    have hfind : find (ks.map .key) = Node.follow ks := funext ih
    cases v with
    | object fields => simp only [List.map_cons, find, hfind, Node.follow]
    | _ => rfl

end

end JsonPath

/-- Whether a path can stand between quotes in a statement and leads along some keys, from object to
object, to what they lead to in the metadata. -/
structure JsonPath.Locates (path : String) (keys : List String) : Prop where
  enclosed : ∀ c ∈ path.toList, c ≠ '\'' ∧ c ≠ '?'
  steps : read path = some (keys.map .key)
  found (m : Json.Fields) :
    find (keys.map .key) (Node.ofJson (.object m)) = ((Json.object m).follow keys).map Node.ofJson
  extracted (m : Json.Fields) :
    extract path (.text (Json.object m).text)
      = if (Json.object m).nesting ≤ Node.depthLimit then
          some ((((Json.object m).follow keys).map Cell.ofStored).getD .null)
        else none

theorem JsonPath.locates_pathChars {keys : List String} (h : (Field.path keys).IsPlain) :
    Locates (String.ofList (Field.pathChars keys)) keys := by
  have hfound (m : Json.Fields) : find (keys.map .key) (Node.ofJson (.object m))
      = ((Json.object m).follow keys).map Node.ofJson := by
    rw [find_keys, Node.follow_ofJson]
  refine ⟨?_, read_pathChars h, hfound, fun m => ?_⟩
  · rw [String.toList_ofList]
    exact fun c hc => ⟨Syntax.pathChars_ne h (by decide) (by decide) c hc,
      Syntax.pathChars_ne h (by decide) (by decide) c hc⟩
  · rw [extract, read_pathChars h, Option.bind_some, Node.read_text]
    split
    · rw [Option.map_some, hfound, Option.map_map]
      simp only [Function.comp_def, Node.ofNode_ofJson]
    · rfl

namespace Field

theorem toList_of_checkKeys {segments : List (List Char)} {keys : List String}
    (h : checkKeys segments = .ok keys) : segments = keys.map String.toList := by
  induction segments generalizing keys with
  | nil =>
    obtain rfl : [] = keys := Except.ok.inj h
    rfl
  | cons t ts ih =>
    rw [checkKeys] at h
    split at h
    · cases h
    · obtain ⟨keys', hkeys, rfl⟩ := map_eq_ok h
      simp [← ih hkeys]

theorem ofText_eq_ok {s : String} {field : Field} (h : ofText s = .ok field) :
    (∃ c : Column, s = c.name ∧ field = .column c)
      ∨ ∃ keys, field = .path keys ∧ segments? s = some (keys.map String.toList) := by
  rw [ofText_eq] at h
  cases hsegments : segments? s with
  | some segments =>
    rw [hsegments] at h
    dsimp only at h
    split at h
    · rename_i keys hkeys
      refine .inr ⟨keys, (Except.ok.inj h).symm, ?_⟩
      rw [toList_of_checkKeys hkeys]
    · cases h
  | none =>
    rw [hsegments] at h
    dsimp only at h
    split at h
    · rename_i c hc
      exact .inl ⟨c, ofName?_eq_some.mp hc, (Except.ok.inj h).symm⟩
    · cases h

theorem segments?_inj {s s' : String} {segments : List (List Char)}
    (h : segments? s = some segments) (h' : segments? s' = some segments) : s = s' := by
  have hspelled {t : String} (ht : segments? t = some segments) :
      t.toList = "meta.".toList ++ ['.'].intercalate segments := by
    obtain ⟨rest, hrest, rfl⟩ := Option.map_eq_some_iff.mp ht
    obtain ⟨front, hfront, heq⟩ := List.dropPrefix?_eq_some_iff.mp hrest
    obtain rfl : front = "meta.".toList := by simpa using heq
    rw [List.intercalate_splitOn, hfront]
  exact String.toList_inj.mp ((hspelled h).trans (hspelled h').symm)

theorem ofText_inj {s s' : String} {field : Field} (h : ofText s = .ok field)
    (h' : ofText s' = .ok field) : s = s' := by
  rcases ofText_eq_ok h with ⟨c, rfl, rfl⟩ | ⟨keys, rfl, hsegments⟩
  · rcases ofText_eq_ok h' with ⟨c', rfl, heq⟩ | ⟨keys, heq, -⟩
    · rw [Field.column.inj heq]
    · cases heq
  · rcases ofText_eq_ok h' with ⟨c', rfl, heq⟩ | ⟨keys', heq, hsegments'⟩
    · cases heq
    · obtain rfl := Field.path.inj heq
      exact segments?_inj hsegments hsegments'

theorem name_ne_text_path (c : Column) (keys : List String) : c.name ≠ (path keys).text := by
  intro htext
  have hopening : '(' ∈ (path keys).text.toList := by
    rw [text_path, String.toList_append, String.toList_append]
    exact List.mem_append_left _ (List.mem_append_left _ (by decide))
  rw [← htext] at hopening
  revert hopening
  cases c <;> decide

theorem text_inj {field field' : Field} (h : field.IsPlain) (h' : field'.IsPlain)
    (htext : field.text = field'.text) : field = field' := by
  cases field with
  | column c =>
    cases field' with
    | column c' =>
      have hname := Column.ofName?_name c
      rw [show c.name = c'.name from htext, Column.ofName?_name] at hname
      rw [Option.some.inj hname]
    | path keys => exact absurd htext (name_ne_text_path c keys)
  | path keys =>
    cases field' with
    | column c => exact absurd htext.symm (name_ne_text_path c keys)
    | path keys' =>
      rw [text_path, text_path, String.append_left_inj, String.append_right_inj] at htext
      have hread := JsonPath.read_pathChars h
      rw [htext, JsonPath.read_pathChars h', Option.some.injEq] at hread
      have hkeys : keys' = keys :=
        List.map_injective_iff.mpr (fun _ _ => JsonPath.Step.key.inj) hread
      rw [hkeys]

theorem value_path_eq {keys : List String} (h : (path keys).IsPlain) (cells : Column → Cell) :
    (path keys).value cells
      = JsonPath.extract (String.ofList (pathChars keys)) (cells .metadata) := by
  rw [value]
  cases cells .metadata with
  | text s =>
    simp only [JsonPath.extract, JsonPath.read_pathChars h, Option.bind_some, JsonPath.find_keys]
  | _ => rfl

/-- A field that is resolved stands in a statement as a column that has its name, or as a look-up in
the metadata along a path that leads just along its segments. Nothing in it runs into what follows
it, and no other field stands there in the same way. -/
theorem ofText_exact {s : String} {field : Field} (h : ofText s = .ok field) :
    ((∃ c : Column, field = .column c ∧ s = c.name ∧ field.text = s)
        ∨ ∃ keys path, field = .path keys ∧ segments? s = some (keys.map String.toList)
            ∧ field.text = "json_extract(meta, '" ++ path ++ "')" ∧ JsonPath.Locates path keys
            ∧ ∀ cells, field.value cells = JsonPath.extract path (cells .metadata))
      ∧ (∀ n rest, Syntax.scan n (field.text.toList ++ ' ' :: rest)
          = Syntax.fieldTokens field ++ Syntax.scan n rest)
      ∧ ∀ s' field', ofText s' = .ok field' → field'.text = field.text → s' = s := by
  have hplain := plain_of_ofText h
  refine ⟨?_, fun n rest => Syntax.scan_field hplain, fun s' field' h' htext => ?_⟩
  · rcases ofText_eq_ok h with ⟨c, rfl, rfl⟩ | ⟨keys, rfl, hsegments⟩
    · exact .inl ⟨c, rfl, rfl, rfl⟩
    · exact .inr ⟨keys, _, rfl, hsegments, text_path keys, JsonPath.locates_pathChars hplain,
        value_path_eq hplain⟩
  · obtain rfl := text_inj (plain_of_ofText h') hplain htext
    exact ofText_inj h' h

/-- Segments with a blank or of digits only are quoted, and lead to the keys that they spell. -/
theorem ofText_exact_quoted :
    ofText "meta.page count.2024.name" = .ok (.path ["page count", "2024", "name"])
      ∧ JsonPath.read "$.\"page count\".\"2024\".name"
          = some [.key "page count", .key "2024", .key "name"]
      ∧ ∀ s' field', ofText s' = .ok field'
          → field'.text = "json_extract(meta, '$.\"page count\".\"2024\".name')"
          → s' = "meta.page count.2024.name" := by
  have h : ofText "meta.page count.2024.name" = .ok (.path ["page count", "2024", "name"]) := by
    decide
  have htext : (path ["page count", "2024", "name"]).text
      = "json_extract(meta, '" ++ "$.\"page count\".\"2024\".name" ++ "')" := by
    decide
  obtain ⟨hstands, -, hinj⟩ := ofText_exact h
  refine ⟨h, ?_, fun s' field' h' htext' => hinj s' field' h' (htext'.trans htext.symm)⟩
  rcases hstands with ⟨c, hfield, -⟩ | ⟨keys, path, hfield, -, htext', hlocates, -⟩
  · cases hfield
  · obtain rfl := Field.path.inj hfield
    rw [htext, String.append_left_inj, String.append_right_inj] at htext'
    rw [htext']
    exact hlocates.steps

end Field
end DocumentStore
