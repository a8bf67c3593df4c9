import DocumentStore.Proofs.Store.Nearest
import DocumentStore.Store.Retrieve

/-! The lock of a store. Every operation takes it, and one that breaks it leaves a store that
answers nothing more. Main statement: a vector search breaks the lock just if there is no room for
its candidates and one more, each of 16 bytes, in what can be reserved at once. -/
namespace DocumentStore

abbrev StoreError.poisoned : StoreError := .storage .lockPoisoned

@[simp] theorem StoreError.engine_ne_poisoned : StoreError.engine ≠ .poisoned := by
  simp [StoreError.engine]

/-- Whether a computation, if it fails, does not fail for the lock. -/
def SparesLock {α : Type} (x : Except StoreError α) : Prop := x ≠ .error .poisoned

section

variable {α β : Type} {x : Except StoreError α}

@[simp] theorem sparesLock_error {e : StoreError} :
    SparesLock (.error e : Except StoreError α) ↔ e ≠ .poisoned := by
  simp [SparesLock]

@[simp] theorem sparesLock_ok (a : α) : SparesLock (.ok a : Except StoreError α) := by
  simp [SparesLock]

theorem SparesLock.bind {f : α → Except StoreError β} (hx : SparesLock x)
    (hf : ∀ a, SparesLock (f a)) : SparesLock (x >>= f) := by
  cases x with
  | error e => exact sparesLock_error.mpr (sparesLock_error.mp hx)
  | ok a => exact hf a

theorem SparesLock.map (hx : SparesLock x) (f : α → β) : SparesLock (x.map f) := by
  cases x with
  | error e => exact sparesLock_error.mpr (sparesLock_error.mp hx)
  | ok a => exact sparesLock_ok _

theorem sparesLock_lift {ε : Type} {wrap : ε → StoreError} (hwrap : ∀ e, wrap e ≠ .poisoned)
    (x : Except ε α) : SparesLock (lift wrap x) := by
  cases x with
  | error e => exact sparesLock_error.mpr (hwrap e)
  | ok a => exact sparesLock_ok _

theorem sparesLock_mapM {f : α → Except StoreError β} (hf : ∀ a, SparesLock (f a))
    (as : List α) : SparesLock (as.mapM f) := by
  induction as with
  | nil => exact sparesLock_ok _
  | cons a as ih =>
    rw [List.mapM_cons]
    exact (hf a).bind fun b => ih.bind fun bs => sparesLock_ok _

end

theorem Record.sparesLock_toDocument (r : Record) : SparesLock r.toDocument :=
  sparesLock_lift (fun _ => by simp) _

theorem Row.sparesLock_document (r : Row) : SparesLock r.document := by
  unfold Row.document
  split
  · exact Record.sparesLock_toDocument _
  · simp

theorem sparesLock_compileOptional (f : Option Filter) : SparesLock (compileOptional f) := by
  cases f with
  | none => exact sparesLock_ok _
  | some f => exact (sparesLock_lift (fun _ => by simp) _).map _

theorem sparesLock_validateEmbeddings (dims : Option ℕ) (ds : List Document) :
    SparesLock (validateEmbeddings dims ds) := by
  unfold validateEmbeddings
  split <;> simp

namespace Database

variable (join : Join) (condition : Option Condition) (topK : Option ℕ) (db : Database)

theorem sparesLock_get (id : String) : SparesLock (db.get id) := by
  unfold get
  split
  · exact sparesLock_ok _
  · exact (Row.sparesLock_document _).map _

theorem sparesLock_documentsOf (rows : List Row) : SparesLock (documentsOf condition rows) := by
  induction rows with
  | nil => exact sparesLock_ok _
  | cons r rows ih =>
    rw [documentsOf]
    split
    · simp
    · exact ih
    · exact r.sparesLock_document.bind fun d => ih.bind fun ds => sparesLock_ok _

theorem sparesLock_filter : SparesLock (db.filter condition) := by
  unfold filter
  split
  · simp
  · exact sparesLock_ok _
  · exact sparesLock_documentsOf condition db.rows

theorem sparesLock_keepMeeting (as : List Ranked) : SparesLock (keepMeeting join condition as) := by
  induction as with
  | nil => exact sparesLock_ok _
  | cons a as ih =>
    rw [keepMeeting]
    split
    · simp
    · exact ih.bind fun as => sparesLock_ok _

theorem sparesLock_rank (as : List Ranked) : SparesLock (rank join condition topK as) := by
  refine (sparesLock_keepMeeting join condition as).bind fun as => ?_
  refine (sparesLock_mapM (fun a => ?_) _).bind fun selected => sparesLock_mapM (fun a => ?_) _
  · unfold Ranked.selected
    split <;> simp
  · exact a.record.sparesLock_toDocument.bind fun d => sparesLock_ok _

theorem sparesLock_writeOne (policy : DuplicatePolicy) (d : Document) :
    SparesLock (db.writeOne policy d) := by
  unfold writeOne
  split
  · exact sparesLock_ok _
  · split <;> simp

theorem sparesLock_write (policy : DuplicatePolicy) (batch : List Document) :
    SparesLock (db.write policy batch) := by
  induction batch generalizing db with
  | nil => exact sparesLock_ok _
  | cons d batch ih =>
    exact (db.sparesLock_writeOne policy d).bind fun p => (ih p.1).bind fun q => sparesLock_ok _

theorem sparesLock_searchOnce (r : LexicalRequest) (text : String) :
    db.searchOnce condition r text ≠ .error (.store .poisoned) := by
  unfold searchOnce
  cases db.lexical with
  | none => exact nofun
  | some i =>
    dsimp only
    split
    · exact nofun
    · exact nofun
    · cases Lexical.readQuery i.kind text with
      | error fault => exact nofun
      | ok q =>
        cases q with
        | none => exact nofun
        | some q =>
          dsimp only
          split
          · exact nofun
          · rename_i e hrank
            intro h
            cases h
            exact sparesLock_rank .found condition r.topK _ hrank

theorem sparesLock_searchText (r : LexicalRequest) : SparesLock (db.searchText condition r) := by
  unfold searchText
  cases hfirst : db.searchOnce condition r r.query with
  | ok hits => exact sparesLock_ok _
  | error fault =>
    cases fault with
    | store e =>
      intro h
      cases h
      exact db.sparesLock_searchOnce condition r _ hfirst
    | query fault =>
      dsimp only
      split_ifs
      · simp
      · simp
      · simp
      · cases hsecond : db.searchOnce condition r (Lexical.sanitized r.query) with
        | ok hits => exact sparesLock_ok _
        | error fault =>
          cases fault with
          | query fault => simp
          | store e =>
            intro h
            cases h
            exact db.sparesLock_searchOnce condition r _ hsecond

theorem sparesLock_searchWindow (window : List Vector.Candidate) :
    SparesLock (db.searchWindow condition topK window) := by
  unfold searchWindow
  split
  · exact sparesLock_ok _
  · dsimp only
    split
    · simp
    · exact sparesLock_ok _
    · split
      · simp
      · exact sparesLock_rank .window condition topK _

theorem sparesLock_delete (ids : List String) : SparesLock (db.delete ids) := by
  rw [delete_eq]
  exact sparesLock_ok _

end Database

namespace Store

/-- The largest number of candidates for which there is room. -/
def mostCandidates : ℕ := 2 ^ 59 - 2

theorem hasRoomFor_iff {limit : ℕ} : hasRoomFor limit = true ↔ limit ≤ mostCandidates := by
  rw [hasRoomFor, decide_eq_true_iff, mostCandidates]
  omega

/-- How an operation ends. -/
inductive Ending where
  | done
  | failed (e : StoreError)
  | panicked
deriving DecidableEq

namespace Ending

def ofResult {α : Type} : Except StoreError α → Ending
  | .ok _ => done
  | .error e => failed e

def ofAttempt {α : Type} : Option (Except StoreError α) → Ending
  | none => panicked
  | some result => ofResult result

/-- Whether an operation neither panicked nor found the lock broken. -/
def IsOrderly (e : Ending) : Prop := e ≠ panicked ∧ e ≠ failed .poisoned

theorem isOrderly_ofResult {α : Type} {x : Except StoreError α} (h : SparesLock x) :
    (ofResult x).IsOrderly := by
  cases x with
  | ok a => exact ⟨nofun, nofun⟩
  | error e =>
    refine ⟨nofun, fun he => ?_⟩
    cases he
    exact h rfl

end Ending

/-- What can be asked of a store. -/
inductive Operation where
  | count
  | get (id : String)
  | filter (f : Option Filter)
  | write (batch : List Document) (policy : DuplicatePolicy)
  | delete (ids : List String)
  | rebuild
  | searchText (r : LexicalRequest)
  | searchVector (r : VectorRequest)

namespace Operation

def run (s : Store) : Operation → Ending × Store
  | count => (.ofResult s.count, s)
  | get id => (.ofResult (s.get id), s)
  | filter f => (.ofResult (s.filter f), s)
  | write batch policy => (.ofResult (s.write batch policy).1, (s.write batch policy).2)
  | delete ids => (.ofResult (s.delete ids).1, (s.delete ids).2)
  | rebuild => (.ofResult s.rebuild.1, s.rebuild.2)
  | searchText r => (.ofResult (s.searchText r), s)
  | searchVector r => (.ofAttempt (s.searchVector r).1, (s.searchVector r).2)

/-- How operations that follow each other end, and the store after them. -/
def runAll (s : Store) : List Operation → List Ending × Store
  | [] => ([], s)
  | o :: os => ((o.run s).1 :: (runAll (o.run s).2 os).1, (runAll (o.run s).2 os).2)

/-- Whether there is room for all candidates that an operation asks for. -/
def HasRoom : Operation → Prop
  | searchVector r => r.candidates ≤ mostCandidates
  | _ => True

/-- The fault that an operation finds before it takes the lock. -/
def early? (c : Config) : Operation → Option StoreError
  | write batch _ =>
    match validateEmbeddings c.dims batch with
    | .ok _ => none
    | .error e => some e
  | searchText _ => if c.lexical then none else some (.configuration .lexicalDisabled)
  | searchVector _ => if c.hasVectors then none else some (.configuration .vectorsDisabled)
  | _ => none

end Operation

variable {s : Store}

theorem commit_isPoisoned {α : Type} (s : Store) (change : Except StoreError (Database × α)) :
    (s.commit change).2.isPoisoned = s.isPoisoned := by
  cases change <;> rfl

theorem sparesLock_commit {α : Type} {change : Except StoreError (Database × α)}
    (h : SparesLock change) : SparesLock (s.commit change).1 := by
  cases change with
  | ok p => exact sparesLock_ok _
  | error e => exact sparesLock_error.mpr (sparesLock_error.mp h)

theorem sparesLock_locked (hlock : s.isPoisoned = false) : SparesLock s.locked := by
  rw [locked_of_not_poisoned hlock]
  exact sparesLock_ok _

theorem exists_answer (hlock : s.isPoisoned = false) {r : VectorRequest}
    (hroom : r.candidates ≤ mostCandidates) :
    ∃ answer, (s.searchVector r).1 = some answer ∧ SparesLock answer := by
  cases hdims : s.config.dims with
  | none =>
    rw [searchVector, hdims]
    exact ⟨_, rfl, by simp⟩
  | some dims =>
    by_cases hlength : r.vector.length = dims
    · subst hlength
      cases hf : compileOptional r.filter with
      | error e =>
        have hfilter := sparesLock_compileOptional r.filter
        rw [hf, sparesLock_error] at hfilter
        rw [searchVector_refused hlock hdims hf]
        exact ⟨_, rfl, sparesLock_error.mpr hfilter⟩
      | ok condition =>
        rw [searchVector_checked hlock hdims hf]
        unfold nearest
        rw [locked_of_not_poisoned hlock, hasRoomFor_iff.mpr hroom]
        dsimp only [Database.nearest]
        cases s.database.vectors with
        | none => exact ⟨_, rfl, by simp⟩
        | some entries => exact ⟨_, rfl, s.database.sparesLock_searchWindow condition r.topK _⟩
    · rw [searchVector_mismatch hlock hdims hlength]
      exact ⟨_, rfl, by simp⟩

theorem searchVector_of_no_room (hlock : s.isPoisoned = false) {r : VectorRequest}
    {condition : Option Condition} (hdims : s.config.dims = some r.vector.length)
    (hvectors : s.database.vectors.isSome) (hf : compileOptional r.filter = .ok condition)
    (hroom : mostCandidates < r.candidates) :
    s.searchVector r = (none, s.poison) := by
  obtain ⟨entries, hentries⟩ := Option.isSome_iff_exists.mp hvectors
  have hno : hasRoomFor r.candidates = false := by
    rw [Bool.eq_false_iff, ne_eq, hasRoomFor_iff]
    omega
  rw [searchVector_checked hlock hdims hf]
  simp only [nearest, locked_of_not_poisoned hlock, Database.nearest, hentries, hno,
    Bool.false_eq_true, if_false]

namespace Operation

/-- One operation for which there is room finds the lock as it should be, and leaves it so. -/
theorem run_of_room (hlock : s.isPoisoned = false) {o : Operation} (hroom : o.HasRoom) :
    (o.run s).1.IsOrderly ∧ (o.run s).2.isPoisoned = false := by
  have hlocked := sparesLock_locked hlock
  cases o with
  | count => exact ⟨Ending.isOrderly_ofResult (hlocked.map _), hlock⟩
  | get id => exact ⟨Ending.isOrderly_ofResult (hlocked.bind fun db => db.sparesLock_get id), hlock⟩
  | filter f =>
    refine ⟨Ending.isOrderly_ofResult (hlocked.bind fun db => ?_), hlock⟩
    exact (sparesLock_compileOptional f).bind fun c => db.sparesLock_filter c
  | write batch policy =>
    refine ⟨Ending.isOrderly_ofResult (sparesLock_commit ?_), (commit_isPoisoned s _).trans hlock⟩
    refine (sparesLock_validateEmbeddings s.config.dims batch).bind fun _ => ?_
    exact hlocked.bind fun db => db.sparesLock_write policy batch
  | delete ids =>
    refine ⟨Ending.isOrderly_ofResult (sparesLock_commit ?_), (commit_isPoisoned s _).trans hlock⟩
    exact hlocked.bind fun db => (db.sparesLock_delete ids).map _
  | rebuild =>
    exact ⟨Ending.isOrderly_ofResult (sparesLock_commit (hlocked.map _)),
      (commit_isPoisoned s _).trans hlock⟩
  | searchText r =>
    refine ⟨Ending.isOrderly_ofResult ?_, hlock⟩
    unfold Store.searchText
    split
    · simp
    · refine hlocked.bind fun db => ?_
      exact (sparesLock_compileOptional r.filter).bind fun c => db.sparesLock_searchText c r
  | searchVector r =>
    obtain ⟨answer, hanswer, hspares⟩ := exists_answer hlock hroom
    rw [run, hanswer, searchVector_snd (hasRoomFor_iff.mpr hroom)]
    exact ⟨Ending.isOrderly_ofResult hspares, hlock⟩

/-- After a broken lock an operation has a fault of its own only before it would take the lock. -/
theorem run_of_poisoned (hlock : s.isPoisoned = true) (o : Operation) :
    o.run s = (.failed ((o.early? s.config).getD .poisoned), s) := by
  have hlocked : s.locked = .error .poisoned := by rw [locked, if_pos hlock]
  cases o with
  | count => rw [run, Store.count, hlocked]; rfl
  | get id => rw [run, Store.get, hlocked]; rfl
  | filter f => rw [run, Store.filter, hlocked]; rfl
  | delete ids => rw [run, Store.delete, hlocked]; rfl
  | rebuild => rw [run, Store.rebuild, hlocked]; rfl
  | write batch policy =>
    rw [run, Store.write, hlocked, early?]
    cases validateEmbeddings s.config.dims batch <;> rfl
  | searchText r =>
    rw [run, Store.searchText, hlocked, early?]
    cases s.config.lexical <;> rfl
  | searchVector r =>
    rw [run, Store.searchVector, hlocked, early?, Config.hasVectors]
    cases s.config.dims <;> rfl

theorem runAll_of_room {os : List Operation} (hlock : s.isPoisoned = false)
    (hroom : ∀ o ∈ os, o.HasRoom) :
    (∀ e ∈ (runAll s os).1, e.IsOrderly) ∧ (runAll s os).2.isPoisoned = false := by
  induction os generalizing s with
  | nil => exact ⟨fun e he => absurd he List.not_mem_nil, hlock⟩
  | cons o os ih =>
    obtain ⟨hend, hlock'⟩ := run_of_room hlock (hroom o List.mem_cons_self)
    obtain ⟨hends, hlock''⟩ := ih hlock' fun p hp => hroom p (List.mem_cons_of_mem o hp)
    exact ⟨List.forall_mem_cons.mpr ⟨hend, hends⟩, hlock''⟩

theorem runAll_of_poisoned (hlock : s.isPoisoned = true) (os : List Operation) :
    runAll s os = (os.map fun o => .failed ((o.early? s.config).getD .poisoned), s) := by
  induction os with
  | nil => rfl
  | cons o os ih => rw [runAll, run_of_poisoned hlock, ih, List.map_cons]

end Operation
end Store

open Store.Operation in
/-- At every point of a history, a search for a vector of the right length with a filter that
compiles breaks the lock just if it asks for more candidates than there is room for. Any other comes
to an answer and leaves the store as it is, and however many operations follow, if there is room for
each of them, none panics or finds the lock broken. The search that breaks the lock panics, every
operation after it fails, but what a file holds is not lost. -/
theorem History.searchVector_breaks_lock_iff {cs : List Config} {docs : List Document} {s : Store}
    (h : History cs docs s) {r : VectorRequest} {condition : Option Condition}
    (hdims : s.config.dims = some r.vector.length)
    (hf : compileOptional r.filter = .ok condition) :
    ((s.searchVector r).2.isPoisoned = true ↔ Store.mostCandidates < r.candidates)
      ∧ (r.candidates ≤ Store.mostCandidates →
          (∃ answer, s.searchVector r = (some answer, s) ∧ SparesLock answer)
            ∧ ∀ os : List Store.Operation, (∀ o ∈ os, o.HasRoom) →
              (∀ e ∈ (runAll s os).1, e.IsOrderly) ∧ (runAll s os).2.isPoisoned = false)
      ∧ (Store.mostCandidates < r.candidates →
          s.searchVector r = (none, s.poison)
            ∧ (∀ os, runAll s.poison os
                = (os.map fun o => .failed ((o.early? s.config).getD .poisoned), s.poison))
            ∧ ∀ disk, s.poison.close disk = s.close disk) := by
  have hk := h.keeps
  have hkept : r.candidates ≤ Store.mostCandidates → (s.searchVector r).2 = s := fun hroom =>
    Store.searchVector_snd (Store.hasRoomFor_iff.mpr hroom)
  have hbroken : Store.mostCandidates < r.candidates →
      s.searchVector r = (none, s.poison) := by
    intro hroom
    have hvectors : s.database.vectors.isSome :=
      hk.vectors.mpr ⟨s.config, h.config_mem, by simp [Config.hasVectors, hdims]⟩
    exact Store.searchVector_of_no_room hk.lock hdims hvectors hf hroom
  refine ⟨⟨?_, ?_⟩, ?_, ?_⟩
  · intro hpoisoned
    by_contra hroom
    rw [hkept (not_lt.mp hroom), hk.lock] at hpoisoned
    cases hpoisoned
  · intro hroom
    rw [hbroken hroom]
    rfl
  · intro hroom
    obtain ⟨answer, hanswer, hspares⟩ := Store.exists_answer hk.lock hroom
    refine ⟨⟨answer, Prod.ext hanswer (hkept hroom), hspares⟩, ?_⟩
    exact fun os => runAll_of_room hk.lock
  · intro hroom
    exact ⟨hbroken hroom, runAll_of_poisoned rfl, fun _ => rfl⟩

/-- Asks for as many candidates as a signed number of 64 bits can say. -/
def VectorRequest.widest : VectorRequest :=
  { VectorRequest.filtered with
    filter := none
    candidates := 2 ^ 63 - 1
    candidates_pos := by decide }

/-- Two candidates leave all as it is, and a deletion and another search are orderly after them; the
widest request panics and ends all. -/
theorem History.searchVector_breaks_lock_iff_three :
    (Store.three.searchVector .filtered).2 = .three
      ∧ (∀ e ∈ (Store.Operation.runAll .three [.delete ["a"], .searchVector .filtered]).1,
          e.IsOrderly)
      ∧ Store.three.searchVector .widest = (none, Store.three.poison)
      ∧ (Store.Operation.runAll Store.three.poison [.delete ["a"], .searchVector .widest]).1
          = [.failed .poisoned, .failed .poisoned] := by
  obtain ⟨-, hkept, -⟩ := History.three.searchVector_breaks_lock_iff (r := .filtered) rfl rfl
  obtain ⟨-, -, hbroken⟩ := History.three.searchVector_breaks_lock_iff (r := .widest) rfl rfl
  have hroom : VectorRequest.filtered.candidates ≤ Store.mostCandidates := by decide
  have hwide : Store.mostCandidates < VectorRequest.widest.candidates := by decide
  obtain ⟨⟨answer, hanswer, -⟩, horderly⟩ := hkept hroom
  refine ⟨congrArg Prod.snd hanswer, (horderly _ ?_).1, (hbroken hwide).1, ?_⟩
  · simp [Store.Operation.HasRoom, hroom]
  · rw [(hbroken hwide).2.1]
    rfl

/-- A request that is accepted, and the run of a retriever with its defaults, each panic on an empty
store, which cannot even be counted after that. -/
theorem History.lock_broken_by_widest :
    ∃ s, History [{ dims := some 1 }] [] s
      ∧ (VectorRequest.ofVector [1] >>= VectorRequest.withCandidates (2 ^ 63 - 1))
          = .ok .widest
      ∧ s.config.dims = some VectorRequest.widest.vector.length
      ∧ compileOptional VectorRequest.widest.filter = .ok none
      ∧ s.searchVector .widest = (none, s.poison)
      ∧ s.poison.count = .error .poisoned
      ∧ VectorRetriever.runOn {} { vector := [1], candidates := some (2 ^ 63 - 1) } s
          = (none, s.poison) :=
  ⟨_, @History.created {} { dims := some 1 } _ rfl rfl, rfl, rfl, rfl, rfl, rfl, rfl⟩

end DocumentStore
