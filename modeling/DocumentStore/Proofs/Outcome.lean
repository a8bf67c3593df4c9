import DocumentStore.Error
import Mathlib.Data.List.Forall2

/-! Computations that can fail: successful ones taken apart into their steps, and answers that are
missing for one reason only. -/
namespace DocumentStore

variable {ε α β : Type}

theorem bind_eq_ok {x : Except ε α} {f : α → Except ε β} {b : β} (h : x >>= f = .ok b) :
    ∃ a, x = .ok a ∧ f a = .ok b := by
  cases x with
  | error e => cases h
  | ok a => exact ⟨a, rfl, h⟩

theorem map_eq_ok {x : Except ε α} {f : α → β} {b : β} (h : x.map f = .ok b) :
    ∃ a, x = .ok a ∧ f a = b := by
  cases x with
  | error e => cases h
  | ok a => exact ⟨a, rfl, Except.ok.inj h⟩

theorem lift_eq_ok {wrap : ε → StoreError} {x : Except ε α} {a : α} (h : lift wrap x = .ok a) :
    x = .ok a := by
  cases x with
  | error e => cases h
  | ok b => exact congrArg Except.ok (Except.ok.inj h)

theorem toOption_mapM_cons (f : α → Except ε β) (a : α) (as : List α) :
    ((a :: as).mapM f).toOption
      = (f a).toOption.bind fun b => (as.mapM f).toOption.map (b :: ·) := by
  rw [List.mapM_cons]
  cases f a with
  | error e => rfl
  | ok b => cases as.mapM f <;> rfl

theorem eq_ok_of_join {x : Except ε (Option α)} {a : α} (h : x.toOption.join = some a) :
    x = .ok (some a) := by
  cases x with
  | error e => cases h
  | ok b => exact congrArg _ h

theorem mapM_eq_ok {f : α → Except ε β} {as : List α} {bs : List β} :
    as.mapM f = .ok bs ↔ List.Forall₂ (fun a b => f a = .ok b) as bs := by
  induction as generalizing bs with
  | nil =>
    constructor
    · intro h
      cases h
      exact .nil
    · intro h
      cases h
      rfl
  | cons a as ih =>
    constructor
    · intro h
      rw [List.mapM_cons] at h
      obtain ⟨b, hb, h⟩ := bind_eq_ok h
      obtain ⟨bs', hbs, h⟩ := bind_eq_ok h
      cases h
      exact .cons hb (ih.mp hbs)
    · intro h
      cases h with
      | cons hb hbs =>
        rw [List.mapM_cons, hb, ih.mpr hbs]
        rfl

theorem exists_forall₂ {R : α → β → Prop} {as : List α} (h : ∀ a ∈ as, ∃ b, R a b) :
    ∃ bs, List.Forall₂ R as bs := by
  induction as with
  | nil => exact ⟨[], .nil⟩
  | cons a as ih =>
    obtain ⟨b, hb⟩ := h a (by simp)
    obtain ⟨bs, hbs⟩ := ih fun c hc => h c (by simp [hc])
    exact ⟨b :: bs, .cons hb hbs⟩

theorem exists_mapM_eq_ok {f : α → Except ε β} {as : List α} (h : ∀ a ∈ as, ∃ b, f a = .ok b) :
    ∃ bs, as.mapM f = .ok bs := by
  obtain ⟨bs, hbs⟩ := exists_forall₂ h
  exact ⟨bs, mapM_eq_ok.mpr hbs⟩

theorem exists_of_mem_mapM {f : α → Except ε β} {as : List α} {bs : List β}
    (h : as.mapM f = .ok bs) {b : β} (hb : b ∈ bs) : ∃ a ∈ as, f a = .ok b := by
  obtain ⟨i, hi, rfl⟩ := List.getElem_of_mem hb
  have hall := mapM_eq_ok.mp h
  have hi' : i < as.length := hall.length_eq ▸ hi
  exact ⟨as[i], List.getElem_mem hi', hall.get hi' hi⟩

theorem exists_mem_of_mapM {f : α → Except ε β} {as : List α} {bs : List β}
    (h : as.mapM f = .ok bs) {a : α} (ha : a ∈ as) : ∃ b ∈ bs, f a = .ok b := by
  obtain ⟨i, hi, rfl⟩ := List.getElem_of_mem ha
  have hall := mapM_eq_ok.mp h
  have hi' : i < bs.length := hall.length_eq ▸ hi
  exact ⟨bs[i], List.getElem_mem hi', hall.get hi hi'⟩

theorem pairwise_of_mapM {f : α → Except ε β} {as : List α} {bs : List β} {R : α → α → Prop}
    {S : β → β → Prop} (hRS : ∀ a b x y, f a = .ok x → f b = .ok y → R a b → S x y)
    (h : as.mapM f = .ok bs) (has : as.Pairwise R) : bs.Pairwise S := by
  have hall := mapM_eq_ok.mp h
  rw [List.pairwise_iff_getElem] at has ⊢
  intro i j hi hj hij
  have hi' : i < as.length := hall.length_eq ▸ hi
  have hj' : j < as.length := hall.length_eq ▸ hj
  exact hRS _ _ _ _ (hall.get hi' hi) (hall.get hj' hj) (has i j hi' hj' hij)

theorem foldlM_preserves {P : β → Prop} {f : β → α → Except ε β} {as : List α} {b c : β} (hb : P b)
    (hf : ∀ a ∈ as, ∀ b c, P b → f b a = .ok c → P c) (h : as.foldlM f b = .ok c) : P c := by
  induction as generalizing b with
  | nil =>
    cases h
    exact hb
  | cons a as ih =>
    rw [List.foldlM_cons] at h
    obtain ⟨b', hb', h⟩ := bind_eq_ok h
    exact ih (hf a (by simp) b b' hb hb') (fun d hd => hf d (by simp [hd])) h

/-- Whether an answer is the one expected; it may only be missing, and only for the given reason. -/
def Settles (reason : Prop) (answer : Option α) (expected : α) : Prop :=
  answer = some expected ∨ answer = none ∧ reason

theorem Settles.imp {reason reason' : Prop} {answer : Option α} {expected : α}
    (h : Settles reason answer expected) (himp : reason → reason') :
    Settles reason' answer expected := by
  rcases h with rfl | ⟨rfl, hreason⟩
  · exact .inl rfl
  · exact .inr ⟨rfl, himp hreason⟩

theorem Settles.map {reason : Prop} {answer : Option α} {expected : α} (g : α → β)
    (h : Settles reason answer expected) : Settles reason (answer.map g) (g expected) := by
  rcases h with rfl | ⟨rfl, hreason⟩
  · exact .inl rfl
  · exact .inr ⟨rfl, hreason⟩

theorem Settles.mapM {reason : Prop} {answer : α → Option β} {expected : α → β} {as : List α}
    (h : ∀ a ∈ as, Settles reason (answer a) (expected a)) :
    Settles reason (as.mapM answer) (as.map expected) := by
  induction as with
  | nil => exact .inl rfl
  | cons a as ih =>
    rw [List.mapM_cons, List.map_cons]
    rcases h a List.mem_cons_self with ha | ⟨ha, hreason⟩
    · rw [ha]
      rcases ih fun b hb => h b (List.mem_cons_of_mem _ hb) with hrest | ⟨hrest, hreason⟩
      · rw [hrest]
        exact .inl rfl
      · rw [hrest]
        exact .inr ⟨rfl, hreason⟩
    · rw [ha]
      exact .inr ⟨rfl, hreason⟩

end DocumentStore
