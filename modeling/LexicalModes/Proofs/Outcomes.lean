import Mathlib.Data.List.Forall2

/-!
Computations that may fail, taken apart when they succeed, and the errors they can fail with
(`FailsOnly`), put together from those of their parts. Where a limit is an error of its own, a
higher limit gives the same outcome unless the lower one was met (`SameUnless`).
-/

namespace LexicalModes

variable {ε α β : Type}

/-- A sequence of two computations succeeds if the first does and the second does with its
result. -/
theorem bind_eq_ok {x : Except ε α} {f : α → Except ε β} {b : β} :
    (x >>= f) = .ok b ↔ ∃ a, x = .ok a ∧ f a = .ok b := by
  cases x with
  | error e => simp [bind, Except.bind]
  | ok a => simp [bind, Except.bind]

/-- A sequence of two computations fails if the first does or the second does with its result. -/
theorem bind_eq_error {x : Except ε α} {f : α → Except ε β} {e : ε} :
    (x >>= f) = .error e ↔ x = .error e ∨ ∃ a, x = .ok a ∧ f a = .error e := by
  cases x with
  | error e => simp [bind, Except.bind]
  | ok a => simp [bind, Except.bind]

theorem map_eq_ok {x : Except ε α} {f : α → β} {b : β} :
    (f <$> x) = .ok b ↔ ∃ a, x = .ok a ∧ f a = b := by
  cases x with
  | error e => simp [Functor.map, Except.map]
  | ok a => simp [Functor.map, Except.map]

theorem pure_eq_ok {a b : α} : (pure a : Except ε α) = .ok b ↔ a = b := by
  simp [pure, Except.pure]

/-- The computation comes to a result, or to an error with the property. -/
def FailsOnly (P : ε → Prop) (x : Except ε α) : Prop := ∀ e, x = .error e → P e

section FailsOnly

variable {P : ε → Prop}

@[simp] theorem failsOnly_ok (a : α) : FailsOnly P (.ok a : Except ε α) := fun _ h => nomatch h

@[simp] theorem failsOnly_error {e : ε} : FailsOnly P (.error e : Except ε α) ↔ P e :=
  ⟨fun h => h e rfl, fun h _ heq => Except.error.inj heq ▸ h⟩

theorem FailsOnly.bind {x : Except ε α} {f : α → Except ε β} (hx : FailsOnly P x)
    (hf : ∀ a, x = .ok a → FailsOnly P (f a)) : FailsOnly P (x >>= f) := by
  cases x with
  | error e => exact failsOnly_error.2 (hx e rfl)
  | ok a => exact hf a rfl

theorem FailsOnly.map {x : Except ε α} (hx : FailsOnly P x) (f : α → β) :
    FailsOnly P (f <$> x) := by
  cases x with
  | error e => exact failsOnly_error.2 (hx e rfl)
  | ok a => exact failsOnly_ok (f a)

theorem FailsOnly.mono {Q : ε → Prop} {x : Except ε α} (hx : FailsOnly P x)
    (hPQ : ∀ e, P e → Q e) : FailsOnly Q x := fun e he => hPQ e (hx e he)

end FailsOnly

/-- The second outcome is the first, unless that is the given error. -/
def SameUnless (limit : ε) (x y : Except ε α) : Prop := x = .error limit ∨ y = x

section SameUnless

variable {limit : ε}

theorem SameUnless.refl (x : Except ε α) : SameUnless limit x x := .inr rfl

theorem SameUnless.bind {x y : Except ε α} {f f' : α → Except ε β} (h : SameUnless limit x y)
    (hf : ∀ a, SameUnless limit (f a) (f' a)) : SameUnless limit (x >>= f) (y >>= f') := by
  rcases h with h | h
  · rw [h]
    exact .inl rfl
  · rw [h]
    cases x with
    | error e => exact .refl _
    | ok a => exact hf a

theorem SameUnless.foldlM {f f' : β → α → Except ε β}
    (hf : ∀ b a, SameUnless limit (f b a) (f' b a)) (as : List α) (b : β) :
    SameUnless limit (as.foldlM f b) (as.foldlM f' b) := by
  induction as generalizing b with
  | nil => exact .refl _
  | cons a rest ih =>
      rw [List.foldlM_cons, List.foldlM_cons]
      exact (hf b a).bind ih

end SameUnless

/-- A computation along a list fails at one of the elements, after those before it. -/
theorem foldlM_eq_error {f : β → α → Except ε β} {as : List α} {b : β} {e : ε}
    (h : as.foldlM f b = .error e) :
    ∃ before a after c, as = before ++ a :: after ∧ before.foldlM f b = .ok c ∧
      f c a = .error e := by
  induction as generalizing b with
  | nil => cases h
  | cons a rest ih =>
      rw [List.foldlM_cons] at h
      rcases bind_eq_error.1 h with ha | ⟨c, hc, hrest⟩
      · exact ⟨[], a, rest, b, rfl, rfl, ha⟩
      · obtain ⟨before, other, after, d, rfl, hbefore, hother⟩ := ih hrest
        refine ⟨a :: before, other, after, d, rfl, ?_, hother⟩
        rw [List.foldlM_cons]
        exact bind_eq_ok.2 ⟨c, hc, hbefore⟩

/-- A computation for every element of a list fails at one of them. -/
theorem mapM_eq_error {f : α → Except ε β} {as : List α} {e : ε} (h : as.mapM f = .error e) :
    ∃ a ∈ as, f a = .error e := by
  induction as with
  | nil => cases h
  | cons a rest ih =>
      rw [List.mapM_cons] at h
      rcases bind_eq_error.1 h with ha | ⟨b, -, hrest⟩
      · exact ⟨a, List.mem_cons_self, ha⟩
      · rcases bind_eq_error.1 hrest with hothers | ⟨others, -, hdone⟩
        · obtain ⟨other, hother, hfails⟩ := ih hothers
          exact ⟨other, List.mem_cons_of_mem a hother, hfails⟩
        · cases hdone

theorem exists_of_isOk {x : Except ε α} (h : x.isOk = true) : ∃ a, x = .ok a := by
  cases x with
  | error e => cases h
  | ok a => exact ⟨a, rfl⟩

theorem exists_of_not_isOk {x : Except ε α} (h : x.isOk = false) : ∃ e, x = .error e := by
  cases x with
  | error e => exact ⟨e, rfl⟩
  | ok a => cases h

theorem toOption_eq_some {x : Except ε α} {a : α} : x.toOption = some a ↔ x = .ok a := by
  cases x with
  | error e => simp [Except.toOption]
  | ok b => simp [Except.toOption]

/-- A computation whose result is seen to pass a test has such a result. -/
theorem exists_of_any {x : Except ε α} {test : α → Bool} (h : x.toOption.any test = true) :
    ∃ a, x = .ok a ∧ test a = true := by
  cases x with
  | error e => cases h
  | ok a => exact ⟨a, rfl, h⟩

/-- A computation that is seen to fail with an error fails with it. -/
theorem eq_error_of_match [DecidableEq ε] {x : Except ε α} {e : ε}
    (h : (match x with
      | .error other => decide (other = e)
      | .ok _ => false) = true) : x = .error e := by
  cases x with
  | error other => exact congrArg Except.error (of_decide_eq_true h)
  | ok a => cases h

/-- A computation for every element of a list succeeds if each of them does. -/
theorem mapM_eq_ok {f : α → Except ε β} {as : List α} {bs : List β} :
    as.mapM f = .ok bs ↔ List.Forall₂ (fun a b => f a = .ok b) as bs := by
  induction as generalizing bs with
  | nil =>
      rw [List.mapM_nil, pure_eq_ok, List.forall₂_nil_left_iff]
      exact eq_comm
  | cons a rest ih =>
      rw [List.mapM_cons, bind_eq_ok]
      constructor
      · rintro ⟨b, hb, hrest⟩
        obtain ⟨others, hothers, hbs⟩ := bind_eq_ok.1 hrest
        rw [← pure_eq_ok.1 hbs]
        exact .cons hb (ih.1 hothers)
      · rintro (_ | ⟨hb, hothers⟩)
        exact ⟨_, hb, bind_eq_ok.2 ⟨_, ih.2 hothers, rfl⟩⟩

end LexicalModes
