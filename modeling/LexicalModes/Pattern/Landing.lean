import LexicalModes.Pattern.Engine

/-!
Where matches end. Look-behind takes a search back to before the position it was asked to begin at,
but only for a while: behind the tasks that are done there, a task waits that returns to a position
already reached or gives the attempt up. So it shows on the list of tasks that they will be over at
the origin or later (`Lands`), and as every step keeps this, of the current way of going on and of
those put aside, no match ends before the origin of its search.
-/

namespace LexicalModes.Pattern

/-! ### Automata -/

namespace Automaton

variable {a : Automaton} {anchored : Bool} {text : Text} {m : Match}

/-- A search that is at a position ends no match before it, but may keep one it found before. -/
theorem le_stop_of_searchFrom {steps i : Nat} {f : Frontier} {best : Option Match}
    (h : searchFrom a anchored text steps i f best = some m) : best = some m ∨ i ≤ m.stop := by
  induction steps generalizing i f best with
  | zero => exact .inl h
  | succ steps ih =>
      rw [searchFrom] at h
      generalize (if best.isNone && !anchored then _ else f) = f at h
      split at h
      · exact .inl h
      · rcases ih h with hbest | hlater
        · split at hbest
          · cases hbest
            exact .inr (Nat.le_refl i)
          · exact .inl hbest
        · exact .inr (Nat.le_of_succ_le hlater)

theorem le_stop_of_find? {i : Nat} (h : a.find? text i = some m) : i ≤ m.stop :=
  (le_stop_of_searchFrom h).resolve_left nofun

theorem le_stop_of_matchAt? {i : Nat} (h : a.matchAt? text i = some m) : i ≤ m.stop :=
  (le_stop_of_searchFrom h).resolve_left nofun

end Automaton

/-! ### Searches -/

/-- The tasks will be over at the origin or later, or will fail, if what is given tells whether the
search is there when it takes them up. -/
def Lands (origin : Nat) : List Task → Prop → Prop
  | [], there => there
  | .refuse _ :: _, _ => True
  | .moveTo i :: rest, _ => Lands origin rest (origin ≤ i)
  | .goBack _ :: rest, _ => Lands origin rest False
  | .run _ :: rest, there | .seek _ :: rest, there | .seekNext _ :: rest, there
  | .close _ :: rest, there | .again _ _ _ _ _ _ :: rest, there | .cut :: rest, there =>
    Lands origin rest there

section

variable {origin : Nat} {tasks : List Task}

theorem Lands.mono {there here : Prop} (h : Lands origin tasks there) (himp : there → here) :
    Lands origin tasks here := by
  induction tasks generalizing there here with
  | nil => exact himp h
  | cons task rest ih =>
      cases task with
      | refuse height => trivial
      | moveTo i => exact h
      | goBack count => exact h
      | run plan => exact ih h himp
      | seek plan => exact ih h himp
      | seekNext plan => exact ih h himp
      | close index => exact ih h himp
      | again body least most greedy guard done => exact ih h himp
      | cut => exact ih h himp

/-- Going forward from where the tasks land keeps this. -/
theorem Lands.forward {i j : Nat} (h : Lands origin tasks (origin ≤ i)) (hij : i ≤ j) :
    Lands origin tasks (origin ≤ j) :=
  h.mono fun hi => Nat.le_trans hi hij

theorem lands_map_run_append (plans : List Plan) (there : Prop) :
    Lands origin (plans.map .run ++ tasks) there ↔ Lands origin tasks there := by
  induction plans with
  | nil => rfl
  | cons plan rest ih => exact ih

end

/-- All ways of going on land. -/
structure Search.Lands (origin : Nat) (s : Search) : Prop where
  current : Pattern.Lands origin s.current.tasks (origin ≤ s.current.i)
  choices : ∀ b ∈ s.choices, Pattern.Lands origin b.tasks (origin ≤ b.i)

/-- What a step leads to lands: the next state does, or the match has ended at the origin or
later. -/
def Progress.Lands (origin : Nat) : Progress → Prop
  | .searching next => next.Lands origin
  | .found _ stop => origin ≤ stop
  | .failed | .givenUp _ => True

namespace Search

variable {origin : Nat} {s : Search} {tasks : List Task}

theorem lands_fail (hchoices : ∀ b ∈ s.choices, Pattern.Lands origin b.tasks (origin ≤ b.i)) :
    s.fail.Lands origin := by
  unfold fail
  split
  · trivial
  · rename_i b rest hcons
    rw [hcons] at hchoices
    split
    · trivial
    · exact ⟨hchoices b List.mem_cons_self, fun c hc => hchoices c (List.mem_cons_of_mem b hc)⟩

theorem lands_go (hchoices : ∀ b ∈ s.choices, Pattern.Lands origin b.tasks (origin ≤ b.i))
    {i : Nat} (htasks : Pattern.Lands origin tasks (origin ≤ i)) : (s.go tasks i).Lands origin :=
  ⟨htasks, hchoices⟩

theorem lands_choose (hchoices : ∀ b ∈ s.choices, Pattern.Lands origin b.tasks (origin ≤ b.i))
    {first second : List Task} (hfirst : Pattern.Lands origin first (origin ≤ s.current.i))
    (hsecond : Pattern.Lands origin second (origin ≤ s.current.i)) :
    (s.choose first second).Lands origin := by
  unfold choose
  split
  · trivial
  · refine ⟨hfirst, fun b hb => ?_⟩
    rcases List.mem_cons.1 hb with rfl | hb
    · exact hsecond
    · exact hchoices b hb

theorem mem_choices_cutTo {height : Nat} {b : Branch} (hb : b ∈ (s.cutTo height).choices) :
    b ∈ s.choices := List.mem_of_mem_drop hb

theorem setGuard_choices (guard : Option Nat) : (s.setGuard guard).choices = s.choices := by
  cases guard <;> rfl

theorem setGuard_i (guard : Option Nat) : (s.setGuard guard).current.i = s.current.i := by
  cases guard <;> rfl

variable (hchoices : ∀ b ∈ s.choices, Pattern.Lands origin b.tasks (origin ≤ b.i))
  {rest : List Task} (hrest : Pattern.Lands origin rest (origin ≤ s.current.i))

include hchoices hrest

theorem lands_matchGroup (text : Text) (index : Nat) :
    (s.matchGroup text index rest).Lands origin := by
  unfold matchGroup
  split
  · dsimp only
    split
    · exact lands_go hchoices (hrest.forward (Nat.le_add_right _ _))
    · exact lands_fail hchoices
  · exact lands_fail hchoices

theorem lands_round (body : Plan) (least : Nat) (most : Option Nat) (greedy : Bool)
    (guard : Option Nat) (done : Nat) :
    (s.round body least most greedy guard done rest).Lands origin := by
  have hguarded : ∀ b ∈ (s.setGuard guard).choices,
      Pattern.Lands origin b.tasks (origin ≤ b.i) := by
    rw [setGuard_choices]
    exact hchoices
  have hi := setGuard_i (s := s) guard
  unfold round
  dsimp only
  split
  · exact lands_fail hchoices
  · split
    · exact lands_go hchoices hrest
    · split
      · exact lands_go hchoices hrest
      · split
        · exact lands_choose hguarded (by rw [hi]; exact hrest) (by rw [hi]; exact hrest)
        · exact lands_choose hguarded (by rw [hi]; exact hrest) (by rw [hi]; exact hrest)

/-- Whatever plan is carried out, the tasks after it still land. -/
theorem lands_perform (text : Text) (start : Nat) (plan : Plan) :
    (s.perform text start plan rest).Lands origin := by
  cases plan with
  | regular automaton firstGroup =>
      simp only [perform]
      split
      · rename_i found hfound
        exact lands_go (s := s.setGroups firstGroup found.slots) hchoices
          (hrest.forward (Automaton.le_stop_of_matchAt? hfound))
      · exact lands_fail hchoices
  | chars set =>
      simp only [perform]
      split
      · split
        · exact lands_go hchoices (hrest.forward (Nat.le_succ _))
        · exact lands_fail hchoices
      · exact lands_fail hchoices
  | assertion condition =>
      simp only [perform]
      split
      · exact lands_go hchoices hrest
      · exact lands_fail hchoices
  | seq parts => exact lands_go hchoices ((lands_map_run_append parts _).2 hrest)
  | alt branches =>
      cases branches with
      | nil => exact lands_fail hchoices
      | cons b others =>
          cases others with
          | nil => exact lands_go hchoices hrest
          | cons c others => exact lands_choose hchoices hrest hrest
  | group index body => exact lands_go (s := s.setSlot (2 * index) s.current.i) hchoices hrest
  | loop body least most greedy guard =>
      exact lands_round hchoices hrest body least most greedy guard 0
  | look back positive body =>
      -- The return to here, or the refusal, comes right after what is done further back.
      cases positive with
      | true => exact lands_go hchoices hrest
      | false => exact lands_choose hchoices trivial hrest
  | backref index => exact lands_matchGroup hchoices hrest _ _
  | atomic body => exact lands_go (s := s.pushHeight) hchoices hrest
  | keep => exact lands_go (s := s.setSlot 0 s.current.i) hchoices hrest
  | origin =>
      simp only [perform]
      split
      · exact lands_go hchoices hrest
      · exact lands_fail hchoices
  | isSet index =>
      simp only [perform]
      split
      · exact lands_go hchoices hrest
      · exact lands_fail hchoices
  | cond test yes no => exact lands_choose (s := s.pushHeight) hchoices hrest hrest

omit hchoices hrest

/-- **Landing step.** A step from a state that lands leads to one that does, or to a match that
ends at the origin or later. -/
theorem Lands.step (h : s.Lands origin) (text : Text) (start : Nat) :
    (s.step text start).Lands origin := by
  obtain ⟨hcurrent, hchoices⟩ := h
  unfold Search.step
  dsimp only
  split
  case h_1 htasks =>
    rw [htasks] at hcurrent
    exact hcurrent
  case h_2 plan rest htasks =>
    rw [htasks] at hcurrent
    change Pattern.Lands origin rest _ at hcurrent
    exact lands_perform hchoices hcurrent text start plan
  case h_3 plan rest htasks =>
    rw [htasks] at hcurrent
    exact lands_choose (s := s.setSlot 0 s.current.i) hchoices hcurrent hcurrent
  case h_4 plan rest htasks =>
    rw [htasks] at hcurrent
    change Pattern.Lands origin rest _ at hcurrent
    split
    · exact lands_go hchoices (hcurrent.forward (Nat.le_succ s.current.i))
    · exact lands_fail hchoices
  case h_5 index rest htasks =>
    rw [htasks] at hcurrent
    exact lands_go (s := s.setSlot (2 * index + 1) s.current.i) hchoices hcurrent
  case h_6 body least most greedy guard done rest htasks =>
    rw [htasks] at hcurrent
    change Pattern.Lands origin rest _ at hcurrent
    exact lands_round hchoices hcurrent body least most greedy guard done
  case h_7 rest htasks =>
    rw [htasks] at hcurrent
    change Pattern.Lands origin rest _ at hcurrent
    split
    · exact lands_go hchoices hcurrent
    · refine lands_go ?_ hcurrent
      exact fun b hb => hchoices b (mem_choices_cutTo hb)
  case h_8 height rest htasks =>
    exact lands_fail fun b hb => hchoices b (mem_choices_cutTo hb)
  case h_9 count rest htasks =>
    rw [htasks] at hcurrent
    change Pattern.Lands origin rest False at hcurrent
    split
    · exact lands_go hchoices (hcurrent.mono False.elim)
    · exact lands_fail hchoices
  case h_10 i rest htasks =>
    rw [htasks] at hcurrent
    exact lands_go hchoices hcurrent

/-- **Landing.** A search all of whose ways land finds no match that ends before the origin. -/
theorem Lands.run (h : s.Lands origin) {text : Text} {fuel start first last : Nat}
    (hrun : Search.run text start fuel s = .ok (some (first, last))) : origin ≤ last := by
  induction fuel generalizing s with
  | zero => cases hrun
  | succ fuel ih =>
      have hstep := h.step text start
      rw [Search.run] at hrun
      split at hrun
      case h_1 next hnext =>
        rw [hnext] at hstep
        exact ih hstep hrun
      case h_2 hfound =>
        rw [hfound] at hstep
        cases hrun
        exact hstep
      case h_3 => cases hrun
      case h_4 => cases hrun

end Search

theorem Plan.le_stop_of_find? {plan : Plan} {groups guards i first last : Nat} {text : Text}
    (h : plan.find? groups guards text i = .ok (some (first, last))) : i ≤ last := by
  refine Search.Lands.run ⟨?_, ?_⟩ h
  · exact Nat.le_refl i
  · intro b hb
    cases hb

theorem Span.bounds_of_ofBounds? {low size start stop : Nat} {span : Span low size}
    (h : Span.ofBounds? low size start stop = some span) :
    span.start = start ∧ span.stop = stop := by
  unfold Span.ofBounds? at h
  split at h
  · cases h
    exact ⟨rfl, rfl⟩
  · cases h

/-- No match ends before the position that it was searched from. -/
theorem Engine.le_stop_of_search {engine : Engine} {text : Text} {low i : Nat}
    {span : Span low text.size} (h : engine.search text low i = .ok (some span)) :
    i ≤ span.stop := by
  cases engine with
  | automaton a =>
      obtain ⟨m, hm, hspan⟩ := Option.bind_eq_some_iff.1 (Except.ok.inj h)
      rw [(Span.bounds_of_ofBounds? hspan).2]
      exact Automaton.le_stop_of_find? hm
  | planned plan groups guards =>
      rw [Engine.search] at h
      cases hfound : plan.find? groups guards text i with
      | error e =>
          rw [hfound] at h
          cases h
      | ok result =>
          rw [hfound] at h
          obtain ⟨⟨first, last⟩, rfl, hspan⟩ := Option.bind_eq_some_iff.1 (Except.ok.inj h)
          rw [(Span.bounds_of_ofBounds? hspan).2]
          exact Plan.le_stop_of_find? hfound

end LexicalModes.Pattern
